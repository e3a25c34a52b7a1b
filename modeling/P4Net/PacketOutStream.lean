import P4Net.PacketOutLog

/-!
# What a stream gets to send

`QueuesReady` says that the queue of a stream starts with its arbitration update and
that packets follow on established connections.  It holds in the runs in which
`send_packet_out` never puts into the queue of a connection that is still being set up
(`PutsToReady`).

The result is `requests_of_putsToReady`; `packet_precedes_arbitration` shows that the
condition is needed.
-/

namespace P4Net
namespace PacketOut

open Runs
open SyncClient (Gen Tid StreamChannelOutcome Response)

/-- The connection that an agent has opened without putting its arbitration update yet. -/
def Pc.opens : Pc → Option Gen
  | .connectOutgoing g => some g
  | .connectStream g => some g
  | .connectPut g => some g
  | _ => none

/-- The connection whose arbitration an agent awaits. -/
def Pc.attends : Pc → Option Gen
  | .waiting g => some g
  | .finishAcquire g => some g
  | .finishCheck g => some g
  | .finishConnected g => some g
  | _ => none

/-- The points inside a locked section. -/
def Pc.holdsLock : Pc → Bool
  | .connectConnected => true
  | .connectClosed => true
  | .connectChannel => true
  | .connectOutgoing _ => true
  | .connectStream _ => true
  | .connectPut _ => true
  | .finishCheck _ => true
  | .finishConnected _ => true
  | .teardownGuard _ _ => true
  | .teardownClosed _ => true
  | .teardownWas _ => true
  | .teardownConnected _ _ => true
  | .teardownPut _ => true
  | .teardownClear _ => true
  | .teardownOutgoing _ => true
  | .responseSection _ _ => true
  | .exceptSection _ => true
  | .finallySection _ => true
  | _ => false

@[simp] theorem Next.opens_pc
    (next : Next) :
    next.pc.opens = none := by
  cases next <;> rfl

@[simp] theorem Next.attends_pc
    (next : Next) :
    next.pc.attends = none := by
  cases next <;> rfl

@[simp] theorem Next.holdsLock_pc
    (next : Next) :
    next.pc.holdsLock = false := by
  cases next <;> rfl

/--
`send_packet_out` puts its request only into the queue of a connection that has
completed arbitration, or behind a sentinel.
-/
def PutsToReady (w : World) : Label → Prop
  | .send a => ∀ n g, w.pcs a = .sendPut n g → g ∈ w.established ∨ .sentinel ∈ w.puts g
  | _ => True

/-- Queues start with their arbitration update, or are closed before it. -/
structure QueuesReady (w : World) : Prop where
  lock : ∀ a, (w.pcs a).holdsLock = true → w.lockOwner = some a
  opening : ∀ a g, (w.pcs a).opens = some g → g < w.nextGen ∧ w.puts g = []
  attending : ∀ a g, (w.pcs a).attends = some g → (w.puts g).head? = some .arbitration
  unopened : ∀ g, w.nextGen ≤ g → w.puts g = []
  outgoing : ∀ g, w.outgoing = some g → g < w.nextGen
  established : ∀ g ∈ w.established, (w.puts g).head? = some .arbitration
  head : ∀ g item, (w.puts g).head? = some item → item = .arbitration ∨ item = .sentinel
  tail : ∀ g, .arbitration ∉ (w.puts g).tail
  ready : ∀ n g, .packet n ∈ (w.puts g).takeWhile (fun item => item ≠ .sentinel) →
    g ∈ w.established

theorem queuesReady_init : QueuesReady {} := by
  constructor <;> simp [Pc.holdsLock, Pc.opens, Pc.attends]

theorem queuesReady_setPc
    {w : World} {a : Agent} {pc : Pc} (h : QueuesReady w)
    (hlock : pc.holdsLock = true → w.lockOwner = some a)
    (hopens : ∀ g, pc.opens = some g → g < w.nextGen ∧ w.puts g = [])
    (hattends : ∀ g, pc.attends = some g → (w.puts g).head? = some .arbitration) :
    QueuesReady (setPc a pc w) := by
  refine { h with lock := ?_, opening := ?_, attending := ?_ }
  · intro b hb
    by_cases hab : b = a
    · subst hab
      exact hlock (by simpa [setPc] using hb)
    · exact h.lock b (by simpa [setPc, hab] using hb)
  · intro b g hb
    by_cases hab : b = a
    · subst hab
      exact hopens g (by simpa [setPc] using hb)
    · exact h.opening b g (by simpa [setPc, hab] using hb)
  · intro b g hb
    by_cases hab : b = a
    · subst hab
      exact hattends g (by simpa [setPc] using hb)
    · exact h.attending b g (by simpa [setPc, hab] using hb)

/-- A step outside of every opening section. -/
theorem queuesReady_move
    {w : World} {a : Agent} {pc : Pc} (h : QueuesReady w)
    (hlock : pc.holdsLock = true → w.lockOwner = some a)
    (hopens : pc.opens = none)
    (hattends : pc.attends = none ∨ pc.attends = (w.pcs a).attends) :
    QueuesReady (setPc a pc w) := by
  refine queuesReady_setPc h hlock (by simp [hopens]) ?_
  intro g hg
  rcases hattends with hnone | hsame
  · rw [hnone] at hg
    cases hg
  · exact h.attending a g (hsame ▸ hg)

theorem queuesReady_acquire
    {w w' : World} {a : Agent} {pc : Pc} (h : QueuesReady w)
    (hstep : acquire a pc w = some w')
    (hopens : pc.opens = none)
    (hattends : pc.attends = none ∨ pc.attends = (w.pcs a).attends) :
    QueuesReady w' := by
  obtain ⟨hfree, rfl⟩ := acquire_eq_some hstep
  have hlocked : QueuesReady { w with lockOwner := some a } := by
    refine { h with lock := ?_ }
    intro b hb
    rw [h.lock b hb] at hfree
    cases hfree
  exact queuesReady_move hlocked (fun _ => rfl) hopens hattends

/-- Leaving a section: nobody else was inside. -/
theorem queuesReady_release
    {w : World} {a : Agent} {pc : Pc} (h : QueuesReady w)
    (hpc : (w.pcs a).holdsLock = true)
    (hlock : pc.holdsLock = false) (hopens : pc.opens = none)
    (hattends : ∀ g, pc.attends = some g → (w.puts g).head? = some .arbitration) :
    QueuesReady (release a pc w) := by
  have howner := h.lock a hpc
  refine { h with lock := ?_, opening := ?_, attending := ?_ }
  · intro b hb
    by_cases hab : b = a
    · subst hab
      simp [release, setPc, hlock] at hb
    · have hb' := h.lock b (by simpa [release, setPc, hab] using hb)
      exact absurd (Option.some.inj (hb'.symm.trans howner)) hab
  · intro b g hb
    by_cases hab : b = a
    · subst hab
      simp [release, setPc, hopens] at hb
    · exact h.opening b g (by simpa [release, setPc, hab] using hb)
  · intro b g hb
    by_cases hab : b = a
    · subst hab
      exact hattends g (by simpa [release, setPc] using hb)
    · exact h.attending b g (by simpa [release, setPc, hab] using hb)

/-- Inside its section an agent is the only one to open a connection. -/
theorem queuesReady_not_opening
    {w : World} (h : QueuesReady w) {a : Agent}
    (hpc : (w.pcs a).holdsLock = true) (hopens : (w.pcs a).opens = none)
    (b : Agent) (g : Gen) :
    (w.pcs b).opens ≠ some g := by
  intro hb
  have hheld : (w.pcs b).holdsLock = true := by
    cases hpcb : w.pcs b <;> simp_all [Pc.opens, Pc.holdsLock]
  have hab := (h.lock b hheld).symm.trans (h.lock a hpc)
  obtain rfl := Option.some.inj hab
  rw [hopens] at hb
  cases hb

/-- What a longer list adds to the items before the first that fails `p`. -/
theorem mem_takeWhile_concat
    {α : Type} {p : α → Bool} {x y : α} {l : List α}
    (h : x ∈ (l ++ [y]).takeWhile p) :
    x ∈ l.takeWhile p ∨ (x = y ∧ ∀ z ∈ l, p z = true) := by
  induction l with
  | nil =>
      have hmem := (List.takeWhile_prefix p).subset h
      exact Or.inr ⟨by simpa using hmem, by simp⟩
  | cons z rest ih =>
      rw [List.cons_append, List.takeWhile_cons] at h
      split_ifs at h with hz
      · rcases List.mem_cons.mp h with rfl | h
        · exact Or.inl (by simp [hz])
        · rcases ih h with hold | ⟨hxy, hall⟩
          · exact Or.inl (by simp [hz, hold])
          · exact Or.inr ⟨hxy, by simpa [hz] using hall⟩
      · cases h

/-- A put into a queue that nobody is opening, of an item that is due there. -/
theorem queuesReady_putItem
    {w : World} (h : QueuesReady w) {g : Gen} {item : Item}
    (hopened : g < w.nextGen)
    (hopening : ∀ a, (w.pcs a).opens ≠ some g)
    (hfirst : w.puts g = [] → item = .arbitration ∨ item = .sentinel)
    (hitem : item = .arbitration → w.puts g = [])
    (hready : ∀ n, item = .packet n → g ∈ w.established ∨ .sentinel ∈ w.puts g) :
    QueuesReady (putItem g item w) := by
  have hputs : ∀ g', (putItem g item w).puts g' =
      if g' = g then w.puts g ++ [item] else w.puts g' := by
    intro g'
    by_cases hg : g' = g
    · subst hg
      simp [putItem]
    · simp [putItem, hg]
  have hhead : ∀ g', (w.puts g').head? = some .arbitration →
      ((putItem g item w).puts g').head? = some .arbitration := by
    intro g' hg'
    rw [hputs]
    split_ifs with heq
    · subst heq
      simp [List.head?_append, hg']
    · exact hg'
  constructor
  case lock => exact h.lock
  case outgoing => exact h.outgoing
  case attending => exact fun a g' ha => hhead g' (h.attending a g' ha)
  case established => exact fun g' hg' => hhead g' (h.established g' hg')
  case opening =>
    intro a g' ha
    obtain ⟨hlt, hempty⟩ := h.opening a g' ha
    have hne : g' ≠ g := fun heq => hopening a (heq ▸ ha)
    exact ⟨hlt, by rw [hputs, if_neg hne]; exact hempty⟩
  case unopened =>
    intro g' hg'
    have hne : g' ≠ g := fun heq => absurd hopened (Nat.not_lt.mpr (heq ▸ hg'))
    rw [hputs, if_neg hne]
    exact h.unopened g' hg'
  case head =>
    intro g' item' hitem'
    rw [hputs] at hitem'
    split_ifs at hitem' with heq
    · cases hold : w.puts g with
      | nil =>
          simp only [hold, List.nil_append, List.head?_cons, Option.some.injEq] at hitem'
          exact hitem' ▸ hfirst hold
      | cons first rest =>
          simp only [hold, List.cons_append, List.head?_cons, Option.some.injEq] at hitem'
          exact h.head g item' (by simp [hold, hitem'])
    · exact h.head g' item' hitem'
  case tail =>
    intro g'
    rw [hputs]
    split_ifs with heq
    · have htail := h.tail g
      cases hold : w.puts g with
      | nil => simp
      | cons first rest =>
          have hne : Item.arbitration ≠ item := by
            rintro rfl
            simp [hitem rfl] at hold
          rw [hold] at htail
          simpa [hne] using htail
    · exact h.tail g'
  case ready =>
    intro n g' hmem
    rw [hputs] at hmem
    split_ifs at hmem with heq
    · subst heq
      rcases mem_takeWhile_concat hmem with hold | ⟨hn, hlive⟩
      · exact h.ready n g' hold
      · rcases hready n hn.symm with hest | hsentinel
        · exact hest
        · exact absurd (hlive _ hsentinel) (by simp)
    · exact h.ready n g' hmem

/-- The locked section of `connect` ends with the first put into its queue. -/
theorem queuesReady_connectPut
    {w : World} (h : QueuesReady w) {a : Agent} {g : Gen} (hpc : w.pcs a = .connectPut g) :
    QueuesReady (release a (.waiting g) (putItem g .arbitration w)) := by
  obtain ⟨hlt, hempty⟩ := h.opening a g (by rw [hpc]; rfl)
  have hheld : (w.pcs a).holdsLock = true := by
    rw [hpc]
    rfl
  have hidle : QueuesReady (release a .idle w) :=
    queuesReady_release h hheld rfl rfl (by simp [Pc.attends])
  have hnone : ∀ b, ((release a .idle w).pcs b).opens ≠ some g := by
    intro b hb
    have hlock : ((release a .idle w).pcs b).holdsLock = true := by
      cases hpcb : (release a .idle w).pcs b <;> simp_all [Pc.opens, Pc.holdsLock]
    have howner := hidle.lock b hlock
    cases howner
  have hput : QueuesReady (putItem g .arbitration (release a .idle w)) :=
    queuesReady_putItem hidle hlt hnone (fun _ => Or.inl rfl) (fun _ => hempty) (by simp)
  have hwait : QueuesReady (setPc a (.waiting g) (putItem g .arbitration (release a .idle w))) := by
    refine queuesReady_setPc hput (by simp [Pc.holdsLock]) (by simp [Pc.opens]) ?_
    intro g' hg'
    obtain rfl := Option.some.inj hg'
    simp [putItem, release, setPc, hempty]
  simpa [release, setPc, putItem, Function.update_idem] using hwait

theorem queuesReady_sendStep
    {w w' : World} {a : Agent}
    (h : QueuesReady w) (hok : PutsToReady w (.send a))
    (hstep : sendStep w a (w.pcs a) = some w') :
    QueuesReady w' := by
  have hmove : ∀ pc : Pc, pc.holdsLock = false → pc.opens = none → pc.attends = none →
      QueuesReady (setPc a pc w) := fun pc hlock hopens hattends =>
    queuesReady_move h (by simp [hlock]) hopens (Or.inl hattends)
  have hraise : ∀ n, QueuesReady (raiseSend a n w) :=
    fun n => { hmove .idle rfl rfl rfl with }
  cases hpc : w.pcs a <;> simp only [hpc, sendStep, reduceCtorEq] at hstep
  case sendConnected n =>
    obtain rfl := Option.some.inj hstep
    split_ifs
    · exact hmove _ rfl rfl rfl
    · exact hraise n
  case sendClosed n =>
    obtain rfl := Option.some.inj hstep
    split_ifs
    · exact hraise n
    · exact hmove _ rfl rfl rfl
  case sendOutgoing n =>
    cases hout : w.outgoing <;> simp only [hout] at hstep <;> obtain rfl := Option.some.inj hstep
    · exact hraise n
    · exact hmove _ rfl rfl rfl
  case sendPut n g =>
    obtain rfl := Option.some.inj hstep
    have hready := hok n g hpc
    have hne : w.puts g ≠ [] := by
      intro hempty
      rcases hready with hest | hsentinel
      · have hhead := h.established g hest
        simp [hempty] at hhead
      · simp [hempty] at hsentinel
    have hlt : g < w.nextGen := by
      by_contra hge
      exact hne (h.unopened g (Nat.not_lt.mp hge))
    have hput : QueuesReady (putItem g (.packet n) w) :=
      queuesReady_putItem h hlt (fun b hb => hne (h.opening b g hb).2) (fun hempty =>
        absurd hempty hne) (by simp) (fun _ _ => hready)
    exact queuesReady_move hput (by simp [Pc.holdsLock]) rfl (Or.inl rfl)

theorem queuesReady_connectStep
    {w w' : World} {a : Agent}
    (h : QueuesReady w) (hstep : connectStep w a (w.pcs a) = some w') :
    QueuesReady w' := by
  cases hpc : w.pcs a <;> simp only [hpc, connectStep, reduceCtorEq] at hstep
  case staleConnected =>
    obtain rfl := Option.some.inj hstep
    split_ifs <;> exact queuesReady_move h (by simp [Pc.holdsLock]) rfl (Or.inl rfl)
  case connectAcquire => exact queuesReady_acquire h hstep rfl (Or.inl rfl)
  case finishAcquire g => exact queuesReady_acquire h hstep rfl (Or.inr (by rw [hpc]; rfl))
  case connectPut g =>
    obtain rfl := Option.some.inj hstep
    exact queuesReady_connectPut h hpc
  all_goals
    have hheld : (w.pcs a).holdsLock = true := by
      rw [hpc]
      rfl
    have howner := h.lock a hheld
    obtain rfl := Option.some.inj hstep
  case connectConnected =>
    split_ifs
    · exact queuesReady_release h hheld rfl rfl (by simp [Pc.attends])
    · exact queuesReady_move h (fun _ => howner) rfl (Or.inl rfl)
  case connectClosed => exact queuesReady_move { h with } (fun _ => howner) rfl (Or.inl rfl)
  case connectChannel =>
    have hgrow : QueuesReady { w with channel := some w.nextGen, nextGen := w.nextGen + 1 } :=
      { h with
        opening := fun b g hb => ⟨Nat.lt_succ_of_lt (h.opening b g hb).1, (h.opening b g hb).2⟩
        unopened := fun g hg => h.unopened g (Nat.le_of_succ_le hg)
        outgoing := fun g hg => Nat.lt_succ_of_lt (h.outgoing g hg) }
    refine queuesReady_setPc hgrow (fun _ => howner) ?_ (by simp [Pc.attends])
    intro g hg
    obtain rfl := Option.some.inj hg
    exact ⟨Nat.lt_succ_self _, h.unopened _ (Nat.le_refl _)⟩
  case connectOutgoing g =>
    have hopening := h.opening a g (by rw [hpc]; rfl)
    have hout : QueuesReady { w with
        outgoing := some g
        streamEvent := some g
        arbitration := none
        streamError := false } := by
      refine { h with outgoing := ?_ }
      intro g' hg'
      obtain rfl := Option.some.inj hg'
      exact hopening.1
    refine queuesReady_setPc hout (fun _ => howner) ?_ (by simp [Pc.attends])
    intro g' hg'
    obtain rfl := Option.some.inj hg'
    exact hopening
  case finishCheck g =>
    split_ifs
    · exact queuesReady_move h (fun _ => howner) rfl (Or.inr (by rw [hpc]; rfl))
    · exact queuesReady_release h hheld rfl rfl (by simp [Pc.attends])
  case finishConnected g =>
    have hest : QueuesReady { w with connected := true, established := g :: w.established } := by
      refine { h with established := ?_, ready := ?_ }
      · intro g' hg'
        rcases List.mem_cons.mp hg' with rfl | hg'
        · exact h.attending a _ (by rw [hpc]; rfl)
        · exact h.established g' hg'
      · exact fun n g' hmem => List.mem_cons_of_mem _ (h.ready n g' hmem)
    exact queuesReady_release hest hheld rfl rfl (by simp [Pc.attends])

theorem queuesReady_teardownStep
    {w w' : World} {a : Agent}
    (h : QueuesReady w) (hstep : teardownStep w a (w.pcs a) = some w') :
    QueuesReady w' := by
  cases hpc : w.pcs a <;> simp only [hpc, teardownStep, reduceCtorEq] at hstep
  case teardownAcquire expected next => exact queuesReady_acquire h hstep rfl (Or.inl rfl)
  all_goals
    have hheld : (w.pcs a).holdsLock = true := by
      rw [hpc]
      rfl
    have howner := h.lock a hheld
  case teardownPut next =>
    have hnone := queuesReady_not_opening h hheld (by rw [hpc]; rfl)
    cases hout : w.outgoing <;> simp only [hout] at hstep <;> obtain rfl := Option.some.inj hstep
    · exact queuesReady_move h (fun _ => howner) rfl (Or.inl rfl)
    · have hput : QueuesReady (putItem _ .sentinel w) :=
        queuesReady_putItem h (h.outgoing _ hout) (fun b => hnone b _) (fun _ => Or.inr rfl)
          (by simp) (by simp)
      exact queuesReady_move hput (fun _ => howner) rfl (Or.inl rfl)
  all_goals obtain rfl := Option.some.inj hstep
  case teardownGuard expected next =>
    split_ifs
    · exact queuesReady_move h (fun _ => howner) rfl (Or.inl rfl)
    · exact queuesReady_release h hheld (by simp) (by simp) (by simp)
  case teardownConnected wasConnected next =>
    split_ifs
    · exact queuesReady_move { h with } (fun _ => howner) rfl (Or.inl rfl)
    · exact queuesReady_move { h with } (fun _ => howner) rfl (Or.inl rfl)
  case teardownOutgoing next =>
    have hout : QueuesReady { w with outgoing := none } := { h with outgoing := by simp }
    exact queuesReady_release hout hheld (by simp) (by simp) (by simp)
  all_goals exact queuesReady_move { h with } (fun _ => howner) rfl (Or.inl rfl)

theorem queuesReady_consumerStep
    {w w' : World} {a : Agent}
    (h : QueuesReady w) (hstep : consumerStep w a (w.pcs a) = some w') :
    QueuesReady w' := by
  cases hpc : w.pcs a <;> simp only [hpc, consumerStep, reduceCtorEq] at hstep
  case responseAcquire g response => exact queuesReady_acquire h hstep rfl (Or.inl rfl)
  case exceptAcquire g => exact queuesReady_acquire h hstep rfl (Or.inl rfl)
  case finallyAcquire g => exact queuesReady_acquire h hstep rfl (Or.inl rfl)
  all_goals
    have hheld : (w.pcs a).holdsLock = true := by
      rw [hpc]
      rfl
    obtain rfl := Option.some.inj hstep
  case responseSection g response =>
    split_ifs
    · cases response
      · exact queuesReady_release { h with } hheld rfl rfl (by simp [Pc.attends])
      · exact queuesReady_release h hheld rfl rfl (by simp [Pc.attends])
    · exact queuesReady_release h hheld rfl rfl (by simp [Pc.attends])
  case exceptSection g =>
    exact queuesReady_release { h with } hheld rfl rfl (by simp [Pc.attends])
  case finallySection g =>
    split_ifs
    · exact queuesReady_move { h with } (fun _ => h.lock a hheld) rfl (Or.inl rfl)
    · exact queuesReady_release h hheld rfl rfl (by simp [Pc.attends])

theorem queuesReady_requestStep
    {w w' : World} {g : Gen}
    (h : QueuesReady w) (hstep : requestStep w g = some w') :
    QueuesReady w' := by
  unfold requestStep at hstep
  split_ifs at hstep
  split at hstep
  · cases hstep
  · obtain rfl := Option.some.inj hstep
    exact { h with }
  · obtain rfl := Option.some.inj hstep
    exact { h with }

theorem queuesReady_step
    {w w' : World} {label : Label}
    (h : QueuesReady w) (hok : PutsToReady w label) (hstep : step w label = some w') :
    QueuesReady w' := by
  cases stepCase_of_step hstep with
  | callSend t hidle =>
      have hmove : QueuesReady (setPc (.thread t) (.sendConnected w.nextPacket) w) :=
        queuesReady_move h (by simp [Pc.holdsLock]) rfl (Or.inl rfl)
      exact { hmove with }
  | callConnect t hidle =>
      split_ifs <;> exact queuesReady_move h (by simp [Pc.holdsLock]) rfl (Or.inl rfl)
  | callDisconnect t hidle => exact queuesReady_move h (by simp [Pc.holdsLock]) rfl (Or.inl rfl)
  | send a _ hsend => exact queuesReady_sendStep h hok hsend
  | encodeFails a n hpc =>
      have hmove : QueuesReady (setPc a .idle w) :=
        queuesReady_move h (by simp [Pc.holdsLock]) rfl (Or.inl rfl)
      exact { hmove with }
  | encode a n hpc => exact queuesReady_move h (by simp [Pc.holdsLock]) rfl (Or.inl rfl)
  | connect a _ hconnect => exact queuesReady_connectStep h hconnect
  | streamReturns a g hpc =>
      have hheld : (w.pcs a).holdsLock = true := by
        rw [hpc]
        rfl
      have hopening := h.opening a g (by rw [hpc]; rfl)
      have hreading : QueuesReady
          (setPc (.consumer g) (.reading g) { w with streamCall := some g }) :=
        queuesReady_move { h with } (by simp [Pc.holdsLock]) rfl (Or.inl rfl)
      refine queuesReady_setPc hreading (fun _ => h.lock a hheld) ?_ (by simp [Pc.attends])
      intro g' hg'
      obtain rfl := Option.some.inj hg'
      exact hopening
  | streamRpcError a g hpc =>
      have hheld : (w.pcs a).holdsLock = true := by
        rw [hpc]
        rfl
      exact queuesReady_move h (fun _ => h.lock a hheld) rfl (Or.inl rfl)
  | streamOtherError a g hpc =>
      have hheld : (w.pcs a).holdsLock = true := by
        rw [hpc]
        rfl
      exact queuesReady_release h hheld rfl rfl (by simp [Pc.attends])
  | eventSeen a g hpc hset =>
      exact queuesReady_move h (by simp [Pc.holdsLock]) rfl (Or.inr (by rw [hpc]; rfl))
  | waitTimeout a g hpc => exact queuesReady_move h (by simp [Pc.holdsLock]) rfl (Or.inl rfl)
  | teardown a _ hteardown => exact queuesReady_teardownStep h hteardown
  | response g r hpc => exact queuesReady_move h (by simp [Pc.holdsLock]) rfl (Or.inl rfl)
  | streamRaises g hpc => exact queuesReady_move h (by simp [Pc.holdsLock]) rfl (Or.inl rfl)
  | streamEnds g hpc => exact queuesReady_move h (by simp [Pc.holdsLock]) rfl (Or.inl rfl)
  | consumer a _ hconsumer => exact queuesReady_consumerStep h hconsumer
  | request g _ hrequest => exact queuesReady_requestStep h hrequest

/-! ### Requests on a stream -/

/-- What every stream has been sent so far. -/
structure RequestsInOrder (w : World) : Prop where
  /-- The first request is the arbitration update, and only packets follow. -/
  first : ∀ g item rest, w.yielded g = item :: rest →
    item = .arbitration ∧ ∀ item' ∈ rest, ∃ n, item' = .packet n
  /-- Requests are yielded in the order of the puts, up to the sentinel. -/
  order : ∀ g, w.yielded g <+: (w.puts g).takeWhile (fun item => item ≠ .sentinel)
  once : ∀ n g, (w.yielded g).count (.packet n) ≤ 1
  oneStream : ∀ n g g', .packet n ∈ w.yielded g → .packet n ∈ w.yielded g' → g = g'
  established : ∀ n g, .packet n ∈ w.yielded g → g ∈ w.established
  raised : ∀ n ∈ w.raised, ∀ g, .packet n ∉ w.yielded g

/--
In every run in which `send_packet_out` puts only into the queues of connections that
have completed arbitration, or behind their sentinel, every stream is sent its
arbitration update first, then the packets in order, each at most once.
-/
theorem requests_of_putsToReady
    (w : World) (h : Reaches step PutsToReady {} w) :
    RequestsInOrder w := by
  have hlog := requestLog_of_reaches h
  have hready : QueuesReady w :=
    h.invariant queuesReady_init fun _ _ _ hinv hok hstep => queuesReady_step hinv hok hstep
  have hlive := yielded_prefix hlog
  have hinitial : ∀ g, w.yielded g <+: w.puts g :=
    fun g => (hlive g).trans (List.takeWhile_prefix _)
  constructor
  case first =>
    intro g item rest hyield
    obtain ⟨tail, htail⟩ := hinitial g
    rw [hyield, List.cons_append] at htail
    have hnot := (hlog.generator g).1
    rw [hyield, List.mem_cons, not_or] at hnot
    refine ⟨?_, ?_⟩
    · rcases hready.head g item (by rw [← htail]; rfl) with harb | hsentinel
      · exact harb
      · exact absurd hsentinel.symm hnot.1
    · intro item' hmem
      have hnotail := hready.tail g
      rw [← htail] at hnotail
      cases item' with
      | arbitration => exact absurd (List.mem_append_left tail hmem) hnotail
      | packet n => exact ⟨n, rfl⟩
      | sentinel => exact absurd hmem hnot.2
  case order => exact hlive
  case once => exact fun n g => Nat.le_trans ((hinitial g).sublist.count_le _) (hlog.once n g)
  case oneStream =>
    exact fun n g g' hg hg' =>
      hlog.oneQueue n g g' ((hinitial g).subset hg) ((hinitial g').subset hg')
  case established => exact fun n g hmem => hready.ready n g ((hlive g).subset hmem)
  case raised => exact fun n hn g hmem => (hlog.raised n hn).2 g ((hinitial g).subset hmem)

/-- Thread 0 connects, up to the end of its call. -/
def connectRun : List Label :=
  [.callConnect 0, .connect (.thread 0), .connect (.thread 0), .connect (.thread 0),
    .connect (.thread 0), .connect (.thread 0), .streamChannel (.thread 0) .returns,
    .connect (.thread 0), .response 0 (.arbitration 0), .consumer (.consumer 0),
    .consumer (.consumer 0), .eventSeen (.thread 0), .connect (.thread 0),
    .connect (.thread 0), .connect (.thread 0)]

theorem putsToReady_of_connectRun
    (u : World) (a : Label) (ha : a ∈ connectRun) :
    PutsToReady u a := by
  cases a with
  | send b => simp [connectRun] at ha
  | _ => trivial

/-- One packet is sent on the established connection. -/
theorem requests_of_putsToReady_one_packet :
    ∃ w, w.yielded 0 = [.arbitration, .packet 0] ∧ RequestsInOrder w := by
  have hrun : ∃ w, Reaches step PutsToReady {} w ∧ w.yielded 0 = [.arbitration, .packet 0] := by
    refine ⟨_, ((((((((reaches_of_execute putsToReady_of_connectRun rfl).tail
      (a := .callSend 1) ?_ rfl).tail
      (a := .send (.thread 1)) ?_ rfl).tail
      (a := .send (.thread 1)) ?_ rfl).tail
      (a := .encode (.thread 1) false) ?_ rfl).tail
      (a := .send (.thread 1)) ?_ rfl).tail
      (a := .send (.thread 1)) ?_ rfl).tail
      (a := .request 0) ?_ rfl).tail
      (a := .request 0) ?_ rfl, rfl⟩
    · trivial
    · exact fun n g hpc => nomatch hpc
    · exact fun n g hpc => nomatch hpc
    · trivial
    · exact fun n g hpc => nomatch hpc
    · rintro n g hpc
      cases hpc
      exact Or.inl (List.mem_singleton.mpr rfl)
    · trivial
    · trivial
  obtain ⟨w, h, hyield⟩ := hrun
  exact ⟨w, hyield, requests_of_putsToReady w h⟩

/-- Thread 1 calls `send_packet_out`, up to its read of `_outgoing`. -/
def sendRun : List Label :=
  [.callSend 1, .send (.thread 1), .send (.thread 1), .encode (.thread 1) false]

/-- Thread 0 disconnects and begins to connect again. -/
def reconnectRun : List Label :=
  [.callDisconnect 0, .teardown (.thread 0), .teardown (.thread 0), .teardown (.thread 0),
    .teardown (.thread 0), .teardown (.thread 0), .teardown (.thread 0),
    .teardown (.thread 0), .teardown (.thread 0), .callConnect 0, .connect (.thread 0),
    .connect (.thread 0), .connect (.thread 0), .connect (.thread 0), .connect (.thread 0)]

/--
A disconnect and a reconnect between the checks of `send_packet_out` and its read of
the queue: the packet is the first request on the new stream.
-/
theorem packet_precedes_arbitration :
    ¬ ∀ w, Reaches step anyStep {} w → RequestsInOrder w := by
  intro hall
  have hrun : ∃ w, execute step {} (connectRun ++ sendRun ++ reconnectRun ++
      [.send (.thread 1), .send (.thread 1), .streamChannel (.thread 0) .returns,
        .request 1]) = some w ∧ w.yielded 1 = [.packet 0] :=
    ⟨_, rfl, rfl⟩
  obtain ⟨w, hexec, hyield⟩ := hrun
  have hfirst := (hall w (reaches_of_execute (fun _ _ _ => trivial) hexec)).first 1 _ _ hyield
  cases hfirst.1

end PacketOut
end P4Net
