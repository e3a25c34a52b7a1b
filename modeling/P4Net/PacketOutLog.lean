import P4Net.PacketOutSteps

/-!
# Every packet is put at most once

`RequestLog` relates the calls of `send_packet_out`, the queues and the streams over
every run: a call puts its own request at most once or raises, and a generator yields
what was put, in that order, up to the sentinel.
-/

namespace P4Net
namespace PacketOut

open Runs
open SyncClient (Gen Tid StreamChannelOutcome Response)

/-- The call of `send_packet_out` that an agent is in. -/
def Pc.sends : Pc → Option PacketId
  | .sendConnected n => some n
  | .sendClosed n => some n
  | .sendEncode n => some n
  | .sendOutgoing n => some n
  | .sendPut n _ => some n
  | _ => none

@[simp] theorem Next.sends_pc
    (next : Next) :
    next.pc.sends = none := by
  cases next <;> rfl

theorem acquire_eq_some
    {a : Agent} {pc : Pc} {w w' : World}
    (h : acquire a pc w = some w') :
    w.lockOwner = none ∧ w' = setPc a pc { w with lockOwner := some a } := by
  unfold acquire at h
  split_ifs at h with hfree
  exact ⟨Option.isNone_iff_eq_none.mp hfree, (Option.some.inj h).symm⟩

/--
Every call of `send_packet_out` puts its own request, at most once, or raises, and a
generator yields what was put up to the sentinel.
-/
structure RequestLog (w : World) : Prop where
  sending : ∀ a n, (w.pcs a).sends = some n →
    n < w.nextPacket ∧ n ∉ w.raised ∧ ∀ g, .packet n ∉ w.puts g
  sendingOnce : ∀ a b n, (w.pcs a).sends = some n → (w.pcs b).sends = some n → a = b
  raised : ∀ n ∈ w.raised, n < w.nextPacket ∧ ∀ g, .packet n ∉ w.puts g
  sent : ∀ n g, .packet n ∈ w.puts g → n < w.nextPacket
  once : ∀ n g, (w.puts g).count (.packet n) ≤ 1
  oneQueue : ∀ n g g', .packet n ∈ w.puts g → .packet n ∈ w.puts g' → g = g'
  generator : ∀ g, .sentinel ∉ w.yielded g ∧
    w.puts g = w.yielded g ++
      (if w.generatorDone g then .sentinel :: w.queue g else w.queue g)

theorem requestLog_init : RequestLog {} := by
  constructor <;> simp [Pc.sends]

theorem requestLog_setPc
    {w : World} {a : Agent} {pc : Pc} (h : RequestLog w)
    (hpc : pc.sends = none ∨ pc.sends = (w.pcs a).sends) :
    RequestLog (setPc a pc w) := by
  have hsends : ∀ b n, ((setPc a pc w).pcs b).sends = some n → (w.pcs b).sends = some n := by
    intro b n hb
    by_cases hab : b = a
    · subst hab
      simp only [setPc, Function.update_self] at hb
      rcases hpc with hnone | hsame
      · rw [hnone] at hb
        cases hb
      · rwa [← hsame]
    · simpa [setPc, hab] using hb
  exact { h with
    sending := fun b n hb => h.sending b n (hsends b n hb)
    sendingOnce := fun b c n hb hc => h.sendingOnce b c n (hsends b n hb) (hsends c n hc) }

theorem requestLog_raiseSend
    {w : World} (h : RequestLog w) {a : Agent} {n : PacketId}
    (hpc : (w.pcs a).sends = some n) :
    RequestLog (raiseSend a n w) := by
  have hmove : RequestLog (setPc a .idle w) := requestLog_setPc h (Or.inl rfl)
  obtain ⟨hlt, -, hputs⟩ := h.sending a n hpc
  refine { hmove with sending := ?_, raised := ?_ }
  · intro b m hb
    obtain ⟨hm, hraised, hmputs⟩ := hmove.sending b m hb
    refine ⟨hm, ?_, hmputs⟩
    rintro (_ | ⟨_, hmem⟩)
    · have hab : b = a := by
        by_contra hne
        have hb' : (w.pcs b).sends = some n := by
          simpa [raiseSend, setPc, hne] using hb
        exact hne (h.sendingOnce b a n hb' hpc)
      subst hab
      simp [raiseSend, setPc, Pc.sends] at hb
    · exact hraised hmem
  · intro m hm
    rcases List.mem_cons.mp hm with rfl | hm
    · exact ⟨hlt, hputs⟩
    · exact h.raised m hm

theorem mem_puts_putItem
    {w : World} {g g' : Gen} {item item' : Item} :
    item' ∈ (putItem g item w).puts g' ↔ item' ∈ w.puts g' ∨ (g' = g ∧ item' = item) := by
  by_cases hg : g' = g
  · subst hg
    simp [putItem]
  · simp [putItem, hg]

/-- A put appends to the queue and to its log. -/
theorem generator_putItem
    {w : World} (h : RequestLog w) (g g' : Gen) (item : Item) :
    .sentinel ∉ (putItem g item w).yielded g' ∧
      (putItem g item w).puts g' = (putItem g item w).yielded g' ++
        (if (putItem g item w).generatorDone g' then .sentinel :: (putItem g item w).queue g'
          else (putItem g item w).queue g') := by
  obtain ⟨hnot, hputs⟩ := h.generator g'
  refine ⟨hnot, ?_⟩
  by_cases hg : g' = g
  · subst hg
    simp only [putItem, Function.update_self, hputs]
    split_ifs <;> simp
  · simpa [putItem, hg] using hputs

theorem requestLog_putItem
    {w : World} (h : RequestLog w) (g : Gen) {item : Item}
    (hitem : ∀ n, item ≠ .packet n) :
    RequestLog (putItem g item w) := by
  have hmem : ∀ n g', .packet n ∈ (putItem g item w).puts g' ↔ .packet n ∈ w.puts g' := by
    intro n g'
    rw [mem_puts_putItem]
    simp [Ne.symm (hitem n)]
  constructor
  case sending =>
    intro a n hn
    obtain ⟨hlt, hraised, hputs⟩ := h.sending a n hn
    exact ⟨hlt, hraised, fun g' hg' => hputs g' ((hmem n g').mp hg')⟩
  case sendingOnce => exact h.sendingOnce
  case raised =>
    intro n hn
    obtain ⟨hlt, hputs⟩ := h.raised n hn
    exact ⟨hlt, fun g' hg' => hputs g' ((hmem n g').mp hg')⟩
  case sent => exact fun n g' hg' => h.sent n g' ((hmem n g').mp hg')
  case oneQueue =>
    exact fun n g₁ g₂ h₁ h₂ => h.oneQueue n g₁ g₂ ((hmem n g₁).mp h₁) ((hmem n g₂).mp h₂)
  case once =>
    intro n g'
    by_cases hg : g' = g
    · subst hg
      simpa [putItem, List.count_append, List.count_singleton, hitem n] using h.once n g'
    · simpa [putItem, hg] using h.once n g'
  case generator => exact fun g' => generator_putItem h g g' item

theorem requestLog_sendPut
    {w : World} (h : RequestLog w) {a : Agent} {n : PacketId}
    (hpc : (w.pcs a).sends = some n) (g : Gen) :
    RequestLog (setPc a .idle (putItem g (.packet n) w)) := by
  obtain ⟨hlt, hraised, hputs⟩ := h.sending a n hpc
  have hmove : RequestLog (setPc a .idle w) := requestLog_setPc h (Or.inl rfl)
  have hmem : ∀ m g', .packet m ∈ (setPc a .idle (putItem g (.packet n) w)).puts g' ↔
      .packet m ∈ w.puts g' ∨ (g' = g ∧ m = n) := by
    intro m g'
    rw [show (setPc a .idle (putItem g (.packet n) w)).puts = (putItem g (.packet n) w).puts
      from rfl, mem_puts_putItem]
    simp
  constructor
  case sending =>
    intro b m hb
    obtain ⟨hm, hmraised, hmputs⟩ := hmove.sending b m hb
    refine ⟨hm, hmraised, ?_⟩
    intro g' hg'
    rcases (hmem m g').mp hg' with hold | ⟨-, rfl⟩
    · exact hmputs g' hold
    · have hab : b ≠ a := by
        rintro rfl
        simp [setPc, Pc.sends] at hb
      have hb' : (w.pcs b).sends = some m := by
        simpa [setPc, putItem, hab] using hb
      exact hab (h.sendingOnce b a m hb' hpc)
  case sendingOnce => exact hmove.sendingOnce
  case raised =>
    intro m hm
    obtain ⟨hmlt, hmputs⟩ := h.raised m hm
    refine ⟨hmlt, ?_⟩
    intro g' hg'
    rcases (hmem m g').mp hg' with hold | ⟨-, rfl⟩
    · exact hmputs g' hold
    · exact hraised hm
  case sent =>
    intro m g' hg'
    rcases (hmem m g').mp hg' with hold | ⟨-, rfl⟩
    · exact h.sent m g' hold
    · exact hlt
  case once =>
    intro m g'
    by_cases hg : g' = g
    · subst hg
      have hcount : (w.puts g').count (.packet n) = 0 := List.count_eq_zero.mpr (hputs g')
      have hold := h.once m g'
      by_cases hmn : m = n
      · subst hmn
        simp [setPc, putItem, List.count_append, hcount]
      · simpa [setPc, putItem, List.count_append, List.count_singleton, Ne.symm hmn] using hold
    · simpa [setPc, putItem, hg] using h.once m g'
  case oneQueue =>
    intro m g₁ g₂ h₁ h₂
    rcases (hmem m g₁).mp h₁ with hold₁ | ⟨hg₁, hm₁⟩ <;>
      rcases (hmem m g₂).mp h₂ with hold₂ | ⟨hg₂, hm₂⟩
    · exact h.oneQueue m g₁ g₂ hold₁ hold₂
    · exact absurd (hm₂ ▸ hold₁) (hputs g₁)
    · exact absurd (hm₁ ▸ hold₂) (hputs g₂)
    · rw [hg₁, hg₂]
  case generator => exact fun g' => generator_putItem h g g' (.packet n)

theorem requestLog_callSend
    {w : World} (h : RequestLog w) (a : Agent) :
    RequestLog { setPc a (.sendConnected w.nextPacket) w with
      nextPacket := w.nextPacket + 1 } := by
  have hfresh : ∀ g, .packet w.nextPacket ∉ w.puts g :=
    fun g hg => absurd (h.sent _ g hg) (Nat.lt_irrefl _)
  have hraised : w.nextPacket ∉ w.raised :=
    fun hmem => absurd (h.raised _ hmem).1 (Nat.lt_irrefl _)
  have hsends : ∀ b n, (Function.update w.pcs a (.sendConnected w.nextPacket) b).sends = some n →
      (b = a ∧ n = w.nextPacket) ∨ (b ≠ a ∧ (w.pcs b).sends = some n) := by
    intro b n hb
    by_cases hab : b = a
    · subst hab
      exact Or.inl ⟨rfl, by simpa [Pc.sends, eq_comm] using hb⟩
    · exact Or.inr ⟨hab, by simpa [hab] using hb⟩
  constructor
  case sending =>
    intro b n hb
    rcases hsends b n hb with ⟨-, rfl⟩ | ⟨-, hold⟩
    · exact ⟨Nat.lt_succ_self _, hraised, hfresh⟩
    · obtain ⟨hlt, hrest⟩ := h.sending b n hold
      exact ⟨Nat.lt_succ_of_lt hlt, hrest⟩
  case sendingOnce =>
    intro b c n hb hc
    rcases hsends b n hb with ⟨hba, hbn⟩ | ⟨-, hb⟩ <;>
      rcases hsends c n hc with ⟨hca, hcn⟩ | ⟨-, hc⟩
    · rw [hba, hca]
    · exact absurd (hbn ▸ (h.sending c n hc).1) (Nat.lt_irrefl _)
    · exact absurd (hcn ▸ (h.sending b n hb).1) (Nat.lt_irrefl _)
    · exact h.sendingOnce b c n hb hc
  case raised =>
    intro n hn
    obtain ⟨hlt, hputs⟩ := h.raised n hn
    exact ⟨Nat.lt_succ_of_lt hlt, hputs⟩
  case sent => exact fun n g hg => Nat.lt_succ_of_lt (h.sent n g hg)
  case once => exact h.once
  case oneQueue => exact h.oneQueue
  case generator => exact h.generator

theorem requestLog_sendStep
    {w w' : World} {a : Agent}
    (h : RequestLog w) (hstep : sendStep w a (w.pcs a) = some w') :
    RequestLog w' := by
  cases hpc : w.pcs a <;> simp only [hpc, sendStep, reduceCtorEq] at hstep
  case sendConnected n =>
    obtain rfl := Option.some.inj hstep
    split_ifs
    · exact requestLog_setPc h (Or.inr (by rw [hpc]; rfl))
    · exact requestLog_raiseSend h (by rw [hpc]; rfl)
  case sendClosed n =>
    obtain rfl := Option.some.inj hstep
    split_ifs
    · exact requestLog_raiseSend h (by rw [hpc]; rfl)
    · exact requestLog_setPc h (Or.inr (by rw [hpc]; rfl))
  case sendOutgoing n =>
    cases hout : w.outgoing <;> simp only [hout] at hstep <;> obtain rfl := Option.some.inj hstep
    · exact requestLog_raiseSend h (by rw [hpc]; rfl)
    · exact requestLog_setPc h (Or.inr (by rw [hpc]; rfl))
  case sendPut n g =>
    obtain rfl := Option.some.inj hstep
    exact requestLog_sendPut h (by rw [hpc]; rfl) g

theorem requestLog_connectStep
    {w w' : World} {a : Agent}
    (h : RequestLog w) (hstep : connectStep w a (w.pcs a) = some w') :
    RequestLog w' := by
  cases hpc : w.pcs a <;> simp only [hpc, connectStep, reduceCtorEq] at hstep
  case connectAcquire =>
    obtain ⟨-, rfl⟩ := acquire_eq_some hstep
    exact requestLog_setPc { h with } (Or.inl rfl)
  case finishAcquire g =>
    obtain ⟨-, rfl⟩ := acquire_eq_some hstep
    exact requestLog_setPc { h with } (Or.inl rfl)
  case connectPut g =>
    obtain rfl := Option.some.inj hstep
    have hitem : ∀ n, Item.arbitration ≠ .packet n := by simp
    have hput := requestLog_putItem h g hitem
    exact requestLog_setPc { hput with } (Or.inl rfl)
  all_goals
    obtain rfl := Option.some.inj hstep
    try split_ifs
    all_goals exact requestLog_setPc { h with } (Or.inl rfl)

theorem requestLog_teardownStep
    {w w' : World} {a : Agent}
    (h : RequestLog w) (hstep : teardownStep w a (w.pcs a) = some w') :
    RequestLog w' := by
  cases hpc : w.pcs a <;> simp only [hpc, teardownStep, reduceCtorEq] at hstep
  case teardownAcquire expected next =>
    obtain ⟨-, rfl⟩ := acquire_eq_some hstep
    exact requestLog_setPc { h with } (Or.inl rfl)
  case teardownPut next =>
    cases hout : w.outgoing <;> simp only [hout] at hstep <;> obtain rfl := Option.some.inj hstep
    · exact requestLog_setPc h (Or.inl rfl)
    · exact requestLog_setPc (requestLog_putItem h _ (by simp)) (Or.inl rfl)
  case teardownGuard expected next =>
    obtain rfl := Option.some.inj hstep
    split_ifs
    · exact requestLog_setPc h (Or.inl rfl)
    · exact requestLog_setPc { h with } (Or.inl next.sends_pc)
  case teardownConnected wasConnected next =>
    obtain rfl := Option.some.inj hstep
    split_ifs
    · exact requestLog_setPc { h with } (Or.inl rfl)
    · exact requestLog_setPc { h with } (Or.inl rfl)
  case teardownOutgoing next =>
    obtain rfl := Option.some.inj hstep
    exact requestLog_setPc { h with } (Or.inl next.sends_pc)
  all_goals
    obtain rfl := Option.some.inj hstep
    exact requestLog_setPc { h with } (Or.inl rfl)

theorem requestLog_consumerStep
    {w w' : World} {a : Agent}
    (h : RequestLog w) (hstep : consumerStep w a (w.pcs a) = some w') :
    RequestLog w' := by
  cases hpc : w.pcs a <;> simp only [hpc, consumerStep, reduceCtorEq] at hstep
  case responseAcquire g response =>
    obtain ⟨-, rfl⟩ := acquire_eq_some hstep
    exact requestLog_setPc { h with } (Or.inl rfl)
  case exceptAcquire g =>
    obtain ⟨-, rfl⟩ := acquire_eq_some hstep
    exact requestLog_setPc { h with } (Or.inl rfl)
  case finallyAcquire g =>
    obtain ⟨-, rfl⟩ := acquire_eq_some hstep
    exact requestLog_setPc { h with } (Or.inl rfl)
  case responseSection g response =>
    obtain rfl := Option.some.inj hstep
    split_ifs
    · cases response <;> exact requestLog_setPc { h with } (Or.inl rfl)
    · exact requestLog_setPc { h with } (Or.inl rfl)
  case exceptSection g =>
    obtain rfl := Option.some.inj hstep
    exact requestLog_setPc { h with } (Or.inl rfl)
  case finallySection g =>
    obtain rfl := Option.some.inj hstep
    split_ifs <;> exact requestLog_setPc { h with } (Or.inl rfl)

theorem requestLog_requestStep
    {w w' : World} {g : Gen}
    (h : RequestLog w) (hstep : requestStep w g = some w') :
    RequestLog w' := by
  unfold requestStep at hstep
  split_ifs at hstep with hdone
  split at hstep
  · cases hstep
  · rename_i rest hqueue
    obtain rfl := Option.some.inj hstep
    refine { h with generator := ?_ }
    intro g'
    obtain ⟨hnot, hputs⟩ := h.generator g'
    refine ⟨hnot, ?_⟩
    by_cases hg : g' = g
    · subst hg
      simpa [hdone, hqueue] using hputs
    · simpa [hg] using hputs
  · rename_i item rest hne hqueue
    obtain rfl := Option.some.inj hstep
    refine { h with generator := ?_ }
    intro g'
    obtain ⟨hnot, hputs⟩ := h.generator g'
    by_cases hg : g' = g
    · subst hg
      have hitem : item ≠ .sentinel := fun heq => hne heq
      refine ⟨?_, ?_⟩
      · simpa [hnot] using hitem.symm
      · simpa [hdone, hqueue] using hputs
    · simpa [hg] using ⟨hnot, hputs⟩

theorem requestLog_step
    {w w' : World} {label : Label}
    (h : RequestLog w) (hstep : step w label = some w') :
    RequestLog w' := by
  cases stepCase_of_step hstep with
  | callSend t hidle => exact requestLog_callSend h _
  | callConnect t hidle => split_ifs <;> exact requestLog_setPc h (Or.inl rfl)
  | callDisconnect t hidle => exact requestLog_setPc h (Or.inl rfl)
  | send a _ hsend => exact requestLog_sendStep h hsend
  | encodeFails a n hpc => exact requestLog_raiseSend h (by rw [hpc]; rfl)
  | encode a n hpc => exact requestLog_setPc h (Or.inr (by rw [hpc]; rfl))
  | connect a _ hconnect => exact requestLog_connectStep h hconnect
  | streamReturns a g hpc =>
      exact requestLog_setPc (requestLog_setPc { h with } (Or.inl rfl)) (Or.inl rfl)
  | streamRpcError a g hpc => exact requestLog_setPc h (Or.inl rfl)
  | streamOtherError a g hpc => exact requestLog_setPc { h with } (Or.inl rfl)
  | eventSeen a g hpc hset => exact requestLog_setPc h (Or.inl rfl)
  | waitTimeout a g hpc => exact requestLog_setPc h (Or.inl rfl)
  | teardown a _ hteardown => exact requestLog_teardownStep h hteardown
  | response g r hpc => exact requestLog_setPc h (Or.inl rfl)
  | streamRaises g hpc => exact requestLog_setPc h (Or.inl rfl)
  | streamEnds g hpc => exact requestLog_setPc h (Or.inl rfl)
  | consumer a _ hconsumer => exact requestLog_consumerStep h hconsumer
  | request g _ hrequest => exact requestLog_requestStep h hrequest

/-- A generator has yielded a prefix of the puts before the sentinel. -/
theorem yielded_prefix
    {w : World} (h : RequestLog w) (g : Gen) :
    w.yielded g <+: (w.puts g).takeWhile (fun item => item ≠ .sentinel) := by
  obtain ⟨hnot, hputs⟩ := h.generator g
  rw [hputs, List.takeWhile_append_of_pos]
  · exact List.prefix_append _ _
  · intro item hmem
    have hne : item ≠ .sentinel := by
      rintro rfl
      exact hnot hmem
    simpa using hne

theorem requestLog_of_reaches
    {ok : World → Label → Prop} {w : World}
    (h : Reaches step ok {} w) :
    RequestLog w :=
  h.invariant requestLog_init fun _ _ _ hinv _ hstep => requestLog_step hinv hstep

end PacketOut
end P4Net
