import P4Net.AsyncClientSteps
import P4Net.TransitionRuns

/-!
# Overlapping connections of the asynchronous client

An attempt of `connect` acts on whatever connection the client has when it runs again,
and so does the `finally` clause of a stream task.

* `Undisturbed` : no step of an older attempt or of an older stream task changes the
  connection of the client, and the latest attempt succeeds once it has been granted.
* `OpensLast` : a connection is opened only when no other `connect` is unfinished and
  every earlier stream task has ended.

`undisturbed_of_opensLast` says that the first follows from the second in every run;
`old_attempt_closes_new` is a run without it.
-/

namespace P4Net
namespace AsyncClient

open Runs
open SyncClient (Gen Tid StreamError Response)

/-! ### Older tasks -/

/-- The task that a step runs. -/
def Label.actor : Label → Actor
  | .callConnect t => .call t
  | .callDisconnect t => .call t
  | .eventWakes t => .call t
  | .waitTimeout t => .call t
  | .cancelCall t => .call t
  | .cancelSwallowed t => .call t
  | .takeLock a => a
  | .streamTaskDone a => a
  | .shieldTimeout a => a
  | .channelClosed a => a
  | .streamStarts g => .stream g
  | .response g _ => .stream g
  | .streamRaises g => .stream g
  | .streamEnds g => .stream g
  | .cancelStream g => .stream g

/-- The call is a `connect` that began before connection `h` was opened. -/
def CallPc.OlderThan (h : Gen) : CallPc → Prop
  | .waitEvent g => g < h
  | .teardown (.raise g _) _ => g < h
  | .teardown (.reconnect born) _ => born ≤ h
  | _ => False

/-- The task belongs to an attempt or a stream that is older than connection `h`. -/
def OlderActor (h : Gen) (w : World) : Actor → Prop
  | .call t => (w.calls t).OlderThan h
  | .stream g => g < h

/-- The client and the stream task of connection `h` are as they were. -/
structure SameConnection (h : Gen) (w w' : World) : Prop where
  channel : w'.channel = w.channel
  streamCall : w'.streamCall = w.streamCall
  streamTask : w'.streamTask = w.streamTask
  arbitration : w'.arbitration = w.arbitration
  streamError : w'.streamError = w.streamError
  connected : w'.connected = w.connected
  isPrimary : w'.isPrimary = w.isPrimary
  closed : w'.closed = w.closed
  stream : w'.streams h = w.streams h
  cancelPending : h ∈ w'.cancelPending ↔ h ∈ w.cancelPending

/--
Older tasks leave the connection of the client alone, and an attempt that has been
granted, and neither failed nor been disconnected, succeeds.
-/
structure Undisturbed (w : World) : Prop where
  older : ∀ h label w', w.channel = some h → OlderActor h w label.actor →
    step w label = some w' → SameConnection h w w'
  succeeds : ∀ t h s, w.calls t = .waitEvent h → w.channel = some h → w.closed = false →
    w.streams h = .reading s → w.lastStatus h = some 0 →
    ∃ w', step w (.eventWakes t) = some w' ∧ w'.isConnected = true ∧
      w'.isPrimary = true ∧ w'.channel = some h ∧
      (t, w.cancelDelivered t, .returned) ∈ w'.outcomes

/-! ### The condition -/

/-- The call is a `connect`. -/
def CallPc.inConnect : CallPc → Bool
  | .waitEvent _ => true
  | .teardown (.raise _ _) _ => true
  | .teardown (.reconnect _) _ => true
  | _ => false

/-- No other `connect` is unfinished, and no stream task is left. -/
def Last (t : Tid) (w : World) : Prop :=
  (∀ t', t' ≠ t → (w.calls t').inConnect = false) ∧ ∀ g < w.nextGen, w.streams g = .ended

/-- The call that opens a connection in a step. -/
def opener (w : World) : Label → Option Tid
  | .callConnect t => if w.connected = false ∧ w.channel = none then some t else none
  | .channelClosed a =>
      match teardownOf w a with
      | some (.call t (.reconnect _), _) => some t
      | _ => none
  | .takeLock a | .streamTaskDone a | .shieldTimeout a =>
      match teardownOf w a with
      | some (.call t (.reconnect _), _) => if w.channel = none then some t else none
      | _ => none
  | .cancelCall t =>
      match w.calls t with
      | .teardown (.reconnect _) (.shield _) => if w.channel = none then some t else none
      | _ => none
  | _ => none

/-- A connection is opened when no other `connect` and no stream task is left. -/
def OpensLast (w : World) (label : Label) : Prop :=
  ∀ t, opener w label = some t → Last t w

/-! ### The invariant -/

/-- What follows a teardown belongs to the newest of `n` connections. -/
def Cont.Of (n : Gen) : Cont → Prop
  | .reconnect born => born = n
  | .raise g _ => g + 1 = n
  | .finish => True

/-- A call belongs to the newest of `n` connections. -/
def CallPc.Of (n : Gen) : CallPc → Prop
  | .idle => True
  | .waitEvent g => g + 1 = n
  | .teardown cont _ => cont.Of n

/-- A stream task that has not ended belongs to the newest of `n` connections. -/
def StreamPc.Of (n g : Gen) : StreamPc → Prop
  | .created => n ≤ g + 1
  | .reading s => s = g ∧ g + 1 = n
  | .teardown _ => g + 1 = n
  | .ended => True

/-- A teardown belongs to the newest of `n` connections. -/
def Teardown.Of (n : Gen) : Teardown → Prop
  | .call _ cont => cont.Of n
  | .stream g => g + 1 = n

/-- A stream task that has not left its loop. -/
def StreamPc.running : StreamPc → Bool
  | .created => true
  | .reading _ => true
  | _ => false

/--
Every task and every field belongs to the newest connection.  One stream task may be
exempt while it leaves its loop with an error.
-/
structure NewestBut (hole : Option Gen) (w : World) : Prop where
  channel : ∀ h, w.channel = some h → h + 1 = w.nextGen
  streamCall : ∀ h, w.streamCall = some h → h + 1 = w.nextGen
  event : ∀ h, h + 1 = w.nextGen → w.arbitrationEvent = some h
  arbitration : ∀ h, h + 1 = w.nextGen → w.arbitration = w.lastStatus h
  seen : ∀ h, h + 1 = w.nextGen → w.lastStatus h ≠ none → h ∈ w.eventSet
  primary : ∀ h, h + 1 = w.nextGen → w.closed = false → w.lastStatus h = some 0 →
    w.isPrimary = true
  fresh : ∀ g, w.nextGen ≤ g → w.lastStatus g = none
  calls : ∀ t, (w.calls t).Of w.nextGen
  streams : ∀ g, (w.streams g).Of w.nextGen g
  noError : ∀ h, hole ≠ some h → h + 1 = w.nextGen → w.closed = false →
    (w.streams h).running = true → w.streamError = none

theorem newest_init (secondary : Bool) :
    NewestBut none { explicitSecondary := secondary } := by
  constructor <;> simp [CallPc.Of, StreamPc.Of]

/-- One more stream task may be exempt. -/
theorem NewestBut.weaken
    {w : World} (h : NewestBut none w) (g : Gen) :
    NewestBut (some g) w :=
  { h with noError := fun h' _ => h.noError h' (by simp) }

/-! ### Moves of one task -/

theorem newest_setCall
    {w : World} {t : Tid} {pc : CallPc} {hole : Option Gen}
    (h : NewestBut hole w) (hpc : pc.Of w.nextGen) :
    NewestBut hole (setCall t pc w) := by
  refine { h with calls := ?_ }
  intro t'
  by_cases ht : t' = t
  · subst ht
    simpa [setCall] using hpc
  · simpa [setCall, ht] using h.calls t'

theorem newest_endCall
    {w : World} {hole : Option Gen} (h : NewestBut hole w) (t : Tid) (outcome : Outcome) :
    NewestBut hole (endCall t outcome w) :=
  have hidle : NewestBut hole (setCall t .idle w) := newest_setCall h trivial
  { hidle with }

/-- A stream task moves to where it does not run its loop any more, or into the loop. -/
theorem newest_setStream
    {w : World} {g : Gen} {pc : StreamPc} {hole : Option Gen}
    (h : NewestBut hole w) (hpc : pc.Of w.nextGen g)
    (hhole : ∀ g', hole = some g' → g' = g ∧ pc.running = false)
    (hrun : pc.running = true → (w.streams g).running = true) :
    NewestBut none (setStream g pc w) := by
  refine { h with streams := ?_, noError := ?_ }
  · intro g'
    by_cases hg : g' = g
    · subst hg
      simpa [setStream] using hpc
    · simpa [setStream, hg] using h.streams g'
  · intro g' _ hg' hclosed hrunning
    by_cases hg : g' = g
    · subst hg
      have hpc' : pc.running = true := by simpa [setStream] using hrunning
      refine h.noError g' ?_ hg' hclosed (hrun hpc')
      intro heq
      rw [(hhole g' heq).2] at hpc'
      cases hpc'
    · refine h.noError g' ?_ hg' hclosed (by simpa [setStream, hg] using hrunning)
      intro heq
      exact hg (hhole g' heq).1

/-- A task suspends inside `_teardown`; if it is the exempt one, none is left. -/
theorem newest_suspend
    {w : World} {d : Teardown} {hole : Option Gen}
    (h : NewestBut hole w) (hd : d.Of w.nextGen) (hhole : ∀ g, hole = some g → d = .stream g)
    (pc : TeardownPc) :
    NewestBut none (suspend d pc w) := by
  cases d with
  | call t cont =>
      have hnone : hole = none := by
        rw [Option.eq_none_iff_forall_ne_some]
        intro g hg
        cases hhole g hg
      subst hnone
      have hcall : CallPc.Of w.nextGen (.teardown cont pc) := hd
      exact newest_setCall h hcall
  | stream g =>
      have hstream : StreamPc.Of w.nextGen g (.teardown pc) := hd
      refine newest_setStream h hstream ?_ nofun
      intro g' hg'
      obtain rfl := Teardown.stream.inj (hhole g' hg')
      exact ⟨rfl, rfl⟩

theorem newest_markClosed
    {w : World} {hole : Option Gen} (h : NewestBut hole w) :
    NewestBut none (markClosed w) := by
  refine { h with seen := ?_, primary := ?_, noError := ?_ }
  · intro g hg hstatus
    have hseen := h.seen g hg hstatus
    unfold markClosed
    dsimp only
    split_ifs
    · exact List.mem_append_right _ hseen
    · exact hseen
  · rintro g - hclosed
    cases hclosed
  · rintro g - - hclosed
    cases hclosed

/-- A connection is opened as the newest one. -/
theorem newest_openConnection
    {w : World} {t : Tid} {hole : Option Gen} (h : NewestBut hole w) (hlast : Last t w) :
    NewestBut none (openConnection t w) := by
  have hnew : ∀ g, g + 1 = w.nextGen + 1 → g = w.nextGen := fun g hg => Nat.succ.inj hg
  constructor
  case channel =>
    intro g hg
    obtain rfl := Option.some.inj hg
    rfl
  case streamCall =>
    intro g hg
    obtain rfl := Option.some.inj hg
    rfl
  case event =>
    intro g hg
    rw [hnew g hg]
    rfl
  case arbitration =>
    intro g hg
    rw [hnew g hg]
    exact (h.fresh _ (Nat.le_refl _)).symm
  case seen =>
    intro g hg hstatus
    rw [hnew g hg] at hstatus
    exact absurd (h.fresh _ (Nat.le_refl _)) hstatus
  case primary =>
    intro g hg _ hstatus
    have hnone : w.lastStatus g = none := by
      rw [hnew g hg]
      exact h.fresh _ (Nat.le_refl _)
    have hsome : w.lastStatus g = some 0 := hstatus
    rw [hnone] at hsome
    cases hsome
  case fresh => exact fun g hg => h.fresh g (Nat.le_of_succ_le hg)
  case calls =>
    intro t'
    by_cases ht : t' = t
    · subst ht
      simp [openConnection, setCall, CallPc.Of]
    · have hcalls : (openConnection t w).calls t' = w.calls t' := by
        simp [openConnection, setCall, ht]
      rw [hcalls]
      have hout := hlast.1 t' ht
      cases hpc : w.calls t' with
      | idle => exact trivial
      | waitEvent g => simp [hpc, CallPc.inConnect] at hout
      | teardown cont pc => cases cont <;> simp_all [CallPc.inConnect, CallPc.Of, Cont.Of]
  case streams =>
    intro g
    have hstreams : (openConnection t w).streams g = w.streams g := rfl
    have hnext : (openConnection t w).nextGen = w.nextGen + 1 := rfl
    rw [hstreams, hnext]
    by_cases hg : g < w.nextGen
    · rw [hlast.2 g hg]
      exact trivial
    · have hof := h.streams g
      have hne : g + 1 ≠ w.nextGen := fun heq => hg (heq ▸ Nat.lt_succ_self g)
      cases hpc : w.streams g with
      | created => exact Nat.succ_le_succ (Nat.le_of_not_lt hg)
      | reading s =>
          rw [hpc] at hof
          exact absurd hof.2 hne
      | teardown pc =>
          rw [hpc] at hof
          exact absurd hof hne
      | ended => exact trivial
  case noError => exact fun _ _ _ _ _ => rfl

/-! ### The parts of `_teardown` -/

section Teardown

variable {w : World} {d : Teardown} {hole : Option Gen}

theorem newest_finishTeardown
    (h : NewestBut hole w) (hhole : ∀ g, hole = some g → d = .stream g)
    (hopen : ∀ t born, d = .call t (.reconnect born) → Last t w) :
    NewestBut none (finishTeardown d w) := by
  have hclear : NewestBut hole
      { w with channel := none, streamCall := none, streamTask := none, holder := none } :=
    { h with channel := nofun, streamCall := nofun }
  have hnone : ∀ t cont, d = .call t cont → hole = none := by
    rintro t cont rfl
    rw [Option.eq_none_iff_forall_ne_some]
    intro g hg
    cases hhole g hg
  cases d with
  | stream g =>
      have hended : StreamPc.Of w.nextGen g .ended := trivial
      refine newest_setStream hclear hended ?_ nofun
      intro g' hg'
      obtain rfl := Teardown.stream.inj (hhole g' hg')
      exact ⟨rfl, rfl⟩
  | call t cont =>
      obtain rfl := hnone t cont rfl
      cases cont with
      | reconnect born => exact newest_openConnection hclear (hopen t born rfl)
      | raise g exc => exact newest_endCall hclear t _
      | finish => exact newest_endCall hclear t _

theorem newest_closeStage
    (h : NewestBut hole w) (hd : d.Of w.nextGen)
    (hhole : ∀ g, hole = some g → d = .stream g)
    (hopen : ∀ t born, d = .call t (.reconnect born) → w.channel = none → Last t w) :
    NewestBut none (closeStage d w) := by
  unfold closeStage
  split
  case h_1 g hchannel => exact newest_suspend h hd hhole _
  case h_2 hchannel =>
    exact newest_finishTeardown h hhole fun t born heq => hopen t born heq hchannel

theorem newest_beginTeardown
    (h : NewestBut hole w) (hd : d.Of w.nextGen)
    (hopen : ∀ t born, d = .call t (.reconnect born) → w.channel = none → Last t w) :
    NewestBut none (beginTeardown d w) := by
  have hlocked : NewestBut hole { w with holder := some d.actor } := { h with }
  have hmark := newest_markClosed hlocked
  have hclose : NewestBut none (closeStage d (markClosed { w with holder := some d.actor })) :=
    newest_closeStage hmark hd nofun hopen
  unfold beginTeardown
  split
  case h_1 g htask =>
    split_ifs
    · have hcancel : NewestBut none
          { markClosed { w with holder := some d.actor } with
            cancelPending := g :: w.cancelPending
            cancelled := g :: w.cancelled } := { hmark with }
      exact newest_suspend hcancel hd nofun _
    · exact hclose
  case h_2 => exact hclose

theorem newest_startTeardown
    (h : NewestBut hole w) (hd : d.Of w.nextGen)
    (hhole : ∀ g, hole = some g → d = .stream g)
    (hopen : ∀ t born, d = .call t (.reconnect born) → w.channel = none → Last t w) :
    NewestBut none (startTeardown d w) := by
  unfold startTeardown
  split_ifs
  · exact newest_beginTeardown h hd hopen
  · have hqueue : NewestBut hole { w with waiters := w.waiters ++ [d.actor] } := { h with }
    exact newest_suspend hqueue hd hhole _

end Teardown

/-! ### One step -/

theorem teardown_of
    {w : World} {a : Actor} {d : Teardown} {pc : TeardownPc} {hole : Option Gen}
    (h : NewestBut hole w) (ha : teardownOf w a = some (d, pc)) :
    d.Of w.nextGen := by
  cases a with
  | call t =>
      have hof := h.calls t
      cases hcall : w.calls t <;> simp only [teardownOf, hcall, reduceCtorEq] at ha
      obtain ⟨rfl, -⟩ := Prod.mk.inj (Option.some.inj ha)
      rw [hcall] at hof
      exact hof
  | stream g =>
      have hof := h.streams g
      cases hstream : w.streams g <;> simp only [teardownOf, hstream, reduceCtorEq] at ha
      obtain ⟨rfl, -⟩ := Prod.mk.inj (Option.some.inj ha)
      rw [hstream] at hof
      exact hof

/-- A call that waits for arbitration gives up its attempt. -/
theorem newest_failAttempt
    {w : World} {t : Tid} {g : Gen} (h : NewestBut none w) (ht : w.calls t = .waitEvent g)
    (exc : Exc) :
    NewestBut none (startTeardown (.call t (.raise g exc)) w) := by
  have hof : (CallPc.waitEvent g).Of w.nextGen := ht ▸ h.calls t
  exact newest_startTeardown (d := .call t (.raise g exc)) h hof nofun nofun

theorem newest_afterEvent
    {w : World} {t : Tid} {g : Gen} (h : NewestBut none w) (ht : w.calls t = .waitEvent g) :
    NewestBut none (afterEvent t g w) := by
  unfold afterEvent
  split
  · exact newest_failAttempt h ht _
  · split
    · exact newest_failAttempt h ht _
    · split_ifs
      · exact newest_failAttempt h ht _
      · have hconn : NewestBut none { w with connected := true } := { h with }
        exact newest_endCall hconn t _

theorem newest_streamFinally
    {w : World} {g : Gen} (h : NewestBut (some g) w) (hg : g + 1 = w.nextGen) :
    NewestBut none (streamFinally g w) := by
  unfold streamFinally
  by_cases hclosed : w.closed = true
  · rw [if_pos hclosed]
    have hended : StreamPc.Of w.nextGen g .ended := trivial
    refine newest_setStream h hended ?_ nofun
    intro g' hg'
    exact ⟨(Option.some.inj hg').symm, rfl⟩
  · rw [if_neg hclosed]
    have hnewest : NewestBut (some g) (setEvent { w with
        streamError := if w.streamError.isNone then some .streamEnded else w.streamError }) := by
      refine { h with seen := ?_, noError := ?_ }
      · exact fun g' hg' hstatus => List.mem_append_right _ (h.seen g' hg' hstatus)
      · intro g' hne hg' _ _
        have heq : g' = g := Nat.succ.inj (hg'.trans hg.symm)
        exact absurd (by rw [heq]) hne
    refine newest_startTeardown (d := .stream g) hnewest hg ?_ nofun
    intro g' hg'
    rw [Option.some.inj hg']

theorem newest_streamFails
    {w : World} {g : Gen} (h : NewestBut none w) (hg : g + 1 = w.nextGen) :
    NewestBut none (streamFails g w) := by
  unfold streamFails
  split_ifs
  · exact newest_streamFinally (h.weaken g) hg
  · refine newest_streamFinally { h with seen := ?_, noError := ?_ } hg
    · exact fun g' hg' hstatus => List.mem_append_right _ (h.seen g' hg' hstatus)
    · intro g' hne hg' _ _
      have heq : g' = g := Nat.succ.inj (hg'.trans hg.symm)
      exact absurd (by rw [heq]) hne

theorem newest_streamRuns
    {w : World} (h : NewestBut none w) (g : Gen) :
    NewestBut none (streamRuns g w) :=
  { h with }

theorem newest_response
    {w : World} {g s : Gen} (h : NewestBut none w) (hg : w.streams g = .reading s)
    (response : Response) :
    NewestBut none (streamResponse s response w) := by
  have hof : (StreamPc.reading s).Of w.nextGen g := hg ▸ h.streams g
  obtain ⟨rfl, hnext⟩ := hof
  cases response with
  | other => exact h
  | arbitration code =>
      have hsame : ∀ g', g' + 1 = w.nextGen → g' = s :=
        fun g' hg' => Nat.succ.inj (hg'.trans hnext.symm)
      refine { h with arbitration := ?_, seen := ?_, primary := ?_, fresh := ?_ }
      · intro g' hg'
        obtain rfl := hsame g' hg'
        simp [streamResponse, setEvent]
      · intro g' hg' _
        obtain rfl := hsame g' hg'
        refine List.mem_append_left _ ?_
        simp [h.event g' hg']
      · intro g' hg' _ hstatus
        obtain rfl := hsame g' hg'
        simpa [streamResponse, setEvent] using hstatus
      · intro g' hg'
        have hne : g' ≠ s := by
          rintro rfl
          have hle : w.nextGen ≤ g' := hg'
          exact Nat.not_succ_le_self g' (Nat.le_trans (Nat.le_of_eq hnext) hle)
        simpa [streamResponse, setEvent, hne] using h.fresh g' hg'

theorem newest_cancelCall
    {w w' : World} {t : Tid} (h : NewestBut none w) (hok : OpensLast w (.cancelCall t))
    (hstep : cancelCall t w = some w') :
    NewestBut none w' := by
  unfold cancelCall at hstep
  split_ifs at hstep
  have hdelivered : NewestBut none
      { w with cancelDelivered := Function.update w.cancelDelivered t true } := { h with }
  cases hcall : w.calls t with
  | idle => simp [hcall] at hstep
  | waitEvent g =>
      simp only [hcall, Option.some.injEq] at hstep
      exact hstep ▸ newest_failAttempt hdelivered hcall _
  | teardown cont pc =>
      have hof : cont.Of w.nextGen := by
        have hcalls := h.calls t
        rw [hcall] at hcalls
        exact hcalls
      cases pc with
      | lockWait =>
          simp only [hcall, Option.some.injEq] at hstep
          have hleave : NewestBut none (leaveQueue (.call t)
              { w with cancelDelivered := Function.update w.cancelDelivered t true }) :=
            { h with }
          exact hstep ▸ newest_endCall hleave t _
      | shield g =>
          simp only [hcall, Option.some.injEq] at hstep
          subst hstep
          refine newest_closeStage (d := .call t cont) hdelivered hof nofun ?_
          intro t' born heq hchannel
          obtain ⟨rfl, rfl⟩ := Teardown.call.inj heq
          have hnone : w.channel = none := hchannel
          have hlast := hok t (by simp [opener, hcall, hnone])
          exact hlast
      | closing g =>
          simp only [hcall, Option.some.injEq] at hstep
          have hrelease : NewestBut none
              { w with
                cancelDelivered := Function.update w.cancelDelivered t true
                holder := none } := { h with }
          exact hstep ▸ newest_endCall hrelease t _

/-- A stream task that can still start is the newest one. -/
theorem newest_of_created
    {w : World} {g : Gen} (h : NewestBut none w) (hlt : g < w.nextGen)
    (hcreated : w.streams g = .created) :
    g + 1 = w.nextGen := by
  have hof := h.streams g
  rw [hcreated] at hof
  exact Nat.le_antisymm hlt hof

/-- The stream task that reads is the newest one. -/
theorem newest_of_reading
    {w : World} {g s : Gen} (h : NewestBut none w) (hreading : w.streams g = .reading s) :
    g + 1 = w.nextGen := by
  have hof := h.streams g
  rw [hreading] at hof
  exact hof.2

/-- Everything belongs to the newest connection after every step that opens last. -/
theorem newest_step
    {w w' : World} {label : Label} (h : NewestBut none w) (hok : OpensLast w label)
    (hstep : step w label = some w') :
    NewestBut none w' := by
  cases stepCase_of_step hstep with
  | callConnect t hidle =>
      have hbegin : NewestBut none (beginCall t w) := { h with }
      unfold callConnect
      by_cases hconn : w.connected = true
      · have hconn' : (beginCall t w).connected = true := hconn
        rw [if_pos hconn']
        exact newest_endCall hbegin t _
      · have hconn' : ¬(beginCall t w).connected = true := hconn
        rw [if_neg hconn']
        by_cases hchannel : w.channel.isSome = true
        · have hchannel' : (beginCall t w).channel.isSome = true := hchannel
          rw [if_pos hchannel']
          refine newest_startTeardown hbegin (by rfl) nofun ?_
          intro t' born _ hnone
          have hnone' : w.channel = none := hnone
          simp [hnone'] at hchannel
        · have hchannel' : ¬(beginCall t w).channel.isSome = true := hchannel
          rw [if_neg hchannel']
          have hlast := hok t (by simp_all [opener])
          exact newest_openConnection hbegin hlast
  | callDisconnect t hidle =>
      have hbegin : NewestBut none (beginCall t w) := { h with }
      exact newest_startTeardown (d := .call t .finish) hbegin trivial nofun nofun
  | eventWakes t g hcall hset => exact newest_afterEvent h hcall
  | waitTimeout t g hcall => exact newest_failAttempt h hcall _
  | cancelCall t _ hcancel => exact newest_cancelCall h hok hcancel
  | cancelSwallowed t g hcall hset =>
      have hdelivered : NewestBut none
          { w with cancelDelivered := Function.update w.cancelDelivered t true } := { h with }
      exact newest_afterEvent hdelivered hcall
  | takeLock a d rest htd hqueue hfree hpending =>
      have hqueue' : NewestBut none { w with waiters := rest } := { h with }
      have hof : d.Of w.nextGen := teardown_of h htd
      refine newest_beginTeardown hqueue' hof ?_
      rintro t born rfl hnone
      have hnone' : w.channel = none := hnone
      have hlast := hok t (by simp [opener, htd, hnone'])
      exact hlast
  | streamTaskDone a d g htd hended =>
      refine newest_closeStage h (teardown_of h htd) nofun ?_
      rintro t born rfl hnone
      exact hok t (by simp [opener, htd, hnone])
  | shieldTimeout a d g s htd hreading =>
      refine newest_closeStage h (teardown_of h htd) nofun ?_
      rintro t born rfl hnone
      exact hok t (by simp [opener, htd, hnone])
  | channelClosed a d g htd =>
      have hdone : NewestBut none { w with closeDone := g :: w.closeDone } := { h with }
      refine newest_finishTeardown hdone nofun ?_
      rintro t born rfl
      have hlast := hok t (by simp [opener, htd])
      exact hlast
  | streamReads g s hlt hcreated hpending hstream =>
      have hg := newest_of_created h hlt hcreated
      refine newest_setStream h ⟨?_, hg⟩ nofun (by simp [hcreated, StreamPc.running])
      exact Nat.succ.inj ((h.streamCall s hstream).trans hg.symm)
  | streamLost g hlt hcreated hpending hstream =>
      exact newest_streamFails h (newest_of_created h hlt hcreated)
  | response g s r hreading => exact newest_response (newest_streamRuns h g) hreading r
  | streamRaises g s hreading =>
      have hg := newest_of_reading h hreading
      exact newest_streamFails (newest_streamRuns h g) hg
  | streamEnds g s hreading =>
      have hg := newest_of_reading h hreading
      exact newest_streamFinally ((newest_streamRuns h g).weaken g) hg
  | cancelCreated g hpending hcreated =>
      exact newest_setStream (newest_streamRuns h g) trivial nofun nofun
  | cancelReading g s hpending hreading =>
      have hg := newest_of_reading h hreading
      exact newest_streamFinally ((newest_streamRuns h g).weaken g) hg
  | cancelLockWait g hpending hwaits =>
      have hruns := newest_streamRuns h g
      have hleave : NewestBut none (leaveQueue (.stream g) (streamRuns g w)) := { hruns with }
      exact newest_setStream hleave trivial nofun nofun

/-! ### Whole runs -/

theorem newest_of_reaches
    {w : World} {secondary : Bool}
    (h : Reaches step OpensLast { explicitSecondary := secondary } w) :
    NewestBut none w :=
  h.invariant (newest_init secondary) fun _ _ _ hinv hok hstep => newest_step hinv hok hstep

/-- A stream task that has ended takes no step. -/
theorem step_eq_none_of_ended
    {w : World} {g : Gen} {label : Label} (hg : w.streams g = .ended)
    (hactor : label.actor = .stream g) :
    step w label = none := by
  cases label <;> simp only [Label.actor, reduceCtorEq, Actor.stream.injEq] at hactor <;>
    subst hactor <;> simp [step, cancelStream, teardownOf, hg]

/-- When everything belongs to the newest connection, no older task takes a step. -/
theorem step_eq_none_of_older
    {w : World} {h : Gen} {label : Label} (hinv : NewestBut none w)
    (hchannel : w.channel = some h) (hold : OlderActor h w label.actor) :
    step w label = none := by
  have hnext := hinv.channel h hchannel
  cases hactor : label.actor with
  | call t =>
      rw [hactor] at hold
      have hof := hinv.calls t
      have hlt : ∀ g, g + 1 = w.nextGen → ¬g < h := by
        intro g hg hgh
        obtain rfl := Nat.succ.inj (hg.trans hnext.symm)
        exact Nat.lt_irrefl g hgh
      cases hcall : w.calls t with
      | idle => simp [OlderActor, hcall, CallPc.OlderThan] at hold
      | waitEvent g =>
          rw [hcall] at hof
          simp only [OlderActor, hcall, CallPc.OlderThan] at hold
          exact absurd hold (hlt g hof)
      | teardown cont pc =>
          rw [hcall] at hof
          cases cont with
          | finish => simp [OlderActor, hcall, CallPc.OlderThan] at hold
          | raise g exc =>
              simp only [OlderActor, hcall, CallPc.OlderThan] at hold
              exact absurd hold (hlt g hof)
          | reconnect born =>
              simp only [OlderActor, hcall, CallPc.OlderThan] at hold
              have hborn : born = h + 1 := Eq.trans hof hnext.symm
              rw [hborn] at hold
              exact absurd hold (Nat.not_succ_le_self h)
  | stream g =>
      rw [hactor] at hold
      have hlt : g < h := hold
      have hne : g + 1 ≠ w.nextGen := by
        intro heq
        obtain rfl := Nat.succ.inj (heq.trans hnext.symm)
        exact Nat.lt_irrefl g hlt
      have hof := hinv.streams g
      cases hstream : w.streams g with
      | ended => exact step_eq_none_of_ended hstream hactor
      | created =>
          rw [hstream] at hof
          have hle : h ≤ g := Nat.succ_le_succ_iff.mp (Nat.le_trans (Nat.le_of_eq hnext) hof)
          exact absurd hlt (Nat.not_lt_of_le hle)
      | reading s =>
          rw [hstream] at hof
          exact absurd hof.2 hne
      | teardown pc =>
          rw [hstream] at hof
          exact absurd hof hne

/-- An attempt that has been granted succeeds. -/
theorem eventWakes_of_granted
    {w : World} {t : Tid} {h s : Gen} (hinv : NewestBut none w)
    (hcall : w.calls t = .waitEvent h) (hchannel : w.channel = some h)
    (hclosed : w.closed = false) (hreading : w.streams h = .reading s)
    (hstatus : w.lastStatus h = some 0) :
    ∃ w', step w (.eventWakes t) = some w' ∧ w'.isConnected = true ∧ w'.isPrimary = true ∧
      w'.channel = some h ∧ (t, w.cancelDelivered t, .returned) ∈ w'.outcomes := by
  have hnext := hinv.channel h hchannel
  have hset : h ∈ w.eventSet := hinv.seen h hnext (by simp [hstatus])
  have harb : w.arbitration = some 0 := (hinv.arbitration h hnext).trans hstatus
  have hprimary : w.isPrimary = true := hinv.primary h hnext hclosed hstatus
  have herror : w.streamError = none :=
    hinv.noError h (by simp) hnext hclosed (by simp [hreading, StreamPc.running])
  have hafter : afterEvent t h w = endCall t .returned { w with connected := true } := by
    simp [afterEvent, herror, harb]
  refine ⟨afterEvent t h w, by simp [step, hcall, hset], ?_⟩
  rw [hafter]
  refine ⟨?_, hprimary, hchannel, List.mem_cons_self⟩
  simp [World.isConnected, endCall, setCall, hclosed]

/--
Older attempts and stream tasks leave a newer connection alone, in every run in which
each connection is opened after every earlier `connect` and stream task has ended.
-/
theorem undisturbed_of_opensLast
    (secondary : Bool) (w : World)
    (h : Reaches step OpensLast { explicitSecondary := secondary } w) :
    Undisturbed w := by
  have hinv := newest_of_reaches h
  constructor
  case older =>
    intro g label w' hchannel hold hstep
    rw [step_eq_none_of_older hinv hchannel hold] at hstep
    cases hstep
  case succeeds =>
    intro t g s hcall hchannel hclosed hreading hstatus
    exact eventWakes_of_granted hinv hcall hchannel hclosed hreading hstatus

/-- An attempt that times out, and a second one that succeeds. -/
theorem undisturbed_of_opensLast_second_attempt :
    ∃ w w' : World, w.calls 0 = .waitEvent 1 ∧ step w (.eventWakes 0) = some w' ∧
      w'.isConnected = true ∧ w'.channel = some 1 := by
  have hrun : ∃ w, Reaches step OpensLast {} w ∧ w.calls 0 = .waitEvent 1 ∧
      w.channel = some 1 ∧ w.closed = false ∧ w.streams 1 = .reading 1 ∧
      w.lastStatus 1 = some 0 := by
    refine ⟨_, ((((((((Reaches.refl.tail (a := .callConnect 0) ?first rfl).tail
      (a := .streamStarts 0) nofun rfl).tail
      (a := .waitTimeout 0) nofun rfl).tail
      (a := .cancelStream 0) nofun rfl).tail
      (a := .streamTaskDone (.call 0)) nofun rfl).tail
      (a := .channelClosed (.call 0)) nofun rfl).tail
      (a := .callConnect 0) ?second rfl).tail
      (a := .streamStarts 1) nofun rfl).tail
      (a := .response 1 (.arbitration 0)) nofun rfl, rfl, rfl, rfl, rfl, rfl⟩
    case first =>
      rintro t ht
      exact ⟨fun _ _ => rfl, nofun⟩
    case second =>
      intro t ht
      refine ⟨?_, ?_⟩
      · rintro (_ | t') _ <;> rfl
      · intro g hg
        obtain rfl : g = 0 := Nat.lt_one_iff.mp hg
        rfl
  obtain ⟨w, hreach, hcall, hchannel, hclosed, hreading, hstatus⟩ := hrun
  obtain ⟨w', hstep, hconn, -, hopen, -⟩ :=
    (undisturbed_of_opensLast false w hreach).succeeds 0 1 1 hcall hchannel hclosed hreading
      hstatus
  exact ⟨w, w', hcall, hstep, hconn, hopen⟩

/--
A `disconnect` closes a pending connection, and a second `connect` opens the next one
while the first waits for the lock: the first one's `_teardown` hits the new connection.
-/
theorem old_attempt_closes_new :
    ¬ ∀ secondary w, Reaches step anyStep { explicitSecondary := secondary } w →
      Undisturbed w := by
  intro hall
  have hrun : ∃ w, execute step {}
      [.callConnect 0, .streamStarts 0, .callDisconnect 1, .eventWakes 0, .cancelStream 0,
        .streamTaskDone (.call 1), .channelClosed (.call 1), .callConnect 2] = some w ∧
      w.channel = some 1 ∧ w.closed = false ∧ OlderActor 1 w (.call 0) ∧
      ∃ w', step w (.takeLock (.call 0)) = some w' ∧ w'.closed = true :=
    ⟨_, rfl, rfl, rfl, Nat.zero_lt_one, _, rfl, rfl⟩
  obtain ⟨w, hexec, hchannel, hclosed, hold, w', hstep, hclosed'⟩ := hrun
  have hreach : Reaches step anyStep {} w := reaches_of_execute (fun _ _ _ => trivial) hexec
  have hsame := (hall false w hreach).older 1 (.takeLock (.call 0)) w' hchannel hold hstep
  rw [hsame.closed, hclosed] at hclosed'
  cases hclosed'

end AsyncClient
end P4Net
