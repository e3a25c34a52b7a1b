import P4Net.LifecycleSteps
import P4Net.TeardownRuns
import P4Net.StartupAcquires

/-!
# The lifecycle as seen from its calls

An abstract view of the threads: at most one startup and at most one shutdown, each with
the thread that runs it and where it has got to.

* `Lifecycle.Sound` : futures that are pending are issued, distinct and not done.
* `Safe` : the calls agree with the fields of the network, they exclude each other, and
  the collections are what the calls have got to.
* `Safe.…` : each section and each statement keeps it.
-/

namespace P4Net
namespace Network

/-! ### Futures -/

/-- The futures of a network are issued in order, and those in use differ. -/
structure Lifecycle.Sound (life : Lifecycle) : Prop where
  fresh : ∀ f, life.nextFuture ≤ f → life.result f = none
  startIssued : ∀ f, life.startFuture = some f → f < life.nextFuture
  startOpen : ∀ f, life.startFuture = some f → life.result f = none
  stopIssued : ∀ f, life.stopFuture = some f → f < life.nextFuture
  distinct : ∀ f, life.startFuture = some f → life.stopFuture ≠ some f

/-- The future of the shutdown that is in progress. -/
def Lifecycle.pendingStop (life : Lifecycle) : Option Fut :=
  life.stopFuture.filter fun f => !life.isDone f

theorem pendingStop_eq_none_iff
    (life : Lifecycle) :
    life.pendingStop = none ↔ life.stopPending = false := by
  cases h : life.stopFuture <;> simp [Lifecycle.pendingStop, Lifecycle.stopPending, h]

theorem pendingStop_eq_some_iff
    {life : Lifecycle} {f : Fut} :
    life.pendingStop = some f ↔ life.stopFuture = some f ∧ life.result f = none := by
  simp [Lifecycle.pendingStop, Lifecycle.isDone]

/-- A startup that is admitted. -/
theorem prepareStart_ok
    {t : ThreadId} {background : Bool} {life life' : Lifecycle} {f : Fut}
    (h : prepareStart t background life = .ok (f, life')) :
    life.running = false ∧ life.startFuture = none ∧ life.pendingStop = none ∧
      f = life.nextFuture ∧
      life' =
        { life with
          stopFuture := none
          startThread := if background then none else some t
          startFuture := some life.nextFuture
          nextFuture := life.nextFuture + 1 } := by
  unfold prepareStart at h
  by_cases hbusy : (life.running || life.startFuture.isSome) = true
  · simp [hbusy] at h
  by_cases hpending : life.stopPending = true
  · simp [hbusy, hpending] at h
  rw [if_neg hbusy, if_neg hpending] at h
  obtain ⟨rfl, rfl⟩ := Prod.mk.inj (Except.ok.inj h)
  simp only [Bool.or_eq_true, not_or, Bool.not_eq_true, Option.isSome_eq_false_iff,
    Option.isNone_iff_eq_none] at hbusy
  refine ⟨hbusy.1, hbusy.2, ?_, rfl, rfl⟩
  rw [pendingStop_eq_none_iff]
  simpa using hpending

/-- What the section of `stop` does. -/
theorem stopSection_cases
    {pending initiate : Bool} {life life' : Lifecycle} {f : Fut}
    (h : stopSection pending life = (initiate, f, life')) :
    (initiate = true ∧ life.pendingStop = none ∧ f = life.nextFuture ∧
      life' =
        { life with
          stopFuture := some life.nextFuture
          nextFuture := life.nextFuture + 1 }) ∨
    (initiate = false ∧ life.stopFuture = some f ∧ life' = life) := by
  unfold stopSection at h
  cases hstop : life.stopFuture with
  | none =>
      simp only [hstop, Prod.mk.injEq] at h
      obtain ⟨rfl, rfl, rfl⟩ := h
      exact .inl ⟨rfl, by simp [Lifecycle.pendingStop, hstop], rfl, rfl⟩
  | some g =>
      simp only [hstop] at h
      split_ifs at h with hdone
      · obtain ⟨rfl, rfl, rfl⟩ := h
        simp only [Bool.and_eq_true] at hdone
        exact .inl ⟨rfl, by simp [Lifecycle.pendingStop, hstop, hdone.1], rfl, rfl⟩
      · obtain ⟨rfl, rfl, rfl⟩ := h
        exact .inr ⟨rfl, rfl, rfl⟩

namespace Lifecycle.Sound

variable {life : Lifecycle}

theorem prepareStart
    (h : life.Sound) (thread : Option ThreadId) :
    Sound
      { life with
        stopFuture := none
        startThread := thread
        startFuture := some life.nextFuture
        nextFuture := life.nextFuture + 1 } where
  fresh f hf := h.fresh f (Nat.le_of_succ_le hf)
  startIssued f hf := by
    obtain rfl := Option.some.inj hf
    exact Nat.lt_succ_self _
  startOpen f hf := by
    obtain rfl := Option.some.inj hf
    exact h.fresh _ (Nat.le_refl _)
  stopIssued f hf := by cases hf
  distinct f _ hf := by cases hf

theorem stopSection
    (h : life.Sound) :
    Sound
      { life with
        stopFuture := some life.nextFuture
        nextFuture := life.nextFuture + 1 } where
  fresh f hf := h.fresh f (Nat.le_of_succ_le hf)
  startIssued f hf := Nat.lt_succ_of_lt (h.startIssued f hf)
  startOpen := h.startOpen
  stopIssued f hf := by
    obtain rfl := Option.some.inj hf
    exact Nat.lt_succ_self _
  distinct f hf hstop := by
    obtain rfl := Option.some.inj hstop
    exact Nat.lt_irrefl _ (h.startIssued _ hf)

theorem endStart
    {f : Fut} (h : life.Sound) (hf : life.startFuture = some f) :
    Sound (endStart f life) where
  fresh g hg := by
    have hne : g ≠ f := (Nat.ne_of_lt (Nat.lt_of_lt_of_le (h.startIssued f hf) hg)).symm
    simpa [Network.endStart, complete, hne] using h.fresh g hg
  startIssued g hg := by cases hg
  startOpen g hg := by cases hg
  stopIssued := h.stopIssued
  distinct g hg := by cases hg

theorem completeStop
    {f : Fut} (h : life.Sound) (hf : life.stopFuture = some f) :
    Sound (life.complete f none) where
  fresh g hg := by
    have hne : g ≠ f := (Nat.ne_of_lt (Nat.lt_of_lt_of_le (h.stopIssued f hf) hg)).symm
    simpa [complete, hne] using h.fresh g hg
  startIssued := h.startIssued
  startOpen g hg := by
    have hne : g ≠ f := by
      rintro rfl
      exact h.distinct g hg hf
    simpa [complete, hne] using h.startOpen g hg
  stopIssued := h.stopIssued
  distinct := h.distinct

/-- The end of a startup does not complete a shutdown. -/
theorem pendingStop_endStart
    {f : Fut} (h : life.Sound) (hf : life.startFuture = some f) :
    (Network.endStart f life).pendingStop = life.pendingStop := by
  have hdistinct := h.distinct f hf
  unfold pendingStop
  cases hstop : life.stopFuture with
  | none => simp [Network.endStart, complete, hstop]
  | some g =>
      have hne : g ≠ f := by
        rintro rfl
        exact hdistinct hstop
      simp [Network.endStart, complete, isDone, hstop, Option.filter, hne]

end Lifecycle.Sound

/-! ### Collections -/

/-- The network is down. -/
structure Idle (net : Net) : Prop where
  running : net.life.running = false
  empty : net.res.Empty

/-- The network is up. -/
structure Complete (topology : Topology) (net : Net) : Prop where
  running : net.life.running = true
  full : net.res.Full topology

theorem idle_of_cleared
    {net : Net} (h : ∀ phase : StopPhase, phase.Cleared net) :
    Idle net := by
  obtain ⟨hrunning, hhosts, hswitches, hcompiled, hip, hip6⟩ := h .facades
  exact ⟨hrunning, ⟨h .namespaces, h .veths, hcompiled, h .bmv2, h .clients, hhosts, hswitches,
    hip, hip6⟩⟩

theorem cleared_of_same
    (net : Net) {net' : Net} (hrunning : net'.life.running = net.life.running)
    (hres : net'.res = net.res) {phase : StopPhase} (h : phase.Cleared net) :
    phase.Cleared net' := by
  cases phase <;> simp_all [StopPhase.Cleared]

/-- The rest of `_do_start` records every node, if no statement of it raises. -/
def Fills (topology : Topology) (todo : List StartOp) (res : Resources) : Bool → Prop
  | true => ∀ res', runAll todo res = .ok res' → res'.Full topology
  | false =>
      ∀ mid res', runAll todo res = .ok mid →
        runAll (startOps2 topology mid.bmv2Switches.entries) mid = .ok res' →
        res'.Full topology

theorem fills_exec
    {topology : Topology} {op : StartOp} {rest : List StartOp} {res res' : Resources}
    {second : Bool} (h : Fills topology (op :: rest) res second)
    (hexec : op.exec res = .ok res') :
    Fills topology rest res' second := by
  have hcons : runAll (op :: rest) res = runAll rest res' := by rw [runAll, hexec]
  cases second with
  | true => exact fun final hrun => h final (hcons.trans hrun)
  | false => exact fun mid final hrun => h mid final (hcons.trans hrun)

/-- The collections while a startup has got to `pc`, and no shutdown is tearing down. -/
def StartPc.Holds (topology : Topology) (net : Net) : StartPc → Prop
  | .register | .submit | .enter | .check => Idle net
  | .running second todo =>
      net.life.running = false ∧
        (net.life.stopFuture = none → Fills topology todo net.res second)
  | .commit =>
      net.life.running = false ∧ (net.life.stopFuture = none → net.res.Full topology)
  | .rollback _ todo => ∀ phase : StopPhase, phase ∉ todo → phase.Cleared net
  | .ending none => Complete topology net ∨ Idle net
  | .ending (some _) => Idle net

/-- A startup with its thread. -/
structure StartCall where
  thread : ThreadId
  future : Fut
  pc : StartPc

/-- A shutdown with its thread. -/
structure FinishCall where
  thread : ThreadId
  future : Fut
  pc : FinishPc

/-- The collections while no shutdown is tearing down. -/
def Rests (topology : Topology) (net : Net) : Option StartCall → Prop
  | none => Complete topology net ∨ Idle net
  | some call => call.pc.Holds topology net

/-- The collections while a shutdown has got to `pc`. -/
def FinishPc.Holds (topology : Topology) (net : Net) (start : Option StartCall) :
    FinishPc → Prop
  | .running todo => ∀ phase : StopPhase, phase ∉ todo → phase.Cleared net
  | .setResult => ∀ phase : StopPhase, phase.Cleared net
  | _ => Rests topology net start

/-- The collections, by the calls in progress. -/
def Reflects (topology : Topology) (net : Net) (start : Option StartCall) :
    Option FinishCall → Prop
  | none => Rests topology net start
  | some call => call.pc.Holds topology net start

/-- Where a shutdown has got to, a startup can only be on its own thread or is awaited. -/
def FinishPc.Excludes (thread : ThreadId) (start : Option StartCall) : FinishPc → Prop
  | .enter | .read => True
  | .await f => ∀ call, start = some call → call.future = f
  | .running _ | .setResult => ∀ call, start = some call → call.thread = thread

/-- The worker or the caller of a startup has entered `_run_start`. -/
def StartPc.entered : StartPc → Bool
  | .register | .submit => false
  | _ => true

/-- The calls in progress and the fields of the network. -/
structure Safe (topology : Topology) (net : Net) (start : Option StartCall)
    (finish : Option FinishCall) : Prop where
  sound : net.life.Sound
  startFuture : net.life.startFuture = start.map StartCall.future
  pendingStop : net.life.pendingStop = finish.map FinishCall.future
  startThread : ∀ t, net.life.startThread = some t →
    ∃ call, start = some call ∧ call.thread = t ∧ call.pc.entered = true
  excludes : ∀ call, finish = some call → call.pc.Excludes call.thread start
  reflects : Reflects topology net start finish

/-- The collections do not depend on the thread ids. -/
theorem holds_of_same
    {topology : Topology} {net net' : Net} (pc : StartPc) (h : pc.Holds topology net)
    (hrunning : net'.life.running = net.life.running) (hres : net'.res = net.res)
    (hstop : net'.life.stopFuture = none → net.life.stopFuture = none) :
    pc.Holds topology net' := by
  have hidle : Idle net → Idle net' := fun hdown => ⟨hrunning.trans hdown.running, hres ▸ hdown.empty⟩
  have hcomplete : Complete topology net → Complete topology net' :=
    fun hup => ⟨hrunning.trans hup.running, hres ▸ hup.full⟩
  cases pc with
  | register => exact hidle h
  | submit => exact hidle h
  | enter => exact hidle h
  | check => exact hidle h
  | running second todo => exact ⟨hrunning.trans h.1, fun hnone => hres ▸ h.2 (hstop hnone)⟩
  | commit => exact ⟨hrunning.trans h.1, fun hnone => hres ▸ h.2 (hstop hnone)⟩
  | rollback exc todo => exact fun phase hphase => cleared_of_same net hrunning hres (h phase hphase)
  | ending result =>
      cases result with
      | none => exact h.imp hcomplete hidle
      | some exc => exact hidle h

namespace Safe

variable {topology : Topology} {net : Net} {start : Option StartCall} {finish : Option FinishCall}

/-! ### Startup -/

/-- While a startup can take a step, the shutdown in progress has not begun its teardown. -/
theorem rests
    {call : StartCall} (h : Safe topology net (some call) finish)
    (hother : ∀ other, finish = some other → other.thread ≠ call.thread) :
    call.pc.Holds topology net := by
  have hreflects := h.reflects
  cases finish with
  | none => exact hreflects
  | some other =>
      have hexcludes := h.excludes other rfl
      have hthread := hother other rfl
      rcases other with ⟨thread, f, pc⟩
      cases pc with
      | enter => exact hreflects
      | read => exact hreflects
      | await startup => exact hreflects
      | running todo => exact absurd (hexcludes call rfl).symm hthread
      | setResult => exact absurd (hexcludes call rfl).symm hthread

/-- A startup that a shutdown waits for, or that nobody waits for, may change. -/
theorem restart
    {call : StartCall} {net' : Net} (h : Safe topology net (some call) finish)
    (start' : Option StartCall)
    (hother : ∀ other, finish = some other → other.thread ≠ call.thread)
    (hsame : ∀ call', start' = some call' → call'.future = call.future)
    (hrests : Rests topology net' start') :
    (∀ other, finish = some other → other.pc.Excludes other.thread start') ∧
      Reflects topology net' start' finish := by
  cases finish with
  | none => exact ⟨fun _ hnone => (Option.some_ne_none _ hnone.symm).elim, hrests⟩
  | some other =>
      have hexcludes := h.excludes other rfl
      have hthread := hother other rfl
      rcases other with ⟨thread, f, pc⟩
      refine ⟨?_, ?_⟩
      · rintro _ ⟨⟩
        cases pc with
        | enter => trivial
        | read => trivial
        | await startup => exact fun call' hcall' => (hsame call' hcall').trans (hexcludes call rfl)
        | running todo => exact absurd (hexcludes call rfl).symm hthread
        | setResult => exact absurd (hexcludes call rfl).symm hthread
      · cases pc with
        | enter => exact hrests
        | read => exact hrests
        | await startup => exact hrests
        | running todo => exact absurd (hexcludes call rfl).symm hthread
        | setResult => exact absurd (hexcludes call rfl).symm hthread

end Safe

/-- A step of a startup keeps what its collections are. -/
theorem holds_advanceStart
    {topology : Topology} {options : Options} {t : ThreadId} {raised : Option Raised}
    {left : List Disconnect} {net net' : Net} {pc pc' : StartPc} (h : pc.Holds topology net)
    (hstep : advanceStart topology options t raised left net pc = some (net', pc')) :
    pc'.Holds topology net' := by
  have hrollback : ∀ exc, StartPc.Holds topology net (.rollback exc stopPhases) := by
    intro exc phase hphase
    exact absurd (by cases phase <;> decide) hphase
  cases pc with
  | register =>
      simp only [advanceStart] at hstep
      cases hrun : StartOp.registerCleanup.run raised net.res with
      | error exc =>
          simp only [hrun, Option.some.injEq, Prod.mk.injEq] at hstep
          obtain ⟨rfl, rfl⟩ := hstep
          exact hrollback exc
      | ok res =>
          simp only [hrun, Option.some.injEq, Prod.mk.injEq] at hstep
          obtain ⟨rfl, rfl⟩ := hstep
          have hres : res = { net.res with registered := true } := by
            cases raised with
            | none => exact (Except.ok.inj hrun).symm
            | some exc =>
                simp only [StartOp.run] at hrun
                split_ifs at hrun
                exact (Except.ok.inj hrun).symm
          have hidle : Idle net := h
          exact ⟨hidle.running, hres ▸ { hidle.empty with }⟩
  | submit =>
      cases raised with
      | none => cases hstep
      | some exc =>
          obtain ⟨rfl, rfl⟩ := Prod.mk.inj (Option.some.inj hstep)
          exact hrollback exc
  | enter =>
      obtain ⟨rfl, rfl⟩ := Prod.mk.inj (Option.some.inj hstep)
      have hidle : Idle net := h
      exact ⟨hidle.running, hidle.empty⟩
  | check =>
      simp only [advanceStart] at hstep
      cases hcheck : checkStart net.life with
      | error exc =>
          simp only [hcheck, Option.some.injEq, Prod.mk.injEq] at hstep
          obtain ⟨rfl, rfl⟩ := hstep
          exact hrollback exc
      | ok _ =>
          simp only [hcheck, Option.some.injEq, Prod.mk.injEq] at hstep
          obtain ⟨rfl, rfl⟩ := hstep
          have hidle : Idle net := h
          exact ⟨hidle.running, fun _ mid res' => full_of_runAll hidle.empty⟩
  | running second todo =>
      obtain ⟨hdown, hfills⟩ := h
      cases todo with
      | cons op rest =>
          cases raised with
          | some exc =>
              obtain ⟨rfl, rfl⟩ := Prod.mk.inj (Option.some.inj hstep)
              exact hrollback exc
          | none =>
              simp only [advanceStart] at hstep
              cases hexec : op.exec net.res with
              | error exc =>
                  simp only [hexec, Option.some.injEq, Prod.mk.injEq] at hstep
                  obtain ⟨rfl, rfl⟩ := hstep
                  exact hrollback exc
              | ok res =>
                  simp only [hexec, Option.some.injEq, Prod.mk.injEq] at hstep
                  obtain ⟨rfl, rfl⟩ := hstep
                  exact ⟨hdown, fun hnone => fills_exec (hfills hnone) hexec⟩
      | nil =>
          cases second with
          | false =>
              obtain ⟨rfl, rfl⟩ := Prod.mk.inj (Option.some.inj hstep)
              exact ⟨hdown, fun hnone res' hrun => hfills hnone _ res' rfl hrun⟩
          | true =>
              obtain ⟨rfl, rfl⟩ := Prod.mk.inj (Option.some.inj hstep)
              exact ⟨hdown, fun hnone => hfills hnone _ rfl⟩
  | commit =>
      simp only [advanceStart] at hstep
      cases hcommit : commitStart net.life with
      | error exc =>
          simp only [hcommit, Option.some.injEq, Prod.mk.injEq] at hstep
          obtain ⟨rfl, rfl⟩ := hstep
          exact hrollback exc
      | ok life =>
          simp only [hcommit, Option.some.injEq, Prod.mk.injEq] at hstep
          obtain ⟨rfl, rfl⟩ := hstep
          unfold commitStart at hcommit
          split_ifs at hcommit with hstop
          obtain rfl := Except.ok.inj hcommit
          exact .inl ⟨rfl, h.2 (by simpa using hstop)⟩
  | rollback exc todo =>
      cases todo with
      | cons phase rest =>
          obtain ⟨rfl, rfl⟩ := Prod.mk.inj (Option.some.inj hstep)
          intro other hother
          by_cases hsame : other = phase
          · subst hsame
            exact cleared_finish_self other left net
          · exact cleared_finish (h other (by simp [hsame, hother])) phase left
      | nil =>
          obtain ⟨rfl, rfl⟩ := Prod.mk.inj (Option.some.inj hstep)
          exact idle_of_cleared fun phase => h phase (by simp)
  | ending result => cases hstep

/-- Two lifecycles with the same futures. -/
structure Lifecycle.SameFutures (life life' : Lifecycle) : Prop where
  startFuture : life'.startFuture = life.startFuture
  stopFuture : life'.stopFuture = life.stopFuture
  nextFuture : life'.nextFuture = life.nextFuture
  result : life'.result = life.result

namespace Lifecycle.SameFutures

variable {life life' : Lifecycle}

theorem sound
    (h : life.SameFutures life') (hsound : life.Sound) :
    life'.Sound := by
  obtain ⟨running, startFuture, startThread, stopFuture, stopThread, nextFuture, result⟩ := life'
  obtain ⟨rfl, rfl, rfl, rfl⟩ := h
  exact { hsound with }

theorem pendingStop
    (h : life.SameFutures life') :
    life'.pendingStop = life.pendingStop := by
  simp [Lifecycle.pendingStop, Lifecycle.isDone, h.stopFuture, h.result]

theorem finish
    (phase : StopPhase) (left : List Disconnect) (net : Net) :
    net.life.SameFutures (phase.finish left net).life := by
  rw [finish_life phase left net]
  exact ⟨rfl, rfl, rfl, rfl⟩

end Lifecycle.SameFutures

theorem finish_startThread
    (phase : StopPhase) (left : List Disconnect) (net : Net) :
    (phase.finish left net).life.startThread = net.life.startThread := by
  rw [finish_life phase left net]

/-- What a step of a startup does to the lifecycle. -/
structure StartStep (t : ThreadId) (life life' : Lifecycle) (pc pc' : StartPc) : Prop where
  futures : life.SameFutures life'
  startThread : life'.startThread = life.startThread ∨ life'.startThread = some t ∧ pc'.entered
  entered : pc.entered → pc'.entered

theorem startStep_advanceStart
    {topology : Topology} {options : Options} {t : ThreadId} {raised : Option Raised}
    {left : List Disconnect} {net net' : Net} {pc pc' : StartPc}
    (hstep : advanceStart topology options t raised left net pc = some (net', pc')) :
    StartStep t net.life net'.life pc pc' := by
  have hsame : net.life.SameFutures net.life := ⟨rfl, rfl, rfl, rfl⟩
  unfold advanceStart at hstep
  split at hstep
  · split at hstep
    · obtain ⟨rfl, rfl⟩ := Prod.mk.inj (Option.some.inj hstep)
      exact ⟨hsame, .inl rfl, fun _ => rfl⟩
    · obtain ⟨rfl, rfl⟩ := Prod.mk.inj (Option.some.inj hstep)
      exact ⟨hsame, .inl rfl, fun h => h⟩
  · rw [Option.map_eq_some_iff] at hstep
    obtain ⟨exc, -, heq⟩ := hstep
    obtain ⟨rfl, rfl⟩ := Prod.mk.inj heq
    exact ⟨hsame, .inl rfl, fun _ => rfl⟩
  · obtain ⟨rfl, rfl⟩ := Prod.mk.inj (Option.some.inj hstep)
    exact ⟨⟨rfl, rfl, rfl, rfl⟩, .inr ⟨rfl, rfl⟩, fun _ => rfl⟩
  · split at hstep <;> obtain ⟨rfl, rfl⟩ := Prod.mk.inj (Option.some.inj hstep) <;>
      exact ⟨hsame, .inl rfl, fun _ => rfl⟩
  · split at hstep
    · obtain ⟨rfl, rfl⟩ := Prod.mk.inj (Option.some.inj hstep)
      exact ⟨hsame, .inl rfl, fun _ => rfl⟩
    · split at hstep <;> obtain ⟨rfl, rfl⟩ := Prod.mk.inj (Option.some.inj hstep) <;>
        exact ⟨hsame, .inl rfl, fun _ => rfl⟩
  · obtain ⟨rfl, rfl⟩ := Prod.mk.inj (Option.some.inj hstep)
    exact ⟨hsame, .inl rfl, fun _ => rfl⟩
  · obtain ⟨rfl, rfl⟩ := Prod.mk.inj (Option.some.inj hstep)
    exact ⟨hsame, .inl rfl, fun _ => rfl⟩
  · split at hstep
    · obtain ⟨rfl, rfl⟩ := Prod.mk.inj (Option.some.inj hstep)
      exact ⟨hsame, .inl rfl, fun _ => rfl⟩
    · rename_i life hcommit
      obtain ⟨rfl, rfl⟩ := Prod.mk.inj (Option.some.inj hstep)
      unfold commitStart at hcommit
      split_ifs at hcommit
      obtain rfl := Except.ok.inj hcommit
      exact ⟨⟨rfl, rfl, rfl, rfl⟩, .inl rfl, fun _ => rfl⟩
  · obtain ⟨rfl, rfl⟩ := Prod.mk.inj (Option.some.inj hstep)
    exact ⟨.finish _ _ _, .inl (finish_startThread _ _ _), fun _ => rfl⟩
  · obtain ⟨rfl, rfl⟩ := Prod.mk.inj (Option.some.inj hstep)
    exact ⟨hsame, .inl rfl, fun _ => rfl⟩
  · cases hstep

/-- A step of a shutdown, before it is complete, keeps the futures. -/
theorem sameFutures_advanceFinish
    {t : ThreadId} {left : List Disconnect} {net net' : Net} {pc pc' : FinishPc}
    (hstep : advanceFinish t left net pc = some (net', pc')) :
    net.life.SameFutures net'.life := by
  unfold advanceFinish at hstep
  split at hstep
  · obtain ⟨rfl, rfl⟩ := Prod.mk.inj (Option.some.inj hstep)
    exact ⟨rfl, rfl, rfl, rfl⟩
  · split at hstep
    · split_ifs at hstep <;> obtain ⟨rfl, rfl⟩ := Prod.mk.inj (Option.some.inj hstep) <;>
        exact ⟨rfl, rfl, rfl, rfl⟩
    · obtain ⟨rfl, rfl⟩ := Prod.mk.inj (Option.some.inj hstep)
      exact ⟨rfl, rfl, rfl, rfl⟩
  · split_ifs at hstep
    obtain ⟨rfl, rfl⟩ := Prod.mk.inj (Option.some.inj hstep)
    exact ⟨rfl, rfl, rfl, rfl⟩
  · obtain ⟨rfl, rfl⟩ := Prod.mk.inj (Option.some.inj hstep)
    exact .finish _ _ _
  · obtain ⟨rfl, rfl⟩ := Prod.mk.inj (Option.some.inj hstep)
    exact ⟨rfl, rfl, rfl, rfl⟩
  · cases hstep

namespace Safe

variable {topology : Topology} {net : Net} {start : Option StartCall} {finish : Option FinishCall}

/-- A startup takes a step. -/
theorem advanceStart
    {options : Options} {t : ThreadId} {f : Fut} {raised : Option Raised}
    {left : List Disconnect} {net' : Net} {pc pc' : StartPc}
    (h : Safe topology net (some ⟨t, f, pc⟩) finish)
    (hother : ∀ other, finish = some other → other.thread ≠ t)
    (hstep : Network.advanceStart topology options t raised left net pc = some (net', pc')) :
    Safe topology net' (some ⟨t, f, pc'⟩) finish := by
  have hlife := startStep_advanceStart hstep
  have hholds := holds_advanceStart (h.rests hother) hstep
  obtain ⟨hexcludes, hreflects⟩ := h.restart (some ⟨t, f, pc'⟩) hother
    (by rintro _ ⟨⟩; rfl) hholds
  refine ⟨hlife.futures.sound h.sound, hlife.futures.startFuture.trans h.startFuture,
    hlife.futures.pendingStop.trans h.pendingStop, ?_, hexcludes, hreflects⟩
  intro u hu
  rcases hlife.startThread with hsame | ⟨hnew, hentered⟩
  · obtain ⟨call, hcall, hthread, hentered⟩ := h.startThread u (hsame.symm.trans hu)
    obtain rfl := Option.some.inj hcall
    exact ⟨_, rfl, hthread, hlife.entered hentered⟩
  · exact ⟨_, rfl, Option.some.inj (hnew.symm.trans hu), hentered⟩

/-- A worker takes over a startup. -/
theorem submitStart
    {t : ThreadId} {f : Fut} (h : Safe topology net (some ⟨t, f, .submit⟩) finish)
    (hother : ∀ other, finish = some other → other.thread ≠ t) (worker : ThreadId) :
    Safe topology net (some ⟨worker, f, .enter⟩) finish := by
  obtain ⟨hexcludes, hreflects⟩ := h.restart (some ⟨worker, f, .enter⟩) hother
    (by rintro _ ⟨⟩; rfl) (h.rests hother)
  refine ⟨h.sound, h.startFuture, h.pendingStop, ?_, hexcludes, hreflects⟩
  intro u hu
  obtain ⟨call, hcall, -, hentered⟩ := h.startThread u hu
  obtain rfl := Option.some.inj hcall
  cases hentered

/-- A startup ends. -/
theorem endStart
    {t : ThreadId} {f : Fut} {result : Option Raised}
    (h : Safe topology net (some ⟨t, f, .ending result⟩) finish)
    (hother : ∀ other, finish = some other → other.thread ≠ t) :
    Safe topology { net with life := Network.endStart f net.life } none finish := by
  have hholds := h.rests hother
  have hrests : Rests topology { net with life := Network.endStart f net.life } none := by
    cases result with
    | none =>
        rcases hholds with hup | hdown
        · exact .inl ⟨hup.running, hup.full⟩
        · exact .inr ⟨hdown.running, hdown.empty⟩
    | some exc => exact .inr ⟨hholds.running, hholds.empty⟩
  obtain ⟨hexcludes, hreflects⟩ := h.restart none hother (by simp) hrests
  exact ⟨h.sound.endStart h.startFuture, rfl,
    (h.sound.pendingStop_endStart h.startFuture).trans h.pendingStop, by rintro u ⟨⟩,
    hexcludes, hreflects⟩

/-- A startup is admitted only while nothing is in progress. -/
theorem prepareStart
    {t : ThreadId} {background : Bool} {f : Fut} {life : Lifecycle}
    (h : Safe topology net start finish)
    (hprepare : Network.prepareStart t background net.life = .ok (f, life)) :
    start = none ∧ finish = none ∧
      Safe topology { net with life := life }
        (some ⟨t, f, if background then .register else .enter⟩) none := by
  obtain ⟨hrunning, hstart, hstop, rfl, rfl⟩ := prepareStart_ok hprepare
  obtain rfl : start = none := by simpa [hstart] using h.startFuture.symm
  obtain rfl : finish = none := by simpa [hstop] using h.pendingStop.symm
  refine ⟨rfl, rfl, h.sound.prepareStart _, rfl, rfl, ?_, by rintro _ ⟨⟩, ?_⟩
  · intro u hu
    cases background with
    | true => cases hu
    | false => exact ⟨_, rfl, Option.some.inj hu, rfl⟩
  · rcases h.reflects with hup | hdown
    · exact absurd hup.running (by simp [hrunning])
    · cases background <;> exact ⟨hdown.running, hdown.empty⟩

/-! ### Shutdown -/

/-- A shutdown is initiated only while no other one is in progress. -/
theorem stopSection
    {pending : Bool} {f : Fut} {life : Lifecycle} (h : Safe topology net start finish)
    (hsection : Network.stopSection pending net.life = (true, f, life)) (t : ThreadId) :
    finish = none ∧ Safe topology { net with life := life } start (some ⟨t, f, .enter⟩) := by
  rcases stopSection_cases hsection with ⟨-, hstop, rfl, rfl⟩ | ⟨hfalse, -⟩
  · obtain rfl : finish = none := by simpa [hstop] using h.pendingStop.symm
    refine ⟨rfl, h.sound.stopSection, h.startFuture, ?_, h.startThread, ?_, ?_⟩
    · exact pendingStop_eq_some_iff.mpr ⟨rfl, h.sound.fresh _ (Nat.le_refl _)⟩
    · rintro _ ⟨⟩
      exact True.intro
    · have hreflects := h.reflects
      cases start with
      | none =>
          rcases hreflects with hup | hdown
          · exact .inl ⟨hup.running, hup.full⟩
          · exact .inr ⟨hdown.running, hdown.empty⟩
      | some call => exact holds_of_same call.pc hreflects rfl rfl (by rintro ⟨⟩)
  · cases hfalse

/-- The thread id of a shutdown. -/
theorem setStopThread
    (h : Safe topology net start finish) (thread : Option ThreadId) :
    Safe topology { net with life := { net.life with stopThread := thread } } start finish := by
  have hidle : Idle net → Idle { net with life := { net.life with stopThread := thread } } :=
    fun hdown => ⟨hdown.running, hdown.empty⟩
  have hrests : Rests topology net start →
      Rests topology { net with life := { net.life with stopThread := thread } } start := by
    intro hrests
    cases start with
    | none => exact hrests.imp (fun hup => ⟨hup.running, hup.full⟩) hidle
    | some call => exact holds_of_same call.pc hrests rfl rfl id
  refine ⟨{ h.sound with }, h.startFuture, h.pendingStop, h.startThread, h.excludes, ?_⟩
  have hreflects := h.reflects
  cases finish with
  | none => exact hrests hreflects
  | some call =>
      rcases call with ⟨t, f, pc⟩
      cases pc with
      | enter => exact hrests hreflects
      | read => exact hrests hreflects
      | await startup => exact hrests hreflects
      | running todo =>
          exact fun phase hphase => cleared_of_same net rfl rfl (hreflects phase hphase)
      | setResult => exact fun phase => cleared_of_same net rfl rfl (hreflects phase)

/-- A shutdown begins its teardown. -/
theorem beginTeardown
    {t : ThreadId} {f : Fut} {pc : FinishPc} (h : Safe topology net start (some ⟨t, f, pc⟩))
    (hthread : ∀ call, start = some call → call.thread = t) :
    Safe topology net start (some ⟨t, f, .running stopPhases⟩) := by
  refine ⟨h.sound, h.startFuture, h.pendingStop, h.startThread, ?_, ?_⟩
  · rintro _ ⟨⟩
    exact hthread
  · intro phase hphase
    exact absurd (by cases phase <;> decide) hphase

/-- A shutdown takes a step. -/
theorem advanceFinish
    {t : ThreadId} {f : Fut} {left : List Disconnect} {net' : Net} {pc pc' : FinishPc}
    (h : Safe topology net start (some ⟨t, f, pc⟩))
    (hstep : Network.advanceFinish t left net pc = some (net', pc')) :
    Safe topology net' start (some ⟨t, f, pc'⟩) := by
  cases pc with
  | enter =>
      obtain ⟨rfl, rfl⟩ := Prod.mk.inj (Option.some.inj hstep)
      have hset := h.setStopThread (some t)
      exact { hset with excludes := by rintro _ ⟨⟩; exact True.intro }
  | read =>
      simp only [Network.advanceFinish] at hstep
      cases hstart : net.life.startFuture with
      | none =>
          simp only [hstart, Option.some.injEq, Prod.mk.injEq] at hstep
          obtain ⟨rfl, rfl⟩ := hstep
          refine h.beginTeardown ?_
          rintro call rfl
          exact absurd h.startFuture (by simp [hstart])
      | some g =>
          simp only [hstart] at hstep
          split_ifs at hstep with hthread
          · obtain ⟨rfl, rfl⟩ := Prod.mk.inj (Option.some.inj hstep)
            refine h.beginTeardown ?_
            rintro call rfl
            obtain ⟨call', hcall', hthread', -⟩ := h.startThread t hthread
            obtain rfl := Option.some.inj hcall'
            exact hthread'
          · obtain ⟨rfl, rfl⟩ := Prod.mk.inj (Option.some.inj hstep)
            refine ⟨h.sound, h.startFuture, h.pendingStop, h.startThread, ?_, h.reflects⟩
            rintro _ ⟨⟩ call rfl
            exact Option.some.inj (h.startFuture.symm.trans hstart)
  | await g =>
      simp only [Network.advanceFinish] at hstep
      split_ifs at hstep with hdone
      obtain ⟨rfl, rfl⟩ := Prod.mk.inj (Option.some.inj hstep)
      refine h.beginTeardown ?_
      rintro call rfl
      -- A startup that is pending is not done.
      have hfuture : call.future = g := h.excludes _ rfl call rfl
      have hopen := h.sound.startOpen call.future h.startFuture
      rw [hfuture] at hopen
      simp [Lifecycle.isDone, hopen] at hdone
  | running todo =>
      have hcleared := h.reflects
      have hthread := h.excludes _ rfl
      cases todo with
      | cons phase rest =>
          obtain ⟨rfl, rfl⟩ := Prod.mk.inj (Option.some.inj hstep)
          have hfutures := Lifecycle.SameFutures.finish phase left net
          refine ⟨hfutures.sound h.sound, hfutures.startFuture.trans h.startFuture,
            hfutures.pendingStop.trans h.pendingStop, ?_, ?_, ?_⟩
          · rw [finish_startThread]
            exact h.startThread
          · rintro _ ⟨⟩
            exact hthread
          · intro other hother
            by_cases hsame : other = phase
            · subst hsame
              exact cleared_finish_self other left net
            · exact cleared_finish (hcleared other (by simp [hsame, hother])) phase left
      | nil =>
          obtain ⟨rfl, rfl⟩ := Prod.mk.inj (Option.some.inj hstep)
          refine ⟨h.sound, h.startFuture, h.pendingStop, h.startThread, ?_, ?_⟩
          · rintro _ ⟨⟩
            exact hthread
          · exact fun phase => hcleared phase (by simp)
  | setResult => cases hstep

/-- A shutdown sets its result. -/
theorem completeStop
    {t : ThreadId} {f : Fut} (h : Safe topology net start (some ⟨t, f, .setResult⟩)) :
    Safe topology { net with life := net.life.complete f none } start none := by
  obtain ⟨hstop, -⟩ := pendingStop_eq_some_iff.mp h.pendingStop
  have hcleared : ∀ phase : StopPhase,
      phase.Cleared { net with life := net.life.complete f none } := by
    intro phase
    have hphase : phase.Cleared net := h.reflects phase
    exact cleared_of_same net rfl rfl hphase
  have hidle := idle_of_cleared hcleared
  refine ⟨h.sound.completeStop hstop, h.startFuture, ?_, h.startThread, by rintro _ ⟨⟩, ?_⟩
  · simp [Lifecycle.pendingStop, Lifecycle.complete, Lifecycle.isDone, hstop]
  · cases start with
    | none => exact .inr hidle
    | some call =>
        have hrequested : net.life.stopFuture ≠ none := by simp [hstop]
        rcases call with ⟨u, g, pc⟩
        -- A startup that goes on after the teardown will be refused at its final check.
        cases pc with
        | register => exact hidle
        | submit => exact hidle
        | enter => exact hidle
        | check => exact hidle
        | running second todo => exact ⟨hidle.running, fun hnone => absurd hnone hrequested⟩
        | commit => exact ⟨hidle.running, fun hnone => absurd hnone hrequested⟩
        | rollback exc todo => exact fun phase _ => hcleared phase
        | ending result =>
            cases result with
            | none => exact .inr hidle
            | some exc => exact hidle

end Safe

end Network
end P4Net
