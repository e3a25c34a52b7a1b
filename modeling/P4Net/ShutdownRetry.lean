import P4Net.NetworkRollback

/-!
# A shutdown that is aborted

An exception that `_do_stop` does not swallow aborts the teardown.  The future of that
`stop` is then done, and a later `stop` looks at `_async_disconnects` to decide whether it
begins another teardown.

* `outstanding` : the disconnects that an aborted teardown leaves.
* `retry_iff_outstanding` : a later `stop` finishes the shutdown if and only if there are
  some.
* `aborted_stop_stays_running` : a network without async clients never shuts down.
-/

namespace P4Net
namespace Network

/-! ### Where a teardown is aborted -/

/-- The disconnects of earlier shutdowns, and those that a teardown submits. -/
def submittedBy (env : StopEnv) (w : World) : List Disconnect :=
  w.net.res.asyncDisconnects ++ (submitAll env.submit 0 w.net.res.runningSwitches.entries).1

/--
The disconnects that are outstanding when a teardown is aborted: those of earlier
shutdowns, if it was reaping processes; those submitted so far, if it was submitting them
or waiting for them; and later those that the wait has left pending.
-/
def outstanding (env : StopEnv) (w : World) : List Disconnect :=
  if (sweep env.reap 0 w.net.res.spawnedProcesses).2.isSome then w.net.res.asyncDisconnects
  else if (submitAll env.submit 0 w.net.res.runningSwitches.entries).2.isSome then
    submittedBy env w
  else if (waitAll env.wait 0 (submittedBy env w)).2.isSome then submittedBy env w
  else (waitAll env.wait 0 (submittedBy env w)).1

/-- The parts of a network that most phases leave alone. -/
structure SameControl (net net' : Net) : Prop where
  life : net'.life = net.life
  asyncDisconnects : net'.res.asyncDisconnects = net.res.asyncDisconnects
  runningSwitches : net'.res.runningSwitches = net.res.runningSwitches

theorem SameControl.trans
    {net mid net' : Net} (h : SameControl net mid) (h' : SameControl mid net') :
    SameControl net net' :=
  ⟨h'.life.trans h.life, h'.asyncDisconnects.trans h.asyncDisconnects,
    h'.runningSwitches.trans h.runningSwitches⟩

/-- The phases that only release what they come to. -/
def StopPhase.releases : StopPhase → Bool
  | .submit => false
  | .wait => false
  | .facades => false
  | _ => true

theorem destroyAll_net
    (outcome : Nat → Outcome) (i : Nat) (names : List String) (w : World) :
    (destroyAll outcome i names w).1.net = w.net := by
  induction names generalizing i w with
  | nil => rfl
  | cons name rest ih =>
      rw [destroyAll]
      split_ifs
      · cases outcome i with
        | aborts exc => rfl
        | ok => exact ih _ _
        | exception => exact ih _ _
      · exact ih _ _

theorem sameControl_finish
    {phase : StopPhase} (h : phase.releases = true) (net : Net) :
    SameControl net (phase.finish [] net) := by
  cases phase <;> first | exact ⟨rfl, rfl, rfl⟩ | cases h

theorem sameControl_releasePhase
    {phase : StopPhase} (h : phase.releases = true) (outcome : Nat → Outcome)
    (items : List Resource) (w : World) :
    SameControl w.net (releasePhase outcome items phase w).1.net := by
  unfold releasePhase
  rcases sweep outcome 0 items with ⟨tried, _ | exc⟩
  · exact sameControl_finish h w.net
  · exact ⟨rfl, rfl, rfl⟩

theorem sameControl_doPhase
    {phase : StopPhase} (h : phase.releases = true) (env : StopEnv) (w : World) :
    SameControl w.net (doPhase env phase w).1.net := by
  cases phase with
  | reap => exact sameControl_releasePhase h _ _ _
  | clients => exact sameControl_releasePhase h _ _ _
  | bmv2 => exact sameControl_releasePhase h _ _ _
  | veths => exact sameControl_releasePhase h _ _ _
  | namespaces =>
      have hnet := destroyAll_net env.netns 0 w.net.res.namespaces.keys w
      simp only [doPhase]
      rcases hdestroy : destroyAll env.netns 0 w.net.res.namespaces.keys w with ⟨w', _ | exc⟩
      · rw [hdestroy] at hnet
        have hnet' : w'.net = w.net := hnet
        simp only [hnet']
        exact sameControl_finish h w.net
      · rw [hdestroy] at hnet
        have hnet' : w'.net = w.net := hnet
        simp only [hnet']
        exact ⟨rfl, rfl, rfl⟩
  | unregister =>
      unfold doPhase
      dsimp only
      split
      · exact ⟨rfl, rfl, rfl⟩
      · exact sameControl_finish h w.net
      · exact ⟨rfl, rfl, rfl⟩
  | submit => cases h
  | wait => cases h
  | facades => cases h

/-- The phases after the disconnects leave them alone when they are aborted. -/
theorem sameControl_runPhases
    {env : StopEnv} {phases : List StopPhase} {w w' : World} {exc : Raised}
    (hphases : ∀ phase ∈ phases, phase.releases = true)
    (h : runPhases env (phases ++ [.facades]) w = (w', some exc)) :
    SameControl w.net w'.net := by
  induction phases generalizing w with
  | nil => simp [runPhases, doPhase] at h
  | cons phase rest ih =>
      have hsame := sameControl_doPhase (hphases phase List.mem_cons_self) env w
      rw [List.cons_append, runPhases] at h
      rcases hphase : doPhase env phase w with ⟨mid, _ | exc'⟩
      · rw [hphase] at h hsame
        exact hsame.trans (ih (fun p hp => hphases p (List.mem_cons_of_mem _ hp)) h)
      · rw [hphase] at h hsame
        obtain ⟨rfl, -⟩ := Prod.mk.inj h
        exact hsame

theorem sweep_map_abort
    {α β : Type} (f : α → β) (outcome : Nat → Outcome) (i : Nat) (items : List α) :
    (sweep outcome i (items.map f)).2 = (sweep outcome i items).2 := by
  induction items generalizing i with
  | nil => rfl
  | cons item rest ih =>
      rw [List.map_cons, sweep, sweep]
      cases outcome i with
      | aborts exc => rfl
      | ok => exact ih _
      | exception => exact ih _

theorem reap_abort
    (env : StopEnv) (w : World) :
    (doPhase env .reap w).2 = (sweep env.reap 0 w.net.res.spawnedProcesses).2 := by
  rw [← sweep_map_abort Resource.process]
  simp only [doPhase, releasePhase]
  rcases sweep env.reap 0 (w.net.res.spawnedProcesses.map Resource.process) with
    ⟨tried, _ | exc⟩ <;> rfl

/-- From the wait on, an aborted teardown leaves what the wait has not settled. -/
theorem wait_aborts
    {env : StopEnv} {w w' : World} {exc : Raised}
    (h : runPhases env
      (.wait :: ([.clients, .bmv2, .veths, .namespaces, .unregister] ++ [.facades])) w =
      (w', some exc)) :
    w'.net.life = w.net.life ∧ w'.net.res.asyncDisconnects =
      if (waitAll env.wait 0 w.net.res.asyncDisconnects).2.isSome then
        w.net.res.asyncDisconnects
      else (waitAll env.wait 0 w.net.res.asyncDisconnects).1 := by
  rw [runPhases] at h
  rcases hwait : waitAll env.wait 0 w.net.res.asyncDisconnects with ⟨pending, _ | exc'⟩
  · simp only [doPhase, hwait] at h
    have hsame := sameControl_runPhases (by decide) h
    exact ⟨hsame.life, hsame.asyncDisconnects⟩
  · simp only [doPhase, hwait, Prod.mk.injEq] at h
    obtain ⟨rfl, -⟩ := h
    exact ⟨rfl, rfl⟩

/-- The submission finds the running switches and the disconnects of before the teardown. -/
theorem doPhase_submit
    {env : StopEnv} {w mid : World} (hsame : SameControl w.net mid.net) :
    doPhase env .submit mid = (mid.setDisconnects (submittedBy env w),
      (submitAll env.submit 0 w.net.res.runningSwitches.entries).2) := by
  simp only [doPhase, hsame.runningSwitches, hsame.asyncDisconnects, submittedBy]

/-- An aborted teardown leaves the lifecycle as it was, and the outstanding disconnects. -/
theorem doStop_aborts
    {env : StopEnv} {w w' : World} {exc : Raised} (h : doStop env w = (w', some exc)) :
    w'.net.life = w.net.life ∧ w'.net.res.asyncDisconnects = outstanding env w := by
  rw [doStop, stopPhases, runPhases] at h
  have hreleases : StopPhase.reap.releases = true := rfl
  have hsame := sameControl_doPhase hreleases env w
  have habort := reap_abort env w
  rcases hreap : doPhase env .reap w with ⟨mid, _ | exc'⟩
  · rw [hreap] at h hsame habort
    have hreaped : (sweep env.reap 0 w.net.res.spawnedProcesses).2 = none := habort.symm
    simp only [runPhases] at h
    rcases hsubmit : submitAll env.submit 0 w.net.res.runningSwitches.entries with
      ⟨disconnects, _ | exc'⟩
    · rw [doPhase_submit hsame, hsubmit] at h
      obtain ⟨hlife, hleft⟩ := wait_aborts h
      refine ⟨hlife.trans hsame.life, ?_⟩
      rw [hleft, outstanding, hreaped, hsubmit]
      rfl
    · rw [doPhase_submit hsame, hsubmit] at h
      obtain ⟨rfl, -⟩ := Prod.mk.inj h
      refine ⟨hsame.life, ?_⟩
      simp [outstanding, hreaped, hsubmit, World.setDisconnects, StopPhase.finish]
  · rw [hreap] at h hsame habort
    have hreaped : (sweep env.reap 0 w.net.res.spawnedProcesses).2 = some exc' := habort.symm
    obtain ⟨rfl, -⟩ := Prod.mk.inj h
    refine ⟨hsame.life, ?_⟩
    rw [hsame.asyncDisconnects]
    simp [outstanding, hreaped]

/-! ### The later call -/

/-- The network runs, and nobody starts it or shuts it down. -/
structure Up (life : Lifecycle) : Prop where
  running : life.running = true
  startFuture : life.startFuture = none
  startThread : life.startThread = none
  stopThread : life.stopThread = none

/-- A `stop` would initiate a teardown. -/
def Initiates (net : Net) : Prop :=
  (stopSection (!net.res.asyncDisconnects.isEmpty) net.life).1 = true

/-- The section of a `stop` that initiates a teardown makes a new future for it. -/
theorem stopSection_of_initiates
    {net : Net} (h : Initiates net) :
    stopSection (!net.res.asyncDisconnects.isEmpty) net.life =
      (true, net.life.nextFuture,
        { net.life with
          stopFuture := some net.life.nextFuture
          nextFuture := net.life.nextFuture + 1 }) := by
  unfold Initiates at h
  unfold stopSection at h ⊢
  cases hstop : net.life.stopFuture with
  | none => rfl
  | some f =>
      simp only [hstop] at h ⊢
      split_ifs at h ⊢
      rfl

/-- A `stop` tears everything down that is still recorded, and admits a new startup. -/
def FinishesShutdown (t : ThreadId) (env : StopEnv) (w : World) : Prop :=
  ∃ w', stop t env w = some (w', none) ∧ ShutDown w'.net ∧ AdmitsStart w'.net ∧
    w'.events = w.events ++ (releaseItems w).map .released

/-- The lifecycle after the teardown of a `stop` has been aborted. -/
structure Aborted (f : Fut) (exc : Raised) (life : Lifecycle) : Prop where
  running : life.running = true
  startFuture : life.startFuture = none
  startThread : life.startThread = none
  stopFuture : life.stopFuture = some f
  stopThread : life.stopThread = none
  result : life.result f = some (some exc)

theorem doStop_startThread
    (env : StopEnv) (w : World) :
    (doStop env w).1.net.life.startThread = w.net.life.startThread := by
  have hphase : ∀ (phase : StopPhase) (w : World),
      (doPhase env phase w).1.net.life.startThread = w.net.life.startThread := by
    intro phase w
    by_cases hreleases : phase.releases = true
    · rw [(sameControl_doPhase hreleases env w).life]
    · cases phase with
      | submit => rfl
      | facades => rfl
      | wait =>
          simp only [doPhase]
          rcases waitAll env.wait 0 w.net.res.asyncDisconnects with ⟨pending, _ | exc⟩ <;> rfl
      | _ => exact absurd rfl hreleases
  have hrun : ∀ (phases : List StopPhase) (w : World),
      (runPhases env phases w).1.net.life.startThread = w.net.life.startThread := by
    intro phases
    induction phases with
    | nil => exact fun _ => rfl
    | cons phase rest ih =>
        intro w
        have hfirst := hphase phase w
        rw [runPhases]
        rcases hp : doPhase env phase w with ⟨mid, _ | exc⟩
        · rw [hp] at hfirst
          exact (ih mid).trans hfirst
        · rw [hp] at hfirst
          exact hfirst
  exact hrun stopPhases w

/-- A `stop` that initiates the teardown, while no startup is pending. -/
theorem stop_of_initiates
    {t : ThreadId} {env : StopEnv} {w w' : World} {f : Fut} {life : Lifecycle}
    {abort : Option Raised}
    (hsection : stopSection (!w.net.res.asyncDisconnects.isEmpty) w.net.life = (true, f, life))
    (hstart : life.startFuture = none) (hthread : life.startThread = none)
    (hrun : doStop env (w.setLife { life with stopThread := some t }) = (w', abort)) :
    stop t env w =
      some (w'.setLife { w'.net.life.complete f abort with stopThread := none }, abort) := by
  have hfinish : finishStop t f env (w.setLife life) =
      some (w'.setLife { w'.net.life.complete f abort with stopThread := none }) := by
    have hfree : (w.setLife life).net.life.startFuture = none := hstart
    have hrun' : doStop env ((w.setLife life).setLife
        { (w.setLife life).net.life with stopThread := some t }) = (w', abort) := hrun
    rw [finishStop, if_neg (by simp [hfree]), hrun']
  have hthread' : w'.net.life.startThread = none := by
    have hsame := doStop_startThread env (w.setLife { life with stopThread := some t })
    rw [hrun] at hsame
    exact hsame.trans hthread
  simp only [stop, hsection, if_true, hfinish]
  simp [World.setLife, Lifecycle.complete, hthread']

/-- A `stop` that raises has aborted its teardown. -/
theorem stop_aborts
    {t : ThreadId} {env : StopEnv} {w w' : World} {exc : Raised} (hup : Up w.net.life)
    (hinitiates : Initiates w.net) (h : stop t env w = some (w', some exc)) :
    ∃ f, Aborted f exc w'.net.life ∧ w'.net.res.asyncDisconnects = outstanding env w := by
  let life : Lifecycle :=
    { w.net.life with
      stopFuture := some w.net.life.nextFuture
      nextFuture := w.net.life.nextFuture + 1 }
  have hsection : stopSection (!w.net.res.asyncDisconnects.isEmpty) w.net.life =
      (true, w.net.life.nextFuture, life) := stopSection_of_initiates hinitiates
  rcases hrun : doStop env (w.setLife { life with stopThread := some t }) with ⟨mid, abort⟩
  rw [stop_of_initiates hsection hup.startFuture hup.startThread hrun] at h
  obtain ⟨rfl, rfl⟩ := Prod.mk.inj (Option.some.inj h)
  obtain ⟨hlife, hleft⟩ := doStop_aborts hrun
  refine ⟨w.net.life.nextFuture, ?_, hleft⟩
  have hmid : mid.net.life = { life with stopThread := some t } := hlife
  constructor <;> simp [World.setLife, Lifecycle.complete, hmid, life, hup.running,
    hup.startFuture, hup.startThread]

/--
After an aborted teardown, a later `stop` finishes the shutdown if and only if the
teardown has left a disconnect outstanding.
-/
theorem retry_iff_outstanding
    (t t' : ThreadId) (env env' : StopEnv) (w aborted : World) (exc : Raised)
    (hup : Up w.net.life) (hinitiates : Initiates w.net)
    (hstop : stop t env w = some (aborted, some exc)) (hcompletes : env'.Completes) :
    FinishesShutdown t' env' aborted ↔ outstanding env w ≠ [] := by
  obtain ⟨f, hlife, hleft⟩ := stop_aborts hup hinitiates hstop
  have hdone : aborted.net.life.isDone f = true := by simp [Lifecycle.isDone, hlife.result]
  rw [← hleft]
  constructor
  · rintro ⟨w', hretry, hdown, -, -⟩ hnone
    have hsection : stopSection (!aborted.net.res.asyncDisconnects.isEmpty) aborted.net.life =
        (false, f, aborted.net.life) := by
      simp [stopSection, hlife.stopFuture, hnone]
    -- The call finds the future of the aborted teardown and raises its exception.
    have hraises : stop t' env' aborted = some (aborted, some exc) := by
      have hsame : aborted.setLife aborted.net.life = aborted := rfl
      simp [stop, hsection, hsame, hlife.stopThread, hlife.startThread, hlife.result]
    rw [hraises] at hretry
    obtain ⟨-, hexc⟩ := Prod.mk.inj (Option.some.inj hretry)
    cases hexc
  · intro hsome
    let life : Lifecycle :=
      { aborted.net.life with
        stopFuture := some aborted.net.life.nextFuture
        nextFuture := aborted.net.life.nextFuture + 1 }
    have hinitiates' : Initiates aborted.net := by
      simp [Initiates, stopSection, hlife.stopFuture, hdone, hsome]
    have hsection : stopSection (!aborted.net.res.asyncDisconnects.isEmpty) aborted.net.life =
        (true, aborted.net.life.nextFuture, life) := stopSection_of_initiates hinitiates'
    obtain ⟨w', hrun, hdown, hlife', hevents⟩ :=
      doStop_completes hcompletes (aborted.setLife { life with stopThread := some t' })
    refine ⟨_, stop_of_initiates hsection hlife.startFuture hlife.startThread hrun,
      ⟨hdown.empty, hdown.spawned, hdown.registered, hdown.running⟩, ?_, hevents⟩
    intro t'' background
    have hstart : w'.net.life.startFuture = none := by
      rw [hlife']
      exact hlife.startFuture
    have hstopFuture : w'.net.life.stopFuture = some aborted.net.life.nextFuture := by
      rw [hlife']
      rfl
    let final : Lifecycle :=
      { w'.net.life.complete aborted.net.life.nextFuture none with stopThread := none }
    have hpending : final.stopPending = false := by
      simp [final, Lifecycle.stopPending, Lifecycle.isDone, Lifecycle.complete, hstopFuture]
    have hrunning : final.running = false := hdown.running
    exact ⟨_, _, prepareStart_eq_ok hrunning hstart hpending t'' background⟩

/-- A topology of one switch. -/
def oneSwitch : Topology where
  switches := OrderedDict.ofList [("s1", { name := "s1", p4Src := "l2.p4" })]

/-- The network of `oneSwitch` after its startup. -/
def startedSwitch : World := (start 0 (fun _ => none) {} oneSwitch {} {}).1

/-- A disconnect that timed out, before the release of a client was interrupted. -/
def timedOutThenAborted : StopEnv where
  submit := fun _ => .submitted ⟨"s1", 0, 0⟩
  wait := fun _ => .timedOut
  client := fun _ => .aborts (.primitive 2)

theorem startedSwitch_up : Up startedSwitch.net.life :=
  ⟨rfl, rfl, rfl, rfl⟩

theorem nothing_aborts : StopEnv.Completes {} := by
  constructor <;> simp

/-- After a disconnect has timed out, the call at exit finishes the shutdown. -/
theorem retry_iff_outstanding_timed_out :
    ∃ aborted, stop 0 timedOutThenAborted startedSwitch = some (aborted, some (.primitive 2)) ∧
      FinishesShutdown 0 {} aborted := by
  refine ⟨_, rfl, ?_⟩
  refine (retry_iff_outstanding 0 0 timedOutThenAborted {} startedSwitch _ (.primitive 2)
    startedSwitch_up rfl rfl nothing_aborts).mpr ?_
  decide

/--
An interrupt that is delivered while the client is released stays in the future of the
shutdown: the call at exit raises it again, and the network keeps running.
-/
theorem aborted_stop_stays_running :
    ∃ aborted,
      Up startedSwitch.net.life ∧ Initiates startedSwitch.net ∧
      stop 0 { client := fun _ => .aborts (.primitive 2) } startedSwitch =
        some (aborted, some (.primitive 2)) ∧
      ¬ FinishesShutdown 0 {} aborted ∧
      stop 0 {} aborted = some (aborted, some (.primitive 2)) ∧
      aborted.net.life.running = true ∧
      aborted.net.res.bmv2Switches.keys = ["s1"] ∧
      ∀ t background, prepareStart t background aborted.net.life = .error .alreadyRunning := by
  refine ⟨_, startedSwitch_up, rfl, rfl, ?_, rfl, rfl, rfl, fun _ _ => rfl⟩
  rintro ⟨w', hstop, -, -, -⟩
  obtain ⟨-, hexc⟩ := Prod.mk.inj (Option.some.inj hstop)
  cases hexc

end Network
end P4Net
