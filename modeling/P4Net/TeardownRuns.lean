import P4Net.NetworkTeardown

/-!
# Runs of `_do_stop`

* `doStop_completes` : a teardown that is not aborted tries to release everything, in the
  order of `releaseItems`, and leaves nothing recorded, whatever `Exception`s are raised.
-/

namespace P4Net
namespace Network

/-! ### Phases that end -/

/-- Nothing aborts the teardown. -/
structure StopEnv.Completes (env : StopEnv) : Prop where
  reap : ∀ i exc, env.reap i ≠ .aborts exc
  submit : ∀ i exc, env.submit i ≠ .aborts exc
  wait : ∀ i exc, env.wait i ≠ .aborts exc
  client : ∀ i exc, env.client i ≠ .aborts exc
  bmv2 : ∀ i exc, env.bmv2 i ≠ .aborts exc
  veth : ∀ i exc, env.veth i ≠ .aborts exc
  netns : ∀ i exc, env.netns i ≠ .aborts exc
  unregister : ∀ exc, env.unregister ≠ .aborts exc

theorem sweep_completes
    {α : Type} {outcome : Nat → Outcome} (h : ∀ i exc, outcome i ≠ .aborts exc)
    (i : Nat) (items : List α) :
    sweep outcome i items = (items, none) := by
  induction items generalizing i with
  | nil => rfl
  | cons item rest ih =>
      cases hi : outcome i with
      | aborts exc => exact absurd hi (h i exc)
      | ok => simp [sweep, hi, ih]
      | exception => simp [sweep, hi, ih]

theorem submitAll_completes
    {α : Type} {outcome : Nat → SubmitOutcome} (h : ∀ i exc, outcome i ≠ .aborts exc)
    (i : Nat) (items : List α) :
    (submitAll outcome i items).2 = none := by
  induction items generalizing i with
  | nil => rfl
  | cons item rest ih =>
      cases hi : outcome i with
      | aborts exc => exact absurd hi (h i exc)
      | noClient => simp [submitAll, hi, ih]
      | failed => simp [submitAll, hi, ih]
      | submitted disconnect => simp [submitAll, hi, ih]

theorem waitAll_completes
    {outcome : Nat → WaitOutcome} (h : ∀ i exc, outcome i ≠ .aborts exc)
    (i : Nat) (disconnects : List Disconnect) :
    (waitAll outcome i disconnects).2 = none := by
  induction disconnects generalizing i with
  | nil => rfl
  | cons disconnect rest ih =>
      cases hi : outcome i with
      | aborts exc => exact absurd hi (h i exc)
      | completed => simp [waitAll, hi, ih]
      | failed => simp [waitAll, hi, ih]
      | timedOut => simp [waitAll, hi, ih]
      | onCurrentLoop => simp [waitAll, hi, ih]

/-- The namespaces that exist are released, also when the removal of some of them fails. -/
theorem destroyAll_completes
    {outcome : Nat → Outcome} (h : ∀ i exc, outcome i ≠ .aborts exc)
    (i : Nat) {names : List String} (hnodup : names.Nodup) (w : World) :
    ∃ kernel, destroyAll outcome i names w =
      ({ w with
          kernel := kernel
          events := w.events ++
            (names.filter (· ∈ w.kernel)).map fun name => .released (.netns name) }, none) := by
  induction names generalizing i w with
  | nil => exact ⟨w.kernel, by simp [destroyAll]⟩
  | cons name rest ih =>
      rw [List.nodup_cons] at hnodup
      by_cases hmem : name ∈ w.kernel
      · have hrest : rest.filter (· ∈ w.kernel.erase name) = rest.filter (· ∈ w.kernel) := by
          refine List.filter_congr fun other hother => ?_
          have hne : other ≠ name := by
            rintro rfl
            exact hnodup.1 hother
          simp [List.mem_erase_of_ne hne]
        cases hi : outcome i with
        | aborts exc => exact absurd hi (h i exc)
        | ok =>
            obtain ⟨kernel, hdestroy⟩ := ih (i + 1) hnodup.2
              { w with
                kernel := w.kernel.erase name
                events := w.events ++ [.released (.netns name)] }
            exact ⟨kernel, by simp [destroyAll, hmem, hi, hdestroy, hrest]⟩
        | exception =>
            obtain ⟨kernel, hdestroy⟩ := ih (i + 1) hnodup.2
              { w with events := w.events ++ [.released (.netns name)] }
            exact ⟨kernel, by simp [destroyAll, hmem, hi, hdestroy]⟩
      · obtain ⟨kernel, hdestroy⟩ := ih (i + 1) hnodup.2 w
        exact ⟨kernel, by simp [destroyAll, hmem, hdestroy]⟩

/-- What a phase comes to. -/
def StopPhase.items (w : World) : StopPhase → List Resource
  | .reap => w.net.res.spawnedProcesses.map .process
  | .clients => w.net.res.clients.values.map .client
  | .bmv2 => w.net.res.bmv2Switches.values.map .bmv2
  | .veths => w.net.res.vethPairs.map .veth
  | .namespaces => (w.net.res.namespaces.keys.filter (· ∈ w.kernel)).map .netns
  | _ => []

/-- A phase that ends has released its items and emptied its collection. -/
structure PhaseDone (phase : StopPhase) (w w' : World) : Prop where
  net : ∃ left, w'.net = phase.finish left w.net
  kernel : phase ≠ .namespaces → w'.kernel = w.kernel
  events : w'.events = w.events ++ (phase.items w).map .released

theorem releasePhase_completes
    {outcome : Nat → Outcome} (h : ∀ i exc, outcome i ≠ .aborts exc)
    (items : List Resource) (phase : StopPhase) (w : World) :
    releasePhase outcome items phase w =
      ({ w with
          net := phase.finish [] w.net
          events := w.events ++ items.map .released }, none) := by
  simp [releasePhase, sweep_completes h]

theorem doPhase_completes
    {env : StopEnv} (h : env.Completes) (phase : StopPhase) (w : World) :
    ∃ w', doPhase env phase w = (w', none) ∧ PhaseDone phase w w' := by
  cases phase with
  | reap => exact ⟨_, releasePhase_completes h.reap _ _ _, ⟨[], rfl⟩, fun _ => rfl, rfl⟩
  | clients => exact ⟨_, releasePhase_completes h.client _ _ _, ⟨[], rfl⟩, fun _ => rfl, rfl⟩
  | bmv2 => exact ⟨_, releasePhase_completes h.bmv2 _ _ _, ⟨[], rfl⟩, fun _ => rfl, rfl⟩
  | veths => exact ⟨_, releasePhase_completes h.veth _ _ _, ⟨[], rfl⟩, fun _ => rfl, rfl⟩
  | submit =>
      have hnone := submitAll_completes h.submit 0 w.net.res.runningSwitches.entries
      refine ⟨_, Prod.ext rfl hnone, ⟨_, rfl⟩, fun _ => rfl, ?_⟩
      simp [doPhase, World.setDisconnects, StopPhase.items]
  | wait =>
      have hnone := waitAll_completes h.wait 0 w.net.res.asyncDisconnects
      rcases hwait : waitAll env.wait 0 w.net.res.asyncDisconnects with ⟨pending, abort⟩
      rw [hwait] at hnone
      obtain rfl : abort = none := hnone
      refine ⟨w.setDisconnects pending, by simp [doPhase, hwait], ⟨pending, rfl⟩,
        fun _ => rfl, ?_⟩
      simp [World.setDisconnects, StopPhase.items]
  | namespaces =>
      obtain ⟨kernel, hdestroy⟩ := destroyAll_completes h.netns 0 w.net.res.namespaces.nodup w
      refine ⟨{ w with
          net := StopPhase.namespaces.finish [] w.net
          kernel := kernel
          events := w.events ++ (StopPhase.namespaces.items w).map .released },
        ?_, ⟨[], rfl⟩, fun hne => absurd rfl hne, rfl⟩
      simp only [doPhase, OrderedDict.keys, hdestroy]
      simp [StopPhase.items, OrderedDict.keys, Function.comp_def]
  | unregister =>
      cases hreg : w.net.res.registered with
      | false =>
          refine ⟨w, by simp [doPhase, hreg], ⟨[], ?_⟩, fun _ => rfl, by simp [StopPhase.items]⟩
          simp [StopPhase.finish, ← hreg]
      | true =>
          cases hun : env.unregister with
          | aborts exc => exact absurd hun (h.unregister exc)
          | ok =>
              exact ⟨{ w with net := StopPhase.unregister.finish [] w.net },
                by simp only [doPhase, hreg, hun], ⟨[], rfl⟩, fun _ => rfl,
                by simp [StopPhase.items]⟩
          | exception =>
              exact ⟨{ w with net := StopPhase.unregister.finish [] w.net },
                by simp only [doPhase, hreg, hun], ⟨[], rfl⟩, fun _ => rfl,
                by simp [StopPhase.items]⟩
  | facades => exact ⟨_, rfl, ⟨[], rfl⟩, fun _ => rfl, by simp [StopPhase.items]⟩

/-! ### What phases leave behind -/

/-- What a phase has emptied. -/
def StopPhase.Cleared (net : Net) : StopPhase → Prop
  | .reap => net.res.spawnedProcesses = []
  | .submit => True
  | .wait => True
  | .clients => net.res.clients = OrderedDict.empty
  | .bmv2 => net.res.bmv2Switches = OrderedDict.empty
  | .veths => net.res.vethPairs = []
  | .namespaces => net.res.namespaces = OrderedDict.empty
  | .unregister => net.res.registered = false
  | .facades => net.life.running = false ∧ net.res.runningHosts = OrderedDict.empty ∧
      net.res.runningSwitches = OrderedDict.empty ∧ net.res.compileResults = OrderedDict.empty ∧
      net.res.hostIfaceIp = OrderedDict.empty ∧ net.res.hostIfaceIp6 = OrderedDict.empty

theorem cleared_finish_self
    (phase : StopPhase) (left : List Disconnect) (net : Net) :
    phase.Cleared (phase.finish left net) := by
  cases phase <;> simp [StopPhase.Cleared, StopPhase.finish]

/-- What has been emptied stays empty in later phases. -/
theorem cleared_finish
    {phase : StopPhase} {net : Net} (h : phase.Cleared net) (other : StopPhase)
    (left : List Disconnect) :
    phase.Cleared (other.finish left net) := by
  cases other <;> cases phase <;> first | exact h | simp [StopPhase.Cleared, StopPhase.finish]

/-- A phase changes nothing of the lifecycle but `_running`. -/
theorem finish_life
    (phase : StopPhase) (left : List Disconnect) (net : Net) :
    (phase.finish left net).life =
      { net.life with running := (phase.finish left net).life.running } := by
  cases phase <;> rfl

/-- The items of a phase are not touched by another one. -/
theorem items_of_phaseDone
    {phase other : StopPhase} {w w' : World} (hne : other ≠ phase)
    (h : PhaseDone phase w w') :
    other.items w' = other.items w := by
  obtain ⟨left, hnet⟩ := h.net
  cases other <;> cases phase <;>
    first
    | exact absurd rfl hne
    | simp [StopPhase.items, hnet, StopPhase.finish, h.kernel]

/-- Phases that all end. -/
structure PhasesDone (phases : List StopPhase) (w w' : World) : Prop where
  cleared : ∀ phase ∈ phases, phase.Cleared w'.net
  kept : ∀ phase : StopPhase, phase.Cleared w.net → phase.Cleared w'.net
  life : w'.net.life = { w.net.life with running := w'.net.life.running }
  events : w'.events = w.events ++ (phases.flatMap fun phase => phase.items w).map .released

theorem runPhases_completes
    {env : StopEnv} (h : env.Completes) (phases : List StopPhase) (hnodup : phases.Nodup)
    (w : World) :
    ∃ w', runPhases env phases w = (w', none) ∧ PhasesDone phases w w' := by
  induction phases generalizing w with
  | nil => exact ⟨w, rfl, by simp, fun _ hp => hp, rfl, by simp⟩
  | cons phase rest ih =>
      rw [List.nodup_cons] at hnodup
      obtain ⟨mid, hphase, hdone⟩ := doPhase_completes h phase w
      obtain ⟨w', hrest, hrestDone⟩ := ih hnodup.2 mid
      obtain ⟨left, hnet⟩ := hdone.net
      refine ⟨w', by simp [runPhases, hphase, hrest], ?_, ?_, ?_, ?_⟩
      · intro p hp
        rcases List.mem_cons.mp hp with rfl | hp
        · exact hrestDone.kept p (hnet ▸ cleared_finish_self p left w.net)
        · exact hrestDone.cleared p hp
      · intro p hp
        exact hrestDone.kept p (hnet ▸ cleared_finish hp phase left)
      · rw [hrestDone.life, hnet, finish_life phase left w.net]
      · have hitems : (rest.flatMap fun p => p.items mid) = rest.flatMap fun p => p.items w := by
          refine List.flatMap_congr fun p hp => items_of_phaseDone ?_ hdone
          rintro rfl
          exact hnodup.1 hp
        rw [hrestDone.events, hitems, hdone.events, List.flatMap_cons, List.map_append,
          List.append_assoc]

/-- What a teardown comes to, in its order. -/
def releaseItems (w : World) : List Resource :=
  w.net.res.spawnedProcesses.map .process ++ w.net.res.clients.values.map .client ++
    w.net.res.bmv2Switches.values.map .bmv2 ++ w.net.res.vethPairs.map .veth ++
    (w.net.res.namespaces.keys.filter (· ∈ w.kernel)).map .netns

/-- Nothing is recorded, and the network is neither registered nor running. -/
structure ShutDown (net : Net) : Prop where
  empty : net.res.Empty
  spawned : net.res.spawnedProcesses = []
  registered : net.res.registered = false
  running : net.life.running = false

/-- A teardown that nothing aborts releases everything and leaves nothing. -/
theorem doStop_completes
    {env : StopEnv} (h : env.Completes) (w : World) :
    ∃ w', doStop env w = (w', none) ∧ ShutDown w'.net ∧
      w'.net.life = { w.net.life with running := false } ∧
      w'.events = w.events ++ (releaseItems w).map .released := by
  obtain ⟨w', hrun, hdone⟩ := runPhases_completes h stopPhases (by decide) w
  have hcleared : ∀ phase : StopPhase, phase.Cleared w'.net := by
    intro phase
    refine hdone.cleared phase ?_
    cases phase <;> decide
  obtain ⟨hrunning, hhosts, hswitches, hcompiled, hip, hip6⟩ := hcleared .facades
  refine ⟨w', hrun, ⟨⟨hcleared .namespaces, hcleared .veths, hcompiled, hcleared .bmv2,
    hcleared .clients, hhosts, hswitches, hip, hip6⟩, hcleared .reap, hcleared .unregister,
    hrunning⟩, ?_, ?_⟩
  · rw [hdone.life, hrunning]
  · rw [hdone.events]
    simp [stopPhases, StopPhase.items, releaseItems]

end Network
end P4Net
