import P4Net.StartupAcquires
import P4Net.TeardownRuns

/-!
# A startup that fails

Wherever a statement of `_do_start` raises, `start` raises the same exception after it
has released what it has acquired, and the network can be started again.

* `doStart_started` : what has been created is what is recorded, at every failure.
* `releaseOrder` : the order in which the rollback releases it.
* `start_rollsBack` : the result.
-/

namespace P4Net
namespace Network

/-! ### What a failed startup has done -/

/-- From `w` on, `acquired` has been created and recorded, and nothing else. -/
structure StartedWith (acquired : List Resource) (w w' : World) : Prop where
  held : w'.net.res.toHeld = acquired.foldl Held.record w.net.res.toHeld
  events : w'.events = w.events ++ acquired.map .created
  kernel : ∀ name ∈ w.kernel, name ∈ w'.kernel
  netns : ∀ name, .netns name ∈ acquired → name ∈ w'.kernel
  life : w'.net.life = w.net.life

theorem StartedWith.refl
    (w : World) :
    StartedWith [] w w :=
  ⟨rfl, by simp, fun _ h => h, by simp, rfl⟩

theorem StartedWith.trans
    {acquired acquired' : List Resource} {w mid w' : World}
    (h : StartedWith acquired w mid) (h' : StartedWith acquired' mid w') :
    StartedWith (acquired ++ acquired') w w' where
  held := by rw [h'.held, h.held, List.foldl_append]
  events := by rw [h'.events, h.events, List.map_append, List.append_assoc]
  kernel := fun name hname => h'.kernel name (h.kernel name hname)
  netns := by
    intro name hname
    rcases List.mem_append.mp hname with hname | hname
    · exact h'.kernel name (h.netns name hname)
    · exact h'.netns name hname
  life := h'.life.trans h.life

theorem runOp_neutral
    {outcome : Option Raised} {op : StartOp} {w w' : World} (hop : op.neutral = true)
    (h : runOp outcome op w = .ok w') :
    StartedWith [] w w' := by
  have hrun : ∃ res, op.run outcome w.net.res = .ok res ∧
      w' = { w with net := { w.net with res := res } } := by
    cases op with
    | create resource => cases hop
    | _ =>
        simp only [runOp] at h
        split at h
        · cases h
        · exact ⟨_, by assumption, (Except.ok.inj h).symm⟩
  obtain ⟨res, hres, rfl⟩ := hrun
  have hexec : op.exec w.net.res = .ok res := by
    unfold StartOp.run at hres
    split at hres
    · split_ifs at hres
      exact hres
    · exact hres
  exact ⟨exec_held hop hexec, by simp, fun _ hname => hname, by simp, rfl⟩

/-- A resource that has been created is recorded by the next statement. -/
theorem runOp_acquire
    {outcome : Option Raised} {resource : Resource} {w mid : World}
    (h : runOp outcome (.create resource) w = .ok mid) (outcome' : Option Raised) :
    ∃ w', runOp outcome' (.record resource) mid = .ok w' ∧ StartedWith [resource] w w' := by
  have hrecord : ∀ mid : World, runOp outcome' (.record resource) mid =
      .ok { mid with net := { mid.net with
        res := { mid.net.res with toHeld := mid.net.res.toHeld.record resource } } } := by
    intro mid
    cases outcome' <;> rfl
  refine ⟨_, hrecord mid, ?_⟩
  cases resource with
  | netns name =>
      simp only [runOp] at h
      split_ifs at h
      cases outcome with
      | some exc => cases h
      | none =>
          cases h
          refine ⟨rfl, rfl, fun _ hname => List.mem_cons_of_mem _ hname, ?_, rfl⟩
          intro other hother
          obtain rfl := Resource.netns.inj (List.mem_singleton.mp hother)
          exact List.mem_cons_self
  | _ =>
      cases outcome with
      | some exc => cases h
      | none =>
          cases h
          exact ⟨rfl, rfl, fun _ hname => hname, by simp, rfl⟩

/-- A program that raises somewhere has acquired the first of its resources. -/
theorem Acquires.runOps_started
    {ops : List StartOp} {acquired : List Resource} (h : Acquires StartOp.neutral ops acquired)
    {env : Nat → Option Raised} {i : Nat} {w w' : World} {raised : Option Raised}
    (hrun : runOps env i ops w = (w', raised)) :
    ∃ first, first <+: acquired ∧ (raised = none → first = acquired) ∧
      StartedWith first w w' := by
  induction h generalizing i w with
  | nil =>
      obtain ⟨rfl, -⟩ := Prod.mk.inj hrun
      exact ⟨[], List.nil_prefix, fun _ => rfl, .refl w⟩
  | @other op ops acquired hop _ ih =>
      rw [runOps] at hrun
      cases hfirst : runOp (env i) op w with
      | error exc =>
          simp only [hfirst, Prod.mk.injEq] at hrun
          obtain ⟨rfl, rfl⟩ := hrun
          exact ⟨[], List.nil_prefix, nofun, .refl w⟩
      | ok mid =>
          simp only [hfirst] at hrun
          obtain ⟨first, hinitial, hall, hstarted⟩ := ih hrun
          exact ⟨first, hinitial, hall, (runOp_neutral hop hfirst).trans hstarted⟩
  | @acquire resource ops acquired _ ih =>
      rw [runOps] at hrun
      cases hfirst : runOp (env i) (.create resource) w with
      | error exc =>
          simp only [hfirst, Prod.mk.injEq] at hrun
          obtain ⟨rfl, rfl⟩ := hrun
          exact ⟨[], List.nil_prefix, nofun, .refl w⟩
      | ok mid =>
          obtain ⟨mid', hrecord, hacquired⟩ := runOp_acquire hfirst (env (i + 1))
          simp only [hfirst, runOps, hrecord] at hrun
          obtain ⟨first, hinitial, hall, hstarted⟩ := ih hrun
          refine ⟨resource :: first, (List.prefix_cons_inj resource).mpr hinitial, ?_,
            hacquired.trans hstarted⟩
          exact fun hnone => congrArg (List.cons resource) (hall hnone)

/-- At every failure of `_do_start` exactly what has been created is recorded. -/
theorem doStart_started
    {env : Nat → Option Raised} {topology : Topology} {options : Options} {w w' : World}
    {raised : Option Raised} (h : doStart env topology options w = (w', raised)) :
    ∃ acquired, Recordable acquired ∧ StartedWith acquired w w' := by
  unfold doStart at h
  rcases hfirst : runOps env 0 (startOps1 topology options) w with ⟨mid, abort⟩
  have hacquires := (acquires_startOps1 topology options).mono neutral_of_configures
  obtain ⟨first, hinitial, hall, hstarted⟩ := hacquires.runOps_started hfirst
  have hkeys := recordable_startup topology options mid.net.res.bmv2Switches.nodup
  cases abort with
  | some exc =>
      simp only [hfirst, Prod.mk.injEq] at h
      obtain ⟨rfl, -⟩ := h
      refine ⟨first, hkeys.sublist (hinitial.sublist.trans ?_), hstarted⟩
      exact List.sublist_append_left _ _
  | none =>
      simp only [hfirst] at h
      obtain rfl := hall rfl
      obtain ⟨second, hinitial', -, hstarted'⟩ :=
        (acquires_startOps2 topology mid.net.res.bmv2Switches.entries).runOps_started h
      exact ⟨_, hkeys.sublist (hinitial'.sublist.append_left _), hstarted.trans hstarted'⟩

theorem runOp_setLife
    (life : Lifecycle) (outcome : Option Raised) (op : StartOp) (w : World) :
    runOp outcome op (w.setLife life) = (runOp outcome op w).map (World.setLife life) := by
  unfold runOp
  split
  case h_1 name =>
    have hkernel : (w.setLife life).kernel = w.kernel := rfl
    rw [hkernel]
    split_ifs
    · rfl
    · cases outcome <;> rfl
  case h_2 => cases outcome <;> rfl
  case h_3 =>
    have hres : (w.setLife life).net.res = w.net.res := rfl
    rw [hres]
    cases StartOp.run outcome w.net.res op <;> rfl

theorem runOps_setLife
    (life : Lifecycle) (env : Nat → Option Raised) (i : Nat) (ops : List StartOp) (w : World) :
    runOps env i ops (w.setLife life) =
      ((runOps env i ops w).1.setLife life, (runOps env i ops w).2) := by
  induction ops generalizing i w with
  | nil => rfl
  | cons op rest ih =>
      rw [runOps, runOps, runOp_setLife]
      cases runOp (env i) op w with
      | error exc => rfl
      | ok w' => exact ih _ _

/-- `_do_start` neither reads nor writes the lifecycle. -/
theorem doStart_setLife
    (life : Lifecycle) (env : Nat → Option Raised) (topology : Topology) (options : Options)
    (w : World) :
    doStart env topology options (w.setLife life) =
      ((doStart env topology options w).1.setLife life,
        (doStart env topology options w).2) := by
  unfold doStart
  rw [runOps_setLife]
  rcases runOps env 0 (startOps1 topology options) w with ⟨w', _ | exc⟩
  · exact runOps_setLife _ _ _ _ _
  · rfl

/-! ### The order of release -/

/-- Processes, clients, BMv2 processes, veth pairs and namespaces, each in order. -/
def releaseOrder (acquired : List Resource) : List Resource :=
  (List.range 5).flatMap fun rank => acquired.filter fun resource => resource.rank = rank

/-- Everything is released exactly once. -/
theorem releaseOrder_perm
    (acquired : List Resource) :
    (releaseOrder acquired).Perm acquired := by
  rw [List.perm_iff_count]
  intro resource
  have hrank : resource.rank < 5 := by cases resource <;> simp [Resource.rank]
  have hcount : ∀ rank,
      (acquired.filter fun resource => resource.rank = rank).count resource =
        if resource.rank = rank then acquired.count resource else 0 := by
    intro rank
    split_ifs with heq
    · exact List.count_filter (by simpa using heq)
    · refine List.count_eq_zero.mpr fun hmem => heq ?_
      simpa using (List.mem_filter.mp hmem).2
  rw [releaseOrder, List.count_flatMap]
  simp only [Function.comp_def, hcount]
  cases resource <;> simp [Resource.rank, List.range, List.range.loop]

theorem filter_rank_eq
    {β : Type} (select : Resource → Option β) (mk : β → Resource) (rank : Nat)
    (hmk : ∀ resource b, select resource = some b ↔ resource = mk b)
    (hrank : ∀ resource, resource.rank = rank ↔ (select resource).isSome = true)
    (acquired : List Resource) :
    (acquired.filter fun resource => resource.rank = rank) =
      (acquired.filterMap select).map mk := by
  induction acquired with
  | nil => rfl
  | cons resource rest ih =>
      cases hselect : select resource with
      | none =>
          have hne : resource.rank ≠ rank := by simp [hrank, hselect]
          rw [List.filterMap_cons_none hselect, List.filter_cons_of_neg (by simpa using hne), ih]
      | some b =>
          have heq : resource.rank = rank := by simp [hrank, hselect]
          rw [List.filterMap_cons_some hselect, List.filter_cons_of_pos (by simpa using heq), ih,
            List.map_cons, (hmk resource b).mp hselect]

theorem filter_rank_process
    (pids : List Nat) (rank : Nat) :
    ((pids.map Resource.process).filter fun resource => resource.rank = rank) =
      if rank = 0 then pids.map .process else [] := by
  split_ifs with hrank
  · subst hrank
    refine List.filter_eq_self.mpr fun resource hmem => ?_
    obtain ⟨pid, -, rfl⟩ := List.mem_map.mp hmem
    rfl
  · refine List.filter_eq_nil_iff.mpr fun resource hmem heq => ?_
    obtain ⟨pid, -, rfl⟩ := List.mem_map.mp hmem
    exact hrank (of_decide_eq_true heq).symm

/-- The order of release, by the selectors of each kind. -/
theorem releaseOrder_eq
    {acquired : List Resource} (h : Recordable acquired) (pids : List Nat) :
    releaseOrder (pids.map .process ++ acquired) =
      pids.map .process ++ (acquired.filterMap Resource.asClient).map .client ++
        (acquired.filterMap Resource.asBmv2).map .bmv2 ++
        (acquired.filterMap Resource.asVeth).map .veth ++
        (acquired.filterMap Resource.asNetns).map .netns := by
  have hnoProcess : (acquired.filter fun resource => resource.rank = 0) = [] := by
    refine List.filter_eq_nil_iff.mpr fun resource hmem hrank => ?_
    cases resource with
    | process pid => exact h.processes pid hmem
    | _ => simp [Resource.rank] at hrank
  have hclients := filter_rank_eq Resource.asClient .client 1
    (by rintro (_ | _ | _ | _ | _) b <;> simp [Resource.asClient])
    (by rintro (_ | _ | _ | _ | _) <;> simp [Resource.rank, Resource.asClient]) acquired
  have hbmv2 := filter_rank_eq Resource.asBmv2 .bmv2 2
    (by rintro (_ | _ | _ | _ | _) b <;> simp [Resource.asBmv2])
    (by rintro (_ | _ | _ | _ | _) <;> simp [Resource.rank, Resource.asBmv2]) acquired
  have hveths := filter_rank_eq Resource.asVeth .veth 3
    (by rintro (_ | _ | _ | _ | _) b <;> simp [Resource.asVeth])
    (by rintro (_ | _ | _ | _ | _) <;> simp [Resource.rank, Resource.asVeth]) acquired
  have hnetns := filter_rank_eq Resource.asNetns .netns 4
    (by rintro (_ | _ | _ | _ | _) b <;> simp [Resource.asNetns])
    (by rintro (_ | _ | _ | _ | _) <;> simp [Resource.rank, Resource.asNetns]) acquired
  simp [releaseOrder, List.range, List.range.loop, List.filter_append, filter_rank_process,
    hnoProcess, hclients, hbmv2, hveths, hnetns]

/-- A teardown of what has been created goes through it in the order of release. -/
theorem releaseItems_eq
    {w : World} {acquired : List Resource} (hkeys : Recordable acquired)
    (h : Holds w.net.res.toHeld acquired)
    (hkernel : ∀ name, .netns name ∈ acquired → name ∈ w.kernel) :
    releaseItems w =
      releaseOrder (w.net.res.spawnedProcesses.map .process ++ acquired) := by
  have hexist : w.net.res.namespaces.keys.filter (· ∈ w.kernel) =
      acquired.filterMap Resource.asNetns := by
    rw [OrderedDict.keys, h.netns, List.map_map, List.filter_eq_self.mpr]
    · exact List.map_id _
    · intro name hname
      obtain ⟨resource, hmem, hselect⟩ := List.mem_filterMap.mp (by simpa using hname)
      cases resource with
      | netns other =>
          obtain rfl := Option.some.inj hselect
          simpa using hkernel other hmem
      | _ => cases hselect
  have hclients : w.net.res.clients.values = acquired.filterMap Resource.asClient := by
    rw [OrderedDict.values, h.clients, List.map_map]
    exact List.map_id _
  have hbmv2 : w.net.res.bmv2Switches.values = acquired.filterMap Resource.asBmv2 := by
    rw [OrderedDict.values, h.bmv2, List.map_map]
    exact List.map_id _
  rw [releaseOrder_eq hkeys, releaseItems, hclients, hbmv2, h.veths, hexist]

/-! ### The result -/

/-- The network is not running, and neither starting nor shutting down. -/
structure AtRest (net : Net) : Prop where
  empty : net.res.Empty
  running : net.life.running = false
  startFuture : net.life.startFuture = none
  stopPending : net.life.stopPending = false

/-- A startup is admitted, whoever asks for it. -/
def AdmitsStart (net : Net) : Prop :=
  ∀ t background, ∃ f life, prepareStart t background net.life = .ok (f, life)

theorem prepareStart_eq_ok
    {life : Lifecycle} (hrunning : life.running = false) (hstart : life.startFuture = none)
    (hstop : life.stopPending = false) (t : ThreadId) (background : Bool) :
    prepareStart t background life =
      .ok (life.nextFuture,
        { life with
          stopFuture := none
          startThread := if background then none else some t
          startFuture := some life.nextFuture
          nextFuture := life.nextFuture + 1 }) := by
  simp [prepareStart, hrunning, hstart, hstop]

/-- What a failed `start` leaves behind, after `acquired` had been created. -/
structure RolledBack (acquired : List Resource) (w w' : World) : Prop where
  /-- Everything that was created, and every process, is released in order. -/
  events : w'.events = w.events ++ acquired.map .created ++
    (releaseOrder (w.net.res.spawnedProcesses.map .process ++ acquired)).map .released
  once : (releaseOrder (w.net.res.spawnedProcesses.map .process ++ acquired)).Perm
    (w.net.res.spawnedProcesses.map .process ++ acquired)
  shutDown : ShutDown w'.net
  startFuture : w'.net.life.startFuture = none
  admitted : AdmitsStart w'.net

/--
Wherever `_do_start` raises, `start` raises the same exception after it has released
exactly what had been created, whatever releases raise an `Exception`.
-/
theorem start_rollsBack
    (t : ThreadId) (env : Nat → Option Raised) (stopEnv : StopEnv) (topology : Topology)
    (options : Options) (w failed : World) (exc : Raised)
    (hrest : AtRest w.net) (hstop : stopEnv.Completes)
    (hfail : doStart env topology options w = (failed, some exc)) :
    ∃ acquired w', failed.events = w.events ++ acquired.map .created ∧
      start t env stopEnv topology options w = (w', some exc) ∧ RolledBack acquired w w' := by
  obtain ⟨acquired, hkeys, hstarted⟩ := doStart_started hfail
  let life : Lifecycle :=
    { w.net.life with
      stopFuture := none
      startThread := some t
      startFuture := some w.net.life.nextFuture
      nextFuture := w.net.life.nextFuture + 1 }
  have hprepare : prepareStart t false w.net.life = .ok (w.net.life.nextFuture, life) :=
    prepareStart_eq_ok hrest.running hrest.startFuture hrest.stopPending t false
  have hdoStart : doStart env topology options (w.setLife life) =
      (failed.setLife life, some exc) := by
    rw [doStart_setLife, hfail]
  obtain ⟨w', hdoStop, hdown, hlife, hevents⟩ := doStop_completes hstop (failed.setLife life)
  have hstart : start t env stopEnv topology options w =
      (w'.setLife (endStart w.net.life.nextFuture w'.net.life), some exc) := by
    have hrun : runStart t w.net.life.nextFuture env stopEnv topology options (w.setLife life) =
        rollBack stopEnv w.net.life.nextFuture exc (failed.setLife life) := by
      have henter : (w.setLife life).setLife (enterStart t (w.setLife life).net.life) =
          w.setLife life := rfl
      have hcheck : checkStart (w.setLife life).net.life = .ok () := rfl
      simp only [runStart, henter, hcheck, hdoStart]
    rw [start, hprepare]
    simp only [hrun, rollBack, hdoStop]
    rfl
  refine ⟨acquired, _, hstarted.events, hstart, ?_⟩
  have hheld := holds_foldl_record w.net.res.toHeld hkeys hrest.empty.clients
    hrest.empty.bmv2Switches hrest.empty.vethPairs hrest.empty.namespaces
  rw [← hstarted.held] at hheld
  have hspawned : failed.net.res.spawnedProcesses = w.net.res.spawnedProcesses := by
    rw [hstarted.held]
    exact spawned_foldl_record hkeys.processes _
  have hitems : releaseItems (failed.setLife life) =
      releaseOrder (w.net.res.spawnedProcesses.map .process ++ acquired) := by
    rw [← hspawned]
    exact releaseItems_eq (w := failed.setLife life) hkeys hheld hstarted.netns
  constructor
  case events =>
    have hfailed : (failed.setLife life).events = w.events ++ acquired.map .created :=
      hstarted.events
    rw [hitems, hfailed] at hevents
    exact hevents
  case once => exact releaseOrder_perm _
  case shutDown => exact ⟨hdown.empty, hdown.spawned, hdown.registered, hdown.running⟩
  case startFuture => rfl
  case admitted =>
    intro t' background
    have hstopFuture : w'.net.life.stopFuture = none := by
      rw [hlife]
      rfl
    have hpending : (endStart w.net.life.nextFuture w'.net.life).stopPending = false := by
      simp [Lifecycle.stopPending, endStart, Lifecycle.complete, hstopFuture]
    have hrunning : (endStart w.net.life.nextFuture w'.net.life).running = false := hdown.running
    have hadmit := prepareStart_eq_ok hrunning rfl hpending t' background
    exact ⟨_, _, hadmit⟩

/-- The second host's namespace exists already, and the first one's cannot be removed. -/
theorem start_rollsBack_existing_namespace :
    ∃ w', (start 0 (fun _ => none) { netns := fun _ => .exception }
        { hosts := OrderedDict.ofList [("h1", ⟨"h1", none, none, none, none, none⟩),
            ("h2", ⟨"h2", none, none, none, none, none⟩)] } {}
        { kernel := ["h2"] }) = (w', some (.namespaceExists "h2")) ∧
      w'.events = [.created (.netns "h1"), .released (.netns "h1")] ∧ AdmitsStart w'.net := by
  have hrest : AtRest ({ kernel := ["h2"] } : World).net :=
    ⟨⟨rfl, rfl, rfl, rfl, rfl, rfl, rfl, rfl, rfl⟩, rfl, rfl, rfl⟩
  have hstop : StopEnv.Completes { netns := fun _ => .exception } := by
    constructor <;> simp
  obtain ⟨acquired, w', hcreated, hstart, hrolled⟩ :=
    start_rollsBack 0 (fun _ => none) { netns := fun _ => .exception }
      { hosts := OrderedDict.ofList [("h1", ⟨"h1", none, none, none, none, none⟩),
          ("h2", ⟨"h2", none, none, none, none, none⟩)] } {}
      { kernel := ["h2"] } _ (.namespaceExists "h2") hrest hstop rfl
  refine ⟨w', hstart, ?_, hrolled.admitted⟩
  have hacquired : acquired.map Event.created = [.created (.netns "h1")] := hcreated.symm
  have hnetns : acquired = [.netns "h1"] := by
    rcases acquired with _ | ⟨resource, _ | ⟨resource', rest⟩⟩ <;> simp_all
  rw [hrolled.events, hnetns]
  rfl

end Network
end P4Net
