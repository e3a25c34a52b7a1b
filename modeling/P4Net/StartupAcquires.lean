import P4Net.NetworkStartup

/-!
# What a startup acquires

Every statement of `_do_start` that creates a resource is followed by the statement that
records it, so the collections of the network hold what has been created.

* `Acquires` : the resources that a list of statements creates, in order.
* `acquires_startOps1` and `acquires_startOps2` : those of a startup.
* `full_of_runAll` : a startup in which no statement raises records every node.
-/

namespace P4Net
namespace Network

theorem runAll_cons_ok
    {op : StartOp} {rest : List StartOp} {res res' : Resources}
    (h : runAll (op :: rest) res = .ok res') :
    ∃ mid, op.exec res = .ok mid ∧ runAll rest mid = .ok res' := by
  rw [runAll] at h
  cases hexec : op.exec res with
  | error exc => simp [hexec] at h
  | ok mid => exact ⟨mid, rfl, by simpa [hexec] using h⟩

theorem runAll_append_ok
    {ops rest : List StartOp} {res res' : Resources}
    (h : runAll (ops ++ rest) res = .ok res') :
    ∃ mid, runAll ops res = .ok mid ∧ runAll rest mid = .ok res' := by
  induction ops generalizing res with
  | nil => exact ⟨res, rfl, h⟩
  | cons op ops ih =>
      obtain ⟨mid, hexec, hrun⟩ := runAll_cons_ok h
      obtain ⟨last, hops, hrest⟩ := ih hrun
      exact ⟨last, by simp [runAll, hexec, hops], hrest⟩

/-! ### What a program acquires -/

/-- The statement neither creates nor records a resource. -/
def StartOp.neutral : StartOp → Bool
  | .create _ => false
  | .record _ => false
  | _ => true

/-- The statement is neutral, and records no facade either. -/
def StartOp.configures : StartOp → Bool
  | .recordHost _ _ => false
  | .recordSwitch _ _ => false
  | op => op.neutral

/--
The program creates exactly these resources, in this order, and records each of them in
the next statement; all its other statements meet `ok`.
-/
inductive Acquires (ok : StartOp → Bool) : List StartOp → List Resource → Prop
  | nil : Acquires ok [] []
  | other {op : StartOp} {ops : List StartOp} {acquired : List Resource} :
      ok op = true → Acquires ok ops acquired → Acquires ok (op :: ops) acquired
  | acquire {resource : Resource} {ops : List StartOp} {acquired : List Resource} :
      Acquires ok ops acquired →
        Acquires ok (.create resource :: .record resource :: ops) (resource :: acquired)

namespace Acquires

variable {ok : StartOp → Bool} {ops ops' : List StartOp} {acquired acquired' : List Resource}

theorem mono
    {ok' : StartOp → Bool} (himp : ∀ op, ok op = true → ok' op = true)
    (h : Acquires ok ops acquired) :
    Acquires ok' ops acquired := by
  induction h with
  | nil => exact .nil
  | other hok _ ih => exact .other (himp _ hok) ih
  | acquire _ ih => exact .acquire ih

theorem append
    (h : Acquires ok ops acquired) (h' : Acquires ok ops' acquired') :
    Acquires ok (ops ++ ops') (acquired ++ acquired') := by
  induction h with
  | nil => exact h'
  | other hok _ ih => exact .other hok ih
  | acquire _ ih => exact .acquire ih

theorem of_forall
    (h : ∀ op ∈ ops, ok op = true) :
    Acquires ok ops [] := by
  induction ops with
  | nil => exact .nil
  | cons op ops ih =>
      exact .other (h op List.mem_cons_self) (ih fun op' hop' => h op' (List.mem_cons_of_mem _ hop'))

theorem flatMap
    {α : Type} {f : α → List StartOp} {g : α → List Resource} {l : List α}
    (h : ∀ a ∈ l, Acquires ok (f a) (g a)) :
    Acquires ok (l.flatMap f) (l.flatMap g) := by
  induction l with
  | nil => exact .nil
  | cons a l ih =>
      rw [List.flatMap_cons, List.flatMap_cons]
      exact (h a List.mem_cons_self).append (ih fun b hb => h b (List.mem_cons_of_mem _ hb))

end Acquires

/-- The resources and the facades that are recorded are the same. -/
structure SameRecords (res res' : Resources) : Prop where
  held : res'.toHeld = res.toHeld
  runningHosts : res'.runningHosts = res.runningHosts
  runningSwitches : res'.runningSwitches = res.runningSwitches

theorem exec_configures
    {op : StartOp} {res res' : Resources} (hop : op.configures = true)
    (h : op.exec res = .ok res') :
    SameRecords res res' := by
  cases op with
  | create resource => cases hop
  | record resource => cases hop
  | recordHost name host => cases hop
  | recordSwitch name switch => cases hop
  | fail exc => cases h
  | needNamespace name =>
      cases hname : res.namespaces.get? name <;> simp [StartOp.exec, hname, need, Except.map] at h
      exact h ▸ ⟨rfl, rfl, rfl⟩
  | needCompile name =>
      cases hname : res.compileResults.get? name <;>
        simp [StartOp.exec, hname, need, Except.map] at h
      exact h ▸ ⟨rfl, rfl, rfl⟩
  | needSwitch name found =>
      simp only [StartOp.exec] at h
      split_ifs at h
      cases h
      exact ⟨rfl, rfl, rfl⟩
  | noteIface host iface ip ip6 =>
      cases hip : res.hostIfaceIp.get? host <;> cases hip6 : res.hostIfaceIp6.get? host <;>
        simp [StartOp.exec, hip, hip6, need, bind, Except.bind, pure, Except.pure] at h
      exact h ▸ ⟨rfl, rfl, rfl⟩
  | call primitive =>
      cases h
      exact ⟨rfl, rfl, rfl⟩
  | recordCompile result =>
      cases h
      exact ⟨rfl, rfl, rfl⟩
  | registerCleanup =>
      cases h
      exact ⟨rfl, rfl, rfl⟩
  | initIface host =>
      cases h
      exact ⟨rfl, rfl, rfl⟩
  | waitForIpv6Addresses =>
      cases h
      exact ⟨rfl, rfl, rfl⟩

theorem exec_recordHost
    {name : String} {host : Host} {res res' : Resources}
    (h : (StartOp.recordHost name host).exec res = .ok res') :
    ∃ rh, res' = { res with runningHosts := res.runningHosts.set name rh } := by
  cases hrun : runningHost name host res <;> simp [StartOp.exec, hrun, Except.map] at h
  exact ⟨_, h.symm⟩

theorem exec_recordSwitch
    {name : String} {switch : P4Switch} {res res' : Resources}
    (h : (StartOp.recordSwitch name switch).exec res = .ok res') :
    ∃ rs, res' = { res with runningSwitches := res.runningSwitches.set name rs } := by
  cases hrun : runningSwitch name switch res <;> simp [StartOp.exec, hrun, Except.map] at h
  exact ⟨_, h.symm⟩

/-- A neutral statement leaves the held resources alone. -/
theorem exec_held
    {op : StartOp} {res res' : Resources} (hop : op.neutral = true)
    (h : op.exec res = .ok res') :
    res'.toHeld = res.toHeld := by
  by_cases hconf : op.configures = true
  · exact (exec_configures hconf h).held
  · cases op with
    | recordHost name host =>
        obtain ⟨rh, rfl⟩ := exec_recordHost h
        rfl
    | recordSwitch name switch =>
        obtain ⟨rs, rfl⟩ := exec_recordSwitch h
        rfl
    | _ => exact absurd hop hconf

/-! ### What a startup acquires -/

/-- The resource of a link; none is created for a link that does not resolve. -/
def linkResource (topology : Topology) (link : Link) : List Resource :=
  match resolveLink topology link with
  | .error _ => []
  | .ok (a, b) => [.veth (vethBetween a b)]

/-- What the first part of a startup acquires. -/
def acquired1 (topology : Topology) (options : Options) : List Resource :=
  topology.hosts.keys.map .netns ++ topology.links.flatMap (linkResource topology) ++
    topology.switches.entries.map
      fun entry => .bmv2 (bmv2For topology options entry.1 entry.2)

/-- What the second part of a startup acquires. -/
def acquired2 (topology : Topology) (bmv2Switches : List (String × BMv2Switch)) :
    List Resource :=
  bmv2Switches.map fun entry => .client (clientFor topology entry)

theorem configures_wireEndpoint
    (node : Node) (side : Side) (endpoint : LinkEndpoint) (iface : String)
    (mtu : Option Nat) (seen : List String) :
    ∀ op ∈ (wireEndpoint node side endpoint iface mtu seen).1, op.configures = true := by
  intro op hop
  cases node with
  | host host =>
      simp only [wireEndpoint, configureHostIface, List.mem_append, List.mem_cons, List.mem_map,
        List.not_mem_nil, or_false] at hop
      split_ifs at hop <;> simp only [enableIpv6, disableIpv6, List.mem_cons, List.not_mem_nil,
        or_false] at hop <;> grind [StartOp.configures, StartOp.neutral]
  | switch switch =>
      simp only [wireEndpoint, disableIpv6, List.mem_append, List.mem_cons, List.mem_map,
        List.not_mem_nil, or_false] at hop
      grind [StartOp.configures, StartOp.neutral]

theorem configures_wireDirection
    (link : Link) (direction : Impairment) (node : Node) (iface : String) :
    ∀ op ∈ wireDirection link direction node iface, op.configures = true := by
  intro op hop
  rcases List.mem_cons.mp hop with rfl | hop
  · rfl
  · split_ifs at hop
    · rcases List.mem_append.mp hop with hop | hop
      · obtain ⟨name, -, rfl⟩ := List.mem_map.mp hop
        rfl
      · obtain rfl := List.mem_singleton.mp hop
        rfl
    · cases hop

theorem acquires_wireLink
    (topology : Topology) (link : Link) (seen : List String) :
    Acquires StartOp.configures (wireLink topology link seen).1 (linkResource topology link) := by
  unfold wireLink linkResource
  cases resolveLink topology link with
  | error exc => exact .other rfl .nil
  | ok ends =>
      obtain ⟨a, b⟩ := ends
      have hneed : Acquires StartOp.configures
          ((a.2.netns.toList ++ b.2.netns.toList).map .needNamespace) [] := by
        refine .of_forall fun op hop => ?_
        obtain ⟨name, -, rfl⟩ := List.mem_map.mp hop
        rfl
      have hveth : Acquires StartOp.configures
          [.create (.veth (vethBetween a b)), .record (.veth (vethBetween a b))]
          [.veth (vethBetween a b)] := .acquire .nil
      exact (((hneed.append hveth).append
        (.of_forall (configures_wireEndpoint _ _ _ _ _ _))).append
        (.of_forall (configures_wireEndpoint _ _ _ _ _ _))).append
        (.of_forall (configures_wireDirection _ _ _ _)) |>.append
        (.of_forall (configures_wireDirection _ _ _ _))

theorem acquires_wireLinks
    (topology : Topology) (links : List Link) (seen : List String) :
    Acquires StartOp.configures (wireLinks topology links seen)
      (links.flatMap (linkResource topology)) := by
  induction links generalizing seen with
  | nil => exact .nil
  | cons link rest ih =>
      rw [List.flatMap_cons]
      exact (acquires_wireLink topology link seen).append (ih _)

theorem acquires_startOps1
    (topology : Topology) (options : Options) :
    Acquires StartOp.configures (startOps1 topology options) (acquired1 topology options) := by
  have hvalidate : Acquires StartOp.configures
      (if options.skipValidation then [] else [.call .validate]) [] := by
    split_ifs
    · exact .nil
    · exact .other rfl .nil
  have hdirs : Acquires StartOp.configures (directoryOps options) [] := by
    unfold directoryOps
    cases options.logDir <;> cases options.pcapDir <;>
      first | exact .other rfl .nil | exact .other rfl (.other rfl .nil)
  have hcompile : Acquires StartOp.configures
      (topology.switches.entries.flatMap compileOps) [] := by
    refine .of_forall fun op hop => ?_
    obtain ⟨entry, -, hop⟩ := List.mem_flatMap.mp hop
    simp only [compileOps, List.mem_cons, List.not_mem_nil, or_false] at hop
    rcases hop with rfl | rfl <;> rfl
  have hregister : Acquires StartOp.configures [.registerCleanup] [] := .other rfl .nil
  have hnetns : Acquires StartOp.configures (topology.hosts.keys.flatMap namespaceOps)
      (topology.hosts.keys.map .netns) := by
    rw [← List.flatMap_pure_eq_map]
    exact .flatMap fun name _ => .acquire (.other rfl .nil)
  have hiface : Acquires StartOp.configures (topology.hosts.keys.map .initIface) [] := by
    refine .of_forall fun op hop => ?_
    obtain ⟨name, -, rfl⟩ := List.mem_map.mp hop
    rfl
  have hroutes : Acquires StartOp.configures (topology.hosts.entries.flatMap routeOps) [] := by
    refine .of_forall fun op hop => ?_
    obtain ⟨entry, -, hop⟩ := List.mem_flatMap.mp hop
    simp only [routeOps, routeOp, List.mem_append, List.mem_flatMap, List.mem_cons,
      List.not_mem_nil, or_false] at hop
    rcases hop with ⟨gateway, -, rfl | rfl⟩ | ⟨gateway, -, rfl | rfl⟩ <;> rfl
  have hbmv2 : Acquires StartOp.configures
      (topology.switches.entries.flatMap (bmv2Ops topology options))
      (topology.switches.entries.map
        fun entry => .bmv2 (bmv2For topology options entry.1 entry.2)) := by
    rw [← List.flatMap_pure_eq_map]
    exact .flatMap fun entry _ => .other rfl (.acquire (.other rfl .nil))
  exact (((((((hvalidate.append hdirs).append hcompile).append hregister).append
    hnetns).append hiface).append (acquires_wireLinks _ _ _)).append hroutes).append hbmv2
      |> fun h => by simpa [startOps1, acquired1] using h

theorem acquires_clientOps
    (topology : Topology) (bmv2Switches : List (String × BMv2Switch)) :
    Acquires StartOp.configures
      (bmv2Switches.flatMap (clientOps topology) ++ [.waitForIpv6Addresses])
      (acquired2 topology bmv2Switches) := by
  have hclients : Acquires StartOp.configures (bmv2Switches.flatMap (clientOps topology))
      (acquired2 topology bmv2Switches) := by
    rw [acquired2, ← List.flatMap_pure_eq_map]
    exact .flatMap fun entry _ => .other rfl (.acquire (.other rfl (.other rfl .nil)))
  have hwait : Acquires StartOp.configures [.waitForIpv6Addresses] [] := .other rfl .nil
  simpa using hclients.append hwait

theorem neutral_of_configures
    (op : StartOp) (h : op.configures = true) :
    op.neutral = true := by
  cases op <;> first | rfl | cases h

theorem acquires_startOps2
    (topology : Topology) (bmv2Switches : List (String × BMv2Switch)) :
    Acquires StartOp.neutral (startOps2 topology bmv2Switches)
      (acquired2 topology bmv2Switches) := by
  have hclients := (acquires_clientOps topology bmv2Switches).mono neutral_of_configures
  have hfacades : Acquires StartOp.neutral
      (topology.hosts.entries.map (fun entry => .recordHost entry.1 entry.2) ++
        topology.switches.entries.map (fun entry => .recordSwitch entry.1 entry.2)) [] := by
    refine .of_forall fun op hop => ?_
    rcases List.mem_append.mp hop with hop | hop
    · obtain ⟨entry, -, rfl⟩ := List.mem_map.mp hop
      rfl
    · obtain ⟨entry, -, rfl⟩ := List.mem_map.mp hop
      rfl
  simpa [startOps2] using hclients.append hfacades

/-! ### The collections after a startup -/

/-- After a program the collections hold what it has acquired. -/
theorem Acquires.runAll_held
    {ok : StartOp → Bool} {ops : List StartOp} {acquired : List Resource} {res res' : Resources}
    (hok : ∀ op, ok op = true → op.neutral = true) (h : Acquires ok ops acquired)
    (hrun : runAll ops res = .ok res') :
    res'.toHeld = acquired.foldl Held.record res.toHeld := by
  induction h generalizing res with
  | nil =>
      cases hrun
      rfl
  | other hop _ ih =>
      obtain ⟨mid, hexec, hrest⟩ := runAll_cons_ok hrun
      rw [ih hrest, exec_held (hok _ hop) hexec]
  | acquire _ ih =>
      obtain ⟨mid, hcreate, hrest⟩ := runAll_cons_ok hrun
      obtain ⟨mid', hrecord, hrest'⟩ := runAll_cons_ok hrest
      cases hcreate
      cases hrecord
      rw [ih hrest']
      rfl

theorem Acquires.runAll_facades
    {ops : List StartOp} {acquired : List Resource} {res res' : Resources}
    (h : Acquires StartOp.configures ops acquired) (hrun : runAll ops res = .ok res') :
    res'.runningHosts = res.runningHosts ∧ res'.runningSwitches = res.runningSwitches := by
  induction h generalizing res with
  | nil =>
      cases hrun
      exact ⟨rfl, rfl⟩
  | other hop _ ih =>
      obtain ⟨mid, hexec, hrest⟩ := runAll_cons_ok hrun
      have hsame := exec_configures hop hexec
      obtain ⟨hhosts, hswitches⟩ := ih hrest
      exact ⟨hhosts.trans hsame.runningHosts, hswitches.trans hsame.runningSwitches⟩
  | acquire _ ih =>
      obtain ⟨mid, hcreate, hrest⟩ := runAll_cons_ok hrun
      obtain ⟨mid', hrecord, hrest'⟩ := runAll_cons_ok hrest
      cases hcreate
      cases hrecord
      have hsame := ih hrest'
      exact hsame

/-! ### Resources by kind -/

namespace Resource

/-- The place of a kind of resources in the order of release. -/
def rank : Resource → Nat
  | .process _ => 0
  | .client _ => 1
  | .bmv2 _ => 2
  | .veth _ => 3
  | .netns _ => 4

def asClient : Resource → Option P4RuntimeClient
  | .client c => some c
  | _ => none

def asBmv2 : Resource → Option BMv2Switch
  | .bmv2 b => some b
  | _ => none

def asVeth : Resource → Option VethPair
  | .veth pair => some pair
  | _ => none

def asNetns : Resource → Option String
  | .netns name => some name
  | _ => none

end Resource

/-- No two resources are recorded under the same key, and none is a process. -/
structure Recordable (acquired : List Resource) : Prop where
  processes : ∀ pid, .process pid ∉ acquired
  clients : ((acquired.filterMap Resource.asClient).map P4RuntimeClient.switchName).Nodup
  bmv2 : ((acquired.filterMap Resource.asBmv2).map BMv2Switch.name).Nodup
  netns : (acquired.filterMap Resource.asNetns).Nodup

theorem Recordable.sublist
    {acquired acquired' : List Resource} (h : Recordable acquired)
    (hsub : acquired'.Sublist acquired) :
    Recordable acquired' where
  processes := fun pid hmem => h.processes pid (hsub.subset hmem)
  clients := h.clients.sublist ((hsub.filterMap _).map _)
  bmv2 := h.bmv2.sublist ((hsub.filterMap _).map _)
  netns := h.netns.sublist (hsub.filterMap _)

/-- A collection that is filled by the resources of one kind. -/
theorem foldl_record_eq
    {β γ : Type} (proj : Held → γ) (select : Resource → Option β) (put : γ → β → γ)
    (hrecord : ∀ held resource, proj (held.record resource) =
      match select resource with
      | some b => put (proj held) b
      | none => proj held)
    (acquired : List Resource) (held : Held) :
    proj (acquired.foldl Held.record held) =
      (acquired.filterMap select).foldl put (proj held) := by
  induction acquired generalizing held with
  | nil => rfl
  | cons resource rest ih =>
      rw [List.foldl_cons, ih, hrecord]
      cases hselect : select resource with
      | none => rw [List.filterMap_cons_none hselect]
      | some b => rw [List.filterMap_cons_some hselect, List.foldl_cons]

/-- What the collections hold once distinct resources have been recorded in empty ones. -/
structure Holds (held : Held) (acquired : List Resource) : Prop where
  clients : held.clients.entries =
    (acquired.filterMap Resource.asClient).map fun client => (client.switchName, client)
  bmv2 : held.bmv2Switches.entries =
    (acquired.filterMap Resource.asBmv2).map fun bmv2 => (bmv2.name, bmv2)
  veths : held.vethPairs = acquired.filterMap Resource.asVeth
  netns : held.namespaces.entries =
    (acquired.filterMap Resource.asNetns).map fun name => (name, name)

theorem holds_foldl_record
    (held : Held) {acquired : List Resource} (hkeys : Recordable acquired)
    (hclients : held.clients = OrderedDict.empty)
    (hbmv2 : held.bmv2Switches = OrderedDict.empty) (hveths : held.vethPairs = [])
    (hnetns : held.namespaces = OrderedDict.empty) :
    Holds (acquired.foldl Held.record held) acquired := by
  constructor
  case clients =>
    rw [foldl_record_eq Held.clients Resource.asClient (fun d b => d.set b.switchName b)
      (fun held resource => by cases resource <;> rfl), hclients]
    exact OrderedDict.foldl_set_empty_entries _ _ hkeys.clients
  case bmv2 =>
    rw [foldl_record_eq Held.bmv2Switches Resource.asBmv2 (fun d b => d.set b.name b)
      (fun held resource => by cases resource <;> rfl), hbmv2]
    exact OrderedDict.foldl_set_empty_entries _ _ hkeys.bmv2
  case netns =>
    rw [foldl_record_eq Held.namespaces Resource.asNetns (fun d b => d.set b b)
      (fun held resource => by cases resource <;> rfl), hnetns]
    exact OrderedDict.foldl_set_empty_entries id _ (by simpa using hkeys.netns)
  case veths =>
    rw [foldl_record_eq Held.vethPairs Resource.asVeth (fun l b => l ++ [b])
      (fun held resource => by cases resource <;> rfl), hveths]
    have hsnoc : ∀ (l acc : List VethPair), l.foldl (fun l b => l ++ [b]) acc = acc ++ l := by
      intro l
      induction l with
      | nil => simp
      | cons b l ih =>
          intro acc
          rw [List.foldl_cons, ih, List.append_assoc, List.singleton_append]
    rw [hsnoc, List.nil_append]

/-- Spawned processes are left alone. -/
theorem spawned_foldl_record
    {acquired : List Resource} (h : ∀ pid, .process pid ∉ acquired) (held : Held) :
    (acquired.foldl Held.record held).spawnedProcesses = held.spawnedProcesses := by
  induction acquired generalizing held with
  | nil => rfl
  | cons resource rest ih =>
      rw [List.foldl_cons, ih fun pid hmem => h pid (List.mem_cons_of_mem _ hmem)]
      cases resource with
      | process pid => exact absurd List.mem_cons_self (h pid)
      | _ => rfl

/-! ### The resources of a whole startup -/

theorem linkResource_veth
    {topology : Topology} {link : Link} {resource : Resource}
    (h : resource ∈ linkResource topology link) :
    ∃ veth, resource = .veth veth := by
  unfold linkResource at h
  split at h
  · cases h
  · exact ⟨_, List.mem_singleton.mp h⟩

theorem filterMap_linkResource
    {β : Type} (select : Resource → Option β) (hveth : ∀ veth, select (.veth veth) = none)
    (topology : Topology) (links : List Link) :
    (links.flatMap (linkResource topology)).filterMap select = [] := by
  rw [List.filterMap_eq_nil_iff]
  intro resource hmem
  obtain ⟨link, -, hmem⟩ := List.mem_flatMap.mp hmem
  obtain ⟨veth, rfl⟩ := linkResource_veth hmem
  exact hveth veth

theorem acquired1_netns
    (topology : Topology) (options : Options) :
    (acquired1 topology options).filterMap Resource.asNetns = topology.hosts.keys := by
  rw [acquired1, List.filterMap_append, List.filterMap_append,
    filterMap_linkResource _ fun _ => rfl]
  simp [List.filterMap_map, Function.comp_def, Resource.asNetns]

theorem acquired1_bmv2
    (topology : Topology) (options : Options) :
    (acquired1 topology options).filterMap Resource.asBmv2 =
      topology.switches.entries.map
        fun entry => bmv2For topology options entry.1 entry.2 := by
  rw [acquired1, List.filterMap_append, List.filterMap_append,
    filterMap_linkResource _ fun _ => rfl]
  simp [List.filterMap_map, Function.comp_def, Resource.asBmv2]

theorem acquired1_client
    (topology : Topology) (options : Options) :
    (acquired1 topology options).filterMap Resource.asClient = [] := by
  rw [acquired1, List.filterMap_append, List.filterMap_append,
    filterMap_linkResource _ fun _ => rfl]
  simp [List.filterMap_map, Function.comp_def, Resource.asClient]

theorem acquired2_client
    (topology : Topology) (bmv2Switches : List (String × BMv2Switch)) :
    (acquired2 topology bmv2Switches).filterMap Resource.asClient =
      bmv2Switches.map (clientFor topology) := by
  simp [acquired2, List.filterMap_map, Function.comp_def, Resource.asClient]

/-- The second part of a startup acquires nothing but clients. -/
theorem acquired2_filterMap
    {β : Type} (select : Resource → Option β) (hclient : ∀ client, select (.client client) = none)
    (topology : Topology) (bmv2Switches : List (String × BMv2Switch)) :
    (acquired2 topology bmv2Switches).filterMap select = [] := by
  simp [acquired2, List.filterMap_map, hclient]

/-- A whole startup records everything under distinct keys. -/
theorem recordable_startup
    (topology : Topology) (options : Options) {bmv2Switches : List (String × BMv2Switch)}
    (h : (bmv2Switches.map Prod.fst).Nodup) :
    Recordable (acquired1 topology options ++ acquired2 topology bmv2Switches) := by
  constructor
  case processes =>
    intro pid hmem
    simp only [acquired1, acquired2, List.mem_append, List.mem_map, List.mem_flatMap,
      reduceCtorEq, and_false, exists_false, or_false, false_or] at hmem
    obtain ⟨link, -, hlink⟩ := hmem
    obtain ⟨veth, hveth⟩ := linkResource_veth hlink
    cases hveth
  case clients =>
    rw [List.filterMap_append, acquired1_client, acquired2_client, List.nil_append, List.map_map]
    exact h
  case bmv2 =>
    rw [List.filterMap_append, acquired1_bmv2, acquired2_filterMap _ (fun _ => rfl),
      List.append_nil, List.map_map]
    exact topology.switches.nodup
  case netns =>
    rw [List.filterMap_append, acquired1_netns, acquired2_filterMap _ (fun _ => rfl),
      List.append_nil]
    exact topology.hosts.nodup

/-! ### A startup in which nothing raises -/

/-- A link whose statements all return has been resolved. -/
theorem linkResource_of_runAll
    {topology : Topology} {link : Link} {seen : List String} {res res' : Resources}
    (h : runAll (wireLink topology link seen).1 res = .ok res') :
    ∃ veth, linkResource topology link = [.veth veth] := by
  cases hresolve : resolveLink topology link with
  | error exc =>
      rw [wireLink, hresolve] at h
      obtain ⟨mid, hexec, -⟩ := runAll_cons_ok h
      cases hexec
  | ok ends => exact ⟨vethBetween ends.1 ends.2, by simp [linkResource, hresolve]⟩

theorem veths_of_runAll
    {topology : Topology} {links : List Link} {seen : List String} {res res' : Resources}
    (h : runAll (wireLinks topology links seen) res = .ok res') :
    ((links.flatMap (linkResource topology)).filterMap Resource.asVeth).length =
      links.length := by
  induction links generalizing seen res with
  | nil => rfl
  | cons link rest ih =>
      obtain ⟨mid, hlink, hrest⟩ := runAll_append_ok h
      obtain ⟨veth, hveth⟩ := linkResource_of_runAll hlink
      rw [List.flatMap_cons, List.filterMap_append, List.length_append, ih hrest, hveth,
        List.length_cons, Nat.add_comm]
      rfl

/-- Statements that each add one key to a dictionary. -/
theorem runAll_keys
    {α : Type} {op : α → StartOp} (key : α → String) (keys : Resources → List String)
    (hexec : ∀ a res res', (op a).exec res = .ok res' → key a ∉ keys res →
      keys res' = keys res ++ [key a])
    {l : List α} {res res' : Resources} (hnodup : (keys res ++ l.map key).Nodup)
    (h : runAll (l.map op) res = .ok res') :
    keys res' = keys res ++ l.map key := by
  induction l generalizing res with
  | nil =>
      cases h
      simp
  | cons a l ih =>
      obtain ⟨mid, ha, hrest⟩ := runAll_cons_ok h
      have hnew : key a ∉ keys res := by
        intro hmem
        exact (List.nodup_append.mp hnodup).2.2 _ hmem _ (by simp) rfl
      have hmid := hexec a res mid ha hnew
      rw [ih (by simpa [hmid] using hnodup) hrest, hmid]
      simp

/-- The statements of a list leave a part of the state alone. -/
theorem runAll_same
    {γ : Type} (proj : Resources → γ) {ops : List StartOp} {res res' : Resources}
    (hexec : ∀ op ∈ ops, ∀ res res', op.exec res = .ok res' → proj res' = proj res)
    (h : runAll ops res = .ok res') :
    proj res' = proj res := by
  induction ops generalizing res with
  | nil =>
      cases h
      rfl
  | cons op ops ih =>
      obtain ⟨mid, hop, hrest⟩ := runAll_cons_ok h
      rw [ih (fun op' hop' => hexec op' (List.mem_cons_of_mem _ hop')) hrest,
        hexec op List.mem_cons_self _ _ hop]

/-- The facades of a startup. -/
theorem facades_of_runAll
    {topology : Topology} {res res' : Resources}
    (hhosts : res.runningHosts = OrderedDict.empty)
    (hswitches : res.runningSwitches = OrderedDict.empty)
    (h : runAll
      (topology.hosts.entries.map (fun entry => .recordHost entry.1 entry.2) ++
        topology.switches.entries.map (fun entry => .recordSwitch entry.1 entry.2)) res =
      .ok res') :
    res'.runningHosts.keys = topology.hosts.keys ∧
      res'.runningSwitches.keys = topology.switches.keys := by
  obtain ⟨mid, hfirst, hsecond⟩ := runAll_append_ok h
  have hhostKeys := runAll_keys (fun entry : String × Host => entry.1)
    (fun res => res.runningHosts.keys) (fun entry res res' hexec hnew => by
      obtain ⟨rh, rfl⟩ := exec_recordHost hexec
      exact OrderedDict.keys_set_of_not_mem hnew rh)
    (by rw [hhosts]; exact topology.hosts.nodup) hfirst
  have hswitchKeys := runAll_keys (fun entry : String × P4Switch => entry.1)
    (fun res => res.runningSwitches.keys) (fun entry res res' hexec hnew => by
      obtain ⟨rs, rfl⟩ := exec_recordSwitch hexec
      exact OrderedDict.keys_set_of_not_mem hnew rs)
    (by
      have hsame := runAll_same (fun res => res.runningSwitches) (fun op hop _ _ hexec => by
        obtain ⟨entry, -, rfl⟩ := List.mem_map.mp hop
        obtain ⟨rh, rfl⟩ := exec_recordHost hexec
        rfl) hfirst
      rw [hsame, hswitches]
      exact topology.switches.nodup) hsecond
  have hsame := runAll_same (fun res => res.runningHosts) (fun op hop _ _ hexec => by
    obtain ⟨entry, -, rfl⟩ := List.mem_map.mp hop
    obtain ⟨rs, rfl⟩ := exec_recordSwitch hexec
    rfl) hsecond
  have hsame' := runAll_same (fun res => res.runningSwitches) (fun op hop _ _ hexec => by
    obtain ⟨entry, -, rfl⟩ := List.mem_map.mp hop
    obtain ⟨rh, rfl⟩ := exec_recordHost hexec
    rfl) hfirst
  refine ⟨?_, ?_⟩
  · rw [hsame]
    simpa [hhosts, OrderedDict.empty, OrderedDict.keys] using hhostKeys
  · simpa [hsame', hswitches, OrderedDict.empty, OrderedDict.keys] using hswitchKeys

/-- A startup in which no statement raises records every node and every link. -/
theorem full_of_runAll
    {topology : Topology} {options : Options} {res mid res' : Resources}
    (hempty : res.Empty) (hfirst : runAll (startOps1 topology options) res = .ok mid)
    (hsecond : runAll (startOps2 topology mid.bmv2Switches.entries) mid = .ok res') :
    res'.Full topology := by
  have hheldMid := (acquires_startOps1 topology options).runAll_held neutral_of_configures hfirst
  have hheld : res'.toHeld =
      (acquired1 topology options ++ acquired2 topology mid.bmv2Switches.entries).foldl
        Held.record res.toHeld := by
    rw [List.foldl_append, ← hheldMid]
    exact (acquires_startOps2 _ _).runAll_held (fun _ h => h) hsecond
  have hkeys := recordable_startup topology options mid.bmv2Switches.nodup
  have hholds := holds_foldl_record res.toHeld hkeys hempty.clients
    hempty.bmv2Switches hempty.vethPairs hempty.namespaces
  rw [← hheld] at hholds
  have hmid := holds_foldl_record res.toHeld
    (hkeys.sublist (List.sublist_append_left _ _)) hempty.clients hempty.bmv2Switches
    hempty.vethPairs hempty.namespaces
  rw [← hheldMid] at hmid
  have hbmv2Keys : mid.bmv2Switches.entries.map Prod.fst = topology.switches.keys := by
    rw [hmid.bmv2, acquired1_bmv2, List.map_map, List.map_map]
    rfl
  obtain ⟨hnoHosts, hnoSwitches⟩ := (acquires_startOps1 topology options).runAll_facades hfirst
  rw [startOps2, List.append_assoc] at hsecond
  obtain ⟨mid', hclients, hfacades⟩ := runAll_append_ok hsecond
  obtain ⟨hsameHosts, hsameSwitches⟩ := (acquires_clientOps _ _).runAll_facades hclients
  obtain ⟨hhosts, hswitches⟩ := facades_of_runAll
    (hsameHosts.trans (hnoHosts.trans hempty.runningHosts))
    (hsameSwitches.trans (hnoSwitches.trans hempty.runningSwitches)) hfacades
  obtain ⟨mid1, hwired, -⟩ := runAll_append_ok hfirst
  obtain ⟨mid2, hwired, -⟩ := runAll_append_ok hwired
  obtain ⟨mid3, -, hlinks⟩ := runAll_append_ok hwired
  constructor
  case runningHosts => exact hhosts
  case runningSwitches => exact hswitches
  case namespaces =>
    rw [OrderedDict.keys, hholds.netns, List.filterMap_append, acquired1_netns,
      acquired2_filterMap _ (fun _ => rfl), List.append_nil, List.map_map]
    exact List.map_id _
  case bmv2Switches =>
    rw [OrderedDict.keys, hholds.bmv2, List.filterMap_append, acquired1_bmv2,
      acquired2_filterMap _ (fun _ => rfl), List.append_nil, List.map_map, List.map_map]
    rfl
  case clients =>
    rw [OrderedDict.keys, hholds.clients, List.filterMap_append, acquired1_client,
      acquired2_client, List.nil_append, List.map_map, List.map_map, ← hbmv2Keys]
    rfl
  case vethPairs =>
    have hveths := veths_of_runAll hlinks
    rw [hholds.veths, List.filterMap_append, acquired2_filterMap _ (fun _ => rfl),
      List.append_nil, acquired1, List.filterMap_append, List.filterMap_append,
      List.length_append, List.length_append, hveths]
    simp [List.filterMap_map, Function.comp_def, Resource.asVeth]

end Network
end P4Net
