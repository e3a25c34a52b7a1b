import P4Net.LinkDescriptors
import P4Net.Transactions

/-!
# The topology builder

`Topology` holds the hosts, the switches and the links that the builder has added or a
snapshot has restored.  The builder's methods run in a state monad with exceptions, so
that a call that raises leaves the state that it has reached.

* `addHost`, `addSwitch`, `addLink` : the methods, with arbitrary objects as arguments.
* `Call` : a call of one of them, and `after` : the topology after a sequence of calls.
* `firstFree_not_mem` : the search for a free port ends.
-/

namespace P4Net
namespace Topo

open TextLiterals Transactions

/-! ### Topologies -/

/-- `Topology`. -/
structure Topology where
  hosts : OrderedDict String Host := OrderedDict.empty
  switches : OrderedDict String P4Switch := OrderedDict.empty
  links : List Link := []

/-- A node of a topology. -/
inductive Node where
  | host (host : Host)
  | switch (switch : P4Switch)

/-- The name of a node. -/
def Node.name : Node → String
  | .host h => h.name
  | .switch s => s.name

/-- The node, if it is a switch. -/
def Node.asSwitch : Node → Option P4Switch
  | .host _ => none
  | .switch s => some s

/-- `Topology.node`. -/
def Topology.node (t : Topology) (name : String) : Except Exc Node :=
  match t.hosts.get? name with
  | some h => .ok (.host h)
  | none =>
      match t.switches.get? name with
      | some s => .ok (.switch s)
      | none => .error (.noNode name)

/-- Both endpoints of a link. -/
def Link.endpoints (link : Link) : List (LinkEndpoint String) := [link.a, link.b]

/-- The endpoints of all links, in order. -/
def Topology.endpoints (t : Topology) : List (LinkEndpoint String) :=
  t.links.flatMap Link.endpoints

/-- `_iface_name`. -/
def ifaceName (node : String) (port : Nat) : String := node ++ "-eth" ++ toString port

/-- The port of an endpoint, if the endpoint is at the node. -/
def portAt (node : String) (ep : LinkEndpoint String) : Option Nat :=
  if ep.node = node then ep.port else none

/-- `Topology.port_assignments`. -/
def portAssignments (t : Topology) (switchName : String) :
    Except Exc (OrderedDict Nat (LinkEndpoint String)) :=
  if switchName ∉ t.switches.keys then .error (.noSwitch switchName)
  else
    .ok (t.links.foldl
      (fun result link =>
        match portAt switchName link.a with
        | some port => result.set port link.b
        | none =>
            match portAt switchName link.b with
            | some port => result.set port link.a
            | none => result)
      OrderedDict.empty)

/-! ### Automatic ports -/

/-- The loop of `_auto_port`, from `candidate` on. -/
def firstFree (used : List Nat) : Nat → Nat → Nat
  | 0, candidate => candidate
  | fuel + 1, candidate =>
      if candidate ∈ used then firstFree used fuel (candidate + 1) else candidate

theorem countP_lt_of_mem
    {used : List Nat} {c : Nat}
    (h : c ∈ used) :
    used.countP (fun n => c + 1 ≤ n) < used.countP (fun n => c ≤ n) := by
  induction used with
  | nil => cases h
  | cons n rest ih =>
      have hle : rest.countP (fun n => c + 1 ≤ n) ≤ rest.countP (fun n => c ≤ n) :=
        List.countP_mono_left fun m _ hm =>
          decide_eq_true (Nat.le_of_succ_le (of_decide_eq_true hm))
      simp only [List.countP_cons, decide_eq_true_eq]
      rcases List.mem_cons.mp h with rfl | hmem
      · rw [if_neg (by omega), if_pos (by omega)]
        omega
      · have hlt := ih hmem
        by_cases h1 : c + 1 ≤ n
        · rw [if_pos h1, if_pos (by omega)]
          omega
        · rw [if_neg h1]
          omega

/-- As many steps as there are used ports from the candidate on are enough. -/
theorem firstFree_not_mem
    {used : List Nat} {fuel candidate : Nat}
    (h : used.countP (fun n => candidate ≤ n) ≤ fuel) :
    firstFree used fuel candidate ∉ used := by
  induction fuel generalizing candidate with
  | zero =>
      intro hmem
      have hused : candidate ∈ used := hmem
      have hlt := countP_lt_of_mem hused
      omega
  | succ fuel ih =>
      by_cases hmem : candidate ∈ used
      · have hlt := countP_lt_of_mem hmem
        rw [firstFree, if_pos hmem]
        exact ih (by omega)
      · rwa [firstFree, if_neg hmem]

/-- The ports of a node that are used by links, and its CPU port. -/
def usedPorts (t : Topology) (node : Node) : List Nat :=
  (t.endpoints.filterMap fun ep => if ep.node = node.name then ep.port else none) ++
    (node.asSwitch.bind fun s => s.cpuPort).toList

theorem cpuPort_mem_usedPorts
    {t : Topology} {s : P4Switch} {port : Nat}
    (h : s.cpuPort = some port) :
    port ∈ usedPorts t (.switch s) :=
  List.mem_append_right _ (Option.mem_toList.mpr h)

/-- `_auto_port`. -/
def autoPort (t : Topology) (node : Node) (requested : Value) : Except Exc Nat := do
  match ← readPort requested with
  | some port =>
      match node with
      | .switch s =>
          check (port ≤ 510) (.switchPortRange s.name port)
          check (s.cpuPort ≠ some port) (.cpuPortUsed s.name port)
          return port
      | .host _ => return port
  | none =>
      let used := usedPorts t node
      match node with
      | .switch s =>
          let port := firstFree used used.length 1
          check (port ≤ 510) (.noFreePort s.name)
          return port
      | .host _ => return firstFree used used.length 0

theorem firstFree_usedPorts
    (t : Topology) (node : Node) (candidate : Nat) :
    firstFree (usedPorts t node) (usedPorts t node).length candidate ∉ usedPorts t node :=
  firstFree_not_mem (List.countP_le_length ..)

/-- A port of a switch is a data port, and not its CPU port. -/
theorem autoPort_switch
    {t : Topology} {s : P4Switch} {requested : Value} {port : Nat}
    (h : autoPort t (.switch s) requested = .ok port) :
    port ≤ 510 ∧ s.cpuPort ≠ some port := by
  simp only [autoPort, bind_eq_ok_iff] at h
  rcases h with ⟨chosen, _, h⟩
  cases chosen with
  | some p =>
      simp only [bind_eq_ok_iff, check_eq_ok_iff, pure, Except.pure, Except.ok.injEq] at h
      rcases h with ⟨_, hrange, _, hcpu, rfl⟩
      exact ⟨hrange, hcpu⟩
  | none =>
      simp only [bind_eq_ok_iff, check_eq_ok_iff, pure, Except.pure, Except.ok.injEq] at h
      rcases h with ⟨_, hrange, rfl⟩
      exact ⟨hrange, fun hcpu => firstFree_usedPorts t _ 1 (cpuPort_mem_usedPorts hcpu)⟩

/-! ### Methods -/

/-- The state monad of the builder's methods. -/
abbrev Build := ExceptT Exc (StateM Topology)

/-- A reference to a node: an object, or a descriptor and whether it is the very object
that the topology holds under its name. -/
inductive NodeRef where
  | value (v : Value)
  | host (h : Host) (same : Bool)
  | switch (s : P4Switch) (same : Bool)

/-- `_reject_existing_name`. -/
def rejectExistingName (t : Topology) (name : Value) : Except Exc Unit := do
  check (name.hashable = true) .typeError
  check (∀ s ∈ name.asStr, s ∉ t.hosts.keys ∧ s ∉ t.switches.keys) (.nameExists name)

/-- `_resolve`. -/
def resolve (t : Topology) : NodeRef → Except Exc Node
  | .host h same =>
      if t.hosts.get? h.name = some h ∧ same then .ok (.host h)
      else .error (.notPartOf .host h.name)
  | .switch s same =>
      if t.switches.get? s.name = some s ∧ same then .ok (.switch s)
      else .error (.notPartOf .switch s.name)
  | .value (.str name) => t.node name
  | .value _ => .error .badReference

/-- `Topology.add_host`. -/
def addHost (args : HostArgs) : Build Host := do
  let t ← get
  raises (rejectExistingName t args.name)
  let host ← raises (Host.make args)
  modify fun t => { t with hosts := t.hosts.set host.name host }
  return host

/-- An argument, or a default if it is `None`. -/
def orInt (value : Value) (default : Nat) : Value :=
  if value.isSet then value else .int default

/-- `Topology.add_switch`. -/
def addSwitch (args : SwitchArgs) : Build P4Switch := do
  let t ← get
  raises (rejectExistingName t args.name)
  let idx := t.switches.entries.length
  let switch ← raises (P4Switch.make { args with
    deviceId := orInt args.deviceId idx
    grpcPort := orInt args.grpcPort (50051 + idx)
    thriftPort := orInt args.thriftPort (9090 + idx) })
  modify fun t => { t with switches := t.switches.set switch.name switch }
  return switch

/-- The arguments of `add_link` for one endpoint. -/
structure SideArgs where
  port : Value := .none
  ip : Value := .none
  mac : Value := .none
  ip6 : Value := .none

/-- The check of the name of a new interface. -/
def checkIfname (name : String) : Except Exc Unit :=
  match validateIfname name with
  | .ok () => .ok ()
  | .error e => .error (.invalidIfname e)

/-- `LinkEndpoint(...)` in `add_link`. -/
def newEndpoint (node : Node) (port : Nat) (args : SideArgs) :
    Except Exc (LinkEndpoint Value) :=
  LinkEndpoint.make {
    node := .str node.name
    port := .int port
    ifaceName := .str (ifaceName node.name port)
    ip := args.ip
    mac := args.mac
    ip6 := args.ip6 }

/-- `Topology.add_link`. -/
def addLink (a b : NodeRef) (argsA argsB : SideArgs) (shaping : ShapingArgs) : Build Link := do
  let t ← get
  let nodeA ← raises (resolve t a)
  let nodeB ← raises (resolve t b)
  let portA ← raises (autoPort t nodeA argsA.port)
  let portB ← raises (autoPort t nodeB argsB.port)
  raises (checkIfname (ifaceName nodeA.name portA))
  raises (checkIfname (ifaceName nodeB.name portB))
  raises (check (argsA.ip.isSet = true → nodeA.asSwitch = none) (.switchAddress "ip_a"))
  raises (check (argsB.ip.isSet = true → nodeB.asSwitch = none) (.switchAddress "ip_b"))
  raises (check (argsA.ip6.isSet = true → nodeA.asSwitch = none) (.switchAddress "ip6_a"))
  raises (check (argsB.ip6.isSet = true → nodeB.asSwitch = none) (.switchAddress "ip6_b"))
  let epA ← raises (newEndpoint nodeA portA argsA)
  let epB ← raises (newEndpoint nodeB portB argsB)
  let link ← raises (Link.make epA epB shaping)
  modify fun t => { t with links := t.links ++ [link] }
  return link

/-- The impairments and the MTU of a link that is added without any. -/
def unshaped : ShapingArgs where
  bandwidth := .none
  delay := .none
  jitter := .none
  lossPct := .none
  mtu := .none
  bandwidthDir := ⟨.none, .none⟩
  delayDir := ⟨.none, .none⟩
  jitterDir := ⟨.none, .none⟩
  lossPctDir := ⟨.none, .none⟩
  delayExtra := ⟨.none, .none⟩
  jitterExtra := ⟨.none, .none⟩
  lossPctExtra := ⟨.none, .none⟩

/-- A call of a method. -/
inductive Call where
  | addHost (args : HostArgs)
  | addSwitch (args : SwitchArgs)
  | addLink (a b : NodeRef) (argsA argsB : SideArgs) (shaping : ShapingArgs)

/-- The exception that a call raises, if any, and the topology after it. -/
def Call.run (t : Topology) : Call → Option Exc × Topology
  | .addHost args => outcome (Topo.addHost args)
  | .addSwitch args => outcome (Topo.addSwitch args)
  | .addLink a b argsA argsB shaping => outcome (Topo.addLink a b argsA argsB shaping)
where
  outcome {α : Type} (method : Build α) : Option Exc × Topology :=
    match method.run.run t with
    | (.ok _, t') => (none, t')
    | (.error e, t') => (some e, t')

/-- The topology after a sequence of calls on an empty one. -/
def after (calls : List Call) : Topology :=
  calls.foldl (fun t call => (call.run t).2) {}

end Topo
end P4Net
