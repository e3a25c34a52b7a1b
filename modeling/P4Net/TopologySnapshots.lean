import P4Net.TopologyBuilder

/-!
# Snapshots of a topology

`Topology.to_dict` and `Topology.from_dict`, field by field, over the objects that a
snapshot is made of.

* `Same` : equality of objects, for which the order of the keys of a dictionary is
  irrelevant.
* `Topology.toDict` and `Topology.fromDict` : the two directions.
* `SnapshotShape` : an object with the keys that `to_dict` writes, and no others.
* `snapshots_round_trip` : both round trips.
-/

namespace P4Net
namespace Topo

open TextLiterals PosixPaths

/-! ### Equality of objects -/

/-- The number that an object is compared as. -/
def Value.number : Value → Option ℚ
  | .bool b => some (if b then 1 else 0)
  | .int n => some n
  | .float (.finite d) => some d.value
  | _ => Option.none

/-- `v == w`; an object is the same as itself even if it is a NaN, as it is inside a
container. -/
inductive Same : Value → Value → Prop
  | refl (v : Value) : Same v v
  | number {v w : Value} {q : ℚ} : v.number = some q → w.number = some q → Same v w
  | list {xs ys : List Value} : List.Forall₂ Same xs ys → Same (.list xs) (.list ys)
  | dict {xs ys : List (String × Value)} :
      (xs.map Prod.fst).Nodup → (ys.map Prod.fst).Nodup →
      (∀ key, Option.Rel Same (entryLookup key xs) (entryLookup key ys)) →
      Same (.dict xs) (.dict ys)

/-! ### Entries of dictionaries -/

/-- Every entry of the second list is found in the first. -/
def HasEntries (items entries : List (String × Value)) : Prop :=
  ∀ e ∈ entries, entryLookup e.1 items = some e.2

/-- The second list has an entry that is the same for every entry of the first. -/
def Covers (items entries : List (String × Value)) : Prop :=
  ∀ e ∈ entries, ∃ v, entryLookup e.1 items = some v ∧ Same e.2 v

/-- The keys, in any order. -/
def HasKeys (keys : List String) (items : List (String × Value)) : Prop :=
  (items.map Prod.fst).Perm keys

instance (keys : List String) (items : List (String × Value)) :
    Decidable (HasKeys keys items) :=
  inferInstanceAs (Decidable ((items.map Prod.fst).Perm keys))

/-- `items[key]`. -/
def subscript (items : List (String × Value)) (key : String) : Except Exc Value :=
  orRaise (entryLookup key items) (.keyError key)

/-- `items.get(key, default)`. -/
def getItem (items : List (String × Value)) (key : String) (default : Value := .none) : Value :=
  (entryLookup key items).getD default

/-- The entries of a dictionary; what is asked of other objects raises. -/
def Value.asDict (e : Exc) : Value → Except Exc (List (String × Value))
  | .dict items => .ok items
  | _ => .error e

/-- The objects over which `for _ in value` iterates. -/
def Value.iter : Value → Except Exc (List Value)
  | .list items => .ok items
  | .dict items => .ok (items.map fun e => .str e.1)
  | .str s => .ok (s.toList.map fun c => .str (String.singleton c))
  | _ => .error .typeError

@[simp] theorem subscript_eq_ok_iff
    (items : List (String × Value)) (key : String) (v : Value) :
    subscript items key = .ok v ↔ entryLookup key items = some v :=
  orRaise_eq_ok_iff ..

@[simp] theorem asDict_eq_ok_iff
    (e : Exc) (v : Value) (items : List (String × Value)) :
    v.asDict e = .ok items ↔ v = .dict items := by
  cases v <;> simp [Value.asDict]

/-- Under a key that is present, the default is irrelevant. -/
theorem getItem_eq_iff
    {keys : List String} {items : List (String × Value)}
    (hkeys : ∀ key ∈ keys, key ∈ items.map Prod.fst) :
    ∀ key ∈ keys, ∀ default v,
      getItem items key default = v ↔ entryLookup key items = some v := by
  intro key hkey default v
  obtain ⟨w, hw⟩ :=
    Option.isSome_iff_exists.mp ((entryLookup_isSome_iff key items).mpr (hkeys key hkey))
  simp [getItem, hw]

theorem HasKeys.mem
    {keys : List String} {items : List (String × Value)}
    (h : HasKeys keys items) :
    ∀ key ∈ keys, key ∈ items.map Prod.fst :=
  fun _ hkey => h.mem_iff.mpr hkey

/-- A list with distinct keys holds its own entries. -/
theorem hasEntries_self
    {keys : List String} {entries : List (String × Value)}
    (hkeys : entries.map Prod.fst = keys) (hnodup : keys.Nodup) :
    HasEntries entries entries :=
  fun e he => (entryLookup_eq_some_iff (hkeys ▸ hnodup) e.1 e.2).mpr he

theorem HasEntries.covers
    {items entries : List (String × Value)}
    (h : HasEntries items entries) :
    Covers items entries :=
  fun e he => ⟨e.2, h e he, .refl e.2⟩

/-- Dictionaries with the same keys, one of which covers the other. -/
theorem same_of_covers
    {items entries : List (String × Value)}
    (hkeys : HasKeys (entries.map Prod.fst) items) (hnodup : (entries.map Prod.fst).Nodup)
    (h : Covers items entries) :
    Same (.dict entries) (.dict items) := by
  refine .dict hnodup (hkeys.nodup_iff.mpr hnodup) fun key => ?_
  cases hlookup : entryLookup key entries with
  | some v =>
      obtain ⟨w, hw, hsame⟩ := h _ ((entryLookup_eq_some_iff hnodup key v).mp hlookup)
      rw [hw]
      exact .some hsame
  | none =>
      rw [entryLookup_eq_none_iff] at hlookup
      rw [(entryLookup_eq_none_iff key items).mpr fun hmem => hlookup (hkeys.mem_iff.mp hmem)]
      exact .none

/-! ### Writing -/

/-- The entries of `_host_to_dict`. -/
def hostEntries (a : HostArgs) : List (String × Value) := [
  ("name", a.name),
  ("ip", a.ip),
  ("mac", a.mac),
  ("default_route", a.defaultRoute),
  ("ip6", a.ip6),
  ("default_route6", a.defaultRoute6)]

/-- The entries of `_switch_to_dict`. -/
def switchEntries (a : SwitchArgs) : List (String × Value) := [
  ("name", a.name),
  ("p4_src", a.p4Src),
  ("arch", a.arch),
  ("device_id", a.deviceId),
  ("grpc_port", a.grpcPort),
  ("thrift_port", a.thriftPort),
  ("cpu_port", a.cpuPort),
  ("log_level", a.logLevel),
  ("pcap_enabled", a.pcapEnabled)]

/-- The entries of `_endpoint_to_dict`. -/
def endpointEntries (a : EndpointArgs) : List (String × Value) := [
  ("node", a.node),
  ("port", a.port),
  ("iface_name", a.ifaceName),
  ("ip", a.ip),
  ("mac", a.mac),
  ("ip6", a.ip6)]

/-- The entries of `_link_to_dict` after the endpoints. -/
def shapingEntries (s : ShapingArgs) : List (String × Value) := [
  ("bandwidth", s.bandwidth),
  ("delay", s.delay),
  ("jitter", s.jitter),
  ("loss_pct", s.lossPct),
  ("mtu", s.mtu),
  ("bandwidth_a_to_b", s.bandwidthDir.aToB),
  ("bandwidth_b_to_a", s.bandwidthDir.bToA),
  ("delay_a_to_b", s.delayDir.aToB),
  ("delay_b_to_a", s.delayDir.bToA),
  ("jitter_a_to_b", s.jitterDir.aToB),
  ("jitter_b_to_a", s.jitterDir.bToA),
  ("loss_pct_a_to_b", s.lossPctDir.aToB),
  ("loss_pct_b_to_a", s.lossPctDir.bToA),
  ("delay_a_to_b_extra", s.delayExtra.aToB),
  ("delay_b_to_a_extra", s.delayExtra.bToA),
  ("jitter_a_to_b_extra", s.jitterExtra.aToB),
  ("jitter_b_to_a_extra", s.jitterExtra.bToA),
  ("loss_pct_a_to_b_extra", s.lossPctExtra.aToB),
  ("loss_pct_b_to_a_extra", s.lossPctExtra.bToA)]

/-- The entries of `_link_to_dict`. -/
def linkEntries (a b : Value) (s : ShapingArgs) : List (String × Value) :=
  ("a", a) :: ("b", b) :: shapingEntries s

/-- `_host_to_dict`. -/
def hostToDict (h : Host) : Value := .dict (hostEntries (hostArgs h.toHost))

/-- `_switch_to_dict`. -/
def switchToDict (s : P4Switch) : Value :=
  .dict (switchEntries { switchArgs s.toP4Switch with p4Src := .str s.p4Src })

/-- `_endpoint_to_dict`. -/
def endpointToDict (ep : LinkEndpoint String) : Value :=
  .dict (endpointEntries (endpointArgs ep.detach.toEndpointFields))

/-- `_link_to_dict`. -/
def linkToDict (link : Link) : Value :=
  .dict (linkEntries (endpointToDict link.a) (endpointToDict link.b)
    (LinkShaping.args link.shaping))

/-- The entries of `Topology.to_dict`. -/
def topologyEntries (hosts switches : List (String × Value)) (links : List Value) :
    List (String × Value) := [
  ("hosts", .dict hosts),
  ("switches", .dict switches),
  ("links", .list links)]

/-- `Topology.to_dict`. -/
def Topology.toDict (t : Topology) : Value :=
  .dict (topologyEntries (t.hosts.entries.map fun e => (e.1, hostToDict e.2))
    (t.switches.entries.map fun e => (e.1, switchToDict e.2)) (t.links.map linkToDict))

/-! ### Reading -/

/-- A host of a snapshot. -/
def readHost (data : Value) : Except Exc Host := do
  let items ← data.asDict .typeError
  let name ← subscript items "name"
  Host.make {
    name
    ip := getItem items "ip"
    mac := getItem items "mac"
    defaultRoute := getItem items "default_route"
    ip6 := getItem items "ip6"
    defaultRoute6 := getItem items "default_route6" }

/-- A switch of a snapshot. -/
def readSwitch (data : Value) : Except Exc P4Switch := do
  let items ← data.asDict .typeError
  let name ← subscript items "name"
  let src ← subscript items "p4_src"
  let p4Src ← orRaise src.asPath .typeError
  P4Switch.make {
    name
    p4Src := .path p4Src
    arch := getItem items "arch" (.str "v1model")
    deviceId := getItem items "device_id"
    grpcPort := getItem items "grpc_port"
    thriftPort := getItem items "thrift_port"
    cpuPort := getItem items "cpu_port"
    logLevel := getItem items "log_level" (.str "info")
    pcapEnabled := getItem items "pcap_enabled" (.bool true) }

/-- An endpoint of a snapshot. -/
def readEndpoint (data : Value) : Except Exc (LinkEndpoint Value) := do
  let items ← data.asDict .typeError
  let node ← subscript items "node"
  LinkEndpoint.make {
    node
    port := getItem items "port"
    ifaceName := getItem items "iface_name"
    ip := getItem items "ip"
    mac := getItem items "mac"
    ip6 := getItem items "ip6" }

/-- The impairments and the MTU of a link of a snapshot. -/
def readShaping (items : List (String × Value)) : ShapingArgs where
  bandwidth := getItem items "bandwidth"
  delay := getItem items "delay"
  jitter := getItem items "jitter"
  lossPct := getItem items "loss_pct"
  mtu := getItem items "mtu"
  bandwidthDir := ⟨getItem items "bandwidth_a_to_b", getItem items "bandwidth_b_to_a"⟩
  delayDir := ⟨getItem items "delay_a_to_b", getItem items "delay_b_to_a"⟩
  jitterDir := ⟨getItem items "jitter_a_to_b", getItem items "jitter_b_to_a"⟩
  lossPctDir := ⟨getItem items "loss_pct_a_to_b", getItem items "loss_pct_b_to_a"⟩
  delayExtra := ⟨getItem items "delay_a_to_b_extra", getItem items "delay_b_to_a_extra"⟩
  jitterExtra := ⟨getItem items "jitter_a_to_b_extra", getItem items "jitter_b_to_a_extra"⟩
  lossPctExtra :=
    ⟨getItem items "loss_pct_a_to_b_extra", getItem items "loss_pct_b_to_a_extra"⟩

/-- A link of a snapshot. -/
def readLink (data : Value) : Except Exc Link := do
  let items ← data.asDict .typeError
  let a ← readEndpoint (← subscript items "a")
  let b ← readEndpoint (← subscript items "b")
  Link.make a b (readShaping items)

/-- An entry of a dictionary of nodes. -/
def readNode {β : Type} (read : Value → Except Exc β) (e : String × Value) :
    Except Exc (String × β) := do
  let node ← read e.2
  return (e.1, node)

/-- `for name, data in items: nodes[name] = read(data)`. -/
def readNodes {β : Type} (read : Value → Except Exc β) (items : List (String × Value)) :
    Except Exc (OrderedDict String β) := do
  let nodes ← items.mapM (readNode read)
  return OrderedDict.ofList nodes

/-- `Topology.from_dict`. -/
def Topology.fromDict (data : Value) : Except Exc Topology := do
  let items ← data.asDict .attributeError
  let hosts ← (getItem items "hosts" (.dict [])).asDict .attributeError
  let hosts ← readNodes readHost hosts
  let switches ← (getItem items "switches" (.dict [])).asDict .attributeError
  let switches ← readNodes readSwitch switches
  let links ← (getItem items "links" (.list [])).iter
  let links ← links.mapM readLink
  return { hosts, switches, links }

/-! ### Shapes -/

/-- The keys of a host of a snapshot. -/
def hostKeys : List String := ["name", "ip", "mac", "default_route", "ip6", "default_route6"]

/-- The keys of a switch of a snapshot. -/
def switchKeys : List String := ["name", "p4_src", "arch", "device_id", "grpc_port",
  "thrift_port", "cpu_port", "log_level", "pcap_enabled"]

/-- The keys of an endpoint of a snapshot. -/
def endpointKeys : List String := ["node", "port", "iface_name", "ip", "mac", "ip6"]

/-- The keys of the impairments and the MTU of a link of a snapshot. -/
def shapingKeys : List String := ["bandwidth", "delay", "jitter", "loss_pct", "mtu",
  "bandwidth_a_to_b", "bandwidth_b_to_a", "delay_a_to_b", "delay_b_to_a", "jitter_a_to_b",
  "jitter_b_to_a", "loss_pct_a_to_b", "loss_pct_b_to_a", "delay_a_to_b_extra",
  "delay_b_to_a_extra", "jitter_a_to_b_extra", "jitter_b_to_a_extra", "loss_pct_a_to_b_extra",
  "loss_pct_b_to_a_extra"]

/-- The keys of a link of a snapshot. -/
def linkKeys : List String := "a" :: "b" :: shapingKeys

/-- The keys of a snapshot. -/
def topologyKeys : List String := ["hosts", "switches", "links"]

theorem hostKeys_nodup : hostKeys.Nodup := by decide

theorem switchKeys_nodup : switchKeys.Nodup := by decide

theorem endpointKeys_nodup : endpointKeys.Nodup := by decide

theorem linkKeys_nodup : linkKeys.Nodup := by decide

theorem topologyKeys_nodup : topologyKeys.Nodup := by decide

@[simp] theorem keys_hostEntries
    (a : HostArgs) :
    (hostEntries a).map Prod.fst = hostKeys := rfl

@[simp] theorem keys_switchEntries
    (a : SwitchArgs) :
    (switchEntries a).map Prod.fst = switchKeys := rfl

@[simp] theorem keys_endpointEntries
    (a : EndpointArgs) :
    (endpointEntries a).map Prod.fst = endpointKeys := rfl

@[simp] theorem keys_linkEntries
    (a b : Value) (s : ShapingArgs) :
    (linkEntries a b s).map Prod.fst = linkKeys := rfl

/-- A dictionary with the keys of a host. -/
def HostShape (v : Value) : Prop :=
  ∃ items, v = .dict items ∧ HasKeys hostKeys items

/-- The source of a switch is a string in the normal form of `pathlib`. -/
def NormalSource (items : List (String × Value)) : Prop :=
  ∃ text, entryLookup "p4_src" items = some (.str text) ∧ normPath text.toList = text.toList

/-- A dictionary with the keys of a switch. -/
def SwitchShape (v : Value) : Prop :=
  ∃ items, v = .dict items ∧ HasKeys switchKeys items ∧ NormalSource items

/-- A dictionary with the keys of an endpoint. -/
def EndpointShape (v : Value) : Prop :=
  ∃ items, v = .dict items ∧ HasKeys endpointKeys items

/-- A dictionary with the keys of a link, whose endpoints have theirs. -/
def LinkShape (v : Value) : Prop :=
  ∃ items, v = .dict items ∧ HasKeys linkKeys items ∧
    ∀ side ∈ ["a", "b"], ∀ ep, entryLookup side items = some ep → EndpointShape ep

/-- A dictionary of nodes. -/
def NodesShape (shape : Value → Prop) (v : Value) : Prop :=
  ∃ items, v = .dict items ∧ (items.map Prod.fst).Nodup ∧ ∀ e ∈ items, shape e.2

/-- A dictionary with exactly the keys that `to_dict` writes, at each level, and a list of
links. -/
def SnapshotShape (v : Value) : Prop :=
  ∃ items, v = .dict items ∧ HasKeys topologyKeys items ∧
    (∀ hosts, entryLookup "hosts" items = some hosts → NodesShape HostShape hosts) ∧
    (∀ switches, entryLookup "switches" items = some switches →
      NodesShape SwitchShape switches) ∧
    ∀ links, entryLookup "links" items = some links →
      ∃ values, links = .list values ∧ ∀ link ∈ values, LinkShape link

/-! ### Fields -/

theorem readHost_eq_ok_iff
    {items : List (String × Value)}
    (hkeys : HasKeys hostKeys items) (h : Host) :
    readHost (.dict items) = .ok h ↔ HasEntries items (hostEntries (hostArgs h.toHost)) := by
  have hget := getItem_eq_iff hkeys.mem
  simp only [hostKeys, List.mem_cons, List.not_mem_nil, or_false, forall_eq_or_imp,
    forall_eq] at hget
  generalize ha : hostArgs h.toHost = a
  rcases a with ⟨name, ip, mac, route, ip6, route6⟩
  simp [readHost, bind_eq_ok_iff, Host.make_eq_ok_iff, ha, HasEntries, hostEntries, hget]

/-- Texts in normal form are the same path only if they are equal. -/
theorem ofText_eq_iff
    {a b : String}
    (ha : normPath a.toList = a.toList) (hb : normPath b.toList = b.toList) :
    Path.ofText a.toList = Path.ofText b.toList ↔ a = b := by
  constructor
  · intro h
    have htext := congrArg Path.text h
    rw [Path.ofText_toList ha, Path.ofText_toList hb] at htext
    exact String.toList_injective htext
  · rintro rfl
    rfl

theorem readSwitch_eq_ok_iff
    {items : List (String × Value)}
    (hkeys : HasKeys switchKeys items) (hnormal : NormalSource items)
    (s : P4Switch) :
    readSwitch (.dict items) = .ok s ↔
      HasEntries items (switchEntries { switchArgs s.toP4Switch with p4Src := .str s.p4Src }) := by
  have hget := getItem_eq_iff hkeys.mem
  simp only [switchKeys, List.mem_cons, List.not_mem_nil, or_false, forall_eq_or_imp,
    forall_eq] at hget
  obtain ⟨text, htext, hnorm⟩ := hnormal
  have hpath := ofText_eq_iff hnorm s.ok.normal
  simp [readSwitch, bind_eq_ok_iff, P4Switch.make_eq_ok_iff, HasEntries, switchEntries, hget,
    switchArgs, htext, Value.asPath, hpath]

theorem readEndpoint_eq_ok_iff
    {items : List (String × Value)}
    (hkeys : HasKeys endpointKeys items) (ep : LinkEndpoint Value) :
    readEndpoint (.dict items) = .ok ep ↔
      HasEntries items (endpointEntries (endpointArgs ep.toEndpointFields)) := by
  have hget := getItem_eq_iff hkeys.mem
  simp only [endpointKeys, List.mem_cons, List.not_mem_nil, or_false, forall_eq_or_imp,
    forall_eq] at hget
  generalize ha : endpointArgs ep.toEndpointFields = a
  rcases a with ⟨node, port, ifaceName, ip, mac, ip6⟩
  simp [readEndpoint, bind_eq_ok_iff, LinkEndpoint.make_eq_ok_iff, ha, HasEntries, endpointEntries,
    hget]

theorem readShaping_eq_iff
    {items : List (String × Value)}
    (hkeys : ∀ key ∈ shapingKeys, key ∈ items.map Prod.fst) (s : ShapingArgs) :
    readShaping items = s ↔ HasEntries items (shapingEntries s) := by
  have hget := getItem_eq_iff hkeys
  simp only [shapingKeys, List.mem_cons, List.not_mem_nil, or_false, forall_eq_or_imp,
    forall_eq] at hget
  rcases s with ⟨bandwidth, delay, jitter, loss, mtu, ⟨b1, b2⟩, ⟨d1, d2⟩, ⟨j1, j2⟩, ⟨l1, l2⟩,
    ⟨dx1, dx2⟩, ⟨jx1, jx2⟩, ⟨lx1, lx2⟩⟩
  simp [readShaping, HasEntries, shapingEntries, hget, and_assoc]

theorem readLink_eq_ok_iff
    {items : List (String × Value)}
    (hkeys : HasKeys linkKeys items) (link : Link) :
    readLink (.dict items) = .ok link ↔
      (∃ a, entryLookup "a" items = some a ∧ readEndpoint a = .ok link.a.detach) ∧
      (∃ b, entryLookup "b" items = some b ∧ readEndpoint b = .ok link.b.detach) ∧
      HasEntries items (shapingEntries (LinkShaping.args link.shaping)) := by
  have hshaping := readShaping_eq_iff
    (fun key hkey => hkeys.mem key (List.mem_cons_of_mem _ (List.mem_cons_of_mem _ hkey)))
    (LinkShaping.args link.shaping)
  simp only [readLink, bind_eq_ok_iff, asDict_eq_ok_iff, subscript_eq_ok_iff,
    Link.make_eq_ok_iff, ← hshaping]
  constructor
  · rintro ⟨_, hitems, va, hva, a, ha, vb, hvb, b, hb, rfl, rfl, hs⟩
    cases hitems
    exact ⟨⟨va, hva, ha⟩, ⟨vb, hvb, hb⟩, hs⟩
  · rintro ⟨⟨va, hva, ha⟩, ⟨vb, hvb, hb⟩, hs⟩
    exact ⟨items, rfl, va, hva, _, ha, vb, hvb, _, hb, rfl, rfl, hs⟩

/-! ### Collections -/

theorem readNode_eq_ok_iff
    {β : Type} (read : Value → Except Exc β) (e : String × Value) (f : String × β) :
    readNode read e = .ok f ↔ e.1 = f.1 ∧ read e.2 = .ok f.2 := by
  rw [readNode, bind_eq_ok_iff]
  constructor
  · rintro ⟨node, hnode, h⟩
    cases h
    exact ⟨rfl, hnode⟩
  · rintro ⟨hname, hnode⟩
    exact ⟨f.2, hnode, congrArg Except.ok (Prod.ext hname rfl)⟩

/-- Nodes under distinct names are read in order. -/
theorem readNodes_eq_ok_iff
    {β : Type} (read : Value → Except Exc β) {items : List (String × Value)}
    (hnodup : (items.map Prod.fst).Nodup) (d : OrderedDict String β) :
    readNodes read items = .ok d ↔
      List.Forall₂ (fun e f => e.1 = f.1 ∧ read e.2 = .ok f.2) items d.entries := by
  have hkeys : ∀ {nodes : List (String × β)},
      List.Forall₂ (fun e f => e.1 = f.1 ∧ read e.2 = .ok f.2) items nodes →
        items.map Prod.fst = nodes.map Prod.fst := by
    intro nodes h
    rw [← List.forall₂_eq_eq_eq, List.forall₂_map_left_iff, List.forall₂_map_right_iff]
    exact h.imp fun _ _ h => h.1
  simp only [readNodes, bind_eq_ok_iff, mapM_eq_ok_iff, readNode_eq_ok_iff, pure, Except.pure,
    Except.ok.injEq]
  constructor
  · rintro ⟨nodes, hnodes, rfl⟩
    rwa [OrderedDict.ofList_entries (hkeys hnodes ▸ hnodup)]
  · intro h
    exact ⟨d.entries, h, OrderedDict.ext (OrderedDict.ofList_entries d.nodup)⟩

/-! ### The round trip of a topology -/

theorem readHost_hostToDict
    (h : Host) :
    readHost (hostToDict h) = .ok h :=
  (readHost_eq_ok_iff (.of_eq (keys_hostEntries _)) h).mpr (hasEntries_self rfl hostKeys_nodup)

theorem readSwitch_switchToDict
    (s : P4Switch) :
    readSwitch (switchToDict s) = .ok s :=
  (readSwitch_eq_ok_iff (.of_eq (keys_switchEntries _)) ⟨s.p4Src, rfl, s.ok.normal⟩ s).mpr
    (hasEntries_self rfl switchKeys_nodup)

theorem readEndpoint_endpointToDict
    (ep : LinkEndpoint String) :
    readEndpoint (endpointToDict ep) = .ok ep.detach :=
  (readEndpoint_eq_ok_iff (.of_eq (keys_endpointEntries _)) ep.detach).mpr
    (hasEntries_self rfl endpointKeys_nodup)

theorem readLink_linkToDict
    (link : Link) :
    readLink (linkToDict link) = .ok link := by
  have hself := hasEntries_self (keys_linkEntries (endpointToDict link.a) (endpointToDict link.b)
    (LinkShaping.args link.shaping)) linkKeys_nodup
  refine (readLink_eq_ok_iff (.of_eq (keys_linkEntries ..)) link).mpr
    ⟨⟨endpointToDict link.a, rfl, readEndpoint_endpointToDict link.a⟩,
      ⟨endpointToDict link.b, rfl, readEndpoint_endpointToDict link.b⟩, fun e he => hself e ?_⟩
  exact List.mem_cons_of_mem _ (List.mem_cons_of_mem _ he)

/-- Nodes are read back from what was written of them. -/
theorem readNodes_mapped
    {β : Type} {read : Value → Except Exc β} {write : β → Value}
    (h : ∀ b, read (write b) = .ok b) (d : OrderedDict String β) :
    readNodes read (d.entries.map fun e => (e.1, write e.2)) = .ok d := by
  have hnodup : ((d.entries.map fun e => (e.1, write e.2)).map Prod.fst).Nodup := by
    rw [List.map_map]
    exact d.nodup
  rw [readNodes_eq_ok_iff read hnodup, List.forall₂_map_left_iff, List.forall₂_same]
  exact fun e _ => ⟨rfl, h e.2⟩

theorem fromDict_toDict
    (t : Topology) :
    Topology.fromDict t.toDict = .ok t := by
  have hlinks : (t.links.map linkToDict).mapM readLink = .ok t.links := by
    rw [mapM_eq_ok_iff, List.forall₂_map_left_iff, List.forall₂_same]
    exact fun link _ => readLink_linkToDict link
  have hhosts := readNodes_mapped readHost_hostToDict t.hosts
  have hswitches := readNodes_mapped readSwitch_switchToDict t.switches
  simp [Topology.fromDict, Topology.toDict, topologyEntries, getItem, entryLookup,
    bind_eq_ok_iff, Value.iter, hhosts, hswitches, hlinks, pure, Except.pure]

/-! ### The round trip of a snapshot -/

theorem same_host
    {v : Value} {h : Host}
    (hshape : HostShape v) (hread : readHost v = .ok h) :
    Same (hostToDict h) v := by
  obtain ⟨items, rfl, hkeys⟩ := hshape
  have hholds := (readHost_eq_ok_iff hkeys h).mp hread
  exact same_of_covers hkeys hostKeys_nodup hholds.covers

theorem same_switch
    {v : Value} {s : P4Switch}
    (hshape : SwitchShape v) (hread : readSwitch v = .ok s) :
    Same (switchToDict s) v := by
  obtain ⟨items, rfl, hkeys, hnormal⟩ := hshape
  have hholds := (readSwitch_eq_ok_iff hkeys hnormal s).mp hread
  exact same_of_covers hkeys switchKeys_nodup hholds.covers

theorem same_endpoint
    {v : Value} {ep : LinkEndpoint String}
    (hshape : EndpointShape v) (hread : readEndpoint v = .ok ep.detach) :
    Same (endpointToDict ep) v := by
  obtain ⟨items, rfl, hkeys⟩ := hshape
  have hholds := (readEndpoint_eq_ok_iff hkeys ep.detach).mp hread
  exact same_of_covers hkeys endpointKeys_nodup hholds.covers

theorem same_link
    {v : Value} {link : Link}
    (hshape : LinkShape v) (hread : readLink v = .ok link) :
    Same (linkToDict link) v := by
  obtain ⟨items, rfl, hkeys, hends⟩ := hshape
  obtain ⟨⟨a, ha, hreadA⟩, ⟨b, hb, hreadB⟩, hholds⟩ := (readLink_eq_ok_iff hkeys link).mp hread
  refine same_of_covers hkeys linkKeys_nodup fun e he => ?_
  rcases List.mem_cons.mp he with rfl | he
  · exact ⟨a, ha, same_endpoint (hends "a" (by simp) a ha) hreadA⟩
  · rcases List.mem_cons.mp he with rfl | he
    · exact ⟨b, hb, same_endpoint (hends "b" (by simp) b hb) hreadB⟩
    · exact hholds.covers e he

theorem entryLookup_rel
    {xs ys : List (String × Value)}
    (h : List.Forall₂ (fun e f => e.1 = f.1 ∧ Same e.2 f.2) xs ys) (key : String) :
    Option.Rel Same (entryLookup key xs) (entryLookup key ys) := by
  induction h with
  | nil => exact .none
  | @cons e f _ _ hef _ ih =>
      by_cases hkey : f.1 = key
      · simpa [entryLookup, hef.1, hkey] using Option.Rel.some hef.2
      · simpa [entryLookup, hef.1, hkey] using ih

/-- Nodes are the same as those that they were read from. -/
theorem same_nodes
    {β : Type} {shape : Value → Prop} {read : Value → Except Exc β} {write : β → Value}
    (hsame : ∀ {v b}, shape v → read v = .ok b → Same (write b) v)
    {items : List (String × Value)} {d : OrderedDict String β}
    (hshape : NodesShape shape (.dict items)) (hread : readNodes read items = .ok d) :
    Same (.dict (d.entries.map fun e => (e.1, write e.2))) (.dict items) := by
  obtain ⟨_, hitems, hnodup, hall⟩ := hshape
  cases hitems
  have hnodes := (readNodes_eq_ok_iff read hnodup d).mp hread
  have hrel : List.Forall₂ (fun e f => f.1 = e.1 ∧ Same (write f.2) e.2) items d.entries :=
    ((List.forall₂_and_left _ _).mpr ⟨hall, hnodes⟩).imp fun e f h => ⟨h.2.1.symm, hsame h.1 h.2.2⟩
  refine .dict ?_ hnodup fun key => entryLookup_rel ?_ key
  · rw [List.map_map]
    exact d.nodup
  · rw [List.forall₂_map_left_iff]
    exact hrel.flip

theorem same_of_fromDict
    {v : Value} {t : Topology}
    (hshape : SnapshotShape v) (hread : Topology.fromDict v = .ok t) :
    Same t.toDict v := by
  obtain ⟨items, rfl, hkeys, hhosts, hswitches, hlinks⟩ := hshape
  simp only [Topology.fromDict, bind_eq_ok_iff, asDict_eq_ok_iff, pure, Except.pure,
    mapM_eq_ok_iff] at hread
  rcases hread with ⟨_, hitems, hosts, hh, hostNodes, hreadH, switches, hs, switchNodes, hreadS,
    links, hl, linkNodes, hreadL, ht⟩
  cases hitems
  cases ht
  have hget := getItem_eq_iff hkeys.mem
  have hh := (hget "hosts" (by decide) _ _).mp hh
  have hs := (hget "switches" (by decide) _ _).mp hs
  obtain ⟨l, hlookup⟩ := Option.isSome_iff_exists.mp
    ((entryLookup_isSome_iff "links" items).mpr (hkeys.mem _ (by decide)))
  obtain ⟨values, rfl, hall⟩ := hlinks l hlookup
  rw [(hget "links" (by decide) _ _).mpr hlookup, Value.iter, Except.ok.injEq] at hl
  subst hl
  refine same_of_covers hkeys topologyKeys_nodup fun e he => ?_
  rcases List.mem_cons.mp he with rfl | he
  · exact ⟨_, hh, same_nodes same_host (hhosts _ hh) hreadH⟩
  rcases List.mem_cons.mp he with rfl | he
  · exact ⟨_, hs, same_nodes same_switch (hswitches _ hs) hreadS⟩
  · rw [List.mem_singleton] at he
    subst he
    refine ⟨_, hlookup, .list ?_⟩
    rw [List.forall₂_map_left_iff]
    have hrel : List.Forall₂ (fun v link => Same (linkToDict link) v) values linkNodes :=
      ((List.forall₂_and_left _ _).mpr ⟨hall, hreadL⟩).imp fun _ _ h => same_link h.1 h.2
    exact hrel.flip

/-! ### Results -/

/--
Both round trips.  A topology is restored from what is written of it, and a snapshot with
exactly the keys that are written, at each level, is written again as it was read.
-/
theorem snapshots_round_trip :
    (∀ t : Topology, Topology.fromDict t.toDict = .ok t) ∧
      ∀ (v : Value) (t : Topology), SnapshotShape v → Topology.fromDict v = .ok t →
        Same t.toDict v :=
  ⟨fromDict_toDict, fun _ _ => same_of_fromDict⟩

/-- A snapshot of a host at a switch, with the keys of every dictionary in reverse. -/
def reordered : Value := .dict [
  ("links", .list [.dict (linkEntries
    (.dict (endpointEntries { node := .str "h1", ip := .str "10.0.0.1/24" }).reverse)
    (.dict (endpointEntries { node := .str "s1", port := .int 1 }).reverse)
    { unshaped with bandwidth := .str "10mbit", delay := .str "5ms" }).reverse]),
  ("switches", .dict [("s1", .dict (switchEntries
    { name := .str "s1", p4Src := .str "p4/basic.p4", cpuPort := .int 255 }).reverse)]),
  ("hosts", .dict [("h1", .dict (hostEntries
    { name := .str "h1", ip := .str "10.0.0.1/24" }).reverse)])]

theorem hasKeys_reverse
    {keys : List String} {entries : List (String × Value)} (h : entries.map Prod.fst = keys) :
    HasKeys keys entries.reverse :=
  ((List.reverse_perm entries).map Prod.fst).trans (.of_eq h)

theorem snapshotShape_reordered :
    SnapshotShape reordered := by
  have hends : ∀ a : EndpointArgs, EndpointShape (.dict (endpointEntries a).reverse) :=
    fun a => ⟨_, rfl, hasKeys_reverse (keys_endpointEntries a)⟩
  refine ⟨_, rfl, by decide, ?_, ?_, ?_⟩
  · rintro _ ⟨⟩
    refine ⟨_, rfl, by decide, ?_⟩
    simp only [List.mem_singleton, forall_eq]
    exact ⟨_, rfl, hasKeys_reverse (keys_hostEntries _)⟩
  · rintro _ ⟨⟩
    refine ⟨_, rfl, by decide, ?_⟩
    simp only [List.mem_singleton, forall_eq]
    exact ⟨_, rfl, hasKeys_reverse (keys_switchEntries _), "p4/basic.p4", rfl, by decide⟩
  · rintro _ ⟨⟩
    refine ⟨_, rfl, ?_⟩
    simp only [List.mem_singleton, forall_eq]
    refine ⟨_, rfl, hasKeys_reverse (keys_linkEntries ..), ?_⟩
    intro side hside ep hep
    simp only [List.mem_cons, List.not_mem_nil, or_false] at hside
    rcases hside with rfl | rfl
    · obtain rfl := Option.some.inj hep
      exact hends _
    · obtain rfl := Option.some.inj hep
      exact hends _

theorem snapshots_round_trip_reordered :
    ∃ t, Topology.fromDict reordered = .ok t ∧ t.links.length = 1 ∧ Same t.toDict reordered := by
  obtain ⟨t, ht, hlinks⟩ : ∃ t, Topology.fromDict reordered = .ok t ∧ t.links.length = 1 :=
    ⟨_, rfl, rfl⟩
  exact ⟨t, ht, hlinks, snapshots_round_trip.2 reordered t snapshotShape_reordered ht⟩

/-- An empty snapshot with another key. -/
def annotated : List (String × Value) :=
  topologyEntries [] [] [] ++ [("comment", .str "")]

/-- An empty snapshot with a dictionary of links. -/
def dictOfLinks : List (String × Value) :=
  [("hosts", .dict []), ("switches", .dict []), ("links", .dict [])]

/-- Snapshots with all keys are accepted, and not written again as they were read. -/
theorem snapshots_not_restored :
    (∀ key ∈ topologyKeys, key ∈ annotated.map Prod.fst) ∧
      Topology.fromDict (.dict annotated) = .ok {} ∧
      ¬ Same (Topology.toDict {}) (.dict annotated) ∧
      dictOfLinks.map Prod.fst = topologyKeys ∧
      Topology.fromDict (.dict dictOfLinks) = .ok {} ∧
      ¬ Same (Topology.toDict {}) (.dict dictOfLinks) := by
  refine ⟨by decide, rfl, fun h => ?_, rfl, rfl, fun h => ?_⟩
  · cases h with
    | number hv _ => cases hv
    | dict _ _ hrel => cases hrel "comment"
  · cases h with
    | number hv _ => cases hv
    | dict _ _ hrel =>
        cases hrel "links" with
        | some hsame =>
            cases hsame with
            | number hv _ => cases hv

end Topo
end P4Net
