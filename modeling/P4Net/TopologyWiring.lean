import P4Net.NetworkStartup
import P4Net.ValidTopologies

/-!
# Wiring a validated topology

The network model reads a topology through `Topology.toNetwork`.  For a valid topology,

* `resolveLink_of_valid` : the lookups and the assertions of `_wire_link` succeed, and
  `VethPair` accepts the interfaces (`vethPair_of_valid`);
* `placements_of_valid` : all interfaces are distinct in their final namespaces;
* `portsWired_of_valid` : both port maps of a switch are those of its endpoints.
-/

namespace P4Net
namespace Topo

open TextLiterals

/-! ### The description that the network reads -/

/-- An impairment argument, of which the network model reads whether it is `None` and
whether it is empty. -/
def Value.shown : Value → Option String
  | .none => Option.none
  | .str s => some s
  | v => some (if v.truthy then "True" else "")

/-- An endpoint, for the network. -/
def LinkEndpoint.toNetwork (ep : LinkEndpoint String) : Network.LinkEndpoint where
  node := ep.node
  port := ep.port
  ifaceName := ep.ifaceName.asStr
  ip := ep.ip
  mac := ep.mac
  ip6 := ep.ip6

/-- The impairments of a direction, for the network. -/
def LinkShaping.direction (s : LinkShaping) (d : Direction) : Network.Impairment where
  bandwidth := (s.bandwidthDir.get d).shown
  delay := (s.delayDir.get d).shown
  delayExtra := (s.delayExtra.get d).shown
  jitter := (s.jitterDir.get d).shown
  jitterExtra := (s.jitterExtra.get d).shown
  lossPct := (s.lossPctDir.get d).map fun x => toString x.value
  lossPctExtra := (s.lossPctExtra.get d).map fun x => toString x.value

/-- The symmetric impairments, for the network. -/
def LinkShaping.symmetric (s : LinkShaping) : Network.Impairment where
  bandwidth := s.bandwidth.shown
  delay := s.delay.shown
  jitter := s.jitter.shown
  lossPct := s.lossPct.map fun x => toString x.value

/-- A link, for the network. -/
def Link.toNetwork (link : Link) : Network.Link where
  a := link.a.toNetwork
  b := link.b.toNetwork
  symmetric := LinkShaping.symmetric link.shaping
  aToB := LinkShaping.direction link.shaping .aToB
  bToA := LinkShaping.direction link.shaping .bToA
  mtu := link.shaping.mtu

/-- A topology, for the network. -/
def Topology.toNetwork (t : Topology) : Network.Topology where
  hosts := t.hosts.mapValues Host.toHost
  switches := t.switches.mapValues P4Switch.toP4Switch
  links := t.links.map Link.toNetwork

@[simp] theorem links_toNetwork
    (t : Topology) :
    t.toNetwork.links = t.links.map Link.toNetwork := rfl

/-- The `ValueError` of `VethPair.__init__`. -/
inductive VethError where
  | ifname (e : IfnameError)
  | sameName
deriving DecidableEq, Repr

/-- `VethPair.__init__`. -/
def vethPairInit (nameA nameB : String) (namespaceA namespaceB : Option String) :
    Except VethError Network.VethPair := do
  (validateIfname nameA).mapError .ifname
  (validateIfname nameB).mapError .ifname
  check (¬ (nameA = nameB ∧ namespaceA = namespaceB)) .sameName
  return ⟨nameA, nameB, namespaceA, namespaceB⟩

/-! ### Nodes and interfaces -/

/-- An endpoint of a valid topology is at a node, in the namespace that was validated. -/
theorem node_of_valid
    {t : Topology} (v : Valid t) {ep : LinkEndpoint String} (hep : ep ∈ t.endpoints) :
    ∃ node, t.toNetwork.node ep.node = some node ∧ scopeOf t ep.node = some node.netns := by
  unfold Network.Topology.node scopeOf
  simp only [Topology.toNetwork, OrderedDict.get?_mapValues]
  cases hhost : t.hosts.get? ep.node with
  | some host =>
      have hname : ep.node = host.name :=
        v.hostKeys _ ((OrderedDict.get?_eq_some_iff _ _ _).mp hhost)
      have hmem := OrderedDict.mem_keys_of_get? hhost
      exact ⟨.host host.toHost, rfl, by rw [if_pos hmem, hname]; rfl⟩
  | none =>
      have hnot := (t.hosts.get?_eq_none_iff ep.node).mp hhost
      have hswitch := (v.known ep hep).resolve_left hnot
      obtain ⟨s, hs⟩ := Option.isSome_iff_exists.mp ((t.switches.get?_isSome_iff _).mpr hswitch)
      exact ⟨.switch s.toP4Switch, by simp [hs], by rw [if_neg hnot, if_pos hswitch]; rfl⟩

theorem mem_endpoints_of_link
    {t : Topology} {link : Link} {ep : LinkEndpoint String}
    (hlink : link ∈ t.links) (hep : ep ∈ link.endpoints) :
    ep ∈ t.endpoints :=
  List.mem_flatMap.mpr ⟨link, hlink, hep⟩

/-- What an endpoint is resolved to: the name of its interface and its node. -/
structure Placement (t : Topology) (ep : LinkEndpoint String) (end' : String × Network.Node) :
    Prop where
  node : t.toNetwork.node ep.node = some end'.2
  iface : ep.ifaceName = .str end'.1
  key : ifaceKey t ep = some (end'.2.netns, end'.1)
  valid : validateIfname end'.1 = .ok ()
  notLo : end'.1 ≠ "lo"

theorem placement_of_valid
    {t : Topology} (v : Valid t) {ep : LinkEndpoint String} (hep : ep ∈ t.endpoints) :
    ∃ end', Placement t ep end' := by
  obtain ⟨node, hnode, hscope⟩ := node_of_valid v hep
  obtain ⟨name, hname, hvalid, hlo⟩ := v.named ep hep
  exact ⟨(name, node), hnode, hname, by simp [ifaceKey, hname, hscope, Value.asStr], hvalid, hlo⟩

theorem Placement.toNetwork_ifaceName
    {t : Topology} {ep : LinkEndpoint String} {end' : String × Network.Node}
    (h : Placement t ep end') :
    ep.toNetwork.ifaceName = some end'.1 := by
  simp [LinkEndpoint.toNetwork, h.iface, Value.asStr]

/-- The lookups and the assertions of `_wire_link` succeed. -/
theorem resolveLink_of_valid
    {t : Topology} (v : Valid t) {link : Link} (hlink : link ∈ t.links) :
    ∃ a b, Network.resolveLink t.toNetwork link.toNetwork = .ok (a, b) ∧
      Placement t link.a a ∧ Placement t link.b b := by
  obtain ⟨a, ha⟩ :=
    placement_of_valid v (mem_endpoints_of_link hlink (by simp [Link.endpoints] : link.a ∈ _))
  obtain ⟨b, hb⟩ :=
    placement_of_valid v (mem_endpoints_of_link hlink (by simp [Link.endpoints] : link.b ∈ _))
  have hnodeA : t.toNetwork.node link.toNetwork.a.node = some a.2 := ha.node
  have hnodeB : t.toNetwork.node link.toNetwork.b.node = some b.2 := hb.node
  have hifaceA : link.toNetwork.a.ifaceName = some a.1 := ha.toNetwork_ifaceName
  have hifaceB : link.toNetwork.b.ifaceName = some b.1 := hb.toNetwork_ifaceName
  exact ⟨a, b, by simp [Network.resolveLink, hifaceA, hifaceB, hnodeA, hnodeB], ha, hb⟩

/-- The interfaces of one link are distinct. -/
theorem link_interfaces_nodup
    {t : Topology} (v : Valid t) {link : Link} (hlink : link ∈ t.links) :
    (link.endpoints.filterMap (ifaceKey t)).Nodup := by
  have h := v.interfaces
  rw [Topology.endpoints, List.filterMap_flatMap, List.nodup_flatMap] at h
  exact h.1 link hlink

/-- `VethPair` accepts the two interfaces of a link. -/
theorem vethPair_of_valid
    {t : Topology} (v : Valid t) {link : Link} (hlink : link ∈ t.links)
    {a b : String × Network.Node} (ha : Placement t link.a a) (hb : Placement t link.b b) :
    vethPairInit a.1 b.1 a.2.netns b.2.netns = .ok (Network.vethBetween a b) := by
  have hne : ¬ (a.1 = b.1 ∧ a.2.netns = b.2.netns) := by
    rintro ⟨hname, hscope⟩
    have h := link_interfaces_nodup v hlink
    simp [Link.endpoints, ha.key, hb.key, hname, hscope] at h
  simp [vethPairInit, ha.valid, hb.valid, hne, check, bind, Except.bind, pure, Except.pure,
    Except.mapError, Network.vethBetween]

/-- The final namespace and the name of both interfaces of a link. -/
def linkPlacements (n : Network.Topology) (link : Network.Link) : List (Option String × String) :=
  match Network.resolveLink n link with
  | .ok (a, b) => [(a.2.netns, a.1), (b.2.netns, b.1)]
  | .error _ => []

/-- All interfaces that wiring creates, by their final namespace and their name. -/
def placements (n : Network.Topology) : List (Option String × String) :=
  n.links.flatMap (linkPlacements n)

/-- Wiring creates the interfaces that validation has looked at. -/
theorem placements_of_valid
    {t : Topology} (v : Valid t) :
    placements t.toNetwork = t.endpoints.filterMap (ifaceKey t) := by
  rw [placements, links_toNetwork, List.flatMap_map, Topology.endpoints, List.filterMap_flatMap]
  refine List.flatMap_congr fun link hlink => ?_
  obtain ⟨a, b, hresolve, ha, hb⟩ := resolveLink_of_valid v hlink
  have hresolve' : linkPlacements t.toNetwork link.toNetwork =
      [(a.2.netns, a.1), (b.2.netns, b.1)] := by
    simp [linkPlacements, hresolve]
  exact hresolve'.trans (by simp [Link.endpoints, ha.key, hb.key])

/-! ### Port maps -/

/-- The endpoints of all links, each with the opposite one. -/
def ends (t : Topology) : List (LinkEndpoint String × LinkEndpoint String) :=
  t.links.flatMap fun link => [(link.a, link.b), (link.b, link.a)]

/-- The endpoints at a node, each with the opposite one. -/
def attached (t : Topology) (node : String) :
    List (LinkEndpoint String × LinkEndpoint String) :=
  (ends t).filter fun e => e.1.node = node

theorem map_fst_ends
    (t : Topology) :
    (ends t).map Prod.fst = t.endpoints := by
  simp [ends, Topology.endpoints, List.map_flatMap]
  rfl

theorem mem_endpoints_of_attached
    {t : Topology} {node : String} {e : LinkEndpoint String × LinkEndpoint String}
    (h : e ∈ attached t node) :
    e.1 ∈ t.endpoints ∧ e.1.node = node := by
  rcases List.mem_filter.mp h with ⟨hmem, hnode⟩
  exact ⟨map_fst_ends t ▸ List.mem_map_of_mem hmem, of_decide_eq_true hnode⟩

/-- The ports at a node are distinct. -/
theorem ports_nodup
    {t : Topology} (v : Valid t) (node : String) :
    ((attached t node).filterMap fun e => e.1.port).Nodup := by
  have hsub : ((attached t node).filterMap fun e => portKey e.1).Nodup := by
    have h := v.ports
    rw [← map_fst_ends, List.filterMap_map] at h
    exact h.sublist ((List.filter_sublist ..).filterMap _)
  refine List.Nodup.of_map (fun port => (node, port)) ?_
  rw [List.map_filterMap]
  refine (List.filterMap_congr fun e he => ?_) ▸ hsub
  have hnode := (mem_endpoints_of_attached he).2
  cases hport : e.1.port <;> simp [portKey, hport, hnode]

/-- The entry of an endpoint in `_port_to_iface_for`. -/
def ifaceEntry (ep : LinkEndpoint String) : Option (Nat × String) :=
  ep.port.bind fun port => ep.ifaceName.asStr.map fun iface => (port, iface)

/-- The loop of `_port_to_iface_for` sets the interfaces at the switch. -/
theorem portToIfaceFor_entries
    {t : Topology} (v : Valid t) (switchName : String) :
    (Network.portToIfaceFor t.toNetwork switchName).entries =
      (attached t switchName).filterMap fun e => ifaceEntry e.1 := by
  have hfilter : ∀ l : List (LinkEndpoint String × LinkEndpoint String),
      (l.map Prod.fst).filterMap
          (fun ep => if ep.node = switchName then ifaceEntry ep else none) =
        (l.filter fun e => e.1.node = switchName).filterMap fun e => ifaceEntry e.1 := by
    intro l
    induction l with
    | nil => rfl
    | cons e rest ih =>
        by_cases hnode : e.1.node = switchName
        · cases hentry : ifaceEntry e.1 <;> simp [hnode, hentry, ← ih]
        · simp [hnode, ← ih]
  have hentries := hfilter (ends t)
  rw [map_fst_ends] at hentries
  rw [attached, ← hentries]
  have hports : ((t.endpoints.filterMap
      fun ep => if ep.node = switchName then ifaceEntry ep else none).map Prod.fst).Nodup := by
    rw [hentries, List.map_filterMap]
    refine (List.filterMap_congr fun e he => ?_) ▸ ports_nodup v switchName
    obtain ⟨name, hname, _⟩ := v.named e.1 (mem_endpoints_of_attached he).1
    cases hport : e.1.port <;> simp [ifaceEntry, hport, hname, Value.asStr]
  rw [← OrderedDict.foldl_setEntry_entries _ _ hports, Topology.endpoints, List.foldl_flatMap]
  unfold Network.portToIfaceFor
  rw [links_toNetwork, List.foldl_map]
  congr 2
  funext d link
  change List.foldl _ d ([link.a, link.b].map LinkEndpoint.toNetwork) = _
  rw [List.foldl_map]
  refine List.foldl_ext _ _ d fun d ep _ => ?_
  by_cases hnode : ep.node = switchName <;> cases hport : ep.port <;>
    cases hname : ep.ifaceName.asStr <;>
      simp [LinkEndpoint.toNetwork, ifaceEntry, OrderedDict.setEntry, hnode, hport, hname]

/-- The entry of a link in `port_assignments`. -/
def farEntry (switchName : String) (link : Link) : Option (Nat × LinkEndpoint String) :=
  match portAt switchName link.a with
  | some port => some (port, link.b)
  | none => (portAt switchName link.b).map fun port => (port, link.a)

/-- The loop of `port_assignments` sets the opposite endpoints at the switch. -/
theorem portAssignments_entries
    {t : Topology} (v : Valid t) {switchName : String} (hswitch : switchName ∈ t.switches.keys) :
    ∃ d, portAssignments t switchName = .ok d ∧
      d.entries = (attached t switchName).filterMap fun e => e.1.port.map fun port => (port, e.2) := by
  have hlinks : t.links.filterMap (farEntry switchName) =
      (attached t switchName).filterMap fun e => e.1.port.map fun port => (port, e.2) := by
    have hself := v.noSelf
    have hported : ∀ link ∈ t.links, link.a.port.isSome ∧ link.b.port.isSome := fun link hlink =>
      ⟨v.ported _ (mem_endpoints_of_link hlink (by simp [Link.endpoints])),
        v.ported _ (mem_endpoints_of_link hlink (by simp [Link.endpoints]))⟩
    rw [attached, ends]
    generalize t.links = links at hself hported
    induction links with
    | nil => rfl
    | cons link rest ih =>
        have hne := hself link (List.mem_cons_self ..)
        obtain ⟨hpa, hpb⟩ := hported link (List.mem_cons_self ..)
        obtain ⟨pa, hpa⟩ := Option.isSome_iff_exists.mp hpa
        obtain ⟨pb, hpb⟩ := Option.isSome_iff_exists.mp hpb
        have hrest := ih (fun l hl => hself l (List.mem_cons_of_mem _ hl))
          fun l hl => hported l (List.mem_cons_of_mem _ hl)
        -- The two endpoints are at different nodes, so at most one of them is at the switch.
        by_cases ha : link.a.node = switchName
        · have hb : link.b.node ≠ switchName := fun hb => hne (ha.trans hb.symm)
          simp [farEntry, portAt, ha, hb, hpa, hrest]
        · by_cases hb : link.b.node = switchName <;>
            simp [farEntry, portAt, ha, hb, hpb, hrest]
  have hports : ((t.links.filterMap (farEntry switchName)).map Prod.fst).Nodup := by
    rw [hlinks, List.map_filterMap]
    refine (List.filterMap_congr fun e _ => ?_) ▸ ports_nodup v switchName
    cases hport : e.1.port <;> simp
  refine ⟨_, if_neg (not_not.mpr hswitch), ?_⟩
  rw [← hlinks, ← OrderedDict.foldl_setEntry_entries _ _ hports]
  congr 2
  funext d link
  cases ha : portAt switchName link.a <;> cases hb : portAt switchName link.b <;>
    simp [farEntry, OrderedDict.setEntry, ha, hb]

/-! ### Wiring -/

/-- The port maps of a switch: each of its endpoints has a port of its own, which is a data
port other than the CPU port, and both maps have exactly these ports as their keys. -/
structure PortsWired (t : Topology) (switchName : String) : Prop where
  distinct : ((attached t switchName).map fun e => e.1.port).Nodup
  ifaceKeys : (Network.portToIfaceFor t.toNetwork switchName).keys.map some =
    (attached t switchName).map fun e => e.1.port
  ports : ∃ assignments, portAssignments t switchName = .ok assignments ∧
    assignments.keys = (Network.portToIfaceFor t.toNetwork switchName).keys ∧
    ∀ e ∈ attached t switchName, ∃ port iface, e.1.port = some port ∧ port ≤ 510 ∧
      (∀ s, t.switches.get? switchName = some s → s.cpuPort ≠ some port) ∧
      e.1.ifaceName = .str iface ∧
      (Network.portToIfaceFor t.toNetwork switchName).get? port = some iface ∧
      assignments.get? port = some e.2

/-- A list of which every element has a port is the list of its ports. -/
theorem map_some_filterMap
    {α β : Type} (f : α → Option β) (l : List α)
    (h : ∀ a ∈ l, (f a).isSome) :
    (l.filterMap f).map some = l.map f := by
  induction l with
  | nil => rfl
  | cons a rest ih =>
      obtain ⟨b, hb⟩ := Option.isSome_iff_exists.mp (h a (List.mem_cons_self ..))
      rw [List.filterMap_cons_some hb, List.map_cons, List.map_cons, hb,
        ih fun c hc => h c (List.mem_cons_of_mem _ hc)]

theorem portsWired_of_valid
    {t : Topology} (v : Valid t) {switchName : String} (hswitch : switchName ∈ t.switches.keys) :
    PortsWired t switchName := by
  have hported : ∀ e ∈ attached t switchName, e.1.port.isSome := fun e he =>
    v.ported e.1 (mem_endpoints_of_attached he).1
  have hports := map_some_filterMap
    (fun e : LinkEndpoint String × LinkEndpoint String => e.1.port) _ hported
  have hifaces := portToIfaceFor_entries v switchName
  obtain ⟨assignments, hok, hassigned⟩ := portAssignments_entries v hswitch
  have hifaceKeys : (Network.portToIfaceFor t.toNetwork switchName).keys =
      (attached t switchName).filterMap fun e => e.1.port := by
    rw [OrderedDict.keys, hifaces, List.map_filterMap]
    refine List.filterMap_congr fun e he => ?_
    obtain ⟨name, hname, _⟩ := v.named e.1 (mem_endpoints_of_attached he).1
    cases hport : e.1.port <;> simp [ifaceEntry, hport, hname, Value.asStr]
  have hassignedKeys : assignments.keys = (attached t switchName).filterMap fun e => e.1.port := by
    rw [OrderedDict.keys, hassigned, List.map_filterMap]
    refine List.filterMap_congr fun e he => ?_
    cases hport : e.1.port <;> simp
  refine ⟨?_, by rw [hifaceKeys, hports], assignments, hok, hassignedKeys.trans hifaceKeys.symm,
    fun e he => ?_⟩
  · rw [← hports]
    exact (ports_nodup v switchName).map (Option.some_injective _)
  · obtain ⟨port, hport⟩ := Option.isSome_iff_exists.mp (hported e he)
    obtain ⟨hep, hnode⟩ := mem_endpoints_of_attached he
    obtain ⟨name, hname, _⟩ := v.named e.1 hep
    obtain ⟨s, hs⟩ := Option.isSome_iff_exists.mp ((t.switches.get?_isSome_iff _).mpr hswitch)
    have hdata := (v.dataPorts e.1 hep s (hnode ▸ hs)).2.2 port hport
    refine ⟨port, name, hport, hdata.1, fun s' hs' => ?_, hname, ?_, ?_⟩
    · rw [hs, Option.some.injEq] at hs'
      exact hs' ▸ hdata.2
    · rw [OrderedDict.get?_eq_some_iff, hifaces]
      exact List.mem_filterMap.mpr ⟨e, he, by simp [ifaceEntry, hport, hname, Value.asStr]⟩
    · rw [OrderedDict.get?_eq_some_iff, hassigned]
      exact List.mem_filterMap.mpr ⟨e, he, by simp [hport]⟩

end Topo
end P4Net
