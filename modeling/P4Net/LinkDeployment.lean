import P4Net.LinuxNetwork

/-!
# The interfaces that wiring builds

The statements of `_wire_link`, run against the kernel, turn the links of a validated topology
into the interfaces that it describes.

* `wiredIface` : what wiring is to make of an endpoint.
* `Turns` steps for the commands of one endpoint, and `turns_wireEndpoint` for all of them.
* `intended` : the interface that a topology describes for an endpoint.
* `execAll_links` : the statements of all links add exactly these interfaces.
-/

namespace P4Net
namespace Deployment

open TextLiterals
open Network (StartOp Primitive Resource)
open Topo (ifaceKey)

/-! ### Endpoints -/

/-- What wiring is to make of an endpoint: `first` on the first link of a host. -/
def wiredIface (node : Network.Node) (first : Bool) (ep : Network.LinkEndpoint) (peer : IfaceKey)
    (mtu : Option Nat) (shaped : Bool) : Iface :=
  match node with
  | .host host =>
      let (ip, ip6) := Network.effectiveHostAddresses host ep first
      { peer := some peer
        mac := (ep.mac.or (if first then host.mac else none)).map String.toLower
        mtu := mtu
        ip := ip.toList
        ip6 := ip6.toList
        ipv6Disabled := some ip6.isNone
        acceptRa := ip6.map fun _ => false
        autoconf := ip6.map fun _ => false
        up := true
        shaped := shaped }
  | .switch _ =>
      { peer := some peer
        mac := ep.mac.map String.toLower
        mtu := mtu
        ipv6Disabled := some true
        up := true
        shaped := shaped }

/-- The name of a node, which wiring remembers of the hosts that it has seen. -/
def nodeName : Network.Node → String
  | .host host => host.name
  | .switch switch => switch.name

section Configure

variable (k : Linux) (netns iface : String) (i : Iface)

theorem turns_address
    (mac : String) :
    Turns k (some netns, iface)
      [.call (.nsExec netns ["ip", "link", "set", iface, "address", mac])] i
      { i with mac := some mac.toLower } :=
  .of_exec (change_put k _ i fun i => some { i with mac := some mac.toLower })

theorem turns_mtu
    (n : Nat) :
    Turns k (some netns, iface)
      [.call (.nsExec netns ["ip", "link", "set", iface, "mtu", toString n])] i
      { i with mtu := some n } := by
  have hread : parseInt 10 (toString n).toList = some (n : Int) := by
    rw [Nat.toString_eq_repr, Nat.toList_repr, parseInt_toDigits]
  have hset := change_put k (some netns, iface) i fun i =>
    (parseInt 10 (toString n).toList).map fun m => { i with mtu := some m.toNat }
  rw [hread] at hset
  refine .of_exec (Eq.trans ?_ hset)
  rw [← hread]
  rfl

theorem turns_addAddress
    (ip : String) (hip : i.ip = []) :
    Turns k (some netns, iface)
      [.call (.nsExec netns ["ip", "addr", "add", ip, "dev", iface])] i
      { i with ip := [ip] } := by
  have hadd : Iface.addAddress ip i = some { i with ip := [ip] } := by
    simp only [Iface.addAddress, hip, List.not_mem_nil, if_false, List.nil_append]
  exact .of_exec ((change_put k _ i (Iface.addAddress ip)).trans (by rw [hadd, Option.map_some]))

theorem turns_addAddress6
    (ip6 : String) (hip6 : i.ip6 = []) (henabled : i.ipv6Disabled = some false) :
    Turns k (some netns, iface)
      [.call (.nsExec netns ["ip", "-6", "addr", "add", ip6, "dev", iface])] i
      { i with ip6 := [ip6] } := by
  have hadd : Iface.addAddress6 ip6 i = some { i with ip6 := [ip6] } := by
    simp [Iface.addAddress6, hip6, henabled]
  exact .of_exec ((change_put k _ i (Iface.addAddress6 ip6)).trans (by rw [hadd, Option.map_some]))

/-- `_configure_host_iface` on an interface without addresses. -/
theorem turns_configureHostIface
    (ip ip6 mac : Option String) (mtu : Option Nat) (hip : i.ip = []) (hip6 : i.ip6 = [])
    (henabled : ip6.isSome → i.ipv6Disabled = some false) :
    Turns k (some netns, iface) (Network.configureHostIface netns iface ip ip6 mac mtu) i
      { i with
        mac := (mac.map String.toLower).or i.mac
        mtu := mtu.or i.mtu
        ip := ip.toList
        ip6 := ip6.toList }.setUp := by
  let i₁ : Iface := { i with mac := (mac.map String.toLower).or i.mac }
  let i₂ : Iface := { i₁ with mtu := mtu.or i.mtu }
  let i₃ : Iface := { i₂ with ip := ip.toList }
  let i₄ : Iface := { i₃ with ip6 := ip6.toList }
  refine Turns.trans (j := i₄) (Turns.trans (j := i₃) (Turns.trans (j := i₂)
    (Turns.trans (j := i₁) ?_ ?_) ?_) ?_) ?_
  · refine .optional (by rintro rfl; rfl) ?_
    rintro mac rfl
    exact turns_address k netns iface i mac
  · refine .optional (by rintro rfl; rfl) ?_
    rintro mtu rfl
    exact turns_mtu k netns iface i₁ mtu
  · refine .optional ?_ ?_
    · rintro rfl
      simp only [i₃, Option.toList_none, ← hip, i₂, i₁]
    · rintro ip rfl
      exact turns_addAddress k netns iface i₂ ip hip
  · refine .optional ?_ ?_
    · rintro rfl
      simp only [i₄, i₃, Option.toList_none, ← hip6, i₂, i₁]
    · rintro ip6 rfl
      exact turns_addAddress6 k netns iface i₃ ip6 hip6 (henabled rfl)
  · exact .of_exec (change_put k _ i₄ fun i => some i.setUp)

end Configure

/-! ### One link -/

/-- A new interface becomes what wiring is to make of it. -/
theorem turns_wireEndpoint
    {k : Linux} {node : Network.Node} {side : Network.Side} {iface : String}
    (hslash : '/' ∉ iface.toList) (hplain : PlainName iface) {veth : Network.VethPair}
    (hveth : k.veth = some veth) (hend : endOf veth side = (node.netns, iface))
    (ep : Network.LinkEndpoint) (mtu : Option Nat) (seen : List String) (peer : IfaceKey) :
    Turns k (node.netns, iface) (Network.wireEndpoint node side ep iface mtu seen).1
      { peer := some peer }
      (wiredIface node (decide (nodeName node ∉ seen)) ep peer mtu false) := by
  cases node with
  | host host =>
      let addr := Network.effectiveHostAddresses host ep (decide (host.name ∉ seen))
      let mac := ep.mac.or (if decide (host.name ∉ seen) then host.mac else none)
      have hops : (Network.wireEndpoint (.host host) side ep iface mtu seen).1 =
          [.noteIface host.name iface addr.1 addr.2, .needNamespace host.name] ++
            (if addr.2.isSome then Network.enableIpv6 (some host.name) iface
              else Network.disableIpv6 (some host.name) iface) ++
            Network.configureHostIface host.name iface addr.1 addr.2 mac mtu := rfl
      have hwired : wiredIface (.host host) (decide (host.name ∉ seen)) ep peer mtu false =
          { peer := some peer, mac := mac.map String.toLower, mtu := mtu, ip := addr.1.toList,
            ip6 := addr.2.toList, ipv6Disabled := some addr.2.isNone,
            acceptRa := addr.2.map fun _ => false, autoconf := addr.2.map fun _ => false,
            up := true } := rfl
      have hrecord : Turns k (some host.name, iface)
          [.noteIface host.name iface addr.1 addr.2, .needNamespace host.name]
          { peer := some peer } { peer := some peer } := rfl
      rw [nodeName, hwired, hops]
      -- An address of IPv6 is added only where the gate is open.
      cases hip6 : addr.2 with
      | none =>
          have hgate := turns_disableIpv6 hslash hplain k (some host.name) { peer := some peer }
          have hrest := turns_configureHostIface k host.name iface
            { peer := some peer, ipv6Disabled := some true } addr.1 none mac mtu rfl rfl
            (by rintro ⟨⟩)
          refine (hrecord.trans hgate).trans (Eq.trans hrest ?_)
          simp [Iface.setUp]
      | some ip6 =>
          have hgate := turns_enableIpv6 hslash hplain k (some host.name) { peer := some peer }
          have hrest := turns_configureHostIface k host.name iface
            { peer := some peer, ipv6Disabled := some false, acceptRa := some false,
              autoconf := some false } addr.1 (some ip6) mac mtu rfl rfl (fun _ => rfl)
          refine (hrecord.trans hgate).trans (Eq.trans hrest ?_)
          simp [Iface.setUp]
  | switch switch =>
      have hnetlink : ∀ (i : Iface) (f : Iface → Iface),
          (k.put (none, iface) i).netlink side f = some (k.put (none, iface) (f i)) := by
        intro i f
        have h := netlink_put hveth side i f
        rwa [hend] at h
      let i₁ : Iface := { peer := some peer, ipv6Disabled := some true }
      let i₂ : Iface := { i₁ with mac := ep.mac.map String.toLower }
      let i₃ : Iface := { i₂ with mtu := mtu }
      refine Turns.trans (j := i₃) (Turns.trans (j := i₂) (Turns.trans (j := i₁) ?_ ?_) ?_) ?_
      · exact turns_disableIpv6 hslash hplain k none { peer := some peer }
      · refine .optional (fun hmac => by simp only [i₂, hmac, Option.map_none, i₁]) ?_
        intro mac hmac
        have hset : i₂ = { i₁ with mac := some mac.toLower } := by
          simp only [i₂, Option.mem_def.mp hmac, Option.map_some]
        rw [hset]
        exact .of_exec (hnetlink i₁ fun i => { i with mac := some mac.toLower })
      · refine .optional (by rintro rfl; rfl) ?_
        rintro mtu rfl
        exact .of_exec (hnetlink i₂ fun i => { i with mtu := some mtu })
      · exact .of_exec (hnetlink i₃ Iface.setUp)

/-- The impairments of a direction. -/
theorem turns_wireDirection
    (k : Linux) (link : Network.Link) (direction : Network.Impairment) (node : Network.Node)
    (iface : String) (i : Iface) (hshaped : i.shaped = false) :
    Turns k (node.netns, iface) (Network.wireDirection link direction node iface) i
      { i with shaped := link.impaired direction } := by
  have hcall : Turns k (node.netns, iface) [.call (.directionParams direction)] i i := rfl
  have hops : Network.wireDirection link direction node iface =
      [.call (.directionParams direction)] ++ if link.impaired direction then
        node.netns.toList.map .needNamespace ++ [.call (.netem node.netns iface)] else [] := rfl
  rw [hops]
  refine hcall.trans ?_
  by_cases himpaired : link.impaired direction = true
  · rw [if_pos himpaired, himpaired]
    have hneed : Turns k (node.netns, iface) (node.netns.toList.map .needNamespace) i i :=
      .optional (fun _ => rfl) fun _ _ => rfl
    exact hneed.trans (.of_exec (change_put k _ i fun i => some { i with shaped := true }))
  · rw [if_neg himpaired, eq_false_of_ne_true himpaired, ← hshaped]
    rfl

/-- The ends of a link, by their interfaces and their nodes. -/
structure LinkEnds (k : Linux) (a b : String × Network.Node) : Prop where
  ne : (a.2.netns, a.1) ≠ (b.2.netns, b.1)
  netns : (k.routes a.2.netns).isSome ∧ (k.routes b.2.netns).isSome
  free : k.ifaces (a.2.netns, a.1) = none ∧ k.ifaces (b.2.netns, b.1) = none
  plain : ('/' ∉ a.1.toList ∧ PlainName a.1) ∧ ('/' ∉ b.1.toList ∧ PlainName b.1)
  valid : (validateIfname a.1).isOk ∧ (validateIfname b.1).isOk

/-- The interfaces of a link, when some hosts have been seen. -/
def linkIfaces (link : Network.Link) (a b : String × Network.Node) (seen : List String) :
    Iface × Iface :=
  let seenA := (Network.wireEndpoint a.2 .a link.a a.1 link.mtu seen).2
  (wiredIface a.2 (decide (nodeName a.2 ∉ seen)) link.a (b.2.netns, b.1) link.mtu
      (link.impaired link.aToB),
    wiredIface b.2 (decide (nodeName b.2 ∉ seenA)) link.b (a.2.netns, a.1) link.mtu
      (link.impaired link.bToA))

/-- Shaping is all that the impairments change. -/
theorem wiredIface_shaped
    (node : Network.Node) (first : Bool) (ep : Network.LinkEndpoint) (peer : IfaceKey)
    (mtu : Option Nat) (shaped : Bool) :
    { wiredIface node first ep peer mtu false with shaped := shaped } =
      wiredIface node first ep peer mtu shaped := by
  cases node <;> rfl

/-- The statements of a link add its two interfaces. -/
theorem execAll_wireLink
    {n : Network.Topology} {link : Network.Link} {a b : String × Network.Node}
    (hresolve : Network.resolveLink n link = .ok (a, b)) {k : Linux} (hends : LinkEnds k a b)
    (seen : List String) :
    execAll (Network.wireLink n link seen).1 k =
      some ((({ k with veth := some (Network.vethBetween a b) } : Linux).put
        (a.2.netns, a.1) (linkIfaces link a b seen).1).put
        (b.2.netns, b.1) (linkIfaces link a b seen).2) := by
  obtain ⟨hne, ⟨hnetnsA, hnetnsB⟩, ⟨hfreeA, hfreeB⟩, ⟨⟨hslashA, hplainA⟩, hslashB, hplainB⟩,
    hvalidA, hvalidB⟩ := hends
  let keyA : IfaceKey := (a.2.netns, a.1)
  let keyB : IfaceKey := (b.2.netns, b.1)
  let start : Linux := { k with veth := some (Network.vethBetween a b) }
  let seenA := (Network.wireEndpoint a.2 .a link.a a.1 link.mtu seen).2
  let ia := wiredIface a.2 (decide (nodeName a.2 ∉ seen)) link.a keyB link.mtu
  let ib := wiredIface b.2 (decide (nodeName b.2 ∉ seenA)) link.b keyA link.mtu
  have hneeds : execAll ((a.2.netns.toList ++ b.2.netns.toList).map StartOp.needNamespace) k =
      some k := by
    refine execAll_quiet ?_ k
    intro op hop k
    obtain ⟨name, -, rfl⟩ := List.mem_map.mp hop
    rfl
  have hcreate : execAll [.create (.veth (Network.vethBetween a b)),
      .record (.veth (Network.vethBetween a b))] k =
      some ((start.put keyA { peer := some keyB }).put keyB { peer := some keyA }) := by
    have hadd : k.create (.veth (Network.vethBetween a b)) =
        some (k.addPair (Network.vethBetween a b)) := by
      refine if_pos ⟨hne, ?_⟩
      intro key hkey
      simp only [List.mem_cons, List.not_mem_nil, or_false] at hkey
      rcases hkey with rfl | rfl
      · exact ⟨hvalidA, hnetnsA, Option.isNone_iff_eq_none.mpr hfreeA⟩
      · exact ⟨hvalidB, hnetnsB, Option.isNone_iff_eq_none.mpr hfreeB⟩
    exact (congrArg (Option.bind · _) hadd).trans (congrArg some (addPair_eq k _))
  -- Each end is configured while the other one is left alone.
  have hendpointA : execAll (Network.wireEndpoint a.2 .a link.a a.1 link.mtu seen).1
      ((start.put keyA { peer := some keyB }).put keyB { peer := some keyA }) =
      some ((start.put keyA (ia false)).put keyB { peer := some keyA }) := by
    have hturns := turns_wireEndpoint (k := start.put keyB { peer := some keyA }) hslashA hplainA
      (show _ = some (Network.vethBetween a b) from rfl) (show endOf _ .a = keyA from rfl)
      link.a link.mtu seen keyB
    rw [put_comm _ hne, put_comm _ hne]
    exact hturns
  have hendpointB : execAll (Network.wireEndpoint b.2 .b link.b b.1 link.mtu seenA).1
      ((start.put keyA (ia false)).put keyB { peer := some keyA }) =
      some ((start.put keyA (ia false)).put keyB (ib false)) :=
    turns_wireEndpoint (k := start.put keyA (ia false)) hslashB hplainB
      (show _ = some (Network.vethBetween a b) from rfl) (show endOf _ .b = keyB from rfl)
      link.b link.mtu seenA keyA
  have hunshaped : ∀ node first ep peer,
      (wiredIface node first ep peer link.mtu false).shaped = false := by
    intro node first ep peer
    cases node <;> rfl
  have hdirectionA : execAll (Network.wireDirection link link.aToB a.2 a.1)
      ((start.put keyA (ia false)).put keyB (ib false)) =
      some ((start.put keyA (ia (link.impaired link.aToB))).put keyB (ib false)) := by
    have hturns := turns_wireDirection (start.put keyB (ib false)) link link.aToB a.2 a.1
      (ia false) (hunshaped ..)
    rw [wiredIface_shaped] at hturns
    rw [put_comm _ hne, put_comm _ hne]
    exact hturns
  have hdirectionB : execAll (Network.wireDirection link link.bToA b.2 b.1)
      ((start.put keyA (ia (link.impaired link.aToB))).put keyB (ib false)) =
      some ((start.put keyA (ia (link.impaired link.aToB))).put keyB
        (ib (link.impaired link.bToA))) := by
    have hturns := turns_wireDirection (start.put keyA (ia (link.impaired link.aToB))) link
      link.bToA b.2 b.1 (ib false) (hunshaped ..)
    rwa [wiredIface_shaped] at hturns
  have hops : (Network.wireLink n link seen).1 =
      (a.2.netns.toList ++ b.2.netns.toList).map StartOp.needNamespace ++
        [.create (.veth (Network.vethBetween a b)), .record (.veth (Network.vethBetween a b))] ++
        (Network.wireEndpoint a.2 .a link.a a.1 link.mtu seen).1 ++
        (Network.wireEndpoint b.2 .b link.b b.1 link.mtu seenA).1 ++
        Network.wireDirection link link.aToB a.2 a.1 ++
        Network.wireDirection link link.bToA b.2 b.1 := by
    unfold Network.wireLink
    rw [hresolve]
  rw [hops]
  exact execAll_trans (execAll_trans (execAll_trans (execAll_trans (execAll_trans hneeds hcreate)
    hendpointA) hendpointB) hdirectionA) hdirectionB

/-! ### All links -/

/-- The endpoint that sends in a direction. -/
def sender (link : Topo.Link) : Topo.Direction → Topo.LinkEndpoint String
  | .aToB => link.a
  | .bToA => link.b

/-- The endpoint that receives in a direction. -/
def receiver (link : Topo.Link) : Topo.Direction → Topo.LinkEndpoint String
  | .aToB => link.b
  | .bToA => link.a

/-- The impairments of the direction apply. -/
def shapes (link : Topo.Link) : Topo.Direction → Bool
  | .aToB => link.toNetwork.impaired link.toNetwork.aToB
  | .bToA => link.toNetwork.impaired link.toNetwork.bToA

/-- The interface that a topology describes for a sender, after the links `before`. -/
def intended (t : Topo.Topology) (before : List Topo.Link) (link : Topo.Link)
    (d : Topo.Direction) : Option (IfaceKey × Iface) :=
  let ep := sender link d
  match t.toNetwork.node ep.node, ifaceKey t ep, ifaceKey t (receiver link d) with
  | some node, some key, some peer =>
      some (key, wiredIface node
        (decide (∀ earlier ∈ before, ∀ f ∈ earlier.endpoints, f.node ≠ ep.node)) ep.toNetwork peer
        link.shaping.mtu (shapes link d))
  | _, _, _ => none

/-- The interfaces that a topology describes for some links, after the links `before`. -/
def intendedAll (t : Topo.Topology) : List Topo.Link → List Topo.Link → List (IfaceKey × Iface)
  | _, [] => []
  | before, link :: rest =>
      [intended t before link .aToB, intended t before link .bToA].filterMap id ++
        intendedAll t (before ++ [link]) rest

/-- Set a list of interfaces. -/
def overlay (ifaces : IfaceKey → Option Iface) (entries : List (IfaceKey × Iface)) :
    IfaceKey → Option Iface :=
  entries.foldl (fun m e => Function.update m e.1 (some e.2)) ifaces

theorem overlay_of_not_mem
    (ifaces : IfaceKey → Option Iface) {entries : List (IfaceKey × Iface)} {key : IfaceKey}
    (h : key ∉ entries.map Prod.fst) :
    overlay ifaces entries key = ifaces key := by
  induction entries generalizing ifaces with
  | nil => rfl
  | cons e rest ih =>
      rw [List.map_cons, List.mem_cons, not_or] at h
      exact (ih _ h.2).trans (Function.update_of_ne h.1 ..)

theorem overlay_of_mem
    (ifaces : IfaceKey → Option Iface) {entries : List (IfaceKey × Iface)}
    (hnodup : (entries.map Prod.fst).Nodup) {e : IfaceKey × Iface} (he : e ∈ entries) :
    overlay ifaces entries e.1 = some e.2 := by
  induction entries generalizing ifaces with
  | nil => cases he
  | cons f rest ih =>
      rw [List.map_cons, List.nodup_cons] at hnodup
      rcases List.mem_cons.mp he with rfl | hmem
      · exact (overlay_of_not_mem _ hnodup.1).trans (Function.update_self ..)
      · exact ih _ hnodup.2 hmem

/-- A node is called as its endpoint says, and is a host iff the topology has such a host. -/
theorem node_of_placement
    {t : Topo.Topology} (v : Topo.Valid t) {ep : Topo.LinkEndpoint String}
    {end' : String × Network.Node} (h : Topo.Placement t ep end') :
    nodeName end'.2 = ep.node ∧ (∀ name ∈ end'.2.netns, name = ep.node ∧ name ∈ t.hosts.keys) ∧
      (end'.2.netns = none → ep.node ∉ t.hosts.keys) := by
  have hnode := h.node
  unfold Network.Topology.node at hnode
  simp only [Topo.Topology.toNetwork, OrderedDict.get?_mapValues] at hnode
  cases hhost : t.hosts.get? ep.node with
  | some host =>
      have hname : ep.node = host.name :=
        v.hostKeys _ ((OrderedDict.get?_eq_some_iff _ _ _).mp hhost)
      have hmem := OrderedDict.mem_keys_of_get? hhost
      simp only [hhost, Option.map_some, Option.some.injEq] at hnode
      rw [← hnode]
      refine ⟨hname.symm, ?_, by rintro ⟨⟩⟩
      intro name hname'
      obtain rfl : host.name = name := Option.some.inj hname'
      exact ⟨hname.symm, hname ▸ hmem⟩
  | none =>
      have hnot := (t.hosts.get?_eq_none_iff ep.node).mp hhost
      cases hswitch : t.switches.get? ep.node with
      | none => simp [hhost, hswitch] at hnode
      | some switch =>
          simp only [hhost, hswitch, Option.map_none, Option.map_some, Option.some.injEq] at hnode
          rw [← hnode]
          refine ⟨(v.switchKeys _ ((OrderedDict.get?_eq_some_iff _ _ _).mp hswitch)).symm, ?_,
            fun _ => hnot⟩
          rintro name ⟨⟩

/-- The hosts that wiring has seen are those of the links so far. -/
def SeenIs (t : Topo.Topology) (before : List Topo.Link) (seen : List String) : Prop :=
  ∀ name ∈ t.hosts.keys,
    name ∈ seen ↔ ∃ earlier ∈ before, ∃ f ∈ earlier.endpoints, f.node = name

/-- The interfaces of some links can be created. -/
structure Ready (t : Topo.Topology) (links : List Topo.Link) (k : Linux) : Prop where
  root : (k.routes none).isSome
  hosts : ∀ name ∈ t.hosts.keys, (k.routes (some name)).isSome
  free : ∀ link ∈ links, ∀ ep ∈ link.endpoints, ∀ key, ifaceKey t ep = some key →
    k.ifaces key = none

theorem mem_seen_wireEndpoint
    {t : Topo.Topology} (v : Topo.Valid t) {ep : Topo.LinkEndpoint String}
    {end' : String × Network.Node} (h : Topo.Placement t ep end') (side : Network.Side)
    (mtu : Option Nat) (seen : List String) {name : String} (hname : name ∈ t.hosts.keys) :
    name ∈ (Network.wireEndpoint end'.2 side ep.toNetwork end'.1 mtu seen).2 ↔
      ep.node = name ∨ name ∈ seen := by
  obtain ⟨iface, node⟩ := end'
  obtain ⟨hcalled, -, hswitch⟩ := node_of_placement v h
  cases node with
  | host host =>
      have hseen : (Network.wireEndpoint (.host host) side ep.toNetwork iface mtu seen).2 =
          host.name :: seen := rfl
      have hhost : host.name = ep.node := hcalled
      rw [hseen, List.mem_cons, hhost, eq_comm]
  | switch switch =>
      have hseen : (Network.wireEndpoint (.switch switch) side ep.toNetwork iface mtu seen).2 =
          seen := rfl
      have hne : ep.node ≠ name := fun heq => hswitch rfl (heq ▸ hname)
      rw [hseen, or_iff_right hne]

/-- An endpoint after the links `before` is wired as the topology describes it. -/
theorem wiredIface_seen
    {t : Topo.Topology} (v : Topo.Valid t) {before : List Topo.Link} {seen : List String}
    (hseen : SeenIs t before seen) {ep : Topo.LinkEndpoint String}
    {end' : String × Network.Node} (h : Topo.Placement t ep end') (peer : IfaceKey)
    (mtu : Option Nat) (shaped : Bool) :
    wiredIface end'.2 (decide (nodeName end'.2 ∉ seen)) ep.toNetwork peer mtu shaped =
      wiredIface end'.2
        (decide (∀ earlier ∈ before, ∀ f ∈ earlier.endpoints, f.node ≠ ep.node)) ep.toNetwork
        peer mtu shaped := by
  obtain ⟨iface, node⟩ := end'
  obtain ⟨hcalled, hhost, -⟩ := node_of_placement v h
  cases node with
  | host host =>
      obtain ⟨hname, hmem⟩ := hhost host.name rfl
      have hfirst : nodeName (.host host) ∉ seen ↔
          ∀ earlier ∈ before, ∀ f ∈ earlier.endpoints, f.node ≠ ep.node := by
        rw [show nodeName (.host host) = host.name from rfl, hseen host.name hmem, hname]
        push Not
        rfl
      simp only [hfirst]
  | switch switch => rfl

/-- All interfaces have plain names. -/
def PlainNames (t : Topo.Topology) : Prop :=
  ∀ p ∈ Topo.placements t.toNetwork, PlainName p.2

/-- What the statements of one link do, after the links `before`. -/
structure LinkWired (t : Topo.Topology) (before : List Topo.Link) (link : Topo.Link)
    (k k' : Linux) (a b : IfaceKey × Iface) : Prop where
  intendedA : intended t before link .aToB = some a
  intendedB : intended t before link .bToA = some b
  keyA : ifaceKey t link.a = some a.1
  keyB : ifaceKey t link.b = some b.1
  routes : k'.routes = k.routes
  processes : k'.processes = k.processes
  ifaces : k'.ifaces = overlay k.ifaces [a, b]

theorem mem_placements_of_endpoint
    {t : Topo.Topology} (v : Topo.Valid t) {ep : Topo.LinkEndpoint String} (hep : ep ∈ t.endpoints)
    {end' : String × Network.Node} (h : Topo.Placement t ep end') :
    (end'.2.netns, end'.1) ∈ Topo.placements t.toNetwork := by
  rw [Topo.placements_of_valid v]
  exact List.mem_filterMap.mpr ⟨ep, hep, h.key⟩

/-- The statements of a link can return, and wire its two interfaces. -/
theorem execAll_link
    {t : Topo.Topology} (v : Topo.Valid t) (hnames : PlainNames t) {link : Topo.Link}
    (hlink : link ∈ t.links) {before : List Topo.Link} {seen : List String}
    (hseen : SeenIs t before seen) {k : Linux} (hready : Ready t [link] k) :
    SeenIs t (before ++ [link]) (Network.wireLink t.toNetwork link.toNetwork seen).2 ∧
      ∃ k' a b, execAll (Network.wireLink t.toNetwork link.toNetwork seen).1 k = some k' ∧
        LinkWired t before link k k' a b := by
  obtain ⟨a, b, hresolve, hplaceA, hplaceB⟩ := Topo.resolveLink_of_valid v hlink
  have hmemA : link.a ∈ link.endpoints := List.mem_cons_self
  have hmemB : link.b ∈ link.endpoints := List.mem_cons_of_mem _ List.mem_cons_self
  have hseenA := fun (name : String) (hname : name ∈ t.hosts.keys) =>
    mem_seen_wireEndpoint v hplaceA .a link.shaping.mtu seen hname
  have hseenB := fun (name : String) (hname : name ∈ t.hosts.keys) =>
    mem_seen_wireEndpoint v hplaceB .b link.shaping.mtu
      (Network.wireEndpoint a.2 .a link.a.toNetwork a.1 link.shaping.mtu seen).2 hname
  have hwire : (Network.wireLink t.toNetwork link.toNetwork seen).2 =
      (Network.wireEndpoint b.2 .b link.b.toNetwork b.1 link.shaping.mtu
        (Network.wireEndpoint a.2 .a link.a.toNetwork a.1 link.shaping.mtu seen).2).2 := by
    unfold Network.wireLink
    rw [hresolve]
    rfl
  refine ⟨?_, ?_⟩
  · intro name hname
    rw [hwire, hseenB name hname, hseenA name hname, hseen name hname]
    simp only [List.mem_append, or_and_right, exists_or, exists_eq_left, Topo.Link.endpoints,
      List.mem_cons, List.not_mem_nil, or_false]
    rw [← or_assoc, or_comm]
    exact or_congr_right or_comm
  -- The interfaces of the link.
  have hplain : ∀ (ep : Topo.LinkEndpoint String) (end' : String × Network.Node),
      ep ∈ link.endpoints → Topo.Placement t ep end' →
      ('/' ∉ end'.1.toList ∧ PlainName end'.1) ∧ (k.routes end'.2.netns).isSome ∧
        k.ifaces (end'.2.netns, end'.1) = none := by
    intro ep end' hep hplace
    have hmem := mem_placements_of_endpoint v (Topo.mem_endpoints_of_link hlink hep) hplace
    obtain ⟨-, hhosts, -⟩ := node_of_placement v hplace
    refine ⟨⟨Topo.slash_not_mem_of_validateIfname hplace.valid, hnames _ hmem⟩, ?_,
      hready.free link List.mem_cons_self ep hep _ hplace.key⟩
    cases hnetns : end'.2.netns with
    | none => exact hready.root
    | some name => exact hready.hosts name (hhosts name hnetns).2
  obtain ⟨hplainA, hnetnsA, hfreeA⟩ := hplain _ _ hmemA hplaceA
  obtain ⟨hplainB, hnetnsB, hfreeB⟩ := hplain _ _ hmemB hplaceB
  have hne : (a.2.netns, a.1) ≠ (b.2.netns, b.1) := by
    intro heq
    have h := Topo.link_interfaces_nodup v hlink
    simp [Topo.Link.endpoints, hplaceA.key, hplaceB.key, heq] at h
  have hrun := execAll_wireLink hresolve
    (⟨hne, ⟨hnetnsA, hnetnsB⟩, ⟨hfreeA, hfreeB⟩, ⟨hplainA, hplainB⟩,
      by rw [hplaceA.valid]; rfl, by rw [hplaceB.valid]; rfl⟩ : LinkEnds k a b) seen
  -- The other end of the link is at another node, so it decides nothing.
  have hfirstB : decide (nodeName b.2 ∉
      (Network.wireEndpoint a.2 .a link.a.toNetwork a.1 link.shaping.mtu seen).2) =
      decide (nodeName b.2 ∉ seen) ∨ b.2.netns = none := by
    obtain ⟨hcalled, hhosts, -⟩ := node_of_placement v hplaceB
    cases hnetns : b.2.netns with
    | none => exact Or.inr rfl
    | some name =>
        obtain ⟨rfl, hname⟩ := hhosts name hnetns
        rw [hcalled]
        refine Or.inl (decide_eq_decide.mpr (not_congr ?_))
        rw [hseenA _ hname, or_iff_right (v.noSelf link hlink)]
  have hwiredB : wiredIface b.2 (decide (nodeName b.2 ∉
      (Network.wireEndpoint a.2 .a link.a.toNetwork a.1 link.shaping.mtu seen).2)) link.b.toNetwork
      (a.2.netns, a.1) link.shaping.mtu (shapes link .bToA) =
      wiredIface b.2 (decide (nodeName b.2 ∉ seen)) link.b.toNetwork (a.2.netns, a.1)
        link.shaping.mtu (shapes link .bToA) := by
    rcases hfirstB with hfirst | hroot
    · rw [hfirst]
    · cases hnode : b.2 with
      | host host => rw [hnode] at hroot; cases hroot
      | switch switch => rfl
  have hintended : ∀ d end' peer, Topo.Placement t (sender link d) end' →
      ifaceKey t (receiver link d) = some peer →
      intended t before link d = some ((end'.2.netns, end'.1),
        wiredIface end'.2 (decide (nodeName end'.2 ∉ seen)) (sender link d).toNetwork peer
          link.shaping.mtu (shapes link d)) := by
    intro d end' peer hplace hpeer
    rw [wiredIface_seen v hseen hplace]
    simp only [intended, hplace.node, hplace.key, hpeer]
  let ifaces := linkIfaces link.toNetwork a b seen
  refine ⟨_, ((a.2.netns, a.1), ifaces.1), ((b.2.netns, b.1), ifaces.2), hrun,
    hintended .aToB a _ hplaceA hplaceB.key, ?_, hplaceA.key, hplaceB.key, rfl, rfl, rfl⟩
  rw [hintended .bToA b _ hplaceB hplaceA.key]
  exact congrArg some (congrArg (Prod.mk _) hwiredB.symm)

theorem overlay_append
    (ifaces : IfaceKey → Option Iface) (entries rest : List (IfaceKey × Iface)) :
    overlay ifaces (entries ++ rest) = overlay (overlay ifaces entries) rest :=
  List.foldl_append ..

/-- What the statements of some links do. -/
structure LinksWired (t : Topo.Topology) (before links : List Topo.Link) (k k' : Linux) : Prop where
  routes : k'.routes = k.routes
  processes : k'.processes = k.processes
  ifaces : k'.ifaces = overlay k.ifaces (intendedAll t before links)
  keys : (intendedAll t before links).map Prod.fst =
    (links.flatMap Topo.Link.endpoints).filterMap (ifaceKey t)

/-- The statements of all links can return, and wire their interfaces. -/
theorem execAll_links
    {t : Topo.Topology} (v : Topo.Valid t) (hnames : PlainNames t) {links : List Topo.Link}
    (hlinks : ∀ link ∈ links, link ∈ t.links)
    (hnodup : ((links.flatMap Topo.Link.endpoints).filterMap (ifaceKey t)).Nodup)
    {before : List Topo.Link} {seen : List String} (hseen : SeenIs t before seen) {k : Linux}
    (hready : Ready t links k) :
    ∃ k', execAll (Network.wireLinks t.toNetwork (links.map Topo.Link.toNetwork) seen) k = some k' ∧
      LinksWired t before links k k' := by
  induction links generalizing before seen k with
  | nil => exact ⟨k, rfl, rfl, rfl, rfl, rfl⟩
  | cons link rest ih =>
      have hready' : Ready t [link] k := by
        refine ⟨hready.root, hready.hosts, ?_⟩
        intro l hl
        obtain rfl := List.mem_singleton.mp hl
        exact hready.free l List.mem_cons_self
      obtain ⟨hseen', mid, a, b, hrun, hwired⟩ :=
        execAll_link v hnames (hlinks link List.mem_cons_self) hseen hready'
      have hkeys : link.endpoints.filterMap (ifaceKey t) = [a.1, b.1] := by
        simp [Topo.Link.endpoints, hwired.keyA, hwired.keyB]
      rw [List.flatMap_cons, List.filterMap_append, hkeys] at hnodup
      obtain ⟨-, hrestNodup, hdisjoint⟩ := List.nodup_append.mp hnodup
      have hreadyRest : Ready t rest mid := by
        refine ⟨hwired.routes ▸ hready.root, ?_, ?_⟩
        · exact fun name hname => hwired.routes ▸ hready.hosts name hname
        intro l hl ep hep key hkey
        have hnot : key ∉ [a, b].map Prod.fst := by
          intro hmem
          refine hdisjoint key hmem key ?_ rfl
          exact List.mem_filterMap.mpr ⟨ep, List.mem_flatMap.mpr ⟨l, hl, hep⟩, hkey⟩
        rw [hwired.ifaces, overlay_of_not_mem _ hnot]
        exact hready.free l (List.mem_cons_of_mem _ hl) ep hep key hkey
      obtain ⟨k', hrest, hrestWired⟩ := ih (fun l hl => hlinks l (List.mem_cons_of_mem _ hl))
        hrestNodup hseen' hreadyRest
      have hintended : intendedAll t before (link :: rest) =
          [a, b] ++ intendedAll t (before ++ [link]) rest := by
        simp [intendedAll, hwired.intendedA, hwired.intendedB]
      refine ⟨k', ?_, hrestWired.routes.trans hwired.routes,
        hrestWired.processes.trans hwired.processes, ?_, ?_⟩
      · exact execAll_trans hrun hrest
      · rw [hrestWired.ifaces, hwired.ifaces, hintended, overlay_append]
      · rw [hintended, List.map_append, hrestWired.keys, List.flatMap_cons, List.filterMap_append,
          hkeys]
        rfl

end Deployment
end P4Net
