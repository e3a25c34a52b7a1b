import P4Net.StartupAcquires
import P4Net.TopologyWiring

/-!
# The addresses that wiring records

`_wire_link` records the addresses of the interfaces of hosts in two dictionaries of
dictionaries, `_host_iface_ip` and `_host_iface_ip6`.

* `Records.note` : one such record, and `Records.at?_noteAll` : a list of records under
  distinct keys is read back.
* `runAll_of_quiet` : the statements of `_wire_link` that record no address.
* `runAll_wireLinks` : the statements of a valid topology's links succeed and record the
  effective addresses that `validate` computes, in the same order.
-/

namespace P4Net
namespace Topo

open TextLiterals
open Network (StartOp Resources runAll)

/-! ### Records -/

/-- `_host_iface_ip` or `_host_iface_ip6`. -/
abbrev Records := OrderedDict String (OrderedDict String (Option String))

namespace Records

/-- The record of an interface of a host. -/
def at? (m : Records) (host iface : String) : Option (Option String) :=
  (m.get? host).bind fun interfaces => interfaces.get? iface

/-- `records[host][iface] = address`. -/
def note (m : Records) (host iface : String) (address : Option String) : Records :=
  match m.get? host with
  | some interfaces => m.set host (interfaces.set iface address)
  | none => m

theorem mem_keys_note
    {m : Records} {h : String} (hm : h ∈ m.keys) (host iface : String) (address : Option String) :
    h ∈ (m.note host iface address).keys := by
  unfold note
  split
  · exact (m.mem_keys_set ..).mpr (Or.inr hm)
  · exact hm

theorem at?_note_self
    {m : Records} {host : String} (h : host ∈ m.keys) (iface : String)
    (address : Option String) :
    (m.note host iface address).at? host iface = some address := by
  obtain ⟨interfaces, hget⟩ := Option.isSome_iff_exists.mp ((m.get?_isSome_iff host).mpr h)
  simp [note, at?, hget]

theorem at?_note_of_ne
    (m : Records) {host iface host' iface' : String} (h : (host', iface') ≠ (host, iface))
    (address : Option String) :
    (m.note host iface address).at? host' iface' = m.at? host' iface' := by
  unfold note
  split
  · rename_i interfaces hget
    by_cases hhost : host' = host
    · subst hhost
      have hiface : iface' ≠ iface := fun he => h (by rw [he])
      simp [at?, hget, OrderedDict.get?_set_of_ne hiface]
    · simp [at?, OrderedDict.get?_set_of_ne hhost]
  · rfl

section Lists

variable {α : Type} (key : α → String × String) (address : α → Option String)

/-- Note a list of records. -/
def noteAll (m : Records) (l : List α) : Records :=
  l.foldl (fun m a => m.note (key a).1 (key a).2 (address a)) m

theorem at?_noteAll_of_not_mem
    (m : Records) {l : List α} {host iface : String} (h : (host, iface) ∉ l.map key) :
    (noteAll key address m l).at? host iface = m.at? host iface := by
  induction l generalizing m with
  | nil => rfl
  | cons a rest ih =>
      simp only [List.map_cons, List.mem_cons, not_or] at h
      exact (ih _ h.2).trans (at?_note_of_ne m h.1 _)

/-- What is read back was noted or was there before. -/
theorem at?_noteAll_cases
    {m : Records} {l : List α} {host iface : String} {x : Option String}
    (h : (noteAll key address m l).at? host iface = some x) :
    (∃ a ∈ l, key a = (host, iface) ∧ x = address a) ∨ m.at? host iface = some x := by
  induction l generalizing m with
  | nil => exact Or.inr h
  | cons b rest ih =>
      rcases ih h with ⟨a, ha, hkey, hx⟩ | hb
      · exact Or.inl ⟨a, List.mem_cons_of_mem _ ha, hkey, hx⟩
      · have hnote : (m.note (key b).1 (key b).2 (address b)).at? host iface = some x := hb
        by_cases hkey : (host, iface) = key b
        · by_cases hmem : host ∈ m.keys
          · have hself := at?_note_self hmem iface (address b)
            rw [← hkey] at hnote
            exact Or.inl ⟨b, List.mem_cons_self .., hkey.symm,
              Option.some.inj (hnote.symm.trans hself)⟩
          · have hnone := (m.get?_eq_none_iff host).mpr hmem
            rw [← hkey] at hnote
            simp [note, at?, hnone] at hnote
        · exact Or.inr ((at?_note_of_ne m hkey _).symm.trans hnote)

/-- Records under distinct keys are read back. -/
theorem at?_noteAll
    {m : Records} {l : List α} (hhosts : ∀ a ∈ l, (key a).1 ∈ m.keys)
    (hnodup : (l.map key).Nodup) {a : α} (ha : a ∈ l) :
    (noteAll key address m l).at? (key a).1 (key a).2 = some (address a) := by
  induction l generalizing m with
  | nil => cases ha
  | cons b rest ih =>
      rw [List.map_cons, List.nodup_cons] at hnodup
      rcases List.mem_cons.mp ha with rfl | hmem
      · exact (at?_noteAll_of_not_mem key address _ hnodup.1).trans
          (at?_note_self (hhosts a (List.mem_cons_self ..)) ..)
      · exact ih (fun c hc => mem_keys_note (hhosts c (List.mem_cons_of_mem _ hc)) ..) hnodup.2 hmem

end Lists

end Records

/-! ### Statements that record no address -/

/-- The hosts have their namespaces and their dictionaries. -/
def Ready (hosts : List String) (res : Resources) : Prop :=
  ∀ h ∈ hosts, h ∈ res.namespaces.keys ∧ h ∈ res.hostIfaceIp.keys ∧ h ∈ res.hostIfaceIp6.keys

/-- The namespaces are the same, and the records are these. -/
structure Recorded (res res' : Resources) (ip ip6 : Records) : Prop where
  namespaces : res'.namespaces = res.namespaces
  ip : res'.hostIfaceIp = ip
  ip6 : res'.hostIfaceIp6 = ip6

/-- A statement of `_wire_link` that records no address. -/
def Quiet (hosts : List String) : StartOp → Prop
  | .call _ => True
  | .create _ => True
  | .record (.veth _) => True
  | .needNamespace name => name ∈ hosts
  | _ => False

theorem exec_of_quiet
    {hosts : List String} {res : Resources} {op : StartOp}
    (hready : Ready hosts res) (hop : Quiet hosts op) :
    ∃ res', op.exec res = .ok res' ∧ Recorded res res' res.hostIfaceIp res.hostIfaceIp6 := by
  cases op with
  | call primitive => exact ⟨res, rfl, rfl, rfl, rfl⟩
  | create resource => exact ⟨res, rfl, rfl, rfl, rfl⟩
  | record resource =>
      cases resource with
      | veth veth => exact ⟨_, rfl, rfl, rfl, rfl⟩
      | _ => cases hop
  | needNamespace name =>
      obtain ⟨ns, hns⟩ := Option.isSome_iff_exists.mp
        ((res.namespaces.get?_isSome_iff name).mpr (hready name hop).1)
      exact ⟨res, by simp [StartOp.exec, hns, Network.need, Except.map], rfl, rfl, rfl⟩
  | _ => cases hop

theorem runAll_append
    {ops rest : List StartOp} {res mid res' : Resources}
    (hops : runAll ops res = .ok mid) (hrest : runAll rest mid = .ok res') :
    runAll (ops ++ rest) res = .ok res' := by
  induction ops generalizing res with
  | nil =>
      cases hops
      exact hrest
  | cons op ops ih =>
      obtain ⟨next, hexec, hrun⟩ := Network.runAll_cons_ok hops
      simp [runAll, hexec, ih hrun]

theorem Ready.of_recorded
    {hosts : List String} {res res' : Resources}
    (h : Ready hosts res) (hrec : Recorded res res' res.hostIfaceIp res.hostIfaceIp6) :
    Ready hosts res' := by
  intro host hhost
  obtain ⟨hns, hip, hip6⟩ := h host hhost
  exact ⟨hrec.namespaces ▸ hns, hrec.ip ▸ hip, hrec.ip6 ▸ hip6⟩

theorem runAll_of_quiet
    {hosts : List String} {res : Resources} {ops : List StartOp}
    (hready : Ready hosts res) (hops : ∀ op ∈ ops, Quiet hosts op) :
    ∃ res', runAll ops res = .ok res' ∧ Ready hosts res' ∧
      Recorded res res' res.hostIfaceIp res.hostIfaceIp6 := by
  induction ops generalizing res with
  | nil => exact ⟨res, rfl, hready, rfl, rfl, rfl⟩
  | cons op rest ih =>
      obtain ⟨mid, hexec, hmid⟩ := exec_of_quiet hready (hops op (List.mem_cons_self ..))
      obtain ⟨last, hrun, hreadyLast, hlast⟩ :=
        ih (hready.of_recorded hmid) fun o ho => hops o (List.mem_cons_of_mem _ ho)
      exact ⟨last, by simp [runAll, hexec, hrun], hreadyLast,
        hlast.namespaces.trans hmid.namespaces, hlast.ip.trans hmid.ip, hlast.ip6.trans hmid.ip6⟩

/-! ### The statements of a link -/

/-- The interface of an effective address, by its host and its name. -/
def recordKey (e : Effective) : String × String := (e.host.name, e.ep.ifaceName.asStr.getD "")

/-- The records of a family after the effective addresses have been noted. -/
def notedBy (family : Family) (m : Records) (es : List Effective) : Records :=
  m.noteAll recordKey (fun e => e.address family) es

/-- The hosts that have been seen after some endpoints. -/
def seenAfter (t : Topology) : List String → List (LinkEndpoint String) → List String
  | seen, [] => seen
  | seen, ep :: rest =>
      match t.hosts.get? ep.node with
      | none => seenAfter t seen rest
      | some host => seenAfter t (host.name :: seen) rest

theorem effectiveFrom_append
    (t : Topology) (seen : List String) (before rest : List (LinkEndpoint String)) :
    effectiveFrom t seen (before ++ rest) =
      effectiveFrom t seen before ++ effectiveFrom t (seenAfter t seen before) rest := by
  induction before generalizing seen with
  | nil => rfl
  | cons ep before ih =>
      cases hhost : t.hosts.get? ep.node <;>
        simp [effectiveFrom, seenAfter, hhost, ih]

theorem seenAfter_append
    (t : Topology) (seen : List String) (before rest : List (LinkEndpoint String)) :
    seenAfter t seen (before ++ rest) = seenAfter t (seenAfter t seen before) rest := by
  induction before generalizing seen with
  | nil => rfl
  | cons ep before ih =>
      cases hhost : t.hosts.get? ep.node <;> simp [seenAfter, hhost, ih]

theorem notedBy_append
    (family : Family) (m : Records) (es fs : List Effective) :
    notedBy family m (es ++ fs) = notedBy family (notedBy family m es) fs :=
  List.foldl_append ..

/-- The namespace of a placed interface is that of a host. -/
theorem netns_mem_keys
    {t : Topology} {ep : LinkEndpoint String} {end' : String × Network.Node}
    (h : Placement t ep end') :
    ∀ name ∈ end'.2.netns, name ∈ t.hosts.keys := by
  intro name hname
  have hiface := h.iface
  have hkey := h.key
  unfold ifaceKey scopeOf at hkey
  by_cases hhost : ep.node ∈ t.hosts.keys
  · simp [hiface, Value.asStr, hhost] at hkey
    rw [← hkey, Option.mem_some_iff] at hname
    exact hname ▸ hhost
  · by_cases hswitch : ep.node ∈ t.switches.keys
    · simp [hiface, Value.asStr, hhost, hswitch] at hkey
      rw [← hkey] at hname
      cases hname
    · simp [hhost, hswitch] at hkey

theorem quiet_configure
    {hosts : List String} {name : String} (hname : name ∈ hosts)
    (iface : String) (ip ip6 mac : Option String) (mtu : Option Nat) :
    ∀ op ∈ [StartOp.needNamespace name] ++
        (if ip6.isSome then Network.enableIpv6 (some name) iface
          else Network.disableIpv6 (some name) iface) ++
        Network.configureHostIface name iface ip ip6 mac mtu,
      Quiet hosts op := by
  intro op hop
  simp only [List.mem_append, List.mem_singleton] at hop
  rcases hop with (rfl | hop) | hop
  · exact hname
  · cases ip6 <;> simp [Network.enableIpv6, Network.disableIpv6] at hop <;>
      rcases hop with rfl | rfl | rfl <;> trivial
  · simp only [Network.configureHostIface, List.mem_append, List.mem_map, List.mem_singleton] at hop
    rcases hop with (((⟨_, _, rfl⟩ | ⟨_, _, rfl⟩) | ⟨_, _, rfl⟩) | ⟨_, _, rfl⟩) | rfl <;> trivial

/-- One endpoint records the effective addresses that the validator computes for it. -/
theorem runAll_wireEndpoint
    {t : Topology} {ep : LinkEndpoint String} {end' : String × Network.Node}
    (v : Valid t) (hplace : Placement t ep end')
    (side : Network.Side) (mtu : Option Nat) (seen : List String)
    {res : Resources} (hready : Ready t.hosts.keys res) :
    (Network.wireEndpoint end'.2 side ep.toNetwork end'.1 mtu seen).2 = seenAfter t seen [ep] ∧
      ∃ res', runAll (Network.wireEndpoint end'.2 side ep.toNetwork end'.1 mtu seen).1 res =
          .ok res' ∧ Ready t.hosts.keys res' ∧
        Recorded res res' (notedBy .ipv4 res.hostIfaceIp (effectiveFrom t seen [ep]))
          (notedBy .ipv6 res.hostIfaceIp6 (effectiveFrom t seen [ep])) := by
  rcases end' with ⟨iface, node⟩
  have hnode := hplace.node
  have hiface := hplace.iface
  unfold Network.Topology.node at hnode
  simp only [Topology.toNetwork, OrderedDict.get?_mapValues] at hnode
  cases hhost : t.hosts.get? ep.node with
  | some host =>
      have hsame : node = .host host.toHost := by simpa [hhost] using hnode.symm
      subst hsame
      have hname : ep.node = host.name :=
        v.hostKeys _ ((OrderedDict.get?_eq_some_iff _ _ _).mp hhost)
      have hmem : host.name ∈ t.hosts.keys := hname ▸ OrderedDict.mem_keys_of_get? hhost
      refine ⟨by simp [Network.wireEndpoint, seenAfter, hhost], ?_⟩
      obtain ⟨_, hip, hip6⟩ := hready host.name hmem
      obtain ⟨ips, hips⟩ := Option.isSome_iff_exists.mp ((res.hostIfaceIp.get?_isSome_iff _).mpr hip)
      obtain ⟨ip6s, hip6s⟩ :=
        Option.isSome_iff_exists.mp ((res.hostIfaceIp6.get?_isSome_iff _).mpr hip6)
      -- The endpoint's record, and then statements that record nothing.
      let addr := effectiveHostAddresses host ep (decide (host.name ∉ seen))
      let noted : Resources := { res with
        hostIfaceIp := Records.note res.hostIfaceIp host.name iface addr.1
        hostIfaceIp6 := Records.note res.hostIfaceIp6 host.name iface addr.2 }
      have hnote : (StartOp.noteIface host.name iface addr.1 addr.2).exec res = .ok noted := by
        simp [StartOp.exec, Network.need, hips, hip6s, noted, Records.note, bind, Except.bind,
          pure, Except.pure]
      have hnoted : Ready t.hosts.keys noted := fun h hh =>
        ⟨(hready h hh).1, Records.mem_keys_note (hready h hh).2.1 ..,
          Records.mem_keys_note (hready h hh).2.2 ..⟩
      let mac := ep.mac.or (if decide (host.name ∉ seen) then host.mac else none)
      obtain ⟨res', hrun, hready', hrec⟩ :=
        runAll_of_quiet hnoted (quiet_configure hmem iface addr.1 addr.2 mac mtu)
      have heffective : effectiveFrom t seen [ep] = [⟨host, ep, addr.1, addr.2⟩] := by
        simp [effectiveFrom, hhost, addr]
      have hkey : recordKey ⟨host, ep, addr.1, addr.2⟩ = (host.name, iface) := by
        simp [recordKey, hiface, Value.asStr]
      refine ⟨res', ?_, hready', ?_⟩
      · have hops : (Network.wireEndpoint (.host host.toHost) side ep.toNetwork iface mtu seen).1 =
            .noteIface host.name iface addr.1 addr.2 :: ([StartOp.needNamespace host.name] ++
              (if addr.2.isSome then Network.enableIpv6 (some host.name) iface
                else Network.disableIpv6 (some host.name) iface) ++
              Network.configureHostIface host.name iface addr.1 addr.2 mac mtu) := rfl
        rw [hops, runAll, hnote]
        exact hrun
      · rw [heffective]
        exact ⟨hrec.namespaces, hrec.ip.trans (by simp [notedBy, Records.noteAll, hkey, noted,
            Effective.address]),
          hrec.ip6.trans (by simp [notedBy, Records.noteAll, hkey, noted, Effective.address])⟩
  | none =>
      obtain ⟨switch, hswitch⟩ : ∃ switch, node = .switch switch := by
        cases hs : t.switches.get? ep.node with
        | none => simp [hhost, hs] at hnode
        | some s => exact ⟨s.toP4Switch, by simpa [hhost, hs] using hnode.symm⟩
      subst hswitch
      have hquiet : ∀ op ∈ (Network.wireEndpoint (.switch switch) side ep.toNetwork iface mtu
          seen).1, Quiet t.hosts.keys op := by
        intro op hop
        simp only [Network.wireEndpoint, Network.disableIpv6, List.mem_append, List.mem_map,
          List.mem_singleton] at hop
        rcases hop with ((rfl | ⟨_, _, rfl⟩) | ⟨_, _, rfl⟩) | rfl <;> trivial
      obtain ⟨res', hrun, hready', hrec⟩ := runAll_of_quiet hready hquiet
      refine ⟨by simp [Network.wireEndpoint, seenAfter, hhost], res', hrun, hready', ?_⟩
      have heffective : effectiveFrom t seen [ep] = [] := by simp [effectiveFrom, hhost]
      rw [heffective]
      exact hrec

/-- The impairments of a direction record no address. -/
theorem quiet_wireDirection
    {hosts : List String} {node : Network.Node} (hnode : ∀ name ∈ node.netns, name ∈ hosts)
    (link : Network.Link) (direction : Network.Impairment) (iface : String) :
    ∀ op ∈ Network.wireDirection link direction node iface, Quiet hosts op := by
  intro op hop
  rcases List.mem_cons.mp hop with rfl | hrest
  · trivial
  · by_cases himpaired : link.impaired direction = true
    · rw [if_pos himpaired, List.mem_append, List.mem_map, List.mem_singleton] at hrest
      rcases hrest with ⟨name, hname, rfl⟩ | rfl
      · exact hnode name (Option.mem_toList.mp hname)
      · trivial
    · rw [if_neg himpaired] at hrest
      cases hrest

/-- The statements of a link record the effective addresses of its endpoints. -/
theorem runAll_wireLink
    {t : Topology} (v : Valid t) {link : Link} (hlink : link ∈ t.links) (seen : List String)
    {res : Resources} (hready : Ready t.hosts.keys res) :
    (Network.wireLink t.toNetwork link.toNetwork seen).2 = seenAfter t seen link.endpoints ∧
      ∃ res', runAll (Network.wireLink t.toNetwork link.toNetwork seen).1 res = .ok res' ∧
        Ready t.hosts.keys res' ∧
        Recorded res res' (notedBy .ipv4 res.hostIfaceIp (effectiveFrom t seen link.endpoints))
          (notedBy .ipv6 res.hostIfaceIp6 (effectiveFrom t seen link.endpoints)) := by
  obtain ⟨a, b, hresolve, hplaceA, hplaceB⟩ := resolveLink_of_valid v hlink
  have hnetnsA := netns_mem_keys hplaceA
  have hnetnsB := netns_mem_keys hplaceB
  -- The namespaces and the veth pair.
  have hfirst : ∀ op ∈ (a.2.netns.toList ++ b.2.netns.toList).map StartOp.needNamespace ++
      [.create (.veth (Network.vethBetween a b)), .record (.veth (Network.vethBetween a b))],
      Quiet t.hosts.keys op := by
    intro op hop
    simp only [List.mem_append, List.mem_map, List.mem_cons, List.not_mem_nil, or_false,
      Option.mem_toList] at hop
    rcases hop with ⟨name, hname | hname, rfl⟩ | rfl | rfl
    · exact hnetnsA name hname
    · exact hnetnsB name hname
    · trivial
    · trivial
  obtain ⟨res1, hrun1, hready1, hrec1⟩ := runAll_of_quiet hready hfirst
  -- Both endpoints.
  obtain ⟨hseenA, res2, hrun2, hready2, hrec2⟩ :=
    runAll_wireEndpoint v hplaceA .a link.shaping.mtu seen hready1
  obtain ⟨hseenB, res3, hrun3, hready3, hrec3⟩ :=
    runAll_wireEndpoint v hplaceB .b link.shaping.mtu (seenAfter t seen [link.a]) hready2
  -- The impairments.
  obtain ⟨res4, hrun4, hready4, hrec4⟩ := runAll_of_quiet hready3
    (quiet_wireDirection hnetnsA link.toNetwork link.toNetwork.aToB a.1)
  obtain ⟨res5, hrun5, hready5, hrec5⟩ := runAll_of_quiet hready4
    (quiet_wireDirection hnetnsB link.toNetwork link.toNetwork.bToA b.1)
  have hseen : seenAfter t seen link.endpoints =
      seenAfter t (seenAfter t seen [link.a]) [link.b] := seenAfter_append t seen [link.a] [link.b]
  have heffective : effectiveFrom t seen link.endpoints =
      effectiveFrom t seen [link.a] ++ effectiveFrom t (seenAfter t seen [link.a]) [link.b] :=
    effectiveFrom_append t seen [link.a] [link.b]
  have hwire : Network.wireLink t.toNetwork link.toNetwork seen =
      ((a.2.netns.toList ++ b.2.netns.toList).map StartOp.needNamespace ++
          [.create (.veth (Network.vethBetween a b)), .record (.veth (Network.vethBetween a b))] ++
          (Network.wireEndpoint a.2 .a link.a.toNetwork a.1 link.shaping.mtu seen).1 ++
          (Network.wireEndpoint b.2 .b link.b.toNetwork b.1 link.shaping.mtu
            (Network.wireEndpoint a.2 .a link.a.toNetwork a.1 link.shaping.mtu seen).2).1 ++
          Network.wireDirection link.toNetwork link.toNetwork.aToB a.2 a.1 ++
          Network.wireDirection link.toNetwork link.toNetwork.bToA b.2 b.1,
        (Network.wireEndpoint b.2 .b link.b.toNetwork b.1 link.shaping.mtu
          (Network.wireEndpoint a.2 .a link.a.toNetwork a.1 link.shaping.mtu seen).2).2) := by
    unfold Network.wireLink
    rw [hresolve]
    rfl
  rw [hwire, hseenA]
  refine ⟨hseenB.trans hseen.symm, res5, ?_, hready5, ?_⟩
  · exact runAll_append (runAll_append (runAll_append (runAll_append hrun1 hrun2) hrun3) hrun4)
      hrun5
  · rw [heffective, notedBy_append, notedBy_append]
    refine ⟨?_, ?_, ?_⟩
    · rw [hrec5.namespaces, hrec4.namespaces, hrec3.namespaces, hrec2.namespaces, hrec1.namespaces]
    · rw [hrec5.ip, hrec4.ip, hrec3.ip, hrec2.ip, hrec1.ip]
    · rw [hrec5.ip6, hrec4.ip6, hrec3.ip6, hrec2.ip6, hrec1.ip6]

/-- The statements of the links record the effective addresses of their endpoints. -/
theorem runAll_wireLinks
    {t : Topology} (v : Valid t) {links : List Link} (hlinks : ∀ link ∈ links, link ∈ t.links)
    (seen : List String) {res : Resources} (hready : Ready t.hosts.keys res) :
    ∃ res', runAll (Network.wireLinks t.toNetwork (links.map Link.toNetwork) seen) res = .ok res' ∧
      Recorded res res'
        (notedBy .ipv4 res.hostIfaceIp (effectiveFrom t seen (links.flatMap Link.endpoints)))
        (notedBy .ipv6 res.hostIfaceIp6 (effectiveFrom t seen (links.flatMap Link.endpoints))) := by
  induction links generalizing seen res with
  | nil => exact ⟨res, rfl, rfl, rfl, rfl⟩
  | cons link rest ih =>
      obtain ⟨hseen, mid, hmid, hreadyMid, hrecMid⟩ :=
        runAll_wireLink v (hlinks link (List.mem_cons_self ..)) seen hready
      obtain ⟨res', hrun, hrec⟩ := ih (fun l hl => hlinks l (List.mem_cons_of_mem _ hl))
        (seenAfter t seen link.endpoints) hreadyMid
      refine ⟨res', ?_, ?_⟩
      · rw [List.map_cons, Network.wireLinks]
        exact runAll_append hmid (hseen ▸ hrun)
      · rw [List.flatMap_cons, effectiveFrom_append, notedBy_append, notedBy_append]
        exact ⟨hrec.namespaces.trans hrecMid.namespaces,
          hrec.ip.trans (by rw [hrecMid.ip]), hrec.ip6.trans (by rw [hrecMid.ip6])⟩

/-! ### The statements before the links -/

theorem runAll_namespaceOps
    (hosts : List String) (res : Resources) :
    ∃ res', runAll (hosts.flatMap Network.namespaceOps) res = .ok res' ∧
      ∀ h, h ∈ hosts ∨ h ∈ res.namespaces.keys → h ∈ res'.namespaces.keys := by
  induction hosts generalizing res with
  | nil => exact ⟨res, rfl, fun h hh => hh.resolve_left (List.not_mem_nil)⟩
  | cons host rest ih =>
      let mid : Resources := { res with toHeld := res.toHeld.record (.netns host) }
      obtain ⟨res', hrun, hkeys⟩ := ih mid
      have hmid : ∀ h, h ∈ mid.namespaces.keys ↔ h = host ∨ h ∈ res.namespaces.keys :=
        fun h => res.namespaces.mem_keys_set host h host
      refine ⟨res', hrun, fun h hh => hkeys h ?_⟩
      rw [hmid]
      rcases hh with hmem | hold
      · rcases List.mem_cons.mp hmem with rfl | hrest
        · exact Or.inr (Or.inl rfl)
        · exact Or.inl hrest
      · exact Or.inr (Or.inr hold)

theorem runAll_initIface
    (hosts : List String) (res : Resources) :
    ∃ res', runAll (hosts.map .initIface) res = .ok res' ∧ res'.namespaces = res.namespaces ∧
      ∀ h, (h ∈ hosts → res'.hostIfaceIp.get? h = some OrderedDict.empty ∧
          res'.hostIfaceIp6.get? h = some OrderedDict.empty) ∧
        (h ∉ hosts → res'.hostIfaceIp.get? h = res.hostIfaceIp.get? h ∧
          res'.hostIfaceIp6.get? h = res.hostIfaceIp6.get? h) := by
  induction hosts generalizing res with
  | nil => exact ⟨res, rfl, rfl, fun h => ⟨fun hh => absurd hh List.not_mem_nil, fun _ => ⟨rfl, rfl⟩⟩⟩
  | cons host rest ih =>
      obtain ⟨res', hrun, hns, hget⟩ := ih { res with
        hostIfaceIp := res.hostIfaceIp.set host OrderedDict.empty
        hostIfaceIp6 := res.hostIfaceIp6.set host OrderedDict.empty }
      refine ⟨res', hrun, hns, fun h => ⟨fun hh => ?_, fun hh => ?_⟩⟩
      · by_cases hrest : h ∈ rest
        · exact (hget h).1 hrest
        · have hhost : h = host := (List.mem_cons.mp hh).resolve_right hrest
          subst hhost
          exact ⟨((hget h).2 hrest).1.trans (OrderedDict.get?_set_self ..),
            ((hget h).2 hrest).2.trans (OrderedDict.get?_set_self ..)⟩
      · simp only [List.mem_cons, not_or] at hh
        exact ⟨((hget h).2 hh.2).1.trans (OrderedDict.get?_set_of_ne hh.1 ..),
          ((hget h).2 hh.2).2.trans (OrderedDict.get?_set_of_ne hh.1 ..)⟩

end Topo
end P4Net
