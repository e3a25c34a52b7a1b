import P4Net.AddressRecords

/-!
# What wiring a validated topology does

* `wiring_safe` : wiring hits no failure and loses no endpoint.
* `addresses_agree` : the addresses that wiring records are those that `validate` has
  checked, and no two hosts are configured with the same one.
-/

namespace P4Net
namespace Topo

open TextLiterals BigEndian
open Network (StartOp Resources runAll)

/-- The statements of `_do_start` from the creation of the namespaces to the last link. -/
def wiringOps (n : Network.Topology) : List StartOp :=
  n.hosts.keys.flatMap Network.namespaceOps ++ n.hosts.keys.map .initIface ++
    Network.wireLinks n n.links []

/-- The records of a family. -/
def recordsOf (family : Family) (res : Resources) : Records :=
  match family with
  | .ipv4 => res.hostIfaceIp
  | .ipv6 => res.hostIfaceIp6

/-! ### The run -/

/-- Wiring a valid topology succeeds, and records the effective addresses in dictionaries
that were empty. -/
theorem runAll_wiringOps
    {t : Topology} (v : Valid t) (res : Resources) :
    ∃ res', runAll (wiringOps t.toNetwork) res = .ok res' ∧
      ∀ family, ∃ m : Records, (∀ h ∈ t.hosts.keys, m.get? h = some OrderedDict.empty) ∧
        recordsOf family res' = notedBy family m (effectiveAddresses t) := by
  have hhosts : t.toNetwork.hosts.keys = t.hosts.keys := OrderedDict.keys_mapValues _ _
  obtain ⟨res1, hrun1, hns1⟩ := runAll_namespaceOps t.hosts.keys res
  obtain ⟨res2, hrun2, hns2, hinit⟩ := runAll_initIface t.hosts.keys res1
  have hready : Ready t.hosts.keys res2 := fun h hh =>
    ⟨hns2 ▸ hns1 h (Or.inl hh), OrderedDict.mem_keys_of_get? ((hinit h).1 hh).1,
      OrderedDict.mem_keys_of_get? ((hinit h).1 hh).2⟩
  obtain ⟨res3, hrun3, hrec⟩ := runAll_wireLinks v (fun _ hl => hl) [] hready
  refine ⟨res3, ?_, fun family => ?_⟩
  · rw [wiringOps, hhosts, links_toNetwork]
    exact runAll_append (runAll_append hrun1 hrun2) hrun3
  · cases family with
    | ipv4 => exact ⟨res2.hostIfaceIp, fun h hh => ((hinit h).1 hh).1, hrec.ip⟩
    | ipv6 => exact ⟨res2.hostIfaceIp6, fun h hh => ((hinit h).1 hh).2, hrec.ip6⟩

/-! ### Interfaces of hosts -/

/-- The interface of an effective address has a name, and is the host's. -/
theorem ifaceKey_of_effective
    {t : Topology} (v : Valid t) {e : Effective} (he : e ∈ effectiveAddresses t) :
    e.ep.ifaceName = .str (recordKey e).2 ∧
      ifaceKey t e.ep = some (some (recordKey e).1, (recordKey e).2) := by
  rcases mem_effectiveFrom he with ⟨hep, hhost, _⟩
  obtain ⟨name, hname, _⟩ := v.named e.ep hep
  have hkey : e.ep.node = e.host.name :=
    v.hostKeys _ ((OrderedDict.get?_eq_some_iff _ _ _).mp hhost)
  have hmem := OrderedDict.mem_keys_of_get? hhost
  have hscope : scopeOf t e.ep.node = some (some e.host.name) := by
    rw [scopeOf, if_pos hmem, hkey]
  exact ⟨by simp [recordKey, hname, Value.asStr],
    by simp [ifaceKey, recordKey, hname, hscope, Value.asStr]⟩

theorem map_ep_effectiveFrom
    (t : Topology) (seen : List String) (eps : List (LinkEndpoint String)) :
    (effectiveFrom t seen eps).map Effective.ep =
      eps.filter fun ep => (t.hosts.get? ep.node).isSome := by
  induction eps generalizing seen with
  | nil => rfl
  | cons ep rest ih =>
      cases hhost : t.hosts.get? ep.node <;> simp [effectiveFrom, hhost, ih]

/-- The interfaces of hosts are distinct. -/
theorem recordKeys_nodup
    {t : Topology} (v : Valid t) :
    ((effectiveAddresses t).map recordKey).Nodup := by
  have hsub : (((effectiveAddresses t).map Effective.ep).filterMap (ifaceKey t)).Nodup := by
    rw [effectiveAddresses, map_ep_effectiveFrom]
    exact v.interfaces.sublist ((List.filter_sublist ..).filterMap _)
  have hkeys : ((effectiveAddresses t).map Effective.ep).filterMap (ifaceKey t) =
      ((effectiveAddresses t).map recordKey).map fun k => (some k.1, k.2) := by
    rw [List.filterMap_map, List.map_map, ← List.filterMap_eq_map]
    exact List.filterMap_congr fun e he => (ifaceKey_of_effective v he).2
  rw [hkeys] at hsub
  exact hsub.of_map _

/-- What is recorded of a host is an effective address of it. -/
theorem effective_of_recorded
    {family : Family} {m : Records} {es : List Effective} {host iface : String}
    {x : Option String} (hempty : m.get? host = some OrderedDict.empty)
    (h : (notedBy family m es).at? host iface = some x) :
    ∃ e ∈ es, e.host.name = host ∧ x = e.address family := by
  rcases Records.at?_noteAll_cases recordKey _ h with ⟨e, he, hkey, hx⟩ | hold
  · exact ⟨e, he, congrArg Prod.fst hkey, hx⟩
  · simp [Records.at?, hempty] at hold

/-! ### The first link of a host -/

theorem mem_seenAfter
    {t : Topology} (hkeys : ∀ e ∈ t.hosts.entries, e.1 = e.2.name) (seen : List String)
    (eps : List (LinkEndpoint String)) {name : String} (hname : name ∈ t.hosts.keys) :
    name ∈ seenAfter t seen eps ↔ name ∈ seen ∨ ∃ ep ∈ eps, ep.node = name := by
  induction eps generalizing seen with
  | nil => simp [seenAfter]
  | cons ep rest ih =>
      cases hhost : t.hosts.get? ep.node with
      | none =>
          have hne : ep.node ≠ name := by
            rintro rfl
            exact (t.hosts.get?_eq_none_iff _).mp hhost hname
          simp [seenAfter, hhost, ih, hne]
      | some host =>
          have hkey : ep.node = host.name :=
            hkeys _ ((OrderedDict.get?_eq_some_iff _ _ _).mp hhost)
          have hstep : seenAfter t seen (ep :: rest) = seenAfter t (host.name :: seen) rest := by
            simp [seenAfter, hhost]
          have hexists : (∃ f ∈ ep :: rest, f.node = name) ↔
              name = host.name ∨ ∃ f ∈ rest, f.node = name := by
            simp [hkey, eq_comm]
          rw [hstep, ih, hexists, List.mem_cons, or_assoc, or_left_comm]

/-- The addresses of an endpoint: an override, or the default of the host on its first
declared link only, for each family. -/
theorem effective_of_endpoint
    {t : Topology} (hkeys : ∀ e ∈ t.hosts.entries, e.1 = e.2.name)
    {before rest : List (LinkEndpoint String)} {ep : LinkEndpoint String} {host : Host}
    (heps : t.endpoints = before ++ ep :: rest) (hhost : t.hosts.get? ep.node = some host) :
    ∃ e ∈ effectiveAddresses t, e.host = host ∧ e.ep = ep ∧
      e.ipv4 = ep.ip.or (if ∀ f ∈ before, f.node ≠ ep.node then host.ip else none) ∧
      e.ipv6 = ep.ip6.or (if ∀ f ∈ before, f.node ≠ ep.node then host.ip6 else none) := by
  have hkey : ep.node = host.name :=
    hkeys _ ((OrderedDict.get?_eq_some_iff _ _ _).mp hhost)
  have hfirst : host.name ∉ seenAfter t [] before ↔ ∀ f ∈ before, f.node ≠ ep.node := by
    rw [mem_seenAfter hkeys [] before (hkey ▸ OrderedDict.mem_keys_of_get? hhost), ← hkey]
    simp
  let addr := effectiveHostAddresses host ep (decide (host.name ∉ seenAfter t [] before))
  refine ⟨⟨host, ep, addr.1, addr.2⟩, ?_, rfl, rfl, ?_, ?_⟩
  · rw [effectiveAddresses, heps, effectiveFrom_append]
    refine List.mem_append_right _ ?_
    simp [effectiveFrom, hhost, addr]
  · simp [addr, effectiveHostAddresses, hfirst]
  · simp [addr, effectiveHostAddresses, hfirst]

/-! ### Results -/

/--
Wiring a validated topology hits no failure and loses no endpoint.  Every link resolves,
`VethPair` accepts its interfaces, and the statements of the wiring succeed; all interfaces
are distinct in their final namespaces, and none is a loopback; and the port maps of every
switch are those of its endpoints.
-/
theorem wiring_safe
    (t : Topology) (h : t.validate = []) :
    (∀ link ∈ t.links, ∃ a b,
      Network.resolveLink t.toNetwork link.toNetwork = .ok (a, b) ∧
        vethPairInit a.1 b.1 a.2.netns b.2.netns = .ok (Network.vethBetween a b)) ∧
    (∀ res, ∃ res', runAll (wiringOps t.toNetwork) res = .ok res') ∧
    (placements t.toNetwork).length = 2 * t.links.length ∧
    (placements t.toNetwork).Nodup ∧ (∀ p ∈ placements t.toNetwork, p.2 ≠ "lo") ∧
    ∀ switchName ∈ t.switches.keys, PortsWired t switchName := by
  have v := (validate_eq_nil_iff t).mp h
  refine ⟨fun link hlink => ?_, fun res => ?_, ?_, ?_, ?_, fun s hs => portsWired_of_valid v hs⟩
  · obtain ⟨a, b, hresolve, ha, hb⟩ := resolveLink_of_valid v hlink
    exact ⟨a, b, hresolve, vethPair_of_valid v hlink ha hb⟩
  · obtain ⟨res', hrun, _⟩ := runAll_wiringOps v res
    exact ⟨res', hrun⟩
  · have hlinks : ∀ link ∈ t.links, (linkPlacements t.toNetwork link.toNetwork).length = 2 := by
      intro link hlink
      obtain ⟨a, b, hresolve, _⟩ := resolveLink_of_valid v hlink
      simp [linkPlacements, hresolve]
    rw [placements, links_toNetwork, List.flatMap_map, List.length_flatMap,
      List.map_congr_left hlinks]
    simp [mul_comm]
  · rw [placements_of_valid v]
    exact v.interfaces
  · intro p hp
    rw [placements_of_valid v] at hp
    rcases List.mem_filterMap.mp hp with ⟨ep, hep, hkey⟩
    obtain ⟨end', hplace⟩ := placement_of_valid v hep
    rw [hplace.key, Option.some.injEq] at hkey
    exact hkey ▸ hplace.notLo

/-- Two hosts at a switch; the second link overrides the address of its host. -/
def starCalls : List Call := [
  .addHost { name := .str "h1", ip := .str "10.0.0.1/24" },
  .addHost { name := .str "h2", ip := .str "10.0.0.1/24" },
  .addSwitch { name := .str "s1", p4Src := .str "basic.p4", cpuPort := .int 1 },
  .addLink (.value (.str "h1")) (.value (.str "s1")) {} {} unshaped,
  .addLink (.value (.str "s1")) (.value (.str "h2")) {} { ip := .str "10.0.0.2/24" } unshaped]

theorem wiring_safe_star :
    (placements (after starCalls).toNetwork).length = 4 ∧
      (placements (after starCalls).toNetwork).Nodup ∧
      PortsWired (after starCalls) "s1" := by
  have h := wiring_safe (after starCalls) (by decide +kernel)
  exact ⟨h.2.2.1, h.2.2.2.1, h.2.2.2.2.2 "s1" (by decide +kernel)⟩

/--
The addresses that wiring a validated topology records.  For every endpoint of a host they
are the effective addresses that `validate` has computed for it: its override, or else the
default of the host on its first declared link.  All of them can be read, and two hosts
with the same bits are the same host.
-/
theorem addresses_agree
    (t : Topology) (h : t.validate = []) (res : Resources) :
    ∃ res', runAll (wiringOps t.toNetwork) res = .ok res' ∧
      (∀ before ep rest host, t.endpoints = before ++ ep :: rest →
        t.hosts.get? ep.node = some host →
        ∃ e ∈ effectiveAddresses t, e.host = host ∧ e.ep = ep ∧
          e.ipv4 = ep.ip.or (if ∀ f ∈ before, f.node ≠ ep.node then host.ip else none) ∧
          e.ipv6 = ep.ip6.or (if ∀ f ∈ before, f.node ≠ ep.node then host.ip6 else none) ∧
          ∃ iface, ep.ifaceName = .str iface ∧
            ∀ family, (recordsOf family res').at? host.name iface = some (e.address family)) ∧
      ∀ family, ∀ host ∈ t.hosts.keys, ∀ iface text,
        (recordsOf family res').at? host iface = some (some text) →
        ∃ bits, family.parse text = some bits ∧
          ∀ host' ∈ t.hosts.keys, ∀ iface' text',
            (recordsOf family res').at? host' iface' = some (some text') →
            family.parse text' = some bits → host' = host := by
  have v := (validate_eq_nil_iff t).mp h
  obtain ⟨res', hrun, hrec⟩ := runAll_wiringOps v res
  refine ⟨res', hrun, ?_, ?_⟩
  · intro before ep rest host heps hhost
    obtain ⟨e, he, rfl, rfl, h4, h6⟩ := effective_of_endpoint v.hostKeys heps hhost
    refine ⟨e, he, rfl, rfl, h4, h6, _, (ifaceKey_of_effective v he).1, fun family => ?_⟩
    obtain ⟨m, hempty, hm⟩ := hrec family
    rw [hm]
    refine Records.at?_noteAll recordKey _ (fun f hf => ?_) (recordKeys_nodup v) he
    rcases mem_effectiveFrom hf with ⟨_, hfhost, _⟩
    have hfkey : f.ep.node = (recordKey f).1 :=
      v.hostKeys _ ((OrderedDict.get?_eq_some_iff _ _ _).mp hfhost)
    exact OrderedDict.mem_keys_of_get? (hempty _ (hfkey ▸ OrderedDict.mem_keys_of_get? hfhost))
  · intro family
    obtain ⟨m, hempty, hm⟩ := hrec family
    rw [hm]
    have hclaim : ∀ host ∈ t.hosts.keys, ∀ iface text,
        (notedBy family m (effectiveAddresses t)).at? host iface = some (some text) →
        ∃ bits, family.parse text = some bits ∧
          (bits, host) ∈ claimedAddresses family (effectiveAddresses t) := by
      intro host hhost iface text hat
      obtain ⟨e, he, rfl, haddr⟩ := effective_of_recorded (hempty host hhost) hat
      obtain ⟨bits, hbits⟩ :=
        Option.isSome_iff_exists.mp (v.readable family e he text haddr.symm)
      exact ⟨bits, hbits, List.mem_filterMap.mpr ⟨e, he, by simp [← haddr, hbits]⟩⟩
    intro host hhost iface text hat
    obtain ⟨bits, hbits, hmem⟩ := hclaim host hhost iface text hat
    refine ⟨bits, hbits, fun host' hhost' iface' text' hat' hbits' => ?_⟩
    obtain ⟨bits', hparse, hmem'⟩ := hclaim host' hhost' iface' text' hat'
    rw [hbits', Option.some.injEq] at hparse
    subst hparse
    exact v.unshared family _ hmem' _ hmem rfl

theorem addresses_agree_star :
    ∃ res', runAll (wiringOps (after starCalls).toNetwork) {} = .ok res' ∧
      ∀ iface text, (recordsOf .ipv4 res').at? "h2" iface = some (some text) →
        ∃ bits, Family.ipv4.parse text = some bits := by
  obtain ⟨res', hrun, _, haddr⟩ := addresses_agree (after starCalls) (by decide +kernel) {}
  refine ⟨res', hrun, fun iface text hat => ?_⟩
  obtain ⟨bits, hbits, _⟩ := haddr .ipv4 "h2" (by decide +kernel) iface text hat
  exact ⟨bits, hbits⟩

end Topo
end P4Net
