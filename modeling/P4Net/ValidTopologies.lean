import P4Net.TopologyValidation

/-!
# What a topology without problems is

`Valid` collects what the passes of `validate` check, without their scans, dictionaries
and positions, and `validate_eq_nil_iff` says that `validate` returns on exactly the valid
topologies.  Each pass has one lemma.
-/

namespace P4Net
namespace Topo

open TextLiterals BigEndian Claims

/-- The port that an endpoint uses at its node. -/
def portKey (ep : LinkEndpoint String) : Option (String × Nat) :=
  ep.port.map fun port => (ep.node, port)

/-- The name that an endpoint uses in its final namespace. -/
def ifaceKey (t : Topology) (ep : LinkEndpoint String) : Option (Option String × String) :=
  match ep.ifaceName.asStr, scopeOf t ep.node with
  | some name, some scope => some (scope, name)
  | _, _ => none

/-- The service ports that a switch sets. -/
def servicePorts (s : P4Switch) : List Nat := s.grpcPort.toList ++ s.thriftPort.toList

/-- A switch port is a data port, other than the CPU port, without addresses. -/
def DataPort (s : P4Switch) (ep : LinkEndpoint String) : Prop :=
  ep.ip = none ∧ ep.ip6 = none ∧ ∀ port ∈ ep.port, port ≤ 510 ∧ s.cpuPort ≠ some port

/-- The interface has a name that the kernel accepts and that is not taken by loopback. -/
def Named (ep : LinkEndpoint String) : Prop :=
  ∃ name, ep.ifaceName = .str name ∧ validateIfname name = .ok () ∧ name ≠ "lo"

/-- A topology that `validate` accepts. -/
structure Valid (t : Topology) : Prop where
  hostKeys : ∀ e ∈ t.hosts.entries, e.1 = e.2.name
  switchKeys : ∀ e ∈ t.switches.entries, e.1 = e.2.name
  disjoint : ∀ key ∈ t.hosts.keys, key ∉ t.switches.keys
  known : ∀ ep ∈ t.endpoints, ep.node ∈ t.hosts.keys ∨ ep.node ∈ t.switches.keys
  ported : ∀ ep ∈ t.endpoints, ep.port.isSome
  dataPorts : ∀ ep ∈ t.endpoints, ∀ s, t.switches.get? ep.node = some s → DataPort s ep
  noSelf : ∀ link ∈ t.links, link.a.node ≠ link.b.node
  ports : (t.endpoints.filterMap portKey).Nodup
  deviceIds : (t.switches.values.filterMap fun s => s.deviceId).Nodup
  servicePorts : (t.switches.values.flatMap servicePorts).Nodup
  named : ∀ ep ∈ t.endpoints, Named ep
  interfaces : (t.endpoints.filterMap (ifaceKey t)).Nodup
  readable : ∀ family, ∀ e ∈ effectiveAddresses t, ∀ text ∈ e.address family,
    (family.parse text).isSome
  unshared : ∀ family, ∀ c ∈ claimedAddresses family (effectiveAddresses t),
    ∀ d ∈ claimedAddresses family (effectiveAddresses t), c.1 = d.1 → c.2 = d.2

/-! ### Nodes and links -/

@[simp] theorem reportIf_eq_nil_iff
    (c : Prop) [Decidable c] (problem : Problem) :
    reportIf c problem = [] ↔ ¬ c := by
  by_cases h : c <;> simp [reportIf, h]

theorem keyProblems_eq_nil_iff
    {β : Type} (kind : NodeKind) (name : β → String) (d : OrderedDict String β) :
    keyProblems kind name d = [] ↔ ∀ e ∈ d.entries, e.1 = name e.2 := by
  simp [keyProblems, List.flatMap_eq_nil_iff]

theorem nodeProblems_eq_nil_iff
    (t : Topology) :
    nodeProblems t = [] ↔
      (∀ e ∈ t.hosts.entries, e.1 = e.2.name) ∧ (∀ e ∈ t.switches.entries, e.1 = e.2.name) ∧
        ∀ key ∈ t.hosts.keys, key ∉ t.switches.keys := by
  simp [nodeProblems, keyProblems_eq_nil_iff, List.flatMap_eq_nil_iff]

/-- An endpoint is at a node, with a port that the node can have. -/
def Attached (t : Topology) (ep : LinkEndpoint String) : Prop :=
  (ep.node ∈ t.hosts.keys ∨ ep.node ∈ t.switches.keys) ∧ ep.port.isSome ∧
    ∀ s, t.switches.get? ep.node = some s → DataPort s ep

/-- Both endpoints are attached, to different nodes. -/
def Joined (t : Topology) (link : Link) : Prop :=
  (∀ ep ∈ link.endpoints, Attached t ep) ∧ link.a.node ≠ link.b.node

theorem endpointProblems_eq_nil_iff
    (t : Topology) (i : Nat) (side : Side) (ep : LinkEndpoint String) :
    endpointProblems t i side ep = [] ↔ Attached t ep := by
  have hknown : ¬ (ep.node ∉ t.hosts.keys ∧ ep.node ∉ t.switches.keys) ↔
      (ep.node ∈ t.hosts.keys ∨ ep.node ∈ t.switches.keys) := by tauto
  cases hswitch : t.switches.get? ep.node with
  | none => cases hport : ep.port <;> simp [endpointProblems, Attached, hswitch, hport, hknown]
  | some s =>
      cases hport : ep.port <;> cases hip : ep.ip <;> cases hip6 : ep.ip6 <;>
        simp [endpointProblems, Attached, hswitch, hport, hip, hip6, hknown, DataPort]

theorem linkProblems_eq_nil_iff
    (t : Topology) (link : Link) (i : Nat) :
    linkProblems t link i = [] ↔ Joined t link := by
  simp [linkProblems, endpointProblems_eq_nil_iff, Joined, Link.endpoints, and_assoc]

/-- What holds of every numbered element holds of every element. -/
theorem forall_mem_zipIdx
    {α : Type} (l : List α) (P : α → Prop) :
    (∀ e ∈ l.zipIdx, P e.1) ↔ ∀ a ∈ l, P a := by
  constructor
  · intro h a ha
    obtain ⟨i, hi, rfl⟩ := List.mem_iff_getElem.mp ha
    exact h (l[i], i) (List.mem_zipIdx_iff_getElem?.mpr (by simp))
  · intro h e he
    exact h e.1 (List.fst_mem_of_mem_zipIdx he)

theorem allLinkProblems_eq_nil_iff
    (t : Topology) :
    (t.links.zipIdx.flatMap fun e => linkProblems t e.1 e.2) = [] ↔
      (∀ ep ∈ t.endpoints, Attached t ep) ∧ ∀ link ∈ t.links, link.a.node ≠ link.b.node := by
  simp only [List.flatMap_eq_nil_iff, linkProblems_eq_nil_iff]
  rw [forall_mem_zipIdx t.links (Joined t)]
  simp only [Topology.endpoints, List.mem_flatMap]
  constructor
  · intro h
    exact ⟨fun ep ⟨link, hlink, hep⟩ => (h link hlink).1 ep hep, fun link hlink => (h link hlink).2⟩
  · rintro ⟨heps, hself⟩ link hlink
    exact ⟨fun ep hep => heps ep ⟨link, hlink, hep⟩, hself link hlink⟩

/-! ### Claims -/

/-- The endpoints with their positions are the endpoints. -/
theorem map_ep_placed
    (t : Topology) :
    (placed t).map Placed.ep = t.endpoints := by
  have h : ∀ (l : List Link) (i : Nat),
      ((l.zipIdx i).flatMap fun e => placedIn e.1 e.2).map Placed.ep =
        l.flatMap Link.endpoints := by
    intro l
    induction l with
    | nil => intro i; rfl
    | cons link rest ih =>
        intro i
        simpa [List.zipIdx_cons, placedIn, Link.endpoints] using ih (i + 1)
  exact h t.links 0

theorem mem_endpoints_of_placed
    {t : Topology} {p : Placed}
    (h : p ∈ placed t) :
    p.ep ∈ t.endpoints :=
  map_ep_placed t ▸ List.mem_map_of_mem h

theorem not_isReport_portItem
    {t : Topology} {i : Item (String × Nat) Nat Problem} (h : i ∈ (placed t).map portItem) :
    ¬ i.IsReport := by
  rcases List.mem_map.mp h with ⟨p, _, rfl⟩
  cases hport : p.ep.port <;> simp [portItem, hport]

/-- The keys that the endpoints claim. -/
theorem filterMap_key?_portItem
    (t : Topology) :
    ((placed t).map portItem).filterMap Item.key? = t.endpoints.filterMap portKey := by
  rw [← map_ep_placed, List.filterMap_map, List.filterMap_map]
  congr 1
  funext p
  cases hport : p.ep.port <;> simp [portItem, portKey, hport]

theorem portItems_eq_nil_iff
    (t : Topology) :
    scan OrderedDict.empty ((placed t).map portItem) = [] ↔
      (t.endpoints.filterMap portKey).Nodup := by
  rw [scan_empty_iff, filterMap_key?_portItem]
  exact and_iff_right fun _ => not_isReport_portItem

/-- The device id of a claim. -/
def SwitchKey.asDeviceId : SwitchKey → Option Nat
  | .deviceId n => some n
  | .servicePort _ => none

/-- The service port of a claim. -/
def SwitchKey.asServicePort : SwitchKey → Option Nat
  | .deviceId _ => none
  | .servicePort n => some n

@[simp] theorem filterMap_asDeviceId
    (ids ports : List Nat) :
    (ids.map SwitchKey.deviceId ++ ports.map SwitchKey.servicePort).filterMap
      SwitchKey.asDeviceId = ids := by
  simp [List.filterMap_append, List.filterMap_map, Function.comp_def, SwitchKey.asDeviceId]

@[simp] theorem filterMap_asServicePort
    (ids ports : List Nat) :
    (ids.map SwitchKey.deviceId ++ ports.map SwitchKey.servicePort).filterMap
      SwitchKey.asServicePort = ports := by
  simp [List.filterMap_append, List.filterMap_map, Function.comp_def, SwitchKey.asServicePort]

/-- Keys of two kinds are distinct when those of each kind are. -/
theorem switchKeys_nodup_iff
    (l : List SwitchKey) :
    l.Nodup ↔ (l.filterMap SwitchKey.asDeviceId).Nodup ∧
      (l.filterMap SwitchKey.asServicePort).Nodup := by
  induction l with
  | nil => simp
  | cons k rest ih =>
      cases k with
      | deviceId n =>
          have hmem : .deviceId n ∈ rest ↔ n ∈ rest.filterMap SwitchKey.asDeviceId := by
            rw [List.mem_filterMap]
            constructor
            · exact fun h => ⟨_, h, rfl⟩
            · rintro ⟨k, hk, hn⟩
              cases k <;> simp_all [SwitchKey.asDeviceId]
          have hids : (.deviceId n :: rest).filterMap SwitchKey.asDeviceId =
              n :: rest.filterMap SwitchKey.asDeviceId := rfl
          have hports : (.deviceId n :: rest).filterMap SwitchKey.asServicePort =
              rest.filterMap SwitchKey.asServicePort := rfl
          rw [List.nodup_cons, ih, hmem, hids, hports, List.nodup_cons, and_assoc]
      | servicePort n =>
          have hmem : .servicePort n ∈ rest ↔ n ∈ rest.filterMap SwitchKey.asServicePort := by
            rw [List.mem_filterMap]
            constructor
            · exact fun h => ⟨_, h, rfl⟩
            · rintro ⟨k, hk, hn⟩
              cases k <;> simp_all [SwitchKey.asServicePort]
          have hids : (.servicePort n :: rest).filterMap SwitchKey.asDeviceId =
              rest.filterMap SwitchKey.asDeviceId := rfl
          have hports : (.servicePort n :: rest).filterMap SwitchKey.asServicePort =
              n :: rest.filterMap SwitchKey.asServicePort := rfl
          rw [List.nodup_cons, ih, hmem, hids, hports, List.nodup_cons, and_left_comm]

/-- The keys that a switch claims. -/
theorem filterMap_key?_switchItems
    (s : P4Switch) :
    (switchItems s).filterMap Item.key? =
      (s.deviceId.toList.map .deviceId) ++ (servicePorts s).map .servicePort := by
  cases hd : s.deviceId <;> cases hg : s.grpcPort <;> cases ht : s.thriftPort <;>
    simp [switchItems, switchItems.serviceItem, servicePorts, hd, hg, ht]

theorem not_isReport_switchItems
    {l : List P4Switch} {i : Item SwitchKey (String × Service) Problem}
    (h : i ∈ l.flatMap switchItems) :
    ¬ i.IsReport := by
  rcases List.mem_flatMap.mp h with ⟨s, _, hmem⟩
  simp only [switchItems, List.mem_append, List.mem_map] at hmem
  rcases hmem with (⟨n, _, rfl⟩ | ⟨n, _, rfl⟩) | ⟨n, _, rfl⟩ <;>
    exact fun h => h

theorem switchItems_eq_nil_iff
    (t : Topology) :
    scan OrderedDict.empty (t.switches.values.flatMap switchItems) = [] ↔
      (t.switches.values.filterMap fun s => s.deviceId).Nodup ∧
        (t.switches.values.flatMap servicePorts).Nodup := by
  have hids : ∀ l : List P4Switch,
      ((l.flatMap switchItems).filterMap Item.key?).filterMap SwitchKey.asDeviceId =
        l.filterMap fun s => s.deviceId := by
    intro l
    induction l with
    | nil => rfl
    | cons s rest ih =>
        rw [List.flatMap_cons, List.filterMap_append, List.filterMap_append, ih,
          filterMap_key?_switchItems, filterMap_asDeviceId]
        cases hd : s.deviceId <;> simp [hd]
  have hports : ∀ l : List P4Switch,
      ((l.flatMap switchItems).filterMap Item.key?).filterMap SwitchKey.asServicePort =
        l.flatMap servicePorts := by
    intro l
    induction l with
    | nil => rfl
    | cons s rest ih =>
        rw [List.flatMap_cons, List.filterMap_append, List.filterMap_append, ih,
          filterMap_key?_switchItems, filterMap_asServicePort, List.flatMap_cons]
  rw [scan_empty_iff, switchKeys_nodup_iff, hids, hports]
  exact and_iff_right fun _ => not_isReport_switchItems

/-- An interface name passes, and the endpoint claims it, iff it is `Named`. -/
theorem ifaceItem_isReport_iff
    (t : Topology) (p : Placed) :
    ¬ (ifaceItem t p).IsReport ↔ Named p.ep := by
  unfold ifaceItem Named
  cases hvalue : p.ep.ifaceName with
  | str name =>
      have hempty : validateIfname "" = .error .empty := rfl
      by_cases hne : name = ""
      · simp [hne, hempty]
      · cases hvalid : validateIfname name with
        | error e => simp [hne, hvalid]
        | ok u =>
            by_cases hlo : name = "lo"
            · have hloValid : validateIfname "lo" = .ok () := rfl
              simp [hlo, hloValid]
            · cases hscope : scopeOf t p.ep.node <;> simp [hne, hvalid, hlo]
  | _ => simp

theorem key?_ifaceItem
    {t : Topology} {p : Placed}
    (h : Named p.ep) :
    (ifaceItem t p).key? = ifaceKey t p.ep := by
  rcases h with ⟨name, hvalue, hvalid, hlo⟩
  have hne : name ≠ "" := by
    rintro rfl
    cases hvalid
  unfold ifaceItem ifaceKey
  cases hscope : scopeOf t p.ep.node <;> simp [hvalue, hne, hvalid, hlo, Value.asStr]

theorem ifaceItems_eq_nil_iff
    (t : Topology) :
    scan OrderedDict.empty ((placed t).map (ifaceItem t)) = [] ↔
      (∀ ep ∈ t.endpoints, Named ep) ∧ (t.endpoints.filterMap (ifaceKey t)).Nodup := by
  have hreport : (∀ i ∈ (placed t).map (ifaceItem t), ¬ i.IsReport) ↔
      ∀ ep ∈ t.endpoints, Named ep := by
    simp only [← map_ep_placed, List.forall_mem_map, ifaceItem_isReport_iff]
  rw [scan_empty_iff, hreport]
  refine and_congr_right fun hnamed => ?_
  have hkeys : ((placed t).map (ifaceItem t)).filterMap Item.key? =
      t.endpoints.filterMap (ifaceKey t) := by
    rw [← map_ep_placed, List.filterMap_map, List.filterMap_map]
    exact List.filterMap_congr fun p hp => key?_ifaceItem (hnamed p.ep (mem_endpoints_of_placed hp))
  rw [hkeys]

/-! ### Addresses -/

/-- Where the addresses of an endpoint come from. -/
theorem mem_effectiveFrom
    {t : Topology} {seen : List String} {eps : List (LinkEndpoint String)} {e : Effective}
    (h : e ∈ effectiveFrom t seen eps) :
    e.ep ∈ eps ∧ t.hosts.get? e.ep.node = some e.host ∧
      ∃ first, (e.ipv4, e.ipv6) = effectiveHostAddresses e.host e.ep first := by
  induction eps generalizing seen with
  | nil => cases h
  | cons ep rest ih =>
      unfold effectiveFrom at h
      split at h
      · rcases ih h with ⟨hep, hrest⟩
        exact ⟨List.mem_cons_of_mem _ hep, hrest⟩
      · rename_i host hget
        rcases List.mem_cons.mp h with rfl | hmem
        · exact ⟨List.mem_cons_self .., hget, _, rfl⟩
        · rcases ih hmem with ⟨hep, hrest⟩
          exact ⟨List.mem_cons_of_mem _ hep, hrest⟩

/-- An effective address is an override or the default of the host. -/
theorem mem_address
    {t : Topology} {e : Effective} {family : Family} {text : String}
    (he : e ∈ effectiveAddresses t) (h : text ∈ e.address family) :
    match family with
    | .ipv4 => text ∈ e.ep.ip ∨ text ∈ e.host.ip
    | .ipv6 => text ∈ e.ep.ip6 ∨ text ∈ e.host.ip6 := by
  rcases mem_effectiveFrom he with ⟨_, _, first, haddr⟩
  have h4 : e.ipv4 = _ := congrArg Prod.fst haddr
  have h6 : e.ipv6 = _ := congrArg Prod.snd haddr
  cases family with
  | ipv4 =>
      rw [Effective.address, h4] at h
      cases hov : e.ep.ip with
      | some s => simpa [effectiveHostAddresses, hov, eq_comm] using Or.inl h
      | none =>
          cases first with
          | true => simpa [effectiveHostAddresses, hov, eq_comm] using h
          | false => simp [effectiveHostAddresses, hov] at h
  | ipv6 =>
      rw [Effective.address, h6] at h
      cases hov : e.ep.ip6 with
      | some s => simpa [effectiveHostAddresses, hov, eq_comm] using Or.inl h
      | none =>
          cases first with
          | true => simpa [effectiveHostAddresses, hov, eq_comm] using h
          | false => simp [effectiveHostAddresses, hov] at h

/-- The hosts of an address. -/
def hostsOf (owners : OrderedDict Bytes (List String)) (address : Bytes) : List String :=
  (owners.get? address).getD []

/-- The hosts of an address are those that claim it, each once. -/
structure Owners (claims : List (Bytes × String)) (owners : OrderedDict Bytes (List String)) :
    Prop where
  mem_iff : ∀ address host, host ∈ hostsOf owners address ↔ (address, host) ∈ claims
  nodup : ∀ address, (hostsOf owners address).Nodup

theorem hostsOf_addOwner
    (owners : OrderedDict Bytes (List String)) (claim : Bytes × String) (address : Bytes) :
    hostsOf (addOwner owners claim) address =
      if address = claim.1 ∧ claim.2 ∉ hostsOf owners address then
        hostsOf owners address ++ [claim.2]
      else hostsOf owners address := by
  by_cases haddress : address = claim.1
  · subst haddress
    by_cases hmem : claim.2 ∈ (owners.get? claim.1).getD []
    · simp [hostsOf, addOwner, hmem]
    · simp [hostsOf, addOwner, hmem]
  · simp [hostsOf, addOwner, haddress, OrderedDict.get?_set_of_ne haddress]

/-- One more claim. -/
theorem Owners.addOwner
    {claims : List (Bytes × String)} {owners : OrderedDict Bytes (List String)}
    (h : Owners claims owners) (claim : Bytes × String) :
    Owners (claims ++ [claim]) (addOwner owners claim) := by
  constructor
  · intro address host
    rw [hostsOf_addOwner, List.mem_append, List.mem_singleton, ← h.mem_iff]
    by_cases hnew : address = claim.1 ∧ claim.2 ∉ hostsOf owners address
    · rw [if_pos hnew, List.mem_append, List.mem_singleton, Prod.ext_iff]
      simp [hnew.1]
    · rw [if_neg hnew]
      refine ⟨Or.inl, ?_⟩
      rintro (hmem | heq)
      · exact hmem
      · subst heq
        by_contra hmem
        exact hnew ⟨rfl, hmem⟩
  · intro address
    rw [hostsOf_addOwner]
    by_cases hnew : address = claim.1 ∧ claim.2 ∉ hostsOf owners address
    · rw [if_pos hnew]
      refine List.nodup_append.mpr ⟨h.nodup address, List.nodup_singleton _, ?_⟩
      rintro a ha b hb rfl
      rw [List.mem_singleton] at hb
      exact hnew.2 (hb ▸ ha)
    · rw [if_neg hnew]
      exact h.nodup address

theorem owners_ownersOf
    (claims : List (Bytes × String)) :
    Owners claims (ownersOf claims) := by
  have hempty : Owners [] (OrderedDict.empty : OrderedDict Bytes (List String)) :=
    ⟨fun _ _ => by simp [hostsOf, OrderedDict.empty, OrderedDict.get?, entryLookup],
      fun _ => by simp [hostsOf, OrderedDict.empty, OrderedDict.get?, entryLookup]⟩
  have hfold : ∀ (rest before : List (Bytes × String)) owners, Owners before owners →
      Owners (before ++ rest) (rest.foldl addOwner owners) := by
    intro rest
    induction rest with
    | nil => intro before owners h; simpa using h
    | cons claim rest ih =>
        intro before owners h
        simpa using ih (before ++ [claim]) _ (h.addOwner claim)
  exact hfold claims [] _ hempty

/-- No address is reported iff no two hosts claim the same one. -/
theorem collisions_eq_nil_iff
    (family : Family) (es : List Effective) :
    collisions family es = [] ↔
      ∀ c ∈ claimedAddresses family es, ∀ d ∈ claimedAddresses family es,
        c.1 = d.1 → c.2 = d.2 := by
  have howners := owners_ownersOf (claimedAddresses family es)
  simp only [collisions, List.flatMap_eq_nil_iff, reportIf_eq_nil_iff, not_lt]
  constructor
  · intro h c hc d hd heq
    have hcm := (howners.mem_iff c.1 c.2).mpr hc
    have hdm := (howners.mem_iff c.1 d.2).mpr (by rw [heq]; exact hd)
    cases hget : (ownersOf (claimedAddresses family es)).get? c.1 with
    | none => simp [hostsOf, hget] at hcm
    | some hosts =>
        have hlen := h (c.1, hosts) ((OrderedDict.get?_eq_some_iff _ _ _).mp hget)
        rw [hostsOf, hget] at hcm hdm
        rcases hosts with _ | ⟨host, _ | ⟨other, more⟩⟩
        · cases hcm
        · exact (List.mem_singleton.mp hcm).trans (List.mem_singleton.mp hdm).symm
        · simp at hlen
  · rintro h ⟨address, hosts⟩ he
    have hget := (OrderedDict.get?_eq_some_iff _ _ _).mpr he
    have hhosts : hostsOf (ownersOf (claimedAddresses family es)) address = hosts := by
      rw [hostsOf, hget]
      rfl
    have hsame : ∀ x ∈ hosts, ∀ y ∈ hosts, x = y := by
      intro x hx y hy
      rw [← hhosts] at hx hy
      exact h _ ((howners.mem_iff address x).mp hx) _ ((howners.mem_iff address y).mp hy) rfl
    have hnodup : hosts.Nodup := hhosts ▸ howners.nodup address
    rcases hosts with _ | ⟨x, _ | ⟨y, more⟩⟩
    · simp
    · simp
    · have hxy := hsame x (by simp) y (by simp)
      simp [hxy] at hnodup

theorem unreadable_eq_nil_iff
    (family : Family) (e : Effective) :
    unreadable family e = [] ↔ ∀ text ∈ e.address family, (family.parse text).isSome := by
  cases haddress : e.address family with
  | none => simp [unreadable, haddress]
  | some text =>
      simp [unreadable, haddress, Option.isSome_iff_ne_none]

theorem addressProblems_eq_nil_iff
    (t : Topology) :
    addressProblems t = [] ↔
      (∀ family, ∀ e ∈ effectiveAddresses t, ∀ text ∈ e.address family,
        (family.parse text).isSome) ∧
      ∀ family, ∀ c ∈ claimedAddresses family (effectiveAddresses t),
        ∀ d ∈ claimedAddresses family (effectiveAddresses t), c.1 = d.1 → c.2 = d.2 := by
  simp only [addressProblems, List.append_eq_nil_iff, List.flatMap_eq_nil_iff,
    unreadable_eq_nil_iff, collisions_eq_nil_iff]
  constructor
  · rintro ⟨⟨hread, h4⟩, h6⟩
    constructor
    · intro family e he
      cases family
      · exact (hread e he).1
      · exact (hread e he).2
    · intro family
      cases family
      · exact h4
      · exact h6
  · rintro ⟨hread, hshared⟩
    exact ⟨⟨fun e he => ⟨hread .ipv4 e he, hread .ipv6 e he⟩, hshared .ipv4⟩, hshared .ipv6⟩

/-! ### Validation -/

/-- `validate` returns on exactly the valid topologies. -/
theorem validate_eq_nil_iff
    (t : Topology) :
    t.validate = [] ↔ Valid t := by
  simp only [Topology.validate, List.append_eq_nil_iff, nodeProblems_eq_nil_iff,
    allLinkProblems_eq_nil_iff, portItems_eq_nil_iff, switchItems_eq_nil_iff,
    ifaceItems_eq_nil_iff, addressProblems_eq_nil_iff]
  constructor
  · rintro ⟨⟨⟨⟨⟨⟨hhosts, hswitches, hdisjoint⟩, hattached, hself⟩, hports⟩, hids, hservices⟩,
      hnamed, hifaces⟩, hreadable, hunshared⟩
    exact ⟨hhosts, hswitches, hdisjoint, fun ep hep => (hattached ep hep).1,
      fun ep hep => (hattached ep hep).2.1, fun ep hep => (hattached ep hep).2.2, hself, hports,
      hids, hservices, hnamed, hifaces, hreadable, hunshared⟩
  · intro v
    exact ⟨⟨⟨⟨⟨⟨v.hostKeys, v.switchKeys, v.disjoint⟩,
      fun ep hep => ⟨v.known ep hep, v.ported ep hep, v.dataPorts ep hep⟩, v.noSelf⟩, v.ports⟩,
      v.deviceIds, v.servicePorts⟩, v.named, v.interfaces⟩, v.readable, v.unshared⟩

end Topo
end P4Net
