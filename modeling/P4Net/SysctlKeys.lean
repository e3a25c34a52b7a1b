import P4Net.TextJoins
import P4Net.WiringSafety

/-!
# The IPv6 gate

`runtime/sysctl.py` switches IPv6 on and off for one interface, whose name stands inside a key of
`sysctl`.  In such a key a dot separates, and a slash stands for a dot.

* `keyPath` : the path that a key denotes.
* `Sysctl.disableIpv6`, `Sysctl.enableIpv6` : the settings of the gate.
* `gateDenotes_iff` : when they denote the paths of the interface.
* `ipv6_gate_iff` : the same for names, and for the wiring of a validated topology.
-/

namespace P4Net
namespace Topo

open TextLiterals
open Network (StartOp)

/-! ### Keys -/

/-- A slash stands for a dot. -/
def unslash (part : Text) : Text := part.map fun c => if c = '/' then '.' else c

/--
The path that a key denotes.  Where the first separator is a dot, every dot separates and a slash
stands for a dot; other keys are not considered.
-/
def keyPath (key : Text) : Option (List Text) :=
  if key.find? (fun c => c = '.' ∨ c = '/') = some '.' then some ((splitOn '.' key).map unslash)
  else none

/-- The path of a setting of an interface. -/
def confPath (iface knob : String) : List Text :=
  ["net".toList, "ipv6".toList, "conf".toList, iface.toList, knob.toList]

/-- A key and the value that is written to it. -/
structure Setting where
  key : String
  value : String
deriving DecidableEq, Repr

/-- The command of `_set_one`. -/
def Setting.argv (setting : Setting) : List String :=
  ["sysctl", "-w", s!"{setting.key}={setting.value}"]

/-- `disable_ipv6`. -/
def Sysctl.disableIpv6 (iface : String) : List Setting :=
  [⟨s!"net.ipv6.conf.{iface}.disable_ipv6", "1"⟩]

/-- `enable_ipv6`. -/
def Sysctl.enableIpv6 (iface : String) (acceptRa autoconf : Bool) : List Setting :=
  [⟨s!"net.ipv6.conf.{iface}.disable_ipv6", "0"⟩,
    ⟨s!"net.ipv6.conf.{iface}.accept_ra", if acceptRa then "1" else "0"⟩,
    ⟨s!"net.ipv6.conf.{iface}.autoconf", if autoconf then "1" else "0"⟩]

/-- The keys of the gate denote the paths of exactly this interface. -/
structure GateDenotes (iface : String) : Prop where
  disable : (Sysctl.disableIpv6 iface).map (fun s => keyPath s.key.toList) =
    [some (confPath iface "disable_ipv6")]
  enable : ∀ acceptRa autoconf,
    (Sysctl.enableIpv6 iface acceptRa autoconf).map (fun s => keyPath s.key.toList) =
      [some (confPath iface "disable_ipv6"), some (confPath iface "accept_ra"),
        some (confPath iface "autoconf")]

/-- The key of a setting of an interface. -/
def gateKey (iface knob : String) : String := "net.ipv6.conf." ++ iface ++ "." ++ knob

/-- The settings of the gate. -/
def knobs : List String := ["disable_ipv6", "accept_ra", "autoconf"]

theorem keyPath_gateKey
    (iface knob : String) :
    keyPath (gateKey iface knob).toList =
      some ("net".toList :: "ipv6".toList :: "conf".toList ::
        (splitOn '.' (iface.toList ++ '.' :: knob.toList)).map unslash) := by
  have happend : ∀ a b c d : String,
      (a ++ b ++ c ++ d).toList = a.toList ++ (b.toList ++ (c.toList ++ d.toList)) := by
    intro a b c d
    simp only [String.toList_append, List.append_assoc]
  have hkey : (gateKey iface knob).toList = "net".toList ++ '.' :: ("ipv6".toList ++
      '.' :: ("conf".toList ++ '.' :: (iface.toList ++ '.' :: knob.toList))) := by
    exact happend _ _ _ _
  have hfirst : ∀ rest : Text,
      ("net".toList ++ '.' :: rest).find? (fun c => c = '.' ∨ c = '/') = some '.' := by
    intro rest
    rfl
  rw [keyPath, hkey, if_pos (hfirst _), splitOn_append (by decide), splitOn_append (by decide),
    splitOn_append (by decide)]
  rfl

/-- Names are accepted without a slash. -/
theorem slash_not_mem_of_validateIfname
    {name : String}
    (h : validateIfname name = .ok ()) :
    '/' ∉ name.toList := by
  unfold validateIfname at h
  simp only at h
  split_ifs at h with _ _ _ hsep
  exact fun hmem => hsep (Or.inl hmem)

theorem unslash_of_not_mem
    {part : Text}
    (h : '/' ∉ part) :
    unslash part = part := by
  have hkeep : ∀ c ∈ part, (if c = '/' then '.' else c) = id c := by
    intro c hc
    exact if_neg fun heq : c = '/' => h (heq ▸ hc)
  rw [unslash, List.map_congr_left hkeep, List.map_id]

theorem plain_of_mem_knobs
    {knob : String}
    (h : knob ∈ knobs) :
    '.' ∉ knob.toList ∧ '/' ∉ knob.toList := by
  have hplain : ∀ k ∈ knobs, '.' ∉ k.toList ∧ '/' ∉ k.toList := by decide
  exact hplain knob h

/-- A dot in the name makes one component too many. -/
theorem dot_not_mem_of_keyPath
    {name iface knob knob' : String}
    (h : keyPath (gateKey name knob).toList = some (confPath iface knob')) :
    '.' ∉ name.toList := by
  intro hmem
  rw [keyPath_gateKey] at h
  have hlength := congrArg List.length (Option.some.inj h)
  have hcount := List.count_pos_iff.mpr hmem
  simp only [confPath, List.length_cons, List.length_map, length_splitOn, List.count_append,
    List.count_cons_self, List.length_nil] at hlength
  omega

/-- A key denotes the path of the interface iff no dot is in the name. -/
theorem keyPath_gateKey_iff
    {name knob : String}
    (hslash : '/' ∉ name.toList) (hknob : knob ∈ knobs) :
    keyPath (gateKey name knob).toList = some (confPath name knob) ↔ '.' ∉ name.toList := by
  obtain ⟨hdot, hslash'⟩ := plain_of_mem_knobs hknob
  refine ⟨dot_not_mem_of_keyPath, fun hmem => ?_⟩
  rw [keyPath_gateKey, splitOn_append hmem, splitOn_of_not_mem hdot, List.map_cons, List.map_cons,
    List.map_nil, unslash_of_not_mem hslash, unslash_of_not_mem hslash']
  rfl

/-- The settings of the gate stand under its keys. -/
theorem gate_settings
    (iface : String) :
    Sysctl.disableIpv6 iface = [⟨gateKey iface "disable_ipv6", "1"⟩] ∧
      ∀ acceptRa autoconf, Sysctl.enableIpv6 iface acceptRa autoconf =
        [⟨gateKey iface "disable_ipv6", "0"⟩,
          ⟨gateKey iface "accept_ra", if acceptRa then "1" else "0"⟩,
          ⟨gateKey iface "autoconf", if autoconf then "1" else "0"⟩] := by
  have hkey : ∀ knob dotted : String, "." ++ knob = dotted →
      gateKey iface knob = "net.ipv6.conf." ++ iface ++ dotted := by
    rintro knob dotted rfl
    exact String.append_assoc
  have hdisable := hkey "disable_ipv6" ".disable_ipv6" (by decide)
  constructor
  · rw [hdisable]
    rfl
  · intro acceptRa autoconf
    rw [hdisable, hkey "accept_ra" ".accept_ra" (by decide), hkey "autoconf" ".autoconf" (by decide)]
    rfl

/-- The gate hits the interface iff no dot is in its name. -/
theorem gateDenotes_iff
    {name : String}
    (h : validateIfname name = .ok ()) :
    GateDenotes name ↔ '.' ∉ name.toList := by
  have hkey : ∀ knob ∈ knobs, (keyPath (gateKey name knob).toList = some (confPath name knob) ↔
      '.' ∉ name.toList) :=
    fun knob hknob => keyPath_gateKey_iff (slash_not_mem_of_validateIfname h) hknob
  obtain ⟨hdisable, henable⟩ := gate_settings name
  constructor
  · intro hgate
    have hfirst := hgate.disable
    rw [hdisable] at hfirst
    exact (hkey "disable_ipv6" (by decide)).mp (List.cons.inj hfirst).1
  · intro hdot
    refine ⟨?_, fun acceptRa autoconf => ?_⟩
    · rw [hdisable, List.map_cons, List.map_nil, (hkey _ (by decide)).mpr hdot]
    · rw [henable, List.map_cons, List.map_cons, List.map_cons, List.map_nil,
        (hkey _ (by decide)).mpr hdot, (hkey _ (by decide)).mpr hdot,
        (hkey _ (by decide)).mpr hdot]

/-! ### Wiring -/

/-- Every setting that wiring makes denotes a path of the interface that it is made for. -/
def WiringDenotes (t : Topology) : Prop :=
  ∀ netns key value, StartOp.call (.sysctl netns key value) ∈ wiringOps t.toNetwork →
    ∃ iface knob, (netns, iface) ∈ placements t.toNetwork ∧ knob ∈ knobs ∧
      keyPath key.toList = some (confPath iface knob)

/-- The statements of wiring make the settings of `sysctl.py`. -/
theorem network_gate
    (netns : Option String) (iface : String) :
    Network.disableIpv6 netns iface =
        (Sysctl.disableIpv6 iface).map (fun s => .call (.sysctl netns s.key s.value)) ∧
      Network.enableIpv6 netns iface =
        (Sysctl.enableIpv6 iface false false).map
          (fun s => .call (.sysctl netns s.key s.value)) := by
  exact ⟨rfl, rfl⟩

/-- The statement makes a setting. -/
def IsSysctl : StartOp → Prop
  | .call (.sysctl _ _ _) => True
  | _ => False

/-- The gate is the only part for an endpoint that makes settings. -/
theorem wireEndpoint_split
    (node : Network.Node) (side : Network.Side) (ep : Network.LinkEndpoint) (iface : String)
    (mtu : Option Nat) (seen : List String) :
    ∃ front gate back, (Network.wireEndpoint node side ep iface mtu seen).1 =
        front ++ gate ++ back ∧
      (gate = Network.disableIpv6 node.netns iface ∨ gate = Network.enableIpv6 node.netns iface) ∧
      ∀ op ∈ front ++ back, ¬ IsSysctl op := by
  cases node with
  | host host =>
      let addr := Network.effectiveHostAddresses host ep (decide (host.name ∉ seen))
      let mac := ep.mac.or (if decide (host.name ∉ seen) then host.mac else none)
      refine ⟨[.noteIface host.name iface addr.1 addr.2, .needNamespace host.name],
        if addr.2.isSome then Network.enableIpv6 (some host.name) iface
          else Network.disableIpv6 (some host.name) iface,
        Network.configureHostIface host.name iface addr.1 addr.2 mac mtu, rfl, ?_, ?_⟩
      · by_cases hip6 : addr.2.isSome = true
        · exact Or.inr (if_pos hip6)
        · exact Or.inl (if_neg hip6)
      · intro op hop
        simp only [Network.configureHostIface, List.mem_append, List.mem_map, List.mem_cons,
          List.not_mem_nil, or_false] at hop
        rcases hop with (rfl | rfl) | (((⟨_, _, rfl⟩ | ⟨_, _, rfl⟩) | ⟨_, _, rfl⟩) |
          ⟨_, _, rfl⟩) | rfl <;> exact id
  | switch switch =>
      refine ⟨[], Network.disableIpv6 none iface,
        (ep.mac.toList.map fun mac => .call (.setMac side mac)) ++
          (mtu.toList.map fun mtu => .call (.setMtu side mtu)) ++ [.call (.setUp side)],
        ?_, Or.inl rfl, ?_⟩
      · simp [Network.wireEndpoint]
      · intro op hop
        simp only [List.nil_append, List.mem_append, List.mem_map, List.mem_singleton] at hop
        rcases hop with (⟨_, _, rfl⟩ | ⟨_, _, rfl⟩) | rfl <;> exact id

section Endpoint

variable {node : Network.Node} {side : Network.Side} {ep : Network.LinkEndpoint}
variable {iface : String} {mtu : Option Nat} {seen : List String}

/-- The settings for an endpoint are made in its namespace and for its interface. -/
theorem sysctl_mem_wireEndpoint
    {netns : Option String} {key value : String}
    (h : StartOp.call (.sysctl netns key value) ∈
      (Network.wireEndpoint node side ep iface mtu seen).1) :
    netns = node.netns ∧ ∃ knob ∈ knobs, key = gateKey iface knob := by
  obtain ⟨front, gate, back, hsplit, hgate, hrest⟩ :=
    wireEndpoint_split node side ep iface mtu seen
  rw [hsplit] at h
  have hmem : StartOp.call (.sysctl netns key value) ∈ gate := by
    by_contra hnot
    refine hrest (.call (.sysctl netns key value)) ?_ trivial
    simp only [List.mem_append] at h ⊢
    tauto
  rw [(network_gate _ iface).1, (network_gate _ iface).2, (gate_settings iface).1,
    (gate_settings iface).2] at hgate
  rcases hgate with rfl | rfl
  · simp only [List.map_cons, List.map_nil, List.mem_singleton, StartOp.call.injEq,
      Network.Primitive.sysctl.injEq] at hmem
    obtain ⟨rfl, rfl, -⟩ := hmem
    exact ⟨rfl, _, by decide, rfl⟩
  · simp only [List.map_cons, List.map_nil, List.mem_cons, StartOp.call.injEq,
      Network.Primitive.sysctl.injEq, List.not_mem_nil, or_false] at hmem
    rcases hmem with ⟨rfl, rfl, -⟩ | ⟨rfl, rfl, -⟩ | ⟨rfl, rfl, -⟩
    · exact ⟨rfl, _, by decide, rfl⟩
    · exact ⟨rfl, _, by decide, rfl⟩
    · exact ⟨rfl, _, by decide, rfl⟩

/-- Every endpoint has its gate. -/
theorem gate_mem_wireEndpoint
    (node : Network.Node) (side : Network.Side) (ep : Network.LinkEndpoint) (iface : String)
    (mtu : Option Nat) (seen : List String) :
    ∃ value, StartOp.call (.sysctl node.netns (gateKey iface "disable_ipv6") value) ∈
      (Network.wireEndpoint node side ep iface mtu seen).1 := by
  obtain ⟨front, gate, back, hsplit, hgate, -⟩ :=
    wireEndpoint_split node side ep iface mtu seen
  obtain ⟨value, hvalue⟩ : ∃ value,
      StartOp.call (.sysctl node.netns (gateKey iface "disable_ipv6") value) ∈ gate := by
    rw [(network_gate _ iface).1, (network_gate _ iface).2, (gate_settings iface).1,
      (gate_settings iface).2] at hgate
    rcases hgate with rfl | rfl
    · exact ⟨"1", by simp⟩
    · exact ⟨"0", by simp⟩
  exact ⟨value, by rw [hsplit]; simp [hvalue]⟩

end Endpoint

theorem not_isSysctl_wireDirection
    (link : Network.Link) (direction : Network.Impairment) (node : Network.Node) (iface : String) :
    ∀ op ∈ Network.wireDirection link direction node iface, ¬ IsSysctl op := by
  intro op hop
  rcases List.mem_cons.mp hop with rfl | hrest
  · exact id
  · by_cases himpaired : link.impaired direction = true
    · rw [if_pos himpaired, List.mem_append, List.mem_map, List.mem_singleton] at hrest
      rcases hrest with ⟨_, _, rfl⟩ | rfl <;> exact id
    · rw [if_neg himpaired] at hrest
      cases hrest

/-- The settings of a link are made for its two interfaces. -/
theorem sysctl_mem_wireLink
    {n : Network.Topology} {link : Network.Link} {seen : List String} {netns : Option String}
    {key value : String}
    (h : StartOp.call (.sysctl netns key value) ∈ (Network.wireLink n link seen).1) :
    ∃ iface, (netns, iface) ∈ linkPlacements n link ∧ ∃ knob ∈ knobs, key = gateKey iface knob := by
  unfold Network.wireLink at h
  unfold linkPlacements
  cases hresolve : Network.resolveLink n link with
  | error exc =>
      rw [hresolve] at h
      simp at h
  | ok ends =>
      obtain ⟨a, b⟩ := ends
      rw [hresolve] at h
      simp only [List.mem_append] at h
      rcases h with ((((h | h) | h) | h) | h) | h
      · simp at h
      · simp at h
      · obtain ⟨rfl, hknob⟩ := sysctl_mem_wireEndpoint h
        exact ⟨a.1, by simp, hknob⟩
      · obtain ⟨rfl, hknob⟩ := sysctl_mem_wireEndpoint h
        exact ⟨b.1, by simp, hknob⟩
      · exact absurd trivial (not_isSysctl_wireDirection _ _ _ _ _ h)
      · exact absurd trivial (not_isSysctl_wireDirection _ _ _ _ _ h)

/-- Both interfaces of a link have their gate. -/
theorem gate_mem_wireLink
    {n : Network.Topology} {link : Network.Link} {netns : Option String} {iface : String}
    (h : (netns, iface) ∈ linkPlacements n link) (seen : List String) :
    ∃ value, StartOp.call (.sysctl netns (gateKey iface "disable_ipv6") value) ∈
      (Network.wireLink n link seen).1 := by
  unfold linkPlacements at h
  unfold Network.wireLink
  cases hresolve : Network.resolveLink n link with
  | error exc =>
      rw [hresolve] at h
      cases h
  | ok ends =>
      obtain ⟨a, b⟩ := ends
      rw [hresolve] at h
      simp only [List.mem_cons, Prod.mk.injEq, List.not_mem_nil, or_false] at h
      rcases h with ⟨rfl, rfl⟩ | ⟨rfl, rfl⟩
      · obtain ⟨value, hvalue⟩ := gate_mem_wireEndpoint a.2 .a link.a a.1 link.mtu seen
        exact ⟨value, by simp [hvalue]⟩
      · obtain ⟨value, hvalue⟩ := gate_mem_wireEndpoint b.2 .b link.b b.1 link.mtu
          (Network.wireEndpoint a.2 .a link.a a.1 link.mtu seen).2
        exact ⟨value, by simp [hvalue]⟩

theorem sysctl_mem_wireLinks
    {n : Network.Topology} {links : List Network.Link} {seen : List String}
    {netns : Option String} {key value : String}
    (h : StartOp.call (.sysctl netns key value) ∈ Network.wireLinks n links seen) :
    ∃ iface, (netns, iface) ∈ links.flatMap (linkPlacements n) ∧
      ∃ knob ∈ knobs, key = gateKey iface knob := by
  induction links generalizing seen with
  | nil => cases h
  | cons link rest ih =>
      rw [Network.wireLinks, List.mem_append] at h
      rw [List.flatMap_cons]
      rcases h with h | h
      · obtain ⟨iface, hmem, hknob⟩ := sysctl_mem_wireLink h
        exact ⟨iface, List.mem_append_left _ hmem, hknob⟩
      · obtain ⟨iface, hmem, hknob⟩ := ih h
        exact ⟨iface, List.mem_append_right _ hmem, hknob⟩

theorem gate_mem_wireLinks
    {n : Network.Topology} {links : List Network.Link} {netns : Option String} {iface : String}
    (h : (netns, iface) ∈ links.flatMap (linkPlacements n)) (seen : List String) :
    ∃ value, StartOp.call (.sysctl netns (gateKey iface "disable_ipv6") value) ∈
      Network.wireLinks n links seen := by
  induction links generalizing seen with
  | nil => cases h
  | cons link rest ih =>
      rw [List.flatMap_cons, List.mem_append] at h
      rw [Network.wireLinks]
      rcases h with h | h
      · obtain ⟨value, hvalue⟩ := gate_mem_wireLink h seen
        exact ⟨value, List.mem_append_left _ hvalue⟩
      · obtain ⟨value, hvalue⟩ := ih h (Network.wireLink n link seen).2
        exact ⟨value, List.mem_append_right _ hvalue⟩

/-- Only the links make settings. -/
theorem sysctl_mem_wiringOps_iff
    (n : Network.Topology) (netns : Option String) (key value : String) :
    StartOp.call (.sysctl netns key value) ∈ wiringOps n ↔
      StartOp.call (.sysctl netns key value) ∈ Network.wireLinks n n.links [] := by
  simp [wiringOps, Network.namespaceOps]

theorem valid_of_mem_placements
    {t : Topology} (v : Valid t) {p : Option String × String}
    (h : p ∈ placements t.toNetwork) :
    validateIfname p.2 = .ok () ∧ p.2 ≠ "lo" := by
  rw [placements_of_valid v] at h
  obtain ⟨ep, hep, hkey⟩ := List.mem_filterMap.mp h
  obtain ⟨end', hplace⟩ := placement_of_valid v hep
  rw [hplace.key] at hkey
  obtain rfl := Option.some.inj hkey
  exact ⟨hplace.valid, hplace.notLo⟩

/-- Wiring a validated topology hits its interfaces iff no dot is in their names. -/
theorem wiringDenotes_iff
    {t : Topology} (v : Valid t) :
    WiringDenotes t ↔ ∀ p ∈ placements t.toNetwork, '.' ∉ p.2.toList := by
  constructor
  · rintro h ⟨netns, iface⟩ hmem
    obtain ⟨value, hvalue⟩ := gate_mem_wireLinks hmem []
    obtain ⟨iface', knob', -, -, hpath⟩ :=
      h netns _ value ((sysctl_mem_wiringOps_iff ..).mpr hvalue)
    exact dot_not_mem_of_keyPath hpath
  · intro h netns key value hop
    obtain ⟨iface, hmem, knob, hknob, rfl⟩ :=
      sysctl_mem_wireLinks ((sysctl_mem_wiringOps_iff ..).mp hop)
    refine ⟨iface, knob, hmem, hknob, (keyPath_gateKey_iff ?_ hknob).mpr (h _ hmem)⟩
    obtain ⟨hvalid, -⟩ := valid_of_mem_placements v hmem
    exact slash_not_mem_of_validateIfname hvalid

/--
For every name that is accepted, the gate denotes the paths of exactly this interface iff no dot
is in the name.  Every setting that the wiring of a validated topology makes denotes a path of an
interface in its own namespace iff no dot is in any of their names.
-/
theorem ipv6_gate_iff
    (t : Topology) :
    (∀ name, validateIfname name = .ok () → (GateDenotes name ↔ '.' ∉ name.toList)) ∧
      (t.validate = [] →
        (WiringDenotes t ↔ ∀ p ∈ placements t.toNetwork, '.' ∉ p.2.toList)) :=
  ⟨fun _ h => gateDenotes_iff h, fun h => wiringDenotes_iff ((validate_eq_nil_iff t).mp h)⟩

/-- The name of a VLAN interface is accepted, and the key is that of another interface. -/
theorem vlan_misses :
    validateIfname "eth0.1" = .ok () ∧ ¬ GateDenotes "eth0.1" ∧
      (Sysctl.disableIpv6 "eth0.1").map (fun s => keyPath s.key.toList) =
        [some ["net".toList, "ipv6".toList, "conf".toList, "eth0".toList, "1".toList,
          "disable_ipv6".toList]] := by
  have hpath : (Sysctl.disableIpv6 "eth0.1").map (fun s => keyPath s.key.toList) =
      [some ["net".toList, "ipv6".toList, "conf".toList, "eth0".toList, "1".toList,
        "disable_ipv6".toList]] := by
    decide
  refine ⟨rfl, fun h => ?_, hpath⟩
  have hdisable := h.disable
  rw [hpath] at hdisable
  revert hdisable
  decide

end Topo
end P4Net
