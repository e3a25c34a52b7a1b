import P4Net.TopologySnapshots
import P4Net.WiringSafety

/-!
# The documented rules of `validate`

`Rules` writes down what the documentation asks of a topology, endpoint by endpoint and pair by
pair, without the passes and dictionaries of the code.

* `EffectiveOn` : the addresses of a host, with its defaults on its first endpoint only.
* `Rules` : the rules.
* `rules_iff_valid` : they hold of the valid topologies.
* `hasText_iff_writable` : the topologies of which every problem can be formatted.
* `validate_decides_iff` : `validate` returns on exactly the topologies that meet the rules, and
  raises `TopologyError` otherwise, unless a port has too many digits for a message.
-/

namespace P4Net
namespace Topo

open TextLiterals BigEndian Claims

/-! ### Effective addresses -/

/-- The override of an endpoint. -/
def Family.override (family : Family) (ep : LinkEndpoint String) : Option String :=
  match family with
  | .ipv4 => ep.ip
  | .ipv6 => ep.ip6

/-- The default of a host. -/
def Family.default (family : Family) (host : Host) : Option String :=
  match family with
  | .ipv4 => host.ip
  | .ipv6 => host.ip6

/--
The address is effective on the host: it is the override of one of its endpoints, or it is the
default and the first endpoint of the host has no override.
-/
def EffectiveOn (t : Topology) (family : Family) (host : Host) (text : String) : Prop :=
  ∃ before ep rest, t.endpoints = before ++ ep :: rest ∧ t.hosts.get? ep.node = some host ∧
    (family.override ep).or
      (if ∀ f ∈ before, f.node ≠ ep.node then family.default host else none) = some text

/-- Where an effective address stands among the endpoints. -/
theorem split_of_mem_effectiveFrom
    {t : Topology} {seen : List String} {eps : List (LinkEndpoint String)} {e : Effective}
    (h : e ∈ effectiveFrom t seen eps) :
    ∃ before rest, eps = before ++ e.ep :: rest ∧ t.hosts.get? e.ep.node = some e.host ∧
      (e.ipv4, e.ipv6) =
        effectiveHostAddresses e.host e.ep (decide (e.host.name ∉ seenAfter t seen before)) := by
  induction eps generalizing seen with
  | nil => cases h
  | cons ep rest ih =>
      cases hhost : t.hosts.get? ep.node with
      | none =>
          rw [effectiveFrom, hhost] at h
          obtain ⟨before, after, rfl, hget, haddr⟩ := ih h
          exact ⟨ep :: before, after, rfl, hget, by rw [haddr, seenAfter, hhost]⟩
      | some host =>
          rw [effectiveFrom, hhost] at h
          rcases List.mem_cons.mp h with rfl | h
          · exact ⟨[], rest, rfl, hhost, rfl⟩
          · obtain ⟨before, after, rfl, hget, haddr⟩ := ih h
            exact ⟨ep :: before, after, rfl, hget, by rw [haddr, seenAfter, hhost]⟩

/-- The addresses of the validator are the effective ones. -/
theorem effectiveOn_iff
    {t : Topology} (hkeys : ∀ e ∈ t.hosts.entries, e.1 = e.2.name)
    (family : Family) (host : Host) (text : String) :
    EffectiveOn t family host text ↔
      ∃ e ∈ effectiveAddresses t, e.host = host ∧ e.address family = some text := by
  constructor
  · rintro ⟨before, ep, rest, heps, hhost, htext⟩
    obtain ⟨e, he, rfl, -, h4, h6⟩ := effective_of_endpoint hkeys heps hhost
    refine ⟨e, he, rfl, ?_⟩
    cases family with
    | ipv4 => exact h4.trans htext
    | ipv6 => exact h6.trans htext
  · rintro ⟨e, he, rfl, htext⟩
    obtain ⟨before, rest, heps, hhost, haddr⟩ := split_of_mem_effectiveFrom he
    refine ⟨before, e.ep, rest, heps, hhost, ?_⟩
    have hname : e.ep.node = e.host.name :=
      hkeys _ ((OrderedDict.get?_eq_some_iff _ _ _).mp hhost)
    have hfirst : e.host.name ∉ seenAfter t [] before ↔ ∀ f ∈ before, f.node ≠ e.ep.node := by
      rw [mem_seenAfter hkeys [] before (hname ▸ OrderedDict.mem_keys_of_get? hhost), ← hname]
      simp
    have h4 : e.ipv4 = _ := congrArg Prod.fst haddr
    have h6 : e.ipv6 = _ := congrArg Prod.snd haddr
    cases family with
    | ipv4 =>
        rw [← htext, Effective.address, h4]
        simp [effectiveHostAddresses, hfirst, Family.override, Family.default]
    | ipv6 =>
        rw [← htext, Effective.address, h6]
        simp [effectiveHostAddresses, hfirst, Family.override, Family.default]

/-! ### The rules -/

/-- The interfaces of the two nodes end up in one namespace. -/
def SameNamespace (t : Topology) (a b : String) : Prop :=
  (a ∈ t.hosts.keys ∧ a = b) ∨ (a ∈ t.switches.keys ∧ b ∈ t.switches.keys)

/-- What the documentation asks of a topology. -/
structure Rules (t : Topology) : Prop where
  hostKeys : ∀ key host, t.hosts.get? key = some host → key = host.name
  switchKeys : ∀ key switch, t.switches.get? key = some switch → key = switch.name
  oneKind : ∀ key, ¬ (key ∈ t.hosts.keys ∧ key ∈ t.switches.keys)
  known : ∀ ep ∈ t.endpoints, ep.node ∈ t.hosts.keys ∨ ep.node ∈ t.switches.keys
  ported : ∀ ep ∈ t.endpoints, ∃ port, ep.port = some port
  switchPorts : ∀ ep ∈ t.endpoints, ∀ switch port, t.switches.get? ep.node = some switch →
    ep.port = some port → port ≤ 510 ∧ switch.cpuPort ≠ some port
  switchAddresses : ∀ ep ∈ t.endpoints, ∀ switch, t.switches.get? ep.node = some switch →
    ep.ip = none ∧ ep.ip6 = none
  named : ∀ ep ∈ t.endpoints,
    ∃ name, ep.ifaceName = .str name ∧ validateIfname name = .ok () ∧ name ≠ "lo"
  interfaces : t.endpoints.Pairwise fun e f =>
    ¬ (SameNamespace t e.node f.node ∧ e.ifaceName.asStr = f.ifaceName.asStr)
  noSelf : ∀ link ∈ t.links, link.a.node ≠ link.b.node
  ports : t.endpoints.Pairwise fun e f => ¬ (e.node = f.node ∧ e.port = f.port)
  deviceIds : t.switches.values.Pairwise fun r s =>
    ∀ id, r.deviceId = some id → s.deviceId ≠ some id
  servicePorts : (t.switches.values.flatMap servicePorts).Nodup
  readable : ∀ family host text, EffectiveOn t family host text → (family.parse text).isSome
  unshared : ∀ family host host' text text', EffectiveOn t family host text →
    EffectiveOn t family host' text' → family.parse text = family.parse text' →
      host.name = host'.name

/-- The keys of different values are distinct iff no two values have the same key. -/
theorem nodup_filterMap_iff
    {α β : Type} (key : α → Option β) (l : List α) :
    (l.filterMap key).Nodup ↔ l.Pairwise fun a b => ∀ k, key a = some k → key b ≠ some k := by
  rw [List.Nodup, List.pairwise_filterMap]
  refine ⟨fun h => h.imp ?_, fun h => h.imp ?_⟩
  · intro a b hab k ha hb
    exact hab k ha k hb rfl
  · rintro a b hab k ha k' hb rfl
    exact hab k ha hb

/-- The names of two endpoints collide when their nodes share a namespace. -/
theorem ifaceKey_eq_iff
    {t : Topology} (hone : ∀ key, ¬ (key ∈ t.hosts.keys ∧ key ∈ t.switches.keys))
    {e f : LinkEndpoint String} {name : String} (he : e.ifaceName = .str name)
    (hknown : e.node ∈ t.hosts.keys ∨ e.node ∈ t.switches.keys)
    {name' : String} (hf : f.ifaceName = .str name')
    (hknown' : f.node ∈ t.hosts.keys ∨ f.node ∈ t.switches.keys) :
    (∀ k, ifaceKey t e = some k → ifaceKey t f ≠ some k) ↔
      ¬ (SameNamespace t e.node f.node ∧ e.ifaceName.asStr = f.ifaceName.asStr) := by
  have hscope : ∀ node, node ∈ t.hosts.keys ∨ node ∈ t.switches.keys →
      scopeOf t node = some (if node ∈ t.hosts.keys then some node else none) := by
    intro node hnode
    by_cases hhost : node ∈ t.hosts.keys
    · rw [scopeOf, if_pos hhost, if_pos hhost]
    · rw [scopeOf, if_neg hhost, if_pos (hnode.resolve_left hhost), if_neg hhost]
  have hkeyE : ifaceKey t e =
      some (if e.node ∈ t.hosts.keys then some e.node else none, name) := by
    simp [ifaceKey, he, hscope _ hknown, Value.asStr]
  have hkeyF : ifaceKey t f =
      some (if f.node ∈ t.hosts.keys then some f.node else none, name') := by
    simp [ifaceKey, hf, hscope _ hknown', Value.asStr]
  have hsame : SameNamespace t e.node f.node ↔
      (if f.node ∈ t.hosts.keys then some f.node else none) =
        (if e.node ∈ t.hosts.keys then some e.node else none) := by
    unfold SameNamespace
    by_cases hhost : e.node ∈ t.hosts.keys
    · have hnot : e.node ∉ t.switches.keys := fun h => hone _ ⟨hhost, h⟩
      rw [if_pos hhost]
      by_cases hhost' : f.node ∈ t.hosts.keys
      · rw [if_pos hhost']
        simp [hhost, hnot, eq_comm]
      · have hne : e.node ≠ f.node := fun h => hhost' (h ▸ hhost)
        rw [if_neg hhost']
        simp [hnot, hne]
    · have hswitch := hknown.resolve_left hhost
      rw [if_neg hhost]
      by_cases hhost' : f.node ∈ t.hosts.keys
      · have hnot : f.node ∉ t.switches.keys := fun h => hone _ ⟨hhost', h⟩
        simp [hhost, hhost', hnot]
      · simp [hhost, hhost', hswitch, hknown'.resolve_left hhost']
  rw [hkeyE, hkeyF, hsame, he, hf]
  simp only [Option.some.injEq, forall_eq', ne_eq, Prod.mk.injEq, Value.asStr]
  rw [eq_comm (a := name')]

/-- What is claimed by the hosts of a topology are the effective addresses that can be read. -/
theorem mem_claimed_iff
    {t : Topology} (hkeys : ∀ e ∈ t.hosts.entries, e.1 = e.2.name) (family : Family)
    (bits : Bytes) (name : String) :
    (bits, name) ∈ claimedAddresses family (effectiveAddresses t) ↔
      ∃ host text, EffectiveOn t family host text ∧ family.parse text = some bits ∧
        host.name = name := by
  rw [claimedAddresses, List.mem_filterMap]
  constructor
  · rintro ⟨e, he, h⟩
    obtain ⟨address, haddress, hpair⟩ := Option.map_eq_some_iff.mp h
    obtain ⟨text, htext, hparse⟩ := Option.bind_eq_some_iff.mp haddress
    obtain ⟨rfl, rfl⟩ := Prod.mk.inj hpair
    exact ⟨e.host, text, (effectiveOn_iff hkeys ..).mpr ⟨e, he, rfl, htext⟩, hparse, rfl⟩
  · rintro ⟨host, text, heffective, hparse, rfl⟩
    obtain ⟨e, he, rfl, htext⟩ := (effectiveOn_iff hkeys ..).mp heffective
    exact ⟨e, he, by rw [htext, Option.bind_some, hparse, Option.map_some]⟩

/-- The rules on addresses, in terms of what the validator collects. -/
theorem address_rules_iff
    {t : Topology} (hkeys : ∀ e ∈ t.hosts.entries, e.1 = e.2.name) :
    ((∀ family host text, EffectiveOn t family host text → (family.parse text).isSome) ∧
      ∀ family host host' text text', EffectiveOn t family host text →
        EffectiveOn t family host' text' → family.parse text = family.parse text' →
          host.name = host'.name) ↔
    (∀ family, ∀ e ∈ effectiveAddresses t, ∀ text ∈ e.address family,
      (family.parse text).isSome) ∧
    ∀ family, ∀ c ∈ claimedAddresses family (effectiveAddresses t),
      ∀ d ∈ claimedAddresses family (effectiveAddresses t), c.1 = d.1 → c.2 = d.2 := by
  constructor
  · rintro ⟨hreadable, hunshared⟩
    refine ⟨fun family e he text htext => ?_, ?_⟩
    · exact hreadable family e.host text ((effectiveOn_iff hkeys ..).mpr ⟨e, he, rfl, htext⟩)
    · rintro family ⟨bits, name⟩ hc ⟨bits', name'⟩ hd hbits
      obtain ⟨host, text, heffective, hparse, rfl⟩ := (mem_claimed_iff hkeys ..).mp hc
      obtain ⟨host', text', heffective', hparse', rfl⟩ := (mem_claimed_iff hkeys ..).mp hd
      have hsame : bits = bits' := hbits
      exact hunshared family host host' text text' heffective heffective'
        (by rw [hparse, hparse', hsame])
  · rintro ⟨hreadable, hunshared⟩
    have hread : ∀ family host text, EffectiveOn t family host text →
        (family.parse text).isSome := by
      intro family host text heffective
      obtain ⟨e, he, -, htext⟩ := (effectiveOn_iff hkeys ..).mp heffective
      exact hreadable family e he text htext
    refine ⟨hread, fun family host host' text text' heffective heffective' hparse => ?_⟩
    obtain ⟨bits, hbits⟩ := Option.isSome_iff_exists.mp (hread family host text heffective)
    exact hunshared family (bits, host.name)
      ((mem_claimed_iff hkeys ..).mpr ⟨host, text, heffective, hbits, rfl⟩) (bits, host'.name)
      ((mem_claimed_iff hkeys ..).mpr ⟨host', text', heffective', hparse ▸ hbits, rfl⟩) rfl

/-- Keys are names in a mapping. -/
theorem forall_entries_iff
    {β : Type} (name : β → String) (d : OrderedDict String β) :
    (∀ e ∈ d.entries, e.1 = name e.2) ↔ ∀ key b, d.get? key = some b → key = name b := by
  simp only [OrderedDict.get?_eq_some_iff]
  exact ⟨fun h key b hmem => h (key, b) hmem, fun h e he => h e.1 e.2 he⟩

/-- The rules hold of the valid topologies. -/
theorem rules_iff_valid
    (t : Topology) :
    Rules t ↔ Valid t := by
  have hports : (∀ ep ∈ t.endpoints, ∃ port, ep.port = some port) →
      ((t.endpoints.filterMap portKey).Nodup ↔
        t.endpoints.Pairwise fun e f => ¬ (e.node = f.node ∧ e.port = f.port)) := by
    intro hported
    rw [nodup_filterMap_iff]
    refine List.Pairwise.iff_of_mem fun {e f} he hf => ?_
    obtain ⟨p, hp⟩ := hported e he
    obtain ⟨q, hq⟩ := hported f hf
    simp [portKey, hp, hq, eq_comm]
  have hinterfaces : (∀ key, ¬ (key ∈ t.hosts.keys ∧ key ∈ t.switches.keys)) →
      (∀ ep ∈ t.endpoints, ep.node ∈ t.hosts.keys ∨ ep.node ∈ t.switches.keys) →
      (∀ ep ∈ t.endpoints, Named ep) →
      ((t.endpoints.filterMap (ifaceKey t)).Nodup ↔ t.endpoints.Pairwise fun e f =>
        ¬ (SameNamespace t e.node f.node ∧ e.ifaceName.asStr = f.ifaceName.asStr)) := by
    intro hone hknown hnamed
    rw [nodup_filterMap_iff]
    refine List.Pairwise.iff_of_mem fun {e f} he hf => ?_
    obtain ⟨name, hname, -, -⟩ := hnamed e he
    obtain ⟨name', hname', -, -⟩ := hnamed f hf
    exact ifaceKey_eq_iff hone hname (hknown e he) hname' (hknown f hf)
  constructor
  · intro r
    have hkeys := (forall_entries_iff _ _).mpr r.hostKeys
    obtain ⟨hreadable, hunshared⟩ := (address_rules_iff hkeys).mp ⟨r.readable, r.unshared⟩
    exact
      { hostKeys := hkeys
        switchKeys := (forall_entries_iff _ _).mpr r.switchKeys
        disjoint := fun key hhost hswitch => r.oneKind key ⟨hhost, hswitch⟩
        known := r.known
        ported := fun ep hep => Option.isSome_iff_exists.mpr (r.ported ep hep)
        dataPorts := fun ep hep s hs =>
          ⟨(r.switchAddresses ep hep s hs).1, (r.switchAddresses ep hep s hs).2,
            fun port hport => r.switchPorts ep hep s port hs hport⟩
        noSelf := r.noSelf
        ports := (hports r.ported).mpr r.ports
        deviceIds := (nodup_filterMap_iff _ _).mpr r.deviceIds
        servicePorts := r.servicePorts
        named := r.named
        interfaces := (hinterfaces r.oneKind r.known r.named).mpr r.interfaces
        readable := hreadable
        unshared := hunshared }
  · intro v
    have hone : ∀ key, ¬ (key ∈ t.hosts.keys ∧ key ∈ t.switches.keys) :=
      fun key h => v.disjoint key h.1 h.2
    have hported : ∀ ep ∈ t.endpoints, ∃ port, ep.port = some port :=
      fun ep hep => Option.isSome_iff_exists.mp (v.ported ep hep)
    obtain ⟨hreadable, hunshared⟩ := (address_rules_iff v.hostKeys).mpr ⟨v.readable, v.unshared⟩
    exact
      { hostKeys := (forall_entries_iff _ _).mp v.hostKeys
        switchKeys := (forall_entries_iff _ _).mp v.switchKeys
        oneKind := hone
        known := v.known
        ported := hported
        switchPorts := fun ep hep s port hs hport => (v.dataPorts ep hep s hs).2.2 port hport
        switchAddresses := fun ep hep s hs =>
          ⟨(v.dataPorts ep hep s hs).1, (v.dataPorts ep hep s hs).2.1⟩
        named := v.named
        interfaces := (hinterfaces hone v.known v.named).mp v.interfaces
        noSelf := v.noSelf
        ports := (hports hported).mp v.ports
        deviceIds := (nodup_filterMap_iff _ _).mp v.deviceIds
        servicePorts := v.servicePorts
        readable := hreadable
        unshared := hunshared }

/-! ### Texts of problems -/

/--
The port that the text of a problem gives.  The other numbers of the texts are positions in the
list of links and settings of switches, which `P4Switch` bounds.
-/
def Problem.port? : Problem → Option Nat
  | .portRange _ port => some port
  | .cpuPort _ port => some port
  | .portCollision _ port _ _ => some port
  | _ => none

/-- The text of the problem can be formatted. -/
def Problem.HasText (problem : Problem) : Prop :=
  ∀ port ∈ problem.port?, port < 10 ^ maxStrDigits

instance (problem : Problem) : Decidable problem.HasText :=
  inferInstanceAs (Decidable (∀ port ∈ problem.port?, port < 10 ^ maxStrDigits))

/-- The ports that `validate` has to name can be written. -/
structure Writable (t : Topology) : Prop where
  switchPorts : ∀ ep ∈ t.endpoints, ep.node ∈ t.switches.keys →
    ∀ port ∈ ep.port, port < 10 ^ maxStrDigits
  sharedPorts : t.endpoints.Pairwise fun e f => e.node = f.node → e.port = f.port →
    ∀ port ∈ e.port, port < 10 ^ maxStrDigits

theorem hasText_of_port?_eq_none
    {problem : Problem} (h : problem.port? = none) :
    problem.HasText := by
  simp [Problem.HasText, h]

theorem hasText_of_mem_nodeProblems
    {t : Topology} {problem : Problem} (h : problem ∈ nodeProblems t) :
    problem.HasText := by
  refine hasText_of_port?_eq_none ?_
  simp only [nodeProblems, keyProblems, List.mem_append, List.mem_flatMap] at h
  rcases h with (⟨e, -, h⟩ | ⟨e, -, h⟩) | ⟨key, -, h⟩
  all_goals
    split at h
    · rw [List.mem_singleton.mp h]
      rfl
    · cases h

/-- A problem that names a port has a text iff the port has one. -/
theorem hasText_iff_of_port?_eq_some
    {problem : Problem} {port : Nat} (h : problem.port? = some port) :
    problem.HasText ↔ port < 10 ^ maxStrDigits := by
  simp [Problem.HasText, h]

theorem reportIf_hasText_iff
    (c : Prop) [Decidable c] (reported : Problem) :
    (∀ problem ∈ reportIf c reported, problem.HasText) ↔ (c → reported.HasText) := by
  by_cases h : c <;> simp [reportIf, h]

/-- A port of a switch is named if it is out of range. -/
theorem endpointProblems_hasText_iff
    (t : Topology) (i : Nat) (side : Side) (ep : LinkEndpoint String) :
    (∀ problem ∈ endpointProblems t i side ep, problem.HasText) ↔
      (ep.node ∈ t.switches.keys → ∀ port ∈ ep.port, port < 10 ^ maxStrDigits) := by
  have hsmall : ∀ port, port ≤ 510 → port < 10 ^ maxStrDigits := fun port hport =>
    lt_of_lt_of_le (by omega : port < 10 ^ 3) (Nat.pow_le_pow_right (by omega) (by decide))
  have hplain : ∀ problem : Problem, problem.port? = none → problem.HasText :=
    fun _ => hasText_of_port?_eq_none
  have hunknown : (Problem.unknownNode ⟨i, side, ep.node⟩).HasText := hplain _ rfl
  have hnoPort : (Problem.noPort ⟨i, side, ep.node⟩).HasText := hplain _ rfl
  have haddress : ∀ family (texts : List String), ∀ problem ∈ texts.map fun text =>
      Problem.switchAddress ⟨i, side, ep.node⟩ family text, problem.HasText := by
    intro family texts problem h
    obtain ⟨text, -, rfl⟩ := List.mem_map.mp h
    exact hplain _ rfl
  have hbase : (∀ problem ∈ reportIf (ep.node ∉ t.hosts.keys ∧ ep.node ∉ t.switches.keys)
      (.unknownNode ⟨i, side, ep.node⟩) ++ reportIf (ep.port = none) (.noPort ⟨i, side, ep.node⟩),
      problem.HasText) :=
    List.forall_mem_append.mpr ⟨(reportIf_hasText_iff ..).mpr fun _ => hunknown,
      (reportIf_hasText_iff ..).mpr fun _ => hnoPort⟩
  rw [← OrderedDict.get?_isSome_iff, endpointProblems, List.forall_mem_append,
    and_iff_right hbase]
  cases hswitch : t.switches.get? ep.node with
  | none => simp
  | some s =>
      have haddresses := List.forall_mem_append.mpr
        ⟨haddress .ipv4 ep.ip.toList, haddress .ipv6 ep.ip6.toList⟩
      rw [List.forall_mem_append, and_iff_right haddresses]
      simp only [Option.isSome_some, forall_const]
      cases hport : ep.port with
      | none => simp
      | some port =>
          have hcpu : s.cpuPort = some port →
              (Problem.cpuPort ⟨i, side, ep.node⟩ port).HasText := fun h =>
            (hasText_iff_of_port?_eq_some rfl).mpr (hsmall port (s.ok.cpuPort port h).2)
          simp only [List.forall_mem_append, reportIf_hasText_iff, Option.mem_some_iff,
            forall_eq', iff_true_intro hcpu, and_true]
          rw [hasText_iff_of_port?_eq_some rfl]
          exact ⟨fun h => (le_or_gt port 510).elim (hsmall port) h, fun h _ => h⟩

theorem linkProblems_hasText_iff
    (t : Topology) :
    (∀ problem ∈ t.links.zipIdx.flatMap fun e => linkProblems t e.1 e.2, problem.HasText) ↔
      ∀ ep ∈ t.endpoints, ep.node ∈ t.switches.keys → ∀ port ∈ ep.port,
        port < 10 ^ maxStrDigits := by
  have hlink : ∀ (link : Link) (i : Nat),
      (∀ problem ∈ linkProblems t link i, problem.HasText) ↔
        ∀ ep ∈ link.endpoints, ep.node ∈ t.switches.keys → ∀ port ∈ ep.port,
          port < 10 ^ maxStrDigits := by
    intro link i
    have hself : (Problem.selfLink i link.a.node).HasText := hasText_of_port?_eq_none rfl
    simp [linkProblems, Link.endpoints, or_imp, forall_and, endpointProblems_hasText_iff,
      reportIf_hasText_iff, hself]
  have hall := forall_mem_zipIdx t.links fun link => ∀ ep ∈ link.endpoints,
    ep.node ∈ t.switches.keys → ∀ port ∈ ep.port, port < 10 ^ maxStrDigits
  simp only [List.mem_flatMap, Topology.endpoints]
  constructor
  · rintro h ep ⟨link, hmem, hep⟩
    exact hall.mp (fun e he => (hlink e.1 e.2).mp fun problem hp => h problem ⟨e, he, hp⟩)
      link hmem ep hep
  · rintro h problem ⟨e, he, hp⟩
    exact (hlink e.1 e.2).mpr
      (hall.mpr (fun link hmem ep hep => h ep ⟨link, hmem, hep⟩) e he) problem hp

/-- A port that two endpoints of a node share is named. -/
theorem portItems_hasText_iff
    (t : Topology) :
    (∀ problem ∈ scan OrderedDict.empty ((placed t).map portItem), problem.HasText) ↔
      t.endpoints.Pairwise fun e f => e.node = f.node → e.port = f.port →
        ∀ port ∈ e.port, port < 10 ^ maxStrDigits := by
  have hitems : ∀ key owner collision, .claim key owner collision ∈ (placed t).map portItem →
      ∀ first, (collision first : Problem).HasText ↔ key.2 < 10 ^ maxStrDigits := by
    intro key owner collision h first
    obtain ⟨p, -, hp⟩ := List.mem_map.mp h
    cases hport : p.ep.port with
    | none => simp [portItem, hport] at hp
    | some port =>
        simp only [portItem, hport, Item.claim.injEq] at hp
        obtain ⟨rfl, -, rfl⟩ := hp
        simp [Problem.HasText, Problem.port?]
  have hreports : ∀ problem, .report problem ∈ (placed t).map portItem → problem.HasText :=
    fun problem h => absurd (Item.isReport_report problem) (not_isReport_portItem h)
  rw [forall_mem_scan_iff Problem.HasText (fun key => key.2 < 10 ^ maxStrDigits) _ _ hitems,
    filterMap_key?_portItem, and_iff_right hreports]
  have hempty : (OrderedDict.empty : OrderedDict (String × Nat) Nat).keys = [] := rfl
  rw [hempty, List.nil_append, List.pairwise_filterMap]
  refine List.Pairwise.iff fun e f => ?_
  cases he : e.port with
  | none => simp [portKey, he]
  | some p =>
      cases hf : f.port with
      | none => simp [portKey, he, hf]
      | some q => simp [portKey, he, hf]

/-- What is reported of switches and of interface names gives no port of an endpoint. -/
theorem switchItems_hasText
    (t : Topology) :
    ∀ problem ∈ scan OrderedDict.empty (t.switches.values.flatMap switchItems),
      problem.HasText := by
  refine (forall_mem_scan_iff Problem.HasText (fun _ => True) _ _ ?_).mpr
    ⟨?_, List.pairwise_iff_forall_sublist.mpr fun _ _ => True.intro⟩
  · intro key owner collision h first
    refine iff_true_intro (hasText_of_port?_eq_none ?_)
    obtain ⟨s, -, h⟩ := List.mem_flatMap.mp h
    simp only [switchItems, switchItems.serviceItem, List.mem_append, List.mem_map] at h
    rcases h with (⟨n, -, h⟩ | ⟨n, -, h⟩) | ⟨n, -, h⟩ <;> cases h <;> rfl
  · exact fun problem h => absurd (Item.isReport_report problem) (not_isReport_switchItems h)

theorem ifaceItems_hasText
    (t : Topology) :
    ∀ problem ∈ scan OrderedDict.empty ((placed t).map (ifaceItem t)), problem.HasText := by
  have hitem : ∀ p : Placed, (∀ problem, ifaceItem t p = .report problem → problem.HasText) ∧
      ∀ key owner collision, ifaceItem t p = .claim key owner collision →
        ∀ first, (collision first).HasText := by
    intro p
    refine ⟨fun problem h => ?_, fun key owner collision h first => ?_⟩
    all_goals
      refine hasText_of_port?_eq_none ?_
      unfold ifaceItem at h
      repeat' split at h
      all_goals cases h
      all_goals rfl
  refine (forall_mem_scan_iff Problem.HasText (fun _ => True) _ _ ?_).mpr
    ⟨?_, List.pairwise_iff_forall_sublist.mpr fun _ _ => True.intro⟩
  · intro key owner collision h first
    obtain ⟨p, -, hp⟩ := List.mem_map.mp h
    exact iff_true_intro ((hitem p).2 key owner collision hp first)
  · intro problem h
    obtain ⟨p, -, hp⟩ := List.mem_map.mp h
    exact (hitem p).1 problem hp

theorem addressProblems_hasText
    (t : Topology) :
    ∀ problem ∈ addressProblems t, problem.HasText := by
  have hunreadable : ∀ family e, ∀ problem ∈ unreadable family e, problem.HasText := by
    intro family e
    unfold unreadable
    split
    · exact (reportIf_hasText_iff ..).mpr fun _ => hasText_of_port?_eq_none rfl
    · simp
  have hcollisions : ∀ family es, ∀ problem ∈ collisions family es, problem.HasText := by
    intro family es problem h
    obtain ⟨e, -, h⟩ := List.mem_flatMap.mp h
    exact (reportIf_hasText_iff ..).mpr (fun _ => hasText_of_port?_eq_none rfl) problem h
  refine List.forall_mem_append.mpr
    ⟨List.forall_mem_append.mpr ⟨?_, hcollisions _ _⟩, hcollisions _ _⟩
  intro problem h
  obtain ⟨e, -, h⟩ := List.mem_flatMap.mp h
  exact List.forall_mem_append.mpr ⟨hunreadable .ipv4 e, hunreadable .ipv6 e⟩ problem h

/-- Every problem can be formatted iff the ports that are named can be written. -/
theorem hasText_iff_writable
    (t : Topology) :
    (∀ problem ∈ t.validate, problem.HasText) ↔ Writable t := by
  have hnodes : ∀ problem ∈ nodeProblems t, problem.HasText :=
    fun _ => hasText_of_mem_nodeProblems
  simp only [Topology.validate, List.forall_mem_append, linkProblems_hasText_iff,
    portItems_hasText_iff]
  constructor
  · rintro ⟨⟨⟨⟨⟨-, hswitch⟩, hshared⟩, -⟩, -⟩, -⟩
    exact ⟨hswitch, hshared⟩
  · rintro ⟨hswitch, hshared⟩
    exact ⟨⟨⟨⟨⟨hnodes, hswitch⟩, hshared⟩, switchItems_hasText t⟩, ifaceItems_hasText t⟩,
      addressProblems_hasText t⟩

/-! ### The call -/

/-- What `validate` raises. -/
inductive ValidateError where
  | topologyError (problems : List Problem)
  | valueError

/--
`topology.validate()`: what it raises, if anything, and the topology.  Each text is formatted when
its problem is found, and all of them are joined into one `TopologyError`.
-/
def Topology.validateCall (t : Topology) : Except ValidateError Unit × Topology :=
  (if t.validate = [] then .ok ()
    else if ∀ problem ∈ t.validate, problem.HasText then .error (.topologyError t.validate)
    else .error .valueError, t)

/--
`validate` leaves the topology alone, returns iff the documented rules hold, and raises nothing
but a `TopologyError` that lists at least one problem.
-/
structure Decides (t : Topology) : Prop where
  unchanged : t.validateCall.2 = t
  returns : t.validateCall.1 = .ok () ↔ Rules t
  raises : ∀ e, t.validateCall.1 = .error e → ∃ problem rest, e = .topologyError (problem :: rest)

/-- Whatever it raises, `validate` returns iff the rules hold. -/
theorem validateCall_eq_ok_iff
    (t : Topology) :
    t.validateCall.1 = .ok () ↔ Rules t := by
  rw [rules_iff_valid, ← validate_eq_nil_iff]
  unfold Topology.validateCall
  split_ifs with hnil htext <;> simp [hnil]

/-- A port that cannot be written is a problem, and raises a `ValueError`. -/
theorem validateCall_eq_valueError_iff
    (t : Topology) :
    t.validateCall.1 = .error .valueError ↔ ¬ Writable t := by
  rw [← hasText_iff_writable]
  unfold Topology.validateCall
  split_ifs with hnil htext
  · simp [hnil]
  · simpa using htext
  · simpa using htext

/-- `validate` decides its rules on exactly the topologies whose ports it can name. -/
theorem validate_decides_iff
    (t : Topology) :
    Decides t ↔ Writable t := by
  constructor
  · intro h
    by_contra hnot
    obtain ⟨problem, rest, heq⟩ := h.raises _ ((validateCall_eq_valueError_iff t).mpr hnot)
    cases heq
  · intro h
    refine ⟨rfl, validateCall_eq_ok_iff t, fun e he => ?_⟩
    have htext := (hasText_iff_writable t).mpr h
    unfold Topology.validateCall at he
    split_ifs at he with hnil
    obtain ⟨problem, rest, hcons⟩ := List.exists_cons_of_ne_nil hnil
    exact ⟨problem, rest, by rw [← hcons]; exact (Except.error.inj he).symm⟩

/-- A snapshot of a switch and a host, with a link at the given port of the switch. -/
def linkedAt (port : Nat) : Value := .dict [
  ("hosts", .dict [("h1", .dict [("name", .str "h1")])]),
  ("switches", .dict [("s1", .dict [("name", .str "s1"), ("p4_src", .str "basic.p4")])]),
  ("links", .list [.dict [
    ("a", .dict [("node", .str "s1"), ("port", .int port), ("iface_name", .str "s1-eth1")]),
    ("b", .dict [("node", .str "h1"), ("port", .int 0), ("iface_name", .str "h1-eth0")])]])]

/-- `from_dict` restores the port as stored. -/
theorem fromDict_linkedAt
    (port : Nat) :
    ∃ t, Topology.fromDict (linkedAt port) = .ok t ∧
      ∃ ep ∈ t.endpoints, ep.node ∈ t.switches.keys ∧ ep.port = some port := by
  refine ⟨_, rfl, _, List.mem_cons_self .., ?_, rfl⟩
  show "s1" ∈ ["s1"]
  exact List.mem_cons_self ..

/-- The snapshot is accepted, and `validate` fails while it words the error. -/
theorem linkedAt_valueError :
    ∃ t, Topology.fromDict (linkedAt (10 ^ maxStrDigits)) = .ok t ∧
      t.validateCall.1 = .error .valueError ∧ ¬ Decides t := by
  obtain ⟨t, hload, ep, hep, hswitch, hport⟩ := fromDict_linkedAt (10 ^ maxStrDigits)
  have hnot : ¬ Writable t := fun h => lt_irrefl _ (h.switchPorts ep hep hswitch _ hport)
  have hraised := (validateCall_eq_valueError_iff t).mpr hnot
  refine ⟨t, hload, hraised, fun h => ?_⟩
  obtain ⟨problem, rest, heq⟩ := h.raises _ hraised
  cases heq

end Topo
end P4Net
