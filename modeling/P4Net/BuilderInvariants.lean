import P4Net.TransitionRuns
import P4Net.ValidTopologies

/-!
# What the builder establishes

* `Built` : the invariant of the topologies that the builder reaches.
* `addHost_atomic`, `addSwitch_atomic`, `addLink_atomic` : a method raises and leaves the
  topology, or adds one node or one link.
* `built_after` : every sequence of calls keeps the invariant.
* `Defect` : what `validate` can still find, and `validate_of_built`.
-/

namespace P4Net
namespace Topo

open TextLiterals BigEndian Claims Transactions

/-! ### Interface names -/

theorem toList_ifaceName
    (node : String) (port : Nat) :
    (ifaceName node port).toList = node.toList ++ "-eth".toList ++ Nat.toDigits 10 port := by
  have hport : (toString port).toList = Nat.toDigits 10 port := by
    rw [Nat.toString_eq_repr, Nat.toList_repr]
  rw [ifaceName, String.toList_append, String.toList_append, hport]

/-- The digits at the end of an interface name are its port. -/
theorem takeWhile_ifaceName
    (node : String) (port : Nat) :
    (ifaceName node port).toList.reverse.takeWhile Char.isDigit =
      (Nat.toDigits 10 port).reverse := by
  have hdigits : ∀ c ∈ (Nat.toDigits 10 port).reverse, c.isDigit = true := by
    intro c hc
    exact Nat.isDigit_of_mem_toDigits (by decide) (by decide) (List.mem_reverse.mp hc)
  have htail : ("-eth".toList.reverse ++ node.toList.reverse).takeWhile Char.isDigit = [] := by
    rfl
  rw [toList_ifaceName, List.reverse_append, List.reverse_append,
    List.takeWhile_append_of_pos hdigits, htail, List.append_nil]

/-- An interface name determines its node and its port. -/
theorem ifaceName_injective
    {node node' : String} {port port' : Nat}
    (h : ifaceName node port = ifaceName node' port') :
    node = node' ∧ port = port' := by
  have hdigits : Nat.toDigits 10 port = Nat.toDigits 10 port' := by
    have hrev := takeWhile_ifaceName node port
    rw [h, takeWhile_ifaceName] at hrev
    exact (List.reverse_injective hrev).symm
  have htext := congrArg String.toList h
  rw [toList_ifaceName, toList_ifaceName, hdigits, List.append_cancel_right_eq,
    List.append_cancel_right_eq] at htext
  refine ⟨String.toList_injective htext, ?_⟩
  have hport := Nat.ofDigitChars_toDigits (b := 10) (n := port) (by decide) (by decide)
  have hport' := Nat.ofDigitChars_toDigits (b := 10) (n := port') (by decide) (by decide)
  rw [hdigits, hport'] at hport
  exact hport.symm

theorem ifaceName_ne_lo
    (node : String) (port : Nat) :
    ifaceName node port ≠ "lo" := by
  intro h
  have hdash : '-' ∈ (ifaceName node port).toList := by simp [toList_ifaceName]
  rw [h] at hdash
  revert hdash
  decide

/-! ### The invariant -/

/-- An endpoint that the builder has made. -/
structure EndpointBuilt (t : Topology) (ep : LinkEndpoint String) : Prop where
  known : ep.node ∈ t.hosts.keys ∨ ep.node ∈ t.switches.keys
  iface : ∃ port, ep.port = some port ∧ ep.ifaceName = .str (ifaceName ep.node port) ∧
    validateIfname (ifaceName ep.node port) = .ok ()
  dataPort : ∀ s, t.switches.get? ep.node = some s → DataPort s ep

/-- A topology that the builder has made. -/
structure Built (t : Topology) : Prop where
  hostKeys : ∀ e ∈ t.hosts.entries, e.1 = e.2.name
  switchKeys : ∀ e ∈ t.switches.entries, e.1 = e.2.name
  disjoint : ∀ key ∈ t.hosts.keys, key ∉ t.switches.keys
  endpoints : ∀ ep ∈ t.endpoints, EndpointBuilt t ep

/-- Interfaces of the same name are the same port of the same node. -/
theorem Built.same_port
    {t : Topology} (h : Built t)
    {e f : LinkEndpoint String} (he : e ∈ t.endpoints) (hf : f ∈ t.endpoints)
    (hname : e.ifaceName = f.ifaceName) :
    e.node = f.node ∧ e.port = f.port := by
  rcases (h.endpoints e he).iface with ⟨p, hp, hpn, _⟩
  rcases (h.endpoints f hf).iface with ⟨q, hq, hqn, _⟩
  rw [hpn, hqn, Value.str.injEq] at hname
  have hsame := ifaceName_injective hname
  exact ⟨hsame.1, by rw [hp, hq, hsame.2]⟩

theorem built_empty : Built {} := by
  constructor <;> simp [OrderedDict.empty, OrderedDict.keys, Topology.endpoints]

/-! ### Methods -/

/-- A name that no node has. -/
def Fresh (t : Topology) (name : String) : Prop :=
  name ∉ t.hosts.keys ∧ name ∉ t.switches.keys

theorem fresh_of_reject
    {t : Topology} {name : Value} {s : String} {u : Unit}
    (h : rejectExistingName t name = .ok u) (hname : name = .str s) :
    Fresh t s := by
  simp only [rejectExistingName, bind_eq_ok_iff, check_eq_ok_iff] at h
  rcases h with ⟨_, _, hfresh⟩
  exact hfresh s (by simp [hname])

theorem addHost_atomic
    (args : HostArgs) (t : Topology) :
    Atomic (addHost args) t fun host t' =>
      Fresh t host.name ∧ t' = { t with hosts := t.hosts.set host.name host } := by
  refine .get_bind (.raises_bind fun _ hreject => .raises_bind fun host hmake => .commit ?_)
  have hargs := (Host.make_eq_ok_iff args host).mp hmake
  exact ⟨fresh_of_reject hreject (by rw [hargs]; rfl), rfl⟩

theorem addSwitch_atomic
    (args : SwitchArgs) (t : Topology) :
    Atomic (addSwitch args) t fun switch t' =>
      Fresh t switch.name ∧ t' = { t with switches := t.switches.set switch.name switch } := by
  refine .get_bind (.raises_bind fun _ hreject => .raises_bind fun switch hmake => .commit ?_)
  have hargs := ((P4Switch.make_eq_ok_iff _ switch).mp hmake).1
  exact ⟨fresh_of_reject hreject (congrArg SwitchArgs.name hargs), rfl⟩

/-- A node that a topology holds under its name. -/
def Holds (t : Topology) : Node → Prop
  | .host h => t.hosts.get? h.name = some h
  | .switch s => t.switches.get? s.name = some s

theorem holds_of_resolve
    {t : Topology} {ref : NodeRef} {node : Node}
    (ht : Built t) (h : resolve t ref = .ok node) :
    Holds t node := by
  unfold resolve at h
  split at h
  · rename_i host same
    by_cases hin : t.hosts.get? host.name = some host ∧ same = true
    · rw [if_pos hin] at h
      cases h
      exact hin.1
    · rw [if_neg hin] at h
      cases h
  · rename_i switch same
    by_cases hin : t.switches.get? switch.name = some switch ∧ same = true
    · rw [if_pos hin] at h
      cases h
      exact hin.1
    · rw [if_neg hin] at h
      cases h
  · rename_i name
    unfold Topology.node at h
    split at h
    · rename_i host hget
      cases h
      have hkey : name = host.name :=
        ht.hostKeys _ ((OrderedDict.get?_eq_some_iff _ _ _).mp hget)
      exact show t.hosts.get? host.name = some host from hkey ▸ hget
    · split at h
      · rename_i switch hget
        cases h
        have hkey : name = switch.name :=
          ht.switchKeys _ ((OrderedDict.get?_eq_some_iff _ _ _).mp hget)
        exact show t.switches.get? switch.name = some switch from hkey ▸ hget
      · cases h
  · cases h

/-- The endpoint that `add_link` makes for one side of a new link. -/
structure NewSide (t : Topology) (ref : NodeRef) (args : SideArgs) (node : Node) (port : Nat)
    (ep : LinkEndpoint String) : Prop where
  found : resolve t ref = .ok node
  chosen : autoPort t node args.port = .ok port
  iface : checkIfname (ifaceName node.name port) = .ok ()
  ip : args.ip.isSet = true → node.asSwitch = none
  ip6 : args.ip6.isSet = true → node.asSwitch = none
  made : newEndpoint node port args = .ok ep.detach

/-- A new endpoint is at its node and at the port that has been chosen. -/
theorem NewSide.endpoint
    {t : Topology} {ref : NodeRef} {args : SideArgs} {node : Node} {port : Nat}
    {ep : LinkEndpoint String}
    (h : NewSide t ref args node port ep) :
    ep.node = node.name ∧ ep.port = some port := by
  have hargs := (LinkEndpoint.make_eq_ok_iff _ _).mp h.made
  simp only [endpointArgs, LinkEndpoint.detach, EndpointArgs.mk.injEq, Value.str.injEq] at hargs
  rcases hargs with ⟨hname, hportArg, _⟩
  refine ⟨hname.symm, ?_⟩
  cases hp : ep.port with
  | none => simp [hp, natArg, Value.ofOptInt] at hportArg
  | some p => simpa [hp, natArg, Value.ofOptInt] using hportArg.symm

/-- The endpoint of a link that the builder adds. -/
theorem NewSide.built
    {t : Topology} {ref : NodeRef} {args : SideArgs} {node : Node} {port : Nat}
    {ep : LinkEndpoint String}
    (ht : Built t) (h : NewSide t ref args node port ep) :
    EndpointBuilt t ep := by
  have hnode := holds_of_resolve ht h.found
  rcases h.endpoint with ⟨hname, hepPort⟩
  have hargs := (LinkEndpoint.make_eq_ok_iff _ _).mp h.made
  simp only [endpointArgs, LinkEndpoint.detach, EndpointArgs.mk.injEq, Value.str.injEq] at hargs
  rcases hargs with ⟨_, _, hifaceArg, hipArg, _, hip6Arg⟩
  have hvalid : validateIfname (ifaceName node.name port) = .ok () := by
    have hiface := h.iface
    unfold checkIfname at hiface
    split at hiface
    · assumption
    · cases hiface
  refine ⟨?_, ⟨port, hepPort, ?_, hname ▸ hvalid⟩, ?_⟩
  · rw [hname]
    cases node with
    | host h => exact Or.inl (OrderedDict.mem_keys_of_get? hnode)
    | switch s => exact Or.inr (OrderedDict.mem_keys_of_get? hnode)
  · rw [← hifaceArg, hname]
  · intro s hs
    rw [hname] at hs
    cases node with
    | host h =>
        -- A host is not a switch: the keys are disjoint.
        exact absurd (OrderedDict.mem_keys_of_get? hs)
          (ht.disjoint _ (OrderedDict.mem_keys_of_get? hnode))
    | switch s' =>
        have hsame : s' = s := Option.some.inj (hnode.symm.trans hs)
        subst hsame
        have hunset : ∀ v : Value, (v.isSet = true → (Node.switch s').asSwitch = none) →
            v = .none := by
          intro v hv
          cases v with
          | none => rfl
          | _ => cases hv rfl
        refine ⟨?_, ?_, ?_⟩
        · exact (Value.ofOptStr_eq_none_iff _).mp (hipArg.symm.trans (hunset _ h.ip))
        · exact (Value.ofOptStr_eq_none_iff _).mp (hip6Arg.symm.trans (hunset _ h.ip6))
        · intro p hp
          rw [hepPort, Option.mem_some_iff] at hp
          subst hp
          exact autoPort_switch h.chosen

/-- `add_link` raises and leaves the topology, or appends a link of two new endpoints. -/
theorem addLink_atomic
    (t : Topology) (a b : NodeRef) (argsA argsB : SideArgs) (shaping : ShapingArgs) :
    Atomic (addLink a b argsA argsB shaping) t fun link t' =>
      (∃ node port, NewSide t a argsA node port link.a) ∧
        (∃ node port, NewSide t b argsB node port link.b) ∧
        t' = { t with links := t.links ++ [link] } := by
  refine .get_bind (.raises_bind fun nodeA hnodeA => .raises_bind fun nodeB hnodeB =>
    .raises_bind fun portA hportA => .raises_bind fun portB hportB =>
    .raises_bind fun _ hifaceA => .raises_bind fun _ hifaceB =>
    .raises_bind fun _ hipA => .raises_bind fun _ hipB => .raises_bind fun _ hip6A =>
    .raises_bind fun _ hip6B => .raises_bind fun epA hepA => .raises_bind fun epB hepB =>
    .raises_bind fun link hlink => .commit ?_)
  rw [check_eq_ok_iff] at hipA hipB hip6A hip6B
  rcases (Link.make_eq_ok_iff _ _ _ _).mp hlink with ⟨rfl, rfl, _⟩
  exact ⟨⟨nodeA, portA, hnodeA, hportA, hifaceA, hipA, hip6A, hepA⟩,
    ⟨nodeB, portB, hnodeB, hportB, hifaceB, hipB, hip6B, hepB⟩, rfl⟩

/-! ### Calls -/

/-- The nodes stay what they are when a new one is added. -/
theorem EndpointBuilt.add_host
    {t : Topology} {ep : LinkEndpoint String} {h : Host}
    (hep : EndpointBuilt t ep) :
    EndpointBuilt { t with hosts := t.hosts.set h.name h } ep :=
  ⟨hep.known.imp_left fun hmem => (t.hosts.mem_keys_set ..).mpr (Or.inr hmem), hep.iface,
    hep.dataPort⟩

theorem EndpointBuilt.add_switch
    {t : Topology} {ep : LinkEndpoint String} {s : P4Switch}
    (hep : EndpointBuilt t ep) (hfresh : Fresh t s.name) :
    EndpointBuilt { t with switches := t.switches.set s.name s } ep := by
  have hne : ep.node ≠ s.name := by
    intro he
    rcases hep.known with hmem | hmem
    · exact hfresh.1 (he ▸ hmem)
    · exact hfresh.2 (he ▸ hmem)
  refine ⟨hep.known.imp_right fun hmem => (t.switches.mem_keys_set ..).mpr (Or.inr hmem),
    hep.iface, fun s' hs' => hep.dataPort s' ?_⟩
  rw [← hs']
  exact (OrderedDict.get?_set_of_ne hne ..).symm

theorem Built.add_host
    {t : Topology} {h : Host}
    (ht : Built t) (hfresh : Fresh t h.name) :
    Built { t with hosts := t.hosts.set h.name h } := by
  refine ⟨?_, ht.switchKeys, ?_, fun ep hep => (ht.endpoints ep hep).add_host⟩
  · intro e he
    rw [OrderedDict.set_entries_of_not_mem hfresh.1, List.mem_append, List.mem_singleton] at he
    rcases he with hold | rfl
    · exact ht.hostKeys e hold
    · rfl
  · intro key hkey
    rcases (t.hosts.mem_keys_set ..).mp hkey with rfl | hold
    · exact hfresh.2
    · exact ht.disjoint key hold

theorem Built.add_switch
    {t : Topology} {s : P4Switch}
    (ht : Built t) (hfresh : Fresh t s.name) :
    Built { t with switches := t.switches.set s.name s } := by
  refine ⟨ht.hostKeys, ?_, ?_, fun ep hep => (ht.endpoints ep hep).add_switch hfresh⟩
  · intro e he
    rw [OrderedDict.set_entries_of_not_mem hfresh.2, List.mem_append, List.mem_singleton] at he
    rcases he with hold | rfl
    · exact ht.switchKeys e hold
    · rfl
  · intro key hkey hmem
    rcases (t.switches.mem_keys_set ..).mp hmem with rfl | hold
    · exact hfresh.1 hkey
    · exact ht.disjoint key hkey hold

theorem Built.add_link
    {t : Topology} {link : Link}
    (ht : Built t) (ha : EndpointBuilt t link.a) (hb : EndpointBuilt t link.b) :
    Built { t with links := t.links ++ [link] } := by
  refine ⟨ht.hostKeys, ht.switchKeys, ht.disjoint, fun ep hep => ?_⟩
  rcases (by simpa [Topology.endpoints, Link.endpoints] using hep :
      (∃ l ∈ t.links, ep = l.a ∨ ep = l.b) ∨ ep = link.a ∨ ep = link.b) with
    ⟨l, hl, hmem⟩ | rfl | rfl
  · have hold : ep ∈ t.endpoints :=
      List.mem_flatMap.mpr ⟨l, hl, by simpa [Link.endpoints] using hmem⟩
    have hbuilt := ht.endpoints ep hold
    exact ⟨hbuilt.known, hbuilt.iface, hbuilt.dataPort⟩
  · exact ⟨ha.known, ha.iface, ha.dataPort⟩
  · exact ⟨hb.known, hb.iface, hb.dataPort⟩

/-- A call raises and leaves the topology, or returns as its method does. -/
theorem outcome_of_atomic
    {α : Type} {method : Build α} {t : Topology} {P : α → Topology → Prop}
    (h : Atomic method t P) :
    ((Call.run.outcome t method).1.isSome = true → (Call.run.outcome t method).2 = t) ∧
      ((Call.run.outcome t method).1 = none → ∃ a, P a (Call.run.outcome t method).2) := by
  unfold Call.run.outcome
  unfold Atomic at h
  split at h
  · rename_i a t' hrun
    rw [hrun]
    exact ⟨by simp, fun _ => ⟨a, h⟩⟩
  · rename_i e t' hrun
    rw [hrun]
    exact ⟨fun _ => h, by simp⟩

/-- A call that raises leaves the topology, and every call keeps the invariant. -/
theorem call_run
    {t : Topology} (ht : Built t) (call : Call) :
    ((call.run t).1.isSome = true → (call.run t).2 = t) ∧ Built (call.run t).2 := by
  have hcall : ∀ {α : Type} (method : Build α) (P : α → Topology → Prop),
      Atomic method t P → (∀ a t', P a t' → Built t') →
      ((Call.run.outcome t method).1.isSome = true → (Call.run.outcome t method).2 = t) ∧
        Built (Call.run.outcome t method).2 := by
    intro α method P hatomic hbuilt
    rcases outcome_of_atomic hatomic with ⟨hraised, hreturned⟩
    refine ⟨hraised, ?_⟩
    cases hexc : (Call.run.outcome t method).1 with
    | some e =>
        rw [hraised (by rw [hexc]; rfl)]
        exact ht
    | none =>
        obtain ⟨a, ha⟩ := hreturned hexc
        exact hbuilt a _ ha
  cases call with
  | addHost args =>
      refine hcall _ _ (addHost_atomic args t) ?_
      rintro host t' ⟨hfresh, rfl⟩
      exact ht.add_host hfresh
  | addSwitch args =>
      refine hcall _ _ (addSwitch_atomic args t) ?_
      rintro switch t' ⟨hfresh, rfl⟩
      exact ht.add_switch hfresh
  | addLink a b argsA argsB shaping =>
      refine hcall _ _ (addLink_atomic t a b argsA argsB shaping) ?_
      rintro link t' ⟨⟨_, _, ha⟩, ⟨_, _, hb⟩, rfl⟩
      exact ht.add_link (ha.built ht) (hb.built ht)

/-- Every sequence of calls keeps the invariant. -/
theorem built_after
    (calls : List Call) :
    Built (after calls) := by
  have hrun : ∀ (calls : List Call) (t : Topology), Built t →
      Built (calls.foldl (fun t call => (call.run t).2) t) := by
    intro calls
    induction calls with
    | nil => exact fun t ht => ht
    | cons call rest ih => exact fun t ht => ih _ (call_run ht call).2
  exact hrun calls {} built_empty

/-! ### Validation of a built topology -/

/-- What `validate` can find in a topology that the builder has made. -/
inductive Defect (t : Topology) : Prop where
  | selfLink (link : Link) (hlink : link ∈ t.links) (hself : link.a.node = link.b.node)
  | repeatedPort (h : ¬ (t.endpoints.filterMap portKey).Nodup)
  | deviceId (h : ¬ (t.switches.values.filterMap fun s => s.deviceId).Nodup)
  | servicePort (h : ¬ (t.switches.values.flatMap servicePorts).Nodup)
  | override (ep : LinkEndpoint String) (hep : ep ∈ t.endpoints) (hhost : ep.node ∈ t.hosts.keys)
      (text : String) (hip : ep.ip = some text) (hread : Family.ipv4.parse text = none)
  | sharedAddress (family : Family) (c d : Bytes × String)
      (hc : c ∈ claimedAddresses family (effectiveAddresses t))
      (hd : d ∈ claimedAddresses family (effectiveAddresses t))
      (haddress : c.1 = d.1) (hhosts : c.2 ≠ d.2)

/-- Every effective address can be read, unless it is an IPv4 override. -/
theorem readable_of_overrides
    {t : Topology}
    (h : ∀ ep ∈ t.endpoints, ep.node ∈ t.hosts.keys → ∀ text ∈ ep.ip,
      (Family.ipv4.parse text).isSome)
    (family : Family) (e : Effective) (he : e ∈ effectiveAddresses t)
    (text : String) (htext : text ∈ e.address family) :
    (family.parse text).isSome := by
  rcases mem_effectiveFrom he with ⟨hep, hhost, _⟩
  have hsource := mem_address he htext
  cases family with
  | ipv4 =>
      rcases hsource with hip | hip
      · exact h e.ep hep (OrderedDict.mem_keys_of_get? hhost) text hip
      · simpa [Family.parse] using e.host.ok.ip text hip
  | ipv6 =>
      rcases hsource with hip | hip
      · simpa [Family.parse] using e.ep.ok.ip6 text hip
      · simpa [Family.parse] using e.host.ok.ip6 text hip

/-- Values are distinct when each determines a key and the keys are distinct. -/
theorem nodup_filterMap_of_keys
    {α κ ν : Type} {key : α → Option κ} {value : α → Option ν} {l : List α}
    (hkey : ∀ a ∈ l, (key a).isSome) (hnodup : (l.filterMap key).Nodup)
    (hdet : ∀ a ∈ l, ∀ b ∈ l, ∀ v, value a = some v → value b = some v → key a = key b) :
    (l.filterMap value).Nodup := by
  induction l with
  | nil => exact List.nodup_nil
  | cons a rest ih =>
      obtain ⟨k, hk⟩ := Option.isSome_iff_exists.mp (hkey a (List.mem_cons_self ..))
      rw [List.filterMap_cons_some hk, List.nodup_cons] at hnodup
      have hrest := ih (fun b hb => hkey b (List.mem_cons_of_mem _ hb)) hnodup.2
        fun b hb c hc => hdet b (List.mem_cons_of_mem _ hb) c (List.mem_cons_of_mem _ hc)
      cases hv : value a with
      | none => rwa [List.filterMap_cons_none hv]
      | some v =>
          rw [List.filterMap_cons_some hv, List.nodup_cons]
          refine ⟨fun hmem => hnodup.1 ?_, hrest⟩
          rcases List.mem_filterMap.mp hmem with ⟨b, hb, hbv⟩
          refine List.mem_filterMap.mpr ⟨b, hb, ?_⟩
          rw [← hk]
          exact (hdet a (List.mem_cons_self ..) b (List.mem_cons_of_mem _ hb) v hv hbv).symm

/-- Distinct ports have distinct interface names. -/
theorem Built.interfaces
    {t : Topology} (ht : Built t) (hports : (t.endpoints.filterMap portKey).Nodup) :
    (t.endpoints.filterMap (ifaceKey t)).Nodup := by
  refine nodup_filterMap_of_keys (fun ep hep => ?_) hports fun e he f hf v hev hfv => ?_
  · rcases (ht.endpoints ep hep).iface with ⟨port, hport, _⟩
    simp [portKey, hport]
  · rcases (ht.endpoints e he).iface with ⟨p, _, hpn, _⟩
    rcases (ht.endpoints f hf).iface with ⟨q, _, hqn, _⟩
    have hname : e.ifaceName = f.ifaceName := by
      cases hes : scopeOf t e.node <;> cases hfs : scopeOf t f.node <;>
        simp [ifaceKey, hpn, hqn, hes, hfs, Value.asStr] at hev hfv
      rw [hpn, hqn, Value.str.injEq]
      exact (Prod.ext_iff.mp hev).2.trans (Prod.ext_iff.mp hfv).2.symm
    have hsame := ht.same_port he hf hname
    simp [portKey, hsame.1, hsame.2]

/-- `validate` accepts a built topology unless it has a defect. -/
theorem validate_of_built
    {t : Topology} (ht : Built t) :
    t.validate = [] ∨ Defect t := by
  by_contra hcon
  rw [not_or] at hcon
  rcases hcon with ⟨hproblem, hdefect⟩
  have hports : (t.endpoints.filterMap portKey).Nodup := by
    by_contra h
    exact hdefect (.repeatedPort h)
  refine hproblem ((validate_eq_nil_iff t).mpr
    { hostKeys := ht.hostKeys
      switchKeys := ht.switchKeys
      disjoint := ht.disjoint
      known := fun ep hep => (ht.endpoints ep hep).known
      ported := ?_
      dataPorts := fun ep hep => (ht.endpoints ep hep).dataPort
      noSelf := ?_
      ports := hports
      deviceIds := ?_
      servicePorts := ?_
      named := ?_
      interfaces := ht.interfaces hports
      readable := readable_of_overrides ?_
      unshared := ?_ })
  · intro ep hep
    rcases (ht.endpoints ep hep).iface with ⟨port, hport, _⟩
    simp [hport]
  · intro link hlink hself
    exact hdefect (.selfLink link hlink hself)
  · by_contra h
    exact hdefect (.deviceId h)
  · by_contra h
    exact hdefect (.servicePort h)
  · intro ep hep
    rcases (ht.endpoints ep hep).iface with ⟨port, _, hname, hvalid⟩
    exact ⟨_, hname, hvalid, ifaceName_ne_lo _ _⟩
  · intro ep hep hhost text hip
    rw [Option.isSome_iff_ne_none]
    intro hread
    exact hdefect (.override ep hep hhost text hip hread)
  · intro family c hc d hd haddress
    by_contra hhosts
    exact hdefect (.sharedAddress family c d hc hd haddress hhosts)

/--
After every sequence of calls, a call that raises leaves the topology as it is, the
invariant of the builder holds, interfaces of the same name are the same port of the same
node, and `validate` returns unless one of the listed defects is there.
-/
theorem builder_safe
    (calls : List Call) :
    (∀ call : Call, (call.run (after calls)).1.isSome = true →
        (call.run (after calls)).2 = after calls) ∧
      Built (after calls) ∧
      (∀ e ∈ (after calls).endpoints, ∀ f ∈ (after calls).endpoints,
        e.ifaceName = f.ifaceName → e.node = f.node ∧ e.port = f.port) ∧
      ((after calls).validate = [] ∨ Defect (after calls)) := by
  have hbuilt := built_after calls
  exact ⟨fun call => (call_run hbuilt call).1, hbuilt, fun e he f hf => hbuilt.same_port he hf,
    validate_of_built hbuilt⟩

end Topo
end P4Net
