import P4Net.BuilderInvariants
import Mathlib.Order.Bounds.Basic

/-!
# Automatic ports

The ports that `_auto_port` chooses for the links that ask for none.

* `firstFree_isLeast` : the search returns the least candidate that is not used.
* `freePorts` : the ports that a node can still give to a link, and `isLeast_freePorts`.
* `autoPort_host`, `autoPort_switch_eq` : the port of a host, and of a switch unless all are
  used.
* `FreshPorts` : a link that repeats no port, and `freshPorts_of_automatic`.
-/

namespace P4Net
namespace Topo

open TextLiterals Transactions

/-! ### The search -/

/-- The search passes over used candidates only. -/
theorem mem_of_lt_firstFree
    {used : List Nat} {fuel candidate port : Nat}
    (hle : candidate ≤ port) (hlt : port < firstFree used fuel candidate) :
    port ∈ used := by
  induction fuel generalizing candidate with
  | zero =>
      rw [firstFree] at hlt
      omega
  | succ fuel ih =>
      by_cases hmem : candidate ∈ used
      · rw [firstFree, if_pos hmem] at hlt
        rcases Nat.eq_or_lt_of_le hle with rfl | hnext
        · exact hmem
        · exact ih hnext hlt
      · rw [firstFree, if_neg hmem] at hlt
        omega

theorem le_firstFree
    (used : List Nat) (fuel candidate : Nat) :
    candidate ≤ firstFree used fuel candidate := by
  induction fuel generalizing candidate with
  | zero => exact Nat.le_refl _
  | succ fuel ih =>
      rw [firstFree]
      split
      · exact Nat.le_trans (Nat.le_succ _) (ih _)
      · exact Nat.le_refl _

/-- The search returns the least candidate that is not used. -/
theorem firstFree_isLeast
    {used : List Nat} {fuel candidate : Nat}
    (h : used.countP (fun n => candidate ≤ n) ≤ fuel) :
    IsLeast {port | candidate ≤ port ∧ port ∉ used} (firstFree used fuel candidate) := by
  refine ⟨⟨le_firstFree .., firstFree_not_mem h⟩, ?_⟩
  rintro port ⟨hle, hfree⟩
  by_contra hlt
  exact hfree (mem_of_lt_firstFree hle (Nat.lt_of_not_le hlt))

/-! ### Free ports of a node -/

/-- An endpoint at the node has the port. -/
def InUse (t : Topology) (node : Node) (port : Nat) : Prop :=
  ∃ ep ∈ t.endpoints, ep.node = node.name ∧ ep.port = some port

/-- The first port that is tried at a node. -/
def firstPort : Node → Nat
  | .host _ => 0
  | .switch _ => 1

/-- The ports that a node can still give to a link. -/
def freePorts (t : Topology) (node : Node) : Set Nat :=
  {port | firstPort node ≤ port ∧ ¬ InUse t node port ∧
    ∀ s, node = .switch s → s.cpuPort ≠ some port}

theorem mem_usedPorts_iff
    {t : Topology} {node : Node} {port : Nat} :
    port ∈ usedPorts t node ↔
      InUse t node port ∨ ∃ s, node = .switch s ∧ s.cpuPort = some port := by
  rw [usedPorts, List.mem_append, List.mem_filterMap]
  refine or_congr ?_ ?_
  · constructor
    · rintro ⟨ep, hep, hport⟩
      by_cases hnode : ep.node = node.name
      · rw [if_pos hnode] at hport
        exact ⟨ep, hep, hnode, hport⟩
      · rw [if_neg hnode] at hport
        cases hport
    · rintro ⟨ep, hep, hnode, hport⟩
      exact ⟨ep, hep, by rw [if_pos hnode, hport]⟩
  · cases node with
    | host h => simp [Node.asSwitch]
    | switch s => simp [Node.asSwitch]

/-- The search of `_auto_port` returns the least port that is free. -/
theorem isLeast_freePorts
    (t : Topology) (node : Node) :
    IsLeast (freePorts t node)
      (firstFree (usedPorts t node) (usedPorts t node).length (firstPort node)) := by
  have hfree : freePorts t node = {port | firstPort node ≤ port ∧ port ∉ usedPorts t node} := by
    ext port
    simp only [freePorts, Set.mem_ofPred_eq, mem_usedPorts_iff, not_or, not_exists, not_and,
      ne_eq]
  rw [hfree]
  exact firstFree_isLeast (List.countP_le_length ..)

/-! ### The choice -/

theorem autoPort_host
    (t : Topology) (h : Host) :
    ∃ port, autoPort t (.host h) .none = .ok port ∧ IsLeast (freePorts t (.host h)) port :=
  ⟨_, rfl, isLeast_freePorts t (.host h)⟩

/-- The port of a switch is the least free one, unless there is none up to 510. -/
theorem autoPort_switch_eq
    (t : Topology) (s : P4Switch) :
    ∃ port, IsLeast (freePorts t (.switch s)) port ∧
      autoPort t (.switch s) .none =
        if port ≤ 510 then .ok port else .error (.noFreePort s.name) := by
  refine ⟨_, isLeast_freePorts t (.switch s), ?_⟩
  have hread : readPort .none = .ok none := rfl
  rw [autoPort, hread]
  change (check (firstFree (usedPorts t (.switch s)) _ 1 ≤ 510) _ >>= fun _ => _) = _
  by_cases hrange : firstFree (usedPorts t (.switch s)) (usedPorts t (.switch s)).length 1 ≤ 510
  · rw [check, if_pos hrange, firstPort, if_pos hrange]
    rfl
  · rw [check, if_neg hrange, firstPort, if_neg hrange]
    rfl

/-- A port that has been chosen automatically is the least free one. -/
theorem isLeast_of_autoPort
    {t : Topology} {node : Node} {port : Nat}
    (h : autoPort t node .none = .ok port) :
    IsLeast (freePorts t node) port := by
  cases node with
  | host host =>
      obtain ⟨p, hp, hleast⟩ := autoPort_host t host
      rw [hp, Except.ok.injEq] at h
      exact h ▸ hleast
  | switch s =>
      obtain ⟨p, hleast, hp⟩ := autoPort_switch_eq t s
      by_cases hrange : p ≤ 510
      · rw [hp, if_pos hrange, Except.ok.injEq] at h
        exact h ▸ hleast
      · rw [hp, if_neg hrange] at h
        cases h

/-- Only a switch without free data ports has no automatic port. -/
theorem autoPort_eq_error
    {t : Topology} {node : Node} {e : Exc}
    (h : autoPort t node .none = .error e) :
    ∃ s, node = .switch s ∧ e = .noFreePort s.name := by
  cases node with
  | host host =>
      obtain ⟨p, hp, _⟩ := autoPort_host t host
      rw [hp] at h
      cases h
  | switch s =>
      obtain ⟨p, _, hp⟩ := autoPort_switch_eq t s
      refine ⟨s, rfl, ?_⟩
      by_cases hrange : p ≤ 510
      · rw [hp, if_pos hrange] at h
        cases h
      · rw [hp, if_neg hrange, Except.error.injEq] at h
        exact h.symm

/-- A switch has no automatic port if and only if its data ports are all in use. -/
theorem autoPort_exhausted_iff
    (t : Topology) (s : P4Switch) :
    autoPort t (.switch s) .none = .error (.noFreePort s.name) ↔
      ∀ port, 1 ≤ port → port ≤ 510 → s.cpuPort ≠ some port → InUse t (.switch s) port := by
  obtain ⟨least, hleast, hauto⟩ := autoPort_switch_eq t s
  constructor
  · intro h port hone hrange hcpu
    by_contra hunused
    have hfree : port ∈ freePorts t (.switch s) :=
      ⟨hone, hunused, fun s' hs' => by cases hs'; exact hcpu⟩
    have hle : least ≤ 510 := Nat.le_trans (hleast.2 hfree) hrange
    rw [hauto, if_pos hle] at h
    cases h
  · intro h
    have hgt : ¬ least ≤ 510 := by
      intro hle
      rcases hleast.1 with ⟨hone, hunused, hcpu⟩
      exact hunused (h least hone hle (hcpu s rfl))
    rw [hauto, if_neg hgt]

/-! ### New links -/

/-- The link repeats no port that a link of the topology has, and none of its own. -/
structure FreshPorts (t : Topology) (link : Link) : Prop where
  ported : ∀ ep ∈ link.endpoints, ep.port.isSome
  unused : ∀ ep ∈ link.endpoints, ∀ f ∈ t.endpoints, portKey ep ≠ portKey f
  apart : portKey link.a ≠ portKey link.b

theorem portKey_eq
    {ep : LinkEndpoint String} {name : String} {port : Nat}
    (hname : ep.node = name) (hport : ep.port = some port) :
    portKey ep = some (name, port) := by
  rw [portKey, hport, hname, Option.map_some]

/-- A new endpoint with an automatic port repeats no port. -/
theorem NewSide.unused
    {t : Topology} {ref : NodeRef} {args : SideArgs} {node : Node} {port : Nat}
    {ep : LinkEndpoint String}
    (h : NewSide t ref args node port ep) (hauto : args.port = .none) :
    ∀ f ∈ t.endpoints, portKey ep ≠ portKey f := by
  intro f hf hkey
  have hchosen := h.chosen
  rw [hauto] at hchosen
  have hunused := (isLeast_of_autoPort hchosen).1.2.1
  rcases h.endpoint with ⟨hname, hport⟩
  rw [portKey_eq hname hport, portKey, eq_comm, Option.map_eq_some_iff] at hkey
  rcases hkey with ⟨p, hp, hpair⟩
  rw [Prod.mk.injEq] at hpair
  exact hunused ⟨f, hf, hpair.1, by rw [hp, hpair.2]⟩

/-- A link that `add_link` adds between nodes of different names repeats no port. -/
theorem freshPorts_of_automatic
    {t : Topology} {a b : NodeRef} {argsA argsB : SideArgs} {nodeA nodeB : Node}
    {portA portB : Nat} {link : Link}
    (ha : NewSide t a argsA nodeA portA link.a) (hb : NewSide t b argsB nodeB portB link.b)
    (hautoA : argsA.port = .none) (hautoB : argsB.port = .none)
    (hne : nodeA.name ≠ nodeB.name) :
    FreshPorts t link := by
  rcases ha.endpoint with ⟨hnameA, hportA⟩
  rcases hb.endpoint with ⟨hnameB, hportB⟩
  refine ⟨?_, ?_, ?_⟩
  · intro ep hep
    rcases List.mem_pair.mp hep with rfl | rfl
    · rw [hportA, Option.isSome_some]
    · rw [hportB, Option.isSome_some]
  · intro ep hep
    rcases List.mem_pair.mp hep with rfl | rfl
    · exact ha.unused hautoA
    · exact hb.unused hautoB
  · rw [portKey_eq hnameA hportA, portKey_eq hnameB hportB, ne_eq, Option.some.injEq,
      Prod.mk.injEq]
    exact fun h => hne h.1

/-- A link that repeats no port keeps the ports distinct. -/
theorem FreshPorts.nodup_append
    {t : Topology} {link : Link}
    (h : FreshPorts t link) (hnodup : (t.endpoints.filterMap portKey).Nodup) :
    ((t.endpoints ++ link.endpoints).filterMap portKey).Nodup := by
  rw [List.filterMap_append, List.nodup_append]
  refine ⟨hnodup, ?_, ?_⟩
  · have hpair : link.endpoints.filterMap portKey =
        (portKey link.a).toList ++ (portKey link.b).toList := by
      cases hA : portKey link.a <;> cases hB : portKey link.b <;>
        simp [Link.endpoints, hA, hB]
    rw [hpair]
    cases hA : portKey link.a with
    | none => cases portKey link.b <;> simp
    | some k =>
        cases hB : portKey link.b with
        | none => simp
        | some l =>
            have hne := h.apart
            rw [hA, hB] at hne
            simpa using hne
  · intro k hk l hl hkl
    rcases List.mem_filterMap.mp hk with ⟨f, hf, hfk⟩
    rcases List.mem_filterMap.mp hl with ⟨ep, hep, hepl⟩
    exact h.unused ep hep f hf (by rw [hfk, hepl, hkl])

/-- Different nodes that a built topology holds have different names. -/
theorem name_ne_of_holds
    {t : Topology} (ht : Built t) {nodeA nodeB : Node}
    (ha : Holds t nodeA) (hb : Holds t nodeB) (hne : nodeA ≠ nodeB) :
    nodeA.name ≠ nodeB.name := by
  intro hname
  cases nodeA with
  | host h =>
      have hkey := OrderedDict.mem_keys_of_get? ha
      cases nodeB with
      | host h' =>
          have hsame : some h = some h' := ha.symm.trans ((congrArg t.hosts.get? hname).trans hb)
          exact hne (congrArg Node.host (Option.some.inj hsame))
      | switch s =>
          have hkeys : h.name = s.name := hname
          exact ht.disjoint _ hkey (hkeys ▸ OrderedDict.mem_keys_of_get? hb)
  | switch s =>
      have hkey := OrderedDict.mem_keys_of_get? ha
      cases nodeB with
      | host h =>
          have hkeys : s.name = h.name := hname
          exact ht.disjoint _ (OrderedDict.mem_keys_of_get? hb) (hkeys ▸ hkey)
      | switch s' =>
          have hsame : some s = some s' :=
            ha.symm.trans ((congrArg t.switches.get? hname).trans hb)
          exact hne (congrArg Node.switch (Option.some.inj hsame))

/-- A call of `add_link` with two automatic ports that returns repeats no port. -/
theorem run_addLink_automatic
    {t : Topology} {a b : NodeRef} {argsA argsB : SideArgs} {shaping : ShapingArgs}
    {nodeA nodeB : Node}
    (ha : resolve t a = .ok nodeA) (hb : resolve t b = .ok nodeB)
    (hne : nodeA.name ≠ nodeB.name) (hautoA : argsA.port = .none) (hautoB : argsB.port = .none)
    (hreturned : ((Call.addLink a b argsA argsB shaping).run t).1 = none) :
    ∃ link, ((Call.addLink a b argsA argsB shaping).run t).2 =
        { t with links := t.links ++ [link] } ∧ FreshPorts t link := by
  obtain ⟨link, ⟨nodeA', portA, hsideA⟩, ⟨nodeB', portB, hsideB⟩, htopology⟩ :=
    (outcome_of_atomic (addLink_atomic t a b argsA argsB shaping)).2 hreturned
  have hsameA : nodeA' = nodeA := Except.ok.inj (hsideA.found.symm.trans ha)
  have hsameB : nodeB' = nodeB := Except.ok.inj (hsideB.found.symm.trans hb)
  subst hsameA hsameB
  exact ⟨link, htopology, freshPorts_of_automatic hsideA hsideB hautoA hautoB hne⟩

/--
In every topology a node without a requested port gets its least free port, and only a
switch whose data ports are all in use gets none.  A link that is added between nodes of
different names with two automatic ports repeats no port, and different nodes that the
builder has added have different names.
-/
theorem automatic_ports
    (t : Topology) :
    (∀ node, (∃ port, autoPort t node .none = .ok port ∧ IsLeast (freePorts t node) port) ∨
        ∃ s, node = .switch s ∧ autoPort t node .none = .error (.noFreePort s.name)) ∧
      (∀ s, autoPort t (.switch s) .none = .error (.noFreePort s.name) ↔
        ∀ port, 1 ≤ port → port ≤ 510 → s.cpuPort ≠ some port → InUse t (.switch s) port) ∧
      (∀ a b argsA argsB shaping nodeA nodeB,
        resolve t a = .ok nodeA → resolve t b = .ok nodeB → nodeA.name ≠ nodeB.name →
        argsA.port = .none → argsB.port = .none →
        ((Call.addLink a b argsA argsB shaping).run t).1 = none →
        ∃ link, ((Call.addLink a b argsA argsB shaping).run t).2 =
            { t with links := t.links ++ [link] } ∧
          FreshPorts t link ∧
          ((t.endpoints.filterMap portKey).Nodup →
            ((t.endpoints ++ link.endpoints).filterMap portKey).Nodup)) ∧
      ∀ calls, t = after calls → ∀ a b nodeA nodeB,
        resolve t a = .ok nodeA → resolve t b = .ok nodeB → nodeA ≠ nodeB →
        nodeA.name ≠ nodeB.name := by
  refine ⟨fun node => ?_, autoPort_exhausted_iff t, ?_, ?_⟩
  · cases hauto : autoPort t node .none with
    | ok port => exact Or.inl ⟨port, rfl, isLeast_of_autoPort hauto⟩
    | error e =>
        obtain ⟨s, hs, he⟩ := autoPort_eq_error hauto
        exact Or.inr ⟨s, hs, he ▸ rfl⟩
  · intro a b argsA argsB shaping nodeA nodeB ha hb hne hautoA hautoB hreturned
    obtain ⟨link, htopology, hfresh⟩ :=
      run_addLink_automatic ha hb hne hautoA hautoB hreturned
    exact ⟨link, htopology, hfresh, hfresh.nodup_append⟩
  · rintro calls rfl a b nodeA nodeB ha hb hne
    have hbuilt := built_after calls
    exact name_ne_of_holds hbuilt (holds_of_resolve hbuilt ha) (holds_of_resolve hbuilt hb) hne

/-- The CPU port 1 and the port 2 of the first link are passed over. -/
example :
    ((after [
      .addHost { name := .str "h1" },
      .addSwitch { name := .str "s1", p4Src := .str "basic.p4", cpuPort := .int 1 },
      .addLink (.value (.str "h1")) (.value (.str "s1")) {} { port := .int 2 } unshaped,
      .addLink (.value (.str "h1")) (.value (.str "s1")) {} {} unshaped]).links.map
        fun link => (link.a.port, link.b.port)) = [(some 0, some 2), (some 1, some 3)] := by
  decide +kernel

end Topo
end P4Net
