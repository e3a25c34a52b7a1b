import P4Net.LinuxNetwork
import P4Net.StartupAcquires

/-!
# What a network borrows from the machine

A network creates namespaces, veth pairs and switch processes, configures them, and releases
them again.  Of everything else on the machine it changes nothing, and what it has released is
as it was before.

* `Linux.release` : what a release does to the kernel.
* `Linux.Sound` : interfaces live in namespaces, and peers are peers of each other.
* `Leased` : a machine differs from another one in some resources only.
* `InUse` : none of them has been released yet.
* `InUse.run` and `Leased.release` : statements, and releases.
-/

namespace P4Net
namespace Deployment

open TextLiterals
open Network (StartOp Primitive Resource)

/-! ### Releases -/

/-- Delete interfaces; the other end of a pair is deleted with it. -/
def Linux.removeIfaces (k : Linux) (gone : IfaceKey → Bool) : Linux :=
  { k with ifaces := fun key =>
      if gone key || (k.peerOf key).any gone then none else k.ifaces key }

/-- Release a resource; `VethPair.destroy` deletes its side `a`. -/
def Linux.release (k : Linux) : Resource → Linux
  | .netns name =>
      { k.removeIfaces (fun key => key.1 = some name) with
        routes := Function.update k.routes (some name) none }
  | .veth veth => k.removeIfaces fun key => key = endOf veth .a
  | .bmv2 bmv2 => { k with processes := k.processes.erase bmv2 }
  | _ => k

theorem peerOf_removeIfaces
    (k : Linux) (gone : IfaceKey → Bool) (key : IfaceKey) :
    (k.removeIfaces gone).peerOf key =
      if gone key || (k.peerOf key).any gone then none else k.peerOf key := by
  have hread : (k.removeIfaces gone).peerOf key =
      (if gone key || (k.peerOf key).any gone then none else k.ifaces key).bind Iface.peer := rfl
  rw [hread]
  split_ifs <;> rfl

/-! ### Sound machines -/

/-- Interfaces are in namespaces that exist, and peers are peers of each other. -/
structure Linux.Sound (k : Linux) : Prop where
  netns : ∀ key, (k.ifaces key).isSome → (k.routes key.1).isSome
  peers : ∀ a b, k.peerOf a = some b → k.peerOf b = some a

theorem isSome_of_peerOf
    {k : Linux} {key peer : IfaceKey} (h : k.peerOf key = some peer) :
    (k.ifaces key).isSome := by
  obtain ⟨iface, hiface, -⟩ := Option.bind_eq_some_iff.mp h
  rw [hiface]
  rfl

namespace Linux.Sound

variable {k : Linux}

theorem removeIfaces
    (h : k.Sound) (gone : IfaceKey → Bool) :
    (k.removeIfaces gone).Sound := by
  constructor
  · intro key hkey
    refine h.netns key ?_
    simp only [Linux.removeIfaces] at hkey
    split_ifs at hkey
    · cases hkey
    · exact hkey
  · intro a b hab
    rw [peerOf_removeIfaces] at hab ⊢
    split_ifs at hab with hgone
    have hba := h.peers a b hab
    simp only [hab, Option.any_some, Bool.or_eq_true, not_or] at hgone
    simp [hba, hgone.1, hgone.2]

theorem release
    (h : k.Sound) (resource : Resource) :
    (k.release resource).Sound := by
  cases resource with
  | netns name =>
      have hremoved := h.removeIfaces fun key => key.1 = some name
      refine ⟨fun key hkey => ?_, hremoved.peers⟩
      have hne : key.1 ≠ some name := by
        intro heq
        have hgone : ((k.removeIfaces fun key => key.1 = some name).ifaces key).isSome := hkey
        simp [Linux.removeIfaces, heq] at hgone
      exact (congrArg Option.isSome (Function.update_of_ne hne ..)).trans (hremoved.netns key hkey)
  | veth veth => exact h.removeIfaces _
  | bmv2 bmv2 => exact ⟨h.netns, h.peers⟩
  | process pid => exact h
  | client client => exact h

theorem addNamespace
    (h : k.Sound) {name : String} (hname : k.routes (some name) = none) :
    (k.addNamespace name).Sound := by
  have hempty : ∀ key : IfaceKey, key.1 = some name → k.ifaces key = none := by
    intro key hkey
    by_contra hsome
    have hroutes := h.netns key (Option.isSome_iff_ne_none.mpr hsome)
    simp [hkey, hname] at hroutes
  have hpeer : ∀ key : IfaceKey, (k.addNamespace name).peerOf key = k.peerOf key := by
    intro key
    simp only [Linux.peerOf, Linux.addNamespace]
    by_cases hkey : key.1 = some name
    · rw [if_pos hkey, hempty key hkey]
      split_ifs <;> rfl
    · rw [if_neg hkey]
  refine ⟨fun key hkey => ?_, fun a b hab => ?_⟩
  · simp only [Linux.addNamespace] at hkey ⊢
    by_cases hnetns : key.1 = some name
    · rw [hnetns, Function.update_self]
      rfl
    · rw [if_neg hnetns] at hkey
      rw [Function.update_of_ne hnetns]
      exact h.netns key hkey
  · rw [hpeer] at hab ⊢
    exact h.peers a b hab

theorem addPair
    (h : k.Sound) {veth : Network.VethPair} (hne : endOf veth .a ≠ endOf veth .b)
    (hfree : ∀ side, (k.routes (endOf veth side).1).isSome ∧ k.ifaces (endOf veth side) = none) :
    (k.addPair veth).Sound := by
  have hpeer : ∀ key : IfaceKey, (k.addPair veth).peerOf key =
      if key = endOf veth .b then some (endOf veth .a)
      else if key = endOf veth .a then some (endOf veth .b) else k.peerOf key := by
    intro key
    simp only [Linux.peerOf, Linux.addPair, Function.update_apply]
    split_ifs <;> rfl
  have hunpeered : ∀ a b, k.peerOf a = some b → ∀ side, b ≠ endOf veth side := by
    rintro a b hab side rfl
    have hsome := isSome_of_peerOf (h.peers a _ hab)
    rw [(hfree side).2] at hsome
    cases hsome
  refine ⟨fun key hkey => ?_, fun a b hab => ?_⟩
  · simp only [Linux.addPair, Function.update_apply] at hkey ⊢
    split_ifs at hkey with hb ha
    · exact hb ▸ (hfree .b).1
    · exact ha ▸ (hfree .a).1
    · exact h.netns key hkey
  · rw [hpeer] at hab ⊢
    split_ifs at hab with hb ha
    · obtain rfl := Option.some.inj hab
      rw [if_neg hne, if_pos rfl, hb]
    · obtain rfl := Option.some.inj hab
      rw [if_pos rfl, ha]
    · rw [if_neg (hunpeered a b hab .b), if_neg (hunpeered a b hab .a)]
      exact h.peers a b hab

end Linux.Sound

/-! ### Leases -/

/-- The namespace is one of the resources. -/
def OwnsNetns (created : List Resource) (netns : Option String) : Prop :=
  ∃ name, netns = some name ∧ .netns name ∈ created

/-- The interface belongs to one of the resources. -/
def Owns (created : List Resource) (key : IfaceKey) : Prop :=
  OwnsNetns created key.1 ∨ ∃ veth side, .veth veth ∈ created ∧ key = endOf veth side

/-- The other side of a pair. -/
def otherSide : Network.Side → Network.Side
  | .a => .b
  | .b => .a

/-- `k'` is `k`, but for some resources that `k` does not have. -/
structure Leased (created : List Resource) (k k' : Linux) : Prop where
  sound : k'.Sound
  routes : ∀ netns, ¬ OwnsNetns created netns → k'.routes netns = k.routes netns
  fresh : ∀ netns, OwnsNetns created netns → k.routes netns = none
  ifaces : ∀ key, ¬ Owns created key → k'.ifaces key = k.ifaces key
  free : ∀ key, Owns created key → k.ifaces key = none
  paired : ∀ veth, .veth veth ∈ created → ∀ side iface, k'.ifaces (endOf veth side) = some iface →
    iface.peer = some (endOf veth (otherSide side))
  processes : k'.processes.Perm (k.processes ++ created.filterMap Resource.asBmv2)

/-- The same namespaces, interfaces and processes. -/
structure Restored (k k' : Linux) : Prop where
  routes : k'.routes = k.routes
  ifaces : k'.ifaces = k.ifaces
  processes : k'.processes.Perm k.processes

section Owns

variable {created created' : List Resource}

theorem OwnsNetns.mono
    (h : created ⊆ created') {netns : Option String} (howns : OwnsNetns created netns) :
    OwnsNetns created' netns := by
  obtain ⟨name, hname, hmem⟩ := howns
  exact ⟨name, hname, h hmem⟩

theorem Owns.mono
    (h : created ⊆ created') {key : IfaceKey} (howns : Owns created key) :
    Owns created' key := by
  rcases howns with hnetns | ⟨veth, side, hmem, hkey⟩
  · exact Or.inl (hnetns.mono h)
  · exact Or.inr ⟨veth, side, h hmem, hkey⟩

theorem ownsNetns_netns_iff
    {name : String} {netns : Option String} :
    OwnsNetns (.netns name :: created) netns ↔ netns = some name ∨ OwnsNetns created netns := by
  simp only [OwnsNetns, List.mem_cons, Resource.netns.injEq, and_or_left, exists_or,
    exists_eq_right]

theorem owns_netns_iff
    {name : String} {key : IfaceKey} :
    Owns (.netns name :: created) key ↔ key.1 = some name ∨ Owns created key := by
  simp only [Owns, ownsNetns_netns_iff, List.mem_cons, reduceCtorEq, false_or, or_assoc]

theorem owns_veth_iff
    {veth : Network.VethPair} {key : IfaceKey} :
    Owns (.veth veth :: created) key ↔ (∃ side, key = endOf veth side) ∨ Owns created key := by
  simp only [Owns, OwnsNetns, List.mem_cons, Resource.veth.injEq, reduceCtorEq, false_or,
    or_and_right, exists_or, exists_and_left, exists_eq_left]
  exact or_left_comm

/-- Only namespaces are owned as such. -/
theorem ownsNetns_other_iff
    {resource : Resource} (h : resource.asNetns = none) {netns : Option String} :
    OwnsNetns (resource :: created) netns ↔ OwnsNetns created netns := by
  cases resource <;> simp_all [OwnsNetns, Resource.asNetns]

/-- Only namespaces and pairs have interfaces. -/
theorem owns_other_iff
    {resource : Resource} (hnetns : resource.asNetns = none) (hveth : resource.asVeth = none)
    {key : IfaceKey} :
    Owns (resource :: created) key ↔ Owns created key := by
  rw [Owns, Owns, ownsNetns_other_iff hnetns]
  cases resource <;> simp_all [Resource.asVeth]

/-- A pair is not a resource of another kind. -/
theorem mem_of_asVeth_eq_none
    {resource : Resource} (h : resource.asVeth = none) {veth : Network.VethPair}
    (hmem : .veth veth ∈ resource :: created) :
    .veth veth ∈ created := by
  rcases List.mem_cons.mp hmem with rfl | hmem
  · cases h
  · exact hmem

end Owns

namespace Leased

variable {created : List Resource} {k k' : Linux}

theorem refl
    (h : k.Sound) :
    Leased [] k k where
  sound := h
  routes := fun _ _ => rfl
  fresh := by simp [OwnsNetns]
  ifaces := fun _ _ => rfl
  free := by simp [Owns, OwnsNetns]
  paired := by simp
  processes := by simp

theorem perm
    (h : Leased created k k') {created' : List Resource} (hperm : created.Perm created') :
    Leased created' k k' where
  sound := h.sound
  routes := fun netns hnot => h.routes netns fun howns => hnot (howns.mono hperm.subset)
  fresh := fun netns howns => h.fresh netns (howns.mono hperm.symm.subset)
  ifaces := fun key hnot => h.ifaces key fun howns => hnot (howns.mono hperm.subset)
  free := fun key howns => h.free key (howns.mono hperm.symm.subset)
  paired := fun veth hmem => h.paired veth (hperm.symm.subset hmem)
  processes := h.processes.trans ((hperm.filterMap _).append_left _)

/-- Without resources there is no difference. -/
theorem restored
    (h : Leased [] k k') :
    Restored k k' where
  routes := funext fun netns => h.routes netns (by simp [OwnsNetns])
  ifaces := funext fun key => h.ifaces key (by simp [Owns, OwnsNetns])
  processes := by simpa using h.processes

/-- An interface that is not owned has no peer that is. -/
theorem peer_not_owned
    (h : Leased created k k') (hk : k.Sound) {key peer : IfaceKey} (hnot : ¬ Owns created key)
    (hpeer : k'.peerOf key = some peer) :
    ¬ Owns created peer := by
  intro howns
  have hpeer' : k.peerOf key = some peer := by
    rw [← hpeer, Linux.peerOf, Linux.peerOf, h.ifaces key hnot]
  have hsome := isSome_of_peerOf (hk.peers key peer hpeer')
  rw [h.free peer howns] at hsome
  cases hsome

/-- Deleting interfaces that are owned changes no other. -/
theorem removeIfaces_of_not_owned
    (h : Leased created k k') (hk : k.Sound) {gone : IfaceKey → Bool}
    (hgone : ∀ key, gone key = true → Owns created key) {key : IfaceKey}
    (hnot : ¬ Owns created key) :
    (k'.removeIfaces gone).ifaces key = k.ifaces key := by
  have hstays : ¬ (gone key || (k'.peerOf key).any gone) = true := by
    rw [Bool.or_eq_true, Option.any_eq_true]
    rintro (hkey | ⟨peer, hpeer, hkey⟩)
    · exact hnot (hgone key hkey)
    · exact h.peer_not_owned hk hnot hpeer (hgone peer hkey)
  exact (if_neg hstays).trans (h.ifaces key hnot)

/-- An interface that stays is unchanged. -/
theorem paired_removeIfaces
    (h : Leased created k k') (gone : IfaceKey → Bool) {veth : Network.VethPair}
    (hmem : .veth veth ∈ created) (side : Network.Side) {iface : Iface}
    (hiface : (k'.removeIfaces gone).ifaces (endOf veth side) = some iface) :
    iface.peer = some (endOf veth (otherSide side)) := by
  refine h.paired veth hmem side iface ?_
  simp only [Linux.removeIfaces] at hiface
  split_ifs at hiface
  exact hiface

theorem release_netns
    {name : String} (h : Leased (.netns name :: created) k k') (hk : k.Sound) :
    Leased created k (k'.release (.netns name)) := by
  have hgone : ∀ key : IfaceKey, decide (key.1 = some name) = true →
      Owns (.netns name :: created) key :=
    fun key hkey => owns_netns_iff.mpr (Or.inl (of_decide_eq_true hkey))
  constructor
  case sound => exact h.sound.release _
  case fresh => exact fun netns howns => h.fresh netns (ownsNetns_netns_iff.mpr (Or.inr howns))
  case free => exact fun key howns => h.free key (owns_netns_iff.mpr (Or.inr howns))
  case paired =>
    exact fun veth hmem side iface =>
      h.paired_removeIfaces (fun key => key.1 = some name) (List.mem_cons_of_mem _ hmem) side
  case processes => exact h.processes
  case routes =>
    intro netns hnot
    by_cases hname : netns = some name
    · rw [hname, h.fresh _ (ownsNetns_netns_iff.mpr (Or.inl rfl))]
      exact Function.update_self ..
    · refine (Function.update_of_ne hname ..).trans (h.routes netns ?_)
      rw [ownsNetns_netns_iff]
      exact not_or.mpr ⟨hname, hnot⟩
  case ifaces =>
    intro key hnot
    by_cases hkey : key.1 = some name
    · rw [h.free key (owns_netns_iff.mpr (Or.inl hkey))]
      exact if_pos (by simp [hkey])
    · refine h.removeIfaces_of_not_owned hk hgone ?_
      rw [owns_netns_iff]
      exact not_or.mpr ⟨hkey, hnot⟩

theorem release_veth
    {veth : Network.VethPair} (h : Leased (.veth veth :: created) k k') (hk : k.Sound) :
    Leased created k (k'.release (.veth veth)) := by
  have hgone : ∀ key : IfaceKey, decide (key = endOf veth .a) = true →
      Owns (.veth veth :: created) key :=
    fun key hkey => owns_veth_iff.mpr (Or.inl ⟨.a, of_decide_eq_true hkey⟩)
  constructor
  case sound => exact h.sound.release _
  case fresh => exact fun netns howns => h.fresh netns ((ownsNetns_other_iff rfl).mpr howns)
  case free => exact fun key howns => h.free key (owns_veth_iff.mpr (Or.inr howns))
  case paired =>
    exact fun other hmem side iface =>
      h.paired_removeIfaces _ (List.mem_cons_of_mem _ hmem) side
  case processes => exact h.processes
  case routes =>
    intro netns hnot
    exact h.routes netns (mt (ownsNetns_other_iff rfl).mp hnot)
  case ifaces =>
    intro key hnot
    by_cases hend : ∃ side, key = endOf veth side
    · rw [h.free key (owns_veth_iff.mpr (Or.inl hend))]
      obtain ⟨side, rfl⟩ := hend
      cases hiface : k'.ifaces (endOf veth side) with
      | none => exact ite_eq_left_iff.mpr fun _ => hiface
      | some iface =>
          have hpeer := h.paired veth List.mem_cons_self side iface hiface
          refine if_pos ?_
          cases side with
          | a => simp
          | b => simp [Linux.peerOf, hiface, hpeer, otherSide]
    · refine h.removeIfaces_of_not_owned hk hgone ?_
      rw [owns_veth_iff]
      exact not_or.mpr ⟨hend, hnot⟩

/-- Resources that are neither namespaces nor pairs. -/
theorem release_other
    {resource : Resource} (h : Leased (resource :: created) k k')
    (hnetns : resource.asNetns = none) (hveth : resource.asVeth = none) :
    Leased created k (k'.release resource) := by
  have hsound := h.sound.release resource
  have hother : ∀ k' : Linux, (k'.release resource).routes = k'.routes ∧
      (k'.release resource).ifaces = k'.ifaces := by
    intro k'
    cases resource with
    | netns name => cases hnetns
    | veth veth => cases hveth
    | _ => exact ⟨rfl, rfl⟩
  obtain ⟨hroutes, hifaces⟩ := hother k'
  constructor
  case sound => exact hsound
  case fresh => exact fun netns howns => h.fresh netns ((ownsNetns_other_iff hnetns).mpr howns)
  case free => exact fun key howns => h.free key ((owns_other_iff hnetns hveth).mpr howns)
  case paired =>
    intro veth hmem side iface hiface
    rw [hifaces] at hiface
    exact h.paired veth (List.mem_cons_of_mem _ hmem) side iface hiface
  case routes =>
    intro netns hnot
    rw [hroutes]
    exact h.routes netns (mt (ownsNetns_other_iff hnetns).mp hnot)
  case ifaces =>
    intro key hnot
    rw [hifaces]
    exact h.ifaces key (mt (owns_other_iff hnetns hveth).mp hnot)
  case processes =>
    have hprocesses := h.processes
    cases resource with
    | bmv2 bmv2 =>
        have herase := hprocesses.erase bmv2
        refine herase.trans ?_
        have hlast : (k.processes ++ bmv2 :: created.filterMap Resource.asBmv2).Perm
            (bmv2 :: (k.processes ++ created.filterMap Resource.asBmv2)) := List.perm_middle
        exact (hlast.erase bmv2).trans (by rw [List.erase_cons_head])
    | netns name => cases hnetns
    | veth veth => cases hveth
    | process pid => exact hprocesses
    | client client => exact hprocesses

/-- A release takes one resource off the lease. -/
theorem release
    {resource : Resource} (h : Leased (resource :: created) k k') (hk : k.Sound) :
    Leased created k (k'.release resource) := by
  cases resource with
  | netns name => exact h.release_netns hk
  | veth veth => exact h.release_veth hk
  | bmv2 bmv2 => exact h.release_other rfl rfl
  | process pid => exact h.release_other rfl rfl
  | client client => exact h.release_other rfl rfl

/-- Resources that are neither namespaces nor pairs are one more on the lease. -/
theorem add_other
    {resource : Resource} {k'' : Linux} (h : Leased created k k')
    (hnetns : resource.asNetns = none) (hveth : resource.asVeth = none)
    (hroutes : k''.routes = k'.routes) (hifaces : k''.ifaces = k'.ifaces)
    (hprocesses : k''.processes.Perm
      (k.processes ++ (resource :: created).filterMap Resource.asBmv2)) :
    Leased (resource :: created) k k'' := by
  have hpeerOf : k''.peerOf = k'.peerOf :=
    funext fun key => by rw [Linux.peerOf, hifaces, Linux.peerOf]
  refine ⟨⟨?_, ?_⟩, ?_, ?_, ?_, ?_, ?_, hprocesses⟩
  · rw [hifaces, hroutes]
    exact h.sound.netns
  · rw [hpeerOf]
    exact h.sound.peers
  · rw [hroutes]
    exact fun netns hnot => h.routes netns (mt (ownsNetns_other_iff hnetns).mpr hnot)
  · exact fun netns howns => h.fresh netns ((ownsNetns_other_iff hnetns).mp howns)
  · rw [hifaces]
    exact fun key hnot => h.ifaces key (mt (owns_other_iff hnetns hveth).mpr hnot)
  · exact fun key howns => h.free key ((owns_other_iff hnetns hveth).mp howns)
  · rw [hifaces]
    exact fun veth hmem => h.paired veth (mem_of_asVeth_eq_none hveth hmem)

/-- Where only interfaces of the resources are deleted the lease stays. -/
theorem removeIfaces
    (h : Leased created k k') (hk : k.Sound) {gone : IfaceKey → Bool}
    (hgone : ∀ key, gone key = true → Owns created key) :
    Leased created k (k'.removeIfaces gone) where
  sound := h.sound.removeIfaces gone
  routes := h.routes
  fresh := h.fresh
  ifaces := fun _ hnot => h.removeIfaces_of_not_owned hk hgone hnot
  free := h.free
  paired := fun _ hmem side _ hiface => h.paired_removeIfaces gone hmem side hiface
  processes := h.processes

end Leased

/-! ### Use -/

/-- A lease of which nothing has been released. -/
structure InUse (created : List Resource) (k k' : Linux) : Prop extends Leased created k k' where
  present : ∀ veth, .veth veth ∈ created → ∀ side, (k'.ifaces (endOf veth side)).isSome
  named : ∀ veth, .veth veth ∈ created → ∀ side, '/' ∉ (endOf veth side).2.toList

/-- Only settings have changed, and only of what the resources own. -/
structure Reconfigured (created : List Resource) (k k' : Linux) : Prop where
  routes : ∀ netns, ¬ OwnsNetns created netns → k'.routes netns = k.routes netns
  exist : ∀ netns, (k'.routes netns).isSome = (k.routes netns).isSome
  ifaces : ∀ key, ¬ Owns created key → k'.ifaces key = k.ifaces key
  peers : ∀ key, (k'.ifaces key).map Iface.peer = (k.ifaces key).map Iface.peer
  processes : k'.processes = k.processes
  veth : k'.veth = k.veth

namespace Reconfigured

variable {created : List Resource} {k k' : Linux}

theorem refl
    (created : List Resource) (k : Linux) :
    Reconfigured created k k :=
  ⟨fun _ _ => rfl, fun _ => rfl, fun _ _ => rfl, fun _ => rfl, rfl, rfl⟩

theorem isSome_ifaces
    (h : Reconfigured created k k') (key : IfaceKey) :
    (k'.ifaces key).isSome = (k.ifaces key).isSome := by
  rw [← Option.isSome_map (f := Iface.peer), h.peers, Option.isSome_map]

theorem peerOf
    (h : Reconfigured created k k') (key : IfaceKey) :
    k'.peerOf key = k.peerOf key := by
  have hjoin : ∀ k : Linux, k.peerOf key = ((k.ifaces key).map Iface.peer).join := by
    intro k
    rw [Linux.peerOf]
    cases k.ifaces key <;> rfl
  rw [hjoin, hjoin, h.peers]

theorem sound
    (h : Reconfigured created k k') (hk : k.Sound) :
    k'.Sound := by
  constructor
  · intro key hkey
    rw [h.exist]
    rw [h.isSome_ifaces] at hkey
    exact hk.netns key hkey
  · intro a b hab
    rw [h.peerOf] at hab ⊢
    exact hk.peers a b hab

end Reconfigured

namespace InUse

variable {created : List Resource} {k k' k'' : Linux}

theorem reconfigured
    (h : InUse created k k') (hconfig : Reconfigured created k' k'') :
    InUse created k k'' where
  sound := hconfig.sound h.sound
  routes := fun netns hnot => (hconfig.routes netns hnot).trans (h.routes netns hnot)
  fresh := h.fresh
  ifaces := fun key hnot => (hconfig.ifaces key hnot).trans (h.ifaces key hnot)
  free := h.free
  paired := by
    intro veth hmem side iface hiface
    have hpeers := hconfig.peers (endOf veth side)
    rw [hiface, Option.map_some] at hpeers
    obtain ⟨before, hbefore, hpeer⟩ := Option.map_eq_some_iff.mp hpeers.symm
    rw [← hpeer]
    exact h.paired veth hmem side before hbefore
  processes := by
    rw [hconfig.processes]
    exact h.processes
  present := fun veth hmem side => (hconfig.isSome_ifaces _).trans (h.present veth hmem side)
  named := h.named

theorem perm
    (h : InUse created k k') {created' : List Resource} (hperm : created.Perm created') :
    InUse created' k k' :=
  ⟨h.toLeased.perm hperm, fun veth hmem => h.present veth (hperm.symm.subset hmem),
    fun veth hmem => h.named veth (hperm.symm.subset hmem)⟩

/-- What is absent was absent before. -/
theorem absent
    (h : Leased created k k') {key : IfaceKey} (hkey : k'.ifaces key = none) :
    k.ifaces key = none := by
  by_cases howns : Owns created key
  · exact h.free key howns
  · rw [← h.ifaces key howns, hkey]

theorem create_netns
    {name : String} (h : InUse created k k') (hk : k.Sound)
    (hcreate : k'.create (.netns name) = some k'') :
    InUse (.netns name :: created) k k'' := by
  simp only [Linux.create] at hcreate
  split_ifs at hcreate with hsome
  have hnone : k'.routes (some name) = none := by simpa using hsome
  obtain rfl := Option.some.inj hcreate
  have hfresh : k.routes (some name) = none := by
    by_cases howns : OwnsNetns created (some name)
    · exact h.fresh _ howns
    · rw [← h.routes _ howns, hnone]
  -- The ends of the pairs are in other namespaces.
  have helse : ∀ veth, .veth veth ∈ created → ∀ side, (endOf veth side).1 ≠ some name := by
    intro veth hmem side heq
    have hroutes := h.sound.netns _ (h.present veth hmem side)
    rw [heq, hnone] at hroutes
    cases hroutes
  refine ⟨⟨h.sound.addNamespace hnone, ?_, ?_, ?_, ?_, ?_, h.processes⟩, ?_, ?_⟩
  · intro netns hnot
    rw [ownsNetns_netns_iff, not_or] at hnot
    exact (Function.update_of_ne hnot.1 ..).trans (h.routes netns hnot.2)
  · intro netns howns
    rcases ownsNetns_netns_iff.mp howns with rfl | howns
    · exact hfresh
    · exact h.fresh netns howns
  · intro key hnot
    rw [owns_netns_iff, not_or] at hnot
    exact (if_neg hnot.1).trans (h.ifaces key hnot.2)
  · intro key howns
    rcases owns_netns_iff.mp howns with hkey | howns
    · by_contra hsome
      have hroutes := hk.netns key (Option.isSome_iff_ne_none.mpr hsome)
      rw [hkey, hfresh] at hroutes
      cases hroutes
    · exact h.free key howns
  · intro veth hmem side iface hiface
    have hmem' : .veth veth ∈ created := by simpa using hmem
    exact h.paired veth hmem' side iface ((if_neg (helse veth hmem' side)).symm.trans hiface)
  · intro veth hmem side
    have hmem' : .veth veth ∈ created := by simpa using hmem
    exact (congrArg Option.isSome (if_neg (helse veth hmem' side))).trans
      (h.present veth hmem' side)
  · intro veth hmem side
    exact h.named veth (by simpa using hmem) side

theorem create_veth
    {veth : Network.VethPair} (h : InUse created k k')
    (hcreate : k'.create (.veth veth) = some k'') :
    InUse (.veth veth :: created) k k'' := by
  simp only [Linux.create] at hcreate
  split_ifs at hcreate with hchecks
  obtain ⟨hne, hends⟩ := hchecks
  obtain rfl := Option.some.inj hcreate
  have hside : ∀ side, (validateIfname (endOf veth side).2).isOk ∧
      (k'.routes (endOf veth side).1).isSome ∧ (k'.ifaces (endOf veth side)).isNone := by
    intro side
    cases side with
    | a => exact hends _ List.mem_cons_self
    | b => exact hends _ (List.mem_cons_of_mem _ List.mem_cons_self)
  have hfree : ∀ side, (k'.routes (endOf veth side).1).isSome ∧
      k'.ifaces (endOf veth side) = none :=
    fun side => ⟨(hside side).2.1, Option.isNone_iff_eq_none.mp (hside side).2.2⟩
  have hread : ∀ key : IfaceKey, (k'.addPair veth).ifaces key =
      if key = endOf veth .b then some { peer := some (endOf veth .a) }
      else if key = endOf veth .a then some { peer := some (endOf veth .b) }
      else k'.ifaces key := by
    intro key
    simp only [Linux.addPair, Function.update_apply]
  -- The ends of the other pairs are there, so they are not the new ones.
  have helse : ∀ other, .veth other ∈ created → ∀ side side',
      endOf other side ≠ endOf veth side' := by
    intro other hmem side side' heq
    have hpresent := h.present other hmem side
    rw [heq, (hfree side').2] at hpresent
    cases hpresent
  have hother : ∀ other, .veth other ∈ created → ∀ side,
      (k'.addPair veth).ifaces (endOf other side) = k'.ifaces (endOf other side) := by
    intro other hmem side
    rw [hread, if_neg (helse other hmem side .b), if_neg (helse other hmem side .a)]
  have hnew : ∀ side, (k'.addPair veth).ifaces (endOf veth side) =
      some { peer := some (endOf veth (otherSide side)) } := by
    intro side
    cases side with
    | a => rw [hread, if_neg hne, if_pos rfl, otherSide]
    | b => rw [hread, if_pos rfl, otherSide]
  refine ⟨⟨h.sound.addPair hne hfree, ?_, ?_, ?_, ?_, ?_, h.processes⟩, ?_, ?_⟩
  · exact fun netns hnot => h.routes netns (mt (ownsNetns_other_iff rfl).mpr hnot)
  · exact fun netns howns => h.fresh netns ((ownsNetns_other_iff rfl).mp howns)
  · intro key hnot
    rw [owns_veth_iff, not_or, not_exists] at hnot
    rw [hread, if_neg (hnot.1 .b), if_neg (hnot.1 .a)]
    exact h.ifaces key hnot.2
  · intro key howns
    rcases owns_veth_iff.mp howns with ⟨side, rfl⟩ | howns
    · exact absent h.toLeased (hfree side).2
    · exact h.free key howns
  · intro other hmem side iface hiface
    rcases List.mem_cons.mp hmem with heq | hmem
    · obtain rfl := Resource.veth.inj heq
      rw [hnew] at hiface
      rw [← Option.some.inj hiface]
    · rw [hother other hmem] at hiface
      exact h.paired other hmem side iface hiface
  · intro other hmem side
    rcases List.mem_cons.mp hmem with heq | hmem
    · obtain rfl := Resource.veth.inj heq
      rw [hnew]
      rfl
    · rw [hother other hmem]
      exact h.present other hmem side
  · intro other hmem side
    rcases List.mem_cons.mp hmem with heq | hmem
    · obtain rfl := Resource.veth.inj heq
      refine Topo.slash_not_mem_of_validateIfname ?_
      have hok := (hside side).1
      cases hvalid : validateIfname (endOf other side).2 with
      | ok result => rfl
      | error exc =>
          rw [hvalid] at hok
          cases hok
    · exact h.named other hmem side

/-- Resources that are neither namespaces nor pairs. -/
theorem create_other
    {resource : Resource} (h : InUse created k k') (hnetns : resource.asNetns = none)
    (hveth : resource.asVeth = none) (hroutes : k''.routes = k'.routes)
    (hifaces : k''.ifaces = k'.ifaces)
    (hprocesses : k''.processes.Perm
      (k.processes ++ (resource :: created).filterMap Resource.asBmv2)) :
    InUse (resource :: created) k k'' := by
  refine ⟨h.toLeased.add_other hnetns hveth hroutes hifaces hprocesses, ?_, ?_⟩
  · rw [hifaces]
    exact fun veth hmem => h.present veth (mem_of_asVeth_eq_none hveth hmem)
  · exact fun veth hmem => h.named veth (mem_of_asVeth_eq_none hveth hmem)

/-- A new resource is one more on the lease. -/
theorem create
    {resource : Resource} (h : InUse created k k') (hk : k.Sound)
    (hcreate : k'.create resource = some k'') :
    InUse (resource :: created) k k'' := by
  cases resource with
  | netns name => exact h.create_netns hk hcreate
  | veth veth => exact h.create_veth hcreate
  | bmv2 bmv2 =>
      obtain rfl := Option.some.inj hcreate
      refine h.create_other rfl rfl rfl rfl ?_
      refine (h.processes.append_right [bmv2]).trans ?_
      rw [List.append_assoc]
      exact (List.perm_append_singleton ..).append_left _
  | process pid => exact Option.some.inj hcreate ▸ h.create_other rfl rfl rfl rfl h.processes
  | client client => exact Option.some.inj hcreate ▸ h.create_other rfl rfl rfl rfl h.processes

end InUse

/-! ### Statements -/

/-- The resources that some statements create. -/
def createdBy (ops : List StartOp) : List Resource :=
  ops.filterMap fun op =>
    match op with
    | .create resource => some resource
    | _ => none

/-- A call that changes only settings of what the resources own. -/
def Confines (created : List Resource) (current : Option Network.VethPair)
    (primitive : Primitive) : Prop :=
  ∀ k k' k'', InUse created k k' → (∀ veth ∈ current, k'.veth = some veth) →
    k'.call primitive = some k'' → Reconfigured created k' k''

/-- Statements whose calls change only settings of what has been created before. -/
def Confined : List Resource → Option Network.VethPair → List StartOp → Prop
  | _, _, [] => True
  | created, current, .create resource :: rest =>
      Confined (created ++ [resource]) (resource.asVeth.or current) rest
  | created, current, .call primitive :: rest =>
      Confines created current primitive ∧ Confined created current rest
  | created, current, _ :: rest => Confined created current rest

section Confined

variable {created : List Resource} {current : Option Network.VethPair} {ops rest : List StartOp}

theorem Confined.append
    (h : Confined created current ops)
    (hrest : ∀ current, Confined (created ++ createdBy ops) current rest) :
    Confined created current (ops ++ rest) := by
  induction ops generalizing created current with
  | nil =>
      rw [createdBy, List.filterMap_nil, List.append_nil] at hrest
      exact hrest current
  | cons op ops ih =>
      cases op with
      | create resource =>
          refine ih h fun current => ?_
          rw [List.append_assoc]
          exact hrest current
      | call primitive => exact ⟨h.1, ih h.2 hrest⟩
      | _ => exact ih h hrest

end Confined

/-- The pair that has been created last. -/
theorem veth_of_create
    {k k' : Linux} {resource : Resource} (h : k.create resource = some k') :
    k'.veth = resource.asVeth.or k.veth := by
  cases resource with
  | netns name | veth veth =>
      simp only [Linux.create] at h
      split_ifs at h
      exact Option.some.inj h ▸ rfl
  | bmv2 bmv2 | process pid | client client => exact Option.some.inj h ▸ rfl

/-- Confined statements keep the lease, with what they create on it. -/
theorem InUse.run
    {k : Linux} (hk : k.Sound) {ops : List StartOp} {created : List Resource}
    {current : Option Network.VethPair} {k' k'' : Linux} (h : InUse created k k')
    (hcurrent : ∀ veth ∈ current, k'.veth = some veth) (hops : Confined created current ops)
    (hrun : execAll ops k' = some k'') :
    InUse (created ++ createdBy ops) k k'' := by
  induction ops generalizing created current k' with
  | nil =>
      obtain rfl := Option.some.inj hrun
      rwa [createdBy, List.filterMap_nil, List.append_nil]
  | cons op rest ih =>
      obtain ⟨mid, hexec, hrest⟩ := Option.bind_eq_some_iff.mp hrun
      cases op with
      | create resource =>
          have hmid := (h.create hk hexec).perm (List.perm_append_singleton ..).symm
          have hcurrent' : ∀ veth ∈ resource.asVeth.or current, mid.veth = some veth := by
            intro veth hveth
            rw [veth_of_create hexec]
            cases hnew : resource.asVeth with
            | some new => rwa [hnew] at hveth
            | none =>
                rw [hnew] at hveth
                exact hcurrent veth hveth
          have hlast := ih hmid hcurrent' hops hrest
          rwa [List.append_assoc] at hlast
      | call primitive =>
          have hconfig := hops.1 _ _ _ h hcurrent hexec
          exact ih (h.reconfigured hconfig)
            (fun veth hveth => hconfig.veth.trans (hcurrent veth hveth)) hops.2 hrest
      | _ =>
          obtain rfl := Option.some.inj hexec
          exact ih h hcurrent hops hrest

end Deployment
end P4Net
