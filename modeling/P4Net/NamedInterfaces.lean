import P4Net.TextLiterals

/-!
# Interfaces in network namespaces

The part of the kernel that a veth pair lives in.  Every interface has a name and an
index in its namespace, both unique there, and is one end of a pair; deleting an end
deletes both.

* `Kernel` carries the proof of that uniqueness, so every operation keeps it.
* `lookup`, `addPair`, `relink` and `delete` are the netlink calls; `none` is a call that
  the kernel refuses.
* `Kernel.others` are the interfaces of all other pairs: `relink` leaves them as they
  were, and after `delete` they are all there is.

The index that an interface gets is chosen by the caller of an operation and refused when
it is taken, so the results hold for every way in which a kernel assigns indexes.
-/

namespace P4Net
namespace Veth

open TextLiterals

/-- A network namespace by name; `none` is the root namespace. -/
abbrev Scope := Option Text

/-- The ends of a pair. -/
inductive Side where
  | a
  | b
deriving DecidableEq, Repr

/-- One end of a pair, and where it is. -/
structure Iface where
  pair : Nat
  side : Side
  scope : Scope
  name : Text
  index : Nat
deriving DecidableEq, Repr

/-- Names and indexes are unique within a namespace, ends within a pair. -/
structure Valid (ifaces : List Iface) (nextPair : Nat) : Prop where
  names : ∀ i ∈ ifaces, ∀ j ∈ ifaces, i.scope = j.scope → i.name = j.name → i = j
  indexes : ∀ i ∈ ifaces, ∀ j ∈ ifaces, i.scope = j.scope → i.index = j.index → i = j
  ends : ∀ i ∈ ifaces, ∀ j ∈ ifaces, i.pair = j.pair → i.side = j.side → i = j
  below : ∀ i ∈ ifaces, i.pair < nextPair

/-- The interfaces of all namespaces; `nextPair` numbers the next pair. -/
structure Kernel where
  ifaces : List Iface
  nextPair : Nat
  valid : Valid ifaces nextPair

/-- No interface other than `i` has the name or the index of `i'` in its namespace. -/
def NoClash (ifaces : List Iface) (i i' : Iface) : Prop :=
  ∀ j ∈ ifaces, j ≠ i → j.scope = i'.scope → j.name ≠ i'.name ∧ j.index ≠ i'.index

instance (ifaces : List Iface) (i i' : Iface) : Decidable (NoClash ifaces i i') :=
  inferInstanceAs (Decidable (∀ j ∈ ifaces, j ≠ i → j.scope = i'.scope →
    j.name ≠ i'.name ∧ j.index ≠ i'.index))

/-- The name and the index are free in the namespace. -/
def Free (ifaces : List Iface) (scope : Scope) (name : Text) (index : Nat) : Prop :=
  ∀ i ∈ ifaces, i.scope = scope → i.name ≠ name ∧ i.index ≠ index

instance (ifaces : List Iface) (scope : Scope) (name : Text) (index : Nat) :
    Decidable (Free ifaces scope name index) :=
  inferInstanceAs (Decidable (∀ i ∈ ifaces, i.scope = scope → i.name ≠ name ∧ i.index ≠ index))

/-- The list with `i` replaced. -/
def replace (ifaces : List Iface) (i i' : Iface) : List Iface :=
  ifaces.map (fun j => if j = i then i' else j)

theorem mem_replace
    {ifaces : List Iface} {i i' j : Iface}
    (h : j ∈ replace ifaces i i') :
    (j ∈ ifaces ∧ j ≠ i) ∨ (i ∈ ifaces ∧ j = i') := by
  obtain ⟨x, hx, hj⟩ := List.mem_map.mp h
  by_cases hxi : x = i
  · exact .inr ⟨hxi ▸ hx, by simpa [hxi] using hj.symm⟩
  · obtain rfl : x = j := by simpa [hxi] using hj
    exact .inl ⟨hx, hxi⟩

theorem mem_replace_self
    {ifaces : List Iface} {i i' : Iface}
    (h : i ∈ ifaces) :
    i' ∈ replace ifaces i i' :=
  List.mem_map.mpr ⟨i, h, by simp⟩

theorem mem_replace_of_ne
    {ifaces : List Iface} {i i' j : Iface}
    (h : j ∈ ifaces) (hne : j ≠ i) :
    j ∈ replace ifaces i i' :=
  List.mem_map.mpr ⟨j, h, by simp [hne]⟩

theorem filter_replace
    {keep : Iface → Bool} {i i' : Iface}
    (ifaces : List Iface) (hi : keep i = false) (hi' : keep i' = false) :
    (replace ifaces i i').filter keep = ifaces.filter keep := by
  induction ifaces with
  | nil => rfl
  | cons j rest ih =>
      unfold replace at ih ⊢
      by_cases hj : j = i
      · simp [hj, hi, hi', ih]
      · simp [hj, List.filter_cons, ih]

theorem valid_replace
    {ifaces : List Iface} {nextPair : Nat} {i i' : Iface}
    (hvalid : Valid ifaces nextPair)
    (hpair : i'.pair = i.pair) (hside : i'.side = i.side) (hclash : NoClash ifaces i i') :
    Valid (replace ifaces i i') nextPair := by
  constructor
  case names =>
    intro x hx y hy hscope hname
    rcases mem_replace hx with ⟨hxl, hxi⟩ | ⟨-, rfl⟩ <;>
      rcases mem_replace hy with ⟨hyl, hyi⟩ | ⟨-, rfl⟩
    · exact hvalid.names x hxl y hyl hscope hname
    · exact absurd hname (hclash x hxl hxi hscope).1
    · exact absurd hname.symm (hclash y hyl hyi hscope.symm).1
    · rfl
  case indexes =>
    intro x hx y hy hscope hindex
    rcases mem_replace hx with ⟨hxl, hxi⟩ | ⟨-, rfl⟩ <;>
      rcases mem_replace hy with ⟨hyl, hyi⟩ | ⟨-, rfl⟩
    · exact hvalid.indexes x hxl y hyl hscope hindex
    · exact absurd hindex (hclash x hxl hxi hscope).2
    · exact absurd hindex.symm (hclash y hyl hyi hscope.symm).2
    · rfl
  case ends =>
    intro x hx y hy hxy hsides
    rcases mem_replace hx with ⟨hxl, hxi⟩ | ⟨hi, rfl⟩ <;>
      rcases mem_replace hy with ⟨hyl, hyi⟩ | ⟨hi', rfl⟩
    · exact hvalid.ends x hxl y hyl hxy hsides
    · exact absurd (hvalid.ends x hxl i hi' (hxy.trans hpair) (hsides.trans hside)) hxi
    · exact absurd (hvalid.ends y hyl i hi (hxy.symm.trans hpair) (hsides.symm.trans hside)) hyi
    · rfl
  case below =>
    intro x hx
    rcases mem_replace hx with ⟨hxl, -⟩ | ⟨hi, rfl⟩
    · exact hvalid.below x hxl
    · exact hpair ▸ hvalid.below i hi

theorem valid_filter
    {ifaces : List Iface} {nextPair : Nat}
    (hvalid : Valid ifaces nextPair) (keep : Iface → Bool) :
    Valid (ifaces.filter keep) nextPair where
  names i hi j hj := hvalid.names i (List.mem_of_mem_filter hi) j (List.mem_of_mem_filter hj)
  indexes i hi j hj :=
    hvalid.indexes i (List.mem_of_mem_filter hi) j (List.mem_of_mem_filter hj)
  ends i hi j hj := hvalid.ends i (List.mem_of_mem_filter hi) j (List.mem_of_mem_filter hj)
  below i hi := hvalid.below i (List.mem_of_mem_filter hi)

/-- A new interface of a new end, with a free name and index. -/
theorem valid_append
    {ifaces : List Iface} {nextPair : Nat} {i : Iface}
    (hvalid : Valid ifaces nextPair) (hfree : Free ifaces i.scope i.name i.index)
    (hpair : i.pair < nextPair) (hend : ∀ j ∈ ifaces, j.pair = i.pair → j.side ≠ i.side) :
    Valid (ifaces ++ [i]) nextPair := by
  have hcases : ∀ {x}, x ∈ ifaces ++ [i] → x ∈ ifaces ∨ x = i := by
    intro x hx
    simpa using hx
  constructor
  case names =>
    intro x hx y hy hscope hname
    rcases hcases hx with hxl | rfl <;> rcases hcases hy with hyl | rfl
    · exact hvalid.names x hxl y hyl hscope hname
    · exact absurd hname (hfree x hxl hscope).1
    · exact absurd hname.symm (hfree y hyl hscope.symm).1
    · rfl
  case indexes =>
    intro x hx y hy hscope hindex
    rcases hcases hx with hxl | rfl <;> rcases hcases hy with hyl | rfl
    · exact hvalid.indexes x hxl y hyl hscope hindex
    · exact absurd hindex (hfree x hxl hscope).2
    · exact absurd hindex.symm (hfree y hyl hscope.symm).2
    · rfl
  case ends =>
    intro x hx y hy hxy hsides
    rcases hcases hx with hxl | rfl <;> rcases hcases hy with hyl | rfl
    · exact hvalid.ends x hxl y hyl hxy hsides
    · exact absurd hsides (hend x hxl hxy)
    · exact absurd hsides.symm (hend y hyl hxy.symm)
    · rfl
  case below =>
    intro x hx
    rcases hcases hx with hxl | rfl
    · exact hvalid.below x hxl
    · exact hpair

theorem Valid.mono
    {ifaces : List Iface} {m n : Nat}
    (h : Valid ifaces m) (hmn : m ≤ n) :
    Valid ifaces n :=
  { h with below := fun i hi => Nat.lt_of_lt_of_le (h.below i hi) hmn }

/-- The two ends of a new pair. -/
def newPair (nextPair : Nat) (nameA nameB : Text) (indexA indexB : Nat) : List Iface :=
  [⟨nextPair, .a, none, nameA, indexA⟩, ⟨nextPair, .b, none, nameB, indexB⟩]

theorem valid_addPair
    {ifaces : List Iface} {nextPair : Nat} {nameA nameB : Text} {indexA indexB : Nat}
    (hvalid : Valid ifaces nextPair)
    (ha : Free ifaces none nameA indexA) (hb : Free ifaces none nameB indexB)
    (hname : nameA ≠ nameB) (hindex : indexA ≠ indexB) :
    Valid (ifaces ++ newPair nextPair nameA nameB indexA indexB) (nextPair + 1) := by
  have hold : ∀ j ∈ ifaces, j.pair ≠ nextPair :=
    fun j hj => Nat.ne_of_lt (hvalid.below j hj)
  have hfirst : Valid (ifaces ++ [⟨nextPair, .a, none, nameA, indexA⟩]) (nextPair + 1) :=
    valid_append (hvalid.mono (Nat.le_succ _)) ha (Nat.lt_succ_self _)
      (fun j hj heq => absurd heq (hold j hj))
  have hsecond := valid_append (i := ⟨nextPair, .b, none, nameB, indexB⟩) hfirst ?_
    (Nat.lt_succ_self _) ?_
  · simpa [newPair] using hsecond
  · intro j hj hscope
    rcases List.mem_append.mp hj with hj | hj
    · exact hb j hj hscope
    · obtain rfl := List.mem_singleton.mp hj
      exact ⟨hname, hindex⟩
  · intro j hj heq
    rcases List.mem_append.mp hj with hj | hj
    · exact absurd heq (hold j hj)
    · obtain rfl := List.mem_singleton.mp hj
      simp

namespace Kernel

/-- `link_lookup(ifname=name)` in a namespace. -/
def lookup (k : Kernel) (scope : Scope) (name : Text) : Option Nat :=
  (k.ifaces.find? (fun i => decide (i.scope = scope ∧ i.name = name))).map Iface.index

/-- The interface with an index in a namespace. -/
def atIndex (k : Kernel) (scope : Scope) (index : Nat) : Option Iface :=
  k.ifaces.find? (fun i => decide (i.scope = scope ∧ i.index = index))

/-- `link("add", ifname=nameA, kind="veth", peer=nameB)` in the root namespace. -/
def addPair (k : Kernel) (nameA nameB : Text) (indexA indexB : Nat) : Option Kernel :=
  if h : (Free k.ifaces none nameA indexA ∧ Free k.ifaces none nameB indexB) ∧
      nameA ≠ nameB ∧ indexA ≠ indexB then
    some ⟨k.ifaces ++ newPair k.nextPair nameA nameB indexA indexB, k.nextPair + 1,
      valid_addPair k.valid h.1.1 h.1.2 h.2.1 h.2.2⟩
  else none

/-- The interface once it is in `target`, under the name that was given with the call;
its index changes only with the namespace. -/
def relinked (i : Iface) (target : Scope) (name : Option Text) (index : Nat) : Iface :=
  { i with
    scope := target
    name := name.getD i.name
    index := if target = i.scope then i.index else index }

/-- `link("set", index=index, net_ns_fd=…, ifname=…)`: rename, move or both. -/
def relink (k : Kernel) (scope : Scope) (index : Nat) (target : Scope) (name : Option Text)
    (newIndex : Nat) : Option Kernel :=
  match k.atIndex scope index with
  | none => none
  | some i =>
      if h : NoClash k.ifaces i (relinked i target name newIndex) then
        some ⟨replace k.ifaces i (relinked i target name newIndex), k.nextPair,
          valid_replace k.valid rfl rfl h⟩
      else none

/-- `link("del", index=index)`; the peer goes with it. -/
def delete (k : Kernel) (scope : Scope) (index : Nat) : Option Kernel :=
  match k.atIndex scope index with
  | none => none
  | some i =>
      some ⟨k.ifaces.filter (fun j => decide (j.pair ≠ i.pair)), k.nextPair,
        valid_filter k.valid _⟩

/-- `link("del", ifname=name)`. -/
def deleteName (k : Kernel) (scope : Scope) (name : Text) : Option Kernel :=
  match k.lookup scope name with
  | none => none
  | some index => k.delete scope index

/-- The interfaces of the other pairs. -/
def others (k : Kernel) (pair : Nat) : List Iface :=
  k.ifaces.filter (fun i => decide (i.pair ≠ pair))

theorem lookup_of_mem
    {k : Kernel} {i : Iface}
    (h : i ∈ k.ifaces) :
    k.lookup i.scope i.name = some i.index := by
  unfold lookup
  cases hfind : k.ifaces.find? (fun j => decide (j.scope = i.scope ∧ j.name = i.name)) with
  | none => simpa using List.find?_eq_none.mp hfind i h
  | some j =>
      have hj : j.scope = i.scope ∧ j.name = i.name := by simpa using List.find?_some hfind
      rw [k.valid.names j (List.mem_of_find?_eq_some hfind) i h hj.1 hj.2]
      rfl

theorem atIndex_of_mem
    {k : Kernel} {i : Iface}
    (h : i ∈ k.ifaces) :
    k.atIndex i.scope i.index = some i := by
  unfold atIndex
  cases hfind : k.ifaces.find? (fun j => decide (j.scope = i.scope ∧ j.index = i.index)) with
  | none => simpa using List.find?_eq_none.mp hfind i h
  | some j =>
      have hj : j.scope = i.scope ∧ j.index = i.index := by simpa using List.find?_some hfind
      rw [k.valid.indexes j (List.mem_of_find?_eq_some hfind) i h hj.1 hj.2]

/-- Deleting an end leaves exactly the other pairs. -/
theorem delete_of_mem
    {k : Kernel} {i : Iface}
    (h : i ∈ k.ifaces) :
    ∃ k', k.delete i.scope i.index = some k' ∧ k'.ifaces = k.others i.pair ∧
      k'.nextPair = k.nextPair := by
  unfold delete
  rw [atIndex_of_mem h]
  exact ⟨_, rfl, rfl, rfl⟩

theorem deleteName_of_mem
    {k : Kernel} {i : Iface}
    (h : i ∈ k.ifaces) :
    ∃ k', k.deleteName i.scope i.name = some k' ∧ k'.ifaces = k.others i.pair ∧
      k'.nextPair = k.nextPair := by
  unfold deleteName
  rw [lookup_of_mem h]
  exact delete_of_mem h

/-- Renaming or moving an interface leaves all others as they are. -/
theorem relink_of_mem
    {k k' : Kernel} {i : Iface} {target : Scope} {name : Option Text} {index : Nat}
    (h : i ∈ k.ifaces) (hset : k.relink i.scope i.index target name index = some k') :
    relinked i target name index ∈ k'.ifaces ∧ (∀ j ∈ k.ifaces, j ≠ i → j ∈ k'.ifaces) ∧
      k'.others i.pair = k.others i.pair ∧ k'.nextPair = k.nextPair := by
  unfold relink at hset
  simp only [atIndex_of_mem h] at hset
  split_ifs at hset with hclash
  obtain rfl := Option.some.inj hset
  refine ⟨mem_replace_self h, fun j hj hne => mem_replace_of_ne hj hne, ?_, rfl⟩
  exact filter_replace k.ifaces (by simp) (by simp [relinked])

/-- The ends of a new pair, and what was there before. -/
theorem addPair_spec
    {k k' : Kernel} {nameA nameB : Text} {indexA indexB : Nat}
    (h : k.addPair nameA nameB indexA indexB = some k') :
    k'.ifaces = k.ifaces ++ newPair k.nextPair nameA nameB indexA indexB ∧
      k'.nextPair = k.nextPair + 1 ∧ k'.others k.nextPair = k.ifaces := by
  unfold addPair at h
  split_ifs at h with hfree
  obtain rfl := Option.some.inj h
  refine ⟨rfl, rfl, ?_⟩
  unfold others
  rw [List.filter_append]
  have hold : k.ifaces.filter (fun i => decide (i.pair ≠ k.nextPair)) = k.ifaces := by
    refine List.filter_eq_self.mpr ?_
    intro i hi
    simpa using Nat.ne_of_lt (k.valid.below i hi)
  rw [hold]
  simp [newPair]

end Kernel
end Veth
end P4Net
