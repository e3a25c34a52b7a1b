import Mathlib.Data.List.Nodup
import Mathlib.Tactic.Cases

/-!
# Insertion-ordered dictionaries

A dictionary that remembers the order in which its keys were first set.  The
structure carries the fact that no key occurs twice.  Setting a key that is
present overwrites its value in place; setting a new key appends an entry.

The main facts are `get?_eq_some_iff`, which reads a lookup as membership of an
entry, and `ofList_entries`, which says that a list with distinct keys is its own
dictionary.
-/

namespace P4Net

universe u v w

section EntryLists

variable {α : Type u} {β : Type v} [DecidableEq α]

/-- First value stored under `k`. -/
def entryLookup (k : α) : List (α × β) → Option β
  | [] => none
  | e :: rest => if e.1 = k then some e.2 else entryLookup k rest

/-- Overwrite the entry of `k` in place, or append a new one. -/
def entrySet (k : α) (v : β) : List (α × β) → List (α × β)
  | [] => [(k, v)]
  | e :: rest => if e.1 = k then (k, v) :: rest else e :: entrySet k v rest

theorem entryLookup_isSome_iff
    (k : α) (l : List (α × β)) :
    (entryLookup k l).isSome = true ↔ k ∈ l.map Prod.fst := by
  induction l with
  | nil => simp [entryLookup]
  | cons e rest ih =>
      by_cases h : e.1 = k
      · simp [entryLookup, h]
      · rw [List.map_cons, List.mem_cons]
        simp [entryLookup, h, ih, Ne.symm h]

theorem entryLookup_eq_none_iff
    (k : α) (l : List (α × β)) :
    entryLookup k l = none ↔ k ∉ l.map Prod.fst := by
  rw [← entryLookup_isSome_iff, Bool.not_eq_true, Option.isSome_eq_false_iff,
    Option.isNone_iff_eq_none]

theorem mem_entrySet_keys
    (k k' : α) (v : β) (l : List (α × β)) :
    k' ∈ (entrySet k v l).map Prod.fst ↔ k' = k ∨ k' ∈ l.map Prod.fst := by
  induction l with
  | nil => simp [entrySet]
  | cons e rest ih =>
      by_cases h : e.1 = k
      · simp [entrySet, h]
      · simp only [entrySet, h, if_false, List.map_cons, List.mem_cons, ih]
        tauto

theorem entrySet_nodup
    (k : α) (v : β)
    {l : List (α × β)}
    (h : (l.map Prod.fst).Nodup) :
    ((entrySet k v l).map Prod.fst).Nodup := by
  induction l with
  | nil => simp [entrySet]
  | cons e rest ih =>
      rw [List.map_cons, List.nodup_cons] at h
      by_cases hk : e.1 = k
      · simp only [entrySet, hk, if_true, List.map_cons, List.nodup_cons]
        exact ⟨hk ▸ h.1, h.2⟩
      · simp only [entrySet, hk, if_false, List.map_cons, List.nodup_cons]
        refine ⟨?_, ih h.2⟩
        rw [mem_entrySet_keys]
        rintro (he | hmem)
        · exact hk he
        · exact h.1 hmem

/-- A new key is appended. -/
theorem entrySet_of_not_mem
    {k : α} (v : β)
    {l : List (α × β)}
    (h : k ∉ l.map Prod.fst) :
    entrySet k v l = l ++ [(k, v)] := by
  induction l with
  | nil => rfl
  | cons e rest ih =>
      simp only [List.map_cons, List.mem_cons, not_or] at h
      simp [entrySet, Ne.symm h.1, ih h.2]

/-- With distinct keys, a lookup finds exactly the entries. -/
theorem entryLookup_eq_some_iff
    {l : List (α × β)}
    (hnodup : (l.map Prod.fst).Nodup)
    (k : α) (v : β) :
    entryLookup k l = some v ↔ (k, v) ∈ l := by
  induction l with
  | nil => simp [entryLookup]
  | cons e rest ih =>
      rw [List.map_cons, List.nodup_cons] at hnodup
      by_cases hk : e.1 = k
      · simp only [entryLookup, hk, if_true, Option.some.injEq, List.mem_cons]
        constructor
        · rintro rfl
          exact Or.inl (Prod.ext hk.symm rfl)
        · rintro (he | hmem)
          · rw [← he]
          · exact absurd (List.mem_map_of_mem (f := Prod.fst) hmem) (hk ▸ hnodup.1)
      · simp only [entryLookup, hk, if_false, ih hnodup.2, List.mem_cons]
        constructor
        · exact Or.inr
        · rintro (he | hmem)
          · exact absurd (congrArg Prod.fst he).symm hk
          · exact hmem

end EntryLists

/-- An insertion-ordered dictionary. -/
structure OrderedDict (α : Type u) (β : Type v) where
  entries : List (α × β)
  nodup : (entries.map Prod.fst).Nodup

namespace OrderedDict

variable {α : Type u} {β : Type v}

/-- The empty dictionary. -/
def empty : OrderedDict α β := ⟨[], List.nodup_nil⟩

/-- Keys in insertion order. -/
def keys (d : OrderedDict α β) : List α := d.entries.map Prod.fst

/-- Values in insertion order. -/
def values (d : OrderedDict α β) : List β := d.entries.map Prod.snd

@[ext] theorem ext
    {d e : OrderedDict α β}
    (h : d.entries = e.entries) :
    d = e := by
  cases d
  cases e
  simp_all

/-- Apply a function to every value. -/
def mapValues {γ : Type v} (f : β → γ) (d : OrderedDict α β) : OrderedDict α γ :=
  ⟨d.entries.map (fun e => (e.1, f e.2)), by
    rw [List.map_map]
    exact d.nodup⟩

@[simp] theorem keys_mapValues
    {γ : Type v} (f : β → γ) (d : OrderedDict α β) :
    (d.mapValues f).keys = d.keys := by
  simp [mapValues, keys, Function.comp_def]

variable [DecidableEq α]

/-- Value stored under `k`, if any. -/
def get? (d : OrderedDict α β) (k : α) : Option β := entryLookup k d.entries

/-- Store `v` under `k`. -/
def set (d : OrderedDict α β) (k : α) (v : β) : OrderedDict α β :=
  ⟨entrySet k v d.entries, entrySet_nodup k v d.nodup⟩

/-- The dictionary without the entry of `k`. -/
def erase (d : OrderedDict α β) (k : α) : OrderedDict α β :=
  ⟨d.entries.filter (fun e => e.1 ≠ k), d.nodup.sublist (List.filter_sublist.map _)⟩

/-- Dictionary built by setting the entries one after the other. -/
def ofList (l : List (α × β)) : OrderedDict α β :=
  l.foldl (fun d e => d.set e.1 e.2) empty

@[simp] theorem get?_empty
    (k : α) :
    (empty : OrderedDict α β).get? k = none := rfl

theorem get?_isSome_iff
    (d : OrderedDict α β) (k : α) :
    (d.get? k).isSome = true ↔ k ∈ d.keys :=
  entryLookup_isSome_iff k d.entries

theorem get?_eq_none_iff
    (d : OrderedDict α β) (k : α) :
    d.get? k = none ↔ k ∉ d.keys :=
  entryLookup_eq_none_iff k d.entries

theorem mem_keys_of_get?
    {d : OrderedDict α β} {k : α} {v : β}
    (h : d.get? k = some v) :
    k ∈ d.keys :=
  (d.get?_isSome_iff k).mp (by rw [h]; rfl)

/-- A lookup succeeds exactly on the entries. -/
theorem get?_eq_some_iff
    (d : OrderedDict α β) (k : α) (v : β) :
    d.get? k = some v ↔ (k, v) ∈ d.entries :=
  entryLookup_eq_some_iff d.nodup k v

theorem set_entries_of_not_mem
    {d : OrderedDict α β} {k : α}
    (h : k ∉ d.keys) (v : β) :
    (d.set k v).entries = d.entries ++ [(k, v)] :=
  entrySet_of_not_mem v h

theorem keys_set_of_not_mem
    {d : OrderedDict α β} {k : α}
    (h : k ∉ d.keys) (v : β) :
    (d.set k v).keys = d.keys ++ [k] := by
  simp [keys, set_entries_of_not_mem h]

theorem mem_keys_set
    (d : OrderedDict α β) (k k' : α) (v : β) :
    k' ∈ (d.set k v).keys ↔ k' = k ∨ k' ∈ d.keys :=
  mem_entrySet_keys k k' v d.entries

@[simp] theorem get?_set_self
    (d : OrderedDict α β) (k : α) (v : β) :
    (d.set k v).get? k = some v := by
  have h : ∀ l : List (α × β), entryLookup k (entrySet k v l) = some v := by
    intro l
    induction l with
    | nil => simp [entrySet, entryLookup]
    | cons e rest ih =>
        by_cases hk : e.1 = k <;> simp [entrySet, entryLookup, hk, ih]
  exact h d.entries

/-- The value that was stored last counts. -/
theorem set_set
    (d : OrderedDict α β) (k : α) (v w : β) :
    (d.set k v).set k w = d.set k w := by
  have h : ∀ l : List (α × β), entrySet k w (entrySet k v l) = entrySet k w l := by
    intro l
    induction l with
    | nil => simp [entrySet]
    | cons e rest ih =>
        by_cases hk : e.1 = k <;> simp [entrySet, hk, ih]
  exact OrderedDict.ext (h d.entries)

theorem get?_set_of_ne
    {k k' : α} (h : k' ≠ k)
    (d : OrderedDict α β) (v : β) :
    (d.set k v).get? k' = d.get? k' := by
  have hl : ∀ l : List (α × β), entryLookup k' (entrySet k v l) = entryLookup k' l := by
    intro l
    induction l with
    | nil => simp [entrySet, entryLookup, Ne.symm h]
    | cons e rest ih =>
        by_cases hk : e.1 = k
        · simp [entrySet, entryLookup, hk, Ne.symm h]
        · by_cases hk' : e.1 = k' <;> simp [entrySet, entryLookup, hk, hk', ih, h]
  exact hl d.entries

theorem mem_keys_erase
    (d : OrderedDict α β) (k k' : α) :
    k' ∈ (d.erase k).keys ↔ k' ≠ k ∧ k' ∈ d.keys := by
  simp only [keys, erase, List.mem_map, List.mem_filter, decide_eq_true_eq]
  constructor
  · rintro ⟨e, ⟨hmem, hne⟩, rfl⟩
    exact ⟨hne, e, hmem, rfl⟩
  · rintro ⟨hne, e, hmem, rfl⟩
    exact ⟨e, ⟨hmem, hne⟩, rfl⟩

@[simp] theorem get?_erase_self
    (d : OrderedDict α β) (k : α) :
    (d.erase k).get? k = none := by
  rw [get?_eq_none_iff, mem_keys_erase]
  exact fun h => h.1 rfl

theorem get?_erase_of_ne
    {k k' : α} (h : k' ≠ k)
    (d : OrderedDict α β) :
    (d.erase k).get? k' = d.get? k' := by
  ext v
  rw [get?_eq_some_iff, get?_eq_some_iff]
  simp [erase, h]

@[simp] theorem get?_mapValues
    {γ : Type v} (f : β → γ) (d : OrderedDict α β) (k : α) :
    (d.mapValues f).get? k = (d.get? k).map f := by
  have h : ∀ l : List (α × β),
      entryLookup k (l.map fun e => (e.1, f e.2)) = (entryLookup k l).map f := by
    intro l
    induction l with
    | nil => rfl
    | cons e rest ih =>
        by_cases hk : e.1 = k <;> simp [entryLookup, hk, ih]
  exact h d.entries

/-- Setting distinct new keys appends their entries in order. -/
theorem foldl_set_entries
    (l : List (α × β)) (d : OrderedDict α β)
    (h : (d.keys ++ l.map Prod.fst).Nodup) :
    (l.foldl (fun d e => d.set e.1 e.2) d).entries = d.entries ++ l := by
  induction l generalizing d with
  | nil => simp
  | cons e rest ih =>
      have hnew : e.1 ∉ d.keys := by
        intro hmem
        rw [List.nodup_append] at h
        exact h.2.2 e.1 hmem e.1 (by simp) rfl
      have hset := set_entries_of_not_mem hnew e.2
      have hkeys : (d.set e.1 e.2).keys = d.keys ++ [e.1] := by
        simp [keys, hset]
      rw [List.foldl_cons, ih _ (by simpa [hkeys] using h), hset]
      simp

/-- Setting distinct keys in an empty dictionary. -/
theorem foldl_set_empty_entries
    {γ : Type v} (key : γ → α) (l : List γ)
    (h : (l.map key).Nodup) :
    (l.foldl (fun d c => d.set (key c) c) empty).entries = l.map fun c => (key c, c) := by
  have hset := foldl_set_entries (l.map fun c => (key c, c)) empty
    (by simpa [empty, keys, List.map_map, Function.comp_def] using h)
  rw [List.foldl_map] at hset
  rw [hset]
  rfl

/-- A list with distinct keys is its own dictionary. -/
theorem ofList_entries
    {l : List (α × β)}
    (h : (l.map Prod.fst).Nodup) :
    (ofList l).entries = l := by
  have hfold := foldl_set_entries l empty (by simpa [empty, keys] using h)
  rw [ofList, hfold]
  rfl

/-- Set an entry, if there is one. -/
def setEntry (d : OrderedDict α β) : Option (α × β) → OrderedDict α β
  | some e => d.set e.1 e.2
  | none => d

/-- A loop that sets an entry for some elements builds the dictionary of these entries. -/
theorem foldl_setEntry
    {γ : Type w} (entry : γ → Option (α × β)) (l : List γ) :
    l.foldl (fun d c => d.setEntry (entry c)) empty = ofList (l.filterMap entry) := by
  have hfold : ∀ (l : List γ) (d : OrderedDict α β),
      l.foldl (fun d c => d.setEntry (entry c)) d =
        (l.filterMap entry).foldl (fun d e => d.set e.1 e.2) d := by
    intro l
    induction l with
    | nil => exact fun d => rfl
    | cons c rest ih =>
        intro d
        cases hentry : entry c with
        | none =>
            rw [List.foldl_cons, List.filterMap_cons_none hentry, hentry, setEntry, ih]
        | some e =>
            rw [List.foldl_cons, List.filterMap_cons_some hentry, hentry, setEntry, ih,
              List.foldl_cons]
  exact hfold l empty

/-- A loop that sets an entry for some elements sets these entries in order. -/
theorem foldl_setEntry_entries
    {γ : Type w} (entry : γ → Option (α × β)) (l : List γ)
    (h : ((l.filterMap entry).map Prod.fst).Nodup) :
    (l.foldl (fun d c => d.setEntry (entry c)) empty).entries = l.filterMap entry := by
  rw [foldl_setEntry]
  exact ofList_entries h

/-- Only the entries of the list are set. -/
theorem mem_of_mem_ofList
    {l : List (α × β)} {e : α × β}
    (h : e ∈ (ofList l).entries) :
    e ∈ l := by
  have hset : ∀ (d : List (α × β)) (k : α) (v : β), e ∈ entrySet k v d → e = (k, v) ∨ e ∈ d := by
    intro d k v hmem
    induction d with
    | nil => exact Or.inl (by simpa [entrySet] using hmem)
    | cons first rest ih =>
        by_cases hk : first.1 = k
        · simp only [entrySet, hk, if_true, List.mem_cons] at hmem
          exact hmem.imp_right (List.mem_cons_of_mem _)
        · simp only [entrySet, hk, if_false, List.mem_cons] at hmem
          rcases hmem with rfl | hmem
          · exact Or.inr (by simp)
          · exact (ih hmem).imp_right (List.mem_cons_of_mem _)
  have hfold : ∀ (l : List (α × β)) (d : OrderedDict α β),
      e ∈ (l.foldl (fun d e => d.set e.1 e.2) d).entries → e ∈ l ∨ e ∈ d.entries := by
    intro l
    induction l with
    | nil => exact fun d hmem => Or.inr hmem
    | cons first rest ih =>
        intro d hmem
        rcases ih _ hmem with hrest | hd
        · exact Or.inl (List.mem_cons_of_mem _ hrest)
        · rcases hset d.entries _ _ hd with rfl | hd
          · exact Or.inl (by simp)
          · exact Or.inr hd
  rcases hfold l empty h with hl | hempty
  · exact hl
  · cases hempty

/-- The keys are those of the list. -/
theorem mem_keys_ofList
    (l : List (α × β)) (k : α) :
    k ∈ (ofList l).keys ↔ k ∈ l.map Prod.fst := by
  have hfold : ∀ (l : List (α × β)) (d : OrderedDict α β),
      k ∈ (l.foldl (fun d e => d.set e.1 e.2) d).keys ↔ k ∈ d.keys ∨ k ∈ l.map Prod.fst := by
    intro l
    induction l with
    | nil => simp
    | cons e rest ih =>
        intro d
        rw [List.foldl_cons, ih, mem_keys_set, List.map_cons, List.mem_cons]
        tauto
  simpa [ofList, empty, keys] using hfold l empty

/-- A lookup in a dictionary of distinct keys is a lookup in the list. -/
theorem get?_ofList
    {l : List (α × β)}
    (h : (l.map Prod.fst).Nodup) (k : α) :
    (ofList l).get? k = entryLookup k l := by
  rw [get?, ofList_entries h]

/-- In a dictionary built from distinct keys a lookup finds exactly the list. -/
theorem get?_ofList_eq_some_iff
    {l : List (α × β)}
    (h : (l.map Prod.fst).Nodup)
    (k : α) (v : β) :
    (ofList l).get? k = some v ↔ (k, v) ∈ l := by
  rw [get?_eq_some_iff, ofList_entries h]

/-- A dictionary of distinct keys finds every element it was built from. -/
theorem get?_ofList_map
    {f : β → α} {l : List β} {b : β}
    (hnodup : (l.map f).Nodup) (hmem : b ∈ l) :
    (ofList (l.map (fun b => (f b, b)))).get? (f b) = some b := by
  have hkeys : ((l.map (fun b => (f b, b))).map Prod.fst).Nodup := by
    simpa [List.map_map, Function.comp_def] using hnodup
  exact (get?_ofList_eq_some_iff hkeys _ _).mpr
    (List.mem_map.mpr ⟨b, hmem, rfl⟩)

theorem values_ofList_map
    {f : β → α} {l : List β}
    (hnodup : (l.map f).Nodup) :
    (ofList (l.map (fun b => (f b, b)))).values = l := by
  have hkeys : ((l.map (fun b => (f b, b))).map Prod.fst).Nodup := by
    simpa [List.map_map, Function.comp_def] using hnodup
  simp [values, ofList_entries hkeys, List.map_map, Function.comp_def]

end OrderedDict

end P4Net
