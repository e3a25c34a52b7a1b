import P4Net.OrderedDict

/-!
# Scans that detect repeated claims

A validator goes over a list, lets each item claim a key, and reports a problem when the
key has been claimed before.  Some items are reported at once and claim nothing.

* `forall_mem_scan_iff` : what holds of every problem that a scan reports.
* `scan_empty_iff` : nothing is reported iff no item is reported at once and no key is
  claimed twice.
-/

namespace P4Net
namespace Claims

universe u v w

variable {κ : Type u} {ω : Type v} {π : Type w}

/-- What an item does in a scan. -/
inductive Item (κ : Type u) (ω : Type v) (π : Type w) where
  | skip
  | report (problem : π)
  /-- Claim `key` for `owner`; a repeated claim is a problem with the first owner. -/
  | claim (key : κ) (owner : ω) (collision : ω → π)

namespace Item

/-- The key that the item claims. -/
def key? : Item κ ω π → Option κ
  | claim key _ _ => some key
  | _ => none

/-- The item is reported at once. -/
def IsReport : Item κ ω π → Prop
  | report _ => True
  | _ => False

@[simp] theorem key?_skip : (skip : Item κ ω π).key? = none := rfl

@[simp] theorem key?_report (problem : π) : (report problem : Item κ ω π).key? = none := rfl

@[simp] theorem key?_claim
    (key : κ) (owner : ω) (collision : ω → π) :
    (claim key owner collision).key? = some key := rfl

@[simp] theorem isReport_skip : ¬ (skip : Item κ ω π).IsReport := id

@[simp] theorem isReport_report (problem : π) : (report problem : Item κ ω π).IsReport :=
  True.intro

@[simp] theorem isReport_claim
    (key : κ) (owner : ω) (collision : ω → π) :
    ¬ (claim key owner collision).IsReport := id

end Item

/-- The problems of a list of items, given the keys that are already owned. -/
def scan [DecidableEq κ] : OrderedDict κ ω → List (Item κ ω π) → List π
  | _, [] => []
  | owners, .skip :: rest => scan owners rest
  | owners, .report problem :: rest => problem :: scan owners rest
  | owners, .claim key owner collision :: rest =>
      match owners.get? key with
      | some first => collision first :: scan owners rest
      | none => scan (owners.set key owner) rest

variable [DecidableEq κ]

/--
All problems of a scan have a property iff those that are reported at once have it and the keys
that are claimed twice are keys whose collisions have it.
-/
theorem forall_mem_scan_iff
    (P : π → Prop) (Q : κ → Prop) (owners : OrderedDict κ ω) (items : List (Item κ ω π))
    (hitems : ∀ key owner collision, .claim key owner collision ∈ items →
      ∀ first, P (collision first) ↔ Q key) :
    (∀ p ∈ scan owners items, P p) ↔
      (∀ p, .report p ∈ items → P p) ∧
        (owners.keys ++ items.filterMap Item.key?).Pairwise fun k l => k = l → Q k := by
  have hsymm : ∀ {k l : κ}, (k = l → Q k) → l = k → Q l := by
    rintro k l h rfl
    exact h rfl
  induction items generalizing owners with
  | nil =>
      have hkeys : owners.keys.Pairwise fun k l => k = l → Q k :=
        owners.nodup.imp fun h heq => absurd heq h
      simpa [scan] using hkeys
  | cons i rest ih =>
      have ih := fun owners => ih owners fun key owner collision h =>
        hitems key owner collision (List.mem_cons_of_mem _ h)
      cases i with
      | skip =>
          have hkeys : (Item.skip :: rest).filterMap Item.key? = rest.filterMap Item.key? :=
            List.filterMap_cons_none Item.key?_skip
          simp [scan, ih, hkeys]
      | report problem =>
          have hkeys : (Item.report problem :: rest).filterMap Item.key? =
              rest.filterMap Item.key? := List.filterMap_cons_none (Item.key?_report problem)
          simp [scan, ih, hkeys, and_assoc]
      | claim key owner collision =>
          have hkeys : (Item.claim key owner collision :: rest).filterMap Item.key? =
              key :: rest.filterMap Item.key? := List.filterMap_cons_some (Item.key?_claim ..)
          cases hget : owners.get? key with
          | some first =>
              have hmem : key ∈ owners.keys :=
                (owners.get?_isSome_iff key).mp (by rw [hget]; rfl)
              have hfirst := hitems key owner collision (List.mem_cons_self ..) first
              -- The key is owned, so it is claimed twice.
              have hrepeat : (∀ l ∈ owners.keys ++ rest.filterMap Item.key?, key = l → Q key) ↔
                  Q key :=
                ⟨fun h => h key (List.mem_append_left _ hmem) rfl, fun h _ _ _ => h⟩
              rw [hkeys, List.pairwise_middle hsymm, List.pairwise_cons, hrepeat]
              simp [scan, hget, ih, hfirst, and_left_comm]
          | none =>
              have hnew : key ∉ owners.keys := (owners.get?_eq_none_iff key).mp hget
              have hset : (owners.set key owner).keys = owners.keys ++ [key] := by
                simp [OrderedDict.keys, OrderedDict.set_entries_of_not_mem hnew]
              simp [scan, hget, ih, hset, hkeys]

theorem scan_eq_nil_iff
    (owners : OrderedDict κ ω) (items : List (Item κ ω π)) :
    scan owners items = [] ↔
      (∀ i ∈ items, ¬ i.IsReport) ∧ (owners.keys ++ items.filterMap Item.key?).Nodup := by
  have hreports : (∀ p, .report p ∈ items → False) ↔ ∀ i ∈ items, ¬ i.IsReport := by
    constructor
    · intro h i hi hreport
      cases i with
      | report problem => exact h problem hi
      | _ => exact hreport
    · exact fun h p hp => h _ hp (Item.isReport_report p)
  rw [List.eq_nil_iff_forall_not_mem, ← hreports]
  exact forall_mem_scan_iff (fun _ => False) (fun _ => False) owners items
    fun _ _ _ _ _ => Iff.rfl

/-- Nothing is reported iff nothing is reported at once and no key is claimed twice. -/
theorem scan_empty_iff
    (items : List (Item κ ω π)) :
    scan OrderedDict.empty items = [] ↔
      (∀ i ∈ items, ¬ i.IsReport) ∧ (items.filterMap Item.key?).Nodup := by
  simpa [OrderedDict.empty, OrderedDict.keys] using
    scan_eq_nil_iff (OrderedDict.empty : OrderedDict κ ω) items

end Claims
end P4Net
