import Mathlib.Logic.Function.Basic
import Mathlib.Data.List.Nodup
import Mathlib.Tactic.Cases

/-!
# Runs of labelled step functions

A system is a partial step function `step : σ → α → Option σ`.  A label is a choice
of the scheduler or of the environment, and `none` means that it is not enabled.

* `Reaches step ok s` are the states reached from `s` by steps that all meet `ok`.
* `Reaches.invariant` is the induction rule for them.
* `execute` runs a list of labels; `reaches_of_execute` turns it into a run.
-/

namespace P4Net
namespace Runs

universe u v

variable {σ : Type u} {α : Type v}
variable {step : σ → α → Option σ} {ok : σ → α → Prop}

/-- The states reached from `s` by steps that all meet `ok`. -/
inductive Reaches (step : σ → α → Option σ) (ok : σ → α → Prop) (s : σ) : σ → Prop
  | refl : Reaches step ok s s
  | tail {t u : σ} {a : α} :
      Reaches step ok s t → ok t a → step t a = some u → Reaches step ok s u

/-- Every label is admitted. -/
def anyStep (_ : σ) (_ : α) : Prop := True

namespace Reaches

/-- What holds at the start and is preserved by every admitted step holds throughout. -/
theorem invariant
    {Inv : σ → Prop} {s t : σ}
    (h : Reaches step ok s t) (hs : Inv s)
    (hstep : ∀ u a v, Inv u → ok u a → step u a = some v → Inv v) :
    Inv t := by
  induction h with
  | refl => exact hs
  | tail _ hok hst ih => exact hstep _ _ _ ih hok hst

/-- An invariant whose step may use a property already known of every reached state. -/
theorem invariant_with
    {Known Inv : σ → Prop} {s t : σ}
    (h : Reaches step ok s t) (hs : Inv s)
    (hknown : ∀ u, Reaches step ok s u → Known u)
    (hstep : ∀ u a v, Known u → Inv u → ok u a → step u a = some v → Inv v) :
    Inv t := by
  induction h with
  | refl => exact hs
  | tail hrun hok hst ih => exact hstep _ _ _ (hknown _ hrun) ih hok hst

theorem trans
    {s t u : σ}
    (h : Reaches step ok s t) (h' : Reaches step ok t u) :
    Reaches step ok s u := by
  induction h' with
  | refl => exact h
  | tail _ hok hst ih => exact ih.tail hok hst

end Reaches

/-- Take the steps of a list of labels. -/
def execute (step : σ → α → Option σ) : σ → List α → Option σ
  | s, [] => some s
  | s, a :: rest =>
      match step s a with
      | none => none
      | some t => execute step t rest

/-- The last label of an executed list is a step from where the others lead. -/
theorem execute_concat_eq_some_iff
    {labels : List α} {a : α} {s u : σ} :
    execute step s (labels ++ [a]) = some u ↔
      ∃ t, execute step s labels = some t ∧ step t a = some u := by
  induction labels generalizing s with
  | nil =>
      rw [List.nil_append, execute]
      cases hst : step s a <;> simp [execute, hst]
  | cons b rest ih =>
      rw [List.cons_append, execute, execute]
      cases hst : step s b with
      | none => simp
      | some v => exact ih

/-- An executed list of admitted labels is a run. -/
theorem reaches_of_execute
    {labels : List α} {s t : σ}
    (hok : ∀ u, ∀ a ∈ labels, ok u a)
    (h : execute step s labels = some t) :
    Reaches step ok s t := by
  induction labels generalizing s with
  | nil =>
      obtain rfl := Option.some.inj h
      exact .refl
  | cons a rest ih =>
      rw [execute] at h
      cases hst : step s a with
      | none => simp [hst] at h
      | some u =>
          simp only [hst] at h
          have htail := ih (fun v b hb => hok v b (List.mem_cons_of_mem _ hb)) h
          exact (Reaches.refl.tail (hok s a List.mem_cons_self) hst).trans htail

end Runs
end P4Net
