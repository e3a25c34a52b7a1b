import Mathlib.Tactic.Cases

/-!
# Polling loops

A loop that reads its surroundings in turns and keeps a state between them.  A turn ends the
loop with a result, or leaves the state of the next turn.

* `poll` : the loop over a list of turns.
* `poll_append` : the turns of a loop in two parts.
* `poll_eq_inr_iff` : the loop has ended iff one of its turns was reached and ended it.
-/

namespace P4Net
namespace PollingLoops

variable {σ ι ρ : Type}

/-- The loop has ended with a result, or waits for its next turn. -/
def poll (turn : σ → ι → σ ⊕ ρ) : List ι → σ → σ ⊕ ρ
  | [], s => .inl s
  | i :: rest, s =>
      match turn s i with
      | .inl s' => poll turn rest s'
      | .inr r => .inr r

variable {turn : σ → ι → σ ⊕ ρ}

theorem poll_cons_of_inl
    {s s' : σ} {i : ι}
    (h : turn s i = .inl s') (rest : List ι) :
    poll turn (i :: rest) s = poll turn rest s' := by
  rw [poll, h]

theorem poll_cons_of_inr
    {s : σ} {i : ι} {r : ρ}
    (h : turn s i = .inr r) (rest : List ι) :
    poll turn (i :: rest) s = .inr r := by
  rw [poll, h]

theorem poll_append
    {before : List ι} {s s' : σ}
    (h : poll turn before s = .inl s') (rest : List ι) :
    poll turn (before ++ rest) s = poll turn rest s' := by
  induction before generalizing s with
  | nil =>
      cases h
      rfl
  | cons i before ih =>
      cases hturn : turn s i with
      | inl s₁ =>
          rw [poll_cons_of_inl hturn] at h
          rw [List.cons_append, poll_cons_of_inl hturn, ih h]
      | inr r =>
          rw [poll_cons_of_inr hturn] at h
          cases h

/-- A turn that is reached and ends the loop. -/
theorem poll_of_reached
    {before after : List ι} {i : ι} {s s' : σ} {r : ρ}
    (hbefore : poll turn before s = .inl s') (hturn : turn s' i = .inr r) :
    poll turn (before ++ i :: after) s = .inr r := by
  rw [poll_append hbefore, poll_cons_of_inr hturn]

/-- The loop has ended iff one of its turns was reached and ended it. -/
theorem poll_eq_inr_iff
    {turns : List ι} {s : σ} {r : ρ} :
    poll turn turns s = .inr r ↔
      ∃ before i after s', turns = before ++ i :: after ∧ poll turn before s = .inl s' ∧
        turn s' i = .inr r := by
  constructor
  · intro h
    induction turns generalizing s with
    | nil => cases h
    | cons i rest ih =>
        cases hturn : turn s i with
        | inr r' =>
            rw [poll_cons_of_inr hturn] at h
            cases h
            exact ⟨[], i, rest, s, rfl, rfl, hturn⟩
        | inl s₁ =>
            rw [poll_cons_of_inl hturn] at h
            obtain ⟨before, j, after, s', rfl, hbefore, hend⟩ := ih h
            exact ⟨i :: before, j, after, s', rfl, by rw [poll_cons_of_inl hturn, hbefore], hend⟩
  · rintro ⟨before, i, after, s', rfl, hbefore, hturn⟩
    exact poll_of_reached hbefore hturn

end PollingLoops
end P4Net
