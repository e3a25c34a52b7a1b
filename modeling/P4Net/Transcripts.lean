import Mathlib.Tactic.Cases

/-!
# Transcripts of calls

An object is a function `serve : σ → α → σ × ρ` from a state and a call to the next state and
a reply.  What its callers may rely on is a relation `spec : τ → α → ρ → τ → Prop` on abstract
states.

* `transcript` : the calls and replies of a sequence of calls, and the state after it.
* `Explains` : the abstract object gives these replies to these calls.
* `Explains.of_simulation` : a relation that every call keeps explains every transcript.
* `Explains.of_abstraction` : the case of a function from states to abstract states.
-/

namespace P4Net
namespace Transcripts

universe u v w x

variable {σ : Type u} {α : Type v} {ρ : Type w} {τ : Type x}

/-- The calls and replies of a sequence of calls, and the state after it. -/
def transcript (serve : σ → α → σ × ρ) : σ → List α → List (α × ρ) × σ
  | s, [] => ([], s)
  | s, a :: rest =>
      let log := transcript serve (serve s a).1 rest
      ((a, (serve s a).2) :: log.1, log.2)

/-- Every call is made in a state that admits it. -/
def Admitted (serve : σ → α → σ × ρ) (ok : σ → α → Prop) : σ → List α → Prop
  | _, [] => True
  | s, a :: rest => ok s a ∧ Admitted serve ok (serve s a).1 rest

/-- The abstract object gives these replies to these calls. -/
inductive Explains (spec : τ → α → ρ → τ → Prop) : τ → List (α × ρ) → τ → Prop
  | nil (t : τ) : Explains spec t [] t
  | cons {t t' t'' : τ} {a : α} {r : ρ} {log : List (α × ρ)} :
      spec t a r t' → Explains spec t' log t'' → Explains spec t ((a, r) :: log) t''

section

variable {serve : σ → α → σ × ρ} {ok : σ → α → Prop} {spec : τ → α → ρ → τ → Prop}

/-- A relation that every admitted call keeps explains every transcript. -/
theorem Explains.of_simulation
    {R : σ → τ → Prop}
    (hstep : ∀ s t a, R s t → ok s a → ∃ t', spec t a (serve s a).2 t' ∧ R (serve s a).1 t')
    (calls : List α) {s : σ} {t : τ} (hrel : R s t) (hok : Admitted serve ok s calls) :
    ∃ t', Explains spec t (transcript serve s calls).1 t' ∧ R (transcript serve s calls).2 t' := by
  induction calls generalizing s t with
  | nil => exact ⟨t, .nil t, hrel⟩
  | cons a rest ih =>
      obtain ⟨t', hspec, hnext⟩ := hstep s t a hrel hok.1
      obtain ⟨t'', hlog, hlast⟩ := ih hnext hok.2
      exact ⟨t'', .cons hspec hlog, hlast⟩

/-- An abstraction under which every admitted call is a step explains every transcript. -/
theorem Explains.of_abstraction
    (abs : σ → τ)
    (hstep : ∀ s a, ok s a → spec (abs s) a (serve s a).2 (abs (serve s a).1))
    {calls : List α} {s : σ} (hok : Admitted serve ok s calls) :
    Explains spec (abs s) (transcript serve s calls).1 (abs (transcript serve s calls).2) := by
  have hsim : ∀ s t a, t = abs s → ok s a →
      ∃ t', spec t a (serve s a).2 t' ∧ t' = abs (serve s a).1 := by
    rintro s _ a rfl ha
    exact ⟨_, hstep s a ha, rfl⟩
  obtain ⟨_, hlog, rfl⟩ := Explains.of_simulation hsim calls rfl hok
  exact hlog

/-- What every abstract step preserves holds at the end of an explained transcript. -/
theorem Explains.invariant
    {Inv : τ → Prop} {t t' : τ} {log : List (α × ρ)}
    (h : Explains spec t log t') (ht : Inv t)
    (hstep : ∀ u a r u', (a, r) ∈ log → Inv u → spec u a r u' → Inv u') :
    Inv t' := by
  induction h with
  | nil => exact ht
  | cons hspec _ ih =>
      refine ih (hstep _ _ _ _ List.mem_cons_self ht hspec) fun u a r u' hmem => ?_
      exact hstep u a r u' (List.mem_cons_of_mem _ hmem)

end
end Transcripts
end P4Net
