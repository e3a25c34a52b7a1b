import P4Net.Transactions

/-!
# What methods end with

A method of an object that may raise at any of its statements leaves the state that it has
reached.  `Ends m s Q E` says that `m`, started in `s`, returns a value and a state that
satisfy `Q`, or raises an exception in a state that satisfies `E`.

* `run_bind` : how a sequence of two methods runs.
* `Ends.bind`, `Ends.forM` : the rules for a sequence and for a loop.
* `run_forM_filterMap` : a loop over some of the elements ends as the loop over all of them,
  if the others do nothing; `run_forM_congr` for all elements.
-/

namespace P4Net
namespace Transactions

variable {ε σ α β : Type}

/-! ### Runs -/

theorem run_bind
    (m : ExceptT ε (StateM σ) α) (f : α → ExceptT ε (StateM σ) β) (s : σ) :
    (m >>= f).run.run s =
      match m.run.run s with
      | (.ok a, s') => (f a).run.run s'
      | (.error e, s') => (.error e, s') := by
  unfold ExceptT.run StateT.run
  simp only [bind, ExceptT.bind, ExceptT.mk, StateT.bind, ExceptT.bindCont]
  cases m s with
  | mk result s' => cases result <;> rfl

theorem run_bind_ok
    {m : ExceptT ε (StateM σ) α} {f : α → ExceptT ε (StateM σ) β} {s s' : σ} {a : α}
    (h : m.run.run s = (.ok a, s')) :
    (m >>= f).run.run s = (f a).run.run s' := by
  rw [run_bind, h]

theorem run_bind_error
    {m : ExceptT ε (StateM σ) α} {f : α → ExceptT ε (StateM σ) β} {s s' : σ} {e : ε}
    (h : m.run.run s = (.error e, s')) :
    (m >>= f).run.run s = (.error e, s') := by
  rw [run_bind, h]

/-! ### Rules -/

/-- The method returns as `Q` says, or raises as `E` says. -/
def Ends (m : ExceptT ε (StateM σ) α) (s : σ) (Q : α → σ → Prop) (E : ε → σ → Prop) : Prop :=
  match m.run.run s with
  | (.ok a, s') => Q a s'
  | (.error e, s') => E e s'

variable {s : σ} {Q : α → σ → Prop} {E : ε → σ → Prop}

theorem Ends.of_ok
    {m : ExceptT ε (StateM σ) α} {a : α} {s' : σ}
    (h : Ends m s Q E) (hrun : m.run.run s = (.ok a, s')) :
    Q a s' := by
  unfold Ends at h
  rwa [hrun] at h

theorem Ends.of_error
    {m : ExceptT ε (StateM σ) α} {e : ε} {s' : σ}
    (h : Ends m s Q E) (hrun : m.run.run s = (.error e, s')) :
    E e s' := by
  unfold Ends at h
  rwa [hrun] at h

theorem Ends.mono
    {m : ExceptT ε (StateM σ) α} {Q' : α → σ → Prop} {E' : ε → σ → Prop}
    (h : Ends m s Q E) (hQ : ∀ a s', Q a s' → Q' a s') (hE : ∀ e s', E e s' → E' e s') :
    Ends m s Q' E' := by
  unfold Ends at h ⊢
  split at h
  · exact hQ _ _ h
  · exact hE _ _ h

theorem Ends.bind
    {m : ExceptT ε (StateM σ) α} {f : α → ExceptT ε (StateM σ) β} {R : β → σ → Prop}
    (h : Ends m s (fun a s' => Ends (f a) s' R E) E) :
    Ends (m >>= f) s R E := by
  unfold Ends at h ⊢
  rw [run_bind]
  cases hrun : m.run.run s with
  | mk result s' =>
      rw [hrun] at h
      cases result with
      | ok a => exact h
      | error e => exact h

theorem Ends.get_bind
    {f : σ → ExceptT ε (StateM σ) α}
    (h : Ends (f s) s Q E) :
    Ends (get >>= f) s Q E := h

/-- A computation that does not look at the state returns, or raises in this state. -/
theorem Ends.raises
    {x : Except ε α}
    (hok : ∀ a, x = .ok a → Q a s) (herror : ∀ e, x = .error e → E e s) :
    Ends (raises x) s Q E := by
  cases x with
  | ok a => exact hok a rfl
  | error e => exact herror e rfl

/-- What every turn of a loop keeps is true at its end. -/
theorem Ends.forM
    {I : σ → Prop} {l : List α} {f : α → ExceptT ε (StateM σ) PUnit}
    (hstep : ∀ a ∈ l, ∀ s, I s → Ends (f a) s (fun _ s' => I s') E) (h : I s) :
    Ends (l.forM f) s (fun _ s' => I s') E := by
  induction l generalizing s with
  | nil => exact h
  | cons a rest ih =>
      refine Ends.bind ((hstep a (List.mem_cons_self ..) s h).mono ?_ fun _ _ he => he)
      intro _ s' hs'
      exact ih (fun b hb => hstep b (List.mem_cons_of_mem _ hb)) hs'

/-- A loop over the elements that `g` keeps and changes ends as the loop over all of them. -/
theorem run_forM_filterMap
    {I : σ → Prop} {l : List α} {g : α → Option β}
    {f : α → ExceptT ε (StateM σ) PUnit} {f' : β → ExceptT ε (StateM σ) PUnit}
    (hinv : ∀ a ∈ l, ∀ s, I s → Ends (f a) s (fun _ s' => I s') fun _ _ => True)
    (hnone : ∀ a ∈ l, g a = none → ∀ s, I s → (f a).run.run s = (.ok ⟨⟩, s))
    (hsome : ∀ a ∈ l, ∀ b, g a = some b → ∀ s, I s → (f' b).run.run s = (f a).run.run s)
    (h : I s) :
    ((l.filterMap g).forM f').run.run s = (l.forM f).run.run s := by
  induction l generalizing s with
  | nil => rfl
  | cons a rest ih =>
      have hrest := fun {s' : σ} (hs' : I s') =>
        ih (fun b hb => hinv b (List.mem_cons_of_mem _ hb))
          (fun b hb => hnone b (List.mem_cons_of_mem _ hb))
          (fun b hb => hsome b (List.mem_cons_of_mem _ hb)) (s := s') hs'
      have ha := List.mem_cons_self (a := a) (l := rest)
      change _ = (f a >>= fun _ => rest.forM f).run.run s
      cases hg : g a with
      | none =>
          rw [List.filterMap_cons_none hg, run_bind_ok (hnone a ha hg s h)]
          exact hrest h
      | some b =>
          rw [List.filterMap_cons_some hg]
          change (f' b >>= fun _ => (rest.filterMap g).forM f').run.run s = _
          rw [run_bind, run_bind, hsome a ha b hg s h]
          cases hrun : (f a).run.run s with
          | mk result s' =>
              cases result with
              | ok u => exact hrest ((hinv a ha s h).of_ok hrun)
              | error e => rfl

/-- Two loops end in the same way if each of their turns does. -/
theorem run_forM_congr
    {I : σ → Prop} {l : List α} {f f' : α → ExceptT ε (StateM σ) PUnit}
    (hinv : ∀ a ∈ l, ∀ s, I s → Ends (f a) s (fun _ s' => I s') fun _ _ => True)
    (hsame : ∀ a ∈ l, ∀ s, I s → (f' a).run.run s = (f a).run.run s)
    (h : I s) :
    (l.forM f').run.run s = (l.forM f).run.run s := by
  have hloop := run_forM_filterMap (g := some) hinv (fun a _ hnone => by cases hnone)
    (fun a ha b hb => by cases hb; exact hsame a ha) h
  rwa [List.filterMap_some] at hloop

end Transactions
end P4Net
