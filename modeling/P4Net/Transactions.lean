import Mathlib.Tactic.Cases

/-!
# Methods that raise before they write

A method of an object runs in a state monad with exceptions, which keeps the state that it
has reached when it raises.  `Atomic m s P` says that `m`, started in `s`, either raises
and leaves `s`, or returns a value and a state that satisfy `P`.  The rules follow the
method's statements: a computation that may raise, a look at the state, and a write with
which the method ends.
-/

namespace P4Net
namespace Transactions

variable {ε σ α β : Type}

/-- A computation that does not look at the state. -/
def raises (x : Except ε α) : ExceptT ε (StateM σ) α := ExceptT.mk (pure x)

/-- The method raises and leaves the state, or returns as `P` says. -/
def Atomic (m : ExceptT ε (StateM σ) α) (s : σ) (P : α → σ → Prop) : Prop :=
  match m.run.run s with
  | (.ok a, s') => P a s'
  | (.error _, s') => s' = s

theorem Atomic.raises_bind
    {x : Except ε α} {f : α → ExceptT ε (StateM σ) β} {s : σ} {P : β → σ → Prop}
    (h : ∀ a, x = .ok a → Atomic (f a) s P) :
    Atomic (raises x >>= f) s P := by
  cases x with
  | error e => rfl
  | ok a => exact h a rfl

theorem Atomic.get_bind
    {f : σ → ExceptT ε (StateM σ) β} {s : σ} {P : β → σ → Prop}
    (h : Atomic (f s) s P) :
    Atomic (get >>= f) s P := h

/-- The method ends with a write. -/
theorem Atomic.commit
    {g : σ → σ} {a : α} {s : σ} {P : α → σ → Prop}
    (h : P a (g s)) :
    Atomic (modify g >>= fun _ => (pure a : ExceptT ε (StateM σ) α)) s P := h

end Transactions
end P4Net
