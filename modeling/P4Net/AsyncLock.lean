import Mathlib.Logic.Function.Basic
import Mathlib.Data.List.Nodup
import Mathlib.Tactic.Cases

/-!
# A lock with a queue of waiting tasks

The bookkeeping of a lock that is handed to waiting tasks in the order of arrival.
`LockOk stage holder waiters` says that the holder and the queue are exactly the tasks
that stand at the corresponding stage.  The lemmas say what each operation on the lock
does to that correspondence.
-/

namespace P4Net

universe u

/-- Where a task stands that uses the lock. -/
inductive LockStage where
  | waiting
  | holding
deriving DecidableEq, Repr

/-- The holder and the queue of a lock are the tasks at the corresponding stages. -/
structure LockOk {α : Type u} (stage : α → Option LockStage) (holder : Option α)
    (waiters : List α) : Prop where
  held : ∀ a, stage a = some .holding ↔ holder = some a
  queued : ∀ a, stage a = some .waiting ↔ a ∈ waiters
  nodup : waiters.Nodup

namespace LockOk

variable {α : Type u} [DecidableEq α]
variable {stage : α → Option LockStage} {holder : Option α} {waiters : List α} {a : α}

/-- A task that does not wait takes a free lock. -/
theorem take
    (h : LockOk stage none waiters) (ha : stage a = none) :
    LockOk (Function.update stage a (some .holding)) (some a) waiters := by
  have hnot : a ∉ waiters := by
    rw [← h.queued, ha]
    simp
  constructor
  case held =>
    intro b
    by_cases hb : b = a
    · simp [hb]
    · simp [hb, h.held, Ne.symm hb]
  case queued =>
    intro b
    by_cases hb : b = a
    · subst hb
      simp [hnot]
    · simp [hb, h.queued]
  case nodup => exact h.nodup

/-- The holder releases the lock. -/
theorem release
    (h : LockOk stage (some a) waiters) :
    LockOk (Function.update stage a none) none waiters := by
  have hnot : a ∉ waiters := by
    rw [← h.queued, (h.held a).mpr rfl]
    simp
  constructor
  case held =>
    intro b
    by_cases hb : b = a
    · simp [hb]
    · simp [hb, h.held, Ne.symm hb]
  case queued =>
    intro b
    by_cases hb : b = a
    · subst hb
      simp [hnot]
    · simp [hb, h.queued]
  case nodup => exact h.nodup

/-- A waiting task gives up. -/
theorem leave
    (h : LockOk stage holder waiters) (ha : stage a = some .waiting) :
    LockOk (Function.update stage a none) holder (waiters.erase a) := by
  constructor
  case held =>
    intro b
    by_cases hb : b = a
    · subst hb
      simp [← h.held, ha]
    · simp [hb, h.held]
  case queued =>
    intro b
    rw [h.nodup.mem_erase_iff]
    by_cases hb : b = a
    · simp [hb]
    · simp [hb, h.queued]
  case nodup => exact h.nodup.erase a

end LockOk
end P4Net
