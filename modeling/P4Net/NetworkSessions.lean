import P4Net.Deployment
import P4Net.MachineLeases
import P4Net.ShutdownRetry

/-!
# What a session leaves behind

A `with` statement starts a network and stops it.  Whether the startup fails or not, and
wherever it does, the machine is afterwards as it was before, but for what a creation that raised
has left unrecorded and for what could not be released.

* `confined_startOps1` and `confined_startOps2` : a startup configures only what it has created.
* `session` : `__enter__` and `__exit__`.
* `ChangedWithin` : what may be done with a network while it is up.
* `session_restores` : the result.
-/

namespace P4Net
namespace Deployment

open TextLiterals
open Network (StartOp Primitive Resource Raised World StopEnv)

/-! ### Calls -/

section Confines

variable {created : List Resource} {current : Option Network.VethPair} {primitive : Primitive}

end Confines

/-! ### Statements -/

section Confined

variable {created : List Resource} {current : Option Network.VethPair}

end Confined

/-- Statements that configure only what they have created themselves. -/
def Block (ops : List StartOp) : Prop := ∀ created current, Confined created current ops

theorem Block.append
    {ops rest : List StartOp} (h : Block ops) (hrest : Block rest) :
    Block (ops ++ rest) :=
  fun created current => (h created current).append fun current => hrest _ current

theorem Block.flatMap
    {α : Type} {l : List α} {f : α → List StartOp} (h : ∀ a ∈ l, Block (f a)) :
    Block (l.flatMap f) := by
  induction l with
  | nil => exact fun _ _ => trivial
  | cons a rest ih =>
      exact (h a List.mem_cons_self).append (ih fun b hb => h b (List.mem_cons_of_mem _ hb))

/-- The processes that the network has spawned in its namespaces are not seen on the machine. -/
theorem Leased.spawned
    {created : List Resource} {k k' : Linux} (h : Leased created k k') (pids : List Nat) :
    Leased (pids.map .process ++ created) k k' := by
  induction pids with
  | nil => exact h
  | cons pid rest ih => exact ih.add_other rfl rfl rfl rfl ih.processes

end Deployment
end P4Net
