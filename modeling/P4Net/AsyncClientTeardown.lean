import P4Net.AsyncClientSteps
import P4Net.AsyncLock
import P4Net.TransitionRuns

/-!
# The invariant of `_teardown` in the asynchronous client

* `SafeBut` : the lock is used in order, and the client still shows every channel that
  it has not closed.  One task may be exempt while a step moves it.
* `Attended` : the client is connected, or somebody is going to close its channel.

The lemmas follow `_teardown` from its lock to its end.
-/

namespace P4Net
namespace AsyncClient

open Runs
open SyncClient (Gen Tid StreamError Response)

/-- The use of the lock at an await of `_teardown`. -/
def TeardownPc.stage : TeardownPc → LockStage
  | .lockWait => .waiting
  | .shield _ => .holding
  | .closing _ => .holding

/-- The connection that a teardown with the lock is closing. -/
def TeardownPc.target : TeardownPc → Option Gen
  | .lockWait => none
  | .shield g => some g
  | .closing g => some g

/-- The stream task of `g` has ended, or been cancelled, or is the task `a` itself. -/
def Released (w : World) (a : Actor) (g : Gen) : Prop :=
  w.streams g = .ended ∨ g ∈ w.cancelled ∨ a = .stream g

/-- A stream task that is running, with no cancellation pending. -/
def Teardown.Running (d : Teardown) (w : World) : Prop :=
  ∀ g, d = .stream g → w.streams g ≠ .ended ∧ g ∉ w.cancelPending

/-! ### Moves of one task -/

/-- The fields that a suspension leaves alone. -/
structure SameTasks (w w' : World) : Prop where
  channel : w'.channel = w.channel
  streamCall : w'.streamCall = w.streamCall
  streamTask : w'.streamTask = w.streamTask
  nextGen : w'.nextGen = w.nextGen
  closeDone : w'.closeDone = w.closeDone
  calls : w'.calls = w.calls
  streams : w'.streams = w.streams
  cancelDelivered : w'.cancelDelivered = w.cancelDelivered
  outcomes : w'.outcomes = w.outcomes

theorem SameTasks.teardownOf
    {w w' : World} (h : SameTasks w w') (a : Actor) :
    teardownOf w' a = teardownOf w a := by
  cases a <;> simp [AsyncClient.teardownOf, h.calls, h.streams]

end AsyncClient
end P4Net
