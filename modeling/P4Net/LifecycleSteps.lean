import P4Net.NetworkTeardown

/-!
# Startups and shutdowns on many threads

Any number of threads call `start`, `astart`, `stop` and `astop` of one network.  A step
is a section of `_stop_lock`, a statement of `_do_start`, or a phase of `_do_stop`; the
release of a resource may raise an `Exception`, which its phase swallows.

A thread has a stack of frames, of which the top one runs.  A signal handler or a callback
may call into the network on any thread, so that a new call is pushed on any stack.

* `StartPc` and `FinishPc` : where a startup and a shutdown have got to.
* `advanceStart` and `advanceFinish` : their steps on the fields of the network.
* `step` : a step of one thread.

`outcome`, `requested`, `committed` and `rolledBack` record what has happened; only a
suspended `astart` reads the outcome of its worker.
-/

namespace P4Net
namespace Network

/-! ### Calls -/

/-- Where `_run_start`, or `astart` before it, has got to. -/
inductive StartPc where
  | register
  | submit
  | enter
  | check
  /-- `_do_start`, before or after the statement that reads `_bmv2_switches`. -/
  | running (second : Bool) (todo : List StartOp)
  | commit
  | rollback (exc : Raised) (todo : List StopPhase)
  | ending (result : Option Raised)
deriving DecidableEq, Repr

/-- Where `_finish_stop` has got to. -/
inductive FinishPc where
  | enter
  | read
  | await (startup : Fut)
  | running (todo : List StopPhase)
  | setResult
deriving DecidableEq, Repr

/-- A call on the stack of a thread. -/
inductive Frame where
  | start (f : Fut) (pc : StartPc)
  | finish (f : Fut) (pc : FinishPc)
  /-- The `finally` clause of `_finish_stop`. -/
  | clearThread
  /-- `stop`, before it reads the thread ids. -/
  | checkWait (f : Fut)
  | awaitStop (f : Fut)
deriving DecidableEq, Repr

/-- A suspended `astart`, by the future of its startup. -/
inductive AstartPc where
  | idle
  | waiting (cancelled : Bool)
  | stopping (f : Fut)
  | ended (result : Option Raised)
deriving DecidableEq, Repr

/-- A network and the threads around it. -/
structure System where
  net : Net := {}
  frames : ThreadId → List Frame := fun _ => []
  astarts : Fut → AstartPc := fun _ => .idle
  outcome : Fut → Option (Option Raised) := fun _ => none
  -- ghost
  requested : List Fut := []
  committed : List Fut := []
  rolledBack : List Fut := []

/-- Change the fields of the network. -/
def System.setNet (net : Net) (w : System) : System := { w with net := net }

/-- Replace the stack of a thread. -/
def System.setStack (t : ThreadId) (frames : List Frame) (w : System) : System :=
  { w with frames := Function.update w.frames t frames }

/-- Move a suspended `astart`. -/
def System.setAstart (f : Fut) (pc : AstartPc) (w : System) : System :=
  { w with astarts := Function.update w.astarts f pc }

/-! ### Startup -/

/--
One step of a startup, until it ends: `raised` is the exception of a statement, and `left`
are the disconnects that a phase of the rollback leaves.
-/
def advanceStart (topology : Topology) (options : Options) (t : ThreadId)
    (raised : Option Raised) (left : List Disconnect) (net : Net) :
    StartPc → Option (Net × StartPc)
  | .register =>
      match StartOp.registerCleanup.run raised net.res with
      | .error exc => some (net, .rollback exc stopPhases)
      | .ok res => some ({ net with res := res }, .submit)
  -- `run_in_executor` raises.
  | .submit => raised.map fun exc => (net, .rollback exc stopPhases)
  | .enter => some ({ net with life := enterStart t net.life }, .check)
  | .check =>
      match checkStart net.life with
      | .error exc => some (net, .rollback exc stopPhases)
      | .ok () => some (net, .running false (startOps1 topology options))
  | .running second (op :: rest) =>
      match raised with
      | some exc => some (net, .rollback exc stopPhases)
      | none =>
          match op.exec net.res with
          | .error exc => some (net, .rollback exc stopPhases)
          | .ok res => some ({ net with res := res }, .running second rest)
  | .running false [] =>
      some (net, .running true (startOps2 topology net.res.bmv2Switches.entries))
  | .running true [] => some (net, .commit)
  | .commit =>
      match commitStart net.life with
      | .error exc => some (net, .rollback exc stopPhases)
      | .ok life => some ({ net with life := life }, .ending none)
  | .rollback exc (phase :: rest) => some (phase.finish left net, .rollback exc rest)
  | .rollback exc [] => some (net, .ending (some exc))
  | .ending _ => none

/-- Record that a startup has passed its final check, or has been rolled back. -/
def System.noteStart (f : Fut) (pc : StartPc) (w : System) : System :=
  match pc with
  | .ending none => { w with committed := f :: w.committed }
  | .ending (some _) => { w with rolledBack := f :: w.rolledBack }
  | _ => w

/-- `start` up to `_run_start`; a call that is refused changes nothing. -/
def callStart (t : ThreadId) (w : System) : System :=
  match prepareStart t false w.net.life with
  | .error _ => w
  | .ok (f, life) =>
      (w.setNet { w.net with life := life }).setStack t (.start f .enter :: w.frames t)

/-- `astart` up to `_register_cleanup`. -/
def callAstart (t : ThreadId) (w : System) : System :=
  match prepareStart t true w.net.life with
  | .error _ => w
  | .ok (f, life) =>
      (w.setNet { w.net with life := life }).setStack t (.start f .register :: w.frames t)

/-- A worker takes over the startup of an `astart`, which awaits it. -/
def submitStart (t worker : ThreadId) (f : Fut) (below : List Frame) (w : System) : System :=
  ((w.setStack t below).setStack worker [.start f .enter]).setAstart f (.waiting false)

/-- `_end_start`. -/
def finishStart (t : ThreadId) (f : Fut) (result : Option Raised) (below : List Frame)
    (w : System) : System :=
  let w' := (w.setNet { w.net with life := endStart f w.net.life }).setStack t below
  { w' with outcome := Function.update w.outcome f (some result) }

/-! ### Shutdown -/

/-- One step of `_finish_stop`, until it sets the result of its future. -/
def advanceFinish (t : ThreadId) (left : List Disconnect) (net : Net) :
    FinishPc → Option (Net × FinishPc)
  | .enter => some ({ net with life := { net.life with stopThread := some t } }, .read)
  | .read =>
      match net.life.startFuture with
      | some f =>
          if net.life.startThread = some t then some (net, .running stopPhases)
          else some (net, .await f)
      | none => some (net, .running stopPhases)
  | .await f => if net.life.isDone f then some (net, .running stopPhases) else none
  | .running (phase :: rest) => some (phase.finish left net, .running rest)
  | .running [] => some (net, .setResult)
  | .setResult => none

/-- Record a request that comes before the final check of the pending startup. -/
def System.noteRequest (w : System) : System :=
  { w with
    requested :=
      (w.net.life.startFuture.toList.filter fun f => f ∉ w.committed) ++ w.requested }

/--
The section of `stop` and what it starts: inside an event loop, the helper thread runs
`_finish_stop`; otherwise the thread itself does and then waits.
-/
def callStop (t helper : ThreadId) (inLoop : Bool) (w : System) : Option (Fut × System) :=
  let (initiate, f, life) := stopSection (!w.net.res.asyncDisconnects.isEmpty) w.net.life
  let w' := w.noteRequest.setNet { w.net with life := life }
  match initiate, inLoop with
  | true, true =>
      if w.frames helper = [] ∧ helper ≠ t then
        some (f, w'.setStack helper [.finish f .enter])
      else none
  | true, false => some (f, w'.setStack t (.finish f .enter :: .checkWait f :: w.frames t))
  | false, true => some (f, w')
  | false, false => some (f, w'.setStack t (.checkWait f :: w.frames t))

/-- The future of `_finish_stop` is done. -/
def completeStop (t : ThreadId) (f : Fut) (below : List Frame) (w : System) : System :=
  (w.setNet { w.net with life := w.net.life.complete f none }).setStack t (.clearThread :: below)

/-! ### Suspended coroutines -/

/-- `astart` after its worker has ended, and after the `astop` that it may call. -/
def resumeAstart (t helper : ThreadId) (f : Fut) (w : System) : Option System :=
  match w.astarts f with
  | .waiting cancelled =>
      match w.outcome f with
      | none => none
      | some result =>
          if cancelled && (result.isNone || w.net.life.stopFuture.isSome) then
            (callStop t helper true w).map fun (stop, w') => w'.setAstart f (.stopping stop)
          else some (w.setAstart f (.ended result))
  | .stopping stop =>
      if w.net.life.isDone stop then
        let exc :=
          if w.net.res.asyncDisconnects.isEmpty then Raised.cancelled
          else .disconnectsPending
        some (w.setAstart f (.ended (some exc)))
      else none
  | _ => none

/-! ### Steps -/

/-- What the scheduler and the environment choose. -/
inductive Label where
  | callStart (t : ThreadId)
  | callAstart (t : ThreadId)
  | callStop (t helper : ThreadId) (inLoop : Bool)
  | startAdvances (t : ThreadId) (raised : Option Raised) (left : List Disconnect)
  | startSubmitted (t worker : ThreadId)
  | startEnds (t : ThreadId)
  | finishAdvances (t : ThreadId) (left : List Disconnect)
  | finishEnds (t : ThreadId)
  | threadCleared (t : ThreadId)
  | waitChecked (t : ThreadId)
  | stopReturns (t : ThreadId)
  | astartCancelled (f : Fut)
  | astartResumes (t helper : ThreadId) (f : Fut)
deriving DecidableEq, Repr

/-- One step of the threads. -/
def step (topology : Topology) (options : Options) (w : System) : Label → Option System
  | .callStart t => some (callStart t w)
  | .callAstart t => some (callAstart t w)
  | .callStop t helper inLoop => (callStop t helper inLoop w).map Prod.snd
  | .startAdvances t raised left =>
      match w.frames t with
      | .start f pc :: below =>
          (advanceStart topology options t raised left w.net pc).map fun (net, pc') =>
            ((w.setNet net).setStack t (.start f pc' :: below)).noteStart f pc'
      | _ => none
  | .startSubmitted t worker =>
      match w.frames t with
      | .start f .submit :: below =>
          if w.frames worker = [] then some (submitStart t worker f below w) else none
      | _ => none
  | .startEnds t =>
      match w.frames t with
      | .start f (.ending result) :: below => some (finishStart t f result below w)
      | _ => none
  | .finishAdvances t left =>
      match w.frames t with
      | .finish f pc :: below =>
          (advanceFinish t left w.net pc).map fun (net, pc') =>
            (w.setNet net).setStack t (.finish f pc' :: below)
      | _ => none
  | .finishEnds t =>
      match w.frames t with
      | .finish f .setResult :: below => some (completeStop t f below w)
      | _ => none
  | .threadCleared t =>
      match w.frames t with
      | .clearThread :: below =>
          some ((w.setNet { w.net with life := { w.net.life with stopThread := none } }).setStack
            t below)
      | _ => none
  | .waitChecked t =>
      match w.frames t with
      | .checkWait f :: below =>
          if w.net.life.stopThread = some t ∨ w.net.life.startThread = some t then
            some (w.setStack t below)
          else some (w.setStack t (.awaitStop f :: below))
      | _ => none
  | .stopReturns t =>
      match w.frames t with
      | .awaitStop f :: below =>
          if w.net.life.isDone f then some (w.setStack t below) else none
      | _ => none
  | .astartCancelled f =>
      match w.astarts f with
      | .waiting _ => some (w.setAstart f (.waiting true))
      | _ => none
  | .astartResumes t helper f => resumeAstart t helper f w

end Network
end P4Net
