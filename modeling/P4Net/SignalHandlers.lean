import P4Net.TransitionRuns

/-!
# Signal handlers of the cleanup registry

`network/_cleanup.py` puts its own SIGINT and SIGTERM handlers before those of the
application.  A signal then stops the registered networks, and is delivered again with the
handler restored that was in force before.

* `installTurn` is the body of the loop of `install_handlers`, with all of its failures.
* `redeliver`, `handle` and `resetAfterFork` are `_redeliver`, the handler of `_make_handler`
  and `_reset_after_fork`.
* Event loops follow asyncio: `add_signal_handler` replaces the process handler, and
  `remove_signal_handler` and `close` reset it to the default.
* A handler that runs outside an event loop can be interrupted by further signals while it
  stops networks, so its activations form a stack of `Frame`s.  Inside an event loop the
  cleanup is a task.
* `_LOCK` is not reentrant.  An activation that interrupts a `with _LOCK` block of its own
  thread waits for the lock for ever, so the block is entered and left by steps of its own.
* `step` is one event of the process: a call, a failure, a fork, a signal, an exception of a
  handler of the application, or a step of a cleanup.

Signals arrive between the steps; apart from the `with _LOCK` blocks, a turn of
`install_handlers`, a call of `_redeliver` and the bookkeeping of the handler are one step each.
-/

namespace P4Net
namespace Signals

/-- The two signals. -/
inductive Signal where
  | sigint
  | sigterm
deriving DecidableEq, Repr

/-- The handlers an application may install; `SIG_IGN` is one of the custom ones. -/
inductive AppHandler where
  | sigDfl
  | defaultInt
  | custom (id : Nat)
deriving DecidableEq, Repr

/-- What `signal.getsignal` returns: `own` is from `_make_handler`, `noop` from asyncio. -/
inductive Handler where
  | app (handler : AppHandler)
  | own
  | noop (loop : Nat)
deriving DecidableEq, Repr

/-- The handler that asyncio leaves when it removes its own. -/
def asyncioDefault : Signal → AppHandler
  | .sigint => .defaultInt
  | .sigterm => .sigDfl

/-- A cleanup over a snapshot of the registry. -/
structure Progress where
  registered : List Nat
  stopped : List Nat
  remaining : List Nat
  /-- Every network of the snapshot is still to be stopped or has been. -/
  split : stopped ++ remaining = registered

/-- `snapshot = list(_ACTIVE)`. -/
def Progress.start (active : List Nat) : Progress := ⟨active, [], active, rfl⟩

/-- The next network is stopped; an exception of its `stop` is only logged. -/
def Progress.next (p : Progress) : Option Progress :=
  match hrem : p.remaining with
  | [] => none
  | net :: rest => some ⟨p.registered, p.stopped ++ [net], rest, by
      rw [List.append_assoc, List.singleton_append, ← hrem]
      exact p.split⟩

/-- An activation of the handler outside an event loop. -/
structure Frame where
  sig : Signal
  /-- `none` while `_run_cleanup` waits for `_LOCK`, which the interrupted code holds. -/
  progress : Option Progress

/-- How far `_cleanup_before_signal` is. -/
inductive TaskPhase where
  /-- `_start_signal_cleanup` waits in the queue of the loop. -/
  | queued
  /-- The task exists but has not run yet. -/
  | created
  | stopping (progress : Progress)
  /-- The task was cancelled before its first step, so its body never runs. -/
  | cancelled

/-- An entry of `_SIGNAL_TASKS`. -/
structure SignalTask where
  loop : Nat
  phase : TaskPhase

/-- A signal that was sent again, the handler in force, and the cleanup before it. -/
structure Redelivery where
  sig : Signal
  handler : Handler
  registered : List Nat
  stopped : List Nat
deriving DecidableEq, Repr

/-- What the model knows of an event loop. -/
structure LoopState where
  closed : Bool := false
  /-- The signals in `_signal_handlers`. -/
  callbacks : Signal → Bool := fun _ => false
  /-- Signal numbers in the wakeup pipe, oldest first. -/
  pipe : List Signal := []
  /-- Scheduled calls of the handler, oldest first. -/
  ready : List Signal := []

/-- The process: its signal handlers, the tables of `_cleanup`, and its event loops. -/
structure State where
  handler : Signal → Handler
  /-- `_PREV_HANDLERS`. -/
  prevHandlers : Signal → Option Handler := fun _ => none
  /-- `_SIGNAL_LOOPS`. -/
  signalLoops : Signal → Option Nat := fun _ => none
  /-- `_SIGNAL_TASKS`. -/
  signalTasks : Signal → Option SignalTask := fun _ => none
  /-- `_ACTIVE`. -/
  active : List Nat := []
  loops : Nat → LoopState := fun _ => {}
  running : Option Nat := none
  /-- The main thread is inside `with _LOCK`. -/
  locked : Bool := false
  /-- Activations in progress, innermost first. -/
  frames : List Frame := []
  /-- History: the signal reached the handler and was not redelivered since. -/
  owed : Signal → Bool := fun _ => false
  /-- History: the redeliveries, newest first. -/
  redeliveries : List Redelivery := []

/-- The process before the first `install_handlers`, with the handlers of the application. -/
def State.init (h : Signal → AppHandler) : State where
  handler := fun sig => .app (h sig)

/-! ### Event loops -/

/-- `signal.signal`. -/
def State.setHandler (s : State) (sig : Signal) (h : Handler) : State :=
  { s with handler := Function.update s.handler sig h }

/-- Write or delete the entry of `_PREV_HANDLERS`. -/
def State.setPrev (s : State) (sig : Signal) (h : Option Handler) : State :=
  { s with prevHandlers := Function.update s.prevHandlers sig h }

/-- Write or delete the entry of `_SIGNAL_LOOPS`. -/
def State.setOwner (s : State) (sig : Signal) (loop : Option Nat) : State :=
  { s with signalLoops := Function.update s.signalLoops sig loop }

/-- Change the record of a loop. -/
def State.updateLoop (s : State) (loop : Nat) (f : LoopState → LoopState) : State :=
  { s with loops := Function.update s.loops loop (f (s.loops loop)) }

/--
`loop.remove_signal_handler(sig)`: the callback goes first, then the process handler is reset.
The flag tells whether it raised.
-/
def removeSignalHandler (s : State) (loop : Nat) (sig : Signal) (fails : Bool) : State × Bool :=
  if (s.loops loop).callbacks sig then
    let s := s.updateLoop loop
      (fun l => { l with callbacks := Function.update l.callbacks sig false })
    if fails then (s, true) else (s.setHandler sig (.app (asyncioDefault sig)), false)
  else (s, false)

/-- `loop.add_signal_handler(sig, ...)`; `none` when it raises. -/
def addSignalHandler (s : State) (loop : Nat) (sig : Signal) (fails : Bool) : Option State :=
  if (s.loops loop).closed || fails then none
  else some ((s.updateLoop loop
    (fun l => { l with callbacks := Function.update l.callbacks sig true })).setHandler sig
      (.noop loop))

/-- `loop.close()`: its handlers are reset, and nothing it has queued will run. -/
def closeLoop (s : State) (loop : Nat) : State :=
  { s with
    handler := fun sig =>
      if (s.loops loop).callbacks sig then .app (asyncioDefault sig) else s.handler sig
    loops := Function.update s.loops loop { closed := true } }

/-! ### `install_handlers` -/

/-- Which calls of a turn of `install_handlers` fail. -/
structure InstallFails where
  /-- `owner.remove_signal_handler(sig)`. -/
  remove : Bool := false
  /-- `signal.signal(sig, previous)`. -/
  restore : Bool := false
  /-- `signal.signal` or `loop.add_signal_handler` with the handler of `_make_handler`. -/
  register : Bool := false
  /-- `signal.signal` after `loop.add_signal_handler` has failed. -/
  fallback : Bool := false
deriving DecidableEq, Repr

/-- Forget a loop that was closed, and what was recorded with it. -/
def dropClosedOwner (s : State) (sig : Signal) : State :=
  match s.signalLoops sig with
  | some owner =>
      if (s.loops owner).closed then (s.setOwner sig none).setPrev sig none else s
  | none => s

/-- Take the signal back from the loop that owns it; `error` is the state at an exception. -/
def releaseOwner (s : State) (sig : Signal) (previous : Handler) (fails : InstallFails) :
    Except State State :=
  match s.signalLoops sig with
  | none => .ok s
  | some owner =>
      let (s, raised) := removeSignalHandler s owner sig fails.remove
      if raised || fails.restore then .error s
      else .ok ((s.setHandler sig previous).setOwner sig none)

/-- Register the handler of `_make_handler`, with the running loop if there is one. -/
def registerOwn (s : State) (sig : Signal) (fails : InstallFails) : Except State State :=
  match s.running with
  | none => if fails.register then .error s else .ok (s.setHandler sig .own)
  | some loop =>
      match addSignalHandler s loop sig fails.register with
      | none => .error s
      | some s => .ok (s.setOwner sig (some loop))

/-- The `except` clause of a turn. -/
def recoverTurn (s : State) (sig : Signal) (fails : InstallFails) : State :=
  if (s.signalLoops sig).isNone then
    if s.running.isSome && !fails.fallback then s.setHandler sig .own
    else s.setPrev sig none
  else s

/-- One turn of the loop of `install_handlers`, on the main thread. -/
def installTurn (s : State) (sig : Signal) (fails : InstallFails) : State :=
  let s := dropClosedOwner s sig
  if (s.prevHandlers sig).isSome && s.signalLoops sig == s.running then s
  else
    let previous := (s.prevHandlers sig).getD (s.handler sig)
    let attempt := do
      let s ← releaseOwner s sig previous fails
      registerOwn (s.setPrev sig (some previous)) sig fails
    match attempt with
    | .ok s => s
    | .error s => recoverTurn s sig fails

/-! ### Signals -/

/-- Which calls of `_redeliver` or of `_reset_after_fork` fail. -/
structure ResetFails where
  /-- `loop.remove_signal_handler(sig)`. -/
  remove : Bool := false
  /-- `signal.signal(sig, ...)`. -/
  restore : Bool := false
deriving DecidableEq, Repr

/-- `_redeliver`, which sends the signal again after the cleanup `p`. -/
def redeliver (s : State) (sig : Signal) (p : Progress) (fails : ResetFails) : State :=
  let prev := s.prevHandlers sig
  let loop := s.signalLoops sig
  let s := (s.setPrev sig none).setOwner sig none
  let s :=
    match loop with
    | some loop => (removeSignalHandler s loop sig fails.remove).1
    | none => s
  let s := if fails.restore then s else s.setHandler sig (prev.getD (.app .sigDfl))
  { s with
    owed := Function.update s.owed sig false
    redeliveries := ⟨sig, s.handler sig, p.registered, p.stopped⟩ :: s.redeliveries }

/-- The handler of `_make_handler`, up to its cleanup. -/
def handle (s : State) (sig : Signal) : State :=
  let s := { s with owed := Function.update s.owed sig true }
  if (s.signalTasks sig).isSome then s
  else
    match s.running with
    | none =>
        let progress := if s.locked then none else some (.start s.active)
        { s with frames := ⟨sig, progress⟩ :: s.frames }
    | some loop =>
        { s with signalTasks := Function.update s.signalTasks sig (some ⟨loop, .queued⟩) }

/-- One turn of the loop of `_reset_after_fork`. -/
def resetSignal (fails : Signal → ResetFails) (s : State) (sig : Signal) : State :=
  match s.signalLoops sig with
  | none => s
  | some loop =>
      let s := (removeSignalHandler s loop sig (fails sig).remove).1
      if (fails sig).restore then s else s.setHandler sig .own

/-- The child after `fork`: `_reset_after_fork`, without activations or a running loop. -/
def resetAfterFork (s : State) (fails : Signal → ResetFails) : State :=
  let s := resetSignal fails (resetSignal fails s .sigint) .sigterm
  { s with
    active := []
    signalLoops := fun _ => none
    signalTasks := fun _ => none
    running := none
    locked := false
    frames := []
    owed := fun _ => false
    redeliveries := [] }

/-! ### Steps -/

/-- How far an exception of a handler of the application gets, which nobody contains. -/
inductive Unwind where
  /-- Out of the activations of p4net's handler, or out of the event loop. -/
  | all
  /-- Out of the cleanup task of a signal first, whose `finally` clause redelivers it at once. -/
  | cleanup (sig : Signal) (fails : ResetFails)
deriving DecidableEq, Repr

/-- What can happen next in the process. -/
inductive Event where
  | register (net : Nat)
  | unregister (net : Nat)
  /-- The main thread enters a `with _LOCK` block. -/
  | lock
  | unlock
  | install (sig : Signal) (fails : InstallFails)
  | startLoop (loop : Nat)
  | stopLoop
  | closeLoop (loop : Nat)
  | fork (fails : Signal → ResetFails)
  | deliver (sig : Signal)
  /-- A signal arrives, and the handler of the application raises. -/
  | deliverRaises (sig : Signal) (unwind : Unwind)
  | readWakeup
  | runCallback
  | stepFrame
  /-- The innermost activation redelivers its signal, to a handler that may raise. -/
  | finishFrame (fails : ResetFails) (raises : Bool)
  | startCleanup (sig : Signal)
  | stepCleanup (sig : Signal)
  | cancelCleanup (sig : Signal)
  /-- The task redelivers its signal, to a handler whose exception may end the event loop. -/
  | finishCleanup (sig : Signal) (fails : ResetFails) (raises : Bool)

/-- Set the phase of a task. -/
def setPhase (s : State) (sig : Signal) (loop : Nat) (phase : TaskPhase) : State :=
  { s with signalTasks := Function.update s.signalTasks sig (some ⟨loop, phase⟩) }

/-- A task that its running loop can work on. -/
def runningTask (s : State) (sig : Signal) : Option SignalTask :=
  (s.signalTasks sig).filter (fun task => s.running == some task.loop)

/-- The next step of the task of a signal: its snapshot, or the next network. -/
def stepTask (s : State) (sig : Signal) : Option State :=
  match runningTask s sig with
  | some ⟨loop, .created⟩ => some (setPhase s sig loop (.stopping (.start s.active)))
  | some ⟨loop, .stopping p⟩ => p.next.map (fun p => setPhase s sig loop (.stopping p))
  | _ => none

/-- The redelivery that ends the task of a signal. -/
def endCleanup (s : State) (sig : Signal) (p : Progress) (fails : ResetFails) : State :=
  { redeliver s sig p fails with
    signalTasks := Function.update (redeliver s sig p fails).signalTasks sig none }

/-- An exception ends what the main thread is doing, its event loop included. -/
def unwindAll (s : State) : State :=
  { s with frames := [], running := none, locked := false }

/-- No activation is in progress and `_LOCK` is not held: the main thread can go on. -/
def State.free (s : State) : Bool := s.frames.isEmpty && !s.locked

/-- One event; `none` when it cannot happen. -/
def step (s : State) : Event → Option State
  | .register net => some { s with active := if net ∈ s.active then s.active else net :: s.active }
  | .unregister net => some { s with active := s.active.erase net }
  | .lock =>
      -- Inside an event loop the handler does not take the lock.
      if s.running.isNone && !s.locked then some { s with locked := true } else none
  | .unlock =>
      if s.locked && s.frames.all (fun frame => frame.progress.isSome) then
        some { s with locked := false }
      else none
  | .install sig fails => if s.free then some (installTurn s sig fails) else none
  | .startLoop loop =>
      if s.free && s.running.isNone && !(s.loops loop).closed then
        some { s with running := some loop }
      else none
  | .stopLoop => if s.running.isSome then some { s with running := none } else none
  | .closeLoop loop =>
      if s.free && s.running != some loop && !(s.loops loop).closed then
        some (closeLoop s loop)
      else none
  | .fork fails => some (resetAfterFork s fails)
  | .deliver sig =>
      match s.handler sig with
      | .app _ => some s
      | .own => some (handle s sig)
      | .noop loop =>
          some (if (s.loops loop).closed then s
            else s.updateLoop loop (fun l => { l with pipe := l.pipe ++ [sig] }))
  | .deliverRaises sig unwind =>
      match s.handler sig, unwind with
      | .app _, .all => some (unwindAll s)
      | .app _, .cleanup other fails =>
          match runningTask s other with
          | some ⟨_, .stopping p⟩ => some (unwindAll (endCleanup s other p fails))
          | _ => none
      | _, _ => none
  | .readWakeup => do
      let loop ← s.running
      match (s.loops loop).pipe with
      | [] => none
      | sig :: rest =>
          some (s.updateLoop loop (fun l =>
            { l with pipe := rest, ready := if l.callbacks sig then l.ready ++ [sig] else l.ready }))
  | .runCallback => do
      let loop ← s.running
      match (s.loops loop).ready with
      | [] => none
      | sig :: rest => some (handle (s.updateLoop loop (fun l => { l with ready := rest })) sig)
  | .stepFrame =>
      match s.locked, s.frames with
      | false, ⟨sig, some p⟩ :: outer =>
          p.next.map (fun p => { s with frames := ⟨sig, some p⟩ :: outer })
      | _, _ => none
  | .finishFrame fails raises =>
      match s.locked, s.frames with
      | false, ⟨sig, some p⟩ :: outer =>
          if p.remaining.isEmpty then
            some { redeliver s sig p fails with frames := if raises then [] else outer }
          else none
      | _, _ => none
  | .startCleanup sig =>
      match runningTask s sig with
      | some ⟨loop, .queued⟩ => some (setPhase s sig loop .created)
      | _ => none
  | .stepCleanup sig => stepTask s sig
  | .cancelCleanup sig =>
      -- `astop` completes before it passes a cancellation on.
      match runningTask s sig with
      | some ⟨loop, .created⟩ => some (setPhase s sig loop .cancelled)
      | _ => stepTask s sig
  | .finishCleanup sig fails raises =>
      match runningTask s sig with
      | some ⟨_, .stopping p⟩ =>
          if p.remaining.isEmpty then
            some (if raises then unwindAll (endCleanup s sig p fails) else endCleanup s sig p fails)
          else none
      | _ => none

end Signals
end P4Net
