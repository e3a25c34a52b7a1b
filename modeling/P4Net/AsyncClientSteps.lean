import P4Net.SyncClientSteps

/-!
# Lifecycle of the asynchronous client

`AsyncP4RuntimeClient` of `control/async_client.py` on one event loop.  Tasks switch
only at awaits, so a step runs one task from an await to the next one.  Any number of
tasks call `connect` and `disconnect`; each opened connection has a stream task.

`_teardown_lock` is an `asyncio.Lock`: it is taken at once only when it is free and
nobody waits, and otherwise handed to the waiters in the order of their arrival.  A
cancelled wait raises `CancelledError` at its await; but `asyncio.wait_for` of Python 3.10
and 3.11 returns when it is cancelled and the wait that it guards is done
(`cancelSwallowed`).

A connection generation is the number of the `connect` that opened it.  The channel,
stream call, stream task and arbitration event that it creates carry its number.
A cancelled stream task runs next with the cancellation, unless one of its packet
handlers swallows it; the record of that is `cancelPending`.

`closeDone`, `cancelled`, `lastStatus` and `outcomes` record what has happened and are
never read.
-/

namespace P4Net
namespace AsyncClient

open SyncClient (Gen Tid StreamError Response)

/-- The exceptions that `connect` and `disconnect` raise. -/
inductive Exc where
  | cancelled
  | arbitrationTimedOut
  | stream (error : StreamError)
  | noArbitration
  | notPrimary
deriving DecidableEq, Repr

/-- How a call ends. -/
inductive Outcome where
  | returned
  | raised (exc : Exc)
deriving DecidableEq, Repr

/-- A task: a caller, or the stream task of a connection. -/
inductive Actor where
  | call (t : Tid)
  | stream (g : Gen)
deriving DecidableEq, Repr

/--
What a call does after its teardown: `connect` opens a connection after a stale one,
or raises after its own attempt has failed; `disconnect` returns.  `born` is the number
of connections that had been opened when the call began.
-/
inductive Cont where
  | reconnect (born : Gen)
  | raise (g : Gen) (exc : Exc)
  | finish
deriving DecidableEq, Repr

/-- The awaits of `_teardown`: the lock, the shielded stream task, the channel. -/
inductive TeardownPc where
  | lockWait
  | shield (g : Gen)
  | closing (g : Gen)
deriving DecidableEq, Repr

/-- The await at which a call is suspended. -/
inductive CallPc where
  | idle
  | waitEvent (g : Gen)
  | teardown (cont : Cont) (pc : TeardownPc)
deriving DecidableEq, Repr

/-- The state of a stream task; `reading s` iterates over stream call `s`. -/
inductive StreamPc where
  | created
  | reading (s : Gen)
  | teardown (pc : TeardownPc)
  | ended
deriving DecidableEq, Repr

/-- The client, its lock and the tasks around it. -/
structure World where
  channel : Option Gen := none
  streamCall : Option Gen := none
  streamTask : Option Gen := none
  arbitrationEvent : Option Gen := none
  arbitration : Option Int := none
  streamError : Option StreamError := none
  connected : Bool := false
  isPrimary : Bool := false
  closed : Bool := false
  /-- The caller chose the election id `(0, 0)`. -/
  explicitSecondary : Bool := false
  holder : Option Actor := none
  waiters : List Actor := []
  nextGen : Gen := 0
  eventSet : List Gen := []
  calls : Tid → CallPc := fun _ => .idle
  streams : Gen → StreamPc := fun _ => .created
  /-- Stream tasks whose cancellation has not reached them yet. -/
  cancelPending : List Gen := []
  /-- A call is cancelled at most once. -/
  cancelDelivered : Tid → Bool := fun _ => false
  -- ghost
  closeDone : List Gen := []
  cancelled : List Gen := []
  lastStatus : Gen → Option Int := fun _ => none
  outcomes : List (Tid × Bool × Outcome) := []

/-- `is_connected`. -/
def World.isConnected (w : World) : Bool := w.connected && !w.closed

/-- Move a call to another await. -/
def setCall (t : Tid) (pc : CallPc) (w : World) : World :=
  { w with calls := Function.update w.calls t pc }

/-- Move a stream task. -/
def setStream (g : Gen) (pc : StreamPc) (w : World) : World :=
  { w with streams := Function.update w.streams g pc }

/-- A call ends. -/
def endCall (t : Tid) (outcome : Outcome) (w : World) : World :=
  { setCall t .idle w with outcomes := (t, w.cancelDelivered t, outcome) :: w.outcomes }

/-- Set the event of the latest connection. -/
def setEvent (w : World) : World :=
  { w with eventSet := w.arbitrationEvent.toList ++ w.eventSet }

/-- `connect` from its check of the channel to the wait for arbitration. -/
def openConnection (t : Tid) (w : World) : World :=
  setCall t (.waitEvent w.nextGen)
    { w with
      closed := false
      channel := some w.nextGen
      streamCall := some w.nextGen
      streamTask := some w.nextGen
      arbitrationEvent := some w.nextGen
      arbitration := none
      streamError := none
      nextGen := w.nextGen + 1 }

/-- A task inside `_teardown`, with what follows. -/
inductive Teardown where
  | call (t : Tid) (cont : Cont)
  | stream (g : Gen)
deriving DecidableEq, Repr

/-- The task of a teardown. -/
def Teardown.actor : Teardown → Actor
  | .call t _ => .call t
  | .stream g => .stream g

/-- Suspend a teardown at one of its awaits. -/
def suspend (d : Teardown) (pc : TeardownPc) (w : World) : World :=
  { w with
    calls :=
      match d with
      | .call t cont => Function.update w.calls t (.teardown cont pc)
      | .stream _ => w.calls
    streams :=
      match d with
      | .call _ _ => w.streams
      | .stream g => Function.update w.streams g (.teardown pc) }

/-- What follows a teardown. -/
def continueAfter (d : Teardown) (w : World) : World :=
  match d with
  | .call t (.reconnect _) => openConnection t w
  | .call t (.raise _ exc) => endCall t (.raised exc) w
  | .call t .finish => endCall t .returned w
  | .stream g => setStream g .ended w

/-- The end of `_teardown`: clear the fields, release the lock, go on. -/
def finishTeardown (d : Teardown) (w : World) : World :=
  continueAfter d
    { w with channel := none, streamCall := none, streamTask := none, holder := none }

/-- `await self._channel.close()`, if there is a channel. -/
def closeStage (d : Teardown) (w : World) : World :=
  match w.channel with
  | some g => suspend d (.closing g) w
  | none => finishTeardown d w

/-- The channel was still waiting for its arbitration. -/
def World.isPending (w : World) : Bool := w.channel.isSome && !w.connected

/-- What `_teardown` sets as soon as it has the lock. -/
def markClosed (w : World) : World :=
  { w with
    closed := true
    connected := false
    isPrimary := false
    streamError :=
      if w.isPending && w.streamError.isNone then some .closedBeforeArbitration
      else w.streamError
    eventSet := if w.isPending then w.arbitrationEvent.toList ++ w.eventSet else w.eventSet }

/-- `_teardown` with the lock, up to its next await. -/
def beginTeardown (d : Teardown) (w : World) : World :=
  let w' := markClosed { w with holder := some d.actor }
  match w.streamTask with
  | some g =>
      -- Neither the current task nor a task that is done is awaited.
      if d.actor ≠ .stream g ∧ w.streams g ≠ .ended then
        suspend d (.shield g)
          { w' with
            cancelPending := g :: w'.cancelPending
            cancelled := g :: w'.cancelled }
      else closeStage d w'
  | none => closeStage d w'

/-- `async with self._teardown_lock`. -/
def startTeardown (d : Teardown) (w : World) : World :=
  if w.holder.isNone && w.waiters.isEmpty then beginTeardown d w
  else suspend d .lockWait { w with waiters := w.waiters ++ [d.actor] }

/-- `connect` up to its first await. -/
def callConnect (t : Tid) (w : World) : World :=
  if w.connected then endCall t .returned w
  else if w.channel.isSome then startTeardown (.call t (.reconnect w.nextGen)) w
  else openConnection t w

/-- `connect` after the arbitration event has been set. -/
def afterEvent (t : Tid) (g : Gen) (w : World) : World :=
  match w.streamError with
  | some error => startTeardown (.call t (.raise g (.stream error))) w
  | none =>
      match w.arbitration with
      | none => startTeardown (.call t (.raise g .noArbitration)) w
      | some status =>
          if status ≠ 0 ∧ w.explicitSecondary = false then
            startTeardown (.call t (.raise g .notPrimary)) w
          else endCall t .returned { w with connected := true }

/-- A stream task runs: a cancellation that was pending has reached it. -/
def streamRuns (g : Gen) (w : World) : World :=
  { w with cancelPending := w.cancelPending.filter (fun h => h ≠ g) }

/-- The `finally` clause of the stream task. -/
def streamFinally (g : Gen) (w : World) : World :=
  if w.closed then setStream g .ended w
  else
    startTeardown (.stream g)
      (setEvent { w with
        streamError := if w.streamError.isNone then some .streamEnded else w.streamError })

/-- An exception in the stream task, which its handlers record. -/
def streamFails (g : Gen) (w : World) : World :=
  streamFinally g
    (if w.closed then w else setEvent { w with streamError := some .raised })

/-- A response of stream call `s`. -/
def streamResponse (s : Gen) (response : Response) (w : World) : World :=
  match response with
  | .arbitration code =>
      setEvent { w with
        arbitration := some code
        isPrimary := code = 0
        lastStatus := Function.update w.lastStatus s (some code) }
  | .other => w

/-- The teardown in which a task is suspended, and where. -/
def teardownOf (w : World) : Actor → Option (Teardown × TeardownPc)
  | .call t =>
      match w.calls t with
      | .teardown cont pc => some (.call t cont, pc)
      | _ => none
  | .stream g =>
      match w.streams g with
      | .teardown pc => some (.stream g, pc)
      | _ => none

/-- A wait for the lock that is given up. -/
def leaveQueue (a : Actor) (w : World) : World :=
  { w with waiters := w.waiters.erase a }

/-- A cancellation is delivered to a call at its await. -/
def cancelCall (t : Tid) (w : World) : Option World :=
  if w.cancelDelivered t then none
  else
    let w' := { w with cancelDelivered := Function.update w.cancelDelivered t true }
    match w.calls t with
    | .idle => none
    | .waitEvent g => some (startTeardown (.call t (.raise g .cancelled)) w')
    | .teardown _ .lockWait => some (endCall t (.raised .cancelled) (leaveQueue (.call t) w'))
    -- `except (asyncio.CancelledError, asyncio.TimeoutError): pass`
    | .teardown cont (.shield _) => some (closeStage (.call t cont) w')
    | .teardown _ (.closing _) =>
        some (endCall t (.raised .cancelled) { w' with holder := none })

/-- A cancellation reaches `wait_for` after the arbitration event was set, and is lost there. -/
def swallowCancel (t : Tid) (w : World) : Option World :=
  if w.cancelDelivered t then none
  else
    match w.calls t with
    | .waitEvent g =>
        if g ∈ w.eventSet then
          some (afterEvent t g
            { w with cancelDelivered := Function.update w.cancelDelivered t true })
        else none
    | _ => none

/-- A cancellation is delivered to a stream task that a teardown has cancelled. -/
def cancelStream (g : Gen) (w : World) : Option World :=
  if g ∈ w.cancelPending then
    match w.streams g with
    -- A task that is cancelled before its first step never runs.
    | .created => some (setStream g .ended (streamRuns g w))
    | .reading _ => some (streamFinally g (streamRuns g w))
    | .teardown .lockWait =>
        some (setStream g .ended (leaveQueue (.stream g) (streamRuns g w)))
    | _ => none
  else none

/-- The steps of the event loop and of the environment. -/
inductive Label where
  | callConnect (t : Tid)
  | callDisconnect (t : Tid)
  | eventWakes (t : Tid)
  | waitTimeout (t : Tid)
  | cancelCall (t : Tid)
  | cancelSwallowed (t : Tid)
  | takeLock (a : Actor)
  | streamTaskDone (a : Actor)
  | shieldTimeout (a : Actor)
  | channelClosed (a : Actor)
  | streamStarts (g : Gen)
  | response (g : Gen) (response : Response)
  | streamRaises (g : Gen)
  | streamEnds (g : Gen)
  | cancelStream (g : Gen)
deriving DecidableEq, Repr

/-- A call begins on a task that is in no other call. -/
def beginCall (t : Tid) (w : World) : World :=
  { w with cancelDelivered := Function.update w.cancelDelivered t false }

/-- One step of the event loop. -/
def step (w : World) : Label → Option World
  | .callConnect t =>
      if w.calls t = .idle then some (callConnect t (beginCall t w)) else none
  | .callDisconnect t =>
      if w.calls t = .idle then some (startTeardown (.call t .finish) (beginCall t w)) else none
  | .eventWakes t =>
      match w.calls t with
      | .waitEvent g => if g ∈ w.eventSet then some (afterEvent t g w) else none
      | _ => none
  | .waitTimeout t =>
      match w.calls t with
      | .waitEvent g => some (startTeardown (.call t (.raise g .arbitrationTimedOut)) w)
      | _ => none
  | .cancelCall t => cancelCall t w
  | .cancelSwallowed t => swallowCancel t w
  | .takeLock a =>
      match teardownOf w a, w.waiters with
      | some (d, .lockWait), b :: rest =>
          if b = a ∧ w.holder = none ∧ ∀ g ∈ w.cancelPending, a ≠ .stream g then
            some (beginTeardown d { w with waiters := rest })
          else none
      | _, _ => none
  | .streamTaskDone a =>
      match teardownOf w a with
      | some (d, .shield g) => if w.streams g = .ended then some (closeStage d w) else none
      | _ => none
  | .shieldTimeout a =>
      match teardownOf w a with
      | some (d, .shield g) =>
          -- Only a handler can hold up a cancelled stream task, and it runs in the loop.
          match w.streams g with
          | .reading _ => some (closeStage d w)
          | _ => none
      | _ => none
  | .channelClosed a =>
      match teardownOf w a with
      | some (d, .closing g) =>
          some (finishTeardown d { w with closeDone := g :: w.closeDone })
      | _ => none
  | .streamStarts g =>
      if g < w.nextGen ∧ w.streams g = .created ∧ g ∉ w.cancelPending then
        match w.streamCall with
        | some s => some (setStream g (.reading s) w)
        | none => some (streamFails g w)
      else none
  | .response g response =>
      match w.streams g with
      | .reading s => some (streamResponse s response (streamRuns g w))
      | _ => none
  | .streamRaises g =>
      match w.streams g with
      | .reading _ => some (streamFails g (streamRuns g w))
      | _ => none
  | .streamEnds g =>
      match w.streams g with
      | .reading _ => some (streamFinally g (streamRuns g w))
      | _ => none
  | .cancelStream g => cancelStream g w

/-! ### What a step does -/

/-- The enabled steps; a label has one case for each await that it can find its task at. -/
inductive StepCase (w : World) : Label → World → Prop
  | callConnect (t : Tid) (hidle : w.calls t = .idle) :
      StepCase w (.callConnect t) (callConnect t (beginCall t w))
  | callDisconnect (t : Tid) (hidle : w.calls t = .idle) :
      StepCase w (.callDisconnect t) (startTeardown (.call t .finish) (beginCall t w))
  | eventWakes (t : Tid) (g : Gen) (hcall : w.calls t = .waitEvent g) (hset : g ∈ w.eventSet) :
      StepCase w (.eventWakes t) (afterEvent t g w)
  | waitTimeout (t : Tid) (g : Gen) (hcall : w.calls t = .waitEvent g) :
      StepCase w (.waitTimeout t) (startTeardown (.call t (.raise g .arbitrationTimedOut)) w)
  | cancelCall (t : Tid) (w' : World) (hcancel : cancelCall t w = some w') :
      StepCase w (.cancelCall t) w'
  | cancelSwallowed (t : Tid) (g : Gen) (hcall : w.calls t = .waitEvent g) (hset : g ∈ w.eventSet) :
      StepCase w (.cancelSwallowed t)
        (afterEvent t g { w with cancelDelivered := Function.update w.cancelDelivered t true })
  | takeLock (a : Actor) (d : Teardown) (rest : List Actor)
      (htd : teardownOf w a = some (d, .lockWait)) (hqueue : w.waiters = a :: rest)
      (hfree : w.holder = none) (hpending : ∀ g ∈ w.cancelPending, a ≠ .stream g) :
      StepCase w (.takeLock a) (beginTeardown d { w with waiters := rest })
  | streamTaskDone (a : Actor) (d : Teardown) (g : Gen)
      (htd : teardownOf w a = some (d, .shield g)) (hended : w.streams g = .ended) :
      StepCase w (.streamTaskDone a) (closeStage d w)
  | shieldTimeout (a : Actor) (d : Teardown) (g s : Gen)
      (htd : teardownOf w a = some (d, .shield g)) (hreading : w.streams g = .reading s) :
      StepCase w (.shieldTimeout a) (closeStage d w)
  | channelClosed (a : Actor) (d : Teardown) (g : Gen)
      (htd : teardownOf w a = some (d, .closing g)) :
      StepCase w (.channelClosed a) (finishTeardown d { w with closeDone := g :: w.closeDone })
  | streamReads (g s : Gen) (hlt : g < w.nextGen) (hcreated : w.streams g = .created)
      (hpending : g ∉ w.cancelPending) (hstream : w.streamCall = some s) :
      StepCase w (.streamStarts g) (setStream g (.reading s) w)
  | streamLost (g : Gen) (hlt : g < w.nextGen) (hcreated : w.streams g = .created)
      (hpending : g ∉ w.cancelPending) (hstream : w.streamCall = none) :
      StepCase w (.streamStarts g) (streamFails g w)
  | response (g s : Gen) (r : Response) (hreading : w.streams g = .reading s) :
      StepCase w (.response g r) (streamResponse s r (streamRuns g w))
  | streamRaises (g s : Gen) (hreading : w.streams g = .reading s) :
      StepCase w (.streamRaises g) (streamFails g (streamRuns g w))
  | streamEnds (g s : Gen) (hreading : w.streams g = .reading s) :
      StepCase w (.streamEnds g) (streamFinally g (streamRuns g w))
  | cancelCreated (g : Gen) (hpending : g ∈ w.cancelPending) (hcreated : w.streams g = .created) :
      StepCase w (.cancelStream g) (setStream g .ended (streamRuns g w))
  | cancelReading (g s : Gen) (hpending : g ∈ w.cancelPending)
      (hreading : w.streams g = .reading s) :
      StepCase w (.cancelStream g) (streamFinally g (streamRuns g w))
  | cancelLockWait (g : Gen) (hpending : g ∈ w.cancelPending)
      (hwaits : w.streams g = .teardown .lockWait) :
      StepCase w (.cancelStream g) (setStream g .ended (leaveQueue (.stream g) (streamRuns g w)))

theorem stepCase_of_step
    {w w' : World} {label : Label}
    (h : step w label = some w') :
    StepCase w label w' := by
  cases label with
  | callConnect t =>
      simp only [step, Option.ite_none_right_eq_some, Option.some.injEq] at h
      obtain ⟨hidle, rfl⟩ := h
      exact .callConnect t hidle
  | callDisconnect t =>
      simp only [step, Option.ite_none_right_eq_some, Option.some.injEq] at h
      obtain ⟨hidle, rfl⟩ := h
      exact .callDisconnect t hidle
  | eventWakes t =>
      cases hcall : w.calls t <;> simp only [step, hcall, reduceCtorEq] at h
      simp only [Option.ite_none_right_eq_some, Option.some.injEq] at h
      obtain ⟨hset, rfl⟩ := h
      exact .eventWakes t _ hcall hset
  | waitTimeout t =>
      cases hcall : w.calls t <;> simp only [step, hcall, reduceCtorEq] at h
      obtain rfl := Option.some.inj h
      exact .waitTimeout t _ hcall
  | cancelCall t => exact .cancelCall t w' h
  | cancelSwallowed t =>
      simp only [step, swallowCancel] at h
      split_ifs at h
      split at h
      case h_1 g hcall =>
        simp only [Option.ite_none_right_eq_some, Option.some.injEq] at h
        obtain ⟨hset, rfl⟩ := h
        exact .cancelSwallowed t g hcall hset
      case h_2 => cases h
  | takeLock a =>
      simp only [step] at h
      split at h
      case h_1 d b rest htd hqueue =>
        simp only [Option.ite_none_right_eq_some, Option.some.injEq] at h
        obtain ⟨⟨rfl, hfree, hpending⟩, rfl⟩ := h
        exact .takeLock b d rest htd hqueue hfree hpending
      case h_2 => cases h
  | streamTaskDone a =>
      simp only [step] at h
      split at h
      case h_1 d g htd =>
        simp only [Option.ite_none_right_eq_some, Option.some.injEq] at h
        obtain ⟨hended, rfl⟩ := h
        exact .streamTaskDone a d g htd hended
      case h_2 => cases h
  | shieldTimeout a =>
      simp only [step] at h
      split at h
      case h_1 d g htd =>
        split at h
        case h_1 s hreading =>
          obtain rfl := Option.some.inj h
          exact .shieldTimeout a d g s htd hreading
        case h_2 => cases h
      case h_2 => cases h
  | channelClosed a =>
      simp only [step] at h
      split at h
      case h_1 d g htd =>
        obtain rfl := Option.some.inj h
        exact .channelClosed a d g htd
      case h_2 => cases h
  | streamStarts g =>
      simp only [step] at h
      split_ifs at h with hready
      obtain ⟨hlt, hcreated, hpending⟩ := hready
      split at h
      case h_1 s hstream =>
        obtain rfl := Option.some.inj h
        exact .streamReads g s hlt hcreated hpending hstream
      case h_2 hstream =>
        obtain rfl := Option.some.inj h
        exact .streamLost g hlt hcreated hpending hstream
  | response g r =>
      cases hreading : w.streams g <;> simp only [step, hreading, reduceCtorEq] at h
      obtain rfl := Option.some.inj h
      exact .response g _ r hreading
  | streamRaises g =>
      cases hreading : w.streams g <;> simp only [step, hreading, reduceCtorEq] at h
      obtain rfl := Option.some.inj h
      exact .streamRaises g _ hreading
  | streamEnds g =>
      cases hreading : w.streams g <;> simp only [step, hreading, reduceCtorEq] at h
      obtain rfl := Option.some.inj h
      exact .streamEnds g _ hreading
  | cancelStream g =>
      simp only [step, cancelStream] at h
      split_ifs at h with hpending
      split at h
      case h_1 hcreated =>
        obtain rfl := Option.some.inj h
        exact .cancelCreated g hpending hcreated
      case h_2 s hreading =>
        obtain rfl := Option.some.inj h
        exact .cancelReading g s hpending hreading
      case h_3 hwaits =>
        obtain rfl := Option.some.inj h
        exact .cancelLockWait g hpending hwaits
      case h_4 => cases h

end AsyncClient
end P4Net
