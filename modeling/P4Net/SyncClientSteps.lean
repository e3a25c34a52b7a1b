import P4Net.TransitionRuns

/-!
# Lifecycle of the synchronous client

`P4RuntimeClient` of `control/client.py` as a step function.  Any number of threads
call `connect` and `disconnect`; one consumer thread for each opened stream reads its
responses.  A step is one section under `_teardown_lock`, one unlocked read, or the
end of a wait.

A connection generation is the number of the `connect` section that opened it.  The
channel, stub, queue, event and stream call that this section creates all carry its
number.  `_stream_thread` is left out because a consumer is only ever joined, and the
contents of the queues belong to the packet-out model.

The fields under `ghost` record what has happened and are never read.
-/

namespace P4Net
namespace SyncClient

/-- Number of a connection generation. -/
abbrev Gen := Nat

/-- Identity of a calling thread. -/
abbrev Tid := Nat

/-- The exceptions stored in `_stream_error`. -/
inductive StreamError where
  | closedBeforeArbitration
  | streamEnded
  | raised
deriving DecidableEq, Repr

/-- How the call of `StreamChannel` ends: it returns, or raises one of two kinds. -/
inductive StreamChannelOutcome where
  | returns
  | rpcError
  | otherError
deriving DecidableEq, Repr

/-- A response on the stream: an arbitration update with its status code, or another. -/
inductive Response where
  | arbitration (code : Int)
  | other
deriving DecidableEq, Repr

/-- Where a thread stands in `connect`; `idle` is outside of it. -/
inductive ConnectPc where
  | idle
  | readConnected
  | staleTeardown
  | connectSection
  | waiting (g : Gen)
  | finish (g : Gen)
  | expectedTeardown (g : Gen)
deriving DecidableEq, Repr

/-- Where the consumer thread of a stream stands. -/
inductive ConsumerPc where
  | reading
  | leaving
  | done
deriving DecidableEq, Repr

/-- The fields of the client object. -/
structure ClientFields where
  channel : Option Gen := none
  stub : Option Gen := none
  outgoing : Option Gen := none
  streamCall : Option Gen := none
  streamEvent : Option Gen := none
  arbitration : Option Int := none
  streamError : Option StreamError := none
  connected : Bool := false
  closed : Bool := false
deriving DecidableEq, Repr

/-- The client, its events and streams, and the threads around it. -/
structure World where
  client : ClientFields := {}
  nextGen : Gen := 0
  eventSet : List Gen := []
  consumer : Gen → ConsumerPc := fun _ => .reading
  threads : Tid → ConnectPc := fun _ => .idle
  -- ghost
  completed : List Gen := []
  cancelled : List Gen := []
  closedChannels : List Gen := []
  delivered : List (Gen × Int) := []
  returned : List Tid := []

/-- `is_connected`. -/
def ClientFields.isConnected (c : ClientFields) : Bool := c.connected && !c.closed

/-- The body of `_teardown` under the lock. -/
def teardown (w : World) : World :=
  let c := w.client
  let pending := c.channel.isSome && !c.connected
  { w with
    client :=
      { c with
        closed := true
        connected := false
        streamError :=
          if pending && c.streamError.isNone then some .closedBeforeArbitration
          else c.streamError
        channel := none
        stub := none
        streamCall := none
        outgoing := none }
    eventSet := if pending then c.streamEvent.toList ++ w.eventSet else w.eventSet
    cancelled := c.streamCall.toList ++ w.cancelled
    closedChannels := c.channel.toList ++ w.closedChannels }

/-- `_teardown(expected_stream=...)`: nothing happens to another stream. -/
def teardownExpected (g : Gen) (w : World) : World :=
  if w.client.streamCall = some g then teardown w else w

/-- Move a thread to another point of `connect`. -/
def setPc (t : Tid) (pc : ConnectPc) (w : World) : World :=
  { w with threads := Function.update w.threads t pc }

/-- Move the consumer of a stream. -/
def setConsumer (g : Gen) (pc : ConsumerPc) (w : World) : World :=
  { w with consumer := Function.update w.consumer g pc }

/-- A call of `connect` returns to its caller. -/
def returnFrom (t : Tid) (w : World) : World :=
  { setPc t .idle w with returned := t :: w.returned }

/-- The fields that `connect` creates before it calls `StreamChannel`. -/
def openFields (w : World) : World :=
  { w with
    client :=
      { w.client with
        closed := false
        channel := some w.nextGen
        stub := some w.nextGen
        outgoing := some w.nextGen
        streamEvent := some w.nextGen
        arbitration := none
        streamError := none }
    nextGen := w.nextGen + 1 }

/-- The stream that `StreamChannel` returns for the opened channel. -/
def openStream (w : World) : World :=
  { openFields w with
    client := { (openFields w).client with streamCall := some w.nextGen }
    completed := w.nextGen :: w.completed }

/-- The first locked section of `connect`. -/
def connectSection (t : Tid) (outcome : StreamChannelOutcome) (w : World) : World :=
  if w.client.connected then returnFrom t w
  else
    match outcome with
    | .returns => setPc t (.waiting w.nextGen) (openStream w)
    | .rpcError => setPc t .idle (teardown (openFields w))
    -- Any other exception leaves the section without a teardown.
    | .otherError => setPc t .idle (openFields w)

/-- The attempt is the current one, without error, and its arbitration has status 0. -/
def arbitrated (g : Gen) (w : World) : Bool :=
  w.client.streamCall = some g && !w.client.closed && w.client.streamError.isNone &&
    w.client.arbitration = some 0

/-- The second locked section of `connect`, for the stream that it opened. -/
def finishSection (t : Tid) (g : Gen) (w : World) : World :=
  if arbitrated g w then
    returnFrom t { w with client := { w.client with connected := true } }
  else setPc t (.expectedTeardown g) w

/-- Whether a consumer section still concerns the current stream. -/
def isCurrent (g : Gen) (w : World) : Bool :=
  !w.client.closed && w.client.streamCall = some g

/-- The locked section of the consumer for one response. -/
def responseSection (g : Gen) (response : Response) (w : World) : World :=
  if isCurrent g w then
    match response with
    | .arbitration code =>
        { w with
          client := { w.client with arbitration := some code }
          eventSet := w.client.streamEvent.toList ++ w.eventSet
          delivered := (g, code) :: w.delivered }
    | .other => w
  else
    match response with
    | .arbitration code => setConsumer g .leaving { w with delivered := (g, code) :: w.delivered }
    | .other => setConsumer g .leaving w

/-- The `except` section of the consumer. -/
def exceptionSection (g : Gen) (w : World) : World :=
  setConsumer g .leaving
    (if isCurrent g w then
      { w with client := { w.client with streamError := some .raised } }
    else w)

/-- What the `finally` section of the consumer sets before its teardown. -/
def markEnded (w : World) : World :=
  { w with
    client :=
      { w.client with
        streamError :=
          if w.client.streamError.isNone then some .streamEnded else w.client.streamError }
    eventSet := w.client.streamEvent.toList ++ w.eventSet }

/-- The `finally` section of the consumer. -/
def finallySection (g : Gen) (w : World) : World :=
  setConsumer g .done (if isCurrent g w then teardownExpected g (markEnded w) else w)

/-- The atomic steps; `connect` and the consumer appear under their parts. -/
inductive Label where
  | callConnect (t : Tid)
  | readConnected (t : Tid)
  | staleTeardown (t : Tid)
  | connectSection (t : Tid) (outcome : StreamChannelOutcome)
  | eventSeen (t : Tid)
  | waitTimeout (t : Tid)
  | finishSection (t : Tid)
  | expectedTeardown (t : Tid)
  | disconnect (t : Tid)
  | response (g : Gen) (response : Response)
  | streamRaises (g : Gen)
  | streamEnds (g : Gen)
  | finallySection (g : Gen)
deriving DecidableEq, Repr

/-- The transition of a thread that stands at `pc`. -/
def threadStep (w : World) (t : Tid) (label : Label) (pc : ConnectPc) : Option World :=
  match label, pc with
  -- `self._channel is not None and not self._connected`, read without the lock.
  | .callConnect _, .idle =>
      some (setPc t (if w.client.channel.isNone then .connectSection else .readConnected) w)
  | .readConnected _, .readConnected =>
      some (setPc t (if w.client.connected then .connectSection else .staleTeardown) w)
  | .staleTeardown _, .staleTeardown => some (setPc t .connectSection (teardown w))
  | .connectSection _ outcome, .connectSection => some (connectSection t outcome w)
  | .eventSeen _, .waiting g => if g ∈ w.eventSet then some (setPc t (.finish g) w) else none
  | .waitTimeout _, .waiting g => some (setPc t (.expectedTeardown g) w)
  | .finishSection _, .finish g => some (finishSection t g w)
  | .expectedTeardown _, .expectedTeardown g => some (setPc t .idle (teardownExpected g w))
  | .disconnect _, .idle => some (teardown w)
  | _, _ => none

/-- The transition of the consumer of stream `g`, which a completed call has started. -/
def consumerStep (w : World) (g : Gen) (label : Label) : Option World :=
  if g ∈ w.completed then
    match label, w.consumer g with
    | .response _ response, .reading => some (responseSection g response w)
    | .streamRaises _, .reading => some (exceptionSection g w)
    | .streamEnds _, .reading => some (setConsumer g .leaving w)
    | .finallySection _, .leaving => some (finallySection g w)
    | _, _ => none
  else none

/-- One step of the client and its threads. -/
def step (w : World) (label : Label) : Option World :=
  match label with
  | .callConnect t | .readConnected t | .staleTeardown t | .connectSection t _ | .eventSeen t
  | .waitTimeout t | .finishSection t | .expectedTeardown t | .disconnect t =>
      threadStep w t label (w.threads t)
  | .response g _ | .streamRaises g | .streamEnds g | .finallySection g =>
      consumerStep w g label

/-- The generation whose stream a thread in `connect` has opened. -/
def ConnectPc.holds : ConnectPc → Option Gen
  | .waiting g => some g
  | .finish g => some g
  | .expectedTeardown g => some g
  | _ => none

/-- The enabled steps, one case for each label. -/
inductive StepCase (w : World) : Label → World → Prop
  | callConnect (t : Tid) (hpc : w.threads t = .idle) :
      StepCase w (.callConnect t)
        (setPc t (if w.client.channel.isNone then .connectSection else .readConnected) w)
  | readConnected (t : Tid) (hpc : w.threads t = .readConnected) :
      StepCase w (.readConnected t)
        (setPc t (if w.client.connected then .connectSection else .staleTeardown) w)
  | staleTeardown (t : Tid) (hpc : w.threads t = .staleTeardown) :
      StepCase w (.staleTeardown t) (setPc t .connectSection (teardown w))
  | connectSection (t : Tid) (outcome : StreamChannelOutcome)
      (hpc : w.threads t = .connectSection) :
      StepCase w (.connectSection t outcome) (connectSection t outcome w)
  | eventSeen (t : Tid) (g : Gen) (hpc : w.threads t = .waiting g) (hset : g ∈ w.eventSet) :
      StepCase w (.eventSeen t) (setPc t (.finish g) w)
  | waitTimeout (t : Tid) (g : Gen) (hpc : w.threads t = .waiting g) :
      StepCase w (.waitTimeout t) (setPc t (.expectedTeardown g) w)
  | finishSection (t : Tid) (g : Gen) (hpc : w.threads t = .finish g) :
      StepCase w (.finishSection t) (finishSection t g w)
  | expectedTeardown (t : Tid) (g : Gen) (hpc : w.threads t = .expectedTeardown g) :
      StepCase w (.expectedTeardown t) (setPc t .idle (teardownExpected g w))
  | disconnect (t : Tid) (hpc : w.threads t = .idle) :
      StepCase w (.disconnect t) (teardown w)
  | response (g : Gen) (r : Response) (hg : g ∈ w.completed) (hpc : w.consumer g = .reading) :
      StepCase w (.response g r) (responseSection g r w)
  | streamRaises (g : Gen) (hg : g ∈ w.completed) (hpc : w.consumer g = .reading) :
      StepCase w (.streamRaises g) (exceptionSection g w)
  | streamEnds (g : Gen) (hg : g ∈ w.completed) (hpc : w.consumer g = .reading) :
      StepCase w (.streamEnds g) (setConsumer g .leaving w)
  | finallySection (g : Gen) (hg : g ∈ w.completed) (hpc : w.consumer g = .leaving) :
      StepCase w (.finallySection g) (finallySection g w)

theorem stepCase_of_step
    {w w' : World} {label : Label}
    (h : step w label = some w') :
    StepCase w label w' := by
  cases label with
  | callConnect t =>
      cases hpc : w.threads t <;> simp only [step, threadStep, hpc, reduceCtorEq] at h
      obtain rfl := Option.some.inj h
      exact .callConnect t hpc
  | readConnected t =>
      cases hpc : w.threads t <;> simp only [step, threadStep, hpc, reduceCtorEq] at h
      obtain rfl := Option.some.inj h
      exact .readConnected t hpc
  | staleTeardown t =>
      cases hpc : w.threads t <;> simp only [step, threadStep, hpc, reduceCtorEq] at h
      obtain rfl := Option.some.inj h
      exact .staleTeardown t hpc
  | connectSection t outcome =>
      cases hpc : w.threads t <;> simp only [step, threadStep, hpc, reduceCtorEq] at h
      obtain rfl := Option.some.inj h
      exact .connectSection t outcome hpc
  | eventSeen t =>
      cases hpc : w.threads t <;> simp only [step, threadStep, hpc, reduceCtorEq] at h
      split_ifs at h with hset
      obtain rfl := Option.some.inj h
      exact .eventSeen t _ hpc hset
  | waitTimeout t =>
      cases hpc : w.threads t <;> simp only [step, threadStep, hpc, reduceCtorEq] at h
      obtain rfl := Option.some.inj h
      exact .waitTimeout t _ hpc
  | finishSection t =>
      cases hpc : w.threads t <;> simp only [step, threadStep, hpc, reduceCtorEq] at h
      obtain rfl := Option.some.inj h
      exact .finishSection t _ hpc
  | expectedTeardown t =>
      cases hpc : w.threads t <;> simp only [step, threadStep, hpc, reduceCtorEq] at h
      obtain rfl := Option.some.inj h
      exact .expectedTeardown t _ hpc
  | disconnect t =>
      cases hpc : w.threads t <;> simp only [step, threadStep, hpc, reduceCtorEq] at h
      obtain rfl := Option.some.inj h
      exact .disconnect t hpc
  | response g r =>
      simp only [step, consumerStep] at h
      split_ifs at h with hg
      cases hpc : w.consumer g <;> simp only [hpc, reduceCtorEq] at h
      obtain rfl := Option.some.inj h
      exact .response g r hg hpc
  | streamRaises g =>
      simp only [step, consumerStep] at h
      split_ifs at h with hg
      cases hpc : w.consumer g <;> simp only [hpc, reduceCtorEq] at h
      obtain rfl := Option.some.inj h
      exact .streamRaises g hg hpc
  | streamEnds g =>
      simp only [step, consumerStep] at h
      split_ifs at h with hg
      cases hpc : w.consumer g <;> simp only [hpc, reduceCtorEq] at h
      obtain rfl := Option.some.inj h
      exact .streamEnds g hg hpc
  | finallySection g =>
      simp only [step, consumerStep] at h
      split_ifs at h with hg
      cases hpc : w.consumer g <;> simp only [hpc, reduceCtorEq] at h
      obtain rfl := Option.some.inj h
      exact .finallySection g hg hpc

end SyncClient
end P4Net
