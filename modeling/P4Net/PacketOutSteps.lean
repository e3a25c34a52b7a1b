import P4Net.SyncClientSteps

/-!
# The request side of the stream

`send_packet_out` reads `_connected`, `_closed` and `_outgoing` without the lock that
`connect`, `_teardown` and the consumer hold.  This module is the client of
`control/client.py` with these reads, the writes of the same fields, the queue puts and
gets and the acquisitions of the lock as steps of their own.  A lock is released with
the last access of its section.  The remaining fields are only used under the lock and
are written together with a neighbouring access.

Every queue and stream carries the number of the connection that created it.  `puts`,
`yielded`, `established` and `raised` record what has happened and are never read.
-/

namespace P4Net
namespace PacketOut

open SyncClient (Gen Tid StreamChannelOutcome Response)

/-- Number of a call of `send_packet_out`, and of the request that it builds. -/
abbrev PacketId := Nat

/-- A caller, or the consumer thread of a stream. -/
inductive Agent where
  | thread (t : Tid)
  | consumer (g : Gen)
deriving DecidableEq, Repr

/-- What is put into a queue; `sentinel` is `_SENTINEL`. -/
inductive Item where
  | arbitration
  | packet (n : PacketId)
  | sentinel
deriving DecidableEq, Repr

/-- What follows a teardown: the locked section of `connect`, or the end of the call. -/
inductive Next where
  | connect
  | done
deriving DecidableEq, Repr

/-- The next access of an agent. -/
inductive Pc where
  | idle
  | sendConnected (n : PacketId)
  | sendClosed (n : PacketId)
  | sendEncode (n : PacketId)
  | sendOutgoing (n : PacketId)
  | sendPut (n : PacketId) (g : Gen)
  | staleConnected
  | connectAcquire
  | connectConnected
  | connectClosed
  | connectChannel
  | connectOutgoing (g : Gen)
  | connectStream (g : Gen)
  | connectPut (g : Gen)
  | waiting (g : Gen)
  | finishAcquire (g : Gen)
  | finishCheck (g : Gen)
  | finishConnected (g : Gen)
  | teardownAcquire (expected : Option Gen) (next : Next)
  | teardownGuard (expected : Option Gen) (next : Next)
  | teardownClosed (next : Next)
  | teardownWas (next : Next)
  | teardownConnected (wasConnected : Bool) (next : Next)
  | teardownPut (next : Next)
  | teardownClear (next : Next)
  | teardownOutgoing (next : Next)
  | reading (g : Gen)
  | responseAcquire (g : Gen) (response : Response)
  | responseSection (g : Gen) (response : Response)
  | exceptAcquire (g : Gen)
  | exceptSection (g : Gen)
  | finallyAcquire (g : Gen)
  | finallySection (g : Gen)
deriving DecidableEq, Repr

/-- The client, its queues and the agents around it. -/
structure World where
  connected : Bool := false
  closed : Bool := false
  channel : Option Gen := none
  outgoing : Option Gen := none
  streamCall : Option Gen := none
  streamEvent : Option Gen := none
  arbitration : Option Int := none
  streamError : Bool := false
  eventSet : List Gen := []
  lockOwner : Option Agent := none
  nextGen : Gen := 0
  nextPacket : PacketId := 0
  pcs : Agent → Pc := fun _ => .idle
  queue : Gen → List Item := fun _ => []
  generatorDone : Gen → Bool := fun _ => false
  -- ghost
  puts : Gen → List Item := fun _ => []
  yielded : Gen → List Item := fun _ => []
  established : List Gen := []
  raised : List PacketId := []

/-- The next access of agent `a` is `pc`. -/
def setPc (a : Agent) (pc : Pc) (w : World) : World :=
  { w with pcs := Function.update w.pcs a pc }

/-- Take the lock when it is free. -/
def acquire (a : Agent) (pc : Pc) (w : World) : Option World :=
  if w.lockOwner.isNone then some (setPc a pc { w with lockOwner := some a }) else none

/-- Leave a locked section. -/
def release (a : Agent) (pc : Pc) (w : World) : World :=
  setPc a pc { w with lockOwner := none }

/-- `Queue.put`. -/
def putItem (g : Gen) (item : Item) (w : World) : World :=
  { w with
    queue := Function.update w.queue g (w.queue g ++ [item])
    puts := Function.update w.puts g (w.puts g ++ [item]) }

/-- A call of `send_packet_out` ends with an exception. -/
def raiseSend (a : Agent) (n : PacketId) (w : World) : World :=
  { setPc a .idle w with raised := n :: w.raised }

/-- Where a thread goes on after its teardown. -/
def Next.pc : Next → Pc
  | .connect => .connectAcquire
  | .done => .idle

/-- Whether a consumer section concerns the current stream. -/
def isCurrent (g : Gen) (w : World) : Bool := !w.closed && w.streamCall = some g

/-- The check of the last section of `connect`. -/
def arbitrated (g : Gen) (w : World) : Bool :=
  w.streamCall = some g && !w.closed && !w.streamError && w.arbitration = some 0

/-- Set the event of the latest connection. -/
def setEvent (w : World) : World :=
  { w with eventSet := w.streamEvent.toList ++ w.eventSet }

/-- The steps of `send_packet_out` that leave no choice. -/
def sendStep (w : World) (a : Agent) : Pc → Option World
  | .sendConnected n =>
      some (if w.connected then setPc a (.sendClosed n) w else raiseSend a n w)
  | .sendClosed n => some (if w.closed then raiseSend a n w else setPc a (.sendEncode n) w)
  | .sendOutgoing n =>
      match w.outgoing with
      | none => some (raiseSend a n w)
      | some g => some (setPc a (.sendPut n g) w)
  | .sendPut n g => some (setPc a .idle (putItem g (.packet n) w))
  | _ => none

/-- The steps of `connect` that leave no choice. -/
def connectStep (w : World) (a : Agent) : Pc → Option World
  | .staleConnected =>
      some (setPc a (if w.connected then .connectAcquire else .teardownAcquire none .connect) w)
  | .connectAcquire => acquire a .connectConnected w
  | .connectConnected =>
      some (if w.connected then release a .idle w else setPc a .connectClosed w)
  | .connectClosed => some (setPc a .connectChannel { w with closed := false })
  | .connectChannel =>
      some (setPc a (.connectOutgoing w.nextGen)
        { w with channel := some w.nextGen, nextGen := w.nextGen + 1 })
  | .connectOutgoing g =>
      some (setPc a (.connectStream g)
        { w with
          outgoing := some g
          streamEvent := some g
          arbitration := none
          streamError := false })
  | .connectPut g => some (release a (.waiting g) (putItem g .arbitration w))
  | .finishAcquire g => acquire a (.finishCheck g) w
  | .finishCheck g =>
      some (if arbitrated g w then setPc a (.finishConnected g) w
        else release a (.teardownAcquire (some g) .done) w)
  | .finishConnected g =>
      some (release a .idle { w with connected := true, established := g :: w.established })
  | _ => none

/-- The steps of `_teardown`. -/
def teardownStep (w : World) (a : Agent) : Pc → Option World
  | .teardownAcquire expected next => acquire a (.teardownGuard expected next) w
  | .teardownGuard expected next =>
      some (if expected.isNone || expected = w.streamCall then setPc a (.teardownClosed next) w
        else release a next.pc w)
  | .teardownClosed next => some (setPc a (.teardownWas next) { w with closed := true })
  | .teardownWas next => some (setPc a (.teardownConnected w.connected next) w)
  | .teardownConnected wasConnected next =>
      let w' := { w with connected := false }
      some (setPc a (.teardownPut next)
        (if w.channel.isSome && !wasConnected then setEvent { w' with streamError := true }
        else w'))
  | .teardownPut next =>
      match w.outgoing with
      | none => some (setPc a (.teardownClear next) w)
      | some g => some (setPc a (.teardownClear next) (putItem g .sentinel w))
  | .teardownClear next =>
      some (setPc a (.teardownOutgoing next) { w with channel := none, streamCall := none })
  | .teardownOutgoing next => some (release a next.pc { w with outgoing := none })
  | _ => none

/-- The steps of the consumer inside and after its sections. -/
def consumerStep (w : World) (a : Agent) : Pc → Option World
  | .responseAcquire g response => acquire a (.responseSection g response) w
  | .responseSection g response =>
      some (if isCurrent g w then
          match response with
          | .arbitration code =>
              release a (.reading g) (setEvent { w with arbitration := some code })
          | .other => release a (.reading g) w
        else release a (.finallyAcquire g) w)
  | .exceptAcquire g => acquire a (.exceptSection g) w
  | .exceptSection g =>
      some (release a (.finallyAcquire g)
        { w with streamError := w.streamError || isCurrent g w })
  | .finallyAcquire g => acquire a (.finallySection g) w
  | .finallySection g =>
      some (if isCurrent g w then
          setPc a (.teardownGuard (some g) .done) (setEvent { w with streamError := true })
        else release a .idle w)
  | _ => none

/-- The steps of the scheduler and of the environment. -/
inductive Label where
  | callSend (t : Tid)
  | callConnect (t : Tid)
  | callDisconnect (t : Tid)
  | send (a : Agent)
  | encode (a : Agent) (fails : Bool)
  | connect (a : Agent)
  | streamChannel (a : Agent) (outcome : StreamChannelOutcome)
  | eventSeen (a : Agent)
  | waitTimeout (a : Agent)
  | teardown (a : Agent)
  | response (g : Gen) (response : Response)
  | streamRaises (g : Gen)
  | streamEnds (g : Gen)
  | consumer (a : Agent)
  | request (g : Gen)
deriving DecidableEq, Repr

/-- A call starts on a thread that is in no other call. -/
def callStep (w : World) (t : Tid) (start : World) : Option World :=
  if w.pcs (.thread t) = .idle then some start else none

/-- The call of `StreamChannel`, which also starts the consumer. -/
def streamChannelStep (w : World) (a : Agent) (outcome : StreamChannelOutcome) :
    Pc → Option World
  | .connectStream g =>
      match outcome with
      | .returns =>
          some (setPc a (.connectPut g)
            (setPc (.consumer g) (.reading g) { w with streamCall := some g }))
      -- The teardown runs in the same section.
      | .rpcError => some (setPc a (.teardownGuard none .done) w)
      | .otherError => some (release a .idle w)
  | _ => none

/-- One turn of `_request_generator`. -/
def requestStep (w : World) (g : Gen) : Option World :=
  if w.generatorDone g then none
  else
    match w.queue g with
    | [] => none
    | .sentinel :: rest =>
        some { w with
          queue := Function.update w.queue g rest
          generatorDone := Function.update w.generatorDone g true }
    | item :: rest =>
        some { w with
          queue := Function.update w.queue g rest
          yielded := Function.update w.yielded g (w.yielded g ++ [item]) }

/-- One step of the client, its callers and its streams. -/
def step (w : World) : Label → Option World
  | .callSend t =>
      callStep w t { setPc (.thread t) (.sendConnected w.nextPacket) w with
        nextPacket := w.nextPacket + 1 }
  | .callConnect t =>
      callStep w t
        (setPc (.thread t) (if w.channel.isNone then .connectAcquire else .staleConnected) w)
  | .callDisconnect t => callStep w t (setPc (.thread t) (.teardownAcquire none .done) w)
  | .send a => sendStep w a (w.pcs a)
  | .encode a fails =>
      match w.pcs a with
      | .sendEncode n =>
          some (if fails then raiseSend a n w else setPc a (.sendOutgoing n) w)
      | _ => none
  | .connect a => connectStep w a (w.pcs a)
  | .streamChannel a outcome => streamChannelStep w a outcome (w.pcs a)
  | .eventSeen a =>
      match w.pcs a with
      | .waiting g => if g ∈ w.eventSet then some (setPc a (.finishAcquire g) w) else none
      | _ => none
  | .waitTimeout a =>
      match w.pcs a with
      | .waiting g => some (setPc a (.teardownAcquire (some g) .done) w)
      | _ => none
  | .teardown a => teardownStep w a (w.pcs a)
  | .response g response =>
      if w.pcs (.consumer g) = .reading g then
        some (setPc (.consumer g) (.responseAcquire g response) w)
      else none
  | .streamRaises g =>
      if w.pcs (.consumer g) = .reading g then
        some (setPc (.consumer g) (.exceptAcquire g) w)
      else none
  | .streamEnds g =>
      if w.pcs (.consumer g) = .reading g then
        some (setPc (.consumer g) (.finallyAcquire g) w)
      else none
  | .consumer a => consumerStep w a (w.pcs a)
  | .request g => requestStep w g

/-! ### What a step does -/

/-- The enabled steps; the steps inside a method are those of its own function. -/
inductive StepCase (w : World) : Label → World → Prop
  | callSend (t : Tid) (hidle : w.pcs (.thread t) = .idle) :
      StepCase w (.callSend t)
        { setPc (.thread t) (.sendConnected w.nextPacket) w with nextPacket := w.nextPacket + 1 }
  | callConnect (t : Tid) (hidle : w.pcs (.thread t) = .idle) :
      StepCase w (.callConnect t)
        (setPc (.thread t) (if w.channel.isNone then .connectAcquire else .staleConnected) w)
  | callDisconnect (t : Tid) (hidle : w.pcs (.thread t) = .idle) :
      StepCase w (.callDisconnect t) (setPc (.thread t) (.teardownAcquire none .done) w)
  | send (a : Agent) (w' : World) (hsend : sendStep w a (w.pcs a) = some w') :
      StepCase w (.send a) w'
  | encodeFails (a : Agent) (n : Nat) (hpc : w.pcs a = .sendEncode n) :
      StepCase w (.encode a true) (raiseSend a n w)
  | encode (a : Agent) (n : Nat) (hpc : w.pcs a = .sendEncode n) :
      StepCase w (.encode a false) (setPc a (.sendOutgoing n) w)
  | connect (a : Agent) (w' : World) (hconnect : connectStep w a (w.pcs a) = some w') :
      StepCase w (.connect a) w'
  | streamReturns (a : Agent) (g : Gen) (hpc : w.pcs a = .connectStream g) :
      StepCase w (.streamChannel a .returns) (setPc a (.connectPut g)
        (setPc (.consumer g) (.reading g) { w with streamCall := some g }))
  | streamRpcError (a : Agent) (g : Gen) (hpc : w.pcs a = .connectStream g) :
      StepCase w (.streamChannel a .rpcError) (setPc a (.teardownGuard none .done) w)
  | streamOtherError (a : Agent) (g : Gen) (hpc : w.pcs a = .connectStream g) :
      StepCase w (.streamChannel a .otherError) (release a .idle w)
  | eventSeen (a : Agent) (g : Gen) (hpc : w.pcs a = .waiting g) (hset : g ∈ w.eventSet) :
      StepCase w (.eventSeen a) (setPc a (.finishAcquire g) w)
  | waitTimeout (a : Agent) (g : Gen) (hpc : w.pcs a = .waiting g) :
      StepCase w (.waitTimeout a) (setPc a (.teardownAcquire (some g) .done) w)
  | teardown (a : Agent) (w' : World) (hteardown : teardownStep w a (w.pcs a) = some w') :
      StepCase w (.teardown a) w'
  | response (g : Gen) (r : Response) (hpc : w.pcs (.consumer g) = .reading g) :
      StepCase w (.response g r) (setPc (.consumer g) (.responseAcquire g r) w)
  | streamRaises (g : Gen) (hpc : w.pcs (.consumer g) = .reading g) :
      StepCase w (.streamRaises g) (setPc (.consumer g) (.exceptAcquire g) w)
  | streamEnds (g : Gen) (hpc : w.pcs (.consumer g) = .reading g) :
      StepCase w (.streamEnds g) (setPc (.consumer g) (.finallyAcquire g) w)
  | consumer (a : Agent) (w' : World) (hconsumer : consumerStep w a (w.pcs a) = some w') :
      StepCase w (.consumer a) w'
  | request (g : Gen) (w' : World) (hrequest : requestStep w g = some w') :
      StepCase w (.request g) w'

theorem stepCase_of_step
    {w w' : World} {label : Label}
    (h : step w label = some w') :
    StepCase w label w' := by
  cases label with
  | callSend t =>
      simp only [step, callStep, Option.ite_none_right_eq_some, Option.some.injEq] at h
      obtain ⟨hidle, rfl⟩ := h
      exact .callSend t hidle
  | callConnect t =>
      simp only [step, callStep, Option.ite_none_right_eq_some, Option.some.injEq] at h
      obtain ⟨hidle, rfl⟩ := h
      exact .callConnect t hidle
  | callDisconnect t =>
      simp only [step, callStep, Option.ite_none_right_eq_some, Option.some.injEq] at h
      obtain ⟨hidle, rfl⟩ := h
      exact .callDisconnect t hidle
  | send a => exact .send a w' h
  | encode a fails =>
      cases hpc : w.pcs a <;> simp only [step, hpc, reduceCtorEq] at h
      obtain rfl := Option.some.inj h
      cases fails with
      | true => exact .encodeFails a _ hpc
      | false => exact .encode a _ hpc
  | connect a => exact .connect a w' h
  | streamChannel a outcome =>
      cases hpc : w.pcs a <;> simp only [step, hpc, streamChannelStep, reduceCtorEq] at h
      cases outcome with
      | returns =>
          obtain rfl := Option.some.inj h
          exact .streamReturns a _ hpc
      | rpcError =>
          obtain rfl := Option.some.inj h
          exact .streamRpcError a _ hpc
      | otherError =>
          obtain rfl := Option.some.inj h
          exact .streamOtherError a _ hpc
  | eventSeen a =>
      cases hpc : w.pcs a <;> simp only [step, hpc, reduceCtorEq] at h
      split_ifs at h with hset
      obtain rfl := Option.some.inj h
      exact .eventSeen a _ hpc hset
  | waitTimeout a =>
      cases hpc : w.pcs a <;> simp only [step, hpc, reduceCtorEq] at h
      obtain rfl := Option.some.inj h
      exact .waitTimeout a _ hpc
  | teardown a => exact .teardown a w' h
  | response g r =>
      simp only [step, Option.ite_none_right_eq_some, Option.some.injEq] at h
      obtain ⟨hpc, rfl⟩ := h
      exact .response g r hpc
  | streamRaises g =>
      simp only [step, Option.ite_none_right_eq_some, Option.some.injEq] at h
      obtain ⟨hpc, rfl⟩ := h
      exact .streamRaises g hpc
  | streamEnds g =>
      simp only [step, Option.ite_none_right_eq_some, Option.some.injEq] at h
      obtain ⟨hpc, rfl⟩ := h
      exact .streamEnds g hpc
  | consumer a => exact .consumer a w' h
  | request g => exact .request g w' h

end PacketOut
end P4Net
