import P4Net.P4InfoIndex
import P4Net.TransitionRuns

/-!
# The client's index and the pipeline of the device

Both clients set their `P4InfoIndex` after every successful pipeline request, from
the P4Info that they sent, whatever the action of the request was.  The device is
modelled by the meaning of the five actions.

* `setPipelineConfig`, `pushPipeline` and `getPipelineConfig` are the client's calls.
* `step` is one call against the device; a failing request may have been performed.
* `Agrees` says that the client encodes and decodes with the index of the active
  pipeline, `Tracks` is the condition on one call under which that stays true, and
  `agrees_step_iff` shows that the condition is exact.
* `agrees_of_run` is the same over whole histories; `verified_pipeline_is_indexed` is
  a history that leaves the agreement.
-/

namespace P4Net
namespace Pipeline

open BigEndian Runs

/-- `SetForwardingPipelineConfigRequest.Action`. -/
inductive PipelineAction where
  | verify
  | verifyAndSave
  | verifyAndCommit
  | commit
  | reconcileAndCommit
deriving DecidableEq, Repr

/-- `_PIPELINE_ACTIONS`, with the value that the request carries. -/
def pipelineAction : String → Option PipelineAction
  | "VERIFY" => some .verify
  | "VERIFY_AND_SAVE" => some .verifyAndSave
  | "VERIFY_AND_COMMIT" => some .verifyAndCommit
  | "COMMIT" => some .commit
  | "RECONCILE_AND_COMMIT" => some .reconcileAndCommit
  | _ => none

/-- `ForwardingPipelineConfig`. -/
structure PipelineConfig where
  p4info : P4Info
  p4DeviceConfig : Bytes
deriving DecidableEq, Repr

/-- The exceptions of the pipeline calls. -/
inductive PipelineError where
  | notConnected
  | invalidAction (action : String)
  | unreadableFile
  | malformedP4Info
  | rpc
deriving DecidableEq, Repr

/-- The client state that pipeline calls read and write. -/
structure Client where
  connected : Bool
  index : Option P4InfoIndex

/-- The request of a push, or the exception raised before it is sent. -/
def pushRequest
    (client : Client) (action : String) (p4info : Option P4Info) (json : Option Bytes) :
    Except PipelineError (PipelineAction × PipelineConfig) :=
  if client.connected = false then .error .notConnected
  else
    match pipelineAction action with
    | none => .error (.invalidAction action)
    | some value =>
        match p4info with
        | none => .error .malformedP4Info
        | some message =>
            match json with
            | none => .error .unreadableFile
            | some data => .ok (value, ⟨message, data⟩)

/-- What both clients do once the request was answered or failed. -/
def pushConfig
    (client : Client) (action : String) (p4info : Option P4Info) (json : Option Bytes)
    (answered : Bool) : Except PipelineError Unit × Client :=
  match pushRequest client action p4info json with
  | .error e => (.error e, client)
  | .ok request =>
      if answered then
        (.ok (), { client with index := some (P4InfoIndex.ofP4Info request.2.p4info) })
      else
        (.error .rpc, client)

/-- `P4RuntimeClient.set_pipeline_config`; both files are read by the call. -/
def setPipelineConfig
    (client : Client) (bmv2Json : Option Bytes) (p4info : Option P4Info) (action : String)
    (answered : Bool) : Except PipelineError Unit × Client :=
  pushConfig client action p4info bmv2Json answered

/-- `AsyncP4RuntimeClient.push_pipeline`; the JSON is passed as bytes. -/
def pushPipeline
    (client : Client) (p4info : Option P4Info) (jsonBytes : Bytes) (action : String)
    (answered : Bool) : Except PipelineError Unit × Client :=
  pushConfig client action p4info (some jsonBytes) answered

/-- `P4RuntimeClient.get_pipeline_config`; `none` is a failing request. -/
def getPipelineConfig
    (client : Client) (response : Option PipelineConfig) :
    Except PipelineError (Bytes × P4InfoIndex) × Client :=
  if client.connected = false then (.error .notConnected, client)
  else
    match response with
    | none => (.error .rpc, client)
    | some config =>
        let index := P4InfoIndex.ofP4Info config.p4info
        (.ok (config.p4DeviceConfig, index), { client with index := some index })

/-- The forwarding device: the pipeline that runs and the one that was saved last. -/
structure Device where
  active : Option PipelineConfig
  saved : Option PipelineConfig
deriving DecidableEq, Repr

/-- The P4Runtime meaning of the actions; `none` is a request the device refuses. -/
def Device.perform (device : Device) (config : PipelineConfig) :
    PipelineAction → Option Device
  | .verify => some device
  | .verifyAndSave => some { device with saved := some config }
  | .verifyAndCommit => some { device with active := some config }
  | .commit => device.saved.map (fun saved => { device with active := some saved })
  | .reconcileAndCommit => some { device with active := some config }

/-- The actions that activate a pipeline. -/
def PipelineAction.activates : PipelineAction → Bool
  | .verify | .verifyAndSave => false
  | .verifyAndCommit | .commit | .reconcileAndCommit => true

/-- How a request ended; a failed one may have been performed all the same. -/
inductive Reply where
  | answered
  | failed (performed : Bool)
deriving DecidableEq, Repr

/-- One call of the controller, with the outcome of its request. -/
inductive Call where
  | setPipelineConfig (bmv2Json : Option Bytes) (p4info : Option P4Info) (action : String)
      (reply : Reply)
  | pushPipeline (p4info : Option P4Info) (jsonBytes : Bytes) (action : String) (reply : Reply)
  | getPipelineConfig (reply : Reply)

/-- The client, its device, and whether a pipeline was activated or read so far. -/
structure System where
  client : Client
  device : Device
  known : Bool

/-- A connected client that knows nothing of its device yet. -/
def initial (device : Device) : System where
  client := { connected := true, index := none }
  device := device
  known := false

/-- The device and the record of activations after a push, and the client it returns. -/
def pushStep
    (s : System) (request : Except PipelineError (PipelineAction × PipelineConfig))
    (reply : Reply) (after : Client) : Option System :=
  match request, reply with
  | .error _, _ => some { s with client := after }
  | .ok _, .failed false => some { s with client := after }
  | .ok (action, config), _ =>
      (s.device.perform config action).map (fun device =>
        { client := after, device := device, known := s.known || action.activates })

/-- One call; `none` when the device cannot have given the reply. -/
def step (s : System) : Call → Option System
  | .setPipelineConfig bmv2Json p4info action reply =>
      pushStep s (pushRequest s.client action p4info bmv2Json) reply
        (setPipelineConfig s.client bmv2Json p4info action (reply = .answered)).2
  | .pushPipeline p4info jsonBytes action reply =>
      pushStep s (pushRequest s.client action p4info (some jsonBytes)) reply
        (pushPipeline s.client p4info jsonBytes action (reply = .answered)).2
  | .getPipelineConfig reply =>
      match reply, s.device.active with
      | .failed _, _ => some { s with client := (getPipelineConfig s.client none).2 }
      | .answered, none => none
      | .answered, some config =>
          some { s with
            client := (getPipelineConfig s.client (some config)).2
            known := s.known || s.client.connected }

/-- The index of the active pipeline, or none if none was activated or read. -/
def System.inForce (s : System) : Option P4InfoIndex :=
  if s.known then s.device.active.map (fun config => P4InfoIndex.ofP4Info config.p4info)
  else none

/-- The client encodes and decodes with the index in force. -/
def Agrees (s : System) : Prop :=
  s.client.index = s.inForce

/-- The active pipeline is known to the client and has the given P4Info. -/
def Running (s : System) (info : P4Info) : Prop :=
  s.known = true ∧ s.device.active.map PipelineConfig.p4info = some info

/-- When a performed request keeps the agreement. -/
def PushTracks
    (s : System) (config : PipelineConfig) (answered : Bool) : PipelineAction → Prop
  | .verify | .verifyAndSave => answered = true → Running s config.p4info
  | .verifyAndCommit | .reconcileAndCommit => answered = false → Running s config.p4info
  | .commit => ∀ saved ∈ s.device.saved,
      if answered then saved.p4info = config.p4info else Running s saved.p4info

/-- When a push keeps the agreement; a request that is not performed always does. -/
def RequestTracks
    (s : System) (request : Except PipelineError (PipelineAction × PipelineConfig))
    (reply : Reply) : Prop :=
  ∀ value config, request = .ok (value, config) → reply ≠ .failed false →
    PushTracks s config (reply = .answered) value

/-- When a call keeps the agreement: a condition on its arguments and the state before. -/
def Tracks (s : System) : Call → Prop
  | .setPipelineConfig bmv2Json p4info action reply =>
      RequestTracks s (pushRequest s.client action p4info bmv2Json) reply
  | .pushPipeline p4info jsonBytes action reply =>
      RequestTracks s (pushRequest s.client action p4info (some jsonBytes)) reply
  | .getPipelineConfig _ => True

theorem ofP4Info_inj
    (i j : P4Info) :
    P4InfoIndex.ofP4Info i = P4InfoIndex.ofP4Info j ↔ i = j :=
  ⟨fun h => congrArg P4InfoIndex.raw h, fun h => by rw [h]⟩

/-- A failing read leaves the client as it was. -/
theorem getPipelineConfig_none
    (client : Client) :
    (getPipelineConfig client none).2 = client := by
  unfold getPipelineConfig
  split_ifs <;> rfl

/-- The index in force is that of the pipeline known to be running. -/
theorem inForce_eq_some_iff
    (s : System) (info : P4Info) :
    s.inForce = some (P4InfoIndex.ofP4Info info) ↔ Running s info := by
  unfold System.inForce Running
  cases hknown : s.known with
  | false => simp
  | true =>
      cases hactive : s.device.active with
      | none => simp
      | some config => simp [ofP4Info_inj]

/-- The client after a push whose request was sent. -/
theorem pushConfig_client
    {client : Client} {action : String} {p4info : Option P4Info} {json : Option Bytes}
    {value : PipelineAction} {config : PipelineConfig}
    (h : pushRequest client action p4info json = .ok (value, config)) (answered : Bool) :
    (pushConfig client action p4info json answered).2 =
      if answered then { client with index := some (P4InfoIndex.ofP4Info config.p4info) }
      else client := by
  cases answered <;> simp [pushConfig, h]

/-- A request that was answered sets the index to that of the P4Info sent. -/
theorem agrees_answered_iff
    {s s' : System} {value : PipelineAction} {config : PipelineConfig}
    (h : (s.device.perform config value).map (fun device =>
      { client := { s.client with index := some (P4InfoIndex.ofP4Info config.p4info) }
        device := device, known := s.known || value.activates }) = some s') :
    Agrees s' ↔ PushTracks s config true value := by
  obtain ⟨device, hdevice, rfl⟩ := Option.map_eq_some_iff.mp h
  cases value with
  | verify =>
      obtain rfl := Option.some.inj hdevice
      rw [Agrees, eq_comm]
      simpa [System.inForce, PushTracks, PipelineAction.activates] using
        inForce_eq_some_iff s config.p4info
  | verifyAndSave =>
      obtain rfl := Option.some.inj hdevice
      rw [Agrees, eq_comm]
      simpa [System.inForce, PushTracks, PipelineAction.activates] using
        inForce_eq_some_iff s config.p4info
  | verifyAndCommit =>
      obtain rfl := Option.some.inj hdevice
      simp [Agrees, System.inForce, PushTracks, PipelineAction.activates]
  | commit =>
      obtain ⟨saved, hsaved, rfl⟩ := Option.map_eq_some_iff.mp hdevice
      simp [Agrees, System.inForce, PushTracks, PipelineAction.activates, hsaved,
        ofP4Info_inj, eq_comm]
  | reconcileAndCommit =>
      obtain rfl := Option.some.inj hdevice
      simp [Agrees, System.inForce, PushTracks, PipelineAction.activates]

/-- A request that was performed and yet failed leaves the index as it was. -/
theorem agrees_lost_iff
    {s s' : System} {value : PipelineAction} {config : PipelineConfig}
    (hs : Agrees s)
    (h : (s.device.perform config value).map (fun device =>
      { client := s.client, device := device, known := s.known || value.activates }) =
        some s') :
    Agrees s' ↔ PushTracks s config false value := by
  obtain ⟨device, hdevice, rfl⟩ := Option.map_eq_some_iff.mp h
  -- an activation is in agreement exactly when the same P4Info was in force before
  have hactivated : ∀ info,
      s.client.index = some (P4InfoIndex.ofP4Info info) ↔ Running s info := by
    intro info
    rw [show s.client.index = s.inForce from hs]
    exact inForce_eq_some_iff s info
  cases value with
  | verify =>
      obtain rfl := Option.some.inj hdevice
      simpa [Agrees, System.inForce, PushTracks, PipelineAction.activates] using hs
  | verifyAndSave =>
      obtain rfl := Option.some.inj hdevice
      simpa [Agrees, System.inForce, PushTracks, PipelineAction.activates] using hs
  | verifyAndCommit =>
      obtain rfl := Option.some.inj hdevice
      simpa [Agrees, System.inForce, PushTracks, PipelineAction.activates] using
        hactivated config.p4info
  | commit =>
      obtain ⟨saved, hsaved, rfl⟩ := Option.map_eq_some_iff.mp hdevice
      simpa [Agrees, System.inForce, PushTracks, PipelineAction.activates, hsaved] using
        hactivated saved.p4info
  | reconcileAndCommit =>
      obtain rfl := Option.some.inj hdevice
      simpa [Agrees, System.inForce, PushTracks, PipelineAction.activates] using
        hactivated config.p4info

/-- One push keeps the agreement exactly under its condition. -/
theorem agrees_push_iff
    {s s' : System} {action : String} {p4info : Option P4Info} {json : Option Bytes}
    {reply : Reply}
    (hs : Agrees s)
    (h : pushStep s (pushRequest s.client action p4info json) reply
      (pushConfig s.client action p4info json (reply = .answered)).2 = some s') :
    Agrees s' ↔ RequestTracks s (pushRequest s.client action p4info json) reply := by
  cases hrequest : pushRequest s.client action p4info json with
  | error e =>
      simp only [pushStep, pushConfig, hrequest] at h
      obtain rfl := Option.some.inj h
      simpa [RequestTracks] using hs
  | ok request =>
      obtain ⟨value, config⟩ := request
      rw [pushConfig_client hrequest, hrequest] at h
      cases reply with
      | answered =>
          simp only [pushStep, decide_true, if_true] at h
          rw [agrees_answered_iff h]
          simp [RequestTracks]
      | failed performed =>
          cases performed with
          | false =>
              obtain rfl := Option.some.inj h
              simpa [RequestTracks] using hs
          | true =>
              simp only [pushStep, reduceCtorEq, decide_false, Bool.false_eq_true,
                if_false] at h
              rw [agrees_lost_iff hs h]
              simp [RequestTracks]

/-- One call keeps the agreement exactly under its condition. -/
theorem agrees_step_iff
    {s s' : System} {call : Call}
    (hs : Agrees s) (h : step s call = some s') :
    Agrees s' ↔ Tracks s call := by
  cases call with
  | setPipelineConfig bmv2Json p4info action reply => exact agrees_push_iff hs h
  | pushPipeline p4info jsonBytes action reply => exact agrees_push_iff hs h
  | getPipelineConfig reply =>
      refine iff_of_true ?_ True.intro
      cases reply with
      | failed performed =>
          obtain rfl := Option.some.inj h
          simpa [Agrees, System.inForce, getPipelineConfig_none] using hs
      | answered =>
          cases hactive : s.device.active with
          | none => simp [step, hactive] at h
          | some config =>
              simp only [step, hactive] at h
              obtain rfl := Option.some.inj h
              cases hconnected : s.client.connected with
              | false =>
                  simpa [Agrees, System.inForce, getPipelineConfig, hconnected, hactive]
                    using hs
              | true => simp [Agrees, System.inForce, getPipelineConfig, hconnected, hactive]

/-- In a history whose calls all meet the condition the client and the device agree. -/
theorem agrees_of_run
    {device : Device} {s : System}
    (h : Reaches step Tracks (initial device) s) :
    Agrees s := by
  refine h.invariant rfl ?_
  intro u call v hu hok hstep
  exact (agrees_step_iff hu hstep).mpr hok

/-- Two programs that differ in their actions. -/
def firstProgram : P4Info :=
  { tables := [], actions := [{ id := 1, name := "drop", params := [] }] }

def secondProgram : P4Info :=
  { tables := [], actions := [{ id := 1, name := "forward", params := [] }] }

/-- A connected client with the index of `program` and a device that runs `active`. -/
def running (program : P4Info) (active : PipelineConfig) (saved : Option PipelineConfig) :
    System where
  client := { connected := true, index := some (P4InfoIndex.ofP4Info program) }
  device := { active := some active, saved := saved }
  known := true

/-- A commit, a saved configuration with the same P4Info, its commit, and a failed push. -/
theorem agrees_of_run_commits :
    ∃ s, execute step (initial { active := none, saved := none })
        [.setPipelineConfig (some [1]) (some firstProgram) "VERIFY_AND_COMMIT" .answered,
          .pushPipeline (some firstProgram) [2] "VERIFY_AND_SAVE" .answered,
          .setPipelineConfig (some [2]) (some firstProgram) "COMMIT" .answered,
          .setPipelineConfig (some [3]) (some secondProgram) "VERIFY" (.failed true)] = some s ∧
      s.device.active = some ⟨firstProgram, [2]⟩ ∧ Agrees s := by
  have hpushed : Reaches step Tracks (initial { active := none, saved := none })
      (running firstProgram ⟨firstProgram, [1]⟩ none) := by
    refine Reaches.refl.tail
      (a := .setPipelineConfig (some [1]) (some firstProgram) "VERIFY_AND_COMMIT" .answered)
      ?_ rfl
    rintro value config h -
    obtain ⟨rfl, rfl⟩ := Prod.mk.inj (Except.ok.inj h)
    simp [PushTracks]
  have hsaved : Reaches step Tracks (initial { active := none, saved := none })
      (running firstProgram ⟨firstProgram, [1]⟩ (some ⟨firstProgram, [2]⟩)) := by
    refine hpushed.tail
      (a := .pushPipeline (some firstProgram) [2] "VERIFY_AND_SAVE" .answered) ?_ rfl
    rintro value config h -
    obtain ⟨rfl, rfl⟩ := Prod.mk.inj (Except.ok.inj h)
    simp [PushTracks, Running, running]
  have hcommitted : Reaches step Tracks (initial { active := none, saved := none })
      (running firstProgram ⟨firstProgram, [2]⟩ (some ⟨firstProgram, [2]⟩)) := by
    refine hsaved.tail
      (a := .setPipelineConfig (some [2]) (some firstProgram) "COMMIT" .answered) ?_ rfl
    rintro value config h -
    obtain ⟨rfl, rfl⟩ := Prod.mk.inj (Except.ok.inj h)
    simp [PushTracks, running]
  have hfailed : Reaches step Tracks (initial { active := none, saved := none })
      (running firstProgram ⟨firstProgram, [2]⟩ (some ⟨firstProgram, [2]⟩)) := by
    refine hcommitted.tail
      (a := .setPipelineConfig (some [3]) (some secondProgram) "VERIFY" (.failed true)) ?_ rfl
    rintro value config h -
    obtain ⟨rfl, rfl⟩ := Prod.mk.inj (Except.ok.inj h)
    simp [PushTracks]
  exact ⟨_, rfl, rfl, agrees_of_run hfailed⟩

/-- A program that was only verified replaces the index of the active one. -/
theorem verified_pipeline_is_indexed :
    ¬ ∀ (device : Device) (calls : List Call) (s : System),
      execute step (initial device) calls = some s → Agrees s := by
  intro h
  have hagrees := h { active := none, saved := none }
    [.setPipelineConfig (some [1]) (some firstProgram) "VERIFY_AND_COMMIT" .answered,
      .setPipelineConfig (some [2]) (some secondProgram) "VERIFY" .answered] _ rfl
  have hprograms : secondProgram = firstProgram :=
    (ofP4Info_inj _ _).mp (Option.some.inj hagrees)
  exact absurd hprograms (by decide)

end Pipeline
end P4Net
