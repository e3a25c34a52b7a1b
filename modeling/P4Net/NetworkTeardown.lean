import P4Net.NetworkStartup

/-!
# Startup and shutdown of a network by one thread

`_do_stop` releases what the network holds, one collection after the other, and goes on
when a release raises an `Exception`; any other exception aborts it.

* `StopPhase` : the statements of `_do_stop`.
* `doStop` and `doStart` : whole runs, against an environment that says what raises.
* `start` and `stop` : the calls of a thread that nobody else interferes with.
-/

namespace P4Net
namespace Network

/-! ### The phases of `_do_stop` -/

/-- The statements of `_do_stop`, one for each collection. -/
inductive StopPhase where
  | reap
  | submit
  | wait
  | clients
  | bmv2
  | veths
  | namespaces
  | unregister
  | facades
deriving DecidableEq, Repr

/-- `_do_stop`. -/
def stopPhases : List StopPhase :=
  [.reap, .submit, .wait, .clients, .bmv2, .veths, .namespaces, .unregister, .facades]

/-- The fields of a `Network`. -/
structure Net where
  life : Lifecycle := {}
  res : Resources := {}

/-- What a phase writes when it ends; `left` are the disconnects that it leaves. -/
def StopPhase.finish (left : List Disconnect) (net : Net) : StopPhase → Net
  | .reap => { net with res := { net.res with spawnedProcesses := [] } }
  | .submit => { net with res := { net.res with asyncDisconnects := left } }
  | .wait => { net with res := { net.res with asyncDisconnects := left } }
  | .clients => { net with res := { net.res with clients := OrderedDict.empty } }
  | .bmv2 => { net with res := { net.res with bmv2Switches := OrderedDict.empty } }
  | .veths => { net with res := { net.res with vethPairs := [] } }
  | .namespaces => { net with res := { net.res with namespaces := OrderedDict.empty } }
  | .unregister => { net with res := { net.res with registered := false } }
  | .facades =>
      { net with
        life := { net.life with running := false }
        res := { net.res with
          runningHosts := OrderedDict.empty
          runningSwitches := OrderedDict.empty
          compileResults := OrderedDict.empty
          hostIfaceIp := OrderedDict.empty
          hostIfaceIp6 := OrderedDict.empty } }

/-! ### The environment -/

/-- How a release ends; `aborts` is an exception that is not an `Exception`. -/
inductive Outcome where
  | ok
  | exception
  | aborts (exc : Raised)
deriving DecidableEq, Repr

/-- What becomes of the async client of a running switch. -/
inductive SubmitOutcome where
  | noClient
  | failed
  | submitted (disconnect : Disconnect)
  | aborts (exc : Raised)
deriving DecidableEq, Repr

/-- What becomes of a submitted disconnect; the last two leave it pending. -/
inductive WaitOutcome where
  | completed
  | failed
  | aborts (exc : Raised)
  | timedOut
  | onCurrentLoop
deriving DecidableEq, Repr

/-- What happens in a teardown, by the position in each loop. -/
structure StopEnv where
  reap : Nat → Outcome := fun _ => .ok
  submit : Nat → SubmitOutcome := fun _ => .noClient
  wait : Nat → WaitOutcome := fun _ => .completed
  client : Nat → Outcome := fun _ => .ok
  bmv2 : Nat → Outcome := fun _ => .ok
  veth : Nat → Outcome := fun _ => .ok
  netns : Nat → Outcome := fun _ => .ok
  unregister : Outcome := .ok

/-- What has been done to a resource. -/
inductive Event where
  | created (resource : Resource)
  | released (resource : Resource)
deriving DecidableEq, Repr

/-- A network, the namespaces of the kernel, and what has been done so far. -/
structure World where
  net : Net := {}
  kernel : List String := []
  events : List Event := []

/-! ### The loops of `_do_stop` -/

/-- A loop of releases: the items that it has come to, and what aborts it. -/
def sweep {α : Type} (outcome : Nat → Outcome) : Nat → List α → List α × Option Raised
  | _, [] => ([], none)
  | i, item :: rest =>
      match outcome i with
      | .aborts exc => ([item], some exc)
      | _ =>
          let (tried, abort) := sweep outcome (i + 1) rest
          (item :: tried, abort)

/-- The loop that submits the disconnects of the async clients. -/
def submitAll {α : Type} (outcome : Nat → SubmitOutcome) :
    Nat → List α → List Disconnect × Option Raised
  | _, [] => ([], none)
  | i, _ :: rest =>
      match outcome i with
      | .aborts exc => ([], some exc)
      | .submitted disconnect =>
          let (disconnects, abort) := submitAll outcome (i + 1) rest
          (disconnect :: disconnects, abort)
      | _ => submitAll outcome (i + 1) rest

/-- The loop that waits for the disconnects: those that stay pending, and what aborts it. -/
def waitAll (outcome : Nat → WaitOutcome) :
    Nat → List Disconnect → List Disconnect × Option Raised
  | _, [] => ([], none)
  | i, disconnect :: rest =>
      match outcome i with
      | .aborts exc => ([], some exc)
      | .timedOut | .onCurrentLoop =>
          let (pending, abort) := waitAll outcome (i + 1) rest
          (disconnect :: pending, abort)
      | _ => waitAll outcome (i + 1) rest

/-- The loop over the namespaces; those that do not exist are passed over. -/
def destroyAll (outcome : Nat → Outcome) : Nat → List String → World → World × Option Raised
  | _, [], w => (w, none)
  | i, name :: rest, w =>
      if name ∈ w.kernel then
        let w' := { w with events := w.events ++ [.released (.netns name)] }
        match outcome i with
        | .aborts exc => (w', some exc)
        | .ok => destroyAll outcome (i + 1) rest { w' with kernel := w.kernel.erase name }
        | .exception => destroyAll outcome (i + 1) rest w'
      else destroyAll outcome (i + 1) rest w

/-- A phase that releases a list of resources. -/
def releasePhase (outcome : Nat → Outcome) (items : List Resource) (phase : StopPhase)
    (w : World) : World × Option Raised :=
  let (tried, abort) := sweep outcome 0 items
  let w' := { w with events := w.events ++ tried.map .released }
  match abort with
  | some exc => (w', some exc)
  | none => ({ w' with net := phase.finish [] w'.net }, none)

/-- Replace the disconnects. -/
def World.setDisconnects (disconnects : List Disconnect) (w : World) : World :=
  { w with net := StopPhase.submit.finish disconnects w.net }

/-- A phase of `_do_stop`. -/
def doPhase (env : StopEnv) (phase : StopPhase) (w : World) : World × Option Raised :=
  match phase with
  | .reap => releasePhase env.reap (w.net.res.spawnedProcesses.map .process) .reap w
  | .submit =>
      let (disconnects, abort) := submitAll env.submit 0 w.net.res.runningSwitches.entries
      (w.setDisconnects (w.net.res.asyncDisconnects ++ disconnects), abort)
  | .wait =>
      match waitAll env.wait 0 w.net.res.asyncDisconnects with
      | (_, some exc) => (w, some exc)
      | (pending, none) => (w.setDisconnects pending, none)
  | .clients => releasePhase env.client (w.net.res.clients.values.map .client) .clients w
  | .bmv2 => releasePhase env.bmv2 (w.net.res.bmv2Switches.values.map .bmv2) .bmv2 w
  | .veths => releasePhase env.veth (w.net.res.vethPairs.map .veth) .veths w
  | .namespaces =>
      match destroyAll env.netns 0 w.net.res.namespaces.keys w with
      | (w', some exc) => (w', some exc)
      | (w', none) => ({ w' with net := StopPhase.namespaces.finish [] w'.net }, none)
  | .unregister =>
      match w.net.res.registered, env.unregister with
      | true, .aborts exc => (w, some exc)
      | true, _ => ({ w with net := StopPhase.unregister.finish [] w.net }, none)
      | false, _ => (w, none)
  | .facades => ({ w with net := StopPhase.facades.finish [] w.net }, none)

/-- A list of phases, up to the first one that is aborted. -/
def runPhases (env : StopEnv) : List StopPhase → World → World × Option Raised
  | [], w => (w, none)
  | phase :: rest, w =>
      match doPhase env phase w with
      | (w', some exc) => (w', some exc)
      | (w', none) => runPhases env rest w'

/-- `_do_stop`. -/
def doStop (env : StopEnv) (w : World) : World × Option Raised :=
  runPhases env stopPhases w

/-! ### `_do_start` -/

/-- A statement of `_do_start`, with its effect on the kernel. -/
def runOp (outcome : Option Raised) (op : StartOp) (w : World) : Except Raised World :=
  match op with
  | .create (.netns name) =>
      if name ∈ w.kernel then .error (.namespaceExists name)
      else
        match outcome with
        | some exc => .error exc
        | none =>
            .ok { w with
              kernel := name :: w.kernel
              events := w.events ++ [.created (.netns name)] }
  | .create resource =>
      match outcome with
      | some exc => .error exc
      | none => .ok { w with events := w.events ++ [.created resource] }
  | op =>
      match op.run outcome w.net.res with
      | .error exc => .error exc
      | .ok res => .ok { w with net := { w.net with res := res } }

/-- A list of statements, up to the first one that raises. -/
def runOps (env : Nat → Option Raised) : Nat → List StartOp → World → World × Option Raised
  | _, [], w => (w, none)
  | i, op :: rest, w =>
      match runOp (env i) op w with
      | .error exc => (w, some exc)
      | .ok w' => runOps env (i + 1) rest w'

/-- `_do_start`; `env i` is the exception of its `i`-th statement. -/
def doStart (env : Nat → Option Raised) (topology : Topology) (options : Options) (w : World) :
    World × Option Raised :=
  match runOps env 0 (startOps1 topology options) w with
  | (w', some exc) => (w', some exc)
  | (w', none) =>
      runOps env (startOps1 topology options).length
        (startOps2 topology w'.net.res.bmv2Switches.entries) w'

/-! ### `start` and `stop` -/

/-- Change the lifecycle of the network. -/
def World.setLife (life : Lifecycle) (w : World) : World :=
  { w with net := { w.net with life := life } }

/-- The `except` and `finally` clauses of `_run_start`. -/
def rollBack (env : StopEnv) (f : Fut) (exc : Raised) (w : World) : World × Option Raised :=
  let (w', abort) := doStop env w
  (w'.setLife (endStart f w'.net.life), some (abort.getD exc))

/-- `_run_start`; the result is the exception that it raises. -/
def runStart (t : ThreadId) (f : Fut) (env : Nat → Option Raised) (stopEnv : StopEnv)
    (topology : Topology) (options : Options) (w : World) :
    World × Option Raised :=
  let w := w.setLife (enterStart t w.net.life)
  match checkStart w.net.life with
  | .error exc => rollBack stopEnv f exc w
  | .ok () =>
      match doStart env topology options w with
      | (w', some exc) => rollBack stopEnv f exc w'
      | (w', none) =>
          match commitStart w'.net.life with
          | .error exc => rollBack stopEnv f exc w'
          | .ok life => (w'.setLife (endStart f life), none)

/-- `start`. -/
def start (t : ThreadId) (env : Nat → Option Raised) (stopEnv : StopEnv)
    (topology : Topology) (options : Options) (w : World) :
    World × Option Raised :=
  match prepareStart t false w.net.life with
  | .error exc => (w, some exc)
  | .ok (f, life) => runStart t f env stopEnv topology options (w.setLife life)

/-- `_finish_stop`; `none` if it would wait for a startup. -/
def finishStop (t : ThreadId) (f : Fut) (env : StopEnv) (w : World) : Option World :=
  if w.net.life.startFuture.isSome && w.net.life.startThread != some t then none
  else
    let (w', abort) := doStop env (w.setLife { w.net.life with stopThread := some t })
    some (w'.setLife { w'.net.life.complete f abort with stopThread := none })

/-- `stop` outside an event loop; `none` if it would wait for ever. -/
def stop (t : ThreadId) (env : StopEnv) (w : World) : Option (World × Option Raised) :=
  let (initiate, f, life) := stopSection (!w.net.res.asyncDisconnects.isEmpty) w.net.life
  let w := w.setLife life
  match if initiate then finishStop t f env w else some w with
  | none => none
  | some w =>
      if w.net.life.stopThread = some t ∨ w.net.life.startThread = some t then some (w, none)
      else (w.net.life.result f).map fun result => (w, result)

end Network
end P4Net
