import P4Net.OrderedDict

/-!
# Topologies and the state of a network

The description that a `Network` brings up, and the collections that it fills while it
does so.

* `Topology` : hosts, switches and links of `topo/`.
* `Held` and `Resources` : the collections of `network/orchestrator.py`.
* `Lifecycle` : the futures and thread ids that serialize startup and shutdown, with one
  function for each section of `_stop_lock`.
-/

namespace P4Net
namespace Network

/-! ### Topologies -/

/-- `Host`. -/
structure Host where
  name : String
  ip : Option String := none
  mac : Option String := none
  defaultRoute : Option String := none
  ip6 : Option String := none
  defaultRoute6 : Option String := none
deriving DecidableEq, Repr

/-- `P4Switch`. -/
structure P4Switch where
  name : String
  p4Src : String
  arch : String := "v1model"
  deviceId : Option Nat := none
  grpcPort : Option Nat := none
  thriftPort : Option Nat := none
  cpuPort : Option Nat := none
  logLevel : String := "info"
  pcapEnabled : Bool := true
deriving DecidableEq, Repr

/-- `LinkEndpoint`. -/
structure LinkEndpoint where
  node : String
  port : Option Nat := none
  ifaceName : Option String := none
  ip : Option String := none
  mac : Option String := none
  ip6 : Option String := none
deriving DecidableEq, Repr

/-- The impairments that apply to one direction of a link: its own and the symmetric ones. -/
structure Impairment where
  bandwidth : Option String := none
  delay : Option String := none
  delayExtra : Option String := none
  jitter : Option String := none
  jitterExtra : Option String := none
  lossPct : Option String := none
  lossPctExtra : Option String := none
deriving DecidableEq, Repr

/-- `Link`; a loss is kept as it was written. -/
structure Link where
  a : LinkEndpoint
  b : LinkEndpoint
  symmetric : Impairment := {}
  aToB : Impairment := {}
  bToA : Impairment := {}
  mtu : Option Nat := none
deriving DecidableEq, Repr

/-- `Topology`. -/
structure Topology where
  hosts : OrderedDict String Host := OrderedDict.empty
  switches : OrderedDict String P4Switch := OrderedDict.empty
  links : List Link := []

/-- A node of a topology. -/
inductive Node where
  | host (host : Host)
  | switch (switch : P4Switch)
deriving DecidableEq, Repr

/-- `Topology.node`. -/
def Topology.node (topology : Topology) (name : String) : Option Node :=
  match topology.hosts.get? name with
  | some host => some (.host host)
  | none => (topology.switches.get? name).map .switch

/-- `_effective_host_addresses`. -/
def effectiveHostAddresses
    (host : Host) (endpoint : LinkEndpoint) (firstLink : Bool) :
    Option String × Option String :=
  let ipv4Default := if firstLink then host.ip else none
  let ipv6Default := if firstLink then host.ip6 else none
  (endpoint.ip.or ipv4Default, endpoint.ip6.or ipv6Default)

/-- The result of `_resolve_dir_str` or `_resolve_dir_loss` is not `None`. -/
def resolvesDir (sym perDir extra : Option String) : Bool :=
  (extra.isSome && sym.isSome) || perDir.isSome || sym.isSome

/-- Some parameter that `_direction_params` returns is not `None`. -/
def Link.impaired (link : Link) (direction : Impairment) : Bool :=
  -- An empty `bandwidth_a_to_b` or `bandwidth_b_to_a` counts as unset.
  ((direction.bandwidth.any fun rate => rate ≠ "") || link.symmetric.bandwidth.isSome) ||
    resolvesDir link.symmetric.delay direction.delay direction.delayExtra ||
    resolvesDir link.symmetric.jitter direction.jitter direction.jitterExtra ||
    resolvesDir link.symmetric.lossPct direction.lossPct direction.lossPctExtra

/-- `_port_to_iface_for`. -/
def portToIfaceFor (topology : Topology) (switchName : String) : OrderedDict Nat String :=
  topology.links.foldl
    (fun result link =>
      [link.a, link.b].foldl
        (fun result ep =>
          match ep.port, ep.ifaceName with
          | some port, some iface =>
              if ep.node = switchName then result.set port iface else result
          | _, _ => result)
        result)
    OrderedDict.empty

/-! ### Resources -/

/-- `VethPair`. -/
structure VethPair where
  nameA : String
  nameB : String
  namespaceA : Option String
  namespaceB : Option String
deriving DecidableEq, Repr

/-- `CompileResult`, by the program and the switch that it was compiled for. -/
structure CompileResult where
  switchName : String
  p4Src : String
deriving DecidableEq, Repr

/-- `BMv2Switch`, by the arguments of its constructor. -/
structure BMv2Switch where
  name : String
  deviceId : Nat
  grpcPort : Nat
  thriftPort : Nat
  compiled : CompileResult
  portToIface : List (Nat × String)
  pcap : Bool
  cpuPort : Option Nat
  logLevel : String
deriving DecidableEq, Repr

/-- `P4RuntimeClient`, by the arguments of its constructor. -/
structure P4RuntimeClient where
  switchName : String
  grpcPort : Nat
  deviceId : Nat
  thriftPort : Nat
deriving DecidableEq, Repr

/-- `RunningHost`. -/
structure RunningHost where
  host : Host
  netns : String
  ifaceIp : List (String × Option String)
  ifaceIp6 : List (String × Option String)
deriving DecidableEq, Repr

/-- `RunningSwitch`. -/
structure RunningSwitch where
  switch : P4Switch
  bmv2 : BMv2Switch
  client : P4RuntimeClient
  compiled : CompileResult
deriving DecidableEq, Repr

/-- What is acquired during startup and released during shutdown. -/
inductive Resource where
  | process (pid : Nat)
  | client (client : P4RuntimeClient)
  | bmv2 (bmv2 : BMv2Switch)
  | veth (veth : VethPair)
  | netns (name : String)
deriving DecidableEq, Repr

/-- A disconnect that runs on the event loop of its client. -/
structure Disconnect where
  switchName : String
  loop : Nat
  future : Nat
deriving DecidableEq, Repr

/-- The collections of a `Network` whose entries have to be released. -/
structure Held where
  namespaces : OrderedDict String String := OrderedDict.empty
  vethPairs : List VethPair := []
  bmv2Switches : OrderedDict String BMv2Switch := OrderedDict.empty
  clients : OrderedDict String P4RuntimeClient := OrderedDict.empty
  spawnedProcesses : List Nat := []

/-- Put a resource into its collection. -/
def Held.record (held : Held) : Resource → Held
  | .process pid => { held with spawnedProcesses := held.spawnedProcesses ++ [pid] }
  | .client client => { held with clients := held.clients.set client.switchName client }
  | .bmv2 bmv2 => { held with bmv2Switches := held.bmv2Switches.set bmv2.name bmv2 }
  | .veth veth => { held with vethPairs := held.vethPairs ++ [veth] }
  | .netns name => { held with namespaces := held.namespaces.set name name }

/-- The collections of a `Network`. -/
structure Resources extends Held where
  registered : Bool := false
  compileResults : OrderedDict String CompileResult := OrderedDict.empty
  runningHosts : OrderedDict String RunningHost := OrderedDict.empty
  runningSwitches : OrderedDict String RunningSwitch := OrderedDict.empty
  hostIfaceIp : OrderedDict String (OrderedDict String (Option String)) := OrderedDict.empty
  hostIfaceIp6 : OrderedDict String (OrderedDict String (Option String)) := OrderedDict.empty
  asyncDisconnects : List Disconnect := []

/-- No resource, no compile result and no running node is recorded. -/
structure Resources.Empty (res : Resources) : Prop where
  namespaces : res.namespaces = OrderedDict.empty
  vethPairs : res.vethPairs = []
  compileResults : res.compileResults = OrderedDict.empty
  bmv2Switches : res.bmv2Switches = OrderedDict.empty
  clients : res.clients = OrderedDict.empty
  runningHosts : res.runningHosts = OrderedDict.empty
  runningSwitches : res.runningSwitches = OrderedDict.empty
  hostIfaceIp : res.hostIfaceIp = OrderedDict.empty
  hostIfaceIp6 : res.hostIfaceIp6 = OrderedDict.empty

/-- Every node and every link of the topology has its resources recorded. -/
structure Resources.Full (topology : Topology) (res : Resources) : Prop where
  namespaces : res.namespaces.keys = topology.hosts.keys
  runningHosts : res.runningHosts.keys = topology.hosts.keys
  bmv2Switches : res.bmv2Switches.keys = topology.switches.keys
  clients : res.clients.keys = topology.switches.keys
  runningSwitches : res.runningSwitches.keys = topology.switches.keys
  vethPairs : res.vethPairs.length = topology.links.length

/-! ### The lifecycle -/

/-- A `Future` of the network. -/
abbrev Fut := Nat

/-- `threading.get_ident()`. -/
abbrev ThreadId := Nat

/-- The exceptions of `start` and `stop`. -/
inductive Raised where
  | alreadyRunning
  | shutdownRunning
  | interrupted
  | noNode (name : String)
  | keyError (key : String)
  | assertion
  | namespaceExists (name : String)
  | cancelled
  | disconnectsPending
  /-- An exception of a primitive. -/
  | primitive (code : Nat)
deriving DecidableEq, Repr

/-- The fields that `_stop_lock` protects; `result f` is `none` while `f` is not done. -/
structure Lifecycle where
  running : Bool := false
  startFuture : Option Fut := none
  startThread : Option ThreadId := none
  stopFuture : Option Fut := none
  stopThread : Option ThreadId := none
  nextFuture : Fut := 0
  result : Fut → Option (Option Raised) := fun _ => none

/-- `Future.done`. -/
def Lifecycle.isDone (life : Lifecycle) (f : Fut) : Bool := (life.result f).isSome

/-- `Future.set_result` and `Future.set_exception`. -/
def Lifecycle.complete (f : Fut) (result : Option Raised) (life : Lifecycle) : Lifecycle :=
  { life with result := Function.update life.result f (some result) }

/-- A stop has been requested and its future is not done. -/
def Lifecycle.stopPending (life : Lifecycle) : Bool :=
  life.stopFuture.any fun f => !life.isDone f

/-- `_prepare_start`. -/
def prepareStart (t : ThreadId) (background : Bool) (life : Lifecycle) :
    Except Raised (Fut × Lifecycle) :=
  if life.running || life.startFuture.isSome then .error .alreadyRunning
  else if life.stopPending then .error .shutdownRunning
  else
    .ok (life.nextFuture,
      { life with
        stopFuture := none
        startThread := if background then none else some t
        startFuture := some life.nextFuture
        nextFuture := life.nextFuture + 1 })

/-- `_end_start`. -/
def endStart (f : Fut) (life : Lifecycle) : Lifecycle :=
  { life.complete f none with startFuture := none, startThread := none }

/-- The first section of `_run_start`. -/
def enterStart (t : ThreadId) (life : Lifecycle) : Lifecycle :=
  { life with startThread := some t }

/-- The section of `_run_start` before `_do_start`. -/
def checkStart (life : Lifecycle) : Except Raised Unit :=
  if life.stopFuture.isSome then .error .interrupted else .ok ()

/-- The section of `_run_start` after `_do_start`. -/
def commitStart (life : Lifecycle) : Except Raised Lifecycle :=
  if life.stopFuture.isSome then .error .interrupted else .ok { life with running := true }

/-- The section of `stop`: whether this call initiates the shutdown, and its future. -/
def stopSection (pending : Bool) (life : Lifecycle) : Bool × Fut × Lifecycle :=
  let initiate :=
    (true, life.nextFuture,
      { life with
        stopFuture := some life.nextFuture
        nextFuture := life.nextFuture + 1 })
  match life.stopFuture with
  | none => initiate
  | some f => if life.isDone f && pending then initiate else (false, f, life)

end Network
end P4Net
