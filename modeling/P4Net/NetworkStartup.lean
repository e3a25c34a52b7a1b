import P4Net.NetworkTopology

/-!
# The statements of `_do_start`

`_do_start` runs one statement after the other: calls of primitives, which may raise, and
the statements that record what the primitives have created.  Its loops run over the
topology, so the statements are a list that the topology determines; only the loop over
`_bmv2_switches` reads what has been recorded before (`startOps2`).

* `StartOp.run` : one statement.
* `startOps1` and `startOps2` : the statements of a startup.
* `runAll` : a list of statements of which none raises.
-/

namespace P4Net
namespace Network

/-! ### Statements -/

/-- A side of a veth pair. -/
inductive Side where
  | a
  | b
deriving DecidableEq, Repr

/-- The primitives that configure what has been created. -/
inductive Primitive where
  | validate
  | mkdir (path : String)
  | mkdtemp
  | compile (switchName : String)
  | nsExec (netns : String) (argv : List String)
  | sysctl (netns : Option String) (key : String) (value : String)
  | setMac (side : Side) (mac : String)
  | setMtu (side : Side) (mtu : Nat)
  | setUp (side : Side)
  | directionParams (direction : Impairment)
  | netem (netns : Option String) (iface : String)
  | waitUntilReady (switchName : String)
  | setPipelineConfig (switchName : String)
deriving DecidableEq, Repr

/-- A statement of `_do_start`. -/
inductive StartOp where
  | call (primitive : Primitive)
  /-- Construct and create a resource. -/
  | create (resource : Resource)
  /-- Record a resource in its collection. -/
  | record (resource : Resource)
  | recordCompile (result : CompileResult)
  | registerCleanup
  /-- `self._namespaces[name]`. -/
  | needNamespace (name : String)
  /-- `self._compile_results[name]`. -/
  | needCompile (name : String)
  /-- `self._topology.switches[name]`. -/
  | needSwitch (name : String) (found : Bool)
  /-- A statement that raises whenever it is reached. -/
  | fail (exc : Raised)
  | initIface (host : String)
  | noteIface (host iface : String) (ip ip6 : Option String)
  | waitForIpv6Addresses
  | recordHost (name : String) (host : Host)
  | recordSwitch (name : String) (switch : P4Switch)
deriving DecidableEq, Repr

/-- The constructor arguments of `Network` that `_do_start` reads. -/
structure Options where
  logDir : Option String := none
  pcapDir : Option String := none
  skipValidation : Bool := false
deriving DecidableEq, Repr

/-! ### What a statement does -/

/-- A lookup that raises `KeyError`. -/
def need {β : Type} (name : String) (value : Option β) : Except Raised β :=
  match value with
  | some value => .ok value
  | none => .error (.keyError name)

/-- The facade of a host. -/
def runningHost (name : String) (host : Host) (res : Resources) : Except Raised RunningHost := do
  let netns ← need name (res.namespaces.get? name)
  let ifaceIp ← need name (res.hostIfaceIp.get? name)
  let ifaceIp6 ← need name (res.hostIfaceIp6.get? name)
  return ⟨host, netns, ifaceIp.entries, ifaceIp6.entries⟩

/-- The facade of a switch. -/
def runningSwitch (name : String) (switch : P4Switch) (res : Resources) :
    Except Raised RunningSwitch := do
  let bmv2 ← need name (res.bmv2Switches.get? name)
  let client ← need name (res.clients.get? name)
  let compiled ← need name (res.compileResults.get? name)
  return ⟨switch, bmv2, client, compiled⟩

/-- Some interface waits for its IPv6 address. -/
def awaitsIpv6 (res : Resources) : Bool :=
  res.hostIfaceIp6.values.any fun interfaces => interfaces.values.any Option.isSome

/-- The statement calls out of the module. -/
def StartOp.mayRaise (res : Resources) : StartOp → Bool
  | .call _ => true
  | .create _ => true
  | .registerCleanup => !res.registered
  | .waitForIpv6Addresses => awaitsIpv6 res
  | _ => false

/-- The statement after its primitive has returned. -/
def StartOp.exec (res : Resources) : StartOp → Except Raised Resources
  | .call _ => .ok res
  | .create _ => .ok res
  | .record resource => .ok { res with toHeld := res.toHeld.record resource }
  | .recordCompile result =>
      .ok { res with compileResults := res.compileResults.set result.switchName result }
  | .registerCleanup => .ok { res with registered := true }
  | .needNamespace name => (need name (res.namespaces.get? name)).map fun _ => res
  | .needCompile name => (need name (res.compileResults.get? name)).map fun _ => res
  | .needSwitch name found => if found then .ok res else .error (.keyError name)
  | .fail exc => .error exc
  | .initIface host =>
      .ok { res with
        hostIfaceIp := res.hostIfaceIp.set host OrderedDict.empty
        hostIfaceIp6 := res.hostIfaceIp6.set host OrderedDict.empty }
  | .noteIface host iface ip ip6 => do
      let ips ← need host (res.hostIfaceIp.get? host)
      let ip6s ← need host (res.hostIfaceIp6.get? host)
      return { res with
        hostIfaceIp := res.hostIfaceIp.set host (ips.set iface ip)
        hostIfaceIp6 := res.hostIfaceIp6.set host (ip6s.set iface ip6) }
  | .waitForIpv6Addresses => .ok res
  | .recordHost name host =>
      (runningHost name host res).map fun rh =>
        { res with runningHosts := res.runningHosts.set name rh }
  | .recordSwitch name switch =>
      (runningSwitch name switch res).map fun rs =>
        { res with runningSwitches := res.runningSwitches.set name rs }

/-- One statement; `outcome` is the exception of its primitive, if it raises one. -/
def StartOp.run (outcome : Option Raised) (res : Resources) (op : StartOp) :
    Except Raised Resources :=
  match outcome with
  | some exc => if op.mayRaise res then .error exc else op.exec res
  | none => op.exec res

/-! ### The statements of a startup -/

/-- `Network._configure_host_iface`. -/
def configureHostIface
    (netns iface : String) (ip ip6 mac : Option String) (mtu : Option Nat) :
    List StartOp :=
  let set (argv : List String) := StartOp.call (.nsExec netns argv)
  (mac.toList.map fun mac => set ["ip", "link", "set", iface, "address", mac]) ++
    (mtu.toList.map fun mtu => set ["ip", "link", "set", iface, "mtu", toString mtu]) ++
    (ip.toList.map fun ip => set ["ip", "addr", "add", ip, "dev", iface]) ++
    (ip6.toList.map fun ip6 => set ["ip", "-6", "addr", "add", ip6, "dev", iface]) ++
    [set ["ip", "link", "set", iface, "up"]]

/-- `disable_ipv6`. -/
def disableIpv6 (netns : Option String) (iface : String) : List StartOp :=
  [.call (.sysctl netns s!"net.ipv6.conf.{iface}.disable_ipv6" "1")]

/-- `enable_ipv6` with its default arguments. -/
def enableIpv6 (netns : Option String) (iface : String) : List StartOp :=
  [.call (.sysctl netns s!"net.ipv6.conf.{iface}.disable_ipv6" "0"),
    .call (.sysctl netns s!"net.ipv6.conf.{iface}.accept_ra" "0"),
    .call (.sysctl netns s!"net.ipv6.conf.{iface}.autoconf" "0")]

/-- The part of `_wire_link` for one endpoint; the hosts that have been seen are returned. -/
def wireEndpoint
    (node : Node) (side : Side) (endpoint : LinkEndpoint) (iface : String)
    (mtu : Option Nat) (seen : List String) :
    List StartOp × List String :=
  match node with
  | .host host =>
      let firstLink := decide (host.name ∉ seen)
      let (ip, ip6) := effectiveHostAddresses host endpoint firstLink
      let mac := endpoint.mac.or (if firstLink then host.mac else none)
      ([.noteIface host.name iface ip ip6, .needNamespace host.name] ++
          (if ip6.isSome then enableIpv6 (some host.name) iface
            else disableIpv6 (some host.name) iface) ++
          configureHostIface host.name iface ip ip6 mac mtu,
        host.name :: seen)
  | .switch _ =>
      (disableIpv6 none iface ++
          (endpoint.mac.toList.map fun mac => .call (.setMac side mac)) ++
          (mtu.toList.map fun mtu => .call (.setMtu side mtu)) ++
          [.call (.setUp side)],
        seen)

/-- The namespace of an endpoint. -/
def Node.netns : Node → Option String
  | .host node => some node.name
  | .switch _ => none

/-- The part of `_wire_link` for the impairments of one direction. -/
def wireDirection (link : Link) (direction : Impairment) (node : Node) (iface : String) :
    List StartOp :=
  .call (.directionParams direction) ::
    if link.impaired direction then
      node.netns.toList.map .needNamespace ++ [.call (.netem node.netns iface)]
    else []

/-- The interface names and the nodes of a link. -/
def resolveLink (topology : Topology) (link : Link) :
    Except Raised ((String × Node) × (String × Node)) :=
  match link.a.ifaceName, link.b.ifaceName with
  | some nameA, some nameB =>
      match topology.node link.a.node, topology.node link.b.node with
      | some nodeA, some nodeB => .ok ((nameA, nodeA), (nameB, nodeB))
      | none, _ => .error (.noNode link.a.node)
      | some _, none => .error (.noNode link.b.node)
  | _, _ => .error .assertion

/-- The veth pair between two interfaces. -/
def vethBetween (a b : String × Node) : VethPair :=
  ⟨a.1, b.1, a.2.netns, b.2.netns⟩

/-- `_wire_link`. -/
def wireLink (topology : Topology) (link : Link) (seen : List String) :
    List StartOp × List String :=
  match resolveLink topology link with
  | .error exc => ([.fail exc], seen)
  | .ok (a, b) =>
      let veth := vethBetween a b
      let (opsA, seenA) := wireEndpoint a.2 .a link.a a.1 link.mtu seen
      let (opsB, seenB) := wireEndpoint b.2 .b link.b b.1 link.mtu seenA
      ((a.2.netns.toList ++ b.2.netns.toList).map .needNamespace ++
          [.create (.veth veth), .record (.veth veth)] ++ opsA ++ opsB ++
          wireDirection link link.aToB a.2 a.1 ++ wireDirection link link.bToA b.2 b.1,
        seenB)

/-- The loop over the links. -/
def wireLinks (topology : Topology) : List Link → List String → List StartOp
  | [], _ => []
  | link :: rest, seen =>
      let (ops, seen') := wireLink topology link seen
      ops ++ wireLinks topology rest seen'

/-- The log and pcap directories. -/
def directoryOps (options : Options) : List StartOp :=
  [match options.logDir with
    | some path => .call (.mkdir path)
    | none => .call .mkdtemp] ++
    options.pcapDir.toList.map fun path => .call (.mkdir path)

/-- Compile the program of a switch. -/
def compileOps (entry : String × P4Switch) : List StartOp :=
  [.call (.compile entry.1), .recordCompile ⟨entry.1, entry.2.p4Src⟩]

/-- Create the namespace of a host. -/
def namespaceOps (name : String) : List StartOp :=
  [.create (.netns name), .record (.netns name),
    .call (.nsExec name ["ip", "link", "set", "lo", "up"])]

/-- A default route, if there is one; an empty string counts as none. -/
def routeOp (name : String) (argv : List String) (route : Option String) : List StartOp :=
  (route.toList.filter fun gateway => gateway ≠ "").flatMap fun gateway =>
    [.needNamespace name, .call (.nsExec name (argv ++ [gateway]))]

/-- The default routes of a host. -/
def routeOps (entry : String × Host) : List StartOp :=
  routeOp entry.1 ["ip", "route", "add", "default", "via"] entry.2.defaultRoute ++
    routeOp entry.1 ["ip", "-6", "route", "add", "default", "via"] entry.2.defaultRoute6

/-- The BMv2 process of a switch. -/
def bmv2For (topology : Topology) (options : Options) (name : String) (sw : P4Switch) :
    BMv2Switch where
  name := name
  deviceId := sw.deviceId.getD 0
  grpcPort := sw.grpcPort.getD 50051
  thriftPort := sw.thriftPort.getD 9090
  compiled := ⟨name, sw.p4Src⟩
  portToIface := (portToIfaceFor topology name).entries
  pcap := options.pcapDir.isSome && sw.pcapEnabled
  cpuPort := sw.cpuPort
  logLevel := sw.logLevel

/-- Launch the BMv2 process of a switch. -/
def bmv2Ops (topology : Topology) (options : Options) (entry : String × P4Switch) :
    List StartOp :=
  let bmv2 := bmv2For topology options entry.1 entry.2
  [.needCompile entry.1, .create (.bmv2 bmv2), .record (.bmv2 bmv2),
    .call (.waitUntilReady entry.1)]

/-- `_do_start` up to the loop over `_bmv2_switches`. -/
def startOps1 (topology : Topology) (options : Options) : List StartOp :=
  (if options.skipValidation then [] else [.call .validate]) ++
    directoryOps options ++
    topology.switches.entries.flatMap compileOps ++
    [.registerCleanup] ++
    topology.hosts.keys.flatMap namespaceOps ++
    topology.hosts.keys.map .initIface ++
    wireLinks topology topology.links [] ++
    topology.hosts.entries.flatMap routeOps ++
    topology.switches.entries.flatMap (bmv2Ops topology options)

/-- The P4Runtime client of a BMv2 process. -/
def clientFor (topology : Topology) (entry : String × BMv2Switch) : P4RuntimeClient where
  switchName := entry.1
  grpcPort := entry.2.grpcPort
  deviceId := ((topology.switches.get? entry.1).bind P4Switch.deviceId).getD 0
  thriftPort := entry.2.thriftPort

/-- Connect the client of a BMv2 process and push its pipeline. -/
def clientOps (topology : Topology) (entry : String × BMv2Switch) : List StartOp :=
  let client := clientFor topology entry
  [.needSwitch entry.1 (topology.switches.get? entry.1).isSome,
    .create (.client client), .record (.client client),
    .needCompile entry.1, .call (.setPipelineConfig entry.1)]

/-- `_do_start` from the loop over `_bmv2_switches` on. -/
def startOps2 (topology : Topology) (bmv2Switches : List (String × BMv2Switch)) :
    List StartOp :=
  bmv2Switches.flatMap (clientOps topology) ++
    [.waitForIpv6Addresses] ++
    topology.hosts.entries.map (fun entry => .recordHost entry.1 entry.2) ++
    topology.switches.entries.map (fun entry => .recordSwitch entry.1 entry.2)

/-- A list of statements of which none raises. -/
def runAll : List StartOp → Resources → Except Raised Resources
  | [], res => .ok res
  | op :: rest, res =>
      match op.exec res with
      | .error exc => .error exc
      | .ok res' => runAll rest res'

end Network
end P4Net
