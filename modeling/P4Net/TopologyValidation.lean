import P4Net.ClaimScans
import P4Net.TopologyBuilder

/-!
# `Topology.validate`

The passes of `validate`, each as the list of the problems that it reports.

* `Problem` : a line of the error text, by what it names.
* `validate` : all problems, in order; `validate()` returns iff there is none.
* `effectiveAddresses` : the addresses that the last pass reasons about.
-/

namespace P4Net
namespace Topo

open TextLiterals BigEndian Claims

/-! ### Problems -/

/-- A service port of a switch. -/
inductive Service where
  | grpc
  | thrift
deriving DecidableEq, Repr

/-- An address family. -/
inductive Family where
  | ipv4
  | ipv6
deriving DecidableEq, Repr

/-- An endpoint of a link, by its position. -/
structure Place where
  link : Nat
  side : Side
  node : String
deriving DecidableEq, Repr

/-- A problem that `validate` reports. -/
inductive Problem where
  | keyMismatch (kind : NodeKind) (key name : String)
  | sharedName (key : String)
  | unknownNode (place : Place)
  | noPort (place : Place)
  | switchAddress (place : Place) (family : Family) (address : String)
  | portRange (place : Place) (port : Nat)
  | cpuPort (place : Place) (port : Nat)
  | selfLink (link : Nat) (node : String)
  | portCollision (node : String) (port first second : Nat)
  | deviceIdCollision (switch owner : String) (deviceId : Nat)
  | servicePortCollision (switch : String) (service : Service) (owner : String)
      (ownerService : Service) (port : Nat)
  | noIfaceName (place : Place)
  | ifaceNameNotString (place : Place)
  | invalidIfaceName (place : Place) (error : IfnameError)
  | loopback (place : Place)
  | ifaceCollision (scope : Option String) (name : String) (owner second : Place)
  | invalidAddress (family : Family) (node address : String)
  | addressCollision (family : Family) (address : Bytes) (hosts : List String)
deriving DecidableEq, Repr

/-! ### Nodes -/

/-- The entries of a mapping whose key is not the name of the node. -/
def keyProblems {β : Type} (kind : NodeKind) (name : β → String) (d : OrderedDict String β) :
    List Problem :=
  d.entries.flatMap fun e =>
    if e.1 ≠ name e.2 then [.keyMismatch kind e.1 (name e.2)] else []

/-- The first pass: keys and names. -/
def nodeProblems (t : Topology) : List Problem :=
  keyProblems .host (fun h => h.name) t.hosts ++
    keyProblems .switch (fun s => s.name) t.switches ++
    t.hosts.keys.flatMap fun key => if key ∈ t.switches.keys then [.sharedName key] else []

/-! ### Links -/

/-- Report a problem if the condition holds. -/
def reportIf (c : Prop) [Decidable c] (problem : Problem) : List Problem :=
  if c then [problem] else []

/-- The problems of an endpoint of a link. -/
def endpointProblems (t : Topology) (i : Nat) (side : Side) (ep : LinkEndpoint String) :
    List Problem :=
  let place : Place := ⟨i, side, ep.node⟩
  let switch := t.switches.get? ep.node
  reportIf (ep.node ∉ t.hosts.keys ∧ ep.node ∉ t.switches.keys) (.unknownNode place) ++
    reportIf (ep.port = none) (.noPort place) ++
    (match switch with
      | some s =>
          (ep.ip.toList.map fun address => .switchAddress place .ipv4 address) ++
            (ep.ip6.toList.map fun address => .switchAddress place .ipv6 address) ++
            (match ep.port with
              | some port =>
                  reportIf (510 < port) (.portRange place port) ++
                    reportIf (s.cpuPort = some port) (.cpuPort place port)
              | none => [])
      | none => [])

/-- The problems of a link. -/
def linkProblems (t : Topology) (link : Link) (i : Nat) : List Problem :=
  endpointProblems t i .a link.a ++ endpointProblems t i .b link.b ++
    reportIf (link.a.node = link.b.node) (.selfLink i link.a.node)

/-- An endpoint with its position. -/
structure Placed where
  place : Place
  ep : LinkEndpoint String

/-- The endpoints of a link, with their positions. -/
def placedIn (link : Link) (i : Nat) : List Placed :=
  [⟨⟨i, .a, link.a.node⟩, link.a⟩, ⟨⟨i, .b, link.b.node⟩, link.b⟩]

/-- The endpoints of all links, with their positions. -/
def placed (t : Topology) : List Placed :=
  t.links.zipIdx.flatMap fun e => placedIn e.1 e.2

/-- The claim of a port of a node. -/
def portItem (p : Placed) : Item (String × Nat) Nat Problem :=
  match p.ep.port with
  | some port =>
      .claim (p.ep.node, port) p.place.link fun first =>
        .portCollision p.ep.node port first p.place.link
  | none => .skip

/-! ### Device ids and service ports -/

/-- Device ids have a dictionary of their own; both services share one. -/
inductive SwitchKey where
  | deviceId (n : Nat)
  | servicePort (n : Nat)
deriving DecidableEq, Repr

/-- The claims of a switch. -/
def switchItems (s : P4Switch) : List (Item SwitchKey (String × Service) Problem) :=
  -- The owner of a device id is the name alone; its service is not read.
  (s.deviceId.toList.map fun n =>
      .claim (.deviceId n) (s.name, .grpc) fun owner => .deviceIdCollision s.name owner.1 n) ++
    (s.grpcPort.toList.map (serviceItem .grpc)) ++ (s.thriftPort.toList.map (serviceItem .thrift))
where
  serviceItem (service : Service) (n : Nat) : Item SwitchKey (String × Service) Problem :=
    .claim (.servicePort n) (s.name, service) fun owner =>
      .servicePortCollision s.name service owner.1 owner.2 n

/-! ### Interface names -/

/-- The namespace of an endpoint: that of its host, or the root namespace. -/
def scopeOf (t : Topology) (node : String) : Option (Option String) :=
  if node ∈ t.hosts.keys then some (some node)
  else if node ∈ t.switches.keys then some none
  else none

/-- The claim of an interface name. -/
def ifaceItem (t : Topology) (p : Placed) : Item (Option String × String) Place Problem :=
  match p.ep.ifaceName with
  | .none => .report (.noIfaceName p.place)
  | .str name =>
      if name = "" then .report (.noIfaceName p.place)
      else
        match validateIfname name with
        | .error e => .report (.invalidIfaceName p.place e)
        | .ok () =>
            if name = "lo" then .report (.loopback p.place)
            else
              match scopeOf t p.ep.node with
              | some scope =>
                  .claim (scope, name) p.place fun owner => .ifaceCollision scope name owner p.place
              | none => .skip
  | _ => .report (.ifaceNameNotString p.place)

/-! ### Effective addresses -/

/-- The addresses of an endpoint of a host. -/
structure Effective where
  host : Host
  ep : LinkEndpoint String
  ipv4 : Option String
  ipv6 : Option String

/-- `_effective_host_addresses`. -/
def effectiveHostAddresses (host : Host) (ep : LinkEndpoint String) (firstLink : Bool) :
    Option String × Option String :=
  let ipv4Default := if firstLink then host.ip else none
  let ipv6Default := if firstLink then host.ip6 else none
  (ep.ip.or ipv4Default, ep.ip6.or ipv6Default)

/-- The loop over the endpoints, given the names of the hosts that have been seen. -/
def effectiveFrom (t : Topology) : List String → List (LinkEndpoint String) → List Effective
  | _, [] => []
  | seen, ep :: rest =>
      match t.hosts.get? ep.node with
      | none => effectiveFrom t seen rest
      | some host =>
          let addresses := effectiveHostAddresses host ep (decide (host.name ∉ seen))
          ⟨host, ep, addresses.1, addresses.2⟩ :: effectiveFrom t (host.name :: seen) rest

/-- The addresses of all endpoints of hosts. -/
def effectiveAddresses (t : Topology) : List Effective := effectiveFrom t [] t.endpoints

/-- `ipaddress.IPv4Interface(text).ip` or `ipaddress.IPv6Interface(text).ip`. -/
def Family.parse (family : Family) (text : String) : Option Bytes :=
  match family with
  | .ipv4 => (ipv4Interface text.toList).map Prod.fst
  | .ipv6 => (ipv6Interface text.toList).map Prod.fst

/-- The address of a family. -/
def Effective.address (e : Effective) : Family → Option String
  | .ipv4 => e.ipv4
  | .ipv6 => e.ipv6

/-- The report of an address that cannot be read. -/
def unreadable (family : Family) (e : Effective) : List Problem :=
  match e.address family with
  | some text => reportIf (family.parse text = none) (.invalidAddress family e.ep.node text)
  | none => []

/-- The addresses of a family that can be read, with the names of their hosts. -/
def claimedAddresses (family : Family) (es : List Effective) : List (Bytes × String) :=
  es.filterMap fun e =>
    ((e.address family).bind family.parse).map fun address => (address, e.host.name)

/-- `owners.setdefault(address, set()).add(host)`. -/
def addOwner (owners : OrderedDict Bytes (List String)) (claim : Bytes × String) :
    OrderedDict Bytes (List String) :=
  let hosts := (owners.get? claim.1).getD []
  owners.set claim.1 (if claim.2 ∈ hosts then hosts else hosts ++ [claim.2])

/-- The hosts of each address. -/
def ownersOf (claims : List (Bytes × String)) : OrderedDict Bytes (List String) :=
  claims.foldl addOwner OrderedDict.empty

/-- The addresses that more than one host uses. -/
def collisions (family : Family) (es : List Effective) : List Problem :=
  (ownersOf (claimedAddresses family es)).entries.flatMap fun e =>
    reportIf (1 < e.2.length) (.addressCollision family e.1 e.2)

/-- The last pass: effective addresses. -/
def addressProblems (t : Topology) : List Problem :=
  let es := effectiveAddresses t
  es.flatMap (fun e => unreadable .ipv4 e ++ unreadable .ipv6 e) ++
    collisions .ipv4 es ++ collisions .ipv6 es

/-! ### Validation -/

/-- The problems that `Topology.validate` reports; it raises unless there is none. -/
def Topology.validate (t : Topology) : List Problem :=
  nodeProblems t ++
    (t.links.zipIdx.flatMap fun e => linkProblems t e.1 e.2) ++
    scan OrderedDict.empty ((placed t).map portItem) ++
    scan OrderedDict.empty (t.switches.values.flatMap switchItems) ++
    scan OrderedDict.empty ((placed t).map (ifaceItem t)) ++
    addressProblems t

end Topo
end P4Net
