import P4Net.InterfaceLiterals
import P4Net.NetworkTopology
import P4Net.PythonObjects

/-!
# Hosts and switches

`Host` and `P4Switch` as their constructors leave them.  A descriptor carries the facts
that `__post_init__` has checked, and a constructor is the partial inverse of the fields
of the descriptors (`Host.make_eq_ok_iff`, `P4Switch.make_eq_ok_iff`): it accepts exactly
the fields of a valid descriptor and returns that descriptor.
-/

namespace P4Net
namespace Topo

open TextLiterals PosixPaths

/-! ### Errors -/

inductive NodeKind where
  | host
  | switch
deriving DecidableEq, Repr

/-- The direction of an impairment. -/
inductive Direction where
  | aToB
  | bToA
deriving DecidableEq, Repr

/-- A side of a link. -/
inductive Side where
  | a
  | b
deriving DecidableEq, Repr

/-- A `TopologyError`, by what its text names, or an error of Python itself. -/
inductive Exc where
  | typeError
  | attributeError
  | keyError (key : String)
  | invalidName (kind : NodeKind) (name : Value)
  | notString (owner : Value) (field : String) (value : Value)
  | invalidAddress (field : String) (value : String)
  | invalidMac (value : Value)
  | routeRequires (name : String) (field base : String)
  | p4Suffix (path : Path)
  | unsupportedArch (arch : Value)
  | notInt (field : String) (value : Value)
  | outOfRange (field : String) (value : Int)
  | invalidLogLevel (value : Value)
  | notBool (field : String) (value : Value)
  | invalidPort (value : Value)
  | endpointNode (side : Side)
  | invalidLoss (field : String) (value : Value)
  | bothForms (param : String)
  | jitterRequires (field : String)
  | lossRange (field : String) (value : Number)
  | bothDirected (param : String) (direction : Direction)
  | extraRequires (param : String) (direction : Direction)
  | negativeExtra (direction : Direction) (value : Number)
  | nameExists (name : Value)
  | noNode (name : String)
  | noSwitch (name : String)
  | notPartOf (kind : NodeKind) (name : String)
  | badReference
  | switchPortRange (name : String) (port : Nat)
  | cpuPortUsed (name : String) (port : Nat)
  | noFreePort (name : String)
  | invalidIfname (error : IfnameError)
  | switchAddress (argument : String)
deriving Repr

/-! ### Hosts -/

/-- What `Host.__post_init__` checks. -/
structure HostOk (h : Network.Host) : Prop where
  name : nameRe h.name.toList = true
  ip : ∀ ip ∈ h.ip, (ipv4Interface ip.toList).isSome
  mac : ∀ mac ∈ h.mac, fullmatchMac mac.toList = true
  routeNeedsIp : h.defaultRoute.isSome → h.ip.isSome
  defaultRoute : ∀ route ∈ h.defaultRoute, (ipv4Packed route.toList).isSome
  ip6NoDot : ∀ ip6 ∈ h.ip6, '.' ∉ ip6.toList
  ip6 : ∀ ip6 ∈ h.ip6, (ipv6Interface ip6.toList).isSome
  route6NeedsIp6 : h.defaultRoute6.isSome → h.ip6.isSome
  defaultRoute6 : ∀ route ∈ h.defaultRoute6, (ipv6Packed route.toList).isSome

/-- `Host`. -/
structure Host extends Network.Host where
  ok : HostOk toHost
deriving DecidableEq, Repr

/-- The arguments of `Host`. -/
structure HostArgs where
  name : Value
  ip : Value := .none
  mac : Value := .none
  defaultRoute : Value := .none
  ip6 : Value := .none
  defaultRoute6 : Value := .none

/-- The fields of a host, as objects. -/
def hostArgs (h : Network.Host) : HostArgs where
  name := .str h.name
  ip := .ofOptStr h.ip
  mac := .ofOptStr h.mac
  defaultRoute := .ofOptStr h.defaultRoute
  ip6 := .ofOptStr h.ip6
  defaultRoute6 := .ofOptStr h.defaultRoute6

/-- The check of a node name. -/
def readName (kind : NodeKind) (value : Value) : Except Exc String :=
  match value with
  | .str s => if nameRe s.toList then .ok s else .error (.invalidName kind value)
  | _ => .error (.invalidName kind value)

/-- The check of a string field. -/
def readStr (owner : Value) (field : String) (value : Value) :
    Except Exc (Option String) :=
  orRaise value.asOptStr (.notString owner field value)

/-- The check of a hardware address. -/
def readMac (value : Value) : Except Exc (Option String) := do
  let mac ← orRaise value.asOptStr (.invalidMac value)
  check (∀ mac' ∈ mac, fullmatchMac mac'.toList = true) (.invalidMac value)
  return mac

/-- `Host.__post_init__`. -/
def Host.postInit (args : HostArgs) : Except Exc Network.Host := do
  let name ← readName .host args.name
  let ip ← readStr args.name "ip" args.ip
  let ip6 ← readStr args.name "ip6" args.ip6
  let defaultRoute ← readStr args.name "default_route" args.defaultRoute
  let defaultRoute6 ← readStr args.name "default_route6" args.defaultRoute6
  check (∀ ip' ∈ ip, (ipv4Interface ip'.toList).isSome) (.invalidAddress "ip" (ip.getD ""))
  let mac ← readMac args.mac
  check (defaultRoute.isSome → ip.isSome) (.routeRequires name "default_route" "ip")
  check (∀ route ∈ defaultRoute, (ipv4Packed route.toList).isSome)
    (.invalidAddress "default_route" (defaultRoute.getD ""))
  check (∀ ip6' ∈ ip6, '.' ∉ ip6'.toList) (.invalidAddress "ip6" (ip6.getD ""))
  check (∀ ip6' ∈ ip6, (ipv6Interface ip6'.toList).isSome) (.invalidAddress "ip6" (ip6.getD ""))
  check (defaultRoute6.isSome → ip6.isSome) (.routeRequires name "default_route6" "ip6")
  check (∀ route ∈ defaultRoute6, (ipv6Packed route.toList).isSome)
    (.invalidAddress "default_route6" (defaultRoute6.getD ""))
  return { name, ip, mac, defaultRoute, ip6, defaultRoute6 }

@[simp] theorem readName_eq_ok_iff
    (kind : NodeKind) (value : Value) (name : String) :
    readName kind value = .ok name ↔ value = .str name ∧ nameRe name.toList = true := by
  cases value with
  | str s =>
      by_cases h : nameRe s.toList = true
      · simp only [readName, h, if_true, Except.ok.injEq, Value.str.injEq]
        constructor
        · rintro rfl
          exact ⟨rfl, h⟩
        · exact And.left
      · have hname : s = name → nameRe name.toList = false := by
          rintro rfl
          simpa using h
        simpa [readName, h] using hname
  | _ => simp [readName]

@[simp] theorem readStr_eq_ok_iff
    (owner : Value) (field : String) (value : Value) (s : Option String) :
    readStr owner field value = .ok s ↔ value = .ofOptStr s := by
  simp [readStr]

@[simp] theorem readMac_eq_ok_iff
    (value : Value) (mac : Option String) :
    readMac value = .ok mac ↔
      value = .ofOptStr mac ∧ ∀ mac' ∈ mac, fullmatchMac mac'.toList = true := by
  simp only [readMac, bind_eq_ok_iff, orRaise_eq_ok_iff, Value.asOptStr_eq_some_iff,
    check_eq_ok_iff, pure, Except.pure, Except.ok.injEq]
  constructor
  · rintro ⟨_, rfl, _, hmac, rfl⟩
    exact ⟨rfl, hmac⟩
  · rintro ⟨rfl, hmac⟩
    exact ⟨mac, rfl, (), hmac, rfl⟩

theorem Host.postInit_eq_ok_iff
    (args : HostArgs) (h : Network.Host) :
    Host.postInit args = .ok h ↔ args = hostArgs h ∧ HostOk h := by
  simp only [Host.postInit, bind_eq_ok_iff, readName_eq_ok_iff, readStr_eq_ok_iff,
    readMac_eq_ok_iff, check_eq_ok_iff, pure, Except.pure, Except.ok.injEq]
  constructor
  · rintro ⟨_, ⟨hname, hre⟩, _, hip, _, hip6, _, hroute, _, hroute6, _, hok, _, ⟨hmac, hmacOk⟩,
      _, hneeds, _, hrouteOk, _, hdot, _, hip6Ok, _, hneeds6, _, hroute6Ok, rfl⟩
    refine ⟨?_, ⟨hre, hok, hmacOk, hneeds, hrouteOk, hdot, hip6Ok, hneeds6, hroute6Ok⟩⟩
    cases args
    simp_all [hostArgs]
  · rintro ⟨rfl, ok⟩
    exact ⟨_, ⟨rfl, ok.name⟩, _, rfl, _, rfl, _, rfl, _, rfl, (), ok.ip, _, ⟨rfl, ok.mac⟩,
      (), ok.routeNeedsIp, (), ok.defaultRoute, (), ok.ip6NoDot, (), ok.ip6,
      (), ok.route6NeedsIp6, (), ok.defaultRoute6, rfl⟩

/-- `Host(...)`. -/
def Host.make (args : HostArgs) : Except Exc Host :=
  match h : Host.postInit args with
  | .ok host => .ok ⟨host, ((Host.postInit_eq_ok_iff args host).mp h).2⟩
  | .error e => .error e

@[ext] theorem Host.ext
    {h k : Host}
    (e : h.toHost = k.toHost) :
    h = k := by
  cases h
  cases k
  simp_all

theorem Host.make_eq_ok_iff
    (args : HostArgs) (host : Host) :
    Host.make args = .ok host ↔ args = hostArgs host.toHost := by
  have hpost := Host.postInit_eq_ok_iff args host.toHost
  unfold Host.make
  split
  · rename_i h hh
    rw [hh, Except.ok.injEq] at hpost
    rw [Except.ok.injEq]
    constructor
    · rintro rfl
      exact (hpost.mp rfl).1
    · intro he
      exact Host.ext (hpost.mpr ⟨he, host.ok⟩)
  · rename_i e he
    rw [he] at hpost
    have hne : args ≠ hostArgs host.toHost := by
      intro h
      cases hpost.mpr ⟨h, host.ok⟩
    simp [hne]

/-! ### Switches -/

/-- `_VALID_LOG_LEVELS`. -/
def validLogLevels : List String := ["trace", "debug", "info", "warn", "error"]

/-- What `P4Switch.__post_init__` checks. -/
structure SwitchOk (s : Network.P4Switch) : Prop where
  name : nameRe s.name.toList = true
  normal : normPath s.p4Src.toList = s.p4Src.toList
  suffix : (Path.ofText s.p4Src.toList).suffix = ".p4".toList
  arch : s.arch = "v1model"
  deviceId : ∀ n ∈ s.deviceId, n < 2 ^ 31
  grpcPort : ∀ n ∈ s.grpcPort, 1024 ≤ n ∧ n ≤ 65535
  thriftPort : ∀ n ∈ s.thriftPort, 1024 ≤ n ∧ n ≤ 65535
  cpuPort : ∀ n ∈ s.cpuPort, 1 ≤ n ∧ n ≤ 510
  logLevel : s.logLevel ∈ validLogLevels

/-- `P4Switch`. -/
structure P4Switch extends Network.P4Switch where
  ok : SwitchOk toP4Switch
deriving DecidableEq, Repr

/-- The arguments of `P4Switch`. -/
structure SwitchArgs where
  name : Value
  p4Src : Value
  arch : Value := .str "v1model"
  deviceId : Value := .none
  grpcPort : Value := .none
  thriftPort : Value := .none
  cpuPort : Value := .none
  logLevel : Value := .str "info"
  pcapEnabled : Value := .bool true

/-- An integer field, as an object. -/
def natArg (n : Option Nat) : Value := .ofOptInt (n.map Int.ofNat)

/-- The fields of a switch, as objects. -/
def switchArgs (s : Network.P4Switch) : SwitchArgs where
  name := .str s.name
  p4Src := .path (Path.ofText s.p4Src.toList)
  arch := .str s.arch
  deviceId := natArg s.deviceId
  grpcPort := natArg s.grpcPort
  thriftPort := natArg s.thriftPort
  cpuPort := natArg s.cpuPort
  logLevel := .str s.logLevel
  pcapEnabled := .bool s.pcapEnabled

/-- The check that an integer field is an integer. -/
def readInt (field : String) (value : Value) : Except Exc (Option Int) :=
  orRaise value.asOptInt (.notInt field value)

/-- The check of the range of an integer field. -/
def checkRange (field : String) (lo hi : Nat) (value : Option Int) : Except Exc Unit :=
  check (∀ n ∈ value, (lo : Int) ≤ n ∧ n ≤ hi) (.outOfRange field (value.getD 0))

/-- `P4Switch.__post_init__`. -/
def P4Switch.postInit (args : SwitchArgs) : Except Exc Network.P4Switch := do
  let name ← readName .switch args.name
  let p4Src ← orRaise args.p4Src.asPath .typeError
  check (p4Src.suffix = ".p4".toList) (.p4Suffix p4Src)
  let arch ← orRaise args.arch.asStr (.unsupportedArch args.arch)
  check (arch = "v1model") (.unsupportedArch args.arch)
  let deviceId ← readInt "device_id" args.deviceId
  let grpcPort ← readInt "grpc_port" args.grpcPort
  let thriftPort ← readInt "thrift_port" args.thriftPort
  let cpuPort ← readInt "cpu_port" args.cpuPort
  checkRange "device_id" 0 (2 ^ 31 - 1) deviceId
  checkRange "grpc_port" 1024 65535 grpcPort
  checkRange "thrift_port" 1024 65535 thriftPort
  checkRange "cpu_port" 1 510 cpuPort
  let logLevel ← orRaise args.logLevel.asStr (.invalidLogLevel args.logLevel)
  check (logLevel ∈ validLogLevels) (.invalidLogLevel args.logLevel)
  let pcapEnabled ← orRaise args.pcapEnabled.asBool (.notBool "pcap_enabled" args.pcapEnabled)
  return {
    name, arch, logLevel, pcapEnabled
    p4Src := String.ofList p4Src.text
    deviceId := deviceId.map Int.toNat
    grpcPort := grpcPort.map Int.toNat
    thriftPort := thriftPort.map Int.toNat
    cpuPort := cpuPort.map Int.toNat }

@[simp] theorem readInt_eq_ok_iff
    (field : String) (value : Value) (n : Option Int) :
    readInt field value = .ok n ↔ value = .ofOptInt n := by
  simp [readInt]

/-- An integer in range is read back from its magnitude. -/
theorem natArg_toNat
    {lo hi : Nat} {value : Option Int}
    (h : ∀ n ∈ value, (lo : Int) ≤ n ∧ n ≤ hi) :
    natArg (value.map Int.toNat) = .ofOptInt value ∧
      ∀ n ∈ value.map Int.toNat, lo ≤ n ∧ n ≤ hi := by
  cases value with
  | none => simp [natArg]
  | some n =>
      have hn := h n rfl
      have hcast : ((n.toNat : Nat) : Int) = n := by omega
      have hlo : lo ≤ n.toNat := by omega
      simp [natArg, Value.ofOptInt, hcast, hlo, hn.2]

/-- A magnitude in range passes the check of the integer. -/
theorem natArg_range
    {lo hi : Nat} {value : Option Nat}
    (h : ∀ n ∈ value, lo ≤ n ∧ n ≤ hi) :
    ∀ n ∈ value.map Int.ofNat, (lo : Int) ≤ n ∧ n ≤ hi := by
  rintro n hn
  rcases Option.mem_map.mp hn with ⟨m, hm, rfl⟩
  have hm := h m hm
  simp
  omega

@[simp] theorem map_toNat_map_ofNat
    (n : Option Nat) :
    (n.map Int.ofNat).map Int.toNat = n := by
  cases n <;> simp

theorem Path.ofText_toList
    {text : Text}
    (h : normPath text = text) :
    (Path.ofText text).text = text := h

theorem P4Switch.postInit_ok
    {args : SwitchArgs} {s : Network.P4Switch}
    (h : P4Switch.postInit args = .ok s) :
    args = { switchArgs s with p4Src := args.p4Src } ∧
      args.p4Src.asPath = some (Path.ofText s.p4Src.toList) ∧ SwitchOk s := by
  simp only [P4Switch.postInit, bind_eq_ok_iff, readName_eq_ok_iff, orRaise_eq_ok_iff,
    Value.asStr_eq_some_iff, Value.asBool_eq_some_iff, readInt_eq_ok_iff, checkRange,
    check_eq_ok_iff, pure, Except.pure, Except.ok.injEq] at h
  rcases h with ⟨_, ⟨hname, hre⟩, path, hpath, _, hsuffix, arch, harch, _, hv1, _, hdevice, _,
    hgrpc, _, hthrift, _, hcpu, _, rdevice, _, rgrpc, _, rthrift, _, rcpu, _, hlevel, _, hlevels,
    _, hpcap, rfl⟩
  have hself := Path.ofText_text path
  refine ⟨?_, ?_, ?_⟩
  · cases args
    simp_all [switchArgs, natArg_toNat rdevice, natArg_toNat rgrpc, natArg_toNat rthrift,
      natArg_toNat rcpu]
  · simp [hpath, hself]
  · have hdeviceRange := (natArg_toNat rdevice).2
    refine ⟨hre, ?_, ?_, hv1, fun n hn => ?_, (natArg_toNat rgrpc).2, (natArg_toNat rthrift).2,
      (natArg_toNat rcpu).2, hlevels⟩
    · simp [path.normal]
    · simp [hself, hsuffix]
    · have := hdeviceRange n hn
      omega

theorem P4Switch.postInit_of_ok
    {s : Network.P4Switch} {p4Src : Value}
    (ok : SwitchOk s) (hpath : p4Src.asPath = some (Path.ofText s.p4Src.toList)) :
    P4Switch.postInit { switchArgs s with p4Src } = .ok s := by
  simp only [P4Switch.postInit, bind_eq_ok_iff, readName_eq_ok_iff, orRaise_eq_ok_iff,
    Value.asStr_eq_some_iff, Value.asBool_eq_some_iff, readInt_eq_ok_iff, checkRange,
    check_eq_ok_iff, pure, Except.pure, Except.ok.injEq]
  refine ⟨_, ⟨rfl, ok.name⟩, _, hpath, (), ok.suffix, _, rfl, (), ok.arch, _, rfl, _, rfl, _, rfl,
    _, rfl, (), natArg_range fun n hn => ?_, (), natArg_range ok.grpcPort, (),
    natArg_range ok.thriftPort, (), natArg_range ok.cpuPort, _, rfl, (), ok.logLevel, _, rfl, ?_⟩
  · have := ok.deviceId n hn
    omega
  · simp only [map_toNat_map_ofNat, Path.ofText_toList ok.normal, String.ofList_toList]

/-- `P4Switch(...)`. -/
def P4Switch.make (args : SwitchArgs) : Except Exc P4Switch :=
  match h : P4Switch.postInit args with
  | .ok s => .ok ⟨s, (P4Switch.postInit_ok h).2.2⟩
  | .error e => .error e

@[ext] theorem P4Switch.ext
    {s t : P4Switch}
    (e : s.toP4Switch = t.toP4Switch) :
    s = t := by
  cases s
  cases t
  simp_all

theorem P4Switch.make_eq_ok_iff
    (args : SwitchArgs) (s : P4Switch) :
    P4Switch.make args = .ok s ↔
      args = { switchArgs s.toP4Switch with p4Src := args.p4Src } ∧
        args.p4Src.asPath = some (Path.ofText s.p4Src.toList) := by
  unfold P4Switch.make
  constructor
  · intro h
    split at h
    · rename_i t ht
      rw [← Except.ok.inj h]
      exact ⟨(P4Switch.postInit_ok ht).1, (P4Switch.postInit_ok ht).2.1⟩
    · cases h
  · rintro ⟨hargs, hpath⟩
    have hpost : P4Switch.postInit args = .ok s.toP4Switch := by
      rw [hargs]
      exact P4Switch.postInit_of_ok s.ok hpath
    split
    · rename_i t ht
      rw [hpost] at ht
      exact congrArg _ (P4Switch.ext (Except.ok.inj ht).symm)
    · rename_i e he
      rw [hpost] at he
      cases he

end Topo
end P4Net
