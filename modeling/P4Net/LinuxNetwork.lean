import P4Net.IntegerLiterals
import P4Net.SysctlKeys

/-!
# What the statements of a startup are for

The kernel and its tools are not part of the program.  For each statement of `_do_start` this
module says what it does to the namespaces and the interfaces when it returns, after the manuals of
`ip`, `sysctl`, `tc` and the veth device; `none` is for those that cannot return.  Whether a
statement does return is left to the machine.

Left out is what the kernel adds by itself: the addresses of loopback, link-local addresses and
the devices that some modules put into every namespace.

* `Iface` : an interface, with what has been configured on it.
* `Linux` : the namespaces, the interfaces and the switch processes of a machine.
* `Linux.command`, `Linux.netlink`, `Linux.create` : the commands that a startup makes.
* `execAll` : the effect of a list of statements.
-/

namespace P4Net
namespace Deployment

open TextLiterals
open Network (StartOp Primitive Resource)

/-- The namespace and the name of an interface; `none` is the root namespace. -/
abbrev IfaceKey := Option String × String

/-- An interface; what has not been set is `none`, whatever the kernel has chosen for it. -/
structure Iface where
  peer : Option IfaceKey
  mac : Option String := none
  mtu : Option Nat := none
  /-- Addresses, in the words of the command that has added them. -/
  ip : List String := []
  ip6 : List String := []
  ipv6Disabled : Option Bool := none
  acceptRa : Option Bool := none
  autoconf : Option Bool := none
  up : Bool := false
  shaped : Bool := false
deriving DecidableEq, Repr

/-- The default routes of a namespace. -/
structure Routes where
  via : Option String := none
  via6 : Option String := none
deriving DecidableEq, Repr

/-- A machine; `routes` is `none` where there is no namespace. -/
structure Linux where
  routes : Option String → Option Routes
  ifaces : IfaceKey → Option Iface
  /-- The switches that have been started and not been stopped. -/
  processes : List Network.BMv2Switch
  /-- The local variable `veth` of `_wire_link`. -/
  veth : Option Network.VethPair

/-- The other end of an interface. -/
def Linux.peerOf (k : Linux) (key : IfaceKey) : Option IfaceKey :=
  (k.ifaces key).bind Iface.peer

/-! ### Interfaces -/

/-- `ip link set up`. -/
def Iface.setUp (iface : Iface) : Iface := { iface with up := true }

/-- `ip addr add`. -/
def Iface.addAddress (address : String) (iface : Iface) : Option Iface :=
  if address ∈ iface.ip then none else some { iface with ip := iface.ip ++ [address] }

/-- `ip -6 addr add`, which is refused where IPv6 has been disabled. -/
def Iface.addAddress6 (address : String) (iface : Iface) : Option Iface :=
  if iface.ipv6Disabled = some true ∨ address ∈ iface.ip6 then none
  else some { iface with ip6 := iface.ip6 ++ [address] }

/-- The values that a startup writes. -/
def knobValue : Text → Option Bool
  | ['0'] => some false
  | ['1'] => some true
  | _ => none

/-- A setting of `net.ipv6.conf`; disabling IPv6 removes its addresses. -/
def Iface.setKnob (knob value : Text) (iface : Iface) : Option Iface :=
  (knobValue value).bind fun on =>
    if knob = "disable_ipv6".toList then
      some { iface with ipv6Disabled := some on, ip6 := if on then [] else iface.ip6 }
    else if knob = "accept_ra".toList then some { iface with acceptRa := some on }
    else if knob = "autoconf".toList then some { iface with autoconf := some on }
    else none

/-! ### Commands -/

/-- Change an interface; a command for one that is not there is refused. -/
def Linux.change (k : Linux) (key : IfaceKey) (f : Iface → Option Iface) : Option Linux :=
  (k.ifaces key).bind fun iface => (f iface).map fun iface' =>
    { k with ifaces := Function.update k.ifaces key (some iface') }

/-- Change the default routes of a namespace. -/
def Linux.changeRoutes (k : Linux) (netns : Option String) (f : Routes → Option Routes) :
    Option Linux :=
  (k.routes netns).bind fun routes => (f routes).map fun routes' =>
    { k with routes := Function.update k.routes netns (some routes') }

/-- `ip route add default via`. -/
def Routes.add (gateway : String) (routes : Routes) : Option Routes :=
  if routes.via.isSome then none else some { routes with via := some gateway }

/-- `ip -6 route add default via`. -/
def Routes.add6 (gateway : String) (routes : Routes) : Option Routes :=
  if routes.via6.isSome then none else some { routes with via6 := some gateway }

/-- Write a setting; only those of an interface are known here. -/
def Linux.write (k : Linux) (netns : Option String) (key value : Text) : Option Linux :=
  match Topo.keyPath key with
  | some [net, ipv6, conf, iface, knob] =>
      if net = "net".toList ∧ ipv6 = "ipv6".toList ∧ conf = "conf".toList then
        k.change (netns, String.ofList iface) (Iface.setKnob knob value)
      else none
  | _ => none

/-- `sysctl -w`, whose argument is cut at the first `=`. -/
def Linux.sysctl (k : Linux) (netns : Option String) (setting : String) : Option Linux :=
  (splitOnce '=' setting.toList).bind fun parts => k.write netns parts.1 parts.2

/-- A command inside a namespace; hardware addresses are read in any letter case. -/
def Linux.command (k : Linux) (netns : Option String) : List String → Option Linux
  | ["ip", "link", "set", iface, "up"] => k.change (netns, iface) fun i => some i.setUp
  | ["ip", "link", "set", iface, "address", mac] =>
      k.change (netns, iface) fun i => some { i with mac := some mac.toLower }
  | ["ip", "link", "set", iface, "mtu", mtu] =>
      k.change (netns, iface) fun i => (parseInt 10 mtu.toList).map fun n =>
        { i with mtu := some n.toNat }
  | ["ip", "addr", "add", address, "dev", iface] =>
      k.change (netns, iface) (Iface.addAddress address)
  | ["ip", "-6", "addr", "add", address, "dev", iface] =>
      k.change (netns, iface) (Iface.addAddress6 address)
  | ["ip", "route", "add", "default", "via", gateway] =>
      k.changeRoutes netns (Routes.add gateway)
  | ["ip", "-6", "route", "add", "default", "via", gateway] =>
      k.changeRoutes netns (Routes.add6 gateway)
  | ["sysctl", "-w", setting] => k.sysctl netns setting
  | _ => none

/-- The interface of a side of a veth pair. -/
def endOf (veth : Network.VethPair) : Network.Side → IfaceKey
  | .a => (veth.namespaceA, veth.nameA)
  | .b => (veth.namespaceB, veth.nameB)

/-- A netlink call for a side of the pair that `_wire_link` has created. -/
def Linux.netlink (k : Linux) (side : Network.Side) (f : Iface → Iface) : Option Linux :=
  k.veth.bind fun veth => k.change (endOf veth side) fun i => some (f i)

/-- A primitive; those that do not configure the network change nothing. -/
def Linux.call (k : Linux) : Primitive → Option Linux
  | .nsExec netns argv => k.command (some netns) argv
  | .sysctl netns key value => k.command netns (Topo.Setting.argv ⟨key, value⟩)
  | .setMac side mac => k.netlink side fun i => { i with mac := some mac.toLower }
  | .setMtu side mtu => k.netlink side fun i => { i with mtu := some mtu }
  | .setUp side => k.netlink side Iface.setUp
  | .netem netns iface => k.change (netns, iface) fun i => some { i with shaped := true }
  | _ => some k

/-! ### Resources -/

/-- A new pair: both ends are in their final namespaces, and down. -/
def Linux.addPair (k : Linux) (veth : Network.VethPair) : Linux :=
  { k with
    ifaces := Function.update
      (Function.update k.ifaces (endOf veth .a) (some { peer := some (endOf veth .b) }))
      (endOf veth .b) (some { peer := some (endOf veth .a) })
    veth := some veth }

/-- A new namespace, with a loopback interface. -/
def Linux.addNamespace (k : Linux) (name : String) : Linux :=
  { k with
    routes := Function.update k.routes (some name) (some {})
    ifaces := fun key =>
      if key.1 = some name then if key.2 = "lo" then some { peer := none } else none
      else k.ifaces key }

/-- Construct and create a resource; the constructor of a pair checks its names. -/
def Linux.create (k : Linux) : Resource → Option Linux
  | .netns name => if (k.routes (some name)).isSome then none else some (k.addNamespace name)
  | .veth veth =>
      if endOf veth .a ≠ endOf veth .b ∧ ∀ key ∈ [endOf veth .a, endOf veth .b],
          (validateIfname key.2).isOk ∧ (k.routes key.1).isSome ∧ (k.ifaces key).isNone then
        some (k.addPair veth)
      else none
  | .bmv2 bmv2 => some { k with processes := k.processes ++ [bmv2] }
  | _ => some k

/-- A statement of `_do_start`. -/
def Linux.exec (k : Linux) : StartOp → Option Linux
  | .call primitive => k.call primitive
  | .create resource => k.create resource
  | _ => some k

/-- A list of statements. -/
def execAll : List StartOp → Linux → Option Linux
  | [], k => some k
  | op :: rest, k => (k.exec op).bind (execAll rest)

/-! ### Lists of statements -/

theorem execAll_append
    (ops rest : List StartOp) (k : Linux) :
    execAll (ops ++ rest) k = (execAll ops k).bind (execAll rest) := by
  induction ops generalizing k with
  | nil => rfl
  | cons op ops ih =>
      rw [List.cons_append, execAll, execAll, Option.bind_assoc]
      exact congrArg _ (funext ih)

theorem execAll_trans
    {ops rest : List StartOp} {k mid k' : Linux} (h : execAll ops k = some mid)
    (hrest : execAll rest mid = some k') :
    execAll (ops ++ rest) k = some k' := by
  rw [execAll_append, h, Option.bind_some, hrest]

/-- Statements that only read or record. -/
theorem execAll_quiet
    {ops : List StartOp} (h : ∀ op ∈ ops, ∀ k : Linux, k.exec op = some k) (k : Linux) :
    execAll ops k = some k := by
  induction ops with
  | nil => rfl
  | cons op rest ih =>
      rw [execAll, h op List.mem_cons_self, Option.bind_some]
      exact ih fun op' hop' => h op' (List.mem_cons_of_mem _ hop')

/-- A statement that is refused in every state is refused in every list. -/
theorem execAll_eq_none
    {ops : List StartOp} {op : StartOp} (hop : op ∈ ops) (h : ∀ k : Linux, k.exec op = none)
    (k : Linux) :
    execAll ops k = none := by
  obtain ⟨before, after, rfl⟩ := List.append_of_mem hop
  rw [execAll_append]
  cases execAll before k with
  | none => rfl
  | some mid => rw [Option.bind_some, execAll, h, Option.bind_none]

/-! ### One interface -/

/-- Set an interface. -/
def Linux.put (k : Linux) (key : IfaceKey) (iface : Iface) : Linux :=
  { k with ifaces := Function.update k.ifaces key (some iface) }

theorem put_comm
    (k : Linux) {a b : IfaceKey} (h : a ≠ b) (i j : Iface) :
    (k.put a i).put b j = (k.put b j).put a i := by
  simp only [Linux.put, Function.update_comm h]

theorem change_put
    (k : Linux) (key : IfaceKey) (iface : Iface) (f : Iface → Option Iface) :
    (k.put key iface).change key f = (f iface).map (k.put key) := by
  simp only [Linux.change, Linux.put, Function.update_self, Option.bind_some, Function.update_idem]
  rfl

/-- The new pair is put after the variable is set. -/
theorem addPair_eq
    (k : Linux) (veth : Network.VethPair) :
    k.addPair veth = ((({ k with veth := some veth } : Linux).put (endOf veth .a)
      { peer := some (endOf veth .b) }).put (endOf veth .b) { peer := some (endOf veth .a) }) :=
  rfl

theorem netlink_put
    {k : Linux} {veth : Network.VethPair} (hveth : k.veth = some veth) (side : Network.Side)
    (iface : Iface) (f : Iface → Iface) :
    (k.put (endOf veth side) iface).netlink side f =
      some (k.put (endOf veth side) (f iface)) := by
  have hread : (k.put (endOf veth side) iface).veth = some veth := hveth
  rw [Linux.netlink, hread, Option.bind_some, change_put, Option.map_some]

/-- The statements turn one interface into another and change nothing else. -/
def Turns (k : Linux) (key : IfaceKey) (ops : List StartOp) (i j : Iface) : Prop :=
  execAll ops (k.put key i) = some (k.put key j)

section Turns

variable {k : Linux} {key : IfaceKey} {i j l : Iface}

theorem Turns.of_exec
    {op : StartOp} (h : (k.put key i).exec op = some (k.put key j)) :
    Turns k key [op] i j :=
  (congrArg (Option.bind · _) h).trans rfl

theorem Turns.trans
    {ops rest : List StartOp} (h : Turns k key ops i j) (hrest : Turns k key rest j l) :
    Turns k key (ops ++ rest) i l :=
  execAll_trans h hrest

/-- A statement for the value of an option. -/
theorem Turns.optional
    {α : Type} {value : Option α} {op : α → StartOp} (hnone : value = none → i = j)
    (hsome : ∀ x ∈ value, Turns k key [op x] i j) :
    Turns k key (value.toList.map op) i j := by
  cases value with
  | none => exact hnone rfl ▸ rfl
  | some x => exact hsome x rfl

end Turns

/-! ### The gate -/

/-- A name that stands in the argument of `sysctl -w` for itself. -/
def PlainName (name : String) : Prop := '.' ∉ name.toList ∧ '=' ∉ name.toList

theorem knobValue_of_dot
    {value : Text} (hdot : '.' ∈ value) :
    knobValue value = none := by
  unfold knobValue
  split
  · simp at hdot
  · simp at hdot
  · rfl

/-- A value that is not a number is refused wherever it is written. -/
theorem change_setKnob_eq_none
    {value : Text} (h : knobValue value = none) (k : Linux) (key : IfaceKey) (knob : Text) :
    k.change key (Iface.setKnob knob value) = none := by
  have hnone : ∀ iface, Iface.setKnob knob value iface = none := by
    intro iface
    rw [Iface.setKnob, h, Option.bind_none]
  simp only [Linux.change, hnone, Option.map_none, Option.bind_fun_none]

theorem command_setting
    (k : Linux) (netns : Option String) (key value : String) :
    k.command netns (Topo.Setting.argv ⟨key, value⟩) = k.sysctl netns (key ++ "=" ++ value) :=
  rfl

/-- A setting of the gate, whose key has no `=` in it. -/
theorem command_gate
    {iface knob : String} (hequals : '=' ∉ iface.toList) (hknob : knob ∈ Topo.knobs) (k : Linux)
    (netns : Option String) (value : String) :
    k.command netns (Topo.Setting.argv ⟨Topo.gateKey iface knob, value⟩) =
      k.write netns (Topo.gateKey iface knob).toList value.toList := by
  have hnot : '=' ∉ (Topo.gateKey iface knob).toList := by
    have hknobs : ∀ knob ∈ Topo.knobs, '=' ∉ knob.toList := by decide
    simp only [Topo.gateKey, String.toList_append, List.mem_append, not_or]
    exact ⟨⟨⟨by decide, hequals⟩, by decide⟩, hknobs knob hknob⟩
  have hcut : splitOnce '=' (Topo.gateKey iface knob ++ "=" ++ value).toList =
      some ((Topo.gateKey iface knob).toList, value.toList) := by
    rw [String.toList_append, String.toList_append, List.append_assoc]
    exact splitOnce_append hnot _
  rw [command_setting, Linux.sysctl, hcut, Option.bind_some]

theorem command_plain
    {iface knob : String} (hslash : '/' ∉ iface.toList) (hplain : PlainName iface)
    (hknob : knob ∈ Topo.knobs) (k : Linux) (netns : Option String) (value : String) :
    k.command netns (Topo.Setting.argv ⟨Topo.gateKey iface knob, value⟩) =
      k.change (netns, iface) (Iface.setKnob knob.toList value.toList) := by
  have hpath := (Topo.keyPath_gateKey_iff hslash hknob).mpr hplain.1
  rw [command_gate hplain.2 hknob, Linux.write, hpath]
  simp only [Topo.confPath, and_self, if_true, String.ofList_toList]

/-- A dot in the name makes the path too long. -/
theorem command_dot
    {iface knob : String} (hequals : '=' ∉ iface.toList) (hdot : '.' ∈ iface.toList)
    (hknob : knob ∈ Topo.knobs) (k : Linux) (netns : Option String) (value : String) :
    k.command netns (Topo.Setting.argv ⟨Topo.gateKey iface knob, value⟩) = none := by
  have hlength : 3 ≤ (splitOn '.' (iface.toList ++ '.' :: knob.toList)).length := by
    have hcount := List.count_pos_iff.mpr hdot
    rw [length_splitOn, List.count_append, List.count_cons_self]
    omega
  rw [command_gate hequals hknob, Linux.write, Topo.keyPath_gateKey]
  generalize splitOn '.' (iface.toList ++ '.' :: knob.toList) = parts at hlength
  rcases parts with _ | ⟨p, _ | ⟨q, _ | ⟨r, rest⟩⟩⟩
  · simp at hlength
  · simp at hlength
  · simp at hlength
  · rfl

/-- After an `=` in the name no number is left. -/
theorem command_equals
    {iface : String} (hequals : '=' ∈ iface.toList) (knob : String) (k : Linux)
    (netns : Option String) (value : String) :
    k.command netns (Topo.Setting.argv ⟨Topo.gateKey iface knob, value⟩) = none := by
  obtain ⟨front, back, hiface, hfirst⟩ := List.eq_append_cons_of_mem hequals
  have hnot : '=' ∉ "net.ipv6.conf.".toList ++ front := by
    rw [List.mem_append, not_or]
    exact ⟨by decide, hfirst⟩
  have hsetting : (Topo.gateKey iface knob ++ "=" ++ value).toList =
      ("net.ipv6.conf.".toList ++ front) ++
        '=' :: (back ++ '.' :: (knob.toList ++ '=' :: value.toList)) := by
    simp only [Topo.gateKey, String.toList_append, hiface, List.append_assoc, List.cons_append]
    rfl
  have hvalue : knobValue (back ++ '.' :: (knob.toList ++ '=' :: value.toList)) = none :=
    knobValue_of_dot (List.mem_append_right _ List.mem_cons_self)
  rw [command_setting, Linux.sysctl, hsetting, splitOnce_append hnot, Option.bind_some, Linux.write]
  simp only [change_setKnob_eq_none hvalue, ite_self]
  split <;> rfl

/-- Only plain names can be set. -/
theorem command_not_plain
    {iface knob : String} (hnot : ¬ PlainName iface) (hknob : knob ∈ Topo.knobs) (k : Linux)
    (netns : Option String) (value : String) :
    k.command netns (Topo.Setting.argv ⟨Topo.gateKey iface knob, value⟩) = none := by
  by_cases hequals : '=' ∈ iface.toList
  · exact command_equals hequals knob k netns value
  · have hdot : '.' ∈ iface.toList := by
      by_contra hdot
      exact hnot ⟨hdot, hequals⟩
    exact command_dot hequals hdot hknob k netns value

section Gate

variable {iface : String} (hslash : '/' ∉ iface.toList) (hplain : PlainName iface)
  (k : Linux) (netns : Option String) (i : Iface)

include hslash hplain

theorem exec_gate
    {knob : String} (hknob : knob ∈ Topo.knobs) (value : String) :
    (k.put (netns, iface) i).exec (.call (.sysctl netns (Topo.gateKey iface knob) value)) =
      (Iface.setKnob knob.toList value.toList i).map (k.put (netns, iface)) :=
  (command_plain hslash hplain hknob _ netns value).trans (change_put ..)

theorem turns_disableIpv6 :
    Turns k (netns, iface) (Network.disableIpv6 netns iface) i
      { i with ipv6Disabled := some true, ip6 := [] } := by
  rw [(Topo.network_gate netns iface).1, (Topo.gate_settings iface).1]
  exact .of_exec ((exec_gate hslash hplain k netns i (by decide) "1").trans rfl)

theorem turns_enableIpv6 :
    Turns k (netns, iface) (Network.enableIpv6 netns iface) i
      { i with ipv6Disabled := some false, acceptRa := some false, autoconf := some false } := by
  rw [(Topo.network_gate netns iface).2, (Topo.gate_settings iface).2]
  let i₁ : Iface := { i with ipv6Disabled := some false }
  let i₂ : Iface := { i₁ with acceptRa := some false }
  have hdisable : Turns k (netns, iface)
      [.call (.sysctl netns (Topo.gateKey iface "disable_ipv6") "0")] i i₁ :=
    .of_exec ((exec_gate hslash hplain k netns i (by decide) "0").trans rfl)
  have haccept : Turns k (netns, iface)
      [.call (.sysctl netns (Topo.gateKey iface "accept_ra") "0")] i₁ i₂ :=
    .of_exec ((exec_gate hslash hplain k netns i₁ (by decide) "0").trans rfl)
  have hautoconf : Turns k (netns, iface)
      [.call (.sysctl netns (Topo.gateKey iface "autoconf") "0")] i₂
      { i₂ with autoconf := some false } :=
    .of_exec ((exec_gate hslash hplain k netns i₂ (by decide) "0").trans rfl)
  exact (hdisable.trans haccept).trans hautoconf

end Gate

end Deployment
end P4Net
