import P4Net.IpAddresses
import P4Net.PollingLoops
import P4Net.PythonObjects

/-!
# Waiting for BMv2

`BMv2Switch.wait_until_ready` polls the listeners of the system and the sockets of the child
until the child owns its gRPC and Thrift listeners.

* `listeningInodes`, `socketInodes` : what a poll reads.
* `readinessTurn` : a turn of the loop, and `waitUntilReady` : the method.
* `GrpcListener` : the listeners that matter, and `mem_listeningInodes_iff`.
* `Turn.Ready`, `Turn.Foreign` : what a poll has found, and `readinessTurn_eq_ready`,
  `readinessTurn_of_foreign`.
-/

namespace P4Net
namespace Bmv2

open TextLiterals PollingLoops
open Topo (Value)
open Doubles (roundDouble)

/-! ### Listeners -/

/-- What goes wrong in a poll: an `OSError` or a `NetlinkError`, or anything else. -/
inductive Failure where
  | inspection (message : String)
  | other (message : String)
deriving DecidableEq, Repr

/-- A listener in the answer of `get_sock_stats`. -/
structure Listener where
  sport : Nat
  inode : Nat
  src : String
  v6only : Bool := false

/-- The body of the loop of `_listener_matches`. -/
def addressMatches (listener : IpAddress) (ipv6Only : Bool) (address : IpAddress) : Bool :=
  if listener = address then true
  else if listener.isV4 = address.isV4 then listener.isUnspecified || address.isUnspecified
  else !listener.isV4 && listener.isUnspecified && !ipv6Only

/-- `_listener_matches`. -/
def listenerMatches (host : String) (addresses : List IpAddress) (ipv6Only : Bool) :
    Except Failure Bool :=
  match ipAddress host.toList with
  | none => .error (.other host)
  | some listener => .ok (addresses.any (addressMatches listener.unmapped ipv6Only))

/-- The configuration that the wait reads. -/
structure Switch where
  grpcPort : Nat
  thriftPort : Nat
  hasIpv6 : Bool
  startupTimeout : Value := .int 10

/-- The name of a socket in `/proc/<pid>/fd`. -/
def socketName (inode : Nat) : String := "socket:[" ++ toString inode ++ "]"

/-- The inodes of the gRPC and of the Thrift listeners. -/
structure Inodes where
  grpc : List String := []
  thrift : List String := []

/-- The test of a listener for the gRPC port and address. -/
def isGrpcListener (sw : Switch) (addresses : List IpAddress) (l : Listener) :
    Except Failure Bool :=
  if l.sport = sw.grpcPort then listenerMatches l.src addresses l.v6only else .ok false

/-- The body of the loop of `_listening_inodes`. -/
def addListener (sw : Switch) (addresses : List IpAddress) (found : Inodes) (l : Listener) :
    Except Failure Inodes := do
  let isGrpc ← isGrpcListener sw addresses l
  return {
    grpc := if isGrpc then socketName l.inode :: found.grpc else found.grpc
    thrift := if l.sport = sw.thriftPort then socketName l.inode :: found.thrift
      else found.thrift }

/-- An entry of `/proc/<pid>/fd`. -/
inductive Fd where
  | link (target : String)
  | gone
  | fails (e : Failure)

/-- `_socket_inodes`, on the entries of the directory. -/
def socketInodes : List Fd → Except Failure (List String)
  | [] => .ok []
  | .link target :: rest => do
      let inodes ← socketInodes rest
      return if "socket:[".toList.isPrefixOf target.toList then target :: inodes else inodes
  | .gone :: rest => socketInodes rest
  | .fails e :: _ => .error e

/-! ### The loop -/

/-- What a turn of the loop reads: the clock, the listeners by family, the descriptors of the
child, and what `waitpid` says of the child when it is asked, at the start of the turn, after
an exception, and at its end. -/
structure Turn where
  clock : Rat
  atStart : Option Int := none
  inet : Except Failure (List Listener) := .ok []
  inet6 : Except Failure (List Listener) := .ok []
  fds : Except Failure (List Fd) := .ok []
  atError : Option Int := none
  atEnd : Option Int := none

/-- `_listening_inodes`. -/
def listeningInodes (sw : Switch) (addresses : List IpAddress) (r : Turn) :
    Except Failure Inodes := do
  let inet ← r.inet
  let found ← inet.foldlM (addListener sw addresses) {}
  if sw.hasIpv6 then
    let inet6 ← r.inet6
    inet6.foldlM (addListener sw addresses) found
  else return found

/-- The listener snapshot, and after it the sockets of the child. -/
def inspect (sw : Switch) (addresses : List IpAddress) (r : Turn) :
    Except Failure (Inodes × List String) := do
  let found ← listeningInodes sw addresses r
  let fds ← r.fds
  let owned ← socketInodes fds
  return (found, owned)

/-- The two services of a switch. -/
inductive Service where
  | grpc
  | thrift
deriving DecidableEq, Repr

/-- How the wait ends. -/
inductive Verdict where
  | ready
  | notStarted
  | invalidTimeout
  | unresolved (message : String)
  | exited (returncode : Int)
  | uninspected (message : String)
  | inUse (service : Service)
  | timedOut
  | raised (message : String)
deriving DecidableEq, Repr

/-- The inodes that the child does not own. -/
def foreign (inodes owned : List String) : List String := inodes.filter (· ∉ owned)

/-- A turn of the loop.  The state is the return code of the child once it has been seen. -/
def readinessTurn (sw : Switch) (addresses : List IpAddress) (deadline : Rat)
    (returncode : Option Int) (r : Turn) : Option Int ⊕ Verdict :=
  if deadline ≤ r.clock then .inr .timedOut
  else
    match returncode.or r.atStart with
    | some code => .inr (.exited code)
    | none =>
        match inspect sw addresses r with
        | .error (.inspection message) =>
            match r.atError with
            | some code => .inl (some code)
            | none => .inr (.uninspected message)
        | .error (.other message) => .inr (.raised message)
        | .ok (found, owned) =>
            if foreign found.grpc owned ≠ [] then .inr (.inUse .grpc)
            else if foreign found.thrift owned ≠ [] then .inr (.inUse .thrift)
            else if found.grpc ≠ [] ∧ found.thrift ≠ [] then
              match r.atEnd with
              | some code => .inl (some code)
              | none => .inr .ready
            else .inl none

/-! ### The method -/

/-- `_validate_timeout`. -/
def validTimeout : Value → Bool
  | .int n => 0 < n && (roundDouble n).isSome
  | .float (.finite x) => 0 < x.value
  | _ => false

/-- `{ip_address(info[4][0]) for info in socket.getaddrinfo(...)}`. -/
def readAddresses (texts : List String) : Except Verdict (List IpAddress) :=
  texts.mapM fun text =>
    match ipAddress text.toList with
    | some address => .ok address
    | none => .error (.raised text)

/-- What the wait reads before its loop: whether the child has been started, the return code
that has been seen, the timeout, the deadline that the clock gives for it, and the answer of
`getaddrinfo`. -/
structure Setup where
  started : Bool := true
  returncode : Option Int := none
  timeout : Value := .none
  deadline : Rat
  resolution : Except String (List String)

/-- The timeout that is given, or that of the switch. -/
def effectiveTimeout (sw : Switch) (timeout : Value) : Value :=
  if timeout.isSet then timeout else sw.startupTimeout

/-- `wait_until_ready` before its loop. -/
def prepare (sw : Switch) (setup : Setup) : Except Verdict (List IpAddress) :=
  if setup.started = false then .error .notStarted
  else if validTimeout (effectiveTimeout sw setup.timeout) = false then .error .invalidTimeout
  else
    match setup.resolution with
    | .error message => .error (.unresolved message)
    | .ok texts => readAddresses texts

/-- `wait_until_ready`: its verdict, or the state in which it waits for its next turn. -/
def waitUntilReady (sw : Switch) (setup : Setup) (turns : List Turn) : Option Int ⊕ Verdict :=
  match prepare sw setup with
  | .error verdict => .inr verdict
  | .ok addresses =>
      poll (readinessTurn sw addresses setup.deadline) turns setup.returncode

/-! ### What a poll reads -/

/-- The listener is in the snapshot. -/
def Turn.Lists (sw : Switch) (r : Turn) (l : Listener) : Prop :=
  (∃ listeners, r.inet = .ok listeners ∧ l ∈ listeners) ∨
    sw.hasIpv6 = true ∧ ∃ listeners, r.inet6 = .ok listeners ∧ l ∈ listeners

/-- The listener, without the mapping of IPv4 into IPv6, takes the connections to the
address. -/
def Accepts (listener : IpAddress) (ipv6Only : Bool) (address : IpAddress) : Prop :=
  listener = address ∨
    (listener.isV4 = address.isV4 ∧
      (listener.isUnspecified = true ∨ address.isUnspecified = true)) ∨
    (listener.isV4 = false ∧ listener.isUnspecified = true ∧ ipv6Only = false ∧
      address.isV4 = true)

/-- A listener that matches the gRPC address. -/
def GrpcListener (sw : Switch) (addresses : List IpAddress) (l : Listener) : Prop :=
  l.sport = sw.grpcPort ∧ ∃ listener, ipAddress l.src.toList = some listener ∧
    ∃ address ∈ addresses, Accepts listener.unmapped l.v6only address

/-- A listener on the Thrift port. -/
def ThriftListener (sw : Switch) (l : Listener) : Prop := l.sport = sw.thriftPort

/-- The socket of the listener is among the descriptors of the child. -/
def Turn.Owns (r : Turn) (l : Listener) : Prop :=
  ∃ fds, r.fds = .ok fds ∧ Fd.link (socketName l.inode) ∈ fds

theorem addressMatches_iff
    (listener address : IpAddress) (ipv6Only : Bool) :
    addressMatches listener ipv6Only address = true ↔ Accepts listener ipv6Only address := by
  unfold addressMatches Accepts
  by_cases hsame : listener = address
  · simp [hsame]
  · rw [if_neg hsame]
    by_cases hfamily : listener.isV4 = address.isV4
    · rw [if_pos hfamily, Bool.or_eq_true]
      constructor
      · intro h
        exact Or.inr (Or.inl ⟨hfamily, h⟩)
      · rintro (h | ⟨_, h⟩ | ⟨hv6, _, _, hv4⟩)
        · exact absurd h hsame
        · exact h
        · rw [hfamily, hv4] at hv6
          cases hv6
    · rw [if_neg hfamily]
      simp only [Bool.and_eq_true, Bool.not_eq_true']
      constructor
      · rintro ⟨⟨hv6, hany⟩, hboth⟩
        rw [hv6] at hfamily
        exact Or.inr (Or.inr ⟨hv6, hany, hboth, by simpa using Ne.symm hfamily⟩)
      · rintro (h | ⟨h, _⟩ | ⟨hv6, hany, hboth, _⟩)
        · exact absurd h hsame
        · exact absurd h hfamily
        · exact ⟨⟨hv6, hany⟩, hboth⟩

theorem listenerMatches_eq_ok_iff
    {host : String} {addresses : List IpAddress} {ipv6Only result : Bool} :
    listenerMatches host addresses ipv6Only = .ok result ↔
      ∃ listener, ipAddress host.toList = some listener ∧
        (result = true ↔ ∃ address ∈ addresses, Accepts listener.unmapped ipv6Only address) := by
  unfold listenerMatches
  cases ipAddress host.toList with
  | none => simp
  | some listener =>
      simp only [Except.ok.injEq, Option.some.injEq, exists_eq_left', ← addressMatches_iff,
        ← List.any_eq_true]
      constructor
      · rintro rfl
        rfl
      · intro h
        exact Bool.eq_iff_iff.mpr h.symm

/-- The names of the sockets of some listeners. -/
def Named (P : Listener → Prop) (name : String) : Prop :=
  ∃ l, P l ∧ socketName l.inode = name

theorem named_cons_iff
    {P : Listener → Prop} {l : Listener} {rest : List Listener} {name : String} :
    Named (fun l' => l' ∈ l :: rest ∧ P l') name ↔
      (P l ∧ socketName l.inode = name) ∨ Named (fun l' => l' ∈ rest ∧ P l') name := by
  unfold Named
  constructor
  · rintro ⟨l', ⟨hmem, hP⟩, hname⟩
    rcases List.mem_cons.mp hmem with rfl | hrest
    · exact Or.inl ⟨hP, hname⟩
    · exact Or.inr ⟨l', ⟨hrest, hP⟩, hname⟩
  · rintro (⟨hP, hname⟩ | ⟨l', ⟨hrest, hP⟩, hname⟩)
    · exact ⟨l, ⟨List.mem_cons_self .., hP⟩, hname⟩
    · exact ⟨l', ⟨List.mem_cons_of_mem _ hrest, hP⟩, hname⟩

theorem isGrpcListener_eq_ok
    {sw : Switch} {addresses : List IpAddress} {l : Listener} {result : Bool}
    (h : isGrpcListener sw addresses l = .ok result) :
    result = true ↔ GrpcListener sw addresses l := by
  unfold isGrpcListener at h
  by_cases hport : l.sport = sw.grpcPort
  · rw [if_pos hport, listenerMatches_eq_ok_iff] at h
    obtain ⟨listener, hlistener, hiff⟩ := h
    rw [hiff]
    constructor
    · intro haddress
      exact ⟨hport, listener, hlistener, haddress⟩
    · rintro ⟨_, listener', hlistener', haddress⟩
      rw [hlistener, Option.some.injEq] at hlistener'
      rwa [hlistener']
  · rw [if_neg hport, Except.ok.injEq] at h
    subst h
    constructor
    · intro hfalse
      cases hfalse
    · intro hlistener
      exact absurd hlistener.1 hport

theorem addListener_eq_ok
    {sw : Switch} {addresses : List IpAddress} {found found' : Inodes} {l : Listener}
    (h : addListener sw addresses found l = .ok found') (name : String) :
    (name ∈ found'.grpc ↔
        (GrpcListener sw addresses l ∧ socketName l.inode = name) ∨ name ∈ found.grpc) ∧
      (name ∈ found'.thrift ↔
        (ThriftListener sw l ∧ socketName l.inode = name) ∨ name ∈ found.thrift) := by
  rw [addListener, Topo.bind_eq_ok_iff] at h
  obtain ⟨isGrpc, hgrpc, h⟩ := h
  cases h
  constructor
  · rw [← isGrpcListener_eq_ok hgrpc]
    cases isGrpc <;> simp [eq_comm]
  · unfold ThriftListener
    by_cases hport : l.sport = sw.thriftPort
    · simp [hport, eq_comm]
    · simp [hport]

theorem foldlM_addListener
    {sw : Switch} {addresses : List IpAddress} {listeners : List Listener}
    {found found' : Inodes}
    (h : listeners.foldlM (addListener sw addresses) found = .ok found') (name : String) :
    (name ∈ found'.grpc ↔
        Named (fun l => l ∈ listeners ∧ GrpcListener sw addresses l) name ∨ name ∈ found.grpc) ∧
      (name ∈ found'.thrift ↔
        Named (fun l => l ∈ listeners ∧ ThriftListener sw l) name ∨ name ∈ found.thrift) := by
  induction listeners generalizing found with
  | nil =>
      cases h
      simp [Named]
  | cons l rest ih =>
      rw [List.foldlM_cons, Topo.bind_eq_ok_iff] at h
      obtain ⟨next, hnext, hrest⟩ := h
      have hl := addListener_eq_ok hnext name
      have hr := ih hrest
      rw [hr.1, hr.2, hl.1, hl.2, named_cons_iff, named_cons_iff]
      exact ⟨by rw [or_assoc, or_left_comm], by rw [or_assoc, or_left_comm]⟩

/-- The snapshot holds the names of the listeners that matter. -/
theorem mem_listeningInodes_iff
    {sw : Switch} {addresses : List IpAddress} {r : Turn} {found : Inodes}
    (h : listeningInodes sw addresses r = .ok found) (name : String) :
    (name ∈ found.grpc ↔
        Named (fun l => r.Lists sw l ∧ GrpcListener sw addresses l) name) ∧
      (name ∈ found.thrift ↔ Named (fun l => r.Lists sw l ∧ ThriftListener sw l) name) := by
  rw [listeningInodes, Topo.bind_eq_ok_iff] at h
  obtain ⟨inet, hinet, h⟩ := h
  rw [Topo.bind_eq_ok_iff] at h
  obtain ⟨first, hfirst, h⟩ := h
  have h4 := foldlM_addListener hfirst name
  by_cases hv6 : sw.hasIpv6 = true
  · rw [if_pos hv6, Topo.bind_eq_ok_iff] at h
    obtain ⟨inet6, hinet6, h⟩ := h
    have h6 := foldlM_addListener h name
    have hlists : ∀ l, r.Lists sw l ↔ l ∈ inet ∨ l ∈ inet6 := by
      intro l
      simp [Turn.Lists, hinet, hinet6, hv6]
    rw [h6.1, h6.2, h4.1, h4.2]
    simp only [Named, hlists, or_and_right, exists_or, List.not_mem_nil, or_false]
    exact ⟨or_comm, or_comm⟩
  · rw [if_neg hv6] at h
    cases h
    have hlists : ∀ l, r.Lists sw l ↔ l ∈ inet := by
      intro l
      simp [Turn.Lists, hinet, hv6]
    rw [h4.1, h4.2]
    simp only [Named, hlists, List.not_mem_nil, or_false, and_self]

/-- The sockets among the descriptors. -/
theorem mem_socketInodes_iff
    {fds : List Fd} {owned : List String} (h : socketInodes fds = .ok owned) (name : String) :
    name ∈ owned ↔ Fd.link name ∈ fds ∧ "socket:[".toList.isPrefixOf name.toList = true := by
  induction fds generalizing owned with
  | nil =>
      cases h
      simp
  | cons fd rest ih =>
      cases fd with
      | fails e => cases h
      | gone =>
          rw [ih h, List.mem_cons]
          simp
      | link target =>
          rw [socketInodes, Topo.bind_eq_ok_iff] at h
          obtain ⟨inodes, hrest, h⟩ := h
          cases h
          rw [List.mem_cons, Fd.link.injEq]
          cases hsocket : "socket:[".toList.isPrefixOf target.toList with
          | true =>
              rw [if_pos rfl, List.mem_cons, ih hrest]
              constructor
              · rintro (rfl | ⟨hmem, hname⟩)
                · exact ⟨Or.inl rfl, hsocket⟩
                · exact ⟨Or.inr hmem, hname⟩
              · rintro ⟨rfl | hmem, hname⟩
                · exact Or.inl rfl
                · exact Or.inr ⟨hmem, hname⟩
          | false =>
              rw [if_neg Bool.false_ne_true, ih hrest]
              constructor
              · rintro ⟨hmem, hname⟩
                exact ⟨Or.inr hmem, hname⟩
              · rintro ⟨rfl | hmem, hname⟩
                · rw [hsocket] at hname
                  cases hname
                · exact ⟨hmem, hname⟩

theorem isPrefixOf_socketName
    (inode : Nat) :
    "socket:[".toList.isPrefixOf (socketName inode).toList = true := by
  rw [socketName, String.toList_append, String.toList_append, List.append_assoc,
    List.isPrefixOf_iff_prefix]
  exact List.prefix_append ..

/-- What the two parts of a poll have read. -/
theorem inspect_eq_ok
    {sw : Switch} {addresses : List IpAddress} {r : Turn} {found : Inodes}
    {owned : List String} (h : inspect sw addresses r = .ok (found, owned)) :
    listeningInodes sw addresses r = .ok found ∧
      ∀ l, socketName l.inode ∈ owned ↔ r.Owns l := by
  rw [inspect, Topo.bind_eq_ok_iff] at h
  obtain ⟨found', hfound, h⟩ := h
  rw [Topo.bind_eq_ok_iff] at h
  obtain ⟨fds, hfds, h⟩ := h
  rw [Topo.bind_eq_ok_iff] at h
  obtain ⟨owned', howned, h⟩ := h
  cases h
  refine ⟨hfound, fun l => ?_⟩
  rw [mem_socketInodes_iff howned, Turn.Owns, hfds]
  simp only [isPrefixOf_socketName, and_true, Except.ok.injEq, exists_eq_left']

/-! ### What a poll finds -/

/-- A listener for one of the two services. -/
def Matters (sw : Switch) (addresses : List IpAddress) (l : Listener) : Prop :=
  GrpcListener sw addresses l ∨ ThriftListener sw l

/-- Both services have listeners, and all of them are the child's. -/
structure Turn.Ready (sw : Switch) (addresses : List IpAddress) (r : Turn) : Prop where
  grpc : ∃ l, r.Lists sw l ∧ GrpcListener sw addresses l
  thrift : ∃ l, r.Lists sw l ∧ ThriftListener sw l
  owned : ∀ l, r.Lists sw l → Matters sw addresses l → r.Owns l

/-- A listener for one of the two services is not the child's. -/
def Turn.Foreign (sw : Switch) (addresses : List IpAddress) (r : Turn) : Prop :=
  ∃ l, r.Lists sw l ∧ Matters sw addresses l ∧ ¬ r.Owns l

theorem foreign_ne_nil_iff
    {P : Listener → Prop} {r : Turn} {inodes owned : List String}
    (hinodes : ∀ name, name ∈ inodes ↔ Named P name)
    (howned : ∀ l, socketName l.inode ∈ owned ↔ r.Owns l) :
    foreign inodes owned ≠ [] ↔ ∃ l, P l ∧ ¬ r.Owns l := by
  rw [ne_eq, foreign, List.filter_eq_nil_iff]
  simp only [decide_eq_true_eq, not_forall, not_not, exists_prop, hinodes, Named]
  constructor
  · rintro ⟨_, ⟨l, hl, rfl⟩, hname⟩
    exact ⟨l, hl, fun howns => hname ((howned l).mpr howns)⟩
  · rintro ⟨l, hl, hnot⟩
    exact ⟨_, ⟨l, hl, rfl⟩, fun hmem => hnot ((howned l).mp hmem)⟩

theorem ne_nil_iff_named
    {P : Listener → Prop} {inodes : List String}
    (hinodes : ∀ name, name ∈ inodes ↔ Named P name) :
    inodes ≠ [] ↔ ∃ l, P l := by
  constructor
  · intro hne
    obtain ⟨name, hname⟩ := List.exists_mem_of_ne_nil inodes hne
    obtain ⟨l, hl, _⟩ := (hinodes name).mp hname
    exact ⟨l, hl⟩
  · rintro ⟨l, hl⟩
    exact List.ne_nil_of_mem ((hinodes (socketName l.inode)).mpr ⟨l, hl, rfl⟩)

/-- What the two inodes of a poll say of its listeners. -/
theorem inspected_iff
    {sw : Switch} {addresses : List IpAddress} {r : Turn} {found : Inodes}
    {owned : List String} (h : inspect sw addresses r = .ok (found, owned)) :
    (found.grpc ≠ [] ↔ ∃ l, r.Lists sw l ∧ GrpcListener sw addresses l) ∧
      (found.thrift ≠ [] ↔ ∃ l, r.Lists sw l ∧ ThriftListener sw l) ∧
      (foreign found.grpc owned ≠ [] ↔
        ∃ l, (r.Lists sw l ∧ GrpcListener sw addresses l) ∧ ¬ r.Owns l) ∧
      (foreign found.thrift owned ≠ [] ↔
        ∃ l, (r.Lists sw l ∧ ThriftListener sw l) ∧ ¬ r.Owns l) := by
  obtain ⟨hfound, howned⟩ := inspect_eq_ok h
  have hgrpc := fun name => (mem_listeningInodes_iff hfound name).1
  have hthrift := fun name => (mem_listeningInodes_iff hfound name).2
  exact ⟨ne_nil_iff_named hgrpc, ne_nil_iff_named hthrift, foreign_ne_nil_iff hgrpc howned,
    foreign_ne_nil_iff hthrift howned⟩

/-! ### Turns -/

variable {sw : Switch} {addresses : List IpAddress} {deadline : Rat} {r : Turn}

/-- A child that has been seen to exit is reported, unless the deadline has passed. -/
theorem readinessTurn_of_exited
    (code : Int) :
    readinessTurn sw addresses deadline (some code) r =
      .inr (if deadline ≤ r.clock then .timedOut else .exited code) := by
  unfold readinessTurn
  split <;> rfl

theorem readinessTurn_of_running
    (hclock : r.clock < deadline) (hstart : r.atStart = none) :
    readinessTurn sw addresses deadline none r =
      match inspect sw addresses r with
      | .error (.inspection message) =>
          match r.atError with
          | some code => .inl (some code)
          | none => .inr (.uninspected message)
      | .error (.other message) => .inr (.raised message)
      | .ok (found, owned) =>
          if foreign found.grpc owned ≠ [] then .inr (.inUse .grpc)
          else if foreign found.thrift owned ≠ [] then .inr (.inUse .thrift)
          else if found.grpc ≠ [] ∧ found.thrift ≠ [] then
            match r.atEnd with
            | some code => .inl (some code)
            | none => .inr .ready
          else .inl none := by
  rw [readinessTurn, if_neg (not_le.mpr hclock), hstart]
  rfl

/-- A listener of another process ends the wait. -/
theorem readinessTurn_of_foreign
    {result : Inodes × List String} (hclock : r.clock < deadline) (hstart : r.atStart = none)
    (hinspect : inspect sw addresses r = .ok result) (hforeign : r.Foreign sw addresses) :
    ∃ service, readinessTurn sw addresses deadline none r = .inr (.inUse service) := by
  obtain ⟨found, owned⟩ := result
  obtain ⟨-, -, hgrpc, hthrift⟩ := inspected_iff hinspect
  rw [readinessTurn_of_running hclock hstart, hinspect]
  change ∃ service, (if foreign found.grpc owned ≠ [] then _ else _ : Option Int ⊕ Verdict) = _
  by_cases hg : foreign found.grpc owned ≠ []
  · rw [if_pos hg]
    exact ⟨.grpc, rfl⟩
  · have ht : foreign found.thrift owned ≠ [] := by
      obtain ⟨l, hlists, hmatters, hnot⟩ := hforeign
      rcases hmatters with hl | hl
      · exact absurd (hgrpc.mpr ⟨l, ⟨hlists, hl⟩, hnot⟩) hg
      · exact hthrift.mpr ⟨l, ⟨hlists, hl⟩, hnot⟩
    rw [if_neg hg, if_pos ht]
    exact ⟨.thrift, rfl⟩

/-- The wait returns in a turn that finds both services with the child, and the child alive. -/
theorem readinessTurn_eq_ready
    {returncode : Option Int}
    (h : readinessTurn sw addresses deadline returncode r = .inr .ready) :
    r.clock < deadline ∧ returncode = none ∧ r.atStart = none ∧ r.Ready sw addresses ∧
      r.atEnd = none := by
  have hclock : r.clock < deadline := by
    by_contra hlate
    rw [readinessTurn, if_pos (not_lt.mp hlate)] at h
    cases h
  cases returncode with
  | some code =>
      rw [readinessTurn_of_exited, if_neg (not_le.mpr hclock)] at h
      cases h
  | none =>
      have hstart : r.atStart = none := by
        cases hstart : r.atStart with
        | none => rfl
        | some code =>
            rw [readinessTurn, if_neg (not_le.mpr hclock), hstart] at h
            cases h
      rw [readinessTurn_of_running hclock hstart] at h
      cases hinspect : inspect sw addresses r with
      | error e =>
          rw [hinspect] at h
          cases e with
          | other message => cases h
          | inspection message =>
              cases hexit : r.atError with
              | none => rw [hexit] at h; cases h
              | some code => rw [hexit] at h; cases h
      | ok result =>
          obtain ⟨found, owned⟩ := result
          obtain ⟨hgrpc, hthrift, hforeignGrpc, hforeignThrift⟩ := inspected_iff hinspect
          rw [hinspect] at h
          change (if foreign found.grpc owned ≠ [] then _ else _ : Option Int ⊕ Verdict) = _ at h
          by_cases hg : foreign found.grpc owned ≠ []
          · rw [if_pos hg] at h
            cases h
          · rw [if_neg hg] at h
            by_cases ht : foreign found.thrift owned ≠ []
            · rw [if_pos ht] at h
              cases h
            · rw [if_neg ht] at h
              by_cases hboth : found.grpc ≠ [] ∧ found.thrift ≠ []
              · rw [if_pos hboth] at h
                cases hend : r.atEnd with
                | some code => rw [hend] at h; cases h
                | none =>
                    refine ⟨hclock, rfl, hstart, ⟨hgrpc.mp hboth.1, hthrift.mp hboth.2, ?_⟩, rfl⟩
                    intro l hlists hmatters
                    by_contra hnot
                    rcases hmatters with hl | hl
                    · exact hg (hforeignGrpc.mpr ⟨l, ⟨hlists, hl⟩, hnot⟩)
                    · exact ht (hforeignThrift.mpr ⟨l, ⟨hlists, hl⟩, hnot⟩)
              · rw [if_neg hboth] at h
                cases h

/-- An inspection that fails while the child runs is reported; otherwise the next turn
decides. -/
theorem readinessTurn_of_uninspected
    {message : String} (hclock : r.clock < deadline) (hstart : r.atStart = none)
    (hinspect : inspect sw addresses r = .error (.inspection message)) :
    readinessTurn sw addresses deadline none r =
      match r.atError with
      | some code => .inl (some code)
      | none => .inr (.uninspected message) := by
  rw [readinessTurn_of_running hclock hstart, hinspect]

/-! ### Results -/

/-- An address that cannot be read raises. -/
theorem readAddresses_eq_error
    {texts : List String} {verdict : Verdict} (h : readAddresses texts = .error verdict) :
    ∃ text, verdict = .raised text := by
  obtain ⟨text, -, htext⟩ := Topo.exists_of_mapM_eq_error h
  cases haddress : ipAddress text.toList with
  | none =>
      rw [haddress] at htext
      cases htext
      exact ⟨text, rfl⟩
  | some address =>
      rw [haddress] at htext
      cases htext

/-- Nothing before the loop is a normal return. -/
theorem prepare_ne_ready
    {setup : Setup} {verdict : Verdict} (h : prepare sw setup = .error verdict) :
    verdict ≠ .ready := by
  rintro rfl
  unfold prepare at h
  by_cases hstarted : setup.started = false
  · rw [if_pos hstarted] at h
    cases h
  · rw [if_neg hstarted] at h
    by_cases htimeout : validTimeout (effectiveTimeout sw setup.timeout) = false
    · rw [if_pos htimeout] at h
      cases h
    · rw [if_neg htimeout] at h
      cases hresolution : setup.resolution with
      | error message =>
          rw [hresolution] at h
          cases h
      | ok texts =>
          rw [hresolution] at h
          obtain ⟨text, htext⟩ := readAddresses_eq_error h
          cases htext

theorem waitUntilReady_of_prepare
    {setup : Setup} (h : prepare sw setup = .ok addresses) (turns : List Turn) :
    waitUntilReady sw setup turns =
      poll (readinessTurn sw addresses setup.deadline) turns setup.returncode := by
  rw [waitUntilReady, h]

/--
The wait returns only in a turn before the deadline that finds listeners for gRPC and for
Thrift, all of them the child's, and the child alive afterwards.  A turn that finds a
listener of another process for one of them ends the wait.  An inspection that fails is
reported if the child runs; if it has exited, the next turn reports the exit, or the timeout
if the deadline has passed.
-/
theorem waitUntilReady_verdict
    (sw : Switch) (setup : Setup) (turns : List Turn) :
    (waitUntilReady sw setup turns = .inr .ready →
        ∃ addresses before r after, prepare sw setup = .ok addresses ∧
          turns = before ++ r :: after ∧ waitUntilReady sw setup before = .inl none ∧
          r.clock < setup.deadline ∧ r.Ready sw addresses ∧ r.atEnd = none) ∧
      ∀ addresses before r after, prepare sw setup = .ok addresses →
        turns = before ++ r :: after → waitUntilReady sw setup before = .inl none →
        r.clock < setup.deadline → r.atStart = none →
          (∀ result, inspect sw addresses r = .ok result → r.Foreign sw addresses →
            ∃ service, waitUntilReady sw setup turns = .inr (.inUse service)) ∧
          ∀ message, inspect sw addresses r = .error (.inspection message) →
            (r.atError = none →
              waitUntilReady sw setup turns = .inr (.uninspected message)) ∧
            ∀ code next rest, r.atError = some code → after = next :: rest →
              waitUntilReady sw setup turns =
                .inr (if setup.deadline ≤ next.clock then .timedOut else .exited code) := by
  constructor
  · intro h
    cases hprepare : prepare sw setup with
    | error verdict =>
        rw [waitUntilReady, hprepare] at h
        exact absurd (Sum.inr.inj h) (prepare_ne_ready hprepare)
    | ok addresses =>
        rw [waitUntilReady_of_prepare hprepare, poll_eq_inr_iff] at h
        obtain ⟨before, r, after, returncode, hturns, hbefore, hturn⟩ := h
        obtain ⟨hclock, rfl, -, hready, hend⟩ := readinessTurn_eq_ready hturn
        exact ⟨addresses, before, r, after, rfl, hturns,
          by rw [waitUntilReady_of_prepare hprepare, hbefore], hclock, hready, hend⟩
  · rintro addresses before r after hprepare rfl hbefore hclock hstart
    rw [waitUntilReady_of_prepare hprepare] at hbefore
    simp only [waitUntilReady_of_prepare hprepare]
    refine ⟨fun result hinspect hforeign => ?_, fun message hinspect => ⟨fun hrunning => ?_, ?_⟩⟩
    · obtain ⟨service, hturn⟩ := readinessTurn_of_foreign hclock hstart hinspect hforeign
      exact ⟨service, poll_of_reached hbefore hturn⟩
    · have hturn := readinessTurn_of_uninspected hclock hstart hinspect
      rw [hrunning] at hturn
      exact poll_of_reached hbefore hturn
    · rintro code next rest hexited rfl
      have hturn := readinessTurn_of_uninspected hclock hstart hinspect
      rw [hexited] at hturn
      rw [poll_append hbefore, poll_cons_of_inl hturn,
        poll_cons_of_inr (readinessTurn_of_exited code)]

/-- The child exits while its descriptors are read, and the wait reports the timeout. -/
theorem exit_reported_as_timeout :
    let sw : Switch := { grpcPort := 50051, thriftPort := 9090, hasIpv6 := true }
    let setup : Setup := { deadline := 10, resolution := .ok ["127.0.0.1"] }
    let first : Turn :=
      { clock := 9, fds := .error (.inspection "No such file or directory"), atError := some 7 }
    let next : Turn := { clock := 11, atStart := some 7 }
    waitUntilReady sw setup [] = .inl none ∧ first.clock < setup.deadline ∧
      first.atStart = none ∧
      inspect sw [.v4 [127, 0, 0, 1]] first =
        .error (.inspection "No such file or directory") ∧
      first.atError = some 7 ∧
      waitUntilReady sw setup [first, next] ≠ .inr (.exited 7) ∧
      waitUntilReady sw setup [first, next] = .inr .timedOut :=
  ⟨by decide +kernel, by decide +kernel, rfl, rfl, rfl, by decide +kernel, by decide +kernel⟩

/-- The child owns a wildcard listener for gRPC and the Thrift listener. -/
example :
    waitUntilReady { grpcPort := 50051, thriftPort := 9090, hasIpv6 := true }
      { deadline := 10, resolution := .ok ["127.0.0.1"] }
      [{ clock := 9
         inet := .ok [{ sport := 9090, inode := 4, src := "0.0.0.0" }]
         inet6 := .ok [{ sport := 50051, inode := 3, src := "::" }]
         fds := .ok [.link "socket:[3]", .gone, .link "/dev/null", .link "socket:[4]"] }] =
      .inr .ready := by
  decide +kernel

end Bmv2
end P4Net
