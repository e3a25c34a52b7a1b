import P4Net.NodeDescriptors

/-!
# Links

`LinkEndpoint` and `Link` as their constructors leave them.  An endpoint is constructed
with any object as its node; a link requires a non-empty string, so the endpoints of a
`Link` have a `String`.  `Shaping` groups the impairments: a symmetric value, one value
for each direction, and an addition for each direction.

As for the nodes, a constructor is the partial inverse of the fields of the descriptors
(`LinkEndpoint.make_eq_ok_iff`, `Link.make_eq_ok_iff`).
-/

namespace P4Net
namespace Topo

open TextLiterals

/-! ### Endpoints -/

/-- The fields of `LinkEndpoint`. -/
structure EndpointFields (ν : Type) where
  node : ν
  port : Option Nat := none
  ifaceName : Value := .none
  ip : Option String := none
  mac : Option String := none
  ip6 : Option String := none

/-- What `LinkEndpoint.__post_init__` checks. -/
structure EndpointOk {ν : Type} (ep : EndpointFields ν) : Prop where
  mac : ∀ mac ∈ ep.mac, fullmatchMac mac.toList = true
  ip6NoDot : ∀ ip6 ∈ ep.ip6, '.' ∉ ip6.toList
  ip6 : ∀ ip6 ∈ ep.ip6, (ipv6Interface ip6.toList).isSome

/-- `LinkEndpoint`. -/
structure LinkEndpoint (ν : Type) extends EndpointFields ν where
  ok : EndpointOk toEndpointFields

@[ext] theorem LinkEndpoint.ext
    {ν : Type} {e f : LinkEndpoint ν}
    (h : e.toEndpointFields = f.toEndpointFields) :
    e = f := by
  cases e
  cases f
  simp_all

/-- The arguments of `LinkEndpoint`. -/
structure EndpointArgs where
  node : Value
  port : Value := .none
  ifaceName : Value := .none
  ip : Value := .none
  mac : Value := .none
  ip6 : Value := .none

/-- The fields of an endpoint, as objects. -/
def endpointArgs (ep : EndpointFields Value) : EndpointArgs where
  node := ep.node
  port := natArg ep.port
  ifaceName := ep.ifaceName
  ip := .ofOptStr ep.ip
  mac := .ofOptStr ep.mac
  ip6 := .ofOptStr ep.ip6

/-- `_validate_port_number` of a port that is not `None`. -/
def readPort (value : Value) : Except Exc (Option Nat) := do
  let port ← orRaise value.asOptInt (.invalidPort value)
  check (∀ n ∈ port, 0 ≤ n) (.invalidPort value)
  return port.map Int.toNat

@[simp] theorem readPort_eq_ok_iff
    (value : Value) (port : Option Nat) :
    readPort value = .ok port ↔ value = natArg port := by
  simp only [readPort, bind_eq_ok_iff, orRaise_eq_ok_iff, Value.asOptInt_eq_some_iff,
    check_eq_ok_iff, pure, Except.pure, Except.ok.injEq]
  constructor
  · rintro ⟨n, rfl, _, hn, rfl⟩
    cases n with
    | none => rfl
    | some n =>
        have hcast : ((n.toNat : Nat) : Int) = n := Int.toNat_of_nonneg (hn n rfl)
        simp [natArg, Value.ofOptInt, hcast]
  · rintro rfl
    refine ⟨_, rfl, (), ?_, map_toNat_map_ofNat port⟩
    intro n hn
    rcases Option.mem_map.mp hn with ⟨m, _, rfl⟩
    exact Int.natCast_nonneg m

/-- `LinkEndpoint.__post_init__`. -/
def LinkEndpoint.postInit (args : EndpointArgs) : Except Exc (EndpointFields Value) := do
  let port ← readPort args.port
  let ip ← readStr args.node "ip" args.ip
  let ip6 ← readStr args.node "ip6" args.ip6
  let mac ← readMac args.mac
  check (∀ ip6' ∈ ip6, '.' ∉ ip6'.toList) (.invalidAddress "ip6" (ip6.getD ""))
  check (∀ ip6' ∈ ip6, (ipv6Interface ip6'.toList).isSome) (.invalidAddress "ip6" (ip6.getD ""))
  return { node := args.node, port, ifaceName := args.ifaceName, ip, mac, ip6 }

theorem LinkEndpoint.postInit_eq_ok_iff
    (args : EndpointArgs) (ep : EndpointFields Value) :
    LinkEndpoint.postInit args = .ok ep ↔ args = endpointArgs ep ∧ EndpointOk ep := by
  simp only [LinkEndpoint.postInit, bind_eq_ok_iff, readPort_eq_ok_iff, readStr_eq_ok_iff,
    readMac_eq_ok_iff, check_eq_ok_iff, pure, Except.pure, Except.ok.injEq]
  constructor
  · rintro ⟨_, hport, _, hip, _, hip6, _, ⟨hmac, hmacOk⟩, _, hdot, _, hip6Ok, rfl⟩
    refine ⟨?_, hmacOk, hdot, hip6Ok⟩
    cases args
    simp_all [endpointArgs]
  · rintro ⟨rfl, ok⟩
    exact ⟨_, rfl, _, rfl, _, rfl, _, ⟨rfl, ok.mac⟩, (), ok.ip6NoDot, (), ok.ip6, rfl⟩

/-- `LinkEndpoint(...)`. -/
def LinkEndpoint.make (args : EndpointArgs) : Except Exc (LinkEndpoint Value) :=
  match h : LinkEndpoint.postInit args with
  | .ok ep => .ok ⟨ep, ((LinkEndpoint.postInit_eq_ok_iff args ep).mp h).2⟩
  | .error e => .error e

theorem LinkEndpoint.make_eq_ok_iff
    (args : EndpointArgs) (ep : LinkEndpoint Value) :
    LinkEndpoint.make args = .ok ep ↔ args = endpointArgs ep.toEndpointFields := by
  have hpost := LinkEndpoint.postInit_eq_ok_iff args ep.toEndpointFields
  unfold LinkEndpoint.make
  split
  · rename_i f hf
    rw [hf, Except.ok.injEq] at hpost
    rw [Except.ok.injEq]
    constructor
    · rintro rfl
      exact (hpost.mp rfl).1
    · intro he
      exact LinkEndpoint.ext (hpost.mpr ⟨he, ep.ok⟩)
  · rename_i e he
    rw [he] at hpost
    have hne : args ≠ endpointArgs ep.toEndpointFields := by
      intro h
      cases hpost.mpr ⟨h, ep.ok⟩
    simp [hne]

/-- The endpoint as its constructor has made it. -/
def LinkEndpoint.detach (ep : LinkEndpoint String) : LinkEndpoint Value :=
  ⟨{ ep.toEndpointFields with node := .str ep.node }, ep.ok.mac, ep.ok.ip6NoDot, ep.ok.ip6⟩

/-- The check of the node of an endpoint by `Link`. -/
def LinkEndpoint.attach (side : Side) (ep : LinkEndpoint Value) :
    Except Exc (LinkEndpoint String) :=
  match ep.node with
  | .str node =>
      if node ≠ "" then
        .ok ⟨{ ep.toEndpointFields with node }, ep.ok.mac, ep.ok.ip6NoDot, ep.ok.ip6⟩
      else .error (.endpointNode side)
  | _ => .error (.endpointNode side)

theorem LinkEndpoint.attach_eq_ok_iff
    (side : Side) (ep : LinkEndpoint Value) (e : LinkEndpoint String) :
    ep.attach side = .ok e ↔ ep = e.detach ∧ e.node ≠ "" := by
  constructor
  · intro h
    unfold LinkEndpoint.attach at h
    split at h
    · rename_i node hnode
      by_cases hne : node ≠ ""
      · rw [if_pos hne, Except.ok.injEq] at h
        subst h
        exact ⟨LinkEndpoint.ext (by simp [LinkEndpoint.detach, ← hnode]), hne⟩
      · rw [if_neg hne] at h
        cases h
    · cases h
  · rintro ⟨rfl, hne⟩
    exact if_pos hne

/-! ### Impairments -/

/-- One value for each direction. -/
structure Directed (α : Type) where
  aToB : α
  bToA : α
deriving DecidableEq, Repr

/-- The value of a direction. -/
def Directed.get {α : Type} (values : Directed α) : Direction → α
  | .aToB => values.aToB
  | .bToA => values.bToA

/-- Apply a function to the value of each direction. -/
def Directed.map {α β : Type} (f : α → β) (values : Directed α) : Directed β :=
  ⟨f values.aToB, f values.bToA⟩

@[simp] theorem Directed.get_map
    {α β : Type} (f : α → β) (values : Directed α) (d : Direction) :
    (values.map f).get d = f (values.get d) := by
  cases d <;> rfl

/-- A `_<direction>` field. -/
def directedField (field : String) : Direction → String
  | .aToB => field ++ "_a_to_b"
  | .bToA => field ++ "_b_to_a"

/-- The impairments and the MTU of a link. -/
structure Shaping (L M : Type) where
  bandwidth : Value
  delay : Value
  jitter : Value
  lossPct : L
  mtu : M
  bandwidthDir : Directed Value
  delayDir : Directed Value
  jitterDir : Directed Value
  lossPctDir : Directed L
  delayExtra : Directed Value
  jitterExtra : Directed Value
  lossPctExtra : Directed L

/-- The arguments of `Link` after its endpoints. -/
abbrev ShapingArgs := Shaping Value Value

/-- The fields of `Link` after its endpoints. -/
abbrev LinkShaping := Shaping (Option Number) (Option Nat)

/-- The fields, as objects. -/
def LinkShaping.args (s : LinkShaping) : ShapingArgs where
  bandwidth := s.bandwidth
  delay := s.delay
  jitter := s.jitter
  lossPct := Number.toOptValue s.lossPct
  mtu := natArg s.mtu
  bandwidthDir := s.bandwidthDir
  delayDir := s.delayDir
  jitterDir := s.jitterDir
  lossPctDir := s.lossPctDir.map Number.toOptValue
  delayExtra := s.delayExtra
  jitterExtra := s.jitterExtra
  lossPctExtra := s.lossPctExtra.map Number.toOptValue

/-- A symmetric value excludes those of the directions. -/
def Exclusive (sym : Bool) (perDir : Directed Bool) : Prop :=
  sym = true → ∀ d, perDir.get d = false

/-- An addition requires the symmetric value and excludes the direction's own. -/
def Additive (sym : Bool) (perDir extra : Directed Bool) : Prop :=
  ∀ d, extra.get d = true → perDir.get d = false ∧ sym = true

/-- What `Link.__post_init__` checks after the endpoints. -/
structure ShapingOk (s : LinkShaping) : Prop where
  bandwidth : Exclusive s.bandwidth.isSet (s.bandwidthDir.map Value.isSet)
  delay : Exclusive s.delay.isSet (s.delayDir.map Value.isSet)
  jitter : Exclusive s.jitter.isSet (s.jitterDir.map Value.isSet)
  lossPct : Exclusive s.lossPct.isSome (s.lossPctDir.map Option.isSome)
  jitterDelay : s.jitter.isSet = true → s.delay.isSet = true
  jitterDirDelay : ∀ d, (s.jitterDir.get d).isSet = true →
    (s.delayDir.get d).isSet = true ∨ s.delay.isSet = true
  lossRange : ∀ x ∈ s.lossPct, 0 ≤ x.value ∧ x.value ≤ 100
  lossDirRange : ∀ d, ∀ x ∈ s.lossPctDir.get d, 0 ≤ x.value ∧ x.value ≤ 100
  delayExtra : Additive s.delay.isSet (s.delayDir.map Value.isSet) (s.delayExtra.map Value.isSet)
  jitterExtra :
    Additive s.jitter.isSet (s.jitterDir.map Value.isSet) (s.jitterExtra.map Value.isSet)
  lossExtra :
    Additive s.lossPct.isSome (s.lossPctDir.map Option.isSome) (s.lossPctExtra.map Option.isSome)
  lossExtraNonneg : ∀ d, ∀ x ∈ s.lossPctExtra.get d, 0 ≤ x.value
  mtu : ∀ n ∈ s.mtu, 68 ≤ n ∧ n ≤ 65535

/-- Do the same for both directions. -/
def forDirections (f : Direction → Except Exc Unit) : Except Exc Unit := do
  f .aToB
  f .bToA

/-- The check of a loss. -/
def readLoss (field : String) (value : Value) : Except Exc (Option Number) :=
  orRaise (Number.ofOptValue value) (.invalidLoss field value)

/-- The check of the losses of both directions. -/
def readLosses (field : Direction → String) (values : Directed Value) :
    Except Exc (Directed (Option Number)) := do
  let aToB ← readLoss (field .aToB) values.aToB
  let bToA ← readLoss (field .bToA) values.bToA
  return { aToB, bToA }

/-- The check that only one of the two forms of a parameter is used. -/
def checkExclusive (param : String) (sym : Bool) (perDir : Directed Bool) : Except Exc Unit :=
  check (¬ (sym = true ∧ (perDir.aToB = true ∨ perDir.bToA = true))) (.bothForms param)

/-- The check of the additions to a parameter. -/
def checkAdditive (param : String) (sym : Bool) (perDir extra : Directed Bool) :
    Except Exc Unit :=
  forDirections fun d => do
    check (extra.get d = true → perDir.get d = false) (.bothDirected param d)
    check (extra.get d = true → sym = true) (.extraRequires param d)

/-- The check of the range of a loss. -/
def checkLossRange (field : String) (loss : Option Number) : Except Exc Unit :=
  match loss with
  | some x => check (0 ≤ x.value ∧ x.value ≤ 100) (.lossRange field x)
  | none => .ok ()

/-- The check of the sign of an added loss. -/
def checkLossExtra (d : Direction) (loss : Option Number) : Except Exc Unit :=
  match loss with
  | some x => check (0 ≤ x.value) (.negativeExtra d x)
  | none => .ok ()

/-- `Link.__post_init__` after the checks of the endpoints. -/
def Link.postInit (args : ShapingArgs) : Except Exc LinkShaping := do
  let lossPct ← readLoss "loss_pct" args.lossPct
  let lossPctDir ← readLosses (directedField "loss_pct") args.lossPctDir
  let lossPctExtra ←
    readLosses (fun d => directedField "loss_pct" d ++ "_extra") args.lossPctExtra
  checkExclusive "bandwidth" args.bandwidth.isSet (args.bandwidthDir.map Value.isSet)
  checkExclusive "delay" args.delay.isSet (args.delayDir.map Value.isSet)
  checkExclusive "jitter" args.jitter.isSet (args.jitterDir.map Value.isSet)
  checkExclusive "loss_pct" lossPct.isSome (lossPctDir.map Option.isSome)
  check (args.jitter.isSet = true → args.delay.isSet = true) (.jitterRequires "jitter")
  forDirections fun d =>
    check ((args.jitterDir.get d).isSet = true →
        (args.delayDir.get d).isSet = true ∨ args.delay.isSet = true)
      (.jitterRequires (directedField "jitter" d))
  checkLossRange "loss_pct" lossPct
  forDirections fun d => checkLossRange (directedField "loss_pct" d) (lossPctDir.get d)
  checkAdditive "delay" args.delay.isSet (args.delayDir.map Value.isSet)
    (args.delayExtra.map Value.isSet)
  checkAdditive "jitter" args.jitter.isSet (args.jitterDir.map Value.isSet)
    (args.jitterExtra.map Value.isSet)
  checkAdditive "loss_pct" lossPct.isSome (lossPctDir.map Option.isSome)
    (lossPctExtra.map Option.isSome)
  forDirections fun d => checkLossExtra d (lossPctExtra.get d)
  let mtu ← readInt "mtu" args.mtu
  checkRange "mtu" 68 65535 mtu
  return { args with lossPct, lossPctDir, lossPctExtra, mtu := mtu.map Int.toNat }

@[simp] theorem forDirections_eq_ok_iff
    (f : Direction → Except Exc Unit) (u : Unit) :
    forDirections f = .ok u ↔ ∀ d, f d = .ok () := by
  simp only [forDirections, bind_eq_ok_iff]
  constructor
  · rintro ⟨_, ha, hb⟩ d
    cases d
    · exact ha
    · exact hb
  · intro h
    exact ⟨(), h .aToB, h .bToA⟩

@[simp] theorem readLoss_eq_ok_iff
    (field : String) (value : Value) (loss : Option Number) :
    readLoss field value = .ok loss ↔ value = Number.toOptValue loss := by
  simp [readLoss]

@[simp] theorem readLosses_eq_ok_iff
    (field : Direction → String) (values : Directed Value) (losses : Directed (Option Number)) :
    readLosses field values = .ok losses ↔ values = losses.map Number.toOptValue := by
  rcases values with ⟨a, b⟩
  rcases losses with ⟨x, y⟩
  simp [readLosses, bind_eq_ok_iff, pure, Except.pure, Directed.map]

@[simp] theorem checkExclusive_eq_ok_iff
    (param : String) (sym : Bool) (perDir : Directed Bool) (u : Unit) :
    checkExclusive param sym perDir = .ok u ↔ Exclusive sym perDir := by
  rw [checkExclusive, check_eq_ok_iff, Exclusive]
  constructor
  · intro h hsym d
    cases d <;> simp_all [Directed.get]
  · rintro h ⟨hsym, ha | hb⟩
    · exact Bool.noConfusion (ha.symm.trans (h hsym .aToB))
    · exact Bool.noConfusion (hb.symm.trans (h hsym .bToA))

@[simp] theorem checkAdditive_eq_ok_iff
    (param : String) (sym : Bool) (perDir extra : Directed Bool) (u : Unit) :
    checkAdditive param sym perDir extra = .ok u ↔ Additive sym perDir extra := by
  simp only [checkAdditive, forDirections_eq_ok_iff, bind_eq_ok_iff, check_eq_ok_iff, Additive]
  refine forall_congr' fun d => ?_
  constructor
  · rintro ⟨_, hdir, hsym⟩ hextra
    exact ⟨hdir hextra, hsym hextra⟩
  · intro h
    exact ⟨(), fun hextra => (h hextra).1, fun hextra => (h hextra).2⟩

@[simp] theorem checkLossRange_eq_ok_iff
    (field : String) (loss : Option Number) (u : Unit) :
    checkLossRange field loss = .ok u ↔ ∀ x ∈ loss, 0 ≤ x.value ∧ x.value ≤ 100 := by
  cases loss <;> simp [checkLossRange]

@[simp] theorem checkLossExtra_eq_ok_iff
    (d : Direction) (loss : Option Number) (u : Unit) :
    checkLossExtra d loss = .ok u ↔ ∀ x ∈ loss, 0 ≤ x.value := by
  cases loss <;> simp [checkLossExtra]

theorem Link.postInit_eq_ok_iff
    (args : ShapingArgs) (s : LinkShaping) :
    Link.postInit args = .ok s ↔ args = LinkShaping.args s ∧ ShapingOk s := by
  simp only [Link.postInit, bind_eq_ok_iff, readLoss_eq_ok_iff, readLosses_eq_ok_iff,
    checkExclusive_eq_ok_iff, checkAdditive_eq_ok_iff, checkLossRange_eq_ok_iff,
    checkLossExtra_eq_ok_iff, forDirections_eq_ok_iff, check_eq_ok_iff, readInt_eq_ok_iff,
    checkRange, pure, Except.pure, Except.ok.injEq]
  constructor
  · rintro ⟨_, hloss, _, hdir, _, hextra, _, c1, _, c2, _, c3, _, c4, _, c5, _, c6, _, c7, _, c8,
      _, c9, _, c10, _, c11, _, c12, mtu, hmtu, _, c13, rfl⟩
    refine ⟨?_, c1, c2, c3, c4, c5, c6, c7, c8, c9, c10, c11, c12, (natArg_toNat c13).2⟩
    cases args
    simp_all [LinkShaping.args, natArg_toNat c13]
  · rintro ⟨rfl, ok⟩
    refine ⟨_, rfl, _, rfl, _, rfl, (), ok.bandwidth, (), ok.delay, (), ok.jitter, (), ok.lossPct,
      (), ok.jitterDelay, (), ok.jitterDirDelay, (), ok.lossRange, (), ok.lossDirRange,
      (), ok.delayExtra, (), ok.jitterExtra, (), ok.lossExtra, (), ok.lossExtraNonneg,
      s.mtu.map Int.ofNat, rfl, (), natArg_range ok.mtu, ?_⟩
    simp only [LinkShaping.args, map_toNat_map_ofNat]

/-! ### Links -/

/-- `Link`. -/
structure Link where
  a : LinkEndpoint String
  b : LinkEndpoint String
  shaping : LinkShaping
  nodeA : a.node ≠ ""
  nodeB : b.node ≠ ""
  ok : ShapingOk shaping

@[ext] theorem Link.ext
    {l m : Link}
    (ha : l.a = m.a) (hb : l.b = m.b) (hs : l.shaping = m.shaping) :
    l = m := by
  cases l
  cases m
  simp_all

/-- `Link(...)`. -/
def Link.make (a b : LinkEndpoint Value) (args : ShapingArgs) : Except Exc Link :=
  match ha : a.attach .a with
  | .error e => .error e
  | .ok epA =>
      match hb : b.attach .b with
      | .error e => .error e
      | .ok epB =>
          match hs : Link.postInit args with
          | .error e => .error e
          | .ok shaping =>
              .ok ⟨epA, epB, shaping, ((LinkEndpoint.attach_eq_ok_iff _ _ _).mp ha).2,
                ((LinkEndpoint.attach_eq_ok_iff _ _ _).mp hb).2,
                ((Link.postInit_eq_ok_iff _ _).mp hs).2⟩

theorem Link.make_eq_ok_iff
    (a b : LinkEndpoint Value) (args : ShapingArgs) (link : Link) :
    Link.make a b args = .ok link ↔
      a = link.a.detach ∧ b = link.b.detach ∧ args = LinkShaping.args link.shaping := by
  constructor
  · intro h
    unfold Link.make at h
    split at h
    · cases h
    · rename_i epA ha
      split at h
      · cases h
      · rename_i epB hb
        split at h
        · cases h
        · rename_i shaping hs
          rw [← Except.ok.inj h]
          exact ⟨((LinkEndpoint.attach_eq_ok_iff _ _ _).mp ha).1,
            ((LinkEndpoint.attach_eq_ok_iff _ _ _).mp hb).1,
            ((Link.postInit_eq_ok_iff _ _).mp hs).1⟩
  · rintro ⟨rfl, rfl, rfl⟩
    have ha := (LinkEndpoint.attach_eq_ok_iff .a _ link.a).mpr ⟨rfl, link.nodeA⟩
    have hb := (LinkEndpoint.attach_eq_ok_iff .b _ link.b).mpr ⟨rfl, link.nodeB⟩
    have hs := (Link.postInit_eq_ok_iff _ link.shaping).mpr ⟨rfl, link.ok⟩
    unfold Link.make
    split
    · simp_all
    · split
      · simp_all
      · split
        · simp_all
        · exact congrArg _ (Link.ext (by simp_all) (by simp_all) (by simp_all))

end Topo
end P4Net
