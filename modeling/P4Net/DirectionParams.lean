import P4Net.LinkImpairments

/-!
# The two directions of a link

What the parameters of a direction are made of, and that the directions are independent.

* `directionParams_resolved` : a parameter is the direction's own value or else the
  symmetric one, with the addition of the direction.
* `directionParams_congr` : it does not depend on the opposite direction.
* `lossTotal_exceeds` : only a loss that exceeds 100 is refused by `_direction_params`.
* `Link.swap` : the link from its other side.
* `direction_params_correct` : all of it.
-/

namespace P4Net
namespace Topo

open Netem Doubles

/-! ### Parameters of a direction -/

/-- The direction's own value, or else the symmetric one. -/
def ownOr (own sym : Value) : Value := if own.isSet then own else sym

/-- A delay or a jitter, with the addition of the direction. -/
structure TimeResolved (sym own extra v : Value) : Prop where
  plain : extra.isSet = false → v = ownOr own sym
  sum : extra.isSet = true → ∃ a b, readDuration roundDouble (ownOr own sym) = .ok a ∧
    readDuration roundDouble extra = .ok b ∧ v = .str (formatDurationNs (a + b))

/-- A loss, with the addition of the direction. -/
structure LossResolved (sym own extra loss : Option Number) : Prop where
  plain : extra = none → loss = own.or sym
  sum : ∀ y ∈ extra, ∃ x total, own.or sym = some x ∧ x.add y = some total ∧ loss = some total

/-- The parameters of a direction. -/
structure Resolved (s : LinkShaping) (d : Direction) (p : NetemParams) : Prop where
  rate : p.rate = ownOr (s.bandwidthDir.get d) s.bandwidth
  delay : TimeResolved s.delay (s.delayDir.get d) (s.delayExtra.get d) p.delay
  jitter : TimeResolved s.jitter (s.jitterDir.get d) (s.jitterExtra.get d) p.jitter
  lossPct : LossResolved s.lossPct (s.lossPctDir.get d) (s.lossPctExtra.get d) p.lossPct
  jitterDelay : p.jitter.isSet = true → p.delay.isSet = true
  lossRange : ∀ loss ∈ p.lossPct, 0 ≤ loss.value ∧ loss.value ≤ 100

theorem timeResolved_of_resolve
    {sym own extra v : Value}
    (sep : Separate sym own extra) (h : resolveDirStr sym own extra = .ok v) :
    TimeResolved sym own extra v := by
  unfold resolveDirStr at h
  by_cases hextra : extra.isSet = true
  · obtain ⟨hown, hsym⟩ := sep.additive hextra
    rw [if_pos ⟨hextra, hsym⟩, addDurations_eq_ok_iff] at h
    obtain ⟨a, b, ha, hb, rfl⟩ := h
    have hbase : ownOr own sym = sym := if_neg (by simp [hown])
    exact ⟨fun hunset => absurd hextra (by simp [hunset]),
      fun _ => ⟨a, b, by rw [hbase]; exact ha, hb, rfl⟩⟩
  · rw [if_neg fun h => hextra h.1, Except.ok.injEq] at h
    exact ⟨fun _ => h.symm, fun hset => absurd hset hextra⟩

theorem lossResolved_of_resolve
    {s : LinkShaping} (ok : ShapingOk s) {d : Direction} {loss : Option Number}
    (h : resolveDirLoss s.lossPct (s.lossPctDir.get d) (s.lossPctExtra.get d) = .ok loss) :
    LossResolved s.lossPct (s.lossPctDir.get d) (s.lossPctExtra.get d) loss := by
  cases hextra : s.lossPctExtra.get d with
  | none =>
      rw [hextra] at h
      exact ⟨fun _ => (Except.ok.inj h).symm, fun y hy => absurd hy (by simp)⟩
  | some y =>
      obtain ⟨hown, hsym⟩ : (s.lossPctDir.get d).isSome = false ∧ s.lossPct.isSome = true := by
        simpa using ok.lossExtra d (by simp [hextra])
      obtain ⟨x, hx⟩ := Option.isSome_iff_exists.mp hsym
      have hown : s.lossPctDir.get d = none := by simpa using hown
      refine ⟨fun hnone => absurd hnone (by simp), fun y' hy' => ?_⟩
      cases hy'
      cases hsum : x.add y with
      | none => simp [resolveDirLoss, hextra, hx, hsum] at h
      | some total =>
          by_cases hle : total.value ≤ 100
          · simp only [resolveDirLoss, hextra, hx, hsum, if_pos hle, Except.ok.injEq] at h
            exact ⟨x, total, by simp [hown, hx], hsum, h.symm⟩
          · simp [resolveDirLoss, hextra, hx, hsum, hle] at h

/-- The parameters of a direction whose bandwidths are not empty. -/
theorem directionParams_resolved
    {s : LinkShaping} (ok : ShapingOk s) {d : Direction} {p : NetemParams}
    (hrate : (s.bandwidthDir.get d).isSet = true → (s.bandwidthDir.get d).truthy = true)
    (h : directionParams s d = .ok p) :
    Resolved s d p := by
  simp only [directionParams, bind_eq_ok_iff, pure, Except.pure, Except.ok.injEq] at h
  obtain ⟨delay, hdelay, jitter, hjitter, loss, hloss, rfl⟩ := h
  refine ⟨?_, timeResolved_of_resolve (separate_of_ok ok.delay ok.delayExtra d) hdelay,
    timeResolved_of_resolve (separate_of_ok ok.jitter ok.jitterExtra d) hjitter,
    lossResolved_of_resolve ok hloss, jitter_requires_delay ok hdelay hjitter, ?_⟩
  · by_cases hset : (s.bandwidthDir.get d).isSet = true
    · simp [ownOr, hset, hrate hset]
    · have hfalsy : ¬ (s.bandwidthDir.get d).truthy = true := fun h => hset (isSet_of_truthy h)
      simp [ownOr, hset, hfalsy]
  · exact resolveDirLoss_range ok hloss

/-! ### Losses that are refused -/

theorem readDuration_ne_lossTotal
    (fl : ℚ → Option ℚ) (v : Value) (x y : Number) :
    readDuration fl v ≠ .error (.lossTotal x y) := by
  unfold readDuration
  split
  · rename_i s
    cases parseDurationNs fl s.toList <;> simp [Except.mapError]
  · simp

theorem resolveDirStr_ne_lossTotal
    (sym own extra : Value) (x y : Number) :
    resolveDirStr sym own extra ≠ .error (.lossTotal x y) := by
  unfold resolveDirStr
  by_cases hadd : extra.isSet = true ∧ sym.isSet = true
  · rw [if_pos hadd]
    simp [addDurations, bind_eq_error_iff, readDuration_ne_lossTotal, pure, Except.pure]
  · rw [if_neg hadd]
    simp

theorem resolveDirLoss_eq_lossTotal
    {sym own extra : Option Number} {x y : Number}
    (h : resolveDirLoss sym own extra = .error (.lossTotal x y)) :
    sym = some x ∧ extra = some y ∧ ∀ z, x.add y = some z → 100 < z.value := by
  unfold resolveDirLoss at h
  split at h
  · split at h
    · rename_i total hsum
      by_cases hle : total.value ≤ 100
      · rw [if_pos hle] at h
        cases h
      · rw [if_neg hle] at h
        cases h
        exact ⟨rfl, rfl, fun z hz => Option.some.inj (hsum.symm.trans hz) ▸ lt_of_not_ge hle⟩
    · rename_i hsum
      cases h
      exact ⟨rfl, rfl, fun z hz => by rw [hsum] at hz; cases hz⟩
  · cases h

/-- Only a loss that exceeds 100 is refused. -/
theorem lossTotal_exceeds
    {s : LinkShaping} (ok : ShapingOk s) {d : Direction} {x y : Number}
    (h : directionParams s d = .error (.lossTotal x y)) :
    s.lossPct = some x ∧ s.lossPctExtra.get d = some y ∧ 100 < x.value + y.value := by
  simp only [directionParams, bind_eq_error_iff, resolveDirStr_ne_lossTotal, pure, Except.pure,
    false_or, reduceCtorEq, and_false, exists_false, or_false] at h
  obtain ⟨_, _, _, _, hloss⟩ := h
  obtain ⟨hx, hy, hexceeds⟩ := resolveDirLoss_eq_lossTotal hloss
  refine ⟨hx, hy, ?_⟩
  by_contra hle
  obtain ⟨z, hz, hzle⟩ := Number.add_le_natCast (n := 100) (ok.lossRange x hx).1
    (ok.lossExtraNonneg d y hy) (le_of_not_gt hle) (by norm_num)
  exact absurd (hexceeds z hz) (not_lt_of_ge hzle)

/-! ### Independence -/

/-- The fields that concern a direction are the same. -/
structure AgreesOn (d : Direction) (s s' : LinkShaping) : Prop where
  bandwidth : s'.bandwidth = s.bandwidth ∧ s'.bandwidthDir.get d = s.bandwidthDir.get d
  delay : s'.delay = s.delay ∧ s'.delayDir.get d = s.delayDir.get d ∧
    s'.delayExtra.get d = s.delayExtra.get d
  jitter : s'.jitter = s.jitter ∧ s'.jitterDir.get d = s.jitterDir.get d ∧
    s'.jitterExtra.get d = s.jitterExtra.get d
  lossPct : s'.lossPct = s.lossPct ∧ s'.lossPctDir.get d = s.lossPctDir.get d ∧
    s'.lossPctExtra.get d = s.lossPctExtra.get d

/-- The parameters of a direction do not depend on the fields of the opposite one. -/
theorem directionParams_congr
    {d : Direction} {s s' : LinkShaping}
    (h : AgreesOn d s s') :
    directionParams s' d = directionParams s d := by
  simp only [directionParams, h.bandwidth, h.delay, h.jitter, h.lossPct]

/-! ### The link from its other side -/

/-- The other direction. -/
def Direction.opposite : Direction → Direction
  | .aToB => .bToA
  | .bToA => .aToB

/-- The values of both directions, exchanged. -/
def Directed.swap {α : Type} (values : Directed α) : Directed α := ⟨values.bToA, values.aToB⟩

@[simp] theorem Directed.get_swap
    {α : Type} (values : Directed α) (d : Direction) :
    values.swap.get d = values.get d.opposite := by
  cases d <;> rfl

@[simp] theorem Directed.map_swap
    {α β : Type} (f : α → β) (values : Directed α) :
    values.swap.map f = (values.map f).swap := rfl

@[simp] theorem Directed.swap_swap
    {α : Type} (values : Directed α) :
    values.swap.swap = values := rfl

@[simp] theorem Direction.opposite_opposite
    (d : Direction) :
    d.opposite.opposite = d := by
  cases d <;> rfl

/-- All fields of the directions, exchanged. -/
def Shaping.swap {L M : Type} (s : Shaping L M) : Shaping L M :=
  { s with
    bandwidthDir := s.bandwidthDir.swap
    delayDir := s.delayDir.swap
    jitterDir := s.jitterDir.swap
    lossPctDir := s.lossPctDir.swap
    delayExtra := s.delayExtra.swap
    jitterExtra := s.jitterExtra.swap
    lossPctExtra := s.lossPctExtra.swap }

theorem args_swap
    (s : LinkShaping) :
    LinkShaping.args (Shaping.swap s) = (LinkShaping.args s).swap := rfl

theorem Exclusive.swap
    {sym : Bool} {own : Directed Bool}
    (h : Exclusive sym own) :
    Exclusive sym own.swap :=
  fun hsym d => by simpa using h hsym d.opposite

theorem Additive.swap
    {sym : Bool} {own extra : Directed Bool}
    (h : Additive sym own extra) :
    Additive sym own.swap extra.swap :=
  fun d hextra => by simpa using h d.opposite (by simpa using hextra)

theorem ShapingOk.swap
    {s : LinkShaping}
    (ok : ShapingOk s) :
    ShapingOk (Shaping.swap s) where
  bandwidth := ok.bandwidth.swap
  delay := ok.delay.swap
  jitter := ok.jitter.swap
  lossPct := ok.lossPct.swap
  jitterDelay := ok.jitterDelay
  jitterDirDelay := fun d h => by
    simpa [Shaping.swap] using ok.jitterDirDelay d.opposite (by simpa [Shaping.swap] using h)
  lossRange := ok.lossRange
  lossDirRange := fun d x hx => ok.lossDirRange d.opposite x (by simpa [Shaping.swap] using hx)
  delayExtra := ok.delayExtra.swap
  jitterExtra := ok.jitterExtra.swap
  lossExtra := ok.lossExtra.swap
  lossExtraNonneg := fun d x hx =>
    ok.lossExtraNonneg d.opposite x (by simpa [Shaping.swap] using hx)
  mtu := ok.mtu

/-- The link from its other side. -/
def Link.swap (link : Link) : Link where
  a := link.b
  b := link.a
  shaping := Shaping.swap link.shaping
  nodeA := link.nodeB
  nodeB := link.nodeA
  ok := link.ok.swap

theorem Link.make_swap
    {a b : LinkEndpoint Value} {args : ShapingArgs} {link : Link}
    (h : Link.make a b args = .ok link) :
    Link.make b a args.swap = .ok link.swap := by
  obtain ⟨rfl, rfl, rfl⟩ := (Link.make_eq_ok_iff _ _ _ _).mp h
  exact (Link.make_eq_ok_iff _ _ _ _).mpr ⟨rfl, rfl, (args_swap link.shaping).symm⟩

theorem directionParams_swap
    (s : LinkShaping) (d : Direction) :
    directionParams (Shaping.swap s) d = directionParams s d.opposite := by
  cases d <;> rfl

/-! ### Results -/

/-- The bandwidths that are given are not empty. -/
def NonemptyRates (s : LinkShaping) : Prop :=
  (s.bandwidth.isSet = true → s.bandwidth.truthy = true) ∧
    ∀ d, (s.bandwidthDir.get d).isSet = true → (s.bandwidthDir.get d).truthy = true

/--
The parameters of both directions of a link.  With bandwidths that are not empty, they are
made of the direction's own values, or else of the symmetric ones, and of its additions; they
do not depend on the opposite direction; a loss is refused only if it exceeds 100; and the
link is accepted from its other side, with the parameters exchanged, iff it is accepted.
-/
theorem direction_params_correct :
    (∀ link : Link, NonemptyRates link.shaping → ∀ d p,
      directionParams link.shaping d = .ok p → Resolved link.shaping d p) ∧
    (∀ (link link' : Link) d, AgreesOn d link.shaping link'.shaping →
      directionParams link'.shaping d = directionParams link.shaping d) ∧
    (∀ (link : Link) d x y, directionParams link.shaping d = .error (.lossTotal x y) →
      link.shaping.lossPct = some x ∧ link.shaping.lossPctExtra.get d = some y ∧
        100 < x.value + y.value) ∧
    (∀ (a b : LinkEndpoint Value) (args : ShapingArgs),
      (∃ link, Link.make b a args.swap = .ok link) ↔ ∃ link, Link.make a b args = .ok link) ∧
    ∀ (a b : LinkEndpoint Value) (args : ShapingArgs) (link link' : Link),
      Link.make a b args = .ok link → Link.make b a args.swap = .ok link' →
        link'.a = link.b ∧ link'.b = link.a ∧
        ∀ d, directionParams link'.shaping d = directionParams link.shaping d.opposite := by
  refine ⟨fun link hrates d p => directionParams_resolved link.ok (hrates.2 d),
    fun _ _ _ => directionParams_congr, fun link _ _ _ => lossTotal_exceeds link.ok,
    fun a b args => ?_, fun a b args link link' hlink hlink' => ?_⟩
  · constructor
    · rintro ⟨link, hlink⟩
      exact ⟨link.swap, Link.make_swap hlink⟩
    · rintro ⟨link, hlink⟩
      exact ⟨link.swap, Link.make_swap hlink⟩
  · obtain rfl := Except.ok.inj (hlink'.symm.trans (Link.make_swap hlink))
    exact ⟨rfl, rfl, fun d => directionParams_swap link.shaping d⟩

/-- A host at a switch, with a longer delay to the switch than back. -/
def slowCalls : List Call := [
  .addHost { name := .str "h1" },
  .addSwitch { name := .str "s1", p4Src := .str "basic.p4" },
  .addLink (.value (.str "h1")) (.value (.str "s1")) {} {} { unshaped with
    delay := .str "100ms", delayExtra := ⟨.str "50ms", .none⟩ }]

theorem direction_params_correct_slow :
    ∃ link ∈ (after slowCalls).links, ∃ there back,
      Resolved link.shaping .aToB there ∧ there.delay = .str "150ms" ∧
      Resolved link.shaping .bToA back ∧ back.delay = .str "100ms" := by
  have hparse : parseDurationNs roundDouble "100ms".toList = .ok 100000000 ∧
      parseDurationNs roundDouble "50ms".toList = .ok 50000000 := by
    decide +kernel
  have hread : readDuration roundDouble (.str "100ms") = .ok 100000000 ∧
      readDuration roundDouble (.str "50ms") = .ok 50000000 := by
    simp only [readDuration, hparse, Except.mapError, and_self]
  have hsum : addDurations roundDouble (.str "100ms") (.str "50ms") = .ok (.str "150ms") := by
    have hformat : "150ms" = formatDurationNs (100000000 + 50000000) := by decide +kernel
    exact (addDurations_eq_ok_iff ..).mpr ⟨_, _, hread.1, hread.2, congrArg Value.str hformat⟩
  refine ⟨_, List.mem_singleton_self _, ⟨.none, .str "150ms", .none, none⟩, _,
    direction_params_correct.1 _ ?_ .aToB _ ?_, rfl,
    direction_params_correct.1 _ ?_ .bToA _ rfl, rfl⟩
  · exact ⟨fun h => absurd h (by decide), fun d h => absurd h (by cases d <;> decide)⟩
  · exact congrArg (fun r => r.map fun delay => (⟨.none, delay, .none, none⟩ : NetemParams)) hsum
  · exact ⟨fun h => absurd h (by decide), fun d h => absurd h (by cases d <;> decide)⟩

end Topo
end P4Net
