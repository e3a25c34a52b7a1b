import P4Net.NetemFormats
import P4Net.TopologyWiring

/-!
# Impairments at startup

What `Network` passes to `apply_netem` for a direction of a link, and what `apply_netem`
checks before it runs `tc`.

* `directionParams` : `_direction_params`, which adds durations and losses.
* `checkNetem` : the checks of the arguments of `apply_netem`.
* `Acceptable` : the condition on the fields of a link under which both succeed.
* `impairments_accepted_iff` : they succeed for all links of a topology iff all links are
  acceptable; `validate` does not look at the impairments.
-/

namespace P4Net
namespace Topo

open Netem Doubles

/-! ### The parameters of a direction -/

/-- The exceptions of `_direction_params`. -/
inductive ParamError where
  | typeError
  | duration (e : DurationError)
  | lossTotal (base extra : Number)
deriving Repr

/-- `_parse_duration_ns`; what is not a string is a `TypeError`. -/
def readDuration (fl : ℚ → Option ℚ) (value : Value) : Except ParamError Nat :=
  match value with
  | .str s => (parseDurationNs fl s.toList).mapError .duration
  | _ => .error .typeError

/-- `_add_durations`. -/
def addDurations (fl : ℚ → Option ℚ) (base extra : Value) : Except ParamError Value := do
  let a ← readDuration fl base
  let b ← readDuration fl extra
  return .str (formatDurationNs (a + b))

/-- `_resolve_dir_str`. -/
def resolveDirStr (sym perDir extra : Value) : Except ParamError Value :=
  if extra.isSet ∧ sym.isSet then addDurations roundDouble sym extra
  else .ok (if perDir.isSet then perDir else sym)

/-- `_resolve_dir_loss`. -/
def resolveDirLoss (sym perDir extra : Option Number) : Except ParamError (Option Number) :=
  match extra, sym with
  | some y, some x =>
      match x.add y with
      | some total =>
          if total.value ≤ 100 then .ok (some total) else .error (.lossTotal x y)
      -- A total beyond the range of floats exceeds 100 too.
      | none => .error (.lossTotal x y)
  | _, _ => .ok (perDir.or sym)

/-- The arguments of `apply_netem` after the interface. -/
structure NetemParams where
  rate : Value
  delay : Value
  jitter : Value
  lossPct : Option Number

/-- Some parameter is not `None`. -/
def NetemParams.isSet (p : NetemParams) : Bool :=
  p.rate.isSet || p.delay.isSet || p.jitter.isSet || p.lossPct.isSome

/-- `_direction_params`. -/
def directionParams (s : LinkShaping) (d : Direction) : Except ParamError NetemParams := do
  let own := s.bandwidthDir.get d
  let rate := if own.truthy then own else s.bandwidth
  let delay ← resolveDirStr s.delay (s.delayDir.get d) (s.delayExtra.get d)
  let jitter ← resolveDirStr s.jitter (s.jitterDir.get d) (s.jitterExtra.get d)
  let lossPct ← resolveDirLoss s.lossPct (s.lossPctDir.get d) (s.lossPctExtra.get d)
  return { rate, delay, jitter, lossPct }

/-! ### The checks of `apply_netem` -/

/-- `TcError`, as the checks of the arguments raise it. -/
inductive TcError where
  | noParams
  | jitterRequiresDelay
  | invalidRate (rate : Value)
  | invalidTime (label : String) (value : Value)
  | lossRange (loss : Number)
deriving Repr

/-- `_validate_rate` returns. -/
def isRate : Value → Bool
  | .str s => rateRe s.toList
  | _ => false

/-- `_validate_time` returns. -/
def isTime : Value → Bool
  | .str s => timeRe s.toList
  | _ => false

/-- The check of a time that is not `None`. -/
def checkTime (label : String) (value : Value) : Except TcError Unit :=
  check (value.isSet = true → isTime value = true) (.invalidTime label value)

/-- The check of a loss. -/
def checkLoss (loss : Option Number) : Except TcError Unit :=
  match loss with
  | some x => check (0 ≤ x.value ∧ x.value ≤ 100) (.lossRange x)
  | none => .ok ()

/-- The checks of the arguments of `apply_netem`. -/
def checkNetem (p : NetemParams) : Except TcError Unit := do
  check (p.isSet = true) .noParams
  check (p.jitter.isSet = true → p.delay.isSet = true) .jitterRequiresDelay
  check (p.rate.isSet = true → isRate p.rate = true) (.invalidRate p.rate)
  checkTime "delay" p.delay
  checkTime "jitter" p.jitter
  checkLoss p.lossPct

/-- What the checks require of parameters. -/
structure NetemOk (p : NetemParams) : Prop where
  jitterDelay : p.jitter.isSet = true → p.delay.isSet = true
  rate : p.rate.isSet = true → isRate p.rate = true
  delay : p.delay.isSet = true → isTime p.delay = true
  jitter : p.jitter.isSet = true → isTime p.jitter = true
  lossPct : ∀ loss ∈ p.lossPct, 0 ≤ loss.value ∧ loss.value ≤ 100

/-- Parameters of which none is set are not passed to `apply_netem`. -/
theorem checkNetem_iff
    (p : NetemParams) :
    (p.isSet = true → checkNetem p = .ok ()) ↔ NetemOk p := by
  have hchecks : checkNetem p = .ok () ↔ p.isSet = true ∧ NetemOk p := by
    have hloss : checkLoss p.lossPct = .ok () ↔
        ∀ loss ∈ p.lossPct, 0 ≤ loss.value ∧ loss.value ≤ 100 := by
      cases p.lossPct <;> simp [checkLoss]
    simp only [checkNetem, checkTime, bind_eq_ok_iff, check_eq_ok_iff, hloss]
    constructor
    · rintro ⟨_, hset, _, hjd, _, hrate, _, hdelay, _, hjitter, hloss⟩
      exact ⟨hset, hjd, hrate, hdelay, hjitter, hloss⟩
    · rintro ⟨hset, h⟩
      exact ⟨(), hset, (), h.jitterDelay, (), h.rate, (), h.delay, (), h.jitter, h.lossPct⟩
  rw [hchecks]
  constructor
  · intro h
    by_cases hset : p.isSet = true
    · exact (h hset).2
    · simp only [NetemParams.isSet, Bool.or_eq_true, not_or] at hset
      obtain ⟨⟨⟨hrate, hdelay⟩, hjitter⟩, hloss⟩ := hset
      refine ⟨fun h => absurd h hjitter, fun h => absurd h hrate, fun h => absurd h hdelay,
        fun h => absurd h hjitter, fun loss hmem => absurd ?_ hloss⟩
      rw [Option.mem_def.mp hmem]
      rfl
  · exact fun h hset => ⟨hset, h⟩

/-! ### Acceptable links -/

/-- The condition on a delay or a jitter.  With an addition, both texts are durations and
their sum is a positive number of microseconds; without one, the value that is used is a
time. -/
structure TimeAcceptable (sym own extra : Value) : Prop where
  ownTime : own.isSet = true → isTime own = true
  symTime : sym.isSet = true → extra.isSet = false → isTime sym = true
  sum : extra.isSet = true → ∃ a b,
    readDuration roundDouble sym = .ok a ∧ readDuration roundDouble extra = .ok b ∧
    0 < a + b ∧ (a + b) % 1000 = 0

/-- The condition on the impairments of a direction. -/
structure Acceptable (s : LinkShaping) (d : Direction) : Prop where
  ownBandwidth : (s.bandwidthDir.get d).truthy = true → isRate (s.bandwidthDir.get d) = true
  bandwidth : s.bandwidth.isSet = true → isRate s.bandwidth = true
  delay : TimeAcceptable s.delay (s.delayDir.get d) (s.delayExtra.get d)
  jitter : TimeAcceptable s.jitter (s.jitterDir.get d) (s.jitterExtra.get d)
  lossPct : ∀ x ∈ s.lossPct, ∀ y ∈ s.lossPctExtra.get d,
    ∃ total, x.add y = some total ∧ total.value ≤ 100

/-- `_direction_params` does not raise, and neither do the checks of `apply_netem`, where it
is called. -/
def Accepted (s : LinkShaping) (d : Direction) : Prop :=
  ∃ p, directionParams s d = .ok p ∧ (p.isSet = true → checkNetem p = .ok ())

/-- The value of a direction excludes the symmetric one and the addition. -/
structure Separate (sym own extra : Value) : Prop where
  exclusive : sym.isSet = true → own.isSet = false
  additive : extra.isSet = true → own.isSet = false ∧ sym.isSet = true

theorem separate_of_ok
    {sym : Value} {own extra : Directed Value}
    (hex : Exclusive sym.isSet (own.map Value.isSet))
    (had : Additive sym.isSet (own.map Value.isSet) (extra.map Value.isSet)) (d : Direction) :
    Separate sym (own.get d) (extra.get d) :=
  ⟨fun h => by simpa using hex h d, fun h => by simpa using had d (by simpa using h)⟩

/-- A duration is formatted as a string. -/
theorem addDurations_eq_ok_iff
    (fl : ℚ → Option ℚ) (sym extra v : Value) :
    addDurations fl sym extra = .ok v ↔
      ∃ a b, readDuration fl sym = .ok a ∧ readDuration fl extra = .ok b ∧
        v = .str (formatDurationNs (a + b)) := by
  simp only [addDurations, bind_eq_ok_iff, pure, Except.pure, Except.ok.injEq]
  constructor
  · rintro ⟨a, ha, b, hb, rfl⟩
    exact ⟨a, b, ha, hb, rfl⟩
  · rintro ⟨a, b, ha, hb, rfl⟩
    exact ⟨a, ha, b, hb, rfl⟩

/-- The value of a direction is set iff the symmetric value or its own is. -/
theorem resolveDirStr_isSet
    {sym own extra v : Value}
    (h : resolveDirStr sym own extra = .ok v) :
    v.isSet = true ↔ own.isSet = true ∨ sym.isSet = true := by
  unfold resolveDirStr at h
  by_cases hadd : extra.isSet = true ∧ sym.isSet = true
  · rw [if_pos hadd, addDurations_eq_ok_iff] at h
    obtain ⟨a, b, _, _, rfl⟩ := h
    exact iff_of_true rfl (Or.inr hadd.2)
  · rw [if_neg hadd, Except.ok.injEq] at h
    subst h
    by_cases hown : own.isSet = true <;> simp [hown]

theorem resolveDirStr_accepted_iff
    {sym own extra : Value}
    (sep : Separate sym own extra) :
    (∃ v, resolveDirStr sym own extra = .ok v ∧ (v.isSet = true → isTime v = true)) ↔
      TimeAcceptable sym own extra := by
  unfold resolveDirStr
  by_cases hextra : extra.isSet = true
  · obtain ⟨hown, hsym⟩ := sep.additive hextra
    rw [if_pos ⟨hextra, hsym⟩]
    simp only [addDurations_eq_ok_iff]
    constructor
    · rintro ⟨_, ⟨a, b, ha, hb, rfl⟩, htime⟩
      refine ⟨fun h => absurd h (by simp [hown]), fun _ h => absurd h (by simp [hextra]),
        fun _ => ⟨a, b, ha, hb, ?_⟩⟩
      exact (timeRe_formatDurationNs (a + b)).mp (htime rfl)
    · intro h
      obtain ⟨a, b, ha, hb, hsum⟩ := h.sum hextra
      exact ⟨_, ⟨a, b, ha, hb, rfl⟩, fun _ => (timeRe_formatDurationNs (a + b)).mpr hsum⟩
  · rw [if_neg fun h => hextra h.1]
    simp only [Except.ok.injEq, exists_eq_left']
    have hunset : extra.isSet = false := Bool.eq_false_iff.mpr hextra
    by_cases hown : own.isSet = true
    · have hsym : sym.isSet = false := by
        by_contra hsym
        exact absurd (sep.exclusive (Bool.eq_true_of_not_eq_false hsym)) (by simp [hown])
      rw [if_pos hown]
      constructor
      · intro h
        exact ⟨h, fun h => absurd h (by simp [hsym]), fun h => absurd h hextra⟩
      · exact fun h => h.ownTime
    · rw [if_neg hown]
      constructor
      · intro h
        exact ⟨fun h => absurd h hown, fun hsym _ => h hsym, fun h => absurd h hextra⟩
      · exact fun h hsym => h.symTime hsym hunset

/-- A loss is within 100: totals are checked here, all other losses by the link. -/
theorem resolveDirLoss_range
    {s : LinkShaping} (ok : ShapingOk s) {d : Direction} {loss : Option Number}
    (h : resolveDirLoss s.lossPct (s.lossPctDir.get d) (s.lossPctExtra.get d) = .ok loss) :
    ∀ x ∈ loss, 0 ≤ x.value ∧ x.value ≤ 100 := by
  have hrange : ∀ x ∈ (s.lossPctDir.get d).or s.lossPct, 0 ≤ x.value ∧ x.value ≤ 100 := by
    intro x hx
    rcases Option.or_eq_some_iff.mp hx with hown | ⟨_, hsym⟩
    · exact ok.lossDirRange d x hown
    · exact ok.lossRange x hsym
  unfold resolveDirLoss at h
  split at h
  · rename_i y x hextra hsym
    split at h
    · rename_i total hsum
      by_cases hle : total.value ≤ 100
      · rw [if_pos hle, Except.ok.injEq] at h
        subst h
        have hnonneg := Number.add_nonneg (ok.lossRange x hsym).1 (ok.lossExtraNonneg d y hextra) hsum
        simpa using ⟨hnonneg, hle⟩
      · rw [if_neg hle] at h
        cases h
    · cases h
  · cases h
    exact hrange

theorem resolveDirLoss_ok_iff
    (sym own extra : Option Number) :
    (∃ loss, resolveDirLoss sym own extra = .ok loss) ↔
      ∀ x ∈ sym, ∀ y ∈ extra, ∃ total, x.add y = some total ∧ total.value ≤ 100 := by
  cases extra with
  | none => simp [resolveDirLoss]
  | some y =>
      cases sym with
      | none => simp [resolveDirLoss]
      | some x =>
          cases hsum : x.add y with
          | none => simp [resolveDirLoss, hsum]
          | some total => by_cases hle : total.value ≤ 100 <;> simp [resolveDirLoss, hsum, hle]

/-- A jitter is resolved only where a delay is. -/
theorem jitter_requires_delay
    {s : LinkShaping} (ok : ShapingOk s) {d : Direction} {delay jitter : Value}
    (hdelay : resolveDirStr s.delay (s.delayDir.get d) (s.delayExtra.get d) = .ok delay)
    (hjitter : resolveDirStr s.jitter (s.jitterDir.get d) (s.jitterExtra.get d) = .ok jitter)
    (h : jitter.isSet = true) :
    delay.isSet = true := by
  rw [resolveDirStr_isSet hdelay]
  rcases (resolveDirStr_isSet hjitter).mp h with hown | hsym
  · exact ok.jitterDirDelay d hown
  · exact Or.inr (ok.jitterDelay hsym)

theorem isSet_of_truthy
    {v : Value}
    (h : v.truthy = true) :
    v.isSet = true := by
  cases v <;> simp_all [Value.truthy, Value.isSet]

/-- What is set of the bandwidths is a rate, where it is used. -/
theorem rate_accepted_iff
    {sym own : Value}
    (hex : sym.isSet = true → own.isSet = false) :
    ((if own.truthy then own else sym).isSet = true →
      isRate (if own.truthy then own else sym) = true) ↔
      (own.truthy = true → isRate own = true) ∧ (sym.isSet = true → isRate sym = true) := by
  by_cases hown : own.truthy = true
  · have hsym : ¬ sym.isSet = true := fun h => absurd (isSet_of_truthy hown) (by simp [hex h])
    simp [hown, isSet_of_truthy hown, hsym]
  · simp [hown]

/-- The condition is exact for every link that the constructor accepts. -/
theorem accepted_iff
    {s : LinkShaping} (ok : ShapingOk s) (d : Direction) :
    Accepted s d ↔ Acceptable s d := by
  have hrate := rate_accepted_iff fun h => by simpa using ok.bandwidth h d
  have hdelay := resolveDirStr_accepted_iff (separate_of_ok ok.delay ok.delayExtra d)
  have hjitter := resolveDirStr_accepted_iff (separate_of_ok ok.jitter ok.jitterExtra d)
  have hloss := resolveDirLoss_ok_iff s.lossPct (s.lossPctDir.get d) (s.lossPctExtra.get d)
  simp only [Accepted, checkNetem_iff, directionParams, bind_eq_ok_iff, pure, Except.pure,
    Except.ok.injEq]
  constructor
  · rintro ⟨p, ⟨delay, hd, jitter, hj, loss, hl, rfl⟩, hok⟩
    obtain ⟨hown, hsym⟩ := hrate.mp hok.rate
    exact ⟨hown, hsym, hdelay.mp ⟨delay, hd, hok.delay⟩, hjitter.mp ⟨jitter, hj, hok.jitter⟩,
      hloss.mp ⟨loss, hl⟩⟩
  · intro h
    obtain ⟨delay, hd, hdelayOk⟩ := hdelay.mpr h.delay
    obtain ⟨jitter, hj, hjitterOk⟩ := hjitter.mpr h.jitter
    obtain ⟨loss, hl⟩ := hloss.mpr h.lossPct
    exact ⟨_, ⟨delay, hd, jitter, hj, loss, hl, rfl⟩, jitter_requires_delay ok hd hj,
      hrate.mpr ⟨h.ownBandwidth, h.bandwidth⟩, hdelayOk, hjitterOk,
      resolveDirLoss_range ok hl⟩

/-- The loss of a direction is set iff the symmetric loss or its own is. -/
theorem resolveDirLoss_isSome
    {sym own extra loss : Option Number}
    (h : resolveDirLoss sym own extra = .ok loss) :
    loss.isSome = true ↔ own.isSome = true ∨ sym.isSome = true := by
  unfold resolveDirLoss at h
  split at h
  · split at h
    · split at h
      · cases h
        simp
      · cases h
    · cases h
  · cases h
    simp

@[simp] theorem shown_isSome
    (v : Value) :
    v.shown.isSome = v.isSet := by
  cases v <;> rfl

@[simp] theorem shown_nonempty
    (v : Value) :
    (v.shown.any fun shown => !decide (shown = "")) = v.truthy := by
  cases v with
  | none => rfl
  | str s => simp [Value.shown, Value.truthy]
  | _ => simp [Value.shown]

@[simp] theorem resolvesDir_iff
    (sym own extra : Option String) :
    Network.resolvesDir sym own extra = true ↔ own.isSome = true ∨ sym.isSome = true := by
  cases sym <;> cases own <;> simp [Network.resolvesDir]

/-- The network model calls `apply_netem` where a parameter is set. -/
theorem impaired_toNetwork
    {link : Link} {d : Direction} {p : NetemParams}
    (h : directionParams link.shaping d = .ok p) :
    link.toNetwork.impaired (LinkShaping.direction link.shaping d) = p.isSet := by
  simp only [directionParams, bind_eq_ok_iff, pure, Except.pure, Except.ok.injEq] at h
  obtain ⟨delay, hdelay, jitter, hjitter, loss, hloss, rfl⟩ := h
  have hrate : (if (link.shaping.bandwidthDir.get d).truthy then link.shaping.bandwidthDir.get d
      else link.shaping.bandwidth).isSet = true ↔
      (link.shaping.bandwidthDir.get d).truthy = true ∨ link.shaping.bandwidth.isSet = true := by
    by_cases hown : (link.shaping.bandwidthDir.get d).truthy = true
    · have hset : (link.shaping.bandwidthDir.get d).isSet = true := isSet_of_truthy hown
      simp [hown, hset]
    · simp [hown]
  rw [Bool.eq_iff_iff]
  simp [Network.Link.impaired, NetemParams.isSet, Link.toNetwork, LinkShaping.symmetric,
    LinkShaping.direction, hrate, resolveDirStr_isSet hdelay, resolveDirStr_isSet hjitter,
    resolveDirLoss_isSome hloss, or_assoc]

/-! ### Results -/

/--
The impairments of a topology are accepted at startup iff all of its links are acceptable.
Nothing that the links or `validate` have checked implies it.
-/
theorem impairments_accepted_iff
    (t : Topology) :
    (∀ link ∈ t.links, ∀ d, Accepted link.shaping d) ↔
      ∀ link ∈ t.links, ∀ d, Acceptable link.shaping d :=
  forall₂_congr fun link _ => forall_congr' fun d => accepted_iff link.ok d

/-- A host at a switch, with a bandwidth that is not a rate. -/
def fastCalls : List Call := [
  .addHost { name := .str "h1" },
  .addSwitch { name := .str "s1", p4Src := .str "basic.p4" },
  .addLink (.value (.str "h1")) (.value (.str "s1")) {} {} { unshaped with
    bandwidth := .str "fast" }]

/-- The topology is validated, and `apply_netem` rejects its link. -/
theorem fastCalls_rejected :
    (after fastCalls).validate = [] ∧
      ∃ link ∈ (after fastCalls).links, ∀ d, ∃ p, directionParams link.shaping d = .ok p ∧
        p.isSet = true ∧ checkNetem p = .error (.invalidRate (.str "fast")) := by
  refine ⟨by decide +kernel, _, List.mem_singleton_self _, fun d => ?_⟩
  cases d <;> exact ⟨_, rfl, rfl, rfl⟩

end Topo
end P4Net
