import Mathlib.Data.List.Forall2
import P4Net.BinaryDoubles
import P4Net.OrderedDict
import P4Net.PosixPaths

/-!
# Python objects

The values that callers pass to the constructors of the topology layer and that its
snapshots are made of.

* `Value` : `None`, booleans, integers, floats, strings, lists, dictionaries, paths,
  and objects of other types, of which only the truth value is known.  A string is a
  sequence of Unicode scalar values, and the keys of a dictionary are strings.
* `Number` : a finite integer or float, with Python's mixed addition.
* `check` and `bind_eq_ok_iff` : the steps of a constructor that raises.
-/

namespace P4Net
namespace Topo

open TextLiterals Doubles PosixPaths

/-! ### Values -/

/-- A `float`. -/
inductive PyFloat where
  | finite (d : Double)
  | infinite (negative : Bool)
  | nan
deriving DecidableEq, Repr

/-- A Python object. -/
inductive Value where
  | none
  | bool (b : Bool)
  | int (n : Int)
  | float (x : PyFloat)
  | str (s : String)
  | list (items : List Value)
  | dict (items : List (String × Value))
  | path (p : Path)
  | object (truthy : Bool)
deriving Repr

namespace Value

/-- `value is not None`. -/
def isSet : Value → Bool
  | .none => false
  | _ => true

/-- `bool(value)`. -/
def truthy : Value → Bool
  | .none => false
  | .bool b => b
  | .int n => n ≠ 0
  | .float (.finite d) => d.value ≠ 0
  | .float _ => true
  | .str s => s ≠ ""
  | .list items => !items.isEmpty
  | .dict items => !items.isEmpty
  | .path _ => true
  | .object truthy => truthy

/-- The hash of the value is defined. -/
def hashable : Value → Bool
  | .list _ => false
  | .dict _ => false
  | _ => true

/-- `value` where a string is expected. -/
def asStr : Value → Option String
  | .str s => some s
  | _ => Option.none

/-- `value` where a `bool` is expected. -/
def asBool : Value → Option Bool
  | .bool b => some b
  | _ => Option.none

/-- `Path(value)`; other values are a `TypeError`. -/
def asPath : Value → Option Path
  | .str s => some (Path.ofText s.toList)
  | .path p => some p
  | _ => Option.none

/-- `value` where a string or `None` is expected. -/
def asOptStr : Value → Option (Option String)
  | .none => some Option.none
  | .str s => some (some s)
  | _ => Option.none

/-- `value` where an integer that is not a `bool`, or `None`, is expected. -/
def asOptInt : Value → Option (Option Int)
  | .none => some Option.none
  | .int n => some (some n)
  | _ => Option.none

/-- A string or `None`. -/
def ofOptStr : Option String → Value
  | some s => .str s
  | Option.none => .none

@[simp] theorem ofOptStr_eq_none_iff
    (o : Option String) :
    ofOptStr o = .none ↔ o = Option.none := by
  cases o <;> simp [ofOptStr]

/-- An integer or `None`. -/
def ofOptInt : Option Int → Value
  | some n => .int n
  | Option.none => .none

@[simp] theorem asStr_eq_some_iff
    (v : Value) (s : String) :
    v.asStr = some s ↔ v = .str s := by
  cases v <;> simp [asStr]

@[simp] theorem asBool_eq_some_iff
    (v : Value) (b : Bool) :
    v.asBool = some b ↔ v = .bool b := by
  cases v <;> simp [asBool]

@[simp] theorem asOptStr_eq_some_iff
    (v : Value) (o : Option String) :
    v.asOptStr = some o ↔ v = ofOptStr o := by
  cases o <;> cases v <;> simp [asOptStr, ofOptStr]

@[simp] theorem asOptInt_eq_some_iff
    (v : Value) (o : Option Int) :
    v.asOptInt = some o ↔ v = ofOptInt o := by
  cases o <;> cases v <;> simp [asOptInt, ofOptInt]

end Value

/-! ### Numbers -/

/-- An integer in the range of `float`, or a finite float. -/
inductive Number where
  | int (n : Int) (finite : (roundDouble n).isSome)
  | float (d : Double)
deriving DecidableEq, Repr

namespace Number

/-- The exact value, by which Python compares numbers. -/
def value : Number → ℚ
  | .int n _ => n
  | .float d => d.value

/-- The number as an object. -/
def toValue : Number → Value
  | .int n _ => .int n
  | .float d => .float (.finite d)

/-- `isinstance(value, (int, float))` without `bool`, and `math.isfinite(value)`. -/
def ofValue : Value → Option Number
  | .int n => if h : (roundDouble n).isSome then some (.int n h) else none
  | .float (.finite d) => some (.float d)
  | _ => none

@[simp] theorem ofValue_eq_some_iff
    (v : Value) (x : Number) :
    ofValue v = some x ↔ v = x.toValue := by
  cases x with
  | int n h =>
      cases v with
      | int m =>
          by_cases hm : (roundDouble m).isSome
          · simp [ofValue, toValue, hm]
          · have hne : m ≠ n := by
              rintro rfl
              exact hm h
            simp [ofValue, toValue, hm, hne]
      | float x => cases x <;> simp [ofValue, toValue]
      | _ => simp [ofValue, toValue]
  | float d =>
      cases v with
      | int m =>
          by_cases hm : (roundDouble m).isSome <;> simp [ofValue, toValue, hm]
      | float x => cases x <;> simp [ofValue, toValue]
      | _ => simp [ofValue, toValue]

/-- `value` where such a number, or `None`, is expected. -/
def ofOptValue : Value → Option (Option Number)
  | .none => some none
  | v => (ofValue v).map some

/-- A number or `None`. -/
def toOptValue : Option Number → Value
  | some x => x.toValue
  | none => .none

@[simp] theorem ofOptValue_eq_some_iff
    (v : Value) (o : Option Number) :
    ofOptValue v = some o ↔ v = toOptValue o := by
  have hnone : ∀ x : Number, Value.none ≠ x.toValue := by
    intro x
    cases x <;> simp [toValue]
  cases o with
  | none => cases v <;> simp [ofOptValue, toOptValue]
  | some x =>
      have hx := ofValue_eq_some_iff v x
      cases v <;> simp_all [ofOptValue, toOptValue]

/-- The sum of two numbers as floats. -/
def addFloat (x y : Number) : Option Number := do
  let a ← roundDouble x.value
  let b ← roundDouble y.value
  let sum ← Double.ofRat (a + b)
  return .float sum

/-- An integer in the range of floats. -/
def ofInt (n : Int) : Option Number :=
  if h : (roundDouble n).isSome then some (.int n h) else none

/-- `x + y`: a float in it makes it a sum of floats.  `none` is beyond their range. -/
def add : Number → Number → Option Number
  | .int m _, .int n _ => ofInt (m + n)
  | x, y => addFloat x y

theorem ofInt_value
    {n : Int} {z : Number}
    (h : ofInt n = some z) :
    z.value = n := by
  unfold ofInt at h
  split at h
  · cases h
    rfl
  · cases h

theorem addFloat_nonneg
    {x y z : Number}
    (hx : 0 ≤ x.value) (hy : 0 ≤ y.value) (h : x.addFloat y = some z) :
    0 ≤ z.value := by
  simp only [addFloat, Option.bind_eq_bind, Option.bind_eq_some_iff, Option.pure_def,
    Option.some.injEq] at h
  obtain ⟨a, ha, b, hb, sum, hsum, rfl⟩ := h
  exact Double.ofRat_nonneg
    (Rat.add_nonneg (roundDouble_nonneg hx ha) (roundDouble_nonneg hy hb)) hsum

theorem add_nonneg
    {x y z : Number}
    (hx : 0 ≤ x.value) (hy : 0 ≤ y.value) (h : x.add y = some z) :
    0 ≤ z.value := by
  cases x with
  | float d => exact addFloat_nonneg hx hy h
  | int m hm =>
      cases y with
      | float d => exact addFloat_nonneg hx hy h
      | int n hn =>
          rw [ofInt_value h, Int.cast_add]
          exact Rat.add_nonneg hx hy

/-- Numbers of small magnitude are not changed by their conversion to floats. -/
theorem roundDouble_value
    {x : Number} {n : ℕ}
    (hx : 0 ≤ x.value) (hle : x.value ≤ n) (hn : n < 2 ^ 53) :
    roundDouble x.value = some x.value := by
  cases x with
  | float d => exact d.rounded
  | int m hm =>
      have hm0 : 0 ≤ m := by
        simpa [value] using hx
      have hmn : m ≤ n := by
        have hle : (m : ℚ) ≤ n := hle
        exact_mod_cast hle
      have habs : |m| ≤ 2 ^ 53 := by
        rw [abs_of_nonneg hm0]
        omega
      obtain ⟨r, hr, _⟩ := roundDouble_le_natCast hx hle hn
      have hlt : |(m : ℚ) * 2 ^ (0 : ℤ)| < 2 ^ 1024 := by
        have hcast : |(m : ℚ)| ≤ 2 ^ 53 := by exact_mod_cast habs
        rw [zpow_zero, mul_one]
        exact lt_of_le_of_lt hcast (pow_lt_pow_right₀ (by norm_num) (by norm_num))
      have hscaled := roundDouble_scaled habs (by norm_num) hlt
      rwa [zpow_zero, mul_one] at hscaled

/-- A small sum is within the range of floats, and does not cross an integer. -/
theorem add_le_natCast
    {x y : Number} {n : ℕ}
    (hx : 0 ≤ x.value) (hy : 0 ≤ y.value) (hle : x.value + y.value ≤ n) (hn : n < 2 ^ 53) :
    ∃ z, x.add y = some z ∧ z.value ≤ n := by
  have hxn : x.value ≤ n := le_trans (le_add_of_nonneg_right hy) hle
  have hyn : y.value ≤ n := le_trans (le_add_of_nonneg_left hx) hle
  obtain ⟨r, hr, hrn⟩ := roundDouble_le_natCast (Rat.add_nonneg hx hy) hle hn
  have hfloat : ∃ z, x.addFloat y = some z ∧ z.value ≤ n :=
    ⟨.float ⟨r, roundDouble_idem hr⟩, by
      simp [addFloat, roundDouble_value hx hxn hn, roundDouble_value hy hyn hn,
        Double.ofRat_eq_some hr], hrn⟩
  cases x with
  | float d => exact hfloat
  | int m hm =>
      cases y with
      | float d => exact hfloat
      | int k hk =>
          have hsome : (roundDouble (m + k : ℤ)).isSome := by
            rw [Int.cast_add]
            exact Option.isSome_iff_exists.mpr ⟨r, hr⟩
          exact ⟨.int (m + k) hsome, dif_pos hsome, by simpa [value] using hle⟩

end Number

/-! ### Constructors that raise -/

section Checks

variable {ε α β : Type}

/-- Raise `e` unless the condition holds. -/
def check (c : Prop) [Decidable c] (e : ε) : Except ε Unit :=
  if c then .ok () else .error e

/-- The value of a reading, or `e`. -/
def orRaise (reading : Option α) (e : ε) : Except ε α :=
  match reading with
  | some a => .ok a
  | none => .error e

@[simp] theorem check_eq_ok_iff
    (c : Prop) [Decidable c] (e : ε) (u : Unit) :
    check c e = .ok u ↔ c := by
  by_cases h : c <;> simp [check, h]

@[simp] theorem orRaise_eq_ok_iff
    (reading : Option α) (e : ε) (a : α) :
    orRaise reading e = .ok a ↔ reading = some a := by
  cases reading <;> simp [orRaise]

/-- A sequence succeeds when both of its parts do. -/
theorem bind_eq_ok_iff
    (x : Except ε α) (f : α → Except ε β) (b : β) :
    (x >>= f) = .ok b ↔ ∃ a, x = .ok a ∧ f a = .ok b := by
  cases x <;> simp [bind, Except.bind]

/-- A sequence raises when its first part does, or its second after the first. -/
theorem bind_eq_error_iff
    (x : Except ε α) (f : α → Except ε β) (e : ε) :
    (x >>= f) = .error e ↔ x = .error e ∨ ∃ a, x = .ok a ∧ f a = .error e := by
  cases x <;> simp [bind, Except.bind]

/-- Reading a list succeeds when every element can be read. -/
theorem mapM_eq_ok_iff
    {γ : Type} (f : α → Except ε γ) (l : List α) (out : List γ) :
    l.mapM f = .ok out ↔ List.Forall₂ (fun a b => f a = .ok b) l out := by
  induction l generalizing out with
  | nil =>
      rw [List.mapM_nil, List.forall₂_nil_left_iff]
      constructor
      · intro h
        exact (Except.ok.inj h).symm
      · rintro rfl
        rfl
  | cons a rest ih =>
      rw [List.mapM_cons, bind_eq_ok_iff, List.forall₂_cons_left_iff]
      constructor
      · rintro ⟨b, hb, h⟩
        obtain ⟨bs, hbs, hout⟩ := (bind_eq_ok_iff _ _ _).mp h
        exact ⟨b, bs, hb, (ih bs).mp hbs, (Except.ok.inj hout).symm⟩
      · rintro ⟨b, bs, hb, hbs, rfl⟩
        exact ⟨b, hb, (bind_eq_ok_iff _ _ _).mpr ⟨bs, (ih bs).mpr hbs, rfl⟩⟩

/-- A list whose reading raises has an element whose reading raises. -/
theorem exists_of_mapM_eq_error
    {γ : Type} {f : α → Except ε γ} {l : List α} {e : ε}
    (h : l.mapM f = .error e) :
    ∃ a ∈ l, f a = .error e := by
  induction l with
  | nil => cases h
  | cons a rest ih =>
      rw [List.mapM_cons, bind_eq_error_iff] at h
      rcases h with ha | ⟨b, _, h⟩
      · exact ⟨a, List.mem_cons_self .., ha⟩
      · rcases (bind_eq_error_iff _ _ _).mp h with hrest | ⟨bs, _, hpure⟩
        · obtain ⟨a', ha', hread⟩ := ih hrest
          exact ⟨a', List.mem_cons_of_mem _ ha', hread⟩
        · cases hpure

end Checks

end Topo
end P4Net
