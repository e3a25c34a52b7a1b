import P4Net.IntegerLiterals
import P4Net.TextJoins

/-!
# Texts of addresses

What the readers of IPv4 and IPv6 addresses accept, part by part.

* `ipv4Packed_chars`, `colon_mem_of_ipv6Packed` : the characters that tell them apart.
* `groupsValue` : the value of the groups between colons.
* `ipv6Value_eq_some_iff`, `ipv6Packed_eq_some_iff` : what is read, and from which part.
-/

namespace P4Net
namespace TextLiterals

open BigEndian

/-! ### What the readers accept -/

theorem splitOnce_of_not_mem
    {sep : Char} {text : Text}
    (h : sep ∉ text) :
    splitOnce sep text = none := by
  induction text with
  | nil => rfl
  | cons c cs ih =>
      simp only [List.mem_cons, not_or] at h
      rw [splitOnce, if_neg (Ne.symm h.1), ih h.2]
      rfl

theorem isDigit_of_ipv4Octet
    {part : Text} {b : UInt8}
    (h : ipv4Octet part = some b) {c : Char} (hc : c ∈ part) :
    '0' ≤ c ∧ c ≤ '9' := by
  unfold ipv4Octet at h
  by_cases hbad : part.isEmpty = true ∨ ¬ (part.all fun c => decide ('0' ≤ c ∧ c ≤ '9')) = true
  · rw [if_pos hbad] at h
    cases h
  · rw [not_or, not_not] at hbad
    exact of_decide_eq_true (List.all_eq_true.mp hbad.2 c hc)

/-- An IPv4 address has three dots, and no colon. -/
theorem ipv4Packed_chars
    {text : Text} {packed : Bytes}
    (h : ipv4Packed text = some packed) :
    text.count '.' = 3 ∧ ':' ∉ text := by
  unfold ipv4Packed at h
  split at h
  · rename_i a b c d hsplit
    have hcount := length_splitOn '.' text
    rw [hsplit] at hcount
    refine ⟨by simpa using hcount.symm, fun hmem => ?_⟩
    rw [← join_splitOn '.' text, hsplit] at hmem
    rcases mem_join hmem with hc | ⟨part, hpart, hc⟩
    · cases hc
    · have hsome : (ipv4Octet part).isSome := by
        simp only [List.mapM_cons, List.mapM_nil, Option.bind_eq_bind, Option.pure_def,
          Option.bind_eq_some_iff] at h
        rcases h with ⟨_, ha, _, ⟨_, hb, _, ⟨_, hc', _, ⟨_, hd, _⟩, _⟩, _⟩, _⟩
        simp only [List.mem_cons, List.not_mem_nil, or_false] at hpart
        rcases hpart with rfl | rfl | rfl | rfl <;> simp_all
      obtain ⟨b, hb⟩ := Option.isSome_iff_exists.mp hsome
      have hdigit := isDigit_of_ipv4Octet hb hc
      revert hdigit
      decide
  · cases h

/-- Without an empty group nothing is skipped. -/
theorem skipIndices_of_not_mem
    {parts : List Text}
    (hne : [] ∉ parts) :
    skipIndices parts = [] := by
  rw [skipIndices, List.filter_eq_nil_iff]
  intro i _
  simp only [decide_eq_true_eq, not_and]
  exact fun _ _ hi => hne (List.mem_of_getElem? hi)

/-- The value of the groups, once a dotted quad is replaced. -/
def groupsValue (parts : List Text) : Option Nat :=
  let startsEmpty := parts.head? = some []
  let endsEmpty := parts.getLast? = some []
  match skipIndices parts with
  | [] =>
      if parts.length ≠ 8 ∨ startsEmpty ∨ endsEmpty then none
      else hextetsValue parts
  | [skip] =>
      if startsEmpty ∧ skip ≠ 1 then none
      else if endsEmpty ∧ parts.length - skip - 1 ≠ 1 then none
      else
        let hi := if startsEmpty then 0 else skip
        let lo := if endsEmpty then 0 else parts.length - skip - 1
        if 8 ≤ hi + lo then none
        else do
          let high ← hextetsValue (parts.take hi)
          let low ← hextetsValue (parts.drop (parts.length - lo))
          some (high * 2 ^ (16 * (8 - hi)) + low)
  | _ => none

theorem expandIpv4Suffix_of_not_mem
    {text : Text}
    (h : '.' ∉ text) :
    expandIpv4Suffix (splitOn ':' text) = some (splitOn ':' text) := by
  unfold expandIpv4Suffix
  split
  · rfl
  · rename_i suffix hlast
    have hdot : '.' ∉ suffix := fun hmem =>
      h (join_splitOn ':' text ▸ mem_join_of_mem (List.mem_of_getLast? hlast) hmem)
    rw [if_neg hdot]

/-- The value is that of the groups of a split of three to nine parts. -/
theorem ipv6Value_eq_some_iff
    (text : Text) (value : Nat) :
    ipv6Value text = some value ↔
      3 ≤ (splitOn ':' text).length ∧ ∃ parts, expandIpv4Suffix (splitOn ':' text) = some parts ∧
        parts.length ≤ 9 ∧ groupsValue parts = some value := by
  have hguard : ∀ (c : Prop) [Decidable c] (x : Option Nat),
      (if c then (none >>= fun _ : PUnit => x) else x) = some value ↔ ¬ c ∧ x = some value := by
    intro c _ x
    by_cases hc : c
    · simp [hc]
    · simp [hc]
  unfold ipv6Value
  simp only
  rw [hguard, not_lt]
  refine and_congr_right fun _ => ?_
  rw [Option.bind_eq_bind, Option.bind_eq_some_iff]
  refine exists_congr fun parts => and_congr_right fun _ => ?_
  rw [hguard, not_lt]
  rfl

theorem ipv6Packed_eq_some_iff
    (text : Text) (packed : Bytes) :
    ipv6Packed text = some packed ↔
      '/' ∉ text ∧ ∃ addr value, splitScopeId text = some addr ∧ ipv6Value addr = some value ∧
        packed = toBytes 16 value := by
  unfold ipv6Packed
  by_cases hslash : '/' ∈ text
  · simp [hslash]
  · simp [hslash, Option.bind_eq_some_iff, eq_comm (a := packed)]

/-- The address without its zone. -/
theorem splitScopeId_append
    {text addr : Text}
    (h : splitScopeId text = some addr) :
    text = addr ∨ ∃ scope, text = addr ++ '%' :: scope := by
  have honce : ∀ (t : Text) (p : Text × Text), splitOnce '%' t = some p → t = p.1 ++ '%' :: p.2 := by
    intro t
    induction t with
    | nil =>
        intro p hp
        cases hp
    | cons c cs ih =>
        intro p hp
        rw [splitOnce] at hp
        by_cases hc : c = '%'
        · rw [if_pos hc] at hp
          obtain rfl := Option.some.inj hp
          simp [hc]
        · rw [if_neg hc] at hp
          obtain ⟨q, hq, rfl⟩ := Option.map_eq_some_iff.mp hp
          rw [ih q hq]
          rfl
  unfold splitScopeId at h
  split at h
  · exact Or.inl (Option.some.inj h)
  · rename_i addr' scope hsplit
    by_cases hbad : scope.isEmpty = true ∨ '%' ∈ scope
    · rw [if_pos hbad] at h
      cases h
    · rw [if_neg hbad] at h
      obtain rfl := Option.some.inj h
      exact Or.inr ⟨scope, honce text _ hsplit⟩

/-- An IPv6 address has a colon. -/
theorem colon_mem_of_ipv6Packed
    {text : Text} {packed : Bytes}
    (h : ipv6Packed text = some packed) :
    ':' ∈ text := by
  obtain ⟨_, addr, value, hscope, hvalue, _⟩ := (ipv6Packed_eq_some_iff _ _).mp h
  have hparts := ((ipv6Value_eq_some_iff _ _).mp hvalue).1
  have hcount := length_splitOn ':' addr
  have hmem : ':' ∈ addr := List.count_pos_iff.mp (by omega)
  rcases splitScopeId_append hscope with rfl | ⟨scope, rfl⟩
  · exact hmem
  · exact List.mem_append_left _ hmem

end TextLiterals
end P4Net
