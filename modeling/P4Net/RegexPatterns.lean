import P4Net.TextLiterals

/-!
# Regular expressions without alternatives

Patterns of character sets, sequences and repetitions, and the two ways in which Python
anchors them.

* `Pattern.rests` : what a match at the start of a text can leave.
* `Pattern.Matches` : the texts that a pattern describes, and `mem_rests_iff`.
* `fullmatch_iff`, `matchToEnd_iff` : `fullmatch` describes exactly these texts, and `match`
  with a final `$` also such a text before a newline.
-/

namespace P4Net
namespace Regex

open TextLiterals

/-- A pattern. -/
inductive Pattern where
  | set (chars : Char → Bool)
  | seq (p q : Pattern)
  | times (n : Nat) (p : Pattern)

namespace Pattern

/-- What a match at the start of the text can leave. -/
def rests : Pattern → Text → List Text
  | set _, [] => []
  | set chars, c :: rest => if chars c then [rest] else []
  | seq p q, text => (p.rests text).flatMap q.rests
  | times n p, text => (fun texts => texts.flatMap p.rests)^[n] [text]

/-- `re.fullmatch`. -/
def fullmatch (p : Pattern) (text : Text) : Bool := decide ([] ∈ p.rests text)

/-- `re.match` of the pattern with `$` at its end: it stands before a last newline too. -/
def matchToEnd (p : Pattern) (text : Text) : Bool :=
  decide ([] ∈ p.rests text ∨ ['\n'] ∈ p.rests text)

/-- The text is one that the pattern describes. -/
def Matches : Pattern → Text → Prop
  | set chars, text => ∃ c, text = [c] ∧ chars c = true
  | seq p q, text => ∃ front back, text = front ++ back ∧ p.Matches front ∧ q.Matches back
  | times n p, text => ∃ pieces : List Text,
      pieces.length = n ∧ text = pieces.flatten ∧ ∀ piece ∈ pieces, p.Matches piece

theorem mem_iterate_rests
    {p : Pattern}
    (ih : ∀ text rest, rest ∈ p.rests text ↔ ∃ front, text = front ++ rest ∧ p.Matches front)
    (n : Nat) (texts : List Text) (rest : Text) :
    rest ∈ (fun texts => texts.flatMap p.rests)^[n] texts ↔
      ∃ text ∈ texts, ∃ front, text = front ++ rest ∧ (times n p).Matches front := by
  induction n generalizing texts with
  | zero =>
      constructor
      · intro h
        exact ⟨rest, h, [], rfl, [], rfl, rfl, by simp⟩
      · rintro ⟨text, htext, front, rfl, pieces, hlength, rfl, _⟩
        rw [List.length_eq_zero_iff.mp hlength] at htext
        exact htext
  | succ n ihn =>
      rw [Function.iterate_succ_apply, ihn]
      constructor
      · rintro ⟨mid, hmid, front, rfl, pieces, hlength, rfl, hpieces⟩
        obtain ⟨text, htext, hrest⟩ := List.mem_flatMap.mp hmid
        obtain ⟨piece, rfl, hpiece⟩ := (ih _ _).mp hrest
        refine ⟨_, htext, piece ++ pieces.flatten, by simp, piece :: pieces, by simp [hlength],
          rfl, ?_⟩
        exact List.forall_mem_cons.mpr ⟨hpiece, hpieces⟩
      · rintro ⟨text, htext, front, rfl, pieces, hlength, rfl, hpieces⟩
        cases pieces with
        | nil => cases hlength
        | cons piece pieces =>
            obtain ⟨hpiece, hrest⟩ := List.forall_mem_cons.mp hpieces
            refine ⟨pieces.flatten ++ rest, List.mem_flatMap.mpr ⟨_, htext, (ih _ _).mpr ?_⟩,
              pieces.flatten, rfl, pieces, by simpa using hlength, rfl, hrest⟩
            exact ⟨piece, by simp, hpiece⟩

/-- A match leaves what follows a text that the pattern describes. -/
theorem mem_rests_iff
    (p : Pattern) (text rest : Text) :
    rest ∈ p.rests text ↔ ∃ front, text = front ++ rest ∧ p.Matches front := by
  induction p generalizing text rest with
  | set chars =>
      cases text with
      | nil =>
          constructor
          · intro h
            cases h
          · rintro ⟨front, htext, c, rfl, _⟩
            cases htext
      | cons c cs =>
          by_cases hc : chars c = true
          · rw [rests, if_pos hc, List.mem_singleton]
            constructor
            · rintro rfl
              exact ⟨[c], rfl, c, rfl, hc⟩
            · rintro ⟨front, htext, d, rfl, _⟩
              exact (List.cons.inj htext).2.symm
          · rw [rests, if_neg hc]
            constructor
            · intro h
              cases h
            · rintro ⟨front, htext, d, rfl, hd⟩
              exact absurd ((List.cons.inj htext).1 ▸ hd) hc
  | seq p q ihp ihq =>
      rw [rests, List.mem_flatMap]
      constructor
      · rintro ⟨mid, hmid, hrest⟩
        obtain ⟨front, rfl, hfront⟩ := (ihp _ _).mp hmid
        obtain ⟨back, rfl, hback⟩ := (ihq _ _).mp hrest
        exact ⟨front ++ back, by simp, front, back, rfl, hfront, hback⟩
      · rintro ⟨_, rfl, front, back, rfl, hfront, hback⟩
        exact ⟨back ++ rest, (ihp _ _).mpr ⟨front, by simp, hfront⟩,
          (ihq _ _).mpr ⟨back, rfl, hback⟩⟩
  | times n p ih =>
      rw [rests, mem_iterate_rests ih]
      simp only [List.mem_singleton, exists_eq_left]

theorem fullmatch_iff
    (p : Pattern) (text : Text) :
    p.fullmatch text = true ↔ p.Matches text := by
  rw [fullmatch, decide_eq_true_iff, mem_rests_iff]
  simp

theorem matchToEnd_iff
    (p : Pattern) (text : Text) :
    p.matchToEnd text = true ↔
      p.Matches text ∨ ∃ front, text = front ++ ['\n'] ∧ p.Matches front := by
  rw [matchToEnd, decide_eq_true_iff, mem_rests_iff, mem_rests_iff]
  simp

end Pattern

end Regex
end P4Net
