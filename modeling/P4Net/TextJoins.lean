import P4Net.TextLiterals

/-!
# Texts joined at a separator

`join` is `sep.join(parts)` for a one-character separator, and `splitOn` undoes it where no
part has the separator.

* `splitOn_join`, `join_splitOn` : the two directions.
* `join_cons_eq`, `join_concat_eq` : a joined text without the first or the last part.
* `count_join` : how often a character occurs in a joined text.
* `splitOnce_append`, `rsplitOnce_append` : the parts around the first and the last separator;
  `splitOnce_eq_some` and `rsplitOnce_eq_some` are their converses.
* `splitOnText_pair` : the two parts around a longer separator.
-/

namespace P4Net
namespace TextLiterals

/-- `sep.join(parts)`. -/
def join (sep : Char) (parts : List Text) : Text := [sep].intercalate parts

@[simp] theorem join_nil
    (sep : Char) :
    join sep [] = [] := rfl

@[simp] theorem join_singleton
    (sep : Char) (part : Text) :
    join sep [part] = part := by
  simp [join]

theorem join_cons_cons
    (sep : Char) (part part' : Text) (parts : List Text) :
    join sep (part :: part' :: parts) = part ++ sep :: join sep (part' :: parts) := by
  simp [join]

/-- Every part but the first follows a separator. -/
theorem join_cons_eq
    (sep : Char) (part : Text) (parts : List Text) :
    join sep (part :: parts) = part ++ (parts.map (sep :: ·)).flatten := by
  induction parts generalizing part with
  | nil => simp
  | cons next rest ih =>
      rw [join_cons_cons, ih]
      simp

/-- Every part but the last precedes a separator. -/
theorem join_concat_eq
    (sep : Char) (parts : List Text) (part : Text) :
    join sep (parts ++ [part]) = (parts.map (· ++ [sep])).flatten ++ part := by
  induction parts with
  | nil => simp
  | cons first rest ih =>
      cases rest with
      | nil => simp [join_cons_cons]
      | cons second rest =>
          rw [List.cons_append, List.cons_append, join_cons_cons, ← List.cons_append, ih]
          simp

/-- `splitOn` is the function of the library. -/
theorem splitOn_eq
    (sep : Char) (text : Text) :
    splitOn sep text = text.splitOn sep := by
  induction text with
  | nil => rfl
  | cons c cs ih =>
      rw [splitOn, ih, List.splitOn_eq_splitOnP, List.splitOn_eq_splitOnP,
        List.splitOnP_cons_eq_if_modifyHead]
      by_cases hc : c = sep
      · simp [hc]
      · rw [if_neg hc, if_neg (by simpa using hc)]
        cases h : List.splitOnP (· == sep) cs with
        | nil => exact absurd h (List.splitOnP_ne_nil _ _)
        | cons part parts => rfl

theorem splitOn_join
    {sep : Char} {parts : List Text}
    (hne : parts ≠ []) (h : ∀ part ∈ parts, sep ∉ part) :
    splitOn sep (join sep parts) = parts := by
  rw [splitOn_eq]
  exact List.splitOn_intercalate sep h hne

theorem join_splitOn
    (sep : Char) (text : Text) :
    join sep (splitOn sep text) = text := by
  rw [splitOn_eq]
  exact List.intercalate_splitOn sep

theorem splitOn_ne_nil
    (sep : Char) (text : Text) :
    splitOn sep text ≠ [] := by
  rw [splitOn_eq, List.splitOn_eq_splitOnP]
  exact List.splitOnP_ne_nil _ _

/-- A text without the separator is one part. -/
theorem splitOn_of_not_mem
    {sep : Char} {text : Text}
    (h : sep ∉ text) :
    splitOn sep text = [text] := by
  have hjoin : splitOn sep (join sep [text]) = [text] :=
    splitOn_join (by simp) (by simpa using h)
  rwa [join_singleton] at hjoin

theorem splitOn_append
    {sep : Char} {front : Text}
    (h : sep ∉ front) (rest : Text) :
    splitOn sep (front ++ sep :: rest) = front :: splitOn sep rest := by
  induction front with
  | nil => simp [splitOn]
  | cons c cs ih =>
      simp only [List.mem_cons, not_or] at h
      rw [List.cons_append, splitOn, if_neg (Ne.symm h.1), ih h.2]

/-- No part of a split has the separator. -/
theorem not_mem_of_mem_splitOn
    {sep : Char} {text part : Text}
    (h : part ∈ splitOn sep text) :
    sep ∉ part := by
  induction text generalizing part with
  | nil =>
      rw [splitOn, List.mem_singleton] at h
      simp [h]
  | cons c cs ih =>
      unfold splitOn at h
      by_cases hc : c = sep
      · rw [if_pos hc, List.mem_cons] at h
        rcases h with rfl | h
        · simp
        · exact ih h
      · rw [if_neg hc] at h
        cases hsplit : splitOn sep cs with
        | nil => exact absurd hsplit (splitOn_ne_nil sep cs)
        | cons first rest =>
            rw [hsplit] at h ih
            rcases List.mem_cons.mp h with rfl | hmem
            · have hfirst := ih (List.mem_cons_self ..)
              simp [Ne.symm hc, hfirst]
            · exact ih (List.mem_cons_of_mem _ hmem)

theorem mem_join
    {sep c : Char} {parts : List Text}
    (h : c ∈ join sep parts) :
    c = sep ∨ ∃ part ∈ parts, c ∈ part := by
  cases parts with
  | nil => simp at h
  | cons part parts =>
      rw [join_cons_eq, List.mem_append, List.mem_flatten] at h
      rcases h with h | ⟨piece, hpiece, hc⟩
      · exact Or.inr ⟨part, by simp, h⟩
      · obtain ⟨next, hnext, rfl⟩ := List.mem_map.mp hpiece
        rcases List.mem_cons.mp hc with rfl | hc
        · exact Or.inl rfl
        · exact Or.inr ⟨next, List.mem_cons_of_mem _ hnext, hc⟩

theorem mem_join_of_mem
    {sep c : Char} {parts : List Text} {part : Text}
    (h : part ∈ parts) (hc : c ∈ part) :
    c ∈ join sep parts := by
  cases parts with
  | nil => cases h
  | cons first rest =>
      rw [join_cons_eq, List.mem_append]
      rcases List.mem_cons.mp h with rfl | h
      · exact Or.inl hc
      · exact Or.inr (List.mem_flatten.mpr
          ⟨sep :: part, List.mem_map.mpr ⟨part, h, rfl⟩, List.mem_cons_of_mem _ hc⟩)

/-- A character other than the separator occurs as often as in the parts. -/
theorem count_join
    {sep c : Char} (parts : List Text)
    (hc : c ≠ sep) :
    (join sep parts).count c = (parts.map (List.count c)).sum := by
  cases parts with
  | nil => simp
  | cons first rest =>
      have hparts : (rest.map (sep :: ·)).map (List.count c) = rest.map (List.count c) := by
        rw [List.map_map]
        exact List.map_congr_left fun part _ => List.count_cons_of_ne (Ne.symm hc)
      rw [join_cons_eq, List.count_append, List.count_flatten, hparts, List.map_cons,
        List.sum_cons]

/-- The separator occurs once less often than there are parts. -/
theorem count_sep_join
    {sep : Char} {parts : List Text}
    (h : ∀ part ∈ parts, sep ∉ part) :
    (join sep parts).count sep = parts.length - 1 := by
  cases parts with
  | nil => simp
  | cons first rest =>
      have hparts : (rest.map (sep :: ·)).map (List.count sep) = rest.map fun _ => 1 := by
        rw [List.map_map]
        refine List.map_congr_left fun part hpart => ?_
        have hnone := List.count_eq_zero.mpr (h part (List.mem_cons_of_mem _ hpart))
        simp [hnone]
      rw [join_cons_eq, List.count_append, List.count_eq_zero.mpr (h first (by simp)),
        List.count_flatten, hparts]
      simp

/-- A split has one part more than there are separators. -/
theorem length_splitOn
    (sep : Char) (text : Text) :
    (splitOn sep text).length = text.count sep + 1 := by
  have hcount : (join sep (splitOn sep text)).count sep = (splitOn sep text).length - 1 :=
    count_sep_join fun part hpart => not_mem_of_mem_splitOn hpart
  have hpos := List.length_pos_iff.mpr (splitOn_ne_nil sep text)
  rw [join_splitOn] at hcount
  omega

/-! ### One separator -/

theorem splitOnce_append
    {sep : Char} {front : Text}
    (h : sep ∉ front) (rest : Text) :
    splitOnce sep (front ++ sep :: rest) = some (front, rest) := by
  induction front with
  | nil => simp [splitOnce]
  | cons c cs ih =>
      simp only [List.mem_cons, not_or] at h
      rw [List.cons_append, splitOnce, if_neg (Ne.symm h.1), ih h.2]
      rfl

theorem rsplitOnce_append
    {sep : Char} {back : Text}
    (h : sep ∉ back) (front : Text) :
    rsplitOnce sep (front ++ sep :: back) = some (front, back) := by
  have hreverse : (front ++ sep :: back).reverse = back.reverse ++ sep :: front.reverse := by
    simp
  rw [rsplitOnce, hreverse, splitOnce_append (by simpa using h)]
  simp

/-- What `splitOnce` returns are the parts around the first separator. -/
theorem splitOnce_eq_some
    {sep : Char} {text front rest : Text}
    (h : splitOnce sep text = some (front, rest)) :
    text = front ++ sep :: rest ∧ sep ∉ front := by
  induction text generalizing front with
  | nil => cases h
  | cons c cs ih =>
      rw [splitOnce] at h
      split_ifs at h with hc
      · obtain ⟨rfl, rfl⟩ := Prod.mk.inj (Option.some.inj h)
        exact ⟨by rw [hc]; rfl, List.not_mem_nil⟩
      · obtain ⟨⟨front', rest'⟩, hsplit, heq⟩ := Option.map_eq_some_iff.mp h
        obtain ⟨rfl, rfl⟩ := Prod.mk.inj heq
        obtain ⟨rfl, hnot⟩ := ih hsplit
        refine ⟨rfl, ?_⟩
        simp only [List.mem_cons, not_or]
        exact ⟨Ne.symm hc, hnot⟩

/-- What `rsplitOnce` returns are the parts around the last separator. -/
theorem rsplitOnce_eq_some
    {sep : Char} {text front back : Text}
    (h : rsplitOnce sep text = some (front, back)) :
    text = front ++ sep :: back ∧ sep ∉ back := by
  obtain ⟨⟨last, first⟩, hsplit, heq⟩ := Option.map_eq_some_iff.mp h
  obtain ⟨rfl, rfl⟩ := Prod.mk.inj heq
  obtain ⟨hreverse, hnot⟩ := splitOnce_eq_some hsplit
  refine ⟨?_, by simpa using hnot⟩
  rw [← List.reverse_reverse text, hreverse]
  simp

/-! ### Longer separators -/

/-- The parts of a text; `skip` characters of the last separator are still to be passed. -/
def partsFrom (sep : Text) : Nat → Text → List Text
  | _, [] => [[]]
  | skip + 1, _ :: cs => partsFrom sep skip cs
  | 0, c :: cs =>
      if sep.isPrefixOf (c :: cs) then [] :: partsFrom sep (sep.length - 1) cs
      else (partsFrom sep 0 cs).modifyHead (c :: ·)

/-- `text.split(sep)` for a separator of any length but zero. -/
def splitOnText (sep text : Text) : List Text := partsFrom sep 0 text

theorem partsFrom_skip
    (sep skipped rest : Text) :
    partsFrom sep skipped.length (skipped ++ rest) = partsFrom sep 0 rest := by
  induction skipped with
  | nil => rfl
  | cons c cs ih => exact ih

theorem partsFrom_front
    {s : Char} {sep front : Text}
    (h : s ∉ front) (rest : Text) :
    partsFrom (s :: sep) 0 (front ++ rest) =
      (partsFrom (s :: sep) 0 rest).modifyHead (front ++ ·) := by
  induction front with
  | nil =>
      rw [List.nil_append]
      cases partsFrom (s :: sep) 0 rest with
      | nil => rfl
      | cons first others => rfl
  | cons c cs ih =>
      simp only [List.mem_cons, not_or] at h
      have hprefix : (s :: sep).isPrefixOf (c :: (cs ++ rest)) = false := by
        simp [List.isPrefixOf, h.1]
      rw [List.cons_append, partsFrom, hprefix, ih h.2]
      cases partsFrom (s :: sep) 0 rest with
      | nil => rfl
      | cons first others => rfl

/-- Two parts without the first character of the separator. -/
theorem splitOnText_pair
    {s : Char} {sep front back : Text}
    (hfront : s ∉ front) (hback : s ∉ back) :
    splitOnText (s :: sep) (front ++ s :: sep ++ back) = [front, back] := by
  have hsep : partsFrom (s :: sep) 0 (s :: (sep ++ back)) =
      [] :: partsFrom (s :: sep) 0 back := by
    have hprefix : (s :: sep).isPrefixOf (s :: (sep ++ back)) = true :=
      List.isPrefixOf_iff_prefix.mpr ⟨back, rfl⟩
    rw [partsFrom, if_pos hprefix, List.length_cons, Nat.add_sub_cancel, partsFrom_skip]
  have hlast : partsFrom (s :: sep) 0 (back ++ []) =
      (partsFrom (s :: sep) 0 []).modifyHead (back ++ ·) := partsFrom_front hback []
  rw [List.append_nil] at hlast
  rw [splitOnText, List.append_assoc, partsFrom_front hfront, List.cons_append, hsep, hlast]
  simp [partsFrom]

end TextLiterals
end P4Net
