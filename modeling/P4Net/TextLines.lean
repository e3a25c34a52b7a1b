import Mathlib.Data.List.DropRight
import P4Net.InterfaceLiterals

/-!
# Lines and surrounding white space

The string methods of the Python standard library that the readers of command lines and of
command output use.

* `strip` is `str.strip()`.
* `splitLines` is `str.splitlines()`.
-/

namespace P4Net
namespace TextLiterals

/-- `text.strip()`. -/
def strip (text : Text) : Text := (text.dropWhile isSpace).rdropWhile isSpace

/-- Only the ends of a text are stripped. -/
theorem strip_of_ends
    {text : Text}
    (hhead : ∀ c, text.head? = some c → isSpace c = false)
    (hlast : ∀ c, text.getLast? = some c → isSpace c = false) :
    strip text = text := by
  have hfront : text.dropWhile isSpace = text := by
    cases text with
    | nil => rfl
    | cons c cs => rw [List.dropWhile_cons_of_neg (by simp [hhead c rfl])]
  rw [strip, hfront, List.rdropWhile_eq_self_iff]
  intro hne
  rw [hlast _ (List.getLast?_eq_some_getLast hne)]
  exact Bool.false_ne_true

/-- A text without white space is left alone. -/
theorem strip_of_noSpace
    {text : Text} (h : ∀ c ∈ text, isSpace c = false) :
    strip text = text :=
  strip_of_ends (fun c hc => h c (List.mem_of_head? hc)) (fun c hc => h c (List.mem_of_getLast? hc))

/-- The characters that end a line. -/
def isLineBreak (c : Char) : Bool :=
  c.toNat ∈ [0x0A, 0x0B, 0x0C, 0x0D, 0x1C, 0x1D, 0x1E, 0x85, 0x2028, 0x2029]

/-- The lines of a text whose first line starts with `current`. -/
def linesFrom (current : Text) : Text → List Text
  -- A line break at the very end starts no further line.
  | [] => if current = [] then [] else [current]
  | '\r' :: '\n' :: rest => current :: linesFrom [] rest
  | c :: rest =>
      if isLineBreak c then current :: linesFrom [] rest
      else linesFrom (current ++ [c]) rest

/-- `text.splitlines()`. -/
def splitLines (text : Text) : List Text := linesFrom [] text

example : splitLines "a\r\n\n b".toList = ["a".toList, [], " b".toList] := by decide

end TextLiterals
end P4Net
