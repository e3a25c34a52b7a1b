import P4Net.TextJoins
import Mathlib.Tactic.Cases

/-!
# POSIX paths

The normal form in which `pathlib` keeps a POSIX path: repeated slashes and the parts
that are a single dot disappear, the parts `..` stay, and exactly two leading slashes
are a root of their own.

* `normPath text` is `str(Path(text))`; `normPath_idem` : `Path(str(p)) == p`.
* `Path` : a text in normal form.
* `Path.suffix` : the extension of the last part.
-/

namespace P4Net
namespace PosixPaths

open TextLiterals

/-! ### The normal form -/

/-- The root of a path. -/
def root : Text → Text
  | '/' :: '/' :: '/' :: _ => ['/']
  | '/' :: '/' :: _ => ['/', '/']
  | '/' :: _ => ['/']
  | _ => []

/-- A part that the normal form keeps. -/
def keepsPart (part : Text) : Bool := decide (part ≠ [] ∧ part ≠ ['.'])

/-- The parts of a path after its root. -/
def parts (text : Text) : List Text := (TextLiterals.splitOn '/' text).filter keepsPart

/-- Put a path together. -/
def joinParts (root : Text) (parts : List Text) : Text :=
  match root ++ ['/'].intercalate parts with
  | [] => ['.']
  | text => text

/-- `str(Path(text))`. -/
def normPath (text : Text) : Text := joinParts (root text) (parts text)

theorem parts_spec
    {text part : Text}
    (h : part ∈ parts text) :
    part ≠ [] ∧ part ≠ ['.'] ∧ '/' ∉ part := by
  rcases List.mem_filter.mp h with ⟨hmem, hkeep⟩
  rcases of_decide_eq_true hkeep with ⟨hne, hdot⟩
  exact ⟨hne, hdot, not_mem_of_mem_splitOn hmem⟩

theorem root_cases
    (text : Text) :
    root text = [] ∨ root text = ['/'] ∨ root text = ['/', '/'] := by
  unfold root
  split <;> simp

/-- Slashes at the front of a path add no part. -/
theorem parts_slash
    (text : Text) :
    parts ('/' :: text) = parts text := by
  simp [parts, TextLiterals.splitOn, keepsPart]

section Joined

variable {ps : List Text}

/-- Parts that the normal form keeps are read back. -/
theorem parts_intercalate
    (h : ∀ part ∈ ps, part ≠ [] ∧ part ≠ ['.'] ∧ '/' ∉ part) :
    parts (['/'].intercalate ps) = ps := by
  cases ps with
  | nil => rfl
  | cons first rest =>
      have hsplit : List.splitOn '/' (['/'].intercalate (first :: rest)) = first :: rest :=
        List.splitOn_intercalate '/' (fun part hpart => (h part hpart).2.2) (by simp)
      rw [parts, splitOn_eq, hsplit, List.filter_eq_self]
      intro part hpart
      exact decide_eq_true ⟨(h part hpart).1, (h part hpart).2.1⟩

/-- Joined parts do not begin with a slash. -/
theorem head_intercalate
    (h : ∀ part ∈ ps, part ≠ [] ∧ part ≠ ['.'] ∧ '/' ∉ part) :
    (['/'].intercalate ps).head? ≠ some '/' := by
  cases ps with
  | nil => simp
  | cons first rest =>
      rcases h first (List.mem_cons_self ..) with ⟨hne, _, hslash⟩
      cases first with
      | nil => exact absurd rfl hne
      | cons c cs =>
          have hc : c ≠ '/' := by
            rintro rfl
            exact hslash (List.mem_cons_self ..)
          cases rest <;> simp [hc]

end Joined

theorem root_of_head
    {text : Text}
    (h : text.head? ≠ some '/') :
    root text = [] := by
  cases text with
  | nil => rfl
  | cons c cs =>
      have hc : c ≠ '/' := by simpa using h
      unfold root
      split <;> simp_all

/-- Root and parts are read back from the text that they make up. -/
theorem normPath_joinParts
    {r : Text} {ps : List Text}
    (hr : r = [] ∨ r = ['/'] ∨ r = ['/', '/'])
    (hps : ∀ part ∈ ps, part ≠ [] ∧ part ≠ ['.'] ∧ '/' ∉ part) :
    normPath (joinParts r ps) = joinParts r ps := by
  have hparts := parts_intercalate hps
  have hhead := head_intercalate hps
  generalize hbody : ['/'].intercalate ps = body at hparts hhead
  have hroot : root (r ++ body) = r := by
    rcases hr with rfl | rfl | rfl
    · exact root_of_head hhead
    · cases body with
      | nil => rfl
      | cons c cs =>
          have hc : c ≠ '/' := by simpa using hhead
          simp [root, hc]
    · cases body with
      | nil => rfl
      | cons c cs =>
          have hc : c ≠ '/' := by simpa using hhead
          simp [root, hc]
  have hjoined : parts (r ++ body) = ps := by
    rcases hr with rfl | rfl | rfl <;> simp [parts_slash, hparts]
  cases htext : r ++ body with
  | nil =>
      have hdot : joinParts r ps = ['.'] := by simp only [joinParts, hbody, htext]
      rw [hdot]
      rfl
  | cons c cs =>
      have hself : joinParts r ps = c :: cs := by simp only [joinParts, hbody, htext]
      rw [hself, normPath, ← htext, hroot, hjoined, htext, ← hself]

/-- `Path(str(p)) == p`. -/
theorem normPath_idem
    (text : Text) :
    normPath (normPath text) = normPath text :=
  normPath_joinParts (root_cases text) fun _ hpart => parts_spec hpart

/-! ### Paths -/

/-- A path, by its text. -/
structure Path where
  text : Text
  normal : normPath text = text
deriving DecidableEq, Repr

/-- `Path(text)`. -/
def Path.ofText (text : Text) : Path := ⟨normPath text, normPath_idem text⟩

theorem Path.ofText_text
    (path : Path) :
    Path.ofText path.text = path := by
  cases path with
  | mk text normal => simp [Path.ofText, normal]

/-- `Path.name`. -/
def Path.name (path : Path) : Text := ((parts path.text).getLast?).getD []

/-- `Path.suffix`. -/
def Path.suffix (path : Path) : Text :=
  match rsplitOnce '.' path.name with
  | some (stem, ext) => if stem ≠ [] ∧ ext ≠ [] then '.' :: ext else []
  | none => []

example : ((Path.ofText "src//./basic.p4/".toList).text,
    (Path.ofText "src//./basic.p4/".toList).suffix) =
    ("src/basic.p4".toList, ".p4".toList) := by decide

end PosixPaths
end P4Net
