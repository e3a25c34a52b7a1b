import P4Net.SelfDelimitingCodes
import P4Net.TextLiterals

/-!
# JSON text of a list of strings

`dumps` is `json.dumps` on a list of strings with its default settings: the text is
ASCII, the seven short escapes are used, every other character outside the printable
ASCII range is written as `\uXXXX`, and a character above the basic plane as a pair
of surrogates.

* `readChar` reads one escaped character back, so `escapeChar` is self-delimiting.
* `delimits_encodeString` and `delimits_dumps` follow from the rules for codes.
* `dumps_injective` is what a cache key needs of them.
-/

namespace P4Net
namespace JsonStrings

open TextLiterals Codes

/-- `'\\u{0:04x}'.format(n)`. -/
def escapeUnit (n : Nat) : Text :=
  ['\\', 'u', (n / 4096 % 16).digitChar, (n / 256 % 16).digitChar,
    (n / 16 % 16).digitChar, (n % 16).digitChar]

/-- One character inside a JSON string. -/
def escapeChar (c : Char) : Text :=
  if c = '"' then ['\\', '"']
  else if c = '\\' then ['\\', '\\']
  else if c = '\n' then ['\\', 'n']
  else if c = '\r' then ['\\', 'r']
  else if c = '\t' then ['\\', 't']
  else if c = '\x0C' then ['\\', 'f']
  else if c = '\x08' then ['\\', 'b']
  else if 0x20 ≤ c.toNat ∧ c.toNat ≤ 0x7E then [c]
  else if c.toNat < 0x10000 then escapeUnit c.toNat
  else
    escapeUnit (0xD800 + (c.toNat - 0x10000) / 1024) ++
      escapeUnit (0xDC00 + (c.toNat - 0x10000) % 1024)

/-- `json.dumps(text)`. -/
def encodeString (text : Text) : Text :=
  '"' :: items escapeChar '"' text

/-- The elements after the first, and the closing bracket. -/
def encodeRest (texts : List Text) : Text :=
  items (fun text => [',', ' '] ++ encodeString text) ']' texts

/-- `json.dumps(texts)`. -/
def dumps : List Text → Text
  | [] => ['[', ']']
  | text :: texts => '[' :: (encodeString text ++ encodeRest texts)

/-- Value of a hexadecimal digit as `escapeUnit` writes it. -/
def hexValue (c : Char) : Nat :=
  if c.toNat < 0x3A then c.toNat - 0x30 else c.toNat - 0x57

/-- Read four hexadecimal digits. -/
def readUnit : Text → Option (Nat × Text)
  | a :: b :: c :: d :: rest =>
      some (hexValue a * 4096 + hexValue b * 256 + hexValue c * 16 + hexValue d, rest)
  | _ => none

/-- Read the second unit of a surrogate pair. -/
def readLow (high : Nat) (text : Text) : Option (Char × Text) :=
  match readUnit (text.drop 2) with
  | none => none
  | some (low, rest) =>
      some (Char.ofNat (0x10000 + (high - 0xD800) * 1024 + (low - 0xDC00)), rest)

/-- Read what follows `\u`. -/
def readUnicode (text : Text) : Option (Char × Text) :=
  match readUnit text with
  | none => none
  | some (n, rest) =>
      if 0xD800 ≤ n ∧ n < 0xDC00 then readLow n rest else some (Char.ofNat n, rest)

/-- The character that a short escape stands for. -/
def shortEscape (c : Char) : Char :=
  if c = 'n' then '\n'
  else if c = 'r' then '\r'
  else if c = 't' then '\t'
  else if c = 'f' then '\x0C'
  else if c = 'b' then '\x08'
  else c

/-- Read one character of a JSON string. -/
def readChar : Text → Option (Char × Text)
  | [] => none
  | c :: rest =>
      if c = '\\' then
        match rest with
        | [] => none
        | e :: rest => if e = 'u' then readUnicode rest else some (shortEscape e, rest)
      else
        some (c, rest)

theorem hexValue_digitChar
    {d : Nat}
    (h : d < 16) :
    hexValue d.digitChar = d := by
  have hall : ∀ d < 16, hexValue (Nat.digitChar d) = d := by decide
  exact hall d h

/-- The four digits of a unit read back. -/
theorem readUnit_digits
    (n : Nat) (rest : Text)
    (h : n < 0x10000) :
    readUnit ((n / 4096 % 16).digitChar :: (n / 256 % 16).digitChar ::
      (n / 16 % 16).digitChar :: (n % 16).digitChar :: rest) = some (n, rest) := by
  have hvalue : n / 4096 % 16 * 4096 + n / 256 % 16 * 256 + n / 16 % 16 * 16 + n % 16 = n := by
    omega
  simp [readUnit, hexValue_digitChar, Nat.mod_lt, hvalue]

theorem readChar_escapeUnit
    (n : Nat) (rest : Text)
    (h : n < 0x10000) :
    readChar (escapeUnit n ++ rest) =
      if 0xD800 ≤ n ∧ n < 0xDC00 then readLow n rest else some (Char.ofNat n, rest) := by
  simp [readChar, escapeUnit, readUnicode, readUnit_digits n rest h]

theorem readLow_escapeUnit
    (high low : Nat) (rest : Text)
    (h : low < 0x10000) :
    readLow high (escapeUnit low ++ rest) =
      some (Char.ofNat (0x10000 + (high - 0xD800) * 1024 + (low - 0xDC00)), rest) := by
  simp [readLow, escapeUnit, readUnit_digits low rest h]

/-- A code point is outside the surrogate range and below the end of the last plane. -/
theorem toNat_bounds
    (c : Char) :
    (c.toNat < 0xD800 ∨ 0xE000 ≤ c.toNat) ∧ c.toNat < 0x110000 := by
  have hvalid : c.toNat < 0xD800 ∨ 0xDFFF < c.toNat ∧ c.toNat < 0x110000 := c.valid
  omega

/-- The four ways in which a character is written. -/
theorem escapeChar_forms
    (c : Char) :
    (∃ e, e ≠ 'u' ∧ shortEscape e = c ∧ escapeChar c = ['\\', e]) ∨
    (c ≠ '"' ∧ c ≠ '\\' ∧ escapeChar c = [c]) ∨
    (c.toNat < 0x10000 ∧ escapeChar c = escapeUnit c.toNat) ∨
    (0x10000 ≤ c.toNat ∧ escapeChar c =
      escapeUnit (0xD800 + (c.toNat - 0x10000) / 1024) ++
        escapeUnit (0xDC00 + (c.toNat - 0x10000) % 1024)) := by
  by_cases hquote : c = '"'
  · exact .inl ⟨'"', by decide, by rw [hquote]; decide, by rw [hquote]; decide⟩
  by_cases hslash : c = '\\'
  · exact .inl ⟨'\\', by decide, by rw [hslash]; decide, by rw [hslash]; decide⟩
  by_cases hnewline : c = '\n'
  · exact .inl ⟨'n', by decide, by rw [hnewline]; decide, by rw [hnewline]; decide⟩
  by_cases hreturn : c = '\r'
  · exact .inl ⟨'r', by decide, by rw [hreturn]; decide, by rw [hreturn]; decide⟩
  by_cases htab : c = '\t'
  · exact .inl ⟨'t', by decide, by rw [htab]; decide, by rw [htab]; decide⟩
  by_cases hfeed : c = '\x0C'
  · exact .inl ⟨'f', by decide, by rw [hfeed]; decide, by rw [hfeed]; decide⟩
  by_cases hback : c = '\x08'
  · exact .inl ⟨'b', by decide, by rw [hback]; decide, by rw [hback]; decide⟩
  have hlong : escapeChar c =
      if 0x20 ≤ c.toNat ∧ c.toNat ≤ 0x7E then [c]
      else if c.toNat < 0x10000 then escapeUnit c.toNat
      else
        escapeUnit (0xD800 + (c.toNat - 0x10000) / 1024) ++
          escapeUnit (0xDC00 + (c.toNat - 0x10000) % 1024) := by
    rw [escapeChar, if_neg hquote, if_neg hslash, if_neg hnewline, if_neg hreturn,
      if_neg htab, if_neg hfeed, if_neg hback]
  by_cases hplain : 0x20 ≤ c.toNat ∧ c.toNat ≤ 0x7E
  · exact .inr (.inl ⟨hquote, hslash, by rw [hlong, if_pos hplain]⟩)
  by_cases hbasic : c.toNat < 0x10000
  · exact .inr (.inr (.inl ⟨hbasic, by rw [hlong, if_neg hplain, if_pos hbasic]⟩))
  · exact .inr (.inr (.inr
      ⟨Nat.le_of_not_lt hbasic, by rw [hlong, if_neg hplain, if_neg hbasic]⟩))

/-- An escaped character reads back as itself, whatever follows. -/
theorem readChar_escapeChar
    (c : Char) (rest : Text) :
    readChar (escapeChar c ++ rest) = some (c, rest) := by
  have hbounds := toNat_bounds c
  rcases escapeChar_forms c with ⟨e, hne, hchar, hcode⟩ | ⟨-, hslash, hcode⟩ |
    ⟨hbasic, hcode⟩ | ⟨habove, hcode⟩
  · simp [hcode, readChar, hne, hchar]
  · simp [hcode, readChar, hslash]
  · -- the basic plane has no character among the high surrogates
    have hnot : ¬ (0xD800 ≤ c.toNat ∧ c.toNat < 0xDC00) := by omega
    rw [hcode, readChar_escapeUnit _ _ hbasic, if_neg hnot, Char.ofNat_toNat]
  · have hhigh : 0xD800 + (c.toNat - 0x10000) / 1024 < 0xDC00 := by omega
    have hlow : 0xDC00 + (c.toNat - 0x10000) % 1024 < 0x10000 := by omega
    have hvalue : 0x10000 + (0xD800 + (c.toNat - 0x10000) / 1024 - 0xD800) * 1024 +
        (0xDC00 + (c.toNat - 0x10000) % 1024 - 0xDC00) = c.toNat := by
      omega
    rw [hcode, List.append_assoc, readChar_escapeUnit _ _ (by omega),
      if_pos ⟨by omega, hhigh⟩, readLow_escapeUnit _ _ _ hlow, hvalue, Char.ofNat_toNat]

theorem delimits_escapeChar : Delimits escapeChar :=
  Delimits.of_read readChar readChar_escapeChar

/-- No escaped character begins with a quotation mark. -/
theorem escapeChar_begins
    (c : Char) :
    ∃ s tail, escapeChar c = s :: tail ∧ s ≠ '"' := by
  rcases escapeChar_forms c with ⟨e, -, -, hcode⟩ | ⟨hquote, -, hcode⟩ |
    ⟨-, hcode⟩ | ⟨-, hcode⟩
  · exact ⟨'\\', [e], hcode, by decide⟩
  · exact ⟨c, [], hcode, hquote⟩
  · exact ⟨'\\', _, hcode, by decide⟩
  · exact ⟨'\\', _, hcode, by decide⟩

theorem delimits_encodeString : Delimits encodeString :=
  (delimits_escapeChar.items escapeChar_begins).behind ['"']

theorem delimits_encodeRest : Delimits encodeRest :=
  (delimits_encodeString.behind [',', ' ']).items
    (fun _ => ⟨',', _, rfl, by decide⟩)

theorem delimits_dumps : Delimits dumps := by
  have hcons := delimits_encodeString.pair delimits_encodeRest
  intro x y rest rest' h
  cases x with
  | nil =>
      cases y with
      | nil => simpa [dumps] using h
      | cons text texts => simp [dumps, encodeString] at h
  | cons text texts =>
      cases y with
      | nil => simp [dumps, encodeString] at h
      | cons text' texts' =>
          obtain ⟨hxy, hrest⟩ :=
            hcons (text, texts) (text', texts') rest rest' (List.cons.inj h).2
          obtain ⟨rfl, rfl⟩ := Prod.mk.inj hxy
          exact ⟨rfl, hrest⟩

theorem dumps_injective : Function.Injective dumps :=
  delimits_dumps.injective

example : String.ofList (dumps ["-D".toList, "a\"é".toList]) = "[\"-D\", \"a\\\"\\u00e9\"]" := by
  decide

end JsonStrings
end P4Net
