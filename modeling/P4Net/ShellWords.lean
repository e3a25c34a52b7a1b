import P4Net.TextJoins

/-!
# Words of a command line

`shlex` of the Python standard library in its POSIX mode: `shlex.split` takes a command line
apart into words, and `shlex.join` writes words as a command line.

* `LexState` and `lexWords` : the reader, character by character.
* `quote`, `shellJoin` : the writer.
* `shellSplit_shellJoin` : the words that were joined are the words that are read.
-/

namespace P4Net
namespace TextLiterals

/-! ### Reading -/

/-- `shlex.whitespace`. -/
def isBlank (c : Char) : Bool := c ∈ [' ', '\t', '\r', '\n']

/-- `shlex.quotes`. -/
def isQuote (c : Char) : Bool := c = '\'' || c = '"'

/-- The `state` of a `shlex`; an escape keeps the quote that it stands in. -/
inductive LexState where
  | blank
  | word
  | quoted (quote : Char)
  | escaped (quote : Option Char)
deriving DecidableEq, Repr

/-- The `ValueError` of `shlex.split`. -/
inductive LexError where
  | noClosingQuotation
  | noEscapedCharacter
deriving DecidableEq, Repr

/-- The words of a text that is read from a state, with the characters of the word so far. -/
def lexWords : LexState → Text → Text → Except LexError (List Text)
  | .blank, _, [] => .ok []
  -- A word that was begun by quotes is kept even when it is empty.
  | .word, token, [] => .ok [token]
  | .quoted _, _, [] => .error .noClosingQuotation
  | .escaped _, _, [] => .error .noEscapedCharacter
  | .blank, token, c :: rest =>
      if isBlank c then lexWords .blank token rest
      else if c = '\\' then lexWords (.escaped none) token rest
      else if isQuote c then lexWords (.quoted c) token rest
      else lexWords .word [c] rest
  | .word, token, c :: rest =>
      if isBlank c then (lexWords .blank [] rest).map (token :: ·)
      else if isQuote c then lexWords (.quoted c) token rest
      else if c = '\\' then lexWords (.escaped none) token rest
      else lexWords .word (token ++ [c]) rest
  | .quoted q, token, c :: rest =>
      if c = q then lexWords .word token rest
      else if c = '\\' ∧ q = '"' then lexWords (.escaped (some q)) token rest
      else lexWords (.quoted q) (token ++ [c]) rest
  | .escaped none, token, c :: rest => lexWords .word (token ++ [c]) rest
  | .escaped (some q), token, c :: rest =>
      -- Within quotes only the quote and the backslash lose their backslash.
      if c ≠ '\\' ∧ c ≠ q then lexWords (.quoted q) (token ++ ['\\', c]) rest
      else lexWords (.quoted q) (token ++ [c]) rest

/-- `shlex.split(text)`. -/
def shellSplit (text : Text) : Except LexError (List Text) := lexWords .blank [] text

/-! ### Writing -/

/-- The characters that `shlex.quote` leaves alone. -/
def isSafe (c : Char) : Bool :=
  c.isAlphanum || c ∈ ['_', '@', '%', '+', '=', ':', ',', '.', '/', '-']

/-- The characters of a word within single quotes. -/
def quotedBody (word : Text) : Text :=
  word.flatMap fun c => if c = '\'' then "'\"'\"'".toList else [c]

/-- `shlex.quote(word)`. -/
def quote (word : Text) : Text :=
  if word ≠ [] ∧ word.all isSafe then word else '\'' :: quotedBody word ++ ['\'']

/-- `shlex.join(words)`. -/
def shellJoin (words : List Text) : Text := join ' ' (words.map quote)

/-! ### The words that are read -/

theorem plain_of_isSafe
    {c : Char} (h : isSafe c = true) :
    isBlank c = false ∧ isQuote c = false ∧ c ≠ '\\' := by
  have hspecial : ∀ d ∈ [' ', '\t', '\r', '\n', '\'', '"', '\\'], isSafe d = false := by decide
  have hne : c ∉ [' ', '\t', '\r', '\n', '\'', '"', '\\'] := by
    intro hmem
    rw [hspecial c hmem] at h
    cases h
  simp only [List.mem_cons, List.not_mem_nil, or_false, not_or] at hne
  simp [isBlank, isQuote, hne]

/-- Safe characters continue a word. -/
theorem lexWords_safe
    {front : Text} (h : ∀ c ∈ front, isSafe c = true) (token rest : Text) :
    lexWords .word token (front ++ rest) = lexWords .word (token ++ front) rest := by
  induction front generalizing token with
  | nil => simp
  | cons c cs ih =>
      obtain ⟨hblank, hquote, hescape⟩ := plain_of_isSafe (h c (by simp))
      rw [List.cons_append, lexWords, if_neg (by simp [hblank]), if_neg (by simp [hquote]),
        if_neg hescape, ih (fun d hd => h d (by simp [hd]))]
      simp

/-- The body of a quotation is read as the word that it was written from. -/
theorem lexWords_quotedBody
    (word token rest : Text) :
    lexWords (.quoted '\'') token (quotedBody word ++ rest) =
      lexWords (.quoted '\'') (token ++ word) rest := by
  induction word generalizing token with
  | nil => simp [quotedBody]
  | cons c cs ih =>
      have hcons : quotedBody (c :: cs) =
          (if c = '\'' then "'\"'\"'".toList else [c]) ++ quotedBody cs := rfl
      have hrest := ih (token ++ [c])
      rw [List.append_assoc, List.singleton_append] at hrest
      rw [hcons, List.append_assoc]
      by_cases hc : c = '\''
      · subst hc
        have hstep : ∀ tail, lexWords (.quoted '\'') token ("'\"'\"'".toList ++ tail) =
            lexWords (.quoted '\'') (token ++ ['\'']) tail := by
          intro tail
          simp [lexWords, isBlank, isQuote]
        rw [if_pos rfl, hstep, hrest]
      · rw [if_neg hc, List.singleton_append, lexWords, if_neg hc, if_neg (by simp), hrest]

/-- A quoted word is read as the word, whether a blank or the end of the text follows. -/
theorem lexWords_quote
    (word rest : Text) :
    lexWords .blank [] (quote word ++ rest) = lexWords .word word rest := by
  unfold quote
  by_cases hsafe : word ≠ [] ∧ word.all isSafe
  · rw [if_pos hsafe]
    obtain ⟨c, cs, rfl⟩ := List.exists_cons_of_ne_nil hsafe.1
    have hall := List.all_eq_true.mp hsafe.2
    obtain ⟨hblank, hquote, hescape⟩ := plain_of_isSafe (hall c (by simp))
    rw [List.cons_append, lexWords, if_neg (by simp [hblank]), if_neg hescape,
      if_neg (by simp [hquote]), lexWords_safe (fun d hd => hall d (by simp [hd]))]
    rfl
  · rw [if_neg hsafe]
    simp only [List.cons_append, List.append_assoc]
    rw [lexWords, if_neg (by simp [isBlank]), if_neg (by simp), if_pos (by simp [isQuote]),
      lexWords_quotedBody]
    simp [lexWords]

/-- The words that were joined are the words that are read. -/
theorem shellSplit_shellJoin
    (words : List Text) :
    shellSplit (shellJoin words) = .ok words := by
  unfold shellSplit shellJoin
  induction words with
  | nil => rfl
  | cons word rest ih =>
      cases rest with
      | nil =>
          have hread := lexWords_quote word []
          rw [List.append_nil] at hread
          rw [List.map_singleton, join_singleton, hread]
          rfl
      | cons next rest =>
          rw [List.map_cons, List.map_cons, join_cons_cons, lexWords_quote, lexWords,
            if_pos (by simp [isBlank]), ← List.map_cons, ih]
          rfl

/-! ### The ends of a line -/

/-- The characters at the ends of a quoted word: a safe one, or a quote. -/
def IsEnd (c : Char) : Prop := isSafe c = true ∨ c = '\''

theorem ends_quote
    (word : Text) :
    (∃ c, (quote word).head? = some c ∧ IsEnd c) ∧
      ∃ c, (quote word).getLast? = some c ∧ IsEnd c := by
  unfold quote
  by_cases hsafe : word ≠ [] ∧ word.all isSafe
  · rw [if_pos hsafe]
    have hall := List.all_eq_true.mp hsafe.2
    exact ⟨⟨_, List.head?_eq_some_head hsafe.1, Or.inl (hall _ (List.head_mem hsafe.1))⟩,
      ⟨_, List.getLast?_eq_some_getLast hsafe.1, Or.inl (hall _ (List.getLast_mem hsafe.1))⟩⟩
  · rw [if_neg hsafe]
    exact ⟨⟨'\'', rfl, Or.inr rfl⟩, ⟨'\'', List.getLast?_concat, Or.inr rfl⟩⟩

/-- A command line of words starts and ends like a quoted word. -/
theorem ends_shellJoin
    {words : List Text} (hne : words ≠ []) :
    (∃ c, (shellJoin words).head? = some c ∧ IsEnd c) ∧
      ∃ c, (shellJoin words).getLast? = some c ∧ IsEnd c := by
  unfold shellJoin
  induction words with
  | nil => exact absurd rfl hne
  | cons word rest ih =>
      cases rest with
      | nil => simpa using ends_quote word
      | cons next rest =>
          obtain ⟨⟨c, hc, hend⟩, _⟩ := ends_quote word
          obtain ⟨_, ⟨d, hd, hend'⟩⟩ := ih (by simp)
          rw [List.map_cons, List.map_cons, join_cons_cons, ← List.map_cons]
          refine ⟨⟨c, ?_, hend⟩, ⟨d, ?_, hend'⟩⟩
          · rw [List.head?_append, hc]
            rfl
          · rw [List.getLast?_append, List.getLast?_cons, hd]
            rfl

theorem lt_of_isEnd
    {c : Char} (h : IsEnd c) :
    c.toNat < 128 := by
  rcases h with h | rfl
  · change (((decide ('A'.val ≤ c.val ∧ c.val ≤ 'Z'.val) ||
      (decide ('a'.val ≤ c.val) && decide (c.val ≤ 'z'.val))) ||
      (decide ('0'.val ≤ c.val) && decide (c.val ≤ '9'.val))) ||
      decide (c ∈ ['_', '@', '%', '+', '=', ':', ',', '.', '/', '-'])) = true at h
    simp only [UInt32.le_iff_toNat_le, Bool.or_eq_true, Bool.and_eq_true, decide_eq_true_eq,
      List.mem_cons, List.not_mem_nil, or_false] at h
    change c.val.toNat < 128
    rcases h with ((h | h) | h) | h
    · exact lt_of_le_of_lt h.2 (by decide)
    · exact lt_of_le_of_lt h.2 (by decide)
    · exact lt_of_le_of_lt h.2 (by decide)
    · rcases h with rfl | rfl | rfl | rfl | rfl | rfl | rfl | rfl | rfl | rfl <;> decide
  · decide

example : shellSplit "s1 cmd 'a b'\"\\\"c\" \\ d".toList =
    .ok ["s1".toList, "cmd".toList, "a b\"c".toList, " d".toList] := by decide

end TextLiterals
end P4Net
