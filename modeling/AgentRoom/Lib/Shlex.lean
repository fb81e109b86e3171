import Mathlib.Data.List.Basic
import Mathlib.Tactic.Common

set_option autoImplicit false

/-! # Splitting a command line

The lexer of POSIX-style command lines that `shlex.split` runs, as the automaton it is: words are
separated by whitespace, quotes group characters, a backslash escapes one. `quote` writes one
argument, `join` a whole command line; the lexer reads back what they write (`split_join`).
-/

namespace Shlex

/-- A word, or an argument. -/
abbrev Word := List Char

def singleQuote : Char := Char.ofNat 39
def doubleQuote : Char := Char.ofNat 34
def backslash : Char := Char.ofNat 92

/-- `whitespace`. -/
def isSpace (c : Char) : Bool := c == ' ' || c == '\t' || c == '\r' || c == '\n'

/-- `quotes`. -/
def isQuote (c : Char) : Bool := c == singleQuote || c == doubleQuote

/-- The state of the lexer; `escaped` remembers the quote it is in, if any. -/
inductive State
  | space
  | word
  | quoted (quote : Char)
  | escaped (within : Option Char)

inductive Error
  | noClosingQuotation
  | noEscapedCharacter
  deriving DecidableEq, Repr

/-- A finished word, unless it is empty and was not quoted. -/
def emit (token : Word) (quoted : Bool) (rest : List Word) : List Word :=
  if token = [] ∧ quoted = false then rest else token :: rest

/-- The lexer, with the word it is in and whether a part of that word was quoted. -/
def lex : State → Word → Bool → List Char → Except Error (List Word)
  | .space, token, quoted, [] => .ok (emit token quoted [])
  | .space, token, quoted, c :: cs =>
      if isSpace c then (lex .space [] false cs).map (emit token quoted)
      else if c = backslash then lex (.escaped none) token quoted cs
      else if isQuote c then lex (.quoted c) token quoted cs
      else lex .word [c] quoted cs
  | .word, token, quoted, [] => .ok (emit token quoted [])
  | .word, token, quoted, c :: cs =>
      if isSpace c then (lex .space [] false cs).map (emit token quoted)
      else if isQuote c then lex (.quoted c) token quoted cs
      else if c = backslash then lex (.escaped none) token quoted cs
      else lex .word (token ++ [c]) quoted cs
  | .quoted _, _, _, [] => .error .noClosingQuotation
  | .quoted q, token, _, c :: cs =>
      if c = q then lex .word token true cs
      -- only a double quote lets its content be escaped
      else if c = backslash ∧ q = doubleQuote then lex (.escaped (some q)) token true cs
      else lex (.quoted q) (token ++ [c]) true cs
  | .escaped _, _, _, [] => .error .noEscapedCharacter
  | .escaped none, token, quoted, c :: cs => lex .word (token ++ [c]) quoted cs
  | .escaped (some q), token, quoted, c :: cs =>
      -- inside quotes a backslash is dropped only before itself and the quote
      if c ≠ backslash ∧ c ≠ q then lex (.quoted q) (token ++ [backslash, c]) quoted cs
      else lex (.quoted q) (token ++ [c]) quoted cs

/-- `shlex.split`. -/
def split (command : List Char) : Except Error (List Word) := lex .space [] false command

/-! ## Writing a command line -/

/-- The characters that need no quotes. -/
def isSafe (c : Char) : Bool :=
  c.isAlphanum || c == '_' || c == '@' || c == '%' || c == '+' || c == '=' || c == ':' ||
    c == ',' || c == '.' || c == '/' || c == '-'

/-- A single quote leaves the quotes, stands in double quotes of its own, and enters them again. -/
def quotedChar (c : Char) : List Char :=
  if c = singleQuote then [singleQuote, doubleQuote, singleQuote, doubleQuote, singleQuote]
  else [c]

/-- `shlex.quote`. -/
def quote (s : Word) : List Char :=
  if s = [] then [singleQuote, singleQuote]
  else if s.all isSafe then s
  else singleQuote :: (s.flatMap quotedChar ++ [singleQuote])

/-- `shlex.join`. -/
def join (words : List Word) : List Char := [' '].intercalate (words.map quote)

/-! ## Reading it back -/

/-- A safe character is none the lexer looks for. -/
theorem isSafe_plain {c : Char} (h : isSafe c = true) :
    isSpace c = false ∧ isQuote c = false ∧ c ≠ backslash := by
  have hne : ∀ d : Char, isSafe d = false → c ≠ d := by
    intro d hd hcd
    rw [hcd, hd] at h
    cases h
  refine ⟨?_, ?_, hne _ (by decide)⟩
  · simp only [isSpace, Bool.or_eq_false_iff, beq_eq_false_iff_ne]
    exact ⟨⟨⟨hne _ (by decide), hne _ (by decide)⟩, hne _ (by decide)⟩, hne _ (by decide)⟩
  · simp only [isQuote, Bool.or_eq_false_iff, beq_eq_false_iff_ne]
    exact ⟨hne _ (by decide), hne _ (by decide)⟩

/-- Plain characters join the word. -/
theorem lex_word_plain {s : Word} (hs : s.all isSafe = true) (token : Word) (quoted : Bool)
    (rest : List Char) : lex .word token quoted (s ++ rest) = lex .word (token ++ s) quoted rest := by
  induction s generalizing token with
  | nil => rw [List.nil_append, List.append_nil]
  | cons c s ih =>
      rw [List.all_cons, Bool.and_eq_true] at hs
      obtain ⟨hspace, hquote, hescape⟩ := isSafe_plain hs.1
      rw [List.cons_append, lex, hspace, hquote, if_neg Bool.false_ne_true,
        if_neg Bool.false_ne_true, if_neg hescape, ih hs.2, List.append_assoc]
      rfl

/-- Between quotes, a part of the word is quoted. -/
theorem lex_quoted_flag (q : Char) (token : Word) (quoted : Bool) (input : List Char) :
    lex (.quoted q) token quoted input = lex (.quoted q) token true input := by
  cases input <;> rfl

/-- One character as it stands between single quotes. -/
theorem lex_quotedChar (c : Char) (token : Word) (rest : List Char) :
    lex (.quoted singleQuote) token true (quotedChar c ++ rest) =
      lex (.quoted singleQuote) (token ++ [c]) true rest := by
  unfold quotedChar
  by_cases hc : c = singleQuote
  · subst hc
    rfl
  · have hplain : ¬ (c = backslash ∧ singleQuote = doubleQuote) := fun h => absurd h.2 (by decide)
    rw [if_neg hc, List.singleton_append, lex, if_neg hc, if_neg hplain]

/-- A quoted argument up to its closing quote. -/
theorem lex_quoted (s token : Word) (rest : List Char) :
    lex (.quoted singleQuote) token true (s.flatMap quotedChar ++ singleQuote :: rest) =
      lex .word (token ++ s) true rest := by
  induction s generalizing token with
  | nil => rw [List.flatMap_nil, List.nil_append, lex, if_pos rfl, List.append_nil]
  | cons c s ih =>
      rw [List.flatMap_cons, List.append_assoc, lex_quotedChar, ih, List.append_assoc]
      rfl

/-- **The lexer reads an argument back**, as a word that is going to be emitted. -/
theorem lex_quote (s : Word) (rest : List Char) :
    ∃ quoted, (s = [] → quoted = true) ∧
      lex .space [] false (quote s ++ rest) = lex .word s quoted rest := by
  unfold quote
  by_cases hnil : s = []
  · subst hnil
    exact ⟨true, fun _ => rfl, rfl⟩
  · rw [if_neg hnil]
    by_cases hsafe : s.all isSafe = true
    · refine ⟨false, fun h => absurd h hnil, ?_⟩
      obtain ⟨c, s, rfl⟩ := List.exists_cons_of_ne_nil hnil
      rw [List.all_cons, Bool.and_eq_true] at hsafe
      obtain ⟨hspace, hquote, hescape⟩ := isSafe_plain hsafe.1
      have hall : (c :: s).all isSafe = true := by rw [List.all_cons, hsafe.1, hsafe.2]; rfl
      rw [if_pos hall, List.cons_append, lex, hspace, hquote, if_neg Bool.false_ne_true,
        if_neg hescape, if_neg Bool.false_ne_true, lex_word_plain hsafe.2]
      rfl
    · refine ⟨true, fun _ => rfl, ?_⟩
      have hopen : ∀ input, lex .space [] false (singleQuote :: input) =
          lex (.quoted singleQuote) [] true input := fun input =>
        lex_quoted_flag singleQuote [] false input
      rw [if_neg hsafe, List.cons_append, List.append_assoc, List.singleton_append, hopen,
        lex_quoted, List.nil_append]

/-- A word that is going to be emitted is, at the next space and at the end. -/
theorem emit_of_quote {s : Word} {quoted : Bool} (h : s = [] → quoted = true) (rest : List Word) :
    emit s quoted rest = s :: rest := by
  refine if_neg ?_
  rintro ⟨hs, hq⟩
  rw [h hs] at hq
  cases hq

/-- **Splitting inverts joining**, for all arguments: empty ones and such with quotes, backslashes,
blanks or line breaks included. -/
theorem split_join (words : List Word) : split (join words) = .ok words := by
  induction words with
  | nil => rfl
  | cons s words ih =>
      cases words with
      | nil =>
          obtain ⟨quoted, hquoted, hlex⟩ := lex_quote s []
          have hjoin : join [s] = quote s ++ [] := by simp [join]
          rw [hjoin, split, hlex, lex, emit_of_quote hquoted]
      | cons t words =>
          obtain ⟨quoted, hquoted, hlex⟩ := lex_quote s (' ' :: join (t :: words))
          have hjoin : join (s :: t :: words) = quote s ++ ' ' :: join (t :: words) := by
            simp [join, List.intercalate]
          have hrest : lex .space [] false (join (t :: words)) = .ok (t :: words) := ih
          rw [hjoin, split, hlex, lex, if_pos (by decide), hrest]
          show Except.ok (emit s quoted (t :: words)) = _
          rw [emit_of_quote hquoted]

end Shlex
