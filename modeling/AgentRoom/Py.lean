import Mathlib.Data.Rat.Defs
import Mathlib.Data.List.Infix
import Mathlib.Tactic.Common

set_option autoImplicit false

/-! # The Python values and string operations the program uses

`Value` is the JSON-shaped part of `Any`: what event payloads, tool arguments and dumped
models are made of. Strings are sequences of code points; `join`, `strip`, `lower` and the
substring test follow the `str` methods of the same names.
-/

namespace AgentRoom

/-- A JSON-shaped Python value. A `float` is read as the rational it denotes. -/
inductive Value
  | none
  | bool (b : Bool)
  | int (n : Int)
  | float (q : ℚ)
  | str (s : String)
  | list (xs : List Value)
  | dict (fields : List (String × Value))

/-- The `str` a value is, if it is one: `isinstance(v, str)`. -/
def Value.asStr? : Value → Option String
  | .str s => some s
  | _ => Option.none

namespace Py

/-- `str.isspace` of one code point. -/
def isSpace (c : Char) : Bool :=
  let n := c.toNat
  (9 ≤ n && n ≤ 13) || (28 ≤ n && n ≤ 32) || n == 0x85 || n == 0xa0 || n == 0x1680 ||
    (0x2000 ≤ n && n ≤ 0x200a) || n == 0x2028 || n == 0x2029 || n == 0x202f || n == 0x205f ||
    n == 0x3000

/-- `s.lstrip()`. -/
def lstrip (s : String) : String := String.ofList (s.toList.dropWhile isSpace)

/-- `s.strip()`. -/
def strip (s : String) : String :=
  String.ofList ((s.toList.dropWhile isSpace).reverse.dropWhile isSpace).reverse

/-- `not s.strip()`: the text is empty or white space only. -/
def isBlank (s : String) : Bool := s.toList.all isSpace

/-- `c.lower()` as far as a comparison with ASCII text can tell: besides the ASCII capitals
only the Kelvin sign has an ASCII lower case. -/
def lowerChar (c : Char) : Char := if c = '\u212a' then 'k' else c.toLower

/-- `s.lower()`, for comparison with ASCII text. -/
def lower (s : String) : String := String.ofList (s.toList.map lowerChar)

/-- `sep.join(parts)`. -/
def join (sep : String) : List String → String
  | [] => ""
  | [x] => x
  | x :: y :: rest => x ++ sep ++ join sep (y :: rest)

/-- `s[:n]`. -/
def firstChars (n : Nat) (s : String) : String := String.ofList (s.toList.take n)

/-- `s[-n:]`. -/
def lastChars (n : Nat) (s : String) : String :=
  String.ofList (s.toList.drop (s.toList.length - n))

/-- Two lower-case hexadecimal digits. -/
def hex2 (n : Nat) : String :=
  String.ofList [Nat.digitChar (n / 16 % 16), Nat.digitChar (n % 16)]

/-- How `repr` shows one code point of a text quoted with `q`. Every non-ASCII code point is
taken to be printable. -/
def reprChar (q c : Char) : String :=
  if c = '\\' then "\\\\"
  else if c = q then "\\" ++ String.singleton c
  else if c = '\n' then "\\n"
  else if c = '\r' then "\\r"
  else if c = '\t' then "\\t"
  else if c.toNat < 32 ∨ c.toNat = 127 then "\\x" ++ hex2 c.toNat
  else String.singleton c

/-- `repr(s)`: single quotes, unless the text has a single quote and no double quote. -/
def repr (s : String) : String :=
  let q := if s.toList.contains '\'' && !s.toList.contains '"' then '"' else '\''
  String.singleton q ++ join "" (s.toList.map (reprChar q)) ++ String.singleton q

/-- `str(b)`. -/
def strBool (b : Bool) : String := if b then "True" else "False"

/-- `str(x)` of an optional text in an f-string. -/
def strOpt : Option String → String
  | some s => s
  | none => "None"

/-- `str(x)` of an optional integer in an f-string. -/
def strOptInt : Option Int → String
  | some n => toString n
  | none => "None"

/-- `bool(x)` of an optional text: present and not empty. -/
def truthy : Option String → Bool
  | some s => s != ""
  | none => false

/-- `x or ""`. -/
def orEmpty : Option String → String
  | some s => s
  | none => ""

/-- `d in s`: `d` is a substring of `s`. -/
def Contains (s d : String) : Prop := d.toList <:+: s.toList

instance (s d : String) : Decidable (Contains s d) :=
  inferInstanceAs (Decidable (d.toList <:+: s.toList))

/-! ## Substrings of assembled texts -/

theorem Contains.refl (s : String) : Contains s s := List.infix_refl _

theorem Contains.trans {r s t : String} (h : Contains r s) (h' : Contains s t) : Contains r t :=
  List.IsInfix.trans h' h

theorem contains_append_left {s d : String} (t : String) (h : Contains s d) :
    Contains (s ++ t) d := by
  unfold Contains
  rw [String.toList_append]
  exact List.infix_append_of_infix_left h

theorem contains_append_right {t d : String} (s : String) (h : Contains t d) :
    Contains (s ++ t) d := by
  unfold Contains
  rw [String.toList_append]
  exact List.infix_append_of_infix_right h

/-- Every part of a join is a substring of it. -/
theorem contains_join {sep x : String} {parts : List String} (h : x ∈ parts) :
    Contains (join sep parts) x := by
  induction parts with
  | nil => cases h
  | cons y rest ih =>
      cases rest with
      | nil =>
          rw [List.mem_singleton] at h
          subst h
          exact .refl x
      | cons z rest =>
          rcases List.mem_cons.mp h with rfl | hrest
          · exact contains_append_left _ (contains_append_left _ (.refl x))
          · exact contains_append_right _ (ih hrest)

/-- Every letter of a join stands in a part or in the separator. -/
theorem mem_join {sep : String} {parts : List String} {ch : Char}
    (h : ch ∈ (join sep parts).toList) : ch ∈ sep.toList ∨ ∃ x ∈ parts, ch ∈ x.toList := by
  induction parts with
  | nil => simp [join] at h
  | cons y rest ih =>
      cases rest with
      | nil => exact .inr ⟨y, by simp, h⟩
      | cons z rest =>
          rw [join, String.toList_append, String.toList_append, List.mem_append,
            List.mem_append] at h
          rcases h with (hy | hsep) | hrest
          · exact .inr ⟨y, by simp, hy⟩
          · exact .inl hsep
          · rcases ih hrest with hsep | ⟨x, hx, hch⟩
            · exact .inl hsep
            · exact .inr ⟨x, List.mem_cons_of_mem _ hx, hch⟩

theorem isBlank_append (s t : String) : isBlank (s ++ t) = (isBlank s && isBlank t) := by
  simp [isBlank]

end Py

end AgentRoom
