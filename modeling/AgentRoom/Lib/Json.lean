import Mathlib.Data.List.Basic
import Mathlib.Data.List.Nodup
import Mathlib.Tactic.Common

set_option autoImplicit false

/-! # JSON texts

JSON trees over any type of numbers, the text Python's `json.dumps(…, ensure_ascii=False)` writes
for them and the reader `JSON.parse` specifies. How a number is written and read is a parameter.
The reader inverts the writer on trees whose keys are distinct and whose numbers are read back
(`parse_print`), and a written text has no control characters (`visible_print`).
-/

namespace Json

abbrev Text := List Char

/-- A JSON tree. An object is the list of its members. -/
inductive Tree (ν : Type)
  | null
  | bool (b : Bool)
  | num (n : ν)
  | str (s : Text)
  | arr (items : List (Tree ν))
  | obj (members : List (Text × Tree ν))

def quotationMark : Char := Char.ofNat 34
def backslash : Char := Char.ofNat 92

/-! ## Writing -/

/-- A character inside a string literal. -/
def escapeChar (c : Char) : Text :=
  if c = quotationMark then [backslash, quotationMark]
  else if c = backslash then [backslash, backslash]
  else if c = '\n' then [backslash, 'n']
  else if c = '\r' then [backslash, 'r']
  else if c = '\t' then [backslash, 't']
  else if c = Char.ofNat 8 then [backslash, 'b']
  else if c = Char.ofNat 12 then [backslash, 'f']
  else if c.toNat < 0x20 then
    [backslash, 'u', '0', '0', Nat.digitChar (c.toNat / 16), Nat.digitChar (c.toNat % 16)]
  else [c]

/-- A string literal. -/
def printStr (s : Text) : Text :=
  quotationMark :: (s.flatMap escapeChar ++ [quotationMark])

section Print

variable {ν : Type} (number : ν → Text)

mutual

/-- `json.dumps`, with its default separators. -/
def print : Tree ν → Text
  | .null => ['n', 'u', 'l', 'l']
  | .bool true => ['t', 'r', 'u', 'e']
  | .bool false => ['f', 'a', 'l', 's', 'e']
  | .num n => number n
  | .str s => printStr s
  | .arr [] => ['[', ']']
  | .arr (x :: xs) => '[' :: (print x ++ (printItems xs ++ [']']))
  | .obj [] => ['\x7b', '\x7d']
  | .obj ((k, x) :: ms) =>
      '\x7b' :: (printStr k ++ (':' :: ' ' :: (print x ++ (printMembers ms ++ ['\x7d']))))

/-- The items after the first. -/
def printItems : List (Tree ν) → Text
  | [] => []
  | x :: xs => ',' :: ' ' :: (print x ++ printItems xs)

/-- The members after the first. -/
def printMembers : List (Text × Tree ν) → Text
  | [] => []
  | (k, x) :: ms =>
      ',' :: ' ' :: (printStr k ++ (':' :: ' ' :: (print x ++ printMembers ms)))

end

end Print

/-! ## Reading -/

def isSpace (c : Char) : Bool := c == ' ' || c == '\n' || c == '\r' || c == '\t'

def skipSpace (t : Text) : Text := t.dropWhile isSpace

/-- The characters a number consists of. -/
def isNumeric (c : Char) : Bool :=
  c.isDigit || c == '-' || c == '+' || c == '.' || c == 'e' || c == 'E'

/-- The rest after a word. -/
def expect (word t : Text) : Option Text :=
  if word <+: t then some (t.drop word.length) else none

def hexVal (c : Char) : Option Nat :=
  if '0' ≤ c ∧ c ≤ '9' then some (c.toNat - '0'.toNat)
  else if 'a' ≤ c ∧ c ≤ 'f' then some (c.toNat - 'a'.toNat + 10)
  else if 'A' ≤ c ∧ c ≤ 'F' then some (c.toNat - 'A'.toNat + 10)
  else none

/-- The code unit of four hexadecimal digits. -/
def hex4 (a b c d : Char) : Option Nat := do
  return ((← hexVal a) * 16 + (← hexVal b)) * 256 + ((← hexVal c) * 16 + (← hexVal d))

/-- The escapes of one character. -/
def simpleEscape (e : Char) : Option Char :=
  if e = quotationMark ∨ e = backslash ∨ e = '/' then some e
  else if e = 'n' then some '\n'
  else if e = 'r' then some '\r'
  else if e = 't' then some '\t'
  else if e = 'b' then some (Char.ofNat 8)
  else if e = 'f' then some (Char.ofNat 12)
  else none

/-- A string literal after its opening quotation mark. Texts are texts of characters: a surrogate
that is escaped on its own is refused. -/
def string : Text → Option (Text × Text)
  | [] => none
  | c :: cs =>
      if c = quotationMark then some ([], cs)
      else if c.toNat < 0x20 then none
      else if c ≠ backslash then (string cs).map (Prod.map (c :: ·) id)
      else
        match cs with
        | [] => none
        | e :: cs =>
            if e ≠ 'u' then
              (simpleEscape e).bind fun ch => (string cs).map (Prod.map (ch :: ·) id)
            else
              match cs with
              | x₁ :: x₂ :: x₃ :: x₄ :: cs =>
                  match hex4 x₁ x₂ x₃ x₄ with
                  | none => none
                  | some n =>
                      if 0xd800 ≤ n ∧ n < 0xdc00 then
                        match cs with
                        | e₁ :: e₂ :: y₁ :: y₂ :: y₃ :: y₄ :: cs =>
                            match hex4 y₁ y₂ y₃ y₄ with
                            | none => none
                            | some m =>
                                if e₁ = backslash ∧ e₂ = 'u' ∧ 0xdc00 ≤ m ∧ m < 0xe000 then
                                  (string cs).map (Prod.map (Char.ofNat
                                    (0x10000 + (n - 0xd800) * 0x400 + (m - 0xdc00)) :: ·) id)
                                else none
                        | _ => none
                      else if 0xdc00 ≤ n ∧ n < 0xe000 then none
                      else (string cs).map (Prod.map (Char.ofNat n :: ·) id)
              | _ => none

/-- A member added to an object: a key that comes again keeps its place and takes the later
value. -/
def insertMember {α : Type} (members : List (Text × α)) (k : Text) (x : α) : List (Text × α) :=
  if members.any (fun m => m.1 == k) then members.map (fun m => if m.1 = k then (k, x) else m)
  else members ++ [(k, x)]

/-- The object of a list of members. -/
def objectOf {α : Type} (members : List (Text × α)) : List (Text × α) :=
  members.foldl (fun acc m => insertMember acc m.1 m.2) []

section Parse

variable {ν : Type} (number : Text → Option ν)

mutual

/-- A value and what follows it. -/
def value : Nat → Text → Option (Tree ν × Text)
  | 0, _ => none
  | fuel + 1, t =>
      match skipSpace t with
      | [] => none
      | c :: cs =>
          if c = '[' then
            match expect [']'] (skipSpace cs) with
            | some rest => some (.arr [], rest)
            | none => do
                let (x, cs) ← value fuel cs
                let (xs, rest) ← items fuel cs
                return (.arr (x :: xs), rest)
          else if c = '\x7b' then
            match expect ['\x7d'] (skipSpace cs) with
            | some rest => some (.obj [], rest)
            | none => do
                let cs ← expect [quotationMark] (skipSpace cs)
                let (k, cs) ← string cs
                let cs ← expect [':'] (skipSpace cs)
                let (x, cs) ← value fuel cs
                let (ms, rest) ← members fuel cs
                return (.obj (objectOf ((k, x) :: ms)), rest)
          else if c = quotationMark then (string cs).map (Prod.map .str id)
          else if c = 'n' then (expect ['u', 'l', 'l'] cs).map (Prod.mk .null)
          else if c = 't' then (expect ['r', 'u', 'e'] cs).map (Prod.mk (.bool true))
          else if c = 'f' then (expect ['a', 'l', 's', 'e'] cs).map (Prod.mk (.bool false))
          else
            (number ((c :: cs).takeWhile isNumeric)).map fun n =>
              (.num n, (c :: cs).dropWhile isNumeric)

/-- The items after the first, up to the closing bracket. -/
def items : Nat → Text → Option (List (Tree ν) × Text)
  | 0, _ => none
  | fuel + 1, t =>
      match expect [']'] (skipSpace t) with
      | some rest => some ([], rest)
      | none => do
          let cs ← expect [','] (skipSpace t)
          let (x, cs) ← value fuel cs
          let (xs, rest) ← items fuel cs
          return (x :: xs, rest)

/-- The members after the first, up to the closing brace. -/
def members : Nat → Text → Option (List (Text × Tree ν) × Text)
  | 0, _ => none
  | fuel + 1, t =>
      match expect ['\x7d'] (skipSpace t) with
      | some rest => some ([], rest)
      | none => do
          let cs ← expect [','] (skipSpace t)
          let cs ← expect [quotationMark] (skipSpace cs)
          let (k, cs) ← string cs
          let cs ← expect [':'] (skipSpace cs)
          let (x, cs) ← value fuel cs
          let (ms, rest) ← members fuel cs
          return ((k, x) :: ms, rest)

end

/-- `JSON.parse`; the length of the text is fuel enough for every value in it. -/
def parse (t : Text) : Option (Tree ν) :=
  match value number t.length t with
  | some (x, rest) => if skipSpace rest = [] then some x else none
  | none => none

end Parse

/-! ## Strings are read back -/

theorem hexVal_digitChar (d : Fin 16) : hexVal (Nat.digitChar d) = some d.val := by
  revert d
  decide

/-- The escape of a control character. -/
theorem hex4_control {n : Nat} (h : n < 0x20) :
    hex4 '0' '0' (Nat.digitChar (n / 16)) (Nat.digitChar (n % 16)) = some n := by
  have hzero : hexVal '0' = some 0 := by decide
  have hhigh : hexVal (Nat.digitChar (n / 16)) = some (n / 16) :=
    hexVal_digitChar ⟨n / 16, by omega⟩
  have hlow : hexVal (Nat.digitChar (n % 16)) = some (n % 16) :=
    hexVal_digitChar ⟨n % 16, by omega⟩
  rw [hex4, hzero, hhigh, hlow]
  show some ((0 * 16 + 0) * 256 + (n / 16 * 16 + n % 16)) = some n
  congr 1
  omega

/-- The escapes of one character each. -/
theorem string_simpleEscape {e ch : Char} (he : e ≠ 'u') (hch : simpleEscape e = some ch)
    (t : Text) :
    string (backslash :: e :: t) = (string t).map (Prod.map (ch :: ·) id) := by
  rw [string.eq_def]
  dsimp only
  rw [if_neg (by decide), if_neg (by decide), if_neg (by decide), if_pos he, hch]
  rfl

/-- **A character is read back.** -/
theorem string_escapeChar (c : Char) (t : Text) :
    string (escapeChar c ++ t) = (string t).map (Prod.map (c :: ·) id) := by
  unfold escapeChar
  split_ifs with hquote hback hlf hcr htab hbs hff hcontrol
  · rw [hquote]
    exact string_simpleEscape (by decide) (by decide) t
  · rw [hback]
    exact string_simpleEscape (by decide) (by decide) t
  · rw [hlf]
    exact string_simpleEscape (by decide) (by decide) t
  · rw [hcr]
    exact string_simpleEscape (by decide) (by decide) t
  · rw [htab]
    exact string_simpleEscape (by decide) (by decide) t
  · rw [hbs]
    exact string_simpleEscape (by decide) (by decide) t
  · rw [hff]
    exact string_simpleEscape (by decide) (by decide) t
  · -- the other control characters, by their code
    have hhigh : ¬ (0xd800 ≤ c.toNat ∧ c.toNat < 0xdc00) := by omega
    have hlow : ¬ (0xdc00 ≤ c.toNat ∧ c.toNat < 0xe000) := by omega
    show string (backslash :: 'u' :: '0' :: '0' :: Nat.digitChar (c.toNat / 16) ::
      Nat.digitChar (c.toNat % 16) :: t) = _
    rw [string.eq_def]
    dsimp only
    rw [if_neg (by decide), if_neg (by decide), if_neg (by decide), if_neg (by decide),
      hex4_control hcontrol]
    dsimp only
    rw [if_neg hhigh, if_neg hlow, Char.ofNat_toNat]
  · show string (c :: t) = _
    rw [string.eq_def]
    dsimp only
    rw [if_neg hquote, if_neg hcontrol, if_pos hback]

/-- **A string is read back.** -/
theorem string_flatMap_escapeChar (s rest : Text) :
    string (s.flatMap escapeChar ++ quotationMark :: rest) = some (s, rest) := by
  induction s with
  | nil =>
      show string (quotationMark :: rest) = some ([], rest)
      rw [string.eq_def]
      exact if_pos rfl
  | cons c s ih =>
      rw [List.flatMap_cons, List.append_assoc, string_escapeChar, ih]
      rfl

theorem string_printStr (s rest : Text) :
    ∃ t, printStr s ++ rest = quotationMark :: t ∧ string t = some (s, rest) := by
  refine ⟨s.flatMap escapeChar ++ quotationMark :: rest, ?_, string_flatMap_escapeChar s rest⟩
  rw [printStr, List.cons_append, List.append_assoc]
  rfl

/-! ## Objects with distinct keys -/

theorem foldl_insertMember {α : Type} (acc ms : List (Text × α))
    (h : ((acc ++ ms).map Prod.fst).Nodup) :
    ms.foldl (fun acc m => insertMember acc m.1 m.2) acc = acc ++ ms := by
  induction ms generalizing acc with
  | nil => rw [List.foldl_nil, List.append_nil]
  | cons m ms ih =>
      have hnew : ¬ acc.any (fun m' => m'.1 == m.1) = true := by
        intro hany
        obtain ⟨m', hm', heq⟩ := List.any_eq_true.mp hany
        rw [List.map_append, List.map_cons] at h
        exact (List.nodup_append.mp h).2.2 _ (List.mem_map_of_mem hm') _ List.mem_cons_self
          (eq_of_beq heq)
      have hinsert : insertMember acc m.1 m.2 = acc ++ [m] := if_neg hnew
      rw [List.foldl_cons, hinsert, ih _ (by rwa [List.append_assoc]), List.append_assoc]
      rfl

theorem objectOf_of_nodup {α : Type} {ms : List (Text × α)} (h : (ms.map Prod.fst).Nodup) :
    objectOf ms = ms := by
  have hfold := foldl_insertMember [] ms h
  rwa [List.nil_append] at hfold

/-! ## Values are read back -/

section RoundTrip

variable {ν : Type} (number : ν → Text) (read : Text → Option ν)

/-- A number is written with the characters of a number, and read back. -/
structure ReadBack (n : ν) : Prop where
  ne_nil : number n ≠ []
  numeric : ∀ c ∈ number n, isNumeric c = true
  read_number : read (number n) = some n

mutual

/-- The keys of every object are distinct, and every number is read back. -/
def Tree.Sound : Tree ν → Prop
  | .num n => ReadBack number read n
  | .arr xs => SoundItems xs
  | .obj ms => (ms.map Prod.fst).Nodup ∧ SoundMembers ms
  | _ => True

def SoundItems : List (Tree ν) → Prop
  | [] => True
  | x :: xs => x.Sound ∧ SoundItems xs

def SoundMembers : List (Text × Tree ν) → Prop
  | [] => True
  | (_, x) :: ms => x.Sound ∧ SoundMembers ms

end

/-- A text that does not continue a number. -/
def Ends (t : Text) : Prop := ∀ c ∈ t.head?, isNumeric c = false

theorem ends_cons {c : Char} (h : isNumeric c = false) (t : Text) : Ends (c :: t) := by
  intro d hd
  rwa [← Option.some.inj hd]

theorem skipSpace_cons {c : Char} (h : isSpace c = false) (t : Text) :
    skipSpace (c :: t) = c :: t := by
  rw [skipSpace, List.dropWhile_cons, h]
  rfl

theorem skipSpace_space (t : Text) : skipSpace (' ' :: t) = skipSpace t := rfl

theorem expect_append (word t : Text) : expect word (word ++ t) = some t := by
  rw [expect, if_pos (List.prefix_append _ _), List.drop_left]

theorem expect_self (c : Char) (t : Text) : expect [c] (c :: t) = some t := expect_append [c] t

theorem expect_of_ne {c d : Char} (h : c ≠ d) (t : Text) : expect [c] (d :: t) = none := by
  refine if_neg fun hword => ?_
  obtain ⟨u, hu⟩ := hword
  exact h (List.cons.inj hu).1

variable {number read}

/-- What a number consists of is neither space nor the start of another value. -/
theorem isNumeric_ne {c d : Char} (h : isNumeric c = true) (hd : isNumeric d = false) : c ≠ d := by
  rintro rfl
  rw [h] at hd
  cases hd

theorem isSpace_of_isNumeric {c : Char} (h : isNumeric c = true) : isSpace c = false := by
  have hne : ∀ d, isNumeric d = false → c ≠ d := fun d hd => isNumeric_ne h hd
  simp [isSpace, hne ' ' (by decide), hne '\n' (by decide), hne '\r' (by decide),
    hne '\t' (by decide)]

/-- The first character of a value. -/
theorem exists_print_cons {x : Tree ν} (hx : x.Sound number read) :
    ∃ c t, print number x = c :: t ∧ isSpace c = false ∧ c ≠ ']' := by
  cases x with
  | null => exact ⟨_, _, by rw [print], by decide, by decide⟩
  | bool b =>
      cases b with
      | false => exact ⟨_, _, by rw [print], by decide, by decide⟩
      | true => exact ⟨_, _, by rw [print], by decide, by decide⟩
  | num n =>
      rw [Tree.Sound] at hx
      obtain ⟨c, t, hct⟩ := List.exists_cons_of_ne_nil hx.ne_nil
      have hc := hx.numeric c (by rw [hct]; exact List.mem_cons_self)
      exact ⟨c, t, by rw [print, hct], isSpace_of_isNumeric hc, isNumeric_ne hc (by decide)⟩
  | str s => exact ⟨_, _, by rw [print, printStr], by decide, by decide⟩
  | arr xs =>
      cases xs with
      | nil => exact ⟨_, _, by rw [print], by decide, by decide⟩
      | cons x xs => exact ⟨_, _, by rw [print], by decide, by decide⟩
  | obj ms =>
      cases ms with
      | nil => exact ⟨_, _, by rw [print], by decide, by decide⟩
      | cons m ms => exact ⟨_, _, by rw [print], by decide, by decide⟩

theorem ends_printItems (xs : List (Tree ν)) (rest : Text) :
    Ends (printItems number xs ++ ']' :: rest) := by
  cases xs with
  | nil =>
      rw [printItems, List.nil_append]
      exact ends_cons (by decide) _
  | cons x xs =>
      rw [printItems, List.cons_append]
      exact ends_cons (by decide) _

theorem ends_printMembers (ms : List (Text × Tree ν)) (rest : Text) :
    Ends (printMembers number ms ++ '\x7d' :: rest) := by
  cases ms with
  | nil =>
      rw [printMembers, List.nil_append]
      exact ends_cons (by decide) _
  | cons m ms =>
      rw [printMembers, List.cons_append]
      exact ends_cons (by decide) _

theorem value_space (fuel : Nat) (t : Text) : value read fuel (' ' :: t) = value read fuel t := by
  cases fuel with
  | zero => rw [value, value]
  | succ fuel => rw [value, value, skipSpace_space]

/-- A number is read up to its end. -/
theorem value_number {n : ν} (hn : ReadBack number read n) (fuel : Nat) {rest : Text}
    (hrest : Ends rest) :
    value read (fuel + 1) (number n ++ rest) = some (.num n, rest) := by
  obtain ⟨c, t, hct⟩ := List.exists_cons_of_ne_nil hn.ne_nil
  have hc := hn.numeric c (by rw [hct]; exact List.mem_cons_self)
  have hne : ∀ d, isNumeric d = false → c ≠ d := fun d hd => isNumeric_ne hc hd
  have htake : (number n ++ rest).takeWhile isNumeric = number n := by
    rw [List.takeWhile_append_of_pos hn.numeric]
    cases rest with
    | nil => simp
    | cons d rest => simp [hrest d rfl]
  have hdrop : (number n ++ rest).dropWhile isNumeric = rest := by
    rw [List.dropWhile_append_of_pos hn.numeric]
    cases rest with
    | nil => rfl
    | cons d rest => simp [hrest d rfl]
  rw [hct, List.cons_append] at htake hdrop
  rw [value, hct, List.cons_append, skipSpace_cons (isSpace_of_isNumeric hc)]
  dsimp only
  rw [if_neg (hne _ (by decide)), if_neg (hne _ (by decide)), if_neg (hne _ (by decide)),
    if_neg (hne _ (by decide)), if_neg (hne _ (by decide)), if_neg (hne _ (by decide)), htake,
    hdrop, ← hct, hn.read_number]
  rfl

mutual

/-- **A value is read back.** -/
theorem value_print (x : Tree ν) (fuel : Nat) (rest : Text) (hx : x.Sound number read)
    (hfuel : (print number x).length ≤ fuel) (hrest : Ends rest) :
    value read fuel (print number x ++ rest) = some (x, rest) := by
  obtain ⟨fuel, rfl⟩ : ∃ f, fuel = f + 1 := by
    obtain ⟨c, t, hct, -⟩ := exists_print_cons hx
    rw [hct, List.length_cons] at hfuel
    exact ⟨fuel - 1, by omega⟩
  match x with
  | .null => rfl
  | .bool true => rfl
  | .bool false => rfl
  | .num n =>
      rw [Tree.Sound] at hx
      rw [print]
      exact value_number hx fuel hrest
  | .str s =>
      obtain ⟨t, ht, hstring⟩ := string_printStr s rest
      rw [print, ht, value, skipSpace_cons (by decide)]
      dsimp only
      rw [if_neg (by decide), if_neg (by decide), if_pos rfl, hstring]
      rfl
  | .arr [] => rfl
  | .arr (x :: xs) =>
      rw [Tree.Sound, SoundItems] at hx
      rw [print, List.length_cons, List.length_append, List.length_append, List.length_singleton]
        at hfuel
      obtain ⟨c, t, hct, hspace, hbracket⟩ := exists_print_cons hx.1
      have hvalue := value_print x fuel (printItems number xs ++ ']' :: rest) hx.1 (by omega)
        (ends_printItems xs rest)
      have hitems := items_print xs fuel rest hx.2 (by omega)
      have htext : print number (.arr (x :: xs)) ++ rest =
          '[' :: (print number x ++ (printItems number xs ++ ']' :: rest)) := by
        simp [print]
      -- no value starts as an empty list ends
      have hopen : expect [']'] (skipSpace (print number x ++ (printItems number xs ++ ']' :: rest)))
          = none := by
        rw [hct, List.cons_append, skipSpace_cons hspace, expect_of_ne hbracket.symm]
      rw [htext, value, skipSpace_cons (by decide)]
      dsimp only
      rw [if_pos rfl, hopen, hvalue]
      show (items read fuel (printItems number xs ++ ']' :: rest)).bind _ = _
      rw [hitems]
      rfl
  | .obj [] => rfl
  | .obj ((k, x) :: ms) =>
      rw [Tree.Sound, SoundMembers] at hx
      rw [print, List.length_cons, List.length_append, List.length_cons, List.length_cons,
        List.length_append, List.length_append, List.length_singleton] at hfuel
      have hvalue := value_print x fuel (printMembers number ms ++ '\x7d' :: rest) hx.2.1 (by omega)
        (ends_printMembers ms rest)
      have hmembers := members_print ms fuel rest hx.2.2 (by omega)
      obtain ⟨t, ht, hstring⟩ := string_printStr k
        (':' :: ' ' :: (print number x ++ (printMembers number ms ++ '\x7d' :: rest)))
      have htext : print number (.obj ((k, x) :: ms)) ++ rest = '\x7b' :: quotationMark :: t := by
        rw [← ht]
        simp [print]
      rw [htext, value, skipSpace_cons (by decide)]
      dsimp only
      rw [if_neg (by decide), if_pos rfl, skipSpace_cons (by decide), expect_of_ne (by decide),
        expect_self]
      simp only [Option.bind_eq_bind, Option.bind_some]
      rw [hstring, Option.bind_some, skipSpace_cons (by decide), expect_self, Option.bind_some,
        value_space, hvalue, Option.bind_some, hmembers, Option.bind_some]
      show some (Tree.obj (objectOf ((k, x) :: ms)), rest) = _
      rw [objectOf_of_nodup hx.1]

theorem items_print (xs : List (Tree ν)) (fuel : Nat) (rest : Text)
    (hxs : SoundItems number read xs) (hfuel : (printItems number xs).length < fuel) :
    items read fuel (printItems number xs ++ ']' :: rest) = some (xs, rest) := by
  obtain ⟨fuel, rfl⟩ : ∃ f, fuel = f + 1 := ⟨fuel - 1, by omega⟩
  match xs with
  | [] => rfl
  | x :: xs =>
      rw [SoundItems] at hxs
      rw [printItems, List.length_cons, List.length_cons, List.length_append] at hfuel
      have hvalue := value_print x fuel (printItems number xs ++ ']' :: rest) hxs.1 (by omega)
        (ends_printItems xs rest)
      have hitems := items_print xs fuel rest hxs.2 (by omega)
      have htext : printItems number (x :: xs) ++ ']' :: rest =
          ',' :: ' ' :: (print number x ++ (printItems number xs ++ ']' :: rest)) := by
        simp [printItems]
      rw [htext, items, skipSpace_cons (by decide), expect_of_ne (by decide), expect_self]
      show (value read fuel (' ' :: _)).bind _ = _
      rw [value_space, hvalue]
      show (items read fuel _).bind _ = _
      rw [hitems]
      rfl

theorem members_print (ms : List (Text × Tree ν)) (fuel : Nat) (rest : Text)
    (hms : SoundMembers number read ms) (hfuel : (printMembers number ms).length < fuel) :
    members read fuel (printMembers number ms ++ '\x7d' :: rest) = some (ms, rest) := by
  obtain ⟨fuel, rfl⟩ : ∃ f, fuel = f + 1 := ⟨fuel - 1, by omega⟩
  match ms with
  | [] => rfl
  | (k, x) :: ms =>
      rw [SoundMembers] at hms
      rw [printMembers, List.length_cons, List.length_cons, List.length_append, List.length_cons,
        List.length_cons, List.length_append] at hfuel
      have hvalue := value_print x fuel (printMembers number ms ++ '\x7d' :: rest) hms.1 (by omega)
        (ends_printMembers ms rest)
      have hmembers := members_print ms fuel rest hms.2 (by omega)
      obtain ⟨t, ht, hstring⟩ := string_printStr k
        (':' :: ' ' :: (print number x ++ (printMembers number ms ++ '\x7d' :: rest)))
      have htext : printMembers number ((k, x) :: ms) ++ '\x7d' :: rest =
          ',' :: ' ' :: quotationMark :: t := by
        rw [← ht]
        simp [printMembers]
      rw [htext, members, skipSpace_cons (by decide), expect_of_ne (by decide), expect_self]
      simp only [Option.bind_eq_bind, Option.bind_some]
      rw [skipSpace_space, skipSpace_cons (by decide), expect_self, Option.bind_some, hstring,
        Option.bind_some, skipSpace_cons (by decide), expect_self, Option.bind_some, value_space,
        hvalue, Option.bind_some, hmembers, Option.bind_some]
      rfl

end

/-- **The round trip.** -/
theorem parse_print {x : Tree ν} (hx : x.Sound number read) :
    parse read (print number x) = some x := by
  have hvalue := value_print x (print number x).length [] hx (Nat.le_refl _) (by simp [Ends])
  rw [List.append_nil] at hvalue
  rw [parse, hvalue]
  rfl

/-! ## Written texts are one line -/

/-- A text without control characters. -/
def Visible (t : Text) : Prop := ∀ c ∈ t, 0x20 ≤ c.toNat

instance (t : Text) : Decidable (Visible t) :=
  decidable_of_iff (t.all (fun c => decide (0x20 ≤ c.toNat)) = true)
    (by simp only [Visible, List.all_eq_true, decide_eq_true_eq])

theorem visible_cons {c : Char} {t : Text} : Visible (c :: t) ↔ 0x20 ≤ c.toNat ∧ Visible t :=
  List.forall_mem_cons

theorem visible_append {t u : Text} : Visible (t ++ u) ↔ Visible t ∧ Visible u :=
  List.forall_mem_append

theorem visible_nil : Visible [] := List.forall_mem_nil _

theorem visible_digitChar (d : Fin 16) : 0x20 ≤ (Nat.digitChar d).toNat := by
  revert d
  decide

theorem visible_escapeChar (c : Char) : Visible (escapeChar c) := by
  unfold escapeChar
  split_ifs with hquote hback hlf hcr htab hbs hff hcontrol
  iterate 7
    · decide
  · have hhigh := visible_digitChar ⟨c.toNat / 16, by omega⟩
    have hlow := visible_digitChar ⟨c.toNat % 16, by omega⟩
    have hprefixed : Visible [backslash, 'u', '0', '0'] := by decide
    exact visible_append.mpr
      ⟨hprefixed, visible_cons.mpr ⟨hhigh, visible_cons.mpr ⟨hlow, visible_nil⟩⟩⟩
  · exact visible_cons.mpr ⟨Nat.le_of_not_lt hcontrol, visible_nil⟩

theorem visible_printStr (s : Text) : Visible (printStr s) := by
  refine visible_cons.mpr ⟨by decide, visible_append.mpr ⟨fun c hc => ?_, ?_⟩⟩
  · obtain ⟨d, -, hd⟩ := List.mem_flatMap.mp hc
    exact visible_escapeChar d c hd
  · exact visible_cons.mpr ⟨by decide, visible_nil⟩

theorem visible_of_isNumeric {c : Char} (h : isNumeric c = true) : 0x20 ≤ c.toNat := by
  simp only [isNumeric, Bool.or_eq_true, beq_iff_eq, Char.isDigit, Bool.and_eq_true,
    decide_eq_true_eq] at h
  rcases h with ((((⟨hzero, -⟩ | rfl) | rfl) | rfl) | rfl) | rfl
  · have hle : 48 ≤ c.toNat := UInt32.le_iff_toNat_le.mp hzero
    omega
  all_goals decide

mutual

theorem visible_print (x : Tree ν) (hx : x.Sound number read) : Visible (print number x) := by
  match x with
  | .null | .bool true | .bool false | .arr [] | .obj [] =>
      rw [print]
      decide
  | .num n =>
      rw [Tree.Sound] at hx
      rw [print]
      exact fun c hc => visible_of_isNumeric (hx.numeric c hc)
  | .str s =>
      rw [print]
      exact visible_printStr s
  | .arr (x :: xs) =>
      rw [Tree.Sound, SoundItems] at hx
      rw [print]
      simp only [visible_cons, visible_append]
      exact ⟨by decide, visible_print x hx.1, visible_printItems xs hx.2, by decide, visible_nil⟩
  | .obj ((k, x) :: ms) =>
      rw [Tree.Sound, SoundMembers] at hx
      rw [print]
      simp only [visible_cons, visible_append]
      exact ⟨by decide, visible_printStr k, by decide, by decide, visible_print x hx.2.1,
        visible_printMembers ms hx.2.2, by decide, visible_nil⟩

theorem visible_printItems (xs : List (Tree ν)) (hxs : SoundItems number read xs) :
    Visible (printItems number xs) := by
  match xs with
  | [] => exact visible_nil
  | x :: xs =>
      rw [SoundItems] at hxs
      rw [printItems]
      simp only [visible_cons, visible_append]
      exact ⟨by decide, by decide, visible_print x hxs.1, visible_printItems xs hxs.2⟩

theorem visible_printMembers (ms : List (Text × Tree ν)) (hms : SoundMembers number read ms) :
    Visible (printMembers number ms) := by
  match ms with
  | [] => exact visible_nil
  | (k, x) :: ms =>
      rw [SoundMembers] at hms
      rw [printMembers]
      simp only [visible_cons, visible_append]
      exact ⟨by decide, by decide, visible_printStr k, by decide, by decide,
        visible_print x hms.1, visible_printMembers ms hms.2⟩

end

end RoundTrip

end Json
