import AgentRoom.Lib.Json
import AgentRoom.Web.StreamTask

set_option autoImplicit false

/-! # The JSON texts of values

`_dumps` writes a value with `json.dumps(…, ensure_ascii=False)`, and the client reads the text
with `JSON.parse`. Integers are written in decimal and read back exactly while a double holds
them; what a double is written as, and what other number texts denote, is a parameter (`Floats`).
-/

namespace AgentRoom

inductive Number
  | int (n : Int)
  | float (q : ℚ)

/-! ## Values as trees -/

mutual

def Value.tree : Value → Json.Tree Number
  | .none => .null
  | .bool b => .bool b
  | .int n => .num (.int n)
  | .float q => .num (.float q)
  | .str s => .str s.toList
  | .list xs => .arr (Value.trees xs)
  | .dict fields => .obj (Value.fieldTrees fields)

def Value.trees : List Value → List (Json.Tree Number)
  | [] => []
  | v :: rest => v.tree :: Value.trees rest

def Value.fieldTrees : List (String × Value) → List (Json.Text × Json.Tree Number)
  | [] => []
  | (key, v) :: rest => (key.toList, v.tree) :: Value.fieldTrees rest

end

mutual

def Value.ofTree : Json.Tree Number → Value
  | .null => .none
  | .bool b => .bool b
  | .num (.int n) => .int n
  | .num (.float q) => .float q
  | .str s => .str (String.ofList s)
  | .arr items => .list (Value.ofTrees items)
  | .obj members => .dict (Value.ofFieldTrees members)

def Value.ofTrees : List (Json.Tree Number) → List Value
  | [] => []
  | x :: rest => Value.ofTree x :: Value.ofTrees rest

def Value.ofFieldTrees : List (Json.Text × Json.Tree Number) → List (String × Value)
  | [] => []
  | (key, x) :: rest => (String.ofList key, Value.ofTree x) :: Value.ofFieldTrees rest

end

mutual

theorem Value.ofTree_tree (v : Value) : Value.ofTree v.tree = v := by
  match v with
  | .none | .bool _ | .int _ | .float _ => rfl
  | .str s => rw [Value.tree, Value.ofTree, String.ofList_toList]
  | .list xs => rw [Value.tree, Value.ofTree, Value.ofTrees_trees]
  | .dict fields => rw [Value.tree, Value.ofTree, Value.ofFieldTrees_fieldTrees]

theorem Value.ofTrees_trees (xs : List Value) : Value.ofTrees (Value.trees xs) = xs := by
  match xs with
  | [] => rfl
  | v :: rest =>
      rw [Value.trees, Value.ofTrees, Value.ofTree_tree v, Value.ofTrees_trees rest]

theorem Value.ofFieldTrees_fieldTrees (fields : List (String × Value)) :
    Value.ofFieldTrees (Value.fieldTrees fields) = fields := by
  match fields with
  | [] => rfl
  | (key, v) :: rest =>
      rw [Value.fieldTrees, Value.ofFieldTrees, Value.ofTree_tree v,
        Value.ofFieldTrees_fieldTrees rest, String.ofList_toList]

end

theorem Value.fieldTrees_keys (fields : List (String × Value)) :
    (Value.fieldTrees fields).map Prod.fst = (fields.map Prod.fst).map String.toList := by
  induction fields with
  | nil => rfl
  | cons field rest ih => rw [Value.fieldTrees, List.map_cons, ih, List.map_cons, List.map_cons]

namespace Web

/-! ## Numbers -/

/-- `str(n)` of an integer. -/
def decimalInt (n : Int) : Text := if n < 0 then '-' :: decimal n.natAbs else decimal n.natAbs

/-- Digits without a leading zero. -/
def readNat (t : Text) : Option Nat :=
  if t ≠ [] ∧ t.all Char.isDigit = true ∧ (t.head? = some '0' → t = ['0']) then
    some (Nat.ofDigitChars 10 t 0)
  else none

def readInt : Text → Option Int
  | '-' :: t => (readNat t).map fun n : Nat => -(n : Int)
  | t => (readNat t).map Int.ofNat

/-- `repr` of a float, and the number that a text other than that of an exact integer denotes. -/
structure Floats where
  repr : ℚ → Text
  read : Text → Option ℚ

namespace Floats

variable (fl : Floats)

def numberText : Number → Text
  | .int n => decimalInt n
  | .float q => fl.repr q

/-- An integer that a double does not hold is read as the double next to it. -/
def readNumber (t : Text) : Option Number :=
  match readInt t with
  | some n => if n.natAbs < 2 ^ 53 then some (.int n) else (fl.read t).map .float
  | none => (fl.read t).map .float

/-- `_dumps`. -/
def dumps (v : Value) : Text := Json.print fl.numberText v.tree

/-- `JSON.parse`. -/
def parse (t : Text) : Option Value := (Json.parse fl.readNumber t).map Value.ofTree

/-- A float whose `repr` is the text of a number, of no integer, and denotes it. -/
structure Exact (q : ℚ) : Prop where
  ne_nil : fl.repr q ≠ []
  numeric : ∀ c ∈ fl.repr q, Json.isNumeric c = true
  readInt_repr : readInt (fl.repr q) = none
  read_repr : fl.read (fl.repr q) = some q

end Floats

theorem isNumeric_of_isDigit {c : Char} (h : c.isDigit = true) : Json.isNumeric c = true := by
  simp [Json.isNumeric, h]

theorem isDigit_of_mem_decimal {n : Nat} {c : Char} (h : c ∈ decimal n) : c.isDigit = true :=
  Nat.isDigit_of_mem_toDigits (by decide) (by decide) h

/-- Only zero starts with a zero. -/
theorem decimal_head (n : Nat) : (decimal n).head? = some '0' → decimal n = ['0'] := by
  induction n using Nat.strongRecOn with
  | ind n ih =>
      intro hhead
      rcases Nat.lt_or_ge n 10 with hsmall | hbig
      · have hdigit : ∀ d : Fin 10, [Nat.digitChar d].head? = some '0' →
            [Nat.digitChar d] = ['0'] := by decide
        have hone : decimal n = [Nat.digitChar n] := Nat.toDigits_of_lt_base hsmall
        rw [hone] at hhead ⊢
        exact hdigit ⟨n, hsmall⟩ hhead
      · -- the leading digit is that of the tenth
        have hsplit : decimal n = decimal (n / 10) ++ [Nat.digitChar (n % 10)] :=
          Nat.toDigits_of_base_le (by decide) hbig
        have hne : decimal (n / 10) ≠ [] := Nat.toDigits_ne_nil
        rw [hsplit, List.head?_append_of_ne_nil _ hne] at hhead
        have hzero := ih (n / 10) (by omega) hhead
        have hvalue := congrArg (Nat.ofDigitChars 10 · 0) hzero
        have htenth : Nat.ofDigitChars 10 (decimal (n / 10)) 0 = n / 10 :=
          Nat.ofDigitChars_ten_toDigits
        have hone : Nat.ofDigitChars 10 ['0'] 0 = 0 := by decide
        simp only [htenth, hone] at hvalue
        omega

theorem readNat_decimal (n : Nat) : readNat (decimal n) = some n := by
  have hdigits : (decimal n).all Char.isDigit = true :=
    List.all_eq_true.mpr fun c hc => isDigit_of_mem_decimal hc
  have hvalue : Nat.ofDigitChars 10 (decimal n) 0 = n := Nat.ofDigitChars_ten_toDigits
  rw [readNat, if_pos ⟨Nat.toDigits_ne_nil, hdigits, decimal_head n⟩, hvalue]

/-- An integer is read back from its digits. -/
theorem readInt_decimalInt (n : Int) : readInt (decimalInt n) = some n := by
  unfold decimalInt
  split_ifs with hneg
  · rw [readInt, readNat_decimal, Option.map_some]
    congr 1
    omega
  · have hne : decimal n.natAbs ≠ [] := Nat.toDigits_ne_nil
    obtain ⟨d, t, hdt⟩ := List.exists_cons_of_ne_nil hne
    have hd : d.isDigit = true := isDigit_of_mem_decimal (hdt ▸ List.mem_cons_self)
    have hread : readInt (decimal n.natAbs) = (readNat (decimal n.natAbs)).map Int.ofNat := by
      rw [hdt, readInt]
      rintro t' heq
      rw [(List.cons.inj heq).1] at hd
      exact absurd hd (by decide)
    rw [hread, readNat_decimal, Option.map_some]
    congr 1
    exact Int.natAbs_of_nonneg (by omega)

theorem isNumeric_of_mem_decimalInt {n : Int} {c : Char} (h : c ∈ decimalInt n) :
    Json.isNumeric c = true := by
  unfold decimalInt at h
  split_ifs at h with hneg
  · rcases List.mem_cons.mp h with rfl | hc
    · decide
    · exact isNumeric_of_isDigit (isDigit_of_mem_decimal hc)
  · exact isNumeric_of_isDigit (isDigit_of_mem_decimal h)

theorem decimalInt_ne_nil (n : Int) : decimalInt n ≠ [] := by
  unfold decimalInt
  split_ifs with hneg
  · exact List.cons_ne_nil _ _
  · exact Nat.toDigits_ne_nil

/-! ## The round trip -/

namespace Floats

variable (fl : Floats)

mutual

/-- What a value must be for its text to be read back: the keys of a dictionary are distinct, a
double holds its integers, and its floats have exact texts. -/
def Carries : Value → Prop
  | .int n => n.natAbs < 2 ^ 53
  | .float q => fl.Exact q
  | .list xs => CarriesEach xs
  | .dict fields => (fields.map Prod.fst).Nodup ∧ CarriesFields fields
  | _ => True

def CarriesEach : List Value → Prop
  | [] => True
  | v :: rest => Carries v ∧ CarriesEach rest

def CarriesFields : List (String × Value) → Prop
  | [] => True
  | (_, v) :: rest => Carries v ∧ CarriesFields rest

end

variable {fl}

theorem readBack_int {n : Int} (h : n.natAbs < 2 ^ 53) :
    Json.ReadBack fl.numberText fl.readNumber (.int n) where
  ne_nil := decimalInt_ne_nil n
  numeric _ hc := isNumeric_of_mem_decimalInt hc
  read_number := by
    rw [readNumber, numberText, readInt_decimalInt]
    exact if_pos h

theorem Exact.readBack {q : ℚ} (h : fl.Exact q) :
    Json.ReadBack fl.numberText fl.readNumber (.float q) where
  ne_nil := h.ne_nil
  numeric := h.numeric
  read_number := by
    rw [readNumber, numberText, h.readInt_repr]
    show (fl.read (fl.repr q)).map Number.float = _
    rw [h.read_repr]
    rfl

mutual

theorem sound_tree (v : Value) (h : fl.Carries v) :
    v.tree.Sound fl.numberText fl.readNumber := by
  match v with
  | .none | .bool _ | .str _ =>
      rw [Value.tree, Json.Tree.Sound]
      · trivial
      all_goals simp
  | .int n =>
      rw [Carries] at h
      rw [Value.tree, Json.Tree.Sound]
      exact readBack_int h
  | .float q =>
      rw [Carries] at h
      rw [Value.tree, Json.Tree.Sound]
      exact h.readBack
  | .list xs =>
      rw [Carries] at h
      rw [Value.tree, Json.Tree.Sound]
      exact sound_trees xs h
  | .dict fields =>
      rw [Carries] at h
      rw [Value.tree, Json.Tree.Sound, Value.fieldTrees_keys]
      exact ⟨h.1.map (fun _ _ => String.toList_injective), sound_fieldTrees fields h.2⟩

theorem sound_trees (xs : List Value) (h : fl.CarriesEach xs) :
    Json.SoundItems fl.numberText fl.readNumber (Value.trees xs) := by
  match xs with
  | [] =>
      rw [Value.trees, Json.SoundItems]
      trivial
  | v :: rest =>
      rw [CarriesEach] at h
      rw [Value.trees, Json.SoundItems]
      exact ⟨sound_tree v h.1, sound_trees rest h.2⟩

theorem sound_fieldTrees (fields : List (String × Value)) (h : fl.CarriesFields fields) :
    Json.SoundMembers fl.numberText fl.readNumber (Value.fieldTrees fields) := by
  match fields with
  | [] =>
      rw [Value.fieldTrees, Json.SoundMembers]
      trivial
  | (key, v) :: rest =>
      rw [CarriesFields] at h
      rw [Value.fieldTrees, Json.SoundMembers]
      exact ⟨sound_tree v h.1, sound_fieldTrees rest h.2⟩

end

/-- **The client reads back what the server writes.** -/
theorem parse_dumps {v : Value} (h : fl.Carries v) : fl.parse (fl.dumps v) = some v := by
  rw [parse, dumps, Json.parse_print (sound_tree v h), Option.map_some, Value.ofTree_tree]

/-- A written value is one line. -/
theorem oneLine_dumps {v : Value} (h : fl.Carries v) :
    '\n' ∉ fl.dumps v ∧ '\r' ∉ fl.dumps v := by
  have hvisible : Json.Visible (fl.dumps v) := Json.visible_print v.tree (sound_tree v h)
  exact ⟨fun hc => absurd (hvisible _ hc) (by decide), fun hc => absurd (hvisible _ hc) (by decide)⟩

end Floats

end Web

end AgentRoom
