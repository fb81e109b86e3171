import Mathlib.Data.List.Basic
import Mathlib.Tactic.Common

set_option autoImplicit false

/-! # Streaming UTF-8 decoder

The decoder of the Encoding standard, one byte at a time, in its replacement mode. A decoder
that is fed the encoding of a text in pieces of any size gives back the text
(`decode_encode`); what it holds at the end is an unfinished character.
-/

namespace Utf8

/-- The UTF-8 bytes of a text. -/
def encode (t : List Char) : List UInt8 := t.flatMap String.utf8EncodeChar

/-- Between two bytes: how many continuation bytes are still needed, the range the next one must
lie in, and the code point so far. -/
structure Decoder where
  needed : Nat
  lower : Nat
  upper : Nat
  codePoint : Nat
  deriving DecidableEq

/-- Between two characters. -/
def Decoder.start : Decoder := ⟨0, 0x80, 0xbf, 0⟩

def replacement : Char := '\ufffd'

/-- A byte that starts a character. -/
def first (n : Nat) : Decoder × List Char :=
  if n ≤ 0x7f then (.start, [Char.ofNat n])
  else if 0xc2 ≤ n ∧ n ≤ 0xdf then (⟨1, 0x80, 0xbf, n % 0x20⟩, [])
  else if 0xe0 ≤ n ∧ n ≤ 0xef then
    (⟨2, if n = 0xe0 then 0xa0 else 0x80, if n = 0xed then 0x9f else 0xbf, n % 0x10⟩, [])
  else if 0xf0 ≤ n ∧ n ≤ 0xf4 then
    (⟨3, if n = 0xf0 then 0x90 else 0x80, if n = 0xf4 then 0x8f else 0xbf, n % 0x08⟩, [])
  else (.start, [replacement])

/-- One byte. A byte out of range ends the character it should have continued and is looked at
again as a first byte. -/
def step (d : Decoder) (b : UInt8) : Decoder × List Char :=
  let n := b.toNat
  if d.needed = 0 then first n
  else if d.lower ≤ n ∧ n ≤ d.upper then
    let codePoint := d.codePoint * 0x40 + n % 0x40
    if d.needed = 1 then (.start, [Char.ofNat codePoint])
    else (⟨d.needed - 1, 0x80, 0xbf, codePoint⟩, [])
  else ((first n).1, replacement :: (first n).2)

/-- The characters a decoder gives for some bytes, and the decoder after them. -/
def decode (d : Decoder) : List UInt8 → Decoder × List Char
  | [] => (d, [])
  | b :: bs => ((decode (step d b).1 bs).1, (step d b).2 ++ (decode (step d b).1 bs).2)

/-- At the end of the input an unfinished character is replaced. -/
def flush (d : Decoder) : List Char := if d.needed = 0 then [] else [replacement]

theorem decode_append (d : Decoder) (bs cs : List UInt8) :
    decode d (bs ++ cs) =
      ((decode (decode d bs).1 cs).1, (decode d bs).2 ++ (decode (decode d bs).1 cs).2) := by
  induction bs generalizing d with
  | nil => simp [decode]
  | cons b bs ih =>
      rw [List.cons_append, decode, ih, decode]
      simp

theorem decode_cons_of_step {d d' : Decoder} {b : UInt8} (bs : List UInt8)
    (h : step d b = (d', [])) : decode d (b :: bs) = decode d' bs := by
  rw [decode, h]
  simp

theorem decode_singleton {d d' : Decoder} {b : UInt8} {out : List Char}
    (h : step d b = (d', out)) : decode d [b] = (d', out) := by
  rw [decode, h]
  simp [decode]

theorem step_start (b : UInt8) : step .start b = first b.toNat := by
  have hneeded : Decoder.start.needed = 0 := rfl
  rw [step]
  simp only [hneeded, if_true]

/-- A continuation byte in range. -/
theorem step_continuation {needed lower upper codePoint : Nat} {b : UInt8} (hneeded : 1 < needed)
    (hlower : lower ≤ b.toNat) (hupper : b.toNat ≤ upper) :
    step ⟨needed, lower, upper, codePoint⟩ b =
      (⟨needed - 1, 0x80, 0xbf, codePoint * 0x40 + b.toNat % 0x40⟩, []) := by
  rw [step]
  simp only
  rw [if_neg (by omega), if_pos ⟨hlower, hupper⟩, if_neg (by omega)]

/-- The last continuation byte. -/
theorem step_last {lower upper codePoint : Nat} {b : UInt8}
    (hlower : lower ≤ b.toNat) (hupper : b.toNat ≤ upper) :
    step ⟨1, lower, upper, codePoint⟩ b =
      (.start, [Char.ofNat (codePoint * 0x40 + b.toNat % 0x40)]) := by
  rw [step]
  simp only
  rw [if_neg (by omega), if_pos ⟨hlower, hupper⟩, if_pos trivial]

theorem toNat_ofNat {n : Nat} (h : n < 256) : (UInt8.ofNat n).toNat = n := by
  simp [Nat.mod_eq_of_lt h]

/-- The first byte of a two-byte character. -/
theorem step_first_two {n : Nat} (h : n < 0x20) (hmin : 2 ≤ n) :
    step .start (UInt8.ofNat (n + 0xc0)) = (⟨1, 0x80, 0xbf, n⟩, []) := by
  have hmod : (n + 0xc0) % 0x20 = n := by omega
  rw [step_start, toNat_ofNat (by omega), first, if_neg (by omega),
    if_pos ⟨by omega, by omega⟩, hmod]

/-- The first byte of a three-byte character. -/
theorem step_first_three {n : Nat} (h : n < 0x10) :
    step .start (UInt8.ofNat (n + 0xe0)) =
      (⟨2, if n = 0 then 0xa0 else 0x80, if n = 13 then 0x9f else 0xbf, n⟩, []) := by
  have hmod : (n + 0xe0) % 0x10 = n := by omega
  have hlow : (n + 0xe0 = 0xe0) ↔ n = 0 := by omega
  have hhigh : (n + 0xe0 = 0xed) ↔ n = 13 := by omega
  rw [step_start, toNat_ofNat (by omega), first, if_neg (by omega), if_neg (by omega),
    if_pos ⟨by omega, by omega⟩, hmod]
  simp only [hlow, hhigh]

/-- The first byte of a four-byte character. -/
theorem step_first_four {n : Nat} (h : n ≤ 4) :
    step .start (UInt8.ofNat (n + 0xf0)) =
      (⟨3, if n = 0 then 0x90 else 0x80, if n = 4 then 0x8f else 0xbf, n⟩, []) := by
  have hmod : (n + 0xf0) % 0x08 = n := by omega
  have hlow : (n + 0xf0 = 0xf0) ↔ n = 0 := by omega
  have hhigh : (n + 0xf0 = 0xf4) ↔ n = 4 := by omega
  rw [step_start, toNat_ofNat (by omega), first, if_neg (by omega), if_neg (by omega),
    if_neg (by omega), if_pos ⟨by omega, by omega⟩, hmod]
  simp only [hlow, hhigh]

/-- **One character.** Its bytes give it back. -/
theorem decode_utf8EncodeChar (c : Char) :
    decode .start (String.utf8EncodeChar c) = (.start, [c]) := by
  have hvalid : c.val.toNat < 0xd800 ∨ (0xdfff < c.val.toNat ∧ c.val.toNat < 0x110000) := c.valid
  have hback : Char.ofNat c.val.toNat = c := Char.ofNat_toNat c
  generalize hv : c.val.toNat = v at hvalid hback
  rw [String.utf8EncodeChar]
  simp only [hv]
  have hcont : ∀ n, (UInt8.ofNat (n % 0x40 + 0x80)).toNat = n % 0x40 + 0x80 :=
    fun n => toNat_ofNat (by omega)
  by_cases h1 : v ≤ 0x7f
  · rw [if_pos h1]
    have hstep : step .start (UInt8.ofNat v) = (.start, [c]) := by
      rw [step_start, toNat_ofNat (by omega), first, if_pos h1, hback]
    exact decode_singleton hstep
  rw [if_neg h1]
  by_cases h2 : v ≤ 0x7ff
  · rw [if_pos h2, Nat.mod_eq_of_lt (by omega : v / 64 < 0x20),
      decode_cons_of_step _ (step_first_two (by omega) (by omega))]
    refine decode_singleton ?_
    rw [step_last (by rw [hcont]; omega) (by rw [hcont]; omega), hcont]
    have hsum : v / 64 * 0x40 + (v % 0x40 + 0x80) % 0x40 = v := by omega
    rw [hsum, hback]
  rw [if_neg h2]
  by_cases h3 : v ≤ 0xffff
  · rw [if_pos h3, Nat.mod_eq_of_lt (by omega : v / 4096 < 0x10),
      decode_cons_of_step _ (step_first_three (by omega))]
    have hlow : (if v / 4096 = 0 then 0xa0 else 0x80) ≤ v / 64 % 0x40 + 0x80 := by
      split <;> omega
    have hhigh : v / 64 % 0x40 + 0x80 ≤ (if v / 4096 = 13 then 0x9f else 0xbf) := by
      split <;> omega
    rw [decode_cons_of_step _ (step_continuation (by decide) (by rwa [hcont]) (by rwa [hcont]))]
    refine decode_singleton ?_
    rw [hcont]
    show step ⟨1, 0x80, 0xbf, v / 4096 * 0x40 + (v / 64 % 0x40 + 0x80) % 0x40⟩ _ = _
    rw [step_last (by rw [hcont]; omega) (by rw [hcont]; omega), hcont]
    have hsum : (v / 4096 * 0x40 + (v / 64 % 0x40 + 0x80) % 0x40) * 0x40 +
        (v % 0x40 + 0x80) % 0x40 = v := by omega
    rw [hsum, hback]
  · rw [if_neg h3, Nat.mod_eq_of_lt (by omega : v / 262144 < 0x08),
      decode_cons_of_step _ (step_first_four (by omega))]
    have hlow : (if v / 262144 = 0 then 0x90 else 0x80) ≤ v / 4096 % 0x40 + 0x80 := by
      split <;> omega
    have hhigh : v / 4096 % 0x40 + 0x80 ≤ (if v / 262144 = 4 then 0x8f else 0xbf) := by
      split <;> omega
    rw [decode_cons_of_step _ (step_continuation (by decide) (by rwa [hcont]) (by rwa [hcont])),
      decode_cons_of_step _ (step_continuation (by decide) (by rw [hcont]; omega)
        (by rw [hcont]; omega))]
    refine decode_singleton ?_
    rw [hcont, hcont]
    show step ⟨1, 0x80, 0xbf, (v / 262144 * 0x40 + (v / 4096 % 0x40 + 0x80) % 0x40) * 0x40 +
      (v / 64 % 0x40 + 0x80) % 0x40⟩ _ = _
    rw [step_last (by rw [hcont]; omega) (by rw [hcont]; omega), hcont]
    have hsum : ((v / 262144 * 0x40 + (v / 4096 % 0x40 + 0x80) % 0x40) * 0x40 +
        (v / 64 % 0x40 + 0x80) % 0x40) * 0x40 + (v % 0x40 + 0x80) % 0x40 = v := by omega
    rw [hsum, hback]

theorem encode_cons (c : Char) (t : List Char) :
    encode (c :: t) = String.utf8EncodeChar c ++ encode t := rfl

theorem encode_append (t u : List Char) : encode (t ++ u) = encode t ++ encode u := by
  simp [encode]

/-- **A text.** -/
theorem decode_encode (t : List Char) : decode .start (encode t) = (.start, t) := by
  induction t with
  | nil => rfl
  | cons c t ih => rw [encode_cons, decode_append, decode_utf8EncodeChar, ih]; rfl

/-- The text that some bytes encode, if they encode one. -/
def decodeStrict (bs : List UInt8) : Option (List Char) :=
  let t := (decode .start bs).2
  if encode t = bs then some t else none

theorem decodeStrict_eq_some_iff {bs : List UInt8} {t : List Char} :
    decodeStrict bs = some t ↔ encode t = bs := by
  unfold decodeStrict
  constructor
  · intro h
    simp only [Option.ite_none_right_eq_some, Option.some.injEq] at h
    rw [← h.2, h.1]
  · intro h
    subst h
    simp [decode_encode]

end Utf8
