import AgentRoom.Lib.Utf8

set_option autoImplicit false

/-! # Python texts

What a tool prints or a request carries can be any Python text, so a text here is a list of code
points, lone surrogates included. `encode` has no bytes for a surrogate: it raises, or under
`errors="replace"` writes a question mark.
-/

namespace AgentRoom

abbrev CodePoint := Fin 0x110000

/-- A `str`. -/
abbrev PyStr := List CodePoint

namespace PyStr

def codePoint (c : Char) : CodePoint :=
  ⟨c.val.toNat, by
    have hvalid : c.val.toNat < 0xd800 ∨ (0xdfff < c.val.toNat ∧ c.val.toNat < 0x110000) :=
      c.valid
    omega⟩

/-- A text of the program's own. -/
def lit (s : String) : PyStr := s.toList.map codePoint

/-- `str(n)`. -/
def ofInt (n : Int) : PyStr := lit (toString n)

/-- `sep.join(parts)`. -/
def join (sep : PyStr) (parts : List PyStr) : PyStr := (parts.intersperse sep).flatten

/-- `s.rfind(c)` for a single code point: its last index, or `-1`. -/
def rfind (c : CodePoint) (s : PyStr) : Int :=
  match s.reverse.findIdx? (fun d => d = c) with
  | some i => s.length - 1 - i
  | none => -1

def isSurrogate (c : CodePoint) : Bool := 0xd800 ≤ c.val && c.val ≤ 0xdfff

/-- The character that a code point is encoded as under `errors="replace"`. -/
def encodable (c : CodePoint) : Char := if isSurrogate c then '?' else Char.ofNat c.val

/-- `s.encode("utf-8", errors="replace")`. -/
def encodeReplace (s : PyStr) : List UInt8 := Utf8.encode (s.map encodable)

/-- `s.encode("utf-8")`; a surrogate raises `UnicodeEncodeError`. -/
def encodeStrict (s : PyStr) : Option (List UInt8) :=
  if s.any isSurrogate then none else some (encodeReplace s)

theorem codePoint_injective : Function.Injective codePoint := by
  intro c d h
  have hnat : c.val.toNat = d.val.toNat :=
    congrArg (fun x : CodePoint => x.val) h
  exact Char.ext (UInt32.toNat_inj.mp hnat)

/-- A code point with every surrogate read as a question mark. -/
def asQuestionMark (c : CodePoint) : CodePoint := if isSurrogate c then codePoint '?' else c

theorem codePoint_encodable (c : CodePoint) : codePoint (encodable c) = asQuestionMark c := by
  unfold encodable asQuestionMark
  by_cases hsurrogate : isSurrogate c = true
  · rw [if_pos hsurrogate, if_pos hsurrogate]
  · rw [if_neg hsurrogate, if_neg hsurrogate]
    have hrange : ¬ (0xd800 ≤ c.val ∧ c.val ≤ 0xdfff) := by
      simpa [isSurrogate] using hsurrogate
    have hlt := c.isLt
    have hvalid : Nat.isValidChar c.val := by
      unfold Nat.isValidChar
      omega
    apply Fin.ext
    show (Char.ofNat c.val).toNat = c.val
    rw [Char.ofNat, dif_pos hvalid]
    rfl

/-- Two texts are encoded alike iff they agree once surrogates are read as question marks. -/
theorem encodeReplace_eq_iff {s t : PyStr} :
    encodeReplace s = encodeReplace t ↔ s.map asQuestionMark = t.map asQuestionMark := by
  have hmap : ∀ u : PyStr, u.map asQuestionMark = (u.map encodable).map codePoint := by
    intro u
    rw [List.map_map]
    exact List.map_congr_left fun c _ => (codePoint_encodable c).symm
  constructor
  · intro h
    have hdecoded := congrArg (fun bytes => (Utf8.decode .start bytes).2) h
    simp only [encodeReplace, Utf8.decode_encode] at hdecoded
    rw [hmap, hmap, hdecoded]
  · intro h
    rw [hmap, hmap] at h
    rw [encodeReplace, encodeReplace, codePoint_injective.list_map h]

/-- A text with an encoding has no surrogate to replace. -/
theorem encodeStrict_eq_some {s : PyStr} {bytes : List UInt8} (h : encodeStrict s = some bytes) :
    encodeReplace s = bytes ∧ s.map asQuestionMark = s := by
  unfold encodeStrict at h
  split at h
  · cases h
  · rename_i hany
    rw [Bool.not_eq_true, List.any_eq_false] at hany
    refine ⟨Option.some.inj h, ?_⟩
    have hkeep : ∀ c ∈ s, asQuestionMark c = id c := fun c hc => if_neg (hany c hc)
    rw [List.map_congr_left hkeep, List.map_id]

/-- A text is told by its bytes. -/
theorem encodeStrict_injective {s t : PyStr} {bytes : List UInt8}
    (hs : encodeStrict s = some bytes) (ht : encodeStrict t = some bytes) : s = t := by
  obtain ⟨hsbytes, hsmap⟩ := encodeStrict_eq_some hs
  obtain ⟨htbytes, htmap⟩ := encodeStrict_eq_some ht
  calc s = s.map asQuestionMark := hsmap.symm
    _ = t.map asQuestionMark := encodeReplace_eq_iff.mp (hsbytes.trans htbytes.symm)
    _ = t := htmap

theorem isSurrogate_codePoint (c : Char) : isSurrogate (codePoint c) = false := by
  have hvalid : c.val.toNat < 0xd800 ∨ (0xdfff < c.val.toNat ∧ c.val.toNat < 0x110000) := c.valid
  have hrange : ¬ (0xd800 ≤ c.val.toNat ∧ c.val.toNat ≤ 0xdfff) := by omega
  rw [← Bool.not_eq_true, isSurrogate, Bool.and_eq_true, decide_eq_true_iff, decide_eq_true_iff]
  exact hrange

theorem encodable_codePoint (c : Char) : encodable (codePoint c) = c := by
  rw [encodable, isSurrogate_codePoint, if_neg Bool.false_ne_true]
  exact Char.ofNat_toNat c

/-- A text of characters has its UTF-8 encoding. -/
theorem encodeStrict_map_codePoint (t : List Char) :
    encodeStrict (t.map codePoint) = some (Utf8.encode t) := by
  have hnone : (t.map codePoint).any isSurrogate = false := by
    rw [List.any_eq_false]
    intro c hc
    obtain ⟨d, -, rfl⟩ := List.mem_map.mp hc
    rw [isSurrogate_codePoint]
    exact Bool.false_ne_true
  have hback : (t.map codePoint).map encodable = t := by
    rw [List.map_map]
    exact (List.map_congr_left fun c _ => encodable_codePoint c).trans (List.map_id t)
  rw [encodeStrict, hnone, if_neg Bool.false_ne_true, encodeReplace, hback]

/-- Only texts of characters have one. -/
theorem encodeStrict_eq_some_iff {s : PyStr} {bytes : List UInt8} :
    encodeStrict s = some bytes ↔ ∃ t : List Char, s = t.map codePoint ∧ Utf8.encode t = bytes := by
  constructor
  · intro h
    obtain ⟨hbytes, hmap⟩ := encodeStrict_eq_some h
    refine ⟨s.map encodable, ?_, hbytes⟩
    rw [List.map_map]
    exact hmap.symm.trans (List.map_congr_left fun c _ => (codePoint_encodable c).symm)
  · rintro ⟨t, rfl, rfl⟩
    exact encodeStrict_map_codePoint t

theorem lit_injective : Function.Injective lit := by
  intro s t h
  exact String.toList_injective (codePoint_injective.list_map h)

/-- A count is told by its digits. -/
theorem ofInt_natCast_injective {m n : Nat} (h : ofInt m = ofInt n) : m = n := by
  have hrepr : m.repr = n.repr := lit_injective h
  have hdigits := congrArg String.toList hrepr
  rw [Nat.toList_repr, Nat.toList_repr] at hdigits
  rw [← Nat.ofDigitChars_ten_toDigits (n := m), hdigits, Nat.ofDigitChars_ten_toDigits]

end PyStr

end AgentRoom
