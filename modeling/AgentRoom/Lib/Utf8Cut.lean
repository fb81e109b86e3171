import AgentRoom.Lib.Longest
import AgentRoom.Lib.Utf8

set_option autoImplicit false

/-! # Cutting UTF-8 at a byte

The first `n` bytes of a text hold its longest prefix that fits, and then at most the start
of one more character (`take_encode`). A strict decoder gives that prefix when the cut falls
between characters and refuses otherwise; a decoder that ignores errors always gives it.
-/

namespace Utf8

/-! ## Decoding with errors ignored -/

/-- A byte that neither is nor starts a character. -/
def badFirst (n : Nat) : Bool := 0x7f < n && (first n).1.needed = 0

/-- How many errors one byte shows: an unfinished character before it, a byte that starts
nothing. -/
def errors (d : Decoder) (b : UInt8) : Nat :=
  if d.needed = 0 then (badFirst b.toNat).toNat
  else if d.lower ≤ b.toNat ∧ b.toNat ≤ d.upper then 0
  else 1 + (badFirst b.toNat).toNat

/-- One byte under `errors="ignore"`: what stood for the errors is left out. -/
def stepIgnore (d : Decoder) (b : UInt8) : List Char := (step d b).2.drop (errors d b)

/-- The characters that are left when every error is ignored, an unfinished character at the
end too. -/
def decodeIgnore (d : Decoder) : List UInt8 → List Char
  | [] => []
  | b :: bs => stepIgnore d b ++ decodeIgnore (step d b).1 bs

theorem decodeIgnore_append (d : Decoder) (bs cs : List UInt8) :
    decodeIgnore d (bs ++ cs) = decodeIgnore d bs ++ decodeIgnore (decode d bs).1 cs := by
  induction bs generalizing d with
  | nil => rfl
  | cons b bs ih => rw [List.cons_append, decodeIgnore, ih, decodeIgnore, decode, List.append_assoc]

theorem replacement_mem_first {n : Nat} (h : badFirst n = true) : replacement ∈ (first n).2 := by
  simp only [badFirst, Bool.and_eq_true, decide_eq_true_eq] at h
  obtain ⟨hhigh, hneeded⟩ := h
  unfold first at hneeded ⊢
  rw [if_neg (by omega)] at hneeded ⊢
  -- the three kinds of first byte all leave the decoder waiting
  split_ifs at hneeded ⊢
  exact List.mem_singleton_self _

/-- An error puts the replacement character into the output. -/
theorem errors_eq_zero {d : Decoder} {b : UInt8} (h : replacement ∉ (step d b).2) :
    errors d b = 0 := by
  have hbad : replacement ∉ (first b.toNat).2 → (badFirst b.toNat).toNat = 0 := by
    intro hno
    cases hb : badFirst b.toNat with
    | false => rfl
    | true => exact absurd (replacement_mem_first hb) hno
  unfold errors
  unfold step at h
  by_cases hneeded : d.needed = 0
  · simp only [if_pos hneeded] at h ⊢
    exact hbad h
  · simp only [if_neg hneeded] at h ⊢
    by_cases hrange : d.lower ≤ b.toNat ∧ b.toNat ≤ d.upper
    · rw [if_pos hrange]
    · rw [if_neg hrange] at h
      exact absurd List.mem_cons_self h

/-- Where nothing was replaced, nothing is ignored. -/
theorem decodeIgnore_of_clean {d : Decoder} {bs : List UInt8}
    (h : replacement ∉ (decode d bs).2) : decodeIgnore d bs = (decode d bs).2 := by
  induction bs generalizing d with
  | nil => rfl
  | cons b bs ih =>
      rw [decode, List.mem_append, not_or] at h
      rw [decodeIgnore, stepIgnore, errors_eq_zero h.1, List.drop_zero, ih h.2, decode]

/-- The bytes of one character. -/
theorem decodeIgnore_utf8EncodeChar (c : Char) :
    decodeIgnore .start (String.utf8EncodeChar c) = [c] := by
  by_cases hc : c = replacement
  · subst hc
    decide
  · have hdecode := decode_utf8EncodeChar c
    rw [decodeIgnore_of_clean (by rw [hdecode]; simpa using Ne.symm hc), hdecode]

/-! ## Where a cut falls -/

/-- A decoder that is between characters has just given one. -/
theorem step_output_ne_nil {d : Decoder} {b : UInt8} (h : (step d b).1.needed = 0) :
    (step d b).2 ≠ [] := by
  have hfirst : (first b.toNat).1.needed = 0 → (first b.toNat).2 ≠ [] := by
    unfold first
    split_ifs <;> simp [Decoder.start]
  unfold step at h ⊢
  by_cases hneeded : d.needed = 0
  · simp only [if_pos hneeded] at h ⊢
    exact hfirst h
  · simp only [if_neg hneeded] at h ⊢
    split_ifs at h ⊢ with hrange hone
    · simp
    · simp only at h
      omega
    · simp

theorem decode_output_ne_nil {bs : List UInt8} (hbs : bs ≠ []) :
    ∀ d : Decoder, (decode d bs).1.needed = 0 → (decode d bs).2 ≠ [] := by
  induction bs with
  | nil => exact absurd rfl hbs
  | cons b bs ih =>
      intro d h
      rw [decode] at h ⊢
      by_cases hrest : bs = []
      · subst hrest
        simpa [decode] using step_output_ne_nil h
      · intro hnil
        exact ih hrest _ h (List.append_eq_nil_iff.mp hnil).2

/-- The start of a character gives nothing yet. -/
theorem decode_of_incomplete {c : Char} {k : Nat} (hk : k < (String.utf8EncodeChar c).length) :
    (decode .start ((String.utf8EncodeChar c).take k)).2 = [] := by
  have hwhole := decode_utf8EncodeChar c
  rw [← List.take_append_drop k (String.utf8EncodeChar c), decode_append, Prod.mk.injEq] at hwhole
  obtain ⟨hend, hout⟩ := hwhole
  have hdrop : (String.utf8EncodeChar c).drop k ≠ [] := by
    rw [ne_eq, List.drop_eq_nil_iff]
    omega
  have hlater := decode_output_ne_nil hdrop _ (by rw [hend]; rfl)
  rcases List.append_eq_singleton_iff.mp hout with ⟨hfirst, -⟩ | ⟨-, hnone⟩
  · exact hfirst
  · exact absurd hnone hlater

/-- The longest prefix of a text that `n` bytes hold. -/
def fitting (n : Nat) : List Char → List Char
  | [] => []
  | c :: t =>
      if (String.utf8EncodeChar c).length ≤ n then
        c :: fitting (n - (String.utf8EncodeChar c).length) t
      else []

/-- No character stands across byte `n`: the bytes end there or a character starts there. -/
def CutsBetween (bs : List UInt8) (n : Nat) : Prop := ∀ b ∈ bs[n]?, b.IsUTF8FirstByte

instance (bs : List UInt8) (n : Nat) : Decidable (CutsBetween bs n) :=
  decidable_of_iff (bs[n]?.all fun b => decide b.IsUTF8FirstByte)
    (by cases h : bs[n]? <;> simp [CutsBetween, h])

/-- **The first `n` bytes of a text**: the prefix that fits, and less than one character, of
which there is nothing exactly when the cut falls between characters. -/
theorem take_encode (t : List Char) : ∀ n : Nat, ∃ (c : Char) (k : Nat),
    k < (String.utf8EncodeChar c).length ∧
    (encode t).take n = encode (fitting n t) ++ (String.utf8EncodeChar c).take k ∧
    (k = 0 ↔ CutsBetween (encode t) n) := by
  induction t with
  | nil =>
      intro n
      refine ⟨'a', 0, by decide, by simp [encode, fitting], ?_⟩
      simp [CutsBetween, encode]
  | cons c t ih =>
      intro n
      rw [encode_cons, fitting]
      by_cases hfit : (String.utf8EncodeChar c).length ≤ n
      · obtain ⟨c', k, hk, htake, hcut⟩ := ih (n - (String.utf8EncodeChar c).length)
        refine ⟨c', k, hk, ?_, ?_⟩
        · rw [if_pos hfit, List.take_append, List.take_of_length_le hfit, htake, encode_cons,
            List.append_assoc]
        · rw [hcut, CutsBetween, CutsBetween, List.getElem?_append_right hfit]
      · have hlt : n < (String.utf8EncodeChar c).length := not_le.mp hfit
        refine ⟨c, n, hlt, ?_, ?_⟩
        · rw [if_neg hfit, List.take_append_of_le_length hlt.le]
          rfl
        · rw [CutsBetween, List.getElem?_append_left hlt, List.getElem?_eq_getElem hlt]
          simp only [Option.mem_def, Option.some.injEq, forall_eq']
          exact UInt8.isUTF8FirstByte_getElem_utf8EncodeChar.symm

/-! ## What decoders make of a cut -/

theorem decodeIgnore_encode (t : List Char) : decodeIgnore .start (encode t) = t := by
  induction t with
  | nil => rfl
  | cons c t ih =>
      rw [encode_cons, decodeIgnore_append, decodeIgnore_utf8EncodeChar, decode_utf8EncodeChar, ih]
      rfl

/-- **Ignoring errors** gives the prefix that fits. -/
theorem decodeIgnore_take_encode (t : List Char) (n : Nat) :
    decodeIgnore .start ((encode t).take n) = fitting n t := by
  obtain ⟨c, k, hk, htake, -⟩ := take_encode t n
  have hpartial : decodeIgnore .start ((String.utf8EncodeChar c).take k) = [] := by
    rw [decodeIgnore_of_clean (by rw [decode_of_incomplete hk]; exact List.not_mem_nil),
      decode_of_incomplete hk]
  rw [htake, decodeIgnore_append, decodeIgnore_encode, decode_encode, hpartial, List.append_nil]

/-- **Strict decoding** gives the prefix that fits when the cut falls between characters, and
refuses otherwise. -/
theorem decodeStrict_take_encode (t : List Char) (n : Nat) :
    decodeStrict ((encode t).take n) =
      if CutsBetween (encode t) n then some (fitting n t) else none := by
  obtain ⟨c, k, hk, htake, hcut⟩ := take_encode t n
  split
  · next hbetween =>
      rw [decodeStrict_eq_some_iff, htake, hcut.mpr hbetween, List.take_zero, List.append_nil]
  · next hacross =>
      rw [Option.eq_none_iff_forall_ne_some]
      intro u hu
      rw [decodeStrict_eq_some_iff, htake] at hu
      have hdecoded := congrArg (fun bs => (decode .start bs).2) hu
      simp only [decode_append, decode_encode, decode_of_incomplete hk, List.append_nil] at hdecoded
      -- the strict text would be the prefix itself, so nothing of a character was left
      have hnone : (String.utf8EncodeChar c).take k = [] := by
        rw [hdecoded] at hu
        exact List.append_cancel_left (hu.symm.trans (List.append_nil _).symm)
      rw [List.take_eq_nil_iff] at hnone
      rcases hnone with hzero | hnil
      · exact hacross (hcut.mp hzero)
      · rw [hnil] at hk
        exact absurd hk (Nat.not_lt_zero k)

/-! ## The prefix that fits -/

theorem fitting_isPrefix (t : List Char) : ∀ n : Nat, fitting n t <+: t := by
  induction t with
  | nil => intro n; exact List.prefix_refl _
  | cons c t ih =>
      intro n
      rw [fitting]
      split
      · exact (List.prefix_cons_inj c).mpr (ih _)
      · exact List.nil_prefix

theorem length_encode_cons (c : Char) (t : List Char) :
    (encode (c :: t)).length = (String.utf8EncodeChar c).length + (encode t).length := by
  rw [encode_cons, List.length_append]

theorem length_encode_fitting_le (t : List Char) (n : Nat) :
    (encode (fitting n t)).length ≤ n := by
  obtain ⟨c, k, -, htake, -⟩ := take_encode t n
  have hlen := congrArg List.length htake
  rw [List.length_append, List.length_take] at hlen
  omega

theorem prefix_fitting {p : List Char} : ∀ {t : List Char} {n : Nat}, p <+: t →
    (encode p).length ≤ n → p <+: fitting n t := by
  induction p with
  | nil => intro t n _ _; exact List.nil_prefix
  | cons c p ih =>
      intro t n hpre hlen
      obtain ⟨rest, rfl⟩ := hpre
      rw [length_encode_cons] at hlen
      rw [List.cons_append, fitting, if_pos (by omega)]
      exact (List.prefix_cons_inj c).mpr (ih (List.prefix_append p rest) (by omega))

/-- **Of the prefixes that `n` bytes hold, the longest.** -/
theorem isLongest_fitting (t : List Char) (n : Nat) :
    Longest.IsLongest (fun p => p <+: t ∧ (encode p).length ≤ n) (fitting n t) :=
  ⟨⟨fitting_isPrefix t n, length_encode_fitting_le t n⟩,
    fun _ hp => (prefix_fitting hp.1 hp.2).length_le⟩

theorem fitting_of_length_le {t : List Char} {n : Nat} (h : (encode t).length ≤ n) :
    fitting n t = t :=
  (fitting_isPrefix t n).eq_of_length_le (prefix_fitting (List.prefix_refl t) h).length_le

/-- The prefix fills the `n` bytes exactly when the cut falls between characters. -/
theorem length_encode_fitting_eq_iff {t : List Char} {n : Nat} (h : n ≤ (encode t).length) :
    (encode (fitting n t)).length = n ↔ CutsBetween (encode t) n := by
  obtain ⟨c, k, hk, htake, hcut⟩ := take_encode t n
  have hlen := congrArg List.length htake
  rw [List.length_append, List.length_take, List.length_take] at hlen
  rw [← hcut]
  omega

end Utf8
