import AgentRoom.Tools.Fs

set_option autoImplicit false

/-! # What a truncated tool output announces

The head of a truncated text is cut on bytes and decoded leniently, the number of missing
bytes is taken from the byte count alone. The two agree when the cut falls between
characters.
-/

namespace AgentRoom.Fs

open PyStr Utf8 Longest

/-- The longest prefix of a text whose UTF-8 form fits. -/
def IsHead (text : PyStr) (maxBytes : Nat) (head : PyStr) : Prop :=
  IsLongest (fun p => p <+: text ∧ ∃ bytes, encodeStrict p = some bytes ∧
    bytes.length ≤ maxBytes) head

theorem isHead_fitting (t : List Char) (n : Nat) :
    IsHead (t.map codePoint) n ((fitting n t).map codePoint) := by
  constructor
  · exact ⟨(fitting_isPrefix t n).map codePoint, _, encodeStrict_map_codePoint _,
      length_encode_fitting_le t n⟩
  · rintro p ⟨hpre, bytes, hbytes, hle⟩
    obtain ⟨u, rfl, rfl⟩ := encodeStrict_eq_some_iff.mp hbytes
    have hu : u <+: t := by
      rw [List.prefix_iff_eq_take] at hpre ⊢
      rw [List.length_map, ← List.map_take] at hpre
      exact codePoint_injective.list_map hpre
    rw [List.length_map, List.length_map]
    exact (prefix_fitting hu hle).length_le

/-- What `_truncate` makes of a long text. -/
theorem truncate_of_long {t : List Char} {n : Nat} (hlong : n < (encode t).length) :
    truncate (t.map codePoint) n =
      some ((fitting n t).map codePoint ++ announcement ((encode t).length - n)) := by
  have hslice : sliceTo n (encode t) = (encode t).take n := if_pos (Int.natCast_nonneg n)
  have hcut : ¬ ((encode t).length : Int) ≤ n := by omega
  unfold truncate
  rw [encodeStrict_map_codePoint]
  simp only [Option.bind_eq_bind, Option.bind_some, if_neg hcut, hslice, decodeIgnore_take_encode]
  rfl

/-- A text that fits comes back as it is. -/
theorem truncate_of_short {t : List Char} {n : Nat} (hshort : (encode t).length ≤ n) :
    truncate (t.map codePoint) n = some (t.map codePoint) := by
  have hfits : ((encode t).length : Int) ≤ n := by omega
  unfold truncate
  rw [encodeStrict_map_codePoint]
  simp only [Option.bind_eq_bind, Option.bind_some, if_pos hfits]
  rfl

theorem announcement_injective {head : PyStr} {m n : Nat}
    (h : head ++ announcement m = head ++ announcement n) : m = n := by
  have hnumbers := List.append_cancel_left h
  unfold announcement at hnumbers
  exact ofInt_natCast_injective (List.append_cancel_left (List.append_cancel_right hnumbers))

/-- **When a truncated output is accounted exactly.** The output is the longest prefix that
fits, followed by the number of bytes of the text which that prefix lacks, if and only if no
character stands across the cut. -/
theorem truncate_accounts_exactly_iff {text : PyStr} {encoded : List UInt8} {maxBytes : Nat}
    (henc : encodeStrict text = some encoded) (hlong : maxBytes < encoded.length) :
    (∃ head kept, IsHead text maxBytes head ∧ encodeStrict head = some kept ∧
      truncate text maxBytes =
        some (head ++ announcement ((encoded.length - kept.length : Nat) : Int))) ↔
      CutsBetween encoded maxBytes := by
  obtain ⟨t, rfl, rfl⟩ := encodeStrict_eq_some_iff.mp henc
  have hcount : (((encode t).length - maxBytes : Nat) : Int) = (encode t).length - maxBytes := by
    omega
  rw [← length_encode_fitting_eq_iff hlong.le, truncate_of_long hlong, ← hcount]
  have hkept := encodeStrict_map_codePoint (fitting maxBytes t)
  constructor
  · rintro ⟨head, kept, hhead, henchead, hout⟩
    have hsame : head = (fitting maxBytes t).map codePoint :=
      hhead.eq_of_prefix (isHead_fitting t maxBytes) (fun _ hp => hp.1)
    subst hsame
    rw [hkept, Option.some.injEq] at henchead
    subst henchead
    have hnumber := announcement_injective (Option.some.inj hout)
    have hfit := length_encode_fitting_le t maxBytes
    omega
  · intro hfull
    refine ⟨_, _, isHead_fitting t maxBytes, hkept, ?_⟩
    rw [hfull]

/-- Two letters of two bytes each, cut after the first. -/
theorem truncate_accounts_exactly_two :
    ∃ head kept, IsHead (lit "éé") 2 head ∧ encodeStrict head = some kept ∧
      truncate (lit "éé") 2 = some (head ++ announcement ((4 - kept.length : Nat) : Int)) := by
  have henc : encodeStrict (lit "éé") = some [0xc3, 0xa9, 0xc3, 0xa9] := by decide
  exact (truncate_accounts_exactly_iff henc (show 2 < 4 by decide)).mpr (by decide)

/-- Cut within the second letter, the output keeps one letter of two bytes and announces one
missing byte of the two. -/
theorem truncate_miscounts_split_letter :
    truncate (lit "éé") 3 = some (lit "é" ++ announcement 1) ∧
    ¬ ∃ head kept, IsHead (lit "éé") 3 head ∧ encodeStrict head = some kept ∧
      truncate (lit "éé") 3 = some (head ++ announcement ((4 - kept.length : Nat) : Int)) := by
  have hout : truncate (lit "éé") 3 = some (lit "é" ++ announcement 1) := by decide
  refine ⟨hout, ?_⟩
  rintro ⟨head, kept, hhead, hkept, hsame⟩
  have hhead' : head = lit "é" :=
    hhead.eq_of_prefix (isHead_fitting ['é', 'é'] 3) (fun _ hp => hp.1)
  subst hhead'
  have hkept' : encodeStrict (lit "é") = some [0xc3, 0xa9] := by decide
  rw [hkept', Option.some.injEq] at hkept
  subst hkept
  rw [hout, Option.some.injEq] at hsame
  exact absurd (announcement_injective hsame) (by decide)

/-- **The tool never fails on a text.** What `read_text` reads has an encoding, so for a file
it can read the tool returns the text or its head. -/
theorem readTextTool_run_eq_ok {t : Posix.FileTree} {root : Posix.Path} {path : String}
    {target : Posix.Location} {raw : List UInt8} (maxBytes : Nat)
    (hresolve : resolveWithinRoot t root path = .ok target)
    (hstat : t.stat target = .ok (some (.file raw))) (hread : t.refuses .read target = false) :
    ∃ text, truncate (readText raw) maxBytes = some text ∧
      ReadTextTool.run t root maxBytes path = .ok text := by
  obtain ⟨text, htext⟩ : ∃ text, truncate (readText raw) maxBytes = some text := by
    rcases lt_or_ge maxBytes (encode (universalNewlines
      ((decode .start raw).2 ++ flush (decode .start raw).1))).length with hlong | hshort
    · exact ⟨_, truncate_of_long hlong⟩
    · exact ⟨_, truncate_of_short hshort⟩
  refine ⟨text, htext, ?_⟩
  simp only [ReadTextTool.run, hresolve, hstat, hread, htext, Bool.false_eq_true, if_false]

end AgentRoom.Fs
