import AgentRoom.Web.Api
import AgentRoom.Web.Wire

set_option autoImplicit false

/-! # Truncated streams

At the end of a stream the parser reads what is left as a block. After a cut this is the part of
a block that arrived, so the frames of a truncated stream are a prefix of the frames of the whole
stream exactly when that part has no data field or reads to the same fields as the next event of
the whole stream (`truncated_prefix_iff`).
-/

namespace AgentRoom.Web

/-! ## Frames and fields -/

/-- A frame determines the fields it was made of. -/
theorem frame_inj {fields fields' : SseFields} (h : fields.frame = fields'.frame)
    (hne : fields.data ≠ []) (hvalues : ∀ value ∈ fields.data, '\n' ∉ value)
    (hvalues' : ∀ value ∈ fields'.data, '\n' ∉ value) : fields = fields' := by
  have hne' : fields'.data ≠ [] := by
    intro hnil
    rw [SseFields.frame, SseFields.frame, if_neg hne, if_pos hnil] at h
    cases h
  rw [SseFields.frame, SseFields.frame, if_neg hne, if_neg hne', Option.some_inj,
    SseFrame.mk.injEq] at h
  obtain ⟨hevent, hdata, hid⟩ := h
  have hsplit := congrArg (List.splitOn '\n') hdata
  rw [List.splitOn_intercalate '\n' hvalues hne, List.splitOn_intercalate '\n' hvalues' hne']
    at hsplit
  cases fields
  cases fields'
  simp_all

/-- The first block of a text that has data. -/
def nextEvent (t : Text) : Option SseFields :=
  (((cutBlocks t).1 ++ [(cutBlocks t).2]).map blockFields).find? (fun fields => !fields.data.isEmpty)

theorem framesOf_eq_filterMap (t : Text) :
    framesOf t = ((cutBlocks t).1 ++ [(cutBlocks t).2]).filterMap parseSseBlock := by
  rw [framesOf, List.filterMap_append]
  cases hlast : parseSseBlock (cutBlocks t).2 <;> simp [hlast]

theorem head?_framesOf (t : Text) : (framesOf t).head? = (nextEvent t).bind SseFields.frame := by
  rw [framesOf_eq_filterMap, nextEvent]
  induction (cutBlocks t).1 ++ [(cutBlocks t).2] with
  | nil => rfl
  | cons block blocks ih =>
      rw [List.filterMap_cons, List.map_cons, List.find?_cons, parseSseBlock_eq]
      by_cases hnil : (blockFields block).data = []
      · have hframe : (blockFields block).frame = none := by rw [SseFields.frame, if_pos hnil]
        rw [hframe]
        simpa [hnil] using ih
      · have hframe : (blockFields block).frame.isSome = true := by simp [SseFields.frame, hnil]
        obtain ⟨frame, hsome⟩ := Option.isSome_iff_exists.mp hframe
        have hkeep : (!(blockFields block).data.isEmpty) = true := by simpa using hnil
        rw [hsome, hkeep]
        exact hsome.symm

/-! ## Cuts -/

/-- The decoder after the first `k` bytes of a text, and what it gave for them. -/
def decodedAt (t : Text) (k : Nat) : Utf8.Decoder × Text :=
  Utf8.decode .start ((Utf8.encode t).take k)

/-- The characters of a text that arrive whole in the first `k` bytes. -/
def arrived (t : Text) (k : Nat) : Text := stripBom false (decodedAt t k).2

/-- What arrives of the block that the cut leaves unfinished. -/
def unfinished (t : Text) (k : Nat) : Text := (cutBlocks (arrived t k)).2

/-- The stream from the start of that block on. -/
def fromUnfinished (t : Text) (k : Nat) : Text :=
  unfinished t k ++ (stripBom false t).drop (arrived t k).length

/-- The fields of the unfinished block; a character that is cut in two counts as U+FFFD. -/
def keptFields (t : Text) (k : Nat) : SseFields :=
  blockFields (unfinished t k ++ Utf8.flush (decodedAt t k).1)

/-- The cut keeps no data of a block, or all that the next event needs. -/
def CutHarmless (t : Text) (k : Nat) : Prop :=
  (keptFields t k).data = [] ∨ nextEvent (fromUnfinished t k) = some (keptFields t k)

instance (t : Text) (k : Nat) : Decidable (CutHarmless t k) :=
  inferInstanceAs (Decidable (_ ∨ _))

theorem prefix_decodedAt (t : Text) (k : Nat) : (decodedAt t k).2 <+: t := by
  have h := congrArg Prod.snd (Utf8.decode_encode t)
  rw [← List.take_append_drop k (Utf8.encode t), Utf8.decode_append] at h
  exact ⟨_, h⟩

theorem prefix_stripBom {u t : Text} (h : u <+: t) : stripBom false u <+: stripBom false t := by
  obtain ⟨v, rfl⟩ := h
  rw [stripBom_append]
  exact List.prefix_append _ _

theorem arrived_append (t : Text) (k : Nat) :
    arrived t k ++ (stripBom false t).drop (arrived t k).length = stripBom false t :=
  (List.prefix_iff_eq_append.mp (prefix_stripBom (prefix_decodedAt t k)))

theorem flush_cases (d : Utf8.Decoder) : Utf8.flush d = [] ∨ Utf8.flush d = ['\ufffd'] := by
  rw [Utf8.flush]
  split
  · exact Or.inl rfl
  · exact Or.inr rfl

/-- What the decoder makes of the first `k` bytes in all. -/
theorem stripBom_decodedAt (t : Text) (k : Nat) :
    stripBom false ((decodedAt t k).2 ++ Utf8.flush (decodedAt t k).1) =
      arrived t k ++ Utf8.flush (decodedAt t k).1 := by
  rw [stripBom_append]
  refine congrArg (arrived t k ++ ·) (stripBom_of_head (Or.inr ?_))
  rcases flush_cases (decodedAt t k).1 with h | h <;> simp [h]

theorem normalized_of_not_mem (cut : Nat → Bool) {t : Text} (h : '\r' ∉ t) :
    normalized cut 0 t = t := by
  have := normalized_append_of_not_mem cut 0 h []
  rwa [List.append_nil, normalized, List.append_nil] at this

/-- Without carriage returns the chunks do not matter. -/
theorem parseSseStream_truncated {t : Text} (ht : '\r' ∉ t) {k : Nat}
    {chunks : List (List UInt8)} (h : chunks.flatten = (Utf8.encode t).take k) :
    parseSseStream chunks = framesOf (arrived t k ++ Utf8.flush (decodedAt t k).1) := by
  have hflatten := textsOf_flatten {} chunks
  rw [h] at hflatten
  have hall : (textsOf {} chunks).flatten = arrived t k ++ Utf8.flush (decodedAt t k).1 :=
    hflatten.trans (stripBom_decodedAt t k)
  have harrived : '\r' ∉ arrived t k := fun hmem => by
    have hstrip : '\r' ∈ stripBom false t :=
      (prefix_stripBom (prefix_decodedAt t k)).subset hmem
    rw [stripBom] at hstrip
    split at hstrip
    · exact ht (List.mem_of_mem_tail hstrip)
    · exact ht hstrip
  have hcr : '\r' ∉ arrived t k ++ Utf8.flush (decodedAt t k).1 := by
    rw [List.mem_append, not_or]
    refine ⟨harrived, ?_⟩
    rcases flush_cases (decodedAt t k).1 with h | h <;> simp [h]
  rw [parseSseStream_eq, replaceCrlf_flatten, hall, normalized_of_not_mem _ hcr]

/-- The whole stream. -/
theorem parseSseStream_whole {t : Text} (ht : '\r' ∉ t) {chunks : List (List UInt8)}
    (h : chunks.flatten = Utf8.encode t) : parseSseStream chunks = framesOf (stripBom false t) := by
  have hall : decodedAt t (Utf8.encode t).length = (.start, t) := by
    rw [decodedAt, List.take_length, Utf8.decode_encode]
  have hflush : Utf8.flush Utf8.Decoder.start = [] := rfl
  rw [parseSseStream_truncated ht (k := (Utf8.encode t).length) (by rw [h, List.take_length]),
    arrived, hall, hflush, List.append_nil]

/-- One more character ends no block. -/
theorem cutBlocks_append_singleton {t : Text} {c : Char} (hc : c ≠ '\n')
    (h : (cutBlocks t).1 = []) : (cutBlocks (t ++ [c])).1 = [] := by
  induction t with
  | nil =>
      rw [List.nil_append, cutBlocks_cons (fun hnl => absurd hnl hc)]
      rfl
  | cons x t ih =>
      have hhead : x = '\n' → t.head? ≠ some '\n' := by
        rintro rfl hhead
        obtain ⟨t, rfl⟩ := List.head?_eq_some_iff.mp hhead
        simp [cutBlocks] at h
      have hhead' : x = '\n' → (t ++ [c]).head? ≠ some '\n' := by
        intro hx
        cases t with
        | nil => simpa using hc
        | cons y t => exact hhead hx
      rw [cutBlocks_cons hhead] at h
      have htail : (cutBlocks t).1 = [] := by
        cases hcut : cutBlocks t with
        | mk blocks buffer =>
            cases blocks with
            | nil => rfl
            | cons block blocks => simp [hcut] at h
      have hnext := ih htail
      rw [List.cons_append, cutBlocks_cons hhead']
      cases hcut : cutBlocks (t ++ [c]) with
      | mk blocks buffer =>
          rw [hcut] at hnext
          cases blocks with
          | nil => rfl
          | cons block blocks => cases hnext

/-- What is left at a cut is a single block. -/
theorem framesOf_kept (t : Text) (k : Nat) :
    framesOf (unfinished t k ++ Utf8.flush (decodedAt t k).1) =
      (keptFields t k).frame.toList := by
  have hbuffer : (cutBlocks (unfinished t k)).1 = [] := cutBlocks_buffer _
  have hcut : (cutBlocks (unfinished t k ++ Utf8.flush (decodedAt t k).1)).1 = [] := by
    rcases flush_cases (decodedAt t k).1 with h | h
    · rwa [h, List.append_nil]
    · rw [h]
      exact cutBlocks_append_singleton (by decide) hbuffer
  rw [framesOf, hcut, cutBlocks_eq_of_nil hcut, parseSseBlock_eq, keptFields]
  rfl

theorem toList_prefix_iff {fields : SseFields} {frames : List SseFrame} :
    fields.frame.toList <+: frames ↔ fields.data = [] ∨ frames.head? = fields.frame := by
  rw [SseFields.frame]
  split
  · rename_i hnil
    simp [hnil]
  · rename_i hne
    cases frames with
    | nil => simp [hne]
    | cons frame frames => simp [hne, List.cons_prefix_cons, eq_comm]

/-- The frames of a truncated stream and of the whole one, from the unfinished block on. -/
theorem framesOf_cut (t : Text) (k : Nat) :
    ∃ frames,
      framesOf (arrived t k ++ Utf8.flush (decodedAt t k).1) =
        frames ++ (keptFields t k).frame.toList ∧
      framesOf (stripBom false t) = frames ++ framesOf (fromUnfinished t k) := by
  refine ⟨(cutBlocks (arrived t k)).1.filterMap parseSseBlock, ?_, ?_⟩
  · rw [framesOf_append, ← framesOf_kept]
    rfl
  · rw [← arrived_append t k, framesOf_append]
    rfl

/-- The next frame is the kept one exactly when their fields are the same. -/
theorem head?_fromUnfinished_iff (t : Text) (k : Nat) (hne : (keptFields t k).data ≠ []) :
    (framesOf (fromUnfinished t k)).head? = (keptFields t k).frame ↔
      nextEvent (fromUnfinished t k) = some (keptFields t k) := by
  have hsome : (keptFields t k).frame.isSome = true := (by simp [SseFields.frame, hne])
  rw [head?_framesOf]
  constructor
  · intro h
    cases hnext : nextEvent (fromUnfinished t k) with
    | none =>
        rw [hnext] at h
        rw [← h] at hsome
        cases hsome
    | some fields =>
        rw [hnext] at h
        have hmem := List.mem_of_find?_eq_some hnext
        obtain ⟨block, -, rfl⟩ := List.mem_map.mp hmem
        have hsame : (keptFields t k).frame = (blockFields block).frame := h.symm
        rw [frame_inj hsame hne (not_mem_blockFields _) (not_mem_blockFields _)]
  · intro h
    rw [h]
    rfl

/-- **A truncated stream yields a prefix of the frames exactly when the cut is harmless**, and
the cursor is then the one after as many frames of the whole stream. -/
theorem truncated_prefix_iff (t : Text) (ht : '\r' ∉ t) (k : Nat)
    (received whole : List (List UInt8)) (hreceived : received.flatten = (Utf8.encode t).take k)
    (hwhole : whole.flatten = Utf8.encode t) :
    (parseSseStream received <+: parseSseStream whole ∧
      ∀ (number : Text → Option Int) (lastId : Int),
        cursorAfter number lastId (parseSseStream received) =
          cursorAfter number lastId
            ((parseSseStream whole).take (parseSseStream received).length)) ↔
      CutHarmless t k := by
  obtain ⟨frames, hkept, hrest⟩ := framesOf_cut t k
  have hfront : parseSseStream received <+: parseSseStream whole ↔ CutHarmless t k := by
    rw [parseSseStream_truncated ht hreceived, parseSseStream_whole ht hwhole, hkept, hrest,
      List.prefix_append_right_inj, toList_prefix_iff, CutHarmless]
    by_cases hnil : (keptFields t k).data = []
    · simp [hnil]
    · rw [head?_fromUnfinished_iff t k hnil]
  constructor
  · exact fun h => hfront.mp h.1
  · intro h
    have hpre := hfront.mpr h
    refine ⟨hpre, fun number lastId => ?_⟩
    rw [← List.prefix_iff_eq_take.mp hpre]

/-- A stream of one frame: `id: 1`, `data: [7]` and an empty line. -/
def oneFrame : Text :=
  joinLines .lf [fieldLine ['i', 'd'] ['1'], fieldLine ['d', 'a', 't', 'a'] ['[', '7', ']'], []]

/-- A cut inside the name of the data field: nothing is left of the frame. -/
theorem truncated_data_name :
    parseSseStream [(Utf8.encode oneFrame).take 8] <+: parseSseStream [Utf8.encode oneFrame] ∧
      ∀ (number : Text → Option Int) (lastId : Int),
        cursorAfter number lastId (parseSseStream [(Utf8.encode oneFrame).take 8]) =
          cursorAfter number lastId ((parseSseStream [Utf8.encode oneFrame]).take
            (parseSseStream [(Utf8.encode oneFrame).take 8]).length) :=
  (truncated_prefix_iff oneFrame (by decide) 8 [(Utf8.encode oneFrame).take 8]
    [Utf8.encode oneFrame] (by simp) (by simp)).mpr (by decide +kernel)

/-- A cut inside the data: a frame that was never sent, and its id is the new cursor. -/
theorem truncated_data_value :
    let received := parseSseStream [(Utf8.encode oneFrame).take 13]
    ¬ received <+: parseSseStream [Utf8.encode oneFrame] ∧
      received = [⟨none, ['['], some ['1']⟩] ∧
      cursorAfter (fun id => if id = ['1'] then some 1 else none) (-1) received = 1 := by
  decide +kernel

end AgentRoom.Web
