import AgentRoom.Web.Wire

set_option autoImplicit false

/-! # Which chunkings the parser gets right

A chunk that ends between the carriage return and the line feed of a pair leaves the carriage
return in the text: at the end of a field it becomes part of the value, and an empty line with a
carriage return in it is no block boundary. The frames are exactly those that were sent when no
field line is cut so and every frame is completed, by an empty line that is not cut or by the end
of the stream, before the next one starts (`parse_encoded_iff`).
-/

namespace AgentRoom.Web

section

variable (eol : LineEnding) (chunks : List (List UInt8))

/-- No chunk ends inside the line ending of one of the lines. -/
def linesWhole : Nat → List Text → Prop
  | _, [] => True
  | off, line :: lines =>
      lineCut eol chunks off line = false ∧ linesWhole (afterLine eol off line) lines

/-- The byte offset after some lines. -/
def afterLines (off : Nat) (lines : List Text) : Nat := lines.foldl (afterLine eol) off

/-- The chunk ends do no harm to the blocks from the byte offset `off` on, where `opened` says
that a frame before them is still to be completed. -/
def Harmless : Nat → Bool → List WireBlock → Prop
  | _, _, [] => True
  | off, opened, .frame f :: blocks =>
      opened = false ∧ linesWhole eol chunks off f.lines ∧
        Harmless (afterLine eol (afterLines eol off f.lines) [])
          (lineCut eol chunks (afterLines eol off f.lines) []) blocks
  | off, opened, .comment c :: blocks =>
      Harmless (afterLine eol (afterLines eol off (WireBlock.comment c).lines) [])
        (opened && lineCut eol chunks (afterLines eol off (WireBlock.comment c).lines) []) blocks

/-! ## What is seen of a field -/

/-- The values of some fields of one name, as the parser sees them. -/
def seenValues (name : Text) : Nat → List Text → List Text
  | _, [] => []
  | off, value :: values =>
      (value ++ if lineCut eol chunks off (fieldLine name value) then ['\r'] else []) ::
        seenValues name (afterLine eol off (fieldLine name value)) values

theorem seenLines_append (off : Nat) (lines more : List Text) :
    seenLines eol chunks off (lines ++ more) =
      seenLines eol chunks off lines ++ seenLines eol chunks (afterLines eol off lines) more := by
  induction lines generalizing off with
  | nil => rfl
  | cons line lines ih =>
      rw [List.cons_append, seenLines, seenLines, ih, List.cons_append]
      rfl

theorem linesWhole_append (off : Nat) (lines more : List Text) :
    linesWhole eol chunks off (lines ++ more) ↔
      linesWhole eol chunks off lines ∧ linesWhole eol chunks (afterLines eol off lines) more := by
  induction lines generalizing off with
  | nil => simp [linesWhole, afterLines]
  | cons line lines ih =>
      rw [List.cons_append, linesWhole, linesWhole, ih, and_assoc]
      rfl

theorem seenLines_fields (name : Text) (off : Nat) (values : List Text) :
    seenLines eol chunks off (values.map (fieldLine name)) =
      (seenValues eol chunks name off values).map (fieldLine name) := by
  induction values generalizing off with
  | nil => rfl
  | cons value values ih =>
      rw [List.map_cons, seenLines, ih, seenValues, List.map_cons, fieldLine, fieldLine,
        List.append_assoc]
      rfl

theorem length_seenValues (name : Text) (off : Nat) (values : List Text) :
    (seenValues eol chunks name off values).length = values.length := by
  induction values generalizing off with
  | nil => rfl
  | cons value values ih => rw [seenValues, List.length_cons, List.length_cons, ih]

/-- The values are those that were sent exactly when no line ending is cut. -/
theorem seenValues_eq_iff (name : Text) (off : Nat) (values : List Text) :
    seenValues eol chunks name off values = values ↔
      linesWhole eol chunks off (values.map (fieldLine name)) := by
  induction values generalizing off with
  | nil => simp [seenValues, linesWhole]
  | cons value values ih =>
      rw [seenValues, List.map_cons, linesWhole, List.cons.injEq, ih]
      refine and_congr_left fun _ => ?_
      cases lineCut eol chunks off (fieldLine name value) <;> simp

theorem not_mem_seenValues (name : Text) (off : Nat) {values : List Text}
    (h : ∀ value ∈ values, '\n' ∉ value) :
    ∀ value ∈ seenValues eol chunks name off values, '\n' ∉ value := by
  induction values generalizing off with
  | nil => simp [seenValues]
  | cons value values ih =>
      intro seen hseen
      rw [seenValues] at hseen
      rcases List.mem_cons.mp hseen with rfl | hmem
      · have hvalue := h value (by simp)
        cases lineCut eol chunks off (fieldLine name value) <;> simpa using hvalue
      · exact ih _ (fun v hv => h v (List.mem_cons_of_mem _ hv)) seen hmem

end

/-! ## Reading fields -/

theorem readLine_data (fields : SseFields) (value : Text) :
    readLine fields (fieldLine ['d', 'a', 't', 'a'] value) =
      { fields with data := fields.data ++ [value] } := by
  simp [readLine, fieldLine]

theorem readLine_event (fields : SseFields) (value : Text) :
    readLine fields (fieldLine ['e', 'v', 'e', 'n', 't'] value) =
      { fields with event := some value } := by
  simp [readLine, fieldLine]

theorem readLine_id (fields : SseFields) (value : Text) :
    readLine fields (fieldLine ['i', 'd'] value) = { fields with id := some value } := by
  simp [readLine, fieldLine]

theorem foldl_readLine_data (fields : SseFields) (values : List Text) :
    (values.map (fieldLine ['d', 'a', 't', 'a'])).foldl readLine fields =
      { fields with data := fields.data ++ values } := by
  induction values generalizing fields with
  | nil => simp
  | cons value values ih =>
      rw [List.map_cons, List.foldl_cons, readLine_data, ih]
      simp

theorem foldl_readLine_event (fields : SseFields) (values : List Text) :
    (values.map (fieldLine ['e', 'v', 'e', 'n', 't'])).foldl readLine fields =
      { fields with event := values.getLast?.or fields.event } := by
  induction values generalizing fields with
  | nil => simp
  | cons value values ih =>
      rw [List.map_cons, List.foldl_cons, readLine_event, ih]
      rw [List.getLast?_cons]
      cases values.getLast? <;> rfl

theorem foldl_readLine_id (fields : SseFields) (values : List Text) :
    (values.map (fieldLine ['i', 'd'])).foldl readLine fields =
      { fields with id := values.getLast?.or fields.id } := by
  induction values generalizing fields with
  | nil => simp
  | cons value values ih =>
      rw [List.map_cons, List.foldl_cons, readLine_id, ih]
      rw [List.getLast?_cons]
      cases values.getLast? <;> rfl

/-! ## What is seen of a block -/

section

variable (eol : LineEnding) (chunks : List (List UInt8))

theorem getLast?_seenValues_iff (name : Text) (off : Nat) (value : Option Text) :
    (seenValues eol chunks name off value.toList).getLast? = value ↔
      seenValues eol chunks name off value.toList = value.toList := by
  cases value with
  | none => simp [seenValues]
  | some v => simp [seenValues]

/-- The fields of a frame, as the parser sees them. -/
def seenFields (off : Nat) (f : WireFrame) : SseFields :=
  let afterId := afterLines eol off (f.id.toList.map (fieldLine ['i', 'd']))
  let afterEvent := afterLines eol afterId (f.event.toList.map (fieldLine ['e', 'v', 'e', 'n', 't']))
  { event := (seenValues eol chunks ['e', 'v', 'e', 'n', 't'] afterId f.event.toList).getLast?
    id := (seenValues eol chunks ['i', 'd'] off f.id.toList).getLast?
    data := seenValues eol chunks ['d', 'a', 't', 'a'] afterEvent (f.data.splitOn '\n') }

/-- A frame is read field by field, over what was open before. -/
theorem foldl_readLine_seenFrame (fields : SseFields) (off : Nat) (f : WireFrame) :
    (seenLines eol chunks off f.lines).foldl readLine fields =
      { event := (seenFields eol chunks off f).event.or fields.event
        id := (seenFields eol chunks off f).id.or fields.id
        data := fields.data ++ (seenFields eol chunks off f).data } := by
  rw [WireFrame.lines, seenLines_append, seenLines_append, seenLines_fields, seenLines_fields,
    seenLines_fields, List.foldl_append, List.foldl_append, foldl_readLine_id,
    foldl_readLine_event, foldl_readLine_data]
  rfl

theorem foldl_readLine_frame (off : Nat) (f : WireFrame) :
    (seenLines eol chunks off f.lines).foldl readLine {} = seenFields eol chunks off f := by
  rw [foldl_readLine_seenFrame]
  simp

theorem seenFields_data_ne_nil (off : Nat) (f : WireFrame) :
    (seenFields eol chunks off f).data ≠ [] := by
  rw [seenFields, ← List.length_pos_iff, length_seenValues, List.length_pos_iff]
  exact List.splitOn_ne_nil _ _

/-- A frame arrives as it was sent exactly when none of its line endings is cut. -/
theorem seenFields_frame_iff (off : Nat) (f : WireFrame) :
    (seenFields eol chunks off f).frame = some f.frame ↔ linesWhole eol chunks off f.lines := by
  have hne := seenFields_data_ne_nil eol chunks off f
  have hdata : ∀ datas : List Text, datas ≠ [] → (∀ d ∈ datas, '\n' ∉ d) →
      (['\n'].intercalate datas = f.data ↔ datas = f.data.splitOn '\n') := by
    intro datas hnil hdatas
    constructor
    · intro hjoin
      rw [← hjoin, List.splitOn_intercalate '\n' hdatas hnil]
    · intro hsplit
      rw [hsplit, List.intercalate_splitOn]
  rw [SseFields.frame, if_neg hne, Option.some_inj, WireFrame.frame, SseFrame.mk.injEq,
    hdata _ hne (not_mem_seenValues eol chunks _ _ fun _ hd => not_mem_of_mem_splitOn hd)]
  dsimp only [seenFields]
  rw [WireFrame.lines, linesWhole_append, linesWhole_append, ← seenValues_eq_iff,
    ← seenValues_eq_iff, ← seenValues_eq_iff, ← getLast?_seenValues_iff,
    ← getLast?_seenValues_iff]
  constructor
  · rintro ⟨hevent, hdatas, hid⟩
    exact ⟨hid, hevent, hdatas⟩
  · rintro ⟨hid, hevent, hdatas⟩
    exact ⟨hevent, hdatas, hid⟩

/-- A comment line is skipped, cut or not. -/
theorem foldl_readLine_comment (fields : SseFields) (off : Nat) (lines : List Text) :
    (seenLines eol chunks off (lines.map (':' :: ·))).foldl readLine fields = fields := by
  induction lines generalizing off with
  | nil => rfl
  | cons line lines ih =>
      rw [List.map_cons, seenLines, List.foldl_cons]
      exact ih _

theorem seenLines_ne_nil (off : Nat) {lines : List Text} (h : ∀ line ∈ lines, line ≠ []) :
    ∀ line ∈ seenLines eol chunks off lines, line ≠ [] := by
  intro seen hseen
  obtain ⟨line, hline, rfl | rfl⟩ := exists_of_mem_seenLines hseen
  · exact h _ hline
  · exact List.append_ne_nil_of_left_ne_nil (h line hline) _

/-- The frames of a stream from one block on. -/
def framesAt (fields : SseFields) (off : Nat) (blocks : List WireBlock) : List SseFrame :=
  lineFrames fields (seenLines eol chunks off (streamLines blocks))

theorem framesAt_cons (fields : SseFields) (off : Nat) (b : WireBlock) (blocks : List WireBlock) :
    framesAt eol chunks fields off (b :: blocks) =
      let read := (seenLines eol chunks off b.lines).foldl readLine fields
      let blank := afterLines eol off b.lines
      if lineCut eol chunks blank [] then framesAt eol chunks read (afterLine eol blank []) blocks
      else read.frame.toList ++ framesAt eol chunks {} (afterLine eol blank []) blocks := by
  have hstream : streamLines (b :: blocks) = b.lines ++ ([] :: streamLines blocks) := by
    rw [streamLines, List.flatMap_cons, List.append_assoc]
    rfl
  rw [framesAt, hstream, seenLines_append,
    lineFrames_append_of_ne_nil _ _ _ (seenLines_ne_nil eol chunks off b.line_ne_nil), seenLines]
  dsimp only
  split
  · exact lineFrames_cons_of_ne_nil _ (by simp) _
  · exact lineFrames_blank _ _

/-! ## From block to block -/

theorem frame_isSome_iff (fields : SseFields) :
    fields.frame.isSome = true ↔ fields.data ≠ [] := by
  rw [SseFields.frame]
  split <;> simp_all

theorem length_frame_toList (fields : SseFields) :
    fields.frame.toList.length = if fields.data = [] then 0 else 1 := by
  rw [SseFields.frame]
  split <;> rfl

theorem foldl_readLine_frame_ne_nil (fields : SseFields) (off : Nat) (f : WireFrame) :
    ((seenLines eol chunks off f.lines).foldl readLine fields).data ≠ [] := by
  rw [foldl_readLine_seenFrame]
  exact List.append_ne_nil_of_right_ne_nil _ (seenFields_data_ne_nil eol chunks off f)

/-- A frame adds itself, and whatever was open before it is lost in it. -/
theorem length_framesAt_frame_le {blocks : List WireBlock}
    (h : ∀ fields off, (framesAt eol chunks fields off blocks).length ≤
      (if fields.data = [] then 0 else 1) + (framesIn blocks).length)
    (fields : SseFields) (off : Nat) (f : WireFrame) :
    (framesAt eol chunks fields off (.frame f :: blocks)).length ≤
      1 + (framesIn blocks).length := by
  have hdata := foldl_readLine_frame_ne_nil eol chunks fields off f
  rw [framesAt_cons, WireBlock.lines_frame]
  dsimp only
  split
  · have hopen := h ((seenLines eol chunks off f.lines).foldl readLine fields)
      (afterLine eol (afterLines eol off f.lines) [])
    rwa [if_neg hdata] at hopen
  · have hempty := h {} (afterLine eol (afterLines eol off f.lines) [])
    rw [if_pos rfl] at hempty
    rw [List.length_append, length_frame_toList, if_neg hdata]
    omega

/-- No more frames are seen than were sent. -/
theorem length_framesAt_le (fields : SseFields) (off : Nat) (blocks : List WireBlock) :
    (framesAt eol chunks fields off blocks).length ≤
      (if fields.data = [] then 0 else 1) + (framesIn blocks).length := by
  induction blocks generalizing fields off with
  | nil =>
      show (fields.frame.toList).length ≤ _
      rw [length_frame_toList]
      exact Nat.le_add_right _ _
  | cons b blocks ih =>
      cases b with
      | frame f =>
          have hframes : (framesIn (.frame f :: blocks)).length = (framesIn blocks).length + 1 := rfl
          have hlen := length_framesAt_frame_le eol chunks ih fields off f
          omega
      | comment c =>
          have hframes : (framesIn (.comment c :: blocks)).length = (framesIn blocks).length := rfl
          rw [framesAt_cons, WireBlock.lines_comment, foldl_readLine_comment, hframes]
          dsimp only
          split
          · exact ih fields _
          · have hempty := ih {} (afterLine eol (afterLines eol off (c.lines.map (':' :: ·))) [])
            rw [if_pos rfl] at hempty
            rw [List.length_append, length_frame_toList]
            omega

theorem toList_inj {α : Type*} {a b : Option α} : a.toList = b.toList ↔ a = b := by
  cases a <;> cases b <;> simp

theorem append_toList_inj {α : Type*} {a b : Option α} (h : b.isSome = a.isSome) {xs ys : List α} :
    a.toList ++ xs = b.toList ++ ys ↔ a = b ∧ xs = ys := by
  cases a <;> cases b <;> simp_all

/-- The frames from one block on are those sent, after the frame that was still open, exactly
when the chunk ends do no harm. -/
theorem framesAt_eq_iff (fields : SseFields) (hfields : fields.data = [] → fields = {})
    (p : Option SseFrame) (hp : p.isSome = fields.frame.isSome) (off : Nat)
    (blocks : List WireBlock) :
    framesAt eol chunks fields off blocks = p.toList ++ framesIn blocks ↔
      fields.frame = p ∧ Harmless eol chunks off (!fields.data.isEmpty) blocks := by
  induction blocks generalizing fields p off with
  | nil =>
      show fields.frame.toList = p.toList ++ [] ↔ _ ∧ True
      rw [List.append_nil, and_true, toList_inj]
  | cons b blocks ih =>
      have hempty : ∀ n, framesAt eol chunks {} n blocks = framesIn blocks ↔
          Harmless eol chunks n false blocks := by
        intro n
        have hnone : ({} : SseFields).frame = none := rfl
        have h := ih {} (fun _ => rfl) none rfl n
        rw [hnone] at h
        simpa using h
      cases b with
      | frame f =>
          have hframes : framesIn (.frame f :: blocks) = f.frame :: framesIn blocks := rfl
          by_cases hopen : fields.data = []
          · -- nothing is open: this frame decides
            have hdata := seenFields_data_ne_nil eol chunks off f
            have hsome : (seenFields eol chunks off f).frame.isSome = true :=
              (frame_isSome_iff _).mpr hdata
            have hnone : fields.frame = none := by
              rw [SseFields.frame, if_pos hopen]
            have hp' : p = none := by
              rw [hnone] at hp
              exact Option.not_isSome_iff_eq_none.mp (by simp [hp])
            rw [framesAt_cons, WireBlock.lines_frame, hfields hopen, hp', hframes, Harmless,
              foldl_readLine_frame, ← seenFields_frame_iff]
            dsimp only
            have htrue : (!(seenFields eol chunks off f).data.isEmpty) = true := by simpa using hdata
            have hnext := ih (seenFields eol chunks off f) (fun h => absurd h hdata)
              (some f.frame) (by rw [hsome]; rfl) (afterLine eol (afterLines eol off f.lines) [])
            rw [htrue] at hnext
            cases hcut : lineCut eol chunks (afterLines eol off f.lines) [] with
            | true =>
                rw [if_pos rfl]
                show framesAt eol chunks _ _ blocks = [f.frame] ++ framesIn blocks ↔ _
                rw [← Option.toList_some, hnext]
                simp [SseFields.frame]
            | false =>
                rw [if_neg (by simp)]
                show _ ++ framesAt eol chunks _ _ blocks = [f.frame] ++ framesIn blocks ↔ _
                rw [← Option.toList_some, append_toList_inj (by rw [hsome]; rfl), hempty]
                simp [SseFields.frame]
          · -- the open frame and this one become one
            have hlen := length_framesAt_frame_le eol chunks
              (fun fields off => length_framesAt_le eol chunks fields off blocks) fields off f
            have hsome : p.toList.length = 1 := by
              have hisSome : p.isSome = true := by rw [hp, frame_isSome_iff]; exact hopen
              obtain ⟨x, rfl⟩ := Option.isSome_iff_exists.mp hisSome
              rfl
            constructor
            · intro h
              rw [h, hframes, List.length_append, List.length_cons, hsome] at hlen
              omega
            · rintro ⟨-, hfalse, -⟩
              simp [hopen] at hfalse
      | comment c =>
          have hframes : framesIn (.comment c :: blocks) = framesIn blocks := rfl
          rw [framesAt_cons, Harmless, WireBlock.lines_comment, foldl_readLine_comment, hframes]
          dsimp only
          cases hcut : lineCut eol chunks (afterLines eol off (c.lines.map (':' :: ·))) [] with
          | true => rw [if_pos rfl, ih fields hfields p hp, Bool.and_true]
          | false => rw [if_neg (by simp), Bool.and_false, append_toList_inj hp, hempty]

end

/-- **The parser yields the frames that were sent exactly when the chunk ends do no harm.** -/
theorem parse_encoded_iff (eol : LineEnding) (blocks : List WireBlock)
    (chunks : List (List UInt8)) (h : chunks.flatten = encodeStream eol blocks) :
    parseSseStream chunks = framesIn blocks ↔ Harmless eol chunks 0 false blocks := by
  have hiff := framesAt_eq_iff eol chunks {} (fun _ => rfl) none rfl 0 blocks
  have hnone : ({} : SseFields).frame = none := rfl
  rw [hnone] at hiff
  rw [parseSseStream_encoded h]
  simpa [framesAt] using hiff

/-- A chunk that ends inside a character. -/
theorem parse_encoded_cut_character :
    parseSseStream [(encodeStream .crlf [.frame (.ofData ['é'] (by decide))]).take 7,
        (encodeStream .crlf [.frame (.ofData ['é'] (by decide))]).drop 7] =
      framesIn [.frame (.ofData ['é'] (by decide))] :=
  (parse_encoded_iff .crlf [.frame (.ofData ['é'] (by decide))] _
    (by rw [List.flatten_cons, List.flatten_singleton, List.take_append_drop])).mpr
    ⟨rfl, ⟨rfl, trivial⟩, trivial⟩

/-- A chunk that ends inside the CRLF of an empty line: two frames become one. -/
theorem parse_encoded_cut_pair :
    let blocks : List WireBlock :=
      [.frame (.ofData ['a'] (by decide)), .frame (.ofData ['b'] (by decide))]
    let bytes := encodeStream .crlf blocks
    [bytes.take 10, bytes.drop 10].flatten = bytes ∧
      parseSseStream [bytes.take 10, bytes.drop 10] ≠ framesIn blocks := by
  decide +kernel

end AgentRoom.Web
