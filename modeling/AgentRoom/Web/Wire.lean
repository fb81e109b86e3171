import AgentRoom.Web.Lines

set_option autoImplicit false

/-! # The encoded stream

A stream is a list of frames and comment blocks. Each block is written line by line, with an
empty line after it. What the parser sees of a line is the line itself, followed by a carriage
return when a chunk ends between the carriage return and the line feed of its CRLF
(`accumulated_eq`).
-/

namespace AgentRoom.Web

/-! ## Lines -/

inductive LineEnding
  | lf | crlf
  deriving DecidableEq

def LineEnding.text : LineEnding → Text
  | .lf => ['\n']
  | .crlf => ['\r', '\n']

/-- Neither line feed nor carriage return. -/
def OneLine (t : Text) : Prop := '\n' ∉ t ∧ '\r' ∉ t

/-- The text of some lines. -/
def joinLines (eol : LineEnding) (lines : List Text) : Text := lines.flatMap (· ++ eol.text)

theorem joinLines_cons (eol : LineEnding) (line : Text) (lines : List Text) :
    joinLines eol (line :: lines) = line ++ (eol.text ++ joinLines eol lines) := by
  rw [joinLines, List.flatMap_cons, List.append_assoc]
  rfl

/-- A chunk ends inside the line ending of the line that starts at the byte offset `off`. -/
def lineCut (eol : LineEnding) (chunks : List (List UInt8)) (off : Nat) (line : Text) : Bool :=
  eol == .crlf && cutAt chunks (off + (Utf8.encode line).length + 1)

/-- The byte offset after a line. -/
def afterLine (eol : LineEnding) (off : Nat) (line : Text) : Nat :=
  off + (Utf8.encode (line ++ eol.text)).length

/-- The lines as the parser sees them. -/
def seenLines (eol : LineEnding) (chunks : List (List UInt8)) : Nat → List Text → List Text
  | _, [] => []
  | off, line :: lines =>
      (line ++ if lineCut eol chunks off line then ['\r'] else []) ::
        seenLines eol chunks (afterLine eol off line) lines

/-- An ASCII byte between two characters. -/
theorem decode_ascii {n : Nat} (h : n ≤ 0x7f) (bs : List UInt8) :
    Utf8.decode .start (UInt8.ofNat n :: bs) =
      ((Utf8.decode .start bs).1, Char.ofNat n :: (Utf8.decode .start bs).2) := by
  rw [Utf8.decode, Utf8.step_start, Utf8.toNat_ofNat (by omega), Utf8.first, if_pos h]
  rfl

/-- The texts of chunks are cut between a carriage return and a line feed where the chunks are. -/
theorem cutAt_textsOf_aux (chunks : List (List UInt8)) (td : TextDecoder) (bs cs : List UInt8)
    (hbytes : chunks.flatten = bs ++ UInt8.ofNat 0x0d :: UInt8.ofNat 0x0a :: cs)
    (hstart : (Utf8.decode td.decoder bs).1 = .start)
    (hbom : td.bomSeen = true ∨
      ((Utf8.decode td.decoder bs).2 ++ ['\r']).head? ≠ some '\ufeff') :
    cutAt (textsOf td chunks) ((Utf8.decode td.decoder bs).2.length + 1) =
      cutAt chunks (bs.length + 1) := by
  induction chunks generalizing td bs with
  | nil => simp at hbytes
  | cons chunk chunks ih =>
      rw [List.flatten_cons] at hbytes
      rw [textsOf, decode_chunk]
      rcases (Nat.lt_or_ge bs.length chunk.length).symm with hle | hgt
      · -- the carriage return comes in a later chunk
        have hfront : chunk <+: bs :=
          List.prefix_of_prefix_length_le ⟨_, hbytes⟩ (List.prefix_append _ _) hle
        obtain ⟨bs', rfl⟩ := hfront
        rw [List.append_assoc] at hbytes
        have hrest := List.append_cancel_left hbytes
        rw [Utf8.decode_append] at hstart hbom ⊢
        simp only [List.append_assoc] at hbom
        have htext : stripBom td.bomSeen (Utf8.decode td.decoder chunk).2 =
            (Utf8.decode td.decoder chunk).2 := by
          refine stripBom_of_head (hbom.imp_right fun hhead => ?_)
          cases hout : (Utf8.decode td.decoder chunk).2 with
          | nil => simp
          | cons c out =>
              rw [hout] at hhead
              exact hhead
        have hnext := ih ⟨(Utf8.decode td.decoder chunk).1,
          td.bomSeen || !(Utf8.decode td.decoder chunk).2.isEmpty⟩ bs' hrest hstart (by
            cases hout : (Utf8.decode td.decoder chunk).2 with
            | nil =>
                rw [hout] at hbom
                simpa using hbom
            | cons c out => simp)
        have hlen : ∀ a b : Nat, a + b + 1 - a = b + 1 := by omega
        rw [htext]
        dsimp only
        rw [List.length_append, List.length_append, cutAt_cons_ge (by omega),
          cutAt_cons_ge (by omega), hlen, hlen]
        exact hnext
      · obtain ⟨more, rfl⟩ : bs <+: chunk :=
          List.prefix_of_prefix_length_le (List.prefix_append _ _) ⟨_, hbytes⟩ (Nat.le_of_lt hgt)
        rw [List.append_assoc] at hbytes
        have hrest := List.append_cancel_left hbytes
        cases more with
        | nil => simp at hgt
        | cons b more =>
            rw [List.cons_append] at hrest
            obtain ⟨rfl, hafter⟩ := List.cons.inj hrest
            have hdecode : (Utf8.decode td.decoder (bs ++ UInt8.ofNat 0x0d :: more)).2 =
                (Utf8.decode td.decoder bs).2 ++ '\r' :: (Utf8.decode .start more).2 := by
              rw [Utf8.decode_append, hstart, decode_ascii (by decide)]
            have htext : stripBom td.bomSeen
                (Utf8.decode td.decoder (bs ++ UInt8.ofNat 0x0d :: more)).2 =
                (Utf8.decode td.decoder (bs ++ UInt8.ofNat 0x0d :: more)).2 := by
              refine stripBom_of_head (hbom.imp_right fun hhead => ?_)
              rw [hdecode]
              cases hout : (Utf8.decode td.decoder bs).2 with
              | nil => simp
              | cons c out =>
                  rw [hout] at hhead
                  exact hhead
            rw [htext, hdecode]
            cases more with
            | nil =>
                -- the cut is here, in the bytes and in the text
                rw [cutAt_cons_ge (by simp [Utf8.decode]), cutAt_cons_ge (by simp)]
                simp [Utf8.decode, cutAt_zero]
            | cons b more =>
                rw [List.cons_append] at hafter
                obtain ⟨rfl, -⟩ := List.cons.inj hafter
                rw [decode_ascii (by decide), cutAt_cons_lt (by omega) (by simp),
                  cutAt_cons_lt (by omega) (by simp)]

/-- A text with a CRLF pair in it is cut inside the pair exactly when its bytes are. -/
theorem cutAt_textsOf {chunks : List (List UInt8)} {u v : Text}
    (hbytes : chunks.flatten = Utf8.encode (u ++ '\r' :: '\n' :: v))
    (hbom : (u ++ '\r' :: '\n' :: v).head? ≠ some '\ufeff') :
    cutAt (textsOf {} chunks) (u.length + 1) = cutAt chunks ((Utf8.encode u).length + 1) := by
  have hpair : Utf8.encode (u ++ '\r' :: '\n' :: v) =
      Utf8.encode u ++ UInt8.ofNat 0x0d :: UInt8.ofNat 0x0a :: Utf8.encode v := by
    rw [Utf8.encode_append]
    rfl
  have hdecode := Utf8.decode_encode u
  have h := cutAt_textsOf_aux chunks {} (Utf8.encode u) (Utf8.encode v) (by rw [hbytes, hpair])
    (congrArg Prod.fst hdecode) (Or.inr (by
      show ((Utf8.decode .start (Utf8.encode u)).2 ++ ['\r']).head? ≠ _
      rw [hdecode]
      cases u with
      | nil => simp
      | cons c u => exact hbom))
  have hout : (Utf8.decode ({} : TextDecoder).decoder (Utf8.encode u)).2 = u :=
    congrArg Prod.snd hdecode
  rwa [hout] at h

theorem normalized_append_of_not_mem (cut : Nat → Bool) (p : Nat) {line : Text}
    (h : '\r' ∉ line) (rest : Text) :
    normalized cut p (line ++ rest) = line ++ normalized cut (p + line.length) rest := by
  induction line generalizing p with
  | nil => rfl
  | cons c line ih =>
      have hc : c ≠ '\r' := fun hc => h (by simp [hc])
      have hline : '\r' ∉ line := fun hm => h (List.mem_cons_of_mem _ hm)
      have hlen : p + (c :: line).length = p + 1 + line.length := by
        rw [List.length_cons]
        omega
      rw [List.cons_append, normalized_cons _ _ (fun hcr => absurd hcr hc), ih (p + 1) hline, hlen]
      rfl

/-- The accumulated text, line by line. -/
theorem normalized_joinLines {chunks : List (List UInt8)} {eol : LineEnding} {t : Text}
    (hbytes : chunks.flatten = Utf8.encode t) (hbom : t.head? ≠ some '\ufeff')
    (lines : List Text) (hlines : ∀ line ∈ lines, '\r' ∉ line) (pre : Text)
    (ht : t = pre ++ joinLines eol lines) :
    normalized (cutAt (textsOf {} chunks)) pre.length (joinLines eol lines) =
      joinLines .lf (seenLines eol chunks (Utf8.encode pre).length lines) := by
  induction lines generalizing pre with
  | nil => rfl
  | cons line lines ih =>
      have hline := hlines line (by simp)
      have hrest := fun l hl => hlines l (List.mem_cons_of_mem _ hl)
      have hnext := ih hrest (pre ++ (line ++ eol.text))
        (by rw [ht, joinLines_cons, List.append_assoc, List.append_assoc])
      have hoff : (Utf8.encode (pre ++ (line ++ eol.text))).length =
          afterLine eol (Utf8.encode pre).length line := by
        rw [Utf8.encode_append, List.length_append, afterLine]
      rw [hoff] at hnext
      rw [joinLines_cons, normalized_append_of_not_mem _ _ hline, seenLines, joinLines_cons,
        ← hnext]
      cases eol with
      | lf =>
          show line ++ normalized _ _ ('\n' :: joinLines .lf lines) = _
          rw [normalized_cons _ _ (fun h => absurd h (by decide))]
          have hpos : pre.length + line.length + 1 = (pre ++ (line ++ LineEnding.lf.text)).length := by
            simp [LineEnding.text]
            omega
          rw [hpos]
          simp [lineCut, LineEnding.text]
      | crlf =>
          show line ++ normalized _ _ ('\r' :: '\n' :: joinLines .crlf lines) = _
          have hcut := @cutAt_textsOf chunks (pre ++ line) (joinLines .crlf lines)
            (by rw [hbytes, ht, joinLines_cons, List.append_assoc]; rfl)
            (by
              have := hbom
              rw [ht, joinLines_cons] at this
              rw [List.append_assoc]
              exact this)
          have hpos : pre.length + line.length + 2 =
              (pre ++ (line ++ LineEnding.crlf.text)).length := by
            simp [LineEnding.text]
            omega
          have hlen : (pre ++ line).length + 1 = pre.length + line.length + 1 := by simp
          have hbyte : (Utf8.encode (pre ++ line)).length + 1 =
              (Utf8.encode pre).length + (Utf8.encode line).length + 1 := by
            rw [Utf8.encode_append, List.length_append]
          rw [hlen, hbyte] at hcut
          rw [normalized, hcut, hpos]
          simp only [lineCut, beq_self_eq_true, Bool.true_and]
          split <;> simp [LineEnding.text]

/-- A stream that does not start with a byte order mark is decoded as it is. -/
theorem textsOf_flatten_encode {chunks : List (List UInt8)} {t : Text}
    (hbytes : chunks.flatten = Utf8.encode t) (hbom : t.head? ≠ some '\ufeff') :
    (textsOf {} chunks).flatten = t := by
  have hdecode := Utf8.decode_encode t
  have hdone : Utf8.flush Utf8.Decoder.start = [] := rfl
  rw [textsOf_flatten, hbytes]
  show stripBom false ((Utf8.decode .start (Utf8.encode t)).2 ++
    Utf8.flush (Utf8.decode .start (Utf8.encode t)).1) = t
  rw [hdecode, hdone, List.append_nil]
  exact stripBom_of_head (Or.inr hbom)

/-- **What the parser sees of a stream.** -/
theorem accumulated_eq {chunks : List (List UInt8)} {eol : LineEnding} {lines : List Text}
    (hbytes : chunks.flatten = Utf8.encode (joinLines eol lines))
    (hbom : (joinLines eol lines).head? ≠ some '\ufeff') (hlines : ∀ line ∈ lines, '\r' ∉ line) :
    ((textsOf {} chunks).map replaceCrlf).flatten =
      joinLines .lf (seenLines eol chunks 0 lines) := by
  rw [replaceCrlf_flatten, textsOf_flatten_encode hbytes hbom]
  exact normalized_joinLines hbytes hbom lines hlines [] rfl

theorem joinLines_lf (lines : List Text) :
    joinLines .lf lines = ['\n'].intercalate (lines ++ [[]]) := by
  induction lines with
  | nil => rfl
  | cons line lines ih =>
      rw [joinLines_cons, ih, List.cons_append,
        List.intercalate_cons_of_ne_nil (List.append_ne_nil_of_right_ne_nil _ (by simp)),
        List.append_assoc]
      rfl

/-- The frames of a text of whole lines. -/
theorem framesOf_joinLines {lines : List Text} (h : ∀ line ∈ lines, '\n' ∉ line) :
    framesOf (joinLines .lf lines) = lineFrames {} lines := by
  have hlines := framesOf_intercalate [] (lines ++ [[]]) (by simp) (by simp) (by
    intro line hline
    rcases List.mem_append.mp hline with hmem | hmem
    · exact h line hmem
    · simp [List.mem_singleton.mp hmem])
  rw [joinLines_lf, ← lineFrames_append_blank {} lines]
  exact hlines

/-! ## Frames and comments -/

/-- A frame the server may send. -/
structure WireFrame where
  event : Option Text := none
  data : Text
  id : Option Text := none
  event_ok : ∀ e ∈ event, OneLine e
  id_ok : ∀ i ∈ id, OneLine i
  data_ok : '\r' ∉ data

/-- A frame with data only. -/
def WireFrame.ofData (data : Text) (h : '\r' ∉ data) : WireFrame where
  data := data
  event_ok := by simp
  id_ok := by simp
  data_ok := h

/-- The frame as the client sees it. -/
def WireFrame.frame (f : WireFrame) : SseFrame := ⟨f.event, f.data, f.id⟩

/-- A comment block, such as a ping. -/
structure WireComment where
  lines : List Text
  ne_nil : lines ≠ []
  lines_ok : ∀ line ∈ lines, OneLine line

inductive WireBlock
  | frame (f : WireFrame)
  | comment (c : WireComment)

/-- `name: value`. -/
def fieldLine (name value : Text) : Text := name ++ ':' :: ' ' :: value

/-- The lines of a frame: its id, its event and one line for each line of its data. -/
def WireFrame.lines (f : WireFrame) : List Text :=
  f.id.toList.map (fieldLine ['i', 'd']) ++
    (f.event.toList.map (fieldLine ['e', 'v', 'e', 'n', 't']) ++
      (f.data.splitOn '\n').map (fieldLine ['d', 'a', 't', 'a']))

def WireBlock.lines : WireBlock → List Text
  | .frame f => f.lines
  | .comment c => c.lines.map (':' :: ·)

theorem WireBlock.lines_frame (f : WireFrame) : (WireBlock.frame f).lines = f.lines := rfl

theorem WireBlock.lines_comment (c : WireComment) :
    (WireBlock.comment c).lines = c.lines.map (':' :: ·) := rfl

/-- The lines of a stream, with an empty line after each block. -/
def streamLines (blocks : List WireBlock) : List Text := blocks.flatMap fun b => b.lines ++ [[]]

/-- `text/event-stream`. -/
def encodeStream (eol : LineEnding) (blocks : List WireBlock) : List UInt8 :=
  Utf8.encode (joinLines eol (streamLines blocks))

/-- The frames of a stream. -/
def framesIn (blocks : List WireBlock) : List SseFrame :=
  blocks.filterMap fun
    | .frame f => some f.frame
    | .comment _ => none

theorem oneLine_append {t u : Text} (ht : OneLine t) (hu : OneLine u) : OneLine (t ++ u) := by
  refine ⟨?_, ?_⟩
  · rw [List.mem_append, not_or]
    exact ⟨ht.1, hu.1⟩
  · rw [List.mem_append, not_or]
    exact ⟨ht.2, hu.2⟩

theorem oneLine_fieldLine {name value : Text} (hname : OneLine name) (hvalue : OneLine value) :
    OneLine (fieldLine name value) := by
  have hcolon : OneLine [':', ' '] := ⟨by decide, by decide⟩
  exact oneLine_append hname (oneLine_append hcolon hvalue)

theorem oneLine_of_mem_splitOn {t line : Text} (ht : '\r' ∉ t) (h : line ∈ t.splitOn '\n') :
    OneLine line :=
  ⟨not_mem_of_mem_splitOn h, fun hcr => ht (subset_of_mem_splitOn h hcr)⟩

theorem WireBlock.lines_oneLine (b : WireBlock) : ∀ line ∈ b.lines, OneLine line := by
  intro line hline
  cases b with
  | frame f =>
      have hmem : line ∈ f.lines := hline
      rw [WireFrame.lines, List.mem_append, List.mem_append] at hmem
      rcases hmem with hid | hevent | hdata
      · obtain ⟨i, hi, rfl⟩ := List.mem_map.mp hid
        exact oneLine_fieldLine ⟨by decide, by decide⟩ (f.id_ok i (by simpa using hi))
      · obtain ⟨e, he, rfl⟩ := List.mem_map.mp hevent
        exact oneLine_fieldLine ⟨by decide, by decide⟩ (f.event_ok e (by simpa using he))
      · obtain ⟨d, hd, rfl⟩ := List.mem_map.mp hdata
        exact oneLine_fieldLine ⟨by decide, by decide⟩ (oneLine_of_mem_splitOn f.data_ok hd)
  | comment c =>
      obtain ⟨l, hl, rfl⟩ := List.mem_map.mp hline
      have hcolon : OneLine [':'] := ⟨by decide, by decide⟩
      exact oneLine_append hcolon (c.lines_ok l hl)

theorem WireBlock.lines_ne_nil (b : WireBlock) : b.lines ≠ [] := by
  cases b with
  | frame f =>
      rw [WireBlock.lines_frame, WireFrame.lines]
      simp [List.splitOn_ne_nil]
  | comment c =>
      rw [WireBlock.lines_comment]
      simpa using c.ne_nil

theorem WireBlock.line_ne_nil (b : WireBlock) : ∀ line ∈ b.lines, line ≠ [] := by
  intro line hline
  cases b with
  | frame f =>
      have hmem : line ∈ f.lines := hline
      simp only [WireFrame.lines, List.mem_append, List.mem_map] at hmem
      rcases hmem with ⟨i, -, rfl⟩ | ⟨e, -, rfl⟩ | ⟨d, -, rfl⟩ <;> simp [fieldLine]
  | comment c =>
      obtain ⟨l, -, rfl⟩ := List.mem_map.mp hline
      simp

theorem oneLine_of_mem_streamLines {blocks : List WireBlock} {line : Text}
    (h : line ∈ streamLines blocks) : OneLine line := by
  obtain ⟨b, -, hline⟩ := List.mem_flatMap.mp h
  rcases List.mem_append.mp hline with hmem | hmem
  · exact b.lines_oneLine line hmem
  · rw [List.mem_singleton.mp hmem]
    exact ⟨by simp, by simp⟩

/-- A line of a block starts with a field name or a colon. -/
theorem WireBlock.line_head (b : WireBlock) : ∀ line ∈ b.lines, line.head? ≠ some '\ufeff' := by
  intro line hline
  cases b with
  | frame f =>
      rw [WireBlock.lines_frame] at hline
      simp only [WireFrame.lines, List.mem_append, List.mem_map] at hline
      rcases hline with ⟨i, -, rfl⟩ | ⟨e, -, rfl⟩ | ⟨d, -, rfl⟩ <;> simp [fieldLine]
  | comment c =>
      obtain ⟨l, -, rfl⟩ := List.mem_map.mp hline
      simp

theorem stream_head (eol : LineEnding) (blocks : List WireBlock) :
    (joinLines eol (streamLines blocks)).head? ≠ some '\ufeff' := by
  cases blocks with
  | nil => simp [streamLines, joinLines]
  | cons b blocks =>
      obtain ⟨line, lines, hlines⟩ := List.exists_cons_of_ne_nil b.lines_ne_nil
      have hne := b.line_ne_nil line (by simp [hlines])
      have hhead := b.line_head line (by simp [hlines])
      have hstream : streamLines (b :: blocks) = line :: (lines ++ [[]] ++ streamLines blocks) := by
        rw [streamLines, List.flatMap_cons, hlines]
        rfl
      rw [hstream, joinLines_cons, List.head?_append_of_ne_nil _ hne]
      exact hhead

/-- What the parser sees of a line is the line, or the line and a carriage return. -/
theorem exists_of_mem_seenLines {eol : LineEnding} {chunks : List (List UInt8)} {off : Nat}
    {lines : List Text} {seen : Text} (h : seen ∈ seenLines eol chunks off lines) :
    ∃ line ∈ lines, seen = line ∨ seen = line ++ ['\r'] := by
  induction lines generalizing off with
  | nil => cases h
  | cons line lines ih =>
      rw [seenLines] at h
      rcases List.mem_cons.mp h with rfl | hmem
      · refine ⟨line, List.mem_cons_self, ?_⟩
        cases lineCut eol chunks off line <;> simp
      · obtain ⟨line', hline', hseen⟩ := ih hmem
        exact ⟨line', List.mem_cons_of_mem _ hline', hseen⟩

theorem not_mem_seenLines {lines : List Text} (eol : LineEnding) (chunks : List (List UInt8))
    (off : Nat) (h : ∀ line ∈ lines, '\n' ∉ line) :
    ∀ line ∈ seenLines eol chunks off lines, '\n' ∉ line := by
  intro seen hseen
  obtain ⟨line, hline, rfl | rfl⟩ := exists_of_mem_seenLines hseen
  · exact h _ hline
  · simpa using h line hline

/-- **What the parser yields for an encoded stream.** -/
theorem parseSseStream_encoded {eol : LineEnding} {blocks : List WireBlock}
    {chunks : List (List UInt8)} (h : chunks.flatten = encodeStream eol blocks) :
    parseSseStream chunks = lineFrames {} (seenLines eol chunks 0 (streamLines blocks)) := by
  have hlf : ∀ line ∈ streamLines blocks, '\n' ∉ line :=
    fun _ hline => (oneLine_of_mem_streamLines hline).1
  rw [parseSseStream_eq, accumulated_eq h (stream_head eol blocks) fun _ hline =>
    (oneLine_of_mem_streamLines hline).2, framesOf_joinLines (not_mem_seenLines eol chunks 0 hlf)]

end AgentRoom.Web
