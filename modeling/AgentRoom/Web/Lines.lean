import AgentRoom.Web.SseText

set_option autoImplicit false

/-! # The parser reads lines

Cutting a text at its blank lines and then each block at its line feeds is one pass over the
lines of the text (`framesOf_eq_lineFrames`): a line adds to the fields read so far, and an empty
line, or the end of the stream, completes them.
-/

namespace AgentRoom.Web

/-! ## Splitting at line feeds -/

theorem mem_intercalate {t : Text} {lines : List Text} {sep : Text} {c : Char} (ht : t ∈ lines)
    (hc : c ∈ t) : c ∈ sep.intercalate lines := by
  induction lines with
  | nil => cases ht
  | cons line lines ih =>
      cases lines with
      | nil =>
          rw [List.intercalate_singleton]
          rwa [List.mem_singleton.mp ht] at hc
      | cons next lines =>
          rw [List.intercalate_cons_cons, List.mem_append, List.mem_append]
          rcases List.mem_cons.mp ht with rfl | hmem
          · exact Or.inl (Or.inl hc)
          · exact Or.inr (ih hmem)

theorem subset_of_mem_splitOn {t line : Text} {c : Char} (h : line ∈ t.splitOn '\n')
    (hc : c ∈ line) : c ∈ t := by
  have hjoin : ['\n'].intercalate (t.splitOn '\n') = t := List.intercalate_splitOn '\n'
  rw [← hjoin]
  exact mem_intercalate h hc

theorem not_mem_of_mem_splitOn {t line : Text} (h : line ∈ t.splitOn '\n') : '\n' ∉ line := by
  induction t generalizing line with
  | nil =>
      rw [List.splitOn_nil, List.mem_singleton] at h
      simp [h]
  | cons c t ih =>
      rw [List.splitOn_cons_eq_if_modifyHead] at h
      cases hsplit : t.splitOn '\n' with
      | nil => exact absurd hsplit (List.splitOn_ne_nil _ _)
      | cons first rest =>
          rw [hsplit] at h ih
          by_cases hc : c = '\n'
          · simp only [hc, beq_self_eq_true, if_true] at h
            rcases List.mem_cons.mp h with rfl | hmem
            · simp
            · exact ih hmem
          · rw [if_neg (by simpa using hc), List.modifyHead_cons] at h
            rcases List.mem_cons.mp h with rfl | hmem
            · have hfirst : '\n' ∉ first := ih (by simp)
              simpa [Ne.symm hc] using hfirst
            · exact ih (List.mem_cons_of_mem _ hmem)

/-! ## One pass over the lines -/

/-- The frames of some lines, with the fields read so far. -/
def lineFrames (fields : SseFields) : List Text → List SseFrame
  | [] => fields.frame.toList
  | line :: lines =>
      if line = [] then fields.frame.toList ++ lineFrames {} lines
      else lineFrames (readLine fields line) lines

theorem lineFrames_cons_of_ne_nil (fields : SseFields) {line : Text} (h : line ≠ [])
    (lines : List Text) :
    lineFrames fields (line :: lines) = lineFrames (readLine fields line) lines := by
  rw [lineFrames, if_neg h]

theorem lineFrames_blank (fields : SseFields) (lines : List Text) :
    lineFrames fields ([] :: lines) = fields.frame.toList ++ lineFrames {} lines := by
  rw [lineFrames, if_pos rfl]

theorem lineFrames_append_of_ne_nil (fields : SseFields) (block lines : List Text)
    (h : ∀ line ∈ block, line ≠ []) :
    lineFrames fields (block ++ lines) = lineFrames (block.foldl readLine fields) lines := by
  induction block generalizing fields with
  | nil => rfl
  | cons line block ih =>
      rw [List.cons_append, lineFrames_cons_of_ne_nil _ (h line (by simp)),
        ih _ fun l hl => h l (List.mem_cons_of_mem _ hl)]
      rfl

/-- An empty last line adds nothing. -/
theorem lineFrames_append_blank (fields : SseFields) (lines : List Text) :
    lineFrames fields (lines ++ [[]]) = lineFrames fields lines := by
  induction lines generalizing fields with
  | nil => rw [List.nil_append, lineFrames_blank]; exact List.append_nil _
  | cons line lines ih =>
      rw [List.cons_append, lineFrames, lineFrames, ih, ih]

/-! ## The lines of a block -/

/-- A line of white space is no field. -/
theorem readLine_of_isSpace (fields : SseFields) {line : Text} (h : line.all isSpace = true) :
    readLine fields line = fields := by
  have hname : ∀ c name, (line.takeWhile (· != ':')) = c :: name → isSpace c = true := by
    intro c name heq
    have hmem : c ∈ line.takeWhile (· != ':') := by
      rw [heq]
      exact List.mem_cons_self
    exact List.all_eq_true.mp h c ((List.takeWhile_prefix _).subset hmem)
  have hne : ∀ c name, isSpace c = false → line.takeWhile (· != ':') ≠ c :: name := by
    intro c name hc heq
    rw [hname c name heq] at hc
    cases hc
  rw [readLine]
  split
  · rfl
  · dsimp only
    rw [if_neg (hne _ _ (by decide)), if_neg (hne _ _ (by decide)), if_neg (hne _ _ (by decide))]

theorem foldl_readLine_of_isSpace (fields : SseFields) (lines : List Text)
    (h : ∀ line ∈ lines, line.all isSpace = true) : lines.foldl readLine fields = fields := by
  induction lines with
  | nil => rfl
  | cons line lines ih =>
      rw [List.foldl_cons, readLine_of_isSpace _ (h line (by simp))]
      exact ih fun l hl => h l (List.mem_cons_of_mem _ hl)

/-- A block, read line by line. -/
theorem parseSseBlock_intercalate {lines : List Text} (hne : lines ≠ [])
    (h : ∀ line ∈ lines, '\n' ∉ line) :
    parseSseBlock (['\n'].intercalate lines) = (lines.foldl readLine {}).frame := by
  rw [parseSseBlock, List.splitOn_intercalate '\n' h hne]
  split
  · rename_i hspace
    have hall : ∀ line ∈ lines, line.all isSpace = true := by
      intro line hline
      rw [List.all_eq_true] at hspace ⊢
      intro c hc
      exact hspace c (mem_intercalate hline hc)
    rw [foldl_readLine_of_isSpace _ _ hall]
    rfl
  · rfl

/-! ## Blocks -/

theorem cutBlocks_cons {c : Char} {rest : Text} (h : c = '\n' → rest.head? ≠ some '\n') :
    cutBlocks (c :: rest) =
      match cutBlocks rest with
      | (block :: blocks, buffer) => ((c :: block) :: blocks, buffer)
      | ([], buffer) => ([], c :: buffer) := by
  refine cutBlocks.eq_3 c rest fun rest' hc hrest => h hc ?_
  rw [hrest]
  rfl

/-- A line in front of a block. -/
theorem cutBlocks_line {line rest block : Text} {blocks : List Text} {buffer : Text}
    (h : '\n' ∉ line) (hrest : cutBlocks rest = (block :: blocks, buffer)) :
    cutBlocks (line ++ rest) = ((line ++ block) :: blocks, buffer) := by
  induction line with
  | nil => exact hrest
  | cons c line ih =>
      have hc : c ≠ '\n' := fun hc => h (by simp [hc])
      have hline : '\n' ∉ line := fun hm => h (List.mem_cons_of_mem _ hm)
      rw [List.cons_append, cutBlocks_cons (fun hnl => absurd hnl hc), ih hline]
      rfl

/-- A block and the empty line after it. -/
theorem cutBlocks_block {lines : List Text} (hne : lines ≠ [])
    (hlines : ∀ line ∈ lines, line ≠ [] ∧ '\n' ∉ line) (rest : Text) :
    cutBlocks (['\n'].intercalate lines ++ '\n' :: '\n' :: rest) =
      (['\n'].intercalate lines :: (cutBlocks rest).1, (cutBlocks rest).2) := by
  induction lines with
  | nil => exact absurd rfl hne
  | cons line lines ih =>
      have hline := (hlines line (by simp)).2
      cases lines with
      | nil =>
          have hcut : cutBlocks ('\n' :: '\n' :: rest) = ([] :: (cutBlocks rest).1, (cutBlocks rest).2) :=
            rfl
          rw [List.intercalate_singleton, cutBlocks_line hline hcut, List.append_nil]
      | cons next lines =>
          have hnext := ih (by simp) fun l hl => hlines l (List.mem_cons_of_mem _ hl)
          have hhead : (['\n'].intercalate (next :: lines) ++ '\n' :: '\n' :: rest).head? ≠
              some '\n' := by
            obtain ⟨hnil, hnl⟩ := hlines next (by simp)
            cases next with
            | nil => exact absurd rfl hnil
            | cons c next =>
                have hc : c ≠ '\n' := fun hc => hnl (by simp [hc])
                cases lines <;> simpa [List.intercalate] using hc
          have hcut := cutBlocks_cons (c := '\n') (fun _ => hhead)
          rw [hnext] at hcut
          have hjoin : ['\n'].intercalate (line :: next :: lines) =
              line ++ '\n' :: ['\n'].intercalate (next :: lines) := by
            rw [List.intercalate_cons_cons, List.append_assoc]
            rfl
          rw [hjoin, List.append_assoc]
          exact cutBlocks_line hline hcut

theorem length_of_cutBlocks {t block : Text} {blocks : List Text}
    (h : (cutBlocks t).1 = block :: blocks) : block.length + 2 ≤ t.length := by
  induction t using cutBlocks.induct generalizing block blocks with
  | case1 => cases h
  | case2 rest ih =>
      have hblock : block = [] := (List.cons.inj h).1.symm
      simp [hblock]
  | case3 c rest hb first others buffer heq ih =>
      rw [cutBlocks, heq] at h
      · obtain ⟨rfl, -⟩ := List.cons.inj h
        have := ih (by rw [heq])
        simp only [List.length_cons]
        omega
      · exact hb
  | case4 c rest hb buffer heq ih =>
      rw [cutBlocks, heq] at h
      · cases h
      · exact hb

/-- Before its empty line, a block is not cut. -/
theorem cutBlocks_open {lines : List Text} (hne : lines ≠ [])
    (hlines : ∀ line ∈ lines, line ≠ [] ∧ '\n' ∉ line) {u v : Text}
    (hu : u ++ '\n' :: v = ['\n', '\n']) : (cutBlocks (['\n'].intercalate lines ++ u)).1 = [] := by
  have hlen := congrArg List.length hu
  simp only [List.length_append, List.length_cons, List.length_nil] at hlen
  have hblock := congrArg Prod.fst (cutBlocks_block hne hlines [])
  rw [← hu, ← List.append_assoc, cutBlocks_append] at hblock
  cases hcut : (cutBlocks (['\n'].intercalate lines ++ u)).1 with
  | nil => rfl
  | cons block blocks =>
      have hlong := length_of_cutBlocks hcut
      rw [hcut] at hblock
      obtain ⟨rfl, -⟩ := List.cons.inj hblock
      rw [List.length_append] at hlong
      omega

theorem parseSseBlock_newline (t : Text) : parseSseBlock ('\n' :: t) = parseSseBlock t := by
  have hspace : ('\n' :: t).all isSpace = t.all isSpace := rfl
  rw [parseSseBlock, parseSseBlock, hspace, List.splitOn_cons_eq_if_modifyHead]
  rfl

/-- Line feeds in front of a text. -/
theorem framesOf_newline (t : Text) : framesOf ('\n' :: t) = framesOf t := by
  induction t with
  | nil => rfl
  | cons c t ih =>
      by_cases hc : c = '\n'
      · rw [hc]
        show framesOf t = framesOf ('\n' :: t)
        exact ih.symm
      · have hcut := @cutBlocks_cons '\n' (c :: t) (fun _ => by simpa using hc)
        rw [framesOf, framesOf, hcut]
        cases hrest : cutBlocks (c :: t) with
        | mk blocks buffer =>
            cases blocks with
            | nil => simp [parseSseBlock_newline]
            | cons block blocks => simp [List.filterMap_cons, parseSseBlock_newline]

theorem intercalate_append {sep : Text} {xs ys : List Text} (hxs : xs ≠ []) (hys : ys ≠ []) :
    sep.intercalate (xs ++ ys) = sep.intercalate xs ++ (sep ++ sep.intercalate ys) := by
  induction xs with
  | nil => exact absurd rfl hxs
  | cons x xs ih =>
      cases xs with
      | nil =>
          rw [List.intercalate_singleton, List.singleton_append,
            List.intercalate_cons_of_ne_nil hys, List.append_assoc]
      | cons next xs =>
          have hnext := ih (by simp)
          rw [List.cons_append] at hnext ⊢
          rw [List.cons_append, List.intercalate_cons_cons, hnext, List.intercalate_cons_cons]
          simp only [List.append_assoc]

/-- The last line of a stream, with nothing after it. -/
theorem framesOf_last (block : List Text) (line : Text)
    (hblock : ∀ l ∈ block, l ≠ [] ∧ '\n' ∉ l) (hline : '\n' ∉ line) :
    framesOf (['\n'].intercalate (block ++ [line])) =
      (readLine (block.foldl readLine {}) line).frame.toList := by
  have hcut : (cutBlocks (['\n'].intercalate (block ++ [line]))).1 = [] := by
    by_cases hnil : line = []
    · cases block with
      | nil => rw [hnil]; rfl
      | cons first block =>
          have hopen := cutBlocks_open (by simp) hblock (u := ['\n']) (v := []) rfl
          rw [intercalate_append (by simp) (by simp), hnil]
          exact hopen
    · have hopen := cutBlocks_open
        (List.append_ne_nil_of_right_ne_nil block (List.cons_ne_nil line [])) (by
        intro l hl
        rcases List.mem_append.mp hl with hmem | hmem
        · exact hblock l hmem
        · rw [List.mem_singleton.mp hmem]
          exact ⟨hnil, hline⟩) (u := []) (v := ['\n']) rfl
      rwa [List.append_nil] at hopen
  have hparse := parseSseBlock_intercalate
    (List.append_ne_nil_of_right_ne_nil block (List.cons_ne_nil line [])) (by
    intro l hl
    rcases List.mem_append.mp hl with hmem | hmem
    · exact (hblock l hmem).2
    · rwa [List.mem_singleton.mp hmem])
  rw [framesOf, hcut, cutBlocks_eq_of_nil hcut, hparse, List.foldl_append]
  rfl

/-- A block, its empty line and more text. -/
theorem framesOf_block {block : List Text} (hne : block ≠ [])
    (hblock : ∀ l ∈ block, l ≠ [] ∧ '\n' ∉ l) (rest : Text) :
    framesOf (['\n'].intercalate block ++ '\n' :: '\n' :: rest) =
      (block.foldl readLine {}).frame.toList ++ framesOf rest := by
  have hparse := parseSseBlock_intercalate hne fun l hl => (hblock l hl).2
  rw [framesOf, cutBlocks_block hne hblock, List.filterMap_cons, hparse, framesOf]
  cases (block.foldl readLine {}).frame <;> rfl

/-- **The frames of a text are those of its lines.** -/
theorem framesOf_intercalate (block lines : List Text) (hne : lines ≠ [])
    (hblock : ∀ line ∈ block, line ≠ [] ∧ '\n' ∉ line) (hlines : ∀ line ∈ lines, '\n' ∉ line) :
    framesOf (['\n'].intercalate (block ++ lines)) =
      lineFrames (block.foldl readLine {}) lines := by
  induction lines generalizing block with
  | nil => exact absurd rfl hne
  | cons line lines ih =>
      have hline := hlines line (by simp)
      have hrest := fun l hl => hlines l (List.mem_cons_of_mem _ hl)
      cases lines with
      | nil =>
          rw [framesOf_last block line hblock hline, lineFrames]
          split
          · rename_i hnil
            rw [hnil]
            exact (List.append_nil _).symm
          · rfl
      | cons next lines =>
          by_cases hnil : line = []
          · have hnext := ih [] (by simp) (by simp) hrest
            rw [List.nil_append] at hnext
            have hrest' : framesOf (['\n'].intercalate (next :: lines)) =
                lineFrames {} (next :: lines) := hnext
            rw [hnil, lineFrames_blank, ← hrest']
            cases block with
            | nil =>
                rw [List.nil_append, List.intercalate_cons_cons]
                exact framesOf_newline _
            | cons first block =>
                rw [intercalate_append (by simp) (by simp), List.intercalate_cons_cons]
                exact framesOf_block (by simp) hblock _
          · have hnext := ih (block ++ [line]) (by simp) (by
              intro l hl
              rcases List.mem_append.mp hl with hmem | hmem
              · exact hblock l hmem
              · rw [List.mem_singleton.mp hmem]
                exact ⟨hnil, hline⟩) hrest
            rw [List.append_assoc, List.foldl_append] at hnext
            rw [lineFrames_cons_of_ne_nil _ hnil]
            exact hnext

/-- **The frames of a text**, line by line. -/
theorem framesOf_eq_lineFrames (t : Text) : framesOf t = lineFrames {} (t.splitOn '\n') := by
  have h := framesOf_intercalate [] (t.splitOn '\n') (List.splitOn_ne_nil _ _) (by simp)
    fun _ hl => not_mem_of_mem_splitOn hl
  rwa [List.nil_append, List.intercalate_splitOn] at h

/-! ## Fields -/

def fieldName (line : Text) : Text := line.takeWhile (· != ':')

/-- What follows the colon, less one space. -/
def fieldValue (line : Text) : Text :=
  let rest := (line.dropWhile (· != ':')).tail
  if rest.head? = some ' ' then rest.tail else rest

/-- The values of the fields of one name. -/
def valuesOf (name : Text) (lines : List Text) : List Text :=
  (lines.filter fun line => fieldName line = name).map fieldValue

/-- The fields of a block: the last event, the last id and all data. -/
def blockFields (block : Text) : SseFields where
  event := (valuesOf ['e', 'v', 'e', 'n', 't'] (block.splitOn '\n')).getLast?
  id := (valuesOf ['i', 'd'] (block.splitOn '\n')).getLast?
  data := valuesOf ['d', 'a', 't', 'a'] (block.splitOn '\n')

theorem valuesOf_cons (name line : Text) (lines : List Text) :
    valuesOf name (line :: lines) =
      (if fieldName line = name then [fieldValue line] else []) ++ valuesOf name lines := by
  rw [valuesOf, List.filter_cons]
  by_cases h : fieldName line = name
  · simp [h, valuesOf]
  · simp [h, valuesOf]

theorem getLast?_valuesOf_cons (name line : Text) (lines : List Text) (o : Option Text) :
    (valuesOf name (line :: lines)).getLast?.or o =
      (valuesOf name lines).getLast?.or
        (if fieldName line = name then some (fieldValue line) else o) := by
  rw [valuesOf_cons, List.getLast?_append, Option.or_assoc]
  by_cases h : fieldName line = name
  · simp [h]
  · simp [h]

/-- One line, by its field name. -/
theorem readLine_eq (fields : SseFields) (line : Text) :
    readLine fields line =
      { event := if fieldName line = ['e', 'v', 'e', 'n', 't'] then some (fieldValue line)
          else fields.event
        id := if fieldName line = ['i', 'd'] then some (fieldValue line) else fields.id
        data := fields.data ++
          if fieldName line = ['d', 'a', 't', 'a'] then [fieldValue line] else [] } := by
  rw [readLine]
  split
  · -- an empty line and a comment have the empty name
    rename_i h
    have hname : fieldName line = [] := by
      rcases h with rfl | h
      · rfl
      · obtain ⟨rest, rfl⟩ := List.head?_eq_some_iff.mp h
        rfl
    simp [hname]
  · show (if fieldName line = _ then ({ fields with data := fields.data ++ [fieldValue line] } : SseFields)
      else if fieldName line = _ then { fields with event := some (fieldValue line) }
      else if fieldName line = _ then { fields with id := some (fieldValue line) } else fields) = _
    by_cases hdata : fieldName line = ['d', 'a', 't', 'a']
    · simp [hdata]
    · by_cases hevent : fieldName line = ['e', 'v', 'e', 'n', 't']
      · simp [hevent]
      · by_cases hid : fieldName line = ['i', 'd']
        · simp [hid]
        · simp [hdata, hevent, hid]

theorem foldl_readLine_eq (fields : SseFields) (lines : List Text) :
    lines.foldl readLine fields =
      { event := (valuesOf ['e', 'v', 'e', 'n', 't'] lines).getLast?.or fields.event
        id := (valuesOf ['i', 'd'] lines).getLast?.or fields.id
        data := fields.data ++ valuesOf ['d', 'a', 't', 'a'] lines } := by
  induction lines generalizing fields with
  | nil => simp [valuesOf]
  | cons line lines ih =>
      rw [List.foldl_cons, ih, readLine_eq, getLast?_valuesOf_cons, getLast?_valuesOf_cons,
        valuesOf_cons, List.append_assoc]

theorem parseSseBlock_eq (block : Text) : parseSseBlock block = (blockFields block).frame := by
  have h := parseSseBlock_intercalate (List.splitOn_ne_nil '\n' block)
    fun _ hline => not_mem_of_mem_splitOn hline
  rw [List.intercalate_splitOn, foldl_readLine_eq] at h
  simpa [blockFields] using h

/-- The values of a block have no line feed in them. -/
theorem not_mem_blockFields (block : Text) : ∀ value ∈ (blockFields block).data, '\n' ∉ value := by
  intro value hvalue hmem
  obtain ⟨line, hline, rfl⟩ := List.mem_map.mp hvalue
  have hnl : '\n' ∉ line := not_mem_of_mem_splitOn (List.mem_of_mem_filter hline)
  have htail : '\n' ∈ (line.dropWhile (· != ':')).tail := by
    rw [fieldValue] at hmem
    split at hmem
    · exact List.mem_of_mem_tail hmem
    · exact hmem
  exact hnl ((List.dropWhile_suffix _).subset (List.mem_of_mem_tail htail))

end AgentRoom.Web
