import AgentRoom.Web.Sse

set_option autoImplicit false

/-! # The parser depends on the accumulated text only

However the bytes are cut into chunks, the frames are those of the accumulated text
(`parseSseStream_eq`). Where no line ends with a carriage return the accumulated text is the
decoded stream; in general it is the stream with every CRLF pair that is not cut in two replaced
by a line feed (`normalized`).
-/

namespace AgentRoom.Web

/-! ## Blocks of a growing buffer -/

/-- What is left of a buffer has no boundary. -/
theorem cutBlocks_eq_of_nil {t : Text} (h : (cutBlocks t).1 = []) : (cutBlocks t).2 = t := by
  induction t using cutBlocks.induct with
  | case1 => rfl
  | case2 rest ih => simp [cutBlocks] at h
  | case3 c rest hb block blocks buffer heq ih =>
      rw [cutBlocks, heq] at h
      · simp at h
      · exact hb
  | case4 c rest hb buffer heq ih =>
      rw [heq] at ih
      have htail : buffer = rest := ih rfl
      rw [cutBlocks, heq]
      · rw [htail]
      · exact hb

/-- More text after a buffer: its blocks stay, and what is left of it is continued. -/
theorem cutBlocks_append (t u : Text) :
    cutBlocks (t ++ u) = ((cutBlocks t).1 ++ (cutBlocks ((cutBlocks t).2 ++ u)).1,
      (cutBlocks ((cutBlocks t).2 ++ u)).2) := by
  induction t using cutBlocks.induct with
  | case1 => rfl
  | case2 rest ih =>
      show cutBlocks ('\n' :: '\n' :: (rest ++ u)) = _
      rw [cutBlocks, ih]
      rfl
  | case3 c rest hb block blocks buffer heq ih =>
      -- `rest` is not empty, so the text after it makes no boundary with `c`
      have hb' : ∀ rest', c = '\n' → rest ++ u = '\n' :: rest' → False := by
        intro rest' hc hrest
        cases rest with
        | nil => simp [cutBlocks] at heq
        | cons x rest =>
            cases hrest
            exact hb rest hc rfl
      rw [heq] at ih
      show cutBlocks (c :: (rest ++ u)) = _
      rw [cutBlocks, ih, cutBlocks, heq]
      · rfl
      · exact hb
      · exact hb'
  | case4 c rest hb buffer heq ih =>
      have hsame : (cutBlocks (c :: rest)).1 = [] := by
        rw [cutBlocks, heq]
        exact hb
      rw [cutBlocks_eq_of_nil hsame, hsame, List.nil_append]

theorem cutBlocks_buffer (t : Text) : (cutBlocks (cutBlocks t).2).1 = [] := by
  have h := congrArg Prod.fst (cutBlocks_append t [])
  simp only [List.append_nil] at h
  exact List.append_right_eq_self.mp h.symm

/-! ## The accumulated text -/

/-- What the decoder gives for each chunk, and at the end. -/
def textsOf (td : TextDecoder) : List (List UInt8) → List Text
  | [] => [(td.decode [] false).2]
  | chunk :: chunks => (td.decode chunk true).2 :: textsOf (td.decode chunk true).1 chunks

/-- The frames of a text. -/
def framesOf (t : Text) : List SseFrame :=
  (cutBlocks t).1.filterMap parseSseBlock ++ (parseSseBlock (cutBlocks t).2).toList

theorem framesOf_append (t u : Text) :
    framesOf (t ++ u) =
      (cutBlocks t).1.filterMap parseSseBlock ++ framesOf ((cutBlocks t).2 ++ u) := by
  rw [framesOf, cutBlocks_append, List.filterMap_append, List.append_assoc]
  rfl

theorem run_eq (p : SseParser) (hbuffer : (cutBlocks p.buffer).1 = [])
    (chunks : List (List UInt8)) :
    p.run chunks = framesOf (p.buffer ++ ((textsOf p.decoder chunks).map replaceCrlf).flatten) := by
  induction chunks generalizing p with
  | nil =>
      rw [SseParser.run, SseParser.finish, textsOf]
      simp only [List.map_cons, List.map_nil, List.flatten_cons, List.flatten_nil, List.append_nil]
      rfl
  | cons chunk chunks ih =>
      rw [SseParser.run, ih _ (cutBlocks_buffer _), textsOf, List.map_cons, List.flatten_cons,
        ← List.append_assoc]
      exact (framesOf_append _ _).symm

/-- **The frames are those of the accumulated text.** -/
theorem parseSseStream_eq (chunks : List (List UInt8)) :
    parseSseStream chunks = framesOf ((textsOf {} chunks).map replaceCrlf).flatten :=
  run_eq {} rfl chunks

/-! ## Decoding chunk by chunk -/

/-- The decoder drops a byte order mark at the start of its output. -/
def stripBom (bomSeen : Bool) (t : Text) : Text :=
  if bomSeen = false ∧ t.head? = some '\ufeff' then t.tail else t

theorem stripBom_append (bomSeen : Bool) (t u : Text) :
    stripBom bomSeen (t ++ u) = stripBom bomSeen t ++ stripBom (bomSeen || !t.isEmpty) u := by
  cases t with
  | nil =>
      have hsame : (bomSeen || !([] : Text).isEmpty) = bomSeen := by simp
      rw [hsame]
      simp [stripBom]
  | cons c t =>
      have hseen : (bomSeen || !(c :: t).isEmpty) = true := by simp
      rw [hseen]
      by_cases h : bomSeen = false ∧ c = '\ufeff'
      · simp [stripBom, h]
      · simp [stripBom, h]

theorem stripBom_of_head {bomSeen : Bool} {t : Text}
    (h : bomSeen = true ∨ t.head? ≠ some '\ufeff') : stripBom bomSeen t = t := by
  rw [stripBom, if_neg]
  rintro ⟨hseen, hhead⟩
  rcases h with h | h
  · rw [h] at hseen
    cases hseen
  · exact h hhead

/-- The text of a chunk. -/
theorem decode_chunk (td : TextDecoder) (chunk : List UInt8) :
    td.decode chunk true =
      (⟨(Utf8.decode td.decoder chunk).1,
        td.bomSeen || !(Utf8.decode td.decoder chunk).2.isEmpty⟩,
        stripBom td.bomSeen (Utf8.decode td.decoder chunk).2) := by
  simp only [TextDecoder.decode, if_true, List.append_nil]
  rfl

/-- The texts of the chunks make up the text of the bytes. -/
theorem textsOf_flatten (td : TextDecoder) (chunks : List (List UInt8)) :
    (textsOf td chunks).flatten = stripBom td.bomSeen
      ((Utf8.decode td.decoder chunks.flatten).2 ++
        Utf8.flush (Utf8.decode td.decoder chunks.flatten).1) := by
  induction chunks generalizing td with
  | nil =>
      rw [textsOf, List.flatten_cons, List.flatten_nil, List.append_nil]
      rfl
  | cons chunk chunks ih =>
      rw [textsOf, List.flatten_cons, ih, decode_chunk, List.flatten_cons, Utf8.decode_append]
      simp only [List.append_assoc]
      exact (stripBom_append _ _ _).symm

/-! ## Cuts between carriage return and line feed -/

/-- A chunk ends, or the first one starts, at offset `n`. -/
def cutAt {α : Type*} : List (List α) → Nat → Bool
  | [], n => n == 0
  | chunk :: chunks, n => n == 0 || (chunk.length ≤ n && cutAt chunks (n - chunk.length))

theorem cutAt_zero {α : Type*} (chunks : List (List α)) : cutAt chunks 0 = true := by
  cases chunks <;> simp [cutAt]

/-- Offsets after the first chunk. -/
theorem cutAt_cons_ge {α : Type*} {chunk : List α} {n : Nat} (h : chunk.length ≤ n)
    (chunks : List (List α)) : cutAt (chunk :: chunks) n = cutAt chunks (n - chunk.length) := by
  rw [cutAt]
  by_cases hn : n = 0
  · simp [hn, cutAt_zero]
  · simp [hn, h]

/-- Offsets inside the first chunk. -/
theorem cutAt_cons_lt {α : Type*} {chunk : List α} {n : Nat} (hpos : 0 < n)
    (h : n < chunk.length) (chunks : List (List α)) : cutAt (chunk :: chunks) n = false := by
  rw [cutAt, Bool.or_eq_false_iff, Bool.and_eq_false_iff]
  exact ⟨by simpa using by omega, Or.inl (by simpa using h)⟩

/-- The accumulated text of a stream: a CRLF pair becomes a line feed unless it is cut. -/
def normalized (cut : Nat → Bool) : Nat → Text → Text
  | _, [] => []
  | p, '\r' :: '\n' :: rest =>
      (if cut (p + 1) then ['\r', '\n'] else ['\n']) ++ normalized cut (p + 2) rest
  | p, c :: rest => c :: normalized cut (p + 1) rest

theorem normalized_cons (cut : Nat → Bool) (p : Nat) {c : Char} {rest : Text}
    (h : c = '\r' → rest.head? ≠ some '\n') :
    normalized cut p (c :: rest) = c :: normalized cut (p + 1) rest := by
  rw [normalized]
  intro rest' hc hrest
  exact h hc (by rw [hrest]; rfl)

/-- Within a chunk nothing is cut. -/
theorem normalized_chunk {cut : Nat → Bool} {n : Nat} (hend : cut n = true) (t rest : Text)
    (p : Nat) (hp : p + t.length = n) (hfree : ∀ q, p < q → q < n → cut q = false) :
    normalized cut p (t ++ rest) = replaceCrlf t ++ normalized cut n rest := by
  induction t using replaceCrlf.induct generalizing p with
  | case1 =>
      have hpn : p = n := by simpa using hp
      rw [hpn]
      rfl
  | case2 t ih =>
      have hlen : p + (t.length + 2) = n := by simpa using hp
      have hmid : cut (p + 1) = false := hfree (p + 1) (by omega) (by omega)
      show normalized cut p ('\r' :: '\n' :: (t ++ rest)) = _
      rw [normalized, hmid, replaceCrlf, ih (p + 2) (by omega) fun q hq => hfree q (by omega)]
      rfl
  | case3 c t hpair ih =>
      have hlen : p + (t.length + 1) = n := by simpa using hp
      have hnext := ih (p + 1) (by omega) fun q hq => hfree q (by omega)
      have hreplace : replaceCrlf (c :: t) = c :: replaceCrlf t := by
        rw [replaceCrlf]
        exact hpair
      rw [hreplace]
      show normalized cut p (c :: (t ++ rest)) = c :: (replaceCrlf t ++ _)
      cases t with
      | nil =>
          have hn : p + 1 = n := by simpa using hlen
          by_cases hcr : c = '\r' ∧ rest.head? = some '\n'
          · -- the pair is cut here
            obtain ⟨rfl, hhead⟩ := hcr
            cases rest with
            | nil => cases hhead
            | cons x rest =>
                cases hhead
                show normalized cut p ('\r' :: '\n' :: rest) = _
                rw [normalized, hn, hend, ← hn,
                  normalized_cons cut (p + 1) (fun h => absurd h (by decide))]
                rfl
          · show normalized cut p (c :: rest) = _
            rw [normalized_cons cut p (fun hc hhead => hcr ⟨hc, hhead⟩)]
            exact congrArg (c :: ·) hnext
      | cons x t =>
          rw [normalized_cons cut p ?_, hnext]
          intro hc hhead
          exact hpair t hc (by cases hhead; rfl)

/-- Offsets may be counted from anywhere. -/
theorem normalized_shift (cut : Nat → Bool) (n p : Nat) (t : Text) :
    normalized cut (p + n) t = normalized (fun q => cut (q + n)) p t := by
  induction t using replaceCrlf.induct generalizing p with
  | case1 => rfl
  | case2 t ih =>
      have h1 : p + n + 1 = p + 1 + n := by omega
      have h2 : p + n + 2 = p + 2 + n := by omega
      rw [normalized, normalized, h1, h2, ih]
  | case3 c t hpair ih =>
      have h1 : p + n + 1 = p + 1 + n := by omega
      have hhead : c = '\r' → t.head? ≠ some '\n' := by
        intro hc hhead
        cases t with
        | nil => cases hhead
        | cons x t =>
            cases hhead
            exact hpair t hc rfl
      rw [normalized_cons _ _ hhead, normalized_cons _ _ hhead, h1, ih]

/-- **The accumulated text.** -/
theorem replaceCrlf_flatten (texts : List Text) :
    (texts.map replaceCrlf).flatten = normalized (cutAt texts) 0 texts.flatten := by
  induction texts with
  | nil => rfl
  | cons t texts ih =>
      have hend : cutAt (t :: texts) t.length = true := by
        rw [cutAt_cons_ge (Nat.le_refl _), Nat.sub_self, cutAt_zero]
      have hfree : ∀ q, 0 < q → q < t.length → cutAt (t :: texts) q = false :=
        fun q hpos hlt => cutAt_cons_lt hpos hlt texts
      have hshift : (fun q => cutAt (t :: texts) (q + t.length)) = cutAt texts := by
        funext q
        rw [cutAt_cons_ge (Nat.le_add_left _ _), Nat.add_sub_cancel]
      rw [List.map_cons, List.flatten_cons, List.flatten_cons, ih,
        normalized_chunk hend t texts.flatten 0 (by omega) hfree]
      have h0 := normalized_shift (cutAt (t :: texts)) t.length 0 texts.flatten
      rw [Nat.zero_add] at h0
      rw [h0, hshift]

end AgentRoom.Web
