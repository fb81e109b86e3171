import AgentRoom.Tools.Spill

set_option autoImplicit false

/-! # Spilled output can be read back

The in-memory store is a table that keeps the first writer of a reference, and the reference is
a hash of the payload encoded with `errors="replace"`. So a history of calls can be read back
exactly when no two of its spilled texts are encoded alike, that is, when no two of them differ
only in what a lone surrogate and a question mark are.
-/

namespace AgentRoom.Spill

open PyStr

/-! ## The reference a placeholder names -/

theorem space_notMem_hexdigest (d : Digest) : codePoint ' ' ∉ hexdigest d := by
  intro hmem
  obtain ⟨b, -, hb⟩ := List.mem_flatMap.mp hmem
  obtain ⟨c, hc, hspace⟩ := List.mem_map.mp hb
  have hdigit : ∀ k < 16, Nat.digitChar k ≠ ' ' := by decide
  have hlow := hdigit (b.toNat % 16) (Nat.mod_lt _ (by decide))
  have hhigh := hdigit (b.toNat / 16 % 16) (Nat.mod_lt _ (by decide))
  rw [codePoint_injective hspace, Py.hex2, String.toList_ofList] at hc
  simp only [List.mem_cons, List.not_mem_nil, or_false] at hc
  rcases hc with hc | hc
  · exact hhigh hc.symm
  · exact hlow hc.symm

theorem space_notMem_refOfBytes (sha256 : List UInt8 → Digest) (bytes : List UInt8) :
    codePoint ' ' ∉ refOfBytes sha256 bytes :=
  fun h => space_notMem_hexdigest _ (List.mem_of_mem_take h)

/-- The reference a placeholder names: what stands between the colon and the first blank. -/
def refNamed (placeholder : PyStr) : PyStr :=
  (placeholder.drop refBracket.length).takeWhile fun c => c ≠ codePoint ' '

theorem refNamed_placeholderText {r : SpillRef} (preview : PyStr) (h : codePoint ' ' ∉ r.ref) :
    refNamed (r.placeholderText preview) = r.ref := by
  have hsize : lit " size=" = codePoint ' ' :: lit "size=" := rfl
  have href : ∀ c ∈ r.ref, decide (c ≠ codePoint ' ') = true := by
    intro c hc
    exact decide_eq_true fun heq => h (heq ▸ hc)
  unfold refNamed SpillRef.placeholderText formatPlaceholder
  simp only [List.append_assoc, List.drop_left, hsize, List.cons_append]
  rw [List.takeWhile_append_of_pos href]
  simp

theorem looksLikePlaceholder_placeholderText (r : SpillRef) (preview : PyStr) :
    looksLikePlaceholder (r.placeholderText preview) = true := by
  unfold looksLikePlaceholder SpillRef.placeholderText formatPlaceholder
  rw [List.isPrefixOf_iff_prefix]
  simp only [List.append_assoc]
  exact List.prefix_append _ _

/-- A placeholder is never what was there before. -/
theorem placeholderMessage_content_ne {threshold : Int} {msg : ToolMessage} {body : PyStr}
    (r : SpillRef) (h : spilledBody threshold msg = some body) :
    (placeholderMessage r msg).content ≠ msg.content := by
  obtain ⟨hbody, -, hlook⟩ := spilledBody_eq_some_iff.mp h
  intro heq
  have hsame : stringify (placeholderMessage r msg).content = body := by rw [heq, hbody]
  have htext := looksLikePlaceholder_placeholderText r (makePreview (stringify msg.content))
  have hplace : stringify (placeholderMessage r msg).content =
      r.placeholderText (makePreview (stringify msg.content)) := rfl
  rw [← hplace, hsame, hlook] at htext
  cases htext

/-! ## Histories of calls -/

/-- A call of one of the two functions. -/
inductive SpillCall (ρ : Type*)
  | maybeSpillToolMessage (msg : ToolMessage) (threshold : Int)
  | spillMessages (messages : List (Message ρ)) (threshold : Int)

namespace SpillCall

variable {σ ρ : Type*}

/-- The messages a call is given. -/
def messages : SpillCall ρ → List (Message ρ)
  | maybeSpillToolMessage msg _ => [.tool msg]
  | spillMessages ms _ => ms

def threshold : SpillCall ρ → Int
  | maybeSpillToolMessage _ t => t
  | spillMessages _ t => t

/-- The messages a call returns, with the store after it. -/
def run (store : SpillStore σ) (s : σ) : SpillCall ρ → List (Message ρ) × σ
  | maybeSpillToolMessage msg t =>
      let out := Spill.maybeSpillToolMessage store t s msg
      ([.tool out.1], out.2)
  | spillMessages ms t => Spill.spillMessages store t s ms

/-- The bodies a call spills. -/
def bodies (c : SpillCall ρ) : List PyStr := spilledBodies c.threshold c.messages

/-- A single message is a list of one. -/
theorem run_eq (store : SpillStore σ) (s : σ) (c : SpillCall ρ) :
    c.run store s = Spill.spillMessages store c.threshold s c.messages := by
  cases c <;> rfl

end SpillCall

section Histories

variable {σ ρ : Type*}

/-- The store after a history of calls. -/
def stateAfter (store : SpillStore σ) (s : σ) (calls : List (SpillCall ρ)) : σ :=
  calls.foldl (fun s c => (c.run store s).2) s

/-- The texts a history spills: the bodies over their call's threshold that do not begin like a
placeholder. -/
def spilledTexts (calls : List (SpillCall ρ)) : List PyStr := calls.flatMap SpillCall.bodies

theorem stateAfter_eq (store : SpillStore σ) (s : σ) (calls : List (SpillCall ρ)) :
    stateAfter store s calls = store.putAll s (spilledTexts calls) := by
  induction calls generalizing s with
  | nil => rfl
  | cons c calls ih =>
      calc stateAfter store s (c :: calls)
          = stateAfter store (c.run store s).2 calls := rfl
        _ = store.putAll (store.putAll s c.bodies) (spilledTexts calls) := by
              rw [ih, SpillCall.run_eq, spillMessages_state]
              rfl
        _ = store.putAll s (spilledTexts (c :: calls)) := by
              exact List.foldl_append.symm

/-! ## The in-memory store -/

variable (sha256 : List UInt8 → Digest)

/-- The reference of a payload. -/
def refOf (payload : PyStr) : PyStr := refOfBytes sha256 (encodeReplace payload)

theorem put_data (store : InMemorySpillStore) (payload : PyStr) :
    (store.put sha256 payload).2.data = FirstWriter.put (refOf sha256) store.data payload := by
  unfold InMemorySpillStore.put FirstWriter.put refOf
  cases hcell : store.data (refOfBytes sha256 (encodeReplace payload)) with
  | none => simp only [hcell]
  | some existing => simp only [hcell]

/-- **The in-memory store is a table that keeps the first writer.** -/
theorem putAll_data (store : InMemorySpillStore) (bodies : List PyStr) :
    ((inMemory sha256).putAll store bodies).data =
      FirstWriter.putAll (refOf sha256) store.data bodies := by
  induction bodies generalizing store with
  | nil => rfl
  | cons body bodies ih =>
      calc ((inMemory sha256).putAll store (body :: bodies)).data
          = ((inMemory sha256).putAll (store.put sha256 body).2 bodies).data := rfl
        _ = FirstWriter.putAll (refOf sha256) store.data (body :: bodies) := by
              rw [ih, put_data]
              rfl

/-- What a reference gives after a history that began with an empty store. -/
theorem get_stateAfter (calls : List (SpillCall ρ)) (ref : PyStr) :
    (inMemory sha256).get (stateAfter (inMemory sha256) {} calls) ref =
      FirstWriter.putAll (refOf sha256) FirstWriter.empty (spilledTexts calls) ref := by
  rw [stateAfter_eq]
  exact congrFun (putAll_data sha256 {} (spilledTexts calls)) ref

/-! ## Recovering -/

/-- Whatever call of the history replaced a message's content, at that time and at any later
time the reference its placeholder names gives the original text. -/
def Recoverable (calls : List (SpillCall ρ)) : Prop :=
  ∀ before call later, before ++ call :: later <+: calls → ∀ m m',
    (Message.tool m, Message.tool m') ∈ call.messages.zip
      (call.run (inMemory sha256) (stateAfter (inMemory sha256) {} before)).1 →
    m'.content ≠ m.content →
      (inMemory sha256).get (stateAfter (inMemory sha256) {} (before ++ call :: later))
        (refNamed (stringify m'.content)) = some (stringify m.content)

/-- The pairs of a message and its replacement in one call. -/
theorem mem_zip_spillMessages {threshold : Int} {messages : List (Message ρ)}
    {s : InMemorySpillStore} {m m' : ToolMessage}
    (hmem : (Message.tool m, Message.tool m') ∈
      messages.zip (spillMessages (inMemory sha256) threshold s messages).1)
    (hne : m'.content ≠ m.content) :
    spilledBody threshold m = some (stringify m.content) ∧
      refNamed (stringify m'.content) = refOf sha256 (stringify m.content) := by
  induction messages generalizing s with
  | nil => cases hmem
  | cons msg rest ih =>
      cases msg with
      | other o =>
          rcases List.mem_cons.mp hmem with heq | hmem
          · cases heq
          · exact ih hmem
      | tool n =>
          rcases List.mem_cons.mp hmem with heq | hmem
          · obtain ⟨rfl, rfl⟩ : m = n ∧ m' = (maybeSpillToolMessage _ threshold s n).1 := by
              simpa using heq
            cases hbody : spilledBody threshold m with
            | none => exact absurd (by rw [maybeSpill_of_none s hbody]) hne
            | some body =>
                obtain ⟨rfl, -⟩ := spilledBody_eq_some_iff.mp hbody
                refine ⟨rfl, ?_⟩
                rw [maybeSpill_of_some s hbody]
                exact refNamed_placeholderText _ (space_notMem_refOfBytes sha256 _)
          · exact ih hmem

/-- Every spilled body of a call is the body of a replaced message. -/
theorem exists_mem_zip_spillMessages {threshold : Int} {messages : List (Message ρ)}
    {s : InMemorySpillStore} {body : PyStr} (hmem : body ∈ spilledBodies threshold messages) :
    ∃ m m', (Message.tool m, Message.tool m') ∈
      messages.zip (spillMessages (inMemory sha256) threshold s messages).1 ∧
      m'.content ≠ m.content ∧ stringify m.content = body := by
  induction messages generalizing s with
  | nil => cases hmem
  | cons msg rest ih =>
      cases msg with
      | other o =>
          obtain ⟨m, m', hzip, h⟩ := ih hmem
          exact ⟨m, m', List.mem_cons_of_mem _ hzip, h⟩
      | tool n =>
          cases hbody : spilledBody threshold n with
          | none =>
              rw [spilledBodies_tool_of_none rest hbody] at hmem
              obtain ⟨m, m', hzip, h⟩ := ih hmem
              exact ⟨m, m', List.mem_cons_of_mem _ hzip, h⟩
          | some b =>
              rw [spilledBodies_tool_of_some rest hbody] at hmem
              rcases List.mem_cons.mp hmem with rfl | hmem
              · refine ⟨n, _, List.mem_cons_self, ?_, (spilledBody_eq_some_iff.mp hbody).1⟩
                rw [maybeSpill_of_some s hbody]
                exact placeholderMessage_content_ne _ hbody
              · obtain ⟨m, m', hzip, h⟩ := ih hmem
                exact ⟨m, m', List.mem_cons_of_mem _ hzip, h⟩

theorem mem_spilledTexts {calls : List (SpillCall ρ)} {body : PyStr} :
    body ∈ spilledTexts calls ↔
      ∃ before call later, calls = before ++ call :: later ∧ body ∈ call.bodies := by
  unfold spilledTexts
  rw [List.mem_flatMap]
  constructor
  · rintro ⟨call, hcall, hbody⟩
    obtain ⟨before, later, hsplit⟩ := List.append_of_mem hcall
    exact ⟨before, call, later, hsplit, hbody⟩
  · rintro ⟨before, call, later, rfl, hbody⟩
    exact ⟨call, List.mem_append_right _ List.mem_cons_self, hbody⟩

/-- A history is recoverable when at every time every text spilled so far is found. -/
theorem recoverable_iff_reads_back (calls : List (SpillCall ρ)) :
    Recoverable sha256 calls ↔ ∀ sofar, sofar <+: calls → ∀ body ∈ spilledTexts sofar,
      FirstWriter.putAll (refOf sha256) FirstWriter.empty (spilledTexts sofar)
        (refOf sha256 body) = some body := by
  constructor
  · intro hrec sofar hsofar body hbody
    obtain ⟨before, call, later, rfl, hcall⟩ := mem_spilledTexts.mp hbody
    obtain ⟨m, m', hzip, hne, rfl⟩ := exists_mem_zip_spillMessages sha256
      (s := stateAfter (inMemory sha256) {} before) hcall
    rw [← SpillCall.run_eq] at hzip
    have hget := hrec before call later hsofar m m' hzip hne
    rw [SpillCall.run_eq] at hzip
    rwa [get_stateAfter, (mem_zip_spillMessages sha256 hzip hne).2] at hget
  · intro hback before call later hsofar m m' hzip hne
    rw [SpillCall.run_eq] at hzip
    obtain ⟨hbody, href⟩ := mem_zip_spillMessages sha256 hzip hne
    rw [get_stateAfter, href]
    refine hback _ hsofar _ (mem_spilledTexts.mpr ⟨before, call, later, rfl, ?_⟩)
    have hin : Message.tool m ∈ call.messages := (List.of_mem_zip hzip).1
    exact mem_spilledBodies.mpr ⟨m, hin, hbody⟩

theorem spilledTexts_subset {sofar calls : List (SpillCall ρ)} (h : sofar <+: calls) :
    ∀ body ∈ spilledTexts sofar, body ∈ spilledTexts calls := by
  obtain ⟨later, rfl⟩ := h
  intro body hbody
  rw [spilledTexts, List.flatMap_append]
  exact List.mem_append_left _ hbody

/-- The references tell the spilled texts apart iff everything can be read back. -/
theorem recoverable_iff_injOn (calls : List (SpillCall ρ)) :
    Recoverable sha256 calls ↔ Set.InjOn (refOf sha256) {body | body ∈ spilledTexts calls} := by
  rw [recoverable_iff_reads_back]
  constructor
  · intro hback
    exact FirstWriter.reads_back_iff.mp (hback calls (List.prefix_refl _))
  · intro hinj sofar hsofar
    refine FirstWriter.reads_back_iff.mpr (hinj.mono ?_)
    exact spilledTexts_subset hsofar

/-- No two of the spilled texts differ only in surrogates and question marks. -/
def TellsSurrogatesApart (calls : List (SpillCall ρ)) : Prop :=
  ∀ body ∈ spilledTexts calls, ∀ body' ∈ spilledTexts calls,
    body.map asQuestionMark = body'.map asQuestionMark → body = body'

end Histories

/-- **Spilled output is recoverable** exactly when no two spilled texts differ only in what a
surrogate and a question mark are; the hash prefix is taken to tell the byte strings of the
history apart. -/
theorem spilled_recoverable_iff {ρ : Type*} (sha256 : List UInt8 → Digest)
    (calls : List (SpillCall ρ))
    (hinj : Set.InjOn (refOfBytes sha256) (encodeReplace '' {body | body ∈ spilledTexts calls})) :
    Recoverable sha256 calls ↔ TellsSurrogatesApart calls := by
  rw [recoverable_iff_injOn]
  constructor
  · intro href body hbody body' hbody' hmap
    have hbytes := encodeReplace_eq_iff.mpr hmap
    exact href hbody hbody' (congrArg (refOfBytes sha256) hbytes)
  · intro hapart body hbody body' hbody' href
    have hbytes : encodeReplace body = encodeReplace body' :=
      hinj (Set.mem_image_of_mem _ hbody) (Set.mem_image_of_mem _ hbody') href
    exact hapart body hbody body' hbody' (encodeReplace_eq_iff.mp hbytes)

/-! ## Two histories -/

def failedOutput : PyStr := lit "pytest: 3 failed"

def okOutput : PyStr := lit "pytest: ok"

/-- The SHA-256 of the two outputs. -/
def recordedSha256 (bytes : List UInt8) : Digest :=
  if bytes = encodeReplace okOutput then
    ⟨[69, 226, 154, 253, 241, 14, 36, 162, 224, 47, 78, 45, 32, 154, 207, 73, 40, 31, 80, 124, 196,
      41, 251, 101, 220, 251, 98, 157, 246, 172, 230, 4], rfl⟩
  else
    ⟨[91, 153, 8, 242, 38, 57, 229, 137, 135, 126, 185, 146, 29, 44, 190, 110, 9, 231, 85, 1, 235,
      171, 128, 29, 74, 154, 105, 201, 215, 132, 102, 34], rfl⟩

/-- A failing run is spilled, then a list with the passing one, as a text block, and the failing
one again. -/
def testRuns : List (SpillCall Unit) :=
  [.maybeSpillToolMessage { content := .str failedOutput, toolCallId := lit "c1" } 8,
   .spillMessages
     [.other (),
      .tool { content := .blocks [.dict [(lit "text", .str okOutput)] []], toolCallId := lit "c2" },
      .tool { content := .str failedOutput, toolCallId := lit "c1" }] 8]

theorem spilledTexts_testRuns : spilledTexts testRuns = [failedOutput, okOutput, failedOutput] := by
  decide +kernel

theorem testRuns_recoverable : Recoverable recordedSha256 testRuns := by
  have hrefs : ∀ body ∈ [failedOutput, okOutput, failedOutput],
      ∀ body' ∈ [failedOutput, okOutput, failedOutput],
      refOf recordedSha256 body = refOf recordedSha256 body' →
        encodeReplace body = encodeReplace body' := by
    decide +kernel
  have hapart : ∀ body ∈ [failedOutput, okOutput, failedOutput],
      ∀ body' ∈ [failedOutput, okOutput, failedOutput],
      body.map asQuestionMark = body'.map asQuestionMark → body = body' := by
    decide +kernel
  refine (spilled_recoverable_iff recordedSha256 testRuns ?_).mpr ?_
  · rw [spilledTexts_testRuns]
    rintro _ ⟨body, hbody, rfl⟩ _ ⟨body', hbody', rfl⟩ href
    exact hrefs body hbody body' hbody' href
  · rw [TellsSurrogatesApart, spilledTexts_testRuns]
    exact hapart

/-- What a tool reads from a file name that is not UTF-8. -/
def surrogateOutput : PyStr := lit "caf" ++ [0xdce9]

def questionOutput : PyStr := lit "caf?"

/-- The two outputs of one threshold. -/
def fileNames : List (SpillCall Unit) :=
  [.maybeSpillToolMessage { content := .str surrogateOutput, toolCallId := lit "c1" } 3,
   .maybeSpillToolMessage { content := .str questionOutput, toolCallId := lit "c2" } 3]

/-- **The second output is lost**, whatever the hash: its reference gives the first one. -/
theorem question_mark_shadowed :
    surrogateOutput ≠ questionOutput ∧
    ∀ sha256, ¬ Recoverable sha256 fileNames ∧
      (inMemory sha256).get (stateAfter (inMemory sha256) {} fileNames)
        (refOf sha256 questionOutput) = some surrogateOutput := by
  have hne : surrogateOutput ≠ questionOutput := by decide
  have hbytes : encodeReplace surrogateOutput = encodeReplace questionOutput := by decide +kernel
  have htexts : spilledTexts fileNames = [surrogateOutput, questionOutput] := by decide +kernel
  refine ⟨hne, fun sha256 => ?_⟩
  have href : refOf sha256 surrogateOutput = refOf sha256 questionOutput :=
    congrArg (refOfBytes sha256) hbytes
  constructor
  · intro hrec
    rw [recoverable_iff_injOn, htexts] at hrec
    exact hne (hrec (by simp) (by simp) href)
  · have hfirst := List.find?_cons_of_pos (l := [questionOutput])
      (p := fun body => refOf sha256 body = refOf sha256 questionOutput) (decide_eq_true href)
    rw [get_stateAfter, htexts, FirstWriter.putAll_apply, hfirst]
    rfl

end AgentRoom.Spill
