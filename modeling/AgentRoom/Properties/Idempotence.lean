import AgentRoom.Context.Partition
import AgentRoom.Context.Tokens

set_option autoImplicit false

/-! # Compressing twice

A second pass over a compressed list changes nothing when the result is within the budget. A
message budget leaves room for both bands and the marker. A token budget leaves room for
nothing: a long last message, a long head or the marker itself can put the result over it, and
then the second pass counts the marker as one more omitted message.
-/

namespace AgentRoom

variable (count : Message → Nat)

namespace WindowedContextEngine

/-! ## Fixed points -/

/-- The tokens left to the tail after a head. -/
def tailBudget (e : WindowedContextEngine) (n : Int) (r : ℚ) (head : List Message) : Int :=
  e.share (n - countTokens count head) r

/-- The marker for a single message. -/
def singleMarker : Message := .human (truncatedText 1)

/-- What follows the head gives the engine nothing to drop, or only a marker for a single
message. -/
def Stuck (budget : Int) (rest : List Message) : Prop :=
  (FitsTail count budget rest ∧ rest.head?.any Message.isTool = false) ∨
    ∃ x xs, rest = singleMarker :: x :: xs ∧ x.isTool = false ∧ FitsTail count budget (x :: xs)

/-- The tail taken from `rest`. -/
def tailOf (budget : Int) (rest : List Message) : List Message :=
  (growTail count budget rest.reverse [] 0).dropWhile Message.isTool

theorem dropWhile_isTool_of_head {ms : List Message} (h : ms.head?.any Message.isTool = false) :
    ms.dropWhile Message.isTool = ms := by
  cases ms with
  | nil => rfl
  | cons m ms =>
      have hm : m.isTool = false := by simpa using h
      rw [List.dropWhile_cons, hm]
      rfl

theorem head_dropWhile_isTool (ms : List Message) :
    (ms.dropWhile Message.isTool).head?.any Message.isTool = false := by
  have h := List.head?_dropWhile_not Message.isTool ms
  cases hd : (ms.dropWhile Message.isTool).head? with
  | none => rfl
  | some m =>
      rw [hd] at h
      simpa using h

/-- The tail is grown over everything exactly when everything fits. -/
theorem growTail_eq_self_iff {budget : Int} {rest : List Message} :
    growTail count budget rest.reverse [] 0 = rest ↔ FitsTail count budget rest := by
  have hsuffix : growTail count budget rest.reverse [] 0 <:+ rest := by
    have h := growTail_suffix count budget rest.reverse [] 0
    rwa [List.reverse_reverse, List.append_nil] at h
  constructor
  · intro hg
    have hfits : FitsTail count budget (growTail count budget rest.reverse [] 0) :=
      growTail_fits count budget rest.reverse [] 0 rfl (Or.inl (by simp))
    rwa [hg] at hfits
  · intro hfits
    have hmax := growTail_maximal count budget rest.reverse [] rest 0 rfl (by simp) hfits
    exact hsuffix.eq_of_length_le hmax.length_le

/-- What is kept of a rest: all of it, or all but a leading marker for a single message, exactly
when it is stuck. -/
theorem tailOf_eq_iff {budget : Int} {rest : List Message} :
    (tailOf count budget rest = rest ∨ rest = singleMarker :: tailOf count budget rest) ↔
      Stuck count budget rest := by
  have hsuffix : growTail count budget rest.reverse [] 0 <:+ rest := by
    have h := growTail_suffix count budget rest.reverse [] 0
    rwa [List.reverse_reverse, List.append_nil] at h
  have hall := @growTail_eq_self_iff count budget rest
  have hdrop : tailOf count budget rest <:+ growTail count budget rest.reverse [] 0 :=
    List.dropWhile_suffix _
  have hhead : (tailOf count budget rest).head?.any Message.isTool = false :=
    head_dropWhile_isTool _
  constructor
  · rintro (hsame | hmarker)
    · -- nothing is dropped, so the rest fits
      rw [hsame] at hhead hdrop
      exact Or.inl ⟨hall.mp (hsuffix.eq_of_length_le hdrop.length_le), hhead⟩
    · have hfirst : rest.head?.any Message.isTool = false := by
        rw [hmarker]
        rfl
      by_cases hg : growTail count budget rest.reverse [] 0 = rest
      · exact Or.inl ⟨hall.mp hg, hfirst⟩
      · have hlen : rest.length = (tailOf count budget rest).length + 1 := by
          rw [congrArg List.length hmarker, List.length_cons]
        have hlt : (growTail count budget rest.reverse [] 0).length < rest.length := by
          refine lt_of_le_of_ne hsuffix.length_le ?_
          intro hl
          exact hg (hsuffix.eq_of_length_le hl.ge)
        have htail : tailOf count budget rest = growTail count budget rest.reverse [] 0 :=
          hdrop.eq_of_length_le (by omega)
        cases hkept : tailOf count budget rest with
        | nil =>
            -- a marker alone would have been kept
            have hone : rest.length ≤ 1 := by simp [hlen, hkept]
            exact absurd (hall.mpr (Or.inl hone)) hg
        | cons x xs =>
            have hfits := growTail_fits count budget rest.reverse [] 0 rfl (Or.inl (by simp))
            rw [hkept] at hmarker hhead htail
            rw [← htail] at hfits
            exact Or.inr ⟨x, xs, hmarker, by simpa using hhead, hfits⟩
  · rintro (⟨hfits, hfirst⟩ | ⟨x, xs, hrest, hx, hxs⟩)
    · left
      rw [tailOf, hall.mpr hfits]
      exact dropWhile_isTool_of_head hfirst
    · have hkept : x :: xs <:+ growTail count budget rest.reverse [] 0 := by
        refine growTail_maximal count budget rest.reverse [] (x :: xs) 0 rfl ?_ hxs
        rw [List.reverse_reverse, List.append_nil, hrest]
        exact List.suffix_cons _ _
      by_cases hg : growTail count budget rest.reverse [] 0 = rest
      · left
        rw [tailOf, hg, hrest]
        rfl
      · right
        have hlen : rest.length = (x :: xs).length + 1 := by rw [hrest, List.length_cons]
        have hne : (growTail count budget rest.reverse [] 0).length ≠ rest.length := fun hl =>
          hg (hsuffix.eq_of_length_le hl.ge)
        have hle := hsuffix.length_le
        have hsame : x :: xs = growTail count budget rest.reverse [] 0 :=
          hkept.eq_of_length_le (by omega)
        have htail : tailOf count budget rest = x :: xs := by
          rw [tailOf, ← hsame]
          exact dropWhile_isTool_of_head (by simpa using hx)
        rw [htail, hrest]

variable (e : WindowedContextEngine) (ms : List Message)

theorem tail_of_maxTokens {n : Int} {r : ℚ} (hb : e.budget = .maxTokens n r) :
    e.tail count ms =
      tailOf count (tailBudget count e n r (e.head ms)) (ms.drop (e.head ms).length) := by
  rw [tail, protectedTail, hb]
  rfl

end WindowedContextEngine

open WindowedContextEngine

variable {count}

/-- Over a token budget, compressing leaves exactly the lists with a stuck rest as they are. -/
theorem compress_eq_self_iff {e : WindowedContextEngine} {n : Int} {r : ℚ}
    (hb : e.budget = .maxTokens n r) {ms : List Message} (hs : e.shouldCompress count ms = true) :
    (ContextEngine.windowed e).compress count ms = ms ↔
      Stuck count (tailBudget count e n r (e.head ms)) (ms.drop (e.head ms).length) := by
  have hsplit : e.head ms ++ ms.drop (e.head ms).length = ms := by
    conv_rhs => rw [← List.take_append_drop (e.head ms).length ms]
    rw [← List.prefix_iff_eq_take.mp (e.head_isPrefix ms)]
  have hrest := e.middle_append_tail count ms hs
  rw [← tailOf_eq_iff, ← tail_of_maxTokens count e ms hb]
  by_cases hm : (e.partition count ms).middle = []
  · -- nothing is dropped
    rw [hm, List.nil_append] at hrest
    have hsame : (ContextEngine.windowed e).compress count ms = ms :=
      ContextEngine.compress_of_middle_eq_nil hm
    exact iff_of_true hsame (Or.inl hrest)
  · rw [ContextEngine.compress_of_middle_ne_nil hs hm]
    have hne : e.tail count ms ≠ ms.drop (e.head ms).length := by
      intro heq
      rw [← hrest] at heq
      have := congrArg List.length heq
      rw [List.length_append] at this
      have := List.length_pos_of_ne_nil hm
      omega
    constructor
    · intro heq
      -- the middle is the one message the marker replaces, and equal to it
      have hmiddle : (ContextEngine.windowed e).buildMarker (e.partition count ms).middle ::
          e.tail count ms = (e.partition count ms).middle ++ e.tail count ms := by
        refine (List.append_right_inj (e.head ms)).mp ?_
        rw [e.partition_append count ms hs]
        exact heq
      have hlen : (e.partition count ms).middle.length = 1 := by
        have := congrArg List.length hmiddle
        rw [List.length_append, List.length_cons] at this
        omega
      right
      rw [← hrest, ← hmiddle, ContextEngine.buildMarker, hlen]
      rfl
    · rintro (hall | hmarker)
      · exact absurd hall hne
      · have hmid : (e.partition count ms).middle = [singleMarker] := by
          refine (List.append_left_inj (e.tail count ms)).mp ?_
          rw [hrest, hmarker]
          rfl
        have hsingle : (ContextEngine.windowed e).buildMarker (e.partition count ms).middle =
            singleMarker := by
          rw [hmid]
          rfl
        show e.head ms ++ (ContextEngine.windowed e).buildMarker (e.partition count ms).middle ::
          e.tail count ms = ms
        rw [hsingle, ← hmarker, hsplit]

/-! ## The second pass -/

namespace WindowedContextEngine

/-- Without calls at its end, a list stays in front of whatever is kept of its continuation. -/
theorem rdropWhile_append_of_eq {α : Type*} {p : α → Bool} {l : List α}
    (hl : l.rdropWhile p = l) (xs : List α) : (l ++ xs).rdropWhile p = l ++ xs.rdropWhile p := by
  induction xs using List.reverseRecOn with
  | nil => simpa using hl
  | append_singleton xs x ih =>
      rw [← List.append_assoc]
      by_cases hx : p x = true
      · rw [List.rdropWhile_concat_pos _ _ _ hx, List.rdropWhile_concat_pos _ _ _ hx, ih]
      · rw [List.rdropWhile_concat_neg _ _ _ hx, List.rdropWhile_concat_neg _ _ _ hx,
          List.append_assoc]

variable (count) (e : WindowedContextEngine) (ms : List Message)

/-- What stands after the protected head once the middle is replaced. -/
def afterHead : List Message :=
  .human (truncatedText (e.partition count ms).middle.length) :: e.tail count ms

/-- The part of it that the protected head of a second pass reaches. -/
def absorbed : List Message :=
  ((e.afterHead count ms).take (e.protectFirstN - (e.head ms).length)).rdropWhile
    Message.isAiWithToolCalls

/-- The part of it that a second pass may drop. -/
def exposed : List Message :=
  (e.afterHead count ms).drop (e.absorbed count ms).length

/-- When a second pass has nothing to do. A message budget always leaves room for the marker.
Under a token budget, either nothing is dropped at all, or head, marker and tail fit the budget,
or what the head of a second pass does not reach is stuck. -/
def Settles : Prop :=
  match e.budget with
  | .maxMessages _ => True
  | .maxTokens n r =>
      (countTokens count ms : Int) ≤ n ∨ (e.partition count ms).middle = [] ∨
        (countTokens count (e.head ms) + countTokens count (e.afterHead count ms) : Int) ≤ n ∨
          Stuck count (tailBudget count e n r (e.head ms ++ e.absorbed count ms))
            (e.exposed count ms)

theorem absorbed_append_exposed :
    e.absorbed count ms ++ e.exposed count ms = e.afterHead count ms := by
  have hpre : e.absorbed count ms <+: e.afterHead count ms :=
    (List.rdropWhile_prefix _ _).trans (List.take_prefix _ _)
  rw [exposed]
  conv_rhs => rw [← List.take_append_drop (e.absorbed count ms).length (e.afterHead count ms)]
  rw [← List.prefix_iff_eq_take.mp hpre]

/-- The head of a second pass: the old head and what it reaches of the marker and the tail. -/
theorem head_of_compressed :
    e.head (e.head ms ++ e.afterHead count ms) = e.head ms ++ e.absorbed count ms := by
  have hlen := e.length_head_le ms
  have htake : (e.head ms ++ e.afterHead count ms).take e.protectFirstN =
      e.head ms ++ (e.afterHead count ms).take (e.protectFirstN - (e.head ms).length) := by
    rw [List.take_append, List.take_of_length_le hlen]
  have hhead : (e.head ms).rdropWhile Message.isAiWithToolCalls = e.head ms :=
    List.rdropWhile_idempotent _ _
  conv_lhs => rw [head, htake]
  rw [rdropWhile_append_of_eq hhead, absorbed]

theorem rest_of_compressed :
    (e.head ms ++ e.afterHead count ms).drop
      (e.head (e.head ms ++ e.afterHead count ms)).length = e.exposed count ms := by
  rw [head_of_compressed]
  refine drop_length_of_append ?_
  rw [List.append_assoc, absorbed_append_exposed]

theorem length_tail_le {n : Int} (hb : e.budget = .maxMessages n) :
    (e.tail count ms).length ≤ e.protectLastN := by
  have h := (e.tail_suffix_protectedTail count ms).length_le
  rw [protectedTail_of_maxMessages count e ms hb] at h
  exact h.trans (length_lastMessages_le ms _)

end WindowedContextEngine

namespace WindowedContextEngine

variable {e : WindowedContextEngine} {ms : List Message}

theorem settles_of_maxTokens {n : Int} {r : ℚ} (hb : e.budget = .maxTokens n r) :
    e.Settles count ms ↔
      (countTokens count ms : Int) ≤ n ∨ (e.partition count ms).middle = [] ∨
        (countTokens count (e.head ms) + countTokens count (e.afterHead count ms) : Int) ≤ n ∨
          Stuck count (tailBudget count e n r (e.head ms ++ e.absorbed count ms))
            (e.exposed count ms) := by
  rw [Settles, hb]

theorem shouldCompress_of_maxTokens {n : Int} {r : ℚ} (hb : e.budget = .maxTokens n r) :
    e.shouldCompress count ms = true ↔ ¬ (countTokens count ms : Int) ≤ n := by
  rw [shouldCompress, hb, decide_eq_true_iff, not_le]

/-- A message budget holds both bands and the marker. -/
theorem compressed_within_maxMessages {n : Int} (hb : e.budget = .maxMessages n) :
    ¬ e.shouldCompress count (e.head ms ++ e.afterHead count ms) = true := by
  have hadmits := e.admits
  rw [hb] at hadmits
  have hroom : (e.protectFirstN : Int) + e.protectLastN + 1 ≤ n := hadmits
  have hhead := e.length_head_le ms
  have htail := e.length_tail_le count ms hb
  rw [shouldCompress, hb, decide_eq_true_iff, List.length_append, afterHead, List.length_cons]
  push_cast
  omega

end WindowedContextEngine

/-- A list that compressing leaves alone stays as it is. -/
theorem compress_twice_of_eq {e : ContextEngine} {ms : List Message}
    (h : e.compress count ms = ms) :
    e.compress count (e.compress count ms) = e.compress count ms := by
  rw [h, h]

/-- **When a second pass changes nothing.** -/
theorem apply_idempotent_iff (count : Message → Nat) (e : WindowedContextEngine)
    (ms : List Message) :
    (ContextEngine.windowed e).apply count ((ContextEngine.windowed e).apply count ms) =
      (ContextEngine.windowed e).apply count ms ↔ e.Settles count ms := by
  rw [ContextEngine.apply_eq_compress, ContextEngine.apply_eq_compress]
  by_cases hs : e.shouldCompress count ms = true
  -- The first pass changes something only if there is a middle to drop.
  · by_cases hm : (e.partition count ms).middle = []
    · have hsame := compress_twice_of_eq (e := .windowed e)
        (ContextEngine.compress_of_middle_eq_nil hm)
      refine iff_of_true hsame ?_
      cases hb : e.budget with
      | maxMessages n => rw [Settles, hb]; trivial
      | maxTokens n r => exact (settles_of_maxTokens hb).mpr (Or.inr (Or.inl hm))
    · have hR : (ContextEngine.windowed e).compress count ms = e.head ms ++ e.afterHead count ms :=
        ContextEngine.compress_of_middle_ne_nil hs hm
      rw [hR]
      cases hb : e.budget with
      | maxMessages n =>
          have hsame : (ContextEngine.windowed e).compress count
              (e.head ms ++ e.afterHead count ms) = e.head ms ++ e.afterHead count ms :=
            ContextEngine.compress_of_le (compressed_within_maxMessages hb)
          refine iff_of_true hsame ?_
          rw [Settles, hb]
          trivial
      | maxTokens n r =>
          rw [settles_of_maxTokens hb]
          have hover := (shouldCompress_of_maxTokens hb).mp hs
          by_cases hR2 : e.shouldCompress count (e.head ms ++ e.afterHead count ms) = true
          · have hover2 := (shouldCompress_of_maxTokens hb).mp hR2
            rw [countTokens_append, Nat.cast_add] at hover2
            rw [compress_eq_self_iff hb hR2, rest_of_compressed, head_of_compressed]
            simp only [hover, hm, hover2, false_or]
          · have hfits := hR2
            rw [shouldCompress_of_maxTokens hb, not_not, countTokens_append, Nat.cast_add] at hfits
            exact iff_of_true (ContextEngine.compress_of_le hR2) (Or.inr (Or.inr (Or.inl hfits)))
  · have hsame := compress_twice_of_eq (e := .windowed e) (ContextEngine.compress_of_le hs)
    refine iff_of_true hsame ?_
    cases hb : e.budget with
    | maxMessages n => rw [Settles, hb]; trivial
    | maxTokens n r =>
        have hfits := hs
        rw [shouldCompress_of_maxTokens hb, not_not] at hfits
        exact (settles_of_maxTokens hb).mpr (Or.inl hfits)

/-- A room of ten tokens for the newest messages. -/
def tenTokens : WindowedContextEngine where
  budget := .maxTokens 10 1
  protectFirstN := 0
  protectLastN := 6
  admits := ⟨by decide, by decide⟩

/-- The last message alone is over ten tokens. -/
def longLastMessage : List Message :=
  [.human "a", .human "b", .human "a last message that is rather long"]

/-- Thirty tokens, half of them for the newest messages. -/
def thirtyTokens : WindowedContextEngine where
  budget := .maxTokens 30 (1 / 2)
  protectFirstN := 0
  protectLastN := 6
  admits := ⟨by norm_num, by norm_num⟩

/-- Eight short messages are cut to the marker and the last three. -/
theorem eight_short_messages_settle :
    (ContextEngine.windowed thirtyTokens).apply (countMessageTokens estimatedTokens)
        ((ContextEngine.windowed thirtyTokens).apply (countMessageTokens estimatedTokens)
          (List.replicate 8 (.human "a"))) =
      (ContextEngine.windowed thirtyTokens).apply (countMessageTokens estimatedTokens)
        (List.replicate 8 (.human "a")) :=
  (apply_idempotent_iff (countMessageTokens estimatedTokens) thirtyTokens _).mpr
    (Or.inr (Or.inr (Or.inl (by decide +kernel))))

/-- **The marker is counted again.** The newest message is kept although it is over the budget
alone, so the second pass replaces the marker by one for a single message. -/
theorem marker_recounted :
    WindowedContextEngine.init { maxTokens := some 10, targetRatio := 1 } = .ok tenTokens ∧
    ((ContextEngine.windowed tenTokens).apply (countMessageTokens estimatedTokens)
        longLastMessage).map (Message.countedText estimatedTokens) =
      ["[context truncated: 2 messages omitted]", "a last message that is rather long"] ∧
    ((ContextEngine.windowed tenTokens).apply (countMessageTokens estimatedTokens)
        ((ContextEngine.windowed tenTokens).apply (countMessageTokens estimatedTokens)
          longLastMessage)).map (Message.countedText estimatedTokens) =
      ["[context truncated: 1 messages omitted]", "a last message that is rather long"] ∧
    (ContextEngine.windowed tenTokens).apply (countMessageTokens estimatedTokens)
        ((ContextEngine.windowed tenTokens).apply (countMessageTokens estimatedTokens)
          longLastMessage) ≠
      (ContextEngine.windowed tenTokens).apply (countMessageTokens estimatedTokens)
        longLastMessage := by
  have honce : ((ContextEngine.windowed tenTokens).apply (countMessageTokens estimatedTokens)
        longLastMessage).map (Message.countedText estimatedTokens) =
      ["[context truncated: 2 messages omitted]", "a last message that is rather long"] := by
    decide +kernel
  have htwice : ((ContextEngine.windowed tenTokens).apply (countMessageTokens estimatedTokens)
        ((ContextEngine.windowed tenTokens).apply (countMessageTokens estimatedTokens)
          longLastMessage)).map (Message.countedText estimatedTokens) =
      ["[context truncated: 1 messages omitted]", "a last message that is rather long"] := by
    decide +kernel
  refine ⟨rfl, honce, htwice, ?_⟩
  intro h
  rw [h, honce] at htwice
  exact absurd htwice (by decide)

end AgentRoom
