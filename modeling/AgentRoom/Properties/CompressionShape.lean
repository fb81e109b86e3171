import AgentRoom.Context.Partition
import AgentRoom.Context.Tokens
import AgentRoom.Lib.Longest
import Mathlib.Algebra.Order.Floor.Ring
import Mathlib.Data.Rat.Floor

set_option autoImplicit false

/-! # The shape of a compression

Which messages an engine keeps can be said without its loops: the longest start that does not
end with tool calls and the longest end that does not start with an answer, each within its
limit. What is between them is replaced by one message that says how many were omitted.
-/

namespace AgentRoom

open Doubles Longest

/-- `int` rounds down what is not below zero. -/
theorem Py.max_truncate (q : ℚ) : max (Py.truncate q) 0 = max ⌊q⌋ 0 := by
  have hfloor : ⌊q⌋ = q.num / q.den := Rat.floor_def q
  rcases le_or_gt 0 q.num with hnum | hnum
  · rw [hfloor, Py.truncate, Int.tdiv_eq_ediv_of_nonneg hnum]
  · have hden : (0 : Int) < q.den := by exact_mod_cast q.den_pos
    have hneg : q.num / q.den < 0 := Int.ediv_neg_of_neg_of_pos hnum hden
    have htrunc : Py.truncate q ≤ 0 := by
      have h := Int.tdiv_nonneg (Int.neg_nonneg_of_nonpos hnum.le) hden.le
      rw [Int.neg_tdiv] at h
      rw [Py.truncate]
      omega
    rw [hfloor]
    omega

variable (count : Message → Nat)

/-- A possible head: at most `protect_first_n` messages from the start. -/
def WithinHead (e : WindowedContextEngine) (ms head : List Message) : Prop :=
  head <+: ms ∧ head.length ≤ e.protectFirstN

/-- A possible tail. A message budget allows `protect_last_n` messages; a token budget allows
one message, or what costs at most the given share of the tokens the head leaves, the product
being exact when the engine's is. -/
def WithinTail (e : WindowedContextEngine) (ms head tail : List Message) : Prop :=
  match e.budget with
  | .maxMessages _ => tail <:+ ms ∧ tail.length ≤ e.protectLastN
  | .maxTokens n r =>
      tail <:+ ms.drop head.length ∧
        (tail.length ≤ 1 ∨
          (countTokens count tail : Int) ≤
            max ⌊e.arithmetic.mul (e.arithmetic.round (n - countTokens count head : Int)) r⌋ 0)

/-- The documented split of a list. -/
structure IsSplit (e : WindowedContextEngine) (ms head middle tail : List Message) : Prop where
  append : head ++ middle ++ tail = ms
  head_longest :
    IsLongest (fun h => WithinHead e ms h ∧ EndsWithout Message.isAiWithToolCalls h) head
  tail_longest :
    IsLongest (fun t => WithinTail count e ms head t ∧ StartsWithout Message.isTool t) tail

/-- The texts that say that `n` messages were omitted: a count, or a summary that ends with one. -/
def Announces (n : Nat) (text : String) : Prop :=
  text = "[context truncated: " ++ Nat.repr n ++ " messages omitted]" ∨
    ∃ body, text = "[context summary — earlier turns compacted]" ++ "\n" ++ body ++ "\n" ++
      ("[end of summary; " ++ Nat.repr n ++ " earlier messages omitted]")

/-! ## The two kept parts -/

section

variable (e : WindowedContextEngine) (ms : List Message)

theorem head_isLongest :
    IsLongest (fun h => WithinHead e ms h ∧ EndsWithout Message.isAiWithToolCalls h)
      (e.head ms) := by
  refine isLongest_rdropWhile Message.isAiWithToolCalls ?_ ?_
  · intro h hh
    obtain ⟨hpre, hlen⟩ := hh
    exact List.prefix_of_prefix_length_le hpre (List.take_prefix _ _)
      (by rw [List.length_take]; exact le_min hlen hpre.length_le)
  · intro h hh
    exact ⟨hh.trans (List.take_prefix _ _), hh.length_le.trans (List.length_take_le _ _)⟩

theorem suffix_lastMessages_iff {n : Nat} {t : List Message} :
    t <:+ WindowedContextEngine.lastMessages n ms ↔ t <:+ ms ∧ t.length ≤ n := by
  constructor
  · intro ht
    exact ⟨ht.trans (WindowedContextEngine.lastMessages_suffix ms n),
      ht.length_le.trans (WindowedContextEngine.length_lastMessages_le ms n)⟩
  · rintro ⟨hsuf, hlen⟩
    refine List.suffix_of_suffix_length_le hsuf
      (WindowedContextEngine.lastMessages_suffix ms n) ?_
    unfold WindowedContextEngine.lastMessages
    split
    · rw [List.length_drop]
      have := hsuf.length_le
      omega
    · rw [List.length_nil]
      omega

/-- The greedy loop keeps the longest end that fits. -/
theorem suffix_growTail_iff {budget : Int} {rest t : List Message} :
    t <:+ growTail count budget rest.reverse [] 0 ↔
      t <:+ rest ∧ FitsTail count budget t := by
  constructor
  · intro ht
    have hgrown := growTail_suffix count budget rest.reverse [] 0
    rw [List.reverse_reverse, List.append_nil] at hgrown
    have hfits : FitsTail count budget (growTail count budget rest.reverse [] 0) :=
      growTail_fits count budget rest.reverse [] 0 rfl (Or.inl (by simp))
    refine ⟨ht.trans hgrown, ?_⟩
    have hlen := ht.length_le
    have htokens := countTokens_le_of_suffix count ht
    rcases hfits with hone | hle
    · exact Or.inl (by omega)
    · exact Or.inr (by omega)
  · rintro ⟨hsuf, hfits⟩
    exact growTail_maximal count budget rest.reverse [] t 0 rfl (by simpa using hsuf) hfits

/-- What the engine protects at the end is the longest possible tail. -/
theorem suffix_protectedTail_iff {t : List Message} :
    t <:+ e.protectedTail count ms ↔ WithinTail count e ms (e.head ms) t := by
  rw [WithinTail, WindowedContextEngine.protectedTail]
  cases e.budget with
  | maxMessages n => exact suffix_lastMessages_iff ms
  | maxTokens n r =>
      dsimp only
      rw [suffix_growTail_iff, FitsTail, WindowedContextEngine.share, Py.max_truncate]

theorem tail_isLongest :
    IsLongest (fun t => WithinTail count e ms (e.head ms) t ∧ StartsWithout Message.isTool t)
      (e.tail count ms) :=
  isLongest_dropWhile Message.isTool
    (fun _ ht => (suffix_protectedTail_iff count e ms).mpr ht)
    (fun _ ht => (suffix_protectedTail_iff count e ms).mp ht)

/-- **Head and tail together are within the token budget** when the head leaves some of it, less
than `2 ^ 53` tokens, and the tail is not the newest message alone. -/
theorem head_add_tail_le {n : Int} {r : ℚ} (hb : e.budget = .maxTokens n r)
    (hroom : (countTokens count (e.head ms) : Int) ≤ n)
    (hlt : n - countTokens count (e.head ms) < 2 ^ 53) (hlen : 1 < (e.tail count ms).length) :
    (countTokens count (e.head ms) + countTokens count (e.tail count ms) : Int) ≤ n := by
  have hadmits := e.admits
  rw [hb] at hadmits
  have hwithin : WithinTail count e ms (e.head ms) (e.tail count ms) :=
    (suffix_protectedTail_iff count e ms).mp (e.tail_suffix_protectedTail count ms)
  rw [WithinTail, hb] at hwithin
  rcases hwithin.2 with hone | hcost
  · omega
  · have hshare := e.arithmetic.mul_round_le (by omega) hlt hadmits.1.le hadmits.2
    have hfloor := Int.floor_le_floor hshare
    rw [Int.floor_intCast] at hfloor
    omega

/-- Over the budget, the parts of the code are the documented split. -/
theorem partition_isSplit (hs : e.shouldCompress count ms = true) :
    IsSplit count e ms (e.head ms) (e.partition count ms).middle (e.tail count ms) where
  append := by
    rw [List.append_assoc]
    exact e.partition_append count ms hs
  head_longest := head_isLongest e ms
  tail_longest := tail_isLongest count e ms

/-- There is no other one. -/
theorem IsSplit.eq_partition {H M T : List Message} (hsplit : IsSplit count e ms H M T)
    (hs : e.shouldCompress count ms = true) :
    H = e.head ms ∧ M = (e.partition count ms).middle ∧ T = e.tail count ms := by
  have hcode := partition_isSplit count e ms hs
  have hH : H = e.head ms :=
    hsplit.head_longest.eq_of_prefix (head_isLongest e ms) (fun _ hx => hx.1.1)
  subst hH
  have hT : T = e.tail count ms :=
    hsplit.tail_longest.eq_of_suffix (tail_isLongest count e ms)
      (fun _ hx => (suffix_protectedTail_iff count e ms).mpr hx.1)
  subst hT
  have happend : e.head ms ++ M ++ e.tail count ms =
      e.head ms ++ (e.partition count ms).middle ++ e.tail count ms := by
    rw [hsplit.append, hcode.append]
  exact ⟨rfl, List.append_cancel_left (List.append_cancel_right happend), rfl⟩

end

/-! ## What stands for the middle -/

theorem buildMarker_announces (e : ContextEngine) (middle : List Message) :
    ∃ text, Announces middle.length text ∧ e.buildMarker middle = .human text := by
  cases e with
  | windowed e => exact ⟨_, Or.inl rfl, rfl⟩
  | summary e summarize =>
      refine ⟨_, ?_, rfl⟩
      unfold summaryMarkerText
      split
      · exact Or.inl rfl
      · split
        · exact Or.inl rfl
        · dsimp only
          split
          · exact Or.inl rfl
          · exact Or.inr ⟨_, rfl⟩

/-- **The shape of a compression.** Within its budget an engine returns the list it is given.
Over it, the middle of the documented split, when there is one, becomes one human message that
says how long the middle was. -/
theorem compress_shape (e : ContextEngine) (ms : List Message) :
    (e.base.shouldCompress count ms = false → e.compress count ms = ms) ∧
    (e.base.shouldCompress count ms = true →
      ∃ H M T, IsSplit count e.base ms H M T ∧
        (M = [] → e.compress count ms = ms) ∧
        (M ≠ [] → ∃ text, Announces M.length text ∧
          e.compress count ms = H ++ [.human text] ++ T)) := by
  constructor
  · intro hs
    exact ContextEngine.compress_of_le (by rw [hs]; exact Bool.false_ne_true)
  · intro hs
    refine ⟨_, _, _, partition_isSplit count e.base ms hs, ?_, ?_⟩
    · intro hnil
      exact ContextEngine.compress_of_middle_eq_nil hnil
    · intro hne
      obtain ⟨text, hannounces, hmarker⟩ :=
        buildMarker_announces e (e.base.partition count ms).middle
      refine ⟨text, hannounces, ?_⟩
      rw [ContextEngine.compress_of_middle_ne_nil hs hne, hmarker, List.append_assoc,
        List.singleton_append]

/-- Eight tokens, 0.7 of what the head leaves for the newest messages. -/
def eightTokens : WindowedContextEngine where
  budget := .maxTokens 8 (nearest (7 / 10))
  protectFirstN := 1
  protectLastN := 6
  admits := ⟨by decide +kernel, by decide +kernel⟩

/-- Four messages of three tokens each: the head leaves five tokens, of which three are the
tail's, so the first and the last message are kept. -/
theorem compress_shape_four_messages :
    (∃ H M T, IsSplit (fun _ => 3) eightTokens
        [.human "a", .human "b", .human "c", .human "d"] H M T ∧
      (M = [] → (ContextEngine.windowed eightTokens).compress (fun _ => 3)
        [.human "a", .human "b", .human "c", .human "d"] =
          [.human "a", .human "b", .human "c", .human "d"]) ∧
      (M ≠ [] → ∃ text, Announces M.length text ∧
        (ContextEngine.windowed eightTokens).compress (fun _ => 3)
          [.human "a", .human "b", .human "c", .human "d"] = H ++ [.human text] ++ T)) ∧
    ((ContextEngine.windowed eightTokens).compress (fun _ => 3)
        [.human "a", .human "b", .human "c", .human "d"]).map
          (Message.countedText estimatedTokens) =
      ["a", "[context truncated: 2 messages omitted]", "d"] :=
  ⟨(compress_shape (fun _ => 3) (.windowed eightTokens)
      [.human "a", .human "b", .human "c", .human "d"]).2 (by decide), by decide +kernel⟩

end AgentRoom
