import AgentRoom.Prompt.Builder
import AgentRoom.Prompt.Texts

set_option autoImplicit false

/-! # The developer's prompt

Five layers: the system prompt, the plan and the task, the user's directives, the reviewer's
feedback, and the extra context a node asks for. The feedback block is shared with the
reviewer, which pushes it into a running transcript.
-/

namespace AgentRoom

/-- A state key a node may list in `extra_context_keys`: a channel that holds a text or a list of
texts, or any other name, with its heading and what `str` makes of the value or of its items. -/
inductive ContextKey
  | title | description | plan | code | delivery | verifyCommand | userDirectives | openQuestions
  | other (heading : String) (value : TaskState → Option (String ⊕ List String))

namespace ContextKey

/-- `key.replace("_", " ").title()`. -/
def heading : ContextKey → String
  | title => "Title"
  | description => "Description"
  | plan => "Plan"
  | code => "Code"
  | delivery => "Delivery"
  | verifyCommand => "Verify Command"
  | userDirectives => "User Directives"
  | openQuestions => "Open Questions"
  | other heading _ => heading

/-- `state.get(key)`: absent, a text, or a list of texts. -/
def value (s : TaskState) : ContextKey → Option (String ⊕ List String)
  | title => some (.inl s.title)
  | description => some (.inl s.description)
  | plan => s.plan.map .inl
  | code => s.code.map .inl
  | delivery => s.delivery.map .inl
  | verifyCommand => s.verifyCommand.map .inl
  | userDirectives => some (.inr s.userDirectives)
  | openQuestions => some (.inr s.openQuestions)
  | other _ value => value s

end ContextKey

/-- The lines `- x` of a bullet list. -/
def bullets (xs : List String) : String := Py.join "\n" (xs.map (fun x => "- " ++ x))

/-- One section of `format_extra_context`; absent and blank values are skipped. -/
def contextBlock (s : TaskState) (key : ContextKey) : Option String :=
  match key.value s with
  | none => none
  | some (.inr []) => none
  | some (.inr (x :: xs)) => some ("# " ++ key.heading ++ "\n" ++ bullets (x :: xs))
  | some (.inl text) =>
      let rendered := Py.strip text
      if rendered = "" then none else some ("# " ++ key.heading ++ "\n" ++ rendered)

/-- `format_extra_context`. -/
def formatExtraContext (s : TaskState) (keys : List ContextKey) : String :=
  Py.join "\n\n" (keys.filterMap (contextBlock s))

/-- The extra context is that of the values its keys show. -/
theorem formatExtraContext_congr {s s' : TaskState} {keys : List ContextKey}
    (h : ∀ key ∈ keys, key.value s = key.value s') :
    formatExtraContext s keys = formatExtraContext s' keys := by
  have hblocks : ∀ key ∈ keys, contextBlock s key = contextBlock s' key := by
    intro key hkey
    simp only [contextBlock, h key hkey]
  exact congrArg (Py.join "\n\n") (List.filterMap_congr hblocks)

/-- `_render_plan_and_task`. -/
def renderPlanAndTask (s : TaskState) : String :=
  "# Plan\n" ++ Py.orEmpty s.plan ++ "\n\n# Task\n" ++ s.title ++ "\n" ++ s.description

/-- `_render_user_directives`. -/
def renderUserDirectives (s : TaskState) : Option String :=
  if s.userDirectives = [] then none
  else some ("# User directives (apply in order)\n" ++ bullets s.userDirectives)

/-- `render_review_feedback_block`. -/
def renderReviewFeedbackBlock (review : ReviewerDecision) (roundNo : Nat)
    (previousCode : Option String := none) : String :=
  let joined := bullets review.issues
  let issues := if joined = "" then "(see feedback)" else joined
  let block := "# Reviewer feedback (round " ++ toString roundNo ++ ")\n" ++ review.feedback ++
    "\n\n## Issues\n" ++ issues
  if Py.truthy previousCode then
    block ++ "\n\n# Previous attempt\n" ++ Py.orEmpty previousCode
  else block

/-- `_render_review_feedback`. -/
def renderReviewFeedback (s : TaskState) : Option String :=
  match s.review with
  | none => none
  | some review =>
      if review.decision = .revisionRequired then
        some (renderReviewFeedbackBlock review s.revisionRound s.code)
      else none

/-- The extra-context layer: `format_extra_context(state, keys) or None`. -/
def renderExtraContext (keys : List ContextKey) (s : TaskState) : Option String :=
  let text := formatExtraContext s keys
  if text = "" then none else some text

/-- `developer_prompt_builder`. -/
def developerPromptBuilder (systemPrompt : String) (extraContextKeys : List ContextKey) :
    PromptBuilder where
  layers :=
    [ { name := "identity", role := .system, render := fun _ => some systemPrompt },
      { name := "plan_and_task", role := .human, render := fun s => some (renderPlanAndTask s) },
      { name := "user_directives", role := .human, render := renderUserDirectives },
      { name := "review_feedback", role := .human, render := renderReviewFeedback },
      { name := "extra_context", role := .human, render := renderExtraContext extraContextKeys } ]
  names_nodup := by simp

/-! ## The user's directives in the rendered prompt -/

/-- **Directives are rendered.** Every directive in the state stands in the prompt the
builder renders from it. -/
theorem mentions_of_mem_userDirectives (systemPrompt : String) (keys : List ContextKey)
    {s : TaskState} {d : String} (hd : d ∈ s.userDirectives) :
    Mentions ((developerPromptBuilder systemPrompt keys).build s) d := by
  have hne : s.userDirectives ≠ [] := List.ne_nil_of_mem hd
  have hbullet : Py.Contains (bullets s.userDirectives) d := by
    have hmem : "- " ++ d ∈ s.userDirectives.map (fun x => "- " ++ x) :=
      List.mem_map_of_mem hd
    exact (Py.contains_join hmem).trans (Py.contains_append_right _ (.refl d))
  have hblank : Py.isBlank ("# User directives (apply in order)\n" ++ bullets s.userDirectives)
      = false := by
    rw [Py.isBlank_append]
    have : Py.isBlank "# User directives (apply in order)\n" = false := by decide
    rw [this, Bool.false_and]
  obtain ⟨m, hm, hc⟩ := PromptBuilder.mentions_build
    (b := developerPromptBuilder systemPrompt keys) (s := s)
    (l := { name := "user_directives", role := .human, render := renderUserDirectives })
    (by simp [developerPromptBuilder]) (by simp [renderUserDirectives, hne]) hblank
  exact ⟨m, hm, hc.trans (Py.contains_append_right _ hbullet)⟩

end AgentRoom
