import AgentRoom.Py

set_option autoImplicit false

/-! # The content guardrail

`scan` tries the injection patterns first, then the PII patterns; the first match wins. The
regular expressions themselves are a parameter: a pattern is its source text and its search.
-/

namespace AgentRoom

inductive GuardrailMode
  | off | warn | block
  deriving DecidableEq, Repr

inductive Checkpoint
  | input | toolCall | toolResponse | output
  deriving DecidableEq, Repr

def Checkpoint.text : Checkpoint → String
  | .input => "input"
  | .toolCall => "tool_call"
  | .toolResponse => "tool_response"
  | .output => "output"

/-- A compiled regular expression. -/
structure Pattern where
  pattern : String
  search : String → Bool

inductive GuardrailCategory
  | injection | pii
  deriving DecidableEq, Repr

def GuardrailCategory.text : GuardrailCategory → String
  | .injection => "injection"
  | .pii => "pii"

structure GuardrailFinding where
  category : GuardrailCategory
  pattern : String
  checkpoint : Checkpoint
  deriving DecidableEq, Repr

structure Guardrail where
  mode : GuardrailMode := .off
  injectionPatterns : List Pattern := []
  piiPatterns : List Pattern := []

/-- Pure scan: no mode logic. -/
def Guardrail.scan (g : Guardrail) (text : String) (checkpoint : Checkpoint) :
    Option GuardrailFinding :=
  match g.injectionPatterns.find? (fun p => p.search text) with
  | some p => some ⟨.injection, p.pattern, checkpoint⟩
  | none =>
      match g.piiPatterns.find? (fun p => p.search text) with
      | some p => some ⟨.pii, p.pattern, checkpoint⟩
      | none => none

/-- `Guardrail.check`. The error is the `GuardrailTripwire` of a hit in `block` mode. -/
def Guardrail.check (g : Guardrail) (text : String) (checkpoint : Checkpoint) :
    Except GuardrailFinding (Option GuardrailFinding) :=
  if g.mode = .off ∨ text = "" then .ok none
  else
    match g.scan text checkpoint with
    | none => .ok none
    | some finding => if g.mode = .block then .error finding else .ok (some finding)

/-- A switched-off guardrail never reports anything. -/
theorem Guardrail.check_off {g : Guardrail} (h : g.mode = .off) (text : String)
    (checkpoint : Checkpoint) : g.check text checkpoint = .ok none := by
  simp [Guardrail.check, h]

/-- Some pattern matches the text. -/
def Guardrail.Matches (g : Guardrail) (text : String) : Prop :=
  ∃ p ∈ g.injectionPatterns ++ g.piiPatterns, p.search text = true

instance (g : Guardrail) (text : String) : Decidable (g.Matches text) :=
  inferInstanceAs (Decidable (∃ p ∈ _, _))

theorem Guardrail.exists_scan_iff {g : Guardrail} {text : String} {checkpoint : Checkpoint} :
    (∃ finding, g.scan text checkpoint = some finding) ↔ g.Matches text := by
  unfold Guardrail.scan Guardrail.Matches
  cases hinjection : g.injectionPatterns.find? (fun p => p.search text) with
  | some p =>
      have hmatch : p.search text = true := by simpa using List.find?_some hinjection
      constructor
      · intro _
        exact ⟨p, List.mem_append_left _ (List.mem_of_find?_eq_some hinjection), hmatch⟩
      · intro _
        exact ⟨_, rfl⟩
  | none =>
      have hno : ∀ p ∈ g.injectionPatterns, ¬ p.search text = true := by
        simpa using List.find?_eq_none.mp hinjection
      cases hpii : g.piiPatterns.find? (fun p => p.search text) with
      | some p =>
          have hmatch : p.search text = true := by simpa using List.find?_some hpii
          constructor
          · intro _
            exact ⟨p, List.mem_append_right _ (List.mem_of_find?_eq_some hpii), hmatch⟩
          · intro _
            exact ⟨_, rfl⟩
      | none =>
          have hno' : ∀ p ∈ g.piiPatterns, ¬ p.search text = true := by
            simpa using List.find?_eq_none.mp hpii
          constructor
          · rintro ⟨finding, h⟩
            cases h
          · rintro ⟨p, hp, hmatch⟩
            rcases List.mem_append.mp hp with hp | hp
            · exact absurd hmatch (hno p hp)
            · exact absurd hmatch (hno' p hp)

/-- In `block` mode the tripwire fires on a text that is not empty and matches. -/
theorem Guardrail.exists_check_error_iff {g : Guardrail} (hmode : g.mode = .block) {text : String}
    {checkpoint : Checkpoint} :
    (∃ finding, g.check text checkpoint = .error finding) ↔ text ≠ "" ∧ g.Matches text := by
  rw [← @exists_scan_iff g text checkpoint]
  unfold Guardrail.check
  by_cases hempty : text = ""
  · simp [hempty]
  · cases hscan : g.scan text checkpoint with
    | none => simp [hmode, hempty]
    | some finding => simp [hmode, hempty]

end AgentRoom
