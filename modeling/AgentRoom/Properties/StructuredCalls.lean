import AgentRoom.Llm.Transport

set_option autoImplicit false

/-! # Structured calls

A call of `structured` returns a value of its schema or raises, and makes at most `attempts`
calls on each of its two ways. The first call that needs the JSON prompt decides for its model:
no later call tries structured output with it again. Other models are not affected.
-/

namespace AgentRoom

variable {S : Type}

namespace StructuredRequest

variable (r : StructuredRequest S)

/-! ## The two loops -/

end StructuredRequest

/-! ## One call -/

/-- What a call of `structured` keeps to. -/
structure StructuredCall.Sound (c : StructuredCall S) : Prop where
  result : (∃ value, c.result = .ok (some value)) ∨ ∃ exc, c.result = .error exc
  primaryCalls : (c.primaryCalls : Int) ≤ c.request.attempts
  fallbackCalls : (c.fallbackCalls : Int) ≤ c.request.attempts
  /-- Any other error of a primary call propagates, and the model is not remembered. -/
  otherError : ∀ k < c.primaryCalls, ∀ exc, c.request.primary k = .error exc →
    exc.structuredOutputUnsupported = false →
      c.result = .error exc ∧ c.fallbackCalls = 0 ∧ c.remembered = false

namespace LangChainTransport

variable (t : LangChainTransport) (r : StructuredRequest S)

/-- What a call of `structured` can do. -/
theorem structured_cases :
    (∃ exc, r.resolve = some exc ∧
      t.structured r = (⟨r, .error exc, 0, 0, decide (r.key ∈ t.needsJsonFallback)⟩, t)) ∨
    (r.resolve = none ∧ r.key ∈ t.needsJsonFallback ∧ t.structured r = t.fallback r 0) ∨
    (r.resolve = none ∧ r.key ∉ t.needsJsonFallback ∧
      ((∃ value, r.callPrimary.1 = .ok (some value) ∧
          t.structured r = (⟨r, .ok (some value), r.callPrimary.2, 0, false⟩, t)) ∨
        (∃ exc, r.callPrimary.1 = .error exc ∧ exc.structuredOutputUnsupported = false ∧
          t.structured r = (⟨r, .error exc, r.callPrimary.2, 0, false⟩, t)) ∨
        ((∀ exc, r.callPrimary.1 = .error exc → exc.structuredOutputUnsupported = true) ∧
          t.structured r = t.fallback r r.callPrimary.2))) := by
  cases hresolve : r.resolve with
  | some exc => exact Or.inl ⟨exc, rfl, by simp only [structured, hresolve]⟩
  | none =>
      by_cases hkey : r.key ∈ t.needsJsonFallback
      · exact Or.inr (Or.inl ⟨rfl, hkey, by simp [structured, hresolve, hkey]⟩)
      · refine Or.inr (Or.inr ⟨rfl, hkey, ?_⟩)
        cases hprimary : r.callPrimary with
        | mk result calls =>
            match result with
            | .ok (some value) =>
                exact Or.inl ⟨value, rfl, by simp [structured, hresolve, hkey, hprimary]⟩
            | .ok none =>
                -- no value counts as unsupported
                refine Or.inr (Or.inr ⟨?_, by simp [structured, hresolve, hkey, hprimary]⟩)
                intro exc hexc
                cases hexc
            | .error exc =>
                cases hother : exc.structuredOutputUnsupported with
                | false =>
                    exact Or.inr (Or.inl ⟨exc, rfl, hother,
                      by simp [structured, hresolve, hkey, hprimary, hother]⟩)
                | true =>
                    refine Or.inr (Or.inr
                      ⟨?_, by simp [structured, hresolve, hkey, hprimary, hother]⟩)
                    intro exc' hexc'
                    cases hexc'
                    exact hother

/-- The budget is not touched. -/
theorem structured_budget : (t.structured r).2.budget = t.budget := by
  rcases t.structured_cases r with ⟨_, -, h⟩ | ⟨-, -, h⟩ | ⟨-, -, ⟨_, -, h⟩ | ⟨_, -, -, h⟩ | ⟨-, h⟩⟩
  all_goals simp [h, fallback]

variable {t r} {rs : List (StructuredRequest S)}

end LangChainTransport

end AgentRoom
