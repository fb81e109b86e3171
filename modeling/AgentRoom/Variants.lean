import AgentRoom.Compiled

set_option autoImplicit false

/-! # Role variants in the tool-using presets

The planner and the reviewer of a spec may name a variant. `GraphSpec.withVariants` gives a
spec's two nodes any variants, `Preset.compiledWith` is the graph a tool-using preset then
builds to, and a variant that is not registered for its role does not build.
-/

namespace AgentRoom

open Fallible

/-- The spec with these variants of its planner and its reviewer. -/
def GraphSpec.withVariants (spec : GraphSpec) (planner reviewer : Option Variant) : GraphSpec :=
  { spec with
    nodes := spec.nodes.map fun entry =>
      match entry with
      | (.planner, node) => (.planner, { node with variant := planner })
      | (.reviewer, node) => (.reviewer, { node with variant := reviewer })
      | entry => entry }

namespace Preset

/-- The planner a variant stands for. -/
def plannerImpl : Option Variant → NodeImpl
  | none => .planner plannerSystem []
  | some _ => .plannerGate plannerGateSystem []

/-- The reviewer a variant stands for. -/
def reviewerImpl : Option Variant → NodeImpl
  | none => .reviewer reviewerSystem []
  | some _ => .reviewerTwoCall reviewerTwoCallSystem []

/-- The compiled preset with these variants. -/
def compiledWith (p : Preset) (planner reviewer : Option Variant) (tools : List Tool)
    (approval : Bool) : Graph :=
  { p.compiled tools approval with
    nodes := (p.compiledNodes tools approval).map fun entry =>
      match entry with
      | (.planner, _) => (.planner, plannerImpl planner)
      | (.reviewer, _) => (.reviewer, reviewerImpl reviewer)
      | entry => entry }

variable {reg : Registry} {v : Option Variant} {nodes : List (NodeName × NodeImpl)}

/-- The registered planners. -/
theorem addNode_planner (h : addNode reg (.planner, { role := .planner, variant := v }) = .ok nodes) :
    (v = none ∨ v = some .gate) ∧ nodes = [(.planner, plannerImpl v)] := by
  cases v with
  | none =>
      cases h
      exact ⟨.inl rfl, rfl⟩
  | some v =>
      cases v with
      | gate =>
          cases h
          exact ⟨.inr rfl, rfl⟩
      | twoCall => cases h

/-- The registered reviewers. -/
theorem addNode_reviewer
    (h : addNode reg (.reviewer, { role := .reviewer, variant := v }) = .ok nodes) :
    (v = none ∨ v = some .twoCall) ∧ nodes = [(.reviewer, reviewerImpl v)] := by
  cases v with
  | none =>
      cases h
      exact ⟨.inl rfl, rfl⟩
  | some v =>
      cases v with
      | gate => cases h
      | twoCall =>
          cases h
          exact ⟨.inr rfl, rfl⟩

theorem addNode_verifier_inv (h : addNode reg (.verify, { role := .verifier }) = .ok nodes) :
    nodes = [(.verify, .verifier)] := by
  by_cases hread : (Registry.get? reg "read_text").isSome = true
  · exact Except.ok.inj (h.symm.trans (addNode_verifier hread .verify))
  · have hfail : addNode reg (.verify, { role := .verifier }) = .error .unregisteredTool := by
      have himpl : instantiateNode { role := .verifier } reg = .error .unregisteredTool := by
        simp [instantiateNode, NodeSpec.isReact, hread]
      rw [addNode, error_bind himpl]
    rw [hfail] at h
    cases h

/-- Neither the planner nor the reviewer uses tools, whatever its variant. -/
theorem isReactNode_withVariants {dev : NodeSpec} {p : Preset} (hu : p.usesTools = true)
    (v₁ v₂ : Option Variant) : ((p.specWith dev).withVariants v₁ v₂).isReactNode
      = (p.specWith dev).isReactNode := by
  funext n
  cases p <;> first
    | contradiction
    | (cases n <;> rfl)

/-- **What a tool-using preset with variants builds to.** -/
theorem build_withVariants {dev : NodeSpec} {tools : List Tool} (hreact : dev.isReact = true)
    (hover : dev.promptOverride = none) (hkeys : dev.extraContextKeys = [])
    (hrounds : dev.maxDevRounds = some 8) (hresolve : resolveToolsWithPolicy dev reg = .ok tools)
    {p : Preset} (hu : p.usesTools = true) {v₁ v₂ : Option Variant} {g : Graph}
    (h : build reg ((p.specWith dev).withVariants v₁ v₂) = .ok g) :
    (v₁ = none ∨ v₁ = some .gate) ∧ (v₂ = none ∨ v₂ = some .twoCall) ∧
      g = p.compiledWith v₁ v₂ tools (decide (dev.toolMode.getD defaultMode = .approval)) := by
  have hdev := addNode_react hreact hover hkeys hrounds hresolve .developer
  obtain ⟨nodes, hnodes, h⟩ := bind_eq_ok h
  obtain ⟨edges, hedges, h⟩ := bind_eq_ok h
  cases h
  obtain ⟨edges', hall, hflat⟩ := exists_edges_specWith hreact hu
    (isReactNode_withVariants hu v₁ v₂)
  cases p with
  | full | twoCallReview | plannerGate | devReview | solo => cases hu
  | fullReact =>
      obtain ⟨n₁, rest₁, hplanner, hrest₁, rfl⟩ := mapM_cons_inv hnodes
      obtain ⟨n₂, rest₂, hdeveloper, hrest₂, rfl⟩ := mapM_cons_inv hrest₁
      obtain ⟨n₃, rest₃, hreviewer, hrest₃, rfl⟩ := mapM_cons_inv hrest₂
      obtain ⟨hv₁, rfl⟩ := addNode_planner hplanner
      obtain ⟨hv₂, rfl⟩ := addNode_reviewer hreviewer
      cases hdev.symm.trans hdeveloper
      cases hrest₃
      cases hall.symm.trans hedges
      rw [hflat]
      exact ⟨hv₁, hv₂, rfl⟩
  | goal =>
      obtain ⟨n₁, rest₁, hplanner, hrest₁, rfl⟩ := mapM_cons_inv hnodes
      obtain ⟨n₂, rest₂, hdeveloper, hrest₂, rfl⟩ := mapM_cons_inv hrest₁
      obtain ⟨n₃, rest₃, hverify, hrest₃, rfl⟩ := mapM_cons_inv hrest₂
      obtain ⟨n₄, rest₄, hsupervisor, hrest₄, rfl⟩ := mapM_cons_inv hrest₃
      obtain ⟨n₅, rest₅, hreviewer, hrest₅, rfl⟩ := mapM_cons_inv hrest₄
      obtain ⟨hv₁, rfl⟩ := addNode_planner hplanner
      obtain ⟨hv₂, rfl⟩ := addNode_reviewer hreviewer
      obtain rfl := addNode_verifier_inv hverify
      cases hdev.symm.trans hdeveloper
      cases hsupervisor
      cases hrest₅
      cases hall.symm.trans hedges
      rw [hflat]
      exact ⟨hv₁, hv₂, rfl⟩

section Compiled

variable {p : Preset} {v₁ v₂ : Option Variant} {tools : List Tool} {approval : Bool}

/-- The variants change two nodes and no edge. -/
theorem compiledWith_route (n : NodeName) (s : TaskState) :
    (p.compiledWith v₁ v₂ tools approval).route n s = (p.compiled tools approval).route n s := rfl

theorem compiledWith_impl (hu : p.usesTools = true) (n : NodeName) :
    (p.compiledWith v₁ v₂ tools approval).impl n =
      if n = .planner then some (plannerImpl v₁)
      else if n = .reviewer then some (reviewerImpl v₂)
      else (p.compiled tools approval).impl n := by
  cases p <;> first | contradiction | (cases n <;> rfl)

end Compiled

end Preset

end AgentRoom
