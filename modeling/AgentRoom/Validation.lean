import AgentRoom.Lib.Fallible
import AgentRoom.Spec

set_option autoImplicit false

/-! # What is checked when a spec is loaded

The validators of `NodeSpec`, `EdgeSpec` and `GraphSpec`. Those of the nodes and edges run first and
report all they find; the references between them are checked only if they find nothing.
-/

namespace AgentRoom

/-- The node an edge leaves. -/
def EdgeSpec.source : EdgeSpec → NodeName
  | .to source _ | .branches source _ _ => source

/-- `[edge.to] if edge.to is not None else [b.to for b in (edge.branches or [])]`. -/
def EdgeSpec.targets : EdgeSpec → List (Option NodeName)
  | .to _ target => [target]
  | .branches _ _ mapping => mapping.map Prod.snd

/-! ## Errors -/

/-- Why a spec is not accepted, with what the message says of it. -/
inductive SpecError
  | maxDevRoundsOf (role : Role)
  | maxDevRoundsBelowOne (rounds : Nat)
  | toolModeWithoutTools (mode : PermissionMode)
  | notOnePath (source : NodeName)
  | unknownEntry (entry : NodeName) (nodes : List NodeName)
  | unknownSource (source : NodeName) (nodes : List NodeName)
  | unknownTarget (target source : NodeName)
  deriving DecidableEq

/-! ## Validators -/

/-- `_max_dev_rounds_only_for_developer`. -/
def NodeSpec.maxDevRoundsOnlyForDeveloper (node : NodeSpec) : Except SpecError Unit :=
  match node.maxDevRounds with
  | none => .ok ()
  | some rounds =>
      if node.role ≠ .developer then .error (.maxDevRoundsOf node.role)
      else if rounds < 1 then .error (.maxDevRoundsBelowOne rounds)
      else .ok ()

/-- `_tool_mode_requires_tools`. -/
def NodeSpec.toolModeRequiresTools (node : NodeSpec) : Except SpecError Unit :=
  match node.toolMode with
  | none => .ok ()
  | some mode => if node.tools = [] then .error (.toolModeWithoutTools mode) else .ok ()

/-- The validators of a node, one after the other. -/
def NodeSpec.validate (node : NodeSpec) : Except SpecError Unit := do
  node.maxDevRoundsOnlyForDeveloper
  node.toolModeRequiresTools

/-- `_exactly_one_path`. -/
def EdgeSpec.exactlyOnePath : EdgeSpec → Except SpecError Unit
  | .to _ _ => .ok ()
  | .branches source _ mapping => if mapping = [] then .error (.notOnePath source) else .ok ()

namespace GraphSpec

variable (spec : GraphSpec)

/-- `set(self.nodes)`. -/
def nodeNames : List NodeName := spec.nodes.map Prod.fst

/-- The check of one target; `none` is `__end__`. -/
def checkTarget (source : NodeName) : Option NodeName → Except SpecError Unit
  | none => .ok ()
  | some target =>
      if target ∈ spec.nodeNames then .ok () else .error (.unknownTarget target source)

/-- The checks of one edge. -/
def checkEdge (edge : EdgeSpec) : Except SpecError Unit := do
  if edge.source ∉ spec.nodeNames then
    throw (.unknownSource edge.source spec.nodeNames)
  edge.targets.forM (spec.checkTarget edge.source)

/-- `_references_resolve`. -/
def referencesResolve : Except SpecError Unit := do
  if spec.entry ∉ spec.nodeNames then
    throw (.unknownEntry spec.entry spec.nodeNames)
  spec.edges.forM spec.checkEdge

/-- The error of a check. -/
def errorOf : Except SpecError Unit → Option SpecError
  | .ok _ => none
  | .error e => some e

/-- `GraphSpec.model_validate`. -/
def modelValidate : Except (List SpecError) Unit :=
  let errors := spec.nodes.filterMap (fun entry => errorOf entry.2.validate) ++
    spec.edges.filterMap (fun edge => errorOf edge.exactlyOnePath)
  if errors ≠ [] then .error errors else spec.referencesResolve.mapError fun e => [e]

/-! ## What an accepted spec satisfies -/

/-- Every name an edge or the entry refers to is that of a node. -/
structure Resolves : Prop where
  entry : spec.entry ∈ spec.nodeNames
  source : ∀ edge ∈ spec.edges, edge.source ∈ spec.nodeNames
  target : ∀ edge ∈ spec.edges, ∀ n, some n ∈ edge.targets → n ∈ spec.nodeNames

variable {spec}

theorem checkTarget_ok_iff {source : NodeName} {target : Option NodeName} :
    spec.checkTarget source target = .ok () ↔ ∀ n, some n = target → n ∈ spec.nodeNames := by
  cases target with
  | none => simp [checkTarget]
  | some n =>
      unfold checkTarget
      by_cases hn : n ∈ spec.nodeNames
      · simp [hn]
      · simp [hn]

theorem checkEdge_ok_iff {edge : EdgeSpec} :
    spec.checkEdge edge = .ok () ↔
      edge.source ∈ spec.nodeNames ∧ ∀ n, some n ∈ edge.targets → n ∈ spec.nodeNames := by
  unfold checkEdge
  by_cases hsource : edge.source ∈ spec.nodeNames
  · rw [if_neg (not_not.mpr hsource)]
    show edge.targets.forM (spec.checkTarget edge.source) = .ok () ↔ _
    rw [Fallible.forM_eq_ok_iff]
    simp only [checkTarget_ok_iff, hsource, true_and]
    exact ⟨fun h n hn => h (some n) hn n rfl, fun h target ht n hn => h n (hn ▸ ht)⟩
  · rw [if_pos hsource]
    constructor
    · intro h
      cases h
    · exact fun h => absurd h.1 hsource

theorem referencesResolve_ok_iff : spec.referencesResolve = .ok () ↔ spec.Resolves := by
  unfold referencesResolve
  by_cases hentry : spec.entry ∈ spec.nodeNames
  · rw [if_neg (not_not.mpr hentry)]
    show spec.edges.forM spec.checkEdge = .ok () ↔ _
    rw [Fallible.forM_eq_ok_iff]
    simp only [checkEdge_ok_iff]
    exact ⟨fun h => ⟨hentry, fun e he => (h e he).1, fun e he => (h e he).2⟩,
      fun h e he => ⟨h.source e he, h.target e he⟩⟩
  · rw [if_pos hentry]
    constructor
    · intro h
      cases h
    · exact fun h => absurd h.entry hentry

theorem resolves_of_modelValidate (h : spec.modelValidate = .ok ()) : spec.Resolves := by
  unfold modelValidate at h
  dsimp only at h
  split at h
  · cases h
  · exact referencesResolve_ok_iff.mp (Fallible.mapError_eq_ok h)

end GraphSpec

end AgentRoom
