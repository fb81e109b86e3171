import AgentRoom.Realization
import AgentRoom.Server.Api
import AgentRoom.Validation
import Mathlib.Data.List.Nodup

set_option autoImplicit false

/-! # Accepted specs do not get stuck

A graph built from an accepted spec has an implementation for every node that is ever scheduled
(`Config.Scheduled`), and if each conditional edge lists the labels of its router, every node has a
way out in every state that its edge can read. A checkpoint is then at the end of the graph, waits
for a decision, is left by a call that has used up its recursion limit, or is carried on by every
superstep whose node does not fail (`Graph.GoesOn`). The specs of a server are of this kind, and so
are its tasks, also those that a resume moves to another graph.
-/

namespace AgentRoom

open Transition

/-! ## Specs -/

/-- A conditional edge lists every label of its router. -/
def EdgeSpec.covers : EdgeSpec → Bool
  | .to _ _ => true
  | .branches _ router mapping =>
      (router.getD .reviewRouter).signals.all fun label => mapping.any (·.1 == label)

def GraphSpec.covers (spec : GraphSpec) : Bool := spec.edges.all EdgeSpec.covers

/-- One way out of each node, the nodes are a dict, and none has the name of a tool node. -/
structure GraphSpec.Sequential (spec : GraphSpec) : Prop where
  sources : (spec.edges.map EdgeSpec.source).Nodup
  names : spec.nodeNames.Nodup
  plain : ∀ n, .tools n ∉ spec.nodeNames

/-- The state holds what the way out of the node looks at: that of a tool-using developer wants the
last message of the transcript. -/
def GraphSpec.Readable (spec : GraphSpec) (n : NodeName) (s : TaskState) : Prop :=
  spec.isReactNode n = true → s.devMessages ≠ []

/-- A router keeps to its labels. -/
theorem RouterName.signal_mem (router : RouterName) (s : TaskState) :
    router.signal s ∈ router.signals := by
  cases router with
  | reviewRouter =>
      show AgentRoom.reviewRouter s ∈ _
      unfold AgentRoom.reviewRouter
      split
      · decide
      · split_ifs <;> decide
  | goalRouter =>
      show AgentRoom.goalRouter s ∈ _
      unfold AgentRoom.goalRouter
      split
      · decide
      · split_ifs <;> decide
  | stuckRouter =>
      show AgentRoom.stuckRouter s ∈ _
      unfold AgentRoom.stuckRouter
      split
      · decide
      · split <;> decide
  | plannerGateRouter =>
      show AgentRoom.plannerGateRouter s ∈ _
      unfold AgentRoom.plannerGateRouter
      split_ifs <;> decide

/-- A state with nothing in it. -/
def TaskState.blank : TaskState := { taskId := "", title := "", description := "" }

/-- Each of its labels is returned in some state. -/
theorem RouterName.exists_signal {router : RouterName} {label : Signal}
    (h : label ∈ router.signals) : ∃ s, router.signal s = label := by
  cases router with
  | reviewRouter =>
      simp only [signals, List.mem_cons, List.not_mem_nil, or_false] at h
      rcases h with rfl | rfl | rfl
      · exact ⟨{ TaskState.blank with review := some resumeReview }, rfl⟩
      · exact ⟨{ TaskState.blank with review := some { resumeReview with decision := .approved } },
          rfl⟩
      · exact ⟨TaskState.blank, rfl⟩
  | goalRouter =>
      simp only [signals, List.mem_cons, List.not_mem_nil, or_false] at h
      rcases h with rfl | rfl | rfl | rfl | rfl
      · exact ⟨{ TaskState.blank with verification := some { passed := true } }, rfl⟩
      · exact ⟨{ TaskState.blank with verification := some { passed := false } }, rfl⟩
      · exact ⟨TaskState.blank, rfl⟩
      · exact ⟨{ TaskState.blank with
          verification := some { passed := false }, verifyRound := 3 }, rfl⟩
      · exact ⟨{ TaskState.blank with
          verification := some { passed := false }, verifyRound := 10 }, rfl⟩
  | stuckRouter =>
      simp only [signals, List.mem_cons, List.not_mem_nil, or_false] at h
      rcases h with rfl | rfl | rfl
      · exact ⟨{ TaskState.blank with
          stuckDecision := some { action := .continue, reasoning := "" } }, rfl⟩
      · exact ⟨{ TaskState.blank with
          stuckDecision := some { action := .replan, reasoning := "" } }, rfl⟩
      · exact ⟨TaskState.blank, rfl⟩
  | plannerGateRouter =>
      simp only [signals, List.mem_cons, List.not_mem_nil, or_false] at h
      rcases h with rfl | rfl
      · exact ⟨{ TaskState.blank with plan := some "1." }, rfl⟩
      · exact ⟨TaskState.blank, rfl⟩

/-! ## Built graphs -/

/-- The nodes an edge leads to. -/
def Edge.targets : Edge → List (Option NodeName)
  | .to target => [target]
  | .router _ branches => branches.map Prod.snd
  | .react toolNode onEnd => [some toolNode, onEnd]

theorem mem_of_lookup_eq_some {α β : Type} [BEq α] [LawfulBEq α] {l : List (α × β)} {k : α} {v : β}
    (h : l.lookup k = some v) : (k, v) ∈ l := by
  obtain ⟨before, after, hl, -⟩ := List.lookup_eq_some_iff.mp h
  rw [hl]
  simp

section Build

variable {reg : Registry} {spec : GraphSpec} {g : Graph}

theorem Graph.exists_impl_of_mem {n : NodeName} {impl : NodeImpl} (h : (n, impl) ∈ g.nodes) :
    ∃ impl', g.impl n = some impl' := by
  have hsome : (g.nodes.lookup n).isSome = true :=
    List.lookup_isSome_iff.mpr ⟨(n, impl), h, by simp⟩
  exact Option.isSome_iff_exists.mp hsome

/-- The nodes that an entry of the spec adds: its own, and its tool node. -/
theorem exists_impl_of_node (hbuild : build reg spec = .ok g) {n : NodeName}
    (hn : n ∈ spec.nodeNames) :
    (∃ impl, g.impl n = some impl) ∧
      (spec.isReactNode n = true → ∃ impl, g.impl (.tools n) = some impl) := by
  obtain ⟨nodes, hnodes, hbuild⟩ := Fallible.bind_eq_ok hbuild
  obtain ⟨edges, -, hbuild⟩ := Fallible.bind_eq_ok hbuild
  cases hbuild
  have hadded : ∀ node, (n, node) ∈ spec.nodes → ∃ added, addNode reg (n, node) = .ok added ∧
      ∀ entry ∈ added, entry ∈ nodes.flatten := by
    intro node hnode
    obtain ⟨added, hadded, hadd⟩ := Fallible.exists_mem_of_mapM_ok hnodes hnode
    exact ⟨added, hadd, fun entry he => List.mem_flatten.mpr ⟨added, hadded, he⟩⟩
  constructor
  · obtain ⟨⟨m, node⟩, hentry, rfl⟩ := List.mem_map.mp hn
    obtain ⟨added, hadd, hsub⟩ := hadded node hentry
    obtain ⟨impl, -, hadd⟩ := Fallible.bind_eq_ok hadd
    split at hadd
    · obtain ⟨tools, -, hadd⟩ := Fallible.bind_eq_ok hadd
      cases hadd
      exact Graph.exists_impl_of_mem (hsub _ List.mem_cons_self)
    · cases hadd
      exact Graph.exists_impl_of_mem (hsub _ List.mem_cons_self)
  · intro hreact
    unfold GraphSpec.isReactNode at hreact
    split at hreact
    · rename_i node hlookup
      obtain ⟨added, hadd, hsub⟩ := hadded node (mem_of_lookup_eq_some hlookup)
      obtain ⟨impl, -, hadd⟩ := Fallible.bind_eq_ok hadd
      rw [if_pos hreact] at hadd
      obtain ⟨tools, -, hadd⟩ := Fallible.bind_eq_ok hadd
      cases hadd
      exact Graph.exists_impl_of_mem (hsub _ (List.mem_cons_of_mem _ List.mem_cons_self))
    · cases hreact

/-- A tool-using developer of the spec is built as one. -/
theorem developer_of_isReactNode (hseq : spec.Sequential) (hbuild : build reg spec = .ok g)
    {n : NodeName} {impl : NodeImpl} (hreact : spec.isReactNode n = true)
    (himpl : g.impl n = some impl) :
    ∃ sys keys tools rounds, impl = .developerReact sys keys tools rounds := by
  obtain ⟨nodes, hnodes, hbuild⟩ := Fallible.bind_eq_ok hbuild
  obtain ⟨edges, -, hbuild⟩ := Fallible.bind_eq_ok hbuild
  cases hbuild
  unfold GraphSpec.isReactNode at hreact
  split at hreact
  · rename_i node hlookup
    have hnode : (n, node) ∈ spec.nodes := mem_of_lookup_eq_some hlookup
    obtain ⟨added, hadded, hin⟩ := List.mem_flatten.mp (mem_of_lookup_eq_some himpl)
    obtain ⟨⟨m, node'⟩, hentry, hadd⟩ := Fallible.exists_mem_of_mem_result hnodes hadded
    -- the nodes of a dict have different names
    have hsame : n = m → node' = node := by
      rintro rfl
      exact congrArg Prod.snd (List.inj_on_of_nodup_map hseq.names hentry hnode rfl)
    obtain ⟨dev, hdev, hadd⟩ := Fallible.bind_eq_ok hadd
    dsimp only at hdev hadd
    by_cases htools : node'.isReact = true
    · rw [if_pos htools] at hadd
      obtain ⟨tools, hresolve, hadd⟩ := Fallible.bind_eq_ok hadd
      cases hadd
      rcases List.mem_cons.mp hin with heq | hin
      · cases heq
        obtain ⟨sys, keys, rounds, rfl⟩ := instantiateNode_react htools hresolve hdev
        exact ⟨sys, keys, tools, rounds, rfl⟩
      · cases List.mem_singleton.mp hin
        exact absurd (List.mem_map_of_mem hnode) (hseq.plain m)
    · rw [if_neg htools] at hadd
      cases hadd
      cases List.mem_singleton.mp hin
      exact absurd (hsame rfl ▸ hreact) htools
  · cases hreact

/-- Where an edge of the graph comes from. -/
theorem exists_edgeSpec (hbuild : build reg spec = .ok g) {n : NodeName} {edge : Edge}
    (h : (n, edge) ∈ g.edges) :
    ∃ e ∈ spec.edges,
      (spec.isReactNode e.source = true ∧ ∃ target, e = .to e.source target ∧
        ((n = e.source ∧ edge = .react (.tools e.source) target) ∨
          (n = .tools e.source ∧ edge = .to (some e.source)))) ∨
      (n = e.source ∧ ((∃ target, e = .to n target ∧ edge = .to target) ∨
        ∃ router mapping, e = .branches n router mapping ∧
          edge = .router (router.getD .reviewRouter) mapping)) := by
  obtain ⟨nodes, -, hbuild⟩ := Fallible.bind_eq_ok hbuild
  obtain ⟨edges, hedges, hbuild⟩ := Fallible.bind_eq_ok hbuild
  cases hbuild
  obtain ⟨added, hadded, hin⟩ := List.mem_flatten.mp h
  obtain ⟨e, he, hadd⟩ := Fallible.exists_mem_of_mem_result hedges hadded
  refine ⟨e, he, ?_⟩
  cases e with
  | «to» source target =>
      by_cases hreact : spec.isReactNode source = true
      · -- a tool-using developer has two edges for its one of the spec
        rw [addEdge, if_pos hreact] at hadd
        obtain rfl := Except.ok.inj hadd
        refine .inl ⟨hreact, target, rfl, ?_⟩
        rcases List.mem_cons.mp hin with heq | hin
        · cases heq
          exact .inl ⟨rfl, rfl⟩
        · cases List.mem_singleton.mp hin
          exact .inr ⟨rfl, rfl⟩
      · rw [addEdge, if_neg hreact] at hadd
        obtain rfl := Except.ok.inj hadd
        cases List.mem_singleton.mp hin
        exact .inr ⟨rfl, .inl ⟨target, rfl, rfl⟩⟩
  | branches source router mapping =>
      by_cases hreact : spec.isReactNode source = true
      · rw [addEdge, if_pos hreact] at hadd
        cases hadd
      · rw [addEdge, if_neg hreact] at hadd
        obtain rfl := Except.ok.inj hadd
        cases List.mem_singleton.mp hin
        exact .inr ⟨rfl, .inr ⟨router, mapping, rfl, rfl⟩⟩

/-- Every target of an edge of the graph is a node of it. -/
theorem exists_impl_of_target (hres : spec.Resolves) (hbuild : build reg spec = .ok g)
    {n m : NodeName} {edge : Edge} (h : (n, edge) ∈ g.edges) (hm : some m ∈ edge.targets) :
    ∃ impl, g.impl m = some impl := by
  obtain ⟨e, he, ⟨hreact, target, hto, hedge⟩ |
      ⟨-, ⟨target, rfl, rfl⟩ | ⟨router, mapping, rfl, rfl⟩⟩⟩ := exists_edgeSpec hbuild h
  · have hsource := exists_impl_of_node hbuild (hres.source e he)
    rcases hedge with ⟨-, rfl⟩ | ⟨-, rfl⟩
    · have hcases : m = .tools e.source ∨ some m = target := by simpa [Edge.targets] using hm
      rcases hcases with rfl | hm
      · exact hsource.2 hreact
      · refine (exists_impl_of_node hbuild (hres.target e he m ?_)).1
        rw [hto, hm]
        exact List.mem_singleton.mpr rfl
    · have hback : m = e.source := by simpa [Edge.targets] using hm
      exact hback ▸ hsource.1
  · exact (exists_impl_of_node hbuild (hres.target _ he m hm)).1
  · exact (exists_impl_of_node hbuild (hres.target _ he m hm)).1

end Build

/-! ## Routing -/

section Routing

variable {g : Graph} {n : NodeName} {s : TaskState}

theorem Graph.target_of_route {m : NodeName} (h : g.route n s = .ok (some m)) :
    ∃ edge, (n, edge) ∈ g.edges ∧ some m ∈ edge.targets := by
  unfold Graph.route at h
  split at h
  · cases h
  · rename_i target hedge
    cases h
    exact ⟨_, mem_of_lookup_eq_some hedge, List.mem_singleton.mpr rfl⟩
  · rename_i router branches hedge
    split at h
    · rename_i target hbranch
      cases h
      exact ⟨_, mem_of_lookup_eq_some hedge,
        List.mem_map_of_mem (f := Prod.snd)
          (List.mem_reverse.mp (mem_of_lookup_eq_some hbranch))⟩
    · cases h
  · rename_i toolNode onEnd hedge
    refine ⟨_, mem_of_lookup_eq_some hedge, ?_⟩
    split_ifs at h
    · cases h
      exact List.mem_cons_of_mem _ List.mem_cons_self
    · cases h
      exact List.mem_cons_self

variable {reg : Registry} {spec : GraphSpec}

/-- No conditional edge leaves a tool-using developer. -/
theorem isReactNode_of_branches (hbuild : build reg spec = .ok g) {router : Option RouterName}
    {mapping : List (Signal × Option NodeName)} (he : .branches n router mapping ∈ spec.edges) :
    spec.isReactNode n = false := by
  obtain ⟨nodes, -, hbuild⟩ := Fallible.bind_eq_ok hbuild
  obtain ⟨edges, hedges, -⟩ := Fallible.bind_eq_ok hbuild
  obtain ⟨added, -, hadd⟩ := Fallible.exists_mem_of_mapM_ok hedges he
  by_contra hreact
  rw [addEdge, if_pos (Bool.not_eq_false _ ▸ hreact)] at hadd
  cases hadd

/-- The branches of a conditional edge are those its node goes by. -/
theorem lookup_of_branches (hseq : spec.Sequential) (hres : spec.Resolves)
    (hbuild : build reg spec = .ok g) {router : Option RouterName}
    {mapping : List (Signal × Option NodeName)} (he : .branches n router mapping ∈ spec.edges) :
    g.edges.lookup n = some (.router (router.getD .reviewRouter) mapping) := by
  have hmem : (n, Edge.router (router.getD .reviewRouter) mapping) ∈ g.edges := by
    obtain ⟨nodes, -, hbuild⟩ := Fallible.bind_eq_ok hbuild
    obtain ⟨edges, hedges, hbuild⟩ := Fallible.bind_eq_ok hbuild
    cases hbuild
    obtain ⟨added, hadded, hadd⟩ := Fallible.exists_mem_of_mapM_ok hedges he
    unfold addEdge at hadd
    dsimp only at hadd
    split at hadd
    · cases hadd
    · cases hadd
      exact List.mem_flatten.mpr ⟨_, hadded, List.mem_singleton.mpr rfl⟩
  have hsome : (g.edges.lookup n).isSome = true := List.lookup_isSome_iff.mpr ⟨_, hmem, by simp⟩
  obtain ⟨edge, hedge⟩ := Option.isSome_iff_exists.mp hsome
  -- no other edge of the spec leaves the node
  have hsame : ∀ e ∈ spec.edges, n = e.source → e = .branches n router mapping :=
    fun e hin hsource => List.inj_on_of_nodup_map hseq.sources hin he hsource.symm
  obtain ⟨e, hin, ⟨-, target, hto, ⟨hsource, -⟩ | ⟨htools, -⟩⟩ |
      ⟨hsource, ⟨target, hto, -⟩ | ⟨router', mapping', hbranches, rfl⟩⟩⟩ :=
    exists_edgeSpec hbuild (mem_of_lookup_eq_some hedge)
  · rw [hsame e hin hsource] at hto
    cases hto
  · exact absurd (htools ▸ hres.source _ he) (hseq.plain e.source)
  · rw [hsame e hin hsource] at hto
    cases hto
  · rw [hsame e hin hsource] at hbranches
    cases hbranches
    exact hedge

/-- The dict of the branches has every label that is listed. -/
theorem lookup_branch_isSome_iff {mapping : List (Signal × Option NodeName)} {label : Signal} :
    (mapping.reverse.lookup label).isSome = true ↔ mapping.any (·.1 == label) = true := by
  rw [List.lookup_isSome_iff, List.any_eq_true]
  constructor
  · rintro ⟨branch, hbranch, hlabel⟩
    exact ⟨branch, List.mem_reverse.mp hbranch, beq_iff_eq.mpr (beq_iff_eq.mp hlabel).symm⟩
  · rintro ⟨branch, hbranch, hlabel⟩
    exact ⟨branch, List.mem_reverse.mpr hbranch, beq_iff_eq.mpr (beq_iff_eq.mp hlabel).symm⟩

/-- **A way out of every node, in every state it can read**, exactly if the conditional edges list
all labels. -/
theorem covers_iff (hseq : spec.Sequential) (hres : spec.Resolves)
    (hbuild : build reg spec = .ok g) :
    spec.covers = true ↔ ∀ n s, spec.Readable n s → ∃ next, g.route n s = .ok next := by
  constructor
  · intro hcovers n s hread
    unfold Graph.route
    split
    · exact ⟨_, rfl⟩
    · exact ⟨_, rfl⟩
    · rename_i router branches hedge
      obtain ⟨e, he, ⟨-, target, -, ⟨-, hedge⟩ | ⟨-, hedge⟩⟩ |
          ⟨-, ⟨target, -, hedge⟩ | ⟨router', mapping, rfl, hedge⟩⟩⟩ :=
        exists_edgeSpec hbuild (mem_of_lookup_eq_some hedge)
      · cases hedge
      · cases hedge
      · cases hedge
      · cases hedge
        have hlisted := List.all_eq_true.mp (List.all_eq_true.mp hcovers _ he) _
          (RouterName.signal_mem (router'.getD .reviewRouter) s)
        obtain ⟨target, htarget⟩ :=
          Option.isSome_iff_exists.mp (lookup_branch_isSome_iff.mpr hlisted)
        rw [htarget]
        exact ⟨_, rfl⟩
    · rename_i toolNode onEnd hedge
      -- only a tool-using developer has such an edge
      have hreact : spec.isReactNode n = true := by
        obtain ⟨e, -, ⟨hreact, target, -, ⟨rfl, -⟩ | ⟨-, hedge⟩⟩ |
            ⟨-, ⟨target, -, hedge⟩ | ⟨router', mapping, -, hedge⟩⟩⟩ :=
          exists_edgeSpec hbuild (mem_of_lookup_eq_some hedge)
        · exact hreact
        all_goals cases hedge
      have hsome : ¬ s.devMessages.isEmpty = true := by simpa using hread hreact
      rw [if_neg hsome]
      split <;> exact ⟨_, rfl⟩
  · intro hroutes
    refine List.all_eq_true.mpr fun e he => ?_
    cases e with
    | «to» source target => rfl
    | branches source router mapping =>
        refine List.all_eq_true.mpr fun label hlabel => ?_
        -- some state makes the router answer with this label
        obtain ⟨s, rfl⟩ := RouterName.exists_signal hlabel
        obtain ⟨next, hnext⟩ := hroutes source s fun hreact => by
          rw [isReactNode_of_branches hbuild he] at hreact
          cases hreact
        unfold Graph.route at hnext
        rw [lookup_of_branches hseq hres hbuild he] at hnext
        dsimp only at hnext
        rw [← lookup_branch_isSome_iff]
        split at hnext
        · rename_i target htarget
          rw [htarget]
          rfl
        · cases hnext

end Routing

/-! ## Progress -/

/-- The scheduled node is one of the graph. -/
def Config.Scheduled (c : Config) (g : Graph) : Prop :=
  ∀ n, c.next = some n → ∃ impl, g.impl n = some impl

/-- Whatever the model, the tools and the oracle answer, the next superstep goes through unless its
node fails. -/
def Graph.GoesOn (g : Graph) (b : Bindings) (c : Config) : Prop :=
  ∃ n impl, c.next = some n ∧ g.impl n = some impl ∧ ∀ w, w.raises = none →
    (∃ e c', g.superstep b w c = .ok (e, c')) ∨
      ∃ error, impl.run b w c.values c.resumes = .error error

section Progress

variable {reg : Registry} {spec : GraphSpec} {g : Graph} {b : Bindings} {c c' : Config}

theorem Graph.goesOn (hseq : spec.Sequential) (hres : spec.Resolves)
    (hbuild : build reg spec = .ok g) (hcovers : spec.covers = true) (hc : c.Scheduled g) {k : ℕ}
    (hk : k ≤ graphRecursionLimit) :
    c.next = none ∨ c.interrupt.isSome = true ∨ k = graphRecursionLimit ∨
      (k < graphRecursionLimit ∧ g.GoesOn b c) := by
  cases hnext : c.next with
  | none => exact .inl rfl
  | some n =>
      cases hint : c.interrupt with
      | some call => exact .inr (.inl rfl)
      | none =>
          obtain ⟨impl, himpl⟩ := hc n hnext
          refine .inr (.inr (hk.eq_or_lt.imp_right fun hlt => ⟨hlt, n, impl, hnext, himpl, ?_⟩))
          intro w hw
          cases hrun : impl.run b w c.values c.resumes with
          | error error => exact .inr ⟨error, rfl⟩
          | ok run =>
              left
              simp only [Graph.superstep, hnext, hint, hw, himpl]
              rw [Fallible.ok_bind hrun]
              cases hi : run.interrupt with
              | some call => exact ⟨_, _, rfl⟩
              | none =>
                  -- a developer's turn leaves the message its edge looks at
                  have hread : spec.Readable n (c.values.apply run.update) := by
                    intro hreact
                    obtain ⟨sys, keys, tools, rounds, rfl⟩ :=
                      developer_of_isReactNode hseq hbuild hreact himpl
                    exact devMessages_ne_nil_of_developerReact hrun
                  obtain ⟨next, hroute⟩ := (covers_iff hseq hres hbuild).mp hcovers n _ hread
                  exact ⟨_, _, Fallible.ok_bind hroute⟩

/-- A node that a route leads to is one of the graph. -/
theorem scheduled_of_route (hres : spec.Resolves) (hbuild : build reg spec = .ok g) {n : NodeName}
    {s : TaskState} (h : g.route n s = .ok c.next) : c.Scheduled g := by
  intro m hm
  rw [hm] at h
  obtain ⟨edge, hedge, htarget⟩ := Graph.target_of_route h
  exact exists_impl_of_target hres hbuild hedge htarget

theorem scheduled_superstep (hres : spec.Resolves) (hbuild : build reg spec = .ok g) {w : World}
    {e : StepLog} (hc : c.Scheduled g) (h : g.superstep b w c = .ok (e, c')) : c'.Scheduled g := by
  obtain ⟨n, impl, -, -, -, -, -, -, ⟨call, -, -, rfl⟩ | ⟨-, -, next, hroute, rfl⟩⟩ :=
    Graph.superstep_inv h
  · exact hc
  · exact scheduled_of_route hres hbuild hroute

theorem scheduled_resumed (hres : spec.Resolves) (hbuild : build reg spec = .ok g) {d : Decision}
    {atNode : AtNode} (h : g.beginResume c d atNode = .ok c')
    (hc : atNode = .toolCall → c.Scheduled g) : c'.Scheduled g := by
  unfold Graph.beginResume at h
  split at h
  · cases h
    exact hc rfl
  · cases h
  · exact scheduled_of_route hres hbuild (Graph.updateState_inv h).2
  · exact scheduled_of_route hres hbuild (Graph.updateState_inv h).2
  · cases h

theorem scheduled_start (hres : spec.Resolves) (hbuild : build reg spec = .ok g) (taskId : String)
    (req : TaskRequest) : (g.start taskId req).Scheduled g := by
  have hentry : g.entry = spec.entry := by
    obtain ⟨nodes, -, hbuild⟩ := Fallible.bind_eq_ok hbuild
    obtain ⟨edges, -, hbuild⟩ := Fallible.bind_eq_ok hbuild
    cases hbuild
    rfl
  intro n hn
  obtain rfl := Option.some.inj hn
  exact (exists_impl_of_node hbuild (hentry ▸ hres.entry)).1

end Progress

/-! ## Presets -/

namespace Preset

/-- The nodes' names and the edges do not depend on the developer. -/
theorem shape_specWith (dev : NodeSpec) (p : Preset) :
    (p.specWith dev).entry = p.spec.entry ∧ (p.specWith dev).nodeNames = p.spec.nodeNames ∧
      (p.specWith dev).edges = p.spec.edges := by
  cases p <;> exact ⟨rfl, rfl, rfl⟩

/-- A preset with any valid node as its tool-using developer is accepted. -/
theorem modelValidate_specWith {dev : NodeSpec} (hdev : dev.validate = .ok ()) (p : Preset) :
    (p.specWith dev).modelValidate = .ok () := by
  have hnone : GraphSpec.errorOf dev.validate = none := by
    rw [hdev]
    rfl
  have hnodes : (p.specWith dev).nodes.filterMap (fun entry => GraphSpec.errorOf entry.2.validate)
      = [] := by
    refine List.filterMap_eq_nil_iff.mpr fun entry hentry => ?_
    cases p <;> simp only [specWith, pipeline, List.mem_cons, List.not_mem_nil, or_false] at hentry
    all_goals
      rcases hentry with rfl | rfl | rfl | rfl | rfl | rfl <;> first | exact hnone | rfl
  have hedges : (p.specWith dev).edges.filterMap (fun e => GraphSpec.errorOf e.exactlyOnePath)
      = [] := by
    cases p <;> rfl
  have hrefs : (p.specWith dev).referencesResolve = .ok () := by
    cases p <;> rfl
  unfold GraphSpec.modelValidate
  rw [hnodes, hedges, hrefs]
  rfl

theorem sequential_specWith (dev : NodeSpec) (p : Preset) : (p.specWith dev).Sequential := by
  obtain ⟨-, hnames, hedges⟩ := p.shape_specWith dev
  constructor
  · rw [hedges]
    cases p <;> decide
  · rw [hnames]
    cases p <;> decide
  · intro n
    rw [hnames]
    cases p <;> simp [GraphSpec.nodeNames, spec, specWith, pipeline]

theorem covers_specWith (dev : NodeSpec) (p : Preset) : (p.specWith dev).covers = true := by
  cases p <;> rfl

end Preset

section Server

variable {srv : Server} {b : Bindings}

/-- Reconciling a valid node with the tools of the server leaves a valid node. -/
theorem Server.validate_reconcileNode {node node' : NodeSpec} (hnode : node.validate = .ok ())
    (h : srv.reconcileNode node = .ok node') : node'.validate = .ok () := by
  unfold Server.reconcileNode at h
  split at h
  · cases h
    exact hnode
  · obtain ⟨⟨⟩, hrounds, -⟩ := Fallible.bind_eq_ok hnode
    dsimp only at h
    split at h
    · cases h
      exact Fallible.ok_bind hrounds
    · rename_i hne
      split at h
      · cases h
      · cases h
        exact (Fallible.ok_bind hrounds).trans (if_neg hne)

/-- The specs of a server are accepted, and their conditional edges list the labels. -/
theorem Server.buildServerSpec_accepted {graph : Option String} {spec : GraphSpec}
    (h : srv.buildServerSpec graph = .ok spec) :
    spec.modelValidate = .ok () ∧ spec.Sequential ∧ spec.covers = true := by
  have hreact : Preset.reactDeveloper.validate = .ok () := rfl
  obtain ⟨p, -, ⟨-, rfl⟩ | ⟨-, dev, hdev, rfl⟩⟩ := Server.buildServerSpec_ok h
  · exact ⟨p.modelValidate_specWith hreact, p.sequential_specWith _, p.covers_specWith _⟩
  · exact ⟨p.modelValidate_specWith (Server.validate_reconcileNode hreact hdev),
      p.sequential_specWith _, p.covers_specWith _⟩

/-- The graph of a service of the server, of which the scheduled node is one. -/
def Server.Serves (srv : Server) (r : TaskRun) : Prop :=
  (∃ graph, srv.taskServiceFor graph = .ok r.graph) ∧ r.config.Scheduled r.graph

/-- A graph of the server, with the spec it is built from. -/
theorem Server.exists_spec {graph : Option String} {g : Graph}
    (h : srv.taskServiceFor graph = .ok g) :
    ∃ reg spec, build reg spec = .ok g ∧ spec.Resolves ∧ spec.Sequential ∧
      spec.covers = true := by
  obtain ⟨reg, -, h⟩ := Fallible.bind_eq_ok h
  obtain ⟨spec, hspec, h⟩ := Fallible.bind_eq_ok h
  obtain ⟨hvalid, hseq, hcovers⟩ := Server.buildServerSpec_accepted hspec
  split at h
  · cases h
  · rename_i g' hbuild
    cases h
    exact ⟨reg, spec, hbuild, GraphSpec.resolves_of_modelValidate hvalid, hseq, hcovers⟩

theorem Server.Serves.step {r r' : TaskRun} {a : HttpAction} (hr : srv.Serves r)
    (h : HttpStep srv b r a r') : srv.Serves r' := by
  obtain ⟨⟨graph, hgraph⟩, hscheduled⟩ := hr
  cases h with
  | superstep hstep =>
      obtain ⟨reg, spec, hbuild, hres, -, -⟩ := Server.exists_spec hgraph
      exact ⟨⟨graph, hgraph⟩, scheduled_superstep hres hbuild hscheduled hstep⟩
  | resume hresume =>
      -- the checkpoint goes to the default graph, and what is scheduled is one of its nodes
      obtain ⟨g, hg, hresume⟩ := Fallible.bind_eq_ok hresume
      obtain ⟨reg, spec, hbuild, hres, -, -⟩ := Server.exists_spec hg
      split at hresume
      · cases hresume
      · rename_i c' hbegin
        cases hresume
        exact ⟨⟨none, hg⟩, scheduled_resumed hres hbuild hbegin (fun h => by cases h)⟩

/-- **No task of a server gets stuck** within the recursion limit. For every server, request and
history over HTTP, also one whose resumes move the task to another graph: the task is at its end,
waits for a decision about a tool call, is left by a call that has used up its limit, or is carried
on by the next superstep, whatever the model, the tools and the oracle answer, unless the node
itself fails. -/
theorem server_task_progress {taskId : String} {req : TaskRequest} {r₀ r : TaskRun}
    {acts : List HttpAction} {k : ℕ} (hcreate : srv.createTask b taskId req = .ok r₀)
    (hrun : Run (LimitedHttpStep srv b) (r₀, 0) acts (r, k)) :
    r.config.next = none ∨ r.config.interrupt.isSome = true ∨ k = graphRecursionLimit ∨
      (k < graphRecursionLimit ∧ r.graph.GoesOn b r.config) := by
  have hstart : srv.Serves r₀ := by
    obtain ⟨-, -, hcreate⟩ := Fallible.bind_eq_ok hcreate
    obtain ⟨-, -, hcreate⟩ := Fallible.bind_eq_ok hcreate
    obtain ⟨g, hg, hcreate⟩ := Fallible.bind_eq_ok hcreate
    cases hcreate
    obtain ⟨reg, spec, hbuild, hres, -, -⟩ := Server.exists_spec hg
    exact ⟨⟨req.graph, hg⟩, scheduled_start hres hbuild taskId req⟩
  obtain ⟨⟨graph, hgraph⟩, hscheduled⟩ :=
    hrun.forget.invariant (P := srv.Serves) (fun _ _ _ hr hstep => hr.step hstep) hstart
  obtain ⟨reg, spec, hbuild, hres, hseq, hcovers⟩ := Server.exists_spec hgraph
  exact Graph.goesOn hseq hres hbuild hcovers hscheduled (hrun.count_le (Nat.zero_le _))

/-- A task in goal mode. -/
def goalTask : TaskRequest := { title := "t", description := "d", graph := some "goal" }

/-- A goal task that is resumed after its plan goes on in the default graph. -/
theorem server_task_progress_resumed :
    ∃ r₀ acts r k, ({} : Server).createTask {} "task" goalTask = .ok r₀ ∧
      Run (LimitedHttpStep {} {}) (r₀, 0) acts (r, k) ∧
      (executedOver acts).map StepLog.node = [.planner, .developer] ∧
      (r.config.next = none ∨ r.config.interrupt.isSome = true ∨ k = graphRecursionLimit ∨
        (k < graphRecursionLimit ∧ r.graph.GoesOn {} r.config)) := by
  let goal := Preset.goal.compiled ({} : Server).devTools false
  let fullReact := Preset.fullReact.compiled ({} : Server).devTools false
  have hcreate : ({} : Server).createTask {} "task" goalTask
      = .ok ⟨goal, goal.start "task" goalTask⟩ := rfl
  let s := initialState "task" goalTask
  let run := planner plannerSystem [] .agreeable s
  let c : Config := { values := s.apply run.update, next := some .developer }
  have hplan : goal.superstep {} .agreeable (goal.start "task" goalTask)
      = .ok (⟨.planner, run, c.values⟩, c) :=
    Graph.superstep_eq rfl rfl rfl rfl rfl rfl rfl
  -- The endpoint resumes on the default graph, whose developer takes the goal task over.
  obtain ⟨c₁, e₁, c₂, hbegin, hturn, hdeveloper⟩ := Preset.exists_resumed_turn (p := .fullReact)
    ({} : Server).devTools false (by decide) c "go on" rfl
  have hresume : ({} : Server).resumeTask c "go on" = .ok ⟨fullReact, c₁⟩ := by
    have hdefault : ({} : Server).taskServiceFor none = .ok fullReact := rfl
    rw [Server.resumeTask, Fallible.ok_bind hdefault, hbegin]
  have hrun : Run (HttpStep {} {}) ⟨goal, goal.start "task" goalTask⟩
      ([.executed goal ⟨.planner, run, c.values⟩] ++ [.resumed "go on"] ++
        [.executed fullReact e₁]) ⟨fullReact, c₂⟩ :=
    ((Run.single (.superstep hplan)).snoc (.resume hresume)).snoc (.superstep hturn)
  obtain ⟨k, -, hwithin⟩ := hrun.within HttpAction.isSuperstep
    (show 3 ≤ graphRecursionLimit by decide)
  have hnodes : [.planner, e₁.node] = [NodeName.planner, .developer] := by
    rw [hdeveloper]
  exact ⟨_, _, _, k, hcreate, hwithin, hnodes, server_task_progress hcreate hwithin⟩

end Server

end AgentRoom
