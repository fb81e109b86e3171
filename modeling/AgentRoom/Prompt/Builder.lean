import AgentRoom.State

set_option autoImplicit false

/-! # The layered prompt builder

A layer renders the state to a text or to nothing and names the message band the text joins.
`PromptBuilder.build` renders the layers in order, drops the blank ones and merges
neighbours of the same band into one message.
-/

namespace AgentRoom

inductive LayerRole
  | system | human
  deriving DecidableEq, Repr

structure Layer where
  name : String
  role : LayerRole
  render : TaskState → Option String

/-- A list of layers with distinct names. -/
structure PromptBuilder where
  layers : List Layer
  names_nodup : (layers.map Layer.name).Nodup

/-- The literal a role is written as. -/
def LayerRole.literal : LayerRole → String
  | .system => "system"
  | .human => "human"

/-- `_SECTION_SEPARATOR`. -/
def sectionSeparator : String := "\n\n"

/-- `_emit`. -/
def emit (role : LayerRole) (parts : List String) : Message :=
  match role with
  | .system => .system (Py.join sectionSeparator parts)
  | .human => .human (Py.join sectionSeparator parts)

/-- The loop of `_group_consecutive`: the current band and its buffer are carried along. -/
def groupFrom (role : LayerRole) (buf : List String) : List (LayerRole × String) → List Message
  | [] => [emit role buf]
  | (r, text) :: rest =>
      if r = role then groupFrom role (buf ++ [text]) rest
      else emit role buf :: groupFrom r [text] rest

/-- `_group_consecutive`, with the empty case of `build`. -/
def groupConsecutive : List (LayerRole × String) → List Message
  | [] => []
  | (r, text) :: rest => groupFrom r [text] rest

/-- What one layer contributes: its text, unless that is absent or blank. -/
def Layer.rendered (l : Layer) (s : TaskState) : Option (LayerRole × String) :=
  match l.render s with
  | none => none
  | some text => if Py.isBlank text then none else some (l.role, text)

/-- The loop of `PromptBuilder.__init__` over `seen`: the first name that comes twice. -/
def duplicateName (seen : List String) : List Layer → Option String
  | [] => none
  | layer :: rest =>
      if layer.name ∈ seen then some layer.name else duplicateName (layer.name :: seen) rest

theorem duplicateName_eq_none_iff (layers : List Layer) :
    ∀ seen : List String, duplicateName seen layers = none ↔
      (layers.map Layer.name).Nodup ∧ ∀ layer ∈ layers, layer.name ∉ seen := by
  induction layers with
  | nil => intro seen; simp [duplicateName]
  | cons layer rest ih =>
      intro seen
      by_cases hseen : layer.name ∈ seen
      · simp [duplicateName, hseen]
      · rw [duplicateName, if_neg hseen, ih, List.map_cons, List.nodup_cons]
        simp only [List.mem_cons, not_or, List.mem_map, forall_eq_or_imp, hseen,
          not_false_eq_true, true_and, not_exists, not_and]
        constructor
        · rintro ⟨hnodup, hfresh⟩
          exact ⟨⟨fun l hl => (hfresh l hl).1, hnodup⟩, fun l hl => (hfresh l hl).2⟩
        · rintro ⟨⟨hne, hnodup⟩, hfresh⟩
          exact ⟨hnodup, fun l hl => ⟨hne l hl, hfresh l hl⟩⟩

namespace PromptBuilder

/-- `PromptBuilder.__init__`; the error is the text of its `ValueError`. -/
def ofLayers (layers : List Layer) : Except String PromptBuilder :=
  match h : duplicateName [] layers with
  | some name => .error ("duplicate layer name: " ++ Py.repr name)
  | none => .ok ⟨layers, ((duplicateName_eq_none_iff layers []).mp h).1⟩

/-- Layers of distinct names make a builder, which holds exactly them. -/
theorem ofLayers_of_nodup {layers : List Layer} (h : (layers.map Layer.name).Nodup) :
    ofLayers layers = .ok ⟨layers, h⟩ := by
  unfold ofLayers
  split
  · next name hname =>
      rw [(duplicateName_eq_none_iff layers []).mpr ⟨h, fun _ _ => List.not_mem_nil⟩] at hname
      cases hname
  · rfl

/-- `PromptBuilder.extend`. -/
def extend (b : PromptBuilder) (more : List Layer) : Except String PromptBuilder :=
  ofLayers (b.layers ++ more)

/-- `PromptBuilder.build`. -/
def build (b : PromptBuilder) (s : TaskState) : List Message :=
  groupConsecutive (b.layers.filterMap (fun l => l.rendered s))

end PromptBuilder

/-- A prompt depends on what its layers render only. -/
theorem PromptBuilder.build_congr {b : PromptBuilder} {s s' : TaskState}
    (h : ∀ l ∈ b.layers, l.render s = l.render s') : b.build s = b.build s' := by
  have hrendered : ∀ l ∈ b.layers, l.rendered s = l.rendered s' := by
    intro l hl
    simp only [Layer.rendered, h l hl]
  exact congrArg groupConsecutive (List.filterMap_congr hrendered)

/-! ## Every rendered text reaches a message -/

/-- Some message of the list has `d` in its text. -/
def Mentions (msgs : List Message) (d : String) : Prop :=
  ∃ m ∈ msgs, Py.Contains (extractText m) d

instance (msgs : List Message) (d : String) : Decidable (Mentions msgs d) :=
  inferInstanceAs (Decidable (∃ m ∈ msgs, Py.Contains (extractText m) d))

theorem Mentions.mono {msgs msgs' : List Message} {d : String} (h : Mentions msgs d)
    (hsub : ∀ m ∈ msgs, m ∈ msgs') : Mentions msgs' d := by
  obtain ⟨m, hm, hd⟩ := h
  exact ⟨m, hsub m hm, hd⟩

theorem extractText_emit (role : LayerRole) (parts : List String) :
    extractText (emit role parts) = Py.join sectionSeparator parts := by
  cases role <;> rfl

theorem mentions_groupFrom {d : String} (rest : List (LayerRole × String)) :
    ∀ (role : LayerRole) (buf : List String), (d ∈ buf ∨ ∃ r, (r, d) ∈ rest) →
      Mentions (groupFrom role buf rest) d := by
  induction rest with
  | nil =>
      rintro role buf (hd | ⟨r, hr⟩)
      · refine ⟨emit role buf, by simp [groupFrom], ?_⟩
        rw [extractText_emit]
        exact Py.contains_join hd
      · cases hr
  | cons p rest ih =>
      obtain ⟨r, text⟩ := p
      intro role buf h
      -- A text of the open role joins the buffer, another role closes it.
      by_cases hr : r = role
      · rw [groupFrom, if_pos hr]
        refine ih role (buf ++ [text]) ?_
        rcases h with hd | ⟨r', hr'⟩
        · exact Or.inl (List.mem_append_left _ hd)
        · rcases List.mem_cons.mp hr' with heq | hmem
          · cases heq
            exact Or.inl (by simp)
          · exact Or.inr ⟨r', hmem⟩
      · rw [groupFrom, if_neg hr]
        rcases h with hd | ⟨r', hr'⟩
        · refine ⟨emit role buf, by simp, ?_⟩
          rw [extractText_emit]
          exact Py.contains_join hd
        · refine Mentions.mono (ih r [text] ?_) (fun m hm => List.mem_cons_of_mem _ hm)
          rcases List.mem_cons.mp hr' with heq | hmem
          · cases heq
            exact Or.inl (by simp)
          · exact Or.inr ⟨r', hmem⟩

/-- **No layer is lost.** The text of every layer that is not blank stands in some message. -/
theorem PromptBuilder.mentions_build {b : PromptBuilder} {s : TaskState} {l : Layer}
    {text : String} (hl : l ∈ b.layers) (hr : l.render s = some text)
    (hblank : Py.isBlank text = false) : Mentions (b.build s) text := by
  have hmem : (l.role, text) ∈ b.layers.filterMap (fun l => l.rendered s) :=
    List.mem_filterMap.mpr ⟨l, hl, by simp [Layer.rendered, hr, hblank]⟩
  unfold PromptBuilder.build
  generalize b.layers.filterMap (fun l => l.rendered s) = xs at hmem
  cases xs with
  | nil => cases hmem
  | cons p rest =>
      obtain ⟨r, t⟩ := p
      refine mentions_groupFrom rest r [t] ?_
      rcases List.mem_cons.mp hmem with heq | hrest
      · cases heq
        exact Or.inl (by simp)
      · exact Or.inr ⟨l.role, hrest⟩

/-- Every letter of a grouped message stands in one of its texts or in the separator. -/
theorem mem_groupFrom {ch : Char} (rest : List (LayerRole × String)) :
    ∀ (role : LayerRole) (buf : List String) (m : Message), m ∈ groupFrom role buf rest →
      ch ∈ (extractText m).toList →
      ch ∈ sectionSeparator.toList ∨ ∃ text, (text ∈ buf ∨ ∃ r, (r, text) ∈ rest) ∧
        ch ∈ text.toList := by
  induction rest with
  | nil =>
      intro role buf m hm hch
      rw [groupFrom, List.mem_singleton] at hm
      rw [hm, extractText_emit] at hch
      exact (Py.mem_join hch).imp_right (fun ⟨text, ht, hc⟩ => ⟨text, .inl ht, hc⟩)
  | cons p rest ih =>
      obtain ⟨r, t⟩ := p
      intro role buf m hm hch
      by_cases hr : r = role
      · rw [groupFrom, if_pos hr] at hm
        refine (ih role (buf ++ [t]) m hm hch).imp_right ?_
        rintro ⟨text, hbuf | ⟨r', hrest⟩, hc⟩
        · rcases List.mem_append.mp hbuf with hb | ht
          · exact ⟨text, .inl hb, hc⟩
          · rw [List.mem_singleton] at ht
            exact ⟨text, .inr ⟨r, by simp [ht]⟩, hc⟩
        · exact ⟨text, .inr ⟨r', List.mem_cons_of_mem _ hrest⟩, hc⟩
      · rw [groupFrom, if_neg hr] at hm
        rcases List.mem_cons.mp hm with rfl | hm
        · rw [extractText_emit] at hch
          exact (Py.mem_join hch).imp_right (fun ⟨text, ht, hc⟩ => ⟨text, .inl ht, hc⟩)
        · refine (ih r [t] m hm hch).imp_right ?_
          rintro ⟨text, ht | ⟨r', hrest⟩, hc⟩
          · rw [List.mem_singleton] at ht
            exact ⟨text, .inr ⟨r, by simp [ht]⟩, hc⟩
          · exact ⟨text, .inr ⟨r', List.mem_cons_of_mem _ hrest⟩, hc⟩

/-- **Nothing is invented.** Every letter of a built prompt stands in the text of a layer or
in the separator. -/
theorem PromptBuilder.mem_build {b : PromptBuilder} {s : TaskState} {m : Message} {ch : Char}
    (hm : m ∈ b.build s) (hch : ch ∈ (extractText m).toList) :
    ch ∈ sectionSeparator.toList ∨
      ∃ l ∈ b.layers, ∃ text, l.render s = some text ∧ ch ∈ text.toList := by
  -- What is rendered is the text of a layer that is not blank.
  have hlayer : ∀ r text, (r, text) ∈ b.layers.filterMap (fun l => l.rendered s) →
      ∃ l ∈ b.layers, l.render s = some text := by
    intro r text hmem
    obtain ⟨l, hl, hrendered⟩ := List.mem_filterMap.mp hmem
    refine ⟨l, hl, ?_⟩
    unfold Layer.rendered at hrendered
    cases hr : l.render s with
    | none => simp [hr] at hrendered
    | some t =>
        simp only [hr] at hrendered
        split at hrendered <;> cases hrendered
        rfl
  unfold PromptBuilder.build at hm
  generalize b.layers.filterMap (fun l => l.rendered s) = xs at hm hlayer
  cases xs with
  | nil => cases hm
  | cons p rest =>
      obtain ⟨r, t⟩ := p
      refine (mem_groupFrom rest r [t] m hm hch).imp_right ?_
      rintro ⟨text, ht | ⟨r', hrest⟩, hc⟩
      · rw [List.mem_singleton] at ht
        obtain ⟨l, hl, hr⟩ := hlayer r t List.mem_cons_self
        exact ⟨l, hl, t, hr, ht ▸ hc⟩
      · obtain ⟨l, hl, hr⟩ := hlayer r' text (List.mem_cons_of_mem _ hrest)
        exact ⟨l, hl, text, hr, hc⟩

/-- Every grouped message is one emitted band. -/
theorem exists_emit_of_mem_groupFrom (rest : List (LayerRole × String)) :
    ∀ (role : LayerRole) (buf : List String), ∀ m ∈ groupFrom role buf rest,
      ∃ r parts, m = emit r parts := by
  induction rest with
  | nil =>
      intro role buf m hm
      rw [groupFrom, List.mem_singleton] at hm
      exact ⟨role, buf, hm⟩
  | cons p rest ih =>
      intro role buf m hm
      unfold groupFrom at hm
      split at hm
      · exact ih _ _ m hm
      · rcases List.mem_cons.mp hm with rfl | hm
        · exact ⟨role, buf, rfl⟩
        · exact ih _ _ m hm

/-- A built prompt holds emitted bands only. -/
theorem PromptBuilder.exists_emit_of_mem_build {b : PromptBuilder} {s : TaskState} {m : Message}
    (hm : m ∈ b.build s) : ∃ r parts, m = emit r parts := by
  unfold PromptBuilder.build groupConsecutive at hm
  split at hm
  · cases hm
  · exact exists_emit_of_mem_groupFrom _ _ _ m hm

/-- A built prompt holds no tool message. -/
theorem PromptBuilder.isTool_of_mem_build {b : PromptBuilder} {s : TaskState} {m : Message}
    (hm : m ∈ b.build s) : m.isTool = false := by
  obtain ⟨r, parts, rfl⟩ := PromptBuilder.exists_emit_of_mem_build hm
  cases r <;> rfl

end AgentRoom
