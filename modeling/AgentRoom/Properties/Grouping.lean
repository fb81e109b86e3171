import Mathlib.Data.List.SplitBy
import Mathlib.Data.List.TakeWhile
import AgentRoom.Prompt.Builder

set_option autoImplicit false

/-! # What a built prompt is made of

`build` cuts the sections it rendered into maximal runs of one band and sends each run as
one message. The loop carries the open run along; the invariant is that the run is not empty
and belongs to one band.
-/

namespace AgentRoom

/-- Two sections of one band. -/
def sameBand (p q : LayerRole × String) : Bool := p.1 = q.1

/-- A message carries a run: it has the type of the run's band, and it consists of the run's
texts with a blank line between them. -/
def Carries (run : List (LayerRole × String)) (m : Message) : Prop :=
  (∀ p ∈ run, m.type = p.1.literal) ∧
    (m = .system (Py.join "\n\n" (run.map Prod.snd)) ∨
      m = .human (Py.join "\n\n" (run.map Prod.snd)))

/-- The sections a state renders to, in declaration order: the texts that are not blank. -/
def sections (layers : List Layer) (s : TaskState) : List (LayerRole × String) :=
  layers.filterMap fun l =>
    ((l.render s).filter fun text => Py.strip text ≠ "").map fun text => (l.role, text)

/-- The blank test of `build`. -/
theorem Py.strip_eq_empty_iff (s : String) : Py.strip s = "" ↔ Py.isBlank s = true := by
  rw [Py.strip, Py.isBlank, ← String.toList_inj, String.toList_ofList, String.toList_empty,
    List.reverse_eq_nil_iff, List.dropWhile_eq_nil_iff, List.all_eq_true]
  simp only [List.mem_reverse]
  constructor
  · intro hrest x hx
    by_contra hx'
    -- the first letter that is no space is not dropped
    have hne : s.toList.dropWhile Py.isSpace ≠ [] := by
      rw [Ne, List.dropWhile_eq_nil_iff]
      exact fun hall => hx' (hall x hx)
    have hfirst := List.head_dropWhile_not Py.isSpace hne
    rw [hrest _ (List.head_mem hne)] at hfirst
    cases hfirst
  · intro hall x hx
    exact hall x ((List.dropWhile_sublist _).subset hx)

/-- The loop of `build` keeps the sections. -/
theorem filterMap_rendered (layers : List Layer) (s : TaskState) :
    layers.filterMap (fun l => l.rendered s) = sections layers s := by
  refine List.filterMap_congr fun l _ => ?_
  unfold Layer.rendered
  cases l.render s with
  | none => rfl
  | some text =>
      by_cases hblank : Py.isBlank text = true
      · simp [hblank, Py.strip_eq_empty_iff]
      · simp [hblank, Py.strip_eq_empty_iff]

theorem LayerRole.literal_injective : Function.Injective LayerRole.literal := by
  rintro (_ | _) (_ | _) h
  · rfl
  · exact absurd h (by decide)
  · exact absurd h (by decide)
  · rfl

@[simp] theorem type_emit (role : LayerRole) (parts : List String) :
    (emit role parts).type = role.literal := by
  cases role <;> rfl

/-- The open run, as sections. -/
theorem splitBy_openRun {role : LayerRole} {buf : List String} (hbuf : buf ≠ []) :
    (buf.map (Prod.mk role)).splitBy sameBand = [buf.map (Prod.mk role)] := by
  refine List.splitBy_of_isChain (by simpa using hbuf) (List.Pairwise.isChain ?_)
  refine List.pairwise_of_forall_mem_list ?_
  simp [sameBand]

theorem carries_emit (role : LayerRole) (buf : List String) :
    Carries (buf.map (Prod.mk role)) (emit role buf) := by
  have htexts : (buf.map (Prod.mk role)).map Prod.snd = buf := by
    rw [List.map_map]
    exact List.map_id buf
  refine ⟨by simp, ?_⟩
  rw [htexts]
  cases role with
  | system => exact Or.inl rfl
  | human => exact Or.inr rfl

/-- The loop, with an open run of one band: what is left to emit carries the runs of the
sections that are open or still to come. -/
theorem carries_groupFrom (rest : List (LayerRole × String)) :
    ∀ (role : LayerRole) (buf : List String), buf ≠ [] →
      List.Forall₂ Carries ((buf.map (Prod.mk role) ++ rest).splitBy sameBand)
        (groupFrom role buf rest) := by
  induction rest with
  | nil =>
      intro role buf hbuf
      rw [List.append_nil, splitBy_openRun hbuf]
      exact .cons (carries_emit role buf) .nil
  | cons p rest ih =>
      obtain ⟨r, text⟩ := p
      intro role buf hbuf
      -- Either the open run grows by one text, or it is emitted and the next one opens.
      by_cases hr : r = role
      · subst hr
        have hopen : buf.map (Prod.mk r) ++ (r, text) :: rest =
            (buf ++ [text]).map (Prod.mk r) ++ rest := by simp
        rw [groupFrom, if_pos rfl, hopen]
        exact ih r (buf ++ [text]) (by simp)
      · have hcut : ∀ x ∈ (buf.map (Prod.mk role)).getLast?, sameBand x (r, text) = false := by
          intro x hx
          obtain ⟨t, -, rfl⟩ := List.mem_map.mp (List.mem_of_mem_getLast? hx)
          simpa [sameBand] using Ne.symm hr
        rw [groupFrom, if_neg hr, List.splitBy_append_cons rest hcut, splitBy_openRun hbuf]
        exact .cons (carries_emit role buf) (ih r [text] (by simp))

/-- Grouping sends each maximal run of a band as one message. -/
theorem carries_groupConsecutive (rendered : List (LayerRole × String)) :
    List.Forall₂ Carries (rendered.splitBy sameBand) (groupConsecutive rendered) := by
  cases rendered with
  | nil => exact .nil
  | cons p rest => exact carries_groupFrom rest p.1 [p.2] (by simp)

/-- Messages that carry the runs of a list of sections alternate between the bands. -/
theorem alternate_of_carries {runs : List (List (LayerRole × String))} {msgs : List Message}
    (hcarries : List.Forall₂ Carries runs msgs)
    (hruns : runs.IsChain (fun a b => ∃ ha hb, sameBand (a.getLast ha) (b.head hb) = false)) :
    msgs.IsChain (fun m m' => m.type ≠ m'.type) := by
  induction hcarries with
  | nil => exact .nil
  | cons hfirst hrest ih =>
      cases hrest with
      | nil => exact .singleton _
      | cons hnext hmore =>
          obtain ⟨⟨ha, hb, hband⟩, hchain⟩ := List.isChain_cons_cons.mp hruns
          refine List.isChain_cons_cons.mpr ⟨?_, ih hchain⟩
          rw [hfirst.1 _ (List.getLast_mem ha), hnext.1 _ (List.head_mem hb)]
          intro hsame
          exact absurd (LayerRole.literal_injective hsame) (by simpa [sameBand] using hband)

/-- What `build` sends, for a builder over `layers`. -/
theorem build_carries (b : PromptBuilder) (s : TaskState) :
    List.Forall₂ Carries ((sections b.layers s).splitBy sameBand) (b.build s) := by
  rw [← filterMap_rendered]
  exact carries_groupConsecutive _

theorem build_alternates (b : PromptBuilder) (s : TaskState) :
    (b.build s).IsChain (fun m m' => m.type ≠ m'.type) :=
  alternate_of_carries (build_carries b s) (List.isChain_getLast_head_splitBy _ _)

theorem sections_append (layers more : List Layer) (s : TaskState) :
    sections (layers ++ more) s = sections layers s ++ sections more s :=
  List.filterMap_append

/-- **A built prompt loses and reorders nothing.** Layers of distinct names make a builder.
Whatever the state, neighbours in the prompt it builds differ in type, and the messages carry
one by one the maximal runs of equal band of the sections in declaration order. Extending the
builder is making one from the longer list of layers, and when the new names are fresh too,
the prompt carries the sections of both lists. -/
theorem build_maximal_runs {layers : List Layer} (hnames : (layers.map Layer.name).Nodup) :
    ∃ b, PromptBuilder.ofLayers layers = .ok b ∧
      (∀ s, (b.build s).IsChain (fun m m' => m.type ≠ m'.type)) ∧
      (∀ s, List.Forall₂ Carries ((sections layers s).splitBy sameBand) (b.build s)) ∧
      (∀ more, b.extend more = PromptBuilder.ofLayers (layers ++ more)) ∧
      (∀ more, ((layers ++ more).map Layer.name).Nodup →
        ∃ longer, b.extend more = .ok longer ∧
          (∀ s, (longer.build s).IsChain (fun m m' => m.type ≠ m'.type)) ∧
          ∀ s, List.Forall₂ Carries ((sections layers s ++ sections more s).splitBy sameBand)
            (longer.build s)) := by
  refine ⟨⟨layers, hnames⟩, PromptBuilder.ofLayers_of_nodup hnames, build_alternates _,
    build_carries ⟨layers, hnames⟩, fun _ => rfl, ?_⟩
  intro more hmore
  refine ⟨⟨layers ++ more, hmore⟩, PromptBuilder.ofLayers_of_nodup hmore, build_alternates _, ?_⟩
  intro s
  rw [← sections_append]
  exact build_carries ⟨layers ++ more, hmore⟩ s

/-- A system layer, a blank one of the other band, a system layer again and two human ones:
the blank layer does not part the runs around it. -/
def sampleLayers : List Layer :=
  [⟨"identity", .system, fun _ => some "A"⟩, ⟨"task", .human, fun _ => some " "⟩,
    ⟨"rules", .system, fun _ => some "B"⟩, ⟨"plan", .human, fun s => s.plan⟩,
    ⟨"note", .human, fun s => some s.title⟩]

theorem build_maximal_runs_sample :
    (sampleLayers.map Layer.name).Nodup ∧ ∃ b, PromptBuilder.ofLayers sampleLayers = .ok b ∧
      ∀ s, List.Forall₂ Carries ((sections sampleLayers s).splitBy sameBand) (b.build s) := by
  have hnames : (sampleLayers.map Layer.name).Nodup := by decide
  obtain ⟨b, hb, -, hcarries, -⟩ := build_maximal_runs hnames
  exact ⟨hnames, b, hb, hcarries⟩

end AgentRoom
