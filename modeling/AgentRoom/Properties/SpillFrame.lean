import AgentRoom.Tools.Spill

set_option autoImplicit false

/-! # What spilling leaves alone

A spilled message is built anew from three fields of the old one. The other fields fall back
to their defaults, so they survive when they held the defaults already.
-/

namespace AgentRoom.Spill

/-- The fields `maybe_spill_tool_message` does not hand on hold their defaults. -/
structure ToolMessage.Bare (m : ToolMessage) : Prop where
  id : m.id = none
  status : m.status = .success
  artifact : m.artifact = .none
  additionalKwargs : m.additionalKwargs = []
  responseMetadata : m.responseMetadata = []

/-- Two tool messages that differ in nothing but content. -/
def AgreeOffContent (m m' : ToolMessage) : Prop := { m' with content := m.content } = m

/-- What may become of one message: a tool message changes in its content at most, any other
message not at all. -/
def OnlyContent {ρ : Type*} : Message ρ → Message ρ → Prop
  | .tool m, .tool m' => AgreeOffContent m m'
  | .other x, .other x' => x' = x
  | _, _ => False

theorem AgreeOffContent.refl (m : ToolMessage) : AgreeOffContent m m := rfl

theorem agreeOffContent_placeholderMessage_iff (r : SpillRef) (m : ToolMessage) :
    AgreeOffContent m (placeholderMessage r m) ↔ m.Bare := by
  obtain ⟨content, toolCallId, name, id, status, artifact, kwargs, metadata⟩ := m
  simp only [AgreeOffContent, placeholderMessage, ToolMessage.mk.injEq, true_and]
  constructor
  · rintro ⟨hid, hstatus, hartifact, hkwargs, hmetadata⟩
    exact ⟨hid.symm, hstatus.symm, hartifact.symm, hkwargs.symm, hmetadata.symm⟩
  · rintro ⟨hid, hstatus, hartifact, hkwargs, hmetadata⟩
    exact ⟨hid.symm, hstatus.symm, hartifact.symm, hkwargs.symm, hmetadata.symm⟩

section Frame

variable {σ ρ : Type*} (store : SpillStore σ) (threshold : Int)

/-- The message is over the threshold and no placeholder yet. -/
def Oversized (m : ToolMessage) : Prop :=
  threshold < (stringify m.content).length ∧ looksLikePlaceholder (stringify m.content) = false

/-- One message keeps its metadata exactly when it is not replaced or has none to lose. -/
theorem agreeOffContent_maybeSpill_iff (s : σ) (m : ToolMessage) :
    AgreeOffContent m (maybeSpillToolMessage store threshold s m).1 ↔
      (Oversized threshold m → m.Bare) := by
  cases hbody : spilledBody threshold m with
  | none =>
      rw [maybeSpill_of_none s hbody]
      refine ⟨fun _ hover => ?_, fun _ => .refl m⟩
      rw [spilledBody_eq_some_iff.mpr ⟨rfl, hover⟩] at hbody
      cases hbody
  | some body =>
      rw [maybeSpill_of_some s hbody, agreeOffContent_placeholderMessage_iff]
      obtain ⟨rfl, hover⟩ := spilledBody_eq_some_iff.mp hbody
      exact ⟨fun hbare _ => hbare, fun h => h hover⟩

/-- **When spilling touches only content.** Over any messages, store and threshold, the result
lines up with the input, other messages are the input's, and tool messages differ in content
alone if and only if every tool message that is replaced had default metadata. -/
theorem spillMessages_only_content_iff (messages : List (Message ρ)) : ∀ s : σ,
    List.Forall₂ OnlyContent messages (spillMessages store threshold s messages).1 ↔
      ∀ m, Message.tool m ∈ messages → Oversized threshold m → m.Bare := by
  induction messages with
  | nil => intro s; simp [spillMessages]
  | cons msg rest ih =>
      intro s
      cases msg with
      | other x =>
          simp only [spillMessages, List.forall₂_cons, OnlyContent, true_and, ih, List.mem_cons,
            reduceCtorEq, false_or]
      | tool m =>
          simp only [spillMessages, List.forall₂_cons, OnlyContent, ih,
            agreeOffContent_maybeSpill_iff, List.mem_cons, Message.tool.injEq]
          constructor
          · rintro ⟨hhead, hrest⟩ m' (rfl | hm')
            · exact hhead
            · exact hrest m' hm'
          · intro h
            exact ⟨h m (.inl rfl), fun m' hm' => h m' (.inr hm')⟩

end Frame

/-- The error of a failed tool call, five letters long. -/
def failedCall : ToolMessage where
  content := .str (PyStr.lit "error")
  toolCallId := PyStr.lit "call-1"
  status := .error

/-- Over a threshold of four letters the error loses its status, whatever the hash. -/
theorem failedCall_loses_status :
    ¬ ∃ sha256, List.Forall₂ OnlyContent [Message.tool (ρ := Unit) failedCall]
      (spillMessages (inMemory sha256) 4 {} [Message.tool failedCall]).1 := by
  rintro ⟨sha256, h⟩
  have hover : Oversized 4 failedCall := ⟨by decide, by decide⟩
  have hagree := (List.forall₂_cons.mp h).1
  have hbare := (agreeOffContent_maybeSpill_iff (inMemory sha256) 4 {} failedCall).mp hagree hover
  cases hbare.status

end AgentRoom.Spill
