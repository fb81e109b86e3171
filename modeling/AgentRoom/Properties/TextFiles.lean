import AgentRoom.Lib.Utf8Cut
import AgentRoom.Properties.Confinement

set_option autoImplicit false

/-! # Text files as they are served

`GET /workspace/file` decodes the first `_WORKSPACE_MAX_BYTES` bytes of a file strictly. The
bytes of a longer text may end within a character, and then the whole text is refused as if
it were binary.
-/

namespace AgentRoom

open Posix Utf8 Longest

/-- A response shows a text: whole when the cap holds it, else its longest prefix that the cap
holds, so that nothing but the cap's last incomplete character is missing. -/
structure ShowsText (text : List Char) (shown : WorkspaceFileContent) : Prop where
  binary : shown.binary = false
  is_prefix : shown.content.toList <+: text
  whole : (encode text).length ≤ workspaceMaxBytes → shown.content.toList = text
  longest : IsLongest (fun p => p <+: text ∧ (encode p).length ≤ workspaceMaxBytes)
    shown.content.toList
  truncated : shown.truncated = true ↔ workspaceMaxBytes < (encode text).length

/-- The response for a text, cut between characters or across one. -/
theorem fileContent_encode (path : String) (text : List Char) :
    fileContent path (encode text) =
      if CutsBetween (encode text) workspaceMaxBytes then
        { path, content := String.ofList (fitting workspaceMaxBytes text),
          truncated := decide ((encode text).length > workspaceMaxBytes), binary := false }
      else
        { path, content := "", truncated := decide ((encode text).length > workspaceMaxBytes),
          binary := true } := by
  unfold fileContent
  rw [decodeStrict_take_encode]
  split_ifs <;> rfl

theorem showsText_fileContent_iff (path : String) (text : List Char) :
    ShowsText text (fileContent path (encode text)) ↔
      CutsBetween (encode text) workspaceMaxBytes := by
  rw [fileContent_encode]
  constructor
  · intro hshows
    by_contra hacross
    have hbinary := hshows.binary
    rw [if_neg hacross] at hbinary
    cases hbinary
  · intro hbetween
    rw [if_pos hbetween]
    refine ⟨rfl, ?_, ?_, ?_, decide_eq_true_iff⟩
    · rw [String.toList_ofList]
      exact fitting_isPrefix text _
    · intro hle
      rw [String.toList_ofList, fitting_of_length_le hle]
    · rw [String.toList_ofList]
      exact isLongest_fitting text _

/-- **When a text file is served as text.** A file of the workspace whose bytes are a text is
shown as that text, or as its longest prefix under the cap, if and only if no character
stands across the cap. -/
theorem readWorkspaceFile_shows_text_iff {t : FileTree} {setting : String}
    {taskId : Option String} {path : String} {target : Location} {text : List Char}
    (hopen : openWorkspaceFile t setting taskId path = .ok (target, encode text)) :
    (∃ shown, readWorkspaceFile t setting taskId path = .ok shown ∧ ShowsText text shown) ↔
      CutsBetween (encode text) workspaceMaxBytes := by
  have hread : readWorkspaceFile t setting taskId path =
      .ok (fileContent path (encode text)) := by
    rw [readWorkspaceFile, hopen]
    rfl
  rw [← showsText_fileContent_iff path]
  constructor
  · rintro ⟨shown, hshown, hshows⟩
    rw [hread] at hshown
    cases hshown
    exact hshows
  · intro hshows
    exact ⟨_, hread, hshows⟩

/-- A short file is never cut. -/
theorem cutsBetween_of_length_le {bs : List UInt8} {n : Nat} (h : bs.length ≤ n) :
    CutsBetween bs n := by
  intro b hb
  rw [List.getElem?_eq_none h] at hb
  cases hb

def notesDirectories : List Location :=
  [[], [srv], [srv, workspace], [srv, workspace, firstTask]]

theorem notes_placed : [srv, workspace, firstTask, notes].dropLast ∈ notesDirectories ∧
    [srv, workspace, firstTask, notes] ∉ notesDirectories := by
  decide

/-- The workspace of one task, with a file of its own. -/
def notesTree (raw : List UInt8) : FileTree where
  directories := notesDirectories
  files := [([srv, workspace, firstTask, notes], raw)]
  cwd := [srv]
  refuses := fun _ _ => false
  root_mem := by decide
  cwd_mem := by decide
  parent_mem := by decide
  placed := by
    intro f hf
    rw [List.mem_singleton.mp hf]
    exact notes_placed.1
  disjoint := by
    intro f hf
    rw [List.mem_singleton.mp hf]
    exact notes_placed.2

theorem openWorkspaceFile_notesTree (raw : List UInt8) :
    openWorkspaceFile (notesTree raw) "workspace" (some "t1") "notes.txt" =
      .ok ([srv, workspace, firstTask, notes], raw) := rfl

theorem readWorkspaceFile_shows_text_short :
    ∃ shown, readWorkspaceFile (notesTree (encode "héllo".toList)) "workspace" (some "t1")
      "notes.txt" = .ok shown ∧ ShowsText "héllo".toList shown :=
  (readWorkspaceFile_shows_text_iff (openWorkspaceFile_notesTree _)).mpr
    (cutsBetween_of_length_le (by decide))

/-- A text with its only two-byte character across the cap. -/
def acrossCap : List Char := List.replicate (workspaceMaxBytes - 1) 'a' ++ ['é']

theorem encode_acrossCap :
    encode acrossCap = List.replicate (workspaceMaxBytes - 1) 97 ++ [0xc3, 0xa9] := by
  have hrun : ∀ n, encode (List.replicate n 'a') = List.replicate n 97 := by
    intro n
    induction n with
    | zero => rfl
    | succ n ih => rw [List.replicate_succ, encode_cons, ih]; rfl
  rw [acrossCap, encode_append, hrun]
  rfl

/-- One letter more than the cap holds, and the text is served as binary and empty. -/
theorem acrossCap_served_as_binary :
    openWorkspaceFile (notesTree (encode acrossCap)) "workspace" (some "t1") "notes.txt" =
        .ok ([srv, workspace, firstTask, notes], encode acrossCap) ∧
      ¬ ∃ shown, readWorkspaceFile (notesTree (encode acrossCap)) "workspace" (some "t1")
        "notes.txt" = .ok shown ∧ ShowsText acrossCap shown := by
  refine ⟨openWorkspaceFile_notesTree _, ?_⟩
  rintro ⟨shown, hread, hshows⟩
  have hshown : readWorkspaceFile (notesTree (encode acrossCap)) "workspace" (some "t1")
      "notes.txt" = .ok (fileContent "notes.txt" (encode acrossCap)) := by
    rw [readWorkspaceFile, openWorkspaceFile_notesTree]
    rfl
  rw [hshown] at hread
  rw [← Except.ok.inj hread] at hshows
  have hbyte : (encode acrossCap)[workspaceMaxBytes]? = some 0xa9 := by
    rw [encode_acrossCap, List.getElem?_append_right (by rw [List.length_replicate]; omega),
      List.length_replicate]
    rfl
  have hbetween := (showsText_fileContent_iff "notes.txt" acrossCap).mp hshows 0xa9 hbyte
  exact absurd hbetween (by decide)

end AgentRoom
