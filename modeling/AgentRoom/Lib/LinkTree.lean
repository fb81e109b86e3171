import AgentRoom.Lib.LinkWalk
import Mathlib.Logic.Function.Basic

set_option autoImplicit false

/-! # A file system with symbolic links

Directories, files and links at locations. A file is an inode, so that two names can have one
file. `mkdir` and `write` are for locations that no link is on; which of them fail for other
reasons (permissions, lengths of names, space) is up to `refuses`, and `maxLinks` is how many
links the system follows on one path. A file is stored when its directories are made and it is
written: `store_ok_iff` says when that succeeds and `Stored` what it changes. For several files
one after another, `storeAll_ok_iff` and `storeAll_content_iff` say when all are stored and when
each still contains what it was given.
-/

namespace LinkTree

open LinkWalk

variable {ν β : Type*}

inductive Entry (ν : Type*)
  | directory
  | file (inode : Nat)
  | link (target : Route ν)
  deriving DecidableEq

inductive Call
  | mkdir
  | write
  deriving DecidableEq

inductive Fault (ν : Type*)
  | inTheWay (l : Location ν)
  | isDirectory (l : Location ν)
  | noParent (l : Location ν)
  | refused (call : Call) (l : Location ν)
  deriving DecidableEq

structure Tree (ν β : Type*) where
  entry : Location ν → Option (Entry ν)
  /-- Where links can be. -/
  links : List (Location ν)
  contents : Nat → β
  unused : Nat
  cwd : Location ν
  maxLinks : Nat
  refuses : Call → Location ν → Bool
  root_entry : entry [] = some .directory
  cwd_entry : entry cwd = some .directory
  parent_entry : ∀ l n, entry (l ++ [n]) ≠ none → entry l = some .directory
  link_mem : ∀ l r, entry l = some (.link r) → l ∈ links
  inode_lt : ∀ l i, entry l = some (.file i) → i < unused

/-- The inode of a file is one of the first `n`. -/
def Entry.InodeBelow (n : Nat) : Entry ν → Prop
  | .file i => i < n
  | _ => True

instance (n : Nat) : DecidablePred (@Entry.InodeBelow ν n)
  | .file i => inferInstanceAs (Decidable (i < n))
  | .directory => isTrue trivial
  | .link _ => isTrue trivial

/-- A location further up. -/
def Above (d l : Location ν) : Prop := d <+: l ∧ d ≠ l

namespace Tree

def link (t : Tree ν β) : Links ν := fun l =>
  match t.entry l with
  | some (.link r) => some r
  | _ => none

def isDir (t : Tree ν β) (l : Location ν) : Bool :=
  match t.entry l with
  | some .directory => true
  | _ => false

/-- What the file at a location contains. -/
def content (t : Tree ν β) (l : Location ν) : Option β :=
  match t.entry l with
  | some (.file i) => some (t.contents i)
  | _ => none

/-- Where a path leads, if it does not run into an endless loop. -/
def resolve (t : Tree ν β) (r : Route ν) : Option (Location ν) :=
  LinkWalk.resolve t.link t.links.length (r.start t.cwd) r.steps

/-- Two names of one file. -/
def SameFile (t : Tree ν β) (l l' : Location ν) : Prop :=
  l = l' ∨ ∃ i, t.entry l = some (.file i) ∧ t.entry l' = some (.file i)

theorem isDir_iff {t : Tree ν β} {l : Location ν} :
    t.isDir l = true ↔ t.entry l = some .directory := by
  unfold isDir
  split <;> simp_all

theorem link_eq_some_iff {t : Tree ν β} {l : Location ν} {r : Route ν} :
    t.link l = some r ↔ t.entry l = some (.link r) := by
  unfold link
  split <;> simp_all

theorem resolve_eq_some_iff {t : Tree ν β} {r : Route ν} {l : Location ν} :
    t.resolve r = some l ↔ ∃ k, Way t.link (fun _ => True) k (r.start t.cwd) r.steps l :=
  LinkWalk.resolve_eq_some_iff fun _ _ hlink => t.link_mem _ _ (link_eq_some_iff.mp hlink)

/-- Every entry lies in directories up to the root. -/
theorem entry_of_above {t : Tree ν β} {d l : Location ν} (hl : t.entry l ≠ none)
    (hd : Above d l) : t.entry d = some .directory := by
  induction l using List.reverseRecOn with
  | nil => exact absurd (List.prefix_nil.mp hd.1) hd.2
  | append_singleton l n ih =>
      have hparent := t.parent_entry l n hl
      have hpre : d <+: l := by
        rcases List.prefix_concat_iff.mp hd.1 with heq | hpre
        · exact absurd heq hd.2
        · exact hpre
      by_cases heq : d = l
      · rw [heq, hparent]
      · exact ih (by rw [hparent]; exact Option.some_ne_none _) ⟨hpre, heq⟩

theorem linkFree_of_isDir {t : Tree ν β} {l : Location ν} (h : t.entry l = some .directory) :
    LinkFree t.link l := by
  intro d hd
  have hentry : t.entry d = some .directory := by
    by_cases heq : d = l
    · rw [heq, h]
    · exact entry_of_above (by rw [h]; exact Option.some_ne_none _) ⟨hd, heq⟩
  simp [link, hentry]

/-- A path leads to a location that no link is on. -/
theorem linkFree_of_resolve {t : Tree ν β} {r : Route ν} {l : Location ν}
    (h : t.resolve r = some l) : LinkFree t.link l := by
  obtain ⟨k, hway⟩ := resolve_eq_some_iff.mp h
  have hroot : t.link [] = none := by simp [link, t.root_entry]
  refine hway.linkFree hroot ?_
  unfold Route.start
  split
  · exact linkFree_of_isDir t.root_entry
  · exact linkFree_of_isDir t.cwd_entry

/-! ## Making directories and writing files -/

variable [DecidableEq ν]

omit [DecidableEq ν] in
theorem mem_of_lookup [BEq ν] [LawfulBEq ν] {entries : List (Location ν × Entry ν)}
    {l : Location ν} {e : Entry ν} (h : entries.lookup l = some e) : (l, e) ∈ entries := by
  obtain ⟨before, after, rfl, -⟩ := List.lookup_eq_some_iff.mp h
  simp

/-- The tree of some entries, each in a directory, that refuses nothing. -/
def ofEntries (entries : List (Location ν × Entry ν)) (contents : List β) (default : β)
    (maxLinks : Nat) (hroot : entries.lookup [] = some .directory)
    (hparents : ∀ e ∈ entries, e.1 = [] ∨ entries.lookup e.1.dropLast = some .directory)
    (hinodes : ∀ e ∈ entries, e.2.InodeBelow contents.length) : Tree ν β where
  entry l := entries.lookup l
  links := entries.map Prod.fst
  contents i := contents.getD i default
  unused := contents.length
  cwd := []
  maxLinks := maxLinks
  refuses _ _ := false
  root_entry := hroot
  cwd_entry := hroot
  parent_entry := by
    intro l n hentry
    obtain ⟨e, he⟩ := Option.ne_none_iff_exists'.mp hentry
    rcases hparents _ (mem_of_lookup he) with hnil | hparent
    · simp at hnil
    · rwa [List.dropLast_concat] at hparent
  link_mem := fun l r hentry => List.mem_map_of_mem (mem_of_lookup hentry)
  inode_lt := fun l i hentry => hinodes _ (mem_of_lookup hentry)

/-- A new directory or a new file. -/
def place (t : Tree ν β) (l : Location ν) (e : Entry ν)
    (hparent : t.entry l.dropLast = some .directory) (hfree : t.entry l = none)
    (hlink : ∀ r, e ≠ .link r) (hfile : ∀ i, e = .file i → i = t.unused) : Tree ν β :=
  { t with
    entry := Function.update t.entry l (some e)
    unused := t.unused + 1
    root_entry := by
      have hne : [] ≠ l := fun h => by simp [← h, t.root_entry] at hfree
      rw [Function.update_of_ne hne, t.root_entry]
    cwd_entry := by
      have hne : t.cwd ≠ l := fun h => by simp [← h, t.cwd_entry] at hfree
      rw [Function.update_of_ne hne, t.cwd_entry]
    parent_entry := by
      intro l' n hentry
      have hdir : t.entry l' = some .directory := by
        by_cases heq : l' ++ [n] = l
        · rw [← heq, List.dropLast_concat] at hparent
          exact hparent
        · rw [Function.update_of_ne heq] at hentry
          exact t.parent_entry l' n hentry
      have hne : l' ≠ l := fun h => by simp [← h, hdir] at hfree
      rw [Function.update_of_ne hne, hdir]
    link_mem := by
      intro l' r hentry
      by_cases heq : l' = l
      · rw [heq, Function.update_self] at hentry
        exact absurd (Option.some.inj hentry) (hlink r)
      · rw [Function.update_of_ne heq] at hentry
        exact t.link_mem l' r hentry
    inode_lt := by
      intro l' i hentry
      by_cases heq : l' = l
      · rw [heq, Function.update_self] at hentry
        rw [hfile i (Option.some.inj hentry)]
        exact Nat.lt_succ_self _
      · rw [Function.update_of_ne heq] at hentry
        exact Nat.lt_succ_of_lt (t.inode_lt l' i hentry) }

def addDirectory (t : Tree ν β) (l : Location ν) (hparent : t.entry l.dropLast = some .directory)
    (hfree : t.entry l = none) : Tree ν β :=
  t.place l .directory hparent hfree (fun _ h => by cases h) (fun _ h => by cases h)

def addFile (t : Tree ν β) (l : Location ν) (bytes : β)
    (hparent : t.entry l.dropLast = some .directory) (hfree : t.entry l = none) : Tree ν β :=
  { t.place l (.file t.unused) hparent hfree (fun _ h => by cases h)
      (fun _ h => (Entry.file.inj h).symm) with
    contents := Function.update t.contents t.unused bytes }

theorem entry_addDirectory {t : Tree ν β} {l : Location ν}
    (hparent : t.entry l.dropLast = some .directory) (hfree : t.entry l = none) (d : Location ν) :
    (t.addDirectory l hparent hfree).entry d = if d = l then some .directory else t.entry d := by
  by_cases heq : d = l
  · rw [if_pos heq, heq]
    exact Function.update_self ..
  · rw [if_neg heq]
    exact Function.update_of_ne heq ..

theorem entry_addDirectory_self {t : Tree ν β} {l : Location ν}
    (hparent : t.entry l.dropLast = some .directory) (hfree : t.entry l = none) :
    (t.addDirectory l hparent hfree).entry l = some .directory := by
  rw [entry_addDirectory, if_pos rfl]

/-- Makes the directories along some names that are not there. -/
def mkdirs : List ν → (t : Tree ν β) → (here : Location ν) → t.entry here = some .directory →
    Except (Fault ν) (Tree ν β)
  | [], t, _, _ => .ok t
  | n :: rest, t, here, hhere =>
      match hentry : t.entry (here ++ [n]) with
      | some .directory => mkdirs rest t (here ++ [n]) hentry
      | some _ => .error (.inTheWay (here ++ [n]))
      | none =>
          if t.refuses .mkdir (here ++ [n]) then .error (.refused .mkdir (here ++ [n]))
          else
            mkdirs rest
              (t.addDirectory (here ++ [n]) (by rwa [List.dropLast_concat]) hentry) (here ++ [n])
              (entry_addDirectory_self ..)

/-- `mkdir -p`. -/
def mkdir (t : Tree ν β) (l : Location ν) : Except (Fault ν) (Tree ν β) :=
  mkdirs l t [] t.root_entry

/-- Writes a file anew, or what it contains. -/
def write (t : Tree ν β) (l : Location ν) (bytes : β) : Except (Fault ν) (Tree ν β) :=
  if t.refuses .write l then .error (.refused .write l)
  else
    match hentry : t.entry l with
    | some .directory => .error (.isDirectory l)
    | some (.link _) => .error (.inTheWay l)
    | some (.file i) => .ok { t with contents := Function.update t.contents i bytes }
    | none =>
        if hparent : t.isDir l.dropLast then
          .ok (t.addFile l bytes (isDir_iff.mp hparent) hentry)
        else .error (.noParent l)

/-! ### When they succeed -/

/-- A directory, or nothing and free to become one. -/
def Passable (t : Tree ν β) (d : Location ν) : Prop :=
  t.isDir d = true ∨ t.entry d = none ∧ t.refuses .mkdir d = false

/-- Nothing or a file, and free to be written. -/
def Writable (t : Tree ν β) (l : Location ν) : Prop :=
  t.isDir l = false ∧ t.link l = none ∧ t.refuses .write l = false

omit [DecidableEq ν] in
theorem Writable.ne_nil {t : Tree ν β} {l : Location ν} (h : t.Writable l) : l ≠ [] := by
  rintro rfl
  have hdir : t.isDir [] = true := isDir_iff.mpr t.root_entry
  rw [h.1] at hdir
  cases hdir

omit [DecidableEq ν] in
/-- What is neither a directory nor a link. -/
theorem entry_none_or_file_iff {t : Tree ν β} {l : Location ν} :
    (t.entry l = none ∨ ∃ i, t.entry l = some (.file i)) ↔ t.isDir l = false ∧ t.link l = none := by
  unfold isDir link
  cases t.entry l with
  | none => simp
  | some e => cases e <;> simp

omit [DecidableEq ν] in
theorem forall_prefix_cons {P : List ν → Prop} {n : ν} {names : List ν} :
    (∀ d, d <+: n :: names → d ≠ [] → P d) ↔
      P [n] ∧ ∀ d, d <+: names → d ≠ [] → P (n :: d) := by
  constructor
  · intro h
    refine ⟨h [n] (by simp) (by simp), fun d hd _ => h (n :: d) ?_ (by simp)⟩
    exact List.cons_prefix_cons.mpr ⟨rfl, hd⟩
  · rintro ⟨hone, hmore⟩ d hd hne
    cases d with
    | nil => exact absurd rfl hne
    | cons m d =>
        obtain ⟨rfl, htail⟩ := List.cons_prefix_cons.mp hd
        by_cases hnil : d = []
        · rw [hnil]
          exact hone
        · exact hmore d htail hnil

/-- What making directories changes. -/
structure Made (t t' : Tree ν β) (l : Location ν) : Prop where
  links : t'.links = t.links
  contents : t'.contents = t.contents
  unused : t.unused ≤ t'.unused
  cwd : t'.cwd = t.cwd
  maxLinks : t'.maxLinks = t.maxLinks
  refuses : t'.refuses = t.refuses
  onTheWay : ∀ d, d <+: l → t'.entry d = some .directory
  elsewhere : ∀ d, ¬ d <+: l → t'.entry d = t.entry d
  kept : ∀ d, t.entry d ≠ none → t'.entry d = t.entry d

theorem mkdirs_made {names : List ν} {t t' : Tree ν β} {here : Location ν}
    {hhere : t.entry here = some .directory} (h : mkdirs names t here hhere = .ok t') :
    Made t t' (here ++ names) := by
  induction names generalizing t here with
  | nil =>
      cases h
      rw [List.append_nil]
      refine ⟨rfl, rfl, le_rfl, rfl, rfl, rfl, ?_, fun _ _ => rfl, fun _ _ => rfl⟩
      intro d hd
      by_cases heq : d = here
      · rw [heq, hhere]
      · exact entry_of_above (by rw [hhere]; exact Option.some_ne_none _) ⟨hd, heq⟩
  | cons n rest ih =>
      have hassoc : here ++ n :: rest = (here ++ [n]) ++ rest := by simp
      have hon : here ++ [n] <+: (here ++ [n]) ++ rest := List.prefix_append _ _
      unfold mkdirs at h
      rw [hassoc]
      split at h
      · exact ih h
      · cases h
      · rename_i hentry
        split at h
        · cases h
        · -- the new directory lies on the way; every other location is as the rest leaves it
          have hmade := ih h
          refine ⟨hmade.links, hmade.contents, (Nat.le_succ _).trans hmade.unused, hmade.cwd,
            hmade.maxLinks, hmade.refuses, hmade.onTheWay, ?_, ?_⟩
          · intro d hd
            have hne : d ≠ here ++ [n] := fun heq => hd (heq ▸ hon)
            rw [hmade.elsewhere d hd, entry_addDirectory, if_neg hne]
          · intro d hd
            have hne : d ≠ here ++ [n] := fun heq => hd (heq ▸ hentry)
            have hparent : t.entry (here ++ [n]).dropLast = some .directory := by
              rwa [List.dropLast_concat]
            have hsame : (t.addDirectory (here ++ [n]) hparent hentry).entry d = t.entry d := by
              rw [entry_addDirectory, if_neg hne]
            rw [hmade.kept d (hsame ▸ hd), hsame]

theorem passable_addDirectory_iff {t : Tree ν β} {l d : Location ν}
    {hparent : t.entry l.dropLast = some .directory} {hfree : t.entry l = none} (hne : d ≠ l) :
    (t.addDirectory l hparent hfree).Passable d ↔ t.Passable d := by
  unfold Passable
  rw [isDir_iff, isDir_iff, entry_addDirectory, if_neg hne]
  rfl

theorem mkdirs_ok_iff {names : List ν} {t : Tree ν β} {here : Location ν}
    {hhere : t.entry here = some .directory} :
    (∃ t', mkdirs names t here hhere = .ok t') ↔
      ∀ d, d <+: names → d ≠ [] → t.Passable (here ++ d) := by
  induction names generalizing t here with
  | nil =>
      constructor
      · intro _ d hd hne
        exact absurd (List.prefix_nil.mp hd) hne
      · intro _
        exact ⟨t, rfl⟩
  | cons n rest ih =>
      have hassoc : (∀ d, d <+: rest → d ≠ [] → t.Passable (here ++ n :: d)) ↔
          ∀ d, d <+: rest → d ≠ [] → t.Passable ((here ++ [n]) ++ d) := by
        simp only [List.append_assoc, List.cons_append, List.nil_append]
      rw [forall_prefix_cons, hassoc]
      unfold mkdirs
      split
      · rename_i hentry
        rw [ih]
        exact ⟨fun h => ⟨.inl (isDir_iff.mpr hentry), h⟩, fun h => h.2⟩
      · -- a file or a link is in the way
        rename_i e hnot hentry
        constructor
        · rintro ⟨t', h⟩
          cases h
        · rintro ⟨hdir | hnone, -⟩
          · exact absurd (isDir_iff.mp hdir) (by rw [hentry]; simpa using hnot)
          · rw [hentry] at hnone
            cases hnone.1
      · rename_i hentry
        split
        · rename_i hrefused
          constructor
          · rintro ⟨t', h⟩
            cases h
          · rintro ⟨hdir | hnone, -⟩
            · rw [isDir_iff, hentry] at hdir
              cases hdir
            · rw [hrefused] at hnone
              cases hnone.2
        · -- the new directory changes nothing about what comes after it
          rename_i hfree
          have hpass : ∀ d, d ≠ [] →
              ((t.addDirectory (here ++ [n]) (by rwa [List.dropLast_concat]) hentry).Passable
                ((here ++ [n]) ++ d) ↔ t.Passable ((here ++ [n]) ++ d)) := by
            intro d hne
            exact passable_addDirectory_iff (by simpa using hne)
          rw [ih]
          constructor
          · intro h
            refine ⟨.inr ⟨hentry, by simpa using hfree⟩, fun d hd hne => ?_⟩
            exact (hpass d hne).mp (h d hd hne)
          · rintro ⟨-, h⟩ d hd hne
            exact (hpass d hne).mpr (h d hd hne)

omit [DecidableEq ν] in
theorem above_iff_of_ne_nil {d l : Location ν} (hl : l ≠ []) : d <+: l.dropLast ↔ Above d l := by
  obtain ⟨front, n, rfl⟩ : ∃ front n, l = front ++ [n] :=
    ⟨_, _, (List.dropLast_append_getLast hl).symm⟩
  rw [List.dropLast_concat]
  constructor
  · intro h
    refine ⟨h.trans (List.prefix_append _ _), fun heq => ?_⟩
    have hlen := h.length_le
    rw [heq, List.length_append, List.length_singleton] at hlen
    omega
  · rintro ⟨h, hne⟩
    rcases List.prefix_concat_iff.mp h with heq | h
    · exact absurd heq hne
    · exact h

theorem mkdir_made {t t' : Tree ν β} {l : Location ν} (h : t.mkdir l = .ok t') :
    Made t t' l := mkdirs_made h

theorem mkdir_ok_iff {t : Tree ν β} {l : Location ν} :
    (∃ t', t.mkdir l = .ok t') ↔ ∀ d, d <+: l → t.Passable d := by
  unfold mkdir
  rw [mkdirs_ok_iff]
  constructor
  · intro h d hd
    by_cases hnil : d = []
    · rw [hnil]
      exact .inl (isDir_iff.mpr t.root_entry)
    · exact h d hd hnil
  · intro h d hd _
    exact h d hd

/-- An entry that is no directory is neither made nor lost. -/
theorem Made.entry_iff {t t' : Tree ν β} {l d : Location ν} {e : Entry ν} (h : Made t t' l)
    (he : e ≠ .directory) : t'.entry d = some e ↔ t.entry d = some e := by
  by_cases hd : d <+: l
  · have hdir := h.onTheWay d hd
    constructor
    · intro hentry
      rw [hdir] at hentry
      exact absurd (Option.some.inj hentry).symm he
    · intro hentry
      rw [h.kept d (by rw [hentry]; exact Option.some_ne_none _), hentry]
  · rw [h.elsewhere d hd]

theorem Made.link_eq {t t' : Tree ν β} {l : Location ν} (h : Made t t' l) : t'.link = t.link := by
  funext d
  ext r
  rw [link_eq_some_iff, link_eq_some_iff, h.entry_iff (fun he => by cases he)]

theorem Made.isDir_iff {t t' : Tree ν β} {l d : Location ν} (h : Made t t' l) :
    t'.isDir d = true ↔ t.isDir d = true ∨ d <+: l := by
  rw [Tree.isDir_iff, Tree.isDir_iff]
  by_cases hd : d <+: l
  · simp [h.onTheWay d hd, hd]
  · simp [h.elsewhere d hd, hd]

theorem Made.entry_none_iff {t t' : Tree ν β} {l d : Location ν} (h : Made t t' l) :
    t'.entry d = none ↔ t.entry d = none ∧ ¬ d <+: l := by
  by_cases hd : d <+: l
  · simp [h.onTheWay d hd, hd]
  · simp [h.elsewhere d hd, hd]

/-! ### Storing a file -/

theorem write_cases {t t' : Tree ν β} {l : Location ν} {bytes : β}
    (h : t.write l bytes = .ok t') :
    (∃ i, t.entry l = some (.file i) ∧
      t' = { t with contents := Function.update t.contents i bytes }) ∨
    ∃ hparent hentry, t' = t.addFile l bytes hparent hentry := by
  unfold write at h
  split at h
  · cases h
  · split at h
    · cases h
    · cases h
    · rename_i i hentry
      cases h
      exact .inl ⟨i, hentry, rfl⟩
    · rename_i hentry
      split at h
      · rename_i hparent
        cases h
        exact .inr ⟨_, _, rfl⟩
      · cases h

theorem write_ok_iff {t : Tree ν β} {l : Location ν} {bytes : β} :
    (∃ t', t.write l bytes = .ok t') ↔
      (t.entry l = none ∧ t.isDir l.dropLast = true ∨ ∃ i, t.entry l = some (.file i)) ∧
        t.refuses .write l = false := by
  unfold write
  split
  · rename_i hrefused
    simp [hrefused]
  · rename_i hrefused
    split
    · rename_i hentry
      simp [hentry]
    · rename_i r hentry
      simp [hentry]
    · rename_i i hentry
      simp [hentry, hrefused]
    · rename_i hentry
      split
      · rename_i hparent
        simp [hentry, hparent, hrefused]
      · rename_i hparent
        simp [hentry, hparent]

/-- Makes the directories of a file and writes it. -/
def store (t : Tree ν β) (l : Location ν) (bytes : β) : Except (Fault ν) (Tree ν β) :=
  (t.mkdir l.dropLast).bind fun t => t.write l bytes

/-- What storing a file changes: directories above it, and what its names contain. -/
structure Stored (t t' : Tree ν β) (l : Location ν) (bytes : β) : Prop where
  links : t'.links = t.links
  cwd : t'.cwd = t.cwd
  maxLinks : t'.maxLinks = t.maxLinks
  refuses : t'.refuses = t.refuses
  link : t'.link = t.link
  isDir : ∀ d, t'.isDir d = true ↔ t.isDir d = true ∨ Above d l
  entry_none : ∀ d, t'.entry d = none ↔ t.entry d = none ∧ ¬ d <+: l
  sameFile : ∀ d d', t'.SameFile d d' ↔ t.SameFile d d'
  content : ∀ d, t.SameFile l d → t'.content d = some bytes
  content_other : ∀ d, ¬ t.SameFile l d → t'.content d = t.content d

/-- **When a file can be stored**: only directories or nothing above it, and nothing or a file
in its place. -/
theorem store_ok_iff {t : Tree ν β} {l : Location ν} {bytes : β} :
    (∃ t', t.store l bytes = .ok t') ↔ (∀ d, Above d l → t.Passable d) ∧ t.Writable l := by
  have hbind : (∃ t', t.store l bytes = .ok t') ↔
      ∃ t₁, t.mkdir l.dropLast = .ok t₁ ∧ ∃ t', t₁.write l bytes = .ok t' := by
    unfold store
    cases t.mkdir l.dropLast with
    | error fault => simp [Except.bind]
    | ok t₁ => simp [Except.bind]
  have hshort : l ≠ [] → ¬ l <+: l.dropLast := by
    intro hl hpre
    have hlen := hpre.length_le
    have hpos := List.length_pos_iff.mpr hl
    rw [List.length_dropLast] at hlen
    omega
  rw [hbind]
  constructor
  · rintro ⟨t₁, hmkdir, hwrite⟩
    have hmade := mkdir_made hmkdir
    obtain ⟨hplace, hrefuses⟩ := write_ok_iff.mp hwrite
    have hentry : t.entry l = none ∨ ∃ i, t.entry l = some (.file i) := by
      rcases hplace with ⟨hnone, -⟩ | ⟨i, hfile⟩
      · exact .inl (hmade.entry_none_iff.mp hnone).1
      · exact .inr ⟨i, (hmade.entry_iff (fun he => by cases he)).mp hfile⟩
    obtain ⟨hdir, hlink⟩ := entry_none_or_file_iff.mp hentry
    have hwritable : t.Writable l := ⟨hdir, hlink, hmade.refuses ▸ hrefuses⟩
    refine ⟨fun d hd => ?_, hwritable⟩
    exact mkdir_ok_iff.mp ⟨t₁, hmkdir⟩ d ((above_iff_of_ne_nil hwritable.ne_nil).mpr hd)
  · -- the directories that are made are above the file, so its place stays as it was
    rintro ⟨hpass, hwritable⟩
    have hl := hwritable.ne_nil
    obtain ⟨hdir, hlink, hrefuses⟩ := hwritable
    obtain ⟨t₁, hmkdir⟩ :=
      mkdir_ok_iff.mpr fun d hd => hpass d ((above_iff_of_ne_nil hl).mp hd)
    have hmade := mkdir_made hmkdir
    refine ⟨t₁, hmkdir, write_ok_iff.mpr ⟨?_, hmade.refuses ▸ hrefuses⟩⟩
    rcases entry_none_or_file_iff.mpr ⟨hdir, hlink⟩ with hnone | ⟨i, hfile⟩
    · refine .inl ⟨hmade.entry_none_iff.mpr ⟨hnone, hshort hl⟩, ?_⟩
      exact hmade.isDir_iff.mpr (.inr (List.prefix_refl _))
    · exact .inr ⟨i, (hmade.entry_iff (fun he => by cases he)).mpr hfile⟩

omit [DecidableEq ν] in
theorem content_eq_some_iff {t : Tree ν β} {l : Location ν} {bytes : β} :
    t.content l = some bytes ↔ ∃ i, t.entry l = some (.file i) ∧ t.contents i = bytes := by
  unfold content
  split
  · rename_i i hentry
    simp [hentry]
  · rename_i hnot
    constructor
    · intro h
      cases h
    · rintro ⟨i, hentry, -⟩
      exact absurd hentry (hnot i)

/-- Two trees with the same files have the same contents and the same second names. -/
theorem Made.content_eq {t t' : Tree ν β} {l : Location ν} (h : Made t t' l) (d : Location ν) :
    t'.content d = t.content d := by
  ext bytes
  have hfile : ∀ i, t'.entry d = some (.file i) ↔ t.entry d = some (.file i) :=
    fun i => h.entry_iff fun he => by cases he
  simp only [content_eq_some_iff, hfile, h.contents]

theorem Made.sameFile_iff {t t' : Tree ν β} {l : Location ν} (h : Made t t' l)
    (d d' : Location ν) : t'.SameFile d d' ↔ t.SameFile d d' := by
  have hfile : ∀ d i, t'.entry d = some (.file i) ↔ t.entry d = some (.file i) :=
    fun d i => h.entry_iff fun he => by cases he
  simp only [SameFile, hfile]

/-- What writing a file changes. -/
structure Wrote (t t' : Tree ν β) (l : Location ν) (bytes : β) : Prop where
  links : t'.links = t.links
  cwd : t'.cwd = t.cwd
  maxLinks : t'.maxLinks = t.maxLinks
  refuses : t'.refuses = t.refuses
  link : t'.link = t.link
  isDir : ∀ d, t'.isDir d = t.isDir d
  entry_none : ∀ d, t'.entry d = none ↔ t.entry d = none ∧ d ≠ l
  sameFile : ∀ d d', t'.SameFile d d' ↔ t.SameFile d d'
  content : ∀ d, t.SameFile l d → t'.content d = some bytes
  content_other : ∀ d, ¬ t.SameFile l d → t'.content d = t.content d

omit [DecidableEq ν] in
/-- A file that is there is written through its inode. -/
theorem wrote_of_file {t : Tree ν β} {l : Location ν} {i : Nat}
    (hentry : t.entry l = some (.file i)) (bytes : β) :
    Wrote t { t with contents := Function.update t.contents i bytes } l bytes := by
  refine ⟨rfl, rfl, rfl, rfl, rfl, fun _ => rfl, fun d => ?_, fun _ _ => Iff.rfl, ?_, ?_⟩
  · constructor
    · intro hnone
      refine ⟨hnone, fun heq => ?_⟩
      have hl : t.entry l = none := heq ▸ hnone
      rw [hentry] at hl
      cases hl
    · exact fun h => h.1
  · intro d hsame
    have hd : t.entry d = some (.file i) := by
      rcases hsame with rfl | ⟨j, hl, hd⟩
      · exact hentry
      · rw [hentry] at hl
        cases hl
        exact hd
    exact content_eq_some_iff.mpr ⟨i, hd, Function.update_self ..⟩
  · intro d hother
    ext b
    simp only [content_eq_some_iff]
    refine exists_congr fun j => and_congr_right fun hd => ?_
    have hne : j ≠ i := fun heq => hother (.inr ⟨i, hentry, heq ▸ hd⟩)
    rw [Function.update_of_ne hne]

theorem entry_addFile {t : Tree ν β} {l : Location ν} {bytes : β}
    (hparent : t.entry l.dropLast = some .directory) (hfree : t.entry l = none) (d : Location ν) :
    (t.addFile l bytes hparent hfree).entry d =
      if d = l then some (.file t.unused) else t.entry d := by
  by_cases heq : d = l
  · rw [if_pos heq, heq]
    exact Function.update_self ..
  · rw [if_neg heq]
    exact Function.update_of_ne heq ..

section

variable {t : Tree ν β} {l : Location ν} {bytes : β}
  {hparent : t.entry l.dropLast = some .directory} {hfree : t.entry l = none}

theorem link_addFile : (t.addFile l bytes hparent hfree).link = t.link := by
  funext d
  unfold link
  rw [entry_addFile]
  by_cases heq : d = l
  · simp [heq, hfree]
  · simp [heq]

theorem isDir_addFile (d : Location ν) :
    (t.addFile l bytes hparent hfree).isDir d = t.isDir d := by
  unfold isDir
  rw [entry_addFile]
  by_cases heq : d = l
  · simp [heq, hfree]
  · simp [heq]

theorem entry_addFile_none_iff (d : Location ν) :
    (t.addFile l bytes hparent hfree).entry d = none ↔ t.entry d = none ∧ d ≠ l := by
  rw [entry_addFile]
  by_cases heq : d = l
  · simp [heq]
  · simp [heq]

theorem entry_addFile_file_iff (d : Location ν) (i : Nat) :
    (t.addFile l bytes hparent hfree).entry d = some (.file i) ↔
      d = l ∧ i = t.unused ∨ t.entry d = some (.file i) := by
  rw [entry_addFile]
  by_cases heq : d = l
  · subst heq
    simp [hfree, eq_comm]
  · simp [heq]

omit [DecidableEq ν] in
theorem entry_ne_unused (d : Location ν) : t.entry d ≠ some (.file t.unused) :=
  fun h => absurd (t.inode_lt d _ h) (Nat.lt_irrefl _)

/-- A new file has an inode of its own, so no second name. -/
theorem sameFile_addFile_iff (d d' : Location ν) :
    (t.addFile l bytes hparent hfree).SameFile d d' ↔ t.SameFile d d' := by
  constructor
  · rintro (rfl | ⟨i, hd, hd'⟩)
    · exact .inl rfl
    · rw [entry_addFile_file_iff] at hd hd'
      rcases hd with ⟨rfl, rfl⟩ | hold
      · rcases hd' with ⟨rfl, -⟩ | hold'
        · exact .inl rfl
        · exact absurd hold' (entry_ne_unused d')
      · rcases hd' with ⟨rfl, rfl⟩ | hold'
        · exact absurd hold (entry_ne_unused d)
        · exact .inr ⟨i, hold, hold'⟩
  · rintro (rfl | ⟨i, hd, hd'⟩)
    · exact .inl rfl
    · exact .inr ⟨i, (entry_addFile_file_iff d i).mpr (.inr hd),
        (entry_addFile_file_iff d' i).mpr (.inr hd')⟩

theorem content_addFile_self : (t.addFile l bytes hparent hfree).content l = some bytes :=
  content_eq_some_iff.mpr ⟨t.unused, (entry_addFile_file_iff l _).mpr (.inl ⟨rfl, rfl⟩),
    Function.update_self ..⟩

theorem content_addFile_ne {d : Location ν} (hne : d ≠ l) :
    (t.addFile l bytes hparent hfree).content d = t.content d := by
  ext b
  simp only [content_eq_some_iff, entry_addFile, if_neg hne]
  refine exists_congr fun i => and_congr_right fun hd => ?_
  have hi : i ≠ t.unused := fun heq => entry_ne_unused d (heq ▸ hd)
  show Function.update t.contents t.unused bytes i = b ↔ _
  rw [Function.update_of_ne hi]

theorem wrote_addFile : Wrote t (t.addFile l bytes hparent hfree) l bytes where
  links := rfl
  cwd := rfl
  maxLinks := rfl
  refuses := rfl
  link := link_addFile
  isDir := isDir_addFile
  entry_none := entry_addFile_none_iff
  sameFile := sameFile_addFile_iff
  content := by
    rintro d (rfl | ⟨i, hl, -⟩)
    · exact content_addFile_self
    · rw [hfree] at hl
      cases hl
  content_other := fun d hother => content_addFile_ne fun heq => hother (.inl heq.symm)

end

theorem write_wrote {t t' : Tree ν β} {l : Location ν} {bytes : β}
    (h : t.write l bytes = .ok t') : Wrote t t' l bytes := by
  rcases write_cases h with ⟨i, hentry, rfl⟩ | ⟨hparent, hentry, rfl⟩
  · exact wrote_of_file hentry bytes
  · exact wrote_addFile

/-- **What storing a file changes.** -/
theorem store_stored {t t' : Tree ν β} {l : Location ν} {bytes : β}
    (h : t.store l bytes = .ok t') : Stored t t' l bytes := by
  obtain ⟨-, hwritable⟩ := store_ok_iff.mp ⟨t', h⟩
  have habove : ∀ d, d <+: l.dropLast ↔ Above d l :=
    fun d => above_iff_of_ne_nil hwritable.ne_nil
  unfold store at h
  cases hmkdir : t.mkdir l.dropLast with
  | error fault =>
      rw [hmkdir] at h
      cases h
  | ok t₁ =>
      rw [hmkdir] at h
      have hmade := mkdir_made hmkdir
      have hwrote := write_wrote h
      refine ⟨hwrote.links.trans hmade.links, hwrote.cwd.trans hmade.cwd,
        hwrote.maxLinks.trans hmade.maxLinks, hwrote.refuses.trans hmade.refuses,
        hwrote.link.trans hmade.link_eq, fun d => ?_, fun d => ?_, fun d d' => ?_, ?_, ?_⟩
      · rw [hwrote.isDir, hmade.isDir_iff, habove]
      · rw [hwrote.entry_none, hmade.entry_none_iff, habove, and_assoc]
        refine and_congr_right fun _ => ?_
        unfold Above
        constructor
        · rintro ⟨hnot, hne⟩ hpre
          exact hnot ⟨hpre, hne⟩
        · intro hnot
          exact ⟨fun hd => hnot hd.1, fun heq => hnot (heq ▸ List.prefix_refl _)⟩
      · rw [hwrote.sameFile, hmade.sameFile_iff]
      · intro d hd
        exact hwrote.content d ((hmade.sameFile_iff l d).mpr hd)
      · intro d hd
        rw [hwrote.content_other d (fun hsame => hd ((hmade.sameFile_iff l d).mp hsame)),
          hmade.content_eq]

/-! ### Storing several files -/

/-- Stores some files in order. -/
def storeAll (t : Tree ν β) : List (Location ν × β) → Except (Fault ν) (Tree ν β)
  | [] => .ok t
  | (l, bytes) :: rest => (t.store l bytes).bind fun t => t.storeAll rest

/-- There is room for files at some locations: none is above another. -/
def Room (t : Tree ν β) (targets : List (Location ν)) : Prop :=
  ∀ l ∈ targets, t.Writable l ∧ ∀ d, Above d l → t.Passable d ∧ d ∉ targets

omit [DecidableEq ν] in
/-- A target is above no other target. -/
theorem Room.not_above {t : Tree ν β} {targets : List (Location ν)} (h : t.Room targets)
    {l l' : Location ν} (hl : l ∈ targets) (hl' : l' ∈ targets) : ¬ Above l l' :=
  fun habove => ((h l' hl').2 l habove).2 hl

theorem Stored.passable_iff {t t₁ : Tree ν β} {l d : Location ν} {bytes : β}
    (h : Stored t t₁ l bytes) (hpass : ∀ d, Above d l → t.Passable d) (hl : t.isDir l = false) :
    t₁.Passable d ↔ t.Passable d ∧ d ≠ l := by
  unfold Passable
  rw [h.isDir, h.entry_none, h.refuses]
  constructor
  · rintro ((hdir | habove) | ⟨⟨hnone, hnot⟩, hfree⟩)
    · refine ⟨.inl hdir, fun heq => ?_⟩
      rw [heq, hl] at hdir
      cases hdir
    · exact ⟨hpass d habove, habove.2⟩
    · exact ⟨.inr ⟨hnone, hfree⟩, fun heq => hnot (heq ▸ List.prefix_refl _)⟩
  · rintro ⟨hdir | ⟨hnone, hfree⟩, hne⟩
    · exact .inl (.inl hdir)
    · by_cases hpre : d <+: l
      · exact .inl (.inr ⟨hpre, hne⟩)
      · exact .inr ⟨⟨hnone, hpre⟩, hfree⟩

omit [DecidableEq ν] in
theorem Stored.writable_iff {t t₁ : Tree ν β} {l l' : Location ν} {bytes : β}
    (h : Stored t t₁ l bytes) : t₁.Writable l' ↔ t.Writable l' ∧ ¬ Above l' l := by
  have hdir : t₁.isDir l' = false ↔ t.isDir l' = false ∧ ¬ Above l' l := by
    rw [← Bool.not_eq_true, ← Bool.not_eq_true, h.isDir, not_or]
  unfold Writable
  rw [hdir, h.link, h.refuses]
  exact and_right_comm

/-- There is room for a file and for others after it iff there is room for them all. -/
theorem Stored.room_iff {t t₁ : Tree ν β} {l : Location ν} {bytes : β} {rest : List (Location ν)}
    (h : Stored t t₁ l bytes) (hpass : ∀ d, Above d l → t.Passable d) (hl : t.Writable l) :
    t₁.Room rest ↔ t.Room (l :: rest) := by
  constructor
  · intro hroom l' hl'
    rcases List.mem_cons.mp hl' with rfl | hrest
    · refine ⟨hl, fun d hd => ⟨hpass d hd, fun hmem => ?_⟩⟩
      rcases List.mem_cons.mp hmem with heq | hmem
      · exact hd.2 heq
      · exact (h.writable_iff.mp (hroom d hmem).1).2 hd
    · obtain ⟨hwritable, habove⟩ := hroom l' hrest
      refine ⟨(h.writable_iff.mp hwritable).1, fun d hd => ?_⟩
      obtain ⟨hdpass, hdrest⟩ := habove d hd
      obtain ⟨hpassable, hne⟩ := (h.passable_iff hpass hl.1).mp hdpass
      exact ⟨hpassable, List.not_mem_cons_of_ne_of_not_mem hne hdrest⟩
  · intro hroom l' hrest
    obtain ⟨hwritable, habove⟩ := hroom l' (List.mem_cons_of_mem l hrest)
    refine ⟨h.writable_iff.mpr ⟨hwritable, ?_⟩, fun d hd => ?_⟩
    · exact hroom.not_above (List.mem_cons_of_mem l hrest) List.mem_cons_self
    · obtain ⟨hdpass, hdnot⟩ := habove d hd
      obtain ⟨hne, hdrest⟩ := List.ne_and_not_mem_of_not_mem_cons hdnot
      exact ⟨(h.passable_iff hpass hl.1).mpr ⟨hdpass, hne⟩, hdrest⟩

theorem storeAll_cons {t t' : Tree ν β} {l : Location ν} {bytes : β}
    {rest : List (Location ν × β)} (h : t.storeAll ((l, bytes) :: rest) = .ok t') :
    ∃ t₁, t.store l bytes = .ok t₁ ∧ t₁.storeAll rest = .ok t' := by
  unfold storeAll at h
  cases hstore : t.store l bytes with
  | error fault =>
      rw [hstore] at h
      cases h
  | ok t₁ =>
      rw [hstore] at h
      exact ⟨t₁, rfl, h⟩

/-- **When all can be stored.** -/
theorem storeAll_ok_iff {t : Tree ν β} {files : List (Location ν × β)} :
    (∃ t', t.storeAll files = .ok t') ↔ t.Room (files.map Prod.fst) := by
  induction files generalizing t with
  | nil =>
      constructor
      · intro _ l hl
        cases hl
      · intro _
        exact ⟨t, rfl⟩
  | cons f rest ih =>
      obtain ⟨l, bytes⟩ := f
      show (∃ t', (t.store l bytes).bind _ = .ok t') ↔ _
      constructor
      · rintro ⟨t', h⟩
        obtain ⟨t₁, hstore, hrest⟩ := storeAll_cons h
        obtain ⟨hpass, hl⟩ := store_ok_iff.mp ⟨t₁, hstore⟩
        exact ((store_stored hstore).room_iff hpass hl).mp (ih.mp ⟨t', hrest⟩)
      · intro hroom
        obtain ⟨hl, habove⟩ := hroom l List.mem_cons_self
        have hpass : ∀ d, Above d l → t.Passable d := fun d hd => (habove d hd).1
        obtain ⟨t₁, hstore⟩ := @store_ok_iff _ _ _ t l bytes |>.mpr ⟨hpass, hl⟩
        obtain ⟨t', hrest⟩ := ih.mpr (((store_stored hstore).room_iff hpass hl).mpr hroom)
        exact ⟨t', by rw [hstore]; exact hrest⟩

/-- What storing files leaves as it was, and the directories it makes. -/
structure Filled (t t' : Tree ν β) (targets : List (Location ν)) : Prop where
  links : t'.links = t.links
  cwd : t'.cwd = t.cwd
  maxLinks : t'.maxLinks = t.maxLinks
  link : t'.link = t.link
  isDir : ∀ d, t'.isDir d = true ↔ t.isDir d = true ∨ ∃ l ∈ targets, Above d l
  sameFile : ∀ d d', t'.SameFile d d' ↔ t.SameFile d d'
  content_other : ∀ d, (∀ l ∈ targets, ¬ t.SameFile l d) → t'.content d = t.content d

theorem storeAll_filled {t t' : Tree ν β} {files : List (Location ν × β)}
    (h : t.storeAll files = .ok t') : Filled t t' (files.map Prod.fst) := by
  induction files generalizing t with
  | nil =>
      cases h
      exact ⟨rfl, rfl, rfl, rfl, fun d => by simp, fun _ _ => Iff.rfl, fun _ _ => rfl⟩
  | cons f rest ih =>
      obtain ⟨l, bytes⟩ := f
      obtain ⟨t₁, hstore, hrest⟩ := storeAll_cons h
      have hstored := store_stored hstore
      have hfilled := ih hrest
      refine ⟨hfilled.links.trans hstored.links, hfilled.cwd.trans hstored.cwd,
        hfilled.maxLinks.trans hstored.maxLinks, hfilled.link.trans hstored.link, fun d => ?_,
        fun d d' => ?_, fun d hd => ?_⟩
      · rw [hfilled.isDir, hstored.isDir, or_assoc]
        simp only [List.map_cons, List.exists_mem_cons_iff]
      · rw [hfilled.sameFile, hstored.sameFile]
      · rw [List.map_cons, List.forall_mem_cons] at hd
        rw [hfilled.content_other d (fun l' hl' hsame =>
          hd.2 l' hl' ((hstored.sameFile l' d).mp hsame)), hstored.content_other d hd.1]

omit [DecidableEq ν] in
/-- Two names of one file have one content. -/
theorem SameFile.content_eq {t : Tree ν β} {l l' : Location ν} (h : t.SameFile l l') :
    t.content l = t.content l' := by
  rcases h with rfl | ⟨i, hl, hl'⟩
  · rfl
  · unfold content
    rw [hl, hl']

/-- **When each contains what it was given**: names of one file were given the same. -/
theorem storeAll_content_iff {t t' : Tree ν β} {files : List (Location ν × β)}
    (h : t.storeAll files = .ok t') :
    (∀ f ∈ files, t'.content f.1 = some f.2) ↔
      ∀ f ∈ files, ∀ g ∈ files, t.SameFile f.1 g.1 → f.2 = g.2 := by
  constructor
  · intro hcontent f hf g hg hsame
    have hsame' := ((storeAll_filled h).sameFile f.1 g.1).mpr hsame
    have hsome : some f.2 = some g.2 := by
      rw [← hcontent f hf, ← hcontent g hg, hsame'.content_eq]
    exact Option.some.inj hsome
  · intro hsame
    induction files generalizing t with
    | nil =>
        intro f hf
        cases hf
    | cons f rest ih =>
        obtain ⟨l, bytes⟩ := f
        obtain ⟨t₁, hstore, hrest⟩ := storeAll_cons h
        have hstored := store_stored hstore
        have hlater : ∀ g ∈ rest, t'.content g.1 = some g.2 := by
          refine ih hrest fun g hg g' hg' hgg' => ?_
          exact hsame g (List.mem_cons_of_mem _ hg) g' (List.mem_cons_of_mem _ hg')
            ((hstored.sameFile _ _).mp hgg')
        intro g hg
        rcases List.mem_cons.mp hg with rfl | hg
        · by_cases hagain : ∃ g ∈ rest, t.SameFile g.1 l
          · -- a later file of the same inode was given the same
            obtain ⟨g, hg, hgl⟩ := hagain
            have hgl' := ((storeAll_filled h).sameFile g.1 l).mpr hgl
            rw [← hgl'.content_eq, hlater g hg,
              hsame g (List.mem_cons_of_mem _ hg) (l, bytes) List.mem_cons_self hgl]
          · have hkept := (storeAll_filled hrest).content_other l (by
              intro l' hl' hsl
              obtain ⟨g, hg, rfl⟩ := List.mem_map.mp hl'
              exact hagain ⟨g, hg, (hstored.sameFile _ _).mp hsl⟩)
            rw [hkept]
            exact hstored.content l (.inl rfl)
        · exact hlater g hg

end Tree

end LinkTree
