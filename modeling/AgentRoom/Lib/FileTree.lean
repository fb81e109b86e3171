import AgentRoom.Lib.PosixPath

set_option autoImplicit false

/-! # A file system without symbolic links

Directories and files at locations: every entry lies in a directory, up to the root, and no
location is both. Directories that are there can be entered; which other system calls fail
(permissions, lengths of names) is up to `refuses`.
-/

namespace Posix

/-- A system call on a location. -/
inductive Call
  | stat
  | mkdir
  | read
  | scan
  deriving DecidableEq

/-- What a failed call raises: `ValueError` for a path no call accepts, `OSError` else. -/
inductive Fault
  | valueError (text : String)
  | osError (call : Call) (location : Location)
  deriving DecidableEq

inductive Entry
  | directory
  | file (bytes : List UInt8)
  deriving DecidableEq

structure FileTree where
  directories : List Location
  files : List (Location × List UInt8)
  cwd : Location
  refuses : Call → Location → Bool
  root_mem : [] ∈ directories
  cwd_mem : cwd ∈ directories
  parent_mem : ∀ d ∈ directories, d.dropLast ∈ directories
  placed : ∀ f ∈ files, f.1.dropLast ∈ directories
  disjoint : ∀ f ∈ files, f.1 ∉ directories

/-- A name with a NUL character is passed to no call. -/
def Path.hasNul (p : Path) : Bool := p.steps.any fun s => s.text.contains (Char.ofNat 0)

namespace FileTree

/-- `path.resolve()`: it looks at every name of the path, whether it is there or not. -/
def resolve (t : FileTree) (p : Path) : Except Fault Location :=
  if p.hasNul then .error (.valueError "lstat: embedded null character in path")
  else .ok (p.resolve t.cwd)

/-- What is at a location. -/
def entry (t : FileTree) (l : Location) : Option Entry :=
  if l ∈ t.directories then some .directory
  else (t.files.find? fun f => f.1 = l).map fun f => .file f.2

/-- `path.stat()`, with `none` for a location where nothing is. -/
def stat (t : FileTree) (l : Location) : Except Fault (Option Entry) :=
  if t.refuses .stat l then .error (.osError .stat l) else .ok (t.entry l)

/-- A new directory in a directory. -/
def addDirectory (t : FileTree) (here : Location) (hhere : here ∈ t.directories) (n : Name)
    (hfile : ∀ f ∈ t.files, f.1 ≠ here ++ [n]) : FileTree :=
  { t with
    directories := (here ++ [n]) :: t.directories
    root_mem := List.mem_cons_of_mem _ t.root_mem
    cwd_mem := List.mem_cons_of_mem _ t.cwd_mem
    parent_mem := by
      intro d hd
      rcases List.mem_cons.mp hd with rfl | hd
      · simpa using hhere
      · exact List.mem_cons_of_mem _ (t.parent_mem d hd)
    placed := fun f hf => List.mem_cons_of_mem _ (t.placed f hf)
    disjoint := by
      intro f hf hmem
      rcases List.mem_cons.mp hmem with heq | hmem
      · exact hfile f hf heq
      · exact t.disjoint f hf hmem }

/-- Makes the directories along some steps that are not there. -/
def mkdirs : List Step → (t : FileTree) → (here : Location) → here ∈ t.directories →
    Except Fault FileTree
  | [], t, _, _ => .ok t
  | .up :: rest, t, here, hhere => mkdirs rest t here.dropLast (t.parent_mem here hhere)
  | .into n :: rest, t, here, hhere =>
      if hdir : here ++ [n] ∈ t.directories then mkdirs rest t (here ++ [n]) hdir
      else if hfile : ∀ f ∈ t.files, f.1 ≠ here ++ [n] then
        if t.refuses .mkdir (here ++ [n]) then .error (.osError .mkdir (here ++ [n]))
        else mkdirs rest (t.addDirectory here hhere n hfile) (here ++ [n]) (List.mem_cons_self ..)
      else .error (.osError .mkdir (here ++ [n]))

/-- `path.mkdir(parents=True, exist_ok=True)`. -/
def mkdir (t : FileTree) (p : Path) : Except Fault FileTree :=
  if p.hasNul then .error (.valueError "mkdir: embedded null character in path")
  else if p.absolute then mkdirs p.steps t [] t.root_mem
  else mkdirs p.steps t t.cwd t.cwd_mem

/-- The directories from `root` down to the parent of a location below it. -/
def between (root l : Location) : List Location := l.inits.filter fun d => root <+: d ∧ d ≠ l

/-- `root.rglob("*")`: everything below `root`, except below directories that cannot be
scanned. -/
def rglob (t : FileTree) (root : Location) : List Location :=
  (t.directories ++ t.files.map Prod.fst).filter fun l =>
    root <+: l ∧ l ≠ root ∧ ∀ d ∈ between root l, t.refuses .scan d = false

theorem mem_rglob {t : FileTree} {root l : Location} :
    l ∈ t.rglob root ↔ (l ∈ t.directories ∨ l ∈ t.files.map Prod.fst) ∧ root <+: l ∧ l ≠ root ∧
      ∀ d ∈ between root l, t.refuses .scan d = false := by
  unfold rglob
  rw [List.mem_filter, List.mem_append, decide_eq_true_eq]

theorem prefix_of_mem_rglob {t : FileTree} {root l : Location} (h : l ∈ t.rglob root) :
    root <+: l := by
  have hspec := (List.mem_filter.mp h).2
  simp only [decide_eq_true_eq] at hspec
  exact hspec.1

theorem mem_files_of_entry {t : FileTree} {l : Location} {raw : List UInt8}
    (h : t.entry l = some (.file raw)) : (l, raw) ∈ t.files := by
  unfold entry at h
  split at h
  · cases h
  · obtain ⟨f, hfind, hfile⟩ := Option.map_eq_some_iff.mp h
    cases hfile
    have hl : f.1 = l := by simpa using List.find?_some hfind
    exact hl ▸ List.mem_of_find?_eq_some hfind

theorem resolve_eq_ok {t : FileTree} {p : Path} {l : Location} (h : t.resolve p = .ok l) :
    l = p.resolve t.cwd := by
  unfold resolve at h
  split at h
  · cases h
  · injection h with h
    exact h.symm

/-- Making directories leaves the working directory, the files and the refusals as they are,
and removes no directory. -/
structure Grows (t t' : FileTree) : Prop where
  cwd : t'.cwd = t.cwd
  files : t'.files = t.files
  refuses : t'.refuses = t.refuses
  directories : t.directories ⊆ t'.directories

theorem Grows.refl (t : FileTree) : t.Grows t := ⟨rfl, rfl, rfl, List.Subset.refl _⟩

theorem Grows.trans {t t' t'' : FileTree} (h : t.Grows t') (h' : t'.Grows t'') : t.Grows t'' :=
  ⟨h'.cwd.trans h.cwd, h'.files.trans h.files, h'.refuses.trans h.refuses,
    fun _ hd => h'.directories (h.directories hd)⟩

/-- A file is where it was before, and no directory is made in its place. -/
theorem Grows.entry_file_iff {t t' : FileTree} (h : t.Grows t') {l : Location} {raw : List UInt8} :
    t'.entry l = some (.file raw) ↔ t.entry l = some (.file raw) := by
  constructor
  · intro hfile
    have hdir : l ∉ t'.directories := by
      intro hmem
      rw [entry, if_pos hmem] at hfile
      cases hfile
    rw [entry, if_neg hdir, h.files] at hfile
    rw [entry, if_neg (fun hmem => hdir (h.directories hmem))]
    exact hfile
  · intro hfile
    have hmem : (l, raw) ∈ t'.files := h.files ▸ mem_files_of_entry hfile
    have hdir : l ∉ t.directories := by
      intro hmem
      rw [entry, if_pos hmem] at hfile
      cases hfile
    rw [entry, if_neg hdir] at hfile
    rw [entry, if_neg (t'.disjoint _ hmem), h.files]
    exact hfile

theorem grows_addDirectory (t : FileTree) (here : Location) (hhere : here ∈ t.directories)
    (n : Name) (hfile : ∀ f ∈ t.files, f.1 ≠ here ++ [n]) :
    t.Grows (t.addDirectory here hhere n hfile) :=
  ⟨rfl, rfl, rfl, fun _ hd => List.mem_cons_of_mem _ hd⟩

/-- What making the directories along some steps does. -/
theorem mkdirs_spec {steps : List Step} {t t' : FileTree} {here : Location}
    {hhere : here ∈ t.directories} (h : mkdirs steps t here hhere = .ok t') :
    t.Grows t' ∧ steps.foldl enter here ∈ t'.directories := by
  induction steps generalizing t here with
  | nil =>
      injection h with h
      subst h
      exact ⟨Grows.refl t, hhere⟩
  | cons s rest ih =>
      cases s with
      | up => exact ih h
      | into n =>
          unfold mkdirs at h
          split at h
          · exact ih h
          · split at h
            · split at h
              · cases h
              · obtain ⟨hgrows, hmem⟩ := ih h
                exact ⟨(grows_addDirectory t here hhere n _).trans hgrows, hmem⟩
            · cases h

theorem mkdir_spec {t t' : FileTree} {p : Path} (h : t.mkdir p = .ok t') :
    p.hasNul = false ∧ t.Grows t' ∧ p.resolve t.cwd ∈ t'.directories := by
  unfold mkdir at h
  split at h
  · cases h
  · rename_i hnul
    unfold Path.resolve
    split at h
    · rename_i habs
      rw [if_pos habs]
      exact ⟨by simpa using hnul, mkdirs_spec h⟩
    · rename_i habs
      rw [if_neg habs]
      exact ⟨by simpa using hnul, mkdirs_spec h⟩

/-- Every entry lies in directories up to the root. -/
theorem mem_of_prefix {t : FileTree} {d e : Location} (hd : d ∈ t.directories) (he : e <+: d) :
    e ∈ t.directories := by
  induction d using List.reverseRecOn with
  | nil =>
      rw [List.prefix_nil.mp he]
      exact hd
  | append_singleton d n ih =>
      rcases List.prefix_concat_iff.mp he with rfl | hfront
      · exact hd
      · refine ih ?_ hfront
        have hparent := t.parent_mem _ hd
        rwa [List.dropLast_concat] at hparent

/-- Along directories that are there nothing is made. -/
theorem mkdirs_append {l : List Name} {rest : List Step} {t : FileTree} {here : Location}
    (hhere : here ∈ t.directories) (hend : here ++ l ∈ t.directories) :
    mkdirs (l.map .into ++ rest) t here hhere = mkdirs rest t (here ++ l) hend := by
  induction l generalizing here with
  | nil => simp
  | cons n l ih =>
      have hnext : here ++ [n] ∈ t.directories := by
        refine mem_of_prefix hend ?_
        exact ⟨l, by simp⟩
      rw [List.map_cons, List.cons_append, mkdirs, dif_pos hnext]
      rw [ih hnext (by simpa using hend)]
      simp

end FileTree

end Posix
