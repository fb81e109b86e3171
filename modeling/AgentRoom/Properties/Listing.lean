import AgentRoom.Properties.Confinement

set_option autoImplicit false

/-! # The listing of a workspace agrees with its files

`GET /workspace/files` and `GET /workspace/file` look at the same directory in two ways. A listed
path is a text that leads back to the file it was made from, and a file that can be read by any
path is listed unless a part of its name hides it.
-/

namespace AgentRoom

open Posix

/-! ## What is listed -/

theorem entry_of_stat {t : FileTree} {l : Location} {entry : Option Entry}
    (h : t.stat l = .ok entry) : t.entry l = entry := by
  unfold FileTree.stat at h
  split at h
  · cases h
  · exact Except.ok.inj h

/-- A location that could be listed is listed exactly if it is a file that nothing hides. -/
theorem mem_listed_iff {t : FileTree} {root : Location} {ps : List Location}
    {files : List (Location × List UInt8)} (h : listed t root ps = .ok files)
    (f : Location × List UInt8) :
    f ∈ files ↔ f.1 ∈ ps ∧ t.entry f.1 = some (.file f.2) ∧
      skipped (f.1.drop root.length) = false := by
  induction ps generalizing files with
  | nil =>
      cases h
      simp
  | cons p rest ih =>
      unfold listed at h
      obtain ⟨entry, hstat, h⟩ := Fallible.bind_eq_ok h
      have hentry := entry_of_stat hstat
      rw [List.mem_cons]
      split at h
      · rename_i bytes
        obtain ⟨files', hrest, h⟩ := Fallible.bind_eq_ok h
        cases h
        split
        · -- a file that is hidden is left out
          rename_i hskipped
          rw [ih hrest]
          constructor
          · exact fun hf => ⟨.inr hf.1, hf.2⟩
          · rintro ⟨rfl | hmem, hfile, hshown⟩
            · rw [hskipped] at hshown
              cases hshown
            · exact ⟨hmem, hfile, hshown⟩
        · rename_i hshown
          rw [List.mem_cons, ih hrest]
          constructor
          · rintro (rfl | hf)
            · exact ⟨.inl rfl, hentry, Bool.eq_false_iff.mpr hshown⟩
            · exact ⟨.inr hf.1, hf.2⟩
          · rintro ⟨hp | hmem, hfile, hf⟩
            · left
              obtain ⟨l, raw⟩ := f
              cases hp
              rw [hentry] at hfile
              cases hfile
              rfl
            · exact .inr ⟨hmem, hfile, hf⟩
      · rename_i hnot
        rw [ih h]
        constructor
        · exact fun hf => ⟨.inr hf.1, hf.2⟩
        · rintro ⟨rfl | hmem, hfile, hshown⟩
          · exact absurd (hentry.symm.trans hfile) (hnot f.2)
          · exact ⟨hmem, hfile, hshown⟩

/-- Nothing on the way from a root down to a location hides it from the listing. -/
structure Visible (t : FileTree) (root l : Location) : Prop where
  below : l ≠ root
  scanned : ∀ d ∈ FileTree.between root l, t.refuses .scan d = false
  shown : skipped (l.drop root.length) = false

theorem filesRoot_grows {t t' : FileTree} {setting : String} {taskId : Option String} {root : Path}
    (h : filesRoot t setting taskId = .ok (root, t')) : t.Grows t' := by
  have htask : ∀ id, taskWorkspace t setting id = .ok (root, t') → t.Grows t' := by
    intro id h
    obtain ⟨⟨ws, t''⟩, hws, h⟩ := Fallible.bind_eq_ok h
    obtain ⟨made, hmkdir, h⟩ := Fallible.bind_eq_ok h
    cases h
    exact (FileTree.mkdir_spec (workspaceDir_spec hws).2).2.1.trans (FileTree.mkdir_spec hmkdir).2.1
  unfold filesRoot at h
  split at h
  · split at h
    · cases h
      exact .refl _
    · exact htask _ h
  · cases h
    exact .refl _

/-- The listing, in terms of the files of the tree. -/
theorem mem_listedFiles_iff {t : FileTree} {setting : String} {taskId : Option String}
    {here : Location} {files : List (Location × List UInt8)}
    (h : listedFiles t setting taskId = .ok (here, files)) (f : Location × List UInt8) :
    here = rootLocation (baseWorkspace t setting) taskId ∧
      (f ∈ files ↔ t.entry f.1 = some (.file f.2) ∧ here <+: f.1 ∧ Visible t here f.1) := by
  unfold listedFiles at h
  obtain ⟨⟨root, t'⟩, hroot, h⟩ := Fallible.bind_eq_ok h
  obtain ⟨files', hlisted, h⟩ := Fallible.bind_eq_ok h
  cases h
  obtain ⟨hcwd, hlocation⟩ := filesRoot_spec hroot
  have hgrows := filesRoot_grows hroot
  refine ⟨hcwd ▸ hlocation, ?_⟩
  rw [mem_listed_iff hlisted, List.mem_insertionSort]
  constructor
  · rintro ⟨hmem, hfile, hshown⟩
    have hspec := FileTree.mem_rglob.mp hmem
    refine ⟨hgrows.entry_file_iff.mp hfile, hspec.2.1, hspec.2.2.1, ?_, hshown⟩
    rw [← hgrows.refuses]
    exact hspec.2.2.2
  · rintro ⟨hfile, hbelow, hvisible⟩
    have hmem := FileTree.mem_files_of_entry hfile
    refine ⟨FileTree.mem_rglob.mpr ⟨.inr ?_, hbelow, hvisible.below, ?_⟩,
      hgrows.entry_file_iff.mpr hfile, hvisible.shown⟩
    · rw [hgrows.files]
      exact List.mem_map_of_mem hmem
    · rw [hgrows.refuses]
      exact hvisible.scanned

/-! ## What is read -/

/-- The path of a location as the listing shows it. -/
def relativeText (root l : Location) : String :=
  String.ofList (Path.text ⟨false, (l.drop root.length).map .into⟩)

/-- The names of a location can be passed to a system call. -/
theorem hasNul_path_eq_false_iff {l : Location} :
    l.path.hasNul = false ↔ ∀ n ∈ l, Char.ofNat 0 ∉ n.1 := by
  simp [Path.hasNul, Location.path, Step.text]

theorem filesRoot_hasNul {t t' : FileTree} {setting : String} {taskId : Option String} {root : Path}
    (h : filesRoot t setting taskId = .ok (root, t'))
    (hbase : (rootLocation (baseWorkspace t setting) taskId).path.hasNul = false) :
    root.hasNul = false := by
  have htask : ∀ id, taskWorkspace t setting id = .ok (root, t') → root.hasNul = false := by
    intro id h
    obtain ⟨⟨ws, t''⟩, hws, h⟩ := Fallible.bind_eq_ok h
    obtain ⟨made, hmkdir, h⟩ := Fallible.bind_eq_ok h
    cases h
    exact (FileTree.mkdir_spec hmkdir).1
  unfold filesRoot at h
  unfold rootLocation at hbase
  split at h
  · split at h
    · rename_i hempty
      cases h
      dsimp only at hbase
      rwa [if_pos hempty] at hbase
    · exact htask _ h
  · cases h
    exact hbase

/-- The listed path of a location leads back to it. -/
theorem resolveWithinRoot_relativeText {t : FileTree} {root : Path} {l : Location}
    (hroot : root.hasNul = false) (hbelow : root.resolve t.cwd <+: l) (hl : l.path.hasNul = false)
    (hstat : t.refuses .stat (root.resolve t.cwd) = false)
    (hdir : root.resolve t.cwd ∈ t.directories) :
    resolveWithinRoot t root (relativeText (root.resolve t.cwd) l) = .ok l := by
  obtain ⟨rel, rfl⟩ := hbelow
  have hresolve : t.resolve root = .ok (root.resolve t.cwd) := by
    rw [FileTree.resolve, hroot]
    rfl
  generalize root.resolve t.cwd = here at *
  have hentry : t.stat here = .ok (some .directory) := by
    rw [FileTree.stat, hstat, FileTree.entry, if_pos hdir]
    rfl
  have hcandidate : Path.parse (relativeText here (here ++ rel)).toList
      = ⟨false, rel.map .into⟩ := by
    rw [relativeText, String.toList_ofList, Path.parse_text, List.drop_left]
  have hjoin : here.path.join ⟨false, rel.map .into⟩ = (here ++ rel).path := by
    simp [Path.join, Location.path]
  have htarget : t.resolve (here ++ rel).path = .ok (here ++ rel) := by
    rw [FileTree.resolve, hl, Location.resolve_path]
    rfl
  unfold resolveWithinRoot
  rw [Fallible.ok_bind hresolve, Fallible.ok_bind hentry, hcandidate]
  show (t.resolve (here.path.join ⟨false, rel.map .into⟩) >>= fun target => _) = _
  rw [hjoin, Fallible.ok_bind htarget, if_neg (not_not.mpr (List.prefix_append here rel))]
  rfl

section Reading

variable {t : FileTree} {setting : String} {taskId : Option String} {l : Location}
  {raw : List UInt8}

/-- A directory that a file lies below is there. -/
theorem mem_directories_of_below {root : Location} (hfile : t.entry l = some (.file raw))
    (hbelow : root <+: l) (hne : l ≠ root) : root ∈ t.directories := by
  obtain ⟨rel, rfl⟩ := hbelow
  have hrel : rel ≠ [] := by
    rintro rfl
    exact hne (List.append_nil root)
  refine FileTree.mem_of_prefix (t.placed _ (FileTree.mem_files_of_entry hfile)) ?_
  rw [List.dropLast_append_of_ne_nil hrel]
  exact List.prefix_append _ _

/-- A file that can be listed is read by its listed path. -/
theorem openWorkspaceFile_relativeText {t' : FileTree} {root : Path} {here : Location}
    (hroot : filesRoot t setting taskId = .ok (root, t'))
    (hhere : here = rootLocation (baseWorkspace t setting) taskId)
    (hfile : t.entry l = some (.file raw)) (hbelow : here <+: l) (hne : l ≠ here)
    (hl : l.path.hasNul = false) (hstat : t.refuses .stat here = false)
    (hseen : t.refuses .stat l = false) :
    openWorkspaceFile t setting taskId (relativeText here l) =
      if t.refuses .read l then .error (.uncaught (.osError .read l)) else .ok (l, raw) := by
  have hgrows := filesRoot_grows hroot
  obtain ⟨hcwd, hlocation⟩ := filesRoot_spec hroot
  rw [← hhere, ← hcwd] at hlocation
  have hnul : root.hasNul = false := by
    refine filesRoot_hasNul hroot (hhere ▸ hasNul_path_eq_false_iff.mpr fun n hn => ?_)
    exact hasNul_path_eq_false_iff.mp hl n (hbelow.subset hn)
  have htarget : resolveWithinRoot t' root (relativeText here l) = .ok l := by
    rw [← hlocation] at hbelow hstat ⊢
    refine resolveWithinRoot_relativeText hnul hbelow hl (hgrows.refuses ▸ hstat) ?_
    rw [hlocation] at hbelow ⊢
    exact hgrows.directories (mem_directories_of_below hfile hbelow hne)
  have hentry : t'.stat l = .ok (some (.file raw)) := by
    rw [FileTree.stat, hgrows.refuses, hseen, hgrows.entry_file_iff.mpr hfile]
    rfl
  unfold openWorkspaceFile
  dsimp only
  rw [Fallible.ok_bind hroot, Fallible.ok_bind htarget]
  simp only [pure, Except.pure, hentry, hgrows.refuses]

/-- What a file that was read is. -/
theorem entry_of_openWorkspaceFile {path : String}
    (h : openWorkspaceFile t setting taskId path = .ok (l, raw)) :
    (∃ root t', filesRoot t setting taskId = .ok (root, t')) ∧ t.entry l = some (.file raw) ∧
      t.refuses .stat l = false ∧ t.refuses .read l = false := by
  unfold openWorkspaceFile at h
  dsimp only at h
  split at h
  · cases h
  · cases h
  · rename_i target t' hrun
    obtain ⟨⟨root, t''⟩, hroot, hrun⟩ := Fallible.bind_eq_ok hrun
    obtain ⟨target', -, hrun⟩ := Fallible.bind_eq_ok hrun
    cases hrun
    have hgrows := filesRoot_grows hroot
    split at h
    · cases h
    · rename_i bytes hstat
      split at h
      · cases h
      · rename_i hread
        cases h
        refine ⟨⟨root, _, hroot⟩, hgrows.entry_file_iff.mp (entry_of_stat hstat), ?_, ?_⟩
        · unfold FileTree.stat at hstat
          split at hstat
          · cases hstat
          · rename_i hseen
            exact hgrows.refuses ▸ Bool.eq_false_iff.mpr hseen
        · exact hgrows.refuses ▸ Bool.eq_false_iff.mpr hread
    · cases h

/-- A listing looks at every file it could list. -/
theorem stat_of_listed {root : Location} {ps : List Location}
    {files : List (Location × List UInt8)} (h : listed t root ps = .ok files) :
    ∀ p ∈ ps, t.refuses .stat p = false := by
  induction ps generalizing files with
  | nil => exact fun p hp => absurd hp List.not_mem_nil
  | cons p rest ih =>
      unfold listed at h
      obtain ⟨entry, hstat, h⟩ := Fallible.bind_eq_ok h
      have hseen : t.refuses .stat p = false := by
        unfold FileTree.stat at hstat
        split at hstat
        · cases hstat
        · rename_i hseen
          exact Bool.eq_false_iff.mpr hseen
      refine List.forall_mem_cons.mpr ⟨hseen, ?_⟩
      split at h
      · obtain ⟨files', hrest, -⟩ := Fallible.bind_eq_ok h
        exact ih hrest
      · exact ih h

theorem stat_of_listedFiles {here : Location} {files : List (Location × List UInt8)}
    (h : listedFiles t setting taskId = .ok (here, files)) {f : Location × List UInt8}
    (hf : f ∈ files) : t.refuses .stat f.1 = false := by
  obtain ⟨⟨root, t'⟩, hroot, h⟩ := Fallible.bind_eq_ok h
  obtain ⟨files', hlisted, h⟩ := Fallible.bind_eq_ok h
  cases h
  rw [← (filesRoot_grows hroot).refuses]
  exact stat_of_listed hlisted f.1 ((mem_listed_iff hlisted f).mp hf).1

/-- **The two endpoints agree.** Take any workspace without symbolic links, whose names have no NUL
and whose root the system does not refuse to look up, any task id and any listing of it. Every
listed path is read, with the announced size, unless the system refuses the file itself; and a file
that some path reads is read by a listed path exactly if no part of its name below the root hides it
and every directory above it can be scanned. -/
theorem listing_agrees {files : List WorkspaceFile}
    (hlist : listWorkspaceFiles t setting taskId = .ok files)
    (hnames : ∀ f ∈ t.files, ∀ n ∈ f.1, Char.ofNat 0 ∉ n.1)
    (hroot : t.refuses .stat (rootLocation (baseWorkspace t setting) taskId) = false) :
    (∀ f ∈ files, ∃ target raw, raw.length = f.size ∧
      openWorkspaceFile t setting taskId f.path =
        if t.refuses .read target then .error (.uncaught (.osError .read target))
        else .ok (target, raw)) ∧
    ∀ path target raw, openWorkspaceFile t setting taskId path = .ok (target, raw) →
      ((∃ f ∈ files, openWorkspaceFile t setting taskId f.path = .ok (target, raw)) ↔
        Visible t (rootLocation (baseWorkspace t setting) taskId) target) := by
  obtain ⟨⟨here, entries⟩, hlisted, hfiles⟩ := Fallible.bind_eq_ok hlist
  cases hfiles
  have hhere := (mem_listedFiles_iff hlisted ([], [])).1
  have hmem := fun f => (mem_listedFiles_iff hlisted f).2
  obtain ⟨⟨root, t'⟩, hroots, -⟩ := Fallible.bind_eq_ok hlisted
  have hnul : ∀ l raw, t.entry l = some (.file raw) → l.path.hasNul = false := fun l raw hfile =>
    hasNul_path_eq_false_iff.mpr (hnames _ (FileTree.mem_files_of_entry hfile))
  rw [← hhere] at hroot ⊢
  constructor
  · intro f hf
    obtain ⟨⟨l, raw⟩, hentry, rfl⟩ := List.mem_map.mp hf
    obtain ⟨hfile, hbelow, hvisible⟩ := (hmem (l, raw)).mp hentry
    exact ⟨l, raw, rfl, openWorkspaceFile_relativeText hroots hhere hfile hbelow hvisible.below
      (hnul l raw hfile) hroot (stat_of_listedFiles hlisted hentry)⟩
  · intro path target raw hopen
    obtain ⟨-, hfile, hseen, hread⟩ := entry_of_openWorkspaceFile hopen
    have hbelow : here <+: target := hhere ▸ prefix_of_openWorkspaceFile hopen
    constructor
    · rintro ⟨f, hf, hsame⟩
      obtain ⟨⟨l, raw'⟩, hentry, rfl⟩ := List.mem_map.mp hf
      obtain ⟨hfile', hbelow', hvisible⟩ := (hmem (l, raw')).mp hentry
      have hown := openWorkspaceFile_relativeText hroots hhere hfile' hbelow' hvisible.below
        (hnul l raw' hfile') hroot (stat_of_listedFiles hlisted hentry)
      -- the path of a listed file leads to it alone
      have hl : l = target := by
        rw [relativeText, hsame] at hown
        split at hown
        · cases hown
        · cases hown
          rfl
      exact hl ▸ hvisible
    · intro hvisible
      refine ⟨_, List.mem_map_of_mem ((hmem (target, raw)).mpr ⟨hfile, hbelow, hvisible⟩), ?_⟩
      have hown := openWorkspaceFile_relativeText hroots hhere hfile hbelow hvisible.below
        (hnul target raw hfile) hroot hseen
      rw [hread] at hown
      exact hown

end Reading

/-- The workspace of one task is listed, and its file read. -/
theorem listing_agrees_notes :
    listWorkspaceFiles srvTree "workspace" (some "t1") = .ok [⟨"notes.txt", 2⟩] ∧
      ∃ target raw, raw.length = 2 ∧
        openWorkspaceFile srvTree "workspace" (some "t1") "notes.txt" = .ok (target, raw) := by
  have hlist : listWorkspaceFiles srvTree "workspace" (some "t1") = .ok [⟨"notes.txt", 2⟩] := by
    rfl
  obtain ⟨target, raw, hsize, hopen⟩ :=
    (listing_agrees hlist (by decide) rfl).1 _ List.mem_cons_self
  exact ⟨hlist, target, raw, hsize, hopen⟩

end AgentRoom
