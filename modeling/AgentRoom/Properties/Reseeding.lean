import AgentRoom.Roles.Verifier
import AgentRoom.Lib.Fallible

set_option autoImplicit false

/-! # What re-seeding promises about the verifier

Re-seeding resolves every key first and then stores a file at the location it leads to. Storing
files makes directories and files and no links, so where the keys lead can be read off the
workspace as the developer left it. `verifier_untampered_iff` says when the verifier returns
and every key names its own content: when there is room for the files, the command can be handed
to the system, no two keys share a file with different contents, and every key can still be
walked.
-/

namespace AgentRoom.Reseed

open LinkWalk LinkTree PyStr

variable {t t' t₁ : FsTree} {workspace : Route FsName}

/-! ## Where the keys lead -/

/-- Where steps lead through links, names that are not there being passed by. -/
def Leads (t : FsTree) (here : Location FsName) (steps : List (Step FsName))
    (l : Location FsName) : Prop := ∃ k, Way t.link (fun _ => True) k here steps l

theorem Leads.unique {here l l' : Location FsName} {steps : List (Step FsName)}
    (h : Leads t here steps l) (h' : Leads t here steps l') : l = l' := by
  obtain ⟨k, hway⟩ := h
  obtain ⟨k', hway'⟩ := h'
  exact (hway.unique hway').2

/-- Where a key leads: the workspace is there, and the key does not lead out of it. -/
structure LeadsTo (t : FsTree) (workspace : Route FsName) (rel : PyStr)
    (ws : Location FsName) (candidate : Route FsName) (target : Location FsName) : Prop where
  root : Leads t (workspace.start t.cwd) workspace.steps ws
  present : t.entry ws ≠ none
  parsed : fsPath rel = some candidate
  leads : Leads t (candidate.start ws) candidate.steps target
  inside : ws <+: target

theorem LeadsTo.unique {rel : PyStr} {ws ws' target target' : Location FsName}
    {candidate candidate' : Route FsName} (h : LeadsTo t workspace rel ws candidate target)
    (h' : LeadsTo t workspace rel ws' candidate' target') :
    ws = ws' ∧ candidate = candidate' ∧ target = target' := by
  obtain rfl := h.root.unique h'.root
  obtain rfl := Option.some.inj (h.parsed.symm.trans h'.parsed)
  exact ⟨rfl, rfl, h.leads.unique h'.leads⟩

/-- The location a key leads to. -/
def Target (t : FsTree) (workspace : Route FsName) (rel : PyStr) (target : Location FsName) :
    Prop := ∃ ws candidate, LeadsTo t workspace rel ws candidate target

theorem Target.unique {rel : PyStr} {l l' : Location FsName} (h : Target t workspace rel l)
    (h' : Target t workspace rel l') : l = l' := by
  obtain ⟨ws, candidate, hleads⟩ := h
  obtain ⟨ws', candidate', hleads'⟩ := h'
  exact (hleads.unique hleads').2.2

theorem resolvePath_eq_ok_iff {p : Route FsName} {l : Location FsName} :
    resolvePath t p = .ok l ↔ Leads t (p.start t.cwd) p.steps l := by
  unfold resolvePath Leads
  rw [← Tree.resolve_eq_some_iff]
  cases t.resolve p with
  | none => simp
  | some m => simp

/-- A key is walked from the workspace, or from the root. -/
theorem leads_candidate_iff {ws target : Location FsName} {candidate : Route FsName}
    (hws : LinkFree t.link ws) :
    resolvePath t (if candidate.absolute then candidate
      else { absolute := true, steps := ws.map .into ++ candidate.steps }) = .ok target ↔
      Leads t (candidate.start ws) candidate.steps target := by
  rw [resolvePath_eq_ok_iff]
  by_cases habs : candidate.absolute = true
  · simp only [habs, if_true, Route.start]
  · simp only [habs, Bool.false_eq_true, if_false, if_true, Route.start]
    exact exists_congr fun k => @way_down_iff _ t.link k [] target ws candidate.steps hws

theorem candidatePath_eq_ok_iff {rel : PyStr} {candidate : Route FsName} :
    candidatePath rel = .ok candidate ↔ fsPath rel = some candidate := by
  unfold candidatePath
  cases fsPath rel with
  | none => simp
  | some p => simp

theorem linkFree_of_resolvePath {p : Route FsName} {l : Location FsName}
    (h : resolvePath t p = .ok l) : LinkFree t.link l := by
  unfold resolvePath at h
  split at h
  · rename_i hresolve
    cases h
    exact Tree.linkFree_of_resolve hresolve
  · cases h

/-- **`resolve_within_root`** gives the location a key leads to, and raises if there is none. -/
theorem resolveWithinRoot_eq_ok_iff {rel : PyStr} {target : Location FsName} :
    resolveWithinRoot t workspace rel = .ok target ↔ Target t workspace rel target := by
  unfold resolveWithinRoot
  constructor
  · intro h
    obtain ⟨ws, hws, h⟩ := Fallible.bind_eq_ok h
    split at h
    · cases h
    · rename_i hpresent
      obtain ⟨candidate, hcandidate, h⟩ := Fallible.bind_eq_ok h
      obtain ⟨l, hl, h⟩ := Fallible.bind_eq_ok h
      split at h
      · rename_i hinside
        cases h
        refine ⟨ws, candidate, resolvePath_eq_ok_iff.mp hws, by simpa using hpresent,
          candidatePath_eq_ok_iff.mp hcandidate, ?_, hinside⟩
        exact (leads_candidate_iff (linkFree_of_resolvePath hws)).mp hl
      · cases h
  · rintro ⟨ws, candidate, hroot, hpresent, hparsed, hleads, hinside⟩
    have hws := resolvePath_eq_ok_iff.mpr hroot
    have hl := (leads_candidate_iff (linkFree_of_resolvePath hws)).mpr hleads
    rw [Fallible.ok_bind hws, if_neg (by simpa using hpresent),
      Fallible.ok_bind (candidatePath_eq_ok_iff.mpr hparsed), Fallible.ok_bind hl, if_pos hinside]
    rfl

/-- Storing a file leaves the keys where they lead. -/
theorem target_stored_iff {rel rel₀ : PyStr} {l l₀ m : Location FsName} {bytes : List UInt8}
    (h : Tree.Stored t t₁ l bytes) (hroot : Target t workspace rel₀ l₀) :
    Target t₁ workspace rel m ↔ Target t workspace rel m := by
  have hleads : ∀ here steps d, Leads t₁ here steps d ↔ Leads t here steps d := by
    intro here steps d
    unfold Leads
    rw [h.link]
  obtain ⟨ws₀, candidate₀, hroot₀⟩ := hroot
  refine exists_congr fun ws => exists_congr fun candidate => ?_
  constructor
  · rintro ⟨hws, -, hparsed, hm, hinside⟩
    rw [h.cwd, hleads] at hws
    rw [hleads] at hm
    refine ⟨hws, ?_, hparsed, hm, hinside⟩
    rw [hws.unique hroot₀.root]
    exact hroot₀.present
  · rintro ⟨hws, hpresent, hparsed, hm, hinside⟩
    refine ⟨by rwa [h.cwd, hleads], fun hnone => ?_, hparsed, by rwa [hleads], hinside⟩
    exact hpresent ((h.entry_none ws).mp hnone).1

/-! ## Re-seeding stores a file for every key -/

/-- The file a key asks for. -/
def ask (t : FsTree) (workspace : Route FsName) (file : PyStr × PyStr) :
    Except ReseedFault (Location FsName × List UInt8) := do
  let target ← resolveWithinRoot t workspace file.1
  match encodeStrict file.2 with
  | some bytes => .ok (target, bytes)
  | none => .error .unicodeEncodeError

theorem ask_eq_ok_iff {file : PyStr × PyStr} {asked : Location FsName × List UInt8} :
    ask t workspace file = .ok asked ↔
      Target t workspace file.1 asked.1 ∧ encodeStrict file.2 = some asked.2 := by
  unfold ask
  constructor
  · intro h
    obtain ⟨target, htarget, h⟩ := Fallible.bind_eq_ok h
    split at h
    · rename_i bytes hbytes
      cases h
      exact ⟨resolveWithinRoot_eq_ok_iff.mp htarget, hbytes⟩
    · cases h
  · rintro ⟨htarget, hbytes⟩
    rw [Fallible.ok_bind (resolveWithinRoot_eq_ok_iff.mpr htarget), hbytes]

/-- What a key asks for does not depend on the files stored so far. -/
theorem ask_stored_iff {rel₀ : PyStr} {l l₀ : Location FsName} {bytes : List UInt8}
    {file : PyStr × PyStr} {asked : Location FsName × List UInt8}
    (h : Tree.Stored t t₁ l bytes) (hroot : Target t workspace rel₀ l₀) :
    ask t₁ workspace file = .ok asked ↔ ask t workspace file = .ok asked := by
  rw [ask_eq_ok_iff, ask_eq_ok_iff, target_stored_iff h hroot]

theorem writeText_eq_ok_iff {target : Location FsName} {content : PyStr} :
    writeText t target content = .ok t' ↔
      ∃ bytes, encodeStrict content = some bytes ∧ t.write target bytes = .ok t' := by
  unfold writeText
  constructor
  · intro h
    obtain ⟨t₁, hwrite, h⟩ := Fallible.bind_eq_ok h
    have hwrite := Fallible.mapError_eq_ok hwrite
    split at h
    · rename_i hsome
      cases h
      obtain ⟨bytes, hbytes⟩ := Option.isSome_iff_exists.mp hsome
      rw [hbytes] at hwrite
      exact ⟨bytes, hbytes, hwrite⟩
    · cases h
  · rintro ⟨bytes, hbytes, hwrite⟩
    rw [hbytes, Option.getD_some, hwrite]
    rfl

/-- A file of the map is stored where its key leads. -/
theorem store_eq_ok_iff {target : Location FsName} {content : PyStr} :
    ((t.mkdir target.dropLast).mapError ReseedFault.osError >>= fun t =>
      writeText t target content) = .ok t' ↔
      ∃ bytes, encodeStrict content = some bytes ∧ t.store target bytes = .ok t' := by
  unfold Tree.store
  cases hmkdir : t.mkdir target.dropLast with
  | error fault =>
      constructor
      · intro h
        cases h
      · rintro ⟨bytes, -, h⟩
        cases h
  | ok t₁ => exact writeText_eq_ok_iff

/-- **Re-seeding** asks first and stores then. -/
theorem reseed_eq_ok_iff {files : List (PyStr × PyStr)} :
    reseedVerifyFiles t workspace files = .ok t' ↔
      ∃ asked, files.mapM (ask t workspace) = .ok asked ∧ t.storeAll asked = .ok t' := by
  induction files generalizing t with
  | nil =>
      constructor
      · intro h
        cases h
        exact ⟨[], rfl, rfl⟩
      · rintro ⟨asked, hasked, h⟩
        cases hasked
        cases h
        rfl
  | cons file rest ih =>
      obtain ⟨rel, content⟩ := file
      have hstep : reseedVerifyFiles t workspace ((rel, content) :: rest) =
          resolveWithinRoot t workspace rel >>= fun target =>
            ((t.mkdir target.dropLast).mapError ReseedFault.osError >>= fun t =>
              writeText t target content) >>= fun t => reseedVerifyFiles t workspace rest := by
        simp only [reseedVerifyFiles, bind_assoc]
      rw [hstep]
      constructor
      · intro h
        obtain ⟨target, htarget, h⟩ := Fallible.bind_eq_ok h
        obtain ⟨t₁, hstore, h⟩ := Fallible.bind_eq_ok h
        obtain ⟨bytes, hbytes, hstore⟩ := store_eq_ok_iff.mp hstore
        obtain ⟨asked, hasked, hrest⟩ := ih.mp h
        have hroot := resolveWithinRoot_eq_ok_iff.mp htarget
        -- the first file does not change what the later keys ask for
        have hask : ∀ f a, ask t₁ workspace f = .ok a → ask t workspace f = .ok a :=
          fun f a => (ask_stored_iff (Tree.store_stored hstore) hroot).mp
        refine ⟨(target, bytes) :: asked, ?_, ?_⟩
        · exact Fallible.mapM_cons_ok (ask_eq_ok_iff.mpr ⟨hroot, hbytes⟩)
            (Fallible.mapM_ok_imp hask hasked)
        · rw [Tree.storeAll, hstore]
          exact hrest
      · rintro ⟨asked, hasked, h⟩
        obtain ⟨⟨target, bytes⟩, others, hfirst, hothers, rfl⟩ := Fallible.mapM_cons_inv hasked
        obtain ⟨hroot, hbytes⟩ := ask_eq_ok_iff.mp hfirst
        obtain ⟨t₁, hstore, hrest⟩ := Tree.storeAll_cons h
        have hask : ∀ f a, ask t workspace f = .ok a → ask t₁ workspace f = .ok a :=
          fun f a => (ask_stored_iff (Tree.store_stored hstore) hroot).mpr
        rw [Fallible.ok_bind (resolveWithinRoot_eq_ok_iff.mpr hroot),
          Fallible.ok_bind (store_eq_ok_iff.mpr ⟨bytes, hbytes, hstore⟩)]
        exact ih.mpr ⟨others, Fallible.mapM_ok_imp hask hothers, hrest⟩

/-! ## When there is room -/

/-- Every key leads into the workspace, its content can be encoded, and there is room for the
file: nothing or a file in its place, and above it directories or nothing, and no other key's
file. -/
def Seedable (t : FsTree) (workspace : Route FsName) (files : List (PyStr × PyStr)) : Prop :=
  ∀ f ∈ files, ∃ l, Target t workspace f.1 l ∧ (encodeStrict f.2).isSome = true ∧ t.Writable l ∧
    ∀ d, Above d l → t.Passable d ∧ ∀ g ∈ files, ¬ Target t workspace g.1 d

theorem mem_asked_iff {files : List (PyStr × PyStr)} {asked : List (Location FsName × List UInt8)}
    (hasked : files.mapM (ask t workspace) = .ok asked) {l : Location FsName} :
    l ∈ asked.map Prod.fst ↔ ∃ f ∈ files, Target t workspace f.1 l := by
  constructor
  · intro hl
    obtain ⟨a, ha, rfl⟩ := List.mem_map.mp hl
    obtain ⟨f, hf, hfa⟩ := Fallible.exists_mem_of_mem_result hasked ha
    exact ⟨f, hf, (ask_eq_ok_iff.mp hfa).1⟩
  · rintro ⟨f, hf, htarget⟩
    obtain ⟨a, ha, hfa⟩ := Fallible.exists_mem_of_mapM_ok hasked hf
    rw [htarget.unique (ask_eq_ok_iff.mp hfa).1]
    exact List.mem_map_of_mem ha

/-- **When re-seeding does not raise.** -/
theorem reseed_returns_iff {files : List (PyStr × PyStr)} :
    (∃ t', reseedVerifyFiles t workspace files = .ok t') ↔ Seedable t workspace files := by
  constructor
  · rintro ⟨t', h⟩
    obtain ⟨asked, hasked, hstore⟩ := reseed_eq_ok_iff.mp h
    have hroom := Tree.storeAll_ok_iff.mp ⟨t', hstore⟩
    intro f hf
    obtain ⟨a, ha, hfa⟩ := Fallible.exists_mem_of_mapM_ok hasked hf
    obtain ⟨htarget, hbytes⟩ := ask_eq_ok_iff.mp hfa
    obtain ⟨hwritable, habove⟩ := hroom a.1 (List.mem_map_of_mem ha)
    refine ⟨a.1, htarget, by rw [hbytes]; rfl, hwritable, fun d hd => ?_⟩
    obtain ⟨hpass, hnot⟩ := habove d hd
    exact ⟨hpass, fun g hg hgd => hnot ((mem_asked_iff hasked).mpr ⟨g, hg, hgd⟩)⟩
  · intro hseed
    have hask : ∀ f ∈ files, ∃ a, ask t workspace f = .ok a := by
      intro f hf
      obtain ⟨l, htarget, hsome, -⟩ := hseed f hf
      obtain ⟨bytes, hbytes⟩ := Option.isSome_iff_exists.mp hsome
      exact ⟨(l, bytes), ask_eq_ok_iff.mpr ⟨htarget, hbytes⟩⟩
    obtain ⟨asked, hasked⟩ := Fallible.exists_mapM_ok hask
    -- What the resolved keys ask of the tree is what `Seedable` asks of the files.
    have hroom : t.Room (asked.map Prod.fst) := by
      intro l hl
      obtain ⟨f, hf, htarget⟩ := (mem_asked_iff hasked).mp hl
      obtain ⟨l', htarget', -, hwritable, habove⟩ := hseed f hf
      obtain rfl := htarget.unique htarget'
      refine ⟨hwritable, fun d hd => ⟨(habove d hd).1, fun hmem => ?_⟩⟩
      obtain ⟨g, hg, hgd⟩ := (mem_asked_iff hasked).mp hmem
      exact (habove d hd).2 g hg hgd
    obtain ⟨t', hstore⟩ := Tree.storeAll_ok_iff.mpr hroom
    exact ⟨t', reseed_eq_ok_iff.mpr ⟨asked, hasked, hstore⟩⟩

/-! ## What the command finds -/

/-- A key names, inside the workspace, a regular file with a content: the system can walk it
there from the workspace. -/
def Names (t : FsTree) (workspace : Route FsName) (rel content : PyStr) : Prop :=
  ∃ ws candidate l k, Leads t (workspace.start t.cwd) workspace.steps ws ∧
    fsPath rel = some candidate ∧ k ≤ t.maxLinks ∧
    Way t.link (fun d => t.isDir d = true) k (candidate.start ws) candidate.steps l ∧
    ws <+: l ∧ t.content l = encodeStrict content ∧ (encodeStrict content).isSome = true

/-- Keys that share a file ask for the same content. -/
def NoneOverwritten (t : FsTree) (workspace : Route FsName) (files : List (PyStr × PyStr)) :
    Prop :=
  ∀ f ∈ files, ∀ g ∈ files, ∀ l m, Target t workspace f.1 l → Target t workspace g.1 m →
    t.SameFile l m → f.2 = g.2

/-- Every key can be walked once the directories above the files are made: each of its steps is
taken from a directory, and it follows no more links than the system does. -/
def AllWalkable (t : FsTree) (workspace : Route FsName) (files : List (PyStr × PyStr)) : Prop :=
  ∀ f ∈ files, ∀ ws candidate l, LeadsTo t workspace f.1 ws candidate l →
    ∃ k ≤ t.maxLinks, Way t.link
      (fun d => t.isDir d = true ∨ ∃ g ∈ files, ∃ m, Target t workspace g.1 m ∧ Above d m)
      k (candidate.start ws) candidate.steps l

/-- **Without links every key without `..` can be walked.** -/
theorem allWalkable_of_no_links {files : List (PyStr × PyStr)} (hlink : ∀ l, t.link l = none)
    (hkeys : ∀ f ∈ files, ∃ names : List FsName, fsPath f.1 = some ⟨false, names.map .into⟩) :
    AllWalkable t workspace files := by
  intro f hf ws candidate l hleads
  obtain ⟨names, hparsed⟩ := hkeys f hf
  obtain rfl := Option.some.inj (hleads.parsed.symm.trans hparsed)
  obtain ⟨k, hway⟩ := hleads.leads
  have hdown : Way t.link (fun _ => True) 0 ws (names.map .into) (ws ++ names) :=
    way_straight_down hlink fun _ _ _ => trivial
  obtain ⟨rfl, rfl⟩ := hway.unique hdown
  refine ⟨0, Nat.zero_le _, way_straight_down hlink fun d hd hne => .inr ?_⟩
  refine ⟨f, hf, ws ++ names, ⟨ws, _, hleads⟩, ?_, fun heq => hne (List.append_cancel_left heq)⟩
  exact (List.prefix_append_right_inj ws).mpr hd

/-- What one key names after re-seeding. -/
theorem names_of_filled_iff {targets : List (Location FsName)} {rel content : PyStr}
    {ws l : Location FsName} {candidate : Route FsName} {bytes : List UInt8}
    (hfilled : Tree.Filled t t' targets) (hleads : LeadsTo t workspace rel ws candidate l)
    (hbytes : encodeStrict content = some bytes) :
    Names t' workspace rel content ↔
      (∃ k ≤ t.maxLinks, Way t.link (fun d => t.isDir d = true ∨ ∃ m ∈ targets, Above d m)
        k (candidate.start ws) candidate.steps l) ∧ t'.content l = some bytes := by
  have hsame : ∀ here steps d, Leads t' here steps d ↔ Leads t here steps d := by
    intro here steps d
    unfold Leads
    rw [hfilled.link]
  have hdirs : (fun d => t'.isDir d = true) = fun d =>
      t.isDir d = true ∨ ∃ m ∈ targets, Above d m := funext fun d => propext (hfilled.isDir d)
  unfold Names
  rw [hdirs, hfilled.link, hfilled.maxLinks, hfilled.cwd, hbytes]
  constructor
  · rintro ⟨ws', candidate', l', k, hroot, hparsed, hk, hway, -, hcontent, -⟩
    rw [hsame] at hroot
    obtain rfl := hroot.unique hleads.root
    obtain rfl := Option.some.inj (hparsed.symm.trans hleads.parsed)
    obtain ⟨j, hfound⟩ := hleads.leads
    obtain rfl := (hway.unique hfound).2
    exact ⟨⟨k, hk, hway⟩, hcontent⟩
  · rintro ⟨⟨k, hk, hway⟩, hcontent⟩
    exact ⟨ws, candidate, l, k, (hsame _ _ _).mpr hleads.root, hleads.parsed, hk, hway,
      hleads.inside, hcontent, rfl⟩

theorem exists_above_asked_iff {files : List (PyStr × PyStr)}
    {asked : List (Location FsName × List UInt8)}
    (hasked : files.mapM (ask t workspace) = .ok asked) (d : Location FsName) :
    (∃ m ∈ asked.map Prod.fst, Above d m) ↔
      ∃ g ∈ files, ∃ m, Target t workspace g.1 m ∧ Above d m := by
  constructor
  · rintro ⟨m, hm, habove⟩
    obtain ⟨g, hg, hgm⟩ := (mem_asked_iff hasked).mp hm
    exact ⟨g, hg, m, hgm, habove⟩
  · rintro ⟨g, hg, m, hgm, habove⟩
    exact ⟨m, (mem_asked_iff hasked).mpr ⟨g, hg, hgm⟩, habove⟩

/-- No content is overwritten when the files asked for under one inode have one content. -/
theorem noneOverwritten_iff {files : List (PyStr × PyStr)}
    {asked : List (Location FsName × List UInt8)}
    (hasked : files.mapM (ask t workspace) = .ok asked) :
    NoneOverwritten t workspace files ↔
      ∀ a ∈ asked, ∀ b ∈ asked, t.SameFile a.1 b.1 → a.2 = b.2 := by
  constructor
  · intro hnone a ha b hb hsame
    obtain ⟨f, hf, hfa⟩ := Fallible.exists_mem_of_mem_result hasked ha
    obtain ⟨g, hg, hgb⟩ := Fallible.exists_mem_of_mem_result hasked hb
    obtain ⟨hfl, hfbytes⟩ := ask_eq_ok_iff.mp hfa
    obtain ⟨hgm, hgbytes⟩ := ask_eq_ok_iff.mp hgb
    have hsome : some a.2 = some b.2 := by
      rw [← hfbytes, ← hgbytes, hnone f hf g hg a.1 b.1 hfl hgm hsame]
    exact Option.some.inj hsome
  · intro hbytes f hf g hg l m hfl hgm hsame
    obtain ⟨a, ha, hfa⟩ := Fallible.exists_mem_of_mapM_ok hasked hf
    obtain ⟨b, hb, hgb⟩ := Fallible.exists_mem_of_mapM_ok hasked hg
    obtain ⟨hfa', hfbytes⟩ := ask_eq_ok_iff.mp hfa
    obtain ⟨hgb', hgbytes⟩ := ask_eq_ok_iff.mp hgb
    obtain rfl := hfl.unique hfa'
    obtain rfl := hgm.unique hgb'
    -- equal bytes are the bytes of one text only
    exact encodeStrict_injective hfbytes (hbytes a ha b hb hsame ▸ hgbytes)

/-- **What the keys name after re-seeding.** -/
theorem names_iff {files : List (PyStr × PyStr)}
    (h : reseedVerifyFiles t workspace files = .ok t') :
    (∀ f ∈ files, Names t' workspace f.1 f.2) ↔
      NoneOverwritten t workspace files ∧ AllWalkable t workspace files := by
  obtain ⟨asked, hasked, hstore⟩ := reseed_eq_ok_iff.mp h
  -- For one key: it still leads to its file, and the file has what was asked for it.
  have hone : ∀ f ∈ files, ∀ a, ask t workspace f = .ok a → ∀ ws candidate,
      LeadsTo t workspace f.1 ws candidate a.1 → (Names t' workspace f.1 f.2 ↔
        (∃ k ≤ t.maxLinks, Way t.link
          (fun d => t.isDir d = true ∨ ∃ g ∈ files, ∃ m, Target t workspace g.1 m ∧ Above d m)
          k (candidate.start ws) candidate.steps a.1) ∧ t'.content a.1 = some a.2) := by
    intro f hf a hfa ws candidate hleads
    rw [names_of_filled_iff (Tree.storeAll_filled hstore) hleads (ask_eq_ok_iff.mp hfa).2]
    simp only [exists_above_asked_iff hasked]
  rw [noneOverwritten_iff hasked, ← Tree.storeAll_content_iff hstore]
  constructor
  · intro hnames
    constructor
    · intro a ha
      obtain ⟨f, hf, hfa⟩ := Fallible.exists_mem_of_mem_result hasked ha
      obtain ⟨ws, candidate, hleads⟩ := (ask_eq_ok_iff.mp hfa).1
      exact ((hone f hf a hfa ws candidate hleads).mp (hnames f hf)).2
    · intro f hf ws candidate l hleads
      obtain ⟨a, ha, hfa⟩ := Fallible.exists_mem_of_mapM_ok hasked hf
      obtain rfl : l = a.1 := Target.unique ⟨ws, candidate, hleads⟩ (ask_eq_ok_iff.mp hfa).1
      exact ((hone f hf a hfa ws candidate hleads).mp (hnames f hf)).1
  · rintro ⟨hcontent, hwalk⟩ f hf
    obtain ⟨a, ha, hfa⟩ := Fallible.exists_mem_of_mapM_ok hasked hf
    obtain ⟨ws, candidate, hleads⟩ := (ask_eq_ok_iff.mp hfa).1
    exact (hone f hf a hfa ws candidate hleads).mpr
      ⟨hwalk f hf ws candidate a.1 hleads, hcontent a ha⟩

/-! ## The verifier -/

/-- The verifier returns a state update, and whenever the process of the command is started,
every key names a regular file in the workspace with the requested content. -/
def Untampered (w : World) (t : FsTree) (workspace : Route FsName) (s : TaskState)
    (files : List (PyStr × PyStr)) : Prop :=
  ∃ run t', verifierNode w t workspace s files = .ok (run, t') ∧
    (Py.truthy s.verifyCommand = true → started w.oracle = true →
      ∀ f ∈ files, Names t' workspace f.1 f.2)

/-- **The verifier cannot be tampered with or crashed** exactly when it has no command, or there
is room in the workspace for the files, an allowed command has no NUL and, if the process is
started, no key's file is another key's and every key can be walked. -/
theorem verifier_untampered_iff (w : World) (t : FsTree) (workspace : Route FsName)
    (s : TaskState) (files : List (PyStr × PyStr)) :
    Untampered w t workspace s files ↔
      (Py.truthy s.verifyCommand = true → Seedable t workspace files ∧
        (allowed w.oracle = true → hasNul s.verifyCommand = false) ∧
        (started w.oracle = true →
          NoneOverwritten t workspace files ∧ AllWalkable t workspace files)) := by
  unfold Untampered verifierNode
  by_cases hcommand : Py.truthy s.verifyCommand = true
  · rw [if_pos hcommand]
    constructor
    -- The node re-seeds first, and only then starts the command.
    · rintro ⟨run, t', h, hnames⟩ -
      obtain ⟨t₁, hreseed, h⟩ := Fallible.bind_eq_ok h
      split at h
      · cases h
      · rename_i hnul
        cases h
        refine ⟨reseed_returns_iff.mp ⟨t', hreseed⟩, fun hallowed => ?_, fun hstarted => ?_⟩
        · simpa [hallowed] using hnul
        · exact (names_iff hreseed).mp (hnames hcommand hstarted)
    · intro h
      obtain ⟨hseed, hnul, hkept⟩ := h hcommand
      obtain ⟨t₁, hreseed⟩ := reseed_returns_iff.mpr hseed
      have hspawn : ¬ (allowed w.oracle && hasNul s.verifyCommand) = true := by
        cases hallowed : allowed w.oracle with
        | false => simp
        | true => simp [hnul hallowed]
      refine ⟨verifier w s, t₁, ?_, fun _ hstarted => ?_⟩
      · rw [Fallible.ok_bind hreseed, if_neg hspawn]
        rfl
      · exact (names_iff hreseed).mpr (hkept hstarted)
  -- Without a command nothing is written and nothing is started.
  · rw [if_neg hcommand]
    constructor
    · intro _ hcommand'
      exact absurd hcommand' hcommand
    · intro _
      exact ⟨verifier w s, t, rfl, fun hcommand' => absurd hcommand' hcommand⟩

/-! ## Three workspaces -/

/-- The name of a file, from a text that can be one. -/
def fsName (s : String) (h : IsFsName (lit s)) : FsName := ⟨lit s, h⟩

def wsName : FsName := fsName "ws" (by decide +kernel)

def checkName : FsName := fsName "check.py" (by decide +kernel)

def solutionName : FsName := fsName "solution.py" (by decide +kernel)

/-- A workspace that holds one entry, under the name of the check. -/
def workspaceWith (e : Entry FsName) (h : e.InodeBelow 0) : FsTree :=
  Tree.ofEntries [([], .directory), ([wsName], .directory), ([wsName, checkName], e)] [] [] 40
    rfl
    (by
      intro entry hentry
      simp only [List.mem_cons, List.not_mem_nil, or_false] at hentry
      rcases hentry with rfl | rfl | rfl
      · exact .inl rfl
      · exact .inr rfl
      · exact .inr rfl)
    (by
      intro entry hentry
      simp only [List.mem_cons, List.not_mem_nil, or_false] at hentry
      rcases hentry with rfl | rfl | rfl
      · trivial
      · trivial
      · exact h)

def workspaceRoute : Route FsName := ⟨true, [.into wsName]⟩

/-- The check, and a file of the task beside it. -/
def checkFile : PyStr × PyStr := (lit "check.py", lit "import solution, sys; sys.exit(1)")

def solutionFile : PyStr × PyStr := (lit "solution.py", lit "pass")

def goalTask : TaskState :=
  { taskId := "t1", title := "goal", description := "", verifyCommand := some "python check.py" }

/-- The developer made a directory where the check belongs. -/
def directoryInPlace : FsTree := workspaceWith .directory trivial

/-- The developer made the check a link to another file of the task. -/
def linkToSolution : FsTree := workspaceWith (.link ⟨false, [.into solutionName]⟩) trivial

/-- The developer made the check a link out of the workspace. -/
def linkOut : FsTree := workspaceWith (.link ⟨false, [.up, .into checkName]⟩) trivial

/-- A verifier that raises has been crashed. -/
theorem not_untampered_of_raises {w : World} {s : TaskState} {files : List (PyStr × PyStr)}
    {fault : ReseedFault}
    (h : (verifierNode w t workspace s files).map (fun _ => ()) = .error fault) :
    ¬ Untampered w t workspace s files := by
  rintro ⟨run, t', hok, -⟩
  rw [hok] at h
  cases h

/-- **The verifier is crashed and tampered with**: a directory in place of the check and a link
out of the workspace raise; through a link to another key the check is that key's content. -/
theorem workspace_tampers :
    (verifierNode .agreeable directoryInPlace workspaceRoute goalTask [checkFile]).map
        (fun _ => ()) = .error (.osError (.isDirectory [wsName, checkName])) ∧
    ¬ Untampered .agreeable directoryInPlace workspaceRoute goalTask [checkFile] ∧
    (verifierNode .agreeable linkOut workspaceRoute goalTask [checkFile]).map
        (fun _ => ()) = .error (.escapesRoot checkFile.1 [wsName] [checkName]) ∧
    ¬ Untampered .agreeable linkOut workspaceRoute goalTask [checkFile] ∧
    (verifierNode .agreeable linkToSolution workspaceRoute goalTask [checkFile, solutionFile]).map
        (fun out => out.2.content [wsName, solutionName]) = .ok (encodeStrict solutionFile.2) ∧
    ¬ Untampered .agreeable linkToSolution workspaceRoute goalTask [checkFile, solutionFile] := by
  have hdirectory : (verifierNode .agreeable directoryInPlace workspaceRoute goalTask
      [checkFile]).map (fun _ => ()) = .error (.osError (.isDirectory [wsName, checkName])) := by
    decide +kernel
  have hout : (verifierNode .agreeable linkOut workspaceRoute goalTask [checkFile]).map
      (fun _ => ()) = .error (.escapesRoot checkFile.1 [wsName] [checkName]) := by
    decide +kernel
  -- Both keys lead to the developer's file; the one written last decides its content.
  have hcheck : resolveWithinRoot linkToSolution workspaceRoute checkFile.1 =
      .ok [wsName, solutionName] := by
    decide +kernel
  have hsolution : resolveWithinRoot linkToSolution workspaceRoute solutionFile.1 =
      .ok [wsName, solutionName] := by
    decide +kernel
  have hdifferent : checkFile.2 ≠ solutionFile.2 := by decide +kernel
  refine ⟨hdirectory, not_untampered_of_raises hdirectory, hout, not_untampered_of_raises hout,
    by decide +kernel, ?_⟩
  rintro ⟨run, t', h, hnames⟩
  obtain ⟨t₁, hreseed, h⟩ := Fallible.bind_eq_ok h
  rw [if_neg (by decide)] at h
  cases h
  have hnone := ((names_iff hreseed).mp (hnames rfl rfl)).1
  have hsame := hnone checkFile (by simp) solutionFile (by simp) _ _
    (resolveWithinRoot_eq_ok_iff.mp hcheck) (resolveWithinRoot_eq_ok_iff.mp hsolution) (.inl rfl)
  exact hdifferent hsame

end AgentRoom.Reseed
