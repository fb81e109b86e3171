import Mathlib.Data.Finset.Card
import Mathlib.Data.Finset.Filter
import Mathlib.Data.List.Infix

set_option autoImplicit false

/-! # Walking a path through symbolic links

A path is a list of steps: stay, go up, or go into a name, where a name that is a link stands for
the steps of its target. `Way` is the walk itself, with the number of links that were followed
and a condition on the directories every step is taken from. `resolve` follows links nested to
some depth; as deep as there are links is deep enough (`resolve_eq_some_iff`), so what it does
not find has an endless loop on it.
-/

namespace LinkWalk

variable {ν : Type*}

/-- From the root, name by name. -/
abbrev Location (ν : Type*) := List ν

inductive Step (ν : Type*)
  | stay
  | up
  | into (n : ν)
  deriving DecidableEq

structure Route (ν : Type*) where
  absolute : Bool
  steps : List (Step ν)
  deriving DecidableEq

def Route.start (r : Route ν) (here : Location ν) : Location ν := if r.absolute then [] else here

/-- What the links point to. -/
abbrev Links (ν : Type*) := Location ν → Option (Route ν)

variable (link : Links ν)

/-! ## The walk -/

/-- A walk that follows `k` links, all its steps taken from locations with `dir`. -/
inductive Way (dir : Location ν → Prop) : Nat → Location ν → List (Step ν) → Location ν → Prop
  | done (here : Location ν) : Way dir 0 here [] here
  | stay {k here rest l} (hdir : dir here) (hrest : Way dir k here rest l) :
      Way dir k here (.stay :: rest) l
  | up {k here rest l} (hdir : dir here) (hrest : Way dir k here.dropLast rest l) :
      Way dir k here (.up :: rest) l
  | into {k here n rest l} (hdir : dir here) (hlink : link (here ++ [n]) = none)
      (hrest : Way dir k (here ++ [n]) rest l) : Way dir k here (.into n :: rest) l
  | follow {j k here n r mid rest l} (hdir : dir here) (hlink : link (here ++ [n]) = some r)
      (htarget : Way dir j (r.start here) r.steps mid) (hrest : Way dir k mid rest l) :
      Way dir (j + k + 1) here (.into n :: rest) l

variable {link} {dir dir' : Location ν → Prop}

/-- A walk is determined by its steps, whatever is asked of the directories. -/
theorem Way.unique {k k' : Nat} {here l l' : Location ν} {steps : List (Step ν)}
    (h : Way link dir k here steps l) (h' : Way link dir' k' here steps l') : k = k' ∧ l = l' := by
  induction h generalizing k' l' with
  | done =>
      cases h'
      exact ⟨rfl, rfl⟩
  | stay hdir hrest ih =>
      cases h' with
      | stay hdir' hrest' => exact ih hrest'
  | up hdir hrest ih =>
      cases h' with
      | up hdir' hrest' => exact ih hrest'
  | into hdir hlink hrest ih =>
      cases h' with
      | into hdir' hlink' hrest' => exact ih hrest'
      | follow hdir' hlink' htarget' hrest' =>
          rw [hlink] at hlink'
          cases hlink'
  | follow hdir hlink htarget hrest ihtarget ihrest =>
      cases h' with
      | into hdir' hlink' hrest' =>
          rw [hlink] at hlink'
          cases hlink'
      | follow hdir' hlink' htarget' hrest' =>
          rw [hlink] at hlink'
          cases hlink'
          obtain ⟨rfl, rfl⟩ := ihtarget htarget'
          obtain ⟨rfl, rfl⟩ := ihrest hrest'
          exact ⟨rfl, rfl⟩

/-- No link on the way down to a location. -/
def LinkFree (link : Links ν) (l : Location ν) : Prop := ∀ d, d <+: l → link d = none

theorem LinkFree.dropLast {l : Location ν} (h : LinkFree link l) : LinkFree link l.dropLast :=
  fun d hd => h d (hd.trans (List.dropLast_prefix l))

theorem LinkFree.snoc {here : Location ν} {n : ν} (h : LinkFree link here)
    (hlink : link (here ++ [n]) = none) : LinkFree link (here ++ [n]) := by
  intro d hd
  rcases List.prefix_concat_iff.mp hd with rfl | hd
  · exact hlink
  · exact h d hd

/-- **A walk arrives at a location that no link is on.** -/
theorem Way.linkFree {k : Nat} {here l : Location ν} {steps : List (Step ν)}
    (hroot : link [] = none) (h : Way link dir k here steps l) (hhere : LinkFree link here) :
    LinkFree link l := by
  have hstart : ∀ (r : Route ν) {here}, LinkFree link here → LinkFree link (r.start here) := by
    intro r here hhere
    unfold Route.start
    split
    · intro d hd
      rw [List.prefix_nil.mp hd, hroot]
    · exact hhere
  induction h with
  | done => exact hhere
  | stay _ _ ih => exact ih hhere
  | up _ _ ih => exact ih hhere.dropLast
  | into _ hlink _ ih => exact ih (hhere.snoc hlink)
  | follow _ _ _ _ ihtarget ihrest => exact ihrest (ihtarget (hstart _ hhere))

/-- Down to a location that no link is on and then on. -/
theorem way_down_iff {k : Nat} {here l : Location ν} {names : List ν} {rest : List (Step ν)}
    (hfree : LinkFree link (here ++ names)) :
    Way link (fun _ => True) k here (names.map .into ++ rest) l ↔
      Way link (fun _ => True) k (here ++ names) rest l := by
  induction names generalizing here with
  | nil => simp
  | cons n names ih =>
      have hassoc : here ++ n :: names = (here ++ [n]) ++ names := by simp
      have hlink : link (here ++ [n]) = none := hfree _ ⟨names, by simp⟩
      rw [hassoc, ← ih (hassoc ▸ hfree)]
      constructor
      · intro h
        cases h with
        | into hdir hlink' hrest => exact hrest
        | follow hdir hlink' htarget hrest =>
            rw [hlink] at hlink'
            cases hlink'
      · intro h
        exact .into trivial hlink h

/-- Straight down where there are no links. -/
theorem way_straight_down {here : Location ν} {names : List ν} (hlink : ∀ l, link l = none)
    (hdirs : ∀ d, d <+: names → d ≠ names → dir (here ++ d)) :
    Way link dir 0 here (names.map .into) (here ++ names) := by
  induction names generalizing here with
  | nil =>
      rw [List.append_nil]
      exact .done here
  | cons n names ih =>
      have hnext : ∀ d, d <+: names → d ≠ names → dir ((here ++ [n]) ++ d) := by
        intro d hd hne
        have hmore := hdirs (n :: d) (List.cons_prefix_cons.mpr ⟨rfl, hd⟩) (by simpa using hne)
        simpa using hmore
      have hhere : dir here := by
        have hstart := hdirs [] List.nil_prefix (by simp)
        rwa [List.append_nil] at hstart
      have hrest := ih hnext
      rw [List.append_assoc, List.singleton_append] at hrest
      exact .into hhere (hlink _) hrest

/-! ## Following nested links -/

variable (link)

/-- A walk that asks `via` where links lead. -/
def walkVia (via : Location ν → Route ν → Option (Location ν)) :
    Location ν → List (Step ν) → Option (Location ν)
  | here, [] => some here
  | here, .stay :: rest => walkVia via here rest
  | here, .up :: rest => walkVia via here.dropLast rest
  | here, .into n :: rest =>
      match link (here ++ [n]) with
      | none => walkVia via (here ++ [n]) rest
      | some r => (via here r).bind fun mid => walkVia via mid rest

/-- Where steps lead, with links nested to some depth at most. -/
def resolve : Nat → Location ν → List (Step ν) → Option (Location ν)
  | 0 => walkVia link fun _ _ => none
  | depth + 1 => walkVia link fun here r => resolve depth (r.start here) r.steps

variable {link}

theorem resolve_nil (depth : Nat) (here : Location ν) : resolve link depth here [] = some here := by
  cases depth <;> rfl

theorem resolve_stay (depth : Nat) (here : Location ν) (rest : List (Step ν)) :
    resolve link depth here (.stay :: rest) = resolve link depth here rest := by
  cases depth <;> rfl

theorem resolve_up (depth : Nat) (here : Location ν) (rest : List (Step ν)) :
    resolve link depth here (.up :: rest) = resolve link depth here.dropLast rest := by
  cases depth <;> rfl

theorem resolve_into_of_none {depth : Nat} {here : Location ν} {n : ν} {rest : List (Step ν)}
    (hlink : link (here ++ [n]) = none) :
    resolve link depth here (.into n :: rest) = resolve link depth (here ++ [n]) rest := by
  cases depth <;> simp only [resolve, walkVia, hlink]

theorem resolve_into_of_some {depth : Nat} {here : Location ν} {n : ν} {r : Route ν}
    {rest : List (Step ν)} (hlink : link (here ++ [n]) = some r) :
    resolve link (depth + 1) here (.into n :: rest) =
      (resolve link depth (r.start here) r.steps).bind fun mid =>
        resolve link (depth + 1) mid rest := by
  simp only [resolve, walkVia, hlink]

theorem walkVia_mono {via via' : Location ν → Route ν → Option (Location ν)}
    (hvia : ∀ here r mid, via here r = some mid → via' here r = some mid) {here l : Location ν}
    {steps : List (Step ν)} (h : walkVia link via here steps = some l) :
    walkVia link via' here steps = some l := by
  induction steps generalizing here with
  | nil => exact h
  | cons s rest ih =>
      cases s with
      | stay => exact ih h
      | up => exact ih h
      | into n =>
          unfold walkVia at h ⊢
          cases hlink : link (here ++ [n]) with
          | none =>
              rw [hlink] at h
              exact ih h
          | some r =>
              rw [hlink] at h
              obtain ⟨mid, hmid, hrest⟩ := Option.bind_eq_some_iff.mp h
              exact Option.bind_eq_some_iff.mpr ⟨mid, hvia here r mid hmid, ih hrest⟩

theorem resolve_succ {depth : Nat} {here l : Location ν} {steps : List (Step ν)}
    (h : resolve link depth here steps = some l) :
    resolve link (depth + 1) here steps = some l := by
  induction depth generalizing here l steps with
  | zero => exact walkVia_mono (fun _ _ _ hnone => by cases hnone) h
  | succ depth ih => exact walkVia_mono (fun _ _ _ hmid => ih hmid) h

theorem resolve_mono {depth depth' : Nat} (hle : depth ≤ depth') {here l : Location ν}
    {steps : List (Step ν)} (h : resolve link depth here steps = some l) :
    resolve link depth' here steps = some l := by
  induction hle with
  | refl => exact h
  | step _ ih => exact resolve_succ ih

/-- What is found is a walk. -/
theorem way_of_walkVia {via : Location ν → Route ν → Option (Location ν)}
    (hvia : ∀ here r mid, via here r = some mid →
      ∃ k, Way link (fun _ => True) k (r.start here) r.steps mid)
    {here l : Location ν} {steps : List (Step ν)} (h : walkVia link via here steps = some l) :
    ∃ k, Way link (fun _ => True) k here steps l := by
  induction steps generalizing here with
  | nil =>
      obtain rfl := Option.some.inj h
      exact ⟨0, .done here⟩
  | cons s rest ih =>
      cases s with
      | stay =>
          obtain ⟨k, hway⟩ := ih h
          exact ⟨k, .stay trivial hway⟩
      | up =>
          obtain ⟨k, hway⟩ := ih h
          exact ⟨k, .up trivial hway⟩
      | into n =>
          unfold walkVia at h
          cases hlink : link (here ++ [n]) with
          | none =>
              rw [hlink] at h
              obtain ⟨k, hway⟩ := ih h
              exact ⟨k, .into trivial hlink hway⟩
          -- The target of the link is walked first, then the rest from where it leads.
          | some r =>
              rw [hlink] at h
              obtain ⟨mid, hmid, hrest⟩ := Option.bind_eq_some_iff.mp h
              obtain ⟨j, htarget⟩ := hvia here r mid hmid
              obtain ⟨k, hway⟩ := ih hrest
              exact ⟨j + k + 1, .follow trivial hlink htarget hway⟩

theorem way_of_resolve {depth : Nat} {here l : Location ν} {steps : List (Step ν)}
    (h : resolve link depth here steps = some l) :
    ∃ k, Way link (fun _ => True) k here steps l := by
  induction depth generalizing here l steps with
  | zero => exact way_of_walkVia (fun _ _ _ hnone => by cases hnone) h
  | succ depth ih => exact way_of_walkVia (fun _ _ _ hmid => ih hmid) h

/-! ### How deep is deep enough -/

/-- A link whose target is reached with fewer than `k` links. -/
def ResolvedBelow (link : Links ν) (k : Nat) (at_ : Location ν) : Prop :=
  ∃ r j mid, link at_ = some r ∧ j < k ∧
    Way link (fun _ => True) j (r.start at_.dropLast) r.steps mid

open Classical in
/-- The links among some locations that are resolved with fewer than `k` links. -/
noncomputable def resolvedBelow (link : Links ν) (within : List (Location ν)) (k : Nat) :
    Finset (Location ν) := within.toFinset.filter (ResolvedBelow link k)

theorem mem_resolvedBelow {within : List (Location ν)} {k : Nat} {l : Location ν} :
    l ∈ resolvedBelow link within k ↔ l ∈ within ∧ ResolvedBelow link k l := by
  classical
  rw [resolvedBelow, Finset.mem_filter, List.mem_toFinset]

theorem resolvedBelow_mono (within : List (Location ν)) {j k : Nat} (hle : j ≤ k) :
    resolvedBelow link within j ⊆ resolvedBelow link within k := by
  intro l hl
  obtain ⟨hmem, r, i, mid, hlink, hlt, hway⟩ := mem_resolvedBelow.mp hl
  exact mem_resolvedBelow.mpr ⟨hmem, r, i, mid, hlink, hlt.trans_le hle, hway⟩

/-- A link resolved with `j` links is one of those below any greater number and none of those
below `j`. -/
theorem card_resolvedBelow_lt {within : List (Location ν)} {j k : Nat} {here mid : Location ν}
    {n : ν} {r : Route ν} (hmem : here ++ [n] ∈ within) (hlink : link (here ++ [n]) = some r)
    (hway : Way link (fun _ => True) j (r.start here) r.steps mid) (hlt : j < k) :
    (resolvedBelow link within j).card < (resolvedBelow link within k).card := by
  apply Finset.card_lt_card
  refine ⟨resolvedBelow_mono within hlt.le, fun hsub => ?_⟩
  have hway' : Way link (fun _ => True) j (r.start (here ++ [n]).dropLast) r.steps mid := by
    rwa [List.dropLast_concat]
  have hin : here ++ [n] ∈ resolvedBelow link within k :=
    mem_resolvedBelow.mpr ⟨hmem, r, j, mid, hlink, hlt, hway'⟩
  obtain ⟨-, r', i, mid', hlink', hi, hway''⟩ := mem_resolvedBelow.mp (hsub hin)
  obtain rfl : r = r' := Option.some.inj (hlink.symm.trans hlink')
  exact absurd (hway''.unique hway').1 hi.ne

/-- A walk of `k` links nests no deeper than there are links resolved with fewer. -/
theorem resolve_of_way {within : List (Location ν)}
    (hwithin : ∀ l r, link l = some r → l ∈ within) {k : Nat} {here l : Location ν}
    {steps : List (Step ν)} (h : Way link (fun _ => True) k here steps l) :
    resolve link (resolvedBelow link within k).card here steps = some l := by
  induction h with
  | done here => exact resolve_nil _ here
  | stay _ _ ih => rw [resolve_stay, ih]
  | up _ _ ih => rw [resolve_up, ih]
  | into _ hlink _ ih => rw [resolve_into_of_none hlink, ih]
  | @follow j k here n r mid rest l _ hlink htarget hrest ihtarget ihrest =>
      have hlt := card_resolvedBelow_lt (k := j + k + 1) (hwithin _ _ hlink) hlink htarget
        (by omega)
      obtain ⟨depth, hdepth⟩ := Nat.exists_eq_succ_of_ne_zero (Nat.ne_zero_of_lt hlt)
      have htarget' : resolve link depth (r.start here) r.steps = some mid :=
        resolve_mono (by omega) ihtarget
      have hrest' : resolve link (depth + 1) mid rest = some l := by
        refine resolve_mono ?_ ihrest
        rw [← Nat.succ_eq_add_one, ← hdepth]
        exact Finset.card_le_card (resolvedBelow_mono within (by omega))
      rw [hdepth, Nat.succ_eq_add_one, resolve_into_of_some hlink, htarget']
      exact hrest'

/-- **As deep as there are links is deep enough.** -/
theorem resolve_eq_some_iff {within : List (Location ν)}
    (hwithin : ∀ l r, link l = some r → l ∈ within) {here l : Location ν}
    {steps : List (Step ν)} :
    resolve link within.length here steps = some l ↔
      ∃ k, Way link (fun _ => True) k here steps l := by
  constructor
  · exact way_of_resolve
  · rintro ⟨k, hway⟩
    refine resolve_mono ?_ (resolve_of_way hwithin hway)
    classical
    calc (resolvedBelow link within k).card
        ≤ within.toFinset.card := Finset.card_le_card (Finset.filter_subset _ _)
      _ ≤ within.length := List.toFinset_card_le _

end LinkWalk
