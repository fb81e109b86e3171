import Mathlib.Data.List.Infix
import Mathlib.Tactic.Common

set_option autoImplicit false

/-! # POSIX paths without symbolic links

The text of a path is cut at the separators; empty components and `.` are dropped, so that a
path is a list of steps, each up or into a name. Where a path leads (`Path.resolve`) is a
list of names. A list of steps comes down to climbing some levels and then going into names
(`normalForm`), wherever it starts (`foldl_enter`).
-/

namespace Posix

/-- The name of a file or directory. -/
def IsName (text : List Char) : Prop :=
  text ≠ [] ∧ text ≠ ['.'] ∧ text ≠ ['.', '.'] ∧ '/' ∉ text

instance (text : List Char) : Decidable (IsName text) :=
  inferInstanceAs (Decidable (_ ∧ _))

abbrev Name := { text : List Char // IsName text }

/-- A component that a path keeps of its text. -/
inductive Step
  | up
  | into (n : Name)
  deriving DecidableEq

/-- The text of a component. -/
def Step.text : Step → List Char
  | .up => ['.', '.']
  | .into n => n.1

/-- The component with a text. -/
def Step.parse (text : List Char) : Option Step :=
  if text = ['.', '.'] then some .up
  else if h : IsName text then some (.into ⟨text, h⟩)
  else none

structure Path where
  absolute : Bool
  steps : List Step
  deriving DecidableEq

/-- Where a path leads, from the root. -/
abbrev Location := List Name

/-- The components of a text. -/
def components (text : List Char) : List Step := (text.splitOn '/').filterMap Step.parse

def Path.parse (text : List Char) : Path := ⟨text.head? == some '/', components text⟩

/-- The text of a path. -/
def Path.text (p : Path) : List Char :=
  if p.absolute then '/' :: ['/'].intercalate (p.steps.map Step.text)
  else if p.steps = [] then ['.']
  else ['/'].intercalate (p.steps.map Step.text)

/-- The last component. -/
def Path.name (p : Path) : List Char := (p.steps.getLast?.map Step.text).getD []

/-- One path after another: an absolute one replaces what is before it. -/
def Path.join (p q : Path) : Path := if q.absolute then q else ⟨p.absolute, p.steps ++ q.steps⟩

/-- The path of a location. -/
def Location.path (l : Location) : Path := ⟨true, l.map .into⟩

/-- The root is its own parent. -/
def enter (here : Location) : Step → Location
  | .up => here.dropLast
  | .into n => here ++ [n]

/-- Where a path leads from a working directory. -/
def Path.resolve (cwd : Location) (p : Path) : Location :=
  p.steps.foldl enter (if p.absolute then [] else cwd)

/-! ## Texts of paths -/

theorem Step.parse_text (s : Step) : Step.parse s.text = some s := by
  cases s with
  | up => rfl
  | into n =>
      unfold Step.parse
      rw [if_neg (show Step.text (.into n) ≠ ['.', '.'] from n.2.2.2.1),
        dif_pos (show IsName (Step.text (.into n)) from n.2)]
      rfl

theorem Step.slash_not_mem_text (s : Step) : '/' ∉ s.text := by
  cases s with
  | up => decide
  | into n => exact n.2.2.2.2

theorem Step.text_ne_nil (s : Step) : s.text ≠ [] := by
  cases s with
  | up => decide
  | into n => exact n.2.1

theorem components_text (s : Step) : components s.text = [s] := by
  rw [components, List.splitOn_eq_singleton s.slash_not_mem_text]
  simp [Step.parse_text]

/-- The steps of a path are read back from its text. -/
theorem components_intercalate (steps : List Step) :
    components (['/'].intercalate (steps.map Step.text)) = steps := by
  by_cases hnil : steps = []
  · subst hnil
    decide
  · have hslash : ∀ text ∈ steps.map Step.text, '/' ∉ text := by
      intro text htext
      obtain ⟨s, -, rfl⟩ := List.mem_map.mp htext
      exact s.slash_not_mem_text
    rw [components, List.splitOn_intercalate '/' hslash (by simpa using hnil), List.filterMap_map]
    have hid : Step.parse ∘ Step.text = some := funext Step.parse_text
    rw [hid, List.filterMap_some]

/-- A separator in front adds no component. -/
theorem components_slash (text : List Char) : components ('/' :: text) = components text := by
  have hcut := @List.splitOn_append_cons_self _ _ _ '/' [] text
  rw [List.nil_append, List.splitOn_nil] at hcut
  rw [components, hcut, components]
  rfl

theorem head?_intercalate {steps : List Step} (h : steps ≠ []) :
    (['/'].intercalate (steps.map Step.text)).head? ≠ some '/' := by
  cases steps with
  | nil => exact absurd rfl h
  | cons s rest =>
      have hhead : (['/'].intercalate ((s :: rest).map Step.text)).head? = s.text.head? := by
        cases rest with
        | nil => simp
        | cons r rest =>
            rw [List.map_cons, List.map_cons, List.intercalate_cons_cons,
              List.append_assoc, List.head?_append_of_ne_nil _ s.text_ne_nil]
      rw [hhead]
      intro hslash
      exact s.slash_not_mem_text (List.mem_of_mem_head? hslash)

/-- A path is read back from its text. -/
@[simp]
theorem Path.parse_text (p : Path) : Path.parse p.text = p := by
  obtain ⟨absolute, steps⟩ := p
  cases absolute with
  | true =>
      show (⟨_, components ('/' :: _)⟩ : Path) = _
      rw [components_slash, components_intercalate]
      rfl
  | false =>
      by_cases hnil : steps = []
      · subst hnil
        decide
      · have htext : Path.text ⟨false, steps⟩ = ['/'].intercalate (steps.map Step.text) := by
          simp [Path.text, hnil]
        rw [htext, Path.parse, components_intercalate]
        have hhead := head?_intercalate hnil
        simpa using hhead

/-- The last component alone is a path of one step, or none. -/
theorem Path.parse_name (p : Path) : Path.parse p.name = ⟨false, p.steps.getLast?.toList⟩ := by
  unfold Path.name
  cases p.steps.getLast? with
  | none => decide
  | some s =>
      show (⟨s.text.head? == some '/', components s.text⟩ : Path) = _
      rw [components_text]
      have hhead : s.text.head? ≠ some '/' := by
        intro hslash
        exact s.slash_not_mem_text (List.mem_of_mem_head? hslash)
      simpa using hhead

/-! ## Where paths lead -/

@[simp]
theorem foldl_enter_into (here l : Location) : (l.map Step.into).foldl enter here = here ++ l := by
  induction l generalizing here with
  | nil => simp
  | cons n l ih =>
      rw [List.map_cons, List.foldl_cons, ih, enter, List.append_assoc]
      rfl

@[simp]
theorem Location.resolve_path (cwd l : Location) : l.path.resolve cwd = l := by
  show (l.map Step.into).foldl enter [] = l
  rw [foldl_enter_into, List.nil_append]

/-- Joining a relative path goes on from where the first one leads. -/
theorem Path.resolve_join (cwd : Location) (p q : Path) :
    (p.join q).resolve cwd = q.resolve (p.resolve cwd) := by
  unfold Path.join Path.resolve
  by_cases hq : q.absolute
  · simp [hq]
  · simp [hq, List.foldl_append]

/-- Levels to climb, then names to go into. -/
def shorten (acc : Nat × Location) : Step → Nat × Location
  | .up => if acc.2 = [] then (acc.1 + 1, []) else (acc.1, acc.2.dropLast)
  | .into n => (acc.1, acc.2 ++ [n])

/-- What a list of steps comes down to. -/
def normalForm (steps : List Step) : Nat × Location := steps.foldl shorten (0, [])

theorem normalForm_concat (steps : List Step) (s : Step) :
    normalForm (steps ++ [s]) = shorten (normalForm steps) s := by
  rw [normalForm, List.foldl_append, List.foldl_cons, List.foldl_nil, normalForm]

/-- Climbing one level more. -/
theorem dropLast_climb (here : Location) (k : Nat) :
    (here.take (here.length - k)).dropLast = here.take (here.length - (k + 1)) := by
  rw [List.dropLast_eq_take, List.take_take, List.length_take]
  congr 1
  omega

/-- From anywhere, a list of steps climbs and goes into names as its normal form says. -/
theorem foldl_enter (here : Location) (steps : List Step) :
    steps.foldl enter here =
      here.take (here.length - (normalForm steps).1) ++ (normalForm steps).2 := by
  induction steps using List.reverseRecOn with
  | nil => simp [normalForm]
  | append_singleton steps s ih =>
      rw [List.foldl_append, ih, normalForm_concat]
      cases s with
      | into n => simp [enter, shorten]
      | up =>
          by_cases hnil : (normalForm steps).2 = []
          · simp [enter, shorten, hnil, dropLast_climb]
          · simp [enter, shorten, hnil, List.dropLast_append_of_ne_nil]

end Posix
