import DistributedOs.Semantics.FileTree
import DistributedOs.Semantics.Codec
import Mathlib.Logic.Function.Basic

/-! Directories and files with their contents, by the names that lead to them from the root, and
the calls that make them. Nothing else changes the disk between two calls. -/

namespace DistributedOs.Semantics

universe u

inductive Stored where
  | directory
  | file (content : Bytes)
  deriving DecidableEq

abbrev Disk (Name : Type u) := List Name → Option Stored

namespace Disk
variable {Name : Type u} [DecidableEq Name]

def put (disk : Disk Name) (place : List Name) (stored : Stored) : Disk Name :=
  Function.update disk place (some stored)

/-- `mkdir`, where a directory that is there is taken as it is. -/
def ensure (disk : Disk Name) (place : List Name) : Option (Disk Name) :=
  match disk place with
  | none => some (disk.put place .directory)
  | some .directory => some disk
  | some (.file _) => none

/-- `create_dir_all`: the place and all that the steps lead through. -/
def makeDirectories (disk : Disk Name)
    (place : List Name) : List (PathStep Name) → Option (Disk Name)
  | [] => disk.ensure place
  | step :: steps => (disk.ensure place).bind fun disk => makeDirectories disk (step.next place) steps

def walk (disk : Disk Name) (place : List Name) : List (PathStep Name) → Option (List Name)
  | [] => some place
  | step :: steps => if disk place = some .directory then walk disk (step.next place) steps else none

def writeFile (disk : Disk Name) (steps : List (PathStep Name))
    (content : Bytes) : Option (Disk Name) :=
  (disk.walk [] steps).bind fun place =>
    match disk place with
    | some .directory => none
    | some (.file _) => some (disk.put place (.file content))
    | none =>
      if disk place.dropLast = some .directory then some (disk.put place (.file content)) else none

def visited (place : List Name) (steps : List (PathStep Name)) : List (List Name) :=
  passed place steps ++ [destination place steps]

omit [DecidableEq Name] in
theorem visited_nil (place : List Name) : visited place [] = [place] := rfl

omit [DecidableEq Name] in
theorem visited_cons (place : List Name) (step : PathStep Name) (steps : List (PathStep Name)) :
    visited place (step :: steps) = place :: visited (step.next place) steps := rfl

variable {disk after : Disk Name} {place target : List Name} {steps later : List (PathStep Name)}
  {content : Bytes}

omit [DecidableEq Name] in
theorem destination_mem_visited : destination place steps ∈ visited place steps :=
  List.mem_append_right _ List.mem_cons_self

omit [DecidableEq Name] in
theorem mem_visited_append : target ∈ visited place (steps ++ later) ↔
    target ∈ visited place steps ∨ target ∈ visited (destination place steps) later := by
  induction steps generalizing place with
  | nil =>
    cases later with
    | nil => simp [visited_nil, destination]
    | cons => simp [visited_nil, visited_cons, destination]
  | cons _ _ ih =>
    rw [List.cons_append, visited_cons, visited_cons, List.mem_cons, List.mem_cons, ih, or_assoc]
    rfl

omit [DecidableEq Name] in
theorem mem_visited_of_prefix (shorter : later <+: steps) (member : target ∈ visited place later) :
    target ∈ visited place steps := by
  obtain ⟨_, rfl⟩ := shorter
  exact mem_visited_append.mpr (Or.inl member)

theorem there_of_ensure (ensured : disk.ensure place = some after)
    (there : (after target).isSome = true) :
    (disk target).isSome = true ∨ target = place := by
  by_cases same : target = place
  · exact Or.inr same
  · left
    unfold ensure at ensured
    split at ensured
    · cases ensured
      rwa [put, Function.update_of_ne same] at there
    · cases ensured
      exact there
    · cases ensured

theorem there_of_makeDirectories (made : disk.makeDirectories place steps = some after)
    (there : (after target).isSome = true) :
    (disk target).isSome = true ∨ target ∈ visited place steps := by
  induction steps generalizing disk place with
  | nil => exact (there_of_ensure made there).imp_right fun same => List.mem_singleton.mpr same
  | cons _ _ ih =>
    obtain ⟨_, ensured, rest⟩ := Option.bind_eq_some_iff.mp made
    rw [visited_cons]
    rcases ih rest with old | new
    · exact (there_of_ensure ensured old).imp_right fun same => List.mem_cons.mpr (Or.inl same)
    · exact Or.inr (List.mem_cons_of_mem _ new)

omit [DecidableEq Name] in
theorem destination_of_walk (walked : disk.walk place steps = some target) :
    target = destination place steps := by
  induction steps generalizing place with
  | nil => exact (Option.some.inj walked).symm
  | cons _ _ ih =>
    rw [walk, Option.ite_none_right_eq_some] at walked
    exact ih walked.2

theorem there_of_writeFile (written : disk.writeFile steps content = some after)
    (there : (after target).isSome = true) :
    (disk target).isSome = true ∨ target = destination [] steps := by
  obtain ⟨place, walked, written⟩ := Option.bind_eq_some_iff.mp written
  have leads := destination_of_walk walked
  by_cases same : target = place
  · exact Or.inr (same.trans leads)
  · left
    have put_only : after = disk.put place (.file content) := by
      split at written
      · cases written
      · exact (Option.some.inj written).symm
      · rw [Option.ite_none_right_eq_some] at written
        exact (Option.some.inj written.2).symm
    rwa [put_only, put, Function.update_of_ne same] at there

/-- Directories can be made along the path. -/
def Open (disk : Disk Name) (path : List Name) : Prop :=
  disk [] = some .directory ∧ ∀ place, place <+: path → disk place = none ∨ disk place = some .directory

def opened (disk : Disk Name) (path : List Name) : Disk Name :=
  fun place => if place <+: path then some .directory else disk place

theorem ensure_eq (free : disk place = none ∨ disk place = some .directory) :
    disk.ensure place = some (disk.put place .directory) := by
  rcases free with absent | directory
  · simp only [ensure, absent]
  · simp only [ensure, directory, put]
    rw [Function.update_eq_self_iff.mpr directory.symm]

/-- Where nothing but directories is in the way, all the visited places become directories. -/
theorem makeDirectories_eq
    (free : ∀ target ∈ visited place steps, disk target = none ∨ disk target = some .directory) :
    disk.makeDirectories place steps =
      some fun target => if target ∈ visited place steps then some .directory else disk target := by
  induction steps generalizing disk place with
  | nil =>
    rw [makeDirectories, ensure_eq (free place (List.mem_singleton.mpr rfl))]
    congr 1
    funext target
    simp only [visited_nil, List.mem_singleton, put, Function.update_apply]
  | cons step steps ih =>
    rw [visited_cons, List.forall_mem_cons] at free
    have later : ∀ target ∈ visited (step.next place) steps,
        disk.put place .directory target = none ∨
        disk.put place .directory target = some .directory := by
      intro target member
      rw [put, Function.update_apply]
      split
      · exact Or.inr rfl
      · exact free.2 target member
    rw [makeDirectories, ensure_eq free.1, Option.bind_some, ih later]
    congr 1
    funext target
    simp only [visited_cons, List.mem_cons, put, Function.update_apply]
    by_cases here : target = place <;> simp [here]

omit [DecidableEq Name] in
theorem mem_visited_down (names : List Name) :
    target ∈ visited place (names.map .down) ↔ ∃ below, below <+: names ∧
      target = place ++ below := by
  induction names generalizing place with
  | nil => simp [visited_nil]
  | cons name _ ih =>
    rw [List.map_cons, visited_cons, List.mem_cons, ih]
    constructor
    · rintro (rfl | ⟨below, shorter, rfl⟩)
      · exact ⟨[], List.nil_prefix, (List.append_nil _).symm⟩
      · exact ⟨name :: below, List.cons_prefix_cons.mpr ⟨rfl, shorter⟩, by simp [PathStep.next]⟩
    · rintro ⟨below, shorter, rfl⟩
      cases below with
      | nil => exact Or.inl (List.append_nil place)
      | cons _ below =>
        obtain ⟨same, inner⟩ := List.cons_prefix_cons.mp shorter
        exact Or.inr ⟨below, inner, by simp [same, PathStep.next]⟩

omit [DecidableEq Name] in
theorem mem_visited_path : target ∈ visited [] (path.map .down) ↔ target <+: path := by
  rw [mem_visited_down]
  simp

omit [DecidableEq Name] in
theorem mem_visited_stay : target ∈ visited [] (path.map .down ++ [.stay]) ↔ target <+: path := by
  rw [← mem_visited_path, visited, visited, passed_append, destination_append]
  simp [passed, destination, PathStep.next]

theorem makeDirectories_path (free : Open disk path) :
    disk.makeDirectories [] (path.map .down) = some (disk.opened path) := by
  rw [makeDirectories_eq fun target member => free.2 target (mem_visited_path.mp member)]
  simp only [mem_visited_path]
  rfl

theorem makeDirectories_stay (free : Open disk path) :
    disk.makeDirectories [] (path.map .down ++ [.stay]) = some (disk.opened path) := by
  rw [makeDirectories_eq fun target member => free.2 target (mem_visited_stay.mp member)]
  simp only [mem_visited_stay]
  rfl

omit [DecidableEq Name] in
theorem walk_eq (directories : ∀ target ∈ passed place steps, disk target = some .directory) :
    disk.walk place steps = some (destination place steps) := by
  induction steps generalizing place with
  | nil => rfl
  | cons _ _ ih =>
    rw [passed, List.forall_mem_cons] at directories
    rw [walk, if_pos directories.1, ih directories.2]
    rfl

theorem writeFile_path (directories : ∀ place, place <+: path → disk place = some .directory)
    (free : disk (path ++ [name]) ≠ some .directory) :
    disk.writeFile ((path ++ [name]).map .down) content =
      some (disk.put (path ++ [name]) (.file content)) := by
  have walked : disk.walk [] ((path ++ [name]).map .down) = some (path ++ [name]) := by
    rw [walk_eq, destination_down, List.nil_append]
    intro target member
    rw [List.map_append, passed_append] at member
    have among : target ∈ visited [] (path.map .down) := by
      simpa [visited, passed] using member
    exact directories target (mem_visited_path.mp among)
  have parent : disk (path ++ [name]).dropLast = some .directory := by
    rw [List.dropLast_concat]
    exact directories path List.prefix_rfl
  rw [writeFile, walked, Option.bind_some]
  cases found : disk (path ++ [name]) with
  | none => exact if_pos parent
  | some stored =>
    cases stored with
    | directory => exact absurd found free
    | file => rfl

end Disk

end DistributedOs.Semantics
