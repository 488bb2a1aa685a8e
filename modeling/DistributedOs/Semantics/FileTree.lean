import Mathlib.Data.List.Infix

/-! File trees without links, and the sequences of operations a program asks a system for.
Between two operations the tree may change in any way. -/

namespace DistributedOs.Semantics

universe u
variable {Name : Type u} [DecidableEq Name]

inductive PathStep (Name : Type u) where
  | stay
  | up
  | down (name : Name)
  deriving DecidableEq

/-- The directory above the root is the root. -/
def PathStep.next (place : List Name) : PathStep Name → List Name
  | .stay => place
  | .up => place.dropLast
  | .down name => place ++ [name]

/-- Where the steps lead when nothing stops them. -/
def destination (place : List Name) (steps : List (PathStep Name)) : List Name :=
  steps.foldl PathStep.next place

def passed (place : List Name) : List (PathStep Name) → List (List Name)
  | [] => []
  | step :: steps => place :: passed (step.next place) steps

omit [DecidableEq Name] in
theorem destination_append (place : List Name) (steps later : List (PathStep Name)) :
    destination place (steps ++ later) = destination (destination place steps) later :=
  List.foldl_append

omit [DecidableEq Name] in
theorem destination_down (place names : List Name) :
    destination place (names.map .down) = place ++ names := by
  induction names generalizing place with
  | nil => exact (List.append_nil place).symm
  | cons _ _ ih =>
    rw [List.map_cons, destination, List.foldl_cons, ← destination, ih, PathStep.next, List.append_assoc,
      List.singleton_append]

omit [DecidableEq Name] in
theorem passed_append (place : List Name) (steps later : List (PathStep Name)) :
    passed place (steps ++ later) = passed place steps ++ passed
      (destination place steps) later := by
  induction steps generalizing place with
  | nil => rfl
  | cons _ _ ih =>
    rw [List.cons_append, passed, ih, passed, List.cons_append]
    rfl

inductive Node where
  | directory
  | file
  deriving DecidableEq

structure FileTree (Name : Type u) where
  node : List Name → Option Node
  root : node [] = some .directory
  above : ∀ place name, (node (place ++ [name])).isSome = true → node place = some .directory

/-- The tree of an empty root. -/
instance : Inhabited (FileTree Name) :=
  ⟨fun place => if place = [] then some .directory else none, if_pos rfl, by simp⟩

namespace FileTree

def walk (tree : FileTree Name) (place : List Name) : List (PathStep Name) → Option (List Name)
  | [] => some place
  | step :: steps =>
    if tree.node place = some .directory then tree.walk (step.next place) steps else none

def openFile (tree : FileTree Name) (steps : List (PathStep Name)) : Option (List Name) :=
  (tree.walk [] steps).filter fun place => tree.node place = some .file

def createFile (tree : FileTree Name) (steps : List (PathStep Name)) : Option (List Name) :=
  (tree.walk [] steps).filter fun place =>
    tree.node place = some .file ||
    (tree.node place = none && tree.node place.dropLast = some .directory)

variable {tree : FileTree Name} {place target : List Name} {steps : List (PathStep Name)}

omit [DecidableEq Name] in
theorem walk_eq_some_iff : tree.walk place steps = some target ↔
    destination place steps = target ∧ ∀ visited ∈ passed place steps,
      tree.node visited = some .directory := by
  induction steps generalizing place with
  | nil => simp [walk, destination, passed]
  | cons _ _ ih =>
    rw [walk, passed, List.forall_mem_cons]
    by_cases here : tree.node place = some .directory
    · rw [if_pos here, ih]
      exact ⟨fun ⟨leads, rest⟩ => ⟨leads, here, rest⟩, fun ⟨leads, _, rest⟩ => ⟨leads, rest⟩⟩
    · rw [if_neg here]
      exact ⟨nofun, fun ⟨_, directory, _⟩ => absurd directory here⟩

omit [DecidableEq Name] in
theorem directory_of_below (below : target <+: visited) (strict : target ≠ visited)
    (there : (tree.node visited).isSome = true) : tree.node target = some .directory := by
  obtain ⟨rest, rfl⟩ := below
  induction rest using List.reverseRecOn with
  | nil => exact absurd (List.append_nil target).symm strict
  | append_singleton rest name ih =>
    rw [← List.append_assoc] at there
    have parent := tree.above _ name there
    by_cases same : rest = []
    · rwa [same, List.append_nil] at parent
    · exact ih (fun equal => same (List.self_eq_append_right.mp equal)) (by rw [parent]; rfl)

omit [DecidableEq Name] in
theorem unpassed_of_walk (walked : tree.walk place steps = some target)
    (other : tree.node target ≠ some .directory) :
    ∀ visited ∈ passed place steps, ¬ target <+: visited := by
  intro visited member below
  have directory := (walk_eq_some_iff.mp walked).2 visited member
  by_cases same : target = visited
  · exact other (same ▸ directory)
  · exact other (directory_of_below below same (by rw [directory]; rfl))

def holding (target : List Name) (nested : target ≠ []) : FileTree Name where
  node place := if place = target then some .file else if target <+: place then none else some .directory
  root := by
    rw [if_neg (Ne.symm nested), if_neg (fun below => nested (List.prefix_nil.mp below))]
  above place name there := by
    have outside : ¬ target <+: place := by
      intro below
      have longer : place ++ [name] ≠ target := fun same => by
        have bound := below.length_le
        simp only [← same, List.length_append, List.length_singleton] at bound
        omega
      rw [if_neg longer, if_pos (below.trans (List.prefix_append place [name]))] at there
      cases there
    rw [if_neg (by rintro rfl; exact outside List.prefix_rfl), if_neg outside]

theorem holding_directory (nested : target ≠ []) (outside : ¬ target <+: place) :
    (holding target nested).node place = some .directory := by
  have different : place ≠ target := by
    rintro rfl
    exact outside List.prefix_rfl
  simp only [holding, if_neg different, if_neg outside]

end FileTree

/-- A path as its text gives it. The system refuses some texts. -/
structure PathText (Name : Type u) where
  steps : List (PathStep Name)
  accepted : Bool

namespace PathText

def openFile (tree : FileTree Name) (path : PathText Name) : Option (List Name) :=
  if path.accepted then tree.openFile path.steps else none

def createFile (tree : FileTree Name) (path : PathText Name) : Option (List Name) :=
  if path.accepted then tree.createFile path.steps else none

def aim (path : PathText Name) : Option (List Name) :=
  let target := destination [] path.steps
  if path.accepted && target ≠ [] && (passed [] path.steps).all fun visited =>
      !decide (target <+: visited) then
    some target
  else none

variable {tree : FileTree Name} {path : PathText Name} {target : List Name}

theorem aim_eq_some_iff : path.aim = some target ↔ path.accepted = true ∧
      destination [] path.steps = target ∧
    target ≠ [] ∧ ∀ visited ∈ passed [] path.steps, ¬ target <+: visited := by
  simp only [aim, Option.ite_none_right_eq_some, Option.some.injEq, Bool.and_eq_true, decide_eq_true_eq,
    List.all_eq_true, Bool.not_eq_true', decide_eq_false_iff_not]
  constructor
  · rintro ⟨⟨⟨accepted, nested⟩, unpassed⟩, rfl⟩
    exact ⟨accepted, rfl, nested, unpassed⟩
  · rintro ⟨accepted, rfl, nested, unpassed⟩
    exact ⟨⟨⟨accepted, nested⟩, unpassed⟩, rfl⟩

private theorem aim_of_walk (accepted : path.accepted = true)
    (walked : tree.walk [] path.steps = some target) (other : tree.node target ≠ some .directory) :
    path.aim = some target :=
  aim_eq_some_iff.mpr ⟨accepted, (FileTree.walk_eq_some_iff.mp walked).1,
    fun root => other (root ▸ tree.root), FileTree.unpassed_of_walk walked other⟩

theorem aim_of_openFile (opened : path.openFile tree = some target) : path.aim = some target := by
  rw [openFile, Option.ite_none_right_eq_some, FileTree.openFile, Option.filter_eq_some_iff] at opened
  obtain ⟨accepted, walked, file⟩ := opened
  exact aim_of_walk accepted walked (by rw [of_decide_eq_true file]; decide)

theorem aim_of_createFile (created : path.createFile tree = some target) :
    path.aim = some target := by
  rw [createFile, Option.ite_none_right_eq_some, FileTree.createFile,
    Option.filter_eq_some_iff] at created
  obtain ⟨accepted, walked, free⟩ := created
  refine aim_of_walk accepted walked fun directory => ?_
  simp [directory] at free

theorem exists_tree (aimed : path.aim = some target) :
    ∃ tree, path.openFile tree = some target ∧ path.createFile tree = some target := by
  obtain ⟨accepted, leads, nested, unpassed⟩ := aim_eq_some_iff.mp aimed
  have walked : (FileTree.holding target nested).walk [] path.steps = some target :=
    FileTree.walk_eq_some_iff.mpr
      ⟨leads, fun visited member => FileTree.holding_directory nested (unpassed visited member)⟩
  have file : (FileTree.holding target nested).node target = some .file := if_pos rfl
  refine ⟨FileTree.holding target nested, ?_, ?_⟩
  · rw [openFile, if_pos accepted, FileTree.openFile, walked, Option.filter_some,
      if_pos (by simp [file])]
  · rw [createFile, if_pos accepted, FileTree.createFile, walked, Option.filter_some,
      if_pos (by simp [file])]

def Within (directory : List Name) (path : PathText Name) : Prop :=
  ∀ target, path.aim = some target → directory <+: target

end PathText

/-- What a program asks for, when it stops at the first failure. A command's failure is ignored;
`touched` are the files that it reads or writes. -/
inductive FileOperation (Name : Type u) where
  | makeDirectory (path : PathText Name)
  | openFile (path : PathText Name)
  | createFile (path : PathText Name)
  | carry (whole : Bool)
  | command (touched : List (List Name))

/-- The tree an operation meets, and whether the system grants it. -/
structure Moment (Name : Type u) where
  tree : FileTree Name
  granted : Bool

namespace FileOperation

/-- The files the operation reads or writes, nothing if it fails. -/
def run (moment : Moment Name) (operation : FileOperation Name) : Option (List (List Name)) :=
  match operation with
  | .command touched => some (if moment.granted then touched else [])
  | .makeDirectory path => if moment.granted && path.accepted then some [] else none
  | .openFile path => if moment.granted then (path.openFile moment.tree).map ([·]) else none
  | .createFile path => if moment.granted then (path.createFile moment.tree).map ([·]) else none
  | .carry whole => if moment.granted && whole then some [] else none

def perform : List (Moment Name) → List (FileOperation Name) → List (List Name)
  | moment :: moments, operation :: operations =>
    match operation.run moment with
    | some accessed => accessed ++ perform moments operations
    | none => []
  | _, _ => []

def aim : FileOperation Name → Option (List (List Name))
  | .makeDirectory path => if path.accepted then some [] else none
  | .openFile path | .createFile path => path.aim.map ([·])
  | .carry whole => if whole then some [] else none
  | .command touched => some touched

/-- The files lie inside the directory as far as the operations can succeed. -/
def Confined (directory : List Name) : List (FileOperation Name) → Prop
  | [] => True
  | operation :: operations =>
    match operation.aim with
    | some accessed => (∀ target ∈ accessed, directory <+: target) ∧ Confined directory operations
    | none => True

variable {operation : FileOperation Name} {operations : List (FileOperation Name)}
  {moment : Moment Name}
variable {accessed touched : List (List Name)} {directory : List Name} {path : PathText Name}
  {whole : Bool}

theorem aim_of_run (ran : operation.run moment = some accessed) :
    ∃ aimed, operation.aim = some aimed ∧ ∀ target ∈ accessed, target ∈ aimed := by
  cases operation with
  | makeDirectory =>
    rw [run, Option.ite_none_right_eq_some, Bool.and_eq_true] at ran
    obtain ⟨⟨_, accepted⟩, same⟩ := ran
    cases same
    exact ⟨[], if_pos accepted, fun _ member => member⟩
  | carry =>
    rw [run, Option.ite_none_right_eq_some, Bool.and_eq_true] at ran
    obtain ⟨⟨_, full⟩, same⟩ := ran
    cases same
    exact ⟨[], if_pos full, fun _ member => member⟩
  | openFile =>
    rw [run, Option.ite_none_right_eq_some] at ran
    obtain ⟨target, opened, rfl⟩ := Option.map_eq_some_iff.mp ran.2
    exact ⟨[target], by rw [aim, PathText.aim_of_openFile opened, Option.map_some], fun _ member => member⟩
  | createFile =>
    rw [run, Option.ite_none_right_eq_some] at ran
    obtain ⟨target, created, rfl⟩ := Option.map_eq_some_iff.mp ran.2
    exact ⟨[target], by rw [aim, PathText.aim_of_createFile created, Option.map_some], fun _ member => member⟩
  | command touched =>
    cases ran
    refine ⟨touched, rfl, fun target member => ?_⟩
    split at member
    · exact member
    · cases member

theorem exists_moment (aimed : operation.aim = some accessed) :
    ∃ moment, operation.run moment = some accessed := by
  cases operation with
  | makeDirectory => exact ⟨⟨default, true⟩, by simpa [run, aim] using aimed⟩
  | carry => exact ⟨⟨default, true⟩, by simpa [run, aim] using aimed⟩
  | openFile =>
    obtain ⟨target, reached, rfl⟩ := Option.map_eq_some_iff.mp aimed
    obtain ⟨tree, opened, _⟩ := PathText.exists_tree reached
    exact ⟨⟨tree, true⟩, by simp [run, opened]⟩
  | createFile =>
    obtain ⟨_, reached, rfl⟩ := Option.map_eq_some_iff.mp aimed
    obtain ⟨tree, _, created⟩ := PathText.exists_tree reached
    exact ⟨⟨tree, true⟩, by simp [run, created]⟩
  | command => exact ⟨⟨default, true⟩, by simpa [run, aim] using aimed⟩

@[simp] theorem confined_nil : Confined directory [] := by
  rw [Confined]
  trivial

/-- Whatever the system does, the files are inside exactly when the operations are confined. -/
theorem perform_inside_iff :
    (∀ moments, ∀ target ∈ perform moments operations, directory <+: target) ↔
    Confined directory operations := by
  induction operations with
  | nil =>
    refine iff_of_true (fun moments target member => ?_) confined_nil
    cases moments <;> cases member
  | cons _ operations ih =>
    rw [Confined]
    constructor
    · intro inside
      split
      · rename_i accessed aimed
        obtain ⟨moment, ran⟩ := exists_moment aimed
        have first : ∀ moments, ∀ target ∈ accessed ++ perform moments operations,
            directory <+: target := by
          intro moments
          have whole := inside (moment :: moments)
          rwa [perform, ran] at whole
        refine ⟨fun target member => first [] target (List.mem_append_left _ member), ?_⟩
        exact ih.mp fun moments target member => first moments target (List.mem_append_right _ member)
      · trivial
    · intro confined moments target member
      cases moments with
      | nil => cases member
      | cons _ moments =>
        rw [perform] at member
        split at member
        · rename_i ran
          obtain ⟨_, best, among⟩ := aim_of_run ran
          rw [best] at confined
          rcases List.mem_append.mp member with here | later
          · exact confined.1 target (among target here)
          · exact ih.mpr confined.2 moments target later
        · cases member

@[simp] theorem confined_makeDirectory : Confined directory (.makeDirectory path :: operations) ↔
    (path.accepted = true → Confined directory operations) := by
  rw [Confined, aim]
  by_cases accepted : path.accepted = true <;> simp [accepted]

@[simp] theorem confined_carry : Confined directory (.carry whole :: operations) ↔
    (whole = true → Confined directory operations) := by
  rw [Confined, aim]
  by_cases full : whole = true <;> simp [full]

@[simp] theorem confined_command : Confined directory (.command touched :: operations) ↔
    (∀ target ∈ touched, directory <+: target) ∧ Confined directory operations := by
  rw [Confined, aim]

private theorem confined_file :
    (match aimed.map ([·]) with
      | some accessed => (∀ target ∈ accessed, directory <+: target) ∧ Confined directory operations
      | none => True) ↔
    (∀ target, aimed = some target → directory <+: target) ∧
    (aimed.isSome = true → Confined directory operations) := by
  cases aimed with
  | none => simp
  | some => simp

@[simp] theorem confined_openFile : Confined directory (.openFile path :: operations) ↔
    path.Within directory ∧ (path.aim.isSome = true → Confined directory operations) :=
  confined_file

@[simp] theorem confined_createFile : Confined directory (.createFile path :: operations) ↔
    path.Within directory ∧ (path.aim.isSome = true → Confined directory operations) :=
  confined_file

-- the operations of a program are large terms, and the lemmas above take them apart one by one
attribute [irreducible] Confined

end FileOperation

end DistributedOs.Semantics
