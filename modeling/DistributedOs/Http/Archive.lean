import DistributedOs.Engine.Execute
import DistributedOs.Http.Containment
import DistributedOs.Semantics.Codec
import DistributedOs.Semantics.Disk
import Mathlib.Tactic.DeriveCountable

/-! A directory that is packed by `zip_directory` and unpacked by `unzip_to`. The zip library is a
parameter; an archive is what it keeps of the members, under their names. -/

namespace DistributedOs.Http.Archive

open Semantics
open DistributedOs.Engine (Listing Member addDirToZip memberName zipDirectory)
open Http.Containment (join ofDirectory formatPath pathStep pathSteps isPathText)

structure ArchiveEntry where
  name : String
  content : Bytes
  deriving DecidableEq

def endsAsDirectory (name : String) : Bool :=
  name.toList.getLast? = some '/' || name.toList.getLast? = some '\\'

/-- `ZipFile::is_dir`. -/
def ArchiveEntry.isDir (entry : ArchiveEntry) : Bool := endsAsDirectory entry.name

/-- What the library keeps of a member: `add_directory` ends the name with a slash. -/
def stored (member : Member) : ArchiveEntry :=
  match member.content with
  | some content => { name := member.name, content }
  | none =>
    { name := if endsAsDirectory member.name then member.name else member.name ++ "/", content := [] }

structure ZipLibrary where
  finish : List Member → Except String Bytes
  read : Bytes → Except String (List ArchiveEntry)

/-- Members of different names come back as they were stored; whatever comes back was stored. -/
structure ZipLibrary.Lossless (zip : ZipLibrary) : Prop where
  distinct (members : List Member) : (members.map fun member => (stored member).name).Nodup →
    ∃ archive, zip.finish members = .ok archive ∧ zip.read archive = .ok (members.map stored)
  stored (members : List Member) (archive : Bytes) (entries : List ArchiveEntry) :
    zip.finish members = .ok archive →
    zip.read archive = .ok entries → ∀ entry ∈ entries, entry ∈ members.map Archive.stored

/-- `Path::parent`: trailing dots are no component. -/
def parentSteps (steps : List (PathStep String)) : List (PathStep String) :=
  ((steps.reverse.dropWhile fun step => step = .stay).drop 1).reverse

def extractEntry (output : List String) (disk : Disk String) (entry : ArchiveEntry) :
    Option (Disk String) :=
  let outPath := join (ofDirectory output) entry.name
  if !outPath.accepted then none
  else if entry.isDir then disk.makeDirectories [] outPath.steps
  else (disk.makeDirectories [] (parentSteps outPath.steps)).bind fun disk =>
  disk.writeFile outPath.steps entry.content

/-- `unzip_to`, on the bytes of the received file. -/
def unzipTo (zip : ZipLibrary) (archive : Bytes) (output : List String) (disk : Disk String) :
    Option (Disk String) :=
  match zip.read archive with
  | .error _ => none
  | .ok entries => entries.foldlM (extractEntry output) disk

def lookup : Listing → List String → Option Stored
  | .nil, _ => none
  | .file name content _ rest, path => if path = [name] then some (.file content) else lookup rest path
  | .directory name entries _ rest, path =>
    if path = [name] then some .directory
    else if path.head? = some name then lookup entries path.tail
    else lookup rest path

def names : Listing → List String
  | .nil => []
  | .file name _ _ rest => name :: names rest
  | .directory name _ _ rest => name :: names rest

/-- A name that a POSIX file system admits. -/
structure Admissible (name : String) : Prop where
  nonempty : name ≠ ""
  proper : name ≠ "." ∧ name ≠ ".."
  separator : '/' ∉ name.toList
  terminator : Char.ofNat 0 ∉ name.toList

/-- The names of a directory are admissible and different, and everything can be read. -/
def WellFormed : Listing → Prop
  | .nil => True
  | .file name _ readable rest =>
    Admissible name ∧ name ∉ names rest ∧ readable = .ok () ∧ WellFormed rest
  | .directory name entries readable rest =>
    Admissible name ∧ name ∉ names rest ∧ readable = .ok () ∧ WellFormed entries ∧ WellFormed rest

def WithoutBackslash : Listing → Prop
  | .nil => True
  | .file name _ _ rest => '\\' ∉ name.toList ∧ WithoutBackslash rest
  | .directory name entries _ rest =>
    '\\' ∉ name.toList ∧ WithoutBackslash entries ∧ WithoutBackslash rest

/-- The output directory is missing or empty, and can be made. -/
structure Vacant (disk : Disk String) (output : List String) : Prop where
  open_output : disk.Open output
  empty : ∀ path ≠ [], disk (output ++ path) = none

/-- The archive is made and unpacked, and what lies in the output directory is the tree. -/
def RoundTrip (zip : ZipLibrary) (tree : Listing) (output : List String)
    (disk : Disk String) : Prop :=
  ∃ archive after, zipDirectory zip.finish (.ok ()) tree = .ok archive ∧
  unzipTo zip archive output disk = some after ∧
    (∀ path ≠ [], after (output ++ path) = lookup tree path) ∧
    ∀ place, ¬ place <+: output → ¬ output <+: place → after place = disk place

def joined (components : List String) : List Char :=
  ['/'].intercalate (components.map String.toList)

theorem joined_cons_cons (first second : String) (rest : List String) :
    joined (first :: second :: rest) = first.toList ++ '/' :: joined (second :: rest) := by
  simp [joined, List.intercalate_cons_cons]

theorem joined_concat (components : List String) (last : String) :
    joined (components ++ [last]) = (if components = [] then [] else joined components ++ ['/']) ++
      last.toList := by
  induction components with
  | nil => simp [joined]
  | cons first rest ih =>
    rw [if_neg (List.cons_ne_nil first rest)]
    cases rest with
    | nil => simp [joined, List.intercalate_cons_cons]
    | cons second rest =>
      rw [List.cons_append, List.cons_append, joined_cons_cons, ← List.cons_append, ih,
        if_neg (List.cons_ne_nil second rest),
        joined_cons_cons]
      simp

theorem mem_joined :
    c ∈ joined components → c = '/' ∨ ∃ component ∈ components, c ∈ component.toList := by
  induction components with
  | nil => simp [joined]
  | cons first rest ih =>
    cases rest with
    | nil =>
      intro member
      exact Or.inr ⟨first, List.mem_cons_self, by simpa [joined] using member⟩
    | cons =>
      rw [joined_cons_cons, List.mem_append, List.mem_cons]
      rintro (member | same | member)
      · exact Or.inr ⟨first, List.mem_cons_self, member⟩
      · exact Or.inl same
      · exact (ih member).imp_right fun ⟨component, among, here⟩ =>
          ⟨component, List.mem_cons_of_mem _ among, here⟩

theorem pathSteps_joined (nonempty : components ≠ [])
    (plain : ∀ component ∈ components, '/' ∉ component.toList) :
    pathSteps (joined components) = components.map pathStep := by
  have split : (joined components).splitOn '/' = components.map String.toList := by
    apply List.splitOn_intercalate
    · intro _ member
      obtain ⟨component, among, rfl⟩ := List.mem_map.mp member
      exact plain component among
    · simpa using nonempty
  rw [pathSteps, split, List.map_map]
  refine List.map_congr_left fun component _ => ?_
  rw [Function.comp_apply, String.ofList_toList]

theorem pathStep_of_admissible (admissible : Admissible name) : pathStep name = .down name := by
  rw [pathStep, if_neg (by simp [admissible.nonempty, admissible.proper.1]), if_neg admissible.proper.2]

/-- Admissible names without a backslash. -/
def Plain (path : List String) : Prop := ∀ name ∈ path, Admissible name ∧ '\\' ∉ name.toList

variable {path : List String}

theorem toList_memberName (plain : Plain path) : (memberName path).toList = joined path := by
  have kept : ∀ c ∈ joined path, (if c = '\\' then '/' else c) = c := by
    intro c member
    refine if_neg ?_
    rintro rfl
    rcases mem_joined member with separator | ⟨name, among, here⟩
    · exact absurd separator (by decide)
    · exact (plain name among).2 here
  rw [memberName, String.toList_ofList, String.toList_intercalate]
  exact (List.map_congr_left kept).trans (List.map_id _)

theorem pathSteps_memberName (nonempty : path ≠ []) (plain : Plain path) :
    pathSteps (joined path) = path.map .down := by
  rw [pathSteps_joined nonempty fun name member => (plain name member).1.separator]
  exact List.map_congr_left fun name member => pathStep_of_admissible (plain name member).1

theorem pathSteps_memberName_slash (nonempty : path ≠ []) (plain : Plain path) :
    pathSteps (joined path ++ ['/']) = path.map .down ++ [.stay] := by
  have slash : joined path ++ ['/'] = joined (path ++ [""]) := by
    rw [joined_concat, if_neg nonempty]
    exact (List.append_nil _).symm
  have separator : ∀ component ∈ path ++ [""], '/' ∉ component.toList := by
    intro component member
    rcases List.mem_append.mp member with among | last
    · exact (plain component among).1.separator
    · rw [List.mem_singleton.mp last]
      exact List.not_mem_nil
  rw [slash, pathSteps_joined (by simp) separator, List.map_append,
    List.map_congr_left fun name member => pathStep_of_admissible (plain name member).1]
  rfl

section
variable {dir output : List String} {name : String} {disk : Disk String} {content : Bytes}

theorem head_joined (rest : List String) (admissible : Admissible first) :
    ∃ c chars, joined (first :: rest) = c :: chars ∧ c ≠ '/' := by
  cases spelled : first.toList with
  | nil => exact absurd (String.toList_eq_nil_iff.mp spelled) admissible.nonempty
  | cons c chars =>
    have plain : c ≠ '/' := by
      rintro rfl
      exact admissible.separator (spelled ▸ List.mem_cons_self)
    cases rest with
    | nil => exact ⟨c, chars, by simp [joined, spelled], plain⟩
    | cons => exact ⟨c, _, by rw [joined_cons_cons, spelled, List.cons_append], plain⟩

theorem terminator_joined (plain : Plain path) : Char.ofNat 0 ∉ joined path := by
  intro member
  rcases mem_joined member with separator | ⟨name, among, here⟩
  · exact absurd separator (by decide)
  · exact (plain name among).1.terminator here

theorem last_joined (plain : Plain (dir ++ [name])) :
    ∃ last, (joined (dir ++ [name])).getLast? = some last ∧ last ≠ '/' ∧ last ≠ '\\' := by
  obtain ⟨admissible, clean⟩ := plain name (List.mem_append_right _ List.mem_cons_self)
  have spelled : name.toList ≠ [] := fun empty => admissible.nonempty (String.toList_eq_nil_iff.mp empty)
  have among := List.getLast_mem spelled
  refine ⟨name.toList.getLast spelled, ?_, ?_, ?_⟩
  · rw [joined_concat, List.getLast?_append_of_ne_nil _ spelled, List.getLast?_eq_some_getLast spelled]
  · intro same
    exact admissible.separator (same ▸ among)
  · intro same
    exact clean (same ▸ among)

theorem join_of_chars (path : List String) (tail : List Char)
    (admissible : ∀ name ∈ path.head?, Admissible name) (nonempty : path ≠ [])
    (spelled : text.toList = joined path ++ tail) (terminator : Char.ofNat 0 ∉ text.toList) :
    join (ofDirectory output) text = ⟨output.map .down ++ pathSteps text.toList, true⟩ := by
  have relative : text.toList.head? ≠ some '/' := by
    cases path with
    | nil => exact absurd rfl nonempty
    | cons first rest =>
      obtain ⟨c, _, shape, plain⟩ := head_joined rest (admissible first rfl)
      rw [spelled, shape, List.cons_append, List.head?_cons]
      exact fun same => plain (Option.some.inj same)
  rw [join, if_neg relative, formatPath, ofDirectory, isPathText]
  simp [terminator]

theorem parentSteps_concat (place : List String) (name : String) :
    parentSteps ((place ++ [name]).map .down) = place.map .down := by
  simp [parentSteps]

theorem isDir_file (plain : Plain (dir ++ [name])) :
    endsAsDirectory (memberName (dir ++ [name])) = false := by
  obtain ⟨_, ends, separator, backslash⟩ := last_joined plain
  rw [endsAsDirectory, toList_memberName plain, ends]
  simp [separator, backslash]

theorem isDir_directory : endsAsDirectory (name ++ "/") = true := by
  simp [endsAsDirectory, String.toList_append]

theorem extractEntry_file (plain : Plain (dir ++ [name])) (free : disk.Open (output ++ dir))
    (absent : disk (output ++ dir ++ [name]) = none) :
    extractEntry output disk
      (stored { name := memberName (dir ++ [name]), content := some content }) =
      some ((disk.opened (output ++ dir)).put (output ++ dir ++ [name]) (.file content)) := by
  have spelled := toList_memberName plain
  have joins : join (ofDirectory output) (memberName (dir ++ [name])) =
      ⟨(output ++ dir ++ [name]).map .down, true⟩ := by
    rw [join_of_chars (dir ++ [name]) []
      (fun first member => (plain first (List.mem_of_mem_head? member)).1)
      (by simp) (by rw [spelled, List.append_nil])
      (by rw [spelled]; exact terminator_joined plain), spelled,
      pathSteps_memberName (by simp) plain]
    simp
  have outside : ¬ output ++ dir ++ [name] <+: output ++ dir := by
    intro below
    have lengths := below.length_le
    simp at lengths
  have directories : ∀ place, place <+: output ++ dir →
      disk.opened (output ++ dir) place = some .directory :=
    fun place above => if_pos above
  simp only [extractEntry, stored, ArchiveEntry.isDir, isDir_file plain, joins, Bool.not_true,
    Bool.false_eq_true, if_false]
  rw [parentSteps_concat, Disk.makeDirectories_path free, Option.bind_some,
    Disk.writeFile_path directories (by rw [Disk.opened, if_neg outside, absent]; exact by rintro ⟨⟩)]

theorem extractEntry_directory (plain : Plain (dir ++ [name]))
    (free : disk.Open (output ++ dir ++ [name])) :
    extractEntry output disk (stored { name := memberName (dir ++ [name]), content := none }) =
      some (disk.opened (output ++ dir ++ [name])) := by
  have spelled : (memberName (dir ++ [name]) ++ "/").toList = joined (dir ++ [name]) ++ ['/'] := by
    rw [String.toList_append, toList_memberName plain]
    rfl
  have terminator : Char.ofNat 0 ∉ joined (dir ++ [name]) ++ ['/'] := by
    rw [List.mem_append, not_or]
    exact ⟨terminator_joined plain, by decide⟩
  have joins : join (ofDirectory output) (memberName (dir ++ [name]) ++ "/") =
      ⟨(output ++ dir ++ [name]).map .down ++ [.stay], true⟩ := by
    rw [join_of_chars (dir ++ [name]) ['/']
      (fun first member => (plain first (List.mem_of_mem_head? member)).1)
      (by simp) spelled (by rw [spelled]; exact terminator), spelled, pathSteps_memberName_slash
      (by simp) plain]
    simp
  simp only [extractEntry, stored, isDir_file plain, ArchiveEntry.isDir, isDir_directory,
    joins, Bool.not_true,
    Bool.false_eq_true, if_false, if_true]
  exact Disk.makeDirectories_stay free

end

/-- The tree lies below the place, and nothing else has changed. -/
structure Grafted (disk : Disk String) (place : List String) (tree : Listing)
    (after : Disk String) : Prop where
  below : ∀ path ≠ [], after (place ++ path) = (lookup tree path).or (disk (place ++ path))
  above : ∀ above, above <+: place → after above = if names tree = [] then disk above
    else some .directory
  elsewhere : ∀ other, ¬ other <+: place → ¬ place <+: other → after other = disk other

def Unused (disk : Disk String) (place : List String) (tree : Listing) : Prop :=
  ∀ name ∈ names tree, ∀ path, disk (place ++ name :: path) = none

variable {tree : Listing}

theorem lookup_of_not_mem (absent : name ∉ names tree) :
    lookup tree (name :: path) = none := by
  induction tree with
  | nil => rfl
  | file _ _ _ _ ih =>
    rw [names, List.mem_cons, not_or] at absent
    rw [lookup, if_neg (by simp [absent.1]), ih absent.2]
  | directory _ _ _ _ _ ih =>
    rw [names, List.mem_cons, not_or] at absent
    rw [lookup, if_neg (by simp [absent.1]), if_neg (by simp [absent.1]), ih absent.2]

variable {zip : ZipLibrary} {disk after : Disk String} {output : List String}

variable {members inner : List Member}

theorem addDirToZip_file
    (added : addDirToZip dir rest = .ok members) :
    addDirToZip dir (.file name content (.ok ()) rest) = .ok
      ({ name := memberName (dir ++ [name]), content := some content } :: members) := by
  rw [addDirToZip, added]
  rfl

theorem addDirToZip_directory
    (addedInner : addDirToZip (dir ++ [name]) entries = .ok inner)
    (added : addDirToZip dir rest = .ok members) :
    addDirToZip dir (.directory name entries (.ok ()) rest) =
      .ok ({ name := memberName (dir ++ [name]), content := none } :: (inner ++ members)) := by
  rw [addDirToZip, added, addedInner]
  rfl

theorem not_prefix_of_append (nonempty : path ≠ []) : ¬ place ++ path <+: place := by
  intro below
  have lengths := below.length_le
  rw [List.length_append] at lengths
  exact nonempty (List.length_eq_zero_iff.mp (by omega))

theorem opened_append (nonempty : path ≠ []) :
    disk.opened place (place ++ path) = disk (place ++ path) :=
  if_neg (not_prefix_of_append nonempty)

theorem opened_of_ne (apart : ¬ other <+: place) : disk.opened place other = disk other :=
  if_neg apart

theorem Grafted.file
    (grafted : Grafted ((disk.opened place).put (place ++ [name]) (.file content)) place rest after)
    (distinct : name ∉ names rest) :
    Grafted disk place (.file name content readable rest) after := by
  have put_of_ne {target : List String} (different : target ≠ place ++ [name]) :
      (disk.opened place).put (place ++ [name]) (.file content) target = disk.opened place target :=
    Function.update_of_ne different _ _
  refine { below := ?_, above := ?_, elsewhere := ?_ }
  · intro path nonempty
    rw [grafted.below path nonempty, lookup]
    by_cases here : path = [name]
    · subst here
      rw [lookup_of_not_mem distinct, if_pos rfl, Disk.put, Function.update_self]
      rfl
    · rw [if_neg here, put_of_ne fun same => here (List.append_cancel_left same), opened_append nonempty]
  · intro above prefixed
    have different : above ≠ place ++ [name] := by
      rintro rfl
      exact not_prefix_of_append (List.cons_ne_nil _ _) prefixed
    rw [grafted.above above prefixed, put_of_ne different, Disk.opened, if_pos prefixed, names,
      if_neg (List.cons_ne_nil _ _),
      ite_self]
  · intro other outside apart
    have different : other ≠ place ++ [name] := by
      rintro rfl
      exact apart (List.prefix_append _ _)
    rw [grafted.elsewhere other outside apart, put_of_ne different, opened_of_ne outside]

theorem apart_of_ne (different : other ≠ name) :
    ¬ place ++ other :: path <+: place ++ [name] ∧
      ¬ place ++ [name] <+: place ++ other :: path := by
  constructor
  · intro below
    exact different (List.cons_prefix_cons.mp ((List.prefix_append_right_inj place).mp below)).1
  · intro below
    exact different (List.cons_prefix_cons.mp ((List.prefix_append_right_inj place).mp below)).1.symm

theorem Grafted.directory
    (inner : Grafted (disk.opened (place ++ [name])) (place ++ [name]) entries middle)
    (grafted : Grafted middle place rest after) (distinct : name ∉ names rest) :
    Grafted disk place (.directory name entries readable rest) after := by
  have directories {above : List String} (prefixed : above <+: place ++ [name]) :
      middle above = some .directory := by
    rw [inner.above above prefixed, Disk.opened, if_pos prefixed, ite_self]
  refine { below := ?_, above := ?_, elsewhere := ?_ }
  · intro path nonempty
    rw [grafted.below path nonempty, lookup]
    cases path with
    | nil => exact absurd rfl nonempty
    | cons first path =>
      by_cases here : first = name
      · subst here
        rw [lookup_of_not_mem distinct, Option.none_or]
        by_cases last : path = []
        · rw [last, if_pos rfl, directories List.prefix_rfl]
          rfl
        · have found := inner.below path last
          rw [opened_append last, List.append_assoc, List.singleton_append] at found
          rw [found, if_neg (by simp [last]), List.head?_cons, if_pos rfl, List.tail_cons]
      · obtain ⟨outside, apart⟩ := apart_of_ne here
        rw [inner.elsewhere _ outside apart, opened_of_ne outside, if_neg (by simp [here]),
          List.head?_cons,
          if_neg (by simp [here])]
  · intro above prefixed
    rw [grafted.above above prefixed, directories (prefixed.trans (List.prefix_append _ _)), names,
      if_neg (List.cons_ne_nil _ _), ite_self]
  · intro other outside apart
    have beyond : ¬ other <+: place ++ [name] := by
      intro below
      rcases List.prefix_concat_iff.mp below with same | above
      · exact apart (same ▸ List.prefix_append _ _)
      · exact outside above
    have away : ¬ place ++ [name] <+: other := fun below => apart ((List.prefix_append _ _).trans below)
    rw [grafted.elsewhere other outside apart, inner.elsewhere other beyond away, opened_of_ne beyond]

theorem open_of_directories
    (directories : ∀ above, above <+: place → disk above = some .directory) :
    disk.Open place :=
  ⟨directories [] List.nil_prefix, fun above prefixed => Or.inr (directories above prefixed)⟩

theorem Plain.concat (plain : Plain dir) (admissible : Admissible name)
    (clean : '\\' ∉ name.toList) : Plain (dir ++ [name]) := by
  intro component member
  rcases List.mem_append.mp member with before | last
  · exact plain component before
  · rw [List.mem_singleton.mp last]
    exact ⟨admissible, clean⟩

section
variable {place : List String} {name : String} {content : Bytes} {readable : Except String Unit}
  {entries rest : Listing}

theorem open_child (free : disk.Open place) (absent : disk (place ++ [name]) = none) :
    disk.Open (place ++ [name]) := by
  refine ⟨free.1, fun above prefixed => ?_⟩
  rcases List.prefix_concat_iff.mp prefixed with rfl | higher
  · exact Or.inl absent
  · exact free.2 above higher

theorem directories_put : ∀ above, above <+: place →
    (disk.opened place).put (place ++ [name]) (.file content) above = some .directory := by
  intro above prefixed
  have different : above ≠ place ++ [name] := by
    rintro rfl
    exact not_prefix_of_append (List.cons_ne_nil _ _) prefixed
  rw [Disk.put, Function.update_of_ne different, Disk.opened, if_pos prefixed]

theorem Unused.afterFile (unused : Unused disk place (.file name content readable rest))
    (distinct : name ∉ names rest) :
    Unused ((disk.opened place).put (place ++ [name]) (.file content)) place rest := by
  intro other member path
  have different : place ++ other :: path ≠ place ++ [name] := by
    intro same
    have heads := (List.cons.inj (List.append_cancel_left same)).1
    exact distinct (heads ▸ member)
  rw [Disk.put, Function.update_of_ne different, opened_append (List.cons_ne_nil _ _)]
  exact unused other (List.mem_cons_of_mem _ member) path

theorem Unused.inside (unused : Unused disk place (.directory name entries readable rest)) :
    Unused (disk.opened (place ++ [name])) (place ++ [name]) entries := by
  intro other _ path
  rw [opened_append (List.cons_ne_nil _ _), List.append_assoc, List.singleton_append]
  exact unused name List.mem_cons_self (other :: path)

theorem Unused.afterDirectory (unused : Unused disk place (.directory name entries readable rest))
    (distinct : name ∉ names rest)
    (grafts : Grafted (disk.opened (place ++ [name])) (place ++ [name]) entries after) :
    Unused after place rest := by
  intro other member path
  have different : other ≠ name := fun same => distinct (same ▸ member)
  obtain ⟨outside, apart⟩ := apart_of_ne different
  rw [grafts.elsewhere _ outside apart, opened_of_ne outside]
  exact unused other (List.mem_cons_of_mem _ member) path

theorem Grafted.directories
    (grafts : Grafted (disk.opened (place ++ [name])) (place ++ [name]) entries after) :
    ∀ above, above <+: place → after above = some .directory := by
  intro above prefixed
  have longer := prefixed.trans (List.prefix_append place [name])
  rw [grafts.above above longer, Disk.opened, if_pos longer, ite_self]

end

/-- Unpacking what was packed from a directory puts its tree at the directory's place. -/
theorem grafted_of_addDirToZip (wellFormed : WellFormed tree) (clean : WithoutBackslash tree)
    (plain : Plain dir) (free : disk.Open (output ++ dir))
    (unused : Unused disk (output ++ dir) tree) :
    ∃ members after, addDirToZip dir tree = .ok members ∧
      (members.map stored).foldlM (extractEntry output) disk = some after ∧
      Grafted disk (output ++ dir) tree after := by
  induction tree generalizing dir disk with
  | nil =>
    refine ⟨[], disk, rfl, rfl, { below := ?_, above := ?_, elsewhere := ?_ }⟩
    · exact fun path _ => rfl
    · exact fun above _ => (if_pos rfl).symm
    · exact fun _ _ _ => rfl
  | file name _ _ _ ih =>
    obtain ⟨admissible, distinct, rfl, wellFormed⟩ := wellFormed
    obtain ⟨slashless, clean⟩ := clean
    have absent : disk (output ++ dir ++ [name]) = none := unused name List.mem_cons_self []
    obtain ⟨members, after, added, unpacked, grafted⟩ :=
      ih wellFormed clean plain (open_of_directories directories_put) (unused.afterFile distinct)
    refine ⟨_, after, addDirToZip_file added, ?_, grafted.file distinct⟩
    rw [List.map_cons, List.foldlM_cons,
      extractEntry_file (plain.concat admissible slashless) free absent]
    exact unpacked
  | directory name entries _ _ ihEntries ih =>
    obtain ⟨admissible, distinct, rfl, inside, wellFormed⟩ := wellFormed
    obtain ⟨slashless, cleanInside, clean⟩ := clean
    have longer := plain.concat admissible slashless
    have absent : disk (output ++ dir ++ [name]) = none := unused name List.mem_cons_self []
    -- below the new directory first, which is made even when it stays empty
    have made : (disk.opened (output ++ dir ++ [name])).Open (output ++ (dir ++ [name])) := by
      rw [← List.append_assoc]
      exact open_of_directories fun above prefixed => if_pos prefixed
    have within : Unused (disk.opened (output ++ dir ++ [name]))
        (output ++ (dir ++ [name])) entries := by
      rw [← List.append_assoc]
      exact unused.inside
    obtain ⟨_, _, addedInner, unpackedInner, grafts⟩ := ihEntries inside cleanInside longer made within
    rw [← List.append_assoc] at grafts
    obtain ⟨members, after, added, unpacked, grafted⟩ :=
      ih wellFormed clean plain (open_of_directories grafts.directories)
        (unused.afterDirectory distinct grafts)
    refine ⟨_, after, addDirToZip_directory addedInner added, ?_, grafts.directory grafted distinct⟩
    rw [List.map_cons, List.map_append, List.foldlM_cons,
      extractEntry_directory longer (open_child free absent)]
    simp only [Option.bind_eq_bind, Option.bind_some, List.foldlM_append, unpackedInner]
    exact unpacked

def paths : Listing → List (List String)
  | .nil => []
  | .file name _ _ rest => [name] :: paths rest
  | .directory name entries _ rest => [name] :: ((paths entries).map (name :: ·) ++ paths rest)

def downs (name : String) : List String :=
  (pathSteps name.toList).filterMap fun
    | .down name => some name
    | _ => none

theorem filterMap_down (path : List String) (rest : List (PathStep String)) :
    ((path.map PathStep.down ++ rest).filterMap fun
      | .down name => some name
      | _ => none) = path ++ rest.filterMap fun
      | .down name => some name
      | _ => none := by
  induction path with
  | nil => rfl
  | cons _ _ ih => simp [ih]

theorem downs_stored (plain : Plain (dir ++ [name])) (content : Option Bytes) :
    downs (stored { name := memberName (dir ++ [name]), content }).name = dir ++ [name] := by
  cases content with
  | some =>
    simp only [stored, downs, toList_memberName plain]
    rw [pathSteps_memberName (by simp) plain, ← List.append_nil (List.map _ _), filterMap_down]
    exact List.append_nil _
  | none =>
    have spelled : (memberName (dir ++ [name]) ++ "/").toList = joined (dir ++ [name]) ++ ['/'] := by
      rw [String.toList_append, toList_memberName plain]
      rfl
    simp only [stored, isDir_file plain, Bool.false_eq_true, if_false, downs, spelled]
    rw [pathSteps_memberName_slash (by simp) plain, filterMap_down]
    exact List.append_nil _

theorem downs_addDirToZip (wellFormed : WellFormed tree)
    (clean : WithoutBackslash tree) (plain : Plain dir)
    (added : addDirToZip dir tree = .ok members) :
    members.map (fun member => downs (stored member).name) = (paths tree).map (dir ++ ·) := by
  induction tree generalizing dir members with
  | nil =>
    cases added
    rfl
  | file _ content _ _ ih =>
    obtain ⟨_, _, added⟩ := ok_of_bind added
    obtain ⟨later, behind, done⟩ := ok_of_bind added
    cases done
    have here := downs_stored (plain.concat wellFormed.1 clean.1) (some content)
    rw [List.map_cons, here, ih wellFormed.2.2.2 clean.2 plain behind, paths, List.map_cons]
  | directory _ _ _ _ ihEntries ih =>
    obtain ⟨_, _, added⟩ := ok_of_bind added
    obtain ⟨_, inside, added⟩ := ok_of_bind added
    obtain ⟨_, behind, done⟩ := ok_of_bind added
    cases done
    have longer := plain.concat wellFormed.1 clean.1
    have within := ihEntries wellFormed.2.2.2.1 clean.2.1 longer inside
    have after := ih wellFormed.2.2.2.2 clean.2.2 plain behind
    rw [List.map_cons, downs_stored longer, List.map_append, within, after, paths, List.map_cons,
      List.map_append, List.map_map]
    simp

theorem head_of_mem_paths (member : path ∈ paths tree) :
    ∃ name rest, path = name :: rest ∧ name ∈ names tree := by
  induction tree with
  | nil => cases member
  | file name _ _ _ ih =>
    rcases List.mem_cons.mp member with rfl | later
    · exact ⟨name, [], rfl, List.mem_cons_self⟩
    · obtain ⟨first, tail, shape, among⟩ := ih later
      exact ⟨first, tail, shape, List.mem_cons_of_mem _ among⟩
  | directory name _ _ _ _ ih =>
    rcases List.mem_cons.mp member with rfl | member
    · exact ⟨name, [], rfl, List.mem_cons_self⟩
    · rcases List.mem_append.mp member with inner | later
      · obtain ⟨tail, _, rfl⟩ := List.mem_map.mp inner
        exact ⟨name, tail, rfl, List.mem_cons_self⟩
      · obtain ⟨first, tail, shape, among⟩ := ih later
        exact ⟨first, tail, shape, List.mem_cons_of_mem _ among⟩

theorem nodup_paths (wellFormed : WellFormed tree) : (paths tree).Nodup := by
  have absent {rest : Listing} {name : String} (distinct : name ∉ names rest) (path : List String) :
      name :: path ∉ paths rest := by
    intro member
    obtain ⟨first, tail, shape, among⟩ := head_of_mem_paths member
    exact distinct ((List.cons.inj shape).1 ▸ among)
  induction tree with
  | nil => exact List.nodup_nil
  | file _ _ _ _ ih =>
    exact List.nodup_cons.mpr ⟨absent wellFormed.2.1 [], ih wellFormed.2.2.2⟩
  | directory _ _ _ _ ihEntries ih =>
    obtain ⟨_, distinct, _, inside, wellFormed⟩ := wellFormed
    refine List.nodup_cons.mpr ⟨?_, List.nodup_append.mpr ⟨?_, ih wellFormed, ?_⟩⟩
    · intro member
      rcases List.mem_append.mp member with inner | later
      · obtain ⟨path, among, same⟩ := List.mem_map.mp inner
        obtain ⟨_, _, rfl, _⟩ := head_of_mem_paths among
        cases same
      · exact absent distinct [] later
    · exact (ihEntries inside).map fun _ _ same => (List.cons.inj same).2
    · rintro _ inner _ later rfl
      obtain ⟨path, _, rfl⟩ := List.mem_map.mp inner
      exact absent distinct path later

theorem nodup_names (wellFormed : WellFormed tree) (clean : WithoutBackslash tree)
    (added : addDirToZip [] tree = .ok members) :
    (members.map fun member => (stored member).name).Nodup := by
  have distinct : (members.map fun member => downs (stored member).name).Nodup := by
    rw [downs_addDirToZip wellFormed clean (fun _ member => absurd member List.not_mem_nil) added]
    simpa using nodup_paths wellFormed
  rw [← Function.comp_def downs, ← List.map_map] at distinct
  exact List.Nodup.of_map _ distinct

theorem clean_addDirToZip (added : addDirToZip dir tree = .ok members) :
    ∀ member ∈ members, '\\' ∉ (stored member).name.toList := by
  have replaced (path : List String) : '\\' ∉ (memberName path).toList := by
    rw [memberName, String.toList_ofList, List.mem_map]
    rintro ⟨c, _, same⟩
    split at same
    · cases same
    · rename_i other
      exact other same
  have clean (path : List String) (content : Option Bytes) :
      '\\' ∉ (stored { name := memberName path, content }).name.toList := by
    cases content with
    | some => exact replaced path
    | none =>
      simp only [stored]
      split
      · exact replaced path
      · rw [String.toList_append, List.mem_append, not_or]
        exact ⟨replaced path, by decide⟩
  induction tree generalizing dir members with
  | nil =>
    cases added
    exact nofun
  | file _ _ _ _ ih =>
    obtain ⟨_, _, added⟩ := ok_of_bind added
    obtain ⟨later, behind, done⟩ := ok_of_bind added
    cases done
    exact List.forall_mem_cons.mpr ⟨clean _ _, ih behind⟩
  | directory _ _ _ _ ihEntries ih =>
    obtain ⟨_, _, added⟩ := ok_of_bind added
    obtain ⟨_, inside, added⟩ := ok_of_bind added
    obtain ⟨_, behind, done⟩ := ok_of_bind added
    cases done
    refine List.forall_mem_cons.mpr ⟨clean _ _, fun member among => ?_⟩
    rcases List.mem_append.mp among with within | after
    · exact ihEntries inside member within
    · exact ih behind member after

/-- Where steps without a backslash can lead from the output directory. -/
def Reachable (output place : List String) : Prop :=
  ∃ above clean, above <+: output ∧ (∀ name ∈ clean, '\\' ∉ name.toList) ∧ place = above ++ clean

def CleanStep : PathStep String → Prop
  | .down name => '\\' ∉ name.toList
  | _ => True

theorem Reachable.next {place : List String} {step : PathStep String}
    (reachable : Reachable output place) (clean : CleanStep step) :
    Reachable output (step.next place) := by
  obtain ⟨above, names, prefixed, plain, rfl⟩ := reachable
  cases step with
  | stay => exact ⟨above, names, prefixed, plain, rfl⟩
  | down name =>
    refine ⟨above, names ++ [name], prefixed, ?_, by simp [PathStep.next]⟩
    intro other member
    rcases List.mem_append.mp member with before | last
    · exact plain other before
    · rw [List.mem_singleton.mp last]
      exact clean
  | up =>
    by_cases empty : names = []
    · subst empty
      refine ⟨above.dropLast, [], (List.dropLast_prefix above).trans prefixed, List.forall_mem_nil _, ?_⟩
      simp [PathStep.next]
    · refine ⟨above, names.dropLast, prefixed, fun other member =>
        plain other (List.mem_of_mem_dropLast member), ?_⟩
      rw [PathStep.next, List.dropLast_append_of_ne_nil empty]

theorem reachable_of_visited (reachable : Reachable output place)
    (clean : ∀ step ∈ steps, CleanStep step) :
    ∀ target ∈ Disk.visited place steps, Reachable output target := by
  induction steps generalizing place with
  | nil =>
    intro _ member
    rwa [List.mem_singleton.mp member]
  | cons _ _ ih =>
    rw [List.forall_mem_cons] at clean
    rw [Disk.visited_cons, List.forall_mem_cons]
    exact ⟨reachable, ih (reachable.next clean.1) clean.2⟩

theorem mem_intercalate {separator : List Char} (among : part ∈ parts)
    (member : c ∈ part) : c ∈ separator.intercalate parts := by
  induction parts with
  | nil => cases among
  | cons _ rest ih =>
    cases rest with
    | nil =>
      rw [List.mem_singleton.mp among] at member
      simpa using member
    | cons =>
      rw [List.intercalate_cons_cons, List.mem_append, List.mem_append]
      rcases List.mem_cons.mp among with rfl | later
      · exact Or.inl (Or.inl member)
      · exact Or.inr (ih later)

theorem cleanStep_of_mem_pathSteps {chars : List Char} (clean : '\\' ∉ chars) :
    ∀ step ∈ pathSteps chars, CleanStep step := by
  intro _ member
  obtain ⟨part, among, rfl⟩ := List.mem_map.mp member
  have absent : '\\' ∉ part := by
    intro here
    have whole : ['/'].intercalate (chars.splitOn '/') = chars := List.intercalate_splitOn '/'
    exact clean (whole ▸ mem_intercalate among here)
  unfold pathStep
  split
  · trivial
  · split
    · trivial
    · rwa [CleanStep, String.toList_ofList]

theorem reachable_of_join (clean : '\\' ∉ name.toList) :
    ∀ target ∈ Disk.visited [] (join (ofDirectory output) name).steps, Reachable output target := by
  have steps := cleanStep_of_mem_pathSteps clean
  have root : Reachable output [] := ⟨[], [], List.nil_prefix, nofun, rfl⟩
  unfold join
  split
  · exact reachable_of_visited root steps
  · intro target member
    rcases Disk.mem_visited_append.mp member with within | beyond
    · exact ⟨target, [], Disk.mem_visited_path.mp within, nofun, (List.append_nil target).symm⟩
    · rw [ofDirectory, destination_down, List.nil_append] at beyond
      exact reachable_of_visited ⟨output, [], List.prefix_rfl, nofun, (List.append_nil output).symm⟩
        steps target beyond

theorem prefix_parentSteps (steps : List (PathStep String)) : parentSteps steps <+: steps := by
  rw [parentSteps, ← List.reverse_suffix, List.reverse_reverse]
  exact (List.drop_suffix _ _).trans (List.dropWhile_suffix _)

theorem reachable_of_extractEntry (clean : '\\' ∉ entry.name.toList)
    (extracted : extractEntry output disk entry = some after)
    (there : (after target).isSome = true) :
    (disk target).isSome = true ∨ Reachable output target := by
  have reachable : target ∈ Disk.visited [] (join (ofDirectory output) _).steps →
      Reachable output target :=
    reachable_of_join clean target
  unfold extractEntry at extracted
  simp only at extracted
  split at extracted
  · cases extracted
  · split at extracted
    · exact (Disk.there_of_makeDirectories extracted there).imp_right reachable
    · obtain ⟨_, made, written⟩ := Option.bind_eq_some_iff.mp extracted
      rcases Disk.there_of_writeFile written there with before | same
      · refine (Disk.there_of_makeDirectories made before).imp_right fun member => reachable ?_
        exact Disk.mem_visited_of_prefix (prefix_parentSteps _) member
      · right
        apply reachable
        rw [same]
        exact Disk.destination_mem_visited

theorem reachable_of_foldlM {entries : List ArchiveEntry}
    (clean : ∀ entry ∈ entries, '\\' ∉ entry.name.toList)
    (unpacked : entries.foldlM (extractEntry output) disk = some after)
    (there : (after target).isSome = true) :
    (disk target).isSome = true ∨ Reachable output target := by
  induction entries generalizing disk with
  | nil =>
    cases unpacked
    exact Or.inl there
  | cons _ _ ih =>
    obtain ⟨_, extracted, rest⟩ := Option.bind_eq_some_iff.mp unpacked
    rw [List.forall_mem_cons] at clean
    rcases ih clean.2 rest with before | reachable
    · exact reachable_of_extractEntry clean.1 extracted before
    · exact Or.inr reachable

theorem Reachable.clean (reachable : Reachable output (output ++ path)) :
    ∀ name ∈ path, '\\' ∉ name.toList := by
  obtain ⟨_, _, ⟨_, rfl⟩, plain, same⟩ := reachable
  rw [List.append_assoc] at same
  intro name member
  exact plain name (List.append_cancel_left same ▸ List.mem_append_right _ member)

/-- Where there is a backslash, there is one on the path of something in the tree. -/
theorem exists_backslash (wellFormed : WellFormed tree) (dirty : ¬ WithoutBackslash tree) :
    ∃ path ≠ [], (lookup tree path).isSome = true ∧ ∃ name ∈ path, '\\' ∈ name.toList := by
  have later {rest : Listing} {name : String} (distinct : name ∉ names rest) {path : List String}
    (nonempty : path ≠ [])
      (there : (lookup rest path).isSome = true) : path.head? ≠ some name := by
    cases path with
    | nil => exact absurd rfl nonempty
    | cons =>
      rintro ⟨⟩
      rw [lookup_of_not_mem distinct] at there
      cases there
  induction tree with
  | nil => exact absurd trivial dirty
  | file name _ _ _ ih =>
    by_cases here : '\\' ∈ name.toList
    · exact ⟨[name], List.cons_ne_nil _ _, by simp [lookup], name, List.mem_cons_self, here⟩
    · obtain ⟨path, nonempty, there, backslash⟩ := ih wellFormed.2.2.2 fun clean => dirty ⟨here, clean⟩
      have different : path ≠ [name] := by
        rintro rfl
        exact later wellFormed.2.1 nonempty there rfl
      exact ⟨path, nonempty, by rwa [lookup, if_neg different], backslash⟩
  | directory name entries _ _ ihEntries ih =>
    obtain ⟨_, distinct, _, inside, wellFormed⟩ := wellFormed
    by_cases here : '\\' ∈ name.toList
    · exact ⟨[name], List.cons_ne_nil _ _, by simp [lookup], name, List.mem_cons_self, here⟩
    · by_cases within : WithoutBackslash entries
      · obtain ⟨path, nonempty, there, backslash⟩ := ih wellFormed fun clean =>
          dirty ⟨here, within, clean⟩
        have apart := later distinct nonempty there
        have different : path ≠ [name] := by
          rintro rfl
          exact apart rfl
        exact ⟨path, nonempty, by rwa [lookup, if_neg different, if_neg apart], backslash⟩
      · obtain ⟨path, nonempty, there, other, member, backslash⟩ := ihEntries inside within
        refine ⟨name :: path, List.cons_ne_nil _ _, ?_, other, List.mem_cons_of_mem _ member, backslash⟩
        rw [lookup, if_neg (by simp [nonempty]), List.head?_cons, if_pos rfl, List.tail_cons]
        exact there

theorem withoutBackslash_of_roundTrip (lossless : zip.Lossless) (wellFormed : WellFormed tree)
    (vacant : Vacant disk output) (returns : RoundTrip zip tree output disk) :
    WithoutBackslash tree := by
  obtain ⟨archive, _, packed, unpacked, below, _⟩ := returns
  by_contra dirty
  obtain ⟨path, nonempty, there, name, member, backslash⟩ := exists_backslash wellFormed dirty
  obtain ⟨_, _, packed⟩ := ok_of_bind packed
  obtain ⟨members, added, finished⟩ := ok_of_bind packed
  unfold unzipTo at unpacked
  split at unpacked
  · cases unpacked
  · rename_i entries read
    have clean : ∀ entry ∈ entries, '\\' ∉ entry.name.toList := by
      intro entry among
      obtain ⟨packed, here, rfl⟩ := List.mem_map.mp
        (lossless.stored members archive entries finished read entry among)
      exact clean_addDirToZip added packed here
    rw [← below path nonempty] at there
    rcases reachable_of_foldlM clean unpacked there with before | reachable
    · rw [vacant.empty path nonempty] at before
      cases before
    · exact reachable.clean name member backslash

theorem roundTrip_of_withoutBackslash (lossless : zip.Lossless) (wellFormed : WellFormed tree)
    (vacant : Vacant disk output) (clean : WithoutBackslash tree) :
    RoundTrip zip tree output disk := by
  have unused : Unused disk (output ++ []) tree := by
    intro name _ path
    rw [List.append_nil]
    exact vacant.empty (name :: path) (List.cons_ne_nil _ _)
  have free : disk.Open (output ++ []) := by
    rw [List.append_nil]
    exact vacant.open_output
  obtain ⟨members, after, added, unpacked, grafted⟩ :=
    grafted_of_addDirToZip wellFormed clean (fun _ member => absurd member List.not_mem_nil) free unused
  rw [List.append_nil] at grafted
  obtain ⟨archive, finished, read⟩ := lossless.distinct members (nodup_names wellFormed clean added)
  refine ⟨archive, after, ?_, ?_, ?_, grafted.elsewhere⟩
  · rw [zipDirectory, added]
    exact finished
  · rw [unzipTo, read]
    exact unpacked
  · intro path nonempty
    rw [grafted.below path nonempty, vacant.empty path nonempty, Option.or_none]

/-- A tree comes back as it was packed exactly when no name in it holds a backslash. -/
theorem roundTrip_iff (lossless : zip.Lossless) (wellFormed : WellFormed tree)
    (vacant : Vacant disk output) :
    RoundTrip zip tree output disk ↔ WithoutBackslash tree :=
  ⟨withoutBackslash_of_roundTrip lossless wellFormed vacant,
    roundTrip_of_withoutBackslash lossless wellFormed vacant⟩

deriving instance Countable for ArchiveEntry

open Classical in
/-- A second member of one name is refused; otherwise the bytes stand for the list of what is
stored. -/
noncomputable def sampleZip : ZipLibrary :=
  { finish := fun members =>
      if (members.map fun member => (stored member).name).Nodup then
        .ok (tally (List ArchiveEntry) 0 (members.map stored))
      else .error "invalid Zip archive: Duplicate filename"
    read := fun archive =>
      if found : ∃ entries, tally (List ArchiveEntry) 0 entries = archive then .ok found.choose
      else .error "invalid Zip archive: Could not find EOCD" }

theorem read_tally (entries : List ArchiveEntry) :
    sampleZip.read (tally (List ArchiveEntry) 0 entries) = .ok entries := by
  have found : ∃ others, tally (List ArchiveEntry) (0 : UInt8) others = tally
      (List ArchiveEntry) 0 entries := ⟨entries, rfl⟩
  simp only [sampleZip, dif_pos found]
  rw [tally_injective _ _ found.choose_spec]

theorem sampleZip_lossless : sampleZip.Lossless where
  distinct members distinct := ⟨_, if_pos distinct, read_tally _⟩
  stored members archive entries finished read entry member := by
    simp only [sampleZip] at finished
    split at finished
    · cases finished
      rw [read_tally] at read
      cases read
      exact member
    · cases finished

def emptyDisk : Disk String := fun place => if place = [] then some .directory else none

theorem vacant_emptyDisk (output : List String) : Vacant emptyDisk output where
  open_output := by
    refine ⟨if_pos rfl, fun place _ => ?_⟩
    by_cases root : place = [] <;> simp [emptyDisk, root]
  empty path nonempty := by simp [emptyDisk, nonempty]

def notes : Listing :=
  .directory "notes" (.file "a b.txt" [1, 2] (.ok ()) .nil) (.ok ()) (.directory "empty" .nil (.ok ()) .nil)

def backslashed : Listing := .file "a\\b" [1] (.ok ()) .nil

theorem roundTrip_notes :
    sampleZip.Lossless ∧ RoundTrip sampleZip notes ["home", "received"] emptyDisk := by
  have wellFormed : WellFormed notes := by
    refine ⟨?_, by decide, rfl, ⟨?_, by decide, rfl, trivial⟩, ?_, by decide, rfl, trivial, trivial⟩ <;>
      exact ⟨by decide, by decide, by decide, by decide⟩
  have clean : WithoutBackslash notes := ⟨by decide, ⟨by decide, trivial⟩, by decide, trivial, trivial⟩
  exact ⟨sampleZip_lossless,
    (roundTrip_iff sampleZip_lossless wellFormed (vacant_emptyDisk _)).mpr clean⟩

/-- The file becomes a file in a directory of its own. -/
theorem not_roundTrip_backslashed :
    (∃ archive after, zipDirectory sampleZip.finish (.ok ()) backslashed = .ok archive ∧
      unzipTo sampleZip archive ["received"] emptyDisk = some after ∧
      after ["received", "a", "b"] = some (.file [1]) ∧
      after ["received", "a\\b"] = none) ∧
    ¬ RoundTrip sampleZip backslashed ["received"] emptyDisk := by
  constructor
  · have single : [stored { name := memberName ["a\\b"], content := some [1] }] =
        [{ name := "a/b", content := [1] }] := by decide
    have extracted : (extractEntry ["received"] emptyDisk { name := "a/b", content := [1] }).map
        (fun after => (after ["received", "a", "b"], after ["received", "a\\b"])) =
        some (some (.file [1]), none) := by decide
    obtain ⟨after, unpacked, places⟩ := Option.map_eq_some_iff.mp extracted
    refine ⟨tally (List ArchiveEntry) 0 [{ name := "a/b", content := [1] }], after, ?_, ?_,
      congrArg Prod.fst places,
      congrArg Prod.snd places⟩
    · have added : addDirToZip [] backslashed = .ok
          [{ name := memberName ["a\\b"], content := some [1] }] := rfl
      have finished : sampleZip.finish [{ name := memberName ["a\\b"], content := some [1] }] =
          .ok (tally (List ArchiveEntry) 0
            [stored { name := memberName ["a\\b"], content := some [1] }]) := by
        simp [sampleZip]
      rw [zipDirectory, added, ← single]
      exact finished
    · rw [unzipTo, read_tally]
      simp only [List.foldlM_cons, List.foldlM_nil, unpacked, Option.bind_eq_bind, Option.bind_some]
      rfl
  · intro returns
    have wellFormed : WellFormed backslashed :=
      ⟨⟨by decide, by decide, by decide, by decide⟩, by decide, rfl, trivial⟩
    have clean := withoutBackslash_of_roundTrip sampleZip_lossless wellFormed
      (vacant_emptyDisk _) returns
    exact absurd clean.1 (by decide)

end DistributedOs.Http.Archive
