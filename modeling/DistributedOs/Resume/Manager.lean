import DistributedOs.Semantics.Execution
import Mathlib.Data.List.AList
import Mathlib.Data.Set.Function

/-! Persistent resume states, one JSON file for each file id. The name of the file is the
sanitised id, so the directory is a map of ids only as far as sanitising keeps them apart. -/

namespace DistributedOs.Resume

open Semantics

/-- `updated_at` is a clock nothing reads and is left out. -/
structure ResumeState where
  fileId : String
  sourcePath : String
  fileHash : String
  totalBytes : UInt64
  lastOffset : UInt64
  chunks : Option (List (UInt32 × Bool))
  transport : String
  completed : Bool
  deriving DecidableEq

def ResumeState.new (fileId sourcePath fileHash : String) (totalBytes : UInt64)
    (transport : String) : ResumeState :=
  { fileId, sourcePath, fileHash, totalBytes, lastOffset := 0, chunks := none, transport,
    completed := false }

/-- `char::is_alphanumeric`: some Unicode table, which is the usual one on ASCII. -/
structure Alphanumeric where
  isAlphanumeric : Char → Bool
  ascii : ∀ c : Char, c.val < 128 → isAlphanumeric c = c.isAlphanum

def Alphanumeric.asciiOnly : Alphanumeric :=
  { isAlphanumeric := Char.isAlphanum, ascii := fun _ _ => rfl }

/-- The directory: the files by name, each with what its text parses to. -/
structure ResumeManager where
  files : AList fun _ : String => Option ResumeState

variable (tables : Alphanumeric)

def sanitizeChar (c : Char) : Char :=
  if tables.isAlphanumeric c || c = '-' || c = '_' then c else '_'

def sanitizeId (id : String) : String := String.ofList (id.toList.map (sanitizeChar tables))

def statePath (fileId : String) : String := sanitizeId tables fileId ++ ".json"

/-- `.json` alone is a hidden file without an extension. -/
def hasJsonExtension (name : String) : Bool :=
  name ≠ ".json" && ".json".toList.isSuffixOf name.toList

namespace ResumeManager

def new : ResumeManager := { files := ∅ }

def load (manager : ResumeManager) (fileId : String) : Option ResumeState :=
  (manager.files.lookup (statePath tables fileId)).join

def save (manager : ResumeManager) (state : ResumeState) : ResumeManager :=
  { files := manager.files.insert (statePath tables state.fileId) (some state) }

/-- Load, change and save again, as `update_offset` and `mark_completed` do. -/
def amend (manager : ResumeManager) (fileId : String) (change : ResumeState → ResumeState) :
    ResumeManager :=
  match manager.load tables fileId with
  | some state => manager.save tables (change state)
  | none => manager

def updateOffset (manager : ResumeManager) (fileId : String) (offset : UInt64) : ResumeManager :=
  manager.amend tables fileId ({ · with lastOffset := offset })

def markCompleted (manager : ResumeManager) (fileId : String) : ResumeManager :=
  manager.amend tables fileId ({ · with completed := true })

def remove (manager : ResumeManager) (fileId : String) : ResumeManager :=
  { files := manager.files.erase (statePath tables fileId) }

def listIncomplete (manager : ResumeManager) : List ResumeState :=
  manager.files.entries.filterMap fun entry =>
    if hasJsonExtension entry.1 then entry.2.filter fun state => !state.completed else none

def canResume (manager : ResumeManager) (fileId fileHash : String) : Option UInt64 :=
  (manager.load tables fileId).bind fun state =>
    if state.completed then none
    else if state.fileHash ≠ fileHash then none
    else if state.totalBytes ≤ state.lastOffset then none
    else some state.lastOffset

end ResumeManager

inductive ResumeOp where
  | save (state : ResumeState)
  | updateOffset (fileId : String) (offset : UInt64)
  | markCompleted (fileId : String)
  | remove (fileId : String)

namespace ResumeOp

def fileId : ResumeOp → String
  | .save state => state.fileId
  | .updateOffset fileId _ => fileId
  | .markCompleted fileId => fileId
  | .remove fileId => fileId

def apply (manager : ResumeManager) : ResumeOp → ResumeManager
  | .save state => manager.save tables state
  | .updateOffset fileId offset => manager.updateOffset tables fileId offset
  | .markCompleted fileId => manager.markCompleted tables fileId
  | .remove fileId => manager.remove tables fileId

/-- What the operation means for the map from ids to the states last saved for them. -/
def specify (saved : String → Option ResumeState) : ResumeOp → String → Option ResumeState
  | .save state => Function.update saved state.fileId (some state)
  | .updateOffset fileId offset =>
    Function.update saved fileId ((saved fileId).map ({ · with lastOffset := offset }))
  | .markCompleted fileId =>
    Function.update saved fileId ((saved fileId).map ({ · with completed := true }))
  | .remove fileId => Function.update saved fileId none

end ResumeOp

def managed (ops : List ResumeOp) : ResumeManager := ops.foldl (ResumeOp.apply tables) .new

def lastSaved (ops : List ResumeOp) : String → Option ResumeState :=
  ops.foldl ResumeOp.specify fun _ => none

/-- On these ids the manager is a map: each load finds the state last saved under the id
and not removed since, which bears that id, no other id's operation touches it, and the
incomplete states of the map are listed, the empty id's apart (its file has no extension). -/
structure BehavesAsMap (ids : Set String) : Prop where
  loads : ∀ ops : List ResumeOp, (∀ op ∈ ops, op.fileId ∈ ids) → ∀ id ∈ ids,
    (managed tables ops).load tables id = lastSaved ops id
  bears : ∀ ops : List ResumeOp, (∀ op ∈ ops, op.fileId ∈ ids) → ∀ id ∈ ids, ∀ state,
    (managed tables ops).load tables id = some state → state.fileId = id
  frame : ∀ (ops : List ResumeOp) (op : ResumeOp), (∀ other ∈ ops, other.fileId ∈ ids) →
    op.fileId ∈ ids →
    ∀ id ∈ ids, id ≠ op.fileId →
    (managed tables (ops ++ [op])).load tables id = (managed tables ops).load tables id
  lists : ∀ ops : List ResumeOp, (∀ op ∈ ops, op.fileId ∈ ids) →
    ∀ state, state ∈ (managed tables ops).listIncomplete ↔
    lastSaved ops state.fileId = some state ∧ state.completed = false ∧ state.fileId ≠ ""

variable {tables} {manager : ResumeManager} {ids : Set String} {id : String} {state : ResumeState}
variable {saved : String → Option ResumeState}

theorem statePath_inj (same : statePath tables one = statePath tables two) :
    sanitizeId tables one = sanitizeId tables two := by
  have lists := congrArg String.toList same
  simp only [statePath, String.toList_append] at lists
  exact String.toList_inj.mp (List.append_cancel_right lists)

/-- The manager finds what is saved, under the ids themselves. -/
structure Mirrors (tables : Alphanumeric) (ids : Set String) (manager : ResumeManager)
    (saved : String → Option ResumeState) : Prop where
  loads : ∀ id ∈ ids, manager.load tables id = saved id
  bears : ∀ id state, saved id = some state → state.fileId = id
  known : ∀ id state, saved id = some state → id ∈ ids
  stored : ∀ name state, manager.files.lookup name = some (some state) →
    state.fileId ∈ ids ∧ name = statePath tables state.fileId

theorem mirrors_new : Mirrors tables ids .new fun _ => none where
  loads _ _ := rfl
  bears _ _ absent := by cases absent
  known _ _ absent := by cases absent
  stored _ _ absent := by cases absent

theorem load_save : (manager.save tables state).load tables id =
    if statePath tables id = statePath tables state.fileId then some state
      else manager.load tables id := by
  unfold ResumeManager.load ResumeManager.save
  by_cases same : statePath tables id = statePath tables state.fileId
  · rw [if_pos same, same, AList.lookup_insert]
    rfl
  · rw [if_neg same, AList.lookup_insert_ne same]

theorem load_remove : (manager.remove tables removed).load tables id =
    if statePath tables id = statePath tables removed then none else manager.load tables id := by
  unfold ResumeManager.load ResumeManager.remove
  by_cases same : statePath tables id = statePath tables removed
  · rw [if_pos same, same, AList.lookup_erase]
    rfl
  · rw [if_neg same, AList.lookup_erase_ne same]

theorem statePath_eq_iff (apart : Set.InjOn (sanitizeId tables) ids) (here : one ∈ ids)
    (there : two ∈ ids) : statePath tables one = statePath tables two ↔ one = two := by
  constructor
  · intro same
    exact apart here there (statePath_inj same)
  · rintro rfl
    rfl

theorem Mirrors.save (mirrors : Mirrors tables ids manager saved)
    (apart : Set.InjOn (sanitizeId tables) ids) (known : state.fileId ∈ ids) :
    Mirrors tables ids (manager.save tables state)
      (Function.update saved state.fileId (some state)) where
  loads id member := by
    rw [load_save]
    by_cases same : id = state.fileId
    · rw [same, if_pos rfl, Function.update_self]
    · rw [if_neg (mt (statePath_eq_iff apart member known).mp same), Function.update_of_ne same]
      exact mirrors.loads id member
  bears id found present := by
    by_cases same : id = state.fileId
    · rw [same, Function.update_self] at present
      cases present
      exact same.symm
    · rw [Function.update_of_ne same] at present
      exact mirrors.bears id found present
  known id found present := by
    by_cases same : id = state.fileId
    · rw [same]
      exact known
    · rw [Function.update_of_ne same] at present
      exact mirrors.known id found present
  stored name found present := by
    by_cases same : name = statePath tables state.fileId
    · rw [ResumeManager.save, same, AList.lookup_insert] at present
      cases present
      exact ⟨known, same⟩
    · rw [ResumeManager.save, AList.lookup_insert_ne same] at present
      exact mirrors.stored name found present

theorem Mirrors.amend (mirrors : Mirrors tables ids manager saved)
    (apart : Set.InjOn (sanitizeId tables) ids) (known : id ∈ ids)
    (sameId : ∀ state, (change state).fileId = state.fileId) :
    Mirrors tables ids (manager.amend tables id change)
      (Function.update saved id ((saved id).map change)) := by
  unfold ResumeManager.amend
  rw [mirrors.loads id known]
  rcases found : saved id with _ | state
  · rw [Option.map_none, ← found, Function.update_eq_self, found]
    exact mirrors
  · obtain rfl : state.fileId = id := mirrors.bears id state found
    have kept : (change state).fileId ∈ ids := by
      rw [sameId]
      exact known
    have amended := mirrors.save apart kept
    rw [sameId] at amended
    exact amended

theorem Mirrors.remove (mirrors : Mirrors tables ids manager saved)
    (apart : Set.InjOn (sanitizeId tables) ids)
    (known : id ∈ ids) :
    Mirrors tables ids (manager.remove tables id) (Function.update saved id none) where
  loads other member := by
    rw [load_remove]
    by_cases same : other = id
    · rw [same, if_pos rfl, Function.update_self]
    · rw [if_neg (mt (statePath_eq_iff apart member known).mp same), Function.update_of_ne same]
      exact mirrors.loads other member
  bears other found present := by
    by_cases same : other = id
    · rw [same, Function.update_self] at present
      cases present
    · rw [Function.update_of_ne same] at present
      exact mirrors.bears other found present
  known other found present := by
    by_cases same : other = id
    · rw [same]
      exact known
    · rw [Function.update_of_ne same] at present
      exact mirrors.known other found present
  stored name found present := by
    by_cases same : name = statePath tables id
    · rw [ResumeManager.remove, same, AList.lookup_erase] at present
      cases present
    · rw [ResumeManager.remove, AList.lookup_erase_ne same] at present
      exact mirrors.stored name found present

theorem Mirrors.apply (mirrors : Mirrors tables ids manager saved)
    (apart : Set.InjOn (sanitizeId tables) ids) (op : ResumeOp) (known : op.fileId ∈ ids) :
    Mirrors tables ids (op.apply tables manager) (op.specify saved) := by
  cases op with
  | save => exact mirrors.save apart known
  | updateOffset => exact mirrors.amend apart known fun _ => rfl
  | markCompleted => exact mirrors.amend apart known fun _ => rfl
  | remove => exact mirrors.remove apart known

theorem Mirrors.foldl (mirrors : Mirrors tables ids manager saved)
    (apart : Set.InjOn (sanitizeId tables) ids) (ops : List ResumeOp)
    (known : ∀ op ∈ ops, op.fileId ∈ ids) :
    Mirrors tables ids (ops.foldl (ResumeOp.apply tables) manager)
      (ops.foldl ResumeOp.specify saved) := by
  induction ops generalizing manager saved with
  | nil => exact mirrors
  | cons op _ ih =>
    exact ih (mirrors.apply apart op (known op List.mem_cons_self)) fun other member =>
      known other (List.mem_cons_of_mem op member)

theorem specify_other (op : ResumeOp) (other : id ≠ op.fileId) :
    op.specify saved id = saved id := by
  cases op <;> exact Function.update_of_ne other _ _

theorem statePath_toList :
    (statePath tables id).toList = id.toList.map (sanitizeChar tables) ++ ".json".toList := by
  rw [statePath, String.toList_append, sanitizeId, String.toList_ofList]

theorem hasJsonExtension_statePath : hasJsonExtension (statePath tables id) = true ↔ id ≠ "" := by
  have suffix : ".json".toList.isSuffixOf (statePath tables id).toList = true := by
    rw [List.isSuffixOf_iff_suffix, statePath_toList]
    exact List.suffix_append _ _
  have alone : statePath tables id = ".json" ↔ id = "" := by
    rw [← String.toList_inj, statePath_toList, ← String.toList_inj]
    constructor
    · intro same
      have short := congrArg List.length same
      simp only [List.length_append, List.length_map, Nat.add_eq_right] at short
      exact List.eq_nil_of_length_eq_zero short
    · intro empty
      rw [empty]
      rfl
  rw [hasJsonExtension, suffix, Bool.and_true, decide_eq_true_eq, ne_eq, ne_eq, alone]

theorem Mirrors.lists (mirrors : Mirrors tables ids manager saved) :
    state ∈ manager.listIncomplete ↔
    saved state.fileId = some state ∧ state.completed = false ∧ state.fileId ≠ "" := by
  rw [ResumeManager.listIncomplete, List.mem_filterMap]
  constructor
  · rintro ⟨⟨name, _⟩, present, listed⟩
    split at listed
    · rename_i extension
      obtain ⟨rfl, incomplete⟩ := Option.filter_eq_some_iff.mp listed
      have found : manager.files.lookup name = some (some state) := AList.mem_lookup_iff.mpr present
      obtain ⟨member, rfl⟩ := mirrors.stored name state found
      have loaded : manager.load tables state.fileId = some state := by
        rw [ResumeManager.load, found]
        rfl
      rw [mirrors.loads _ member] at loaded
      exact ⟨loaded, by simpa using incomplete, hasJsonExtension_statePath.mp extension⟩
    · cases listed
  · rintro ⟨present, incomplete, named⟩
    have loaded := mirrors.loads _ (mirrors.known _ _ present)
    rw [present, ResumeManager.load, Option.join_eq_some_iff] at loaded
    refine ⟨⟨statePath tables state.fileId, some state⟩, AList.mem_lookup_iff.mp loaded, ?_⟩
    rw [if_pos (hasJsonExtension_statePath.mpr named), Option.filter_some, incomplete]
    rfl

theorem BehavesAsMap.injOn (behaves : BehavesAsMap tables ids) :
    Set.InjOn (sanitizeId tables) ids := by
  intro one here two there same
  by_contra different
  let op : ResumeOp := .save (.new one "" "" 0 "")
  have found := behaves.loads [op] (by simpa [op, ResumeOp.fileId, ResumeState.new] using here) two there
  have shared : statePath tables two = statePath tables one := by rw [statePath, statePath, same]
  have loaded : (managed tables [op]).load tables two = some (.new one "" "" 0 "") := by
    show (ResumeManager.new.save tables _).load tables two = _
    rw [load_save, ResumeState.new, if_pos shared]
  have absent : lastSaved [op] two = none := by
    show op.specify (fun _ => none) two = none
    exact specify_other op (Ne.symm different)
  rw [loaded, absent] at found
  cases found

/-- The manager is a map on a set of ids exactly when no two of them sanitise alike. -/
theorem behavesAsMap_iff (ids : Set String) : BehavesAsMap tables ids ↔
      Set.InjOn (sanitizeId tables) ids := by
  constructor
  · exact BehavesAsMap.injOn
  · intro apart
    have mirrors (ops : List ResumeOp) (known : ∀ op ∈ ops, op.fileId ∈ ids) :
        Mirrors tables ids (managed tables ops) (lastSaved ops) := mirrors_new.foldl apart ops known
    refine ⟨fun ops known => (mirrors ops known).loads, fun ops known id member state loaded => ?_,
      fun ops op known also id member other => ?_, fun ops known state => (mirrors ops known).lists⟩
    · rw [(mirrors ops known).loads id member] at loaded
      exact (mirrors ops known).bears id state loaded
    · have both : ∀ next ∈ ops ++ [op], next.fileId ∈ ids := by
        intro next present
        rcases List.mem_append.mp present with old | new
        · exact known next old
        · rw [List.mem_singleton.mp new]
          exact also
      rw [(mirrors _ both).loads id member, (mirrors ops known).loads id member, lastSaved,
        List.foldl_append]
      exact specify_other op other

/-- A path separator and an underscore sanitise alike, whatever the Unicode table. -/
theorem path_not_map : ¬ ∃ tables : Alphanumeric, BehavesAsMap tables {"dir/a", "dir_a"} := by
  rintro ⟨tables, behaves⟩
  have separator : sanitizeChar tables '/' = '_' := by
    rw [sanitizeChar, tables.ascii '/' (by decide)]
    rfl
  have underscore : sanitizeChar tables '_' = '_' := by simp [sanitizeChar]
  have same : sanitizeId tables "dir/a" = sanitizeId tables "dir_a" := by
    simp [sanitizeId, separator, underscore]
  exact absurd (behaves.injOn (by simp) (by simp) same) (by decide)

end DistributedOs.Resume
