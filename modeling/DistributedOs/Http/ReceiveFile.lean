import DistributedOs.Semantics.Execution
import DistributedOs.Http.Requests

/-! The dashboard's `handle_receive_file` tasks for the requests of one parallel upload. They
share the destination file, and one step is what a task does between two waits. A write is
handed to a thread of the file, which the next operation on the file waits for but the answer
does not. The progress reports and the list of received files are left out. -/

namespace DistributedOs.Http

open Semantics Reliable

/-- `File::set_len`: cut, or extended with zeros. -/
def setLen (size : Nat) (content : Bytes) : Bytes :=
  content.take size ++ List.replicate (size - content.length) 0

/-- A write at a position; a gap before it reads as zeros. -/
def writeAt (content : Bytes) (position : Nat) (bytes : Bytes) : Bytes :=
  setLen position content ++ bytes ++ content.drop (position + bytes.length)

/-- A path by its components, without links. -/
abbrev Path := List String

def joinComponent (path : Path) (component : String) : Path :=
  if component = "" ∨ component = "." then path
  else if component = ".." then path.dropLast
  else path ++ [component]

/-- `Path::join`, as the system resolves the result. -/
def joinPath (base : Path) (name : String) : Path :=
  ((name.toList.splitOn '/').map String.ofList).foldl joinComponent
    (if name.toList.head? = some '/' then [] else base)

def isZip (name : String) : Bool := ".zip".toList.isSuffixOf name.toList

/-- `trim_end_matches(".zip")` on the reversed name. -/
def trimZip : List Char → List Char
  | 'p' :: 'i' :: 'z' :: '.' :: rest => trimZip rest
  | other => other

def extractionDir (downloads : Path) (name : String) : Path :=
  joinPath downloads (String.ofList (trimZip name.toList.reverse).reverse)

inductive ReceiveStage where
  | opening
  | sizing
  | seeking
  | receiving
  | extracting (entries : List String)
  | answered
  deriving DecidableEq

/-- `received` counts the bytes read; `inFlight` is the write the thread has not done yet. -/
structure ReceiveTask where
  request : UploadRequest
  stage : ReceiveStage
  received : Nat
  inFlight : Option (Nat × Bytes)
  deriving DecidableEq

inductive ReceiveChoice where
  | advance
  | receive (count : Nat)
  | complete
  | extract (written : Bytes)
  | abandon

/-- The zip library: the names of the entries of an archive, none if it is not one, and what
copying an entry out of it yields, with whether that ended well. -/
structure ZipLibrary where
  entries : Bytes → List String
  copy : Bytes → Nat → Bytes × Bool

def ReceiveTask.start (request : UploadRequest) : ReceiveTask :=
  { request, stage := .opening, received := 0, inFlight := none }

/-- A task goes on to its next program point. -/
def ReceiveTask.advance (zip : ZipLibrary) (destination : Option Bytes) (task : ReceiveTask) :
    Option (Option Bytes × ReceiveTask) :=
  match task.stage with
  | .opening =>
    if task.request.content.isEmpty then some (destination, { task with stage := .answered })
    else some (some (destination.getD []), { task with stage := .sizing })
  | .sizing =>
    match task.request.start, task.request.totalSize with
    | 0, some size => some (destination.map (setLen size), { task with stage := .seeking })
    | _, _ => some (destination, { task with stage := .seeking })
  | .seeking => some (destination, { task with stage := .receiving })
  | .receiving =>
    if task.received = task.request.content.length then
      let entries := if isZip task.request.filename then zip.entries (destination.getD []) else []
      some (destination, { task with stage := .extracting entries })
    else none
  | .extracting [] => some (destination, { task with stage := .answered })
  | .extracting (_ :: _) => none
  | .answered => none

/-- Where the request's file goes. -/
def UploadRequest.path (downloads : Path) (request : UploadRequest) : Path :=
  downloads ++ [request.filename]

/-- `ZipFile::is_dir`. -/
def isDirEntry (entry : String) : Bool :=
  entry.toList.getLast? = some '/' || entry.toList.getLast? = some '\\'

/-- The entry is written over the file it comes from. -/
def overwrites (downloads : Path) (request : UploadRequest) (entry : String) : Bool :=
  joinPath (extractionDir downloads request.filename) entry = request.path downloads && !isDirEntry entry

def ReceiveTask.turn (zip : ZipLibrary) (downloads : Path) (destination : Option Bytes)
    (task : ReceiveTask) :
    ReceiveChoice → Option (Option Bytes × ReceiveTask)
  | .advance => task.advance zip destination
  | .receive count =>
    if task.stage = .receiving ∧ task.inFlight = none ∧ 0 < count ∧ count ≤ 65536 ∧
        task.received + count ≤ task.request.content.length then
      some (destination, { task with
        received := task.received + count
        inFlight := some (task.request.start + task.received,
          (task.request.content.drop task.received).take count) })
    else none
  | .complete =>
    task.inFlight.map fun (position, bytes) =>
      (destination.map fun content => writeAt content position bytes, { task with inFlight := none })
  | .extract written =>
    match task.stage with
    | .extracting (entry :: entries) =>
      some (if overwrites downloads task.request entry then some written else destination,
        { task with stage := .extracting entries })
    | _ => none
  | .abandon =>
    match task.stage with
    | .extracting (_ :: _) => some (destination, { task with stage := .extracting [] })
    | _ => none

structure Receiving where
  destination : Option Bytes
  tasks : List ReceiveTask

def Receiving.start (destination : Option Bytes) (requests : List UploadRequest) : Receiving :=
  { destination, tasks := requests.map .start }

def Receiving.step (zip : ZipLibrary) (downloads : Path) (state : Receiving)
    (label : Nat × ReceiveChoice) :
    Option Receiving :=
  state.tasks[label.1]?.bind fun task =>
    (task.turn zip downloads state.destination label.2).map fun (destination, next) =>
      { destination, tasks := state.tasks.set label.1 next }

def Receiving.answered (state : Receiving) : Bool := state.tasks.all (·.stage = .answered)

/-- The step neither extracts an entry over the destination nor answers before the last write is
done. -/
def Receiving.undisturbed (downloads : Path) (state : Receiving)
    (label : Nat × ReceiveChoice) : Bool :=
  match state.tasks[label.1]?, label.2 with
  | some task, .advance => task.stage ≠ .extracting [] || task.inFlight.isNone
  | some task, .extract _ =>
    match task.stage with
    | .extracting (entry :: _) => !overwrites downloads task.request entry
    | _ => true
  | _, _ => true

variable {zip : ZipLibrary} {downloads : Path} {state after : Receiving} {file content : Bytes}
variable {task next : ReceiveTask} {choice : ReceiveChoice} {size position start : Nat}
  {bytes : Bytes}

theorem length_setLen : (setLen size content).length = size := by
  simp only [setLen, List.length_append, List.length_take, List.length_replicate]
  omega

theorem getElem?_setLen (here : position < size) (stored : position < content.length) :
    (setLen size content)[position]? = content[position]? := by
  rw [setLen, List.getElem?_append_left (by simp; omega), List.getElem?_take_of_lt here]

theorem length_writeAt : (writeAt content start bytes).length = max content.length
      (start + bytes.length) := by
  simp only [writeAt, List.length_append, length_setLen, List.length_drop]
  omega

theorem getElem?_writeAt_written (after : start ≤ position)
    (before : position < start + bytes.length) :
    (writeAt content start bytes)[position]? = bytes[position - start]? := by
  rw [writeAt, List.append_assoc,
    List.getElem?_append_right (by rw [length_setLen]; exact after), length_setLen,
    List.getElem?_append_left (by omega)]

theorem getElem?_writeAt_kept (stored : position < content.length)
    (outside : position < start ∨ start + bytes.length ≤ position) :
    (writeAt content start bytes)[position]? = content[position]? := by
  rw [writeAt]
  rcases outside with before | _
  · rw [List.append_assoc, List.getElem?_append_left (by rw [length_setLen]; exact before),
      getElem?_setLen before stored]
  · rw [List.getElem?_append_right (by simp only [List.length_append, length_setLen]; omega),
      List.length_append, length_setLen, List.getElem?_drop]
    congr 1
    omega

/-- What a step of another task leaves as it is: right bytes, the right length, the file itself. -/
structure Preserves (file : Bytes) (destination after : Option Bytes) : Prop where
  bytes : ∀ position, position < file.length →
    (destination.getD [])[position]? = file[position]? → (after.getD [])[position]? = file[position]?
  size : (destination.getD []).length = file.length → (after.getD []).length = file.length
  present : destination.isSome = true → after.isSome = true

theorem Preserves.refl (file : Bytes) (destination : Option Bytes) :
    Preserves file destination destination where
  bytes _ _ right := right
  size same := same
  present here := here

theorem preserves_open (file : Bytes) (destination : Option Bytes) :
    Preserves file destination (some (destination.getD [])) where
  bytes _ _ right := right
  size same := same
  present _ := rfl

theorem preserves_setLen (file : Bytes) (destination : Option Bytes) :
    Preserves file destination (destination.map (setLen file.length)) where
  bytes position before right := by
    cases destination with
    | none => exact right
    | some content =>
      have stored : position < content.length := by
        by_contra beyond
        rw [Option.getD_some, List.getElem?_eq_none (by omega), eq_comm,
          List.getElem?_eq_none_iff] at right
        omega
      exact (getElem?_setLen before stored).trans right
  size same := by
    cases destination with
    | none => exact same
    | some => exact length_setLen
  present here := by
    rw [Option.isSome_map]
    exact here

/-- A slice of the file written at its own place. -/
structure FileSlice (file : Bytes) (position : Nat) (bytes : Bytes) : Prop where
  within : position + bytes.length ≤ file.length
  same : bytes = (file.drop position).take bytes.length

theorem FileSlice.getElem? (slice : FileSlice file start bytes) (after : start ≤ position)
    (before : position < start + bytes.length) : bytes[position - start]? = file[position]? := by
  rw [slice.same, List.getElem?_take_of_lt (by omega), List.getElem?_drop]
  congr 1
  omega

theorem preserves_write (slice : FileSlice file start bytes) (content : Bytes) :
    Preserves file (some content) (some (writeAt content start bytes)) where
  bytes position before right := by
    simp only [Option.getD_some] at right ⊢
    by_cases inside : start ≤ position ∧ position < start + bytes.length
    · rw [getElem?_writeAt_written inside.1 inside.2]
      exact slice.getElem? inside.1 inside.2
    · have stored : position < content.length := by
        by_contra beyond
        rw [List.getElem?_eq_none (by omega), eq_comm, List.getElem?_eq_none_iff] at right
        omega
      rw [getElem?_writeAt_kept stored (by omega)]
      exact right
  size same := by
    simp only [Option.getD_some] at same ⊢
    have within := slice.within
    rw [length_writeAt]
    omega
  present _ := rfl

def ReceiveStage.opened : ReceiveStage → Bool
  | .opening => false
  | _ => true

def ReceiveStage.sized : ReceiveStage → Bool
  | .opening => false
  | .sizing => false
  | _ => true

def ReceiveStage.finished : ReceiveStage → Bool
  | .extracting _ => true
  | .answered => true
  | _ => false

/-- Up to where the task's writes are done. -/
def ReceiveTask.stored (task : ReceiveTask) : Nat :=
  match task.inFlight with
  | some (position, _) => position
  | none => task.request.start + task.received

/-- What holds of a task: its bytes that are stored are those of the file, the write in
flight is a slice that ends where it has read to, and the first task has set the length. -/
structure ReceiveTask.Sound (file : Bytes) (destination : Option Bytes)
    (task : ReceiveTask) : Prop where
  carries : task.request.Carries file
  within : task.received ≤ task.request.content.length
  flying : ∀ position bytes, task.inFlight = some (position, bytes) →
    FileSlice file position bytes ∧ position + bytes.length = task.request.start + task.received ∧
      destination.isSome = true
  stored : ∀ position, task.request.start ≤ position → position < task.stored →
    (destination.getD [])[position]? = file[position]?
  opened : task.stage.opened = true → destination.isSome = true
  sized : task.request.start = 0 → task.stage.sized = true → (destination.getD []).length = file.length
  finished : task.stage.finished = true → task.received = task.request.content.length
  answered : task.stage = .answered → task.inFlight = none

variable {destination later : Option Bytes}

theorem ReceiveTask.Sound.stored_le (sound : task.Sound file destination) :
    task.stored ≤ file.length := by
  have carried := sound.carries.within
  have within := sound.within
  unfold ReceiveTask.stored
  split
  · rename_i position bytes flying
    obtain ⟨-, _, -⟩ := sound.flying position bytes flying
    omega
  · omega

theorem ReceiveTask.Sound.kept (sound : task.Sound file destination)
    (preserves : Preserves file destination later) :
    task.Sound file later :=
  { sound with
    flying := fun position bytes flying => by
      obtain ⟨slice, ends, present⟩ := sound.flying position bytes flying
      exact ⟨slice, ends, preserves.present present⟩
    stored := fun position after before =>
      preserves.bytes position (by have top := sound.stored_le; omega)
        (sound.stored position after before)
    opened := fun opened => preserves.present (sound.opened opened)
    sized := fun first sized => preserves.size (sound.sized first sized) }

/-- What a turn of a task establishes, for itself and for the others. -/
structure TurnSound (file : Bytes) (destination later : Option Bytes)
    (task next : ReceiveTask) : Prop where
  request : next.request = task.request
  sound : next.Sound file later
  preserves : Preserves file destination later

theorem ReceiveTask.Sound.advance (sound : task.Sound file destination)
    (ready : task.stage ≠ .extracting [] ∨ task.inFlight = none)
    (turned : task.advance zip destination = some (later, next)) :
    TurnSound file destination later task next := by
  unfold ReceiveTask.advance at turned
  split at turned
  · rename_i opening
    split at turned
    · rename_i empty
      have nonempty := sound.carries.nonempty
      rw [List.isEmpty_iff.mp empty] at nonempty
      cases nonempty
    · cases turned
      refine ⟨rfl, ?_, preserves_open file destination⟩
      have kept := sound.kept (preserves_open file destination)
      exact { kept with
        opened := fun _ => rfl
        sized := fun _ sized => by cases sized
        finished := fun finished => by cases finished
        answered := fun answered => by cases answered }
  · rename_i sizing
    have present := sound.opened (by rw [sizing]; rfl)
    split at turned
    · rename_i size first announced
      cases turned
      have same : size = file.length := by
        rw [sound.carries.total] at announced
        exact (Option.some.inj announced).symm
      subst same
      refine ⟨rfl, ?_, preserves_setLen file destination⟩
      have kept := sound.kept (preserves_setLen file destination)
      exact { kept with
        opened := fun _ => kept.opened (by rw [sizing]; rfl)
        sized := fun _ _ => by
          obtain ⟨_, rfl⟩ := Option.isSome_iff_exists.mp present
          exact length_setLen
        finished := fun finished => by cases finished
        answered := fun answered => by cases answered }
    · rename_i later
      cases turned
      refine ⟨rfl, ?_, .refl file destination⟩
      exact { sound with
        opened := fun _ => present
        sized := fun first _ => absurd sound.carries.total (fun total => later file.length first total)
        finished := fun finished => by cases finished
        answered := fun answered => by cases answered }
  · rename_i seeking
    cases turned
    refine ⟨rfl, ?_, .refl file destination⟩
    exact { sound with
      opened := fun _ => sound.opened (by rw [seeking]; rfl)
      sized := fun first _ => sound.sized first (by rw [seeking]; rfl)
      finished := fun finished => by cases finished
      answered := fun answered => by cases answered }
  · rename_i receiving
    split at turned
    · rename_i whole
      cases turned
      refine ⟨rfl, ?_, .refl file destination⟩
      exact { sound with
        opened := fun _ => sound.opened (by rw [receiving]; rfl)
        sized := fun first _ => sound.sized first (by rw [receiving]; rfl)
        finished := fun _ => whole
        answered := fun answered => by cases answered }
    · cases turned
  · rename_i extracted
    cases turned
    refine ⟨rfl, ?_, .refl file destination⟩
    exact { sound with
      opened := fun _ => sound.opened (by rw [extracted]; rfl)
      sized := fun first _ => sound.sized first (by rw [extracted]; rfl)
      finished := fun _ => sound.finished (by rw [extracted]; rfl)
      answered := fun _ => ready.resolve_left (fun other => other extracted) }
  · cases turned
  · cases turned

/-- A read hands the next bytes of the part over for writing. -/
theorem ReceiveTask.Sound.receive (sound : task.Sound file destination)
    (receiving : task.stage = .receiving) (idle : task.inFlight = none)
    (fits : task.received + count ≤ task.request.content.length) :
    ({ task with
        received := task.received + count
        inFlight := some (task.request.start + task.received,
          (task.request.content.drop task.received).take count) } : ReceiveTask).Sound file
            destination := by
  have carried := sound.carries
  have length : ((task.request.content.drop task.received).take count).length = count := by
    rw [List.length_take, List.length_drop]
    omega
  refine { sound with within := fits, flying := ?_, stored := ?_, finished := ?_, answered := ?_ }
  · rintro position _ same
    cases same
    have top := carried.within
    refine ⟨⟨by rw [length]; omega, ?_⟩, by rw [length, Nat.add_assoc], sound.opened (by rw [receiving]; rfl)⟩
    rw [length]
    conv_lhs => rw [carried.content]
    rw [List.drop_take, List.take_take, List.drop_drop]
    congr 1
    omega
  · intro position after before
    refine sound.stored position after ?_
    rw [ReceiveTask.stored, idle]
    exact before
  · intro finished
    rw [receiving] at finished
    cases finished
  · intro answered
    rw [receiving] at answered
    cases answered

theorem ReceiveTask.Sound.complete (sound : task.Sound file destination)
    (flying : task.inFlight = some (start, bytes)) (present : destination = some content) :
    ({ task with inFlight := none } : ReceiveTask).Sound file
      (some (writeAt content start bytes)) := by
  subst present
  obtain ⟨slice, ends, -⟩ := sound.flying start bytes flying
  have kept := sound.kept (preserves_write slice content)
  refine { kept with flying := ?_, stored := ?_, answered := fun _ => rfl }
  · intro position bytes none
    cases none
  · intro position after before
    by_cases earlier : position < start
    · refine kept.stored position after ?_
      rw [ReceiveTask.stored, flying]
      exact earlier
    · have upper : position < start + bytes.length := by
        rw [ends]
        exact before
      rw [Option.getD_some, getElem?_writeAt_written (by omega) upper]
      exact slice.getElem? (by omega) upper

theorem ReceiveTask.Sound.extracted (sound : task.Sound file destination)
    (extracting : task.stage.finished = true) :
    ({ task with stage := .extracting entries } : ReceiveTask).Sound file destination := by
  have reached : task.stage.opened = true ∧ task.stage.sized = true := by
    cases stage : task.stage with
    | extracting => exact ⟨rfl, rfl⟩
    | answered => exact ⟨rfl, rfl⟩
    | _ =>
      rw [stage] at extracting
      cases extracting
  exact { sound with
    opened := fun _ => sound.opened reached.1
    sized := fun first _ => sound.sized first reached.2
    finished := fun _ => sound.finished extracting
    answered := fun answered => by cases answered }

/-- The step lemma of one task: an undisturbed turn keeps it sound, and the rest of the file right. -/
theorem ReceiveTask.Sound.turn (sound : task.Sound file destination)
    (found : state.tasks[index]? = some task)
    (calm : state.undisturbed downloads (index, choice) = true)
    (turned : task.turn zip downloads destination choice = some (later, next)) :
    TurnSound file destination later task next := by
  simp only [Receiving.undisturbed, found] at calm
  cases choice with
  | advance =>
    refine sound.advance ?_ turned
    simpa using calm
  | receive =>
    simp only [ReceiveTask.turn] at turned
    split at turned
    · rename_i allowed
      cases turned
      obtain ⟨receiving, idle, -, -, fits⟩ := allowed
      exact ⟨rfl, sound.receive receiving idle fits, .refl file destination⟩
    · cases turned
  | complete =>
    obtain ⟨⟨position, bytes⟩, flying, done⟩ := Option.map_eq_some_iff.mp turned
    cases done
    obtain ⟨slice, -, present⟩ := sound.flying position bytes flying
    obtain ⟨content, rfl⟩ := Option.isSome_iff_exists.mp present
    exact ⟨rfl, sound.complete flying rfl, preserves_write slice content⟩
  | extract =>
    simp only [ReceiveTask.turn] at turned
    split at turned
    · rename_i entry entries extracting
      cases turned
      simp only [extracting, Bool.not_eq_true'] at calm
      rw [if_neg (by rw [calm]; simp)]
      exact ⟨rfl, sound.extracted (by rw [extracting]; rfl), .refl file destination⟩
    · cases turned
  | abandon =>
    simp only [ReceiveTask.turn] at turned
    split at turned
    · rename_i extracting
      cases turned
      exact ⟨rfl, sound.extracted (by rw [extracting]; rfl), .refl file destination⟩
    · cases turned

/-- The tasks are those of the requests, and each is sound. -/
structure Receiving.Sound (file : Bytes) (requests : List UploadRequest)
    (state : Receiving) : Prop where
  requests : state.tasks.map ReceiveTask.request = requests
  tasks : ∀ task ∈ state.tasks, task.Sound file state.destination

variable {requests : List UploadRequest}

theorem sound_start (carry : ∀ request ∈ requests, request.Carries file)
    (destination : Option Bytes) :
    (Receiving.start destination requests).Sound file requests where
  requests := by
    rw [Receiving.start, List.map_map]
    exact List.map_id requests
  tasks task member := by
    obtain ⟨request, among, rfl⟩ := List.mem_map.mp member
    exact {
      carries := carry request among
      within := Nat.zero_le _
      flying := fun _ _ none => by cases none
      stored := fun position after before =>
        absurd after (by simpa [ReceiveTask.stored, ReceiveTask.start] using before)
      opened := fun opened => by cases opened
      sized := fun _ sized => by cases sized
      finished := fun finished => by cases finished
      answered := fun answered => by cases answered }

theorem map_request_set {tasks : List ReceiveTask} (found : tasks[index]? = some task)
    (same : next.request = task.request) :
    (tasks.set index next).map ReceiveTask.request = tasks.map ReceiveTask.request := by
  obtain ⟨within, rfl⟩ := List.getElem?_eq_some_iff.mp found
  have mapped : index < (tasks.map ReceiveTask.request).length := by simpa using within
  have own := List.set_getElem_self mapped
  rw [List.getElem_map] at own
  rw [List.map_set, same, own]

theorem Receiving.Sound.step {label : Nat × ReceiveChoice} (sound : state.Sound file requests)
    (calm : state.undisturbed downloads label = true)
    (taken : state.step zip downloads label = some after) :
    after.Sound file requests := by
  obtain ⟨_, _⟩ := label
  obtain ⟨task, found, rest⟩ := Option.bind_eq_some_iff.mp taken
  obtain ⟨⟨_, _⟩, turned, rfl⟩ := Option.map_eq_some_iff.mp rest
  have turn := (sound.tasks task (List.mem_of_getElem? found)).turn found calm turned
  refine ⟨(map_request_set found turn.request).trans sound.requests, ?_⟩
  intro other member
  rcases List.mem_or_eq_of_mem_set member with old | rfl
  · exact (sound.tasks other old).kept turn.preserves
  · exact turn.sound

/-- With every part stored and every write done, the destination is the file. -/
theorem Receiving.Sound.destination_eq (sound : state.Sound file requests)
    (tiled : Tiled file.length 0 (requests.map UploadRequest.range)) (nonempty : file ≠ [])
    (answered : state.answered = true) : state.destination = some file := by
  have positive : 0 < file.length := List.length_pos_iff.mpr nonempty
  have finished (task : ReceiveTask) (member : task ∈ state.tasks) : task.stage = .answered := by
    simpa using List.all_eq_true.mp answered task member
  have holder (range : Nat × Nat) (among : range ∈ requests.map UploadRequest.range) :
      ∃ task ∈ state.tasks, task.request.range = range := by
    rw [← sound.requests, List.map_map] at among
    exact List.mem_map.mp among
  obtain ⟨_, first⟩ := tiled.first positive
  obtain ⟨task, member, same⟩ := holder _ first
  have here := sound.tasks task member
  have done := finished task member
  obtain ⟨content, present⟩ := Option.isSome_iff_exists.mp (here.opened (by rw [done]; rfl))
  have size : content.length = file.length := by
    have sized := here.sized (congrArg Prod.fst same) (by rw [done]; rfl)
    rwa [present] at sized
  rw [present]
  congr 1
  apply List.ext_getElem?
  intro position
  by_cases inside : position < file.length
  · obtain ⟨range, among, lower, upper⟩ := tiled.covers (Nat.zero_le position) inside
    obtain ⟨owner, owning, rfl⟩ := holder range among
    have owned := sound.tasks owner owning
    have stored := owned.stored position lower
    rw [ReceiveTask.stored, owned.answered (finished owner owning),
      owned.finished (by rw [finished owner owning]; rfl), present] at stored
    exact stored upper
  · rw [List.getElem?_eq_none (by omega), List.getElem?_eq_none (by omega)]

/-- The ranges tile the file, and whatever the order of the steps and the previous content, once
every task has answered the destination is the file, in runs where no entry is extracted over
it and no task answers before its last write is done. -/
theorem parallel_upload_received {displayName : String} {numStreams : Nat}
    {labels : List (Nat × ReceiveChoice)} (nonempty : file ≠ [])
    (run : Execution (Receiving.step zip downloads)
      (fun state label => state.undisturbed downloads label = true)
      (Receiving.start destination (uploadParallel displayName file numStreams)) labels state) :
    Tiled file.length 0 ((uploadParallel displayName file numStreams).map UploadRequest.range) ∧
      (state.answered = true → state.destination = some file) := by
  have tiled := uploadParallel_tiled displayName file numStreams
  refine ⟨tiled, fun answered => ?_⟩
  have initially : (Receiving.start destination (uploadParallel displayName file numStreams)).Sound file
      (uploadParallel displayName file numStreams) :=
    sound_start (fun request member => uploadParallel_carries member) destination
  have sound := run.invariant (Receiving.Sound file (uploadParallel displayName file numStreams))
    (fun _ _ _ sound calm taken => sound.step calm taken) initially
  exact sound.destination_eq tiled nonempty answered

def noArchives : ZipLibrary := { entries := fun _ => [], copy := fun _ _ => ([], false) }

/-- Both parts of three bytes arrive over five old ones, the second part first. -/
def staleRun : List (Nat × ReceiveChoice) :=
  [(1, .advance), (1, .advance), (1, .advance), (1, .receive 1), (1, .complete), (0, .advance),
    (1, .receive 1),
    (0, .advance), (0, .advance), (1, .complete), (0, .receive 1), (1, .advance),
    (0, .complete), (0, .advance),
    (0, .advance), (1, .advance)]

theorem parallel_upload_received_stale : ∃ state : Receiving,
    Tiled 3 0 ((uploadParallel "a.bin" [1, 2, 3] 2).map UploadRequest.range) ∧
      state.answered = true ∧
      state.destination = some [1, 2, 3] := by
  obtain ⟨state, run, answered⟩ := exists_execution Receiving.answered
    (show (replayWhere (Receiving.step noArchives ["Downloads", "PDOS"])
      (Receiving.undisturbed ["Downloads", "PDOS"])
      (Receiving.start (some [9, 9, 9, 9, 9]) (uploadParallel "a.bin" [1, 2, 3] 2)) staleRun).any
        Receiving.answered = true from rfl)
  have received := parallel_upload_received (by decide) run
  exact ⟨state, received.1, answered, received.2 answered⟩

/-- A zip archive whose only entry is the empty file `../a.zip`. -/
def selfArchive : Bytes :=
  [80, 75, 3, 4, 20, 0, 0, 0, 0, 0, 0, 0, 33, 0, 0, 0, 0, 0, 0, 0, 0, 0, 0, 0, 0, 0, 8, 0, 0, 0,
    46, 46, 47, 97, 46, 122, 105, 112,
    80, 75, 1, 2, 20, 0, 20, 0, 0, 0, 0, 0, 0, 0, 33, 0, 0, 0, 0, 0, 0, 0, 0, 0, 0, 0, 0, 0, 8, 0, 0, 0,
    0, 0, 0, 0, 0, 0, 0, 0, 128, 1, 0, 0, 0, 0, 46, 46, 47, 97, 46, 122, 105, 112,
    80, 75, 5, 6, 0, 0, 0, 0, 1, 0, 1, 0, 54, 0, 0, 0, 38, 0, 0, 0, 0, 0]

def selfArchiveOnly : ZipLibrary :=
  { entries := fun content => if content = selfArchive then ["../a.zip"] else []
    copy := fun content _ => ([], content = selfArchive) }

def selfArchiveRun : List (Nat × ReceiveChoice) :=
  [(0, .advance), (0, .advance), (0, .advance), (0, .receive 114), (0, .complete), (0, .advance),
    (0, .extract []),
    (0, .advance)]

/-- The archive is extracted over itself: the only task answers and leaves an empty file. -/
theorem archive_overwritten : ∃ state : Receiving,
    Execution (Receiving.step selfArchiveOnly ["Downloads", "PDOS"]) anything
      (Receiving.start none (uploadParallel "a.zip" selfArchive 1)) selfArchiveRun state ∧
      state.answered = true ∧ state.destination ≠ some selfArchive := by
  obtain ⟨state, played, ended⟩ := (Option.any_eq_true _ _).mp
    (show (replay (Receiving.step selfArchiveOnly ["Downloads", "PDOS"])
      (Receiving.start none (uploadParallel "a.zip" selfArchive 1)) selfArchiveRun).any
        (fun state => state.answered && state.destination == some []) = true by decide +kernel)
  obtain ⟨answered, empty⟩ := Bool.and_eq_true_iff.mp ended
  refine ⟨state, execution_iff_replay.mpr played, answered, ?_⟩
  rw [eq_of_beq empty]
  decide

end DistributedOs.Http
