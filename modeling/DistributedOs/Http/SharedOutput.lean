import DistributedOs.Http.ReceiveFile
import DistributedOs.Semantics.TaskPool
import Mathlib.Logic.Function.Basic

/-! Calls of `stream_file_receive` for one output path. They share the name of the temporary file;
files are told apart by a number of their own, which a rename does not change. A write is handed to
a thread, which goes on with it also when the call has ended. -/

namespace DistributedOs.Http.SharedOutput

open Semantics

/-- The files that the two names stand for, and the contents of all files, unlinked ones too. -/
structure Files where
  part : Option Nat
  output : Option Nat
  contents : Nat → Bytes
  next : Nat

inductive Stage where
  | creating
  | receiving
  | verifying
  | removing (error : String)
  | renaming
  | returned (result : Except String (Nat × String))

def Stage.result : Stage → Option (Nat × String)
  | .returned (.ok result) => some result
  | _ => none

/-- `position` is where the thread writes next, `inFlight` what it has not written yet. -/
structure Receive where
  expectedSize : Nat
  expectedChecksum : Option String
  stage : Stage
  file : Option Nat
  position : Nat
  inFlight : Bytes
  received : Bytes
  committed : Option Nat

structure Arguments where
  expectedSize : Nat
  expectedChecksum : Option String

inductive Choice where
  | create
  | receive (bytes : Bytes)
  | write (count : Nat)
  | finish
  | verify
  | remove
  | rename
  | fail (error : String)

def Receive.start (arguments : Arguments) : Receive :=
  { expectedSize := arguments.expectedSize, expectedChecksum := arguments.expectedChecksum,
    stage := .creating, file := none
    position := 0, inFlight := [], received := [], committed := none }

section
variable (sha256 : Bytes → String)

/-- The checksum is compared first, then the size, unless that is zero. -/
def Receive.verdict (task : Receive) : Except String Unit :=
  if ∃ expected ∈ task.expectedChecksum, sha256 task.received ≠ expected then
    .error ("Checksum mismatch: expected " ++ task.expectedChecksum.getD "" ++ ", got " ++
      sha256 task.received ++
      ". Partial file deleted.")
  else if 0 < task.expectedSize ∧ task.received.length ≠ task.expectedSize then
    .error ("Size mismatch: expected " ++ toString task.expectedSize ++ " bytes, received " ++
      toString task.received.length ++ " bytes. Partial file deleted.")
  else .ok ()

def Receive.turn (files : Files) (task : Receive) : Choice → Option (Files × Receive)
  | .create =>
    match task.stage with
    | .creating =>
      match files.part with
      | some file =>
        -- the file is there: it is truncated
        some ({ files with contents := Function.update files.contents file [] },
          { task with stage := .receiving, file := some file })
      | none =>
        some ({ files with
          part := some files.next, contents := Function.update files.contents files.next []
          next := files.next + 1 },
          { task with stage := .receiving, file := some files.next })
    | _ => none
  | .receive bytes =>
    match task.stage with
    | .receiving =>
      if task.inFlight = [] ∧ bytes ≠ [] then
        some (files, { task with inFlight := bytes, received := task.received ++ bytes })
      else none
    | _ => none
  | .write count =>
    match task.file with
    | some file =>
      if 0 < count ∧ count ≤ task.inFlight.length then
        some ({ files with
            contents := Function.update files.contents file
              (writeAt (files.contents file) task.position (task.inFlight.take count)) },
          { task with position := task.position + count, inFlight := task.inFlight.drop count })
      else none
    | none => none
  | .finish =>
    match task.stage with
    | .receiving => if task.inFlight = [] then some (files, { task with stage := .verifying }) else none
    | _ => none
  | .verify =>
    match task.stage with
    | .verifying =>
      match task.verdict sha256 with
      | .error error => some (files, { task with stage := .removing error })
      | .ok () => some (files, { task with stage := .renaming })
    | _ => none
  | .remove =>
    match task.stage with
    | .removing error =>
      some ({ files with part := none }, { task with stage := .returned (.error error) })
    | _ => none
  | .rename =>
    match task.stage with
    | .renaming =>
      match files.part with
      | none =>
        some (files, { task with
          stage := .returned (.error "Failed to rename completed file: No such file or directory") })
      | some file =>
        some ({ files with part := none, output := some file },
          { task with
            stage := .returned (.ok (task.received.length, sha256 task.received))
            committed := some file })
    | _ => none
  | .fail error =>
    match task.stage with
    | .returned _ => none
    | _ => some (files, { task with stage := .returned (.error error) })

def receiving : Behaviour Files Receive Empty Arguments Choice where
  start := .start
  turn files _ task choice :=
    (task.turn sha256 files choice).map fun (files, task) =>
    { shared := files, task, spawned := [], effects := [] }

def idle (files : Files) : Pool Files Receive Empty := { shared := files, tasks := [], trace := [] }

/-- Each call that has returned `Ok` has put a file in place which holds what the call has received,
and which has the hash that the call has verified; and what stands at the output path is the file of
such a call. -/
structure Committed (pool : Pool Files Receive Empty) : Prop where
  own : ∀ task ∈ pool.tasks, ∀ size hash, task.stage = .returned (.ok (size, hash)) →
    ∃ file, task.committed = some file ∧ pool.shared.contents file = task.received ∧
      size = (pool.shared.contents file).length ∧ hash = sha256 (pool.shared.contents file) ∧
      (∀ expected ∈ task.expectedChecksum, hash = expected) ∧
      (0 < task.expectedSize → size = task.expectedSize)
  output : ∀ task ∈ pool.tasks, task.stage.result.isSome = true →
    ∃ last ∈ pool.tasks, last.stage.result.isSome = true ∧ pool.shared.output = last.committed

end

def Stage.running : Stage → Bool
  | .creating | .returned _ => false
  | _ => true

/-- The call has the temporary file open, or its thread has. -/
def Receive.Busy (task : Receive) : Prop := task.inFlight ≠ [] ∨ task.stage.running = true

instance (task : Receive) : Decidable task.Busy :=
  inferInstanceAs (Decidable (task.inFlight ≠ [] ∨ task.stage.running = true))

/-- The temporary file is created only while no other call uses it. -/
def exclusive (pool : Pool Files Receive Empty) : PoolLabel Arguments Choice → Prop
  | .run index .create =>
    ∀ (other : Nat) (task : Receive), pool.tasks[other]? = some task → other ≠ index → ¬ task.Busy
  | _ => True

/-- The received bytes are in the file up to the position, and the rest of them is in flight. -/
structure Writing (files : Files) (task : Receive) (file : Nat) : Prop where
  opened : task.file = some file
  part : files.part = some file
  content : files.contents file ++ task.inFlight = task.received
  position : task.position = (files.contents file).length
  uncommitted : task.committed = none

/-- The checks that let a call rename its file. -/
def Verified (sha256 : Bytes → String) (task : Receive) : Prop :=
  (∀ expected ∈ task.expectedChecksum, sha256 task.received = expected) ∧
    (0 < task.expectedSize → task.received.length = task.expectedSize)

theorem verdict_eq_ok_iff : task.verdict sha256 = .ok () ↔ Verified sha256 task := by
  unfold Receive.verdict Verified
  split
  · rename_i differs
    obtain ⟨expected, given, different⟩ := differs
    exact ⟨nofun, fun verified => absurd (verified.1 expected given) different⟩
  · rename_i same
    have equal : ∀ expected ∈ task.expectedChecksum, sha256 task.received = expected := by
      intro expected given
      by_contra different
      exact same ⟨expected, given, different⟩
    split
    · rename_i wrong
      exact ⟨nofun, fun verified => absurd (verified.2 wrong.1) wrong.2⟩
    · rename_i right
      refine ⟨fun _ => ⟨equal, fun positive => ?_⟩, fun _ => rfl⟩
      by_contra different
      exact right ⟨positive, different⟩

/-- What holds of a call at its program point. -/
def AtStage (sha256 : Bytes → String) (files : Files) (task : Receive) : Prop :=
  match task.stage with
  | .creating => task.inFlight = [] ∧ task.received = [] ∧ task.position = 0 ∧ task.committed = none
  | .receiving => ∃ file, Writing files task file
  | .verifying | .removing _ => task.inFlight = [] ∧ ∃ file, Writing files task file
  | .renaming => task.inFlight = [] ∧ Verified sha256 task ∧ ∃ file, Writing files task file
  | .returned (.error _) => task.committed = none
  | .returned (.ok (size, hash)) =>
    task.inFlight = [] ∧ task.committed.isSome = true ∧ Verified sha256 task ∧
      size = task.received.length ∧ hash = sha256 task.received

/-- A file that a call has put in place is no temporary file any more, and holds what the call has
received. -/
def Kept (files : Files) (task : Receive) : Prop :=
  ∀ file ∈ task.committed, files.part ≠ some file ∧ file < files.next ∧
  files.contents file = task.received

structure Sound (sha256 : Bytes → String) (pool : Pool Files Receive Empty) : Prop where
  stages : ∀ (index : Nat) (task : Receive), pool.tasks[index]? = some task →
    AtStage sha256 pool.shared task
  kept : ∀ (index : Nat) (task : Receive), pool.tasks[index]? = some task → Kept pool.shared task
  alone : ∀ (first second : Nat) (one two : Receive), pool.tasks[first]? = some one →
    pool.tasks[second]? = some two → one.Busy → two.Busy →
    first = second
  apart : ∀ (first second : Nat) (one two : Receive), pool.tasks[first]? = some one →
    pool.tasks[second]? = some two → one.inFlight ≠ [] →
    ∀ file ∈ two.committed, one.file ≠ some file
  fresh : ∀ file ∈ pool.shared.part, file < pool.shared.next

theorem own_of_sound (sound : Sound sha256 pool)
    (member : task ∈ pool.tasks) {hash : String}
    (returned : task.stage = .returned (.ok (size, hash))) :
    ∃ file, task.committed = some file ∧ pool.shared.contents file = task.received ∧
      size = (pool.shared.contents file).length ∧ hash = sha256 (pool.shared.contents file) ∧
      (∀ expected ∈ task.expectedChecksum, hash = expected) ∧
      (0 < task.expectedSize → size = task.expectedSize) := by
  obtain ⟨index, found⟩ := List.getElem?_of_mem member
  have stage := sound.stages index task found
  rw [AtStage, returned] at stage
  obtain ⟨_, committed, verified, counted, hashed⟩ := stage
  obtain ⟨file, named⟩ := Option.isSome_iff_exists.mp committed
  have content := (sound.kept index task found file named).2.2
  refine ⟨file, named, content, content ▸ counted, content ▸ hashed, ?_, ?_⟩
  · intro expected given
    rw [hashed, verified.1 expected given]
  · intro positive
    rw [counted, verified.2 positive]

section
variable {sha256 : Bytes → String} {files after : Files} {task next : Receive}
  {pool : Pool Files Receive Empty} {index : Nat}

theorem AtStage.of_idle (stage : AtStage sha256 files task) (idle : ¬ task.Busy)
    (after : Files) : AtStage sha256 after task := by
  unfold AtStage at stage ⊢
  unfold Receive.Busy at idle
  split at stage <;> rename_i here <;> simp only [here] at idle ⊢
  · exact stage
  all_goals first | exact absurd (Or.inr rfl) idle | exact stage

/-- One call has moved on; what the others rely on is given apart. -/
theorem Sound.moved (sound : Sound sha256 pool) (present : pool.tasks[index]? = some task)
    (stage : AtStage sha256 after next) (kept : Kept after next)
    (busy : next.Busy → task.Busy ∨ ∀ (other : Nat) (one : Receive), pool.tasks[other]? = some one →
      other ≠ index → ¬ one.Busy)
    (others : ∀ (other : Nat) (one : Receive), pool.tasks[other]? = some one → other ≠ index →
      AtStage sha256 after one ∧ Kept after one)
    (writes : next.inFlight ≠ [] → ∀ (other : Nat) (one : Receive), pool.tasks[other]? = some one →
      ∀ file ∈ one.committed, next.file ≠ some file)
    (unwritten : ∀ (other : Nat) (one : Receive), pool.tasks[other]? = some one → other ≠ index →
      one.inFlight ≠ [] →
      ∀ file ∈ next.committed, one.file ≠ some file)
    (sameCommit : next.inFlight ≠ [] → next.committed = task.committed)
    (fresh : ∀ file ∈ after.part, file < after.next) (trace : List Empty) :
    Sound sha256 { shared := after, tasks := pool.tasks.set index next ++ [], trace } := by
  have locate {other : Nat} {one : Receive}
    (found : (pool.tasks.set index next ++ [])[other]? = some one) :
      (other = index ∧ one = next) ∨ (other ≠ index ∧ pool.tasks[other]? = some one) := by
    rw [List.append_nil] at found
    exact Pool.getElem?_set_cases found
  refine { stages := ?_, kept := ?_, alone := ?_, apart := ?_, fresh }
  · intro other one found
    rcases locate found with ⟨_, rfl⟩ | ⟨different, old⟩
    · exact stage
    · exact (others other one old different).1
  · intro other one found
    rcases locate found with ⟨_, rfl⟩ | ⟨different, old⟩
    · exact kept
    · exact (others other one old different).2
  · intro first second one two foundFirst foundSecond busyFirst busySecond
    rcases locate foundFirst with ⟨rfl, rfl⟩ | ⟨different, old⟩ <;>
      rcases locate foundSecond with ⟨rfl, rfl⟩ | ⟨apart, former⟩
    · rfl
    · rcases busy busyFirst with before | idle
      · exact sound.alone _ _ _ _ present former before busySecond
      · exact absurd busySecond (idle _ _ former apart)
    · rcases busy busySecond with before | idle
      · exact sound.alone _ _ _ _ old present busyFirst before
      · exact absurd busyFirst (idle _ _ old different)
    · exact sound.alone _ _ _ _ old former busyFirst busySecond
  · intro _ _ _ _ foundFirst foundSecond inFlight file committed
    rcases locate foundFirst with ⟨rfl, rfl⟩ | ⟨different, old⟩ <;>
      rcases locate foundSecond with ⟨rfl, rfl⟩ | ⟨apart, former⟩
    · rw [sameCommit inFlight] at committed
      exact writes inFlight _ _ present file committed
    · exact writes inFlight _ _ former file committed
    · exact unwritten _ _ old different inFlight file committed
    · exact sound.apart _ _ _ _ old former inFlight file committed

theorem Sound.stayed (sound : Sound sha256 pool) (present : pool.tasks[index]? = some task)
    (stage : AtStage sha256 pool.shared next) (committed : next.committed = task.committed)
    (received : task.committed = none ∨ next.received = task.received)
    (busy : next.Busy → task.Busy)
    (writes : next.inFlight ≠ [] → ∀ (other : Nat) (one : Receive), pool.tasks[other]? = some one →
      ∀ file ∈ one.committed, next.file ≠ some file)
    (trace : List Empty) :
    Sound sha256 { shared := pool.shared, tasks := pool.tasks.set index next ++ [], trace } := by
  refine sound.moved present stage ?_ (fun now => Or.inl (busy now))
    (fun other one found _ => ⟨sound.stages other one found, sound.kept other one found⟩) writes ?_
    (fun _ => committed) sound.fresh trace
  · intro file named
    rw [committed] at named
    obtain ⟨unused, old, content⟩ := sound.kept index task present file named
    rcases received with none | same
    · rw [none] at named
      cases named
    · exact ⟨unused, old, content.trans same.symm⟩
  · intro other one found _ inFlight file named
    rw [committed] at named
    exact sound.apart other index one task found present inFlight file named

theorem inFlight_of_idle (idle : ¬ task.Busy) : task.inFlight = [] := by
  by_contra inFlight
  exact idle (Or.inl inFlight)

theorem atStage_created (fresh : task.inFlight = [] ∧ task.received = [] ∧ task.position = 0 ∧
      task.committed = none)
    (part : files.part = some file) :
    AtStage sha256 { files with contents := Function.update files.contents file [] }
      { task with stage := .receiving, file := some file } := by
  obtain ⟨inFlight, received, position, uncommitted⟩ := fresh
  refine ⟨file, { opened := rfl, part, content := ?_, position := ?_, uncommitted }⟩
  · simp only [Function.update_self, inFlight, received, List.append_nil]
  · simp only [Function.update_self, position, List.length_nil]

/-- The only user has opened the temporary file, which no call has put in place. -/
theorem Sound.opened (sound : Sound sha256 pool) (present : pool.tasks[index]? = some task)
    (alone : ∀ (other : Nat) (one : Receive), pool.tasks[other]? = some one →
      other ≠ index → ¬ one.Busy)
    (unread : task.inFlight = [] ∧ task.received = [] ∧ task.position = 0 ∧ task.committed = none)
    (part : files.part = some file) (young : file < files.next)
    (grown : pool.shared.next ≤ files.next) (contents : files.contents = pool.shared.contents)
    (unplaced : ∀ (other : Nat) (one : Receive), pool.tasks[other]? = some one →
      ∀ committed ∈ one.committed, committed ≠ file)
    (trace : List Empty) :
    Sound sha256
      { shared := { files with contents := Function.update files.contents file [] }
        tasks := pool.tasks.set index { task with stage := .receiving, file := some file } ++
        [], trace } := by
  refine sound.moved present (atStage_created unread part) ?_
    (fun _ => Or.inr alone) ?_ ?_ ?_ ?_ ?_ trace
  · intro committed named
    rw [unread.2.2.2] at named
    cases named
  · intro other one found different
    refine ⟨(sound.stages other one found).of_idle (alone other one found different) _,
      fun committed named => ?_⟩
    have another := unplaced other one found committed named
    obtain ⟨_, old, content⟩ := sound.kept other one found committed named
    refine ⟨fun same => another (Option.some.inj (same.symm.trans part)), old.trans_le grown, ?_⟩
    simpa only [Function.update_of_ne another, contents] using content
  · exact fun now => absurd unread.1 now
  · exact fun other one found different now =>
      absurd (inFlight_of_idle (alone other one found different)) now
  · exact fun _ => rfl
  · intro _ named
    rw [part] at named
    cases named
    exact young

theorem Sound.create (sound : Sound sha256 pool) (present : pool.tasks[index]? = some task)
    (alone : ∀ (other : Nat) (one : Receive), pool.tasks[other]? = some one →
      other ≠ index → ¬ one.Busy)
    (turned : task.turn sha256 pool.shared .create = some (after, next)) (trace : List Empty) :
    Sound sha256 { shared := after, tasks := pool.tasks.set index next ++ [], trace } := by
  unfold Receive.turn at turned
  simp only at turned
  split at turned
  · rename_i creating
    have unread := sound.stages index task present
    rw [AtStage, creating] at unread
    split at turned <;> rename_i part <;> cases turned
    · -- it is there already, and is truncated
      refine sound.opened present alone unread part (sound.fresh _ part) le_rfl rfl ?_ trace
      rintro other one found committed named rfl
      exact (sound.kept other one found committed named).1 part
    · have made : ({ pool.shared with
          part := some pool.shared.next, next := pool.shared.next + 1 } : Files).part =
          some pool.shared.next := rfl
      refine sound.opened present alone unread made (Nat.lt_succ_self _) (Nat.le_succ _) rfl ?_ trace
      intro other one found committed named
      exact Nat.ne_of_lt (sound.kept other one found committed named).2.1
  · cases turned

theorem Sound.receive (sound : Sound sha256 pool) (present : pool.tasks[index]? = some task)
    (turned : task.turn sha256 pool.shared (.receive bytes) = some (after, next))
    (trace : List Empty) :
    Sound sha256 { shared := after, tasks := pool.tasks.set index next ++ [], trace } := by
  unfold Receive.turn at turned
  simp only at turned
  split at turned
  · rename_i receiving
    rw [Option.ite_none_right_eq_some] at turned
    obtain ⟨⟨inFlight, _⟩, taken⟩ := turned
    cases taken
    have stage := sound.stages index task present
    rw [AtStage, receiving] at stage
    obtain ⟨file, writing⟩ := stage
    have here : AtStage sha256 pool.shared
        { task with inFlight := bytes, received := task.received ++ bytes } := by
      rw [AtStage, receiving]
      refine ⟨file, writing.opened, writing.part, ?_, writing.position, writing.uncommitted⟩
      rw [← writing.content, inFlight, List.append_nil]
    refine sound.stayed present here rfl (Or.inl writing.uncommitted) (fun _ => Or.inr ?_) ?_ trace
    · rw [receiving]
      trivial
    · intro _ other one found committed named same
      have own : file = committed := Option.some.inj (writing.opened.symm.trans same)
      exact (sound.kept other one found committed named).1 (own ▸ writing.part)
  · cases turned

theorem writeAt_end (here : position = content.length) :
    writeAt content position bytes = content ++ bytes := by
  rw [writeAt, setLen, here, List.take_length, Nat.sub_self, List.drop_eq_nil_of_le (by omega)]
  simp

theorem Writing.write (writing : Writing files task file) (enough : count ≤ task.inFlight.length) :
    Writing { files with
        contents := Function.update files.contents file
          (writeAt (files.contents file) task.position (task.inFlight.take count)) }
      { task with position := task.position + count, inFlight := task.inFlight.drop count } file := by
  have appended : writeAt (files.contents file) task.position (task.inFlight.take count) =
      files.contents file ++ task.inFlight.take count := by
    rw [writeAt_end writing.position]
  refine
    { opened := writing.opened, part := writing.part, content := ?_, position := ?_
      uncommitted := writing.uncommitted }
  · simp only [Function.update_self, appended, List.append_assoc, List.take_append_drop, writing.content]
  · simp only [Function.update_self, appended, List.length_append, List.length_take]
    rw [writing.position]
    omega

theorem AtStage.receiving (here : task.stage = .receiving) (writing : Writing files task file) :
    AtStage sha256 files task := by
  rw [AtStage, here]
  exact ⟨file, writing⟩

theorem stage_of_inFlight (stage : AtStage sha256 files task) (inFlight : task.inFlight ≠ []) :
    task.committed = none ∧
      ((task.stage = .receiving ∧ ∃ file, Writing files task file) ∨
        ∃ error, task.stage = .returned (.error error)) := by
  unfold AtStage at stage
  split at stage <;> rename_i here
  · exact absurd stage.1 inFlight
  · obtain ⟨file, writing⟩ := stage
    exact ⟨writing.uncommitted, Or.inl ⟨here, file, writing⟩⟩
  · exact absurd stage.1 inFlight
  · exact absurd stage.1 inFlight
  · exact absurd stage.1 inFlight
  · exact ⟨stage, Or.inr ⟨_, here⟩⟩
  · exact absurd stage.1 inFlight

theorem Sound.write (sound : Sound sha256 pool) (present : pool.tasks[index]? = some task)
    (turned : task.turn sha256 pool.shared (.write count) = some (after, next))
    (trace : List Empty) :
    Sound sha256 { shared := after, tasks := pool.tasks.set index next ++ [], trace } := by
  unfold Receive.turn at turned
  simp only at turned
  split at turned
  · rename_i file opened
    rw [Option.ite_none_right_eq_some] at turned
    obtain ⟨⟨_, enough⟩, taken⟩ := turned
    cases taken
    have inFlight : task.inFlight ≠ [] := by
      intro empty
      rw [empty, List.length_nil] at enough
      omega
    have busy : task.Busy := Or.inl inFlight
    have alone (other : Nat) (one : Receive) (found : pool.tasks[other]? = some one)
        (different : other ≠ index) : ¬ one.Busy :=
      fun also => different (sound.alone other index one task found present also busy)
    obtain ⟨uncommitted, stage⟩ := stage_of_inFlight (sound.stages index task present) inFlight
    refine sound.moved present ?_ ?_ (fun _ => Or.inl busy) ?_ ?_ ?_ ?_ ?_ trace
    · rcases stage with ⟨receiving, _, writing⟩ | ⟨_, failed⟩
      · cases Option.some.inj (opened.symm.trans writing.opened)
        exact AtStage.receiving receiving (writing.write enough)
      · rw [AtStage, failed]
        exact uncommitted
    · intro committed named
      rw [uncommitted] at named
      cases named
    · intro other one found different
      refine ⟨(sound.stages other one found).of_idle (alone other one found different) _,
        fun committed named => ?_⟩
      obtain ⟨unused, old, content⟩ := sound.kept other one found committed named
      have another : committed ≠ file := by
        rintro rfl
        exact sound.apart index other task one present found inFlight committed named opened
      exact ⟨unused, old, by simpa only [Function.update_of_ne another] using content⟩
    · intro _ other one found committed named
      exact sound.apart index other task one present found inFlight committed named
    · exact fun other one found different now => absurd (Or.inl now) (alone other one found different)
    · exact fun _ => rfl
    · exact sound.fresh
  · cases turned

theorem Sound.finish (sound : Sound sha256 pool) (present : pool.tasks[index]? = some task)
    (turned : task.turn sha256 pool.shared .finish = some (after, next)) (trace : List Empty) :
    Sound sha256 { shared := after, tasks := pool.tasks.set index next ++ [], trace } := by
  unfold Receive.turn at turned
  simp only at turned
  split at turned
  · rename_i receiving
    rw [Option.ite_none_right_eq_some] at turned
    obtain ⟨inFlight, taken⟩ := turned
    cases taken
    have stage := sound.stages index task present
    rw [AtStage, receiving] at stage
    obtain ⟨file, writing⟩ := stage
    have here : AtStage sha256 pool.shared { task with stage := .verifying } :=
      ⟨inFlight, file, writing.opened, writing.part, writing.content, writing.position,
        writing.uncommitted⟩
    refine sound.stayed present here rfl (Or.inl writing.uncommitted) (fun _ => Or.inr ?_)
      (fun now => absurd inFlight now) trace
    rw [receiving]
    trivial
  · cases turned

theorem Sound.verify (sound : Sound sha256 pool) (present : pool.tasks[index]? = some task)
    (turned : task.turn sha256 pool.shared .verify = some (after, next)) (trace : List Empty) :
    Sound sha256 { shared := after, tasks := pool.tasks.set index next ++ [], trace } := by
  unfold Receive.turn at turned
  simp only at turned
  split at turned
  · rename_i verifying
    have stage := sound.stages index task present
    rw [AtStage, verifying] at stage
    obtain ⟨inFlight, file, writing⟩ := stage
    have busy : task.Busy := by
      refine Or.inr ?_
      rw [verifying]
      trivial
    split at turned
    · rename_i error _
      cases turned
      have here : AtStage sha256 pool.shared { task with stage := .removing error } :=
        ⟨inFlight, file, writing.opened, writing.part, writing.content, writing.position,
          writing.uncommitted⟩
      exact sound.stayed present here rfl (Or.inl writing.uncommitted) (fun _ => busy)
        (fun now => absurd inFlight now) trace
    · rename_i passed
      cases turned
      have here : AtStage sha256 pool.shared { task with stage := .renaming } :=
        ⟨inFlight, verdict_eq_ok_iff.mp passed, file, writing.opened, writing.part, writing.content,
          writing.position,
          writing.uncommitted⟩
      exact sound.stayed present here rfl (Or.inl writing.uncommitted) (fun _ => busy)
        (fun now => absurd inFlight now) trace
  · cases turned

theorem Sound.unnamed (sound : Sound sha256 pool) (present : pool.tasks[index]? = some task)
    (busy : task.Busy) (stage : AtStage sha256 after next) (inFlight : next.inFlight = [])
    (part : after.part = none) (contents : after.contents = pool.shared.contents)
    (count : after.next = pool.shared.next) (kept : Kept after next) (trace : List Empty) :
    Sound sha256 { shared := after, tasks := pool.tasks.set index next ++ [], trace } := by
  have alone (other : Nat) (one : Receive) (found : pool.tasks[other]? = some one)
      (different : other ≠ index) : ¬ one.Busy :=
    fun also => different (sound.alone other index one task found present also busy)
  refine sound.moved present stage kept (fun _ => Or.inl busy) ?_ (fun now => absurd inFlight now) ?_
    (fun now => absurd inFlight now) ?_ trace
  · intro other one found different
    refine ⟨(sound.stages other one found).of_idle (alone other one found different) _,
      fun committed named => ?_⟩
    obtain ⟨_, old, content⟩ := sound.kept other one found committed named
    exact ⟨by rw [part]; exact nofun, count ▸ old, by rw [contents, content]⟩
  · exact fun other one found different now => absurd (Or.inl now) (alone other one found different)
  · intro _ named
    rw [part] at named
    cases named

theorem Sound.remove (sound : Sound sha256 pool) (present : pool.tasks[index]? = some task)
    (turned : task.turn sha256 pool.shared .remove = some (after, next)) (trace : List Empty) :
    Sound sha256 { shared := after, tasks := pool.tasks.set index next ++ [], trace } := by
  unfold Receive.turn at turned
  simp only at turned
  split at turned
  · rename_i removing
    cases turned
    have stage := sound.stages index task present
    rw [AtStage, removing] at stage
    obtain ⟨inFlight, _, writing⟩ := stage
    have busy : task.Busy := by
      refine Or.inr ?_
      rw [removing]
      trivial
    refine sound.unnamed present busy ?_ ?_ ?_ ?_ ?_ ?_ trace
    · exact writing.uncommitted
    · exact inFlight
    · rfl
    · rfl
    · rfl
    · intro _ named
      rw [writing.uncommitted] at named
      cases named
  · cases turned

theorem Sound.rename (sound : Sound sha256 pool) (present : pool.tasks[index]? = some task)
    (turned : task.turn sha256 pool.shared .rename = some (after, next)) (trace : List Empty) :
    Sound sha256 { shared := after, tasks := pool.tasks.set index next ++ [], trace } := by
  unfold Receive.turn at turned
  simp only at turned
  split at turned
  · rename_i last
    have stage := sound.stages index task present
    rw [AtStage, last] at stage
    obtain ⟨inFlight, verified, file, writing⟩ := stage
    have busy : task.Busy := by
      refine Or.inr ?_
      rw [last]
      trivial
    rw [writing.part] at turned
    cases turned
    have content : pool.shared.contents file = task.received := by
      rw [← writing.content, inFlight, List.append_nil]
    refine sound.unnamed present busy ?_ ?_ ?_ ?_ ?_ ?_ trace
    · exact ⟨inFlight, rfl, verified, rfl, rfl⟩
    · exact inFlight
    · rfl
    · rfl
    · rfl
    · intro _ named
      cases named
      exact ⟨nofun, sound.fresh file writing.part, content⟩
  · cases turned

theorem Sound.fail (sound : Sound sha256 pool) (present : pool.tasks[index]? = some task)
    (turned : task.turn sha256 pool.shared (.fail error) = some (after, next))
    (trace : List Empty) :
    Sound sha256 { shared := after, tasks := pool.tasks.set index next ++ [], trace } := by
  unfold Receive.turn at turned
  simp only at turned
  split at turned
  · cases turned
  · rename_i unfinished
    cases turned
    have stage := sound.stages index task present
    have uncommitted : task.committed = none := by
      unfold AtStage at stage
      split at stage <;> rename_i here
      · exact stage.2.2.2
      · exact stage.elim fun _ writing => writing.uncommitted
      · exact stage.2.elim fun _ writing => writing.uncommitted
      · exact stage.2.elim fun _ writing => writing.uncommitted
      · exact stage.2.2.elim fun _ writing => writing.uncommitted
      · exact absurd here (unfinished _)
      · exact absurd here (unfinished _)
    have here : AtStage sha256 pool.shared { task with stage := .returned (.error error) } := uncommitted
    refine sound.stayed present here rfl (Or.inl uncommitted) ?_ ?_ trace
    · rintro (inFlight | running)
      · exact Or.inl inFlight
      · exact absurd running Bool.false_ne_true
    · intro inFlight other one found committed named
      exact sound.apart index other task one present found inFlight committed named

theorem Sound.run (sound : Sound sha256 pool) (present : pool.tasks[index]? = some task)
    (admitted : exclusive pool (.run index choice))
    (turned : task.turn sha256 pool.shared choice = some (after, next)) (trace : List Empty) :
    Sound sha256 { shared := after, tasks := pool.tasks.set index next ++ [], trace } := by
  cases choice with
  | create => exact sound.create present admitted turned trace
  | receive => exact sound.receive present turned trace
  | write => exact sound.write present turned trace
  | finish => exact sound.finish present turned trace
  | verify => exact sound.verify present turned trace
  | remove => exact sound.remove present turned trace
  | rename => exact sound.rename present turned trace
  | fail => exact sound.fail present turned trace

theorem Sound.call (sound : Sound sha256 pool) (arguments : Arguments) :
    Sound sha256 { pool with tasks := pool.tasks ++ [Receive.start arguments] } := by
  have idle : ¬ (Receive.start arguments).Busy := by
    rintro (inFlight | running)
    · exact inFlight rfl
    · exact absurd running Bool.false_ne_true
  refine { stages := ?_, kept := ?_, alone := ?_, apart := ?_, fresh := sound.fresh }
  · intro other one found
    rcases Pool.getElem?_called found with old | ⟨_, rfl⟩
    · exact sound.stages other one old
    · exact ⟨rfl, rfl, rfl, rfl⟩
  · intro other one found
    rcases Pool.getElem?_called found with old | ⟨_, rfl⟩
    · exact sound.kept other one old
    · exact nofun
  · intro first second one two foundFirst foundSecond busyFirst busySecond
    rcases Pool.getElem?_called foundFirst with old | ⟨_, rfl⟩
    · rcases Pool.getElem?_called foundSecond with former | ⟨_, rfl⟩
      · exact sound.alone first second one two old former busyFirst busySecond
      · exact absurd busySecond idle
    · exact absurd busyFirst idle
  · intro first second one two foundFirst foundSecond inFlight file named
    rcases Pool.getElem?_called foundFirst with old | ⟨_, rfl⟩
    · rcases Pool.getElem?_called foundSecond with former | ⟨_, rfl⟩
      · exact sound.apart first second one two old former inFlight file named
      · cases named
    · exact absurd rfl inFlight

theorem Sound.step (sound : Sound sha256 pool)
    (admitted : exclusive pool label)
    (taken : Pool.step (receiving sha256) pool label = some later) : Sound sha256 later := by
  rcases Pool.step_cases taken with ⟨arguments, rfl, rfl⟩ | ⟨_, _, _, _, rfl, present, turned, rfl⟩
  · exact sound.call arguments
  · obtain ⟨⟨_, _⟩, moved, rfl⟩ := Option.map_eq_some_iff.mp turned
    exact sound.run present admitted moved pool.trace

theorem sound_idle (sha256 : Bytes → String) (fresh : ∀ file ∈ files.part, file < files.next) :
    Sound sha256 (idle files) := by
  have none (index : Nat) (task : Receive) : (idle files).tasks[index]? ≠ some task := by simp [idle]
  exact
    { stages := fun index task found => absurd found (none index task)
      kept := fun index task found => absurd found (none index task)
      alone := fun first _ one _ found => absurd found (none first one)
      apart := fun first _ one _ found => absurd found (none first one)
      fresh }

end

/-- Only a rename puts a file in the place of the output, and with it a call returns. -/
theorem output_turn {task next : Receive}
    (moved : task.turn sha256 files choice = some (later, next)) :
    (next.stage.result = task.stage.result ∧ next.committed = task.committed ∧
      later.output = files.output) ∨
      (next.stage.result.isSome = true ∧ later.output = next.committed) := by
  cases choice with
  | rename =>
    simp only [Receive.turn] at moved
    split at moved
    · rename_i stage
      split at moved
      · cases moved
        exact .inl ⟨by rw [stage]; rfl, rfl, rfl⟩
      · cases moved
        exact .inr ⟨rfl, rfl⟩
    · cases moved
  | fail =>
    simp only [Receive.turn] at moved
    split at moved
    · cases moved
    · rename_i running
      cases moved
      refine .inl ⟨?_, rfl, rfl⟩
      cases stage : task.stage with
      | returned result => exact absurd stage (running result)
      | _ => rfl
  | write =>
    simp only [Receive.turn] at moved
    split at moved
    · split at moved
      · cases moved
        exact .inl ⟨rfl, rfl, rfl⟩
      · cases moved
    · cases moved
  | _ =>
    simp only [Receive.turn] at moved
    split at moved
    · rename_i stage
      -- no other choice returns
      first
        | split at moved <;> cases moved <;> exact .inl ⟨by simp [stage, Stage.result], rfl, rfl⟩
        | cases moved; exact .inl ⟨by simp [stage, Stage.result], rfl, rfl⟩
    · cases moved

/-- Once a call has returned `Ok`, such a call's file stands at the output path. -/
def Placed (pool : Pool Files Receive Empty) : Prop :=
  ∀ task ∈ pool.tasks, task.stage.result.isSome = true →
    ∃ last ∈ pool.tasks, last.stage.result.isSome = true ∧ pool.shared.output = last.committed

theorem Placed.step (placed : Placed pool)
    {label : PoolLabel Arguments Choice}
    (taken : Pool.step (receiving sha256) pool label = some later) : Placed later := by
  rcases Pool.step_cases taken with ⟨_, rfl, rfl⟩ | ⟨index, _, task, _, rfl, present, turned, rfl⟩
  · intro task member returned
    rcases List.mem_append.mp member with old | new
    · obtain ⟨last, among, ended⟩ := placed task old returned
      exact ⟨last, List.mem_append_left _ among, ended⟩
    · rw [List.mem_singleton.mp new] at returned
      cases returned
  · obtain ⟨⟨_, next⟩, moved, rfl⟩ := Option.map_eq_some_iff.mp turned
    have here : next ∈ pool.tasks.set index next ++ [] :=
      List.mem_of_getElem? (Pool.getElem?_moved present)
    intro other member returned
    rcases output_turn moved with ⟨result, committed, output⟩ | placing
    · obtain ⟨old, among, ended⟩ : ∃ old ∈ pool.tasks, old.stage.result.isSome = true := by
        obtain ⟨place, found⟩ := List.mem_iff_getElem?.mp member
        rcases Pool.getElem?_turned found with ⟨_, rfl⟩ | ⟨_, found⟩ | ⟨_, found⟩
        · exact ⟨task, List.mem_of_getElem? present, result ▸ returned⟩
        · exact ⟨other, List.mem_of_getElem? found, returned⟩
        · cases found
      obtain ⟨last, within, finished, placedAt⟩ := placed old among ended
      obtain ⟨_, found⟩ := List.mem_iff_getElem?.mp within
      rcases Pool.getElem?_kept present found with ⟨_, rfl, _⟩ | ⟨_, found⟩
      · exact ⟨next, here, by rw [result]; exact finished, by rw [committed, ← placedAt, ← output]⟩
      · exact ⟨last, List.mem_of_getElem? found, finished, output.trans placedAt⟩
    · exact ⟨next, here, placing⟩

/-- As long as the temporary file is created only while no other call uses it, every call that has
returned `Ok` has committed what it received and verified. -/
theorem committed_of_exclusive (sha256 : Bytes → String) (files : Files)
    (fresh : ∀ file ∈ files.part, file < files.next) {labels : List (PoolLabel Arguments Choice)}
    {pool : Pool Files Receive Empty}
    (run : Execution (Pool.step (receiving sha256)) exclusive (idle files) labels pool) :
    Committed sha256 pool := by
  have sound := run.invariant (Sound sha256)
    (fun _ _ _ sound admitted taken => sound.step admitted taken) (sound_idle sha256 fresh)
  have placed := run.invariant Placed (fun _ _ _ placed _ taken => placed.step taken)
    (by simp [Placed, idle])
  exact ⟨fun task member size hash returned => own_of_sound sound member returned, placed⟩

/-- No file is there. -/
def noFiles : Files := { part := none, output := none, contents := fun _ => [], next := 0 }

def sampleHash (content : Bytes) : String :=
  String.ofList (content.map fun byte => Char.ofNat (byte.toNat + 48))

/-- A call from its creation of the file to the write. -/
def upload (index : Nat) (content : Bytes) : List (PoolLabel Arguments Choice) :=
  turns index [.create, .receive content, .write content.length]

def completion (index : Nat) : List (PoolLabel Arguments Choice) :=
  turns index [.finish, .verify, .rename]

/-- What each call has received and returned, and what the file holds that it has put in place. -/
def outcomes (pool : Pool Files Receive Empty) :
    List (Bytes × Option (Nat × String) × Option Bytes) :=
  pool.tasks.map fun task => (task.received, task.stage.result, task.committed.map pool.shared.contents)

theorem outcomes_of_committed (committed : Committed sha256 pool) :
    ∀ outcome ∈ outcomes pool, outcome.2.1.isSome = true → outcome.2.2 = some outcome.1 := by
  intro outcome member returned
  obtain ⟨task, among, rfl⟩ := List.mem_map.mp member
  obtain ⟨⟨size, hash⟩, result⟩ := Option.isSome_iff_exists.mp returned
  have stage : task.stage = .returned (.ok (size, hash)) := by
    cases here : task.stage with
    | returned outcome =>
      rw [here] at result
      cases outcome with
      | ok => rw [Option.some.inj result]
      | error => cases result
    | _ =>
      rw [here] at result
      cases result
  obtain ⟨_, named, content, _⟩ := committed.own task among size hash stage
  simp only [named, Option.map_some, content]

/-- `exclusive`, as a check. -/
def permits (pool : Pool Files Receive Empty) : PoolLabel Arguments Choice → Bool
  | .run index .create => pool.tasks.zipIdx.all fun entry => entry.2 = index || !decide entry.1.Busy
  | _ => true

theorem exclusive_of_permits
    (permitted : permits pool label = true) : exclusive pool label := by
  cases label with
  | call => trivial
  | run _ choice =>
    cases choice with
    | create =>
      intro other task found different
      have among : (task, other) ∈ pool.tasks.zipIdx := List.mk_mem_zipIdx_iff_getElem?.mpr found
      have free := List.all_eq_true.mp permitted (task, other) among
      simpa [different] using free
    | _ => trivial

/-- The second upload begins when the first has ended. -/
theorem committed_sequentially :
    ∃ pool, Execution (Pool.step (receiving sampleHash)) exclusive (idle noFiles)
        (.call ⟨2, some "12"⟩ :: .call ⟨0, none⟩ ::
          (upload 0 [1, 2] ++ completion 0 ++ upload 1 [3] ++ completion 1)) pool ∧
      outcomes pool = [([1, 2], some (2, "12"), some [1, 2]), ([3], some (1, "3"), some [3])] ∧
      Committed sampleHash pool := by
  obtain ⟨pool, run, ends⟩ := exists_execution
    (fun pool => outcomes pool = [([1, 2], some (2, "12"), some [1, 2]), ([3], some (1, "3"), some [3])])
    (show (replayWhere (Pool.step (receiving sampleHash)) permits (idle noFiles)
      (.call ⟨2, some "12"⟩ :: .call ⟨0, none⟩ ::
        (upload 0 [1, 2] ++ completion 0 ++ upload 1 [3] ++ completion 1))).any _ = true
      by decide)
  have admitted := run.weaken fun _ _ => exclusive_of_permits
  exact ⟨pool, admitted, of_decide_eq_true ends,
    committed_of_exclusive sampleHash noFiles nofun admitted⟩

/-- The second upload truncates the file of the first, which then passes its checks and puts the
other's bytes in place. -/
theorem not_committed_concurrently :
    ∃ pool, Execution (Pool.step (receiving sampleHash)) anything (idle noFiles)
        (.call ⟨2, some "12"⟩ :: .call ⟨0, none⟩ ::
          (upload 0 [1, 2] ++ upload 1 [3] ++ completion 0)) pool ∧
      outcomes pool = [([1, 2], some (2, "12"), some [3]), ([3], none, none)] ∧
      ¬ Committed sampleHash pool := by
  obtain ⟨pool, run, ends⟩ := exists_execution
    (fun pool => outcomes pool = [([1, 2], some (2, "12"), some [3]), ([3], none, none)])
    (show (replayWhere (Pool.step (receiving sampleHash)) (fun _ _ => true) (idle noFiles)
      (.call ⟨2, some "12"⟩ :: .call ⟨0, none⟩ ::
        (upload 0 [1, 2] ++ upload 1 [3] ++ completion 0))).any _ = true by decide)
  have ended := of_decide_eq_true ends
  refine ⟨pool, run.plain, ended, fun committed => ?_⟩
  have same := outcomes_of_committed committed ([1, 2], some (2, "12"), some [3])
    (by rw [ended]; exact List.mem_cons_self) rfl
  exact absurd same (by decide)

end DistributedOs.Http.SharedOutput
