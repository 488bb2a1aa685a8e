import DistributedOs.Http.SharedOutput
import DistributedOs.Semantics.Disk

/-! One call of `stream_file_receive` on its own, with the files under its two names, neither of
which is a link. How each call of the operating system ends is given by the environment. -/

namespace DistributedOs.Http.AtomicReceive

open Semantics
open Http.SharedOutput (Arguments Receive Verified verdict_eq_ok_iff)

/-- What is under the name of the temporary file, and what is under the output path. -/
structure Files where
  part : Option Stored
  output : Option Stored

/-- A read ends with some bytes, none at the end of the stream; they are handed to the file. -/
inductive Arrival where
  | read (chunk : Bytes) (taken : Except String Unit)
  | failed (error : String)

/-- After the last arrival nothing more happens for thirty seconds. Of the bytes handed to the file,
as many as have `landed` are in it when the call ends early. -/
structure World where
  parent : Except String Unit
  create : Except String Unit
  arrivals : List Arrival
  landed : Nat
  flush : Except String Unit
  remove : Except String Unit
  rename : Except String Unit

namespace Files

def createPart (files : Files) (granted : Except String Unit) : Except String Files :=
  match files.part, granted with
  | some .directory, _ => .error "Is a directory (os error 21)"
  | _, .error error => .error error
  | _, .ok () => .ok { files with part := some (.file []) }

def withPart (files : Files) (content : Bytes) : Files :=
  { files with part := some (.file content) }

/-- The error is ignored. -/
def removePart (files : Files) (granted : Except String Unit) : Files :=
  match granted with
  | .ok () => { files with part := none }
  | .error _ => files

def renamePart (files : Files) (granted : Except String Unit) : Except String Files :=
  match files.output, granted with
  | some .directory, _ => .error "Is a directory (os error 21)"
  | _, .error error => .error error
  | _, .ok () => .ok { part := none, output := files.part }

end Files

def receiveLoop (received : Bytes) : List Arrival → Bytes × Except String Unit
  | [] => (received, .error "Receive timed out after 30s of inactivity")
  | .failed error :: _ => (received, .error ("Receive error: " ++ error))
  | .read chunk taken :: later =>
    if chunk = [] then (received, .ok ())
    else
      match taken with
      | .error error => (received ++ chunk, .error error)
      | .ok () => receiveLoop (received ++ chunk) later

def checking (arguments : Arguments) (received : Bytes) : Receive :=
  { Receive.start arguments with stage := .verifying, received }

section
variable (sha256 : Bytes → String) (arguments : Arguments) (world : World)

def complete (files : Files) (received : Bytes) : Files × Except String (Nat × String) :=
  match world.flush with
  | .error error => (files.withPart (received.take world.landed), .error error)
  | .ok () =>
    let files := files.withPart received
    match Receive.verdict sha256 (checking arguments received) with
    | .error error => (files.removePart world.remove, .error error)
    | .ok () =>
      match files.renamePart world.rename with
      | .error error => (files, .error ("Failed to rename completed file: " ++ error))
      | .ok files => (files, .ok (received.length, sha256 received))

def streamFileReceive (files : Files) : Files × Except String (Nat × String) :=
  match world.parent with
  | .error error => (files, .error error)
  | .ok () =>
    match files.createPart world.create with
    | .error error => (files, .error ("Failed to create output file: " ++ error))
    | .ok files =>
      match receiveLoop [] world.arrivals with
      | (received, .error error) => (files.withPart (received.take world.landed), .error error)
      | (received, .ok ()) => complete sha256 arguments world files received

end

/-- The bytes that arrive before the stream ends or fails. -/
def bytesOf : List Arrival → Bytes
  | .read chunk _ :: later => if chunk = [] then [] else chunk ++ bytesOf later
  | _ => []

/-- The stream comes to its end, and the file has taken all of it. -/
def Ends : List Arrival → Prop
  | .read chunk taken :: later => chunk = [] ∨ (taken = .ok () ∧ Ends later)
  | _ => False

/-- Nothing fails before the checks. -/
structure World.Undisturbed (world : World) (files : Files) : Prop where
  parent : world.parent = .ok ()
  part : files.part ≠ some .directory
  create : world.create = .ok ()
  stream : Ends world.arrivals
  flush : world.flush = .ok ()

/-- The output path holds what has arrived, which has passed the checks. -/
structure Delivered (sha256 : Bytes → String) (arguments : Arguments) (arrived : Bytes)
    (after : Files) (size : Nat) (hash : String) :
    Prop where
  output : after.output = some (.file arrived)
  counted : size = arrived.length
  hashed : hash = sha256 arrived
  checksum : ∀ expected ∈ arguments.expectedChecksum, hash = expected

section
variable (sha256 : Bytes → String) (arguments : Arguments) (world : World) (files : Files)

/-- All or nothing. -/
structure Atomic : Prop where
  nothing : ∀ error, (streamFileReceive sha256 arguments world files).2 = .error error →
    (streamFileReceive sha256 arguments world files).1.output = files.output ∧
      (streamFileReceive sha256 arguments world files).1.part = none
  all : ∀ size hash, (streamFileReceive sha256 arguments world files).2 = .ok (size, hash) →
    Delivered sha256 arguments (bytesOf world.arrivals)
      (streamFileReceive sha256 arguments world files).1 size hash ∧
        size = arguments.expectedSize

/-- An expected size of zero is none, and the temporary file is removed when the checks fail, if the
system lets it. -/
structure Checked : Prop where
  unchanged : ∀ error, (streamFileReceive sha256 arguments world files).2 = .error error →
    (streamFileReceive sha256 arguments world files).1.output = files.output
  removed : world.Undisturbed files →
    ¬ Verified sha256 (checking arguments (bytesOf world.arrivals)) → world.remove = .ok () →
      (streamFileReceive sha256 arguments world files).1.part = none ∧
        ∃ error, (streamFileReceive sha256 arguments world files).2 = .error error
  delivered : ∀ size hash, (streamFileReceive sha256 arguments world files).2 = .ok (size, hash) →
    Delivered sha256 arguments (bytesOf world.arrivals)
      (streamFileReceive sha256 arguments world files).1 size hash ∧
        (streamFileReceive sha256 arguments world files).1.part = none ∧
          (0 < arguments.expectedSize → size = arguments.expectedSize)

end

variable {sha256 : Bytes → String} {arguments : Arguments} {world : World} {files : Files}

theorem receiveLoop_eq_ok_iff (before received : Bytes) (arrivals : List Arrival) :
    receiveLoop before arrivals = (received, .ok ()) ↔
      Ends arrivals ∧ received = before ++ bytesOf arrivals := by
  induction arrivals generalizing before with
  | nil => simp [receiveLoop, Ends]
  | cons arrival _ ih =>
    cases arrival with
    | failed => simp [receiveLoop, Ends]
    | read chunk taken =>
      by_cases ended : chunk = []
      · simp [receiveLoop, Ends, bytesOf, ended, eq_comm]
      · cases taken with
        | error => simp [receiveLoop, Ends, ended]
        | ok =>
          simp only [receiveLoop, Ends, bytesOf, ended, if_false, false_or, true_and, ih,
            List.append_assoc]

theorem output_createPart (created : files.createPart granted = .ok after) :
    after.output = files.output := by
  unfold Files.createPart at created
  split at created <;> cases created
  rfl

theorem output_removePart (granted : Except String Unit) :
    (files.removePart granted).output = files.output := by
  unfold Files.removePart
  split <;> rfl

theorem renamePart_withPart {received : Bytes}
    (renamed : (files.withPart received).renamePart granted = .ok after) :
    after = { part := none, output := some (.file received) } := by
  unfold Files.renamePart at renamed
  split at renamed <;> cases renamed
  rfl

theorem complete_cases (received : Bytes) :
    (∃ error, (complete sha256 arguments world files received).2 = .error error ∧
        (complete sha256 arguments world files received).1.output = files.output) ∨
      (Verified sha256 (checking arguments received) ∧
        complete sha256 arguments world files received =
          ({ part := none, output := some (.file received) },
            .ok (received.length, sha256 received))) := by
  unfold complete
  cases world.flush with
  | error error => exact Or.inl ⟨error, rfl, rfl⟩
  | ok =>
    cases verdict : Receive.verdict sha256 (checking arguments received) with
    | error error => exact Or.inl ⟨error, rfl, output_removePart world.remove⟩
    | ok =>
      dsimp only
      cases renamed : (files.withPart received).renamePart world.rename with
      | error => exact Or.inl ⟨_, rfl, rfl⟩
      | ok =>
        rw [renamePart_withPart renamed]
        exact Or.inr ⟨verdict_eq_ok_iff.mp verdict, rfl⟩

theorem streamFileReceive_cases :
    (∃ error, (streamFileReceive sha256 arguments world files).2 = .error error ∧
        (streamFileReceive sha256 arguments world files).1.output = files.output) ∨
      (Verified sha256 (checking arguments (bytesOf world.arrivals)) ∧
        streamFileReceive sha256 arguments world files =
          ({ part := none, output := some (.file (bytesOf world.arrivals)) },
            .ok ((bytesOf world.arrivals).length, sha256 (bytesOf world.arrivals)))) := by
  unfold streamFileReceive
  cases world.parent with
  | error error => exact Or.inl ⟨error, rfl, rfl⟩
  | ok =>
    dsimp only
    cases created : files.createPart world.create with
    | error => exact Or.inl ⟨_, rfl, rfl⟩
    | ok opened =>
      have output := output_createPart created
      dsimp only
      rcases looped : receiveLoop [] world.arrivals with ⟨received, error | _⟩
      · exact Or.inl ⟨error, rfl, output⟩
      · have arrived := ((receiveLoop_eq_ok_iff _ _ _).mp looped).2
        rw [List.nil_append] at arrived
        rw [← arrived]
        rcases @complete_cases sha256 arguments world opened
          received with ⟨error, failed, unchanged⟩ | finished
        · exact Or.inl ⟨error, failed, unchanged.trans output⟩
        · exact Or.inr finished

theorem removed_of_undisturbed (undisturbed : world.Undisturbed files)
    (refused : ¬ Verified sha256 (checking arguments (bytesOf world.arrivals)))
    (granted : world.remove = .ok ()) :
    (streamFileReceive sha256 arguments world files).1.part = none ∧
      ∃ error, (streamFileReceive sha256 arguments world files).2 = .error error := by
  have created : files.createPart world.create = .ok (files.withPart []) := by
    rw [undisturbed.create]
    unfold Files.createPart
    split
    · next directory => exact absurd directory undisturbed.part
    · next impossible _ => cases impossible
    · rfl
  have looped : receiveLoop [] world.arrivals = (bytesOf world.arrivals, .ok ()) :=
    (receiveLoop_eq_ok_iff _ _ _).mpr ⟨undisturbed.stream, rfl⟩
  simp only [streamFileReceive, undisturbed.parent, created, looped, complete, undisturbed.flush]
  cases verdict : Receive.verdict sha256 (checking arguments (bytesOf world.arrivals)) with
  | ok => exact absurd (verdict_eq_ok_iff.mp verdict) refused
  | error error =>
    rw [granted]
    exact ⟨rfl, error, rfl⟩

/-- A call changes the output only when it succeeds, and then it has put the checked file there. -/
theorem streamFileReceive_checked (sha256 : Bytes → String) (arguments : Arguments) (world : World)
    (files : Files) :
    Checked sha256 arguments world files := by
  constructor
  · intro _ failed
    rcases @streamFileReceive_cases sha256 arguments world files with ⟨_, _, unchanged⟩ | ⟨_, finished⟩
    · exact unchanged
    · rw [finished] at failed
      cases failed
  · exact removed_of_undisturbed
  · intro _ _ succeeded
    rcases @streamFileReceive_cases sha256 arguments world files with ⟨_, failed, _⟩
      | ⟨⟨checksum, counted⟩, finished⟩
    · cases failed.symm.trans succeeded
    · rw [finished] at succeeded ⊢
      cases succeeded
      exact ⟨⟨rfl, rfl, rfl, checksum⟩, rfl, counted⟩

def letterHash : String := "ca978112ca1bbdcafac231b39a23dc4da786eff8147c4e72b9807785afee48bb"

/-- Every call of the operating system succeeds. -/
def willing (arrivals : List Arrival) : World :=
  { parent := .ok (), create := .ok (), arrivals, landed := 0, flush := .ok (), remove := .ok (),
    rename := .ok () }

/-- With an expected size of zero a byte is accepted; and a stream that stalls leaves the temporary
file there. -/
theorem not_atomic_unsized_stalled :
    (streamFileReceive (fun _ => letterHash) ⟨0, none⟩
      (willing [.read [0x61] (.ok ()), .read [] (.ok ())]) ⟨none, none⟩).2 =
        .ok (1, letterHash) ∧
      ¬ Atomic (fun _ => letterHash) ⟨0, none⟩
        (willing [.read [0x61] (.ok ()), .read [] (.ok ())]) ⟨none, none⟩ ∧
        (streamFileReceive (fun _ => letterHash) ⟨1, none⟩ (willing []) ⟨none, none⟩).1.part =
        some (.file []) ∧
      ¬ Atomic (fun _ => letterHash) ⟨1, none⟩ (willing []) ⟨none, none⟩ := by
  refine ⟨rfl, fun atomic => ?_, rfl, fun atomic => ?_⟩
  · have counted := (atomic.all 1 letterHash rfl).2
    cases counted
  · have gone := (atomic.nothing _ rfl).2
    cases gone

end DistributedOs.Http.AtomicReceive
