import DistributedOs.Http.Uploads
import DistributedOs.Transfer.FlowWindow
import DistributedOs.Transfer.Handshake

/-! The upload over QUIC: a loop that spawns tasks, each of which reads the next chunk of the shared
file and sends it over a stream of its own. A step is one turn of the loop or of a task, in any
order. -/

namespace DistributedOs.Transfer

open Semantics
open Http.Uploads (TransferSessionResult)

def TransferOptions.numStreams (options : TransferOptions) : Nat :=
  if options.parallel then max options.parallelStreams 1 else 1

/-- What a task that has read its chunk does next: it waits for the flow window, opens a stream,
writes the chunk and finishes the stream, feeds the hash, adds to the total, and sleeps for the
pacing. -/
inductive ChunkStage where
  | waiting
  | opening
  | sending
  | sent
  | hashed
  | pacing
  deriving DecidableEq

/-- A task has still to read, is busy with the chunk that it read at a position, or is over. -/
inductive ChunkTask where
  | reading
  | busy (stage : ChunkStage) (pos : Nat) (data : Bytes)
  | finished (ok : Bool)
  deriving DecidableEq

/-- The loop spawns tasks, then waits for them one by one, sends the checksum, and returns. -/
inductive UploadPhase where
  | spawning
  | joining (next : Nat)
  | checksumming
  | returned (result : Option TransferSessionResult)

/-- `cursor` is the position of the shared file handle, `available` the permits of the flow window;
`sent` is the record of the chunks whose streams were finished. -/
structure QuicUpload where
  content : Bytes
  options : TransferOptions
  offset : Nat
  cursor : Nat
  available : Nat
  hashed : Bytes
  totalSent : Nat
  sent : List (Nat × Bytes)
  tasks : List ChunkTask
  checksum : Option String
  phase : UploadPhase

/-- `FlowWindow::default`. -/
def windowBytes : UInt64 := 4 * 1024 * 1024

/-- A read of the file may fail with the handle moved on, and an operation on a stream may fail. -/
inductive UploadEvent where
  | spawn
  | leave
  | join
  | timeout
  | sendChecksum
  | checksumError
  | proceed (index : Nat)
  | readError (index cursor : Nat)
  | sendError (index : Nat)
  deriving DecidableEq

def prehash (content : Bytes) (cursor remaining : Nat) (hashed : Bytes) : Option (Nat × Bytes) :=
  if remaining = 0 then some (cursor, hashed)
  else
    let toRead := min remaining 65536
    if cursor + toRead ≤ content.length then
      prehash content (cursor + toRead) (remaining - toRead)
        (hashed ++ (content.drop cursor).take toRead)
    else none
termination_by remaining

namespace QuicUpload

def size (upload : QuicUpload) : Nat := upload.content.length

/-- Once the file is open. A semaphore of too many permits panics, and a file shorter than the
offset cannot be resumed. -/
def start (content : Bytes) (options : TransferOptions) : Option QuicUpload :=
  if maxPermits < options.numStreams then none
  else
    (prehash content 0 options.resumeOffset []).map fun (cursor, hashed) =>
      { content, options, offset := options.resumeOffset, cursor, available := windowBytes.toNat,
        hashed, totalSent := 0
        sent := [], tasks := [], checksum := none, phase := .spawning }

def put (upload : QuicUpload) (index : Nat) (task : ChunkTask) : QuicUpload :=
  { upload with tasks := upload.tasks.set index task }

def permits (data : Bytes) : Nat := (acquired windowBytes (UInt64.ofNat data.length)).toNat

def release (upload : QuicUpload) (data : Bytes) : QuicUpload :=
  { upload with available := upload.available + permits data }

/-- `(size - pos).min(chunk_sz as u64)`. -/
def toRead (upload : QuicUpload) : Nat := min (upload.size - upload.offset) upload.options.chunkSize

def proceed (upload : QuicUpload) (index : Nat) : ChunkTask → Option QuicUpload
  | .reading =>
    if upload.size ≤ upload.offset then some (upload.put index (.finished true))
    else if upload.cursor + upload.toRead ≤ upload.size then
      let data := (upload.content.drop upload.cursor).take upload.toRead
      some
        { upload.put index (.busy .waiting upload.offset data) with
          offset := upload.offset + upload.toRead
          cursor := upload.cursor + upload.toRead }
    else none
  | .busy .waiting pos data =>
    if permits data ≤ upload.available then
      some { upload.put index
        (.busy .opening pos data) with available := upload.available - permits data }
    else none
  | .busy .opening pos data => some (upload.put index (.busy .sending pos data))
  | .busy .sending pos data =>
    some { upload.put index (.busy .sent pos data) with sent := upload.sent ++ [(pos, data)] }
  | .busy .sent pos data =>
    some { upload.put index (.busy .hashed pos data) with hashed := upload.hashed ++ data }
  | .busy .hashed pos data =>
    some { upload.put index (.busy .pacing pos data) with totalSent := upload.totalSent + data.length }
  | .busy .pacing _ data => some ((upload.release data).put index (.finished true))
  | .finished _ => none

/-- A task that fails returns its error, which nothing looks at. -/
def sendError (upload : QuicUpload) (index : Nat) : ChunkTask → Option QuicUpload
  | .busy .opening _ data => some ((upload.release data).put index (.finished false))
  | .busy .sending _ data => some ((upload.release data).put index (.finished false))
  | _ => none

def readError (upload : QuicUpload) (index cursor : Nat) : ChunkTask → Option QuicUpload
  | .reading =>
    if upload.offset < upload.size ∧ upload.cursor ≤ cursor ∧ cursor ≤ upload.cursor + upload.toRead then
      some { upload.put index (.finished false) with cursor }
    else none
  | _ => none

/-- The permit of the stream slot is dropped at the end of the turn that spawns the task, so that
there is always one. -/
def step (sha256 : Bytes → String) (upload : QuicUpload) : UploadEvent → Option QuicUpload
  | .spawn =>
    match upload.phase with
    | .spawning =>
      if upload.offset < upload.size then some { upload with tasks := upload.tasks ++ [.reading] }
      else none
    | _ => none
  | .leave =>
    match upload.phase with
    | .spawning => if upload.offset < upload.size then none else some { upload with phase := .joining 0 }
    | _ => none
  | .join =>
    match upload.phase with
    | .joining next =>
      match upload.tasks[next]? with
      | some (.finished _) => some { upload with phase := .joining (next + 1) }
      | some _ => none
      | none => some { upload with phase := .checksumming }
    | _ => none
  | .timeout =>
    match upload.phase with
    | .joining next =>
      match upload.tasks[next]? with
      | none | some (.finished _) => none
      | some _ => some { upload with phase := .returned none }
    | _ => none
  | .sendChecksum =>
    match upload.phase with
    | .checksumming =>
      some
        { upload with
          checksum := some (sha256 upload.hashed)
          phase := .returned (some { bytesSent := upload.totalSent, bytesTotal := upload.size }) }
    | _ => none
  | .checksumError =>
    match upload.phase with
    | .checksumming => some { upload with phase := .returned none }
    | _ => none
  | .proceed index => upload.tasks[index]?.bind (upload.proceed index)
  | .readError index cursor => upload.tasks[index]?.bind (upload.readError index cursor)
  | .sendError index => upload.tasks[index]?.bind (upload.sendError index)

end QuicUpload

/-- The chunks of a file from a position on. Chunks of no bytes never get to its end. -/
def chunksFrom (content : Bytes) (chunkSize pos : Nat) : List (Nat × Bytes) :=
  if pos < content.length ∧ 0 < chunkSize then
    (pos, (content.drop pos).take chunkSize) :: chunksFrom content chunkSize (pos + chunkSize)
  else []
termination_by content.length - pos

namespace ChunkTask

/-- A stream of the task's is open. -/
def isSending : ChunkTask → Bool
  | .busy .sending _ _ => true
  | _ => false

def isOver : ChunkTask → Bool
  | .finished _ => true
  | _ => false

/-- If the task is about to feed the hash, so much has been fed before that its chunk is next. -/
def inOrder (hashed : Nat) : ChunkTask → Bool
  | .busy .sent pos _ => hashed = pos
  | _ => true

end ChunkTask

namespace QuicUpload

/-- An upload that has returned has sent every chunk once, reports all of them, and has sent the
checksum of the file; no more chunks are being sent than there are streams. -/
structure Delivers (sha256 : Bytes → String) (upload : QuicUpload) : Prop where
  sent : ∀ result, upload.phase = .returned (some result) →
    upload.sent.Perm (chunksFrom upload.content upload.options.chunkSize upload.options.resumeOffset)
  reported : ∀ result, upload.phase = .returned (some result) →
    result.bytesSent = upload.size - upload.options.resumeOffset ∧ result.bytesTotal = upload.size
  checksum : ∀ result, upload.phase = .returned (some result) →
    upload.checksum = some (sha256 upload.content)
  concurrent : upload.tasks.countP ChunkTask.isSending ≤ upload.options.numStreams

/-- No task fails, the tasks feed the hash in the order in which they have read, and none is spawned
while there are as many unfinished as streams. -/
def orderly (upload : QuicUpload) : UploadEvent → Prop
  | .spawn => upload.tasks.countP (fun task => !task.isOver) < upload.options.numStreams
  | .proceed index => upload.tasks[index]?.all (ChunkTask.inOrder upload.hashed.length) = true
  | .readError _ _ => False
  | .sendError _ => False
  | _ => True

instance (upload : QuicUpload) : (event : UploadEvent) → Decidable (upload.orderly event)
  | .spawn => inferInstanceAs (Decidable (_ < _))
  | .proceed _ => inferInstanceAs (Decidable (_ = true))
  | .readError _ _ | .sendError _ => .isFalse id
  | .leave | .join | .timeout | .sendChecksum | .checksumError => .isTrue trivial

end QuicUpload

end DistributedOs.Transfer
