import DistributedOs.Cli.TransferTracker
import DistributedOs.Http.Containment
import DistributedOs.Semantics.HeaderText
import DistributedOs.Semantics.LossyText
import DistributedOs.Semantics.ReadLoop

/-! The download of a file over HTTP: the head of the response is read a byte at a time, and what
follows it goes into the file until a read brings nothing. -/

namespace DistributedOs.Cli

open Semantics
open Http.Containment (trim)

/-- A call of `http_download_with_chunk_size`, as its environment has it. The response arrives in
`pieces`, after which a read comes to `closed`; its body is all the bytes behind the head, as they
are, and `missing` those that the server has not sent. Of the bytes handed to the file, as many as
are `taken` are in it when the call returns: a write that goes beyond fails, or is still under way.
The phase begins at `phaseStart`, ends at `phaseEnd` and once more at the `completion`. -/
structure DownloadCall (F : Type) where
  fileName : Option String
  chunkSize : Nat
  existing : Option Bytes
  connect : Except String Unit
  request : Except String Unit
  pieces : List Bytes
  closed : Except String Unit
  missing : Bytes
  createDirAll : Except String Unit
  create : Except String Unit
  taken : Nat
  counter : UInt64
  begun : LocalTime
  ended : LocalTime
  later : LocalTime
  elapsed : F
  timeOffset : F
  phaseStart : F
  phaseEnd : F
  completion : F

structure Downloaded (F : Type) where
  outputFile : Option Bytes
  stored : List (TransferSession F)
  returned : Except String (TransferSession F)

/-- CR LF CR LF. -/
def headEnd : Bytes := [13, 10, 13, 10]

/-- The loop over the head. It takes 65537 bytes at most, so that as many turns are fuel enough. -/
def readHead (closed : Except String Unit) :
    Nat → Bytes → List Bytes → Except String (Bytes × List Bytes)
  | 0, _, _ => .error "Response headers too large"
  | fuel + 1, head, pieces =>
    match readSome () 1 pieces with
    | .error () =>
      match closed with
      | .ok () => .error "Connection closed while reading headers"
      | .error error => .error error
    | .ok (byte, rest) =>
      if headEnd <:+ head ++ byte then .ok (head ++ byte, rest)
      else if 65536 < (head ++ byte).length then .error "Response headers too large"
      else readHead closed fuel (head ++ byte) rest

def accepts (head : Bytes) : Bool :=
  "HTTP/1.1 200".toList.isPrefixOf (lossy head) || "HTTP/1.0 200".toList.isPrefixOf (lossy head)

/-- The number that the response announces. The call only hands it to its callback. -/
def contentLength (head : Bytes) : Option UInt64 :=
  (headerLine "content-length:".toList (lossy head)).bind fun line =>
    (line.splitOn ':')[1]?.bind fun value => parseU64 (trim value)

section
variable {F : Type}

namespace DownloadCall

/-- Everything up to the file that is made, or emptied. -/
def opens (call : DownloadCall F) : Except String (Bytes × List Bytes) := do
  call.connect
  call.request
  let (head, rest) ← readHead call.closed 65537 [] call.pieces
  if accepts head then
    call.createDirAll
    call.create
    return (head, rest)
  else throw "Server returned non-200"

def ready (call : DownloadCall F) (written : Bytes) : Except String Unit :=
  if written.length ≤ call.taken then .ok () else .error "write failed"

/-- Nothing fails up to the file. -/
structure Opens (call : DownloadCall F) (head : Bytes) (rest : List Bytes) : Prop where
  connect : call.connect = .ok ()
  request : call.request = .ok ()
  response : readHead call.closed 65537 [] call.pieces = .ok (head, rest)
  accepted : accepts head = true
  createDirAll : call.createDirAll = .ok ()
  create : call.create = .ok ()

/-- The loop over the body ends well: the buffer is empty, or the stream is not broken off by an
error and the file takes all that is handed to it but for the last read. -/
def Reads (call : DownloadCall F) (rest : List Bytes) : Prop :=
  if call.chunkSize = 0 then rest.flatten ≠ [] ∨ call.closed = .ok ()
  else
    call.closed = .ok () ∧
      ∀ index < (expectedChunks call.chunkSize (rest.flatten.length + 1) rest).length,
        ((expectedChunks call.chunkSize (rest.flatten.length + 1) rest).take index).flatten.length ≤
        call.taken

/-- All of the body arrives, it is as long as announced, and it goes into the file. -/
structure Whole (call : DownloadCall F) (head : Bytes) (rest : List Bytes) : Prop where
  arrived : call.missing = []
  buffer : call.chunkSize = 0 → rest.flatten = []
  announced : ∀ length, contentLength head = some length → rest.flatten.length = length.toNat
  taken : rest.flatten.length ≤ call.taken

section
variable [Floating F]

def session (dates : DateLibrary) (call : DownloadCall F) (total : Nat) : TransferSession F :=
  let tracker := TransferTracker.new call.counter call.begun (call.fileName.getD "downloaded.bin") 0
  let tracker := tracker.beginPhase "Streaming" call.phaseStart
  let tracker := { tracker with session := { tracker.session with originalSize := UInt64.ofNat total } }
  let tracker := tracker.recordSpeed (UInt64.ofNat total) call.elapsed call.timeOffset
  let tracker := (tracker.endPhase call.phaseEnd).call .setVerified
  tracker.complete dates call.completion call.ended call.later 0.0

def download (dates : DateLibrary) (call : DownloadCall F) : Downloaded F :=
  match call.opens with
  | .error error => { outputFile := call.existing, stored := [], returned := .error error }
  | .ok (_, rest) =>
    match readToEnd call.chunkSize call.closed call.ready rest with
    | (received, .error error) =>
      { outputFile := some (received.take call.taken), stored := [], returned := .error error }
    | (received, .ok ()) =>
      let session := call.session dates received.length
      { outputFile := some (received.take call.taken), stored := [session], returned := .ok session }

/-- A success has marked the session as verified, and left the whole body in the file, as long as
announced; a body that does not arrive to its end makes an error. -/
structure Sound (dates : DateLibrary) (call : DownloadCall F) : Prop where
  complete : ∀ session, (call.download dates).returned = .ok session →
    session.verified = true ∧ ∃ head rest, readHead call.closed 65537 [] call.pieces = .ok (head, rest) ∧
      (call.download dates).outputFile = some (rest.flatten ++ call.missing) ∧
      ∀ length, contentLength head = some length → (rest.flatten ++ call.missing).length = length.toNat
  interrupted : call.missing ≠ [] → ∃ error, (call.download dates).returned = .error error

end

variable {call : DownloadCall F} {head : Bytes} {rest : List Bytes}

theorem opens_ok_iff : call.opens = .ok (head, rest) ↔ call.Opens head rest := by
  constructor
  · intro opened
    obtain ⟨_, connect, opened⟩ := ok_of_bind opened
    obtain ⟨_, request, opened⟩ := ok_of_bind opened
    obtain ⟨⟨_, _⟩, read, opened⟩ := ok_of_bind opened
    dsimp only at opened
    split at opened
    · rename_i accepted
      obtain ⟨_, createDirAll, opened⟩ := ok_of_bind opened
      obtain ⟨_, create, opened⟩ := ok_of_bind opened
      cases opened
      exact ⟨connect, request, read, accepted, createDirAll, create⟩
    · cases opened
  · intro opened
    unfold opens
    rw [opened.connect, opened.request, opened.response, opened.createDirAll, opened.create]
    exact if_pos opened.accepted

theorem ready_eq_ok_iff : call.ready written = .ok () ↔ written.length ≤ call.taken := by
  unfold ready
  split
  · rename_i within
    exact iff_of_true rfl within
  · rename_i beyond
    exact iff_of_false nofun beyond

theorem readToEnd_ok_iff : (readToEnd call.chunkSize call.closed call.ready rest).2 = .ok () ↔
      call.Reads rest := by
  unfold Reads
  split
  · rename_i zero
    rw [zero]
    by_cases none : rest.flatten = []
    · rw [readToEnd_nil none]
      exact (or_iff_right fun some => some none).symm
    · rw [readToEnd_zero none]
      exact iff_of_true rfl (.inl none)
  · rename_i positive
    rw [readToEnd_done_iff (Nat.pos_of_ne_zero positive), and_comm]
    simp only [ready_eq_ok_iff]

theorem readToEnd_bytes (done : (readToEnd call.chunkSize call.closed call.ready rest).2 = .ok ()) :
    (readToEnd call.chunkSize call.closed call.ready rest).1 = if call.chunkSize = 0 then []
      else rest.flatten := by
  split
  · rename_i zero
    rw [zero]
    by_cases none : rest.flatten = []
    · rw [readToEnd_nil none]
    · rw [readToEnd_zero none]
  · rename_i positive
    exact readToEnd_received (Nat.pos_of_ne_zero positive) done

variable [Floating F]

theorem session_verified (total : Nat) : (call.session dates total).verified = true := by
  unfold session TransferTracker.complete
  rw [verified_finalizeSession]
  rfl

/-- How a call ends. -/
inductive Ends (dates : DateLibrary) (call : DownloadCall F) : Downloaded F → Prop where
  | refused {error : String} (unopened : ∀ head rest, ¬ call.Opens head rest) :
      Ends dates call { outputFile := call.existing, stored := [], returned := .error error }
  | broken {head content : Bytes} {rest : List Bytes} {error : String} (opens : call.Opens head rest)
      (unread : ¬ call.Reads rest) :
      Ends dates call { outputFile := some content, stored := [], returned := .error error }
  | finished {head received : Bytes} {rest : List Bytes} {session : TransferSession F}
    (opens : call.Opens head rest)
      (reads : call.Reads rest) (bytes : received = if call.chunkSize = 0 then [] else rest.flatten)
      (verified : session.verified = true) :
      Ends dates call
        { outputFile := some (received.take call.taken), stored := [session]
          returned := .ok session }

theorem download_ends (dates : DateLibrary) (call : DownloadCall F) :
    call.Ends dates (call.download dates) := by
  unfold download
  cases opened : call.opens with
  | error => exact .refused fun head rest opens => (nomatch opened.symm.trans (opens_ok_iff.mpr opens))
  | ok response =>
    obtain ⟨_, rest⟩ := response
    have opens := opens_ok_iff.mp opened
    have done := @readToEnd_ok_iff F call rest
    have bytes := @readToEnd_bytes F call rest
    dsimp only
    generalize readToEnd call.chunkSize call.closed call.ready rest = read at done bytes ⊢
    obtain ⟨received, _ | _⟩ := read
    · exact .broken opens fun reads => (nomatch done.mpr reads)
    · exact .finished opens (done.mp rfl) (bytes rfl) (call.session_verified received.length)

theorem sound_parts_iff (dates : DateLibrary) (call : DownloadCall F) :
    call.Sound dates ↔
      (∀ session, (call.download dates).returned = .ok session →
        session.verified = true ∧
        ∃ head rest, readHead call.closed 65537 [] call.pieces = .ok (head, rest) ∧
          (call.download dates).outputFile = some (rest.flatten ++ call.missing) ∧
          ∀ length, contentLength head = some length →
          (rest.flatten ++ call.missing).length = length.toNat) ∧
        (call.missing ≠ [] → ∃ error, (call.download dates).returned = .error error) :=
  ⟨fun sound => ⟨sound.complete, sound.interrupted⟩, fun ⟨complete, interrupted⟩ =>
    ⟨complete, interrupted⟩⟩

/-- A download is sound exactly when it fails, or the whole body arrives, as long as announced, and
goes into the file. -/
theorem download_sound_iff (dates : DateLibrary) (call : DownloadCall F) :
    call.Sound dates ↔ ∀ head rest, call.Opens head rest → call.Reads rest →
      call.Whole head rest := by
  rw [sound_parts_iff]
  have ends := call.download_ends dates
  generalize call.download dates = downloaded at ends ⊢
  cases ends with
  | refused unopened =>
    exact iff_of_true ⟨fun _ returned => (nomatch returned), fun _ => ⟨_, rfl⟩⟩
      fun head rest opens => absurd opens (unopened head rest)
  | @broken _ _ _ _ opens unread =>
    refine iff_of_true ⟨fun _ returned => (nomatch returned), fun _ => ⟨_, rfl⟩⟩
      fun head' rest' opens' reads => ?_
    cases opens.response.symm.trans opens'.response
    exact absurd reads unread
  | @finished head received rest session opens reads bytes verified =>
    constructor
    · rintro ⟨complete, _⟩ head' rest' opens' -
      cases opens.response.symm.trans opens'.response
      obtain ⟨-, _, _, response, stored, announced⟩ := complete session rfl
      cases opens.response.symm.trans response
      have lengths := congrArg List.length (Option.some.inj stored)
      rw [List.length_take, List.length_append, bytes] at lengths
      split at lengths
      · rw [List.length_nil, Nat.min_zero] at lengths
        have none : rest.flatten = [] := List.length_eq_zero_iff.mp (by omega)
        have arrived : call.missing = [] := List.length_eq_zero_iff.mp (by omega)
        rw [arrived, List.append_nil] at announced
        exact ⟨arrived, fun _ => none, announced, by rw [none]; exact Nat.zero_le _⟩
      · rename_i positive
        have arrived : call.missing = [] := List.length_eq_zero_iff.mp (by omega)
        rw [arrived, List.append_nil] at announced
        exact ⟨arrived, fun zero => absurd zero positive, announced, by omega⟩
    · intro whole
      have whole := whole head rest opens reads
      have all : received = rest.flatten := by
        rw [bytes]
        split
        · rename_i zero
          exact (whole.buffer zero).symm
        · rfl
      simp only [whole.arrived, List.append_nil]
      refine ⟨fun other returned => ?_, fun missing => absurd rfl missing⟩
      cases returned
      exact ⟨verified, head, rest,
        opens.response, by rw [all, List.take_of_length_le whole.taken], whole.announced⟩

end DownloadCall

end

/-- Two bytes are announced, and the connection is closed after one. -/
def closedAfterOne : DownloadCall ℚ :=
  { fileName := some "a.bin", chunkSize := 1048576, existing := none, connect := .ok (),
    request := .ok ()
    pieces := [("HTTP/1.1 200 OK\r\nContent-Length: 2\r\n\r\n".toList.map fun c =>
      UInt8.ofNat c.toNat), [7]]
    closed := .ok (), missing := [8], createDirAll := .ok (), create := .ok (), taken := 1,
      counter := 1, begun := noon
    ended := noon, later := noon, elapsed := 1, timeOffset := 1, phaseStart := 0, phaseEnd := 1000,
      completion := 1000 }

/-- Half a body is a success. -/
theorem closedAfterOne_unsound :
    (closedAfterOne.download strictDates).outputFile = some [7] ∧
      ¬ closedAfterOne.Sound strictDates := by
  have returned : (closedAfterOne.download strictDates).returned.isOk = true := by decide +kernel
  refine ⟨by decide +kernel, fun sound => ?_⟩
  obtain ⟨_, failed⟩ := sound.interrupted (List.cons_ne_nil _ _)
  rw [failed] at returned
  cases returned

end DistributedOs.Cli
