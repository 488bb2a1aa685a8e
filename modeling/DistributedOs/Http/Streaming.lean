import DistributedOs.Reliable.Frame

/-! `send_streaming` and `stream_file_receive`, the two ends of one stream. The receiver
gets what follows the header and takes every byte up to the end of the stream for content,
also the CANCEL frame a cancelled sender writes there. -/

namespace DistributedOs.Http

open Semantics Reliable

/-- One turn of the send loop: the chunk is written, or the token is seen cancelled at the
chunk boundary, or while `write_all` has handed over only part of the chunk. -/
inductive LoopTurn where
  | proceed
  | cancelled (reason : String)
  | interrupted (written : Nat) (reason : String)

inductive SendEnd where
  | sent
  | cancelled (reason : String)
  deriving DecidableEq

/-- What the loop has written, the bytes of the file apart from the frame after them. -/
structure Sent where
  body : Bytes
  frame : Bytes
  ended : Option SendEnd

def Sent.wire (sent : Sent) : Bytes := sent.body ++ sent.frame

/-- The loop of `send_streaming` over what it has not sent of the file. -/
def sendLoop (chunkSize : Nat) (rest : Bytes) : List LoopTurn → Sent
  | [] => { body := [], frame := [], ended := none }
  | .cancelled reason :: _ =>
    { body := [], frame := encodeCancel reason, ended := some (.cancelled reason) }
  | .proceed :: turns =>
    if rest.isEmpty then { body := [], frame := [], ended := some .sent }
    else
      let later := sendLoop chunkSize (rest.drop chunkSize) turns
      { later with body := rest.take chunkSize ++ later.body }
  | .interrupted written reason :: _ =>
    if rest.isEmpty then { body := [], frame := [], ended := some .sent }
    else
      { body := (rest.take chunkSize).take written
        frame := encodeCancel reason
        ended := some (.cancelled reason) }

def sendStreaming (header file : Bytes) (chunkSize resumeOffset : Nat)
    (turns : List LoopTurn) : Bytes × Sent :=
  (if resumeOffset = 0 then header else [],
    sendLoop (if 0 < chunkSize then chunkSize else 65536) (file.drop resumeOffset) turns)

/-- What a read of the stream returns within its 30 seconds; no bytes mean the end. -/
inductive ReadEvent where
  | read (segment : Bytes)
  | failed
  | timedOut

inductive ReceiveError where
  | failed
  | timedOut
  | checksumMismatch (expected got : String)
  | sizeMismatch (expected received : UInt64)

/-- The output file and its `.xync.part`, where they exist. -/
structure OutputFiles where
  output : Option Bytes
  part : Option Bytes

structure Received where
  part : Bytes
  total : UInt64

def Received.store (received : Received) (segment : Bytes) : Received :=
  { part := received.part ++ segment, total := received.total + UInt64.ofNat segment.length }

/-- The read loop; no result while the stream stays open. -/
def receiveLoop (received : Received) :
    List ReadEvent → Received × Option (Except ReceiveError Unit)
  | [] => (received, none)
  | .read segment :: events =>
    if segment.isEmpty then (received, some (.ok ())) else receiveLoop (received.store segment) events
  | .failed :: _ => (received, some (.error .failed))
  | .timedOut :: _ => (received, some (.error .timedOut))

variable (sha256 : Bytes → String)

def streamFileReceive (expectedSize : UInt64) (expectedChecksum : Option String)
    (files : OutputFiles) (events : List ReadEvent) :
    OutputFiles × Option (Except ReceiveError (UInt64 × String)) :=
  match receiveLoop { part := [], total := 0 } events with
  | (received, none) => ({ files with part := some received.part }, none)
  | (received, some (.error error)) => ({ files with part := some received.part }, some (.error error))
  | (received, some (.ok ())) =>
    let hash := sha256 received.part
    if expectedChecksum.any (· ≠ hash) then
      ({ files with part := none }, some (.error (.checksumMismatch (expectedChecksum.getD hash) hash)))
    else if 0 < expectedSize ∧ received.total ≠ expectedSize then
      ({ files with part := none }, some (.error (.sizeMismatch expectedSize received.total)))
    else ({ output := some received.part, part := none }, some (.ok (received.total, hash)))

/-- Reads of a stream: its bytes in order, in segments that fit the buffer, and the end
after all of them, unless a read fails or times out before. -/
inductive Reads : Bytes → List ReadEvent → Prop where
  | waiting : Reads wire []
  | segment (nonempty : bytes ≠ []) (fits : bytes.length ≤ 65536) (later : Reads rest events) :
      Reads (bytes ++ rest) (.read bytes :: events)
  | ended : Reads [] (.read [] :: events)
  | failed : Reads wire (.failed :: events)
  | timedOut : Reads wire (.timedOut :: events)

/-- However the stream is read and whatever was there before, the output file stays as it was. -/
def NeverCommits (expectedSize : UInt64) (expectedChecksum : Option String) (wire : Bytes) : Prop :=
  ∀ files events, Reads wire events →
    (streamFileReceive sha256 expectedSize expectedChecksum files events).1.output = files.output

variable {sha256} {wire body : Bytes} {received : Received} {events : List ReadEvent}
  {expectedSize : UInt64}
variable {expectedChecksum : Option String} {reason : String}

theorem store_store (received : Received) (first second : Bytes) :
    (received.store first).store second = received.store (first ++ second) := by
  simp only [Received.store, List.append_assoc, List.length_append, UInt64.ofNat_add, UInt64.add_assoc]

theorem receiveLoop_ok (reads : Reads wire events)
    (ended : receiveLoop received events = (last, some (.ok ()))) : last = received.store wire := by
  induction reads generalizing received with
  | waiting => cases ended
  | segment nonempty _ _ ih =>
    rw [receiveLoop, if_neg (by simpa using nonempty)] at ended
    rw [ih ended, store_store]
  | ended =>
    cases ended
    simp [Received.store]
  | failed => cases ended
  | timedOut => cases ended

theorem exists_reads (wire : Bytes) (received : Received) :
    ∃ events, Reads wire events ∧
      receiveLoop received events = (received.store wire, some (.ok ())) := by
  induction wire generalizing received with
  | nil =>
    refine ⟨[.read []], .ended, ?_⟩
    simp [receiveLoop, Received.store]
  | cons byte wire ih =>
    obtain ⟨events, reads, ended⟩ := ih (received.store [byte])
    have first : Reads ([byte] ++ wire) (.read [byte] :: events) := .segment (by simp) (by simp) reads
    refine ⟨_, first, ?_⟩
    rw [receiveLoop, if_neg (by simp), ended, store_store, List.singleton_append]

/-- What the receiver holds against a stream: a checksum that is not its own, or an expected
size that is not its length. -/
def Refused (sha256 : Bytes → String) (expectedSize : UInt64) (expectedChecksum : Option String)
    (wire : Bytes) :
    Prop :=
  expectedChecksum.any (· ≠ sha256 wire) = true ∨
  (0 < expectedSize ∧ UInt64.ofNat wire.length ≠ expectedSize)

theorem store_empty : Received.store { part := [], total := 0 } wire =
    { part := wire, total := UInt64.ofNat wire.length } := by
  simp [Received.store]

theorem streamFileReceive_ended
    (ended : receiveLoop { part := [], total := 0 } events =
      (Received.store { part := [], total := 0 } wire, some (.ok ()))) :
    (Refused sha256 expectedSize expectedChecksum wire →
      (streamFileReceive sha256 expectedSize expectedChecksum files events).1.output =
      files.output) ∧
    (¬ Refused sha256 expectedSize expectedChecksum wire →
      (streamFileReceive sha256 expectedSize expectedChecksum files events).1.output =
      some wire) := by
  rw [store_empty] at ended
  simp only [streamFileReceive, ended, Refused]
  by_cases mismatch : expectedChecksum.any (· ≠ sha256 wire) = true
  · rw [if_pos mismatch]
    exact ⟨fun _ => rfl, fun accepted => absurd (.inl mismatch) accepted⟩
  · rw [if_neg mismatch]
    by_cases short : 0 < expectedSize ∧ UInt64.ofNat wire.length ≠ expectedSize
    · rw [if_pos short]
      exact ⟨fun _ => rfl, fun accepted => absurd (.inr short) accepted⟩
    · rw [if_neg short]
      exact ⟨fun refused => absurd (refused.resolve_left mismatch) short, fun _ => rfl⟩

theorem streamFileReceive_unended
    (open' : ∀ last, receiveLoop { part := [], total := 0 } events ≠ (last, some (.ok ()))) :
    (streamFileReceive sha256 expectedSize expectedChecksum files events).1.output =
      files.output := by
  unfold streamFileReceive
  split
  · rfl
  · rfl
  · rename_i received ended
    exact absurd ended (open' received)

theorem neverCommits_iff :
    NeverCommits sha256 expectedSize expectedChecksum wire ↔
      Refused sha256 expectedSize expectedChecksum wire := by
  constructor
  · intro never
    by_contra accepted
    obtain ⟨events, reads, ended⟩ := exists_reads wire { part := [], total := 0 }
    have kept := never { output := none, part := none } events reads
    rw [(streamFileReceive_ended ended).2 accepted] at kept
    cases kept
  · intro refused _ events reads
    by_cases done : ∃ last, receiveLoop { part := [], total := 0 } events = (last, some (.ok ()))
    · obtain ⟨_, ended⟩ := done
      rw [receiveLoop_ok reads ended] at ended
      exact (streamFileReceive_ended ended).1 refused
    · exact streamFileReceive_unended (not_exists.mp done)

/-- What a cancelled loop leaves on the wire: a part of the file and the CANCEL frame. -/
theorem sendLoop_cancelled {turns : List LoopTurn}
    (cancelled : (sendLoop chunkSize rest turns).ended = some (.cancelled reason)) :
    (sendLoop chunkSize rest turns).frame = encodeCancel reason ∧
      (sendLoop chunkSize rest turns).body <+: rest := by
  induction turns generalizing rest with
  | nil => cases cancelled
  | cons turn _ ih =>
    cases turn with
    | cancelled =>
      cases cancelled
      exact ⟨rfl, rest, rfl⟩
    | proceed =>
      unfold sendLoop at cancelled ⊢
      split at cancelled
      · cases cancelled
      · rename_i unsent
        obtain ⟨frame, before⟩ := ih cancelled
        rw [if_neg unsent]
        refine ⟨frame, ?_⟩
        have extended := (List.prefix_append_right_inj (rest.take chunkSize)).mpr before
        rwa [List.take_append_drop] at extended
    | interrupted written =>
      unfold sendLoop at cancelled ⊢
      split at cancelled
      · cases cancelled
      · rename_i unsent
        cases cancelled
        rw [if_neg unsent]
        have chunk : rest.take chunkSize <+: rest := List.take_prefix _ _
        have part : (rest.take chunkSize).take written <+: rest.take chunkSize := List.take_prefix _ _
        exact ⟨rfl, part.trans chunk⟩

/-- The send ends with the token cancelled and not every byte of the file handed over. -/
def CancelledEarly (file : Bytes) (resumeOffset : Nat) (sent : Sent) (reason : String) : Prop :=
  sent.ended = some (.cancelled reason) ∧ resumeOffset + sent.body.length < file.length

theorem length_encodeCancel : (encodeCancel reason).length = 3 + (utf8 reason).length := by
  rw [encodeCancel, List.length_append, List.length_cons, length_toBe]

/-- A cancelled upload is never committed exactly when the checksum given is not that of the
part sent with the frame, or the size given is not its length. -/
theorem cancelled_upload_iff {header file : Bytes} {chunkSize resumeOffset : Nat}
    {turns : List LoopTurn} {sent : Sent}
    (sending : (sendStreaming header file chunkSize resumeOffset turns).2 = sent)
    (cancelled : CancelledEarly file resumeOffset sent reason) :
    NeverCommits sha256 expectedSize expectedChecksum sent.wire ↔
      expectedChecksum.any (· ≠ sha256 (sent.body ++ encodeCancel reason)) = true ∨
        (0 < expectedSize ∧
          UInt64.ofNat (sent.body.length + 3 + (utf8 reason).length) ≠ expectedSize) := by
  subst sending
  have frame : (sendStreaming header file chunkSize resumeOffset turns).2.frame = encodeCancel reason :=
    (sendLoop_cancelled cancelled.1).1
  rw [neverCommits_iff, Sent.wire, frame, Refused, List.length_append,
    length_encodeCancel, Nat.add_assoc]

/-- Two bytes, sent one at a time, and cancelled between the two. -/
def halfUpload : Sent := (sendStreaming [] [7, 8] 1 0 [.proceed, .cancelled "stop"]).2

def halfUploadSha256 (_wire : Bytes) : String :=
  "095b9487c4f09059347d95b8fe703d20e41ce6c1c04ff608c21338c81a78eaea"

/-- The checksum of the whole file is given. -/
theorem cancelled_upload_half : CancelledEarly [7, 8] 0 halfUpload "stop" ∧
    NeverCommits halfUploadSha256 2
      (some "bd7c250566c6e99f47c174b589b7551f8b0e930ed056511d1e8f653bc71d3c4a")
      halfUpload.wire := by
  refine ⟨⟨rfl, by decide⟩, (cancelled_upload_iff rfl ⟨rfl, by decide⟩).mpr (.inl ?_)⟩
  decide

/-- With no checksum and size 0 given, the byte sent and the frame after it become the file. -/
theorem cancelled_upload_committed : CancelledEarly [7, 8] 0 halfUpload "stop" ∧
    ∀ sha256, ¬ NeverCommits sha256 0 none halfUpload.wire := by
  refine ⟨⟨rfl, by decide⟩, ?_⟩
  intro _ never
  rcases neverCommits_iff.mp never with mismatch | short
  · cases mismatch
  · exact absurd short.1 (by decide)

end DistributedOs.Http
