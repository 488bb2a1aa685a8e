import DistributedOs.Http.Requests
import DistributedOs.Http.Streaming

/-! What `upload_single_file`, `upload_directory` and `upload_parallel` report of their
requests. A script says how the operations of a call end and how the receiver meets each
request; while it gives out, the call has not returned. -/

namespace DistributedOs.Http.Uploads

open Semantics Reliable

inductive Answer where
  | success
  | errorStatus (status : Nat)
  | closed
  | silent
  deriving DecidableEq

/-- A turn of a chunk loop, with the chunk size of the live configuration. The token is seen
cancelled at the chunk boundary, or while the chunk is being written. -/
structure Turn where
  chunkSize : Nat
  cancelled : Option String
  read : Except String Unit
  interrupted : Option String
  write : Except String Unit

/-- A connection, the file sent over it, and what comes back. -/
structure Stream where
  connect : Except String Unit
  header : Except String Unit
  openFile : Except String Unit
  seek : Except String Unit
  turns : List Turn
  shutdown : Except String Unit
  answer : Answer

/-- Without the speed, which is only displayed. -/
structure TransferSessionResult where
  bytesSent : Nat
  bytesTotal : Nat

/-- The requests whose header went out, with what became of them, and what the call returns. -/
structure Outcome where
  requests : List (UploadRequest × Answer)
  result : Option (Except String TransferSessionResult)

section
variable {Result : Type}

def attempt (operation : Except String Unit) (next : Option (Except String Result)) :
    Option (Except String Result) :=
  match operation with
  | .ok () => next
  | .error error => some (.error error)

@[simp] theorem attempt_success (next : Option (Except String Result)) :
    attempt (.ok ()) next = next :=
  rfl

@[simp] theorem attempt_ok (operation : Except String Unit) (next : Option (Except String Result))
    (result : Result) :
    attempt operation next = some (.ok result) ↔ operation = .ok () ∧ next = some (.ok result) := by
  cases operation <;> simp [attempt]

theorem bind_attempt_ok (loop : Option (Except String Unit)) (next : Option (Except String Result))
    (result : Result) :
    (loop.bind fun ended => attempt ended next) = some (.ok result) ↔
      loop = some (.ok ()) ∧ next = some (.ok result) := by
  cases loop <;> simp

end

/-- A chunk loop over `rest` bytes. With a cancel token the write races against it, and what
the write returns is dropped. The zip of a directory is not read from a file. -/
def sendChunks (token reads : Bool) (size : Turn → Nat)
    (rest : Nat) : List Turn → Option (Except String Unit)
  | [] => none
  | turn :: turns =>
    match if token then turn.cancelled else none with
    | some reason => some (.error ("cancelled: " ++ reason))
    | none =>
      if rest = 0 then some (.ok ())
      else
        attempt (if reads then turn.read else .ok ())
          (match if token then turn.interrupted else none with
          | some reason => some (.error ("cancelled: " ++ reason))
          | none =>
            attempt (if token then .ok () else turn.write)
              (sendChunks token reads size (rest - size turn) turns))

def Stream.requested (stream : Stream) : Bool := stream.connect.isOk && stream.header.isOk

def uploadSingleFile (displayName : String) (file : Bytes) (chunkSize : Nat) (token : Bool)
    (metadata : Except String Unit) (stream : Stream) : Outcome :=
  let cs := if 0 < chunkSize then chunkSize else 65536
  { requests :=
      if metadata.isOk && stream.requested then
        (Http.uploadSingleFile displayName file).map fun request => (request, stream.answer)
      else []
    result :=
      attempt metadata <| attempt stream.connect <| attempt stream.header <| attempt stream.openFile <|
        (sendChunks token true (fun _ => cs) file.length stream.turns).bind fun ended =>
          attempt ended <| attempt stream.shutdown <|
            some (.ok { bytesSent := file.length, bytesTotal := file.length }) }

def directoryRequest (displayName : String) (zip : Bytes) : UploadRequest :=
  { filename := urlencode (displayName ++ ".zip"), offset := none, totalSize := none, content := zip }

def uploadDirectory (displayName : String) (zipDirectory : Except String Bytes)
    (stream : Stream) : Outcome :=
  match zipDirectory with
  | .error error => { requests := [], result := some (.error error) }
  | .ok zip =>
    { requests := if stream.requested then [(directoryRequest displayName zip, stream.answer)] else []
      result :=
        attempt stream.connect <| attempt stream.header <|
          (sendChunks false false Turn.chunkSize zip.length stream.turns).bind fun ended =>
            attempt ended <| attempt stream.shutdown <|
              some (.ok { bytesSent := zip.length, bytesTotal := zip.length }) }

/-- One task of `upload_parallel`. It waits for what comes back, and drops it. -/
def parallelTask (streamLen : Nat) (stream : Stream) : Option (Except String Nat) :=
  attempt stream.connect <| attempt stream.header <| attempt stream.openFile <| attempt stream.seek <|
    (sendChunks false true Turn.chunkSize streamLen stream.turns).bind fun ended =>
      attempt ended <| attempt stream.shutdown <|
        if stream.answer = .silent then none else some (.ok streamLen)

/-- The tasks awaited one after the other. -/
def awaitAll : List (Option (Except String Nat)) → Option (Except String Nat)
  | [] => some (.ok 0)
  | none :: _ => none
  | some (.error error) :: _ => some (.error error)
  | some (.ok sent) :: handles => (awaitAll handles).map (Except.map (sent + ·))

def parts (displayName : String) (file : Bytes) (numStreams : Nat) (streams : Nat → Stream) :
    List (UploadRequest × Stream) :=
  (List.range (parallelStreams numStreams)).filterMap fun index =>
    (parallelPart displayName file (parallelStreams numStreams) index).map fun request =>
    (request, streams index)

def uploadParallel (displayName : String) (file : Bytes) (numStreams : Nat)
    (metadata : Except String Unit) (streams : Nat → Stream) : Outcome :=
  let parts := parts displayName file numStreams streams
  { requests :=
      if metadata.isOk then (parts.filter (·.2.requested)).map fun part => (part.1, part.2.answer)
      else []
    result :=
      attempt metadata <|
        (awaitAll (parts.map fun part => parallelTask part.1.content.length part.2)).map
          (Except.map fun totalSent => { bytesSent := totalSent, bytesTotal := file.length }) }

inductive Call where
  | singleFile (displayName : String) (file : Bytes) (chunkSize : Nat) (token : Bool)
    (metadata : Except String Unit)
      (stream : Stream)
  | directory (displayName : String) (zipDirectory : Except String Bytes) (stream : Stream)
  | parallel (displayName : String) (file : Bytes) (numStreams : Nat) (metadata : Except String Unit)
      (streams : Nat → Stream)

def Call.outcome : Call → Outcome
  | .singleFile displayName file chunkSize token metadata stream =>
    uploadSingleFile displayName file chunkSize token metadata stream
  | .directory displayName zipDirectory stream => uploadDirectory displayName zipDirectory stream
  | .parallel displayName file numStreams metadata streams =>
    uploadParallel displayName file numStreams metadata streams

/-- `Ok` means that there were requests, and that the receiver answered success to each. -/
def Outcome.Honest (outcome : Outcome) : Prop :=
  ∀ session, outcome.result = some (.ok session) →
    outcome.requests ≠ [] ∧ ∀ request ∈ outcome.requests, request.2 = .success

/-- No turn of the loop fails or is cancelled before the last byte is written. -/
inductive Completes (token reads : Bool) (size : Turn → Nat) : Nat → List Turn → Prop where
  | done (uncancelled : token = true → turn.cancelled = none) :
    Completes token reads size 0 (turn :: turns)
  | next (uncancelled : token = true → turn.cancelled = none) (unsent : rest ≠ 0)
      (read : reads = true → turn.read = .ok ()) (uninterrupted : token = true → turn.interrupted = none)
      (written : token = false → turn.write = .ok ())
      (later : Completes token reads size (rest - size turn) turns) :
      Completes token reads size rest (turn :: turns)

/-- Every operation of a task succeeds, and something comes back. -/
structure Stream.Finishes (streamLen : Nat) (stream : Stream) : Prop where
  connect : stream.connect = .ok ()
  header : stream.header = .ok ()
  openFile : stream.openFile = .ok ()
  seek : stream.seek = .ok ()
  sent : Completes false true Turn.chunkSize streamLen stream.turns
  shutdown : stream.shutdown = .ok ()
  answered : stream.answer ≠ .silent

/-- Every operation of the sender succeeds. -/
def Call.Sends : Call → Prop
  | .singleFile _ file chunkSize token metadata stream =>
    metadata = .ok () ∧ stream.connect = .ok () ∧ stream.header = .ok () ∧ stream.openFile = .ok () ∧
      Completes token true (fun _ => if 0 < chunkSize then chunkSize else 65536)
      file.length stream.turns ∧
      stream.shutdown = .ok ()
  | .directory _ zipDirectory stream =>
    ∃ zip, zipDirectory = .ok zip ∧ stream.connect = .ok () ∧ stream.header = .ok () ∧
      Completes false false Turn.chunkSize zip.length stream.turns ∧ stream.shutdown = .ok ()
  | .parallel displayName file numStreams metadata streams =>
    metadata = .ok () ∧
      ∀ part ∈ parts displayName file numStreams streams, part.2.Finishes part.1.content.length

/-- The receiver answers success throughout, and there is something to send in parallel. -/
def Call.Accepted : Call → Prop
  | .singleFile _ _ _ _ _ stream | .directory _ _ stream => stream.answer = .success
  | .parallel displayName file numStreams _ streams =>
    file ≠ [] ∧ ∀ part ∈ parts displayName file numStreams streams, part.2.answer = .success

variable {token reads : Bool} {size : Turn → Nat} {rest : Nat} {turns : List Turn} {stream : Stream}

theorem completes_cons :
    Completes token reads size rest (turn :: turns) ↔
      (token = true → turn.cancelled = none) ∧
        (rest = 0 ∨ (reads = true → turn.read = .ok ()) ∧ (token = true → turn.interrupted = none) ∧
          (token = false → turn.write = .ok ()) ∧
          Completes token reads size (rest - size turn) turns) := by
  constructor
  · intro completes
    cases completes with
    | done uncancelled => exact ⟨uncancelled, .inl rfl⟩
    | next uncancelled _ read uninterrupted written later =>
      exact ⟨uncancelled, .inr ⟨read, uninterrupted, written, later⟩⟩
  · rintro ⟨uncancelled, sent | ⟨read, uninterrupted, written, later⟩⟩
    · subst sent
      exact .done uncancelled
    · by_cases sent : rest = 0
      · subst sent
        exact .done uncancelled
      · exact .next uncancelled sent read uninterrupted written later

theorem sendChunks_ok_iff :
    sendChunks token reads size rest turns = some (.ok ()) ↔
      Completes token reads size rest turns := by
  induction turns generalizing rest with
  | nil =>
    refine iff_of_false (fun sent => nomatch sent) ?_
    intro completes
    cases completes
  | cons turn _ ih =>
    rw [completes_cons, sendChunks]
    cases token with
    | false =>
      by_cases sent : rest = 0
      · simp [sent]
      · cases reads <;> simp [sent, ih]
    | true =>
      cases cancelled : turn.cancelled with
      | some => simp
      | none =>
        by_cases sent : rest = 0
        · simp [sent]
        · cases interrupted : turn.interrupted <;> cases reads <;> simp [sent, ih]

def Turn.loopTurn (turn : Turn) : LoopTurn :=
  match turn.cancelled, turn.interrupted with
  | some reason, _ => .cancelled reason
  | none, some reason => .interrupted 0 reason
  | none, none => .proceed

def endResult : SendEnd → Except String Unit
  | .sent => .ok ()
  | .cancelled reason => .error ("cancelled: " ++ reason)

/-- With a token the loop ends as `sendLoop` does, however the writes end. -/
theorem sendChunks_eq_sendLoop (chunkSize : Nat) (file : Bytes) (turns : List Turn)
    (readable : ∀ turn ∈ turns, turn.read = .ok ()) :
    sendChunks true true (fun _ => chunkSize) file.length turns =
      (sendLoop chunkSize file (turns.map Turn.loopTurn)).ended.map endResult := by
  induction turns generalizing file with
  | nil => rfl
  | cons turn _ ih =>
    have later := ih (file.drop chunkSize)
      (fun other member => readable other (List.mem_cons_of_mem _ member))
    rw [List.length_drop] at later
    have read := readable turn List.mem_cons_self
    rw [sendChunks, List.map_cons]
    cases cancelled : turn.cancelled with
    | some => simp [Turn.loopTurn, cancelled, sendLoop, endResult]
    | none =>
      cases interrupted : turn.interrupted with
      | some =>
        cases file <;> simp [Turn.loopTurn, cancelled, interrupted, sendLoop, endResult, read]
      | none =>
        cases file with
        | nil => simp [Turn.loopTurn, cancelled, interrupted, sendLoop, endResult]
        | cons =>
          simp only [List.length_cons] at later
          simp [Turn.loopTurn, cancelled, interrupted, sendLoop, read, later]

theorem awaitAll_ok_iff (handles : List (Option (Except String Nat))) :
    (∃ total, awaitAll handles = some (.ok total)) ↔
      ∀ handle ∈ handles, ∃ sent, handle = some (.ok sent) := by
  induction handles with
  | nil => simp [awaitAll]
  | cons handle handles ih =>
    rw [List.forall_mem_cons, ← ih]
    rcases handle with _ | error | sent
    · simp [awaitAll]
    · simp [awaitAll]
    · rcases later : awaitAll handles with _ | error | total <;> simp [awaitAll, later, Except.map]

theorem parallelTask_ok_iff (streamLen : Nat) :
    (∃ sent, parallelTask streamLen stream = some (.ok sent)) ↔ stream.Finishes streamLen := by
  simp only [parallelTask, attempt_ok, bind_attempt_ok, sendChunks_ok_iff, exists_and_left]
  constructor
  · rintro ⟨connect, header, openFile, seek, sent, shutdown, _, answered⟩
    refine ⟨connect, header, openFile, seek, sent, shutdown, fun silent => ?_⟩
    rw [if_pos silent] at answered
    cases answered
  · rintro ⟨connect, header, openFile, seek, sent, shutdown, answered⟩
    refine ⟨connect, header, openFile, seek, sent, shutdown, streamLen, ?_⟩
    rw [if_neg answered]

theorem returns_ok_iff (call : Call) : (∃ session, call.outcome.result = some (.ok session)) ↔
      call.Sends := by
  cases call with
  | singleFile displayName file chunkSize token metadata stream =>
    simp only [Call.outcome, uploadSingleFile, attempt_ok, bind_attempt_ok, sendChunks_ok_iff,
      exists_and_left, Call.Sends]
    simp
  | directory displayName zipDirectory stream =>
    cases zipDirectory with
    | error error => simp [Call.outcome, uploadDirectory, Call.Sends]
    | ok zip =>
      simp only [Call.outcome, uploadDirectory, attempt_ok, bind_attempt_ok, sendChunks_ok_iff,
        exists_and_left,
        Call.Sends, Except.ok.injEq, exists_eq_left']
      simp
  | parallel displayName file numStreams metadata streams =>
    simp only [Call.outcome, uploadParallel, attempt_ok, exists_and_left, Call.Sends]
    refine and_congr_right fun _ => ?_
    have finished := awaitAll_ok_iff ((parts displayName file numStreams streams).map fun part =>
      parallelTask part.1.content.length part.2)
    simp only [List.forall_mem_map, parallelTask_ok_iff] at finished
    rw [← finished]
    rcases awaitAll _ with _ | error | total <;> simp [Except.map]

theorem map_parts (displayName : String) (file : Bytes) (numStreams : Nat)
    (streams : Nat → Stream) :
    (parts displayName file numStreams streams).map Prod.fst = Http.uploadParallel displayName file
      numStreams := by
  rw [parts, List.map_filterMap, Http.uploadParallel]
  congr 1
  funext index
  rw [Option.map_map]
  exact Option.map_id'

theorem parts_ne_nil_iff (displayName : String) (file : Bytes) (numStreams : Nat)
    (streams : Nat → Stream) :
    parts displayName file numStreams streams ≠ [] ↔ file ≠ [] := by
  have requests : parts displayName file numStreams streams ≠ [] ↔
      Http.uploadParallel displayName file numStreams ≠ [] := by
    rw [← map_parts displayName file numStreams streams, Ne, Ne, List.map_eq_nil_iff]
  rw [requests]
  constructor
  · rintro sent rfl
    exact sent uploadParallel_empty
  · intro content none
    have tiled := uploadParallel_tiled displayName file numStreams
    rw [none] at tiled
    obtain ⟨_, member⟩ := tiled.first (List.length_pos_iff.mpr content)
    cases member

theorem requested_of_ok (connect : stream.connect = .ok ()) (header : stream.header = .ok ()) :
    stream.requested = true := by
  rw [Stream.requested, connect, header]
  rfl

def Call.exchanges : Call → List (UploadRequest × Answer)
  | .singleFile displayName file _ _ _ stream =>
    (Http.uploadSingleFile displayName file).map fun request => (request, stream.answer)
  | .directory displayName (.ok zip) stream => [(directoryRequest displayName zip, stream.answer)]
  | .directory _ (.error _) _ => []
  | .parallel displayName file numStreams _ streams =>
    (parts displayName file numStreams streams).map fun part => (part.1, part.2.answer)

theorem requests_of_sends {call : Call} (sends : call.Sends) :
    call.outcome.requests = call.exchanges := by
  cases call with
  | singleFile =>
    obtain ⟨rfl, connect, header, _⟩ := sends
    simp [Call.outcome, uploadSingleFile, requested_of_ok connect header, Except.isOk,
      Except.toBool, Call.exchanges]
  | directory =>
    obtain ⟨_, rfl, connect, header, _⟩ := sends
    simp [Call.outcome, uploadDirectory, requested_of_ok connect header, Call.exchanges]
  | parallel displayName file numStreams _ streams =>
    obtain ⟨rfl, finishes⟩ := sends
    have all : (parts displayName file numStreams streams).filter (·.2.requested) =
        parts displayName file numStreams streams :=
      List.filter_eq_self.mpr fun part member =>
        requested_of_ok (finishes part member).connect (finishes part member).header
    simp [Call.outcome, uploadParallel, all, Except.isOk, Except.toBool, Call.exchanges]

theorem accepted_iff {call : Call} (sends : call.Sends) :
    (call.exchanges ≠ [] ∧ ∀ exchange ∈ call.exchanges, exchange.2 = .success) ↔ call.Accepted := by
  cases call with
  | singleFile =>
    simp [Call.exchanges, Http.uploadSingleFile, Call.Accepted]
  | directory =>
    obtain ⟨_, rfl, _⟩ := sends
    simp [Call.exchanges, Call.Accepted]
  | parallel displayName file numStreams _ streams =>
    rw [Call.exchanges, List.forall_mem_map, Ne, List.map_eq_nil_iff]
    exact and_congr_left fun _ => parts_ne_nil_iff displayName file numStreams streams

/-- A call is honest exactly when an operation of the sender fails or is cancelled, or the
receiver answers success throughout, to one request at least. -/
theorem honest_iff (call : Call) : call.outcome.Honest ↔ (call.Sends → call.Accepted) := by
  constructor
  · intro honest sends
    obtain ⟨session, returned⟩ := (returns_ok_iff call).mpr sends
    have answered := honest session returned
    rw [requests_of_sends sends] at answered
    exact (accepted_iff sends).mp answered
  · intro accepted session returned
    have sends := (returns_ok_iff call).mp ⟨session, returned⟩
    rw [requests_of_sends sends]
    exact (accepted_iff sends).mpr (accepted sends)

def smooth (answer : Answer) : Stream :=
  { connect := .ok (), header := .ok (), openFile := .ok (), seek := .ok ()
    turns := [
      { chunkSize := 65536, cancelled := none, read := .ok (), interrupted := none
        write := .ok () },
      { chunkSize := 65536, cancelled := none, read := .ok (), interrupted := none, write := .ok () }]
    shutdown := .ok (), answer }

/-- The receiver refuses an empty file with status 400, and the upload is reported as done. -/
theorem empty_file_dishonest :
    ¬ (Call.singleFile "empty.txt" [] 65536 false (.ok ())
      (smooth (.errorStatus 400))).outcome.Honest := by
  intro honest
  have refused := (honest { bytesSent := 0, bytesTotal := 0 } rfl).2 _ List.mem_cons_self
  cases refused

end DistributedOs.Http.Uploads
