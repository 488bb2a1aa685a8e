import DistributedOs.Reliable.Frame
import DistributedOs.Semantics.Floating

/-! `send_streaming` with every way its operations end. A write may be short and fail, or be
left when the token is cancelled; what the stream has accepted is kept beside the result.
Progress reports, the stall backoff and the yields change nothing and are left out. -/

namespace DistributedOs.Http.SendStreaming

open Semantics Reliable

/-- How a `write_all` ends. One that fails has left out at least the last byte. -/
inductive WriteAll where
  | done
  | failed (accepted : Nat) (error : String)

/-- What a stream takes of a write that does not finish. -/
def shortOf (accepted : Nat) (bytes : Bytes) : Bytes := bytes.take (min accepted (bytes.length - 1))

def WriteAll.accepts : WriteAll → Bytes → Bytes
  | .done, bytes => bytes
  | .failed accepted _, bytes => shortOf accepted bytes

def WriteAll.result : WriteAll → Except String Unit
  | .done => .ok ()
  | .failed _ error => .error error

/-- What one turn of the loop meets. The token may be seen cancelled at the chunk boundary, or while
the chunk is being written; `frame` is the fate of the CANCEL frame then. The limit is that of
the live configuration, and `elapsed` the seconds since the write began. -/
structure Turn (F : Type) where
  cancelled : Option (Option String)
  read : Except String Unit
  interrupted : Option (Nat × Option String)
  write : WriteAll
  frame : WriteAll
  throughputLimitMbps : Option F
  elapsed : F

/-- The arguments of a call, the file at its path, and how each operation ends. -/
structure Call (F : Type) where
  header : Bytes
  file : Bytes
  fileSize : Nat
  chunkSize : Nat
  resumeOffset : Nat
  token : Bool
  headerWrite : WriteAll
  openFile : Except String Unit
  skips : Nat → Except String Unit
  turns : Nat → Turn F
  shutdown : Except String Unit

inductive Ended where
  | finished (offset : Nat) (hashed : Bytes)
  | failed (text : String)
  | panicked

inductive Returned where
  | ok (sent : Nat) (hash : String)
  | err (text : String)
  | panicked
  deriving DecidableEq

/-- Each chunk stands beside what the stream has accepted of it. -/
structure Outcome where
  head : Bytes
  chunks : List (Bytes × Bytes)
  frame : Bytes
  returned : Option Returned
  deriving DecidableEq

def Outcome.body (outcome : Outcome) : Bytes := outcome.chunks.flatMap Prod.snd

def Outcome.wire (outcome : Outcome) : Bytes := outcome.head ++ outcome.body ++ outcome.frame

def readExact (file : Bytes) (offset count : Nat) : Except String Unit → Except String Bytes
  | .error error => .error error
  | .ok () =>
    if offset + count ≤ file.length then .ok ((file.drop offset).take count) else .error "early eof"

/-- The skipped bytes, in blocks; each takes a byte at least, so their number is fuel enough. -/
def skipLoop (file : Bytes) (skips : Nat → Except String Unit) :
    Nat → Nat → Nat → Nat → Bytes → Except String Bytes
  | 0, _, _, _, hashed => .ok hashed
  | fuel + 1, index, offset, remaining, hashed =>
    if 0 < remaining then
      let toRead := min remaining 65536
      match readExact file offset toRead (skips index) with
      | .error error => .error error
      | .ok bytes =>
        skipLoop file skips fuel (index + 1) (offset + toRead) (remaining - toRead) (hashed ++ bytes)
    else .ok hashed

/-- `file_size - offset` on `u64`. -/
def left (fileSize offset : Nat) : Nat :=
  if offset ≤ fileSize then fileSize - offset else 2 ^ 64 - (offset - fileSize)

variable {F : Type}

namespace Call

def cs (call : Call F) : Nat := if 0 < call.chunkSize then call.chunkSize else 65536

/-- How many bytes the turn reads, if it is reached. -/
def chunkLength (call : Call F) (index : Nat) : Nat :=
  min (left call.fileSize call.resumeOffset - index * call.cs) call.cs

/-- Where it reads them. -/
def chunkOffset (call : Call F) (index : Nat) : Nat :=
  call.resumeOffset + min (index * call.cs) (left call.fileSize call.resumeOffset)

/-- What it reads. -/
def chunk (call : Call F) (index : Nat) : Bytes :=
  (call.file.drop (call.chunkOffset index)).take (call.chunkLength index)

def content (call : Call F) : Bytes :=
  (call.file.drop call.resumeOffset).take (left call.fileSize call.resumeOffset)

/-- What comes before the loop: the header, which only the start of a file has, then the skipped
part. -/
def prepare (call : Call F) : Except String Bytes := do
  if call.resumeOffset = 0 then call.headerWrite.result
  call.openFile
  skipLoop call.file call.skips call.resumeOffset 0 0 call.resumeOffset []

def uncancelled (call : Call F) (index : Nat) : Prop :=
  call.token = true → (call.turns index).cancelled = none

/-- The chunk can be read, and the token is not seen cancelled while it is written. -/
structure Reads (call : Call F) (index : Nat) : Prop where
  read : (call.turns index).read = .ok ()
  within : call.chunkOffset index + call.chunkLength index ≤ call.file.length
  uninterrupted : call.token = true → (call.turns index).interrupted = none

/-- Nothing in this turn fails that the loop looks at: with a token, not the write. -/
structure Proceeds (call : Call F) (index : Nat) : Prop where
  uncancelled : call.uncancelled index
  reads : call.chunkLength index ≠ 0 → call.Reads index
  written : call.chunkLength index ≠ 0 → call.token = false → (call.turns index).write = .done

end Call

/-- What the call is to report: `Ok` only with every chunk of the body taken whole by the stream,
and an error for every write that failed. -/
structure Outcome.Reports (outcome : Outcome) (call : Call F) : Prop where
  complete : ∀ sent hash, outcome.returned = some (.ok sent hash) →
    (∀ chunk ∈ outcome.chunks, chunk.2 = chunk.1) ∧ outcome.body = call.content
  header : call.resumeOffset = 0 → call.headerWrite ≠ .done → ∃ text, outcome.returned = some (.err text)
  chunks : (∃ chunk ∈ outcome.chunks, chunk.2 ≠ chunk.1) → ∃ text, outcome.returned = some (.err text)

section
variable [Floating F]

/-- What `Duration::from_secs_f64` takes; at anything else it panics. -/
def representable (secs : F) : Prop := (0.0 : F) ≤ secs ∧ secs < (18446744073709551616.0 : F)

instance (secs : F) : Decidable (representable secs) := inferInstanceAs (Decidable (_ ∧ _))

/-- How long the bytes are to take at a limit in megabits per second. -/
def targetTime (limit : F) (readSize : Nat) : F :=
  (readSize : F) * (8.0 : F) / (limit * (1000000.0 : F))

/-- The pause for the rate limit, if there is one, is a duration. -/
def Turn.paced (turn : Turn F) (readSize : Nat) : Prop :=
  ∀ limit ∈ turn.throughputLimitMbps, turn.elapsed < targetTime limit readSize →
    representable (targetTime limit readSize - turn.elapsed)

instance (turn : Turn F) (readSize : Nat) : Decidable (turn.paced readSize) :=
  inferInstanceAs (Decidable (∀ limit ∈ turn.throughputLimitMbps, _))

namespace Call

def reasonOf (reason : Option String) : String := reason.getD "cancelled"

inductive Step where
  | stop (chunks : List (Bytes × Bytes)) (frame : Bytes) (ended : Ended)
  | next (chunk accepted : Bytes)

/-- With a token the write races against it, and what the write returns is dropped. -/
def iteration (call : Call F) (index offset : Nat) (hashed : Bytes) : Step :=
  let turn := call.turns index
  match if call.token then turn.cancelled else none with
  | some reason =>
    .stop [] (turn.frame.accepts (encodeCancel (reasonOf reason)))
      (match turn.frame.result with
      | .ok () => .failed ("cancelled: " ++ reasonOf reason)
      | .error error => .failed error)
  | none =>
    let readSize := min (left call.fileSize offset) call.cs
    if readSize = 0 then .stop [] [] (.finished offset hashed)
    else
      match readExact call.file offset readSize turn.read with
      | .error error => .stop [] [] (.failed error)
      | .ok buf =>
        match if call.token then turn.interrupted else none with
        | some (accepted, reason) =>
          .stop [(buf, shortOf accepted buf)] (turn.frame.accepts (encodeCancel (reasonOf reason)))
            (.failed ("cancelled: " ++ reasonOf reason))
        | none =>
          match if call.token then .ok () else turn.write.result with
          | .error error =>
            -- An error with this text is taken for the token's.
            if error = "cancelled" then
              .stop [(buf, turn.write.accepts buf)] (turn.frame.accepts (encodeCancel (reasonOf none)))
                (.failed ("cancelled: " ++ reasonOf none))
            else .stop [(buf, turn.write.accepts buf)] [] (.failed error)
          | .ok () =>
            if turn.paced readSize then .next buf (turn.write.accepts buf)
            else .stop [(buf, turn.write.accepts buf)] [] .panicked

def sendLoop (call : Call F) : Nat → Nat → Nat → Bytes → List (Bytes × Bytes) × Bytes × Option Ended
  | 0, _, _, _ => ([], [], none)
  | fuel + 1, index, offset, hashed =>
    match call.iteration index offset hashed with
    | .stop chunks frame ended => (chunks, frame, some ended)
    | .next chunk accepted =>
      let later := sendLoop call fuel (index + 1) (offset + chunk.length) (hashed ++ chunk)
      ((chunk, accepted) :: later.1, later.2)

def finish (call : Call F) (sha256 : Bytes → String) : Ended → Returned
  | .finished offset hashed =>
    match call.shutdown with
    | .ok () => .ok offset (sha256 hashed)
    | .error error => .err error
  | .failed text => .err text
  | .panicked => .panicked

/-- Every turn but the last takes a byte at least, so the bytes left are fuel enough. -/
def sendStreaming (call : Call F) (sha256 : Bytes → String) : Outcome :=
  let head := if call.resumeOffset = 0 then call.headerWrite.accepts call.header else []
  match call.prepare with
  | .error error => { head, chunks := [], frame := [], returned := some (.err error) }
  | .ok hashed =>
    let (chunks, frame, ended) :=
      call.sendLoop (left call.fileSize call.resumeOffset + 1) 0 call.resumeOffset hashed
    { head, chunks, frame, returned := ended.map (call.finish sha256) }

end Call

namespace Call

inductive Lost (call : Call F) : Nat → Prop where
  | here (unsent : call.chunkLength index ≠ 0) (lost : (call.turns index).write ≠ .done) :
    Lost call index
  | later (unsent : call.chunkLength index ≠ 0)
    (paced : (call.turns index).paced (call.chunkLength index))
      (lost : Lost call (index + 1)) : Lost call index

/-- From this turn on, no other operation fails and the token is not seen cancelled, unless a pause
for the rate limit panics first. -/
inductive Unstopped (call : Call F) : Nat → Prop where
  | ended (uncancelled : call.uncancelled index) (sent : call.chunkLength index = 0)
    (shutdown : call.shutdown = .ok ()) :
      Unstopped call index
  | panicked (uncancelled : call.uncancelled index) (unsent : call.chunkLength index ≠ 0)
    (reads : call.Reads index)
      (unpaced : ¬ (call.turns index).paced (call.chunkLength index)) : Unstopped call index
  | next (uncancelled : call.uncancelled index) (unsent : call.chunkLength index ≠ 0)
    (reads : call.Reads index)
      (paced : (call.turns index).paced (call.chunkLength index)) (later : Unstopped call (index + 1)) :
      Unstopped call index

/-- With a token, a chunk's write fails and nothing else goes wrong. -/
structure Swallows (call : Call F) : Prop where
  token : call.token = true
  prepared : ∃ hashed, call.prepare = .ok hashed
  lost : call.Lost 0
  unstopped : call.Unstopped 0

end Call

end

variable {call : Call F} {index offset fuel : Nat} {hashed chunk : Bytes} {sha256 : Bytes → String}

theorem shortOf_ne {accepted : Nat} {bytes : Bytes} (nonempty : bytes ≠ []) :
    shortOf accepted bytes ≠ bytes := by
  intro same
  have length := congrArg List.length same
  have positive := List.length_pos_iff.mpr nonempty
  rw [shortOf, List.length_take] at length
  omega

theorem WriteAll.accepts_eq_iff {write : WriteAll} {bytes : Bytes} (nonempty : bytes ≠ []) :
    write.accepts bytes = bytes ↔ write = .done := by
  cases write with
  | done => simp [accepts]
  | failed => simpa [accepts] using shortOf_ne nonempty

theorem left_add (offset more : Nat) {fileSize : Nat} (within : more ≤ left fileSize offset) :
    left fileSize (offset + more) = left fileSize offset - more := by
  unfold left at within ⊢
  by_cases before : offset ≤ fileSize
  · rw [if_pos before] at within ⊢
    rw [if_pos (by omega), Nat.sub_sub]
  · rw [if_neg before] at within ⊢
    rw [if_neg (by omega)]
    omega

namespace Call

theorem cs_pos (call : Call F) : 0 < call.cs := by
  unfold cs
  split
  · assumption
  · decide

theorem left_chunkOffset (call : Call F) (index : Nat) :
    left call.fileSize (call.chunkOffset index) = left call.fileSize call.resumeOffset -
      index * call.cs := by
  rw [chunkOffset, left_add _ _ (Nat.min_le_right _ _)]
  omega

theorem chunkOffset_succ (call : Call F) (index : Nat) :
    call.chunkOffset index + call.chunkLength index = call.chunkOffset (index + 1) := by
  unfold chunkOffset chunkLength
  rw [Nat.succ_mul]
  omega

theorem Reads.length_chunk (reads : call.Reads index) :
    (call.chunk index).length = call.chunkLength index := by
  have within := reads.within
  rw [chunk, List.length_take, List.length_drop]
  omega

theorem Reads.chunk_ne_nil (reads : call.Reads index) (unsent : call.chunkLength index ≠ 0) :
    call.chunk index ≠ [] := by
  intro empty
  rw [← reads.length_chunk, empty] at unsent
  exact unsent rfl

/-- The bytes that this turn and the later ones are to send. -/
def rest (call : Call F) (index : Nat) : Bytes :=
  (call.file.drop (call.chunkOffset index)).take (left call.fileSize call.resumeOffset - index * call.cs)

theorem rest_eq (call : Call F)
    (index : Nat) : call.rest index = call.chunk index ++ call.rest (index + 1) := by
  have shorter : left call.fileSize call.resumeOffset - (index + 1) * call.cs =
      left call.fileSize call.resumeOffset - index * call.cs - call.chunkLength index := by
    unfold chunkLength
    rw [Nat.succ_mul]
    omega
  have within : call.chunkLength index ≤ left call.fileSize call.resumeOffset - index * call.cs :=
    Nat.min_le_left _ _
  rw [rest, rest, chunk, shorter, ← call.chunkOffset_succ, ← List.drop_drop, ← List.take_add,
    Nat.add_sub_cancel' within]

theorem rest_zero (call : Call F) : call.rest 0 = call.content := by
  simp [rest, content, chunkOffset]

theorem rest_eq_nil (call : Call F) (sent : call.chunkLength index = 0) : call.rest index = [] := by
  have positive := call.cs_pos
  have none : left call.fileSize call.resumeOffset - index * call.cs = 0 := by
    unfold chunkLength at sent
    omega
  rw [rest, none, List.take_zero]

theorem chunkOffset_zero (call : Call F) : call.chunkOffset 0 = call.resumeOffset := by
  simp [chunkOffset]

theorem headerWrite_of_prepare (prepared : call.prepare = .ok hashed)
    (start : call.resumeOffset = 0) :
    call.headerWrite = .done := by
  cases header : call.headerWrite with
  | done => rfl
  | failed =>
    simp [prepare, start, header, WriteAll.result, bind, Except.bind] at prepared

theorem fuel_succ (call : Call F) (unsent : call.chunkLength index ≠ 0)
    (enough : left call.fileSize call.resumeOffset - index * call.cs < fuel + 1) :
    left call.fileSize call.resumeOffset - (index + 1) * call.cs < fuel := by
  have positive := call.cs_pos
  unfold chunkLength at unsent
  rw [Nat.succ_mul]
  omega

section
variable [Floating F]

/-- The ways a turn of the loop ends. -/
inductive Iterates (call : Call F) (index : Nat) (hashed : Bytes) : Step → Prop where
  | failed (stops : ¬ call.Proceeds index) (chunks : List (Bytes × Bytes)) (frame : Bytes)
    (text : String) :
      Iterates call index hashed (.stop chunks frame (.failed text))
  | finished (proceeds : call.Proceeds index) (sent : call.chunkLength index = 0) :
      Iterates call index hashed (.stop [] [] (.finished (call.chunkOffset index) hashed))
  | panicked (proceeds : call.Proceeds index) (unsent : call.chunkLength index ≠ 0)
      (unpaced : ¬ (call.turns index).paced (call.chunkLength index)) :
      Iterates call index hashed
        (.stop [(call.chunk index, (call.turns index).write.accepts (call.chunk index))] [] .panicked)
  | next (proceeds : call.Proceeds index) (unsent : call.chunkLength index ≠ 0)
      (paced : (call.turns index).paced (call.chunkLength index)) :
      Iterates call index hashed
        (.next (call.chunk index) ((call.turns index).write.accepts (call.chunk index)))

theorem WriteAll.result_eq_ok {write : WriteAll} : write.result = .ok () ↔ write = .done := by
  cases write <;> simp [WriteAll.result]

theorem token_none_iff {α : Type} {token : Bool} {seen : Option α} :
    (if token then seen else none) = none ↔ (token = true → seen = none) := by
  cases token <;> simp

theorem iteration_cases (call : Call F) (index : Nat) (hashed : Bytes) :
    call.Iterates index hashed (call.iteration index (call.chunkOffset index) hashed) := by
  have length : min (left call.fileSize (call.chunkOffset index)) call.cs = call.chunkLength index := by
    rw [call.left_chunkOffset, chunkLength]
  unfold iteration
  simp only [length]
  cases boundary : if call.token then (call.turns index).cancelled else none with
  | some =>
    have stops : ¬ call.Proceeds index := by
      intro proceeds
      rw [token_none_iff.mpr proceeds.uncancelled] at boundary
      cases boundary
    simp only
    split <;> exact .failed stops _ _ _
  | none =>
    have uncancelled : call.uncancelled index := token_none_iff.mp boundary
    simp only
    by_cases sent : call.chunkLength index = 0
    · rw [if_pos sent]
      exact .finished ⟨uncancelled, absurd sent, absurd sent⟩ sent
    · rw [if_neg sent]
      cases read : readExact call.file (call.chunkOffset index) (call.chunkLength index)
        (call.turns index).read with
      | error =>
        simp only
        refine .failed (fun proceeds => ?_) _ _ _
        have reads := proceeds.reads sent
        rw [reads.read, readExact, if_pos reads.within] at read
        cases read
      | ok buf =>
        obtain ⟨readable, within, same⟩ : (call.turns index).read = .ok () ∧
            call.chunkOffset index + call.chunkLength index ≤ call.file.length ∧
            buf = call.chunk index := by
          cases operation : (call.turns index).read with
          | error =>
            rw [operation, readExact] at read
            cases read
          | ok =>
            rw [operation, readExact] at read
            split at read
            · rename_i inside
              cases read
              exact ⟨rfl, inside, rfl⟩
            · cases read
        subst same
        simp only
        cases race : if call.token then (call.turns index).interrupted else none with
        | some interruption =>
          obtain ⟨_, _⟩ := interruption
          simp only
          refine .failed (fun proceeds => ?_) _ _ _
          rw [token_none_iff.mpr (proceeds.reads sent).uninterrupted] at race
          cases race
        | none =>
          have reads : call.Reads index := ⟨readable, within, token_none_iff.mp race⟩
          simp only
          cases written : if call.token then .ok () else (call.turns index).write.result with
          | error =>
            have stops : ¬ call.Proceeds index := by
              intro proceeds
              cases token : call.token with
              | true => simp [token] at written
              | false => simp [token, proceeds.written sent token, WriteAll.result] at written
            simp only
            split <;> exact .failed stops _ _ _
          | ok =>
            have proceeds : call.Proceeds index := by
              refine ⟨uncancelled, fun _ => reads, fun _ token => ?_⟩
              rw [token] at written
              exact WriteAll.result_eq_ok.mp written
            simp only
            by_cases paced : (call.turns index).paced (call.chunkLength index)
            · rw [if_pos paced]
              exact .next proceeds sent paced
            · rw [if_neg paced]
              exact .panicked proceeds sent paced

theorem sendLoop_finished (call : Call F)
    (finished : (call.sendLoop fuel index (call.chunkOffset index) hashed).2.2 =
      some (.finished offset whole)) :
    (call.sendLoop fuel index (call.chunkOffset index) hashed).1.flatMap Prod.fst =
      call.rest index ∧
      whole = hashed ++ call.rest index := by
  induction fuel generalizing index hashed with
  | zero => cases finished
  | succ _ ih =>
    have turn := call.iteration_cases index hashed
    unfold sendLoop at finished ⊢
    generalize call.iteration index (call.chunkOffset index) hashed = step at turn finished ⊢
    cases turn with
    | failed => cases finished
    | finished _ sent =>
      cases finished
      simp [call.rest_eq_nil sent]
    | panicked => cases finished
    | next proceeds unsent =>
      simp only [(proceeds.reads unsent).length_chunk, call.chunkOffset_succ] at finished ⊢
      obtain ⟨body, hash⟩ := ih finished
      rw [List.flatMap_cons, body, hash, List.append_assoc, ← call.rest_eq]
      exact ⟨rfl, rfl⟩

/-- Without a token a chunk that is not taken whole ends the loop with an error. -/
theorem sendLoop_plain (call : Call F) (token : call.token = false) (hashed : Bytes)
    (enough : left call.fileSize call.resumeOffset - index * call.cs < fuel) :
    ∃ ended, (call.sendLoop fuel index (call.chunkOffset index) hashed).2.2 = some ended ∧
      ((∃ chunk ∈ (call.sendLoop fuel index (call.chunkOffset index) hashed).1, chunk.2 ≠ chunk.1) →
        ∃ text, ended = .failed text) := by
  induction fuel generalizing index hashed with
  | zero => exact absurd enough (Nat.not_lt_zero _)
  | succ _ ih =>
    have turn := call.iteration_cases index hashed
    unfold sendLoop
    generalize call.iteration index (call.chunkOffset index) hashed = step at turn ⊢
    cases turn with
    | failed _ _ _ text => exact ⟨_, rfl, fun _ => ⟨text, rfl⟩⟩
    | finished => exact ⟨_, rfl, by simp⟩
    | panicked proceeds unsent =>
      refine ⟨_, rfl, ?_⟩
      simp [proceeds.written unsent token, WriteAll.accepts]
    | next proceeds unsent =>
      simp only [(proceeds.reads unsent).length_chunk, call.chunkOffset_succ]
      obtain ⟨ended, stopped, reported⟩ := ih (hashed ++ call.chunk index) (call.fuel_succ unsent enough)
      refine ⟨ended, stopped, ?_⟩
      rintro ⟨chunk, member, short⟩
      rcases List.mem_cons.mp member with rfl | later
      · simp [proceeds.written unsent token, WriteAll.accepts] at short
      · exact reported ⟨chunk, later, short⟩

theorem Unstopped.proceeds (unstopped : call.Unstopped index) (token : call.token = true) :
    call.Proceeds index := by
  have raced : call.token ≠ false := by simp [token]
  cases unstopped with
  | ended uncancelled sent => exact ⟨uncancelled, absurd sent, absurd sent⟩
  | panicked uncancelled _ reads =>
    exact ⟨uncancelled, fun _ => reads, fun _ untold => absurd untold raced⟩
  | next uncancelled _ reads => exact ⟨uncancelled, fun _ => reads, fun _ untold => absurd untold raced⟩

theorem unstopped_next_iff (proceeds : call.Proceeds index) (unsent : call.chunkLength index ≠ 0)
    (paced : (call.turns index).paced (call.chunkLength index)) : call.Unstopped index ↔
      call.Unstopped (index + 1) := by
  constructor
  · intro unstopped
    cases unstopped with
    | ended _ sent => exact absurd sent unsent
    | panicked _ _ _ unpaced => exact absurd paced unpaced
    | next _ _ _ _ later => exact later
  · exact .next proceeds.uncancelled unsent (proceeds.reads unsent) paced

theorem lost_next_iff (unsent : call.chunkLength index ≠ 0)
    (paced : (call.turns index).paced (call.chunkLength index)) :
    call.Lost index ↔ (call.turns index).write ≠ .done ∨ call.Lost (index + 1) := by
  constructor
  · intro lost
    cases lost with
    | here _ lost => exact .inl lost
    | later _ _ lost => exact .inr lost
  · rintro (here | later)
    · exact .here unsent here
    · exact .later unsent paced later

/-- With a token the loop does not look at its writes: whether it ends in an error has nothing to do
with them. -/
theorem sendLoop_token (call : Call F) (token : call.token = true) (sha256 : Bytes → String)
    (hashed : Bytes) (enough : left call.fileSize call.resumeOffset - index * call.cs < fuel) :
    ∃ ended, (call.sendLoop fuel index (call.chunkOffset index) hashed).2.2 = some ended ∧
      (call.Unstopped index ↔ ∀ text, call.finish sha256 ended ≠ .err text) ∧
      (call.Unstopped index →
        ((∃ chunk ∈ (call.sendLoop fuel index (call.chunkOffset index) hashed).1,
          chunk.2 ≠ chunk.1) ↔ call.Lost index)) := by
  induction fuel generalizing index hashed with
  | zero => exact absurd enough (Nat.not_lt_zero _)
  | succ _ ih =>
    have turn := call.iteration_cases index hashed
    unfold sendLoop
    generalize call.iteration index (call.chunkOffset index) hashed = step at turn ⊢
    cases turn with
    | failed stops _ _ text =>
      have stopped : ¬ call.Unstopped index := fun unstopped => stops (unstopped.proceeds token)
      exact ⟨_, rfl, iff_of_false stopped fun silent => silent text rfl, fun unstopped =>
        absurd unstopped stopped⟩
    | finished proceeds sent =>
      have notLost : ¬ call.Lost index := by
        rintro (⟨unsent, _⟩ | ⟨unsent, _⟩) <;> exact unsent sent
      refine ⟨_, rfl, ?_, fun _ => iff_of_false (by simp) notLost⟩
      cases shutdown : call.shutdown with
      | ok => simpa [finish, shutdown] using Unstopped.ended proceeds.uncancelled sent shutdown
      | error error =>
        refine iff_of_false ?_ fun silent => silent error (by simp [finish, shutdown])
        intro unstopped
        cases unstopped with
        | ended _ _ closed => simp [shutdown] at closed
        | panicked _ unsent => exact unsent sent
        | next _ unsent => exact unsent sent
    | panicked proceeds unsent unpaced =>
      have reads := proceeds.reads unsent
      refine ⟨_, rfl, iff_of_true (.panicked proceeds.uncancelled unsent reads unpaced)
        (by simp [finish]), fun _ => ?_⟩
      have own : call.Lost index ↔ (call.turns index).write ≠ .done := by
        constructor
        · intro lost
          cases lost with
          | here _ lost => exact lost
          | later _ paced => exact absurd paced unpaced
        · exact .here unsent
      rw [own]
      simpa using (WriteAll.accepts_eq_iff (reads.chunk_ne_nil unsent)).not
    | next proceeds unsent paced =>
      have reads := proceeds.reads unsent
      simp only [reads.length_chunk, call.chunkOffset_succ]
      obtain ⟨ended, stopped, silent, lost⟩ := ih (hashed ++ call.chunk index)
        (call.fuel_succ unsent enough)
      refine ⟨ended, stopped, (unstopped_next_iff proceeds unsent paced).trans silent,
        fun unstopped => ?_⟩
      rw [lost_next_iff unsent paced, ← lost ((unstopped_next_iff proceeds unsent paced).mp unstopped)]
      simpa using or_congr_left (WriteAll.accepts_eq_iff (reads.chunk_ne_nil unsent)).not

theorem sendStreaming_prepared (sha256 : Bytes → String) (prepared : call.prepare = .ok hashed) :
    ∃ chunks frame ended,
      call.sendLoop (left call.fileSize call.resumeOffset + 1) 0 (call.chunkOffset 0) hashed =
      (chunks, frame, ended) ∧
      call.sendStreaming sha256 = {
        head := if call.resumeOffset = 0 then call.headerWrite.accepts call.header else []
        chunks
        frame
        returned := ended.map (call.finish sha256) } := by
  rw [call.chunkOffset_zero]
  let looped := call.sendLoop (left call.fileSize call.resumeOffset + 1) 0 call.resumeOffset hashed
  refine ⟨looped.1, looped.2.1, looped.2.2, rfl, ?_⟩
  rw [sendStreaming, prepared]

theorem body_of_whole {sent : Nat} {digest : String} (prepared : call.prepare = .ok hashed)
    (returned : (call.sendStreaming sha256).returned = some (.ok sent digest))
    (whole : ∀ chunk ∈ (call.sendStreaming sha256).chunks, chunk.2 = chunk.1) :
    (call.sendStreaming sha256).body = call.content := by
  obtain ⟨_, _, _, looped, outcome⟩ := call.sendStreaming_prepared sha256 prepared
  rw [outcome] at returned whole ⊢
  obtain ⟨last, rfl, finish⟩ := Option.map_eq_some_iff.mp returned
  cases last with
  | finished =>
    have body := (call.sendLoop_finished (congrArg (·.2.2) looped)).1
    rw [looped, rest_zero] at body
    rw [Outcome.body, ← body]
    exact List.flatMap_congr whole
  | failed => cases finish
  | panicked => cases finish

/-- A failed write goes unreported exactly when there is a token and nothing else goes wrong. -/
theorem reports_iff (call : Call F) (sha256 : Bytes → String) :
    (call.sendStreaming sha256).Reports call ↔ ¬ call.Swallows := by
  cases prepared : call.prepare with
  | error error =>
    have early : (call.sendStreaming sha256).returned = some (.err error) ∧
        (call.sendStreaming sha256).chunks = [] := by
      simp [sendStreaming, prepared]
    refine iff_of_true ⟨?_, fun _ _ => ⟨error, early.1⟩, fun _ => ⟨error, early.1⟩⟩ ?_
    · intro sent _ returned
      rw [early.1] at returned
      cases returned
    · rintro ⟨_, ⟨hashed, again⟩, _, _⟩
      simp [prepared] at again
  | ok hashed =>
    obtain ⟨chunks, _, ended, looped, outcome⟩ := call.sendStreaming_prepared sha256 prepared
    have header : call.resumeOffset = 0 → call.headerWrite ≠ .done →
        ∃ text, (call.sendStreaming sha256).returned = some (.err text) :=
      fun start short => absurd (headerWrite_of_prepare prepared start) short
    have complete : (∀ sent digest, (call.sendStreaming sha256).returned = some (.ok sent digest) →
        ¬ ∃ chunk ∈ (call.sendStreaming sha256).chunks, chunk.2 ≠ chunk.1) →
        ∀ sent digest, (call.sendStreaming sha256).returned = some (.ok sent digest) →
          (∀ chunk ∈ (call.sendStreaming sha256).chunks, chunk.2 = chunk.1) ∧
            (call.sendStreaming sha256).body = call.content := by
      intro noneShort sent digest returned
      have whole : ∀ chunk ∈ (call.sendStreaming sha256).chunks, chunk.2 = chunk.1 := by
        simpa using noneShort sent digest returned
      exact ⟨whole, body_of_whole prepared returned whole⟩
    have enough : left call.fileSize call.resumeOffset - 0 * call.cs <
        left call.fileSize call.resumeOffset + 1 := by omega
    cases token : call.token with
    | false =>
      obtain ⟨last, stopped, short⟩ := call.sendLoop_plain token hashed enough
      rw [looped] at stopped short
      simp only at stopped short
      have reported : (∃ chunk ∈ (call.sendStreaming sha256).chunks, chunk.2 ≠ chunk.1) →
          ∃ text, (call.sendStreaming sha256).returned = some (.err text) := by
        rw [outcome]
        intro lost
        obtain ⟨text, rfl⟩ := short lost
        exact ⟨text, by rw [stopped]; rfl⟩
      refine iff_of_true ⟨complete fun sent digest returned lost => ?_, header, reported⟩
        fun swallows => ?_
      · obtain ⟨text, failed⟩ := reported lost
        rw [failed] at returned
        cases returned
      · exact absurd (token.symm.trans swallows.token) nofun
    | true =>
      obtain ⟨last, stopped, silent, lost⟩ := call.sendLoop_token token sha256 hashed enough
      rw [looped] at stopped lost
      simp only at stopped lost
      have returned : (call.sendStreaming sha256).returned = some (call.finish sha256 last) := by
        rw [outcome, stopped]
        rfl
      have short : (∃ chunk ∈ (call.sendStreaming sha256).chunks, chunk.2 ≠ chunk.1) ↔
          ∃ chunk ∈ chunks, chunk.2 ≠ chunk.1 := by
        rw [outcome]
      constructor
      · rintro reports ⟨_, _, lostHere, unstopped⟩
        obtain ⟨text, failed⟩ := reports.chunks (short.mpr ((lost unstopped).mpr lostHere))
        exact silent.mp unstopped text (Option.some.inj (returned.symm.trans failed))
      · intro unswallowed
        have stops : (∃ chunk ∈ (call.sendStreaming sha256).chunks, chunk.2 ≠ chunk.1) →
            ¬ call.Unstopped 0 :=
          fun lostOne unstopped =>
            unswallowed ⟨token, ⟨hashed, prepared⟩, (lost unstopped).mp (short.mp lostOne), unstopped⟩
        refine ⟨complete fun sent digest ended lostOne => ?_, header, fun lostOne => ?_⟩
        · have quiet : call.finish sha256 last = .ok sent digest :=
            Option.some.inj (returned.symm.trans ended)
          exact stops lostOne (silent.mpr fun text failed => by rw [quiet] at failed; cases failed)
        · by_contra noText
          refine stops lostOne (silent.mpr fun text failed => noText ⟨text, ?_⟩)
          rw [returned, failed]

/-- A file of one byte whose only write fails, sent with a token: the call returns `Ok`. -/
theorem lost_write_is_ok : ∃ call : Call Rat, ¬ (call.sendStreaming fun _ => "").Reports call := by
  let write : WriteAll := .failed 0 "Broken pipe (os error 32)"
  let turn : Turn Rat := {
    cancelled := none, read := .ok (), interrupted := none, write, frame := .done
    throughputLimitMbps := none, elapsed := 0 }
  let call : Call Rat := {
    header := [80, 79, 83, 84], file := [7], fileSize := 1, chunkSize := 65536,
      resumeOffset := 0, token := true
    headerWrite := .done, openFile := .ok (), skips := fun _ => .ok (), turns := fun _ =>
      turn, shutdown := .ok () }
  have sent : call.sendStreaming (fun _ => "") = {
      head := [80, 79, 83, 84], chunks := [([7], [])], frame := [], returned := some (.ok 1 "") } := by
    decide
  refine ⟨call, fun reports => ?_⟩
  rw [sent] at reports
  exact absurd ((reports.complete 1 "" rfl).1 ([7], []) (List.mem_singleton_self _)) nofun

end

end Call

end DistributedOs.Http.SendStreaming
