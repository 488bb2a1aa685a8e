import Mathlib.Data.List.Induction
import DistributedOs.Coordinator.TransferEngine
import DistributedOs.Http.StreamEngine
import Mathlib.Data.UInt

/-! The record that `StreamEngine` keeps of a run, from the turn that makes it to the turn that
returns, next to what the run counts in locals of its own. -/

namespace DistributedOs.Coordinator

open Semantics DistributedOs.Session DistributedOs.Transfer
open Http (Source TransferRequest RemoteTarget uploadCall uploadFile)
open Http.Uploads (TransferSessionResult)

/-- What stands at a path. Of a directory, what `read_dir` lists of it: nothing when it fails. -/
inductive PathEntry where
  | file (len : Option UInt64)
  | directory (entries : List PathEntry)
  | missing

mutual

def PathEntry.counted : PathEntry → UInt64
  | .file len => len.getD 0
  | .directory entries => dirTotalSize entries
  | .missing => 0

def dirTotalSize : List PathEntry → UInt64
  | [] => 0
  | entry :: entries => entry.counted + dirTotalSize entries

end

def fileSize : PathEntry → Option UInt64
  | .file len => len
  | .directory entries => some (dirTotalSize entries)
  | .missing => none

/-- A source, with what stands at its path when the record is made and when the loop comes to it. -/
structure ListedSource where
  source : Source
  listed : PathEntry
  reached : PathEntry
  size : source.size = (fileSize reached).getD 0

/-- Which of the two is called; a token that is cancelled already has its reason. -/
inductive StreamEntry where
  | execute
  | executeWithCancel (cancelled : Option String)

def StreamEntry.cancelled : StreamEntry → Option String
  | .execute => none
  | .executeWithCancel cancelled => cancelled

/-- `ownToken` says whether the options of the request bring a cancel token with them. -/
structure StreamRun where
  sources : List ListedSource
  destination : RemoteTarget
  direction : TransferDirection
  options : TransferOptions
  ownToken : Bool
  entry : StreamEntry

/-- A run between two of its turns. `id` is the id it has drawn, and `uploaded` counts the
sources whose upload has returned `Ok`: a history that no turn reads. -/
structure StreamState where
  id : Option String
  rest : List ListedSource
  totalBytesSent : UInt64
  totalBytesAll : UInt64
  filesCompleted : Nat
  active : AList fun _ : String => TransferHandle
  returned : Option (Except String TransferHandle)
  uploaded : Nat

/-- `active.get_mut(&id)`, where there is a record to change. -/
def StreamState.modify (state : StreamState) (change : TransferHandle → TransferHandle) :
    AList fun _ : String => TransferHandle :=
  match state.id with
  | none => state.active
  | some id =>
    match state.active.lookup id with
    | none => state.active
    | some handle => state.active.insert id (change handle)

def StreamState.pass (state : StreamState) (listed : ListedSource) (rest : List ListedSource)
    (session : TransferSessionResult) : StreamState :=
  let totalBytesSent := state.totalBytesSent + UInt64.ofNat session.bytesSent
  { state with
    rest, totalBytesSent, totalBytesAll := state.totalBytesAll + listed.source.size
    filesCompleted := state.filesCompleted + 1, uploaded := state.uploaded + 1
    active := state.modify (EngineState.addSent totalBytesSent) }

def StreamState.record (state : StreamState) : Option TransferHandle :=
  state.id.bind state.active.lookup

namespace StreamRun

def token (run : StreamRun) : Bool :=
  match run.entry with
  | .execute => run.ownToken
  | .executeWithCancel _ => true

/-- The total of the record: a source without a size does not count. -/
def total (run : StreamRun) : UInt64 :=
  (run.sources.filterMap fun listed => fileSize listed.listed).sum

/-- What the upload of one source returns; none while it has not returned. -/
def dispatch (run : StreamRun) (source : Source) : Option (Except String TransferSessionResult) :=
  match run.destination, run.direction with
  | .http .., .upload | .tcp .., .upload => (uploadFile source none run.options run.token).result
  | .http .., .download => some (.error "Download via HTTP not yet implemented in engine")
  | .tcp .., .download => some (.error "Download via TCP not yet implemented in engine")
  | .udp .., _ | .quic .., _ => some (.error "UDP/QUIC transport not yet integrated into engine")
  | .localPath _, _ => some (.error "Local transfers not supported via streaming engine")

/-- Where a call begins: a cancelled token is all it looks at, and no record is made. -/
def start (run : StreamRun) (engine : AList fun _ : String => TransferHandle)
    (id : String) : StreamState :=
  match run.entry.cancelled with
  | some reason =>
    { id := none, rest := run.sources, totalBytesSent := 0, totalBytesAll := 0, filesCompleted := 0,
      active := engine
      returned := some (.error ("cancelled: " ++ reason)), uploaded := 0 }
  | none =>
    { id := some id, rest := run.sources, totalBytesSent := 0, totalBytesAll := 0, filesCompleted := 0
      active := engine.insert id (EngineState.opening run.total run.sources.length),
        returned := none, uploaded := 0 }

/-- What is returned at the end of the loop. -/
def completed (run : StreamRun) (state : StreamState) : TransferHandle :=
  { state := .completed
    progress := { bytesSent := state.totalBytesSent, bytesTotal := state.totalBytesAll
                  filesCompleted := state.filesCompleted, filesTotal := run.sources.length } }

def turn (run : StreamRun) (state : StreamState) (_ : Unit) : Option StreamState :=
  match state.returned, state.rest with
  | some _, _ => none
  | none, [] =>
    some { state with
      active := state.modify fun handle => { handle with state := .completed }
      returned := some (.ok (run.completed state)) }
  | none, listed :: rest =>
    match run.dispatch listed.source with
    | none => none
    | some (.error error) =>
      some { state with
        active := state.modify fun handle => { handle with state := .failed error }
        returned := some (.error error) }
    | some (.ok session) => some (state.pass listed rest session)

def Reached (run : StreamRun) (engine : AList fun _ : String => TransferHandle) (id : String)
    (state : StreamState) : Prop :=
  ∃ turns, Execution run.turn anything (run.start engine id) turns state

end StreamRun

def TransferHandle.Agrees (handle : TransferHandle) : Except String TransferHandle → Prop
  | .ok returned => handle = returned
  | .error error => handle.state = .failed error

/-- What the record is to say of the run, wherever the run is. -/
structure StreamState.Sound (state : StreamState) : Prop where
  within : ∀ handle, state.record = some handle → handle.progress.bytesSent ≤ handle.progress.bytesTotal
  counted : ∀ handle, state.record = some handle → handle.progress.filesCompleted = state.uploaded
  agrees : ∀ handle, state.record = some handle → ∀ result, state.returned = some result →
    handle.Agrees result

variable {run : StreamRun} {engine : AList fun _ : String => TransferHandle} {id : String}
  {state after : StreamState}

theorem StreamState.lookup_modify (own : state.id = some id)
    (found : state.active.lookup id = some handle) (change : TransferHandle → TransferHandle) :
    (state.modify change).lookup id = some (change handle) := by
  unfold modify
  simp only [own, found]
  exact AList.lookup_insert state.active

/-- A turn ends the call, with an error or after the last source, or passes one source. -/
theorem StreamRun.turn_cases (taken : run.turn state () = some after) :
    state.returned = none ∧
      ((state.rest = [] ∧
          after = { state with
            active := state.modify fun handle => { handle with state := .completed }
            returned := some (.ok (run.completed state)) }) ∨
        (∃ listed rest error, state.rest = listed :: rest ∧
          run.dispatch listed.source = some (.error error) ∧
          after = { state with
            active := state.modify fun handle => { handle with state := .failed error }
            returned := some (.error error) }) ∨
        ∃ listed rest session, state.rest = listed :: rest ∧
        run.dispatch listed.source = some (.ok session) ∧
          after = state.pass listed rest session) := by
  unfold turn at taken
  cases returned : state.returned with
  | some =>
    rw [returned] at taken
    cases taken
  | none =>
    refine ⟨rfl, ?_⟩
    cases remaining : state.rest with
    | nil =>
      simp only [returned, remaining, Option.some.injEq] at taken
      exact .inl ⟨rfl, taken.symm⟩
    | cons listed rest =>
      simp only [returned, remaining] at taken
      rcases result : run.dispatch listed.source with _ | error | session
      · rw [result] at taken
        cases taken
      · simp only [result, Option.some.injEq] at taken
        exact .inr (.inl ⟨listed, rest, error, rfl, result, taken.symm⟩)
      · simp only [result, Option.some.injEq] at taken
        exact .inr (.inr ⟨listed, rest, session, rfl, result, taken.symm⟩)

/-- The state the record shows, from what the call has returned. -/
def reported : Option (Except String TransferHandle) → TransferStatus
  | none => .running
  | some (.ok _) => .completed
  | some (.error error) => .failed error

/-- What the record of a run holds: the sizes found at its beginning, no completed file, and
else what the run has counted. -/
structure StreamState.Kept (run : StreamRun) (id : String) (state : StreamState) : Prop where
  own : state.id = some id
  record : state.active.lookup id = some
    { state := reported state.returned
      progress := { bytesSent := state.totalBytesSent, bytesTotal := run.total, filesCompleted := 0
                    filesTotal := run.sources.length } }
  counted : state.filesCompleted = state.uploaded

theorem StreamState.Kept.turn (kept : state.Kept run id) (taken : run.turn state () = some after) :
    after.Kept run id := by
  obtain ⟨_, ⟨_, rfl⟩ | ⟨_, _, _, _, _, rfl⟩ | ⟨_, _, _, _, _, rfl⟩⟩ := StreamRun.turn_cases taken
  · exact ⟨kept.own, lookup_modify kept.own kept.record _, kept.counted⟩
  · exact ⟨kept.own, lookup_modify kept.own kept.record _, kept.counted⟩
  · exact ⟨kept.own, lookup_modify kept.own kept.record _, congrArg (· + 1) kept.counted⟩

theorem StreamState.Kept.record_eq (kept : state.Kept run id) :
    state.record = some
      { state := reported state.returned
        progress := { bytesSent := state.totalBytesSent, bytesTotal := run.total, filesCompleted := 0
                      filesTotal := run.sources.length } } := by
  rw [StreamState.record, kept.own]
  exact kept.record

theorem StreamRun.start_of_none (uncancelled : run.entry.cancelled = none) :
    run.start engine id =
      { id := some id, rest := run.sources, totalBytesSent := 0, totalBytesAll := 0,
        filesCompleted := 0
        active := engine.insert id (EngineState.opening run.total run.sources.length),
        returned := none, uploaded := 0 } := by
  unfold start
  rw [uncancelled]

theorem StreamRun.start_kept (uncancelled : run.entry.cancelled = none) :
    (run.start engine id).Kept run id := by
  rw [start_of_none uncancelled]
  exact ⟨rfl, AList.lookup_insert engine, rfl⟩

theorem StreamRun.Reached.invariant (reached : run.Reached engine id state)
    (holds : StreamState → Prop) (initially : holds (run.start engine id))
    (keeps : ∀ state after, holds state → run.turn state () = some after → holds after) :
    holds state := by
  obtain ⟨_, execution⟩ := reached
  exact execution.invariant holds (fun _ _ _ holding _ taken => keeps _ _ holding taken) initially

theorem StreamRun.Reached.kept (reached : run.Reached engine id state)
    (uncancelled : run.entry.cancelled = none) :
    state.Kept run id :=
  reached.invariant _ (start_kept uncancelled) fun _ _ kept taken => kept.turn taken

theorem StreamRun.Reached.of_cancelled (reached : run.Reached engine id state)
    (cancelled : run.entry.cancelled = some reason) : state.id = none := by
  have begins : (run.start engine id).id = none ∧ (run.start engine id).returned ≠ none := by
    unfold StreamRun.start
    rw [cancelled]
    exact ⟨rfl, nofun⟩
  refine (reached.invariant (fun state => state.id = none ∧ state.returned ≠ none) begins ?_).1
  intro _ _ ended taken
  exact absurd (turn_cases taken).1 ended.2

def StreamRun.request (run : StreamRun) : TransferRequest :=
  { sources := run.sources.map ListedSource.source, destination := run.destination,
    direction := run.direction
    options := run.options }

/-- The request is for an upload that the engine knows, and no operation of it fails or is
cancelled. -/
def StreamRun.Uploads (run : StreamRun) (source : Source) : Prop :=
  run.request.isUpload ∧ (uploadCall source none run.options run.token).Sends

def sentBytes (listed : ListedSource) : UInt64 := UInt64.ofNat listed.source.payload.length

theorem StreamRun.dispatch_ok_iff :
    (∃ session, run.dispatch source = some (.ok session)) ↔ run.Uploads source := by
  have returns := Http.Uploads.returns_ok_iff (uploadCall source none run.options run.token)
  obtain ⟨_, destination, direction, _, _, _⟩ := run
  cases destination <;> cases direction <;>
    simp [dispatch, Uploads, request, TransferRequest.isUpload, uploadFile, returns]

/-- No source has been uploaded, and only a run without sources is complete. -/
structure StreamState.Untouched (run : StreamRun) (state : StreamState) : Prop where
  uploaded : state.uploaded = 0
  sent : state.totalBytesSent = 0
  all : state.totalBytesAll = 0
  rest : state.rest = run.sources
  completed : ∀ handle, state.returned = some (.ok handle) →
    run.sources = [] ∧ handle = { state := .completed, progress := .default }

def StreamRun.UploadsNothing (run : StreamRun) : Prop :=
  ∀ first ∈ run.sources.head?, ¬ run.Uploads first.source

theorem StreamState.Untouched.turn (untouched : state.Untouched run)
    (counted : state.filesCompleted = state.uploaded) (nothing : run.UploadsNothing)
    (taken : run.turn state () = some after) : after.Untouched run := by
  obtain ⟨running, ⟨remaining, rfl⟩ | ⟨_, _, error, _, _, rfl⟩
      | ⟨listed, rest, session, remaining, passed, _⟩⟩ :=
    StreamRun.turn_cases taken
  · refine ⟨untouched.uploaded, untouched.sent, untouched.all, untouched.rest, fun handle returned => ?_⟩
    have empty : run.sources = [] := untouched.rest.symm.trans remaining
    cases returned
    refine ⟨empty, ?_⟩
    rw [StreamRun.completed, untouched.sent, untouched.all, counted, untouched.uploaded, empty]
    rfl
  · exact ⟨untouched.uploaded, untouched.sent, untouched.all, untouched.rest, nofun⟩
  · have first : listed ∈ run.sources.head? := by rw [← untouched.rest, remaining]; rfl
    exact absurd (StreamRun.dispatch_ok_iff.mp ⟨session, passed⟩) (nothing listed first)

theorem StreamRun.Reached.untouched (reached : run.Reached engine id state)
    (uncancelled : run.entry.cancelled = none) (nothing : run.UploadsNothing) :
    state.Untouched run := by
  have holding : state.Kept run id ∧ state.Untouched run := by
    refine reached.invariant (fun state => state.Kept run id ∧ state.Untouched run)
      ⟨start_kept uncancelled, ?_⟩ ?_
    · rw [start_of_none uncancelled]
      exact ⟨rfl, rfl, rfl, rfl, nofun⟩
    · rintro _ _ ⟨kept, untouched⟩ taken
      exact ⟨kept.turn taken, untouched.turn kept.counted nothing taken⟩
  exact holding.2

theorem StreamState.sound_of_untouched (kept : state.Kept run id)
    (untouched : state.Untouched run) : state.Sound := by
  have record := kept.record_eq
  refine ⟨fun handle found => ?_, fun handle found => ?_, fun handle found result returned => ?_⟩
  · cases record.symm.trans found
    rw [untouched.sent]
    exact UInt64.zero_le
  · cases record.symm.trans found
    exact untouched.uploaded.symm
  · cases record.symm.trans found
    rw [returned]
    cases result with
    | error => rfl
    | ok handle =>
      obtain ⟨empty, rfl⟩ := untouched.completed handle returned
      rw [untouched.sent, StreamRun.total, empty]
      rfl

theorem StreamRun.bytesSent_of_dispatch
    (passed : run.dispatch listed.source = some (.ok session)) :
    UInt64.ofNat session.bytesSent = sentBytes listed := by
  have sends := (dispatch_ok_iff.mp ⟨session, passed⟩).1
  obtain ⟨_, destination, _, _, _, _⟩ := run
  obtain ⟨rfl, known⟩ := sends
  cases destination with
  | http | tcp => exact congrArg UInt64.ofNat (Http.bytesSent_of_ok passed)
  | udp | quic | localPath => cases known

/-- The sources `before` are uploaded, and the run is still on its way. -/
structure StreamState.Passed (run : StreamRun) (before : List ListedSource)
    (state : StreamState) : Prop where
  split : run.sources = before ++ state.rest
  uploads : ∀ listed ∈ before, run.Uploads listed.source
  uploaded : state.uploaded = before.length
  sent : state.totalBytesSent = (before.map sentBytes).sum

theorem StreamState.Passed.next {before rest : List ListedSource} {listed : ListedSource}
    {session : TransferSessionResult} (passed : state.Passed run before)
    (remaining : state.rest = listed :: rest)
    (done : run.dispatch listed.source = some (.ok session)) :
    (state.pass listed rest session).Passed run (before ++ [listed]) := by
  refine ⟨?_, ?_, ?_, ?_⟩
  · rw [passed.split, remaining, List.append_assoc]
    rfl
  · intro other member
    rcases List.mem_append.mp member with earlier | last
    · exact passed.uploads other earlier
    · rw [List.mem_singleton.mp last]
      exact StreamRun.dispatch_ok_iff.mp ⟨session, done⟩
  · rw [List.length_append, ← passed.uploaded]
    rfl
  · simp [pass, passed.sent, StreamRun.bytesSent_of_dispatch done]

theorem StreamRun.exists_reached (engine : AList fun _ : String => TransferHandle) (id : String)
    (uncancelled : run.entry.cancelled = none)
    (split : run.sources = before ++ rest)
    (uploads : ∀ listed ∈ before, run.Uploads listed.source) :
    ∃ state, run.Reached engine id state ∧ state.returned = none ∧ state.Passed run before := by
  induction before using List.reverseRecOn generalizing rest with
  | nil =>
    refine ⟨run.start engine id, ⟨[], .done⟩, ?_⟩
    rw [start_of_none uncancelled]
    exact ⟨rfl, rfl, nofun, rfl, rfl⟩
  | append_singleton _ listed ih =>
    rw [List.append_assoc] at split
    obtain ⟨state, ⟨turns, execution⟩, running, passed⟩ :=
      ih split fun other member => uploads other (List.mem_append_left _ member)
    have remaining : state.rest = listed :: rest :=
      List.append_cancel_left (passed.split.symm.trans split)
    have last := uploads listed (List.mem_append_right _ List.mem_cons_self)
    obtain ⟨session, done⟩ := dispatch_ok_iff.mpr last
    have taken : run.turn state () = some (state.pass listed rest session) := by
      simp only [turn, running, remaining, done]
    exact ⟨state.pass listed rest session,
      ⟨turns ++ [()], execution.append (.single trivial taken)⟩, running,
      passed.next remaining done⟩

/-- The record is sound throughout exactly when the run uploads nothing: its token is
cancelled at the call, or the first upload does not end well, or there is none. -/
theorem StreamRun.record_sound_iff (run : StreamRun)
    (engine : AList fun _ : String => TransferHandle) (id : String) :
    (∀ state, run.Reached engine id state → state.Sound) ↔ run.entry.cancelled ≠ none ∨
      run.UploadsNothing := by
  constructor
  · intro sound
    by_contra uploads
    simp only [UploadsNothing, not_or, not_not, not_forall] at uploads
    obtain ⟨uncancelled, listed, first, uploads⟩ := uploads
    obtain ⟨rest, split⟩ := List.head?_eq_some_iff.mp first
    have split : run.sources = [listed] ++ rest := split
    obtain ⟨state, reached, -, passed⟩ :=
      exists_reached engine id uncancelled split (List.forall_mem_singleton.mpr uploads)
    -- one source is uploaded, and the record has none
    have counted := (sound state reached).counted _ (reached.kept uncancelled).record_eq
    rw [passed.uploaded] at counted
    cases counted
  · rintro (cancelled | nothing) state reached
    · obtain ⟨reason, cancelled⟩ := Option.ne_none_iff_exists'.mp cancelled
      have unrecorded : state.record = none := by
        rw [StreamState.record, reached.of_cancelled cancelled]; rfl
      constructor <;> rw [unrecorded] <;> exact nofun
    · cases cancelled : run.entry.cancelled with
      | some =>
        have unrecorded : state.record = none := by
          rw [StreamState.record, reached.of_cancelled cancelled]; rfl
        constructor <;> rw [unrecorded] <;> exact nofun
      | none =>
        exact StreamState.sound_of_untouched (reached.kept cancelled)
          (reached.untouched cancelled nothing)

theorem StreamRun.dispatch_eq (carries : run.token = true) (source : Source) :
    run.dispatch source = (run.request.dispatch source).result := by
  unfold dispatch TransferRequest.dispatch
  rw [carries]
  obtain ⟨_, destination, direction, _, _, _⟩ := run
  cases destination <;> cases direction <;> rfl

/-- What the loop over the request has still to give, once the run has come this far. -/
def StreamRun.toGive (run : StreamRun) (state : StreamState) :
    Option (Except String TransferProgress) :=
  match state.returned with
  | some result => some (result.map TransferHandle.progress)
  | none =>
    (run.request.dispatchAll (run.completed state).progress (state.rest.map ListedSource.source)).2

theorem StreamRun.toGive_turn (carries : run.token = true)
    (taken : run.turn state () = some after) :
    run.toGive after = run.toGive state := by
  obtain ⟨running, ⟨remaining, rfl⟩ | ⟨listed, rest, _, remaining, result, rfl⟩ |
    ⟨listed, rest, session, remaining, result, rfl⟩⟩ := turn_cases taken
  · simp only [toGive, running, remaining, List.map_nil, TransferRequest.dispatchAll]
    rfl
  · rw [dispatch_eq carries] at result
    simp only [toGive, running, remaining, List.map_cons, TransferRequest.dispatchAll, result]
    rfl
  · rw [dispatch_eq carries] at result
    simp only [toGive, StreamState.pass, running, remaining, List.map_cons,
      TransferRequest.dispatchAll, result]
    rfl

theorem StreamRun.Reached.returns (reached : run.Reached engine id state)
    (entry : run.entry = .executeWithCancel cancelled)
    (returned : state.returned = some result) :
    (run.request.executeWithCancel cancelled).2 = some (result.map TransferHandle.progress) := by
  have carries : run.token = true := by rw [StreamRun.token, entry]
  have begins : run.toGive (run.start engine id) = (run.request.executeWithCancel cancelled).2 := by
    cases cancelled with
    | some =>
      simp [toGive, start, entry, StreamEntry.cancelled, TransferRequest.executeWithCancel, Except.map]
    | none =>
      rw [start_of_none (by rw [entry]; rfl), TransferRequest.executeWithCancel, request,
        List.length_map]
      rfl
  have gives := reached.invariant
    (fun state => run.toGive state = (run.request.executeWithCancel cancelled).2) begins
    fun state after holding taken => (toGive_turn carries taken).trans holding
  rw [← gives, toGive, returned]

def oneFile : StreamRun :=
  { sources := [{ source := Http.twoBytes, listed := .file (some 2), reached := .file (some 2), size := rfl }]
    destination := .http "192.168.1.10" 18250 none, direction := .upload, options := {},
      ownToken := false, entry := .execute }

/-- The file is uploaded, and the record says that no file is completed. -/
theorem oneFile_unsound : ¬ ∀ state, oneFile.Reached ∅ "7d3c" state → state.Sound := by
  intro sound
  let uploaded := (replay oneFile.turn (oneFile.start ∅ "7d3c") [()]).getD (oneFile.start ∅ "7d3c")
  have counted := (sound uploaded ⟨[()], execution_iff_replay.mpr rfl⟩).counted _ rfl
  exact absurd counted (by decide)

end DistributedOs.Coordinator
