import DistributedOs.Coordinator.Procedures
import DistributedOs.Http.StreamEngine
import DistributedOs.Transfer.Error
import Mathlib.Data.List.Infix

/-! How `start_transfer` ends, and what it makes of that for its caller and for the session. An
ending keeps apart what the texts may confuse: whether the token has stopped the run. -/

namespace DistributedOs.Http.Endings

open Semantics DistributedOs.Session DistributedOs.Transfer Uploads
open DistributedOs.Transfer.TransferError (contains toLowercase)

def bodyAfterHeaders : List Char → Option (List Char)
  | '\r' :: '\n' :: '\r' :: '\n' :: body => some body
  | _ :: rest => bodyAfterHeaders rest
  | [] => none

def firstLine (text : List Char) : Option String :=
  if text = [] then none
  else
    let line := (text.takeWhile (· ≠ '\n')).reverse
    some (String.ofList (if line.head? = some '\r' then line.tail else line).reverse)

/-- `exchange` is the text of the response, unless an operation on the connection fails. -/
def performHandshake (parsePayload : String → Except String HandshakePayload)
    (exchange : Except String String) :
    Except String HandshakePayload := do
  let resp ← exchange
  let failed := .error ("Handshake failed: " ++ (firstLine resp.toList).getD "?")
  match bodyAfterHeaders resp.toList with
  | none => failed
  | some body =>
    if contains resp.toList "200 OK" then
      match parsePayload (String.ofList body) with
      | .ok remote => .ok remote
      | .error error =>
        .error ("Handshake parse error: " ++ error ++ " — body: " ++ String.ofList (body.take 200))
    else failed

/-- The address has not been resolved, or no attempt to connect has succeeded. -/
inductive Connecting where
  | connected
  | unresolved (error : String)
  | failed (lastError : Option String)

def connectOptimized (host : String) (port : Nat) : Connecting → Except String Unit
  | .connected => .ok ()
  | .unresolved error => .error error
  | .failed lastError =>
    let msg := lastError.getD ""
    if contains msg.toList "timed out" || contains msg.toList "Connection refused" then
      .error ("Cannot reach " ++ host ++ ":" ++ toString port ++
        ". Make sure the target device is running and the port is open. (" ++ msg ++ ")")
    else .error ("Failed to connect to " ++ host ++ ":" ++ toString port ++ ": " ++ msg)

/-- Why a run has failed: its token was cancelled, and the frame that says so was written or not, or
an operation has failed. -/
inductive Failure where
  | token (reason : String) (frame : Except String Unit)
  | genuine (text : String)

def Failure.text : Failure → String
  | .token reason (.ok ()) => "cancelled: " ++ reason
  | .token _ (.error error) => error
  | .genuine text => text

section
variable {Result : Type}

def attempt (operation : Except String Unit) (next : Option (Except Failure Result)) :
    Option (Except Failure Result) :=
  match operation with
  | .ok () => next
  | .error error => some (.error (.genuine error))

/-- What the caller sees of it. -/
def seen (result : Option (Except Failure Result)) : Option (Except String Result) :=
  result.map (Except.mapError Failure.text)

end

/-- The loop of `send_streaming`. At a chunk boundary the frame has to be written before the run
ends as cancelled; during a write its fate is dropped. -/
def sendStreaming (cancelFrame : Except String Unit) (chunkSize rest : Nat) :
    List Turn → Option (Except Failure Unit)
  | [] => none
  | turn :: turns =>
    match turn.cancelled with
    | some reason => some (.error (.token reason cancelFrame))
    | none =>
      if rest = 0 then some (.ok ())
      else
        attempt turn.read
          (match turn.interrupted with
          | some reason => some (.error (.token reason (.ok ())))
          | none => sendStreaming cancelFrame chunkSize (rest - chunkSize) turns)

def uploadSingleFile (cancelFrame : Except String Unit) (file : Bytes) (chunkSize : Nat)
    (metadata : Except String Unit)
    (stream : Stream) : Option (Except Failure TransferSessionResult) :=
  let cs := if 0 < chunkSize then chunkSize else 65536
  attempt metadata <| attempt stream.connect <| attempt stream.header <| attempt stream.openFile <|
    (sendStreaming cancelFrame cs file.length stream.turns).bind fun
      | .error failure => some (.error failure)
      | .ok () =>
        attempt stream.shutdown <| some (.ok { bytesSent := file.length, bytesTotal := file.length })

/-- Only the upload of a single file looks at the token. -/
def uploadFile (cancelFrame : Except String Unit) (source : Source) (options : TransferOptions) :
    Option (Except Failure TransferSessionResult) :=
  match source.kind with
  | .file content metadata =>
    if inParallel options then (Http.uploadFile source none options true).result.map
      (Except.mapError .genuine)
    else uploadSingleFile cancelFrame content options.chunkSize metadata (source.streams 0)
  | .directory _ => (Http.uploadFile source none options true).result.map (Except.mapError .genuine)

/-- What the run meets: the answer to its handshake, the token at the two checks before the upload,
and how the operations of the upload end. -/
structure World where
  exchange : Except String String
  cancelledBeforeStart : Bool
  engineCheck : Option String
  source : Source
  connecting : Nat → Connecting
  cancelFrame : Except String Unit

inductive Ending where
  | completed
  | misaddressed (error : String)
  | handshakeFailed (error : String)
  | cancelledBeforeStart
  | failed (failure : Failure)

def World.sourceTo (world : World) (host : String) (port : Nat) : Source :=
  { world.source with
    streams := fun index =>
      { world.source.streams index with connect := connectOptimized host port (world.connecting index) } }

/-- The engine looks at the token once more, then uploads the one source. -/
def World.engineExecute (world : World) (source : Source) (options : TransferOptions) :
    Option (Except Failure TransferSessionResult) :=
  match world.engineCheck with
  | some reason => some (.error (.token reason (.ok ())))
  | none => uploadFile world.cancelFrame source options

def World.executeWithCancel (world : World) (source : Source) (options : TransferOptions) :
    Option Ending :=
  if world.cancelledBeforeStart then some .cancelledBeforeStart
  else (world.engineExecute source options).map fun
    | .ok _ => .completed
    | .error failure => .failed failure

/-- From the address on; what comes before cannot fail. -/
def World.run (world : World) (parsePayload : String → Except String HandshakePayload)
    (here : HandshakePayload) (peerAddr : String) : Option Ending :=
  match Coordinator.parseAddr peerAddr with
  | .error error => some (.misaddressed error)
  | .ok (host, port) =>
    match performHandshake parsePayload world.exchange with
    | .error error => some (.handshakeFailed error)
    | .ok remote => world.executeWithCancel (world.sourceTo host port) (negotiate here remote)

/-- What the caller gets, and the state that `start_transfer` itself leaves the session in. A
`cancel_session` that comes meanwhile records its own. -/
structure Report where
  result : Except TransferError String
  state : SessionState

/-- `update_state` of a session that is still active. -/
def updateState (state requested : SessionState) : SessionState :=
  if SessionManager.validTransition state requested then requested else state

/-- The session of a run that has got to the engine. -/
def activeState : SessionState := updateState (updateState .handshaking .negotiating) .active

def recordError (sessionError : TransferError) : Report :=
  { result := .error sessionError,
    state := updateState activeState (Coordinator.StartTransfer.errorState sessionError) }

def Ending.report (sessionId : String) : Ending → Report
  | .completed => { result := .ok sessionId, state := updateState activeState .completed }
  | .misaddressed error => { result := .error (.internal error), state := .handshaking }
  | .handshakeFailed error => { result := .error (.fromAnyhow error), state := .handshaking }
  | .cancelledBeforeStart => recordError (.cancelled "user cancelled before start")
  | .failed failure => recordError (.fromAnyhow failure.text)

def startTransfer (parsePayload : String → Except String HandshakePayload) (here : HandshakePayload)
    (sessionId peerAddr : String) (world : World) : Option Report :=
  (world.run parsePayload here peerAddr).map (Ending.report sessionId)

def Ending.byToken : Ending → Bool
  | .cancelledBeforeStart | .failed (.token ..) => true
  | _ => false

def Report.cancelled (report : Report) : Prop :=
  ∃ error, report.result = .error error ∧ error.kind = .cancelled

def Tells (report : Report) (ending : Ending) : Prop :=
  (report.cancelled ↔ ending.byToken = true) ∧ (report.state = .cancelled ↔ ending.byToken = true)

/-- The words that are looked for before a cancel. -/
def earlierWords : List String :=
  ["connection refused", "unreachable", "no route to host", "timeout", "timed out"]

/-- The text has none of the words that are looked for before a cancel. -/
def Unambiguous (text : String) : Prop :=
  ∀ word ∈ earlierWords, contains (toLowercase text) word = false

instance (text : String) : Decidable (Unambiguous text) :=
  inferInstanceAs (Decidable (∀ word ∈ earlierWords, contains (toLowercase text) word = false))

def ReadsCancelled (text : String) : Prop :=
  Unambiguous text ∧ contains (toLowercase text) "cancel" = true

instance (text : String) : Decidable (ReadsCancelled text) :=
  inferInstanceAs (Decidable (Unambiguous text ∧ contains (toLowercase text) "cancel" = true))

/-- What `start_transfer` can tell apart: a reason or a failure whose text reads as what it is. -/
def Ending.Clear : Ending → Prop
  | .completed | .misaddressed _ | .cancelledBeforeStart => True
  | .handshakeFailed error => ¬ ReadsCancelled error
  | .failed (.token reason (.ok ())) => Unambiguous reason
  | .failed (.token _ (.error error)) => ReadsCancelled error
  | .failed (.genuine text) => ¬ ReadsCancelled text

theorem contains_iff : contains text pattern = true ↔ pattern.toList <:+: text := by
  rw [contains, List.any_eq_true]
  constructor
  · rintro ⟨tail, member, starts⟩
    exact (List.isPrefixOf_iff_prefix.mp starts).isInfix.trans ((List.mem_tails _ _).mp member).isInfix
  · intro within
    obtain ⟨tail, starts, ends⟩ := List.infix_iff_prefix_suffix.mp within
    exact ⟨tail, (List.mem_tails _ _).mpr ends, List.isPrefixOf_iff_prefix.mpr starts⟩

theorem infix_append_iff {before text pattern : List Char}
    (apart : ∀ tail ∈ before.tails, tail ≠ [] → ¬ tail <+: pattern ∧ ¬ pattern <+: tail) :
    pattern <:+: before ++ text ↔ pattern <:+: text := by
  constructor
  · rintro ⟨left, right, whole⟩
    rw [List.append_assoc] at whole
    rcases List.append_eq_append_iff.mp whole with ⟨more, rfl, rest⟩ | ⟨more, rfl, rest⟩
    · by_cases empty : more = []
      · rw [empty, List.nil_append] at rest
        exact ⟨[], right, rest⟩
      · have tail : more ∈ (left ++ more).tails := (List.mem_tails _ _).mpr (List.suffix_append _ _)
        obtain ⟨notBefore, notAfter⟩ := apart more tail empty
        have starts : pattern <+: more ++ text := ⟨right, rest⟩
        rcases List.prefix_or_prefix_of_prefix starts (List.prefix_append more text) with within | beyond
        · exact absurd within notAfter
        · exact absurd beyond notBefore
    · exact ⟨more, right, by rw [List.append_assoc, ← rest]⟩
  · intro within
    exact within.trans (List.suffix_append _ _).isInfix

theorem toLowercase_append (first second : String) :
    toLowercase (first ++ second) = toLowercase first ++ toLowercase second := by
  simp [toLowercase, String.toList_append]

theorem unambiguous_cancelled_iff (reason : String) : Unambiguous ("cancelled: " ++ reason) ↔
      Unambiguous reason := by
  have apart : ∀ word ∈ earlierWords, ∀ tail ∈ (toLowercase "cancelled: ").tails, tail ≠ [] →
      ¬ tail <+: word.toList ∧ ¬ word.toList <+: tail := by decide
  unfold Unambiguous
  refine forall₂_congr fun word member => ?_
  rw [toLowercase_append, ← Bool.not_eq_true, ← Bool.not_eq_true, contains_iff, contains_iff,
    infix_append_iff (apart word member)]

theorem readsCancelled_cancelled_iff (reason : String) : ReadsCancelled ("cancelled: " ++ reason) ↔
      Unambiguous reason := by
  have begins : contains (toLowercase ("cancelled: " ++ reason)) "cancel" = true := by
    rw [toLowercase_append, contains_iff]
    exact List.IsInfix.trans (by decide) (List.prefix_append (toLowercase "cancelled: ") _).isInfix
  rw [ReadsCancelled, unambiguous_cancelled_iff, and_iff_left begins]

/-- The earlier words come first; then one word decides. -/
theorem kind_fromAnyhow_iff (text : String) : (TransferError.fromAnyhow text).kind = .cancelled ↔
      ReadsCancelled text := by
  have longer : contains (toLowercase text) "cancelled" = true →
      contains (toLowercase text) "cancel" = true := by
    rw [contains_iff, contains_iff]
    exact fun within => List.IsInfix.trans (by decide) within
  have words : Unambiguous text ↔ contains (toLowercase text) "connection refused" = false ∧
      contains (toLowercase text) "unreachable" = false ∧
      contains (toLowercase text) "no route to host" = false ∧
      contains (toLowercase text) "timeout" = false ∧
      contains (toLowercase text) "timed out" = false := by
    simp [Unambiguous, earlierWords]
  unfold TransferError.fromAnyhow ReadsCancelled
  simp only [words, Bool.or_eq_true]
  split
  · rename_i refused
    refine ⟨nofun, fun ⟨⟨first, second, third, _⟩, _⟩ => ?_⟩
    simp [first, second, third] at refused
  · rename_i reached
    simp only [not_or, Bool.not_eq_true] at reached
    split
    · rename_i late
      refine ⟨nofun, fun ⟨⟨_, _, _, first, second⟩, _⟩ => ?_⟩
      simp [first, second] at late
    · rename_i early
      simp only [not_or, Bool.not_eq_true] at early
      split
      · rename_i word
        exact ⟨fun _ => ⟨⟨reached.1.1, reached.1.2, reached.2, early.1, early.2⟩,
          word.elim longer id⟩, fun _ => rfl⟩
      · rename_i silent
        refine ⟨fun same => ?_, fun ⟨_, word⟩ => absurd (Or.inr word) silent⟩
        repeat' split at same
        all_goals cases same

@[simp] theorem cancelled_ok (sessionId : String) (state : SessionState) :
    ¬ Report.cancelled { result := .ok sessionId, state := state } := by
  rintro ⟨_, ended, _⟩
  cases ended

@[simp] theorem cancelled_error (error : TransferError) (state : SessionState) :
    Report.cancelled { result := .error error, state := state } ↔ error.kind = .cancelled := by
  simp [Report.cancelled]

theorem recordError_cancelled (error : TransferError) : (recordError error).cancelled ↔
      error.kind = .cancelled := by
  rw [recordError, cancelled_error]

theorem recordError_state (error : TransferError) : (recordError error).state = .cancelled ↔
      error.kind = .cancelled := by
  unfold recordError Coordinator.StartTransfer.errorState
  by_cases same : error.kind = .cancelled
  · rw [if_pos same]
    exact iff_of_true rfl same
  · rw [if_neg same]
    exact iff_of_false nofun same

theorem tells_failed_iff (sessionId : String) (failure : Failure) :
    Tells (Ending.report sessionId (.failed failure)) (.failed failure) ↔
      (ReadsCancelled failure.text ↔ (Ending.failed failure).byToken = true) := by
  rw [Tells, Ending.report, recordError_cancelled, recordError_state, kind_fromAnyhow_iff, and_self]

theorem tells_iff (sessionId : String) (ending : Ending) : Tells (ending.report sessionId) ending ↔
      ending.Clear := by
  cases ending with
  | completed =>
    exact iff_of_true ⟨iff_of_false (cancelled_ok _ _) nofun, iff_of_false nofun nofun⟩ trivial
  | misaddressed =>
    exact iff_of_true ⟨iff_of_false ((cancelled_error _ _).not.mpr nofun) nofun,
      iff_of_false nofun nofun⟩ trivial
  | handshakeFailed =>
    rw [Tells, Ending.report, cancelled_error, kind_fromAnyhow_iff, Ending.Clear]
    constructor
    · exact fun told reads => nomatch told.1.mp reads
    · exact fun clear => ⟨iff_of_false clear nofun, iff_of_false nofun nofun⟩
  | cancelledBeforeStart =>
    rw [Tells, Ending.report, recordError_cancelled, recordError_state]
    exact iff_of_true ⟨iff_of_true rfl rfl, iff_of_true rfl rfl⟩ trivial
  | failed failure =>
    rw [tells_failed_iff]
    cases failure with
    | genuine => simp [Failure.text, Ending.byToken, Ending.Clear]
    | token _ frame =>
      cases frame with
      | ok => simp [Failure.text, Ending.byToken, Ending.Clear, readsCancelled_cancelled_iff]
      | error => simp [Failure.text, Ending.byToken, Ending.Clear]

theorem seen_attempt {Result : Type} (operation : Except String Unit)
    (next : Option (Except Failure Result)) :
    seen (attempt operation next) = Uploads.attempt operation (seen next) := by
  cases operation with
  | ok => rfl
  | error => rfl

theorem seen_sendStreaming (chunkSize : Nat) (turns : List Turn) (rest : Nat) :
    seen (sendStreaming (.ok ()) chunkSize rest turns) = sendChunks true true
      (fun _ => chunkSize) rest turns := by
  induction turns generalizing rest with
  | nil => rfl
  | cons turn _ ih =>
    unfold sendStreaming sendChunks
    simp only [if_true, attempt_success]
    cases turn.cancelled with
    | some => rfl
    | none =>
      by_cases sent : rest = 0
      · simp only [if_pos sent]
        rfl
      · simp only [if_neg sent]
        rw [seen_attempt]
        cases turn.interrupted with
        | some => rfl
        | none => rw [ih]

theorem seen_uploadSingleFile (displayName : String) (file : Bytes) (chunkSize : Nat)
    (metadata : Except String Unit) (stream : Stream) :
    seen (uploadSingleFile (.ok ()) file chunkSize metadata stream) =
      (Uploads.uploadSingleFile displayName file chunkSize true metadata stream).result := by
  unfold uploadSingleFile Uploads.uploadSingleFile
  simp only [seen_attempt]
  rw [← seen_sendStreaming]
  congr 4
  cases sendStreaming (.ok ()) (if 0 < chunkSize then chunkSize else 65536) file.length stream.turns with
  | none => rfl
  | some ended =>
    cases ended with
    | error => rfl
    | ok => exact seen_attempt _ _

theorem seen_uploadFile (source : Source) (options : TransferOptions) :
    seen (uploadFile (.ok ()) source options) =
      (Http.uploadFile source none options true).result := by
  have genuine (result : Option (Except String TransferSessionResult)) :
      seen (result.map (Except.mapError Failure.genuine)) = result := by
    cases result with
    | none => rfl
    | some ended => cases ended <;> rfl
  unfold uploadFile
  cases kind : source.kind with
  | directory => exact genuine _
  | file =>
    by_cases parallel : inParallel options = true
    · simp only [if_pos parallel]
      exact genuine _
    · simp only [if_neg parallel]
      rw [seen_uploadSingleFile (source.displayName none)]
      simp only [Http.uploadFile, uploadCall, kind, if_neg parallel]
      rfl

/-- Whatever the texts: the report tells a cancel from a failure just when the ending is clear. -/
theorem startTransfer_tells_iff (parsePayload : String → Except String HandshakePayload)
    (here : HandshakePayload) (sessionId peerAddr : String) (world : World) (report : Report)
    (returned : startTransfer parsePayload here sessionId peerAddr world = some report) :
    ∃ ending, world.run parsePayload here peerAddr = some ending ∧
      report = ending.report sessionId ∧
      (Tells report ending ↔ ending.Clear) := by
  obtain ⟨ending, ran, rfl⟩ := Option.map_eq_some_iff.mp returned
  exact ⟨ending, ran, rfl, tells_iff sessionId ending⟩

/-- A small file, on a connection on which everything goes well but that its token may stop the
loop. -/
def sampleStream (reason : Option String) : Stream :=
  { connect := .ok (), header := .ok (), openFile := .ok (), seek := .ok ()
    turns := [
      { chunkSize := 2, cancelled := none, read := .ok (), interrupted := none, write := .ok () },
      { chunkSize := 2, cancelled := reason, read := .ok (), interrupted := none, write := .ok () }]
    shutdown := .ok (), answer := .success }

def sampleWorld (answer : String) (reason : Option String) : World :=
  { exchange := .ok answer, cancelledBeforeStart := false, engineCheck := none
    source :=
      { fileName := some "notes.txt", kind := .file [1, 2] (.ok ()), size := 2
        streams := fun _ => sampleStream reason }
    connecting := fun _ => .connected, cancelFrame := .ok () }

def sampleAnswer : String := "HTTP/1.1 200 OK\r\n\r\n{}"

def samplePayload : HandshakePayload := { features := { parallelUpload := false } }

def sampleRun (world : World) : Option Ending :=
  world.run (fun _ => .ok {}) samplePayload "192.168.1.7:8080"

def sampleTransfer (world : World) : Option Report :=
  startTransfer (fun _ => .ok {}) samplePayload "session" "192.168.1.7:8080" world

theorem startTransfer_tells_sample :
    ∃ report, sampleTransfer (sampleWorld sampleAnswer (some "user pressed stop")) = some report ∧
      report.cancelled ∧
      report.state = .cancelled := by
  obtain ⟨ending, ran, _, tells⟩ := startTransfer_tells_iff
    (fun _ => .ok {}) samplePayload "session" "192.168.1.7:8080"
    (sampleWorld sampleAnswer (some "user pressed stop"))
    (recordError (.fromAnyhow "cancelled: user pressed stop")) (by rfl)
  have stopped : ending = .failed (.token "user pressed stop" (.ok ())) := (Option.some.inj ran).symm
  subst stopped
  have told := tells.mpr (show Unambiguous "user pressed stop" by decide)
  exact ⟨_, rfl, told.1.mpr rfl, told.2.mpr rfl⟩

/-- A cancel for the reason `timeout` is reported as a timeout, and a peer that turns the handshake
down with the word in its status line is reported as a cancel. -/
theorem not_tells :
    (∃ report ending, sampleTransfer (sampleWorld sampleAnswer (some "timeout")) = some report ∧
      sampleRun (sampleWorld sampleAnswer (some "timeout")) = some ending ∧
      ending.byToken = true ∧ ¬ report.cancelled ∧ report.state = .failed) ∧
    ∃ report ending,
    sampleTransfer (sampleWorld "HTTP/1.1 503 cancelled\r\n\r\n" none) = some report ∧
      sampleRun (sampleWorld "HTTP/1.1 503 cancelled\r\n\r\n" none) = some ending ∧
      ending.byToken = false ∧ report.cancelled := by
  constructor
  · refine ⟨recordError (.fromAnyhow "cancelled: timeout"), .failed (.token "timeout" (.ok ())),
      rfl, rfl, rfl, ?_, rfl⟩
    rw [recordError_cancelled]
    decide
  · refine ⟨_, .handshakeFailed "Handshake failed: HTTP/1.1 503 cancelled", rfl, rfl, rfl, ?_⟩
    rw [Ending.report, cancelled_error]
    decide

end DistributedOs.Http.Endings
