import DistributedOs.Http.Interchange
import DistributedOs.Http.Uploads
import DistributedOs.Transfer.Handshake

/-! What `StreamEngine` makes of a transfer request, down to the requests of its uploads. -/

namespace DistributedOs.Http

open Semantics DistributedOs.Session DistributedOs.Transfer Uploads

inductive SourceKind where
  | file (content : Bytes) (metadata : Except String Unit)
  | directory (zipDirectory : Except String Bytes)

/-- A source: the last name of its path, the size the engine finds, and how its upload goes. -/
structure Source where
  fileName : Option String
  kind : SourceKind
  size : UInt64
  streams : Nat → Stream

inductive RemoteTarget where
  | http (host : String) (port : UInt16) (path : Option String)
  | tcp (host : String) (port : UInt16) (path : Option String)
  | udp (host : String) (port : UInt16)
  | quic (host : String) (port : UInt16)
  | localPath (path : String)

def RemoteTarget.path : RemoteTarget → Option String
  | .http _ _ path | .tcp _ _ path => path
  | .udp .. | .quic .. | .localPath _ => none

structure TransferRequest where
  sources : List Source
  destination : RemoteTarget
  direction : TransferDirection
  options : TransferOptions

/-- The request `start_transfer` makes of a negotiation and the offset to resume at. -/
def startTransferRequest (host : String) (port : UInt16) (source : Source) (fileName : String)
    (negotiated : TransferOptions) (resumeOffset : Option Nat) : TransferRequest :=
  { sources := [source], destination := .tcp host port (some fileName), direction := .upload
    options := { negotiated with resumeOffset := resumeOffset.getD 0 } }

def Source.ownName (source : Source) : String := source.fileName.getD "file.bin"

def Source.displayName (source : Source) (remoteFilename : Option String) : String :=
  match remoteFilename with
  | some name => if name ≠ "" then name else source.ownName
  | none => source.ownName

def inParallel (options : TransferOptions) : Bool := options.parallel && 1 < options.parallelStreams

def uploadCall (source : Source) (remoteFilename : Option String) (options : TransferOptions)
    (token : Bool) : Call :=
  let displayName := source.displayName remoteFilename
  match source.kind with
  | .directory zipDirectory => .directory displayName zipDirectory (source.streams 0)
  | .file content metadata =>
    if inParallel options then
      .parallel displayName content options.parallelStreams metadata source.streams
    else .singleFile displayName content options.chunkSize token metadata (source.streams 0)

def uploadFile (source : Source) (remoteFilename : Option String) (options : TransferOptions)
    (token : Bool) : Outcome :=
  (uploadCall source remoteFilename options token).outcome

/-- The dispatch of one source. The options carry the cancel token. -/
def TransferRequest.dispatch (req : TransferRequest) (source : Source) : Outcome :=
  match req.destination, req.direction with
  | .http .., .upload | .tcp .., .upload => uploadFile source none req.options true
  | .http .., .download =>
    { requests := [], result := some (.error "Download via HTTP not yet implemented in engine") }
  | .tcp .., .download =>
    { requests := [], result := some (.error "Download via TCP not yet implemented in engine") }
  | .udp .., _ | .quic .., _ =>
    { requests := [], result := some (.error "UDP/QUIC transport not yet integrated into engine") }
  | .localPath _, _ =>
    { requests := [], result := some (.error "Local transfers not supported via streaming engine") }

def TransferRequest.dispatchAll (req : TransferRequest) (progress : TransferProgress) :
    List Source → List Outcome × Option (Except String TransferProgress)
  | [] => ([], some (.ok progress))
  | source :: sources =>
    let outcome := req.dispatch source
    match outcome.result with
    | none => ([outcome], none)
    | some (.error error) => ([outcome], some (.error error))
    | some (.ok session) =>
      let (outcomes, result) :=
        req.dispatchAll
          { progress with
            bytesSent := progress.bytesSent + UInt64.ofNat session.bytesSent
            bytesTotal := progress.bytesTotal + source.size
            filesCompleted := progress.filesCompleted + 1 }
          sources
      (outcome :: outcomes, result)

/-- `execute_with_cancel`, for a token that may be cancelled already. -/
def TransferRequest.executeWithCancel (req : TransferRequest) (cancelled : Option String) :
    List Outcome × Option (Except String TransferProgress) :=
  match cancelled with
  | some reason => ([], some (.error ("cancelled: " ++ reason)))
  | none =>
    req.dispatchAll
      { bytesSent := 0, bytesTotal := 0, filesCompleted := 0, filesTotal := req.sources.length } req.sources

/-- The bytes a source stands for: a directory goes as its zip. -/
def Source.payload (source : Source) : Bytes :=
  match source.kind with
  | .file content _ => content
  | .directory (.ok zip) => zip
  | .directory (.error _) => []

def Source.sentName (source : Source) (path : Option String) : String :=
  match source.kind with
  | .file .. => source.displayName path
  | .directory _ => source.displayName path ++ ".zip"

/-- The source goes under the name that the path gives it, and what the receiver had of it up
to the offset and what is sent make up the whole. -/
structure SentAs (source : Source) (path : Option String) (offset : Nat)
    (requests : List UploadRequest) : Prop where
  name : ∀ request ∈ requests, request.filename = urlencode (source.sentName path)
  resumed : source.payload.take offset ++ (requests.map UploadRequest.content).flatten = source.payload

/-- An upload that ends well has sent every source as it was requested. -/
def TransferRequest.Refined (req : TransferRequest) (cancelled : Option String) : Prop :=
  ∀ progress, (req.executeWithCancel cancelled).2 = some (.ok progress) →
    List.Forall₂ (fun source outcome =>
      SentAs source req.destination.path req.options.resumeOffset (outcome.requests.map Prod.fst))
      req.sources (req.executeWithCancel cancelled).1

def TransferRequest.isUpload (req : TransferRequest) : Prop :=
  req.direction = .upload ∧
    match req.destination with
    | .http .. | .tcp .. => True
    | .udp .. | .quic .. | .localPath _ => False

/-- An empty file in parallel streams: nothing is sent. -/
def Source.unsent (source : Source) (options : TransferOptions) : Prop :=
  (∃ metadata, source.kind = .file [] metadata) ∧ inParallel options = true

/-- The path gives the source its own name, and the whole of the source is asked for. -/
def Source.asItIs (source : Source) (req : TransferRequest) : Prop :=
  (source.unsent req.options ∨ source.displayName req.destination.path = source.ownName) ∧
    (req.options.resumeOffset = 0 ∨ source.payload = [])

variable {source : Source} {options : TransferOptions} {path : Option String} {offset : Nat}
  {req : TransferRequest}

theorem urlencode_injective (same : urlencode name = urlencode other) : name = other := by
  have texts := String.ofList_inj.mp same
  have decoded := congrArg urlDecode texts
  rw [urlDecode_bytes, urlDecode_bytes] at decoded
  exact Reliable.utf8_injective (Option.some.inj decoded)

theorem Tiled.contents {requests : List UploadRequest}
    (tiled : Tiled file.length start (requests.map UploadRequest.range))
    (carries : ∀ request ∈ requests, request.Carries file) :
    (requests.map UploadRequest.content).flatten = file.drop start := by
  induction requests generalizing start with
  | nil =>
    cases tiled
    rw [List.map_nil, List.flatten_nil, List.drop_length]
  | cons request _ ih =>
    have content := (carries request List.mem_cons_self).content
    simp only [List.map_cons, UploadRequest.range] at tiled
    cases tiled with
    | next _ rest =>
      rw [List.map_cons, List.flatten_cons, ih rest fun other member =>
        carries other (List.mem_cons_of_mem _ member),
        ← List.drop_drop]
      have parts := List.take_append_drop request.content.length (file.drop request.start)
      rwa [← content] at parts

theorem uploadParallel_contents (displayName : String) (file : Bytes) (numStreams : Nat) :
    ((uploadParallel displayName file numStreams).map UploadRequest.content).flatten = file :=
  (uploadParallel_tiled displayName file numStreams).contents fun _ member =>
  uploadParallel_carries member

def callRequests (source : Source) (options : TransferOptions) : List UploadRequest :=
  (uploadCall source none options true).exchanges.map Prod.fst

theorem callRequests_file (kind : source.kind = .file content metadata) :
    callRequests source options =
      if inParallel options then uploadParallel source.ownName content options.parallelStreams
      else uploadSingleFile source.ownName content := by
  unfold callRequests uploadCall
  simp only [kind]
  split
  · rw [Call.exchanges, List.map_map, ← map_parts _ _ _ source.streams]
    rfl
  · rw [Call.exchanges, List.map_map]
    exact List.map_id _

theorem callRequests_directory (kind : source.kind = .directory (.ok zip)) :
    callRequests source options = [directoryRequest source.ownName zip] := by
  unfold callRequests uploadCall
  simp only [kind]
  rfl

theorem resumed_iff (all : sent = source.payload) :
    source.payload.take offset ++ sent = source.payload ↔ offset = 0 ∨ source.payload = [] := by
  subst all
  constructor
  · intro same
    have lengths := congrArg List.length same
    rw [List.length_append, List.length_take] at lengths
    by_cases empty : source.payload = []
    · exact .inr empty
    · have positive := List.length_pos_iff.mpr empty
      exact .inl (by omega)
  · rintro (rfl | empty)
    · rw [List.take_zero, List.nil_append]
    · rw [empty, List.take_nil, List.nil_append]

theorem sentName_eq_iff (source : Source) (path : Option String) :
    source.sentName none = source.sentName path ↔ source.displayName path = source.ownName := by
  have own : source.displayName none = source.ownName := rfl
  unfold Source.sentName
  cases source.kind with
  | file => exact ⟨Eq.symm, Eq.symm⟩
  | directory =>
    constructor
    · intro same
      exact (String.append_left_inj _).mp same.symm
    · intro same
      rw [same, own]

/-- Requests that go out under the own name of the source go out under the name asked for
exactly when there are none or the two names are the same. -/
theorem names_iff {requests : List UploadRequest}
    (own : ∀ request ∈ requests, request.filename = urlencode (source.sentName none)) :
    (∀ request ∈ requests, request.filename = urlencode (source.sentName path)) ↔
      requests = [] ∨ source.displayName path = source.ownName := by
  constructor
  · intro asked
    cases requests with
    | nil => exact .inl rfl
    | cons request =>
      have filename := own request List.mem_cons_self
      rw [asked request List.mem_cons_self] at filename
      exact .inr ((sentName_eq_iff source path).mp (urlencode_injective filename).symm)
  · rintro (rfl | same) request member
    · cases member
    · rw [own request member, (sentName_eq_iff source path).mpr same]

theorem callRequests_cases (options : TransferOptions)
    (prepared : ∀ error, source.kind ≠ .directory (.error error)) :
    (∀ request ∈ callRequests source options, request.filename = urlencode (source.sentName none)) ∧
      ((callRequests source options).map UploadRequest.content).flatten = source.payload ∧
      (callRequests source options = [] ↔ source.unsent options) := by
  cases kind : source.kind with
  | directory zipDirectory =>
    cases zipDirectory with
    | error error => exact absurd kind (prepared error)
    | ok =>
      rw [callRequests_directory kind]
      simp [directoryRequest, Source.sentName, Source.payload, Source.unsent, kind, Source.displayName]
  | file content metadata =>
    rw [callRequests_file kind]
    cases parallel : inParallel options with
    | false =>
      simp [uploadSingleFile, Source.sentName, Source.payload, Source.unsent, kind, parallel,
        Source.displayName]
    | true =>
      have sent := parts_ne_nil_iff source.ownName content options.parallelStreams source.streams
      rw [← not_iff_not, not_not, not_not, ← List.map_eq_nil_iff, map_parts] at sent
      rw [if_pos rfl]
      refine ⟨fun request member => ?_, ?_, ?_⟩
      · rw [uploadParallel_filename member, Source.sentName, kind]
        rfl
      · rw [uploadParallel_contents, Source.payload, kind]
      · rw [sent]
        constructor
        · rintro rfl
          exact ⟨⟨metadata, kind⟩, parallel⟩
        · rintro ⟨⟨_, empty⟩, _⟩
          cases kind.symm.trans empty
          rfl

theorem sentAs_iff (prepared : ∀ error, source.kind ≠ .directory (.error error)) :
    SentAs source req.destination.path req.options.resumeOffset (callRequests source req.options) ↔
      source.asItIs req := by
  obtain ⟨own, contents, unsent⟩ := callRequests_cases req.options prepared
  constructor
  · intro sent
    exact ⟨((names_iff own).mp sent.name).imp_left unsent.mp, (resumed_iff contents).mp sent.resumed⟩
  · intro asIs
    exact ⟨(names_iff own).mpr (asIs.1.imp_left unsent.mpr), (resumed_iff contents).mpr asIs.2⟩

theorem awaitAll_total (tasks : List (UploadRequest × Stream))
    (ended : awaitAll (tasks.map fun task => parallelTask task.1.content.length task.2) =
      some (.ok total)) :
    total = (tasks.map fun task => task.1.content.length).sum := by
  induction tasks generalizing total with
  | nil =>
    cases ended
    rfl
  | cons task tasks ih =>
    simp only [List.map_cons] at ended ⊢
    rcases first : parallelTask task.1.content.length task.2 with _ | error | sent
    · simp [first, awaitAll] at ended
    · simp [first, awaitAll] at ended
    · have whole : sent = task.1.content.length := by
        simp only [parallelTask, attempt_ok, bind_attempt_ok] at first
        obtain ⟨_, _, _, _, _, _, answered⟩ := first
        split at answered <;> cases answered
        rfl
      rw [first, awaitAll] at ended
      rcases later : awaitAll
        (tasks.map fun task => parallelTask task.1.content.length task.2) with _ | _ | others
      · simp [later] at ended
      · simp [later, Except.map] at ended
      · have sum : sent + others = total := by simpa [later, Except.map] using ended
        rw [← sum, ih later, whole, List.sum_cons]

/-- An upload that ends well reports the bytes of its source as sent. -/
theorem bytesSent_of_ok
    (returned : (uploadFile source path options token).result = some (.ok session)) :
    session.bytesSent = source.payload.length := by
  unfold uploadFile uploadCall at returned
  cases kind : source.kind with
  | directory zipDirectory =>
    cases zipDirectory with
    | error => simp [kind, Call.outcome, Uploads.uploadDirectory] at returned
    | ok =>
      simp only [kind, Call.outcome, Uploads.uploadDirectory, attempt_ok, bind_attempt_ok,
        Option.some.injEq,
        Except.ok.injEq] at returned
      obtain ⟨_, _, _, _, rfl⟩ := returned
      simp [Source.payload, kind]
  | file content =>
    have payload : source.payload = content := by rw [Source.payload, kind]
    rw [payload]
    cases parallel : inParallel options with
    | false =>
      simp only [kind, parallel, Bool.false_eq_true, if_false, Call.outcome,
        Uploads.uploadSingleFile, attempt_ok,
        bind_attempt_ok, Option.some.injEq, Except.ok.injEq] at returned
      obtain ⟨_, _, _, _, _, _, rfl⟩ := returned
      rfl
    | true =>
      simp only [kind, parallel, if_true, Call.outcome, Uploads.uploadParallel, attempt_ok] at returned
      obtain ⟨ended, awaited, session⟩ := Option.map_eq_some_iff.mp returned.2
      cases ended with
      | error => cases session
      | ok =>
        cases session
        have contents := congrArg List.length
          (uploadParallel_contents (source.displayName path) content options.parallelStreams)
        rw [← map_parts _ _ _ source.streams, List.length_flatten, List.map_map,
          List.map_map] at contents
        exact (awaitAll_total _ awaited).trans contents

theorem dispatchAll_ok_iff (req : TransferRequest) (progress : TransferProgress)
    (sources : List Source) :
    (∃ final, (req.dispatchAll progress sources).2 = some (.ok final)) ↔
      ∀ source ∈ sources, ∃ session, (req.dispatch source).result = some (.ok session) := by
  induction sources generalizing progress with
  | nil => simp [TransferRequest.dispatchAll]
  | cons source _ ih =>
    rw [List.forall_mem_cons, TransferRequest.dispatchAll]
    rcases result : (req.dispatch source).result with _ | _ | _
    · simp
    · simp
    · simp [ih]

theorem dispatchAll_outcomes
    (ended : ∃ final, (req.dispatchAll progress sources).2 = some (.ok final)) :
    (req.dispatchAll progress sources).1 = sources.map req.dispatch := by
  induction sources generalizing progress with
  | nil => rfl
  | cons source _ ih =>
    obtain ⟨final, ended⟩ := ended
    rw [TransferRequest.dispatchAll] at ended ⊢
    rcases result : (req.dispatch source).result with _ | _ | _
    · simp [result] at ended
    · simp [result] at ended
    · simp only [result] at ended ⊢
      rw [ih ⟨final, ended⟩, List.map_cons]

/-- A source goes out to its end when the request is for an upload that the engine knows, and
no operation of it fails. -/
def TransferRequest.Sends (req : TransferRequest) (source : Source) : Prop :=
  req.isUpload ∧ (uploadCall source none req.options true).Sends

theorem dispatch_ok_iff : (∃ session, (req.dispatch source).result = some (.ok session)) ↔
      req.Sends source := by
  have returns := returns_ok_iff (uploadCall source none req.options true)
  obtain ⟨_, destination, direction, _⟩ := req
  cases destination <;> cases direction <;>
    simp [TransferRequest.dispatch, TransferRequest.Sends, TransferRequest.isUpload, uploadFile, returns]

theorem dispatch_requests (sends : req.Sends source) :
    (req.dispatch source).requests.map Prod.fst = callRequests source req.options := by
  have requests := requests_of_sends sends.2
  obtain ⟨_, destination, _, _⟩ := req
  obtain ⟨rfl, known⟩ := sends.1
  cases destination with
  | http | tcp => exact congrArg (List.map Prod.fst) requests
  | udp | quic | localPath => cases known

theorem prepared_of_sends (sends : req.Sends source)
    (error : String) : source.kind ≠ .directory (.error error) := by
  intro kind
  have call := sends.2
  unfold uploadCall at call
  simp only [kind] at call
  obtain ⟨_, zipped, _⟩ := call
  cases zipped

/-- A request is refined exactly when it is not carried out to its end, or asks for each
source as it is. -/
theorem refined_iff (req : TransferRequest) (cancelled : Option String) :
    req.Refined cancelled ↔
      (cancelled = none → (∀ source ∈ req.sources, req.Sends source) → ∀ source ∈ req.sources,
        source.asItIs req) := by
  cases cancelled with
  | some =>
    refine iff_of_true (fun progress ended => ?_) (fun none => ?_)
    · cases ended
    · cases none
  | none =>
    set start : TransferProgress :=
      { bytesSent := 0, bytesTotal := 0, filesCompleted := 0, filesTotal := req.sources.length }
    have execution : req.executeWithCancel none = req.dispatchAll start req.sources := rfl
    have ends := dispatchAll_ok_iff req start req.sources
    simp only [dispatch_ok_iff] at ends
    have sent (sends : ∀ source ∈ req.sources, req.Sends source) :
        List.Forall₂ (fun source outcome =>
          SentAs source req.destination.path req.options.resumeOffset (outcome.requests.map Prod.fst))
          req.sources (req.executeWithCancel none).1 ↔ ∀ source ∈ req.sources, source.asItIs req := by
      rw [execution, dispatchAll_outcomes (ends.mpr sends), List.forall₂_map_right_iff,
        List.forall₂_same]
      refine forall₂_congr fun source member => ?_
      rw [dispatch_requests (sends source member)]
      exact sentAs_iff (prepared_of_sends (sends source member))
    constructor
    · intro refined _ sends
      obtain ⟨progress, ended⟩ := ends.mpr sends
      exact (sent sends).mp (refined progress ended)
    · intro asked progress ended
      have sends := ends.mp ⟨progress, ended⟩
      exact (sent sends).mpr (asked rfl sends)

def twoBytes : Source :=
  { fileName := some "a.bin", kind := .file [7, 8] (.ok ()), size := 2
    streams := fun _ => smooth .success }

/-- The second byte of a file, asked for under another name: both bytes go, under the own name. -/
theorem renamed_resume_unrefined :
    ¬ (startTransferRequest "192.168.1.10" 18250 twoBytes "b.bin" {} (some 1)).Refined none := by
  intro refined
  have sent := refined _ rfl
  cases sent with
  | cons first =>
    have resumed := congrArg List.length first.resumed
    exact absurd resumed (by decide)

end DistributedOs.Http
