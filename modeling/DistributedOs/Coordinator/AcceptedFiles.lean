import DistributedOs.Coordinator.Accesses
import DistributedOs.Http.StreamEngine
import DistributedOs.Session.Aggregate

/-! What an Accept makes `start_session` upload, and what is announced when all of it succeeds.
The offset goes into the options of each request; the upload of a file does not read it. -/

namespace DistributedOs.Coordinator

open Semantics DistributedOs.Session DistributedOs.Transfer

/-- The request the upload task makes of one file, with the offset the Accept gave for its id. -/
def sessionRequest (host : String) (port : UInt16) (file : FileMeta) (source : Http.Source)
    (resumeOffset : Option UInt64) :
    Http.TransferRequest :=
  { sources := [source], destination := .tcp host port (some file.name), direction := .upload
    options := match resumeOffset with
      | some offset => { resume := true, resumeOffset := offset.toNat }
      | none => {} }

def carried (req : Http.TransferRequest) : Bytes :=
  (req.executeWithCancel none).1.flatMap fun outcome => outcome.requests.flatMap fun request =>
  request.1.content

namespace Upload

def accepted (upload : Upload) : List FileMeta := upload.files.filter (UploadFiles.accepts upload)

def refused (upload : Upload) : List FileMeta :=
  upload.files.filter fun file => !UploadFiles.accepts upload file

def offset (upload : Upload) (file : FileMeta) : Option UInt64 :=
  upload.resumeOffsets.lookup file.fileId

def ask (upload : Upload) (file : FileMeta) : String × Option UInt64 :=
  (file.fileId, upload.offset file)

end Upload

def Effect.begunBy (self : Nat) : Effect → Option (String × Option UInt64)
  | .uploadBegun caller _ fileId resumeOffset =>
    if caller = self then some (fileId, resumeOffset) else none
  | _ => none

def Effect.totalBy (self : Nat) : Effect → Option UInt64
  | .emitted caller (.sessionCompleted _ totalBytes) => if caller = self then some totalBytes else none
  | _ => none

/-- The uploads a task has begun, in order. -/
def begun (self : Nat) (trace : List Effect) : List (String × Option UInt64) :=
  (trace.filterMap (Effect.begunBy self)).reverse

/-- The totals of the completions it has announced. -/
def totals (self : Nat) (trace : List Effect) : List UInt64 :=
  (trace.filterMap (Effect.totalBy self)).reverse

/-- The accepted files are uploaded in the order of the offer, each from the offset the Accept gave,
and their sizes add up to the total that is announced. -/
structure AcceptHonoured (upload : Upload) (request : FileMeta → Http.TransferRequest)
    (source : FileMeta → Http.Source) (caller : Nat) (trace : List Effect) : Prop where
  uploads : begun caller trace = upload.accepted.map upload.ask
  offsets : ∀ file ∈ upload.accepted,
    carried (request file) = (source file).payload.drop ((upload.offset file).getD 0).toNat
  total : (totals caller trace).map UInt64.toNat = [exactSize upload.accepted]

def uploadsSucceed (self : Nat) : Label → Bool
  | .run index (.failure _) => index ≠ self
  | _ => true

namespace UploadFiles

def upload : UploadFiles → Upload
  | .register upload => upload
  | .engine upload .. => upload
  | .recordFile upload .. => upload
  | .decide upload => upload
  | .complete upload => upload
  | .announceCompleted upload => upload
  | .describe upload => upload
  | .classify upload _ => upload
  | .fail upload .. => upload
  | .announceFailed upload _ => upload
  | .unregister upload => upload
  | .returned upload => upload

def toBegin : UploadFiles → List FileMeta
  | .register upload => upload.accepted
  | .engine upload file remaining run =>
    match run with
    | .uploading | .unlock _ => remaining.filter (accepts upload)
    | _ => file :: remaining.filter (accepts upload)
  | .recordFile upload _ remaining _ => remaining.filter (accepts upload)
  | _ => []

def sound : UploadFiles → Bool
  | .engine _ _ _ (.unlock (.error _)) => false
  | .describe _ | .classify .. | .fail .. | .announceFailed .. => false
  | _ => true

def announced : UploadFiles → List UInt64
  | .unregister upload | .returned upload => [totalSize upload.files]
  | _ => []

end UploadFiles

/-- The session whose event channel the task knows to be open. -/
def StartSession.channel : StartSession → Option String
  | .announceStarted offer => some offer.sessionId
  | .connect offer => some offer.sessionId
  | .identify offer => some offer.sessionId
  | .write offer .. => some offer.sessionId
  | .read offer => some offer.sessionId
  | .activate offer _ => some offer.sessionId
  | .announceActive offer _ => some offer.sessionId
  | .spawn offer _ => some offer.sessionId
  | _ => none

def Task.channel : Task → Option String
  | .startSession point => point.channel
  | .uploadFiles point => some point.tokenId
  | _ => none

/-- What the trace shows of an upload task in whose way nothing has come. -/
structure UploadFiles.OnCourse (point : UploadFiles) (caller : Nat)
    (trace : List Effect) : Prop where
  sound : point.sound = true
  begun : begun caller trace ++ point.toBegin.map point.upload.ask = point.upload.accepted.map
    point.upload.ask
  totals : totals caller trace = point.announced

structure Uploading (caller : Nat) (pool : TransferCoordinator) : Prop where
  opened : ∀ (index : Nat) (task : Task) (id : String), pool.tasks[index]? = some task →
    task.channel = some id →
    pool.shared.sessionEventChannels id = true
  unborn : pool.tasks.length ≤ caller → begun caller pool.trace = [] ∧ totals caller pool.trace = []
  course : ∀ point, pool.tasks[caller]? = some (.uploadFiles point) → pool.shared.tokens caller = none →
    point.OnCourse caller pool.trace

variable {reply : Reply} {choice : Choice} {task moved : Task} {id : String}
  {pool : TransferCoordinator}
variable {index self : Nat} {shared next : Shared} {access : Access} {effects trace : List Effect}

theorem EngineRun.ended {run : EngineRun}
    (ran : run.resume reply choice = some (.inr outcome)) :
    run = .unlock outcome ∨ run = .check ∧ ∃ reason, reply = .token (some reason) := by
  unfold EngineRun.resume at ran
  split at ran
  case h_2 reason =>
    cases ran
    exact .inr ⟨rfl, reason, rfl⟩
  case h_9 unlocked =>
    cases ran
    exact .inl rfl
  all_goals cases ran

namespace UploadFiles

theorem next_spec (upload : Upload) (files : List FileMeta) :
    (UploadFiles.next upload files).upload = upload ∧
      (UploadFiles.next upload files).toBegin = files.filter (accepts upload) ∧
      (UploadFiles.next upload files).sound = true ∧
      (UploadFiles.next upload files).announced = [] := by
  induction files with
  | nil => exact ⟨rfl, rfl, rfl, rfl⟩
  | cons _ _ ih =>
    unfold UploadFiles.next
    split
    · rename_i accepted
      exact ⟨rfl, (List.filter_cons_of_pos accepted).symm, rfl, rfl⟩
    · rename_i refused
      rw [List.filter_cons_of_neg refused]
      exact ih

/-- A turn that nothing disturbs begins the next upload, or announces the total, or does neither. -/
theorem turned {point moved : UploadFiles} (resumed : point.resume reply choice = some moved)
    (performed : shared.perform self (point.access choice) = some (reply, next, effects))
    (succeeds : ∀ error, choice ≠ .failure error) (uncancelled : shared.tokens self = none)
    (opened : shared.sessionEventChannels point.tokenId = true) (sound : point.sound = true) :
    moved.upload = point.upload ∧ moved.sound = true ∧
      point.toBegin.map point.upload.ask = effects.filterMap (Effect.begunBy self) ++
      moved.toBegin.map point.upload.ask ∧
      moved.announced = point.announced ++ effects.filterMap (Effect.totalBy self) := by
  cases moves_of_resume resumed with
  | register upload _ first =>
    cases performed
    obtain ⟨same, toBegin, good, announced⟩ := next_spec upload upload.files
    rw [← first] at same toBegin good announced
    exact ⟨same, good, by rw [toBegin]; rfl, announced⟩
  | engine upload _ _ run _ _ choice ran =>
    cases run with
    | check | recheck =>
      cases performed
      rw [uncancelled] at ran
      cases choice <;> cases ran
      exact ⟨rfl, rfl, rfl, rfl⟩
    | lock =>
      simp only [UploadFiles.access, EngineRun.access, Shared.perform] at performed
      split at performed <;> cases performed
      cases choice <;> cases ran
      exact ⟨rfl, rfl, rfl, rfl⟩
    | upload =>
      cases performed
      cases choice <;> cases ran
      refine ⟨rfl, rfl, ?_, rfl⟩
      simp [toBegin, UploadFiles.upload, Effect.begunBy, Upload.ask, Upload.offset]
    | uploading =>
      cases performed
      cases choice with
      | failure error => exact absurd rfl (succeeds error)
      | uploaded =>
        cases ran
        exact ⟨rfl, rfl, rfl, rfl⟩
      | _ => cases ran
    | unlock =>
      cases performed
      cases choice <;> cases ran
  | uploaded _ _ _ _ _ _ choice ran =>
    rcases EngineRun.ended ran with rfl | ⟨rfl, reason, rfl⟩
    · cases performed
      exact ⟨rfl, rfl, rfl, rfl⟩
    · cases choice <;> cases ran
  | failed _ _ _ _ _ _ _ ran =>
    rcases EngineRun.ended ran with rfl | ⟨rfl, reason, rfl⟩
    · cases sound
    · have read := perform_readToken performed
      rw [uncancelled] at read
      cases read
  | forward =>
    cases performed
    exact ⟨rfl, rfl, rfl, rfl⟩
  | recordFile upload _ remaining reported _ later =>
    obtain ⟨same, toBegin, good, announced⟩ := next_spec upload remaining
    rw [← later] at same toBegin good announced
    cases reported <;> cases performed <;> exact ⟨same, good, by rw [toBegin]; rfl, announced⟩
  | announceCompleted upload =>
    have listened : shared.sessionEventChannels upload.sessionId = true := opened
    cases performed
    simp [UploadFiles.upload, toBegin, UploadFiles.sound, announced, SessionEvent.sessionId,
      listened, Effect.begunBy, Effect.totalBy]
  | interrupt =>
    have read := perform_readToken performed
    rw [uncancelled] at read
    cases read
  | decide =>
    obtain ⟨-, -, rfl⟩ : .token (shared.tokens self) = Reply.token none ∧ shared = next ∧
        [] = effects := by
      simpa [UploadFiles.access, Shared.perform] using performed
    exact ⟨rfl, rfl, rfl, rfl⟩
  | complete =>
    cases performed
    exact ⟨rfl, rfl, rfl, rfl⟩
  | unregister =>
    cases performed
    exact ⟨rfl, rfl, rfl, rfl⟩
  | describe upload | describeCancelled upload reason | classify upload errMsg
    | classifyCancelled upload errMsg reason
  | fail upload state errMsg admitted | announceFailed upload errMsg => cases sound

end UploadFiles

theorem perform_channels (performed : shared.perform self access = some (reply, next, effects))
    (id : String) :
    (shared.sessionEventChannels id = true → next.sessionEventChannels id = true) ∧
      (access = .openSessionChannel id → next.sessionEventChannels id = true) := by
  cases access <;> simp only [Shared.perform] at performed
  case openSessionChannel opened =>
    cases performed
    constructor
    · intro listened
      by_cases same : id = opened
      · simp [same]
      · simpa [Function.update_of_ne same] using listened
    · intro same
      cases same
      simp
  case insertResponder | removeResponder | takeResponder | lockEngine =>
    split at performed <;> cases performed
    exact ⟨fun listened => listened, by rintro ⟨⟩⟩
  all_goals
    cases performed
    exact ⟨fun listened => listened, by rintro ⟨⟩⟩

theorem Task.channel_resume (resumed : task.resume reply choice = some moved)
    (knows : moved.channel = some id) :
    task.channel = some id ∨ task.access choice = .openSessionChannel id := by
  cases task with
  | startSession =>
    obtain ⟨later, ran, rfl⟩ := Option.map_eq_some_iff.mp resumed
    cases StartSession.moves_of_resume ran with
    | openChannel =>
      cases knows
      exact .inr rfl
    | announceStarted | connect | identify | write | accepted | activate | announceActive =>
      exact .inl knows
    | _ => cases knows
  | uploadFiles =>
    obtain ⟨later, ran, rfl⟩ := Option.map_eq_some_iff.mp resumed
    exact .inl (knows ▸ congrArg some (UploadFiles.tokenId_resume ran).symm)
  | _ =>
    obtain ⟨_, _, rfl⟩ := Option.map_eq_some_iff.mp resumed
    cases knows

theorem Effect.of_other {effect : Effect} (source : effect.From shared index access)
    (apart : index ≠ self) :
    effect.begunBy self = none ∧ effect.totalBy self = none := by
  unfold Effect.From at source
  split at source
  case h_2 caller event =>
    refine ⟨rfl, ?_⟩
    unfold Effect.totalBy
    split
    · rename_i same
      cases same
      exact if_neg (source.1 ▸ apart)
    · rfl
  case h_8 caller sessionId fileId resumeOffset => exact ⟨if_neg (source.1 ▸ apart), rfl⟩
  all_goals exact ⟨rfl, rfl⟩

theorem filterMap_returnEffects (self index : Nat) (task : Task) :
    (task.returnEffects index).filterMap (Effect.begunBy self) = [] ∧
      (task.returnEffects index).filterMap (Effect.totalBy self) = [] := by
  unfold Task.returnEffects
  split <;> exact ⟨rfl, rfl⟩

theorem Ran.shown (ran : Ran pool index choice) (self : Nat) :
    begun self ran.after.trace =
        begun self pool.trace ++ ran.effects.filterMap (Effect.begunBy self) ∧
      totals self ran.after.trace =
        totals self pool.trace ++ ran.effects.filterMap (Effect.totalBy self) := by
  have returned := filterMap_returnEffects self index ran.moved
  unfold begun totals after
  rcases perform_effects ran.performed with none | ⟨effect, only, _⟩
  · simp [none, returned]
  · simp only [only, List.filterMap_append, returned, List.nil_append, List.reverse_append]
    constructor
    · cases begins : effect.begunBy self <;> simp [begins]
    · cases announces : effect.totalBy self <;> simp [announces]

theorem Ran.shown_other (ran : Ran pool index choice) (apart : index ≠ self) :
    begun self ran.after.trace = begun self pool.trace ∧
      totals self ran.after.trace = totals self pool.trace := by
  obtain ⟨started, announced⟩ := ran.shown self
  rw [started, announced]
  rcases perform_effects ran.performed with none | ⟨_, only, source⟩
  · simp [none]
  · obtain ⟨begins, ends⟩ := Effect.of_other source apart
    simp [only, begins, ends]

theorem uploading_new (self : Nat) (deviceId deviceName : String) :
    Uploading self (.new deviceId deviceName) where
  opened := by simp [TransferCoordinator.new]
  unborn _ := ⟨rfl, rfl⟩
  course := by simp [TransferCoordinator.new]

theorem Call.quiet (call : Call) : call.start.channel = none := by
  cases call <;> rfl

theorem Uploading.called (uploading : Uploading self pool) (call : Call) :
    Uploading self { pool with tasks := pool.tasks ++ [call.start] } where
  opened index task id found knows := by
    rcases Pool.getElem?_called found with present | ⟨_, rfl⟩
    · exact uploading.opened index task id present knows
    · rw [call.quiet] at knows
      cases knows
  unborn unborn := uploading.unborn (by rw [List.length_append] at unborn; omega)
  course point found uncancelled := by
    rcases Pool.getElem?_called found with present | ⟨_, started⟩
    · exact uploading.course point present uncancelled
    · have quiet := call.quiet
      rw [← started] at quiet
      cases quiet

theorem Uploading.turned (uploading : Uploading self pool) (ran : Ran pool index choice)
    (admitted : uploadsSucceed self (.run index choice) = true) : Uploading self ran.after where
  opened other task id found knows := by
    obtain ⟨stays, opens⟩ := perform_channels ran.performed id
    rcases Pool.getElem?_turned found with ⟨_, rfl⟩ | ⟨_, there⟩ | ⟨_, new⟩
    · rcases Task.channel_resume ran.resumed knows with known | opened
      · exact stays (uploading.opened index ran.task id ran.present known)
      · exact opens opened
    · exact stays (uploading.opened other task id there knows)
    · have member := List.mem_of_getElem? new
      unfold Task.spawned at member
      split at member
      · rename_i spawns
        cases List.mem_singleton.mp member
        refine stays (uploading.opened index ran.task id ran.present ?_)
        rw [spawns]
        exact knows
      · cases member
  unborn unborn := by
    have within := (List.getElem?_eq_some_iff.mp ran.present).1
    have later : pool.tasks.length ≤ self := by
      simp only [Ran.after, List.length_append, List.length_set] at unborn
      omega
    have apart : index ≠ self := by omega
    obtain ⟨begins, announces⟩ := ran.shown_other apart
    rw [begins, announces]
    exact uploading.unborn later
  course point found uncancelled := by
    have before : pool.shared.tokens self = none := by
      by_contra cancelled
      exact perform_tokens_kept ran.performed cancelled uncancelled
    rcases Pool.getElem?_turned found with ⟨rfl, moved⟩ | ⟨apart, there⟩ | ⟨later, new⟩
    · obtain ⟨old, ofKind, resumed⟩ :
          ∃ old, ran.task = .uploadFiles old ∧ old.resume ran.reply choice = some point := by
        have resumed := ran.resumed
        rw [← moved] at resumed
        generalize ran.task = task at resumed
        cases task with
        | uploadFiles old =>
          obtain ⟨next, ran, same⟩ := Option.map_eq_some_iff.mp resumed
          cases same
          exact ⟨old, rfl, ran⟩
        | _ =>
          obtain ⟨_, _, same⟩ := Option.map_eq_some_iff.mp resumed
          cases same
      have present := ran.present
      have performed := ran.performed
      rw [ofKind] at present performed
      have old := uploading.course _ present before
      obtain ⟨same, sound, begins, announces⟩ := UploadFiles.turned resumed performed
        (fun error failed => by simp [uploadsSucceed, failed] at admitted) before
        (uploading.opened self _ _ present rfl) old.sound
      obtain ⟨started, ended⟩ := ran.shown self
      refine ⟨sound, ?_, by rw [ended, old.totals, announces]⟩
      rw [started, same, List.append_assoc, ← begins, old.begun]
    · obtain ⟨started, ended⟩ := ran.shown_other (Ne.symm apart)
      have old := uploading.course point there before
      exact ⟨old.sound, by rw [started, old.begun], by rw [ended, old.totals]⟩
    · have within := (List.getElem?_eq_some_iff.mp ran.present).1
      have apart : index ≠ self := by omega
      obtain ⟨started, ended⟩ := ran.shown_other apart
      obtain ⟨noneBegun, noTotal⟩ := uploading.unborn later
      obtain ⟨_, registers⟩ := Task.spawned_upload (List.mem_of_getElem? new)
      cases registers
      exact ⟨rfl, by rw [started, noneBegun]; rfl, by rw [ended, noTotal]; rfl⟩

theorem onCourse_of_run {upload : Upload}
    (run : Execution step (fun _ label => uploadsSucceed self label = true)
      (.new deviceId deviceName) labels pool)
    (returned : pool.tasks[self]? = some (.uploadFiles (.returned upload)))
    (uncancelled : pool.shared.tokens self = none) :
    begun self pool.trace = upload.accepted.map upload.ask ∧
      totals self pool.trace = [totalSize upload.files] := by
  have uploading : Uploading self pool := by
    refine run.invariant (Uploading self) ?_ (uploading_new self deviceId deviceName)
    intro pool _ _ uploading admitted taken
    rcases step_cases taken with ⟨call, rfl, rfl⟩ | ⟨_, _, rfl, ran, rfl⟩
    · exact uploading.called call
    · exact uploading.turned ran admitted
  have course := uploading.course _ returned uncancelled
  have all : begun self pool.trace ++ [] = upload.accepted.map upload.ask := course.begun
  rw [List.append_nil] at all
  exact ⟨all, course.totals⟩

theorem carried_sessionRequest
    (succeeds : ∃ progress,
      ((sessionRequest host port file source resumeOffset).executeWithCancel none).2 =
      some (.ok progress)) :
    carried (sessionRequest host port file source resumeOffset) = source.payload := by
  set req := sessionRequest host port file source resumeOffset
  set progress : TransferProgress :=
    { bytesSent := 0, bytesTotal := 0, filesCompleted := 0, filesTotal := 1 }
  have execution : req.executeWithCancel none = req.dispatchAll progress [source] := rfl
  rw [execution] at succeeds
  have sends : req.Sends source :=
    Http.dispatch_ok_iff.mp
      ((Http.dispatchAll_ok_iff req progress [source]).mp succeeds source (List.mem_singleton_self _))
  have contents := (Http.callRequests_cases req.options (Http.prepared_of_sends sends)).2.1
  rw [← Http.dispatch_requests sends, List.map_map] at contents
  rw [carried, execution, Http.dispatchAll_outcomes succeeds, List.map_singleton,
    List.flatMap_singleton, List.flatMap_def]
  exact contents

theorem drop_offset_iff (payload : Bytes) (offset : Option UInt64) :
    payload = payload.drop (offset.getD 0).toNat ↔ offset.getD 0 = 0 ∨ payload = [] := by
  constructor
  · intro same
    have lengths := congrArg List.length same
    rw [List.length_drop] at lengths
    by_cases empty : payload = []
    · exact .inr empty
    · have positive := List.length_pos_iff.mpr empty
      exact .inl (UInt64.toNat_inj.mp (by rw [UInt64.toNat_zero]; omega))
  · rintro (start | rfl)
    · rw [start, UInt64.toNat_zero, List.drop_zero]
    · rw [List.drop_nil]

theorem exactSize_partition (upload : Upload) :
    exactSize upload.files = exactSize upload.accepted + exactSize upload.refused := by
  unfold exactSize Upload.accepted Upload.refused
  induction upload.files with
  | nil => rfl
  | cons file _ ih =>
    cases accepted : UploadFiles.accepts upload file <;> simp [accepted, ih] <;> omega

theorem total_iff (upload : Upload) :
    (totalSize upload.files).toNat = exactSize upload.accepted ↔
      exactSize upload.accepted < 2 ^ 64 ∧ 2 ^ 64 ∣ exactSize upload.refused := by
  rw [toNat_totalSize, exactSize_partition]
  omega

/-- A session whose uploads all succeed keeps to the Accept exactly when it resumes nothing that has
content, and the refused files add nothing to the total. -/
theorem acceptHonoured_iff {deviceId deviceName : String} {labels : List Label} {offer : Offer}
    {accept : SessionAcceptPayload}
    (run : Execution step (fun _ label => uploadsSucceed self label = true)
      (.new deviceId deviceName) labels pool)
    (returned : pool.tasks[self]? =
      some (.uploadFiles (.returned (StartSession.upload offer accept))))
    (uncancelled : pool.shared.tokens self = none) (host : String) (port : UInt16)
    (source : FileMeta → Http.Source)
    (succeed : ∀ file ∈ (StartSession.upload offer accept).accepted, ∃ progress,
      ((sessionRequest host port file (source file)
      (accept.resumeOffsets.lookup file.fileId)).executeWithCancel none).2 =
        some (.ok progress)) :
    AcceptHonoured (StartSession.upload offer accept)
        (fun file =>
          sessionRequest host port file (source file) (accept.resumeOffsets.lookup file.fileId))
            source self pool.trace ↔
      (∀ file ∈ (StartSession.upload offer accept).accepted,
        (accept.resumeOffsets.lookup file.fileId).getD 0 = 0 ∨ (source file).payload = []) ∧
      exactSize (StartSession.upload offer accept).accepted < 2 ^ 64 ∧
      2 ^ 64 ∣ exactSize (StartSession.upload offer accept).refused := by
  obtain ⟨uploads, announced⟩ := onCourse_of_run run returned uncancelled
  have offsets : (∀ file ∈ (StartSession.upload offer accept).accepted,
      carried (sessionRequest host port file (source file) (accept.resumeOffsets.lookup file.fileId)) =
        (source file).payload.drop ((accept.resumeOffsets.lookup file.fileId).getD 0).toNat) ↔
      ∀ file ∈ (StartSession.upload offer accept).accepted,
        (accept.resumeOffsets.lookup file.fileId).getD 0 = 0 ∨ (source file).payload = [] := by
    refine forall₂_congr fun file member => ?_
    rw [carried_sessionRequest (succeed file member)]
    exact drop_offset_iff _ _
  have total := total_iff (StartSession.upload offer accept)
  constructor
  · intro honoured
    have same := honoured.total
    rw [announced, List.map_singleton, List.singleton_inj] at same
    exact ⟨offsets.mp honoured.offsets, total.mp same⟩
  · rintro ⟨resumes, sizes⟩
    refine ⟨uploads, offsets.mpr resumes, ?_⟩
    rw [announced, List.map_singleton, total.mpr sizes]

def fiveBytes : Http.Source :=
  { fileName := some "notes.txt", kind := .file [1, 2, 3, 4, 5] (.ok ()), size := 5,
    streams := fun _ => Http.Uploads.smooth .success }

/-- The peer accepts one of two files, by its id and by an unknown one. -/
def acceptOne : SessionAcceptPayload :=
  { acceptAll with acceptedFileIds := ["f", "x", "f"], resumeOffsets := AList.singleton "f" 0 }

def acceptingRun (files : List FileMeta) : List Label :=
  ([.call (.startSession "t" "b" files)] : List Label) ++ offering 0 ++
    turns 0 ([Choice.message .accept (.accept acceptOne)] ++ List.replicate 3 Choice.proceed) ++
    turns 1 (List.replicate 5 Choice.proceed ++ [Choice.uploaded uploadProgress] ++
      List.replicate 6 Choice.proceed)

def oneOffer (files : List FileMeta) : Offer :=
  { sessionId := "t", peerId := "b", peerName := "phone", address := "10.0.0.2:9000", files }

def oneRequest (file : FileMeta) : Http.TransferRequest :=
  sessionRequest "10.0.0.2" 9000 file fiveBytes (acceptOne.resumeOffsets.lookup file.fileId)

/-- The refused file is empty: the upload of the other starts at its beginning, and the total is its
size. -/
theorem acceptHonoured_one_of_two : ∃ pool,
    Execution step (fun _ label => uploadsSucceed 1 label = true) (.new "a" "laptop")
      (acceptingRun [offered, .new "e" "empty.txt" 0]) pool ∧
    AcceptHonoured (StartSession.upload (oneOffer [offered, .new "e" "empty.txt" 0]) acceptOne)
    oneRequest (fun _ => fiveBytes) 1
      pool.trace := by
  have played : (replayWhere step (fun _ => uploadsSucceed 1) (.new "a" "laptop")
      (acceptingRun [offered, .new "e" "empty.txt" 0])).isSome = true := rfl
  have run := execution_of_replayWhere (Option.some_get played).symm
  have returned : (Option.get _ played).tasks[1]? = some (.uploadFiles (.returned
      (StartSession.upload (oneOffer [offered, .new "e" "empty.txt" 0]) acceptOne))) := rfl
  refine ⟨Option.get _ played, run,
    (acceptHonoured_iff run returned rfl "10.0.0.2" 9000 (fun _ => fiveBytes) ?_).mpr ?_⟩
  · intro file member
    cases List.mem_singleton.mp member
    exact ⟨_, rfl⟩
  · refine ⟨fun file member => .inl ?_, by decide, by decide⟩
    cases List.mem_singleton.mp member
    rfl

/-- The refused file has seven bytes: the total announced is twelve, and five were uploaded. -/
theorem refused_file_in_total : ∃ pool,
    Execution step (fun _ label => uploadsSucceed 1 label = true) (.new "a" "laptop")
      (acceptingRun [offered, .new "g" "photo.jpg" 7]) pool ∧
    ¬ AcceptHonoured (StartSession.upload (oneOffer [offered, .new "g" "photo.jpg" 7]) acceptOne)
    oneRequest (fun _ => fiveBytes) 1
      pool.trace := by
  have played : (replayWhere step (fun _ => uploadsSucceed 1) (.new "a" "laptop")
      (acceptingRun [offered, .new "g" "photo.jpg" 7])).isSome = true := rfl
  refine ⟨Option.get _ played, execution_of_replayWhere (Option.some_get played).symm,
    fun honoured => ?_⟩
  have announced : totals 1 (Option.get _ played).trace = [12] := rfl
  have total := honoured.total
  rw [announced] at total
  revert total
  decide

end DistributedOs.Coordinator
