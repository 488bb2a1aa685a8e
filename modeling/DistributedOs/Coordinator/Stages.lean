import DistributedOs.Coordinator.Accesses

/-! How far the procedures that upload a session have come: `start_session` until it
hands over to the upload task, and then that task until it has let go of its token. -/

namespace DistributedOs.Coordinator

open Semantics DistributedOs.Session

inductive Stage where
  | unborn
  | offering
  | accepted
  | unregistered
  | uploading
  | beginning
  deriving DecidableEq

namespace Stage

/-- What comes next announces the session active or begins an upload, whoever cancels. -/
def exposed : Stage → Bool
  | .accepted | .unregistered | .beginning => true
  | _ => false

/-- The token is in the map. -/
def registered : Stage → Bool
  | .uploading | .beginning => true
  | _ => false

end Stage

structure Carrier where
  sessionId : String
  stage : Stage
  deriving DecidableEq

def StartSession.carrier : StartSession → Option Carrier
  | .findPeer sessionId _ _ => some { sessionId, stage := .unborn }
  | .create offer => some { sessionId := offer.sessionId, stage := .unborn }
  | .negotiate offer => some { sessionId := offer.sessionId, stage := .offering }
  | .openChannel offer => some { sessionId := offer.sessionId, stage := .offering }
  | .announceStarted offer => some { sessionId := offer.sessionId, stage := .offering }
  | .connect offer => some { sessionId := offer.sessionId, stage := .offering }
  | .identify offer => some { sessionId := offer.sessionId, stage := .offering }
  | .write offer _ _ => some { sessionId := offer.sessionId, stage := .offering }
  | .read offer => some { sessionId := offer.sessionId, stage := .offering }
  | .activate offer _ => some { sessionId := offer.sessionId, stage := .accepted }
  | .announceActive offer _ => some { sessionId := offer.sessionId, stage := .accepted }
  | .spawn offer _ => some { sessionId := offer.sessionId, stage := .accepted }
  | .fail offer _ _ => some { sessionId := offer.sessionId, stage := .offering }
  | .announceFailed offer _ _ => some { sessionId := offer.sessionId, stage := .offering }
  | .returned .. => none

def EngineRun.stage : EngineRun → Stage
  | .upload => .beginning
  | _ => .uploading

def UploadFiles.carrier : UploadFiles → Option Carrier
  | .register upload => some { sessionId := upload.sessionId, stage := .unregistered }
  | .engine upload _ _ run => some { sessionId := upload.sessionId, stage := run.stage }
  | .returned _ => none
  | point => some { sessionId := point.tokenId, stage := .uploading }

def Task.carrier : Task → Option Carrier
  | .startSession point => point.carrier
  | .uploadFiles point => point.carrier
  | _ => none

def CancelSession.sessionId : CancelSession → String
  | .cancel sessionId _ => sessionId
  | .record sessionId _ => sessionId
  | .announce sessionId _ => sessionId
  | .returned sessionId => sessionId

def IncomingSession.sessionId : IncomingSession → Option String
  | .read => none
  | .create request => some request.sessionId
  | .register request => some request.sessionId
  | .openChannel request => some request.sessionId
  | .announceRequested request => some request.sessionId
  | .wait request => some request.sessionId
  | .write request _ => some request.sessionId
  | .record request _ => some request.sessionId
  | .announce request _ => some request.sessionId
  | .cleanup request => some request.sessionId
  | .returned sessionId _ => sessionId

def RespondSession.sessionId : RespondSession → String
  | .lock response => response.sessionId
  | .identify response _ => response.sessionId
  | .send response _ _ => response.sessionId
  | .record response => response.sessionId
  | .announce response => response.sessionId
  | .unlock response => response.sessionId
  | .returned response => response.sessionId

def EngineStart.sessionId : EngineStart → String
  | .create sessionId _ _ => sessionId
  | .activate sessionId => sessionId
  | .lock sessionId => sessionId
  | .upload sessionId => sessionId
  | .uploading sessionId => sessionId
  | .unlock sessionId _ => sessionId
  | .updateProgress sessionId _ => sessionId
  | .complete sessionId _ => sessionId
  | .returned sessionId _ => sessionId

/-- The session of a procedure other than `start_session`, its uploads and `cancel_session`. -/
def Task.foreign : Task → Option String
  | .incomingSession point => point.sessionId
  | .respondSession point => some point.sessionId
  | .engineStart point => some point.sessionId
  | .startTransfer point => some point.tokenId
  | _ => none

def Access.about : Access → Option String
  | .session (.create id ..) => some id
  | .session (.updateState id ..) => some id
  | .emit (.sessionActive id) => some id
  | .insertToken id => some id
  | .removeToken id => some id
  | .cancelToken id _ => some id
  | .beginUpload id .. => some id
  | _ => none

def Access.releases : Access → Bool
  | .emit (.sessionActive _) => true
  | .beginUpload .. => true
  | _ => false

def Task.accepts : Task → Choice → Option String
  | .startSession (.read offer), .message .accept (.accept _) => some offer.sessionId
  | _, _ => none

def Task.requests : Task → Choice → Option String
  | .incomingSession .read, .message .request (.request payload) => some payload.sessionId
  | _, _ => none

variable {reply : Reply} {choice : Choice} {task moved : Task} {id : String}

theorem Verdict.about_event {verdict : Verdict}
    (about : (Access.emit (verdict.event sessionId)).about = some id) : sessionId = id := by
  cases verdict <;> cases about
  rfl

theorem EngineRun.about_access {run : EngineRun}
    (about : (run.access (.beginUpload sessionId fileId resumeOffset)).about = some id) :
    sessionId = id := by
  cases run <;> cases about
  rfl

theorem UploadFiles.about_access {point : UploadFiles}
    (about : (point.access choice).about = some id) :
    ∃ carrier, point.carrier = some carrier ∧ carrier.sessionId = id := by
  cases point with
  | engine => exact ⟨_, rfl, EngineRun.about_access about⟩
  | recordFile _ _ _ reported => cases reported <;> cases choice <;> cases about
  | decide | describe | classify | announceCompleted | announceFailed | returned => cases about
  | _ =>
    cases about
    exact ⟨_, rfl, rfl⟩

theorem StartSession.about_access {point : StartSession}
    (about : (point.access choice).about = some id) :
    ∃ carrier, point.carrier = some carrier ∧ carrier.sessionId = id := by
  cases point with
  | create | negotiate | activate | announceActive | fail =>
    cases about
    exact ⟨_, rfl, rfl⟩
  | write => cases choice <;> cases about
  | _ => cases about

theorem Task.about_access (about : (task.access choice).about = some id) : task.foreign = some id ∨
    (∃ carrier, task.carrier = some carrier ∧ carrier.sessionId = id) ∨
      ∃ point, task = .cancelSession point ∧ point.sessionId = id := by
  cases task with
  | startSession => exact .inr (.inl (StartSession.about_access about))
  | uploadFiles => exact .inr (.inl (UploadFiles.about_access about))
  | cancelSession point =>
    refine .inr (.inr ⟨point, rfl, ?_⟩)
    cases point <;> cases about <;> rfl
  | incomingSession point =>
    refine .inl ?_
    cases point with
    | create | record =>
      cases about
      rfl
    | announce => exact congrArg some (Verdict.about_event about)
    | wait | write => cases choice <;> cases about
    | _ => cases about
  | respondSession point =>
    refine .inl ?_
    cases point with
    | record =>
      cases about
      rfl
    | announce => exact congrArg some (Verdict.about_event about)
    | _ => cases about
  | sessionEventStream point => cases point <;> cases about
  | engineStart point =>
    refine .inl ?_
    cases point <;> cases about <;> rfl
  | startTransfer point =>
    refine .inl ?_
    cases point with
    | engine => exact congrArg some (EngineRun.about_access about)
    | _ => cases about <;> rfl

/-- Another procedure stays with its session; a connection gets one with its request. -/
theorem Task.foreign_resume (resumed : task.resume reply choice = some moved)
    (works : moved.foreign = some id) :
    task.foreign = some id ∨ task.requests choice = some id := by
  cases task with
  | incomingSession =>
    obtain ⟨next, ran, rfl⟩ := Option.map_eq_some_iff.mp resumed
    cases IncomingSession.moves_of_resume ran with
    | read => exact .inr works
    | _ => exact .inl works
  | respondSession =>
    obtain ⟨next, ran, rfl⟩ := Option.map_eq_some_iff.mp resumed
    refine .inl (works ▸ ?_)
    cases RespondSession.moves_of_resume ran <;> rfl
  | engineStart =>
    obtain ⟨next, ran, rfl⟩ := Option.map_eq_some_iff.mp resumed
    refine .inl (works ▸ ?_)
    cases EngineStart.moves_of_resume ran <;> rfl
  | startTransfer =>
    obtain ⟨next, ran, rfl⟩ := Option.map_eq_some_iff.mp resumed
    exact .inl (works ▸ congrArg some (StartTransfer.tokenId_resume ran).symm)
  | _ =>
    obtain ⟨_, _, rfl⟩ := Option.map_eq_some_iff.mp resumed
    cases works

/-- The move a carrier of that session makes in one turn, with what the turn did. -/
inductive Stage.Moves (id : String) (task : Task) (reply : Reply)
    (choice : Choice) : Stage → Stage → Prop where
  | find (waits : task.access choice = .idle) : Moves id task reply choice .unborn .unborn
  | create : Moves id task reply choice .unborn .offering
  | offer : Moves id task reply choice .offering .offering
  | accept (accepts : task.accepts choice = some id) : Moves id task reply choice .offering .accepted
  | activate : Moves id task reply choice .accepted .accepted
  | register (inserts : task.access choice = .insertToken id) :
    Moves id task reply choice .unregistered .uploading
  | upload {before : Stage} (registered : before.registered = true)
    (keeps : ∀ other, task.access choice ≠ .insertToken other ∧
      task.access choice ≠ .removeToken other) : Moves id task reply choice before .uploading
  | check (reads : task.access choice = .readToken) (free : reply = .token none) :
      Moves id task reply choice .uploading .beginning

theorem StartSession.carrier_resume
    (resumed : point.resume reply choice = some next) (carries : next.carrier = some after) :
    ∃ before, point.carrier = some before ∧ before.sessionId = after.sessionId ∧
      Stage.Moves after.sessionId (.startSession point) reply choice before.stage after.stage := by
  cases moves_of_resume resumed with
  | findPeer =>
    cases carries
    exact ⟨_, rfl, rfl, .find rfl⟩
  | create =>
    cases carries
    exact ⟨_, rfl, rfl, .create⟩
  | accepted => -- the reply of the peer
    cases carries
    exact ⟨_, rfl, rfl, .accept rfl⟩
  | activate | announceActive =>
    cases carries
    exact ⟨_, rfl, rfl, .activate⟩
  | _ => cases carries <;> exact ⟨_, rfl, rfl, .offer⟩

theorem UploadFiles.carrier_next (upload : Upload) (files : List FileMeta) :
    (next upload files).carrier = some { sessionId := upload.sessionId, stage := .uploading } := by
  induction files with
  | nil => rfl
  | cons _ _ ih =>
    unfold next
    split
    · rfl
    · exact ih

theorem EngineRun.registered_stage (run : EngineRun) : run.stage.registered = true := by
  cases run <;> rfl

theorem EngineRun.stage_resume {run after : EngineRun} (upload : Access)
    (resumed : run.resume reply choice = some (.inl after)) :
    after.stage = .uploading ∨ (run.stage = .uploading ∧ after.stage = .beginning ∧
      run.access upload = .readToken ∧ reply = .token none) := by
  unfold resume at resumed
  split at resumed <;> cases resumed <;> first | exact .inl rfl | exact .inr ⟨rfl, rfl, rfl, rfl⟩

theorem EngineRun.keeps_tokens (run : EngineRun) (sessionId fileId : String)
    (resumeOffset : Option UInt64) (other : String) :
    run.access (.beginUpload sessionId fileId resumeOffset) ≠ .insertToken other ∧
      run.access (.beginUpload sessionId fileId resumeOffset) ≠ .removeToken other := by
  cases run <;> exact ⟨nofun, nofun⟩

theorem UploadFiles.carrier_resume {point next : UploadFiles} {after : Carrier}
    (resumed : point.resume reply choice = some next) (carries : next.carrier = some after) :
    ∃ before, point.carrier = some before ∧ before.sessionId = after.sessionId ∧
      Stage.Moves after.sessionId (.uploadFiles point) reply choice before.stage after.stage := by
  cases moves_of_resume resumed with
  | register _ _ goes =>
    rw [goes, carrier_next] at carries
    cases carries
    exact ⟨_, rfl, rfl, .register rfl⟩
  | engine upload file _ run later _ _ ran =>
    have keeps := run.keeps_tokens upload.sessionId file.fileId (upload.resumeOffsets.lookup file.fileId)
    cases carries
    rcases EngineRun.stage_resume
      (.beginUpload upload.sessionId file.fileId (upload.resumeOffsets.lookup file.fileId)) ran
      with uploads | ⟨before, begins, reads, free⟩
    · exact ⟨_, rfl, rfl, uploads ▸ .upload run.registered_stage keeps⟩
    · refine ⟨_, rfl, rfl, ?_⟩
      show Stage.Moves _ _ _ _ run.stage later.stage
      rw [before, begins]
      exact .check reads free
  | uploaded upload file remaining run | failed upload file remaining run =>
    have keeps := run.keeps_tokens upload.sessionId file.fileId (upload.resumeOffsets.lookup file.fileId)
    cases carries
    exact ⟨_, rfl, rfl, .upload run.registered_stage keeps⟩
  | recordFile _ file _ reported _ goes => -- on to the next file
    rw [goes, carrier_next] at carries
    cases carries
    exact ⟨_, rfl, rfl, .upload rfl fun _ => by cases reported <;> exact ⟨nofun, nofun⟩⟩
  | _ => cases carries <;> exact ⟨_, rfl, rfl, .upload rfl fun _ => ⟨nofun, nofun⟩⟩

theorem Task.carrier_resume (resumed : task.resume reply choice = some moved)
    (carries : moved.carrier = some after) : ∃ before, task.carrier = some before ∧
      before.sessionId = after.sessionId ∧
        Stage.Moves after.sessionId task reply choice before.stage after.stage := by
  cases task with
  | startSession =>
    obtain ⟨next, ran, rfl⟩ := Option.map_eq_some_iff.mp resumed
    exact StartSession.carrier_resume ran carries
  | uploadFiles =>
    obtain ⟨next, ran, rfl⟩ := Option.map_eq_some_iff.mp resumed
    exact UploadFiles.carrier_resume ran carries
  | _ =>
    obtain ⟨_, _, rfl⟩ := Option.map_eq_some_iff.mp resumed
    cases carries

theorem Task.carrier_spawned (resumed : task.resume reply choice = some moved)
    (member : new ∈ task.spawned) :
    ∃ sessionId, new.carrier = some { sessionId, stage := .unregistered } ∧ new.foreign = none ∧
      task.carrier = some { sessionId, stage := .accepted } ∧ moved.carrier = none := by
  unfold spawned at member
  split at member
  · rename_i offer _
    cases List.mem_singleton.mp member
    refine ⟨offer.sessionId, rfl, rfl, rfl, ?_⟩
    obtain ⟨_, ran, rfl⟩ := Option.map_eq_some_iff.mp resumed
    cases reply <;> cases choice <;> cases ran
    rfl
  · cases member

variable {carrier : Carrier}

theorem Task.exposed_of_releases (carries : task.carrier = some carrier)
    (releases : (task.access choice).releases = true) : carrier.stage.exposed = true := by
  cases task with
  | startSession point =>
    cases point with
    | announceActive =>
      cases carries
      rfl
    | write => cases choice <;> cases releases
    | _ => cases releases
  | uploadFiles point =>
    cases point with
    | engine _ _ _ run =>
      cases carries
      cases run <;> first | rfl | cases releases
    | recordFile _ _ _ reported => cases reported <;> cases choice <;> cases releases
    | _ => cases releases
  | _ => cases carries

theorem Task.unborn_of_creates
    (carries : task.carrier = some carrier)
    (creates : task.access choice = .session (.create id peerId peerName direction files)) :
    carrier.stage = .unborn := by
  cases task with
  | startSession point =>
    cases point with
    | create =>
      cases carries
      rfl
    | write => cases choice <;> cases creates
    | _ => cases creates
  | uploadFiles point =>
    cases point with
    | engine _ _ _ run => cases run <;> cases creates
    | recordFile _ _ _ reported => cases reported <;> cases choice <;> cases creates
    | _ => cases creates
  | _ => cases carries

end DistributedOs.Coordinator
