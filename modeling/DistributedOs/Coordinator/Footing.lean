import DistributedOs.Coordinator.Accesses
import DistributedOs.Coordinator.Recorded

/-! What each program point relies on while its procedure works on a session: the id,
and the recorded states the session can be in. A point with no allowed state is one the
procedure does not reach unless another procedure interferes. -/

namespace DistributedOs.Coordinator

open Semantics DistributedOs.Session SessionManager

structure Footing where
  sessionId : String
  allows : List SessionState
  deriving DecidableEq

def StartSession.footing : StartSession → Option Footing
  | .findPeer .. => none
  | .create _ => none
  | .negotiate offer => some { sessionId := offer.sessionId, allows := [.handshaking] }
  | .openChannel offer => some { sessionId := offer.sessionId, allows := [.negotiating] }
  | .announceStarted offer => some { sessionId := offer.sessionId, allows := [.negotiating] }
  | .connect offer => some { sessionId := offer.sessionId, allows := [.negotiating] }
  | .identify offer => some { sessionId := offer.sessionId, allows := [.negotiating] }
  | .write offer _ _ => some { sessionId := offer.sessionId, allows := [.negotiating] }
  | .read offer => some { sessionId := offer.sessionId, allows := [.negotiating] }
  | .activate offer _ => some { sessionId := offer.sessionId, allows := [.negotiating] }
  | .announceActive offer _ => some { sessionId := offer.sessionId, allows := [.active] }
  | .spawn offer _ => some { sessionId := offer.sessionId, allows := [.active] }
  | .fail offer _ _ => some { sessionId := offer.sessionId, allows := [.negotiating] }
  | .announceFailed offer _ _ => some { sessionId := offer.sessionId, allows := [.failed] }
  | .returned .. => none

/-- A cancelled upload would announce a failure: no state goes with that. -/
def UploadFiles.footing : UploadFiles → Option Footing
  | .register upload => some { sessionId := upload.sessionId, allows := [.active] }
  | .engine upload _ _ _ => some { sessionId := upload.sessionId, allows := [.active] }
  | .recordFile upload _ _ _ => some { sessionId := upload.sessionId, allows := [.active] }
  | .decide upload => some { sessionId := upload.sessionId, allows := [.active] }
  | .complete upload => some { sessionId := upload.sessionId, allows := [.active] }
  | .announceCompleted upload => some { sessionId := upload.sessionId, allows := [.completed] }
  | .describe upload => some { sessionId := upload.sessionId, allows := [.active] }
  | .classify upload _ => some { sessionId := upload.sessionId, allows := [.active] }
  | .fail upload state _ =>
    some { sessionId := upload.sessionId, allows := if state = .failed then [.active] else [] }
  | .announceFailed upload _ => some { sessionId := upload.sessionId, allows := [.failed] }
  | .unregister upload => some { sessionId := upload.sessionId, allows := [.completed, .failed] }
  | .returned _ => none

/-- Around the update a decision makes; accepting leads nowhere, the session is handshaking. -/
def Decision.before : Decision → List SessionState
  | .accept _ => []
  | .reject _ => [.handshaking]

def Decision.after : Decision → List SessionState
  | .accept _ => []
  | .reject _ => [.failed]

def IncomingSession.footing : IncomingSession → Option Footing
  | .read => none
  | .create _ => none
  | .register request => some { sessionId := request.sessionId, allows := [.handshaking] }
  | .openChannel request => some { sessionId := request.sessionId, allows := [.handshaking] }
  | .announceRequested request => some { sessionId := request.sessionId, allows := [.handshaking] }
  | .wait request => some { sessionId := request.sessionId, allows := [.handshaking] }
  | .write request decision => some { sessionId := request.sessionId, allows := decision.before }
  | .record request decision => some { sessionId := request.sessionId, allows := decision.before }
  | .announce request decision => some { sessionId := request.sessionId, allows := decision.after }
  | .cleanup request => some { sessionId := request.sessionId, allows := [.failed] }
  | .returned .. => none

/-- The states `update_state` can take to the state a verdict leads to. -/
def Verdict.sources : Verdict → List SessionState
  | .accept => [.negotiating]
  | .reject _ => [.handshaking, .negotiating, .active]

def RespondSession.footing : RespondSession → Option Footing
  | .lock response => some { sessionId := response.sessionId, allows := response.verdict.sources }
  | .identify response _ => some { sessionId := response.sessionId, allows := response.verdict.sources }
  | .send response _ _ => some { sessionId := response.sessionId, allows := response.verdict.sources }
  | .record response => some { sessionId := response.sessionId, allows := response.verdict.sources }
  | .announce response => some { sessionId := response.sessionId, allows := [response.verdict.state] }
  | .unlock response => some { sessionId := response.sessionId, allows := [response.verdict.state] }
  | .returned _ => none

def CancelSession.footing : CancelSession → Option Footing
  | .cancel sessionId _ => some { sessionId, allows := [.handshaking, .negotiating, .active] }
  | .record sessionId _ => some { sessionId, allows := [.handshaking, .negotiating, .active] }
  | .announce sessionId _ => some { sessionId, allows := [.cancelled] }
  | .returned _ => none

/-- `TransferEngine::start` asks for Handshaking to Active at its first update. -/
def EngineStart.footing : EngineStart → Option Footing
  | .create sessionId _ _ => some { sessionId, allows := [] }
  | .activate sessionId => some { sessionId, allows := [] }
  | .lock sessionId => some { sessionId, allows := [] }
  | .upload sessionId => some { sessionId, allows := [] }
  | .uploading sessionId => some { sessionId, allows := [] }
  | .unlock sessionId _ => some { sessionId, allows := [] }
  | .updateProgress sessionId _ => some { sessionId, allows := [] }
  | .complete sessionId _ => some { sessionId, allows := [] }
  | .returned .. => none

def StartTransfer.footing : StartTransfer → Option Footing
  | .insertToken _ => none
  | .openChannel _ => none
  | .create _ => none
  | .insertStatus transfer => some { sessionId := transfer.sessionId, allows := [.handshaking] }
  | .insertModel transfer => some { sessionId := transfer.sessionId, allows := [.handshaking] }
  | .announceStarted transfer => some { sessionId := transfer.sessionId, allows := [.handshaking] }
  | .handshake transfer => some { sessionId := transfer.sessionId, allows := [.handshaking] }
  | .setRemoteCaps transfer _ => some { sessionId := transfer.sessionId, allows := [.handshaking] }
  | .negotiate transfer => some { sessionId := transfer.sessionId, allows := [.handshaking] }
  | .activate transfer => some { sessionId := transfer.sessionId, allows := [.negotiating] }
  | .engine transfer _ => some { sessionId := transfer.sessionId, allows := [.active] }
  | .report transfer _ => some { sessionId := transfer.sessionId, allows := [.active] }
  | .updateProgress transfer _ => some { sessionId := transfer.sessionId, allows := [.active] }
  | .complete transfer _ => some { sessionId := transfer.sessionId, allows := [.active] }
  | .setCompleted transfer _ => some { sessionId := transfer.sessionId, allows := [.completed] }
  | .setModelCompleted transfer _ => some { sessionId := transfer.sessionId, allows := [.completed] }
  | .announceCompleted transfer _ => some { sessionId := transfer.sessionId, allows := [.completed] }
  | .announceError transfer _ => some { sessionId := transfer.sessionId, allows := [.active] }
  | .recordError transfer _ => some { sessionId := transfer.sessionId, allows := [.active] }
  | .setFailed transfer error => some { sessionId := transfer.sessionId, allows := [errorState error] }
  | .setModelFailed transfer error =>
    some { sessionId := transfer.sessionId, allows := [errorState error] }
  | .returned .. => none

def Task.footing : Task → Option Footing
  | .startSession point => point.footing
  | .uploadFiles point => point.footing
  | .incomingSession point => point.footing
  | .respondSession point => point.footing
  | .cancelSession point => point.footing
  | .sessionEventStream _ => none
  | .engineStart point => point.footing
  | .startTransfer point => point.footing

/-- The access suits a session in this state: an update the table has, a true announcement. -/
def Access.Suits (footing : Option Footing) (state : SessionState) : Access → Prop
  | .session (.updateState id target _) =>
    footing.map Footing.sessionId = some id ∧ validTransition state target = true
  | .session (.create ..) => footing = none
  | .emit event => footing.map Footing.sessionId = some event.sessionId ∧
      ∀ announced, event.announces = some announced → state = announced
  | _ => True

def Access.Leads (footing next : Option Footing) (state : SessionState) (access : Access) : Prop :=
  ∀ after, next = some after → match access with
    | .session (.updateState _ target _) =>
      footing.map Footing.sessionId = some after.sessionId ∧ target ∈ after.allows
    | .session (.create id ..) => after.sessionId = id ∧ .handshaking ∈ after.allows
    | _ => footing.map Footing.sessionId = some after.sessionId ∧ state ∈ after.allows

/-- A reply as undisturbed tasks see it: no token is cancelled, no decision is made. -/
def Reply.Undisturbed : Reply → Prop
  | .token cancelled => cancelled = none
  | .decision channel => channel = .pending
  | _ => True

variable {state : SessionState} {reply : Reply} {choice : Choice}

theorem StartSession.advance {point next : StartSession}
    (resumed : point.resume reply choice = some next)
    (stands : ∀ footing, point.footing = some footing → state ∈ footing.allows) :
    (point.access choice).Suits point.footing state ∧
      (point.access choice).Leads point.footing next.footing state := by
  cases moves_of_resume resumed <;>
    simp_all [access, footing, Access.Suits, Access.Leads, validTransition, SessionEvent.sessionId,
      SessionEvent.announces]

theorem IncomingSession.advance {point next : IncomingSession}
    (resumed : point.resume reply choice = some next) (undisturbed : reply.Undisturbed)
    (stands : ∀ footing, point.footing = some footing → state ∈ footing.allows) :
    (point.access choice).Suits point.footing state ∧
      (point.access choice).Leads point.footing next.footing state := by
  cases moves_of_resume resumed with
  | decided | dropped => cases undisturbed
  | record _ decision =>
    cases decision <;> simp_all
      [access, footing, Access.Suits, Access.Leads, validTransition, Decision.before,
      Decision.after, Decision.verdict, Verdict.state]
  | announce _ decision =>
    cases decision <;> simp_all
      [access, footing, Access.Suits, Access.Leads, Decision.after, Decision.verdict,
      Verdict.event, SessionEvent.sessionId, SessionEvent.announces]
  | _ =>
    simp_all [access, footing, Access.Suits, Access.Leads, SessionEvent.sessionId,
      SessionEvent.announces,
      Decision.before]

theorem EngineRun.access_plain (run : EngineRun) (state : SessionState) (sessionId fileId : String)
    (resumeOffset : Option UInt64) (footing next : Option Footing) :
    (run.access (.beginUpload sessionId fileId resumeOffset)).Suits footing state ∧
      ((∀ after, next = some after → footing.map Footing.sessionId = some after.sessionId ∧
        state ∈ after.allows) →
        (run.access (.beginUpload sessionId fileId resumeOffset)).Leads footing next state) := by
  cases run <;> exact ⟨trivial, fun leads => leads⟩

theorem UploadFiles.footing_next (upload : Upload) (files : List FileMeta) :
    (next upload files).footing = some { sessionId := upload.sessionId, allows := [.active] } := by
  induction files with
  | nil => rfl
  | cons _ _ ih =>
    unfold next
    split
    · rfl
    · exact ih

theorem UploadFiles.advance {point next : UploadFiles}
    (resumed : point.resume reply choice = some next) (undisturbed : reply.Undisturbed)
    (stands : ∀ footing, point.footing = some footing → state ∈ footing.allows) :
    (point.access choice).Suits point.footing state ∧
      (point.access choice).Leads point.footing next.footing state := by
  cases moves_of_resume resumed with
  | register upload moved goes | recordFile upload file remaining reported moved goes =>
    rw [goes, footing_next]
    simp_all [access, footing, Access.Suits, Access.Leads]
  | engine upload file remaining run | uploaded upload file remaining run
    | failed upload file remaining run =>
    have same : state = .active := by simpa [footing] using stands
    obtain ⟨suits, leads⟩ := run.access_plain state upload.sessionId file.fileId
      (upload.resumeOffsets.lookup file.fileId)
      (some { sessionId := upload.sessionId, allows := [.active] }) _
    refine ⟨suits, leads fun after standing => ?_⟩
    cases standing
    simp [same]
  | interrupt | describeCancelled | classifyCancelled => cases undisturbed
  | fail _ target =>
    by_cases failed : target = .failed <;>
      simp_all [access, footing, Access.Suits, Access.Leads, validTransition]
  | _ =>
    simp_all [access, footing, Access.Suits, Access.Leads, validTransition, SessionEvent.sessionId,
      SessionEvent.announces]

theorem RespondSession.advance {point next : RespondSession}
    (resumed : point.resume reply choice = some next)
    (stands : ∀ footing, point.footing = some footing → state ∈ footing.allows) :
    (point.access choice).Suits point.footing state ∧
      (point.access choice).Leads point.footing next.footing state := by
  have suited (verdict : Verdict) (source : state ∈ verdict.sources) :
      validTransition state verdict.state = true := by
    cases verdict <;> simp only [Verdict.sources, List.mem_cons, List.not_mem_nil, or_false] at source
    · rw [source]
      rfl
    · rcases source with rfl | rfl | rfl <;> rfl
  have announced (sessionId : String) (verdict : Verdict) :
      (verdict.event sessionId).sessionId = sessionId ∧
      (verdict.event sessionId).announces = some verdict.state := by
    cases verdict <;> exact ⟨rfl, rfl⟩
  cases moves_of_resume resumed with
  | record response =>
    have source : state ∈ response.verdict.sources := by simpa [footing] using stands
    simp [access, footing, Access.Suits, Access.Leads, suited _ source]
  | _ => simp_all [access, footing, Access.Suits, Access.Leads]

theorem CancelSession.advance {point next : CancelSession}
    (resumed : point.resume reply choice = some next)
    (stands : ∀ footing, point.footing = some footing → state ∈ footing.allows) :
    (point.access choice).Suits point.footing state ∧
      (point.access choice).Leads point.footing next.footing state := by
  cases moves_of_resume resumed with
  | record sessionId reason admitted =>
    have source : state = .handshaking ∨ state = .negotiating ∨ state = .active := by
      simpa [footing] using stands
    rcases source with rfl | rfl | rfl <;>
      simp [access, footing, Access.Suits, Access.Leads, validTransition]
  | _ =>
    simp_all [access, footing, Access.Suits, Access.Leads, SessionEvent.sessionId,
      SessionEvent.announces]

theorem EngineStart.advance {point next : EngineStart}
    (resumed : point.resume reply choice = some next)
    (stands : ∀ footing, point.footing = some footing → state ∈ footing.allows) : False := by
  cases point with
  | returned => cases resumed
  | _ => simp [footing] at stands

theorem StartTransfer.advance {point next : StartTransfer}
    (resumed : point.resume reply choice = some next)
    (stands : ∀ footing, point.footing = some footing → state ∈ footing.allows) :
    (point.access choice).Suits point.footing state ∧
      (point.access choice).Leads point.footing next.footing state := by
  have suited (error : Transfer.TransferError) : validTransition .active (errorState error) = true := by
    unfold errorState
    split <;> rfl
  cases moves_of_resume resumed with
  | engine transfer run | uploaded transfer run | failed transfer run =>
    have same : state = .active := by simpa [footing] using stands
    obtain ⟨suits, leads⟩ := run.access_plain state transfer.sessionId transfer.sessionId
      transfer.resumeOffset (some { sessionId := transfer.sessionId, allows := [.active] }) _
    refine ⟨suits, leads fun after standing => ?_⟩
    cases standing
    simp [same]
  | _ => simp_all [access, footing, Access.Suits, Access.Leads, validTransition]

theorem Task.advance {task next : Task} (resumed : task.resume reply choice = some next)
    (undisturbed : reply.Undisturbed)
    (stands : ∀ footing, task.footing = some footing → state ∈ footing.allows) :
    (task.access choice).Suits task.footing state ∧
      (task.access choice).Leads task.footing next.footing state := by
  cases task with
  | startSession =>
    obtain ⟨moved, ran, rfl⟩ := Option.map_eq_some_iff.mp resumed
    exact StartSession.advance ran stands
  | uploadFiles =>
    obtain ⟨moved, ran, rfl⟩ := Option.map_eq_some_iff.mp resumed
    exact UploadFiles.advance ran undisturbed stands
  | incomingSession =>
    obtain ⟨moved, ran, rfl⟩ := Option.map_eq_some_iff.mp resumed
    exact IncomingSession.advance ran undisturbed stands
  | respondSession =>
    obtain ⟨moved, ran, rfl⟩ := Option.map_eq_some_iff.mp resumed
    exact RespondSession.advance ran stands
  | cancelSession =>
    obtain ⟨moved, ran, rfl⟩ := Option.map_eq_some_iff.mp resumed
    exact CancelSession.advance ran stands
  | sessionEventStream point =>
    obtain ⟨moved, ran, rfl⟩ := Option.map_eq_some_iff.mp resumed
    cases point <;> exact ⟨trivial, by simp [Access.Leads, footing]⟩
  | engineStart =>
    obtain ⟨moved, ran, rfl⟩ := Option.map_eq_some_iff.mp resumed
    exact (EngineStart.advance ran stands).elim
  | startTransfer =>
    obtain ⟨_, ran, rfl⟩ := Option.map_eq_some_iff.mp resumed
    exact StartTransfer.advance ran stands

variable {task moved : Task} {id : String} {footing : Footing}

theorem Task.footing_tokenId (standing : task.footing = some footing)
    (owns : task.tokenId = some id) :
    footing.sessionId = id := by
  cases task with
  | uploadFiles point => cases point <;> cases standing <;> cases owns <;> rfl
  | startTransfer point => cases point <;> cases standing <;> cases owns <;> rfl
  | _ => cases owns

theorem Task.footing_registered (standing : task.footing = some footing)
    (entered : task.registered = some id) :
    footing.sessionId = id := by
  cases task with
  | incomingSession point => cases point <;> cases standing <;> cases entered <;> rfl
  | _ => cases entered

theorem Task.returned_of_registered (entered : task.registered = some id)
    (left : task.footing = none) :
    ∃ sessionId result, task = .incomingSession (.returned sessionId result) := by
  cases task with
  | incomingSession point =>
    cases point with
    | returned sessionId result => exact ⟨sessionId, result, rfl⟩
    | read | create => cases entered
    | _ => cases left
  | _ => cases entered

theorem Task.footing_readToken (reads : task.access choice = .readToken) : task.footing ≠ none := by
  have made := task.madeBy choice
  rw [reads] at made
  obtain ⟨_, owns⟩ := made
  cases task with
  | uploadFiles point =>
    cases point with
    | returned => cases reads
    | _ => exact Option.some_ne_none _
  | startTransfer point =>
    cases point with
    | insertToken | openChannel | create | returned => cases reads
    | _ => exact Option.some_ne_none _
  | _ => cases owns

theorem Task.spawned_cases (resumed : task.resume reply choice = some moved) :
    task.spawned = [] ∨ ∃ upload : Upload, task.spawned = [.uploadFiles (.register upload)] ∧
      task.footing = some { sessionId := upload.sessionId, allows := [.active] } ∧
      task.access choice = .idle ∧ moved.footing = none := by
  cases task with
  | startSession point =>
    cases point with
    | spawn offer accept =>
      refine .inr ⟨StartSession.upload offer accept, rfl, rfl, rfl, ?_⟩
      obtain ⟨_, ran, rfl⟩ := Option.map_eq_some_iff.mp resumed
      cases reply <;> cases choice <;> cases ran
      rfl
    | _ => exact .inl rfl
  | _ => exact .inl rfl

end DistributedOs.Coordinator
