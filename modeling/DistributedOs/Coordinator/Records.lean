import DistributedOs.Coordinator.TransferEngine
import DistributedOs.Coordinator.Failures

/-! The three records of a transfer: `states`, the status in `transfers`, and its session.
`start_transfer` writes them one after the other whatever they say, `pause`, `resume` and
`cancel` write the first two and never look at the third. -/

namespace DistributedOs.Coordinator

open Semantics DistributedOs.Session DistributedOs.Transfer SessionManager

def TransferStatus.isTerminal : TransferStatus → Bool
  | .completed => true
  | .failed _ => true
  | _ => false

namespace EngineState

/-- What `states` says of a transfer, what `transfers` does, and what was recorded of its session. -/
def statusOf (state : EngineState) (id : String) : Option TransferStatus :=
  state.pool.shared.states.lookup id

def modelStatusOf (state : EngineState) (id : String) : Option TransferStatus :=
  (state.pool.shared.transfers.lookup id).map TransferModel.status

def sessionOf (state : EngineState) (id : String) : Option SessionState :=
  recorded id state.pool.trace

end EngineState

/-- How far `start_transfer` is with the records of its transfer. -/
inductive Phase where
  | entering
  | listing
  | running
  | completing
  | storing
  | completed
  | failing
  | recording
  | recorded
  | failed
  deriving DecidableEq

def StartTransfer.phase : StartTransfer → Option Phase
  | .insertToken _ => none
  | .openChannel _ => none
  | .create _ => none
  | .insertStatus _ => some .entering
  | .insertModel _ => some .listing
  | .announceStarted _ => some .running
  | .handshake _ => some .running
  | .setRemoteCaps _ _ => some .running
  | .negotiate _ => some .running
  | .activate _ => some .running
  | .engine _ _ => some .running
  | .report _ _ => some .running
  | .updateProgress _ _ => some .running
  | .complete _ _ => some .running
  | .setCompleted _ _ => some .completing
  | .setModelCompleted _ _ => some .storing
  | .announceCompleted _ _ => some .completed
  | .announceError _ _ => some .failing
  | .recordError _ _ => some .failing
  | .setFailed _ _ => some .recording
  | .setModelFailed _ _ => some .recorded
  | .returned _ (.ok _) => some .completed
  | .returned _ (.error _) => some .failed

namespace Phase

/-- The end of the transfer is being written into its records. -/
def isFinishing : Phase → Bool
  | .completing | .storing | .failing | .recording | .recorded => true
  | _ => false

def isExecuting : Phase → Bool
  | .completed | .failed => false
  | _ => true

def isDoomed : Phase → Bool
  | .failing | .recording | .recorded | .failed => true
  | _ => false

end Phase

namespace Task

def phase (id : String) : Task → Option Phase
  | .startTransfer point => if point.tokenId = id then point.phase else none
  | _ => none

/-- The task is a run of the transfer: its `start_transfer`, which has not returned. -/
def executes (id : String) : Task → Bool
  | .startTransfer (.returned ..) => false
  | task => (task.phase id).isSome

def finishes (id : String) (task : Task) : Bool := (task.phase id).any Phase.isFinishing

end Task

/-- The records of one transfer agree. While its end is being written they are not compared. -/
structure Agreed (id : String) (state : EngineState) : Prop where
  terminal : state.pool.tasks.any (Task.finishes id) = false →
    (state.statusOf id).any TransferStatus.isTerminal = true ∨
    (state.modelStatusOf id).any TransferStatus.isTerminal = true ∨
      (state.sessionOf id).any SessionState.isTerminal = true →
    (state.statusOf id).any TransferStatus.isTerminal = true ∧
    (state.modelStatusOf id).any TransferStatus.isTerminal = true ∧
      (state.sessionOf id).any SessionState.isTerminal = true
  running : state.statusOf id = some .running ∨ state.modelStatusOf id = some .running →
    state.pool.tasks.any (Task.executes id) = true
  paused : state.statusOf id = some .paused ∨ state.modelStatusOf id = some .paused →
    state.statusOf id ≠ some .completed ∧ state.modelStatusOf id ≠ some .completed ∧
    state.sessionOf id ≠ some .completed
  cancelled : id ∈ state.cancelled →
    state.statusOf id ≠ some .completed ∧ state.modelStatusOf id ≠ some .completed ∧
    state.sessionOf id ≠ some .completed ∧
      ∀ caller total, .emittedTransfer caller (.completed id total) ∉ state.pool.trace

def Access.records? : Access → Option String
  | .session (.create id ..) => some id
  | .session (.updateState id ..) => some id
  | _ => none

/-- What goes well for a transfer in a turn of a task: only its `start_transfer` has its session
in hand, that call does not return with `?`, and it completes what is running by both records. -/
def Task.behaves (id : String) (state : EngineState) (task : Task) (choice : Choice) : Bool :=
  ((task.access choice).records? ≠ some id || task matches .startTransfer _) &&
    task.abandons choice ≠ some id &&
    match task with
    | .startTransfer (.complete transfer _) =>
      transfer.sessionId ≠ id ||
      (state.statusOf id = some .running && state.modelStatusOf id = some .running)
    | _ => true

/-- What goes well in a turn of a method: it pauses no transfer that is complete, resumes none
that has failed, and marks as cancelled only one that fails or has failed. -/
def EngineMethod.behaves (id : String) (state : EngineState) : EngineMethod → Bool
  | .pauseStates paused => paused ≠ id || state.sessionOf id ≠ some .completed
  | .resumeStates resumed => resumed ≠ id || !(state.statusOf id).any TransferStatus.hasFailed
  | .cancelStates cancelled _ =>
    cancelled ≠ id || state.pool.tasks.any fun task => (task.phase id).any Phase.isDoomed
  | _ => true

/-- The turn leaves the records of the transfer in agreement. -/
def agrees (id : String) (state : EngineState) : EngineLabel → Bool
  | .call _ => true
  | .method index => (state.methods[index]?).all fun method => method.behaves id state
  | .pool (.call _) => true
  | .pool (.run index choice) => createdOnce state.pool (.run index choice) &&
      (state.pool.tasks[index]?).all fun task => task.behaves id state choice
  | .begin .. => true
  | .sent _ => true

variable {reply : Reply} {choice : Choice} {task moved : Task} {id : String} {phase after : Phase}
variable {state : EngineState} {pool : TransferCoordinator} {index : Nat}

def IsLive (status : Option TransferStatus) : Prop := status = some .running ∨ status = some .paused

def HasFailed (status : Option TransferStatus) : Prop := ∃ error, status = some (.failed error)

def IsOpen (session : Option SessionState) : Prop :=
  ∃ state, session = some state ∧ state.isTerminal = false

def IsBroken (session : Option SessionState) : Prop :=
  session = some .failed ∨ session = some .cancelled

/-- What the three records can be in a phase: the session, `states` and `transfers`. -/
def Phase.Fits (session : Option SessionState) (status model : Option TransferStatus) : Phase → Prop
  | .entering => IsOpen session ∧ status = none ∧ model = none
  | .listing => IsOpen session ∧ IsLive status ∧ model = none
  | .running => IsOpen session ∧ IsLive status ∧ IsLive model
  | .completing => session = some .completed ∧ status = some .running ∧ model = some .running
  | .storing => session = some .completed ∧ status = some .completed ∧ model = some .running
  | .completed => session = some .completed ∧ status = some .completed ∧ model = some .completed
  | .failing => IsOpen session ∧ (IsLive status ∨ HasFailed status) ∧ (IsLive model ∨ HasFailed model)
  | .recording =>
    IsBroken session ∧ (IsLive status ∨ HasFailed status) ∧ (IsLive model ∨ HasFailed model)
  | .recorded => IsBroken session ∧ HasFailed status ∧ (IsLive model ∨ HasFailed model)
  | .failed => IsBroken session ∧ HasFailed status ∧ HasFailed model

variable {session : Option SessionState} {status model : Option TransferStatus}

theorem IsLive.ongoing (live : IsLive status) : status.any TransferStatus.isTerminal = false := by
  rcases live with rfl | rfl <;> rfl

theorem HasFailed.ended (failed : HasFailed status) :
    status.any TransferStatus.isTerminal = true := by
  obtain ⟨_, rfl⟩ := failed
  rfl

theorem IsOpen.ongoing (opens : IsOpen session) : session.any SessionState.isTerminal = false := by
  obtain ⟨_, rfl, ongoing⟩ := opens
  exact ongoing

theorem IsBroken.ended (broken : IsBroken session) :
    session.any SessionState.isTerminal = true := by
  rcases broken with rfl | rfl <;> rfl

namespace Phase

/-- Between the phases that write the end, no record is terminal or all are. -/
theorem Fits.together (fits : phase.Fits session status model) (rests : phase.isFinishing = false) :
    (status.any TransferStatus.isTerminal = false ∧ model.any TransferStatus.isTerminal = false ∧
        session.any SessionState.isTerminal = false) ∨
      (status.any TransferStatus.isTerminal = true ∧ model.any TransferStatus.isTerminal = true ∧
        session.any SessionState.isTerminal = true) := by
  cases phase with
  | entering =>
    obtain ⟨opens, rfl, rfl⟩ := fits
    exact .inl ⟨rfl, rfl, opens.ongoing⟩
  | listing =>
    obtain ⟨opens, live, rfl⟩ := fits
    exact .inl ⟨live.ongoing, rfl, opens.ongoing⟩
  | running =>
    obtain ⟨opens, live, listed⟩ := fits
    exact .inl ⟨live.ongoing, listed.ongoing, opens.ongoing⟩
  | completed =>
    obtain ⟨rfl, rfl, rfl⟩ := fits
    exact .inr ⟨rfl, rfl, rfl⟩
  | failed =>
    obtain ⟨broken, failed, listed⟩ := fits
    exact .inr ⟨failed.ended, listed.ended, broken.ended⟩
  | _ => cases rests

theorem Fits.not_live (fits : phase.Fits session status model)
    (halted : phase.isExecuting = false) :
    ¬ IsLive status ∧ ¬ IsLive model := by
  have ended {given : Option TransferStatus}
      (terminal : given.any TransferStatus.isTerminal = true) : ¬ IsLive given := by
    intro live
    rw [live.ongoing] at terminal
    cases terminal
  cases phase with
  | completed =>
    obtain ⟨_, rfl, rfl⟩ := fits
    exact ⟨ended rfl, ended rfl⟩
  | failed =>
    obtain ⟨_, failed, listed⟩ := fits
    exact ⟨ended failed.ended, ended listed.ended⟩
  | _ => cases halted

/-- Where a record says Completed, none says Paused, and the transfer does not fail. -/
theorem Fits.completed_cases (fits : phase.Fits session status model)
    (completed : status = some .completed ∨ model = some .completed ∨ session = some .completed) :
    (status ≠ some .paused ∧ model ≠ some .paused) ∧ phase.isDoomed = false := by
  have live {given : Option TransferStatus} (ongoing : IsLive given) : given ≠ some .completed := by
    rintro rfl
    rcases ongoing with same | same <;> cases same
  have lapsed {given : Option TransferStatus} (failed : HasFailed given) : given ≠ some .completed := by
    rintro rfl
    obtain ⟨_, same⟩ := failed
    cases same
  have opened (opens : IsOpen session) : session ≠ some .completed := by
    rintro rfl
    obtain ⟨_, same, ongoing⟩ := opens
    cases same
    cases ongoing
  have broke (broken : IsBroken session) : session ≠ some .completed := by
    rintro rfl
    rcases broken with same | same <;> cases same
  have either {given : Option TransferStatus} (which : IsLive given ∨ HasFailed given) :
      given ≠ some .completed :=
    which.elim live lapsed
  have never (status' : status ≠ some .completed) (model' : model ≠ some .completed)
      (session' : session ≠ some .completed) : False := by
    rcases completed with same | same | same
    · exact status' same
    · exact model' same
    · exact session' same
  cases phase with
  | entering =>
    obtain ⟨opens, rfl, rfl⟩ := fits
    exact (never nofun nofun (opened opens)).elim
  | listing =>
    obtain ⟨opens, ongoing, rfl⟩ := fits
    exact (never (live ongoing) nofun (opened opens)).elim
  | running =>
    obtain ⟨opens, ongoing, listed⟩ := fits
    exact (never (live ongoing) (live listed) (opened opens)).elim
  | completing | storing | completed =>
    obtain ⟨_, rfl, rfl⟩ := fits
    exact ⟨⟨nofun, nofun⟩, rfl⟩
  | failing =>
    obtain ⟨opens, ongoing, listed⟩ := fits
    exact (never (either ongoing) (either listed) (opened opens)).elim
  | recording =>
    obtain ⟨broken, ongoing, listed⟩ := fits
    exact (never (either ongoing) (either listed) (broke broken)).elim
  | recorded =>
    obtain ⟨broken, failed, listed⟩ := fits
    exact (never (lapsed failed) (either listed) (broke broken)).elim
  | failed =>
    obtain ⟨broken, failed, listed⟩ := fits
    exact (never (lapsed failed) (lapsed listed) (broke broken)).elim

end Phase

theorem StartTransfer.entered_of_phase (begun : point.phase = some phase) :
    (Task.startTransfer point).entered = some point.tokenId := by
  cases point with
  | insertToken | openChannel | create => cases begun
  | _ => rfl

theorem Task.phase_spec (begun : task.phase id = some phase) :
    ∃ point, task = .startTransfer point ∧ point.tokenId = id ∧ point.phase = some phase := by
  cases task with
  | startTransfer point =>
    by_cases same : point.tokenId = id
    · exact ⟨point, rfl, same, (if_pos same).symm.trans begun⟩
    · cases (if_neg same).symm.trans begun
  | _ => cases begun

theorem Task.entered_of_phase (begun : task.phase id = some phase) : task.entered = some id := by
  obtain ⟨_, rfl, rfl, here⟩ := phase_spec begun
  exact StartTransfer.entered_of_phase here

theorem IsOpen.update {session target : SessionState} (opens : IsOpen (some session))
    (ongoing : target.isTerminal = false) :
    IsOpen (some ((Access.session (.updateState id target error)).lands id session)) := by
  simp only [Access.lands, true_and]
  split
  · exact ⟨target, rfl, ongoing⟩
  · exact opens

theorem IsOpen.active {session : SessionState} (opens : IsOpen (some session))
    (stands : ({ sessionId := id, allows := [.active] } : Footing).Admits session) :
    session = .active := by
  obtain ⟨_, same, ongoing⟩ := opens
  cases same
  rcases stands with terminal | allowed
  · rw [ongoing] at terminal
    cases terminal
  · exact List.mem_singleton.mp allowed

theorem EngineRun.access_lands (run : EngineRun) (id sessionId fileId : String)
    (resumeOffset : Option UInt64) (session : SessionState) (status model : Option TransferStatus) :
    (run.access (.beginUpload sessionId fileId resumeOffset)).lands id session = session ∧
      (run.access (.beginUpload sessionId fileId resumeOffset)).landsStatus id status = status ∧
      (run.access (.beginUpload sessionId fileId resumeOffset)).landsModel id model = model := by
  cases run <;> exact ⟨rfl, rfl, rfl⟩

/-- One turn of `start_transfer` takes the records from phase to phase. -/
theorem StartTransfer.phase_resume {session : SessionState}
    (resumed : point.resume reply choice = some next)
    (begun : point.phase = some phase) (fits : phase.Fits (some session) status model)
    (stands : ∀ footing, point.holds = some footing → footing.Admits session)
    (goes : (Task.startTransfer point).abandons choice ≠ some point.tokenId)
    (both : ∀ transfer progress, point = .complete transfer progress →
      status = some .running ∧ model = some .running) :
    ∃ after, next.phase = some after ∧
      after.Fits (some ((point.access choice).lands point.tokenId session))
        ((point.access choice).landsStatus point.tokenId status)
        ((point.access choice).landsModel point.tokenId model) ∧
      (phase.isDoomed = true → after.isDoomed = true) := by
  cases moves_of_resume resumed with
  | insertToken | openChannel | create => cases begun
  | insertStatus =>
    cases begun
    obtain ⟨opens, _, none⟩ := fits
    refine ⟨.listing, rfl, ⟨opens, .inl ?_, none⟩, by rintro ⟨⟩⟩
    exact if_pos rfl
  | insertModel =>
    cases begun
    obtain ⟨opens, live, _⟩ := fits
    refine ⟨.running, rfl, ⟨opens, live, .inl ?_⟩, by rintro ⟨⟩⟩
    exact if_pos rfl
  | misaddressed _ _ parsed =>
    refine absurd ?_ goes
    simp [Task.abandons, tokenId, parsed]
  | refused => exact absurd rfl goes
  | negotiate | activate =>
    cases begun
    obtain ⟨opens, live, listed⟩ := fits
    exact ⟨.running, rfl, ⟨opens.update rfl, live, listed⟩, by rintro ⟨⟩⟩
  | engine transfer run | uploaded transfer run =>
    cases begun
    simp only [access, tokenId, run.access_lands transfer.sessionId transfer.sessionId
      transfer.sessionId transfer.resumeOffset session status model]
    exact ⟨.running, rfl, fits, by rintro ⟨⟩⟩
  | failed transfer run =>
    cases begun
    simp only [access, tokenId, run.access_lands transfer.sessionId transfer.sessionId
      transfer.sessionId transfer.resumeOffset session status model]
    obtain ⟨opens, live, listed⟩ := fits
    exact ⟨.failing, rfl, ⟨opens, .inl live, .inl listed⟩, by rintro ⟨⟩⟩
  | complete transfer progress =>
    cases begun
    obtain ⟨running, listed⟩ := both transfer progress rfl
    obtain rfl := fits.1.active (stands _ rfl)
    refine ⟨.completing, rfl, ⟨?_, running, listed⟩, by rintro ⟨⟩⟩
    exact congrArg some (if_pos ⟨rfl, rfl⟩)
  | setCompleted =>
    cases begun
    obtain ⟨completed, _, listed⟩ := fits
    refine ⟨.storing, rfl, ⟨completed, ?_, listed⟩, by rintro ⟨⟩⟩
    exact if_pos rfl
  | setModelCompleted =>
    cases begun
    obtain ⟨completed, stored, listed⟩ := fits
    refine ⟨.completed, rfl, ⟨completed, stored, ?_⟩, by rintro ⟨⟩⟩
    rw [listed]
    exact if_pos rfl
  | recordError =>
    cases begun
    obtain ⟨opens, live, listed⟩ := fits
    obtain rfl := opens.active (stands _ rfl)
    refine ⟨.recording, rfl, ⟨?_, live, listed⟩, fun _ => rfl⟩
    simp only [access, tokenId, Access.lands, errorState]
    split
    · exact .inr rfl
    · exact .inl rfl
  | setFailed _ error =>
    cases begun
    obtain ⟨broken, _, listed⟩ := fits
    refine ⟨.recorded, rfl, ⟨broken, ⟨error.message, ?_⟩, listed⟩, fun _ => rfl⟩
    exact if_pos rfl
  | setModelFailed _ error =>
    cases begun
    obtain ⟨broken, failed, listed⟩ := fits
    refine ⟨.failed, rfl, ⟨broken, failed, error.message, ?_⟩, fun _ => rfl⟩
    have found : ∃ given, model = some given := by
      rcases listed with (rfl | rfl) | ⟨_, rfl⟩ <;> exact ⟨_, rfl⟩
    obtain ⟨_, rfl⟩ := found
    exact if_pos rfl
  | _ =>
    cases begun
    exact ⟨_, rfl, fits, fun doomed => doomed⟩

end DistributedOs.Coordinator
