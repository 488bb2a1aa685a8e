import DistributedOs.Coordinator.Records

/-! When the three records of a transfer agree. Its `start_transfer` moves them through their
phases; the methods must not write a status that the phase does not know. -/

namespace DistributedOs.Coordinator

open Semantics DistributedOs.Session DistributedOs.Transfer SessionManager

def recordsOf (id : String) (pool : TransferCoordinator) :
    Option SessionState × Option TransferStatus × Option TransferStatus :=
  (recorded id pool.trace, pool.shared.states.lookup id,
    (pool.shared.transfers.lookup id).map TransferModel.status)

def FitsIn (id : String) (pool : TransferCoordinator) (phase : Phase) : Prop :=
  phase.Fits (recordsOf id pool).1 (recordsOf id pool).2.1 (recordsOf id pool).2.2

/-- The records of the transfer fit the phase of its run, which is doomed where a `cancel` has
marked it. -/
structure Placed (id : String) (pool : TransferCoordinator) (cancelled : List String) : Prop where
  entered : Entered pool
  fits : ∀ (index : Nat) (task : Task) (phase : Phase), pool.tasks[index]? = some task →
    task.phase id = some phase → FitsIn id pool phase
  absent : (∀ task ∈ pool.tasks, task.phase id = none) → recordsOf id pool = (none, none, none)
  doomed : id ∈ cancelled → ∃ task ∈ pool.tasks, ∃ phase, task.phase id = some phase ∧
    phase.isDoomed = true
  announced : ∀ caller total, .emittedTransfer caller (.completed id total) ∈ pool.trace →
    recorded id pool.trace = some .completed

/-- What a method has written of the transfer before its next turn, and the lock it has kept. -/
def EngineMethod.Awaits (id : String) (state : EngineState) (index : Nat) : EngineMethod → Prop
  | .pauseModel paused =>
    state.statesHeld = some index ∧ (paused = id → state.statusOf id = some .paused)
  | .resumeModel resumed =>
    state.statesHeld = some index ∧ (resumed = id → state.statusOf id = some .running)
  | .cancelModel cancelled _ => cancelled = id → id ∈ state.cancelled
  | _ => True

structure Matched (id : String) (state : EngineState) : Prop where
  placed : Placed id state.pool state.cancelled
  awaits : ∀ (index : Nat) (method : EngineMethod), state.methods[index]? = some method →
    method.Awaits id state index

variable {reply : Reply} {choice : Choice} {task moved : Task} {id : String} {phase : Phase}
  {access : Access}
variable {pool : TransferCoordinator} {cancelled : List String} {state : EngineState}
  {index other : Nat}

theorem placed_new (id deviceId deviceName : String) : Placed id (.new deviceId deviceName) [] where
  entered := entered_new deviceId deviceName
  fits := by simp [TransferCoordinator.new]
  absent := by simp [TransferCoordinator.new, Shared.new, recordsOf, recorded]
  doomed := by simp
  announced := by simp [TransferCoordinator.new]

theorem matched_new (id deviceId deviceName : String) : Matched id (.new deviceId deviceName) where
  placed := placed_new id deviceId deviceName
  awaits := by simp [EngineState.new]

theorem Phase.Fits.known
    (fits : phase.Fits session status model) : ∃ state, session = some state := by
  have broke (broken : IsBroken session) : ∃ state, session = some state := by
    rcases broken with same | same <;> exact ⟨_, same⟩
  cases phase with
  | entering | listing | running | failing =>
    obtain ⟨⟨state, same, _⟩, _⟩ := fits
    exact ⟨state, same⟩
  | completing | storing | completed => exact ⟨.completed, fits.1⟩
  | recording | recorded | failed => exact broke fits.1

theorem Placed.unique (placed : Placed id pool cancelled)
    (present : pool.tasks[index]? = some first) (here : pool.tasks[other]? = some second)
    (begun : first.phase id = some one) (also : second.phase id = some two) : index = other := by
  have mine := placed.entered.creators index first id present (Task.entered_of_phase begun)
  have theirs := placed.entered.creators other second id here (Task.entered_of_phase also)
  exact Option.some.inj (mine.symm.trans theirs)

theorem Placed.cases (placed : Placed id pool cancelled) :
    recordsOf id pool = (none, none, none) ∨
      ∃ task ∈ pool.tasks, ∃ phase, task.phase id = some phase ∧ FitsIn id pool phase ∧
        (id ∈ cancelled → phase.isDoomed = true) := by
  by_cases nobody : ∀ task ∈ pool.tasks, task.phase id = none
  · exact .inl (placed.absent nobody)
  · obtain ⟨task, member, begun⟩ : ∃ task ∈ pool.tasks, task.phase id ≠ none := by simpa using nobody
    obtain ⟨phase, same⟩ := Option.ne_none_iff_exists'.mp begun
    obtain ⟨index, present⟩ := List.mem_iff_getElem?.mp member
    refine .inr ⟨task, member, phase, same, placed.fits index task phase present same, fun marked => ?_⟩
    obtain ⟨_, there, _, also, doomed⟩ := placed.doomed marked
    obtain ⟨_, here⟩ := List.mem_iff_getElem?.mp there
    obtain rfl := placed.unique present here same also
    cases present.symm.trans here
    cases same.symm.trans also
    exact doomed

theorem Task.executes_of_phase (begun : task.phase id = some phase)
    (executing : phase.isExecuting = true) :
    task.executes id = true := by
  obtain ⟨point, rfl, _, here⟩ := phase_spec begun
  cases point with
  | returned _ result => cases result <;> cases here <;> cases executing
  | _ =>
    show (Task.phase id _).isSome = true
    rw [begun]
    rfl

theorem Matched.agreed (matched : Matched id state) : Agreed id state := by
  rcases matched.placed.cases with nothing | ⟨task, member, phase, begun, fits, doomed⟩
  · have session : state.sessionOf id = none := congrArg Prod.fst nothing
    have status : state.statusOf id = none := congrArg (·.2.1) nothing
    have model : state.modelStatusOf id = none := congrArg (·.2.2) nothing
    refine ⟨?_, ?_, ?_, fun _ => ?_⟩
    · rw [session, status, model]
      rintro _ (terminal | terminal | terminal) <;> cases terminal
    · rw [status, model]
      rintro (running | running) <;> cases running
    · rw [status, model]
      rintro (paused | paused) <;> cases paused
    · refine ⟨by simp [status], by simp [model], by simp [session], fun caller total emitted => ?_⟩
      cases session.symm.trans (matched.placed.announced caller total emitted)
  · have fits : phase.Fits (state.sessionOf id) (state.statusOf id) (state.modelStatusOf id) := fits
    refine ⟨fun rests ended => ?_, fun running => ?_, fun paused => ?_, fun marked => ?_⟩
    · have calm : phase.isFinishing = false := by
        have none := List.any_eq_false.mp rests task member
        simpa [Task.finishes, begun] using none
      rcases fits.together calm with ⟨status, model, session⟩ | all
      · rw [status, model, session] at ended
        rcases ended with terminal | terminal | terminal <;> cases terminal
      · exact all
    · refine List.any_eq_true.mpr ⟨task, member, Task.executes_of_phase begun ?_⟩
      by_contra halted
      obtain ⟨status, model⟩ := fits.not_live (Bool.eq_false_iff.mpr halted)
      exact running.elim (fun same => status (.inl same)) fun same => model (.inl same)
    · refine ⟨fun same => ?_, fun same => ?_, fun same => ?_⟩
      · obtain ⟨⟨status, model⟩, _⟩ := fits.completed_cases (.inl same)
        exact paused.elim status model
      · obtain ⟨⟨status, model⟩, _⟩ := fits.completed_cases (.inr (.inl same))
        exact paused.elim status model
      · obtain ⟨⟨status, model⟩, _⟩ := fits.completed_cases (.inr (.inr same))
        exact paused.elim status model
    · have never (completed : state.statusOf id = some .completed ∨
        state.modelStatusOf id = some .completed ∨
          state.sessionOf id = some .completed) : False := by
        have calm := (fits.completed_cases completed).2
        rw [doomed marked] at calm
        cases calm
      exact ⟨fun same => never (.inl same), fun same => never (.inr (.inl same)), fun same =>
        never (.inr (.inr same)),
        fun caller total emitted => never (.inr (.inr (matched.placed.announced caller total emitted)))⟩

theorem Access.records_foreign (foreign : access.records? ≠ some id) :
    access.records known id = known id := by
  unfold records
  split
  · rename_i created peerId peerName direction files
    exact if_neg fun same => foreign (congrArg some same)
  · rename_i updated target error
    exact if_neg fun moves => foreign (congrArg some moves.1)
  · rfl

theorem Access.lands_foreign (foreign : access.enters ≠ some id)
    (status model : Option TransferStatus) :
    access.landsStatus id status = status ∧ access.landsModel id model = model := by
  cases access with
  | insertStatus => exact ⟨if_neg fun same => foreign (congrArg some same), rfl⟩
  | insertModel => exact ⟨rfl, if_neg fun same => foreign (congrArg some same)⟩
  | setModelStatus => exact ⟨rfl, if_neg fun same => foreign (congrArg some same)⟩
  | _ => exact ⟨rfl, rfl⟩

theorem Task.phase_of_enters (enters : (task.access choice).enters = some id) :
    task.phase id ≠ none := by
  obtain ⟨entered, point, rfl⟩ := entered_of_enters enters
  cases point with
  | insertToken | openChannel | create => cases entered
  | returned => cases enters
  | _ =>
    cases entered
    exact fun nothing => nomatch (if_pos rfl).symm.trans nothing

theorem Task.phase_of_emits (emits : task.access choice = .emitEvent (.completed id total)) :
    task.phase id = some .completed := by
  obtain ⟨point, rfl⟩ := startTransfer_of_access (by rw [emits]; rfl)
    (by rw [emits]; exact fun _ same => by cases same)
    (by rw [emits]; exact fun _ same => by cases same)
  cases point with
  | engine _ run => cases run <;> cases emits
  | announceCompleted =>
    cases emits
    exact if_pos rfl
  | announceError transfer error =>
    have event : StartTransfer.errorEvent transfer error = .completed id total :=
      Access.emitEvent.inj emits
    unfold StartTransfer.errorEvent at event
    split at event <;> cases event
  | _ => cases emits

theorem Task.create_of_phase (resumed : task.resume reply choice = some moved)
    (idle : task.phase id = none) (begun : moved.phase id = some phase) :
    ∃ transfer, task = .startTransfer (.create transfer) ∧ transfer.sessionId = id := by
  obtain ⟨_, rfl, own, here⟩ := phase_spec begun
  obtain ⟨before, rfl, ran⟩ := startTransfer_resume resumed rfl
  have mine : before.tokenId = id := (StartTransfer.tokenId_resume ran).symm.trans own
  have none : before.phase = none := (if_pos mine).symm.trans idle
  cases before with
  | create transfer => exact ⟨transfer, rfl, mine⟩
  | insertToken | openChannel =>
    cases StartTransfer.moves_of_resume ran
    cases here
  | returned _ result => cases result <;> cases none
  | _ => cases none

theorem StartTransfer.create_of_records
    (records : (point.access choice).records? = some id)
    (idle : (Task.startTransfer point).phase id = none) :
    ∃ transfer, point = .create transfer ∧ transfer.sessionId = id := by
  cases point with
  | create transfer => exact ⟨transfer, rfl, Option.some.inj records⟩
  | engine _ run => cases run <;> cases records
  | negotiate | activate | complete | recordError =>
    cases records
    cases (if_pos rfl).symm.trans idle
  | _ => cases records

theorem Owned.recordsOf_lands (owned : Owned pool) (ran : Ran pool index choice)
    (admitted : createdOnce pool (.run index choice) = true)
    (known : recorded id pool.trace = some session) : recordsOf id ran.after =
      (some ((ran.task.access choice).lands id session),
        (ran.task.access choice).landsStatus id (pool.shared.states.lookup id),
        (ran.task.access choice).landsModel id
        ((pool.shared.transfers.lookup id).map TransferModel.status)) := by
  have status := perform_landsStatus ran.performed id
  have model := perform_landsModel ran.performed id
  exact congrArg₂ Prod.mk (owned.recorded_lands ran admitted known) (congrArg₂ Prod.mk status model)

theorem Owned.recordsOf_foreign (owned : Owned pool) (ran : Ran pool index choice)
    (records : (ran.task.access choice).records? ≠ some id)
    (enters : (ran.task.access choice).enters ≠ some id) :
    recordsOf id ran.after = recordsOf id pool := by
  have session : recorded id ran.after.trace = recorded id pool.trace :=
    (ran.recorded_after owned.ledger id).trans (Access.records_foreign records)
  have status := (perform_landsStatus ran.performed id).trans (Access.lands_foreign enters _ none).1
  have model := (perform_landsModel ran.performed id).trans (Access.lands_foreign enters none _).2
  exact congrArg₂ Prod.mk session (congrArg₂ Prod.mk status model)

theorem StartTransfer.create_resume
    (resumed : (create transfer).resume reply choice = some next) :
    next = .insertStatus transfer := by
  cases moves_of_resume resumed
  rfl

theorem StartTransfer.sessionId_of_holds {point : StartTransfer} {footing : Footing}
    (holds : point.holds = some footing) : footing.sessionId = point.tokenId := by
  cases point <;> cases holds <;> rfl

theorem Placed.created (placed : Placed id pool cancelled) (ran : Ran pool index choice)
    (admitted : createdOnce pool (.run index choice) = true)
    (same : ran.task = .startTransfer (.create transfer)) (own : transfer.sessionId = id) :
    ran.moved.phase id = some .entering ∧ FitsIn id ran.after .entering ∧
      ∀ task ∈ pool.tasks, task.phase id = none := by
  subst own
  have creates : ran.task.access choice =
      .session (.create transfer.sessionId transfer.peerAddr transfer.fileName .upload []) := by
    rw [same]
    rfl
  have fresh := fresh_of_createdOnce ran admitted creates
  have nobody : ∀ task ∈ pool.tasks, task.phase transfer.sessionId = none := by
    intro task member
    obtain ⟨other, there⟩ := List.mem_iff_getElem?.mp member
    refine Option.eq_none_iff_forall_ne_some.mpr fun phase begun => ?_
    obtain ⟨_, known⟩ := (placed.fits other task phase there begun).known
    cases fresh.symm.trans known
  have resumed := ran.resumed
  rw [same] at resumed
  obtain ⟨_, resumed, moved⟩ := Option.map_eq_some_iff.mp resumed
  rw [StartTransfer.create_resume resumed] at moved
  have session : recorded transfer.sessionId ran.after.trace = some .handshaking := by
    have access : ran.access = _ := creates
    rw [ran.recorded_after placed.entered.owned.ledger, access]
    exact if_pos rfl
  have status := perform_landsStatus ran.performed transfer.sessionId
  have model := perform_landsModel ran.performed transfer.sessionId
  rw [creates] at status model
  have before := placed.absent nobody
  refine ⟨?_, ⟨⟨.handshaking, session, rfl⟩, ?_, ?_⟩, nobody⟩
  · rw [← moved]
    exact if_pos rfl
  · exact status.trans (congrArg (·.2.1) before)
  · exact model.trans (congrArg (·.2.2) before)

theorem Placed.advances (placed : Placed id pool cancelled) (ran : Ran pool index choice)
    (admitted : createdOnce pool (.run index choice) = true)
    (goes : ran.task.abandons choice ≠ some id)
    (both : ∀ transfer progress, ran.task = .startTransfer (.complete transfer progress) →
      transfer.sessionId = id →
      (recordsOf id pool).2 = (some .running, some .running))
    (begun : ran.task.phase id = some phase) :
    ∃ after, ran.moved.phase id = some after ∧ FitsIn id ran.after after ∧
      (phase.isDoomed = true → after.isDoomed = true) := by
  have fits : phase.Fits _ _ _ := placed.fits index ran.task phase ran.present begun
  obtain ⟨session, known⟩ := fits.known
  rw [known] at fits
  obtain ⟨point, same, rfl, here⟩ := Task.phase_spec begun
  have resumed := ran.resumed
  rw [same] at resumed goes
  obtain ⟨_, resumed, moved⟩ := Option.map_eq_some_iff.mp resumed
  have stands : ∀ footing, point.holds = some footing → footing.Admits session := by
    intro footing holds
    obtain ⟨_, recorded, admits⟩ := placed.entered.owned.stands index ran.task footing ran.present
      (by rw [same]; exact holds)
    rw [StartTransfer.sessionId_of_holds holds] at recorded
    cases known.symm.trans recorded
    exact admits
  obtain ⟨after, next', lands, dooms⟩ := StartTransfer.phase_resume resumed here fits stands goes
    fun transfer progress complete =>
    Prod.ext_iff.mp (both transfer progress (complete ▸ same) (complete ▸ rfl))
  refine ⟨after, ?_, ?_, dooms⟩
  · rw [← moved]
    exact (if_pos (StartTransfer.tokenId_resume resumed)).trans next'
  · unfold FitsIn
    rw [placed.entered.owned.recordsOf_lands ran admitted known, same]
    exact lands

theorem Placed.announced_after (placed : Placed id pool cancelled) (ran : Ran pool index choice)
    (admitted : createdOnce pool (.run index choice) = true)
    (emitted : .emittedTransfer caller (.completed id total) ∈ ran.after.trace) :
    recorded id ran.after.trace = some .completed := by
  refine placed.entered.owned.recorded_terminal ran admitted ?_ rfl
  rcases ran.mem_trace emitted with ⟨same, _⟩ | ⟨_, emits⟩ | earlier
  · cases same
  · have begun := Task.phase_of_emits emits
    exact (placed.fits index ran.task .completed ran.present begun).1
  · exact placed.announced caller total earlier

theorem Task.phase_of_spawned {new : Task} (member : new ∈ task.spawned) : new.phase id = none := by
  obtain ⟨_, rfl⟩ := Task.spawned_upload member
  rfl

section Turns

variable (placed : Placed id pool cancelled) (ran : Ran pool index choice)
  (admitted : createdOnce pool (.run index choice) = true)
  (sole : (ran.task.access choice).records? = some id → ∃ point, ran.task = .startTransfer point)
  (goes : ran.task.abandons choice ≠ some id)
  (both : ∀ transfer progress, ran.task = .startTransfer (.complete transfer progress) →
    transfer.sessionId = id →
    (recordsOf id pool).2 = (some .running, some .running))
include placed admitted sole goes both

/-- What a turn does to the records: nothing, or its task has a phase to take them to. -/
theorem Placed.turn_cases :
    (ran.task.phase id = none ∧ ran.moved.phase id = none ∧
      recordsOf id ran.after = recordsOf id pool) ∨
      ∃ after, ran.moved.phase id = some after ∧ FitsIn id ran.after after ∧
        (∀ other task, other ≠ index → pool.tasks[other]? = some task → task.phase id = none) ∧
        (id ∈ cancelled → after.isDoomed = true) := by
  by_cases idle : ran.task.phase id = none
  · by_cases records : (ran.task.access choice).records? = some id
    · obtain ⟨_, same⟩ := sole records
      rw [same] at records idle
      obtain ⟨transfer, rfl, own⟩ := StartTransfer.create_of_records records idle
      obtain ⟨begun, fits, nobody⟩ := placed.created ran admitted same own
      refine .inr ⟨.entering, begun, fits, fun other task _ there =>
        nobody task (List.mem_of_getElem? there),
        fun marked => ?_⟩
      obtain ⟨task, member, phase, already, _⟩ := placed.doomed marked
      cases (nobody task member).symm.trans already
    · refine .inl ⟨idle, ?_, placed.entered.owned.recordsOf_foreign ran records fun enters => ?_⟩
      · refine Option.eq_none_iff_forall_ne_some.mpr fun phase begun => ?_
        obtain ⟨_, same, own⟩ := Task.create_of_phase ran.resumed idle begun
        rw [same] at records
        exact records (congrArg some own)
      · exact Task.phase_of_enters enters idle
  · obtain ⟨_, begun⟩ := Option.ne_none_iff_exists'.mp idle
    obtain ⟨after, next, fits, dooms⟩ := placed.advances ran admitted goes both begun
    refine .inr ⟨after, next, fits, fun other task different there => ?_, fun marked => dooms ?_⟩
    · refine Option.eq_none_iff_forall_ne_some.mpr fun also already => ?_
      exact different (placed.unique there ran.present already begun)
    · obtain ⟨_, member, _, already, doomed⟩ := placed.doomed marked
      obtain ⟨_, there⟩ := List.mem_iff_getElem?.mp member
      obtain rfl := placed.unique ran.present there begun already
      cases ran.present.symm.trans there
      cases begun.symm.trans already
      exact doomed

theorem Placed.turned : Placed id ran.after cancelled := by
  have entered := placed.entered.turned ran admitted
  have stands : ran.moved ∈ ran.after.tasks := List.mem_of_getElem? (Pool.getElem?_moved ran.present)
  rcases placed.turn_cases ran admitted sole goes both with
    ⟨idle, still, same⟩ | ⟨after, begun, fits, nobody, doomed⟩
  · refine ⟨entered, ?_, ?_, ?_, fun _ _ => placed.announced_after ran admitted⟩
    · intro other task phase found here
      rcases Pool.getElem?_turned found with ⟨_, rfl⟩ | ⟨_, there⟩ | ⟨_, new⟩
      · cases still.symm.trans here
      · unfold FitsIn
        rw [same]
        exact placed.fits other task phase there here
      · cases (Task.phase_of_spawned (List.mem_of_getElem? new)).symm.trans here
    · intro nobody
      rw [same]
      refine placed.absent fun task member => ?_
      obtain ⟨other, there⟩ := List.mem_iff_getElem?.mp member
      rcases ran.stays there with ⟨_, rfl, _⟩ | ⟨_, kept⟩
      · exact idle
      · exact nobody task (List.mem_of_getElem? kept)
    · intro marked
      obtain ⟨task, member, phase, here, doomed⟩ := placed.doomed marked
      obtain ⟨other, there⟩ := List.mem_iff_getElem?.mp member
      rcases ran.stays there with ⟨_, rfl, _⟩ | ⟨_, kept⟩
      · cases idle.symm.trans here
      · exact ⟨task, List.mem_of_getElem? kept, phase, here, doomed⟩
  · refine ⟨entered, ?_, ?_, ?_, fun _ _ => placed.announced_after ran admitted⟩
    · intro other task _ found here
      rcases Pool.getElem?_turned found with ⟨_, rfl⟩ | ⟨different, there⟩ | ⟨_, new⟩
      · cases begun.symm.trans here
        exact fits
      · cases (nobody other task different there).symm.trans here
      · cases (Task.phase_of_spawned (List.mem_of_getElem? new)).symm.trans here
    · intro none
      cases (none ran.moved stands).symm.trans begun
    · exact fun marked => ⟨ran.moved, stands, after, begun, doomed marked⟩

end Turns

theorem Placed.called (placed : Placed id pool cancelled) (call : Call) :
    Placed id { pool with tasks := pool.tasks ++ [call.start] } cancelled := by
  have idle : call.start.phase id = none := by
    cases call with
    | startTransfer => exact ite_self none
    | _ => rfl
  refine ⟨placed.entered.called call, ?_, ?_, ?_, placed.announced⟩
  · intro other task phase found begun
    rcases Pool.getElem?_called found with present | ⟨_, rfl⟩
    · exact placed.fits other task phase present begun
    · cases idle.symm.trans begun
  · exact fun nobody => placed.absent fun task member => nobody task (List.mem_append_left _ member)
  · intro marked
    obtain ⟨task, member, rest⟩ := placed.doomed marked
    exact ⟨task, List.mem_append_left _ member, rest⟩

section Writes

variable {session : Option SessionState} {status model : Option TransferStatus}
  {given : TransferStatus}

theorem IsLive.no_failure (live : IsLive (some given)) : ¬ HasFailed (some given) := by
  rintro ⟨error, same⟩
  cases same
  rcases live with same | same <;> cases same

theorem Phase.Fits.pause (fits : phase.Fits session (some .running) model)
    (ongoing : session ≠ some .completed) :
    phase.Fits session (some .paused) model := by
  have never : ¬ HasFailed (some .running) := IsLive.no_failure (.inl rfl)
  cases phase with
  | entering => cases fits.2.1
  | listing | running => exact ⟨fits.1, .inr rfl, fits.2.2⟩
  | completing | storing | completed => exact absurd fits.1 ongoing
  | failing | recording => exact ⟨fits.1, .inl (.inr rfl), fits.2.2⟩
  | recorded | failed => exact absurd fits.2.1 never

theorem Phase.Fits.unpause (fits : phase.Fits session (some .paused) model) :
    phase.Fits session (some .running) model := by
  have never : ¬ HasFailed (some .paused) := IsLive.no_failure (.inr rfl)
  cases phase with
  | entering | completing | storing | completed => cases fits.2.1
  | listing | running => exact ⟨fits.1, .inl rfl, fits.2.2⟩
  | failing | recording => exact ⟨fits.1, .inl (.inl rfl), fits.2.2⟩
  | recorded | failed => exact absurd fits.2.1 never

theorem Phase.Fits.list (live : IsLive (some given))
    (fits : phase.Fits session (some given) model) :
    phase.Fits session (some given) (model.map fun _ => given) := by
  have relist {before : Option TransferStatus} (known : before ≠ none) :
      IsLive (before.map fun _ => given) := by
    obtain ⟨_, rfl⟩ := Option.ne_none_iff_exists'.mp known
    exact live
  have listed {before : Option TransferStatus} (which : IsLive before ∨ HasFailed before) :
      before ≠ none := by
    rcases which with (rfl | rfl) | ⟨_, rfl⟩ <;> exact nofun
  cases phase with
  | entering => cases fits.2.1
  | listing =>
    obtain ⟨opens, ongoing, rfl⟩ := fits
    exact ⟨opens, ongoing, rfl⟩
  | running => exact ⟨fits.1, fits.2.1, relist (listed (.inl fits.2.2))⟩
  | completing =>
    obtain ⟨completed, same, rfl⟩ := fits
    exact ⟨completed, same, same⟩
  | storing | completed =>
    cases fits.2.1
    rcases live with same | same <;> cases same
  | failing | recording => exact ⟨fits.1, fits.2.1, .inl (relist (listed fits.2.2))⟩
  | recorded | failed => exact absurd fits.2.1 live.no_failure

theorem Phase.Fits.cancel (error : String) (doomed : phase.isDoomed = true)
    (fits : phase.Fits session status model) :
    phase.Fits session (some (.failed error)) model ∧
      phase.Fits session status (model.map fun _ => .failed error) := by
  have lapse {before : Option TransferStatus} (which : IsLive before ∨ HasFailed before) :
      HasFailed (before.map fun _ => .failed error) := by
    rcases which with (rfl | rfl) | ⟨_, rfl⟩ <;> exact ⟨error, rfl⟩
  cases phase with
  | failing | recording =>
    exact ⟨⟨fits.1, .inr ⟨error, rfl⟩, fits.2.2⟩, fits.1, fits.2.1, .inr (lapse fits.2.2)⟩
  | recorded => exact ⟨⟨fits.1, ⟨error, rfl⟩, fits.2.2⟩, fits.1, fits.2.1, .inr (lapse fits.2.2)⟩
  | failed => exact ⟨⟨fits.1, ⟨error, rfl⟩, fits.2.2⟩, fits.1, fits.2.1, lapse (.inr fits.2.2)⟩
  | _ => cases doomed

end Writes

theorem Placed.written (placed : Placed id pool cancelled)
    (performed : pool.shared.perform self access = some (reply, shared, effects))
    (plain : ∀ op, access ≠ .session op)
    (known : access.enters = some id → recordsOf id pool ≠ (none, none, none))
    (fits : access.enters = some id → ∀ phase : Phase, (id ∈ cancelled → phase.isDoomed = true) →
      FitsIn id pool phase →
      phase.Fits (recordsOf id pool).1 (access.landsStatus id (recordsOf id pool).2.1)
        (access.landsModel id (recordsOf id pool).2.2)) :
    Placed id { pool with shared } cancelled := by
  have sessions : shared.sessions = pool.shared.sessions := (perform_silent plain performed).1
  have lands : recordsOf id { pool with shared } =
    ((recordsOf id pool).1, access.landsStatus id (recordsOf id pool).2.1,
      access.landsModel id (recordsOf id pool).2.2) :=
    congrArg₂ Prod.mk rfl
      (congrArg₂ Prod.mk (perform_landsStatus performed id) (perform_landsModel performed id))
  have owned : Owned { pool with shared } := by
    obtain ⟨ledger, created, stands, sound⟩ := placed.entered.owned
    exact ⟨show Ledger shared.sessions pool.trace from sessions ▸ ledger, created, stands, sound⟩
  refine ⟨⟨owned, placed.entered.creators⟩, ?_, ?_, placed.doomed, placed.announced⟩
  · intro index task phase there begun
    unfold FitsIn
    rw [lands]
    have before := placed.fits index task phase there begun
    by_cases own : access.enters = some id
    · refine fits own phase (fun marked => ?_) before
      obtain ⟨_, member, _, also, doomed⟩ := placed.doomed marked
      obtain ⟨_, here⟩ := List.mem_iff_getElem?.mp member
      obtain rfl := placed.unique there here begun also
      cases there.symm.trans here
      cases begun.symm.trans also
      exact doomed
    · rw [(Access.lands_foreign own _ none).1, (Access.lands_foreign own none _).2]
      exact before
  · intro nobody
    have nothing := placed.absent nobody
    by_cases own : access.enters = some id
    · exact absurd nothing (known own)
    · rw [lands, (Access.lands_foreign own _ none).1, (Access.lands_foreign own none _).2]
      exact nothing

theorem EngineMethod.Awaits.kept {method : EngineMethod} (awaits : method.Awaits id state index)
    (held : state.statesHeld = some index → turned.statesHeld = some index ∧
      turned.statusOf id = state.statusOf id)
    (more : id ∈ state.cancelled → id ∈ turned.cancelled) : method.Awaits id turned index := by
  cases method with
  | pauseModel =>
    obtain ⟨still, same⟩ := held awaits.1
    exact ⟨still, fun own => same.trans (awaits.2 own)⟩
  | resumeModel =>
    obtain ⟨still, same⟩ := held awaits.1
    exact ⟨still, fun own => same.trans (awaits.2 own)⟩
  | cancelModel => exact fun own => more (awaits own)
  | _ => trivial

variable {next : EngineMethod}

theorem Matched.turned (matched : Matched id state) (turned : EngineState)
    (placed : Placed id turned.pool turned.cancelled) (mine : next.Awaits id turned index)
    (held : ∀ other, other ≠ index → state.statesHeld = some other →
      turned.statesHeld = some other ∧ turned.statusOf id = state.statusOf id)
    (more : id ∈ state.cancelled → id ∈ turned.cancelled) :
    Matched id { turned with methods := state.methods.set index next } := by
  refine ⟨placed, fun other method found => ?_⟩
  rcases Pool.getElem?_set_cases found with ⟨rfl, rfl⟩ | ⟨different, before⟩
  · exact mine
  · exact (matched.awaits other method before).kept (held other different) more

theorem recordsOf_of_status (found : state.statusOf id = some status) :
    recordsOf id state.pool ≠ (none, none, none) := by
  intro nothing
  cases found.symm.trans (congrArg (·.2.1) nothing)

theorem Placed.known_of_doomed (placed : Placed id pool cancelled)
    (doomed : ∃ task ∈ pool.tasks, ∃ phase, task.phase id = some phase ∧ phase.isDoomed = true) :
    recordsOf id pool ≠ (none, none, none) := by
  intro nothing
  obtain ⟨task, member, phase, begun, _⟩ := doomed
  obtain ⟨index, present⟩ := List.mem_iff_getElem?.mp member
  obtain ⟨_, known⟩ := (placed.fits index task phase present begun).known
  cases known.symm.trans (congrArg Prod.fst nothing)

variable {turned : EngineState}

theorem Matched.locks (matched : Matched id state)
    (free : state.statesHeld = none)
    (wrote : state.write index (.insertStatus target given) = some written)
    (same : turned = { written with statesHeld := some index })
    (known : target = id → state.statusOf id ≠ none)
    (fits : target = id → ∀ phase : Phase, FitsIn id state.pool phase →
      phase.Fits (state.sessionOf id) (some given) (state.modelStatusOf id))
    (mine : turned.statesHeld = some index → (target = id → turned.statusOf id = some given) →
      next.Awaits id turned index) :
    Matched id { turned with methods := turned.methods.set index next } := by
  obtain ⟨_, shared, _, performed, rfl⟩ := EngineState.write_spec wrote
  subst same
  refine matched.turned { state with pool := { state.pool with shared }, statesHeld := some index }
    ?_ (mine rfl fun own => ?_) (by simp [free]) fun marked => marked
  · refine matched.placed.written performed (fun _ same => by cases same)
      (fun own nothing => ?_) fun own phase _ before => ?_
    · exact known (Option.some.inj own) (congrArg (·.2.1) nothing)
    · have own : target = id := Option.some.inj own
      rw [Access.landsStatus, if_pos own]
      exact fits own phase before
  · exact (perform_landsStatus performed id).trans (if_pos own)

theorem Matched.unlocks (matched : Matched id state)
    (live : IsLive (some given))
    (held : state.statesHeld = some index)
    (wrote : state.write index (.setModelStatus target given) = some written)
    (same : turned = { written with statesHeld := none })
    (status : target = id → state.statusOf id = some given) :
    Matched id { turned with methods := turned.methods.set index (.returned target result) } := by
  obtain ⟨_, shared, _, performed, rfl⟩ := EngineState.write_spec wrote
  subst same
  refine matched.turned { state with pool := { state.pool with shared }, statesHeld := none }
    ?_ trivial (fun other different theirs => ?_) fun marked => marked
  · refine matched.placed.written performed (fun _ same => by cases same)
      (fun own => ?_) fun own phase _ before => ?_
    · exact recordsOf_of_status (status (Option.some.inj own))
    · have own : target = id := Option.some.inj own
      have known : (recordsOf id state.pool).2.1 = some given := status own
      have before : phase.Fits _ _ _ := before
      rw [known] at before ⊢
      rw [Access.landsModel, if_pos own]
      exact before.list live
  · cases held.symm.trans theirs
    exact absurd rfl different

theorem Placed.cancels (placed : Placed id pool cancelled)
    (performed : pool.shared.perform self access = some (reply, shared, effects))
    (which : access = .insertStatus target (.failed error) ∨
      access = .setModelStatus target (.failed error))
    (marked : target = id → id ∈ cancelled) : Placed id { pool with shared } cancelled := by
  have own (enters : access.enters = some id) : target = id := by
    rcases which with rfl | rfl <;> exact Option.some.inj enters
  refine placed.written performed ?_ (fun enters => ?_) fun enters phase doomed fits => ?_
  · rcases which with rfl | rfl <;> exact fun _ same => by cases same
  · exact placed.known_of_doomed (placed.doomed (marked (own enters)))
  · have cancel := Phase.Fits.cancel error (doomed (marked (own enters))) fits
    rcases which with rfl | rfl
    · rw [Access.landsStatus, if_pos (own enters)]
      exact cancel.1
    · rw [Access.landsModel, if_pos (own enters)]
      exact cancel.2

theorem Placed.marks (placed : Placed id pool cancelled) (marked : String) (doomed : marked = id →
    (pool.tasks.any fun task => (task.phase id).any Phase.isDoomed) = true) : Placed id pool
      (marked :: cancelled) := by
  refine ⟨placed.entered, placed.fits, placed.absent, fun member => ?_, placed.announced⟩
  rcases List.mem_cons.mp member with same | before
  · obtain ⟨task, there, doomed⟩ := List.any_eq_true.mp (doomed same.symm)
    obtain ⟨phase, begun, doomed⟩ := (Option.any_eq_true _ _).mp doomed
    exact ⟨task, there, phase, begun, doomed⟩
  · exact placed.doomed before

theorem Matched.pauseStates (matched : Matched id state)
    (behaves : EngineMethod.behaves id state (.pauseStates paused) = true)
    (took : state.turn index (.pauseStates paused) = some (turned, next)) :
    Matched id { turned with methods := turned.methods.set index next } := by
  have placed := matched.placed
  simp only [EngineState.turn] at took
  split at took
  · cases took
  · rename_i free
    have free : state.statesHeld = none := by simpa using free
    split at took
    · rename_i running
      obtain ⟨_, wrote, ended⟩ := Option.map_eq_some_iff.mp took
      obtain ⟨same, rfl⟩ := Prod.mk.inj ended
      refine matched.locks free wrote same.symm (fun own => ?_)
        (fun own phase fits => ?_) fun held status => ⟨held, status⟩
      · subst own
        exact fun nothing => by cases running.symm.trans nothing
      · subst own
        have fits : phase.Fits (state.sessionOf paused) (state.statusOf paused)
            (state.modelStatusOf paused) := fits
        have running : state.statusOf paused = some .running := running
        rw [running] at fits
        refine fits.pause ?_
        simpa [EngineMethod.behaves] using behaves
    · cases took
      exact matched.turned _ placed trivial (by simp [free]) fun marked => marked

theorem Matched.resumeStates (matched : Matched id state)
    (behaves : EngineMethod.behaves id state (.resumeStates resumed) = true)
    (took : state.turn index (.resumeStates resumed) = some (turned, next)) :
    Matched id { turned with methods := turned.methods.set index next } := by
  have placed := matched.placed
  simp only [EngineState.turn] at took
  split at took
  · cases took
  · rename_i free
    have free : state.statesHeld = none := by simpa using free
    split at took
    · rename_i paused
      obtain ⟨written, wrote, ended⟩ := Option.map_eq_some_iff.mp took
      obtain ⟨same, rfl⟩ := Prod.mk.inj ended
      refine matched.locks free wrote same.symm (fun own => ?_)
        (fun own phase fits => ?_) fun held status => ⟨held, status⟩
      · subst own
        exact fun nothing => by cases paused.symm.trans nothing
      · subst own
        have fits : phase.Fits (state.sessionOf resumed) (state.statusOf resumed)
            (state.modelStatusOf resumed) := fits
        have paused : state.statusOf resumed = some .paused := paused
        rw [paused] at fits
        exact fits.unpause
    · rename_i error failed
      obtain ⟨_, wrote, ended⟩ := Option.map_eq_some_iff.mp took
      obtain ⟨same, rfl⟩ := Prod.mk.inj ended
      have other : resumed ≠ id := by
        rintro rfl
        have failed : state.statusOf resumed = some (.failed error) := failed
        simp [EngineMethod.behaves, failed, TransferStatus.hasFailed] at behaves
      exact matched.locks free wrote same.symm (fun own => absurd own other)
        (fun own => absurd own other)
        fun held status => ⟨held, status⟩
    · cases took
      exact matched.turned _ placed trivial (by simp [free]) fun marked => marked

theorem Matched.cancelStates (matched : Matched id state)
    {cancelled reason : String}
    (behaves : EngineMethod.behaves id state (.cancelStates cancelled reason) = true)
    (took : state.turn index (.cancelStates cancelled reason) = some (turned, next)) :
    Matched id { turned with methods := turned.methods.set index next } := by
  have placed := matched.placed
  simp only [EngineState.turn] at took
  split at took
  · cases took
  · rename_i free
    have free : state.statesHeld = none := by simpa using free
    obtain ⟨_, wrote, ended⟩ := Option.map_eq_some_iff.mp took
    obtain ⟨rfl, rfl⟩ := Prod.mk.inj ended
    obtain ⟨_, shared, _, performed, rfl⟩ := EngineState.write_spec wrote
    refine matched.turned
      { state with pool := { state.pool with shared }, cancelled := cancelled :: state.cancelled }
      ?_ (fun own => by simp [own]) (by simp [free]) fun marked => List.mem_cons_of_mem _ marked
    refine (placed.marks cancelled fun own => ?_).cancels performed (.inl rfl) fun own => by simp [own]
    simpa [EngineMethod.behaves, own] using behaves

theorem Matched.method_turned (matched : Matched id state)
    (present : state.methods[index]? = some method) (behaves : method.behaves id state = true)
    (took : state.turn index method = some (turned, next)) :
    Matched id { turned with methods := turned.methods.set index next } := by
  have placed := matched.placed
  have awaits := matched.awaits index method present
  cases method with
  | pauseStates => exact matched.pauseStates behaves took
  | pauseModel =>
    simp only [EngineState.turn] at took
    obtain ⟨written, wrote, ended⟩ := Option.map_eq_some_iff.mp took
    obtain ⟨same, rfl⟩ := Prod.mk.inj ended
    exact matched.unlocks (.inr rfl) awaits.1 wrote same.symm awaits.2
  | resumeStates => exact matched.resumeStates behaves took
  | resumeModel =>
    simp only [EngineState.turn] at took
    obtain ⟨written, wrote, ended⟩ := Option.map_eq_some_iff.mp took
    obtain ⟨same, rfl⟩ := Prod.mk.inj ended
    exact matched.unlocks (.inl rfl) awaits.1 wrote same.symm awaits.2
  | cancelToken =>
    simp only [EngineState.turn] at took
    obtain ⟨written, wrote, ended⟩ := Option.map_eq_some_iff.mp took
    obtain ⟨rfl, rfl⟩ := Prod.mk.inj ended
    obtain ⟨reply, shared, effects, performed, rfl⟩ := EngineState.write_spec wrote
    refine matched.turned { state with pool := { state.pool with shared } } ?_ trivial
      (fun other _ held => ?_)
      fun marked => marked
    · exact placed.written performed (fun _ same => by cases same) nofun nofun
    · exact ⟨held, perform_landsStatus performed id⟩
  | cancelEngine cancelled =>
    simp only [EngineState.turn] at took
    split at took
    · cases took
    · cases took
      exact matched.turned { state with active := state.active.erase cancelled } placed trivial
        (fun other _ held => ⟨held, rfl⟩) fun marked => marked
  | cancelStates => exact matched.cancelStates behaves took
  | cancelModel =>
    simp only [EngineState.turn] at took
    obtain ⟨_, wrote, ended⟩ := Option.map_eq_some_iff.mp took
    obtain ⟨rfl, rfl⟩ := Prod.mk.inj ended
    obtain ⟨_, shared, _, performed, rfl⟩ := EngineState.write_spec wrote
    refine matched.turned { state with pool := { state.pool with shared } } ?_ trivial
      (fun other _ held => ?_)
      fun marked => marked
    · exact placed.cancels performed (.inr rfl) awaits
    · exact ⟨held, perform_landsStatus performed id⟩
  | cancelEvent =>
    cases took
    exact matched.turned _ placed trivial (fun other _ held => ⟨held, rfl⟩) fun marked => marked
  | status =>
    simp only [EngineState.turn] at took
    split at took
    · cases took
    · cases took
      exact matched.turned _ placed trivial (fun other _ held => ⟨held, rfl⟩) fun marked => marked
  | returned => cases took

theorem Matched.called (matched : Matched id state) (method : EngineMethod)
    (fresh : method.Awaits id state state.methods.length) :
    Matched id { state with methods := state.methods ++ [method] } := by
  refine ⟨matched.placed, fun index other found => ?_⟩
  rcases Pool.getElem?_called found with present | ⟨rfl, rfl⟩
  · exact matched.awaits index other present
  · exact fresh

theorem Matched.pool_turned (matched : Matched id state) (ran : Ran state.pool index choice)
    (admitted : createdOnce state.pool (.run index choice) = true)
    (sole : (ran.task.access choice).records? = some id → ∃ point, ran.task = .startTransfer point)
    (goes : ran.task.abandons choice ≠ some id)
    (both : ∀ transfer progress, ran.task = .startTransfer (.complete transfer progress) →
      transfer.sessionId = id →
      (recordsOf id state.pool).2 = (some .running, some .running))
    (free : state.statesHeld.isSome = true →
      ∀ target given, ran.task.access choice ≠ .insertStatus target given)
    (active : AList fun _ : String => TransferHandle) (current : Option String)
    (executed : List (Nat × String)) :
    Matched id { state with pool := ran.after, active, current, executed } := by
  refine ⟨matched.placed.turned ran admitted sole goes both, fun other method found => ?_⟩
  refine (matched.awaits other method found).kept (fun held => ⟨held, ?_⟩) fun marked => marked
  rcases perform_states ran.performed id with ⟨same, _⟩ | ⟨status, writes, _⟩
  · exact same
  · exact absurd writes (free (by simp [held]) id status)

theorem Task.behaves_spec (behaves : task.behaves id state choice = true) :
    ((task.access choice).records? = some id → ∃ point, task = .startTransfer point) ∧
      task.abandons choice ≠ some id ∧
      ∀ transfer progress, task = .startTransfer (.complete transfer progress) →
      transfer.sessionId = id →
        (recordsOf id state.pool).2 = (some .running, some .running) := by
  obtain ⟨first, completes⟩ := Bool.and_eq_true_iff.mp behaves
  obtain ⟨sole, goes⟩ := Bool.and_eq_true_iff.mp first
  refine ⟨fun records => ?_, by simpa using goes, fun transfer progress same own => ?_⟩
  · rcases Bool.or_eq_true_iff.mp sole with other | own
    · exact absurd records (of_decide_eq_true other)
    · cases task with
      | startTransfer point => exact ⟨point, rfl⟩
      | _ => cases own
  · subst same
    obtain ⟨status, model⟩ :
        state.statusOf id = some .running ∧ state.modelStatusOf id = some .running := by
      simpa [own] using completes
    exact Prod.ext_iff.mpr ⟨status, model⟩

theorem Task.plain_of_begins
    (begins : task.access choice = .beginUpload sessionId fileId resumeOffset) :
    task.abandons choice = none := by
  refine Option.eq_none_iff_forall_ne_some.mpr fun id abandons => ?_
  unfold Task.abandons at abandons
  split at abandons <;> first | cases begins | cases abandons

theorem Matched.step (matched : Matched id state)
    (admitted : agrees id state label = true) (taken : state.step label = some after) :
    Matched id after := by
  rcases EngineState.step_cases taken with ⟨call, rfl, rfl⟩ | ⟨index, _, _, _, rfl, present, took, rfl⟩ |
    ⟨inner, pool, rfl, free, stepped, rfl⟩ |
    ⟨index, uuid, total, filesTotal, sessionId, fileId, resumeOffset, pool, rfl, begins, stepped,
      rfl⟩ | ⟨bytesSent, rfl, rfl⟩
  · exact matched.called call.start (by cases call <;> trivial)
  · refine matched.method_turned present ?_ took
    simpa [agrees, present] using admitted
  · rcases Coordinator.step_cases stepped with ⟨call, rfl, rfl⟩ | ⟨index, choice, rfl, ran, rfl⟩
    · exact ⟨matched.placed.called call, matched.awaits⟩
    · obtain ⟨once, behaves⟩ := Bool.and_eq_true_iff.mp admitted
      rw [ran.present] at behaves
      obtain ⟨sole, goes, both⟩ := Task.behaves_spec behaves
      refine matched.pool_turned ran once sole goes both (fun held target given writes => ?_) _ _ _
      have access : state.access (.run index choice) = some (.insertStatus target given) := by
        simp [EngineState.access, ran.present, writes]
      unfold EngineState.blocked at free
      rw [access] at free
      cases held.symm.trans free
  · rcases Coordinator.step_cases stepped with ⟨_, same, _⟩ | ⟨_, _, same, ran, rfl⟩
    · cases same
    · cases same
      have begins : ran.task.access .proceed = .beginUpload sessionId fileId resumeOffset := by
        simpa [EngineState.access, ran.present] using begins
      refine matched.pool_turned ran ?_ ?_ ?_ ?_ ?_ _ _ _
      · simp [createdOnce, ran.present, begins]
      · rw [begins]
        rintro ⟨⟩
      · rw [Task.plain_of_begins begins]
        rintro ⟨⟩
      · intro _ _ same
        rw [same] at begins
        cases begins
      · rw [begins]
        exact fun _ _ _ same => by cases same
  · exact ⟨matched.placed, matched.awaits⟩

variable {deviceId deviceName : String} {labels : List EngineLabel}

/-- In a run that leaves the records of a transfer in agreement at each turn, they agree. -/
theorem records_agree (run : Execution EngineState.step
      (fun state label => agrees id state label = true)
    (.new deviceId deviceName) labels state) : Agreed id state := by
  refine (run.invariant (Matched id) ?_ (matched_new id deviceId deviceName)).agreed
  exact fun _ _ _ matched admitted taken => matched.step admitted taken

def pausedRun : List EngineLabel :=
  sending "u" ++ ([.call (.pause "t"), .method 0, .method 0, .call (.resume "t"), .method 1,
    .method 1] : List EngineLabel) ++
    (turns 0 ([Choice.uploaded uploadProgress] ++ List.replicate 7 Choice.proceed)).map EngineLabel.pool

theorem records_agree_resumed :
    ∃ state, Execution EngineState.step (fun state label => agrees "t" state label = true)
      (.new "a" "laptop") pausedRun state ∧
        (state.statusOf "t" = some .completed ∧ state.sessionOf "t" = some .completed) ∧
        Agreed "t" state := by
  obtain ⟨state, run, good⟩ := exists_execution
    (fun state => state.statusOf "t" = some .completed ∧ state.sessionOf "t" = some .completed)
    (show (replayWhere EngineState.step (agrees "t") (.new "a" "laptop")
      pausedRun).any _ = true from rfl)
  exact ⟨state, run, of_decide_eq_true good, records_agree run⟩

/-- The connection breaks while the file is uploaded, and the user resumes the failed transfer. -/
def resumedRun : List EngineLabel :=
  sending "u" ++
    (turns 0 ([Choice.failure "reset"] ++ List.replicate 5 Choice.proceed)).map EngineLabel.pool ++
    ([.call (.resume "t"), .method 0, .method 0] : List EngineLabel)

/-- `resume` has returned a Running handle, and nothing runs. -/
theorem resumed_without_run : ∃ state,
    Execution EngineState.step anything (.new "a" "laptop") resumedRun state ∧
      (state.methods[0]?.any fun
        | .returned "t" (.ok (.handle _ handle)) => handle.state = .running
        | _ => false) = true ∧
      state.statusOf "t" = some .running ∧ state.sessionOf "t" = some .failed ∧ ¬ Agreed "t" state := by
  obtain ⟨state, played, good⟩ := (Option.any_eq_true _ _).mp
    (show (replay EngineState.step (.new "a" "laptop") resumedRun).any (fun state =>
      (state.methods[0]?.any fun
        | .returned "t" (.ok (.handle _ handle)) => handle.state = .running
        | _ => false) = true ∧
        state.statusOf "t" = some .running ∧ state.sessionOf "t" = some .failed ∧
          state.pool.tasks.any (Task.executes "t") = false) = true from rfl)
  obtain ⟨handed, running, failed, idle⟩ := of_decide_eq_true good
  refine ⟨state, execution_iff_replay.mpr played, handed, running, failed, fun agreed => ?_⟩
  cases idle.symm.trans (agreed.running (.inl running))

end DistributedOs.Coordinator
