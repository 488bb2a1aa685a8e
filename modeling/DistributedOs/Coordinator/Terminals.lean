import DistributedOs.Coordinator.Accesses
import DistributedOs.Coordinator.Recorded

/-! Which runs end a session once. A procedure announces the end of its session right after
the update that records it, and looks at nothing that `update_state` returns; so the events
are as right as the updates that come before them are admitted. -/

namespace DistributedOs.Coordinator

open Semantics DistributedOs.Session SessionManager

def SessionEvent.ends (id : String) (event : SessionEvent) : Option SessionState :=
  if event.sessionId = id then event.announces.filter SessionState.isTerminal else none

def Effect.ends (id : String) : Effect → Option SessionState
  | .emitted _ event => event.ends id
  | _ => none

namespace Task

def emits (task : Task) : Option SessionEvent :=
  match task.access .proceed with
  | .emit event => some event
  | _ => none

/-- The event that follows the update a task is about to ask for, admitted or not. -/
def heralds (task : Task) : Option SessionEvent :=
  (task.resume (.updated false) .proceed).bind emits

def announces (id : String) (task : Task) : Option SessionState :=
  task.emits.bind (SessionEvent.ends id)

end Task

/-- The session of that id is not created again once it has ended, and an update that is
followed by a terminal event finds it open and asks for the state the event announces. -/
def endsSession (id : String) (pool : TransferCoordinator) : Label → Bool
  | .call _ => true
  | .run index choice =>
    match pool.tasks[index]? with
    | none => true
    | some task =>
      match task.access choice with
      | .session (.create created ..) => created ≠ id || (recorded id pool.trace).all (!·.isTerminal)
      | .session (.updateState _ state _) =>
        (task.heralds.bind (SessionEvent.ends id)).all fun announced =>
          announced = state && (recorded id pool.trace).any (validTransition · state)
      | _ => true

/-- At most one terminal event of the session is out, and the session has ended as it says. -/
structure EndedOnce (id : String) (pool : TransferCoordinator) : Prop where
  once : pool.trace.countP (fun effect => (effect.ends id).isSome) ≤ 1
  recorded : ∀ effect ∈ pool.trace, ∀ state, effect.ends id = some state →
    recorded id pool.trace = some state ∧ pool.shared.sessions.active.lookup id = none ∧
      ∀ ended ∈ pool.shared.sessions.history, ended.id = id → ended.state = state

variable {reply : Reply} {choice : Choice} {task moved : Task} {id : String} {event : SessionEvent}
variable {state : SessionState} {pool : TransferCoordinator} {index : Nat}

theorem SessionEvent.ends_spec (ends : event.ends id = some state) :
    event.sessionId = id ∧ event.announces = some state ∧ state.isTerminal = true := by
  unfold SessionEvent.ends at ends
  split at ends
  · rename_i same
    obtain ⟨announced, terminal⟩ := Option.filter_eq_some_iff.mp ends
    exact ⟨same, announced, terminal⟩
  · cases ends

def Task.Updates (task : Task) (choice : Choice) (event : SessionEvent) : Prop :=
  task.heralds = some event ∧ ∃ state error, task.access choice = .session
    (.updateState event.sessionId state error)

theorem UploadFiles.emits_next (upload : Upload) (files : List FileMeta) :
    (Task.uploadFiles (next upload files)).emits = none := by
  induction files with
  | nil => rfl
  | cons _ _ ih =>
    unfold next
    split
    · rfl
    · exact ih

theorem UploadFiles.updates_of_emits {point next : UploadFiles}
    (resumed : point.resume reply choice = some next)
    (emits : (Task.uploadFiles next).emits = some event) :
    (Task.uploadFiles point).Updates choice event := by
  cases moves_of_resume resumed with
  | register upload _ same | recordFile upload file remaining reported _ same => -- to the head of the loop
    rw [same, emits_next] at emits
    cases emits
  | engine _ _ _ _ later => cases later <;> cases emits
  | complete | fail =>
    cases emits
    exact ⟨rfl, _, _, rfl⟩
  | _ => cases emits

theorem StartSession.updates_of_emits (resumed : point.resume reply choice = some next)
    (emits : (Task.startSession next).emits = some event) (ends : event.ends id = some state) :
    (Task.startSession point).Updates choice event := by
  have announced := (SessionEvent.ends_spec ends).2.1
  cases moves_of_resume resumed with
  | openChannel => -- the session has only started
    cases emits
    cases announced
  | activate | fail =>
    cases emits
    exact ⟨rfl, _, _, rfl⟩
  | _ => cases emits

theorem IncomingSession.updates_of_emits (resumed : point.resume reply choice = some next)
    (emits : (Task.incomingSession next).emits = some event) (ends : event.ends id = some state) :
    (Task.incomingSession point).Updates choice event := by
  have announced := (SessionEvent.ends_spec ends).2.1
  cases moves_of_resume resumed with
  | openChannel => -- the session has only been asked for
    cases emits
    cases announced
  | record _ decision =>
    cases emits
    refine ⟨rfl, decision.verdict.state, decision.verdict.error, ?_⟩
    cases decision <;> rfl
  | _ => cases emits

theorem RespondSession.updates_of_emits (resumed : point.resume reply choice = some next)
    (emits : (Task.respondSession next).emits = some event) :
    (Task.respondSession point).Updates choice event := by
  cases moves_of_resume resumed with
  | record response =>
    cases emits
    refine ⟨rfl, response.verdict.state, response.verdict.error, ?_⟩
    obtain ⟨_, _, verdict⟩ := response
    cases verdict <;> rfl
  | _ => cases emits

theorem CancelSession.updates_of_emits (resumed : point.resume reply choice = some next)
    (emits : (Task.cancelSession next).emits = some event) :
    (Task.cancelSession point).Updates choice event := by
  cases moves_of_resume resumed with
  | record =>
    cases emits
    exact ⟨rfl, _, _, rfl⟩
  | _ => cases emits

/-- Every terminal event comes right after an update the task asks for. -/
theorem Task.updates_of_emits (resumed : task.resume reply choice = some moved)
    (emits : moved.emits = some event) (ends : event.ends id = some state) :
    task.Updates choice event := by
  cases task with
  | startSession =>
    obtain ⟨next, ran, rfl⟩ := Option.map_eq_some_iff.mp resumed
    exact StartSession.updates_of_emits ran emits ends
  | uploadFiles =>
    obtain ⟨next, ran, rfl⟩ := Option.map_eq_some_iff.mp resumed
    exact UploadFiles.updates_of_emits ran emits
  | incomingSession =>
    obtain ⟨next, ran, rfl⟩ := Option.map_eq_some_iff.mp resumed
    exact IncomingSession.updates_of_emits ran emits ends
  | respondSession =>
    obtain ⟨next, ran, rfl⟩ := Option.map_eq_some_iff.mp resumed
    exact RespondSession.updates_of_emits ran emits
  | cancelSession =>
    obtain ⟨next, ran, rfl⟩ := Option.map_eq_some_iff.mp resumed
    exact CancelSession.updates_of_emits ran emits
  | sessionEventStream =>
    obtain ⟨next, ran, rfl⟩ := Option.map_eq_some_iff.mp resumed
    cases next <;> cases emits
  | engineStart =>
    obtain ⟨next, ran, rfl⟩ := Option.map_eq_some_iff.mp resumed
    cases next <;> cases emits
  | startTransfer =>
    obtain ⟨next, _, rfl⟩ := Option.map_eq_some_iff.mp resumed
    cases next with
    | engine _ run => cases run <;> cases emits
    | _ => cases emits

theorem Task.access_emit : task.access choice = .emit event ↔ task.emits = some event := by
  have same (access : Access) (only : ∀ other, task.access other = access) :
      task.access choice = .emit event ↔ task.emits = some event := by
    unfold emits
    rw [only, only]
    cases access <;> simp
  cases task with
  | startSession point =>
    cases point with
    | write => cases choice <;> exact ⟨nofun, nofun⟩
    | _ => exact same _ fun _ => rfl
  | uploadFiles point =>
    cases point with
    | recordFile _ _ _ reported => cases reported <;> cases choice <;> exact ⟨nofun, nofun⟩
    | _ => exact same _ fun _ => rfl
  | incomingSession point =>
    cases point with
    | wait | write => cases choice <;> exact ⟨nofun, nofun⟩
    | _ => exact same _ fun _ => rfl
  | respondSession point => cases point <;> exact same _ fun _ => rfl
  | cancelSession point => cases point <;> exact same _ fun _ => rfl
  | sessionEventStream point => cases point <;> exact same _ fun _ => rfl
  | engineStart point => cases point <;> exact same _ fun _ => rfl
  | startTransfer point => cases point <;> exact same _ fun _ => rfl

theorem Task.announces_spec (announces : task.announces id = some state) :
    ∃ event, task.emits = some event ∧ event.ends id = some state :=
  Option.bind_eq_some_iff.mp announces

theorem Task.updates_of_announces (resumed : task.resume reply choice = some moved)
    (announces : moved.announces id = some state) :
    task.heralds.bind (SessionEvent.ends id) = some state ∧
      ∃ target error, task.access choice = .session (.updateState id target error) := by
  obtain ⟨_, emits, ends⟩ := announces_spec announces
  obtain ⟨heralds, target, error, updates⟩ := updates_of_emits resumed emits ends
  refine ⟨?_, target, error, ?_⟩
  · rw [heralds]
    exact ends
  · rw [updates, (SessionEvent.ends_spec ends).1]

/-- Whoever is about to announce the end of the session, or has done so, is one, and right. -/
structure Ending (id : String) (pool : TransferCoordinator) : Prop where
  ledger : Ledger pool.shared.sessions pool.trace
  history : ∀ ended ∈ pool.shared.sessions.history, ended.id = id →
    recorded id pool.trace = some ended.state ∧ ended.state.isTerminal = true
  announcing : ∀ task ∈ pool.tasks, ∀ state, task.announces id = some state →
    recorded id pool.trace = some state
  announced : ∀ effect ∈ pool.trace, ∀ state, effect.ends id = some state →
    recorded id pool.trace = some state
  once : pool.tasks.countP (fun task => (task.announces id).isSome) +
    pool.trace.countP (fun effect => (effect.ends id).isSome) ≤ 1

theorem ending_new (id deviceId deviceName : String) : Ending id (.new deviceId deviceName) where
  ledger := ledger_new 100
  history := by simp [TransferCoordinator.new, Shared.new, SessionManager.new]
  announcing := by simp [TransferCoordinator.new]
  announced := by simp [TransferCoordinator.new]
  once := Nat.zero_le 1

theorem Ending.quiet (ending : Ending id pool)
    (ongoing : (recorded id pool.trace).all (!·.isTerminal) = true) :
    (∀ task ∈ pool.tasks, task.announces id = none) ∧ ∀ effect ∈ pool.trace,
      effect.ends id = none := by
  have absurd {state : SessionState} (known : recorded id pool.trace = some state)
    (terminal : state.isTerminal = true) :
      False := by
    rw [known] at ongoing
    simp [terminal] at ongoing
  constructor
  · refine fun task member => Option.eq_none_iff_forall_ne_some.mpr fun state announces => ?_
    obtain ⟨event, _, ends⟩ := Task.announces_spec announces
    exact absurd (ending.announcing task member state announces) (SessionEvent.ends_spec ends).2.2
  · refine fun effect member => Option.eq_none_iff_forall_ne_some.mpr fun state ends => ?_
    refine absurd (ending.announced effect member state ends) ?_
    cases effect with
    | emitted => exact (SessionEvent.ends_spec ends).2.2
    | _ => cases ends

theorem Ran.endsSession (ran : Ran pool index choice)
    (admitted : endsSession id pool (.run index choice) = true) :
    (∀ created peerId peerName direction files,
        ran.task.access choice = .session
          (.create created peerId peerName direction files) → created = id →
          (recorded id pool.trace).all (!·.isTerminal) = true) ∧
      ∀ updated target error announced, ran.task.access choice = .session
        (.updateState updated target error) →
          ran.task.heralds.bind (SessionEvent.ends id) = some announced →
          announced = target ∧ (recorded id pool.trace).any (validTransition · target) = true := by
  simp only [Coordinator.endsSession, ran.present] at admitted
  constructor
  · intro _ _ _ _ _ creates same
    rw [creates] at admitted
    simpa [same] using admitted
  · intro _ _ _ _ updates heralds
    rw [updates, heralds] at admitted
    simpa using admitted

theorem Ending.recorded_turned (ending : Ending id pool) (ran : Ran pool index choice)
    (admitted : endsSession id pool (.run index choice) = true) :
    recorded id ran.after.trace = recorded id pool.trace ∨
      (recorded id pool.trace).all (!·.isTerminal) = true := by
  rw [ran.recorded_after ending.ledger]
  unfold Access.records
  split
  · rename_i created _ _ _ _ creates
    by_cases same : created = id
    · exact .inr ((ran.endsSession admitted).1 _ _ _ _ _ creates same)
    · exact .inl (if_neg same)
  · rename_i updated target _ _
    by_cases moves : updated = id ∧ (recorded id pool.trace).any (validTransition · target) = true
    · obtain ⟨_, known, valid⟩ := (Option.any_eq_true _ _).mp moves.2
      exact .inr (by simp [known, validTransition_from valid])
    · exact .inl (if_neg moves)
  · exact .inl rfl

theorem Effect.From.announces {effect : Effect}
    (source : effect.From shared self (task.access choice)) (ends : effect.ends id = some state) :
    task.announces id = some state := by
  cases effect with
  | emitted =>
    unfold Task.announces
    rw [Task.access_emit.mp source.2]
    exact ends
  | _ => cases ends

theorem Task.announces_spawned {new : Task} (member : new ∈ task.spawned) :
    new.announces id = none := by
  obtain ⟨_, rfl⟩ := spawned_upload member
  rfl

theorem Ran.countP_ends (ran : Ran pool index choice) (id : String) :
    ran.after.trace.countP (fun effect => (effect.ends id).isSome) ≤
      (if (ran.task.announces id).isSome then 1 else 0) + pool.trace.countP
      (fun effect => (effect.ends id).isSome) := by
  have returned : (ran.moved.returnEffects index).countP
      (fun effect => (effect.ends id).isSome) = 0 := by
    refine List.countP_eq_zero.mpr fun effect member => ?_
    rw [(Task.mem_returnEffects member).1]
    exact Bool.false_ne_true
  have own : ran.effects.countP (fun effect => (effect.ends id).isSome) ≤
      if (ran.task.announces id).isSome then 1 else 0 := by
    rcases perform_effects ran.performed with none | ⟨effect, only, source⟩
    · rw [none]
      exact Nat.zero_le _
    · rw [only, List.countP_singleton]
      cases ends : effect.ends id with
      | none => exact Nat.zero_le _
      | some =>
        rw [source.announces ends]
  unfold after
  rw [List.countP_append, List.countP_append, returned]
  omega

theorem mem_history_apply {op : SessionOp}
    (member : ended ∈ (op.apply manager).history) : ended ∈ manager.history ∨
      ∃ updated target error session, op = .updateState updated target error ∧
        target.isTerminal = true ∧
        manager.active.lookup updated = some session ∧ validTransition session.state target = true ∧
        ended = { session with state := target, error } := by
  cases op with
  | updateState updated target error =>
    rcases updateState_cases manager updated target error with
      ⟨refused, _⟩ | ⟨session, found, valid, ⟨_, moved⟩ | ⟨terminal, moved⟩⟩
    · simp only [SessionOp.apply, refused] at member
      exact .inl member
    · simp only [SessionOp.apply, moved] at member
      exact .inl member
    · simp only [SessionOp.apply, moved, trimHistory_eq_drop] at member
      rcases List.mem_append.mp (List.mem_of_mem_drop member) with before | newest
      · exact .inl before
      · exact .inr ⟨updated, target, error, session, rfl, terminal, found, valid,
          List.mem_singleton.mp newest⟩
  | create => exact .inl member
  | _ =>
    simp only [SessionOp.apply, SessionManager.updateProgress, SessionManager.setRemoteCaps,
      SessionManager.updateFileProgress, SessionManager.setFiles, history_modify] at member
    exact .inl member

theorem Ending.after_history (ending : Ending id pool) (ran : Ran pool index choice)
    (admitted : endsSession id pool (.run index choice) = true) {ended : TransferSession}
    (member : ended ∈ ran.after.shared.sessions.history) (same : ended.id = id) :
    recorded id ran.after.trace = some ended.state ∧ ended.state.isTerminal = true := by
  have earlier (before : ended ∈ pool.shared.sessions.history) :
      recorded id ran.after.trace = some ended.state ∧ ended.state.isTerminal = true := by
    obtain ⟨known, terminal⟩ := ending.history ended before same
    rcases ending.recorded_turned ran admitted with unchanged | ongoing
    · rw [unchanged]
      exact ⟨known, terminal⟩
    · rw [known] at ongoing
      simp [terminal] at ongoing
  cases accessed : ran.task.access choice
  case session op =>
    obtain ⟨next, _, _⟩ := perform_session (accessed ▸ ran.performed)
    have there : ended ∈ (op.apply pool.shared.sessions).history := by
      have member' : ended ∈ ran.shared.sessions.history := member
      rwa [next] at member'
    rcases mem_history_apply there with before
      | ⟨updated, target, error, session, rfl, terminal, found, valid, rfl⟩
    · exact earlier before
    · have own : updated = id := (ending.ledger.keyed updated session found).symm.trans same
      have updates : ran.access = .session (.updateState updated target error) := accessed
      refine ⟨?_, terminal⟩
      rw [ran.recorded_after ending.ledger, updates]
      refine if_pos ⟨own, ?_⟩
      simp [← own, (ending.ledger.known found).1, valid]
  all_goals
    obtain ⟨unchanged, _⟩ := perform_silent (by simp) (accessed ▸ ran.performed)
    exact earlier (unchanged ▸ member)

theorem Ending.moved_announces (ending : Ending id pool) (ran : Ran pool index choice)
    (admitted : endsSession id pool (.run index choice) = true)
    (announces : ran.moved.announces id = some state) :
    recorded id ran.after.trace = some state ∧
      (recorded id pool.trace).all (!·.isTerminal) = true := by
  obtain ⟨heralds, _, error, updates⟩ := Task.updates_of_announces ran.resumed announces
  obtain ⟨rfl, allowed⟩ := (ran.endsSession admitted).2 _ _ _ _ updates heralds
  have same : ran.access = .session (.updateState id state error) := updates
  constructor
  · rw [ran.recorded_after ending.ledger, same]
    exact if_pos ⟨rfl, allowed⟩
  · obtain ⟨_, known, valid⟩ := (Option.any_eq_true _ _).mp allowed
    simp [known, validTransition_from valid]

theorem Ending.announces_moved (ending : Ending id pool) (ran : Ran pool index choice)
    (announces : ran.task.announces id = some state) :
    ran.moved.announces id = none ∧ recorded id ran.after.trace = recorded id pool.trace := by
  obtain ⟨event, emits, _⟩ := Task.announces_spec announces
  have accessed : ran.task.access choice = .emit event := Task.access_emit.mpr emits
  constructor
  · refine Option.eq_none_iff_forall_ne_some.mpr fun later again => ?_
    obtain ⟨_, _, _, updates⟩ := Task.updates_of_announces ran.resumed again
    rw [accessed] at updates
    cases updates
  · have same : ran.access = .emit event := accessed
    rw [ran.recorded_after ending.ledger, same]
    rfl

theorem Ran.mem_announcing (ran : Ran pool index choice) (member : task ∈ ran.after.tasks)
    (announces : task.announces id = some state) : task = ran.moved ∨ task ∈ pool.tasks := by
  rcases List.mem_append.mp member with there | new
  · exact (List.mem_or_eq_of_mem_set there).symm
  · rw [Task.announces_spawned new] at announces
    cases announces

theorem Ran.countP_announces (ran : Ran pool index choice) (id : String) :
    ran.after.tasks.countP (fun task => (task.announces id).isSome) +
        (if (ran.task.announces id).isSome then 1 else 0) =
      pool.tasks.countP (fun task => (task.announces id).isSome) +
        (if (ran.moved.announces id).isSome then 1 else 0) := by
  have spawned : ran.task.spawned.countP (fun task => (task.announces id).isSome) = 0 := by
    refine List.countP_eq_zero.mpr fun task member => ?_
    rw [Task.announces_spawned member]
    exact Bool.false_ne_true
  have moves := Pool.countP_turned (fun task => (task.announces id).isSome) ran.moved
    ran.task.spawned ran.present
  rwa [spawned] at moves

theorem Ending.turned (ending : Ending id pool) (ran : Ran pool index choice)
    (admitted : endsSession id pool (.run index choice) = true) : Ending id ran.after := by
  have tasks := ran.countP_announces id
  have trace := ran.countP_ends id
  have before := ending.once
  refine ⟨(ending.ledger.perform ran.performed).silent (silent_returnEffects ran.moved),
    fun ended member same => ending.after_history ran admitted member same, ?_, ?_, ?_⟩
  · intro task member state announces
    rcases ran.mem_announcing member announces with rfl | old
    · exact (ending.moved_announces ran admitted announces).1
    · rcases ending.recorded_turned ran admitted with unchanged | ongoing
      · rw [unchanged]
        exact ending.announcing task old state announces
      · rw [(ending.quiet ongoing).1 task old] at announces
        cases announces
  · intro effect member state ends
    rcases ran.mem_trace member with ⟨rfl, _⟩ | source | old
    · cases ends
    · have announces := source.announces ends
      rw [(ending.announces_moved ran announces).2]
      exact ending.announcing ran.task (List.mem_of_getElem? ran.present) state announces
    · rcases ending.recorded_turned ran admitted with unchanged | ongoing
      · rw [unchanged]
        exact ending.announced effect old state ends
      · rw [(ending.quiet ongoing).2 effect old] at ends
        cases ends
  · cases announces : ran.moved.announces id with
    | none =>
      rw [announces, Option.isSome_none, if_neg Bool.false_ne_true] at tasks
      omega
    | some =>
      -- the session was open, so nobody had announced its end
      obtain ⟨quietTasks, quietTrace⟩ := ending.quiet (ending.moved_announces ran admitted announces).2
      have noTask : pool.tasks.countP (fun task => (task.announces id).isSome) = 0 :=
        List.countP_eq_zero.mpr fun task member => by simp [quietTasks task member]
      have noEffect : pool.trace.countP (fun effect => (effect.ends id).isSome) = 0 :=
        List.countP_eq_zero.mpr fun effect member => by simp [quietTrace effect member]
      rw [quietTasks ran.task (List.mem_of_getElem? ran.present)] at tasks trace
      rw [announces] at tasks
      simp only [Option.isSome_none, Option.isSome_some, Bool.false_eq_true, ↓reduceIte] at tasks trace
      omega

theorem Ending.called (ending : Ending id pool) (call : Call) :
    Ending id { pool with tasks := pool.tasks ++ [call.start] } := by
  have none : call.start.announces id = none := by
    cases call <;> rfl
  refine ⟨ending.ledger, ending.history, fun task member state announces => ?_, ending.announced, ?_⟩
  · rcases List.mem_append.mp member with old | new
    · exact ending.announcing task old state announces
    · rw [List.mem_singleton.mp new, none] at announces
      cases announces
  · simpa [List.countP_append, none] using ending.once

theorem Ending.endedOnce (ending : Ending id pool) : EndedOnce id pool where
  once := Nat.le_trans (Nat.le_add_left _ _) ending.once
  recorded effect member state ends := by
    have known := ending.announced effect member state ends
    have terminal : state.isTerminal = true := by
      cases effect with
      | emitted => exact (SessionEvent.ends_spec ends).2.2
      | _ => cases ends
    exact ⟨known, ending.ledger.inactive known terminal, fun ended member same =>
      Option.some.inj ((ending.history ended member same).1.symm.trans known)⟩

/-- In a run that ends the session properly, at most one terminal event of it is emitted, and
the session is recorded as ended in the state that event announces. -/
theorem ended_once (id : String)
    (run : Execution step (fun pool label => endsSession id pool label = true)
      (.new deviceId deviceName) labels pool) : EndedOnce id pool := by
  refine (run.invariant (Ending id) ?_ (ending_new id deviceId deviceName)).endedOnce
  intro _ _ _ ending admitted taken
  rcases step_cases taken with ⟨call, rfl, rfl⟩ | ⟨_, _, rfl, ran, rfl⟩
  · exact ending.called call
  · exact ending.turned ran admitted

def uploadedRun : List Label :=
  ([.call (.startSession "t" "b" [offered])] : List Label) ++ offering 0 ++
    turns 0 ([Choice.message .accept (.accept acceptAll)] ++ List.replicate 3 Choice.proceed) ++
    turns 1 (List.replicate 5 Choice.proceed ++ [Choice.uploaded uploadProgress] ++
      List.replicate 6 Choice.proceed)

theorem ended_once_uploaded : ∃ pool,
    Execution step (fun pool label => endsSession "t" pool label = true)
      (.new "a" "laptop") uploadedRun pool ∧
      pool.trace.filterMap (Effect.ends "t") = [.completed] ∧ EndedOnce "t" pool := by
  obtain ⟨pool, run, good⟩ := exists_execution
    (fun pool => pool.trace.filterMap (Effect.ends "t") = [.completed])
    (show (replayWhere step (endsSession "t") (.new "a" "laptop") uploadedRun).any _ = true from rfl)
  exact ⟨pool, run, of_decide_eq_true good, ended_once "t" run⟩

/-- The session is cancelled while its file is uploaded: the upload then announces a failure. -/
def interruptedRun : List Label :=
  ([.call (.startSession "t" "b" [offered])] : List Label) ++ offering 0 ++
    turns 0 ([Choice.message .accept (.accept acceptAll)] ++ List.replicate 3 Choice.proceed) ++
    turns 1 (List.replicate 5 .proceed) ++ ([.call (.cancelSession "t" "stop")] : List Label) ++
    turns 2 (List.replicate 3 .proceed) ++
    turns 1 ([Choice.failure "reset"] ++ List.replicate 6 Choice.proceed)

theorem interrupted_ends_twice :
    ∃ pool, Execution step anything (.new "a" "laptop") interruptedRun pool ∧
    pool.trace.filterMap (Effect.ends "t") = [.failed, .cancelled] ∧
    recorded "t" pool.trace = some .cancelled ∧
      ¬ EndedOnce "t" pool := by
  obtain ⟨pool, played, good⟩ := (Option.any_eq_true _ _).mp
    (show (replay step (.new "a" "laptop") interruptedRun).any (fun pool =>
      pool.trace.filterMap (Effect.ends "t") = [.failed, .cancelled] ∧
      recorded "t" pool.trace = some .cancelled) = true
      from rfl)
  obtain ⟨twice, known⟩ := of_decide_eq_true good
  refine ⟨pool, execution_iff_replay.mpr played, twice, known, fun endedOnce => ?_⟩
  have member : SessionState.failed ∈ pool.trace.filterMap (Effect.ends "t") := by simp [twice]
  obtain ⟨effect, emitted, ends⟩ := List.mem_filterMap.mp member
  have honest := (endedOnce.recorded effect emitted .failed ends).1
  rw [known] at honest
  cases honest

end DistributedOs.Coordinator
