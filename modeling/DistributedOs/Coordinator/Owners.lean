import DistributedOs.Coordinator.Footing

/-! Who created a session, and in which states its creator finds it again, whatever other
procedures ask for in the meantime: they can end the session, and make it active once it
is negotiating. -/

namespace DistributedOs.Coordinator

open Semantics DistributedOs.Session SessionManager

/-- The session a procedure has created, and the open states it can then find it in. -/
def StartSession.holds : StartSession → Option Footing
  | .findPeer .. => none
  | .create _ => none
  | .negotiate offer => some { sessionId := offer.sessionId, allows := [.handshaking] }
  | .openChannel offer => some { sessionId := offer.sessionId, allows := [.negotiating, .active] }
  | .announceStarted offer => some { sessionId := offer.sessionId, allows := [.negotiating, .active] }
  | .connect offer => some { sessionId := offer.sessionId, allows := [.negotiating, .active] }
  | .identify offer => some { sessionId := offer.sessionId, allows := [.negotiating, .active] }
  | .write offer _ _ => some { sessionId := offer.sessionId, allows := [.negotiating, .active] }
  | .read offer => some { sessionId := offer.sessionId, allows := [.negotiating, .active] }
  | .activate offer _ => some { sessionId := offer.sessionId, allows := [.negotiating, .active] }
  | .announceActive offer _ => some { sessionId := offer.sessionId, allows := [.active] }
  | .spawn offer _ => some { sessionId := offer.sessionId, allows := [.active] }
  | .fail offer _ _ => some { sessionId := offer.sessionId, allows := [.negotiating, .active] }
  | .announceFailed offer _ _ => some { sessionId := offer.sessionId, allows := [] }
  | .returned .. => none

/-- Accepting a request leaves it handshaking: the table refuses that update. -/
def IncomingSession.holds : IncomingSession → Option Footing
  | .read => none
  | .create _ => none
  | .register request => some { sessionId := request.sessionId, allows := [.handshaking] }
  | .openChannel request => some { sessionId := request.sessionId, allows := [.handshaking] }
  | .announceRequested request => some { sessionId := request.sessionId, allows := [.handshaking] }
  | .wait request => some { sessionId := request.sessionId, allows := [.handshaking] }
  | .write request _ => some { sessionId := request.sessionId, allows := [.handshaking] }
  | .record request _ => some { sessionId := request.sessionId, allows := [.handshaking] }
  | .announce request _ => some { sessionId := request.sessionId, allows := [.handshaking] }
  | .cleanup request => some { sessionId := request.sessionId, allows := [.handshaking] }
  | .returned .. => none

/-- `TransferEngine::start` never leaves Handshaking: the table refuses all it asks for. -/
def EngineStart.holds : EngineStart → Option Footing
  | .create .. => none
  | .activate sessionId => some { sessionId, allows := [.handshaking] }
  | .lock sessionId => some { sessionId, allows := [.handshaking] }
  | .upload sessionId => some { sessionId, allows := [.handshaking] }
  | .uploading sessionId => some { sessionId, allows := [.handshaking] }
  | .unlock sessionId _ => some { sessionId, allows := [.handshaking] }
  | .updateProgress sessionId _ => some { sessionId, allows := [.handshaking] }
  | .complete sessionId _ => some { sessionId, allows := [.handshaking] }
  | .returned .. => none

def StartTransfer.holds : StartTransfer → Option Footing
  | .insertToken _ => none
  | .openChannel _ => none
  | .create _ => none
  | .insertStatus transfer => some { sessionId := transfer.sessionId, allows := [.handshaking] }
  | .insertModel transfer => some { sessionId := transfer.sessionId, allows := [.handshaking] }
  | .announceStarted transfer => some { sessionId := transfer.sessionId, allows := [.handshaking] }
  | .handshake transfer => some { sessionId := transfer.sessionId, allows := [.handshaking] }
  | .setRemoteCaps transfer _ => some { sessionId := transfer.sessionId, allows := [.handshaking] }
  | .negotiate transfer => some { sessionId := transfer.sessionId, allows := [.handshaking] }
  | .activate transfer => some { sessionId := transfer.sessionId, allows := [.negotiating, .active] }
  | .engine transfer _ => some { sessionId := transfer.sessionId, allows := [.active] }
  | .report transfer _ => some { sessionId := transfer.sessionId, allows := [.active] }
  | .updateProgress transfer _ => some { sessionId := transfer.sessionId, allows := [.active] }
  | .complete transfer _ => some { sessionId := transfer.sessionId, allows := [.active] }
  | .setCompleted transfer _ => some { sessionId := transfer.sessionId, allows := [] }
  | .setModelCompleted transfer _ => some { sessionId := transfer.sessionId, allows := [] }
  | .announceCompleted transfer _ => some { sessionId := transfer.sessionId, allows := [] }
  | .announceError transfer _ => some { sessionId := transfer.sessionId, allows := [.active] }
  | .recordError transfer _ => some { sessionId := transfer.sessionId, allows := [.active] }
  | .setFailed transfer _ => some { sessionId := transfer.sessionId, allows := [] }
  | .setModelFailed transfer _ => some { sessionId := transfer.sessionId, allows := [] }
  | .returned .. => none

def Task.holds : Task → Option Footing
  | .startSession point => point.holds
  | .incomingSession point => point.holds
  | .engineStart point => point.holds
  | .startTransfer point => point.holds
  | _ => none

/-- The session whose records a procedure has written, or is about to: its own. -/
def Task.entered : Task → Option String
  | .incomingSession (.returned sessionId _) => sessionId
  | .startTransfer (.returned sessionId _) => some sessionId
  | .incomingSession point => point.holds.map Footing.sessionId
  | .startTransfer point => point.holds.map Footing.sessionId
  | _ => none

/-- A session that has ended suits every procedure that holds it. -/
def Footing.Admits (footing : Footing) (state : SessionState) : Prop :=
  state.isTerminal = true ∨ state ∈ footing.allows

/-- A session is created under an id that is not on record. -/
def createdOnce (pool : TransferCoordinator) : Label → Bool
  | .call _ => true
  | .run index choice =>
    match pool.tasks[index]?.map (Task.access · choice) with
    | some (.session (.create id ..)) => (recorded id pool.trace).isNone
    | _ => true

variable {reply : Reply} {choice : Choice} {task moved : Task} {id : String}
  {footing after : Footing}
variable {state : SessionState} {pool : TransferCoordinator} {index : Nat}

def Access.lands (id : String) (state : SessionState) (access : Access) : SessionState :=
  match access with
  | .session (.updateState updated target _) =>
    if updated = id ∧ validTransition state target = true then target else state
  | _ => state

/-- A procedure that holds a session has just created it, or finds it where it left it. -/
def Access.Hands (access : Access) (before : Option Footing) (after : Footing) : Prop :=
  (∃ peerId peerName direction files,
    access = .session (.create after.sessionId peerId peerName direction files) ∧
      .handshaking ∈ after.allows) ∨
    ∃ footing, before = some footing ∧ footing.sessionId = after.sessionId ∧
      ∀ state, footing.Admits state → after.Admits (access.lands after.sessionId state)

theorem Access.Hands.keep {access : Access} (same : before.sessionId = after.sessionId)
    (more : ∀ state ∈ before.allows, state ∈ after.allows)
    (still : ∀ state, access.lands after.sessionId state = state) :
    access.Hands (some before) after := by
  refine .inr ⟨before, rfl, same, fun state stands => ?_⟩
  rw [still]
  exact stands.imp id (more state)

theorem Access.Hands.update
    {before after : List SessionState} (leads : ∀ state ∈ before,
      ({ sessionId, allows := after } : Footing).Admits
      (if validTransition state target = true then target else state)) :
    (Access.session (.updateState sessionId target error)).Hands
      (some { sessionId, allows := before })
      { sessionId, allows := after } := by
  refine .inr ⟨_, rfl, rfl, fun state stands => ?_⟩
  simp only [lands, true_and]
  rcases stands with terminal | open'
  · rw [if_neg]
    · exact .inl terminal
    · intro valid
      rw [validTransition_from valid] at terminal
      cases terminal
  · exact leads state open'

theorem StartSession.hands_resume {point next : StartSession}
    (resumed : point.resume reply choice = some next) (holds : next.holds = some after) :
    (point.access choice).Hands point.holds after := by
  cases moves_of_resume resumed with
  | create =>
    cases holds
    exact .inl ⟨_, _, _, _, rfl, by simp⟩
  | negotiate | activate | fail =>
    cases holds
    apply Access.Hands.update
    simp [Footing.Admits, validTransition, SessionState.isTerminal]
  | _ =>
    cases holds <;> exact .keep rfl (by simp) fun _ => rfl

theorem IncomingSession.hands_resume {point next : IncomingSession}
    (resumed : point.resume reply choice = some next) (holds : next.holds = some after) :
    (point.access choice).Hands point.holds after := by
  cases moves_of_resume resumed with
  | create =>
    cases holds
    exact .inl ⟨_, _, _, _, rfl, by simp⟩
  | record _ decision =>
    cases holds
    apply Access.Hands.update
    cases decision <;> simp [Footing.Admits, validTransition, SessionState.isTerminal, Decision.verdict,
      Verdict.state]
  | announce _ decision =>
    cases holds
    refine .keep rfl (by simp) fun _ => ?_
    cases decision <;> rfl
  | _ =>
    cases holds <;> exact .keep rfl (by simp) fun _ => rfl

theorem EngineStart.hands_resume {point next : EngineStart}
    (resumed : point.resume reply choice = some next) (holds : next.holds = some after) :
    (point.access choice).Hands point.holds after := by
  cases moves_of_resume resumed with
  | create =>
    cases holds
    exact .inl ⟨_, _, _, _, rfl, by simp⟩
  | activate =>
    cases holds
    apply Access.Hands.update
    simp [Footing.Admits, validTransition]
  | _ =>
    cases holds <;> exact .keep rfl (by simp) fun _ => rfl

theorem StartTransfer.hands_resume {point next : StartTransfer}
    (resumed : point.resume reply choice = some next) (holds : next.holds = some after) :
    (point.access choice).Hands point.holds after := by
  cases moves_of_resume resumed with
  | create =>
    cases holds
    exact .inl ⟨_, _, _, _, rfl, by simp⟩
  | negotiate | activate | complete =>
    cases holds
    apply Access.Hands.update
    simp [Footing.Admits, validTransition, SessionState.isTerminal]
  | engine transfer run | uploaded transfer run | failed transfer run =>
    cases holds
    refine .keep rfl (by simp) fun _ => ?_
    cases run <;> rfl
  | recordError =>
    cases holds
    apply Access.Hands.update
    unfold errorState
    split <;> simp [Footing.Admits, validTransition, SessionState.isTerminal]
  | _ =>
    cases holds <;> exact .keep rfl (by simp) fun _ => rfl

theorem Task.hands_resume (resumed : task.resume reply choice = some moved)
    (holds : moved.holds = some after) :
    (task.access choice).Hands task.holds after := by
  cases task with
  | startSession =>
    obtain ⟨next, ran, rfl⟩ := Option.map_eq_some_iff.mp resumed
    exact StartSession.hands_resume ran holds
  | incomingSession =>
    obtain ⟨next, ran, rfl⟩ := Option.map_eq_some_iff.mp resumed
    exact IncomingSession.hands_resume ran holds
  | engineStart =>
    obtain ⟨next, ran, rfl⟩ := Option.map_eq_some_iff.mp resumed
    exact EngineStart.hands_resume ran holds
  | startTransfer =>
    obtain ⟨next, ran, rfl⟩ := Option.map_eq_some_iff.mp resumed
    exact StartTransfer.hands_resume ran holds
  | _ =>
    obtain ⟨_, _, rfl⟩ := Option.map_eq_some_iff.mp resumed
    cases holds

def Task.FailsFinally (task : Task) : Prop :=
  ∀ upload state errMsg, task = .uploadFiles (.fail upload state errMsg) → state.isTerminal = true

theorem UploadFiles.next_ne_fail (upload failed : Upload) (files : List FileMeta)
    (state : SessionState) (errMsg : String) :
    next upload files ≠ .fail failed state errMsg := by
  induction files with
  | nil => rintro ⟨⟩
  | cons _ _ ih =>
    unfold next
    split
    · rintro ⟨⟩
    · exact ih

theorem Task.failsFinally_resume (resumed : task.resume reply choice = some moved) :
    moved.FailsFinally := by
  rintro _ _ _ rfl
  cases task with
  | uploadFiles =>
    obtain ⟨next, ran, same⟩ := Option.map_eq_some_iff.mp resumed
    cases same
    cases UploadFiles.moves_of_resume ran with
    | register _ _ goes | recordFile _ _ _ _ _ goes =>
      exact absurd goes.symm (UploadFiles.next_ne_fail _ _ _ _ _)
    | _ => rfl
  | _ =>
    obtain ⟨_, _, same⟩ := Option.map_eq_some_iff.mp resumed
    cases same

theorem Task.holds_of_negotiates (sound : task.FailsFinally)
    (negotiates : task.access choice = .session (.updateState id .negotiating error)) :
    ∃ footing, task.holds = some footing ∧ footing.sessionId = id := by
  cases task with
  | startSession point =>
    cases point with
    | negotiate =>
      cases negotiates
      exact ⟨_, rfl, rfl⟩
    | write => cases choice <;> cases negotiates
    | _ => cases negotiates
  | uploadFiles point =>
    cases point with
    | engine _ _ _ run => cases run <;> cases negotiates
    | recordFile _ _ _ reported => cases reported <;> cases choice <;> cases negotiates
    | fail =>
      cases negotiates
      cases sound _ _ _ rfl
    | _ => cases negotiates
  | incomingSession point =>
    cases point with
    | record _ decision => cases decision <;> cases negotiates
    | wait | write => cases choice <;> cases negotiates
    | _ => cases negotiates
  | respondSession point =>
    cases point with
    | record response =>
      obtain ⟨_, _, verdict⟩ := response
      cases verdict <;> cases negotiates
    | _ => cases negotiates
  | cancelSession point => cases point <;> cases negotiates
  | sessionEventStream point => cases point <;> cases negotiates
  | engineStart point => cases point <;> cases negotiates
  | startTransfer point =>
    cases point with
    | negotiate =>
      cases negotiates
      exact ⟨_, rfl, rfl⟩
    | engine _ run => cases run <;> cases negotiates
    | recordError _ error =>
      have target : StartTransfer.errorState error = .negotiating :=
        (SessionOp.updateState.inj (Access.session.inj negotiates)).2.1
      unfold StartTransfer.errorState at target
      split at target <;> cases target
    | _ => cases negotiates

theorem Task.allows_active (holds : task.holds = some footing)
    (negotiates : .negotiating ∈ footing.allows) :
    .active ∈ footing.allows := by
  cases task with
  | startSession point => cases point <;> cases holds <;> simp_all
  | incomingSession point => cases point <;> cases holds <;> simp_all
  | engineStart point => cases point <;> cases holds <;> simp_all
  | startTransfer point => cases point <;> cases holds <;> simp_all
  | _ => cases holds

theorem Task.entered_resume (resumed : task.resume reply choice = some moved)
    (entered : moved.entered = some id) :
    task.entered = some id ∨ ∃ peerId peerName direction files,
      task.access choice = .session (.create id peerId peerName direction files) := by
  cases task with
  | incomingSession =>
    obtain ⟨next, ran, rfl⟩ := Option.map_eq_some_iff.mp resumed
    cases IncomingSession.moves_of_resume ran with
    | create =>
      cases entered
      exact .inr ⟨_, _, _, _, rfl⟩
    | _ =>
      cases entered <;> exact .inl rfl
  | startTransfer =>
    obtain ⟨next, ran, rfl⟩ := Option.map_eq_some_iff.mp resumed
    cases StartTransfer.moves_of_resume ran with
    | create =>
      cases entered
      exact .inr ⟨_, _, _, _, rfl⟩
    | _ =>
      cases entered <;> exact .inl rfl
  | _ =>
    obtain ⟨_, _, rfl⟩ := Option.map_eq_some_iff.mp resumed
    cases entered

theorem recorded_of_creator (made : creator id trace = some index) : recorded id trace ≠ none := by
  induction trace with
  | nil => cases made
  | cons _ _ ih =>
    unfold creator at made
    unfold recorded
    split at made
    · cases made
    · rename_i same
      cases same
      split at made
      · rename_i same
        simp [same]
      · rename_i different
        simpa [different] using ih made
    · rename_i notCreate same
      cases same
      split
      · contradiction
      · rename_i same
        cases same
        exact absurd rfl (notCreate _ _ _ _ _ _ _)
      · rename_i same
        cases same
        split
        · exact nofun
        · exact ih made
      · rename_i same
        cases same
        exact ih made

theorem Ran.creator_created (ran : Ran pool index choice)
    (creates : ran.task.access choice = .session (.create id peerId peerName direction files)) :
    creator id ran.after.trace = some index := by
  obtain ⟨_, _, made⟩ := perform_session (creates ▸ ran.performed)
  unfold after
  rw [creator_append_silent (silent_returnEffects _), made]
  exact if_pos rfl

/-- Each session that is held was created by its holder, which finds it where it left it. -/
structure Owned (pool : TransferCoordinator) : Prop where
  ledger : Ledger pool.shared.sessions pool.trace
  created : ∀ (index : Nat) (task : Task) (footing : Footing), pool.tasks[index]? = some task →
    task.holds = some footing → creator footing.sessionId pool.trace = some index
  stands : ∀ (index : Nat) (task : Task) (footing : Footing), pool.tasks[index]? = some task →
    task.holds = some footing → ∃ state, recorded footing.sessionId pool.trace = some state ∧
    footing.Admits state
  sound : ∀ (index : Nat) (task : Task), pool.tasks[index]? = some task → task.FailsFinally

theorem owned_new (deviceId deviceName : String) : Owned (.new deviceId deviceName) where
  ledger := ledger_new 100
  created := by simp [TransferCoordinator.new]
  stands := by simp [TransferCoordinator.new]
  sound := by simp [TransferCoordinator.new]

theorem Call.holds_start (call : Call) : call.start.holds = none := by
  cases call <;> rfl

theorem Owned.called (owned : Owned pool)
    (call : Call) : Owned { pool with tasks := pool.tasks ++ [call.start] } := by
  refine ⟨owned.ledger, ?_, ?_, ?_⟩
  · intro index task footing found holds
    rcases Pool.getElem?_called found with present | ⟨_, rfl⟩
    · exact owned.created index task footing present holds
    · rw [Call.holds_start] at holds
      cases holds
  · intro index task footing found holds
    rcases Pool.getElem?_called found with present | ⟨_, rfl⟩
    · exact owned.stands index task footing present holds
    · rw [Call.holds_start] at holds
      cases holds
  · intro index task found
    rcases Pool.getElem?_called found with present | ⟨_, rfl⟩
    · exact owned.sound index task present
    · rintro _ _ _ same
      cases call <;> cases same

theorem fresh_of_createdOnce
    (ran : Ran pool index choice) (admitted : createdOnce pool (.run index choice) = true)
    (creates : ran.task.access choice = .session (.create id peerId peerName direction files)) :
    recorded id pool.trace = none := by
  simp only [createdOnce, ran.present, Option.map_some, creates] at admitted
  simpa using admitted

theorem Ran.creator_kept (ran : Ran pool index choice)
    (admitted : createdOnce pool (.run index choice) = true)
    (known : recorded id pool.trace ≠ none) :
    creator id ran.after.trace = creator id pool.trace := by
  rcases ran.creator_after id with same | ⟨_, _, _, _, creates, _⟩
  · exact same
  · exact absurd (fresh_of_createdOnce ran admitted creates) known

theorem Owned.recorded_lands (owned : Owned pool) (ran : Ran pool index choice)
    (admitted : createdOnce pool (.run index choice) = true)
    (known : recorded id pool.trace = some state) :
    recorded id ran.after.trace = some ((ran.task.access choice).lands id state) := by
  have same : ran.access = ran.task.access choice := rfl
  rw [ran.recorded_after owned.ledger, same]
  cases accessed : ran.task.access choice with
  | session op =>
    cases op with
    | create =>
      refine (if_neg fun same => ?_).trans known
      rw [← same, fresh_of_createdOnce ran admitted accessed] at known
      cases known
    | updateState =>
      simp only [Access.records, Access.lands, known, Option.any_some]
      split <;> rfl
    | _ => exact known
  | _ => exact known

theorem Access.lands_terminal {access : Access} (terminal : state.isTerminal = true) :
    access.lands id state = state := by
  unfold Access.lands
  split
  · rw [if_neg]
    rintro ⟨_, valid⟩
    rw [validTransition_from valid] at terminal
    cases terminal
  · rfl

theorem Owned.recorded_terminal (owned : Owned pool) (ran : Ran pool index choice)
    (admitted : createdOnce pool (.run index choice) = true)
    (known : recorded id pool.trace = some state) (terminal : state.isTerminal = true) :
    recorded id ran.after.trace = some state := by
  rw [owned.recorded_lands ran admitted known, Access.lands_terminal terminal]

/-- What another procedure's turn makes of a session: nothing, an end, or an acceptance. -/
theorem Owned.recorded_foreign (owned : Owned pool) (ran : Ran pool index choice)
    (admitted : createdOnce pool (.run index choice) = true)
    (known : recorded id pool.trace = some state) (foreign : creator id pool.trace ≠ some index) :
    recorded id ran.after.trace = some state ∨
      ∃ target, recorded id ran.after.trace = some target ∧
        (target.isTerminal = true ∨ (state = .negotiating ∧ target = .active)) := by
  rw [owned.recorded_lands ran admitted known]
  unfold Access.lands
  split
  · rename_i updated target _ updates
    by_cases moves : updated = id ∧ validTransition state target = true
    · rw [if_pos moves]
      refine .inr ⟨target, rfl, ?_⟩
      obtain ⟨same, valid⟩ := moves
      cases target with
      | handshaking => cases state <;> cases valid
      | negotiating =>
        obtain ⟨footing, holds, mine⟩ := Task.holds_of_negotiates
          (owned.sound index ran.task ran.present) updates
        rw [← same, ← mine] at foreign
        exact absurd (owned.created index ran.task footing ran.present holds) foreign
      | active => cases state <;> first | exact .inr ⟨rfl, rfl⟩ | cases valid
      | _ => exact .inl rfl
    · rw [if_neg moves]
      exact .inl rfl
  · exact .inl rfl

theorem Owned.turned (owned : Owned pool) (ran : Ran pool index choice)
    (admitted : createdOnce pool (.run index choice) = true) : Owned ran.after := by
  have spawned {other : Nat} {task : Task} {footing : Footing}
    (new : ran.task.spawned[other]? = some task)
      (holds : task.holds = some footing) : False := by
    obtain ⟨upload, rfl⟩ := Task.spawned_upload (List.mem_of_getElem? new)
    cases holds
  have stays {other : Nat} {task : Task} {footing : Footing} (there : pool.tasks[other]? = some task)
      (holds : task.holds = some footing) : creator footing.sessionId ran.after.trace = some other := by
    obtain ⟨state, known, _⟩ := owned.stands other task footing there holds
    rw [ran.creator_kept admitted (by simp [known])]
    exact owned.created other task footing there holds
  refine ⟨(owned.ledger.perform ran.performed).silent (silent_returnEffects ran.moved), ?_, ?_, ?_⟩
  · intro other task footing found holds
    rcases Pool.getElem?_turned found with ⟨rfl, rfl⟩ | ⟨_, there⟩ | ⟨_, new⟩
    · rcases Task.hands_resume ran.resumed holds with ⟨_, _, _, _, creates, _⟩ | ⟨before, held, same, _⟩
      · exact ran.creator_created creates
      · exact same ▸ stays ran.present held
    · exact stays there holds
    · exact (spawned new holds).elim
  · intro other task footing found holds
    rcases Pool.getElem?_turned found with ⟨rfl, rfl⟩ | ⟨different, there⟩ | ⟨_, new⟩
    · rcases Task.hands_resume ran.resumed holds with ⟨_, _, _, _, creates, allowed⟩
        | ⟨before, held, same, lands⟩
      · have access : ran.access = _ := creates
        rw [ran.recorded_after owned.ledger, access]
        exact ⟨.handshaking, if_pos rfl, .inr allowed⟩
      · obtain ⟨state, known, admits⟩ := owned.stands other ran.task before ran.present held
        rw [same] at known
        exact ⟨_, owned.recorded_lands ran admitted known, lands state admits⟩
    · obtain ⟨state, known, admits⟩ := owned.stands other task footing there holds
      have foreign : creator footing.sessionId pool.trace ≠ some index := by
        rw [owned.created other task footing there holds]
        exact fun same => different (Option.some.inj same)
      rcases owned.recorded_foreign ran admitted known foreign with unchanged
        | ⟨target, moved, terminal | ⟨rfl, rfl⟩⟩
      · exact ⟨state, unchanged, admits⟩
      · exact ⟨target, moved, .inl terminal⟩
      · refine ⟨.active, moved, .inr (Task.allows_active holds ?_)⟩
        exact admits.resolve_left nofun
    · exact (spawned new holds).elim
  · intro other task found
    rcases Pool.getElem?_turned found with ⟨rfl, rfl⟩ | ⟨_, there⟩ | ⟨_, new⟩
    · exact Task.failsFinally_resume ran.resumed
    · exact owned.sound other task there
    · obtain ⟨_, rfl⟩ := Task.spawned_upload (List.mem_of_getElem? new)
      exact nofun

/-- A session that a procedure has entered was created by it, also when the call is over. -/
structure Entered (pool : TransferCoordinator) : Prop where
  owned : Owned pool
  creators : ∀ (index : Nat) (task : Task) (id : String), pool.tasks[index]? = some task →
    task.entered = some id →
    creator id pool.trace = some index

theorem entered_new (deviceId deviceName : String) : Entered (.new deviceId deviceName) where
  owned := owned_new deviceId deviceName
  creators := by simp [TransferCoordinator.new]

theorem Entered.called (entered : Entered pool) (call : Call) :
    Entered { pool with tasks := pool.tasks ++ [call.start] } := by
  refine ⟨entered.owned.called call, fun index task id found own => ?_⟩
  rcases Pool.getElem?_called found with present | ⟨_, rfl⟩
  · exact entered.creators index task id present own
  · cases call <;> cases own

theorem Ran.creator_stays (ran : Ran pool index choice)
    (admitted : createdOnce pool (.run index choice) = true)
    (made : creator id pool.trace = some holder) : creator id ran.after.trace = some holder := by
  rw [ran.creator_kept admitted (recorded_of_creator made), made]

theorem Entered.turned (entered : Entered pool) (ran : Ran pool index choice)
    (admitted : createdOnce pool (.run index choice) = true) : Entered ran.after := by
  refine ⟨entered.owned.turned ran admitted, fun other task id found own => ?_⟩
  rcases Pool.getElem?_turned found with ⟨rfl, rfl⟩ | ⟨_, there⟩ | ⟨_, new⟩
  · rcases Task.entered_resume ran.resumed own with before | ⟨_, _, _, _, creates⟩
    · exact ran.creator_stays admitted (entered.creators other ran.task id ran.present before)
    · exact ran.creator_created creates
  · exact ran.creator_stays admitted (entered.creators other task id there own)
  · obtain ⟨_, rfl⟩ := Task.spawned_upload (List.mem_of_getElem? new)
    cases own

end DistributedOs.Coordinator
