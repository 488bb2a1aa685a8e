import DistributedOs.Coordinator.Owners

/-! What a failed call leaves behind. `start_transfer`, `start_session`, `handle_incoming_session`
and `TransferEngine::start` write their records first and then go through steps that return
with `?`: only the steps that record their failure leave the records in a final state. -/

namespace DistributedOs.Coordinator

open Semantics DistributedOs.Session DistributedOs.Transfer SessionManager

/-- The session of a call that has returned Err, if the call got as far as creating it. -/
def Task.failed : Task → Option String
  | .startSession (.returned sessionId (.error _)) => some sessionId
  | .incomingSession (.returned sessionId (.error _)) => sessionId
  | .engineStart (.returned sessionId (.error _)) => some sessionId
  | .startTransfer (.returned sessionId (.error _)) => some sessionId
  | _ => none

def TransferStatus.hasFailed : TransferStatus → Bool
  | .failed _ => true
  | _ => false

/-- The session has ended, and no other record of it waits for anything. -/
structure LeftFinal (id : String) (pool : TransferCoordinator) : Prop where
  ended : ∃ state, recorded id pool.trace = some state ∧ state.isTerminal = true
  inactive : pool.shared.sessions.active.lookup id = none
  states : ∀ status, pool.shared.states.lookup id = some status → status.hasFailed = true
  transfers : ∀ model, pool.shared.transfers.lookup id = some model → model.status.hasFailed = true
  responders : pool.shared.responders.lookup id = none

/-- Every call that has returned Err after it created its session has left final records. -/
def FailuresFinal (pool : TransferCoordinator) : Prop :=
  ∀ (index : Nat) (task : Task) (id : String), pool.tasks[index]? = some task → task.failed = some id →
    creator id pool.trace = some index → LeftFinal id pool

/-- The session a turn walks out on: a failure that `?` returns, past every record. -/
def Task.abandons : Task → Choice → Option String
  | .startTransfer (.announceStarted transfer), _ =>
    match parseAddr transfer.peerAddr with
    | .ok _ => none
    | .error _ => some transfer.sessionId
  | .startTransfer (.handshake transfer), .failure _ => some transfer.sessionId
  | .startSession (.announceStarted offer), _ =>
    match parseAddr offer.address with
    | .ok _ => none
    | .error _ => some offer.sessionId
  | .startSession (.connect offer), .failure _ => some offer.sessionId
  | .startSession (.identify offer), .failure _ => some offer.sessionId
  | .startSession (.write offer _ _), .failure _ => some offer.sessionId
  | .startSession (.read offer), .failure _ => some offer.sessionId
  | .startSession (.read offer), .message .accept (.malformed _) => some offer.sessionId
  | .startSession (.read offer), .message .reject (.malformed _) => some offer.sessionId
  | .incomingSession (.write request _), .failure _ => some request.sessionId
  | .engineStart (.unlock sessionId (.error _)), _ => some sessionId
  | _, _ => none

/-- Ids are created once, and a call walks out on its session only when another call has
ended it, it has no entry in `states`, and its responder is gone. -/
def failsFinally (pool : TransferCoordinator) (label : Label) : Bool :=
  createdOnce pool label &&
    match label with
    | .call _ => true
    | .run index choice =>
      (pool.tasks[index]?.bind (Task.abandons · choice)).all fun id =>
        (recorded id pool.trace).any SessionState.isTerminal && (pool.shared.states.lookup id).isNone &&
          (pool.shared.responders.lookup id).isNone

variable {reply : Reply} {choice : Choice} {task moved : Task} {id : String}
variable {pool : TransferCoordinator} {index : Nat}

def Task.unborn : Task → Bool
  | .startSession (.findPeer ..) => true
  | .startSession (.create _) => true
  | _ => false

/-- The id whose entry in `states` or `transfers` the access writes. -/
def Access.enters : Access → Option String
  | .insertStatus id _ => some id
  | .insertModel model => some model.id
  | .setModelStatus id _ => some id
  | _ => none

def StartTransfer.status : StartTransfer → Option (String × TransferStatus)
  | .insertToken _ => none
  | .openChannel _ => none
  | .create _ => none
  | .insertStatus _ => none
  | .setModelCompleted transfer _ => some (transfer.sessionId, .completed)
  | .announceCompleted transfer _ => some (transfer.sessionId, .completed)
  | .setModelFailed transfer error => some (transfer.sessionId, .failed error.message)
  | .returned .. => none
  | point => some (point.tokenId, .running)

theorem Task.unborn_resume (resumed : task.resume reply choice = some moved)
    (unborn : moved.unborn = true) :
    task.unborn = true ∧ task.access choice = .idle := by
  cases task with
  | startSession =>
    obtain ⟨next, ran, rfl⟩ := Option.map_eq_some_iff.mp resumed
    cases StartSession.moves_of_resume ran with
    | findPeer => exact ⟨rfl, rfl⟩
    | _ => cases unborn
  | _ =>
    obtain ⟨_, _, rfl⟩ := Option.map_eq_some_iff.mp resumed
    cases unborn

/-- How a call comes to return Err. -/
theorem Task.failed_resume (resumed : task.resume reply choice = some moved)
    (failed : moved.failed = some id) :
    (task.unborn = true ∧ task.access choice = .idle) ∨ task.abandons choice = some id ∨
      (∃ offer error result, task = .startSession (.announceFailed offer error result) ∧
        id = offer.sessionId) ∨
        ∃ transfer error, task = .startTransfer (.setModelFailed transfer error) ∧
        id = transfer.sessionId := by
  cases task with
  | startSession =>
    obtain ⟨next, ran, rfl⟩ := Option.map_eq_some_iff.mp resumed
    cases StartSession.moves_of_resume ran with
    | missing => exact .inl ⟨rfl, rfl⟩
    | misaddressed _ _ parsed =>
      cases failed
      refine .inr (.inl ?_)
      simp only [abandons, parsed]
    | unconnected | unencoded | unwritten | unread | malformedAccept | malformedReject =>
      cases failed
      exact .inr (.inl rfl)
    | announceFailed offer error result =>
      refine .inr (.inr (.inl ⟨offer, error, result, rfl, ?_⟩))
      cases result with
      | ok => cases failed
      | error => exact (Option.some.inj failed).symm
    | _ => cases failed
  | incomingSession =>
    obtain ⟨next, ran, rfl⟩ := Option.map_eq_some_iff.mp resumed
    cases IncomingSession.moves_of_resume ran with
    | unwritten =>
      cases failed
      exact .inr (.inl rfl)
    | _ => cases failed
  | engineStart =>
    obtain ⟨next, ran, rfl⟩ := Option.map_eq_some_iff.mp resumed
    cases EngineStart.moves_of_resume ran with
    | abandon =>
      cases failed
      exact .inr (.inl rfl)
    | _ => cases failed
  | startTransfer =>
    obtain ⟨next, ran, rfl⟩ := Option.map_eq_some_iff.mp resumed
    cases StartTransfer.moves_of_resume ran with
    | misaddressed _ _ parsed =>
      cases failed
      refine .inr (.inl ?_)
      simp only [abandons, parsed]
    | refused =>
      cases failed
      exact .inr (.inl rfl)
    | setModelFailed transfer error =>
      cases failed
      exact .inr (.inr (.inr ⟨transfer, error, rfl, rfl⟩))
    | _ => cases failed
  | _ =>
    obtain ⟨_, _, rfl⟩ := Option.map_eq_some_iff.mp resumed
    cases failed

theorem Task.entered_of_enters (enters : (task.access choice).enters = some id) :
    task.entered = some id ∧ ∃ point, task = .startTransfer point := by
  obtain ⟨point, rfl⟩ : ∃ point, task = .startTransfer point := by
    cases accessed : task.access choice with
    | insertStatus | insertModel | setModelStatus =>
      exact startTransfer_of_access (by rw [accessed]; rfl)
        (fun _ same => by cases accessed.symm.trans same)
        fun _ same => by cases accessed.symm.trans same
    | _ =>
      rw [accessed] at enters
      cases enters
  refine ⟨?_, point, rfl⟩
  cases point with
  | engine _ run => cases run <;> cases enters
  | insertStatus | insertModel | setCompleted | setModelCompleted | setFailed | setModelFailed =>
    cases enters
    rfl
  | _ => cases enters

theorem Task.entered_of_registered (registered : task.registered = some id) :
    task.entered = some id := by
  cases task with
  | incomingSession point => cases point <;> cases registered <;> rfl
  | _ => cases registered

theorem Task.entered_of_insertResponder (inserts : task.access choice = .insertResponder id) :
    task.entered = some id ∧ ∃ request, task = .incomingSession (.register request) := by
  have made := task.madeBy choice
  rw [inserts] at made
  obtain ⟨request, rfl, rfl⟩ := made
  exact ⟨rfl, request, rfl⟩

section Accesses

variable {shared next : Shared} {self : Nat} {access : Access} {effects : List Effect}

theorem perform_states (performed : shared.perform self access = some (reply, next, effects))
    (id : String) :
    (next.states.lookup id = shared.states.lookup id ∧ ∀ status, access ≠ .insertStatus id status) ∨
      ∃ status, access = .insertStatus id status ∧ next.states.lookup id = some status := by
  by_cases writes : ∃ status, access = .insertStatus id status
  · obtain ⟨status, rfl⟩ := writes
    cases performed
    exact .inr ⟨status, rfl, AList.lookup_insert _⟩
  · have never := not_exists.mp writes
    exact .inl ⟨(perform_keeps performed id).states never, never⟩

theorem perform_transfers
    (performed : shared.perform self access = some (reply, next, effects)) (id : String) :
    (next.transfers.lookup id = shared.transfers.lookup id ∧
      (∀ status, access ≠ .setModelStatus id status) ∧
        ∀ model, access = .insertModel model → model.id ≠ id) ∨
      (∃ model, access = .insertModel model ∧ model.id = id) ∨
        ∃ status, access = .setModelStatus id status ∧
          next.transfers.lookup id = (shared.transfers.lookup id).map ({ · with status }) := by
  by_cases inserts : ∃ model, access = .insertModel model ∧ model.id = id
  · exact .inr (.inl inserts)
  by_cases writes : ∃ status, access = .setModelStatus id status
  · obtain ⟨status, rfl⟩ := writes
    cases performed
    refine .inr (.inr ⟨status, rfl, ?_⟩)
    cases found : shared.transfers.lookup id with
    | none => simpa using found
    | some => exact AList.lookup_insert _
  · have other : ∀ model, access = .insertModel model → model.id ≠ id :=
      fun model same own => inserts ⟨model, same, own⟩
    have never := not_exists.mp writes
    exact .inl ⟨(perform_keeps performed id).transfers other never, never, other⟩

/-- What the access makes of the status that `states`, or `transfers`, has for a transfer. -/
def Access.landsStatus (id : String) (status : Option TransferStatus) :
    Access → Option TransferStatus
  | .insertStatus inserted given => if inserted = id then some given else status
  | _ => status

def Access.landsModel (id : String) (status : Option TransferStatus) :
    Access → Option TransferStatus
  | .insertModel model => if model.id = id then some model.status else status
  | .setModelStatus changed given => if changed = id then status.map fun _ => given else status
  | _ => status

theorem perform_landsStatus
    (performed : shared.perform self access = some (reply, next, effects)) (id : String) :
    next.states.lookup id = access.landsStatus id (shared.states.lookup id) := by
  rcases perform_states performed id with ⟨same, never⟩ | ⟨status, rfl, now⟩
  · rw [same]
    unfold Access.landsStatus
    split
    · rename_i status
      rw [if_neg]
      rintro rfl
      exact never status rfl
    · rfl
  · rw [now]
    exact (if_pos rfl).symm

theorem perform_landsModel
    (performed : shared.perform self access = some (reply, next, effects)) (id : String) :
    (next.transfers.lookup id).map TransferModel.status =
      access.landsModel id ((shared.transfers.lookup id).map TransferModel.status) := by
  rcases perform_transfers performed id with ⟨same, never, other⟩ | ⟨model, rfl, rfl⟩
    | ⟨status, rfl, now⟩
  · rw [same]
    unfold Access.landsModel
    split
    · rename_i model
      rw [if_neg (other model rfl)]
    · rename_i status
      rw [if_neg]
      rintro rfl
      exact never status rfl
    · rfl
  · cases performed
    simp [Access.landsModel]
  · rw [now]
    simp [Access.landsModel, Option.map_map, Function.comp_def]

end Accesses

/-- Every record belongs to the procedure that created its session, and the records of the
calls that have failed are final. -/
structure Settled (pool : TransferCoordinator) : Prop where
  entered : Entered pool
  registered : Registered pool
  begun : ∀ (id : String) (index : Nat), creator id pool.trace = some index → ∃ task : Task,
    pool.tasks[index]? = some task ∧ task.unborn = false
  states : ∀ id status, pool.shared.states.lookup id = some status →
    ∃ (index : Nat) (point : StartTransfer),
    creator id pool.trace = some index ∧ pool.tasks[index]? = some (Task.startTransfer point)
  transfers : ∀ id model, pool.shared.transfers.lookup id = some model →
    ∃ (index : Nat) (point : StartTransfer),
    creator id pool.trace = some index ∧ pool.tasks[index]? = some (Task.startTransfer point)
  status : ∀ (index : Nat) (point : StartTransfer) (id : String) (status : TransferStatus),
    pool.tasks[index]? = some (Task.startTransfer point) → point.status = some (id, status) →
    pool.shared.states.lookup id = some status
  final : FailuresFinal pool

theorem settled_new (deviceId deviceName : String) : Settled (.new deviceId deviceName) where
  entered := entered_new deviceId deviceName
  registered := registered_new deviceId deviceName
  begun := by simp [TransferCoordinator.new, creator]
  states := by simp [TransferCoordinator.new, Shared.new]
  transfers := by simp [TransferCoordinator.new, Shared.new]
  status := by simp [TransferCoordinator.new]
  final := by simp [FailuresFinal, TransferCoordinator.new]

theorem Settled.called (settled : Settled pool) (call : Call) :
    Settled { pool with tasks := pool.tasks ++ [call.start] } := by
  refine ⟨settled.entered.called call, settled.registered.called call, ?_, ?_, ?_, ?_, ?_⟩
  · intro id index made
    obtain ⟨task, present, born⟩ := settled.begun id index made
    exact ⟨task, kept_by_call present, born⟩
  · intro id status found
    obtain ⟨index, point, made, present⟩ := settled.states id status found
    exact ⟨index, point, made, kept_by_call present⟩
  · intro id model found
    obtain ⟨index, point, made, present⟩ := settled.transfers id model found
    exact ⟨index, point, made, kept_by_call present⟩
  · intro index point id status found listed
    rcases Pool.getElem?_called found with present | ⟨_, started⟩
    · exact settled.status index point id status present listed
    · cases call <;> cases started
      cases listed
  · intro index task id found failed made
    rcases Pool.getElem?_called found with present | ⟨_, rfl⟩
    · obtain ⟨ended, inactive, states, transfers, responders⟩ := settled.final index task id
        present failed made
      exact ⟨ended, inactive, states, transfers, responders⟩
    · cases call <;> cases failed

theorem Settled.no_responder (settled : Settled pool) (made : creator id pool.trace = some index)
    (present : pool.tasks[index]? = some task) (other : ∀ point, task ≠ .incomingSession point) :
    pool.shared.responders.lookup id = none := by
  refine Option.eq_none_iff_forall_ne_some.mpr fun holder found => ?_
  obtain ⟨holding, there, registered⟩ := settled.registered.responders id holder found
  have mine := settled.entered.creators holder holding id there (Task.entered_of_registered registered)
  rw [made] at mine
  cases mine
  cases present.symm.trans there
  cases task with
  | incomingSession point => exact other point rfl
  | _ => cases registered

theorem Settled.no_status (settled : Settled pool) (made : creator id pool.trace = some index)
    (present : pool.tasks[index]? = some task) (other : ∀ point, task ≠ .startTransfer point) :
    pool.shared.states.lookup id = none ∧ pool.shared.transfers.lookup id = none := by
  constructor
  · refine Option.eq_none_iff_forall_ne_some.mpr fun status found => ?_
    obtain ⟨holder, point, mine, there⟩ := settled.states id status found
    cases made.symm.trans mine
    exact other point (Option.some.inj (present.symm.trans there))
  · refine Option.eq_none_iff_forall_ne_some.mpr fun model found => ?_
    obtain ⟨_, point, mine, there⟩ := settled.transfers id model found
    cases made.symm.trans mine
    exact other point (Option.some.inj (present.symm.trans there))

/-- Final records stay so through a turn that writes none of them. -/
theorem LeftFinal.turned (left : LeftFinal id pool) (settled : Settled pool)
    (ran : Ran pool index choice) (admitted : createdOnce pool (.run index choice) = true)
    (enters : (ran.task.access choice).enters ≠ some id)
    (inserts : ran.task.access choice ≠ .insertResponder id) : LeftFinal id ran.after := by
  obtain ⟨state, known, terminal⟩ := left.ended
  have stays : recorded id ran.after.trace = some state :=
    settled.entered.owned.recorded_terminal ran admitted known terminal
  have ledger : Ledger ran.after.shared.sessions ran.after.trace :=
    (settled.entered.owned.ledger.perform ran.performed).silent (silent_returnEffects ran.moved)
  refine ⟨⟨state, stays, terminal⟩, ledger.inactive stays terminal, ?_, ?_, ?_⟩
  · intro status found
    rcases perform_states ran.performed id with ⟨same, _⟩ | ⟨written, writes, _⟩
    · exact left.states status (same ▸ found)
    · rw [writes] at enters
      exact absurd rfl enters
  · intro model found
    rcases perform_transfers ran.performed id with ⟨same, _⟩ | ⟨_, writes, own⟩ | ⟨_, writes, _⟩
    · exact left.transfers model (same ▸ found)
    · rw [writes] at enters
      exact absurd (congrArg some own) enters
    · rw [writes] at enters
      exact absurd rfl enters
  · refine Option.eq_none_iff_forall_ne_some.mpr fun holder found => ?_
    rcases perform_responders ran.performed found with earlier | ⟨writes, _⟩
    · rw [left.responders] at earlier
      cases earlier
    · exact inserts writes

variable {point : StartTransfer} {status : TransferStatus}

theorem StartTransfer.entered_of_status
    (listed : point.status = some (id, status)) : (Task.startTransfer point).entered = some id := by
  cases point <;> cases listed <;> rfl

theorem StartTransfer.status_resume
    (resumed : point.resume reply choice = some next) (listed : next.status = some (id, status)) :
    point.access choice = .insertStatus id status ∨
      (point.status = some (id, status) ∧
        ∀ written, point.access choice ≠ .insertStatus id written) := by
  cases moves_of_resume resumed with
  | insertStatus | setCompleted | setFailed =>
    cases listed
    exact .inl rfl
  | engine transfer run | uploaded transfer run | failed transfer run =>
    cases listed
    refine .inr ⟨rfl, fun written writes => ?_⟩
    cases run <;> cases writes
  | _ => cases listed <;> exact .inr ⟨rfl, nofun⟩

theorem Ran.keeps_transfer (ran : Ran pool index choice) {other : Nat}
    (present : pool.tasks[other]? = some (.startTransfer point)) :
    ∃ next, ran.after.tasks[other]? = some (.startTransfer next) := by
  rcases ran.stays present with ⟨rfl, same, moved⟩ | ⟨_, there⟩
  · have resumed := ran.resumed
    rw [← same] at resumed
    obtain ⟨next, _, moves⟩ := Option.map_eq_some_iff.mp resumed
    exact ⟨next, moves ▸ moved⟩
  · exact ⟨point, there⟩

theorem Settled.after_begun (settled : Settled pool) (ran : Ran pool index choice)
    (made : creator id ran.after.trace = some holder) :
    ∃ task : Task, ran.after.tasks[holder]? = some task ∧ task.unborn = false := by
  have born (turned : ran.task.unborn = false ∨ ran.task.access choice ≠ .idle) :
      ran.moved.unborn = false := by
    refine Bool.eq_false_iff.mpr fun unborn => ?_
    obtain ⟨before, idle⟩ := Task.unborn_resume ran.resumed unborn
    rcases turned with ceased | acts
    · rw [before] at ceased
      cases ceased
    · exact acts idle
  rcases ran.creator_after id with same | ⟨_, _, _, _, creates, mine⟩
  · rw [same] at made
    obtain ⟨task, present, begun⟩ := settled.begun id holder made
    rcases ran.stays present with ⟨rfl, rfl, moved⟩ | ⟨_, there⟩
    · exact ⟨ran.moved, moved, born (.inl begun)⟩
    · exact ⟨task, there, begun⟩
  · cases mine.symm.trans made
    have acts : ran.task.access choice = .session _ := creates
    exact ⟨ran.moved, Pool.getElem?_moved ran.present, born (.inr (by rw [acts]; exact nofun))⟩

theorem Settled.enters_own (settled : Settled pool) (ran : Ran pool index choice)
    (enters : (ran.task.access choice).enters = some id) :
    creator id pool.trace = some index ∧ ∃ point, ran.task = .startTransfer point := by
  obtain ⟨entered, transfer⟩ := Task.entered_of_enters enters
  exact ⟨settled.entered.creators index ran.task id ran.present entered, transfer⟩

theorem Settled.holder_after (ran : Ran pool index choice)
    (admitted : createdOnce pool (.run index choice) = true) {holder : Nat}
    (made : creator id pool.trace = some holder)
    (present : pool.tasks[holder]? = some (.startTransfer point)) :
    ∃ (holder : Nat) (point : StartTransfer),
      creator id ran.after.trace = some holder ∧
      ran.after.tasks[holder]? = some (.startTransfer point) := by
  obtain ⟨next, there⟩ := ran.keeps_transfer present
  exact ⟨holder, next, ran.creator_stays admitted made, there⟩

theorem Settled.after_states (settled : Settled pool) (ran : Ran pool index choice)
    (admitted : createdOnce pool (.run index choice) = true)
    (found : ran.after.shared.states.lookup id = some status) :
    ∃ (holder : Nat) (point : StartTransfer),
      creator id ran.after.trace = some holder ∧
      ran.after.tasks[holder]? = some (.startTransfer point) := by
  rcases perform_states ran.performed id with ⟨same, _⟩ | ⟨_, writes, _⟩
  · obtain ⟨_, point, made, present⟩ := settled.states id status (same ▸ found)
    exact holder_after ran admitted made present
  · obtain ⟨made, _, transfer⟩ := settled.enters_own ran (by rw [writes]; rfl)
    exact holder_after ran admitted made (transfer ▸ ran.present)

theorem Settled.after_transfers (settled : Settled pool) (ran : Ran pool index choice)
    (admitted : createdOnce pool (.run index choice) = true)
    (found : ran.after.shared.transfers.lookup id = some model) :
    ∃ (holder : Nat) (point : StartTransfer),
      creator id ran.after.trace = some holder ∧
      ran.after.tasks[holder]? = some (.startTransfer point) := by
  rcases perform_transfers ran.performed id with ⟨same, _⟩ | ⟨_, writes, own⟩ | ⟨_, writes, _⟩
  · obtain ⟨_, point, made, present⟩ := settled.transfers id model (same ▸ found)
    exact holder_after ran admitted made present
  · obtain ⟨made, point, transfer⟩ := settled.enters_own ran
      (show (ran.task.access choice).enters = some id by rw [writes, ← own]; rfl)
    exact holder_after ran admitted made (transfer ▸ ran.present)
  · obtain ⟨made, _, transfer⟩ := settled.enters_own ran (by rw [writes]; rfl)
    exact holder_after ran admitted made (transfer ▸ ran.present)

theorem Settled.after_status (settled : Settled pool) (ran : Ran pool index choice) {other : Nat}
    (found : ran.after.tasks[other]? = some (.startTransfer point))
    (listed : point.status = some (id, status)) :
    ran.after.shared.states.lookup id = some status := by
  rcases Pool.getElem?_turned found with ⟨rfl, moved⟩ | ⟨different, there⟩ | ⟨_, new⟩
  · obtain ⟨before, same, resumed⟩ := Task.startTransfer_resume ran.resumed moved.symm
    have access : ran.task.access choice = before.access choice := by rw [same]; rfl
    rcases StartTransfer.status_resume resumed listed with writes | ⟨earlier, keeps⟩ <;>
      rcases perform_states ran.performed id with ⟨unchanged, none⟩ | ⟨written, written', now⟩
    · exact absurd (access.trans writes) (none status)
    · rw [access, writes] at written'
      cases written'
      exact now
    · exact unchanged.trans (settled.status other before id status (same ▸ ran.present) earlier)
    · exact absurd (access.symm.trans written') (keeps written)
  · rcases perform_states ran.performed id with ⟨unchanged, _⟩ | ⟨_, writes, _⟩
    · exact unchanged.trans (settled.status other point id status there listed)
    · have mine := settled.entered.creators other _ id there (StartTransfer.entered_of_status listed)
      cases mine.symm.trans (settled.enters_own ran (by rw [writes]; rfl)).1
      exact absurd rfl different
  · obtain ⟨_, same⟩ := Task.spawned_upload (List.mem_of_getElem? new)
    cases same

theorem Ran.abandoned (ran : Ran pool index choice)
    (admitted : failsFinally pool (.run index choice) = true)
    (abandons : ran.task.abandons choice = some id) :
    (∃ state, recorded id pool.trace = some state ∧ state.isTerminal = true) ∧
      pool.shared.states.lookup id = none ∧ pool.shared.responders.lookup id = none := by
  obtain ⟨_, final⟩ := Bool.and_eq_true_iff.mp admitted
  simp only [ran.present, Option.bind_some, abandons, Option.all_some, Bool.and_eq_true,
    Option.isNone_iff_eq_none] at final
  obtain ⟨⟨ended, states⟩, responders⟩ := final
  exact ⟨(Option.any_eq_true _ _).mp ended, states, responders⟩

theorem Task.abandons_plain (abandons : task.abandons choice = some id) :
    (task.access choice).enters = none ∧ (∀ other, task.access choice ≠ .insertResponder other) ∧
      ∀ op, task.access choice ≠ .session op := by
  unfold Task.abandons at abandons
  split at abandons <;> first | exact ⟨rfl, nofun, nofun⟩ | cases abandons

theorem Task.status_of_abandons (abandons : (Task.startTransfer point).abandons choice = some id) :
    point.status = some (id, .running) := by
  cases point with
  | announceStarted =>
    simp only [Task.abandons] at abandons
    split at abandons <;> cases abandons
    rfl
  | handshake =>
    cases choice <;> cases abandons
    rfl
  | _ => cases abandons

theorem Settled.left_of_abandons (settled : Settled pool) (ran : Ran pool index choice)
    (admitted : failsFinally pool (.run index choice) = true)
    (abandons : ran.task.abandons choice = some id) (made : creator id pool.trace = some index) :
    LeftFinal id pool := by
  obtain ⟨⟨state, known, terminal⟩, states, responders⟩ := ran.abandoned admitted abandons
  have other : ∀ point, ran.task ≠ .startTransfer point := by
    intro point same
    have listed := settled.status index point id .running (same ▸ ran.present)
      (Task.status_of_abandons (same ▸ abandons))
    rw [states] at listed
    cases listed
  refine ⟨⟨state, known, terminal⟩, settled.entered.owned.ledger.inactive known terminal,
    ?_, ?_, responders⟩
  · rw [states]
    exact nofun
  · rw [(settled.no_status made ran.present other).2]
    exact nofun

theorem Settled.left_of_announceFailed (settled : Settled pool)
    (present : pool.tasks[index]? = some (.startSession (.announceFailed offer error result)))
    (made : creator offer.sessionId pool.trace = some index) : LeftFinal offer.sessionId pool := by
  obtain ⟨state, known, admits⟩ := settled.entered.owned.stands index _ _ present rfl
  have terminal : state.isTerminal = true := admits.resolve_right (List.not_mem_nil)
  obtain ⟨states, transfers⟩ := settled.no_status made present fun _ same => by cases same
  refine ⟨⟨state, known, terminal⟩, settled.entered.owned.ledger.inactive known terminal, ?_, ?_,
    settled.no_responder made present nofun⟩
  · rw [states]
    exact nofun
  · rw [transfers]
    exact nofun

/-- The last record `start_transfer` writes of a failed upload makes them final. -/
theorem Settled.left_of_setModelFailed (settled : Settled pool) (ran : Ran pool index choice)
    (admitted : createdOnce pool (.run index choice) = true)
    (point : ran.task = .startTransfer (.setModelFailed transfer error)) :
    LeftFinal transfer.sessionId ran.after := by
  have present := point ▸ ran.present
  obtain ⟨state, known, admits⟩ := settled.entered.owned.stands index _ _ present rfl
  have terminal : state.isTerminal = true := admits.resolve_right (List.not_mem_nil)
  have access : ran.task.access choice = .setModelStatus transfer.sessionId
      (.failed error.message) := by rw [point]; rfl
  have stays : recorded transfer.sessionId ran.after.trace = some state :=
    settled.entered.owned.recorded_terminal ran admitted known terminal
  have ledger : Ledger ran.after.shared.sessions ran.after.trace :=
    (settled.entered.owned.ledger.perform ran.performed).silent (silent_returnEffects ran.moved)
  refine ⟨⟨state, stays, terminal⟩, ledger.inactive stays terminal, ?_, ?_, ?_⟩
  · intro status found
    rcases perform_states ran.performed transfer.sessionId with ⟨same, _⟩ | ⟨_, writes, _⟩
    · have listed := settled.status index _ _ _ present rfl
      cases (same ▸ found : pool.shared.states.lookup transfer.sessionId = some status).symm.trans listed
      rfl
    · rw [access] at writes
      cases writes
  · intro model found
    rcases perform_transfers ran.performed transfer.sessionId with ⟨_, none, _⟩ | ⟨_, writes, _⟩
      | ⟨_, writes, now⟩
    · exact absurd access (none _)
    · rw [access] at writes
      cases writes
    · rw [access] at writes
      cases writes
      have there : ran.shared.transfers.lookup transfer.sessionId = some model := found
      obtain ⟨_, _, rfl⟩ := Option.map_eq_some_iff.mp (now.symm.trans there)
      rfl
  · refine Option.eq_none_iff_forall_ne_some.mpr fun holder found => ?_
    have none := settled.no_responder (settled.entered.creators index _ _ present rfl) present nofun
    rcases perform_responders ran.performed found with earlier | ⟨writes, _⟩
    · rw [none] at earlier
      cases earlier
    · rw [access] at writes
      cases writes

theorem Settled.after_final (settled : Settled pool) (ran : Ran pool index choice)
    (admitted : failsFinally pool (.run index choice) = true) : FailuresFinal ran.after := by
  have once : createdOnce pool (.run index choice) = true := (Bool.and_eq_true_iff.mp admitted).1
  intro other task id found failed made
  rcases Pool.getElem?_turned found with ⟨rfl, rfl⟩ | ⟨different, there⟩ | ⟨_, new⟩
  · -- the call returns in this turn
    have quiet (enters : (ran.task.access choice).enters ≠ some id)
        (inserts : ran.task.access choice ≠ .insertResponder id)
        (records : ∀ op, ran.task.access choice ≠ .session op)
        (left : creator id pool.trace = some other → LeftFinal id pool) : LeftFinal id ran.after := by
      rcases ran.creator_after id with same | ⟨_, _, _, _, creates, _⟩
      · exact (left (same ▸ made)).turned settled ran once enters inserts
      · exact absurd creates (records _)
    rcases Task.failed_resume ran.resumed failed with
      ⟨unborn, idle⟩ | abandons | ⟨offer, error, result, point, rfl⟩ | ⟨transfer, error, point, rfl⟩
    · refine quiet (by rw [idle]; exact nofun) (by rw [idle]; exact nofun)
        (by rw [idle]; exact nofun) fun earlier => ?_
      obtain ⟨task, present, begun⟩ := settled.begun id other earlier
      cases ran.present.symm.trans present
      rw [unborn] at begun
      cases begun
    · obtain ⟨enters, inserts, records⟩ := Task.abandons_plain abandons
      exact quiet (by rw [enters]; exact nofun) (inserts id) records
        fun earlier => settled.left_of_abandons ran admitted abandons earlier
    · have access : ran.task.access choice = .emit (.sessionFailed offer.sessionId error) := by
        rw [point]; rfl
      exact quiet (by rw [access]; exact nofun) (by rw [access]; exact nofun)
        (by rw [access]; exact nofun)
        fun earlier => settled.left_of_announceFailed (point ▸ ran.present) earlier
    · exact settled.left_of_setModelFailed ran once point
  · -- another call has returned before
    have earlier : creator id pool.trace = some other := by
      rcases ran.creator_after id with same | ⟨_, _, _, _, _, mine⟩
      · exact same ▸ made
      · cases mine.symm.trans made
        exact absurd rfl different
    have foreign : creator id pool.trace ≠ some index := by
      rw [earlier]
      exact fun same => different (Option.some.inj same)
    refine (settled.final other task id there failed earlier).turned settled ran once ?_ ?_
    · exact fun enters => foreign (settled.enters_own ran enters).1
    · exact fun inserts =>
        foreign (settled.entered.creators index ran.task id ran.present
          (Task.entered_of_insertResponder inserts).1)
  · obtain ⟨_, rfl⟩ := Task.spawned_upload (List.mem_of_getElem? new)
    cases failed

theorem Settled.turned (settled : Settled pool) (ran : Ran pool index choice)
    (admitted : failsFinally pool (.run index choice) = true) : Settled ran.after := by
  have once : createdOnce pool (.run index choice) = true := (Bool.and_eq_true_iff.mp admitted).1
  exact ⟨settled.entered.turned ran once, settled.registered.turned ran,
    fun _ _ made => settled.after_begun ran made,
    fun _ _ found => settled.after_states ran once found, fun _ _ found =>
    settled.after_transfers ran once found,
    fun _ _ _ _ found listed => settled.after_status ran found listed, settled.after_final ran admitted⟩

/-- In a run whose calls fail finally, no call that returns Err leaves a record behind that
waits for anything. -/
theorem failures_final (run : Execution step (fun pool label => failsFinally pool label = true)
    (.new deviceId deviceName) labels pool) : FailuresFinal pool := by
  refine (run.invariant Settled ?_ (settled_new deviceId deviceName)).final
  intro _ _ _ settled admitted taken
  rcases step_cases taken with ⟨call, rfl, rfl⟩ | ⟨_, _, rfl, ran, rfl⟩
  · exact settled.called call
  · exact settled.turned ran admitted

/-- The peer answers the handshake, and the connection breaks while the file is uploaded. -/
def brokenRun : List Label :=
  ([.call (.startTransfer sent)] : List Label) ++
    turns 0 (List.replicate 6 Choice.proceed ++ [Choice.capabilities "{}"] ++
      List.replicate 7 Choice.proceed ++
      [Choice.failure "reset"] ++ List.replicate 5 Choice.proceed)

theorem failures_final_broken : ∃ pool,
    Execution step (fun pool label => failsFinally pool label = true)
      (.new "a" "laptop") brokenRun pool ∧
      (pool.tasks[0]?.bind Task.failed = some "t" ∧ recorded "t" pool.trace = some .failed) ∧
      FailuresFinal pool := by
  obtain ⟨pool, run, good⟩ := exists_execution
    (fun pool => pool.tasks[0]?.bind Task.failed = some "t" ∧ recorded "t" pool.trace = some .failed)
    (show (replayWhere step failsFinally (.new "a" "laptop") brokenRun).any _ = true from rfl)
  exact ⟨pool, run, of_decide_eq_true good, failures_final run⟩

/-- The peer refuses the handshake: the call returns Err, and the transfer is running ever after. -/
def refusedRun : List Label :=
  ([.call (.startTransfer sent)] : List Label) ++ turns 0
  (List.replicate 6 Choice.proceed ++ [Choice.failure "connection refused"])

theorem refused_left_running : ∃ pool, Execution step anything (.new "a" "laptop") refusedRun pool ∧
    pool.tasks[0]?.bind Task.failed = some "t" ∧ pool.shared.states.lookup "t" = some .running ∧
      recorded "t" pool.trace = some .handshaking ∧ ¬ FailuresFinal pool := by
  obtain ⟨pool, played, good⟩ := (Option.any_eq_true _ _).mp
    (show (replay step (.new "a" "laptop") refusedRun).any (fun pool =>
      pool.tasks[0]?.bind Task.failed = some "t" ∧ pool.shared.states.lookup "t" = some .running ∧
        recorded "t" pool.trace = some .handshaking ∧ creator "t" pool.trace = some 0) = true from rfl)
  obtain ⟨failed, running, known, made⟩ := of_decide_eq_true good
  refine ⟨pool, execution_iff_replay.mpr played, failed, running, known, fun final => ?_⟩
  obtain ⟨task, present, here⟩ := Option.bind_eq_some_iff.mp failed
  obtain ⟨_, ended, terminal⟩ := (final 0 task "t" present here made).ended
  rw [known] at ended
  cases ended
  cases terminal

end DistributedOs.Coordinator
