import DistributedOs.Coordinator.TransferEngine
import DistributedOs.Coordinator.Cancellation

/-! What `status` and `cancel` reach by the id that `start_transfer` announces and returns. The
token of the run is registered under that id; `StreamEngine` keeps the run under another. -/

namespace DistributedOs.Coordinator

open Semantics DistributedOs.Session DistributedOs.Transfer

def Effect.starts (id : String) : Effect → Bool
  | .emittedTransfer _ (.started transferId ..) => transferId = id
  | _ => false

namespace Task

def name : Task → Option String
  | .startSession point => point.carrier.map Carrier.sessionId
  | task => task.tokenId

def transfers (id : String) : Task → Bool
  | .startTransfer point => point.tokenId = id
  | _ => false

/-- `start_transfer` has returned this id. -/
def hands (id : String) : Task → Bool
  | .startTransfer (.returned _ (.ok returned)) => returned = id
  | _ => false

end Task

def Call.name : Call → Option String
  | .startSession sessionId .. => some sessionId
  | .startTransfer transfer => some transfer.sessionId
  | _ => none

namespace EngineState

/-- A Started event, or the result of `start_transfer`, has made the id known. -/
def knows (state : EngineState) (id : String) : Bool :=
  state.pool.trace.any (Effect.starts id) || state.pool.tasks.any (Task.hands id)

def runsOf (state : EngineState) (id : String) : List String :=
  state.executed.filterMap fun (index, uuid) =>
    if state.pool.tasks[index]?.any (Task.transfers id) then some uuid else none

/-- `cancel` of the id cancels the token of this task, and no other. -/
def Cancels (state : EngineState) (id : String) (index : Nat) : Prop :=
  ∀ self reason, ∃ after next, state.turn self (.cancelToken id reason) = some (after, next) ∧
    after.pool.shared.tokens = Function.update state.pool.shared.tokens index (some reason)

end EngineState

/-- `status` and `cancel` act on the transfer whose id they are given. -/
structure Addressed (state : EngineState) : Prop where
  status : ∀ id, state.knows id = true → ∀ uuid ∈ state.runsOf id, ∃ handle,
    state.active.lookup uuid = some handle ∧ state.lookupStatus id = .ok (.progress handle.progress)
  others : ∀ id, state.knows id = true → state.runsOf id = [] →
    ∃ error, state.lookupStatus id = .error error
  cancel : ∀ id, state.knows id = true → ∃ index,
    state.pool.tasks[index]?.any (Task.transfers id) = true ∧ state.Cancels id index
  spares : ∀ id, state.knows id = true → ∀ uuid ∉ state.runsOf id,
    (state.active.erase id).lookup uuid = state.active.lookup uuid

namespace EngineState

def uses (state : EngineState) (name : String) : Bool :=
  state.pool.tasks.any (fun task => task.name = some name) || (state.active.lookup name).isSome ||
    state.executed.any fun (_, uuid) => uuid = name

/-- The ids that are drawn at random are new. -/
def fresh (state : EngineState) : EngineLabel → Bool
  | .pool (.call call) => call.name.all fun name => !state.uses name
  | .begin _ uuid _ _ => !state.uses uuid
  | _ => true

end EngineState

/-- The procedures that register tokens, by the ids they drew: one `start_transfer` for each. -/
structure Named (pool : TransferCoordinator) : Prop where
  alone : ∀ (index other : Nat) (point : StartTransfer) (task : Task),
    pool.tasks[index]? = some (.startTransfer point) →
    pool.tasks[other]? = some task → task.name = some point.tokenId → index = other
  tokened : ∀ (index : Nat) (point : StartTransfer), pool.tasks[index]? = some (.startTransfer point) →
    (∀ transfer, point ≠ .insertToken transfer) →
    pool.shared.cancelTokens.lookup point.tokenId = some index
  announced : ∀ id, pool.trace.any (Effect.starts id) = true → ∃ (index : Nat) (point : StartTransfer),
    pool.tasks[index]? = some (.startTransfer point) ∧ point.tokenId = id ∧
    ∀ transfer, point ≠ .insertToken transfer
  returned : ∀ (index : Nat) (sessionId given : String),
    pool.tasks[index]? = some (.startTransfer (.returned sessionId (.ok given))) → given = sessionId

/-- No run of the engine is kept under an id that a procedure drew. -/
structure Keyed (state : EngineState) : Prop where
  named : Named state.pool
  apart : ∀ uuid, (state.active.lookup uuid).isSome = true → ∀ task ∈ state.pool.tasks,
    task.name ≠ some uuid

theorem named_new (deviceId deviceName : String) : Named (.new deviceId deviceName) where
  alone := by simp [TransferCoordinator.new]
  tokened := by simp [TransferCoordinator.new]
  announced := by simp [TransferCoordinator.new]
  returned := by simp [TransferCoordinator.new]

theorem keyed_new (deviceId deviceName : String) : Keyed (.new deviceId deviceName) where
  named := named_new deviceId deviceName
  apart := by simp [EngineState.new]

variable {reply : Reply} {choice : Choice} {task moved : Task} {id uuid : String}
variable {pool : TransferCoordinator} {state : EngineState} {index other : Nat}

theorem Call.name_start (call : Call) : call.start.name = call.name := by
  cases call <;> rfl

theorem Task.name_resume (resumed : task.resume reply choice = some moved)
    (named : moved.name = some id) :
    task.name = some id := by
  cases task with
  | startSession =>
    obtain ⟨next, ran, rfl⟩ := Option.map_eq_some_iff.mp resumed
    obtain ⟨_, carries, rfl⟩ := Option.map_eq_some_iff.mp named
    obtain ⟨before, carried, same, _⟩ := StartSession.carrier_resume ran carries
    exact Option.map_eq_some_iff.mpr ⟨before, carried, same⟩
  | uploadFiles point | startTransfer point =>
    have same := Task.tokenId_resume resumed
    obtain ⟨next, _, rfl⟩ := Option.map_eq_some_iff.mp resumed
    exact same.symm.trans named
  | _ =>
    obtain ⟨_, _, rfl⟩ := Option.map_eq_some_iff.mp resumed
    cases named

theorem Task.name_spawned {new : Task} (member : new ∈ task.spawned) :
    new.name = task.name ∧ ∀ point, task ≠ .startTransfer point := by
  unfold spawned at member
  split at member
  · cases List.mem_singleton.mp member
    exact ⟨rfl, fun _ same => by cases same⟩
  · cases member

theorem Task.starts_of_emits (emits : task.access choice = .emitEvent (.started id file total)) :
    ∃ transfer, task = .startTransfer (.announceStarted transfer) ∧ transfer.sessionId = id := by
  obtain ⟨point, rfl⟩ := startTransfer_of_access (by rw [emits]; rfl)
    (by rw [emits]; exact fun _ same => by cases same)
    (by rw [emits]; exact fun _ same => by cases same)
  cases point with
  | engine _ run => cases run <;> cases emits
  | announceStarted transfer =>
    cases emits
    exact ⟨transfer, rfl, rfl⟩
  | announceError transfer error =>
    have event : StartTransfer.errorEvent transfer error = .started id file total :=
      Access.emitEvent.inj emits
    unfold StartTransfer.errorEvent at event
    split at event <;> cases event
  | _ => cases emits

theorem Task.name_of_tokens
    (touches : task.access choice = .insertToken id ∨ task.access choice = .removeToken id) :
    task.name = some id ∧ ∀ point, task = .startTransfer point →
      ∃ transfer, point = .insertToken transfer := by
  have accesses : (task.access choice).ofTransfer = true := by
    rcases touches with same | same <;> rw [same] <;> rfl
  rcases Task.of_transfer_access accesses with ⟨point, rfl⟩ | ⟨point, rfl⟩
  · refine ⟨?_, fun _ same => by cases same⟩
    have own : point.access choice = .insertToken point.tokenId ∨
        point.access choice = .removeToken point.tokenId :=
      UploadFiles.of_transfer_access accesses
    have token : point.tokenId = id := by
      rcases touches with first | first <;> rcases own with second | second <;>
        cases first.symm.trans second <;> rfl
    exact congrArg some token
  · cases point with
    | insertToken transfer =>
      rcases touches with same | same <;> cases same
      exact ⟨rfl, fun _ same => by cases same; exact ⟨transfer, rfl⟩⟩
    | engine transfer run => cases run <;> rcases touches with same | same <;> cases same
    | _ => rcases touches with same | same <;> cases same

theorem StartTransfer.resume_ne_insertToken {point next : StartTransfer}
    (resumed : point.resume reply choice = some next) (transfer : Transfer) :
    next ≠ .insertToken transfer := by
  rintro rfl
  cases moves_of_resume resumed

theorem StartTransfer.returned_resume {point : StartTransfer}
    (resumed : point.resume reply choice = some (.returned sessionId (.ok given))) :
    given = sessionId := by
  cases moves_of_resume resumed
  rfl

theorem Ran.startTransfer_before (ran : Ran pool index choice)
    (found : ran.after.tasks[other]? = some (.startTransfer point)) :
    (other = index ∧ ∃ before, ran.task = .startTransfer before ∧
      before.resume ran.reply choice = some point) ∨
      (other ≠ index ∧ pool.tasks[other]? = some (.startTransfer point)) := by
  rcases Pool.getElem?_turned found with ⟨rfl, moved⟩ | ⟨different, there⟩ | ⟨_, new⟩
  · exact .inl ⟨rfl, Task.startTransfer_resume ran.resumed moved.symm⟩
  · exact .inr ⟨different, there⟩
  · obtain ⟨_, same⟩ := Task.spawned_upload (List.mem_of_getElem? new)
    cases same

theorem Ran.tokenId_before (ran : Ran pool index choice)
    (found : ran.after.tasks[other]? = some (.startTransfer point)) :
    ∃ before, pool.tasks[other]? = some (.startTransfer before) ∧
      before.tokenId = point.tokenId := by
  rcases ran.startTransfer_before found with ⟨rfl, before, same, resumed⟩ | ⟨_, there⟩
  · exact ⟨before, same ▸ ran.present, (StartTransfer.tokenId_resume resumed).symm⟩
  · exact ⟨point, there, rfl⟩

theorem Ran.name_before (ran : Ran pool index choice) (found : ran.after.tasks[other]? = some task)
    (named : task.name = some id) : (∃ old, pool.tasks[other]? = some old ∧ old.name = some id) ∨
      (ran.task.name = some id ∧ ∀ point, ran.task ≠ .startTransfer point) := by
  rcases Pool.getElem?_turned found with ⟨rfl, rfl⟩ | ⟨_, there⟩ | ⟨_, new⟩
  · exact .inl ⟨ran.task, ran.present, Task.name_resume ran.resumed named⟩
  · exact .inl ⟨task, there, named⟩
  · obtain ⟨same, other⟩ := Task.name_spawned (List.mem_of_getElem? new)
    exact .inr ⟨same.symm.trans named, other⟩

theorem Named.after_tokened (named : Named pool) (ran : Ran pool index choice)
    (found : ran.after.tasks[other]? = some (.startTransfer point))
    (past : ∀ transfer, point ≠ .insertToken transfer) :
    ran.shared.cancelTokens.lookup point.tokenId = some other := by
  -- nobody else touches the token of the transfer
  have stays {before : StartTransfer} (there : pool.tasks[other]? = some (.startTransfer before))
      (same : before.tokenId = point.tokenId) (done : ∀ transfer, before ≠ .insertToken transfer) :
      ran.shared.cancelTokens.lookup point.tokenId = some other := by
    have untouched : ¬ (ran.task.access choice = .insertToken point.tokenId ∨
        ran.task.access choice = .removeToken point.tokenId) := by
      intro touches
      obtain ⟨name, inserts⟩ := Task.name_of_tokens touches
      obtain rfl := named.alone other index before ran.task there ran.present (same ▸ name)
      obtain ⟨transfer, first⟩ := inserts before (Option.some.inj (ran.present.symm.trans there))
      exact done transfer first
    rw [(perform_keeps ran.performed _).cancelTokens (fun writes => untouched (.inl writes))
      fun writes => untouched (.inr writes)]
    exact same ▸ named.tokened other before there done
  rcases ran.startTransfer_before found with ⟨rfl, before, same, resumed⟩ | ⟨_, there⟩
  · by_cases first : ∃ transfer, before = .insertToken transfer
    · obtain ⟨transfer, rfl⟩ := first
      have access : ran.task.access choice = .insertToken point.tokenId := by
        rw [same, StartTransfer.tokenId_resume resumed]
        rfl
      exact perform_insertToken (access ▸ ran.performed)
    · exact stays (same ▸ ran.present)
        (StartTransfer.tokenId_resume resumed).symm fun transfer same => first ⟨transfer, same⟩
  · exact stays there rfl past

theorem Named.turned (named : Named pool) (ran : Ran pool index choice) : Named ran.after := by
  refine ⟨?_, fun _ _ found past => named.after_tokened ran found past, ?_, ?_⟩
  · intro one two point _ found also name
    obtain ⟨before, there, same⟩ := ran.tokenId_before found
    rcases ran.name_before also name with ⟨old, here, own⟩ | ⟨own, not⟩
    · exact named.alone one two before old there here (same ▸ own)
    · obtain rfl := named.alone one index before ran.task there ran.present (same ▸ own)
      exact absurd (Option.some.inj (ran.present.symm.trans there)) (not before)
  · intro id started
    obtain ⟨effect, member, starts⟩ := List.any_eq_true.mp started
    -- the transfer is still there, at a later point
    have later {holder : Nat} {before : StartTransfer}
      (there : pool.tasks[holder]? = some (.startTransfer before))
        (past : ∀ transfer, before ≠ .insertToken transfer) : ∃ (index : Nat) (point : StartTransfer),
          ran.after.tasks[index]? = some (.startTransfer point) ∧ point.tokenId = before.tokenId ∧
            ∀ transfer, point ≠ .insertToken transfer := by
      rcases ran.stays there with ⟨rfl, same, moved⟩ | ⟨_, kept⟩
      · obtain ⟨next, resumed, started⟩ := Option.map_eq_some_iff.mp (same ▸ ran.resumed)
        exact ⟨holder, next, started ▸ moved, StartTransfer.tokenId_resume resumed,
          StartTransfer.resume_ne_insertToken resumed⟩
      · exact ⟨holder, before, kept, rfl, past⟩
    rcases ran.mem_trace member with ⟨rfl, _⟩ | own | earlier
    · cases starts
    · cases effect with
      | emittedTransfer _ event =>
        cases event with
        | started transferId =>
          obtain rfl : transferId = id := of_decide_eq_true starts
          obtain ⟨_, same, rfl⟩ := Task.starts_of_emits own.2
          exact later (same ▸ ran.present) fun _ same => by cases same
        | _ => cases starts
      | _ => cases starts
    · obtain ⟨_, before, there, rfl, past⟩ := named.announced id
        (List.any_eq_true.mpr ⟨effect, earlier, starts⟩)
      exact later there past
  · intro other sessionId given found
    rcases ran.startTransfer_before found with ⟨_, _, _, resumed⟩ | ⟨_, there⟩
    · exact StartTransfer.returned_resume resumed
    · exact named.returned other sessionId given there

theorem Named.called (named : Named pool) (call : Call)
    (fresh : ∀ name, call.name = some name → ∀ task ∈ pool.tasks, task.name ≠ some name) :
    Named { pool with tasks := pool.tasks ++ [call.start] } := by
  have new {point : StartTransfer} (same : Task.startTransfer point = call.start) :
      ∃ transfer, point = .insertToken transfer ∧ call.name = some point.tokenId := by
    cases call <;> cases same
    exact ⟨_, rfl, rfl⟩
  refine ⟨?_, ?_, ?_, ?_⟩
  · intro one two point task found also name
    rcases Pool.getElem?_called found with there | ⟨rfl, same⟩ <;>
      rcases Pool.getElem?_called also with here | ⟨rfl, rfl⟩
    · exact named.alone one two point task there here name
    · rw [Call.name_start] at name
      exact absurd rfl (fresh _ name _ (List.mem_of_getElem? there))
    · obtain ⟨transfer, _, own⟩ := new same
      exact absurd name (fresh _ own task (List.mem_of_getElem? here))
    · rfl
  · intro one point found past
    rcases Pool.getElem?_called found with there | ⟨_, same⟩
    · exact named.tokened one point there past
    · obtain ⟨transfer, first, _⟩ := new same
      exact absurd first (past transfer)
  · intro id started
    obtain ⟨holder, point, there, rest⟩ := named.announced id started
    exact ⟨holder, point, kept_by_call there, rest⟩
  · intro one sessionId given found
    rcases Pool.getElem?_called found with there | ⟨_, same⟩
    · exact named.returned one sessionId given there
    · obtain ⟨_, first, _⟩ := new same
      cases first

theorem Named.written (named : Named pool) {access : Access}
    (performed : pool.shared.perform self access = some (reply, shared, effects))
    (inserts : ∀ id, access ≠ .insertToken id) (removes : ∀ id, access ≠ .removeToken id) :
    Named { pool with shared } := by
  refine ⟨named.alone, fun one point found past => ?_, named.announced, named.returned⟩
  exact ((perform_keeps performed _).cancelTokens (inserts _) (removes _)).trans
    (named.tokened one point found past)

theorem EngineState.modifyCurrent_kept
    (found : ((state.modifyCurrent change).lookup uuid).isSome = true) :
    (state.active.lookup uuid).isSome = true := by
  unfold modifyCurrent at found
  split at found
  · exact found
  · rename_i current _
    split at found
    · exact found
    · rename_i present
      by_cases same : uuid = current
      · rw [same, present]
        rfl
      · rwa [AList.lookup_insert_ne same] at found

theorem EngineState.finished_kept (found : ((state.finished label).lookup uuid).isSome = true) :
    (state.active.lookup uuid).isSome = true := by
  unfold finished at found
  split at found
  · split at found
    · exact modifyCurrent_kept found
    · exact found
  · split at found
    · exact modifyCurrent_kept found
    · exact found
  · exact found

/-- A turn of a method leaves the tasks and their tokens, and adds no run. -/
theorem EngineState.turn_frame (named : Named state.pool)
    (took : state.turn index method = some (turned, next)) : Named turned.pool ∧
      turned.pool.tasks = state.pool.tasks ∧
      ∀ uuid, (turned.active.lookup uuid).isSome = true →
      (state.active.lookup uuid).isSome = true := by
  have wrote {access : Access} {written : EngineState} (writes : state.write index access = some written)
      (inserts : ∀ id, access ≠ .insertToken id) (removes : ∀ id, access ≠ .removeToken id) :
      Named written.pool ∧ written.pool.tasks = state.pool.tasks ∧
        ∀ uuid, (written.active.lookup uuid).isSome = true →
        (state.active.lookup uuid).isSome = true := by
    obtain ⟨_, _, _, performed, rfl⟩ := EngineState.write_spec writes
    exact ⟨named.written performed inserts removes, rfl, fun _ found => found⟩
  cases method with
  | pauseStates =>
    simp only [turn] at took
    split at took
    · cases took
    · split at took
      · obtain ⟨written, writes, ended⟩ := Option.map_eq_some_iff.mp took
        cases ended
        exact (wrote writes (by simp) (by simp) :)
      · cases took
        exact ⟨named, rfl, fun _ found => found⟩
  | resumeStates =>
    simp only [turn] at took
    split at took
    · cases took
    · split at took
      · obtain ⟨written, writes, ended⟩ := Option.map_eq_some_iff.mp took
        cases ended
        exact (wrote writes (by simp) (by simp) :)
      · obtain ⟨written, writes, ended⟩ := Option.map_eq_some_iff.mp took
        cases ended
        exact (wrote writes (by simp) (by simp) :)
      · cases took
        exact ⟨named, rfl, fun _ found => found⟩
  | pauseModel | resumeModel | cancelToken | cancelModel =>
    simp only [turn] at took
    obtain ⟨written, writes, ended⟩ := Option.map_eq_some_iff.mp took
    cases ended
    exact (wrote writes (by simp) (by simp) :)
  | cancelStates =>
    simp only [turn] at took
    split at took
    · cases took
    · obtain ⟨_, writes, ended⟩ := Option.map_eq_some_iff.mp took
      cases ended
      exact (wrote writes (by simp) (by simp) :)
  | cancelEngine id =>
    simp only [turn] at took
    split at took
    · cases took
    · cases took
      refine ⟨named, rfl, fun uuid found => ?_⟩
      by_cases same : uuid = id
      · rw [same, AList.lookup_erase] at found
        cases found
      · rwa [AList.lookup_erase_ne same] at found
  | cancelEvent =>
    cases took
    exact ⟨named, rfl, fun _ found => found⟩
  | status =>
    simp only [turn] at took
    split at took
    · cases took
    · cases took
      exact ⟨named, rfl, fun _ found => found⟩
  | returned => cases took

theorem EngineState.unused {name : String} (new : state.uses name = false) :
    (∀ task ∈ state.pool.tasks, task.name ≠ some name) ∧
      (state.active.lookup name).isSome = false := by
  simp only [uses, Bool.or_eq_false_iff] at new
  obtain ⟨⟨tasks, keys⟩, _⟩ := new
  refine ⟨fun task member named => ?_, keys⟩
  exact List.any_eq_false.mp tasks task member (decide_eq_true named)

theorem Ran.unnamed_after (ran : Ran pool index choice)
    (unnamed : ∀ task ∈ pool.tasks, task.name ≠ some uuid) :
    ∀ task ∈ ran.after.tasks, task.name ≠ some uuid := by
  intro _ member named
  obtain ⟨_, found⟩ := List.mem_iff_getElem?.mp member
  rcases ran.name_before found named with ⟨old, there, same⟩ | ⟨same, _⟩
  · exact unnamed old (List.mem_of_getElem? there) same
  · exact unnamed ran.task (List.mem_of_getElem? ran.present) same

theorem Keyed.step (keyed : Keyed state)
    (admitted : state.fresh label = true) (taken : state.step label = some after) :
    Keyed after := by
  rcases EngineState.step_cases taken with ⟨call, rfl, rfl⟩ | ⟨index, _, _, _, rfl, _, took, rfl⟩ |
    ⟨inner, pool, rfl, _, stepped, rfl⟩ |
    ⟨index, drawn, total, filesTotal, sessionId, fileId, resumeOffset, pool, rfl, begins, stepped,
      rfl⟩ | ⟨bytesSent, rfl, rfl⟩
  · exact ⟨keyed.named, keyed.apart⟩
  · obtain ⟨named, same, kept⟩ := EngineState.turn_frame keyed.named took
    refine ⟨named, fun uuid found task member => keyed.apart uuid (kept uuid found) task ?_⟩
    exact (congrArg (task ∈ ·) same).mp member
  · rcases Coordinator.step_cases stepped with ⟨call, rfl, rfl⟩ | ⟨_, _, rfl, ran, rfl⟩
    · have new {name : String} (drawn : call.name = some name) :
        (∀ task ∈ state.pool.tasks, task.name ≠ some name) ∧
          (state.active.lookup name).isSome = false :=
        EngineState.unused (by simpa [EngineState.fresh, drawn] using admitted)
      refine ⟨keyed.named.called call fun name drawn => (new drawn).1, fun uuid found task member => ?_⟩
      rcases List.mem_append.mp member with there | started
      · exact keyed.apart uuid found task there
      · rw [List.mem_singleton.mp started, Call.name_start]
        intro drawn
        cases found.symm.trans (new drawn).2
    · refine ⟨keyed.named.turned ran, fun uuid found => ran.unnamed_after (keyed.apart uuid ?_)⟩
      exact EngineState.finished_kept found
  · rcases Coordinator.step_cases stepped with ⟨_, same, _⟩ | ⟨_, _, same, ran, rfl⟩
    · cases same
    · refine ⟨keyed.named.turned ran, fun uuid found => ran.unnamed_after ?_⟩
      by_cases same : uuid = drawn
      · subst same
        exact (EngineState.unused (by simpa [EngineState.fresh] using admitted)).1
      · exact keyed.apart uuid (by rwa [AList.lookup_insert_ne same] at found)
  · exact ⟨keyed.named, fun uuid found => keyed.apart uuid (EngineState.modifyCurrent_kept found)⟩

theorem Named.known (named : Named state.pool) (knows : state.knows id = true) :
    ∃ (index : Nat) (point : StartTransfer),
      state.pool.tasks[index]? = some (.startTransfer point) ∧
      point.tokenId = id ∧ state.pool.shared.cancelTokens.lookup id = some index := by
  rcases Bool.or_eq_true_iff.mp knows with started | handed
  · obtain ⟨index, point, present, rfl, past⟩ := named.announced id started
    exact ⟨index, point, present, rfl, named.tokened index point present past⟩
  · obtain ⟨_, member, hands⟩ := List.any_eq_true.mp handed
    obtain ⟨index, present⟩ := List.mem_iff_getElem?.mp member
    unfold Task.hands at hands
    split at hands
    · rename_i sessionId returned
      obtain rfl : returned = id := of_decide_eq_true hands
      obtain rfl := named.returned index sessionId returned present
      exact ⟨index, _, present, rfl, named.tokened index _ present fun _ same => by cases same⟩
    · cases hands

theorem Keyed.unkept (keyed : Keyed state) (knows : state.knows id = true) :
    state.active.lookup id = none := by
  obtain ⟨_, _, present, own, _⟩ := keyed.named.known knows
  refine Option.not_isSome_iff_eq_none.mp fun found => ?_
  exact keyed.apart id found _ (List.mem_of_getElem? present) (congrArg some own)

theorem EngineState.cancels_of_registered
    (found : state.pool.shared.cancelTokens.lookup id = some index) :
    state.Cancels id index := by
  intro _ _
  refine ⟨_, _, rfl, ?_⟩
  simp only [found]

variable {deviceId deviceName : String} {labels : List EngineLabel}

/-- `status` and `cancel` reach the transfer they are given exactly as long as the engine has
begun no run of any: from then on `status` does not find it. -/
theorem addressed_iff (run : Execution EngineState.step
      (fun state label => state.fresh label = true)
    (.new deviceId deviceName) labels state) :
    Addressed state ↔ ∀ id, state.knows id = true → state.runsOf id = [] := by
  have keyed : Keyed state :=
    run.invariant Keyed (fun _ _ _ keyed admitted taken => keyed.step admitted taken)
      (keyed_new deviceId deviceName)
  have missing {id : String} (knows : state.knows id = true) :
      state.lookupStatus id = .error (.fromAnyhow ("Transfer not found: " ++ id)) := by
    unfold EngineState.lookupStatus
    rw [keyed.unkept knows]
  constructor
  · intro addressed id knows
    refine List.eq_nil_iff_forall_not_mem.mpr fun uuid ran => ?_
    obtain ⟨_, _, found⟩ := addressed.status id knows uuid ran
    cases (missing knows).symm.trans found
  · intro idle
    refine ⟨fun id knows uuid ran => ?_, fun id knows _ => ⟨_, missing knows⟩, fun id knows =>
      ?_, fun id knows uuid _ => ?_⟩
    · rw [idle id knows] at ran
      cases ran
    · obtain ⟨index, _, present, own, found⟩ := keyed.named.known knows
      refine ⟨index, ?_, EngineState.cancels_of_registered found⟩
      rw [present]
      exact decide_eq_true own
    · by_cases same : uuid = id
      · rw [same, AList.lookup_erase, keyed.unkept knows]
      · exact AList.lookup_erase_ne same

/-- `start_transfer` has announced the transfer, and waits for the handshake. -/
def announcedRun : List EngineLabel :=
  [.pool (.call (.startTransfer sent))] ++ (turns 0 (List.replicate 6 .proceed)).map .pool

theorem addressed_iff_announced :
    ∃ state, Execution EngineState.step (fun state label => state.fresh label = true)
      (.new "a" "laptop") announcedRun state ∧ state.knows "t" = true ∧ Addressed state := by
  obtain ⟨state, run, good⟩ := exists_execution
    (fun state => state.knows "t" = true ∧ state.executed = [])
    (show (replayWhere EngineState.step EngineState.fresh (.new "a" "laptop")
      announcedRun).any _ = true from rfl)
  obtain ⟨knows, idle⟩ := of_decide_eq_true good
  refine ⟨state, run, knows, (addressed_iff run).mpr fun id _ => ?_⟩
  simp [EngineState.runsOf, idle]

/-- The engine runs the transfer under the id "u", and `status` does not find it under "t". -/
theorem running_not_found :
    ∃ state, Execution EngineState.step (fun state label => state.fresh label = true)
      (.new "a" "laptop") (sending "u") state ∧ state.knows "t" = true ∧ state.runsOf "t" = ["u"] ∧
        (state.active.lookup "u").isSome = true ∧ (state.lookupStatus "t" matches .error _) = true ∧
        ¬ Addressed state := by
  obtain ⟨state, run, good⟩ := exists_execution
    (fun state => state.knows "t" = true ∧ state.runsOf "t" = ["u"] ∧
      (state.active.lookup "u").isSome = true ∧
      (state.lookupStatus "t" matches .error _) = true)
    (show (replayWhere EngineState.step EngineState.fresh (.new "a" "laptop")
      (sending "u")).any _ = true from rfl)
  obtain ⟨knows, runs, kept, missing⟩ := of_decide_eq_true good
  refine ⟨state, run, knows, runs, kept, missing, fun addressed => ?_⟩
  obtain ⟨_, _, found⟩ := addressed.status "t" knows "u" (by simp [runs])
  rw [found] at missing
  cases missing

end DistributedOs.Coordinator
