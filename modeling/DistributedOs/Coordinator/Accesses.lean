import DistributedOs.Coordinator.System
import DistributedOs.Coordinator.Moves

/-! Which program point makes which access, and what a task keeps for good: the id its
token is registered under, the id its responder is registered under. -/

namespace DistributedOs.Coordinator

open Semantics DistributedOs.Session

def UploadFiles.tokenId : UploadFiles → String
  | .register upload => upload.sessionId
  | .engine upload _ _ _ => upload.sessionId
  | .recordFile upload _ _ _ => upload.sessionId
  | .decide upload => upload.sessionId
  | .complete upload => upload.sessionId
  | .announceCompleted upload => upload.sessionId
  | .describe upload => upload.sessionId
  | .classify upload _ => upload.sessionId
  | .fail upload _ _ => upload.sessionId
  | .announceFailed upload _ => upload.sessionId
  | .unregister upload => upload.sessionId
  | .returned upload => upload.sessionId

def StartTransfer.tokenId : StartTransfer → String
  | .insertToken transfer => transfer.sessionId
  | .openChannel transfer => transfer.sessionId
  | .create transfer => transfer.sessionId
  | .insertStatus transfer => transfer.sessionId
  | .insertModel transfer => transfer.sessionId
  | .announceStarted transfer => transfer.sessionId
  | .handshake transfer => transfer.sessionId
  | .setRemoteCaps transfer _ => transfer.sessionId
  | .negotiate transfer => transfer.sessionId
  | .activate transfer => transfer.sessionId
  | .engine transfer _ => transfer.sessionId
  | .report transfer _ => transfer.sessionId
  | .updateProgress transfer _ => transfer.sessionId
  | .complete transfer _ => transfer.sessionId
  | .setCompleted transfer _ => transfer.sessionId
  | .setModelCompleted transfer _ => transfer.sessionId
  | .announceCompleted transfer _ => transfer.sessionId
  | .announceError transfer _ => transfer.sessionId
  | .recordError transfer _ => transfer.sessionId
  | .setFailed transfer _ => transfer.sessionId
  | .setModelFailed transfer _ => transfer.sessionId
  | .returned sessionId _ => sessionId

def Task.tokenId : Task → Option String
  | .uploadFiles point => some point.tokenId
  | .startTransfer point => some point.tokenId
  | _ => none

/-- The id under which a connection has put its responder into the map. -/
def IncomingSession.registered : IncomingSession → Option String
  | .openChannel request => some request.sessionId
  | .announceRequested request => some request.sessionId
  | .wait request => some request.sessionId
  | .write request _ => some request.sessionId
  | .record request _ => some request.sessionId
  | .announce request _ => some request.sessionId
  | .cleanup request => some request.sessionId
  | .returned sessionId _ => sessionId
  | _ => none

def Task.registered : Task → Option String
  | .incomingSession point => point.registered
  | _ => none

/-- The responder a call has taken out of the map and not used yet. -/
def RespondSession.taken : RespondSession → Option (String × Nat)
  | .identify response connection => some (response.sessionId, connection)
  | .send response connection _ => some (response.sessionId, connection)
  | _ => none

def Task.taken : Task → Option (String × Nat)
  | .respondSession point => point.taken
  | _ => none

/-- The access is one this program point makes. -/
def Access.MadeBy (task : Task) : Access → Prop
  | .insertResponder id =>
    ∃ request, task = .incomingSession (.register request) ∧ id = request.sessionId
  | .removeResponder id => ∃ request, task = .incomingSession (.cleanup request) ∧ id = request.sessionId
  | .takeResponder id => ∃ response, task = .respondSession (.lock response) ∧ id = response.sessionId
  | .send connection decision => ∃ response, task = .respondSession (.send response connection decision)
  | .receive => ∃ request, task = .incomingSession (.wait request)
  | .expire => ∃ request, task = .incomingSession (.wait request)
  | .insertToken id => task.tokenId = some id
  | .cancelToken id reason => task = .cancelSession (.cancel id reason)
  | .readToken => ∃ id, task.tokenId = some id
  | .write message =>
    (∃ offer deviceId deviceName, task = .startSession (.write offer deviceId deviceName) ∧
        message = .request (StartSession.request offer deviceId deviceName)) ∨
      ∃ request decision, task = .incomingSession (.write request decision) ∧
        message = IncomingSession.answer request.sessionId decision
  | _ => True

variable {reply : Reply} {choice : Choice} {task moved : Task} {id : String}

theorem EngineRun.madeBy (run : EngineRun) (owns : task.tokenId = some id)
    (sessionId fileId : String) (resumeOffset : Option UInt64) :
    (run.access (.beginUpload sessionId fileId resumeOffset)).MadeBy task := by
  cases run <;> first | exact trivial | exact ⟨id, owns⟩

theorem Task.madeBy (task : Task) (choice : Choice) : (task.access choice).MadeBy task := by
  cases task with
  | startSession point =>
    cases point with
    | write offer deviceId deviceName =>
      cases choice with
      | proceed => exact .inl ⟨offer, deviceId, deviceName, rfl, rfl⟩
      | _ => exact trivial
    | _ => exact trivial
  | uploadFiles point =>
    cases point with
    | engine _ _ _ run => exact run.madeBy rfl _ _ _
    | recordFile _ _ _ reported => cases reported <;> cases choice <;> exact trivial
    | register => rfl
    | decide upload | describe upload => exact ⟨upload.sessionId, rfl⟩
    | classify upload => exact ⟨upload.sessionId, rfl⟩
    | _ => exact trivial
  | incomingSession point =>
    cases point with
    | register request | cleanup request => exact ⟨request, rfl, rfl⟩
    | wait request =>
      cases choice with
      | proceed | timeout => exact ⟨request, rfl⟩
      | _ => exact trivial
    | write request decision =>
      cases choice with
      | proceed => exact .inr ⟨request, decision, rfl, rfl⟩
      | _ => exact trivial
    | _ => exact trivial
  | respondSession point =>
    cases point with
    | lock response => exact ⟨response, rfl, rfl⟩
    | send response => exact ⟨response, rfl⟩
    | _ => exact trivial
  | cancelSession point =>
    cases point with
    | cancel => rfl
    | _ => exact trivial
  | sessionEventStream point => cases point <;> exact trivial
  | engineStart point => cases point <;> exact trivial
  | startTransfer point =>
    cases point with
    | engine _ run => exact run.madeBy rfl _ _ _
    | insertToken => rfl
    | _ => exact trivial

def Access.ofTransfer : Access → Bool
  | .insertToken _ => true
  | .removeToken _ => true
  | .emitEvent _ => true
  | .insertStatus .. => true
  | .insertModel _ => true
  | .setModelStatus .. => true
  | _ => false

theorem Task.of_transfer_access (accesses : (task.access choice).ofTransfer = true) :
    (∃ point, task = .uploadFiles point) ∨ ∃ point, task = .startTransfer point := by
  cases task with
  | uploadFiles point => exact .inl ⟨point, rfl⟩
  | startTransfer point => exact .inr ⟨point, rfl⟩
  | startSession point =>
    cases point with
    | write => cases choice <;> cases accesses
    | _ => cases accesses
  | incomingSession point =>
    cases point with
    | wait | write => cases choice <;> cases accesses
    | _ => cases accesses
  | respondSession point => cases point <;> cases accesses
  | cancelSession point => cases point <;> cases accesses
  | sessionEventStream point => cases point <;> cases accesses
  | engineStart point => cases point <;> cases accesses

theorem UploadFiles.of_transfer_access {point : UploadFiles}
    (accesses : (point.access choice).ofTransfer = true) :
    point.access choice = .insertToken point.tokenId ∨
      point.access choice = .removeToken point.tokenId := by
  cases point with
  | engine _ _ _ run => cases run <;> cases accesses
  | recordFile _ _ _ reported => cases reported <;> cases choice <;> cases accesses
  | register => exact .inl rfl
  | unregister => exact .inr rfl
  | _ => cases accesses

theorem Task.startTransfer_of_access (accesses : (task.access choice).ofTransfer = true)
    (inserts : ∀ id, task.access choice ≠ .insertToken id)
    (removes : ∀ id, task.access choice ≠ .removeToken id) :
    ∃ point, task = .startTransfer point := by
  rcases Task.of_transfer_access accesses with ⟨_, rfl⟩ | found
  · rcases UploadFiles.of_transfer_access accesses with same | same
    · exact absurd same (inserts _)
    · exact absurd same (removes _)
  · exact found

theorem UploadFiles.tokenId_next (upload : Upload) (files : List FileMeta) :
    (next upload files).tokenId = upload.sessionId := by
  induction files with
  | nil => rfl
  | cons _ _ ih =>
    unfold next
    split
    · rfl
    · exact ih

theorem UploadFiles.tokenId_resume {point next : UploadFiles}
    (resumed : point.resume reply choice = some next) :
    next.tokenId = point.tokenId := by
  cases moves_of_resume resumed with
  | register upload _ first => exact first ▸ tokenId_next upload upload.files
  | recordFile upload _ remaining _ _ later => exact later ▸ tokenId_next upload remaining
  | _ => rfl

theorem StartTransfer.tokenId_resume {point next : StartTransfer}
    (resumed : point.resume reply choice = some next) : next.tokenId = point.tokenId := by
  cases moves_of_resume resumed <;> rfl

theorem Task.tokenId_resume (resumed : task.resume reply choice = some moved) :
    moved.tokenId = task.tokenId := by
  cases task with
  | uploadFiles point =>
    obtain ⟨point, ran, rfl⟩ := Option.map_eq_some_iff.mp resumed
    exact congrArg some (UploadFiles.tokenId_resume ran)
  | startTransfer point =>
    obtain ⟨point, ran, rfl⟩ := Option.map_eq_some_iff.mp resumed
    exact congrArg some (StartTransfer.tokenId_resume ran)
  | _ =>
    obtain ⟨_, _, rfl⟩ := Option.map_eq_some_iff.mp resumed
    rfl

theorem Task.startTransfer_resume (resumed : task.resume reply choice = some moved)
    (same : moved = .startTransfer point) :
    ∃ before, task = .startTransfer before ∧ before.resume reply choice = some point := by
  subst same
  cases task with
  | startTransfer before =>
    obtain ⟨next, ran, same⟩ := Option.map_eq_some_iff.mp resumed
    cases same
    exact ⟨before, rfl, ran⟩
  | _ =>
    obtain ⟨_, _, same⟩ := Option.map_eq_some_iff.mp resumed
    cases same

theorem Task.registered_resume (resumed : task.resume reply choice = some moved)
    (entered : task.registered = some id) : moved.registered = some id := by
  cases task with
  | incomingSession point =>
    obtain ⟨_, ran, rfl⟩ := Option.map_eq_some_iff.mp resumed
    cases IncomingSession.moves_of_resume ran <;> first | exact entered | cases entered
  | _ => cases entered

def Effect.From (shared : Shared) (self : Nat) (access : Access) : Effect → Prop
  | .session caller op admitted =>
    caller = self ∧ access = .session op ∧ admitted = SessionOp.admitted shared.sessions op
  | .emitted caller event => caller = self ∧ access = .emit event
  | .emittedTransfer caller event => caller = self ∧ access = .emitEvent event
  | .decided caller connection decision => caller = self ∧ access = .send connection decision
  | .dropped caller connection => caller = self ∧ ∃ id,
      (access = .insertResponder id ∨ access = .removeResponder id) ∧
        shared.responders.lookup id = some connection
  | .timedOut connection => connection = self ∧ access = .expire
  | .wrote caller message => caller = self ∧ access = .write message
  | .uploadBegun caller sessionId fileId resumeOffset =>
    caller = self ∧ access = .beginUpload sessionId fileId resumeOffset
  | .returned .. => False

variable {shared next : Shared} {self : Nat} {access : Access} {effects : List Effect}

theorem perform_effects (performed : shared.perform self access = some (reply, next, effects)) :
    effects = [] ∨ ∃ effect, effects = [effect] ∧ effect.From shared self access := by
  have letGo (id : String) (removes : access = .insertResponder id ∨ access = .removeResponder id) :
      shared.dropEffects self id = [] ∨
        ∃ effect, shared.dropEffects self id = [effect] ∧ effect.From shared self access := by
    cases found : shared.responders.lookup id with
    | none => exact .inl (by simp [Shared.dropEffects, found])
    | some holder =>
      exact .inr ⟨.dropped self holder, by simp [Shared.dropEffects, found], rfl, id, removes, found⟩
  cases access <;> simp only [Shared.perform] at performed
  case insertResponder id =>
    split at performed <;> cases performed
    exact letGo id (.inl rfl)
  case removeResponder id =>
    split at performed <;> cases performed
    exact letGo id (.inr rfl)
  case takeResponder | lockEngine =>
    split at performed <;> cases performed
    exact .inl rfl
  case emit | emitEvent =>
    cases performed
    split
    · exact .inr ⟨_, rfl, rfl, rfl⟩
    · exact .inl rfl
  case session op =>
    cases performed
    exact .inr ⟨_, rfl, rfl, rfl, rfl⟩
  case send | expire | write | beginUpload =>
    cases performed
    exact .inr ⟨_, rfl, rfl, rfl⟩
  all_goals
    cases performed
    exact .inl rfl

theorem perform_tokens (performed : shared.perform self access = some (reply, next, effects)) :
    next.tokens = shared.tokens ∨ ∃ id reason token, access = .cancelToken id reason ∧
      shared.cancelTokens.lookup id = some token ∧
      next.tokens = Function.update shared.tokens token (some reason) := by
  cases access <;> simp only [Shared.perform] at performed
  case cancelToken id reason =>
    cases performed
    cases found : shared.cancelTokens.lookup id with
    | none => exact .inl rfl
    | some token => exact .inr ⟨id, reason, token, rfl, found, rfl⟩
  case insertResponder | removeResponder | takeResponder | lockEngine =>
    split at performed <;> cases performed
    exact .inl rfl
  all_goals
    cases performed
    exact .inl rfl

theorem perform_tokens_kept
    (performed : shared.perform self access = some (reply, next, effects))
    (used : shared.tokens other ≠ none) :
    next.tokens other ≠ none := by
  rcases perform_tokens performed with unchanged | ⟨_, _, token, _, _, changed⟩
  · rw [unchanged]
    exact used
  · rw [changed]
    by_cases same : other = token
    · simp [same]
    · rwa [Function.update_of_ne same]

/-- An access leaves alone what it does not write of a session. -/
structure Shared.Keeps (shared next : Shared) (access : Access) (id : String) : Prop where
  cancelTokens : access ≠ .insertToken id → access ≠ .removeToken id →
    next.cancelTokens.lookup id = shared.cancelTokens.lookup id
  states : (∀ status, access ≠ .insertStatus id status) → next.states.lookup id = shared.states.lookup id
  transfers : (∀ model, access = .insertModel model → model.id ≠ id) →
    (∀ status, access ≠ .setModelStatus id status) →
    next.transfers.lookup id = shared.transfers.lookup id

theorem perform_keeps (performed : shared.perform self access = some (reply, next, effects))
    (id : String) :
    shared.Keeps next access id := by
  cases access <;> simp only [Shared.perform] at performed
  case insertToken inserted =>
    cases performed
    exact ⟨fun inserts _ => AList.lookup_insert_ne fun same => inserts (same ▸ rfl), fun _ =>
      rfl, fun _ _ => rfl⟩
  case removeToken removed =>
    cases performed
    exact ⟨fun _ removes => AList.lookup_erase_ne fun same => removes (same ▸ rfl), fun _ =>
      rfl, fun _ _ => rfl⟩
  case insertStatus inserted status =>
    cases performed
    exact ⟨fun _ _ => rfl, fun writes => AList.lookup_insert_ne fun same =>
      writes status (same ▸ rfl), fun _ _ => rfl⟩
  case insertModel model =>
    cases performed
    exact ⟨fun _ _ => rfl, fun _ => rfl, fun other _ => AList.lookup_insert_ne (other model rfl).symm⟩
  case setModelStatus changed status =>
    cases performed
    refine ⟨fun _ _ => rfl, fun _ => rfl, fun _ writes => ?_⟩
    cases found : shared.transfers.lookup changed with
    | none => rfl
    | some => exact AList.lookup_insert_ne fun same => writes status (same ▸ rfl)
  case insertResponder | removeResponder | takeResponder | lockEngine =>
    split at performed <;> cases performed
    exact ⟨fun _ _ => rfl, fun _ => rfl, fun _ _ => rfl⟩
  all_goals
    cases performed
    exact ⟨fun _ _ => rfl, fun _ => rfl, fun _ _ => rfl⟩

theorem perform_cancelTokens (performed : shared.perform self access = some (reply, next, effects))
    (found : next.cancelTokens.lookup id = some token) :
    shared.cancelTokens.lookup id = some token ∨ (access = .insertToken id ∧ token = self) := by
  by_cases inserts : access = .insertToken id
  · subst inserts
    cases performed
    rw [AList.lookup_insert] at found
    exact .inr ⟨rfl, (Option.some.inj found).symm⟩
  · by_cases removes : access = .removeToken id
    · subst removes
      cases performed
      rw [AList.lookup_erase] at found
      cases found
    · exact .inl (((perform_keeps performed id).cancelTokens inserts removes).symm.trans found)

theorem perform_responders (performed : shared.perform self access = some (reply, next, effects))
    (found : next.responders.lookup id = some connection) :
    shared.responders.lookup id = some connection ∨
      (access = .insertResponder id ∧ connection = self) := by
  cases access <;> simp only [Shared.perform] at performed
  case insertResponder inserted =>
    split at performed <;> cases performed
    by_cases same : id = inserted
    · subst same
      rw [AList.lookup_insert] at found
      exact .inr ⟨rfl, (Option.some.inj found).symm⟩
    · rw [AList.lookup_insert_ne same] at found
      exact .inl found
  case removeResponder removed | takeResponder removed =>
    split at performed <;> cases performed
    by_cases same : id = removed
    · rw [same, AList.lookup_erase] at found
      cases found
    · rw [AList.lookup_erase_ne same] at found
      exact .inl found
  case lockEngine =>
    split at performed <;> cases performed
    exact .inl found
  all_goals
    cases performed
    exact .inl found

/-- A channel changes when a decision is sent, or when the map lets go of its sender. -/
theorem perform_oneshots (performed : shared.perform self access = some (reply, next, effects))
    (connection : Nat) :
    next.oneshots connection = shared.oneshots connection ∨
      (∃ decision, access = .send connection decision ∧ next.oneshots connection = .sent decision) ∨
      ∃ id, (access = .insertResponder id ∨ access = .removeResponder id) ∧
        shared.responders.lookup id = some connection ∧ next.oneshots connection = .dropped := by
  have letGo (id : String) : shared.dropResponder id connection = shared.oneshots connection ∨
      (shared.responders.lookup id = some connection ∧
        shared.dropResponder id connection = .dropped) := by
    cases found : shared.responders.lookup id with
    | none => simp [Shared.dropResponder, found]
    | some holder =>
      by_cases same : connection = holder
      · simp [Shared.dropResponder, found, same]
      · simp [Shared.dropResponder, found, same, Ne.symm same]
  cases access <;> simp only [Shared.perform] at performed
  case send target decision =>
    cases performed
    by_cases same : connection = target
    · subst same
      exact .inr (.inl ⟨decision, rfl, Function.update_self ..⟩)
    · exact .inl (Function.update_of_ne same ..)
  case insertResponder id =>
    split at performed <;> cases performed
    rcases letGo id with kept | ⟨found, dropped⟩
    · exact .inl kept
    · exact .inr (.inr ⟨id, .inl rfl, found, dropped⟩)
  case removeResponder id =>
    split at performed <;> cases performed
    rcases letGo id with kept | ⟨found, dropped⟩
    · exact .inl kept
    · exact .inr (.inr ⟨id, .inr rfl, found, dropped⟩)
  case takeResponder | lockEngine =>
    split at performed <;> cases performed
    exact .inl rfl
  all_goals
    cases performed
    exact .inl rfl

theorem perform_readToken
    (performed : shared.perform self .readToken = some (reply, next, effects)) :
    reply = .token (shared.tokens self) := by
  cases performed
  rfl

theorem perform_receive (performed : shared.perform self .receive = some (reply, next, effects)) :
    reply = .decision (shared.oneshots self) := by
  cases performed
  rfl

theorem perform_takeResponder
    (performed : shared.perform self (.takeResponder id) = some (reply, next, effects)) :
    reply = .responder (shared.responders.lookup id) := by
  simp only [Shared.perform] at performed
  split at performed <;> cases performed
  rfl

theorem perform_expire (performed : shared.perform self .expire = some (reply, next, effects)) :
    effects = [.timedOut self] := by
  cases performed
  rfl

theorem perform_send
    (performed : shared.perform self (.send connection decision) = some (reply, next, effects)) :
    effects = [.decided self connection decision] := by
  cases performed
  rfl

theorem perform_reply (performed : shared.perform self access = some (reply, next, effects)) :
    (∀ cancelled, reply = .token cancelled → access = .readToken) ∧
      ∀ channel, reply = .decision channel → access = .receive := by
  cases access <;> simp only [Shared.perform] at performed
  case session op =>
    cases performed
    cases op <;> exact ⟨nofun, nofun⟩
  case insertResponder | removeResponder | takeResponder | lockEngine =>
    split at performed <;> cases performed
    exact ⟨nofun, nofun⟩
  case readToken | receive =>
    cases performed
    exact ⟨fun _ _ => by first | rfl | contradiction, fun _ _ => by first | rfl | contradiction⟩
  all_goals
    cases performed
    exact ⟨nofun, nofun⟩

theorem Task.taken_resume (resumed : task.resume reply choice = some moved)
    (holds : moved.taken = some (id, connection)) :
    task.taken = some (id, connection) ∨ ∃ response,
      task = .respondSession (.lock response) ∧ id = response.sessionId ∧
      reply = .responder (some connection) := by
  cases task with
  | respondSession point =>
    obtain ⟨point, ran, rfl⟩ := Option.map_eq_some_iff.mp resumed
    cases RespondSession.moves_of_resume ran with
    | accept response | reject response =>
      cases holds
      exact .inr ⟨response, rfl, rfl, rfl⟩
    | identify => exact .inl holds
    | _ => cases holds
  | _ =>
    obtain ⟨_, _, rfl⟩ := Option.map_eq_some_iff.mp resumed
    cases holds

theorem IncomingSession.returned_of_cleanup {next : IncomingSession}
    (resumed : (cleanup request).resume reply choice = some next) :
    ∃ sessionId result, next = .returned sessionId result := by
  cases moves_of_resume resumed
  exact ⟨_, _, rfl⟩

theorem IncomingSession.registered_of_register {next : IncomingSession}
    (resumed : (register request).resume reply choice = some next) :
    next.registered = some request.sessionId := by
  cases moves_of_resume resumed
  rfl

theorem Call.plain (call : Call) : call.start.taken = none := by
  cases call <;> rfl

variable {pool : TransferCoordinator} {index : Nat}

theorem Ran.stays (ran : Ran pool index choice) (found : pool.tasks[other]? = some old) :
    (other = index ∧ old = ran.task ∧ ran.after.tasks[other]? = some ran.moved) ∨
      (other ≠ index ∧ ran.after.tasks[other]? = some old) := Pool.getElem?_kept ran.present found

theorem Ran.kept (ran : Ran pool index choice) (found : pool.tasks[other]? = some old) :
    ∃ new, ran.after.tasks[other]? = some new ∧ new.tokenId = old.tokenId ∧
      (∀ id, old.registered = some id → new.registered = some id) ∧
      (other ≠ index → new = old) := by
  rcases ran.stays found with ⟨rfl, rfl, moved⟩ | ⟨_, same⟩
  · exact ⟨ran.moved, moved, Task.tokenId_resume ran.resumed, fun _ =>
      Task.registered_resume ran.resumed,
      fun apart => absurd rfl apart⟩
  · exact ⟨old, same, rfl, fun _ entered => entered, fun _ => rfl⟩

theorem Task.mem_returnEffects (member : effect ∈ task.returnEffects self) :
    effect = .returned self task ∧ task.isReturned = true := by
  unfold returnEffects at member
  split at member
  · rename_i ceased
    exact ⟨List.mem_singleton.mp member, ceased⟩
  · cases member

theorem Ran.mem_trace (ran : Ran pool index choice) (member : effect ∈ ran.after.trace) :
    (effect = .returned index ran.moved ∧ ran.moved.isReturned = true) ∨
      effect.From pool.shared index (ran.task.access choice) ∨ effect ∈ pool.trace := by
  rcases List.mem_append.mp member with returned | rest
  · exact .inl (Task.mem_returnEffects returned)
  · rcases List.mem_append.mp rest with new | old
    · rcases perform_effects ran.performed with none | ⟨_, single, source⟩
      · rw [none] at new
        cases new
      · rw [single, List.mem_singleton] at new
        exact .inr (.inl (new ▸ source))
    · exact .inr (.inr old)

theorem Ran.throughout_after {holds : Effect → List Effect → Prop} (ran : Ran pool index choice)
    (older : Throughout holds pool.trace)
    (here : ∀ effect : Effect, effect.From pool.shared index (ran.task.access choice) →
      holds effect pool.trace)
    (returns : holds (.returned index ran.moved) (ran.effects ++ pool.trace)) :
    Throughout holds ran.after.trace := by
  have done : Throughout holds (ran.effects ++ pool.trace) := by
    rcases perform_effects ran.performed with none | ⟨effect, only, source⟩
    · rw [none]
      exact older
    · rw [only]
      exact throughout_cons.mpr ⟨here effect source, older⟩
  unfold after Task.returnEffects
  split
  · exact throughout_cons.mpr ⟨returns, done⟩
  · exact done

theorem Task.resume_of_isReturned (returned : task.isReturned = true) :
    task.resume reply choice = none := by
  cases task with
  | startSession point => cases point <;> first | rfl | cases returned
  | uploadFiles point => cases point <;> first | rfl | cases returned
  | incomingSession point => cases point <;> first | rfl | cases returned
  | respondSession point => cases point <;> first | rfl | cases returned
  | cancelSession point => cases point <;> first | rfl | cases returned
  | sessionEventStream point => cases point <;> first | rfl | cases returned
  | engineStart point => cases point <;> first | rfl | cases returned
  | startTransfer point => cases point <;> first | rfl | cases returned

theorem Ran.running (ran : Ran pool index choice) : ran.task.isReturned = false := by
  refine Bool.eq_false_iff.mpr fun returned => ?_
  have resumed := ran.resumed
  rw [Task.resume_of_isReturned returned] at resumed
  cases resumed

theorem Ran.not_returned (ran : Ran pool index choice) (sessionId : Option String)
    (result : Except String Unit) :
    pool.tasks[index]? ≠ some (.incomingSession (.returned sessionId result)) := by
  intro returned
  have running := ran.running
  rw [Option.some.inj (ran.present.symm.trans returned)] at running
  cases running

theorem kept_by_call {call : Call} {other : Nat} (found : pool.tasks[other]? = some old) :
    (pool.tasks ++ [call.start])[other]? = some old := by
  rw [List.getElem?_append_left (List.getElem?_eq_some_iff.mp found).1, found]

theorem Task.spawned_upload (member : new ∈ task.spawned) :
    ∃ upload, new = .uploadFiles (.register upload) := by
  unfold spawned at member
  split at member
  · exact ⟨_, List.mem_singleton.mp member⟩
  · cases member

/-- A responder in the map, or taken out of it, is one its connection has put there. -/
structure Registered (pool : TransferCoordinator) : Prop where
  responders : ∀ id index, pool.shared.responders.lookup id = some index → ∃ task : Task,
    pool.tasks[index]? = some task ∧ task.registered = some id
  taken : ∀ (index : Nat) (task : Task) (id : String) (connection : Nat),
    pool.tasks[index]? = some task →
    task.taken = some (id, connection) → ∃ holder : Task, pool.tasks[connection]? = some holder ∧
      holder.registered = some id

theorem registered_new (deviceId deviceName : String) : Registered (.new deviceId deviceName) where
  responders := by simp [TransferCoordinator.new, Shared.new]
  taken := by simp [TransferCoordinator.new]

theorem Registered.called (registered : Registered pool) (call : Call) :
    Registered { pool with tasks := pool.tasks ++ [call.start] } where
  responders id index found := by
    obtain ⟨holder, present, entered⟩ := registered.responders id index found
    exact ⟨holder, kept_by_call present, entered⟩
  taken index task id connection found holds := by
    rcases Pool.getElem?_called found with present | ⟨_, rfl⟩
    · obtain ⟨holder, there, entered⟩ := registered.taken index task id connection present holds
      exact ⟨holder, kept_by_call there, entered⟩
    · rw [Call.plain] at holds
      cases holds

theorem Registered.turned (registered : Registered pool) (ran : Ran pool index choice) :
    Registered ran.after where
  responders id other found := by
    rcases perform_responders ran.performed found with earlier | ⟨inserts, rfl⟩
    · obtain ⟨holder, present, entered⟩ := registered.responders id other earlier
      obtain ⟨new, there, _, persists, _⟩ := ran.kept present
      exact ⟨new, there, persists id entered⟩
    · have made := ran.task.madeBy choice
      rw [inserts] at made
      obtain ⟨_, point, rfl⟩ := made
      refine ⟨ran.moved, Pool.getElem?_moved ran.present, ?_⟩
      have resumed := ran.resumed
      rw [point] at resumed
      obtain ⟨_, entered, same⟩ := Option.map_eq_some_iff.mp resumed
      rw [← same]
      exact IncomingSession.registered_of_register entered
  taken other task id connection found holds := by
    have persists {holder : Task} (present : pool.tasks[connection]? = some holder)
        (entered : holder.registered = some id) :
        ∃ holder : Task, ran.after.tasks[connection]? = some holder ∧ holder.registered = some id := by
      obtain ⟨new, there, _, keeps, _⟩ := ran.kept present
      exact ⟨new, there, keeps id entered⟩
    rcases Pool.getElem?_turned found with ⟨rfl, rfl⟩ | ⟨_, there⟩ | ⟨_, new⟩
    · rcases Task.taken_resume ran.resumed holds with held | ⟨response, point, rfl, replied⟩
      · obtain ⟨holder, present, entered⟩ := registered.taken other ran.task id connection
          ran.present held
        exact persists present entered
      · have locks : ran.task.access choice = .takeResponder response.sessionId := by rw [point]; rfl
        have same := perform_takeResponder (locks ▸ ran.performed)
        rw [replied] at same
        obtain ⟨holder, present, entered⟩ := registered.responders _ _ (Reply.responder.inj same).symm
        exact persists present entered
    · obtain ⟨_, present, entered⟩ := registered.taken other task id connection there holds
      exact persists present entered
    · obtain ⟨_, rfl⟩ := Task.spawned_upload (List.mem_of_getElem? new)
      cases holds

end DistributedOs.Coordinator
