import DistributedOs.Coordinator.Stages
import DistributedOs.Coordinator.Recorded

/-! What `cancel_session` achieves. It stops a session through the token its upload task
registers, and there is one only from the start of that task on: an Accept that is handled
after the lookup of the token, or shortly before it, is acted on as if nobody had cancelled. -/

namespace DistributedOs.Coordinator

open Semantics DistributedOs.Session SessionManager

namespace CancelSession

/-- The lookup of the token is over. -/
def sought : CancelSession → Bool
  | .cancel .. => false
  | _ => true

/-- The recorded states in which the rest of the call leaves the session cancelled. -/
def allows : CancelSession → List SessionState
  | .cancel .. => [.handshaking, .negotiating, .active, .cancelled]
  | .record .. => [.handshaking, .negotiating, .active, .cancelled]
  | .announce .. => [.cancelled]
  | .returned _ => [.cancelled]

end CancelSession

def Task.soughtFor (id : String) : Task → Bool
  | .cancelSession point => point.sessionId = id && point.sought
  | _ => false

/-- The task is about to look up the token of the session. -/
def Task.seeks (id : String) : Task → Bool
  | .cancelSession (.cancel sessionId _) => sessionId = id
  | _ => false

/-- The task has looked up the token and not yet recorded the session as cancelled. -/
def Task.halfway (id : String) : Task → Bool
  | .cancelSession (.record sessionId _) => sessionId = id
  | _ => false

def Task.carries (id : String) (task : Task) : Bool :=
  task.carrier.any fun carrier => carrier.sessionId = id

def Task.exposedFor (id : String) (task : Task) : Bool :=
  task.carrier.any fun carrier => carrier.sessionId = id && carrier.stage.exposed

def Access.finishes (id : String) : Access → Bool
  | .session (.updateState updated state _) => updated = id && (state = .completed || state = .failed)
  | _ => false

/-- A turn that leaves room for the cancels of a session: no Accept is handled once a token
was looked up, the session does not end between a lookup and the update that follows, and
the lookup finds the session there, not ended by itself, and its procedure not exposed. -/
structure TimelyTurn (id : String) (pool : TransferCoordinator) (task : Task)
    (choice : Choice) : Prop where
  unrequested : task.requests choice ≠ some id
  unsought : task.accepts choice = some id → pool.tasks.any (Task.soughtFor id) = false
  unfinished : (task.access choice).finishes id = true → pool.tasks.any (Task.halfway id) = false
  ongoing : task.seeks id = true →
    ∃ state ∈ [SessionState.handshaking, .negotiating, .active, .cancelled],
    recorded id pool.trace = some state
  unexposed : task.seeks id = true → pool.tasks.any (Task.exposedFor id) = false

instance {id : String} {pool : TransferCoordinator} {task : Task} {choice : Choice} :
    Decidable (TimelyTurn id pool task choice) :=
  decidable_of_iff
    (task.requests choice ≠ some id ∧
      (task.accepts choice = some id → pool.tasks.any (Task.soughtFor id) = false) ∧
      ((task.access choice).finishes id = true → pool.tasks.any (Task.halfway id) = false) ∧
      (task.seeks id = true →
        ∃ state ∈ [SessionState.handshaking, .negotiating, .active, .cancelled],
        recorded id pool.trace = some state) ∧
      (task.seeks id = true → pool.tasks.any (Task.exposedFor id) = false))
    ⟨fun ⟨one, two, three, four, five⟩ => ⟨one, two, three, four, five⟩,
      fun ⟨one, two, three, four, five⟩ => ⟨one, two, three, four, five⟩⟩

/-- The id is given to one `start_session`, as a fresh one, and besides only to cancels;
every turn is timely. -/
def cancelTimely (id : String) (pool : TransferCoordinator) : Label → Bool
  | .call (.startSession sessionId ..) =>
    sessionId ≠ id || ((recorded id pool.trace).isNone && !pool.tasks.any (Task.carries id))
  | .call call => call.start.foreign ≠ some id
  | .run index choice =>
    match pool.tasks[index]? with
    | some task => TimelyTurn id pool task choice
    | none => true

def cancelReturned (id : String) (trace : List Effect) : Prop :=
  ∃ caller, .returned caller (.cancelSession (.returned id)) ∈ trace

/-- No upload of the session begins, and it is not announced active, once a cancel has returned. -/
def Effect.Honours (id : String) (earlier : List Effect) : Effect → Prop
  | .uploadBegun _ sessionId .. => sessionId = id → ¬ cancelReturned id earlier
  | .emitted _ (.sessionActive sessionId) => sessionId = id → ¬ cancelReturned id earlier
  | _ => True

structure Honoured (id : String) (pool : TransferCoordinator) : Prop where
  quiet : Throughout (fun effect earlier => effect.Honours id earlier) pool.trace
  cancelled : cancelReturned id pool.trace → recorded id pool.trace = some .cancelled

/-- The one procedure that carries the session, and how the cancels stand to it. -/
structure Timely (id : String) (pool : TransferCoordinator) : Prop where
  ledger : Ledger pool.shared.sessions pool.trace
  native : ∀ (index : Nat) (task : Task), pool.tasks[index]? = some task → task.foreign ≠ some id
  alone : ∀ (index other : Nat) (first second : Task) (one two : Carrier),
    pool.tasks[index]? = some first →
    pool.tasks[other]? = some second → first.carrier = some one → second.carrier = some two →
    one.sessionId = id → two.sessionId = id → index = other
  unborn : ∀ (index : Nat) (task : Task), pool.tasks[index]? = some task →
    task.carrier = some { sessionId := id, stage := .unborn } → recorded id pool.trace = none
  tokened : ∀ (index : Nat) (task : Task) (stage : Stage), pool.tasks[index]? = some task →
    task.carrier = some { sessionId := id, stage } → stage.registered = true →
    pool.shared.cancelTokens.lookup id = some index
  stopped : pool.tasks.any (Task.soughtFor id) = true → ∀ (index : Nat) (task : Task) (stage : Stage),
    pool.tasks[index]? = some task → task.carrier = some { sessionId := id, stage } →
    stage.exposed = false ∧ (stage.registered = true → pool.shared.tokens index ≠ none)
  stands : ∀ (index : Nat) (point : CancelSession),
    pool.tasks[index]? = some (Task.cancelSession point) →
    point.sessionId = id → point.sought = true → ∃ state ∈ point.allows,
    recorded id pool.trace = some state
  ended : ∀ caller, .returned caller (.cancelSession (.returned id)) ∈ pool.trace →
    pool.tasks[caller]? = some (Task.cancelSession (.returned id))
  quiet : Throughout (fun effect earlier => effect.Honours id earlier) pool.trace

variable {reply : Reply} {choice : Choice} {task moved : Task} {id : String}
  {pool : TransferCoordinator}
variable {index other : Nat} {call : Call} {carrier : Carrier} {stage : Stage}

theorem timely_new (id deviceId deviceName : String) : Timely id (.new deviceId deviceName) where
  ledger := ledger_new 100
  native := by simp [TransferCoordinator.new]
  alone := by simp [TransferCoordinator.new]
  unborn := by simp [TransferCoordinator.new]
  tokened := by simp [TransferCoordinator.new]
  stopped := by simp [TransferCoordinator.new]
  stands := by simp [TransferCoordinator.new]
  ended := by simp [TransferCoordinator.new]
  quiet := throughout_nil

theorem Call.native (admitted : cancelTimely id pool (.call call) = true) :
    call.start.foreign ≠ some id := by
  cases call with
  | startSession => exact nofun
  | _ => exact of_decide_eq_true admitted

theorem Call.first (admitted : cancelTimely id pool (.call call) = true)
    (carries : call.start.carrier = some carrier) (same : carrier.sessionId = id) :
    carrier.stage = .unborn ∧ recorded id pool.trace = none ∧
      pool.tasks.any (Task.carries id) = false := by
  cases call with
  | startSession =>
    cases carries
    subst same
    simp only [cancelTimely, ne_eq, not_true_eq_false, decide_false, Bool.false_or, Bool.and_eq_true,
      Option.isNone_iff_eq_none, Bool.not_eq_true'] at admitted
    exact ⟨rfl, admitted⟩
  | _ => cases carries

theorem Call.not_sought (call : Call) : call.start.soughtFor id = false := by
  cases call with
  | cancelSession => exact Bool.and_false _
  | _ => rfl

theorem Timely.called (timely : Timely id pool)
    (admitted : cancelTimely id pool (.call call) = true) :
    Timely id { pool with tasks := pool.tasks ++ [call.start] } := by
  have apart {index : Nat} {task : Task} {one two : Carrier} (present : pool.tasks[index]? = some task)
      (carries : task.carrier = some one) (here : one.sessionId = id)
      (new : call.start.carrier = some two)
      (too : two.sessionId = id) : False := by
    have nobody := List.any_eq_false.mp (Call.first admitted new too).2.2 task
      (List.mem_of_getElem? present)
    exact nobody (by simp [Task.carries, carries, here])
  refine ⟨timely.ledger, ?_, ?_, ?_, ?_, ?_, ?_, ?_, timely.quiet⟩
  · intro index task found
    rcases Pool.getElem?_called found with present | ⟨_, rfl⟩
    · exact timely.native index task present
    · exact Call.native admitted
  · intro index other first second one two found also carries carries' here there
    rcases Pool.getElem?_called found with present | ⟨rfl, rfl⟩ <;>
      rcases Pool.getElem?_called also with present' | ⟨rfl, rfl⟩
    · exact timely.alone index other first second one two present present' carries carries' here there
    · exact (apart present carries here carries' there).elim
    · exact (apart present' carries' there carries here).elim
    · rfl
  · intro index task found carries
    rcases Pool.getElem?_called found with present | ⟨_, rfl⟩
    · exact timely.unborn index task present carries
    · exact (Call.first admitted carries rfl).2.1
  · intro index task stage found carries registered
    rcases Pool.getElem?_called found with present | ⟨_, rfl⟩
    · exact timely.tokened index task stage present carries registered
    · cases (Call.first admitted carries rfl).1
      cases registered
  · intro sought index task stage found carries
    have before : pool.tasks.any (Task.soughtFor id) = true := by
      simpa [List.any_append, Call.not_sought] using sought
    rcases Pool.getElem?_called found with present | ⟨_, rfl⟩
    · exact timely.stopped before index task stage present carries
    · cases (Call.first admitted carries rfl).1
      exact ⟨rfl, nofun⟩
  · intro index point found same sought
    rcases Pool.getElem?_called found with present | ⟨_, started⟩
    · exact timely.stands index point present same sought
    · have none : call.start.soughtFor id = false := Call.not_sought call
      rw [← started] at none
      simp [Task.soughtFor, same, sought] at none
  · intro caller returned
    exact kept_by_call (timely.ended caller returned)

theorem timelyTurn_of (ran : Ran pool index choice)
    (admitted : cancelTimely id pool (.run index choice) = true) :
    TimelyTurn id pool ran.task choice := by
  simp only [cancelTimely, ran.present] at admitted
  exact of_decide_eq_true admitted

theorem Timely.about (timely : Timely id pool) (ran : Ran pool index choice)
    (about : (ran.task.access choice).about = some id) :
    (∃ carrier, ran.task.carrier = some carrier ∧ carrier.sessionId = id) ∨
      ∃ point, ran.task = .cancelSession point ∧ point.sessionId = id := by
  rcases Task.about_access about with foreign | rest
  · exact absurd foreign (timely.native index ran.task ran.present)
  · exact rest

/-- The recorded state stays, or the carrier creates the session, or the table has the move. -/
theorem Timely.recorded_turned (timely : Timely id pool) (ran : Ran pool index choice)
    (turn : TimelyTurn id pool ran.task choice) :
    recorded id ran.after.trace = recorded id pool.trace ∨
      ((∃ carrier, ran.task.carrier = some carrier ∧ carrier.sessionId = id) ∧
        recorded id pool.trace = none) ∨
      ∃ state target, recorded id pool.trace = some state ∧ validTransition state target = true ∧
        recorded id ran.after.trace = some target ∧
        (target = .completed ∨ target = .failed → pool.tasks.any (Task.halfway id) = false) := by
  rw [ran.recorded_after timely.ledger]
  cases accessed : ran.task.access choice with
  | session op =>
    have same : ran.access = .session op := accessed
    rw [same]
    cases op with
    | create created =>
      by_cases own : created = id
      · subst own
        rcases timely.about ran (by rw [accessed]; rfl) with ⟨carrier, carries, here⟩ | ⟨point, acted, _⟩
        · have stage := Task.unborn_of_creates carries accessed
          refine .inr (.inl ⟨⟨carrier, carries, here⟩, timely.unborn index ran.task ran.present ?_⟩)
          rw [carries, ← here, ← stage]
        · rw [acted] at accessed
          cases point <;> cases accessed
      · exact .inl (if_neg own)
    | updateState updated target =>
      by_cases moves : updated = id ∧ (recorded id pool.trace).any (validTransition · target) = true
      · obtain ⟨state, known, valid⟩ := (Option.any_eq_true _ _).mp moves.2
        refine .inr (.inr ⟨state, target, known, valid, if_pos moves, fun ends => turn.unfinished ?_⟩)
        rw [accessed]
        simpa [Access.finishes, moves.1] using ends
      · exact .inl (if_neg moves)
    | _ => exact .inl rfl
  | _ =>
    have same : ran.access = _ := accessed
    rw [same]
    exact .inl rfl

theorem perform_insertToken {shared next : Shared}
    (performed : shared.perform self (.insertToken id) = some (reply, next, effects)) :
    next.cancelTokens.lookup id = some self := by
  cases performed
  exact AList.lookup_insert _

theorem perform_cancelToken {shared next : Shared}
    (performed : shared.perform self (.cancelToken id reason) = some (reply, next, effects))
    (found : shared.cancelTokens.lookup id = some token) : next.tokens token = some reason := by
  cases performed
  simp [found]

theorem Timely.lookup_kept (timely : Timely id pool) (ran : Ran pool index choice)
    (present : pool.tasks[other]? = some task) (carries : task.carrier = some carrier)
    (here : carrier.sessionId = id) (apart : other ≠ index) :
    ran.shared.cancelTokens.lookup id = pool.shared.cancelTokens.lookup id := by
  have stays (access : Access) (about : access.about = some id)
      (never : ∀ point, (Task.cancelSession point).access choice ≠ access) :
      ran.task.access choice ≠ access := by
    intro accessed
    rcases timely.about ran (accessed ▸ about) with ⟨own, carries', here'⟩ | ⟨point, acted, _⟩
    · exact apart (timely.alone other index task ran.task carrier own present ran.present carries
        carries' here here')
    · exact never point (acted ▸ accessed)
  refine (perform_keeps ran.performed id).cancelTokens (stays _ rfl ?_) (stays _ rfl ?_)
  all_goals
    intro point
    cases point <;> exact nofun

theorem Task.cancel_of_moved (resumed : task.resume reply choice = some (.cancelSession point)) :
    ∃ before, task = .cancelSession before ∧ before.resume reply choice = some point := by
  cases task with
  | cancelSession before =>
    obtain ⟨next, ran, same⟩ := Option.map_eq_some_iff.mp resumed
    cases same
    exact ⟨before, rfl, ran⟩
  | _ =>
    obtain ⟨_, _, same⟩ := Option.map_eq_some_iff.mp resumed
    cases same

theorem Task.cancel_of_soughtFor (sought : task.soughtFor id = true) :
    ∃ point, task = .cancelSession point ∧ point.sessionId = id ∧ point.sought = true := by
  cases task with
  | cancelSession point =>
    obtain ⟨same, ceased⟩ := Bool.and_eq_true_iff.mp sought
    exact ⟨point, rfl, of_decide_eq_true same, ceased⟩
  | _ => cases sought

/-- A cancel past its lookup was past it before, or has just made it. -/
theorem Ran.sought_before (ran : Ran pool index choice)
    (sought : ran.after.tasks.any (Task.soughtFor id) = true) :
    pool.tasks.any (Task.soughtFor id) = true ∨
      ∃ reason, ran.task = .cancelSession (.cancel id reason) := by
  obtain ⟨_, member, ceased⟩ := List.any_eq_true.mp sought
  obtain ⟨other, found⟩ := List.mem_iff_getElem?.mp member
  have before {old : Task} (present : pool.tasks[index]? = some old ∨ pool.tasks[other]? = some old)
      (sought : old.soughtFor id = true) : pool.tasks.any (Task.soughtFor id) = true := by
    refine List.any_eq_true.mpr ⟨old, ?_, sought⟩
    rcases present with there | there <;> exact List.mem_of_getElem? there
  obtain ⟨_, acted, same, _⟩ := Task.cancel_of_soughtFor ceased
  rcases Pool.getElem?_turned found with ⟨rfl, moved⟩ | ⟨_, there⟩ | ⟨_, new⟩
  · obtain ⟨_, called, resumed⟩ := Task.cancel_of_moved ((acted.symm.trans moved) ▸ ran.resumed)
    generalize ran.reply = reply at resumed
    cases CancelSession.moves_of_resume resumed with
    | cancel _ reason =>
      cases same
      exact .inr ⟨reason, called⟩
    | record | announce =>
      refine .inl (before (.inl ran.present) ?_)
      rw [called]
      exact Bool.and_eq_true_iff.mpr ⟨decide_eq_true same, rfl⟩
  · exact .inl (before (.inr there) ceased)
  · obtain ⟨_, rfl⟩ := Task.spawned_upload (List.mem_of_getElem? new)
    cases acted

theorem Timely.after_native (timely : Timely id pool) (ran : Ran pool index choice)
    (turn : TimelyTurn id pool ran.task choice) (found : ran.after.tasks[other]? = some task) :
    task.foreign ≠ some id := by
  intro works
  rcases Pool.getElem?_turned found with ⟨rfl, rfl⟩ | ⟨_, there⟩ | ⟨_, new⟩
  · rcases Task.foreign_resume ran.resumed works with before | asked
    · exact timely.native other ran.task ran.present before
    · exact turn.unrequested asked
  · exact timely.native other task there works
  · obtain ⟨_, _, plain, _⟩ := Task.carrier_spawned ran.resumed (List.mem_of_getElem? new)
    rw [plain] at works
    cases works

theorem Ran.carrier_before (ran : Ran pool index choice)
    (found : ran.after.tasks[other]? = some task) (carries : task.carrier = some carrier) :
    (other ≠ index ∧ pool.tasks[other]? = some task) ∨
      (other = index ∧ ∃ before, ran.task.carrier = some before ∧
        before.sessionId = carrier.sessionId ∧
        Stage.Moves carrier.sessionId ran.task ran.reply choice before.stage carrier.stage) ∨
      (other = pool.tasks.length ∧ carrier.stage = .unregistered ∧
        ran.task.carrier = some { sessionId := carrier.sessionId, stage := .accepted } ∧
        ran.moved.carrier = none) := by
  rcases Pool.getElem?_turned found with ⟨rfl, rfl⟩ | unmoved | ⟨_, new⟩
  · exact .inr (.inl ⟨rfl, Task.carrier_resume ran.resumed carries⟩)
  · exact .inl unmoved
  · obtain ⟨_, fresh, _, handed, left⟩ := Task.carrier_spawned ran.resumed (List.mem_of_getElem? new)
    cases carries.symm.trans fresh
    refine .inr (.inr ⟨?_, rfl, handed, left⟩)
    obtain ⟨_, rfl⟩ := Task.spawned_upload (List.mem_of_getElem? new)
    have within : other - pool.tasks.length < ran.task.spawned.length :=
      (List.getElem?_eq_some_iff.mp new).1
    have single : ran.task.spawned.length ≤ 1 := by
      unfold Task.spawned
      split <;> simp
    omega

theorem Timely.after_alone (timely : Timely id pool) (ran : Ran pool index choice) {one two : Nat}
    (found : ran.after.tasks[one]? = some first)
    (also : ran.after.tasks[two]? = some second) (carries : first.carrier = some here)
    (carries' : second.carrier = some there) (own : here.sessionId = id)
    (own' : there.sessionId = id) : one = two := by
  -- the turn's task carries the session, so no task that did not move does
  have only {before : Carrier} {other : Nat} {task : Task} {carrier : Carrier}
    (moves : ran.task.carrier = some before)
      (same : before.sessionId = id) (present : pool.tasks[other]? = some task)
      (carries : task.carrier = some carrier)
      (own : carrier.sessionId = id) : other = index :=
    timely.alone other index task ran.task carrier before present ran.present carries moves own same
  have left (other : Nat) (task : Task) (carrier : Carrier) (found : ran.after.tasks[other]? = some task)
      (carries : task.carrier = some carrier) (gone : ran.moved.carrier = none) : other ≠ index := by
    rintro rfl
    cases (Pool.getElem?_moved ran.present).symm.trans found
    rw [gone] at carries
    cases carries
  rcases ran.carrier_before found carries with ⟨apart, present⟩ | ⟨rfl, _, moves, same, _⟩
    | ⟨rfl, _, handed, gone⟩ <;>
    rcases ran.carrier_before also carries' with
      ⟨apart', present'⟩ | ⟨rfl, before', moves', same', _⟩ | ⟨rfl, _, handed', gone'⟩
  · exact timely.alone one two first second here there present present' carries carries' own own'
  · exact absurd (only moves' (same'.trans own') present carries own) apart
  · exact absurd (only handed' own' present carries own) apart
  · exact absurd (only moves (same.trans own) present' carries' own') apart'
  · rfl
  · exact absurd rfl (left one first here found carries gone')
  · exact absurd (only handed own present' carries' own') apart'
  · exact absurd rfl (left two second there also carries' gone)
  · rfl

theorem Timely.after_unborn (timely : Timely id pool) (ran : Ran pool index choice)
    (turn : TimelyTurn id pool ran.task choice) (found : ran.after.tasks[other]? = some task)
    (carries : task.carrier = some { sessionId := id, stage := .unborn }) :
    recorded id ran.after.trace = none := by
  have known : recorded id pool.trace = none := by
    rcases ran.carrier_before found carries with ⟨_, present⟩
      | ⟨rfl, before, moves, same, turns⟩ | ⟨_, fresh, _⟩
    · exact timely.unborn other task present carries
    · obtain ⟨_, _⟩ := before
      cases same
      cases turns with
      | find => exact timely.unborn other ran.task ran.present moves
    · cases fresh
  rcases timely.recorded_turned ran turn with kept | ⟨⟨before, moves, same⟩, _⟩ | ⟨_, _, some, _⟩
  · exact kept.trans known
  · rcases ran.carrier_before found carries with ⟨apart, present⟩
      | ⟨rfl, ⟨_, _⟩, _, _, turns⟩ | ⟨_, fresh, _⟩
    · refine absurd ?_ apart
      exact timely.alone other index task ran.task _ before present ran.present carries moves rfl same
    · cases turns with
      | find waits =>
        rw [ran.recorded_after timely.ledger]
        have idles : ran.access = .idle := waits
        rw [idles]
        exact known
    · cases fresh
  · rw [known] at some
    cases some

theorem Timely.after_tokened (timely : Timely id pool) (ran : Ran pool index choice)
    (found : ran.after.tasks[other]? = some task)
    (carries : task.carrier = some { sessionId := id, stage })
    (registered : stage.registered = true) : ran.shared.cancelTokens.lookup id = some other := by
  rcases ran.carrier_before found carries with ⟨apart, present⟩
    | ⟨rfl, before, moves, same, turns⟩ | ⟨_, fresh, _⟩
  · rw [timely.lookup_kept ran present carries rfl apart]
    exact timely.tokened other task stage present carries registered
  · obtain ⟨_, earlier⟩ := before
    cases same
    have kept (here : earlier.registered = true) (inserts : ran.task.access choice ≠ .insertToken id)
        (removes : ran.task.access choice ≠ .removeToken id) :
        ran.shared.cancelTokens.lookup id = some other := by
      rw [(perform_keeps ran.performed id).cancelTokens inserts removes]
      exact timely.tokened other ran.task earlier ran.present moves here
    cases turns with
    | register inserts => exact perform_insertToken (inserts ▸ ran.performed)
    | upload here keeps => exact kept here (keeps _).1 (keeps _).2
    | check reads => exact kept rfl (by rw [reads]; exact nofun) (by rw [reads]; exact nofun)
    | find | create | offer | accept | activate => cases registered
  · cases fresh
    cases registered

theorem Timely.after_stopped (timely : Timely id pool) (ran : Ran pool index choice)
    (turn : TimelyTurn id pool ran.task choice)
    (sought : ran.after.tasks.any (Task.soughtFor id) = true)
    (found : ran.after.tasks[other]? = some task)
    (carries : task.carrier = some { sessionId := id, stage }) :
    stage.exposed = false ∧ (stage.registered = true → ran.shared.tokens other ≠ none) := by
  rcases ran.sought_before sought with already | ⟨reason, seeks⟩
  · have stopped := timely.stopped already
    rcases ran.carrier_before found carries with ⟨_, present⟩ | ⟨rfl, before, moves, same, turns⟩
      | ⟨_, _, handed, _⟩
    · obtain ⟨covered, used⟩ := stopped other task stage present carries
      exact ⟨covered, fun registered => perform_tokens_kept ran.performed (used registered)⟩
    · obtain ⟨_, earlier⟩ := before
      cases same
      obtain ⟨covered, used⟩ := stopped other ran.task earlier ran.present moves
      cases turns with
      | find | create | offer => exact ⟨rfl, nofun⟩
      | accept accepts =>
        rw [turn.unsought accepts] at already
        cases already
      | activate | register => cases covered
      | upload registered => exact ⟨rfl, fun _ => perform_tokens_kept ran.performed (used registered)⟩
      | check reads free =>
        have token := perform_readToken (reads ▸ ran.performed)
        rw [free] at token
        exact absurd (Reply.token.inj token).symm (used rfl)
    · cases (stopped index ran.task .accepted ran.present handed).1
  · have plain : ran.task.carrier = none := by rw [seeks]; rfl
    rcases ran.carrier_before found carries with ⟨_, present⟩ | ⟨_, _, moves, _⟩ | ⟨_, _, handed, _⟩
    · have seeking : ran.task.seeks id = true := by simp [seeks, Task.seeks]
      have covered := List.any_eq_false.mp (turn.unexposed seeking) task (List.mem_of_getElem? present)
      refine ⟨by simpa [Task.exposedFor, carries] using covered, fun registered => ?_⟩
      have cancels : ran.task.access choice = .cancelToken id reason := by rw [seeks]; rfl
      have looked := timely.tokened other task stage present carries registered
      simp [perform_cancelToken (cancels ▸ ran.performed) looked]
    · rw [plain] at moves
      cases moves
    · rw [plain] at handed
      cases handed

/-- The call's own turn: it finds the session open or cancelled, and leaves it cancelled. -/
theorem Timely.cancel_stands (timely : Timely id pool) (ran : Ran pool index choice)
    (turn : TimelyTurn id pool ran.task choice) (called : ran.task = .cancelSession before)
    (resumed : before.resume ran.reply choice = some point) (same : point.sessionId = id) :
    ∃ state ∈ point.allows, recorded id ran.after.trace = some state := by
  have present := called ▸ ran.present
  rw [ran.recorded_after timely.ledger]
  generalize ran.reply = reply at resumed
  cases CancelSession.moves_of_resume resumed with
  | cancel sessionId reason =>
    obtain rfl : sessionId = id := same
    have looks : ran.access = .cancelToken sessionId reason := by rw [Ran.access, called]; rfl
    rw [looks]
    exact turn.ongoing (by simp [called, Task.seeks])
  | record sessionId reason =>
    obtain rfl : sessionId = id := same
    obtain ⟨state, allowed, known⟩ := timely.stands index _ present rfl rfl
    have records : ran.access = .session (.updateState sessionId .cancelled (some reason)) := by
      rw [Ran.access, called]; rfl
    refine ⟨.cancelled, List.mem_singleton_self _, ?_⟩
    rw [records]
    simp only [CancelSession.allows, List.mem_cons, List.not_mem_nil, or_false] at allowed
    rcases allowed with rfl | rfl | rfl | rfl <;> simp [Access.records, known, validTransition]
  | announce sessionId reason =>
    obtain rfl : sessionId = id := same
    obtain ⟨state, allowed, known⟩ := timely.stands index _ present rfl rfl
    have announces : ran.access = .emit (.sessionCancelled sessionId reason) := by
      rw [Ran.access, called]; rfl
    rw [announces]
    exact ⟨state, allowed, known⟩

theorem Timely.after_stands (timely : Timely id pool) (ran : Ran pool index choice)
    (turn : TimelyTurn id pool ran.task choice)
    (found : ran.after.tasks[other]? = some (Task.cancelSession point))
    (same : point.sessionId = id) (sought : point.sought = true) :
    ∃ state ∈ point.allows, recorded id ran.after.trace = some state := by
  rcases Pool.getElem?_turned found with ⟨rfl, moved⟩ | ⟨_, there⟩ | ⟨_, new⟩
  · obtain ⟨_, called, resumed⟩ := Task.cancel_of_moved (moved ▸ ran.resumed)
    exact timely.cancel_stands ran turn called resumed same
  · obtain ⟨state, allowed, known⟩ := timely.stands other point there same sought
    rcases timely.recorded_turned ran turn with kept | ⟨_, none⟩
      | ⟨_, target, some, valid, moves, unfinished⟩
    · exact ⟨state, allowed, kept.trans known⟩
    · rw [known] at none
      cases none
    · cases known.symm.trans some
      cases point with
      | cancel => cases sought
      | record sessionId =>
        obtain rfl : sessionId = id := same
        have here : pool.tasks.any (Task.halfway sessionId) = true :=
          List.any_eq_true.mpr ⟨_, List.mem_of_getElem? there, by simp [Task.halfway]⟩
        refine ⟨target, ?_, moves⟩
        cases target with
        | completed =>
          rw [unfinished (.inl rfl)] at here
          cases here
        | failed =>
          rw [unfinished (.inr rfl)] at here
          cases here
        | _ => simp [CancelSession.allows]
      | announce | returned =>
        -- nothing follows Cancelled
        cases List.mem_singleton.mp allowed
        cases validTransition_from valid
  · obtain ⟨_, started⟩ := Task.spawned_upload (List.mem_of_getElem? new)
    cases started

theorem Timely.after_ended (timely : Timely id pool) (ran : Ran pool index choice)
    (returned : .returned caller (.cancelSession (.returned id)) ∈ ran.after.trace) :
    ran.after.tasks[caller]? = some (Task.cancelSession (.returned id)) := by
  rcases ran.mem_trace returned with ⟨now, _⟩ | source | old
  · obtain ⟨rfl, ceased⟩ := Effect.returned.inj now
    exact ceased ▸ Pool.getElem?_moved ran.present
  · cases source
  · have present := timely.ended caller old
    rcases ran.stays present with ⟨rfl, acted, _⟩ | ⟨_, there⟩
    · have running := ran.running
      rw [← acted] at running
      cases running
    · exact there

theorem Timely.unreturned (timely : Timely id pool) (ran : Ran pool index choice)
    (about : (ran.task.access choice).about = some id)
    (releases : (ran.task.access choice).releases = true) :
    ¬ cancelReturned id pool.trace := by
  rintro ⟨caller, returned⟩
  have present := timely.ended caller returned
  have sought : pool.tasks.any (Task.soughtFor id) = true :=
    List.any_eq_true.mpr
      ⟨_, List.mem_of_getElem?
        present, by simp [Task.soughtFor, CancelSession.sessionId, CancelSession.sought]⟩
  rcases timely.about ran about with ⟨⟨_, stage⟩, carries, rfl⟩ | ⟨point, acted, _⟩
  · have exposed := Task.exposed_of_releases carries releases
    have covered := (timely.stopped sought index ran.task stage ran.present carries).1
    rw [covered] at exposed
    cases exposed
  · rw [acted] at releases
    cases point <;> cases releases

theorem Timely.effect_honours (timely : Timely id pool) (ran : Ran pool index choice)
    {effect : Effect} (source : effect.From pool.shared index (ran.task.access choice)) :
    effect.Honours id pool.trace := by
  cases effect with
  | uploadBegun =>
    obtain ⟨_, begins⟩ := source
    rintro rfl
    exact timely.unreturned ran (by rw [begins]; rfl) (by rw [begins]; rfl)
  | emitted _ event =>
    obtain ⟨_, emits⟩ := source
    cases event with
    | sessionActive =>
      rintro rfl
      exact timely.unreturned ran (by rw [emits]; rfl) (by rw [emits]; rfl)
    | _ => trivial
  | _ => trivial

theorem Timely.after_quiet (timely : Timely id pool) (ran : Ran pool index choice) :
    Throughout (fun effect earlier => effect.Honours id earlier) ran.after.trace :=
  ran.throughout_after timely.quiet (fun _ source => timely.effect_honours ran source) trivial

theorem Timely.turned (timely : Timely id pool) (ran : Ran pool index choice)
    (admitted : cancelTimely id pool (.run index choice) = true) : Timely id ran.after where
  ledger := (timely.ledger.perform ran.performed).silent (silent_returnEffects ran.moved)
  native _ _ found := timely.after_native ran (timelyTurn_of ran admitted) found
  alone _ _ _ _ _ _ found also carries carries' here there :=
  timely.after_alone ran found also carries carries' here there
  unborn _ _ found carries := timely.after_unborn ran (timelyTurn_of ran admitted) found carries
  tokened _ _ _ found carries registered := timely.after_tokened ran found carries registered
  stopped sought _ _ _ found carries :=
  timely.after_stopped ran (timelyTurn_of ran admitted) sought found carries
  stands _ _ found same sought := timely.after_stands ran (timelyTurn_of ran admitted) found same sought
  ended _ returned := timely.after_ended ran returned
  quiet := timely.after_quiet ran

theorem Timely.honoured (timely : Timely id pool) : Honoured id pool where
  quiet := timely.quiet
  cancelled := by
    rintro ⟨caller, returned⟩
    obtain ⟨_, allowed, known⟩ := timely.stands caller (.returned id)
      (timely.ended caller returned) rfl rfl
    cases List.mem_singleton.mp allowed
    exact known

/-- In a run whose turns are all timely a cancel that has returned is honoured: no upload of
the session begins after it, the session is not announced active, and it is Cancelled. -/
theorem cancel_honoured (run : Execution step (fun pool label => cancelTimely id pool label = true)
    (.new deviceId deviceName) labels pool) : Honoured id pool := by
  refine (run.invariant (Timely id) ?_ (timely_new id deviceId deviceName)).honoured
  intro _ _ _ timely admitted taken
  rcases step_cases taken with ⟨_, rfl, rfl⟩ | ⟨_, _, rfl, ran, rfl⟩
  · exact timely.called admitted
  · exact timely.turned ran admitted

def uploads (trace : List Effect) : List String :=
  trace.filterMap fun
    | .uploadBegun _ _ fileId _ => some fileId
    | _ => none

/-- Two files are offered and accepted, and the session is cancelled while the first is uploaded. -/
def cancelledRun : List Label :=
  ([.call (.startSession "t" "b" [offered, offered])] : List Label) ++ offering 0 ++
    turns 0 ([Choice.message .accept (.accept acceptAll)] ++ List.replicate 3 Choice.proceed) ++
    turns 1 (List.replicate 5 .proceed) ++ ([.call (.cancelSession "t" "stop")] : List Label) ++
    turns 2 (List.replicate 3 .proceed) ++
    turns 1 ([Choice.uploaded uploadProgress] ++ List.replicate 8 Choice.proceed)

theorem cancel_honoured_uploading : ∃ pool,
    Execution step (fun pool label => cancelTimely "t" pool label = true)
      (.new "a" "laptop") cancelledRun pool ∧
      (uploads pool.trace = ["f"] ∧ recorded "t" pool.trace = some .cancelled) ∧
      Honoured "t" pool := by
  obtain ⟨pool, run, good⟩ := exists_execution
    (fun pool => uploads pool.trace = ["f"] ∧ recorded "t" pool.trace = some .cancelled)
    (show (replayWhere step (cancelTimely "t") (.new "a" "laptop") cancelledRun).any _ = true from rfl)
  exact ⟨pool, run, of_decide_eq_true good, cancel_honoured run⟩

/-- A cancel returns while `start_session` waits for the reply of the peer; the peer accepts
afterwards, the session is announced active, and its upload begins. -/
def unheardRun : List Label :=
  ([.call (.startSession "t" "b" [offered])] : List Label) ++ offering 0 ++
    ([.call (.cancelSession "t" "stop")] : List Label) ++ turns 1 (List.replicate 3 .proceed) ++
    turns 0 ([Choice.message .accept (.accept acceptAll)] ++ List.replicate 3 Choice.proceed) ++
    turns 2 (List.replicate 5 .proceed)

def Effect.releases (id : String) : Effect → Bool
  | .uploadBegun _ sessionId .. => sessionId = id
  | .emitted _ (.sessionActive sessionId) => sessionId = id
  | _ => false

def Effect.endsCancel (id : String) : Effect → Bool
  | .returned _ (.cancelSession (.returned sessionId)) => sessionId = id
  | _ => false

/-- An upload began, or the session became active, when a cancel had already returned. -/
def unheard (id : String) : List Effect → Bool
  | [] => false
  | effect :: earlier => (effect.releases id && earlier.any (Effect.endsCancel id)) || unheard id earlier

theorem cancelReturned_of_any (returned : trace.any (Effect.endsCancel id) = true) :
    cancelReturned id trace := by
  obtain ⟨_, member, ends⟩ := List.any_eq_true.mp returned
  unfold Effect.endsCancel at ends
  split at ends
  · obtain rfl := of_decide_eq_true ends
    exact ⟨_, member⟩
  · cases ends

theorem not_unheard (quiet : Throughout (fun effect earlier => effect.Honours id earlier) trace) :
    unheard id trace = false := by
  induction trace with
  | nil => rfl
  | cons _ _ ih =>
    obtain ⟨here, before⟩ := throughout_cons.mp quiet
    rw [unheard, ih before, Bool.or_false, Bool.and_eq_false_imp]
    intro releases
    refine Bool.eq_false_iff.mpr fun returned => ?_
    unfold Effect.releases at releases
    split at releases
    · exact here (of_decide_eq_true releases) (cancelReturned_of_any returned)
    · exact here (of_decide_eq_true releases) (cancelReturned_of_any returned)
    · cases releases

theorem cancel_unheard : ∃ pool, Execution step anything (.new "a" "laptop") unheardRun pool ∧
    uploads pool.trace = ["f"] ∧ unheard "t" pool.trace = true ∧ ¬ Honoured "t" pool := by
  obtain ⟨pool, played, good⟩ := (Option.any_eq_true _ _).mp
    (show (replay step (.new "a" "laptop") unheardRun).any (fun pool =>
      uploads pool.trace = ["f"] ∧ unheard "t" pool.trace = true) = true from rfl)
  obtain ⟨began, late⟩ := of_decide_eq_true good
  refine ⟨pool, execution_iff_replay.mpr played, began, late, fun honoured => ?_⟩
  rw [not_unheard honoured.quiet] at late
  cases late

end DistributedOs.Coordinator
