import DistributedOs.Coordinator.Footing

/-! Which runs keep to the session state machine. Every procedure, left alone, asks only
for transitions the table has and announces only what is recorded; `accept_session` and
`TransferEngine::start` do not, and a second procedure on the same session gets in the way. -/

namespace DistributedOs.Coordinator

open Semantics DistributedOs.Session SessionManager

def idle (id : String) (tasks : List Task) : Bool :=
  tasks.all fun task => task.footing.all fun footing => footing.sessionId ≠ id

/-- Each session id is created once; a session is accepted, rejected or cancelled only
while no procedure works on it and its state has the transition; `start` is not called. -/
def undisturbed (pool : TransferCoordinator) : Label → Bool
  | .call (.acceptSession id _) => recorded id pool.trace = some .negotiating && idle id pool.tasks
  | .call (.rejectSession id _ _) => (openState id pool.trace).isSome && idle id pool.tasks
  | .call (.cancelSession id _) => (openState id pool.trace).isSome && idle id pool.tasks
  | .call (.engineStart ..) => false
  | .call _ => true
  | .run index choice =>
    match pool.tasks[index]?.map (Task.access · choice) with
    | some (.session (.create id ..)) => (recorded id pool.trace).isNone
    | _ => true

/-- An update is admitted, an announcement true, a session whose acceptance was written active. -/
def Effect.Faithful (earlier : List Effect) : Effect → Prop
  | .session _ _ admitted => admitted = true
  | .emitted _ event =>
    ∀ state, event.announces = some state → recorded event.sessionId earlier = some state
  | .returned connection (.incomingSession (.returned (some id) (.ok ()))) =>
    ∀ payload, .wrote connection (.accept payload) ∈ earlier → recorded id earlier = some .active
  | _ => True

/-- The trace keeps to the state machine. -/
def Faithful : List Effect → Prop := Throughout fun effect earlier => effect.Faithful earlier

variable {reply : Reply} {choice : Choice} {task moved : Task} {id : String} {footing : Footing}

/-- Where each task stands, and why no token or channel of a task at work has been used. -/
structure Steady (pool : TransferCoordinator) : Prop where
  ledger : Ledger pool.shared.sessions pool.trace
  stands : ∀ (index : Nat) (task : Task) (footing : Footing), pool.tasks[index]? = some task →
    task.footing = some footing →
    ∃ state ∈ footing.allows, recorded footing.sessionId pool.trace = some state
  alone : ∀ (index other : Nat) (first second : Task) (one two : Footing),
    pool.tasks[index]? = some first →
    pool.tasks[other]? = some second → first.footing = some one → second.footing = some two →
    one.sessionId = two.sessionId → index = other
  tokens : ∀ index reason, pool.shared.tokens index = some reason → ∃ (task : Task) (id : String),
    pool.tasks[index]? = some task ∧ task.tokenId = some id ∧ task.footing = none ∧
    recorded id pool.trace ≠ none
  token_owners : ∀ id index, pool.shared.cancelTokens.lookup id = some index → ∃ task : Task,
    pool.tasks[index]? = some task ∧ task.tokenId = some id
  channels : ∀ index, pool.shared.oneshots index ≠ .pending → ∃ sessionId result,
    pool.tasks[index]? = some (.incomingSession (.returned sessionId result))
  registered : Registered pool
  unaccepted : ∀ connection payload, .wrote connection (.accept payload) ∉ pool.trace
  faithful : Faithful pool.trace

theorem steady_new (deviceId deviceName : String) : Steady (.new deviceId deviceName) where
  ledger := ledger_new 100
  stands := by simp [TransferCoordinator.new]
  alone := by simp [TransferCoordinator.new]
  tokens := by simp [TransferCoordinator.new, Shared.new]
  token_owners := by simp [TransferCoordinator.new, Shared.new]
  channels := by simp [TransferCoordinator.new, Shared.new]
  registered := registered_new deviceId deviceName
  unaccepted := by simp [TransferCoordinator.new]
  faithful := throughout_nil

variable {pool : TransferCoordinator} {call : Call} {index : Nat}

theorem apart_of_idle (alone : idle id pool.tasks = true) (present : pool.tasks[index]? = some task)
    (standing : task.footing = some footing) : footing.sessionId ≠ id := by
  have here := List.all_eq_true.mp alone task (List.mem_of_getElem? present)
  simpa [standing] using here

/-- A new call finds its session open, in a state it can use, with nobody at work on it. -/
theorem stands_of_undisturbed (admitted : undisturbed pool (.call call) = true)
    (standing : call.start.footing = some footing) :
    (∃ state ∈ footing.allows, recorded footing.sessionId pool.trace = some state) ∧
      idle footing.sessionId pool.tasks = true := by
  have opened (id : String) (found : (openState id pool.trace).isSome = true) :
      ∃ state ∈ [SessionState.handshaking, .negotiating, .active],
      recorded id pool.trace = some state := by
    obtain ⟨state, filtered⟩ := Option.isSome_iff_exists.mp found
    obtain ⟨known, ongoing⟩ := Option.filter_eq_some_iff.mp filtered
    refine ⟨state, ?_, known⟩
    cases state with
    | handshaking | negotiating | active => simp
    | _ => cases ongoing
  cases call with
  | acceptSession =>
    cases standing
    obtain ⟨known, alone⟩ := Bool.and_eq_true_iff.mp admitted
    exact ⟨⟨.negotiating, by simp [Verdict.sources], by simpa using known⟩, alone⟩
  | rejectSession id =>
    cases standing
    obtain ⟨found, alone⟩ := Bool.and_eq_true_iff.mp admitted
    exact ⟨opened id found, alone⟩
  | cancelSession id =>
    cases standing
    obtain ⟨found, alone⟩ := Bool.and_eq_true_iff.mp admitted
    exact ⟨opened id found, alone⟩
  | engineStart => cases admitted
  | _ => cases standing

theorem Steady.called (steady : Steady pool) (admitted : undisturbed pool (.call call) = true) :
    Steady { pool with tasks := pool.tasks ++ [call.start] } := by
  have apart {index : Nat} {task : Task} {one two : Footing} (present : pool.tasks[index]? = some task)
      (standing : task.footing = some one) (new : call.start.footing = some two) :
      one.sessionId ≠ two.sessionId :=
    apart_of_idle (stands_of_undisturbed admitted new).2 present standing
  refine ⟨steady.ledger, ?_, ?_, ?_, ?_, ?_, steady.registered.called call, steady.unaccepted,
    steady.faithful⟩
  · intro index task footing found standing
    rcases Pool.getElem?_called found with present | ⟨_, rfl⟩
    · exact steady.stands index task footing present standing
    · exact (stands_of_undisturbed admitted standing).1
  · intro index other first second one two found also standing too same
    rcases Pool.getElem?_called found with present | ⟨rfl, rfl⟩ <;>
      rcases Pool.getElem?_called also with there | ⟨rfl, rfl⟩
    · exact steady.alone index other first second one two present there standing too same
    · exact absurd same (apart present standing too)
    · exact absurd same.symm (apart there too standing)
    · rfl
  · intro index reason used
    obtain ⟨task, id, present, rest⟩ := steady.tokens index reason used
    exact ⟨task, id, kept_by_call present, rest⟩
  · intro id index found
    obtain ⟨task, present, owns⟩ := steady.token_owners id index found
    exact ⟨task, kept_by_call present, owns⟩
  · intro index used
    obtain ⟨sessionId, result, present⟩ := steady.channels index used
    exact ⟨sessionId, result, kept_by_call present⟩

theorem Steady.undisturbed_reply (steady : Steady pool) (ran : Ran pool index choice) :
    ran.reply.Undisturbed := by
  obtain ⟨tokenOnly, decisionOnly⟩ := perform_reply ran.performed
  cases replied : ran.reply with
  | token cancelled =>
    have reads := tokenOnly cancelled replied
    have same := perform_readToken (reads ▸ ran.performed)
    rw [replied] at same
    cases cancelled with
    | none => rfl
    | some reason =>
      obtain ⟨_, _, there, _, left, _⟩ := steady.tokens index reason (Reply.token.inj same).symm
      cases ran.present.symm.trans there
      exact absurd left (Task.footing_readToken reads)
  | decision channel =>
    have same := perform_receive (decisionOnly channel replied ▸ ran.performed)
    rw [replied] at same
    by_cases unused : pool.shared.oneshots index = .pending
    · exact (Reply.decision.inj same).trans unused
    · obtain ⟨sessionId, result, returned⟩ := steady.channels index unused
      exact absurd returned (ran.not_returned sessionId result)
  | _ => trivial

theorem Steady.finds (steady : Steady pool) (ran : Ran pool index choice) :
    ∃ state, ∀ footing, ran.task.footing = some footing →
      state ∈ footing.allows ∧ recorded footing.sessionId pool.trace = some state := by
  cases standing : ran.task.footing with
  | none => exact ⟨.handshaking, by simp⟩
  | some footing =>
    obtain ⟨state, allowed, known⟩ := steady.stands index ran.task footing ran.present standing
    refine ⟨state, ?_⟩
    rintro _ ⟨⟩
    exact ⟨allowed, known⟩

theorem Steady.advances (steady : Steady pool) (ran : Ran pool index choice) :
    ∃ state, (∀ footing, ran.task.footing = some footing →
        state ∈ footing.allows ∧ recorded footing.sessionId pool.trace = some state) ∧
      ran.access.Suits ran.task.footing state ∧
      ran.access.Leads ran.task.footing ran.moved.footing state := by
  obtain ⟨state, finds⟩ := steady.finds ran
  exact ⟨state, finds, Task.advance ran.resumed (steady.undisturbed_reply ran)
    fun footing standing => (finds footing standing).1⟩

theorem fresh_of_undisturbed
    (ran : Ran pool index choice) (admitted : undisturbed pool (.run index choice) = true)
    (creates : ran.access = .session (.create id peerId peerName direction files)) :
    recorded id pool.trace = none := by
  have same : Task.access ran.task choice = _ := creates
  simp only [undisturbed, ran.present, Option.map_some, same] at admitted
  simpa using admitted

theorem Steady.origin (steady : Steady pool) (ran : Ran pool index choice)
    (admitted : undisturbed pool (.run index choice) = true)
    (standing : ran.moved.footing = some footing) :
    (∃ before, ran.task.footing = some before ∧ before.sessionId = footing.sessionId) ∨
      recorded footing.sessionId pool.trace = none := by
  obtain ⟨_, _, _, leads⟩ := steady.advances ran
  have here := leads footing standing
  split at here
  · exact .inl (Option.map_eq_some_iff.mp here.1)
  · rename_i creates
    exact .inr (here.1 ▸ fresh_of_undisturbed ran admitted creates)
  · exact .inl (Option.map_eq_some_iff.mp here.1)

theorem Steady.recorded_other (steady : Steady pool) (ran : Ran pool index choice)
    (admitted : undisturbed pool (.run index choice) = true) (known : recorded id pool.trace ≠ none)
    (apart : ∀ footing, ran.task.footing = some footing → footing.sessionId ≠ id) :
    recorded id ran.after.trace = recorded id pool.trace := by
  obtain ⟨_, _, suits, _⟩ := steady.advances ran
  rw [ran.recorded_after steady.ledger]
  unfold Access.records
  split
  · rename_i creates
    refine if_neg fun same => known ?_
    exact same ▸ fresh_of_undisturbed ran admitted creates
  · rename_i updates
    rw [updates] at suits
    obtain ⟨footing, standing, same⟩ := Option.map_eq_some_iff.mp suits.1
    exact if_neg fun both => apart footing standing (same.trans both.1)
  · rfl

/-- The task stands where its next point needs it to. -/
theorem Steady.moved_stands (steady : Steady pool) (ran : Ran pool index choice)
    (standing : ran.moved.footing = some footing) :
    ∃ state ∈ footing.allows, recorded footing.sessionId ran.after.trace = some state := by
  obtain ⟨state, finds, suits, leads⟩ := steady.advances ran
  have here := leads footing standing
  rw [ran.recorded_after steady.ledger]
  unfold Access.records
  split at here
  · rename_i updated target error updates
    rw [updates] at suits ⊢
    obtain ⟨own, valid⟩ := suits
    obtain ⟨before, stood, same⟩ := Option.map_eq_some_iff.mp own
    have known := (finds before stood).2
    have id : updated = footing.sessionId := Option.some.inj (own.symm.trans here.1)
    refine ⟨target, here.2, if_pos ⟨id, ?_⟩⟩
    show (recorded footing.sessionId pool.trace).any (validTransition · target) = true
    rw [← id, ← same, known]
    exact valid
  · rename_i created peerId peerName direction files creates
    rw [creates]
    exact ⟨.handshaking, here.2, if_pos here.1.symm⟩
  · rename_i notUpdate notCreate
    obtain ⟨before, stood, same⟩ := Option.map_eq_some_iff.mp here.1
    have known := (finds before stood).2
    refine ⟨state, here.2, ?_⟩
    rw [← same]
    split
    · rename_i creates
      exact absurd creates (notCreate _ _ _ _ _)
    · rename_i updates
      exact absurd updates (notUpdate _ _ _)
    · exact known

theorem Steady.seat (steady : Steady pool) (ran : Ran pool index choice)
    (admitted : undisturbed pool (.run index choice) = true)
    (found : ran.after.tasks[other]? = some task) (standing : task.footing = some footing) :
    (∃ (seat : Nat) (old : Task) (before : Footing), pool.tasks[seat]? = some old ∧
      old.footing = some before ∧
        before.sessionId = footing.sessionId ∧
        (seat = other ∨ (seat = index ∧ other = pool.tasks.length ∧ ran.moved.footing = none))) ∨
      (other = index ∧ recorded footing.sessionId pool.trace = none) := by
  rcases Pool.getElem?_turned found with ⟨rfl, rfl⟩ | ⟨_, there⟩ | ⟨_, new⟩
  · rcases steady.origin ran admitted standing with ⟨before, stood, same⟩ | fresh
    · exact .inl ⟨other, ran.task, before, ran.present, stood, same, .inl rfl⟩
    · exact .inr ⟨rfl, fresh⟩
  · exact .inl ⟨other, task, footing, there, standing, rfl, .inl rfl⟩
  · rcases Task.spawned_cases ran.resumed with none | ⟨_, spawned, stood, _, left⟩
    · rw [none] at new
      cases new
    · rw [spawned, List.getElem?_singleton] at new
      split at new
      · cases new
        cases standing
        exact .inl ⟨index, ran.task, _, ran.present, stood, rfl, .inr ⟨rfl, by omega, left⟩⟩
      · cases new

theorem Steady.after_stands (steady : Steady pool) (ran : Ran pool index choice)
    (admitted : undisturbed pool (.run index choice) = true) {other : Nat}
    (found : ran.after.tasks[other]? = some task) (standing : task.footing = some footing) :
    ∃ state ∈ footing.allows, recorded footing.sessionId ran.after.trace = some state := by
  rcases Pool.getElem?_turned found with ⟨rfl, rfl⟩ | ⟨different, there⟩ | ⟨_, new⟩
  · exact steady.moved_stands ran standing
  · obtain ⟨state, allowed, known⟩ := steady.stands other task footing there standing
    have unchanged : recorded footing.sessionId ran.after.trace = recorded footing.sessionId
        pool.trace := by
      refine steady.recorded_other ran admitted (by simp [known]) fun own stood same => different ?_
      exact steady.alone other index task ran.task footing own there ran.present standing stood same.symm
    exact ⟨state, allowed, unchanged.trans known⟩
  · rcases Task.spawned_cases ran.resumed with none | ⟨_, spawned, stood, waits, _⟩
    · rw [none] at new
      cases new
    · rw [spawned, List.getElem?_singleton] at new
      split at new
      · cases new
        cases standing
        obtain ⟨state, allowed, known⟩ := steady.stands index ran.task _ ran.present stood
        have plain : ran.access = .idle := waits
        refine ⟨state, allowed, ?_⟩
        rw [ran.recorded_after steady.ledger, plain]
        exact known
      · cases new

theorem Steady.after_alone (steady : Steady pool) (ran : Ran pool index choice)
    (admitted : undisturbed pool (.run index choice) = true) {one two : Nat}
    (found : ran.after.tasks[one]? = some first)
    (also : ran.after.tasks[two]? = some second) (standing : first.footing = some here)
    (too : second.footing = some there) (same : here.sessionId = there.sessionId) : one = two := by
  have moves (other : Nat) (task : Task) (footing : Footing)
    (found : ran.after.tasks[other]? = some task)
      (standing : task.footing = some footing) (left : ran.moved.footing = none) : other ≠ index := by
    rintro rfl
    cases (Pool.getElem?_moved ran.present).symm.trans found
    rw [left] at standing
    cases standing
  rcases steady.seat ran admitted found standing with ⟨seat, old, before, present, stood, equal,
    whose⟩ | ⟨rfl, fresh⟩ <;>
    rcases steady.seat ran admitted also too with ⟨seat', old', before', present', stood', equal',
      whose'⟩ | ⟨rfl, fresh'⟩
  · have together := steady.alone seat seat' old old' before before' present present' stood stood'
      (equal.trans (same.trans equal'.symm))
    rcases whose with rfl | ⟨rfl, last, left⟩ <;> rcases whose' with rfl | ⟨rfl, last', left'⟩
    · exact together
    · exact absurd together (moves _ first here found standing left')
    · exact absurd together.symm (moves _ second there also too left)
    · omega
  · obtain ⟨state, _, known⟩ := steady.stands seat old before present stood
    rw [equal, same, fresh'] at known
    cases known
  · obtain ⟨state, _, known⟩ := steady.stands seat' old' before' present' stood'
    rw [equal', ← same, fresh] at known
    cases known
  · rfl

theorem Steady.after_tokens (steady : Steady pool) (ran : Ran pool index choice)
    (admitted : undisturbed pool (.run index choice) = true)
    (used : ran.shared.tokens other = some reason) : ∃ (task : Task) (id : String),
      ran.after.tasks[other]? = some task ∧ task.tokenId = some id ∧ task.footing = none ∧
        recorded id ran.after.trace ≠ none := by
  have stays {id : String} (known : recorded id pool.trace ≠ none) :
      recorded id ran.after.trace ≠ none := by
    unfold Ran.after
    rw [recorded_append_silent (silent_returnEffects _)]
    exact recorded_perform_ne_none steady.ledger ran.performed known
  have earlier (unused : ∃ reason, pool.shared.tokens other = some reason) :
    ∃ (task : Task) (id : String),
      ran.after.tasks[other]? = some task ∧ task.tokenId = some id ∧ task.footing = none ∧
        recorded id ran.after.trace ≠ none := by
    obtain ⟨reason, used⟩ := unused
    obtain ⟨old, id, present, owns, left, known⟩ := steady.tokens other reason used
    rcases ran.stays present with ⟨rfl, rfl, moved⟩ | ⟨_, same⟩
    · -- a task that has left its session does not come back to it
      have owns' : ran.moved.tokenId = some id := (Task.tokenId_resume ran.resumed).trans owns
      refine ⟨ran.moved, id, moved, owns', ?_, stays known⟩
      refine Option.eq_none_iff_forall_ne_some.mpr fun footing standing => ?_
      rcases steady.origin ran admitted standing with ⟨_, stood, _⟩ | fresh
      · rw [left] at stood
        cases stood
      · rw [Task.footing_tokenId standing owns'] at fresh
        exact known fresh
    · exact ⟨old, id, same, owns, left, stays known⟩
  rcases perform_tokens ran.performed with unchanged | ⟨id, why, token, cancels, found, changed⟩
  · exact earlier ⟨reason, unchanged ▸ used⟩
  · by_cases same : other = token
    · subst same
      have made := ran.task.madeBy choice
      rw [cancels] at made
      have canceller : ran.task = .cancelSession (.cancel id why) := made
      have stood : ran.task.footing =
          some { sessionId := id, allows := [.handshaking, .negotiating, .active] } := by
        rw [canceller]
        rfl
      obtain ⟨old, present, owns⟩ := steady.token_owners id other found
      have apart : other ≠ index := by
        rintro rfl
        cases ran.present.symm.trans present
        rw [canceller] at owns
        cases owns
      have left : old.footing = none := by
        refine Option.eq_none_iff_forall_ne_some.mpr fun footing standing => apart ?_
        exact steady.alone other index old ran.task footing _ present ran.present standing stood
          (Task.footing_tokenId standing owns)
      obtain ⟨_, _, known⟩ := steady.stands index ran.task _ ran.present stood
      have there : ran.after.tasks[other]? = some old := Pool.getElem?_unmoved apart present
      exact ⟨old, id, there, owns, left, stays (by simp [known])⟩
    · rw [changed, Function.update_of_ne same] at used
      exact earlier ⟨reason, used⟩

theorem Steady.holder_returned (steady : Steady pool) (ran : Ran pool index choice)
    (stood : ran.task.footing = some footing) (present : pool.tasks[other]? = some holder)
    (entered : holder.registered = some footing.sessionId) (apart : other ≠ index) :
    ∃ sessionId result,
      ran.after.tasks[other]? = some (.incomingSession (.returned sessionId result)) := by
  have left : holder.footing = none := by
    refine Option.eq_none_iff_forall_ne_some.mpr fun own standing => apart ?_
    exact steady.alone other index holder ran.task own footing present ran.present standing stood
      (Task.footing_registered standing entered)
  obtain ⟨sessionId, result, rfl⟩ := Task.returned_of_registered entered left
  exact ⟨sessionId, result, Pool.getElem?_unmoved apart present⟩

theorem Steady.after_channels (steady : Steady pool) (ran : Ran pool index choice)
    (used : ran.shared.oneshots other ≠ .pending) : ∃ sessionId result,
      ran.after.tasks[other]? = some (.incomingSession (.returned sessionId result)) := by
  have made := ran.task.madeBy choice
  rcases perform_oneshots ran.performed other with unchanged | ⟨_, sends, _⟩ | ⟨id, drops, found, _⟩
  · rw [unchanged] at used
    obtain ⟨sessionId, result, present⟩ := steady.channels other used
    have apart : other ≠ index := by
      rintro rfl
      exact ran.not_returned sessionId result present
    exact ⟨sessionId, result, Pool.getElem?_unmoved apart present⟩
  · rw [sends] at made
    obtain ⟨response, point⟩ := made
    obtain ⟨holder, present, entered⟩ := steady.registered.taken index ran.task response.sessionId
      other ran.present
        (by rw [point]; rfl)
    refine steady.holder_returned ran (by rw [point]; rfl) present entered ?_
    rintro rfl
    cases ran.present.symm.trans present
    rw [point] at entered
    cases entered
  · obtain ⟨_, present, entered⟩ := steady.registered.responders id other found
    rcases drops with inserts | removes
    · rw [inserts] at made
      obtain ⟨request, point, rfl⟩ := made
      refine steady.holder_returned ran (by rw [point]; rfl) present entered ?_
      rintro rfl
      cases ran.present.symm.trans present
      rw [point] at entered
      cases entered
    · rw [removes] at made
      obtain ⟨_, point, rfl⟩ := made
      by_cases apart : other = index
      · -- a connection lets go of its own responder as it returns
        subst apart
        have ceased : ∃ sessionId result, ran.moved = .incomingSession (.returned sessionId result) := by
          have resumed := ran.resumed
          rw [point] at resumed
          obtain ⟨_, cleaned, same⟩ := Option.map_eq_some_iff.mp resumed
          rw [← same]
          obtain ⟨sessionId, result, rfl⟩ := IncomingSession.returned_of_cleanup cleaned
          exact ⟨sessionId, result, rfl⟩
        obtain ⟨sessionId, result, same⟩ := ceased
        exact ⟨sessionId, result, same ▸ Pool.getElem?_moved ran.present⟩
      · exact steady.holder_returned ran (by rw [point]; rfl) present entered apart

theorem Steady.writes_no_accept (steady : Steady pool) (ran : Ran pool index choice)
    (payload : SessionAcceptPayload) : ran.access ≠ .write (.accept payload) := by
  intro writes
  have made := ran.task.madeBy choice
  have same : Task.access ran.task choice = _ := writes
  rw [same] at made
  rcases made with ⟨_, _, _, _, request⟩ | ⟨request, decision, point, answered⟩
  · cases request
  · cases decision with
    | reject => cases answered
    | accept =>
      have stood : ran.task.footing = some { sessionId := request.sessionId, allows := [] } := by
        rw [point]; rfl
      obtain ⟨_, allowed, _⟩ := steady.stands index ran.task _ ran.present stood
      cases allowed

theorem Steady.after_unaccepted (steady : Steady pool) (ran : Ran pool index choice)
    (connection : Nat) (payload : SessionAcceptPayload) :
    .wrote connection (.accept payload) ∉ ran.after.trace := by
  intro member
  rcases ran.mem_trace member with ⟨returned, _⟩ | source | old
  · cases returned
  · exact steady.writes_no_accept ran payload source.2
  · exact steady.unaccepted connection payload old

theorem Steady.effect_faithful (steady : Steady pool) (ran : Ran pool index choice)
    {effect : Effect} (source : effect.From pool.shared index (ran.task.access choice)) :
    effect.Faithful pool.trace := by
  obtain ⟨_, finds, suits, _⟩ := steady.advances ran
  have same : ran.access = ran.task.access choice := rfl
  cases effect with
  | session _ op =>
    obtain ⟨_, made, rfl⟩ := source
    rw [same, made] at suits
    cases op with
    | updateState _ target error =>
      obtain ⟨own, valid⟩ := suits
      obtain ⟨footing, standing, rfl⟩ := Option.map_eq_some_iff.mp own
      have moves := steady.ledger.admitted_updateState footing.sessionId target error
      rw [(finds footing standing).2] at moves
      exact moves.trans valid
    | _ => rfl
  | emitted =>
    obtain ⟨_, made⟩ := source
    rw [same, made] at suits
    obtain ⟨own, honest⟩ := suits
    obtain ⟨footing, standing, named⟩ := Option.map_eq_some_iff.mp own
    intro announced announces
    rw [← named, (finds footing standing).2, honest announced announces]
  | returned => cases source
  | _ => trivial

theorem Steady.after_faithful (steady : Steady pool) (ran : Ran pool index choice) :
    Faithful ran.after.trace := by
  refine ran.throughout_after steady.faithful (fun _ source => steady.effect_faithful ran source) ?_
  unfold Effect.Faithful
  split
  · rename_i same
    cases same
  · rename_i same
    cases same
  · intro payload member
    exact absurd (List.mem_append_right _ member) (steady.after_unaccepted ran _ payload)
  · trivial

theorem Steady.turned (steady : Steady pool) (ran : Ran pool index choice)
    (admitted : undisturbed pool (.run index choice) = true) : Steady ran.after where
  ledger := (steady.ledger.perform ran.performed).silent (silent_returnEffects ran.moved)
  stands _ _ _ found standing := steady.after_stands ran admitted found standing
  alone _ _ _ _ _ _ found also standing too same :=
  steady.after_alone ran admitted found also standing too same
  tokens _ _ used := steady.after_tokens ran admitted used
  token_owners id other found := by
    rcases perform_cancelTokens ran.performed found with earlier | ⟨inserts, rfl⟩
    · obtain ⟨_, present, owns⟩ := steady.token_owners id other earlier
      obtain ⟨new, there, keeps, _⟩ := ran.kept present
      exact ⟨new, there, keeps.trans owns⟩
    · have made := ran.task.madeBy choice
      rw [inserts] at made
      exact ⟨ran.moved, Pool.getElem?_moved ran.present, (Task.tokenId_resume ran.resumed).trans made⟩
  channels _ used := steady.after_channels ran used
  registered := steady.registered.turned ran
  unaccepted connection payload := steady.after_unaccepted ran connection payload
  faithful := steady.after_faithful ran

/-- In an undisturbed run every procedure keeps to the state machine: each update it asks
for is admitted, and each event it emits announces the recorded state. -/
theorem transitions_faithful (run : Execution step (fun pool label => undisturbed pool label = true)
    (.new deviceId deviceName) labels pool) : Faithful pool.trace := by
  refine (run.invariant Steady ?_ (steady_new deviceId deviceName)).faithful
  intro _ _ _ steady admitted taken
  rcases step_cases taken with ⟨_, rfl, rfl⟩ | ⟨_, _, rfl, ran, rfl⟩
  · exact steady.called admitted
  · exact steady.turned ran admitted

/-- A session is offered, accepted and uploaded while a request runs into its timeout. -/
def undisturbedRun : List Label :=
  ([.call .connection, .call (.startSession "t" "b" [offered])] : List Label) ++
  requested 0 ++ offering 1 ++
    turns 1 ([Choice.message .accept (.accept acceptAll)] ++ List.replicate 3 Choice.proceed) ++
    turns 0 ([Choice.timeout] ++ List.replicate 4 Choice.proceed) ++
    turns 2 (List.replicate 5 Choice.proceed ++ [Choice.uploaded uploadProgress] ++
      List.replicate 6 Choice.proceed)

theorem transitions_faithful_completed : ∃ pool,
    Execution step (fun pool label => undisturbed pool label = true)
      (.new "a" "laptop") undisturbedRun pool ∧
      (recorded "t" pool.trace = some .completed ∧ recorded "s" pool.trace = some .failed) ∧
      Faithful pool.trace := by
  obtain ⟨pool, run, good⟩ := exists_execution
    (fun pool => recorded "t" pool.trace = some .completed ∧ recorded "s" pool.trace = some .failed)
    (show (replayWhere step undisturbed (.new "a" "laptop") undisturbedRun).any _ = true from rfl)
  exact ⟨pool, run, of_decide_eq_true good, transitions_faithful run⟩

def Effect.refused : Effect → Bool
  | .session _ _ admitted => !admitted
  | _ => false

theorem Faithful.none_refused (faithful : Faithful trace) : trace.any Effect.refused = false := by
  refine List.any_eq_false.mpr fun effect member refused => ?_
  obtain ⟨later, earlier, split⟩ := List.append_of_mem member
  have here := faithful effect earlier ⟨later, split.symm⟩
  cases effect with
  | session =>
    cases here
    cases refused
  | _ => cases refused

def acceptWritten (trace : List Effect) : Bool :=
  trace.any (fun | .wrote _ (.accept _) => true | _ => false) &&
    trace.any (fun | .returned _ (.incomingSession (.returned _ (.ok ()))) => true | _ => false)

/-- A request is accepted while it waits: the peer has its Accept, the session is still
handshaking, and the table refuses both updates to Active. -/
def acceptedRun : List Label :=
  ([.call .connection] : List Label) ++ requested 0 ++ ([.call (.acceptSession "s" 0)] : List Label) ++
    turns 1 (List.replicate 6 .proceed) ++ turns 0 (List.replicate 5 .proceed)

theorem accepted_not_active : ∃ pool, Execution step anything (.new "a" "laptop") acceptedRun pool ∧
    acceptWritten pool.trace = true ∧ recorded "s" pool.trace = some .handshaking ∧
      ¬ Faithful pool.trace := by
  obtain ⟨pool, played, good⟩ := (Option.any_eq_true _ _).mp
    (show (replay step (.new "a" "laptop") acceptedRun).any (fun pool => acceptWritten pool.trace ∧
      recorded "s" pool.trace = some .handshaking ∧
      pool.trace.any Effect.refused = true) = true from rfl)
  obtain ⟨written, known, refused⟩ := of_decide_eq_true good
  refine ⟨pool, execution_iff_replay.mpr played, written, known, fun faithful => ?_⟩
  rw [faithful.none_refused] at refused
  cases refused

end DistributedOs.Coordinator
