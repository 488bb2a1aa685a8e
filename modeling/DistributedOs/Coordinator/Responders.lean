import DistributedOs.Coordinator.Footing

/-! Pending decisions. The map of responders has one entry for an id the remote side
chooses; two requests under one id are kept apart exactly as long as the first is over,
and every call about it, before the second is created. -/

namespace DistributedOs.Coordinator

open Semantics DistributedOs.Session

/-- The id a connection, or a call of the user, is at work on. -/
def Task.engages : Task → Option String
  | .incomingSession point => point.footing.map Footing.sessionId
  | .respondSession point => point.footing.map Footing.sessionId
  | _ => none

def RespondSession.response : RespondSession → Response
  | .lock response => response
  | .identify response _ => response
  | .send response _ _ => response
  | .record response => response
  | .announce response => response
  | .unlock response => response
  | .returned response => response

/-- The connection whose request a task handles or was called about. -/
def Task.request (self : Nat) : Task → Option Nat
  | .incomingSession _ => some self
  | .respondSession point => some point.response.request
  | _ => none

/-- Nobody handles a request of that id, and no call about one is under way. -/
def disengaged (id : String) (tasks : List Task) : Bool :=
  tasks.all fun task => task.engages ≠ some id

/-- An id is created again only when every earlier request of it is over; a call of the
user is about the latest request of its id. -/
def requestsApart (pool : TransferCoordinator) : Label → Bool
  | .call (.acceptSession id request) => creator id pool.trace = some request
  | .call (.rejectSession id request _) => creator id pool.trace = some request
  | .call _ => true
  | .run index choice =>
    match pool.tasks[index]?.map (Task.access · choice) with
    | some (.session (.create id ..)) => disengaged id pool.tasks
    | _ => true

def hasReturned (task : Nat) (trace : List Effect) : Prop := ∃ last, .returned task last ∈ trace

/-- The caller is a user's call with this verdict on the request of this connection. -/
def DecidedFor (tasks : List Task) (caller connection : Nat) (verdict : Verdict) : Prop :=
  ∃ point, tasks[caller]? = some (.respondSession point) ∧ point.response.request = connection ∧
    point.response.verdict = verdict

/-- A decision is resolved for its own request, dropped by its own connection, or over
already; an answer comes from the connection's own decision or timeout; a state is
recorded for the request that created the session. -/
def Effect.Separate (tasks : List Task) (earlier : List Effect) : Effect → Prop
  | .decided caller connection decision =>
    DecidedFor tasks caller connection decision.verdict ∨ hasReturned connection earlier
  | .dropped caller connection => caller = connection ∨ hasReturned connection earlier
  | .wrote connection (.accept payload) => ∃ caller,
      .decided caller connection (.accept payload) ∈ earlier ∧ DecidedFor tasks caller connection .accept
  | .wrote connection (.reject payload) => .timedOut connection ∈ earlier ∨ ∃ caller,
      .decided caller connection (.reject payload.reason) ∈ earlier ∧
        DecidedFor tasks caller connection (.reject payload.reason)
  | .session caller (.updateState id _ _) _ => ∃ task, tasks[caller]? = some task ∧
      ∀ request, task.request caller = some request → creator id earlier = some request
  | _ => True

def Separate (pool : TransferCoordinator) : Prop :=
  Throughout (fun effect earlier => effect.Separate pool.tasks earlier) pool.trace

def Answered (tasks : List Task) (trace : List Effect) (connection : Nat) : Decision → Prop
  | .accept payload => ∃ caller,
      .decided caller connection (.accept payload) ∈ trace ∧ DecidedFor tasks caller connection .accept
  | .reject reason => .timedOut connection ∈ trace ∨ ∃ caller,
      .decided caller connection (.reject reason) ∈ trace ∧
      DecidedFor tasks caller connection (.reject reason)

def RespondSession.Sound : RespondSession → Prop
  | .identify response _ => response.verdict = .accept
  | .send response _ decision => decision.verdict = response.verdict
  | _ => True

structure Apart (pool : TransferCoordinator) : Prop where
  own : ∀ (index : Nat) (task : Task) (id : String), pool.tasks[index]? = some task →
    task.engages = some id →
    creator id pool.trace = task.request index
  sound : ∀ (index : Nat) (point : RespondSession),
    pool.tasks[index]? = some (Task.respondSession point) → point.Sound
  registered : Registered pool
  ceased : ∀ (index : Nat) (task : Task), pool.tasks[index]? = some task → task.isReturned = true →
    hasReturned index pool.trace
  ended : ∀ index, hasReturned index pool.trace → ∃ task : Task, pool.tasks[index]? = some task ∧
    task.isReturned = true
  sent : ∀ connection decision, pool.shared.oneshots connection = .sent decision →
    (∃ caller, .decided caller connection decision ∈ pool.trace ∧
      DecidedFor pool.tasks caller connection decision.verdict) ∨ hasReturned connection pool.trace
  dropped : ∀ connection, pool.shared.oneshots connection = .dropped → hasReturned connection pool.trace
  answering : ∀ (connection : Nat) (request : SessionRequestPayload) (decision : Decision),
    pool.tasks[connection]? = some (Task.incomingSession (.write request decision)) →
      Answered pool.tasks pool.trace connection decision
  separate : Separate pool

variable {reply : Reply} {choice : Choice} {task moved : Task} {id : String}
  {pool : TransferCoordinator}
variable {index : Nat} {call : Call}

theorem RespondSession.response_resume {point next : RespondSession}
    (resumed : point.resume reply choice = some next) : next.response = point.response := by
  cases moves_of_resume resumed <;> rfl

theorem RespondSession.sound_resume {point next : RespondSession}
    (resumed : point.resume reply choice = some next) (sound : point.Sound) : next.Sound := by
  cases moves_of_resume resumed with
  | accept _ _ accepts => exact accepts
  | reject _ _ _ rejects => exact rejects.symm
  | identify => exact sound.symm
  | _ => trivial

theorem Task.request_resume (resumed : task.resume reply choice = some moved) (self : Nat) :
    moved.request self = task.request self := by
  cases task with
  | respondSession =>
    obtain ⟨next, ran, rfl⟩ := Option.map_eq_some_iff.mp resumed
    simp only [request, RespondSession.response_resume ran]
  | _ =>
    obtain ⟨_, _, rfl⟩ := Option.map_eq_some_iff.mp resumed
    rfl

theorem Task.engages_resume (resumed : task.resume reply choice = some moved)
    (engaged : moved.engages = some id) :
    task.engages = some id ∨ ∃ request, task = .incomingSession (.create request) ∧
      id = request.sessionId := by
  cases task with
  | incomingSession =>
    obtain ⟨next, ran, rfl⟩ := Option.map_eq_some_iff.mp resumed
    cases IncomingSession.moves_of_resume ran with
    | create request =>
      cases engaged
      exact .inr ⟨request, rfl, rfl⟩
    | unread | read | malformed | unexpected | unwritten | cleanup => cases engaged
    | _ => exact .inl engaged
  | respondSession =>
    obtain ⟨next, ran, rfl⟩ := Option.map_eq_some_iff.mp resumed
    cases RespondSession.moves_of_resume ran with
    | unlock => cases engaged
    | _ => exact .inl engaged
  | _ =>
    obtain ⟨_, _, rfl⟩ := Option.map_eq_some_iff.mp resumed
    cases engaged

def Extends (before later : List Task) : Prop :=
  ∀ (index : Nat) (task : Task), before[index]? = some task →
    ∃ moved : Task, later[index]? = some moved ∧
      (∀ self, moved.request self = task.request self) ∧
      ∀ point, task = .respondSession point →
        ∃ next, moved = .respondSession next ∧ next.response = point.response

variable {before later : List Task} {earlier effects trace : List Effect} {caller connection : Nat}

theorem extends_call (pool : TransferCoordinator)
    (call : Call) : Extends pool.tasks (pool.tasks ++ [call.start]) :=
  fun _ task found => ⟨task, kept_by_call found, fun _ => rfl, fun point same => ⟨point, same, rfl⟩⟩

theorem Ran.extends (ran : Ran pool index choice) : Extends pool.tasks ran.after.tasks := by
  intro _ task found
  rcases ran.stays found with ⟨rfl, rfl, there⟩ | ⟨_, there⟩
  · refine ⟨ran.moved, there, Task.request_resume ran.resumed, fun point same => ?_⟩
    have resumed := ran.resumed
    rw [same] at resumed
    obtain ⟨next, moves, equal⟩ := Option.map_eq_some_iff.mp resumed
    exact ⟨next, equal.symm, RespondSession.response_resume moves⟩
  · exact ⟨task, there, fun _ => rfl, fun point same => ⟨point, same, rfl⟩⟩

theorem DecidedFor.extend (decided : DecidedFor before caller connection verdict)
    (extended : Extends before later) : DecidedFor later caller connection verdict := by
  obtain ⟨point, present, about, with_⟩ := decided
  obtain ⟨_, there, _, respond⟩ := extended caller _ present
  obtain ⟨next, rfl, same⟩ := respond point rfl
  exact ⟨next, there, same ▸ about, same ▸ with_⟩

theorem Effect.Separate.extend {effect : Effect} (separate : effect.Separate before earlier)
    (extended : Extends before later) : effect.Separate later earlier := by
  unfold Effect.Separate at separate ⊢
  split
  · exact separate.imp_left (·.extend extended)
  · exact separate
  · obtain ⟨caller, sent, decided⟩ := separate
    exact ⟨caller, sent, decided.extend extended⟩
  · exact separate.imp_right fun ⟨caller, sent, chosen⟩ => ⟨caller, sent, chosen.extend extended⟩
  · obtain ⟨task, present, owns⟩ := separate
    obtain ⟨moved, there, same, _⟩ := extended _ task present
    exact ⟨moved, there, fun request about => owns request ((same _).symm.trans about)⟩
  · trivial

theorem Answered.extend (answered : Answered before earlier connection decision)
    (extended : Extends before later) (older : earlier <:+ trace) :
    Answered later trace connection decision := by
  cases decision with
  | accept =>
    obtain ⟨caller, sent, decided⟩ := answered
    exact ⟨caller, older.mem sent, decided.extend extended⟩
  | reject =>
    rcases answered with expired | ⟨caller, sent, decided⟩
    · exact .inl (older.mem expired)
    · exact .inr ⟨caller, older.mem sent, decided.extend extended⟩

theorem hasReturned.extend (returned : hasReturned connection earlier) (older : earlier <:+ trace) :
    hasReturned connection trace := by
  obtain ⟨last, member⟩ := returned
  exact ⟨last, older.mem member⟩

theorem Ran.older (ran : Ran pool index choice) : pool.trace <:+ ran.after.trace :=
  ⟨ran.moved.returnEffects index ++ ran.effects, by simp [after]⟩

theorem Call.not_returned (call : Call) : call.start.isReturned = false := by
  cases call <;> rfl

theorem apart_new (deviceId deviceName : String) : Apart (.new deviceId deviceName) where
  own := by simp [TransferCoordinator.new]
  sound := by simp [TransferCoordinator.new]
  registered := registered_new deviceId deviceName
  ceased := by simp [TransferCoordinator.new]
  ended := by simp [TransferCoordinator.new, hasReturned]
  sent := by simp [TransferCoordinator.new, Shared.new]
  dropped := by simp [TransferCoordinator.new, Shared.new]
  answering := by simp [TransferCoordinator.new]
  separate := throughout_nil

theorem owns_of_requestsApart (admitted : requestsApart pool (.call call) = true)
    (engaged : call.start.engages = some id)
    (self : Nat) : creator id pool.trace = call.start.request self := by
  cases call with
  | acceptSession sessionId request | rejectSession sessionId request reason =>
    cases engaged
    exact of_decide_eq_true admitted
  | _ => cases engaged

theorem Apart.called (apart : Apart pool) (admitted : requestsApart pool (.call call) = true) :
    Apart { pool with tasks := pool.tasks ++ [call.start] } := by
  have extended := extends_call pool call
  refine ⟨?_, ?_, apart.registered.called call, ?_, ?_, ?_, apart.dropped, ?_, ?_⟩
  · intro index task id found engaged
    rcases Pool.getElem?_called found with present | ⟨_, rfl⟩
    · exact apart.own index task id present engaged
    · exact owns_of_requestsApart admitted engaged index
  · intro index point found
    rcases Pool.getElem?_called found with present | ⟨_, started⟩
    · exact apart.sound index point present
    · cases call <;> cases started <;> trivial
  · intro index task found returned
    rcases Pool.getElem?_called found with present | ⟨_, rfl⟩
    · exact apart.ceased index task present returned
    · rw [Call.not_returned] at returned
      cases returned
  · intro index returned
    obtain ⟨task, present, done⟩ := apart.ended index returned
    exact ⟨task, kept_by_call present, done⟩
  · intro connection decision sent
    rcases apart.sent connection decision sent with ⟨caller, member, decided⟩ | returned
    · exact .inl ⟨caller, member, decided.extend extended⟩
    · exact .inr returned
  · intro connection request decision found
    rcases Pool.getElem?_called found with present | ⟨_, started⟩
    · exact (apart.answering connection request decision present).extend extended List.suffix_rfl
    · cases call <;> cases started
  · intro effect earlier suffix
    exact (apart.separate effect earlier suffix).extend extended

theorem disengaged_of_requestsApart
    (ran : Ran pool index choice) (admitted : requestsApart pool (.run index choice) = true)
    (creates : ran.access = .session (.create id peerId peerName direction files)) :
    disengaged id pool.tasks = true := by
  have same : Task.access ran.task choice = _ := creates
  simp only [requestsApart, ran.present, Option.map_some, same] at admitted
  exact admitted

theorem creator_kept (ran : Ran pool index choice)
    (admitted : requestsApart pool (.run index choice) = true) {other : Nat}
    (present : pool.tasks[other]? = some task) (engaged : task.engages = some id) :
    creator id ran.after.trace = creator id pool.trace := by
  rcases ran.creator_after id with same | ⟨_, _, _, _, creates, _⟩
  · exact same
  · have nobody := List.all_eq_true.mp (disengaged_of_requestsApart ran admitted creates) task
      (List.mem_of_getElem? present)
    simp [engaged] at nobody

theorem Apart.holder (apart : Apart pool) {holder : Task}
    (present : pool.tasks[connection]? = some holder) (entered : holder.registered = some id) :
    creator id pool.trace = some connection ∨ hasReturned connection pool.trace := by
  cases holder with
  | incomingSession point =>
    cases left : point.footing with
    | none =>
      obtain ⟨_, _, same⟩ := Task.returned_of_registered entered left
      exact .inr (apart.ceased connection _ present (by rw [same]; rfl))
    | some footing =>
      have standing : Task.footing (.incomingSession point) = some footing := left
      have named : footing.sessionId = id := Task.footing_registered standing entered
      have engaged : Task.engages (.incomingSession point) = some id := by
        simp [Task.engages, left, named]
      exact .inl (apart.own connection _ id present engaged)
  | _ => cases entered

theorem Task.engages_of_update {self request : Nat}
    (updates : task.access choice = .session (.updateState id state error))
    (about : task.request self = some request) : task.engages = some id := by
  cases task with
  | incomingSession point =>
    cases point with
    | record => cases updates; rfl
    | wait | write => cases choice <;> cases updates
    | _ => cases updates
  | respondSession point =>
    cases point with
    | record => cases updates; rfl
    | _ => cases updates
  | _ => cases about

theorem Apart.effect_separate (apart : Apart pool) (ran : Ran pool index choice) {effect : Effect}
    (source : effect.From pool.shared index (ran.task.access choice)) :
    effect.Separate pool.tasks pool.trace := by
  have made := ran.task.madeBy choice
  cases effect with
  | decided caller connection =>
    obtain ⟨rfl, sends⟩ := source
    rw [sends] at made
    obtain ⟨response, point⟩ := made
    have present := ran.present
    rw [point] at present
    obtain ⟨holder, there, entered⟩ := apart.registered.taken caller _ response.sessionId
      connection present rfl
    refine (apart.holder there entered).imp_left fun created => ?_
    have owned := apart.own caller _ response.sessionId present rfl
    exact ⟨_, present, Option.some.inj (owned.symm.trans created), (apart.sound caller _ present).symm⟩
  | dropped caller connection =>
    obtain ⟨rfl, id, drops, found⟩ := source
    obtain ⟨_, there, entered⟩ := apart.registered.responders id connection found
    refine (apart.holder there entered).imp_left fun created => ?_
    have engaged : ran.task.engages = some id ∧ ran.task.request caller = some caller := by
      rcases drops with inserts | removes
      · rw [inserts] at made
        obtain ⟨request, point, rfl⟩ := made
        rw [point]
        exact ⟨rfl, rfl⟩
      · rw [removes] at made
        obtain ⟨request, point, rfl⟩ := made
        rw [point]
        exact ⟨rfl, rfl⟩
    have owned := apart.own caller ran.task id ran.present engaged.1
    rw [engaged.2] at owned
    exact Option.some.inj (owned.symm.trans created)
  | wrote connection =>
    obtain ⟨rfl, writes⟩ := source
    rw [writes] at made
    rcases made with ⟨_, _, _, _, rfl⟩ | ⟨request, decision, point, rfl⟩
    · trivial
    · have present := ran.present
      rw [point] at present
      have answered := apart.answering connection request decision present
      cases decision with
      | accept => exact answered
      | reject => exact answered
  | session caller op =>
    obtain ⟨rfl, updates, _⟩ := source
    cases op with
    | updateState id =>
      refine ⟨ran.task, ran.present, fun request about => ?_⟩
      exact (apart.own caller ran.task id ran.present (Task.engages_of_update updates about)).trans about
    | _ => trivial
  | returned => cases source
  | _ => trivial

theorem Apart.running (apart : Apart pool) (ran : Ran pool index choice) :
    ¬ hasReturned index pool.trace := by
  intro returned
  obtain ⟨_, present, done⟩ := apart.ended index returned
  rw [← Option.some.inj (ran.present.symm.trans present), ran.running] at done
  cases done

theorem IncomingSession.resume_to_write {point : IncomingSession}
    (resumed : point.resume reply choice = some (.write request decision)) :
    point = .wait request ∧ (reply = .decision (.sent decision) ∨ reply = .decision .dropped ∨
      (choice = .timeout ∧ ∃ reason, decision = .reject reason)) := by
  cases moves_of_resume resumed with
  | decided => exact ⟨rfl, .inl rfl⟩
  | dropped => exact ⟨rfl, .inr (.inl rfl)⟩
  | timedOut => exact ⟨rfl, .inr (.inr ⟨rfl, _, rfl⟩)⟩

theorem Apart.after_answering (apart : Apart pool) (ran : Ran pool index choice)
    {decision : Decision}
    (moved : ran.moved = .incomingSession (.write request decision)) :
    Answered ran.after.tasks ran.after.trace index decision := by
  have resumed := ran.resumed
  rw [moved] at resumed
  cases acted : ran.task with
  | incomingSession =>
    rw [acted] at resumed
    obtain ⟨next, waited, same⟩ := Option.map_eq_some_iff.mp resumed
    cases same
    obtain ⟨rfl, how⟩ := IncomingSession.resume_to_write waited
    have channel (state : Oneshot) (replied : ran.reply = .decision state) :
        pool.shared.oneshots index = state := by
      have reads := (perform_reply ran.performed).2 state replied
      have same := perform_receive (reads ▸ ran.performed)
      exact (Reply.decision.inj (replied.symm.trans same)).symm
    rcases how with sent | dropped | ⟨rfl, reason, rfl⟩
    · rcases apart.sent index decision (channel _ sent) with ⟨caller, member, decided⟩ | returned
      · have answered : Answered pool.tasks pool.trace index decision := by
          cases decision with
          | accept => exact ⟨caller, member, decided⟩
          | reject => exact .inr ⟨caller, member, decided⟩
        exact answered.extend ran.extends ran.older
      · exact absurd returned (apart.running ran)
    · exact absurd (apart.dropped index (channel _ dropped)) (apart.running ran)
    · have expires : ran.task.access .timeout = .expire := by rw [acted]; rfl
      have effects := perform_expire (expires ▸ ran.performed)
      refine .inl ?_
      unfold Ran.after
      simp [effects]
  | _ =>
    rw [acted] at resumed
    obtain ⟨_, _, same⟩ := Option.map_eq_some_iff.mp resumed
    cases same

theorem Apart.after_sent (apart : Apart pool) (ran : Ran pool index choice)
    (sent : ran.shared.oneshots connection = .sent decision) :
    (∃ caller, .decided caller connection decision ∈ ran.after.trace ∧
      DecidedFor ran.after.tasks caller connection decision.verdict) ∨
        hasReturned connection ran.after.trace := by
  rcases perform_oneshots ran.performed connection with unchanged | ⟨_, sends, changed⟩
    | ⟨_, _, _, changed⟩
  · rcases apart.sent connection decision
      (unchanged.symm.trans sent) with ⟨caller, member, decided⟩ | returned
    · exact .inl ⟨caller, ran.older.mem member, decided.extend ran.extends⟩
    · exact .inr (returned.extend ran.older)
  · cases Oneshot.sent.inj (changed.symm.trans sent)
    have source : Effect.From pool.shared index (ran.task.access choice)
        (.decided index connection decision) :=
      ⟨rfl, sends⟩
    have effects := perform_send (sends ▸ ran.performed)
    rcases apart.effect_separate ran source with decided | returned
    · refine .inl ⟨index, ?_, decided.extend ran.extends⟩
      unfold Ran.after
      simp [effects]
    · exact .inr (returned.extend ran.older)
  · rw [changed] at sent
    cases sent

theorem Apart.after_dropped (apart : Apart pool) (ran : Ran pool index choice)
    (dropped : ran.shared.oneshots connection = .dropped) :
    hasReturned connection ran.after.trace := by
  rcases perform_oneshots ran.performed connection with unchanged | ⟨_, _, changed⟩
    | ⟨id, drops, found, _⟩
  · exact (apart.dropped connection (unchanged.symm.trans dropped)).extend ran.older
  · rw [changed] at dropped
    cases dropped
  · have source : Effect.From pool.shared index (ran.task.access choice) (.dropped index connection) :=
      ⟨rfl, id, drops, found⟩
    rcases apart.effect_separate ran source with rfl | returned
    · have made := ran.task.madeBy choice
      have resumed := ran.resumed
      rcases drops with inserts | removes
      · -- a connection that is just registering is not in the map yet
        rw [inserts] at made
        obtain ⟨request, point, rfl⟩ := made
        obtain ⟨_, there, entered⟩ := apart.registered.responders _ _ found
        cases ran.present.symm.trans there
        rw [point] at entered
        cases entered
      · rw [removes] at made
        obtain ⟨_, point, rfl⟩ := made
        rw [point] at resumed
        obtain ⟨_, cleaned, same⟩ := Option.map_eq_some_iff.mp resumed
        obtain ⟨_, _, rfl⟩ := IncomingSession.returned_of_cleanup cleaned
        refine ⟨ran.moved, ?_⟩
        unfold Ran.after Task.returnEffects
        rw [← same]
        exact List.mem_append_left _ (List.mem_singleton_self _)
    · exact returned.extend ran.older

theorem Apart.after_separate (apart : Apart pool) (ran : Ran pool index choice) :
    Separate ran.after := by
  have older : Throughout (fun effect earlier => effect.Separate ran.after.tasks earlier) pool.trace :=
    fun effect earlier suffix => (apart.separate effect earlier suffix).extend ran.extends
  exact ran.throughout_after older
    (fun _ source => (apart.effect_separate ran source).extend ran.extends) trivial

theorem Task.respond_of_moved
    (resumed : task.resume reply choice = some (.respondSession point)) :
    ∃ old, task = .respondSession old ∧ old.resume reply choice = some point := by
  cases task with
  | respondSession old =>
    obtain ⟨next, ran, same⟩ := Option.map_eq_some_iff.mp resumed
    cases same
    exact ⟨old, rfl, ran⟩
  | _ =>
    obtain ⟨_, _, same⟩ := Option.map_eq_some_iff.mp resumed
    cases same

theorem Ran.creator_of_create (ran : Ran pool index choice)
    (point : ran.task = .incomingSession (.create request)) :
    creator request.sessionId ran.after.trace = some index := by
  have creates : ran.task.access choice = .session (.create request.sessionId request.sourceDeviceId
      request.sourceDeviceName .download request.files) := by rw [point]; rfl
  obtain ⟨_, _, effects⟩ := perform_session (creates ▸ ran.performed)
  unfold after
  rw [creator_append_silent (silent_returnEffects _), effects]
  exact if_pos rfl

theorem Apart.turned (apart : Apart pool) (ran : Ran pool index choice)
    (admitted : requestsApart pool (.run index choice) = true) : Apart ran.after where
  own other task id found engaged := by
    rcases Pool.getElem?_turned found with ⟨rfl, rfl⟩ | ⟨_, there⟩ | ⟨_, new⟩
    · rw [Task.request_resume ran.resumed]
      rcases Task.engages_resume ran.resumed engaged with before | ⟨request, point, rfl⟩
      · rw [creator_kept ran admitted ran.present before]
        exact apart.own other ran.task id ran.present before
      · rw [ran.creator_of_create point, point]
        rfl
    · rw [creator_kept ran admitted there engaged]
      exact apart.own other task id there engaged
    · obtain ⟨upload, rfl⟩ := Task.spawned_upload (List.mem_of_getElem? new)
      cases engaged
  sound other point found := by
    rcases Pool.getElem?_turned found with ⟨rfl, moved⟩ | ⟨_, there⟩ | ⟨_, new⟩
    · obtain ⟨old, acted, resumed⟩ := Task.respond_of_moved (moved ▸ ran.resumed)
      exact RespondSession.sound_resume resumed (apart.sound other old (acted ▸ ran.present))
    · exact apart.sound other point there
    · obtain ⟨upload, same⟩ := Task.spawned_upload (List.mem_of_getElem? new)
      cases same
  registered := apart.registered.turned ran
  ceased other task found returned := by
    rcases Pool.getElem?_turned found with ⟨rfl, rfl⟩ | ⟨_, there⟩ | ⟨_, new⟩
    · refine ⟨ran.moved, List.mem_append_left _ ?_⟩
      simp [Task.returnEffects, returned]
    · exact (apart.ceased other task there returned).extend ran.older
    · obtain ⟨upload, rfl⟩ := Task.spawned_upload (List.mem_of_getElem? new)
      cases returned
  ended other returned := by
    obtain ⟨last, member⟩ := returned
    rcases ran.mem_trace member with ⟨ending, ceased⟩ | source | old
    · cases ending
      exact ⟨ran.moved, Pool.getElem?_moved ran.present, ceased⟩
    · cases source
    · obtain ⟨task, present, ceased⟩ := apart.ended other ⟨last, old⟩
      rcases ran.stays present with ⟨rfl, _, _⟩ | ⟨_, there⟩
      · exact absurd ⟨last, old⟩ (apart.running ran)
      · exact ⟨task, there, ceased⟩
  sent _ _ sent := apart.after_sent ran sent
  dropped _ dropped := apart.after_dropped ran dropped
  answering other request decision found := by
    rcases Pool.getElem?_turned found with ⟨rfl, moved⟩ | ⟨_, there⟩ | ⟨_, new⟩
    · exact apart.after_answering ran moved.symm
    · exact (apart.answering other request decision there).extend ran.extends ran.older
    · obtain ⟨_, same⟩ := Task.spawned_upload (List.mem_of_getElem? new)
      cases same
  separate := apart.after_separate ran

/-- Two requests under one id do not touch each other's decision when the second is
created only after the first is over, and each call is about the latest request. -/
theorem requests_separate (run : Execution step (fun pool label => requestsApart pool label = true)
    (.new deviceId deviceName) labels pool) : Separate pool := by
  refine (run.invariant Apart ?_ (apart_new deviceId deviceName)).separate
  intro _ _ _ apart admitted taken
  rcases step_cases taken with ⟨_, rfl, rfl⟩ | ⟨_, _, rfl, ran, rfl⟩
  · exact apart.called admitted
  · exact apart.turned ran admitted

/-- A request runs into its timeout; a second one under the same id is accepted. -/
def successiveRun : List Label :=
  ([.call .connection, .call .connection] : List Label) ++ requested 0 ++
    turns 0 ([Choice.timeout] ++ List.replicate 4 Choice.proceed) ++ requested 1 ++
    ([.call (.acceptSession "s" 1)] : List Label) ++ turns 2 (List.replicate 6 .proceed) ++
    turns 1 (List.replicate 5 .proceed)

/-- The connections that were answered, the latest first, with whether it was an Accept. -/
def answers (trace : List Effect) : List (Nat × Bool) :=
  trace.filterMap fun
    | .wrote connection (.accept _) => some (connection, true)
    | .wrote connection (.reject _) => some (connection, false)
    | _ => none

theorem requests_separate_successive : ∃ pool,
    Execution step (fun pool label => requestsApart pool label = true)
      (.new "a" "laptop") successiveRun pool ∧
      answers pool.trace = [(1, true), (0, false)] ∧ Separate pool := by
  obtain ⟨pool, run, good⟩ := exists_execution (fun pool => answers pool.trace = [(1, true), (0, false)])
    (show (replayWhere step requestsApart (.new "a" "laptop") successiveRun).any _ = true from rfl)
  exact ⟨pool, run, of_decide_eq_true good, requests_separate run⟩

/-- Nobody has decided anything and no timeout has expired. -/
def undecided (trace : List Effect) : Bool :=
  trace.all fun
    | .decided .. => false
    | .timedOut _ => false
    | _ => true

/-- The second request overwrites the first one's responder: the first is rejected, fails
the second's session, and on its way out removes the second's responder. -/
def simultaneousRun : List Label :=
  [.call .connection, .call .connection] ++ requested 0 ++ requested 1 ++ turns 0
  (List.replicate 5 .proceed) ++
    turns 1 (List.replicate 2 .proceed)

theorem simultaneous_not_separate :
    ∃ pool, Execution step anything (.new "a" "laptop") simultaneousRun pool ∧
    answers pool.trace = [(1, false), (0, false)] ∧ undecided pool.trace = true ∧
    ¬ Separate pool := by
  obtain ⟨pool, played, good⟩ := (Option.any_eq_true _ _).mp
    (show (replay step (.new "a" "laptop") simultaneousRun).any (fun pool =>
      answers pool.trace = [(1, false), (0, false)] ∧ undecided pool.trace = true) = true from rfl)
  obtain ⟨answered, nobody⟩ := of_decide_eq_true good
  refine ⟨pool, execution_iff_replay.mpr played, answered, nobody, fun separate => ?_⟩
  have member : (0, false) ∈ answers pool.trace := by simp [answered]
  obtain ⟨effect, written, wrote⟩ := List.mem_filterMap.mp member
  obtain ⟨later, earlier, split_⟩ := List.append_of_mem written
  have here := separate effect earlier ⟨later, split_.symm⟩
  have none_ (effect : Effect) (old : effect ∈ earlier) := List.all_eq_true.mp nobody effect
    (split_ ▸ List.mem_append_right _ (List.mem_cons_of_mem _ old))
  split at wrote
  · cases wrote
  · rcases here with expired | ⟨_, decided, _⟩
    · cases none_ _ expired
    · cases none_ _ decided
  · cases wrote

end DistributedOs.Coordinator
