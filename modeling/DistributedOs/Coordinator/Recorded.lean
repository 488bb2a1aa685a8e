import DistributedOs.Coordinator.System

/-! The recorded state of a session, read off the trace. The manager forgets an ended
session once 100 others have ended after it; the trace does not, and the two agree
wherever the manager still has the session. -/

namespace DistributedOs.Coordinator

open Semantics DistributedOs.Session SessionManager

def recorded (id : String) : List Effect → Option SessionState
  | [] => none
  | .session _ (.create created ..) _ :: earlier =>
    if created = id then some .handshaking else recorded id earlier
  | .session _ (.updateState updated state _) true :: earlier =>
    if updated = id then some state else recorded id earlier
  | _ :: earlier => recorded id earlier

/-- The task that created the session of that id, the latest if there are several. -/
def creator (id : String) : List Effect → Option Nat
  | [] => none
  | .session caller (.create created ..) _ :: earlier =>
    if created = id then some caller else creator id earlier
  | _ :: earlier => creator id earlier

def Effect.creates (id : String) : Effect → Bool
  | .session _ (.create created ..) _ => created = id
  | _ => false

/-- The state `update_state` finds: ended sessions have left the active map. -/
def openState (id : String) (trace : List Effect) : Option SessionState :=
  (recorded id trace).filter fun state => !state.isTerminal

variable {id other : String} {trace effects : List Effect} {manager : SessionManager}
  {op : SessionOp}
variable {pool : TransferCoordinator} {shared next : Shared} {access : Access} {reply : Reply}
  {self : Nat}

def Effect.silent : Effect → Bool
  | .session _ (.create ..) _ => false
  | .session _ (.updateState ..) true => false
  | _ => true

theorem recorded_cons_silent (silent : effect.silent = true) :
    recorded id (effect :: trace) = recorded id trace := by
  unfold Effect.silent at silent
  split at silent
  · cases silent
  · cases silent
  · rename_i notCreate notUpdate
    rw [recorded]
    · exact notCreate
    · exact notUpdate

theorem recorded_append_silent (silent : ∀ effect ∈ effects, effect.silent = true) :
    recorded id (effects ++ trace) = recorded id trace := by
  induction effects with
  | nil => rfl
  | cons effect _ ih =>
    rw [List.cons_append, recorded_cons_silent (silent effect List.mem_cons_self)]
    exact ih fun effect member => silent effect (List.mem_cons_of_mem _ member)

theorem creator_append_silent (silent : ∀ effect ∈ effects, effect.silent = true) :
    creator id (effects ++ trace) = creator id trace := by
  induction effects with
  | nil => rfl
  | cons effect _ ih =>
    have here := silent effect List.mem_cons_self
    rw [List.cons_append, creator]
    · exact ih fun effect member => silent effect (List.mem_cons_of_mem _ member)
    · intro _ _ _ _ _ _ _ same
      rw [same] at here
      cases here

theorem silent_returnEffects
    (task : Task) : ∀ effect ∈ task.returnEffects self, effect.silent = true := by
  intro _ member
  unfold Task.returnEffects at member
  split at member
  · cases List.mem_singleton.mp member
    rfl
  · cases member

/-- Only a session access touches the session manager or records anything. -/
theorem perform_silent (notSession : ∀ op, access ≠ .session op)
    (performed : shared.perform self access = some (reply, next, effects)) :
    next.sessions = shared.sessions ∧ ∀ effect ∈ effects, effect.silent = true := by
  cases access <;> simp only [Shared.perform] at performed
  case session op => exact absurd rfl (notSession op)
  case emit event =>
    cases performed
    refine ⟨rfl, fun effect member => ?_⟩
    split at member
    · cases List.mem_singleton.mp member
      rfl
    · cases member
  case emitEvent event =>
    cases performed
    refine ⟨rfl, fun effect member => ?_⟩
    split at member
    · cases List.mem_singleton.mp member
      rfl
    · cases member
  case insertResponder id | removeResponder id =>
    split at performed
    · cases performed
    · cases performed
      refine ⟨rfl, fun effect member => ?_⟩
      unfold Shared.dropEffects at member
      split at member
      · cases List.mem_singleton.mp member
        rfl
      · cases member
  case takeResponder id | lockEngine =>
    split at performed
    · cases performed
    · cases performed
      exact ⟨rfl, by simp⟩
  all_goals
    cases performed
    exact ⟨rfl, by simp [Effect.silent]⟩

theorem perform_session (performed : shared.perform self (.session op) =
      some (reply, next, effects)) :
    next = { shared with sessions := op.apply shared.sessions } ∧
      reply = SessionOp.reply shared.sessions op ∧
      effects = [.session self op (SessionOp.admitted shared.sessions op)] := by
  cases performed
  exact ⟨rfl, rfl, rfl⟩

/-- The manager and the trace tell the same story. -/
structure Ledger (manager : SessionManager) (trace : List Effect) : Prop where
  open_state : ∀ id, (manager.active.lookup id).map TransferSession.state = openState id trace
  keyed : ∀ id session, manager.active.lookup id = some session → session.id = id
  history_created : ∀ session ∈ manager.history, recorded session.id trace ≠ none
  history_state : ∀ session ∈ manager.history, trace.countP (Effect.creates session.id) ≤ 1 →
    recorded session.id trace = some session.state ∧ session.state.isTerminal = true
  created : ∀ id, recorded id trace ≠ none → 1 ≤ trace.countP (Effect.creates id)

theorem ledger_new (maxHistory : Nat) : Ledger (.new maxHistory) [] where
  open_state := by simp [SessionManager.new, openState, recorded]
  keyed := by simp [SessionManager.new]
  history_created := by simp [SessionManager.new]
  history_state := by simp [SessionManager.new]
  created := by simp [recorded]

theorem countP_creates_silent (silent : ∀ effect ∈ effects, effect.silent = true) :
    (effects ++ trace).countP (Effect.creates id) = trace.countP (Effect.creates id) := by
  have none : effects.countP (Effect.creates id) = 0 := by
    refine List.countP_eq_zero.mpr fun effect member => ?_
    have here := silent effect member
    unfold Effect.creates
    split
    · cases here
    · simp
  rw [List.countP_append, none, Nat.zero_add]

theorem Ledger.silent (ledger : Ledger manager trace)
    (silent : ∀ effect ∈ effects, effect.silent = true) :
    Ledger manager (effects ++ trace) where
  open_state id := by rw [ledger.open_state, openState, openState, recorded_append_silent silent]
  keyed := ledger.keyed
  history_created session member := by
    rw [recorded_append_silent silent]
    exact ledger.history_created session member
  history_state session member once := by
    rw [countP_creates_silent silent] at once
    rw [recorded_append_silent silent]
    exact ledger.history_state session member once
  created id present := by
    rw [recorded_append_silent silent] at present
    rw [countP_creates_silent silent]
    exact ledger.created id present

/-- `update_state` moves the recorded state exactly when the table has the transition. -/
theorem Ledger.admitted_updateState (ledger : Ledger manager trace) (id : String)
    (state : SessionState) (error : Option String) :
    (manager.updateState id state error).1 =
      (recorded id trace).any (validTransition · state) := by
  have story := ledger.open_state id
  unfold openState at story
  cases found : manager.active.lookup id with
  | none =>
    rw [found] at story
    have refused : (manager.updateState id state error).1 = false := by simp [updateState, found]
    rw [refused]
    cases known : recorded id trace with
    | none => rfl
    | some current =>
      cases valid : validTransition current state with
      | false => simp [valid]
      | true =>
        rw [known] at story
        simp [Option.filter, validTransition_from valid] at story
  | some session =>
    rw [found] at story
    obtain ⟨known, _⟩ := Option.filter_eq_some_iff.mp story.symm
    rw [known]
    cases valid : validTransition session.state state <;> cases terminal : state.isTerminal <;>
      simp [updateState, found, valid, terminal]

/-- Changes to a session that keep its id and its state leave no mark. -/
theorem Ledger.modify (ledger : Ledger manager trace) (change : TransferSession → TransferSession)
    (sameId : ∀ session, (change session).id = session.id)
    (sameState : ∀ session, (change session).state = session.state) :
    Ledger (manager.modify id change) trace where
  open_state other := by
    rw [lookup_modify, ← ledger.open_state other]
    split
    · rename_i same
      rw [same, Option.map_map]
      congr 1
      exact funext sameState
    · rfl
  keyed other session found := by
    rw [lookup_modify] at found
    split at found
    · rename_i same
      obtain ⟨before, present, rfl⟩ := Option.map_eq_some_iff.mp found
      rw [sameId, ledger.keyed id before present, same]
    · exact ledger.keyed other session found
  history_created := by simpa only [history_modify] using ledger.history_created
  history_state := by simpa only [history_modify] using ledger.history_state
  created := ledger.created

theorem Ledger.create (ledger : Ledger manager trace) (session : TransferSession)
    (handshaking : session.state = .handshaking) (peerId peerName : String)
    (direction : TransferDirection) (files : List FileMeta) (admitted : Bool) :
    Ledger (manager.create session)
      (.session self (.create session.id peerId peerName direction files) admitted :: trace) where
  open_state other := by
    rw [lookup_create, openState, recorded]
    split
    · rename_i same
      simp [same, handshaking, Option.filter, SessionState.isTerminal]
    · rename_i different
      rw [if_neg (Ne.symm different)]
      exact ledger.open_state other
  keyed other found present := by
    rw [lookup_create] at present
    split at present
    · rename_i same
      cases present
      exact same.symm
    · exact ledger.keyed other found present
  history_created ended member := by
    rw [recorded]
    split
    · simp
    · exact ledger.history_created ended member
  history_state ended member once := by
    have before := ledger.created _ (ledger.history_created ended member)
    rw [List.countP_cons] at once
    by_cases same : session.id = ended.id
    · simp only [Effect.creates, same, decide_true, ↓reduceIte] at once
      omega
    · rw [recorded, if_neg same]
      exact ledger.history_state ended member (by omega)
  created other present := by
    rw [List.countP_cons]
    by_cases same : session.id = other
    · simp [Effect.creates, same]
    · rw [recorded, if_neg same] at present
      exact Nat.le_add_right_of_le (ledger.created other present)

theorem recorded_cons_admitted :
    recorded other (.session self (.updateState id state error) true :: trace) =
      if id = other then some state else recorded other trace := rfl

theorem Ledger.known {session : TransferSession} (ledger : Ledger manager trace)
    (found : manager.active.lookup id = some session) :
    recorded id trace = some session.state ∧ session.state.isTerminal = false := by
  have story := ledger.open_state id
  rw [found] at story
  obtain ⟨known, ongoing⟩ := Option.filter_eq_some_iff.mp story.symm
  exact ⟨known, by simpa using ongoing⟩

theorem Ledger.inactive (ledger : Ledger manager trace) (known : recorded id trace = some state)
    (terminal : state.isTerminal = true) : manager.active.lookup id = none := by
  refine Option.eq_none_iff_forall_ne_some.mpr fun session found => ?_
  obtain ⟨open', ongoing⟩ := ledger.known found
  cases known.symm.trans open'
  rw [terminal] at ongoing
  cases ongoing

theorem Ledger.updateState (ledger : Ledger manager trace) (id : String) (state : SessionState)
    (error : Option String) :
    Ledger (manager.updateState id state error).2
      (.session self (.updateState id state error)
        (manager.updateState id state error).1 :: trace) := by
  have counts (other : String) (admitted : Bool) :
      (Effect.session self (.updateState id state error) admitted :: trace).countP
      (Effect.creates other) =
        trace.countP (Effect.creates other) := by simp [Effect.creates]
  rcases updateState_cases manager id state error with
    ⟨refused, _⟩ | ⟨session, found, valid, moved⟩
  · rw [refused]
    have quiet : ∀ effect ∈ [Effect.session self (.updateState id state error) false],
        effect.silent = true := by
      simp [Effect.silent]
    exact ledger.silent quiet
  · obtain ⟨known, ongoing⟩ := ledger.known found
    have created (other : String) (present : recorded other
        (.session self (.updateState id state error) true :: trace) ≠ none) :
        1 ≤ (Effect.session self (.updateState id state error) true :: trace).countP
          (Effect.creates other) := by
      rw [counts]
      rw [recorded_cons_admitted] at present
      split at present
      · rename_i same
        subst same
        exact ledger.created id (by simp [known])
      · exact ledger.created other present
    have stillCreated : ∀ ended ∈ manager.history,
        recorded ended.id (.session self (.updateState id state error) true :: trace) ≠ none := by
      intro ended member
      rw [recorded_cons_admitted]
      split
      · simp
      · exact ledger.history_created ended member
    have stillEnded : ∀ ended ∈ manager.history,
        (Effect.session self (.updateState id state error) true :: trace).countP
        (Effect.creates ended.id) ≤ 1 →
        recorded ended.id (.session self (.updateState id state error) true :: trace) =
        some ended.state ∧
          ended.state.isTerminal = true := by
      intro ended member once
      rw [counts] at once
      obtain ⟨earlier, ceased⟩ := ledger.history_state ended member once
      rw [recorded_cons_admitted, if_neg, earlier]
      · exact ⟨rfl, ceased⟩
      · rintro rfl
        rw [known] at earlier
        rw [← Option.some.inj earlier, ongoing] at ceased
        cases ceased
    rcases moved with ⟨stays, moved⟩ | ⟨ends, moved⟩
    · -- the session stays in the active map, in its new state
      rw [moved]
      refine ⟨fun other => ?_, fun other left present => ?_, stillCreated, stillEnded, created⟩
      · rw [openState, recorded_cons_admitted]
        by_cases same : id = other
        · subst same
          simp [Option.filter, stays]
        · rw [if_neg same, AList.lookup_insert_ne (Ne.symm same)]
          exact ledger.open_state other
      · by_cases same : other = id
        · subst same
          rw [AList.lookup_insert] at present
          cases present
          exact ledger.keyed other session found
        · rw [AList.lookup_insert_ne same] at present
          exact ledger.keyed other left present
    · -- the session leaves the map and becomes the newest entry of the history
      rw [moved, trimHistory_eq_drop]
      have newest : ∀ ended ∈ (manager.history ++ [{ session with state, error }]).drop
          ((manager.history ++ [{ session with state, error }]).length - manager.maxHistory),
          ended ∈ manager.history ∨ ended = { session with state, error } :=
        fun ended member => by simpa using List.mem_of_mem_drop member
      have sameId : session.id = id := ledger.keyed id session found
      refine ⟨fun other => ?_, fun other left present => ?_, fun ended member =>
        ?_, fun ended member once => ?_, created⟩
      · rw [openState, recorded_cons_admitted]
        by_cases same : id = other
        · subst same
          simp [Option.filter, ends]
        · rw [if_neg same, AList.lookup_erase_ne (Ne.symm same)]
          exact ledger.open_state other
      · by_cases same : other = id
        · rw [same, AList.lookup_erase] at present
          cases present
        · rw [AList.lookup_erase_ne same] at present
          exact ledger.keyed other left present
      · rcases newest ended member with earlier | rfl
        · exact stillCreated ended earlier
        · simp [recorded_cons_admitted, sameId]
      · rcases newest ended member with earlier | rfl
        · exact stillEnded ended earlier once
        · simp [recorded_cons_admitted, sameId, ends]

theorem Ledger.session (ledger : Ledger manager trace) (op : SessionOp) :
    Ledger (op.apply manager) (.session self op (SessionOp.admitted manager op) :: trace) := by
  have changed (silent : (Effect.session self op true).silent = true) (id : String)
      (change : TransferSession → TransferSession) (sameId : ∀ session, (change session).id = session.id)
      (sameState : ∀ session, (change session).state = session.state) :
      Ledger (manager.modify id change) (.session self op true :: trace) := by
    have quiet : ∀ effect ∈ [Effect.session self op true], effect.silent = true := by simpa using silent
    exact (ledger.modify change sameId sameState).silent quiet
  cases op with
  | create _ peerId peerName direction files =>
    exact ledger.create _ rfl peerId peerName direction files true
  | updateState id state error => exact ledger.updateState id state error
  | updateProgress id => exact changed rfl id _ (fun _ => rfl) (fun _ => rfl)
  | setRemoteCaps id => exact changed rfl id _ (fun _ => rfl) (fun _ => rfl)
  | updateFileProgress id => exact changed rfl id _ (fun _ => rfl) (fun _ => rfl)
  | setFiles id => exact changed rfl id _ (fun _ => rfl) (fun _ => rfl)

/-- The recorded state of an id after an access, from the recorded states before it. -/
def Access.records (known : String → Option SessionState)
    (id : String) : Access → Option SessionState
  | .session (.create created ..) => if created = id then some .handshaking else known id
  | .session (.updateState updated state _) =>
    if updated = id ∧ (known id).any (validTransition · state) then some state else known id
  | _ => known id

theorem recorded_perform (ledger : Ledger shared.sessions trace)
    (performed : shared.perform self access = some (reply, next, effects)) (id : String) :
    recorded id (effects ++ trace) = access.records (recorded · trace) id := by
  cases access
  case session op =>
    obtain ⟨_, _, rfl⟩ := perform_session performed
    cases op with
    | create => rfl
    | updateState updated state error =>
      have moves := ledger.admitted_updateState updated state error
      simp only [SessionOp.admitted, moves, Access.records, List.singleton_append]
      by_cases same : updated = id
      · subst same
        cases allowed : (recorded updated trace).any (validTransition · state) <;> simp [recorded]
      · cases allowed : (recorded updated trace).any (validTransition · state) <;> simp [recorded, same]
    | _ => rfl
  all_goals
    obtain ⟨_, silent⟩ := perform_silent (by simp) performed
    exact recorded_append_silent silent

theorem recorded_perform_ne_none (ledger : Ledger shared.sessions trace)
    (performed : shared.perform self access = some (reply, next, effects))
    (known : recorded id trace ≠ none) : recorded id (effects ++ trace) ≠ none := by
  rw [recorded_perform ledger performed]
  unfold Access.records
  split
  · split <;> simp [known]
  · split <;> simp [known]
  · exact known

theorem Ledger.perform (ledger : Ledger shared.sessions trace)
    (performed : shared.perform self access = some (reply, next, effects)) :
    Ledger next.sessions (effects ++ trace) := by
  cases access
  case session op =>
    obtain ⟨rfl, _, rfl⟩ := perform_session performed
    exact ledger.session op
  all_goals
    obtain ⟨same, silent⟩ := perform_silent (by simp) performed
    rw [same]
    exact ledger.silent silent

theorem Ran.recorded_after (ran : Ran pool index choice)
    (ledger : Ledger pool.shared.sessions pool.trace) (id : String) :
    recorded id ran.after.trace = ran.access.records (recorded · pool.trace) id := by
  unfold after
  rw [recorded_append_silent (silent_returnEffects _), recorded_perform ledger ran.performed]
  rfl

theorem Ran.creator_after (ran : Ran pool index choice) (id : String) :
    creator id ran.after.trace = creator id pool.trace ∨
      ∃ peerId peerName direction files,
        ran.access = .session (.create id peerId peerName direction files) ∧
        creator id ran.after.trace = some index := by
  unfold after
  rw [creator_append_silent (silent_returnEffects _)]
  cases accessed : ran.task.access choice
  case session op =>
    obtain ⟨_, _, made⟩ := perform_session (accessed ▸ ran.performed)
    rw [made]
    cases op with
    | create created peerId peerName direction files =>
      by_cases same : created = id
      · subst same
        exact .inr ⟨peerId, peerName, direction, files, accessed, if_pos rfl⟩
      · exact .inl (if_neg same)
    | _ => exact .inl rfl
  all_goals
    obtain ⟨_, silent⟩ := perform_silent (by simp) (accessed ▸ ran.performed)
    exact .inl (creator_append_silent silent)

end DistributedOs.Coordinator
