import DistributedOs.Session.Manager

/-! What holds of the session manager after any sequence of operations. Ids are
chosen by remote peers and `create` inserts whatever id it is given, so an ended
session comes back to life exactly when its id is created again. -/

namespace DistributedOs.Session

open SessionManager

inductive SessionOp where
  | create (id peerId peerName : String) (direction : TransferDirection) (files : List FileMeta)
  | updateState (id : String) (state : SessionState) (error : Option String)
  | updateProgress (id : String) (progress : TransferProgress)
  | setRemoteCaps (id capsJson : String)
  | updateFileProgress (id fileId : String) (bytesSent : UInt64) (completed : Bool)
  | setFiles (id : String) (files : List FileMeta)
  deriving DecidableEq

def SessionOp.apply (manager : SessionManager) : SessionOp → SessionManager
  | .create id peerId peerName direction files =>
    manager.create ((TransferSession.new id peerId peerName direction).withFiles files)
  | .updateState id state error => (manager.updateState id state error).2
  | .updateProgress id progress => manager.updateProgress id progress
  | .setRemoteCaps id capsJson => manager.setRemoteCaps id capsJson
  | .updateFileProgress id fileId bytesSent completed =>
    manager.updateFileProgress id fileId bytesSent completed
  | .setFiles id files => manager.setFiles id files

/-- The session an operation ends in this manager, with the terminal state it reaches. -/
def SessionOp.ends (manager : SessionManager) : SessionOp → List (String × SessionState)
  | .updateState id state error =>
    if (manager.updateState id state error).1 && state.isTerminal then [(id, state)] else []
  | _ => []

/-- A manager and, oldest first, the sessions that have ended so far. -/
structure ManagerRun where
  manager : SessionManager
  ended : List (String × SessionState)

namespace ManagerRun

def start (maxHistory : Nat) : ManagerRun := { manager := .new maxHistory, ended := [] }

def step (run : ManagerRun) (op : SessionOp) : ManagerRun :=
  { manager := op.apply run.manager, ended := run.ended ++ op.ends run.manager }

def after (maxHistory : Nat) (ops : List SessionOp) : ManagerRun :=
  ops.foldl step (start maxHistory)

/-- The id has not ended before: what `create` would have to check. -/
def fresh (run : ManagerRun) : SessionOp → Prop
  | .create id .. => id ∉ run.ended.map Prod.fst
  | _ => True

/-- What the two collections promise together. -/
structure Settled (run : ManagerRun) : Prop where
  active_open : ∀ session ∈ run.manager.listActive, session.state.isTerminal = false
  history_ended : ∀ session ∈ run.manager.listHistory, session.state.isTerminal = true
  ids_unique : ((run.manager.listActive ++ run.manager.listHistory).map TransferSession.id).Nodup
  ended_final : ∀ id state, (id, state) ∈ run.ended →
    ∀ session, run.manager.get id = some session → session.state = state
  history_bounded : run.manager.listHistory.length ≤ run.manager.maxHistory
  oldest_dropped : run.manager.listHistory.map (fun session => (session.id, session.state)) =
    run.ended.drop (run.ended.length - run.manager.maxHistory)

/-- The inductive invariant, on lookups. -/
structure Kept (run : ManagerRun) : Prop where
  keyed : ∀ id session, run.manager.active.lookup id = some session → session.id = id
  active_open : ∀ id session, run.manager.active.lookup id = some session →
    session.state.isTerminal = false
  ended_terminal : ∀ entry ∈ run.ended, entry.2.isTerminal = true
  ended_once : (run.ended.map Prod.fst).Nodup
  ended_inactive : ∀ entry ∈ run.ended, run.manager.active.lookup entry.1 = none
  oldest_dropped : run.manager.history.map (fun session => (session.id, session.state)) =
    run.ended.drop (run.ended.length - run.manager.maxHistory)

variable {run : ManagerRun} {op : SessionOp} {session : TransferSession}

theorem kept_start (maxHistory : Nat) : Kept (start maxHistory) where
  keyed := by simp [start, SessionManager.new]
  active_open := by simp [start, SessionManager.new]
  ended_terminal := by simp [start]
  ended_once := by simp [start]
  ended_inactive := by simp [start]
  oldest_dropped := by simp [start, SessionManager.new]

/-- An update that keeps every id and ends no session keeps the invariant. -/
theorem Kept.modify (kept : Kept run) (id : String) (change : TransferSession → TransferSession)
    (sameId : ∀ session, (change session).id = session.id)
    (stays : ∀ session, session.state.isTerminal = false →
      (change session).state.isTerminal = false) :
    Kept { run with manager := run.manager.modify id change } := by
  have origin : ∀ other session, (run.manager.modify id change).active.lookup other = some session →
      ∃ before, run.manager.active.lookup other = some before ∧ session.id = before.id ∧
        (before.state.isTerminal = false → session.state.isTerminal = false) := by
    intro other session found
    rw [lookup_modify] at found
    split at found
    · rename_i same
      obtain ⟨before, present, rfl⟩ := Option.map_eq_some_iff.mp found
      exact ⟨before, same ▸ present, sameId before, stays before⟩
    · exact ⟨session, found, rfl, fun open_ => open_⟩
  refine ⟨?_, ?_, kept.ended_terminal, kept.ended_once, ?_, ?_⟩
  · intro other session found
    obtain ⟨before, present, equalId, _⟩ := origin other session found
    rw [equalId, kept.keyed other before present]
  · intro other session found
    obtain ⟨before, present, _, ongoing⟩ := origin other session found
    exact ongoing (kept.active_open other before present)
  · intro entry member
    apply Option.eq_none_iff_forall_ne_some.mpr
    intro session found
    obtain ⟨_, present, _⟩ := origin entry.1 session found
    rw [kept.ended_inactive entry member] at present
    cases present
  · simpa only [history_modify, maxHistory_modify] using kept.oldest_dropped

private theorem trim_ended {ended : List α} {history : List α}
    (dropped : history = ended.drop (ended.length - most))
    (last : α) : (history ++ [last]).drop ((history ++ [last]).length - most) =
      (ended ++ [last]).drop ((ended ++ [last]).length - most) := by
  subst dropped
  rw [← List.drop_append_of_le_length (by omega), List.drop_drop]
  congr 1
  simp only [List.length_append, List.length_drop, List.length_singleton]
  omega

theorem Kept.updateState (kept : Kept run) (id : String) (state : SessionState)
    (error : Option String) :
    Kept (run.step (.updateState id state error)) := by
  rcases updateState_cases run.manager id state error with
    ⟨refused, _⟩ | ⟨session, found, _, ⟨ongoing, moved⟩ | ⟨terminal, moved⟩⟩
  · simpa [step, SessionOp.apply, SessionOp.ends, refused] using kept
  · -- the session stays active under the same id
    have same : run.step (.updateState id state error) =
        { run with manager := run.manager.modify id ({ · with state, error }) } := by
      simp [step, SessionOp.apply, SessionOp.ends, moved, ongoing, SessionManager.modify, found]
    rw [same]
    exact kept.modify id _ (fun _ => rfl) (fun _ _ => ongoing)
  · -- the session leaves the map and becomes the newest entry of the history
    have gone : run.step (.updateState id state error) =
        { manager := { run.manager with
            active := run.manager.active.erase id
            history := trimHistory run.manager.maxHistory
              (run.manager.history ++ [{ session with state, error }]) }
          ended := run.ended ++ [(id, state)] } := by
      simp [step, SessionOp.apply, SessionOp.ends, moved, terminal]
    have sameId : session.id = id := kept.keyed id session found
    have remains : ∀ other left, (run.manager.active.erase id).lookup other = some left →
        run.manager.active.lookup other = some left := by
      intro other left present
      by_cases same : other = id
      · rw [same, AList.lookup_erase] at present
        cases present
      · rwa [AList.lookup_erase_ne same] at present
    have first : id ∉ run.ended.map Prod.fst := by
      intro member
      obtain ⟨entry, listed, rfl⟩ := List.mem_map.mp member
      rw [kept.ended_inactive entry listed] at found
      cases found
    rw [gone]
    refine ⟨fun other left present => kept.keyed other left (remains other left present),
      fun other left present => kept.active_open other left (remains other left present), ?_, ?_, ?_, ?_⟩
    · intro entry member
      rcases List.mem_append.mp member with earlier | last
      · exact kept.ended_terminal entry earlier
      · cases List.mem_singleton.mp last
        exact terminal
    · rw [List.map_append, List.nodup_append]
      refine ⟨kept.ended_once, by simp, ?_⟩
      intro earlier member last newest same
      cases List.mem_singleton.mp newest
      cases same
      exact first member
    · intro entry member
      apply Option.eq_none_iff_forall_ne_some.mpr
      intro left present
      rcases List.mem_append.mp member with earlier | last
      · have stays := remains entry.1 left present
        rw [kept.ended_inactive entry earlier] at stays
        cases stays
      · cases List.mem_singleton.mp last
        rw [AList.lookup_erase] at present
        cases present
    · simp only [trimHistory_eq_drop, List.map_drop, List.map_append, List.map_cons,
        List.map_nil, sameId]
      have lengths (newest : TransferSession) : (run.manager.history ++ [newest]).length =
          (run.manager.history.map (fun session => (session.id, session.state)) ++
            [(id, state)]).length := by simp
      rw [lengths]
      exact trim_ended kept.oldest_dropped (id, state)

theorem Kept.create (kept : Kept run) (session : TransferSession)
    (fresh : session.id ∉ run.ended.map Prod.fst) (handshaking : session.state = .handshaking) :
    Kept { run with manager := run.manager.create session } := by
  refine ⟨?_, ?_, kept.ended_terminal, kept.ended_once, ?_, kept.oldest_dropped⟩
  · intro id found lookup
    rw [lookup_create] at lookup
    split at lookup
    · rename_i same
      cases lookup
      exact same.symm
    · exact kept.keyed id found lookup
  · intro id found lookup
    rw [lookup_create] at lookup
    split at lookup
    · cases lookup
      rw [handshaking]
      rfl
    · exact kept.active_open id found lookup
  · intro entry member
    have different : entry.1 ≠ session.id := fun same => fresh (same ▸ List.mem_map_of_mem member)
    rw [lookup_create, if_neg different]
    exact kept.ended_inactive entry member

theorem Kept.step (kept : Kept run) (fresh : run.fresh op) : Kept (run.step op) := by
  have unended (manager : SessionManager) :
      ({ manager, ended := run.ended } : ManagerRun) = { manager, ended := run.ended ++ [] } := by simp
  cases op with
  | create id peerId peerName direction files =>
    have made := kept.create
      ((TransferSession.new id peerId peerName direction).withFiles files) fresh rfl
    rwa [unended] at made
  | updateState id state error => exact kept.updateState id state error
  | updateProgress id progress =>
    have made := kept.modify id ({ · with progress }) (fun _ => rfl) (fun _ ongoing => ongoing)
    rwa [unended] at made
  | setRemoteCaps id capsJson =>
    have made := kept.modify id ({ · with remoteCapsJson := some capsJson }) (fun _ => rfl)
      (fun _ ongoing => ongoing)
    rwa [unended] at made
  | updateFileProgress id fileId bytesSent completed =>
    have made := kept.modify id (·.updateFileProgress fileId bytesSent completed) (fun _ => rfl)
      (fun _ ongoing => ongoing)
    rwa [unended] at made
  | setFiles id files =>
    have made := kept.modify id (·.withFiles files) (fun _ => rfl) (fun _ ongoing => ongoing)
    rwa [unended] at made

/-- The operations of a run are fresh when each one is in the state it is applied to. -/
def AllFresh (run : ManagerRun) (ops : List SessionOp) : Prop :=
  ∀ before op later, ops = before ++ op :: later → fresh (before.foldl ManagerRun.step run) op

theorem Kept.foldl (kept : Kept run) (fresh : AllFresh run ops) :
    Kept (ops.foldl ManagerRun.step run) := by
  induction ops generalizing run with
  | nil => exact kept
  | cons op ops ih =>
    refine ih (kept.step (fresh [] op ops rfl)) ?_
    intro before next later split
    exact fresh (op :: before) next later (by rw [split]; rfl)

theorem mem_listActive : session ∈ run.manager.listActive ↔
    ∃ id, run.manager.active.lookup id = some session := by
  simp only [listActive, List.mem_map]
  constructor
  · rintro ⟨⟨id, found⟩, member, rfl⟩
    exact ⟨id, AList.mem_lookup_iff.mpr member⟩
  · rintro ⟨id, found⟩
    exact ⟨⟨id, session⟩, AList.mem_lookup_iff.mp found, rfl⟩

theorem Kept.settled (kept : Kept run) : Settled run := by
  have recorded : ∀ session ∈ run.manager.history, (session.id, session.state) ∈ run.ended := by
    intro session member
    have named : (session.id, session.state) ∈ run.manager.history.map fun session =>
        (session.id, session.state) :=
      List.mem_map.mpr ⟨session, member, rfl⟩
    rw [kept.oldest_dropped] at named
    exact List.mem_of_mem_drop named
  have activeIds : run.manager.listActive.map TransferSession.id = run.manager.active.keys := by
    simp only [listActive, List.map_map, AList.keys, List.keys]
    refine List.map_congr_left fun entry member => ?_
    exact kept.keyed entry.1 entry.2 (AList.mem_lookup_iff.mpr member)
  have historyIds : run.manager.history.map TransferSession.id =
      (run.ended.map Prod.fst).drop (run.ended.length - run.manager.maxHistory) := by
    rw [← List.map_drop, ← kept.oldest_dropped, List.map_map]
    rfl
  refine ⟨?_, ?_, ?_, ?_, ?_, kept.oldest_dropped⟩
  · intro session member
    obtain ⟨id, found⟩ := mem_listActive.mp member
    exact kept.active_open id session found
  · intro session member
    exact kept.ended_terminal _ (recorded session member)
  · rw [List.map_append, List.nodup_append, activeIds]
    refine ⟨run.manager.active.keys_nodup, ?_, ?_⟩
    · rw [listHistory, historyIds]
      exact kept.ended_once.sublist (List.drop_sublist _ _)
    · intro id active _ ended same
      obtain ⟨session, member, rfl⟩ := List.mem_map.mp ended
      have gone := kept.ended_inactive _ (recorded session member)
      rw [AList.lookup_eq_none] at gone
      exact gone (AList.mem_keys.mpr (same ▸ active))
  · intro id state member session found
    simp only [SessionManager.get, kept.ended_inactive (id, state) member] at found
    have named : session.id = id := by simpa using List.find?_some found
    have same := recorded session (List.mem_of_find?_eq_some found)
    rw [named] at same
    exact congrArg Prod.snd (List.inj_on_of_nodup_map kept.ended_once same member rfl)
  · have count := congrArg List.length kept.oldest_dropped
    rw [List.length_map, List.length_drop] at count
    rw [listHistory, count]
    omega

theorem SessionOp.ends_terminal {manager : SessionManager}
    (member : entry ∈ SessionOp.ends manager op) :
    entry.2.isTerminal = true := by
  cases op <;> simp only [SessionOp.ends, List.not_mem_nil] at member
  split at member
  · rename_i both
    cases List.mem_singleton.mp member
    exact (Bool.and_eq_true_iff.mp both).2
  · cases member

theorem foldl_ended_terminal (ops : List SessionOp)
    (terminal : ∀ entry ∈ run.ended, entry.2.isTerminal = true) :
    ∀ entry ∈ (ops.foldl ManagerRun.step run).ended, entry.2.isTerminal = true := by
  induction ops generalizing run with
  | nil => exact terminal
  | cons _ _ ih =>
    refine ih fun entry member => ?_
    rcases List.mem_append.mp member with earlier | last
    · exact terminal entry earlier
    · exact SessionOp.ends_terminal last

theorem not_settled_of_revived {id : String} (ended : id ∈ run.ended.map Prod.fst)
    (terminal : ∀ entry ∈ run.ended, entry.2.isTerminal = true) :
    ¬ Settled (run.step (.create id peerId peerName direction files)) := by
  intro settled
  obtain ⟨⟨reused, state⟩, member, rfl⟩ := List.mem_map.mp ended
  have revived := settled.ended_final reused state
    (by simpa [ManagerRun.step, SessionOp.ends] using member)
    ((TransferSession.new reused peerId peerName direction).withFiles files)
    (by simp [ManagerRun.step, SessionOp.apply, SessionManager.get, lookup_create, TransferSession.withFiles,
      TransferSession.new])
  have still := terminal _ member
  rw [← revived] at still
  cases still

/-- In every state of a run the two collections keep their promise exactly when no
operation of the run creates an id that has already ended. -/
theorem settled_iff (maxHistory : Nat) (ops : List SessionOp) :
    (∀ before later, ops = before ++ later → Settled (after maxHistory before)) ↔
      AllFresh (start maxHistory) ops := by
  constructor
  · intro settled before op later split
    have endedTerminal : ∀ entry ∈ (after maxHistory before).ended, entry.2.isTerminal = true :=
      foldl_ended_terminal before (by simp [start])
    cases op with
    | create id peerId peerName direction files =>
      intro ended
      have next := settled (before ++ [.create id peerId peerName direction files]) later
        (by simp [split])
      have revived : Settled
          ((after maxHistory before).step (.create id peerId peerName direction files)) := by
        simpa [after, List.foldl_append] using next
      exact not_settled_of_revived ended endedTerminal revived
    | _ => trivial
  · intro fresh _ later split
    refine (Kept.foldl (kept_start maxHistory) ?_).settled
    intro earlier op rest inner
    exact fresh earlier op (rest ++ later) (by simp [split, inner])

/-- A remote peer offers a session under an id it has used before. -/
theorem revived_not_settled : ¬ Settled (after 8 [.create "s" "a" "laptop" .download [],
    .updateState "s" .failed (some "timeout waiting for approval"),
      .create "s" "a" "laptop" .download []]) :=
  fun settled => absurd settled.ids_unique (by decide)

end ManagerRun

end DistributedOs.Session
