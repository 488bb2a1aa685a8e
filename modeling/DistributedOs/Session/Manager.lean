import Mathlib.Data.List.AList
import Mathlib.Algebra.GroupWithZero.Nat
import Mathlib.Data.UInt

/-! The session manager: a map of active sessions and a bounded history of ended ones. Every
operation holds the write lock of the map to its end, so operations are atomic; the two clock fields
of a session are read by nothing and left out. Sums of sizes wrap, as in a release build. -/

namespace DistributedOs.Session

inductive TransferDirection where
  | upload
  | download
  deriving DecidableEq, Repr

inductive SessionState where
  | handshaking
  | negotiating
  | active
  | completed
  | failed
  | cancelled
  deriving DecidableEq, Repr

namespace SessionState

def isTerminal : SessionState → Bool
  | .completed | .failed | .cancelled => true
  | _ => false

def isActive : SessionState → Bool
  | .handshaking | .negotiating | .active => true
  | _ => false

end SessionState

structure FileMeta where
  fileId : String
  name : String
  size : UInt64
  bytesSent : UInt64
  completed : Bool
  error : Option String
  deriving DecidableEq

def FileMeta.new (fileId name : String) (size : UInt64) : FileMeta :=
  { fileId, name, size, bytesSent := 0, completed := false, error := none }

/-- `speed_mbps` is only ever copied and is left out. -/
structure TransferProgress where
  bytesSent : UInt64
  bytesTotal : UInt64
  filesCompleted : Nat
  filesTotal : Nat
  deriving DecidableEq

def TransferProgress.default : TransferProgress :=
  { bytesSent := 0, bytesTotal := 0, filesCompleted := 0, filesTotal := 0 }

/-- The sum as the release build computes it, modulo 2^64. -/
def totalSize (files : List FileMeta) : UInt64 := (files.map FileMeta.size).sum

def totalSent (files : List FileMeta) : UInt64 := (files.map FileMeta.bytesSent).sum

/-- The first file of that id gets the new count; `iter_mut().find(..)`. -/
def updateFile (fileId : String) (bytesSent : UInt64)
    (completed : Bool) : List FileMeta → List FileMeta
  | [] => []
  | file :: files =>
    if file.fileId = fileId then { file with bytesSent, completed } :: files
    else file :: updateFile fileId bytesSent completed files

structure SessionProgress where
  sessionId : String
  totalBytes : UInt64
  bytesTransferred : UInt64
  filesCompleted : Nat
  filesTotal : Nat
  files : List FileMeta
  deriving DecidableEq

namespace SessionProgress

def new (sessionId : String) (files : List FileMeta) : SessionProgress :=
  { sessionId, totalBytes := totalSize files, bytesTransferred := 0, filesCompleted := 0,
    filesTotal := files.length, files }

def recompute (progress : SessionProgress) : SessionProgress :=
  { progress with
    totalBytes := totalSize progress.files
    bytesTransferred := totalSent progress.files
    filesCompleted := progress.files.countP FileMeta.completed
    filesTotal := progress.files.length }

def updateFile (progress : SessionProgress) (fileId : String) (bytesSent : UInt64)
    (completed : Bool) :
    SessionProgress :=
  recompute { progress with files := Session.updateFile fileId bytesSent completed progress.files }

end SessionProgress

structure TransferSession where
  id : String
  peerId : String
  peerName : String
  state : SessionState
  direction : TransferDirection
  progress : TransferProgress
  remoteCapsJson : Option String
  error : Option String
  files : List FileMeta
  sessionProgress : Option SessionProgress
  deriving DecidableEq

namespace TransferSession

def new (id peerId peerName : String) (direction : TransferDirection) : TransferSession :=
  { id, peerId, peerName, state := .handshaking, direction, progress := .default,
    remoteCapsJson := none, error := none, files := [], sessionProgress := none }

def withFiles (session : TransferSession) (files : List FileMeta) : TransferSession :=
  { session with
    files
    progress := { TransferProgress.default with bytesSent := 0, bytesTotal := totalSize files } }

def updateFileProgress (session : TransferSession) (fileId : String) (bytesSent : UInt64)
    (completed : Bool) : TransferSession :=
  let files := updateFile fileId bytesSent completed session.files
  { session with
    files
    progress := { session.progress with bytesSent := totalSent files, bytesTotal := totalSize files }
    sessionProgress := session.sessionProgress.map (·.updateFile fileId bytesSent completed) }

end TransferSession

structure SessionManager where
  active : AList fun _ : String => TransferSession
  history : List TransferSession
  maxHistory : Nat

/-- `while hist.len() > self.max_history { hist.remove(0) }`. -/
def trimHistory (maxHistory : Nat) : List TransferSession → List TransferSession
  | [] => []
  | oldest :: history =>
    if maxHistory < history.length + 1 then trimHistory maxHistory history else oldest :: history

namespace SessionManager

def new (maxHistory : Nat) : SessionManager := { active := ∅, history := [], maxHistory }

def create (manager : SessionManager) (session : TransferSession) : SessionManager :=
  { manager with active := manager.active.insert session.id session }

def get (manager : SessionManager) (id : String) : Option TransferSession :=
  match manager.active.lookup id with
  | some session => some session
  | none => manager.history.find? (·.id == id)

def validTransition : SessionState → SessionState → Bool
  | .handshaking, .negotiating => true
  | .negotiating, .active => true
  | .active, .completed => true
  | .active, .failed => true
  | .active, .cancelled => true
  | .handshaking, .failed => true
  | .negotiating, .failed => true
  | .handshaking, .cancelled => true
  | .negotiating, .cancelled => true
  | _, _ => false

/-- `get_mut` on the active map, then an update of the session found there. -/
def modify (manager : SessionManager) (id : String) (change : TransferSession → TransferSession) :
    SessionManager :=
  match manager.active.lookup id with
  | some session => { manager with active := manager.active.insert id (change session) }
  | none => manager

def updateState (manager : SessionManager) (id : String) (state : SessionState)
    (error : Option String) :
    Bool × SessionManager :=
  match manager.active.lookup id with
  | none => (false, manager)
  | some session =>
    if validTransition session.state state then
      let session := { session with state, error }
      if state.isTerminal then
        (true, { manager with
          active := manager.active.erase id
          history := trimHistory manager.maxHistory (manager.history ++ [session]) })
      else (true, { manager with active := manager.active.insert id session })
    else (false, manager)

def updateProgress (manager : SessionManager) (id : String) (progress : TransferProgress) :
    SessionManager :=
  manager.modify id ({ · with progress })

def setRemoteCaps (manager : SessionManager) (id capsJson : String) : SessionManager :=
  manager.modify id ({ · with remoteCapsJson := some capsJson })

def updateFileProgress (manager : SessionManager) (id fileId : String) (bytesSent : UInt64)
    (completed : Bool) : SessionManager :=
  manager.modify id (·.updateFileProgress fileId bytesSent completed)

def setFiles (manager : SessionManager) (id : String) (files : List FileMeta) : SessionManager :=
  manager.modify id (·.withFiles files)

def listActive (manager : SessionManager) : List TransferSession := manager.active.entries.map (·.2)

def listHistory (manager : SessionManager) : List TransferSession := manager.history

def sessionProgress (manager : SessionManager) (id : String) : Option SessionProgress :=
  (manager.active.lookup id).map fun session => (SessionProgress.new session.id session.files).recompute

end SessionManager

namespace SessionManager

variable {manager : SessionManager} {id other : String} {session found : TransferSession}

theorem trimHistory_eq_drop (maxHistory : Nat) (history : List TransferSession) :
    trimHistory maxHistory history = history.drop (history.length - maxHistory) := by
  induction history with
  | nil => simp [trimHistory]
  | cons oldest history ih =>
    rw [trimHistory]
    split
    · have more : (oldest :: history).length - maxHistory = history.length - maxHistory + 1 := by
        rw [List.length_cons]
        omega
      rw [ih, more, List.drop_succ_cons]
    · have none : (oldest :: history).length - maxHistory = 0 := by
        rw [List.length_cons]
        omega
      rw [none, List.drop_zero]

theorem lookup_create : (manager.create session).active.lookup other =
    if other = session.id then some session else manager.active.lookup other := by
  split
  · rename_i same
    rw [same]
    exact AList.lookup_insert _
  · rename_i different
    exact AList.lookup_insert_ne different

theorem lookup_modify :
    (manager.modify id change).active.lookup other =
      if other = id then (manager.active.lookup id).map change
      else manager.active.lookup other := by
  by_cases same : other = id
  · subst same
    cases found : manager.active.lookup other <;> simp [modify, found]
  · cases found : manager.active.lookup id <;> simp [modify, found, same]

theorem history_modify :
    (manager.modify id change).history = manager.history := by
  unfold modify
  split <;> rfl

theorem maxHistory_modify :
    (manager.modify id change).maxHistory = manager.maxHistory := by
  unfold modify
  split <;> rfl

theorem updateState_cases (manager : SessionManager) (id : String) (state : SessionState)
    (error : Option String) :
    ((manager.updateState id state error) = (false, manager) ∧
        ∀ session, manager.active.lookup id = some session → validTransition session.state state = false) ∨
      ∃ session, manager.active.lookup id = some session ∧ validTransition session.state state = true ∧
        (state.isTerminal = false ∧ manager.updateState id state error = (true, { manager with
            active := manager.active.insert id { session with state, error } }) ∨
          state.isTerminal = true ∧ manager.updateState id state error = (true, { manager with
            active := manager.active.erase id
            history := trimHistory manager.maxHistory (manager.history ++ [{ session with state, error }]) })) := by
  unfold updateState
  cases found : manager.active.lookup id with
  | none => exact .inl ⟨rfl, by simp⟩
  | some session =>
    cases valid : validTransition session.state state with
    | false => exact .inl ⟨by simp [valid], by simpa using valid⟩
    | true =>
      cases terminal : state.isTerminal with
      | false => exact .inr ⟨session, rfl, valid, .inl ⟨rfl, by simp [valid]⟩⟩
      | true => exact .inr ⟨session, rfl, valid, .inr ⟨rfl, by simp [valid]⟩⟩

theorem validTransition_from (valid : validTransition source target = true) :
    source.isTerminal = false := by
  cases source <;> cases target <;> first | rfl | cases valid

end SessionManager

end DistributedOs.Session
