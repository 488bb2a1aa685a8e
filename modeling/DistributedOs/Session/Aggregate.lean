import DistributedOs.Semantics.Execution
import DistributedOs.Session.ManagerInvariant

/-! The byte counts of a session against those of its files. File sizes and counts come
from the peer, so their sums need not fit in 64 bits, and files need not start at 0. -/

namespace DistributedOs.Session

open Semantics SessionManager

/-- The sums of the counts themselves, without wrapping. -/
def exactSize (files : List FileMeta) : Nat := (files.map fun file => file.size.toNat).sum

def exactSent (files : List FileMeta) : Nat := (files.map fun file => file.bytesSent.toNat).sum

structure TransferSession.Aggregated (session : TransferSession) : Prop where
  sent : session.progress.bytesSent.toNat = exactSent session.files
  total : session.progress.bytesTotal.toNat = exactSize session.files

/-- Every session's counts are those of its files, and `session_progress` reports them. -/
structure SessionManager.Aggregated (manager : SessionManager) : Prop where
  active : ∀ id session, manager.active.lookup id = some session → session.Aggregated
  history : ∀ session ∈ manager.history, session.Aggregated
  reported : ∀ id session, manager.active.lookup id = some session → ∃ progress : SessionProgress,
    manager.sessionProgress id = some progress ∧ progress.bytesTransferred = session.progress.bytesSent ∧
      progress.totalBytes = session.progress.bytesTotal

/-- New files have nothing sent yet and sizes that add up in 64 bits; so do the counts
after an update of one file; progress set from outside is the sum over the files. -/
def SessionOp.keepsAggregate (manager : SessionManager) : SessionOp → Prop
  | .create _ _ _ _ files => exactSent files = 0 ∧ exactSize files < 2 ^ 64
  | .setFiles id files =>
    manager.active.lookup id ≠ none → exactSent files = 0 ∧ exactSize files < 2 ^ 64
  | .updateFileProgress id fileId bytesSent completed =>
    ∀ session, manager.active.lookup id = some session →
      exactSent (updateFile fileId bytesSent completed session.files) < 2 ^ 64
  | .updateProgress id progress => ∀ session, manager.active.lookup id = some session →
      progress.bytesSent.toNat = exactSent session.files ∧
      progress.bytesTotal.toNat = exactSize session.files
  | .updateState .. => True
  | .setRemoteCaps .. => True

variable {manager : SessionManager} {id : String} {session : TransferSession}
  {files : List FileMeta}

theorem toNat_sum (counts : List UInt64) :
    counts.sum.toNat = (counts.map UInt64.toNat).sum % 2 ^ 64 := by
  induction counts with
  | nil => rfl
  | cons _ _ ih =>
    rw [List.sum_cons, UInt64.toNat_add, ih, List.map_cons, List.sum_cons]
    omega

theorem toNat_totalSize (files : List FileMeta) :
    (totalSize files).toNat = exactSize files % 2 ^ 64 := by
  rw [totalSize, toNat_sum, List.map_map]
  rfl

theorem toNat_totalSent (files : List FileMeta) :
    (totalSent files).toNat = exactSent files % 2 ^ 64 := by
  rw [totalSent, toNat_sum, List.map_map]
  rfl

theorem exact_iff : sum % 2 ^ 64 = sum ↔ sum < 2 ^ 64 := by omega

theorem exactSize_updateFile :
    exactSize (updateFile fileId bytesSent completed files) = exactSize files := by
  induction files with
  | nil => rfl
  | cons _ _ ih =>
    unfold updateFile
    split
    · rfl
    · simp only [exactSize, List.map_cons, List.sum_cons] at ih ⊢
      rw [ih]

theorem TransferSession.Aggregated.fits (aggregated : session.Aggregated) :
    exactSize session.files < 2 ^ 64 := by
  rw [← aggregated.total]
  exact session.progress.bytesTotal.toNat_lt

theorem aggregated_iff_sessions : manager.Aggregated ↔
    (∀ id session, manager.active.lookup id = some session → session.Aggregated) ∧
      ∀ session ∈ manager.history, session.Aggregated := by
  constructor
  · intro aggregated
    exact ⟨aggregated.active, aggregated.history⟩
  · rintro ⟨active, history⟩
    refine ⟨active, history, fun id session found => ?_⟩
    obtain ⟨sent, total⟩ := active id session found
    refine ⟨(SessionProgress.new session.id
      session.files).recompute, by simp [sessionProgress, found], ?_, ?_⟩
    · apply UInt64.toNat_inj.mp
      show (totalSent session.files).toNat = _
      have small := session.progress.bytesSent.toNat_lt
      rw [toNat_totalSent, ← sent, exact_iff.mpr small]
    · apply UInt64.toNat_inj.mp
      show (totalSize session.files).toNat = _
      have small := session.progress.bytesTotal.toNat_lt
      rw [toNat_totalSize, ← total, exact_iff.mpr small]

theorem aggregated_withFiles {start : TransferSession} :
    (start.withFiles files).Aggregated ↔ exactSent files = 0 ∧ exactSize files < 2 ^ 64 := by
  have total : ((start.withFiles files).progress.bytesTotal.toNat = exactSize files) ↔
      exactSize files < 2 ^ 64 := by
    show (totalSize files).toNat = _ ↔ _
    rw [toNat_totalSize, exact_iff]
  constructor
  · intro aggregated
    exact ⟨aggregated.sent.symm, total.mp aggregated.total⟩
  · rintro ⟨unsent, small⟩
    exact ⟨unsent.symm, total.mpr small⟩

theorem aggregated_modify (aggregated : manager.Aggregated) :
    (manager.modify id change).Aggregated ↔
      ∀ session, manager.active.lookup id = some session → (change session).Aggregated := by
  rw [aggregated_iff_sessions, history_modify]
  constructor
  · rintro ⟨active, _⟩ session found
    refine active id (change session) ?_
    rw [lookup_modify, if_pos rfl, found]
    rfl
  · intro changed
    refine ⟨fun other session found => ?_, aggregated.history⟩
    rw [lookup_modify] at found
    split at found
    · obtain ⟨before, present, rfl⟩ := Option.map_eq_some_iff.mp found
      exact changed before present
    · exact aggregated.active other session found

theorem aggregated_create (aggregated : manager.Aggregated) :
    (manager.create start).Aggregated ↔ start.Aggregated := by
  rw [aggregated_iff_sessions]
  constructor
  · rintro ⟨active, _⟩
    exact active start.id start (by rw [lookup_create, if_pos rfl])
  · intro created
    refine ⟨fun other session found => ?_, aggregated.history⟩
    rw [lookup_create] at found
    split at found
    · cases found
      exact created
    · exact aggregated.active other session found

theorem aggregated_updateState (aggregated : manager.Aggregated) (id : String)
    (state : SessionState) (error : Option String) :
    (manager.updateState id state error).2.Aggregated := by
  have moved (session : TransferSession) (before : session.Aggregated) :
      { session with state, error }.Aggregated :=
    ⟨before.sent, before.total⟩
  rcases updateState_cases manager id state error with
    ⟨refused, _⟩ | ⟨session, found, _, ⟨_, stays⟩ | ⟨_, ends⟩⟩
  · rw [refused]
    exact aggregated
  · rw [stays, aggregated_iff_sessions]
    refine ⟨fun other current present => ?_, aggregated.history⟩
    by_cases same : other = id
    · subst same
      rw [AList.lookup_insert] at present
      cases present
      exact moved session (aggregated.active other session found)
    · rw [AList.lookup_insert_ne same] at present
      exact aggregated.active other current present
  · rw [ends, aggregated_iff_sessions]
    constructor
    · intro other current present
      by_cases same : other = id
      · rw [same, AList.lookup_erase] at present
        cases present
      · rw [AList.lookup_erase_ne same] at present
        exact aggregated.active other current present
    · intro current member
      rw [trimHistory_eq_drop] at member
      rcases List.mem_append.mp (List.mem_of_mem_drop member) with old | new
      · exact aggregated.history current old
      · cases List.mem_singleton.mp new
        exact moved session (aggregated.active id session found)

/-- One operation keeps the counts exactly under its condition. -/
theorem aggregated_apply_iff (op : SessionOp) (aggregated : manager.Aggregated) :
    (op.apply manager).Aggregated ↔ op.keepsAggregate manager := by
  cases op with
  | create =>
    show (manager.create _).Aggregated ↔ _
    rw [aggregated_create aggregated, aggregated_withFiles]
    rfl
  | updateState id state error =>
    exact iff_of_true (aggregated_updateState aggregated id state error) trivial
  | updateProgress id =>
    show (manager.modify id _).Aggregated ↔ _
    rw [aggregated_modify aggregated]
    exact forall₂_congr fun session _ =>
      ⟨fun changed => ⟨changed.sent, changed.total⟩, fun ⟨sent, total⟩ => ⟨sent, total⟩⟩
  | setRemoteCaps id =>
    refine iff_of_true ((aggregated_modify aggregated).mpr fun session found => ?_) trivial
    exact ⟨(aggregated.active id session found).sent, (aggregated.active id session found).total⟩
  | updateFileProgress id fileId bytesSent completed =>
    show (manager.modify id _).Aggregated ↔ _
    rw [aggregated_modify aggregated]
    refine forall₂_congr fun session found => ?_
    have small : exactSize (updateFile fileId bytesSent completed session.files) < 2 ^ 64 := by
      rw [exactSize_updateFile]
      exact (aggregated.active id session found).fits
    constructor
    · intro changed
      have sent : (totalSent (updateFile fileId bytesSent completed session.files)).toNat =
          _ := changed.sent
      rw [toNat_totalSent] at sent
      exact exact_iff.mp sent
    · intro fits
      exact ⟨(toNat_totalSent _).trans (exact_iff.mpr fits),
        (toNat_totalSize _).trans (exact_iff.mpr small)⟩
  | setFiles id =>
    show (manager.modify id _).Aggregated ↔ _
    rw [aggregated_modify aggregated]
    constructor
    · intro changed present
      obtain ⟨session, found⟩ := Option.ne_none_iff_exists'.mp present
      exact aggregated_withFiles.mp (changed session found)
    · intro fits _ found
      exact aggregated_withFiles.mpr (fits (by simp [found]))

theorem aggregated_new (maxHistory : Nat) : (SessionManager.new maxHistory).Aggregated := by
  rw [aggregated_iff_sessions]
  exact ⟨by simp [SessionManager.new], by simp [SessionManager.new]⟩

def managed (maxHistory : Nat) (ops : List SessionOp) : SessionManager :=
  ops.foldl SessionOp.apply (.new maxHistory)

/-- Through a whole sequence of operations the counts of every session are those of its
files exactly when every operation that sets them meets its condition. -/
theorem aggregated_iff (maxHistory : Nat) (ops : List SessionOp) :
    (∀ before later, ops = before ++ later → (managed maxHistory before).Aggregated) ↔
      ∀ before op later, ops = before ++ op :: later →
      op.keepsAggregate (managed maxHistory before) :=
  prefixes_iff (aggregated_new maxHistory)
    (fun _ op aggregated => aggregated_apply_iff op aggregated) ops

def resumedOffer : SessionOp :=
  .create "s" "a" "laptop" .download [{ FileMeta.new "f" "notes.txt" 5 with bytesSent := 3 }]

theorem resumedOffer_not_aggregated : ¬ (managed 100 [resumedOffer]).Aggregated := by
  intro aggregated
  have kept := (aggregated_apply_iff resumedOffer (aggregated_new 100)).mp aggregated
  exact absurd kept.1 (by decide)

end DistributedOs.Session
