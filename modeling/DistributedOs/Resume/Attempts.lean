import DistributedOs.Resume.Manager

/-! Successive `start_transfer` calls for one file with `options.resume` set, and what each
does to the resume record of the file. -/

namespace DistributedOs.Resume

/-- The file as every attempt finds it, with the hash `compute_file_hash` returns for it. -/
structure ResumableFile where
  source : String
  fileName : String
  fileHash : String
  totalBytes : UInt64

def ResumableFile.fileId (file : ResumableFile) : String := file.source ++ "-" ++ file.fileName

/-- What `handshake::negotiate` and `start_transfer` put into the options of the request. -/
structure NegotiatedOptions where
  resume : Bool
  resumeOffset : UInt64

/-- How `execute_with_cancel` ends: at its own token check, in the engine before the upload
has connected, or with the upload. -/
inductive ExecutionEnd where
  | cancelled
  | refused
  | failed
  | succeeded
  deriving DecidableEq

/-- How `start_transfer` ends: before the handshake is through, or with the execution. -/
inductive AttemptEnd where
  | unreached
  | executed (run : ExecutionEnd)
  deriving DecidableEq

/-- What the environment contributes to a call: the peer's resume feature, the transport
selected and how far the call gets. -/
structure Attempt where
  remoteResume : Bool
  transport : String
  ended : AttemptEnd

inductive AttemptStep where
  | persist (op : ResumeOp)
  | upload (offset : UInt64)

/-- `upload_single_file` sends with `stream_file_send_inner`, which starts at 0 and does not
look at the resume offset of the options. -/
def uploadFile (_options : NegotiatedOptions) : AttemptStep := .upload 0

def executeWithCancel (file : ResumableFile) (options : NegotiatedOptions) (transport : String)
    (run : ExecutionEnd) : List AttemptStep :=
  let begin := ResumeState.new file.fileId file.source file.fileHash file.totalBytes transport
  let fresh := if options.resume then [.persist (.save begin)] else []
  let onErr := if options.resume then [.persist (.updateOffset file.fileId 0)] else []
  let onOk := if options.resume then [.persist (.markCompleted file.fileId)] else []
  match run with
  | .cancelled => fresh
  | .refused => fresh ++ onErr
  | .failed => fresh ++ uploadFile options :: onErr
  | .succeeded => fresh ++ uploadFile options :: onOk

variable (tables : Alphanumeric) (file : ResumableFile)

def startTransfer (manager : ResumeManager) (attempt : Attempt) : List AttemptStep :=
  let resumeOffset := manager.canResume tables file.fileId file.fileHash
  match attempt.ended with
  | .unreached => []
  | .executed run =>
    executeWithCancel file ⟨attempt.remoteResume, resumeOffset.getD 0⟩ attempt.transport run

def AttemptStep.apply (manager : ResumeManager) : AttemptStep → ResumeManager
  | .persist op => op.apply tables manager
  | .upload _ => manager

/-- The directory after a call. -/
def tried (manager : ResumeManager) (attempt : Attempt) : ResumeManager :=
  (startTransfer tables file manager attempt).foldl (AttemptStep.apply tables) manager

/-- The offset recorded for this content of the file while its transfer is not completed. -/
def recordedOffset (manager : ResumeManager) : UInt64 :=
  match manager.load tables file.fileId with
  | some state => if state.completed || state.fileHash ≠ file.fileHash then 0 else state.lastOffset
  | none => 0

def isCompleted (manager : ResumeManager) : Bool :=
  (manager.load tables file.fileId).any ResumeState.completed

/-- No step of the call lowers the recorded offset unless it completes the transfer, and an
upload starts at the recorded offset or after it. -/
structure AttemptMonotone (manager : ResumeManager) (attempt : Attempt) : Prop where
  recorded : ∀ before step later, startTransfer tables file manager attempt = before ++ step :: later →
    isCompleted tables file
      (step.apply tables (before.foldl (AttemptStep.apply tables) manager)) = true ∨
      recordedOffset tables file (before.foldl (AttemptStep.apply tables) manager) ≤
        recordedOffset tables file (step.apply tables (before.foldl (AttemptStep.apply tables) manager))
  resumes : ∀ offset, .upload offset ∈ startTransfer tables file manager attempt →
    recordedOffset tables file manager ≤ offset

/-- Every call of the sequence is monotone in the directory the earlier ones left. -/
def NeverDecreases : ResumeManager → List Attempt → Prop
  | _, [] => True
  | manager, attempt :: attempts =>
    AttemptMonotone tables file manager attempt ∧
    NeverDecreases (tried tables file manager attempt) attempts

/-- The call writes a fresh record or starts an upload. -/
def Attempt.restarts (attempt : Attempt) : Bool :=
  match attempt.ended with
  | .unreached => false
  | .executed run => attempt.remoteResume || run = .failed || run = .succeeded

variable {tables} {file} {manager : ResumeManager} {attempt : Attempt} {step : AttemptStep}

def freshState (file : ResumableFile) (transport : String) : ResumeState :=
  .new file.fileId file.source file.fileHash file.totalBytes transport

/-- The record of the file starts again from 0. -/
def Reset (tables : Alphanumeric) (file : ResumableFile) (manager : ResumeManager) : Prop :=
  ∃ state, manager.load tables file.fileId = some state ∧ state.fileId = file.fileId ∧
  state.lastOffset = 0

theorem Reset.recordedOffset (reset : Reset tables file manager) :
    recordedOffset tables file manager = 0 := by
  obtain ⟨_, found, _, zero⟩ := reset
  simp only [Resume.recordedOffset, found, zero]
  split <;> rfl

theorem reset_save (transport : String) :
    Reset tables file (manager.save tables (freshState file transport)) := by
  refine ⟨freshState file transport, ?_, rfl, rfl⟩
  exact load_save.trans (if_pos rfl)

theorem Reset.amend (reset : Reset tables file manager)
    (sameId : ∀ state, (change state).fileId = state.fileId)
    (zero : ∀ state, state.lastOffset = 0 → (change state).lastOffset = 0) :
    Reset tables file (manager.amend tables file.fileId change) := by
  obtain ⟨state, found, same, recorded⟩ := reset
  refine ⟨change state, ?_, (sameId state).trans same, zero state recorded⟩
  rw [ResumeManager.amend, found]
  exact load_save.trans (if_pos (by rw [sameId, same]))

/-- The steps that follow the fresh record within a call. -/
def AttemptStep.Follows (file : ResumableFile) (step : AttemptStep) : Prop :=
  step = .upload 0 ∨ step = .persist (.updateOffset file.fileId 0) ∨
  step = .persist (.markCompleted file.fileId)

theorem Reset.apply (reset : Reset tables file manager) (follows : step.Follows file) :
    Reset tables file (step.apply tables manager) := by
  rcases follows with rfl | rfl | rfl
  · exact reset
  · exact reset.amend (fun _ => rfl) (fun _ _ => rfl)
  · exact reset.amend (fun _ => rfl) (fun _ zero => zero)

theorem Reset.foldl {steps : List AttemptStep} (reset : Reset tables file manager)
    (follow : ∀ step ∈ steps, step.Follows file) :
    Reset tables file (steps.foldl (AttemptStep.apply tables) manager) := by
  induction steps generalizing manager with
  | nil => exact reset
  | cons step _ ih =>
    exact ih (reset.apply (follow step List.mem_cons_self)) fun later member =>
      follow later (List.mem_cons_of_mem step member)

theorem startTransfer_cases :
    (startTransfer tables file manager attempt = [] ∧ attempt.restarts = false) ∨
    (startTransfer tables file manager attempt = [.upload 0] ∧ attempt.restarts = true) ∨
    (∃ later, startTransfer tables file manager attempt =
      .persist (.save (freshState file attempt.transport)) :: later ∧ attempt.restarts = true ∧
      ∀ step ∈ later, step.Follows file) := by
  obtain ⟨remoteResume, _, ended⟩ := attempt
  cases ended with
  | unreached => exact .inl ⟨rfl, rfl⟩
  | executed run =>
    cases remoteResume with
    | false =>
      cases run with
      | cancelled => exact .inl ⟨rfl, rfl⟩
      | refused => exact .inl ⟨rfl, rfl⟩
      | failed => exact .inr (.inl ⟨rfl, rfl⟩)
      | succeeded => exact .inr (.inl ⟨rfl, rfl⟩)
    | true =>
      right
      right
      cases run with
      | cancelled => exact ⟨[], rfl, rfl, by simp⟩
      | refused => exact ⟨_, rfl, rfl, by simp [AttemptStep.Follows]⟩
      | failed => exact ⟨_, rfl, rfl, by simp [AttemptStep.Follows, uploadFile]⟩
      | succeeded => exact ⟨_, rfl, rfl, by simp [AttemptStep.Follows, uploadFile]⟩

theorem recordedOffset_before (zero : recordedOffset tables file manager = 0)
    {before later : List AttemptStep}
    (split : startTransfer tables file manager attempt = before ++ later) :
    recordedOffset tables file (before.foldl (AttemptStep.apply tables) manager) = 0 := by
  rcases startTransfer_cases with ⟨none, -⟩ | ⟨only, -⟩ | ⟨_, all, -, follow⟩
  · rw [none] at split
    rw [(List.append_eq_nil_iff.mp split.symm).1]
    exact zero
  · rw [only] at split
    rcases List.cons_eq_append_iff.mp split with ⟨rfl, -⟩ | ⟨tail, rfl, empty⟩
    · exact zero
    · rw [(List.append_eq_nil_iff.mp empty.symm).1]
      exact zero
  · rw [all] at split
    rcases List.cons_eq_append_iff.mp split with ⟨rfl, -⟩ | ⟨_, rfl, parts⟩
    · exact zero
    · have fresh : Reset tables file (manager.save tables (freshState file attempt.transport)) :=
        reset_save _
      refine (fresh.foldl fun step member => follow step ?_).recordedOffset
      rw [parts]
      exact List.mem_append_left later member

theorem attemptMonotone_of_zero (zero : recordedOffset tables file manager = 0) :
    AttemptMonotone tables file manager attempt where
  recorded before step later split := by
    right
    rw [recordedOffset_before zero split]
    exact UInt64.zero_le
  resumes offset _ := by
    rw [zero]
    exact UInt64.zero_le

theorem tried_of_not_restarts (idle : attempt.restarts = false) :
    startTransfer tables file manager attempt = [] := by
  rcases startTransfer_cases with ⟨none, -⟩ | ⟨-, restarts⟩ | ⟨-, -, restarts, -⟩
  · exact none
  · rw [idle] at restarts
    cases restarts
  · rw [idle] at restarts
    cases restarts

theorem attemptMonotone_of_not_restarts (idle : attempt.restarts = false) :
    AttemptMonotone tables file manager attempt where
  recorded before step later split := by
    rw [tried_of_not_restarts idle] at split
    exact absurd split.symm (by simp)
  resumes offset member := by
    rw [tried_of_not_restarts idle] at member
    exact absurd member (by simp)

theorem zero_of_attemptMonotone (monotone : AttemptMonotone tables file manager attempt)
    (restarts : attempt.restarts = true) : recordedOffset tables file manager = 0 := by
  rcases startTransfer_cases with ⟨-, idle⟩ | ⟨only, -⟩ | ⟨rest, all, -, -⟩
  · rw [restarts] at idle
    cases idle
  · exact UInt64.le_zero_iff.mp (monotone.resumes 0 (by rw [only]; exact List.mem_singleton_self _))
  · have fresh : Reset tables file (manager.save tables (freshState file attempt.transport)) :=
      reset_save _
    rcases monotone.recorded [] _ rest all with completed | kept
    · simp [isCompleted, AttemptStep.apply, ResumeOp.apply, freshState, ResumeState.new,
        load_save] at completed
    · have lowered : recordedOffset tables file manager ≤ 0 := by
        rw [← fresh.recordedOffset]
        exact kept
      exact UInt64.le_zero_iff.mp lowered

/-- The recorded offset never decreases exactly when nothing is recorded at the start or no
call restarts the transfer. -/
theorem neverDecreases_iff (attempts : List Attempt) : NeverDecreases tables file manager attempts ↔
    recordedOffset tables file manager = 0 ∨ ∀ attempt ∈ attempts, attempt.restarts = false := by
  induction attempts generalizing manager with
  | nil => simp [NeverDecreases]
  | cons attempt _ ih =>
    rw [NeverDecreases, ih]
    constructor
    · rintro ⟨monotone, rest⟩
      by_cases restarts : attempt.restarts = true
      · exact .inl (zero_of_attemptMonotone monotone restarts)
      · rw [Bool.not_eq_true] at restarts
        rw [tried, tried_of_not_restarts restarts, List.foldl_nil] at rest
        simpa [restarts] using rest
    · rintro (zero | idle)
      · refine ⟨attemptMonotone_of_zero zero, .inl ?_⟩
        exact recordedOffset_before zero (List.append_nil _).symm
      · obtain ⟨first, rest⟩ := List.forall_mem_cons.mp idle
        exact ⟨attemptMonotone_of_not_restarts first, .inr rest⟩

/-- Half of a file is recorded: saving the state and updating its offset, as clients do. -/
def halfSent (tables : Alphanumeric) (file : ResumableFile) : ResumeManager :=
  managed tables [.save (freshState file "tcp"), .updateOffset file.fileId 500]

def interruptedFile : ResumableFile :=
  { source := "test.bin", fileName := "test.bin", fileHash := "hash", totalBytes := 1024 }

/-- An attempt after 500 bytes were recorded starts at 0 and leaves 0 recorded. -/
theorem failed_attempt_forgets : ¬ ∃ tables : Alphanumeric, NeverDecreases tables interruptedFile
    (halfSent tables interruptedFile)
      [{ remoteResume := true, transport := "tcp", ended := .executed .failed }] := by
  rintro ⟨tables, never⟩
  have zero := zero_of_attemptMonotone never.1 rfl
  have found : (halfSent tables interruptedFile).load tables interruptedFile.fileId =
      some { freshState interruptedFile "tcp" with lastOffset := 500 } := by
    have first : (ResumeManager.new.save tables (freshState interruptedFile "tcp")).load tables
        interruptedFile.fileId = some (freshState interruptedFile "tcp") :=
      load_save.trans (if_pos rfl)
    show ((ResumeManager.new.save tables (freshState interruptedFile "tcp")).updateOffset tables
        interruptedFile.fileId 500).load tables interruptedFile.fileId = _
    rw [ResumeManager.updateOffset, ResumeManager.amend, first]
    exact load_save.trans (if_pos rfl)
  rw [recordedOffset, found] at zero
  exact absurd zero (by decide)

end DistributedOs.Resume
