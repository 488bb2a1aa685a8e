import DistributedOs.Transfer.ChunkAccounts

/-! What an upload over QUIC has delivered when it returns. -/

namespace DistributedOs.Transfer

open Semantics

namespace QuicUpload

variable {upload after : QuicUpload} {index : Nat} {task next : ChunkTask}

/-- Once every task is over, and everything has been read. -/
structure Settled (upload : QuicUpload) : Prop where
  read : upload.size ≤ upload.offset
  ended : ∀ task ∈ upload.tasks, task.isOver = true

/-- What the loop knows of the tasks. -/
structure Joined (sha256 : Bytes → String) (upload : QuicUpload) : Prop where
  joining : ∀ next, upload.phase = .joining next → upload.size ≤ upload.offset ∧
    ∀ earlier < next, ∀ task, upload.tasks[earlier]? = some task → task.isOver = true
  checksumming : upload.phase = .checksumming → Settled upload
  returned : ∀ result, upload.phase = .returned (some result) → Settled upload ∧
    result.bytesSent = upload.totalSent ∧
    result.bytesTotal = upload.size ∧ upload.checksum = some (sha256 upload.hashed)

variable {sha256 : Bytes → String}

theorem Joined.of_spawning (spawning : upload.phase = .spawning) : Joined sha256 upload := by
  constructor
  · intro _ phase
    cases spawning.symm.trans phase
  · intro phase
    cases spawning.symm.trans phase
  · intro _ phase
    cases spawning.symm.trans phase

/-- A task that is not over keeps the loop from going on. -/
theorem Joined.handed (joined : Joined sha256 upload) (present : upload.tasks[index]? = some task)
    (handed : Handed upload index task after) : Joined sha256 after := by
  obtain ⟨_, tasks⟩ := handed.tasks
  have size : after.size = upload.size := congrArg List.length handed.content
  have unsettled : ¬ Settled upload := by
    intro settled
    have ended := settled.ended task (List.mem_of_getElem? present)
    rw [handed.alive] at ended
    cases ended
  constructor
  · intro turn phase
    rw [handed.phase] at phase
    obtain ⟨read, earlierOver⟩ := joined.joining turn phase
    refine ⟨size ▸ read.trans handed.offset, ?_⟩
    intro earlier before other found
    rw [tasks] at found
    rcases Pool.getElem?_set_cases found with ⟨rfl, _⟩ | ⟨_, kept⟩
    · have ended := earlierOver earlier before task present
      rw [handed.alive] at ended
      cases ended
    · exact earlierOver earlier before other kept
  · intro phase
    rw [handed.phase] at phase
    exact absurd (joined.checksumming phase) unsettled
  · intro result phase
    rw [handed.phase] at phase
    exact absurd (joined.returned result phase).1 unsettled

theorem sum_over {Total : Type*} [AddCommMonoid Total] (weight : ChunkTask → Total)
    (none : ∀ ok, weight (.finished ok) = 0) (settled : Settled upload) :
    (upload.tasks.map weight).sum = 0 := by
  apply List.sum_eq_zero
  intro _ member
  obtain ⟨task, found, rfl⟩ := List.mem_map.mp member
  have ended := settled.ended task found
  cases task with
  | finished ok => exact none ok
  | reading => cases ended
  | busy => cases ended

theorem Balanced.settled (balanced : Balanced upload) (settled : Settled upload) :
    upload.sent.Perm
      (chunksFrom upload.content upload.options.chunkSize upload.options.resumeOffset) ∧
      upload.totalSent = upload.size - upload.options.resumeOffset ∧
      upload.hashed = upload.content := by
  have whole : upload.offset = upload.size := Nat.le_antisymm balanced.high settled.read
  have counted := balanced.counted
  have fed := balanced.fed
  have hashed := balanced.hashed
  rw [sum_over ChunkTask.uncounted (fun _ => rfl) settled, whole] at counted
  rw [sum_over ChunkTask.unhashed (fun _ => rfl) settled, whole] at fed
  refine ⟨?_, by omega, ?_⟩
  · by_cases positive : 0 < upload.options.chunkSize
    · have chunks := balanced.chunks positive
      rw [sum_over ChunkTask.pending (fun _ => rfl) settled, add_zero,
        chunksFrom_of_le settled.read] at chunks
      exact Multiset.coe_eq_coe.mp ((add_zero _).symm.trans chunks)
    · have stuck := balanced.stuck (Nat.eq_zero_of_not_pos positive)
      have nothing : upload.options.resumeOffset = upload.size := stuck.symm.trans whole
      rw [(balanced.idle nothing).2, chunksFrom_of_le (Nat.le_of_eq nothing.symm)]
  · rw [Nat.add_zero] at fed
    rw [hashed, fed]
    exact List.take_length

theorem Balanced.withPhase (balanced : Balanced upload) (phase : UploadPhase)
    (checksum : Option String) :
    Balanced { upload with phase, checksum } :=
  ⟨balanced.low, balanced.high, balanced.cursor, balanced.stuck, balanced.idle, balanced.chunks,
    balanced.counted, balanced.fed,
    balanced.hashed, balanced.holds, balanced.few⟩

theorem Balanced.spawn (balanced : Balanced upload) (more : upload.offset < upload.size)
    (room : upload.tasks.countP (fun task => !task.isOver) < upload.options.numStreams) :
    Balanced { upload with tasks := upload.tasks ++ [.reading] } := by
  have added {Total : Type} [AddCommMonoid Total] (weight : ChunkTask → Total)
    (nothing : weight .reading = 0) :
      ((upload.tasks ++ [ChunkTask.reading]).map weight).sum = (upload.tasks.map weight).sum := by
    rw [List.map_append, List.sum_append, List.map_singleton, List.sum_singleton, nothing, add_zero]
  refine ⟨balanced.low, balanced.high, balanced.cursor, balanced.stuck, ?_, ?_, ?_, ?_,
    balanced.hashed, ?_, ?_⟩
  · intro whole
    exact absurd (whole ▸ balanced.low) (Nat.not_le_of_lt more)
  · intro positive
    rw [added ChunkTask.pending rfl]
    exact balanced.chunks positive
  · rw [added ChunkTask.uncounted rfl]
    exact balanced.counted
  · rw [added ChunkTask.unhashed rfl]
    exact balanced.fed
  · intro task member
    rcases List.mem_append.mp member with old | fresh
    · exact balanced.holds task old
    · rw [List.mem_singleton.mp fresh]
      trivial
  · rw [List.countP_append]
    exact room

theorem Joined.join (joined : Joined sha256 upload) (phase : upload.phase = .joining turn)
    (found : upload.tasks[turn]? = some (.finished ok)) :
    Joined sha256 { upload with phase := .joining (turn + 1) } := by
  obtain ⟨read, earlierOver⟩ := joined.joining turn phase
  refine ⟨?_, nofun, nofun⟩
  rintro _ ⟨⟩
  refine ⟨read, fun earlier before task there => ?_⟩
  rcases Nat.lt_succ_iff_lt_or_eq.mp before with less | same
  · exact earlierOver earlier less task there
  · subst same
    cases found.symm.trans there
    rfl

theorem Joined.done (joined : Joined sha256 upload) (phase : upload.phase = .joining turn)
    (none : upload.tasks[turn]? = none) : Joined sha256 { upload with phase := .checksumming } := by
  obtain ⟨read, earlierOver⟩ := joined.joining turn phase
  refine ⟨nofun, fun _ => ⟨read, fun task member => ?_⟩, nofun⟩
  obtain ⟨earlier, within, there⟩ := List.getElem_of_mem member
  have before : earlier < turn := Nat.lt_of_lt_of_le within (List.getElem?_eq_none_iff.mp none)
  exact earlierOver earlier before task (List.getElem?_eq_some_iff.mpr ⟨within, there⟩)

theorem Joined.finish (joined : Joined sha256 upload)
    (phase : upload.phase = .checksumming) : Joined sha256
    { upload with
      checksum := some (sha256 upload.hashed)
      phase := .returned (some { bytesSent := upload.totalSent, bytesTotal := upload.size }) } := by
  have settled := joined.checksumming phase
  refine ⟨nofun, nofun, ?_⟩
  rintro _ ⟨⟩
  exact ⟨⟨settled.read, settled.ended⟩, rfl, rfl, rfl⟩

/-- An orderly step keeps the accounts, and what the loop knows. -/
theorem Balanced.step (balanced : Balanced upload) (joined : Joined sha256 upload)
    (admitted : upload.orderly event) (taken : step sha256 upload event = some after) :
    Balanced after ∧ Joined sha256 after := by
  unfold QuicUpload.step at taken
  cases event with
  | spawn =>
    dsimp only at taken
    split at taken
    · rename_i phase
      split at taken
      · rename_i more
        cases taken
        exact ⟨balanced.spawn more admitted, .of_spawning phase⟩
      · cases taken
    · cases taken
  | leave =>
    dsimp only at taken
    split at taken
    · split at taken
      · cases taken
      · rename_i read
        cases taken
        refine ⟨balanced.withPhase _ _, ?_, nofun, nofun⟩
        rintro _ ⟨⟩
        exact ⟨Nat.le_of_not_lt read, nofun⟩
    · cases taken
  | join =>
    dsimp only at taken
    split at taken
    · rename_i phase
      split at taken
      · rename_i found
        cases taken
        exact ⟨balanced.withPhase _ _, joined.join phase found⟩
      · cases taken
      · rename_i none
        cases taken
        exact ⟨balanced.withPhase _ _, joined.done phase none⟩
    · cases taken
  | timeout =>
    dsimp only at taken
    split at taken
    · split at taken
      · cases taken
      · cases taken
      · cases taken
        exact ⟨balanced.withPhase _ _, nofun, nofun, nofun⟩
    · cases taken
  | sendChecksum =>
    dsimp only at taken
    split at taken
    · rename_i phase
      cases taken
      exact ⟨balanced.withPhase _ _, joined.finish phase⟩
    · cases taken
  | checksumError =>
    dsimp only at taken
    split at taken
    · cases taken
      exact ⟨balanced.withPhase _ _, nofun, nofun, nofun⟩
    · cases taken
  | proceed =>
    obtain ⟨task, present, proceeded⟩ := Option.bind_eq_some_iff.mp taken
    refine ⟨?_, joined.handed present (proceed_handed proceeded)⟩
    cases task with
    | reading => exact balanced.read present proceeded
    | busy =>
      refine balanced.busy present ?_ proceeded
      rintro rfl
      simpa only [orderly, present, Option.all_some, ChunkTask.inOrder, decide_eq_true_eq] using admitted
    | finished => cases proceeded
  | readError | sendError => exact absurd admitted id

/-- An orderly upload that returns has delivered the file, over no more streams at a time than it
may open. -/
theorem delivers_of_run {content : Bytes} {options : TransferOptions} {upload : QuicUpload}
    {events : List UploadEvent} {final : QuicUpload} (started : start content options = some upload)
    (run : Execution (step sha256) orderly upload events final) : final.Delivers sha256 := by
  obtain ⟨balanced, spawning⟩ := balanced_start started
  have ⟨balanced, joined⟩ := run.invariant (fun upload => Balanced upload ∧ Joined sha256 upload)
    (fun _ _ _ ⟨balanced, joined⟩ admitted taken => balanced.step joined admitted taken)
    ⟨balanced, .of_spawning spawning⟩
  constructor
  · intro result phase
    exact (balanced.settled (joined.returned result phase).1).1
  · intro result phase
    obtain ⟨settled, sent, total, _⟩ := joined.returned result phase
    exact ⟨sent.trans (balanced.settled settled).2.1, total⟩
  · intro result phase
    obtain ⟨settled, _, _, checksum⟩ := joined.returned result phase
    rw [checksum, (balanced.settled settled).2.2]
  · refine Nat.le_trans (List.countP_mono_left ?_) balanced.few
    intro task _ sending
    cases task with
    | reading => rfl
    | busy => rfl
    | finished => cases sending

def oneByte : QuicUpload :=
  { content := [7], options := {}, offset := 0, cursor := 0, available := windowBytes.toNat,
    hashed := [], totalSent := 0
    sent := [], tasks := [], checksum := none, phase := .spawning }

/-- In the place of the digest. -/
def hexadecimal (bytes : Bytes) : String := String.ofList (bytes.flatMap lowerHex)

def threeBytes : QuicUpload :=
  { oneByte with
    content := [7, 8, 9], options := { parallel := true, parallelStreams := 2, chunkSize := 2 } }

theorem start_threeBytes : start [7, 8, 9] threeBytes.options = some threeBytes := by
  unfold start
  rw [if_neg (by decide), prehash, if_pos (show threeBytes.options.resumeOffset = 0 from rfl)]
  rfl

/-- Both streams are open at a time, and the second chunk is through first. -/
def sentEvents : List UploadEvent :=
  [.spawn, .proceed 0, .spawn, .proceed 1, .leave, .proceed 0, .proceed 1, .proceed 1, .proceed 0,
    .proceed 1, .proceed 0,
   .proceed 0, .proceed 1, .proceed 1, .proceed 0, .proceed 0, .proceed 1, .join, .join,
   .join, .sendChecksum]

/-- No stream opens for the only chunk. -/
def failedEvents : List UploadEvent :=
  [.spawn, .proceed 0, .leave, .proceed 0, .sendError 0, .join, .join, .sendChecksum]

def isReturned (upload : QuicUpload) : Bool :=
  match upload.phase with
  | .returned (some _) => true
  | _ => false

theorem delivers_twoStreams :
    ∃ final, Execution (step hexadecimal) anything threeBytes sentEvents final ∧
    final.isReturned = true ∧ final.Delivers hexadecimal := by
  obtain ⟨final, run, returned⟩ := exists_execution isReturned
    (show (replayWhere (step hexadecimal) (fun upload event => decide (upload.orderly event))
      threeBytes sentEvents).any _ = true by
      decide +kernel)
  have orderlyRun := run.weaken fun _ _ admitted => of_decide_eq_true admitted
  exact ⟨final, orderlyRun.plain, returned, delivers_of_run start_threeBytes orderlyRun⟩

def returnedEmpty (upload : QuicUpload) : Bool :=
  upload.isReturned && upload.sent.isEmpty &&
  decide (upload.options.resumeOffset < upload.content.length ∧ 0 < upload.options.chunkSize)

theorem not_delivers_of_returnedEmpty (empty : upload.returnedEmpty = true) :
    ¬ upload.Delivers sha256 := by
  intro delivers
  simp only [returnedEmpty, Bool.and_eq_true, decide_eq_true_eq] at empty
  obtain ⟨⟨returned, unsent⟩, more, positive⟩ := empty
  unfold isReturned at returned
  split at returned
  · rename_i result phase
    have sent := delivers.sent result phase
    rw [List.isEmpty_iff.mp unsent, chunksFrom_cons more positive] at sent
    exact absurd sent.symm.eq_nil (List.cons_ne_nil _ _)
  · cases returned

theorem failed_returned :
    ∃ final, Execution (step hexadecimal) anything oneByte failedEvents final ∧
    ¬ final.Delivers hexadecimal := by
  obtain ⟨final, run, empty⟩ := exists_execution returnedEmpty
    (show (replayWhere (step hexadecimal) (fun _ _ => true) oneByte failedEvents).any _ =
      true by decide +kernel)
  exact ⟨final, run.plain, not_delivers_of_returnedEmpty empty⟩

end QuicUpload

end DistributedOs.Transfer
