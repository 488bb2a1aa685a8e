import DistributedOs.Transfer.QuicUpload
import Mathlib.Algebra.Order.Group.Multiset

/-! The accounts of an upload over QUIC: what has been read of the file is with a task, or has been
sent, fed to the hash and counted. -/

namespace DistributedOs.Transfer

open Semantics

namespace ChunkTask

def pending : ChunkTask → Multiset (Nat × Bytes)
  | .busy .waiting pos data => {(pos, data)}
  | .busy .opening pos data => {(pos, data)}
  | .busy .sending pos data => {(pos, data)}
  | _ => 0

def unhashed : ChunkTask → Nat
  | .busy .hashed _ _ => 0
  | .busy .pacing _ _ => 0
  | .busy _ _ data => data.length
  | _ => 0

/-- The bytes that a task has still to add to the total. -/
def uncounted : ChunkTask → Nat
  | .busy .pacing _ _ => 0
  | .busy _ _ data => data.length
  | _ => 0

/-- What a task has read stands in the file where it was read. -/
def Holds (content : Bytes) : ChunkTask → Prop
  | .busy _ pos data => data = (content.drop pos).take data.length
  | _ => True

end ChunkTask

section Chunks

variable {content : Bytes} {chunkSize pos : Nat}

theorem chunksFrom_of_le (ended : content.length ≤ pos) :
    chunksFrom content chunkSize pos = [] := by
  rw [chunksFrom, if_neg]
  omega

theorem chunksFrom_cons (more : pos < content.length) (positive : 0 < chunkSize) :
    chunksFrom content chunkSize pos =
      (pos, (content.drop pos).take (min (content.length - pos) chunkSize)) ::
        chunksFrom content chunkSize (pos + min (content.length - pos) chunkSize) := by
  rw [chunksFrom, if_pos ⟨more, positive⟩]
  by_cases last : content.length - pos ≤ chunkSize
  · rw [Nat.min_eq_left last, chunksFrom_of_le (show content.length ≤ pos + chunkSize by omega),
      chunksFrom_of_le (by omega),
      List.take_of_length_le (by rw [List.length_drop]; exact last),
      List.take_of_length_le (by rw [List.length_drop])]
  · rw [Nat.min_eq_right (by omega)]

theorem prehash_some {cursor remaining after : Nat} {hashed all : Bytes}
    (read : prehash content cursor remaining hashed = some (after, all))
    (within : cursor ≤ content.length) :
    after = cursor + remaining ∧ after ≤ content.length ∧
      all = hashed ++ (content.drop cursor).take remaining := by
  induction cursor, remaining, hashed using prehash.induct content with
  | case1 =>
    rw [prehash, if_pos rfl] at read
    cases read
    exact ⟨rfl, within, by rw [List.take_zero, List.append_nil]⟩
  | case2 _ remaining _ more toRead fits ih =>
    rw [prehash, if_neg more] at read
    dsimp only at read
    rw [if_pos fits] at read
    obtain ⟨_, ended, collected⟩ := ih read fits
    have least : toRead ≤ remaining := Nat.min_le_left _ _
    refine ⟨by omega, ended, ?_⟩
    rw [collected, List.append_assoc, ← List.drop_drop, ← List.take_add]
    congr 2
    omega
  | case3 _ _ _ more _ short =>
    rw [prehash, if_neg more] at read
    dsimp only at read
    rw [if_neg short] at read
    cases read

end Chunks

namespace QuicUpload

/-- Every chunk read so far has been sent or is some task's, and so has every byte been counted, and
fed to the hash. -/
structure Balanced (upload : QuicUpload) : Prop where
  low : upload.options.resumeOffset ≤ upload.offset
  high : upload.offset ≤ upload.size
  cursor : upload.cursor = upload.offset
  stuck : upload.options.chunkSize = 0 → upload.offset = upload.options.resumeOffset
  idle : upload.options.resumeOffset = upload.size → upload.tasks = [] ∧ upload.sent = []
  chunks : 0 < upload.options.chunkSize →
    (upload.sent : Multiset (Nat × Bytes)) + (upload.tasks.map ChunkTask.pending).sum +
        chunksFrom upload.content upload.options.chunkSize upload.offset =
      chunksFrom upload.content upload.options.chunkSize upload.options.resumeOffset
  counted : upload.options.resumeOffset + upload.totalSent +
    (upload.tasks.map ChunkTask.uncounted).sum = upload.offset
  fed : upload.hashed.length + (upload.tasks.map ChunkTask.unhashed).sum = upload.offset
  hashed : upload.hashed = upload.content.take upload.hashed.length
  holds : ∀ task ∈ upload.tasks, task.Holds upload.content
  few : upload.tasks.countP (fun task => !task.isOver) ≤ upload.options.numStreams

variable {upload after : QuicUpload} {index : Nat} {task next : ChunkTask}

theorem balanced_start {content : Bytes} {options : TransferOptions}
    (started : start content options = some upload) :
    Balanced upload ∧ upload.phase = .spawning := by
  unfold start at started
  split at started
  · cases started
  · obtain ⟨⟨_, _⟩, read, rfl⟩ := Option.map_eq_some_iff.mp started
    obtain ⟨moved, within, skipped⟩ := prehash_some read (Nat.zero_le _)
    rw [Nat.zero_add] at moved
    subst moved
    rw [List.nil_append, List.drop_zero] at skipped
    subst skipped
    refine ⟨?_, rfl⟩
    constructor
    · exact Nat.le_refl _
    · exact within
    · rfl
    · exact fun _ => rfl
    · exact fun _ => ⟨rfl, rfl⟩
    · exact fun _ => zero_add _
    · exact Nat.add_zero _
    · simpa using within
    · simp
    · nofun
    · exact Nat.zero_le _

/-- What one task hands on changes no account. -/
theorem Balanced.turn (balanced : Balanced upload) (next : ChunkTask)
    (present : upload.tasks[index]? = some task) (alive : task.isOver = false)
    (tasks : after.tasks = upload.tasks.set index next) (content : after.content = upload.content)
    (options : after.options = upload.options) (low : upload.offset ≤ after.offset)
    (high : after.offset ≤ upload.size) (cursor : after.cursor = after.offset)
    (stuck : upload.options.chunkSize = 0 → after.offset = upload.offset)
    (chunks : 0 < upload.options.chunkSize →
      (after.sent : Multiset (Nat × Bytes)) + next.pending + chunksFrom upload.content
      upload.options.chunkSize after.offset =
        upload.sent + task.pending + chunksFrom upload.content
        upload.options.chunkSize upload.offset)
    (counted : after.totalSent + next.uncounted + upload.offset = upload.totalSent +
      task.uncounted + after.offset)
    (fed : after.hashed.length + next.unhashed + upload.offset = upload.hashed.length +
      task.unhashed + after.offset)
    (hashed : after.hashed = upload.content.take after.hashed.length)
    (holds : next.Holds upload.content) : Balanced after := by
  have size : after.size = upload.size := congrArg List.length content
  constructor
  · rw [options]
    exact balanced.low.trans low
  · exact size ▸ high
  · exact cursor
  · rw [options]
    exact fun zero => (stuck zero).trans (balanced.stuck zero)
  · rw [options, size]
    intro whole
    rw [(balanced.idle whole).1] at present
    cases present
  · rw [options, content, tasks]
    intro positive
    exact Pool.sum_balanced ChunkTask.pending present (balanced.chunks positive) (chunks positive)
  · rw [options, tasks]
    have moved : ((upload.tasks.set index next).map ChunkTask.uncounted).sum + task.uncounted =
        (upload.tasks.map ChunkTask.uncounted).sum + next.uncounted :=
        Pool.sum_set ChunkTask.uncounted next present
    have before := balanced.counted
    omega
  · rw [tasks]
    have moved : ((upload.tasks.set index next).map ChunkTask.unhashed).sum + task.unhashed =
        (upload.tasks.map ChunkTask.unhashed).sum + next.unhashed :=
        Pool.sum_set ChunkTask.unhashed next present
    have before := balanced.fed
    omega
  · rwa [content]
  · rw [tasks, content]
    intro other member
    rcases List.mem_or_eq_of_mem_set member with old | same
    · exact balanced.holds other old
    · exact same ▸ holds
  · rw [options, tasks]
    have moved := Pool.countP_turned (fun task => !task.isOver) next [] present
    rw [List.append_nil, alive, List.countP_nil, Bool.not_false, if_pos rfl] at moved
    have least : (if (!next.isOver) = true then 1 else 0) ≤ 1 := by
      split
      · exact Nat.le_refl 1
      · exact Nat.zero_le 1
    have few := balanced.few
    omega

/-- A task that reads takes the next chunk, or finds that there is none. -/
theorem Balanced.read (balanced : Balanced upload) (present : upload.tasks[index]? = some .reading)
    (taken : upload.proceed index .reading = some after) : Balanced after := by
  have cursor := balanced.cursor
  have high := balanced.high
  unfold QuicUpload.proceed at taken
  dsimp only at taken
  split at taken
  · cases taken
    exact balanced.turn (.finished true) present rfl rfl rfl rfl
      (Nat.le_refl _) high cursor (fun _ => rfl)
      (fun _ => rfl) rfl rfl balanced.hashed trivial
  · rename_i unread
    split at taken
    · rename_i fits
      cases taken
      have length : ((upload.content.drop upload.cursor).take upload.toRead).length = upload.toRead := by
        rw [List.length_take, List.length_drop]
        unfold size at fits
        omega
      refine balanced.turn (.busy .waiting upload.offset _) present rfl rfl rfl rfl ?_ ?_ ?_ ?_ ?_
        ?_ ?_ balanced.hashed ?_
      · exact Nat.le_add_right _ _
      · exact cursor ▸ fits
      · exact congrArg (· + upload.toRead) cursor
      · intro zero
        unfold toRead
        rw [zero, Nat.min_zero, Nat.add_zero]
      · intro positive
        have next := chunksFrom_cons (Nat.lt_of_not_le unread) positive
        rw [next, cursor, ← Multiset.cons_coe, ← Multiset.singleton_add]
        simp only [ChunkTask.pending, put, toRead, size, add_zero]
        rw [add_assoc]
      · simp only [ChunkTask.uncounted, put, length]
        omega
      · simp only [ChunkTask.unhashed, put, length]
        omega
      · simp only [ChunkTask.Holds]
        rw [length, cursor]
    · cases taken

variable {stage : ChunkStage} {pos : Nat} {data : Bytes}

theorem Balanced.feed (balanced : Balanced upload)
    (present : upload.tasks[index]? = some (.busy .sent pos data))
    (inOrder : upload.hashed.length = pos) :
    upload.hashed ++ data = upload.content.take (upload.hashed ++ data).length := by
  have holds : data = (upload.content.drop pos).take data.length :=
    balanced.holds _ (List.mem_of_getElem? present)
  rw [List.length_append, List.take_add, ← balanced.hashed, inOrder, ← holds]

/-- A task with a chunk in its hands. -/
theorem Balanced.busy (balanced : Balanced upload)
    (present : upload.tasks[index]? = some (.busy stage pos data))
    (inOrder : stage = .sent → upload.hashed.length = pos)
    (taken : upload.proceed index (.busy stage pos data) = some after) : Balanced after := by
  have holds : data = (upload.content.drop pos).take data.length :=
    balanced.holds _ (List.mem_of_getElem? present)
  have high := balanced.high
  have cursor := balanced.cursor
  cases stage with
  | waiting =>
    simp only [QuicUpload.proceed] at taken
    split at taken
    · cases taken
      exact balanced.turn (.busy .opening pos data) present rfl rfl rfl rfl
        (Nat.le_refl _) high cursor (fun _ => rfl)
        (fun _ => rfl) rfl rfl balanced.hashed holds
    · cases taken
  | opening =>
    cases taken
    exact balanced.turn (.busy .sending pos data) present rfl rfl rfl rfl
      (Nat.le_refl _) high cursor (fun _ => rfl)
      (fun _ => rfl) rfl rfl balanced.hashed holds
  | sending =>
    cases taken
    refine balanced.turn (.busy .sent pos data) present rfl rfl rfl rfl
      (Nat.le_refl _) high cursor (fun _ => rfl)
      ?_ rfl rfl balanced.hashed holds
    intro _
    simp only [ChunkTask.pending, put, add_zero]
    rw [← Multiset.coe_add, Multiset.coe_singleton]
  | sent =>
    cases taken
    refine balanced.turn (.busy .hashed pos data) present rfl rfl rfl rfl
      (Nat.le_refl _) high cursor (fun _ => rfl)
      (fun _ => rfl) rfl ?_ (balanced.feed present (inOrder rfl)) holds
    simp only [ChunkTask.unhashed, List.length_append, put]
    omega
  | hashed =>
    cases taken
    refine balanced.turn (.busy .pacing pos data) present rfl rfl rfl rfl
      (Nat.le_refl _) high cursor (fun _ => rfl)
      (fun _ => rfl) ?_ rfl balanced.hashed holds
    simp only [ChunkTask.uncounted, put]
    omega
  | pacing =>
    cases taken
    exact balanced.turn (.finished true) present rfl rfl rfl rfl
      (Nat.le_refl _) high cursor (fun _ => rfl)
      (fun _ => rfl) rfl rfl balanced.hashed trivial

/-- A turn of a task leaves the loop where it is. -/
structure Handed (upload : QuicUpload) (index : Nat) (task : ChunkTask)
    (after : QuicUpload) : Prop where
  alive : task.isOver = false
  tasks : ∃ next, after.tasks = upload.tasks.set index next
  phase : after.phase = upload.phase
  content : after.content = upload.content
  offset : upload.offset ≤ after.offset

theorem proceed_handed (taken : upload.proceed index task = some after) :
    Handed upload index task after := by
  cases task with
  | reading =>
    unfold QuicUpload.proceed at taken
    dsimp only at taken
    split at taken
    · cases taken
      exact ⟨rfl, ⟨_, rfl⟩, rfl, rfl, Nat.le_refl _⟩
    split at taken
    · cases taken
      exact ⟨rfl, ⟨_, rfl⟩, rfl, rfl, Nat.le_add_right _ _⟩
    · cases taken
  | busy stage =>
    cases stage with
    | waiting =>
      simp only [QuicUpload.proceed] at taken
      split at taken
      · cases taken
        exact ⟨rfl, ⟨_, rfl⟩, rfl, rfl, Nat.le_refl _⟩
      · cases taken
    | opening | sending | sent | hashed | pacing =>
      cases taken
      exact ⟨rfl, ⟨_, rfl⟩, rfl, rfl, Nat.le_refl _⟩
  | finished => cases taken

end QuicUpload

end DistributedOs.Transfer
