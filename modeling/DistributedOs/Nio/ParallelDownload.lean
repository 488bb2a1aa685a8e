import DistributedOs.Nio.Download
import DistributedOs.Semantics.TaskPool

/-! `parallelHttpDownload`: one thread for each range of the file, and a caller that joins them one
after the other, for two minutes each at most. The pre-allocation succeeds only where the file
system takes a file of that size, so no position overflows. -/

namespace DistributedOs.Nio

open Semantics

def getContentLength (answer : Answer) : Option Nat :=
  match readSome () 4096 answer.pieces with
  | .error _ => none
  | .ok read => contentLength read.1

/-- `written` is what the thread has written from the start of its range on, `rest` what is still to
come. -/
inductive PartThread where
  | requesting
  | receiving (written rest : Bytes) (broken : Bool)
  | done (written : Bytes)
  | failed
  deriving DecidableEq

def PartThread.ended : PartThread → Bool
  | .done _ | .failed => true
  | .requesting | .receiving .. => false

structure ParallelDownload where
  totalSize : Nat
  numStreams : Nat
  file : Bytes
  threads : List PartThread
  errors : List String
  totalDownloaded : Nat
  joined : Nat
  result : Option TransferResult

/-- A `message` is that of the exception, where there is one. -/
inductive PartEvent where
  | skip (streamIdx : Nat)
  | respond (streamIdx : Nat) (answer : Answer) (message : String)
  | transfer (streamIdx count : Nat)
  | finish (streamIdx : Nat) (message : String)
  | fail (streamIdx : Nat) (message : String)
  | join
  | timeout
  | report

namespace ParallelDownload

def launch (totalSize numStreams : Nat) : ParallelDownload :=
  { totalSize, numStreams, file := List.replicate totalSize 0,
    threads := List.replicate numStreams .requesting, errors := []
    totalDownloaded := 0, joined := 0, result := none }

variable (download : ParallelDownload) (streamIdx : Nat)

def chunkSize : Nat := (download.totalSize + download.numStreams - 1) / download.numStreams

def rangeStart : Nat := streamIdx * download.chunkSize

def rangeEnd : Nat :=
  min (download.rangeStart streamIdx + download.chunkSize - 1) (download.totalSize - 1)

def setThread (thread : PartThread) : ParallelDownload :=
  { download with threads := download.threads.set streamIdx thread }

def addError (message : String) : ParallelDownload :=
  { download.setThread streamIdx .failed with
    errors := download.errors ++ ["Stream " ++ toString streamIdx ++ ": " ++ message] }

def write (written data rest : Bytes) (broken : Bool) : ParallelDownload :=
  { download.setThread streamIdx (.receiving (written ++ data) rest broken) with
    file := writeAt download.file (download.rangeStart streamIdx + written.length) data
    totalDownloaded := download.totalDownloaded + data.length }

def skip : Option ParallelDownload :=
  match download.threads[streamIdx]? with
  | some .requesting =>
    if download.totalSize ≤ download.rangeStart streamIdx then
      some (download.setThread streamIdx (.done [])) else none
  | _ => none

/-- The head is read but not looked at, and what came with it is written. -/
def respond (answer : Answer) (message : String) : Option ParallelDownload :=
  match download.threads[streamIdx]? with
  | some .requesting =>
    if download.totalSize ≤ download.rangeStart streamIdx then none
    else match readResponse answer.pieces with
      | none => some (download.addError streamIdx (if answer.broken then message else "Server closed"))
      | some response =>
        some (download.write streamIdx [] response.leftover response.rest.flatten answer.broken)
  | _ => none

/-- `transferFrom` moves so many bytes. -/
def transfer (count : Nat) : Option ParallelDownload :=
  match download.threads[streamIdx]? with
  | some (.receiving written rest broken) =>
    if download.rangeStart streamIdx + written.length ≤ download.file.length ∧ 0 < count ∧
        count ≤ transferChunkSize ∧ count ≤ rest.length then
      some (download.write streamIdx written (rest.take count) (rest.drop count) broken)
    else none
  | _ => none

/-- `transferFrom` moves nothing more, or throws. -/
def finish (message : String) : Option ParallelDownload :=
  match download.threads[streamIdx]? with
  | some (.receiving written rest broken) =>
    if download.file.length < download.rangeStart streamIdx + written.length then
      some (download.setThread streamIdx (.done written))
    else if rest = [] then
      some (if broken then download.addError streamIdx message
        else download.setThread streamIdx (.done written))
    else none
  | _ => none

/-- Connecting, the request or a write throws. -/
def fail (message : String) : Option ParallelDownload :=
  match download.threads[streamIdx]? with
  | some .requesting =>
    if download.totalSize ≤ download.rangeStart streamIdx then none
    else some (download.addError streamIdx message)
  | some (.receiving ..) => some (download.addError streamIdx message)
  | _ => none

/-- The next thread is joined when it has ended, or else when the time is up. -/
def join (ended : Bool) : Option ParallelDownload :=
  match download.threads[download.joined]? with
  | some thread =>
    if thread.ended = ended then some { download with joined := download.joined + 1 } else none
  | none => none

/-- The result goes by the errors that there are when the last thread has been joined. -/
def report : Option ParallelDownload :=
  if download.joined = download.threads.length ∧ download.result = none then
    some { download with
      result := some { success := download.errors.isEmpty, bytesTransferred := download.totalDownloaded, checksum := ""
                       errorMessage := "; ".intercalate download.errors } }
  else none

def step (download : ParallelDownload) : PartEvent → Option ParallelDownload
  | .skip streamIdx => download.skip streamIdx
  | .respond streamIdx answer message => download.respond streamIdx answer message
  | .transfer streamIdx count => download.transfer streamIdx count
  | .finish streamIdx message => download.finish streamIdx message
  | .fail streamIdx message => download.fail streamIdx message
  | .join => download.join true
  | .timeout => download.join false
  | .report => download.report

end ParallelDownload

/-- What the call does before any thread is started. -/
inductive Launch where
  | refused (errorMessage : String)
  | thrown
  | launched (download : ParallelDownload)

/-- For a negative number of streams no thread is started, and for none the division throws. -/
def parallelHttpDownload (head : Answer) (numStreams : Int) : Launch :=
  match getContentLength head with
  | none => .refused "Cannot determine file size"
  | some totalSize =>
    if totalSize = 0 then .refused "Empty file"
    else if numStreams = 0 then .thrown
    else .launched (.launch totalSize numStreams.toNat)

/-- With what is still to come it is the thread's own range, and so far it stands at its place. -/
def PartThread.Keeps (own stored : Bytes) : PartThread → Prop
  | .requesting => True
  | .receiving written rest _ => written ++ rest = own ∧ written <+: stored
  | .done written => written = own ∧ written <+: stored
  | .failed => False

theorem PartThread.Keeps.trans {own stored changed : Bytes} {thread : PartThread}
    (keeps : thread.Keeps own stored)
    (kept : ∀ written, written.length ≤ own.length → written <+: stored → written <+: changed) :
    thread.Keeps own changed := by
  cases thread with
  | requesting => trivial
  | receiving written =>
    obtain ⟨same, held⟩ := keeps
    have part := congrArg List.length same
    rw [List.length_append] at part
    exact ⟨same, kept written (by omega) held⟩
  | done written =>
    obtain ⟨same, held⟩ := keeps
    exact ⟨same, kept written (by rw [same]) held⟩
  | failed => exact keeps

namespace ParallelDownload

variable {download after start final : ParallelDownload} {file : Bytes} {event : PartEvent}
  {streamIdx : Nat}

def part (download : ParallelDownload) (file : Bytes) (streamIdx : Nat) : Bytes :=
  (file.drop (download.rangeStart streamIdx)).take
  (download.rangeEnd streamIdx + 1 - download.rangeStart streamIdx)

/-- When success is reported, every thread has written its own range, and the file is the one there
is. -/
structure Faithful (file : Bytes) (download : ParallelDownload) : Prop where
  ranges : ∀ result, download.result = some result → result.success = true →
    ∀ streamIdx < download.numStreams,
    download.threads[streamIdx]? = some (.done (download.part file streamIdx))
  whole : ∀ result, download.result = some result → result.success = true → download.file = file

/-- Every answer that does not end in an exception has the range that was asked for, and no join
gives a thread up. -/
def Answered (file : Bytes) (download : ParallelDownload) : PartEvent → Prop
  | .respond streamIdx answer _ => ∀ head body, splitHeader answer.stream = some (head, body) →
    answer.broken = true ∨ body = download.part file streamIdx
  | .timeout => False
  | _ => True

theorem rangeStart_succ (download : ParallelDownload) (streamIdx : Nat) :
    download.rangeStart (streamIdx + 1) = download.rangeStart streamIdx + download.chunkSize :=
  Nat.succ_mul streamIdx download.chunkSize

theorem rangeStart_le (download : ParallelDownload) (before : first < later) :
    download.rangeStart first + download.chunkSize ≤ download.rangeStart later := by
  rw [← rangeStart_succ]
  exact Nat.mul_le_mul_right _ before

theorem chunkSize_pos (streams : 0 < download.numStreams) (some_ : 0 < download.totalSize) :
    0 < download.chunkSize :=
  Nat.div_pos (by omega) streams

theorem part_eq (total : download.totalSize = file.length) (streams : 0 < download.numStreams)
    (streamIdx : Nat) :
    download.part file streamIdx = (file.drop (download.rangeStart streamIdx)).take
      download.chunkSize := by
  unfold part
  by_cases behind : file.length ≤ download.rangeStart streamIdx
  · rw [List.drop_of_length_le behind, List.take_nil, List.take_nil]
  · have positive := chunkSize_pos streams (show 0 < download.totalSize by omega)
    have within : download.rangeEnd streamIdx + 1 - download.rangeStart streamIdx =
        min download.chunkSize (file.drop (download.rangeStart streamIdx)).length := by
      rw [List.length_drop, rangeEnd]
      omega
    rw [within, ← List.take_take, List.take_length]

theorem length_part (total : download.totalSize = file.length) (streams : 0 < download.numStreams)
    (streamIdx : Nat) :
    (download.part file streamIdx).length = min download.chunkSize
      (file.length - download.rangeStart streamIdx) := by
  rw [part_eq total streams, List.length_take, List.length_drop]

theorem total_le (streams : 0 < download.numStreams) :
    download.totalSize ≤ download.rangeStart download.numStreams := by
  have rounded : download.totalSize + download.numStreams - 1 <
      download.chunkSize * download.numStreams + download.numStreams :=
    Nat.lt_div_mul_add streams
  rw [rangeStart, Nat.mul_comm]
  omega

theorem whole_of_parts (total : download.totalSize = file.length)
    (streams : 0 < download.numStreams) (size : stored.length = file.length)
    (parts : ∀ streamIdx < download.numStreams, download.part file streamIdx <+:
      stored.drop (download.rangeStart streamIdx)) :
    stored = file := by
  have front : ∀ count ≤ download.numStreams, stored.take (download.rangeStart count) = file.take
      (download.rangeStart count) := by
    intro count
    induction count with
    | zero =>
      intro _
      rw [rangeStart, Nat.zero_mul, List.take_zero, List.take_zero]
    | succ count ih =>
      intro small
      have next := List.prefix_iff_eq_take.mp (parts count small)
      rw [length_part total streams, ← size, ← List.length_drop, ← List.take_take, List.take_length,
        part_eq total streams] at next
      rw [rangeStart_succ, List.take_add, List.take_add, ih (Nat.le_of_lt small), next]
  have all := front download.numStreams (Nat.le_refl _)
  have enough := total_le streams
  rwa [List.take_of_length_le (by omega), List.take_of_length_le (by omega)] at all

variable {stored written data own : Bytes} {position place : Nat}

theorem prefix_writeAt (inside : position + written.length ≤ stored.length)
    (held : written <+: stored.drop position)
    (data : Bytes) :
    written ++ data <+: (writeAt stored (position + written.length) data).drop position := by
  have kept : (stored.take (position + written.length)).drop position = written := by
    rw [List.drop_take, Nat.add_sub_cancel_left]
    exact (List.prefix_iff_eq_take.mp held).symm
  have front : position ≤ (stored.take (position + written.length)).length := by
    rw [List.length_take]
    omega
  rw [writeAt_inside inside, List.drop_append_of_le_length front, kept, ← List.append_assoc]
  exact List.prefix_append _ _

theorem prefix_writeAt_apart (inside : place ≤ stored.length)
    (held : written <+: stored.drop position)
    (apart : place + data.length ≤ position ∨ position + written.length ≤ place) :
    written <+: (writeAt stored place data).drop position := by
  rw [writeAt_inside inside]
  rcases apart with before | _
  · have front : (stored.take place ++ data).length = place + data.length := by
      rw [List.length_append, List.length_take]
      omega
    rw [← List.append_assoc, List.drop_append, List.drop_of_length_le (front ▸ before),
      List.nil_append, front, List.drop_drop,
      Nat.add_sub_cancel' before]
    exact held
  · have front : position ≤ (stored.take place).length := by
      rw [List.length_take]
      omega
    rw [List.drop_append_of_le_length front, List.drop_take]
    exact (List.prefix_take_iff.mpr ⟨held, by omega⟩).trans (List.prefix_append _ _)

/-- Every thread has written in its own range only, and nothing is missing. -/
structure Intact (file : Bytes) (download : ParallelDownload) : Prop where
  size : download.file.length = file.length
  keeps : ∀ (streamIdx : Nat) (thread : PartThread), download.threads[streamIdx]? = some thread →
    thread.Keeps (download.part file streamIdx) (download.file.drop (download.rangeStart streamIdx))

/-- An error is there, or is certain to come. -/
def Doomed (download : ParallelDownload) : Prop :=
  download.errors ≠ [] ∨ ∃ (streamIdx : Nat) (written rest : Bytes),
  download.threads[streamIdx]? = some (.receiving written rest true)

structure Sound (file : Bytes) (download : ParallelDownload) : Prop where
  total : download.totalSize = file.length
  streams : 0 < download.numStreams
  count : download.threads.length = download.numStreams
  size : file.length ≤ download.file.length
  reached : ∀ (streamIdx : Nat) (written rest : Bytes) (broken : Bool),
    download.threads[streamIdx]? = some (.receiving written rest broken) →
    download.rangeStart streamIdx + written.length ≤ download.file.length
  joined : ∀ streamIdx < download.joined, ∃ thread, download.threads[streamIdx]? = some thread ∧
    thread.ended = true
  honest : download.Doomed ∨ Intact file download
  concluded : ∀ result, download.result = some result →
    download.joined = download.threads.length ∧ (result.success = true → download.errors = [])

theorem sound_launch {numStreams : Nat} (streams : 0 < numStreams) :
    Sound file (launch file.length numStreams) where
  total := rfl
  streams := streams
  count := List.length_replicate
  size := (List.length_replicate).ge
  reached streamIdx written rest broken here := by
    cases List.eq_of_mem_replicate (List.mem_of_getElem? here)
  joined streamIdx none := absurd none (Nat.not_lt_zero _)
  honest := .inr
    { size := List.length_replicate
      keeps := fun streamIdx thread here => by
        cases List.eq_of_mem_replicate (List.mem_of_getElem? here)
        trivial }
  concluded := nofun

/-- When every thread has ended and there is no error, every range is in the file. -/
theorem Sound.done (sound : Sound file download) {result : TransferResult}
    (reported : download.result = some result) (success : result.success = true) :
    Intact file download ∧ ∀ streamIdx < download.numStreams,
      download.threads[streamIdx]? = some (.done (download.part file streamIdx)) := by
  obtain ⟨all, none⟩ := sound.concluded result reported
  have ended : ∀ streamIdx < download.numStreams, ∃ thread,
      download.threads[streamIdx]? = some thread ∧ thread.ended = true := by
    intro streamIdx small
    apply sound.joined
    rwa [all, sound.count]
  have intact : Intact file download := by
    rcases sound.honest with (some_ | ⟨streamIdx, written, rest, here⟩) | intact
    · exact absurd (none success) some_
    · have small := (List.getElem?_eq_some_iff.mp here).1
      rw [sound.count] at small
      obtain ⟨thread, same, stopped⟩ := ended streamIdx small
      rw [here] at same
      cases same
      cases stopped
    · exact intact
  refine ⟨intact, fun streamIdx small => ?_⟩
  obtain ⟨thread, here, stopped⟩ := ended streamIdx small
  have keeps := intact.keeps streamIdx thread here
  cases thread with
  | requesting => cases stopped
  | receiving => cases stopped
  | done => rw [here, keeps.1]
  | failed => exact keeps.elim

theorem Sound.faithful (sound : Sound file download) : Faithful file download := by
  refine ⟨fun result reported success => (sound.done reported success).2,
    fun result reported success => ?_⟩
  obtain ⟨intact, done⟩ := sound.done reported success
  apply whole_of_parts sound.total sound.streams intact.size
  intro streamIdx small
  exact (intact.keeps streamIdx _ (done streamIdx small)).2

variable {old thread : PartThread} {rest : Bytes} {broken : Bool} {message : String}

theorem Sound.unreported (sound : Sound file download)
    (here : download.threads[streamIdx]? = some old) (live : old.ended = false) :
    download.joined ≤ streamIdx ∧ download.result = none := by
  have later : download.joined ≤ streamIdx := by
    by_contra joined
    obtain ⟨_, same, stopped⟩ := sound.joined streamIdx (Nat.lt_of_not_le joined)
    rw [here] at same
    cases same
    rw [live] at stopped
    cases stopped
  refine ⟨later, ?_⟩
  cases reported : download.result with
  | none => rfl
  | some result =>
    have all := (sound.concluded result reported).1
    have small := (List.getElem?_eq_some_iff.mp here).1
    omega

/-- A live thread goes on; the others, the joins and the result stay. -/
theorem Sound.advance (sound : Sound file download) (here : download.threads[streamIdx]? = some old)
    (live : old.ended = false)
    (same : after.totalSize = download.totalSize ∧ after.numStreams = download.numStreams ∧
      after.threads = download.threads.set streamIdx thread ∧ after.joined = download.joined ∧
      after.result = download.result)
    (grown : download.file.length ≤ after.file.length)
    (reached : ∀ written rest broken, thread = .receiving written rest broken →
      download.rangeStart streamIdx + written.length ≤ after.file.length)
    (honest : after.Doomed ∨ Intact file after) : Sound file after := by
  obtain ⟨total, streams, threads, joined, result⟩ := same
  obtain ⟨_, unreported⟩ := sound.unreported here live
  have start : ∀ streamIdx, after.rangeStart streamIdx = download.rangeStart streamIdx := by
    intro _
    rw [rangeStart, chunkSize, total, streams, rangeStart, chunkSize]
  refine ⟨total.trans sound.total, streams ▸ sound.streams, ?_, sound.size.trans grown,
    ?_, ?_, honest, ?_⟩
  · rw [threads, List.length_set, streams, sound.count]
  · intro other written rest broken there
    rw [threads] at there
    rw [start]
    rcases Pool.getElem?_set_cases there with ⟨rfl, same⟩ | ⟨_, before⟩
    · exact reached _ _ _ same.symm
    · exact (sound.reached other written rest broken before).trans grown
  · intro other small
    rw [joined] at small
    rw [threads, List.getElem?_set_ne (by omega)]
    exact sound.joined other small
  · intro _ some_
    rw [result, unreported] at some_
    cases some_

theorem Sound.addError (sound : Sound file download)
    (here : download.threads[streamIdx]? = some old) (live : old.ended = false)
    (message : String) : Sound file (download.addError streamIdx message) :=
  sound.advance here live ⟨rfl, rfl, rfl, rfl, rfl⟩
    (Nat.le_refl _) nofun (.inl (.inl (List.append_ne_nil_of_right_ne_nil _ nofun)))

theorem Doomed.advance (doomed : download.Doomed) (here : download.threads[streamIdx]? = some old)
    (errors : after.errors = download.errors)
    (threads : after.threads = download.threads.set streamIdx thread)
    (broken : ∀ written rest, old = .receiving written rest true →
      ∃ written rest, thread = .receiving written rest true) :
    after.Doomed := by
  rcases doomed with some_ | ⟨other, written, rest, there⟩
  · exact .inl (errors ▸ some_)
  · by_cases this : streamIdx = other
    · cases this
      rw [here] at there
      cases there
      obtain ⟨written, rest, rfl⟩ := broken written rest rfl
      have small := (List.getElem?_eq_some_iff.mp here).1
      exact .inr ⟨streamIdx, written, rest, by rw [threads, List.getElem?_set_self small]⟩
    · exact .inr ⟨other, written, rest, by rw [threads, List.getElem?_set_ne this, there]⟩

theorem Sound.setDone (sound : Sound file download) (here : download.threads[streamIdx]? = some old)
    (live : old.ended = false) (unbroken : ∀ written rest, old ≠ .receiving written rest true)
    (keeps : Intact file download → written = download.part file streamIdx ∧
      written <+: download.file.drop (download.rangeStart streamIdx)) :
    Sound file (download.setThread streamIdx (.done written)) := by
  refine sound.advance here live ⟨rfl, rfl, rfl, rfl, rfl⟩ (Nat.le_refl _) nofun ?_
  rcases sound.honest with doomed | intact
  · exact .inl (doomed.advance here rfl rfl fun written rest same => absurd same (unbroken written rest))
  · refine .inr ⟨intact.size, fun other thread there => ?_⟩
    rcases Pool.getElem?_set_cases there with ⟨rfl, rfl⟩ | ⟨_, before⟩
    · exact keeps intact
    · exact intact.keeps other thread before

theorem Intact.fits (intact : Intact file download) (total : download.totalSize = file.length)
    (streams : 0 < download.numStreams)
    (same : written ++ data ++ rest = download.part file streamIdx)
    (inside : download.rangeStart streamIdx + written.length ≤ download.file.length) :
    written.length + data.length ≤ download.chunkSize ∧
      download.rangeStart streamIdx + written.length + data.length ≤ file.length := by
  have size := congrArg List.length same
  rw [length_part total streams, List.length_append, List.length_append] at size
  have whole := intact.size
  omega

theorem Intact.write (intact : Intact file download) (total : download.totalSize = file.length)
    (streams : 0 < download.numStreams)
    (same : written ++ data ++ rest = download.part file streamIdx)
    (inside : download.rangeStart streamIdx + written.length ≤ download.file.length)
    (held : written <+: download.file.drop (download.rangeStart streamIdx)) :
    Intact file (download.write streamIdx written data rest broken) := by
  obtain ⟨_, _⟩ := intact.fits total streams same inside
  refine ⟨?_, fun other thread there => ?_⟩
  · rw [ParallelDownload.write, length_writeAt inside, intact.size]
    omega
  · rcases Pool.getElem?_set_cases there with ⟨rfl, rfl⟩ | ⟨apart, before⟩
    · exact ⟨same, prefix_writeAt inside held data⟩
    · apply (intact.keeps other thread before).trans
      intro _ small held
      apply prefix_writeAt_apart inside held
      rw [length_part total streams] at small
      rcases Nat.lt_or_gt_of_ne (Ne.symm apart) with before | behind
      · have next := rangeStart_le download before
        exact .inl ((by omega : _ ≤ download.rangeStart streamIdx + download.chunkSize).trans next)
      · have next := rangeStart_le download behind
        exact .inr ((by omega : _ ≤ download.rangeStart other + download.chunkSize).trans
          (next.trans (Nat.le_add_right _ _)))

theorem Sound.write (sound : Sound file download) (here : download.threads[streamIdx]? = some old)
    (live : old.ended = false)
    (unbroken : ∀ written rest, old = .receiving written rest true → broken = true)
    (inside : download.rangeStart streamIdx + written.length ≤ download.file.length)
    (keeps : Intact file download → broken = true ∨
      written ++ data ++ rest = download.part file streamIdx ∧
      written <+: download.file.drop (download.rangeStart streamIdx)) :
    Sound file (download.write streamIdx written data rest broken) := by
  have size := length_writeAt inside data
  refine sound.advance here live ⟨rfl, rfl, rfl, rfl, rfl⟩ ?_ ?_ ?_
  · exact size ▸ Nat.le_max_left _ _
  · intro _ _ _ same
    cases same
    rw [ParallelDownload.write, size, List.length_append]
    omega
  · rcases sound.honest with doomed | intact
    · exact .inl (doomed.advance here rfl rfl fun before later same =>
        ⟨written ++ data, rest, by rw [unbroken before later same]⟩)
    · rcases keeps intact with breaks | ⟨same, held⟩
      · cases breaks
        have small := (List.getElem?_eq_some_iff.mp here).1
        exact .inl (.inr ⟨streamIdx, written ++ data, rest, List.getElem?_set_self small⟩)
      · exact .inr (intact.write sound.total sound.streams same inside held)

theorem Sound.skip (sound : Sound file download) (taken : download.skip streamIdx = some after) :
    Sound file after := by
  unfold ParallelDownload.skip at taken
  split at taken
  · rename_i here
    split at taken
    · rename_i behind
      cases taken
      refine sound.setDone here rfl nofun fun _ => ?_
      rw [part, List.drop_of_length_le (sound.total ▸ behind), List.take_nil]
      exact ⟨rfl, List.nil_prefix⟩
    · cases taken
  · cases taken

theorem Sound.respond (sound : Sound file download)
    (answered : Answered file download (.respond streamIdx answer message))
    (taken : download.respond streamIdx answer message = some after) : Sound file after := by
  unfold ParallelDownload.respond at taken
  split at taken
  · rename_i here
    split at taken
    · cases taken
    · rename_i inside
      have response := readResponse_eq answer.pieces
      split at taken
      · cases taken
        exact sound.addError here rfl _
      · rename_i read
        cases taken
        rw [read] at response
        cases split : splitHeader answer.pieces.flatten with
        | none =>
          rw [split] at response
          cases response
        | some parts =>
          rw [split] at response
          obtain ⟨_, _, same, whole⟩ := response
          cases same
          have size := sound.size
          have total := sound.total
          refine sound.write here rfl nofun ?_ fun _ => ?_
          · rw [List.length_nil]
            omega
          · rw [List.nil_append, whole]
            exact (answered parts.1 parts.2 split).imp_right fun same => ⟨same, List.nil_prefix⟩
  · cases taken

theorem Sound.transfer {count : Nat} (sound : Sound file download)
    (taken : download.transfer streamIdx count = some after) :
    Sound file after := by
  unfold ParallelDownload.transfer at taken
  split at taken
  · rename_i here
    split at taken
    · rename_i moved
      cases taken
      refine sound.write here rfl ?_ moved.1 fun intact => .inr ?_
      · intro _ _ same
        cases same
        rfl
      · obtain ⟨same, held⟩ := intact.keeps streamIdx _ here
        rw [List.append_assoc, List.take_append_drop]
        exact ⟨same, held⟩
    · cases taken
  · cases taken

theorem Sound.finish (sound : Sound file download)
    (taken : download.finish streamIdx message = some after) :
    Sound file after := by
  unfold ParallelDownload.finish at taken
  split at taken
  · rename_i broken here
    have reached := sound.reached streamIdx _ _ _ here
    rw [if_neg (by omega)] at taken
    split at taken
    · rename_i all
      cases taken
      cases broken with
      | true => exact sound.addError here rfl message
      | false =>
        refine sound.setDone here rfl nofun fun intact => ?_
        obtain ⟨same, held⟩ := intact.keeps streamIdx _ here
        rw [all, List.append_nil] at same
        exact ⟨same, held⟩
    · cases taken
  · cases taken

theorem Sound.fail (sound : Sound file download)
    (taken : download.fail streamIdx message = some after) : Sound file after := by
  unfold ParallelDownload.fail at taken
  split at taken
  · rename_i here
    split at taken
    · cases taken
    · cases taken
      exact sound.addError here rfl message
  · rename_i here
    cases taken
    exact sound.addError here rfl message
  · cases taken

theorem Sound.join (sound : Sound file download) (taken : download.join true = some after) :
    Sound file after := by
  unfold ParallelDownload.join at taken
  split at taken
  · rename_i thread here
    split at taken
    · rename_i stopped
      cases taken
      refine { sound with joined := ?_, honest := sound.honest.imp_right fun intact =>
        ⟨intact.size, intact.keeps⟩, concluded := ?_ }
      · intro streamIdx small
        rcases Nat.lt_succ_iff_lt_or_eq.mp small with before | this
        · exact sound.joined streamIdx before
        · exact ⟨thread, this ▸ here, stopped⟩
      · intro result reported
        have all := (sound.concluded result reported).1
        rw [all, List.getElem?_eq_none (Nat.le_refl _)] at here
        cases here
    · cases taken
  · cases taken

theorem Sound.report (sound : Sound file download) (taken : download.report = some after) :
    Sound file after := by
  unfold ParallelDownload.report at taken
  split at taken
  · rename_i all
    cases taken
    refine { sound with
      honest := sound.honest.imp_right fun intact => ⟨intact.size, intact.keeps⟩, concluded := ?_ }
    intro _ reported
    cases reported
    exact ⟨all.1, List.isEmpty_iff.mp⟩
  · cases taken

theorem Sound.step (sound : Sound file download) (answered : Answered file download event)
    (taken : download.step event = some after) : Sound file after := by
  cases event with
  | skip => exact sound.skip taken
  | respond => exact sound.respond answered taken
  | transfer => exact sound.transfer taken
  | finish => exact sound.finish taken
  | fail => exact sound.fail taken
  | join => exact sound.join taken
  | timeout => exact answered.elim
  | report => exact sound.report taken

/-- Whatever the order of the threads, success means the whole file. -/
theorem faithful_of_run {head : Answer} {numStreams : Int}
    (announced : getContentLength head = some file.length) (streams : 0 < numStreams)
    (launched : parallelHttpDownload head numStreams = .launched start)
    (run : Execution step (Answered file) start events final) : Faithful file final := by
  have first : Sound file start := by
    rw [parallelHttpDownload, announced] at launched
    dsimp only at launched
    split at launched
    · cases launched
    · split at launched
      · cases launched
      · cases launched
        exact sound_launch (Int.lt_toNat.mpr streams)
  exact (run.invariant (Sound file) (fun _ _ _ sound answered taken =>
    sound.step answered taken) first).faithful

def headOf (length : String) : Answer :=
  { pieces := [ascii "HTTP/1.1 200 OK\r\nContent-Length: " ++ ascii length ++ blankLine],
    broken := false }

def bodyOf (status : String) (body : Bytes) : Answer :=
  { pieces := [ascii "HTTP/1.1 " ++ ascii status ++ blankLine ++ body], broken := false }

def partialAnswer (pieces : List Bytes) : Answer :=
  { pieces := (ascii "HTTP/1.1 206" ++ blankLine) :: pieces, broken := false }

instance (file : Bytes) (download : ParallelDownload) :
    (event : PartEvent) → Decidable (Answered file download event)
  | .respond streamIdx answer _ =>
    decidable_of_iff (∀ found ∈ splitHeader answer.stream, answer.broken = true ∨
      found.2 = download.part file streamIdx)
        ⟨fun all head body split => all (head, body) split, fun all found split =>
          all found.1 found.2 split⟩
  | .timeout => .isFalse id
  | .skip _ | .transfer _ _ | .finish _ _ | .fail _ _ | .join | .report => .isTrue trivial

/-- Two threads for three bytes, and the second one is done first. -/
def twoThreads : List PartEvent :=
  [.respond 0 (partialAnswer [[1], [2]]) "", .transfer 0 1, .respond 1 (partialAnswer [[3]]) "",
    .transfer 1 1, .finish 1 "",
   .transfer 0 1, .finish 0 "", .join, .join, .report]

theorem faithful_of_twoThreads :
    ∃ final, Execution step (Answered [1, 2, 3]) (launch 3 2) twoThreads final ∧
    final.result.map TransferResult.success = some true ∧ Faithful [1, 2, 3] final := by
  obtain ⟨final, run, success⟩ := exists_execution
    (fun download => download.result.map TransferResult.success = some true)
    (show (replayWhere step (fun download event => decide (Answered [1, 2, 3] download event))
      (launch 3 2) twoThreads).any _ = true by
      decide)
  have answered := run.weaken fun _ _ => of_decide_eq_true
  exact ⟨final, answered, of_decide_eq_true success,
    faithful_of_run (show getContentLength (headOf "3") = some 3 by decide)
      (show (0 : Int) < 2 by decide) rfl answered⟩

/-- The whole file for each of the two ranges: the second thread writes the first byte again. -/
theorem not_faithful_of_fullAnswers :
    ¬ ∀ (file : Bytes) (head : Answer) (numStreams : Int) (start final : ParallelDownload)
      (events : List PartEvent),
      getContentLength head = some file.length →
      parallelHttpDownload head numStreams = .launched start →
        Execution step anything start events final → Faithful file final := by
  intro all
  have played : ((replay step (launch 2 2)
    [.respond 0 (bodyOf "200" [1, 2]) "", .respond 1 (bodyOf "200" [1, 2]) "", .finish 0 "",
      .finish 1 "", .join, .join, .report]).map fun download =>
        (download.result.map TransferResult.success, download.file)) =
      some (some true, [1, 1, 2]) := by decide
  obtain ⟨final, ended, reported⟩ := Option.map_eq_some_iff.mp played
  have faithful := all [1, 2] (headOf "2") 2 _ final _ (by decide) rfl (execution_iff_replay.mpr ended)
  obtain ⟨success, stored⟩ := Prod.mk.inj reported
  obtain ⟨result, same, succeeded⟩ := Option.map_eq_some_iff.mp success
  rw [faithful.whole result same succeeded] at stored
  cases stored

end ParallelDownload

end DistributedOs.Nio
