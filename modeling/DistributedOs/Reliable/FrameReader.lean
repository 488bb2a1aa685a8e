import DistributedOs.Reliable.Sender

/-! The sender's `select!` between `read_frame` and the 50 ms read timeout. When
the timeout wins, the `read_frame` future is dropped with the bytes it has taken
from the stream; the next turn of the loop starts a new read at the next byte. -/

namespace DistributedOs.Reliable

open Semantics

/-- The frames `receive_file_reliable` writes. -/
inductive Reply where
  | ack (chunkId : UInt32) (ackedOffset : UInt64)
  | nack (chunkId : UInt32) (expectedOffset : UInt64) (reason : UInt8)
  | finack (chunkId : UInt32)
  | bpres (queueDepthUs processingDelayUs : UInt64)
  deriving DecidableEq

def Reply.frame : Reply → Frame
  | .ack chunkId ackedOffset => .ack chunkId ackedOffset
  | .nack chunkId expectedOffset reason => .nack chunkId expectedOffset reason
  | .finack chunkId => .finack chunkId
  | .bpres queueDepthUs processingDelayUs => .bpres queueDepthUs processingDelayUs

def Reply.isNack : Reply → Bool
  | .nack .. => true
  | _ => false

/-- What the pending read sees next: a byte it takes from the stream, or the timeout. -/
inductive ReadEvent where
  | byte (value : UInt8)
  | deadline
  deriving DecidableEq

/-- `buf` holds the bytes taken by the pending `read_frame`, `processed` the frames
the loop has handled; after an unknown type byte the loop has returned its error. -/
structure FrameReader where
  buf : Bytes
  processed : List RawFrame
  failed : Bool
  deriving DecidableEq

namespace FrameReader

def new : FrameReader := { buf := [], processed := [], failed := false }

def step (reader : FrameReader) : ReadEvent → FrameReader
  | .deadline => { reader with buf := [] }
  | .byte value =>
    if reader.failed then reader
    else match readFrame (reader.buf ++ [value]) with
      | .ok (frame, _) => { reader with buf := [], processed := reader.processed ++ [frame] }
      | .error .wouldBlock => { reader with buf := reader.buf ++ [value] }
      | .error .unknownFrameType => { reader with buf := [], failed := true }

def run (reader : FrameReader) (events : List ReadEvent) : FrameReader := events.foldl step reader

end FrameReader

/-- The bytes taken from the stream, whatever became of them. -/
def arrived : List ReadEvent → Bytes
  | [] => []
  | .byte value :: events => value :: arrived events
  | .deadline :: events => arrived events

/-- Whenever a deadline expires, the bytes taken so far are whole frames. -/
def DeadlinesBetween (frames : List Frame) (events : List ReadEvent) : Prop :=
  ∀ before after, events = before ++ .deadline :: after →
    ∃ count, arrived before = (frames.take count).flatMap Frame.encode

variable {frame : Frame} {frames : List Frame} {events before after : List ReadEvent}
  {reader : FrameReader} {buf : Bytes}

theorem arrived_append (before after : List ReadEvent) :
    arrived (before ++ after) = arrived before ++ arrived after := by
  induction before with
  | nil => rfl
  | cons event _ ih => cases event <;> simp [arrived, ih]

theorem readFrame_strict_prefix (readable : frame.readable = true)
    (split : frame.encode = used ++ more) (more_ne : more ≠ []) :
    readFrame used = .error .wouldBlock := by
  have whole : readFrame (used ++ more) = .ok (frame.wire, []) := by
    simpa [split] using readFrame_encode readable []
  cases read : readFrame used with
  | ok =>
    obtain ⟨_, same, _, _, again⟩ := readFrame_ok read
    rw [same, List.append_assoc, again, Except.ok.injEq, Prod.mk.injEq] at whole
    exact absurd (List.append_eq_nil_iff.mp whole.2).2 more_ne
  | error error =>
    cases error with
    | wouldBlock => rfl
    | unknownFrameType =>
      cases used with
      | nil => cases read
      | cons =>
        rw [List.cons_append, readFrame_unknown_iff.mpr (readFrame_unknown_iff.mp read)] at whole
        cases whole

/-- The `select!` of the sender is this reader: at a byte it hands the same frame to
its arms and, until the loop returns, holds the same bytes. -/
theorem Sender.step_byte_reads {sender next : Sender} (select : sender.phase = .select)
    (alive : reader.failed = false) (held : reader.buf = sender.buf)
    (taken : sender.step data (.byte value) = some (next, written)) :
    (reader.step (.byte value)).processed = reader.processed ++
      (sender.arriving (.byte value)).toList ∧
      ((reader.step (.byte value)).failed = false →
        next.buf = (reader.step (.byte value)).buf) := by
  simp only [Sender.step, select] at taken
  cases read : readFrame (sender.buf ++ [value]) with
  | ok result =>
    obtain ⟨_, _⟩ := result
    simp only [read] at taken
    refine ⟨by simp [FrameReader.step, Sender.arriving, alive, held, select, read], fun _ => ?_⟩
    rw [Sender.process_buf taken]
    simp [FrameReader.step, alive, held, read]
  | error error =>
    cases error <;> simp only [read] at taken <;> cases taken <;>
      simp [FrameReader.step, Sender.arriving, alive, held, select, read]

theorem Sender.step_deadline_reads {sender next : Sender} (select : sender.phase = .select)
    (taken : sender.step data .deadline = some (next, written)) :
    next.buf = (reader.step .deadline).buf := by
  simp only [Sender.step, select] at taken
  cases taken
  rfl

theorem FrameReader.step_byte (readable : frame.readable = true) (alive : reader.failed = false)
    (split : frame.encode = reader.buf ++ value :: more) :
    reader.step (.byte value) = if more = [] then
      { reader with buf := [], processed := reader.processed ++ [frame.wire] }
    else { reader with buf := reader.buf ++ [value] } := by
  have next : frame.encode = reader.buf ++ [value] ++ more := by simpa using split
  split
  · rename_i last
    subst last
    have whole := readFrame_encode readable []
    rw [List.append_nil, next, List.append_nil] at whole
    simp [FrameReader.step, alive, whole]
  · rename_i more_ne
    simp [FrameReader.step, alive, readFrame_strict_prefix readable next more_ne]

private theorem split_at_byte
    (same : front ++ value :: later = whole ++ rest) (short : front.length < whole.length) :
    ∃ more, whole = front ++ value :: more ∧ later = more ++ rest := by
  rcases List.append_eq_append_iff.mp same with ⟨more, split, rest⟩ | ⟨more, split, rest⟩
  · cases more with
    | nil => simp [split] at short
    | cons _ more =>
      obtain ⟨rfl, same⟩ := List.cons.inj rest
      exact ⟨more, split, same⟩
  · have long := congrArg List.length split
    rw [List.length_append] at long
    omega

private theorem nil_of_whole_frames {buf : Bytes}
    (whole : buf = (frames.take count).flatMap Frame.encode)
    (short : ∀ frame ∈ frames.head?, buf.length < frame.encode.length) : buf = [] := by
  cases frames with
  | nil => simpa using whole
  | cons frame =>
    cases count with
    | zero => simpa using whole
    | succ =>
      have within := short frame rfl
      have long := congrArg List.length whole
      rw [List.take_succ_cons, List.flatMap_cons, List.length_append] at long
      omega

/-- The induction is on the events; `buf` is the part of the first unread frame
already taken, so a deadline between frames drops nothing. -/
theorem FrameReader.run_of_between (reader : FrameReader) (frames : List Frame)
    (readable : ∀ frame ∈ frames, frame.readable = true)
    (alive : reader.failed = false)
    (stream : reader.buf ++ arrived events = frames.flatMap Frame.encode)
    (within : ∀ frame ∈ frames.head?, reader.buf.length < frame.encode.length)
    (between : ∀ before after, events = before ++ .deadline :: after →
      ∃ count, reader.buf ++ arrived before = (frames.take count).flatMap Frame.encode) :
    (reader.run events).processed = reader.processed ++ frames.map Frame.wire := by
  induction events generalizing reader frames with
  | nil =>
    cases frames with
    | nil => simp [FrameReader.run]
    | cons frame =>
      have short := within frame rfl
      have long := congrArg List.length stream
      simp [arrived] at long
      omega
  | cons event events ih =>
    cases event with
    | deadline =>
      obtain ⟨count, taken⟩ := between [] events rfl
      have empty : reader.buf = [] := nil_of_whole_frames (by simpa [arrived] using taken) within
      refine ih (reader.step .deadline) frames readable alive ?_ ?_ ?_
      · simpa [FrameReader.step, empty, arrived] using stream
      · simpa [FrameReader.step, empty] using within
      · intro before after split
        simpa [FrameReader.step, empty, arrived] using between (.deadline :: before) after
          (by rw [split]; rfl)
    | byte value =>
      cases frames with
      | nil => simp [arrived] at stream
      | cons frame frames =>
        have short := within frame rfl
        rw [List.flatMap_cons] at stream
        obtain ⟨more, split, rest⟩ := split_at_byte stream short
        have moved := FrameReader.step_byte (readable frame (by simp)) alive split
        by_cases last : more = []
        · subst last
          rw [if_pos rfl] at moved
          have continued := ih (reader.step (.byte value)) frames
            (fun other member => readable other (by simp [member])) (by rw [moved]; exact alive)
            (by rw [moved]; simpa using rest)
            (fun other _ => by rw [moved]; exact List.length_pos_iff.mpr other.encode_ne_nil) ?_
          · simpa [FrameReader.run, moved] using continued
          · intro before after same
            obtain ⟨count, taken⟩ := between (.byte value :: before) after (by rw [same]; rfl)
            cases count with
            | zero => simp [arrived] at taken
            | succ count =>
              refine ⟨count, ?_⟩
              rw [List.take_succ_cons, List.flatMap_cons, split] at taken
              simpa [moved, arrived] using taken
        · rw [if_neg last] at moved
          refine (ih (reader.step (.byte value)) (frame :: frames) readable
            (by rw [moved]; exact alive) ?_ ?_ ?_).trans (by rw [moved])
          · rw [moved, rest, List.flatMap_cons, split]
            simp
          · intro _ found
            cases found
            have some_left := List.length_pos_iff.mpr last
            rw [moved, split]
            simp
            omega
          · intro before after same
            obtain ⟨count, taken⟩ := between (.byte value :: before) after (by rw [same]; rfl)
            exact ⟨count, by simpa [moved, arrived] using taken⟩

/-- The bytes that went into processed frames or are still held by the pending read. -/
def FrameReader.settled (reader : FrameReader) : Nat :=
  (reader.processed.map RawFrame.size).sum + reader.buf.length

theorem FrameReader.settled_step (reader : FrameReader) (event : ReadEvent) :
    (reader.step event).settled ≤ reader.settled + (arrived [event]).length := by
  cases event with
  | deadline => simp [FrameReader.step, FrameReader.settled, arrived]
  | byte =>
    simp only [FrameReader.step]
    split
    · simp [arrived]
    · split
      · rename_i found
        obtain ⟨_, same, size, _⟩ := readFrame_ok found
        have taken := congrArg List.length same
        simp [FrameReader.settled, arrived, ← size] at taken ⊢
        omega
      · simp [FrameReader.settled, arrived]
        omega
      · simp [FrameReader.settled, arrived]
        omega

theorem FrameReader.settled_run (reader : FrameReader) (events : List ReadEvent) :
    (reader.run events).settled ≤ reader.settled + (arrived events).length := by
  induction events generalizing reader with
  | nil => simp [FrameReader.run]
  | cons event events ih =>
    have first := reader.settled_step event
    have others := ih (reader.step event)
    have bytes : (arrived (event :: events)).length = (arrived [event]).length +
        (arrived events).length := by
      simpa using congrArg List.length (arrived_append [event] events)
    simp only [FrameReader.run, List.foldl_cons] at others ⊢
    omega

theorem FrameReader.step_processed (reader : FrameReader) (event : ReadEvent) :
    (reader.step event).processed = reader.processed ∨
      ∃ raw, (reader.step event).processed = reader.processed ++ [raw] ∧ raw.sized := by
  cases event with
  | deadline => exact .inl rfl
  | byte =>
    simp only [FrameReader.step]
    split
    · exact .inl rfl
    · split
      · rename_i raw _ found
        obtain ⟨_, _, _, sized, _⟩ := readFrame_ok found
        exact .inr ⟨raw, rfl, sized⟩
      · exact .inl rfl
      · exact .inl rfl

theorem FrameReader.run_processed (reader : FrameReader) (events : List ReadEvent) :
    ∃ later, (reader.run events).processed = reader.processed ++ later ∧
      ∀ raw ∈ later, raw.sized := by
  induction events generalizing reader with
  | nil => exact ⟨[], by simp [FrameReader.run], by simp⟩
  | cons event _ ih =>
    obtain ⟨later, same, sized⟩ := ih (reader.step event)
    rcases reader.step_processed event with kept | ⟨raw, added, fits⟩
    · exact ⟨later, by rw [← kept]; exact same, sized⟩
    · refine ⟨raw :: later, ?_, List.forall_mem_cons.mpr ⟨fits, sized⟩⟩
      rw [added, List.append_assoc] at same
      exact same

private theorem sum_size_wire (frames : List Frame)
    (readable : ∀ frame ∈ frames, frame.readable = true) :
    ((frames.map Frame.wire).map RawFrame.size).sum = (frames.flatMap Frame.encode).length := by
  induction frames with
  | nil => rfl
  | cons frame _ ih =>
    rw [List.flatMap_cons, List.length_append,
      ← ih (fun other member => readable other (by simp [member])),
      ← Frame.size_wire (readable frame (by simp))]
    rfl

/-- A deadline inside a frame would leave fewer bytes than the later frames need. -/
theorem FrameReader.between_of_run (readable : ∀ frame ∈ frames, frame.readable = true)
    (stream : arrived events = frames.flatMap Frame.encode)
    (processed : (FrameReader.new.run events).processed = frames.map Frame.wire) :
    DeadlinesBetween frames events := by
  intro before after split
  obtain ⟨middle, reached⟩ : ∃ middle, FrameReader.new.run before = middle := ⟨_, rfl⟩
  have continued : FrameReader.new.run events = (middle.step .deadline).run after := by
    simp [split, ← reached, FrameReader.run]
  have kept : (middle.step .deadline).processed = middle.processed := rfl
  obtain ⟨_, same, _⟩ := (middle.step .deadline).run_processed after
  rw [← continued, processed, kept] at same
  refine ⟨middle.processed.length, ?_⟩
  have front : middle.processed = (frames.take middle.processed.length).map Frame.wire := by
    rw [List.map_take, same, List.take_left' rfl]
  have frontTotal := sum_size_wire (frames.take middle.processed.length)
    (fun frame member => readable frame (List.mem_of_mem_take member))
  have total := sum_size_wire frames readable
  rw [← front] at frontTotal
  have bytes : (arrived events).length = (arrived before).length + (arrived after).length := by
    rw [split, arrived_append, List.length_append]
    rfl
  -- all the bytes before the deadline went into the frames processed by then
  have settled : (middle.processed.map RawFrame.size).sum = (arrived before).length := by
    have bound := FrameReader.new.settled_run before
    have rest := (middle.step .deadline).settled_run after
    rw [reached] at bound
    rw [← continued] at rest
    simp only [FrameReader.settled, processed, total, kept, ← stream, bytes] at rest
    simp only [FrameReader.settled, FrameReader.new, List.map_nil, List.sum_nil,
      List.length_nil] at bound
    have dropped : (middle.step .deadline).buf.length = 0 := rfl
    omega
  have prefixBefore : arrived before <+: frames.flatMap Frame.encode := by
    rw [← stream, split, arrived_append]
    exact List.prefix_append _ _
  have prefixFront : (frames.take middle.processed.length).flatMap Frame.encode <+:
      frames.flatMap Frame.encode := by
    conv => rhs; rw [← List.take_append_drop middle.processed.length frames, List.flatMap_append]
    exact List.prefix_append _ _
  have sameLength : (arrived before).length =
      ((frames.take middle.processed.length).flatMap Frame.encode).length := by
        rw [← settled, frontTotal]
  exact (List.prefix_of_prefix_length_le prefixBefore prefixFront
    (Nat.le_of_eq sameLength)).eq_of_length sameLength

/-- The loop processes what was written exactly when no deadline expires inside a
frame and no NACK, whose reason byte the reader leaves behind, was written. -/
theorem processed_replies_iff (replies : List Reply) (events : List ReadEvent)
    (written : arrived events = (replies.map Reply.frame).flatMap Frame.encode) :
    (FrameReader.new.run events).processed = (replies.map Reply.frame).map Frame.wire ↔
      (∀ reply ∈ replies, reply.isNack = false) ∧
      DeadlinesBetween (replies.map Reply.frame) events := by
  have plain : (∀ frame ∈ replies.map Reply.frame, frame.readable = true) ↔
      ∀ reply ∈ replies, reply.isNack = false := by
    simp only [List.forall_mem_map]
    refine forall₂_congr fun reply _ => ?_
    cases reply <;> simp [Reply.frame, Frame.readable, Reply.isNack]
  rw [← plain]
  constructor
  · intro processed
    obtain ⟨later, same, sized⟩ := FrameReader.new.run_processed events
    have readable : ∀ frame ∈ replies.map Reply.frame, frame.readable = true := by
      intro frame member
      apply Frame.sized_wire_iff.mp
      apply sized
      have whole : later = (replies.map Reply.frame).map Frame.wire := by
        simpa [FrameReader.new] using same.symm.trans processed
      rw [whole]
      exact List.mem_map_of_mem member
    exact ⟨readable, FrameReader.between_of_run readable written processed⟩
  · rintro ⟨readable, between⟩
    simpa [FrameReader.new] using FrameReader.run_of_between FrameReader.new _ readable rfl written
      (fun frame _ => List.length_pos_iff.mpr frame.encode_ne_nil) between

/-- A deadline between an ACK and a back-pressure frame, evaluated by running the reader. -/
theorem deadline_between_replies :
    (∀ reply ∈ [Reply.ack 7 4, .bpres 0 0], reply.isNack = false) ∧
      DeadlinesBetween [.ack 7 4, .bpres 0 0]
        ((encodeAck 7 4).map .byte ++ .deadline :: (encodeBpres 0 0).map .byte) :=
  (processed_replies_iff [.ack 7 4, .bpres 0 0] _ (by decide)).mp (by decide)

/-- One ACK whose first byte is taken before the timeout: the type byte is lost and
the chunk id is read as frame types. -/
theorem deadline_inside_ack : ∃ (replies : List Reply) (events : List ReadEvent),
    arrived events = (replies.map Reply.frame).flatMap Frame.encode ∧
      (FrameReader.new.run events).processed ≠ (replies.map Reply.frame).map Frame.wire :=
  ⟨[.ack 0 4], .byte frameAck :: .deadline :: ((beU32 0 ++ beU64 4).map .byte), by decide, by decide⟩

end DistributedOs.Reliable
