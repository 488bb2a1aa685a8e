import DistributedOs.Semantics.BufWriter
import DistributedOs.Semantics.Pieces

/-! The stream of a phone's screen or camera. The phone sends each frame of its encoder after its
size, and the command line tool writes the frames it gets to its output, each one after a start
code. -/

namespace DistributedOs.Cli

open Semantics

/-- What `startStreaming` and `startCameraStream` send of a frame:
`ByteBuffer.allocate(4).putInt(frameData.size)`, and the frame. -/
def framePacket (frame : Bytes) : Bytes := toBe 4 frame.length ++ frame

def startCode : Bytes := [0, 0, 0, 1]

def annexB (frames : List Bytes) : Bytes := frames.flatMap fun frame => startCode ++ frame

def writerCapacity : Nat := 8192

section Receive

variable (accepts : Nat → Nat)

def writeFrame (writer : BufWriter) (frame : Bytes) : Bool × BufWriter :=
  match writer.writeAll accepts writerCapacity startCode with
  | (false, failed) => (false, failed)
  | (true, started) => started.writeAll accepts writerCapacity frame

/-- The loop of `receive_video_stream`. It is left when no size can be read, and fails when a frame
cannot. Every frame takes four bytes at least. -/
def receiveFrames : Nat → List Bytes → BufWriter → Bool × BufWriter
  | 0, _, writer => (true, writer)
  | fuel + 1, pieces, writer =>
    match readFully () 4 pieces with
    | .error () => (true, writer)
    | .ok (sizeBuf, rest) =>
      match readFully () (ofBe sizeBuf) rest with
      | .error () => (false, writer)
      | .ok (frame, later) =>
        match writeFrame accepts writer frame with
        | (false, failed) => (false, failed)
        | (true, wrote) => receiveFrames fuel later wrote

/-- Whether the call returns Ok, and what has reached the output: what is still in the buffer of the
writer after a failure is dropped with it. -/
def receiveVideoStream (pieces : List Bytes) : Bool × Bytes :=
  match receiveFrames accepts (pieces.flatten.length + 1) pieces .new with
  | (false, writer) => (false, writer.inner)
  | (true, writer) => ((writer.flush accepts).1, (writer.flush accepts).2.inner)

end Receive

variable {accepts : Nat → Nat} {frames whole : List Bytes} {frame rest : Bytes}
  {pieces : List Bytes} {writer : BufWriter} {fuel : Nat}

/-- What has arrived of a stream of frames: some of them whole, and of the next one not all. -/
structure Arrived (frames : List Bytes) (bytes : Bytes) (whole : List Bytes)
    (rest : Bytes) : Prop where
  bytes : bytes = whole.flatMap framePacket ++ rest
  front : whole <+: frames
  part : rest = [] ∨ ∃ frame, whole ++ [frame] <+: frames ∧ rest <+: framePacket frame ∧
    rest.length < (framePacket frame).length

theorem exists_arrived {bytes : Bytes} (cut : bytes <+: frames.flatMap framePacket) :
    ∃ whole rest, Arrived frames bytes whole rest := by
  induction frames generalizing bytes with
  | nil =>
    obtain rfl := List.prefix_nil.mp cut
    exact ⟨[], [], rfl, List.prefix_rfl, .inl rfl⟩
  | cons frame frames ih =>
    rw [List.flatMap_cons] at cut
    rcases Nat.lt_or_ge bytes.length (framePacket frame).length with short | long
    · refine ⟨[], bytes, rfl, List.nil_prefix, .inr ⟨frame, ?_, ?_, short⟩⟩
      · exact List.prefix_append [frame] frames
      · exact List.prefix_of_prefix_length_le cut (List.prefix_append _ _) (Nat.le_of_lt short)
    · obtain ⟨_, rfl⟩ := List.prefix_of_prefix_length_le (List.prefix_append _ _) cut long
      obtain ⟨whole, rest, arrived⟩ := ih ((List.prefix_append_right_inj _).mp cut)
      refine ⟨frame :: whole, rest, ?_, ?_, ?_⟩
      · rw [arrived.bytes, List.flatMap_cons, List.append_assoc]
      · exact List.cons_prefix_cons.mpr ⟨rfl, arrived.front⟩
      · rcases arrived.part with empty | ⟨next, inside, part, short⟩
        · exact .inl empty
        · exact .inr ⟨next, List.cons_prefix_cons.mpr ⟨rfl, inside⟩, part, short⟩

theorem writeFrame_spec (accepts : Nat → Nat) (frame : Bytes)
    (room : writer.buffer.length ≤ writerCapacity) :
    BufWriter.Extends accepts writer (startCode ++ frame) (writeFrame accepts writer frame).1
      (writeFrame accepts writer frame).2 ∧
      (writeFrame accepts writer frame).2.buffer.length ≤ writerCapacity := by
  have ⟨starts, started⟩ := BufWriter.writeAll_spec accepts startCode room
  unfold writeFrame
  split
  · rename_i same
    rw [same] at starts started
    exact ⟨starts.stop, started⟩
  · rename_i wrote same
    rw [same] at starts started
    have ⟨writes, wrote⟩ := BufWriter.writeAll_spec accepts frame started
    exact ⟨starts.trans writes, wrote⟩

/-- The size of a frame that has not arrived whole can be read when its four bytes have arrived. -/
theorem receiveFrames_part (small : frame.length < 2 ^ 31) (part : rest <+: framePacket frame)
    (short : rest.length < (framePacket frame).length) (arrived : pieces.flatten = rest)
    (writer : BufWriter) (fuel : Nat) :
    receiveFrames accepts (fuel + 1) pieces writer = (decide (rest.length < 4), writer) := by
  rw [receiveFrames]
  rcases Nat.lt_or_ge rest.length 4 with few | enough
  · rw [readFully_short (arrived ▸ few)]
    simp [few]
  · have size : rest.take 4 = toBe 4 frame.length := by
      obtain ⟨_, same⟩ := part
      have front := congrArg (List.take 4) same
      rwa [List.take_append_of_le_length enough, framePacket, List.take_left' (length_toBe _ _)] at front
    have split : pieces.flatten = toBe 4 frame.length ++ rest.drop 4 := by
      rw [← size, List.take_append_drop, arrived]
    obtain ⟨later, read, left⟩ := readFully_append () split
    rw [length_toBe] at read
    have value : ofBe (toBe 4 frame.length) = frame.length :=
      ofBe_toBe_of_lt (Nat.lt_trans small (by decide))
    have missing : later.flatten.length < frame.length := by
      rw [framePacket, List.length_append, length_toBe] at short
      rw [left, List.length_drop]
      omega
    rw [read]
    simp only
    rw [value, readFully_short missing]
    simp [Nat.not_lt.mpr enough]

/-- What is read before the stream is cut is written, one frame after the other, unless a write
fails. -/
theorem receiveFrames_whole (small : ∀ frame ∈ whole, frame.length < 2 ^ 31)
    (part : rest = [] ∨ ∃ frame, frame.length < 2 ^ 31 ∧ rest <+: framePacket frame ∧
      rest.length < (framePacket frame).length)
    (arrived : pieces.flatten = whole.flatMap framePacket ++ rest)
    (room : writer.buffer.length ≤ writerCapacity) (enough : pieces.flatten.length < fuel) :
    (∃ final, receiveFrames accepts fuel pieces writer = (decide (rest.length < 4), final) ∧
        BufWriter.Extends accepts writer (annexB whole) true final ∧
        final.buffer.length ≤ writerCapacity) ∨
      ∃ final, receiveFrames accepts fuel pieces writer = (false, final) ∧
        BufWriter.Extends accepts writer (annexB whole) false final := by
  obtain ⟨fuel, rfl⟩ := Nat.exists_eq_succ_of_ne_zero (Nat.ne_of_gt (Nat.zero_lt_of_lt enough))
  induction whole generalizing pieces writer fuel with
  | nil =>
    have stays : BufWriter.Extends accepts writer (annexB []) true writer :=
      ⟨List.prefix_rfl, fun _ => (List.append_nil _).symm, by simp [annexB, BufWriter.written], by simp⟩
    refine .inl ⟨writer, ?_, stays, room⟩
    rw [List.flatMap_nil, List.nil_append] at arrived
    rcases part with rfl | ⟨frame, fits, part, short⟩
    · rw [receiveFrames, readFully_short (by simp [arrived])]
      simp
    · exact receiveFrames_part fits part short arrived writer fuel
  | cons frame _ ih =>
    have fits := small frame List.mem_cons_self
    have value : ofBe (toBe 4 frame.length) = frame.length :=
      ofBe_toBe_of_lt (Nat.lt_trans fits (by decide))
    rw [List.flatMap_cons, framePacket, List.append_assoc, List.append_assoc] at arrived
    obtain ⟨_, readsSize, sized⟩ := readFully_append () arrived
    obtain ⟨later, readsFrame, left⟩ := readFully_append () sized
    rw [length_toBe] at readsSize
    obtain ⟨writes, wrote⟩ := writeFrame_spec accepts frame room
    rw [receiveFrames, readsSize]
    simp only
    rw [value, readsFrame]
    simp only
    generalize writeFrame accepts writer frame = writing at writes wrote
    obtain ⟨done, written⟩ := writing
    cases done with
    | false => exact .inr ⟨written, rfl, writes.stop⟩
    | true =>
      have shorter : later.flatten.length < fuel := by
        rw [arrived, List.length_append, length_toBe, List.length_append, ← left] at enough
        omega
      obtain ⟨fuel, rfl⟩ := Nat.exists_eq_succ_of_ne_zero (Nat.ne_of_gt (Nat.zero_lt_of_lt shorter))
      rcases ih (fun next member => small next (List.mem_cons_of_mem _ member)) left wrote
        fuel shorter with
        ⟨final, ends, ordered, room⟩ | ⟨final, ends, ordered⟩
      · exact .inl ⟨final, ends, writes.trans ordered, room⟩
      · exact .inr ⟨final, ends, writes.trans ordered⟩

/-- The whole frames that have arrived are written in order, each after a start code, and nothing
else. The call returns Ok only when they all are and the stream was cut between two frames, or
inside the size of one; when it is cut later in a frame it fails, and up to 8192 bytes of the frames
before that one are lost with the buffer. -/
theorem receiveVideoStream_spec (accepts : Nat → Nat)
    (small : ∀ frame ∈ frames, frame.length < 2 ^ 31)
    (cut : pieces.flatten <+: frames.flatMap framePacket) :
    ∃ whole rest, Arrived frames pieces.flatten whole rest ∧
      (receiveVideoStream accepts pieces).2 <+: annexB whole ∧
      ((receiveVideoStream accepts pieces).1 = true →
        (receiveVideoStream accepts pieces).2 = annexB whole ∧ rest.length < 4) ∧
      ((∀ write, 0 < accepts write) →
        ((receiveVideoStream accepts pieces).1 = true ↔ rest.length < 4) ∧
        (annexB whole).length ≤ (receiveVideoStream accepts pieces).2.length + 8192) := by
  obtain ⟨whole, rest, arrived⟩ := exists_arrived cut
  refine ⟨whole, rest, arrived, ?_⟩
  have smallWhole : ∀ frame ∈ whole, frame.length < 2 ^ 31 := fun frame member =>
    small frame (arrived.front.subset member)
  have part : rest = [] ∨
      ∃ frame, frame.length < 2 ^ 31 ∧ rest <+: framePacket frame ∧
      rest.length < (framePacket frame).length := by
    rcases arrived.part with empty | ⟨frame, inside, part, short⟩
    · exact .inl empty
    · have member : frame ∈ whole ++ [frame] := List.mem_append_right _ (List.mem_singleton_self _)
      exact .inr ⟨frame, small frame (inside.subset member), part, short⟩
  have neverFails (works : ∀ write, 0 < accepts write) : ¬ ∃ write, accepts write = 0 := by
    rintro ⟨write, nothing⟩
    exact absurd nothing (Nat.ne_of_gt (works write))
  have empty : BufWriter.new.buffer.length ≤ writerCapacity := Nat.zero_le _
  have runs := @receiveFrames_whole accepts whole rest pieces .new _ smallWhole part arrived.bytes empty
    (Nat.lt_succ_self pieces.flatten.length)
  unfold receiveVideoStream
  rcases runs with ⟨final, ends, ordered, _⟩ | ⟨final, ends, ordered⟩
  · have nothing : BufWriter.new.written = [] := rfl
    have held : final.written = annexB whole := by rw [ordered.all rfl, nothing, List.nil_append]
    have ⟨flushes, empties, _⟩ := BufWriter.flush_spec accepts final
    have inside : final.inner <+: annexB whole := by
      rw [← held]
      exact List.prefix_append _ _
    rw [ends]
    rcases Nat.lt_or_ge rest.length 4 with between | within
    · rw [decide_eq_true between]
      simp only
      have out : (final.flush accepts).2.inner <+: annexB whole := by
        have part := flushes.part
        rwa [List.append_nil, held] at part
      have all : (final.flush accepts).1 = true → (final.flush accepts).2.inner = annexB whole := by
        intro finished
        have whole := flushes.all finished
        rwa [BufWriter.written, empties finished, List.append_nil, List.append_nil, held] at whole
      refine ⟨out, fun finished => ⟨all finished, between⟩, fun works => ?_⟩
      have finished : (final.flush accepts).1 = true := by
        cases done : (final.flush accepts).1 with
        | false => exact absurd (flushes.failed done) (neverFails works)
        | true => rfl
      rw [all finished]
      exact ⟨⟨fun _ => between, fun _ => finished⟩, Nat.le_add_right _ _⟩
    · rw [decide_eq_false (Nat.not_lt.mpr within)]
      simp only
      have ends (finished : false = true) : rest.length < 4 := absurd finished Bool.false_ne_true
      refine ⟨inside, (absurd · Bool.false_ne_true),
        fun _ => ⟨⟨ends, fun between => absurd within (Nat.not_le.mpr between)⟩, ?_⟩⟩
      -- what the buffer still holds is dropped
      have size := congrArg List.length held
      rw [BufWriter.written, List.length_append] at size
      have capacity : writerCapacity = 8192 := rfl
      omega
  · rw [ends]
    exact ⟨ordered.part, (absurd · Bool.false_ne_true), fun works =>
      absurd (ordered.failed rfl) (neverFails works)⟩

/-- The connection breaks in the second of two frames. -/
theorem receiveVideoStream_of_twoFrames :
    ∃ whole rest, Arrived [[7, 8], [9]] [0, 0, 0, 2, 7, 8, 0, 0, 0, 1] whole rest ∧
      (receiveVideoStream (fun _ => 5) [[0, 0, 0], [2, 7, 8, 0], [0, 0, 1]]).2 <+: annexB whole ∧
      ((receiveVideoStream (fun _ => 5) [[0, 0, 0], [2, 7, 8, 0], [0, 0, 1]]).1 = true ↔
        rest.length < 4) := by
  obtain ⟨whole, rest, arrived, part, _, works⟩ := @receiveVideoStream_spec [[7, 8], [9]]
    [[0, 0, 0], [2, 7, 8, 0], [0, 0, 1]]
    (fun _ => 5) (by decide) (by decide)
  exact ⟨whole, rest, arrived, part, (works fun _ => by decide).1⟩

end DistributedOs.Cli
