import DistributedOs.Semantics.Codec
import DistributedOs.Semantics.Execution
import Mathlib.Logic.Function.Basic

/-! A keepalive wrapper around a stream. Its frames go out between the writes of the application,
and a background task reads all that comes in. When pings are sent is up to the environment. -/

namespace DistributedOs.Transfer

open Semantics

/-- `PING_FRAME`, the letters PING. -/
def pingFrame : Bytes := [0x50, 0x49, 0x4E, 0x47]

def pongFrame : Bytes := [0x50, 0x4F, 0x4E, 0x47]

inductive Side where
  | near
  | far
  deriving DecidableEq

def Side.other : Side → Side
  | .near => .far
  | .far => .near

/-- One end of the stream, wrapped or plain: the frame `pending_ping` has begun and those queued
behind it, what the application has written here, the bytes put on the stream, how many of the
other end's bytes have been read here, and what of them the application has received. -/
structure Endpoint where
  wrapped : Bool
  pending : Option Bytes
  pings : List Bytes
  written : Bytes
  wire : Bytes
  consumed : Nat
  received : Bytes

/-- What the background task does with a block of four bytes: the frames it queues, and what it
hands on to the application. -/
def onBlock (block : Bytes) : List Bytes × Bytes :=
  if block = pingFrame then ([pongFrame], [])
  else if block = pongFrame then ([], [])
  else ([], [])

def Endpoint.nextFrame (endpoint : Endpoint) : Option (Bytes × List Bytes) :=
  match endpoint.pending, endpoint.pings with
  | some frame, pings => some (frame, pings)
  | none, frame :: pings => some (frame, pings)
  | none, [] => none

def handOn : Bytes → Bytes
  | first :: second :: third :: fourth :: rest =>
    (onBlock [first, second, third, fourth]).2 ++ handOn rest
  | _ => []

/-- What the application at an end gets of bytes that come in there, once they are read. -/
def Endpoint.gets (endpoint : Endpoint) (bytes : Bytes) : Bytes :=
  if endpoint.wrapped then handOn bytes else bytes

/-- The bytes that the inner writer accepts of a write are counted in the label. -/
inductive KeepaliveLabel where
  | ping (side : Side)
  | writeFrame (side : Side) (count : Nat)
  | writeData (side : Side) (bytes : Bytes) (count : Nat)
  | readBlock (side : Side)
  | read (side : Side) (count : Nat)

structure Link where
  ends : Side → Endpoint

namespace Link

def new (wrapped : Side → Bool) : Link :=
  { ends := fun side =>
      { wrapped := wrapped side, pending := none, pings := [], written := [], wire := [],
        consumed := 0, received := [] } }

def put (link : Link) (side : Side) (endpoint : Endpoint) : Link :=
  { ends := Function.update link.ends side endpoint }

def unread (link : Link) (side : Side) : Bytes :=
  (link.ends side.other).wire.drop (link.ends side).consumed

/-- The frames are written out first, in `poll_write` and in `poll_flush`. -/
def step (link : Link) : KeepaliveLabel → Option Link
  | .ping side =>
    let endpoint := link.ends side
    if endpoint.wrapped then
      some (link.put side { endpoint with pings := endpoint.pings ++ [pingFrame] }) else none
  | .writeFrame side count =>
    let endpoint := link.ends side
    match endpoint.nextFrame with
    | some (frame, pings) =>
      if count ≤ frame.length then
        some (link.put side
          { endpoint with
            pending := if count < frame.length then some (frame.drop count) else none
            pings
            wire := endpoint.wire ++ frame.take count })
      else none
    | none => none
  | .writeData side bytes count =>
    let endpoint := link.ends side
    match endpoint.nextFrame with
    | some _ => none
    | none =>
      if count ≤ bytes.length then
        some (link.put side
          { endpoint with
            written := endpoint.written ++ bytes.take count
            wire := endpoint.wire ++ bytes.take count })
      else none
  | .readBlock side =>
    let endpoint := link.ends side
    if endpoint.wrapped ∧ 4 ≤ (link.unread side).length then
      let (frames, data) := onBlock ((link.unread side).take 4)
      some (link.put side
        { endpoint with
          pings := endpoint.pings ++ frames
          consumed := endpoint.consumed + 4
          received := endpoint.received ++ data })
    else none
  | .read side count =>
    let endpoint := link.ends side
    if endpoint.wrapped then none
    else if count ≤ (link.unread side).length then
      some (link.put side
        { endpoint with
          consumed := endpoint.consumed + count
          received := endpoint.received ++ (link.unread side).take count })
    else none

/-- The application at each end gets what the one at the other end has written, no more and no less. -/
def Transparent (link : Link) : Prop :=
  ∀ side, (link.ends side).received ++ (link.ends side).gets
    (link.unread side) = (link.ends side.other).written

/-- No byte of a frame is written towards a plain end, and no byte of data towards a wrapped one. -/
def clean (link : Link) : KeepaliveLabel → Prop
  | .writeFrame side count => (link.ends side.other).wrapped = false → count = 0
  | .writeData side bytes count => (link.ends side.other).wrapped = true → bytes.take count = []
  | _ => True

/-- Only what is on the stream is read, and frames have bytes. -/
structure Kept (link : Link) : Prop where
  read : ∀ side, (link.ends side).consumed ≤ (link.ends side.other).wire.length
  frames : ∀ side, (∀ frame, (link.ends side).pending = some frame → frame ≠ []) ∧
    ∀ frame ∈ (link.ends side).pings, frame ≠ []

variable {link after : Link} {side other : Side} {endpoint : Endpoint} {label : KeepaliveLabel}

@[simp] theorem put_same (link : Link) (side : Side) (endpoint : Endpoint) :
    (link.put side endpoint).ends side = endpoint := by
  simp [put]

@[simp] theorem put_other (link : Link) (side : Side) (endpoint : Endpoint) :
    (link.put side endpoint).ends side.other = link.ends side.other := by
  cases side <;> simp [put, Side.other]

@[simp] theorem other_other (side : Side) : side.other.other = side := by cases side <;> rfl

theorem eq_or_eq_other (side one : Side) : one = side ∨ one = side.other := by
  cases side <;> cases one <;> simp [Side.other]

@[simp] theorem onBlock_data (block : Bytes) : (onBlock block).2 = [] := by
  unfold onBlock
  split
  · rfl
  · split <;> rfl

@[simp] theorem handOn_eq_nil (bytes : Bytes) : handOn bytes = [] := by
  fun_induction handOn bytes with
  | case1 first second third fourth rest ih => simp [ih]
  | case2 => rfl

theorem gets_append (endpoint : Endpoint) (bytes more : Bytes) :
    endpoint.gets (bytes ++ more) = endpoint.gets bytes ++ endpoint.gets more := by
  unfold Endpoint.gets
  split <;> simp

theorem gets_eq_nil_iff : endpoint.gets bytes = [] ↔ (endpoint.wrapped = false → bytes = []) := by
  unfold Endpoint.gets
  cases endpoint.wrapped <;> simp

theorem gets_eq_self_iff : endpoint.gets bytes = bytes ↔
      (endpoint.wrapped = true → bytes = []) := by
  unfold Endpoint.gets
  cases endpoint.wrapped <;> simp [eq_comm]

theorem nextFrame_cases (next : endpoint.nextFrame = some (frame, pings)) :
    (endpoint.pending = some frame ∧ endpoint.pings = pings) ∨
      (endpoint.pending = none ∧ endpoint.pings = frame :: pings) := by
  unfold Endpoint.nextFrame at next
  split at next <;> cases next
  · exact .inl ⟨by assumption, rfl⟩
  · exact .inr ⟨by assumption, by assumption⟩

theorem unread_put_self :
    (link.put side endpoint).unread side = (link.ends side.other).wire.drop endpoint.consumed := by
  rw [unread, put_other, put_same]

theorem unread_put_other :
    (link.put side endpoint).unread side.other = endpoint.wire.drop
      (link.ends side.other).consumed := by
  rw [unread, other_other, put_same, put_other]

/-- What a write adds for the reader at the other end must be what the application has written. -/
theorem Transparent.write_iff (kept : Kept link) (transparent : Transparent link)
    (reads : endpoint.wrapped = (link.ends side).wrapped ∧
      endpoint.consumed = (link.ends side).consumed ∧
      endpoint.received = (link.ends side).received)
    (wire : endpoint.wire = (link.ends side).wire ++ out)
    (written : endpoint.written = (link.ends side).written ++ data) :
    Transparent (link.put side endpoint) ↔ (link.ends side.other).gets out = data := by
  have before := transparent side.other
  have behind : (link.put side endpoint).unread side.other = link.unread side.other ++ out := by
    have inside := kept.read side.other
    rw [other_other] at inside
    rw [unread_put_other, wire, List.drop_append_of_le_length inside, unread, other_other]
  have there : (link.ends side.other).received ++ (link.ends side.other).gets
    (link.unread side.other ++ out) =
      (link.ends side).written ++ (link.ends side.other).gets out := by
    rw [gets_append, ← List.append_assoc, before, other_other]
  constructor
  · intro after
    have written' := after side.other
    rw [put_other, behind, there, other_other, put_same, written] at written'
    exact List.append_cancel_left written'
  · intro same one
    rcases eq_or_eq_other side one with rfl | rfl
    · rw [unread_put_self, put_same, put_other, reads.2.1, reads.2.2, Endpoint.gets, reads.1]
      exact transparent one
    · rw [put_other, behind, there, other_other, put_same, written, same]

theorem Transparent.read (transparent : Transparent link)
    (writes : endpoint.wire = (link.ends side).wire ∧ endpoint.written = (link.ends side).written)
    (reads : endpoint.received ++
      endpoint.gets ((link.ends side.other).wire.drop endpoint.consumed) =
      (link.ends side).received ++ (link.ends side).gets (link.unread side)) : Transparent
      (link.put side endpoint) := by
  intro one
  rcases eq_or_eq_other side one with rfl | rfl
  · rw [unread_put_self, put_same, put_other, reads]
    exact transparent one
  · have before := transparent side.other
    rw [unread_put_other, put_other, other_other, put_same, writes.1, writes.2]
    rw [unread, other_other] at before
    exact before

theorem Kept.put (kept : Kept link) (grown : (link.ends side).wire.length ≤ endpoint.wire.length)
    (read : endpoint.consumed ≤ (link.ends side.other).wire.length)
    (frames : (∀ frame, endpoint.pending = some frame → frame ≠ []) ∧
      ∀ frame ∈ endpoint.pings, frame ≠ []) :
    Kept (link.put side endpoint) where
  read := by
    intro one
    rcases eq_or_eq_other side one with rfl | rfl
    · rw [put_same, put_other]
      exact read
    · have before := kept.read side.other
      rw [other_other] at before
      rw [put_other, other_other, put_same]
      exact before.trans grown
  frames := by
    intro one
    rcases eq_or_eq_other side one with rfl | rfl
    · rw [put_same]
      exact frames
    · rw [put_other]
      exact kept.frames side.other

theorem Kept.new (wrapped : Side → Bool) : Kept (.new wrapped) where
  read := fun _ => Nat.zero_le _
  frames := fun _ => ⟨nofun, nofun⟩

theorem Transparent.new (wrapped : Side → Bool) : Transparent (.new wrapped) := by
  intro _
  simp [Link.new, unread, Endpoint.gets]

theorem Kept.nextFrame (kept : Kept link)
    (next : (link.ends side).nextFrame = some (frame, pings)) :
    frame ≠ [] ∧ ∀ later ∈ pings, later ≠ [] := by
  have ⟨pending, queued⟩ := kept.frames side
  rcases nextFrame_cases next with ⟨here, same⟩ | ⟨_, same⟩
  · rw [same] at queued
    exact ⟨pending frame here, queued⟩
  · rw [same] at queued
    exact ⟨queued frame (by simp), fun later member => queued later (by simp [member])⟩

theorem Kept.writeFrame (kept : Kept link)
    (next : (link.ends side).nextFrame = some (frame, pings)) :
    Kept (link.put side
      { link.ends side with
        pending := if count < frame.length then some (frame.drop count) else none
        pings
        wire := (link.ends side).wire ++ frame.take count }) := by
  refine kept.put (by simp) (kept.read side) ⟨?_, (kept.nextFrame next).2⟩
  intro _ pending
  split at pending
  · rename_i more
    cases pending
    rw [← List.length_pos_iff, List.length_drop]
    omega
  · cases pending

theorem Kept.readBlock (kept : Kept link) (there : 4 ≤ (link.unread side).length) :
    Kept (link.put side
      { link.ends side with
        pings := (link.ends side).pings ++ (onBlock ((link.unread side).take 4)).1
        consumed := (link.ends side).consumed + 4
        received := (link.ends side).received ++ (onBlock ((link.unread side).take 4)).2 }) := by
  have within := kept.read side
  rw [unread, List.length_drop] at there
  refine kept.put le_rfl (by simp only; omega) ⟨(kept.frames side).1, ?_⟩
  intro frame member
  rcases List.mem_append.mp member with before | answer
  · exact (kept.frames side).2 frame before
  · unfold onBlock at answer
    split at answer
    · rw [List.mem_singleton.mp answer]
      decide
    · split at answer <;> cases answer

theorem Kept.step (kept : Kept link) (taken : link.step label = some after) : Kept after := by
  cases label with
  | ping side =>
    simp only [Link.step] at taken
    split at taken
    · cases taken
      refine kept.put le_rfl (kept.read side) ⟨(kept.frames side).1, ?_⟩
      intro frame member
      rcases List.mem_append.mp member with before | last
      · exact (kept.frames side).2 frame before
      · rw [List.mem_singleton.mp last]
        decide
    · cases taken
  | writeFrame =>
    simp only [Link.step] at taken
    split at taken
    · rename_i next
      split at taken
      · cases taken
        exact kept.writeFrame next
      · cases taken
    · cases taken
  | writeData side =>
    simp only [Link.step] at taken
    split at taken
    · cases taken
    · split at taken
      · cases taken
        exact kept.put (by simp) (kept.read side) (kept.frames side)
      · cases taken
  | readBlock =>
    simp only [Link.step] at taken
    split at taken
    · rename_i there
      cases taken
      exact kept.readBlock there.2
    · cases taken
  | read side =>
    simp only [Link.step] at taken
    split at taken
    · cases taken
    · split at taken
      · rename_i there
        cases taken
        have within := kept.read side
        rw [unread, List.length_drop] at there
        exact kept.put le_rfl (by simp only; omega) (kept.frames side)
      · cases taken

/-- A step of a transparent link keeps it so exactly when it is clean. -/
theorem Transparent.step_iff (kept : Kept link) (transparent : Transparent link)
    (taken : link.step label = some after) :
    Transparent after ↔ link.clean label := by
  cases label with
  | ping =>
    simp only [Link.step] at taken
    split at taken
    · cases taken
      exact iff_of_true (transparent.read ⟨rfl, rfl⟩ rfl) trivial
    · cases taken
  | writeFrame =>
    simp only [Link.step] at taken
    split at taken
    · rename_i next
      split at taken
      · cases taken
        refine Iff.trans (transparent.write_iff kept ⟨rfl, rfl, rfl⟩ rfl (List.append_nil _).symm) ?_
        rw [gets_eq_nil_iff, List.take_eq_nil_iff, or_iff_left (kept.nextFrame next).1]
        rfl
      · cases taken
    · cases taken
  | writeData =>
    simp only [Link.step] at taken
    split at taken
    · cases taken
    · split at taken
      · cases taken
        refine Iff.trans (transparent.write_iff kept ⟨rfl, rfl, rfl⟩ rfl rfl) ?_
        rw [gets_eq_self_iff]
        rfl
      · cases taken
  | readBlock =>
    simp only [Link.step] at taken
    split at taken
    · rename_i there
      cases taken
      refine iff_of_true (transparent.read ⟨rfl, rfl⟩ ?_) trivial
      simp [Endpoint.gets, there.1]
    · cases taken
  | read =>
    simp only [Link.step] at taken
    split at taken
    · cases taken
    · rename_i plain
      split at taken
      · cases taken
        refine iff_of_true (transparent.read ⟨rfl, rfl⟩ ?_) trivial
        simp [Endpoint.gets, plain, unread, ← List.drop_drop]
      · cases taken

/-- In a run of a stream with any ends, however its bytes are split, the applications get what
was written exactly when all writes are clean. -/
theorem transparent_of_run (wrapped : Side → Bool) {labels : List KeepaliveLabel}
    (run : Execution step anything (.new wrapped) labels after) :
    EveryStep step (fun _ _ after => Transparent after) (.new wrapped) labels ↔
      Execution step clean (.new wrapped) labels after :=
  run.everyState_iff Kept (.new wrapped) (fun _ _ _ kept taken => kept.step taken) (.new wrapped)
    fun _ _ _ kept transparent taken => transparent.step_iff kept taken

instance (link : Link) (label : KeepaliveLabel) : Decidable (link.clean label) :=
  match label with
  | .writeFrame side count =>
    inferInstanceAs (Decidable ((link.ends side.other).wrapped = false → count = 0))
  | .writeData side bytes count =>
    inferInstanceAs (Decidable ((link.ends side.other).wrapped = true → bytes.take count = []))
  | .ping .. | .readBlock .. | .read .. => isTrue trivial

/-- Two writes to a plain end, read in other pieces, with a ping that is never written. -/
theorem transparent_of_writes :
    ∃ link : Link, (link.ends .far).received = [1, 2, 3] ∧
      EveryStep step (fun _ _ after => Transparent after) (.new (· = .near))
        [.writeData .near [1, 2] 2, .read .far 1, .writeData .near [3, 4] 1, .ping .near,
          .read .far 2] := by
  obtain ⟨link, run, good⟩ := exists_execution (fun link => (link.ends .far).received = [1, 2, 3])
    (show (replayWhere step (fun link label => link.clean label) (.new (· = .near))
      [.writeData .near [1, 2] 2, .read .far 1, .writeData .near [3, 4] 1, .ping .near,
        .read .far 2]).any _ = true by decide)
  have clean : Execution step clean _ _ link := run.weaken fun _ _ => of_decide_eq_true
  exact ⟨link, of_decide_eq_true good, (transparent_of_run _ clean.plain).mpr clean⟩

/-- Between two wrapped ends, data is swallowed. A plain end reads a ping in the middle of data. -/
theorem writes_not_transparent :
    (∃ link : Link,
      Execution step anything (.new fun _ => true)
        [.writeData .near [1, 2, 3, 4] 4, .readBlock .far] link ∧
        (link.ends .far).consumed = 4 ∧ (link.ends .far).received = [] ∧
      ¬ EveryStep step (fun _ _ after => Transparent after) (.new fun _ => true)
        [.writeData .near [1, 2, 3, 4] 4, .readBlock .far]) ∧
    ∃ link : Link, Execution step anything (.new (· = .near))
        [.writeData .near [1, 2] 1, .ping .near, .writeFrame .near 4, .writeData .near [2] 1,
          .read .far 6] link ∧
      (link.ends .near).written = [1, 2] ∧ (link.ends .far).received = [1] ++ pingFrame ++ [2] := by
  constructor
  · obtain ⟨link, run, good⟩ := exists_execution
      (fun link => (link.ends .far).consumed = 4 ∧ (link.ends .far).received = [] ∧
        (link.ends .far).wrapped ∧
        (link.ends .near).written = [1, 2, 3, 4])
      (show (replayWhere step (fun _ _ => true) (.new fun _ => true)
        [.writeData .near [1, 2, 3, 4] 4, .readBlock .far]).any _ = true by decide)
    obtain ⟨consumed, received, wrapped, written⟩ := of_decide_eq_true good
    refine ⟨link, run.plain, consumed, received, fun every => ?_⟩
    cases run with
    | next _ first rest =>
      cases rest with
      | next _ second rest =>
        cases rest
        have transparent := (every.tail first).head second .far
        rw [received, Endpoint.gets, if_pos wrapped, handOn_eq_nil] at transparent
        exact absurd (transparent.trans written) (by decide)
  · obtain ⟨link, run, good⟩ := exists_execution
      (fun link => (link.ends .near).written = [1, 2] ∧
        (link.ends .far).received = [1] ++ pingFrame ++ [2])
      (show (replayWhere step (fun _ _ => true) (.new (· = .near))
        [.writeData .near [1, 2] 1, .ping .near, .writeFrame .near 4, .writeData .near [2] 1,
          .read .far 6]).any _ = true
        by decide)
    exact ⟨link, run.plain, of_decide_eq_true good⟩

end Link

end DistributedOs.Transfer
