import DistributedOs.Semantics.Codec

/-! Writers with a buffer. Small writes are collected, and what does not fit makes room for itself;
what is still in the buffer when the writer is dropped is lost. -/

namespace DistributedOs.Semantics

/-- What has reached the writer inside, how many writes that took, and what is in the buffer. -/
structure BufWriter where
  inner : Bytes
  writes : Nat
  buffer : Bytes

namespace BufWriter

def new : BufWriter := { inner := [], writes := 0, buffer := [] }

section Write

-- How much each write to the inside takes, if there is more than that; one that takes nothing has failed.
variable (accepts : Nat → Nat)

/-- One write to the inside: how much it takes, and the writer after it. -/
def pour (writer : BufWriter) (bytes : Bytes) : Option (Nat × BufWriter) :=
  let count := min (accepts writer.writes) bytes.length
  if accepts writer.writes = 0 then none
  else some (count, { writer with
    inner := writer.inner ++ bytes.take count, writes := writer.writes + 1 })

/-- Writes the buffer out. Every write takes something, so the size of the buffer is fuel enough. -/
def flushBuf : Nat → BufWriter → Bool × BufWriter
  | 0, writer => (writer.buffer.isEmpty, writer)
  | fuel + 1, writer =>
    if writer.buffer.isEmpty then (true, writer)
    else
      match writer.pour accepts writer.buffer with
      | none => (false, writer)
      | some (count, poured) => flushBuf fuel { poured with buffer := writer.buffer.drop count }

def flush (writer : BufWriter) : Bool × BufWriter := flushBuf accepts writer.buffer.length writer

/-- What does not fit flushes the buffer first. -/
def makeRoom (capacity : Nat) (writer : BufWriter) (bytes : Bytes) : Bool × BufWriter :=
  if capacity < writer.buffer.length + bytes.length then writer.flush accepts else (true, writer)

/-- `write_all`: what is as large as the buffer goes past it. -/
def writeLoop (capacity : Nat) : Nat → BufWriter → Bytes → Bool × BufWriter
  | 0, writer, bytes => (bytes.isEmpty, writer)
  | fuel + 1, writer, bytes =>
    if bytes.isEmpty then (true, writer)
    else
      match makeRoom accepts capacity writer bytes with
      | (false, flushed) => (false, flushed)
      | (true, flushed) =>
        if capacity ≤ bytes.length then
          match flushed.pour accepts bytes with
          | none => (false, flushed)
          | some (count, poured) => writeLoop capacity fuel poured (bytes.drop count)
        else (true, { flushed with buffer := flushed.buffer ++ bytes })

def writeAll (capacity : Nat) (writer : BufWriter) (bytes : Bytes) : Bool × BufWriter :=
  writeLoop accepts capacity (bytes.length + 1) writer bytes

end Write

variable {accepts : Nat → Nat} {capacity fuel count : Nat} {writer after : BufWriter}
  {bytes : Bytes}

def written (writer : BufWriter) : Bytes := writer.inner ++ writer.buffer

theorem pour_some (poured : writer.pour accepts bytes = some (count, after))
    (some_bytes : bytes ≠ []) :
    0 < count ∧ count ≤ bytes.length ∧ after.inner = writer.inner ++ bytes.take count ∧
      after.buffer = writer.buffer := by
  simp only [pour] at poured
  split at poured
  · cases poured
  · cases poured
    have size := List.length_pos_iff.mpr some_bytes
    exact ⟨by omega, Nat.min_le_right _ _, rfl, rfl⟩

theorem pour_none (failed : writer.pour accepts bytes = none) : accepts writer.writes = 0 := by
  simp only [pour] at failed
  split at failed
  · assumption
  · cases failed

/-- What a writer has written and still holds after it was given more. -/
structure Extends (accepts : Nat → Nat) (before : BufWriter) (bytes : Bytes) (done : Bool)
    (after : BufWriter) : Prop where
  inside : before.inner <+: after.inner
  all : done = true → after.written = before.written ++ bytes
  part : after.inner <+: before.written ++ bytes
  failed : done = false → ∃ index, accepts index = 0

theorem flushBuf_spec (enough : writer.buffer.length ≤ fuel) :
    Extends accepts writer [] (flushBuf accepts fuel writer).1 (flushBuf accepts fuel writer).2 ∧
      ((flushBuf accepts fuel writer).1 = true → (flushBuf accepts fuel writer).2.buffer = []) ∧
      (flushBuf accepts fuel writer).2.buffer.length ≤ writer.buffer.length := by
  induction fuel generalizing writer with
  | zero =>
    have empty : writer.buffer = [] := List.length_eq_zero_iff.mp (Nat.le_zero.mp enough)
    refine ⟨⟨List.prefix_rfl, fun _ => (List.append_nil _).symm, ?_, ?_⟩, fun _ => empty, Nat.le_refl _⟩
    · rw [List.append_nil]
      exact List.prefix_append _ _
    · simp [flushBuf, empty]
  | succ fuel ih =>
    rw [flushBuf]
    split
    · rename_i empty
      refine ⟨⟨List.prefix_rfl, fun _ => (List.append_nil _).symm, ?_, nofun⟩, fun _ =>
        List.isEmpty_iff.mp empty, Nat.le_refl _⟩
      rw [List.append_nil]
      exact List.prefix_append _ _
    · rename_i more
      have some_bytes : writer.buffer ≠ [] := fun empty => more (List.isEmpty_iff.mpr empty)
      split
      · rename_i failed
        refine ⟨⟨List.prefix_rfl, nofun, ?_, fun _ => ⟨_, pour_none failed⟩⟩, nofun, Nat.le_refl _⟩
        rw [List.append_nil]
        exact List.prefix_append _ _
      · rename_i count poured pours
        obtain ⟨_, _, inner, _⟩ := pour_some pours some_bytes
        have shorter : (writer.buffer.drop count).length ≤ fuel := by
          rw [List.length_drop]
          omega
        have same : written { poured with buffer := writer.buffer.drop count } = writer.written := by
          simp only [written, inner]
          rw [List.append_assoc, List.take_append_drop]
        obtain ⟨⟨inside, all, part, failed⟩, empties, less⟩ := @ih
            { poured with buffer := writer.buffer.drop count } shorter
        rw [same] at all part
        refine ⟨⟨List.IsPrefix.trans ?_ inside, all, part, failed⟩, empties, ?_⟩
        · rw [inner]
          exact List.prefix_append _ _
        · rw [List.length_drop] at less
          omega

theorem flush_spec (accepts : Nat → Nat) (writer : BufWriter) :
    Extends accepts writer [] (writer.flush accepts).1 (writer.flush accepts).2 ∧
      ((writer.flush accepts).1 = true → (writer.flush accepts).2.buffer = []) ∧
      (writer.flush accepts).2.buffer.length ≤ writer.buffer.length := flushBuf_spec (Nat.le_refl _)

theorem Extends.trans (first : Extends accepts writer bytes true middle)
    (second : Extends accepts middle more done after) :
    Extends accepts writer (bytes ++ more) done after := by
  have whole := first.all rfl
  refine ⟨first.inside.trans second.inside, ?_, ?_, second.failed⟩
  · intro finished
    rw [second.all finished, whole, List.append_assoc]
  · rw [← List.append_assoc, ← whole]
    exact second.part

theorem Extends.stop (first : Extends accepts writer bytes false middle) :
    Extends accepts writer (bytes ++ more) false middle :=
  ⟨first.inside, nofun, by rw [← List.append_assoc]; exact first.part.trans (List.prefix_append _ _), first.failed⟩

theorem makeRoom_spec (accepts : Nat → Nat) (bytes : Bytes)
    (room : writer.buffer.length ≤ capacity) :
    Extends accepts writer [] (makeRoom accepts capacity writer bytes).1
      (makeRoom accepts capacity writer bytes).2 ∧
      ((makeRoom accepts capacity writer bytes).1 = true →
        (makeRoom accepts capacity writer bytes).2.buffer = [] ∨
        (makeRoom accepts capacity writer bytes).2.buffer.length + bytes.length ≤ capacity) ∧
      (makeRoom accepts capacity writer bytes).2.buffer.length ≤ capacity := by
  unfold makeRoom
  split
  · have ⟨flushes, empties, less⟩ := flush_spec accepts writer
    exact ⟨flushes, fun finished => .inl (empties finished), Nat.le_trans less room⟩
  · rename_i fits
    refine ⟨⟨List.prefix_rfl, fun _ => (List.append_nil _).symm, ?_, nofun⟩, fun _ =>
      .inr (Nat.le_of_not_lt fits), room⟩
    rw [List.append_nil]
    exact List.prefix_append _ _

private theorem writeLoop_spec (room : writer.buffer.length ≤ capacity)
    (enough : bytes.length < fuel) :
    Extends accepts writer bytes (writeLoop accepts capacity fuel writer bytes).1
      (writeLoop accepts capacity fuel writer bytes).2 ∧
      (writeLoop accepts capacity fuel writer bytes).2.buffer.length ≤ capacity := by
  induction fuel generalizing writer bytes with
  | zero => exact absurd enough (Nat.not_lt_zero _)
  | succ fuel ih =>
    rw [writeLoop]
    split
    · rename_i empty
      obtain rfl := List.isEmpty_iff.mp empty
      refine ⟨⟨List.prefix_rfl, fun _ => (List.append_nil _).symm, ?_, nofun⟩, room⟩
      rw [List.append_nil]
      exact List.prefix_append _ _
    · rename_i more
      have some_bytes : bytes ≠ [] := fun empty => more (List.isEmpty_iff.mpr empty)
      have made := makeRoom_spec accepts bytes room
      generalize makeRoom accepts capacity writer bytes = flushing at made
      obtain ⟨done, flushed⟩ := flushing
      obtain ⟨flushes, empties, small⟩ := made
      cases done with
      | false => exact ⟨flushes.stop, small⟩
      | true =>
        simp only
        split
        · rename_i large
          have size := List.length_pos_iff.mpr some_bytes
          have empty : flushed.buffer = [] := by
            rcases empties rfl with empty | fits
            · exact empty
            · exact List.length_eq_zero_iff.mp (by simp only at fits; omega)
          split
          · rename_i failed
            have stops : Extends accepts flushed [] false flushed :=
              ⟨List.prefix_rfl, nofun, by rw [List.append_nil]; exact List.prefix_append _ _,
                fun _ => ⟨_, pour_none failed⟩⟩
            exact ⟨(flushes.trans stops).stop, small⟩
          · rename_i count poured pours
            obtain ⟨_, _, inner, buffer⟩ := pour_some pours some_bytes
            have moves : Extends accepts flushed (bytes.take count) true poured := by
              refine ⟨?_, fun _ => ?_, ?_, nofun⟩
              · rw [inner]
                exact List.prefix_append _ _
              · simp only [written, inner, buffer, empty, List.append_nil]
              · simp only [written, inner, empty, List.append_nil]
                exact List.prefix_rfl
            have shorter : (bytes.drop count).length < fuel := by
              rw [List.length_drop]
              omega
            have pouredRoom : poured.buffer.length ≤ capacity := buffer ▸ small
            have ⟨rest, room⟩ := ih pouredRoom shorter
            have whole := (flushes.trans moves).trans rest
            rw [List.nil_append, List.take_append_drop] at whole
            exact ⟨whole, room⟩
        · rename_i fitting
          have holds : flushed.buffer.length + bytes.length ≤ capacity := by
            rcases empties rfl with empty | fits
            · simp only at empty
              rw [empty, List.length_nil]
              omega
            · exact fits
          have keeps : Extends accepts flushed bytes true
              { flushed with buffer := flushed.buffer ++ bytes } := by
            refine ⟨List.prefix_rfl, fun _ => ?_, ?_, nofun⟩
            · simp only [written, List.append_assoc]
            · exact (List.prefix_append _ _).trans (List.prefix_append _ _)
          exact ⟨flushes.trans keeps, by simpa using holds⟩

theorem writeAll_spec (accepts : Nat → Nat) (bytes : Bytes)
    (room : writer.buffer.length ≤ capacity) :
    Extends accepts writer bytes (writer.writeAll accepts capacity bytes).1
      (writer.writeAll accepts capacity bytes).2 ∧
      (writer.writeAll accepts capacity bytes).2.buffer.length ≤ capacity :=
  writeLoop_spec room (Nat.lt_succ_self _)

end BufWriter

end DistributedOs.Semantics
