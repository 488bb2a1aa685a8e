import DistributedOs.Semantics.Codec

/-! Buffers read at offsets. An access behind the end of the buffer panics. -/

namespace DistributedOs.Semantics

universe u
variable {α : Type u}

inductive Access where
  | outOfRange
  deriving DecidableEq

/-- `buf[index]`. -/
def itemAt (buf : List α) (index : Nat) : Except Access α :=
  match buf[index]? with
  | some item => .ok item
  | none => .error .outOfRange

/-- `&buf[start..stop]`. -/
def slice (buf : List α) (start stop : Nat) : Except Access (List α) :=
  if start ≤ stop ∧ stop ≤ buf.length then .ok ((buf.drop start).take (stop - start))
  else .error .outOfRange

variable {buf : List α} {start stop index count offset : Nat}

theorem itemAt_of_lt (within : index < buf.length) : itemAt buf index = .ok buf[index] := by
  rw [itemAt, List.getElem?_eq_getElem within]

theorem itemAt_getD (within : index < buf.length)
    (other : α) : itemAt buf index = .ok (buf.getD index other) := by
  rw [itemAt_of_lt within, List.getD_eq_getElem?_getD, List.getElem?_eq_getElem within, Option.getD_some]

theorem itemAt_append (front back : List α) (index : Nat) :
    itemAt (front ++ back) index = if index < front.length then itemAt front index
      else itemAt back (index - front.length) := by
  split
  · rename_i first
    rw [itemAt, itemAt, List.getElem?_append_left first]
  · rename_i later
    rw [itemAt, itemAt, List.getElem?_append_right (Nat.le_of_not_lt later)]

theorem slice_of_le (ordered : start ≤ stop) (within : stop ≤ buf.length) :
    slice buf start stop = .ok ((buf.drop start).take (stop - start)) := if_pos ⟨ordered, within⟩

theorem slice_beyond (beyond : buf.length < stop) : slice buf start stop = .error .outOfRange :=
  if_neg fun within => Nat.not_lt.mpr within.2 beyond

theorem length_mapM {β : Type u} {compute : α → Except Access β} {results : List β}
    (done : buf.mapM compute = .ok results) : results.length = buf.length := by
  induction buf generalizing results with
  | nil =>
    cases done
    rfl
  | cons item buf ih =>
    rw [List.mapM_cons] at done
    cases first : compute item with
    | error =>
      rw [first] at done
      cases done
    | ok =>
      cases rest : buf.mapM compute with
      | error =>
        rw [first, rest] at done
        cases done
      | ok =>
        rw [first, rest] at done
        cases done
        rw [List.length_cons, List.length_cons, ih rest]

theorem mapM_ok {β : Type u} {compute : α → Except Access β} {result : α → β}
    (computes : ∀ item ∈ buf, compute item = .ok (result item)) :
    buf.mapM compute = .ok (buf.map result) := by
  induction buf with
  | nil => rfl
  | cons _ _ ih =>
    rw [List.forall_mem_cons] at computes
    rw [List.mapM_cons, computes.1, ih computes.2]
    rfl

theorem itemAt_drop (buf : List α) (offset index : Nat) :
    itemAt buf (offset + index) = itemAt (buf.drop offset) index := by
  rw [itemAt, itemAt, List.getElem?_drop]

theorem slice_drop (within : offset ≤ buf.length) (start stop : Nat) :
    slice buf (offset + start) (offset + stop) = slice (buf.drop offset) start stop := by
  have ordered : offset + start ≤ offset + stop ∧ offset + stop ≤ buf.length ↔
      start ≤ stop ∧ stop ≤ (buf.drop offset).length := by
    rw [List.length_drop]
    omega
  simp only [slice, ordered, List.drop_drop, Nat.add_sub_add_left]

end DistributedOs.Semantics
