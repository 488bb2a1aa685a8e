import DistributedOs.Semantics.Pieces

/-! Loops that read a buffer at a time and hand each read on: an expected number of bytes, or all
there are. They are left when nothing is missing, when the stream ends, or when something fails. -/

namespace DistributedOs.Semantics

universe u
variable {ε : Type u} {limit fuel remaining : Nat} {closed : Except ε Unit}
  {ready : Bytes → Except ε Unit}
variable {pieces : List Bytes} {received : Bytes}

/-- A read after the last piece comes to `closed`: to no bytes, or to an error. With `ready` what
has been handed on before lets the next read follow. -/
def readLoop (limit : Nat) (closed : Except ε Unit) (ready : Bytes → Except ε Unit) :
    Nat → Nat → List Bytes → Bytes → Bytes × Except ε Unit
  | 0, _, _, received => (received, .ok ())
  | fuel + 1, remaining, pieces, received =>
    if remaining = 0 then (received, .ok ())
    else
      match readSome () (min limit remaining) pieces with
      | .error () => (received, closed)
      | .ok (chunk, rest) =>
        match ready received with
        | .error error => (received, .error error)
        | .ok () => readLoop limit closed ready fuel (remaining - chunk.length) rest (received ++ chunk)

def chunksRead (limit : Nat) : Nat → Nat → List Bytes → List Bytes
  | 0, _, _ => []
  | fuel + 1, remaining, pieces =>
    if remaining = 0 then []
    else
      match readSome () (min limit remaining) pieces with
      | .error () => []
      | .ok (chunk, rest) => chunk :: chunksRead limit fuel (remaining - chunk.length) rest

/-- Every read gets a byte, so the number of bytes is fuel enough. -/
def readExpected (limit : Nat) (closed : Except ε Unit) (ready : Bytes → Except ε Unit)
    (expected : Nat) (pieces : List Bytes) : Bytes × Except ε Unit :=
  readLoop limit closed ready expected expected pieces []

def expectedChunks (limit expected : Nat) (pieces : List Bytes) : List Bytes :=
  chunksRead limit expected expected pieces

/-- A loop that comes to its end has received what there was of the expected bytes. -/
theorem readLoop_received (positive : 0 < limit) (enough : remaining ≤ fuel)
    (done : (readLoop limit closed ready fuel remaining pieces received).2 = .ok ()) :
    (readLoop limit closed ready fuel remaining pieces received).1 = received ++
      pieces.flatten.take remaining := by
  induction fuel generalizing remaining pieces received with
  | zero =>
    obtain rfl := Nat.le_zero.mp enough
    rw [List.take_zero, List.append_nil]
    rfl
  | succ _ ih =>
    rw [readLoop] at done ⊢
    by_cases zero : remaining = 0
    · rw [if_pos zero, zero, List.take_zero, List.append_nil]
    · rw [if_neg zero] at done ⊢
      cases read : readSome () (min limit remaining) pieces with
      | error =>
        rw [(readSome_error read).2, List.take_nil, List.append_nil]
      | ok result =>
        obtain ⟨chunk, _⟩ := result
        rw [read] at done
        obtain ⟨arrived, nonempty, _⟩ := readSome_ok (by omega) read
        have got := List.length_pos_iff.mpr nonempty
        cases next : ready received with
        | error =>
          simp only [next] at done
          cases done
        | ok =>
          simp only [next] at done ⊢
          rw [ih (by omega) done, arrived, List.take_append,
            List.take_of_length_le (l := chunk) (by omega),
            List.append_assoc]

theorem forall_take_cons_iff {holds : Bytes → Prop} (chunk : Bytes) (chunks : List Bytes) :
    (∀ index < (chunk :: chunks).length,
      holds (received ++ ((chunk :: chunks).take index).flatten)) ↔
      holds received ∧ ∀ index < chunks.length,
      holds (received ++ chunk ++ (chunks.take index).flatten) := by
  constructor
  · intro each
    constructor
    · have first := each 0 (Nat.succ_pos _)
      rwa [List.take_zero, List.flatten_nil, List.append_nil] at first
    · intro index within
      have later := each (index + 1) (Nat.succ_lt_succ within)
      rwa [List.take_succ_cons, List.flatten_cons, ← List.append_assoc] at later
  · rintro ⟨_, later⟩ index within
    cases index with
    | zero => rwa [List.take_zero, List.flatten_nil, List.append_nil]
    | succ index =>
      rw [List.take_succ_cons, List.flatten_cons, ← List.append_assoc]
      exact later index (Nat.lt_of_succ_lt_succ within)

/-- The loop comes to its end when each read finds what was handed on before taken, and the stream
is not broken off by an error before all is there. -/
theorem readLoop_done_iff (positive : 0 < limit) (enough : remaining ≤ fuel) :
    (readLoop limit closed ready fuel remaining pieces received).2 = .ok () ↔
      (∀ index < (chunksRead limit fuel remaining pieces).length,
        ready (received ++ ((chunksRead limit fuel remaining pieces).take index).flatten) = .ok
          ()) ∧
          (remaining ≤ pieces.flatten.length ∨ closed = .ok ()) := by
  induction fuel generalizing remaining pieces received with
  | zero =>
    obtain rfl := Nat.le_zero.mp enough
    exact iff_of_true rfl ⟨nofun, .inl (Nat.zero_le _)⟩
  | succ _ ih =>
    rw [readLoop, chunksRead]
    by_cases zero : remaining = 0
    · rw [if_pos zero, if_pos zero, zero]
      exact iff_of_true rfl ⟨nofun, .inl (Nat.zero_le _)⟩
    · rw [if_neg zero, if_neg zero]
      cases read : readSome () (min limit remaining) pieces with
      | error =>
        have ended : pieces.flatten.length = 0 := by rw [(readSome_error read).2, List.length_nil]
        constructor
        · exact fun kind => ⟨nofun, .inr kind⟩
        · rintro ⟨-, _ | kind⟩
          · omega
          · exact kind
      | ok result =>
        obtain ⟨chunk, rest⟩ := result
        obtain ⟨arrived, nonempty, _⟩ := readSome_ok (by omega) read
        have got := List.length_pos_iff.mpr nonempty
        have left : remaining - chunk.length ≤ rest.flatten.length ↔
            remaining ≤ pieces.flatten.length := by
          rw [arrived, List.length_append]
          omega
        rw [@forall_take_cons_iff received (fun bytes => ready bytes = .ok ())]
        cases next : ready received with
        | error => exact iff_of_false nofun fun each => (nomatch each.1.1)
        | ok =>
          simp only
          rw [ih (by omega), left, true_and]

theorem length_flatten_chunksRead (positive : 0 < limit) (fuel remaining : Nat)
    (pieces : List Bytes) :
    (chunksRead limit fuel remaining pieces).flatten.length ≤ remaining := by
  induction fuel generalizing remaining pieces with
  | zero => exact Nat.zero_le _
  | succ _ ih =>
    rw [chunksRead]
    split
    · exact Nat.zero_le _
    · rename_i more
      cases read : readSome () (min limit remaining) pieces with
      | error => exact Nat.zero_le _
      | ok result =>
        have size := (readSome_ok (by omega) read).2.2
        have later := ih (remaining - result.1.length) result.2
        rw [List.flatten_cons, List.length_append]
        omega

theorem length_take_expectedChunks (positive : 0 < limit) (index expected : Nat)
    (pieces : List Bytes) :
    ((expectedChunks limit expected pieces).take index).flatten.length ≤ expected := by
  have whole := length_flatten_chunksRead positive expected expected pieces
  have parts := congrArg List.flatten
    (List.take_append_drop index (expectedChunks limit expected pieces))
  rw [List.flatten_append] at parts
  rw [← expectedChunks, ← parts, List.length_append] at whole
  omega

theorem readExpected_received {expected : Nat} (positive : 0 < limit)
    (done : (readExpected limit closed ready expected pieces).2 = .ok ()) :
    (readExpected limit closed ready expected pieces).1 = pieces.flatten.take expected :=
  readLoop_received positive (Nat.le_refl expected) done

theorem readExpected_done_iff (positive : 0 < limit) :
    (readExpected limit closed ready expected pieces).2 = .ok () ↔
      (∀ index < (expectedChunks limit expected pieces).length,
        ready ((expectedChunks limit expected pieces).take index).flatten = .ok ()) ∧
        (expected ≤ pieces.flatten.length ∨ closed = .ok ()) :=
  readLoop_done_iff positive (Nat.le_refl expected)

/-- A loop that reads until a read brings no bytes, as the end of the stream does, or an empty
buffer. -/
def endLoop (limit : Nat) (closed : Except ε Unit) (ready : Bytes → Except ε Unit) :
    Nat → List Bytes → Bytes → Bytes × Except ε Unit
  | 0, _, received => (received, .ok ())
  | fuel + 1, pieces, received =>
    match readSome () limit pieces with
    | .error () => (received, closed)
    | .ok (chunk, rest) =>
      if chunk = [] then (received, .ok ())
      else
        match ready received with
        | .error error => (received, .error error)
        | .ok () => endLoop limit closed ready fuel rest (received ++ chunk)

def readToEnd (limit : Nat) (closed : Except ε Unit) (ready : Bytes → Except ε Unit)
    (pieces : List Bytes) :
    Bytes × Except ε Unit :=
  endLoop limit closed ready (pieces.flatten.length + 1) pieces []

/-- To read to the end is to expect more than there is. -/
theorem endLoop_eq (positive : 0 < limit) (more : pieces.flatten.length < remaining) :
    endLoop limit closed ready fuel pieces received = readLoop limit closed ready fuel remaining
      pieces received := by
  induction fuel generalizing remaining pieces received with
  | zero => rfl
  | succ _ ih =>
    rw [endLoop, readLoop, if_neg (by omega)]
    have same : readSome () limit pieces = readSome () (min limit remaining) pieces := by
      clear ih
      induction pieces with
      | nil => rfl
      | cons piece _ ih =>
        rw [List.flatten_cons, List.length_append] at more
        have within : piece.length ≤ remaining := by omega
        rw [readSome, readSome, ih (by omega)]
        by_cases short : limit ≤ remaining
        · rw [Nat.min_eq_left short]
        · rw [Nat.min_eq_right (by omega), List.take_of_length_le (by omega : piece.length ≤ limit),
            List.take_of_length_le within,
            List.drop_of_length_le (by omega : piece.length ≤ limit), List.drop_of_length_le within]
    rw [same]
    cases read : readSome () (min limit remaining) pieces with
    | error => rfl
    | ok result =>
      obtain ⟨_, _⟩ := result
      obtain ⟨arrived, nonempty, -⟩ := readSome_ok (by omega) read
      rw [arrived, List.length_append] at more
      dsimp only
      rw [if_neg nonempty]
      cases ready received with
      | error => rfl
      | ok => exact ih (by omega)

theorem readToEnd_eq (positive : 0 < limit) :
    readToEnd limit closed ready pieces = readExpected limit closed ready
      (pieces.flatten.length + 1) pieces :=
  endLoop_eq positive (Nat.lt_succ_self _)

theorem readToEnd_received (positive : 0 < limit)
    (done : (readToEnd limit closed ready pieces).2 = .ok ()) :
    (readToEnd limit closed ready pieces).1 = pieces.flatten := by
  rw [readToEnd_eq positive] at done ⊢
  rw [readExpected_received positive done, List.take_of_length_le (Nat.le_succ _)]

theorem readToEnd_done_iff (positive : 0 < limit) :
    (readToEnd limit closed ready pieces).2 = .ok () ↔
      (∀ index < (expectedChunks limit (pieces.flatten.length + 1) pieces).length,
        ready ((expectedChunks limit (pieces.flatten.length + 1) pieces).take index).flatten = .ok
          ()) ∧
        closed = .ok () := by
  rw [readToEnd_eq positive, readExpected_done_iff positive]
  exact and_congr_right fun _ => or_iff_right (by omega)

theorem readToEnd_nil (ended : pieces.flatten = []) :
    readToEnd limit closed ready pieces = ([], closed) := by
  have short : readSome () limit pieces = .error () := by
    induction pieces with
    | nil => rfl
    | cons _ _ ih =>
      obtain ⟨empty, later⟩ := List.append_eq_nil_iff.mp (List.flatten_cons.symm.trans ended)
      rw [readSome, if_pos empty]
      exact ih later
  rw [readToEnd, endLoop, short]

theorem readToEnd_zero (open_ : pieces.flatten ≠ []) :
    readToEnd 0 closed ready pieces = ([], .ok ()) := by
  rw [readToEnd, endLoop]
  cases read : readSome () 0 pieces with
  | error => exact absurd (readSome_error read).2 open_
  | ok result =>
    obtain ⟨chunk, _⟩ := result
    have empty : chunk = [] := by
      induction pieces with
      | nil => cases read
      | cons _ _ ih =>
        rw [readSome] at read
        split at read
        · rename_i none
          rw [none, List.flatten_cons, List.nil_append] at open_
          exact ih open_ read
        · cases read
          exact List.take_zero
    dsimp only
    rw [if_pos empty]

end DistributedOs.Semantics
