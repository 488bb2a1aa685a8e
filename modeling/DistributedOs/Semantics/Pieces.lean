import DistributedOs.Semantics.Codec

/-! Byte streams that arrive in pieces. A read takes what is there, wherever the writes were cut;
after the last piece the stream is closed. -/

namespace DistributedOs.Semantics

universe u v
variable {ε : Type u} {short : ε} {pieces rest : List Bytes} {bytes more : Bytes}
  {count limit : Nat}

theorem ok_of_bind {α β : Type v} {first : Except ε α} {later : α → Except ε β} {result : β}
    (done : (first >>= later) = .ok result) :
    ∃ value, first = .ok value ∧ later value = .ok result := by
  cases first with
  | error => cases done
  | ok value => exact ⟨value, rfl, done⟩

def readSome (short : ε) (limit : Nat) : List Bytes → Except ε (Bytes × List Bytes)
  | [] => .error short
  | piece :: pieces =>
    if piece = [] then readSome short limit pieces
    else .ok (piece.take limit, piece.drop limit :: pieces)

def readFully (short : ε) (count : Nat) : List Bytes → Except ε (Bytes × List Bytes)
  | [] => if count = 0 then .ok ([], []) else .error short
  | piece :: pieces =>
    if count ≤ piece.length then .ok (piece.take count, piece.drop count :: pieces)
    else (readFully short (count - piece.length) pieces).map fun (bytes, rest) => (piece ++ bytes, rest)

theorem readFully_ok (read : readFully short count pieces = .ok (bytes, rest)) :
    pieces.flatten = bytes ++ rest.flatten ∧ bytes.length = count := by
  induction pieces generalizing count bytes with
  | nil =>
    rw [readFully] at read
    split at read
    · rename_i zero
      cases read
      exact ⟨rfl, zero.symm⟩
    · cases read
  | cons piece pieces ih =>
    rw [readFully] at read
    split at read
    · rename_i enough
      cases read
      constructor
      · rw [List.flatten_cons, List.flatten_cons, ← List.append_assoc, List.take_append_drop]
      · rw [List.length_take]
        omega
    · cases later : readFully short (count - piece.length) pieces with
      | error =>
        rw [later] at read
        cases read
      | ok =>
        rw [later] at read
        cases read
        have ⟨same, size⟩ := ih later
        constructor
        · rw [List.flatten_cons, same, List.append_assoc]
        · rw [List.length_append, size]
          omega

theorem readFully_error (read : readFully short count pieces = .error error) :
    error = short ∧ pieces.flatten.length < count := by
  induction pieces generalizing count with
  | nil =>
    rw [readFully] at read
    split at read
    · cases read
    · cases read
      exact ⟨rfl, Nat.pos_of_ne_zero ‹_›⟩
  | cons piece pieces ih =>
    rw [readFully] at read
    split at read
    · cases read
    · cases later : readFully short (count - piece.length) pieces with
      | error =>
        rw [later] at read
        cases read
        have ⟨same, _⟩ := ih later
        rw [List.flatten_cons, List.length_append]
        exact ⟨same, by omega⟩
      | ok =>
        rw [later] at read
        cases read

theorem readFully_short (fewer : pieces.flatten.length < count) :
    readFully short count pieces = .error short := by
  cases read : readFully short count pieces with
  | error => rw [(readFully_error read).1]
  | ok =>
    have ⟨same, _⟩ := readFully_ok read
    rw [same, List.length_append] at fewer
    omega

theorem readFully_exact (arrived : pieces.flatten = bytes ++ more) (size : bytes.length = count)
    (read : readFully short count pieces = .ok result) :
    result.1 = bytes ∧ result.2.flatten = more := by
  have ⟨same, taken⟩ := readFully_ok read
  rw [arrived] at same
  have ⟨sameBytes, sameRest⟩ := List.append_inj same (size.trans taken.symm)
  exact ⟨sameBytes.symm, sameRest.symm⟩

theorem readFully_append (short : ε) (arrived : pieces.flatten = bytes ++ more) :
    ∃ rest, readFully short bytes.length pieces = .ok (bytes, rest) ∧ rest.flatten = more := by
  cases read : readFully short bytes.length pieces with
  | error =>
    have fewer := (readFully_error read).2
    rw [arrived, List.length_append] at fewer
    omega
  | ok result =>
    have ⟨same, left⟩ := readFully_exact arrived rfl read
    exact ⟨result.2, by rw [← same], left⟩

theorem readFully_front (short : ε) (front : pieces.flatten <+: bytes ++ more) :
    readFully short bytes.length pieces = .error short ∨
      ∃ rest, readFully short bytes.length pieces = .ok (bytes, rest) ∧ rest.flatten <+: more ∧
        pieces.flatten.length = bytes.length + rest.flatten.length := by
  rcases Nat.lt_or_ge pieces.flatten.length bytes.length with fewer | enough
  · exact .inl (readFully_short fewer)
  · obtain ⟨_, arrived⟩ := List.prefix_of_prefix_length_le (List.prefix_append bytes more) front enough
    obtain ⟨rest, read, left⟩ := readFully_append short arrived.symm
    rw [← arrived] at front ⊢
    refine .inr ⟨rest, read, ?_, ?_⟩
    · rw [left]
      exact (List.prefix_append_right_inj _).mp front
    · rw [left, List.length_append]

theorem readSome_ok (positive : 0 < limit)
    (read : readSome short limit pieces = .ok (bytes, rest)) :
    pieces.flatten = bytes ++ rest.flatten ∧ bytes ≠ [] ∧ bytes.length ≤ limit := by
  induction pieces with
  | nil => cases read
  | cons _ _ ih =>
    rw [readSome] at read
    split at read
    · rename_i empty
      rw [empty]
      exact ih read
    · rename_i nonempty
      cases read
      refine ⟨?_, ?_, List.length_take_le _ _⟩
      · rw [List.flatten_cons, List.flatten_cons, ← List.append_assoc, List.take_append_drop]
      · intro none
        rcases List.take_eq_nil_iff.mp none with _ | empty
        · omega
        · exact nonempty empty

theorem readSome_error (read : readSome short limit pieces = .error error) :
    error = short ∧ pieces.flatten = [] := by
  induction pieces with
  | nil =>
    cases read
    exact ⟨rfl, rfl⟩
  | cons _ _ ih =>
    rw [readSome] at read
    split at read
    · rename_i empty
      rw [List.flatten_cons, empty]
      exact ih read
    · cases read

/-- A way of reading: some of the bytes asked for, or the error when not all of them come. -/
structure Reader (ε : Type u) where
  read : Nat → List Bytes → Except ε (Bytes × List Bytes)
  short : ε
  ok : ∀ {limit pieces bytes rest}, 0 < limit → read limit pieces = .ok (bytes, rest) →
    pieces.flatten = bytes ++ rest.flatten ∧ bytes ≠ [] ∧ bytes.length ≤ limit
  error : ∀ {limit pieces e}, 0 < limit → read limit pieces = .error e → e = short ∧
    pieces.flatten.length < limit

def Reader.filling (short : ε) : Reader ε where
  read := readFully short
  short := short
  ok positive read := by
    have ⟨same, size⟩ := readFully_ok read
    exact ⟨same, List.length_pos_iff.mp (by omega), by omega⟩
  error _ read := readFully_error read

def Reader.available (short : ε) : Reader ε where
  read := readSome short
  short := short
  ok := readSome_ok
  error positive read := by
    have ⟨same, empty⟩ := readSome_error read
    exact ⟨same, by rw [empty]; exact positive⟩

variable {reader : Reader ε} {fuel remaining : Nat}

def copyFrom (reader : Reader ε)
    (limit : Nat) : Nat → Nat → List Bytes → Except ε (Bytes × List Bytes)
  | 0, _, pieces => .ok ([], pieces)
  | fuel + 1, remaining, pieces =>
    if remaining = 0 then .ok ([], pieces)
    else do
      let read ← reader.read (min limit remaining) pieces
      let later ← copyFrom reader limit fuel (remaining - read.1.length) read.2
      pure (read.1 ++ later.1, later.2)

/-- Every read gets a byte, so the number of bytes is fuel enough. -/
def copyExactly (reader : Reader ε) (limit remaining : Nat) (pieces : List Bytes) :
    Except ε (Bytes × List Bytes) :=
  copyFrom reader limit remaining remaining pieces

private theorem copyFrom_ok (positive : 0 < limit) (enough : remaining ≤ fuel)
    (copied : copyFrom reader limit fuel remaining pieces = .ok (bytes, rest)) :
    pieces.flatten = bytes ++ rest.flatten ∧ bytes.length = remaining := by
  induction fuel generalizing remaining pieces bytes with
  | zero =>
    cases copied
    exact ⟨rfl, by simp; omega⟩
  | succ fuel ih =>
    rw [copyFrom] at copied
    split at copied
    · rename_i zero
      cases copied
      exact ⟨rfl, zero.symm⟩
    · cases first : reader.read (min limit remaining) pieces with
      | error =>
        rw [first] at copied
        cases copied
      | ok read =>
        simp only [first, bind, Except.bind] at copied
        have ⟨same, nonempty, _⟩ := reader.ok (by omega) first
        have got := List.length_pos_iff.mpr nonempty
        cases next : copyFrom reader limit fuel (remaining - read.1.length) read.2 with
        | error =>
          rw [next] at copied
          cases copied
        | ok =>
          rw [next] at copied
          cases copied
          have ⟨sameLater, sizeLater⟩ := ih (by omega) next
          constructor
          · rw [same, sameLater, List.append_assoc]
          · rw [List.length_append, sizeLater]
            omega

private theorem copyFrom_error (positive : 0 < limit)
    (copied : copyFrom reader limit fuel remaining pieces = .error error) :
    error = reader.short ∧ pieces.flatten.length < remaining := by
  induction fuel generalizing remaining pieces with
  | zero => cases copied
  | succ fuel ih =>
    rw [copyFrom] at copied
    split at copied
    · cases copied
    · cases first : reader.read (min limit remaining) pieces with
      | error =>
        rw [first] at copied
        cases copied
        have ⟨same, fewer⟩ := reader.error (by omega) first
        exact ⟨same, by omega⟩
      | ok read =>
        simp only [first, bind, Except.bind] at copied
        have ⟨same, _, _⟩ := reader.ok (by omega) first
        cases next : copyFrom reader limit fuel (remaining - read.1.length) read.2 with
        | error =>
          rw [next] at copied
          cases copied
          have ⟨sameError, _⟩ := ih next
          rw [same, List.length_append]
          exact ⟨sameError, by omega⟩
        | ok =>
          rw [next] at copied
          cases copied

theorem copyExactly_ok (positive : 0 < limit)
    (copied : copyExactly reader limit count pieces = .ok (bytes, rest)) :
    pieces.flatten = bytes ++ rest.flatten ∧ bytes.length = count :=
  copyFrom_ok positive (Nat.le_refl _) copied

theorem copyExactly_error (positive : 0 < limit)
    (copied : copyExactly reader limit count pieces = .error error) :
    error = reader.short ∧ pieces.flatten.length < count := copyFrom_error positive copied

theorem copyExactly_append (positive : 0 < limit) (reader : Reader ε)
    (arrived : pieces.flatten = bytes ++ more) :
    ∃ rest, copyExactly reader limit bytes.length pieces = .ok (bytes, rest) ∧
      rest.flatten = more := by
  cases copied : copyExactly reader limit bytes.length pieces with
  | error =>
    have fewer := (copyExactly_error positive copied).2
    rw [arrived, List.length_append] at fewer
    omega
  | ok result =>
    have ⟨same, size⟩ := copyExactly_ok positive copied
    rw [arrived] at same
    have ⟨sameBytes, sameRest⟩ := List.append_inj same size.symm
    exact ⟨result.2, by rw [sameBytes], sameRest.symm⟩

/-- What a loop has read: the messages, why it stopped, and what was unread before the read that
failed. -/
structure Intake (Message : Type v) (ε : Type u) where
  messages : List Message
  stopped : Option ε
  unread : Bytes

variable {Message : Type v} {next : List Bytes → Except ε (Message × List Bytes)}
  {encode : Message → Bytes} {good : Message → Prop}

def readMessages (next : List Bytes → Except ε (Message × List Bytes)) :
    Nat → List Bytes → Intake Message ε
  | 0, pieces => { messages := [], stopped := none, unread := pieces.flatten }
  | fuel + 1, pieces =>
    match next pieces with
    | .error error => { messages := [], stopped := some error, unread := pieces.flatten }
    | .ok read =>
      let later := readMessages next fuel read.2
      { later with messages := read.1 :: later.messages }

/-- Where every message uses up a byte, one read more than there are bytes is enough. -/
def intake (next : List Bytes → Except ε (Message × List Bytes)) (pieces : List Bytes) :
    Intake Message ε :=
  readMessages next (pieces.flatten.length + 1) pieces

section Intake

variable (messages : List Message) (nonempty : ∀ message, encode message ≠ [])
  (reads : ∀ message pieces more, good message → pieces.flatten = encode message ++ more →
    ∃ rest, next pieces = .ok (message, rest) ∧ rest.flatten = more)
  (sharp : ∀ message pieces more rest, pieces.flatten = encode message ++ more →
    next pieces = .ok (message, rest) → good message)
  (closes : ∀ pieces, pieces.flatten = [] → ∃ error, next pieces = .error error)
include nonempty reads sharp closes

private theorem readMessages_iff (arrived : pieces.flatten = messages.flatMap encode) (enough : pieces.flatten.length < fuel) :
    (readMessages next fuel pieces).messages = messages ∧
      (readMessages next fuel pieces).unread = [] ↔
      ∀ message ∈ messages, good message := by
  induction messages generalizing pieces fuel with
  | nil =>
    obtain ⟨fuel, rfl⟩ : ∃ less, fuel = less + 1 := ⟨fuel - 1, by omega⟩
    obtain ⟨error, stops⟩ := closes pieces arrived
    rw [readMessages, stops]
    exact iff_of_true ⟨rfl, arrived⟩ nofun
  | cons message messages ih =>
    obtain ⟨fuel, rfl⟩ : ∃ less, fuel = less + 1 := ⟨fuel - 1, by omega⟩
    rw [List.flatMap_cons] at arrived
    have used := List.length_pos_iff.mpr (nonempty message)
    rw [arrived, List.length_append] at enough
    have continues {rest : List Bytes} (here : good message)
      (left : rest.flatten = messages.flatMap encode) :
        (readMessages next fuel rest).messages = messages ∧ (readMessages next fuel rest).unread = [] ↔
          ∀ other ∈ message :: messages, good other := by
      rw [ih left (by rw [left]; omega), List.forall_mem_cons]
      exact ⟨fun others => ⟨here, others⟩, And.right⟩
    constructor
    · rintro ⟨all, empty⟩
      cases read : next pieces with
      | error => simp [readMessages, read] at all
      | ok result =>
        simp only [readMessages, read] at all empty
        have ⟨sameHead, sameTail⟩ := List.cons.inj all
        have here := sharp message pieces _ result.2 arrived (by rw [read, ← sameHead])
        obtain ⟨rest, again, left⟩ := reads message pieces _ here arrived
        cases read.symm.trans again
        exact (continues here left).mp ⟨sameTail, empty⟩
    · intro all
      obtain ⟨_, read, left⟩ := reads message pieces _ (all message List.mem_cons_self) arrived
      have ⟨same, empty⟩ := (continues (all message List.mem_cons_self) left).mpr all
      simp only [readMessages, read]
      exact ⟨by rw [same], empty⟩

/-- However a stream of messages is cut, the loop reads all of them and nothing else exactly when
each is one that is read back, provided none is read back by accident. -/
theorem intake_iff (arrived : pieces.flatten = messages.flatMap encode) :
    (intake next pieces).messages = messages ∧ (intake next pieces).unread = [] ↔
      ∀ message ∈ messages, good message :=
  readMessages_iff messages nonempty reads sharp closes arrived (Nat.lt_succ_self _)

end Intake

end DistributedOs.Semantics
