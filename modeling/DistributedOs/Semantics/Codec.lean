import Mathlib.Data.Countable.Basic
import Mathlib.Data.List.Basic
import Mathlib.Logic.Equiv.List
import Mathlib.Tactic.Ring

/-! Byte codecs: big-endian integers, hexadecimal text, a code for each value of a countable type,
and streams of self-delimiting messages. A stream has no outer framing, so decoding it must find
every boundary itself. -/

namespace DistributedOs.Semantics

abbrev Bytes := List UInt8

/-- The `width` low bytes of a number, most significant first. -/
def toBe : Nat → Nat → Bytes
  | 0, _ => []
  | width + 1, value => UInt8.ofNat (value / 256 ^ width) :: toBe width value

def ofBe (bytes : Bytes) : Nat :=
  bytes.foldl (fun value byte => value * 256 + byte.toNat) 0

@[simp] theorem length_toBe (width value : Nat) : (toBe width value).length = width := by
  induction width with
  | zero => rfl
  | succ _ ih => simp [toBe, ih]

private theorem foldl_be (bytes : Bytes) (value : Nat) :
    bytes.foldl (fun value byte => value * 256 + byte.toNat) value =
      value * 256 ^ bytes.length + ofBe bytes := by
  induction bytes generalizing value with
  | nil => simp [ofBe]
  | cons byte _ ih =>
    simp only [ofBe, List.foldl_cons, List.length_cons, ih (value * 256 + byte.toNat),
      ih (0 * 256 + byte.toNat)]
    ring

theorem ofBe_cons (byte : UInt8) (rest : Bytes) :
    ofBe (byte :: rest) = byte.toNat * 256 ^ rest.length + ofBe rest := by
  simpa [ofBe] using foldl_be rest (0 * 256 + byte.toNat)

theorem ofBe_lt (bytes : Bytes) : ofBe bytes < 256 ^ bytes.length := by
  induction bytes with
  | nil => simp [ofBe]
  | cons byte rest =>
    have bound := byte.toNat_lt
    rw [ofBe_cons, List.length_cons, Nat.pow_succ]
    calc byte.toNat * 256 ^ rest.length + ofBe rest
        < byte.toNat * 256 ^ rest.length + 256 ^ rest.length := by omega
      _ = (byte.toNat + 1) * 256 ^ rest.length := by ring
      _ ≤ 256 * 256 ^ rest.length := Nat.mul_le_mul_right _ (by omega)
      _ = 256 ^ rest.length * 256 := Nat.mul_comm _ _

theorem ofBe_toBe (width value : Nat) : ofBe (toBe width value) = value % 256 ^ width := by
  induction width with
  | zero => simp [toBe, ofBe, Nat.mod_one]
  | succ _ ih =>
    rw [toBe, ofBe_cons, length_toBe, ih, Nat.pow_succ, Nat.mod_mul, UInt8.toNat_ofNat']
    ring

theorem ofBe_toBe_of_lt (bound : value < 256 ^ width) : ofBe (toBe width value) = value := by
  rw [ofBe_toBe, Nat.mod_eq_of_lt bound]

private theorem toBe_mod (width value : Nat) (high : Nat) :
    toBe width (high * 256 ^ width + value) = toBe width value := by
  induction width generalizing high with
  | zero => rfl
  | succ width ih =>
    have shifted : high * 256 ^ (width + 1) + value = high * 256 * 256 ^ width + value := by ring
    have positive : 0 < 256 ^ width := Nat.pow_pos (by omega)
    rw [toBe, toBe, shifted, ih]
    congr 1
    apply UInt8.toNat_inj.mp
    rw [Nat.add_comm, Nat.add_mul_div_right _ _ positive, UInt8.toNat_ofNat', UInt8.toNat_ofNat']
    omega

theorem toBe_ofBe (bytes : Bytes) : toBe bytes.length (ofBe bytes) = bytes := by
  induction bytes with
  | nil => rfl
  | cons _ rest ih =>
    have positive : 0 < 256 ^ rest.length := Nat.pow_pos (by omega)
    rw [List.length_cons, toBe, ofBe_cons, toBe_mod, ih]
    congr 1
    rw [Nat.add_comm, Nat.add_mul_div_right _ _ positive, Nat.div_eq_of_lt (ofBe_lt rest)]
    simp

theorem bmod_of_nonneg {value modulus : Nat} (positive : 0 < modulus)
    (nonneg : 0 ≤ (value : Int).bmod modulus) :
    (value : Int).bmod modulus = (value % modulus : Nat) := by
  have below : ((value % modulus : Nat) : Int) < modulus := by exact_mod_cast Nat.mod_lt value positive
  simp only [Int.bmod, ← Int.natCast_mod] at nonneg ⊢
  split
  · rfl
  · rename_i high
    rw [if_neg high] at nonneg
    omega

def readSigned (width : Nat) (field : Bytes) : Int := (ofBe field : Int).bmod (256 ^ width)

theorem readSigned_of_pos (size : field.length = width) (positive : 0 < readSigned width field) :
    readSigned width field = ofBe field := by
  have bound := ofBe_lt field
  rw [size] at bound
  rw [readSigned, bmod_of_nonneg (Nat.zero_lt_of_lt bound) positive.le, Nat.mod_eq_of_lt bound]

theorem readSigned_toBe (small : 2 * value < 256 ^ width) :
    readSigned width (toBe width value) = value := by
  rw [readSigned, ofBe_toBe_of_lt (by omega)]
  exact Int.bmod_eq_of_le_mul_two (by omega) (by omega)

def lowerHex (byte : UInt8) : List Char :=
  [Nat.digitChar (byte.toNat / 16), Nat.digitChar (byte.toNat % 16)]

/-- The next `count` bytes and the stream after them, or `short` when there are fewer. -/
def readExact (short : ε) (count : Nat) (stream : Bytes) : Except ε (Bytes × Bytes) :=
  if count ≤ stream.length then .ok (stream.take count, stream.drop count) else .error short

theorem readExact_append (exact : bytes.length = count) (rest : Bytes) :
    readExact short count (bytes ++ rest) = .ok (bytes, rest) := by
  subst exact
  simp [readExact]

theorem readExact_ok (read : readExact short count stream = .ok (bytes, rest)) :
    stream = bytes ++ rest ∧ bytes.length = count := by
  unfold readExact at read
  split at read
  · cases read
    exact ⟨(List.take_append_drop _ _).symm, by simpa⟩
  · cases read

theorem readExact_error (read : readExact short count stream = .error error) : error = short := by
  unfold readExact at read
  split at read <;> cases read
  rfl

/-- `count` bytes, of a buffer that has as many left. -/
def readBytes (count : Nat) (stream : Bytes) : Option (Bytes × Bytes) :=
  (readExact () count stream).toOption

theorem readBytes_some (read : readBytes count stream = some (bytes, rest)) :
    stream = bytes ++ rest ∧ bytes.length = count := by
  unfold readBytes at read
  cases exact : readExact () count stream with
  | error => simp [exact, Except.toOption] at read
  | ok =>
    simp only [exact, Except.toOption, Option.some.injEq] at read
    subst read
    exact readExact_ok exact

theorem readBytes_take (field rest : Bytes) (room : Nat) :
    readBytes field.length ((field ++ rest).take room) =
      if field.length ≤ room then some (field, rest.take (room - field.length)) else none := by
  unfold readBytes readExact
  split
  · rename_i enough
    have within : field.length ≤ room := by
      rw [List.length_take] at enough
      omega
    rw [if_pos within, List.take_append, List.take_of_length_le within]
    simp [Except.toOption]
  · rename_i short
    have beyond : ¬ field.length ≤ room := by
      rw [List.length_take, List.length_append] at short
      omega
    rw [if_neg beyond]
    rfl

def nibble (digit : Char) : Option Nat :=
  if '0' ≤ digit ∧ digit ≤ '9' then some (digit.toNat - 48)
  else if 'a' ≤ digit ∧ digit ≤ 'f' then some (digit.toNat - 87)
  else if 'A' ≤ digit ∧ digit ≤ 'F' then some (digit.toNat - 55)
  else none

def hexEncode (bytes : Bytes) : String := String.ofList (bytes.flatMap lowerHex)

/-- Two digits make a byte. An odd digit or another character makes nothing. -/
def hexPairs : List Char → Option Bytes
  | [] => some []
  | [_] => none
  | high :: low :: rest =>
    match nibble high, nibble low with
    | some first, some second =>
      (hexPairs rest).map fun bytes => UInt8.ofNat (first * 16 + second) :: bytes
    | _, _ => none

def hexDecode (text : String) : Option Bytes := hexPairs text.toList

theorem nibble_digitChar : ∀ value < 16, nibble (Nat.digitChar value) = some value := by decide

theorem hexPairs_flatMap (bytes : Bytes) : hexPairs (bytes.flatMap lowerHex) = some bytes := by
  induction bytes with
  | nil => rfl
  | cons byte _ ih =>
    have small := byte.toNat_lt
    have high := nibble_digitChar (byte.toNat / 16) (by omega)
    have low := nibble_digitChar (byte.toNat % 16) (by omega)
    have whole : UInt8.ofNat (byte.toNat / 16 * 16 + byte.toNat % 16) = byte := by
      rw [Nat.div_add_mod', UInt8.ofNat_toNat]
    simp only [List.flatMap_cons, lowerHex, List.cons_append, List.nil_append, hexPairs, high, low,
      ih, Option.map_some, whole]

theorem hexDecode_hexEncode (bytes : Bytes) : hexDecode (hexEncode bytes) = some bytes := by
  rw [hexDecode, hexEncode, String.toList_ofList, hexPairs_flatMap]

section Stream

universe u v w
variable {Symbol : Type u} {Message : Type v} {View : Type w}

/-- Decode one message after the other until the input is used up. -/
def decodeAll (decode : List Symbol → Option (View × List Symbol)) :
    Nat → List Symbol → Option (List View)
  | _, [] => some []
  | 0, _ :: _ => none
  | fuel + 1, symbol :: rest =>
    (decode (symbol :: rest)).bind fun (view, remaining) =>
      (decodeAll decode fuel remaining).map (view :: ·)

/-- Every message uses at least one symbol, so the input length is fuel enough. -/
def decodeStream (decode : List Symbol → Option (View × List Symbol)) (input : List Symbol) :
    Option (List View) :=
  decodeAll decode input.length input

variable {decode : List Symbol → Option (View × List Symbol)} {encode : Message → List Symbol}
  {view : Message → View}

/-- `decode` reads `message` off the front of any stream that starts with it. -/
def ReadsBack (decode : List Symbol → Option (View × List Symbol)) (encode : Message → List Symbol)
    (view : Message → View) (message : Message) : Prop :=
  ∀ rest, decode (encode message ++ rest) = some (view message, rest)

theorem decodeAll_cons (nonempty : input ≠ []) :
    decodeAll decode (fuel + 1) input =
      (decode input).bind fun (view, remaining) =>
        (decodeAll decode fuel remaining).map (view :: ·) := by
  cases input with
  | nil => exact absurd rfl nonempty
  | cons => rfl

private theorem decodeAll_encode (messages : List Message)
    (nonempty : ∀ message ∈ messages, encode message ≠ [])
    (reads : ∀ message ∈ messages, ReadsBack decode encode view message)
    (enough : (messages.flatMap encode).length ≤ fuel) :
    decodeAll decode fuel (messages.flatMap encode) = some (messages.map view) := by
  induction messages generalizing fuel with
  | nil => cases fuel <;> rfl
  | cons message messages ih =>
    have used : 0 < (encode message).length := List.length_pos_iff.mpr (nonempty message (by simp))
    rw [List.flatMap_cons, List.length_append] at enough
    obtain ⟨fuel, rfl⟩ : ∃ less, fuel = less + 1 := ⟨fuel - 1, by omega⟩
    have more : encode message ++ messages.flatMap encode ≠ [] := by
      intro empty
      simp [(List.append_eq_nil_iff.mp empty).1] at used
    rw [List.flatMap_cons, decodeAll_cons more, reads message (by simp)]
    simp only [Option.bind_some, List.map_cons]
    rw [ih (fun other member => nonempty other (by simp [member]))
      (fun other member => reads other (by simp [member])) (by omega)]
    rfl

theorem decodeStream_encode (messages : List Message)
    (nonempty : ∀ message ∈ messages, encode message ≠ [])
    (reads : ∀ message ∈ messages, ReadsBack decode encode view message) :
    decodeStream decode (messages.flatMap encode) = some (messages.map view) :=
  decodeAll_encode messages nonempty reads (Nat.le_refl _)

private theorem decodeAll_exact (messages : List Message)
    (nonempty : ∀ message ∈ messages, encode message ≠ [])
    (sharp : ∀ message ∈ messages, ∀ rest remaining,
      decode (encode message ++ rest) = some (view message, remaining) →
        ReadsBack decode encode view message)
    (decoded : decodeAll decode fuel (messages.flatMap encode) = some (messages.map view)) :
    ∀ message ∈ messages, ReadsBack decode encode view message := by
  induction messages generalizing fuel with
  | nil => simp
  | cons message messages ih =>
    have used : encode message ≠ [] := nonempty message (by simp)
    have more : encode message ++ messages.flatMap encode ≠ [] := by simp [used]
    rw [List.flatMap_cons] at decoded
    cases fuel with
    | zero =>
      cases input : encode message ++ messages.flatMap encode with
      | nil => exact absurd input more
      | cons => simp [input, decodeAll] at decoded
    | succ =>
      rw [decodeAll_cons more] at decoded
      obtain ⟨⟨_, remaining⟩, first, others⟩ := Option.bind_eq_some_iff.mp decoded
      obtain ⟨_, tail, same⟩ := Option.map_eq_some_iff.mp others
      obtain ⟨sameHead, sameTail⟩ := List.cons.inj same
      subst sameHead sameTail
      have head := sharp message (by simp) _ _ first
      have continued : remaining = messages.flatMap encode :=
        (Prod.mk.inj (Option.some.inj (first.symm.trans (head _)))).2
      subst continued
      intro other member
      rcases List.mem_cons.mp member with here | later
      · exact here ▸ head
      · exact ih (fun other member => nonempty other (by simp [member]))
          (fun other member => sharp other (by simp [member])) tail other later

/-- A stream is read back exactly when each of its messages is, provided no
message can be recovered by accident: one recovery already means it reads back. -/
theorem decodeStream_encode_iff (messages : List Message)
    (nonempty : ∀ message ∈ messages, encode message ≠ [])
    (sharp : ∀ message ∈ messages, ∀ rest remaining,
      decode (encode message ++ rest) = some (view message, remaining) →
        ReadsBack decode encode view message) :
    decodeStream decode (messages.flatMap encode) = some (messages.map view) ↔
      ∀ message ∈ messages, ReadsBack decode encode view message :=
  ⟨decodeAll_exact messages nonempty sharp, decodeStream_encode messages nonempty⟩

end Stream

instance countable_uInt8 : Countable UInt8 := ⟨UInt8.toNat, fun _ _ => UInt8.toNat_inj.mp⟩
instance countable_uInt16 : Countable UInt16 := ⟨UInt16.toNat, fun _ _ => UInt16.toNat_inj.mp⟩
instance countable_uInt64 : Countable UInt64 := ⟨UInt64.toNat, fun _ _ => UInt64.toNat_inj.mp⟩
instance countable_char : Countable Char := ⟨Char.toNat, fun _ _ => Char.toNat_inj.mp⟩
instance countable_string : Countable String :=
  Function.Injective.countable (f := String.toList) fun _ _ => String.toList_inj.mp

universe u v
variable (α : Type u) [Countable α] {β : Type v}

/-- As many copies of an item as the number of the value says. -/
noncomputable def tally (item : β) (value : α) : List β :=
  List.replicate ((exists_injective_nat α).choose value) item

theorem tally_injective (item : β) : Function.Injective (tally α item) := by
  intro _ _ same
  have lengths := congrArg List.length same
  rw [tally, tally, List.length_replicate, List.length_replicate] at lengths
  exact (exists_injective_nat α).choose_spec lengths

end DistributedOs.Semantics
