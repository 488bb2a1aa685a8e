import DistributedOs.Semantics.Pieces
import DistributedOs.Reliable.Frame
import Mathlib.Data.List.TakeDrop

/-! The raw frames of `NioTransfer`: a metadata frame, data frames and an end frame, each with its
type and length before it. What arrives is the front of what was sent, and then the end of the
stream or an exception. -/

namespace DistributedOs.Nio

open Semantics
open Reliable (utf8)

def directBufferSize : Nat := 4194304

def maxFrameSize : Nat := 1048576

def frameMetadata : Nat := 0x01

def frameData : Nat := 0x02

def frameEnd : Nat := 0x03

def frameError : Nat := 0xFF

structure Frame where
  type : Nat
  data : Bytes
  deriving DecidableEq

def Frame.encode (frame : Frame) : Bytes :=
  toBe 4 frame.type ++ (toBe 4 frame.data.length ++ frame.data)

structure RawFile where
  filename : String
  checksum : String
  content : Bytes

/-- The texts are not escaped. -/
def RawFile.metadata (file : RawFile) : Frame :=
  { type := frameMetadata
    data := utf8 ("\x7b\"filename\":\"" ++ file.filename ++ "\",\"totalSize\":" ++
      toString file.content.length ++
      ",\"checksum\":\"" ++ file.checksum ++ "\"\x7d") }

/-- `Long.toInt`. -/
def toInt (value : Nat) : Int := (value : Int).bmod 4294967296

/-- `minOf(dataBuf.capacity(), (fileSize - position).toInt())`. -/
def frameLimit (left : Bytes) : Int := min (directBufferSize : Int) (toInt left.length)

/-- The data of the frames for what is left of the file, and whether the loop ended rather than
threw at a negative limit. A read fills the buffer up to its limit, and one of no bytes breaks. -/
def sendData : Nat → Bytes → List Bytes × Bool
  | 0, _ => ([], true)
  | fuel + 1, left =>
    if left = [] then ([], true)
    else if frameLimit left < 0 then ([], false)
    else if frameLimit left = 0 then ([], true)
    else
      let later := sendData fuel (left.drop (frameLimit left).toNat)
      (left.take (frameLimit left).toNat :: later.1, later.2)

/-- An empty file is refused before the connection is opened. -/
def rawSendFile (file : RawFile) : List Frame :=
  if file.content = [] then []
  else
    let data := sendData file.content.length file.content
    file.metadata :: data.1.map (Frame.mk frameData) ++ if data.2 then [⟨frameEnd, []⟩] else []

/-- `readFrame` returns null, or a read throws. -/
inductive ReadFailure where
  | null
  | exception
  deriving DecidableEq

/-- `ending` is what a read makes of the end of the connection. -/
def readFrame (ending : ReadFailure) (pieces : List Bytes) :
    Except ReadFailure (Frame × List Bytes) :=
  do
  let header ← readFully ending 8 pieces
  let length := readSigned 4 (header.1.drop 4)
  if length < 0 ∨ maxFrameSize < length then .error .null
  else
    let data ← readFully ending length.toNat header.2
    pure ({ type := ofBe (header.1.take 4), data := data.1 }, data.2)

inductive Reply where
  | ok
  | expectedMetadata
  | http
  deriving DecidableEq

/-- What a connection comes to: the answer, what the file holds, and whether the end frame was read. -/
structure Verdict where
  reply : Option Reply
  stored : Option Bytes
  ended : Bool
  deriving DecidableEq

/-- The connection is closed without an answer. -/
def Verdict.silent (stored : Option Bytes) : Verdict := { reply := none, stored, ended := false }

/-- The receive loop: null breaks out of it as the end frame does. Frames of other types are
ignored. -/
def receiveFrames (ending : ReadFailure) : Nat → List Bytes → Bytes → Verdict
  | 0, _, stored => .silent stored
  | fuel + 1, pieces, stored =>
    match readFrame ending pieces with
    | .error .null => { reply := some .ok, stored := some stored, ended := false }
    | .error .exception => .silent stored
    | .ok read =>
      if read.1.type = frameData then receiveFrames ending fuel read.2 (stored ++ read.1.data)
      else if read.1.type = frameEnd then { reply := some .ok, stored := some stored, ended := true }
      else if read.1.type = frameError then .silent none
      else receiveFrames ending fuel read.2 stored

/-- The first four bytes tell the raw protocol from HTTP. A metadata frame that ends early throws. -/
def readMetadata (pieces : List Bytes) : Except Verdict (Bytes × List Bytes) := do
  let peekBytes ← readFully (.silent none) 4 pieces
  if peekBytes.1 = utf8 "GET " ∨ peekBytes.1 = utf8 "POST" ∨ peekBytes.1 = utf8 "HEAD" then
    .error { reply := some .http, stored := none, ended := false }
  else if ofBe peekBytes.1 ≠ frameMetadata then
    .error { reply := some .expectedMetadata, stored := none, ended := false }
  else
    let lenBuf ← readFully (.silent none) 4 peekBytes.2
    let frameLength := readSigned 4 lenBuf.1
    if frameLength < 0 ∨ maxFrameSize < frameLength then .error (.silent none)
    else readFully (.silent none) frameLength.toNat lenBuf.2

/-- `opens` is whether the metadata can be read and the file opened; otherwise that throws. -/
def handleFileClient (opens : Bytes → Bool) (ending : ReadFailure)
    (pieces : List Bytes) : Verdict :=
  match readMetadata pieces with
  | .error verdict => verdict
  | .ok metadata =>
    if opens metadata.1 then receiveFrames ending (metadata.2.flatten.length + 1) metadata.2 []
    else .silent none

variable {ending : ReadFailure} {pieces : List Bytes} {more : Bytes} {frame : Frame} {fuel : Nat}
  {stored : Bytes}

/-- The reader accepts the frame, whatever follows and however it arrives. -/
def ReadsBack (frame : Frame) : Prop :=
  ∀ ending pieces more, pieces.flatten = frame.encode ++ more →
    ∃ rest, readFrame ending pieces = .ok (frame, rest) ∧ rest.flatten = more

theorem length_encode (frame : Frame) : frame.encode.length = 8 + frame.data.length := by
  rw [Frame.encode, List.length_append, List.length_append, length_toBe, length_toBe]
  omega

theorem readFrame_header (ending : ReadFailure) (fits : frame.data.length ≤ maxFrameSize)
    (narrow : frame.type < 256 ^ 4)
    (arrived : pieces.flatten = toBe 4 frame.type ++ toBe 4 frame.data.length ++ more) :
    ∃ rest, rest.flatten = more ∧
      readFrame ending pieces = (readFully ending frame.data.length rest).map fun data =>
      (⟨frame.type, data.1⟩, data.2) := by
  obtain ⟨rest, read, left⟩ := readFully_append ending arrived
  have eight : (toBe 4 frame.type ++ toBe 4 frame.data.length).length = 8 := by
    rw [List.length_append, length_toBe, length_toBe]
  have type : ofBe ((toBe 4 frame.type ++ toBe 4 frame.data.length).take 4) = frame.type := by
    rw [List.take_left' (length_toBe 4 _), ofBe_toBe_of_lt narrow]
  have length : readSigned 4 ((toBe 4 frame.type ++ toBe 4 frame.data.length).drop 4) =
      frame.data.length := by
    rw [List.drop_left' (length_toBe 4 _)]
    unfold maxFrameSize at fits
    exact readSigned_toBe (by omega)
  rw [eight] at read
  refine ⟨rest, left, ?_⟩
  simp only [readFrame, read, bind, Except.bind, length, type]
  rw [if_neg (by omega), Int.toNat_natCast]
  cases readFully ending frame.data.length rest <;> rfl

theorem readFrame_fits (read : readFrame ending pieces = .ok (frame, rest)) :
    frame.data.length ≤ maxFrameSize := by
  unfold readFrame at read
  obtain ⟨_, _, read⟩ := ok_of_bind read
  dsimp only at read
  split at read
  · cases read
  · obtain ⟨_, filled, read⟩ := ok_of_bind read
    have size := (readFully_ok filled).2
    cases read
    dsimp only
    omega

theorem readsBack_iff (narrow : frame.type < 256 ^ 4) :
    ReadsBack frame ↔ frame.data.length ≤ maxFrameSize := by
  constructor
  · intro readsBack
    obtain ⟨rest, read, _⟩ := readsBack .null [frame.encode] [] (by simp)
    exact readFrame_fits read
  · intro fits ending _ _ arrived
    rw [Frame.encode, ← List.append_assoc, List.append_assoc] at arrived
    obtain ⟨_, left, read⟩ := readFrame_header ending fits narrow arrived
    obtain ⟨final, filled, leftData⟩ := readFully_append ending left
    rw [filled] at read
    exact ⟨final, read, leftData⟩

theorem readFrame_cut (fits : frame.data.length ≤ maxFrameSize) (narrow : frame.type < 256 ^ 4)
    (front : pieces.flatten <+: frame.encode) (cut : pieces.flatten.length < frame.encode.length) :
    readFrame ending pieces = .error ending := by
  rw [length_encode] at cut
  rcases Nat.lt_or_ge pieces.flatten.length 8 with fewer | header
  · rw [readFrame, readFully_short fewer]
    rfl
  · have whole : toBe 4 frame.type ++ toBe 4 frame.data.length <+: pieces.flatten := by
      refine List.prefix_of_prefix_length_le ?_ front ?_
      · rw [Frame.encode, ← List.append_assoc]
        exact List.prefix_append _ _
      · rw [List.length_append, length_toBe, length_toBe]
        exact header
    obtain ⟨_, arrived⟩ := whole
    obtain ⟨_, left, read⟩ := readFrame_header ending fits narrow arrived.symm
    rw [← arrived, List.length_append, List.length_append, length_toBe, length_toBe] at cut
    rw [read, readFully_short (by rw [left]; omega)]
    rfl

def dataFrames (datas : List Bytes) (finished : Bool) : List Frame :=
  datas.map (Frame.mk frameData) ++ if finished then [⟨frameEnd, []⟩] else []

theorem readsBack_data : ReadsBack ⟨frameData, data⟩ ↔ data.length ≤ maxFrameSize :=
  readsBack_iff (show frameData < 256 ^ 4 by decide)

theorem receiveFrames_whole {datas : List Bytes} (fits : ∀ data ∈ datas, data.length ≤ maxFrameSize)
    (arrived : pieces.flatten = (dataFrames datas true).flatMap Frame.encode)
    (enough : pieces.flatten.length < fuel) :
    receiveFrames ending fuel pieces stored =
      { reply := some .ok, stored := some (stored ++ datas.flatten), ended := true } := by
  induction datas generalizing pieces fuel stored with
  | nil =>
    obtain ⟨fuel, rfl⟩ : ∃ less, fuel = less + 1 := ⟨fuel - 1, by omega⟩
    have reads : ReadsBack ⟨frameEnd, []⟩ := (readsBack_iff (by decide)).mpr (Nat.zero_le _)
    obtain ⟨rest, read, _⟩ := reads ending pieces [] (by simpa [dataFrames] using arrived)
    simp [receiveFrames, read, frameData, frameEnd]
  | cons data datas ih =>
    obtain ⟨fuel, rfl⟩ : ∃ less, fuel = less + 1 := ⟨fuel - 1, by omega⟩
    have split : pieces.flatten = Frame.encode ⟨frameData, data⟩ ++
        (dataFrames datas true).flatMap Frame.encode := by
      simpa [dataFrames] using arrived
    obtain ⟨rest, read, left⟩ := readsBack_data.mpr (fits data List.mem_cons_self) ending pieces _ split
    have fewer : rest.flatten.length < fuel := by
      rw [split, List.length_append, length_encode] at enough
      rw [left]
      omega
    have later : receiveFrames ending fuel rest (stored ++ data) = _ :=
      ih (fun other member => fits other (List.mem_cons_of_mem _ member)) left fewer
    simp only [receiveFrames, read, ↓reduceIte, later]
    simp

theorem receiveFrames_ending (read : readFrame ending pieces = .error ending) :
    (receiveFrames ending (fuel + 1) pieces stored).reply = (if ending = .null then some .ok
      else none) ∧
      (receiveFrames ending (fuel + 1) pieces stored).ended = false := by
  rw [receiveFrames, read]
  cases ending with
  | null => exact ⟨rfl, rfl⟩
  | exception => exact ⟨rfl, rfl⟩

/-- When not all of it arrives, the end of the connection is all that is met. -/
theorem receiveFrames_cut (fits : ∀ data ∈ datas, data.length ≤ maxFrameSize)
    (front : pieces.flatten <+: (dataFrames datas finished).flatMap Frame.encode)
    (cut : pieces.flatten.length < ((dataFrames datas true).flatMap Frame.encode).length)
    (enough : pieces.flatten.length < fuel) :
    (receiveFrames ending fuel pieces stored).reply = (if ending = .null then some .ok else none) ∧
      (receiveFrames ending fuel pieces stored).ended = false := by
  induction datas generalizing pieces fuel stored with
  | nil =>
    obtain ⟨fuel, rfl⟩ : ∃ less, fuel = less + 1 := ⟨fuel - 1, by omega⟩
    have last : pieces.flatten <+: Frame.encode ⟨frameEnd, []⟩ := by
      cases finished with
      | false =>
        have none : pieces.flatten <+: [] := by simpa [dataFrames] using front
        rw [List.prefix_nil.mp none]
        exact List.nil_prefix
      | true => simpa [dataFrames] using front
    refine receiveFrames_ending (readFrame_cut (Nat.zero_le _) (by decide) last ?_)
    simpa [dataFrames] using cut
  | cons data datas ih =>
    obtain ⟨fuel, rfl⟩ : ∃ less, fuel = less + 1 := ⟨fuel - 1, by omega⟩
    have short := fits data List.mem_cons_self
    have split (finished : Bool) : (dataFrames (data :: datas) finished).flatMap Frame.encode =
        Frame.encode ⟨frameData, data⟩ ++ (dataFrames datas finished).flatMap Frame.encode := by
      simp [dataFrames]
    rw [split] at front cut
    rcases Nat.lt_or_ge pieces.flatten.length
      (Frame.encode ⟨frameData, data⟩).length with inside | beyond
    · refine receiveFrames_ending (readFrame_cut short (show frameData < 256 ^ 4 by decide) ?_ inside)
      exact List.prefix_of_prefix_length_le front (List.prefix_append _ _) inside.le
    · obtain ⟨more, arrived⟩ := List.prefix_of_prefix_length_le (List.prefix_append _ _) front beyond
      obtain ⟨rest, read, left⟩ := readsBack_data.mpr short ending pieces more arrived.symm
      rw [← arrived] at front cut enough
      rw [List.length_append, List.length_append] at cut
      rw [List.length_append, length_encode] at enough
      have later : (receiveFrames ending fuel rest (stored ++ data)).reply = _ ∧
          (receiveFrames ending fuel rest (stored ++ data)).ended = _ :=
        ih (fun other member => fits other (List.mem_cons_of_mem _ member))
          (by rw [left]; exact (List.prefix_append_right_inj _).mp front) (by rw [left]; omega)
          (by rw [left]; omega)
      simp only [receiveFrames, read, ↓reduceIte]
      exact later

theorem toInt_of_nonneg (nonneg : 0 ≤ toInt value) : toInt value = (value % 4294967296 : Nat) :=
  bmod_of_nonneg (by decide) nonneg

theorem toInt_of_multiple (multiple : value % 4294967296 = 0) : toInt value = 0 :=
  Int.bmod_eq_zero_of_dvd (Int.natCast_dvd_natCast.mpr (Nat.dvd_of_mod_eq_zero multiple))

theorem toInt_of_fits (fits : value ≤ maxFrameSize) : toInt value = value := by
  unfold maxFrameSize at fits
  exact Int.bmod_eq_of_le_mul_two (by omega) (by omega)

theorem frameLimit_of_small (small : toInt left.length ≤ maxFrameSize) :
    frameLimit left = toInt left.length := by
  refine min_eq_right (small.trans ?_)
  exact_mod_cast (by decide : maxFrameSize ≤ directBufferSize)

/-- A first limit of at most a frame is followed by no other: what is left has no low 32 bits. -/
theorem sendData_of_small {content : Bytes} (nonempty : content ≠ [])
    (small : toInt content.length ≤ maxFrameSize) :
    sendData content.length content =
      if toInt content.length < 0 then ([], false)
      else if toInt content.length = 0 then ([], true)
      else ([content.take (toInt content.length).toNat], true) := by
  obtain ⟨fuel, size⟩ : ∃ less, content.length = less + 1 := Nat.exists_eq_succ_of_ne_zero fun zero =>
    nonempty (List.length_eq_zero_iff.mp zero)
  have unfolded : sendData content.length content = sendData (fuel + 1) content := by rw [size]
  rw [unfolded, sendData, if_neg nonempty, frameLimit_of_small small]
  split
  · rfl
  · rename_i nonneg
    split
    · rfl
    · have low := toInt_of_nonneg (not_lt.mp nonneg)
      have left : frameLimit (content.drop (toInt content.length).toNat) = 0 := by
        have none : toInt (content.drop (toInt content.length).toNat).length = 0 := by
          apply toInt_of_multiple
          rw [List.length_drop, low]
          omega
        rw [frameLimit_of_small (by rw [none]; exact Int.natCast_nonneg _), none]
      have rest : sendData fuel (content.drop (toInt content.length).toNat) = ([], true) := by
        cases fuel with
        | zero => rfl
        | succ =>
          rw [sendData, left]
          split <;> rfl
      rw [rest]

theorem sendData_of_large (large : (maxFrameSize : Int) < toInt content.length) :
    ∃ data ∈ (sendData content.length content).1, maxFrameSize < data.length := by
  have low := toInt_of_nonneg ((Int.natCast_nonneg maxFrameSize).trans large.le)
  have nonempty : content ≠ [] := by
    rintro rfl
    rw [List.length_nil, toInt_of_multiple rfl] at large
    exact absurd large (Int.not_lt.mpr (Int.natCast_nonneg _))
  obtain ⟨fuel, size⟩ : ∃ less, content.length = less + 1 := Nat.exists_eq_succ_of_ne_zero fun zero =>
    nonempty (List.length_eq_zero_iff.mp zero)
  have unfolded : sendData content.length content = sendData (fuel + 1) content := by rw [size]
  have above : (maxFrameSize : Int) < frameLimit content := by
    refine lt_min ?_ large
    exact_mod_cast (by decide : maxFrameSize < directBufferSize)
  have below : frameLimit content ≤ content.length := by
    refine (min_le_right _ _).trans ?_
    rw [low]
    exact_mod_cast Nat.mod_le _ _
  rw [unfolded, sendData, if_neg nonempty, if_neg (by omega), if_neg (by omega)]
  refine ⟨_, List.mem_cons_self, ?_⟩
  rw [List.length_take]
  omega

theorem readMetadata_whole (fits : data.length ≤ maxFrameSize)
    (arrived : pieces.flatten = Frame.encode ⟨frameMetadata, data⟩ ++ more) :
    ∃ rest, readMetadata pieces = .ok (data, rest) ∧ rest.flatten = more := by
  rw [Frame.encode, List.append_assoc, List.append_assoc] at arrived
  obtain ⟨_, peek, leftType⟩ := readFully_append (Verdict.silent none) arrived
  obtain ⟨_, length, leftLength⟩ := readFully_append (Verdict.silent none) leftType
  obtain ⟨rest, filled, left⟩ := readFully_append (Verdict.silent none) leftLength
  rw [length_toBe] at peek length
  have announced : readSigned 4 (toBe 4 data.length) = data.length := by
    unfold maxFrameSize at fits
    exact readSigned_toBe (by omega)
  refine ⟨rest, ?_, left⟩
  simp only [readMetadata, peek, length, bind, Except.bind, announced]
  rw [if_neg (by decide), if_neg (by decide), if_neg (by omega), Int.toNat_natCast, filled]

theorem readMetadata_cut (fits : data.length ≤ maxFrameSize)
    (front : pieces.flatten <+: Frame.encode ⟨frameMetadata, data⟩)
    (cut : pieces.flatten.length < (Frame.encode ⟨frameMetadata, data⟩).length) :
    readMetadata pieces = .error (.silent none) := by
  rw [length_encode] at cut
  dsimp only at cut
  have announced : readSigned 4 (toBe 4 data.length) = data.length := by
    unfold maxFrameSize at fits
    exact readSigned_toBe (by omega)
  rcases readFully_front (Verdict.silent none) front with stops | ⟨_, peek, frontType, sizeType⟩
  · rw [length_toBe] at stops
    rw [readMetadata, stops]
    rfl
  rw [length_toBe] at peek sizeType
  rcases readFully_front (Verdict.silent none) frontType with stops
    | ⟨afterLength, length, _, sizeLength⟩
  · rw [length_toBe] at stops
    simp only [readMetadata, peek, stops, bind, Except.bind]
    rw [if_neg (by decide), if_neg (by decide)]
  rw [length_toBe] at length sizeLength
  have stops : readFully (Verdict.silent none) data.length afterLength = .error (.silent none) :=
    readFully_short (by omega)
  simp only [readMetadata, peek, length, bind, Except.bind, announced]
  rw [if_neg (by decide), if_neg (by decide), if_neg (by omega), Int.toNat_natCast, stops]

/-- The reader accepts every frame, and OK means that the end frame was read and the file is the
source. -/
structure Delivers (opens : Bytes → Bool) (file : RawFile) (ending : ReadFailure)
    (pieces : List Bytes) : Prop where
  accepted : ∀ frame ∈ rawSendFile file, ReadsBack frame
  honest : (handleFileClient opens ending pieces).reply = some .ok →
    (handleFileClient opens ending pieces).ended = true ∧
    (handleFileClient opens ending pieces).stored = some file.content

/-- Every frame is within the bound, and either there is no file to write to, the sender or the
connection fails with an exception at the receiver, or a single data frame carries the file and all
of it arrives. -/
def Sound (opens : Bytes → Bool) (file : RawFile) (ending : ReadFailure) (arrived : Bytes) : Prop :=
  file.metadata.data.length ≤ maxFrameSize ∧ toInt file.content.length ≤ maxFrameSize ∧
    (opens file.metadata.data = false ∨ arrived.length < file.metadata.encode.length ∨
      (ending = .exception ∧
        (toInt file.content.length < 0 ∨ arrived ≠ (rawSendFile file).flatMap Frame.encode)) ∨
      (file.content.length ≤ maxFrameSize ∧ arrived = (rawSendFile file).flatMap Frame.encode))

variable {opens : Bytes → Bool} {file : RawFile}

theorem rawSendFile_eq (nonempty : file.content ≠ []) :
    rawSendFile file = file.metadata :: dataFrames (sendData file.content.length file.content).1
      (sendData file.content.length file.content).2 := if_neg nonempty

theorem fits_of_small (nonempty : file.content ≠ [])
    (small : toInt file.content.length ≤ maxFrameSize) :
    ∀ data ∈ (sendData file.content.length file.content).1, data.length ≤ maxFrameSize := by
  rw [sendData_of_small nonempty small]
  intro _ member
  split at member
  · cases member
  · split at member
    · cases member
    · rw [List.mem_singleton.mp member, List.length_take]
      omega

theorem accepted_iff (nonempty : file.content ≠ []) :
    (∀ frame ∈ rawSendFile file, ReadsBack frame) ↔
      file.metadata.data.length ≤ maxFrameSize ∧ toInt file.content.length ≤ maxFrameSize := by
  have narrow : file.metadata.type < 256 ^ 4 := show frameMetadata < 256 ^ 4 by decide
  rw [rawSendFile_eq nonempty, List.forall_mem_cons, readsBack_iff narrow]
  refine and_congr_right fun _ => ?_
  constructor
  · intro all
    by_contra large
    obtain ⟨data, member, long⟩ := sendData_of_large (not_le.mp large)
    have accepted := all ⟨frameData, data⟩ (List.mem_append_left _ (List.mem_map_of_mem member))
    exact absurd (readsBack_data.mp accepted) (not_le.mpr long)
  · intro small _ member
    rcases List.mem_append.mp member with mapped | last
    · obtain ⟨data, sent, rfl⟩ := List.mem_map.mp mapped
      exact readsBack_data.mpr (fits_of_small nonempty small data sent)
    · split at last
      · rw [List.mem_singleton.mp last]
        exact (readsBack_iff (by decide)).mpr (Nat.zero_le _)
      · cases last

theorem flatten_eq_iff (nonempty : file.content ≠ [])
    (small : toInt file.content.length ≤ maxFrameSize)
    (finished : (sendData file.content.length file.content).2 = true) :
    (sendData file.content.length file.content).1.flatten = file.content ↔
      file.content.length ≤ maxFrameSize := by
  have some_ := List.length_pos_iff.mpr nonempty
  rw [sendData_of_small nonempty small] at finished ⊢
  split at finished
  · cases finished
  · rename_i nonneg
    have low := toInt_of_nonneg (not_lt.mp nonneg)
    rw [if_neg nonneg]
    split
    · rename_i zero
      refine iff_of_false (fun empty => nonempty empty.symm) fun fits => ?_
      rw [toInt_of_fits fits] at zero
      omega
    · rw [List.flatten_singleton, List.take_eq_self_iff]
      constructor
      · intro _
        omega
      · intro fits
        rw [toInt_of_fits fits, Int.toNat_natCast]

theorem finished_iff (nonempty : file.content ≠ [])
    (small : toInt file.content.length ≤ maxFrameSize) :
    (sendData file.content.length file.content).2 = true ↔ ¬ toInt file.content.length < 0 := by
  rw [sendData_of_small nonempty small]
  split
  · exact iff_of_false Bool.false_ne_true (not_not.mpr ‹_›)
  · refine iff_of_true ?_ ‹_›
    split <;> rfl

/-- The answer when the metadata has arrived and the file is open. -/
theorem reply_honest_iff (nonempty : file.content ≠ [])
    (small : toInt file.content.length ≤ maxFrameSize)
    (front : pieces.flatten <+: (dataFrames (sendData file.content.length file.content).1
      (sendData file.content.length file.content).2).flatMap Frame.encode)
      (enough : pieces.flatten.length < fuel) :
    ((receiveFrames ending fuel pieces []).reply = some .ok →
      (receiveFrames ending fuel pieces []).ended = true ∧
        (receiveFrames ending fuel pieces []).stored = some file.content) ↔
      (ending = .exception ∧ (toInt file.content.length < 0 ∨
        pieces.flatten ≠ (dataFrames (sendData file.content.length file.content).1
          (sendData file.content.length file.content).2).flatMap Frame.encode)) ∨
      (file.content.length ≤ maxFrameSize ∧
        pieces.flatten = (dataFrames (sendData file.content.length file.content).1
          (sendData file.content.length file.content).2).flatMap Frame.encode) := by
  have fits := fits_of_small nonempty small
  have finished := finished_iff nonempty small
  have carried := flatten_eq_iff nonempty small
  generalize sendData file.content.length file.content = sent at *
  by_cases whole : sent.2 = true ∧ pieces.flatten = (dataFrames sent.1 sent.2).flatMap Frame.encode
  · have all := whole.2
    rw [whole.1] at all
    rw [receiveFrames_whole fits all enough, List.nil_append]
    constructor
    · intro honest
      exact .inr ⟨(carried whole.1).mp (Option.some.inj (honest rfl).2), whole.2⟩
    · rintro (⟨_, negative | part⟩ | ⟨single, _⟩) _
      · exact absurd negative (finished.mp whole.1)
      · exact absurd whole.2 part
      · exact ⟨rfl, congrArg some ((carried whole.1).mpr single)⟩
  · have cut : pieces.flatten.length < ((dataFrames sent.1 true).flatMap Frame.encode).length := by
      cases ends : sent.2 with
      | false =>
        have least := front.length_le
        simp only [ends, dataFrames, List.flatMap_append, List.length_append] at least ⊢
        exact Nat.lt_of_le_of_lt least (Nat.add_lt_add_left (by decide) _)
      | true =>
        rw [ends] at front
        exact front.length_le.lt_of_ne fun same =>
          whole ⟨ends, by rw [ends]; exact front.eq_of_length same⟩
    obtain ⟨reply, ended⟩ := receiveFrames_cut fits front cut enough
    rw [reply, ended]
    cases ending with
    | null =>
      refine iff_of_false (fun honest => Bool.false_ne_true (honest rfl).1) ?_
      rintro (⟨thrown, _⟩ | ⟨single, all⟩)
      · cases thrown
      · have nonneg : ¬ toInt file.content.length < 0 := by
          rw [toInt_of_fits single]
          exact Int.not_lt.mpr (Int.natCast_nonneg _)
        exact whole ⟨finished.mpr nonneg, all⟩
    | exception =>
      refine iff_of_true nofun (.inl ⟨rfl, ?_⟩)
      by_contra complete
      obtain ⟨nonneg, all⟩ := not_or.mp complete
      exact whole ⟨finished.mpr nonneg, not_not.mp all⟩

/-- The part of the condition that is about what arrives. -/
theorem answer_iff (nonempty : file.content ≠ [])
    (described : file.metadata.data.length ≤ maxFrameSize)
    (small : toInt file.content.length ≤ maxFrameSize)
    (front : pieces.flatten <+: (rawSendFile file).flatMap Frame.encode) :
    ((handleFileClient opens ending pieces).reply = some .ok →
        (handleFileClient opens ending pieces).ended = true ∧
        (handleFileClient opens ending pieces).stored = some file.content) ↔
      opens file.metadata.data = false ∨ pieces.flatten.length < file.metadata.encode.length ∨
      (ending = .exception ∧
        (toInt file.content.length < 0 ∨
          pieces.flatten ≠ (rawSendFile file).flatMap Frame.encode)) ∨
      (file.content.length ≤ maxFrameSize ∧
        pieces.flatten = (rawSendFile file).flatMap Frame.encode) := by
  rw [rawSendFile_eq nonempty, List.flatMap_cons] at front ⊢
  rcases Nat.lt_or_ge pieces.flatten.length file.metadata.encode.length with begun | beyond
  · have silent : handleFileClient opens ending pieces = .silent none := by
      rw [handleFileClient,
        readMetadata_cut described
          (List.prefix_of_prefix_length_le front (List.prefix_append _ _) begun.le) begun]
    rw [silent]
    exact iff_of_true nofun (.inr (.inl begun))
  · obtain ⟨more, arrived⟩ := List.prefix_of_prefix_length_le (List.prefix_append _ _) front beyond
    obtain ⟨_, read, left⟩ := readMetadata_whole described arrived.symm
    rw [← arrived] at front ⊢
    have later := (List.prefix_append_right_inj _).mp front
    rw [← left] at later
    unfold handleFileClient
    rw [read]
    dsimp only
    cases opened : opens file.metadata.data with
    | false => exact iff_of_true nofun (.inl rfl)
    | true =>
      have begun : ¬ (file.metadata.encode ++ more).length < file.metadata.encode.length := by
        rw [List.length_append]
        omega
      rw [if_pos rfl]
      refine (reply_honest_iff nonempty small later (Nat.lt_succ_self _)).trans ?_
      rw [left]
      simp only [begun, ne_eq, List.append_cancel_left_eq, Bool.true_eq_false, false_or]

/-- The frames are accepted and the answer is true exactly when the file is empty, so that nothing
is sent, or the transfer is sound. -/
theorem rawSendFile_delivers_iff (opens : Bytes → Bool) (file : RawFile) (ending : ReadFailure)
    (pieces : List Bytes) (front : pieces.flatten <+: (rawSendFile file).flatMap Frame.encode) :
    Delivers opens file ending pieces ↔
      file.content = [] ∨ Sound opens file ending pieces.flatten := by
  by_cases empty : file.content = []
  · refine iff_of_true ?_ (.inl empty)
    have nothing : rawSendFile file = [] := if_pos empty
    rw [nothing] at front
    have silent : handleFileClient opens ending pieces = .silent none := by
      have none := List.prefix_nil.mp front
      rw [handleFileClient, readMetadata, readFully_short (by rw [none]; decide)]
      rfl
    refine ⟨?_, ?_⟩
    · rw [nothing]
      exact nofun
    · rw [silent]
      exact nofun
  · have accepted := accepted_iff empty
    constructor
    · intro delivers
      obtain ⟨described, small⟩ := accepted.mp delivers.accepted
      exact .inr ⟨described, small, (answer_iff empty described small front).mp delivers.honest⟩
    · rintro (none | ⟨described, small, answer⟩)
      · exact absurd none empty
      · exact ⟨accepted.mpr ⟨described, small⟩, (answer_iff empty described small front).mpr answer⟩

def shortFile : RawFile := { filename := "notes.txt", checksum := "", content := [1, 2] }

/-- Two bytes, in one piece. -/
theorem delivers_shortFile :
    Delivers (fun _ => true) shortFile .null [(rawSendFile shortFile).flatMap Frame.encode] := by
  have arrived : [(rawSendFile shortFile).flatMap Frame.encode].flatten =
      (rawSendFile shortFile).flatMap Frame.encode :=
    List.flatten_singleton
  refine (rawSendFile_delivers_iff _ _ _ _ ⟨[], by rw [List.append_nil, arrived]⟩).mpr
    (.inr ⟨by decide, by decide, ?_⟩)
  exact .inr (.inr (.inr ⟨by decide, arrived⟩))

/-- The first frame of a file of two mebibytes is twice what the reader accepts. -/
theorem not_delivers_large :
    ¬ Delivers (fun _ => true) ⟨"photo.jpg", "", List.replicate 2097152 0⟩ .null
      [(rawSendFile ⟨"photo.jpg", "", List.replicate 2097152 0⟩).flatMap Frame.encode] := by
  intro delivers
  have nonempty : List.replicate 2097152 (0 : UInt8) ≠ [] :=
    List.ne_nil_of_length_pos (by rw [List.length_replicate]; decide)
  have small := ((accepted_iff nonempty).mp delivers.accepted).2
  dsimp only at small
  rw [List.length_replicate] at small
  exact absurd small (by decide)

end DistributedOs.Nio
