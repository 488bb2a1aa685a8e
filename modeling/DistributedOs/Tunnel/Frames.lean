import DistributedOs.Semantics.Pieces
import DistributedOs.Semantics.Utf8
import DistributedOs.Reliable.Frame

/-! The frames of the tunnel, `[4-byte name_len][name][8-byte file_size][file_data]`, as each end
writes and reads them. -/

namespace DistributedOs.Tunnel

open Semantics
open Reliable (utf8 utf8_eq)

structure TunnelFile where
  name : String
  content : Bytes
  deriving DecidableEq

/-- The lengths are cut to the widths of their fields. -/
def TunnelFile.frame (file : TunnelFile) : Bytes :=
  toBe 4 (utf8 file.name).length ++ (utf8 file.name ++ (toBe 8 file.content.length ++ file.content))

/-- `name_bytes.len() as u32`, and everything in one write. -/
def sendThroughTunnel (file : TunnelFile) : Bytes := file.frame

/-- `writeInt`, `writeLong`, and the data as it is read from the file. -/
def sendFile (file : TunnelFile) : Bytes := file.frame

inductive Refusal where
  | cut
  | nameLength
  | fileSize
  | notSaved
  deriving DecidableEq

/-- Which files can be created, and which contents written to them. -/
structure Disk where
  creates : String → Bool
  writes : String → Bytes → Bool

/-- The bounds that both readers have. -/
def maxNameLen : Nat := 1024

def maxFileSize : Nat := 10 * 1024 * 1024 * 1024

/-- How an end takes the two length fields: it may refuse them, or makes them a number within its
bounds. -/
structure FrameRules where
  nameLen : Bytes → Option Nat
  fileSize : Bytes → Option Nat
  reader : Reader Refusal
  nameLen_some : ∀ {field len}, field.length = 4 → nameLen field = some len → len = ofBe field ∧
    len ≤ maxNameLen
  fileSize_some : ∀ {field size}, field.length = 8 → fileSize field = some size → size = ofBe field

/-- One turn of a reader's loop. The file is created before its data is read. -/
def readFrame (rules : FrameRules) (disk : Disk) (pieces : List Bytes) :
    Except Refusal (TunnelFile × List Bytes) :=
  do
  let nameLenBuf ← readFully .cut 4 pieces
  match rules.nameLen nameLenBuf.1 with
  | none => .error .nameLength
  | some nameLen =>
    let nameBuf ← readFully .cut nameLen nameLenBuf.2
    let filename := fromUtf8Lossy nameBuf.1
    let sizeBuf ← readFully .cut 8 nameBuf.2
    match rules.fileSize sizeBuf.1 with
    | none => .error .fileSize
    | some fileSize =>
      if disk.creates filename = false then .error .notSaved
      else
        let data ← copyExactly rules.reader 65536 fileSize sizeBuf.2
        if disk.writes filename data.1 = false then .error .notSaved
        else pure ({ name := filename, content := data.1 }, data.2)

/-- `u32::from_be_bytes`, `u64::from_be_bytes`. -/
def cliLength (bound : Nat) (field : Bytes) : Option Nat :=
  if bound < ofBe field then none else some (ofBe field)

theorem cliLength_some (accepted : cliLength bound field = some len) :
    len = ofBe field ∧ len ≤ bound := by
  unfold cliLength at accepted
  split at accepted
  · cases accepted
  · cases accepted
    omega

def cliRules : FrameRules where
  nameLen := cliLength maxNameLen
  fileSize := cliLength maxFileSize
  reader := .filling .cut
  nameLen_some _ := cliLength_some
  fileSize_some _ accepted := (cliLength_some accepted).1

/-- `readInt`, `readLong`; `len <= 0 || len > bound` is refused. -/
def clientLength (width bound : Nat) (field : Bytes) : Option Nat :=
  if readSigned width field ≤ 0 ∨ bound < readSigned width field then none
  else some (readSigned width field).toNat

theorem clientLength_some (size : field.length = width)
    (accepted : clientLength width bound field = some len) : len = ofBe field ∧ len ≤ bound := by
  unfold clientLength at accepted
  split at accepted
  · cases accepted
  · have taken := Option.some.inj accepted
    have same := readSigned_of_pos size (by omega)
    omega

def clientRules : FrameRules where
  nameLen := clientLength 4 maxNameLen
  fileSize := clientLength 8 maxFileSize
  reader := .available .cut
  nameLen_some := clientLength_some
  fileSize_some size accepted := (clientLength_some size accepted).1

/-- `handle_receive_frame`, of the command line. -/
def handleReceiveFrame (disk : Disk) (pieces : List Bytes) : Intake TunnelFile Refusal :=
  intake (readFrame cliRules disk) pieces

/-- `TunnelClient.readLoop`, of the phone. -/
def readLoop (disk : Disk) (pieces : List Bytes) : Intake TunnelFile Refusal :=
  intake (readFrame clientRules disk) pieces

/-- The reader takes both lengths for what they are, and can save the file. -/
@[mk_iff accepted_iff]
structure Accepted (rules : FrameRules) (disk : Disk) (file : TunnelFile) : Prop where
  name : rules.nameLen (toBe 4 (utf8 file.name).length) = some (utf8 file.name).length
  size : rules.fileSize (toBe 8 file.content.length) = some file.content.length
  created : disk.creates file.name = true
  written : disk.writes file.name file.content = true

variable {rules : FrameRules} {disk : Disk} {file : TunnelFile} {pieces rest : List Bytes}
  {more : Bytes}

theorem frame_ne_nil (file : TunnelFile) : file.frame ≠ [] := by
  simp [TunnelFile.frame, toBe]

theorem readFrame_of_accepted (accepted : Accepted rules disk file)
    (arrived : pieces.flatten = file.frame ++ more) :
    ∃ rest, readFrame rules disk pieces = .ok (file, rest) ∧ rest.flatten = more := by
  simp only [TunnelFile.frame, List.append_assoc] at arrived
  obtain ⟨_, lenRead, leftLen⟩ := readFully_append Refusal.cut arrived
  obtain ⟨_, nameRead, leftName⟩ := readFully_append Refusal.cut leftLen
  obtain ⟨_, sizeRead, leftSize⟩ := readFully_append Refusal.cut leftName
  obtain ⟨afterData, dataRead, leftData⟩ := copyExactly_append
    (show 0 < 65536 by decide) rules.reader leftSize
  rw [length_toBe] at lenRead sizeRead
  have decoded : fromUtf8Lossy (utf8 file.name) = file.name := by
    rw [utf8_eq, fromUtf8Lossy_encode]
  refine ⟨afterData, ?_, leftData⟩
  simp [readFrame, lenRead, nameRead, sizeRead, dataRead, decoded, accepted.name, accepted.size,
    accepted.created,
    accepted.written, bind, Except.bind, pure, Except.pure]

theorem nameLength_of_lossy (cut : len = (utf8 name).length % 256 ^ 4) (small : len ≤ 1024)
    (same : fromUtf8Lossy ((utf8 name).take len) = name) : len = (utf8 name).length := by
  rw [utf8_eq] at cut same ⊢
  rcases (fromUtf8Lossy_take_iff name len).mp same with whole | ⟨_, nearly⟩ <;> omega

theorem accepted_of_readFrame (arrived : pieces.flatten = file.frame ++ more)
    (read : readFrame rules disk pieces = .ok (file, rest)) : Accepted rules disk file := by
  simp only [TunnelFile.frame, List.append_assoc] at arrived
  unfold readFrame at read
  obtain ⟨_, lenRead, read⟩ := ok_of_bind read
  split at read
  · cases read
  · rename_i len nameLen
    obtain ⟨nameBuf, nameRead, read⟩ := ok_of_bind read
    obtain ⟨_, sizeRead, read⟩ := ok_of_bind read
    split at read
    · cases read
    · rename_i fileSize
      split at read
      · cases read
      · rename_i creates
        obtain ⟨data, dataRead, read⟩ := ok_of_bind read
        split at read
        · cases read
        · rename_i writes
          have name : fromUtf8Lossy nameBuf.1 = file.name :=
            congrArg (fun result => result.1.name) (Except.ok.inj read)
          have content : data.1 = file.content :=
            congrArg (fun result => result.1.content) (Except.ok.inj read)
          have ⟨lenField, leftLen⟩ := readFully_exact arrived (length_toBe 4 _) lenRead
          rw [lenField] at nameLen
          have ⟨announced, small⟩ := rules.nameLen_some (length_toBe 4 _) nameLen
          rw [ofBe_toBe] at announced
          have ⟨nameSplit, nameSize⟩ := readFully_ok nameRead
          have fewer : nameBuf.1.length ≤ (utf8 file.name).length := by
            rw [nameSize, announced]
            exact Nat.mod_le _ _
          have front : nameBuf.1 = (utf8 file.name).take len := by
            have taken := congrArg (List.take len) (nameSplit.symm.trans leftLen)
            rw [← nameSize] at taken ⊢
            rwa [List.take_left, List.take_append_of_le_length fewer] at taken
          have whole := nameLength_of_lossy announced small (by rw [← front, name])
          subst whole
          have ⟨_, leftName⟩ := readFully_exact leftLen rfl nameRead
          have ⟨sizeField, _⟩ := readFully_exact leftName (length_toBe 8 _) sizeRead
          have ⟨_, dataSize⟩ := copyExactly_ok (by decide) dataRead
          rw [content] at dataSize
          subst dataSize
          rw [sizeField] at fileSize
          rw [name] at creates writes
          rw [content] at writes
          exact ⟨nameLen, fileSize, Bool.eq_true_of_not_eq_false creates,
            Bool.eq_true_of_not_eq_false writes⟩

theorem readFrame_of_closed (closed : pieces.flatten = []) :
    ∃ error, readFrame rules disk pieces = .error error := by
  cases read : readFrame rules disk pieces with
  | error error => exact ⟨error, rfl⟩
  | ok =>
    unfold readFrame at read
    obtain ⟨_, lenRead, _⟩ := ok_of_bind read
    have ⟨same, four⟩ := readFully_ok lenRead
    rw [closed] at same
    rw [(List.append_eq_nil_iff.mp same.symm).1] at four
    cases four

theorem intake_frames_iff (rules : FrameRules) (disk : Disk) (files : List TunnelFile)
    (arrived : pieces.flatten = files.flatMap TunnelFile.frame) :
    (intake (readFrame rules disk) pieces).messages = files ∧
      (intake (readFrame rules disk) pieces).unread = [] ↔
      ∀ file ∈ files, Accepted rules disk file :=
  intake_iff files frame_ne_nil (fun _ _ _ => readFrame_of_accepted)
    (fun _ _ _ _ => accepted_of_readFrame)
      (fun _ => readFrame_of_closed) arrived

theorem cliLength_iff (narrow : bound < 256 ^ width) :
    cliLength bound (toBe width value) = some value ↔ value ≤ bound := by
  constructor
  · intro accepted
    exact (cliLength_some accepted).2
  · intro _
    rw [cliLength, ofBe_toBe_of_lt (by omega), if_neg (by omega)]

theorem clientLength_iff (narrow : 2 * bound < 256 ^ width) :
    clientLength width bound (toBe width value) = some value ↔ 0 < value ∧ value ≤ bound := by
  constructor
  · intro accepted
    have within := (clientLength_some (length_toBe width value) accepted).2
    unfold clientLength at accepted
    split at accepted
    · cases accepted
    · have taken := Option.some.inj accepted
      omega
  · rintro ⟨_, _⟩
    have same : readSigned width (toBe width value) = value := readSigned_toBe (by omega)
    rw [clientLength, same, if_neg (by omega), Int.toNat_natCast]

theorem cliRules_nameLen (field : Bytes) : cliRules.nameLen field = cliLength maxNameLen field :=
  rfl

theorem cliRules_fileSize (field : Bytes) : cliRules.fileSize field = cliLength maxFileSize field :=
  rfl

theorem clientRules_nameLen
    (field : Bytes) : clientRules.nameLen field = clientLength 4 maxNameLen field := by
  rw [clientRules]

theorem clientRules_fileSize
    (field : Bytes) : clientRules.fileSize field = clientLength 8 maxFileSize field := by
  rw [clientRules]

theorem accepted_cli_iff : Accepted cliRules disk file ↔
    (utf8 file.name).length ≤ maxNameLen ∧ file.content.length ≤ maxFileSize ∧
      disk.creates file.name = true ∧ disk.writes file.name file.content = true := by
  rw [accepted_iff, cliRules_nameLen, cliRules_fileSize, cliLength_iff (by decide),
    cliLength_iff (by decide)]

theorem accepted_client_iff : Accepted clientRules disk file ↔
    (0 < (utf8 file.name).length ∧ (utf8 file.name).length ≤ maxNameLen) ∧
      (0 < file.content.length ∧ file.content.length ≤ maxFileSize) ∧
      disk.creates file.name = true ∧ disk.writes file.name file.content = true := by
  rw [accepted_iff, clientRules_nameLen, clientRules_fileSize, clientLength_iff (by decide),
    clientLength_iff (by decide)]

/-- However a stream of frames arrives, the phone gets all the files exactly when none is empty or
without a name and all are within the bounds, the command line when all are within the bounds. -/
theorem frames_read_iff (disk : Disk) (files : List TunnelFile) (pieces pushed : List Bytes)
    (arrived : pieces.flatten = files.flatMap sendThroughTunnel)
    (arrivedBack : pushed.flatten = files.flatMap sendFile) :
    (((readLoop disk pieces).messages = files ∧ (readLoop disk pieces).unread = []) ↔
      ∀ file ∈ files, (0 < (utf8 file.name).length ∧ (utf8 file.name).length ≤ maxNameLen) ∧
        (0 < file.content.length ∧ file.content.length ≤ maxFileSize) ∧
        disk.creates file.name = true ∧ disk.writes file.name file.content = true) ∧
    (((handleReceiveFrame disk pushed).messages = files ∧
      (handleReceiveFrame disk pushed).unread = []) ↔
      ∀ file ∈ files, (utf8 file.name).length ≤ maxNameLen ∧ file.content.length ≤ maxFileSize ∧
        disk.creates file.name = true ∧ disk.writes file.name file.content = true) := by
  constructor
  · refine (intake_frames_iff clientRules disk files arrived).trans ?_
    exact forall₂_congr fun _ _ => accepted_client_iff
  · refine (intake_frames_iff cliRules disk files arrivedBack).trans ?_
    exact forall₂_congr fun _ _ => accepted_cli_iff

def Disk.free : Disk := { creates := fun _ => true, writes := fun _ _ => true }

theorem frames_read_two_pieces :
    ((readLoop .free [(sendThroughTunnel ⟨"notes.txt", [1, 2]⟩).take 7,
      (sendThroughTunnel ⟨"notes.txt", [1, 2]⟩).drop 7]).messages =
      [⟨"notes.txt", [1, 2]⟩] ∧
    (readLoop .free [(sendThroughTunnel ⟨"notes.txt", [1, 2]⟩).take 7,
      (sendThroughTunnel ⟨"notes.txt", [1, 2]⟩).drop 7]).unread =
      []) := by
  have name : (utf8 "notes.txt").length = 9 := by decide
  refine (frames_read_iff .free [⟨"notes.txt", [1, 2]⟩] [_, _]
    [sendFile ⟨"notes.txt", [1, 2]⟩] ?_ ?_).1.mpr ?_
  · simp
  · simp
  · intro _ member
    rw [List.mem_singleton.mp member, name]
    decide

/-- The phone refuses the frame of an empty file, and leaves the connection. -/
theorem empty_unread :
    ¬ ((readLoop .free [sendThroughTunnel ⟨"notes.txt", []⟩]).messages = [⟨"notes.txt", []⟩] ∧
      (readLoop .free [sendThroughTunnel ⟨"notes.txt", []⟩]).unread = []) := by
  intro read
  have accepted := (intake_frames_iff clientRules .free [⟨"notes.txt", []⟩]
    (by simp [sendThroughTunnel])).mp read
  exact absurd (accepted_client_iff.mp (accepted _ List.mem_cons_self)).2.1.1 (by decide)

end DistributedOs.Tunnel
