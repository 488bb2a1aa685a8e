import DistributedOs.Reliable.Frame
import DistributedOs.Semantics.Utf8

/-! The datagrams of LAN discovery. The scanning loop receives them into a buffer of
`MAX_MSG_SIZE` bytes, and what does not fit is lost. -/

namespace DistributedOs.Discovery

open Semantics Reliable

def maxMsgSize : Nat := 1024

/-- `b"XYNC"`. -/
def magic : Bytes := [0x58, 0x59, 0x4E, 0x43]

def protocolVersion : UInt8 := 0x01

inductive MsgType where
  | announce
  | query
  | response
  deriving DecidableEq

def MsgType.toU8 : MsgType → UInt8
  | .announce => 0x01
  | .query => 0x02
  | .response => 0x03

def MsgType.fromU8 (v : UInt8) : Option MsgType :=
  if v = 0x01 then some .announce else if v = 0x02 then some .query
  else if v = 0x03 then some .response else none

structure DiscoveryQuery where
  deviceId : String
  deviceName : String

@[ext] structure DiscoveryAnnounce where
  msgType : MsgType
  deviceId : String
  deviceName : String
  transportFlags : UInt8
  transferPort : UInt16
  platform : String
  addresses : List Bytes

structure Uuid where
  bytes : Bytes
  length_bytes : bytes.length = 16

def Uuid.nil : Uuid := ⟨List.replicate 16 0, by decide⟩

def Uuid.toText (uuid : Uuid) : String :=
  let digits := uuid.bytes.flatMap lowerHex
  String.ofList (digits.take 8 ++ '-' :: (digits.drop 8).take 4 ++ '-' :: (digits.drop 12).take 4 ++
    '-' :: (digits.drop 16).take 4 ++ '-' :: digits.drop 20)

section
variable (parseStr : String → Option Uuid)

def encodeAddress (addr : Bytes) : Bytes := UInt8.ofNat addr.length :: addr

def encodeAnnounce (msg : DiscoveryAnnounce) : Bytes :=
  let nameBytes := utf8 msg.deviceName
  let nameLen := min nameBytes.length 65535
  let platBytes := utf8 msg.platform
  let platLen := min platBytes.length 255
  let addrCount := min msg.addresses.length 255
  (magic ++ [protocolVersion, msg.msgType.toU8]) ++ (((parseStr msg.deviceId).getD .nil).bytes ++
    (toBe 2 nameLen ++ (nameBytes.take nameLen ++
      ([msg.transportFlags] ++ (toBe 2 msg.transferPort.toNat ++
      ([UInt8.ofNat platLen] ++ (platBytes.take platLen ++
        ([UInt8.ofNat addrCount] ++ msg.addresses.flatMap encodeAddress))))))))

end

/-- `Uuid::from_slice` of the next 16 bytes. -/
def readUuid (buf : Bytes) : Option (Uuid × Bytes) :=
  if enough : 16 ≤ buf.length then some (⟨buf.take 16, List.length_take_of_le enough⟩, buf.drop 16)
  else none

def decodeQuery (buf : Bytes) : Option DiscoveryQuery := do
  let (header, buf) ← readBytes 6 buf
  guard (header = magic ++ [protocolVersion, MsgType.query.toU8])
  let (uuid, buf) ← readUuid buf
  let (nameLen, buf) ← readBytes 2 buf
  let (name, _) ← readBytes (ofBe nameLen) buf
  some { deviceId := uuid.toText, deviceName := fromUtf8Lossy name }

def decodeAddresses : Nat → Bytes → Option (List Bytes)
  | 0, _ => some []
  | count + 1, buf => do
    let (addrLen, buf) ← readBytes 1 buf
    let (addr, buf) ← readBytes (ofBe addrLen) buf
    let addresses ← decodeAddresses count buf
    some (addr :: addresses)

def decodeDiscovery (buf : Bytes) : Option DiscoveryAnnounce := do
  let (header, buf) ← readBytes 6 buf
  guard (header.take 5 = magic ++ [protocolVersion])
  let msgType ← MsgType.fromU8 (header.getD 5 0)
  guard (msgType = .announce ∨ msgType = .response)
  let (uuid, buf) ← readUuid buf
  let (nameLen, buf) ← readBytes 2 buf
  let (deviceName, buf) ← readBytes (ofBe nameLen) buf
  let (flags, buf) ← readBytes 1 buf
  let (port, buf) ← readBytes 2 buf
  let (platLen, buf) ← readBytes 1 buf
  let (platform, buf) ← readBytes (ofBe platLen) buf
  let (addrCount, buf) ← readBytes 1 buf
  let addresses ← decodeAddresses (ofBe addrCount) buf
  some
    { msgType, deviceId := uuid.toText, deviceName := fromUtf8Lossy deviceName,
      transportFlags := flags.getD 0 0
      transferPort := UInt16.ofNat (ofBe port), platform := fromUtf8Lossy platform, addresses }

/-- What the scanning loop makes of a datagram. -/
inductive Received where
  | query (query : DiscoveryQuery)
  | announce (announce : DiscoveryAnnounce)
  | nothing

def receive (datagram : Bytes) : Received :=
  let buf := datagram.take maxMsgSize
  match decodeQuery buf with
  | some query => .query query
  | none =>
    match decodeDiscovery buf with
    | some announce => .announce announce
    | none => .nothing

/-- What the message format and the buffer hold in full. -/
structure Fits (msg : DiscoveryAnnounce) : Prop where
  deviceId : ∃ uuid : Uuid, msg.deviceId = uuid.toText
  platform : (utf8 msg.platform).length ≤ 255 ∨
    (msg.platform.toList.getLast? = some replacement ∧ (utf8 msg.platform).length ≤ 257)
  addrCount : msg.addresses.length ≤ 255
  addrLen : ∀ addr ∈ msg.addresses, addr.length ≤ 255
  size : 29 + (utf8 msg.deviceName).length + min (utf8 msg.platform).length 255 +
    (msg.addresses.flatMap encodeAddress).length ≤ maxMsgSize

variable {parseStr : String → Option Uuid} {msg : DiscoveryAnnounce}

theorem decodeAddresses_length
    (decoded : decodeAddresses count buf = some addresses) : addresses.length = count := by
  induction count generalizing buf addresses with
  | zero =>
    cases decoded
    rfl
  | succ _ ih =>
    simp only [decodeAddresses, Option.bind_eq_bind, Option.bind_eq_some_iff] at decoded
    obtain ⟨_, _, _, _, _, tail, same⟩ := decoded
    cases same
    rw [List.length_cons, ih tail]

theorem ofBe_lengthByte (length : Nat) : ofBe [UInt8.ofNat length] = length % 256 := by
  simp [ofBe, UInt8.toNat_ofNat']

/-- Addresses are read back exactly when each is short enough and all of them were received. -/
theorem decodeAddresses_take_iff (addresses : List Bytes) (room : Nat) :
    decodeAddresses addresses.length ((addresses.flatMap encodeAddress).take room) =
      some addresses ↔
      (∀ addr ∈ addresses, addr.length ≤ 255) ∧
      (addresses.flatMap encodeAddress).length ≤ room := by
  induction addresses generalizing room with
  | nil => simp [decodeAddresses]
  | cons addr addresses ih =>
    have lengthByte := readBytes_take [UInt8.ofNat addr.length]
      (addr ++ addresses.flatMap encodeAddress) room
    have content := readBytes_take addr (addresses.flatMap encodeAddress) (room - 1)
    rw [List.length_singleton] at lengthByte
    have encoding : (addr :: addresses).flatMap encodeAddress =
        [UInt8.ofNat addr.length] ++ (addr ++ addresses.flatMap encodeAddress) := rfl
    rw [encoding, List.length_cons, decodeAddresses, lengthByte, List.length_append, List.length_append,
      List.length_singleton, List.forall_mem_cons]
    by_cases room_ : 1 ≤ room
    · by_cases short : addr.length ≤ 255
      · have count : ofBe [UInt8.ofNat addr.length] = addr.length := by
          rw [ofBe_lengthByte, Nat.mod_eq_of_lt (by omega)]
        simp only [if_pos room_, Option.bind_eq_bind, Option.bind_some, count, content]
        by_cases within : addr.length ≤ room - 1
        · have tail := ih (room - 1 - addr.length)
          simp only [if_pos within, Option.bind_some, Option.bind_eq_some_iff, Option.some.injEq,
            List.cons.injEq,
            true_and, exists_eq_right, tail]
          constructor
          · exact fun ⟨others, size⟩ => ⟨⟨short, others⟩, by omega⟩
          · exact fun ⟨⟨_, others⟩, size⟩ => ⟨others, by omega⟩
        · simp only [if_neg within, Option.bind_none, reduceCtorEq, false_iff]
          rintro ⟨_, size⟩
          omega
      · refine iff_of_false ?_ fun fits => short fits.1.1
        simp only [if_pos room_, Option.bind_eq_bind, Option.bind_some, Option.bind_eq_some_iff]
        rintro ⟨⟨bytes, _⟩, read, _, _, same⟩
        have cut := (readBytes_some read).2
        have head : bytes = addr := (List.cons.inj (Option.some.inj same)).1
        rw [head, ofBe_lengthByte] at cut
        omega
    · simp only [if_neg room_, Option.bind_eq_bind, Option.bind_none, reduceCtorEq, false_iff]
      rintro ⟨_, _⟩
      omega

theorem readUuid_take (uuid : Uuid) (rest : Bytes) (enough : 16 ≤ room) :
    readUuid ((uuid.bytes ++ rest).take room) = some (uuid, rest.take (room - 16)) := by
  have size := uuid.length_bytes
  have there : 16 ≤ ((uuid.bytes ++ rest).take room).length := by
    rw [List.length_take, List.length_append]
    omega
  have front : (uuid.bytes ++ rest).take room = uuid.bytes ++ rest.take (room - 16) := by
    rw [List.take_append, List.take_of_length_le (by omega), size]
  rw [readUuid, dif_pos there]
  simp only [front, Option.some.injEq, Prod.mk.injEq]
  refine ⟨?_, ?_⟩
  · cases uuid
    simp only [Uuid.mk.injEq]
    exact List.take_left' size
  · exact List.drop_left' size

theorem bind_readBytes_take {Result : Type} (exact : field.length = count) (rest : Bytes)
    (room : Nat) (decode : Bytes × Bytes → Option Result) (result : Result) :
    (readBytes count ((field ++ rest).take room)).bind decode = some result ↔
      count ≤ room ∧ decode (field, rest.take (room - count)) = some result := by
  subst exact
  rw [readBytes_take]
  split
  · rename_i within
    simp [within]
  · rename_i beyond
    simp [beyond]

theorem bind_readUuid_take {Result : Type} (uuid : Uuid) (rest : Bytes) (enough : 16 ≤ room)
    (decode : Uuid × Bytes → Option Result) :
    (readUuid ((uuid.bytes ++ rest).take room)).bind decode = decode
      (uuid, rest.take (room - 16)) := by
  rw [readUuid_take uuid rest enough, Option.bind_some]

theorem ofBe_nameLen (length : Nat) : ofBe (toBe 2 (min length 65535)) = min length 65535 :=
  ofBe_toBe_of_lt (by omega)

theorem fromU8_toU8 (msgType : MsgType) : MsgType.fromU8 msgType.toU8 = some msgType := by
  cases msgType <;> rfl

theorem length_header (msgType : MsgType) : (magic ++ [protocolVersion, msgType.toU8]).length = 6 :=
  rfl

theorem decodeQuery_encodeAnnounce (parseStr : String → Option Uuid) (kind : msg.msgType ≠ .query) :
    decodeQuery ((encodeAnnounce parseStr msg).take maxMsgSize) = none := by
  rw [Option.eq_none_iff_forall_ne_some]
  intro query decoded
  simp only [decodeQuery, encodeAnnounce, Option.bind_eq_bind] at decoded
  rw [bind_readBytes_take (length_header msg.msgType)] at decoded
  obtain ⟨_, decoded⟩ := decoded
  obtain ⟨_, same, _⟩ := Option.bind_eq_some_iff.mp decoded
  have code : msg.msgType.toU8 = MsgType.query.toU8 := by
    simp only [Option.guard_eq_some'] at same
    simpa using same
  cases type : msg.msgType with
  | query => exact kind type
  | announce | response =>
    rw [type] at code
    exact absurd code (by decide)

theorem fromUtf8Lossy_platform_iff (text : String) :
    fromUtf8Lossy ((utf8 text).take (min (utf8 text).length 255)) = text ↔
      (utf8 text).length ≤ 255 ∨
      (text.toList.getLast? = some replacement ∧ (utf8 text).length ≤ 257) := by
  have cut : (utf8 text).take (min (utf8 text).length 255) = (utf8 text).take 255 := by
    rw [Nat.min_comm, ← List.take_eq_take_min]
  rw [cut, utf8_eq]
  exact fromUtf8Lossy_take_iff text 255

theorem fromUtf8Lossy_name (whole : (utf8 text).length ≤ count) :
    fromUtf8Lossy ((utf8 text).take count) = text := by
  rw [List.take_of_length_le whole, utf8_eq, fromUtf8Lossy_encode]

theorem decodeAddresses_counted_iff (addresses : List Bytes) (room : Nat) :
    decodeAddresses (ofBe [UInt8.ofNat (min addresses.length 255)])
      ((addresses.flatMap encodeAddress).take room) =
        some addresses ↔
      addresses.length ≤ 255 ∧ (∀ addr ∈ addresses, addr.length ≤ 255) ∧
        (addresses.flatMap encodeAddress).length ≤ room := by
  have counted : ofBe [UInt8.ofNat (min addresses.length 255)] = min addresses.length 255 := by
    rw [ofBe_lengthByte, Nat.mod_eq_of_lt (by omega)]
  rw [counted]
  by_cases few : addresses.length ≤ 255
  · rw [Nat.min_eq_left few, decodeAddresses_take_iff]
    exact ⟨fun fits => ⟨few, fits⟩, fun fits => fits.2⟩
  · refine iff_of_false (fun decoded => few ?_) fun fits => few fits.1
    have length := decodeAddresses_length decoded
    omega

theorem decodeDiscovery_encodeAnnounce_iff
    (parses : ∀ uuid : Uuid, parseStr uuid.toText = some uuid) (kind : msg.msgType ≠ .query) :
    decodeDiscovery ((encodeAnnounce parseStr msg).take maxMsgSize) = some msg ↔ Fits msg := by
  have kinds : msg.msgType = .announce ∨ msg.msgType = .response := by
    cases same : msg.msgType <;> simp_all
  have header : (magic ++ [protocolVersion, msg.msgType.toU8]).take 5 = magic ++ [protocolVersion] := rfl
  have code : (magic ++ [protocolVersion, msg.msgType.toU8]).getD 5 0 = msg.msgType.toU8 := rfl
  have platLen : ofBe [UInt8.ofNat (min (utf8 msg.platform).length 255)] = min
      (utf8 msg.platform).length 255 := by
    rw [ofBe_lengthByte, Nat.mod_eq_of_lt (by omega)]
  have port : UInt16.ofNat (ofBe (toBe 2 msg.transferPort.toNat)) = msg.transferPort := by
    rw [ofBe_toBe_of_lt msg.transferPort.toNat_lt, UInt16.ofNat_toNat]
  -- The fields one after the other, each as far as the buffer reaches.
  simp only [decodeDiscovery, encodeAnnounce, Option.bind_eq_bind]
  rw [bind_readBytes_take (length_header msg.msgType)]
  simp only [header, code, fromU8_toU8, guard, if_true, if_pos kinds, Option.pure_def, Option.bind_some]
  rw [bind_readUuid_take _ _ (by decide), bind_readBytes_take (length_toBe _ _)]
  dsimp only
  rw [ofBe_nameLen, bind_readBytes_take (List.length_take_of_le (by omega))]
  dsimp only
  rw [bind_readBytes_take (List.length_singleton ..)]
  dsimp only
  rw [bind_readBytes_take (length_toBe _ _)]
  dsimp only
  rw [bind_readBytes_take (List.length_singleton ..)]
  dsimp only
  rw [platLen, bind_readBytes_take (List.length_take_of_le (by omega))]
  dsimp only
  rw [bind_readBytes_take (List.length_singleton ..)]
  dsimp only
  rw [port, Option.bind_eq_some_iff]
  simp only [Option.some.injEq, DiscoveryAnnounce.ext_iff, true_and, List.getD_cons_zero]
  unfold maxMsgSize
  constructor
  · rintro ⟨_, _, _, _, _, _, _, _, _, decoded, deviceId, _, platform, rfl⟩
    have ⟨addrCount, addrLen, size⟩ := (decodeAddresses_counted_iff msg.addresses _).mp decoded
    refine ⟨⟨_, deviceId.symm⟩, (fromUtf8Lossy_platform_iff _).mp platform, addrCount, addrLen, ?_⟩
    unfold maxMsgSize
    omega
  · rintro ⟨⟨_, deviceId⟩, platform, addrCount, addrLen, size⟩
    unfold maxMsgSize at size
    have whole : (utf8 msg.deviceName).length ≤ min (utf8 msg.deviceName).length 65535 := by omega
    refine ⟨by omega, by omega, by omega, by omega, by omega, by omega, by omega, by omega,
      msg.addresses, ?_, ?_, ?_, ?_, rfl⟩
    · exact (decodeAddresses_counted_iff msg.addresses _).mpr ⟨addrCount, addrLen, by omega⟩
    · rw [deviceId, parses, Option.getD_some]
    · exact fromUtf8Lossy_name whole
    · exact (fromUtf8Lossy_platform_iff _).mpr platform

theorem receive_announce_iff :
    receive datagram = .announce msg ↔
      decodeQuery (datagram.take maxMsgSize) = none ∧
      decodeDiscovery (datagram.take maxMsgSize) = some msg := by
  cases asked : decodeQuery (datagram.take maxMsgSize) with
  | some => simp [receive, asked]
  | none =>
    cases announced : decodeDiscovery (datagram.take maxMsgSize) <;> simp [receive, asked, announced]

/-- The scanning loop decodes exactly what was encoded, as far as the format and the buffer hold it. -/
theorem receive_encodeAnnounce_iff (parseStr : String → Option Uuid)
    (parses : ∀ uuid : Uuid, parseStr uuid.toText = some uuid) (msg : DiscoveryAnnounce)
    (kind : msg.msgType ≠ .query) :
    receive (encodeAnnounce parseStr msg) = .announce msg ↔ Fits msg := by
  rw [receive_announce_iff, decodeDiscovery_encodeAnnounce_iff parses kind]
  exact and_iff_right (decodeQuery_encodeAnnounce parseStr kind)

def digitValue (digit : Char) : Nat := if digit.isDigit then digit.toNat - 48 else digit.toNat - 87

def unhex : List Char → Bytes
  | high :: low :: rest => UInt8.ofNat (digitValue high * 16 + digitValue low) :: unhex rest
  | _ => []

/-- A reader of the texts that `Uuid.toText` writes, and of no others. -/
def parseText (text : String) : Option Uuid :=
  let bytes := unhex (text.toList.filter (· ≠ '-'))
  if length : bytes.length = 16 then
    if Uuid.toText ⟨bytes, length⟩ = text then some ⟨bytes, length⟩ else none
  else none

theorem digitValue_digitChar : ∀ digit < 16, digitValue (Nat.digitChar digit) = digit := by decide

theorem unhex_lowerHex (bytes : Bytes) : unhex (bytes.flatMap lowerHex) = bytes := by
  induction bytes with
  | nil => rfl
  | cons byte _ ih =>
    have bound := byte.toNat_lt
    have halves : byte.toNat / 16 * 16 + byte.toNat % 16 = byte.toNat := by omega
    simp only [List.flatMap_cons, lowerHex, List.cons_append, List.nil_append, unhex, ih]
    rw [digitValue_digitChar _ (by omega), digitValue_digitChar _ (by omega), halves, UInt8.ofNat_toNat]

theorem ne_hyphen_digitChar : ∀ digit < 16, Nat.digitChar digit ≠ '-' := by decide

theorem ne_hyphen_of_mem {bytes : Bytes} (member : digit ∈ bytes.flatMap lowerHex) :
    digit ≠ '-' := by
  obtain ⟨byte, _, among⟩ := List.mem_flatMap.mp member
  have bound := byte.toNat_lt
  simp only [lowerHex, List.mem_cons, List.not_mem_nil, or_false] at among
  rcases among with rfl | rfl <;> exact ne_hyphen_digitChar _ (by omega)

theorem filter_toText (uuid : Uuid) :
    uuid.toText.toList.filter (· ≠ '-') = uuid.bytes.flatMap lowerHex := by
  set digits := uuid.bytes.flatMap lowerHex with written
  have plain {part : List Char} (within : ∀ digit ∈ part, digit ∈ digits) :
      part.filter (· ≠ '-') = part :=
    List.filter_eq_self.mpr fun digit member => decide_eq_true (ne_hyphen_of_mem (within digit member))
  have group (start count : Nat) :
      ((digits.drop start).take count).filter (· ≠ '-') = (digits.drop start).take count :=
    plain fun digit member => List.mem_of_mem_drop (List.mem_of_mem_take member)
  have rest (start : Nat) : (digits.drop start).filter (· ≠ '-') = digits.drop start :=
    plain fun digit member => List.mem_of_mem_drop member
  have joined (start count : Nat) :
      (digits.drop start).take count ++ digits.drop (start + count) = digits.drop start := by
    rw [← List.drop_drop, List.take_append_drop]
  have hyphen (part : List Char) : ('-' :: part).filter (· ≠ '-') = part.filter (· ≠ '-') := rfl
  rw [Uuid.toText, String.toList_ofList, ← written]
  simp only [List.filter_append, hyphen, List.append_assoc, List.cons_append]
  rw [plain fun digit member => List.mem_of_mem_take member, group, group, group, rest, joined 16 4,
    joined 12 4, joined 8 4,
    List.take_append_drop]

theorem parseText_toText (uuid : Uuid) : parseText uuid.toText = some uuid := by
  have bytes : unhex (uuid.toText.toList.filter (· ≠ '-')) = uuid.bytes := by
    rw [filter_toText, unhex_lowerHex]
  unfold parseText
  simp only [bytes]
  rw [dif_pos uuid.length_bytes, if_pos trivial]

def phoneId : Uuid :=
  ⟨[0x55, 0x0e, 0x84, 0x00, 0xe2, 0x9b, 0x41, 0xd4, 0xa7, 0x16, 0x44, 0x66, 0x55, 0x44, 0x00,
    0x00], by decide⟩

def phone (deviceName : String) : DiscoveryAnnounce :=
  { msgType := .announce, deviceId := phoneId.toText, deviceName, transportFlags := 3,
    transferPort := 18250
    platform := "macos", addresses := [[192, 168, 1, 10], [10, 0, 0, 5]] }

theorem short_name_received :
    receive (encodeAnnounce parseText (phone "Alice")) = .announce (phone "Alice") :=
  (receive_encodeAnnounce_iff parseText parseText_toText (phone "Alice") (by decide)).mpr
    ⟨⟨phoneId, rfl⟩, .inl (by decide), by decide, by decide, by decide⟩

def letters (count : Nat) : String := String.ofList (List.replicate count 'a')

theorem length_letters (count : Nat) : (utf8 (letters count)).length = count := by
  have one : (String.utf8EncodeChar 'a').length = 1 := rfl
  rw [utf8_eq, letters, String.toList_ofList, List.length_flatMap, List.map_replicate, one,
    List.sum_replicate_nat, Nat.mul_one]

/-- The announcement of a device whose name leaves the buffer too small for the rest. -/
theorem long_name_lost :
    receive (encodeAnnounce parseText (phone (letters 1000))) ≠ .announce
      (phone (letters 1000)) := by
  intro received
  have decoded := (receive_announce_iff.mp received).2
  have size := ((decodeDiscovery_encodeAnnounce_iff parseText_toText (by decide)).mp decoded).size
  have length : (utf8 (phone (letters 1000)).deviceName).length = 1000 := length_letters 1000
  rw [length, maxMsgSize] at size
  omega

end DistributedOs.Discovery
