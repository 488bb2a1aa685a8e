import DistributedOs.Discovery.Wire
import DistributedOs.Semantics.Slices

/-! The decoders of discovery datagrams as they go through the buffer: a cursor is moved by lengths
that the datagram states, and each access may leave it. -/

namespace DistributedOs.Discovery.Cursor

open Semantics Reliable

/-- `Uuid::from_slice`, or the digits of what is no UUID. -/
def deviceIdOf (uuidBytes : Bytes) : String :=
  if sixteen : uuidBytes.length = 16 then (Uuid.mk uuidBytes sixteen).toText
  else String.ofList (uuidBytes.flatMap lowerHex)

def decodeAsker (buf : Bytes) : Except Access (Option DiscoveryQuery) := do
  let uuidBytes ← slice buf 6 22
  let nameLen := ofBe [← itemAt buf 22, ← itemAt buf 23]
  if buf.length < 24 + nameLen then return none
  let name ← slice buf 24 (24 + nameLen)
  return some { deviceId := deviceIdOf uuidBytes, deviceName := fromUtf8Lossy name }

def decodeQuery (buf : Bytes) : Except Access (Option DiscoveryQuery) := do
  if buf.length < 24 then return none
  if (← slice buf 0 4) ≠ magic then return none
  if (← itemAt buf 4) ≠ protocolVersion then return none
  if (← itemAt buf 5) ≠ MsgType.query.toU8 then return none
  decodeAsker buf

def decodeAddresses (buf : Bytes) : Nat → Nat → Except Access (Option (List Bytes))
  | 0, _ => return some []
  | count + 1, offset => do
    if buf.length < offset + 1 then return none
    let addrLen := ofBe [← itemAt buf offset]
    let offset := offset + 1
    if buf.length < offset + addrLen then return none
    let addr ← slice buf offset (offset + addrLen)
    let offset := offset + addrLen
    match ← decodeAddresses buf count offset with
    | some addresses => return some (addr :: addresses)
    | none => return none

def decodeFields (buf : Bytes) (msgType : MsgType)
    (offset : Nat) : Except Access (Option DiscoveryAnnounce) :=
  do
  if buf.length < offset + 16 then return none
  let uuidBytes ← slice buf offset (offset + 16)
  let offset := offset + 16
  if buf.length < offset + 2 then return none
  let nameLen := ofBe [← itemAt buf offset, ← itemAt buf (offset + 1)]
  let offset := offset + 2
  if buf.length < offset + nameLen then return none
  let deviceName ← slice buf offset (offset + nameLen)
  let offset := offset + nameLen
  if buf.length < offset + 1 then return none
  let transportFlags ← itemAt buf offset
  let offset := offset + 1
  if buf.length < offset + 2 then return none
  let transferPort := ofBe [← itemAt buf offset, ← itemAt buf (offset + 1)]
  let offset := offset + 2
  if buf.length < offset + 1 then return none
  let platLen := ofBe [← itemAt buf offset]
  let offset := offset + 1
  if buf.length < offset + platLen then return none
  let platform ← slice buf offset (offset + platLen)
  let offset := offset + platLen
  if buf.length < offset + 1 then return none
  let addrCount := ofBe [← itemAt buf offset]
  let offset := offset + 1
  match ← decodeAddresses buf addrCount offset with
  | none => return none
  | some addresses =>
    return some
      { msgType, deviceId := deviceIdOf uuidBytes, deviceName := fromUtf8Lossy deviceName, transportFlags
        transferPort := UInt16.ofNat transferPort, platform := fromUtf8Lossy platform, addresses }

def decodeDiscovery (buf : Bytes) : Except Access (Option DiscoveryAnnounce) := do
  if buf.length < 6 then return none
  if (← slice buf 0 4) ≠ magic then return none
  if (← itemAt buf 4) ≠ protocolVersion then return none
  match MsgType.fromU8 (← itemAt buf 5) with
  | none => return none
  | some msgType =>
    if msgType ≠ .announce ∧ msgType ≠ .response then return none
    decodeFields buf msgType 6

section Fields

variable {Result : Type} {buf : Bytes} {offset count : Nat} {decode : Bytes × Bytes → Option Result}

theorem readBytes_drop (within : offset + count ≤ buf.length) :
    readBytes count (buf.drop offset) =
      some ((buf.drop offset).take count, buf.drop (offset + count)) := by
  have enough : count ≤ (buf.drop offset).length := by
    rw [List.length_drop]
    omega
  rw [readBytes, readExact, if_pos enough, List.drop_drop]
  rfl

theorem readBytes_beyond (reached : offset ≤ buf.length) (beyond : buf.length < offset + count) :
    readBytes count (buf.drop offset) = none := by
  have short : ¬ count ≤ (buf.drop offset).length := by
    rw [List.length_drop]
    omega
  rw [readBytes, readExact, if_neg short]
  rfl

theorem slice_field (reached : offset ≤ buf.length)
    {proceed : Bytes → Except Access (Option Result)}
    (agree : ∀ field : Bytes, offset + count ≤ buf.length → field.length = count →
      proceed field = .ok (decode (field, buf.drop (offset + count)))) :
    (if buf.length < offset + count then pure none
      else slice buf offset (offset + count) >>= proceed) =
      .ok ((readBytes count (buf.drop offset)).bind decode) := by
  by_cases within : offset + count ≤ buf.length
  · have size : ((buf.drop offset).take count).length = count := by
      rw [List.length_take, List.length_drop]
      omega
    rw [if_neg (Nat.not_lt.mpr within), slice_of_le (Nat.le_add_right _ _) within,
      Nat.add_sub_cancel_left,
      readBytes_drop within, Option.bind_some, ← agree _ within size]
    rfl
  · rw [if_pos (Nat.lt_of_not_le within), readBytes_beyond reached (Nat.lt_of_not_le within)]
    rfl

theorem byte_field (reached : offset ≤ buf.length)
    (agree : ∀ byte, offset + 1 ≤ buf.length →
      proceed byte = .ok (decode ([byte], buf.drop (offset + 1)))) :
    (if buf.length < offset + 1 then pure none else itemAt buf offset >>= proceed) =
      .ok ((readBytes 1 (buf.drop offset)).bind decode) := by
  by_cases within : offset + 1 ≤ buf.length
  · rw [if_neg (Nat.not_lt.mpr within), itemAt_of_lt within, readBytes_drop within, Option.bind_some,
      List.drop_eq_getElem_cons within, List.take_succ_cons, List.take_zero, ← agree _ within]
    rfl
  · rw [if_pos (Nat.lt_of_not_le within), readBytes_beyond reached (Nat.lt_of_not_le within)]
    rfl

theorem pair_field (reached : offset ≤ buf.length)
    {proceed : UInt8 → UInt8 → Except Access (Option Result)}
    (agree : ∀ high low, offset + 2 ≤ buf.length →
      proceed high low = .ok (decode ([high, low], buf.drop (offset + 2)))) :
    (if buf.length < offset + 2 then pure none
      else itemAt buf offset >>= fun high => itemAt buf (offset + 1) >>= fun low =>
      proceed high low) =
      .ok ((readBytes 2 (buf.drop offset)).bind decode) := by
  by_cases within : offset + 2 ≤ buf.length
  · have first : offset < buf.length := by omega
    have second : offset + 1 < buf.length := within
    rw [if_neg (Nat.not_lt.mpr within), itemAt_of_lt first, itemAt_of_lt second,
      readBytes_drop within, Option.bind_some,
      List.drop_eq_getElem_cons first, List.drop_eq_getElem_cons second, List.take_succ_cons,
      List.take_succ_cons,
      List.take_zero, ← agree _ _ within]
    rfl
  · rw [if_pos (Nat.lt_of_not_le within), readBytes_beyond reached (Nat.lt_of_not_le within)]
    rfl

end Fields

theorem decodeAddresses_eq (count : Nat) (reached : offset ≤ buf.length) :
    decodeAddresses buf count offset = .ok (Discovery.decodeAddresses count (buf.drop offset)) := by
  induction count generalizing offset with
  | zero => rfl
  | succ count ih =>
    unfold decodeAddresses Discovery.decodeAddresses
    apply byte_field reached
    intro addrLen reached
    apply slice_field reached
    intro _ reached _
    dsimp only
    rw [ih reached]
    cases Discovery.decodeAddresses count (buf.drop (offset + 1 + ofBe [addrLen])) <;> rfl

theorem deviceIdOf_bytes (uuid : Uuid) : deviceIdOf uuid.bytes = uuid.toText :=
  dif_pos uuid.length_bytes

theorem readBytes_front (within : count ≤ buf.length) :
    readBytes count buf = some (buf.take count, buf.drop count) := by
  rw [readBytes, readExact, if_pos within]
  rfl

theorem slice_magic {buf : Bytes} (within : 6 ≤ buf.length) : slice buf 0 4 = .ok (buf.take 4) :=
  slice_of_le (by decide) (by omega)

theorem take_header {buf : Bytes} (within : 6 ≤ buf.length) :
    buf.take 6 = buf.take 4 ++ [buf.getD 4 0, buf.getD 5 0] := by
  have byte {index : Nat} (short : index < 6) : buf.getD index 0 = buf[index] := by
    rw [List.getD_eq_getElem?_getD, List.getElem?_eq_getElem (by omega), Option.getD_some]
  rw [byte (by decide), byte (by decide), List.take_succ_eq_append_getElem (by omega : 5 < buf.length),
    List.take_succ_eq_append_getElem (by omega : 4 < buf.length), List.append_assoc]
  rfl

theorem length_magic {buf : Bytes} (within : 6 ≤ buf.length) : (buf.take 4).length = 4 := by
  rw [List.length_take]
  omega

theorem header_iff {buf : Bytes} (within : 6 ≤ buf.length) :
    (buf.take 6).take 5 = magic ++ [protocolVersion] ↔
      buf.take 4 = magic ∧ buf.getD 4 0 = protocolVersion := by
  have five : (buf.take 6).take 5 = buf.take 4 ++ [buf.getD 4 0] := by
    rw [take_header within, List.take_append, length_magic within, List.take_of_length_le (by simp)]
    rfl
  rw [five]
  constructor
  · intro same
    have ⟨front, last⟩ := List.append_inj' same rfl
    exact ⟨front, List.singleton_inj.mp last⟩
  · rintro ⟨front, last⟩
    rw [front, last]

theorem queryHeader_iff {buf : Bytes} (within : 6 ≤ buf.length) :
    buf.take 6 = magic ++ [protocolVersion, MsgType.query.toU8] ↔
      buf.take 4 = magic ∧ buf.getD 4 0 = protocolVersion ∧ buf.getD 5 0 = MsgType.query.toU8 := by
  rw [take_header within]
  constructor
  · intro same
    have ⟨front, last⟩ := List.append_inj' same rfl
    simpa [front] using last
  · rintro ⟨front, version, type⟩
    rw [front, version, type]

theorem header_type {buf : Bytes} : (buf.take 6).getD 5 0 = buf.getD 5 0 := by
  rw [List.getD_eq_getElem?_getD, List.getElem?_take_of_lt (by decide), List.getD_eq_getElem?_getD]

theorem uuid_field {Result : Type} {buf : Bytes} {decode : Uuid × Bytes → Option Result}
    {proceed : Bytes → Except Access (Option Result)}
    (agree : ∀ uuid : Uuid, offset + 16 ≤ buf.length →
      proceed uuid.bytes = .ok (decode (uuid, buf.drop (offset + 16)))) :
    (if buf.length < offset + 16 then pure none else slice buf offset (offset + 16) >>= proceed) =
      .ok ((readUuid (buf.drop offset)).bind decode) := by
  unfold readUuid
  by_cases within : offset + 16 ≤ buf.length
  · have enough : 16 ≤ (buf.drop offset).length := by
      rw [List.length_drop]
      omega
    rw [if_neg (Nat.not_lt.mpr within), slice_of_le (Nat.le_add_right _ _) within,
      Nat.add_sub_cancel_left, dif_pos enough,
      Option.bind_some, List.drop_drop, ← agree _ within]
    rfl
  · have short : ¬ 16 ≤ (buf.drop offset).length := by
      rw [List.length_drop]
      omega
    rw [if_pos (Nat.lt_of_not_le within), dif_neg short]
    rfl

/-- What the reader of datagrams makes of the fields behind the type. -/
theorem decodeFields_eq {buf : Bytes} (msgType : MsgType) (offset : Nat) :
    decodeFields buf msgType offset = .ok (do
      let (uuid, buf) ← readUuid (buf.drop offset)
      let (nameLen, buf) ← readBytes 2 buf
      let (deviceName, buf) ← readBytes (ofBe nameLen) buf
      let (flags, buf) ← readBytes 1 buf
      let (port, buf) ← readBytes 2 buf
      let (platLen, buf) ← readBytes 1 buf
      let (platform, buf) ← readBytes (ofBe platLen) buf
      let (addrCount, buf) ← readBytes 1 buf
      let addresses ← Discovery.decodeAddresses (ofBe addrCount) buf
      some
        { msgType, deviceId := uuid.toText, deviceName := fromUtf8Lossy deviceName,
          transportFlags := flags.getD 0 0
          transferPort := UInt16.ofNat (ofBe port), platform := fromUtf8Lossy platform,
          addresses }) := by
  unfold decodeFields
  apply uuid_field
  intro _ reached
  apply pair_field reached
  intro high low reached
  apply slice_field reached
  intro _ reached _
  apply byte_field reached
  intro _ reached
  apply pair_field reached
  intro _ _ reached
  apply byte_field reached
  intro _ reached
  apply slice_field reached
  intro _ reached _
  apply byte_field reached
  intro _ reached
  dsimp only
  rw [decodeAddresses_eq _ reached, deviceIdOf_bytes]
  cases Discovery.decodeAddresses _ _ <;> rfl

theorem decodeDiscovery_eq
    (buf : Bytes) : decodeDiscovery buf = .ok (Discovery.decodeDiscovery buf) := by
  unfold decodeDiscovery Discovery.decodeDiscovery
  by_cases within : 6 ≤ buf.length
  · have header := header_iff within
    rw [if_neg (Nat.not_lt.mpr within), slice_magic within, itemAt_getD (by omega) 0,
      itemAt_getD (by omega) 0,
      readBytes_front within]
    simp only [bind, Except.bind, pure, Except.pure, Option.bind_some, header_type]
    by_cases front : buf.take 4 = magic ∧ buf.getD 4 0 = protocolVersion
    · rw [if_neg (not_not.mpr front.1), if_neg (not_not.mpr front.2), header.mpr front]
      cases type : MsgType.fromU8 (buf.getD 5 0) with
      | none => rfl
      | some msgType =>
        dsimp only
        rw [decodeFields_eq msgType 6]
        cases msgType <;> rfl
    · have other : guard ((buf.take 6).take 5 = magic ++ [protocolVersion]) = (none : Option Unit) :=
        if_neg (mt header.mp front)
      rw [other]
      by_cases same : buf.take 4 = magic
      · rw [if_neg (not_not.mpr same), if_pos fun version => front ⟨same, version⟩]
        rfl
      · rw [if_pos same]
        rfl
  · have short : readBytes 6 buf = none := @readBytes_beyond buf 0 6 (Nat.zero_le _) (by omega)
    rw [if_pos (Nat.lt_of_not_le within), short]
    rfl

theorem readUuid_some (read : readUuid buf = some (uuid, rest)) :
    buf = uuid.bytes ++ rest := by
  unfold readUuid at read
  split at read
  · cases read
    exact (List.take_append_drop 16 buf).symm
  · cases read

theorem decodeQuery_short (short : buf.length < 24) : Discovery.decodeQuery buf = none := by
  rw [Option.eq_none_iff_forall_ne_some]
  intro _ decoded
  simp only [Discovery.decodeQuery, Option.bind_eq_bind, Option.bind_eq_some_iff] at decoded
  obtain ⟨⟨_, _⟩, readHeader, _, _, ⟨uuid, _⟩, readId, ⟨_, _⟩, readLen, _⟩ := decoded
  obtain ⟨rfl, six⟩ := readBytes_some readHeader
  dsimp only at readId readLen
  rw [readUuid_some readId, (readBytes_some readLen).1, List.length_append, List.length_append,
    List.length_append, six,
    uuid.length_bytes, (readBytes_some readLen).2] at short
  omega

theorem decodeAsker_eq {buf : Bytes} (within : 24 ≤ buf.length) :
    decodeAsker buf = .ok (do
      let (uuid, buf) ← readUuid (buf.drop 6)
      let (nameLen, buf) ← readBytes 2 buf
      let (name, _) ← readBytes (ofBe nameLen) buf
      some { deviceId := uuid.toText, deviceName := fromUtf8Lossy name }) := by
  have idWithin : ¬ buf.length < 6 + 16 := by omega
  have lenWithin : ¬ buf.length < 6 + 16 + 2 := by omega
  unfold decodeAsker
  refine (if_neg idWithin).symm.trans (uuid_field ?_)
  intro _ reached
  refine (if_neg lenWithin).symm.trans (pair_field reached ?_)
  intro _ _ reached
  apply slice_field reached
  intro _ _ _
  rw [deviceIdOf_bytes]
  rfl

theorem decodeQuery_eq (buf : Bytes) : decodeQuery buf = .ok (Discovery.decodeQuery buf) := by
  by_cases within : 24 ≤ buf.length
  · unfold decodeQuery Discovery.decodeQuery
    have header := @queryHeader_iff buf (by omega)
    rw [if_neg (Nat.not_lt.mpr within), slice_magic (by omega), itemAt_getD (by omega) 0,
      itemAt_getD (by omega) 0,
      readBytes_front (by omega)]
    simp only [bind, Except.bind, pure, Except.pure, Option.bind_some]
    by_cases front : buf.take 4 = magic ∧ buf.getD 4 0 = protocolVersion ∧
      buf.getD 5 0 = MsgType.query.toU8
    · rw [if_neg (not_not.mpr front.1), if_neg (not_not.mpr front.2.1),
        if_neg (not_not.mpr front.2.2), header.mpr front,
        decodeAsker_eq within]
      rfl
    · have other : guard (buf.take 6 = magic ++ [protocolVersion, MsgType.query.toU8]) =
          (none : Option Unit) :=
        if_neg (mt header.mp front)
      rw [other]
      by_cases same : buf.take 4 = magic
      · by_cases version : buf.getD 4 0 = protocolVersion
        · rw [if_neg (not_not.mpr same), if_neg (not_not.mpr version), if_pos fun type =>
            front ⟨same, version, type⟩]
          rfl
        · rw [if_neg (not_not.mpr same), if_pos version]
          rfl
      · rw [if_pos same]
        rfl
  · rw [decodeQuery_short (Nat.lt_of_not_le within), decodeQuery, if_pos (Nat.lt_of_not_le within)]
    rfl

end DistributedOs.Discovery.Cursor
