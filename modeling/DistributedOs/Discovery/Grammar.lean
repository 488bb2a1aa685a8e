import DistributedOs.Discovery.Cursor

/-! The datagrams that are taken for announcements, and which of them the returned fields are
written as again. -/

namespace DistributedOs.Discovery

open Semantics Reliable

/-- An announcement as it lies in a datagram. -/
structure Layout where
  msgType : MsgType
  uuid : Uuid
  name : Bytes
  flags : UInt8
  port : UInt16
  platform : Bytes
  addresses : List Bytes
  announces : msgType = .announce ∨ msgType = .response
  length_name : name.length < 65536
  length_platform : platform.length < 256
  length_addresses : addresses.length < 256
  length_addr : ∀ addr ∈ addresses, addr.length < 256

namespace Layout

def bytes (layout : Layout) : Bytes :=
  (magic ++ [protocolVersion, layout.msgType.toU8]) ++
  (layout.uuid.bytes ++ (toBe 2 layout.name.length ++ (layout.name ++
    ([layout.flags] ++ (toBe 2 layout.port.toNat ++
      ([UInt8.ofNat layout.platform.length] ++ (layout.platform ++
      ([UInt8.ofNat layout.addresses.length] ++ layout.addresses.flatMap encodeAddress))))))))

/-- The fields that are returned for it. What is no UTF-8 in the texts is replaced. -/
def message (layout : Layout) : DiscoveryAnnounce where
  msgType := layout.msgType
  deviceId := layout.uuid.toText
  deviceName := fromUtf8Lossy layout.name
  transportFlags := layout.flags
  transferPort := layout.port
  platform := fromUtf8Lossy layout.platform
  addresses := layout.addresses

theorem length_bytes (layout : Layout) :
    layout.bytes.length = 29 + layout.name.length + layout.platform.length +
      (layout.addresses.flatMap encodeAddress).length := by
  rw [bytes, List.length_append, length_header]
  simp only [List.length_append, List.length_singleton, length_toBe, layout.uuid.length_bytes]
  omega

end Layout

/-- The entries are read when all of them have arrived. -/
theorem decodeAddresses_take (addresses : List Bytes)
    (short : ∀ addr ∈ addresses, addr.length < 256) (rest : Bytes) (room : Nat) :
    decodeAddresses addresses.length ((addresses.flatMap encodeAddress ++ rest).take room) =
      if (addresses.flatMap encodeAddress).length ≤ room then some addresses else none := by
  induction addresses generalizing room with
  | nil => simp [decodeAddresses]
  | cons addr addresses ih =>
    rw [List.forall_mem_cons] at short
    have lengthByte := readBytes_take [UInt8.ofNat addr.length]
      (addr ++ (addresses.flatMap encodeAddress ++ rest)) room
    have content := readBytes_take addr (addresses.flatMap encodeAddress ++ rest) (room - 1)
    have count : ofBe [UInt8.ofNat addr.length] = addr.length := by
      rw [ofBe_lengthByte, Nat.mod_eq_of_lt short.1]
    have encoding : (addr :: addresses).flatMap encodeAddress ++ rest =
        [UInt8.ofNat addr.length] ++ (addr ++ (addresses.flatMap encodeAddress ++ rest)) := by
      rw [List.flatMap_cons, encodeAddress, List.append_assoc]
      rfl
    have size : ((addr :: addresses).flatMap encodeAddress).length =
        1 + addr.length + (addresses.flatMap encodeAddress).length := by
      rw [List.flatMap_cons, List.length_append, encodeAddress, List.length_cons]
      omega
    rw [List.length_singleton] at lengthByte
    rw [encoding, size, List.length_cons, decodeAddresses, lengthByte]
    by_cases begun : 1 ≤ room
    · simp only [if_pos begun, Option.bind_eq_bind, Option.bind_some, count, content]
      by_cases within : addr.length ≤ room - 1
      · simp only [if_pos within, Option.bind_some, ih short.2]
        by_cases whole : (addresses.flatMap encodeAddress).length ≤ room - 1 - addr.length
        · rw [if_pos whole, if_pos (by omega)]
          rfl
        · rw [if_neg whole, if_neg (by omega)]
          rfl
      · rw [if_neg within, if_neg (by omega)]
        rfl
    · rw [if_neg begun, if_neg (by omega)]
      rfl

theorem bind_readUuid_take_iff {Result : Type} (uuid : Uuid) (rest : Bytes) (room : Nat)
    (decode : Uuid × Bytes → Option Result) (result : Result) :
    (readUuid ((uuid.bytes ++ rest).take room)).bind decode = some result ↔
      16 ≤ room ∧ decode (uuid, rest.take (room - 16)) = some result := by
  by_cases enough : 16 ≤ room
  · rw [bind_readUuid_take uuid rest enough, and_iff_right enough]
  · have short : ¬ 16 ≤ ((uuid.bytes ++ rest).take room).length := by
      rw [List.length_take]
      omega
    rw [readUuid, dif_neg short]
    exact iff_of_false (fun read => by cases read) fun within => enough within.1

/-- Of a datagram that begins with an announcement, exactly the cuts that keep all of it are taken
for one. -/
theorem decodeDiscovery_take_iff (layout : Layout) (rest : Bytes) (room : Nat)
    (msg : DiscoveryAnnounce) :
    decodeDiscovery ((layout.bytes ++ rest).take room) = some msg ↔ layout.bytes.length ≤ room ∧
      layout.message = msg := by
  have header : (magic ++ [protocolVersion, layout.msgType.toU8]).take 5 = magic ++
      [protocolVersion] := rfl
  have code : (magic ++ [protocolVersion, layout.msgType.toU8]).getD 5 0 = layout.msgType.toU8 := rfl
  have nameLen : ofBe (toBe 2 layout.name.length) = layout.name.length :=
    ofBe_toBe_of_lt layout.length_name
  have port : UInt16.ofNat (ofBe (toBe 2 layout.port.toNat)) = layout.port := by
    rw [ofBe_toBe_of_lt layout.port.toNat_lt, UInt16.ofNat_toNat]
  have platLen : ofBe [UInt8.ofNat layout.platform.length] = layout.platform.length := by
    rw [ofBe_lengthByte, Nat.mod_eq_of_lt layout.length_platform]
  have addrCount : ofBe [UInt8.ofNat layout.addresses.length] = layout.addresses.length := by
    rw [ofBe_lengthByte, Nat.mod_eq_of_lt layout.length_addresses]
  -- The fields one after the other, each as far as the cut reaches.
  rw [layout.length_bytes]
  simp only [decodeDiscovery, Layout.bytes, List.append_assoc, Option.bind_eq_bind]
  rw [← List.append_assoc magic, bind_readBytes_take (length_header layout.msgType)]
  simp only [header, code, fromU8_toU8, guard, if_true, if_pos layout.announces, Option.pure_def,
    Option.bind_some]
  rw [bind_readUuid_take_iff, bind_readBytes_take (length_toBe _ _)]
  dsimp only
  rw [nameLen, bind_readBytes_take rfl]
  dsimp only
  rw [bind_readBytes_take (List.length_singleton ..)]
  dsimp only
  rw [bind_readBytes_take (length_toBe _ _)]
  dsimp only
  rw [bind_readBytes_take (List.length_singleton ..)]
  dsimp only
  rw [platLen, bind_readBytes_take rfl]
  dsimp only
  rw [bind_readBytes_take (List.length_singleton ..)]
  dsimp only
  rw [addrCount, decodeAddresses_take layout.addresses layout.length_addr, port, Option.bind_eq_some_iff]
  simp only [Option.some.injEq, Option.ite_none_right_eq_some, List.getD_cons_zero]
  constructor
  · rintro ⟨_, _, _, _, _, _, _, _, _, _, ⟨_, rfl⟩, same⟩
    exact ⟨by omega, same⟩
  · rintro ⟨_, same⟩
    exact ⟨by omega, by omega, by omega, by omega, by omega, by omega, by omega, by omega, by omega, layout.addresses,
      ⟨by omega, rfl⟩, same⟩

theorem lengthByte_ofBe (one : field.length = 1) :
    field = [UInt8.ofNat (ofBe field)] ∧ ofBe field < 256 := by
  obtain ⟨byte, rfl⟩ := List.length_eq_one_iff.mp one
  have number : ofBe [byte] = byte.toNat := by simp [ofBe]
  rw [number, UInt8.ofNat_toNat]
  exact ⟨rfl, byte.toNat_lt⟩

theorem pair_ofBe (two : field.length = 2) : field = toBe 2 (ofBe field) ∧ ofBe field < 65536 := by
  have back := toBe_ofBe field
  have bound := ofBe_lt field
  rw [two] at back bound
  exact ⟨back.symm, bound⟩

theorem decodeAddresses_some {addresses : List Bytes}
    (decoded : decodeAddresses count buf = some addresses) :
    (∀ addr ∈ addresses, addr.length < 256) ∧ addresses.flatMap encodeAddress <+: buf := by
  induction count generalizing buf addresses with
  | zero =>
    cases decoded
    exact ⟨by simp, List.nil_prefix⟩
  | succ _ ih =>
    simp only [decodeAddresses, Option.bind_eq_bind, Option.bind_eq_some_iff] at decoded
    obtain ⟨⟨_, _⟩, readLen, ⟨_, _⟩, readAddr, _, tail, same⟩ := decoded
    cases same
    obtain ⟨rfl, one⟩ := readBytes_some readLen
    obtain ⟨byte, small⟩ := lengthByte_ofBe one
    obtain ⟨rfl, size⟩ := readBytes_some readAddr
    obtain ⟨short, front⟩ := ih tail
    rw [← size] at byte small
    refine ⟨List.forall_mem_cons.mpr ⟨small, short⟩, ?_⟩
    rw [List.flatMap_cons, encodeAddress, byte]
    simpa using front

theorem toU8_of_fromU8 {msgType : MsgType} (type : MsgType.fromU8 code = some msgType) :
    code = msgType.toU8 := by
  unfold MsgType.fromU8 at type
  split at type
  · cases type
    assumption
  · split at type
    · cases type
      assumption
    · split at type <;> cases type
      assumption

theorem header_of_type {header : Bytes} (six : header.length = 6)
    (front : header.take 5 = magic ++ [protocolVersion]) {msgType : MsgType}
    (type : MsgType.fromU8 (header.getD 5 0) = some msgType) :
    header = magic ++ [protocolVersion, msgType.toU8] := by
  have last : 5 < header.length := by omega
  calc header
      = header.take 5 ++ [header[5]] := by
        rw [← List.take_succ_eq_append_getElem last, List.take_of_length_le six.le]
    _ = magic ++ [protocolVersion] ++ [header.getD 5 0] := by
        rw [front, List.getD_eq_getElem?_getD, List.getElem?_eq_getElem last, Option.getD_some]
    _ = magic ++ [protocolVersion, msgType.toU8] := by
        rw [toU8_of_fromU8 type, List.append_assoc]
        rfl

/-- Whatever is taken for an announcement begins with one. -/
theorem layout_of_decodeDiscovery (decoded : decodeDiscovery buf = some msg) :
    ∃ layout : Layout, layout.bytes <+: buf ∧ layout.message = msg := by
  simp only [decodeDiscovery, Option.bind_eq_bind, Option.bind_eq_some_iff,
    Option.guard_eq_some'] at decoded
  obtain ⟨⟨_, _⟩, readHeader, _, front, msgType, type, _, kind, ⟨uuid, _⟩, readId,
    ⟨nameLen, buf₃⟩, readNameLen, ⟨name, buf₄⟩, readName, ⟨flags, buf₅⟩, readFlags,
    ⟨port, buf₆⟩, readPort,
    ⟨platLen, buf₇⟩, readPlatLen, ⟨platform, buf₈⟩, readPlatform, ⟨addrCount, buf₉⟩, readCount,
    addresses, readAddresses, same⟩ := decoded
  dsimp only at *
  obtain ⟨rfl, six⟩ := readBytes_some readHeader
  have start := Cursor.readUuid_some readId
  obtain ⟨rfl, two⟩ := readBytes_some readNameLen
  obtain ⟨rfl, sizeName⟩ := readBytes_some readName
  obtain ⟨rfl, oneFlags⟩ := readBytes_some readFlags
  obtain ⟨rfl, twoPort⟩ := readBytes_some readPort
  obtain ⟨rfl, onePlat⟩ := readBytes_some readPlatLen
  obtain ⟨rfl, sizePlat⟩ := readBytes_some readPlatform
  obtain ⟨rfl, oneCount⟩ := readBytes_some readCount
  obtain ⟨short, entries⟩ := decodeAddresses_some readAddresses
  have count := decodeAddresses_length readAddresses
  obtain ⟨nameLenBytes, nameSmall⟩ := pair_ofBe two
  obtain ⟨portBytes, portSmall⟩ := pair_ofBe twoPort
  obtain ⟨platByte, platSmall⟩ := lengthByte_ofBe onePlat
  obtain ⟨countByte, countSmall⟩ := lengthByte_ofBe oneCount
  rw [← sizeName] at nameLenBytes nameSmall
  rw [← sizePlat] at platByte platSmall
  rw [← count] at countByte countSmall
  have portNumber : (UInt16.ofNat (ofBe port)).toNat = ofBe port := UInt16.toNat_ofNat_of_lt' portSmall
  have flagsByte : [flags.getD 0 0] = flags := by
    obtain ⟨_, rfl⟩ := List.length_eq_one_iff.mp oneFlags
    rfl
  refine ⟨⟨msgType, uuid, name, flags.getD 0 0, UInt16.ofNat (ofBe port), platform, addresses, kind,
    nameSmall, platSmall,
    countSmall, short⟩, ?_, Option.some.inj same⟩
  unfold Layout.bytes
  dsimp only
  rw [start, ← header_of_type six front type, ← nameLenBytes, flagsByte, portNumber,
    ← portBytes, ← platByte,
    ← countByte]
  simpa only [List.append_assoc, List.prefix_append_right_inj] using entries

/-- The text that is made of the bytes is written as these bytes again, as far as the limit reaches. -/
def Kept (limit : Nat) (bytes : Bytes) : Prop := (utf8 (fromUtf8Lossy bytes)).take limit = bytes

/-- UTF-8, or UTF-8 up to the limit, where the last character is `U+FFFD` and is cut. -/
def Textual (limit : Nat) (bytes : Bytes) : Prop :=
  (∃ text, bytes = utf8 text) ∨
    (bytes.length = limit ∧ ∃ text kept, (kept = 1 ∨ kept = 2) ∧
      bytes = utf8 text ++ (String.utf8EncodeChar replacement).take kept)

def replaced (text : String) : String := String.ofList (text.toList ++ [replacement])

theorem utf8_replaced (text : String) :
    utf8 (replaced text) = utf8 text ++ String.utf8EncodeChar replacement := by
  rw [utf8_eq, utf8_eq, replaced, String.toList_ofList, List.flatMap_append, List.flatMap_singleton]

theorem length_replacement : (String.utf8EncodeChar replacement).length = 3 := rfl

theorem fromUtf8Lossy_utf8_take_iff (text : String) (limit : Nat) :
    fromUtf8Lossy ((utf8 text).take limit) = text ↔
      (utf8 text).length ≤ limit ∨ ∃ front, text = replaced front ∧
      (utf8 text).length ≤ limit + 2 := by
  rw [utf8_eq, fromUtf8Lossy_take_iff]
  apply or_congr_right
  constructor
  · rintro ⟨last, cut⟩
    obtain ⟨front, chars⟩ := List.getLast?_eq_some_iff.mp last
    refine ⟨String.ofList front, ?_, cut⟩
    rw [replaced, String.toList_ofList, ← chars, String.ofList_toList]
  · rintro ⟨_, same, cut⟩
    refine ⟨?_, cut⟩
    rw [same, replaced, String.toList_ofList, List.getLast?_append]
    rfl

theorem kept_iff {bytes : Bytes} (fits : bytes.length ≤ limit) :
    Kept limit bytes ↔ Textual limit bytes := by
  constructor
  · intro kept
    unfold Kept at kept
    generalize written : fromUtf8Lossy bytes = text at kept
    rw [← kept] at written
    rcases (fromUtf8Lossy_utf8_take_iff text limit).mp written with whole | ⟨front, rfl, cut⟩
    · left
      exact ⟨text, by rw [← kept, List.take_of_length_le whole]⟩
    · by_cases whole : (utf8 (replaced front)).length ≤ limit
      · left
        exact ⟨replaced front, by rw [← kept, List.take_of_length_le whole]⟩
      · right
        have size : bytes.length = limit := by
          rw [← kept, List.length_take]
          omega
        rw [utf8_replaced, List.length_append, length_replacement] at cut whole
        refine ⟨size, front, limit - (utf8 front).length, by omega, ?_⟩
        rw [← kept, utf8_replaced, List.take_append, List.take_of_length_le (by omega)]
  · rintro (⟨text, rfl⟩ | ⟨full, text, count, _, rfl⟩)
    · have whole := (fromUtf8Lossy_utf8_take_iff text limit).mpr (.inl fits)
      rw [List.take_of_length_le fits] at whole
      unfold Kept
      rw [whole, List.take_of_length_le fits]
    · have cut : (utf8 (replaced text)).take limit = utf8 text ++
          (String.utf8EncodeChar replacement).take count := by
        rw [List.length_append, List.length_take, length_replacement] at full
        rw [utf8_replaced, List.take_append, List.take_of_length_le (by omega)]
        congr 2
        omega
      have whole := (fromUtf8Lossy_utf8_take_iff (replaced text) limit).mpr (.inr ⟨text, rfl, by
        rw [List.length_append, List.length_take, length_replacement] at full
        rw [utf8_replaced, List.length_append, length_replacement]
        omega⟩)
      unfold Kept
      rw [← cut, whole]

variable {parseStr : String → Option Uuid}

theorem encodeAnnounce_layout (parses : ∀ uuid : Uuid, parseStr uuid.toText = some uuid)
    (layout : Layout) :
    encodeAnnounce parseStr layout.message =
      (magic ++ [protocolVersion, layout.msgType.toU8]) ++ (layout.uuid.bytes ++
        (toBe 2 (min (utf8 (fromUtf8Lossy layout.name)).length 65535) ++
          ((utf8 (fromUtf8Lossy layout.name)).take 65535 ++
          ([layout.flags] ++ (toBe 2 layout.port.toNat ++
            ([UInt8.ofNat (min (utf8 (fromUtf8Lossy layout.platform)).length 255)] ++
              ((utf8 (fromUtf8Lossy layout.platform)).take 255 ++
                ([UInt8.ofNat layout.addresses.length] ++
                  layout.addresses.flatMap encodeAddress)))))))) := by
  have count : min layout.addresses.length 255 = layout.addresses.length := by
    have small := layout.length_addresses
    omega
  have cut (bytes : Bytes) (limit : Nat) : bytes.take (min bytes.length limit) = bytes.take limit := by
    rw [Nat.min_comm, ← List.take_eq_take_min]
  simp only [encodeAnnounce, Layout.message, parses, Option.getD_some, count, cut]

theorem encodeAnnounce_prefix_iff (parses : ∀ uuid : Uuid, parseStr uuid.toText = some uuid)
    (layout : Layout) (rest : Bytes) :
    encodeAnnounce parseStr layout.message <+: layout.bytes ++ rest ↔
      Kept 65535 layout.name ∧ Kept 255 layout.platform := by
  rw [encodeAnnounce_layout parses]
  constructor
  · rintro ⟨_, same⟩
    unfold Layout.bytes at same
    simp only [List.append_assoc, List.append_cancel_left_eq] at same
    have sizes (limit : Nat) (bytes : Bytes) : (bytes.take limit).length = min bytes.length limit := by
      rw [List.length_take, Nat.min_comm]
    -- The length fields are equal, and so are the texts behind them.
    obtain ⟨nameLen, same⟩ := List.append_inj same (by rw [length_toBe, length_toBe])
    have nameSize := congrArg ofBe nameLen
    rw [ofBe_nameLen, ofBe_toBe_of_lt layout.length_name] at nameSize
    obtain ⟨name, same⟩ := List.append_inj same (by rw [sizes, nameSize])
    simp only [List.append_cancel_left_eq] at same
    obtain ⟨platLen, same⟩ := List.append_inj same rfl
    have platSize := congrArg ofBe platLen
    rw [ofBe_lengthByte, ofBe_lengthByte, Nat.mod_eq_of_lt layout.length_platform,
      Nat.mod_eq_of_lt (by omega)] at platSize
    obtain ⟨platform, _⟩ := List.append_inj same (by rw [sizes, platSize])
    exact ⟨name, platform⟩
  · rintro ⟨name, platform⟩
    unfold Kept at name platform
    have nameLen := congrArg List.length name
    have platLen := congrArg List.length platform
    rw [List.length_take, Nat.min_comm] at nameLen platLen
    rw [name, platform, nameLen, platLen]
    exact List.prefix_append _ _

theorem decodeQuery_layout (layout : Layout)
    (rest : Bytes) : decodeQuery (layout.bytes ++ rest) = none := by
  rw [Option.eq_none_iff_forall_ne_some]
  intro _ decoded
  simp only [decodeQuery, Layout.bytes, List.append_assoc, Option.bind_eq_bind, Option.bind_eq_some_iff,
    Option.guard_eq_some'] at decoded
  obtain ⟨⟨_, _⟩, read, _, same, _⟩ := decoded
  obtain ⟨front, six⟩ := readBytes_some read
  rw [← List.append_assoc magic] at front
  obtain ⟨rfl, _⟩ := List.append_inj front (by rw [length_header, six])
  have code : layout.msgType.toU8 = MsgType.query.toU8 := by simpa using same
  rcases layout.announces with kind | kind
  · rw [kind] at code
    exact absurd code (by decide)
  · rw [kind] at code
    exact absurd code (by decide)

/-- What both decoders make of a buffer. -/
structure Decoded (parseStr : String → Option Uuid) (buf : Bytes) (query : Option DiscoveryQuery)
    (announced : Option DiscoveryAnnounce) : Prop where
  asks : Cursor.decodeQuery buf = .ok query
  announces : Cursor.decodeDiscovery buf = .ok announced
  apart : query = none ∨ announced = none
  accepted : ∀ msg, announced = some msg ↔ ∃ layout : Layout, layout.bytes <+: buf ∧ layout.message = msg
  cut : ∀ layout : Layout, layout.bytes <+: buf → ∀ count < layout.bytes.length,
    Cursor.decodeDiscovery (buf.take count) = .ok none
  encoded : ∀ layout : Layout, layout.bytes <+: buf →
    (encodeAnnounce parseStr layout.message <+: buf ↔ Textual 65535 layout.name ∧
      Textual 255 layout.platform)

theorem decodeDiscovery_layout (layout : Layout) (rest : Bytes) :
    decodeDiscovery (layout.bytes ++ rest) = some layout.message := by
  have whole := decodeDiscovery_take_iff layout rest (layout.bytes ++ rest).length layout.message
  rw [List.take_length] at whole
  exact whole.mpr ⟨by simp, rfl⟩

theorem decoders_follow_layout
    (parses : ∀ uuid : Uuid, parseStr uuid.toText = some uuid) (buf : Bytes) :
    ∃ query announced, Decoded parseStr buf query announced := by
  have accepted (msg : DiscoveryAnnounce) :
      decodeDiscovery buf = some msg ↔
        ∃ layout : Layout, layout.bytes <+: buf ∧ layout.message = msg := by
    constructor
    · exact layout_of_decodeDiscovery
    · rintro ⟨layout, ⟨rest, rfl⟩, same⟩
      rw [decodeDiscovery_layout, same]
  refine ⟨decodeQuery buf, decodeDiscovery buf, Cursor.decodeQuery_eq buf,
    Cursor.decodeDiscovery_eq buf, ?_,
    accepted, ?_, ?_⟩
  · cases announced : decodeDiscovery buf with
    | none => exact .inr rfl
    | some msg =>
      obtain ⟨layout, ⟨rest, rfl⟩, _⟩ := (accepted msg).mp announced
      exact .inl (decodeQuery_layout layout rest)
  · rintro layout ⟨rest, rfl⟩ count _
    rw [Cursor.decodeDiscovery_eq, Except.ok.injEq, Option.eq_none_iff_forall_ne_some]
    intro msg taken
    have whole := ((decodeDiscovery_take_iff layout rest count msg).mp taken).1
    omega
  · rintro layout ⟨_, rfl⟩
    rw [encodeAnnounce_prefix_iff parses, kept_iff (Nat.le_of_lt_succ layout.length_name),
      kept_iff (Nat.le_of_lt_succ layout.length_platform)]

/-- An announcement whose name is no UTF-8. -/
def unnamed : Layout :=
  ⟨.announce, phoneId, [0xFF], 3, 18250, [], [[192, 168, 1, 10]],
    .inl rfl, by decide, by decide, by decide, by decide⟩

theorem decoders_follow_unnamed :
    ∃ query announced, Decoded parseText unnamed.bytes query announced :=
  decoders_follow_layout parseText_toText unnamed.bytes

/-- It is taken, and the name is another one then. -/
theorem not_encoded_unnamed :
    ¬ ∀ buf msg, Cursor.decodeDiscovery buf = .ok (some msg) →
      encodeAnnounce parseText msg <+: buf := by
  intro every
  have taken : Cursor.decodeDiscovery (unnamed.bytes ++ []) = .ok (some unnamed.message) := by
    rw [Cursor.decodeDiscovery_eq, decodeDiscovery_layout]
  have kept := ((encodeAnnounce_prefix_iff parseText_toText unnamed []).mp (every _ _ taken)).1
  have other : ¬ Kept 65535 [0xFF] := by
    unfold Kept
    decide
  exact other kept

end DistributedOs.Discovery
