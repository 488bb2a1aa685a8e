import DistributedOs.Discovery.Registry
import DistributedOs.Semantics.Slices

/-! The public address of this device, as the binding response of a STUN server carries it. The
response is parsed at offsets into the datagram, so each access may leave it. -/

namespace DistributedOs.Traversal

open Semantics
open Discovery (Ipv4Addr)

structure Ipv6Addr where
  octets : Bytes
  length_octets : octets.length = 16

instance Ipv6Addr.decidableEq : DecidableEq Ipv6Addr
  | ⟨octets, _⟩, ⟨others, _⟩ =>
    decidable_of_iff (octets = others) (Ipv6Addr.mk.injEq _ _ _ _).symm.to_iff

inductive IpAddr where
  | v4 (ip : Ipv4Addr)
  | v6 (ip : Ipv6Addr)
  deriving DecidableEq

/-- An IPv6 one has no flow information and no scope: `SocketAddr::new`. -/
structure SocketAddr where
  ip : IpAddr
  port : UInt16
  deriving DecidableEq

structure TxId where
  bytes : Bytes
  length_bytes : bytes.length = 12
  deriving DecidableEq

/-- `0x2112A442u32.to_be_bytes()`. -/
def magicBytes : Bytes := [0x21, 0x12, 0xA4, 0x42]

theorem length_magicBytes : magicBytes.length = 4 := rfl

def buildStunRequest (txId : TxId) : Bytes :=
  toBe 2 0x0001 ++ (toBe 2 0x0000 ++ (magicBytes ++ txId.bytes))

/-- The byte of the cookie and the transaction id for a byte of an IPv6 address. -/
def xorByte (txId : TxId) (ipBytes : Bytes) (i : Nat) : Except Access UInt8 := do
  let byte ← itemAt ipBytes i
  let key ← (if i < 4 then itemAt magicBytes i else itemAt txId.bytes (i - 4))
  return byte ^^^ key

def xorIpv6 (txId : TxId) (ipBytes : Bytes) : Except Access Ipv6Addr :=
  match filled : (List.range 16).mapM (xorByte txId ipBytes) with
  | .ok xorIp => .ok ⟨xorIp, (length_mapM filled).trans List.length_range⟩
  | .error access => .error access

/-- The bytes that align what follows an attribute to four bytes. -/
def padding (attrLen : Nat) : Nat := if attrLen % 4 ≠ 0 then 4 - attrLen % 4 else 0

inductive Pass where
  | found (addr : SocketAddr)
  | next (offset : Nat)
  | stop
  deriving DecidableEq

/-- The address of the attribute whose value is at `offset`; there is none of an unknown family. -/
def mappedAddress (data : Bytes) (txId : TxId) (offset : Nat) : Except Access (Option SocketAddr) :=
  do
  let family ← itemAt data (offset + 1)
  let port := UInt16.ofNat (ofBe (← slice data (offset + 2) (offset + 4))) ^^^ 0x2112
  if family = 0x01 then
    let ipBytes ← slice data (offset + 4) (offset + 8)
    let a ← itemAt ipBytes 0
    let b ← itemAt ipBytes 1
    let c ← itemAt ipBytes 2
    let d ← itemAt ipBytes 3
    return some ⟨.v4 ⟨a ^^^ 0x21, b ^^^ 0x12, c ^^^ 0xA4, d ^^^ 0x42⟩, port⟩
  else if family = 0x02 then
    let ipBytes ← slice data (offset + 4) (offset + 20)
    let ip ← xorIpv6 txId ipBytes
    return some ⟨.v6 ip, port⟩
  else return none

def parseAttribute (data : Bytes) (txId : TxId) (offset : Nat) : Except Access Pass := do
  let attrType := ofBe (← slice data offset (offset + 2))
  let attrLen := ofBe (← slice data (offset + 2) (offset + 4))
  let offset := offset + 4
  let next := offset + attrLen + padding attrLen
  if data.length < offset + attrLen then return .stop
  else if attrType = 0x0020 ∧ 8 ≤ attrLen then
    match ← mappedAddress data txId offset with
    | some addr => return .found addr
    | none => return .next next
  else return .next next

/-- An attribute as it lies in a datagram: the type and the length of its header, and the datagram
from its value on. -/
structure Attribute where
  type : Nat
  length : Nat
  onward : Bytes
  deriving DecidableEq

def Attribute.value (attr : Attribute) : Bytes := attr.onward.take attr.length

def Attribute.family (attr : Attribute) : UInt8 := attr.onward.getD 1 0

def Attribute.rest (attr : Attribute) : Bytes :=
  attr.onward.drop (attr.length + padding attr.length)

def readAttribute (buf : Bytes) : Option Attribute :=
  let length := ofBe ((buf.drop 2).take 2)
  if 4 + length ≤ buf.length then some { type := ofBe (buf.take 2), length, onward := buf.drop 4 }
  else none

theorem readAttribute_some (read : readAttribute buf = some attr) :
    attr.length ≤ attr.onward.length ∧ attr.rest.length < buf.length := by
  simp only [readAttribute] at read
  split at read
  · rename_i within
    cases read
    simp only [Attribute.rest, List.length_drop]
    omega
  · cases read

/-- The attributes of a message, up to one that is not there in full. -/
def attributes (buf : Bytes) : List Attribute :=
  match _ : readAttribute buf with
  | none => []
  | some attr => attr :: attributes attr.rest
termination_by buf.length
decreasing_by exact (readAttribute_some ‹_›).2

/-- The loop stops at the attribute and takes the address from it. -/
def Attribute.Deciding (attr : Attribute) : Prop :=
  attr.type = 0x0020 ∧ 8 ≤ attr.length ∧ (attr.family = 0x01 ∨ attr.family = 0x02)

instance (attr : Attribute) : Decidable attr.Deciding :=
  inferInstanceAs (Decidable (attr.type = 0x0020 ∧ 8 ≤ attr.length ∧
    (attr.family = 0x01 ∨ attr.family = 0x02)))

/-- The cookie and the transaction id hide an IPv6 address. -/
def xored (txId : TxId) (ip : Ipv6Addr) : Ipv6Addr where
  octets := List.zipWith (· ^^^ ·) ip.octets (magicBytes ++ txId.bytes)
  length_octets := by simp [ip.length_octets, txId.length_bytes, magicBytes]

def Attribute.address (attr : Attribute) (txId : TxId) : Except Access SocketAddr :=
  let port := UInt16.ofNat (ofBe ((attr.onward.drop 2).take 2)) ^^^ 0x2112
  let byte (i : Nat) := attr.onward.getD (4 + i) 0
  if attr.family = 0x01 then
    .ok ⟨.v4 ⟨byte 0 ^^^ 0x21, byte 1 ^^^ 0x12, byte 2 ^^^ 0xA4, byte 3 ^^^ 0x42⟩, port⟩
  else if sixteen : 20 ≤ attr.onward.length then
    .ok ⟨.v6 (xored txId ⟨(attr.onward.drop 4).take 16, by simp; omega⟩), port⟩
  else .error .outOfRange

section
variable {data : Bytes} {txId : TxId} {offset : Nat}

theorem xorByte_eq (txId : TxId) (ip : Ipv6Addr) (within : i < 16) :
    xorByte txId ip.octets i = .ok ((xored txId ip).octets.getD i 0) := by
  have inIp : i < ip.octets.length := within.trans_eq ip.length_octets.symm
  have inXored : i < (xored txId ip).octets.length := within.trans_eq (xored txId ip).length_octets.symm
  have key : (if i < 4 then itemAt magicBytes i else itemAt txId.bytes (i - 4)) = itemAt
      (magicBytes ++ txId.bytes) i :=
    (itemAt_append magicBytes txId.bytes i).symm
  have inKey : i < (magicBytes ++ txId.bytes).length := by
    rw [List.length_append, txId.length_bytes]
    exact within
  rw [xorByte, key, itemAt_of_lt inIp, itemAt_of_lt inKey, List.getD_eq_getElem?_getD,
    List.getElem?_eq_getElem inXored]
  simp only [xored, List.getElem_zipWith]
  rfl

theorem xorIpv6_eq (txId : TxId)
    (ip : Ipv6Addr) : xorIpv6 txId ip.octets = .ok (xored txId ip) := by
  have filled : (List.range 16).mapM (xorByte txId ip.octets) = .ok (xored txId ip).octets := by
    rw [mapM_ok fun i within => xorByte_eq txId ip (List.mem_range.mp within), Except.ok.injEq]
    have size := (xored txId ip).length_octets
    apply List.ext_getElem
    · simp [size]
    · intro i _ within
      simp [List.getElem?_eq_getElem within]
  unfold xorIpv6
  split
  · rename_i done
    rw [filled] at done
    cases done
    rfl
  · rename_i done
    rw [filled] at done
    cases done

theorem Attribute.address_ipv4 {attr : Attribute} (ipv4 : attr.family = 0x01) (txId : TxId) :
    attr.address txId = .ok ⟨.v4 ⟨attr.onward.getD 4 0 ^^^ 0x21, attr.onward.getD 5 0 ^^^ 0x12,
      attr.onward.getD 6 0 ^^^ 0xA4, attr.onward.getD 7 0 ^^^ 0x42⟩,
      UInt16.ofNat (ofBe ((attr.onward.drop 2).take 2)) ^^^ 0x2112⟩ := if_pos ipv4

theorem Attribute.address_ipv6 {attr : Attribute} (ipv6 : attr.family = 0x02)
    (sixteen : 20 ≤ attr.onward.length)
    (txId : TxId) :
    ∃ size, attr.address txId = .ok ⟨.v6 (xored txId ⟨(attr.onward.drop 4).take 16, size⟩),
      UInt16.ofNat (ofBe ((attr.onward.drop 2).take 2)) ^^^ 0x2112⟩ := by
  have ipv4 : ¬ attr.family = 0x01 := by rw [ipv6]; decide
  exact ⟨_, (if_neg ipv4).trans (dif_pos sixteen)⟩

theorem Attribute.address_beyond {attr : Attribute} (ipv6 : attr.family = 0x02)
    (short : ¬ 20 ≤ attr.onward.length) (txId : TxId) : attr.address txId = .error .outOfRange := by
  have ipv4 : ¬ attr.family = 0x01 := by rw [ipv6]; decide
  exact (if_neg ipv4).trans (dif_neg short)

/-- The accesses of an attribute of eight bytes or more. -/
theorem mappedAddress_eq (txId : TxId) (attr : Attribute) (value : data.drop offset = attr.onward)
    (within : offset + 8 ≤ data.length) :
    mappedAddress data txId offset =
      if attr.family = 0x01 ∨ attr.family = 0x02 then (attr.address txId).map some
      else .ok none := by
  have size : 8 ≤ attr.onward.length := by
    rw [← value, List.length_drop]
    omega
  have family : itemAt data (offset + 1) = .ok attr.family := by
    rw [itemAt_drop, value]
    exact itemAt_getD (by omega) 0
  have part (start stop : Nat) :
      slice data (offset + start) (offset + stop) = slice attr.onward start stop := by
    rw [slice_drop (by omega), value]
  have port : slice attr.onward 2 4 = .ok ((attr.onward.drop 2).take 2) :=
    slice_of_le (by decide) (by omega)
  simp only [mappedAddress, family, part, port, bind, Except.bind, pure, Except.pure]
  by_cases ipv4 : attr.family = 0x01
  · have ipBytes : slice attr.onward 4 8 = .ok ((attr.onward.drop 4).take 4) :=
      slice_of_le (by decide) size
    have byte (i : Nat) (four : i < 4) :
        itemAt ((attr.onward.drop 4).take 4) i = .ok (attr.onward.getD (4 + i) 0) := by
      rw [itemAt_getD (by rw [List.length_take, List.length_drop]; omega) 0, List.getD_eq_getElem?_getD,
        List.getElem?_take_of_lt four, List.getElem?_drop, List.getD_eq_getElem?_getD]
    rw [if_pos ipv4, if_pos (.inl ipv4), ipBytes, Attribute.address_ipv4 ipv4]
    dsimp only
    rw [byte 0 (by decide), byte 1 (by decide), byte 2 (by decide), byte 3 (by decide)]
    rfl
  · rw [if_neg ipv4]
    by_cases ipv6 : attr.family = 0x02
    · rw [if_pos ipv6, if_pos (.inr ipv6)]
      by_cases sixteen : 20 ≤ attr.onward.length
      · have ipBytes : slice attr.onward 4 20 = .ok ((attr.onward.drop 4).take 16) :=
          slice_of_le (by decide) sixteen
        obtain ⟨size, address⟩ := Attribute.address_ipv6 ipv6 sixteen txId
        rw [ipBytes, address]
        dsimp only
        rw [xorIpv6_eq txId ⟨_, size⟩]
        rfl
      · rw [slice_beyond (Nat.lt_of_not_le sixteen), Attribute.address_beyond ipv6 sixteen]
        rfl
    · rw [if_neg ipv6, if_neg (not_or.mpr ⟨ipv4, ipv6⟩)]

/-- The pass at an attribute that is there in full. -/
theorem parseAttribute_eq (txId : TxId) (within : offset + 4 ≤ data.length) :
    parseAttribute data txId offset =
      match readAttribute (data.drop offset) with
      | none => .ok .stop
      | some attr =>
        if attr.Deciding then (attr.address txId).map .found
        else .ok (.next (offset + 4 + attr.length + padding attr.length)) := by
  have type : slice data offset (offset + 2) = .ok ((data.drop offset).take 2) := by
    rw [slice_of_le (by omega) (by omega), Nat.add_sub_cancel_left]
  have length : slice data (offset + 2) (offset + 4) = .ok (((data.drop offset).drop 2).take 2) := by
    rw [slice_of_le (by omega) within, List.drop_drop, Nat.add_sub_add_left]
  simp only [parseAttribute, readAttribute, type, length, bind, Except.bind, pure, Except.pure,
    List.length_drop,
    List.drop_drop]
  generalize ofBe ((data.drop (offset + 2)).take 2) = attrLen
  generalize ofBe ((data.drop offset).take 2) = attrType
  by_cases whole : offset + 4 + attrLen ≤ data.length
  · have fits : 4 + attrLen ≤ data.length - offset := by omega
    rw [if_neg (Nat.not_lt.mpr whole), if_pos fits]
    dsimp only
    generalize same : (⟨attrType, attrLen, data.drop (offset + 4)⟩ : Attribute) = attr
    have value : data.drop (offset + 4) = attr.onward := by rw [← same]
    by_cases mapped : attrType = 0x0020 ∧ 8 ≤ attrLen
    · have deciding : attr.Deciding ↔ attr.family = 0x01 ∨ attr.family = 0x02 := by
        subst same
        exact ⟨fun deciding => deciding.2.2, fun known => ⟨mapped.1, mapped.2, known⟩⟩
      rw [if_pos mapped, mappedAddress_eq txId attr value (by omega)]
      by_cases known : attr.family = 0x01 ∨ attr.family = 0x02
      · rw [if_pos known, if_pos (deciding.mpr known)]
        cases attr.address txId <;> rfl
      · rw [if_neg known, if_neg fun decides => known (deciding.mp decides)]
    · have passed : ¬ attr.Deciding := by
        subst same
        exact fun deciding => mapped ⟨deciding.1, deciding.2.1⟩
      rw [if_neg mapped, if_neg passed]
  · have short : ¬ 4 + attrLen ≤ data.length - offset := by omega
    rw [if_pos (Nat.lt_of_not_le whole), if_neg short]

theorem parseAttribute_next (within : offset + 4 ≤ data.length)
    (next : parseAttribute data txId offset = .ok (.next later)) : offset + 4 ≤ later := by
  rw [parseAttribute_eq txId within] at next
  split at next
  · cases next
  · rename_i attr _
    split at next
    · cases address : attr.address txId <;> rw [address] at next <;> cases next
    · cases next
      omega

def noAddress : String := "no XOR-MAPPED-ADDRESS in STUN response"

/-- `while offset + 4 <= data.len()`. -/
def parseAttributes (data : Bytes) (txId : TxId)
    (offset : Nat) : Except Access (Except String SocketAddr) :=
  if _ : offset + 4 ≤ data.length then
    match _ : parseAttribute data txId offset with
    | .error access => .error access
    | .ok (.found addr) => .ok (.ok addr)
    | .ok (.next later) => parseAttributes data txId later
    | .ok .stop => .ok (.error noAddress)
  else .ok (.error noAddress)
termination_by data.length - offset
decreasing_by
  have advanced := parseAttribute_next ‹_› ‹_›
  omega

def parseStunResponse (data : Bytes) (txId : TxId) : Except Access (Except String SocketAddr) := do
  if data.length < 20 then
    return .error ("STUN response too short: " ++ toString data.length ++ " bytes")
  if ofBe (← slice data 4 8) ≠ 0x2112A442 then
    return .error "invalid STUN magic cookie"
  if (← slice data 8 20) ≠ txId.bytes then
    return .error "STUN transaction ID mismatch"
  parseAttributes data txId 20

theorem readAttribute_short (short : buf.length < 4) : readAttribute buf = none := by
  simp only [readAttribute]
  rw [if_neg]
  omega

theorem rest_of_readAttribute (read : readAttribute (data.drop offset) = some attr) :
    attr.rest = data.drop (offset + 4 + attr.length + padding attr.length) := by
  simp only [readAttribute] at read
  split at read
  · cases read
    simp only [Attribute.rest, List.drop_drop]
    rw [Nat.add_assoc (offset + 4)]
  · cases read

theorem parseAttributes_of_le (within : offset + 4 ≤ data.length) (txId : TxId) :
    parseAttributes data txId offset =
      match parseAttribute data txId offset with
      | .error access => .error access
      | .ok (.found addr) => .ok (.ok addr)
      | .ok (.next later) => parseAttributes data txId later
      | .ok .stop => .ok (.error noAddress) := by
  rw [parseAttributes, dif_pos within]
  split <;> rename_i pass <;> rw [pass]

/-- The loop ends at the first attribute that decides, with the address it takes from it. -/
theorem parseAttributes_eq (data : Bytes) (txId : TxId) (offset : Nat) :
    parseAttributes data txId offset =
      match (attributes (data.drop offset)).find? (fun attr => attr.Deciding) with
      | none => .ok (.error noAddress)
      | some attr => (attr.address txId).map .ok := by
  by_cases within : offset + 4 ≤ data.length
  · rw [parseAttributes_of_le within, parseAttribute_eq txId within, attributes]
    cases read : readAttribute (data.drop offset) with
    | none => rfl
    | some attr =>
      by_cases deciding : attr.Deciding
      · dsimp only
        rw [if_pos deciding, List.find?_cons, decide_eq_true deciding]
        dsimp only
        cases attr.address txId <;> rfl
      · dsimp only
        rw [if_neg deciding, List.find?_cons, decide_eq_false deciding, rest_of_readAttribute read]
        exact parseAttributes_eq data txId (offset + 4 + attr.length + padding attr.length)
  · have short : (data.drop offset).length < 4 := by
      rw [List.length_drop]
      omega
    rw [parseAttributes, dif_neg within, attributes, readAttribute_short short]
    rfl
termination_by data.length - offset

/-- The bytes of the cookie and of the transaction id are the ones of the request. -/
structure Answers (data : Bytes) (txId : TxId) : Prop where
  length : 20 ≤ data.length
  magic : (data.drop 4).take 4 = magicBytes
  txId : (data.drop 8).take 12 = txId.bytes

/-- The first attribute from which the loop takes an address. -/
def decidingAttribute (data : Bytes) : Option Attribute :=
  (attributes (data.drop 20)).find? fun attr => attr.Deciding

theorem ofBe_magic (four : bytes.length = 4) : ofBe bytes = 0x2112A442 ↔ bytes = magicBytes := by
  constructor
  · intro same
    have back := toBe_ofBe bytes
    rw [four, same] at back
    rw [← back]
    rfl
  · intro same
    rw [same]
    rfl

theorem parseStunResponse_of_answers (answers : Answers data txId) :
    parseStunResponse data txId =
      match decidingAttribute data with
      | none => .ok (.error noAddress)
      | some attr => (attr.address txId).map .ok := by
  have length := answers.length
  have magic : slice data 4 8 = .ok magicBytes := by
    rw [slice_of_le (by decide) (by omega), answers.magic]
  have id : slice data 8 20 = .ok txId.bytes := by
    rw [slice_of_le (by decide) length, answers.txId]
  have cookie : ¬ ofBe magicBytes ≠ 0x2112A442 := not_not.mpr rfl
  simp only [parseStunResponse, magic, id, bind, Except.bind, pure, Except.pure]
  rw [if_neg (Nat.not_lt.mpr length), if_neg cookie, if_neg (not_not.mpr rfl), parseAttributes_eq]
  rfl

theorem parseStunResponse_of_not_answers (strange : ¬ Answers data txId) :
    ∃ error, parseStunResponse data txId = .ok (.error error) := by
  simp only [parseStunResponse]
  by_cases short : data.length < 20
  · rw [if_pos short]
    exact ⟨_, rfl⟩
  · have length := Nat.le_of_not_lt short
    rw [if_neg short, slice_of_le (by decide) (by omega), slice_of_le (by decide) length]
    simp only [bind, Except.bind, pure, Except.pure]
    have four : ((data.drop 4).take 4).length = 4 := by
      rw [List.length_take, List.length_drop]
      omega
    by_cases magic : ofBe ((data.drop 4).take 4) = 0x2112A442
    · have id : (data.drop 8).take 12 ≠ txId.bytes :=
        fun id => strange ⟨length, (ofBe_magic four).mp magic, id⟩
      rw [if_neg (not_not.mpr magic), if_pos id]
      exact ⟨_, rfl⟩
    · rw [if_pos magic]
      exact ⟨_, rfl⟩

/-- The message is the success response to the binding request with the transaction id. -/
structure BindingSuccess (data : Bytes) (txId : TxId) : Prop where
  type : ofBe (data.take 2) = 0x0101
  length : 20 + ofBe ((data.drop 2).take 2) = data.length
  magic : (data.drop 4).take 4 = magicBytes
  txId : (data.drop 8).take 12 = txId.bytes

/-- A mapped address, hidden or not, of the size that its family has. -/
def Attribute.Mapped (attr : Attribute) : Prop :=
  (attr.type = 0x0001 ∨ attr.type = 0x0020) ∧
    (attr.length = 8 ∧ attr.family = 0x01 ∨ attr.length = 20 ∧ attr.family = 0x02)

/-- No access leaves the datagram, and an address comes only out of a binding success response that
has one. -/
def ParsedSafely (data : Bytes) (txId : TxId) : Prop :=
  ∃ result, parseStunResponse data txId = .ok result ∧
    ∀ addr, result = .ok addr → BindingSuccess data txId ∧
    ∃ attr ∈ attributes (data.drop 20), attr.Mapped

/-- The address is read in the datagram when it is an IPv6 one, and its message is a binding success
response of the length it states that has a mapped address of the right size. -/
structure Sound (data : Bytes) (attr : Attribute) : Prop where
  within : attr.family = 0x02 → 20 ≤ attr.onward.length
  type : ofBe (data.take 2) = 0x0101
  length : 20 + ofBe ((data.drop 2).take 2) = data.length
  mapped : ∃ attr ∈ attributes (data.drop 20), attr.Mapped

theorem Attribute.address_ok_iff {attr : Attribute} (deciding : attr.Deciding) (txId : TxId) :
    (∃ addr, attr.address txId = .ok addr) ↔ (attr.family = 0x02 → 20 ≤ attr.onward.length) := by
  rcases deciding.2.2 with ipv4 | ipv6
  · refine iff_of_true ⟨_, Attribute.address_ipv4 ipv4 txId⟩ ?_
    intro ipv6
    rw [ipv4] at ipv6
    exact absurd ipv6 (by decide)
  · by_cases sixteen : 20 ≤ attr.onward.length
    · obtain ⟨_, address⟩ := Attribute.address_ipv6 ipv6 sixteen txId
      exact iff_of_true ⟨_, address⟩ fun _ => sixteen
    · refine iff_of_false ?_ fun within => sixteen (within ipv6)
      rintro ⟨_, address⟩
      rw [Attribute.address_beyond ipv6 sixteen] at address
      cases address

theorem deciding_of_decidingAttribute (decides : decidingAttribute data = some attr) :
    attr.Deciding := by
  unfold decidingAttribute at decides
  simpa using List.find?_some decides

theorem parsedSafely_iff (data : Bytes) (txId : TxId) :
    ParsedSafely data txId ↔
      (Answers data txId → ∀ attr, decidingAttribute data = some attr → Sound data attr) := by
  by_cases answers : Answers data txId
  · have parsed := parseStunResponse_of_answers answers
    cases decides : decidingAttribute data with
    | none =>
      rw [decides] at parsed
      refine iff_of_true ⟨_, parsed, ?_⟩ ?_
      · intro addr same
        cases same
      · intro _ attr same
        cases same
    | some attr =>
      rw [decides] at parsed
      dsimp only at parsed
      have reads := Attribute.address_ok_iff (deciding_of_decidingAttribute decides) txId
      constructor
      · rintro ⟨_, returned, safely⟩ _ _ same
        cases same
        cases address : attr.address txId with
        | error =>
          rw [parsed, address] at returned
          cases returned
        | ok addr =>
          rw [parsed, address] at returned
          cases returned
          obtain ⟨success, mapped⟩ := safely addr rfl
          exact ⟨reads.mp ⟨addr, address⟩, success.type, success.length, mapped⟩
      · intro sound
        have sound := sound answers attr rfl
        obtain ⟨addr, address⟩ := reads.mpr sound.within
        rw [address] at parsed
        exact ⟨_, parsed, fun _ _ =>
          ⟨⟨sound.type, sound.length, answers.magic, answers.txId⟩, sound.mapped⟩⟩
  · obtain ⟨_, refused⟩ := parseStunResponse_of_not_answers answers
    refine iff_of_true ⟨_, refused, ?_⟩ fun same => absurd same answers
    intro _ same
    cases same

/-- A response of no more than the header and an IPv6 address of which only eight bytes are there. -/
def cutResponse : Bytes :=
  toBe 2 0x0101 ++ (toBe 2 12 ++ (magicBytes ++ (List.replicate 12 1 ++
    (toBe 2 0x0020 ++ (toBe 2 8 ++ [0, 2, 0, 0, 0, 0, 0, 0])))))

theorem not_parsedSafely_cutResponse : ¬ ParsedSafely cutResponse ⟨List.replicate 12 1, rfl⟩ := by
  have parsed : parseStunResponse cutResponse ⟨List.replicate 12 1, rfl⟩ = .error .outOfRange := by
    decide +kernel
  rintro ⟨_, returned, _⟩
  rw [parsed] at returned
  cases returned

end

end DistributedOs.Traversal
