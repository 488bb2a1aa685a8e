import DistributedOs.Traversal.Stun

/-! The responses of a STUN server, and what the parser takes from them. -/

namespace DistributedOs.Traversal

open Semantics
open Discovery (Ipv4Addr)

/-- An attribute as a server writes it. The bytes of the padding may be any. -/
structure WireAttribute where
  type : UInt16
  value : Bytes
  pad : Bytes
  length_value : value.length < 65536
  length_pad : pad.length = padding value.length

def WireAttribute.encode (attr : WireAttribute) : Bytes :=
  toBe 2 attr.type.toNat ++ (toBe 2 attr.value.length ++ (attr.value ++ attr.pad))

def IpAddr.family : IpAddr → UInt8
  | .v4 _ => 0x01
  | .v6 _ => 0x02

/-- The bytes of the address, hidden behind the cookie and the transaction id. -/
def IpAddr.hidden (txId : TxId) : IpAddr → Bytes
  | .v4 ip => [ip.a ^^^ 0x21, ip.b ^^^ 0x12, ip.c ^^^ 0xA4, ip.d ^^^ 0x42]
  | .v6 ip => (xored txId ip).octets

theorem IpAddr.length_hidden (txId : TxId)
    (ip : IpAddr) : (ip.hidden txId).length = 4 ∨ (ip.hidden txId).length = 16 := by
  cases ip with
  | v4 => exact .inl rfl
  | v6 ip => exact .inr (xored txId ip).length_octets

def xorMappedAddress (txId : TxId) (addr : SocketAddr) : WireAttribute where
  type := 0x0020
  value := 0 :: addr.ip.family :: (toBe 2 (addr.port ^^^ 0x2112).toNat ++ addr.ip.hidden txId)
  pad := []
  length_value := by
    rcases addr.ip.length_hidden txId with size | size <;> simp [size]
  length_pad := by
    rcases addr.ip.length_hidden txId with size | size <;> simp [size, padding]

def bindingSuccess (txId : TxId) (attrs : List WireAttribute) : Bytes :=
  let body := attrs.flatMap WireAttribute.encode
  toBe 2 0x0101 ++ (toBe 2 body.length ++ (magicBytes ++ (txId.bytes ++ body)))

/-- The parser takes an address from the attribute. -/
def WireAttribute.Deciding (attr : WireAttribute) : Prop :=
  attr.type = 0x0020 ∧ 8 ≤ attr.value.length ∧ (attr.value.getD 1 0 = 0x01 ∨ attr.value.getD 1 0 = 0x02)

/-- What the parser sees of the attribute before the rest of a datagram. -/
def WireAttribute.seen (attr : WireAttribute) (rest : Bytes) : Attribute where
  type := attr.type.toNat
  length := attr.value.length
  onward := attr.value ++ (attr.pad ++ rest)

variable {attr : WireAttribute}

theorem readAttribute_encode (attr : WireAttribute) (rest : Bytes) :
    readAttribute (attr.encode ++ rest) = some (attr.seen rest) := by
  have layout : attr.encode ++ rest =
      toBe 2 attr.type.toNat ++ (toBe 2 attr.value.length ++ (attr.value ++ (attr.pad ++ rest))) := by
    simp only [WireAttribute.encode, List.append_assoc]
  have type : (attr.encode ++ rest).take 2 = toBe 2 attr.type.toNat := by
    rw [layout, List.take_left' (length_toBe _ _)]
  have length : ((attr.encode ++ rest).drop 2).take 2 = toBe 2 attr.value.length := by
    rw [layout, List.drop_left' (length_toBe _ _), List.take_left' (length_toBe _ _)]
  have onward : (attr.encode ++ rest).drop 4 = attr.value ++ (attr.pad ++ rest) := by
    rw [layout, ← List.append_assoc, List.drop_left' (by simp)]
  have size : (attr.encode ++ rest).length = 4 + attr.value.length + attr.pad.length + rest.length := by
    rw [layout]
    simp only [List.length_append, length_toBe]
    omega
  have typeNumber : ofBe (toBe 2 attr.type.toNat) = attr.type.toNat := ofBe_toBe_of_lt attr.type.toNat_lt
  have lengthNumber : ofBe (toBe 2 attr.value.length) = attr.value.length :=
    ofBe_toBe_of_lt attr.length_value
  simp only [readAttribute, type, length, onward, size, typeNumber, lengthNumber]
  rw [if_pos (by omega)]
  rfl

theorem rest_seen (attr : WireAttribute) (rest : Bytes) : (attr.seen rest).rest = rest := by
  simp only [WireAttribute.seen, Attribute.rest]
  rw [← attr.length_pad, ← List.append_assoc, List.drop_left' List.length_append]

theorem getD_onward (rest : Bytes) (within : index < attr.value.length) :
    (attr.seen rest).onward.getD index 0 = attr.value.getD index 0 := by
  simp only [WireAttribute.seen, List.getD_eq_getElem?_getD, List.getElem?_append_left within]

theorem deciding_seen (attr : WireAttribute) (rest : Bytes) : (attr.seen rest).Deciding ↔
      attr.Deciding := by
  have type : (attr.seen rest).type = 0x0020 ↔ attr.type = 0x0020 := UInt16.toNat_inj (b := 0x0020)
  constructor
  · intro deciding
    have family := deciding.2.2
    have large : 8 ≤ attr.value.length := deciding.2.1
    rw [Attribute.family, getD_onward rest (by omega)] at family
    exact ⟨type.mp deciding.1, large, family⟩
  · intro deciding
    have family := deciding.2.2
    have large := deciding.2.1
    rw [← getD_onward rest (by omega)] at family
    exact ⟨type.mpr deciding.1, large, family⟩

theorem attributes_encode (attr : WireAttribute) (rest : Bytes) :
    attributes (attr.encode ++ rest) = attr.seen rest :: attributes rest := by
  rw [attributes]
  split
  · rename_i nothing
    rw [readAttribute_encode] at nothing
    cases nothing
  · rename_i read
    rw [readAttribute_encode] at read
    cases read
    rw [rest_seen]

theorem find?_attributes_encode (attrs : List WireAttribute)
    (passed : ∀ attr ∈ attrs, ¬ attr.Deciding) (rest : Bytes) :
    (attributes (attrs.flatMap WireAttribute.encode ++ rest)).find? (fun attr => attr.Deciding) =
      (attributes rest).find? fun attr => attr.Deciding := by
  induction attrs with
  | nil => rfl
  | cons attr attrs ih =>
    rw [List.forall_mem_cons] at passed
    have past := decide_eq_false
      (mt (deciding_seen attr (attrs.flatMap WireAttribute.encode ++ rest)).mp passed.1)
    rw [List.flatMap_cons, List.append_assoc, attributes_encode, List.find?_cons, past]
    exact ih passed.2

theorem deciding_xorMappedAddress (txId : TxId)
    (addr : SocketAddr) : (xorMappedAddress txId addr).Deciding := by
  refine ⟨rfl, ?_, ?_⟩
  · rcases addr.ip.length_hidden txId with size | size <;> simp [xorMappedAddress, size]
  · cases same : addr.ip <;> simp [xorMappedAddress, same, IpAddr.family]

theorem xored_xored (txId : TxId) (ip : Ipv6Addr) : xored txId (xored txId ip) = ip := by
  obtain ⟨_, sixteen⟩ := ip
  have key : (magicBytes ++ txId.bytes).length = 16 := by
    rw [List.length_append, txId.length_bytes]
    rfl
  simp only [xored, Ipv6Addr.mk.injEq]
  generalize magicBytes ++ txId.bytes = key_ at key
  apply List.ext_getElem
  · simp [sixteen, key]
  · intro i _ _
    simp only [List.getElem_zipWith, UInt8.xor_assoc, UInt8.xor_self, UInt8.xor_zero]

theorem port_seen (txId : TxId) (addr : SocketAddr) (rest : Bytes) :
    UInt16.ofNat (ofBe ((((xorMappedAddress txId addr).seen rest).onward.drop 2).take 2)) ^^^
      0x2112 = addr.port := by
  have bytes : (((xorMappedAddress txId addr).seen rest).onward.drop 2).take 2 = toBe 2
      (addr.port ^^^ 0x2112).toNat := rfl
  have number : ofBe (toBe 2 (addr.port ^^^ 0x2112).toNat) = (addr.port ^^^ 0x2112).toNat :=
    ofBe_toBe_of_lt (UInt16.toNat_lt _)
  rw [bytes, number, UInt16.ofNat_toNat, UInt16.xor_assoc, UInt16.xor_self, UInt16.xor_zero]

theorem address_seen (txId : TxId) (addr : SocketAddr) (rest : Bytes) :
    ((xorMappedAddress txId addr).seen rest).address txId = .ok addr := by
  have port := port_seen txId addr rest
  obtain ⟨ip, number⟩ := addr
  cases ip with
  | v4 ip =>
    rw [Attribute.address_ipv4 rfl, port]
    have byte (a k : UInt8) : a ^^^ k ^^^ k = a := by
      rw [UInt8.xor_assoc, UInt8.xor_self, UInt8.xor_zero]
    have bytes : ((xorMappedAddress txId ⟨.v4 ip, number⟩).seen rest).onward =
        0 :: 1 :: (toBe 2 (number ^^^ 0x2112).toNat ++
          ([ip.a ^^^ 0x21, ip.b ^^^ 0x12, ip.c ^^^ 0xA4, ip.d ^^^ 0x42] ++ rest)) := rfl
    rw [bytes]
    simp [toBe, byte]
  | v6 ip =>
    have size := (xored txId ip).length_octets
    have bytes : (((xorMappedAddress txId ⟨.v6 ip, number⟩).seen rest).onward.drop 4).take 16 =
        (xored txId ip).octets :=
      List.take_left' size
    have sixteen : 20 ≤ ((xorMappedAddress txId ⟨.v6 ip, number⟩).seen rest).onward.length := by
      simp only [WireAttribute.seen, xorMappedAddress, IpAddr.hidden, List.length_append,
        List.length_cons, length_toBe, size]
      omega
    obtain ⟨_, address⟩ := Attribute.address_ipv6 rfl sixteen txId
    rw [address, port]
    simp only [bytes]
    exact congrArg (fun ip => Except.ok (SocketAddr.mk (.v6 ip) number)) (xored_xored txId ip)

theorem answers_bindingSuccess (txId : TxId) (attrs : List WireAttribute) :
    Answers (bindingSuccess txId attrs) txId := by
  refine ⟨?_, rfl, ?_⟩
  · simp only [bindingSuccess, List.length_append, length_toBe, length_magicBytes, txId.length_bytes]
    omega
  · exact List.take_left' txId.length_bytes

theorem drop_bindingSuccess (txId : TxId) (attrs : List WireAttribute) :
    (bindingSuccess txId attrs).drop 20 = attrs.flatMap WireAttribute.encode := by
  have header :
      (toBe 2 0x0101 ++ toBe 2 (attrs.flatMap WireAttribute.encode).length ++ magicBytes ++
        txId.bytes).length = 20 := by
    simp only [List.length_append, length_toBe, length_magicBytes, txId.length_bytes]
  rw [bindingSuccess, ← List.append_assoc, ← List.append_assoc, ← List.append_assoc,
    List.drop_left' header]

/-- Whatever other attributes the response has, the address comes back. -/
theorem parseStunResponse_bindingSuccess (txId : TxId) (addr : SocketAddr)
    (preceding following : List WireAttribute) (passed : ∀ attr ∈ preceding, ¬ attr.Deciding) :
    parseStunResponse
      (bindingSuccess txId (preceding ++ xorMappedAddress txId addr :: following)) txId =
      .ok (.ok addr) := by
  have decides : decidingAttribute
    (bindingSuccess txId (preceding ++ xorMappedAddress txId addr :: following)) =
      some ((xorMappedAddress txId addr).seen (following.flatMap WireAttribute.encode)) := by
    have deciding := (deciding_seen _ (following.flatMap WireAttribute.encode)).mpr
      (deciding_xorMappedAddress txId addr)
    rw [decidingAttribute, drop_bindingSuccess, List.flatMap_append,
      find?_attributes_encode preceding passed,
      List.flatMap_cons, attributes_encode, List.find?_cons, decide_eq_true deciding]
  rw [parseStunResponse_of_answers (answers_bindingSuccess txId _), decides]
  dsimp only
  rw [address_seen]
  rfl

section Sample

def sampleTxId : TxId := ⟨List.replicate 12 1, rfl⟩

/-- SOFTWARE, padded with three bytes. -/
def software : WireAttribute := ⟨0x8022, [0x78, 0x79, 0x6E, 0x63, 0x31], [0, 0, 0], by decide, rfl⟩

def sampleAddr : SocketAddr := ⟨.v4 ⟨192, 168, 1, 50⟩, 3478⟩

theorem parseStunResponse_software :
    parseStunResponse
      (bindingSuccess sampleTxId ([software] ++ xorMappedAddress sampleTxId sampleAddr :: []))
      sampleTxId =
      .ok (.ok sampleAddr) :=
  parseStunResponse_bindingSuccess sampleTxId sampleAddr [software] [] (by
    intro _ member
    cases List.mem_singleton.mp member
    exact fun deciding => absurd deciding.1 (by decide))

/-- Of two addresses the parser takes the first. -/
theorem parseStunResponse_two_addresses :
    ¬ ∀ (txId : TxId) (addr : SocketAddr) (preceding : List WireAttribute),
      parseStunResponse (bindingSuccess txId (preceding ++ [xorMappedAddress txId addr])) txId = .ok
        (.ok addr) := by
  intro every
  have second := every sampleTxId sampleAddr [xorMappedAddress sampleTxId ⟨.v4 ⟨10, 0, 0, 1⟩, 80⟩]
  have first : parseStunResponse
    (bindingSuccess sampleTxId ([xorMappedAddress sampleTxId ⟨.v4 ⟨10, 0, 0, 1⟩, 80⟩] ++
      [xorMappedAddress sampleTxId sampleAddr])) sampleTxId =
        .ok (.ok ⟨.v4 ⟨10, 0, 0, 1⟩, 80⟩) := by decide +kernel
  rw [first] at second
  exact absurd second (by decide)

end Sample

end DistributedOs.Traversal
