import DistributedOs.Semantics.Codec
import Mathlib.Data.Finset.Card

/-! The datagrams of the user-space transports. The two protocols differ in their frame types
and in the stream id that stands before the sequence number of a QUIC-style data packet. -/

namespace DistributedOs.Datagram

open Semantics

inductive Protocol where
  | udp
  | quic (numStreams : UInt64)
  deriving DecidableEq

structure FrameTypes where
  handshakeReq : UInt8
  handshakeResp : UInt8
  data : UInt8
  ack : UInt8
  fin : UInt8
  finAck : UInt8

def Protocol.types : Protocol → FrameTypes
  | .udp => { handshakeReq := 1, handshakeResp := 2, data := 3, ack := 4, fin := 5, finAck := 6 }
  | .quic _ =>
    { handshakeReq := 10, handshakeResp := 11, data := 12, ack := 13, fin := 14, finAck := 15 }

/-- `UDP_CHUNK_SIZE` and `QUIC_CHUNK_SIZE`. -/
def chunkSize : Nat := 8192

/-- The value on the channel of acknowledgements that stands for a FIN_ACK. -/
def finAckSignal : Nat := 99999999

/-- A file read into memory, where a buffer has at most `isize::MAX` bytes. -/
structure FileData where
  bytes : Bytes
  addressable : bytes.length < 2 ^ 63

def numChunks (size : Nat) : Nat := (size + chunkSize - 1) / chunkSize

def FileData.numChunks (file : FileData) : Nat := Datagram.numChunks file.bytes.length

/-- `&file_data[offset..end]`, where the end is cut at the length of the file. -/
def FileData.chunk (file : FileData) (seq : Nat) : Bytes :=
  (file.bytes.drop (seq * chunkSize)).take chunkSize

namespace Protocol

def handshakeReq (protocol : Protocol) (totalSize : Nat) : Bytes :=
  match protocol with
  | .udp => protocol.types.handshakeReq :: toBe 8 totalSize
  | .quic numStreams => protocol.types.handshakeReq :: toBe 8 totalSize ++ [numStreams.toUInt8]

def handshakeResp (protocol : Protocol) : Bytes := [protocol.types.handshakeResp]

/-- What stands between the frame type and the sequence number; `next_seq % num_streams`
panics without streams. -/
def streamId : Protocol → Nat → Option Bytes
  | .udp, _ => some []
  | .quic numStreams, seq => if numStreams = 0 then none else some [UInt8.ofNat (seq % numStreams.toNat)]

def dataPacket (protocol : Protocol) (file : FileData) (seq : Nat) : Option Bytes :=
  (protocol.streamId seq).map fun stream =>
    protocol.types.data :: (stream ++ (toBe 8 seq ++ (toBe 2 (file.chunk seq).length ++ file.chunk seq)))

def ack (protocol : Protocol) (seq : Nat) : Bytes := protocol.types.ack :: toBe 8 seq

def fin (protocol : Protocol) : Bytes := [protocol.types.fin]

def finAck (protocol : Protocol) : Bytes := [protocol.types.finAck]

/-- Where the sequence number of a data packet starts. -/
def headerLen : Protocol → Nat
  | .udp => 1
  | .quic _ => 2

@[simp] theorem data_ne_handshakeReq (protocol : Protocol) :
    protocol.types.data ≠ protocol.types.handshakeReq := by
  cases protocol <;> simp [types]

@[simp] theorem fin_ne_handshakeReq (protocol : Protocol) :
    protocol.types.fin ≠ protocol.types.handshakeReq := by
  cases protocol <;> simp [types]

@[simp] theorem fin_ne_data (protocol : Protocol) : protocol.types.fin ≠ protocol.types.data := by
  cases protocol <;> simp [types]

@[simp] theorem handshakeResp_ne_finAck (protocol : Protocol) :
    protocol.types.handshakeResp ≠ protocol.types.finAck := by
  cases protocol <;> simp [types]

end Protocol

variable {file : FileData} {seq : Nat}

theorem length_chunk (file : FileData) (seq : Nat) :
    (file.chunk seq).length = min chunkSize (file.bytes.length - seq * chunkSize) := by
  simp [FileData.chunk]

theorem numChunks_lt : seq < numChunks size ↔ seq * chunkSize < size := by
  unfold numChunks chunkSize
  omega

theorem chunk_within (file : FileData) (seq : Nat) (real : seq < file.numChunks) :
    seq * chunkSize + (file.chunk seq).length ≤ file.bytes.length := by
  have start : seq * chunkSize < file.bytes.length := numChunks_lt.mp real
  rw [length_chunk]
  omega

theorem seq_lt_of_real (real : seq < file.numChunks) : seq < 256 ^ 8 := by
  have start : seq * chunkSize < file.bytes.length := numChunks_lt.mp real
  have bound := file.addressable
  unfold chunkSize at start
  omega

theorem length_chunk_lt (file : FileData) (seq : Nat) : (file.chunk seq).length < 256 ^ 2 := by
  rw [length_chunk]
  unfold chunkSize
  omega

theorem mem_of_card_le {numbers : Finset Nat} (within : ∀ seq ∈ numbers, seq < count)
    (enough : count ≤ numbers.card) (less : seq < count) : seq ∈ numbers := by
  have whole : numbers = Finset.range count := by
    apply Finset.eq_of_subset_of_card_le
    · exact fun other member => Finset.mem_range.mpr (within other member)
    · rwa [Finset.card_range]
  rw [whole]
  exact Finset.mem_range.mpr less

end DistributedOs.Datagram
