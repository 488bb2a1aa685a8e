import DistributedOs.Session.Manager
import Mathlib.Algebra.Order.Ring.Unbundled.Rat
import Mathlib.Order.Interval.Set.Basic

/-! The capabilities two peers exchange and the options each of them computes from both.
Throughputs are exact rationals. -/

namespace DistributedOs.Transfer

open DistributedOs.Session

structure FeatureFlags where
  parallelUpload : Bool := true
  parallelDownload : Bool := false
  resume : Bool := true
  compression : Bool := false
  checksum : Bool := true
  zeroCopy : Bool := false
  reliable : Bool := true

structure CapabilityLimits where
  maxChunkSizeBytes : Nat := 2 * 1024 * 1024
  minChunkSizeBytes : Nat := 16 * 1024
  maxParallelStreams : Nat := 8
  maxThroughputMbps : Option ℚ := none
  minThroughputMbps : Option ℚ := some 10
  maxSendBufferKb : Nat := 8192

structure HandshakePayload where
  protocolVersion : String := ""
  nodeId : String := ""
  nodeName : String := ""
  direction : TransferDirection := .upload
  features : FeatureFlags := {}
  limits : CapabilityLimits := {}

inductive TransportMode where
  | tcpBuffered
  | tcpZeroCopy
  | quic
  | udpCustom
  deriving DecidableEq, Repr

/-- The options without the cancel token and the progress callback. -/
structure TransferOptions where
  parallel : Bool := false
  parallelStreams : Nat := 1
  chunkSize : Nat := 1048576
  resume : Bool := false
  zeroCopy : Bool := false
  checksum : Bool := true
  compression : Bool := false
  sendBufferKb : Nat := 4096
  recvBufferKb : Nat := 4096
  writeBatchSize : Nat := 4
  throughputLimitMbps : Option ℚ := none
  reliable : Bool := false
  transportMode : TransportMode := .tcpBuffered
  resumeOffset : Nat := 0

/-- The lower of two limits; no limit is above every other. -/
def lowerLimit : Option ℚ → Option ℚ → Option ℚ
  | some a, some b => some (min a b)
  | some a, none => some a
  | none, some b => some b
  | none, none => none

def negotiate (here remote : HandshakePayload) : TransferOptions :=
  let agreedChunk := max (min remote.limits.maxChunkSizeBytes here.limits.maxChunkSizeBytes)
    (max remote.limits.minChunkSizeBytes here.limits.minChunkSizeBytes)
  let agreedParallel := min remote.limits.maxParallelStreams here.limits.maxParallelStreams
  let enableParallel := here.features.parallelUpload && remote.features.parallelUpload
  let useReliable := here.features.reliable && remote.features.reliable
  let limit := lowerLimit here.limits.maxThroughputMbps remote.limits.maxThroughputMbps
  { chunkSize := agreedChunk
    parallelStreams := agreedParallel
    parallel := enableParallel && agreedParallel > 1
    checksum := here.features.checksum && remote.features.checksum
    compression := here.features.compression && remote.features.compression
    resume := here.features.resume && remote.features.resume
    zeroCopy := here.features.zeroCopy && remote.features.zeroCopy
    reliable := useReliable
    throughputLimitMbps := limit
    sendBufferKb := min here.limits.maxSendBufferKb remote.limits.maxSendBufferKb
    recvBufferKb := min here.limits.maxSendBufferKb remote.limits.maxSendBufferKb }

/-- The transports are left out, `negotiate` does not read them. -/
def buildPayload (version nodeId nodeName : String) (direction : TransferDirection)
    (options : TransferOptions) :
    HandshakePayload :=
  { protocolVersion := version
    nodeId
    nodeName
    direction
    features :=
      { parallelUpload := options.parallel
        parallelDownload := false
        resume := options.resume
        compression := options.compression
        checksum := options.checksum
        zeroCopy := options.zeroCopy
        reliable := options.reliable }
    limits :=
      { maxChunkSizeBytes := 2 * 1024 * 1024
        minChunkSizeBytes := 16 * 1024
        maxParallelStreams := min (max options.parallelStreams 1) 8
        maxThroughputMbps := options.throughputLimitMbps
        minThroughputMbps := some 10
        maxSendBufferKb := max options.sendBufferKb options.recvBufferKb } }

def CapabilityLimits.chunkSizes (limits : CapabilityLimits) : Set Nat :=
  Set.Icc limits.minChunkSizeBytes limits.maxChunkSizeBytes

/-- The numbers of streams a side takes. -/
def CapabilityLimits.streamCounts (limits : CapabilityLimits) : Set Nat :=
  Set.Icc 1 limits.maxParallelStreams

/-- A negotiated number is below both maxima, and one both sides take if there is one. -/
structure WithinBoth (first second : Set Nat) (firstMax secondMax agreed : Nat) : Prop where
  atMostFirst : agreed ≤ firstMax
  atMostSecond : agreed ≤ secondMax
  common : (first ∩ second).Nonempty → agreed ∈ first ∩ second

/-- Both ends compute the same options, and these respect the limits of both. -/
structure Agree (a b : HandshakePayload) : Prop where
  same : negotiate a b = negotiate b a
  chunkSize : WithinBoth a.limits.chunkSizes b.limits.chunkSizes a.limits.maxChunkSizeBytes
    b.limits.maxChunkSizeBytes (negotiate a b).chunkSize
  parallelStreams : WithinBoth a.limits.streamCounts b.limits.streamCounts a.limits.maxParallelStreams
    b.limits.maxParallelStreams (negotiate a b).parallelStreams

variable {a b : HandshakePayload}

theorem lowerLimit_comm (first second : Option ℚ) :
    lowerLimit first second = lowerLimit second first := by
  cases first with
  | none => cases second <;> rfl
  | some a =>
    cases second with
    | none => rfl
    | some b => exact congrArg some (min_comm a b)

theorem negotiate_comm (a b : HandshakePayload) : negotiate a b = negotiate b a := by
  have streams := min_comm b.limits.maxParallelStreams a.limits.maxParallelStreams
  unfold negotiate
  rw [min_comm b.limits.maxChunkSizeBytes, max_comm b.limits.minChunkSizeBytes, streams,
    lowerLimit_comm a.limits.maxThroughputMbps, min_comm a.limits.maxSendBufferKb,
    Bool.and_comm a.features.parallelUpload,
    Bool.and_comm a.features.checksum, Bool.and_comm a.features.compression,
    Bool.and_comm a.features.resume,
    Bool.and_comm a.features.zeroCopy, Bool.and_comm a.features.reliable]

theorem negotiate_streams (a b : HandshakePayload) :
    WithinBoth a.limits.streamCounts b.limits.streamCounts a.limits.maxParallelStreams
      b.limits.maxParallelStreams (negotiate a b).parallelStreams := by
  refine ⟨min_le_right _ _, min_le_left _ _, ?_⟩
  rintro ⟨_, ⟨one, first⟩, _, second⟩
  have positive : 1 ≤ (negotiate a b).parallelStreams := le_min (one.trans second) (one.trans first)
  exact ⟨⟨positive, min_le_right _ _⟩, positive, min_le_left _ _⟩

theorem chunkSizes_meet : (a.limits.chunkSizes ∩ b.limits.chunkSizes).Nonempty ↔
    max a.limits.minChunkSizeBytes b.limits.minChunkSizeBytes ≤
      min a.limits.maxChunkSizeBytes b.limits.maxChunkSizeBytes := by
  rw [CapabilityLimits.chunkSizes, CapabilityLimits.chunkSizes, Set.Icc_inter_Icc, Set.nonempty_Icc]

theorem negotiate_chunkSize (meet : (a.limits.chunkSizes ∩ b.limits.chunkSizes).Nonempty) :
    (negotiate a b).chunkSize = min a.limits.maxChunkSizeBytes b.limits.maxChunkSizeBytes := by
  have ordered := chunkSizes_meet.mp meet
  simp only [negotiate]
  omega

/-- The two ends agree within the limits of both exactly when the chunk-size ranges meet. -/
theorem agree_iff (a b : HandshakePayload) :
    Agree a b ↔ (a.limits.chunkSizes ∩ b.limits.chunkSizes).Nonempty := by
  constructor
  · intro agree
    have first := agree.chunkSize.atMostFirst
    have second := agree.chunkSize.atMostSecond
    refine chunkSizes_meet.mpr ?_
    simp only [negotiate] at first second
    omega
  · intro meet
    have ordered := chunkSizes_meet.mp meet
    have chosen := negotiate_chunkSize meet
    refine ⟨negotiate_comm a b, ⟨by omega, by omega, fun _ => ?_⟩, negotiate_streams a b⟩
    rw [chosen]
    refine ⟨⟨?_, ?_⟩, ?_, ?_⟩ <;> omega

/-- One side takes chunks of at most 8 bytes, the other of at least 16. -/
theorem disjoint_chunkSizes :
    ¬ Agree { limits := { minChunkSizeBytes := 4, maxChunkSizeBytes := 8 } }
      { limits := { minChunkSizeBytes := 16, maxChunkSizeBytes := 32 } } := by
  intro agree
  exact absurd agree.chunkSize.atMostFirst (by decide)

end DistributedOs.Transfer
