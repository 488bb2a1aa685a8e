import DistributedOs.Control.Metrics
import DistributedOs.Transfer.Handshake

/-! The control loop's classifier and decision engine, without the texts of their reasons. -/

namespace DistributedOs.Control

open Semantics
open DistributedOs.Transfer (TransportMode)

variable {F : Type} [Floating F]

inductive Bottleneck where
  | networkCongestion
  | receiverSlow
  | cpuBound
  | thermalThrottling
  | linkLimited
  | unknown
  deriving DecidableEq

structure ClassificationResult (F : Type) where
  bottleneck : Bottleneck
  confidence : F

structure Classifier where
  confirmationThreshold : Nat
  thermalCounter : Nat
  linkCounter : Nat

def Classifier.new : Classifier :=
  { confirmationThreshold := 3, thermalCounter := 0, linkCounter := 0 }

/-- `(latest - base) / base`, of a base that has been measured. -/
def trend (latest base : F) : F := if 0.0 < base then (latest - base) / base else 0.0

/-- `classify`, of the recent metrics with the latest ones first. -/
def Classifier.classify (classifier : Classifier) :
    List (NetworkMetrics F) → ClassificationResult F × Classifier
  | latest :: prev :: older :: _ =>
    let rttTrend := trend latest.rttMs prev.rttMs
    let throughputTrendShort := trend latest.throughputMbps prev.throughputMbps
    let throughputTrendLong := trend latest.throughputMbps older.throughputMbps
    let hasLoss := decide ((0.5 : F) < latest.packetLossPct)
    let hasSignificantLoss := decide ((2.0 : F) < latest.packetLossPct)
    let queueHigh := decide ((5.0 : F) < latest.queueDelayMs)
    let cpuKnown := decide ((1.0 : F) < latest.cpuUsagePct)
    let cpuHigh := cpuKnown && (70.0 : F) < latest.cpuUsagePct
    let throughputLow := decide (latest.throughputMbps < (50.0 : F))
    let rttStable := decide (Floating.abs rttTrend < (0.03 : F))
    let cpuIndicated :=
      throughputTrendShort < (-0.1 : F) && !hasLoss && throughputTrendLong < (-0.05 : F) &&
      Floating.abs rttTrend < (0.05 : F)
    if (0.15 : F) < rttTrend && hasSignificantLoss then
      ({ bottleneck := .networkCongestion, confidence := 0.85 }, classifier)
    else if throughputLow && !hasLoss && queueHigh then
      ({ bottleneck := .receiverSlow, confidence := 0.80 }, classifier)
    else if (cpuHigh || (!cpuKnown && cpuIndicated && queueHigh)) &&
        throughputTrendShort < (-0.1 : F) && !hasLoss then
      ({ bottleneck := .cpuBound, confidence := if cpuKnown then 0.75 else 0.55 }, classifier)
    else
      let thermalCounter :=
        if throughputTrendLong < (-0.05 : F) && rttStable then classifier.thermalCounter + 1 else 0
      if classifier.confirmationThreshold ≤ thermalCounter then
        ({ bottleneck := .thermalThrottling, confidence := 0.70 },
          { classifier with thermalCounter := 0 })
      else
        let linkCounter :=
          if !hasLoss && latest.rttMs < (30.0 : F) &&
            Floating.abs throughputTrendShort < (0.05 : F) then classifier.linkCounter + 1
          else 0
        if classifier.confirmationThreshold ≤ linkCounter then
          ({ bottleneck := .linkLimited, confidence := 0.75 },
            { classifier with thermalCounter, linkCounter := 0 })
        else ({ bottleneck := .unknown, confidence := 0.3 },
          { classifier with thermalCounter, linkCounter })
  | _ => ({ bottleneck := .unknown, confidence := 0.0 }, classifier)

/-- The tuning configuration of the transfer engine. -/
structure TuningConfig (F : Type) where
  chunkSizeBytes : Nat
  parallelStreams : Nat
  sendBufferKb : Nat
  recvBufferKb : Nat
  writeBatchSize : Nat
  workerThreads : Nat
  throughputLimitMbps : Option F
  transportMode : TransportMode

/-- The default, on a machine with so many processors. -/
def TuningConfig.default (cpus : Nat) : TuningConfig F :=
  { chunkSizeBytes := 1048576, parallelStreams := 1, sendBufferKb := 4096, recvBufferKb := 4096,
    writeBatchSize := 4
    workerThreads := max cpus 2, throughputLimitMbps := none, transportMode := .tcpBuffered }

structure ControlDecision (F : Type) where
  newCwnd : Option Nat
  newChunkSize : Option Nat
  parallelism : Option Nat
  pacingRate : Option F
  sendBufferKb : Option Nat

def clampNat (low high x : Nat) : Nat := if x < low then low else if high < x then high else x

def clampChunk (size : Nat) : Nat := clampNat (16 * 1024) (2 * 1024 * 1024) size

def clampParallelism (streams : Nat) : Nat := clampNat 1 8 streams

def clampRate (rate : F) : F := Floating.clamp 10.0 2000.0 rate

def limitStep (old new maxDelta : F) : F :=
  if old < new then min (old + maxDelta) new else max (old - maxDelta) new

structure DecisionEngine where
  cooldownMs : Nat
  lastAdjustment : Nat

/-- `new`, half a second after an adjustment that never was. -/
def DecisionEngine.new (now : Nat) : DecisionEngine :=
  { cooldownMs := 500, lastAdjustment := now - 500000000 }

/-- `as usize` of a share of the chunk size. -/
def chunkShare (config : TuningConfig F) (share : F) : Nat :=
  clampChunk (Floating.trunc ((config.chunkSizeBytes : F) * share))

def pace (oldRate target : F) : F := clampRate (limitStep oldRate target (oldRate * 0.15))

def decision (config : TuningConfig F) : Bottleneck → Option (ControlDecision F)
  | .networkCongestion =>
    let oldRate := config.throughputLimitMbps.getD 1000.0
    let newRate := pace oldRate (max (oldRate * 0.7) 50.0)
    some { newCwnd := some (Floating.trunc (newRate * 1024.0))
           newChunkSize := some (chunkShare config 0.75)
           parallelism := some (clampParallelism
             (Floating.trunc (max ((config.parallelStreams : F) - 1.0) 1.0)))
           pacingRate := some newRate
           sendBufferKb := some (Floating.trunc ((config.sendBufferKb : F) * 0.8)) }
  | .receiverSlow =>
    let oldRate := config.throughputLimitMbps.getD 1000.0
    some { newCwnd := none
           newChunkSize := some (chunkShare config 0.8)
           parallelism := some (clampParallelism (max (config.parallelStreams - 1) 1))
           pacingRate := some (pace oldRate (max (oldRate * 0.85) 50.0))
           sendBufferKb := some config.sendBufferKb }
  | .cpuBound =>
    some { newCwnd := none
           newChunkSize := some (clampChunk config.chunkSizeBytes)
           parallelism := some (clampParallelism (max 1 (config.parallelStreams - 2)))
           pacingRate := none
           sendBufferKb := none }
  | .thermalThrottling =>
    let oldRate := config.throughputLimitMbps.getD 1000.0
    some { newCwnd := none
           newChunkSize := some (chunkShare config 0.9)
           parallelism := some (clampParallelism (max 1 (config.parallelStreams - 1)))
           pacingRate := some (pace oldRate (max (oldRate * 0.9) 50.0))
           sendBufferKb := none }
  | .linkLimited =>
    let oldRate := config.throughputLimitMbps.getD 1000.0
    some { newCwnd := none
           newChunkSize := some (chunkShare config 1.1)
           parallelism := some (clampParallelism config.parallelStreams)
           pacingRate := some (pace oldRate (min (oldRate * 1.05) 2000.0))
           sendBufferKb := none }
  | .unknown => none

/-- `decide_for_transport` at an instant; `quic` says whether that feature is built in. -/
def DecisionEngine.decideForTransport (engine : DecisionEngine) (quic : Bool) (now : Nat)
    (classification : ClassificationResult F) (config : TuningConfig F)
    (transport : Option TransportMode) :
    Option (ControlDecision F) × DecisionEngine :=
  if (now - engine.lastAdjustment) / 1000000 < engine.cooldownMs then (none, engine)
  else if classification.confidence < (0.4 : F) then (none, engine)
  else
    match decision config classification.bottleneck with
    | none => (none, engine)
    | some decision =>
      let decision :=
        if quic && transport = some .quic then
          { decision with newCwnd := none, newChunkSize := none, sendBufferKb := none }
        else decision
      (some decision, { engine with lastAdjustment := now })

def ControlDecision.apply (decision : ControlDecision F) (config : TuningConfig F) :
    TuningConfig F :=
  let limit := match decision.newCwnd with
    | some cwnd => some (clampRate ((cwnd : F) * 8.0 / 1024.0 / 1024.0))
    | none => config.throughputLimitMbps
  { config with
    chunkSizeBytes := (decision.newChunkSize.map clampChunk).getD config.chunkSizeBytes
    parallelStreams := (decision.parallelism.map clampParallelism).getD config.parallelStreams
    throughputLimitMbps := match decision.pacingRate with
      | some rate => some (clampRate rate)
      | none => limit
    sendBufferKb := decision.sendBufferKb.getD config.sendBufferKb
    recvBufferKb := decision.sendBufferKb.getD config.recvBufferKb }

end DistributedOs.Control
