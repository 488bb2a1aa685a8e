import DistributedOs.Semantics.Floating

/-! What the control loop measures: a window of counters, and the snapshots taken of it. -/

namespace DistributedOs.Control

open Semantics

variable {F : Type} [Floating F]

structure Ewma (F : Type) where
  value : F
  alpha : F
  initialized : Bool

def Ewma.new (alpha : F) : Ewma F := { value := 0.0, alpha, initialized := false }

def Ewma.update (ewma : Ewma F) (sample : F) : Ewma F :=
  if ewma.initialized then { ewma with value := ewma.alpha * sample + (1.0 - ewma.alpha) * ewma.value }
  else { ewma with value := sample, initialized := true }

/-- Instants are counted in nanoseconds. -/
structure NetworkMetrics (F : Type) where
  throughputMbps : F
  rttMs : F
  packetLossPct : F
  inFlightBytes : UInt64
  cwndBytes : UInt64
  retransmits : UInt32
  queueDelayMs : F
  cpuUsagePct : F
  timestamp : Nat

structure MetricsHistory (F : Type) where
  samples : List (NetworkMetrics F)
  maxSamples : Nat
  windowBytes : UInt64
  windowGoodputBytes : UInt64
  windowRetransmits : UInt32
  windowWriteUs : UInt64
  windowWriteCount : UInt64
  windowStart : Nat
  lastRttMs : F
  ewmaThroughput : Ewma F
  ewmaRtt : Ewma F
  ewmaQueueDelay : Ewma F

namespace MetricsHistory

def new (max : Nat) (now : Nat) : MetricsHistory F :=
  { samples := [], maxSamples := max, windowBytes := 0, windowGoodputBytes := 0, windowRetransmits := 0
    windowWriteUs := 0, windowWriteCount := 0, windowStart := now, lastRttMs := 50.0
    ewmaThroughput := .new 0.25, ewmaRtt := .new 0.25, ewmaQueueDelay := .new 0.25 }

def recordWrite (history : MetricsHistory F) (bytes durationUs : UInt64) (isRetransmit : Bool) :
    MetricsHistory F :=
  { history with
    windowBytes := history.windowBytes + bytes
    windowGoodputBytes := if isRetransmit then history.windowGoodputBytes
      else history.windowGoodputBytes + bytes
    windowWriteUs := history.windowWriteUs + durationUs
    windowWriteCount := history.windowWriteCount + 1
    windowRetransmits := if isRetransmit then history.windowRetransmits + 1
      else history.windowRetransmits }

def recordRtt (history : MetricsHistory F) (rttMs : F) : MetricsHistory F :=
  { history with lastRttMs := rttMs }

def len (history : MetricsHistory F) : Nat := history.samples.length

/-- The latest samples, the last one first. -/
def lastN (history : MetricsHistory F) (n : Nat) : List (NetworkMetrics F) :=
  history.samples.reverse.take n

/-- `snapshot`, at an instant: the metrics, and the history with its window begun anew. -/
def snapshot (history : MetricsHistory F) (now : Nat) : NetworkMetrics F × MetricsHistory F :=
  let elapsedS : F := max ((now - history.windowStart : Nat) / 1000000000.0) 0.001
  let throughput : F := (max history.windowGoodputBytes 1).toNat * 8.0 / (elapsedS * 1000000.0)
  let queueDelay : F :=
    if 0 < history.windowWriteCount then
      history.windowWriteUs.toNat / history.windowWriteCount.toNat / 1000.0 else 0.0
  let loss : F :=
    if 0 < history.windowBytes then
      history.windowRetransmits.toNat * 100.0 /
        (history.windowBytes.toNat / (max history.windowWriteCount 1).toNat)
    else 0.0
  let ewmaThroughput := history.ewmaThroughput.update throughput
  let ewmaRtt := if 0.0 < history.lastRttMs then history.ewmaRtt.update history.lastRttMs
    else history.ewmaRtt
  let ewmaQueueDelay := history.ewmaQueueDelay.update queueDelay
  let metrics : NetworkMetrics F :=
    { throughputMbps := ewmaThroughput.value
      rttMs := ewmaRtt.value
      packetLossPct := min loss 100.0
      inFlightBytes := history.windowBytes
      cwndBytes := max (history.windowBytes * 2) 65535
      retransmits := history.windowRetransmits
      queueDelayMs := ewmaQueueDelay.value
      cpuUsagePct := 0.0
      timestamp := now }
  let samples := history.samples ++ [metrics]
  (metrics,
    { history with
      samples := samples.drop (samples.length - history.maxSamples)
      windowBytes := 0, windowGoodputBytes := 0, windowRetransmits := 0, windowWriteUs := 0,
        windowWriteCount := 0
      windowStart := now
      lastRttMs := 0.0
      ewmaThroughput, ewmaRtt, ewmaQueueDelay })

end MetricsHistory

end DistributedOs.Control
