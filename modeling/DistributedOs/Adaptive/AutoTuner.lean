import DistributedOs.Semantics.Floating
import DistributedOs.Transfer.Handshake

/-! The hill climber of the command line's adaptive engine, and the configuration it tunes. -/

namespace DistributedOs.Adaptive

open Semantics
open DistributedOs.Transfer (TransportMode)

variable {F : Type} [Floating F]

structure TuningConfig (F : Type) where
  chunkSizeBytes : Nat
  parallelStreams : Nat
  sendBufferKb : Nat
  recvBufferKb : Nat
  writeBatchSize : UInt64
  workerThreads : Nat
  throughputLimitMbps : Option F
  transportMode : TransportMode
  deriving DecidableEq

/-- The default, on a machine with so many processors. -/
def TuningConfig.default (cpus : Nat) : TuningConfig F :=
  { chunkSizeBytes := 1048576, parallelStreams := 1, sendBufferKb := 4096, recvBufferKb := 4096,
    writeBatchSize := 4
    workerThreads := max cpus 2, throughputLimitMbps := none, transportMode := .tcpBuffered }

/-- The ranges that the fields are documented with, and the tuner's range of the socket buffers. -/
structure TuningConfig.InRange (config : TuningConfig F) : Prop where
  chunkSize : 16384 ≤ config.chunkSizeBytes ∧ config.chunkSizeBytes ≤ 1048576
  streams : 1 ≤ config.parallelStreams ∧ config.parallelStreams ≤ 8
  sendBuffer : 256 ≤ config.sendBufferKb ∧ config.sendBufferKb ≤ 8192
  recvBuffer : 256 ≤ config.recvBufferKb ∧ config.recvBufferKb ≤ 8192
  batch : 1 ≤ config.writeBatchSize

omit [Floating F] in
theorem TuningConfig.inRange_default (cpus : Nat) : (default cpus : TuningConfig F).InRange := by
  constructor <;> simp [default]

structure Dimension where
  current : Nat
  min : Nat
  max : Nat
  step : Nat
  direction : Int

namespace Dimension

def new (current min max step : Nat) : Dimension := { current, min, max, step, direction := 1 }

def stepUp (dim : Dimension) : Nat := Min.min (dim.current + dim.step) dim.max

def stepDown (dim : Dimension) : Nat := Max.max (dim.current - dim.step) dim.min

/-- The next value, and the direction it is reached in; at the end of the range the climb turns
around. -/
def next (dim : Dimension) : Nat × Int :=
  if 0 < dim.direction then
    if dim.stepUp = dim.current ∧ dim.current = dim.max then (dim.stepDown, -1)
    else (dim.stepUp, dim.direction)
  else
    if dim.stepDown = dim.current ∧ dim.current = dim.min then (dim.stepUp, 1)
    else (dim.stepDown, dim.direction)

def applyDirection (dim : Dimension) : Nat × Dimension :=
  (dim.next.1, { dim with current := dim.next.1, direction := dim.next.2 })

theorem applyDirection_within {dim : Dimension} (low : dim.min ≤ dim.current)
    (high : dim.current ≤ dim.max) :
    dim.min ≤ dim.applyDirection.1 ∧ dim.applyDirection.1 ≤ dim.max := by
  have up : dim.min ≤ dim.stepUp ∧ dim.stepUp ≤ dim.max := by
    unfold stepUp
    omega
  have down : dim.min ≤ dim.stepDown ∧ dim.stepDown ≤ dim.max := by
    unfold stepDown
    omega
  unfold applyDirection next
  split_ifs
  · exact down
  · exact up
  · exact up
  · exact down

end Dimension

structure AutoTuner (F : Type) where
  chunkDim : Dimension
  streamDim : Dimension
  bufferDim : Dimension
  bestThroughput : F
  bestConfig : Option (TuningConfig F)
  staleSteps : Nat
  maxStale : Nat
  recentTp : List F
  probeActive : Bool
  probeConfig : Option (TuningConfig F)
  preProbeTp : F

namespace AutoTuner

def new : AutoTuner F :=
  { chunkDim := .new 1048576 16384 1048576 131072
    streamDim := .new 1 1 8 1
    bufferDim := .new 4096 256 8192 1024
    bestThroughput := 0.0, bestConfig := none, staleSteps := 0, maxStale := 8, recentTp := [],
      probeActive := false
    probeConfig := none, preProbeTp := 0.0 }

def smoothTp (tuner : AutoTuner F) : F :=
  if tuner.recentTp = [] then 0.0 else tuner.recentTp.foldl (· + ·) 0.0 / tuner.recentTp.length

def flipDirection (tuner : AutoTuner F) : AutoTuner F :=
  match tuner.staleSteps % 3 with
  | 0 => { tuner with chunkDim := { tuner.chunkDim with direction := -tuner.chunkDim.direction } }
  | 1 => { tuner with streamDim := { tuner.streamDim with direction := -tuner.streamDim.direction } }
  | _ => { tuner with bufferDim := { tuner.bufferDim with direction := -tuner.bufferDim.direction } }

def restart (tuner : AutoTuner F) (base : TuningConfig F) : AutoTuner F :=
  { tuner with
    chunkDim := { Dimension.new base.chunkSizeBytes 16384 1048576 131072 with direction := -1 }
    streamDim := { Dimension.new base.parallelStreams 1 8 1 with direction := -1 }
    bufferDim := { Dimension.new base.sendBufferKb 256 8192 1024 with direction := -1 }
    recentTp := [] }

def configsEqual (a b : TuningConfig F) : Bool :=
  a.chunkSizeBytes = b.chunkSizeBytes && a.parallelStreams = b.parallelStreams &&
  a.sendBufferKb = b.sendBufferKb

/-- The dimensions moved to the configuration, and the throughput noted. -/
def observe (tuner : AutoTuner F) (current : TuningConfig F) (currentTp : F) : AutoTuner F :=
  let recentTp := tuner.recentTp ++ [currentTp]
  { tuner with
    chunkDim := { tuner.chunkDim with current := current.chunkSizeBytes }
    streamDim := { tuner.streamDim with current := current.parallelStreams }
    bufferDim := { tuner.bufferDim with current := current.sendBufferKb }
    recentTp := if 5 < recentTp.length then recentTp.drop 1 else recentTp }

/-- The probe under way is accepted, or its dimension turned around. -/
def evaluate (tuner : AutoTuner F) (current : TuningConfig F) (smoothTp : F) : AutoTuner F :=
  if tuner.probeActive then
    let tuner :=
      if tuner.preProbeTp * 1.02 ≤ smoothTp then
        { tuner with bestThroughput := smoothTp, bestConfig := some current, staleSteps := 0 }
      else ({ tuner with staleSteps := tuner.staleSteps + 1 }).flipDirection
    { tuner with probeActive := false, probeConfig := none }
  else tuner

/-- The first configuration seen is the best so far. -/
def initialise (tuner : AutoTuner F) (current : TuningConfig F) (smoothTp : F) : AutoTuner F :=
  if tuner.bestConfig.isNone then
    { tuner with bestThroughput := smoothTp, bestConfig := some current } else tuner

/-- After too many steps without improvement the climb starts again. -/
def refresh (tuner : AutoTuner F) (current : TuningConfig F) : AutoTuner F :=
  if tuner.maxStale ≤ tuner.staleSteps then { tuner.restart current with staleSteps := 0 } else tuner

/-- The next candidate: one dimension moved, by turns. -/
def candidate (tuner : AutoTuner F) (current : TuningConfig F) : TuningConfig F × AutoTuner F :=
  match tuner.staleSteps % 3 with
  | 0 =>
    let (chunkSizeBytes, chunkDim) := tuner.chunkDim.applyDirection
    ({ current with chunkSizeBytes }, { tuner with chunkDim })
  | 1 =>
    let (parallelStreams, streamDim) := tuner.streamDim.applyDirection
    ({ current with parallelStreams }, { tuner with streamDim })
  | _ =>
    let (newBuf, bufferDim) := tuner.bufferDim.applyDirection
    ({ current with sendBufferKb := newBuf, recvBufferKb := newBuf }, { tuner with bufferDim })

/-- The candidate is tried, unless it is what is in force. -/
def probe (tuner : AutoTuner F) (current : TuningConfig F)
    (smoothTp : F) : Option (TuningConfig F) × AutoTuner F :=
  let (candidate, tuner) := tuner.candidate current
  if configsEqual candidate current then (none, tuner)
  else (some candidate,
    { tuner with probeActive := true, probeConfig := some candidate, preProbeTp := smoothTp })

/-- The samples are not looked at. -/
def step (tuner : AutoTuner F) (current : TuningConfig F)
    (currentTp : F) : Option (TuningConfig F) × AutoTuner F :=
  let tuner := tuner.observe current currentTp
  let smoothTp := tuner.smoothTp
  (((tuner.evaluate current smoothTp).initialise current smoothTp).refresh current).probe
  current smoothTp

/-- The ranges of the dimensions never change. -/
structure Bounded (tuner : AutoTuner F) : Prop where
  chunk : tuner.chunkDim.min = 16384 ∧ tuner.chunkDim.max = 1048576
  stream : tuner.streamDim.min = 1 ∧ tuner.streamDim.max = 8
  buffer : tuner.bufferDim.min = 256 ∧ tuner.bufferDim.max = 8192

/-- The dimensions stand at the configuration. -/
structure Follows (tuner : AutoTuner F) (config : TuningConfig F) : Prop extends tuner.Bounded where
  chunkAt : tuner.chunkDim.current = config.chunkSizeBytes
  streamAt : tuner.streamDim.current = config.parallelStreams
  bufferAt : tuner.bufferDim.current = config.sendBufferKb

variable {tuner : AutoTuner F} {config : TuningConfig F}

theorem bounded_new : (new : AutoTuner F).Bounded := ⟨⟨rfl, rfl⟩, ⟨rfl, rfl⟩, ⟨rfl, rfl⟩⟩

omit [Floating F] in
theorem Bounded.observe (bounded : tuner.Bounded) (config : TuningConfig F) (currentTp : F) :
    (tuner.observe config currentTp).Follows config :=
  ⟨⟨bounded.chunk, bounded.stream, bounded.buffer⟩, rfl, rfl, rfl⟩

omit [Floating F] in
theorem Follows.flipDirection (follows : tuner.Follows config) :
    tuner.flipDirection.Follows config := by
  unfold AutoTuner.flipDirection
  split <;> exact ⟨⟨follows.chunk, follows.stream, follows.buffer⟩, follows.chunkAt,
    follows.streamAt, follows.bufferAt⟩

theorem Follows.evaluate (follows : tuner.Follows config)
    (smoothTp : F) : (tuner.evaluate config smoothTp).Follows config := by
  unfold AutoTuner.evaluate
  split
  · split
    · exact ⟨⟨follows.chunk, follows.stream, follows.buffer⟩, follows.chunkAt, follows.streamAt,
        follows.bufferAt⟩
    · have counted : ({ tuner with staleSteps := tuner.staleSteps + 1 }).Follows config :=
        ⟨⟨follows.chunk, follows.stream, follows.buffer⟩, follows.chunkAt, follows.streamAt,
          follows.bufferAt⟩
      have flipped := counted.flipDirection
      exact ⟨⟨flipped.chunk, flipped.stream, flipped.buffer⟩, flipped.chunkAt, flipped.streamAt,
        flipped.bufferAt⟩
  · exact follows

omit [Floating F] in
theorem Follows.initialise (follows : tuner.Follows config)
    (smoothTp : F) : (tuner.initialise config smoothTp).Follows config := by
  unfold AutoTuner.initialise
  split
  · exact ⟨⟨follows.chunk, follows.stream, follows.buffer⟩, follows.chunkAt, follows.streamAt,
      follows.bufferAt⟩
  · exact follows

omit [Floating F] in
theorem Follows.refresh (follows : tuner.Follows config) :
    (tuner.refresh config).Follows config := by
  unfold AutoTuner.refresh
  split
  · exact ⟨⟨⟨rfl, rfl⟩, ⟨rfl, rfl⟩, ⟨rfl, rfl⟩⟩, rfl, rfl, rfl⟩
  · exact follows

omit [Floating F] in
theorem Follows.candidate (follows : tuner.Follows config) (inRange : config.InRange) :
    (tuner.candidate config).1.InRange ∧ (tuner.candidate config).2.Bounded := by
  unfold AutoTuner.candidate
  split
  · have within := tuner.chunkDim.applyDirection_within
      (by rw [follows.chunk.1, follows.chunkAt]; exact inRange.chunkSize.1)
      (by rw [follows.chunk.2, follows.chunkAt]; exact inRange.chunkSize.2)
    rw [follows.chunk.1, follows.chunk.2] at within
    exact ⟨{ inRange with chunkSize := within }, ⟨follows.chunk, follows.stream, follows.buffer⟩⟩
  · have within := tuner.streamDim.applyDirection_within
      (by rw [follows.stream.1, follows.streamAt]; exact inRange.streams.1)
      (by rw [follows.stream.2, follows.streamAt]; exact inRange.streams.2)
    rw [follows.stream.1, follows.stream.2] at within
    exact ⟨{ inRange with streams := within }, ⟨follows.chunk, follows.stream, follows.buffer⟩⟩
  · have within := tuner.bufferDim.applyDirection_within
      (by rw [follows.buffer.1, follows.bufferAt]; exact inRange.sendBuffer.1)
      (by rw [follows.buffer.2, follows.bufferAt]; exact inRange.sendBuffer.2)
    rw [follows.buffer.1, follows.buffer.2] at within
    exact ⟨{ inRange with sendBuffer := within, recvBuffer := within },
      ⟨follows.chunk, follows.stream, follows.buffer⟩⟩

theorem Bounded.step (bounded : tuner.Bounded) (inRange : config.InRange) (currentTp : F) :
    (∀ candidate, (tuner.step config currentTp).1 = some candidate → candidate.InRange) ∧
      (tuner.step config currentTp).2.Bounded := by
  have ready := (((bounded.observe config currentTp).evaluate
    (tuner.observe config currentTp).smoothTp).initialise
    (tuner.observe config currentTp).smoothTp).refresh
  have ⟨candidateInRange, after⟩ := ready.candidate inRange
  unfold AutoTuner.step probe
  dsimp only
  split
  · exact ⟨nofun, after⟩
  · refine ⟨?_, ⟨after.chunk, after.stream, after.buffer⟩⟩
    intro _ tried
    cases tried
    exact candidateInRange

end AutoTuner

end DistributedOs.Adaptive
