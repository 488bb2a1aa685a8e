import DistributedOs.Adaptive.AutoTuner

/-! The rule-based planner of the adaptive engine, without the texts of its rationales. Machine
integers wrap, as in a release build. -/

namespace DistributedOs.Adaptive

open Semantics
open DistributedOs.Transfer (TransportMode)

variable {F : Type} [Floating F]

inductive Bottleneck where
  | cpuBound
  | networkBound
  | diskBound
  | memoryBound
  | schedulerBound
  | thermalThrottling
  | kernelCopyOverhead
  | healthy
  deriving DecidableEq

structure BottleneckReport (F : Type) where
  bottleneck : Bottleneck
  confidence : F

inductive OptimizationAction (F : Type) where
  | setChunkSize (bytes : Nat)
  | setParallelStreams (streams : Nat)
  | setSocketBuffer (sendKb recvKb : Nat)
  | enableZeroCopy
  | throttleThroughput (targetMbps : F)
  | increaseBatchSize (size : UInt64)
  | setWorkerThreads (threads : Nat)
  | switchToQuic
  | switchToUdpCustom
  | noOp

def OptimizationAction.apply (config : TuningConfig F) : OptimizationAction F → TuningConfig F
  | .setChunkSize bytes => { config with chunkSizeBytes := bytes }
  | .setParallelStreams streams => { config with parallelStreams := streams }
  | .setSocketBuffer sendKb recvKb => { config with sendBufferKb := sendKb, recvBufferKb := recvKb }
  | .enableZeroCopy => { config with transportMode := .tcpZeroCopy }
  | .throttleThroughput targetMbps => { config with throughputLimitMbps := some targetMbps }
  | .increaseBatchSize size => { config with writeBatchSize := size }
  | .setWorkerThreads threads => { config with workerThreads := threads }
  | .switchToQuic => { config with transportMode := .quic }
  | .switchToUdpCustom => { config with transportMode := .udpCustom }
  | .noOp => config

structure ActionPlan (F : Type) where
  actions : List (OptimizationAction F)
  targetBottleneck : Bottleneck
  confidence : F

def ActionPlan.noop (bottleneck : Bottleneck) : ActionPlan F :=
  { actions := [.noOp], targetBottleneck := bottleneck, confidence := 0.0 }

def applyActions (actions : List (OptimizationAction F)) (config : TuningConfig F) :
    TuningConfig F :=
  actions.foldl OptimizationAction.apply config

def ActionPlan.applyAll (plan : ActionPlan F) (config : TuningConfig F) : TuningConfig F :=
  applyActions plan.actions config

section Plans

variable (current : TuningConfig F)

/-- `(current.chunk_size_bytes * 2).min(2 * 1024 * 1024)`, if that is more. -/
def enlargeChunk : List (OptimizationAction F) :=
  let targetChunk := min (current.chunkSizeBytes * 2) (2 * 1024 * 1024)
  if current.chunkSizeBytes < targetChunk then [.setChunkSize targetChunk] else []

/-- `(current.chunk_size_bytes / 2).max(floor)`, if that is less. -/
def reduceChunk (floor : Nat) : List (OptimizationAction F) :=
  let targetChunk := max (current.chunkSizeBytes / 2) floor
  if targetChunk < current.chunkSizeBytes then [.setChunkSize targetChunk] else []

def singleStream : List (OptimizationAction F) :=
  if 1 < current.parallelStreams then [.setParallelStreams 1] else []

def planNetwork : List (OptimizationAction F) :=
  let targetStreams := min (current.parallelStreams + 2) 6
  let actions := (if current.sendBufferKb < 4096 then [.setSocketBuffer 4096 4096] else []) ++
    enlargeChunk current ++
    (if current.parallelStreams < targetStreams then [.setParallelStreams targetStreams] else [])
  if actions.isEmpty then [.noOp] else actions

def planCpu : List (OptimizationAction F) :=
  let targetStreams := max (current.parallelStreams - 1) 1
  reduceChunk current (128 * 1024) ++ [.increaseBatchSize (min (current.writeBatchSize + 4) 16)] ++
    (if targetStreams < current.parallelStreams then [.setParallelStreams targetStreams] else [])

def planDisk : List (OptimizationAction F) :=
  reduceChunk current (64 * 1024) ++ singleStream current ++ [.throttleThroughput 200.0]

def planMemory : List (OptimizationAction F) :=
  reduceChunk current (128 * 1024) ++ singleStream current

def planScheduler (cpuCount : Nat) : List (OptimizationAction F) :=
  let targetWorkers := min (current.workerThreads + 2) (cpuCount * 3)
  (if current.workerThreads < targetWorkers then [.setWorkerThreads targetWorkers] else []) ++
  enlargeChunk current

def planThermal : List (OptimizationAction F) :=
  let targetTp := max (current.throughputLimitMbps.getD 1000.0 * 0.6) 50.0
  [.throttleThroughput targetTp] ++ singleStream current ++ enlargeChunk current

def planKernelCopy : List (OptimizationAction F) := [.enableZeroCopy] ++ enlargeChunk current

end Plans

structure DecisionEngine where
  cpuCount : Nat

def DecisionEngine.new (cpus : Nat) : DecisionEngine := { cpuCount := max cpus 2 }

def DecisionEngine.plan (engine : DecisionEngine) (report : BottleneckReport F)
    (current : TuningConfig F) : ActionPlan F :=
  if report.confidence < (0.15 : F) then .noop report.bottleneck
  else
    let planned (actions : List (OptimizationAction F)) : ActionPlan F :=
      { actions, targetBottleneck := report.bottleneck, confidence := report.confidence }
    match report.bottleneck with
    | .networkBound => planned (planNetwork current)
    | .cpuBound => planned (planCpu current)
    | .diskBound => planned (planDisk current)
    | .memoryBound => planned (planMemory current)
    | .schedulerBound => planned (planScheduler current engine.cpuCount)
    | .thermalThrottling => planned (planThermal current)
    | .kernelCopyOverhead => planned (planKernelCopy current)
    | .healthy => .noop .healthy

/-- The bottlenecks whose plans double the chunk size. -/
def Bottleneck.enlarges : Bottleneck → Bool
  | .networkBound | .schedulerBound | .thermalThrottling | .kernelCopyOverhead => true
  | .cpuBound | .diskBound | .memoryBound | .healthy => false

/-- The report has the planner double a chunk size of more than 512 KiB, or add to a batch size so
large that the sum is 0. -/
def Overshoots (report : BottleneckReport F) (current : TuningConfig F) : Prop :=
  ¬ report.confidence < (0.15 : F) ∧
    (report.bottleneck.enlarges = true ∧ 512 * 1024 < current.chunkSizeBytes ∨
      report.bottleneck = .cpuBound ∧ current.writeBatchSize + 4 = 0)

variable {config : TuningConfig F} {actions first second : List (OptimizationAction F)}

omit [Floating F] in
theorem applyActions_append (config : TuningConfig F) :
    applyActions (first ++ second) config = applyActions second (applyActions first config) :=
  List.foldl_append

omit [Floating F] in
theorem inRange_withMode (config : TuningConfig F) (transportMode : TransportMode) :
    { config with transportMode }.InRange ↔ config.InRange :=
  ⟨fun inRange => ⟨inRange.chunkSize, inRange.streams, inRange.sendBuffer,
    inRange.recvBuffer, inRange.batch⟩,
    fun inRange => ⟨inRange.chunkSize, inRange.streams, inRange.sendBuffer,
      inRange.recvBuffer, inRange.batch⟩⟩

/-- The action's own value is in range. -/
def OptimizationAction.Safe : OptimizationAction F → Prop
  | .setChunkSize bytes => 16384 ≤ bytes ∧ bytes ≤ 1048576
  | .setParallelStreams streams => 1 ≤ streams ∧ streams ≤ 8
  | .setSocketBuffer sendKb recvKb => (256 ≤ sendKb ∧ sendKb ≤ 8192) ∧ 256 ≤ recvKb ∧ recvKb ≤ 8192
  | .increaseBatchSize size => 1 ≤ size
  | _ => True

omit [Floating F] in
theorem TuningConfig.InRange.apply {action : OptimizationAction F} (inRange : config.InRange)
    (safe : action.Safe) :
    (action.apply config).InRange := by
  cases action with
  | setChunkSize => exact { inRange with chunkSize := safe }
  | setParallelStreams streams => exact { inRange with streams := safe }
  | setSocketBuffer => exact { inRange with sendBuffer := safe.1, recvBuffer := safe.2 }
  | increaseBatchSize => exact { inRange with batch := safe }
  | _ => exact { inRange with }

omit [Floating F] in
theorem TuningConfig.InRange.applyActions (inRange : config.InRange)
    (safe : ∀ action ∈ actions, action.Safe) :
    (applyActions actions config).InRange := by
  induction actions generalizing config with
  | nil => exact inRange
  | cons action _ ih =>
    exact ih (inRange.apply (safe action List.mem_cons_self)) fun other member =>
      safe other (List.mem_cons_of_mem _ member)

def OptimizationAction.setsChunk : OptimizationAction F → Bool
  | .setChunkSize _ => true
  | _ => false

omit [Floating F] in
theorem applyActions_keeps {α : Type} (field : TuningConfig F → α)
    (others : ∀ action ∈ actions, ∀ config : TuningConfig F,
      field (action.apply config) = field config) (config : TuningConfig F) :
    field (applyActions actions config) = field config := by
  induction actions generalizing config with
  | nil => rfl
  | cons action _ ih =>
    have rest := ih (fun other member => others other (List.mem_cons_of_mem _ member))
      (action.apply config)
    exact rest.trans (others action List.mem_cons_self config)

omit [Floating F] in
theorem chunkSize_applyActions (others : ∀ action ∈ actions, action.setsChunk = false)
    (config : TuningConfig F) :
    (applyActions actions config).chunkSizeBytes = config.chunkSizeBytes := by
  refine applyActions_keeps TuningConfig.chunkSizeBytes ?_ config
  intro action member _
  have other := others action member
  cases action with
  | setChunkSize => cases other
  | _ => rfl

omit [Floating F] in
theorem not_inRange_of_enlarged (inRange : config.InRange)
    (large : 512 * 1024 < config.chunkSizeBytes) (first : List (OptimizationAction F))
    (after : ∀ action ∈ second, action.setsChunk = false) :
    ¬ (applyActions (first ++ enlargeChunk config ++ second) config).InRange := by
  have top := inRange.chunkSize.2
  have more : config.chunkSizeBytes < min (config.chunkSizeBytes * 2) (2 * 1024 * 1024) := by omega
  have target : (applyActions (first ++ enlargeChunk config ++ second) config).chunkSizeBytes =
      min (config.chunkSizeBytes * 2) (2 * 1024 * 1024) := by
    rw [applyActions_append, chunkSize_applyActions after, applyActions_append]
    unfold enlargeChunk
    dsimp only
    rw [if_pos more]
    rfl
  intro still
  have bound := still.chunkSize.2
  omega

section Safe

variable (inRange : config.InRange)

include inRange

omit [Floating F] in
theorem safe_enlargeChunk (small : config.chunkSizeBytes ≤ 512 * 1024) :
    ∀ action ∈ enlargeChunk config, action.Safe := by
  have low := inRange.chunkSize.1
  unfold enlargeChunk
  dsimp only
  intro _ member
  split at member
  · rw [List.mem_singleton.mp member]
    show 16384 ≤ min _ _ ∧ min _ _ ≤ 1048576
    omega
  · cases member

omit [Floating F] in
theorem safe_reduceChunk (above : 16384 ≤ floor) :
    ∀ action ∈ reduceChunk config floor, action.Safe := by
  have high := inRange.chunkSize.2
  unfold reduceChunk
  dsimp only
  intro _ member
  split at member
  · rw [List.mem_singleton.mp member]
    show 16384 ≤ max _ _ ∧ max _ _ ≤ 1048576
    omega
  · cases member

end Safe

omit [Floating F] in
theorem safe_singleStream (config : TuningConfig F) :
    ∀ action ∈ singleStream config, action.Safe := by
  unfold singleStream
  intro _ member
  split at member
  · rw [List.mem_singleton.mp member]
    exact ⟨by omega, by omega⟩
  · cases member

/-- The actions of a plan, without those of a report that is too uncertain. -/
def planned (cpuCount : Nat) (config : TuningConfig F) : Bottleneck → List (OptimizationAction F)
  | .networkBound => planNetwork config
  | .cpuBound => planCpu config
  | .diskBound => planDisk config
  | .memoryBound => planMemory config
  | .schedulerBound => planScheduler config cpuCount
  | .thermalThrottling => planThermal config
  | .kernelCopyOverhead => planKernelCopy config
  | .healthy => [.noOp]

theorem plan_actions (engine : DecisionEngine) (report : BottleneckReport F)
    (config : TuningConfig F) :
    (engine.plan report config).actions =
      if report.confidence < (0.15 : F) then [.noOp]
      else planned engine.cpuCount config report.bottleneck := by
  unfold DecisionEngine.plan
  split
  · rfl
  · cases report.bottleneck <;> rfl

def networkBuffers (config : TuningConfig F) : List (OptimizationAction F) :=
  if config.sendBufferKb < 4096 then [.setSocketBuffer 4096 4096] else []

def networkStreams (config : TuningConfig F) : List (OptimizationAction F) :=
  if config.parallelStreams < min (config.parallelStreams + 2) 6 then
    [.setParallelStreams (min (config.parallelStreams + 2) 6)]
  else []

omit [Floating F] in
theorem planNetwork_eq (inRange : config.InRange) :
    planNetwork config = networkBuffers config ++ enlargeChunk config ++ networkStreams config := by
  have bounds := inRange.chunkSize
  have enlarged : enlargeChunk config ≠ [] := by
    unfold enlargeChunk
    dsimp only
    rw [if_pos (by omega)]
    exact List.cons_ne_nil _ _
  have busy : (networkBuffers config ++ enlargeChunk config ++ networkStreams config).isEmpty ≠
      true := by
    simp [enlarged]
  exact if_neg busy

omit [Floating F] in
theorem safe_planNetwork (inRange : config.InRange) (small : config.chunkSizeBytes ≤ 512 * 1024) :
    ∀ action ∈ planNetwork config, action.Safe := by
  have enlarged := safe_enlargeChunk inRange small
  intro action member
  simp only [planNetwork_eq inRange, networkBuffers, networkStreams, List.mem_append] at member
  rcases member with (member | member) | member
  · split at member
    · rw [List.mem_singleton.mp member]
      exact ⟨⟨by omega, by omega⟩, by omega, by omega⟩
    · cases member
  · exact enlarged action member
  · split at member
    · rw [List.mem_singleton.mp member]
      show 1 ≤ min _ _ ∧ min _ _ ≤ 8
      omega
    · cases member

omit [Floating F] in
theorem safe_planCpu (inRange : config.InRange) (fits : config.writeBatchSize + 4 ≠ 0) :
    ∀ action ∈ planCpu config, action.Safe := by
  have top := inRange.streams.2
  intro action member
  simp only [planCpu, List.mem_append] at member
  rcases member with (member | member) | member
  · exact safe_reduceChunk inRange (by omega) action member
  · rw [List.mem_singleton.mp member]
    show (1 : UInt64) ≤ if _ then _ else _
    split
    · rw [UInt64.le_iff_toNat_le]
      exact Nat.pos_of_ne_zero fun zero => fits (UInt64.toNat_inj.mp zero)
    · decide
  · split at member
    · rw [List.mem_singleton.mp member]
      show 1 ≤ max _ _ ∧ max _ _ ≤ 8
      omega
    · cases member

/-- A plan that does not double a large chunk size, or add too much to the batch, has only values in
range. -/
theorem safe_planned (inRange : config.InRange) (cpuCount : Nat)
    (small : bottleneck.enlarges = true → config.chunkSizeBytes ≤ 512 * 1024)
    (fits : bottleneck = .cpuBound → config.writeBatchSize + 4 ≠ 0) :
    ∀ action ∈ planned cpuCount config bottleneck, action.Safe := by
  have single := safe_singleStream config
  intro action member
  cases bottleneck with
  | networkBound => exact safe_planNetwork inRange (small rfl) action member
  | cpuBound => exact safe_planCpu inRange (fits rfl) action member
  | diskBound =>
    simp only [planned, planDisk, List.mem_append] at member
    rcases member with (member | member) | member
    · exact safe_reduceChunk inRange (by omega) action member
    · exact single action member
    · rw [List.mem_singleton.mp member]
      trivial
  | memoryBound =>
    rcases List.mem_append.mp member with member | member
    · exact safe_reduceChunk inRange (by omega) action member
    · exact single action member
  | schedulerBound =>
    rcases List.mem_append.mp member with member | member
    · split at member
      · rw [List.mem_singleton.mp member]
        trivial
      · cases member
    · exact safe_enlargeChunk inRange (small rfl) action member
  | thermalThrottling =>
    simp only [planned, planThermal, List.mem_append] at member
    rcases member with (member | member) | member
    · rw [List.mem_singleton.mp member]
      trivial
    · exact single action member
    · exact safe_enlargeChunk inRange (small rfl) action member
  | kernelCopyOverhead =>
    rcases List.mem_append.mp member with member | member
    · rw [List.mem_singleton.mp member]
      trivial
    · exact safe_enlargeChunk inRange (small rfl) action member
  | healthy =>
    rw [List.mem_singleton.mp member]
    trivial

theorem not_inRange_of_planned (inRange : config.InRange)
    (large : 512 * 1024 < config.chunkSizeBytes) (cpuCount : Nat)
    (enlarges : bottleneck.enlarges = true) :
    ¬ (applyActions (planned cpuCount config bottleneck) config).InRange := by
  have none : ∀ action ∈ ([] : List (OptimizationAction F)), action.setsChunk = false := nofun
  cases bottleneck with
  | networkBound =>
    have streams : ∀ action ∈ networkStreams config, action.setsChunk = false := by
      unfold networkStreams
      intro _ member
      split at member
      · rw [List.mem_singleton.mp member]
        rfl
      · cases member
    rw [planned, planNetwork_eq inRange]
    exact not_inRange_of_enlarged inRange large _ streams
  | schedulerBound =>
    have moved := not_inRange_of_enlarged inRange large
      (if config.workerThreads < min (config.workerThreads + 2) (cpuCount * 3) then
        [.setWorkerThreads (min (config.workerThreads + 2) (cpuCount * 3))] else []) none
    rwa [List.append_nil] at moved
  | thermalThrottling =>
    have moved := not_inRange_of_enlarged inRange large
      ([.throttleThroughput (max (config.throughputLimitMbps.getD 1000.0 * 0.6) 50.0)] ++
        singleStream config) none
    rwa [List.append_nil] at moved
  | kernelCopyOverhead =>
    have moved := not_inRange_of_enlarged inRange large [.enableZeroCopy] none
    rwa [List.append_nil] at moved
  | cpuBound | diskBound | memoryBound | healthy => cases enlarges

omit [Floating F] in
theorem not_inRange_of_planCpu (overflow : config.writeBatchSize + 4 = 0) :
    ¬ (applyActions (planCpu config) config).InRange := by
  have streams : ∀ action ∈ (if max (config.parallelStreams - 1) 1 < config.parallelStreams then
      [.setParallelStreams (max (config.parallelStreams - 1) 1)] else [] : List (OptimizationAction F)),
      ∀ current : TuningConfig F, (action.apply current).writeBatchSize = current.writeBatchSize := by
    intro _ member _
    split at member
    · rw [List.mem_singleton.mp member]
      rfl
    · cases member
  have batch : (applyActions (planCpu config) config).writeBatchSize = min
      (config.writeBatchSize + 4) 16 := by
    unfold planCpu
    dsimp only
    rw [applyActions_append, applyActions_keeps TuningConfig.writeBatchSize streams, applyActions_append]
    rfl
  intro still
  have bound := still.batch
  rw [batch, overflow] at bound
  exact absurd bound (by decide)

theorem inRange_plan_iff (inRange : config.InRange) (engine : DecisionEngine)
    (report : BottleneckReport F) :
    ((engine.plan report config).applyAll config).InRange ↔ ¬ Overshoots report config := by
  rw [ActionPlan.applyAll, plan_actions]
  by_cases uncertain : report.confidence < (0.15 : F)
  · rw [if_pos uncertain]
    exact iff_of_true inRange fun overshoots => overshoots.1 uncertain
  · rw [if_neg uncertain]
    constructor
    · rintro kept ⟨_, ⟨enlarges, large⟩ | ⟨busy, overflow⟩⟩
      · exact not_inRange_of_planned inRange large engine.cpuCount enlarges kept
      · rw [busy] at kept
        exact not_inRange_of_planCpu overflow kept
    · intro moderate
      refine inRange.applyActions (safe_planned inRange engine.cpuCount ?_ ?_)
      · intro enlarges
        by_contra large
        exact moderate ⟨uncertain, .inl ⟨enlarges, not_le.mp large⟩⟩
      · intro busy overflow
        exact moderate ⟨uncertain, .inr ⟨busy, overflow⟩⟩

theorem noOp_notMem_planned (inRange : config.InRange) (cpuCount : Nat)
    (changes : bottleneck.enlarges = true ∨ bottleneck = .cpuBound) :
    OptimizationAction.noOp ∉ planned cpuCount config bottleneck := by
  cases bottleneck with
  | cpuBound => simp [planned, planCpu, reduceChunk]
  | networkBound => simp [planned, planNetwork_eq inRange, networkBuffers, enlargeChunk, networkStreams]
  | schedulerBound => simp [planned, planScheduler, enlargeChunk]
  | thermalThrottling => simp [planned, planThermal, singleStream, enlargeChunk]
  | kernelCopyOverhead => simp [planned, planKernelCopy, enlargeChunk]
  | diskBound | memoryBound | healthy => rcases changes with changes | changes <;> cases changes

end DistributedOs.Adaptive
