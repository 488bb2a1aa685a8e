import DistributedOs.Control.Loop
import DistributedOs.Http.Requests
import DistributedOs.Http.SendStreaming
import DistributedOs.Semantics.Looping

/-! The chunk loops of `upload_directory`, `upload_parallel` and `send_streaming`. The first two
take the size of a chunk from a control loop of their own, which ticks while they run. -/

namespace DistributedOs.Http.UploadLoops

open Semantics
open Control (ControlLoop TuningConfig)
open Http.SendStreaming (left targetTime representable Call)

structure TransferOptions (F : Type) where
  chunkSize : Nat
  parallelStreams : Nat
  throughputLimitMbps : Option F

/-- What a turn meets: when the control loop ticks before the configuration is read and while the
chunk is sent, how the read and the write end, the time of the write, and the seconds since the loop
began. -/
structure Turn (F : Type) where
  waiting : List Nat
  read : Except String Unit
  write : Except String Unit
  writing : List Nat
  writeUs : UInt64
  elapsed : F

inductive Ended where
  | sent (bytes : Nat)
  | failed (error : String)
  | panicked

/-- To read or to write no bytes always succeeds. -/
def attempt (count : Nat) (operation : Except String Unit) : Except String Unit :=
  if count = 0 then .ok () else operation

section
variable {F : Type} [Floating F]

def seeded (cpus now chunkSize : Nat) (throughputLimitMbps : Option F) : ControlLoop F :=
  let control := ControlLoop.new false cpus now none
  { control with config := { control.config with chunkSizeBytes := chunkSize, throughputLimitMbps } }

def ticked (control : ControlLoop F) (ticks : List Nat) : ControlLoop F :=
  ticks.foldl (fun control now => (control.tick now).1) control

def recorded (control : ControlLoop F) (turn : Turn F) (length : Nat) : ControlLoop F :=
  let control := ticked control turn.writing
  { control with metrics := control.metrics.recordWrite length.toUInt64 turn.writeUs false }

structure Sending (F : Type) where
  offset : Nat
  pacingBytes : Nat
  control : ControlLoop F

/-- The sum of the offset and the chunk size does not overflow: the offset is zero or below the
length of a `Vec`, and it is not smaller than the chunk size then. -/
def uploadDirectoryTurn (size : Nat) (turns : Nat → Turn F) (index : Nat)
    (state : Sending F) : Turned (Sending F) Ended :=
  if state.offset < size then
    let turn := turns index
    let control := ticked state.control turn.waiting
    let stop := min (state.offset + control.config.chunkSizeBytes) size
    let len := stop - state.offset
    match attempt len turn.write with
    | .error error => .leave (.failed error)
    | .ok () =>
      match control.config.throughputLimitMbps with
      | none =>
        .next { offset := stop, pacingBytes := state.pacingBytes, control := recorded control turn len }
      | some limit =>
        let pacingBytes := state.pacingBytes + len
        let targetTime := targetTime limit pacingBytes
        if turn.elapsed < targetTime ∧ ¬ representable (targetTime - turn.elapsed) then .leave .panicked
        else .next { offset := stop, pacingBytes, control := recorded control turn len }
  else .leave (.sent size)

def uploadDirectoryStart (options : TransferOptions F) (cpus now : Nat) : Sending F :=
  { offset := 0, pacingBytes := 0,
    control := seeded cpus now options.chunkSize options.throughputLimitMbps }

structure Remaining (F : Type) where
  sent : Nat
  remaining : Nat
  control : ControlLoop F

def uploadParallelTurn (turns : Nat → Turn F) (index : Nat) (state : Remaining F) :
    Turned (Remaining F) Ended :=
  if 0 < state.remaining then
    let turn := turns index
    let control := ticked state.control turn.waiting
    let step := min control.config.chunkSizeBytes state.remaining
    match attempt step turn.read with
    | .error error => .leave (.failed error)
    | .ok () =>
      match attempt step turn.write with
      | .error error => .leave (.failed error)
      | .ok () =>
        .next
          { sent := state.sent + step, remaining := state.remaining - step
            control := recorded control turn step }
  else .leave (.sent state.sent)

def uploadParallelStart (options : TransferOptions F) (cpus now streamLen : Nat) : Remaining F :=
  { sent := 0, remaining := streamLen, control := seeded cpus now options.chunkSize none }

/-- The offset, and what has been hashed. -/
def sendStreamingTurn (call : Call F) (index : Nat) (state : Nat × Bytes) :
    Turned (Nat × Bytes) SendStreaming.Ended :=
  match call.iteration index state.1 state.2 with
  | .stop _ _ ended => .leave ended
  | .next chunk _ => .next (state.1 + chunk.length, state.2 ++ chunk)

/-- Whatever the turns meet, the loops of an upload with these options finish. -/
structure TransferOptions.Finish (options : TransferOptions F) (zip file : Bytes)
    (displayName : String) : Prop where
  uploadDirectory : ∀ cpus now turns,
    Finishing (uploadDirectoryTurn zip.length turns) (fun state => zip.length - state.offset)
      (uploadDirectoryStart options cpus now)
  uploadParallel : ∀ request ∈ uploadParallel displayName file options.parallelStreams, ∀ cpus now turns,
    Finishing (uploadParallelTurn turns) Remaining.remaining
      (uploadParallelStart options cpus now request.content.length)
  sendStreaming : ∀ (call : Call F) (hashed : Bytes), call.chunkSize = options.chunkSize →
    Finishing (sendStreamingTurn call) (fun state => left call.fileSize state.1)
      (call.resumeOffset, hashed)

/-- The control loop has not sampled anything, and its configuration is the one it began with. -/
structure Steady (config : TuningConfig F) (control : ControlLoop F) : Prop where
  samples : control.metrics.samples = []
  config : control.config = config

variable {config : TuningConfig F} {control : ControlLoop F} {options : TransferOptions F}

theorem Steady.seeded (cpus now chunkSize : Nat) (throughputLimitMbps : Option F) :
    Steady (seeded cpus now chunkSize throughputLimitMbps).config
      (seeded cpus now chunkSize throughputLimitMbps) :=
  ⟨rfl, rfl⟩

theorem Steady.chunkSizeBytes {cpus now chunkSize : Nat} {throughputLimitMbps : Option F}
    (steady : Steady (UploadLoops.seeded cpus now chunkSize throughputLimitMbps).config control) :
    control.config.chunkSizeBytes = chunkSize :=
  congrArg TuningConfig.chunkSizeBytes steady.config

theorem Steady.ticked (steady : Steady config control)
    (ticks : List Nat) : Steady config (ticked control ticks) := by
  induction ticks generalizing control with
  | nil => exact steady
  | cons now _ ih =>
    have empty : control.metrics.len = 0 := List.length_eq_zero_iff.mpr steady.samples
    have unchanged : control.tick now = (control, none) := if_pos empty
    refine ih ?_
    dsimp only
    rw [unchanged]
    exact steady

theorem Steady.recorded (steady : Steady config control) (turn : Turn F) (length : Nat) :
    Steady config (recorded control turn length) := by
  have before := steady.ticked turn.writing
  exact ⟨before.samples, before.config⟩

theorem attempt_zero (operation : Except String Unit) : attempt 0 operation = .ok () := rfl

theorem uploadDirectoryTurn_next {turns : Nat → Turn F}
    (goesOn : uploadDirectoryTurn size turns index state = .next after) :
    state.offset < size ∧
      after.offset = min
        (state.offset +
          (UploadLoops.ticked state.control (turns index).waiting).config.chunkSizeBytes) size ∧
      ∃ length, after.control = UploadLoops.recorded
        (UploadLoops.ticked state.control (turns index).waiting) (turns index) length := by
  unfold uploadDirectoryTurn at goesOn
  split at goesOn
  · next unsent =>
    dsimp only at goesOn
    split at goesOn
    · cases goesOn
    · split at goesOn
      · cases goesOn
        exact ⟨unsent, rfl, _, rfl⟩
      · split at goesOn
        · cases goesOn
        · cases goesOn
          exact ⟨unsent, rfl, _, rfl⟩
  · cases goesOn

theorem uploadDirectory_finishing (positive : 0 < options.chunkSize) (size cpus now : Nat)
    (turns : Nat → Turn F) :
    Finishing (uploadDirectoryTurn size turns) (fun state => size - state.offset)
      (uploadDirectoryStart options cpus now) := by
  have start := Steady.seeded cpus now options.chunkSize options.throughputLimitMbps
  apply finishing_of_invariant fun _ state =>
    Steady (UploadLoops.seeded cpus now options.chunkSize options.throughputLimitMbps).config
    state.control
  · exact start
  · intro index state _ steady goesOn
    obtain ⟨_, offset, _, control⟩ := uploadDirectoryTurn_next goesOn
    have waited := steady.ticked (turns index).waiting
    refine ⟨control ▸ waited.recorded _ _, ?_⟩
    rw [offset, waited.chunkSizeBytes]
    omega

theorem uploadParallelTurn_next {turns : Nat → Turn F}
    (goesOn : uploadParallelTurn turns index state = .next after) :
    0 < state.remaining ∧
      after.remaining = state.remaining -
        min (UploadLoops.ticked state.control (turns index).waiting).config.chunkSizeBytes
        state.remaining ∧
      ∃ length, after.control = UploadLoops.recorded
        (UploadLoops.ticked state.control (turns index).waiting) (turns index) length := by
  unfold uploadParallelTurn at goesOn
  split at goesOn
  · next unsent =>
    dsimp only at goesOn
    split at goesOn
    · cases goesOn
    · split at goesOn
      · cases goesOn
      · cases goesOn
        exact ⟨unsent, rfl, _, rfl⟩
  · cases goesOn

theorem uploadParallel_finishing (positive : 0 < options.chunkSize) (streamLen cpus now : Nat)
    (turns : Nat → Turn F) :
    Finishing (uploadParallelTurn turns) Remaining.remaining
      (uploadParallelStart options cpus now streamLen) := by
  apply finishing_of_invariant fun _ state =>
    Steady (UploadLoops.seeded cpus now options.chunkSize none).config state.control
  · exact Steady.seeded cpus now options.chunkSize none
  · intro index state _ steady goesOn
    obtain ⟨_, remaining, _, control⟩ := uploadParallelTurn_next goesOn
    have waited := steady.ticked (turns index).waiting
    refine ⟨control ▸ waited.recorded _ _, ?_⟩
    rw [remaining, waited.chunkSizeBytes]
    omega

theorem sendStreaming_finishing (call : Call F) (hashed : Bytes) :
    Finishing (sendStreamingTurn call) (fun state => left call.fileSize state.1)
      (call.resumeOffset, hashed) := by
  apply finishing_of_invariant fun index state => state.1 = call.chunkOffset index
  · exact call.chunkOffset_zero.symm
  · intro index state _ here goesOn
    unfold sendStreamingTurn at goesOn
    rw [here] at goesOn
    have turn := call.iteration_cases index state.2
    generalize call.iteration index (call.chunkOffset index) state.2 = step at turn goesOn
    cases turn with
    | failed | finished | panicked => cases goesOn
    | next proceeds unsent =>
      cases goesOn
      have length := (proceeds.reads unsent).length_chunk
      dsimp only
      rw [length, call.chunkOffset_succ]
      refine ⟨rfl, ?_⟩
      rw [here, call.left_chunkOffset, call.left_chunkOffset]
      have less := call.fuel_succ unsent (Nat.lt_succ_self _)
      exact less

/-- Nothing fails, no tick falls into the turn, and the pacing is on time if nothing was sent. -/
def idleTurn (throughputLimitMbps : Option F) : Turn F :=
  { waiting := [], read := .ok (), write := .ok (), writing := [], writeUs := 0
    elapsed := match throughputLimitMbps with
      | none => 0.0
      | some limit => targetTime limit 0 }

theorem uploadDirectory_endless (irrefl : ∀ x : F, ¬ x < x) (zero : options.chunkSize = 0)
    {size : Nat} (nonempty : 0 < size) (cpus now : Nat) :
    ¬ Finishing (uploadDirectoryTurn size fun _ => idleTurn options.throughputLimitMbps)
      (fun state => size - state.offset)
      (uploadDirectoryStart options cpus now) := by
  apply not_finishing_of_endless fun _ state => state.offset = 0 ∧ state.pacingBytes = 0 ∧
    Steady (UploadLoops.seeded cpus now options.chunkSize options.throughputLimitMbps).config
    state.control
  · exact ⟨rfl, rfl, Steady.seeded cpus now options.chunkSize options.throughputLimitMbps⟩
  · rintro _ ⟨offset, pacingBytes, control⟩ ⟨rfl, rfl, steady⟩
    have chunk : control.config.chunkSizeBytes = 0 := by
      rw [steady.config]
      exact zero
    have limit : control.config.throughputLimitMbps = options.throughputLimitMbps := by
      rw [steady.config]
      rfl
    have kept := steady.recorded (idleTurn options.throughputLimitMbps) 0
    refine ⟨
      { offset := 0, pacingBytes := 0
        control := UploadLoops.recorded control (idleTurn options.throughputLimitMbps) 0 }, ?_,
      rfl, rfl, kept⟩
    have unticked : UploadLoops.ticked control
        (idleTurn options.throughputLimitMbps).waiting = control := rfl
    simp only [uploadDirectoryTurn, if_pos nonempty, unticked, chunk, limit, Nat.add_zero,
      Nat.zero_min, Nat.sub_self, attempt_zero]
    cases limited : options.throughputLimitMbps with
    | none => rfl
    | some limit =>
      have onTime : ¬ (idleTurn (some limit)).elapsed < targetTime limit 0 := irrefl _
      simp [onTime]

theorem uploadParallel_endless (zero : options.chunkSize = 0) (nonempty : 0 < streamLen)
    (cpus now : Nat) :
    ¬ Finishing (uploadParallelTurn fun _ => idleTurn (F := F) none) Remaining.remaining
      (uploadParallelStart options cpus now streamLen) := by
  apply not_finishing_of_endless fun _ state => state.sent = 0 ∧ state.remaining = streamLen ∧
    Steady (UploadLoops.seeded cpus now options.chunkSize none).config state.control
  · exact ⟨rfl, rfl, Steady.seeded cpus now options.chunkSize none⟩
  · rintro _ ⟨sent, remaining, control⟩ ⟨rfl, rfl, steady⟩
    have chunk : control.config.chunkSizeBytes = 0 := by
      rw [steady.config]
      exact zero
    refine ⟨{ sent := 0, remaining, control := UploadLoops.recorded control (idleTurn none) 0 }, ?_,
      rfl, rfl,
      steady.recorded (idleTurn none) 0⟩
    have unticked : UploadLoops.ticked control (idleTurn none : Turn F).waiting = control := rfl
    simp only [uploadParallelTurn, if_pos nonempty, unticked, chunk, Nat.zero_min, attempt_zero,
      Nat.add_zero, Nat.sub_zero]

theorem exists_uploadParallel {file : Bytes} (nonempty : file ≠ []) (displayName : String)
    (numStreams : Nat) :
    ∃ request ∈ uploadParallel displayName file numStreams, 0 < request.content.length := by
  have tiled := uploadParallel_tiled displayName file numStreams
  cases requests : uploadParallel displayName file numStreams with
  | nil =>
    rw [requests] at tiled
    generalize size : file.length = length at tiled
    cases tiled
    exact absurd (List.length_eq_zero_iff.mp size) nonempty
  | cons request =>
    have sent : request ∈ uploadParallel displayName file numStreams := requests ▸ List.mem_cons_self
    exact ⟨request, List.mem_cons_self, (uploadParallel_carries sent).nonempty⟩

/-- The loops finish whatever they meet exactly when there is a chunk size, or nothing for the first
two to send. -/
theorem upload_loops_finish_iff (irrefl : ∀ x : F, ¬ x < x) (options : TransferOptions F)
    (zip file : Bytes) (displayName : String) :
    options.Finish zip file displayName ↔ 0 < options.chunkSize ∨ (zip = [] ∧ file = []) := by
  constructor
  · intro finish
    rw [or_iff_not_imp_left]
    intro _
    have zero : options.chunkSize = 0 := by omega
    constructor
    · by_contra nonempty
      exact uploadDirectory_endless irrefl zero (List.length_pos_iff.mpr nonempty) 0 0
        (finish.uploadDirectory 0 0 _)
    · by_contra nonempty
      obtain ⟨request, sent, carries⟩ := exists_uploadParallel nonempty displayName
        options.parallelStreams
      exact uploadParallel_endless zero carries 0 0 (finish.uploadParallel request sent 0 0 _)
  · intro condition
    refine ⟨?_, ?_, fun call hashed _ => sendStreaming_finishing call hashed⟩
    · intro cpus now turns
      rcases condition with positive | ⟨empty, _⟩
      · exact uploadDirectory_finishing positive _ cpus now turns
      · apply finishing_of_invariant fun _ _ => True
        · trivial
        · intro _ _ _ _ goesOn
          have unsent := (uploadDirectoryTurn_next goesOn).1
          rw [empty] at unsent
          exact absurd unsent (Nat.not_lt_zero _)
    · intro _ sent cpus now turns
      rcases condition with positive | ⟨_, empty⟩
      · exact uploadParallel_finishing positive _ cpus now turns
      · rw [empty, uploadParallel_empty] at sent
        cases sent

/-- With the default chunk size all of them finish. -/
theorem upload_loops_finish_default :
    (TransferOptions.mk 1048576 4 (some (100 : Rat))).Finish [80, 75, 5, 6]
      [97, 98, 99] "notes" := by
  apply (upload_loops_finish_iff lt_irrefl _ _ _ _).mpr
  left
  decide

def unchunked : TransferOptions Rat :=
  { chunkSize := 0, parallelStreams := 1, throughputLimitMbps := none }

/-- With a chunk size of zero the loop of a directory, and that of a stream, go round for ever. -/
theorem not_finish_unchunked :
    (¬ Finishing (uploadDirectoryTurn 4 fun _ => idleTurn unchunked.throughputLimitMbps)
      (fun state => 4 - state.offset)
        (uploadDirectoryStart unchunked 4 0)) ∧
      (¬ Finishing (uploadParallelTurn fun _ => idleTurn none) Remaining.remaining
        (uploadParallelStart unchunked 4 0 3)) ∧
      ¬ unchunked.Finish [80, 75, 5, 6] [97, 98, 99] "notes" := by
  have directory := @uploadDirectory_endless Rat _ unchunked lt_irrefl rfl 4 (Nat.zero_lt_succ 3) 4 0
  refine ⟨directory, uploadParallel_endless rfl (Nat.zero_lt_succ 2) 4 0, fun finish => ?_⟩
  exact directory (finish.uploadDirectory 4 0 _)

end

end DistributedOs.Http.UploadLoops
