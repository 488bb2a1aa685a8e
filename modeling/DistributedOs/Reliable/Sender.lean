import DistributedOs.Reliable.ChunkTracker
import DistributedOs.Reliable.Frame

/-! `send_file_reliable` as a step function. A step ends where the source waits or
where the order of waits matters: one chunk of the timeout scan, one turn of the
window fill, one byte of the pending read, one expired deadline. The progress log
and the rate reports to the control loop change no state and are left out. -/

namespace DistributedOs.Reliable

open Semantics

/-- A byte slice in memory, so shorter than the address space. -/
structure Slice where
  bytes : Bytes
  addressable : bytes.length < 2 ^ 64

namespace Slice

def total (data : Slice) : UInt64 := UInt64.ofNat data.bytes.length

/-- `&data[info.offset..info.offset + info.size]`. -/
def chunk (data : Slice) (info : ChunkInfo) : Bytes := (data.bytes.drop info.offset).take info.size

def dataFrame (data : Slice) (id : UInt32) (info : ChunkInfo) : Frame :=
  .data id (UInt64.ofNat info.offset) (data.chunk info)

end Slice

structure ReliabilityConfig where
  rto : Nat
  maxRetries : UInt32
  windowSize : UInt32
  deriving DecidableEq

def ReliabilityConfig.default : ReliabilityConfig :=
  { rto := 500, maxRetries := 5, windowSize := 4 }

/-- What one turn of the loop reads from the control loop: twice the round trip in
whole milliseconds, when there are metrics, and the configured streams. -/
structure ControlReading where
  doubledRtt : Option Nat
  parallelStreams : Nat
  deriving DecidableEq

inductive SendError where
  | maxRetriesExceeded
  | unknownFrameType
  | cancelledByPeer (reason : Bytes)
  deriving DecidableEq

/-- Where the sender is in its loop; `finack` waits for the answer to the FIN. -/
inductive SenderPhase where
  | top
  | retransmit (timedOut : List UInt32)
  | fill (batch : List Frame) (batched : UInt32)
  | select
  | finack
  | finished (result : Except SendError (Nat × Nat))
  deriving DecidableEq

/-- `buf` holds the bytes the pending `read_frame` has taken from the stream. -/
structure Sender where
  clock : Nat
  tracker : ChunkTracker
  rto : Nat
  config : ReliabilityConfig
  buf : Bytes
  phase : SenderPhase
  deriving DecidableEq

inductive SenderEvent where
  | elapse (ms : Nat)
  | iterate (control : Option ControlReading)
  | resend
  | fill
  | byte (value : UInt8)
  | deadline
  deriving DecidableEq

def RawFrame.chunkId (frame : RawFrame) : UInt32 := UInt32.ofNat (ofBe (frame.2.take 4))

namespace ChunkTracker

def resent (tracker : ChunkTracker) (data : Slice) (id : UInt32) : List Frame :=
  match tracker.chunk? id with
  | none => []
  | some info => [data.dataFrame id info]

/-- Step 6 of the loop: where it goes on once a read is over. -/
def completionPhase (tracker : ChunkTracker) : SenderPhase :=
  if tracker.allAcked then .finack else .top

def completionFrames (tracker : ChunkTracker) (data : Slice) : List Frame :=
  if tracker.allAcked then [.fin 0 data.total] else []

end ChunkTracker

namespace Sender

def start (data : Slice) (chunkSize : Nat) (config : ReliabilityConfig)
    (clock : Nat) : Option Sender :=
  (ChunkTracker.new chunkSize data.bytes.length).map fun tracker =>
    { clock, tracker, rto := 500, config, buf := [], phase := .top }

def readControl (sender : Sender) : Option ControlReading → Sender
  | none => sender
  | some reading =>
    let rto := match reading.doubledRtt with
      | some ms => max ms 100
      | none => sender.rto
    { sender with
      rto
      config := { sender.config with windowSize := UInt32.ofNat (max reading.parallelStreams 1), rto } }

/-- Steps 1 to 3: read the control loop, give up or scan for timeouts. -/
def iterate (sender : Sender) (control : Option ControlReading) : Sender :=
  let sender := sender.readControl control
  if sender.tracker.hasExhaustedRetries sender.config.maxRetries then
    { sender with phase := .finished (.error .maxRetriesExceeded) }
  else { sender with phase := .retransmit (sender.tracker.findTimedOut sender.clock sender.rto) }

/-- One turn of the window fill; the batch is written when the loop ends. -/
def fillWindow (data : Slice) (sender : Sender) (batch : List Frame)
    (batched : UInt32) : Sender × List Frame :=
  if sender.tracker.inFlight + batched < sender.config.windowSize then
    match sender.tracker.nextPending with
    | some id =>
      match sender.tracker.chunk? id with
      | some info =>
        ({ sender with
            tracker := sender.tracker.markInFlight sender.clock id 1
            phase := .fill (batch ++ [data.dataFrame id info]) (batched + 1) }, [])
      | none => (sender, [])
    | none => ({ sender with phase := .select }, batch)
  else ({ sender with phase := .select }, batch)

def adjustWindow (config : ReliabilityConfig) (queueDepthUs : Nat) : ReliabilityConfig :=
  if queueDepthUs > 50000 then
    let less := if config.windowSize = 0 then 0 else config.windowSize - 1
    { config with windowSize := max less 1 }
  else if queueDepthUs < 10000 ∧ config.windowSize < 8 then
    { config with windowSize := config.windowSize + 1 }
  else config

def process (data : Slice) (sender : Sender) (frame : RawFrame) : Option (Sender × List Frame) :=
  let completed (sender : Sender) (written : List Frame) :=
    ({ sender with phase := sender.tracker.completionPhase },
      written ++ sender.tracker.completionFrames data)
  if frame.1 = frameAck then
    (sender.tracker.markAcked frame.chunkId (ofBe ((frame.2.drop 4).take 8))).map fun (_, tracker) =>
      completed { sender with tracker } []
  else if frame.1 = frameNack then
    some (completed { sender with tracker := sender.tracker.retransmit sender.clock frame.chunkId }
      (sender.tracker.resent data frame.chunkId))
  else if frame.1 = frameBpres then
    some (completed { sender with config := adjustWindow sender.config (ofBe (frame.2.take 8)) } [])
  else if frame.1 = frameCancel then
    some ({ sender with phase := .finished (.error (.cancelledByPeer frame.2)) }, [])
  else some (completed sender [])

def finish (data : Slice) (sender : Sender) : Sender :=
  { sender with buf := [], phase := .finished (.ok (data.bytes.length, sender.tracker.lastAckedOffset)) }

-- The splitter of this match is deep.
set_option maxRecDepth 4000 in
/-- One step, with the frames it writes; `none` when the event cannot happen here. -/
def step (data : Slice) (sender : Sender) (event : SenderEvent) : Option (Sender × List Frame) :=
  match sender.phase, event with
  | _, .elapse ms => some ({ sender with clock := sender.clock + ms }, [])
  | .top, .iterate control => some (sender.iterate control, [])
  | .retransmit [], .resend =>
    if sender.tracker.inFlight < sender.config.windowSize then
      some ({ sender with phase := .fill [] 0 }, [])
    else some ({ sender with phase := .select }, [])
  | .retransmit (id :: timedOut), .resend =>
    some ({ sender with
        tracker := sender.tracker.retransmit sender.clock id
        phase := .retransmit timedOut }, sender.tracker.resent data id)
  | .fill batch batched, .fill => some (sender.fillWindow data batch batched)
  | .select, .byte value =>
    match readFrame (sender.buf ++ [value]) with
    | .ok (frame, _) => { sender with buf := [] }.process data frame
    | .error .wouldBlock => some ({ sender with buf := sender.buf ++ [value] }, [])
    | .error .unknownFrameType =>
      some ({ sender with phase := .finished (.error .unknownFrameType) }, [])
  | .select, .deadline =>
    some ({ sender with buf := [], phase := sender.tracker.completionPhase },
      sender.tracker.completionFrames data)
  | .finack, .byte value =>
    match readFrame (sender.buf ++ [value]) with
    | .ok (frame, _) =>
      some (sender.finish data, if frame.1 = frameFinack then [] else [.fin 0 data.total])
    | .error .wouldBlock => some ({ sender with buf := sender.buf ++ [value] }, [])
    | .error .unknownFrameType => some (sender.finish data, [])
  | .finack, .deadline => some (sender.finish data, [])
  | _, _ => none

def arriving (sender : Sender) (event : SenderEvent) : Option RawFrame :=
  match sender.phase, event with
  | .select, .byte value =>
    match readFrame (sender.buf ++ [value]) with
    | .ok (frame, _) => some frame
    | .error _ => none
  | _, _ => none

/-- One turn of the loop that fills the window and then reads these bytes. -/
def turn (fills : Nat) (bytes : Bytes) : List SenderEvent :=
  [.iterate none, .resend] ++ List.replicate fills .fill ++ bytes.map .byte

end Sender

/-- A transfer of two chunks of four bytes. -/
def eightBytes : Slice := { bytes := [1, 2, 3, 4, 5, 6, 7, 8], addressable := by decide }

/-- Every way a step changes the tracker and the phase, and what it then writes. -/
inductive SenderStep (data : Slice) (sender : Sender) :
    SenderEvent → ChunkTracker → SenderPhase → List Frame → Prop where
  | elapsed : SenderStep data sender (.elapse ms) sender.tracker sender.phase []
  | exhausted {control : Option ControlReading} (top : sender.phase = .top)
      (hit : sender.tracker.hasExhaustedRetries (sender.readControl control).config.maxRetries = true) :
      SenderStep data sender (.iterate control) sender.tracker
        (.finished (.error .maxRetriesExceeded)) []
  | scanned {control : Option ControlReading} (top : sender.phase = .top) :
      SenderStep data sender (.iterate control) sender.tracker
        (.retransmit (sender.tracker.findTimedOut sender.clock (sender.readControl control).rto)) []
  | opened (ceased : sender.phase = .retransmit []) :
      SenderStep data sender .resend sender.tracker (.fill [] 0) []
  | closed (ceased : sender.phase = .retransmit []) :
    SenderStep data sender .resend sender.tracker .select []
  | resent {id : UInt32} {timedOut : List UInt32} (due : sender.phase = .retransmit (id :: timedOut)) :
      SenderStep data sender .resend (sender.tracker.retransmit sender.clock id) (.retransmit timedOut)
        (sender.tracker.resent data id)
  | filled {batch : List Frame} {batched id : UInt32} {info : ChunkInfo}
    (filling : sender.phase = .fill batch batched) (next : sender.tracker.nextPending = some id)
      (found : sender.tracker.chunk? id = some info) :
      SenderStep data sender .fill (sender.tracker.markInFlight sender.clock id 1)
        (.fill (batch ++ [data.dataFrame id info]) (batched + 1)) []
  | spun : SenderStep data sender .fill sender.tracker sender.phase []
  | flushed (filling : sender.phase = .fill batch batched) :
      SenderStep data sender .fill sender.tracker .select batch
  | waited : SenderStep data sender (.byte value) sender.tracker sender.phase []
  | refused (select : sender.phase = .select) (error : SendError) :
      SenderStep data sender (.byte value) sender.tracker (.finished (.error error)) []
  | acked {frame : RawFrame} (arrived : sender.arriving event = some frame) (isAck : frame.1 = frameAck)
      (marked : sender.tracker.markAcked frame.chunkId (ofBe ((frame.2.drop 4).take 8)) =
        some (fresh, tracker)) :
      SenderStep data sender event tracker tracker.completionPhase (tracker.completionFrames data)
  | nacked {frame : RawFrame} (arrived : sender.arriving event = some frame)
    (isNack : frame.1 = frameNack) :
      SenderStep data sender event (sender.tracker.retransmit sender.clock frame.chunkId)
        (sender.tracker.retransmit sender.clock frame.chunkId).completionPhase
        (sender.tracker.resent data frame.chunkId ++
          (sender.tracker.retransmit sender.clock frame.chunkId).completionFrames data)
  | passed (select : sender.phase = .select) :
      SenderStep data sender event sender.tracker sender.tracker.completionPhase
        (sender.tracker.completionFrames data)
  | returned (closing : sender.phase = .finack) (again : written = [] ∨ written = [.fin 0 data.total]) :
      SenderStep data sender event sender.tracker
        (.finished (.ok (data.bytes.length, sender.tracker.lastAckedOffset))) written

namespace Sender

variable {data : Slice} {sender next : Sender} {event : SenderEvent} {written : List Frame}
  {frame : RawFrame}

@[simp] theorem readControl_tracker (control : Option ControlReading) :
    (sender.readControl control).tracker = sender.tracker := by
  cases control <;> rfl

@[simp] theorem readControl_clock (control : Option ControlReading) :
    (sender.readControl control).clock = sender.clock := by
  cases control <;> rfl

theorem process_buf (handled : process data sender frame = some (next, written)) :
    next.buf = sender.buf := by
  unfold process at handled
  split at handled
  · obtain ⟨_, _, same⟩ := Option.map_eq_some_iff.mp handled
    cases same
    rfl
  · split at handled
    · cases handled
      rfl
    · split at handled
      · cases handled
        rfl
      · split at handled <;> cases handled <;> rfl

theorem arriving_select (arrived : sender.arriving event = some frame) :
    sender.phase = .select := by
  unfold arriving at arrived
  split at arrived
  · assumption
  · cases arrived

private theorem process_cases (select : sender.phase = .select)
    (arrived : sender.arriving (.byte value) = some frame)
    (handled : process data { sender with buf := [] } frame = some (next, written)) :
    SenderStep data sender (.byte value) next.tracker next.phase written := by
  unfold process at handled
  split at handled
  · rename_i isAck
    obtain ⟨⟨_, _⟩, marked, same⟩ := Option.map_eq_some_iff.mp handled
    cases same
    exact .acked arrived isAck marked
  · split at handled
    · rename_i isNack
      cases handled
      exact .nacked arrived isNack
    · split at handled
      · cases handled
        exact .passed select
      · split at handled
        · cases handled
          exact .refused select _
        · cases handled
          exact .passed select

private theorem fillWindow_cases (filling : sender.phase = .fill batch batched)
    (turned : sender.fillWindow data batch batched = (next, written)) :
    SenderStep data sender .fill next.tracker next.phase written := by
  unfold fillWindow at turned
  split at turned
  · cases pending : sender.tracker.nextPending with
    | none =>
      simp only [pending] at turned
      cases turned
      exact .flushed filling
    | some id =>
      cases found : sender.tracker.chunk? id with
      | none =>
        simp only [pending, found] at turned
        cases turned
        exact .spun
      | some =>
        simp only [pending, found] at turned
        cases turned
        exact .filled filling pending found
  · cases turned
    exact .flushed filling

/-- The inversion lemma: a step does one of the things listed, and nothing else. -/
theorem step_cases (taken : sender.step data event = some (next, written)) :
    SenderStep data sender event next.tracker next.phase written := by
  unfold step at taken
  split at taken
  · cases taken
    exact .elapsed
  · rename_i control top
    cases taken
    by_cases hit : sender.tracker.hasExhaustedRetries
      (sender.readControl control).config.maxRetries = true
    · simpa [iterate, hit] using SenderStep.exhausted top hit
    · have scan : SenderStep data sender (.iterate control) _ _ [] := .scanned top
      simpa [iterate, hit] using scan
  · rename_i ceased
    split at taken
    · cases taken
      exact .opened ceased
    · cases taken
      exact .closed ceased
  · rename_i due
    cases taken
    exact .resent due
  · rename_i filling
    exact fillWindow_cases filling (Option.some.inj taken)
  · rename_i select
    split at taken
    · rename_i read
      exact process_cases select (by simp [arriving, select, read]) taken
    · cases taken
      exact .waited
    · cases taken
      exact .refused select _
  · rename_i select
    cases taken
    exact .passed select
  · rename_i closing
    split at taken
    · cases taken
      refine .returned closing ?_
      split
      · exact .inl rfl
      · exact .inr rfl
    · cases taken
      exact .waited
    · cases taken
      exact .returned closing (.inl rfl)
  · rename_i closing
    cases taken
    exact .returned closing (.inl rfl)
  · cases taken

end Sender

end DistributedOs.Reliable
