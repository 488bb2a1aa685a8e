import DistributedOs.Semantics.Floating
import DistributedOs.Tasks.File

/-! The session of a transfer, from the tracker that begins it to the end that finalizes it. Times
go into a session as text, without their offset. -/

namespace DistributedOs.Cli

open Semantics

/-- A reading of the local clock: milliseconds since the epoch, and what a calendar makes of them. -/
structure LocalTime where
  instant : Int
  year : Nat
  month : Nat
  day : Nat
  hour : Nat
  minute : Nat
  second : Nat
  millis : Nat
  deriving DecidableEq

def noon : LocalTime :=
  { instant := 1714564800000, year := 2024, month := 5, day := 1, hour := 12, minute := 0,
    second := 0, millis := 0 }

def digit (n : Nat) : Char := Char.ofNat (48 + n % 10)

def twoDigits (n : Nat) : List Char := [digit (n / 10), digit n]

def threeDigits (n : Nat) : List Char := digit (n / 100) :: twoDigits n

/-- `%Y`: four digits, and a sign before more. -/
def yearDigits (year : Nat) : List Char :=
  if year < 10000 then digit (year / 1000) :: threeDigits year else '+' :: Nat.toDigits 10 year

/-- `%Y-%m-%dT%H:%M:%S%.3f`. -/
def LocalTime.format (time : LocalTime) : String :=
  String.ofList
    (yearDigits time.year ++ '-' :: twoDigits time.month ++ '-' :: twoDigits time.day ++
      'T' :: twoDigits time.hour ++
      ':' :: twoDigits time.minute ++ ':' :: twoDigits time.second ++ '.' :: threeDigits time.millis)

/-- `%H:%M:%S`. -/
def LocalTime.clock (time : LocalTime) : List Char :=
  twoDigits time.hour ++ ':' :: twoDigits time.minute ++ ':' :: twoDigits time.second

/-- `time-offset` of RFC 3339. -/
def timeOffset : List Char → Bool
  | ['Z'] | ['z'] => true
  | [sign, h₁, h₂, ':', m₁, m₂] => (sign = '+' || sign = '-') && [h₁, h₂, m₁, m₂].all Char.isDigit
  | _ => false

/-- `time-secfrac` of RFC 3339, where there is one. -/
def withoutFraction : List Char → List Char
  | '.' :: rest => rest.dropWhile Char.isDigit
  | rest => rest

/-- The form of an RFC 3339 `date-time`, in which the offset is not optional. -/
def dateTime : List Char → Bool
  | y₁ :: y₂ :: y₃ :: y₄ :: '-' :: m₁ :: m₂ :: '-' :: d₁ :: d₂ :: separator :: h₁ :: h₂ :: ':' ::
    n₁ :: n₂ :: ':' :: s₁ :: s₂ ::
      rest =>
    [y₁, y₂, y₃, y₄, m₁, m₂, d₁, d₂, h₁, h₂, n₁, n₂, s₁, s₂].all Char.isDigit &&
    "Tt ".toList.contains separator &&
      timeOffset (withoutFraction rest)
  | _ => false

/-- The date library reads the instant of an RFC 3339 text, and reads no other text. -/
structure DateLibrary where
  parseFromRfc3339 : String → Option Int
  rfc3339 : ∀ text instant, parseFromRfc3339 text = some instant → dateTime text.toList = true

def strictDates : DateLibrary where
  parseFromRfc3339 text := if dateTime text.toList then some 0 else none
  rfc3339 := by
    intro text instant parsed
    split at parsed
    · assumption
    · cases parsed

theorem isDigit_digit (n : Nat) : (digit n).isDigit = true := by
  have small : n % 10 < 10 := Nat.mod_lt n (by decide)
  have digits : ∀ k < 10, (Char.ofNat (48 + k)).isDigit = true := by decide
  exact digits (n % 10) small

theorem isDigit_of_dateTime (form : dateTime (first :: rest) = true) : first.isDigit = true := by
  unfold dateTime at form
  split at form
  · rename_i split
    cases split
    simp only [Bool.and_eq_true, List.all_cons] at form
    exact form.1.1.1
  · cases form

theorem DateLibrary.parse_format (dates : DateLibrary)
    (time : LocalTime) : dates.parseFromRfc3339 time.format = none := by
  cases parsed : dates.parseFromRfc3339 time.format with
  | none => rfl
  | some instant =>
    have form := dates.rfc3339 time.format instant parsed
    rw [LocalTime.format, String.toList_ofList, yearDigits] at form
    split at form
    · simp [threeDigits, twoDigits, dateTime, withoutFraction, timeOffset, isDigit_digit] at form
    · exact absurd (isDigit_of_dateTime form) (by decide)

structure SpeedSample (F : Type) where
  timeOffsetSec : F
  speedMbps : F

/-- Milliseconds since the transfer began. -/
structure PhaseRecord (F : Type) where
  name : String
  start : F
  ended : Option F
  durationMs : Option F

structure NetworkChange (F : Type) where
  time : String
  interface : String
  ip : String
  rssi : Option F
  linkSpeed : Option F
  event : String

structure ProtocolEvent where
  time : String
  eventType : String
  detail : String

/-- Without the fields that are zero from the beginning to the end. -/
structure TransferSession (F : Type) where
  id : String
  filename : String
  fileType : String
  fileExtension : String
  originalSize : UInt64
  compressedSize : Option UInt64
  compressionRatio : Option F
  compressionTimeMs : Option UInt64
  cpuUsedCompression : Option F
  bandwidthSaved : Option UInt64
  timeSavedSec : Option F
  startTime : String
  endTime : Option String
  durationSecs : Option F
  sha256 : Option String
  averageSpeedMbps : F
  peakSpeedMbps : F
  minSpeedMbps : F
  medianSpeedMbps : F
  p95SpeedMbps : F
  packetLossPct : F
  retransmissions : UInt64
  reconnects : UInt32
  diskReadMbps : F
  diskWriteMbps : F
  peakCpuPct : F
  completed : Bool
  verified : Bool
  resumed : Bool
  interrupted : Bool
  error : Option String
  healthScore : Option F
  bottleneck : Option String
  recommendation : Option String
  phases : List (PhaseRecord F)
  speedSamples : List (SpeedSample F)
  networkChanges : List (NetworkChange F)
  protocolEvents : List ProtocolEvent

section
variable {F : Type} [Floating F]

/-- `f64::MAX`. -/
def largest : F := OfScientific.ofScientific 17976931348623157 false 292

/-- `counter` is what `TRANSFER_ID_COUNTER.fetch_add` returns. -/
def newTransferSession (counter : UInt64) (now : LocalTime) (filename : String)
    (size : UInt64) : TransferSession F :=
  let ext := (Tasks.extension filename).getD ""
  { id := "txn_" ++ toString counter.toNat, filename, fileType := ext, fileExtension := ext,
    originalSize := size
    compressedSize := none, compressionRatio := none, compressionTimeMs := none,
      cpuUsedCompression := none
    bandwidthSaved := none, timeSavedSec := none, startTime := now.format, endTime := none,
      durationSecs := none
    sha256 := none, averageSpeedMbps := 0.0, peakSpeedMbps := 0.0, minSpeedMbps := largest,
      medianSpeedMbps := 0.0
    p95SpeedMbps := 0.0, packetLossPct := 0.0, retransmissions := 0, reconnects := 0, diskReadMbps := 0.0
    diskWriteMbps := 0.0, peakCpuPct := 0.0, completed := false, verified := false, resumed := false
    interrupted := false, error := none, healthScore := none, bottleneck := none, recommendation := none
    phases := [], speedSamples := [], networkChanges := [], protocolEvents := [] }

def computeHealthScore (session : TransferSession F) : F :=
  let score : F := 100.0
  let score := if session.interrupted then score - 20.0 else score
  let score := if session.error.isSome then score - 15.0 else score
  let score := if 0 < session.reconnects then score - (session.reconnects.toNat : F) * 5.0 else score
  let score := if session.resumed then score - 5.0 else score
  let score := if (1.0 : F) < session.packetLossPct then
    score - min (session.packetLossPct * 2.0) 15.0 else score
  let score := if session.averageSpeedMbps < (1.0 : F) then score - 10.0 else score
  let score := if (90.0 : F) < session.peakCpuPct then score - 5.0 else score
  min (max score 0.0) 100.0

def detectBottleneck (session : TransferSession F) (networkMbps : F) : String × String :=
  let diskMbps := max session.diskWriteMbps session.diskReadMbps
  let cpuPct := session.peakCpuPct
  if (90.0 : F) < cpuPct ∧ diskMbps < networkMbps * 0.5 then
    ("CPU", "High CPU usage is limiting throughput.")
  else if diskMbps < networkMbps * 0.3 ∧ (0.0 : F) < diskMbps then
    ("Receiver Disk", "Receiver storage is limiting throughput.")
  else if (2.0 : F) < session.packetLossPct then
    ("Network", "High packet loss is degrading performance.")
  else if 100 < session.retransmissions then ("Network", "Excessive retransmissions detected.")
  else if (80.0 : F) < cpuPct then ("CPU", "Disable compression for this file type.")
  else ("Network", "Network bandwidth is the limiting factor.")

/-- `num_milliseconds() as f64 / 1000.0`. -/
def seconds (millis : Int) : F :=
  if millis < 0 then -((millis.natAbs : F)) / 1000.0 else (millis.natAbs : F) / 1000.0

/-- What the samples say of the speed; nothing is said of no samples. -/
def TransferSession.summarize (session : TransferSession F) : TransferSession F :=
  if session.speedSamples = [] then session
  else
    let speeds := session.speedSamples.map SpeedSample.speedMbps
    let sorted := speeds.mergeSort fun x y => decide (x ≤ y)
    let len := sorted.length
    -- both indices are below the length
    let sortedAt (index : Nat) : F := sorted.getD index 0.0
    { session with
      averageSpeedMbps := speeds.foldl (· + ·) 0.0 / (speeds.length : F)
      peakSpeedMbps := speeds.foldl max 0.0
      minSpeedMbps := speeds.foldl min largest
      medianSpeedMbps := sortedAt (len / 2)
      p95SpeedMbps := min (sortedAt (Floating.trunc ((len : F) * 0.95))) (sortedAt (len - 1)) }

/-- A compression that saved nothing, or of an empty file, leaves the ratio as it is. -/
def TransferSession.compressionSummary (session : TransferSession F) : TransferSession F :=
  match session.compressedSize with
  | none => session
  | some compSize =>
    if 0 < session.originalSize ∧ compSize < session.originalSize then
      { session with
        compressionRatio := some ((compSize.toNat : F) / (session.originalSize.toNat : F))
        bandwidthSaved := some (session.originalSize - compSize) }
    else session

def TransferSession.stamp (dates : DateLibrary) (now later : LocalTime)
    (session : TransferSession F) : TransferSession F :=
  { session with
    endTime := some now.format
    durationSecs :=
      match dates.parseFromRfc3339 session.startTime with
      | some start => some (seconds (later.instant - start))
      | none => session.durationSecs }

def finalizeSession (dates : DateLibrary) (now later : LocalTime) (networkMbps : F)
    (session : TransferSession F) :
    TransferSession F :=
  let session := (session.stamp dates now later).summarize.compressionSummary
  let (bottleneck, recommendation) := detectBottleneck session networkMbps
  let session := { session with bottleneck := some bottleneck, recommendation := some recommendation }
  { session with healthScore := some (computeHealthScore session) }

/-- `number` counts the transfers of the process, and `started` is when this one was begun:
histories that nothing reads. -/
structure TransferTracker (F : Type) where
  session : TransferSession F
  currentPhase : String
  bytesSinceSample : UInt64
  number : UInt64
  started : LocalTime

/-- What the code that transfers does to its tracker, with what the clocks say. -/
inductive TrackerCall (F : Type) where
  | beginPhase (name : String) (now : F)
  | endPhase (now : F)
  | recordSpeed (bytesSent : UInt64) (elapsed timeOffset : F)
  | recordNetworkChange (now : LocalTime) (interface ip event : String)
  | recordProtocolEvent (now : LocalTime) (eventType detail : String)
  | setSha256 (hash : String)
  | setVerified
  | setCompressionStats (original compressed timeMs : UInt64) (cpuPct : F)

inductive TrackerEnd (F : Type) where
  | complete (networkMbps : F)
  | fail (error : String)

namespace TransferTracker

def new (counter : UInt64) (now : LocalTime) (filename : String)
    (size : UInt64) : TransferTracker F :=
  { session := newTransferSession counter now filename size, currentPhase := "",
    bytesSinceSample := 0, number := counter
    started := now }

def closePhase (now : F) (phases : List (PhaseRecord F)) : List (PhaseRecord F) :=
  phases.modify (phases.length - 1) fun phase =>
  { phase with ended := some now, durationMs := some (now - phase.start) }

def beginPhase (tracker : TransferTracker F) (name : String) (now : F) : TransferTracker F :=
  let phases := if tracker.currentPhase = "" then tracker.session.phases
    else closePhase now tracker.session.phases
  { tracker with
    session := { tracker.session with phases := phases ++
      [{ name, start := now, ended := none, durationMs := none }] }
    currentPhase := name }

/-- The last phase gets a new end, also where it has one. -/
def endPhase (tracker : TransferTracker F) (now : F) : TransferTracker F :=
  { tracker with
    session := { tracker.session with phases := closePhase now tracker.session.phases }
    currentPhase := "" }

/-- A sample is taken after half a second. -/
def recordSpeed (tracker : TransferTracker F) (bytesSent : UInt64) (elapsed timeOffset : F) :
    TransferTracker F :=
  let bytes := tracker.bytesSinceSample + bytesSent
  if (0.5 : F) ≤ elapsed then
    let speed := (bytes.toNat : F) * 8.0 / (elapsed * 1000000.0)
    { tracker with
      session := { tracker.session with
        speedSamples := tracker.session.speedSamples ++
          [{ timeOffsetSec := timeOffset, speedMbps := speed }] }
      bytesSinceSample := 0 }
  else { tracker with bytesSinceSample := bytes }

def setCompressionStats (original compressed timeMs : UInt64) (cpuPct : F)
    (session : TransferSession F) : TransferSession F :=
  let origTime : F := (original.toNat : F) / (100.0 * 1024.0 * 1024.0)
  let compTime : F := (compressed.toNat : F) / (100.0 * 1024.0 * 1024.0)
  { session with
    compressedSize := some compressed
    compressionRatio := some ((compressed.toNat : F) / (original.toNat : F))
    compressionTimeMs := some timeMs
    cpuUsedCompression := some cpuPct
    bandwidthSaved := if compressed < original then some (original - compressed)
      else session.bandwidthSaved
    timeSavedSec := some (max (origTime - compTime) 0.0) }

def call (tracker : TransferTracker F) : TrackerCall F → TransferTracker F
  | .recordSpeed bytesSent elapsed timeOffset => tracker.recordSpeed bytesSent elapsed timeOffset
  | .beginPhase name now => tracker.beginPhase name now
  | .endPhase now => tracker.endPhase now
  | .recordNetworkChange now interface ip event =>
    let change :=
      { time := String.ofList now.clock, interface, ip, rssi := none, linkSpeed := none, event }
    { tracker with session := { tracker.session with
      networkChanges := tracker.session.networkChanges ++ [change],
        reconnects := tracker.session.reconnects + 1 } }
  | .recordProtocolEvent now eventType detail =>
    let event :=
      { time := String.ofList (now.clock ++ '.' :: threeDigits now.millis), eventType, detail }
    { tracker with session :=
      { tracker.session with protocolEvents := tracker.session.protocolEvents ++ [event] } }
  | .setSha256 hash => { tracker with session := { tracker.session with sha256 := some hash } }
  | .setVerified => { tracker with session := { tracker.session with verified := true } }
  | .setCompressionStats original compressed timeMs cpuPct =>
    { tracker with session := setCompressionStats original compressed timeMs cpuPct tracker.session }

/-- `millis` is when the last phase ends. -/
def complete (dates : DateLibrary) (millis : F) (now later : LocalTime) (networkMbps : F)
    (tracker : TransferTracker F) :
    TransferSession F :=
  finalizeSession dates now later networkMbps
    { (tracker.endPhase millis).session with completed := true, interrupted := false }

def fail (dates : DateLibrary) (millis : F) (now later : LocalTime) (error : String)
    (tracker : TransferTracker F) :
    TransferSession F :=
  finalizeSession dates now later 0.0
    { (tracker.endPhase millis).session with
      completed := false, interrupted := true, error := some error }

def finish (dates : DateLibrary) (millis : F) (now later : LocalTime)
    (tracker : TransferTracker F) :
    TrackerEnd F → TransferSession F
  | .complete networkMbps => tracker.complete dates millis now later networkMbps
  | .fail error => tracker.fail dates millis now later error

end TransferTracker

/-- The session of a transfer has the id of its number, a start time that the program has
formatted, and no duration. -/
structure Begun (number : UInt64) (started : LocalTime) (session : TransferSession F) : Prop where
  id : session.id = "txn_" ++ toString number.toNat
  startTime : session.startTime = started.format
  untimed : session.durationSecs = none

variable {number : UInt64} {started : LocalTime} {session : TransferSession F}
  {tracker : TransferTracker F}

omit [Floating F] in
theorem Begun.id_eq_iff {other : UInt64} {later : LocalTime} {session₁ session₂ : TransferSession F}
    (first : Begun number started session₁) (second : Begun other later session₂) :
    session₁.id = session₂.id ↔ number = other := by
  constructor
  · intro same
    rw [first.id, second.id, String.append_right_inj, Nat.toString_eq_ofList_toDigits,
      Nat.toString_eq_ofList_toDigits,
      String.ofList_inj] at same
    have numbers := congrArg (Nat.ofDigitChars 10 · 0) same
    simp only [Nat.ofDigitChars_ten_toDigits] at numbers
    exact UInt64.toNat_inj.mp numbers
  · rintro rfl
    rw [first.id, second.id]

theorem TransferTracker.new_begun (counter : UInt64) (now : LocalTime) (filename : String)
    (size : UInt64) :
    Begun counter now (TransferTracker.new counter now filename size : TransferTracker F).session :=
  ⟨rfl, rfl, rfl⟩

theorem TransferTracker.call_origin (tracker : TransferTracker F) (call : TrackerCall F) :
    (tracker.call call).number = tracker.number ∧
      (tracker.call call).started = tracker.started := by
  cases call with
  | recordSpeed =>
    simp only [TransferTracker.call, TransferTracker.recordSpeed]
    split <;> exact ⟨rfl, rfl⟩
  | beginPhase | endPhase | recordNetworkChange | recordProtocolEvent | setSha256 | setVerified
    | setCompressionStats =>
    exact ⟨rfl, rfl⟩

theorem Begun.call (begun : Begun number started tracker.session) (call : TrackerCall F) :
    Begun number started (tracker.call call).session := by
  cases call with
  | recordSpeed =>
    simp only [TransferTracker.call, TransferTracker.recordSpeed]
    split
    · exact ⟨begun.id, begun.startTime, begun.untimed⟩
    · exact begun
  | beginPhase | endPhase | recordNetworkChange | recordProtocolEvent | setSha256 | setVerified
    | setCompressionStats =>
    exact ⟨begun.id, begun.startTime, begun.untimed⟩

theorem Begun.summarize (begun : Begun number started session) :
    Begun number started session.summarize := by
  unfold TransferSession.summarize
  split
  · exact begun
  · exact ⟨begun.id, begun.startTime, begun.untimed⟩

theorem Begun.compressionSummary (begun : Begun number started session) :
    Begun number started session.compressionSummary := by
  unfold TransferSession.compressionSummary
  split
  · exact begun
  · split
    · exact ⟨begun.id, begun.startTime, begun.untimed⟩
    · exact begun

theorem Begun.stamp (begun : Begun number started session) (dates : DateLibrary)
    (now later : LocalTime) :
    Begun number started (session.stamp dates now later) := by
  refine ⟨begun.id, begun.startTime, ?_⟩
  rw [TransferSession.stamp, begun.startTime, dates.parse_format]
  exact begun.untimed

theorem Begun.finalize (begun : Begun number started session) (dates : DateLibrary)
    (now later : LocalTime) (networkMbps : F) :
    Begun number started (finalizeSession dates now later networkMbps session) := by
  have summary := (begun.stamp dates now later).summarize.compressionSummary
  exact ⟨summary.id, summary.startTime, summary.untimed⟩

theorem Begun.finish (begun : Begun number started tracker.session) (dates : DateLibrary)
    (millis : F) (now later : LocalTime) (ending : TrackerEnd F) :
    Begun number started (tracker.finish dates millis now later ending) := by
  cases ending with
  | complete networkMbps =>
    have ended : Begun number started
        { (tracker.endPhase millis).session with completed := true, interrupted := false } :=
      ⟨begun.id, begun.startTime, begun.untimed⟩
    exact ended.finalize dates now later networkMbps
  | fail error =>
    have ended : Begun number started
        { (tracker.endPhase millis).session with
          completed := false, interrupted := true, error := some error } :=
      ⟨begun.id, begun.startTime, begun.untimed⟩
    exact ended.finalize dates now later 0.0

theorem verified_finalizeSession (dates : DateLibrary) (now later : LocalTime) (networkMbps : F) :
    (finalizeSession dates now later networkMbps session).verified = session.verified := by
  have compression (session : TransferSession F) :
      session.compressionSummary.verified = session.verified := by
    unfold TransferSession.compressionSummary
    split
    · rfl
    · split <;> rfl
  have summary (session : TransferSession F) : session.summarize.verified = session.verified := by
    unfold TransferSession.summarize
    split <;> rfl
  exact (compression _).trans (summary _)

end

end DistributedOs.Cli
