import DistributedOs.Cli.TransferTracker
import DistributedOs.Semantics.Execution

/-! The history of transfers over starts of the program. A start reads the history that was saved,
and counts its transfers from one again; file operations succeed, and one process runs at a time. -/

namespace DistributedOs.Cli

open Semantics

variable {F : Type}

/-- The session with its numbers read back from their texts. A number that is not finite is written
as `null`, which is read back only where a field is optional. -/
def TransferSession.reread (number : F → Option F) (session : TransferSession F) :
    Option (TransferSession F) :=
  do
  let averageSpeedMbps ← number session.averageSpeedMbps
  let peakSpeedMbps ← number session.peakSpeedMbps
  let minSpeedMbps ← number session.minSpeedMbps
  let medianSpeedMbps ← number session.medianSpeedMbps
  let p95SpeedMbps ← number session.p95SpeedMbps
  let packetLossPct ← number session.packetLossPct
  let diskReadMbps ← number session.diskReadMbps
  let diskWriteMbps ← number session.diskWriteMbps
  let peakCpuPct ← number session.peakCpuPct
  let phases ← session.phases.mapM fun phase => do
    let start ← number phase.start
    return { phase with start, ended := phase.ended.bind number, durationMs := phase.durationMs.bind number }
  let speedSamples ← session.speedSamples.mapM fun sample => do
    let timeOffsetSec ← number sample.timeOffsetSec
    let speedMbps ← number sample.speedMbps
    return { timeOffsetSec, speedMbps : SpeedSample F }
  return { session with
    compressionRatio := session.compressionRatio.bind number
    cpuUsedCompression := session.cpuUsedCompression.bind number
    timeSavedSec := session.timeSavedSec.bind number
    durationSecs := session.durationSecs.bind number
    averageSpeedMbps, peakSpeedMbps, minSpeedMbps, medianSpeedMbps, p95SpeedMbps,
    packetLossPct, diskReadMbps
    diskWriteMbps, peakCpuPct
    healthScore := session.healthScore.bind number
    phases, speedSamples
    networkChanges := session.networkChanges.map fun change =>
      { change with rssi := change.rssi.bind number, linkSpeed := change.linkSpeed.bind number } }

/-- `serde_json` on a history: what has been written is read back, number by number. -/
structure HistoryJson (F : Type) where
  Text : Type
  toStringPretty : List (TransferSession F) → Text
  fromStr : Text → Option (List (TransferSession F))
  number : F → Option F
  roundTrip : ∀ sessions, fromStr (toStringPretty sessions) = sessions.mapM
    (TransferSession.reread number)

/-- What `complete` or `fail` has returned, with the transfer it is of. -/
structure FinishedSession (F : Type) where
  session : TransferSession F
  number : UInt64
  started : LocalTime
  ended : LocalTime

/-- The running process and the disk. `stored` are the sessions stored so far, in every process: a
history that nothing reads. -/
structure Program (F : Type) (json : HistoryJson F) where
  counter : UInt64
  trackers : List (TransferTracker F)
  finished : List (FinishedSession F)
  sessions : List (TransferSession F)
  disk : Option json.Text
  stored : List (FinishedSession F)

inductive ProgramEvent (F : Type) where
  | start
  | begin (now : LocalTime) (filename : String) (size : UInt64)
  | call (index : Nat) (call : TrackerCall F)
  | finish (index : Nat) (millis : F) (now later : LocalTime) (ending : TrackerEnd F)
  | store (index : Nat)

def lastItems {α : Type} (n : Nat) (items : List α) : List α := items.drop (items.length - n)

/-- `store_session` on the list of sessions: the first goes when there are more than 100. -/
def pushSession (sessions : List (TransferSession F)) (session : TransferSession F) :
    List (TransferSession F) :=
  let sessions := sessions ++ [session]
  if 100 < sessions.length then sessions.tail else sessions

/-- `load_history_from_disk` in a new process. -/
def loadHistory (json : HistoryJson F) (disk : Option json.Text) : List (TransferSession F) :=
  (disk.bind json.fromStr).getD []

namespace Program

variable [Floating F] {json : HistoryJson F}

/-- The first start, before anything was saved. -/
def initial (json : HistoryJson F) : Program F json :=
  { counter := 1, trackers := [], finished := [], sessions := [], disk := none, stored := [] }

def step (dates : DateLibrary) (program : Program F json) : ProgramEvent F → Option (Program F json)
  | .start =>
    some { program with
      counter := 1, trackers := [], finished := [], sessions := loadHistory json program.disk }
  | .begin now filename size =>
    some { program with
      counter := program.counter + 1
      trackers := program.trackers ++ [.new program.counter now filename size] }
  | .call index call =>
    program.trackers[index]?.map fun tracker =>
    { program with trackers := program.trackers.set index (tracker.call call) }
  | .finish index millis now later ending =>
    program.trackers[index]?.map fun tracker =>
      { program with
        trackers := program.trackers.eraseIdx index
        finished := program.finished ++
          [{ session := tracker.finish dates millis now later ending
             number := tracker.number, started := tracker.started, ended := now }] }
  | .store index =>
    program.finished[index]?.map fun finished =>
      let sessions := pushSession program.sessions finished.session
      { program with
        finished := program.finished.eraseIdx index
        sessions, disk := some (json.toStringPretty sessions), stored := program.stored ++ [finished] }

/-- No two sessions share an id, the history is what was stored last, and a start reads it back. -/
structure Faithful (program : Program F json) : Prop where
  distinct : (program.sessions.map TransferSession.id).Nodup
  lastHundred : program.sessions = lastItems 100 (program.stored.map FinishedSession.session)
  survives : loadHistory json program.disk = program.sessions

/-- And every session that was stored says how long its transfer took. -/
structure Lawful (program : Program F json) : Prop extends Faithful program where
  timed : ∀ stored ∈ program.stored,
    stored.session.durationSecs = some (seconds (stored.ended.instant - stored.started.instant))

def storesNothing (_ : Program F json) : ProgramEvent F → Prop
  | .store _ => False
  | _ => True

/-- A session that is stored is read back as it is, and none of the 99 stored before it was a
transfer of the same number in its process. -/
def storesApart (program : Program F json) : ProgramEvent F → Prop
  | .store index => ∀ finished, program.finished[index]? = some finished →
      finished.session.reread json.number = some finished.session ∧
        ∀ earlier ∈ lastItems 99 program.stored, earlier.number ≠ finished.number
  | _ => True

end Program

section
variable {α β : Type}

theorem lastItems_map (f : α → β) (n : Nat)
    (items : List α) : lastItems n (items.map f) = (lastItems n items).map f := by
  rw [lastItems, lastItems, List.length_map, List.map_drop]

theorem length_lastItems (n : Nat)
    (items : List α) : (lastItems n items).length = min n items.length := by
  rw [lastItems, List.length_drop]
  omega

theorem lastItems_lastItems (fewer : m ≤ n)
    (items : List α) : lastItems m (lastItems n items) = lastItems m items := by
  rw [lastItems, length_lastItems, lastItems, List.drop_drop, lastItems]
  congr 1
  omega

theorem lastItems_concat (n : Nat) (items : List α) (item : α) :
    lastItems (n + 1) (items ++ [item]) = lastItems n items ++ [item] := by
  rw [lastItems, lastItems, List.length_append, List.length_singleton, Nat.add_sub_add_right,
    List.drop_append_of_le_length (Nat.sub_le _ _)]

theorem mapM_eq_self_iff {items : List α} : items.mapM f = some items ↔
      ∀ item ∈ items, f item = some item := by
  induction items with
  | nil => simp
  | cons item items ih =>
    rw [List.mapM_cons, List.forall_mem_cons, ← ih]
    cases head : f item <;> cases tail : items.mapM f <;> simp

end

theorem pushSession_lastItems (sessions : List (TransferSession F)) (session : TransferSession F) :
    pushSession (lastItems 100 sessions) session = lastItems 100 (sessions ++ [session]) := by
  have length := length_lastItems 100 sessions
  rw [pushSession, lastItems_concat 99]
  simp only [List.length_append, List.length_singleton]
  split
  · rename_i beyond
    have full : (lastItems 100 sessions).length = 99 + 1 := by omega
    rw [List.tail_append_of_ne_nil (List.ne_nil_of_length_eq_add_one full), ← List.drop_one,
      lastItems, List.drop_drop, lastItems]
    congr 2
    omega
  · rename_i within
    rw [← lastItems_lastItems (by omega : 99 ≤ 100), lastItems.eq_1 99,
      Nat.sub_eq_zero_of_le (by omega), List.drop_zero]

variable {json : HistoryJson F} {sessions : List (TransferSession F)} {session : TransferSession F}

theorem loadHistory_eq_iff :
    loadHistory json (some (json.toStringPretty sessions)) = sessions ↔
      ∀ session ∈ sessions, session.reread json.number = some session := by
  rw [← mapM_eq_self_iff, loadHistory, Option.bind_some, json.roundTrip]
  cases read : sessions.mapM (TransferSession.reread json.number) with
  | some => simp
  | none =>
    refine iff_of_false (fun empty => ?_) nofun
    rw [← empty] at read
    cases read

namespace Program
variable [Floating F] {dates : DateLibrary} {program after : Program F json}
  {event : ProgramEvent F}

/-- Every session is that of the transfer it is recorded for. -/
structure Kept (program : Program F json) : Prop where
  trackers : ∀ tracker ∈ program.trackers, Begun tracker.number tracker.started tracker.session
  finished : ∀ finished ∈ program.finished, Begun finished.number finished.started finished.session
  stored : ∀ stored ∈ program.stored, Begun stored.number stored.started stored.session

theorem Kept.step (kept : program.Kept) (taken : program.step dates event = some after) :
    after.Kept := by
  cases event with
  | start =>
    rw [← Option.some.inj taken]
    exact ⟨List.forall_mem_nil _, List.forall_mem_nil _, kept.stored⟩
  | begin now filename size =>
    rw [← Option.some.inj taken]
    refine ⟨fun tracker member => ?_, kept.finished, kept.stored⟩
    rcases List.mem_append.mp member with earlier | last
    · exact kept.trackers tracker earlier
    · rw [List.mem_singleton.mp last]
      exact TransferTracker.new_begun program.counter now filename size
  | call _ call =>
    obtain ⟨tracker, found, rfl⟩ := Option.map_eq_some_iff.mp taken
    refine ⟨fun other member => ?_, kept.finished, kept.stored⟩
    rcases List.mem_or_eq_of_mem_set member with earlier | rfl
    · exact kept.trackers other earlier
    · rw [(tracker.call_origin call).1, (tracker.call_origin call).2]
      exact (kept.trackers tracker (List.mem_of_getElem? found)).call call
  | finish _ millis now later ending =>
    obtain ⟨tracker, found, rfl⟩ := Option.map_eq_some_iff.mp taken
    refine ⟨fun other member => kept.trackers other (List.mem_of_mem_eraseIdx member),
      fun other member => ?_, kept.stored⟩
    rcases List.mem_append.mp member with earlier | last
    · exact kept.finished other earlier
    · rw [List.mem_singleton.mp last]
      exact (kept.trackers tracker (List.mem_of_getElem? found)).finish dates millis now later ending
  | store =>
    obtain ⟨finished, found, rfl⟩ := Option.map_eq_some_iff.mp taken
    refine ⟨kept.trackers, fun other member =>
      kept.finished other (List.mem_of_mem_eraseIdx member), fun other member => ?_⟩
    rcases List.mem_append.mp member with earlier | last
    · exact kept.stored other earlier
    · rw [List.mem_singleton.mp last]
      exact kept.finished finished (List.mem_of_getElem? found)

theorem step_spec (nothing : program.storesNothing event)
    (taken : program.step dates event = some after) :
    after.stored = program.stored ∧ after.disk = program.disk ∧
      (after.sessions = program.sessions ∨ after.sessions = loadHistory json program.disk) := by
  cases event with
  | start =>
    rw [← Option.some.inj taken]
    exact ⟨rfl, rfl, .inr rfl⟩
  | begin =>
    rw [← Option.some.inj taken]
    exact ⟨rfl, rfl, .inl rfl⟩
  | call | finish =>
    obtain ⟨_, _, rfl⟩ := Option.map_eq_some_iff.mp taken
    exact ⟨rfl, rfl, .inl rfl⟩
  | store => exact nothing.elim

theorem store_spec (taken : program.step dates (.store index) = some after) :
    ∃ finished, program.finished[index]? = some finished ∧
      after.stored = program.stored ++ [finished] ∧
      after.sessions = pushSession program.sessions finished.session ∧
      after.disk = some (json.toStringPretty after.sessions) := by
  obtain ⟨finished, found, rfl⟩ := Option.map_eq_some_iff.mp taken
  exact ⟨finished, found, rfl, rfl, rfl⟩

/-- The file holds the sessions as they are, or there is neither. -/
def Saved (program : Program F json) : Prop :=
  program.disk = some (json.toStringPretty program.sessions) ∨ program.disk = none ∧
  program.sessions = []

theorem Faithful.of_not_store (faithful : program.Faithful) (nothing : program.storesNothing event)
    (taken : program.step dates event = some after) :
    after.Faithful ∧ after.sessions = program.sessions := by
  obtain ⟨stored, disk, sessions⟩ := step_spec nothing taken
  rw [faithful.survives, or_self] at sessions
  refine ⟨⟨?_, ?_, ?_⟩, sessions⟩
  · rw [sessions]
    exact faithful.distinct
  · rw [sessions, stored]
    exact faithful.lastHundred
  · rw [disk, sessions]
    exact faithful.survives

omit [Floating F] in
theorem Faithful.reread (faithful : program.Faithful) (saved : program.Saved) :
    ∀ session ∈ program.sessions, session.reread json.number = some session := by
  have survives := faithful.survives
  rcases saved with written | ⟨_, empty⟩
  · rw [written] at survives
    exact loadHistory_eq_iff.mp survives
  · rw [empty]
    exact List.forall_mem_nil _

/-- One more session keeps a history faithful exactly when it is read back as it is, and has
another number than the 99 that stay. -/
theorem faithful_store_iff (kept : program.Kept) (faithful : program.Faithful)
    (saved : program.Saved) (taken : program.step dates (.store index) = some after) :
    after.Faithful ↔ program.storesApart (.store index) := by
  obtain ⟨finished, found, stored, sessions, disk⟩ := store_spec taken
  have all : after.sessions = lastItems 100 (after.stored.map FinishedSession.session) := by
    rw [sessions, faithful.lastHundred, pushSession_lastItems, stored, List.map_append]
    rfl
  have parts : after.sessions = lastItems 99 program.sessions ++ [finished.session] := by
    rw [all, stored, List.map_append, List.map_singleton, lastItems_concat 99, faithful.lastHundred,
      lastItems_lastItems (by omega)]
  have begun := kept.finished finished (List.mem_of_getElem? found)
  have distinct : (after.sessions.map TransferSession.id).Nodup ↔
      ∀ earlier ∈ lastItems 99 program.stored, earlier.number ≠ finished.number := by
    have before : (lastItems 99 program.sessions).map TransferSession.id =
        (lastItems 99 program.stored).map fun earlier => earlier.session.id := by
      rw [faithful.lastHundred, lastItems_lastItems (by omega), lastItems_map, List.map_map]
      rfl
    have others : ((lastItems 99 program.sessions).map TransferSession.id).Nodup :=
      faithful.distinct.sublist ((List.drop_sublist _ _).map _)
    have single : [finished.session.id].Nodup := List.pairwise_singleton _ _
    rw [parts, List.map_append, List.nodup_append, and_iff_right others, List.map_singleton,
      and_iff_right single, before,
      List.forall_mem_map]
    refine forall₂_congr fun earlier member => ?_
    rw [List.forall_mem_singleton]
    exact not_congr ((kept.stored earlier (List.mem_of_mem_drop member)).id_eq_iff begun)
  have survives : loadHistory json after.disk = after.sessions ↔
      finished.session.reread json.number = some finished.session := by
    rw [disk, loadHistory_eq_iff, parts, List.forall_mem_append, List.forall_mem_singleton]
    exact and_iff_right fun session member => faithful.reread saved session (List.mem_of_mem_drop member)
  constructor
  · intro holds _ there
    cases found.symm.trans there
    exact ⟨survives.mp holds.survives, distinct.mp holds.distinct⟩
  · intro apart
    obtain ⟨read, others⟩ := apart finished found
    exact ⟨distinct.mpr others, all, survives.mpr read⟩

theorem Saved.step (saved : program.Saved) (faithful : program.Faithful)
    (taken : program.step dates event = some after) :
    after.Saved := by
  by_cases nothing : program.storesNothing event
  · obtain ⟨-, disk, -⟩ := step_spec nothing taken
    rw [Saved, disk, (faithful.of_not_store nothing taken).2]
    exact saved
  · cases event with
    | store =>
      obtain ⟨_, _, _, _, disk⟩ := store_spec taken
      exact .inl disk
    | start | begin | call | finish => exact absurd trivial nothing

theorem faithful_step_iff (kept : program.Kept) (faithful : program.Faithful)
    (saved : program.Saved) (taken : program.step dates event = some after) :
    after.Faithful ↔ program.storesApart event := by
  cases event with
  | store => exact faithful_store_iff kept faithful saved taken
  | start | begin | call | finish =>
    refine iff_of_true (faithful.of_not_store ?_ taken).1 trivial
    exact trivial

theorem lawful_step_iff (kept : program.Kept) (lawful : program.Lawful)
    (taken : program.step dates event = some after) :
    after.Lawful ↔ program.storesNothing event := by
  by_cases nothing : program.storesNothing event
  · refine iff_of_true ⟨(lawful.toFaithful.of_not_store nothing taken).1, ?_⟩ nothing
    rw [(step_spec nothing taken).1]
    exact lawful.timed
  · refine iff_of_false (fun holds => ?_) nothing
    cases event with
    | store =>
      obtain ⟨finished, found, stored, _, _⟩ := store_spec taken
      have timed := holds.timed finished
        (by rw [stored]; exact List.mem_append_right _ List.mem_cons_self)
      rw [(kept.finished finished (List.mem_of_getElem? found)).untimed] at timed
      cases timed
    | start | begin | call | finish => exact nothing trivial

omit [Floating F] in
theorem initial_kept : (initial json).Kept :=
  ⟨List.forall_mem_nil _, List.forall_mem_nil _, List.forall_mem_nil _⟩

theorem initial_lawful : (initial json).Lawful :=
  ⟨⟨List.nodup_nil, rfl, rfl⟩, List.forall_mem_nil _⟩

/-- Over any starts, transfers and stores, the history is lawful exactly as long as no session is
stored; but for the durations it is, exactly as long as every session that is stored is read back
as it is and has another number than the 99 before it. -/
theorem history_of_run {events : List (ProgramEvent F)}
    (run : Execution (step dates) anything (initial json) events after) :
    (EveryState (step dates) Lawful (initial json) events ↔
      Execution (step dates) storesNothing (initial json) events after) ∧
      (EveryState (step dates) Faithful (initial json) events ↔
        Execution (step dates) storesApart (initial json) events after) := by
  constructor
  · rw [everyState_iff_everyStep initial_lawful]
    exact run.everyState_iff Kept initial_kept (fun _ _ _ kept taken => kept.step taken) initial_lawful
      fun _ _ _ kept lawful taken => lawful_step_iff kept lawful taken
  · rw [everyState_iff_everyStep initial_lawful.toFaithful]
    refine run.everyStep_iff_of_related (fun program => program.Kept ∧ program.Faithful ∧ program.Saved)
      ⟨initial_kept, initial_lawful.toFaithful, .inr ⟨rfl, rfl⟩⟩ ?_ ?_
    · rintro program event after ⟨kept, faithful, saved⟩ taken holds
      exact ⟨kept.step taken, holds, saved.step faithful taken⟩
    · rintro _ _ _ ⟨kept, faithful, saved⟩ taken
      exact faithful_step_iff kept faithful saved taken

/-- Every rational number is read back as it is. The document is kept as the sessions it was made
of. -/
def exactJson : HistoryJson ℚ where
  Text := List (TransferSession ℚ)
  toStringPretty sessions := sessions
  fromStr written := written.mapM (TransferSession.reread some)
  number := some
  roundTrip _ := rfl

def oneSecondLater : LocalTime := { noon with instant := 1714564801000, second := 1 }

def oneTransfer : List (ProgramEvent ℚ) :=
  [.begin noon "notes.txt" 5, .call 0 (.beginPhase "Streaming" 1),
    .finish 0 1000 oneSecondLater oneSecondLater (.complete 100),
    .store 0]

def afterStart : Program ℚ exactJson :=
  (replay (step strictDates) (initial exactJson) (oneTransfer ++ .start :: oneTransfer)).getD
  (initial exactJson)

theorem afterStart_reached :
    Execution (step strictDates) anything (initial exactJson)
      (oneTransfer ++ .start :: oneTransfer) afterStart :=
  execution_iff_replay.mpr rfl

/-- Both transfers are the first of their process, and have the same id. -/
theorem afterStart_unlawful :
    ¬ EveryState (step strictDates) Lawful (initial exactJson)
      (oneTransfer ++ .start :: oneTransfer) := by
  intro lawful
  have distinct := (lawful _ [] afterStart (List.append_nil _).symm afterStart_reached).distinct
  have ids : afterStart.sessions.map TransferSession.id = ["txn_1", "txn_1"] := rfl
  rw [ids] at distinct
  exact absurd distinct (by decide)

theorem history_of_afterStart :
    (EveryState (step strictDates) Lawful (initial exactJson)
      (oneTransfer ++ .start :: oneTransfer) ↔
        Execution (step strictDates) storesNothing (initial exactJson)
          (oneTransfer ++ .start :: oneTransfer) afterStart) ∧
      (EveryState (step strictDates) Faithful (initial exactJson)
        (oneTransfer ++ .start :: oneTransfer) ↔
        Execution (step strictDates) storesApart (initial exactJson)
          (oneTransfer ++ .start :: oneTransfer) afterStart) :=
  history_of_run afterStart_reached

end Program

end DistributedOs.Cli
