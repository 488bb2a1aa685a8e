import DistributedOs.Semantics.Execution

/-! The monitor of `KeepAlive`: its task, the handles, and the flag they share. Times are counted
from any moment on; a turn of the task and a call on the outside come in any order. -/

namespace DistributedOs.Transfer

open Semantics

inductive MonitorTask where
  | spawned
  | waiting (next : Nat)
  | pinging (next : Nat)
  | ended
  deriving DecidableEq

/-- A tick of the monitor: its time, and when activity had been recorded by then. -/
structure MonitorTick where
  time : Nat
  activities : List Nat
  deriving DecidableEq

/-- The permit is what `notify_one` has stored. The activities and the ticks are remembered. -/
structure KeepAlive where
  idleTimeout : Nat
  pingInterval : Nat
  now : Nat
  lastActivity : Nat
  stopped : Bool
  stopNotify : Bool
  task : MonitorTask
  handles : Nat
  activities : List Nat
  ticks : List MonitorTick
  deriving DecidableEq

inductive KeepAliveEvent where
  | recordActivity
  | elapse (duration : Nat)
  | begin
  | tick
  | pingSent
  | notified
  | stop
  | drop
  deriving DecidableEq

namespace KeepAlive

def spawn (idleTimeout pingInterval now handles : Nat) : KeepAlive :=
  { idleTimeout, pingInterval, now, lastActivity := now, stopped := false, stopNotify := false,
    task := .spawned, handles
    activities := [now], ticks := [] }

def recordActivity (keepAlive : KeepAlive) : KeepAlive :=
  { keepAlive with lastActivity := keepAlive.now, activities := keepAlive.now :: keepAlive.activities }

def idleDuration (keepAlive : KeepAlive) : Nat := keepAlive.now - keepAlive.lastActivity

def isTimedOut (keepAlive : KeepAlive) : Bool := keepAlive.stopped

def stop (keepAlive : KeepAlive) : KeepAlive :=
  { keepAlive with stopped := true, stopNotify := true }

/-- The first tick is skipped; an interval of no length panics. -/
def begin (keepAlive : KeepAlive) : Option KeepAlive :=
  match keepAlive.task with
  | .spawned =>
    if keepAlive.pingInterval = 0 then some { keepAlive with task := .ended }
    else some { keepAlive with task := .waiting (keepAlive.now + keepAlive.pingInterval) }
  | _ => none

/-- Ticks that were missed come at once, one after the other. -/
def tick (keepAlive : KeepAlive) : Option KeepAlive :=
  match keepAlive.task with
  | .waiting next =>
    if next ≤ keepAlive.now then
      let ticked := { time := keepAlive.now, activities := keepAlive.activities } :: keepAlive.ticks
      if keepAlive.idleTimeout ≤ keepAlive.idleDuration then
        some { keepAlive.stop with task := .ended, ticks := ticked }
      else some { keepAlive with task := .pinging (next + keepAlive.pingInterval), ticks := ticked }
    else none
  | _ => none

def step (keepAlive : KeepAlive) : KeepAliveEvent → Option KeepAlive
  | .recordActivity => some keepAlive.recordActivity
  | .elapse duration => some { keepAlive with now := keepAlive.now + duration }
  | .begin => keepAlive.begin
  | .tick => keepAlive.tick
  | .pingSent =>
    match keepAlive.task with
    | .pinging next => some { keepAlive with task := .waiting next }
    | _ => none
  | .notified =>
    match keepAlive.task with
    | .waiting _ =>
      if keepAlive.stopNotify then some { keepAlive with stopNotify := false, task := .ended } else none
    | _ => none
  | .stop => if 0 < keepAlive.handles then some keepAlive.stop else none
  | .drop =>
    if 0 < keepAlive.handles then some { keepAlive.stop with handles := keepAlive.handles - 1 } else none

/-- At some tick no activity had been recorded for the time of the idle timeout. -/
def WasIdle (keepAlive : KeepAlive) : Prop :=
  ∃ tick ∈ keepAlive.ticks, ∀ activity ∈ tick.activities, activity + keepAlive.idleTimeout ≤ tick.time

instance (keepAlive : KeepAlive) : Decidable keepAlive.WasIdle :=
  inferInstanceAs (Decidable (∃ tick ∈ _, _))

/-- A timeout is reported only after one. -/
def Truthful (keepAlive : KeepAlive) : Prop := keepAlive.isTimedOut = true → keepAlive.WasIdle

/-- A handle is stopped or dropped only when there has been a timeout. -/
def keepsHandles (keepAlive : KeepAlive) : KeepAliveEvent → Prop
  | .stop | .drop => keepAlive.WasIdle
  | _ => True

instance (keepAlive : KeepAlive) (event : KeepAliveEvent) :
    Decidable (keepAlive.keepsHandles event) :=
  match event with
  | .stop | .drop => inferInstanceAs (Decidable keepAlive.WasIdle)
  | .recordActivity | .elapse _ | .begin | .tick | .pingSent | .notified => isTrue trivial

variable {keepAlive after : KeepAlive} {event : KeepAliveEvent} {events : List KeepAliveEvent}
  {next : Nat}

/-- The last activity is one of those recorded, and none of them is later. -/
structure Dated (keepAlive : KeepAlive) : Prop where
  recorded : keepAlive.lastActivity ∈ keepAlive.activities
  latest : ∀ activity ∈ keepAlive.activities, activity ≤ keepAlive.lastActivity
  past : keepAlive.lastActivity ≤ keepAlive.now

theorem Dated.spawn (idleTimeout pingInterval now handles : Nat) :
    Dated (.spawn idleTimeout pingInterval now handles) where
  recorded := List.mem_singleton.mpr rfl
  latest := fun _ member => Nat.le_of_eq (List.mem_singleton.mp member)
  past := Nat.le_refl now

theorem Dated.idle_iff (dated : Dated keepAlive) :
    keepAlive.idleTimeout ≤ keepAlive.idleDuration ↔
      ∀ activity ∈ keepAlive.activities, activity + keepAlive.idleTimeout ≤ keepAlive.now := by
  have past := dated.past
  unfold idleDuration
  constructor
  · intro _ activity member
    have before := dated.latest activity member
    omega
  · intro silent
    have last := silent _ dated.recorded
    omega

def noted (keepAlive : KeepAlive) : List MonitorTick :=
  { time := keepAlive.now, activities := keepAlive.activities } :: keepAlive.ticks

/-- What an event does: a tick finds the connection idle or sends a ping, a handle sets the flag,
and the other events of the task leave the flag, the ticks and the activities alone. -/
inductive Takes (keepAlive : KeepAlive) : KeepAliveEvent → KeepAlive → Prop where
  | recorded : Takes keepAlive .recordActivity keepAlive.recordActivity
  | elapsed (duration : Nat) :
    Takes keepAlive (.elapse duration) { keepAlive with now := keepAlive.now + duration }
  | moved {event : KeepAliveEvent} (own : event = .begin ∨ event = .pingSent ∨ event = .notified)
    (task : MonitorTask)
    (stopNotify : Bool) : Takes keepAlive event { keepAlive with task, stopNotify }
  | timedOut (idle : keepAlive.idleTimeout ≤ keepAlive.idleDuration) :
    Takes keepAlive .tick { keepAlive.stop with task := .ended, ticks := keepAlive.noted }
  | pinged (active : ¬ keepAlive.idleTimeout ≤ keepAlive.idleDuration) (next : Nat) :
    Takes keepAlive .tick { keepAlive with task := .pinging next, ticks := keepAlive.noted }
  | stopped {event : KeepAliveEvent} (handle : event = .stop ∨ event = .drop) (handles : Nat) :
    Takes keepAlive event { keepAlive.stop with handles }

theorem tick_takes (ticked : keepAlive.tick = some after) : keepAlive.Takes .tick after := by
  unfold tick at ticked
  split at ticked
  · rename_i next waits
    split at ticked
    · split at ticked
      · rename_i idle
        cases ticked
        exact .timedOut idle
      · rename_i active
        cases ticked
        exact .pinged active _
    · cases ticked
  · cases ticked

theorem step_takes (taken : keepAlive.step event = some after) : keepAlive.Takes event after := by
  cases event with
  | recordActivity =>
    cases taken
    exact .recorded
  | elapse duration =>
    cases taken
    exact .elapsed duration
  | tick => exact tick_takes taken
  | begin =>
    simp only [step, begin] at taken
    split at taken
    · split at taken <;> cases taken <;> exact .moved (.inl rfl) _ _
    · cases taken
  | pingSent =>
    simp only [step] at taken
    split at taken <;> cases taken
    exact .moved (.inr (.inl rfl)) _ _
  | notified =>
    simp only [step] at taken
    split at taken
    · split at taken <;> cases taken
      exact .moved (.inr (.inr rfl)) _ _
    · cases taken
  | stop =>
    simp only [step] at taken
    split at taken <;> cases taken
    exact .stopped (.inl rfl) _
  | drop =>
    simp only [step] at taken
    split at taken <;> cases taken
    exact .stopped (.inr rfl) _

theorem Dated.step (dated : Dated keepAlive) (taken : keepAlive.step event = some after) :
    Dated after := by
  have ⟨recorded, latest, past⟩ := dated
  cases step_takes taken with
  | recorded =>
    refine ⟨List.mem_cons_self, fun activity member => ?_, Nat.le_refl _⟩
    rcases List.mem_cons.mp member with same | earlier
    · exact Nat.le_of_eq same
    · exact Nat.le_trans (latest activity earlier) past
  | elapsed => exact ⟨recorded, latest, Nat.le_trans past (Nat.le_add_right _ _)⟩
  | moved | timedOut | pinged | stopped => exact ⟨recorded, latest, past⟩

theorem wasIdle_congr (timeout : after.idleTimeout = keepAlive.idleTimeout)
    (ticks : after.ticks = keepAlive.ticks) :
    after.WasIdle ↔ keepAlive.WasIdle := by
  rw [WasIdle, WasIdle, timeout, ticks]

theorem truthful_stopped_iff (stopped : after.stopped = true)
    (timeout : after.idleTimeout = keepAlive.idleTimeout) (ticks : after.ticks = keepAlive.ticks) :
    after.Truthful ↔ keepAlive.WasIdle := by
  rw [Truthful, isTimedOut, stopped, wasIdle_congr timeout ticks]
  exact forall_prop_of_true rfl

theorem truthful_step_iff (dated : Dated keepAlive) (truthful : keepAlive.Truthful)
    (taken : keepAlive.step event = some after) :
    after.Truthful ↔ keepAlive.keepsHandles event := by
  cases step_takes taken with
  | recorded => exact iff_of_true truthful trivial
  | elapsed => exact iff_of_true truthful trivial
  | moved own => rcases own with rfl | rfl | rfl <;> exact iff_of_true truthful trivial
  | timedOut idle => exact iff_of_true (fun _ => ⟨_, List.mem_cons_self, dated.idle_iff.mp idle⟩) trivial
  | pinged =>
    refine iff_of_true (fun timedOut => ?_) trivial
    obtain ⟨tick, member, silent⟩ := truthful timedOut
    exact ⟨tick, List.mem_cons_of_mem _ member, silent⟩
  | stopped handle => rcases handle with rfl | rfl <;> exact truthful_stopped_iff rfl rfl rfl

/-- In every order of events a timeout is reported truthfully exactly as long as no handle is
stopped or dropped before there has been one. -/
theorem truthful_of_run {idleTimeout pingInterval now handles : Nat}
    (run : Execution step anything (spawn idleTimeout pingInterval now handles) events after) :
    EveryState step Truthful (spawn idleTimeout pingInterval now handles) events ↔
      Execution step keepsHandles (spawn idleTimeout pingInterval now handles) events after := by
  have truthful : (spawn idleTimeout pingInterval now handles).Truthful := nofun
  rw [everyState_iff_everyStep truthful]
  exact run.everyState_iff Dated (.spawn idleTimeout pingInterval now handles)
    (fun _ _ _ dated taken => dated.step taken) truthful
    fun _ _ _ dated truthful taken => truthful_step_iff dated truthful taken

/-- Pings every 200 ms and a timeout after 500 ms: the third tick reports it, and then the handle is
dropped. -/
theorem truthful_timeout :
    EveryState step Truthful (spawn 500 200 0 1)
      [.begin, .elapse 200, .tick, .pingSent, .elapse 200, .tick, .pingSent, .elapse 200,
        .tick, .drop] := by
  obtain ⟨after, run, _⟩ := exists_execution (fun after => after.isTimedOut)
    (show (replayWhere step (fun keepAlive event => keepAlive.keepsHandles event) (spawn 500 200 0 1)
      [.begin, .elapse 200, .tick, .pingSent, .elapse 200, .tick, .pingSent, .elapse 200, .tick,
        .drop]).any _ = true by decide)
  have kept : Execution step keepsHandles _ _ after := run.weaken fun _ _ => of_decide_eq_true
  exact (truthful_of_run kept.plain).mpr kept

/-- A transfer that ends at once: its handle is stopped, and a timeout is reported. -/
theorem untruthful_stop :
    ¬ EveryState step Truthful (spawn 30000 10000 0 1) [.recordActivity, .stop] := by
  intro every
  have truthful := every [.recordActivity, .stop] [] _ rfl (.next trivial rfl (.next trivial rfl .done))
  obtain ⟨_, member, _⟩ := truthful rfl
  cases member

end KeepAlive

end DistributedOs.Transfer
