import DistributedOs.Semantics.Execution
import Mathlib.Tactic.Ring

/-! A watchdog: a loop that on every tick either sends a beat or, when there has been no sign of the
other side for too long, gives up. Ticks that are missed come at once, one after the other. -/

namespace DistributedOs.Semantics

/-- How a watched connection is going on, or when it was given up or ended otherwise. -/
inductive Watching where
  | running
  | gaveUp (time : Nat)
  | ended (time : Nat)
  deriving DecidableEq

/-- The times are counted from any moment on. `beats` are the ticks on which a beat was sent,
`signs` the signs that have come since the start, the last one of them, or the start, at `last`. -/
structure Watchdog where
  start : Nat
  now : Nat
  last : Nat
  beats : Nat
  signs : Nat
  watching : Watching
  deriving DecidableEq

inductive WatchdogLabel where
  | pass (duration : Nat)
  | sign
  | tick
  | stop

namespace Watchdog

def begin (now : Nat) : Watchdog :=
  { start := now, now, last := now, beats := 0, signs := 0, watching := .running }

variable (period : Nat) (tooLong : Nat → Bool)

/-- When the next tick is due. The first one comes a period after the start. -/
def next (dog : Watchdog) : Nat := dog.start + period * (dog.beats + 1)

def step (dog : Watchdog) : WatchdogLabel → Option Watchdog
  | .pass duration => if 0 < duration then some { dog with now := dog.now + duration } else none
  | .sign =>
    if dog.watching = .running then some { dog with last := dog.now, signs := dog.signs + 1 } else none
  | .tick =>
    if dog.watching = .running ∧ dog.next period ≤ dog.now then
      if tooLong (dog.now - dog.last) then some { dog with watching := .gaveUp dog.now }
      else some { dog with beats := dog.beats + 1 }
    else none
  | .stop => if dog.watching = .running then some { dog with watching := .ended dog.now } else none

variable {period tooLong} {limit late slack : Nat} {dog after : Watchdog} {label : WatchdogLabel}

theorem of_step (taken : step period tooLong dog label = some after) :
    match label with
    | .pass duration => after = { dog with now := dog.now + duration }
    | .sign => dog.watching = .running ∧ after = { dog with last := dog.now, signs := dog.signs + 1 }
    | .tick =>
      dog.watching = .running ∧ dog.next period ≤ dog.now ∧
        (tooLong (dog.now - dog.last) = true ∧ after = { dog with watching := .gaveUp dog.now } ∨
          tooLong (dog.now - dog.last) = false ∧ after = { dog with beats := dog.beats + 1 })
    | .stop => dog.watching = .running ∧ after = { dog with watching := .ended dog.now } := by
  cases label with
  | pass =>
    simp only [step] at taken
    split at taken
    · cases taken
      rfl
    · cases taken
  | sign | stop =>
    simp only [step] at taken
    split at taken
    · rename_i running
      cases taken
      exact ⟨running, rfl⟩
    · cases taken
  | tick =>
    simp only [step] at taken
    split at taken
    · rename_i ready
      refine ⟨ready.1, ready.2, ?_⟩
      split at taken
      · rename_i long
        cases taken
        exact .inl ⟨long, rfl⟩
      · rename_i short
        cases taken
        exact .inr ⟨Bool.eq_false_iff.mpr short, rfl⟩
    · cases taken

/-- A running watchdog does not let a tick wait for longer than `late`. -/
def Punctual (period late : Nat) (dog : Watchdog) : WatchdogLabel → Prop
  | .pass duration => dog.watching = .running → dog.now + duration ≤ dog.next period + late
  | .sign | .tick | .stop => True

/-- When the last sign was, and when the watchdog gave up or has to. -/
structure Watched (period limit late : Nat) (dog : Watchdog) : Prop where
  since : dog.start ≤ dog.last
  past : dog.last ≤ dog.now
  ticked : dog.watching = .running → dog.start + period * dog.beats ≤ dog.now
  due : dog.watching = .running → dog.next period < dog.last + limit + period
  soon : dog.watching = .running → dog.now ≤ dog.next period + late
  never : ∀ time, dog.watching = .gaveUp time → dog.last + limit ≤ time ∧ time ≤ dog.now
  bounded : ∀ time, dog.watching = .gaveUp time ∨ dog.watching = .ended time →
    time < dog.last + limit + period + late

theorem Watched.begin (now : Nat) (positive : 0 < limit) :
    Watched period limit late (.begin now) where
  since := Nat.le_refl _
  past := Nat.le_refl _
  ticked := fun _ => by simp [Watchdog.begin]
  due := fun _ => by
    simp only [next, Watchdog.begin]
    omega
  soon := fun _ => by
    simp only [next, Watchdog.begin]
    omega
  never := nofun
  bounded := nofun

theorem Watched.step (sharp : ∀ elapsed, tooLong elapsed = true ↔ limit ≤ elapsed)
    (watched : Watched period limit late dog) (punctual : Punctual period late dog label)
    (taken : step period tooLong dog label = some after) : Watched period limit late after := by
  have did := of_step taken
  cases label with
  | pass =>
    cases did
    refine ⟨watched.since, Nat.le_add_right_of_le watched.past, ?_, watched.due, punctual, ?_,
      watched.bounded⟩
    · exact fun running => Nat.le_add_right_of_le (watched.ticked running)
    · exact fun time gaveUp =>
        ⟨(watched.never time gaveUp).1, Nat.le_add_right_of_le (watched.never time gaveUp).2⟩
  | sign =>
    obtain ⟨running, rfl⟩ := did
    refine ⟨Nat.le_trans watched.since watched.past, Nat.le_refl _, watched.ticked, ?_,
      watched.soon, ?_, ?_⟩
    · intro _
      have due := watched.due running
      have past := watched.past
      simp only [next] at due ⊢
      omega
    · intro time gaveUp
      rw [running] at gaveUp
      cases gaveUp
    · rintro time (gaveUp | ended)
      · rw [running] at gaveUp
        cases gaveUp
      · rw [running] at ended
        cases ended
  | tick =>
    obtain ⟨running, due, ⟨long, rfl⟩ | ⟨short, rfl⟩⟩ := did
    · have elapsed := (sharp _).mp long
      have past := watched.past
      have soon := watched.soon running
      have before := watched.due running
      refine ⟨watched.since, past, nofun, nofun, nofun, ?_, ?_⟩
      · intro time gaveUp
        cases gaveUp
        exact ⟨by simp only; omega, Nat.le_refl _⟩
      · rintro time (gaveUp | ended)
        · cases gaveUp
          simp only
          omega
        · cases ended
    · have fresh : ¬ limit ≤ dog.now - dog.last := by
        intro long
        rw [(sharp _).mpr long] at short
        cases short
      have soon := watched.soon running
      have past := watched.past
      have grown : ({ dog with beats := dog.beats + 1 } : Watchdog).next period =
          dog.next period + period := by
        simp only [next]
        ring
      refine ⟨watched.since, past, fun _ => due, ?_, ?_, watched.never, watched.bounded⟩
      · intro _
        rw [grown]
        simp only
        omega
      · intro _
        rw [grown]
        simp only
        omega
  | stop =>
    obtain ⟨running, rfl⟩ := did
    have soon := watched.soon running
    have due := watched.due running
    refine ⟨watched.since, watched.past, nofun, nofun, nofun, nofun, ?_⟩
    rintro _ (gaveUp | ended)
    · cases gaveUp
    · cases ended
      simp only
      omega

theorem Watched.running_lt (watched : Watched period limit late dog)
    (running : dog.watching = .running) :
    dog.now < dog.last + limit + period + late := by
  have soon := watched.soon running
  have due := watched.due running
  omega

/-- Every sign answers a beat that was sent before it, and all the beats but the last ones have been
answered when a tick comes. -/
def Answering (slack : Nat) (dog : Watchdog) : WatchdogLabel → Prop
  | .sign => dog.signs < dog.beats
  | .tick => dog.beats ≤ dog.signs + slack
  | .pass _ | .stop => True

/-- The last sign came after the beat it answers. -/
structure Answered (period : Nat) (dog : Watchdog) : Prop where
  last : dog.start + period * dog.signs ≤ dog.last
  unended : ∀ time, dog.watching ≠ .gaveUp time

theorem Answered.step (enough : ∀ elapsed, elapsed ≤ period * (slack + 1) + late →
      tooLong elapsed = false)
    (watched : Watched period limit late dog) (answered : Answered period dog)
    (answering : Answering slack dog label)
    (taken : Watchdog.step period tooLong dog label = some after) : Answered period after := by
  have did := of_step taken
  cases label with
  | pass =>
    cases did
    exact ⟨answered.last, answered.unended⟩
  | sign =>
    obtain ⟨running, rfl⟩ := did
    have sent : period * (dog.signs + 1) ≤ period * dog.beats := Nat.mul_le_mul_left _ answering
    have ticked := watched.ticked running
    exact ⟨by simp only; omega, answered.unended⟩
  | tick =>
    obtain ⟨running, _, ⟨long, rfl⟩ | ⟨_, rfl⟩⟩ := did
    · have recent : dog.now - dog.last ≤ period * (slack + 1) + late := by
        have soon := watched.soon running
        have last := answered.last
        have most : period * (dog.beats + 1) ≤ period * (dog.signs + (slack + 1)) := by
          refine Nat.mul_le_mul_left _ ?_
          have behind : dog.beats ≤ dog.signs + slack := answering
          omega
        have apart : period * (dog.signs + (slack + 1)) = period * dog.signs +
            period * (slack + 1) := Nat.mul_add _ _ _
        simp only [next] at soon
        omega
      rw [enough _ recent] at long
      cases long
    · exact ⟨answered.last, answered.unended⟩
  | stop =>
    obtain ⟨_, rfl⟩ := did
    exact ⟨answered.last, nofun⟩

/-- Without a sign the watchdog gives up on one certain tick. -/
structure Silent (period late rounds : Nat) (dog : Watchdog) : Prop where
  last : dog.last = dog.start
  started : dog.start ≤ dog.now
  soon : dog.watching = .running → dog.now ≤ dog.next period + late
  few : dog.watching = .running → dog.beats < rounds
  gaveUp : ∀ time, dog.watching = .gaveUp time →
    dog.beats + 1 = rounds ∧ dog.start + period * rounds ≤ time ∧
    time ≤ dog.start + period * rounds + late
  ended : ∀ time, dog.watching = .ended time → time ≤ dog.start + period * rounds + late

theorem Silent.begin (now : Nat) (positive : 0 < rounds) :
    Silent period late rounds (.begin now) where
  last := rfl
  started := Nat.le_refl _
  soon := fun _ => by
    simp only [next, Watchdog.begin]
    omega
  few := fun _ => positive
  gaveUp := nofun
  ended := nofun

theorem Silent.now_le (silent : Silent period late rounds dog) (running : dog.watching = .running) :
    dog.now ≤ dog.start + period * rounds + late := by
  have soon := silent.soon running
  have most : period * (dog.beats + 1) ≤ period * rounds := Nat.mul_le_mul_left _ (silent.few running)
  simp only [next] at soon
  omega

theorem Silent.step (patient : ∀ elapsed, elapsed + period ≤ period * rounds + late →
      tooLong elapsed = false)
    (strict : ∀ elapsed, period * rounds ≤ elapsed → tooLong elapsed = true)
    (silent : Silent period late rounds dog) (unsigned : label ≠ .sign)
    (punctual : Punctual period late dog label)
    (taken : Watchdog.step period tooLong dog label = some after) :
    Silent period late rounds after := by
  have did := of_step taken
  cases label with
  | pass =>
    cases did
    exact ⟨silent.last, Nat.le_add_right_of_le silent.started, punctual, silent.few,
      silent.gaveUp, silent.ended⟩
  | sign => exact absurd rfl unsigned
  | tick =>
    obtain ⟨running, due, fired⟩ := did
    have few := silent.few running
    have soon := silent.soon running
    have last := silent.last
    have atMost := silent.now_le running
    have here : period * (dog.beats + 1) ≤ dog.now - dog.last := by
      simp only [next] at due
      omega
    rcases Nat.lt_or_ge (dog.beats + 1) rounds with earlier | _
    · have before : period * (dog.beats + 1) + period ≤ period * rounds := by
        rw [← Nat.mul_succ]
        exact Nat.mul_le_mul_left _ earlier
      have short : tooLong (dog.now - dog.last) = false := by
        refine patient _ ?_
        simp only [next] at soon
        omega
      rcases fired with ⟨long, _⟩ | ⟨_, rfl⟩
      · rw [short] at long
        cases long
      · refine ⟨last, silent.started, ?_, fun _ =>
          earlier, (fun _ gaveUp => nomatch running.symm.trans gaveUp), silent.ended⟩
        intro _
        have grown : ({ dog with beats := dog.beats + 1 } : Watchdog).next period =
            dog.next period + period := by
          simp only [next]
          ring
        rw [grown]
        simp only
        omega
    · have same : dog.beats + 1 = rounds := by omega
      rw [same] at here
      rcases fired with ⟨_, rfl⟩ | ⟨short, _⟩
      · refine ⟨last, silent.started, nofun, nofun, ?_, nofun⟩
        intro time gaveUp
        cases gaveUp
        have after := silent.started
        exact ⟨same, by simp only; omega, atMost⟩
      · rw [strict _ here] at short
        cases short
  | stop =>
    obtain ⟨running, rfl⟩ := did
    refine ⟨silent.last, silent.started, nofun, nofun, nofun, ?_⟩
    intro _ ended
    cases ended
    exact silent.now_le running

end Watchdog

end DistributedOs.Semantics
