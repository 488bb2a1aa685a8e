import DistributedOs.Semantics.Execution
import Mathlib.Data.List.Perm.Basic
import Mathlib.Data.List.Count

/-! The transfer scheduler: three queues, one for each priority, and the jobs in flight. The
record of a run keeps what happened to every job, apart from the scheduler's own queues. -/

namespace DistributedOs.Transfer

open Semantics

section Line

universe u
variable {α : Type u} {rank : α → Nat} {waiting : List α} {job : α}

/-- The foremost of a line: whoever stands before it has a later rank, and whoever stands
after it has no earlier one. -/
def Foremost (rank : α → Nat) (waiting : List α) (job : α) : Prop :=
  ∃ before after, waiting = before ++ job :: after ∧ (∀ other ∈ before, rank job < rank other) ∧
    ∀ other ∈ after, rank job ≤ rank other

theorem foremost_of_filter (first : waiting.filter (rank · = rank job) = job :: rest)
    (earliest : ∀ other ∈ waiting, rank job ≤ rank other) : Foremost rank waiting job := by
  induction waiting with
  | nil => simp at first
  | cons head tail ih =>
    by_cases same : rank head = rank job
    · rw [List.filter_cons_of_pos (by simp [same])] at first
      have ⟨here, _⟩ := List.cons.inj first
      subst here
      exact ⟨[], tail, rfl, by simp, fun other member => earliest other (by simp [member])⟩
    · rw [List.filter_cons_of_neg (by simp [same])] at first
      obtain ⟨before, after, split, later, others⟩ :=
        ih first (fun other member => earliest other (by simp [member]))
      have behind := earliest head (by simp)
      refine ⟨head :: before, after, by simp [split], ?_, others⟩
      intro other member
      rcases List.mem_cons.mp member with here | within
      · subst here
        omega
      · exact later other within

theorem perm_cons_eraseP {line : List α} (found : line.find? pick = some job) :
    line.Perm (job :: line.eraseP pick) := by
  induction line with
  | nil => cases found
  | cons head _ ih =>
    cases picked : pick head with
    | true =>
      simp only [List.find?_cons, picked, Option.some.injEq] at found
      subst found
      rw [List.eraseP_cons_of_pos picked]
    | false =>
      simp only [List.find?_cons, picked] at found
      rw [List.eraseP_cons_of_neg (by simp [picked])]
      exact ((ih found).cons head).trans (List.Perm.swap job head _)

end Line

inductive Priority where
  | high
  | medium
  | low
  deriving DecidableEq, Repr

/-- The discriminant, by which priorities are ordered. -/
def Priority.rank : Priority → Nat
  | .high => 0
  | .medium => 1
  | .low => 2

structure TransferJob where
  id : String
  srcPath : String
  dstPath : String
  size : UInt64
  priority : Priority
  retryCount : UInt8
  maxRetries : UInt8
  deriving DecidableEq

structure TransferScheduler where
  high : List TransferJob
  medium : List TransferJob
  low : List TransferJob
  inFlight : List TransferJob
  maxConcurrent : UInt32

namespace TransferScheduler

def new (maxConcurrent : UInt32) : TransferScheduler :=
  { high := [], medium := [], low := [], inFlight := [], maxConcurrent }

def enqueue (scheduler : TransferScheduler) (job : TransferJob) : TransferScheduler :=
  match job.priority with
  | .high => { scheduler with high := scheduler.high ++ [job] }
  | .medium => { scheduler with medium := scheduler.medium ++ [job] }
  | .low => { scheduler with low := scheduler.low ++ [job] }

def dequeue (scheduler : TransferScheduler) : TransferScheduler × Option TransferJob :=
  if scheduler.maxConcurrent.toNat ≤ scheduler.inFlight.length then (scheduler, none)
  else
    match scheduler.high, scheduler.medium, scheduler.low with
    | job :: high, _, _ => ({ scheduler with high, inFlight := scheduler.inFlight ++ [job] }, some job)
    | [], job :: medium, _ =>
      ({ scheduler with medium, inFlight := scheduler.inFlight ++ [job] }, some job)
    | [], [], job :: low => ({ scheduler with low, inFlight := scheduler.inFlight ++ [job] }, some job)
    | [], [], [] => (scheduler, none)

def complete (scheduler : TransferScheduler) (id : String) : TransferScheduler :=
  { scheduler with inFlight := scheduler.inFlight.filter (·.id ≠ id) }

def fail (scheduler : TransferScheduler) (id : String) : TransferScheduler :=
  match scheduler.inFlight.find? (·.id = id) with
  | some job =>
    let removed := { scheduler with inFlight := scheduler.inFlight.eraseP (·.id = id) }
    if job.retryCount < job.maxRetries then removed.enqueue { job with retryCount := job.retryCount + 1 }
    else removed
  | none => scheduler

end TransferScheduler

inductive SchedulerOp where
  | enqueue (job : TransferJob)
  | dequeue
  | complete (id : String)
  | fail (id : String)

inductive JobEvent where
  | queued (job : TransferJob)
  | started (job : TransferJob)
  | completed (job : TransferJob)
  | failed (job : TransferJob)

/-- What an operation does to jobs: it lets one wait, hands one out, or settles those in flight. -/
def TransferScheduler.events (scheduler : TransferScheduler) : SchedulerOp → List JobEvent
  | .enqueue job => [.queued job]
  | .dequeue => scheduler.dequeue.2.toList.map .started
  | .complete id => (scheduler.inFlight.filter (·.id = id)).map .completed
  | .fail id =>
    match scheduler.inFlight.find? (·.id = id) with
    | some job =>
      if job.retryCount < job.maxRetries then
        [.queued { job with retryCount := job.retryCount + 1 }] else [.failed job]
    | none => []

/-- The jobs submitted so far, and the events, newest first. -/
structure SchedulerRun where
  scheduler : TransferScheduler
  arrived : List TransferJob
  events : List JobEvent

def TransferScheduler.apply (scheduler : TransferScheduler) : SchedulerOp → TransferScheduler
  | .enqueue job => scheduler.enqueue job
  | .dequeue => scheduler.dequeue.1
  | .complete id => scheduler.complete id
  | .fail id => scheduler.fail id

def SchedulerOp.submitted : SchedulerOp → List TransferJob
  | .enqueue job => [job]
  | _ => []

namespace SchedulerRun

def new (maxConcurrent : UInt32) : SchedulerRun :=
  { scheduler := .new maxConcurrent, arrived := [], events := [] }

def step (run : SchedulerRun) (op : SchedulerOp) : Option SchedulerRun :=
  some
    { scheduler := run.scheduler.apply op, arrived := run.arrived ++ op.submitted
      events := run.scheduler.events op ++ run.events }

def distinct (run : SchedulerRun) (op : SchedulerOp) : Prop :=
  ∀ job ∈ op.submitted, job.id ∉ run.arrived.map TransferJob.id

end SchedulerRun

/-- Who waits, in the order of entrance: a job that is queued again enters anew. -/
def waiting : List JobEvent → List TransferJob
  | [] => []
  | .queued job :: earlier => waiting earlier ++ [job]
  | .started job :: earlier => (waiting earlier).erase job
  | .completed _ :: earlier => waiting earlier
  | .failed _ :: earlier => waiting earlier

def completedJobs : List JobEvent → List TransferJob
  | [] => []
  | .completed job :: earlier => job :: completedJobs earlier
  | .queued _ :: earlier | .started _ :: earlier | .failed _ :: earlier => completedJobs earlier

def failedJobs : List JobEvent → List TransferJob
  | [] => []
  | .failed job :: earlier => job :: failedJobs earlier
  | .queued _ :: earlier | .started _ :: earlier | .completed _ :: earlier => failedJobs earlier

/-- How often a job was handed out. -/
def attempts (id : String) : List JobEvent → Nat :=
  List.countP fun event => match event with | .started job => job.id = id | _ => false

def TransferJob.untried (job : TransferJob) : TransferJob := { job with retryCount := 0 }

/-- Queued, in flight, completed and failed for good. -/
def SchedulerRun.places (run : SchedulerRun) : List TransferJob :=
  (run.scheduler.high ++ run.scheduler.medium ++ run.scheduler.low) ++ run.scheduler.inFlight ++
    (completedJobs run.events ++ failedJobs run.events)

/-- The jobs in the four places are the jobs submitted, each in one place and once; what is
handed out next is the foremost of those that wait, and there is one if there is room for it. -/
structure Scheduled (run : SchedulerRun) : Prop where
  bounded : run.scheduler.inFlight.length ≤ run.scheduler.maxConcurrent.toNat
  once : (run.places.map TransferJob.id).Nodup
  conserved : (run.places.map TransferJob.untried).Perm (run.arrived.map TransferJob.untried)
  inOrder : ∀ job, run.scheduler.dequeue.2 = some job →
    Foremost (·.priority.rank) (waiting run.events) job
  hands : run.scheduler.dequeue.2 = none →
    run.scheduler.inFlight.length = run.scheduler.maxConcurrent.toNat ∨ waiting run.events = []
  attempted : ∀ job ∈ run.arrived, attempts job.id run.events ≤ job.maxRetries.toNat + 1

namespace TransferScheduler

def queue (scheduler : TransferScheduler) : Priority → List TransferJob
  | .high => scheduler.high
  | .medium => scheduler.medium
  | .low => scheduler.low

def withQueue (scheduler : TransferScheduler) (priority : Priority) (jobs : List TransferJob) :
    TransferScheduler :=
  match priority with
  | .high => { scheduler with high := jobs }
  | .medium => { scheduler with medium := jobs }
  | .low => { scheduler with low := jobs }

variable {scheduler after : TransferScheduler} {job : TransferJob}

@[simp] theorem queue_withQueue (priority other : Priority) (jobs : List TransferJob) :
    (scheduler.withQueue priority jobs).queue other = if other = priority then jobs
      else scheduler.queue other := by
  cases priority <;> cases other <;> rfl

@[simp] theorem maxConcurrent_withQueue (priority : Priority) (jobs : List TransferJob) :
    (scheduler.withQueue priority jobs).maxConcurrent = scheduler.maxConcurrent := by
  cases priority <;> rfl

theorem queue_enqueue (scheduler : TransferScheduler) (job : TransferJob) (priority : Priority) :
    (scheduler.enqueue job).queue priority = scheduler.queue priority ++ [job].filter
      (·.priority = priority) := by
  unfold enqueue
  cases own : job.priority <;> cases priority <;> simp [queue, own]

@[simp] theorem inFlight_enqueue (scheduler : TransferScheduler) (job : TransferJob) :
    (scheduler.enqueue job).inFlight = scheduler.inFlight := by
  unfold enqueue
  cases job.priority <;> rfl

@[simp] theorem maxConcurrent_enqueue (scheduler : TransferScheduler) (job : TransferJob) :
    (scheduler.enqueue job).maxConcurrent = scheduler.maxConcurrent := by
  unfold enqueue
  cases job.priority <;> rfl

/-- A job handed out is the head of the first queue that has any, and there was room for it. -/
theorem dequeue_some (handed : scheduler.dequeue.2 = some job) :
    scheduler.inFlight.length < scheduler.maxConcurrent.toNat ∧
      ∃ priority rest, scheduler.queue priority = job :: rest ∧
        (∀ other : Priority, other.rank < priority.rank → scheduler.queue other = []) ∧
        scheduler.dequeue.1 =
        { scheduler.withQueue priority rest with inFlight := scheduler.inFlight ++ [job] } := by
  unfold dequeue at handed ⊢
  split at handed
  · cases handed
  rename_i room
  rw [if_neg room]
  refine ⟨by omega, ?_⟩
  split at handed <;> cases handed
  · rename_i rest high
    refine ⟨.high, rest, high, ?_, by simp [withQueue]⟩
    intro other before
    simp [Priority.rank] at before
  · rename_i rest high medium
    refine ⟨.medium, rest, medium, ?_, by simp [withQueue]⟩
    intro other before
    cases other <;> simp [Priority.rank] at before
    exact high
  · rename_i rest high medium low
    refine ⟨.low, rest, low, ?_, by simp [withQueue]⟩
    intro other before
    cases other <;> simp [Priority.rank] at before
    · exact high
    · exact medium

theorem dequeue_none (nothing : scheduler.dequeue.2 = none) :
    scheduler.dequeue.1 = scheduler ∧
      (scheduler.maxConcurrent.toNat ≤ scheduler.inFlight.length ∨
        ∀ priority, scheduler.queue priority = []) := by
  unfold dequeue at nothing ⊢
  split at nothing
  · rename_i full
    rw [if_pos full]
    exact ⟨rfl, .inl full⟩
  · rename_i room
    rw [if_neg room]
    split at nothing
    · cases nothing
    · cases nothing
    · cases nothing
    · rename_i high medium low
      refine ⟨rfl, .inr fun priority => ?_⟩
      cases priority
      · exact high
      · exact medium
      · exact low

end TransferScheduler

theorem perm_queues (jobs : List TransferJob) :
    (jobs.filter (·.priority = .high) ++ jobs.filter (·.priority = .medium) ++
      jobs.filter (·.priority = .low)).Perm jobs := by
  induction jobs with
  | nil => exact List.Perm.refl _
  | cons job _ ih =>
    cases priority : job.priority with
    | high => simpa [priority] using ih
    | medium =>
      simp only [List.append_assoc, List.filter_cons, priority] at ih ⊢
      exact List.perm_middle.trans (ih.cons job)
    | low =>
      simp only [List.filter_cons, priority] at ih ⊢
      exact List.perm_middle.trans (ih.cons job)

namespace SchedulerRun

/-- The jobs of a run, the queued ones in the order of their entrance. -/
def held (run : SchedulerRun) : List TransferJob :=
  waiting run.events ++ (run.scheduler.inFlight ++ (completedJobs run.events ++ failedJobs run.events))

/-- A job that waits has been handed out no more often than it was retried, one in flight once more. -/
structure Kept (run : SchedulerRun) : Prop where
  queues : ∀ priority, run.scheduler.queue priority = (waiting run.events).filter (·.priority = priority)
  bounded : run.scheduler.inFlight.length ≤ run.scheduler.maxConcurrent.toNat
  conserved : (run.held.map TransferJob.untried).Perm (run.arrived.map TransferJob.untried)
  distinct : (run.arrived.map TransferJob.id).Nodup
  unstarted : ∀ id ∉ run.arrived.map TransferJob.id, attempts id run.events = 0
  waits : ∀ job ∈ waiting run.events,
    attempts job.id run.events ≤ job.retryCount.toNat ∧ attempts job.id run.events ≤ job.maxRetries.toNat
  flies : ∀ job ∈ run.scheduler.inFlight,
    attempts job.id run.events ≤ job.retryCount.toNat + 1 ∧
    attempts job.id run.events ≤ job.maxRetries.toNat + 1
  settled : ∀ job ∈ completedJobs run.events ++ failedJobs run.events,
    attempts job.id run.events ≤ job.maxRetries.toNat + 1

variable {run : SchedulerRun} {job other : TransferJob} {id : String}

theorem map_id_untried (jobs : List TransferJob) :
    (jobs.map TransferJob.untried).map TransferJob.id = jobs.map TransferJob.id := by
  rw [List.map_map]
  rfl

theorem Kept.held_ids (kept : Kept run) :
    (run.held.map TransferJob.id).Perm (run.arrived.map TransferJob.id) := by
  have ids := kept.conserved.map TransferJob.id
  rwa [map_id_untried, map_id_untried] at ids

theorem Kept.apart (kept : Kept run) (split : run.held.Perm (job :: rest)) (member : other ∈ rest) :
    other.id ≠ job.id := by
  have nodup := kept.held_ids.nodup_iff.mpr kept.distinct
  rw [(split.map TransferJob.id).nodup_iff, List.map_cons, List.nodup_cons] at nodup
  intro same
  exact nodup.1 (same ▸ List.mem_map_of_mem member)

theorem Kept.new (maxConcurrent : UInt32) : Kept (.new maxConcurrent) := by
  refine ⟨?_, Nat.zero_le _, List.Perm.refl _, List.nodup_nil, fun _ _ => rfl, ?_, ?_, ?_⟩
  · intro priority
    cases priority <;> rfl
  all_goals
    intro _ member
    cases member

@[simp] theorem attempts_queued (id : String) (earlier : List JobEvent) :
    attempts id (.queued job :: earlier) = attempts id earlier := by simp [attempts]

@[simp] theorem attempts_failed (id : String) (earlier : List JobEvent) :
    attempts id (.failed job :: earlier) = attempts id earlier := by simp [attempts]

theorem attempts_started (id : String) (earlier : List JobEvent) :
    attempts id (.started job :: earlier) = attempts id earlier + if job.id = id then 1 else 0 := by
  simp [attempts, List.countP_cons]

@[simp] theorem attempts_completed (id : String) (jobs : List TransferJob)
    (earlier : List JobEvent) :
    attempts id (jobs.map .completed ++ earlier) = attempts id earlier := by
  simp [attempts, List.countP_append, List.countP_eq_zero]

@[simp] theorem waiting_completed (jobs : List TransferJob) (earlier : List JobEvent) :
    waiting (jobs.map .completed ++ earlier) = waiting earlier := by
  induction jobs with
  | nil => rfl
  | cons _ _ ih => exact ih

@[simp] theorem completedJobs_completed (jobs : List TransferJob) (earlier : List JobEvent) :
    completedJobs (jobs.map .completed ++ earlier) = jobs ++ completedJobs earlier := by
  induction jobs with
  | nil => rfl
  | cons job _ ih => exact congrArg (job :: ·) ih

@[simp] theorem failedJobs_completed (jobs : List TransferJob) (earlier : List JobEvent) :
    failedJobs (jobs.map .completed ++ earlier) = failedJobs earlier := by
  induction jobs with
  | nil => rfl
  | cons _ _ ih => exact ih

theorem Kept.enqueue (kept : Kept run) (fresh : job.id ∉ run.arrived.map TransferJob.id) :
    Kept { scheduler := run.scheduler.enqueue job, arrived := run.arrived ++ [job],
           events := .queued job :: run.events } where
  queues priority := by
    rw [TransferScheduler.queue_enqueue, waiting, List.filter_append, ← kept.queues priority]
  bounded := by simpa using kept.bounded
  conserved := by
    refine List.Perm.trans ?_ (List.Perm.trans (kept.conserved.append_right [job.untried]) (by simp))
    refine List.perm_iff_count.mpr fun job => ?_
    simp only [held, waiting, completedJobs, failedJobs, TransferScheduler.inFlight_enqueue,
      List.map_append, List.map_cons, List.map_nil, List.count_append]
    omega
  distinct := by
    rw [List.map_append, List.nodup_append]
    refine ⟨kept.distinct, by simp, ?_⟩
    intro id member other single
    rw [List.map_singleton, List.mem_singleton] at single
    intro same
    exact fresh (single ▸ same ▸ member)
  unstarted id absent := by
    rw [attempts_queued]
    exact kept.unstarted id fun member => absent (by simp at member ⊢; exact .inl member)
  waits other member := by
    rw [attempts_queued]
    rcases List.mem_append.mp member with before | last
    · exact kept.waits other before
    · rw [List.mem_singleton] at last
      subst last
      simp [kept.unstarted other.id fresh]
  flies other member := by
    rw [attempts_queued]
    rw [TransferScheduler.inFlight_enqueue] at member
    exact kept.flies other member
  settled other member := by
    rw [attempts_queued]
    exact kept.settled other member

theorem Kept.dequeue (kept : Kept run) (handed : run.scheduler.dequeue.2 = some job) :
    Kept { run with scheduler := run.scheduler.dequeue.1, events := .started job :: run.events } := by
  obtain ⟨room, priority, rest, first, _, after⟩ := TransferScheduler.dequeue_some handed
  have waits : job ∈ (waiting run.events).filter (·.priority = priority) := by
    rw [← kept.queues priority, first]
    simp
  obtain ⟨member, own⟩ := List.mem_filter.mp waits
  have own : job.priority = priority := by simpa using own
  have split : run.held.Perm (job :: ((waiting run.events).erase job ++
      (run.scheduler.inFlight ++ (completedJobs run.events ++ failedJobs run.events)))) :=
    (List.perm_cons_erase member).append_right _
  have others : ∀ other ∈ (waiting run.events).erase job ++
      (run.scheduler.inFlight ++ (completedJobs run.events ++ failedJobs run.events)),
        attempts other.id (.started job :: run.events) = attempts other.id run.events := by
    intro other member
    rw [attempts_started, if_neg (Ne.symm (kept.apart split member)), Nat.add_zero]
  constructor
  · intro other
    rw [after, waiting, ← List.erase_filter, ← kept.queues other]
    by_cases same : other = priority
    · subst same
      have head : (run.scheduler.queue other).erase job = rest := by rw [first, List.erase_cons_head]
      rw [head]
      exact (TransferScheduler.queue_withQueue _ _ _).trans (if_pos rfl)
    · have absent : job ∉ run.scheduler.queue other := by
        rw [kept.queues other, List.mem_filter]
        intro both
        exact same ((by simpa using both.2 : job.priority = other).symm.trans own)
      rw [List.erase_of_not_mem absent]
      exact (TransferScheduler.queue_withQueue _ _ _).trans (if_neg same)
  · rw [after]
    simpa using Nat.succ_le_of_lt room
  · refine List.Perm.trans (List.Perm.map _ ?_) kept.conserved
    refine List.Perm.trans ?_ split.symm
    simp only [held, waiting, completedJobs, failedJobs, after]
    refine List.perm_iff_count.mpr fun other => ?_
    simp only [List.count_append, List.count_cons, List.count_nil]
    omega
  · exact kept.distinct
  · intro id absent
    have other : job.id ≠ id := by
      intro same
      subst same
      exact absent (kept.held_ids.subset (List.mem_map_of_mem (List.mem_append_left _ member)))
    rw [attempts_started, if_neg other]
    exact kept.unstarted id absent
  · intro other within
    rw [others other (List.mem_append_left _ within)]
    exact kept.waits other (List.mem_of_mem_erase within)
  · intro other within
    rw [after] at within
    rcases List.mem_append.mp within with before | last
    · rw [others other (List.mem_append_right _ (List.mem_append_left _ before))]
      exact kept.flies other before
    · rw [List.mem_singleton] at last
      subst last
      rw [attempts_started, if_pos rfl]
      have ⟨_, _⟩ := kept.waits other member
      exact ⟨by omega, by omega⟩
  · intro other within
    rw [others other (List.mem_append_right _ (List.mem_append_right _ within))]
    exact kept.settled other within

theorem Kept.complete (kept : Kept run) (id : String) :
    Kept { run with
      scheduler := run.scheduler.complete id
      events := (run.scheduler.inFlight.filter (·.id = id)).map .completed ++ run.events } where
  queues priority := by
    rw [waiting_completed, ← kept.queues priority]
    cases priority <;> rfl
  bounded := Nat.le_trans (List.length_filter_le _ _) kept.bounded
  conserved := by
    refine List.Perm.trans (List.Perm.map _ ?_) kept.conserved
    have parts := List.filter_append_perm (fun job : TransferJob => job.id = id) run.scheduler.inFlight
    simp only [held, waiting_completed, completedJobs_completed, failedJobs_completed,
      TransferScheduler.complete]
    refine List.perm_iff_count.mpr fun other => ?_
    have counted := parts.count_eq other
    simp only [List.count_append, decide_not, ne_eq] at counted ⊢
    omega
  distinct := kept.distinct
  unstarted id absent := by
    rw [attempts_completed]
    exact kept.unstarted id absent
  waits other member := by
    rw [attempts_completed]
    rw [waiting_completed] at member
    exact kept.waits other member
  flies other member := by
    rw [attempts_completed]
    exact kept.flies other (List.mem_filter.mp member).1
  settled other member := by
    rw [completedJobs_completed, failedJobs_completed, List.append_assoc] at member
    rw [attempts_completed]
    rcases List.mem_append.mp member with here | before
    · exact (kept.flies other (List.mem_filter.mp here).1).2
    · exact kept.settled other before

theorem held_perm_failing (found : run.scheduler.inFlight.find? (·.id = id) = some job) :
    run.held.Perm (job :: (waiting run.events ++ (run.scheduler.inFlight.eraseP (·.id = id) ++
      (completedJobs run.events ++ failedJobs run.events)))) := by
  have parts := perm_cons_eraseP found
  refine List.perm_iff_count.mpr fun other => ?_
  have counted := parts.count_eq other
  simp only [held, List.count_append, List.count_cons] at counted ⊢
  omega

theorem Kept.retry (kept : Kept run) (found : run.scheduler.inFlight.find? (·.id = id) = some job)
    (more : job.retryCount < job.maxRetries) (retried : TransferJob)
    (again : retried = { job with retryCount := job.retryCount + 1 }) :
    Kept { run with
      scheduler :=
      { run.scheduler with inFlight := run.scheduler.inFlight.eraseP (·.id = id) }.enqueue retried
      events := .queued retried :: run.events } := by
  have member := List.mem_of_find?_eq_some found
  have within : job.retryCount.toNat < job.maxRetries.toNat := UInt8.lt_iff_toNat_lt.mp more
  have bound := job.maxRetries.toNat_lt
  have counted : retried.retryCount.toNat = job.retryCount.toNat + 1 := by
    rw [again, UInt8.toNat_add, Nat.mod_eq_of_lt (by simp; omega)]
    rfl
  constructor
  · intro priority
    rw [TransferScheduler.queue_enqueue, waiting, List.filter_append, ← kept.queues priority]
    cases priority <;> rfl
  · rw [TransferScheduler.inFlight_enqueue, TransferScheduler.maxConcurrent_enqueue]
    exact Nat.le_trans (List.length_eraseP_le) kept.bounded
  · refine List.Perm.trans ?_ kept.conserved
    refine List.Perm.trans ?_ ((held_perm_failing found).map TransferJob.untried).symm
    have same : retried.untried = job.untried := by rw [again, TransferJob.untried, TransferJob.untried]
    refine List.perm_iff_count.mpr fun other => ?_
    simp only [held, waiting, completedJobs, failedJobs, TransferScheduler.inFlight_enqueue,
      List.map_append, List.map_cons, List.map_nil, List.count_append,
      List.count_cons, List.count_nil, same]
    omega
  · exact kept.distinct
  · intro id absent
    rw [attempts_queued]
    exact kept.unstarted id absent
  · intro other within
    rw [attempts_queued]
    rcases List.mem_append.mp within with before | last
    · exact kept.waits other before
    · rw [List.mem_singleton] at last
      subst last
      have ⟨_, _⟩ := kept.flies job member
      have name : other.id = job.id := by rw [again]
      have limit : other.maxRetries = job.maxRetries := by rw [again]
      rw [name, limit]
      exact ⟨by omega, by omega⟩
  · intro other within
    rw [attempts_queued]
    rw [TransferScheduler.inFlight_enqueue] at within
    exact kept.flies other (List.mem_of_mem_eraseP within)
  · intro other within
    rw [attempts_queued]
    exact kept.settled other within

theorem Kept.giveUp (kept : Kept run)
    (found : run.scheduler.inFlight.find? (·.id = id) = some job) :
    Kept { run with
      scheduler := { run.scheduler with inFlight := run.scheduler.inFlight.eraseP (·.id = id) }
      events := .failed job :: run.events } where
  queues priority := by
    rw [waiting, ← kept.queues priority]
    cases priority <;> rfl
  bounded := Nat.le_trans (List.length_eraseP_le) kept.bounded
  conserved := by
    refine List.Perm.trans (List.Perm.map _ ?_) kept.conserved
    refine List.Perm.trans ?_ (held_perm_failing found).symm
    refine List.perm_iff_count.mpr fun other => ?_
    simp only [held, waiting, completedJobs, failedJobs, List.count_append, List.count_cons]
    omega
  distinct := kept.distinct
  unstarted id absent := by
    rw [attempts_failed]
    exact kept.unstarted id absent
  waits other within := by
    rw [attempts_failed]
    exact kept.waits other within
  flies other within := by
    rw [attempts_failed]
    exact kept.flies other (List.mem_of_mem_eraseP within)
  settled other within := by
    rw [attempts_failed]
    simp only [completedJobs, failedJobs] at within
    rcases List.mem_append.mp within with completed | failed
    · exact kept.settled other (List.mem_append_left _ completed)
    rcases List.mem_cons.mp failed with here | before
    · exact here ▸ (kept.flies job (List.mem_of_find?_eq_some found)).2
    · exact kept.settled other (List.mem_append_right _ before)

theorem Kept.step (kept : Kept run) (op : SchedulerOp) (fresh : run.distinct op)
    (taken : run.step op = some after) : Kept after := by
  cases taken
  cases op with
  | enqueue job => exact kept.enqueue (fresh job (by simp [SchedulerOp.submitted]))
  | dequeue =>
    simp only [TransferScheduler.apply, SchedulerOp.submitted, TransferScheduler.events, List.append_nil]
    cases handed : run.scheduler.dequeue.2 with
    | none =>
      rw [(TransferScheduler.dequeue_none handed).1]
      exact kept
    | some => exact kept.dequeue handed
  | complete id =>
    simp only [TransferScheduler.apply, SchedulerOp.submitted, TransferScheduler.events, List.append_nil]
    exact kept.complete id
  | fail id =>
    simp only [TransferScheduler.apply, SchedulerOp.submitted, TransferScheduler.events, List.append_nil,
      TransferScheduler.fail]
    cases found : run.scheduler.inFlight.find? (·.id = id) with
    | none => exact kept
    | some job =>
      simp only
      by_cases more : job.retryCount < job.maxRetries
      · simp only [if_pos more]
        exact kept.retry found more _ rfl
      · simp only [if_neg more]
        exact kept.giveUp found

theorem Kept.places_perm (kept : Kept run) : run.places.Perm run.held := by
  have queues := perm_queues (waiting run.events)
  rw [← kept.queues .high, ← kept.queues .medium, ← kept.queues .low] at queues
  unfold places held
  rw [List.append_assoc]
  exact queues.append_right _

theorem Kept.inOrder (kept : Kept run) (handed : run.scheduler.dequeue.2 = some job) :
    Foremost (·.priority.rank) (waiting run.events) job := by
  obtain ⟨_, priority, _, first, empty, _⟩ := TransferScheduler.dequeue_some handed
  rw [kept.queues priority] at first
  have own : job.priority = priority := by
    have within : job ∈ (waiting run.events).filter (·.priority = priority) := by rw [first]; simp
    simpa using (List.mem_filter.mp within).2
  subst own
  have ranks : (fun other : TransferJob => decide (other.priority.rank = job.priority.rank)) =
      fun other => decide (other.priority = job.priority) := by
    funext other
    cases other.priority <;> cases job.priority <;> rfl
  rw [← ranks] at first
  refine foremost_of_filter first ?_
  intro other member
  by_contra before
  have none := empty other.priority (by omega)
  rw [kept.queues other.priority] at none
  exact (List.filter_eq_nil_iff.mp none) other member (by simp)

theorem Kept.hands (kept : Kept run) (nothing : run.scheduler.dequeue.2 = none) :
    run.scheduler.inFlight.length = run.scheduler.maxConcurrent.toNat ∨
      waiting run.events = [] := by
  rcases (TransferScheduler.dequeue_none nothing).2 with full | empty
  · exact .inl (Nat.le_antisymm kept.bounded full)
  · right
    have queues := perm_queues (waiting run.events)
    simp only [← kept.queues, empty, List.append_nil] at queues
    exact queues.symm.eq_nil

theorem Kept.scheduled (kept : Kept run) : Scheduled run where
  bounded := kept.bounded
  once := ((kept.places_perm.map TransferJob.id).trans kept.held_ids).nodup_iff.mpr kept.distinct
  conserved := (kept.places_perm.map TransferJob.untried).trans kept.conserved
  inOrder _ := kept.inOrder
  hands := kept.hands
  attempted job member := by
    have within : job.untried ∈ run.held.map TransferJob.untried :=
      kept.conserved.symm.subset (List.mem_map_of_mem member)
    obtain ⟨other, held, same⟩ := List.mem_map.mp within
    have name : other.untried.id = job.untried.id := congrArg TransferJob.id same
    have limit : other.untried.maxRetries = job.untried.maxRetries :=
      congrArg TransferJob.maxRetries same
    simp only [TransferJob.untried] at name limit
    rw [← name, ← limit]
    rcases List.mem_append.mp held with queued | rest
    · exact Nat.le_succ_of_le (kept.waits other queued).2
    rcases List.mem_append.mp rest with flying | settled
    · exact (kept.flies other flying).2
    · exact kept.settled other settled

/-- In every run the scheduler keeps every job in one place, hands them out in order of
priority and then of entrance, and tries each at most once more than it may be retried. -/
theorem scheduled_of_run {maxConcurrent : UInt32} {ops : List SchedulerOp} {final : SchedulerRun}
    (run : Execution SchedulerRun.step SchedulerRun.distinct (.new maxConcurrent) ops final) :
    Scheduled final := by
  have kept : Kept final := by
    refine run.invariant Kept ?_ (.new maxConcurrent)
    intro _ op _ holding fresh taken
    exact holding.step op fresh taken
  exact kept.scheduled

instance (run : SchedulerRun) (op : SchedulerOp) : Decidable (run.distinct op) :=
  inferInstanceAs (Decidable (∀ job ∈ op.submitted, job.id ∉ run.arrived.map TransferJob.id))

def sampleJob (id : String) (priority : Priority) : TransferJob :=
  { id, srcPath := "/a", dstPath := "/b", size := 1, priority, retryCount := 0, maxRetries := 1 }

def overtaken : List SchedulerOp :=
  [.enqueue (sampleJob "a" .low), .dequeue, .enqueue (sampleJob "b" .high), .fail "a", .dequeue,
    .complete "b", .dequeue, .fail "a"]

theorem scheduled_of_run_retried :
    ∃ final, Execution step distinct (.new 1) overtaken final ∧ Scheduled final ∧
      attempts "a" final.events = 2 ∧
      failedJobs final.events ≠ [] := by
  have run : Execution step distinct (.new 1) overtaken _ :=
    .next (by decide) rfl (.next (by decide) rfl (.next (by decide) rfl (.next (by decide) rfl
      (.next (by decide) rfl
        (.next (by decide) rfl (.next (by decide) rfl (.next (by decide) rfl .done)))))))
  exact ⟨_, run, scheduled_of_run run, by decide, by decide⟩

end SchedulerRun

end DistributedOs.Transfer
