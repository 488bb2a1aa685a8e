import DistributedOs.Tasks.Task
import DistributedOs.Semantics.Execution
import Mathlib.Data.List.Perm.Basic

/-! How an agent answers task requests: its event loop creates a task and submits it to a queue,
a dispatcher starts what is queued, and a forwarder sends the results, side by side. -/

namespace DistributedOs.Tasks

open DistributedOs.Protocol Semantics

/-- A task with the number of its request, which no one reads. -/
structure Job where
  index : Nat
  task : Task
  origin : Option NodeId

/-- What a task has sent to the forwarder. -/
structure Finished where
  index : Nat
  taskId : TaskId
  origin : Option NodeId
  outcome : Except TaskError Json

/-- The event loop awaits the queue while it is `submitting`. The requests, the outcomes of
tasks, newest first, and the results that were sent are kept with their numbers. -/
structure Agent where
  nodeId : NodeId
  requests : List TaskRequest
  submitting : Option Job
  queue : List Job
  running : List Job
  results : List Finished
  outcomes : List (Nat × Except TaskError Json)
  sent : List (Nat × TaskResult)
  connected : Bool
  writing : Bool

/-- The environment decides what providers answer, which tasks panic or never end, and when the
write task and the connection end. A `forward` stands for the way of a result from the forwarder
over the outgoing channel to the write of the write task; a result that does not get so far is one
that is not forwarded before `writerEnds` or `close`. -/
inductive AgentLabel where
  | receive (request : TaskRequest)
  | submit
  | dispatch
  | finish (position : Nat) (providers : Providers)
  | panics (position : Nat)
  | forward (completedAt : Nat)
  | writerEnds
  | close

def queueCapacity : Nat := 100

def taskResult (sender : NodeId) (target : Option NodeId) (taskId : TaskId) (result : Json)
    (completedAt : Nat) : TaskResult :=
  { taskId, sender, target, status := .completed, result, error := none, completedAt }

def resultValue : Except TaskError Json → Json
  | .ok output => output
  | .error error => .object [("error", .string error.toText)]

def Finished.toResult (finished : Finished) (nodeId : NodeId) (completedAt : Nat) : TaskResult :=
  taskResult nodeId finished.origin finished.taskId (resultValue finished.outcome) completedAt

namespace Agent

def new (nodeId : NodeId) : Agent :=
  { nodeId, requests := [], submitting := none, queue := [], running := [], results := [],
    outcomes := [], sent := []
    connected := true, writing := true }

section Step

variable (codecs : Codecs) (registry : TaskRegistry)

/-- A submission fails only when the dispatcher has ended, which it does with the loop. What
still runs then has no one to send its result to. -/
def step (agent : Agent) : AgentLabel → Option Agent
  | .receive request =>
    if agent.connected ∧ agent.submitting.isNone then
      match createTask registry request with
      | .ok task =>
        some { agent with
          requests := agent.requests ++ [request]
          submitting := some { index := agent.requests.length, task, origin := some request.sender } }
      | .error _ => some { agent with requests := agent.requests ++ [request] }
    else none
  | .submit =>
    match agent.submitting with
    | some job =>
      if agent.queue.length < queueCapacity then
        some { agent with submitting := none, queue := agent.queue ++ [job] }
      else none
    | none => none
  | .dispatch =>
    match agent.queue with
    | job :: rest => some { agent with queue := rest, running := agent.running ++ [job] }
    | [] => none
  | .finish position providers =>
    match agent.running[position]? with
    | some job =>
      let outcome := job.task.execute codecs providers
      some { agent with
        running := agent.running.eraseIdx position
        results := agent.results ++
          [{ index := job.index, taskId := job.task.id, origin := job.origin, outcome }]
        outcomes := (job.index, outcome) :: agent.outcomes }
    | none => none
  | .panics position =>
    match agent.running[position]? with
    | some _ => some { agent with running := agent.running.eraseIdx position }
    | none => none
  | .forward completedAt =>
    match agent.results with
    | finished :: rest =>
      if agent.writing then
        some { agent with
          results := rest, sent := agent.sent ++
            [(finished.index, finished.toResult agent.nodeId completedAt)] }
      else some { agent with results := rest }
    | [] => none
  | .writerEnds => some { agent with writing := false }
  | .close =>
    some { agent with connected := false, submitting := none, queue := [], running := [], results := [] }

end Step

def jobs (agent : Agent) : List Job := agent.submitting.toList ++ agent.queue ++ agent.running

/-- The numbers of the requests that are on their way through the agent. -/
def hand (agent : Agent) : List Nat := agent.jobs.map Job.index ++ agent.results.map Finished.index

/-- The task of a request has returned Ok. -/
def Succeeded (agent : Agent) (index : Nat) : Prop :=
  ∃ output, agent.outcomes.lookup index = some (.ok output)

/-- One result was sent for a request, with its id, and it tells whether its task succeeded. -/
def Answered (agent : Agent) (index : Nat) (request : TaskRequest) : Prop :=
  ∃ result, agent.sent.filter (·.1 = index) = [(index, result)] ∧ result.taskId = request.taskId ∧
    (result.status = .completed ↔ agent.Succeeded index) ∧
    (result.error.isSome ↔ ¬ agent.Succeeded index)

/-- Every request is on its way and not answered, or it is answered. -/
def Answering (agent : Agent) : Prop :=
  ∀ index request, agent.requests[index]? = some request →
    (index ∈ agent.hand ∧ agent.sent.filter (·.1 = index) = []) ∨ agent.Answered index request

/-- Every request makes a task, the task returns Ok, its result is forwarded while the write
task runs, and the connection ends when nothing is on its way. -/
def serving (registry : TaskRegistry) (agent : Agent) : AgentLabel → Prop
  | .receive request => ∃ task, createTask registry request = .ok task
  | .panics _ => False
  | .forward _ =>
    agent.writing ∧ ∀ finished ∈ agent.results.head?, ∃ output, finished.outcome = .ok output
  | .close => agent.hand = []
  | _ => True

/-- What is on its way belongs to a request and is on its way once, and is not answered. -/
structure Kept (agent : Agent) : Prop where
  once : agent.hand.Nodup
  unsent : ∀ index ∈ agent.hand, agent.sent.filter (·.1 = index) = []
  jobs : ∀ job ∈ agent.jobs, ∃ request, agent.requests[job.index]? = some request ∧
    job.task.id = request.taskId
  results : ∀ finished ∈ agent.results, agent.outcomes.lookup finished.index = some finished.outcome ∧
    ∃ request, agent.requests[finished.index]? = some request ∧ finished.taskId = request.taskId
  sent : ∀ entry ∈ agent.sent, entry.1 < agent.requests.length

variable {codecs : Codecs} {registry : TaskRegistry} {agent after : Agent} {label : AgentLabel}
  {index : Nat} {request : TaskRequest} {job : Job} {finished : Finished}

theorem Kept.new (nodeId : NodeId) : Kept (.new nodeId) where
  once := List.nodup_nil
  unsent := fun _ _ => rfl
  jobs := nofun
  results := nofun
  sent := nofun

theorem Kept.requested (kept : Kept agent) (member : index ∈ agent.hand) :
    ∃ request, agent.requests[index]? = some request := by
  rcases List.mem_append.mp member with begun | done
  · obtain ⟨job, inside, rfl⟩ := List.mem_map.mp begun
    obtain ⟨request, here, _⟩ := kept.jobs job inside
    exact ⟨request, here⟩
  · obtain ⟨finished, inside, rfl⟩ := List.mem_map.mp done
    obtain ⟨_, request, here, _⟩ := kept.results finished inside
    exact ⟨request, here⟩

theorem Kept.hand_lt (kept : Kept agent) (member : index ∈ agent.hand) :
    index < agent.requests.length := by
  obtain ⟨_, here⟩ := kept.requested member
  exact (List.getElem?_eq_some_iff.mp here).1

theorem Kept.filter_sent (kept : Kept agent) (beyond : agent.requests.length ≤ index) :
    agent.sent.filter (·.1 = index) = [] := by
  rw [List.filter_eq_nil_iff]
  intro entry member same
  have within := kept.sent entry member
  rw [of_decide_eq_true same] at within
  omega

theorem not_answered (unsent : agent.sent.filter (·.1 = index) = []) :
    ¬ agent.Answered index request := by
  rintro ⟨_, one, _⟩
  rw [unsent] at one
  cases one

theorem Answering.move (kept : Kept agent) (answering : Answering agent)
    (requests : after.requests = agent.requests) (sent : after.sent = agent.sent)
    (hand : ∀ index, index ∈ agent.hand → index ∈ after.hand)
    (outcomes : ∀ index ∉ agent.hand, after.outcomes.lookup index = agent.outcomes.lookup index) :
    Answering after := by
  intro index request here
  rw [requests] at here
  rcases answering index request here with ⟨way, unsent⟩ | answered
  · exact .inl ⟨hand index way, by rw [sent]; exact unsent⟩
  · right
    have off : index ∉ agent.hand := fun way => not_answered (kept.unsent index way) answered
    obtain ⟨result, one, taskId, status, error⟩ := answered
    have same : after.Succeeded index ↔ agent.Succeeded index := by
      unfold Succeeded
      rw [outcomes index off]
    exact ⟨result, by rw [sent]; exact one, taskId, status.trans same.symm, error.trans (not_congr same.symm)⟩

theorem Kept.move (kept : Kept agent) (requests : after.requests = agent.requests)
    (sent : after.sent = agent.sent) (results : after.results = agent.results)
    (outcomes : after.outcomes = agent.outcomes) (jobs : after.jobs.Perm agent.jobs) :
    Kept after := by
  have hand : after.hand.Perm agent.hand := by
    unfold hand
    rw [results]
    exact (jobs.map Job.index).append_right _
  refine ⟨hand.nodup_iff.mpr kept.once, ?_, ?_, ?_, ?_⟩
  · intro index way
    rw [sent]
    exact kept.unsent index (hand.mem_iff.mp way)
  · intro job member
    rw [requests]
    exact kept.jobs job (jobs.mem_iff.mp member)
  · intro finished member
    rw [requests, outcomes]
    rw [results] at member
    exact kept.results finished member
  · intro entry member
    rw [requests]
    rw [sent] at member
    exact kept.sent entry member

theorem move_spec (kept : Kept agent) (jobs : after.jobs.Perm agent.jobs)
    (requests : after.requests = agent.requests) (sent : after.sent = agent.sent)
    (results : after.results = agent.results) (outcomes : after.outcomes = agent.outcomes) :
    Kept after ∧ (Answering agent → Answering after) := by
  refine ⟨kept.move requests sent results outcomes jobs, ?_⟩
  intro answering
  refine answering.move kept requests sent ?_ fun index _ => by rw [outcomes]
  intro _ way
  unfold hand at way ⊢
  rw [results]
  exact ((jobs.map Job.index).append_right _).mem_iff.mpr way

theorem jobs_perm_of_running (found : agent.running[position]? = some job) :
    agent.jobs.Perm (job :: { agent with running := agent.running.eraseIdx position }.jobs) := by
  obtain ⟨inside, here⟩ := List.getElem?_eq_some_iff.mp found
  have split : agent.running.Perm (job :: agent.running.eraseIdx position) := by
    rw [← here]
    exact (List.getElem_cons_eraseIdx_perm inside).symm
  exact (split.append_left _).trans List.perm_middle

theorem Kept.less (kept : Kept agent) (requests : after.requests = agent.requests)
    (sent : after.sent = agent.sent) (outcomes : after.outcomes = agent.outcomes)
    (jobs : after.jobs.Sublist agent.jobs) (results : after.results.Sublist agent.results) :
    Kept after := by
  have hand : after.hand.Sublist agent.hand := (jobs.map Job.index).append (results.map Finished.index)
  refine ⟨kept.once.sublist hand, ?_, ?_, ?_, ?_⟩
  · intro index way
    rw [sent]
    exact kept.unsent index (hand.subset way)
  · intro job member
    rw [requests]
    exact kept.jobs job (jobs.subset member)
  · intro finished member
    rw [requests, outcomes]
    exact kept.results finished (results.subset member)
  · intro entry member
    rw [requests]
    rw [sent] at member
    exact kept.sent entry member

theorem not_answering_of_lost (kept : Kept agent) (requests : after.requests = agent.requests)
    (sent : after.sent = agent.sent) (before : index ∈ agent.hand) (gone : index ∉ after.hand) :
    ¬ Answering after := by
  intro answering
  obtain ⟨request, here⟩ := kept.requested before
  rcases answering index request (by rw [requests]; exact here) with ⟨way, _⟩ | answered
  · exact gone way
  · exact not_answered (by rw [sent]; exact kept.unsent index before) answered

theorem request_append (here : agent.requests[index]? = some other) :
    (agent.requests ++ [request])[index]? = some other := by
  rw [List.getElem?_append_left (List.getElem?_eq_some_iff.mp here).1]
  exact here

theorem receive_created (kept : Kept agent) (free : agent.submitting = none)
    (sameId : task.id = request.taskId)
    (made : after =
      { agent with
        requests := agent.requests ++ [request]
        submitting := some { index := agent.requests.length, task, origin } }) :
    Kept after ∧ (Answering agent → Answering after) := by
  have jobs : after.jobs = { index := agent.requests.length, task, origin } :: agent.jobs := by
    subst made
    simp [Agent.jobs, free]
  have hand : after.hand = agent.requests.length :: agent.hand := by
    unfold Agent.hand
    rw [jobs, made]
    rfl
  have old : ∀ {index : Nat} {other}, agent.requests[index]? = some other →
      after.requests[index]? = some other := by
    intro index other here
    subst made
    exact request_append here
  have last : after.requests[agent.requests.length]? = some request := by
    subst made
    simp
  refine ⟨⟨?_, ?_, ?_, ?_, ?_⟩, ?_⟩
  · rw [hand]
    exact List.nodup_cons.mpr ⟨fun way => lt_irrefl _ (kept.hand_lt way), kept.once⟩
  · intro index way
    rw [hand] at way
    subst made
    rcases List.mem_cons.mp way with rfl | way
    · exact kept.filter_sent le_rfl
    · exact kept.unsent index way
  · intro job member
    rw [jobs] at member
    rcases List.mem_cons.mp member with rfl | member
    · exact ⟨request, last, sameId⟩
    · obtain ⟨other, here, same⟩ := kept.jobs job member
      exact ⟨other, old here, same⟩
  · intro finished member
    have ⟨outcome, other, here, same⟩ := kept.results finished (by rw [made] at member; exact member)
    exact ⟨by rw [made]; exact outcome, other, old here, same⟩
  · intro entry member
    rw [made] at member ⊢
    simp only [List.length_append, List.length_singleton]
    exact Nat.lt_succ_of_lt (kept.sent entry member)
  · intro answering index other here
    by_cases new : index = agent.requests.length
    · left
      refine ⟨by rw [hand, new]; exact List.mem_cons_self, ?_⟩
      rw [made, new]
      exact kept.filter_sent le_rfl
    · have here : agent.requests[index]? = some other := by
        rw [made] at here
        rcases lt_or_ge index agent.requests.length with within | beyond
        · rwa [List.getElem?_append_left within] at here
        · rw [List.getElem?_append_right beyond] at here
          have bound := (List.getElem?_eq_some_iff.mp here).1
          simp only [List.length_singleton] at bound
          omega
      rcases answering index other here with ⟨way, unsent⟩ | answered
      · exact .inl ⟨by rw [hand]; exact List.mem_cons_of_mem _ way, by rw [made]; exact unsent⟩
      · exact .inr (by rw [made]; exact answered)

theorem receive_refused (kept : Kept agent) :
    Kept { agent with requests := agent.requests ++ [request] } ∧
      ¬ Answering { agent with requests := agent.requests ++ [request] } := by
  refine ⟨⟨kept.once, kept.unsent, ?_, ?_, ?_⟩, ?_⟩
  · intro job member
    obtain ⟨other, here, same⟩ := kept.jobs job member
    exact ⟨other, request_append here, same⟩
  · intro finished member
    have ⟨outcome, other, here, same⟩ := kept.results finished member
    exact ⟨outcome, other, request_append here, same⟩
  · intro entry member
    simp only [List.length_append, List.length_singleton]
    exact Nat.lt_succ_of_lt (kept.sent entry member)
  · intro answering
    rcases answering agent.requests.length request (by simp) with ⟨way, _⟩ | answered
    · exact lt_irrefl _ (kept.hand_lt way)
    · exact not_answered (kept.filter_sent le_rfl) answered

/-- A task that ends goes from the jobs to the results. -/
theorem finish_spec (kept : Kept agent)
    (found : agent.running[position]? = some job)
    (made : after =
      { agent with
        running := agent.running.eraseIdx position
        results := agent.results ++
        [{ index := job.index, taskId := job.task.id, origin := job.origin, outcome }]
        outcomes := (job.index, outcome) :: agent.outcomes }) :
    Kept after ∧ (Answering agent → Answering after) := by
  have jobs : agent.jobs.Perm (job :: after.jobs) := by
    rw [made]
    exact jobs_perm_of_running found
  have hand : after.hand.Perm agent.hand := by
    have begun := (jobs.map Job.index).append_right (agent.results.map Finished.index)
    have done : after.results.map Finished.index = agent.results.map Finished.index ++
        [job.index] := by simp [made]
    unfold Agent.hand
    rw [done, ← List.append_assoc]
    exact (List.perm_append_singleton _ _).trans begun.symm
  have member : job ∈ agent.jobs := jobs.mem_iff.mpr List.mem_cons_self
  have way : job.index ∈ agent.hand := List.mem_append_left _ (List.mem_map_of_mem member)
  have lookup : ∀ index ≠ job.index, after.outcomes.lookup index = agent.outcomes.lookup index := by
    intro index different
    rw [made, List.lookup_cons, beq_false_of_ne different]
  have requests : after.requests = agent.requests := by rw [made]
  have sent : after.sent = agent.sent := by rw [made]
  refine ⟨⟨hand.nodup_iff.mpr kept.once, ?_, ?_, ?_, ?_⟩, ?_⟩
  · intro index here
    rw [sent]
    exact kept.unsent index (hand.mem_iff.mp here)
  · intro other here
    rw [requests]
    exact kept.jobs other (jobs.mem_iff.mpr (List.mem_cons_of_mem _ here))
  · intro finished here
    rw [requests]
    rw [made] at here
    rcases List.mem_append.mp here with before | last
    · have different : finished.index ≠ job.index := by
        intro same
        have disjoint := (List.nodup_append.mp kept.once).2.2
        exact disjoint job.index (List.mem_map_of_mem member) finished.index
          (List.mem_map_of_mem before) same.symm
      rw [lookup _ different]
      exact kept.results finished before
    · rw [List.mem_singleton.mp last]
      exact ⟨by simp [made], kept.jobs job member⟩
  · intro entry here
    rw [requests]
    rw [sent] at here
    exact kept.sent entry here
  · intro answering
    refine answering.move kept requests sent (fun index here => hand.mem_iff.mpr here) ?_
    intro index off
    exact lookup index fun same => off (by rw [same]; exact way)

/-- A result that is sent answers its request exactly when it is Ok. -/
theorem forward_spec (kept : Kept agent) (results : agent.results = finished :: rest)
    (made : after =
      { agent with
        results := rest
        sent := agent.sent ++ [(finished.index, finished.toResult agent.nodeId completedAt)] }) :
    Kept after ∧
      (Answering agent → (Answering after ↔ ∃ output, finished.outcome = .ok output)) := by
  have jobs : after.jobs = agent.jobs := by rw [made]; rfl
  have hand : agent.hand.Perm (finished.index :: after.hand) := by
    unfold Agent.hand
    rw [jobs, results, made]
    exact List.perm_middle
  have way : finished.index ∈ agent.hand := hand.mem_iff.mpr List.mem_cons_self
  have gone : finished.index ∉ after.hand := (List.nodup_cons.mp (hand.nodup_iff.mp kept.once)).1
  have ⟨outcome, request, here, sameId⟩ := kept.results finished (by simp [results])
  have filtered : ∀ index ≠ finished.index, after.sent.filter (·.1 = index) = agent.sent.filter
      (·.1 = index) := by
    intro index different
    simp [made, List.filter_append, different.symm]
  have own : after.sent.filter (·.1 = finished.index) =
      [(finished.index, finished.toResult agent.nodeId completedAt)] := by
    simp [made, List.filter_append, kept.unsent _ way]
  have succeeded : after.Succeeded finished.index ↔ ∃ output, finished.outcome = .ok output := by
    unfold Succeeded
    rw [made, outcome]
    simp
  refine ⟨⟨(List.nodup_cons.mp (hand.nodup_iff.mp kept.once)).2, ?_, ?_, ?_, ?_⟩, ?_⟩
  · intro index still
    have different : index ≠ finished.index := fun same => gone (same ▸ still)
    rw [filtered index different]
    exact kept.unsent index (hand.mem_iff.mpr (List.mem_cons_of_mem _ still))
  · intro job member
    rw [jobs] at member
    rw [made]
    exact kept.jobs job member
  · intro other member
    rw [made] at member ⊢
    exact kept.results other (by rw [results]; exact List.mem_cons_of_mem _ member)
  · intro entry member
    rw [made] at member ⊢
    rcases List.mem_append.mp member with before | last
    · exact kept.sent entry before
    · rw [List.mem_singleton.mp last]
      exact kept.hand_lt way
  · intro answering
    constructor
    · intro answered
      rcases answered finished.index request (by rw [made]; exact here) with ⟨still, _⟩
        | ⟨result, one, _, status, _⟩
      · exact absurd still gone
      · rw [own] at one
        cases one
        exact succeeded.mp (status.mp rfl)
    · intro ok index other there
      by_cases same : index = finished.index
      · subst same
        rw [made] at there
        cases here.symm.trans there
        right
        refine ⟨_, own, sameId, iff_of_true rfl (succeeded.mpr ok), iff_of_false nofun ?_⟩
        exact fun failed => failed (succeeded.mpr ok)
      · rw [made] at there
        rcases answering index other there with ⟨before, unsent⟩ | ⟨result, one, taskId, status, error⟩
        · left
          rcases List.mem_cons.mp (hand.mem_iff.mp before) with here | still
          · exact absurd here same
          · exact ⟨still, by rw [filtered index same]; exact unsent⟩
        · right
          have unchanged : after.Succeeded index ↔ agent.Succeeded index := by rw [made]; exact Iff.rfl
          exact ⟨result, by rw [filtered index same]; exact one, taskId, status.trans unchanged.symm,
            error.trans (not_congr unchanged.symm)⟩

theorem lost_spec (kept : Kept agent) (jobs : after.jobs.Sublist agent.jobs)
    (results : after.results.Sublist agent.results) (split : agent.hand.Perm (index :: after.hand))
    (requests : after.requests = agent.requests) (sent : after.sent = agent.sent)
    (outcomes : after.outcomes = agent.outcomes) : Kept after ∧ ¬ Answering after := by
  refine ⟨kept.less requests sent outcomes jobs results, ?_⟩
  refine not_answering_of_lost kept requests sent (split.mem_iff.mpr List.mem_cons_self) ?_
  exact (List.nodup_cons.mp (split.nodup_iff.mp kept.once)).1

theorem close_spec (kept : Kept agent) :
    Kept { agent with connected := false, submitting := none, queue := [], running := [], results := [] } ∧
      (Answering agent →
        (Answering { agent with connected := false, submitting := none, queue := [], running := [], results := [] } ↔
          agent.hand = [])) := by
  refine ⟨kept.less rfl rfl rfl (List.nil_sublist _) (List.nil_sublist _), ?_⟩
  intro answering
  constructor
  · intro after
    by_contra busy
    obtain ⟨index, way⟩ := List.exists_mem_of_ne_nil _ busy
    have unanswered : ¬ Answering
        { agent with
          connected := false, submitting := none, queue := [], running := [], results := [] } :=
      not_answering_of_lost kept rfl rfl way (by simp [Agent.hand, Agent.jobs])
    exact unanswered after
  · intro free
    refine answering.move kept rfl rfl ?_ fun _ _ => rfl
    intro _ way
    rw [free] at way
    cases way

/-- A step keeps every request answered or on its way exactly when it serves the request. -/
theorem step_spec (ids : KeepsIds registry) (kept : Kept agent)
    (taken : agent.step codecs registry label = some after) :
    Kept after ∧ (Answering agent → (Answering after ↔ agent.serving registry label)) := by
  cases label with
  | receive request =>
    simp only [step] at taken
    split at taken
    · rename_i ready
      split at taken
      · rename_i task created
        have ⟨keptAfter, answers⟩ := receive_created kept (Option.isNone_iff_eq_none.mp ready.2)
          (ids request task created)
          (Option.some.inj taken).symm
        exact ⟨keptAfter, fun answering => iff_of_true (answers answering) ⟨task, created⟩⟩
      · rename_i refused
        cases taken
        refine ⟨(receive_refused kept).1, fun _ => iff_of_false (receive_refused kept).2 ?_⟩
        rintro ⟨_, created⟩
        cases refused.symm.trans created
    · cases taken
  | submit =>
    simp only [step] at taken
    split at taken
    · rename_i job submitting
      split at taken
      · cases taken
        have jobs : { agent with submitting := none, queue := agent.queue ++ [job] }.jobs.Perm
            agent.jobs := by
          simp only [Agent.jobs, submitting, Option.toList_none, Option.toList_some, List.nil_append]
          exact (List.perm_append_singleton _ _).append_right _
        have ⟨keptAfter, answers⟩ := move_spec kept jobs rfl rfl rfl rfl
        exact ⟨keptAfter, fun answering => iff_of_true (answers answering) trivial⟩
      · cases taken
    · cases taken
  | dispatch =>
    simp only [step] at taken
    split at taken
    · rename_i job rest queue
      cases taken
      have jobs : { agent with queue := rest, running := agent.running ++ [job] }.jobs.Perm
          agent.jobs := by
        simp only [Agent.jobs, queue, List.append_assoc]
        refine List.Perm.append_left _ ?_
        rw [← List.append_assoc]
        exact List.perm_append_singleton job (rest ++ agent.running)
      have ⟨keptAfter, answers⟩ := move_spec kept jobs rfl rfl rfl rfl
      exact ⟨keptAfter, fun answering => iff_of_true (answers answering) trivial⟩
    · cases taken
  | finish =>
    simp only [step] at taken
    split at taken
    · rename_i job found
      have ⟨keptAfter, answers⟩ := finish_spec kept found (Option.some.inj taken).symm
      exact ⟨keptAfter, fun answering => iff_of_true (answers answering) trivial⟩
    · cases taken
  | panics position =>
    simp only [step] at taken
    split at taken
    · rename_i job found
      cases taken
      have split : agent.hand.Perm
          (job.index :: { agent with running := agent.running.eraseIdx position }.hand) :=
        ((jobs_perm_of_running found).map Job.index).append_right _
      have fewer : { agent with running := agent.running.eraseIdx position }.jobs.Sublist agent.jobs :=
        (List.eraseIdx_sublist _ _).append_left _
      have ⟨keptAfter, unanswered⟩ := lost_spec kept fewer (List.Sublist.refl _) split rfl rfl rfl
      exact ⟨keptAfter, fun _ => iff_of_false unanswered id⟩
    · cases taken
  | forward =>
    simp only [step] at taken
    split at taken
    · rename_i finished rest results
      split at taken
      · rename_i writing
        have ⟨keptAfter, answers⟩ := forward_spec kept results (Option.some.inj taken).symm
        refine ⟨keptAfter, fun answering => (answers answering).trans ?_⟩
        simp [serving, writing, results]
      · rename_i silent
        cases taken
        have split : agent.hand.Perm (finished.index :: { agent with results := rest }.hand) := by
          simp only [Agent.hand, results]
          exact List.perm_middle
        have same : { agent with results := rest }.jobs.Sublist agent.jobs := .refl _
        have fewer : { agent with results := rest }.results.Sublist agent.results := by
          rw [results]
          exact List.sublist_cons_self _ _
        have ⟨keptAfter, unanswered⟩ := lost_spec kept same fewer split rfl rfl rfl
        exact ⟨keptAfter, fun _ => iff_of_false unanswered fun served => silent served.1⟩
    · cases taken
  | writerEnds =>
    cases taken
    have jobs : { agent with writing := false }.jobs.Perm agent.jobs := .refl _
    have ⟨keptAfter, answers⟩ := move_spec kept jobs rfl rfl rfl rfl
    exact ⟨keptAfter, fun answering => iff_of_true (answers answering) trivial⟩
  | close =>
    cases taken
    exact close_spec kept

/-- In every run of an agent, however its tasks interleave, each request stays on its way until
it is answered, rightly and once, exactly when the run serves all of them. -/
theorem answering_of_run (codecs : Codecs) (serdeError : Json → String) (nodeId : NodeId)
    {labels : List AgentLabel}
    (run : Execution (step codecs (agentRegistry serdeError)) anything (.new nodeId) labels after) :
    EveryStep (step codecs (agentRegistry serdeError)) (fun _ _ after => Answering after)
      (.new nodeId) labels ↔
      Execution (step codecs (agentRegistry serdeError)) (serving (agentRegistry serdeError))
        (.new nodeId) labels after :=
  run.everyState_iff Kept (.new nodeId)
    (fun _ _ _ kept taken => (step_spec (keepsIds_agentRegistry serdeError) kept taken).1) nofun
    fun _ _ _ kept answering taken =>
    (step_spec (keepsIds_agentRegistry serdeError) kept taken).2 answering

def sampleRequest (kind : String) : TaskRequest :=
  { taskId := .nil, sender := .nil, target := none, kind, payload := .null }

/-- A platform without any of it. -/
def sampleProviders : Providers where
  getText := .error "unavailable"
  setText := fun _ => .error "unavailable"
  notify := fun _ _ => .error "unavailable"
  execute := fun _ _ => .error "unavailable"
  read := fun _ => .error "unavailable"
  write := fun _ _ => .error "unavailable"

theorem answering_of_ping :
    ∃ agent : Agent, (agent.sent.map fun entry => entry.2.status) = [.completed] ∧
      EveryStep (step sampleCodecs (agentRegistry fun _ => ""))
        (fun _ _ after => Answering after) (.new .nil)
          [.receive (sampleRequest "ping"), .submit, .dispatch, .finish 0 sampleProviders,
            .forward 0] := by
  obtain ⟨agent, run⟩ : ∃ agent, Execution (step sampleCodecs (agentRegistry fun _ => ""))
      (serving (agentRegistry fun _ => "")) (.new .nil)
      [.receive (sampleRequest "ping"), .submit, .dispatch, .finish 0 sampleProviders,
        .forward 0] agent := by
    refine ⟨_, .next ⟨_, rfl⟩ rfl
      (.next trivial rfl (.next trivial rfl (.next trivial rfl (.single ⟨rfl, ?_⟩ rfl))))⟩
    intro _ head
    cases head
    exact ⟨_, rfl⟩
  have played := execution_iff_replay.mp run.plain
  refine ⟨agent, ?_, (answering_of_run _ _ _ run.plain).mpr run⟩
  cases played
  rfl

/-- A request of an unknown kind is never answered. A command that fails is answered with
`completed` and without an error. -/
theorem failures_unanswered :
    (∃ agent : Agent, Execution (step sampleCodecs (agentRegistry fun _ => "")) anything (.new .nil)
        [.receive (sampleRequest "reboot")] agent ∧ agent.hand = [] ∧ agent.sent.length = 0 ∧
      ¬ EveryStep (step sampleCodecs (agentRegistry fun _ => ""))
        (fun _ _ after => Answering after) (.new .nil)
          [.receive (sampleRequest "reboot")]) ∧
    ∃ agent : Agent, Execution (step sampleCodecs (agentRegistry fun _ => "")) anything (.new .nil)
        [.receive { sampleRequest "terminal" with payload := .object [("command", .string "ls")] },
          .submit, .dispatch,
          .finish 0 sampleProviders, .forward 0] agent ∧
      ¬ agent.Succeeded 0 ∧
      (agent.sent.map fun entry => (entry.2.status, entry.2.error)) = [(.completed, none)] := by
  constructor
  · refine ⟨_, .single trivial rfl, rfl, rfl, fun every => ?_⟩
    have answering := every.head rfl
    rcases answering 0 (sampleRequest "reboot") rfl with ⟨way, _⟩ | ⟨_, one, _⟩
    · cases way
    · cases one
  · refine ⟨_, .next trivial rfl
      (.next trivial rfl (.next trivial rfl (.next trivial rfl (.single trivial rfl)))), ?_, rfl⟩
    rintro ⟨_, returned⟩
    cases returned

end Agent

end DistributedOs.Tasks
