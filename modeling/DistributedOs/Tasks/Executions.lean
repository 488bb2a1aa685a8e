import DistributedOs.Tasks.Agent

/-! What the results of an agent tell: each one is the outcome of the task that one of its requests
has made. -/

namespace DistributedOs.Tasks

open DistributedOs.Protocol Semantics

namespace Agent

/-- An agent some steps later. -/
structure Grown (before after : Agent) : Prop where
  nodeId : after.nodeId = before.nodeId
  requests : before.requests <+: after.requests
  outcomes : before.outcomes ⊆ after.outcomes
  sent : before.sent <+: after.sent

def Executed (codecs : Codecs) (registry : TaskRegistry) (agent : Agent) (request : TaskRequest)
    (outcome : Except TaskError Json) : Prop :=
  ∃ index task providers, agent.requests[index]? = some request ∧
  createTask registry request = .ok task ∧
    (index, outcome) ∈ agent.outcomes ∧ outcome = task.execute codecs providers

/-- What is on its way, and what was sent, belongs to requests. -/
structure Genuine (codecs : Codecs) (registry : TaskRegistry) (agent : Agent) : Prop where
  jobs : ∀ job ∈ agent.jobs, ∃ request, agent.requests[job.index]? = some request ∧
    createTask registry request = .ok job.task ∧ job.origin = some request.sender
  results : ∀ finished ∈ agent.results, ∃ request,
    agent.Executed codecs registry request finished.outcome ∧
    finished.taskId = request.taskId ∧ finished.origin = some request.sender
  sent : ∀ entry ∈ agent.sent, ∃ request outcome completedAt,
    agent.Executed codecs registry request outcome ∧
    entry.2 = taskResult agent.nodeId (some request.sender) request.taskId
      (resultValue outcome) completedAt

variable {codecs : Codecs} {registry : TaskRegistry} {agent after : Agent} {label : AgentLabel}
  {request : TaskRequest} {outcome : Except TaskError Json} {index : Nat}

theorem Grown.same (nodeId : after.nodeId = agent.nodeId)
    (requests : after.requests = agent.requests) (outcomes : after.outcomes = agent.outcomes)
    (sent : after.sent = agent.sent) : Grown agent after :=
  ⟨nodeId, requests ▸ List.prefix_rfl, outcomes ▸ List.Subset.refl _, sent ▸ List.prefix_rfl⟩

theorem Grown.getElem? (grown : Grown agent after) (here : agent.requests[index]? = some request) :
    after.requests[index]? = some request := by
  obtain ⟨_, same⟩ := grown.requests
  rw [← same, List.getElem?_append_left (List.getElem?_eq_some_iff.mp here).1]
  exact here

theorem Executed.grow (executed : agent.Executed codecs registry request outcome)
    (grown : Grown agent after) :
    after.Executed codecs registry request outcome := by
  obtain ⟨index, task, providers, here, created, ended, same⟩ := executed
  exact ⟨index, task, providers, grown.getElem? here, created, grown.outcomes ended, same⟩

theorem Genuine.new (nodeId : NodeId) : Genuine codecs registry (.new nodeId) :=
  ⟨nofun, nofun, nofun⟩

/-- What is new in an agent decides whether it stays as it is. -/
theorem Genuine.grow (genuine : Genuine codecs registry agent) (grown : Grown agent after)
    (jobs : ∀ job ∈ after.jobs, job ∈ agent.jobs ∨
      ∃ request, after.requests[job.index]? = some request ∧
      createTask registry request = .ok job.task ∧ job.origin = some request.sender)
    (results : ∀ finished ∈ after.results, finished ∈ agent.results ∨ ∃ request,
      after.Executed codecs registry request finished.outcome ∧ finished.taskId = request.taskId ∧
      finished.origin = some request.sender)
    (sent : ∀ entry ∈ after.sent, entry ∈ agent.sent ∨
      ∃ finished ∈ agent.results, ∃ completedAt,
      entry.2 = finished.toResult agent.nodeId completedAt) :
    Genuine codecs registry after := by
  refine ⟨?_, ?_, ?_⟩
  · intro job member
    rcases jobs job member with before | new
    · obtain ⟨request, here, created, origin⟩ := genuine.jobs job before
      exact ⟨request, grown.getElem? here, created, origin⟩
    · exact new
  · intro finished member
    rcases results finished member with before | new
    · obtain ⟨request, executed, taskId, origin⟩ := genuine.results finished before
      exact ⟨request, executed.grow grown, taskId, origin⟩
    · exact new
  · intro entry member
    rcases sent entry member with before | ⟨finished, done, completedAt, same⟩
    · obtain ⟨request, outcome, completedAt, executed, same⟩ := genuine.sent entry before
      exact ⟨request, outcome, completedAt, executed.grow grown, by rw [grown.nodeId]; exact same⟩
    · obtain ⟨request, executed, taskId, origin⟩ := genuine.results finished done
      refine ⟨request, finished.outcome, completedAt, executed.grow grown, ?_⟩
      rw [grown.nodeId, same, Finished.toResult, origin, taskId]

theorem Genuine.move (genuine : Genuine codecs registry agent)
    (nodeId : after.nodeId = agent.nodeId) (requests : after.requests = agent.requests)
    (outcomes : after.outcomes = agent.outcomes) (sent : after.sent = agent.sent)
    (jobs : after.jobs ⊆ agent.jobs) (results : after.results ⊆ agent.results) :
    Grown agent after ∧ Genuine codecs registry after := by
  have grown := Grown.same nodeId requests outcomes sent
  refine ⟨grown, genuine.grow grown (fun _ member => .inl (jobs member))
    (fun _ member => .inl (results member)) ?_⟩
  intro _ member
  rw [sent] at member
  exact .inl member

theorem Genuine.receive (genuine : Genuine codecs registry agent)
    (created : createTask registry request = .ok task) (made : after =
      { agent with
        requests := agent.requests ++ [request]
        submitting :=
        some { index := agent.requests.length, task, origin := some request.sender } }) :
    Grown agent after ∧ Genuine codecs registry after := by
  subst made
  have grown : Grown agent
      { agent with
        requests := agent.requests ++ [request]
        submitting := some { index := agent.requests.length, task, origin := some request.sender } } :=
    ⟨rfl, List.prefix_append _ _, List.Subset.refl _, List.prefix_rfl⟩
  refine ⟨grown, genuine.grow grown ?_ (fun _ member => .inl member) (fun _ member => .inl member)⟩
  intro _ member
  simp only [Agent.jobs, Option.toList_some, List.mem_append, List.mem_singleton] at member
  rcases member with (rfl | queued) | running
  · exact .inr ⟨request, List.getElem?_concat_length, created, rfl⟩
  · exact .inl (List.mem_append_left _ (List.mem_append_right _ queued))
  · exact .inl (List.mem_append_right _ running)

theorem Genuine.finish (genuine : Genuine codecs registry agent) (ids : KeepsIds registry)
    (found : agent.running[position]? = some job)
    (made : after =
      { agent with
        running := agent.running.eraseIdx position
        results := agent.results ++
          [{ index := job.index, taskId := job.task.id, origin := job.origin
             outcome := job.task.execute codecs providers }]
        outcomes := (job.index, job.task.execute codecs providers) :: agent.outcomes }) :
    Grown agent after ∧ Genuine codecs registry after := by
  subst made
  have running : job ∈ agent.jobs := List.mem_append_right _ (List.mem_of_getElem? found)
  obtain ⟨request, here, created, origin⟩ := genuine.jobs job running
  have grown : Grown agent
      { agent with
        running := agent.running.eraseIdx position
        results := agent.results ++
          [
            { index := job.index, taskId := job.task.id, origin := job.origin
              outcome := job.task.execute codecs providers }]
        outcomes := (job.index, job.task.execute codecs providers) :: agent.outcomes } :=
    ⟨rfl, List.prefix_rfl, List.subset_cons_self _ _, List.prefix_rfl⟩
  refine ⟨grown, genuine.grow grown ?_ ?_ (fun _ member => .inl member)⟩
  · intro _ member
    simp only [Agent.jobs, List.mem_append] at member
    rcases member with waiting | runs
    · exact .inl (List.mem_append.mpr (.inl (List.mem_append.mpr waiting)))
    · exact .inl (List.mem_append_right _ (List.mem_of_mem_eraseIdx runs))
  · intro _ member
    rcases List.mem_append.mp member with before | new
    · exact .inl before
    · obtain rfl := List.mem_singleton.mp new
      exact .inr ⟨request, ⟨job.index, job.task, providers, here, created, List.mem_cons_self, rfl⟩,
        ids request job.task created, origin⟩

theorem Genuine.forward (genuine : Genuine codecs registry agent)
    (results : agent.results = finished :: rest)
    (made : after =
      { agent with
        results := rest,
        sent := agent.sent ++ [(finished.index, finished.toResult agent.nodeId completedAt)] }) :
    Grown agent after ∧ Genuine codecs registry after := by
  subst made
  have grown : Grown agent
      { agent with
        results := rest, sent := agent.sent ++
          [(finished.index, finished.toResult agent.nodeId completedAt)] } :=
    ⟨rfl, List.prefix_rfl, List.Subset.refl _, List.prefix_append _ _⟩
  refine ⟨grown, genuine.grow grown (fun _ member => .inl member) ?_ ?_⟩
  · intro _ member
    rw [results]
    exact .inl (List.mem_cons_of_mem _ member)
  · intro _ member
    rcases List.mem_append.mp member with before | new
    · exact .inl before
    · obtain rfl := List.mem_singleton.mp new
      rw [results]
      exact .inr ⟨finished, List.mem_cons_self, completedAt, rfl⟩

theorem Genuine.step (ids : KeepsIds registry) (genuine : Genuine codecs registry agent)
    (taken : agent.step codecs registry label = some after) :
    Grown agent after ∧ Genuine codecs registry after := by
  cases label with
  | receive request =>
    simp only [Agent.step] at taken
    split at taken
    · split at taken
      · rename_i created
        exact genuine.receive created (Option.some.inj taken).symm
      · cases taken
        have grown : Grown agent { agent with requests := agent.requests ++ [request] } :=
          ⟨rfl, List.prefix_append _ _, List.Subset.refl _, List.prefix_rfl⟩
        exact ⟨grown, genuine.grow grown (fun _ member => .inl member) (fun _ member => .inl member)
          (fun _ member => .inl member)⟩
    · cases taken
  | submit =>
    simp only [Agent.step] at taken
    split at taken
    · rename_i job submitting
      split at taken
      · cases taken
        refine genuine.move rfl rfl rfl rfl ?_ (List.Subset.refl _)
        intro other member
        simp only [Agent.jobs, submitting, Option.toList_none, Option.toList_some, List.nil_append,
          List.mem_append,
          List.mem_singleton] at member ⊢
        rcases member with (queued | same) | running
        · exact .inl (.inr queued)
        · exact .inl (.inl same)
        · exact .inr running
      · cases taken
    · cases taken
  | dispatch =>
    simp only [Agent.step] at taken
    split at taken
    · rename_i job rest queue
      cases taken
      refine genuine.move rfl rfl rfl rfl ?_ (List.Subset.refl _)
      intro _ member
      simp only [Agent.jobs, queue, List.mem_append, List.mem_cons, List.not_mem_nil,
        or_false] at member ⊢
      rcases member with (waiting | queued) | running | same
      · exact .inl (.inl waiting)
      · exact .inl (.inr (.inr queued))
      · exact .inr running
      · exact .inl (.inr (.inl same))
    · cases taken
  | finish =>
    simp only [Agent.step] at taken
    split at taken
    · rename_i found
      exact genuine.finish ids found (Option.some.inj taken).symm
    · cases taken
  | panics position =>
    simp only [Agent.step] at taken
    split at taken
    · cases taken
      refine genuine.move rfl rfl rfl rfl ?_ (List.Subset.refl _)
      exact ((List.eraseIdx_sublist agent.running position).append_left _).subset
    · cases taken
  | forward =>
    simp only [Agent.step] at taken
    split at taken
    · rename_i results
      split at taken
      · exact genuine.forward results (Option.some.inj taken).symm
      · cases taken
        refine genuine.move rfl rfl rfl rfl (List.Subset.refl _) ?_
        rw [results]
        exact List.subset_cons_self _ _
    · cases taken
  | writerEnds =>
    cases taken
    exact genuine.move rfl rfl rfl rfl (List.Subset.refl _) (List.Subset.refl _)
  | close =>
    cases taken
    exact genuine.move rfl rfl rfl rfl (List.nil_subset _) (List.nil_subset _)

theorem requests_of_step (taken : agent.step codecs registry label = some after) :
    after.requests = agent.requests ++ match label with | .receive request => [request] | _ => [] := by
  cases label with
  | receive =>
    simp only [Agent.step] at taken
    split at taken
    · split at taken
      · cases taken
        rfl
      · cases taken
        rfl
    · cases taken
  | submit =>
    simp only [Agent.step] at taken
    split at taken
    · split at taken
      · cases taken
        exact (List.append_nil _).symm
      · cases taken
    · cases taken
  | forward =>
    simp only [Agent.step] at taken
    split at taken
    · split at taken
      · cases taken
        exact (List.append_nil _).symm
      · cases taken
        exact (List.append_nil _).symm
    · cases taken
  | dispatch | finish | panics =>
    simp only [Agent.step] at taken
    split at taken
    · cases taken
      exact (List.append_nil _).symm
    · cases taken
  | writerEnds | close =>
    cases taken
    exact (List.append_nil _).symm

/-- The numbers of the requests whose tasks have ended or are on their way to. -/
def begun (agent : Agent) : List Nat := agent.outcomes.map Prod.fst ++ agent.jobs.map Job.index

structure Once (agent : Agent) : Prop where
  distinct : agent.begun.Nodup
  known : ∀ index ∈ agent.begun, index < agent.requests.length

theorem Once.new (nodeId : NodeId) : Once (.new nodeId) :=
  ⟨List.nodup_nil, fun _ member => nomatch member⟩

theorem Once.less (once : Once agent) (begun : after.begun.Subperm agent.begun)
    (requests : after.requests = agent.requests) : Once after := by
  obtain ⟨_, same, fewer⟩ := begun
  refine ⟨same.nodup_iff.mp (once.distinct.sublist fewer), ?_⟩
  intro index member
  rw [requests]
  exact once.known index (fewer.subset (same.mem_iff.mpr member))

theorem Once.receive (once : Once agent)
    (begun : after.begun.Perm (agent.requests.length :: agent.begun))
    (requests : after.requests.length = agent.requests.length + 1) : Once after := by
  refine ⟨begun.nodup_iff.mpr (List.nodup_cons.mpr ⟨?_, once.distinct⟩), ?_⟩
  · intro member
    exact Nat.lt_irrefl _ (once.known _ member)
  · intro index member
    rcases List.mem_cons.mp (begun.mem_iff.mp member) with rfl | before
    · omega
    · have within := once.known index before
      omega

theorem Once.step (once : Once agent) (taken : agent.step codecs registry label = some after) :
    Once after := by
  cases label with
  | receive =>
    simp only [Agent.step] at taken
    split at taken
    · rename_i ready
      have free : agent.submitting = none := Option.isNone_iff_eq_none.mp ready.2
      split at taken
      · cases taken
        refine once.receive ?_ (List.length_append ..)
        simp only [begun, Agent.jobs, free, Option.toList_some, Option.toList_none, List.nil_append,
          List.cons_append,
          List.map_cons]
        exact List.perm_middle
      · cases taken
        refine ⟨once.distinct, fun index member => ?_⟩
        rw [List.length_append]
        exact Nat.lt_add_right _ (once.known index member)
    · cases taken
  | submit =>
    simp only [Agent.step] at taken
    split at taken
    · rename_i job submitting
      split at taken
      · cases taken
        refine once.less (List.Perm.subperm ?_) rfl
        simp only [begun, Agent.jobs, submitting, Option.toList_none, Option.toList_some,
          List.nil_append]
        exact (((List.perm_append_singleton _ _).append_right _).map _).append_left _
      · cases taken
    · cases taken
  | dispatch =>
    simp only [Agent.step] at taken
    split at taken
    · rename_i job rest queue
      cases taken
      refine once.less (List.Perm.subperm ?_) rfl
      simp only [begun, Agent.jobs, queue, List.append_assoc]
      refine ((List.Perm.append_left _ ?_).map _).append_left _
      rw [← List.append_assoc]
      exact List.perm_append_singleton job (rest ++ agent.running)
    · cases taken
  | finish =>
    simp only [Agent.step] at taken
    split at taken
    · rename_i found
      cases taken
      refine once.less (List.Perm.subperm ?_) rfl
      have split := (jobs_perm_of_running found).map Job.index
      exact (List.perm_middle.symm).trans (split.symm.append_left _)
    · cases taken
  | panics =>
    simp only [Agent.step] at taken
    split at taken
    · cases taken
      exact once.less ((((List.eraseIdx_sublist _ _).append_left _).map _).append_left _).subperm rfl
    · cases taken
  | forward =>
    simp only [Agent.step] at taken
    split at taken
    · split at taken
      · cases taken
        exact ⟨once.distinct, once.known⟩
      · cases taken
        exact ⟨once.distinct, once.known⟩
    · cases taken
  | writerEnds =>
    cases taken
    exact ⟨once.distinct, once.known⟩
  | close =>
    cases taken
    exact once.less (((List.nil_sublist _).map _).append_left _).subperm rfl

/-- How often tasks that a node has asked for have been executed. -/
def executions (nodeId : NodeId) (agent : Agent) : Nat :=
  agent.outcomes.countP fun entry => agent.requests[entry.1]?.any fun request => request.sender = nodeId

theorem executions_le (once : Once agent) (nodeId : NodeId) :
    agent.executions nodeId ≤ agent.requests.countP fun request => request.sender = nodeId := by
  have numbered : (List.range agent.requests.length).map (fun index => agent.requests[index]?) =
      agent.requests.map some := by
    apply List.ext_getElem?
    intro index
    rcases Nat.lt_or_ge index agent.requests.length with inside | beyond
    · simp [inside]
    · simp [beyond]
  have distinct : (agent.outcomes.map Prod.fst).Nodup := (List.nodup_append.mp once.distinct).1
  have known : agent.outcomes.map Prod.fst ⊆ List.range agent.requests.length :=
    fun index member => List.mem_range.mpr (once.known index (List.mem_append_left _ member))
  calc agent.executions nodeId
      = (agent.outcomes.map Prod.fst).countP fun index => agent.requests[index]?.any fun request =>
      request.sender = nodeId := by
        rw [List.countP_map]
        rfl
    _ ≤ (List.range agent.requests.length).countP fun index =>
        agent.requests[index]?.any fun request => request.sender = nodeId :=
        (List.subperm_of_subset distinct known).countP_le _
    _ = (agent.requests.map some).countP fun taken => taken.any fun request =>
        request.sender = nodeId := by
        rw [← numbered, List.countP_map]
        rfl
    _ = agent.requests.countP fun request => request.sender = nodeId := by
        rw [List.countP_map]
        rfl

end Agent

end DistributedOs.Tasks
