import AliceBot.Library.Table
import AliceBot.TaskRunRows
import Mathlib.Data.List.Sort

/-!
# Governed tasks

Tasks, their steps, approvals, executions and runs, and the calls of
`approvals.py`, `tasks.py`, `proxy_execution.py` and `task_runs.py` that write
them. A governed request makes a task with its first step and, if it needs one,
an approval; resolving the approval and executing the request each write the
approval or the execution and then synchronise the task (found by its latest
approval) and the step (found by the approval's own link) with it. The two
synchronisers do not look at each other.

A call is a function on the store that returns a store or raises; a raise says
what had been written until then. Row-level security leaves one user's rows, and
traces and events are left out.
-/

namespace AliceBot

open PyLib

/-! ### Rows -/

inductive TaskStepStatus where
  | created
  | approved
  | executed
  | blocked
  | denied
deriving DecidableEq, Repr

namespace TaskStepStatus

def text : TaskStepStatus → String
  | created => "created"
  | approved => "approved"
  | executed => "executed"
  | blocked => "blocked"
  | denied => "denied"

/-- `TASK_STEP_APPENDABLE_STATUSES`. -/
def appendable : TaskStepStatus → Bool
  | executed | blocked | denied => true
  | _ => false

/-- `TASK_STEP_INITIAL_STATUSES`. -/
def initial : TaskStepStatus → Bool
  | created | approved | denied => true
  | _ => false

/-- `TASK_STEP_STATUS_GRAPH`. -/
def graph : TaskStepStatus → List TaskStepStatus
  | created => [approved, denied]
  | approved => [executed, blocked]
  | executed => []
  | blocked => []
  | denied => []

/-- `task_status_for_step_status`. -/
def taskStatus : TaskStepStatus → TaskStatus
  | created => .pendingApproval
  | approved => .approved
  | executed => .executed
  | blocked => .blocked
  | denied => .denied

end TaskStepStatus

inductive RoutingDecision where
  | approvalRequired
  | ready
  | denied
deriving DecidableEq, Repr

/-- `task_status_for_routing_decision`. -/
def RoutingDecision.taskStatus : RoutingDecision → TaskStatus
  | approvalRequired => .pendingApproval
  | ready => .approved
  | denied => .denied

/-- `task_step_status_for_routing_decision`. -/
def RoutingDecision.stepStatus : RoutingDecision → TaskStepStatus
  | approvalRequired => .created
  | ready => .approved
  | denied => .denied

/-- `task_status_for_approval_status`. -/
def ApprovalStatus.taskStatus : ApprovalStatus → TaskStatus
  | pending => .pendingApproval
  | approved => .approved
  | rejected => .denied

/-- `task_step_status_for_approval_status`. -/
def ApprovalStatus.stepStatus : ApprovalStatus → TaskStepStatus
  | pending => .created
  | approved => .approved
  | rejected => .denied

/-- `next_task_status_for_approval`. -/
def nextTaskStatusForApproval (current : TaskStatus) (status : ApprovalStatus) : TaskStatus :=
  match current with
  | .executed | .blocked => current
  | _ => status.taskStatus

/-- `next_task_step_status_for_approval`. -/
def nextTaskStepStatusForApproval (current : TaskStepStatus) (status : ApprovalStatus) :
    TaskStepStatus :=
  match current with
  | .executed | .blocked => current
  | _ => status.stepStatus

/-- `task_status_for_execution_status`. -/
def ExecutionStatus.taskStatus : ExecutionStatus → TaskStatus
  | completed => .executed
  | blocked => .blocked

/-- `task_step_status_for_execution_status`. -/
def ExecutionStatus.stepStatus : ExecutionStatus → TaskStepStatus
  | completed => .executed
  | blocked => .blocked

/-- `TaskStepOutcomeSnapshot`. -/
structure StepOutcome where
  routingDecision : RoutingDecision
  approvalId : Option String := none
  approvalStatus : Option ApprovalStatus := none
  executionId : Option String := none
  executionStatus : Option ExecutionStatus := none
  blockedReason : Option String := none

/-- A row of `task_steps`. -/
structure TaskStepRow where
  id : String
  taskId : String
  sequenceNo : Nat
  parentStepId : Option String := none
  sourceApprovalId : Option String := none
  sourceExecutionId : Option String := none
  status : TaskStepStatus
  outcome : StepOutcome

/-- A row of `approvals`. -/
structure ApprovalRow where
  id : String
  taskRunId : Option String
  taskStepId : Option String
  status : ApprovalStatus
  toolKey : String
  request : Dict Json

/-- The tables of one user. -/
structure GovernedStore where
  tasks : Table TaskRow.id := default
  steps : Table TaskStepRow.id := default
  approvals : Table ApprovalRow.id := default
  executions : Table ToolExecution.id := default
  runs : Table TaskRunRow.id := default

/-- What the code takes from libraries. -/
structure GovernedEnv where
  /-- `UUID(text)`, written canonically, where it does not raise. -/
  uuid : String → Option String
  /-- `_build_idempotency_key`, a digest of the run, the approval, its tool and
  its request. -/
  idempotencyKey : String → ApprovalRow → String

/-! ### Errors -/

/-- What a call raises. `database` is a statement the database refuses. -/
inductive GovernedError where
  | approvalNotFound (message : String)
  | approvalLinkage (message : String)
  | executionLinkage (message : String)
  | resolutionConflict (message : String)
  | approvalState (message : String)
  | handlerNotFound (message : String)
  | idempotency (message : String)
  | taskNotFound (message : String)
  | stepNotFound (message : String)
  | stepSequence (message : String)
  | stepTransition (message : String)
  | invariant (message : String)
  | run (error : TaskRunError)
  | database
deriving DecidableEq, Repr

/-- A call's result: what it returns, or the error and the store as it was when
the call raised. -/
abbrev GovernedResult (α : Type) := Except (GovernedError × GovernedStore) α

/-- A check that writes nothing, made where the store is `s`. -/
def raisedAt {α : Type} (s : GovernedStore) : Except GovernedError α → GovernedResult α
  | .ok a => .ok a
  | .error e => .error (e, s)

/-! ### Statements -/

/-- `tasks_pending_approval_link_check` and `tasks_execution_link_check`. -/
def TaskRow.checks (row : TaskRow) : Bool :=
  (row.status != .pendingApproval || row.latestApprovalId.isSome)
    && ((row.status == .executed || row.status == .blocked) == row.latestExecutionId.isSome)

/-- The unique indexes on the latest approval and the latest execution. -/
def TaskRow.collides (row other : TaskRow) : Bool :=
  other.id != row.id &&
    (row.latestApprovalId.isSome && row.latestApprovalId == other.latestApprovalId
      || row.latestExecutionId.isSome && row.latestExecutionId == other.latestExecutionId)

/-- What the updates of `tasks` set. -/
def rewriteTask (status : TaskStatus) (latestApprovalId latestExecutionId : Option String) :
    Rewrite TaskRow.id where
  apply row := { row with
    status := status
    latestApprovalId := latestApprovalId
    latestExecutionId := latestExecutionId }

/-- An `UPDATE` of one task. -/
def updateTask (s : GovernedStore) (task : TaskRow) (status : TaskStatus)
    (latestApprovalId latestExecutionId : Option String) : Except GovernedError GovernedStore :=
  let row := (rewriteTask status latestApprovalId latestExecutionId).apply task
  if row.checks && !s.tasks.rows.any row.collides then
    .ok { s with
      tasks := s.tasks.rewrite task.id (rewriteTask status latestApprovalId latestExecutionId) }
  else .error .database

/-- What the updates of `task_steps` set. -/
def rewriteStep (status : TaskStepStatus) (outcome : StepOutcome) : Rewrite TaskStepRow.id where
  apply row := { row with status := status, outcome := outcome }

/-- An `UPDATE` of one step. -/
def updateStep (s : GovernedStore) (stepId : String) (status : TaskStepStatus)
    (outcome : StepOutcome) : GovernedStore :=
  { s with steps := s.steps.rewrite stepId (rewriteStep status outcome) }

/-- `UPDATE_TASK_RUN_SQL`, under the checks of the table. -/
def updateRun (s : GovernedStore) (row : TaskRunRow) (u : TaskRunUpdate) :
    Except GovernedError GovernedStore :=
  if (u.apply row).checks then
    .ok { s with runs := s.runs.rewrite row.id ⟨fun r => u.apply r, fun _ => rfl⟩ }
  else .error .database

/-- `UPDATE_APPROVAL_TASK_RUN_SQL`. -/
def linkApproval (s : GovernedStore) (approvalId taskRunId : String) : GovernedStore :=
  { s with
    approvals := s.approvals.rewrite approvalId
      { apply := fun row => { row with taskRunId := some taskRunId } } }

/-- `UPDATE_APPROVAL_RESOLUTION_SQL`, on a row that is pending. -/
def resolveRow (s : GovernedStore) (approvalId : String) (status : ApprovalStatus) :
    GovernedStore :=
  { s with
    approvals := s.approvals.rewrite approvalId
      { apply := fun row => { row with status := status } } }

/-- A row added under a new key. -/
def insertInto {ρ : Type} {key : ρ → String} (t : Table key) (row : ρ) :
    Except GovernedError (Table key) :=
  match t.insert? row with
  | some t => .ok t
  | none => .error .database

/-- `get_task_by_approval_optional`. -/
def GovernedStore.taskByApproval (s : GovernedStore) (approvalId : String) : Option TaskRow :=
  s.tasks.rows.find? fun row => row.latestApprovalId == some approvalId

/-- `list_task_steps_for_task`. -/
def GovernedStore.stepsOf (s : GovernedStore) (taskId : String) : List TaskStepRow :=
  (s.steps.rows.filter fun row => row.taskId == taskId).insertionSort
    fun a b => a.sequenceNo ≤ b.sequenceNo

/-- `existing_items[-1]`. -/
def GovernedStore.latestStep (s : GovernedStore) (taskId : String) : Option TaskStepRow :=
  (s.stepsOf taskId).getLast?

def GovernedStore.approvalStatus (s : GovernedStore) (approvalId : String) :
    Option ApprovalStatus :=
  (s.approvals.get? approvalId).map (·.status)

/-! ### Linkage -/

/-- `validate_linked_task_step_for_approval`. The step an approval belongs to, if
approval, task and step agree about each other. -/
def validateLinkedTaskStepForApproval (s : GovernedStore) (approvalId : String)
    (taskStepId : Option String) : Except GovernedError (TaskRow × TaskStepRow) :=
  match taskStepId with
  | none => .error (.approvalLinkage s!"approval {approvalId} is missing linked task_step_id")
  | some stepId =>
    match s.taskByApproval approvalId with
    | none =>
      .error (.approvalLinkage s!"approval {approvalId} is not linked to a visible task")
    | some task =>
      match s.steps.get? stepId with
      | none =>
        .error (.approvalLinkage
          s!"approval {approvalId} references linked task step {stepId} that was not found")
      | some step =>
        -- the step must be one of the task, and name the approval itself
        if step.taskId ≠ task.id then
          .error (.approvalLinkage
            s!"approval {approvalId} links task step {stepId} outside task {task.id}")
        else if step.outcome.approvalId ≠ some approvalId then
          .error (.approvalLinkage
            s!"approval {approvalId} is inconsistent with linked task step {stepId}")
        else .ok (task, step)

/-- `validate_linked_task_step_for_execution`. The step an execution belongs to, if both
agree about the task and the approval. -/
def validateLinkedTaskStepForExecution (s : GovernedStore) (taskId : String) (e : ToolExecution) :
    Except GovernedError TaskStepRow :=
  match s.steps.get? e.taskStepId with
  | none =>
    .error (.executionLinkage
      s!"tool execution {e.id} references linked task step {e.taskStepId} that was not found")
  | some step =>
    if step.taskId ≠ taskId then
      .error (.executionLinkage
        s!"tool execution {e.id} links task step {e.taskStepId} outside task {taskId}")
    else if step.outcome.approvalId ≠ some e.approvalId then
      .error (.executionLinkage
        s!"tool execution {e.id} is inconsistent with linked task step {e.taskStepId}")
    else .ok step

/-! ### Synchronisers -/

/-- `sync_task_with_task_step_status`. The task takes the status of its latest step
over, with the links to approval and execution. -/
def syncTaskWithTaskStepStatus (s : GovernedStore) (taskId : String) (status : TaskStepStatus)
    (linkedApprovalId linkedExecutionId : Option String) : Except GovernedError GovernedStore :=
  match s.tasks.get? taskId with
  | none =>
    .error (.invariant s!"task {taskId} disappeared before task-step lifecycle synchronization")
  | some task =>
    let latestExecutionId :=
      if status.taskStatus = .executed ∨ status.taskStatus = .blocked then
        linkedExecutionId <|> task.latestExecutionId
      else none
    updateTask s task status.taskStatus linkedApprovalId latestExecutionId

/-- `sync_task_with_approval`. The task takes over how its approval was resolved. -/
def syncTaskWithApproval (s : GovernedStore) (approvalId : String) (status : ApprovalStatus) :
    Except GovernedError GovernedStore :=
  match s.taskByApproval approvalId with
  | none =>
    .error (.invariant
      s!"task for approval {approvalId} disappeared before lifecycle synchronization")
  | some task =>
    updateTask s task (nextTaskStatusForApproval task.status status) task.latestApprovalId
      task.latestExecutionId

/-- `sync_task_step_with_approval`. -/
def syncTaskStepWithApproval (s : GovernedStore) (approvalId : String)
    (taskStepId : Option String) (status : ApprovalStatus) :
    Except GovernedError GovernedStore := do
  let (_, step) ← validateLinkedTaskStepForApproval s approvalId taskStepId
  .ok (updateStep s step.id (nextTaskStepStatusForApproval step.status status)
    { step.outcome with approvalId := some approvalId, approvalStatus := some status })

/-- `sync_task_with_execution`, with the task it has found. -/
def syncTaskWithExecution (s : GovernedStore) (approvalId : String) (e : ToolExecution) :
    Except GovernedError (TaskRow × GovernedStore) :=
  match s.taskByApproval approvalId with
  | none =>
    .error (.invariant
      s!"task for approval {approvalId} disappeared before execution synchronization")
  | some task => do
    let s ← updateTask s task e.status.taskStatus task.latestApprovalId (some e.id)
    .ok (task, s)

/-- `sync_task_step_with_execution`. The step takes over how its execution ended. -/
def syncTaskStepWithExecution (s : GovernedStore) (taskId : String) (e : ToolExecution) :
    Except GovernedError GovernedStore := do
  let step ← validateLinkedTaskStepForExecution s taskId e
  .ok (updateStep s step.id e.status.stepStatus
    { step.outcome with
      executionId := some e.id
      executionStatus := some e.status
      blockedReason := e.reason })

/-- `_resume_task_run_after_resolution`, on the approval's run. -/
def resumeRunAfterResolution (s : GovernedStore) (approval : ApprovalRow)
    (status : ApprovalStatus) (now : String) : Except GovernedError GovernedStore :=
  match approval.taskRunId.bind s.runs.get? with
  | none => .ok s
  | some run =>
    match resumeTaskRunAfterResolution approval.id status now run with
    | none => .ok s
    | some u => updateRun s run u

/-- `_sync_task_run_after_execution`, on the linked run. -/
def syncRunAfterExecution (s : GovernedStore) (taskRunId : Option String) (e : ToolExecution)
    (approvalId now : String) : Except GovernedError GovernedStore :=
  match taskRunId.bind s.runs.get? with
  | none => .ok s
  | some run =>
    match syncTaskRunAfterExecution approvalId e now run with
    | none => .ok s
    | some u => updateRun s run u

/-! ### Requests and resolutions -/

/-- The arguments of `submit_approval_request`, with the decision of the routing
and the ids the database draws. -/
structure SubmitRequest where
  decision : RoutingDecision
  taskRunId : Option String := none
  toolKey : String
  request : Dict Json := []
  approvalId : String
  taskId : String
  stepId : String

/-- `approvals_task_run_user_fk`. -/
def GovernedStore.runExists (s : GovernedStore) (taskRunId : Option String) : Bool :=
  taskRunId.all fun id => (s.runs.get? id).isSome

/-- `submit_approval_request`. A request makes a task with its first step, and a pending
approval if the policy asks for one. -/
def submitApprovalRequest (s : GovernedStore) (req : SubmitRequest) :
    Except GovernedError GovernedStore :=
  let needsApproval := req.decision = .approvalRequired
  let approvalId := if needsApproval then some req.approvalId else none
  -- the foreign key of `approvals.task_run_id`
  if needsApproval ∧ s.runExists req.taskRunId = false then .error .database
  else do
    let approvals ←
      if needsApproval then
        insertInto s.approvals
          { id := req.approvalId
            taskRunId := req.taskRunId
            taskStepId := some req.stepId
            status := .pending
            toolKey := req.toolKey
            request := req.request }
      else .ok s.approvals
    -- the task and its first step are created whatever the decision is
    let tasks ← insertInto s.tasks
      { id := req.taskId
        status := req.decision.taskStatus
        latestApprovalId := approvalId
        latestExecutionId := none }
    let steps ← insertInto s.steps
      { id := req.stepId
        taskId := req.taskId
        sequenceNo := 1
        status := req.decision.stepStatus
        outcome :=
          { routingDecision := req.decision
            approvalId := approvalId
            approvalStatus := if needsApproval then some .pending else none } }
    .ok { s with approvals := approvals, tasks := tasks, steps := steps }

/-- The arguments of `_resolve_approval`: approve or reject. -/
structure ResolveRequest where
  approvalId : String
  approves : Bool
  now : String

/-- The status the request asks for. -/
def ResolveRequest.target (req : ResolveRequest) : ApprovalStatus :=
  if req.approves then .approved else .rejected

/-- `_resolution_error`. -/
def resolutionError (req : ResolveRequest) (current : ApprovalStatus) : GovernedError :=
  if current = req.target then
    .resolutionConflict s!"approval {req.approvalId} was already {current.text}"
  else
    .resolutionConflict
      s!"approval {req.approvalId} was already {current.text} and cannot be {req.target.text}"

/-- `_resolve_approval`. A resolution that comes too late synchronises all the
same, and raises at the end. -/
def resolveApproval (s : GovernedStore) (req : ResolveRequest) : GovernedResult GovernedStore :=
  match s.approvals.get? req.approvalId with
  | none => .error (.approvalNotFound s!"approval {req.approvalId} was not found", s)
  | some approval => do
    let _ ← raisedAt s (validateLinkedTaskStepForApproval s req.approvalId approval.taskStepId)
    let resolves := approval.status = .pending
    let status := if resolves then req.target else approval.status
    let s := if resolves then resolveRow s req.approvalId status else s
    let s ← raisedAt s (syncTaskWithApproval s req.approvalId status)
    let s ← raisedAt s (syncTaskStepWithApproval s req.approvalId approval.taskStepId status)
    let s ← raisedAt s (resumeRunAfterResolution s approval status req.now)
    if resolves then .ok s else .error (resolutionError req status, s)

/-! ### Execution -/

/-- `ProxyHandlerSpec`: the handler's key, and whether it can have side
effects. -/
structure ProxyHandlerSpec where
  key : String
  sideEffectCapable : Bool

/-- `REGISTERED_PROXY_HANDLERS`. -/
def registeredProxyHandler (toolKey : String) : Option ProxyHandlerSpec :=
  if toolKey = "proxy.echo" then some ⟨"proxy.echo", false⟩
  else if toolKey = "proxy.thread_audit" then some ⟨"proxy.thread_audit", false⟩
  else if toolKey = "proxy.calendar.draft_event" then some ⟨"proxy.calendar.draft_event", true⟩
  else none

/-- What `evaluate_execution_budget` says of a request it blocks. -/
structure BlockedResult where
  reason : Option String
  budgetReason : Option String

/-- The arguments of `execute_approved_proxy_request`, with the verdict of the
budgets and what the database draws. -/
structure ExecuteRequest where
  approvalId : String
  taskRunId : Option String := none
  blocked : Option BlockedResult := none
  executionId : String
  executedAt : String
  now : String

/-- `_resolve_task_run_linkage`. The run that an execution is counted for. A run of
another task is refused, and so is a second run for one approval. -/
def resolveTaskRunLinkage (s : GovernedStore) (approval : ApprovalRow) (step : TaskStepRow)
    (requested : Option String) : Except GovernedError (Option String × GovernedStore) :=
  -- the run of the request comes before that of the approval
  match requested <|> approval.taskRunId with
  | none => .ok (none, s)
  | some linked =>
    match s.runs.get? linked with
    | none =>
      .error (.approvalState
        s!"approval {approval.id} links task run {linked} that was not found")
    | some run =>
      if run.taskId ≠ step.taskId then
        .error (.approvalState
          s!"approval {approval.id} links task run {linked} outside task {step.taskId}")
      else
        match approval.taskRunId with
        -- an approval without a run is linked to the one requested
        | none => .ok (some linked, linkApproval s approval.id linked)
        | some own =>
          if own = linked then .ok (some linked, s)
          else .error (.approvalState
            s!"approval {approval.id} is already linked to task run {own}")

/-- The idempotency key of an execution that can have side effects. -/
def executionKey (env : GovernedEnv) (approval : ApprovalRow) (linked : Option String) :
    Except GovernedError (Option String) :=
  match registeredProxyHandler approval.toolKey with
  | some spec =>
    if spec.sideEffectCapable then
      match linked with
      | none =>
        .error (.idempotency
          s!"tool '{approval.toolKey}' requires a linked task run for idempotent execution")
      | some run => .ok (some (env.idempotencyKey run approval))
    else .ok none
  | none => .ok none

/-- `get_tool_execution_by_idempotency_optional`. -/
def GovernedStore.replayed (s : GovernedStore) (linked : Option String) (approvalId : String)
    (key : Option String) : Option ToolExecution :=
  if linked.isSome ∧ key.isSome then
    s.executions.rows.find? fun e =>
      e.taskRunId == linked && e.approvalId == approvalId && e.idempotencyKey == key
  else none

/-- `_persist_tool_execution` and the synchronisers that follow it. -/
def recordExecution (s : GovernedStore) (e : ToolExecution) (now : String) :
    GovernedResult GovernedStore := do
  let executions ← raisedAt s (insertInto s.executions e)
  let s := { s with executions := executions }
  let (task, s') ← raisedAt s (syncTaskWithExecution s e.approvalId e)
  let s'' ← raisedAt s' (syncTaskStepWithExecution s' task.id e)
  raisedAt s'' (syncRunAfterExecution s'' e.taskRunId e e.approvalId now)

/-- The execution a request persists. -/
def ExecuteRequest.execution (req : ExecuteRequest) (linked : Option String) (stepId : String)
    (key : Option String) (status : ExecutionStatus) (result : BlockedResult) : ToolExecution where
  id := req.executionId
  approvalId := req.approvalId
  taskRunId := linked
  taskStepId := stepId
  status := status
  idempotencyKey := key
  reason := result.reason
  budgetReason := result.budgetReason
  executedAt := req.executedAt

/-- What an execution that is not replayed ends in: a budget blocks it, or its
handler completes. -/
def ExecuteRequest.verdict (req : ExecuteRequest) : ExecutionStatus :=
  if req.blocked.isSome then .blocked else .completed

/-- `execute_approved_proxy_request`. Every registered handler completes. -/
def executeApprovedProxyRequest (env : GovernedEnv) (s : GovernedStore) (req : ExecuteRequest) :
    GovernedResult GovernedStore :=
  match s.approvals.get? req.approvalId with
  | none => .error (.approvalNotFound s!"approval {req.approvalId} was not found", s)
  | some approval => do
    let (_, step) ← raisedAt s
      (validateLinkedTaskStepForApproval s req.approvalId approval.taskStepId)
    let (linked, s) ← raisedAt s (resolveTaskRunLinkage s approval step req.taskRunId)
    let key ← raisedAt s (executionKey env approval linked)
    -- the linkage is kept also where the status refuses the call
    if approval.status ≠ .approved then
      .error (.approvalState
        s!"approval {approval.id} is {approval.status.text} and cannot be executed", s)
    else
      match s.replayed linked req.approvalId key with
      -- executed before: only the run is brought up to date
      | some e => raisedAt s (syncRunAfterExecution s linked e req.approvalId req.now)
      | none =>
        match req.blocked, registeredProxyHandler approval.toolKey with
        | some result, _ =>
          recordExecution s (req.execution linked step.id key .blocked result) req.now
        | none, some _ =>
          recordExecution s (req.execution linked step.id key .completed ⟨none, none⟩) req.now
        | none, none => do
          -- the execution is recorded as blocked before the error is raised
          let message := s!"tool '{approval.toolKey}' has no registered proxy handler"
          let s ← recordExecution s
            (req.execution linked step.id key .blocked ⟨some message, none⟩) req.now
          .error (.handlerNotFound message, s)

/-! ### Steps -/

/-- `_validated_optional_approval_id`. An id that is given must be known to the task or
to one of its steps; a missing one is filled in from the task. -/
def validatedOptionalApprovalId (s : GovernedStore) (task : TaskRow)
    (approvalId currentApprovalId : Option String) (missing : Option String)
    (error : String → GovernedError) : Except GovernedError (Option String) :=
  match approvalId with
  | none =>
    -- no id was given: the current one of the task is taken if it exists
    match missing, currentApprovalId with
    | some message, none => .error (error message)
    | _, none => .ok none
    | _, some current =>
      if (s.approvals.get? current).isSome then .ok (some current)
      else .error (error s!"approval {current} was not found")
  | some id =>
    -- an id that was given must be known to the task or to one of its steps
    if currentApprovalId = some id
        ∨ (s.stepsOf task.id).any fun step => step.outcome.approvalId == some id then
      if (s.approvals.get? id).isSome then .ok (some id)
      else .error (error s!"approval {id} was not found")
    else .error (error s!"approval {id} does not belong to task {task.id}")

/-- `_validated_optional_execution_id`. As for approvals: an id that is given must be
known to the task, and a missing one is filled in. -/
def validatedOptionalExecutionId (s : GovernedStore) (task : TaskRow)
    (executionId currentExecutionId : Option String) (missing : Option String)
    (error : String → GovernedError) : Except GovernedError (Option String) :=
  match executionId with
  | none =>
    match missing, currentExecutionId with
    | some message, none => .error (error message)
    | _, none => .ok none
    | _, some current =>
      if (s.executions.get? current).isSome then .ok (some current)
      else .error (error s!"tool execution {current} was not found")
  | some id =>
    if currentExecutionId = some id
        ∨ (s.stepsOf task.id).any fun step => step.outcome.executionId == some id then
      if (s.executions.get? id).isSome then .ok (some id)
      else .error (error s!"tool execution {id} was not found")
    else .error (error s!"tool execution {id} does not belong to task {task.id}")

/-- `TaskStepNextCreateInput`, with the id of the new step. -/
structure NextStepRequest where
  taskId : String
  status : TaskStepStatus
  outcome : StepOutcome
  parentStepId : String
  sourceApprovalId : Option String := none
  sourceExecutionId : Option String := none
  stepId : String

/-- `_validated_continuation_lineage`, for a parent that is the latest step. -/
def validatedContinuationLineage (parent : TaskStepRow)
    (sourceApprovalId sourceExecutionId : Option String) : Except GovernedError Unit :=
  match sourceApprovalId, sourceExecutionId with
  | some approval, _ =>
    if parent.outcome.approvalId ≠ some approval then
      .error (.stepSequence s!"approval {approval} is not linked from parent step {parent.id}")
    else
      match sourceExecutionId with
      | some execution =>
        if parent.outcome.executionId ≠ some execution then
          .error (.stepSequence
            s!"tool execution {execution} is not linked from parent step {parent.id}")
        else .ok ()
      | none => .ok ()
  | none, some execution =>
    if parent.outcome.executionId ≠ some execution then
      .error (.stepSequence
        s!"tool execution {execution} is not linked from parent step {parent.id}")
    else .ok ()
  | none, none => .ok ()

/-- `_validated_continuation_parent_step`. The parent must be the latest step; any other
step of the task, or of another one, is refused with its own message. -/
def validatedContinuationParentStep (req : NextStepRequest) (latest : TaskStepRow)
    (items : List TaskStepRow) : Except GovernedError Unit :=
  if items.any fun item => item.id == req.parentStepId then
    if req.parentStepId = latest.id then .ok ()
    else .error (.stepSequence
      (s!"task {req.taskId} continuation must reference latest step {latest.id}; "
        ++ s!"received {req.parentStepId}"))
  else .error (.stepSequence
    s!"task step {req.parentStepId} does not belong to task {req.taskId}")

/-- `create_next_task_step_record`. A step is appended behind the latest one, which must
have ended, and what it continues must be linked from its parent. -/
def createNextTaskStepRecord (s : GovernedStore) (req : NextStepRequest) :
    Except GovernedError GovernedStore :=
  match s.tasks.get? req.taskId with
  | none => .error (.taskNotFound s!"task {req.taskId} was not found")
  | some task =>
    match s.latestStep req.taskId with
    | none =>
      .error (.stepSequence
        s!"task {req.taskId} has no existing steps and cannot append a next step")
    | some latest =>
      if latest.status.appendable = false then
        .error (.stepSequence
          (s!"task {req.taskId} latest step {latest.id} is {latest.status.text} and "
            ++ "cannot append a next step"))
      else if req.status.initial = false then
        .error (.stepSequence
          (s!"new task step for task {req.taskId} must start in one of approved, created, denied; "
            ++ s!"received {req.status.text}"))
      else do
        -- the parent first, then the ids it is continued from, then those of the outcome
        validatedContinuationParentStep req latest (s.stepsOf req.taskId)
        let sourceApprovalId ← validatedOptionalApprovalId s task req.sourceApprovalId none none
          .stepSequence
        let sourceExecutionId ← validatedOptionalExecutionId s task req.sourceExecutionId none none
          .stepSequence
        validatedContinuationLineage latest sourceApprovalId sourceExecutionId
        let linkedApprovalId ← validatedOptionalApprovalId s task req.outcome.approvalId none none
          .stepSequence
        let linkedExecutionId ← validatedOptionalExecutionId s task req.outcome.executionId none
          none .stepSequence
        let steps ← insertInto s.steps
          { id := req.stepId
            taskId := req.taskId
            sequenceNo := latest.sequenceNo + 1
            parentStepId := some req.parentStepId
            sourceApprovalId := sourceApprovalId
            sourceExecutionId := sourceExecutionId
            status := req.status
            outcome := req.outcome }
        -- a step that is only created leaves the task the approval it was continued from
        syncTaskWithTaskStepStatus { s with steps := steps } req.taskId req.status
          (if req.status = .created ∧ linkedApprovalId = none then sourceApprovalId
            else linkedApprovalId)
          linkedExecutionId

/-- `TaskStepTransitionInput`. -/
structure StepTransitionRequest where
  taskStepId : String
  status : TaskStepStatus
  outcome : StepOutcome

/-- The statuses a step may go to, for the error message. -/
def allowedText (status : TaskStepStatus) : String :=
  match status.graph with
  | [] => "no further statuses"
  | l => ", ".intercalate (l.map (·.text))

/-- `transition_task_step_record`. Only the latest step of a task moves, along the graph
of its status, and the task is brought in line with it. -/
def transitionTaskStepRecord (s : GovernedStore) (req : StepTransitionRequest) :
    Except GovernedError GovernedStore :=
  match s.steps.get? req.taskStepId with
  | none => .error (.stepNotFound s!"task step {req.taskStepId} was not found")
  | some step =>
    match s.tasks.get? step.taskId with
    | none =>
      .error (.invariant s!"task {step.taskId} disappeared before task-step transition")
    | some task =>
      match s.latestStep step.taskId with
      | none =>
        .error (.invariant s!"task {step.taskId} has no visible steps during transition")
      | some latest =>
        if latest.id ≠ step.id then
          .error (.stepTransition
            s!"task step {req.taskStepId} is not the latest step on task {step.taskId}")
        else if req.status ∉ step.status.graph then
          .error (.stepTransition
            (s!"task step {req.taskStepId} is {step.status.text} and cannot transition to "
              ++ s!"{req.status.text}; allowed: {allowedText step.status}"))
        else do
          let linkedApprovalId ← validatedOptionalApprovalId s task req.outcome.approvalId
            task.latestApprovalId
            (if req.status = .created then
              some s!"task {task.id} cannot reflect created without an approval link"
            else none) .stepTransition
          let linkedExecutionId ← validatedOptionalExecutionId s task req.outcome.executionId
            task.latestExecutionId
            (if req.status = .executed ∨ req.status = .blocked then
              some (s!"task {task.id} cannot reflect {req.status.text} without an existing "
                ++ "execution link")
            else none) .stepTransition
          -- the row with the task and the number of the step
          match s.steps.rows.find? fun row =>
              row.taskId == step.taskId && row.sequenceNo == step.sequenceNo with
          | none =>
            .error (.invariant s!"task step {req.taskStepId} disappeared during transition")
          | some row =>
            syncTaskWithTaskStepStatus (updateStep s row.id req.status req.outcome) step.taskId
              req.status linkedApprovalId linkedExecutionId

/-! ### Runs -/

/-- `create_task_run_record`, with the id the database draws. -/
def createTaskRunRecord (s : GovernedStore) (request : TaskRunCreateInput) (id now : String) :
    Except GovernedError GovernedStore :=
  match s.tasks.get? request.taskId with
  | none => .error (.run (.taskNotFound s!"task {request.taskId} was not found"))
  | some _ =>
    match createTaskRunRow request id now with
    | .error e => .error (.run e)
    | .ok row => do
      let runs ← insertInto s.runs row
      .ok { s with runs := runs }

/-- What a call reads beside the run. `waiting_approval_id` is parsed before it
is looked up, `latest_approval_id` is an id. -/
def runReads (env : GovernedEnv) (s : GovernedStore) (call : TaskRunCall) (row : TaskRunRow) :
    TaskRunReads where
  task := s.tasks.get? row.taskId
  approval id :=
    match call with
    | .resume => (env.uuid id).bind s.approvalStatus
    | _ => s.approvalStatus id

/-- The approval a tick links to the run it ticks. -/
def linkedByTick (s : GovernedStore) (call : TaskRunCall) (row : TaskRunRow) : Option String :=
  match call with
  | .tick => (s.tasks.get? row.taskId).bind fun task => task.pendingApproval? s.approvalStatus
  | _ => none

/-- A call of `task_runs.py` on a run: `tick`, `pause`, `resume`, `cancel` or
`mark_task_run_failed`. -/
def serveTaskRun (env : GovernedEnv) (s : GovernedStore) (runId : String) (call : TaskRunCall)
    (now : String) : Except GovernedError GovernedStore :=
  match s.runs.get? runId with
  | none =>
    match call with
    | .markFailed .. => .ok s
    | _ => .error (.run (.notFound s!"task run {runId} was not found"))
  | some row =>
    match call.decide (runReads env s call row) now row with
    | .error e => .error (.run e)
    | .ok none => .ok s
    | .ok (some u) =>
      match linkedByTick s call row with
      | none => updateRun s row u
      | some approvalId => updateRun (linkApproval s approvalId row.id) row u

/-- The worker's acquisition of the run the query has picked. -/
def acquireRun (s : GovernedStore) (runId : String) : GovernedStore :=
  match s.runs.get? runId with
  | none => s
  | some row =>
    if row.status.runnable then
      { s with runs := s.runs.rewrite runId ⟨acquireTaskRun, fun _ => rfl⟩ }
    else s

/-! ### Calls -/

inductive GovernedCall where
  | submit (req : SubmitRequest)
  | resolve (req : ResolveRequest)
  | execute (req : ExecuteRequest)
  | createNext (req : NextStepRequest)
  | transition (req : StepTransitionRequest)
  | createRun (request : TaskRunCreateInput) (id now : String)
  | acquire (runId : String)
  | tick (runId now : String)
  | pause (runId now : String)
  | resume (runId now : String)
  | cancel (runId now : String)
  | markFailed (runId : String) (stopReason : TaskRunStopReason)
      (failureClass : TaskRunFailureClass) (source now : String)

def GovernedCall.perform (env : GovernedEnv) (s : GovernedStore) :
    GovernedCall → GovernedResult GovernedStore
  | submit req => raisedAt s (submitApprovalRequest s req)
  | resolve req => resolveApproval s req
  | execute req => executeApprovedProxyRequest env s req
  | createNext req => raisedAt s (createNextTaskStepRecord s req)
  | transition req => raisedAt s (transitionTaskStepRecord s req)
  | createRun request id now => raisedAt s (createTaskRunRecord s request id now)
  | acquire runId => .ok (acquireRun s runId)
  | tick runId now => raisedAt s (serveTaskRun env s runId .tick now)
  | pause runId now => raisedAt s (serveTaskRun env s runId .pause now)
  | resume runId now => raisedAt s (serveTaskRun env s runId .resume now)
  | cancel runId now => raisedAt s (serveTaskRun env s runId .cancel now)
  | markFailed runId stopReason failureClass source now =>
    raisedAt s (serveTaskRun env s runId (.markFailed stopReason failureClass source) now)

/-- A call, rolled back when it raises. -/
def GovernedStep (env : GovernedEnv) (s : GovernedStore) (call : GovernedCall)
    (t : GovernedStore) : Prop :=
  match call.perform env s with
  | .ok u => t = u
  | .error _ => t = s

/-- What a call leaves behind. -/
def GovernedCall.serve (env : GovernedEnv) (s : GovernedStore) (call : GovernedCall) :
    GovernedStore :=
  match call.perform env s with
  | .ok t => t
  | .error _ => s

theorem governedStep_serve (env : GovernedEnv) (s : GovernedStore) (call : GovernedCall) :
    GovernedStep env s call (call.serve env s) := by
  unfold GovernedStep GovernedCall.serve
  cases call.perform env s <;> rfl

/-! ### What a call that returned has done -/

section Returned

variable {s t : GovernedStore}

theorem raisedAt_ok {α : Type} {x : Except GovernedError α} {a : α} :
    raisedAt s x = .ok a ↔ x = .ok a := by
  cases x <;> simp [raisedAt]

theorem updateTask_ok {task : TaskRow} {status : TaskStatus}
    {approvalId executionId : Option String}
    (h : updateTask s task status approvalId executionId = .ok t) :
    t = { s with
      tasks := s.tasks.rewrite task.id (rewriteTask status approvalId executionId) } := by
  simp only [updateTask] at h
  split at h
  · cases h
    rfl
  · cases h

theorem updateRun_ok {row : TaskRunRow} {u : TaskRunUpdate} (h : updateRun s row u = .ok t) :
    (u.apply row).checks = true ∧
      t = { s with runs := s.runs.rewrite row.id ⟨fun r => u.apply r, fun _ => rfl⟩ } := by
  simp only [updateRun] at h
  split at h
  · next hchecks =>
    cases h
    exact ⟨hchecks, rfl⟩
  · cases h

theorem insertInto_ok {ρ : Type} {key : ρ → String} {table u : Table key} {row : ρ}
    (h : insertInto table row = .ok u) : table.insert? row = some u := by
  unfold insertInto at h
  split at h
  · next hinsert =>
    cases h
    exact hinsert
  · cases h

theorem get?_of_taskByApproval {approvalId : String} {task : TaskRow}
    (h : s.taskByApproval approvalId = some task) : s.tasks.get? task.id = some task :=
  Table.get?_of_mem (List.mem_of_find?_eq_some h)

/-- What the linkage of an approval means. -/
theorem validateLinkedTaskStepForApproval_ok {approvalId : String} {taskStepId : Option String}
    {task : TaskRow} {step : TaskStepRow} :
    validateLinkedTaskStepForApproval s approvalId taskStepId = .ok (task, step) ↔
      s.taskByApproval approvalId = some task ∧ taskStepId = some step.id ∧
        s.steps.get? step.id = some step ∧ step.taskId = task.id ∧
        step.outcome.approvalId = some approvalId := by
  constructor
  · intro h
    unfold validateLinkedTaskStepForApproval at h
    -- the four checks of the linkage, each of which raises
    split at h
    · cases h
    · split at h
      · cases h
      · next htask =>
        split at h
        · cases h
        · next hstep =>
          split at h
          · cases h
          · next hof =>
            split at h
            · cases h
            · next hlinked =>
              cases h
              have hid := Table.key_of_get? hstep
              subst hid
              exact ⟨htask, rfl, hstep, not_not.mp hof, not_not.mp hlinked⟩
  · rintro ⟨htask, rfl, hstep, hof, hlinked⟩
    simp [validateLinkedTaskStepForApproval, htask, hstep, hof, hlinked]

theorem validateLinkedTaskStepForExecution_ok {taskId : String} {e : ToolExecution}
    {step : TaskStepRow} (h : validateLinkedTaskStepForExecution s taskId e = .ok step) :
    s.steps.get? e.taskStepId = some step := by
  unfold validateLinkedTaskStepForExecution at h
  split at h
  · cases h
  · next hstep =>
    split at h
    · cases h
    · split at h
      · cases h
      · cases h
        exact hstep

theorem syncTaskWithApproval_ok {approvalId : String} {status : ApprovalStatus}
    (h : syncTaskWithApproval s approvalId status = .ok t) :
    ∃ task, s.taskByApproval approvalId = some task ∧
      t = { s with
        tasks := s.tasks.rewrite task.id
          (rewriteTask (nextTaskStatusForApproval task.status status) task.latestApprovalId
            task.latestExecutionId) } := by
  unfold syncTaskWithApproval at h
  split at h
  · cases h
  · next task htask => exact ⟨task, htask, updateTask_ok h⟩

theorem syncTaskStepWithApproval_ok {approvalId : String} {taskStepId : Option String}
    {status : ApprovalStatus}
    (h : syncTaskStepWithApproval s approvalId taskStepId status = .ok t) :
    ∃ step outcome, taskStepId = some step.id ∧ s.steps.get? step.id = some step ∧
      t = updateStep s step.id (nextTaskStepStatusForApproval step.status status) outcome := by
  obtain ⟨⟨task, step⟩, hvalid, h⟩ := except_bind_ok.mp h
  obtain ⟨-, hid, hstep, -, -⟩ := validateLinkedTaskStepForApproval_ok.mp hvalid
  cases h
  exact ⟨step, _, hid, hstep, rfl⟩

theorem syncTaskWithExecution_ok {approvalId : String} {e : ToolExecution} {task : TaskRow}
    (h : syncTaskWithExecution s approvalId e = .ok (task, t)) :
    s.taskByApproval approvalId = some task ∧
      t = { s with
        tasks := s.tasks.rewrite task.id
          (rewriteTask e.status.taskStatus task.latestApprovalId (some e.id)) } := by
  unfold syncTaskWithExecution at h
  split at h
  · cases h
  · next task' htask =>
    obtain ⟨t', ht', h⟩ := except_bind_ok.mp h
    cases h
    exact ⟨htask, updateTask_ok ht'⟩

theorem syncTaskStepWithExecution_ok {taskId : String} {e : ToolExecution}
    (h : syncTaskStepWithExecution s taskId e = .ok t) :
    ∃ step outcome, s.steps.get? e.taskStepId = some step ∧
      t = updateStep s step.id e.status.stepStatus outcome := by
  obtain ⟨step, hvalid, h⟩ := except_bind_ok.mp h
  cases h
  exact ⟨step, _, validateLinkedTaskStepForExecution_ok hvalid, rfl⟩

theorem syncTaskWithTaskStepStatus_ok {taskId : String} {status : TaskStepStatus}
    {approvalId executionId : Option String}
    (h : syncTaskWithTaskStepStatus s taskId status approvalId executionId = .ok t) :
    ∃ task approvalId executionId, s.tasks.get? taskId = some task ∧
      t = { s with
        tasks := s.tasks.rewrite task.id
          (rewriteTask status.taskStatus approvalId executionId) } := by
  unfold syncTaskWithTaskStepStatus at h
  split at h
  · cases h
  · next task htask => exact ⟨task, _, _, htask, updateTask_ok h⟩

/-- The run is written, or nothing is. -/
theorem resumeRunAfterResolution_ok {approval : ApprovalRow} {status : ApprovalStatus}
    {now : String} (h : resumeRunAfterResolution s approval status now = .ok t) :
    t = { s with runs := t.runs } := by
  unfold resumeRunAfterResolution at h
  split at h
  · cases h
    rfl
  · split at h
    · cases h
      rfl
    · rw [(updateRun_ok h).2]

theorem syncRunAfterExecution_ok {taskRunId : Option String} {e : ToolExecution}
    {approvalId now : String} (h : syncRunAfterExecution s taskRunId e approvalId now = .ok t) :
    t = { s with runs := t.runs } := by
  unfold syncRunAfterExecution at h
  split at h
  · cases h
    rfl
  · split at h
    · cases h
      rfl
    · rw [(updateRun_ok h).2]

/-- A resolution that returns has found the approval pending. -/
theorem resolveApproval_ok {req : ResolveRequest} (h : resolveApproval s req = .ok t) :
    ∃ approval linked s₁ s₂, s.approvals.get? req.approvalId = some approval ∧
      approval.status = .pending ∧
      validateLinkedTaskStepForApproval s req.approvalId approval.taskStepId = .ok linked ∧
      syncTaskWithApproval (resolveRow s req.approvalId req.target) req.approvalId req.target =
        .ok s₁ ∧
      syncTaskStepWithApproval s₁ req.approvalId approval.taskStepId req.target = .ok s₂ ∧
      resumeRunAfterResolution s₂ approval req.target req.now = .ok t := by
  unfold resolveApproval at h
  split at h
  · cases h
  · next approval happroval =>
    obtain ⟨linked, hvalid, h⟩ := except_bind_ok.mp h
    obtain ⟨s₁, htask, h⟩ := except_bind_ok.mp h
    obtain ⟨s₂, hstep, h⟩ := except_bind_ok.mp h
    obtain ⟨s₃, hrun, h⟩ := except_bind_ok.mp h
    split at h
    · next hpending =>
      cases h
      rw [raisedAt_ok] at hvalid htask hstep hrun
      simp only [hpending, if_true] at htask hstep hrun
      exact ⟨approval, linked, s₁, s₂, happroval, hpending, hvalid, htask, hstep, hrun⟩
    · cases h

/-- The run linked is that of the request, or else of the approval; the only write is
the link of an approval that had none. -/
theorem resolveTaskRunLinkage_ok {approval : ApprovalRow} {step : TaskStepRow}
    {requested linked : Option String}
    (h : resolveTaskRunLinkage s approval step requested = .ok (linked, t)) :
    linked = (requested <|> approval.taskRunId) ∧
      (t = s ∨ ∃ run, approval.taskRunId = none ∧ linked = some run ∧
        t = linkApproval s approval.id run) := by
  unfold resolveTaskRunLinkage at h
  split at h
  · next hnone =>
    cases h
    exact ⟨hnone.symm, Or.inl rfl⟩
  · next run hrun =>
    split at h
    · cases h
    · split at h
      · cases h
      · split at h
        · next hown =>
          -- the approval has no run yet, so it is linked to the one requested
          cases h
          exact ⟨hrun.symm, Or.inr ⟨run, hown, rfl, rfl⟩⟩
        · split at h
          · cases h
            exact ⟨hrun.symm, Or.inl rfl⟩
          · cases h

theorem recordExecution_ok {e : ToolExecution} {now : String}
    (h : recordExecution s e now = .ok t) :
    ∃ executions task s₁ s₂, insertInto s.executions e = .ok executions ∧
      syncTaskWithExecution { s with executions := executions } e.approvalId e = .ok (task, s₁) ∧
      syncTaskStepWithExecution s₁ task.id e = .ok s₂ ∧
      syncRunAfterExecution s₂ e.taskRunId e e.approvalId now = .ok t := by
  obtain ⟨executions, hinsert, h⟩ := except_bind_ok.mp h
  obtain ⟨⟨task, s₁⟩, htask, h⟩ := except_bind_ok.mp h
  obtain ⟨s₂, hstep, h⟩ := except_bind_ok.mp h
  rw [raisedAt_ok] at hinsert htask hstep h
  exact ⟨executions, task, s₁, s₂, hinsert, htask, hstep, h⟩

/-- An execution that returns replays an earlier one, or records its own. -/
theorem executeApprovedProxyRequest_ok {env : GovernedEnv} {req : ExecuteRequest}
    (h : executeApprovedProxyRequest env s req = .ok t) :
    ∃ approval task step linked s' key, s.approvals.get? req.approvalId = some approval ∧
      approval.status = .approved ∧
      validateLinkedTaskStepForApproval s req.approvalId approval.taskStepId = .ok (task, step) ∧
      resolveTaskRunLinkage s approval step req.taskRunId = .ok (linked, s') ∧
      executionKey env approval linked = .ok key ∧
      ((∃ e, s.replayed linked req.approvalId key = some e ∧
          syncRunAfterExecution s' linked e req.approvalId req.now = .ok t) ∨
        (s.replayed linked req.approvalId key = none ∧
          (req.blocked.isSome ∨ (registeredProxyHandler approval.toolKey).isSome) ∧
          ∃ result, recordExecution s' (req.execution linked step.id key req.verdict result)
            req.now = .ok t)) := by
  unfold executeApprovedProxyRequest at h
  split at h
  · cases h
  · next approval happroval =>
    obtain ⟨⟨task, step⟩, hvalid, h⟩ := except_bind_ok.mp h
    obtain ⟨⟨linked, s'⟩, hlinkage, h⟩ := except_bind_ok.mp h
    obtain ⟨key, hkey, h⟩ := except_bind_ok.mp h
    rw [raisedAt_ok] at hvalid hlinkage hkey
    -- the linkage may create a run, which leaves the executions as they were
    have hreplayed : s'.replayed linked req.approvalId key =
        s.replayed linked req.approvalId key := by
      unfold GovernedStore.replayed
      rcases (resolveTaskRunLinkage_ok hlinkage).2 with rfl | ⟨run, -, -, rfl⟩ <;> rfl
    simp only at h
    split at h
    · cases h
    · next hstatus =>
      refine ⟨approval, task, step, linked, s', key, happroval, not_not.mp hstatus, hvalid,
        hlinkage, hkey, ?_⟩
      rw [← hreplayed]
      split at h
      · next e he =>
        rw [raisedAt_ok] at h
        exact Or.inl ⟨e, he, h⟩
      · next hnone =>
        -- nothing to replay: the verdict of the policy, a handler, or no handler at all
        refine Or.inr ⟨hnone, ?_⟩
        rw [ExecuteRequest.verdict]
        split at h
        · next _ _ result hblocked =>
          rw [hblocked]
          exact ⟨Or.inl rfl, result, h⟩
        · next hblocked hhandler =>
          rw [hblocked, hhandler]
          exact ⟨Or.inr rfl, _, h⟩
        · obtain ⟨u, -, h⟩ := except_bind_ok.mp h
          cases h

/-- A request writes a task and a step, and a pending approval if it needs one. -/
theorem submitApprovalRequest_frame {req : SubmitRequest}
    (h : submitApprovalRequest s req = .ok t) :
    t = { s with approvals := t.approvals, tasks := t.tasks, steps := t.steps } ∧
      (t.approvals = s.approvals ∨
        ∃ row, row.status = .pending ∧ s.approvals.insert? row = some t.approvals) := by
  simp only [submitApprovalRequest] at h
  split at h
  · cases h
  · split at h
    · obtain ⟨approvals, happrovals, h⟩ := except_bind_ok.mp h
      obtain ⟨tasks, -, h⟩ := except_bind_ok.mp h
      obtain ⟨steps, -, h⟩ := except_bind_ok.mp h
      cases h
      exact ⟨rfl, Or.inr ⟨_, rfl, insertInto_ok happrovals⟩⟩
    · obtain ⟨approvals, happrovals, h⟩ := except_bind_ok.mp h
      obtain ⟨tasks, -, h⟩ := except_bind_ok.mp h
      obtain ⟨steps, -, h⟩ := except_bind_ok.mp h
      cases h
      exact ⟨rfl, Or.inl (Except.ok.inj happrovals).symm⟩

theorem createNextTaskStepRecord_frame {req : NextStepRequest}
    (h : createNextTaskStepRecord s req = .ok t) :
    t = { s with tasks := t.tasks, steps := t.steps } := by
  unfold createNextTaskStepRecord at h
  split at h
  · cases h
  · split at h
    · cases h
    · split at h
      · cases h
      · split at h
        · cases h
        · iterate 6 obtain ⟨_, -, h⟩ := except_bind_ok.mp h
          obtain ⟨steps, -, h⟩ := except_bind_ok.mp h
          obtain ⟨_, _, _, -, rfl⟩ := syncTaskWithTaskStepStatus_ok h
          rfl

theorem transitionTaskStepRecord_frame {req : StepTransitionRequest}
    (h : transitionTaskStepRecord s req = .ok t) :
    t = { s with tasks := t.tasks, steps := t.steps } := by
  unfold transitionTaskStepRecord at h
  split at h
  · cases h
  · split at h
    · cases h
    · split at h
      · cases h
      · split at h
        · cases h
        · split at h
          · cases h
          · iterate 2 obtain ⟨_, -, h⟩ := except_bind_ok.mp h
            split at h
            · cases h
            · obtain ⟨_, _, _, -, rfl⟩ := syncTaskWithTaskStepStatus_ok h
              rfl

end Returned

/-! ### A small request -/

/-- An environment in which every text is an id. -/
def plainEnv : GovernedEnv where
  uuid := some
  idempotencyKey run approval := run ++ ":" ++ approval.id

def echoSubmit : GovernedCall :=
  .submit
    { decision := .approvalRequired
      toolKey := "proxy.echo"
      approvalId := "approval"
      taskId := "task"
      stepId := "step" }

def echoResolve (approves : Bool) : ResolveRequest where
  approvalId := "approval"
  approves := approves
  now := "t1"

end AliceBot
