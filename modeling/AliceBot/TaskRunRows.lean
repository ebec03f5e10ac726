import AliceBot.Library.Json
import AliceBot.Library.Effect

/-!
# Task runs

The rows of `task_runs` and the seven functions that write them. Each reads the
row, decides in Python and hands a full set of columns back to one `UPDATE`; the
eighth writer, the worker's acquisition, is a single statement. The checkpoint
carries the history of the run: every writer but the acquisition appends one
transition entry to it.

The functions are kept apart from the database: a decision takes the row it has
read and returns the columns to write. `task_runs.py` has one helper for the
transition entry, `approvals.py` and `proxy_execution.py` have copies of it that
do not normalize the checkpoint first.
-/

namespace AliceBot

open PyLib

/-! ### Columns -/

inductive TaskRunStatus where
  | queued
  | running
  | waitingApproval
  | waitingUser
  | paused
  | failed
  | done
  | cancelled
deriving DecidableEq, Repr

namespace TaskRunStatus

def text : TaskRunStatus → String
  | queued => "queued"
  | running => "running"
  | waitingApproval => "waiting_approval"
  | waitingUser => "waiting_user"
  | paused => "paused"
  | failed => "failed"
  | done => "done"
  | cancelled => "cancelled"

/-- `RUNNABLE_TASK_RUN_STATUSES`. -/
def runnable : TaskRunStatus → Bool
  | queued | running => true
  | _ => false

/-- `PAUSEABLE_TASK_RUN_STATUSES`. -/
def pauseable : TaskRunStatus → Bool
  | queued | running | waitingApproval | waitingUser => true
  | _ => false

/-- `RESUMABLE_TASK_RUN_STATUSES`. -/
def resumable : TaskRunStatus → Bool
  | paused | waitingApproval | waitingUser | failed => true
  | _ => false

/-- `CANCELLABLE_TASK_RUN_STATUSES`. -/
def cancellable : TaskRunStatus → Bool
  | queued | running | waitingApproval | waitingUser | paused => true
  | _ => false

/-- `{"done", "cancelled"}`. -/
def finished : TaskRunStatus → Bool
  | done | cancelled => true
  | _ => false

end TaskRunStatus

inductive TaskRunStopReason where
  | waitingApproval
  | waitingUser
  | paused
  | budgetExhausted
  | approvalRejected
  | policyBlocked
  | retryExhausted
  | fatalError
  | done
  | cancelled
deriving DecidableEq, Repr

def TaskRunStopReason.text : TaskRunStopReason → String
  | waitingApproval => "waiting_approval"
  | waitingUser => "waiting_user"
  | paused => "paused"
  | budgetExhausted => "budget_exhausted"
  | approvalRejected => "approval_rejected"
  | policyBlocked => "policy_blocked"
  | retryExhausted => "retry_exhausted"
  | fatalError => "fatal_error"
  | done => "done"
  | cancelled => "cancelled"

inductive TaskRunFailureClass where
  | transient
  | policy
  | approval
  | budget
  | fatal
deriving DecidableEq, Repr

def TaskRunFailureClass.text : TaskRunFailureClass → String
  | transient => "transient"
  | policy => "policy"
  | approval => "approval"
  | budget => "budget"
  | fatal => "fatal"

inductive TaskRunRetryPosture where
  | none
  | retryable
  | exhausted
  | terminal
  | paused
  | awaitingApproval
  | awaitingUser
deriving DecidableEq, Repr

def TaskRunRetryPosture.text : TaskRunRetryPosture → String
  | none => "none"
  | retryable => "retryable"
  | exhausted => "exhausted"
  | terminal => "terminal"
  | paused => "paused"
  | awaitingApproval => "awaiting_approval"
  | awaitingUser => "awaiting_user"

/-- A row of `task_runs`. -/
structure TaskRunRow where
  id : String
  taskId : String
  status : TaskRunStatus
  checkpoint : Dict Json
  tickCount : Int
  stepCount : Int
  maxTicks : Int
  retryCount : Int
  retryCap : Int
  retryPosture : TaskRunRetryPosture
  failureClass : Option TaskRunFailureClass
  stopReason : Option TaskRunStopReason

/-- The columns `UPDATE_TASK_RUN_SQL` sets. -/
structure TaskRunUpdate where
  status : TaskRunStatus
  checkpoint : Dict Json
  tickCount : Int
  stepCount : Int
  retryCount : Int
  retryCap : Int
  retryPosture : TaskRunRetryPosture
  failureClass : Option TaskRunFailureClass
  stopReason : Option TaskRunStopReason

/-- `UPDATE_TASK_RUN_SQL`, on the row it meets. -/
def TaskRunUpdate.apply (u : TaskRunUpdate) (row : TaskRunRow) : TaskRunRow :=
  { row with
    status := u.status
    checkpoint := u.checkpoint
    tickCount := u.tickCount
    stepCount := u.stepCount
    retryCount := u.retryCount
    retryCap := u.retryCap
    retryPosture := u.retryPosture
    failureClass := u.failureClass
    stopReason := u.stopReason }

/-- `task_runs_status_stop_reason_check`. The constraint of the table that ties the
reason a run stopped, and its failure class, to its status. -/
def statusStopReasonCheck (status : TaskRunStatus) (stopReason : Option TaskRunStopReason)
    (failureClass : Option TaskRunFailureClass) : Bool :=
  match status with
  | .queued | .running => stopReason.isNone && failureClass.isNone
  | .waitingApproval => stopReason == some .waitingApproval && failureClass.isNone
  | .waitingUser => stopReason == some .waitingUser && failureClass.isNone
  | .paused => stopReason == some .paused && failureClass.isNone
  | .failed =>
    (stopReason == some .budgetExhausted || stopReason == some .approvalRejected
      || stopReason == some .policyBlocked || stopReason == some .retryExhausted
      || stopReason == some .fatalError) && failureClass.isSome
  | .done => stopReason == some .done && failureClass.isNone
  | .cancelled => stopReason == some .cancelled && failureClass.isNone

/-- The `CHECK` constraints of the table. -/
def TaskRunRow.checks (row : TaskRunRow) : Bool :=
  decide (0 ≤ row.tickCount) && decide (0 ≤ row.stepCount) && decide (0 < row.maxTicks)
    && decide (0 ≤ row.retryCount) && decide (row.retryCount ≤ row.retryCap)
    && statusStopReasonCheck row.status row.stopReason row.failureClass

/-! ### Checkpoints -/

inductive TaskRunError where
  | validation (message : String)
  | notFound (message : String)
  | transition (message : String)
  | taskNotFound (message : String)
deriving DecidableEq, Repr

/-- `_coerce_non_negative_int`. -/
def coerceNonNegativeInt (value : Json) (key : String) : Except TaskRunError Int :=
  match value with
  | .int n =>
    if n < 0 then
      .error (.validation s!"checkpoint.{key} must be greater than or equal to 0")
    else .ok n
  | _ => .error (.validation s!"checkpoint.{key} must be an integer")

/-- `_coerce_positive_int`. -/
def coercePositiveInt (value : Json) (key : String) : Except TaskRunError Int :=
  match value with
  | .int n =>
    if n ≤ 0 then .error (.validation s!"checkpoint.{key} must be greater than 0") else .ok n
  | _ => .error (.validation s!"checkpoint.{key} must be an integer")

/-- `checkpoint.get("cursor", 0)`, coerced. -/
def checkpointCursor (checkpoint : Dict Json) : Except TaskRunError Int :=
  coerceNonNegativeInt ((checkpoint.get? "cursor").getD (.int 0)) "cursor"

/-- `checkpoint.get("target_steps", 1)`, coerced. -/
def checkpointTarget (checkpoint : Dict Json) : Except TaskRunError Int :=
  coercePositiveInt ((checkpoint.get? "target_steps").getD (.int 1)) "target_steps"

/-- `checkpoint.get("wait_for_signal", False)`, which must be a boolean. -/
def checkpointWait (checkpoint : Dict Json) : Except TaskRunError Bool :=
  match (checkpoint.get? "wait_for_signal").getD (.bool false) with
  | .bool b => .ok b
  | _ => .error (.validation "checkpoint.wait_for_signal must be a boolean")

/-- `normalize_checkpoint`. The fields a tick relies on are checked and get their
defaults; any other field stays as it is. -/
def normalizeCheckpoint (checkpoint : Dict Json) : Except TaskRunError (Dict Json) := do
  let cursor ← checkpointCursor checkpoint
  let target ← checkpointTarget checkpoint
  let wait ← checkpointWait checkpoint
  if target < cursor then
    .error (.validation
      "checkpoint.cursor must be less than or equal to checkpoint.target_steps")
  else
    .ok (((checkpoint.set "cursor" (.int cursor)).set "target_steps" (.int target)).set
      "wait_for_signal" (.bool wait))

/-- What a transition entry says, its number apart. -/
structure TransitionEntry where
  source : String
  stamp : String
  previousStatus : Option TaskRunStatus
  status : TaskRunStatus
  previousStopReason : Option TaskRunStopReason
  stopReason : Option TaskRunStopReason
  failureClass : Option TaskRunFailureClass
  retryCount : Int
  retryCap : Int
  retryPosture : TaskRunRetryPosture

def TransitionEntry.entry (t : TransitionEntry) (sequenceNo : Nat) : Dict Json :=
  [("sequence_no", .int sequenceNo),
    ("source", .str t.source),
    ("at", .str t.stamp),
    ("previous_status", .optStr (t.previousStatus.map (·.text))),
    ("status", .str t.status.text),
    ("previous_stop_reason", .optStr (t.previousStopReason.map (·.text))),
    ("stop_reason", .optStr (t.stopReason.map (·.text))),
    ("failure_class", .optStr (t.failureClass.map (·.text))),
    ("retry_count", .int t.retryCount),
    ("retry_cap", .int t.retryCap),
    ("retry_posture", .str t.retryPosture.text)]

/-- The transition entries of a checkpoint: the mappings in the list
`transitions`. -/
def transitionHistory (checkpoint : Dict Json) : List (Dict Json) :=
  ((checkpoint.item "transitions").asArr?.getD []).filterMap Json.asObj?

/-- The entry appended, as all three copies of the code do it. -/
def recordTransition (checkpoint : Dict Json) (t : TransitionEntry) : Dict Json :=
  let history := transitionHistory checkpoint
  let entry := t.entry (history.length + 1)
  (checkpoint.set "transitions" (.arr ((history ++ [entry]).map .obj))).set
    "last_transition" (.obj entry)

/-- `_append_transition_checkpoint_entry`. -/
def appendTransitionCheckpointEntry (checkpoint : Dict Json) (t : TransitionEntry) :
    Except TaskRunError (Dict Json) := do
  let normalized ← normalizeCheckpoint checkpoint
  .ok (recordTransition normalized t)

/-- The entry for a row that becomes what the update says. -/
def TaskRunUpdate.transition (u : TaskRunUpdate) (row : TaskRunRow) (source now : String) :
    TransitionEntry where
  source := source
  stamp := now
  previousStatus := some row.status
  status := u.status
  previousStopReason := row.stopReason
  stopReason := u.stopReason
  failureClass := u.failureClass
  retryCount := u.retryCount
  retryCap := u.retryCap
  retryPosture := u.retryPosture

/-- `_update_task_run`, up to its `UPDATE`. -/
def updateTaskRun (row : TaskRunRow) (u : TaskRunUpdate) (source now : String) :
    Except TaskRunError TaskRunUpdate := do
  let checkpoint ← appendTransitionCheckpointEntry u.checkpoint (u.transition row source now)
  .ok { u with checkpoint := checkpoint }

/-- The columns of a row, to be written back. -/
def TaskRunRow.columns (row : TaskRunRow) (checkpoint : Dict Json) : TaskRunUpdate where
  status := row.status
  checkpoint := checkpoint
  tickCount := row.tickCount
  stepCount := row.stepCount
  retryCount := row.retryCount
  retryCap := row.retryCap
  retryPosture := row.retryPosture
  failureClass := row.failureClass
  stopReason := row.stopReason

/-! ### What the writers read beside the run -/

inductive TaskStatus where
  | pendingApproval
  | approved
  | executed
  | denied
  | blocked
deriving DecidableEq, Repr

inductive ApprovalStatus where
  | pending
  | approved
  | rejected
deriving DecidableEq, Repr

def ApprovalStatus.text : ApprovalStatus → String
  | pending => "pending"
  | approved => "approved"
  | rejected => "rejected"

inductive ExecutionStatus where
  | completed
  | blocked
deriving DecidableEq, Repr

def ExecutionStatus.text : ExecutionStatus → String
  | completed => "completed"
  | blocked => "blocked"

/-- A row of `tasks`. -/
structure TaskRow where
  id : String
  status : TaskStatus
  latestApprovalId : Option String
  latestExecutionId : Option String

/-- A row of `tool_executions`. Of the result, the reason and the reason of the
budget decision are kept. -/
structure ToolExecution where
  id : String
  approvalId : String
  taskRunId : Option String
  taskStepId : String
  status : ExecutionStatus
  idempotencyKey : Option String
  reason : Option String
  budgetReason : Option String
  executedAt : String

/-- The approval a tick waits for: the latest one of a task that is pending, if
it is pending itself. -/
def TaskRow.pendingApproval? (task : TaskRow) (approval : String → Option ApprovalStatus) :
    Option String :=
  if task.status = .pendingApproval then
    task.latestApprovalId.filter fun id => approval id == some .pending
  else none

/-! ### Decisions -/

/-- `_transition_conflict`. -/
def transitionConflict (row : TaskRunRow) (action : String) : TaskRunError :=
  .transition s!"task run {row.id} is {row.status.text} and cannot be {action}"

/-- The checkpoint of a run that waits for an approval. -/
def waitForApproval (checkpoint : Dict Json) (approvalId : String) : Dict Json :=
  (checkpoint.set "wait_for_signal" (.bool true)).set "waiting_approval_id" (.str approvalId)

/-- `tick_task_run_record`. One tick of a run: it waits if the task has a pending
approval or the checkpoint asks for the user, it ends at its target or at its budget,
and otherwise it takes one step. -/
def tickTaskRunRecord (task : Option TaskRow) (approval : String → Option ApprovalStatus)
    (now : String) (row : TaskRunRow) : Except TaskRunError TaskRunUpdate :=
  if row.status.runnable then do
    let checkpoint ← normalizeCheckpoint row.checkpoint
    let cursor ← checkpointCursor checkpoint
    let target ← checkpointTarget checkpoint
    let wait ← checkpointWait checkpoint
    match task with
    | none => .error (.taskNotFound s!"task {row.taskId} was not found")
    | some task =>
      match task.pendingApproval? approval with
      | some approvalId =>
        -- before the budget is looked at
        updateTaskRun row
          { row.columns (waitForApproval checkpoint approvalId) with
            status := .waitingApproval
            tickCount := row.tickCount + 1
            retryPosture := .awaitingApproval
            failureClass := none
            stopReason := some .waitingApproval } "tick_waiting_approval" now
      | none =>
        if target ≤ cursor then
          updateTaskRun row
            { row.columns checkpoint with
              status := .done
              retryPosture := .terminal
              failureClass := none
              stopReason := some .done } "tick_done_existing_cursor" now
        else if row.maxTicks ≤ row.tickCount then
          updateTaskRun row
            { row.columns checkpoint with
              status := .failed
              retryPosture := .terminal
              failureClass := some .budget
              stopReason := some .budgetExhausted } "tick_budget_exhausted" now
        else if wait then
          updateTaskRun row
            { row.columns (checkpoint.set "wait_for_signal" (.bool true)) with
              status := .waitingUser
              tickCount := row.tickCount + 1
              retryPosture := .awaitingUser
              failureClass := none
              stopReason := some .waitingUser } "tick_waiting_user" now
        else
          updateTaskRun row
            { row.columns (checkpoint.set "cursor" (.int (cursor + 1))) with
              status := if target ≤ cursor + 1 then .done else .running
              tickCount := row.tickCount + 1
              stepCount := row.stepCount + 1
              retryPosture := if target ≤ cursor + 1 then .terminal else .none
              failureClass := none
              stopReason := if target ≤ cursor + 1 then some .done else none }
            "tick_progress" now
  else .error (transitionConflict row "ticked")

/-- `pause_task_run_record`. A run that is under way or waits is paused, and keeps where
it was in its checkpoint. -/
def pauseTaskRunRecord (now : String) (row : TaskRunRow) : Except TaskRunError TaskRunUpdate :=
  if row.status.pauseable then do
    let checkpoint ← normalizeCheckpoint row.checkpoint
    updateTaskRun row
      { row.columns checkpoint with
        status := .paused
        retryPosture := .paused
        failureClass := none
        stopReason := some .paused } "pause" now
  else .error (transitionConflict row "paused")

/-- The run waits for an approval that is still pending. `approval` takes the
text for a UUID and looks it up. -/
def waitsForPending (approval : String → Option ApprovalStatus) (row : TaskRunRow)
    (checkpoint : Dict Json) : Bool :=
  row.status == .waitingApproval &&
    (checkpoint.getStr? "waiting_approval_id").any fun id =>
      id != "" && approval id == some .pending

/-- The checkpoint of a run that a user resumes. -/
def resumeByUser (checkpoint : Dict Json) : Dict Json :=
  ((checkpoint.set "wait_for_signal" (.bool false)).set "waiting_approval_id" .null).set
    "resumed_by_user" (.bool true)

/-- `resume_task_run_record`. A run is resumed by the user only when nothing keeps it
from going on: no pending approval, and for a failed one a transient failure with a
retry left. -/
def resumeTaskRunRecord (approval : String → Option ApprovalStatus) (now : String)
    (row : TaskRunRow) : Except TaskRunError TaskRunUpdate :=
  if row.status.resumable then do
    let checkpoint ← normalizeCheckpoint row.checkpoint
    if waitsForPending approval row checkpoint then
      .error (transitionConflict row "resumed while approval is still pending")
    else if row.status = .failed ∧ row.failureClass ≠ some .transient then
      .error (transitionConflict row "resumed because failure class is terminal")
    else if row.status = .failed ∧ row.retryCap ≤ row.retryCount then
      .error (transitionConflict row "resumed because retry cap is exhausted")
    else
      updateTaskRun row
        { row.columns (resumeByUser checkpoint) with
          -- a run that failed or waits for an approval is queued again, any other goes on
          status := if row.status = .failed ∨ row.status = .waitingApproval then .queued
            else .running
          retryCount := if row.status = .failed then row.retryCount + 1 else row.retryCount
          retryPosture := .none
          failureClass := none
          stopReason := none } "resume" now
  else .error (transitionConflict row "resumed")

/-- `cancel_task_run_record`. A run is cancelled for good, whatever it was waiting for.
-/
def cancelTaskRunRecord (now : String) (row : TaskRunRow) : Except TaskRunError TaskRunUpdate :=
  if row.status.cancellable then do
    let checkpoint ← normalizeCheckpoint row.checkpoint
    updateTaskRun row
      { row.columns checkpoint with
        status := .cancelled
        retryPosture := .terminal
        failureClass := none
        stopReason := some .cancelled } "cancel" now
  else .error (transitionConflict row "cancelled")

/-- `mark_task_run_failed`. A finished run is left alone. -/
def markTaskRunFailed (stopReason : TaskRunStopReason) (failureClass : TaskRunFailureClass)
    (source now : String) (row : TaskRunRow) : Except TaskRunError (Option TaskRunUpdate) :=
  if row.status.finished then .ok none
  else some <$> updateTaskRun row
    { row.columns row.checkpoint with
      status := .failed
      retryPosture :=
        if failureClass = .transient then
          if row.retryCount < row.retryCap then .retryable else .exhausted
        else .terminal
      failureClass := some failureClass
      -- a transient failure without retries left is recorded as exhausted
      stopReason := some
        (if failureClass = .transient ∧ row.retryCap ≤ row.retryCount then .retryExhausted
          else stopReason) } source now

/-- The transition recorded without normalizing the checkpoint. -/
def recordUpdate (row : TaskRunRow) (u : TaskRunUpdate) (source now : String) : TaskRunUpdate :=
  { u with checkpoint := recordTransition u.checkpoint (u.transition row source now) }

/-- The checkpoint after an approval was resolved. -/
def resolveCheckpoint (checkpoint : Dict Json) (approvalId : String) (status : ApprovalStatus) :
    Dict Json :=
  (((checkpoint.set "wait_for_signal" (.bool false)).set "waiting_approval_id" .null).set
    "resolved_approval_id" (.str approvalId)).set "approval_resolution_status" (.str status.text)

/-- `_resume_task_run_after_resolution`. Only a run that waits is touched. -/
def resumeTaskRunAfterResolution (approvalId : String) (status : ApprovalStatus) (now : String)
    (row : TaskRunRow) : Option TaskRunUpdate :=
  if row.status = .waitingApproval then
    some (recordUpdate row
      { row.columns (resolveCheckpoint row.checkpoint approvalId status) with
        status := if status = .approved then .queued else .failed
        retryPosture := if status = .approved then .none else .terminal
        failureClass := if status = .approved then none else some .approval
        stopReason := if status = .approved then none else some .approvalRejected }
      "approval_resolution" now)
  else none

/-- The checkpoint after an execution. -/
def executionCheckpoint (checkpoint : Dict Json) (approvalId : String) (e : ToolExecution) :
    Dict Json :=
  ((((((checkpoint.set "wait_for_signal" (.bool false)).set "waiting_approval_id" .null).set
    "resolved_approval_id" (.str approvalId)).set "resumed_from_approval_id" (.str approvalId)).set
    "last_execution_id" (.str e.id)).set "last_execution_status" (.str e.status.text)).set
    "last_execution_at" (.str e.executedAt)

/-- The execution was stopped by a budget. -/
def ToolExecution.budgetExceeded (e : ToolExecution) : Bool :=
  e.budgetReason == some "budget_exceeded"

/-- `_sync_task_run_after_execution`. A finished run is left alone. -/
def syncTaskRunAfterExecution (approvalId : String) (e : ToolExecution) (now : String)
    (row : TaskRunRow) : Option TaskRunUpdate :=
  if row.status.finished then none
  else some (recordUpdate row
    { row.columns (executionCheckpoint row.checkpoint approvalId e) with
      -- an execution ends the run, for good or ill
      status := if e.status = .blocked then .failed else .done
      tickCount := max 1 row.tickCount
      stepCount := max row.stepCount 1
      retryPosture := .terminal
      failureClass :=
        if e.status = .blocked then some (if e.budgetExceeded then .budget else .policy) else none
      stopReason := some
        (if e.status = .blocked then
          if e.budgetExceeded then .budgetExhausted else .policyBlocked
        else .done) } "proxy_execution" now)

/-- `ACQUIRE_NEXT_TASK_RUN_SQL`, on the row it has picked. -/
def acquireTaskRun (row : TaskRunRow) : TaskRunRow :=
  { row with
    status := .running
    retryPosture := .none
    failureClass := none
    stopReason := none }

/-! ### Creation -/

/-- `TaskRunCreateInput`. -/
structure TaskRunCreateInput where
  taskId : String
  maxTicks : Int
  retryCap : Option Int := none
  checkpoint : Dict Json

/-- `create_task_run_record`, for a task that exists: the row to insert. -/
def createTaskRunRow (request : TaskRunCreateInput) (id now : String) :
    Except TaskRunError TaskRunRow :=
  if request.maxTicks ≤ 0 then .error (.validation "max_ticks must be greater than 0")
  else
    -- without a cap of its own a run may be retried as often as it may tick
    let retryCap := request.retryCap.getD (max 1 request.maxTicks)
    if retryCap ≤ 0 then .error (.validation "retry_cap must be greater than 0")
    else do
      let checkpoint ← appendTransitionCheckpointEntry request.checkpoint
        { source := "create"
          stamp := now
          previousStatus := none
          status := .queued
          previousStopReason := none
          stopReason := none
          failureClass := none
          retryCount := 0
          retryCap := retryCap
          retryPosture := .none }
      .ok
        { id := id
          taskId := request.taskId
          status := .queued
          checkpoint := checkpoint
          tickCount := 0
          stepCount := 0
          maxTicks := request.maxTicks
          retryCount := 0
          retryCap := retryCap
          retryPosture := .none
          failureClass := none
          stopReason := none }

/-! ### Calls -/

/-- A call that writes one run. -/
inductive TaskRunCall where
  | tick
  | pause
  | resume
  | cancel
  | markFailed (stopReason : TaskRunStopReason) (failureClass : TaskRunFailureClass)
      (source : String)
  | resolve (approvalId : String) (status : ApprovalStatus)
  | sync (approvalId : String) (e : ToolExecution)

/-- What a call reads beside the run, when it reads it. -/
structure TaskRunReads where
  task : Option TaskRow
  approval : String → Option ApprovalStatus

/-- The decision of a call on the row it has read: it raises, writes nothing or
writes. -/
def TaskRunCall.decide (reads : TaskRunReads) (now : String) (row : TaskRunRow) :
    TaskRunCall → Except TaskRunError (Option TaskRunUpdate)
  | tick => some <$> tickTaskRunRecord reads.task reads.approval now row
  | pause => some <$> pauseTaskRunRecord now row
  | resume => some <$> resumeTaskRunRecord reads.approval now row
  | cancel => some <$> cancelTaskRunRecord now row
  | markFailed stopReason failureClass source =>
    markTaskRunFailed stopReason failureClass source now row
  | resolve approvalId status => .ok (resumeTaskRunAfterResolution approvalId status now row)
  | sync approvalId e => .ok (syncTaskRunAfterExecution approvalId e now row)

/-! ### What a call has found -/

/-- A run is paused with the status it was found in. -/
theorem pauseTaskRunRecord_ok {now : String} {row : TaskRunRow} {u : TaskRunUpdate}
    (h : pauseTaskRunRecord now row = .ok u) :
    row.status.pauseable = true ∧ ∃ checkpoint,
      normalizeCheckpoint row.checkpoint = .ok checkpoint ∧
      updateTaskRun row
        { row.columns checkpoint with
          status := .paused
          retryPosture := .paused
          failureClass := none
          stopReason := some .paused } "pause" now = .ok u := by
  unfold pauseTaskRunRecord at h
  split at h
  · next hpauseable => exact ⟨hpauseable, except_bind_ok.mp h⟩
  · cases h

/-- A run is resumed when it waits for no pending approval and, if it failed,
may be retried. -/
theorem resumeTaskRunRecord_ok {approval : String → Option ApprovalStatus} {now : String}
    {row : TaskRunRow} {u : TaskRunUpdate} (h : resumeTaskRunRecord approval now row = .ok u) :
    row.status.resumable = true ∧ (row.status = .failed → row.failureClass = some .transient) ∧
      ∃ checkpoint, normalizeCheckpoint row.checkpoint = .ok checkpoint ∧
        updateTaskRun row
          { row.columns (resumeByUser checkpoint) with
            status := if row.status = .failed ∨ row.status = .waitingApproval then .queued
              else .running
            retryCount := if row.status = .failed then row.retryCount + 1 else row.retryCount
            retryPosture := .none
            failureClass := none
            stopReason := none } "resume" now = .ok u := by
  unfold resumeTaskRunRecord at h
  split at h
  · next hresumable =>
    obtain ⟨checkpoint, hcheckpoint, h⟩ := except_bind_ok.mp h
    -- the three refusals of a resume, in the order of the source
    split at h
    · cases h
    split at h
    · cases h
    next hclass =>
    split at h
    · cases h
    exact ⟨hresumable, fun hfailed => by_contra fun hne => hclass ⟨hfailed, hne⟩, checkpoint,
      hcheckpoint, h⟩
  · cases h

/-- A run is cancelled with the status it was found in. -/
theorem cancelTaskRunRecord_ok {now : String} {row : TaskRunRow} {u : TaskRunUpdate}
    (h : cancelTaskRunRecord now row = .ok u) :
    row.status.cancellable = true ∧ ∃ checkpoint,
      normalizeCheckpoint row.checkpoint = .ok checkpoint ∧
      updateTaskRun row
        { row.columns checkpoint with
          status := .cancelled
          retryPosture := .terminal
          failureClass := none
          stopReason := some .cancelled } "cancel" now = .ok u := by
  unfold cancelTaskRunRecord at h
  split at h
  · next hcancellable => exact ⟨hcancellable, except_bind_ok.mp h⟩
  · cases h

/-- A run is marked as failed only when it has not finished. -/
theorem markTaskRunFailed_ok {stopReason : TaskRunStopReason} {failureClass : TaskRunFailureClass}
    {source now : String} {row : TaskRunRow} {u : TaskRunUpdate}
    (h : markTaskRunFailed stopReason failureClass source now row = .ok (some u)) :
    row.status.finished = false ∧
      updateTaskRun row
        { row.columns row.checkpoint with
          status := .failed
          retryPosture :=
            if failureClass = .transient then
              if row.retryCount < row.retryCap then .retryable else .exhausted
            else .terminal
          failureClass := some failureClass
          stopReason := some
            (if failureClass = .transient ∧ row.retryCap ≤ row.retryCount then .retryExhausted
              else stopReason) } source now = .ok u := by
  unfold markTaskRunFailed at h
  split at h
  · cases h
  · next hfinished => exact ⟨Bool.eq_false_iff.mpr hfinished, except_map_some_ok.mp h⟩

/-! ### What normalizing keeps -/

/-- What a checkpoint is when it is accepted. -/
theorem normalizeCheckpoint_ok {checkpoint normalized : Dict Json}
    (h : normalizeCheckpoint checkpoint = .ok normalized) :
    ∃ cursor target wait, checkpointCursor checkpoint = .ok cursor ∧
      checkpointTarget checkpoint = .ok target ∧ checkpointWait checkpoint = .ok wait ∧
      cursor ≤ target ∧
      normalized = ((checkpoint.set "cursor" (.int cursor)).set "target_steps" (.int target)).set
        "wait_for_signal" (.bool wait) := by
  obtain ⟨cursor, hcursor, h⟩ := except_bind_ok.mp h
  obtain ⟨target, htarget, h⟩ := except_bind_ok.mp h
  obtain ⟨wait, hwait, h⟩ := except_bind_ok.mp h
  split at h
  · cases h
  · next hle =>
    cases h
    exact ⟨cursor, target, wait, hcursor, htarget, hwait, Int.not_lt.mp hle, rfl⟩

theorem transitionHistory_set (checkpoint : Dict Json) {key : String} (value : Json)
    (h : key ≠ "transitions") :
    transitionHistory (checkpoint.set key value) = transitionHistory checkpoint := by
  unfold transitionHistory Dict.item
  rw [Dict.get?_set_of_ne _ _ h]

theorem transitionHistory_normalize {checkpoint normalized : Dict Json}
    (h : normalizeCheckpoint checkpoint = .ok normalized) :
    transitionHistory normalized = transitionHistory checkpoint := by
  obtain ⟨_, _, _, -, -, -, -, rfl⟩ := normalizeCheckpoint_ok h
  rw [transitionHistory_set _ _ (by decide), transitionHistory_set _ _ (by decide),
    transitionHistory_set _ _ (by decide)]

theorem transitionHistory_record (checkpoint : Dict Json) (t : TransitionEntry) :
    transitionHistory (recordTransition checkpoint t) =
      transitionHistory checkpoint ++ [t.entry ((transitionHistory checkpoint).length + 1)] := by
  have hfilter : ∀ l : List (Dict Json), (l.map Json.obj).filterMap Json.asObj? = l := by
    intro l
    induction l with
    | nil => rfl
    | cons d l ih => simp [ih]
  unfold recordTransition
  rw [transitionHistory_set _ _ (by decide), transitionHistory, Dict.item, Dict.get?_set_self]
  exact hfilter _

/-- The last transition of a checkpoint says the status. -/
def lastStatus (checkpoint : Dict Json) : Option String :=
  (checkpoint.getObj "last_transition").getStr? "status"

theorem lastStatus_record (checkpoint : Dict Json) (t : TransitionEntry) :
    lastStatus (recordTransition checkpoint t) = some t.status.text := by
  unfold lastStatus recordTransition
  rw [Dict.getObj, Dict.item, Dict.get?_set_self]
  simp [TransitionEntry.entry, Dict.getStr?, Dict.get?_cons]

/-! ### What an update writes -/

theorem updateTaskRun_ok {row : TaskRunRow} {u u' : TaskRunUpdate} {source now : String}
    (h : updateTaskRun row u source now = .ok u') :
    ∃ normalized, normalizeCheckpoint u.checkpoint = .ok normalized ∧
      u' = recordUpdate row { u with checkpoint := normalized } source now := by
  obtain ⟨checkpoint, hcheckpoint, h⟩ := except_bind_ok.mp h
  obtain ⟨normalized, hnormalized, hrecord⟩ := except_bind_ok.mp hcheckpoint
  cases hrecord
  cases h
  exact ⟨normalized, hnormalized, rfl⟩

/-- The update continues the history the call has read: it adds the entry of its
own transition, and nothing else. -/
structure Continues (row : TaskRunRow) (u : TaskRunUpdate) : Prop where
  unfinished : row.status.finished = false
  history : ∃ entry, transitionHistory u.checkpoint = transitionHistory row.checkpoint ++ [entry]
  recorded : lastStatus u.checkpoint = some u.status.text

theorem continues_recordUpdate {row : TaskRunRow} {u : TaskRunUpdate}
    (hstatus : row.status.finished = false)
    (hhistory : transitionHistory u.checkpoint = transitionHistory row.checkpoint)
    (source now : String) : Continues row (recordUpdate row u source now) where
  unfinished := hstatus
  history := by
    have h := transitionHistory_record u.checkpoint (u.transition row source now)
    rw [hhistory] at h
    exact ⟨_, h⟩
  recorded := lastStatus_record _ _

theorem continues_updateTaskRun {row : TaskRunRow} {u u' : TaskRunUpdate} {source now : String}
    (hstatus : row.status.finished = false)
    (hhistory : transitionHistory u.checkpoint = transitionHistory row.checkpoint)
    (h : updateTaskRun row u source now = .ok u') : Continues row u' := by
  obtain ⟨normalized, hnormalized, rfl⟩ := updateTaskRun_ok h
  refine continues_recordUpdate hstatus ?_ source now
  show transitionHistory normalized = _
  rw [transitionHistory_normalize hnormalized, hhistory]

theorem TaskRunStatus.not_finished_of_runnable {s : TaskRunStatus} (h : s.runnable = true) :
    s.finished = false := by
  cases s <;> first | rfl | cases h

theorem TaskRunStatus.not_finished_of_pauseable {s : TaskRunStatus} (h : s.pauseable = true) :
    s.finished = false := by
  cases s <;> first | rfl | cases h

theorem TaskRunStatus.not_finished_of_resumable {s : TaskRunStatus} (h : s.resumable = true) :
    s.finished = false := by
  cases s <;> first | rfl | cases h

theorem TaskRunStatus.not_finished_of_cancellable {s : TaskRunStatus}
    (h : s.cancellable = true) : s.finished = false := by
  cases s <;> first | rfl | cases h

/-- Whichever way a tick goes, the run had not ended, and the tick appends one entry to
the history that it read. -/
theorem tick_continues {task : Option TaskRow} {approval : String → Option ApprovalStatus}
    {now : String} {row : TaskRunRow} {u : TaskRunUpdate}
    (h : tickTaskRunRecord task approval now row = .ok u) : Continues row u := by
  unfold tickTaskRunRecord at h
  split at h
  · next hrunnable =>
    have hstatus := TaskRunStatus.not_finished_of_runnable hrunnable
    obtain ⟨checkpoint, hcheckpoint, h⟩ := except_bind_ok.mp h
    have hhistory := transitionHistory_normalize hcheckpoint
    obtain ⟨cursor, -, h⟩ := except_bind_ok.mp h
    obtain ⟨target, -, h⟩ := except_bind_ok.mp h
    obtain ⟨wait, -, h⟩ := except_bind_ok.mp h
    -- still waiting, an approval to wait for, a run that is done, one out of ticks, or progress
    split at h
    · cases h
    · split at h
      · refine continues_updateTaskRun hstatus ?_ h
        show transitionHistory (waitForApproval checkpoint _) = _
        unfold waitForApproval
        rw [transitionHistory_set _ _ (by decide), transitionHistory_set _ _ (by decide), hhistory]
      · split at h
        · exact continues_updateTaskRun hstatus hhistory h
        · split at h
          · exact continues_updateTaskRun hstatus hhistory h
          · split at h
            · refine continues_updateTaskRun hstatus ?_ h
              exact (transitionHistory_set _ _ (by decide)).trans hhistory
            · refine continues_updateTaskRun hstatus ?_ h
              exact (transitionHistory_set _ _ (by decide)).trans hhistory
  · cases h

/-- Whatever call writes a run, it has found it unfinished, and it writes the
history it has read back with one entry more. -/
theorem decide_continues {reads : TaskRunReads} {now : String} {row : TaskRunRow}
    {call : TaskRunCall} {u : TaskRunUpdate} (h : call.decide reads now row = .ok (some u)) :
    Continues row u := by
  cases call with
  | tick => exact tick_continues (except_map_some_ok.mp h)
  | pause =>
    obtain ⟨hpauseable, checkpoint, hcheckpoint, h⟩ :=
      pauseTaskRunRecord_ok (except_map_some_ok.mp h)
    exact continues_updateTaskRun (TaskRunStatus.not_finished_of_pauseable hpauseable)
      (transitionHistory_normalize hcheckpoint) h
  | resume =>
    obtain ⟨hresumable, -, checkpoint, hcheckpoint, h⟩ :=
      resumeTaskRunRecord_ok (except_map_some_ok.mp h)
    refine continues_updateTaskRun (TaskRunStatus.not_finished_of_resumable hresumable) ?_ h
    -- what a resume sets in the checkpoint is not its history
    show transitionHistory (resumeByUser checkpoint) = _
    unfold resumeByUser
    rw [transitionHistory_set _ _ (by decide), transitionHistory_set _ _ (by decide),
      transitionHistory_set _ _ (by decide), transitionHistory_normalize hcheckpoint]
  | cancel =>
    obtain ⟨hcancellable, checkpoint, hcheckpoint, h⟩ :=
      cancelTaskRunRecord_ok (except_map_some_ok.mp h)
    exact continues_updateTaskRun (TaskRunStatus.not_finished_of_cancellable hcancellable)
      (transitionHistory_normalize hcheckpoint) h
  | markFailed stopReason failureClass source =>
    obtain ⟨hunfinished, h⟩ := markTaskRunFailed_ok h
    exact continues_updateTaskRun hunfinished rfl h
  | resolve approvalId status =>
    have h := Except.ok.inj h
    unfold resumeTaskRunAfterResolution at h
    split at h
    · next hwaiting =>
      cases h
      refine continues_recordUpdate (by rw [hwaiting]; rfl) ?_ _ _
      show transitionHistory (resolveCheckpoint row.checkpoint approvalId status) = _
      unfold resolveCheckpoint
      rw [transitionHistory_set _ _ (by decide), transitionHistory_set _ _ (by decide),
        transitionHistory_set _ _ (by decide), transitionHistory_set _ _ (by decide)]
    · cases h
  | sync approvalId e =>
    have h := Except.ok.inj h
    unfold syncTaskRunAfterExecution at h
    split at h
    · cases h
    · next hfinished =>
      cases h
      refine continues_recordUpdate (Bool.eq_false_iff.mpr hfinished) ?_ _ _
      show transitionHistory (executionCheckpoint row.checkpoint approvalId e) = _
      unfold executionCheckpoint
      rw [transitionHistory_set _ _ (by decide), transitionHistory_set _ _ (by decide),
        transitionHistory_set _ _ (by decide), transitionHistory_set _ _ (by decide),
        transitionHistory_set _ _ (by decide), transitionHistory_set _ _ (by decide),
        transitionHistory_set _ _ (by decide)]

end AliceBot
