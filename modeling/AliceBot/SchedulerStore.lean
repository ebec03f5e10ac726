import AliceBot.Library.Run
import AliceBot.Library.Table
import AliceBot.ServicePrimitives

/-!
# Scheduler claims

The store calls behind `vnext_scheduler_runtime.run_due_workflows_durable`. A
daemon claims a due workflow, which writes a token and the next claim version
into the workflow and into a new run; it executes the plan outside of any
transaction and keeps the lease alive by heartbeats; at last it publishes the
staged writes in one transaction with the move of the run to `succeeded`. Other
daemons, the reaper and configuration changes take the same two rows under
conditions of their own.

Row-level security leaves each session the rows of one user, so the tables here
hold one user's rows. Every call is one transaction: the rows it decides on stay
locked until it ends, and a call that raises is rolled back.
-/

namespace AliceBot

open PyLib

/-! ### Rows -/

/-- A row of `scheduler_workflows`. Times are microseconds. -/
structure WorkflowRow where
  id : String
  workflowType : String
  enabled : Bool := false
  paused : Bool := false
  scheduleJson : Dict Json := []
  timezone : String := "UTC"
  nextRunAt : Option Int := none
  lastRunId : Option String := none
  lastRunAt : Option Int := none
  lastResult : Option String := none
  lastError : Option String := none
  metadataJson : Dict Json := []
  claimToken : Option String := none
  claimVersion : Nat := 0
  claimExpiresAt : Option Int := none
  updatedAt : Int := 0

/-- The status of a row of `scheduler_runs`. -/
inductive RunStatus where
  | started
  | succeeded
  | failed
deriving DecidableEq, Repr

def RunStatus.text : RunStatus → String
  | .started => "started"
  | .succeeded => "succeeded"
  | .failed => "failed"

/-- A row of `scheduler_runs`. Only a claim fills in `scheduledFor`. -/
structure SchedulerRun where
  id : String
  workflowId : String
  workflowType : String
  status : RunStatus := .started
  triggeredBy : String
  startedAt : Int
  finishedAt : Option Int := none
  artifactId : Option String := none
  errorMessage : Option String := none
  policyDecisionJson : Dict Json := []
  agentIdentityJson : Dict Json := []
  metadataJson : Dict Json := []
  claimToken : Option String := none
  claimVersion : Nat := 0
  claimExpiresAt : Option Int := none
  scheduledFor : Option Int := none

/-- The two tables, the runs whose staged writes are committed (oldest first),
and how often the database clock was read. -/
structure Scheduler where
  workflows : Table WorkflowRow.id := default
  runs : Table SchedulerRun.id := default
  published : List String := []
  reads : Nat := 0

/-- The database clock, and the two operators on `jsonb` an upsert uses. -/
structure SchedulerEnv where
  clock : WallClock
  /-- `a IS DISTINCT FROM b`. -/
  jsonbDistinct : Dict Json → Dict Json → Bool
  /-- `a @> b`. -/
  jsonbContains : Dict Json → Dict Json → Bool

variable (env : SchedulerEnv)

/-- `clock_timestamp()`, the `n`-th time it is read. -/
def SchedulerEnv.timestamp (n : Nat) : Int := (env.clock.read n).instant

/-! ### Claims -/

/-- The arguments that name a claim. -/
structure ClaimFence where
  runId : String
  claimToken : String
  claimVersion : Nat

/-- The join `r, w` under the full fence, at the time `now`. -/
def Scheduler.eligible (s : Scheduler) (fence : ClaimFence) (now : Int) :
    Option (SchedulerRun × WorkflowRow) := do
  let r ← s.runs.get? fence.runId
  let w ← s.workflows.get? r.workflowId
  if r.status = .started ∧ r.claimToken = some fence.claimToken
      ∧ r.claimVersion = fence.claimVersion
      ∧ r.claimExpiresAt.any (fun t => decide (now < t)) = true
      ∧ w.claimToken = some fence.claimToken ∧ w.claimVersion = fence.claimVersion
      ∧ w.claimExpiresAt.any (fun t => decide (now < t)) = true
  then some (r, w) else none

/-- The `WHERE` of the candidate query: enabled, due and under no lease that
`checkedAt` finds alive. -/
def WorkflowRow.dueAt (w : WorkflowRow) (checkedAt : Int) : Bool :=
  w.enabled && !w.paused && w.nextRunAt.any (fun t => decide (t ≤ checkedAt))
    && w.claimExpiresAt.all fun t => decide (t ≤ checkedAt)

/-- The arguments of `claim_due_scheduler_workflow`, with what the database
draws: the candidate row (the first due one that no other transaction has
locked), whether the advisory lock was free, and the new ids. -/
structure ClaimRequest where
  checkedAt : Int
  leaseExpiresAt : Int
  triggeredBy : String
  policyDecisionJson : Dict Json := []
  agentIdentityJson : Dict Json := []
  workflowId : String
  advisoryLockFree : Bool := true
  claimToken : String
  runId : String

/-- What a claim writes into the workflow. -/
def claimWorkflow (req : ClaimRequest) (now : Int) : Rewrite WorkflowRow.id where
  apply w := { w with
    claimToken := some req.claimToken
    claimVersion := w.claimVersion + 1
    claimExpiresAt := some req.leaseExpiresAt
    updatedAt := now }

/-- The run a claim inserts. -/
def claimedRun (req : ClaimRequest) (w : WorkflowRow) (scheduledFor now : Int) : SchedulerRun :=
  { id := req.runId
    workflowId := w.id
    workflowType := w.workflowType
    triggeredBy := req.triggeredBy
    startedAt := now
    policyDecisionJson := req.policyDecisionJson
    agentIdentityJson := req.agentIdentityJson
    metadataJson := [("durable_claim", .bool true), ("scheduled_for", .int scheduledFor)]
    claimToken := some req.claimToken
    claimVersion := w.claimVersion + 1
    claimExpiresAt := some req.leaseExpiresAt
    scheduledFor := some scheduledFor }

/-- What a call leaves: `none` when it raised and was rolled back. -/
abbrev SchedulerOutcome := Option Scheduler

/-- `claim_due_scheduler_workflow`. The rows stay locked between the queries,
so the re-read and the update meet what the first query saw. -/
def claimDueSchedulerWorkflow (s : Scheduler) (req : ClaimRequest) : SchedulerOutcome :=
  match s.workflows.get? req.workflowId with
  | none => some s
  | some w =>
    match w.nextRunAt with
    | none => some s
    | some scheduledFor =>
      -- a workflow that is not due, or whose lock is taken, is passed over
      if w.dueAt req.checkedAt ∧ req.advisoryLockFree then
        (s.runs.insert? (claimedRun req w scheduledFor (env.timestamp (s.reads + 1)))).map
          fun runs =>
            { s with
              workflows := s.workflows.rewrite req.workflowId
                (claimWorkflow req (env.timestamp s.reads))
              runs := runs
              reads := s.reads + 2 }
      else some s

/-- The lease of a run, set. -/
def renewRun (leaseExpiresAt : Int) : Rewrite SchedulerRun.id where
  apply r := { r with claimExpiresAt := some leaseExpiresAt }

/-- The lease of a workflow, set. -/
def renewWorkflow (leaseExpiresAt now : Int) : Rewrite WorkflowRow.id where
  apply w := { w with claimExpiresAt := some leaseExpiresAt, updatedAt := now }

/-- `heartbeat_scheduler_claim`. The lease of a claim is extended by whoever still holds
it. -/
def heartbeatSchedulerClaim (s : Scheduler) (fence : ClaimFence) (leaseExpiresAt : Int) :
    SchedulerOutcome :=
  match s.eligible fence (env.timestamp s.reads) with
  | none => some { s with reads := s.reads + 1 }
  | some (r, w) =>
    some { s with
      runs := s.runs.rewrite r.id (renewRun leaseExpiresAt)
      workflows := s.workflows.rewrite w.id
        (renewWorkflow leaseExpiresAt (env.timestamp (s.reads + 1)))
      reads := s.reads + 2 }

/-! ### Ends of a run -/

/-- The arguments of `finalize_scheduler_claim` beside the fence. -/
structure FinalizeRequest where
  artifactId : Option String := none
  errorMessage : Option String := none
  nextRunAt : Option Int := none
  metadataJson : Dict Json := []

/-- What a finalization writes into the run. -/
def finalizeRun (status : RunStatus) (req : FinalizeRequest) (now : Int) :
    Rewrite SchedulerRun.id where
  apply r := { r with
    status := status
    finishedAt := some now
    artifactId := req.artifactId
    errorMessage := req.errorMessage
    claimToken := none
    claimExpiresAt := none
    metadataJson := r.metadataJson.update req.metadataJson }

/-- What a finalization writes into the workflow. -/
def finalizeWorkflow (status : RunStatus) (runId : String) (req : FinalizeRequest) (now : Int) :
    Rewrite WorkflowRow.id where
  apply w := { w with
    lastRunId := some runId
    lastRunAt := some now
    lastResult := some status.text
    lastError := req.errorMessage
    nextRunAt := req.nextRunAt
    claimToken := none
    claimExpiresAt := none
    updatedAt := now }

/-- `finalize_scheduler_claim`, for the two statuses it admits: the tables it
leaves, if the claim is still live. -/
def finalizeSchedulerClaim (s : Scheduler) (fence : ClaimFence) (status : RunStatus)
    (req : FinalizeRequest) : Option Scheduler :=
  (s.eligible fence (env.timestamp s.reads)).map fun (r, w) =>
    { s with
      runs := s.runs.rewrite r.id (finalizeRun status req (env.timestamp (s.reads + 1)))
      workflows := s.workflows.rewrite w.id
        (finalizeWorkflow status r.id req (env.timestamp (s.reads + 1)))
      reads := s.reads + 2 }

/-- The publication transaction. `lock_scheduler_claim_for_publish` checks the
fence and locks the two rows; `plan.publish` executes the staged writes, or
raises; `finalize_scheduler_claim` checks the fence once more. When the lease ran
out in between, the transaction raises and takes the staged writes back. -/
def publishClaim (s : Scheduler) (fence : ClaimFence) (publishes : Bool) (req : FinalizeRequest) :
    SchedulerOutcome :=
  match s.eligible fence (env.timestamp s.reads) with
  | none => some { s with reads := s.reads + 1 }
  | some (r, _) =>
    if publishes then
      finalizeSchedulerClaim env
        { s with published := s.published ++ [r.id], reads := s.reads + 1 } fence .succeeded req
    else none

/-- The failure finalization. A claim that is gone leaves nothing to do. -/
def failClaim (s : Scheduler) (fence : ClaimFence) (req : FinalizeRequest) : SchedulerOutcome :=
  some ((finalizeSchedulerClaim env s fence .failed req).getD { s with reads := s.reads + 1 })

/-- What the reaper writes into a run. -/
def reapRun (referenceTime now : Int) : Rewrite SchedulerRun.id where
  apply r := { r with
    status := .failed
    finishedAt := some now
    errorMessage := some (r.errorMessage.getD "scheduler claim lease expired")
    claimToken := none
    claimExpiresAt := none
    metadataJson := r.metadataJson.update
      [("claim_reaped", .bool true), ("claim_reaped_at", .int referenceTime)] }

/-- What the reaper writes into the workflow of the run, if it still holds the
run's claim. The version stays. -/
def reapWorkflow (r : SchedulerRun) (now : Int) : Rewrite WorkflowRow.id where
  apply w :=
    if w.claimToken = r.claimToken ∧ w.claimVersion = r.claimVersion then
      { w with
        lastRunId := some r.id
        lastRunAt := some now
        lastResult := some "failed"
        lastError := some (r.errorMessage.getD "scheduler claim lease expired")
        claimToken := none
        claimExpiresAt := none
        updatedAt := now }
    else w
  key_apply w := by split <;> rfl

/-- The run is one the reaper takes. -/
def SchedulerRun.expired (r : SchedulerRun) (referenceTime : Int) : Bool :=
  r.status == .started && r.claimToken.isSome
    && r.claimExpiresAt.any fun t => decide (t ≤ referenceTime)

/-- Reap one run. -/
def reapOne (referenceTime : Int) (s : Scheduler) (runId : String) : Scheduler :=
  match s.runs.get? runId with
  | none => s
  | some r =>
    if r.expired referenceTime then
      { s with
        runs := s.runs.rewrite runId (reapRun referenceTime (env.timestamp s.reads))
        workflows := s.workflows.rewrite r.workflowId (reapWorkflow r (env.timestamp s.reads))
        reads := s.reads + 1 }
    else s

/-- `reap_expired_scheduler_claims`. `runIds` are the runs the query returns:
at most `limit` expired ones that nobody else has locked. -/
def reapExpiredSchedulerClaims (s : Scheduler) (referenceTime : Int) (limit : Nat)
    (runIds : List String) : SchedulerOutcome :=
  if limit < 1 then none
  else some ((runIds.take limit).foldl (reapOne env referenceTime) s)

/-! ### Configuration -/

/-- The columns `upsert_scheduler_workflow` is handed. -/
structure WorkflowUpsert where
  /-- The id a new row gets. -/
  id : String
  workflowType : String
  enabled : Option Bool := none
  paused : Option Bool := none
  scheduleJson : Dict Json := []
  timezone : Option String := none
  nextRunAt : Option Int := none
  metadataJson : Dict Json := []

/-- The row `INSERT` proposes. -/
def WorkflowUpsert.row (up : WorkflowUpsert) (now : Int) : WorkflowRow :=
  { id := up.id
    workflowType := up.workflowType
    enabled := up.enabled.getD false
    paused := up.paused.getD false
    scheduleJson := up.scheduleJson
    timezone := up.timezone.getD "UTC"
    nextRunAt := up.nextRunAt
    metadataJson := up.metadataJson
    updatedAt := now }

/-- What `DO UPDATE` sets. The claim is cleared and its version retired. -/
def upsertRewrite (excluded : WorkflowRow) (now : Int) : Rewrite WorkflowRow.id where
  apply w := { w with
    enabled := excluded.enabled
    paused := excluded.paused
    scheduleJson := excluded.scheduleJson
    timezone := excluded.timezone
    nextRunAt := excluded.nextRunAt
    metadataJson := w.metadataJson.update excluded.metadataJson
    claimToken := none
    claimVersion := w.claimVersion + 1
    claimExpiresAt := none
    updatedAt := now }

/-- The `WHERE` of `DO UPDATE`: something differs. -/
def upsertChanges (w excluded : WorkflowRow) : Bool :=
  w.enabled != excluded.enabled || w.paused != excluded.paused
    || env.jsonbDistinct w.scheduleJson excluded.scheduleJson
    || w.timezone != excluded.timezone || decide (w.nextRunAt ≠ excluded.nextRunAt)
    || !env.jsonbContains w.metadataJson excluded.metadataJson

/-- The row of a workflow type. -/
def Scheduler.ofType (s : Scheduler) (workflowType : String) : Option WorkflowRow :=
  s.workflows.rows.find? fun w => w.workflowType = workflowType

/-- `upsert_scheduler_workflow`. A workflow is configured anew, and its version grows
only if that changes anything. -/
def upsertSchedulerWorkflow (s : Scheduler) (up : WorkflowUpsert) : SchedulerOutcome :=
  let excluded := up.row (env.timestamp s.reads)
  match s.ofType up.workflowType with
  | none =>
    (s.workflows.insert? excluded).map fun workflows =>
      { s with workflows := workflows, reads := s.reads + 1 }
  | some w =>
    if upsertChanges env w excluded then
      some { s with
        workflows := s.workflows.rewrite w.id
          (upsertRewrite excluded (env.timestamp (s.reads + 1)))
        reads := s.reads + 2 }
    else some { s with reads := s.reads + 1 }

/-- The patch of `update_scheduler_workflow`: which keys it has, and with what
value. -/
structure WorkflowPatch where
  enabled : Option (Option Bool) := none
  paused : Option (Option Bool) := none
  scheduleJson : Option (Dict Json) := none
  timezone : Option (Option String) := none
  nextRunAt : Option (Option Int) := none
  lastRunId : Option (Option String) := none
  lastRunAt : Option (Option Int) := none
  lastResult : Option (Option String) := none
  lastError : Option (Option String) := none
  metadataJson : Option (Dict Json) := none

/-- `preserve_live_claim`: the patch reports the result of a manual run and
nothing else. -/
def WorkflowPatch.preservesClaim (patch : WorkflowPatch) : Bool :=
  patch.lastRunId.isSome && patch.enabled.isNone && patch.paused.isNone
    && patch.scheduleJson.isNone && patch.timezone.isNone && patch.metadataJson.isNone

/-- `COALESCE(patch.get(key), column)`. -/
def coalescePatch {α : Type} (value : Option (Option α)) (column : α) : α :=
  (value.join).getD column

/-- What `update_scheduler_workflow` sets. -/
def WorkflowPatch.rewrite (patch : WorkflowPatch) (now : Int) : Rewrite WorkflowRow.id where
  apply w := { w with
    enabled := coalescePatch patch.enabled w.enabled
    paused := coalescePatch patch.paused w.paused
    scheduleJson := patch.scheduleJson.getD w.scheduleJson
    timezone := coalescePatch patch.timezone w.timezone
    nextRunAt := patch.nextRunAt.getD w.nextRunAt
    lastRunId := patch.lastRunId.join <|> w.lastRunId
    lastRunAt := patch.lastRunAt.join <|> w.lastRunAt
    lastResult := patch.lastResult.join <|> w.lastResult
    lastError := patch.lastError.getD w.lastError
    metadataJson := patch.metadataJson.getD w.metadataJson
    claimToken := if patch.preservesClaim then w.claimToken else none
    claimVersion := w.claimVersion + if patch.preservesClaim then 0 else 1
    claimExpiresAt := if patch.preservesClaim then w.claimExpiresAt else none
    updatedAt := now }

/-- `update_scheduler_workflow`. -/
def updateSchedulerWorkflow (s : Scheduler) (workflowType : String) (patch : WorkflowPatch) :
    SchedulerOutcome :=
  (s.ofType workflowType).map fun w =>
    { s with
      workflows := s.workflows.rewrite w.id (patch.rewrite (env.timestamp s.reads))
      reads := s.reads + 1 }

/-! ### Calls -/

inductive SchedulerCall where
  | claim (req : ClaimRequest)
  | heartbeat (fence : ClaimFence) (leaseExpiresAt : Int)
  | publish (fence : ClaimFence) (publishes : Bool) (req : FinalizeRequest)
  | fail (fence : ClaimFence) (req : FinalizeRequest)
  | reap (referenceTime : Int) (limit : Nat) (runIds : List String)
  | upsert (up : WorkflowUpsert)
  | update (workflowType : String) (patch : WorkflowPatch)

def SchedulerCall.perform (s : Scheduler) : SchedulerCall → SchedulerOutcome
  | claim req => claimDueSchedulerWorkflow env s req
  | heartbeat fence leaseExpiresAt => heartbeatSchedulerClaim env s fence leaseExpiresAt
  | publish fence publishes req => publishClaim env s fence publishes req
  | fail fence req => failClaim env s fence req
  | reap referenceTime limit runIds => reapExpiredSchedulerClaims env s referenceTime limit runIds
  | upsert up => upsertSchedulerWorkflow env s up
  | update workflowType patch => updateSchedulerWorkflow env s workflowType patch

/-- One call, rolled back when it raises. -/
def SchedulerCall.serve (s : Scheduler) (call : SchedulerCall) : Scheduler :=
  (call.perform env s).getD s

/-- The scheduler moves by serving calls. -/
def SchedulerStep (s : Scheduler) (call : SchedulerCall) (t : Scheduler) : Prop :=
  t = call.serve env s

end AliceBot
