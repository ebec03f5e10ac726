import AliceBot.ExecutionBudgets
import AliceBot.GovernedTasks
import AliceBot.Library.Run
import Mathlib.Logic.Function.Basic

/-!
# Races between executions

`execute_approved_proxy_request`, statement by statement, in any number of
sessions. A session reads what is committed. It takes the lock of the approval's
task and holds it to the end of its transaction; the approval row is read before
the lock, and the executions that a budget counts are those of all tasks.

Two things can be out of date, then. A call that has read the approval before
another one linked it to a run links it to its own run, and looks for an earlier
execution under that run (`LinkCurrent` is broken). And a call on another task
can commit an execution that the budget counts between the evaluation and the
commit, so that both calls are let through on the same room (`CountCurrent` is
broken). In every run without such steps the budgets hold, and a tool with side
effects completes once for an approval (`executions_within_budgets`).

The budgets hold by the count check of `evaluate_execution_budget`: it has found
room for one more (`DecisionOk`), and what it counted is what the budget counts
when the execution is committed. That a tool completes once holds by the lock:
while a session holds the lock of a task, no other session commits an execution
for an approval of that task, so what was found out under the lock is still true
at the commit.
-/

namespace AliceBot

open PyLib

/-! ### Calls and their stages -/

/-- The columns of `approvals` that no execution changes. -/
structure ProxyApproval where
  taskStepId : Option String
  threadId : String
  approved : Bool
  toolKey : String
  request : Dict Json

/-- The tables that no execution changes. -/
structure ProxyEnv extends BudgetEnv where
  approval : String → Option ProxyApproval
  /-- `get_task_by_approval_optional`. -/
  taskByApproval : String → Option String
  /-- A step: its task, and the approval its outcome names. -/
  taskStep : String → Option (String × Option String)
  /-- The task of a run. -/
  runTask : String → Option String
  /-- `_build_idempotency_key`, of the run, the approval and its columns. -/
  idempotencyKey : String → String → ProxyApproval → String
  /-- `submit_approval_request` stores an approval with the thread its request
  names. -/
  named : ∀ id row, approval id = some row →
    requestThreadId toBudgetEnv row.request = some row.threadId

/-- `ProxyExecutionRequestInput`. -/
structure ProxyCall where
  approvalId : String
  taskRunId : Option String
deriving DecidableEq

/-- The run a call executes under, its idempotency key, and whether it sets the
run on the approval. -/
structure RunLink where
  taskRunId : Option String
  key : Option String
  sets : Bool

/-- What an evaluation of the budgets went by: its time, and the executions that
were committed when it listed them. -/
structure BudgetEvaluation where
  time : Int
  executions : List ProxyExecutionRow

/-- How far a call has come. -/
inductive ProxyStage where
  | begun
  | read (seen : Option String)
  | locked (seen : Option String) (task : String)
  | linked (link : RunLink)
  /-- No earlier execution was found. -/
  | fresh (link : RunLink)
  | counted (link : RunLink) (decision : BudgetDecision) (evaluation : BudgetEvaluation)
  | wrote (link : RunLink) (decision : BudgetDecision) (evaluation : BudgetEvaluation)
    (row : ProxyExecutionRow)
  /-- Replayed or refused; the link is committed where there is one. -/
  | ended (link : Option RunLink)

/-- The stage is under the lock, on the way to an execution. -/
def ProxyStage.holdsLock : ProxyStage → Bool
  | .begun => false
  | .read _ => false
  | .locked _ _ => true
  | .linked _ => true
  | .fresh _ => true
  | .counted _ _ _ => true
  | .wrote _ _ _ _ => true
  | .ended _ => false

/-- What is committed, the locks, and the sessions in a call. -/
structure ProxyState where
  /-- `approvals.task_run_id`. -/
  taskRunOf : String → Option String
  executions : List ProxyExecutionRow := []
  lockedBy : String → Option Nat := fun _ => none
  session : Nat → Option (ProxyCall × ProxyStage) := fun _ => none

/-- A statement of a session, or the end of its transaction. -/
inductive ProxyAction where
  | begin (session : Nat) (call : ProxyCall)
  | readApproval (session : Nat)
  | lock (session : Nat)
  | link (session : Nat)
  | lookup (session : Nat)
  | evaluate (session : Nat) (evaluationTime : Int)
  | write (session : Nat) (executedAt : Int)
  | commit (session : Nat)
  | rollback (session : Nat)

section Steps

variable (env : ProxyEnv)

/-- The tool can have side effects. -/
def sideEffectCapable (toolKey : String) : Bool :=
  (registeredProxyHandler toolKey).any ProxyHandlerSpec.sideEffectCapable

/-- `validate_linked_task_step_for_approval`, under the lock. -/
def linkedStepValid (approvalId task : String) (row : ProxyApproval) : Bool :=
  match row.taskStepId.bind env.taskStep with
  | some (stepTask, outcomeApproval) => stepTask == task && outcomeApproval == some approvalId
  | none => false

/-- `_resolve_task_run_linkage`: the run, and whether the approval is set to it;
`none` where it raises. -/
def resolveRunLink (task : String) (seen requested : Option String) :
    Option (Option String × Bool) :=
  match requested <|> seen with
  | none => some (none, false)
  | some linked =>
    match env.runTask linked with
    | none => none
    | some runTask =>
      if runTask ≠ task then none
      else
        match seen with
        | none => some (some linked, true)
        | some own => if own = linked then some (some linked, false) else none

/-- The idempotency key; `none` where a tool with side effects has no run. -/
def proxyKey (approvalId : String) (row : ProxyApproval) (taskRunId : Option String) :
    Option (Option String) :=
  if sideEffectCapable row.toolKey then
    match taskRunId with
    | none => none
    | some run => some (some (env.idempotencyKey run approvalId row))
  else some none

/-- `get_tool_execution_by_idempotency_optional` finds something. -/
def executedBefore (rows : List ProxyExecutionRow) (approvalId : String) (link : RunLink) : Bool :=
  link.taskRunId.isSome && link.key.isSome
    && rows.any fun row => row.taskRunId == link.taskRunId && row.approvalId == approvalId
      && row.idempotencyKey == link.key

/-- The row a call inserts. Every registered handler completes. -/
def executionRow (call : ProxyCall) (row : ProxyApproval) (link : RunLink)
    (decision : BudgetDecision) (executedAt : Int) : ProxyExecutionRow where
  approvalId := call.approvalId
  taskRunId := link.taskRunId
  threadId := row.threadId
  toolKey := row.toolKey
  request := row.request
  completed := !decision.blocks && (registeredProxyHandler row.toolKey).isSome
  idempotencyKey := link.key
  executedAt := executedAt

namespace ProxyState

/-- The session goes on to a stage. -/
def go (s : ProxyState) (i : Nat) (call : ProxyCall) (stage : ProxyStage) : ProxyState :=
  { s with session := Function.update s.session i (some (call, stage)) }

/-- The transaction is over: its locks are released. -/
def leave (s : ProxyState) (i : Nat) : ProxyState :=
  { s with
    session := Function.update s.session i none
    lockedBy := fun task => if s.lockedBy task = some i then none else s.lockedBy task }

@[simp] theorem session_go_self (s : ProxyState) (i : Nat) (call : ProxyCall)
    (stage : ProxyStage) : (s.go i call stage).session i = some (call, stage) :=
  Function.update_self ..

theorem session_go_of_ne (s : ProxyState) {i j : Nat} (call : ProxyCall) (stage : ProxyStage)
    (h : j ≠ i) : (s.go i call stage).session j = s.session j :=
  Function.update_of_ne h ..

@[simp] theorem session_leave_self (s : ProxyState) (i : Nat) : (s.leave i).session i = none :=
  Function.update_self ..

theorem session_leave_of_ne (s : ProxyState) {i j : Nat} (h : j ≠ i) :
    (s.leave i).session j = s.session j :=
  Function.update_of_ne h ..

/-- The approval is set to the run, where the call has set it. -/
def publishLink (s : ProxyState) (call : ProxyCall) (link : RunLink) : ProxyState :=
  if link.sets then
    { s with taskRunOf := Function.update s.taskRunOf call.approvalId link.taskRunId }
  else s

/-- The lock of the task is taken, unless another session has it. -/
def takeLock (s : ProxyState) (i : Nat) (call : ProxyCall) (seen : Option String)
    (task : String) : Option ProxyState :=
  if (s.lockedBy task).isSome then none
  else some ({ s with lockedBy := Function.update s.lockedBy task (some i) }.go i call
    (.locked seen task))

/-- `_resolve_task_run_linkage` and `_build_idempotency_key`. A call that raises
leaves its transaction to be committed. -/
def resolve (s : ProxyState) (i : Nat) (call : ProxyCall) (row : ProxyApproval)
    (seen : Option String) (task : String) : ProxyState :=
  if linkedStepValid env call.approvalId task row then
    match resolveRunLink env task seen call.taskRunId with
    | none => s.go i call (.ended none)
    | some (run, sets) =>
      match proxyKey env call.approvalId row run with
      | none => s.go i call (.ended (some ⟨run, none, sets⟩))
      | some key => s.go i call (.linked ⟨run, key, sets⟩)
  else s.go i call (.ended none)

/-- The insert. The unique index on the run, the approval and the key ends the
transaction where the key is taken. -/
def insertRow (s : ProxyState) (i : Nat) (call : ProxyCall) (row : ProxyApproval)
    (link : RunLink) (decision : BudgetDecision) (evaluation : BudgetEvaluation)
    (executedAt : Int) : ProxyState :=
  if executedBefore s.executions call.approvalId link then s.leave i
  else s.go i call (.wrote link decision evaluation
    (executionRow call row link decision executedAt))

end ProxyState

/-- One statement, `none` where it has to wait or is not the next one. -/
def proxyStep (s : ProxyState) : ProxyAction → Option ProxyState
  | .begin i call => if (s.session i).isSome then none else some (s.go i call .begun)
  | .readApproval i =>
    match s.session i with
    | some (call, .begun) =>
      -- an approval that is not there ends the transaction
      if (env.approval call.approvalId).isSome then
        some (s.go i call (.read (s.taskRunOf call.approvalId)))
      else some (s.leave i)
    | _ => none
  | .lock i =>
    match s.session i with
    | some (call, .read seen) =>
      match (env.approval call.approvalId).bind ProxyApproval.taskStepId,
        env.taskByApproval call.approvalId with
      | some _, some task => s.takeLock i call seen task
      | _, _ => some (s.go i call (.ended none))
    | _ => none
  | .link i =>
    match s.session i with
    | some (call, .locked seen task) =>
      (env.approval call.approvalId).map fun row => s.resolve env i call row seen task
    | _ => none
  | .lookup i =>
    match s.session i with
    | some (call, .linked link) =>
      (env.approval call.approvalId).map fun row =>
        if row.approved && !executedBefore s.executions call.approvalId link then
          s.go i call (.fresh link)
        else s.go i call (.ended (some link))
    | _ => none
  | .evaluate i evaluationTime =>
    match s.session i with
    | some (call, .fresh link) =>
      (env.approval call.approvalId).map fun row =>
        s.go i call (.counted link (evaluateExecutionBudget env.toBudgetEnv row.toolKey row.request
          evaluationTime s.executions) ⟨evaluationTime, s.executions⟩)
    | _ => none
  | .write i executedAt =>
    match s.session i with
    | some (call, .counted link decision evaluation) =>
      (env.approval call.approvalId).map fun row =>
        s.insertRow i call row link decision evaluation executedAt
    | _ => none
  | .commit i =>
    match s.session i with
    | some (call, .wrote link _ _ row) =>
      some (({ s with executions := s.executions ++ [row] }.publishLink call link).leave i)
    | some (call, .ended (some link)) => some ((s.publishLink call link).leave i)
    | some (_, .ended none) => some (s.leave i)
    | _ => none
  | .rollback i => if (s.session i).isSome then some (s.leave i) else none

/-- Nobody is in a call, and nothing was executed. -/
def ProxyStart (s : ProxyState) : Prop :=
  s.executions = [] ∧ (∀ task, s.lockedBy task = none) ∧ ∀ i, s.session i = none

/-- A completed execution of an approval. -/
def CompletedFor (approvalId : String) (row : ProxyExecutionRow) : Prop :=
  row.completed = true ∧ row.approvalId = approvalId

instance (approvalId : String) : DecidablePred (CompletedFor approvalId) := fun row =>
  inferInstanceAs (Decidable (row.completed = true ∧ row.approvalId = approvalId))

/-- A tool with side effects has completed at most once for an approval. -/
def SideEffectsOnce (rows : List ProxyExecutionRow) : Prop :=
  ∀ approvalId, (rows.filter fun row =>
    decide (CompletedFor approvalId row) && sideEffectCapable row.toolKey).length ≤ 1

/-- The run that a call links is that of the completed executions of its
approval, if there are any. -/
def LinkCurrent (s : ProxyState) : ProxyAction → Prop
  | .link i => ∀ call seen task row run sets, s.session i = some (call, .locked seen task) →
      env.approval call.approvalId = some row → sideEffectCapable row.toolKey = true →
      resolveRunLink env task seen call.taskRunId = some (some run, sets) →
      ∀ execution ∈ s.executions, CompletedFor call.approvalId execution →
        execution.taskRunId = some run
  | _ => True

/-- When an execution is committed, its budget counts what the evaluation has
counted: nothing that it counts was committed since. Where the clock of the
insert is behind that of the evaluation the window is taken from the insert, so
that it reaches back as far as any window that the new row is in. -/
def CountCurrent (s : ProxyState) : ProxyAction → Prop
  | .commit i => ∀ call link profileId budget evaluation row,
      s.session i = some (call, .wrote link (.withinBudget profileId budget) evaluation row) →
      row.completed = true →
      countedRows env.toBudgetEnv budget profileId (min evaluation.time row.executedAt)
          s.executions =
        countedRows env.toBudgetEnv budget profileId evaluation.time evaluation.executions
  | _ => True

/-- A step that acts on nothing out of date. -/
def CurrentProxyStep (s : ProxyState) (action : ProxyAction) (t : ProxyState) : Prop :=
  proxyStep env s action = some t ∧ LinkCurrent env s action ∧ CountCurrent env s action

end Steps

/-! ### The invariant -/

section Invariant

variable (env : ProxyEnv)

/-- The decision is that of the budgets for the request. A budget that lets the
request through has room for one more, by what the evaluation counted. -/
def DecisionOk (toolKey : String) (request : Dict Json) (evaluation : BudgetEvaluation) :
    BudgetDecision → Prop
  | .withinBudget profileId budget =>
    requestProfileId env.toBudgetEnv request = some profileId ∧
      matchedBudget env.toBudgetEnv profileId toolKey (domainHintOf request) = some budget ∧
      (countedRows env.toBudgetEnv budget profileId evaluation.time evaluation.executions).length
        < budget.maxCompletedExecutions
  | .noMatchingBudget => ∃ profileId, requestProfileId env.toBudgetEnv request = some profileId ∧
      matchedBudget env.toBudgetEnv profileId toolKey (domainHintOf request) = none
  | _ => True

/-- A tool with side effects is executed under a run and its key, and the
approval has completed under no other run. -/
def LinkOk (rows : List ProxyExecutionRow) (call : ProxyCall) (link : RunLink) : Prop :=
  ∀ approval, env.approval call.approvalId = some approval →
    sideEffectCapable approval.toolKey = true →
    ∃ run, link.taskRunId = some run ∧
      link.key = some (env.idempotencyKey run call.approvalId approval) ∧
      ∀ row ∈ rows, CompletedFor call.approvalId row → row.taskRunId = some run

/-- A tool with side effects has not completed for the approval. -/
def NotExecuted (rows : List ProxyExecutionRow) (call : ProxyCall) : Prop :=
  ∀ approval, env.approval call.approvalId = some approval →
    sideEffectCapable approval.toolKey = true → ∀ row ∈ rows, ¬ CompletedFor call.approvalId row

/-- The row is that of the call. -/
def WrittenBy (call : ProxyCall) (link : RunLink) (decision : BudgetDecision)
    (evaluation : BudgetEvaluation) (row : ProxyExecutionRow) : Prop :=
  ∃ approval, env.approval call.approvalId = some approval ∧
    row = executionRow call approval link decision row.executedAt ∧
    DecisionOk env approval.toolKey approval.request evaluation decision

/-- What a call has found out so far, which is still true. -/
def StageOk (rows : List ProxyExecutionRow) (call : ProxyCall) : ProxyStage → Prop
  | .linked link => LinkOk env rows call link
  | .fresh link => LinkOk env rows call link ∧ NotExecuted env rows call
  | .counted link decision evaluation => LinkOk env rows call link ∧ NotExecuted env rows call ∧
      ∃ approval, env.approval call.approvalId = some approval ∧
        DecisionOk env approval.toolKey approval.request evaluation decision
  | .wrote link decision evaluation row => LinkOk env rows call link ∧
      NotExecuted env rows call ∧ WrittenBy env call link decision evaluation row
  | _ => True

/-- A committed row is of an approval. -/
def RowOk (row : ProxyExecutionRow) : Prop :=
  ∃ approval, env.approval row.approvalId = some approval ∧ row.threadId = approval.threadId ∧
    row.request = approval.request ∧ row.toolKey = approval.toolKey ∧
    (sideEffectCapable approval.toolKey = true → ∃ run, row.taskRunId = some run ∧
      row.idempotencyKey = some (env.idempotencyKey run row.approvalId approval))

/-- The session has the lock of its approval's task. -/
def HasLock (s : ProxyState) (i : Nat) (call : ProxyCall) : Prop :=
  ∃ task, env.taskByApproval call.approvalId = some task ∧ s.lockedBy task = some i

/-- What holds of every state that is reached by current steps. -/
structure ProxyInv (s : ProxyState) : Prop where
  rows : ∀ row ∈ s.executions, RowOk env row
  stages : ∀ i call stage, s.session i = some (call, stage) → StageOk env s.executions call stage
  locks : ∀ i call stage, s.session i = some (call, stage) → stage.holdsLock = true →
    HasLock env s i call
  budgets : BudgetsHold env.toBudgetEnv s.executions
  once : SideEffectsOnce s.executions

end Invariant

section Preserved

variable {env : ProxyEnv} {s t : ProxyState} {i : Nat} {call : ProxyCall}

/-- A stage does not notice an execution of another approval. -/
theorem StageOk.append {rows : List ProxyExecutionRow} {row : ProxyExecutionRow}
    {stage : ProxyStage} (h : StageOk env rows call stage)
    (hother : row.approvalId ≠ call.approvalId) : StageOk env (rows ++ [row]) call stage := by
  have hnot : ¬ CompletedFor call.approvalId row := fun hrow => hother hrow.2
  have hlink {link : RunLink} (hlink : LinkOk env rows call link) :
      LinkOk env (rows ++ [row]) call link := by
    intro approval happroval hcapable
    obtain ⟨run, hrun, hkey, hall⟩ := hlink approval happroval hcapable
    refine ⟨run, hrun, hkey, fun other hmem hfor => ?_⟩
    -- the new row is not one of the approval
    rcases List.mem_append.mp hmem with hold | hnew
    · exact hall other hold hfor
    · exact absurd (List.mem_singleton.mp hnew ▸ hfor) hnot
  have hfresh (hfresh : NotExecuted env rows call) : NotExecuted env (rows ++ [row]) call := by
    intro approval happroval hcapable other hmem hfor
    rcases List.mem_append.mp hmem with hold | hnew
    · exact hfresh approval happroval hcapable other hold hfor
    · exact hnot (List.mem_singleton.mp hnew ▸ hfor)
  cases stage with
  | linked link => exact hlink h
  | fresh link => exact ⟨hlink h.1, hfresh h.2⟩
  | counted link decision evaluation => exact ⟨hlink h.1, hfresh h.2.1, h.2.2⟩
  | wrote link decision evaluation row => exact ⟨hlink h.1, hfresh h.2.1, h.2.2⟩
  | begun => trivial
  | read seen => trivial
  | locked seen task => trivial
  | ended link => trivial

/-- A session goes on. -/
theorem ProxyInv.go {stage : ProxyStage} (h : ProxyInv env s)
    (hstage : StageOk env s.executions call stage)
    (hlock : stage.holdsLock = true → HasLock env s i call) :
    ProxyInv env (s.go i call stage) where
  rows := h.rows
  stages j call' stage' hsession := by
    -- the session that goes on, and the others, which are where they were
    by_cases hj : j = i
    · subst hj
      rw [ProxyState.session_go_self] at hsession
      obtain ⟨rfl, rfl⟩ := Prod.mk.inj (Option.some.inj hsession)
      exact hstage
    · rw [ProxyState.session_go_of_ne _ _ _ hj] at hsession
      exact h.stages j call' stage' hsession
  locks j call' stage' hsession hholds := by
    by_cases hj : j = i
    · subst hj
      rw [ProxyState.session_go_self] at hsession
      obtain ⟨rfl, rfl⟩ := Prod.mk.inj (Option.some.inj hsession)
      exact hlock hholds
    · rw [ProxyState.session_go_of_ne _ _ _ hj] at hsession
      exact h.locks j call' stage' hsession hholds
  budgets := h.budgets
  once := h.once

/-- A session ends: the others keep their locks. -/
theorem ProxyInv.leave (h : ProxyInv env s) (i : Nat) : ProxyInv env (s.leave i) where
  rows := h.rows
  stages j call stage hsession := by
    by_cases hj : j = i
    · subst hj
      rw [ProxyState.session_leave_self] at hsession
      exact absurd hsession (by simp)
    · rw [ProxyState.session_leave_of_ne _ hj] at hsession
      exact h.stages j call stage hsession
  locks j call stage hsession hholds := by
    by_cases hj : j = i
    · subst hj
      rw [ProxyState.session_leave_self] at hsession
      exact absurd hsession (by simp)
    · rw [ProxyState.session_leave_of_ne _ hj] at hsession
      obtain ⟨task, htask, hlocked⟩ := h.locks j call stage hsession hholds
      -- a lock of another session is not released
      have hother : s.lockedBy task ≠ some i := by
        rw [hlocked]
        exact fun heq => hj (Option.some.inj heq)
      exact ⟨task, htask, (if_neg hother).trans hlocked⟩
  budgets := h.budgets
  once := h.once

/-- Nothing depends on the runs the approvals are set to. -/
theorem ProxyInv.publishLink (h : ProxyInv env s) (call : ProxyCall) (link : RunLink) :
    ProxyInv env (s.publishLink call link) := by
  unfold ProxyState.publishLink
  split
  · exact ⟨h.rows, h.stages, h.locks, h.budgets, h.once⟩
  · exact h

/-- The lock of a task is taken by one session. -/
theorem ProxyInv.takeLock (h : ProxyInv env s) {seen : Option String} {task : String}
    (htask : env.taskByApproval call.approvalId = some task)
    (hstep : s.takeLock i call seen task = some t) : ProxyInv env t := by
  unfold ProxyState.takeLock at hstep
  split at hstep
  · exact absurd hstep (by simp)
  next hfree =>
  obtain rfl := Option.some.inj hstep
  have hlocks : ProxyInv env { s with lockedBy := Function.update s.lockedBy task (some i) } := by
    refine ⟨h.rows, h.stages, fun j call' stage hsession hholds => ?_, h.budgets, h.once⟩
    obtain ⟨other, hother, hlocked⟩ := h.locks j call' stage hsession hholds
    -- the lock that was free is not one that a session had
    have hne : other ≠ task := by
      rintro rfl
      rw [hlocked] at hfree
      exact hfree rfl
    exact ⟨other, hother, (Function.update_of_ne hne ..).trans hlocked⟩
  exact hlocks.go trivial fun _ => ⟨task, htask, Function.update_self ..⟩

/-- Resolving the link of a run keeps the invariant, if the link acts on nothing out of
date. -/
theorem ProxyInv.resolve (h : ProxyInv env s) {row : ProxyApproval} {seen : Option String}
    {task : String} (hsession : s.session i = some (call, .locked seen task))
    (hrow : env.approval call.approvalId = some row)
    (hcurrent : LinkCurrent env s (.link i)) :
    ProxyInv env (s.resolve env i call row seen task) := by
  have hlock := h.locks i call _ hsession rfl
  unfold ProxyState.resolve
  split
  · split
    · exact h.go trivial fun hholds => absurd hholds Bool.false_ne_true
    next run sets hresolve =>
    split
    · exact h.go trivial fun hholds => absurd hholds Bool.false_ne_true
    next key hkey =>
    refine h.go (fun approval happroval hcapable => ?_) fun _ => hlock
    obtain rfl := Option.some.inj (hrow.symm.trans happroval)
    unfold proxyKey at hkey
    rw [if_pos hcapable] at hkey
    cases run with
    | none => exact absurd hkey (by simp)
    | some run =>
      exact ⟨run, rfl, (Option.some.inj hkey).symm,
        hcurrent call seen task row run sets hsession hrow hcapable hresolve⟩
  · exact h.go trivial fun hholds => absurd hholds Bool.false_ne_true

/-- What was executed under the run and its key is found. -/
theorem notExecuted_of_lookup {link : RunLink} (h : ProxyInv env s)
    (hlink : LinkOk env s.executions call link)
    (hlookup : executedBefore s.executions call.approvalId link = false) :
    NotExecuted env s.executions call := by
  rintro approval happroval hcapable row hrow ⟨hcompleted, hid⟩
  obtain ⟨run, hrun, hkey, hall⟩ := hlink approval happroval hcapable
  obtain ⟨approval', happroval', -, -, -, hown⟩ := h.rows row hrow
  rw [hid, happroval] at happroval'
  obtain rfl := Option.some.inj happroval'
  obtain ⟨run', hrun', hkey'⟩ := hown hcapable
  -- the row was executed under the run of the link, so with the same key
  obtain rfl := Option.some.inj (hrun'.symm.trans (hall row hrow ⟨hcompleted, hid⟩))
  have hfound : executedBefore s.executions call.approvalId link = true := by
    unfold executedBefore
    rw [hrun, hkey]
    refine Bool.and_eq_true_iff.mpr ⟨rfl, List.any_eq_true.mpr ⟨row, hrow, ?_⟩⟩
    simp [hrun', hid, hkey']
  rw [hlookup] at hfound
  exact absurd hfound (by decide)

theorem decisionOk_evaluate (toolKey : String) (request : Dict Json)
    (evaluation : BudgetEvaluation) : DecisionOk env toolKey request evaluation
      (evaluateExecutionBudget env.toBudgetEnv toolKey request evaluation.time
        evaluation.executions) := by
  unfold evaluateExecutionBudget
  split
  · trivial
  next profileId hprofile =>
  split
  · next hnone => exact ⟨profileId, hprofile, hnone⟩
  next budget hbudget =>
  -- the count check of `evaluate_execution_budget`
  split
  · next hroom => exact ⟨hprofile, hbudget, hroom⟩
  · trivial

/-! ### The commit -/

/-- A new row is admitted under the budget that its call was decided by. -/
theorem admittedUnder_of_decisionOk {row : ProxyExecutionRow} {decision : BudgetDecision}
    {evaluation : BudgetEvaluation} {profileId : String} {budget : ExecutionBudgetRow}
    (hdecision : DecisionOk env row.toolKey row.request evaluation decision)
    (hallowed : decision.blocks = false)
    (hunder : admittedUnder env.toBudgetEnv row = some (profileId, budget)) :
    decision = .withinBudget profileId budget := by
  obtain ⟨hprofile, hbudget⟩ := admittedUnder_some hunder
  cases decision with
  | withinBudget profileId' budget' =>
    obtain ⟨hprofile', hbudget', -⟩ := hdecision
    obtain rfl := Option.some.inj (hprofile'.symm.trans hprofile)
    rw [Option.some.inj (hbudget'.symm.trans hbudget)]
  | noMatchingBudget =>
    obtain ⟨profileId', hprofile', hnone⟩ := hdecision
    obtain rfl := Option.some.inj (hprofile'.symm.trans hprofile)
    rw [hnone] at hbudget
    exact absurd hbudget (by simp)
  | invalidContext => exact absurd hallowed (by decide)
  | budgetExceeded budget' => exact absurd hallowed (by simp [BudgetDecision.blocks])

theorem requestThreadId_of_rowOk {row : ProxyExecutionRow} (h : RowOk env row) :
    requestThreadId env.toBudgetEnv row.request = some row.threadId := by
  obtain ⟨approval, happroval, hthread, hrequest, -, -⟩ := h
  rw [hrequest, hthread]
  exact env.named _ _ happroval

/-- Of two rows in one window, neither is older than the window before the
other. -/
theorem windowStart_le {budget : ExecutionBudgetRow} {start evaluationTime windowStart : Int}
    {row other : ProxyExecutionRow} (hother : withinWindow budget start other = true)
    (hrow : withinWindow budget start row = true)
    (hstart : windowStart ∈ windowStartedAt (min evaluationTime row.executedAt)
      budget.rollingWindowSeconds) : windowStart ≤ other.executedAt := by
  unfold withinWindow at hother hrow
  unfold windowStartedAt at hstart
  cases hwindow : budget.rollingWindowSeconds with
  | none =>
    rw [hwindow] at hstart
    exact absurd hstart (by simp)
  | some seconds =>
    rw [hwindow] at hother hrow hstart
    obtain ⟨hafter, -⟩ : start ≤ other.executedAt ∧ _ := of_decide_eq_true hother
    obtain ⟨-, hbefore⟩ : _ ∧ row.executedAt ≤ start + seconds * 1000000 := of_decide_eq_true hrow
    have heq : min evaluationTime row.executedAt - seconds * 1000000 = windowStart :=
      Option.some.inj hstart
    have hmin := min_le_right evaluationTime row.executedAt
    omega

/-- Every row that shares a window with the new one is counted. -/
theorem BudgetsHold.append {rows : List ProxyExecutionRow} {row : ProxyExecutionRow}
    (h : BudgetsHold env.toBudgetEnv rows) (hrows : ∀ other ∈ rows, RowOk env other)
    (hroom : row.completed = true → ∀ profileId budget,
      admittedUnder env.toBudgetEnv row = some (profileId, budget) → ∃ evaluationTime,
        (countedRows env.toBudgetEnv budget profileId (min evaluationTime row.executedAt)
          rows).length < budget.maxCompletedExecutions) :
    BudgetsHold env.toBudgetEnv (rows ++ [row]) := by
  intro profileId budget start
  have happend : admittedRows env.toBudgetEnv profileId budget (rows ++ [row]) =
      admittedRows env.toBudgetEnv profileId budget rows ++
        admittedRows env.toBudgetEnv profileId budget [row] := List.filter_append ..
  rw [happend, List.filter_append, List.length_append]
  by_cases hnew : row ∈ (admittedRows env.toBudgetEnv profileId budget [row]).filter
      (withinWindow budget start)
  · obtain ⟨hadmitted, hwindow⟩ := List.mem_filter.mp hnew
    obtain ⟨-, hadmitted⟩ := List.mem_filter.mp hadmitted
    obtain ⟨hcompleted, hunder⟩ := Bool.and_eq_true_iff.mp hadmitted
    obtain ⟨evaluationTime, hroom⟩ :=
      hroom hcompleted profileId budget (of_decide_eq_true hunder)
    have hone : ((admittedRows env.toBudgetEnv profileId budget [row]).filter
        (withinWindow budget start)).length ≤ 1 :=
      (List.length_filter_le _ _).trans (List.length_filter_le _ _)
    -- what the budget has admitted in the window is among what it counts again
    have hcounted : ((admittedRows env.toBudgetEnv profileId budget rows).filter
        (withinWindow budget start)).length ≤
        (countedRows env.toBudgetEnv budget profileId (min evaluationTime row.executedAt)
          rows).length := by
      rw [admittedRows, List.filter_filter, countedRows, ← List.countP_eq_length_filter,
        ← List.countP_eq_length_filter]
      refine List.countP_mono_left fun other hother hboth => ?_
      obtain ⟨hinside, hadmitted⟩ := Bool.and_eq_true_iff.mp hboth
      refine (List.mem_filter.mp (mem_countedRows_of_admitted
        (List.mem_filter.mpr ⟨hother, hadmitted⟩) (requestThreadId_of_rowOk (hrows other hother))
        fun windowStart hstart => ?_)).2
      exact windowStart_le hinside hwindow hstart
    omega
  · have hnone : ((admittedRows env.toBudgetEnv profileId budget [row]).filter
        (withinWindow budget start)) = [] := by
      refine List.eq_nil_iff_forall_not_mem.mpr fun other hother => hnew ?_
      have hsame := List.mem_of_mem_filter (List.mem_of_mem_filter hother)
      rwa [List.mem_singleton.mp hsame] at hother
    rw [hnone]
    exact h profileId budget start

theorem rowOk_of_writtenBy {link : RunLink} {decision : BudgetDecision}
    {evaluation : BudgetEvaluation} {row : ProxyExecutionRow} {rows : List ProxyExecutionRow}
    (hlink : LinkOk env rows call link)
    (hrow : WrittenBy env call link decision evaluation row) : RowOk env row := by
  obtain ⟨approval, happroval, heq, -⟩ := hrow
  rw [heq]
  refine ⟨approval, happroval, rfl, rfl, rfl, fun hcapable => ?_⟩
  obtain ⟨run, hrun, hkey, -⟩ := hlink approval happroval hcapable
  exact ⟨run, hrun, hkey⟩

/-- A tool with side effects that has not completed completes once. -/
theorem SideEffectsOnce.append {rows : List ProxyExecutionRow} {row : ProxyExecutionRow}
    (h : SideEffectsOnce rows)
    (hfirst : row.completed = true → sideEffectCapable row.toolKey = true →
      ∀ other ∈ rows, ¬ CompletedFor row.approvalId other) :
    SideEffectsOnce (rows ++ [row]) := by
  intro approvalId
  rw [List.filter_append, List.length_append]
  -- a row that counts is the first one of its approval
  by_cases hnew : (decide (CompletedFor approvalId row) && sideEffectCapable row.toolKey) = true
  · obtain ⟨hfor, hcapable⟩ := Bool.and_eq_true_iff.mp hnew
    obtain ⟨hcompleted, rfl⟩ := of_decide_eq_true hfor
    have hnone : (rows.filter fun other => decide (CompletedFor row.approvalId other) &&
        sideEffectCapable other.toolKey) = [] := by
      refine List.filter_eq_nil_iff.mpr fun other hother hboth => ?_
      exact hfirst hcompleted hcapable other hother
        (of_decide_eq_true (Bool.and_eq_true_iff.mp hboth).1)
    rw [hnone, List.length_nil, Nat.zero_add]
    exact List.length_filter_le _ _
  · have hnone : ([row].filter fun other => decide (CompletedFor approvalId other) &&
        sideEffectCapable other.toolKey) = [] := by
      refine List.filter_eq_nil_iff.mpr fun other hother => ?_
      rw [List.mem_singleton.mp hother]
      exact hnew
    rw [hnone]
    exact h approvalId

/-- The lock keeps the executions of an approval to one session. -/
theorem approvalId_ne_of_locks {call' : ProxyCall} {j : Nat} (hlock : HasLock env s i call)
    (hother : HasLock env s j call') (hne : j ≠ i) : call.approvalId ≠ call'.approvalId := by
  intro heq
  obtain ⟨task, htask, hlocked⟩ := hlock
  obtain ⟨task', htask', hlocked'⟩ := hother
  -- one approval has one task, and its lock one holder
  rw [← heq, htask] at htask'
  obtain rfl := Option.some.inj htask'
  rw [hlocked] at hlocked'
  exact hne (Option.some.inj hlocked').symm

theorem stageOk_of_not_holdsLock {stage : ProxyStage} (h : stage.holdsLock = false)
    (rows : List ProxyExecutionRow) : StageOk env rows call stage := by
  cases stage with
  | begun => trivial
  | read seen => trivial
  | ended link => trivial
  | locked seen task => exact absurd h (by simp [ProxyStage.holdsLock])
  | linked link => exact absurd h (by simp [ProxyStage.holdsLock])
  | fresh link => exact absurd h (by simp [ProxyStage.holdsLock])
  | counted link decision evaluation => exact absurd h (by simp [ProxyStage.holdsLock])
  | wrote link decision evaluation row => exact absurd h (by simp [ProxyStage.holdsLock])

/-- The commit of an execution whose budget counts what it did at the
evaluation: there is still the room that the evaluation found. The lock is what
lets the stages of the other sessions stand. -/
theorem ProxyInv.commit (h : ProxyInv env s) {link : RunLink} {decision : BudgetDecision}
    {evaluation : BudgetEvaluation} {row : ProxyExecutionRow}
    (hsession : s.session i = some (call, .wrote link decision evaluation row))
    (hcount : CountCurrent env s (.commit i)) :
    ProxyInv env (({ s with executions := s.executions ++ [row] }.publishLink call link).leave i)
    := by
  obtain ⟨hlink, hfirst, hwritten⟩ := h.stages i call _ hsession
  have hlock := h.locks i call _ hsession rfl
  have hrow := rowOk_of_writtenBy hlink hwritten
  obtain ⟨approval, happroval, heq, hdecision⟩ := hwritten
  have hid : row.approvalId = call.approvalId := by rw [heq]; rfl
  have htool : row.toolKey = approval.toolKey := by rw [heq]; rfl
  have hrequest : row.request = approval.request := by rw [heq]; rfl
  have hallowed : row.completed = true → decision.blocks = false := by
    rw [heq]
    intro hcompleted
    simpa using (Bool.and_eq_true_iff.mp hcompleted).1
  have happend : ProxyInv env { s.leave i with executions := s.executions ++ [row] } := by
    have hleft := h.leave i
    refine ⟨?_, ?_, hleft.locks, ?_, ?_⟩
    · -- every row is of an approval
      intro other hother
      rcases List.mem_append.mp hother with hold | hnew
      · exact h.rows other hold
      · rw [List.mem_singleton.mp hnew]
        exact hrow
    · -- a session that is under its lock is on another approval
      intro j call' stage hj
      have hne : j ≠ i := by
        rintro rfl
        exact absurd ((s.session_leave_self j).symm.trans hj) (by simp)
      have hj' : s.session j = some (call', stage) := (s.session_leave_of_ne hne).symm.trans hj
      cases hholds : stage.holdsLock with
      | false => exact stageOk_of_not_holdsLock hholds _
      | true =>
        refine (h.stages j call' stage hj').append ?_
        rw [hid]
        exact approvalId_ne_of_locks hlock (h.locks j call' stage hj' hholds) hne
    · -- the room that the evaluation found is there at the commit
      refine h.budgets.append h.rows fun hcompleted profileId budget hunder => ?_
      rw [← htool, ← hrequest] at hdecision
      obtain rfl := admittedUnder_of_decisionOk hdecision (hallowed hcompleted) hunder
      obtain ⟨-, -, hroom⟩ := hdecision
      have hsame := hcount call link profileId budget evaluation row hsession hcompleted
      refine ⟨evaluation.time, ?_⟩
      rw [hsame]
      exact hroom
    · -- nothing was executed for the approval when the session looked
      refine h.once.append fun _ hcapable other hother => ?_
      rw [hid]
      exact hfirst approval happroval (htool ▸ hcapable) other hother
  -- the link and the locks do not touch the executions
  have hsame : ({ s with executions := s.executions ++ [row] }.publishLink call link).leave i =
      { s.leave i with executions := s.executions ++ [row] }.publishLink call link := by
    unfold ProxyState.publishLink
    split <;> rfl
  rw [hsame]
  exact happend.publishLink call link

/-- What a current step keeps, by the statement it is. Up to the lock nothing is
known of a call; the link, the lookup and the evaluation each add what they found
out, and the commit turns that into what holds of the executions. -/
theorem ProxyInv.step {action : ProxyAction} (h : ProxyInv env s)
    (hstep : CurrentProxyStep env s action t) : ProxyInv env t := by
  obtain ⟨hstep, hlinkCurrent, hcountCurrent⟩ := hstep
  cases action with
  | begin i call =>
    dsimp only [proxyStep] at hstep
    split at hstep
    · exact absurd hstep (by simp)
    · obtain rfl := Option.some.inj hstep
      exact h.go trivial fun hholds => absurd hholds Bool.false_ne_true
  | readApproval i =>
    dsimp only [proxyStep] at hstep
    split at hstep
    · split at hstep
      · obtain rfl := Option.some.inj hstep
        exact h.go trivial fun hholds => absurd hholds Bool.false_ne_true
      · -- there is no such approval
        obtain rfl := Option.some.inj hstep
        exact h.leave i
    · exact absurd hstep (by simp)
  | lock i =>
    dsimp only [proxyStep] at hstep
    split at hstep
    · split at hstep
      · next htask => exact h.takeLock htask hstep
      · -- the approval has no step or no task: the call raises
        obtain rfl := Option.some.inj hstep
        exact h.go trivial fun hholds => absurd hholds Bool.false_ne_true
    · exact absurd hstep (by simp)
  | link i =>
    dsimp only [proxyStep] at hstep
    split at hstep
    · next call seen task hsession =>
      obtain ⟨row, hrow, rfl⟩ := Option.map_eq_some_iff.mp hstep
      exact h.resolve hsession hrow hlinkCurrent
    · exact absurd hstep (by simp)
  | lookup i =>
    dsimp only [proxyStep] at hstep
    split at hstep
    · next call link hsession =>
      obtain ⟨row, hrow, rfl⟩ := Option.map_eq_some_iff.mp hstep
      have hlink := h.stages i call _ hsession
      split
      · -- approved, and no execution under the run and its key
        next hfresh =>
        obtain ⟨-, hlookup⟩ := Bool.and_eq_true_iff.mp hfresh
        refine h.go ⟨hlink, notExecuted_of_lookup h hlink ?_⟩ fun _ => h.locks i call _ hsession rfl
        simpa using hlookup
      · exact h.go trivial fun hholds => absurd hholds Bool.false_ne_true
    · exact absurd hstep (by simp)
  | evaluate i evaluationTime =>
    dsimp only [proxyStep] at hstep
    split at hstep
    · next call link hsession =>
      obtain ⟨row, hrow, rfl⟩ := Option.map_eq_some_iff.mp hstep
      obtain ⟨hlink, hfirst⟩ := h.stages i call _ hsession
      exact h.go ⟨hlink, hfirst, row, hrow,
          decisionOk_evaluate row.toolKey row.request ⟨evaluationTime, s.executions⟩⟩
        fun _ => h.locks i call _ hsession rfl
    · exact absurd hstep (by simp)
  | write i executedAt =>
    dsimp only [proxyStep] at hstep
    split at hstep
    · next call link decision evaluation hsession =>
      obtain ⟨row, hrow, rfl⟩ := Option.map_eq_some_iff.mp hstep
      obtain ⟨hlink, hfirst, row', hrow', hdecision⟩ := h.stages i call _ hsession
      obtain rfl := Option.some.inj (hrow'.symm.trans hrow)
      unfold ProxyState.insertRow
      split
      · -- the unique index refuses the row
        exact h.leave i
      · exact h.go ⟨hlink, hfirst, row', hrow', rfl, hdecision⟩
          fun _ => h.locks i call _ hsession rfl
    · exact absurd hstep (by simp)
  | commit i =>
    dsimp only [proxyStep] at hstep
    split at hstep
    · next call link decision evaluation row hsession =>
      obtain rfl := Option.some.inj hstep
      exact h.commit hsession hcountCurrent
    · -- a call that ended without an execution commits its link, if it has one
      obtain rfl := Option.some.inj hstep
      exact (h.publishLink _ _).leave i
    · obtain rfl := Option.some.inj hstep
      exact h.leave i
    · exact absurd hstep (by simp)
  | rollback i =>
    dsimp only [proxyStep] at hstep
    split at hstep
    · obtain rfl := Option.some.inj hstep
      exact h.leave i
    · exact absurd hstep (by simp)

theorem proxyInv_start (h : ProxyStart s) : ProxyInv env s := by
  obtain ⟨hrows, -, hsession⟩ := h
  refine ⟨?_, fun j call stage hj => ?_, fun j call stage hj => ?_, fun p b start => ?_,
    fun approvalId => ?_⟩
  · rw [hrows]
    exact fun row hrow => absurd hrow List.not_mem_nil
  · rw [hsession j] at hj
    exact absurd hj (by simp)
  · rw [hsession j] at hj
    exact absurd hj (by simp)
  · rw [hrows]
    exact Nat.zero_le _
  · rw [hrows]
    exact Nat.zero_le _

end Preserved

/-- In a run of steps that act on nothing out of date no budget is overspent,
and a tool with side effects completes at most once for an approval. -/
theorem executions_within_budgets (env : ProxyEnv) (actions : List ProxyAction) (s : ProxyState)
    (run : Run (CurrentProxyStep env) ProxyStart actions s) :
    BudgetsHold env.toBudgetEnv s.executions ∧ SideEffectsOnce s.executions := by
  have hinv : ProxyInv env s :=
    run.invariant (fun _ hstart => proxyInv_start hstart) fun _ _ _ h hstep => h.step hstep
  exact ⟨hinv.budgets, hinv.once⟩

/-! ### Three approvals -/

/-- A request of a thread that has the default profile. -/
def threadRequest : Dict Json := [("thread_id", .str "thread")]

/-- One echo, for all time and for everybody. -/
def echoBudget : ExecutionBudgetRow where
  id := "budget"
  agentProfileId := none
  toolKey := some "proxy.echo"
  domainHint := none
  maxCompletedExecutions := 1
  rollingWindowSeconds := none
  active := true
  createdAt := 0

/-- Two tasks with an approved echo each, and one with an approved calendar event
and two runs. -/
def threeApprovals : ProxyEnv where
  uuid := some
  thread id := if id = "thread" then some none else none
  agentProfile id := id == "assistant_default"
  budgets := [echoBudget]
  approval id :=
    if id = "echo 1" then some ⟨some "step 1", "thread", true, "proxy.echo", threadRequest⟩
    else if id = "echo 2" then some ⟨some "step 2", "thread", true, "proxy.echo", threadRequest⟩
    else if id = "event" then
      some ⟨some "step 3", "thread", true, "proxy.calendar.draft_event", threadRequest⟩
    else none
  taskByApproval id :=
    if id = "echo 1" then some "task 1"
    else if id = "echo 2" then some "task 2"
    else if id = "event" then some "task 3"
    else none
  taskStep id :=
    if id = "step 1" then some ("task 1", some "echo 1")
    else if id = "step 2" then some ("task 2", some "echo 2")
    else if id = "step 3" then some ("task 3", some "event")
    else none
  runTask id := if id = "run 1" ∨ id = "run 2" then some "task 3" else none
  idempotencyKey run approvalId _ := run ++ " " ++ approvalId
  named id row h := by
    split at h
    · rw [← Option.some.inj h]; rfl
    split at h
    · rw [← Option.some.inj h]; rfl
    split at h
    · rw [← Option.some.inj h]; rfl
    · exact absurd h (by simp)

/-- No approval is linked to a run yet. -/
def nothingExecuted : ProxyState where
  taskRunOf _ := none
  executions := []

theorem nothingExecuted_start : ProxyStart nothingExecuted := ⟨rfl, fun _ => rfl, fun _ => rfl⟩

/-- A call up to its lock. -/
def proxyOpening (session : Nat) (call : ProxyCall) : List ProxyAction :=
  [.begin session call, .readApproval session]

/-- A call from its lock to its insert. -/
def proxyBody (session : Nat) (time : Int) : List ProxyAction :=
  [.lock session, .link session, .lookup session, .evaluate session time, .write session time]

/-- Both echoes are counted before either is committed, and both sessions read
the event's approval before either links it: the budget is overspent, and the
event is executed once for each run. -/
theorem executions_race :
    ∃ (env : ProxyEnv) (actions : List ProxyAction) (s : ProxyState)
      (actions' : List ProxyAction) (s' : ProxyState),
      Run (fun s action t => proxyStep env s action = some t) ProxyStart actions s ∧
      ¬ BudgetsHold env.toBudgetEnv s.executions ∧
      Run (fun s action t => proxyStep env s action = some t) ProxyStart actions' s' ∧
      ¬ SideEffectsOnce s'.executions := by
  have hany : ∀ s action t, proxyStep threeApprovals s action = some t → true = true →
      proxyStep threeApprovals s action = some t := fun _ _ _ hstep _ => hstep
  -- the locks are those of two tasks: no session waits for the other
  have echoes := (Run.start nothingExecuted_start).performAll hany
    (proxyOpening 1 ⟨"echo 1", none⟩ ++ proxyOpening 2 ⟨"echo 2", none⟩ ++ proxyBody 1 1 ++
      proxyBody 2 2 ++ [.commit 1, .commit 2]) (by decide +kernel)
  -- the second session has its lock after the first commit, but has read before it
  have events := (Run.start nothingExecuted_start).performAll hany
    (proxyOpening 1 ⟨"event", some "run 1"⟩ ++ proxyOpening 2 ⟨"event", some "run 2"⟩ ++
      proxyBody 1 1 ++ [.commit 1] ++ proxyBody 2 2 ++ [.commit 2]) (by decide +kernel)
  refine ⟨threeApprovals, _, _, _, _, echoes, fun hbudgets => ?_, events, fun honce => ?_⟩
  · exact absurd (hbudgets "assistant_default" echoBudget 0) (by decide +kernel)
  · exact absurd (honce "event") (by decide +kernel)

/-- Nothing is executed yet for the approval that is linked, and the budget of an
execution counts the same when it is committed as when it was evaluated. -/
def ProxyState.actsOnCurrent (env : ProxyEnv) (s : ProxyState) : ProxyAction → Bool
  | .link i => (s.session i).all fun session =>
      s.executions.all fun row => !decide (CompletedFor session.1.approvalId row)
  | .commit i =>
    match s.session i with
    | some (_, .wrote _ (.withinBudget profileId budget) evaluation row) =>
      decide (countedRows env.toBudgetEnv budget profileId (min evaluation.time row.executedAt)
          s.executions =
        countedRows env.toBudgetEnv budget profileId evaluation.time evaluation.executions)
    | _ => true
  | _ => true

/-- The condition on a step is decidable: a step that passes the check acts on nothing
out of date. -/
theorem currentProxyStep_of_actsOnCurrent {env : ProxyEnv} {s t : ProxyState}
    {action : ProxyAction} (hstep : proxyStep env s action = some t)
    (h : s.actsOnCurrent env action = true) : CurrentProxyStep env s action t := by
  refine ⟨hstep, ?_, ?_⟩
  · cases action with
    | link i =>
      intro call seen task row run sets hsession _ _ _ execution hmem hfor
      rw [ProxyState.actsOnCurrent, hsession] at h
      have hnot := List.all_eq_true.mp h execution hmem
      exact absurd hfor (of_decide_eq_false (by simpa using hnot))
    | _ => trivial
  · cases action with
    | commit i =>
      intro call link profileId budget evaluation row hsession _
      rw [ProxyState.actsOnCurrent, hsession] at h
      exact of_decide_eq_true h
    | _ => trivial

/-- One call after the other: the second echo is blocked, and so is not
completed. -/
theorem executions_in_turn :
    ∃ actions s, Run (CurrentProxyStep threeApprovals) ProxyStart actions s ∧
      s.executions.map ProxyExecutionRow.completed = [true, false, true] ∧
      BudgetsHold threeApprovals.toBudgetEnv s.executions ∧ SideEffectsOnce s.executions := by
  have hcurrent : ∀ s action t, proxyStep threeApprovals s action = some t →
      s.actsOnCurrent threeApprovals action = true →
      CurrentProxyStep threeApprovals s action t :=
    fun _ _ _ hstep hcheck => currentProxyStep_of_actsOnCurrent hstep hcheck
  have calls := (Run.start nothingExecuted_start).performAll hcurrent
    (proxyOpening 1 ⟨"echo 1", none⟩ ++ proxyBody 1 1 ++ [.commit 1] ++
      proxyOpening 2 ⟨"echo 2", none⟩ ++ proxyBody 2 2 ++ [.commit 2] ++
      proxyOpening 1 ⟨"event", some "run 1"⟩ ++ proxyBody 1 3 ++ [.commit 1]) (by decide +kernel)
  obtain ⟨hbudgets, honce⟩ := executions_within_budgets threeApprovals _ _ calls
  exact ⟨_, _, calls, by decide +kernel, hbudgets, honce⟩

end AliceBot
