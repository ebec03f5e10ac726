import AliceBot.Library.Json
import Mathlib.Data.List.Sort
import Mathlib.Data.Prod.Lex
import Mathlib.Data.String.Basic

/-!
# Execution budgets

`evaluate_execution_budget`: of the active budgets that match a request the
first is charged, those of the thread's profile before the global ones, and the
more specific before the less specific. It counts the completed executions that
match the budget, in threads of the profile, back to the start of its rolling
window; the request is blocked where one more would exceed the limit.

The budget that admitted an execution can be read off its row, as long as the
budgets and the profiles of the threads stay as they are (`admittedUnder`). What
a budget has admitted is among what it counts (`mem_countedRows_of_admitted`),
whichever budgets match the same rows.
-/

namespace AliceBot

open PyLib

/-- A row of `execution_budgets`. -/
structure ExecutionBudgetRow where
  id : String
  agentProfileId : Option String
  toolKey : Option String
  domainHint : Option String
  maxCompletedExecutions : Nat
  rollingWindowSeconds : Option Nat
  active : Bool
  createdAt : Int
deriving DecidableEq

/-- A row of `tool_executions`, as far as the budgets and the idempotency guard
read it. -/
structure ProxyExecutionRow where
  approvalId : String
  taskRunId : Option String
  threadId : String
  toolKey : String
  request : Dict Json
  completed : Bool
  idempotencyKey : Option String
  /-- In microseconds. -/
  executedAt : Int
deriving DecidableEq

/-- The tables the budgets are evaluated on, and what reads an identifier. -/
structure BudgetEnv where
  /-- `UUID(text)`, written canonically, where it does not raise. -/
  uuid : String → Option String
  /-- `get_thread_optional`: the `agent_profile_id` of a thread. -/
  thread : String → Option (Option String)
  /-- `get_agent_profile_optional` finds the profile. -/
  agentProfile : String → Bool
  /-- `list_execution_budgets`. -/
  budgets : List ExecutionBudgetRow

section Evaluation

variable (env : BudgetEnv)

/-- `_thread_profile_id_optional`. -/
def threadProfileId (threadId : String) : Option String :=
  match env.thread threadId with
  | none => none
  | some profile =>
    let profileId := profile.getD "assistant_default"
    if env.agentProfile profileId then some profileId else none

/-- The thread a request names, if its text is an identifier. -/
def requestThreadId (request : Dict Json) : Option String :=
  (request.item "thread_id").asStr?.bind env.uuid

/-- `_resolve_request_context`: the profile of the thread, `none` where the
context is invalid. -/
def requestProfileId (request : Dict Json) : Option String :=
  (requestThreadId env request).bind (threadProfileId env)

/-- `request["domain_hint"]`. -/
def domainHintOf (request : Dict Json) : Option String := (request.item "domain_hint").asStr?

/-- `_budget_specificity`. -/
def budgetSpecificity (row : ExecutionBudgetRow) : Int :=
  (if row.toolKey.isSome then 1 else 0) + (if row.domainHint.isSome then 1 else 0)

/-- `_matches_budget`: a selector that is set has to agree. -/
def matchesBudget (row : ExecutionBudgetRow) (toolKey : String) (domainHint : Option String) :
    Bool :=
  (row.toolKey.isNone || row.toolKey == some toolKey)
    && (row.domainHint.isNone || row.domainHint == domainHint)

/-- The order of the budgets: specificity first, then age. -/
def budgetKey (row : ExecutionBudgetRow) : Int ×ₗ Int ×ₗ String :=
  toLex (-budgetSpecificity row, toLex (row.createdAt, row.id))

/-- Before, or the same, in that order. -/
def BudgetLE (a b : ExecutionBudgetRow) : Prop := budgetKey a ≤ budgetKey b

instance : DecidableRel BudgetLE := fun a b =>
  inferInstanceAs (Decidable (budgetKey a ≤ budgetKey b))

/-- `_matching_budget_rows`. -/
def matchingBudgetRows (profileId toolKey : String) (domainHint : Option String) :
    List ExecutionBudgetRow :=
  let rows := env.budgets.filter fun row => row.active && matchesBudget row toolKey domainHint
  (rows.filter fun row => row.agentProfileId == some profileId).insertionSort BudgetLE ++
    (rows.filter fun row => row.agentProfileId.isNone).insertionSort BudgetLE

/-- `matched_budget`. -/
def matchedBudget (profileId toolKey : String) (domainHint : Option String) :
    Option ExecutionBudgetRow :=
  (matchingBudgetRows env profileId toolKey domainHint).head?

/-- `_execution_matches_budget`. -/
def executionMatchesBudget (row : ProxyExecutionRow) (budget : ExecutionBudgetRow) : Bool :=
  row.completed && matchesBudget budget row.toolKey (domainHintOf row.request)

/-- `_window_started_at`, in microseconds. -/
def windowStartedAt (evaluationTime : Int) (rollingWindowSeconds : Option Nat) : Option Int :=
  rollingWindowSeconds.map fun seconds => evaluationTime - seconds * 1000000

/-- `_counted_completed_execution_rows`, where the scope is that of
`_count_profile_scope_id`: the profile of the budget, or else that of the
thread. -/
def countedRows (budget : ExecutionBudgetRow) (profileId : String) (evaluationTime : Int)
    (rows : List ProxyExecutionRow) : List ProxyExecutionRow :=
  rows.filter fun row =>
    executionMatchesBudget row budget
      && requestThreadId env row.request == some row.threadId
      && threadProfileId env row.threadId == some (budget.agentProfileId.getD profileId)
      && (windowStartedAt evaluationTime budget.rollingWindowSeconds).all fun start =>
        decide (start ≤ row.executedAt)

/-- What the budgets say of a request. -/
inductive BudgetDecision where
  | invalidContext
  | noMatchingBudget
  | withinBudget (profileId : String) (budget : ExecutionBudgetRow)
  | budgetExceeded (budget : ExecutionBudgetRow)

/-- `blocked_result is not None`. -/
def BudgetDecision.blocks : BudgetDecision → Bool
  | .invalidContext => true
  | .noMatchingBudget => false
  | .withinBudget _ _ => false
  | .budgetExceeded _ => true

/-- `evaluate_execution_budget`, on the executions it lists. -/
def evaluateExecutionBudget (toolKey : String) (request : Dict Json) (evaluationTime : Int)
    (rows : List ProxyExecutionRow) : BudgetDecision :=
  match requestProfileId env request with
  | none => .invalidContext
  | some profileId =>
    match matchedBudget env profileId toolKey (domainHintOf request) with
    | none => .noMatchingBudget
    | some budget =>
      if (countedRows env budget profileId evaluationTime rows).length + 1 ≤
          budget.maxCompletedExecutions then
        .withinBudget profileId budget
      else .budgetExceeded budget

/-! ### What a budget has admitted -/

/-- The profile and the budget a row was admitted under. -/
def admittedUnder (row : ProxyExecutionRow) : Option (String × ExecutionBudgetRow) :=
  (requestProfileId env row.request).bind fun profileId =>
    (matchedBudget env profileId row.toolKey (domainHintOf row.request)).map fun budget =>
      (profileId, budget)

/-- The completed executions admitted under a budget for threads of a profile. -/
def admittedRows (profileId : String) (budget : ExecutionBudgetRow)
    (rows : List ProxyExecutionRow) : List ProxyExecutionRow :=
  rows.filter fun row => row.completed && decide (admittedUnder env row = some (profileId, budget))

/-- Within a rolling window of the budget that starts at some time, or ever. -/
def withinWindow (budget : ExecutionBudgetRow) (start : Int) (row : ProxyExecutionRow) : Bool :=
  budget.rollingWindowSeconds.all fun seconds =>
    decide (start ≤ row.executedAt ∧ row.executedAt ≤ start + seconds * 1000000)

/-- No budget has admitted more than its limit for a profile, within any of its
rolling windows. -/
def BudgetsHold (rows : List ProxyExecutionRow) : Prop :=
  ∀ profileId budget start,
    ((admittedRows env profileId budget rows).filter (withinWindow budget start)).length ≤
      budget.maxCompletedExecutions

end Evaluation

variable {env : BudgetEnv} {profileId : String} {budget : ExecutionBudgetRow}
  {row : ProxyExecutionRow} {rows : List ProxyExecutionRow}

/-- A matched budget agrees with the request, and is of the profile or global. -/
theorem matchedBudget_some {toolKey : String} {domainHint : Option String}
    (h : matchedBudget env profileId toolKey domainHint = some budget) :
    matchesBudget budget toolKey domainHint = true ∧
      (budget.agentProfileId = some profileId ∨ budget.agentProfileId = none) := by
  have hmem : budget ∈ matchingBudgetRows env profileId toolKey domainHint :=
    List.mem_of_head? h
  unfold matchingBudgetRows at hmem
  rcases List.mem_append.mp hmem with hscoped | hglobal
  · rw [List.mem_insertionSort, List.mem_filter, List.mem_filter] at hscoped
    exact ⟨(Bool.and_eq_true_iff.mp hscoped.1.2).2, .inl (eq_of_beq hscoped.2)⟩
  · rw [List.mem_insertionSort, List.mem_filter, List.mem_filter] at hglobal
    exact ⟨(Bool.and_eq_true_iff.mp hglobal.1.2).2,
      .inr (Option.isNone_iff_eq_none.mp hglobal.2)⟩

theorem admittedUnder_some (h : admittedUnder env row = some (profileId, budget)) :
    requestProfileId env row.request = some profileId ∧
      matchedBudget env profileId row.toolKey (domainHintOf row.request) = some budget := by
  unfold admittedUnder at h
  obtain ⟨p, hprofile, h⟩ := Option.bind_eq_some_iff.mp h
  obtain ⟨b, hbudget, heq⟩ := Option.map_eq_some_iff.mp h
  obtain ⟨rfl, rfl⟩ := Prod.mk.inj heq
  exact ⟨hprofile, hbudget⟩

/-- What a budget has admitted it counts, unless it is older than the window. -/
theorem mem_countedRows_of_admitted {evaluationTime : Int}
    (hadmitted : row ∈ admittedRows env profileId budget rows)
    (hthread : requestThreadId env row.request = some row.threadId)
    (hwindow : ∀ start ∈ windowStartedAt evaluationTime budget.rollingWindowSeconds,
      start ≤ row.executedAt) :
    row ∈ countedRows env budget profileId evaluationTime rows := by
  obtain ⟨hrow, hadmitted⟩ := List.mem_filter.mp hadmitted
  obtain ⟨hcompleted, hunder⟩ := Bool.and_eq_true_iff.mp hadmitted
  obtain ⟨hprofile, hbudget⟩ := admittedUnder_some (of_decide_eq_true hunder)
  obtain ⟨hmatches, hscope⟩ := matchedBudget_some hbudget
  have hthreadProfile : threadProfileId env row.threadId = some profileId := by
    rw [requestProfileId, hthread] at hprofile
    exact hprofile
  -- the budget is of the profile, or of every profile
  have hcount : budget.agentProfileId.getD profileId = profileId := by
    rcases hscope with hscope | hscope
    · rw [hscope]; rfl
    · rw [hscope]; rfl
  refine List.mem_filter.mpr ⟨hrow, ?_⟩
  simp only [Bool.and_eq_true, executionMatchesBudget, hcompleted, hmatches, true_and,
    hthread, hthreadProfile, hcount, beq_self_eq_true]
  rw [Option.all_eq_true]
  exact fun start hstart => decide_eq_true (hwindow start hstart)

end AliceBot
