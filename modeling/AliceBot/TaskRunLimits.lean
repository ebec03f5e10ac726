import AliceBot.GovernedTasks
import AliceBot.Library.Run

/-!
# Limits of task runs

A run counts its ticks, its steps and its retries, and its checkpoint counts the
steps done. Ticks, resumes, resolutions and executions each keep some of these
counts and each look at another part of the row before they write it.

`task_run_limits` says under which calls a run stays within its limits, a run
that failed for good stays failed, and a run that waited for an approval that was
then rejected is not done afterwards. A tick that finds a pending approval counts
itself before the budget is looked at, so `paused_wait_exceeds_budget` ticks a run
twice whose budget is one.
-/

namespace AliceBot

open PyLib

variable {env : GovernedEnv}

/-! ### What is promised -/

/-- The cursor of a checkpoint has not passed its target. -/
def CursorWithin (checkpoint : Dict Json) : Prop :=
  ∃ cursor target : Int, checkpoint.get? "cursor" = some (.int cursor) ∧
    checkpoint.get? "target_steps" = some (.int target) ∧ cursor ≤ target

structure WithinLimits (row : TaskRunRow) : Prop where
  steps : row.stepCount ≤ row.tickCount
  ticks : row.tickCount ≤ row.maxTicks
  retries : row.retryCount ≤ row.retryCap
  cursor : CursorWithin row.checkpoint

/-- Failed, with a class that is not to be retried. -/
def FailedForGood (row : TaskRunRow) : Prop :=
  row.status = .failed ∧ row.failureClass ≠ some .transient

/-- Done, cancelled or failed for good. -/
def Ended (row : TaskRunRow) : Prop :=
  row.status.finished = true ∨ FailedForGood row

/-- The approval a run waits for. -/
def TaskRunRow.waitsFor (row : TaskRunRow) : Option String :=
  if row.status = .waitingApproval then row.checkpoint.getStr? "waiting_approval_id" else none

/-- The runs that wait for an approval, with the approval. -/
def GovernedStore.waiting (s : GovernedStore) : List (String × String) :=
  s.runs.rows.filterMap fun row => row.waitsFor.map fun approvalId => (row.id, approvalId)

/-- A store, with the runs and approvals such that the run has waited for the
approval. -/
structure Watched where
  store : GovernedStore := {}
  waited : List (String × String) := []

/-! ### The condition -/

/-- A tick that finds a pending approval has a tick left. -/
def TickFits (s : GovernedStore) (runId : String) : Prop :=
  ∀ row task approvalId, s.runs.get? runId = some row → s.tasks.get? row.taskId = some task →
    task.pendingApproval? s.approvalStatus = some approvalId → row.tickCount < row.maxTicks

/-- The status of the execution a request ends in: of the one it replays, or of
its own. -/
def ExecuteRequest.result (req : ExecuteRequest) (replayed : Option ToolExecution) :
    ExecutionStatus :=
  (replayed.map (·.status)).getD req.verdict

/-- An execution whose run has failed for good is blocked. -/
def ExecuteSpares (env : GovernedEnv) (s : GovernedStore) (req : ExecuteRequest) : Prop :=
  ∀ approval task step linked s' key row, s.approvals.get? req.approvalId = some approval →
    approval.status = .approved →
    validateLinkedTaskStepForApproval s req.approvalId approval.taskStepId = .ok (task, step) →
    resolveTaskRunLinkage s approval step req.taskRunId = .ok (some linked, s') →
    executionKey env approval (some linked) = .ok key →
    ((s.replayed (some linked) req.approvalId key).isSome ∨ req.blocked.isSome ∨
      (registeredProxyHandler approval.toolKey).isSome) →
    s.runs.get? linked = some row → FailedForGood row →
    req.result (s.replayed (some linked) req.approvalId key) = .blocked

/-- A run that has failed for good is not marked with a transient failure. -/
def MarkSpares (s : GovernedStore) (runId : String) (failureClass : TaskRunFailureClass) : Prop :=
  failureClass = .transient → ∀ row, s.runs.get? runId = some row → ¬FailedForGood row

/-- A rejection finds every run that has waited for the approval: it has ended,
or still waits and is the one the approval is linked to. -/
def RejectFinds (w : Watched) (req : ResolveRequest) : Prop :=
  req.approves = false → ∀ approval, w.store.approvals.get? req.approvalId = some approval →
    approval.status = .pending → ∀ runId, (runId, req.approvalId) ∈ w.waited →
    ∀ row, w.store.runs.get? runId = some row →
    Ended row ∨ row.status = .waitingApproval ∧ approval.taskRunId = some runId

/-- A step that the limits of the runs survive. -/
structure LimitedStep (env : GovernedEnv) (w : Watched) (call : GovernedCall) (w' : Watched) :
    Prop where
  step : GovernedStep env w.store call w'.store
  watched : w'.waited = w.waited ++ w'.store.waiting
  allowed :
    match call with
    | .tick runId _ => TickFits w.store runId
    | .execute req => ExecuteSpares env w.store req
    | .markFailed runId _ failureClass _ _ => MarkSpares w.store runId failureClass
    | .resolve req => RejectFinds w req
    | _ => True

/-! ### Checkpoints -/

section Checkpoints

variable {checkpoint normalized : Dict Json}

theorem cursorWithin_set {key : String} (value : Json) (hcursor : key ≠ "cursor")
    (htarget : key ≠ "target_steps") (h : CursorWithin checkpoint) :
    CursorWithin (checkpoint.set key value) := by
  unfold CursorWithin at h ⊢
  rwa [Dict.get?_set_of_ne _ _ hcursor, Dict.get?_set_of_ne _ _ htarget]

theorem cursorWithin_normalize (h : normalizeCheckpoint checkpoint = .ok normalized) :
    CursorWithin normalized := by
  obtain ⟨cursor, target, wait, -, -, -, hle, rfl⟩ := normalizeCheckpoint_ok h
  refine cursorWithin_set _ (by decide) (by decide) ⟨cursor, target, ?_, ?_, hle⟩
  · rw [Dict.get?_set_of_ne _ _ (by decide), Dict.get?_set_self]
  · rw [Dict.get?_set_self]

theorem cursorWithin_record (t : TransitionEntry) (h : CursorWithin checkpoint) :
    CursorWithin (recordTransition checkpoint t) :=
  cursorWithin_set _ (by decide) (by decide) (cursorWithin_set _ (by decide) (by decide) h)

theorem cursorWithin_resolve (approvalId : String) (status : ApprovalStatus)
    (h : CursorWithin checkpoint) :
    CursorWithin (resolveCheckpoint checkpoint approvalId status) := by
  unfold resolveCheckpoint
  iterate 4 refine cursorWithin_set _ (by decide) (by decide) ?_
  exact h

theorem cursorWithin_execution (approvalId : String) (e : ToolExecution)
    (h : CursorWithin checkpoint) : CursorWithin (executionCheckpoint checkpoint approvalId e) := by
  unfold executionCheckpoint
  iterate 7 refine cursorWithin_set _ (by decide) (by decide) ?_
  exact h

end Checkpoints

/-! ### What a decision does to its row -/

section Decisions

variable {reads : TaskRunReads} {row : TaskRunRow} {u v : TaskRunUpdate} {source now : String}

theorem checks_limits (h : row.checks = true) :
    0 < row.maxTicks ∧ row.retryCount ≤ row.retryCap := by
  simp only [TaskRunRow.checks, Bool.and_eq_true, decide_eq_true_eq] at h
  exact ⟨h.1.1.1.2, h.1.2⟩

/-- A call that goes through `_update_task_run` normalizes the checkpoint, the
counts are its own. -/
theorem withinLimits_updateTaskRun (h : updateTaskRun row v source now = .ok u)
    (hchecks : (u.apply row).checks = true) (hsteps : v.stepCount ≤ v.tickCount)
    (hticks : v.tickCount ≤ row.maxTicks) : WithinLimits (u.apply row) := by
  obtain ⟨normalized, hnormalized, rfl⟩ := updateTaskRun_ok h
  exact
    { steps := hsteps
      ticks := hticks
      retries := (checks_limits hchecks).2
      cursor := cursorWithin_record _ (cursorWithin_normalize hnormalized) }

/-- A tick keeps a run within its limits. The wait for an approval is counted before the
budget is looked at, so there the budget must not be used up. -/
theorem tick_limits {task : Option TaskRow} {approval : String → Option ApprovalStatus}
    (h : tickTaskRunRecord task approval now row = .ok u) (hchecks : (u.apply row).checks = true)
    (hrow : WithinLimits row)
    (hfits : ∀ t approvalId, task = some t → t.pendingApproval? approval = some approvalId →
      row.tickCount < row.maxTicks) : WithinLimits (u.apply row) := by
  have hsteps := hrow.steps
  have hticks := hrow.ticks
  unfold tickTaskRunRecord at h
  split at h
  · obtain ⟨checkpoint, -, h⟩ := except_bind_ok.mp h
    obtain ⟨cursor, -, h⟩ := except_bind_ok.mp h
    obtain ⟨target, -, h⟩ := except_bind_ok.mp h
    obtain ⟨wait, -, h⟩ := except_bind_ok.mp h
    cases task with
    | none => cases h
    | some t =>
      simp only at h
      split at h
      · next approvalId hpending =>
        -- the branch that does not look at the budget
        have hfits := hfits t approvalId rfl hpending
        refine withinLimits_updateTaskRun h hchecks ?_ ?_
        · show row.stepCount ≤ row.tickCount + 1
          omega
        · show row.tickCount + 1 ≤ row.maxTicks
          omega
      · split at h
        · exact withinLimits_updateTaskRun h hchecks hsteps hticks
        · split at h
          · exact withinLimits_updateTaskRun h hchecks hsteps hticks
          · next hbudget =>
            split at h
            · refine withinLimits_updateTaskRun h hchecks ?_ ?_
              · show row.stepCount ≤ row.tickCount + 1
                omega
              · show row.tickCount + 1 ≤ row.maxTicks
                omega
            · refine withinLimits_updateTaskRun h hchecks ?_ ?_
              · show row.stepCount + 1 ≤ row.tickCount + 1
                omega
              · show row.tickCount + 1 ≤ row.maxTicks
                omega
  · cases h

/-- Whatever call writes a run, it leaves it within its limits. -/
theorem decide_limits {call : TaskRunCall} (h : call.decide reads now row = .ok (some u))
    (hchecks : (u.apply row).checks = true) (hrow : WithinLimits row)
    (hfits : call = .tick → ∀ task approvalId, reads.task = some task →
      task.pendingApproval? reads.approval = some approvalId → row.tickCount < row.maxTicks) :
    WithinLimits (u.apply row) := by
  obtain ⟨hpositive, hretries⟩ := checks_limits hchecks
  cases call with
  | tick => exact tick_limits (except_map_some_ok.mp h) hchecks hrow (hfits rfl)
  -- a tick counts up, and was within its limits before
  | pause =>
    obtain ⟨-, checkpoint, -, h⟩ := pauseTaskRunRecord_ok (except_map_some_ok.mp h)
    exact withinLimits_updateTaskRun h hchecks hrow.steps hrow.ticks
  | resume =>
    obtain ⟨-, -, checkpoint, -, h⟩ := resumeTaskRunRecord_ok (except_map_some_ok.mp h)
    exact withinLimits_updateTaskRun h hchecks hrow.steps hrow.ticks
  | cancel =>
    obtain ⟨-, checkpoint, -, h⟩ := cancelTaskRunRecord_ok (except_map_some_ok.mp h)
    exact withinLimits_updateTaskRun h hchecks hrow.steps hrow.ticks
  | markFailed stopReason failureClass markSource =>
    obtain ⟨-, h⟩ := markTaskRunFailed_ok h
    exact withinLimits_updateTaskRun h hchecks hrow.steps hrow.ticks
  | resolve approvalId status =>
    -- a resolution writes no count
    have h := Except.ok.inj h
    unfold resumeTaskRunAfterResolution at h
    split at h
    · cases h
      exact
        { steps := hrow.steps
          ticks := hrow.ticks
          retries := hretries
          cursor := cursorWithin_record _ (cursorWithin_resolve _ _ hrow.cursor) }
    · cases h
  | sync approvalId e =>
    have h := Except.ok.inj h
    unfold syncTaskRunAfterExecution at h
    split at h
    · cases h
    · cases h
      -- an execution counts as the first tick, if there was none
      have hsteps := hrow.steps
      have hticks := hrow.ticks
      refine
        { steps := ?_
          ticks := ?_
          retries := hretries
          cursor := cursorWithin_record _ (cursorWithin_execution _ _ hrow.cursor) }
      · show max row.stepCount 1 ≤ max 1 row.tickCount
        omega
      · show max 1 row.tickCount ≤ row.maxTicks
        have : 0 < row.maxTicks := hpositive
        omega

/-- A run that failed for good stays so: every call that would take it on looks
at its status, but for a mark and an execution. -/
theorem decide_failed {call : TaskRunCall} (h : call.decide reads now row = .ok (some u))
    (hfailed : FailedForGood row)
    (hmark : ∀ stopReason failureClass source, call = .markFailed stopReason failureClass source →
      failureClass ≠ .transient)
    (hsync : ∀ approvalId e, call = .sync approvalId e → e.status = .blocked) :
    FailedForGood (u.apply row) := by
  obtain ⟨hstatus, hclass⟩ := hfailed
  cases call with
  | tick =>
    have h := except_map_some_ok.mp h
    rw [tickTaskRunRecord, hstatus] at h
    cases h
  | pause =>
    have hpauseable := (pauseTaskRunRecord_ok (except_map_some_ok.mp h)).1
    rw [hstatus] at hpauseable
    cases hpauseable
  | resume =>
    -- a failed run is resumed only when its failure was transient
    exact absurd ((resumeTaskRunRecord_ok (except_map_some_ok.mp h)).2.1 hstatus) hclass
  | cancel =>
    have hcancellable := (cancelTaskRunRecord_ok (except_map_some_ok.mp h)).1
    rw [hstatus] at hcancellable
    cases hcancellable
  | markFailed stopReason failureClass markSource =>
    obtain ⟨-, h⟩ := markTaskRunFailed_ok h
    obtain ⟨normalized, -, rfl⟩ := updateTaskRun_ok h
    refine ⟨rfl, ?_⟩
    show some failureClass ≠ some .transient
    have := hmark _ _ _ rfl
    simpa using this
  | resolve approvalId status =>
    have h := Except.ok.inj h
    rw [resumeTaskRunAfterResolution, hstatus] at h
    cases h
  | sync approvalId e =>
    have hblocked := hsync _ _ rfl
    have h := Except.ok.inj h
    unfold syncTaskRunAfterExecution at h
    split at h
    · cases h
    · cases h
      refine ⟨rfl, ?_⟩
      show some (if e.budgetExceeded then TaskRunFailureClass.budget else .policy) ≠ some .transient
      split <;> decide

theorem waitsFor_of_ne (h : row.status ≠ .waitingApproval) : row.waitsFor = none :=
  if_neg h

theorem waitsFor_updateTaskRun (h : updateTaskRun row v source now = .ok u)
    (hstatus : v.status ≠ .waitingApproval) : (u.apply row).waitsFor = none := by
  obtain ⟨normalized, -, rfl⟩ := updateTaskRun_ok h
  exact waitsFor_of_ne hstatus

/-- The approval noted by a tick is read back. -/
theorem waitsFor_tick {checkpoint : Dict Json} {approvalId : String}
    (h : updateTaskRun row v source now = .ok u) (hstatus : v.status = .waitingApproval)
    (hcheckpoint : v.checkpoint = waitForApproval checkpoint approvalId) :
    (u.apply row).waitsFor = some approvalId := by
  obtain ⟨normalized, hnormalized, rfl⟩ := updateTaskRun_ok h
  obtain ⟨_, _, _, -, -, -, -, rfl⟩ := normalizeCheckpoint_ok hnormalized
  refine (if_pos hstatus).trans ?_
  rw [hcheckpoint]
  show Dict.getStr? (recordTransition _ _) _ = _
  unfold recordTransition waitForApproval
  iterate 5 rw [Dict.getStr?_set, if_neg (by decide)]
  rw [Dict.getStr?_set, if_pos rfl]
  rfl

/-- Only a pending approval of the task makes a tick wait for it. -/
theorem tick_waits {task : Option TaskRow} {approval : String → Option ApprovalStatus}
    {approvalId : String} (h : tickTaskRunRecord task approval now row = .ok u)
    (hwaits : (u.apply row).waitsFor = some approvalId) :
    ∃ t, task = some t ∧ t.pendingApproval? approval = some approvalId := by
  unfold tickTaskRunRecord at h
  split at h
  · obtain ⟨checkpoint, -, h⟩ := except_bind_ok.mp h
    obtain ⟨cursor, -, h⟩ := except_bind_ok.mp h
    obtain ⟨target, -, h⟩ := except_bind_ok.mp h
    obtain ⟨wait, -, h⟩ := except_bind_ok.mp h
    -- every branch but the first leaves another status
    have hother : ∀ {v : TaskRunUpdate} {source : String},
        updateTaskRun row v source now = .ok u → v.status ≠ .waitingApproval → False := by
      intro v source h hstatus
      rw [waitsFor_updateTaskRun h hstatus] at hwaits
      cases hwaits
    cases task with
    | none => cases h
    | some t =>
      simp only at h
      split at h
      · next pendingId hpending =>
        rw [waitsFor_tick h rfl rfl] at hwaits
        cases hwaits
        exact ⟨t, rfl, hpending⟩
      · split at h
        · refine (hother h fun hstatus => ?_).elim
          cases hstatus
        · split at h
          · refine (hother h fun hstatus => ?_).elim
            cases hstatus
          · split at h
            · refine (hother h fun hstatus => ?_).elim
              cases hstatus
            · refine (hother h ?_).elim
              show (if target ≤ cursor + 1 then TaskRunStatus.done else .running) ≠ _
              split <;> decide
  · cases h

/-- Only a tick makes a run wait for an approval, and then the approval is
pending. -/
theorem decide_waits {call : TaskRunCall} {approvalId : String}
    (h : call.decide reads now row = .ok (some u))
    (hwaits : (u.apply row).waitsFor = some approvalId) :
    call = .tick ∧ ∃ task, reads.task = some task ∧
      task.pendingApproval? reads.approval = some approvalId := by
  -- a run that waits has the status of one that waits
  have hother : (u.apply row).status = .waitingApproval := by
    by_contra hstatus
    rw [waitsFor_of_ne hstatus] at hwaits
    cases hwaits
  cases call with
  | tick => exact ⟨rfl, tick_waits (except_map_some_ok.mp h) hwaits⟩
  | pause =>
    obtain ⟨-, checkpoint, -, h⟩ := pauseTaskRunRecord_ok (except_map_some_ok.mp h)
    rw [waitsFor_updateTaskRun h nofun] at hwaits
    cases hwaits
  | resume =>
    obtain ⟨-, -, checkpoint, -, h⟩ := resumeTaskRunRecord_ok (except_map_some_ok.mp h)
    rw [waitsFor_updateTaskRun h (by dsimp only; split <;> decide)] at hwaits
    cases hwaits
  | cancel =>
    obtain ⟨-, checkpoint, -, h⟩ := cancelTaskRunRecord_ok (except_map_some_ok.mp h)
    rw [waitsFor_updateTaskRun h nofun] at hwaits
    cases hwaits
  | markFailed stopReason failureClass markSource =>
    obtain ⟨-, h⟩ := markTaskRunFailed_ok h
    rw [waitsFor_updateTaskRun h nofun] at hwaits
    cases hwaits
  | resolve resolvedId status =>
    -- a resolved run is queued or has failed
    have h := Except.ok.inj h
    unfold resumeTaskRunAfterResolution at h
    split at h
    · cases h
      change (if status = .approved then TaskRunStatus.queued else .failed) = _ at hother
      split at hother <;> cases hother
    · cases h
  | sync resolvedId e =>
    -- an executed run is done or has failed
    have h := Except.ok.inj h
    unfold syncTaskRunAfterExecution at h
    split at h
    · cases h
    · cases h
      change (if e.status = .blocked then TaskRunStatus.failed else .done) = _ at hother
      split at hother <;> cases hother

end Decisions

/-! ### What a step does to the runs -/

/-- What a step that ends in `t` does to a run it writes. -/
structure RunMove (t : GovernedStore) (row row' : TaskRunRow) : Prop where
  unfinished : row.status.finished = false
  limits : WithinLimits row → WithinLimits row'
  failed : FailedForGood row → FailedForGood row'
  waits : ∀ approvalId, row'.waitsFor = some approvalId →
    t.approvalStatus approvalId = some .pending

/-- Runs stay, each as it was or moved; a new one is queued. -/
structure RunsAdvance (s t : GovernedStore) : Prop where
  kept : ∀ id row, s.runs.get? id = some row →
    ∃ row', t.runs.get? id = some row' ∧ (row' = row ∨ RunMove t row row')
  fresh : ∀ id row, t.runs.get? id = some row → s.runs.get? id = none →
    WithinLimits row ∧ row.status = .queued

section Advance

variable {s t u : GovernedStore} {row : TaskRunRow}

theorem runsAdvance_keep (h : t.runs = s.runs) : RunsAdvance s t where
  kept _ row hrow := ⟨row, h ▸ hrow, Or.inl rfl⟩
  fresh id row hrow hnone := by
    rw [h, hnone] at hrow
    cases hrow

/-- Rewriting one run advances the runs if that run makes a move. -/
theorem runsAdvance_rewrite {f : Rewrite TaskRunRow.id} (hrow : s.runs.get? row.id = some row)
    (ht : t.runs = s.runs.rewrite row.id f) (hmove : RunMove t row (f.apply row)) :
    RunsAdvance s t where
  kept id old hold := by
    rw [ht, Table.get?_rewrite, hold]
    split
    · next hid =>
      rw [← hid, hrow] at hold
      cases hold
      exact ⟨_, rfl, Or.inr hmove⟩
    · exact ⟨old, rfl, Or.inl rfl⟩
  fresh id new hnew hnone := by
    rw [ht, Table.get?_rewrite_eq_some_iff] at hnew
    obtain ⟨old, hold, -⟩ := hnew
    rw [hnone] at hold
    cases hold

theorem runsAdvance_insert (h : s.runs.insert? row = some t.runs) (hlimits : WithinLimits row)
    (hqueued : row.status = .queued) : RunsAdvance s t where
  kept id old hold := by
    refine ⟨old, ?_, Or.inl rfl⟩
    rw [Table.get?_insert? h, if_neg, hold]
    rintro rfl
    rw [(Table.insert?_eq_some_iff.mp h).1] at hold
    cases hold
  fresh id new hnew hnone := by
    rw [Table.get?_insert? h] at hnew
    split at hnew
    · cases hnew
      exact ⟨hlimits, hqueued⟩
    · rw [hnone] at hnew
      cases hnew

theorem approvalStatus_linkApproval (approvalId runId id : String) :
    (linkApproval s approvalId runId).approvalStatus id = s.approvalStatus id := by
  unfold GovernedStore.approvalStatus linkApproval
  rw [Table.get?_rewrite]
  split
  · rw [Option.map_map]
    rfl
  · rfl

/-- A call on a run changes the status of no approval. -/
theorem serveTaskRun_approvals {runId now : String} {call : TaskRunCall}
    (h : serveTaskRun env s runId call now = .ok t) (approvalId : String) :
    t.approvalStatus approvalId = s.approvalStatus approvalId := by
  unfold serveTaskRun at h
  split at h
  · split at h
    · cases h
      rfl
    · cases h
  · split at h
    · cases h
    · cases h
      rfl
    · split at h
      · rw [(updateRun_ok h).2]
        rfl
      · rw [(updateRun_ok h).2]
        exact approvalStatus_linkApproval _ _ _

theorem acquireRun_approvals (runId approvalId : String) :
    (acquireRun s runId).approvalStatus approvalId = s.approvalStatus approvalId := by
  unfold acquireRun
  split
  · rfl
  · split <;> rfl

/-- A run written by a decision that the conditions allow. -/
theorem runMove_decide {reads : TaskRunReads} {now : String} {call : TaskRunCall}
    {v : TaskRunUpdate} (h : call.decide reads now row = .ok (some v))
    (hchecks : (v.apply row).checks = true)
    (htick : call = .tick → ∀ task approvalId, reads.task = some task →
      task.pendingApproval? reads.approval = some approvalId →
      row.tickCount < row.maxTicks ∧ t.approvalStatus approvalId = some .pending)
    (hmark : FailedForGood row → ∀ stopReason failureClass source,
      call = .markFailed stopReason failureClass source → failureClass ≠ .transient)
    (hsync : FailedForGood row → ∀ approvalId e, call = .sync approvalId e →
      e.status = .blocked) : RunMove t row (v.apply row) where
  unfinished := (decide_continues h).unfinished
  limits hrow := decide_limits h hchecks hrow fun hcall task approvalId htask hpending =>
    (htick hcall task approvalId htask hpending).1
  failed hfailed := decide_failed h hfailed (hmark hfailed) (hsync hfailed)
  waits approvalId hwaits := by
    obtain ⟨hcall, task, htask, hpending⟩ := decide_waits h hwaits
    exact (htick hcall task approvalId htask hpending).2

/-- A call on one run advances that run only, and along its limits, if it keeps to the
conditions. -/
theorem serveTaskRun_advance {runId now : String} {call : TaskRunCall}
    (h : serveTaskRun env s runId call now = .ok t)
    (htick : call = .tick → TickFits s runId)
    (hmark : ∀ stopReason failureClass source, call = .markFailed stopReason failureClass source →
      MarkSpares s runId failureClass)
    (hsync : ∀ approvalId e, call ≠ .sync approvalId e) : RunsAdvance s t := by
  unfold serveTaskRun at h
  split at h
  · split at h
    · cases h
      exact runsAdvance_keep rfl
    · cases h
  · next row hrow =>
    have hid := Table.key_of_get? hrow
    split at h
    · cases h
    · cases h
      exact runsAdvance_keep rfl
    · next u hdecide =>
      -- the call writes the run, and a tick may link the approval to it
      have hmove : (u.apply row).checks = true →
          (∀ approvalId, t.approvalStatus approvalId = s.approvalStatus approvalId) →
          RunMove t row (u.apply row) := by
        intro hchecks hsame
        refine runMove_decide hdecide hchecks ?_ ?_ ?_
        · rintro rfl task approvalId htask hpending
          refine ⟨htick rfl row task approvalId hrow htask hpending, ?_⟩
          rw [hsame]
          unfold TaskRow.pendingApproval? at hpending
          split at hpending
          · have := (Option.filter_eq_some_iff.mp hpending).2
            exact beq_iff_eq.mp this
          · cases hpending
        · rintro hfailed stopReason failureClass source rfl htransient
          exact hmark _ _ _ rfl htransient row hrow hfailed
        · rintro hfailed approvalId e hcall
          exact absurd hcall (hsync _ _)
      split at h
      · obtain ⟨hchecks, rfl⟩ := updateRun_ok h
        exact runsAdvance_rewrite (hid.symm ▸ hrow) rfl (hmove hchecks fun _ => rfl)
      · obtain ⟨hchecks, rfl⟩ := updateRun_ok h
        refine runsAdvance_rewrite (hid.symm ▸ hrow) rfl (hmove hchecks fun approvalId => ?_)
        exact approvalStatus_linkApproval _ _ _

theorem RunsAdvance.congr (h : RunsAdvance u t) (hruns : u.runs = s.runs) : RunsAdvance s t where
  kept := by
    rw [← hruns]
    exact h.kept
  fresh := by
    rw [← hruns]
    exact h.fresh

/-- A resolved approval moves the run that waits for it: on if it was approved, to its
end if not. -/
theorem resumeRun_advance {approval : ApprovalRow} {status : ApprovalStatus} {now : String}
    (h : resumeRunAfterResolution s approval status now = .ok t) : RunsAdvance s t := by
  unfold resumeRunAfterResolution at h
  split at h
  · cases h
    exact runsAdvance_keep rfl
  · next row hrow =>
    obtain ⟨runId, -, hget⟩ := Option.bind_eq_some_iff.mp hrow
    split at h
    · cases h
      exact runsAdvance_keep rfl
    · next u hresume =>
      -- the write is that of a call on the run, one that no condition is about
      obtain ⟨hchecks, rfl⟩ := updateRun_ok h
      have hdecide : (TaskRunCall.resolve approval.id status).decide
          { task := none, approval := fun _ => none } now row = .ok (some u) :=
        congrArg Except.ok hresume
      refine runsAdvance_rewrite (Table.key_of_get? hget ▸ hget) rfl
        (runMove_decide hdecide hchecks ?_ ?_ ?_)
      · intro hcall
        cases hcall
      · intro _ _ _ _ hcall
        cases hcall
      · intro _ _ _ hcall
        cases hcall

/-- The waiting run of an approval that is rejected fails for good. -/
theorem resumeRun_rejects {approval : ApprovalRow} {runId now : String}
    (h : resumeRunAfterResolution s approval .rejected now = .ok t)
    (hlinked : approval.taskRunId = some runId) (hrow : s.runs.get? runId = some row)
    (hwaiting : row.status = .waitingApproval) :
    ∃ row', t.runs.get? runId = some row' ∧ FailedForGood row' := by
  unfold resumeRunAfterResolution at h
  rw [hlinked, Option.bind_some, hrow] at h
  simp only [resumeTaskRunAfterResolution, if_pos hwaiting] at h
  obtain ⟨-, rfl⟩ := updateRun_ok h
  have hid := Table.key_of_get? hrow
  rw [← hid] at hrow ⊢
  refine ⟨_, Table.get?_rewrite_self _ hrow, rfl, ?_⟩
  show some TaskRunFailureClass.approval ≠ some .transient
  decide

/-- What a resolution does to approvals and runs: the approval is resolved, and
the run it is linked to, if that waits, goes on or fails. -/
theorem resolve_runs {req : ResolveRequest} (h : resolveApproval s req = .ok t) :
    ∃ approval, s.approvals.get? req.approvalId = some approval ∧ approval.status = .pending ∧
      t.approvals = (resolveRow s req.approvalId req.target).approvals ∧
      RunsAdvance s t ∧
      (req.approves = false → ∀ runId row, approval.taskRunId = some runId →
        s.runs.get? runId = some row → row.status = .waitingApproval →
        ∃ row', t.runs.get? runId = some row' ∧ FailedForGood row') := by
  obtain ⟨approval, linked, s₁, s₂, happroval, hpending, -, htask, hstep, hrun⟩ :=
    resolveApproval_ok h
  obtain ⟨_, -, rfl⟩ := syncTaskWithApproval_ok htask
  obtain ⟨_, _, -, -, hs₂⟩ := syncTaskStepWithApproval_ok hstep
  have hruns : s₂.runs = s.runs := by
    rw [hs₂]
    rfl
  refine ⟨approval, happroval, hpending, ?_, (resumeRun_advance hrun).congr hruns, ?_⟩
  · rw [resumeRunAfterResolution_ok hrun, hs₂]
    rfl
  · -- a rejection fails the run that waits
    intro hrejects runId row hlinked hrow hwaiting
    rw [ResolveRequest.target, hrejects] at hrun
    exact resumeRun_rejects hrun hlinked (hruns ▸ hrow) hwaiting

/-- An execution ends its run, within its limits, unless the run had failed for good and
the execution was not blocked. -/
theorem syncRun_advance {taskRunId : Option String} {e : ToolExecution} {approvalId now : String}
    (h : syncRunAfterExecution s taskRunId e approvalId now = .ok t)
    (hspares : ∀ runId row, taskRunId = some runId → s.runs.get? runId = some row →
      FailedForGood row → e.status = .blocked) : RunsAdvance s t := by
  unfold syncRunAfterExecution at h
  split at h
  · cases h
    exact runsAdvance_keep rfl
  · next row hrow =>
    obtain ⟨runId, hlinked, hget⟩ := Option.bind_eq_some_iff.mp hrow
    split at h
    · cases h
      exact runsAdvance_keep rfl
    · next u hsync =>
      -- the write is that of a call on the run, and only an execution can take a failed run on
      obtain ⟨hchecks, rfl⟩ := updateRun_ok h
      have hdecide : (TaskRunCall.sync approvalId e).decide
          { task := none, approval := fun _ => none } now row = .ok (some u) :=
        congrArg Except.ok hsync
      refine runsAdvance_rewrite (Table.key_of_get? hget ▸ hget) rfl
        (runMove_decide hdecide hchecks ?_ ?_ ?_)
      · intro hcall
        cases hcall
      · intro _ _ _ _ hcall
        cases hcall
      · intro hfailed _ _ hcall
        cases hcall
        exact hspares runId row hlinked hget hfailed

/-- An execution links its approval at most, and writes the linked run. -/
theorem execute_runs {req : ExecuteRequest} (h : executeApprovedProxyRequest env s req = .ok t)
    (hspares : ExecuteSpares env s req) :
    RunsAdvance s t ∧ ∀ approvalId, t.approvalStatus approvalId = s.approvalStatus approvalId := by
  obtain ⟨approval, task, step, linked, s', key, happroval, hstatus, hvalid, hlinkage, hkey, h⟩ :=
    executeApprovedProxyRequest_ok h
  -- the linkage writes an approval, and no run and no status
  have hsame : s'.runs = s.runs ∧
      ∀ approvalId, s'.approvalStatus approvalId = s.approvalStatus approvalId := by
    rcases (resolveTaskRunLinkage_ok hlinkage).2 with rfl | ⟨run, -, -, rfl⟩
    · exact ⟨rfl, fun _ => rfl⟩
    · exact ⟨rfl, approvalStatus_linkApproval _ _⟩
  have hresult : ∀ runId row, linked = some runId → s.runs.get? runId = some row →
      FailedForGood row →
      ((s.replayed linked req.approvalId key).isSome ∨ req.blocked.isSome ∨
        (registeredProxyHandler approval.toolKey).isSome) →
      req.result (s.replayed linked req.approvalId key) = .blocked := by
    rintro runId row rfl hrow hfailed hruns
    exact hspares approval task step runId s' key row happroval hstatus hvalid hlinkage hkey hruns
      hrow hfailed
  -- a replayed execution only tells the run, a new one is recorded before
  rcases h with ⟨e, hreplayed, hsync⟩ | ⟨hnew, hruns, result, hrecord⟩
  · rw [hreplayed] at hresult
    refine ⟨(syncRun_advance hsync ?_).congr hsame.1, ?_⟩
    · intro runId row hlinked hrow hfailed
      exact hresult runId row hlinked (hsame.1 ▸ hrow) hfailed (Or.inl rfl)
    · intro approvalId
      rw [syncRunAfterExecution_ok hsync]
      exact hsame.2 approvalId
  · rw [hnew] at hresult
    obtain ⟨executions, _, s₁, s₂, -, htask, hstep, hsync⟩ := recordExecution_ok hrecord
    obtain ⟨-, rfl⟩ := syncTaskWithExecution_ok htask
    obtain ⟨_, _, -, rfl⟩ := syncTaskStepWithExecution_ok hstep
    refine ⟨(syncRun_advance hsync ?_).congr hsame.1, ?_⟩
    · intro runId row hlinked hrow hfailed
      have hrow : s'.runs.get? runId = some row := hrow
      exact hresult runId row hlinked (hsame.1 ▸ hrow) hfailed (Or.inr hruns)
    · intro approvalId
      rw [syncRunAfterExecution_ok hsync]
      exact hsame.2 approvalId

/-- A new run is within its limits, and the runs before it are as they were. -/
theorem createRun_advance {request : TaskRunCreateInput} {id now : String}
    (h : createTaskRunRecord s request id now = .ok t) :
    RunsAdvance s t ∧ t.approvals = s.approvals := by
  unfold createTaskRunRecord at h
  split at h
  · cases h
  · split at h
    · cases h
    · next row hcreate =>
      obtain ⟨runs, hruns, h⟩ := except_bind_ok.mp h
      cases h
      unfold createTaskRunRow at hcreate
      split at hcreate
      · cases hcreate
      · next hticks =>
        simp only at hcreate
        split at hcreate
        · cases hcreate
        · next hretries =>
          obtain ⟨checkpoint, hcheckpoint, hcreate⟩ := except_bind_ok.mp hcreate
          obtain ⟨normalized, hnormalized, hrecord⟩ := except_bind_ok.mp hcheckpoint
          cases hrecord
          cases hcreate
          -- a new run has made no step, and its limits were checked
          refine ⟨runsAdvance_insert (insertInto_ok hruns) ?_ rfl, rfl⟩
          exact
            { steps := le_refl _
              ticks := (not_le.mp hticks).le
              retries := (not_le.mp hretries).le
              cursor := cursorWithin_record _ (cursorWithin_normalize hnormalized) }

/-- A worker that takes up a queued run advances it within its limits. -/
theorem acquireRun_advance (runId : String) : RunsAdvance s (acquireRun s runId) := by
  unfold acquireRun
  split
  · exact runsAdvance_keep rfl
  · next row hrow =>
    split
    · next hrunnable =>
      -- a run that is taken runs, and waits for nothing
      have hrunning : (acquireTaskRun row).status ≠ .waitingApproval := by
        intro hstatus
        cases hstatus
      refine runsAdvance_rewrite (f := ⟨acquireTaskRun, fun _ => rfl⟩)
        (Table.key_of_get? hrow ▸ hrow) (by rw [Table.key_of_get? hrow]) ?_
      exact
        { unfinished := TaskRunStatus.not_finished_of_runnable hrunnable
          limits := fun h => ⟨h.steps, h.ticks, h.retries, h.cursor⟩
          failed := fun h => by
            rw [h.1] at hrunnable
            cases hrunnable
          waits := fun approvalId hwaits => by
            have hnone := waitsFor_of_ne hrunning
            rw [hnone] at hwaits
            cases hwaits }
    · exact runsAdvance_keep rfl

end Advance

/-! ### Steps -/

section Steps

variable {s t : GovernedStore} {w w' : Watched} {call : GovernedCall}

/-- An approval is rejected by a rejection, or was rejected before. -/
def RejectedFrom (s t : GovernedStore) (call : GovernedCall) : Prop :=
  ∀ approvalId, t.approvalStatus approvalId = some .rejected →
    s.approvalStatus approvalId = some .rejected ∨
      ∃ req, call = .resolve req ∧ req.approvalId = approvalId ∧ req.approves = false

theorem rejectedFrom_same
    (h : ∀ approvalId, t.approvalStatus approvalId = s.approvalStatus approvalId) :
    RejectedFrom s t call := by
  intro approvalId hrejected
  rw [h] at hrejected
  exact Or.inl hrejected

theorem rejectedFrom_resolve {req : ResolveRequest}
    (h : t.approvals = (resolveRow s req.approvalId req.target).approvals) :
    RejectedFrom s t (.resolve req) := by
  intro approvalId hrejected
  unfold GovernedStore.approvalStatus at hrejected ⊢
  rw [h, resolveRow, Table.get?_rewrite] at hrejected
  split at hrejected
  · next hid =>
    right
    refine ⟨req, rfl, hid, ?_⟩
    rw [Option.map_map] at hrejected
    obtain ⟨row, -, hstatus⟩ := Option.map_eq_some_iff.mp hrejected
    change req.target = .rejected at hstatus
    unfold ResolveRequest.target at hstatus
    split at hstatus
    · cases hstatus
    · next happroves => exact Bool.eq_false_iff.mpr happroves
  · exact Or.inl hrejected

/-- What a step of the system does to runs and approvals. -/
theorem limitedStep_advance (h : LimitedStep env w call w') :
    RunsAdvance w.store w'.store ∧ RejectedFrom w.store w'.store call := by
  obtain ⟨hstep, -, hallowed⟩ := h
  unfold GovernedStep at hstep
  split at hstep
  · next u hperform =>
    rw [hstep]
    have hserve : ∀ {runId now : String} {c : TaskRunCall},
        serveTaskRun env w.store runId c now = .ok u →
        ∀ approvalId, u.approvalStatus approvalId = w.store.approvalStatus approvalId :=
      fun h => serveTaskRun_approvals h
    -- a call on a run leaves the approvals alone, and a call on an approval takes the run along
    cases call with
    | submit req =>
      obtain ⟨hframe, happrovals⟩ := submitApprovalRequest_frame (raisedAt_ok.mp hperform)
      refine ⟨runsAdvance_keep (by rw [hframe]), ?_⟩
      -- a request inserts at most one approval, and a pending one
      rcases happrovals with hsame | ⟨row, hpending, hinsert⟩
      · exact rejectedFrom_same fun approvalId => by
          unfold GovernedStore.approvalStatus
          rw [hsame]
      · intro approvalId hrejected
        unfold GovernedStore.approvalStatus at hrejected ⊢
        rw [Table.get?_insert? hinsert] at hrejected
        split at hrejected
        · rw [Option.map_some, hpending] at hrejected
          cases hrejected
        · exact Or.inl hrejected
    | resolve req =>
      obtain ⟨approval, -, -, happrovals, hadvance, -⟩ := resolve_runs hperform
      exact ⟨hadvance, rejectedFrom_resolve happrovals⟩
    | execute req =>
      obtain ⟨hadvance, hsame⟩ := execute_runs hperform hallowed
      exact ⟨hadvance, rejectedFrom_same hsame⟩
    | createNext req =>
      have hframe := createNextTaskStepRecord_frame (raisedAt_ok.mp hperform)
      rw [hframe]
      exact ⟨runsAdvance_keep rfl, rejectedFrom_same fun _ => rfl⟩
    | transition req =>
      have hframe := transitionTaskStepRecord_frame (raisedAt_ok.mp hperform)
      rw [hframe]
      exact ⟨runsAdvance_keep rfl, rejectedFrom_same fun _ => rfl⟩
    | createRun request id now =>
      obtain ⟨hadvance, happrovals⟩ := createRun_advance (raisedAt_ok.mp hperform)
      exact ⟨hadvance, rejectedFrom_same fun approvalId => by
        unfold GovernedStore.approvalStatus
        rw [happrovals]⟩
    | acquire runId =>
      cases hperform
      exact ⟨acquireRun_advance runId, rejectedFrom_same (acquireRun_approvals runId)⟩
    | tick runId now =>
      have hperform := raisedAt_ok.mp hperform
      exact ⟨serveTaskRun_advance hperform (fun _ => hallowed) (by rintro _ _ _ ⟨⟩)
        (by rintro _ _ ⟨⟩), rejectedFrom_same (hserve hperform)⟩
    | pause runId now =>
      have hperform := raisedAt_ok.mp hperform
      exact ⟨serveTaskRun_advance hperform (by rintro ⟨⟩) (by rintro _ _ _ ⟨⟩)
        (by rintro _ _ ⟨⟩), rejectedFrom_same (hserve hperform)⟩
    | resume runId now =>
      have hperform := raisedAt_ok.mp hperform
      exact ⟨serveTaskRun_advance hperform (by rintro ⟨⟩) (by rintro _ _ _ ⟨⟩)
        (by rintro _ _ ⟨⟩), rejectedFrom_same (hserve hperform)⟩
    | cancel runId now =>
      have hperform := raisedAt_ok.mp hperform
      exact ⟨serveTaskRun_advance hperform (by rintro ⟨⟩) (by rintro _ _ _ ⟨⟩)
        (by rintro _ _ ⟨⟩), rejectedFrom_same (hserve hperform)⟩
    | markFailed runId stopReason failureClass source now =>
      have hperform := raisedAt_ok.mp hperform
      -- only a mark of a failure is allowed with a condition
      refine ⟨serveTaskRun_advance hperform (by rintro ⟨⟩) ?_ (by rintro _ _ ⟨⟩),
        rejectedFrom_same (hserve hperform)⟩
      intro _ _ _ hcall
      cases hcall
      exact hallowed
  · -- a call that raises changes nothing
    rw [hstep]
    exact ⟨runsAdvance_keep rfl, rejectedFrom_same fun _ => rfl⟩

theorem mem_waiting {id approvalId : String} : (id, approvalId) ∈ s.waiting ↔
    ∃ row, s.runs.get? id = some row ∧ row.waitsFor = some approvalId := by
  unfold GovernedStore.waiting
  rw [List.mem_filterMap]
  constructor
  · rintro ⟨row, hrow, hwaits⟩
    obtain ⟨_, hwaits, heq⟩ := Option.map_eq_some_iff.mp hwaits
    cases heq
    exact ⟨row, Table.get?_of_mem hrow, hwaits⟩
  · rintro ⟨row, hrow, hwaits⟩
    refine ⟨row, Table.mem_of_get? hrow, ?_⟩
    rw [hwaits, Option.map_some, Table.key_of_get? hrow]

theorem Ended.advance {row row' : TaskRunRow} (h : Ended row)
    (hmove : row' = row ∨ RunMove t row row') : Ended row' := by
  rcases hmove with rfl | hmove
  · exact h
  · rcases h with hfinished | hfailed
    · rw [hmove.unfinished] at hfinished
      cases hfinished
    · exact Or.inr (hmove.failed hfailed)

/-! ### The invariant -/

/-- Runs are within their limits, and a run that has waited for an approval that
is rejected has ended. -/
structure RunsSound (w : Watched) : Prop where
  limits : ∀ id row, w.store.runs.get? id = some row → WithinLimits row
  waiting : ∀ pair ∈ w.store.waiting, pair ∈ w.waited
  known : ∀ id approvalId, (id, approvalId) ∈ w.waited → ∃ row, w.store.runs.get? id = some row
  ended : ∀ id approvalId row, (id, approvalId) ∈ w.waited →
    w.store.approvalStatus approvalId = some .rejected → w.store.runs.get? id = some row → Ended row

/-- The runs that had waited for an approval before the step. -/
theorem RunsSound.ended_step (hw : RunsSound w) (h : LimitedStep env w call w')
    {id approvalId : String} {row' : TaskRunRow} (hwaited : (id, approvalId) ∈ w.waited)
    (hrejected : w'.store.approvalStatus approvalId = some .rejected)
    (hrow' : w'.store.runs.get? id = some row') : Ended row' := by
  obtain ⟨hadvance, hfrom⟩ := limitedStep_advance h
  obtain ⟨row, hrow⟩ := hw.known id approvalId hwaited
  obtain ⟨row'', hrow'', hmove⟩ := hadvance.kept id row hrow
  rw [hrow'] at hrow''
  cases hrow''
  by_cases hbefore : w.store.approvalStatus approvalId = some .rejected
  · exact (hw.ended id approvalId row hwaited hbefore hrow).advance hmove
  · -- the step is the rejection
    obtain ⟨req, rfl, rfl, hrejects⟩ := (hfrom approvalId hrejected).resolve_left hbefore
    have hstep := h.step
    unfold GovernedStep at hstep
    split at hstep
    · next u hperform =>
      obtain ⟨approval, happroval, hpending, -, -, hfails⟩ := resolve_runs hperform
      have hfound : RejectFinds w req := h.allowed
      rcases hfound hrejects approval happroval hpending id hwaited row hrow with
        hended | ⟨hwaiting, hlinked⟩
      · exact hended.advance hmove
      · obtain ⟨failed, hget, hfailed⟩ := hfails hrejects id row hlinked hrow hwaiting
        rw [← hstep, hrow'] at hget
        cases hget
        exact Or.inr hfailed
    · rw [hstep] at hrejected
      exact absurd hrejected hbefore

/-- One call within the conditions keeps every run within its limits, and every run that
waited for an approval now rejected has ended. -/
theorem RunsSound.step (hw : RunsSound w) (h : LimitedStep env w call w') : RunsSound w' := by
  obtain ⟨hadvance, -⟩ := limitedStep_advance h
  have hcases : ∀ {id row'}, w'.store.runs.get? id = some row' →
      (∃ row, w.store.runs.get? id = some row ∧ (row' = row ∨ RunMove w'.store row row')) ∨
        WithinLimits row' ∧ row'.status = .queued := by
    intro id row' hrow'
    cases hrow : w.store.runs.get? id with
    | none => exact Or.inr (hadvance.fresh id row' hrow' hrow)
    | some row =>
      obtain ⟨row'', hrow'', hmove⟩ := hadvance.kept id row hrow
      rw [hrow'] at hrow''
      cases hrow''
      exact Or.inl ⟨row, rfl, hmove⟩
  constructor
  · intro id row' hrow'
    rcases hcases hrow' with ⟨row, hrow, rfl | hmove⟩ | ⟨hlimits, -⟩
    · exact hw.limits id row' hrow
    · exact hmove.limits (hw.limits id row hrow)
    · exact hlimits
  · intro pair hpair
    rw [h.watched]
    exact List.mem_append_right _ hpair
  · intro id approvalId hwaited
    rw [h.watched] at hwaited
    rcases List.mem_append.mp hwaited with hold | hnew
    · obtain ⟨row, hrow⟩ := hw.known id approvalId hold
      obtain ⟨row', hrow', -⟩ := hadvance.kept id row hrow
      exact ⟨row', hrow'⟩
    · obtain ⟨row, hrow, -⟩ := mem_waiting.mp hnew
      exact ⟨row, hrow⟩
  · intro id approvalId row' hwaited hrejected hrow'
    rw [h.watched] at hwaited
    rcases List.mem_append.mp hwaited with hold | hnew
    · exact hw.ended_step h hold hrejected hrow'
    · -- a run that waits now waited before, or waits for a pending approval
      obtain ⟨waiting, hget, hwaits⟩ := mem_waiting.mp hnew
      rw [hrow'] at hget
      cases hget
      rcases hcases hrow' with ⟨row, hrow, rfl | hmove⟩ | ⟨-, hqueued⟩
      · have hold := hw.waiting _ (mem_waiting.mpr ⟨row', hrow, hwaits⟩)
        exact hw.ended_step h hold hrejected hrow'
      · rw [hmove.waits approvalId hwaits] at hrejected
        cases hrejected
      · have hnone : row'.waitsFor = none := waitsFor_of_ne (by rw [hqueued]; nofun)
        rw [hnone] at hwaits
        cases hwaits

end Steps

/-! ### Runs -/

section Runs

variable {ops : List GovernedCall} {w : Watched}

theorem runsSound_of_run (run : Run (LimitedStep env) (· = {}) ops w) : RunsSound w := by
  refine run.invariant (P := RunsSound) ?_ fun w call w' hw hstep => hw.step hstep
  rintro _ rfl
  exact
    { limits := fun id row hrow => by cases hrow
      waiting := fun pair hpair => hpair
      known := fun id approvalId hwaited => by cases hwaited
      ended := fun id approvalId row hwaited => by cases hwaited }

/-- A run that has ended is left as it is, or stays failed for good. -/
theorem ended_of_run {later : List GovernedCall} {w' : Watched} {id : String} {row : TaskRunRow}
    (hrow : w.store.runs.get? id = some row)
    (run : Run (LimitedStep env) (· = w) later w') :
    ∃ row', w'.store.runs.get? id = some row' ∧
      (row.status.finished = true → row' = row) ∧ (FailedForGood row → FailedForGood row') := by
  refine run.invariant (P := fun w' => ∃ row', w'.store.runs.get? id = some row' ∧
    (row.status.finished = true → row' = row) ∧ (FailedForGood row → FailedForGood row')) ?_ ?_
  · rintro _ rfl
    exact ⟨row, hrow, fun _ => rfl, fun h => h⟩
  · rintro u call v ⟨mid, hmid, hfinished, hfailed⟩ hstep
    obtain ⟨row', hrow', hmove⟩ := (limitedStep_advance hstep).1.kept id mid hmid
    refine ⟨row', hrow', ?_, ?_⟩
    · -- a finished run is not found by any move
      intro h
      rcases hmove with rfl | hmove
      · exact hfinished h
      · have := hmove.unfinished
        rw [hfinished h, h] at this
        cases this
    · intro h
      rcases hmove with rfl | hmove
      · exact hfailed h
      · exact hmove.failed (hfailed h)

/-- As long as the calls keep to the conditions: every run is within its limits,
a run that failed for good stays failed, and a run that has waited for an
approval that is now rejected is done later only if it is done now. -/
theorem task_run_limits (run : Run (LimitedStep env) (· = {}) ops w) :
    (∀ id row, w.store.runs.get? id = some row → WithinLimits row) ∧
      ∀ later w', Run (LimitedStep env) (· = w) later w' →
        ∀ id row, w.store.runs.get? id = some row →
          ∃ row', w'.store.runs.get? id = some row' ∧
            (FailedForGood row → FailedForGood row') ∧
            ∀ approvalId, (id, approvalId) ∈ w.waited →
              w.store.approvalStatus approvalId = some .rejected →
              row'.status = .done → row.status = .done := by
  have hw := runsSound_of_run run
  refine ⟨hw.limits, ?_⟩
  intro later w' run' id row hrow
  obtain ⟨row', hrow', hfinished, hfailed⟩ := ended_of_run hrow run'
  refine ⟨row', hrow', hfailed, ?_⟩
  intro approvalId hwaited hrejected hdone
  -- the run has ended since, and stays so, or it failed for good
  rcases hw.ended id approvalId row hwaited hrejected hrow with h | h
  · rw [← hfinished h, hdone]
  · have hstatus := (hfailed h).1
    rw [hdone] at hstatus
    cases hstatus

end Runs

/-! ### A budget of one tick -/

/-- What a call leaves behind, watched. -/
def Watched.serve (env : GovernedEnv) (w : Watched) (call : GovernedCall) : Watched where
  store := call.serve env w.store
  waited := w.waited ++ (call.serve env w.store).waiting

def oneTickCreate : GovernedCall :=
  .createRun { taskId := "task", maxTicks := 1, checkpoint := [] } "run" "t0"

/-- A request, and a run on its task with a budget of one tick. -/
def oneTickRun : Watched := (({} : Watched).serve plainEnv echoSubmit).serve plainEnv oneTickCreate

def oneTickWaiting : Watched := oneTickRun.serve plainEnv (.tick "run" "t1")

def oneTickRejected : Watched := oneTickWaiting.serve plainEnv (.resolve (echoResolve false))

/-- The run waits after its one tick, its approval is rejected: it is within its
limits and never done. -/
theorem rejected_wait_is_not_done :
    (∀ id row, oneTickRejected.store.runs.get? id = some row → WithinLimits row) ∧
      ∀ later w', Run (LimitedStep plainEnv) (· = oneTickRejected) later w' →
        ∃ row, w'.store.runs.get? "run" = some row ∧ row.status ≠ .done := by
  -- a request, a run of one tick, the tick and the rejection
  have start : Run (LimitedStep plainEnv) (· = ({} : Watched)) [] {} := .start rfl
  have submitted : Run (LimitedStep plainEnv) (· = {}) _
      (({} : Watched).serve plainEnv echoSubmit) :=
    start.next ⟨governedStep_serve _ _ echoSubmit, rfl, trivial⟩
  have created : Run (LimitedStep plainEnv) (· = {}) _ oneTickRun :=
    submitted.next ⟨governedStep_serve _ _ oneTickCreate, rfl, trivial⟩
  have hfits : TickFits oneTickRun.store "run" := by
    intro row task approvalId hrow _ _
    have hleft : (oneTickRun.store.runs.get? "run").all
        (fun row => decide (row.tickCount < row.maxTicks)) = true := by decide +kernel
    rw [hrow] at hleft
    exact of_decide_eq_true hleft
  have waiting : Run (LimitedStep plainEnv) (· = {}) _ oneTickWaiting :=
    created.next ⟨governedStep_serve _ _ (.tick "run" "t1"), rfl, hfits⟩
  have hfinds : RejectFinds oneTickWaiting (echoResolve false) := by
    intro _ approval happroval _ runId hwaited row hrow
    change oneTickWaiting.store.approvals.get? "approval" = some approval at happroval
    have hlinked : (oneTickWaiting.store.approvals.get? "approval").all
        (fun approval => decide (approval.taskRunId = some "run")) = true := by decide +kernel
    have hwaits : (oneTickWaiting.store.runs.get? "run").all
        (fun row => decide (row.status = .waitingApproval)) = true := by decide +kernel
    have honly : oneTickWaiting.waited = [("run", "approval")] := by decide +kernel
    rw [honly, List.mem_singleton] at hwaited
    cases hwaited
    rw [happroval] at hlinked
    rw [hrow] at hwaits
    exact Or.inr ⟨of_decide_eq_true hwaits, of_decide_eq_true hlinked⟩
  have rejected : Run (LimitedStep plainEnv) (· = {}) _ oneTickRejected :=
    waiting.next ⟨governedStep_serve _ _ (.resolve (echoResolve false)), rfl, hfinds⟩
  -- whatever follows, the run is the failed one
  obtain ⟨hlimits, hlater⟩ := task_run_limits rejected
  refine ⟨hlimits, ?_⟩
  intro later w' run
  have hfailed : (oneTickRejected.store.runs.get? "run").map (·.status) = some .failed := by
    decide +kernel
  obtain ⟨row, hrow, hstatus⟩ := Option.map_eq_some_iff.mp hfailed
  obtain ⟨row', hrow', -, hdone⟩ := hlater later w' run "run" row hrow
  refine ⟨row', hrow', fun h => ?_⟩
  rw [hdone "approval" (by decide +kernel) (by decide +kernel) h] at hstatus
  cases hstatus

/-- The run is paused and resumed while its approval is pending, and ticked. -/
def oneTickOver : GovernedStore :=
  [.pause "run" "t2", .resume "run" "t3", .tick "run" "t4"].foldl (GovernedCall.serve plainEnv)
    oneTickWaiting.store

/-- Paused and resumed while its approval is pending, a run is ticked beyond its
budget. -/
theorem paused_wait_exceeds_budget :
    ∃ ops s row, Run (GovernedStep plainEnv) (· = {}) ops s ∧ s.runs.get? "run" = some row ∧
      row.maxTicks < row.tickCount := by
  have start : Run (GovernedStep plainEnv) (· = ({} : GovernedStore)) [] {} := .start rfl
  have submitted := start.next (governedStep_serve plainEnv _ echoSubmit)
  have created := submitted.next (governedStep_serve plainEnv _ oneTickCreate)
  have waiting := created.next (governedStep_serve plainEnv _ (.tick "run" "t1"))
  have paused := waiting.next (governedStep_serve plainEnv _ (.pause "run" "t2"))
  have resumed := paused.next (governedStep_serve plainEnv _ (.resume "run" "t3"))
  have ticked : Run (GovernedStep plainEnv) (· = {}) _ oneTickOver :=
    resumed.next (governedStep_serve plainEnv _ (.tick "run" "t4"))
  have hcounts : (oneTickOver.runs.get? "run").map (fun row => (row.tickCount, row.maxTicks)) =
      some (2, 1) := by
    decide +kernel
  obtain ⟨row, hrow, hrowCounts⟩ := Option.map_eq_some_iff.mp hcounts
  refine ⟨_, oneTickOver, row, ticked, hrow, ?_⟩
  rw [(Prod.mk.inj hrowCounts).1, (Prod.mk.inj hrowCounts).2]
  decide

end AliceBot
