import AliceBot.GovernedTasks
import AliceBot.Library.Run

/-!
# Task steps and their status graph

`transition_task_step_record` checks the status graph and that the step is the
latest one; the synchronisers behind a resolution and an execution check
neither. They write the step an approval is linked to and the task whose latest
approval it is, each for itself.

`task_steps_follow_graph` says for which resolutions and executions that is no
harm: the linked step is still the latest one and at the status the call expects,
or the call finds the statuses it would write. `executed_step_is_blocked` runs
one approval twice, the second time over budget.
-/

namespace AliceBot

open PyLib

variable {env : GovernedEnv}

/-! ### The condition -/

/-- A resolution leaves the status: it is final, or the one it would set. -/
def LeavesStatus (target current : TaskStepStatus) : Prop :=
  current = .executed ∨ current = .blocked ∨ current = target

/-- The linked step of a pending approval is the latest one and still `created`,
or the resolution leaves it and the latest step as they are. -/
def ResolveAgrees (s : GovernedStore) (req : ResolveRequest) : Prop :=
  ∀ approval task step latest, s.approvals.get? req.approvalId = some approval →
    approval.status = .pending →
    validateLinkedTaskStepForApproval s req.approvalId approval.taskStepId = .ok (task, step) →
    s.latestStep task.id = some latest →
    step.id = latest.id ∧ step.status = .created ∨
      LeavesStatus req.target.stepStatus step.status ∧
        LeavesStatus req.target.stepStatus latest.status

/-- The linked step of an approval that is executed anew is the latest one and
`approved`, or it and the latest step already have the status of the result. -/
def ExecuteAgrees (env : GovernedEnv) (s : GovernedStore) (req : ExecuteRequest) : Prop :=
  ∀ approval task step linked s' key latest, s.approvals.get? req.approvalId = some approval →
    approval.status = .approved →
    validateLinkedTaskStepForApproval s req.approvalId approval.taskStepId = .ok (task, step) →
    resolveTaskRunLinkage s approval step req.taskRunId = .ok (linked, s') →
    executionKey env approval linked = .ok key → s.replayed linked req.approvalId key = none →
    (req.blocked.isSome ∨ (registeredProxyHandler approval.toolKey).isSome) →
    s.latestStep task.id = some latest →
    step.id = latest.id ∧ step.status = .approved ∨
      step.status = req.verdict.stepStatus ∧ latest.status = req.verdict.stepStatus

/-- A step whose resolution or execution agrees with the steps. -/
def AgreeingStep (env : GovernedEnv) (s : GovernedStore) (call : GovernedCall)
    (t : GovernedStore) : Prop :=
  GovernedStep env s call t ∧
    match call with
    | .resolve req => ResolveAgrees s req
    | .execute req => ExecuteAgrees env s req
    | _ => True

/-! ### What is promised -/

/-- The task has steps `1..n`, all but the last are appendable, and its status is
the last one's. -/
def TaskMirrors (s : GovernedStore) (task : TaskRow) : Prop :=
  ∃ front latest, s.stepsOf task.id = front ++ [latest] ∧
    (s.stepsOf task.id).map (·.sequenceNo) = List.range' 1 (front.length + 1) ∧
    (∀ step ∈ front, step.status.appendable = true) ∧ task.status = latest.status.taskStatus

/-- Steps stay, and each keeps its status or follows an edge of the graph. -/
def FollowsGraph (s t : GovernedStore) : Prop :=
  ∀ id step, s.steps.get? id = some step → ∃ step', t.steps.get? id = some step' ∧
    step'.taskId = step.taskId ∧ step'.sequenceNo = step.sequenceNo ∧
    (step'.status = step.status ∨ step'.status ∈ step.status.graph)

/-! ### The invariant -/

/-- The steps of a task, as the table has them. -/
def GovernedStore.rowsOf (s : GovernedStore) (taskId : String) : List TaskStepRow :=
  s.steps.rows.filter fun row => row.taskId == taskId

/-- The steps of the task are inserted in order, the last one is its mirror. -/
structure TaskSound (s : GovernedStore) (task : TaskRow) (n : Nat) : Prop where
  numbers : (s.rowsOf task.id).map (·.sequenceNo) = List.range' 1 (n + 1)
  closed : ∀ step ∈ s.rowsOf task.id, step.sequenceNo ≤ n → step.status.appendable = true
  mirror : ∀ step ∈ s.rowsOf task.id, step.sequenceNo = n + 1 →
    task.status = step.status.taskStatus

structure StepsSound (s : GovernedStore) : Prop where
  tasks : ∀ id task, s.tasks.get? id = some task → ∃ n, TaskSound s task n
  owned : ∀ step ∈ s.steps.rows, ∃ task, s.tasks.get? step.taskId = some task

section Latest

variable {s : GovernedStore} {task : TaskRow} {n : Nat}

theorem TaskSound.stepsOf_eq (h : TaskSound s task n) : s.stepsOf task.id = s.rowsOf task.id := by
  have hnumbers : (s.rowsOf task.id).Pairwise fun a b => a.sequenceNo ≤ b.sequenceNo := by
    rw [← List.pairwise_map (f := fun row : TaskStepRow => row.sequenceNo) (R := (· ≤ ·)),
      h.numbers]
    exact List.pairwise_le_range'
  exact hnumbers.insertionSort_eq

/-- The last row of the task, and what stands before it. -/
theorem TaskSound.rows_eq (h : TaskSound s task n) :
    ∃ front latest, s.rowsOf task.id = front ++ [latest] ∧ front.length = n ∧
      latest.sequenceNo = n + 1 ∧ ∀ step ∈ front, step.sequenceNo ≤ n := by
  have hne : s.rowsOf task.id ≠ [] := by
    intro hnil
    have := h.numbers
    rw [hnil] at this
    simp [List.range'_succ] at this
  obtain ⟨front, latest, hrows⟩ := List.eq_nil_or_concat' _ |>.resolve_left hne
  have hnumbers := h.numbers
  rw [hrows, List.map_append, List.range'_concat] at hnumbers
  obtain ⟨hfront, hlatest⟩ := List.append_inj' hnumbers rfl
  refine ⟨front, latest, hrows, ?_, ?_, ?_⟩
  · simpa using congrArg List.length hfront
  · simpa [Nat.add_comm] using hlatest
  · intro step hstep
    have hmem : step.sequenceNo ∈ front.map (·.sequenceNo) := List.mem_map_of_mem hstep
    rw [hfront, List.mem_range'_1] at hmem
    omega

theorem TaskSound.latestStep_eq (h : TaskSound s task n) :
    ∃ latest, s.latestStep task.id = some latest ∧ latest ∈ s.rowsOf task.id ∧
      latest.sequenceNo = n + 1 := by
  obtain ⟨front, latest, hrows, -, hlatest, -⟩ := h.rows_eq
  refine ⟨latest, ?_, ?_, hlatest⟩
  · rw [GovernedStore.latestStep, h.stepsOf_eq, hrows]
    simp
  · rw [hrows]
    simp

theorem TaskSound.mirrors (h : TaskSound s task n) : TaskMirrors s task := by
  obtain ⟨front, latest, hrows, hlength, hlatest, hfront⟩ := h.rows_eq
  refine ⟨front, latest, ?_, ?_, ?_, ?_⟩
  · rw [h.stepsOf_eq, hrows]
  · rw [h.stepsOf_eq, h.numbers, hlength]
  · intro step hstep
    exact h.closed step (by rw [hrows]; simp [hstep]) (hfront step hstep)
  · exact h.mirror latest (by rw [hrows]; simp) hlatest

/-- Steps of a task are told apart by their numbers. -/
theorem TaskSound.eq_of_number (h : TaskSound s task n) {a b : TaskStepRow}
    (ha : a ∈ s.rowsOf task.id) (hb : b ∈ s.rowsOf task.id)
    (hnumber : a.sequenceNo = b.sequenceNo) : a = b := by
  have hnodup : ((s.rowsOf task.id).map (·.sequenceNo)).Nodup := by
    rw [h.numbers]
    exact List.nodup_range'
  exact List.inj_on_of_nodup_map hnodup ha hb hnumber

end Latest

/-! ### Writing a step and its task -/

section Write

variable {s t : GovernedStore} {task : TaskRow} {step latest : TaskStepRow} {status : TaskStatus}
  {stepStatus : TaskStepStatus} {approvalId executionId : Option String} {outcome : StepOutcome}

theorem mem_rowsOf {row : TaskStepRow} {taskId : String} :
    row ∈ s.rowsOf taskId ↔ row ∈ s.steps.rows ∧ row.taskId = taskId := by
  simp [GovernedStore.rowsOf]

theorem get?_of_latestStep (h : s.latestStep task.id = some latest) :
    s.steps.get? latest.id = some latest ∧ latest.taskId = task.id := by
  have hmem : latest ∈ s.stepsOf task.id := List.mem_of_getLast? h
  rw [GovernedStore.stepsOf, List.mem_insertionSort] at hmem
  obtain ⟨hrow, hof⟩ := mem_rowsOf.mp hmem
  exact ⟨Table.get?_of_mem hrow, hof⟩

/-- One row rewritten, seen from a task. -/
theorem rowsOf_rewrite (ht : t.steps = s.steps.rewrite step.id (rewriteStep stepStatus outcome))
    (taskId : String) :
    t.rowsOf taskId = (s.rowsOf taskId).map fun row =>
      if row.id = step.id then (rewriteStep stepStatus outcome).apply row else row := by
  unfold GovernedStore.rowsOf
  rw [ht, Table.rewrite]
  simp only
  rw [List.filter_map]
  congr 1
  refine List.filter_congr fun row _ => ?_
  simp only [Function.comp]
  split <;> rfl

/-- A step and its task are written: the invariant stays if the task goes where
its latest step is, and no earlier step is opened. -/
theorem StepsSound.write (hs : StepsSound s)
    (hstep : s.steps.get? step.id = some step)
    (hlatest : s.latestStep task.id = some latest) (hof : step.taskId = task.id)
    (htasks : t.tasks = s.tasks.rewrite task.id (rewriteTask status approvalId executionId))
    (hsteps : t.steps = s.steps.rewrite step.id (rewriteStep stepStatus outcome))
    (hmirror : status = (if step.id = latest.id then stepStatus else latest.status).taskStatus)
    (hclosed : step.id ≠ latest.id → stepStatus.appendable = true) : StepsSound t := by
  -- the row with the id of the step is the step that was read
  have hid : ∀ row ∈ s.steps.rows, row.id = step.id → row = step := by
    intro row hrow hrowid
    have := Table.get?_of_mem hrow
    rw [hrowid, hstep] at this
    exact (Option.some.inj this).symm
  constructor
  · intro id task' htask'
    rw [htasks, Table.get?_rewrite_eq_some_iff] at htask'
    obtain ⟨old, hold, hcase⟩ := htask'
    -- the steps of each task are those before the write, one of them rewritten
    obtain ⟨n, hsound⟩ := hs.tasks id old hold
    have hsame : task'.id = old.id := by
      rcases hcase with ⟨-, rfl⟩ | ⟨-, rfl⟩ <;> rfl
    have hrows := rowsOf_rewrite hsteps task'.id
    rw [hsame] at hrows
    refine ⟨n, ?_, ?_, ?_⟩
    · rw [hsame, hrows, List.map_map, ← hsound.numbers]
      refine List.map_congr_left fun row _ => ?_
      simp only [Function.comp]
      split <;> rfl
    · intro row' hrow' hle
      rw [hsame, hrows] at hrow'
      obtain ⟨row, hrow, rfl⟩ := List.mem_map.mp hrow'
      by_cases hrowid : row.id = step.id
      · rw [if_pos hrowid] at hle ⊢
        refine hclosed fun hlast => ?_
        -- the latest step is not an earlier one
        have hrowstep := hid row (mem_rowsOf.mp hrow).1 hrowid
        have holdid : old.id = task.id := by
          rw [← (mem_rowsOf.mp hrow).2, hrowstep, hof]
        obtain ⟨latest', hlatest', -, hnumber⟩ := hsound.latestStep_eq
        rw [holdid, hlatest] at hlatest'
        cases hlatest'
        have hrowlatest : row = latest := by
          have := (get?_of_latestStep hlatest).1
          rw [← hlast, hstep] at this
          rw [hrowstep]
          exact Option.some.inj this
        have hle' : row.sequenceNo ≤ n := hle
        rw [hrowlatest, hnumber] at hle'
        omega
      · rw [if_neg hrowid] at hle ⊢
        exact hsound.closed row hrow hle
    · intro row' hrow' hnumber
      rw [hsame, hrows] at hrow'
      obtain ⟨row, hrow, rfl⟩ := List.mem_map.mp hrow'
      have hnumber' : row.sequenceNo = n + 1 := by
        split at hnumber <;> exact hnumber
      rcases hcase with ⟨hkey, rfl⟩ | ⟨hne, rfl⟩
      · -- the task that is written: the row is its latest step
        have holdid : old.id = task.id := (Table.key_of_get? hold).trans hkey.symm
        obtain ⟨latest', hlatest', hmem, hlast⟩ := hsound.latestStep_eq
        rw [holdid, hlatest] at hlatest'
        cases hlatest'
        have hrowlatest := hsound.eq_of_number hrow hmem (hnumber'.trans hlast.symm)
        subst hrowlatest
        show status = _
        rw [hmirror]
        by_cases hrowid : row.id = step.id
        · rw [if_pos hrowid, if_pos hrowid.symm]
          rfl
        · rw [if_neg hrowid, if_neg (Ne.symm hrowid)]
      · -- another task has none of its steps written
        have hrowid : row.id ≠ step.id := by
          intro hrowid
          have hrowstep := hid row (mem_rowsOf.mp hrow).1 hrowid
          apply hne
          rw [← hof, ← hrowstep, (mem_rowsOf.mp hrow).2]
          exact Table.key_of_get? hold
        rw [if_neg hrowid]
        exact hsound.mirror row hrow hnumber'
  · -- every step still has its task
    intro row' hrow'
    rw [hsteps, Table.rewrite] at hrow'
    obtain ⟨row, hrow, rfl⟩ := List.mem_map.mp hrow'
    obtain ⟨owner, howner⟩ := hs.owned row hrow
    have hsame :
        (if row.id = step.id then (rewriteStep stepStatus outcome).apply row else row).taskId
          = row.taskId := by
      split <;> rfl
    rw [hsame, htasks, Table.get?_rewrite, howner]
    split
    · exact ⟨_, rfl⟩
    · exact ⟨_, rfl⟩

theorem followsGraph_write (hstep : s.steps.get? step.id = some step)
    (hsteps : t.steps = s.steps.rewrite step.id (rewriteStep stepStatus outcome))
    (hedge : stepStatus = step.status ∨ stepStatus ∈ step.status.graph) : FollowsGraph s t := by
  intro id row hrow
  rw [hsteps, Table.get?_rewrite, hrow]
  split
  · next hid =>
    rw [← hid, hstep] at hrow
    cases hrow
    exact ⟨_, rfl, rfl, rfl, hedge⟩
  · exact ⟨row, rfl, rfl, rfl, Or.inl rfl⟩

/-- Calls that write neither tasks nor steps. -/
def KeepsTasks (s t : GovernedStore) : Prop :=
  t.tasks = s.tasks ∧ t.steps = s.steps

theorem StepsSound.keep (hs : StepsSound s) (h : KeepsTasks s t) : StepsSound t := by
  obtain ⟨htasks, hsteps⟩ := h
  constructor
  · intro id task htask
    obtain ⟨n, hn⟩ := hs.tasks id task (htasks ▸ htask)
    have hrows : t.rowsOf task.id = s.rowsOf task.id := by
      unfold GovernedStore.rowsOf
      rw [hsteps]
    exact ⟨n, hrows ▸ hn.numbers, hrows ▸ hn.closed, hrows ▸ hn.mirror⟩
  · intro step hstep
    rw [htasks]
    exact hs.owned step (hsteps ▸ hstep)

theorem followsGraph_keep (h : KeepsTasks s t) : FollowsGraph s t := by
  intro id step hstep
  exact ⟨step, h.2 ▸ hstep, rfl, rfl, Or.inl rfl⟩

/-- A new task comes with its first step. -/
theorem StepsSound.first (hs : StepsSound s) (htasks : s.tasks.insert? task = some t.tasks)
    (hsteps : s.steps.insert? step = some t.steps) (hof : step.taskId = task.id)
    (hnumber : step.sequenceNo = 1) (hmirror : task.status = step.status.taskStatus) :
    StepsSound t := by
  obtain ⟨hfresh, -⟩ := Table.insert?_eq_some_iff.mp htasks
  obtain ⟨-, hrows⟩ := Table.insert?_eq_some_iff.mp hsteps
  constructor
  · intro id task' htask'
    have hrowsOf : t.rowsOf task'.id =
        s.rowsOf task'.id ++ if task.id = task'.id then [step] else [] := by
      unfold GovernedStore.rowsOf
      rw [hrows, List.filter_append]
      congr 1
      by_cases hid : task.id = task'.id
      · simp [hof, hid]
      · simp [hof, hid]
    rw [Table.get?_insert? htasks] at htask'
    split at htask'
    · -- the new task has no other step
      cases htask'
      have hnone : s.rowsOf task.id = [] := by
        refine List.filter_eq_nil_iff.mpr fun row hrow => ?_
        obtain ⟨owner, howner⟩ := hs.owned row hrow
        simp only [beq_iff_eq]
        intro hrowof
        rw [hrowof, hfresh] at howner
        cases howner
      rw [hnone, if_pos rfl, List.nil_append] at hrowsOf
      refine ⟨0, ?_, ?_, ?_⟩
      · rw [hrowsOf]
        simp [hnumber]
      · intro row hrow hle
        rw [hrowsOf, List.mem_singleton] at hrow
        subst hrow
        omega
      · intro row hrow _
        rw [hrowsOf, List.mem_singleton] at hrow
        subst hrow
        exact hmirror
    · next hne =>
      have hid : task.id ≠ task'.id := by
        rw [Table.key_of_get? htask']
        exact hne
      rw [if_neg hid, List.append_nil] at hrowsOf
      obtain ⟨n, hn⟩ := hs.tasks id task' htask'
      exact ⟨n, hrowsOf ▸ hn.numbers, hrowsOf ▸ hn.closed, hrowsOf ▸ hn.mirror⟩
  · intro row hrow
    rw [Table.get?_insert? htasks]
    split
    · exact ⟨_, rfl⟩
    · next hne =>
      rw [hrows, List.mem_append, List.mem_singleton] at hrow
      rcases hrow with hrow | rfl
      · exact hs.owned row hrow
      · exact absurd hof.symm hne

/-- A step follows a task's latest one, which is closed, and the task mirrors
it. -/
theorem StepsSound.append (hs : StepsSound s) (htask : s.tasks.get? task.id = some task)
    (hlatest : s.latestStep task.id = some latest) (happendable : latest.status.appendable = true)
    (hsteps : s.steps.insert? step = some t.steps) (hof : step.taskId = task.id)
    (hnumber : step.sequenceNo = latest.sequenceNo + 1)
    (htasks : t.tasks = s.tasks.rewrite task.id (rewriteTask status approvalId executionId))
    (hmirror : status = step.status.taskStatus) : StepsSound t := by
  obtain ⟨-, hrows⟩ := Table.insert?_eq_some_iff.mp hsteps
  -- the new row is the last of its task's steps, and no other task's
  have hrowsOf : ∀ taskId, t.rowsOf taskId =
      s.rowsOf taskId ++ if task.id = taskId then [step] else [] := by
    intro taskId
    unfold GovernedStore.rowsOf
    rw [hrows, List.filter_append]
    congr 1
    by_cases hid : task.id = taskId
    · simp [hof, hid]
    · simp [hof, hid]
  constructor
  · intro id task' htask'
    rw [htasks, Table.get?_rewrite_eq_some_iff] at htask'
    obtain ⟨old, hold, hcase⟩ := htask'
    obtain ⟨n, hsound⟩ := hs.tasks id old hold
    have holdid := Table.key_of_get? hold
    -- the task the step was appended to, and any other one
    rcases hcase with ⟨hid, rfl⟩ | ⟨hne, rfl⟩
    · subst hid
      rw [htask] at hold
      cases hold
      obtain ⟨latest', hlatest', hmem, hlast⟩ := hsound.latestStep_eq
      rw [hlatest] at hlatest'
      cases hlatest'
      have hrowsOf := hrowsOf task.id
      rw [if_pos rfl] at hrowsOf
      refine ⟨n + 1, ?_, ?_, ?_⟩
      · -- the numbers go on from the latest step
        show (t.rowsOf task.id).map (·.sequenceNo) = _
        rw [hrowsOf, List.map_append, hsound.numbers, List.range'_concat (n := n + 1)]
        simp [hnumber, hlast, Nat.add_comm]
      · -- every step but the new one is closed, the former latest one by the check
        intro row hrow hle
        have hrow : row ∈ t.rowsOf task.id := hrow
        rw [hrowsOf, List.mem_append, List.mem_singleton] at hrow
        rcases hrow with hrow | rfl
        · rcases Nat.lt_or_ge n row.sequenceNo with hlt | hge
          · have hrowlatest := hsound.eq_of_number hrow hmem (by omega)
            rw [hrowlatest]
            exact happendable
          · exact hsound.closed row hrow hge
        · omega
      · -- and the task mirrors the new step, since no earlier one has its number
        intro row hrow hrownumber
        have hrow : row ∈ t.rowsOf task.id := hrow
        rw [hrowsOf, List.mem_append, List.mem_singleton] at hrow
        rcases hrow with hrow | rfl
        · have hmemnumber := List.mem_map_of_mem (f := fun r : TaskStepRow => r.sequenceNo) hrow
          rw [hsound.numbers, List.mem_range'_1] at hmemnumber
          omega
        · exact hmirror
    · have hrowsOf := hrowsOf task'.id
      rw [if_neg (by rw [holdid]; exact hne), List.append_nil] at hrowsOf
      exact ⟨n, hrowsOf ▸ hsound.numbers, hrowsOf ▸ hsound.closed, hrowsOf ▸ hsound.mirror⟩
  · intro row hrow
    rw [htasks, Table.get?_rewrite]
    rw [hrows, List.mem_append, List.mem_singleton] at hrow
    -- the owner of a step stays a task, rewritten or not
    have howned : ∃ owner, s.tasks.get? row.taskId = some owner := by
      rcases hrow with hrow | rfl
      · exact hs.owned row hrow
      · rw [hof]
        exact ⟨task, htask⟩
    obtain ⟨owner, howner⟩ := howned
    rw [howner]
    split
    · exact ⟨_, rfl⟩
    · exact ⟨_, rfl⟩

theorem followsGraph_insert (hsteps : s.steps.insert? step = some t.steps) : FollowsGraph s t := by
  intro id row hrow
  refine ⟨row, ?_, rfl, rfl, Or.inl rfl⟩
  rw [Table.get?_insert? hsteps, if_neg, hrow]
  rintro rfl
  rw [(Table.insert?_eq_some_iff.mp hsteps).1] at hrow
  cases hrow

end Write

/-! ### What the calls write -/

section Calls

variable {s t : GovernedStore}

/-- The task and the step of a linkage are written, each with its own status. -/
def WritesLinked (s t : GovernedStore) (task : TaskRow) (step : TaskStepRow) (status : TaskStatus)
    (stepStatus : TaskStepStatus) : Prop :=
  (∃ approvalId executionId,
    t.tasks = s.tasks.rewrite task.id (rewriteTask status approvalId executionId)) ∧
  ∃ outcome, t.steps = s.steps.rewrite step.id (rewriteStep stepStatus outcome)

/-- A resolution that returns was of a pending approval, and wrote its step and the task
of the step. -/
theorem resolve_writes {req : ResolveRequest} (h : resolveApproval s req = .ok t) :
    ∃ approval task step, s.approvals.get? req.approvalId = some approval ∧
      approval.status = .pending ∧
      validateLinkedTaskStepForApproval s req.approvalId approval.taskStepId = .ok (task, step) ∧
      WritesLinked s t task step (nextTaskStatusForApproval task.status req.target)
        (nextTaskStepStatusForApproval step.status req.target) := by
  obtain ⟨approval, ⟨task, step⟩, _, _, happroval, hpending, hvalid, htask, hstep, hrun⟩ :=
    resolveApproval_ok h
  obtain ⟨htaskOf, hid, hget, -, -⟩ := validateLinkedTaskStepForApproval_ok.mp hvalid
  obtain ⟨task', htaskOf', rfl⟩ := syncTaskWithApproval_ok htask
  have htasksame : s.taskByApproval req.approvalId = some task' := htaskOf'
  rw [htaskOf] at htasksame
  cases htasksame
  obtain ⟨step', outcome, hid', hget', rfl⟩ := syncTaskStepWithApproval_ok hstep
  have hstepsame : s.steps.get? step'.id = some step' := hget'
  rw [hid] at hid'
  rw [← Option.some.inj hid', hget] at hstepsame
  cases hstepsame
  -- the run is written last, and it is no task and no step
  have hkeep := resumeRunAfterResolution_ok hrun
  refine ⟨approval, task, step, happroval, hpending, hvalid,
    ⟨task.latestApprovalId, task.latestExecutionId, ?_⟩, outcome, ?_⟩
  · rw [hkeep]
    rfl
  · rw [hkeep]
    rfl

/-- A recorded execution writes its step and the task of the step, with the status that
it ended in. -/
theorem recordExecution_writes {e : ToolExecution} {now : String} {task : TaskRow}
    {step : TaskStepRow} (htask : s.taskByApproval e.approvalId = some task)
    (hstep : s.steps.get? e.taskStepId = some step) (h : recordExecution s e now = .ok t) :
    WritesLinked s t task step e.status.taskStatus e.status.stepStatus := by
  obtain ⟨executions, task', _, _, -, htask', hstep', h⟩ := recordExecution_ok h
  obtain ⟨htaskOf, rfl⟩ := syncTaskWithExecution_ok htask'
  have htasksame : s.taskByApproval e.approvalId = some task' := htaskOf
  rw [htask] at htasksame
  cases htasksame
  obtain ⟨step', outcome, hget, rfl⟩ := syncTaskStepWithExecution_ok hstep'
  have hstepsame : s.steps.get? e.taskStepId = some step' := hget
  rw [hstep] at hstepsame
  cases hstepsame
  have hkeep := syncRunAfterExecution_ok h
  refine ⟨⟨task.latestApprovalId, some e.id, ?_⟩, outcome, ?_⟩
  · rw [hkeep]
    rfl
  · rw [hkeep]
    rfl

/-- An execution replays an earlier one and writes neither task nor step, or it
writes both. -/
theorem execute_writes {req : ExecuteRequest}
    (h : executeApprovedProxyRequest env s req = .ok t) :
    KeepsTasks s t ∨ ∃ approval task step linked s' key,
      s.approvals.get? req.approvalId = some approval ∧ approval.status = .approved ∧
      validateLinkedTaskStepForApproval s req.approvalId approval.taskStepId = .ok (task, step) ∧
      resolveTaskRunLinkage s approval step req.taskRunId = .ok (linked, s') ∧
      executionKey env approval linked = .ok key ∧ s.replayed linked req.approvalId key = none ∧
      (req.blocked.isSome ∨ (registeredProxyHandler approval.toolKey).isSome) ∧
      WritesLinked s t task step req.verdict.taskStatus req.verdict.stepStatus := by
  obtain ⟨approval, task, step, linked, s', key, happroval, hstatus, hvalid, hlinkage, hkey, h⟩ :=
    executeApprovedProxyRequest_ok h
  -- the linkage writes the approval at most
  have hsame : s'.tasks = s.tasks ∧ s'.steps = s.steps := by
    rcases (resolveTaskRunLinkage_ok hlinkage).2 with rfl | ⟨run, -, -, rfl⟩
    · exact ⟨rfl, rfl⟩
    · exact ⟨rfl, rfl⟩
  rcases h with ⟨e, -, hsync⟩ | ⟨hnew, hruns, result, hrecord⟩
  · left
    rw [syncRunAfterExecution_ok hsync]
    exact hsame
  · right
    refine ⟨approval, task, step, linked, s', key, happroval, hstatus, hvalid, hlinkage, hkey,
      hnew, hruns, ?_⟩
    obtain ⟨htaskOf, -, hget, -, -⟩ := validateLinkedTaskStepForApproval_ok.mp hvalid
    have htask : s'.taskByApproval req.approvalId = some task := by
      unfold GovernedStore.taskByApproval
      rw [hsame.1]
      exact htaskOf
    have hstep : s'.steps.get? step.id = some step := by
      rw [hsame.2]
      exact hget
    have hwrites := recordExecution_writes htask hstep hrecord
    unfold WritesLinked at hwrites ⊢
    rwa [hsame.1, hsame.2] at hwrites

/-- A request that returns has made a task and its first step, with the status that the
step asks for. -/
theorem submit_writes {req : SubmitRequest} (h : submitApprovalRequest s req = .ok t) :
    ∃ task step, s.tasks.insert? task = some t.tasks ∧ s.steps.insert? step = some t.steps ∧
      step.taskId = task.id ∧ step.sequenceNo = 1 ∧ task.status = step.status.taskStatus := by
  -- with an approval or without one, the task and its first step are inserted alike
  have hrest : ∀ {approvals approvalId approvalStatus}, (do
      let tasks ← insertInto s.tasks
        { id := req.taskId
          status := req.decision.taskStatus
          latestApprovalId := approvalId
          latestExecutionId := none }
      let steps ← insertInto s.steps
        { id := req.stepId
          taskId := req.taskId
          sequenceNo := 1
          status := req.decision.stepStatus
          outcome :=
            { routingDecision := req.decision
              approvalId := approvalId
              approvalStatus := approvalStatus } }
      .ok { s with approvals := approvals, tasks := tasks, steps := steps }) = Except.ok t →
      ∃ task step, s.tasks.insert? task = some t.tasks ∧ s.steps.insert? step = some t.steps ∧
        step.taskId = task.id ∧ step.sequenceNo = 1 ∧ task.status = step.status.taskStatus := by
    intro approvals approvalId approvalStatus h
    obtain ⟨tasks, htasks, h⟩ := except_bind_ok.mp h
    obtain ⟨steps, hsteps, h⟩ := except_bind_ok.mp h
    cases h
    refine ⟨_, _, insertInto_ok htasks, insertInto_ok hsteps, rfl, rfl, ?_⟩
    cases req.decision <;> rfl
  simp only [submitApprovalRequest] at h
  split at h
  · cases h
  · split at h
    · obtain ⟨approvals, -, h⟩ := except_bind_ok.mp h
      exact hrest h
    · obtain ⟨approvals, -, h⟩ := except_bind_ok.mp h
      exact hrest h

/-- A step that was appended has the next number behind a latest step that had ended,
and the task takes its status over. -/
theorem createNext_writes {req : NextStepRequest} (h : createNextTaskStepRecord s req = .ok t) :
    ∃ task latest step approvalId executionId, s.tasks.get? task.id = some task ∧
      s.latestStep task.id = some latest ∧ latest.status.appendable = true ∧
      s.steps.insert? step = some t.steps ∧ step.taskId = task.id ∧
      step.sequenceNo = latest.sequenceNo + 1 ∧
      t.tasks = s.tasks.rewrite task.id
        (rewriteTask step.status.taskStatus approvalId executionId) := by
  unfold createNextTaskStepRecord at h
  split at h
  · cases h
  · next task htask =>
    have hid := Table.key_of_get? htask
    split at h
    · cases h
    · next latest hlatest =>
      split at h
      · cases h
      · next happendable =>
        split at h
        · cases h
        · obtain ⟨_, -, h⟩ := except_bind_ok.mp h
          -- the six checks of the request, which write nothing
          obtain ⟨_, -, h⟩ := except_bind_ok.mp h
          obtain ⟨_, -, h⟩ := except_bind_ok.mp h
          obtain ⟨_, -, h⟩ := except_bind_ok.mp h
          obtain ⟨_, -, h⟩ := except_bind_ok.mp h
          obtain ⟨_, -, h⟩ := except_bind_ok.mp h
          obtain ⟨steps, hsteps, h⟩ := except_bind_ok.mp h
          obtain ⟨task', approvalId, executionId, htask', rfl⟩ := syncTaskWithTaskStepStatus_ok h
          have hsame : s.tasks.get? req.taskId = some task' := htask'
          rw [htask] at hsame
          cases hsame
          exact ⟨task, latest, _, approvalId, executionId, hid.symm ▸ htask,
            hid.symm ▸ hlatest, by simpa using happendable, insertInto_ok hsteps, hid.symm, rfl,
            rfl⟩

/-- A transition that returns has moved the latest step of its task along the graph, and
the task with it. -/
theorem transition_writes {req : StepTransitionRequest} (hs : StepsSound s)
    (h : transitionTaskStepRecord s req = .ok t) :
    ∃ task step, s.steps.get? step.id = some step ∧ step.taskId = task.id ∧
      s.latestStep task.id = some step ∧ req.status ∈ step.status.graph ∧
      WritesLinked s t task step req.status.taskStatus req.status := by
  unfold transitionTaskStepRecord at h
  split at h
  · cases h
  · next step hstep =>
    split at h
    · cases h
    · next task htask =>
      have hid := Table.key_of_get? htask
      split at h
      · cases h
      · next latest hlatest =>
        split at h
        · cases h
        · next hsame =>
          split at h
          · cases h
          · next hgraph =>
            obtain ⟨_, -, h⟩ := except_bind_ok.mp h
            obtain ⟨_, -, h⟩ := except_bind_ok.mp h
            split at h
            · cases h
            · next row hrow =>
              rw [← hid] at hlatest
              rw [← Table.key_of_get? hstep] at hstep
              obtain ⟨hget, -⟩ := get?_of_latestStep hlatest
              rw [not_not.mp hsame, hstep] at hget
              cases hget
              -- the number tells the step among those of its task
              have hrowstep : row = step := by
                obtain ⟨n, hn⟩ := hs.tasks _ task htask
                have hfound := List.find?_some hrow
                simp only [Bool.and_eq_true, beq_iff_eq] at hfound
                refine hn.eq_of_number (mem_rowsOf.mpr ⟨List.mem_of_find?_eq_some hrow, ?_⟩)
                  (mem_rowsOf.mpr ⟨Table.mem_of_get? hstep, hid.symm⟩) hfound.2
                rw [hfound.1, hid]
              subst hrowstep
              obtain ⟨task', approvalId, executionId, htask', rfl⟩ :=
                syncTaskWithTaskStepStatus_ok h
              have htasksame : s.tasks.get? row.taskId = some task' := htask'
              rw [htask] at htasksame
              cases htasksame
              exact ⟨task, row, hstep, hid.symm, hlatest, not_not.mp hgraph,
                ⟨approvalId, executionId, rfl⟩, _, rfl⟩

/-- A call on a run changes no task and no step. -/
theorem serveTaskRun_keeps {runId now : String} {call : TaskRunCall}
    (h : serveTaskRun env s runId call now = .ok t) : KeepsTasks s t := by
  unfold serveTaskRun at h
  split at h
  · split at h
    · cases h
      exact ⟨rfl, rfl⟩
    · cases h
  · split at h
    · cases h
    · cases h
      exact ⟨rfl, rfl⟩
    · split at h
      · rw [(updateRun_ok h).2]
        exact ⟨rfl, rfl⟩
      · rw [(updateRun_ok h).2]
        exact ⟨rfl, rfl⟩

end Calls

/-! ### Steps of the system -/

theorem nextTaskStepStatus_of_leaves {status : ApprovalStatus} {current : TaskStepStatus}
    (h : LeavesStatus status.stepStatus current) :
    nextTaskStepStatusForApproval current status = current := by
  rcases h with rfl | rfl | rfl
  · rfl
  · rfl
  · cases status <;> rfl

theorem nextTaskStatus_of_leaves {status : ApprovalStatus} {current : TaskStepStatus}
    (h : LeavesStatus status.stepStatus current) :
    nextTaskStatusForApproval current.taskStatus status = current.taskStatus := by
  rcases h with rfl | rfl | rfl
  · rfl
  · rfl
  · cases status <;> rfl

theorem ExecutionStatus.mirror (status : ExecutionStatus) :
    status.taskStatus = status.stepStatus.taskStatus := by
  cases status <;> rfl

section Steps

variable {s t : GovernedStore} {task : TaskRow} {step : TaskStepRow}

/-- Where a linked step stands in its task. -/
theorem StepsSound.linked (hs : StepsSound s) {approvalId : String} {taskStepId : Option String}
    (h : validateLinkedTaskStepForApproval s approvalId taskStepId = .ok (task, step)) :
    s.steps.get? step.id = some step ∧ step.taskId = task.id ∧
      ∃ latest, s.latestStep task.id = some latest ∧ task.status = latest.status.taskStatus ∧
        (step.id = latest.id → step = latest) ∧
        (step.id ≠ latest.id → step.status.appendable = true) := by
  obtain ⟨htask, -, hget, hof, -⟩ := validateLinkedTaskStepForApproval_ok.mp h
  obtain ⟨n, hn⟩ := hs.tasks _ task (get?_of_taskByApproval htask)
  obtain ⟨latest, hlatest, hmem, hlast⟩ := hn.latestStep_eq
  have hrow : step ∈ s.rowsOf task.id := mem_rowsOf.mpr ⟨Table.mem_of_get? hget, hof⟩
  refine ⟨hget, hof, latest, hlatest, hn.mirror latest hmem hlast, ?_, ?_⟩
  · intro hid
    have := (get?_of_latestStep hlatest).1
    rw [← hid, hget] at this
    exact Option.some.inj this
  · intro hne
    refine hn.closed step hrow ?_
    have hnumber := List.mem_map_of_mem (f := fun row : TaskStepRow => row.sequenceNo) hrow
    rw [hn.numbers, List.mem_range'_1] at hnumber
    by_contra hgt
    exact hne (congrArg TaskStepRow.id (hn.eq_of_number hrow hmem (by omega)))

/-- A linked step and its task are written, as they should be. -/
theorem StepsSound.linked_write (hs : StepsSound s) {approvalId : String}
    {taskStepId : Option String} {latest : TaskStepRow} {status : TaskStatus}
    {stepStatus : TaskStepStatus}
    (h : validateLinkedTaskStepForApproval s approvalId taskStepId = .ok (task, step))
    (hlatest : s.latestStep task.id = some latest)
    (hwrites : WritesLinked s t task step status stepStatus)
    (hmirror : status = (if step.id = latest.id then stepStatus else latest.status).taskStatus)
    (hclosed : step.id ≠ latest.id → stepStatus.appendable = true)
    (hedge : stepStatus = step.status ∨ stepStatus ∈ step.status.graph) :
    StepsSound t ∧ FollowsGraph s t := by
  obtain ⟨hget, hof, -⟩ := hs.linked h
  obtain ⟨⟨_, _, htasks⟩, _, hsteps⟩ := hwrites
  exact ⟨hs.write hget hlatest hof htasks hsteps hmirror hclosed,
    followsGraph_write hget hsteps hedge⟩

/-- A resolution that agrees with its step keeps the tasks in line with their steps, and
moves the step along the graph. -/
theorem resolve_sound (hs : StepsSound s) {req : ResolveRequest}
    (h : resolveApproval s req = .ok t) (hagrees : ResolveAgrees s req) :
    StepsSound t ∧ FollowsGraph s t := by
  obtain ⟨approval, task, step, happroval, hpending, hvalid, hwrites⟩ := resolve_writes h
  obtain ⟨-, -, latest, hlatest, hmirror, hsame, hclosed⟩ := hs.linked hvalid
  have hagrees := hagrees approval task step latest happroval hpending hvalid hlatest
  refine hs.linked_write hvalid hlatest hwrites ?_ ?_ ?_
  · -- the task mirrors its latest step
    rcases hagrees with ⟨hid, hcreated⟩ | ⟨hleaves, hleavesLatest⟩
    · rw [hmirror, if_pos hid, ← hsame hid, hcreated]
      unfold ResolveRequest.target
      split <;> rfl
    · rw [hmirror, nextTaskStatus_of_leaves hleavesLatest]
      split
      · next hid => rw [nextTaskStepStatus_of_leaves hleaves, hsame hid]
      · rfl
  · -- the linked step is closed if a later one has been appended
    intro hne
    rcases hagrees with ⟨hid, -⟩ | ⟨hleaves, -⟩
    · exact absurd hid hne
    · rw [nextTaskStepStatus_of_leaves hleaves]
      exact hclosed hne
  · rcases hagrees with ⟨-, hcreated⟩ | ⟨hleaves, -⟩
    · right
      rw [hcreated]
      unfold ResolveRequest.target
      split <;> decide
    · exact Or.inl (nextTaskStepStatus_of_leaves hleaves)

/-- An execution that agrees with its step keeps the tasks in line with their steps, and
moves the step along the graph. -/
theorem execute_sound (hs : StepsSound s) {req : ExecuteRequest}
    (h : executeApprovedProxyRequest env s req = .ok t) (hagrees : ExecuteAgrees env s req) :
    StepsSound t ∧ FollowsGraph s t := by
  rcases execute_writes h with hkeep | ⟨approval, task, step, linked, s', key, happroval, hstatus,
    hvalid, hlinkage, hkey, hnew, hruns, hwrites⟩
  · exact ⟨hs.keep hkeep, followsGraph_keep hkeep⟩
  · -- a new execution is written to the linked step, a replayed one to the run only
    obtain ⟨-, -, latest, hlatest, hmirror, hsame, hclosed⟩ := hs.linked hvalid
    have hagrees := hagrees approval task step linked s' key latest happroval hstatus hvalid
      hlinkage hkey hnew hruns hlatest
    refine hs.linked_write hvalid hlatest hwrites ?_ ?_ ?_
    · rw [ExecutionStatus.mirror]
      rcases hagrees with ⟨hid, -⟩ | ⟨-, hresult⟩
      · rw [if_pos hid]
      · rw [hresult]
        split <;> rfl
    · intro hne
      rcases hagrees with ⟨hid, -⟩ | ⟨hresult, -⟩
      · exact absurd hid hne
      · rw [← hresult]
        exact hclosed hne
    · rcases hagrees with ⟨-, happroved⟩ | ⟨hresult, -⟩
      · right
        rw [happroved]
        cases req.verdict <;> decide
      · exact Or.inl hresult.symm

/-- What an agreeing step keeps, and what it does to the steps. -/
theorem agreeing_step {call : GovernedCall} (hs : StepsSound s)
    (hstep : AgreeingStep env s call t) : StepsSound t ∧ FollowsGraph s t := by
  obtain ⟨hstep, hagrees⟩ := hstep
  unfold GovernedStep at hstep
  split at hstep
  · next u hperform =>
    subst hstep
    cases call with
    | submit req =>
      -- a request inserts the first step of a task of its own
      rw [GovernedCall.perform, raisedAt_ok] at hperform
      obtain ⟨task, step, htasks, hsteps, hof, hnumber, hmirror⟩ := submit_writes hperform
      exact ⟨hs.first htasks hsteps hof hnumber hmirror, followsGraph_insert hsteps⟩
    | resolve req => exact resolve_sound hs hperform hagrees
    | execute req => exact execute_sound hs hperform hagrees
    | createNext req =>
      -- the next step follows the latest one, which can be appended to
      rw [GovernedCall.perform, raisedAt_ok] at hperform
      obtain ⟨task, latest, step, _, _, htask, hlatest, happendable, hsteps, hof, hnumber,
        htasks⟩ := createNext_writes hperform
      exact ⟨hs.append htask hlatest happendable hsteps hof hnumber htasks rfl,
        followsGraph_insert hsteps⟩
    | transition req =>
      -- a transition writes the latest step, along an edge of the graph
      rw [GovernedCall.perform, raisedAt_ok] at hperform
      obtain ⟨task, step, hget, hof, hlatest, hgraph, ⟨_, _, htasks⟩, _, hsteps⟩ :=
        transition_writes hs hperform
      exact ⟨hs.write hget hlatest hof htasks hsteps (by rw [if_pos rfl])
        (fun hne => absurd rfl hne), followsGraph_write hget hsteps (Or.inr hgraph)⟩
    | createRun request id now =>
      -- what is left writes runs only
      rw [GovernedCall.perform, raisedAt_ok] at hperform
      have hkeep : KeepsTasks s t := by
        unfold createTaskRunRecord at hperform
        split at hperform
        · cases hperform
        · split at hperform
          · cases hperform
          · obtain ⟨runs, -, hperform⟩ := except_bind_ok.mp hperform
            cases hperform
            exact ⟨rfl, rfl⟩
      exact ⟨hs.keep hkeep, followsGraph_keep hkeep⟩
    | acquire runId =>
      cases hperform
      have hkeep : KeepsTasks s (acquireRun s runId) := by
        unfold acquireRun
        split
        · exact ⟨rfl, rfl⟩
        · split <;> exact ⟨rfl, rfl⟩
      exact ⟨hs.keep hkeep, followsGraph_keep hkeep⟩
    | tick runId now =>
      have hkeep := serveTaskRun_keeps (raisedAt_ok.mp hperform)
      exact ⟨hs.keep hkeep, followsGraph_keep hkeep⟩
    | pause runId now =>
      have hkeep := serveTaskRun_keeps (raisedAt_ok.mp hperform)
      exact ⟨hs.keep hkeep, followsGraph_keep hkeep⟩
    | resume runId now =>
      have hkeep := serveTaskRun_keeps (raisedAt_ok.mp hperform)
      exact ⟨hs.keep hkeep, followsGraph_keep hkeep⟩
    | cancel runId now =>
      have hkeep := serveTaskRun_keeps (raisedAt_ok.mp hperform)
      exact ⟨hs.keep hkeep, followsGraph_keep hkeep⟩
    | markFailed runId stopReason failureClass source now =>
      have hkeep := serveTaskRun_keeps (raisedAt_ok.mp hperform)
      exact ⟨hs.keep hkeep, followsGraph_keep hkeep⟩
  · -- a call that raises changes nothing
    subst hstep
    exact ⟨hs, followsGraph_keep ⟨rfl, rfl⟩⟩

end Steps

/-! ### Runs -/

section Runs

variable {ops : List GovernedCall} {s : GovernedStore}

theorem stepsSound_of_run (run : Run (AgreeingStep env) (· = {}) ops s) : StepsSound s := by
  refine run.invariant (P := StepsSound) ?_ fun s call t hs hstep => (agreeing_step hs hstep).1
  rintro _ rfl
  constructor
  · intro id task htask
    cases htask
  · intro step hstep
    cases hstep

/-- As long as resolutions and executions agree with the steps they are linked
to, every task mirrors its numbered steps, and steps move along the graph. -/
theorem task_steps_follow_graph (run : Run (AgreeingStep env) (· = {}) ops s) :
    (∀ id task, s.tasks.get? id = some task → TaskMirrors s task) ∧
      ∀ call t, AgreeingStep env s call t → FollowsGraph s t := by
  have hs := stepsSound_of_run run
  refine ⟨?_, fun call t hstep => (agreeing_step hs hstep).2⟩
  intro id task htask
  obtain ⟨n, hn⟩ := hs.tasks id task htask
  exact hn.mirrors

/-- Where there is one step, it is the linked and the latest one. -/
theorem only_step {row step latest : TaskStepRow} {task : TaskRow} {approvalId : String}
    {taskStepId : Option String} (hrows : s.steps.rows = [row])
    (hvalid : validateLinkedTaskStepForApproval s approvalId taskStepId = .ok (task, step))
    (hlatest : s.latestStep task.id = some latest) : step = row ∧ latest = row := by
  obtain ⟨-, -, hget, -⟩ := validateLinkedTaskStepForApproval_ok.mp hvalid
  have hstep := Table.mem_of_get? hget
  have hlast := Table.mem_of_get? (get?_of_latestStep hlatest).1
  rw [hrows, List.mem_singleton] at hstep hlast
  exact ⟨hstep, hlast⟩

end Runs

/-! ### One approval, executed twice -/

def echoExecute (executionId : String) (blocked : Option BlockedResult) : ExecuteRequest where
  approvalId := "approval"
  blocked := blocked
  executionId := executionId
  executedAt := "t2"
  now := "t2"

def echoSubmitted : GovernedStore := echoSubmit.serve plainEnv {}

def echoApproved : GovernedStore :=
  (GovernedCall.resolve (echoResolve true)).serve plainEnv echoSubmitted

def echoExecuted : GovernedStore :=
  (GovernedCall.execute (echoExecute "first" none)).serve plainEnv echoApproved

/-- Submitted, approved and executed once: the task mirrors its step, which an
agreeing step leaves on the graph. -/
theorem echo_mirrors :
    (∀ id task, echoExecuted.tasks.get? id = some task → TaskMirrors echoExecuted task) ∧
      ∀ call t, AgreeingStep plainEnv echoExecuted call t → FollowsGraph echoExecuted t := by
  have hresolve : ResolveAgrees echoSubmitted (echoResolve true) := by
    intro approval task step latest _ _ hvalid hlatest
    obtain ⟨rfl, rfl⟩ := only_step rfl hvalid hlatest
    exact Or.inl ⟨rfl, rfl⟩
  have hexecute : ExecuteAgrees plainEnv echoApproved (echoExecute "first" none) := by
    intro approval task step linked s' key latest _ _ hvalid _ _ _ _ hlatest
    obtain ⟨rfl, rfl⟩ := only_step rfl hvalid hlatest
    exact Or.inl ⟨rfl, rfl⟩
  have start : Run (AgreeingStep plainEnv) (· = ({} : GovernedStore)) [] {} := .start rfl
  have submitted : Run (AgreeingStep plainEnv) (· = {}) _ echoSubmitted :=
    start.next ⟨governedStep_serve _ _ echoSubmit, trivial⟩
  have approved : Run (AgreeingStep plainEnv) (· = {}) _ echoApproved :=
    submitted.next ⟨governedStep_serve _ _ (.resolve (echoResolve true)), hresolve⟩
  have executed : Run (AgreeingStep plainEnv) (· = {}) _ echoExecuted :=
    approved.next ⟨governedStep_serve _ _ (.execute (echoExecute "first" none)), hexecute⟩
  exact task_steps_follow_graph executed

/-- The second execution of an approval is over budget, and takes its executed
step to `blocked`. -/
theorem executed_step_is_blocked :
    ∃ s call t, (∃ ops, Run (GovernedStep plainEnv) (· = {}) ops s) ∧
      GovernedStep plainEnv s call t ∧ ¬FollowsGraph s t := by
  -- a request, its approval and a first execution
  have start : Run (GovernedStep plainEnv) (· = ({} : GovernedStore)) [] {} := .start rfl
  have submitted : Run (GovernedStep plainEnv) (· = {}) _ echoSubmitted :=
    start.next (governedStep_serve _ _ echoSubmit)
  have approved : Run (GovernedStep plainEnv) (· = {}) _ echoApproved :=
    submitted.next (governedStep_serve _ _ (.resolve (echoResolve true)))
  have executed : Run (GovernedStep plainEnv) (· = {}) _ echoExecuted :=
    approved.next (governedStep_serve _ _ (.execute (echoExecute "first" none)))
  refine ⟨_, .execute (echoExecute "second" (some ⟨some "budget", none⟩)), _, ⟨_, executed⟩,
    governedStep_serve .., ?_⟩
  intro hfollows
  -- the step was executed, and the second execution blocks it
  have hstep : (echoExecuted.steps.get? "step").map (·.status) = some .executed := by
    decide +kernel
  obtain ⟨step, hget, hexecuted⟩ := Option.map_eq_some_iff.mp hstep
  obtain ⟨step', hget', -, -, hedge⟩ := hfollows _ step hget
  have hblocked : (((GovernedCall.execute
      (echoExecute "second" (some ⟨some "budget", none⟩))).serve plainEnv
        echoExecuted).steps.get? "step").map (·.status) = some .blocked := by
    decide +kernel
  rw [hget', Option.map_some, Option.some_inj] at hblocked
  rw [hblocked, hexecuted] at hedge
  exact absurd hedge (by decide)

end AliceBot
