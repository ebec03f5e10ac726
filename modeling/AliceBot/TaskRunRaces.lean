import AliceBot.Library.Run
import AliceBot.TaskRunRows
import Mathlib.Logic.Function.Basic

/-!
# Races on a task run

One row of `task_runs` under any number of transactions, statement by statement.
A transaction reads the last committed row or its own uncommitted one; its first
`UPDATE` locks the row, and the `UPDATE` of another transaction waits for the
lock and then overwrites whatever it finds: the statement selects by id alone.
Only the worker's acquisition looks at the row it locks.

So a call writes columns it has computed from a row that may have been replaced
since. `lockTaskRuns` exists in the store, and nobody takes it. The runs that
are safe are those in which every `UPDATE` meets the checkpoint its call has
read (`CurrentRead`); `finished_run_stays` is about those, and
`cancelled_run_runs_again` is a run that is not.
-/

namespace AliceBot

open PyLib

/-! ### Transactions -/

/-- The row as it is committed, the version a transaction has written and holds
locked, and the call each transaction is in with the row that it has read. -/
structure RunDatabase where
  committed : TaskRunRow
  written : Option (Nat × TaskRunRow) := none
  reading : Nat → Option (TaskRunCall × TaskRunRow) := fun _ => none

/-- A statement of a transaction, or its end. -/
inductive RunAction where
  | read (session : Nat) (call : TaskRunCall)
  | write (session : Nat) (reads : TaskRunReads) (now : String)
  | acquire (session : Nat)
  | commit (session : Nat)
  | rollback (session : Nat)

namespace RunDatabase

/-- What a session sees: its own version, or the committed one. -/
def visible (d : RunDatabase) (session : Nat) : TaskRunRow :=
  match d.written with
  | some (holder, row) => if holder = session then row else d.committed
  | none => d.committed

/-- Somebody else holds the row locked. -/
def lockedFor (d : RunDatabase) (session : Nat) : Bool :=
  match d.written with
  | some (holder, _) => holder != session
  | none => false

/-- The session has left its call. -/
def leave (d : RunDatabase) (session : Nat) : RunDatabase :=
  { d with reading := Function.update d.reading session none }

/-- The session holds the row in a new version. -/
def hold (d : RunDatabase) (session : Nat) (row : TaskRunRow) : RunDatabase :=
  { d with written := some (session, row) }

/-- The version a session has written is gone. -/
def discard (d : RunDatabase) (session : Nat) : RunDatabase :=
  if d.lockedFor session then d else { d with written := none }

/-- `UPDATE_TASK_RUN_SQL`. It waits for the lock; a row that fails the checks of
the table ends the transaction. -/
def update (d : RunDatabase) (session : Nat) (u : TaskRunUpdate) : Option RunDatabase :=
  if d.lockedFor session then none
  else
    let row := u.apply (d.visible session)
    some (if row.checks then d.hold session row else d.discard session)

/-- One step, `none` where it has to wait. A call that raises leaves its
transaction to be committed or rolled back by the caller. -/
def step (d : RunDatabase) : RunAction → Option RunDatabase
  | .read session call =>
    some { d with reading := Function.update d.reading session (some (call, d.visible session)) }
  | .write session reads now =>
    match d.reading session with
    | none => some d
    | some (call, row) =>
      match call.decide reads now row with
      | .error _ => some (d.leave session)
      | .ok none => some (d.leave session)
      | .ok (some u) => (d.leave session).update session u
  | .acquire session =>
    -- `FOR UPDATE SKIP LOCKED`, and the status as it is now
    if d.lockedFor session then some d
    else if (d.visible session).status.runnable then
      some (d.hold session (acquireTaskRun (d.visible session)))
    else some d
  | .commit session =>
    some (({ d with committed := d.visible session }.discard session).leave session)
  | .rollback session => some ((d.discard session).leave session)

end RunDatabase

/-- The call is about to write, and the checkpoint it has read is still there. -/
def CurrentRead (d : RunDatabase) : RunAction → Prop
  | .write session reads now =>
    ∀ call row u, d.reading session = some (call, row) →
      call.decide reads now row = .ok (some u) →
      row.checkpoint = (d.visible session).checkpoint
  | _ => True

/-- A step whose writes are current. -/
def CurrentStep (d : RunDatabase) (action : RunAction) (t : RunDatabase) : Prop :=
  d.step action = some t ∧ CurrentRead d action

/-- The run has just been created. -/
def JustCreated (d : RunDatabase) : Prop :=
  (∃ request id now, createTaskRunRow request id now = .ok d.committed) ∧
    d.written = none ∧ ∀ session, d.reading session = none

/-! ### Versions of the row -/

/-- The later version keeps the status of a finished run and every transition
entry. -/
structure Extends (a b : TaskRunRow) : Prop where
  finished : a.status.finished = true → b.status = a.status
  history : transitionHistory a.checkpoint <+: transitionHistory b.checkpoint

theorem Extends.refl (a : TaskRunRow) : Extends a a := ⟨fun _ => rfl, List.prefix_rfl⟩

theorem Extends.trans {a b c : TaskRunRow} (h : Extends a b) (h' : Extends b c) :
    Extends a c where
  finished hfinished := by
    have hb := h.finished hfinished
    rw [h'.finished (by rw [hb]; exact hfinished), hb]
  history := h.history.trans h'.history

/-- The checkpoint knows whether the run is finished. -/
def recordsFinished (checkpoint : Dict Json) : Bool :=
  lastStatus checkpoint == some "done" || lastStatus checkpoint == some "cancelled"

def Recorded (row : TaskRunRow) : Prop :=
  row.status.finished = recordsFinished row.checkpoint

theorem recordsFinished_of_lastStatus {checkpoint : Dict Json} {status : TaskRunStatus}
    (h : lastStatus checkpoint = some status.text) :
    recordsFinished checkpoint = status.finished := by
  unfold recordsFinished
  rw [h]
  cases status <;> decide

theorem recorded_apply {row v : TaskRunRow} {u : TaskRunUpdate} (h : Continues row u) :
    Recorded (u.apply v) :=
  (recordsFinished_of_lastStatus h.recorded).symm

theorem recorded_created {request : TaskRunCreateInput} {id now : String} {row : TaskRunRow}
    (h : createTaskRunRow request id now = .ok row) : Recorded row := by
  unfold createTaskRunRow at h
  split at h
  · cases h
  · simp only at h
    split at h
    · cases h
    · obtain ⟨checkpoint, hcheckpoint, h⟩ := except_bind_ok.mp h
      cases h
      obtain ⟨normalized, -, hrecord⟩ := except_bind_ok.mp hcheckpoint
      cases hrecord
      unfold Recorded
      rw [recordsFinished_of_lastStatus (lastStatus_record _ _)]

/-- An `UPDATE` computed from the checkpoint it meets extends the row. -/
theorem extends_apply {row v : TaskRunRow} {u : TaskRunUpdate} (h : Continues row u)
    (hrow : Recorded row) (hv : Recorded v) (hcurrent : row.checkpoint = v.checkpoint) :
    Extends v (u.apply v) where
  finished hfinished := by
    -- the call has found the run unfinished, and the checkpoint would say otherwise
    have hunfinished := h.unfinished
    rw [hrow, hcurrent, ← hv, hfinished] at hunfinished
    cases hunfinished
  history := by
    obtain ⟨entry, hentry⟩ := h.history
    refine ⟨[entry], ?_⟩
    show _ = transitionHistory u.checkpoint
    rw [hentry, hcurrent]

theorem extends_acquire {row : TaskRunRow} (h : row.status.runnable = true) :
    Extends row (acquireTaskRun row) where
  finished hfinished := by
    rw [TaskRunStatus.not_finished_of_runnable h] at hfinished
    cases hfinished
  history := List.prefix_rfl

theorem recorded_acquire {row : TaskRunRow} (hrow : Recorded row)
    (h : row.status.runnable = true) : Recorded (acquireTaskRun row) := by
  have hunfinished := TaskRunStatus.not_finished_of_runnable h
  rw [hrow] at hunfinished
  exact hunfinished.symm

/-! ### Steps -/

/-- Every version of the row there is was recorded, and the uncommitted one
extends the committed one. -/
structure VersionsSound (d : RunDatabase) : Prop where
  committed : Recorded d.committed
  written : ∀ holder row, d.written = some (holder, row) →
    Recorded row ∧ Extends d.committed row
  reading : ∀ session call row, d.reading session = some (call, row) → Recorded row

section Steps

variable {d : RunDatabase}

theorem VersionsSound.visible (h : VersionsSound d) (session : Nat) :
    Recorded (d.visible session) ∧ Extends d.committed (d.visible session) := by
  unfold RunDatabase.visible
  split
  · next holder row hwritten =>
    split
    · exact h.written holder row hwritten
    · exact ⟨h.committed, .refl _⟩
  · exact ⟨h.committed, .refl _⟩

theorem VersionsSound.leave (h : VersionsSound d) (session : Nat) :
    VersionsSound (d.leave session) where
  committed := h.committed
  written := h.written
  reading session' call row hreading := by
    by_cases hsession : session' = session
    · subst hsession
      simp [RunDatabase.leave] at hreading
    · exact h.reading session' call row (by
        simpa [RunDatabase.leave, Function.update_of_ne hsession] using hreading)

theorem VersionsSound.hold (h : VersionsSound d) {session : Nat} {row : TaskRunRow}
    (hrow : Recorded row) (hextends : Extends (d.visible session) row) :
    VersionsSound (d.hold session row) where
  committed := h.committed
  written holder row' hwritten := by
    cases hwritten
    exact ⟨hrow, (h.visible session).2.trans hextends⟩
  reading := h.reading

theorem VersionsSound.discard (h : VersionsSound d) (session : Nat) :
    VersionsSound (d.discard session) := by
  unfold RunDatabase.discard
  split
  · exact h
  · exact ⟨h.committed, (fun _ _ hwritten => by cases hwritten), h.reading⟩

theorem committed_discard (session : Nat) : (d.discard session).committed = d.committed := by
  unfold RunDatabase.discard
  split <;> rfl

/-- A commit publishes what the session sees. If another session holds the row,
that is the committed row itself. -/
theorem VersionsSound.publish (h : VersionsSound d) (session : Nat) :
    VersionsSound ({ d with committed := d.visible session }.discard session) := by
  unfold RunDatabase.discard
  split
  · next hlocked =>
    have hvisible : d.visible session = d.committed := by
      unfold RunDatabase.lockedFor at hlocked
      unfold RunDatabase.visible
      split at hlocked
      · next holder row hwritten =>
        have hwritten' : d.written = some (holder, row) := hwritten
        rw [hwritten']
        exact if_neg (by simpa using hlocked)
      · cases hlocked
    simp only [hvisible]
    exact h
  · exact ⟨(h.visible session).1, (fun _ _ hwritten => by cases hwritten), h.reading⟩

/-- What a step keeps: the versions stay sound, and the committed row is
extended. -/
theorem current_step {action : RunAction} {t : RunDatabase} (h : VersionsSound d)
    (hstep : CurrentStep d action t) : VersionsSound t ∧ Extends d.committed t.committed := by
  obtain ⟨hstep, hcurrent⟩ := hstep
  cases action with
  | read session call =>
    -- a read only remembers what its session sees
    cases hstep
    refine ⟨⟨h.committed, h.written, ?_⟩, .refl _⟩
    intro session' call' row hreading
    by_cases hsession : session' = session
    · subst hsession
      simp only [Function.update_self, Option.some.injEq, Prod.mk.injEq] at hreading
      obtain ⟨-, rfl⟩ := hreading
      exact (h.visible session').1
    · exact h.reading session' call' row (by
        simpa [Function.update_of_ne hsession] using hreading)
  | write session reads now =>
    unfold RunDatabase.step at hstep
    simp only at hstep
    split at hstep
    · cases hstep
      exact ⟨h, .refl _⟩
    · next call row hreading =>
      split at hstep
      · cases hstep
        exact ⟨h.leave session, .refl _⟩
      · cases hstep
        exact ⟨h.leave session, .refl _⟩
      · next u hdecide =>
        -- the write was decided on the row read before: what it adds to that row's history it adds
        -- to the one it overwrites, since that one is still current
        have hcontinues := decide_continues hdecide
        have hextends : Extends ((d.leave session).visible session)
            (u.apply ((d.leave session).visible session)) :=
          extends_apply hcontinues (h.reading session call row hreading)
            ((h.leave session).visible session).1 (hcurrent call row u hreading hdecide)
        unfold RunDatabase.update at hstep
        split at hstep
        · cases hstep
        · cases hstep
          -- the check on the columns may refuse the row, and then the session is rolled back
          split
          · exact ⟨(h.leave session).hold (recorded_apply hcontinues) hextends, .refl _⟩
          · refine ⟨(h.leave session).discard session, ?_⟩
            rw [committed_discard]
            exact .refl _
  | acquire session =>
    -- to acquire a run reads and writes it in one statement
    unfold RunDatabase.step at hstep
    simp only at hstep
    split at hstep
    · cases hstep
      exact ⟨h, .refl _⟩
    · split at hstep
      · next hrunnable =>
        cases hstep
        exact ⟨h.hold (recorded_acquire (h.visible session).1 hrunnable)
          (extends_acquire hrunnable), .refl _⟩
      · cases hstep
        exact ⟨h, .refl _⟩
  | commit session =>
    -- the version of the session becomes the committed one, which it extends
    cases hstep
    refine ⟨(h.publish session).leave session, ?_⟩
    show Extends d.committed (RunDatabase.discard _ session).committed
    rw [committed_discard]
    exact (h.visible session).2
  | rollback session =>
    cases hstep
    refine ⟨(h.discard session).leave session, ?_⟩
    show Extends d.committed (RunDatabase.discard _ session).committed
    rw [committed_discard]
    exact .refl _

end Steps

/-! ### Runs -/

section Runs

variable {ops ops' : List RunAction} {s t : RunDatabase}

theorem versionsSound_of_run (run : Run CurrentStep JustCreated ops s) : VersionsSound s := by
  refine run.invariant (P := VersionsSound) ?_ fun s action t hs hstep => (current_step hs hstep).1
  rintro s ⟨⟨request, id, now, hcreated⟩, hwritten, hreading⟩
  refine ⟨recorded_created hcreated, ?_, ?_⟩
  · intro holder row hrow
    rw [hwritten] at hrow
    cases hrow
  · intro session call row hrow
    rw [hreading] at hrow
    cases hrow

/-- As long as every `UPDATE` meets the checkpoint its call has read, a finished
run keeps its status and a committed transition entry stays. -/
theorem finished_run_stays (run : Run CurrentStep JustCreated ops s)
    (later : Run CurrentStep (· = s) ops' t) :
    (s.committed.status.finished = true → t.committed.status = s.committed.status) ∧
      transitionHistory s.committed.checkpoint <+: transitionHistory t.committed.checkpoint := by
  have hs := versionsSound_of_run run
  have h : VersionsSound t ∧ Extends s.committed t.committed := by
    refine later.invariant (P := fun t => VersionsSound t ∧ Extends s.committed t.committed) ?_ ?_
    · rintro _ rfl
      exact ⟨hs, .refl _⟩
    · rintro t action u ⟨ht, hextends⟩ hstep
      obtain ⟨hu, hextends'⟩ := current_step ht hstep
      exact ⟨hu, hextends.trans hextends'⟩
  exact ⟨h.2.finished, h.2.history⟩

end Runs

/-! ### A lost cancellation -/

/-- A step of the database, whatever the calls have read. -/
def DatabaseStep (d : RunDatabase) (action : RunAction) (t : RunDatabase) : Prop :=
  d.step action = some t

/-- The steps one after the other; a step that has to wait is skipped. -/
def RunDatabase.perform (d : RunDatabase) (actions : List RunAction) : RunDatabase :=
  actions.foldl (fun d action => (d.step action).getD d) d

/-- What a session has read is what it sees. -/
def RunDatabase.readsCurrent (d : RunDatabase) : RunAction → Bool
  | .write session _ _ =>
    (d.reading session).all fun read =>
      decide (read.2.checkpoint = (d.visible session).checkpoint)
  | _ => true

theorem currentRead_of_readsCurrent {d : RunDatabase} {action : RunAction}
    (h : d.readsCurrent action = true) : CurrentRead d action := by
  cases action with
  | write session reads now =>
    intro call row u hreading _
    simpa [RunDatabase.readsCurrent, hreading] using h
  | _ => trivial

/-- Nothing has to wait, and every step passes the check. -/
def RunDatabase.flows (check : RunDatabase → RunAction → Bool) (d : RunDatabase) :
    List RunAction → Bool
  | [] => true
  | action :: actions =>
    (d.step action).isSome && check d action && ((d.step action).getD d).flows check actions

/-- Performing actions that pass a check is a run of steps that meet the condition of
the check. -/
theorem run_perform {check : RunDatabase → RunAction → Bool}
    {R : RunDatabase → RunAction → RunDatabase → Prop}
    (hR : ∀ d action t, d.step action = some t → check d action = true → R d action t)
    {init : RunDatabase → Prop} {ops : List RunAction} {s : RunDatabase} (run : Run R init ops s)
    (actions : List RunAction) (h : s.flows check actions = true) :
    Run R init (ops ++ actions) (s.perform actions) := by
  induction actions generalizing ops s with
  | nil => simpa [RunDatabase.perform] using run
  | cons action actions ih =>
    rw [RunDatabase.flows, Bool.and_eq_true, Bool.and_eq_true] at h
    obtain ⟨⟨hsome, hcheck⟩, hrest⟩ := h
    obtain ⟨t, ht⟩ := Option.isSome_iff_exists.mp hsome
    have hnext : Run R init (ops ++ [action]) ((s.step action).getD s) := by
      rw [ht]
      exact run.next (hR s action t ht hcheck)
    simpa [RunDatabase.perform] using ih hnext hrest

/-- A new run with five steps to go. -/
def freshRequest : TaskRunCreateInput where
  taskId := "task"
  maxTicks := 9
  checkpoint := [("target_steps", .int 5)]

def freshRun : RunDatabase where
  committed :=
    { id := "run"
      taskId := "task"
      status := .queued
      checkpoint := (createTaskRunRow freshRequest "run" "t0").toOption.elim []
        TaskRunRow.checkpoint
      tickCount := 0
      stepCount := 0
      maxTicks := 9
      retryCount := 0
      retryCap := 9
      retryPosture := .none
      failureClass := none
      stopReason := none }

theorem freshRun_created : JustCreated freshRun :=
  ⟨⟨freshRequest, "run", "t0", rfl⟩, rfl, fun _ => rfl⟩

/-- The task of the run, approved. -/
def approvedTask : TaskRunReads where
  task := some { id := "task", status := .approved, latestApprovalId := none,
                 latestExecutionId := none }
  approval _ := none

def cancelRun : List RunAction := [.read 2 .cancel, .write 2 approvedTask "t1", .commit 2]

def tickRun : List RunAction := [.read 1 .tick, .write 1 approvedTask "t2", .commit 1]

/-- A run that is cancelled stays so when a worker ticks it afterwards. -/
theorem finished_run_stays_cancelled :
    ((freshRun.perform cancelRun).perform tickRun).committed.status = .cancelled := by
  have hcurrent : ∀ d action t, d.step action = some t → d.readsCurrent action = true →
      CurrentStep d action t := fun d action t hstep hreads =>
    ⟨hstep, currentRead_of_readsCurrent hreads⟩
  have run := run_perform hcurrent (.start freshRun_created) cancelRun (by decide +kernel)
  have start : Run CurrentStep (· = freshRun.perform cancelRun) [] (freshRun.perform cancelRun) :=
    .start rfl
  have later := run_perform hcurrent start tickRun (by decide +kernel)
  exact (finished_run_stays run later).1 (by decide +kernel)

/-- A tick that has read the run before it was cancelled sets it going again,
and the entry of the cancellation is gone. -/
theorem cancelled_run_runs_again :
    ∃ ops s ops' t, Run DatabaseStep JustCreated ops s ∧ Run DatabaseStep (· = s) ops' t ∧
      s.committed.status = .cancelled ∧ t.committed.status = .running ∧
      ¬ transitionHistory s.committed.checkpoint <+: transitionHistory t.committed.checkpoint := by
  have hany : ∀ d action t, RunDatabase.step d action = some t → true = true →
      DatabaseStep d action t := fun _ _ _ hstep _ => hstep
  have run : Run DatabaseStep JustCreated _ (freshRun.perform (.read 1 .tick :: cancelRun)) :=
    run_perform hany (.start freshRun_created) _ (by decide +kernel)
  have start : Run DatabaseStep (· = freshRun.perform (.read 1 .tick :: cancelRun)) []
      (freshRun.perform (.read 1 .tick :: cancelRun)) := .start rfl
  have later := run_perform hany start tickRun.tail (by decide +kernel)
  refine ⟨_, _, _, _, run, later, by decide +kernel, by decide +kernel, ?_⟩
  intro hprefix
  have hsources := hprefix.map fun entry => entry.getStr? "source"
  exact absurd hsources (by decide +kernel)

end AliceBot
