import AliceBot.SchedulerStore
import Mathlib.Logic.Relation

/-!
# Scheduler claims are fenced

`scheduler_fenced`: whatever daemons, reapers and configuration changes do, in
any order, a claim is held by at most one run, staged writes are published by
that run alone and together with its success, and a claimed run that has ended
stays as it is. The lease times do not matter for this: a claim, a fencing
configuration change and the end of a run all change the version or the token
the other parties have to present.

One promise needs the callers. The due time of a workflow is whatever the last
finalization or configuration change wrote, so a time that has been served once
can be put back and is then served again (`slot_served_twice`). As long as no
call writes a due time that was served before, no two successful runs of a
workflow share one.

Every call is first reduced to the moves it makes on the two tables
(`serve_moves`); the invariants are about moves.
-/

namespace AliceBot

open PyLib

variable {env : SchedulerEnv}

/-! ### What a call writes as a due time -/

/-- The workflow whose due time the call sets, and the time. -/
def SchedulerCall.dueOf (s : Scheduler) : SchedulerCall → Option (String × Int)
  | publish fence _ req => do
    let r ← s.runs.get? fence.runId
    let time ← req.nextRunAt
    some (r.workflowId, time)
  | fail fence req => do
    let r ← s.runs.get? fence.runId
    let time ← req.nextRunAt
    some (r.workflowId, time)
  | upsert up => do
    let w ← s.ofType up.workflowType
    let time ← up.nextRunAt
    some (w.id, time)
  | update workflowType patch => do
    let w ← s.ofType workflowType
    let time ← patch.nextRunAt.join
    some (w.id, time)
  | _ => none

/-- The run a call tries to publish. -/
def SchedulerCall.publishes? : SchedulerCall → Option String
  | publish fence _ _ => some fence.runId
  | _ => none

/-- The time up to which a call claims what is due. -/
def SchedulerCall.upTo? : SchedulerCall → Option Int
  | claim req => some req.checkedAt
  | _ => none

/-- The due time the call writes was not served: no run of the workflow has
succeeded for it, nor is it the time of the run this call publishes. -/
def FreshDue (s : Scheduler) (call : SchedulerCall) : Prop :=
  ∀ workflowId time, call.dueOf s = some (workflowId, time) →
    ∀ id r, s.runs.get? id = some r → r.workflowId = workflowId →
      r.scheduledFor = some time → r.status ≠ .succeeded ∧ call.publishes? ≠ some id

/-! ### Moves -/

/-- The two tables a claim lives in. -/
structure ClaimTables where
  workflows : Table WorkflowRow.id
  runs : Table SchedulerRun.id

def Scheduler.tables (s : Scheduler) : ClaimTables := ⟨s.workflows, s.runs⟩

/-- The columns of a run no rewrite touches. -/
def KeepsClaim (f : Rewrite SchedulerRun.id) : Prop :=
  ∀ r, (f.apply r).workflowId = r.workflowId ∧ (f.apply r).claimVersion = r.claimVersion ∧
    (f.apply r).scheduledFor = r.scheduledFor

/-- The live claim: what `eligible` has checked, the clock apart. -/
structure Holds (s : ClaimTables) (r : SchedulerRun) (w : WorkflowRow) : Prop where
  run : s.runs.get? r.id = some r
  workflow : s.workflows.get? r.workflowId = some w
  started : r.status = .started
  token : r.claimToken ≠ none
  sameToken : w.claimToken = r.claimToken
  sameVersion : w.claimVersion = r.claimVersion

/-- One move on the tables. `due` is the due time the call writes, `published`
the run it publishes, `upTo` the time up to which it claims. -/
inductive SchedulerMove (due : Option (String × Int)) (published : Option String)
    (upTo : Option Int) (s t : ClaimTables) : Prop
  | create (w : WorkflowRow) (hnew : s.workflows.insert? w = some t.workflows)
      (hruns : t.runs = s.runs)
  | configure (w : WorkflowRow) (f : Rewrite WorkflowRow.id)
      (hrow : s.workflows.get? w.id = some w) (ht : t.workflows = s.workflows.rewrite w.id f)
      (hruns : t.runs = s.runs)
      (hclaim : (f.apply w).claimToken = none ∧ (f.apply w).claimVersion = w.claimVersion + 1 ∨
        (f.apply w).claimToken = w.claimToken ∧ (f.apply w).claimVersion = w.claimVersion)
      (hdue : ∀ time, (f.apply w).nextRunAt = some time →
        w.nextRunAt = some time ∨ due = some (w.id, time))
  | claim (w : WorkflowRow) (time : Int) (f : Rewrite WorkflowRow.id) (r : SchedulerRun)
      (hrow : s.workflows.get? w.id = some w) (htime : w.nextRunAt = some time)
      (ht : t.workflows = s.workflows.rewrite w.id f)
      (hversion : (f.apply w).claimVersion = w.claimVersion + 1)
      (hdue : (f.apply w).nextRunAt = w.nextRunAt)
      (hnew : s.runs.insert? r = some t.runs) (hof : r.workflowId = w.id)
      (hstarted : r.status = .started) (hrun : r.claimVersion = w.claimVersion + 1)
      (hslot : r.scheduledFor = some time) (hupTo : ∃ checkedAt ∈ upTo, time ≤ checkedAt)
  | beat (r : SchedulerRun) (w : WorkflowRow) (f : Rewrite SchedulerRun.id)
      (g : Rewrite WorkflowRow.id) (hholds : Holds s r w)
      (hruns : t.runs = s.runs.rewrite r.id f) (hkeeps : KeepsClaim f)
      (hsame : (f.apply r).status = r.status ∧ (f.apply r).claimToken = r.claimToken)
      (ht : t.workflows = s.workflows.rewrite r.workflowId g)
      (hworkflow : (g.apply w).claimToken = w.claimToken ∧
        (g.apply w).claimVersion = w.claimVersion ∧ (g.apply w).nextRunAt = w.nextRunAt)
  | finish (r : SchedulerRun) (w : WorkflowRow) (f : Rewrite SchedulerRun.id)
      (g : Rewrite WorkflowRow.id) (hholds : Holds s r w)
      (hruns : t.runs = s.runs.rewrite r.id f) (hkeeps : KeepsClaim f)
      (hended : (f.apply r).status ≠ .started ∧ (f.apply r).claimToken = none)
      (hpublished : (f.apply r).status = .succeeded → published = some r.id)
      (ht : t.workflows = s.workflows.rewrite r.workflowId g)
      (hworkflow : (g.apply w).claimToken = none ∧ (g.apply w).claimVersion = w.claimVersion)
      (hdue : ∀ time, (g.apply w).nextRunAt = some time → due = some (r.workflowId, time))
  | reap (r : SchedulerRun) (f : Rewrite SchedulerRun.id) (g : Rewrite WorkflowRow.id)
      (hrow : s.runs.get? r.id = some r) (hstarted : r.status = .started)
      (hruns : t.runs = s.runs.rewrite r.id f) (hkeeps : KeepsClaim f)
      (hended : (f.apply r).status = .failed ∧ (f.apply r).claimToken = none)
      (ht : t.workflows = s.workflows.rewrite r.workflowId g)
      (hworkflow : ∀ w, ((g.apply w).claimToken = w.claimToken ∨ (g.apply w).claimToken = none) ∧
        (g.apply w).claimVersion = w.claimVersion ∧ (g.apply w).nextRunAt = w.nextRunAt)
  | rest (ht : t.workflows = s.workflows) (hruns : t.runs = s.runs)

/-! ### Calls as moves -/

/-- What the check of a fence has found: the run holds the claim with that token and
version, and neither lease has run out. -/
theorem holds_of_eligible {s : Scheduler} {fence : ClaimFence} {now : Int} {r : SchedulerRun}
    {w : WorkflowRow} (h : s.eligible fence now = some (r, w)) :
    Holds s.tables r w ∧ r.id = fence.runId ∧ w.id = r.workflowId ∧
      r.claimToken = some fence.claimToken ∧ r.claimVersion = fence.claimVersion ∧
      (∃ t, r.claimExpiresAt = some t ∧ now < t) ∧ ∃ t, w.claimExpiresAt = some t ∧ now < t := by
  unfold Scheduler.eligible at h
  cases hr : s.runs.get? fence.runId with
  | none => simp [hr] at h
  | some r' =>
    cases hw : s.workflows.get? r'.workflowId with
    | none => simp [hr, hw] at h
    | some w' =>
      simp only [hr, hw, Option.bind_eq_bind, Option.bind_some] at h
      split at h
      · next hlive =>
        -- run and workflow name the same token and version, and neither lease is over
        cases h
        obtain ⟨hstarted, htoken, hversion, hrun, hwtoken, hwversion, hworkflow⟩ := hlive
        have hid := Table.key_of_get? hr
        refine ⟨⟨by rw [hid]; exact hr, hw, hstarted, by simp [htoken], ?_, ?_⟩, hid,
          Table.key_of_get? hw, htoken, hversion, ?_, ?_⟩
        · rw [hwtoken, htoken]
        · rw [hwversion, hversion]
        · simpa [Option.any_eq_true] using hrun
        · simpa [Option.any_eq_true] using hworkflow
      · cases h

section Moves

variable {s t : Scheduler}

/-- A claim rewrites its workflow and inserts one run, or moves nothing; it publishes
nothing. -/
theorem claim_moves {req : ClaimRequest} (h : claimDueSchedulerWorkflow env s req = some t) :
    SchedulerMove none none (some req.checkedAt) s.tables t.tables ∧
      t.published = s.published := by
  unfold claimDueSchedulerWorkflow at h
  split at h
  · cases h
    exact ⟨.rest rfl rfl, rfl⟩
  · next w hw =>
    have hid := Table.key_of_get? hw
    split at h
    · cases h
      exact ⟨.rest rfl rfl, rfl⟩
    · next time htime =>
      split at h
      · next hdue =>
        -- the workflow is due and free: a run is inserted for its time
        obtain ⟨runs, hinsert, rfl⟩ := Option.map_eq_some_iff.mp h
        refine ⟨.claim w time (claimWorkflow req (env.timestamp s.reads)) _ ?_ htime ?_ rfl rfl
          hinsert rfl rfl rfl rfl ⟨req.checkedAt, rfl, ?_⟩, rfl⟩
        · rw [hid]
          exact hw
        · rw [hid]
          rfl
        · simp only [WorkflowRow.dueAt, htime, Bool.and_eq_true, Option.any_some,
            decide_eq_true_eq] at hdue
          exact hdue.1.1.2
      · cases h
        exact ⟨.rest rfl rfl, rfl⟩

theorem heartbeat_moves {fence : ClaimFence} {leaseExpiresAt : Int}
    (h : heartbeatSchedulerClaim env s fence leaseExpiresAt = some t) :
    SchedulerMove none none none s.tables t.tables ∧ t.published = s.published := by
  unfold heartbeatSchedulerClaim at h
  split at h
  · cases h
    exact ⟨.rest rfl rfl, rfl⟩
  · next r w heligible =>
    cases h
    obtain ⟨hholds, -, hw, -⟩ := holds_of_eligible heligible
    refine ⟨.beat r w (renewRun leaseExpiresAt)
      (renewWorkflow leaseExpiresAt (env.timestamp (s.reads + 1))) hholds rfl
      (fun _ => ⟨rfl, rfl, rfl⟩) ⟨rfl, rfl⟩ ?_ ⟨rfl, rfl, rfl⟩, rfl⟩
    rw [← hw]
    rfl

/-- A finalization that goes through ends the run that holds the claim. -/
theorem finalize_moves {fence : ClaimFence} {status : RunStatus} {req : FinalizeRequest}
    (due : Option (String × Int)) {published : Option String} (hstatus : status ≠ .started)
    (hpublished : status = .succeeded → published = some fence.runId)
    (hdue : ∀ r time, s.runs.get? fence.runId = some r → req.nextRunAt = some time →
      due = some (r.workflowId, time))
    (h : finalizeSchedulerClaim env s fence status req = some t) :
    SchedulerMove due published none s.tables t.tables ∧ t.published = s.published ∧
      ∃ r w, s.eligible fence (env.timestamp s.reads) = some (r, w) ∧
        (t.runs.get? r.id).any (fun r' => decide (r'.status = status)) = true := by
  obtain ⟨⟨r, w⟩, heligible, rfl⟩ := Option.map_eq_some_iff.mp h
  obtain ⟨hholds, hid, hw, -⟩ := holds_of_eligible heligible
  refine ⟨.finish r w (finalizeRun status req (env.timestamp (s.reads + 1)))
    (finalizeWorkflow status r.id req (env.timestamp (s.reads + 1))) hholds rfl
    (fun _ => ⟨rfl, rfl, rfl⟩) ⟨hstatus, rfl⟩ ?_ ?_ ⟨rfl, rfl⟩ ?_, rfl, r, w, heligible, ?_⟩
  · rw [hid]
    exact hpublished
  · rw [← hw]
    rfl
  · intro time htime
    exact hdue r time (hid ▸ hholds.run) htime
  · -- the run is ended with the status asked for
    have hrun : s.runs.get? r.id = some r := hholds.run
    show ((s.runs.rewrite r.id _).get? r.id).any _ = true
    rw [Table.get?_rewrite_self _ hrun]
    simp [finalizeRun]

/-- An upsert is a move that sets at most the due time it asks for, and publishes
nothing. -/
theorem upsert_moves {up : WorkflowUpsert} (h : upsertSchedulerWorkflow env s up = some t) :
    SchedulerMove ((SchedulerCall.upsert up).dueOf s) none none s.tables t.tables ∧
      t.published = s.published := by
  simp only [upsertSchedulerWorkflow] at h
  split at h
  · obtain ⟨workflows, hinsert, rfl⟩ := Option.map_eq_some_iff.mp h
    exact ⟨.create _ hinsert rfl, rfl⟩
  · next w hw =>
    have hmem : w ∈ s.workflows.rows := List.mem_of_find?_eq_some hw
    split at h
    · cases h
      refine ⟨.configure w _ (Table.get?_of_mem hmem) rfl rfl (Or.inl ⟨rfl, rfl⟩) ?_, rfl⟩
      intro time htime
      right
      have hnext : up.nextRunAt = some time := htime
      simp [SchedulerCall.dueOf, hw, hnext]
    · cases h
      exact ⟨.rest rfl rfl, rfl⟩

/-- A configuration change is a move that sets at most the due time it asks for, and
publishes nothing. -/
theorem update_moves {workflowType : String} {patch : WorkflowPatch}
    (h : updateSchedulerWorkflow env s workflowType patch = some t) :
    SchedulerMove ((SchedulerCall.update workflowType patch).dueOf s) none none s.tables t.tables ∧
      t.published = s.published := by
  obtain ⟨w, hw, rfl⟩ := Option.map_eq_some_iff.mp h
  have hmem : w ∈ s.workflows.rows := List.mem_of_find?_eq_some hw
  refine ⟨.configure w _ (Table.get?_of_mem hmem) rfl rfl ?_ ?_, rfl⟩
  · -- a manual run's result keeps the claim, anything else retires it
    by_cases hpreserve : patch.preservesClaim = true
    · exact Or.inr ⟨if_pos hpreserve, by simp [WorkflowPatch.rewrite, hpreserve]⟩
    · exact Or.inl ⟨if_neg hpreserve, by simp [WorkflowPatch.rewrite, hpreserve]⟩
  · intro time htime
    have hnext : patch.nextRunAt.getD w.nextRunAt = some time := htime
    cases hpatch : patch.nextRunAt with
    | none =>
      left
      simpa [hpatch] using hnext
    | some next =>
      right
      have : next = some time := by simpa [hpatch] using hnext
      simp [SchedulerCall.dueOf, hw, hpatch, this]

variable (env) in
/-- Reaping one claim abandons its run if the lease has run out, and publishes nothing.
-/
theorem reapOne_moves (referenceTime : Int) (s : Scheduler) (runId : String) :
    SchedulerMove none none none s.tables (reapOne env referenceTime s runId).tables ∧
      (reapOne env referenceTime s runId).published = s.published := by
  unfold reapOne
  split
  · exact ⟨.rest rfl rfl, rfl⟩
  · next r hr =>
    split
    · next hexpired =>
      have hid := Table.key_of_get? hr
      simp only [SchedulerRun.expired, Bool.and_eq_true, beq_iff_eq] at hexpired
      subst hid
      refine ⟨.reap r _ _ hr hexpired.1.1 rfl (fun _ => ⟨rfl, rfl, rfl⟩) ⟨rfl, rfl⟩ rfl ?_, rfl⟩
      intro w
      show (((reapWorkflow r _).apply w).claimToken = _ ∨ _) ∧ _
      simp only [reapWorkflow]
      split
      · exact ⟨Or.inr rfl, rfl, rfl⟩
      · exact ⟨Or.inl rfl, rfl, rfl⟩
    · exact ⟨.rest rfl rfl, rfl⟩

/-- The moves a call makes: one, or one for each run the reaper takes. -/
def ClaimMoves (due : Option (String × Int)) (published : Option String) (upTo : Option Int)
    (a b : ClaimTables) : Prop :=
  SchedulerMove due published upTo a b ∨ Relation.ReflTransGen (SchedulerMove none none none) a b

variable (env) in
theorem reap_moves (referenceTime : Int) (runIds : List String) (s : Scheduler) :
    Relation.ReflTransGen (SchedulerMove none none none) s.tables
        (runIds.foldl (reapOne env referenceTime) s).tables ∧
      (runIds.foldl (reapOne env referenceTime) s).published = s.published := by
  induction runIds generalizing s with
  | nil => exact ⟨.refl, rfl⟩
  | cons runId runIds ih =>
    obtain ⟨hmove, hpublished⟩ := reapOne_moves env referenceTime s runId
    obtain ⟨hrest, hrest'⟩ := ih (reapOne env referenceTime s runId)
    exact ⟨.head hmove hrest, hrest'.trans hpublished⟩

/-- What the publication transaction needs and leaves: the run holds the claim
under a lease that is alive, and is a success afterwards. -/
def Publishes (env : SchedulerEnv) (s t : Scheduler) (id : String) : Prop :=
  ∃ r w, Holds s.tables r w ∧ r.id = id ∧
    (∃ n, s.reads ≤ n ∧ (∃ e, r.claimExpiresAt = some e ∧ env.timestamp n < e) ∧
      ∃ e, w.claimExpiresAt = some e ∧ env.timestamp n < e) ∧
    ∃ r', t.runs.get? id = some r' ∧ r'.status = .succeeded

/-- Every call is a sequence of moves, and staged writes become visible only
with the success of the run that holds the claim. -/
theorem serve_moves (s : Scheduler) (call : SchedulerCall) :
    ClaimMoves (call.dueOf s) call.publishes? call.upTo? s.tables (call.serve env s).tables ∧
      ((call.serve env s).published = s.published ∨
        ∃ id, (call.serve env s).published = s.published ++ [id] ∧ call.publishes? = some id ∧
          Publishes env s (call.serve env s) id) := by
  unfold SchedulerCall.serve
  cases hperform : call.perform env s with
  -- a call that raises is rolled back
  | none => exact ⟨Or.inr .refl, Or.inl rfl⟩
  | some t =>
    rw [Option.getD_some]
    cases call with
    | claim req =>
      obtain ⟨hmove, hpublished⟩ := claim_moves hperform
      exact ⟨Or.inl hmove, Or.inl hpublished⟩
    | heartbeat fence leaseExpiresAt =>
      obtain ⟨hmove, hpublished⟩ := heartbeat_moves hperform
      exact ⟨Or.inl hmove, Or.inl hpublished⟩
    | publish fence publishes req =>
      -- the claim is checked, the writes are made, and the claim is finalized under the same lock
      change publishClaim env s fence publishes req = some t at hperform
      unfold publishClaim at hperform
      split at hperform
      · cases hperform
        exact ⟨Or.inl (.rest rfl rfl), Or.inl rfl⟩
      · next r w heligible =>
        split at hperform
        · obtain ⟨hmove, hpublished, r', w', heligible', hsucceeded⟩ := finalize_moves
            ((SchedulerCall.publish fence publishes req).dueOf s) (by decide)
            (fun _ => rfl) (fun r time hr htime => by
              have hr' : s.runs.get? fence.runId = some r := hr
              simp [SchedulerCall.dueOf, hr', htime]) hperform
          obtain ⟨hholds, hid, -, -, -, hrun, hworkflow⟩ := holds_of_eligible heligible'
          have hid' := (holds_of_eligible heligible).2.1
          -- finalizing checks the claim again, so the run that publishes holds it
          refine ⟨Or.inl hmove, Or.inr ⟨r.id, hpublished, ?_, r', w', hholds, ?_, ?_, ?_⟩⟩
          · rw [hid']
            rfl
          · rw [hid, hid']
          · exact ⟨s.reads + 1, by omega, hrun, hworkflow⟩
          · rw [hid', ← hid]
            simpa [Option.any_eq_true] using hsucceeded
        · cases hperform
    | fail fence req =>
      change failClaim env s fence req = some t at hperform
      unfold failClaim at hperform
      cases hfinalize : finalizeSchedulerClaim env s fence .failed req with
      | none =>
        -- a claim that cannot be finalized has been taken over: nothing is written
        rw [hfinalize] at hperform
        cases hperform
        exact ⟨Or.inl (.rest rfl rfl), Or.inl rfl⟩
      | some t' =>
        rw [hfinalize] at hperform
        cases hperform
        have hdue : ∀ r time, s.runs.get? fence.runId = some r → req.nextRunAt = some time →
            (SchedulerCall.fail fence req).dueOf s = some (r.workflowId, time) := by
          intro r time hr htime
          simp [SchedulerCall.dueOf, hr, htime]
        obtain ⟨hmove, hpublished, -⟩ :=
          finalize_moves _ (by decide) (fun h => by cases h) hdue hfinalize
        exact ⟨Or.inl hmove, Or.inl hpublished⟩
    | reap referenceTime limit runIds =>
      change reapExpiredSchedulerClaims env s referenceTime limit runIds = some t at hperform
      unfold reapExpiredSchedulerClaims at hperform
      split at hperform
      · cases hperform
      · cases hperform
        obtain ⟨hmoves, hpublished⟩ :=
          reap_moves env referenceTime (runIds.take limit) s
        exact ⟨Or.inr hmoves, Or.inl hpublished⟩
    | upsert up =>
      obtain ⟨hmove, hpublished⟩ := upsert_moves hperform
      exact ⟨Or.inl hmove, Or.inl hpublished⟩
    | update workflowType patch =>
      obtain ⟨hmove, hpublished⟩ := update_moves hperform
      exact ⟨Or.inl hmove, Or.inl hpublished⟩

end Moves

/-! ### What a move keeps -/

section Invariants

variable {due : Option (String × Int)} {published : Option String} {upTo : Option Int}
  {a b : ClaimTables}

/-- What every single move keeps, the moves of a call keep. -/
theorem ClaimMoves.keeps {P : ClaimTables → Prop} (h : ClaimMoves due published upTo a b)
    (ha : P a) (hone : SchedulerMove due published upTo a b → P a → P b)
    (hreap : ∀ c d, SchedulerMove none none none c d → P c → P d) : P b := by
  rcases h with hmove | hmoves
  · exact hone hmove ha
  · clear hone
    induction hmoves with
    | refl => exact ha
    | tail _ hmove ih => exact hreap _ _ hmove ih

/-- A workflow keeps its row, and its claim version never decreases. -/
def WorkflowsAdvance (a b : ClaimTables) : Prop :=
  ∀ id w, a.workflows.get? id = some w →
    ∃ w', b.workflows.get? id = some w' ∧ w.claimVersion ≤ w'.claimVersion

theorem workflowsAdvance_rewrite {id : String} {w : WorkflowRow} {g : Rewrite WorkflowRow.id}
    (hw : a.workflows.get? id = some w) (hb : b.workflows = a.workflows.rewrite id g)
    (hversion : w.claimVersion ≤ (g.apply w).claimVersion) : WorkflowsAdvance a b := by
  intro id' w' hw'
  rw [hb, Table.get?_rewrite]
  split
  · next hid =>
    subst hid
    rw [hw] at hw'
    cases hw'
    exact ⟨g.apply w, by rw [hw]; rfl, hversion⟩
  · exact ⟨w', hw', le_rfl⟩

theorem workflowsAdvance_of_eq (hb : b.workflows = a.workflows) : WorkflowsAdvance a b := by
  intro id w hw
  exact ⟨w, hb ▸ hw, le_rfl⟩

/-- No move takes the version of a workflow back. -/
theorem SchedulerMove.advances (h : SchedulerMove due published upTo a b) :
    WorkflowsAdvance a b := by
  -- a version only grows: with a claim and with a new configuration
  cases h with
  | create w hnew hruns =>
    intro id w' hw'
    refine ⟨w', ?_, le_rfl⟩
    rw [Table.get?_insert? hnew, if_neg, hw']
    rintro rfl
    rw [(Table.insert?_eq_some_iff.mp hnew).1] at hw'
    cases hw'
  | configure w f hrow ht hruns hclaim hdue =>
    refine workflowsAdvance_rewrite hrow ht ?_
    rcases hclaim with ⟨-, hversion⟩ | ⟨-, hversion⟩ <;> omega
  | claim w time f r hrow htime ht hversion =>
    exact workflowsAdvance_rewrite hrow ht (by omega)
  | beat r w f g hholds hruns hkeeps hsame ht hworkflow =>
    exact workflowsAdvance_rewrite hholds.workflow ht hworkflow.2.1.ge
  | finish r w f g hholds hruns hkeeps hended hpublished ht hworkflow =>
    exact workflowsAdvance_rewrite hholds.workflow ht hworkflow.2.ge
  | reap r f g hrow hstarted hruns hkeeps hended ht hworkflow =>
    intro id w hw
    rw [ht, Table.get?_rewrite]
    split
    · exact ⟨g.apply w, by rw [hw]; rfl, (hworkflow w).2.1.ge⟩
    · exact ⟨w, hw, le_rfl⟩
  | rest ht hruns => exact workflowsAdvance_of_eq ht

/-- A claimed run that has ended stays as it is. -/
def EndedStay (a b : ClaimTables) : Prop :=
  ∀ id r, a.runs.get? id = some r → r.status ≠ .started → b.runs.get? id = some r

theorem endedStay_rewrite {r : SchedulerRun} {f : Rewrite SchedulerRun.id}
    (hr : a.runs.get? r.id = some r) (hstarted : r.status = .started)
    (hb : b.runs = a.runs.rewrite r.id f) : EndedStay a b := by
  intro id r' hr' hended
  rw [hb, Table.get?_rewrite, if_neg, hr']
  rintro rfl
  rw [hr] at hr'
  cases hr'
  exact hended hstarted

theorem SchedulerMove.endedStay (h : SchedulerMove due published upTo a b) : EndedStay a b := by
  cases h with
  | create w hnew hruns => exact fun id r hr _ => hruns ▸ hr
  | configure w f hrow ht hruns hclaim hdue => exact fun id r hr _ => hruns ▸ hr
  | claim w time f r hrow htime ht hversion hdue hnew hof hstarted hrun hslot =>
    intro id r' hr' _
    rw [Table.get?_insert? hnew, if_neg, hr']
    rintro rfl
    rw [(Table.insert?_eq_some_iff.mp hnew).1] at hr'
    cases hr'
  | beat r w f g hholds hruns => exact endedStay_rewrite hholds.run hholds.started hruns
  | finish r w f g hholds hruns => exact endedStay_rewrite hholds.run hholds.started hruns
  | reap r f g hrow hstarted hruns => exact endedStay_rewrite hrow hstarted hruns
  | rest ht hruns => exact fun id r hr _ => hruns ▸ hr

/-- Claimed runs belong to a workflow that has reached their version, and no
two runs of a workflow were claimed under one version. -/
structure Fenced (a : ClaimTables) : Prop where
  scheduled : ∀ id r, a.runs.get? id = some r → r.claimToken ≠ none → r.scheduledFor ≠ none
  reached : ∀ id r, a.runs.get? id = some r → r.scheduledFor ≠ none →
    ∃ w, a.workflows.get? r.workflowId = some w ∧ r.claimVersion ≤ w.claimVersion
  distinct : ∀ id r id' r', a.runs.get? id = some r → a.runs.get? id' = some r' →
    r.scheduledFor ≠ none → r'.scheduledFor ≠ none → r.workflowId = r'.workflowId →
    r.claimVersion = r'.claimVersion → id = id'

theorem Fenced.of_runs_eq (h : Fenced a) (hadvance : WorkflowsAdvance a b)
    (hruns : b.runs = a.runs) : Fenced b where
  scheduled id r hr := h.scheduled id r (hruns ▸ hr)
  reached id r hr hslot := by
    obtain ⟨w, hw, hle⟩ := h.reached id r (hruns ▸ hr) hslot
    obtain ⟨w', hw', hle'⟩ := hadvance _ w hw
    exact ⟨w', hw', hle.trans hle'⟩
  distinct id r id' r' hr hr' := h.distinct id r id' r' (hruns ▸ hr) (hruns ▸ hr')

/-- A rewritten run is the run it was, as far as its claim goes. -/
theorem run_of_rewrite {r₀ : SchedulerRun} {f : Rewrite SchedulerRun.id} (hkeeps : KeepsClaim f)
    (hb : b.runs = a.runs.rewrite r₀.id f) {id : String} {r' : SchedulerRun}
    (hr' : b.runs.get? id = some r') :
    ∃ r, a.runs.get? id = some r ∧ r'.workflowId = r.workflowId ∧
      r'.claimVersion = r.claimVersion ∧ r'.scheduledFor = r.scheduledFor ∧
      (r₀.id = id ∧ r' = f.apply r ∨ r₀.id ≠ id ∧ r' = r) := by
  rw [hb, Table.get?_rewrite_eq_some_iff] at hr'
  obtain ⟨r, hr, hcase⟩ := hr'
  refine ⟨r, hr, ?_, ?_, ?_, hcase⟩
  all_goals rcases hcase with ⟨-, rfl⟩ | ⟨-, rfl⟩
  · exact (hkeeps r).1
  · rfl
  · exact (hkeeps r).2.1
  · rfl
  · exact (hkeeps r).2.2
  · rfl

/-- Rewriting one run keeps the fences if it keeps its claim or gives it up, and no
version goes back. -/
theorem Fenced.of_rewrite (h : Fenced a) (hadvance : WorkflowsAdvance a b) {r₀ : SchedulerRun}
    {f : Rewrite SchedulerRun.id} (hrow : a.runs.get? r₀.id = some r₀)
    (hb : b.runs = a.runs.rewrite r₀.id f) (hkeeps : KeepsClaim f)
    (htoken : (f.apply r₀).claimToken = none ∨ (f.apply r₀).claimToken = r₀.claimToken) :
    Fenced b where
  scheduled id r' hr' hclaimed := by
    obtain ⟨r, hr, -, -, hslot, hcase⟩ := run_of_rewrite hkeeps hb hr'
    rw [hslot]
    refine h.scheduled id r hr fun hnone => hclaimed ?_
    -- the rewritten run keeps its token or gives it up; the others have theirs
    rcases hcase with ⟨rfl, rfl⟩ | ⟨-, rfl⟩
    · rw [hrow] at hr
      cases hr
      rcases htoken with htoken | htoken
      · exact htoken
      · rw [htoken, hnone]
    · exact hnone
  reached id r' hr' hslot' := by
    obtain ⟨r, hr, hof, hversion, hslot, -⟩ := run_of_rewrite hkeeps hb hr'
    obtain ⟨w, hw, hle⟩ := h.reached id r hr (hslot ▸ hslot')
    obtain ⟨w', hw', hle'⟩ := hadvance _ w hw
    exact ⟨w', hof ▸ hw', hversion ▸ hle.trans hle'⟩
  distinct id r id' r' hr hr' hs hs' hof hversion := by
    obtain ⟨x, hx, hxof, hxversion, hxslot, -⟩ := run_of_rewrite hkeeps hb hr
    obtain ⟨x', hx', hxof', hxversion', hxslot', -⟩ := run_of_rewrite hkeeps hb hr'
    refine h.distinct id x id' x' hx hx' (hxslot ▸ hs) (hxslot' ▸ hs') ?_ ?_
    · rw [← hxof, ← hxof', hof]
    · rw [← hxversion, ← hxversion', hversion]

/-- A run read after an insertion is the new one or was there. -/
theorem run_of_insert {r₀ : SchedulerRun} (hnew : a.runs.insert? r₀ = some b.runs) {id : String}
    {r : SchedulerRun} (hr : b.runs.get? id = some r) :
    (r₀.id = id ∧ r = r₀) ∨ a.runs.get? id = some r := by
  rw [Table.get?_insert? hnew] at hr
  split at hr
  · next hid =>
    cases hr
    exact Or.inl ⟨hid, rfl⟩
  · exact Or.inr hr

/-- A move keeps the fences: a claimed run has a due time, its version is one that the
workflow has reached, and no two runs of a workflow share a version. -/
theorem SchedulerMove.fenced (h : SchedulerMove due published upTo a b) (ha : Fenced a) :
    Fenced b := by
  have hadvance := h.advances
  cases h with
  | create w hnew hruns => exact ha.of_runs_eq hadvance hruns
  | configure w f hrow ht hruns hclaim hdue => exact ha.of_runs_eq hadvance hruns
  | claim w time f r hrow htime ht hversion hdue hnew hof hstarted hrun hslot =>
    -- the new run's version is above everything claimed so far
    have hbelow : ∀ id x, a.runs.get? id = some x → x.scheduledFor ≠ none →
        x.workflowId = w.id → x.claimVersion < r.claimVersion := by
      intro id x hx hxslot hxof
      obtain ⟨w', hw', hle⟩ := ha.reached id x hx hxslot
      rw [hxof, hrow] at hw'
      cases hw'
      omega
    constructor
    · intro id x hx
      rcases run_of_insert hnew hx with ⟨-, rfl⟩ | hx
      · intro _
        rw [hslot]
        exact Option.some_ne_none _
      · exact ha.scheduled id x hx
    · intro id x hx hxslot
      rcases run_of_insert hnew hx with ⟨-, rfl⟩ | hx
      · refine ⟨f.apply w, ?_, by omega⟩
        rw [hof, ht, Table.get?_rewrite_self _ hrow]
      · obtain ⟨w', hw', hle⟩ := ha.reached id x hx hxslot
        obtain ⟨w'', hw'', hle'⟩ := hadvance _ w' hw'
        exact ⟨w'', hw'', hle.trans hle'⟩
    · intro id x id' x' hx hx' hs hs' hxof hxversion
      rcases run_of_insert hnew hx with ⟨hid, rfl⟩ | hx
      · rcases run_of_insert hnew hx' with ⟨hid', rfl⟩ | hx'
        · exact hid.symm.trans hid'
        · have := hbelow id' x' hx' hs' (hxof.symm.trans hof)
          omega
      · rcases run_of_insert hnew hx' with ⟨hid', rfl⟩ | hx'
        · have := hbelow id x hx hs (hxof.trans hof)
          omega
        · exact ha.distinct id x id' x' hx hx' hs hs' hxof hxversion
  | beat r w f g hholds hruns hkeeps hsame =>
    exact ha.of_rewrite hadvance hholds.run hruns hkeeps (Or.inr hsame.2)
  | finish r w f g hholds hruns hkeeps hended =>
    exact ha.of_rewrite hadvance hholds.run hruns hkeeps (Or.inl hended.2)
  | reap r f g hrow hstarted hruns hkeeps hended =>
    exact ha.of_rewrite hadvance hrow hruns hkeeps (Or.inl hended.2)
  | rest ht hruns => exact ha.of_runs_eq hadvance hruns

/-! ### Who holds a claim -/

/-- The run held the claim before, or the move has just claimed the due time for
it. -/
def HeldBefore (a : ClaimTables) (r' : SchedulerRun) : Prop :=
  (∃ r w, Holds a r w ∧ r.id = r'.id ∧ r.workflowId = r'.workflowId ∧
    r.scheduledFor = r'.scheduledFor) ∨
  (a.runs.get? r'.id = none ∧ ∃ w time, a.workflows.get? r'.workflowId = some w ∧
    w.nextRunAt = some time ∧ r'.scheduledFor = some time)

theorem HeldBefore.of_holds {r : SchedulerRun} {w : WorkflowRow} (h : Holds a r w) :
    HeldBefore a r :=
  Or.inl ⟨r, w, h, rfl, rfl, rfl⟩

/-- A claim that was lost is never held again: the token of a workflow is only
ever set together with the next version. -/
theorem SchedulerMove.held (h : SchedulerMove due published upTo a b) (hfenced : Fenced a)
    {r' : SchedulerRun} {w' : WorkflowRow} (hholds' : Holds b r' w') : HeldBefore a r' := by
  obtain ⟨hrun', hw', hstarted', htoken', hsame', hversion'⟩ := hholds'
  cases h with
  | create w hnew hruns =>
    -- a new workflow has no claimed runs
    have hrun : a.runs.get? r'.id = some r' := hruns ▸ hrun'
    obtain ⟨w₀, hw₀, -⟩ := hfenced.reached r'.id r' hrun (hfenced.scheduled r'.id r' hrun htoken')
    rw [Table.get?_insert? hnew] at hw'
    split at hw'
    · next hid =>
      rw [← hid, (Table.insert?_eq_some_iff.mp hnew).1] at hw₀
      cases hw₀
    · exact .of_holds ⟨hrun, hw', hstarted', htoken', hsame', hversion'⟩
  | configure w f hrow ht hruns hclaim hdue =>
    have hrun : a.runs.get? r'.id = some r' := hruns ▸ hrun'
    rw [ht, Table.get?_rewrite_eq_some_iff] at hw'
    obtain ⟨w₀, hw₀, ⟨hid, rfl⟩ | ⟨-, rfl⟩⟩ := hw'
    · rw [← hid, hrow] at hw₀
      cases hw₀
      rcases hclaim with ⟨htoken, -⟩ | ⟨htoken, hversion⟩
      · exact absurd (hsame'.symm.trans htoken) htoken'
      · exact .of_holds ⟨hrun, hid ▸ hrow, hstarted', htoken', htoken ▸ hsame',
          hversion ▸ hversion'⟩
    · exact .of_holds ⟨hrun, hw₀, hstarted', htoken', hsame', hversion'⟩
  | claim w time f r hrow htime ht hversion hdue hnew hof hstarted hrun hslot =>
    rw [ht, Table.get?_rewrite_eq_some_iff] at hw'
    rcases run_of_insert hnew hrun' with ⟨-, rfl⟩ | hx
    · refine Or.inr ⟨(Table.insert?_eq_some_iff.mp hnew).1, w, time, ?_, htime, hslot⟩
      rw [hof]
      exact hrow
    · obtain ⟨w₀, hw₀, ⟨hid, rfl⟩ | ⟨-, rfl⟩⟩ := hw'
      · -- an older claim on this workflow is fenced by the version
        rw [← hid, hrow] at hw₀
        cases hw₀
        obtain ⟨w₁, hw₁, hle⟩ :=
          hfenced.reached r'.id r' hx (hfenced.scheduled r'.id r' hx htoken')
        rw [← hid, hrow] at hw₁
        cases hw₁
        omega
      · exact .of_holds ⟨hx, hw₀, hstarted', htoken', hsame', hversion'⟩
  | beat r w f g hholds hruns hkeeps hsame ht hworkflow =>
    obtain ⟨x, hx, hof, hversion, hslot, hcase⟩ := run_of_rewrite hkeeps hruns hrun'
    have hxid : x.id = r'.id := Table.key_of_get? hx
    have hclaim : x.status = .started ∧ x.claimToken = r'.claimToken := by
      rcases hcase with ⟨hid, rfl⟩ | ⟨-, rfl⟩
      · rw [← hid, hholds.run] at hx
        cases hx
        exact ⟨hholds.started, hsame.2.symm⟩
      · exact ⟨hstarted', rfl⟩
    rw [ht, Table.get?_rewrite_eq_some_iff] at hw'
    obtain ⟨w₀, hw₀, hrewritten⟩ := hw'
    have hwsame : w₀.claimToken = w'.claimToken ∧ w₀.claimVersion = w'.claimVersion := by
      rcases hrewritten with ⟨hid, rfl⟩ | ⟨-, rfl⟩
      · rw [← hid, hholds.workflow] at hw₀
        cases hw₀
        exact ⟨hworkflow.1.symm, hworkflow.2.1.symm⟩
      · exact ⟨rfl, rfl⟩
    refine Or.inl ⟨x, w₀, ⟨hxid ▸ hx, hof ▸ hw₀, hclaim.1, ?_, ?_, ?_⟩, hxid, hof.symm,
      hslot.symm⟩
    · rw [hclaim.2]
      exact htoken'
    · rw [hwsame.1, hclaim.2, hsame']
    · rw [hwsame.2, ← hversion, hversion']
  | finish r w f g hholds hruns hkeeps hended hpublished ht hworkflow hdue =>
    rw [ht, Table.get?_rewrite_eq_some_iff] at hw'
    obtain ⟨w₀, hw₀, ⟨hid, rfl⟩ | ⟨hne, rfl⟩⟩ := hw'
    · -- nobody holds the claim that has just been given back
      rw [← hid, hholds.workflow] at hw₀
      cases hw₀
      exact absurd (hsame'.symm.trans hworkflow.1) htoken'
    · obtain ⟨x, hx, -, -, -, ⟨hid, rfl⟩ | ⟨-, rfl⟩⟩ := run_of_rewrite hkeeps hruns hrun'
      · rw [← hid, hholds.run] at hx
        cases hx
        exact absurd hstarted' hended.1
      · exact .of_holds ⟨hx, hw₀, hstarted', htoken', hsame', hversion'⟩
  | reap r f g hrow hstarted hruns hkeeps hended ht hworkflow =>
    obtain ⟨x, hx, -, -, -, ⟨hid, rfl⟩ | ⟨-, rfl⟩⟩ := run_of_rewrite hkeeps hruns hrun'
    · rw [← hid, hrow] at hx
      cases hx
      rw [hended.1] at hstarted'
      cases hstarted'
    · rw [ht, Table.get?_rewrite_eq_some_iff] at hw'
      obtain ⟨w₀, hw₀, ⟨-, rfl⟩ | ⟨-, rfl⟩⟩ := hw'
      · obtain ⟨htoken | htoken, hversion, -⟩ := hworkflow w₀
        · exact .of_holds ⟨hx, hw₀, hstarted', htoken', htoken ▸ hsame', hversion ▸ hversion'⟩
        · exact absurd (hsame'.symm.trans htoken) htoken'
      · exact .of_holds ⟨hx, hw₀, hstarted', htoken', hsame', hversion'⟩
  | rest ht hruns =>
    exact .of_holds ⟨hruns ▸ hrun', ht ▸ hw', hstarted', htoken', hsame', hversion'⟩

/-- One run at most holds the claim of a workflow. -/
theorem Fenced.holds_unique (h : Fenced a) {r r' : SchedulerRun} {w w' : WorkflowRow}
    (hr : Holds a r w) (hr' : Holds a r' w') (hof : r.workflowId = r'.workflowId) :
    r.id = r'.id := by
  have hw := hr.workflow
  rw [hof, hr'.workflow] at hw
  cases hw
  exact h.distinct r.id r r'.id r' hr.run hr'.run (h.scheduled _ r hr.run hr.token)
    (h.scheduled _ r' hr'.run hr'.token) hof (hr.sameVersion.symm.trans hr'.sameVersion)

/-! ### Slots -/

/-- No run of the workflow has succeeded for the time. -/
def Unserved (a : ClaimTables) (workflowId : String) (time : Int) : Prop :=
  ∀ id r, a.runs.get? id = some r → r.workflowId = workflowId → r.scheduledFor = some time →
    r.status ≠ .succeeded

/-- The due time of a workflow and the time of the run that holds its claim are
unserved, and no time was served twice. -/
structure SlotsSound (a : ClaimTables) : Prop where
  due : ∀ id w time, a.workflows.get? id = some w → w.nextRunAt = some time → Unserved a id time
  live : ∀ r w time, Holds a r w → r.scheduledFor = some time → Unserved a r.workflowId time
  once : ∀ id r id' r' time, a.runs.get? id = some r → a.runs.get? id' = some r' →
    r.status = .succeeded → r'.status = .succeeded → r.workflowId = r'.workflowId →
    r.scheduledFor = some time → r'.scheduledFor = some time → id = id'

/-- The due time the call writes was not served. -/
def FreshTime (a : ClaimTables) (due : Option (String × Int)) (published : Option String) : Prop :=
  ∀ workflowId time, due = some (workflowId, time) →
    ∀ id r, a.runs.get? id = some r → r.workflowId = workflowId →
      r.scheduledFor = some time → r.status ≠ .succeeded ∧ published ≠ some id

/-- The time of whoever holds a claim after the move was unserved before it. -/
theorem SlotsSound.live_of_held (ha : SlotsSound a) {r' : SchedulerRun}
    (hheld : HeldBefore a r') {time : Int} (hslot : r'.scheduledFor = some time) :
    Unserved a r'.workflowId time := by
  rcases hheld with ⟨r, w, hholds, -, hof, hslot'⟩ | ⟨-, w, time', hw, htime, hslot'⟩
  · rw [← hof]
    exact ha.live r w time hholds (hslot'.trans hslot)
  · rw [hslot'] at hslot
    cases hslot
    exact ha.due _ w _ hw htime

/-- A move that lets no run succeed keeps the slots, if it makes no served time
due. -/
theorem SlotsSound.of_quiet (ha : SlotsSound a)
    (hquiet : ∀ id r', b.runs.get? id = some r' → r'.status = .succeeded →
      ∃ r, a.runs.get? id = some r ∧ r.status = .succeeded ∧ r'.workflowId = r.workflowId ∧
        r'.scheduledFor = r.scheduledFor)
    (hdue : ∀ id w time, b.workflows.get? id = some w → w.nextRunAt = some time →
      Unserved a id time)
    (hheld : ∀ r w, Holds b r w → HeldBefore a r) : SlotsSound b := by
  -- a time that no run had served is served by none afterwards
  have hunserved : ∀ {workflowId time}, Unserved a workflowId time →
      Unserved b workflowId time := by
    intro workflowId time h id r' hr' hof hslot hstatus
    obtain ⟨r, hr, hrstatus, hrof, hrslot⟩ := hquiet id r' hr' hstatus
    exact h id r hr (hrof ▸ hof) (hrslot ▸ hslot) hrstatus
  constructor
  · intro id w time hw htime
    exact hunserved (hdue id w time hw htime)
  · intro r w time hholds hslot
    exact hunserved (ha.live_of_held (hheld r w hholds) hslot)
  · intro id r id' r' time hr hr' hs hs' hof hslot hslot'
    obtain ⟨x, hx, hxs, hxof, hxslot⟩ := hquiet id r hr hs
    obtain ⟨x', hx', hxs', hxof', hxslot'⟩ := hquiet id' r' hr' hs'
    refine ha.once id x id' x' time hx hx' hxs hxs' ?_ (hxslot ▸ hslot) (hxslot' ▸ hslot')
    rw [← hxof, ← hxof', hof]

/-- A rewrite of a run that does not make it succeed is quiet. -/
theorem quiet_of_rewrite {r₀ : SchedulerRun} {f : Rewrite SchedulerRun.id}
    (hrow : a.runs.get? r₀.id = some r₀) (hkeeps : KeepsClaim f)
    (hb : b.runs = a.runs.rewrite r₀.id f) (hnone : (f.apply r₀).status ≠ .succeeded)
    (id : String) (r' : SchedulerRun) (hr' : b.runs.get? id = some r')
    (hstatus : r'.status = .succeeded) :
    ∃ r, a.runs.get? id = some r ∧ r.status = .succeeded ∧ r'.workflowId = r.workflowId ∧
      r'.scheduledFor = r.scheduledFor := by
  obtain ⟨r, hr, hof, -, hslot, hcase⟩ := run_of_rewrite hkeeps hb hr'
  refine ⟨r, hr, ?_, hof, hslot⟩
  rcases hcase with ⟨hid, rfl⟩ | ⟨-, rfl⟩
  · rw [← hid, hrow] at hr
    cases hr
    exact absurd hstatus hnone
  · exact hstatus

/-- The end of a claim: the one move that serves a time. -/
theorem SlotsSound.of_finish (ha : SlotsSound a) {r : SchedulerRun} {w : WorkflowRow}
    {f : Rewrite SchedulerRun.id} {g : Rewrite WorkflowRow.id} (hholds : Holds a r w)
    (hruns : b.runs = a.runs.rewrite r.id f) (hkeeps : KeepsClaim f)
    (hpublished : (f.apply r).status = .succeeded → published = some r.id)
    (ht : b.workflows = a.workflows.rewrite r.workflowId g)
    (hworkflow : (g.apply w).claimToken = none)
    (hdue : ∀ time, (g.apply w).nextRunAt = some time → due = some (r.workflowId, time))
    (hfresh : FreshTime a due published) (hheld : ∀ r w, Holds b r w → HeldBefore a r) :
    SlotsSound b := by
  -- whatever the run does not serve itself stays unserved
  have hunserved : ∀ {workflowId time}, Unserved a workflowId time →
      ((f.apply r).status = .succeeded → r.workflowId = workflowId →
        r.scheduledFor ≠ some time) → Unserved b workflowId time := by
    intro workflowId time h hother id x' hx' hof hslot hstatus
    obtain ⟨x, hx, hxof, -, hxslot, hcase⟩ := run_of_rewrite hkeeps hruns hx'
    rw [hxof] at hof
    rw [hxslot] at hslot
    rcases hcase with ⟨hid, rfl⟩ | ⟨-, rfl⟩
    · rw [← hid, hholds.run] at hx
      cases hx
      exact hother hstatus hof hslot
    · exact h id x' hx hof hslot hstatus
  constructor
  · intro id w' time hw' htime
    rw [ht, Table.get?_rewrite_eq_some_iff] at hw'
    obtain ⟨w₀, hw₀, ⟨rfl, rfl⟩ | ⟨hne, rfl⟩⟩ := hw'
    · -- the next due time is the one the call writes, and that is fresh
      rw [hholds.workflow] at hw₀
      cases hw₀
      have hfresh' := hfresh _ time (hdue time htime)
      refine hunserved (fun id x hx hof hslot => (hfresh' id x hx hof hslot).1) ?_
      intro hstatus _ hslot
      exact (hfresh' r.id r hholds.run rfl hslot).2 (hpublished hstatus)
    · exact hunserved (ha.due id w' time hw₀ htime) fun _ hof => absurd hof hne
  · intro x w' time hholds' hslot
    refine hunserved (ha.live_of_held (hheld x w' hholds') hslot) fun _ hof => ?_
    -- nobody holds the claim that has just been given back
    have hw' := hholds'.workflow
    rw [ht, ← hof, Table.get?_rewrite_self _ hholds.workflow] at hw'
    cases hw'
    exact absurd (hholds'.sameToken.symm.trans hworkflow) hholds'.token
  · intro id x id' x' time hx hx' hs hs' hof hslot hslot'
    obtain ⟨y, hy, hyof, -, hyslot, hcase⟩ := run_of_rewrite hkeeps hruns hx
    obtain ⟨y', hy', hyof', -, hyslot', hcase'⟩ := run_of_rewrite hkeeps hruns hx'
    rw [hyslot] at hslot
    rw [hyslot'] at hslot'
    rw [hyof, hyof'] at hof
    rcases hcase with ⟨hid, rfl⟩ | ⟨-, rfl⟩ <;> rcases hcase' with ⟨hid', rfl⟩ | ⟨-, rfl⟩
    · exact hid.symm.trans hid'
    · rw [← hid, hholds.run] at hy
      cases hy
      exact absurd hs' (ha.live r w time hholds hslot id' x' hy' hof.symm hslot')
    · rw [← hid', hholds.run] at hy'
      cases hy'
      exact absurd hs (ha.live r w time hholds hslot' id x hy hof hslot)
    · exact ha.once id x id' x' time hy hy' hs hs' hof hslot hslot'

/-- A move keeps the slots sound: due times are unserved, and no slot succeeds twice.
The due time it sets has to be fresh. -/
theorem SchedulerMove.slots (h : SchedulerMove due published upTo a b) (hfenced : Fenced a)
    (hfresh : FreshTime a due published) (ha : SlotsSound a) : SlotsSound b := by
  have hheld : ∀ r w, Holds b r w → HeldBefore a r := fun r w hholds => h.held hfenced hholds
  -- a row that is kept has its due time, and only a finish marks a slot as served
  cases h with
  | create w hnew hruns =>
    refine ha.of_quiet ?_ ?_ hheld
    · exact fun id r hr hstatus => ⟨r, hruns ▸ hr, hstatus, rfl, rfl⟩
    · intro id w' time hw' htime
      rw [Table.get?_insert? hnew] at hw'
      split at hw'
      · next hid =>
        -- a new workflow has no runs
        intro _ r hr hof hslot
        obtain ⟨w₀, hw₀, -⟩ := hfenced.reached _ r hr (by simp [hslot])
        rw [hof, ← hid, (Table.insert?_eq_some_iff.mp hnew).1] at hw₀
        cases hw₀
      · exact ha.due id w' time hw' htime
  | configure w f hrow ht hruns hclaim hdue =>
    refine ha.of_quiet ?_ ?_ hheld
    · exact fun id r hr hstatus => ⟨r, hruns ▸ hr, hstatus, rfl, rfl⟩
    · intro id w' time hw' htime
      rw [ht, Table.get?_rewrite_eq_some_iff] at hw'
      obtain ⟨w₀, hw₀, ⟨rfl, rfl⟩ | ⟨-, rfl⟩⟩ := hw'
      · rw [hrow] at hw₀
        cases hw₀
        rcases hdue time htime with hkept | hwritten
        · exact ha.due _ w time hrow hkept
        · intro id r hr hof hslot
          exact (hfresh _ time hwritten id r hr hof hslot).1
      · exact ha.due id w' time hw₀ htime
  | claim w time f r hrow htime ht hversion hdue hnew hof hstarted hrun hslot =>
    refine ha.of_quiet ?_ ?_ hheld
    · intro id x hx hstatus
      rcases run_of_insert hnew hx with ⟨-, rfl⟩ | hx
      · rw [hstarted] at hstatus
        cases hstatus
      · exact ⟨x, hx, hstatus, rfl, rfl⟩
    · intro id w' time' hw' htime'
      rw [ht, Table.get?_rewrite_eq_some_iff] at hw'
      obtain ⟨w₀, hw₀, ⟨rfl, rfl⟩ | ⟨-, rfl⟩⟩ := hw'
      · rw [hrow] at hw₀
        cases hw₀
        exact ha.due _ w time' hrow (hdue ▸ htime')
      · exact ha.due id w' time' hw₀ htime'
  | beat r w f g hholds hruns hkeeps hsame ht hworkflow =>
    refine ha.of_quiet (quiet_of_rewrite hholds.run hkeeps hruns ?_) ?_ hheld
    · rw [hsame.1, hholds.started]
      decide
    · intro id w' time hw' htime
      rw [ht, Table.get?_rewrite_eq_some_iff] at hw'
      obtain ⟨w₀, hw₀, ⟨rfl, rfl⟩ | ⟨-, rfl⟩⟩ := hw'
      · rw [hholds.workflow] at hw₀
        cases hw₀
        exact ha.due _ w time hholds.workflow (hworkflow.2.2 ▸ htime)
      · exact ha.due id w' time hw₀ htime
  | finish r w f g hholds hruns hkeeps hended hpublished ht hworkflow hdue =>
    exact ha.of_finish hholds hruns hkeeps hpublished ht hworkflow.1 hdue hfresh hheld
  | reap r f g hrow hstarted hruns hkeeps hended ht hworkflow =>
    refine ha.of_quiet (quiet_of_rewrite hrow hkeeps hruns ?_) ?_ hheld
    · rw [hended.1]
      decide
    · intro id w' time hw' htime
      rw [ht, Table.get?_rewrite_eq_some_iff] at hw'
      obtain ⟨w₀, hw₀, ⟨rfl, rfl⟩ | ⟨-, rfl⟩⟩ := hw'
      · exact ha.due _ w₀ time hw₀ ((hworkflow w₀).2.2 ▸ htime)
      · exact ha.due id w' time hw₀ htime
  | rest ht hruns =>
    refine ha.of_quiet ?_ (fun id w time hw => ha.due id w time (ht ▸ hw)) hheld
    exact fun id r hr hstatus => ⟨r, hruns ▸ hr, hstatus, rfl, rfl⟩

/-- No move deletes a run. -/
theorem SchedulerMove.runs_stay (h : SchedulerMove due published upTo a b) {id : String}
    {r : SchedulerRun} (hr : a.runs.get? id = some r) : ∃ r', b.runs.get? id = some r' := by
  have hrewrite : ∀ {id' : String} {f : Rewrite SchedulerRun.id},
      b.runs = a.runs.rewrite id' f → ∃ r', b.runs.get? id = some r' := by
    intro id' f hb
    rw [hb, Table.get?_rewrite, hr]
    split
    · exact ⟨f.apply r, rfl⟩
    · exact ⟨r, rfl⟩
  -- no move deletes a run: they rewrite one, insert one, or leave them all
  cases h with
  | create w hnew hruns => exact ⟨r, hruns ▸ hr⟩
  | configure w f hrow ht hruns => exact ⟨r, hruns ▸ hr⟩
  | claim w time f r' hrow htime ht hversion hdue hnew =>
    rw [Table.get?_insert? hnew]
    split
    · exact ⟨r', rfl⟩
    · exact ⟨r, hr⟩
  | beat r' w f g hholds hruns => exact hrewrite hruns
  | finish r' w f g hholds hruns => exact hrewrite hruns
  | reap r' f g hrow hstarted hruns => exact hrewrite hruns
  | rest ht hruns => exact ⟨r, hruns ▸ hr⟩

/-- The run is there and does not hold the claim of its workflow: it has ended,
was reaped, or a later claim or a configuration change has fenced it. -/
def Lost (a : ClaimTables) (id : String) : Prop :=
  (∃ r, a.runs.get? id = some r) ∧ ∀ r w, Holds a r w → r.id ≠ id

theorem SchedulerMove.lost (h : SchedulerMove due published upTo a b) (hfenced : Fenced a)
    {id : String} (ha : Lost a id) : Lost b id := by
  obtain ⟨⟨r, hr⟩, hlost⟩ := ha
  refine ⟨h.runs_stay hr, ?_⟩
  rintro r' w' hholds rfl
  rcases h.held hfenced hholds with ⟨x, w, hx, hid, -⟩ | ⟨hnone, -⟩
  · exact hlost x w hx hid
  · rw [hr] at hnone
    cases hnone

/-- The time of a run is the time it was claimed for. -/
theorem SchedulerMove.slot_from (h : SchedulerMove due published upTo a b) {id : String}
    {r' : SchedulerRun} (hr' : b.runs.get? id = some r') :
    (∃ r, a.runs.get? id = some r ∧ r'.scheduledFor = r.scheduledFor) ∨
      ∃ checkedAt ∈ upTo, ∃ time, r'.scheduledFor = some time ∧ time ≤ checkedAt := by
  -- a rewrite of a run keeps its time
  have hrewrite : ∀ {r₀ : SchedulerRun} {f : Rewrite SchedulerRun.id}, KeepsClaim f →
      b.runs = a.runs.rewrite r₀.id f →
      ∃ r, a.runs.get? id = some r ∧ r'.scheduledFor = r.scheduledFor := by
    intro r₀ f hkeeps hb
    obtain ⟨r, hr, -, -, hslot, -⟩ := run_of_rewrite hkeeps hb hr'
    exact ⟨r, hr, hslot⟩
  cases h with
  | create w hnew hruns => exact Or.inl ⟨r', hruns ▸ hr', rfl⟩
  | configure w f hrow ht hruns => exact Or.inl ⟨r', hruns ▸ hr', rfl⟩
  | claim w time f r hrow htime ht hversion hdue hnew hof hstarted hrun hslot hupTo =>
    rcases run_of_insert hnew hr' with ⟨-, rfl⟩ | hr
    · obtain ⟨checkedAt, hchecked, hle⟩ := hupTo
      exact Or.inr ⟨checkedAt, hchecked, time, hslot, hle⟩
    · exact Or.inl ⟨r', hr, rfl⟩
  | beat r w f g hholds hruns hkeeps => exact Or.inl (hrewrite hkeeps hruns)
  | finish r w f g hholds hruns hkeeps => exact Or.inl (hrewrite hkeeps hruns)
  | reap r f g hrow hstarted hruns hkeeps => exact Or.inl (hrewrite hkeeps hruns)
  | rest ht hruns => exact Or.inl ⟨r', hruns ▸ hr', rfl⟩

end Invariants

/-! ### Runs of the scheduler -/

section Runs

/-- No run has been claimed yet. -/
def Unclaimed (s : Scheduler) : Prop :=
  ∀ id r, s.runs.get? id = some r → r.claimToken = none ∧ r.scheduledFor = none

/-- The scheduler gets from `s` to `t` by serving calls. -/
def ServedTo (env : SchedulerEnv) (s t : Scheduler) : Prop :=
  ∃ calls, Run (SchedulerStep env) (· = s) calls t

/-- No two successful runs of a workflow were claimed for the same time. -/
def OncePerSlot (s : Scheduler) : Prop :=
  ∀ id r id' r' time, s.runs.get? id = some r → s.runs.get? id' = some r' →
    r.status = .succeeded → r'.status = .succeeded → r.workflowId = r'.workflowId →
    r.scheduledFor = some time → r'.scheduledFor = some time → id = id'

/-- The caller's clock is not ahead, and the due time it writes lies ahead. -/
def DueAhead (env : SchedulerEnv) (s : Scheduler) (call : SchedulerCall) : Prop :=
  (∀ workflowId time, call.dueOf s = some (workflowId, time) → env.timestamp s.reads < time) ∧
    ∀ checkedAt ∈ call.upTo?, checkedAt ≤ env.timestamp s.reads

variable {ops : List SchedulerCall} {s t : Scheduler}

theorem servedTo_serve (s : Scheduler) (call : SchedulerCall) :
    ServedTo env s (call.serve env s) := by
  have hstart : Run (SchedulerStep env) (· = s) [] s := .start rfl
  exact ⟨[] ++ [call], hstart.next rfl⟩

theorem fenced_of_unclaimed (h : Unclaimed s) : Fenced s.tables where
  scheduled id r hr htoken := absurd (h id r hr).1 htoken
  reached id r hr hslot := absurd (h id r hr).2 hslot
  distinct id r _ _ hr _ hslot := absurd (h id r hr).2 hslot

theorem fenced_serve (h : Fenced s.tables) (call : SchedulerCall) :
    Fenced (call.serve env s).tables :=
  (serve_moves s call).1.keeps h (fun hmove => hmove.fenced) fun _ _ hmove => hmove.fenced

theorem fenced_of_run (run : Run (SchedulerStep env) Unclaimed ops s) : Fenced s.tables := by
  refine run.invariant (fun s h => fenced_of_unclaimed h) ?_
  rintro s call t h rfl
  exact fenced_serve h call

theorem advances_serve (s : Scheduler) (call : SchedulerCall) :
    WorkflowsAdvance s.tables (call.serve env s).tables := by
  refine (serve_moves s call).1.keeps (workflowsAdvance_of_eq rfl)
    (fun hmove _ => hmove.advances) ?_
  intro c d hmove hc id w hw
  obtain ⟨w', hw', hle⟩ := hc id w hw
  obtain ⟨w'', hw'', hle'⟩ := hmove.advances id w' hw'
  exact ⟨w'', hw'', hle.trans hle'⟩

theorem advances_later (h : ServedTo env s t) : WorkflowsAdvance s.tables t.tables := by
  obtain ⟨calls, run⟩ := h
  refine run.invariant (P := fun t => WorkflowsAdvance s.tables t.tables) ?_ ?_
  · rintro _ rfl
    exact workflowsAdvance_of_eq rfl
  · rintro t call _ ht rfl id w hw
    obtain ⟨w', hw', hle⟩ := ht id w hw
    obtain ⟨w'', hw'', hle'⟩ := advances_serve t call id w' hw'
    exact ⟨w'', hw'', hle.trans hle'⟩

theorem endedStay_serve (s : Scheduler) (call : SchedulerCall) :
    EndedStay s.tables (call.serve env s).tables := by
  refine (serve_moves s call).1.keeps (fun _ _ hr _ => hr) (fun hmove _ => hmove.endedStay) ?_
  intro c d hmove hc id r hr hended
  exact hmove.endedStay id r (hc id r hr hended) hended

theorem endedStay_later (h : ServedTo env s t) : EndedStay s.tables t.tables := by
  obtain ⟨calls, run⟩ := h
  refine run.invariant (P := fun t => EndedStay s.tables t.tables) ?_ ?_
  · rintro _ rfl id r hr -
    exact hr
  · rintro t call _ ht rfl id r hr hended
    exact endedStay_serve t call id r (ht id r hr hended) hended

theorem lost_later (hfenced : Fenced s.tables) {id : String} (hlost : Lost s.tables id)
    (h : ServedTo env s t) : Lost t.tables id := by
  obtain ⟨calls, run⟩ := h
  suffices Fenced t.tables ∧ Lost t.tables id from this.2
  refine run.invariant (P := fun t => Fenced t.tables ∧ Lost t.tables id) ?_ ?_
  · rintro _ rfl
    exact ⟨hfenced, hlost⟩
  · rintro t call _ ht rfl
    exact (serve_moves t call).1.keeps (P := fun c => Fenced c ∧ Lost c id) ht
      (fun hmove hc => ⟨hmove.fenced hc.1, hmove.lost hc.1 hc.2⟩)
      fun _ _ hmove hc => ⟨hmove.fenced hc.1, hmove.lost hc.1 hc.2⟩

theorem slots_serve {call : SchedulerCall} (hfenced : Fenced s.tables) (hs : SlotsSound s.tables)
    (hfresh : FreshDue s call) : SlotsSound (call.serve env s).tables := by
  suffices Fenced (call.serve env s).tables ∧ SlotsSound (call.serve env s).tables from this.2
  refine (serve_moves s call).1.keeps (P := fun c => Fenced c ∧ SlotsSound c) ⟨hfenced, hs⟩ ?_ ?_
  · intro hmove _
    exact ⟨hmove.fenced hfenced, hmove.slots hfenced hfresh hs⟩
  · intro c d hmove hc
    exact ⟨hmove.fenced hc.1, hmove.slots hc.1 (fun _ _ hdue => by cases hdue) hc.2⟩

theorem slots_of_unclaimed (h : Unclaimed s) : SlotsSound s.tables := by
  have hnone : ∀ id r time, s.runs.get? id = some r → r.scheduledFor ≠ some time := by
    intro id r time hr hslot
    rw [(h id r hr).2] at hslot
    cases hslot
  constructor
  · intro _ _ time _ _ id r hr _ hslot
    exact absurd hslot (hnone id r time hr)
  · intro r _ time hholds hslot
    exact absurd hslot (hnone r.id r time hholds.run)
  · intro id r _ _ time hr _ _ _ _ hslot
    exact absurd hslot (hnone id r time hr)

theorem oncePerSlot_of_fresh
    (run : Run (fun s call t => SchedulerStep env s call t ∧ FreshDue s call) Unclaimed ops s) :
    OncePerSlot s := by
  suffices Fenced s.tables ∧ SlotsSound s.tables from this.2.once
  refine run.invariant (P := fun s => Fenced s.tables ∧ SlotsSound s.tables)
    (fun s h => ⟨fenced_of_unclaimed h, slots_of_unclaimed h⟩) ?_
  rintro s call t ⟨hfenced, hslots⟩ ⟨rfl, hfresh⟩
  exact ⟨fenced_serve hfenced call, slots_serve hfenced hslots hfresh⟩

theorem reads_le_reap (referenceTime : Int) (runIds : List String) (s : Scheduler) :
    s.reads ≤ (runIds.foldl (reapOne env referenceTime) s).reads := by
  induction runIds generalizing s with
  | nil => exact le_rfl
  | cons runId runIds ih =>
    refine le_trans ?_ (ih (reapOne env referenceTime s runId))
    unfold reapOne
    split
    · exact le_rfl
    · split
      · exact Nat.le_succ _
      · exact le_rfl

theorem reads_le_finalize {fence : ClaimFence} {status : RunStatus} {req : FinalizeRequest}
    (h : finalizeSchedulerClaim env s fence status req = some t) : s.reads ≤ t.reads := by
  obtain ⟨_, _, rfl⟩ := Option.map_eq_some_iff.mp h
  exact Nat.le_add_right _ 2

/-- The clock is read in order. -/
theorem reads_le_serve (s : Scheduler) (call : SchedulerCall) :
    s.reads ≤ (call.serve env s).reads := by
  unfold SchedulerCall.serve
  cases hperform : call.perform env s with
  | none => exact le_rfl
  | some t =>
    rw [Option.getD_some]
    -- each call reads the clock once or twice, and a reaper once for each claim
    cases call with
    | claim req =>
      simp only [SchedulerCall.perform, claimDueSchedulerWorkflow] at hperform
      split at hperform
      · cases hperform
        exact le_rfl
      · split at hperform
        · cases hperform
          exact le_rfl
        · split at hperform
          · obtain ⟨_, _, rfl⟩ := Option.map_eq_some_iff.mp hperform
            exact Nat.le_add_right _ 2
          · cases hperform
            exact le_rfl
    | heartbeat fence leaseExpiresAt =>
      simp only [SchedulerCall.perform, heartbeatSchedulerClaim] at hperform
      split at hperform
      · cases hperform
        exact Nat.le_add_right _ 1
      · cases hperform
        exact Nat.le_add_right _ 2
    | publish fence publishes req =>
      simp only [SchedulerCall.perform, publishClaim] at hperform
      split at hperform
      · cases hperform
        exact Nat.le_add_right _ 1
      · split at hperform
        · exact (Nat.le_add_right _ 1).trans (reads_le_finalize hperform)
        · cases hperform
    | fail fence req =>
      simp only [SchedulerCall.perform, failClaim, Option.some.injEq] at hperform
      subst hperform
      cases hfinalize : finalizeSchedulerClaim env s fence .failed req with
      | none => exact Nat.le_add_right _ 1
      | some t => exact reads_le_finalize hfinalize
    | reap referenceTime limit runIds =>
      simp only [SchedulerCall.perform, reapExpiredSchedulerClaims] at hperform
      split at hperform
      · cases hperform
      · cases hperform
        exact reads_le_reap referenceTime _ s
    | upsert up =>
      simp only [SchedulerCall.perform, upsertSchedulerWorkflow] at hperform
      split at hperform
      · obtain ⟨_, _, rfl⟩ := Option.map_eq_some_iff.mp hperform
        exact Nat.le_add_right _ 1
      · split at hperform
        · cases hperform
          exact Nat.le_add_right _ 2
        · cases hperform
          exact Nat.le_add_right _ 1
    | update workflowType patch =>
      obtain ⟨_, _, rfl⟩ := Option.map_eq_some_iff.mp hperform
      exact Nat.le_add_right _ 1

/-- Runs are claimed for times that have come. -/
def SlotsPast (env : SchedulerEnv) (s : Scheduler) : Prop :=
  ∀ id r time, s.runs.get? id = some r → r.scheduledFor = some time →
    time ≤ env.timestamp s.reads

/-- The reaper claims nothing. -/
theorem slot_from_of_reap {a b : ClaimTables}
    (hmoves : Relation.ReflTransGen (SchedulerMove none none none) a b) {id : String}
    {r' : SchedulerRun} (hr' : b.runs.get? id = some r') :
    ∃ r, a.runs.get? id = some r ∧ r'.scheduledFor = r.scheduledFor := by
  induction hmoves generalizing r' with
  | refl => exact ⟨r', hr', rfl⟩
  | tail _ hmove ih =>
    rcases hmove.slot_from hr' with ⟨r, hr, hslot⟩ | ⟨_, hnone, -⟩
    · obtain ⟨r₀, hr₀, hslot₀⟩ := ih hr
      exact ⟨r₀, hr₀, hslot.trans hslot₀⟩
    · cases hnone

theorem slotsPast_serve {call : SchedulerCall} (hs : SlotsPast env s)
    (hahead : DueAhead env s call) : SlotsPast env (call.serve env s) := by
  have hclock : env.timestamp s.reads ≤ env.timestamp (call.serve env s).reads :=
    env.clock.mono (reads_le_serve s call)
  intro id r' time hr' hslot'
  refine le_trans ?_ hclock
  have hmoves : ClaimMoves _ _ _ s.tables (call.serve env s).tables := (serve_moves s call).1
  rcases hmoves with hmove | hmoves
  · rcases hmove.slot_from hr' with ⟨r, hr, hslot⟩ | ⟨checkedAt, hchecked, time', hslot, hle⟩
    · exact hs id r time hr (hslot ▸ hslot')
    · rw [hslot'] at hslot
      cases hslot
      exact hle.trans (hahead.2 checkedAt hchecked)
  · obtain ⟨r, hr, hslot⟩ := slot_from_of_reap hmoves hr'
    exact hs id r time hr (hslot ▸ hslot')

/-- A due time that lies ahead has not been served. -/
theorem freshDue_of_ahead {call : SchedulerCall} (hs : SlotsPast env s)
    (hahead : DueAhead env s call) : FreshDue s call := by
  intro workflowId time hdue id r hr _ hslot
  have hpast := hs id r time hr hslot
  have hnext := hahead.1 workflowId time hdue
  omega

theorem oncePerSlot_of_ahead
    (run : Run (fun s call t => SchedulerStep env s call t ∧ DueAhead env s call) Unclaimed ops s) :
    OncePerSlot s := by
  suffices SlotsPast env s ∧ Fenced s.tables ∧ SlotsSound s.tables from this.2.2.once
  refine run.invariant
    (P := fun s => SlotsPast env s ∧ Fenced s.tables ∧ SlotsSound s.tables) ?_ ?_
  · intro s h
    refine ⟨?_, fenced_of_unclaimed h, slots_of_unclaimed h⟩
    intro id r time hr hslot
    rw [(h id r hr).2] at hslot
    cases hslot
  · rintro s call t ⟨hpast, hfenced, hslots⟩ ⟨rfl, hahead⟩
    exact ⟨slotsPast_serve hpast hahead, fenced_serve hfenced call,
      slots_serve hfenced hslots (freshDue_of_ahead hpast hahead)⟩

/-- Scheduler claims are fenced, whatever calls are served in whatever order.
The last promise is the callers' as well: they must not make a time due again
for which the workflow has succeeded, and need only compute due times ahead of
the clock for that. -/
theorem scheduler_fenced (run : Run (SchedulerStep env) Unclaimed ops s) :
    (∀ t, ServedTo env s t → WorkflowsAdvance s.tables t.tables) ∧
    (∀ r w r' w', Holds s.tables r w → Holds s.tables r' w' → r.workflowId = r'.workflowId →
      r.id = r'.id) ∧
    (∀ call : SchedulerCall, (call.serve env s).published = s.published ∨
      ∃ id, (call.serve env s).published = s.published ++ [id] ∧
        Publishes env s (call.serve env s) id) ∧
    (∀ id, Lost s.tables id → ∀ t, ServedTo env s t → ∀ call : SchedulerCall,
      ¬ Publishes env t (call.serve env t) id) ∧
    (∀ t, ServedTo env s t → EndedStay s.tables t.tables) ∧
    (Run (fun s call t => SchedulerStep env s call t ∧ FreshDue s call) Unclaimed ops s →
      OncePerSlot s) ∧
    (Run (fun s call t => SchedulerStep env s call t ∧ DueAhead env s call) Unclaimed ops s →
      OncePerSlot s) := by
  have hfenced := fenced_of_run run
  refine ⟨fun t h => advances_later h, ?_, ?_, ?_, fun t h => endedStay_later h,
    oncePerSlot_of_fresh, oncePerSlot_of_ahead⟩
  · intro r w r' w' hr hr' hof
    exact hfenced.holds_unique hr hr' hof
  · intro call
    rcases (serve_moves s call).2 with hsame | ⟨id, hpublished, -, hpublishes⟩
    · exact Or.inl hsame
    · exact Or.inr ⟨id, hpublished, hpublishes⟩
  · -- a run that has lost its claim holds none later on, so it publishes nothing
    rintro id hlost t h call ⟨r, w, hholds, hid, -⟩
    exact (lost_later hfenced hlost h).2 r w hholds hid

/-! ### A slot served twice -/

/-- Serve calls one after the other. -/
def serveAll (env : SchedulerEnv) (calls : List SchedulerCall) (s : Scheduler) : Scheduler :=
  calls.foldl (fun s call => call.serve env s) s

theorem run_serveAll (run : Run (SchedulerStep env) Unclaimed ops s) (calls : List SchedulerCall) :
    Run (SchedulerStep env) Unclaimed (ops ++ calls) (serveAll env calls s) := by
  induction calls generalizing ops s with
  | nil => simpa [serveAll] using run
  | cons call calls ih =>
    have hnext : Run (SchedulerStep env) Unclaimed (ops ++ [call]) (call.serve env s) :=
      run.next rfl
    simpa [serveAll] using ih hnext

theorem unclaimed_empty : Unclaimed {} := by
  intro id r hr
  cases hr

/-- A clock that stands still. -/
def SchedulerEnv.plain : SchedulerEnv where
  clock := Env.plain.clock
  jsonbDistinct a b := a.length != b.length
  jsonbContains a b := a.length == b.length

/-- The time the clock shows. -/
def dueNow : Int := noon.instant

/-- A daily brief is configured to be due now. -/
def configureBrief : SchedulerCall :=
  .upsert { id := "brief", workflowType := "daily_brief", enabled := some true,
            nextRunAt := some dueNow }

/-- The brief is claimed and published. -/
def serveBrief (runId : String) (claimVersion : Nat) : List SchedulerCall :=
  [.claim { checkedAt := dueNow, leaseExpiresAt := dueNow + 1, triggeredBy := "daemon",
            workflowId := "brief", claimToken := "token", runId := runId },
    .publish ⟨runId, "token", claimVersion⟩ true {}]

theorem scheduler_fenced_dailyBrief :
    let s := serveAll .plain (configureBrief :: serveBrief "a" 1) {}
    s.published = ["a"] ∧
      EndedStay s.tables (SchedulerCall.serve .plain s configureBrief).tables := by
  have run : Run (SchedulerStep .plain) Unclaimed _ _ :=
    run_serveAll (.start unclaimed_empty) (configureBrief :: serveBrief "a" 1)
  exact ⟨by decide +kernel, (scheduler_fenced run).2.2.2.2.1 _ (servedTo_serve _ configureBrief)⟩

/-- The brief is served, made due for the same time again and served again. -/
theorem slot_served_twice :
    let calls := configureBrief :: serveBrief "a" 1 ++
      .update "daily_brief" { nextRunAt := some (some dueNow) } :: serveBrief "b" 3
    (∀ call ∈ calls, ∀ checkedAt ∈ call.upTo?, ∀ n, checkedAt ≤ SchedulerEnv.plain.timestamp n) ∧
      ∃ s, Run (SchedulerStep .plain) Unclaimed calls s ∧ s.published = ["a", "b"] ∧
        ¬ OncePerSlot s := by
  intro calls
  refine ⟨?_, serveAll .plain calls {}, run_serveAll (.start unclaimed_empty) calls, ?_, ?_⟩
  · simp only [calls, configureBrief, serveBrief, List.cons_append, List.nil_append,
      List.forall_mem_cons]
    simp [SchedulerCall.upTo?, SchedulerEnv.timestamp, SchedulerEnv.plain, Env.plain, dueNow]
  · decide +kernel
  · intro honce
    have h := honce "a" _ "b" _ dueNow rfl rfl
    exact absurd (h rfl rfl rfl rfl rfl) (by decide)

end Runs

end AliceBot
