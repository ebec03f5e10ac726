import AliceBot.Library.Run
import AliceBot.Library.Table
import AliceBot.ServicePrimitives

/-!
# Response generation jobs

`response_jobs.ResponseGenerationJobStore`: a provider call is paid for, so a
request that is sent again under the same idempotency key must not start a
second one. The store keeps one row for each key. A worker that finds the row
`pending` moves it to `running` under a lease token of its own and only then
calls the provider; it reports back with the token. When the lease has run out
the job is failed, never handed to another worker.

Each call is one transaction on the locked row. The calls come in any order,
from workers that crashed, workers that are late and clients that repeat
themselves. `charged_once` says what no order can bring about: a second job for
a key, a step back, a terminal row rewritten, a second claim, or a finalization
under another token than the one that claimed.
-/

namespace AliceBot

open PyLib

/-! ### Rows -/

/-- `response_generation_jobs_state_check`. -/
inductive JobState where
  | pending
  | running
  | succeeded
  | failed
deriving DecidableEq, Repr

/-- The states a job does not leave. -/
def JobState.terminal : JobState → Bool
  | .succeeded => true
  | .failed => true
  | _ => false

/-- A row of `response_generation_jobs`. Times are microseconds. -/
structure JobRow where
  id : String
  userId : String
  workspaceId : Option String
  endpoint : String
  idempotencyKeyHash : String
  idempotencyKeyPreview : String
  requestFingerprint : String
  state : JobState := .pending
  leaseToken : Option String := none
  leaseExpiresAt : Option Int := none
  providerCallStartedAt : Option Int := none
  userEventId : Option String := none
  userEventSequenceNo : Option Int := none
  responseStatusCode : Option Int := none
  responsePayload : Option (Dict Json) := none
  errorPayload : Option (Dict Json) := none
  completedAt : Option Int := none
  createdAt : Int
  updatedAt : Int

/-- `UNIQUE (user_id, endpoint, idempotency_key_hash)`. -/
def JobRow.requestKey (row : JobRow) : String × String × String :=
  (row.userId, row.endpoint, row.idempotencyKeyHash)

/-- `^[0-9a-f]{64}$`. -/
def isSha256Hex (s : String) : Bool :=
  s.toList.length == 64 && s.toList.all fun c => c.isDigit || ('a' ≤ c && c ≤ 'f')

/-- The `CHECK` constraints of the table. -/
def JobRow.checks (row : JobRow) : Bool :=
  decide (row.endpoint ∈ ["v0_responses", "v1_runtime_invoke"])
    && isSha256Hex row.idempotencyKeyHash && isSha256Hex row.requestFingerprint
    && row.userEventSequenceNo.all (fun n => decide (1 ≤ n))
    && row.responseStatusCode.all (fun n => decide (100 ≤ n) && decide (n ≤ 599))
    && (row.state != .running || (row.leaseToken.isSome && row.leaseExpiresAt.isSome
      && row.providerCallStartedAt.isSome && row.userEventId.isSome
      && row.userEventSequenceNo.isSome))
    && (!row.state.terminal || (row.responseStatusCode.isSome && row.completedAt.isSome
      && ((row.state == .succeeded && row.responsePayload.isSome && row.errorPayload.isNone)
        || (row.state == .failed && row.errorPayload.isSome))))

/-- The table, and how often the database clock was read. -/
structure JobStore where
  jobs : Table JobRow.id := default
  reads : Nat := 0

/-- The database clock and the digest of an idempotency key. -/
structure JobEnv where
  clock : WallClock
  sha256 : String → String

/-! ### Calls -/

inductive JobError where
  /-- `ResponseJobFenceLostError`. -/
  | fenceLost (message : String)
  | valueError (message : String)
  | runtimeError (message : String)
  /-- A constraint of the table. -/
  | integrity
deriving DecidableEq

/-- What a call returns. -/
inductive JobReply where
  | lookup (job : JobRow) (created : Bool)
  | job (row : JobRow)
  | abandoned (row : Option JobRow)

abbrev JobOutcome := Except JobError (JobReply × JobStore)

/-- The arguments of `finalize`. -/
structure Finalization where
  leaseToken : String
  state : JobState
  statusCode : Int
  payload : Dict Json

/-- A call of the store, with the user the session is bound to. -/
inductive JobCall where
  /-- `id` is the row id the database draws. -/
  | createOrGetForUpdate (session userId : String) (workspaceId : Option String)
      (endpoint idempotencyKey requestFingerprint id : String)
  | claimPending (session jobId leaseToken : String) (leaseSeconds : Int) (userEventId : String)
      (userEventSequenceNo : Int)
  | failPending (session jobId : String) (statusCode : Int) (errorPayload : Dict Json)
  | finalize (session jobId : String) (request : Finalization)
  | failIfAbandoned (session jobId : String) (errorPayload : Dict Json)

variable (env : JobEnv)

/-- `clock_timestamp()`, the `n`-th time it is read. -/
def JobEnv.timestamp (n : Nat) : Int := (env.clock.read n).instant

/-- The row a first request inserts. -/
def newJob (session : String) (workspaceId : Option String)
    (endpoint idempotencyKey requestFingerprint id : String) (n : Nat) : JobRow :=
  { id := id
    userId := session
    workspaceId := workspaceId
    endpoint := endpoint
    idempotencyKeyHash := env.sha256 idempotencyKey
    idempotencyKeyPreview := String.ofList (idempotencyKey.toList.take 12)
    requestFingerprint := requestFingerprint
    createdAt := env.timestamp n
    updatedAt := env.timestamp (n + 1) }

/-- `create_or_get_for_update`. A key that is taken inserts nothing, and the
row that has it is locked and returned. -/
def createOrGetForUpdate (s : JobStore) (session userId : String) (workspaceId : Option String)
    (endpoint idempotencyKey requestFingerprint id : String) : JobOutcome :=
  let row := newJob env session workspaceId endpoint idempotencyKey requestFingerprint id s.reads
  if row.checks then
    match s.jobs.rows.find? fun r => r.requestKey = row.requestKey with
    | some existing => .ok (.lookup existing false, { s with reads := s.reads + 2 })
    | none =>
      match s.jobs.insert? row with
      | none => .error .integrity
      | some jobs =>
        -- the row is written for the user of the session, and the source compares
        if row.userId = userId then .ok (.lookup row true, ⟨jobs, s.reads + 2⟩)
        else
          .error (.runtimeError "response job tenant identity did not match the request")
  else .error .integrity

/-- One `UPDATE … WHERE id AND user_id AND … RETURNING`. The row written has to
pass the constraints, and its event may belong to no other job. -/
def updateJob (s : JobStore) (session jobId : String) (guard : JobRow → Bool)
    (f : Rewrite JobRow.id) : Except JobError (Option (JobRow × Table JobRow.id)) :=
  match s.jobs.updateWhere? jobId (fun r => decide (r.userId = session) && guard r) f with
  | none => .ok none
  | some (jobs, row) =>
    if row.checks && (s.jobs.rows.all fun r => decide (r.id = jobId) || r.userEventId.isNone
        || decide (r.userEventId ≠ row.userEventId)) then
      .ok (some (row, jobs))
    else .error .integrity

/-- What `claim_pending` sets. -/
def claimRewrite (leaseToken : String) (leaseSeconds : Int) (userEventId : String)
    (userEventSequenceNo : Int) (n : Nat) : Rewrite JobRow.id where
  apply row := { row with
    state := .running
    leaseToken := some leaseToken
    leaseExpiresAt := some (env.timestamp n + leaseSeconds * 1000000)
    providerCallStartedAt := some (env.timestamp (n + 1))
    userEventId := some userEventId
    userEventSequenceNo := some userEventSequenceNo
    updatedAt := env.timestamp (n + 2) }

/-- What the three calls that end a job set. -/
def endRewrite (state : JobState) (statusCode : Int) (n : Nat)
    (payloads : JobRow → Option (Dict Json) × Option (Dict Json)) : Rewrite JobRow.id where
  apply row := { row with
    state := state
    responseStatusCode := some statusCode
    responsePayload := (payloads row).1
    errorPayload := (payloads row).2
    completedAt := some (env.timestamp n)
    updatedAt := env.timestamp (n + 1) }

/-- A call that raises when no row was written. -/
def returningOne (s : JobStore) (message : String) (reads : Nat)
    (written : Except JobError (Option (JobRow × Table JobRow.id))) : JobOutcome :=
  match written with
  | .error e => .error e
  | .ok none => .error (.fenceLost message)
  | .ok (some (row, jobs)) => .ok (.job row, ⟨jobs, s.reads + reads⟩)

/-- `claim_pending`. -/
def claimPending (s : JobStore) (session jobId leaseToken : String) (leaseSeconds : Int)
    (userEventId : String) (userEventSequenceNo : Int) : JobOutcome :=
  returningOne s "response job could not be claimed from pending state" 3 <|
    updateJob s session jobId (fun r => r.state == .pending)
      (claimRewrite env leaseToken leaseSeconds userEventId userEventSequenceNo s.reads)

/-- `fail_pending`. -/
def failPending (s : JobStore) (session jobId : String) (statusCode : Int)
    (errorPayload : Dict Json) : JobOutcome :=
  returningOne s "pending response job failure lost its state fence" 2 <|
    updateJob s session jobId (fun r => r.state == .pending)
      (endRewrite env .failed statusCode s.reads fun row =>
        (row.responsePayload, some errorPayload))

/-- `finalize`. The worker that claimed the job, and no other, writes how it ended. -/
def finalizeJob (s : JobStore) (session jobId : String) (request : Finalization) : JobOutcome :=
  if request.state.terminal then
    returningOne s "response job finalization lost its lease fence" 2 <|
      updateJob s session jobId
        (fun r => r.state == .running && r.leaseToken == some request.leaseToken)
        (endRewrite env request.state request.statusCode s.reads fun _ =>
          (if request.state = .succeeded then some request.payload else none,
            if request.state = .failed then some request.payload else none))
  else .error (.valueError "response job terminal state must be succeeded or failed")

/-- `fail_if_abandoned`: a running job whose lease has expired. -/
def failIfAbandoned (s : JobStore) (session jobId : String) (errorPayload : Dict Json) :
    JobOutcome :=
  match updateJob s session jobId
      (fun r => r.state == .running
        && r.leaseExpiresAt.any fun t => decide (t ≤ env.timestamp (s.reads + 2)))
      (endRewrite env .failed 503 s.reads fun row => (row.responsePayload, some errorPayload)) with
  | .error e => .error e
  | .ok none => .ok (.abandoned none, { s with reads := s.reads + 3 })
  | .ok (some (row, jobs)) => .ok (.abandoned (some row), ⟨jobs, s.reads + 3⟩)

/-- Perform a call. -/
def JobCall.perform (s : JobStore) : JobCall → JobOutcome
  | createOrGetForUpdate session userId workspaceId endpoint key fingerprint id =>
    AliceBot.createOrGetForUpdate env s session userId workspaceId endpoint key fingerprint id
  | claimPending session jobId token seconds event sequence =>
    AliceBot.claimPending env s session jobId token seconds event sequence
  | failPending session jobId statusCode payload =>
    AliceBot.failPending env s session jobId statusCode payload
  | finalize session jobId request => finalizeJob env s session jobId request
  | failIfAbandoned session jobId payload => AliceBot.failIfAbandoned env s session jobId payload

/-- A call and how it was answered. -/
structure ServedCall where
  call : JobCall
  answer : Except JobError JobReply

/-- One call as a transaction: a call that raises is rolled back. -/
def JobStep (s : JobStore) (served : ServedCall) (t : JobStore) : Prop :=
  match served.call.perform env s with
  | .ok (reply, s') => served.answer = .ok reply ∧ t = s'
  | .error e => served.answer = .error e ∧ t = s

/-- Serve one call: what it answers and what it leaves. -/
def serveJob (s : JobStore) (call : JobCall) : ServedCall × JobStore :=
  match call.perform env s with
  | .ok (reply, t) => (⟨call, .ok reply⟩, t)
  | .error e => (⟨call, .error e⟩, s)

theorem jobStep_serveJob (s : JobStore) (call : JobCall) :
    JobStep env s (serveJob env s call).1 (serveJob env s call).2 := by
  unfold JobStep serveJob
  cases hperform : call.perform env s with
  | ok outcome => simp [hperform]
  | error e => simp [hperform]

/-- Serve calls one after the other. -/
def serveJobs (s : JobStore) : List JobCall → List ServedCall × JobStore
  | [] => ([], s)
  | call :: calls =>
    let (served, t) := serveJob env s call
    let (rest, u) := serveJobs t calls
    (served :: rest, u)

theorem run_serveJobs {ops : List ServedCall} {s : JobStore}
    (run : Run (JobStep env) (fun s => s.jobs.rows = []) ops s) (calls : List JobCall) :
    Run (JobStep env) (fun s => s.jobs.rows = []) (ops ++ (serveJobs env s calls).1)
      (serveJobs env s calls).2 := by
  induction calls generalizing ops s with
  | nil => simpa [serveJobs] using run
  | cons call calls ih =>
    have h := ih (run.next (jobStep_serveJob env s call))
    simpa [serveJobs] using h

/-! ### One call -/

/-- The edges of a job's life. -/
inductive JobMove : JobState → JobState → Prop
  | claim : JobMove .pending .running
  | refuse : JobMove .pending .failed
  | finish {state : JobState} (h : state.terminal = true) : JobMove .running state

theorem JobMove.source_live {state state' : JobState} (h : JobMove state state') :
    state.terminal = false := by
  cases h <;> rfl

/-- The lease token under which a call claimed the job, if it did. -/
def ServedCall.claimOf (jobId : String) (served : ServedCall) : Option String :=
  match served.call, served.answer with
  | .claimPending _ id token _ _ _, .ok _ => if id = jobId then some token else none
  | _, _ => none

/-- The call finalized the job under this token. -/
def ServedCall.FinalizedWith (jobId token : String) (served : ServedCall) : Prop :=
  ∃ session request reply, served.call = .finalize session jobId request ∧
    request.leaseToken = token ∧ served.answer = .ok reply

/-- What a call does to the job: nothing, a new pending row under a key nobody
has, the claim, or an end of the row. -/
inductive JobEffect (s : JobStore) (served : ServedCall) (t : JobStore) : Prop
  | none (h : t.jobs = s.jobs) (hclaim : ∀ id, served.claimOf id = none)
      (hfinal : ∀ id token, ¬ served.FinalizedWith id token)
  | insert (row : JobRow) (hnew : s.jobs.insert? row = some t.jobs)
      (hpending : row.state = .pending)
      (hkey : ∀ r ∈ s.jobs.rows, r.requestKey ≠ row.requestKey)
      (hclaim : ∀ id, served.claimOf id = none)
      (hfinal : ∀ id token, ¬ served.FinalizedWith id token)
  | claim (jobId token : String) (row : JobRow) (f : Rewrite JobRow.id)
      (hrow : s.jobs.get? jobId = some row) (hpending : row.state = .pending)
      (ht : t.jobs = s.jobs.rewrite jobId f)
      (hrunning : (f.apply row).state = .running)
      (htoken : (f.apply row).leaseToken = some token)
      (hkey : ∀ r, (f.apply r).requestKey = r.requestKey)
      (hclaim : ∀ id, served.claimOf id = if jobId = id then some token else .none)
      (hfinal : ∀ id token, ¬ served.FinalizedWith id token)
  | finish (jobId : String) (row : JobRow) (f : Rewrite JobRow.id)
      (hrow : s.jobs.get? jobId = some row) (hmove : JobMove row.state (f.apply row).state)
      (ht : t.jobs = s.jobs.rewrite jobId f)
      (hterminal : (f.apply row).state.terminal = true)
      (htoken : (f.apply row).leaseToken = row.leaseToken)
      (hkey : ∀ r, (f.apply r).requestKey = r.requestKey)
      (hclaim : ∀ id, served.claimOf id = .none)
      (hfinal : ∀ id token, served.FinalizedWith id token →
        id = jobId ∧ row.state = .running ∧ row.leaseToken = some token)

theorem updateJob_some {s : JobStore} {session jobId : String} {guard : JobRow → Bool}
    {f : Rewrite JobRow.id} {row' : JobRow} {jobs : Table JobRow.id}
    (h : updateJob s session jobId guard f = .ok (some (row', jobs))) :
    ∃ row, s.jobs.get? jobId = some row ∧ guard row = true ∧ jobs = s.jobs.rewrite jobId f ∧
      row' = f.apply row := by
  unfold updateJob at h
  split at h
  · simp at h
  · next jobs' row'' hupdate =>
    obtain ⟨row, hrow, hguard, rfl, rfl⟩ := Table.updateWhere?_eq_some_iff.mp hupdate
    split at h
    · cases h
      exact ⟨row, hrow, (Bool.and_eq_true _ _ ▸ hguard).2, rfl, rfl⟩
    · cases h

theorem returningOne_ok {s t : JobStore} {message : String} {reads : Nat}
    {written : Except JobError (Option (JobRow × Table JobRow.id))} {reply : JobReply}
    (h : returningOne s message reads written = .ok (reply, t)) :
    ∃ row, written = .ok (some (row, t.jobs)) := by
  unfold returningOne at h
  split at h
  · cases h
  · cases h
  · next row jobs =>
    cases h
    exact ⟨row, rfl⟩

section Effects

variable {env} {s t : JobStore} {answer : Except JobError JobReply}

/-- A first request inserts its row in the first state; a repeated one is answered with
the row that is there. -/
theorem createOrGetForUpdate_effect {session userId endpoint key fingerprint id : String}
    {workspaceId : Option String} {reply : JobReply}
    (h : createOrGetForUpdate env s session userId workspaceId endpoint key fingerprint id =
      .ok (reply, t)) :
    JobEffect s
      ⟨.createOrGetForUpdate session userId workspaceId endpoint key fingerprint id, answer⟩ t := by
  have hclaim : ∀ jobId, ServedCall.claimOf jobId ⟨.createOrGetForUpdate session userId
      workspaceId endpoint key fingerprint id, answer⟩ = .none := fun _ => rfl
  have hfinal : ∀ jobId token, ¬ ServedCall.FinalizedWith jobId token
      ⟨.createOrGetForUpdate session userId workspaceId endpoint key fingerprint id, answer⟩ := by
    rintro jobId token ⟨_, _, _, hcall, -⟩
    cases hcall
  simp only [createOrGetForUpdate] at h
  split at h
  · split at h
    · -- the key is taken
      cases h
      exact .none rfl hclaim hfinal
    · next hfree =>
      split at h
      · cases h
      · next jobs hinsert =>
        split at h
        · cases h
          refine .insert _ hinsert rfl ?_ hclaim hfinal
          intro r hr hkey
          have := List.find?_eq_none.mp hfree r hr
          simp [hkey] at this
        · cases h
  · cases h

theorem claimPending_effect {session jobId token event : String} {seconds sequence : Int}
    {reply : JobReply}
    (h : claimPending env s session jobId token seconds event sequence = .ok (reply, t)) :
    JobEffect s ⟨.claimPending session jobId token seconds event sequence, .ok reply⟩ t := by
  obtain ⟨row', hwritten⟩ := returningOne_ok h
  obtain ⟨row, hrow, hguard, ht, -⟩ := updateJob_some hwritten
  refine .claim jobId token row _ hrow (by simpa using hguard) ht rfl rfl (fun _ => rfl)
    (fun _ => rfl) ?_
  rintro id token ⟨_, _, _, hcall, -⟩
  cases hcall

theorem failPending_effect {session jobId : String} {statusCode : Int} {payload : Dict Json}
    {reply : JobReply} (h : failPending env s session jobId statusCode payload = .ok (reply, t)) :
    JobEffect s ⟨.failPending session jobId statusCode payload, answer⟩ t := by
  obtain ⟨row', hwritten⟩ := returningOne_ok h
  obtain ⟨row, hrow, hguard, ht, -⟩ := updateJob_some hwritten
  have hpending : row.state = .pending := by simpa using hguard
  refine .finish jobId row _ hrow ?_ ht rfl rfl (fun _ => rfl) (fun _ => rfl) ?_
  · rw [hpending]
    exact .refuse
  · rintro id token ⟨_, _, _, hcall, -⟩
    cases hcall

/-- A finalization ends a running job under its own token, or raises. -/
theorem finalizeJob_effect {session jobId : String} {request : Finalization} {reply : JobReply}
    (h : finalizeJob env s session jobId request = .ok (reply, t)) :
    JobEffect s ⟨.finalize session jobId request, answer⟩ t := by
  unfold finalizeJob at h
  split at h
  · next hterminal =>
    obtain ⟨row', hwritten⟩ := returningOne_ok h
    obtain ⟨row, hrow, hguard, ht, -⟩ := updateJob_some hwritten
    simp only [Bool.and_eq_true, beq_iff_eq] at hguard
    refine .finish jobId row _ hrow ?_ ht hterminal rfl (fun _ => rfl) (fun _ => rfl) ?_
    · rw [hguard.1]
      exact .finish hterminal
    · rintro id token ⟨_, _, _, hcall, rfl, -⟩
      cases hcall
      exact ⟨rfl, hguard.1, hguard.2⟩
  · cases h

/-- A running job whose lease has expired is failed, and any other one is left alone. -/
theorem failIfAbandoned_effect {session jobId : String} {payload : Dict Json} {reply : JobReply}
    (h : failIfAbandoned env s session jobId payload = .ok (reply, t)) :
    JobEffect s ⟨.failIfAbandoned session jobId payload, answer⟩ t := by
  -- a job that is abandoned is finished, but not finalized under a token
  have hfinal : ∀ id token, ¬ ServedCall.FinalizedWith id token
      ⟨.failIfAbandoned session jobId payload, answer⟩ := by
    rintro id token ⟨_, _, _, hcall, -⟩
    cases hcall
  unfold failIfAbandoned at h
  split at h
  · cases h
  · cases h
    exact .none rfl (fun _ => rfl) hfinal
  · next row' jobs hwritten =>
    cases h
    obtain ⟨row, hrow, hguard, ht, -⟩ := updateJob_some hwritten
    simp only [Bool.and_eq_true, beq_iff_eq] at hguard
    refine .finish jobId row _ hrow ?_ ht rfl rfl (fun _ => rfl) (fun _ => rfl) ?_
    · rw [hguard.1]
      exact .finish rfl
    · intro id token hserved
      exact absurd hserved (hfinal id token)

/-- Everything a call can do. A call that raised did nothing. -/
theorem jobStep_effect {served : ServedCall} (h : JobStep env s served t) :
    JobEffect s served t := by
  obtain ⟨call, answer⟩ := served
  unfold JobStep at h
  split at h
  · next reply s' hperform =>
    obtain ⟨rfl, rfl⟩ := h
    -- call by call
    cases call with
    | createOrGetForUpdate => exact createOrGetForUpdate_effect hperform
    | claimPending => exact claimPending_effect hperform
    | failPending => exact failPending_effect hperform
    | finalize => exact finalizeJob_effect hperform
    | failIfAbandoned => exact failIfAbandoned_effect hperform
  · next e hperform =>
    obtain ⟨hanswer, rfl⟩ := h
    refine .none rfl ?_ ?_
    · intro id
      cases call <;> simp_all [ServedCall.claimOf]
    · rintro id token ⟨_, _, reply, -, -, hok⟩
      simp_all

end Effects

/-! ### Runs -/

/-- The tokens under which the job was claimed, oldest first. -/
def claimTokens (ops : List ServedCall) (jobId : String) : List String :=
  ops.filterMap (ServedCall.claimOf jobId)

/-- What the claims so far say about the row, and the other way round. -/
def ClaimsRecorded (claims : List String) : Option JobRow → Prop
  | none => claims = []
  | some row =>
    (row.state = .pending → claims = []) ∧
    (row.state = .running → ∃ token, row.leaseToken = some token ∧ claims = [token]) ∧
    (claims = [] ∨ ∃ token, row.leaseToken = some token ∧ claims = [token])

/-- The invariant of a run: one row a key, and each row in step with its claims. -/
structure JobsSound (ops : List ServedCall) (s : JobStore) : Prop where
  unique : ∀ r ∈ s.jobs.rows, ∀ r' ∈ s.jobs.rows, r.requestKey = r'.requestKey → r = r'
  recorded : ∀ id, ClaimsRecorded (claimTokens ops id) (s.jobs.get? id)

theorem claimTokens_append (ops : List ServedCall) (served : ServedCall) (id : String) :
    claimTokens (ops ++ [served]) id = claimTokens ops id ++ (served.claimOf id).toList := by
  simp only [claimTokens, List.filterMap_append]
  cases h : served.claimOf id with
  | none => simp [h]
  | some token => simp [h]

/-- A rewrite that keeps the keys keeps them unique. -/
theorem unique_rewrite {t : Table JobRow.id} {jobId : String} {f : Rewrite JobRow.id}
    (hkey : ∀ r, (f.apply r).requestKey = r.requestKey)
    (h : ∀ r ∈ t.rows, ∀ r' ∈ t.rows, r.requestKey = r'.requestKey → r = r') :
    ∀ r ∈ (t.rewrite jobId f).rows, ∀ r' ∈ (t.rewrite jobId f).rows,
      r.requestKey = r'.requestKey → r = r' := by
  have hrow : ∀ r, (if r.id = jobId then f.apply r else r).requestKey = r.requestKey := by
    intro r
    split
    · exact hkey r
    · rfl
  intro r hr r' hr' heq
  obtain ⟨x, hx, rfl⟩ := List.mem_map.mp hr
  obtain ⟨x', hx', rfl⟩ := List.mem_map.mp hr'
  rw [hrow, hrow] at heq
  rw [h x hx x' hx' heq]

/-- One call keeps the request keys distinct, and every claim is recorded in the log of
the calls. -/
theorem JobsSound.step {ops : List ServedCall} {s t : JobStore} {served : ServedCall}
    (h : JobsSound ops s) (hstep : JobStep env s served t) :
    JobsSound (ops ++ [served]) t := by
  cases jobStep_effect hstep with
  | none ht hclaim hfinal =>
    refine ⟨by rw [ht]; exact h.unique, fun id => ?_⟩
    rw [claimTokens_append, hclaim, Option.toList_none, List.append_nil, ht]
    exact h.recorded id
  | insert row hnew hpending hkey hclaim hfinal =>
    obtain ⟨hfree, hrows⟩ := Table.insert?_eq_some_iff.mp hnew
    constructor
    · intro r hr r' hr' heq
      rw [hrows, List.mem_append, List.mem_singleton] at hr hr'
      rcases hr with hr | rfl
      · rcases hr' with hr' | rfl
        · exact h.unique r hr r' hr' heq
        · exact absurd heq (hkey r hr)
      · rcases hr' with hr' | rfl
        · exact absurd heq.symm (hkey r' hr')
        · rfl
    · intro id
      rw [claimTokens_append, hclaim, Option.toList_none, List.append_nil,
        Table.get?_insert? hnew]
      split
      · next hid =>
        -- the new row is pending and was never claimed
        subst hid
        have hrec := h.recorded row.id
        rw [hfree] at hrec
        have hnone : claimTokens ops row.id = [] := hrec
        refine ⟨fun _ => hnone, fun hrunning => ?_, Or.inl hnone⟩
        rw [hpending] at hrunning
        cases hrunning
      · exact h.recorded id
  | claim jobId token row f hrow hpending ht hrunning htoken hkey hclaim hfinal =>
    refine ⟨by rw [ht]; exact unique_rewrite hkey h.unique, fun id => ?_⟩
    rw [claimTokens_append, hclaim, ht, Table.get?_rewrite]
    split
    · next hid =>
      subst hid
      have hrec := h.recorded jobId
      rw [hrow] at hrec
      rw [hrow, hrec.1 hpending]
      -- the first claim of this row
      refine ⟨fun h => ?_, fun _ => ⟨token, htoken, rfl⟩, Or.inr ⟨token, htoken, rfl⟩⟩
      rw [hrunning] at h
      cases h
    · rw [Option.toList_none, List.append_nil]
      exact h.recorded id
  | finish jobId row f hrow hmove ht hterminal htoken hkey hclaim hfinal =>
    refine ⟨by rw [ht]; exact unique_rewrite hkey h.unique, fun id => ?_⟩
    rw [claimTokens_append, hclaim, Option.toList_none, List.append_nil, ht, Table.get?_rewrite]
    split
    · next hid =>
      subst hid
      have hrec := h.recorded jobId
      rw [hrow] at hrec
      rw [hrow]
      refine ⟨fun h => ?_, fun h => ?_, ?_⟩
      · rw [h] at hterminal
        cases hterminal
      · rw [h] at hterminal
        cases hterminal
      · rw [htoken]
        exact hrec.2.2
    · exact h.recorded id

theorem jobsSound_of_run {ops : List ServedCall} {s : JobStore}
    (run : Run (JobStep env) (fun s => s.jobs.rows = []) ops s) : JobsSound ops s := by
  refine run.history ?_ fun ops s served t h hstep => h.step env hstep
  intro s hempty
  refine ⟨by simp [hempty], fun id => ?_⟩
  have hnone : s.jobs.get? id = none := Table.get?_eq_none_iff.mpr (by simp [hempty])
  rw [hnone]
  rfl

/-- What one call does to a row: the row stays, or its state moves along an
edge and its key stays. -/
theorem jobStep_row {s t : JobStore} {served : ServedCall} (hstep : JobStep env s served t)
    {id : String} {row : JobRow} (hrow : s.jobs.get? id = some row) :
    ∃ row', t.jobs.get? id = some row' ∧
      (row' = row ∨ JobMove row.state row'.state ∧ row'.requestKey = row.requestKey) := by
  -- a call that rewrites one job leaves the others alone
  have hrewrite : ∀ {jobId : String} {r : JobRow} {f : Rewrite JobRow.id},
      s.jobs.get? jobId = some r → t.jobs = s.jobs.rewrite jobId f →
      JobMove r.state (f.apply r).state → (∀ r, (f.apply r).requestKey = r.requestKey) →
      ∃ row', t.jobs.get? id = some row' ∧
        (row' = row ∨ JobMove row.state row'.state ∧ row'.requestKey = row.requestKey) := by
    intro jobId r f hr ht hmove hkey
    rw [ht, Table.get?_rewrite]
    split
    · next hid =>
      subst hid
      rw [hr] at hrow
      cases hrow
      exact ⟨f.apply row, by rw [hr]; rfl, Or.inr ⟨hmove, hkey row⟩⟩
    · exact ⟨row, hrow, Or.inl rfl⟩
  cases jobStep_effect hstep with
  | none ht => exact ⟨row, by rw [ht]; exact hrow, Or.inl rfl⟩
  | insert new hnew =>
    refine ⟨row, ?_, Or.inl rfl⟩
    rw [Table.get?_insert? hnew, if_neg, hrow]
    rintro rfl
    rw [(Table.insert?_eq_some_iff.mp hnew).1] at hrow
    cases hrow
  | claim jobId token r f hr hpending ht hrunning htoken hkey =>
    refine hrewrite hr ht ?_ hkey
    rw [hpending, hrunning]
    exact .claim
  | finish jobId r f hr hmove ht hterminal htoken hkey => exact hrewrite hr ht hmove hkey

/-- **At most one charge a key.** After any calls by any workers, in any order:
no two jobs share user, endpoint and key; no job was claimed twice; the next
call, whatever it is, moves a row along an edge or leaves it, leaves a row that
has ended as it is, and finalizes a job only under the stored token, which is
the one that claimed it. -/
theorem charged_once {ops : List ServedCall} {s : JobStore}
    (run : Run (JobStep env) (fun s => s.jobs.rows = []) ops s) :
    (∀ r ∈ s.jobs.rows, ∀ r' ∈ s.jobs.rows, r.requestKey = r'.requestKey → r = r') ∧
    (∀ id, (claimTokens ops id).length ≤ 1) ∧
    ∀ served t, JobStep env s served t →
      (∀ id row, s.jobs.get? id = some row → ∃ row', t.jobs.get? id = some row' ∧
        (row' = row ∨ JobMove row.state row'.state ∧ row'.requestKey = row.requestKey) ∧
        (row.state.terminal = true → row' = row)) ∧
      ∀ id token, served.FinalizedWith id token → ∃ row, s.jobs.get? id = some row ∧
        row.leaseToken = some token ∧ claimTokens ops id = [token] := by
  have hsound := jobsSound_of_run env run
  -- all from the invariant of the table and its log of claims
  refine ⟨hsound.unique, fun id => ?_, fun served t hstep => ⟨?_, ?_⟩⟩
  · have hrec := hsound.recorded id
    cases hrow : s.jobs.get? id with
    | none =>
      rw [hrow] at hrec
      have hnone : claimTokens ops id = [] := hrec
      simp [hnone]
    | some row =>
      rw [hrow] at hrec
      rcases hrec.2.2 with hnone | ⟨token, -, hone⟩
      · simp [hnone]
      · simp [hone]
  · intro id row hrow
    obtain ⟨row', hrow', hmoves⟩ := jobStep_row env hstep hrow
    refine ⟨row', hrow', hmoves, fun hterminal => ?_⟩
    rcases hmoves with heq | ⟨hmove, -⟩
    · exact heq
    · exact absurd hterminal (by rw [hmove.source_live]; decide)
  · intro id token hfinalized
    -- only finishing a job finalizes it, and it finds the token it was claimed with
    cases jobStep_effect hstep with
    | none _ _ hfinal => exact absurd hfinalized (hfinal id token)
    | insert _ _ _ _ _ hfinal => exact absurd hfinalized (hfinal id token)
    | claim _ _ _ _ _ _ _ _ _ _ _ hfinal => exact absurd hfinalized (hfinal id token)
    | finish jobId row f hrow hmove ht hterminal htoken hkey hclaim hfinal =>
      obtain ⟨rfl, hrunning, hlease⟩ := hfinal id token hfinalized
      have hrec := hsound.recorded id
      rw [hrow] at hrec
      obtain ⟨token', hlease', hone⟩ := hrec.2.1 hrunning
      rw [hlease] at hlease'
      cases hlease'
      exact ⟨row, hrow, hlease, hone⟩

/-- Two workers race for a new job, the first one finalizes it and the client
asks again. -/
def raceForJob : List JobCall :=
  let create := JobCall.createOrGetForUpdate "u" "u" none "v1_runtime_invoke" "key-1"
    (String.ofList (List.replicate 64 'b')) "j1"
  [create, .claimPending "u" "j1" "w1" 1800 "e1" 1, .claimPending "u" "j1" "w2" 1800 "e2" 2,
    .finalize "u" "j1" ⟨"w1", .succeeded, 200, []⟩, create]

def plainJobEnv : JobEnv :=
  { clock := Env.plain.clock, sha256 := fun _ => String.ofList (List.replicate 64 'a') }

theorem charged_once_race :
    let (ops, s) := serveJobs plainJobEnv {} raceForJob
    claimTokens ops "j1" = ["w1"] ∧ (∀ id, (claimTokens ops id).length ≤ 1) ∧
      ∀ r ∈ s.jobs.rows, ∀ r' ∈ s.jobs.rows, r.requestKey = r'.requestKey → r = r' := by
  have hclaims : claimTokens (serveJobs plainJobEnv {} raceForJob).1 "j1" = ["w1"] := by
    decide +kernel
  have run := run_serveJobs plainJobEnv (Run.start (s := {}) rfl) raceForJob
  have h := charged_once plainJobEnv run
  generalize serveJobs plainJobEnv {} raceForJob = served at hclaims h ⊢
  obtain ⟨ops, s⟩ := served
  exact ⟨hclaims, h.2.1, h.1⟩

end AliceBot
