import AliceBot.Library.Effect
import AliceBot.Library.Json
import AliceBot.Library.Table
import AliceBot.Library.Text
import Mathlib.Data.List.Sort
import Mathlib.Data.String.Basic

/-!
# Admission of facts

The continuity store keeps a row for each fact and a log of revisions beside it
(`memory.admit_memory_candidate`). A candidate is refused, changes nothing, or writes the row of
its key in its agent profile and appends one revision that holds the candidate as it came:
`FactStore.Records` is everything that an admission can do to the two tables
(`admitMemoryCandidate_records`).

Times are instants in microseconds of UTC. A call runs in one transaction, whose start is the
time of the revision; the row of a new fact is stamped by the clock.
-/

namespace AliceBot

open PyLib

/-! ### Candidates -/

/-- `OpenLoopCandidateInput`. -/
structure OpenLoopCandidateInput where
  title : String
  dueAt : Option Int := none

/-- `MemoryCandidateInput`; the value `None` is `null`. -/
structure MemoryCandidateInput where
  memoryKey : String
  value : Json
  sourceEventIds : List String
  agentProfileId : Option String := none
  deleteRequested : Bool := false
  memoryType : Option String := none
  confidence : Option Rat := none
  salience : Option Rat := none
  confirmationStatus : Option String := none
  trustClass : Option String := none
  promotionEligibility : Option String := none
  evidenceCount : Option Int := none
  independentSourceCount : Option Int := none
  extractedByModel : Option String := none
  trustReason : Option String := none
  validFrom : Option Int := none
  validTo : Option Int := none
  lastConfirmedAt : Option Int := none
  openLoop : Option OpenLoopCandidateInput := none

/-- What an admission uses of the standard library and of the driver: `isoformat` of a time and
`fromisoformat`, which reads it, and the comparison of two values. -/
structure FactEnv where
  isoformat : Int → String
  fromisoformat : String → Option Int
  sameValue : Json → Json → Bool
  reads_isoformat : ∀ t, fromisoformat (isoformat t) = some t
  strip_isoformat : ∀ t, strip (isoformat t) = isoformat t
  /-- `isoformat` writes the offset of UTC as `+00:00`. -/
  isoformat_offset : ∀ t, (isoformat t).toList.getLast? ≠ some 'Z'

/-- The item of a value that may be missing. -/
def itemOf {α : Type} (key : String) (value : Option α) (write : α → Json) : Dict Json :=
  match value with
  | some a => [(key, write a)]
  | none => []

/-- `OpenLoopCandidateInput.as_payload`. -/
def OpenLoopCandidateInput.asPayload (env : FactEnv) (loop : OpenLoopCandidateInput) : Json :=
  .obj [("title", .str loop.title), ("due_at", .optStr (loop.dueAt.map env.isoformat))]

/-- `MemoryCandidateInput.as_payload`. What a revision keeps of the candidate it was
made of; the replay of the history reads its fields again. -/
def MemoryCandidateInput.asPayload (env : FactEnv) (c : MemoryCandidateInput) : Dict Json :=
  [("memory_key", .str c.memoryKey), ("source_event_ids", .strs c.sourceEventIds),
    ("delete_requested", .bool c.deleteRequested)]
    ++ itemOf "agent_profile_id" c.agentProfileId .str
    ++ [("value", c.value)]
    ++ itemOf "memory_type" c.memoryType .str
    ++ itemOf "confidence" c.confidence .float
    ++ itemOf "salience" c.salience .float
    ++ itemOf "confirmation_status" c.confirmationStatus .str
    ++ itemOf "trust_class" c.trustClass .str
    ++ itemOf "promotion_eligibility" c.promotionEligibility .str
    ++ itemOf "evidence_count" c.evidenceCount .int
    ++ itemOf "independent_source_count" c.independentSourceCount .int
    ++ itemOf "extracted_by_model" c.extractedByModel .str
    ++ itemOf "trust_reason" c.trustReason .str
    ++ itemOf "valid_from" c.validFrom (fun t => .str (env.isoformat t))
    ++ itemOf "valid_to" c.validTo (fun t => .str (env.isoformat t))
    ++ itemOf "last_confirmed_at" c.lastConfirmedAt (fun t => .str (env.isoformat t))
    ++ itemOf "open_loop" c.openLoop (OpenLoopCandidateInput.asPayload env)

/-- `_candidate_payload`. -/
def candidatePayload (env : FactEnv) (c : MemoryCandidateInput) (profile : String) : Dict Json :=
  (c.asPayload env).set "agent_profile_id" (.str profile)

/-! ### Tables -/

/-- The columns that a candidate may name and that keep their value where it does not. -/
structure TypedMetadata where
  memoryType : String
  confidence : Option Rat
  salience : Option Rat
  confirmationStatus : String
  trustClass : String
  promotionEligibility : String
  evidenceCount : Option Int
  independentSourceCount : Option Int
  extractedByModel : Option String
  trustReason : Option String
  validFrom : Option Int
  validTo : Option Int
  lastConfirmedAt : Option Int
deriving DecidableEq

/-- A row of `memories`. -/
structure FactRow where
  id : String
  agentProfileId : String
  memoryKey : String
  value : Json
  status : String
  sourceEventIds : List String
  typed : TypedMetadata
  createdAt : Int

/-- A row of `memory_revisions`. -/
structure FactRevision where
  id : String
  memoryId : String
  sequenceNo : Nat
  action : String
  memoryKey : String
  previousValue : Json
  newValue : Json
  sourceEventIds : List String
  candidate : Dict Json
  createdAt : Int

/-- A row of `open_loops`, as an admission opens it. -/
structure FactOpenLoop where
  id : String
  memoryId : String
  title : String
  status : String
  dueAt : Option Int

/-- The tables of one user that an admission reads or writes. -/
structure FactStore where
  /-- The thread of each event. -/
  events : Dict String
  /-- The agent profile of each thread. -/
  threads : Dict String
  agentProfiles : List String
  memories : Table FactRow.id
  revisions : List FactRevision
  openLoops : List FactOpenLoop

/-- What may be raised. -/
inductive AdmissionError where
  | validation (message : String)
  /-- A constraint of the database. -/
  | integrity
deriving DecidableEq

/-- A computation over the store that may raise. -/
abbrev Admission := EStateM AdmissionError FactStore

/-- `list_memory_revisions`. -/
def FactStore.listMemoryRevisions (s : FactStore) (memoryId : String) : List FactRevision :=
  (s.revisions.filter fun r => r.memoryId = memoryId).insertionSort
    fun a b => a.sequenceNo ≤ b.sequenceNo

/-- `next_sequence`. -/
def FactStore.nextSequence (s : FactStore) (memoryId : String) : Nat :=
  match ((s.revisions.filter fun r => r.memoryId = memoryId).map FactRevision.sequenceNo).max? with
  | some last => last + 1
  | none => 1

/-- `get_memory_by_key_and_profile`. -/
def FactStore.memoryByKeyAndProfile (s : FactStore) (memoryKey profile : String) :
    Option FactRow :=
  s.memories.rows.find? fun r => r.memoryKey = memoryKey && r.agentProfileId = profile

/-! ### Source events -/

/-- `_resolve_agent_profile_id_from_source_events`. -/
def resolveAgentProfileIdFromSourceEvents (s : FactStore) (threadIds : List String) :
    Except AdmissionError String := do
  let profiles ← (threadIds.dedup.insertionSort (· ≤ ·)).mapM fun thread =>
    match s.threads.get? thread with
    | some profile => Except.ok profile
    | none => .error (.validation ("source_event thread " ++ thread ++ " was not found"))
  match fromkeys profiles with
  | [] => .ok "assistant_default"
  | [profile] => .ok profile
  | _ => .error (.validation
      "source_event_ids must all belong to threads with the same agent_profile_id")

/-- `_validate_source_events`. A candidate must name events of the user, all of one
agent profile, from which it takes its own. -/
def validateSourceEvents (s : FactStore) (sourceEventIds : List String) :
    Except AdmissionError (List String × String) :=
  let normalized := fromkeys sourceEventIds
  let missing := normalized.filter fun id => (s.events.get? id).isNone
  if normalized = [] then
    .error (.validation
      "source_event_ids must include at least one existing event owned by the user")
  else if missing ≠ [] then
    .error (.validation ("source_event_ids must all reference existing events owned by the user: "
      ++ ", ".intercalate missing))
  else
    (resolveAgentProfileIdFromSourceEvents s (normalized.filterMap s.events.get?)).map
      fun profile => (normalized, profile)

/-- `_resolve_memory_agent_profile_id`. A profile that the candidate names must be the
one of its source events. -/
def resolveMemoryAgentProfileId (s : FactStore) (candidate : Option String) (derived : String) :
    Except AdmissionError String :=
  let resolved := candidate.getD derived
  if resolved ∉ s.agentProfiles then
    .error (.validation ("agent_profile_id must reference an existing profile: " ++ resolved))
  else if candidate.isSome ∧ candidate ≠ some derived then
    .error (.validation "agent_profile_id must match the profile resolved from source_event_ids")
  else .ok resolved

/-! ### Typed metadata -/

/-- `MEMORY_TYPES`. -/
def factTypes : List String :=
  ["preference", "identity_fact", "relationship_fact", "project_fact", "decision", "commitment",
    "routine", "constraint", "working_style"]

/-- `MEMORY_CONFIRMATION_STATUSES`. -/
def factConfirmationStatuses : List String := ["unconfirmed", "confirmed", "contested"]

/-- `MEMORY_TRUST_CLASSES`. -/
def factTrustClasses : List String :=
  ["deterministic", "llm_single_source", "llm_corroborated", "human_curated"]

/-- `MEMORY_PROMOTION_ELIGIBILITIES`. -/
def factPromotionEligibilities : List String := ["promotable", "not_promotable"]

/-- A name among the ones allowed, if there is one. -/
def validateAmong (field : String) (allowed : List String) (value : Option String) :
    Except AdmissionError (Option String) :=
  match value with
  | none => .ok none
  | some name =>
    if name ∈ allowed then .ok (some name)
    else .error (.validation (field ++ " must be one of: " ++ ", ".intercalate allowed))

/-- `_validate_memory_type`. -/
def validateMemoryType := validateAmong "memory_type" factTypes

/-- `_validate_confirmation_status`. -/
def validateConfirmationStatus := validateAmong "confirmation_status" factConfirmationStatuses

/-- `_validate_trust_class`. -/
def validateTrustClass := validateAmong "trust_class" factTrustClasses

/-- `_validate_promotion_eligibility`. -/
def validatePromotionEligibility :=
  validateAmong "promotion_eligibility" factPromotionEligibilities

/-- `_validate_score`. -/
def validateScore (name : String) (score : Option Rat) : Except AdmissionError (Option Rat) :=
  if score.any fun q => q < 0 || 1 < q then
    .error (.validation (name ++ " must be between 0.0 and 1.0"))
  else .ok score

/-- `_validate_count`. -/
def validateCount (name : String) (count : Option Int) : Except AdmissionError (Option Int) :=
  if count.any fun n => n < 0 then
    .error (.validation (name ++ " must be greater than or equal to 0"))
  else .ok count

/-- `_normalize_optional_text`. -/
def normalizeOptionalText (name : String) (text : Option String) :
    Except AdmissionError (Option String) :=
  if text.any fun t => strip (collapse t) = "" then
    .error (.validation (name ++ " must not be empty"))
  else .ok (text.map fun t => strip (collapse t))

/-- `_validate_temporal_range`. -/
def validateTemporalRange (validFrom validTo : Option Int) : Except AdmissionError Unit :=
  match validFrom, validTo with
  | some start, some stop =>
    if stop < start then
      .error (.validation "valid_to must be greater than or equal to valid_from")
    else .ok ()
  | _, _ => .ok ()

/-- `_default_promotion_eligibility_for_trust_class`. -/
def defaultPromotionEligibility (trustClass : String) : String :=
  if trustClass = "llm_single_source" then "not_promotable" else "promotable"

/-- The promotion eligibility of a row that exists. -/
def keptPromotionEligibility (named trustNamed : Option String) (trustClass stored : String) :
    Except AdmissionError String :=
  match named, trustNamed with
  | some eligibility, _ => .ok eligibility
  | none, some _ => .ok (defaultPromotionEligibility trustClass)
  | none, none =>
    (validatePromotionEligibility (some stored)).map
      (·.getD (defaultPromotionEligibility trustClass))

/-- A column that the candidate names, or else the stored name, which is validated. -/
def namedOrKept (validate : Option String → Except AdmissionError (Option String))
    (named : Option String) (stored initial : String) : Except AdmissionError String :=
  match named with
  | some name => .ok name
  | none => (validate (some stored)).map (·.getD initial)

/-- `_resolve_memory_typed_metadata`. Every field is checked before it is known whether
the fact exists, so a candidate with an invalid field is refused in both cases. -/
def resolveMemoryTypedMetadata (existing : Option TypedMetadata) (c : MemoryCandidateInput) :
    Except AdmissionError TypedMetadata := do
  let memoryType ← validateMemoryType c.memoryType
  let confirmationStatus ← validateConfirmationStatus c.confirmationStatus
  let trustClass ← validateTrustClass c.trustClass
  let promotionEligibility ← validatePromotionEligibility c.promotionEligibility
  let confidence ← validateScore "confidence" c.confidence
  let salience ← validateScore "salience" c.salience
  let evidenceCount ← validateCount "evidence_count" c.evidenceCount
  let independentSourceCount ← validateCount "independent_source_count" c.independentSourceCount
  let extractedByModel ← normalizeOptionalText "extracted_by_model" c.extractedByModel
  let trustReason ← normalizeOptionalText "trust_reason" c.trustReason
  validateTemporalRange c.validFrom c.validTo
  match existing with
  | none =>
    -- a new fact takes the defaults for what the candidate leaves out
    let trust := trustClass.getD "deterministic"
    .ok
      { memoryType := memoryType.getD "preference"
        confidence := confidence
        salience := salience
        confirmationStatus := confirmationStatus.getD "unconfirmed"
        trustClass := trust
        promotionEligibility := promotionEligibility.getD (defaultPromotionEligibility trust)
        evidenceCount := evidenceCount
        independentSourceCount := independentSourceCount
        extractedByModel := extractedByModel
        trustReason := trustReason
        validFrom := c.validFrom
        validTo := c.validTo
        lastConfirmedAt := c.lastConfirmedAt }
  | some row => do
    -- an existing fact keeps what the candidate leaves out
    let existingTrust ← validateTrustClass (some row.trustClass)
    let trust := trustClass.getD (existingTrust.getD "deterministic")
    let eligibility ←
      keptPromotionEligibility promotionEligibility trustClass trust row.promotionEligibility
    let type ← namedOrKept validateMemoryType memoryType row.memoryType "preference"
    let confirmation ←
      namedOrKept validateConfirmationStatus confirmationStatus row.confirmationStatus "unconfirmed"
    .ok
      { memoryType := type
        confidence := confidence.or row.confidence
        salience := salience.or row.salience
        confirmationStatus := confirmation
        trustClass := trust
        promotionEligibility := eligibility
        evidenceCount := evidenceCount.or row.evidenceCount
        independentSourceCount := independentSourceCount.or row.independentSourceCount
        extractedByModel := extractedByModel.or row.extractedByModel
        trustReason := trustReason.or row.trustReason
        validFrom := c.validFrom.or row.validFrom
        validTo := c.validTo.or row.validTo
        lastConfirmedAt := c.lastConfirmedAt.or row.lastConfirmedAt }

/-! ### Writing -/

/-- One call: the candidate, the start of the transaction, the clock and the identifiers that the
database draws. -/
structure AdmissionCall where
  candidate : MemoryCandidateInput
  now : Int
  clock : Int
  memoryId : String
  revisionId : String
  openLoopId : String

/-- `AdmissionDecisionOutput`. -/
structure AdmissionDecision where
  action : String
  reason : String
  memory : Option FactRow
  revision : Option FactRevision
  openLoop : Option FactOpenLoop := none

/-- What `update_memory` writes into a row. -/
def FactRow.written (value : Json) (status : String) (sourceEventIds : List String)
    (typed : TypedMetadata) : Rewrite FactRow.id where
  apply r :=
    { r with value := value, status := status, sourceEventIds := sourceEventIds, typed := typed }

section Writing

variable (env : FactEnv) (call : AdmissionCall)

/-- `create_memory`. -/
def createFact (row : FactRow) : Admission Unit := do
  let s ← get
  let memories ← orRaise (s.memories.insert? row) .integrity
  set { s with memories := memories }

/-- `update_memory`. -/
def updateFact (memoryId : String) (f : Rewrite FactRow.id) : Admission Unit :=
  modify fun s => { s with memories := s.memories.rewrite memoryId f }

/-- The revision of a row that a call appends. -/
def AdmissionCall.revision (row : FactRow) (profile action : String)
    (previousValue newValue : Json) (sequenceNo : Nat) : FactRevision where
  id := call.revisionId
  memoryId := row.id
  sequenceNo := sequenceNo
  action := action
  memoryKey := row.memoryKey
  previousValue := previousValue
  newValue := newValue
  sourceEventIds := row.sourceEventIds
  candidate := candidatePayload env call.candidate profile
  createdAt := call.now

/-- `append_memory_revision`. -/
def appendMemoryRevision (row : FactRow) (profile action : String)
    (previousValue newValue : Json) : Admission FactRevision := do
  let s ← get
  raiseIf (call.revisionId ∈ s.revisions.map FactRevision.id) .integrity
  let revision :=
    call.revision env row profile action previousValue newValue (s.nextSequence row.id)
  set { s with revisions := s.revisions ++ [revision] }
  return revision

/-- `_normalize_open_loop_title`. -/
def normalizeOpenLoopTitle (title : String) : Except AdmissionError String :=
  if strip title = "" then .error (.validation "open_loop.title must be a non-empty string")
  else if 280 < (strip title).toList.length then
    .error (.validation "open_loop.title must be 280 characters or fewer")
  else .ok (strip title)

/-- `_create_open_loop_for_memory`. The open loop that a candidate asks for is created
anew with each admission. -/
def createOpenLoopForMemory (memoryId : String) : Admission (Option FactOpenLoop) :=
  match call.candidate.openLoop with
  | none => pure none
  | some loop => do
    let title ← raising (normalizeOpenLoopTitle loop.title)
    let created : FactOpenLoop := ⟨call.openLoopId, memoryId, title, "open", loop.dueAt⟩
    modify fun s => { s with openLoops := s.openLoops ++ [created] }
    return some created

/-- A deletion that the candidate requests. -/
def admitDeletion (profile : String) (sourceEventIds : List String) (resolved : TypedMetadata)
    (existing : Option FactRow) : Admission AdmissionDecision :=
  match existing with
  | none => pure ⟨"NOOP", "memory_not_found_for_delete", none, none, none⟩
  | some row =>
    if row.status = "deleted" then
      pure ⟨"NOOP", "memory_not_found_for_delete", some row, none, none⟩
    else do
      let written := FactRow.written row.value "deleted" sourceEventIds resolved
      updateFact row.id written
      let revision ←
        appendMemoryRevision env call (written.apply row) profile "DELETE" row.value .null
      return ⟨"DELETE", "source_backed_delete", some (written.apply row), some revision, none⟩

/-- The row of a fact that is new. -/
def AdmissionCall.newRow (profile : String) (sourceEventIds : List String)
    (resolved : TypedMetadata) : FactRow where
  id := call.memoryId
  agentProfileId := profile
  memoryKey := call.candidate.memoryKey
  value := call.candidate.value
  status := "active"
  sourceEventIds := sourceEventIds
  typed := resolved
  createdAt := call.clock

/-- A value that the candidate brings. -/
def admitValue (profile : String) (sourceEventIds : List String) (resolved : TypedMetadata)
    (existing : Option FactRow) : Admission AdmissionDecision :=
  match existing with
  | none => do
    let row := call.newRow profile sourceEventIds resolved
    createFact row
    let revision ← appendMemoryRevision env call row profile "ADD" .null call.candidate.value
    let loop ← createOpenLoopForMemory call row.id
    return ⟨"ADD", "source_backed_add", some row, some revision, loop⟩
  | some row =>
    -- the same value with the same metadata is no update, but an open loop is still created
    if row.status = "active" ∧ env.sameValue row.value call.candidate.value = true ∧
        row.typed = resolved then do
      let loop ← createOpenLoopForMemory call row.id
      return ⟨"NOOP", "memory_unchanged", some row, none, loop⟩
    else do
      let written := FactRow.written call.candidate.value "active" sourceEventIds resolved
      updateFact row.id written
      let revision ← appendMemoryRevision env call (written.apply row) profile "UPDATE" row.value
        call.candidate.value
      let loop ← createOpenLoopForMemory call row.id
      return ⟨"UPDATE", "source_backed_update", some (written.apply row), some revision, loop⟩

/-- What is done with a candidate that was accepted. -/
def admitResolved (profile : String) (sourceEventIds : List String) (resolved : TypedMetadata)
    (existing : Option FactRow) : Admission AdmissionDecision :=
  if call.candidate.deleteRequested then
    admitDeletion env call profile sourceEventIds resolved existing
  else if call.candidate.value = .null then
    pure ⟨"NOOP", "candidate_value_missing", existing, none, none⟩
  else admitValue env call profile sourceEventIds resolved existing

/-- `admit_memory_candidate`. The events and the profile of the candidate are checked,
then its metadata on top of the fact under its key, and then it is admitted. -/
def admitMemoryCandidate : Admission AdmissionDecision := do
  let s ← get
  let (sourceEventIds, derived) ← raising (validateSourceEvents s call.candidate.sourceEventIds)
  let profile ← raising (resolveMemoryAgentProfileId s call.candidate.agentProfileId derived)
  let existing := s.memoryByKeyAndProfile call.candidate.memoryKey profile
  let resolved ← raising (resolveMemoryTypedMetadata (existing.map FactRow.typed) call.candidate)
  admitResolved env call profile sourceEventIds resolved existing

end Writing

/-! ### What an admission writes -/

/-- A row that was written, with the row before it if there was one, and the revision that was
appended. -/
structure FactStore.Records (env : FactEnv) (call : AdmissionCall) (s t : FactStore)
    (before : Option FactRow) (row : FactRow) (revision : FactRevision) : Prop where
  get? : ∀ id, t.memories.get? id = if row.id = id then some row else s.memories.get? id
  found : s.memories.get? row.id = before
  revisions : t.revisions = s.revisions ++ [revision]
  memoryId : revision.memoryId = row.id
  sequenceNo : revision.sequenceNo = s.nextSequence row.id
  createdAt : revision.createdAt = call.now
  sourceEventIds : revision.sourceEventIds = row.sourceEventIds
  candidate : ∃ profile, revision.candidate = candidatePayload env call.candidate profile
  typed : resolveMemoryTypedMetadata (before.map FactRow.typed) call.candidate = .ok row.typed
  kept : ∀ old ∈ before, row.memoryKey = old.memoryKey ∧ row.createdAt = old.createdAt
  /-- A deletion keeps the value of the row. -/
  value : revision.action = "DELETE" ∧ row.status = "deleted" ∧
      (∃ old ∈ before, row.value = old.value) ∨
    revision.action ≠ "DELETE" ∧ row.status = "active" ∧ row.value = revision.newValue

/-- The two tables are as they were. -/
def FactStore.Keeps (s t : FactStore) : Prop :=
  t.memories = s.memories ∧ t.revisions = s.revisions

section Effects

variable {env : FactEnv} {call : AdmissionCall} {s t : FactStore}

/-- An open loop is added beside the facts. -/
theorem createOpenLoopForMemory_keeps {memoryId : String} {loop : Option FactOpenLoop}
    (h : (createOpenLoopForMemory call memoryId).run s = .ok loop t) : s.Keeps t := by
  unfold createOpenLoopForMemory at h
  cases hloop : call.candidate.openLoop with
  | none =>
    rw [hloop] at h
    obtain ⟨-, rfl⟩ := run_pure_ok.mp h
    exact ⟨rfl, rfl⟩
  | some input =>
    rw [hloop] at h
    obtain ⟨title, u, htitle, h⟩ := run_bind_ok.mp h
    obtain ⟨-, rfl⟩ := run_raising_ok.mp htitle
    obtain ⟨_, v, hwritten, h⟩ := run_bind_ok.mp h
    obtain rfl := run_modify_ok.mp hwritten
    obtain ⟨-, rfl⟩ := run_pure_ok.mp h
    exact ⟨rfl, rfl⟩

theorem appendMemoryRevision_ok {row : FactRow} {profile action : String}
    {previousValue newValue : Json} {revision : FactRevision}
    (h : (appendMemoryRevision env call row profile action previousValue newValue).run s =
      .ok revision t) :
    revision =
        call.revision env row profile action previousValue newValue (s.nextSequence row.id) ∧
      t = { s with revisions := s.revisions ++ [revision] } := by
  obtain ⟨_, _, hget, h⟩ := run_bind_ok.mp h
  obtain ⟨rfl, rfl⟩ := run_get_ok.mp hget
  obtain ⟨_, _, hfresh, h⟩ := run_bind_ok.mp h
  obtain ⟨-, rfl⟩ := run_raiseIf_ok.mp hfresh
  obtain ⟨_, _, hset, h⟩ := run_bind_ok.mp h
  obtain rfl := run_set_ok.mp hset
  obtain ⟨rfl, rfl⟩ := run_pure_ok.mp h
  exact ⟨rfl, rfl⟩

/-- A row that is rewritten under its own identifier. -/
theorem get?_updated {row : FactRow} {f : Rewrite FactRow.id}
    (hrow : s.memories.get? row.id = some row) (id : String) :
    (s.memories.rewrite row.id f).get? id =
      if (f.apply row).id = id then some (f.apply row) else s.memories.get? id := by
  rw [f.key_apply, Table.get?_rewrite]
  split
  next hid =>
    rw [← hid, hrow]
    rfl
  next => rfl

/-- A row that was written together with the revision of the call. -/
theorem records_of_revision {before : Option FactRow} {row : FactRow} {profile action : String}
    {previousValue newValue : Json} {revision : FactRevision}
    (hget : ∀ id, t.memories.get? id = if row.id = id then some row else s.memories.get? id)
    (hfound : s.memories.get? row.id = before)
    (hrevision : revision =
      call.revision env row profile action previousValue newValue (s.nextSequence row.id))
    (hrevisions : t.revisions = s.revisions ++ [revision])
    (htyped : resolveMemoryTypedMetadata (before.map FactRow.typed) call.candidate = .ok row.typed)
    (hkept : ∀ old ∈ before, row.memoryKey = old.memoryKey ∧ row.createdAt = old.createdAt)
    (hvalue : action = "DELETE" ∧ row.status = "deleted" ∧
        (∃ old ∈ before, row.value = old.value) ∨
      action ≠ "DELETE" ∧ row.status = "active" ∧ row.value = newValue) :
    s.Records env call t before row revision := by
  subst hrevision
  exact
    { get? := hget
      found := hfound
      revisions := hrevisions
      memoryId := rfl
      sequenceNo := rfl
      createdAt := rfl
      sourceEventIds := rfl
      candidate := ⟨profile, by rw [AdmissionCall.revision]⟩
      typed := htyped
      kept := hkept
      value := hvalue }

/-- A deletion records one revision, or changes no fact where there was none to delete.
-/
theorem admitDeletion_records {profile : String} {sourceEventIds : List String}
    {resolved : TypedMetadata} {existing : Option FactRow} {decision : AdmissionDecision}
    (hfound : ∀ row ∈ existing, s.memories.get? row.id = some row)
    (htyped : resolveMemoryTypedMetadata (existing.map FactRow.typed) call.candidate = .ok resolved)
    (h : (admitDeletion env call profile sourceEventIds resolved existing).run s =
      .ok decision t) :
    s.Keeps t ∨ ∃ before row revision, s.Records env call t before row revision := by
  unfold admitDeletion at h
  cases existing with
  | none =>
    obtain ⟨-, rfl⟩ := run_pure_ok.mp h
    exact .inl ⟨rfl, rfl⟩
  | some row =>
    dsimp only at h
    split at h
    next =>
      -- a fact that is deleted already is left so
      obtain ⟨-, rfl⟩ := run_pure_ok.mp h
      exact .inl ⟨rfl, rfl⟩
    next =>
      have hrow := hfound row rfl
      obtain ⟨_, _, hwritten, h⟩ := run_bind_ok.mp h
      obtain rfl := run_modify_ok.mp hwritten
      obtain ⟨revision, _, happended, h⟩ := run_bind_ok.mp h
      obtain ⟨hrevision, rfl⟩ := appendMemoryRevision_ok happended
      obtain ⟨-, rfl⟩ := run_pure_ok.mp h
      let f := FactRow.written row.value "deleted" sourceEventIds resolved
      have hget := get?_updated (f := f) hrow
      exact .inr ⟨some row, f.apply row, revision,
        records_of_revision hget hrow hrevision rfl htyped
        (fun old hold => by cases hold; exact ⟨rfl, rfl⟩) (.inl ⟨rfl, rfl, row, rfl, rfl⟩)⟩

/-- Admitting a value keeps the facts, or records one revision of one of them. -/
theorem admitValue_records {profile : String} {sourceEventIds : List String}
    {resolved : TypedMetadata} {existing : Option FactRow} {decision : AdmissionDecision}
    (hfound : ∀ row ∈ existing, s.memories.get? row.id = some row)
    (htyped : resolveMemoryTypedMetadata (existing.map FactRow.typed) call.candidate = .ok resolved)
    (h : (admitValue env call profile sourceEventIds resolved existing).run s = .ok decision t) :
    s.Keeps t ∨ ∃ before row revision, s.Records env call t before row revision := by
  unfold admitValue at h
  cases existing with
  | none =>
    -- a new fact
    obtain ⟨_, u, hcreated, h⟩ := run_bind_ok.mp h
    obtain ⟨revision, v, happended, h⟩ := run_bind_ok.mp h
    obtain ⟨hrevision, rfl⟩ := appendMemoryRevision_ok happended
    obtain ⟨loop, w, hloop, h⟩ := run_bind_ok.mp h
    obtain ⟨hmemories, hrevisions⟩ := createOpenLoopForMemory_keeps hloop
    obtain ⟨-, rfl⟩ := run_pure_ok.mp h
    -- the row is inserted before its revision is appended
    obtain ⟨_, _, hget, hcreated⟩ := run_bind_ok.mp hcreated
    obtain ⟨rfl, rfl⟩ := run_get_ok.mp hget
    obtain ⟨memories, _, hinsert, hset⟩ := run_bind_ok.mp hcreated
    obtain ⟨hinserted, rfl⟩ := run_orRaise_ok.mp hinsert
    obtain rfl := run_set_ok.mp hset
    have hget : ∀ id, w.memories.get? id =
        if call.memoryId = id then some (call.newRow profile sourceEventIds resolved)
        else s.memories.get? id := by
      intro id
      rw [hmemories]
      exact Table.get?_insert? hinserted id
    exact .inr ⟨none, call.newRow profile sourceEventIds resolved, revision,
      records_of_revision hget (Table.insert?_eq_some_iff.mp hinserted).1 hrevision hrevisions
      htyped (fun old hold => by cases hold) (.inr ⟨by decide, rfl, rfl⟩)⟩
  | some row =>
    dsimp only at h
    split at h
    next =>
      -- the row says the same already: no revision is appended
      obtain ⟨loop, u, hloop, h⟩ := run_bind_ok.mp h
      obtain ⟨-, rfl⟩ := run_pure_ok.mp h
      exact .inl (createOpenLoopForMemory_keeps hloop)
    next =>
      have hrow := hfound row rfl
      obtain ⟨_, _, hwritten, h⟩ := run_bind_ok.mp h
      obtain rfl := run_modify_ok.mp hwritten
      obtain ⟨revision, _, happended, h⟩ := run_bind_ok.mp h
      obtain ⟨hrevision, rfl⟩ := appendMemoryRevision_ok happended
      obtain ⟨loop, w, hloop, h⟩ := run_bind_ok.mp h
      obtain ⟨hmemories, hrevisions⟩ := createOpenLoopForMemory_keeps hloop
      obtain ⟨-, rfl⟩ := run_pure_ok.mp h
      let f := FactRow.written call.candidate.value "active" sourceEventIds resolved
      have hget : ∀ id, w.memories.get? id =
          if (f.apply row).id = id then some (f.apply row) else s.memories.get? id := by
        intro id
        rw [hmemories]
        exact get?_updated hrow id
      exact .inr ⟨some row, f.apply row, revision,
        records_of_revision hget hrow hrevision hrevisions htyped
        (fun old hold => by cases hold; exact ⟨rfl, rfl⟩) (.inr ⟨by decide, rfl, rfl⟩)⟩

/-- An admission that returns records one change of one fact, or keeps both tables. -/
theorem admitMemoryCandidate_records {decision : AdmissionDecision}
    (h : (admitMemoryCandidate env call).run s = .ok decision t) :
    s.Keeps t ∨ ∃ before row revision, s.Records env call t before row revision := by
  obtain ⟨_, _, hget, h⟩ := run_bind_ok.mp h
  obtain ⟨rfl, rfl⟩ := run_get_ok.mp hget
  obtain ⟨⟨sourceEventIds, derived⟩, _, hevents, h⟩ := run_bind_ok.mp h
  obtain ⟨-, rfl⟩ := run_raising_ok.mp hevents
  obtain ⟨profile, _, hprofile, h⟩ := run_bind_ok.mp h
  obtain ⟨-, rfl⟩ := run_raising_ok.mp hprofile
  obtain ⟨resolved, _, hresolved, h⟩ := run_bind_ok.mp h
  obtain ⟨htyped, rfl⟩ := run_raising_ok.mp hresolved
  have hfound : ∀ row ∈ s.memoryByKeyAndProfile call.candidate.memoryKey profile,
      s.memories.get? row.id = some row := fun row hrow =>
    Table.get?_of_mem (List.mem_of_find?_eq_some hrow)
  unfold admitResolved at h
  -- a deletion, a candidate with the value that is there, and a new value
  split at h
  · exact admitDeletion_records hfound htyped h
  split at h
  · obtain ⟨-, rfl⟩ := run_pure_ok.mp h
    exact .inl ⟨rfl, rfl⟩
  · exact admitValue_records hfound htyped h

end Effects

end AliceBot
