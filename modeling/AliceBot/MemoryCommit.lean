import AliceBot.MemoryStore

/-!
# Committing and confirming memories

`VNextMemoryCommitService.commit` and `.confirm`. A commit runs the write gate
and inserts one row, as a fact, as a pending confirmation or as a review
candidate; a repeated idempotency key is answered from the row it inserted. A
confirmation acts on the row whose confirmation it names, or is answered from
it when it was acted on before.

Both replays answer out of `metadata_json.agentic_memory`, the copy of the
lifecycle a commit keeps beside the row's own status.
-/

namespace AliceBot

open PyLib

/-! ### Records -/

def PolicyOutcome.text : PolicyOutcome → String
  | .allowed => "allowed"
  | .allowedWithFiltering => "allowed_with_filtering"
  | .requiresReview => "requires_review"
  | .blocked => "blocked"

def WriteMode.text : WriteMode → String
  | .commit => "commit"
  | .confirmInline => "confirm_inline"
  | .proposeReview => "propose_review"
  | .reject => "reject"

/-- `AgentIdentity.to_record`. -/
def AgentIdentity.toRecord (identity : AgentIdentity) : Dict Json :=
  [("agent_id", .str identity.agentId), ("agent_type", .str identity.agentType),
    ("agent_run_id", .optStr identity.agentRunId), ("task_id", .optStr identity.taskId),
    ("project_scope", .strs identity.projectScope),
    ("permission_profile", .str identity.permissionProfile.text), ("auth", .str identity.auth),
    ("project_scope_locked", .bool identity.projectScopeLocked)]

/-- `PromotionDecision.to_record`. The form in which a promotion is kept in the metadata
of what it let through. -/
def PromotionDecision.toRecord (promotion : PromotionDecision) : Dict Json :=
  [("persona", .str promotion.persona.text), ("tier", .str promotion.tier.text),
    ("auto_promote", .bool promotion.autoPromote),
    ("permission_profile", .str promotion.permissionProfile.text),
    ("writer_trust", .str promotion.writerTrust.text),
    ("enabled_filters", .strs (promotion.enabledFilters.map (·.text))),
    ("escalation_filters_fired", .strs (promotion.escalationFiltersFired.map (·.text))),
    ("hard_floor_rules_fired", .strs (promotion.hardFloorRulesFired.map (·.text))),
    ("reasons", .strs promotion.reasons),
    ("review_is_advisory", .bool promotion.reviewIsAdvisory)]

/-- The member a record has only with a promotion decision. -/
def promotionMember (promotion : Option PromotionDecision) : Dict Json :=
  promotion.toList.map fun p => ("promotion", .obj p.toRecord)

/-- `PolicyDecision.to_record`. The form in which a decision is kept in the metadata of
what it allowed. -/
def PolicyDecision.toRecord (decision : PolicyDecision) : Dict Json :=
  [("decision", .str decision.decision.text), ("action", .str decision.action),
    ("permission_profile", .str decision.permissionProfile.text),
    ("reasons", .strs decision.reasons), ("requested_domains", .strs decision.requestedDomains),
    ("effective_domains", .strs decision.effectiveDomains),
    ("requested_sensitivity_allowed", .strs decision.requestedSensitivityAllowed),
    ("effective_sensitivity_allowed", .strs decision.effectiveSensitivityAllowed),
    ("requested_project_scope", .strs decision.requestedProjectScope),
    ("effective_project_scope", .strs decision.effectiveProjectScope),
    ("review_required", .bool decision.reviewRequired), ("trace_id", .str decision.traceId),
    ("workflow_type", .optStr decision.workflowType)] ++ promotionMember decision.promotion

/-- `MemoryCommitPolicyDecision.to_record`. -/
def MemoryCommitPolicyDecision.toRecord (decision : MemoryCommitPolicyDecision) : Dict Json :=
  [("write_mode", .str decision.writeMode.text), ("status", .str decision.status.text),
    ("reason", .str decision.reason), ("reasons", .strs decision.reasons),
    ("requires_confirmation", .bool decision.requiresConfirmation),
    ("requires_dashboard_review", .bool decision.requiresDashboardReview),
    ("policy_decision", .obj decision.policyDecision.toRecord),
    ("trace_id", .str decision.policyDecision.traceId)] ++ promotionMember decision.promotion
    ++ decision.promotedFrom.toList.map fun mode => ("promoted_from", .str mode.text)

/-- `agent_metadata`. -/
def agentMetadata (identity : Option AgentIdentity) (decision : PolicyDecision) : Dict Json :=
  (match identity with
    | some agent => [("generated_by", .str "agent"), ("agent_id", .str agent.agentId),
        ("agent_run_id", .optStr agent.agentRunId), ("agent_identity", .obj agent.toRecord)]
    | none => [])
  ++ [("policy_decision", .obj decision.toRecord),
    ("review_required", .bool decision.reviewRequired)]

/-! ### The policy check in front of every write -/

variable (env : Env)

/-- `_upsert_identity`. The event by which the agent of a call is recorded; a user
leaves none. -/
def upsertIdentity (identity : Option AgentIdentity) : Service Unit :=
  match identity with
  | none => pure ()
  | some agent => do
    let identityId ← newId env
    appendEvent env "agent.identity_upserted" ⟨"agent", some agent.agentId⟩
      (some "agent_identity") (some identityId)

/-- `append_policy_events`. The decision about an agent is logged, and a refusal or a
narrowing by an event of its own. Users leave no event. -/
def appendPolicyEvents (identity : Option AgentIdentity) (decision : PolicyDecision)
    (targetType targetId : Option String) : Service Unit :=
  match identity with
  | none => pure ()
  | some agent => do
    appendEvent env "policy.decision" ⟨"agent", some agent.agentId⟩ targetType targetId
    match decision.decision with
    | .blocked =>
      appendEvent env "agent.policy_blocked" ⟨"agent", some agent.agentId⟩ targetType targetId
    | .allowedWithFiltering =>
      appendEvent env "agent.policy_filtered" ⟨"agent", some agent.agentId⟩ targetType targetId
    | _ => pure ()

/-- The policy request of a service-layer write on a row. -/
def MemoryRow.writeRequest (memory : MemoryRow) (action : String) : PolicyRequest :=
  { action := action
    domains := [if memory.domain = "" then "unknown" else memory.domain]
    sensitivityAllowed := [if memory.sensitivity = "" then "unknown" else memory.sensitivity]
    projectScope := memory.projectScope
    requireExplicitProjectScope := true }

/-- `_policy_checked_write`. Every write to an existing memory passes the agent policy,
on the labels and the scope of the memory itself. -/
def policyCheckedWrite (identity : Option AgentIdentity) (action : String) (memory : MemoryRow) :
    Service PolicyDecision := do
  upsertIdentity env identity
  let traceId ← newId env
  let decision := evaluateAgentPolicy env.rx identity (memory.writeRequest action) traceId
  appendPolicyEvents env identity decision (some "memory") (some memory.id)
  raiseIf (decision.decision = .blocked) (.policyBlocked decision)
  pure decision

/-! ### Shared steps -/

/-- `_normalized_text`. -/
def normalizedText (value fieldName : String) : Service String :=
  if collapse value = "" then throw (.validation (fieldName ++ " must not be empty"))
  else pure (collapse value)

/-- `text or default`. -/
def orText (text : Option String) (default : String) : String :=
  (text.filter (· ≠ "")).getD default

/-- `_require_transition`. -/
def requireTransition (operation : LifecycleOperation) (current : MemoryStatus) :
    Service MemoryStatus :=
  match resolveTransition operation current with
  | .ok target => pure target
  | .error e => throw (.validation e.message)

/-- `_utc_iso` of an instant, as it is written into JSON. -/
def isoJson (u : UtcMoment) : Json := .str (stampText false u)

/-- `{**value_payload, "text": next_text}`. -/
def valueWithText (value : Json) (text : String) : Json :=
  .obj (value.objOrEmpty.set "text" (.str text))

/-- The first `n` characters. -/
def takeText (n : Nat) (s : String) : String := String.ofList (s.toList.take n)

/-- `_refresh_memory_derived_state`: embedding, fact keys and entity links of a
row whose content changed. -/
def refreshMemoryDerivedState (memory : MemoryRow) (identity : Option AgentIdentity)
    (stage : String) (replaceEntityLinks : Bool) : Service Unit := do
  clearMemoryEmbedding memory.id
  attachMemoryEmbedding env memory
  if replaceEntityLinks then
    let events ← raising (env.expireEntityLinks memory stage)
    appendDerivedEvents env events (actorOf identity) memory.id
  appendDerivedEvents env (env.linkEntities memory stage) (actorOf identity) memory.id

/-! ### The row of a commit -/

/-- The answer of `commit` or `confirm`. -/
structure CommitAnswer where
  status : Json
  writeMode : Json
  memory : Option MemoryRow := none
  confirmationId : Option String := none
  reason : Option String := none
  policyDecision : Dict Json := []
  idempotentReplay : Bool := false

/-- `memory_commit_receipt`. -/
def memoryCommitReceipt (status : String) : String :=
  if status = "committed" then "saved as a fact."
  else if status = "confirmation_required" then "needs confirmation."
  else if status = "review_required" then "waiting in review."
  else if status = "rejected" then "rejected."
  else "not recorded as a fact."

/-- `_with_commit_receipt`: the answer with its one-line receipt. -/
def CommitAnswer.receipt (answer : CommitAnswer) : String :=
  memoryCommitReceipt (if answer.status.truthy then env.str answer.status else "")

/-- `_scope_columns`. -/
def scopeColumns (identity : Option AgentIdentity) (request : MemoryCommitRequest) :
    List String :=
  if request.projectScope ≠ [] then request.projectScope
  else (identity.map (·.projectScope)).getD []

/-- The `agentic_memory` part of `_base_metadata`. -/
def agenticMetadata (identity : Option AgentIdentity) (request : MemoryCommitRequest)
    (decision : MemoryCommitPolicyDecision) (status writeMode lifecycleStatus : String)
    (confirmation : Option (Dict Json)) : Dict Json :=
  [("kind", .str "agentic_memory_commit"), ("status", .str status),
    ("write_mode", .str writeMode), ("lifecycle_status", .str lifecycleStatus),
    ("intent", .str request.intent), ("source_type", .str request.sourceType),
    ("source_refs", .arr request.sourceRefs),
    ("conversation_excerpt", .optStr request.conversationExcerpt),
    ("rationale", .optStr request.rationale), ("idempotency_key", .optStr request.idempotencyKey),
    ("request_fingerprint", .str (env.requestFingerprint request)),
    ("project_scope", .strs request.projectScope),
    ("contradiction_refs", .strs request.contradictionRefs),
    ("policy_decision", .obj decision.toRecord),
    ("trace_id", .str (orText request.traceId decision.policyDecision.traceId)),
    ("agent_identity", (identity.map fun agent => Json.obj agent.toRecord).getD .null)]
  ++ confirmation.toList.map fun c => ("confirmation", .obj c)

/-- `_base_metadata`. -/
def baseMetadata (identity : Option AgentIdentity) (request : MemoryCommitRequest)
    (decision : MemoryCommitPolicyDecision) (status writeMode lifecycleStatus : String)
    (confirmation : Option (Dict Json)) : Dict Json :=
  [("project_scope", .strs request.projectScope),
    ("agentic_memory", .obj (agenticMetadata env identity request decision status writeMode
      lifecycleStatus confirmation))]
  ++ agentMetadata identity decision.policyDecision

/-- The columns every path of a commit writes alike. -/
def newCommitMemory (identity : Option AgentIdentity) (request : MemoryCommitRequest)
    (keySuffix : String) (value : Dict Json) (status : MemoryStatus) (confirmationStatus : String)
    (metadata : Dict Json) : NewMemory :=
  { memoryType := request.memoryType
    -- `_memory_key`
    memoryKey := "agentic_memory." ++ request.memoryType ++ "." ++ keySuffix
    value := .obj value
    status := status
    confirmationStatus := confirmationStatus
    confidence := some request.confidence
    title := some request.title
    canonicalText := request.canonicalText
    summary := some (takeText 280 request.canonicalText)
    domain := request.domain
    sensitivity := request.sensitivity
    metadataJson := metadata
    commitDigest := request.idempotencyKey
    projectScope := scopeColumns identity request
    projectId := (match scopeColumns identity request with
      | [single] => some single
      | _ => none)
    createdByAgentId := identity.map (·.agentId)
    runId := identity.bind (·.agentRunId) }

/-- The suffix of `_memory_key`. -/
def memoryKeySuffix (request : MemoryCommitRequest) : Service String :=
  match request.idempotencyKey with
  | some key => if key = "" then newId env else pure key
  | none => newId env

/-- `_idempotent_memory`. -/
def Store.idempotentMemory (s : Store) : Option String → Option MemoryRow
  | none => none
  | some key => s.byCommitDigest key

/-- `_assert_idempotent_request_matches`. A row without a fingerprint is
compared column by column. -/
def idempotentRequestMatches (memory : MemoryRow) (request : MemoryCommitRequest) : Bool :=
  let agentic := memory.agentic
  let fingerprint := (agentic.getStr? "request_fingerprint").getD ""
  if fingerprint ≠ "" then fingerprint == env.requestFingerprint request
  else
    memory.title == some request.title && memory.canonicalText == request.canonicalText
      && memory.memoryType == request.memoryType && memory.domain == request.domain
      && memory.sensitivity == request.sensitivity
      && agentic.getStr? "intent" == some request.intent
      && agentic.getStr? "source_type" == some request.sourceType
      && (match agentic.item "project_scope" with
        | .arr items => items.map Json.asStr? == request.projectScope.map some
        | _ => false)

/-- The refusal of a key that was used for another request. -/
def assertIdempotentRequestMatches (memory : MemoryRow) (request : MemoryCommitRequest) :
    Service Unit :=
  raiseIf (idempotentRequestMatches env memory request = false)
    (.validation "idempotency_key was already used for a different memory request")

/-- `_create_memory_record`: a digest taken meanwhile turns the call into a
replay. -/
def createMemoryRecord (memory : NewMemory) (identity : Option AgentIdentity)
    (request : MemoryCommitRequest) : Service MemoryRow :=
  catching (createMemory env memory (actorOf identity)) fun e =>
    match e with
    | .storeInvariant message => do
      let s ← get
      let existing ← orRaise (s.idempotentMemory request.idempotencyKey) (.storeInvariant message)
      assertIdempotentRequestMatches env existing request
      throw (.idempotentReplay existing)
    | e => throw e

/-- `_append_revision`. The first revision of a memory, which has no text before it. -/
def appendCommitRevision (memory : MemoryRow) (action revisionType reason : String)
    (identity : Option AgentIdentity) : Service Unit :=
  appendRevision
    { memoryId := memory.id
      memoryKey := memory.memoryKey
      revisionType := revisionType
      action := action
      textBefore := none
      textAfter := memory.canonicalText
      reason := reason
      actorType := (actorOf identity).type
      actorId := (actorOf identity).id }

mutual
/-- `_source_ref_values`. A mapping gives the scalars under four keys as they
are, and what is nested under three more. -/
def sourceRefValues : Json → List String
  | .str text => if strip text = "" then [] else [strip text]
  | .obj fields =>
    (["source_id", "id", "ref", "source_ref"].filterMap fun key =>
      match Dict.item fields key with
      | .str text => some text
      | .int n => some (toString n)
      | .bool b => some (if b then "True" else "False")
      | _ => none) ++
    (nestedRefValues "source_ids" fields ++ nestedRefValues "source_refs" fields ++
      nestedRefValues "sources" fields)
  | .arr items => sourceRefValuesOf items
  | _ => []

def sourceRefValuesOf : List Json → List String
  | [] => []
  | item :: rest => sourceRefValues item ++ sourceRefValuesOf rest

/-- `_source_ref_values(value.get(key))`. -/
def nestedRefValues (key : String) : List (String × Json) → List String
  | [] => []
  | (name, value) :: rest => if name = key then sourceRefValues value else nestedRefValues key rest
end

/-- `_source_uuid`. -/
def sourceUuid (sourceRef : Json) : Option String :=
  (sourceRefValues sourceRef).findSome? fun ref => env.uuidText (removePrefix ref "source:")

/-- The sources a request refers to, each once. -/
def requestSources (request : MemoryCommitRequest) : List String :=
  fromkeys (request.sourceRefs.filterMap (sourceUuid env))

/-- `_create_provenance_links`. -/
def createProvenanceLinks (memory : MemoryRow) (request : MemoryCommitRequest)
    (identity : Option AgentIdentity) : Service Unit :=
  (requestSources env request).forM (createMemoryProvenanceLink env memory (actorOf identity).type)

/-- The answer with the row that was inserted. -/
def insertedAnswer (decision : MemoryCommitPolicyDecision) (status writeMode : String)
    (memory : MemoryRow) (confirmationId : Option String) : CommitAnswer :=
  { status := .str status
    writeMode := .str writeMode
    memory := some memory
    confirmationId := confirmationId
    policyDecision := decision.toRecord }

/-- `_create_committed_memory`. The commit that needs nobody: the memory is active at
once, with its revision, its provenance and its events. -/
def createCommittedMemory (identity : Option AgentIdentity) (request : MemoryCommitRequest)
    (decision : MemoryCommitPolicyDecision) : Service CommitAnswer := do
  let now ← utcNow env
  let suffix ← memoryKeySuffix env request
  let memory ← createMemoryRecord env
    { newCommitMemory identity request suffix
        [("text", .str request.canonicalText), ("intent", .str request.intent),
          ("source_refs", .arr request.sourceRefs)]
        .active "confirmed"
        (baseMetadata env identity request decision "committed" "commit" "auto_committed" none) with
      lastConfirmedAt := some now }
    identity request
  attachMemoryEmbedding env memory
  appendCommitRevision memory "agentic_memory_commit" "created"
    (orText request.rationale "Agentic memory committed from explicit user intent.") identity
  createProvenanceLinks env memory request identity
  appendDerivedEvents env (env.linkEntities memory "commit") (actorOf identity) memory.id
  appendMemoryEvent env "agent.memory_committed" (actorOf identity) memory.id
  -- one event for each write a human would otherwise have gated
  match decision.promotion, decision.promotedFrom with
  | some promotion, some _ =>
    appendMemoryEvent env "memory.auto_promoted" (actorOf identity) memory.id
    if promotion.reviewIsAdvisory then
      appendMemoryEvent env "review.item_created" (actorOf identity) memory.id
  | _, _ => pure ()
  pure (insertedAnswer decision "committed" "commit" memory none)

/-- `now + timedelta(hours=24)`. -/
def plusOneDay (u : UtcMoment) : Option UtcMoment := u.date.next.map fun d => { u with date := d }

/-- The `confirmation` record of a pending confirmation. -/
def pendingConfirmation (identity : Option AgentIdentity) (request : MemoryCommitRequest)
    (decision : MemoryCommitPolicyDecision) (confirmationId : String)
    (now expiresAt : UtcMoment) : Dict Json :=
  [("confirmation_id", .str confirmationId), ("proposed_text", .str request.canonicalText),
    ("domain", .str request.domain), ("sensitivity", .str request.sensitivity),
    ("policy_reason", .str decision.reason), ("agent_id", .optStr (identity.map (·.agentId))),
    ("created_at", isoJson now), ("expires_at", isoJson expiresAt), ("status", .str "pending")]

/-- `_create_confirmation`. The commit that waits for the user, under an id by which it
can be confirmed within a day. -/
def createConfirmation (identity : Option AgentIdentity) (request : MemoryCommitRequest)
    (decision : MemoryCommitPolicyDecision) : Service CommitAnswer := do
  let now ← utcNow env
  let fresh ← newId env
  -- the confirmation is open for a day, which may lie beyond the calendar
  let expiresAt ← orRaise (plusOneDay now) (.python "OverflowError")
  let suffix ← memoryKeySuffix env request
  let memory ← createMemoryRecord env
    { newCommitMemory identity request suffix
        [("text", .str request.canonicalText), ("intent", .str request.intent),
          ("source_refs", .arr request.sourceRefs)]
        .needsReview "unconfirmed"
        (baseMetadata env identity request decision "confirmation_required" "confirm_inline"
          "pending_inline_confirmation"
          (some (pendingConfirmation identity request decision ("confirm-" ++ fresh) now
            expiresAt))) with
      confirmationId := some ("confirm-" ++ fresh) }
    identity request
  attachMemoryEmbedding env memory
  appendCommitRevision memory "agentic_memory_confirmation_required" "created" decision.reason
    identity
  appendMemoryEvent env "agent.memory_confirmation_required" (actorOf identity) memory.id
  pure (insertedAnswer decision "confirmation_required" "confirm_inline" memory
    (some ("confirm-" ++ fresh)))

/-- The metadata of a review candidate. -/
def reviewMetadata (identity : Option AgentIdentity) (request : MemoryCommitRequest)
    (decision : MemoryCommitPolicyDecision) (proposalId : String) : Dict Json :=
  (((baseMetadata env identity request decision "review_required" "propose_review"
      "pending_dashboard_review" none).set "proposal_id" (.str proposalId)).set
    "proposal_type" (.str "agentic_memory_commit")).set "review_required" (.bool true)

/-- `_create_review_candidate`. The commit that goes to the dashboard: a candidate, with
an event for the review queue. -/
def createReviewCandidate (identity : Option AgentIdentity) (request : MemoryCommitRequest)
    (decision : MemoryCommitPolicyDecision) : Service CommitAnswer := do
  let fresh ← newId env
  let suffix ← memoryKeySuffix env request
  let memory ← createMemoryRecord env
    (newCommitMemory identity request suffix
      [("proposal_type", .str "agentic_memory_commit"), ("text", .str request.canonicalText),
        ("source_refs", .arr request.sourceRefs), ("rationale", .optStr request.rationale)]
      .candidate "unconfirmed"
      (reviewMetadata env identity request decision ("agentic-" ++ fresh)))
    identity request
  attachMemoryEmbedding env memory
  appendCommitRevision memory "agentic_memory_review_required" "created" decision.reason identity
  appendMemoryEvent env "agent.memory_review_required" (actorOf identity) memory.id
  appendMemoryEvent env "review.item_created" (actorOf identity) memory.id
  pure (insertedAnswer decision "review_required" "propose_review" memory none)

/-! ### Commit -/

/-- `value or default` on JSON. -/
def orDefault (value : Json) (default : String) : Json :=
  if value.truthy then value else .str default

/-- `_idempotent_replay`. The answer is read from the metadata. -/
def idempotentReplay (memory : MemoryRow) (request : MemoryCommitRequest)
    (identity : Option AgentIdentity) : Service CommitAnswer := do
  let _ ← policyCheckedWrite env identity "memory.commit" memory
  assertIdempotentRequestMatches env memory request
  pure
    { status := orDefault (memory.agentic.item "status") "committed"
      writeMode := orDefault (memory.agentic.item "write_mode") "commit"
      memory := some memory
      policyDecision := memory.agentic.getObj "policy_decision"
      idempotentReplay := true }

/-- `evaluate_policy`. The agent policy is evaluated and logged first, then the commit
policy on top of it. -/
def evaluatePolicy (identity : Option AgentIdentity) (request : MemoryCommitRequest) :
    Service MemoryCommitPolicyDecision := do
  upsertIdentity env identity
  let traceId ← newId env
  let base := evaluateAgentPolicy env.rx identity
    { action := "memory.commit"
      domains := [request.domain]
      sensitivityAllowed := [request.sensitivity]
      projectScope := request.projectScope } traceId
  appendPolicyEvents env identity base none none
  -- without promotion settings the writer counts as unverified
  let writerTrust := if env.promotionSettings.isSome then
      (writerTrustFor (identity.map (·.auth)) env.ownerVerified).text
    else "unverified"
  match evaluateMemoryCommitPolicy env.rx identity request (some base) env.promotionSettings
      writerTrust traceId with
  | .ok decision => pure decision
  | .error e => throw (.promotionSettings e)

/-- The answer to a rejected commit. -/
def rejectedAnswer (decision : MemoryCommitPolicyDecision) : CommitAnswer :=
  { status := .str "rejected"
    writeMode := .str "reject"
    reason := some decision.reason
    policyDecision := decision.toRecord }

/-- The insertion the write mode asks for. -/
def createByMode (identity : Option AgentIdentity) (request : MemoryCommitRequest)
    (decision : MemoryCommitPolicyDecision) : Service CommitAnswer :=
  match decision.writeMode with
  | .confirmInline => createConfirmation env identity request decision
  | .proposeReview => createReviewCandidate env identity request decision
  | _ => createCommittedMemory env identity request decision

/-- `commit`. A request whose key is known is replayed; any other is decided by the
policy, and written in the mode it allows. -/
def commit (identity : Option AgentIdentity) (request : MemoryCommitRequest) :
    Service CommitAnswer := do
  let s ← get
  match s.idempotentMemory request.idempotencyKey with
  | some existing => idempotentReplay env existing request identity
  | none =>
    let decision ← evaluatePolicy env identity request
    if decision.writeMode = .reject then
      appendEvent env "agent.memory_commit_rejected" (actorOf identity) (some "memory") none
      pure (rejectedAnswer decision)
    else
      -- a key taken in the meantime is found by the insert, and answered as a replay
      catching (createByMode env identity request decision) fun e =>
        match e with
        | .idempotentReplay memory => idempotentReplay env memory request identity
        | e => throw e

/-! ### Confirm -/

/-- The confirmation record of a row. -/
def confirmationOf (memory : MemoryRow) : Dict Json := memory.agentic.getObj "confirmation"

/-- `metadata` with its `agentic_memory` replaced. -/
def withAgentic (memory : MemoryRow) (agentic : Dict Json) : Dict Json :=
  memory.metadataJson.set "agentic_memory" (.obj agentic)

/-- `_refresh_last_confirmed`. The row is stamped as confirmed and reviewed now, and its
text stays as it is. -/
def refreshLastConfirmed (identity : Option AgentIdentity) (memory : MemoryRow)
    (action reason : String) : Service MemoryRow := do
  let now ← utcNow env
  let updated ← updateMemory env memory.id
    { lastConfirmedAt := some now, lastReviewedAt := some now } (actorOf identity)
  reviseMemory memory updated "edited" action updated.canonicalText reason (actorOf identity)
  pure updated

/-- The answer of a confirmation. -/
def confirmationAnswer (status confirmationId : String) (memory : MemoryRow)
    (reason : Option String) (replay : Bool) : CommitAnswer :=
  { status := .str status
    writeMode := .str "confirm_inline"
    memory := some memory
    confirmationId := some confirmationId
    reason := reason
    idempotentReplay := replay }

/-- `_replay_confirmation`, and the refusal where it has no answer. -/
def replayConfirmation (identity : Option AgentIdentity) (memory : MemoryRow)
    (confirmationId action : String) : Service CommitAnswer :=
  let status := (confirmationOf memory).getStr? "status"
  if status = some "confirmed" ∧ action = "confirm" then do
    let refreshed ← refreshLastConfirmed env identity memory "agentic_memory_reconfirm"
      "Repeated inline confirmation replayed; last_confirmed_at refreshed."
    pure (confirmationAnswer "committed" confirmationId refreshed none true)
  else if (status = some "rejected" ∨ status = some "expired") ∧ action = "reject" then
    pure (confirmationAnswer "rejected" confirmationId memory none true)
  else throw (.validation "confirmation is not pending")

/-- Whether the confirmation's `expires_at` lies before now. -/
def confirmationExpired (memory : MemoryRow) : Service Bool :=
  match (confirmationOf memory).getStr? "expires_at" with
  | none => pure false
  | some raw =>
    match env.fromisoformat (replaceAll raw "Z" "+00:00") with
    | none => throw (.python "ValueError")
    | some (.naive _ _) => throw (.python "TypeError")
    | some (.aware expiresAt) => do
      let now ← utcNow env
      pure (decide (expiresAt.instant < now.instant))

/-- The expiry branch of `confirm`. -/
def expireConfirmation (identity : Option AgentIdentity) (memory : MemoryRow)
    (confirmationId : String) : Service CommitAnswer := do
  let _ ← requireTransition .confirmExpire memory.status
  let now ← utcNow env
  let confirmation := ((confirmationOf memory).set "status" (.str "expired")).set "expired_at"
    (isoJson now)
  let agentic := ((memory.agentic.set "confirmation" (.obj confirmation)).set "status"
    (.str "rejected")).set "lifecycle_status" (.str "confirmation_expired")
  -- a late answer rejects the memory, whatever it says
  let updated ← updateMemory env memory.id
    { status := some .rejected, lastReviewedAt := some now
      metadataJson := some (withAgentic memory agentic) } (actorOf identity)
  reviseMemory memory updated "rejected" "agentic_memory_confirmation_expired"
    updated.canonicalText "Inline memory confirmation expired before it was acted on."
    (actorOf identity)
  appendMemoryEvent env "agent.memory_confirmation_expired" (actorOf identity) updated.id
  pure (confirmationAnswer "rejected" confirmationId updated (some "confirmation_expired") false)

/-- The `agentic_memory` part after a decision on a confirmation. -/
def decidedAgentic (memory : MemoryRow) (accepted : Bool) (now : UtcMoment)
    (rationale : Option String) : Dict Json :=
  let confirmation := (confirmationOf memory).set "status"
    (.str (if accepted then "confirmed" else "rejected"))
  let agentic := (((memory.agentic.set "confirmation" (.obj confirmation)).set "status"
    (.str (if accepted then "committed" else "rejected"))).set "lifecycle_status"
      (.str (if accepted then "inline_confirmed" else "confirmation_rejected"))).set
        "confirmed_at" (if accepted then isoJson now else .null)
  match rationale with
  | some text => agentic.set "confirmation_rationale" (.str text)
  | none => agentic

/-- The patch of a rejection. -/
def rejectConfirmationPatch (memory : MemoryRow) (now : UtcMoment) (rationale : Option String) :
    MemoryPatch :=
  { status := some .rejected
    metadataJson := some (withAgentic memory (decidedAgentic memory false now rationale))
    lastReviewedAt := some now }

/-- The patch of an acceptance. -/
def acceptConfirmationPatch (memory : MemoryRow) (action nextText : String) (now : UtcMoment)
    (rationale : Option String) : MemoryPatch :=
  { status := some .active
    metadataJson := some (withAgentic memory (decidedAgentic memory true now rationale))
    lastReviewedAt := some now
    canonicalText := some nextText
    summary := some (takeText 280 nextText)
    value := some (valueWithText memory.value nextText)
    confirmationStatus := some "confirmed"
    lastConfirmedAt := some now
    title := if action = "edit" then some (takeText 120 nextText) else none }

/-- The text a confirmation leaves. -/
def confirmedText (memory : MemoryRow) : Option String → Service String
  | some text => normalizedText text "canonical_text"
  | none => pure memory.canonicalText

/-- The decision branch of `confirm`. -/
def decideConfirmation (identity : Option AgentIdentity) (memory : MemoryRow)
    (confirmationId action : String) (canonicalText rationale : Option String) :
    Service CommitAnswer := do
  let _ ← requireTransition (if action = "reject" then .confirmReject else .confirmAccept)
    memory.status
  let nextText ← confirmedText memory canonicalText
  let now ← utcNow env
  -- a rejection keeps the text; an edit takes the one given
  if action = "reject" then
    let updated ← updateMemory env memory.id (rejectConfirmationPatch memory now rationale)
      (actorOf identity)
    reviseMemory memory updated "rejected" ("agentic_memory_confirm_" ++ action) nextText
      (orText rationale ("Inline memory confirmation " ++ action ++ ".")) (actorOf identity)
    appendMemoryEvent env "agent.memory_confirmation_rejected" (actorOf identity) updated.id
    pure (confirmationAnswer "rejected" confirmationId updated none false)
  else
    let updated ← updateMemory env memory.id
      (acceptConfirmationPatch memory action nextText now rationale) (actorOf identity)
    refreshMemoryDerivedState env updated identity "inline_confirmation_accepted"
      (action == "edit")
    reviseMemory memory updated (if action = "edit" then "corrected" else "promoted")
      ("agentic_memory_confirm_" ++ action) nextText
      (orText rationale ("Inline memory confirmation " ++ action ++ ".")) (actorOf identity)
    appendMemoryEvent env "agent.memory_confirmed" (actorOf identity) updated.id
    pure (confirmationAnswer "committed" confirmationId updated none false)

/-- `confirm`. The answer of the user to a pending confirmation. An answered one is
replayed, and one that is too late is rejected. -/
def confirm (identity : Option AgentIdentity) (confirmationId : String)
    (action : String := "confirm") (canonicalText rationale : Option String := none) :
    Service CommitAnswer := do
  let normalized := env.rx.casefold (strip action)
  raiseIf (normalized ∉ ["confirm", "reject", "edit"])
    (.validation "confirmation action must be confirm, reject, or edit")
  let s ← get
  let found ← orRaise (s.byConfirmationId confirmationId)
    (.validation "confirmation was not found")
  let memory ← orRaise (s.getMemory found.id) (.validation "confirmation was not found")
  let _ ← policyCheckedWrite env identity "memory.confirm" memory
  -- one that was answered before is replayed
  if (confirmationOf memory).getStr? "status" ≠ some "pending" then
    replayConfirmation env identity memory confirmationId normalized
  else do
    let expired ← confirmationExpired env memory
    if expired then expireConfirmation env identity memory confirmationId
    else decideConfirmation env identity memory confirmationId normalized canonicalText rationale

end AliceBot
