import AliceBot.AgentControl

/-!
# The write gate of a memory commit

`vnext_memory_commit.evaluate_memory_commit_policy`: what happens to one
commit request. Two cascades answer in turn, `authorizationGate` and, for a
request it left at `commit`, `contentGate`. The promotion layer runs last, on
the gate's own answer, and turns a pending review or confirmation into a
commit (`promoteMode`). A rejection is never touched.
-/

namespace AliceBot

open PyLib

/-! ### Vocabularies -/

/-- `MEMORY_COMMIT_WRITE_MODES`. -/
inductive WriteMode where
  | commit
  | confirmInline
  | proposeReview
  | reject
deriving DecidableEq, Repr

/-- `MEMORY_COMMIT_STATUSES`. -/
inductive CommitStatus where
  | committed
  | confirmationRequired
  | reviewRequired
  | rejected
deriving DecidableEq, Repr

/-- The status the source assigns together with each write mode. -/
def WriteMode.status : WriteMode → CommitStatus
  | .commit => .committed
  | .confirmInline => .confirmationRequired
  | .proposeReview => .reviewRequired
  | .reject => .rejected

def CommitStatus.text : CommitStatus → String
  | .committed => "committed"
  | .confirmationRequired => "confirmation_required"
  | .reviewRequired => "review_required"
  | .rejected => "rejected"

def trustedCommitProfiles : List PermissionProfile := [.trustedLocalAgent, .adminAgent]
def projectCommitProfiles : List PermissionProfile := [.projectScopedAgent]
def reviewOnlyProfiles : List PermissionProfile := [.memoryProposalAgent]

def sensitiveDomains : List String := ["family", "health", "spiritual", "legal", "financial"]
def sensitiveLevels : List String := ["confidential", "highly_sensitive", "sacred", "regulated"]

def directTrustedSources : List String :=
  ["direct_user_instruction", "trusted_agent", "local_conversation"]

def externalReviewSources : List String :=
  ["browser_clip", "browser_clipper", "csv", "docx", "email", "external", "generated_artifact",
    "gmail", "pdf", "research", "screenshot_ocr", "telegram", "telegram_forward",
    "voice_transcript", "web_page"]

def explicitMemoryIntents : List String :=
  ["explicit_remember", "remember_this", "save_this", "add_to_memory", "commit_memory"]

/-! ### Requests and decisions -/

/-- `MemoryCommitRequest`. What a caller asks to be remembered, and on what grounds. -/
structure MemoryCommitRequest where
  userId : String
  title : String
  canonicalText : String
  memoryType : String := "semantic"
  domain : String := "unknown"
  sensitivity : String := "unknown"
  confidence : Rat := 9 / 10
  intent : String := "explicit_remember"
  sourceType : String := "direct_user_instruction"
  sourceRefs : List Json := []
  conversationExcerpt : Option String := none
  rationale : Option String := none
  idempotencyKey : Option String := none
  projectScope : List String := []
  contradictionRefs : List String := []
  traceId : Option String := none

/-- `MemoryCommitPolicyDecision`. The mode a request is written in, with the reasons and
the decisions it rests on. -/
structure MemoryCommitPolicyDecision where
  writeMode : WriteMode
  status : CommitStatus
  reason : String
  reasons : List String
  requiresConfirmation : Bool
  requiresDashboardReview : Bool
  policyDecision : PolicyDecision
  promotion : Option PromotionDecision := none
  promotedFrom : Option WriteMode := none
deriving DecidableEq, Repr

/-! ### Secret markers -/

section Secrets

variable (rx : PatternEngine)

/-- `_contains_secret_marker`. -/
def containsSecretMarker (text : String) : Bool :=
  looksLikeCredential rx [text] || rx.secretPrefix (rx.casefold text)
    || (rx.secretAssignmentValues text).any rx.looksLikeSecretValue

/-- The text of a scalar item next to its key: strings, booleans and numbers
have one, containers and `None` have none. -/
def pairText (key : String) : Json → List String
  | .str s => [key ++ "=" ++ s]
  | .bool b => [key ++ "=" ++ rx.scalarText (.bool b)]
  | .int n => [key ++ "=" ++ rx.scalarText (.int n)]
  | .float q => [key ++ "=" ++ rx.scalarText (.float q)]
  | .null | .arr _ | .obj _ => []

mutual
/-- `_flatten_text`: every string reachable in a caller-supplied value, keys
included. -/
def flattenText : Json → List String
  | .str s => [s]
  | .obj fields => flattenFields fields
  | .arr items => flattenItems items
  | .null => []
  | .bool b => [rx.scalarText (.bool b)]
  | .int n => [rx.scalarText (.int n)]
  | .float q => [rx.scalarText (.float q)]

/-- The items of a sequence. -/
def flattenItems : List Json → List String
  | [] => []
  | item :: rest => flattenText item ++ flattenItems rest

/-- The items of a mapping: the key, the adjacent pair, then the value. -/
def flattenFields : List (String × Json) → List String
  | [] => []
  | (key, item) :: rest =>
    [key] ++ pairText rx key item ++ flattenText item ++ flattenFields rest
end

/-- `_request_contains_secret_marker`: title, body, excerpt, rationale and
every source reference. -/
def requestContainsSecretMarker (request : MemoryCommitRequest) : Bool :=
  let optional := fun (field : Option String) => field.toList.filter (· ≠ "")
  ([request.title, request.canonicalText] ++ optional request.conversationExcerpt
    ++ optional request.rationale ++ flattenItems rx request.sourceRefs).any
    (containsSecretMarker rx)

end Secrets

/-! ### The gate -/

variable (rx : PatternEngine)

/-- The first cascade: authorization, secrets, intent, source and profile. -/
def authorizationGate (identity : Option AgentIdentity) (request : MemoryCommitRequest)
    (base : PolicyDecision) : WriteMode × List String :=
  if base.decision = .blocked then (.reject, ["agent_policy_blocked"])
  else if requestContainsSecretMarker rx request then (.reject, ["unsafe_secret_storage"])
  else if rx.casefold request.intent ∉ explicitMemoryIntents then
    (.proposeReview, ["explicit_memory_intent_required"])
  else if rx.casefold request.sourceType ∈ externalReviewSources then
    (.proposeReview, ["external_source_requires_review"])
  else if request.sourceRefs.length > 8 then
    (.proposeReview, ["bulk_source_refs_require_review"])
  -- what is left depends on the profile of the agent; a user commits
  else match identity with
    | none => (.commit, [])
    | some agent =>
      if agent.permissionProfile ∈ reviewOnlyProfiles then
        (.proposeReview, ["memory_proposal_agent_review_only"])
      else if agent.permissionProfile ∈ projectCommitProfiles then
        if request.domain ≠ "project" then
          (.reject, ["project_scoped_agent_domain_out_of_scope"])
        else if scopeOr request.projectScope agent.projectScope = [] then
          (.reject, ["project_scope_required"])
        else if request.confidence < 1 / 2 then
          (.proposeReview, ["low_confidence_requires_review"])
        else (.commit, [])
      else if agent.permissionProfile ∉ trustedCommitProfiles then
        (.reject, ["trusted_or_project_scoped_agent_required"])
      else (.commit, [])

/-- The second cascade, for a request the first one left at `commit`:
confidence, sensitivity, contradictions and provenance. -/
def contentGate (request : MemoryCommitRequest) : WriteMode × List String :=
  if request.confidence < 1 / 2 then (.proposeReview, ["low_confidence_requires_review"])
  else if request.confidence < 17 / 20 then
    (.confirmInline, ["medium_confidence_requires_confirmation"])
  else if request.domain ∈ sensitiveDomains ∨ request.sensitivity ∈ sensitiveLevels then
    (.confirmInline, ["sensitive_memory_requires_confirmation"])
  else if request.contradictionRefs ≠ [] then
    (.confirmInline, ["contradiction_requires_confirmation"])
  else if rx.casefold request.sourceType ∉ directTrustedSources then
    (.proposeReview, ["non_direct_source_requires_review"])
  else (.commit, [])

/-- Both cascades. -/
def writeGate (identity : Option AgentIdentity) (request : MemoryCommitRequest)
    (base : PolicyDecision) : WriteMode × List String :=
  let (mode, reasons) := authorizationGate rx identity request base
  if mode = .commit then
    let (mode', reasons') := contentGate rx request
    (mode', reasons ++ reasons')
  else (mode, reasons)

/-- The reason recorded up front for a project profile outside its domain. -/
def domainNotice (identity : Option AgentIdentity) (request : MemoryCommitRequest) :
    List String :=
  match identity with
  | some agent =>
    if agent.permissionProfile ∈ projectCommitProfiles ∧ request.domain ≠ "project" then
      ["project_scoped_agent_domain_out_of_scope"]
    else []
  | none => []

/-- `promotion_candidate_for_request`. What the promotion layer sees of a request. -/
def promotionCandidateForRequest (identity : Option AgentIdentity)
    (request : MemoryCommitRequest) : PromotionCandidate :=
  { canonicalText := request.canonicalText
    title := request.title
    memoryType := request.memoryType
    domain := request.domain
    sensitivity := request.sensitivity
    intent := request.intent
    sourceType := request.sourceType
    sourceRefs := request.sourceRefs
    contradictionRefs := request.contradictionRefs
    conversationExcerpt := request.conversationExcerpt
    writtenByAgent := identity.isSome }

/-- `promotion.auto_promote and mode in {"propose_review", "confirm_inline"}`. -/
def promotionLifts (promotion : Option PromotionDecision) (mode : WriteMode) : Bool :=
  promotion.any (·.autoPromote) && decide (mode ∈ [WriteMode.proposeReview, .confirmInline])

/-- The decision assembled from the gate's answer and the promotion layer's. -/
def commitDecision (base : PolicyDecision) (gate : WriteMode × List String)
    (promotion : Option PromotionDecision) : MemoryCommitPolicyDecision :=
  let lifted := promotionLifts promotion gate.1
  -- a promotion turns a proposal into a commit, and says so in the last reason
  let mode := if lifted then .commit else gate.1
  let reasons := gate.2 ++ if lifted then ["promotion_auto_promoted"] else []
  { writeMode := mode
    status := mode.status
    reason := reasons.getLastD "explicit_trusted_memory_commit"
    reasons := fromkeys reasons
    requiresConfirmation := decide (mode = .confirmInline)
    requiresDashboardReview := decide (mode = .proposeReview)
    policyDecision := base
    promotion := promotion
    promotedFrom := if lifted then some gate.1 else none }

/-- The base decision: the one handed in, or the agent policy's own. -/
def baseDecision (identity : Option AgentIdentity) (request : MemoryCommitRequest)
    (policyDecision : Option PolicyDecision) (traceId : String) : PolicyDecision :=
  policyDecision.getD <| evaluateAgentPolicy rx identity
    { action := "memory.commit"
      domains := [request.domain]
      sensitivityAllowed := [request.sensitivity]
      projectScope := request.projectScope } traceId

/-- The gate's answer with the reasons collected around it. -/
def commitGate (identity : Option AgentIdentity) (request : MemoryCommitRequest)
    (base : PolicyDecision) : WriteMode × List String :=
  let (mode, reasons) := writeGate rx identity request base
  (mode, base.reasons ++ domainNotice identity request ++ reasons)

/-- The promotion decision of a commit, when a persona is configured. -/
def commitPromotion (identity : Option AgentIdentity) (request : MemoryCommitRequest)
    (base : PolicyDecision) (promotionSettings : Option PromotionSettings)
    (writerTrust : String) :
    Except PromotionSettingsValidationError (Option PromotionDecision) :=
  match promotionSettings with
  | none => .ok none
  | some settings =>
    (evaluatePromotion rx settings (promotionCandidateForRequest identity request)
      base.permissionProfile writerTrust).map some

/-- `evaluate_memory_commit_policy`. It raises only where `evaluate_promotion`
does. -/
def evaluateMemoryCommitPolicy (identity : Option AgentIdentity) (request : MemoryCommitRequest)
    (policyDecision : Option PolicyDecision) (promotionSettings : Option PromotionSettings)
    (writerTrust : String) (traceId : String) :
    Except PromotionSettingsValidationError MemoryCommitPolicyDecision :=
  let base := baseDecision rx identity request policyDecision traceId
  (commitPromotion rx identity request base promotionSettings writerTrust).map
    (commitDecision base (commitGate rx identity request base))

/-! ### What the promotion layer can change -/

@[simp] theorem commitGate_fst (identity : Option AgentIdentity) (request : MemoryCommitRequest)
    (base : PolicyDecision) :
    (commitGate rx identity request base).1 = (writeGate rx identity request base).1 := rfl

theorem commitDecision_writeMode (base : PolicyDecision) (gate : WriteMode × List String)
    (promotion : Option PromotionDecision) :
    (commitDecision base gate promotion).writeMode =
      if promotionLifts promotion gate.1 then .commit else gate.1 := rfl

theorem promotionLifts_iff {promotion : Option PromotionDecision} {mode : WriteMode} :
    promotionLifts promotion mode = true ↔
      promotion.any (·.autoPromote) = true ∧ (mode = .proposeReview ∨ mode = .confirmInline) := by
  simp [promotionLifts]

/-- A decision the promotion layer did not lift is the gate's own. -/
theorem commitDecision_of_not_lifts {base : PolicyDecision} {gate : WriteMode × List String}
    {promotion : Option PromotionDecision} (h : promotionLifts promotion gate.1 = false) :
    commitDecision base gate promotion =
      { commitDecision base gate none with promotion := promotion } := by
  have hnone : promotionLifts none gate.1 = false := rfl
  simp [commitDecision, h, hnone]

/-- A rejection stands, whatever the promotion layer answers. -/
theorem commitDecision_reject_iff (base : PolicyDecision) (gate : WriteMode × List String)
    (promotion : Option PromotionDecision) :
    (commitDecision base gate promotion).writeMode = .reject ↔ gate.1 = .reject := by
  rw [commitDecision_writeMode]
  split
  · next h =>
    obtain ⟨-, hmode⟩ := promotionLifts_iff.mp h
    rcases hmode with hmode | hmode <;> simp [hmode]
  · rfl

/-- The promotion layer of a commit is configured, its writer trust is a known
level, and nothing in it objects. -/
def CommitPromotionClear (identity : Option AgentIdentity) (request : MemoryCommitRequest)
    (base : PolicyDecision) (promotionSettings : Option PromotionSettings)
    (writerTrust : String) : Prop :=
  ∃ settings trust, promotionSettings = some settings ∧
    WriterTrust.ofText? writerTrust = some trust ∧
    PromotionClear rx settings (promotionCandidateForRequest identity request)
      base.permissionProfile trust

section PromotionLayer

variable {identity : Option AgentIdentity} {request : MemoryCommitRequest}
  {base : PolicyDecision} {promotionSettings : Option PromotionSettings}
  {writerTrust : String}

/-- What a promotion decision that was computed says about its layer. -/
theorem commitPromotion_ok_autoPromote {promotion : Option PromotionDecision}
    (h : commitPromotion rx identity request base promotionSettings writerTrust =
      .ok promotion) :
    promotion.any (·.autoPromote) = true ↔
      CommitPromotionClear rx identity request base promotionSettings writerTrust := by
  cases promotionSettings with
  | none =>
    cases Except.ok.inj h
    simp [CommitPromotionClear]
  | some settings =>
    cases htrust : WriterTrust.ofText? writerTrust with
    | none => simp [commitPromotion, evaluatePromotion, htrust, Except.map] at h
    | some trust =>
      simp only [commitPromotion, evaluatePromotion, htrust, Except.map, Except.ok.injEq] at h
      subst h
      simp only [Option.any_some, autoPromote_iff, CommitPromotionClear, Option.some.injEq,
        htrust, exists_eq_left', exists_and_left]

/-- A clear promotion layer computes a decision. -/
theorem CommitPromotionClear.exists_ok
    (h : CommitPromotionClear rx identity request base promotionSettings writerTrust) :
    ∃ promotion, commitPromotion rx identity request base promotionSettings writerTrust =
      .ok promotion := by
  obtain ⟨settings, trust, rfl, htrust, -⟩ := h
  exact ⟨some (evaluatePromotionFor rx settings (promotionCandidateForRequest identity request)
    base.permissionProfile trust), by simp [commitPromotion, evaluatePromotion, htrust, Except.map]⟩

end PromotionLayer

theorem evaluateMemoryCommitPolicy_ok_iff {identity : Option AgentIdentity}
    {request : MemoryCommitRequest} {policyDecision : Option PolicyDecision}
    {promotionSettings : Option PromotionSettings} {writerTrust traceId : String}
    {base : PolicyDecision} {d : MemoryCommitPolicyDecision}
    (hbase : baseDecision rx identity request policyDecision traceId = base) :
    evaluateMemoryCommitPolicy rx identity request policyDecision promotionSettings writerTrust
        traceId = .ok d ↔
      ∃ promotion, commitPromotion rx identity request base promotionSettings writerTrust =
          .ok promotion ∧
        commitDecision base (commitGate rx identity request base) promotion = d := by
  subst hbase
  cases h : commitPromotion rx identity request
      (baseDecision rx identity request policyDecision traceId) promotionSettings writerTrust with
  | error e => simp [evaluateMemoryCommitPolicy, h, Except.map]
  | ok promotion => simp [evaluateMemoryCommitPolicy, h, Except.map]

end AliceBot
