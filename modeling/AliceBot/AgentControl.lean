import AliceBot.ProjectScope
import AliceBot.PromotionPolicy

/-!
# The agent policy

`vnext_agent_control.evaluate_agent_policy`: may this agent perform this
action, and on which domains, sensitivities and project scope. The function
is one long cascade. Almost every step of it has the shape

`if condition: reasons.append(reason); decision = "blocked"`

which is a `BlockRule` here. Three steps do something else: the two filters
at the top lower the decision to `allowed_with_filtering`, the key binding
(`PolicyState.bindScope`) also rewrites the effective scope, and a proposal
(`PolicyState.gateProposal`) asks for review.

No step takes a block back, so the decision is `blocked` exactly when some
rule fires (`evaluateAgentPolicyFor_blocked_iff`). The promotion layer enters
in two places only: it switches one rule off (`noAutoPromotionRule`) and it
lifts a pending review at the very end (`PolicyState.liftReview`).
-/

namespace AliceBot

open PyLib

/-! ### Vocabularies -/

/-- `POLICY_DECISIONS`. -/
inductive PolicyOutcome where
  | allowed
  | allowedWithFiltering
  | requiresReview
  | blocked
deriving DecidableEq, Repr

def restrictedDomains : List String := ["family", "health", "spiritual", "legal", "financial"]

def allSensitivity : List String :=
  ["public", "internal", "private", "confidential", "highly_sensitive", "sacred", "regulated",
    "unknown"]

def defaultAgentSensitivity : List String := ["public", "internal", "private", "unknown"]

def writeActions : List String :=
  ["source.capture", "queue_task.create", "artifact.generate", "memory.commit", "memory.confirm",
    "memory.correct", "memory.forget", "memory.undo", "memory.expire", "memory.unexpire",
    "memory.redact", "memory.accept_consolidation", "memory.propose", "memory.quarantine",
    "http.route.mutate", "open_loop.create", "open_loop.update", "artifact.review",
    "artifact.feedback", "artifact.export", "scheduler.run_now", "scheduler.run_due",
    "scheduler.pause", "scheduler.resume", "scheduler.configure"]

def proposalOnlyWriteActions : List String := ["memory.propose", "memory.commit"]

def humanOrAdminActions : List String :=
  ["artifact.review", "memory.review", "memory.redact", "memory.accept_consolidation",
    "memory.quarantine"]

/-! ### Identities, requests, decisions -/

/-- `AgentIdentity`. Who calls: the agent, its profile, the scope it is bound to and how
it was authenticated. -/
structure AgentIdentity where
  agentId : String
  agentType : String := "unknown"
  agentRunId : Option String := none
  taskId : Option String := none
  projectScope : List String := []
  permissionProfile : PermissionProfile := .readOnlyAgent
  auth : String := "unauthenticated_local"
  projectScopeLocked : Bool := false
deriving DecidableEq, Repr

/-- The arguments of `evaluate_agent_policy` beside the identity. -/
structure PolicyRequest where
  action : String
  domains : List String := []
  sensitivityAllowed : List String := defaultAgentSensitivity
  projectScope : List String := []
  workflowType : Option String := none
  writePolicy : Option String := none
  requireExplicitProjectScope : Bool := false
  promotionSettings : Option PromotionSettings := none
  promotionCandidate : Option PromotionCandidate := none
  ownerVerified : Bool := false

/-- `PolicyDecision`. What the agent policy answers: the decision, what was asked for
and what is left of it. -/
structure PolicyDecision where
  decision : PolicyOutcome
  action : String
  permissionProfile : PermissionProfile
  reasons : List String := []
  requestedDomains : List String := []
  effectiveDomains : List String := []
  requestedSensitivityAllowed : List String := defaultAgentSensitivity
  effectiveSensitivityAllowed : List String := defaultAgentSensitivity
  requestedProjectScope : List String := []
  effectiveProjectScope : List String := []
  reviewRequired : Bool := false
  traceId : String := ""
  workflowType : Option String := none
  promotion : Option PromotionDecision := none
deriving DecidableEq, Repr

/-! ### Filters -/

/-- `_profile_sensitivity`. -/
def profileSensitivity : PermissionProfile → List String
  | .readOnlyAgent => ["public", "internal", "unknown"]
  | .adminAgent => allSensitivity
  | _ => defaultAgentSensitivity

/-- `_filtered_domains`: what stays, and what was dropped. -/
def filteredDomains (profile : PermissionProfile) (domains : List String) :
    List String × List String :=
  if profile ∈ [PermissionProfile.trustedLocalAgent, .adminAgent] then (domains, [])
  else (domains.filter (· ∉ restrictedDomains), domains.filter (· ∈ restrictedDomains))

/-- `_filtered_sensitivity`: what stays, and what was dropped. Nothing left
means the profile's own list. -/
def filteredSensitivity (profile : PermissionProfile) (sensitivityAllowed : List String) :
    List String × List String :=
  let profileAllowed := profileSensitivity profile
  let requested := if sensitivityAllowed = [] then profileAllowed else sensitivityAllowed
  let allowed := requested.filter (· ∈ profileAllowed)
  (if allowed = [] then profileAllowed else allowed, requested.filter (· ∉ profileAllowed))

/-! ### The cascade -/

/-- One step `if fires: reasons.append(reason); decision = "blocked"`. -/
structure BlockRule where
  fires : Bool
  reason : String

/-- The variables the cascade assigns. -/
structure PolicyState where
  decision : PolicyOutcome := .allowed
  reasons : List String := []
  reviewRequired : Bool := false
  effectiveProjectScope : List String := []

namespace PolicyState

/-- A step that lowers the decision to `allowed_with_filtering`. -/
def filterIf (st : PolicyState) (filtered : List String) (reason : String) : PolicyState :=
  if filtered = [] then st
  else { st with reasons := st.reasons ++ [reason], decision := .allowedWithFiltering }

def block (st : PolicyState) (rule : BlockRule) : PolicyState :=
  if rule.fires then { st with reasons := st.reasons ++ [rule.reason], decision := .blocked }
  else st

def blockAll (st : PolicyState) (rules : List BlockRule) : PolicyState :=
  rules.foldl block st

end PolicyState

/-- `project_scope or identity.project_scope`. -/
def scopeOr (requested bound : List String) : List String :=
  if requested = [] then bound else requested

/-- The rules between the filters and the key binding. -/
def openingRules (identity : AgentIdentity) (req : PolicyRequest) : List BlockRule :=
  let profile := identity.permissionProfile
  let (effectiveDomains, filtered) := filteredDomains profile req.domains
  [ ⟨decide (req.domains ≠ [] ∧ effectiveDomains = [] ∧ filtered ≠ []),
      "all_requested_domains_restricted"⟩,
    ⟨decide (profile = .readOnlyAgent ∧ req.action ∈ writeActions),
      "read_only_agent_cannot_write"⟩,
    ⟨decide (profile = .memoryProposalAgent ∧ req.action ∈ writeActions ∧
        req.action ∉ proposalOnlyWriteActions),
      "memory_proposal_agent_cannot_mutate"⟩ ]

/-- `out_of_scope`: the requested entries whose identity leaves the binding. -/
def outOfScope (identity : AgentIdentity) (req : PolicyRequest) : List String :=
  req.projectScope.filter fun value =>
    ¬ projectScopeIdentity (.strs [value]) ⊆ projectScopeIdentity (.strs identity.projectScope)

/-- The key binding is violated: an entry leaves it, or an explicit scope was
asked for and none was given. -/
def bindingRule (identity : AgentIdentity) (req : PolicyRequest) : BlockRule :=
  ⟨identity.projectScopeLocked && (!(outOfScope identity req).isEmpty
      || (req.requireExplicitProjectScope && req.projectScope.isEmpty)),
    "project_scope_binding_violation"⟩

/-- Key-bound project scope: a violation also empties the effective scope. -/
def PolicyState.bindScope (st : PolicyState) (identity : AgentIdentity) (req : PolicyRequest) :
    PolicyState :=
  if (bindingRule identity req).fires then
    { st.block (bindingRule identity req) with effectiveProjectScope := [] }
  else st

/-- The profiles that may propose a memory at all. -/
def proposalRule (identity : AgentIdentity) (req : PolicyRequest) : BlockRule :=
  ⟨decide (req.action = "memory.propose" ∧ identity.permissionProfile ∉
      [PermissionProfile.projectScopedAgent, .trustedLocalAgent, .memoryProposalAgent,
        .adminAgent]),
    "memory_proposal_permission_required"⟩

/-- A permitted proposal needs review, unless the decision was moved already. -/
def PolicyState.gateProposal (st : PolicyState) (identity : AgentIdentity) (req : PolicyRequest) :
    PolicyState :=
  if req.action = "memory.propose" then
    if (proposalRule identity req).fires then st.block (proposalRule identity req)
    else { st with
      reviewRequired := true
      decision := if st.decision = .allowed then .requiresReview else st.decision }
  else st

/-- The rules between the proposal gate and the write policy. -/
def operatorRules (identity : AgentIdentity) (req : PolicyRequest) : List BlockRule :=
  let profile := identity.permissionProfile
  let trusted := profile ∈ [PermissionProfile.trustedLocalAgent, .adminAgent]
  [ ⟨decide (req.action ∈ humanOrAdminActions ∧ profile ≠ .adminAgent),
      "human_or_admin_review_required"⟩,
    ⟨decide (req.action = "http.operator.access" ∧ ¬ trusted),
      "trusted_or_admin_agent_required_for_operator_route"⟩,
    ⟨decide (req.action = "http.operator.access" ∧
        (identity.projectScopeLocked = true ∨ identity.projectScope ≠ [])),
      "unbound_operator_key_required"⟩,
    ⟨decide (req.action = "artifact.export" ∧ ¬ trusted),
      "trusted_or_admin_agent_required_for_artifact_export"⟩ ]

/-- The write-policy rule, the one rule a promotion switches off. -/
def noAutoPromotionRule (identity : AgentIdentity) (req : PolicyRequest)
    (promotionPermitsWrite : Bool) : BlockRule :=
  ⟨(match req.writePolicy with
      | some policy => policy != "" && policy != "proposal_only"
      | none => false)
    && decide (identity.permissionProfile ≠ .adminAgent) && !promotionPermitsWrite,
    "no_auto_promotion"⟩

/-- The actions a project-scoped agent may not perform without a scope. -/
def scopeRequiringActions : List String :=
  ["context_pack.request", "artifact.generate", "memory.commit", "memory.propose",
    "scheduler.run_now"]

/-- The workflows a project-scoped agent may run. -/
def projectWorkflows : List (Option String) :=
  [some "connection_report", some "contradiction_report", some "project_update_scan",
    some "memory_consolidation"]

/-- The rules after the write policy. -/
def closingRules (identity : AgentIdentity) (req : PolicyRequest) : List BlockRule :=
  let profile := identity.permissionProfile
  let projectScoped := profile = .projectScopedAgent
  let trusted := profile ∈ [PermissionProfile.trustedLocalAgent, .adminAgent]
  [ ⟨decide (projectScoped ∧ scopeOr req.projectScope identity.projectScope = [] ∧
        req.action ∈ scopeRequiringActions),
      "project_scope_required"⟩,
    ⟨decide (projectScoped ∧ req.action = "scheduler.run_now" ∧
        req.workflowType ∉ projectWorkflows),
      "project_scoped_agent_cannot_run_global_workflow"⟩,
    ⟨decide (projectScoped ∧ req.action = "scheduler.run_due"),
      "project_scoped_agent_cannot_trigger_global_scheduler"⟩,
    ⟨decide (projectScoped ∧
        req.action ∈ ["scheduler.pause", "scheduler.resume", "scheduler.configure"]),
      "project_scoped_agent_cannot_control_global_scheduler"⟩,
    ⟨decide (req.action = "scheduler.configure" ∧ profile ≠ .adminAgent),
      "admin_agent_required_for_scheduler_configuration"⟩,
    ⟨decide (req.action ∈ ["scheduler.pause", "scheduler.resume"] ∧ ¬ trusted),
      "trusted_or_admin_agent_required_for_scheduler_control"⟩,
    ⟨decide (req.action = "scheduler.run_now" ∧
        profile ∉ [PermissionProfile.projectScopedAgent, .trustedLocalAgent, .adminAgent]),
      "trusted_agent_required_for_scheduler_run"⟩,
    ⟨decide (req.action = "scheduler.run_due" ∧ ¬ trusted),
      "trusted_or_admin_agent_required_for_scheduler_due_run"⟩ ]

/-- The last step: a promotion removes the human gate in front of an outcome
already permitted. -/
def PolicyState.liftReview (st : PolicyState) (promotionPermitsWrite : Bool) : PolicyState :=
  if promotionPermitsWrite ∧ st.decision = .requiresReview then
    { st with
      reasons := st.reasons ++ ["promotion_auto_promoted"]
      decision := .allowed
      reviewRequired := false }
  else st

/-- The whole cascade. -/
def policyCascade (identity : AgentIdentity) (req : PolicyRequest) (promotionPermitsWrite : Bool) :
    PolicyState :=
  let profile := identity.permissionProfile
  let start : PolicyState :=
    { effectiveProjectScope := scopeOr req.projectScope identity.projectScope }
  let filtered := (start.filterIf (filteredDomains profile req.domains).2
      "restricted_domain_filtered").filterIf
      (filteredSensitivity profile req.sensitivityAllowed).2 "restricted_sensitivity_filtered"
  let gated := ((filtered.blockAll (openingRules identity req)).bindScope identity req).gateProposal
    identity req
  ((gated.blockAll (operatorRules identity req)).block
    (noAutoPromotionRule identity req promotionPermitsWrite)).blockAll (closingRules identity req)
  |>.liftReview promotionPermitsWrite

variable (rx : PatternEngine)

/-- The promotion decision `evaluate_agent_policy` computes for itself. The
candidate counts as agent-written whatever the caller supplied. -/
def policyPromotion (identity : AgentIdentity) (req : PolicyRequest) : Option PromotionDecision :=
  req.promotionSettings.map fun settings =>
    let candidate := req.promotionCandidate.getD
      { domain := req.domains.headD "unknown"
        sensitivity := req.sensitivityAllowed.headD "unknown" }
    evaluatePromotionFor rx settings { candidate with writtenByAgent := true }
      identity.permissionProfile (writerTrustFor (some identity.auth) req.ownerVerified)

/-- `evaluate_agent_policy` for an agent. -/
def evaluateAgentPolicyFor (identity : AgentIdentity) (req : PolicyRequest)
    (promotion : Option PromotionDecision) (traceId : String) : PolicyDecision :=
  let profile := identity.permissionProfile
  let st := policyCascade identity req (promotion.any (·.autoPromote))
  { decision := st.decision
    action := req.action
    permissionProfile := profile
    reasons := fromkeys st.reasons
    requestedDomains := req.domains
    effectiveDomains := (filteredDomains profile req.domains).1
    requestedSensitivityAllowed := req.sensitivityAllowed
    effectiveSensitivityAllowed := (filteredSensitivity profile req.sensitivityAllowed).1
    requestedProjectScope := req.projectScope
    effectiveProjectScope := st.effectiveProjectScope
    -- a decision that requires review does so in this field as well
    reviewRequired := st.reviewRequired || decide (st.decision = .requiresReview)
    traceId := traceId
    workflowType := req.workflowType
    promotion := promotion }

/-- `evaluate_agent_policy`. Without an agent identity the caller is the user
or the system, and everything is allowed. -/
def evaluateAgentPolicy (identity : Option AgentIdentity) (req : PolicyRequest)
    (traceId : String) : PolicyDecision :=
  match identity with
  | none =>
    { decision := .allowed
      action := req.action
      permissionProfile := .userOrSystem
      requestedDomains := req.domains
      effectiveDomains := req.domains
      requestedSensitivityAllowed := req.sensitivityAllowed
      effectiveSensitivityAllowed := req.sensitivityAllowed
      requestedProjectScope := req.projectScope
      effectiveProjectScope := req.projectScope
      traceId := traceId
      workflowType := req.workflowType }
  | some agent => evaluateAgentPolicyFor agent req (policyPromotion rx agent req) traceId

/-! ### What a run of block rules does -/

namespace PolicyState

variable (st : PolicyState) (rule : BlockRule) (rules : List BlockRule)

@[simp] theorem block_effectiveProjectScope :
    (st.block rule).effectiveProjectScope = st.effectiveProjectScope := by
  unfold block; split <;> rfl

@[simp] theorem block_reviewRequired : (st.block rule).reviewRequired = st.reviewRequired := by
  unfold block; split <;> rfl

theorem block_decision_eq_blocked :
    (st.block rule).decision = .blocked ↔ rule.fires = true ∨ st.decision = .blocked := by
  unfold block
  split
  · next h => simp [h]
  · next h => simp [h]

theorem block_of_not_fires (h : rule.fires = false) : st.block rule = st := by
  simp [block, h]

@[simp] theorem blockAll_nil : st.blockAll [] = st := rfl

@[simp] theorem blockAll_cons : st.blockAll (rule :: rules) = (st.block rule).blockAll rules := rfl

@[simp] theorem blockAll_effectiveProjectScope :
    (st.blockAll rules).effectiveProjectScope = st.effectiveProjectScope := by
  induction rules generalizing st with
  | nil => rfl
  | cons r rules ih => rw [blockAll_cons, ih, block_effectiveProjectScope]

theorem blockAll_decision_eq_blocked :
    (st.blockAll rules).decision = .blocked ↔
      (∃ r ∈ rules, r.fires = true) ∨ st.decision = .blocked := by
  induction rules generalizing st with
  | nil => simp
  | cons r rules ih =>
    rw [blockAll_cons, ih, block_decision_eq_blocked, List.exists_mem_cons_iff, or_assoc,
      or_left_comm]

theorem blockAll_of_not_fires (h : ∀ r ∈ rules, r.fires = false) : st.blockAll rules = st := by
  induction rules generalizing st with
  | nil => rfl
  | cons r rules ih =>
    rw [blockAll_cons, block_of_not_fires st r (h r (by simp))]
    exact ih st fun r' hr' => h r' (by simp [hr'])

theorem bindScope_decision_eq_blocked (identity : AgentIdentity) (req : PolicyRequest) :
    (st.bindScope identity req).decision = .blocked ↔
      (bindingRule identity req).fires = true ∨ st.decision = .blocked := by
  unfold bindScope
  split
  · next h => simp [h, block_decision_eq_blocked]
  · next h => simp [h]

theorem gateProposal_decision_eq_blocked (identity : AgentIdentity) (req : PolicyRequest) :
    (st.gateProposal identity req).decision = .blocked ↔
      (proposalRule identity req).fires = true ∨ st.decision = .blocked := by
  unfold gateProposal
  by_cases haction : req.action = "memory.propose"
  · rw [if_pos haction]
    by_cases hrule : (proposalRule identity req).fires = true
    · simp [hrule, block_decision_eq_blocked]
    · -- review is asked for, and only an open decision is moved
      by_cases hopen : st.decision = .allowed
      · simp [hrule, hopen]
      · simp [hrule, hopen]
  · simp [haction, proposalRule]

theorem liftReview_decision_eq_blocked (permits : Bool) :
    (st.liftReview permits).decision = .blocked ↔ st.decision = .blocked := by
  unfold liftReview
  split
  · next h => simp [h.2]
  · rfl

@[simp] theorem gateProposal_effectiveProjectScope (identity : AgentIdentity)
    (req : PolicyRequest) :
    (st.gateProposal identity req).effectiveProjectScope = st.effectiveProjectScope := by
  unfold gateProposal
  split_ifs with haction hrule
  · exact block_effectiveProjectScope _ _
  all_goals rfl

@[simp] theorem liftReview_effectiveProjectScope (permits : Bool) :
    (st.liftReview permits).effectiveProjectScope = st.effectiveProjectScope := by
  unfold liftReview; split <;> rfl

theorem bindScope_effectiveProjectScope (identity : AgentIdentity) (req : PolicyRequest) :
    (st.bindScope identity req).effectiveProjectScope =
      if (bindingRule identity req).fires then [] else st.effectiveProjectScope := by
  unfold bindScope; split <;> rfl

@[simp] theorem filterIf_effectiveProjectScope (filtered : List String) (reason : String) :
    (st.filterIf filtered reason).effectiveProjectScope = st.effectiveProjectScope := by
  unfold filterIf; split <;> rfl

theorem filterIf_decision_ne_blocked (filtered : List String) (reason : String)
    (h : st.decision ≠ .blocked) : (st.filterIf filtered reason).decision ≠ .blocked := by
  unfold filterIf
  split
  · exact h
  · simp

end PolicyState

/-- Every rule that may block, in source order, the key binding and the
write-policy rule left out. -/
def ordinaryRules (identity : AgentIdentity) (req : PolicyRequest) : List BlockRule :=
  openingRules identity req ++ [proposalRule identity req] ++ operatorRules identity req ++
    closingRules identity req

/-- **No step takes a block back.** The cascade ends in `blocked` exactly when
one of its rules fires. -/
theorem policyCascade_blocked_iff (identity : AgentIdentity) (req : PolicyRequest)
    (permits : Bool) :
    (policyCascade identity req permits).decision = .blocked ↔
      (bindingRule identity req).fires = true ∨
      (noAutoPromotionRule identity req permits).fires = true ∨
      ∃ r ∈ ordinaryRules identity req, r.fires = true := by
  have hfiltered : ∀ (scope f g : List String) (a b : String),
      ((PolicyState.filterIf { effectiveProjectScope := scope } f a).filterIf g b).decision
        ≠ .blocked := fun scope f g a b =>
    PolicyState.filterIf_decision_ne_blocked _ _ _
      (PolicyState.filterIf_decision_ne_blocked _ _ _ (by simp))
  simp only [policyCascade, PolicyState.liftReview_decision_eq_blocked,
    PolicyState.blockAll_decision_eq_blocked, PolicyState.block_decision_eq_blocked,
    PolicyState.gateProposal_decision_eq_blocked, PolicyState.bindScope_decision_eq_blocked,
    hfiltered, ordinaryRules, List.mem_append, List.mem_singleton, or_and_right, exists_or,
    exists_eq_left, false_or, or_assoc, or_left_comm, or_comm]

/-- The effective scope of the cascade: nothing after a violation of the key
binding, otherwise the requested scope or, failing that, the identity's. -/
theorem policyCascade_effectiveProjectScope (identity : AgentIdentity) (req : PolicyRequest)
    (permits : Bool) :
    (policyCascade identity req permits).effectiveProjectScope =
      if (bindingRule identity req).fires then []
      else scopeOr req.projectScope identity.projectScope := by
  simp [policyCascade, PolicyState.bindScope_effectiveProjectScope]

end AliceBot
