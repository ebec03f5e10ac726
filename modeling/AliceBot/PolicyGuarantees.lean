import AliceBot.CommitPolicy

/-!
# What the write policies guarantee

Three questions about the two policy functions, each answered over every
identity, request and setting.

**Does a project-bound key stay inside its binding?** The binding check
compares identities entry by entry, and a blank entry has no identity to leave
the binding with. `bindingHonoured_iff` is the exact answer: the only escape
is a non-empty list of blank entries that no other rule happens to block.

**Does a project-scoped agent stay inside its domain?** The domain rejection
is the last arm of a cascade whose earlier arms only ask for review, and a
promotion lifts what those arms answered. `domainReviewed_iff` says when.

**Does a promotion setting widen anything else?** It does not
(`promotion_never_widens`). Two runs, one with settings and one without,
agree on every boundary, and where they differ at all every layer of the
promotion policy is clear.
-/

namespace AliceBot

open PyLib

variable (rx : PatternEngine)

/-! ### The key binding -/

/-- What a key binding promises about a decision: unless it is `blocked`, the
effective scope names something, names only what the binding names, and an
explicit scope was really given where one was required. -/
def BindingHonoured (identity : AgentIdentity) (req : PolicyRequest) (d : PolicyDecision) : Prop :=
  d.decision ≠ .blocked →
    projectScopeIdentity (.strs d.effectiveProjectScope) ≠ [] ∧
    projectScopeIdentity (.strs d.effectiveProjectScope) ⊆
      projectScopeIdentity (.strs identity.projectScope) ∧
    (req.requireExplicitProjectScope = true →
      projectScopeIdentity (.strs req.projectScope) ≠ [])

/-- Whether the promotion layer permits this write, read off its conditions
rather than off the decision it records. -/
def PromotionPermits (identity : AgentIdentity) (req : PolicyRequest) : Prop :=
  ∃ settings, req.promotionSettings = some settings ∧
    PromotionClear rx settings
      { (req.promotionCandidate.getD
          { domain := req.domains.headD "unknown"
            sensitivity := req.sensitivityAllowed.headD "unknown" }) with writtenByAgent := true }
      identity.permissionProfile (writerTrustFor (some identity.auth) req.ownerVerified)

theorem policyPromotion_permits_iff (identity : AgentIdentity) (req : PolicyRequest) :
    (policyPromotion rx identity req).any (·.autoPromote) = true ↔
      PromotionPermits rx identity req := by
  cases hsettings : req.promotionSettings with
  | none => simp [policyPromotion, PromotionPermits, hsettings]
  | some settings =>
    simp only [policyPromotion, hsettings, Option.map_some, Option.any_some, PromotionPermits,
      Option.some.injEq, exists_eq_left']
    exact autoPromote_iff rx

/-- A rule of the cascade other than the key binding blocks this request. -/
def BlockedOtherwise (identity : AgentIdentity) (req : PolicyRequest) : Prop :=
  (∃ r ∈ ordinaryRules identity req, r.fires = true) ∨
    ((noAutoPromotionRule identity req false).fires = true ∧ ¬ PromotionPermits rx identity req)

theorem noAutoPromotionRule_fires_iff (identity : AgentIdentity) (req : PolicyRequest)
    (permits : Bool) :
    (noAutoPromotionRule identity req permits).fires = true ↔
      (noAutoPromotionRule identity req false).fires = true ∧ permits = false := by
  simp [noAutoPromotionRule]

/-- `blocked`, in terms of the arguments alone. -/
theorem evaluateAgentPolicy_blocked_iff (identity : AgentIdentity) (req : PolicyRequest)
    (traceId : String) :
    (evaluateAgentPolicy rx (some identity) req traceId).decision = .blocked ↔
      (bindingRule identity req).fires = true ∨ BlockedOtherwise rx identity req := by
  change (policyCascade identity req _).decision = .blocked ↔ _
  rw [policyCascade_blocked_iff, noAutoPromotionRule_fires_iff, BlockedOtherwise,
    ← policyPromotion_permits_iff, Bool.not_eq_true, or_comm (a := _ ∧ _)]

theorem evaluateAgentPolicy_effectiveProjectScope (identity : AgentIdentity)
    (req : PolicyRequest) (traceId : String) :
    (evaluateAgentPolicy rx (some identity) req traceId).effectiveProjectScope =
      if (bindingRule identity req).fires then []
      else scopeOr req.projectScope identity.projectScope :=
  policyCascade_effectiveProjectScope identity req _

/-- The binding rule on a locked key, entry by entry. -/
theorem bindingRule_fires_iff {identity : AgentIdentity} {req : PolicyRequest}
    (hlocked : identity.projectScopeLocked = true) :
    (bindingRule identity req).fires = true ↔
      ¬ projectScopeIdentity (.strs req.projectScope) ⊆
          projectScopeIdentity (.strs identity.projectScope) ∨
        (req.requireExplicitProjectScope = true ∧ req.projectScope = []) := by
  -- a request is out of scope if one of its projects is
  have hsub : outOfScope identity req = [] ↔
      projectScopeIdentity (.strs req.projectScope) ⊆
        projectScopeIdentity (.strs identity.projectScope) := by
    simp only [outOfScope, List.filter_eq_nil_iff, decide_eq_true_eq, not_not]
    constructor
    · intro h x hx
      obtain ⟨v, hv, hxv⟩ := mem_projectScopeIdentity_arr.mp hx
      obtain ⟨value, hvalue, rfl⟩ := List.mem_map.mp hv
      exact h value hvalue (mem_projectScopeIdentity_singleton.mpr hxv)
    · intro h value hvalue x hx
      refine h (mem_projectScopeIdentity_arr.mpr ⟨.str value, ?_, ?_⟩)
      · exact List.mem_map_of_mem hvalue
      · exact mem_projectScopeIdentity_singleton.mp hx
  simp only [bindingRule, hlocked, Bool.true_and, Bool.or_eq_true, Bool.not_eq_true',
    List.isEmpty_eq_false_iff, Bool.and_eq_true, List.isEmpty_iff]
  rw [ne_eq, hsub]

/-- **The key binding, exactly.** A locked key with a binding that names
something is honoured unless the requested scope is a non-empty list of blank
entries and nothing else blocks the request. -/
theorem bindingHonoured_iff (identity : AgentIdentity) (req : PolicyRequest) (traceId : String)
    (hlocked : identity.projectScopeLocked = true)
    (hbound : projectScopeIdentity (.strs identity.projectScope) ≠ []) :
    BindingHonoured identity req (evaluateAgentPolicy rx (some identity) req traceId) ↔
      req.projectScope = [] ∨ projectScopeIdentity (.strs req.projectScope) ≠ [] ∨
        BlockedOtherwise rx identity req := by
  unfold BindingHonoured
  rw [ne_eq, evaluateAgentPolicy_blocked_iff, evaluateAgentPolicy_effectiveProjectScope]
  by_cases hother : BlockedOtherwise rx identity req
  · simp [hother]
  by_cases hbinding : (bindingRule identity req).fires = true
  · -- the binding rule fired, so the scope named something outside the
    -- binding, or no scope was given at all
    simp only [hbinding, not_true_eq_false, false_implies, hother, or_false, true_iff]
    rcases (bindingRule_fires_iff hlocked).mp hbinding with hleaves | ⟨-, hnone⟩
    · right
      intro hblank
      exact hleaves (by simp [hblank])
    · exact Or.inl hnone
  · obtain ⟨hinside, hgiven⟩ := not_or.mp (mt (bindingRule_fires_iff hlocked).mpr hbinding)
    rw [not_not] at hinside
    simp only [hbinding, hother, or_self, not_false_eq_true, true_implies, or_false,
      Bool.false_eq_true, if_false]
    by_cases hempty : req.projectScope = []
    · have hnotRequired : req.requireExplicitProjectScope ≠ true := fun h => hgiven ⟨h, hempty⟩
      simp [scopeOr, hempty, hbound, hnotRequired]
    · simp only [scopeOr, hempty, if_false, false_or]
      constructor
      · exact fun h => h.1
      · exact fun h => ⟨h, hinside, fun _ => h⟩

/-- A key bound to project `p`. -/
def boundKey : AgentIdentity :=
  { agentId := "openclaw"
    agentType := "coding_agent"
    projectScope := ["p"]
    permissionProfile := .trustedLocalAgent
    auth := agentKeyAuth
    projectScopeLocked := true }

theorem bindingHonoured_iff_boundKey :
    BindingHonoured boundKey { action := "memory.recall", projectScope := ["P "] }
        (evaluateAgentPolicy .plain (some boundKey)
          { action := "memory.recall", projectScope := ["P "] } "policy-1") ↔
      ["P "] = [] ∨ projectScopeIdentity (.strs ["P "]) ≠ [] ∨
        BlockedOtherwise .plain boundKey { action := "memory.recall", projectScope := ["P "] } :=
  bindingHonoured_iff .plain boundKey { action := "memory.recall", projectScope := ["P "] }
    "policy-1" rfl (by decide)

/-- The escape: a recall whose explicit scope is one run of spaces is allowed
with a scope that names nothing. -/
theorem blank_scope_escapes_binding :
    boundKey.projectScopeLocked = true ∧
    projectScopeIdentity (.strs boundKey.projectScope) ≠ [] ∧
    ¬ BindingHonoured boundKey { action := "memory.recall", projectScope := ["  "] }
      (evaluateAgentPolicy .plain (some boundKey)
        { action := "memory.recall", projectScope := ["  "] } "policy-1") := by
  refine ⟨rfl, by decide, fun h => ?_⟩
  have hnames := (h (by decide)).1
  exact hnames (by decide)

/-! ### The project domain -/

/-- The request was only asked to be reviewed, by an arm of the gate that
stands before the domain rejection. -/
def ReviewedBeforeDomain (request : MemoryCommitRequest) (base : PolicyDecision) : Prop :=
  base.decision ≠ .blocked ∧ requestContainsSecretMarker rx request = false ∧
    (rx.casefold request.intent ∉ explicitMemoryIntents ∨
      rx.casefold request.sourceType ∈ externalReviewSources ∨
      request.sourceRefs.length > 8)

/-- For a project profile outside its domain the gate only ever rejects or
asks for review, and it asks for review on the early arms. -/
theorem writeGate_outside_domain {agent : AgentIdentity} {request : MemoryCommitRequest}
    (base : PolicyDecision) (hprofile : agent.permissionProfile ∈ projectCommitProfiles)
    (hdomain : request.domain ≠ "project") :
    (ReviewedBeforeDomain rx request base ∧
      (writeGate rx (some agent) request base).1 = .proposeReview) ∨
    (¬ ReviewedBeforeDomain rx request base ∧
      (writeGate rx (some agent) request base).1 = .reject) := by
  have hreviewOnly : agent.permissionProfile ∉ reviewOnlyProfiles := by
    simp only [projectCommitProfiles, List.mem_singleton] at hprofile
    simp [hprofile, reviewOnlyProfiles]
  by_cases hblocked : base.decision = .blocked
  · exact .inr ⟨fun h => h.1 hblocked, by simp [writeGate, authorizationGate, hblocked]⟩
  by_cases hsecret : requestContainsSecretMarker rx request = true
  · exact .inr ⟨fun h => absurd h.2.1 (by simp [hsecret]), by
      simp [writeGate, authorizationGate, hblocked, hsecret]⟩
  have hsecret' : requestContainsSecretMarker rx request = false := by simpa using hsecret
  by_cases hintent : rx.casefold request.intent ∉ explicitMemoryIntents
  · exact .inl ⟨⟨hblocked, hsecret', .inl hintent⟩, by
      simp [writeGate, authorizationGate, hblocked, hsecret', hintent]⟩
  by_cases hexternal : rx.casefold request.sourceType ∈ externalReviewSources
  · exact .inl ⟨⟨hblocked, hsecret', .inr (.inl hexternal)⟩, by
      simp [writeGate, authorizationGate, hblocked, hsecret', hintent, hexternal]⟩
  by_cases hbulk : request.sourceRefs.length > 8
  · exact .inl ⟨⟨hblocked, hsecret', .inr (.inr hbulk)⟩, by
      simp [writeGate, authorizationGate, hblocked, hsecret', hintent, hexternal, hbulk]⟩
  · -- the domain arm is reached
    refine .inr ⟨fun h => ?_, ?_⟩
    · rcases h.2.2 with h | h | h
      · exact hintent h
      · exact hexternal h
      · exact hbulk h
    · simp [writeGate, authorizationGate, hblocked, hsecret', hintent, hexternal, hbulk,
        hreviewOnly, hprofile, hdomain]

/-- **The project domain, exactly.** A project-scoped agent that writes
outside its domain is rejected or sent to review, unless the gate answered on
one of its early arms and the promotion layer is clear. -/
theorem domainReviewed_iff (agent : AgentIdentity) (request : MemoryCommitRequest)
    (policyDecision : Option PolicyDecision) (promotionSettings : Option PromotionSettings)
    (writerTrust traceId : String) (hprofile : agent.permissionProfile ∈ projectCommitProfiles)
    (hdomain : request.domain ≠ "project") :
    (∀ d, evaluateMemoryCommitPolicy rx (some agent) request policyDecision promotionSettings
        writerTrust traceId = .ok d → d.writeMode ≠ .commit ∧ d.writeMode ≠ .confirmInline) ↔
      ¬ (ReviewedBeforeDomain rx request
            (baseDecision rx (some agent) request policyDecision traceId) ∧
          CommitPromotionClear rx (some agent) request
            (baseDecision rx (some agent) request policyDecision traceId) promotionSettings
            writerTrust) := by
  generalize hbase : baseDecision rx (some agent) request policyDecision traceId = base
  have hgate := writeGate_outside_domain rx base hprofile hdomain
  constructor
  · rintro h ⟨hreviewed, hclear⟩
    -- the gate proposed a review and the clear promotion layer lifts it
    obtain ⟨-, hmode⟩ | ⟨hnot, -⟩ := hgate
    · obtain ⟨promotion, hpromotion⟩ := hclear.exists_ok
      have hrun := (evaluateMemoryCommitPolicy_ok_iff rx hbase).mpr ⟨promotion, hpromotion, rfl⟩
      refine (h _ hrun).1 ?_
      rw [commitDecision_writeMode, if_pos]
      exact promotionLifts_iff.mpr
        ⟨(commitPromotion_ok_autoPromote rx hpromotion).mpr hclear, .inl hmode⟩
    · exact absurd hreviewed hnot
  · intro h d hd
    obtain ⟨promotion, hpromotion, rfl⟩ := (evaluateMemoryCommitPolicy_ok_iff rx hbase).mp hd
    rw [commitDecision_writeMode, commitGate_fst]
    obtain ⟨hreviewed, hmode⟩ | ⟨-, hmode⟩ := hgate
    · -- a review that is lifted needs a clear promotion layer
      have hlifts : promotionLifts promotion (writeGate rx (some agent) request base).1 ≠ true :=
        fun hlifts => h ⟨hreviewed, (commitPromotion_ok_autoPromote rx hpromotion).mp
          (promotionLifts_iff.mp hlifts).1⟩
      rw [if_neg hlifts, hmode]
      simp
    · have hlifts : promotionLifts promotion (writeGate rx (some agent) request base).1 ≠ true :=
        fun hlifts => by simpa [hmode] using (promotionLifts_iff.mp hlifts).2
      rw [if_neg hlifts, hmode]
      simp

/-- An agent confined to project `p`, holding an issued key. -/
def projectAgent : AgentIdentity :=
  { agentId := "openclaw"
    agentType := "coding_agent"
    projectScope := ["p"]
    permissionProfile := .projectScopedAgent
    auth := agentKeyAuth }

/-- A request that leaves the project domain under an intent that is not one
of the explicit ones. -/
def professionalNote : MemoryCommitRequest :=
  { userId := "u"
    title := "Note"
    canonicalText := "The office closes at five."
    domain := "professional"
    sensitivity := "internal"
    intent := "note"
    projectScope := ["p"] }

theorem domainReviewed_iff_professionalNote :
    (∀ d, evaluateMemoryCommitPolicy .plain (some projectAgent) professionalNote none none
        "authenticated_agent" "policy-1" = .ok d →
          d.writeMode ≠ .commit ∧ d.writeMode ≠ .confirmInline) ↔
      ¬ (ReviewedBeforeDomain .plain professionalNote
            (baseDecision .plain (some projectAgent) professionalNote none "policy-1") ∧
          CommitPromotionClear .plain (some projectAgent) professionalNote
            (baseDecision .plain (some projectAgent) professionalNote none "policy-1") none
            "authenticated_agent") :=
  domainReviewed_iff .plain projectAgent professionalNote none none "authenticated_agent"
    "policy-1" (by decide) (by decide)

/-- The escape: under the personal persona the same request is committed. -/
theorem professionalNote_committed :
    projectAgent.permissionProfile ∈ projectCommitProfiles ∧
    professionalNote.domain ≠ "project" ∧
    (evaluateMemoryCommitPolicy .plain (some projectAgent) professionalNote none
      (some { persona := .personal }) "authenticated_agent" "policy-1").map (·.writeMode) =
        .ok .commit := by
  refine ⟨by decide, by decide, ?_⟩
  decide +kernel

/-! ### Promotion settings -/

/-- The reasons that do not come with `decision = "blocked"`. -/
def nonBlockingReasons : List String :=
  ["restricted_domain_filtered", "restricted_sensitivity_filtered", "promotion_auto_promoted"]

/-- The reasons of a decision that did block it. -/
def PolicyDecision.blockingReasons (d : PolicyDecision) : List String :=
  d.reasons.filter (· ∉ nonBlockingReasons)

/-- Two agent-policy runs, without and with promotion settings, draw the same
boundaries. -/
structure PolicyNotWidened (without promoted : PolicyDecision) : Prop where
  domains : promoted.effectiveDomains = without.effectiveDomains
  sensitivities : promoted.effectiveSensitivityAllowed = without.effectiveSensitivityAllowed
  projectScope : promoted.effectiveProjectScope = without.effectiveProjectScope
  /-- Only the write-policy rule is ever waived. -/
  unblocked : without.decision = .blocked → promoted.decision ≠ .blocked →
    without.blockingReasons = ["no_auto_promotion"]

/-- Two commit-policy runs reject the same requests, and no commit is lost. -/
structure CommitNotWidened (without promoted : MemoryCommitPolicyDecision) : Prop where
  reject_iff : promoted.writeMode = .reject ↔ without.writeMode = .reject
  commit_kept : without.writeMode = .commit → promoted.writeMode = .commit

/-- The reasons of the two filters. -/
def filterReasons (identity : AgentIdentity) (req : PolicyRequest) : List String :=
  (if (filteredDomains identity.permissionProfile req.domains).2 = [] then []
    else ["restricted_domain_filtered"]) ++
  (if (filteredSensitivity identity.permissionProfile req.sensitivityAllowed).2 = [] then []
    else ["restricted_sensitivity_filtered"])

/-- A cascade in which the write-policy rule is the only one to fire records
the filters and that rule. -/
theorem policyCascade_reasons_of_noAutoPromotion {identity : AgentIdentity} {req : PolicyRequest}
    (hbinding : (bindingRule identity req).fires = false)
    (hordinary : ∀ r ∈ ordinaryRules identity req, r.fires = false)
    (hrule : (noAutoPromotionRule identity req false).fires = true) :
    (policyCascade identity req false).reasons =
      filterReasons identity req ++ ["no_auto_promotion"] := by
  -- the ordinary rules do not fire, so what they would block passes
  have hopening : ∀ st, PolicyState.blockAll st (openingRules identity req) = st := fun st =>
    st.blockAll_of_not_fires _ fun r hr => hordinary r (by simp [ordinaryRules, hr])
  have hoperator : ∀ st, PolicyState.blockAll st (operatorRules identity req) = st := fun st =>
    st.blockAll_of_not_fires _ fun r hr => hordinary r (by simp [ordinaryRules, hr])
  have hclosing : ∀ st, PolicyState.blockAll st (closingRules identity req) = st := fun st =>
    st.blockAll_of_not_fires _ fun r hr => hordinary r (by simp [ordinaryRules, hr])
  have hproposal : (proposalRule identity req).fires = false :=
    hordinary _ (by simp [ordinaryRules])
  have hbind : ∀ st : PolicyState, st.bindScope identity req = st := fun st => by
    simp [PolicyState.bindScope, hbinding]
  -- what is left are the filters and the one rule
  have hgate : ∀ st : PolicyState, (st.gateProposal identity req).reasons = st.reasons := by
    intro st
    unfold PolicyState.gateProposal
    split_ifs with haction hfires
    · exact absurd hfires (by simp [hproposal])
    all_goals rfl
  have hfilter : ∀ (st : PolicyState) (filtered : List String) (reason : String),
      (st.filterIf filtered reason).reasons =
        st.reasons ++ if filtered = [] then [] else [reason] := by
    intro st filtered reason
    unfold PolicyState.filterIf
    split <;> simp
  simp only [policyCascade, hopening, hoperator, hclosing, hbind, PolicyState.liftReview,
    Bool.false_eq_true, false_and, if_false, PolicyState.block, hrule, if_true, hgate, hfilter,
    filterReasons, List.nil_append]
  rfl

/-- The recorded reasons are then one blocking reason behind the filters. -/
theorem blockingReasons_noAutoPromotion (identity : AgentIdentity) (req : PolicyRequest) :
    (fromkeys (filterReasons identity req ++ ["no_auto_promotion"])).filter
      (· ∉ nonBlockingReasons) = ["no_auto_promotion"] := by
  unfold filterReasons
  split_ifs <;> decide

section TwoRuns

variable (settings : PromotionSettings) (traceId : String)

/-- The agent policy with these promotion settings. -/
abbrev PolicyRequest.promoted (req : PolicyRequest) : PolicyRequest :=
  { req with promotionSettings := some settings }

/-- The agent policy without promotion settings. -/
abbrev PolicyRequest.unpromoted (req : PolicyRequest) : PolicyRequest :=
  { req with promotionSettings := none }

/-- The agent policy with promotion settings keeps every boundary of the policy without
them, and waives one rule at most. -/
theorem evaluateAgentPolicy_notWidened (identity : Option AgentIdentity) (req : PolicyRequest) :
    PolicyNotWidened (evaluateAgentPolicy rx identity req.unpromoted traceId)
      (evaluateAgentPolicy rx identity (req.promoted settings) traceId) := by
  cases identity with
  | none => exact ⟨rfl, rfl, rfl, fun h => absurd h (by simp [evaluateAgentPolicy])⟩
  | some agent =>
    refine ⟨rfl, rfl, ?_, fun hblocked hopen => ?_⟩
    · rw [evaluateAgentPolicy_effectiveProjectScope, evaluateAgentPolicy_effectiveProjectScope]
      rfl
    · -- a rule fired without the settings and none with them: it was the
      -- write-policy rule
      rw [ne_eq, evaluateAgentPolicy_blocked_iff, BlockedOtherwise] at hopen
      obtain ⟨hbinding, hother⟩ := not_or.mp hopen
      obtain ⟨hordinary, -⟩ := not_or.mp hother
      have hbinding' : (bindingRule agent req.unpromoted).fires = false :=
        Bool.eq_false_iff.mpr hbinding
      have hordinary' : ∀ r ∈ ordinaryRules agent req.unpromoted, r.fires = false :=
        fun r hr => Bool.eq_false_iff.mpr fun hr' => hordinary ⟨r, hr, hr'⟩
      have hrule : (noAutoPromotionRule agent req.unpromoted false).fires = true := by
        rw [evaluateAgentPolicy_blocked_iff, BlockedOtherwise] at hblocked
        rcases hblocked with h | ⟨r, hr, hfires⟩ | ⟨h, -⟩
        · exact absurd h (by simp [hbinding'])
        · exact absurd hfires (by simp [hordinary' r hr])
        · exact h
      change (fromkeys (policyCascade agent req.unpromoted false).reasons).filter _ = _
      rw [policyCascade_reasons_of_noAutoPromotion hbinding' hordinary' hrule]
      exact blockingReasons_noAutoPromotion agent req.unpromoted

/-- Where the agent policy answers differently with promotion settings, the
promotion layer is clear. -/
theorem evaluateAgentPolicy_differs {identity : Option AgentIdentity} {req : PolicyRequest}
    (h : { evaluateAgentPolicy rx identity (req.promoted settings) traceId with
        promotion := none } ≠ evaluateAgentPolicy rx identity req.unpromoted traceId) :
    ∃ agent, identity = some agent ∧ PromotionPermits rx agent (req.promoted settings) := by
  cases identity with
  | none => exact absurd rfl h
  | some agent =>
    refine ⟨agent, rfl, (policyPromotion_permits_iff rx agent _).mp ?_⟩
    by_contra hpermits
    refine h ?_
    have hfalse := Bool.eq_false_iff.mpr hpermits
    simp only [evaluateAgentPolicy, evaluateAgentPolicyFor, hfalse]
    rfl

theorem commitDecision_notWidened (base : PolicyDecision) (gate : WriteMode × List String)
    (promotion : Option PromotionDecision) :
    CommitNotWidened (commitDecision base gate none) (commitDecision base gate promotion) := by
  refine ⟨?_, fun h => ?_⟩
  · rw [commitDecision_reject_iff, commitDecision_reject_iff]
  · have hgate : gate.1 = .commit := h
    rw [commitDecision_writeMode, hgate, ite_self]

/-- **Promotion settings never widen authorization.** The agent policy keeps
every boundary and waives one rule at most; the commit policy rejects the same
requests and keeps every commit; and where either answers differently, its
promotion layer is clear. -/
theorem promotion_never_widens (identity : Option AgentIdentity) (req : PolicyRequest)
    (request : MemoryCommitRequest) (policyDecision : Option PolicyDecision)
    (writerTrust : String) :
    PolicyNotWidened (evaluateAgentPolicy rx identity req.unpromoted traceId)
        (evaluateAgentPolicy rx identity (req.promoted settings) traceId) ∧
    ({ evaluateAgentPolicy rx identity (req.promoted settings) traceId with promotion := none } ≠
        evaluateAgentPolicy rx identity req.unpromoted traceId →
      ∃ agent, identity = some agent ∧ PromotionPermits rx agent (req.promoted settings)) ∧
    ((∃ promoted, evaluateMemoryCommitPolicy rx identity request policyDecision (some settings)
        writerTrust traceId = .ok promoted) ↔ (WriterTrust.ofText? writerTrust).isSome) ∧
    ∃ without, evaluateMemoryCommitPolicy rx identity request policyDecision none writerTrust
        traceId = .ok without ∧
      ∀ promoted, evaluateMemoryCommitPolicy rx identity request policyDecision (some settings)
          writerTrust traceId = .ok promoted →
        CommitNotWidened without promoted ∧
        ({ promoted with promotion := none } ≠ without →
          CommitPromotionClear rx identity request
            (baseDecision rx identity request policyDecision traceId) (some settings)
            writerTrust) := by
  refine ⟨evaluateAgentPolicy_notWidened rx settings traceId identity req,
    evaluateAgentPolicy_differs rx settings traceId, ?_, ?_⟩
  · cases htrust : WriterTrust.ofText? writerTrust with
    | none =>
      simp [evaluateMemoryCommitPolicy, commitPromotion, evaluatePromotion, htrust, Except.map]
    | some trust =>
      simp [evaluateMemoryCommitPolicy, commitPromotion, evaluatePromotion, htrust, Except.map]
  · refine ⟨_, rfl, fun promoted hpromoted => ?_⟩
    obtain ⟨promotion, hpromotion, rfl⟩ :=
      (evaluateMemoryCommitPolicy_ok_iff rx rfl).mp hpromoted
    refine ⟨commitDecision_notWidened _ _ _, fun hdiffers => ?_⟩
    refine (commitPromotion_ok_autoPromote rx hpromotion).mp ?_
    by_contra hauto
    -- a layer that does not promote leaves the gate's own decision
    have hlifts : ∀ mode, promotionLifts promotion mode = false := fun mode =>
      Bool.eq_false_iff.mpr fun h => hauto (promotionLifts_iff.mp h).1
    rw [commitDecision_of_not_lifts (hlifts _)] at hdiffers
    exact hdiffers rfl

end TwoRuns

end AliceBot
