import AliceBot.PolicyGuarantees

/-!
# The read filter under a narrowed request

`vnext_retrieval._allowed` decides row by row what a retrieval may return. It is
handed the *effective* domains and sensitivities of a policy decision, so what
an agent reads is decided by the two together. They do not agree on what an
empty tuple means. For the policy it is what is left of a request; for the
filter an empty tuple of domains is no filter at all.

`narrowsReads_iff` is the exact answer for the agents that are neither trusted
nor administrators. Two kinds of request escape: one that names no domain, which
reads the restricted domains along with the rest, and one whose sensitivities
are all beyond the profile, which is answered with the profile's own list
instead of nothing.
-/

namespace AliceBot

open PyLib

variable (rx : PatternEngine)

/-! ### The filter -/

/-- `_allowed`: why a row is kept out, if it is. The domain `unknown` passes
every domain filter. -/
def exclusionReason (item : Dict Json) (domains sensitivityAllowed : List String) :
    Option String :=
  if (item.getStr? "domain").any fun d =>
      decide (domains ≠ [] ∧ d ∉ domains ∧ d ≠ "unknown") then some "domain_filtered"
  else if (item.getStr? "sensitivity").any fun s => decide (s ∉ sensitivityAllowed) then
    some "sensitivity_filtered"
  else none

/-- A row passes exactly when its domain, if it is a text, is named or
`unknown` or nothing is named, and its sensitivity, if it is a text, is named. -/
theorem exclusionReason_eq_none_iff {item : Dict Json} {domains sensitivityAllowed : List String} :
    exclusionReason item domains sensitivityAllowed = none ↔
      (∀ d, item.getStr? "domain" = some d → domains = [] ∨ d ∈ domains ∨ d = "unknown") ∧
      ∀ s, item.getStr? "sensitivity" = some s → s ∈ sensitivityAllowed := by
  -- a value that is no text excludes nothing
  have hdomain : ((item.getStr? "domain").any fun d =>
      decide (domains ≠ [] ∧ d ∉ domains ∧ d ≠ "unknown")) = false ↔
      ∀ d, item.getStr? "domain" = some d → domains = [] ∨ d ∈ domains ∨ d = "unknown" := by
    cases item.getStr? "domain" with
    | none => simp
    | some d =>
      simp only [Option.any_some, decide_eq_false_iff_not, Option.some.injEq, forall_eq']
      tauto
  have hsensitivity : ((item.getStr? "sensitivity").any fun s =>
      decide (s ∉ sensitivityAllowed)) = false ↔
      ∀ s, item.getStr? "sensitivity" = some s → s ∈ sensitivityAllowed := by
    cases item.getStr? "sensitivity" <;> simp
  rw [← hdomain, ← hsensitivity, exclusionReason]
  generalize ((item.getStr? "domain").any _) = kept
  generalize ((item.getStr? "sensitivity").any _) = kept'
  cases kept <;> cases kept' <;> decide

/-! ### What the filters of the policy leave -/

theorem profileSensitivity_ne_nil (profile : PermissionProfile) :
    profileSensitivity profile ≠ [] := by
  cases profile <;> decide

/-- What stays of the sensitivities never leaves the profile. -/
theorem filteredSensitivity_subset (profile : PermissionProfile) (requested : List String) :
    (filteredSensitivity profile requested).1 ⊆ profileSensitivity profile := by
  -- what stays is a filtered list or, failing that, the profile's own
  have hfilter : ∀ l : List String, l.filter (· ∈ profileSensitivity profile) ⊆
      profileSensitivity profile := by
    intro l s hs
    simpa using (List.mem_filter.mp hs).2
  simp only [filteredSensitivity]
  generalize (if requested = [] then profileSensitivity profile else requested) = l
  split
  · exact fun _ hs => hs
  · exact hfilter l

theorem filteredSensitivity_ne_nil (profile : PermissionProfile) (requested : List String) :
    (filteredSensitivity profile requested).1 ≠ [] := by
  simp only [filteredSensitivity]
  generalize (if requested = [] then profileSensitivity profile else requested) = l
  split
  · exact profileSensitivity_ne_nil profile
  · assumption

/-- For a request that names sensitivities the answer stays inside the request
exactly when one of them is in the profile; otherwise it is the fallback. -/
theorem filteredSensitivity_subset_request_iff {profile : PermissionProfile}
    {requested : List String} (h : requested ≠ []) :
    (filteredSensitivity profile requested).1 ⊆ requested ↔
      ∃ s ∈ requested, s ∈ profileSensitivity profile := by
  simp only [filteredSensitivity, if_neg h]
  split
  · next hnone =>
    -- nothing requested is in the profile, so the profile's own list is used
    have hout : ∀ s ∈ requested, s ∉ profileSensitivity profile := by
      simpa [List.filter_eq_nil_iff] using hnone
    constructor
    · intro hsub
      obtain ⟨s, hs⟩ := List.exists_mem_of_ne_nil _ (profileSensitivity_ne_nil profile)
      exact ⟨s, hsub hs, hs⟩
    · rintro ⟨s, hs, hprofile⟩
      exact absurd hprofile (hout s hs)
  · next hsome =>
    constructor
    · intro _
      obtain ⟨s, hs⟩ := List.exists_mem_of_ne_nil _ hsome
      obtain ⟨hrequested, hprofile⟩ := List.mem_filter.mp hs
      exact ⟨s, hrequested, by simpa using hprofile⟩
    · intro _ s hs
      exact (List.mem_filter.mp hs).1

/-- An agent without special trust: the filters apply to it. -/
def Untrusted (profile : PermissionProfile) : Prop :=
  profile ∉ [PermissionProfile.trustedLocalAgent, .adminAgent]

theorem mem_filteredDomains {profile : PermissionProfile} (h : Untrusted profile)
    {domains : List String} {d : String} :
    d ∈ (filteredDomains profile domains).1 ↔ d ∈ domains ∧ d ∉ restrictedDomains := by
  rw [filteredDomains, if_neg h]
  simp [List.mem_filter]

/-- A request all of whose domains are restricted is blocked, so a decision
that is not blocked leaves a domain of every request that names one. -/
theorem filteredDomains_ne_nil {identity : AgentIdentity} {req : PolicyRequest} {traceId : String}
    (hprofile : Untrusted identity.permissionProfile) (hdomains : req.domains ≠ [])
    (hopen : (evaluateAgentPolicy rx (some identity) req traceId).decision ≠ .blocked) :
    (filteredDomains identity.permissionProfile req.domains).1 ≠ [] := by
  intro hnone
  have hrestricted : (filteredDomains identity.permissionProfile req.domains).2 ≠ [] := by
    rw [filteredDomains, if_neg hprofile] at hnone ⊢
    obtain ⟨d, hd⟩ := List.exists_mem_of_ne_nil _ hdomains
    have hd' : d ∈ restrictedDomains := by
      have := List.filter_eq_nil_iff.mp hnone d hd
      simpa using this
    exact List.ne_nil_of_mem (List.mem_filter.mpr ⟨hd, by simpa using hd'⟩)
  refine hopen ((evaluateAgentPolicy_blocked_iff rx identity req traceId).mpr
    (Or.inr (Or.inl ⟨_, List.mem_append_left _ (List.mem_append_left _ (List.mem_append_left _
      (List.mem_cons_self ..))), ?_⟩)))
  exact decide_eq_true ⟨hdomains, hnone, hrestricted⟩

/-! ### The composition -/

/-- The row holds nothing an agent of this profile may not read. -/
def WithinProfile (profile : PermissionProfile) (item : Dict Json) : Prop :=
  (∀ d, item.getStr? "domain" = some d → d ∉ restrictedDomains) ∧
    ∀ s, item.getStr? "sensitivity" = some s → s ∈ profileSensitivity profile

/-- What a decision promises about reading: unless it is `blocked`, what is
effective was requested, if anything was, and the filter under the effective
tuples admits only rows within the profile. -/
def NarrowsReads (profile : PermissionProfile) (req : PolicyRequest) (d : PolicyDecision) : Prop :=
  d.decision ≠ .blocked →
    (req.domains ≠ [] → d.effectiveDomains ⊆ req.domains) ∧
    (req.sensitivityAllowed ≠ [] →
      d.effectiveSensitivityAllowed ⊆ req.sensitivityAllowed) ∧
    ∀ item, exclusionReason item d.effectiveDomains d.effectiveSensitivityAllowed = none →
      WithinProfile profile item

/-- The request names a domain, and of the sensitivities it names, if any, at
least one is in the profile. -/
def NamesWhatItReads (profile : PermissionProfile) (req : PolicyRequest) : Prop :=
  req.domains ≠ [] ∧
    (req.sensitivityAllowed = [] ∨
      ∃ s ∈ req.sensitivityAllowed, s ∈ profileSensitivity profile)

/-- A row of a restricted domain that any sensitivity list lets through which
holds `sensitivity`. -/
def restrictedRow (sensitivity : String) : Dict Json :=
  [("domain", .str "family"), ("sensitivity", .str sensitivity)]

theorem restrictedRow_admitted {sensitivity : String} {sensitivityAllowed : List String}
    (h : sensitivity ∈ sensitivityAllowed) :
    exclusionReason (restrictedRow sensitivity) [] sensitivityAllowed = none := by
  rw [exclusionReason_eq_none_iff]
  refine ⟨fun _ _ => Or.inl rfl, fun s hs => ?_⟩
  have : some sensitivity = some s := hs
  cases this
  exact h

theorem restrictedRow_not_within (profile : PermissionProfile) (sensitivity : String) :
    ¬ WithinProfile profile (restrictedRow sensitivity) := by
  intro h
  exact h.1 "family" rfl (by decide)

/-- A request the policy lets through reads within the profile if it names a
domain. -/
theorem admitted_withinProfile {identity : AgentIdentity} {req : PolicyRequest} {traceId : String}
    (hprofile : Untrusted identity.permissionProfile) (hdomains : req.domains ≠ [])
    (hopen : (evaluateAgentPolicy rx (some identity) req traceId).decision ≠ .blocked)
    {item : Dict Json}
    (hitem : exclusionReason item (filteredDomains identity.permissionProfile req.domains).1
      (filteredSensitivity identity.permissionProfile req.sensitivityAllowed).1 = none) :
    WithinProfile identity.permissionProfile item := by
  obtain ⟨hdomain, hsensitivity⟩ := exclusionReason_eq_none_iff.mp hitem
  constructor
  · intro d hd
    rcases hdomain d hd with hnone | hmem | rfl
    · exact absurd hnone (filteredDomains_ne_nil rx hprofile hdomains hopen)
    · exact ((mem_filteredDomains hprofile).mp hmem).2
    · decide
  · intro s hs
    exact filteredSensitivity_subset _ _ (hsensitivity s hs)

/-- **Narrowing, exactly.** For an agent that is neither trusted nor an
administrator, and for whatever action, a read is narrowed to the request and
the profile if and only if some rule blocks it, or it names a domain and a
sensitivity of the profile, when it names sensitivities at all. -/
theorem narrowsReads_iff (identity : AgentIdentity) (req : PolicyRequest) (traceId : String)
    (hprofile : Untrusted identity.permissionProfile) :
    NarrowsReads identity.permissionProfile req
        (evaluateAgentPolicy rx (some identity) req traceId) ↔
      ((bindingRule identity req).fires = true ∨ BlockedOtherwise rx identity req) ∨
        NamesWhatItReads identity.permissionProfile req := by
  rw [← evaluateAgentPolicy_blocked_iff rx identity req traceId]
  by_cases hblocked : (evaluateAgentPolicy rx (some identity) req traceId).decision = .blocked
  · simp [NarrowsReads, hblocked]
  simp only [NarrowsReads, hblocked, ne_eq, not_false_eq_true, true_implies, false_or,
    NamesWhatItReads]
  -- the effective tuples are what the two filters leave
  change (_ → (filteredDomains identity.permissionProfile req.domains).1 ⊆ _) ∧
    (_ → (filteredSensitivity identity.permissionProfile req.sensitivityAllowed).1 ⊆ _) ∧
    (∀ item, exclusionReason item (filteredDomains identity.permissionProfile req.domains).1
      (filteredSensitivity identity.permissionProfile req.sensitivityAllowed).1 = none → _) ↔ _
  constructor
  · rintro ⟨-, hsensitivity, hrows⟩
    constructor
    · -- no domain requested means no domain filter: a restricted row comes through
      intro hdomains
      obtain ⟨s, hs⟩ := List.exists_mem_of_ne_nil _
        (filteredSensitivity_ne_nil identity.permissionProfile req.sensitivityAllowed)
      refine restrictedRow_not_within identity.permissionProfile s (hrows _ ?_)
      rw [hdomains, filteredDomains, if_neg hprofile]
      exact restrictedRow_admitted hs
    · by_cases hnone : req.sensitivityAllowed = []
      · exact Or.inl hnone
      · exact Or.inr ((filteredSensitivity_subset_request_iff hnone).mp (hsensitivity hnone))
  · rintro ⟨hdomains, hsensitivity⟩
    refine ⟨fun _ d hd => ((mem_filteredDomains hprofile).mp hd).1, fun hsome => ?_, ?_⟩
    · exact (filteredSensitivity_subset_request_iff hsome).mpr (hsensitivity.resolve_left hsome)
    · intro item hitem
      exact admitted_withinProfile rx hprofile hdomains hblocked hitem

/-- An agent that may only read. -/
def readerAgent : AgentIdentity := { agentId := "reader" }

theorem narrowsReads_iff_projectRead :
    NarrowsReads readerAgent.permissionProfile
        { action := "context_pack.request", domains := ["project", "health"] }
        (evaluateAgentPolicy .plain (some readerAgent)
          { action := "context_pack.request", domains := ["project", "health"] } "policy-1") ↔
      ((bindingRule readerAgent
          { action := "context_pack.request", domains := ["project", "health"] }).fires = true ∨
        BlockedOtherwise .plain readerAgent
          { action := "context_pack.request", domains := ["project", "health"] }) ∨
        NamesWhatItReads readerAgent.permissionProfile
          { action := "context_pack.request", domains := ["project", "health"] } :=
  narrowsReads_iff .plain readerAgent
    { action := "context_pack.request", domains := ["project", "health"] } "policy-1"
    (by unfold Untrusted; decide)

/-- A context pack request that names nothing is let through, and the filter
then admits a row of the domain `family`. -/
theorem unfiltered_read_is_unrestricted :
    ¬ NarrowsReads readerAgent.permissionProfile { action := "context_pack.request" }
      (evaluateAgentPolicy .plain (some readerAgent) { action := "context_pack.request" }
        "policy-1") := by
  intro h
  obtain ⟨-, -, hrows⟩ := h (by decide)
  refine restrictedRow_not_within readerAgent.permissionProfile "public" (hrows _ ?_)
  exact restrictedRow_admitted (by decide)

end AliceBot
