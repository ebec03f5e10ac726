import AliceBot.Library.Json
import AliceBot.Library.Text
import Mathlib.Data.Fintype.Basic

/-!
# The tiered promotion policy

`vnext_promotion_policy`: whether one candidate memory may be written without
a human gate. Three layers answer in a fixed order.

* The hard floor (`hardFloorHits`) reads the candidate alone. No settings
  value reaches it.
* Eligibility is a property of the writer, the permission profile and the
  persona.
* The escalation filters (`escalationFilterHits`) are the configurable layer.

`evaluatePromotionFor` assembles them. `autoPromote_iff` reads its answer off
the three layers at once: a candidate is promoted exactly when no layer
objects. Everything proved about the write gates goes through that lemma.

The regular expressions and the Unicode tables of the source are the fields of
`PatternEngine`. No result below depends on what they recognise.
-/

namespace AliceBot

open PyLib

/-! ### Vocabularies -/

/-- `PROMOTION_PERSONAS`. -/
inductive Persona where
  | personal
  | team
  | enterprise
deriving DecidableEq, Repr

def Persona.text : Persona → String
  | .personal => "personal"
  | .team => "team"
  | .enterprise => "enterprise"

/-- `AUTO_PROMOTING_PERSONAS`. -/
def autoPromotingPersonas : List Persona := [.personal, .team]

/-- `DIGEST_REVIEW_PERSONAS`. -/
def digestReviewPersonas : List Persona := [.team]

/-- `ESCALATION_FILTERS`. -/
inductive EscalationFilter where
  | contradictsExistingMemory
  | privateOrHigherSensitivity
  | restrictedDomain
  | indirectProvenance
  | thirdPartyPerson
  | unverifiedAuthorityClaim
  | agentControlVocabulary
deriving DecidableEq, Repr

def EscalationFilter.text : EscalationFilter → String
  | .contradictsExistingMemory => "contradicts_existing_memory"
  | .privateOrHigherSensitivity => "private_or_higher_sensitivity"
  | .restrictedDomain => "restricted_domain"
  | .indirectProvenance => "indirect_provenance"
  | .thirdPartyPerson => "third_party_person"
  | .unverifiedAuthorityClaim => "unverified_authority_claim"
  | .agentControlVocabulary => "agent_control_vocabulary"

/-- `ESCALATION_FILTERS` in the order of the tuple. -/
def escalationFilters : List EscalationFilter :=
  [.contradictsExistingMemory, .privateOrHigherSensitivity, .restrictedDomain,
    .indirectProvenance, .thirdPartyPerson, .unverifiedAuthorityClaim, .agentControlVocabulary]

theorem mem_escalationFilters (f : EscalationFilter) : f ∈ escalationFilters := by
  cases f <;> decide

instance : Fintype EscalationFilter where
  elems := escalationFilters.toFinset
  complete f := List.mem_toFinset.mpr (mem_escalationFilters f)

/-- `HARD_FLOOR_RULES`. -/
inductive HardFloorRule where
  | credentialMaterial
  | agentOutputReingestion
  | instructionShapedContent
deriving DecidableEq, Repr

def HardFloorRule.text : HardFloorRule → String
  | .credentialMaterial => "credential_material"
  | .agentOutputReingestion => "agent_output_reingestion"
  | .instructionShapedContent => "instruction_shaped_content"

/-- `WRITER_TRUST_LEVELS`. -/
inductive WriterTrust where
  | owner
  | authenticatedAgent
  | assertedAgent
  | unverified
deriving DecidableEq, Repr

def WriterTrust.text : WriterTrust → String
  | .owner => "owner"
  | .authenticatedAgent => "authenticated_agent"
  | .assertedAgent => "asserted_agent"
  | .unverified => "unverified"

/-- The level a string names, if it is one of `WRITER_TRUST_LEVELS`. -/
def WriterTrust.ofText? (s : String) : Option WriterTrust :=
  [WriterTrust.owner, .authenticatedAgent, .assertedAgent, .unverified].find? (·.text = s)

@[simp] theorem WriterTrust.ofText?_text (t : WriterTrust) :
    WriterTrust.ofText? t.text = some t := by
  cases t <;> rfl

/-- `PROMOTION_ELIGIBLE_WRITERS`. -/
def promotionEligibleWriters : List WriterTrust := [.owner, .authenticatedAgent]

/-- The permission profiles: the five an agent may hold, and the one a policy
decision carries when no agent asked. -/
inductive PermissionProfile where
  | userOrSystem
  | readOnlyAgent
  | projectScopedAgent
  | trustedLocalAgent
  | memoryProposalAgent
  | adminAgent
deriving DecidableEq, Repr

def PermissionProfile.text : PermissionProfile → String
  | .userOrSystem => "user_or_system"
  | .readOnlyAgent => "read_only_agent"
  | .projectScopedAgent => "project_scoped_agent"
  | .trustedLocalAgent => "trusted_local_agent"
  | .memoryProposalAgent => "memory_proposal_agent"
  | .adminAgent => "admin_agent"

/-- `PROMOTABLE_PERMISSION_PROFILES`. -/
def promotablePermissionProfiles : List PermissionProfile :=
  [.userOrSystem, .trustedLocalAgent, .projectScopedAgent, .adminAgent]

/-- `AGENT_KEY_AUTH`. -/
def agentKeyAuth : String := "agent_api_key"

def agentOutputSourceTypes : List String :=
  ["agent_artifact", "agent_generated", "agent_output", "agent_run", "artifact_summary",
    "assistant_message", "generated_artifact", "llm_output", "model_output"]

def agentOutputRefPrefixes : List String :=
  ["agent_output:", "agent_run:", "artifact:", "assistant:", "generated_artifact:"]

def internalSourceTypes : List String :=
  ["direct_user_instruction", "local_conversation", "manual_entry", "user_message",
    "trusted_agent", "agent_reasoning"]

def privateOrHigherSensitivity : List String :=
  ["private", "confidential", "highly_sensitive", "sacred", "regulated"]

def promotionRestrictedDomains : List String :=
  ["family", "health", "spiritual", "legal", "financial"]

def personMemoryTypes : List String := ["person", "relationship", "relationship_fact"]

def personDomains : List String := ["relationship", "family"]

def nonPersonTokens : List String :=
  ["alice", "he", "she", "they", "we", "you", "it", "this", "that", "there", "these", "those",
    "today", "tomorrow", "yesterday", "monday", "tuesday", "wednesday", "thursday", "friday",
    "saturday", "sunday", "january", "february", "march", "april", "may", "june", "july",
    "august", "september", "october", "november", "december", "everyone", "everything",
    "nothing", "someone", "something", "standups", "standup", "meetings", "meeting", "work",
    "the"]

/-! ### Pattern matching -/

/-- The regular expressions and Unicode tables the policies consult, as the
functions they compute. -/
structure PatternEngine where
  /-- `str.casefold`. -/
  casefold : String → String
  /-- `normalize_for_matching`. -/
  normalizeForMatching : String → String
  /-- `_matches_credential(text, require_token_boundary=…)`. -/
  matchesCredential : String → Bool → Bool
  /-- `_decoded_variants`. -/
  decodedVariants : String → List String
  /-- `_despaced_runs`. -/
  despacedRuns : String → List String
  /-- Whether a pattern of `_INJECTION_ALWAYS_PATTERNS` is found. -/
  injectionAlways : String → Bool
  /-- The starts of all matches of `_IMPERATIVE_FLOOR_PATTERNS`. -/
  imperativeStarts : String → List Nat
  /-- `_is_imperative_context`. -/
  isImperativeContext : String → Nat → Bool
  /-- The first groups of all matches of `_THIRD_PARTY_NAME_PATTERNS`. -/
  thirdPartyNames : String → List String
  /-- The at most twenty-four characters before each match of
  `_AUTHORITY_CLAIM_PATTERNS`. -/
  authorityLeads : String → List String
  /-- Whether `_FIRST_PERSON_LEAD` is found. -/
  firstPersonLead : String → Bool
  /-- Whether a pattern of `_AGENT_CONTROL_PATTERNS` is found. -/
  agentControl : String → Bool
  /-- Whether a pattern of `SECRET_PREFIX_PATTERNS` is found. -/
  secretPrefix : String → Bool
  /-- The `value` groups of all matches of `SECRET_ASSIGNMENT_PATTERN`. -/
  secretAssignmentValues : String → List String
  /-- `looks_like_secret_value`. -/
  looksLikeSecretValue : String → Bool
  /-- `str(value)` of a scalar that is not a string. -/
  scalarText : Json → String

/-- What the engine computes on plain ASCII prose in which no pattern occurs. -/
def PatternEngine.plain : PatternEngine where
  casefold := asciiLower
  normalizeForMatching text := text
  matchesCredential _ _ := false
  decodedVariants _ := []
  despacedRuns _ := []
  injectionAlways _ := false
  imperativeStarts _ := []
  isImperativeContext _ _ := false
  thirdPartyNames _ := []
  authorityLeads _ := []
  firstPersonLead _ := false
  agentControl _ := false
  secretPrefix _ := false
  secretAssignmentValues _ := []
  looksLikeSecretValue _ := false
  scalarText _ := ""

variable (rx : PatternEngine)

/-- `_fold`. -/
def foldToken (value : String) : String :=
  rx.casefold (strip (rx.normalizeForMatching value))

/-- One character of `_LEET_TABLE`. -/
def deleetChar : Char → Char
  | '0' => 'o'
  | '1' => 'i'
  | '3' => 'e'
  | '4' => 'a'
  | '5' => 's'
  | '7' => 't'
  | '@' => 'a'
  | '$' => 's'
  | c => c

/-- `_deleet`. -/
def deleet (text : String) : String :=
  String.ofList (text.toList.map deleetChar)

/-- `looks_like_credential`: every text on its own, normalised, and joined in
reading order with and without a space, each also decoded and despaced. -/
def looksLikeCredential (texts : List String) : Bool :=
  let present := texts.filter (· ≠ "")
  let normalized := present.map rx.normalizeForMatching
  let surfaces := present ++ normalized ++ [" ".intercalate normalized, "".intercalate normalized]
  !present.isEmpty && surfaces.any fun text =>
    rx.matchesCredential text true
      || (rx.decodedVariants text).any (rx.matchesCredential · true)
      || (rx.despacedRuns text).any (rx.matchesCredential · false)

mutual
/-- The strings one source reference flattens to. A mapping contributes its
string values twice, bare and as `key=value`. -/
def sourceRefStringsOf : Json → List String
  | .str s => [s]
  | .obj fields => sourceRefFields fields
  | .arr items => sourceRefStrings items
  | _ => []

/-- `_source_ref_strings`. -/
def sourceRefStrings : List Json → List String
  | [] => []
  | ref :: rest => sourceRefStringsOf ref ++ sourceRefStrings rest

/-- The strings of the items of one mapping, in order. -/
def sourceRefFields : List (String × Json) → List String
  | [] => []
  | (key, value) :: rest =>
    (match value.asStr? with
      | some text => [key ++ "=" ++ text]
      | none => []) ++ sourceRefStringsOf value ++ sourceRefFields rest
end

/-- `_refs_point_at_agent_output`. -/
def refsPointAtAgentOutput (refs : List Json) : Bool :=
  (sourceRefStrings refs).any fun raw =>
    let folded := strip (rx.casefold raw)
    agentOutputRefPrefixes.any (startsWith folded ·)
      || decide (folded ∈ ["generated_by=agent", "actor_type=agent", "produced_by=agent"])
      || (startsWith folded "source_type="
          && decide (removePrefix folded "source_type=" ∈ agentOutputSourceTypes))

/-! ### Candidates and the hard floor -/

/-- `PromotionCandidate`. What the rules of promotion look at. -/
structure PromotionCandidate where
  canonicalText : String := ""
  title : String := ""
  memoryType : String := "semantic"
  domain : String := "unknown"
  sensitivity : String := "unknown"
  intent : String := ""
  sourceType : String := "unknown"
  sourceRefs : List Json := []
  contradictionRefs : List String := []
  conversationExcerpt : Option String := none
  writtenByAgent : Bool := false
  contradictsExisting : Bool := false

/-- The prose fields in reading order: title, body, excerpt. -/
def PromotionCandidate.prose (c : PromotionCandidate) : List String :=
  [c.title, c.canonicalText, c.conversationExcerpt.getD ""]

/-- `is_external_provenance`: true unless the label is a recognised one. -/
def isExternalProvenance (sourceType : String) : Bool :=
  decide (foldToken rx sourceType ∉ internalSourceTypes)

/-- `_surface_forms`. -/
def surfaceForms (text : String) : List String :=
  let normalized := rx.normalizeForMatching text
  [text, normalized, deleet normalized]

/-- `_matching_surfaces`. -/
def matchingSurfaces (c : PromotionCandidate) : List String :=
  let fields := c.prose.filter (· ≠ "")
  let prose := if fields = [] then [] else surfaceForms rx ("\n".intercalate fields)
  let refs := (sourceRefStrings c.sourceRefs).filter (fun ref => strip ref ≠ "")
  fromkeys (prose ++ refs.flatMap (surfaceForms rx))

/-- `hard_floor_hits`: the candidate and nothing else. -/
def hardFloorHits (c : PromotionCandidate) : List HardFloorRule :=
  let surfaces := matchingSurfaces rx c
  (if looksLikeCredential rx (c.prose ++ sourceRefStrings c.sourceRefs) then
    [.credentialMaterial] else []) ++
  (if foldToken rx c.sourceType ∈ agentOutputSourceTypes ∨ refsPointAtAgentOutput rx c.sourceRefs
    then [.agentOutputReingestion] else []) ++
  (if surfaces.any rx.injectionAlways
      || surfaces.any (fun s => (rx.imperativeStarts s).any (rx.isImperativeContext s)) then
    [.instructionShapedContent] else [])

/-- `writer_trust_for`: how well the writer is established. -/
def writerTrustFor (identityAuth : Option String) (ownerVerified : Bool) : WriterTrust :=
  match identityAuth with
  | none => if ownerVerified then .owner else .unverified
  | some auth => if auth = agentKeyAuth then .authenticatedAgent else .assertedAgent

/-! ### Settings and the escalation filters -/

/-- `PromotionSettings`: a persona of the closed vocabulary and a set of
filters of the closed vocabulary, so neither check of `__post_init__` can
fail. -/
structure PromotionSettings where
  persona : Persona := .enterprise
  escalationFilters : Finset EscalationFilter := Finset.univ
  ownerAliases : List String := []

/-- `PromotionSettings.review_is_advisory`. -/
def PromotionSettings.reviewIsAdvisory (s : PromotionSettings) : Bool :=
  decide (s.persona ∈ digestReviewPersonas)

/-- `_third_party_person_claim`. The candidate speaks about a person that is not the
owner, by its type, its domain or a name in its text. -/
def thirdPartyPersonClaim (c : PromotionCandidate) (ownerAliases : List String) : Bool :=
  let aliases := ownerAliases.map (foldToken rx)
  decide (foldToken rx c.memoryType ∈ personMemoryTypes)
    || decide (foldToken rx c.domain ∈ personDomains)
    || (c.prose.filter (· ≠ "")).any fun fieldText =>
      (rx.thirdPartyNames (rx.normalizeForMatching fieldText)).any fun group =>
        let folded := rx.casefold (strip (collapse group))
        let tokens := words folded
        folded != "" && decide (folded ∉ aliases)
          && !tokens.any (fun t => decide (t ∈ nonPersonTokens))
          && !tokens.any (fun t => decide (t ∈ aliases))

/-- `_authority_claim`. -/
def authorityClaim (c : PromotionCandidate) : Bool :=
  (matchingSurfaces rx c).any fun surface =>
    (rx.authorityLeads surface).any fun lead => !rx.firstPersonLead lead

/-- `_agent_control_vocabulary`. -/
def agentControlVocabulary (c : PromotionCandidate) : Bool :=
  isExternalProvenance rx c.sourceType && (matchingSurfaces rx c).any rx.agentControl

/-- The test behind one escalation filter. -/
def escalationFilterFires (settings : PromotionSettings) (c : PromotionCandidate) :
    EscalationFilter → Bool
  | .contradictsExistingMemory => c.contradictsExisting || !c.contradictionRefs.isEmpty
  | .privateOrHigherSensitivity => decide (foldToken rx c.sensitivity ∈ privateOrHigherSensitivity)
  | .restrictedDomain => decide (foldToken rx c.domain ∈ promotionRestrictedDomains)
  | .indirectProvenance => isExternalProvenance rx c.sourceType
  | .thirdPartyPerson => thirdPartyPersonClaim rx c settings.ownerAliases
  | .unverifiedAuthorityClaim => authorityClaim rx c
  | .agentControlVocabulary => agentControlVocabulary rx c

/-- `_escalation_filter_hits`: the enabled filters that fire, in the order of
`ESCALATION_FILTERS`. -/
def escalationFilterHits (settings : PromotionSettings) (c : PromotionCandidate) :
    List EscalationFilter :=
  escalationFilters.filter fun f =>
    decide (f ∈ settings.escalationFilters) && escalationFilterFires rx settings c f

theorem escalationFilterHits_eq_nil {settings : PromotionSettings} {c : PromotionCandidate} :
    escalationFilterHits rx settings c = [] ↔
      ∀ f ∈ settings.escalationFilters, escalationFilterFires rx settings c f = false := by
  simp [escalationFilterHits, List.filter_eq_nil_iff, mem_escalationFilters]

/-! ### The decision -/

/-- The tier a promotion decision ends in. -/
inductive PromotionTier where
  | hardFloor
  | writerGated
  | profileGated
  | reviewGated
  | escalated
  | autoPromote
deriving DecidableEq, Repr

def PromotionTier.text : PromotionTier → String
  | .hardFloor => "hard_floor"
  | .writerGated => "writer_gated"
  | .profileGated => "profile_gated"
  | .reviewGated => "review_gated"
  | .escalated => "escalated"
  | .autoPromote => "auto_promote"

/-- `PromotionDecision`. The tier a candidate came to, with everything that fired on the
way. -/
structure PromotionDecision where
  persona : Persona
  tier : PromotionTier
  autoPromote : Bool
  permissionProfile : PermissionProfile
  writerTrust : WriterTrust
  enabledFilters : List EscalationFilter
  escalationFiltersFired : List EscalationFilter
  hardFloorRulesFired : List HardFloorRule
  reasons : List String
  reviewIsAdvisory : Bool
deriving DecidableEq, Repr

/-- The tier cascade of `evaluate_promotion`, with the reasons it records. -/
def promotionTier (floorHits : List HardFloorRule) (filterHits : List EscalationFilter)
    (trust : WriterTrust) (profile : PermissionProfile) (persona : Persona) :
    PromotionTier × List String :=
  -- in the order of their weight; the first tier that holds decides
  if floorHits ≠ [] then
    (.hardFloor, floorHits.map fun rule => "hard_floor:" ++ rule.text)
  else if trust ∉ promotionEligibleWriters then
    (.writerGated, ["writer_not_promotion_eligible:" ++ trust.text])
  else if profile ∉ promotablePermissionProfiles then
    (.profileGated, ["profile_not_promotable:" ++ profile.text])
  else if persona ∉ autoPromotingPersonas then
    (.reviewGated, ["persona_review_gated:" ++ persona.text])
  else if filterHits ≠ [] then
    (.escalated, filterHits.map fun f => "escalation_filter:" ++ f.text)
  else
    (.autoPromote, ["persona_auto_promote:" ++ persona.text])

/-- `evaluate_promotion` for a writer trust that is one of the levels. -/
def evaluatePromotionFor (settings : PromotionSettings) (candidate : PromotionCandidate)
    (profile : PermissionProfile) (trust : WriterTrust) : PromotionDecision :=
  let floorHits := hardFloorHits rx candidate
  let filterHits := escalationFilterHits rx settings candidate
  let (tier, reasons) := promotionTier floorHits filterHits trust profile settings.persona
  { persona := settings.persona
    tier := tier
    autoPromote := decide (tier = .autoPromote)
    permissionProfile := profile
    writerTrust := trust
    enabledFilters := escalationFilters.filter (· ∈ settings.escalationFilters)
    escalationFiltersFired := filterHits
    hardFloorRulesFired := floorHits
    reasons := reasons
    reviewIsAdvisory := settings.reviewIsAdvisory && decide (tier = .autoPromote) }

/-- `PromotionSettingsValidationError`, with its message. -/
structure PromotionSettingsValidationError where
  message : String
deriving DecidableEq, Repr

/-- `evaluate_promotion`: an unknown writer trust is refused. -/
def evaluatePromotion (settings : PromotionSettings) (candidate : PromotionCandidate)
    (profile : PermissionProfile) (writerTrust : String) :
    Except PromotionSettingsValidationError PromotionDecision :=
  match WriterTrust.ofText? writerTrust with
  | none => .error
      ⟨"writer_trust must be one of owner, authenticated_agent, asserted_agent, unverified"⟩
  | some trust => .ok (evaluatePromotionFor rx settings candidate profile trust)

/-- The conditions under which nothing stands between a candidate and a direct
write: no floor rule, an eligible writer, a promotable profile, an
auto-promoting persona and no enabled filter that fires. -/
structure PromotionClear (settings : PromotionSettings) (candidate : PromotionCandidate)
    (profile : PermissionProfile) (trust : WriterTrust) : Prop where
  floor : hardFloorHits rx candidate = []
  writer : trust ∈ promotionEligibleWriters
  profile : profile ∈ promotablePermissionProfiles
  persona : settings.persona ∈ autoPromotingPersonas
  filters : ∀ f ∈ settings.escalationFilters,
    escalationFilterFires rx settings candidate f = false

/-- **The promotion answer, layer by layer.** A candidate is promoted exactly
when no layer objects. -/
theorem autoPromote_iff {settings : PromotionSettings} {candidate : PromotionCandidate}
    {profile : PermissionProfile} {trust : WriterTrust} :
    (evaluatePromotionFor rx settings candidate profile trust).autoPromote = true ↔
      PromotionClear rx settings candidate profile trust := by
  have htier : (evaluatePromotionFor rx settings candidate profile trust).autoPromote = true ↔
      (promotionTier (hardFloorHits rx candidate) (escalationFilterHits rx settings candidate)
        trust profile settings.persona).1 = .autoPromote := by
    simp [evaluatePromotionFor]
  rw [htier]
  constructor
  · intro h
    unfold promotionTier at h
    -- every tier but the last contradicts the answer
    split_ifs at h with hfloor hwriter hprofile hpersona hfilters
    exact ⟨not_not.mp hfloor, hwriter, hprofile, hpersona,
      (escalationFilterHits_eq_nil rx).mp (not_not.mp hfilters)⟩
  · intro h
    have hfilters := (escalationFilterHits_eq_nil rx).mpr h.filters
    simp [promotionTier, h.floor, h.writer, h.profile, h.persona, hfilters]

end AliceBot
