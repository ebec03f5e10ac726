import AliceBot.AgentControl
import AliceBot.Library.Effect
import AliceBot.Library.Table
import AliceBot.Timestamps

/-!
# Agent API keys

`vnext_agent_keys.resolve_agent_identity`: who is the agent that sent this
request? A request carries a raw key, or none, and a payload in which the agent
may claim an id, a permission profile and a project scope. The claims sit at
the root of the payload, in `agent_identity` or in `agent`, and two readers
look for them: `fromPayload` at the root and in `agent_identity`,
`identitySource` in all three places.

`identity_within_grant` says that this does no harm. Whatever the payload
holds, an identity resolved from a key has the id of the key's record, a
profile that ranks no higher and, for a key bound to a project, the scope of
the binding; an identity resolved without a key is taken only while the user
has no active key, and nothing in it says that a key was seen.
-/

namespace AliceBot

open PyLib

/-! ### Key records -/

/-- `PERMISSION_PROFILES`. -/
def permissionProfiles : List PermissionProfile :=
  [.readOnlyAgent, .projectScopedAgent, .trustedLocalAgent, .memoryProposalAgent, .adminAgent]

/-- `PROFILE_PRIVILEGE_ORDER`. -/
def profilePrivilegeOrder : List PermissionProfile :=
  [.readOnlyAgent, .memoryProposalAgent, .projectScopedAgent, .trustedLocalAgent, .adminAgent]

/-- `_PROFILE_RANKS`. -/
def profileRank (profile : PermissionProfile) : Nat := profilePrivilegeOrder.idxOf profile

/-- A row of `agent_api_keys`. The database admits the five agent profiles. -/
structure KeyRecord where
  id : String
  userId : String
  agentId : String
  permissionProfile : PermissionProfile
  projectScope : Option String
  keyHash : String
  keyPrefix : String
  label : Option String
  createdAt : UtcMoment
  revokedAt : Option UtcMoment
  lastUsedAt : Option UtcMoment
  profile_mem : permissionProfile ∈ permissionProfiles

/-- An event of `_append_key_rejection_event`. -/
structure KeyEvent where
  eventType : String
  actorId : String
  targetType : String
  targetId : String
  payload : Dict Json

/-- The keys table, the user the store is open for, and the rejections logged. -/
structure KeyStore where
  userId : String
  keys : Table KeyRecord.id
  events : List KeyEvent := []

/-- What resolving an identity raises. -/
inductive KeyError where
  /-- `AgentIdentityValidationError`. -/
  | validation (message : String)
  /-- `AgentKeyAuthenticationError`. -/
  | authentication (message : String) (statusCode : Nat)
  /-- `ContinuityStoreInvariantError`. -/
  | storeInvariant (message : String)
deriving DecidableEq

abbrev KeyService := EStateM KeyError KeyStore

/-- The functions of the standard library the module calls, and the clock. -/
structure KeyEnv where
  casefold : String → String
  /-- `sha256(…).hexdigest()`. -/
  sha256 : String → String
  /-- `repr` of a string. -/
  repr : String → String
  now : UtcMoment

variable (env : KeyEnv)

/-! ### Claims -/

/-- `AGENT_TYPES`. -/
def agentTypes : List String :=
  ["personal_assistant", "coding_agent", "research_agent", "workflow_agent", "unknown"]

/-- `_optional_text`. -/
def optionalText : Json → Except KeyError (Option String)
  | .null => .ok none
  | .str text => .ok (if collapse text = "" then none else some (collapse text))
  | _ => .error (.validation "agent identity fields must be strings")

/-- `_string_list`, one item. -/
def scopeEntry : Json → Except KeyError Unit
  | .str text =>
    if normalizeProjectIdentifier (.str text) = "" then
      .error (.validation "project_scope identifiers must not be blank")
    else .ok ()
  | _ => .error (.validation "project_scope must be a list of strings")

/-- `_string_list`. -/
def stringList : Json → Except KeyError (List String)
  | .null => .ok []
  | .arr items => do
    items.forM scopeEntry
    pure (normalizeProjectScope (.arr items))
  | _ => .error (.validation "project_scope must be a list of strings")

/-- `_default_agent_type`. -/
def defaultAgentType (agentId : String) : String :=
  if env.casefold agentId = "hermes" then "personal_assistant"
  else if env.casefold agentId = "openclaw" then "coding_agent"
  else "unknown"

/-- `_default_permission_profile`. -/
def defaultPermissionProfile (agentId : String) : String :=
  if env.casefold agentId = "hermes" then "trusted_local_agent"
  else if env.casefold agentId = "openclaw" then "project_scoped_agent"
  else "read_only_agent"

/-- The profile a text names, if it is one of `PERMISSION_PROFILES`. -/
def permissionProfileOf? (text : String) : Option PermissionProfile :=
  permissionProfiles.find? (·.text = text)

/-- The agent type of `from_payload`: the one claimed, or the default. -/
def payloadAgentType (source : Dict Json) (agentId : String) : Except KeyError String := do
  let claimed ← optionalText (source.item "agent_type")
  let agentType := claimed.getD (defaultAgentType env agentId)
  if agentType ∈ agentTypes then pure agentType
  else throw (.validation ("agent_type must be one of " ++ ", ".intercalate agentTypes))

/-- The permission profile of `from_payload`: the one claimed, or the default. -/
def payloadPermissionProfile (source : Dict Json) (agentId : String) :
    Except KeyError PermissionProfile := do
  let claimed ← optionalText (source.item "permission_profile")
  match permissionProfileOf? (claimed.getD (defaultPermissionProfile env agentId)) with
  | some profile => pure profile
  | none => throw (.validation ("permission_profile must be one of "
      ++ ", ".intercalate (permissionProfiles.map (·.text))))

/-- The identity of an agent that has given its id. -/
def identityOf (source : Dict Json) (agentId : String) : Except KeyError AgentIdentity := do
  let agentType ← payloadAgentType env source agentId
  let profile ← payloadPermissionProfile env source agentId
  let agentRunId ← optionalText (source.item "agent_run_id")
  let taskId ← optionalText (source.item "task_id")
  let projectScope ← stringList (source.item "project_scope")
  pure
    { agentId := agentId
      agentType := agentType
      agentRunId := agentRunId
      taskId := taskId
      projectScope := projectScope
      permissionProfile := profile }

/-- `AgentIdentity.from_payload`. -/
def fromPayload (payload : Dict Json) : Except KeyError (Option AgentIdentity) := do
  let source := ((payload.item "agent_identity").asObj?).getD payload
  match ← optionalText (source.item "agent_id") with
  | none => pure none
  | some agentId => do
    let identity ← identityOf env source agentId
    pure (some identity)

/-- `_identity_source`. -/
def identitySource (payload : Dict Json) : Dict Json :=
  match (payload.item "agent_identity").asObj? with
  | some nested => nested
  | none => ((payload.item "agent").asObj?).getD payload

/-- `_claimed_text`. -/
def claimedText : Json → Option String
  | .str text => if collapse text = "" then none else some (collapse text)
  | _ => none

/-- The error of `_claimed_project_scope`. -/
def scopeClaimError : KeyError :=
  .authentication "project_scope claim must be a list of non-blank strings" 403

/-- `_claimed_project_scope`, one item. -/
def claimedScopeEntry : Json → Except KeyError String
  | .str text =>
    if normalizeProjectIdentifier (.str text) = "" then .error scopeClaimError
    else .ok (normalizeProjectIdentifier (.str text))
  | _ => .error scopeClaimError

/-- `_claimed_project_scope`. -/
def claimedProjectScope (source : Dict Json) : Except KeyError (List String) :=
  match source.item "project_scope" with
  | .null => .ok []
  | .arr items => do
    let values ← items.mapM claimedScopeEntry
    pure (normalizeProjectScope (.strs values))
  | _ => .error scopeClaimError

/-! ### Verifying a key -/

/-- `AGENT_KEY_PREFIX`. -/
def agentKeyPrefix : String := "alice_sk_"

/-- `count_active_agent_api_keys`. -/
def KeyStore.countActive (s : KeyStore) : Nat :=
  s.keys.rows.countP fun record => record.revokedAt.isNone && record.userId == s.userId

/-- `get_agent_api_key_by_hash`. -/
def KeyStore.byHash (s : KeyStore) (keyHash : String) : Option KeyRecord :=
  s.keys.rows.find? fun record => record.keyHash == keyHash && record.userId == s.userId

/-- The rewrite of `touch_agent_api_key`. -/
def touchRewrite (now : UtcMoment) (userId : String) : Rewrite KeyRecord.id where
  apply record := if record.userId = userId then { record with lastUsedAt := some now } else record
  key_apply record := by split <;> rfl

/-- `touch_agent_api_key`. -/
def touchAgentApiKey (keyId : String) : KeyService KeyRecord := do
  let s ← get
  let touched := s.keys.rewrite keyId (touchRewrite env.now s.userId)
  let record ← orRaise ((touched.get? keyId).filter (·.userId = s.userId))
    (.storeInvariant "touch_agent_api_key did not return a row from the database")
  set { s with keys := touched }
  pure record

/-- `verify_agent_key`. The record of a key that is known and not revoked, which is
marked as used. -/
def verifyAgentKey (rawKey : String) : KeyService (Option KeyRecord) :=
  if startsWith rawKey agentKeyPrefix then do
    let s ← get
    match s.byHash (env.sha256 rawKey) with
    | none => pure none
    | some record =>
      if record.revokedAt.isSome then pure none
      else do
        let touched ← touchAgentApiKey env record.id
        pure (some touched)
  else pure none

/-- `_append_key_rejection_event`. -/
def appendKeyRejectionEvent (record : KeyRecord) (reason : String) (claimed : Dict Json) :
    KeyService Unit :=
  modify fun s => { s with events := s.events ++
    [{ eventType := "agent.key_escalation_rejected"
       actorId := record.agentId
       targetType := "agent_api_key"
       targetId := record.id
       payload := Dict.update
        [("reason", .str reason), ("key_prefix", .str record.keyPrefix),
          ("granted_permission_profile", .str record.permissionProfile.text)] claimed }] }

/-- Log a rejection and raise. -/
def rejectClaim {α : Type} (record : KeyRecord) (reason : String) (claimed : Dict Json)
    (message : String) : KeyService α := do
  appendKeyRejectionEvent record reason claimed
  throw (.authentication message 403)

/-! ### Resolving an identity -/

/-- The agent id a claim may only repeat. -/
def checkClaimedAgentId (record : KeyRecord) (claimed : Option String) : KeyService Unit :=
  match claimed with
  | none => pure ()
  | some claimedAgentId =>
    if claimedAgentId = record.agentId then pure ()
    else rejectClaim record "agent_id_mismatch" [("claimed_agent_id", .str claimedAgentId)]
      ("agent API key was issued to agent '" ++ record.agentId ++ "' but the payload claims agent '"
        ++ claimedAgentId ++ "'")

/-- The profile a claim may only lower. -/
def effectiveProfile (record : KeyRecord) (claimed : Option String) :
    KeyService PermissionProfile :=
  match claimed with
  | none => pure record.permissionProfile
  | some claimedProfile =>
    match permissionProfileOf? claimedProfile with
    | some profile =>
      if profileRank record.permissionProfile < profileRank profile then escalation claimedProfile
      else pure profile
    | none => escalation claimedProfile
where
  escalation (claimedProfile : String) : KeyService PermissionProfile :=
    rejectClaim record "permission_profile_escalation"
      [("claimed_permission_profile", .str claimedProfile)]
      ("agent API key grants permission_profile '" ++ record.permissionProfile.text
        ++ "'; the payload claims '" ++ claimedProfile ++ "', which is higher. Remove the "
        ++ "claim or request a new key with the required profile.")

/-- The identity claimed, or the one a call without claims gets from its key. -/
def claimedIdentity (record : KeyRecord) :
    Option AgentIdentity → Except KeyError AgentIdentity
  | some claimed => .ok claimed
  | none => do
    let fromKey ← fromPayload env [("agent_id", .str record.agentId),
      ("permission_profile", .str record.permissionProfile.text)]
    pure (fromKey.getD
      { agentId := record.agentId, permissionProfile := record.permissionProfile })

/-- The binding of the key, normalised. -/
def keyProjectScope (record : KeyRecord) : KeyService (Option String) :=
  match record.projectScope with
  | none => pure none
  | some raw =>
    if normalizeProjectIdentifier (.str raw) = "" then
      rejectClaim record "invalid_project_scope_binding" []
        "agent API key has an invalid blank project scope binding"
    else pure (some (normalizeProjectIdentifier (.str raw)))

/-- The claimed projects that leave a binding. -/
def widenedScope (bound : String) (claimedScope : List String) : List String :=
  claimedScope.filter fun value =>
    ¬ projectScopeIdentity (.strs [value]) ⊆ projectScopeIdentity (.strs [bound])

/-- The effective scope, and whether the key locks it. -/
def bindClaimedScope (record : KeyRecord) (claimed : AgentIdentity) (claimedScope : List String) :
    Option String → KeyService (List String × Bool)
  | none => pure (scopeOr claimed.projectScope claimedScope, false)
  | some bound =>
    let widened := widenedScope bound claimedScope
    if widened = [] then pure (scopeOr claimedScope [bound], true)
    else rejectClaim record "project_scope_escalation"
      [("claimed_project_scope", .strs claimedScope), ("granted_project_scope", .str bound)]
      ("agent API key is bound to project scope '" ++ bound ++ "'; the payload claims project(s) "
        ++ ", ".intercalate (widened.map env.repr) ++ " outside that scope. Narrow the claim or "
        ++ "request a key bound to those projects.")

/-- The identity of a request without a key. -/
def resolveKeyless (claimed : Option AgentIdentity) : KeyService (Option AgentIdentity) :=
  match claimed with
  | none => pure none
  | some claimed => do
    let s ← get
    raiseIf (0 < s.countActive) (.authentication
      ("agent API keys are configured for this user; agent calls must "
        ++ "authenticate with 'Authorization: Bearer alice_sk_...' "
        ++ "(create a key with 'alicebot agent keys create')") 401)
    pure (some { claimed with auth := "unauthenticated_local" })

/-- The identity of a request with a verified key. -/
def resolveKeyed (record : KeyRecord) (payload : Dict Json) (claimed : Option AgentIdentity) :
    KeyService (Option AgentIdentity) := do
  let source := identitySource payload
  checkClaimedAgentId record (claimedText (source.item "agent_id"))
  let profile ← effectiveProfile record (claimedText (source.item "permission_profile"))
  let claimed ← raising (claimedIdentity env record claimed)
  let binding ← keyProjectScope record
  let sourceScope ← raising (claimedProjectScope source)
  -- the claim may narrow the binding of the key, and never widen it
  let (projectScope, locked) ← bindClaimedScope env record claimed
    (scopeOr sourceScope claimed.projectScope) binding
  pure (some
    { claimed with
      agentId := record.agentId
      permissionProfile := profile
      projectScope := projectScope
      projectScopeLocked := locked
      auth := agentKeyAuth })

/-- `resolve_agent_identity`. The identity a request has. With a key it is what the
record of the key grants; what the payload claims can only narrow it. -/
def resolveAgentIdentity (userId : String) (rawKey : Option String) (payload : Dict Json) :
    KeyService (Option AgentIdentity) := do
  let claimed ← raising (fromPayload env payload)
  match rawKey with
  | none => resolveKeyless claimed
  | some key =>
    let verified ← verifyAgentKey env key
    let record ← orRaise verified
      (.authentication "agent API key is invalid or has been revoked" 401)
    raiseIf (record.userId ≠ userId)
      (.authentication "agent API key does not belong to this user" 401)
    resolveKeyed env record payload claimed

/-! ### What a key grants -/

/-- The record is one of the user's, not revoked, and the key is its key. -/
structure Authenticates (env : KeyEnv) (s : KeyStore) (userId rawKey : String)
    (record : KeyRecord) : Prop where
  mem : record ∈ s.keys.rows
  user : record.userId = userId
  hash : record.keyHash = env.sha256 rawKey
  active : record.revokedAt = none

/-- The identity stays within what the record grants. -/
structure WithinGrant (record : KeyRecord) (identity : AgentIdentity) : Prop where
  agentId : identity.agentId = record.agentId
  profile : identity.permissionProfile ∈ permissionProfiles ∧
    profileRank identity.permissionProfile ≤ profileRank record.permissionProfile
  scope : ∀ binding, record.projectScope = some binding → identity.projectScopeLocked = true ∧
    projectScopeIdentity (.strs identity.projectScope) ≠ [] ∧
    projectScopeIdentity (.strs identity.projectScope) = projectScopeIdentity (.str binding)

variable {env} {s t : KeyStore} {record : KeyRecord}

theorem rejectClaim_ok {α : Type} {reason message : String} {claimed : Dict Json} {a : α} :
    (rejectClaim record reason claimed message : KeyService α).run s = .ok a t ↔ False := by
  simp only [rejectClaim, run_bind_ok, run_throw_ok, and_false, exists_false]

/-- A record that was verified is the stored one, touched. -/
theorem verifyAgentKey_ok {rawKey : String}
    (h : (verifyAgentKey env rawKey).run s = .ok (some record) t) :
    ∃ stored ∈ s.keys.rows, stored.keyHash = env.sha256 rawKey ∧ stored.revokedAt = none ∧
      record = { stored with lastUsedAt := some env.now } := by
  unfold verifyAgentKey at h
  split at h
  · obtain ⟨_, _, hget, h⟩ := run_bind_ok.mp h
    obtain ⟨rfl, rfl⟩ := run_get_ok.mp hget
    split at h
    · exact absurd (run_pure_ok.mp h).1 (by simp)
    · next stored hstored =>
      have hmem := List.mem_of_find?_eq_some hstored
      have hmatches := List.find?_some hstored
      simp only [Bool.and_eq_true, beq_iff_eq] at hmatches
      split at h
      · exact absurd (run_pure_ok.mp h).1 (by simp)
      · next hactive =>
        simp only [touchAgentApiKey, run_bind_ok, run_get_ok, run_orRaise_ok, run_set_ok,
          run_pure_ok, Option.some.injEq] at h
        obtain ⟨_, _, ⟨_, _, ⟨rfl, rfl⟩, _, _, ⟨htouched, rfl⟩, _, _, -, rfl, -⟩, rfl, -⟩ := h
        -- the touched row is read back under the id of the stored one
        rw [Table.get?_rewrite_self _ (Table.get?_of_mem hmem)] at htouched
        obtain ⟨hrow, -⟩ := Option.filter_eq_some_iff.mp htouched
        refine ⟨stored, hmem, hmatches.1, by simpa using hactive, ?_⟩
        rw [← Option.some.inj hrow]
        exact if_pos hmatches.2
  · exact absurd (run_pure_ok.mp h).1 (by simp)

theorem permissionProfileOf?_mem {text : String} {profile : PermissionProfile}
    (h : permissionProfileOf? text = some profile) : profile ∈ permissionProfiles :=
  List.mem_of_find?_eq_some h

/-- A claim never raises the profile. -/
theorem effectiveProfile_ok {claimed : Option String} {profile : PermissionProfile}
    (h : (effectiveProfile record claimed).run s = .ok profile t) :
    profile ∈ permissionProfiles ∧
      profileRank profile ≤ profileRank record.permissionProfile := by
  cases claimed with
  | none =>
    obtain ⟨rfl, -⟩ := run_pure_ok.mp h
    exact ⟨record.profile_mem, Nat.le_refl _⟩
  | some text =>
    simp only [effectiveProfile] at h
    split at h
    · next claimedProfile hclaimed =>
      split at h
      · exact (rejectClaim_ok.mp h).elim
      · next hrank =>
        obtain ⟨rfl, -⟩ := run_pure_ok.mp h
        exact ⟨permissionProfileOf?_mem hclaimed, Nat.le_of_not_lt hrank⟩
    · exact (rejectClaim_ok.mp h).elim

/-- The binding of a key names a project. -/
theorem keyProjectScope_ok {binding : Option String}
    (h : (keyProjectScope record).run s = .ok binding t) {raw : String}
    (hraw : record.projectScope = some raw) :
    binding = some (normalizeProjectIdentifier (.str raw)) ∧
      normalizeProjectIdentifier (.str raw) ≠ "" := by
  rw [keyProjectScope, hraw] at h
  dsimp only at h
  split at h
  · exact (rejectClaim_ok.mp h).elim
  · next hne => exact ⟨(run_pure_ok.mp h).1.symm, hne⟩

/-- The normal forms a reader of scopes returns name projects. -/
def NamesProjects (scope : List String) : Prop :=
  ∀ value ∈ scope, normalizeProjectIdentifier (.str value) ≠ ""

theorem namesProjects_normalizeProjectScope (value : Json) :
    NamesProjects (normalizeProjectScope value) := by
  intro x hx
  obtain ⟨hne, hnormal⟩ := normal_of_mem_scopeItems (mem_fromkeys.mp hx)
  rw [hnormal]
  exact hne

theorem claimedProjectScope_names {source : Dict Json} {scope : List String}
    (h : claimedProjectScope source = .ok scope) : NamesProjects scope := by
  unfold claimedProjectScope at h
  split at h
  · obtain rfl := Except.ok.inj h
    exact fun _ hvalue => absurd hvalue List.not_mem_nil
  · obtain ⟨values, -, hscope⟩ := except_bind_ok.mp h
    obtain rfl := Except.ok.inj hscope
    exact namesProjects_normalizeProjectScope _
  · exact absurd h (by simp)

theorem stringList_names {value : Json} {scope : List String} (h : stringList value = .ok scope) :
    NamesProjects scope := by
  unfold stringList at h
  split at h
  · obtain rfl := Except.ok.inj h
    exact fun _ hvalue => absurd hvalue List.not_mem_nil
  · obtain ⟨_, -, hscope⟩ := except_bind_ok.mp h
    obtain rfl := Except.ok.inj hscope
    exact namesProjects_normalizeProjectScope _
  · exact absurd h (by simp)

/-- An identity read from a payload claims projects that have a name, and no
lock. -/
theorem fromPayload_ok {payload : Dict Json} {identity : AgentIdentity}
    (h : fromPayload env payload = .ok (some identity)) :
    NamesProjects identity.projectScope ∧ identity.projectScopeLocked = false := by
  obtain ⟨agentId, -, h⟩ := except_bind_ok.mp h
  cases agentId with
  | none => exact absurd (Except.ok.inj h) (by simp)
  | some agentId =>
    obtain ⟨found, hfound, h⟩ := except_bind_ok.mp h
    obtain rfl := Option.some.inj (Except.ok.inj h)
    obtain ⟨_, -, hfound⟩ := except_bind_ok.mp hfound
    obtain ⟨_, -, hfound⟩ := except_bind_ok.mp hfound
    obtain ⟨_, -, hfound⟩ := except_bind_ok.mp hfound
    obtain ⟨_, -, hfound⟩ := except_bind_ok.mp hfound
    obtain ⟨scope, hscope, hfound⟩ := except_bind_ok.mp hfound
    obtain rfl := Except.ok.inj hfound
    exact ⟨stringList_names hscope, rfl⟩

/-- So does the identity a keyed call goes on with. -/
theorem claimedIdentity_ok {claimed : Option AgentIdentity} {identity : AgentIdentity}
    (hclaimed : ∀ agent ∈ claimed, NamesProjects agent.projectScope)
    (h : claimedIdentity env record claimed = .ok identity) :
    NamesProjects identity.projectScope := by
  cases claimed with
  | some agent =>
    obtain rfl := Except.ok.inj h
    exact hclaimed agent rfl
  | none =>
    obtain ⟨fromKey, hfromKey, hidentity⟩ := except_bind_ok.mp h
    obtain rfl := Except.ok.inj hidentity
    cases fromKey with
    | none => exact fun _ hvalue => absurd hvalue List.not_mem_nil
    | some agent => exact (fromPayload_ok hfromKey).1

/-- **The binding is exact.** A claim that is not refused names the bound project
and no other; without a claim the binding is inherited. -/
theorem bindClaimedScope_ok {claimed : AgentIdentity} {claimedScope scope : List String}
    {raw : String} {locked : Bool} (hnames : NamesProjects claimedScope)
    (hraw : normalizeProjectIdentifier (.str raw) ≠ "")
    (h : (bindClaimedScope env record claimed claimedScope
      (some (normalizeProjectIdentifier (.str raw)))).run s = .ok (scope, locked) t) :
    locked = true ∧ projectScopeIdentity (.strs scope) ≠ [] ∧
      projectScopeIdentity (.strs scope) = projectScopeIdentity (.str raw) := by
  have hbound : projectScopeIdentity (.strs [normalizeProjectIdentifier (.str raw)]) =
      projectScopeIdentity (.str raw) := by
    have hsingle : projectScopeIdentity (.strs [normalizeProjectIdentifier (.str raw)]) =
        projectScopeIdentity (.str (normalizeProjectIdentifier (.str raw))) := by
      simp [projectScopeIdentity, normalizeProjectScope, Json.strs, scopeItems, scopeItemsOfList]
    rw [hsingle, projectScopeIdentity_normalized]
  have hraw' := projectScopeIdentity_str hraw
  unfold bindClaimedScope at h
  dsimp only at h
  split at h
  · next hwidened =>
    obtain ⟨hpair, -⟩ := run_pure_ok.mp h
    obtain ⟨rfl, rfl⟩ := Prod.mk.inj hpair
    refine ⟨rfl, ?_⟩
    by_cases hempty : claimedScope = []
    · -- nothing is claimed: the binding is inherited
      rw [scopeOr, if_pos hempty, hbound, hraw']
      exact ⟨by simp, rfl⟩
    · rw [scopeOr, if_neg hempty]
      have hsub : projectScopeIdentity (.strs claimedScope) ⊆ projectScopeIdentity (.str raw) := by
        intro x hx
        rw [Json.strs, mem_projectScopeIdentity_arr] at hx
        obtain ⟨_, hitem, hx⟩ := hx
        obtain ⟨value, hvalue, rfl⟩ := List.mem_map.mp hitem
        have hinside := List.filter_eq_nil_iff.mp hwidened value hvalue
        rw [decide_eq_true_eq, not_not, hbound] at hinside
        exact hinside (mem_projectScopeIdentity_singleton.mpr hx)
      have hne : projectScopeIdentity (.strs claimedScope) ≠ [] := by
        obtain ⟨value, hvalue⟩ := List.exists_mem_of_ne_nil _ hempty
        have hmem : projectIdentifierIdentity (.str (normalizeProjectIdentifier (.str value))) ∈
            projectScopeIdentity (.strs claimedScope) := by
          rw [Json.strs, mem_projectScopeIdentity_arr]
          refine ⟨.str value, List.mem_map_of_mem hvalue, ?_⟩
          rw [projectScopeIdentity_str (hnames value hvalue)]
          exact List.mem_singleton.mpr rfl
        exact List.ne_nil_of_mem hmem
      refine ⟨hne, ?_⟩
      rw [hraw'] at hsub ⊢
      exact projectScopeIdentity_eq_singleton hsub hne
  · exact (rejectClaim_ok.mp h).elim

/-- **With a verified key.** -/
theorem resolveKeyed_ok {payload : Dict Json} {claimed : Option AgentIdentity}
    {identity : AgentIdentity} (hclaimed : ∀ agent ∈ claimed, NamesProjects agent.projectScope)
    (h : (resolveKeyed env record payload claimed).run s = .ok (some identity) t) :
    WithinGrant record identity := by
  simp only [resolveKeyed, run_bind_ok, run_raising_ok, run_pure_ok, Option.some.injEq] at h
  obtain ⟨_, _, -, profile, _, hprofile, agent, _, ⟨hagent, rfl⟩, binding, _, hbinding,
    sourceScope, _, ⟨hsource, rfl⟩, ⟨scope, locked⟩, _, hscope, rfl, -⟩ := h
  refine ⟨rfl, effectiveProfile_ok hprofile, fun raw hraw => ?_⟩
  obtain ⟨rfl, hne⟩ := keyProjectScope_ok hbinding hraw
  refine bindClaimedScope_ok ?_ hne hscope
  unfold scopeOr
  split
  · exact claimedIdentity_ok hclaimed hagent
  · exact claimedProjectScope_names hsource

/-- **Without a key.** -/
theorem resolveKeyless_ok {claimed : Option AgentIdentity} {identity : AgentIdentity}
    (hclaimed : ∀ agent ∈ claimed, agent.projectScopeLocked = false)
    (h : (resolveKeyless claimed).run s = .ok (some identity) t) :
    (∀ record ∈ s.keys.rows, record.userId = s.userId → record.revokedAt ≠ none) ∧
      identity.auth ≠ agentKeyAuth ∧ identity.projectScopeLocked = false := by
  cases claimed with
  | none => exact absurd (run_pure_ok.mp h).1 (by simp)
  | some agent =>
    simp only [resolveKeyless, run_bind_ok, run_get_ok, run_raiseIf_ok, run_pure_ok,
      Option.some.injEq] at h
    obtain ⟨_, _, ⟨rfl, rfl⟩, _, _, ⟨hnone, -⟩, rfl, -⟩ := h
    have hauth : "unauthenticated_local" ≠ agentKeyAuth := by decide
    refine ⟨fun record hrecord huser hactive => hnone ?_, hauth, hclaimed agent rfl⟩
    refine List.countP_pos_iff.mpr ⟨record, hrecord, ?_⟩
    simp [hactive, huser]

/-- **A key never grants more than its record.** -/
theorem identity_within_grant (env : KeyEnv) (s t : KeyStore) (userId : String)
    (rawKey : Option String) (payload : Dict Json) (identity : AgentIdentity)
    (h : (resolveAgentIdentity env userId rawKey payload).run s = .ok (some identity) t) :
    match rawKey with
    | some key => ∃ record, Authenticates env s userId key record ∧ WithinGrant record identity
    | none => (∀ record ∈ s.keys.rows, record.userId = s.userId → record.revokedAt ≠ none) ∧
        identity.auth ≠ agentKeyAuth ∧ identity.projectScopeLocked = false := by
  simp only [resolveAgentIdentity, run_bind_ok, run_raising_ok] at h
  obtain ⟨claimed, _, ⟨hclaimed, rfl⟩, h⟩ := h
  have hagent : ∀ agent ∈ claimed,
      NamesProjects agent.projectScope ∧ agent.projectScopeLocked = false := by
    rintro agent rfl
    exact fromPayload_ok hclaimed
  cases rawKey with
  | none => exact resolveKeyless_ok (fun agent hmem => (hagent agent hmem).2) h
  | some key =>
    simp only [run_bind_ok, run_orRaise_ok, run_raiseIf_ok, not_not] at h
    obtain ⟨verified, _, hverified, record, _, ⟨rfl, rfl⟩, _, _, ⟨huser, rfl⟩, hkeyed⟩ := h
    obtain ⟨stored, hmem, hhash, hactive, rfl⟩ := verifyAgentKey_ok hverified
    -- touching the record leaves everything the identity is bound by
    obtain ⟨hid, hprofile, hscope⟩ :=
      resolveKeyed_ok (fun agent hagent' => (hagent agent hagent').1) hkeyed
    exact ⟨stored, ⟨hmem, huser, hhash, hactive⟩, ⟨hid, hprofile, hscope⟩⟩

/-- Casefolding of ASCII, and a digest that keeps the key. -/
def KeyEnv.plain : KeyEnv := { casefold := asciiLower, sha256 := id, repr := id, now := noon }

/-- A key of the agent `scout`, bound to the project `Atlas`. -/
def atlasKey : KeyRecord where
  id := "k1"
  userId := "u1"
  agentId := "scout"
  permissionProfile := .trustedLocalAgent
  projectScope := some "Atlas"
  keyHash := "alice_sk_secret"
  keyPrefix := "alice_sk_sec"
  label := none
  createdAt := noon
  revokedAt := none
  lastUsedAt := none
  profile_mem := by decide

/-- The store with that key alone. -/
def atlasKeys : KeyStore := { userId := "u1", keys := ⟨[atlasKey], List.nodup_singleton _⟩ }

/-- A payload that lowers the profile and claims another project in a place the
scope is not read from. -/
def nestedClaims : Dict Json :=
  [("agent_id", .str "scout"), ("project_scope", .arr [.str "other"]),
    ("agent", .obj [("permission_profile", .str "read_only_agent"),
      ("project_scope", .arr [.str " atlas "])])]

/-- The identity the key grants for it. -/
def nestedIdentity : AgentIdentity :=
  { agentId := "scout"
    projectScope := ["atlas"]
    auth := agentKeyAuth
    projectScopeLocked := true }

theorem identity_within_grant_nested :
    ∃ record, Authenticates .plain atlasKeys "u1" "alice_sk_secret" record ∧
      WithinGrant record nestedIdentity := by
  have hrun : answers (fun answer => decide (answer = some nestedIdentity))
      ((resolveAgentIdentity .plain "u1" (some "alice_sk_secret") nestedClaims).run atlasKeys) =
        true := by
    decide +kernel
  obtain ⟨answer, hok, hanswer⟩ := exists_ok_of_answers hrun
  rw [of_decide_eq_true hanswer] at hok
  exact identity_within_grant .plain atlasKeys _ "u1" (some "alice_sk_secret") nestedClaims
    nestedIdentity hok

end AliceBot
