import Mathlib.Data.List.Sort
import AliceBot.Library.Effect
import AliceBot.Library.Run
import AliceBot.Library.Table
import AliceBot.CommitPolicy
import AliceBot.Lifecycle
import AliceBot.Timestamps

/-!
# The memory store

The rows of `memories` and the store operations the memory-commit service is
written with (`sqlite_store`, `vnext_stores.sqlite`). A service call is a
computation in `Service`: it reads and writes the `Store` and returns or
raises, and a raise keeps what was written so far.

What the service reads beside its arguments and the store is collected in
`Env`: the clock, fresh identifiers, the persona configured, and the code a
commit calls without depending on its answer (embeddings, entity links).
-/

namespace AliceBot

open PyLib

/-! ### Rows -/

/-- The end or the start of a validity window as stored. A text that is no
timestamp is a legacy value. -/
inductive ValidityEnd where
  | moment (instant : UtcMoment)
  | text (raw : String)
deriving DecidableEq

/-- The text in the column. -/
def ValidityEnd.stored : ValidityEnd → String
  | .moment u => stampText false u
  | .text s => s

/-- The columns of a row of `memories` that a lifecycle call reads or writes. -/
structure MemoryRow where
  id : String
  memoryKey : String
  value : Json
  status : MemoryStatus
  memoryType : String
  confidence : Option Rat
  confirmationStatus : String
  promotionEligibility : String
  validFrom : Option ValidityEnd
  validTo : Option ValidityEnd
  lastConfirmedAt : Option UtcMoment
  title : Option String
  canonicalText : String
  summary : Option String
  domain : String
  sensitivity : String
  lastReviewedAt : Option UtcMoment
  metadataJson : Dict Json
  commitDigest : Option String
  confirmationId : Option String
  projectId : Option String
  createdByAgentId : Option String
  runId : Option String
  supersededBy : Option String
  supersedes : Option String
  createdAt : UtcMoment
  updatedAt : UtcMoment
  deletedAt : Option UtcMoment

/-- `VNEXT_DOMAINS`. -/
def vnextDomains : List String :=
  ["professional", "personal", "family", "health", "spiritual", "financial", "legal", "learning",
    "relationship", "project", "agent_run", "system", "unknown"]

/-- `VNEXT_SENSITIVITY_LEVELS`. -/
def vnextSensitivityLevels : List String :=
  ["public", "internal", "private", "confidential", "highly_sensitive", "sacred", "regulated",
    "unknown"]

/-- `VNEXT_MEMORY_TYPES`. -/
def vnextMemoryTypes : List String :=
  ["preference", "identity_fact", "relationship_fact", "project_fact", "decision", "commitment",
    "routine", "procedure", "constraint", "working_style", "episode", "semantic", "project_state",
    "belief", "thesis", "person", "relationship", "open_loop", "value", "pattern",
    "contradiction", "question", "answer", "artifact_summary", "agent_run", "system"]

namespace MemoryRow

/-- `memories_valid_range_check`, on the texts. -/
def validRange (row : MemoryRow) : Bool :=
  match row.validFrom, row.validTo with
  | some start, some stop => decide (start.stored ≤ stop.stored)
  | _, _ => true

/-- The `CHECK` constraints of `memories` on these columns. -/
def checks (row : MemoryRow) : Bool :=
  decide (row.memoryType ∈ vnextMemoryTypes) && decide (row.domain ∈ vnextDomains)
    && decide (row.sensitivity ∈ vnextSensitivityLevels)
    && row.confidence.all (fun q => decide (0 ≤ q) && decide (q ≤ 1)) && row.validRange

/-- The row as the scope resolver reads it: `expose_memory_project_scope` has
put the resolved scope at its root. -/
def resource (row : MemoryRow) : Dict Json :=
  let columns : Dict Json :=
    [("project_id", .optStr row.projectId), ("metadata_json", .obj row.metadataJson)]
  columns.set "project_scope" (.strs (resolveProjectScope columns).values)

/-- `resource_project_scope`. -/
def projectScope (row : MemoryRow) : List String := (resolveProjectScope row.resource).values

/-- `_agentic_metadata`. -/
def agentic (row : MemoryRow) : Dict Json := row.metadataJson.getObj "agentic_memory"

/-- `get_memory` finds the row. -/
def present (row : MemoryRow) : Bool := row.deletedAt.isNone

end MemoryRow

/-- `_supersession_pointer`: the column first, then the metadata copy. -/
def supersessionPointer (row : MemoryRow) : Option String :=
  match row.supersededBy.filter (· ≠ "") with
  | some id => some id
  | none => (row.metadataJson.getStr? "superseded_by").filter (· ≠ "")

/-- The `patch` of `update_memory`. Every column is written through
`COALESCE`, so an absent value keeps the old one. -/
structure MemoryPatch where
  value : Option Json := none
  status : Option MemoryStatus := none
  confirmationStatus : Option String := none
  promotionEligibility : Option String := none
  validTo : Option ValidityEnd := none
  lastConfirmedAt : Option UtcMoment := none
  title : Option String := none
  canonicalText : Option String := none
  summary : Option String := none
  lastReviewedAt : Option UtcMoment := none
  metadataJson : Option (Dict Json) := none
  supersededBy : Option String := none
  supersedes : Option String := none

/-- The row `update_memory` leaves, at the two readings of the clock it makes. -/
def MemoryPatch.apply (patch : MemoryPatch) (now deletedNow : UtcMoment) (row : MemoryRow) :
    MemoryRow :=
  { row with
    value := patch.value.getD row.value
    status := patch.status.getD row.status
    confirmationStatus := patch.confirmationStatus.getD row.confirmationStatus
    promotionEligibility := patch.promotionEligibility.getD row.promotionEligibility
    validTo := patch.validTo.or row.validTo
    lastConfirmedAt := patch.lastConfirmedAt.or row.lastConfirmedAt
    title := patch.title.or row.title
    canonicalText := patch.canonicalText.getD row.canonicalText
    summary := patch.summary.or row.summary
    lastReviewedAt := patch.lastReviewedAt.or row.lastReviewedAt
    metadataJson := patch.metadataJson.getD row.metadataJson
    supersededBy := patch.supersededBy.or row.supersededBy
    supersedes := patch.supersedes.or row.supersedes
    updatedAt := now
    deletedAt := if patch.status = some .archived then some deletedNow else row.deletedAt }

/-! ### The store -/

/-- The columns of a row of `event_log` that the service reads back. -/
structure LoggedEvent where
  id : String
  eventType : String
  actorType : String
  actorId : Option String
  targetType : Option String
  targetId : Option String
  occurredAt : UtcMoment
deriving DecidableEq

/-- A row of the revision log. -/
structure RevisionRow where
  memoryId : String
  memoryKey : String
  revisionType : String
  action : String
  textBefore : Option String
  textAfter : String
  reason : String
  actorType : String
  actorId : Option String
deriving DecidableEq

/-- One user's tables. `ticks` counts the readings of clock and identifiers. -/
structure Store where
  memories : Table MemoryRow.id
  events : List LoggedEvent := []
  revisions : List RevisionRow := []
  ticks : Nat := 0

/-- What a service call raises. -/
inductive ServiceError where
  /-- `VNextMemoryCommitValidationError`. -/
  | validation (message : String)
  /-- `AgentPolicyBlockedError`. -/
  | policyBlocked (decision : PolicyDecision)
  /-- `ContinuityStoreInvariantError`. -/
  | storeInvariant (message : String)
  /-- A constraint of the database. -/
  | integrity
  /-- `_IdempotentReplaySignal`. -/
  | idempotentReplay (memory : MemoryRow)
  /-- `PromotionSettingsValidationError`. -/
  | promotionSettings (error : PromotionSettingsValidationError)
  /-- A `TypeError` or `OverflowError` of the language. -/
  | python (message : String)

abbrev Service := EStateM ServiceError Store

/-- A clock that is never set back. -/
structure WallClock where
  read : Nat → UtcMoment
  mono : ∀ {m n}, m ≤ n → (read m).instant ≤ (read n).instant

/-- What a service call reads beside its arguments and the store. -/
structure Env where
  rx : PatternEngine
  clock : WallClock
  /-- `str(uuid4())`. -/
  uuid : Nat → String
  /-- `datetime.fromisoformat`, where it does not raise. -/
  fromisoformat : String → Option PyDateTime
  /-- `str(UUID(text))`, where it does not raise. -/
  uuidText : String → Option String
  /-- Whether `sources` has a row of the id. The service writes none. -/
  hasSource : String → Bool
  /-- `str(value)` of a JSON value that is no string. -/
  repr : Json → String
  /-- `_request_fingerprint`. -/
  requestFingerprint : MemoryCommitRequest → String
  /-- The digest of title, canonical text, summary and value. -/
  contentDigest : Option String → String → Option String → Json → String
  /-- `VNextMemoryCommitService.promotion_settings`. -/
  promotionSettings : Option PromotionSettings := none
  ownerVerified : Bool := false
  /-- The signature of the embedding a provider returned, if one did. -/
  embeddingSignature : MemoryRow → Option Json := fun _ => none
  /-- The events logged while the entities of a row were linked. -/
  linkEntities : MemoryRow → String → List String := fun _ _ => []
  /-- The events logged while its old entity links were expired. -/
  expireEntityLinks : MemoryRow → String → Except ServiceError (List String) := fun _ _ => .ok []
  /-- `supersession_event_time`. -/
  supersessionEventTime : MemoryRow → Option UtcMoment := fun _ => none
  /-- `julianday()` of the store. -/
  julianday : JulianDay := .rounding

variable (env : Env)

/-- `str(value)`. -/
def Env.str : Json → String
  | .str s => s
  | v => env.repr v

/-! ### Primitives -/

/-- One reading of the clock. -/
def utcNow : Service UtcMoment :=
  modifyGet fun s => (env.clock.read s.ticks, { s with ticks := s.ticks + 1 })

/-- One fresh identifier. -/
def newId : Service String :=
  modifyGet fun s => (env.uuid s.ticks, { s with ticks := s.ticks + 1 })

/-- Who acts: an agent, the user or the system. -/
structure Actor where
  type : String
  id : Option String

/-- `"agent" if identity is not None else "user"`, with the agent's id. -/
def actorOf : Option AgentIdentity → Actor
  | some agent => ⟨"agent", some agent.agentId⟩
  | none => ⟨"user", none⟩

/-- `append_event`. -/
def appendEvent (eventType : String) (actor : Actor) (targetType targetId : Option String) :
    Service Unit := do
  let id ← newId env
  let occurredAt ← utcNow env
  modify fun s => { s with events := s.events ++
    [⟨id, eventType, actor.type, actor.id, targetType, targetId, occurredAt⟩] }

/-- An event on a memory. -/
def appendMemoryEvent (eventType : String) (actor : Actor) (memoryId : String) : Service Unit :=
  appendEvent env eventType actor (some "memory") (some memoryId)

/-- `append_revision`. -/
def appendRevision (revision : RevisionRow) : Service Unit :=
  modify fun s => { s with revisions := s.revisions ++ [revision] }

/-- The revision of a row that was updated. -/
def reviseMemory (memory updated : MemoryRow) (revisionType action textAfter reason : String)
    (actor : Actor) : Service Unit :=
  appendRevision
    { memoryId := updated.id
      memoryKey := updated.memoryKey
      revisionType := revisionType
      action := action
      textBefore := some memory.canonicalText
      textAfter := textAfter
      reason := reason
      actorType := actor.type
      actorId := actor.id }

/-! ### Reading -/

namespace Store

/-- `get_memory` and `get_memory_for_update`. -/
def getMemory (s : Store) (memoryId : String) : Option MemoryRow :=
  (s.memories.get? memoryId).filter MemoryRow.present

/-- The rows `get_memory` finds that satisfy a condition. -/
def select (s : Store) (p : MemoryRow → Bool) : List MemoryRow :=
  s.memories.rows.filter fun row => row.present && p row

/-- `ORDER BY … DESC, id DESC LIMIT 1`. -/
def latest (key : MemoryRow → List Int) (rows : List MemoryRow) : Option MemoryRow :=
  (rows.mergeSort fun a b =>
    decide (key b < key a) || (decide (key a = key b) && decide (b.id ≤ a.id))).head?

/-- `get_memory_by_commit_digest`. -/
def byCommitDigest (s : Store) (digest : String) : Option MemoryRow :=
  latest (fun row => [row.createdAt.instant])
    (s.select fun row => row.commitDigest == some digest)

/-- `get_memory_by_confirmation_id`. -/
def byConfirmationId (s : Store) (confirmationId : String) : Option MemoryRow :=
  latest (fun row => [row.createdAt.instant])
    (s.select fun row => row.confirmationId == some confirmationId)

/-- `latest_agentic_commit_memory`. -/
def latestAgenticCommit (s : Store) (agentId : Option String) : Option MemoryRow :=
  latest (fun row => [row.updatedAt.instant, row.createdAt.instant]) <|
    s.select fun row =>
      row.status == .active
        && row.agentic.getStr? "kind" == some "agentic_memory_commit"
        && (agentId.isNone || row.agentic.getStr? "agent_id" == agentId
          || (row.agentic.getObj "agent_identity").getStr? "agent_id" == agentId)

/-- The text `CAST(json_extract(snapshot.value, '$.id') AS TEXT)`. -/
def snapshotIdText (snapshot : Json) : Option String :=
  match snapshot.objOrEmpty.item "id" with
  | .null => none
  | v => some (env.str v)

/-- The snapshots `json_each(…, '$.consolidation.member_snapshots')` lists. -/
def memberSnapshots (row : MemoryRow) : List Json :=
  match (row.metadataJson.getObj "consolidation").item "member_snapshots" with
  | .arr items => items
  | .obj fields => fields.map (·.2)
  | _ => []

/-- `list_pending_derived_candidates_for_member`. -/
def pendingDerivedCandidates (s : Store) (memberId : String) (excludeMemoryId : Option String) :
    List MemoryRow :=
  (s.select fun row =>
      decide (row.status ∈ [MemoryStatus.candidate, .needsReview])
        && (excludeMemoryId.all fun id => row.id != id)
        && (memberSnapshots row).any fun snapshot => snapshotIdText env snapshot == some memberId)
    |>.mergeSort fun a b => decide (a.id ≤ b.id)

/-- `julianday(a) <= julianday(b)`. -/
def juliandayLe (a b : UtcMoment) : Bool :=
  decide (env.julianday.read a.instant ≤ env.julianday.read b.instant)

/-- `list_events`, the newest text first. The window is compared by `julianday`. -/
def listEvents (s : Store) (targetType : String) (since till : Option UtcMoment) :
    List LoggedEvent :=
  (s.events.filter fun e =>
      e.targetType == some targetType
        && (since.all fun start => juliandayLe env start e.occurredAt)
        && (till.all fun stop => juliandayLe env e.occurredAt stop))
    |>.insertionSort fun a b =>
      stampText false b.occurredAt < stampText false a.occurredAt ∨
        stampText false b.occurredAt = stampText false a.occurredAt ∧ b.id ≤ a.id

end Store

/-! ### Writing -/

/-- The columns handed to `create_memory`. -/
structure NewMemory where
  memoryType : String
  memoryKey : String
  value : Json
  status : MemoryStatus
  confirmationStatus : String
  confidence : Option Rat
  title : Option String
  canonicalText : String
  summary : Option String
  domain : String
  sensitivity : String
  lastConfirmedAt : Option UtcMoment := none
  metadataJson : Dict Json
  commitDigest : Option String
  confirmationId : Option String := none
  projectScope : List String
  projectId : Option String
  createdByAgentId : Option String
  runId : Option String

/-- `canonical_memory_metadata`. -/
def canonicalMemoryMetadata (memory : NewMemory) : Dict Json :=
  let resolution := resolveProjectScope [("project_scope", .strs memory.projectScope),
    ("project_id", .optStr memory.projectId), ("metadata_json", .obj memory.metadataJson)]
  if resolution.present ∨ resolution.values ≠ [] then
    memory.metadataJson.set "project_scope" (.strs resolution.values)
  else memory.metadataJson

/-- The row inserted, with the defaults of `create_memory`. -/
def NewMemory.row (memory : NewMemory) (id : String) (now : UtcMoment) : MemoryRow :=
  { id := id
    memoryKey := memory.memoryKey
    value := memory.value
    status := memory.status
    memoryType := memory.memoryType
    confidence := memory.confidence
    confirmationStatus := memory.confirmationStatus
    promotionEligibility := "promotable"
    validFrom := none
    validTo := none
    lastConfirmedAt := memory.lastConfirmedAt
    title := memory.title
    canonicalText := memory.canonicalText
    summary := memory.summary
    domain := memory.domain
    sensitivity := memory.sensitivity
    lastReviewedAt := none
    metadataJson := canonicalMemoryMetadata memory
    commitDigest := memory.commitDigest
    confirmationId := memory.confirmationId
    projectId := memory.projectId
    createdByAgentId := memory.createdByAgentId
    runId := memory.runId
    supersededBy := none
    supersedes := none
    createdAt := now
    updatedAt := now
    deletedAt := none }

/-- `create_memory`. A commit digest that is taken inserts nothing, and the row
is then not found. -/
def createMemory (memory : NewMemory) (actor : Actor) : Service MemoryRow := do
  let id ← newId env
  let now ← utcNow env
  let s ← get
  let row := memory.row id now
  raiseIf (memory.commitDigest.isSome ∧
      ∃ r ∈ s.memories.rows, r.commitDigest = memory.commitDigest)
    (.storeInvariant "create_memory did not return a row from the database")
  raiseIf (row.checks = false ∨ ∃ r ∈ s.memories.rows, r.memoryKey = memory.memoryKey) .integrity
  let memories ← orRaise (s.memories.insert? row) .integrity
  set { s with memories := memories }
  appendMemoryEvent env "memory.created" ⟨actor.type, none⟩ row.id
  pure row

/-- The rewrite `update_memory` performs. -/
def MemoryPatch.rewrite (patch : MemoryPatch) (now deletedNow : UtcMoment) :
    Rewrite MemoryRow.id where
  apply := patch.apply now deletedNow

/-- `update_memory`. The row is patched, if the constraints of the table admit it, and
the update is logged. -/
def updateMemory (memoryId : String) (patch : MemoryPatch) (actor : Actor) :
    Service MemoryRow := do
  let now ← utcNow env
  let deletedNow ← utcNow env
  let s ← get
  let row ← orRaise (s.getMemory memoryId)
    (.storeInvariant "update_memory did not return a row from the database")
  raiseIf ((patch.apply now deletedNow row).checks = false) .integrity
  set { s with memories := s.memories.rewrite memoryId (patch.rewrite now deletedNow) }
  appendMemoryEvent env "memory.updated" ⟨actor.type, none⟩ memoryId
  pure (patch.apply now deletedNow row)

/-- `EMBEDDING_SIGNATURE_METADATA_KEY`. -/
def embeddingSignatureKey : String := "_alice_embedding"

/-- A rewrite of the metadata of a present row, as `json_set` and
`json_remove` do it. -/
def metadataRewrite (f : Dict Json → Dict Json) : Rewrite MemoryRow.id where
  apply row := if row.present then { row with metadataJson := f row.metadataJson } else row
  key_apply row := by split <;> rfl

/-- Rewrite the metadata of one row. -/
def rewriteMetadata (memoryId : String) (f : Dict Json → Dict Json) : Service Unit :=
  modify fun s => { s with memories := s.memories.rewrite memoryId (metadataRewrite f) }

/-- `clear_memory_embedding` drops the signature. -/
def clearMemoryEmbedding (memoryId : String) : Service Unit :=
  rewriteMetadata memoryId fun d => d.filter fun item => item.1 ≠ embeddingSignatureKey

/-- `_attach_or_defer_memory_embedding`: a provider that answered leaves its
signature in the metadata. -/
def attachMemoryEmbedding (memory : MemoryRow) : Service Unit :=
  match env.embeddingSignature memory with
  | none => pure ()
  | some signature => rewriteMetadata memory.id fun d => d.set embeddingSignatureKey signature

/-- `create_provenance_link`, of a memory to a source: the link's identifier and
time, then the foreign key, then the event. No memory that was just inserted
is redacted, so that its quote is not looked at. -/
def createMemoryProvenanceLink (memory : MemoryRow) (actorType sourceId : String) :
    Service Unit := do
  let _ ← newId env
  let _ ← utcNow env
  raiseIf (env.hasSource sourceId = false) .integrity
  appendMemoryEvent env "provenance_link.created" ⟨actorType, none⟩ memory.id

/-- The events of a sub-service, all on one memory. -/
def appendDerivedEvents (eventTypes : List String) (actor : Actor) (memoryId : String) :
    Service Unit :=
  eventTypes.forM fun eventType => appendMemoryEvent env eventType actor memoryId

end AliceBot
