import AliceBot.Library.Sweep
import AliceBot.EventWriters
import AliceBot.MemoryStore

/-!
# Redaction of a memory

`redact_memory_bundle` on SQLite rewrites four tables: the quotes of the
memory's provenance links, its revisions, the events that carry it, and its
row. What it leaves is described three times in the source: by the columns it
writes, by the condition under which it writes them, and by the query
`memory_redaction_bundle_is_exact` and the predicate `is_redacted_memory` that
recognise the result. This file gives all of them, and the statements that may
come between: new rows, events, revisions and links with any content, and any
rewriting of a row.
-/

namespace AliceBot

open PyLib

/-! ### The marker -/

/-- `REDACTION_MARKER`. -/
def redactionMarker : String := "[REDACTED]"

/-- `REDACTED_JSON_VALUE`. -/
def redactedJsonValue : Json := .obj [("redacted", .bool true)]

/-- The keys of `metadata_json` that survive a redaction. -/
def structuralKeys : List String :=
  ["project_id", "project_scope", "superseded_by", "supersedes", "run_id", "agent_id",
    "created_by_agent_id"]

/-- `redacted_memory_metadata`. -/
def redactedMemoryMetadata (metadata : Dict Json) (redactedAt : String) : Dict Json :=
  metadata.pick structuralKeys ++ [("redacted", .bool true), ("redacted_at", .str redactedAt)]

/-- `REDACTED_MEMORY_METADATA_KEYS`. -/
def redactedMemoryMetadataKeys : List String := structuralKeys ++ ["redacted", "redacted_at"]

/-- `PRIOR_REDACTED_MEMORY_METADATA_KEYS`. -/
def priorRedactedMemoryMetadataKeys : List String :=
  redactedMemoryMetadataKeys ++ ["consolidation_digest", "source_refs"]

/-- `value == True` of a JSON value, and `value IS 1` of the extracted one. -/
def equalsTrue : Json → Bool
  | .bool b => b
  | .int n => n == 1
  | .float q => q == 1
  | _ => false

/-- `dict(value) == REDACTED_JSON_VALUE`. -/
def equalsRedactedJsonValue : Json → Bool
  | .obj [(key, value)] => key == "redacted" && equalsTrue value
  | _ => false

/-! ### Rows -/

/-- A character of the text of a UUID. -/
def isUuidChar (c : Char) : Bool := c.isDigit || (decide ('a' ≤ c) && decide (c ≤ 'f')) || c == '-'

/-- The id of a memory: the text of a UUID. -/
structure MemoryId where
  text : String
  nonempty : text ≠ ""
  uuid : ∀ c ∈ text.toList, isUuidChar c = true

/-- The columns of a row of `memories` that a redaction reads or writes, beside
those of `MemoryRow`. -/
structure RedactableMemory extends MemoryRow where
  agentProfileId : String := "assistant_default"
  trustReason : Option String := none
  sourceEventIds : List Json := []
  embedding : Option (List Rat) := none
  factKeys : Option String := none

/-- A JSON text in a column: its value, and whether it is spelled the way
`_json_object_text` spells it. -/
structure JsonText where
  value : Json
  compact : Bool := true
deriving DecidableEq

/-- A row of `memory_revisions`. -/
structure RevisionRecord where
  id : String
  memoryId : String
  sequenceNo : Nat
  action : String
  memoryKey : String
  previousValue : Option JsonText
  newValue : Option JsonText
  sourceEventIds : Json
  candidate : Json
  revisionNumber : Nat
  revisionType : String
  textBefore : Option String
  textAfter : String
  reason : Option String
  actorType : String
  actorId : Option String
  metadataJson : Json
  createdAt : String

/-- The columns of a row of `provenance_links` that a redaction reads or writes. -/
structure ProvenanceLink where
  id : String
  targetType : String
  targetId : String
  quote : Option String

/-- One user's tables. -/
structure RedactionTables where
  userId : String
  memories : Table fun row : RedactableMemory => row.id
  revisions : List RevisionRecord := []
  events : List EventRow := []
  provenance : List ProvenanceLink := []
  embeddingStamp : Nat := 0

/-- The columns of `MemoryRow` that a redaction writes. -/
def MemoryRow.redacted (row : MemoryRow) (metadata : Dict Json) (now : UtcMoment) : MemoryRow :=
  { row with
    memoryKey := "redacted." ++ row.id
    title := row.title.map fun _ => redactionMarker
    canonicalText := redactionMarker
    summary := row.summary.map fun _ => redactionMarker
    value := redactedJsonValue
    metadataJson := metadata
    commitDigest := none
    confirmationId := none
    status := .archived
    deletedAt := row.deletedAt.or (some now)
    updatedAt := now }

section Memories

variable (env : Env)

/-- `str(metadata.get("redacted_at") or "").strip()`. -/
def redactedAtOf (metadata : Dict Json) : String :=
  strip (if (metadata.item "redacted_at").truthy then env.str (metadata.item "redacted_at") else "")

namespace RedactableMemory

/-- The `SET` clause of the memory update. -/
def redacted (m : RedactableMemory) (metadata : Dict Json) (now : UtcMoment) : RedactableMemory :=
  { m with
    toMemoryRow := m.toMemoryRow.redacted metadata now
    trustReason := m.trustReason.map fun _ => redactionMarker
    sourceEventIds := []
    embedding := none
    factKeys := none }

/-- The `WHERE` clause of the memory update, below the id. -/
def differs (m : RedactableMemory) (metadata : Dict Json) : Bool :=
  m.memoryKey != "redacted." ++ m.id
    || m.title != (m.title.map fun _ => redactionMarker)
    || m.canonicalText != redactionMarker
    || m.summary != (m.summary.map fun _ => redactionMarker)
    || m.trustReason != (m.trustReason.map fun _ => redactionMarker)
    || decide (m.value ≠ redactedJsonValue)
    || decide (m.sourceEventIds ≠ [])
    || decide (m.metadataJson ≠ metadata)
    || m.commitDigest.isSome || m.confirmationId.isSome || m.embedding.isSome || m.factKeys.isSome
    || m.status != .archived || m.deletedAt.isNone

/-- The conditions `is_redacted_memory` and `is_prior_redacted_memory_marker`
share. -/
def markerShape (m : RedactableMemory) (allowedMetadataKeys : List String) : Bool :=
  m.canonicalText == redactionMarker
    && m.title.all (· == redactionMarker)
    && m.summary.all (· == redactionMarker)
    && m.trustReason.all (· == redactionMarker)
    && equalsRedactedJsonValue m.value
    && m.status == .archived
    && m.deletedAt.isSome
    && m.embedding.isNone
    && m.factKeys.isNone
    && m.metadataJson.all (fun item => allowedMetadataKeys.contains item.1)
    && decide (m.metadataJson.item "redacted" = .bool true)
    && redactedAtOf env m.metadataJson != ""

/-- `is_redacted_memory`. A row counts as redacted if every part of it is as a redaction
leaves it. -/
def isRedactedMemory (m : RedactableMemory) : Bool :=
  strip m.id != ""
    && m.memoryKey == "redacted." ++ strip m.id
    && decide (m.sourceEventIds = [])
    && m.commitDigest.isNone
    && m.confirmationId.isNone
    && m.markerShape env redactedMemoryMetadataKeys

/-- `is_prior_redacted_memory_marker`. -/
def isPriorRedactedMemoryMarker (m : RedactableMemory) : Bool :=
  m.markerShape env priorRedactedMemoryMetadataKeys

end RedactableMemory

end Memories

/-- The key of a redacted memory is taken by another row of its profile. -/
def redactedKeyTaken (rows : List RedactableMemory) (current : RedactableMemory) : Bool :=
  rows.any fun row =>
    row.id != current.id && row.agentProfileId == current.agentProfileId
      && row.memoryKey == "redacted." ++ current.id

/-! ### The other tables -/

/-- The `SET` clause of the update of the links. -/
def ProvenanceLink.redacted (link : ProvenanceLink) : ProvenanceLink :=
  { link with quote := some redactionMarker }

/-- The `WHERE` clause of the update of the links. -/
def quoteSelects (memoryId : String) (link : ProvenanceLink) : Bool :=
  link.targetType == "memory" && link.targetId == memoryId && link.quote.isSome
    && link.quote != some redactionMarker

namespace RevisionRecord

/-- The `SET` clause of the revision update. -/
def redacted (r : RevisionRecord) (memoryId : String) : RevisionRecord :=
  { r with
    memoryKey := "redacted." ++ memoryId
    previousValue := r.previousValue.map fun _ => { value := redactedJsonValue }
    newValue := r.newValue.map fun _ => { value := redactedJsonValue }
    sourceEventIds := .arr []
    candidate := redactedJsonValue
    textBefore := r.textBefore.map fun _ => redactionMarker
    textAfter := redactionMarker
    reason := r.reason.map fun _ => redactionMarker
    metadataJson := redactedJsonValue }

/-- The `WHERE` clause of the revision update. The two values are compared as
texts, the other JSON columns as values. -/
def selects (memoryId : String) (r : RevisionRecord) : Bool :=
  r.memoryId == memoryId
    && (r.memoryKey != "redacted." ++ memoryId
      || decide (r.previousValue ≠ r.previousValue.map fun _ => { value := redactedJsonValue })
      || decide (r.newValue ≠ r.newValue.map fun _ => { value := redactedJsonValue })
      || decide (r.sourceEventIds ≠ .arr [])
      || decide (r.candidate ≠ redactedJsonValue)
      || r.textBefore != (r.textBefore.map fun _ => redactionMarker)
      || r.textAfter != redactionMarker
      || r.reason != (r.reason.map fun _ => redactionMarker)
      || decide (r.metadataJson ≠ redactedJsonValue))

/-- `memory_revisions_append_only_update` lets the update through. -/
def updateAdmitted (redactionMode : Bool) (old new : RevisionRecord) : Bool :=
  redactionMode
    && new.id == old.id && new.memoryId == old.memoryId && new.sequenceNo == old.sequenceNo
    && new.action == old.action
    && new.memoryKey == "redacted." ++ new.memoryId
    && decide (new.sourceEventIds = .arr [])
    && new.revisionNumber == old.revisionNumber && new.revisionType == old.revisionType
    && new.actorType == old.actorType && new.actorId == old.actorId
    && new.createdAt == old.createdAt
    && new.textAfter == redactionMarker
    && new.textBefore == (old.textBefore.map fun _ => redactionMarker)
    && new.reason == (old.reason.map fun _ => redactionMarker)
    && decide (new.previousValue.map (·.value) = old.previousValue.map fun _ => redactedJsonValue)
    && decide (new.newValue.map (·.value) = old.newValue.map fun _ => redactedJsonValue)
    && decide (new.candidate = redactedJsonValue)
    && decide (new.metadataJson = redactedJsonValue)

/-- The revision fails the exactness query. There all JSON columns are compared
as values. -/
def inexact (memoryId : String) (r : RevisionRecord) : Bool :=
  r.memoryId == memoryId
    && (r.memoryKey != "redacted." ++ r.memoryId
      || decide (r.sourceEventIds ≠ .arr [])
      || decide (r.candidate ≠ redactedJsonValue)
      || r.textAfter != redactionMarker
      || r.textBefore != (r.textBefore.map fun _ => redactionMarker)
      || r.reason != (r.reason.map fun _ => redactionMarker)
      || decide (r.previousValue.map (·.value) ≠ r.previousValue.map fun _ => redactedJsonValue)
      || decide (r.newValue.map (·.value) ≠ r.newValue.map fun _ => redactedJsonValue)
      || decide (r.metadataJson ≠ redactedJsonValue))

end RevisionRecord

/-- `_PROJECT_UPDATE_EVENT_TYPES_SQL`. -/
def projectUpdateEventTypes : List String :=
  ["project.update_candidate_created", "project.update_candidate_accepted",
    "project.update_candidate_rejected"]

namespace EventRow

/-- The event is about the memory: by its target, or by a text member of its
payload. The text of a UUID is the JSON text of no array and no object, so it
makes no difference that the exactness query does not ask for a text. -/
def carries (memoryId : String) (e : EventRow) : Bool :=
  (e.targetType == some "memory" && e.targetId == some memoryId)
    || e.payloadMemoryId == some memoryId || e.payloadCandidateMemoryId == some memoryId

/-- The event is not in its redacted form. -/
def unredacted (memoryId : String) (e : EventRow) : Bool :=
  decide (e.payloadJson ≠ redactedPayload memoryId e.eventType) || e.integrityHash.isSome

/-- The `WHERE` clause of the event update. -/
def selects (memoryId : String) (e : EventRow) : Bool := e.carries memoryId && e.unredacted memoryId

/-- The event is a receipt of the memory's redaction. -/
def isReceipt (memoryId : String) (e : EventRow) : Bool :=
  e.eventType == "memory.redacted" && e.targetType == some "memory" && e.targetId == some memoryId

end EventRow

/-- The project-update events of the artifact name one memory, and it is this
one. -/
def artifactNames (log : List EventRow) (userId artifactId memoryId : String) : Bool :=
  decide (fromkeys ((log.filter fun e =>
      e.userId == userId && projectUpdateEventTypes.contains e.eventType
        && (e.payloadCandidateMemoryId.any fun c => btrim c != "")
        && ((e.targetType == some "artifact" && e.targetId == some artifactId)
          || e.payloadArtifactId == some artifactId)).filterMap
      EventRow.payloadCandidateMemoryId) = [memoryId])

/-- `event_log_append_only_update` lets the update through. -/
def eventUpdateAdmitted (redactionMode : Bool) (log : List EventRow) (old new : EventRow) : Bool :=
  redactionMode
    && new.id == old.id && new.userId == old.userId && new.eventType == old.eventType
    && new.actorType == old.actorType && new.actorId == old.actorId
    && new.targetType == old.targetType && new.targetId == old.targetId
    && new.occurredAt == old.occurredAt && new.traceId == old.traceId && new.runId == old.runId
    && new.integrityHash.isNone
    -- the new payload is the redacted one, of three members
    && equalsTrue (new.payloadJson.item "redacted")
    && new.payloadJson.getStr? "event_type" == some new.eventType
    && new.payloadJson.length == 3
    && (match new.payloadMemoryId with
      | none => false
      | some memoryId =>
        btrim memoryId != ""
        -- every linkage the old event has must name the memory
        && (old.targetType != some "memory" || old.targetId == some memoryId)
        && old.payloadMemoryId.all (· == memoryId)
        && old.payloadCandidateMemoryId.all (· == memoryId)
        && (old.targetType != some "artifact"
          || old.targetId.any (artifactNames log old.userId · memoryId))
        && old.payloadArtifactId.all (artifactNames log old.userId · memoryId)
        -- and it must have one
        && (old.targetType == some "memory" || old.targetType == some "artifact"
          || old.payloadMemoryId.isSome || old.payloadCandidateMemoryId.isSome
          || old.payloadArtifactId.isSome))

/-! ### The redaction -/

/-- One call of `redact_memory_bundle`, with what it reads: the clock three
times, and the id of the receipt. -/
structure RedactionCall where
  memoryId : MemoryId
  projectUpdateArtifacts : List String := []
  actorType : String := "user"
  redactedNow : UtcMoment
  updatedNow : UtcMoment
  receiptId : String
  receiptNow : UtcMoment

/-- What `redact_memory_bundle` returns. The counts of artifacts and of quality
ratings are always zero. -/
structure RedactionReport where
  memory : RedactableMemory
  redactedRevisions : Nat
  redactedEvents : Nat
  redactedProvenanceLinks : Nat
  idempotentReplay : Bool

namespace RedactionTables

variable (env : Env)

/-- A receipt of the memory's redaction is in the log. -/
def hasReceipt (s : RedactionTables) (memoryId : String) : Bool :=
  s.events.any (·.isReceipt memoryId)

/-- `redacted_at`: the one of an earlier redaction, or the clock. -/
def redactedAt (s : RedactionTables) (call : RedactionCall) (current : RedactableMemory) : String :=
  if current.isPriorRedactedMemoryMarker env ∧ s.hasReceipt call.memoryId.text then
    redactedAtOf env current.metadataJson
  else utcNowIso call.redactedNow

/-- The event appended when something was changed. -/
def receipt (s : RedactionTables) (call : RedactionCall) : EventRow :=
  { id := call.receiptId
    userId := s.userId
    eventType := "memory.redacted"
    actorType := call.actorType
    actorId := none
    targetType := some "memory"
    targetId := some call.memoryId.text
    occurredAt := utcNowIso call.receiptNow
    payloadJson := redactedPayload call.memoryId.text "memory.redacted"
    traceId := none
    runId := none
    integrityHash := none }

/-- Something of the bundle is not in its redacted form: `changed`. -/
def changes (s : RedactionTables) (current : RedactableMemory) (metadata : Dict Json) : Bool :=
  current.differs metadata
    || decide (swept (quoteSelects current.id) s.provenance ≠ 0)
    || decide (swept (RevisionRecord.selects current.id) s.revisions ≠ 0)
    || decide (swept (EventRow.selects current.id) s.events ≠ 0)

/-- `redact_memory_bundle`. The row, its revisions, the events about it and the quotes
of its provenance lose their texts in one transaction, and a receipt is written if
anything changed. -/
def redactMemoryBundle (s : RedactionTables) (call : RedactionCall) :
    Except ServiceError (RedactionReport × RedactionTables) :=
  let mid := call.memoryId.text
  if call.projectUpdateArtifacts ≠ [] then
    .error (.storeInvariant "SQLite cannot redact generated artifacts")
  else
    match s.memories.get? mid with
    | none =>
      .error (.storeInvariant "redact_memory_bundle did not find the memory to redact")
    | some current =>
      let metadata := redactedMemoryMetadata current.metadataJson (s.redactedAt env call current)
      -- the append-only triggers of the two logs, before anything is written
      match guardedSweep (fun _ => RevisionRecord.updateAdmitted true) (RevisionRecord.selects mid)
          (·.redacted mid) [] s.revisions,
        guardedSweep (eventUpdateAdmitted true) (EventRow.selects mid) (·.redacted mid) []
          s.events with
      | some revisions, some events =>
        let memoryChanged := current.differs metadata
        -- the unique index on the key of a memory
        if memoryChanged ∧ redactedKeyTaken s.memories.rows current then .error .integrity
        else
          let updated :=
            if memoryChanged then current.redacted metadata call.updatedNow else current
          let changed := s.changes current metadata
          .ok ({ memory := updated
                 redactedRevisions := swept (RevisionRecord.selects mid) s.revisions
                 redactedEvents := swept (EventRow.selects mid) s.events
                 redactedProvenanceLinks := swept (quoteSelects mid) s.provenance
                 idempotentReplay := !changed },
            { s with
              provenance := sweep (quoteSelects mid) ProvenanceLink.redacted s.provenance
              revisions := revisions
              -- a redaction that changes nothing leaves no receipt
              events := if changed then events ++ [s.receipt call] else events
              memories :=
                if memoryChanged then
                  s.memories.rewrite mid ⟨(·.redacted metadata call.updatedNow), fun _ => rfl⟩
                else s.memories
              -- dropping an embedding moves the stamp of the vector cache
              embeddingStamp :=
                if current.embedding.isSome then s.embeddingStamp + 1 else s.embeddingStamp })
      | _, _ => .error .integrity

/-- `memory_redaction_bundle_is_exact`. What a caller asks to see whether nothing of the
memory is left: the receipt, the row, and every log. -/
def memoryRedactionBundleIsExact (s : RedactionTables) (memoryId : String)
    (artifactIds : List String) : Bool :=
  artifactIds.isEmpty
    && s.hasReceipt memoryId
    && (s.memories.rows.any fun row =>
      row.id == memoryId && row.embedding.isNone && row.factKeys.isNone)
    && !s.revisions.any (·.inexact memoryId)
    && !(s.events.any fun e => e.carries memoryId && e.unredacted memoryId)
    && !s.provenance.any fun link =>
      link.targetType == "memory" && link.targetId == memoryId && link.quote.isSome
        && link.quote != some redactionMarker

end RedactionTables

/-! ### What may come before -/

/-- The event `create_memory` logs. -/
def createdEvent (h : EventHeader) (memoryId : String) (fields : List String) : EventRow :=
  { h.event "memory.created" (some ("memory", memoryId)) {} none none none with
    payloadJson := [("operation", .str "create"), ("fields", .strs fields)] }

/-- One statement of the store. Constraints other than primary keys are left
out: they only refuse statements. -/
inductive StoreWrite where
  /-- `create_memory`. -/
  | create (row : RedactableMemory) (h : EventHeader) (fields : List String)
  /-- Any rewriting of the columns of a row. -/
  | update (row : RedactableMemory)
  | appendEvent (event : EventRow)
  | appendRevision (revision : RevisionRecord)
  | linkProvenance (link : ProvenanceLink)
  | redact (call : RedactionCall)

/-- The state after a statement. One that raises leaves the state as it is. -/
def StoreWrite.apply (env : Env) (s : RedactionTables) : StoreWrite → RedactionTables
  | .create row h fields =>
    -- an insert fails where the id is taken
    match s.memories.insert? row with
    | some memories =>
      { s with memories := memories, events := s.events ++ [createdEvent h row.id fields] }
    | none => s
  | .update row =>
    let rewriting : Rewrite fun row : RedactableMemory => row.id :=
      ⟨fun old => { row with id := old.id }, fun _ => rfl⟩
    { s with memories := s.memories.rewrite row.id rewriting }
  | .appendEvent event => { s with events := s.events ++ [event] }
  | .appendRevision revision => { s with revisions := s.revisions ++ [revision] }
  | .linkProvenance link => { s with provenance := s.provenance ++ [link] }
  | .redact call =>
    match s.redactMemoryBundle env call with
    | .ok (_, t) => t
    | .error _ => s

/-- The tables after a sequence of statements. -/
def RedactionTables.after (env : Env) (s : RedactionTables) (writes : List StoreWrite) :
    RedactionTables :=
  writes.foldl (fun s w => w.apply env s) s

end AliceBot
