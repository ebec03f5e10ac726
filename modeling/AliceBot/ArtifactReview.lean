import AliceBot.MemoryRedaction

/-!
# Review of artifacts

`VNextQueueService.review_artifact` moves an artifact along
`ARTIFACT_STATUS_TRANSITIONS` and, at its last stop, makes a memory of it. Each
call holds the lock on the artifact's row, so concurrent calls are a sequence
of calls; one that raises is rolled back.

Whether an artifact has been promoted is written down twice, in the status of
its row and in the event log, and the memory it became in the log only. Beside
the reviews the only calls that touch either are redactions, which rewrite
payloads. `QueueState.after` is a sequence of both kinds of calls.

The row is found by `::uuid`, under every spelling of its id. The events of a
review carry the text the caller gave, and the log is searched for that text.
-/

namespace AliceBot

open PyLib

/-! ### Rows -/

/-- The columns of `generated_artifacts` that review and redaction use. -/
structure QueueArtifact where
  id : String
  artifactType : String
  status : String
  title : Option String := none
  contentMarkdown : String
  domain : Option String := none
  sensitivity : Option String := none
  metadataJson : Dict Json := []
deriving DecidableEq

namespace QueueArtifact

/-- The row, with the members of its metadata that redaction reads. -/
def row (a : QueueArtifact) : ArtifactRow where
  id := a.id
  artifactType := a.artifactType
  status := a.status
  contentMarkdown := a.contentMarkdown
  workflow := a.metadataJson.getStr? "workflow"
  candidateMemoryId := a.metadataJson.getStr? "candidate_memory_id"
  reviewAction := a.metadataJson.getStr? "review_action"

/-- `str(artifact.get("status") or "draft")`. -/
def currentStatus (a : QueueArtifact) : String := if a.status = "" then "draft" else a.status

/-- `resource_project_scope`. -/
def projectScope (a : QueueArtifact) : List String :=
  (resolveProjectScope [("metadata_json", .obj a.metadataJson)]).values

end QueueArtifact

/-- What the queue service raises. -/
inductive QueueError where
  /-- `VNextQueueValidationError`. -/
  | validation (message : String)
  /-- `VNextQueueNotFoundError`. -/
  | notFound (message : String)
  /-- A constraint or a trigger of the database. -/
  | integrity
  /-- The text given as an id is no UUID. -/
  | invalidText
  /-- `ContinuityStoreInvariantError`. -/
  | storeInvariant (message : String)
deriving DecidableEq

/-- One user's tables. -/
structure QueueState where
  artifacts : Table QueueArtifact.id
  memories : Table fun row : RedactableMemory => row.id
  events : List EventRow := []

namespace QueueState

/-- The artifacts as redaction sees them. -/
def artifactRows (s : QueueState) : List ArtifactRow := s.artifacts.rows.map QueueArtifact.row

/-- `append_event`. -/
def logged (s : QueueState) (e : EventRow) : QueueState := { s with events := s.events ++ [e] }

/-- `list_events(target_type="artifact", target_id=…)`. -/
def artifactEvents (s : QueueState) (artifactId : String) : List EventRow :=
  (s.events.filter fun e => e.targetType == some "artifact" && e.targetId == some artifactId)
    |>.mergeSort fun a b =>
      decide (b.occurredAt < a.occurredAt) || (a.occurredAt == b.occurredAt && decide (b.id ≤ a.id))

end QueueState

/-! ### One review -/

/-- The arguments of `review_artifact`, with what the call gets from outside:
the columns of its events, the id of a new memory and the clock. -/
structure ReviewCall where
  artifactId : String
  action : String
  header : EventHeader
  newMemoryId : String
  now : UtcMoment

/-- The artifact row returned, and `promoted_memory_id` where it is set. -/
structure ReviewReply where
  artifact : QueueArtifact
  promotedMemoryId : Option String := none

/-- The event of a review below promotion. -/
def reviewedEvent (call : ReviewCall) (status : String) : EventRow :=
  { call.header.event "artifact.reviewed" (some ("artifact", call.artifactId)) {} none none
      none with
    payloadJson := [("action", .str call.action), ("status", .str status)] }

/-- The event of a promotion. -/
def promotionEvent (call : ReviewCall) : EventRow :=
  { call.header.event "artifact.promoted_to_memory" (some ("artifact", call.artifactId)) {} none
      none none with
    payloadJson := [("memory_id", .str call.newMemoryId)] }

namespace QueueState

variable (env : Env) (digest : String → String) (uuid : UuidInput)

/-- Lock the row; an artifact of the coupled lifecycle is turned away. -/
def reviewable (s : QueueState) (artifactId : String) : Except QueueError QueueArtifact :=
  match uuid.read artifactId with
  | none => .error .invalidText
  | some id =>
    match s.artifacts.get? id with
    | none => .error (.notFound ("artifact " ++ artifactId ++ " was not found"))
    | some a =>
      if isProjectUpdateArtifact a.row then
        .error (.validation ("project update artifacts must be reviewed through the coupled " ++
          "project-update lifecycle"))
      else .ok a

/-- The rewrite of `update_artifact_status`. -/
def statusRewrite (status : String) : Rewrite QueueArtifact.id where
  apply a := { a with status := status }

/-- `update_artifact_status`: compare and set, and log under the id of the row. -/
def updateArtifactStatus (s : QueueState) (call : ReviewCall) (status expected : String) :
    Option (QueueArtifact × QueueState) :=
  match (uuid.read call.artifactId).bind s.artifacts.get? with
  | none => none
  | some a =>
    if a.status = expected then
      some ({ a with status := status },
        { s with artifacts := s.artifacts.rewrite a.id (statusRewrite status) }.logged
          { call.header.event "artifact.updated" (some ("artifact", a.id)) {} none none none with
            payloadJson := [("operation", .str "update_status"), ("status", .str status)] })
    else none

/-- What `_promote_artifact` hands to `create_memory`. -/
def promotedMemory (artifactId : String) (a : QueueArtifact) (content : String) : NewMemory where
  memoryType := "semantic"
  memoryKey := "artifact.promotion." ++ digest artifactId
  value := .obj [("kind", .str "promoted_artifact"), ("artifact_id", .str artifactId),
    ("text", .str content)]
  status := .active
  confirmationStatus := "confirmed"
  confidence := some 1
  -- an empty title, domain or sensitivity is read as missing
  title := some ((a.title.filter (· ≠ "")).getD "Promoted artifact")
  canonicalText := content
  summary := some (String.ofList (content.toList.take 280))
  domain := (a.domain.filter (· ≠ "")).getD "unknown"
  sensitivity := (a.sensitivity.filter (· ≠ "")).getD "unknown"
  metadataJson := [("source_artifact_id", .str artifactId),
    ("project_scope", .strs a.projectScope), ("promotion_reviewed", .bool true)]
  commitDigest := none
  projectScope := a.projectScope
  projectId := if a.projectScope.length = 1 then a.projectScope.head? else none
  createdByAgentId := none
  runId := none

/-- The fields handed over, sorted. -/
def promotedMemoryFields : List String :=
  ["canonical_text", "confidence", "confirmation_status", "domain", "memory_key", "memory_type",
    "metadata_json", "project_id", "promotion_eligibility", "sensitivity", "source_event_ids",
    "status", "summary", "title", "trust_class", "value"]

/-- `create_memory`. The key of the memory is derived from the artifact, so the unique
index refuses a second memory for it. -/
def createMemory (s : QueueState) (call : ReviewCall) (memory : NewMemory) :
    Except QueueError QueueState :=
  let row : RedactableMemory := { toMemoryRow := memory.row call.newMemoryId call.now }
  if row.checks = false ∨ s.memories.rows.any (fun r =>
      r.agentProfileId == row.agentProfileId && r.memoryKey == row.memoryKey) then
    .error .integrity
  else
    match s.memories.insert? row with
    | none => .error .integrity
    | some memories =>
      .ok ({ s with memories := memories }.logged
        (createdEvent call.header call.newMemoryId promotedMemoryFields))

/-- `str(payload["memory_id"])` where it is given. -/
def namedMemory (e : EventRow) : Option String :=
  match e.payloadJson.item "memory_id" with
  | .null => none
  | v => some (env.str v)

/-- The loop of the replay: the first event that names a memory. -/
def promotedMemoryId? (s : QueueState) (artifactId : String) : Option String :=
  (s.artifactEvents artifactId).findSome? fun e =>
    if e.eventType = "artifact.promoted_to_memory" then namedMemory env e else none

/-- `_promote_artifact`. An artifact becomes a memory once: a second promotion answers
with the memory the event of the first one names. -/
def promoteArtifact (s : QueueState) (call : ReviewCall) :
    Except QueueError (ReviewReply × QueueState) :=
  match s.reviewable uuid call.artifactId with
  | .error e => .error e
  | .ok a =>
    -- a replay: the memory is looked for in the events, under the id the caller gave
    if a.currentStatus = "promoted_to_memory" then
      match s.promotedMemoryId? env call.artifactId with
      | some memoryId => .ok ({ artifact := a, promotedMemoryId := some memoryId }, s)
      | none => .error (.validation
          "artifact is marked promoted, but no persisted memory target can be verified")
    else if a.currentStatus ∈ ["rejected", "superseded", "archived"] then
      .error (.validation
        ("artifact in terminal status '" ++ a.currentStatus ++ "' cannot be promoted"))
    else if "promoted_to_memory" ∉ artifactStatusTransitions a.currentStatus then
      .error (.validation ("artifact status transition '" ++ a.currentStatus ++
        "' -> 'promoted_to_memory' is not allowed"))
    else if strip a.contentMarkdown = "" then
      .error (.validation "artifact content must not be empty before promotion")
    else
      match s.createMemory call
          (promotedMemory digest call.artifactId a (strip a.contentMarkdown)) with
      | .error e => .error e
      | .ok created =>
        -- the source checks the row that `create_memory` returned
        if call.newMemoryId = "" then
          .error (.validation "artifact promotion did not return a persisted memory target")
        else
          -- the status is written only if it is still the one read
          match created.updateArtifactStatus uuid call "promoted_to_memory" a.currentStatus with
          | none => .error (.validation "artifact promotion conflicted with another reviewer")
          | some (updated, t) =>
            .ok ({ artifact := updated, promotedMemoryId := some call.newMemoryId },
              t.logged (promotionEvent call))

/-- `review_artifact`. A review moves the status along the table of transitions, and
tells it by an event; promotion has its own path. -/
def reviewArtifact (s : QueueState) (call : ReviewCall) :
    Except QueueError (ReviewReply × QueueState) :=
  if call.action = "promote" then s.promoteArtifact env digest uuid call
  else
    match actionToStatus call.action with
    | none => .error (.validation
        "artifact review action must be review, accept, reject, promote, or archive")
    | some status =>
      match s.reviewable uuid call.artifactId with
      | .error e => .error e
      | .ok a =>
        -- a repeated review is answered without a write
        if a.currentStatus = status then .ok ({ artifact := a }, s)
        else if status ∉ artifactStatusTransitions a.currentStatus then
          .error (.validation ("artifact status transition '" ++ a.currentStatus ++ "' -> '" ++
            status ++ "' is not allowed"))
        else
          match s.updateArtifactStatus uuid call status a.currentStatus with
          | none => .error (.validation "artifact review conflicted with another reviewer")
          | some (updated, t) =>
            .ok ({ artifact := updated }, t.logged (reviewedEvent call status))

end QueueState

/-! ### One redaction -/

/-- `redact_memory_bundle` on PostgreSQL, with what it gets from outside. The
last two say what becomes of the tables no review reads, the revisions, the
provenance links and the quality ratings: whether one of them changed, and
whether a trigger on one refused to. -/
structure QueueRedaction where
  memoryId : String
  header : EventHeader
  now : UtcMoment
  elsewhereChanged : Bool := false
  elsewhereRefused : Bool := false

/-- The metadata of a redacted project update. -/
def redactedArtifactMetadata (a : QueueArtifact) (memoryId redactedAt : String) : Dict Json :=
  [("redacted", .bool true), ("redacted_at", .str redactedAt),
    ("workflow", .str "project_auto_update"),
    ("project_id", .str (strip ((a.metadataJson.getStr? "project_id").getD ""))),
    ("project_scope", .arr [.str (strip ((a.metadataJson.getStr? "project_id").getD ""))]),
    ("candidate_memory_id", .str memoryId),
    ("review_action", .str ((a.metadataJson.getStr? "review_action").getD ""))]

namespace QueueArtifact

/-- The artifact is a project update whose candidate is the memory. -/
def coupledTo (a : QueueArtifact) (memoryId : String) : Bool :=
  a.artifactType == "project_update"
    && a.metadataJson.getStr? "candidate_memory_id" == some memoryId

/-- The checks `redact_memory_bundle` makes of a coupled artifact. -/
def redactable (a : QueueArtifact) : Bool :=
  strip ((a.metadataJson.getStr? "project_id").getD "") != ""
    && a.metadataJson.getStr? "workflow" == some "project_auto_update"
    && decide (a.metadataJson.item "project_scope" =
        .arr [.str (strip ((a.metadataJson.getStr? "project_id").getD ""))])
    && ((a.status == "accepted" && (a.metadataJson.getStr? "review_action" == some "accept"
          || a.metadataJson.getStr? "review_action" == some "edit"))
      || (a.status == "rejected" && a.metadataJson.getStr? "review_action" == some "reject"))

/-- The columns of a coupled artifact that a redaction writes. -/
def redacted (a : QueueArtifact) (memoryId redactedAt : String) : QueueArtifact :=
  { a with
    title := some redactionMarker
    contentMarkdown := redactionMarker
    metadataJson := redactedArtifactMetadata a memoryId redactedAt }

end QueueArtifact

/-- The row under the spelling of a call, which the key of a redacted memory is
made of. -/
def RedactableMemory.spelled (m : RedactableMemory) (memoryId : String) : RedactableMemory :=
  { m with id := memoryId }

namespace QueueState

variable (env : Env) (uuid : UuidInput) (guard : List ArtifactRow → EventRow → EventRow → Bool)

/-- `redacted_at`: the one of an earlier redaction, or the clock. -/
def redactedAt (s : QueueState) (call : QueueRedaction) (current : RedactableMemory) : String :=
  if current.isPriorRedactedMemoryMarker env ∧ s.events.any (·.isReceipt call.memoryId) then
    redactedAtOf env current.metadataJson
  else stampText false call.now

/-- The rewrite of the memory. -/
def memoryRewrite (memoryId : String) (metadata : Dict Json) (now : UtcMoment) :
    Rewrite fun row : RedactableMemory => row.id where
  apply m :=
    if (m.spelled memoryId).differs metadata then
      { (m.spelled memoryId).redacted metadata now with id := m.id }
    else m
  key_apply m := by split <;> rfl

/-- `redact_memory_bundle`. The memory is found under every spelling of its id;
the artifacts, the events and the key are compared with the text given. The
trigger on the event log is a parameter: the one in force is
`guardAdmits · true`. -/
def redact (s : QueueState) (call : QueueRedaction) : Except QueueError QueueState :=
  match uuid.read call.memoryId with
  | none => .error .invalidText
  | some memoryId =>
    match s.memories.get? memoryId with
    | none => .error
        (.storeInvariant "redact_memory_bundle did not find the memory to redact")
    | some current =>
      let redactedAt := s.redactedAt env call current
      let metadata := redactedMemoryMetadata current.metadataJson redactedAt
      -- the project updates whose candidate the memory is
      let coupled := s.artifacts.rows.filter (·.coupledTo call.memoryId)
      let selects := redactionSelects s.artifactRows call.memoryId
      let differs := (current.spelled call.memoryId).differs metadata
      let keyTaken := s.memories.rows.any fun row =>
        row.id != current.id && row.agentProfileId == current.agentProfileId
          && row.memoryKey == "redacted." ++ call.memoryId
      -- an artifact that its review has not settled keeps the memory from being redacted
      if coupled.any (!·.redactable) then
        .error (.storeInvariant "project-update redaction requires exact terminal artifact linkage")
      else if call.elsewhereRefused then .error .integrity
      -- the trigger refuses the whole statement for one event
      else if s.events.any fun e => selects e && !guard s.artifactRows e (e.redacted call.memoryId)
      then .error .integrity
      else if differs ∧ keyTaken then .error .integrity
      else
        let rewriteArtifact : Rewrite QueueArtifact.id :=
          ⟨fun a => if a.coupledTo call.memoryId then a.redacted call.memoryId redactedAt else a,
            fun a => by split <;> rfl⟩
        let changed := differs || s.events.any selects
          || (coupled.any fun a => decide (a.redacted call.memoryId redactedAt ≠ a))
          || call.elsewhereChanged
        -- the receipt is an event of the redaction, without a hash
        let receipt := { call.header.event "memory.redacted" (some ("memory", call.memoryId)) {}
            none none none with
          payloadJson := redactedPayload call.memoryId "memory.redacted"
          integrityHash := none }
        .ok { artifacts := s.artifacts.rewriteAll rewriteArtifact
              memories := s.memories.rewrite memoryId
                (memoryRewrite call.memoryId metadata call.now)
              events := sweep selects (·.redacted call.memoryId) s.events ++
                if changed then [receipt] else [] }

end QueueState

/-! ### Sequences of calls -/

/-- One call. -/
inductive QueueCall where
  | review (call : ReviewCall)
  | redact (call : QueueRedaction)

section Sequences

variable (env : Env) (digest : String → String) (uuid : UuidInput)
  (guard : List ArtifactRow → EventRow → EventRow → Bool)

/-- The state after a call. One that raises is rolled back. -/
def QueueCall.apply (s : QueueState) : QueueCall → QueueState
  | .review call =>
    match s.reviewArtifact env digest uuid call with
    | .ok (_, t) => t
    | .error _ => s
  | .redact call =>
    match s.redact env uuid guard call with
    | .ok t => t
    | .error _ => s

/-- The state after a sequence of calls. -/
def QueueState.after (s : QueueState) (calls : List QueueCall) : QueueState :=
  calls.foldl (fun s call => call.apply env digest uuid guard s) s

/-- The memories a call creates from the artifact, under whichever spelling. -/
def QueueState.createdBy (artifactId : String) (s : QueueState) : QueueCall → Nat
  | .review call =>
    if uuid.read call.artifactId = some artifactId then
      (QueueCall.apply env digest uuid guard s (.review call)).memories.rows.length -
        s.memories.rows.length
    else 0
  | .redact _ => 0

/-- The memories created from the artifact along a sequence of calls. -/
def QueueState.createdFrom (artifactId : String) (s : QueueState) : List QueueCall → Nat
  | [] => 0
  | call :: calls => s.createdBy env digest uuid guard artifactId call +
      QueueState.createdFrom artifactId (call.apply env digest uuid guard s) calls

end Sequences

/-! ### Reading the two records of a promotion -/

section Records

variable (uuid : UuidInput)

/-- The event records the promotion of the artifact, under whichever spelling. -/
def EventRow.recordsPromotion (artifactId : String) (e : EventRow) : Bool :=
  e.eventType == "artifact.promoted_to_memory" && e.targetType == some "artifact"
    && e.targetId.bind uuid.read == some artifactId

namespace QueueState

/-- The status of the artifact. -/
def statusOf (s : QueueState) (artifactId : String) : Option String :=
  (s.artifacts.get? artifactId).map (·.status)

/-- The memory ids the promotion events of the artifact carry. -/
def promotions (env : Env) (s : QueueState) (artifactId : String) : List String :=
  (s.events.filter (·.recordsPromotion uuid artifactId)).filterMap (namedMemory env)

/-- The ids of the artifacts are as the database gives them back. -/
def StoredIds (s : QueueState) : Prop :=
  ∀ id artifact, s.artifacts.get? id = some artifact → uuid.read id = some id

/-- Neither record says that the artifact has been promoted. -/
structure NotYetPromoted (s : QueueState) (artifactId : String) : Prop where
  status : s.statusOf artifactId ≠ some "promoted_to_memory"
  events : ∀ e ∈ s.events, e.recordsPromotion uuid artifactId = false

/-- The promotion of the artifact was asked for under this text. -/
def PromotedUnder (s : QueueState) (artifactId text : String) : Prop :=
  ∀ e ∈ s.events, e.recordsPromotion uuid artifactId = true → e.targetId = some text

end QueueState

end Records

end AliceBot
