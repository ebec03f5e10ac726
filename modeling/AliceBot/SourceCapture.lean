import AliceBot.Library.Effect
import AliceBot.Library.Table
import AliceBot.SourceIdentity

/-!
# Capturing a source

`VNextCaptureService.capture_source` and the store operations it is written
with (`vnext_capture`, `sqlite_store`), and `update_source`. A capture first
claims the identity of its text (`claimSource`) and, where the claim inserted
a row, fills it with chunks, candidates and their provenance (`fillSource`).
Nothing is undone when a later part raises.

Every store call is a `storeCall`: it takes one tick, which numbers the call,
its identifiers and its timestamps, and it raises where `CaptureEnv.fault`
says so. Identifiers are fresh, so only the primary key of `sources` is
enforced. Embeddings and entity links are written outside these tables; they
are one call each.
-/

namespace AliceBot

open PyLib

/-! ### The tables -/

/-- A row of `source_chunks`. -/
structure ChunkRow where
  id : String
  sourceId : String
  chunkIndex : Nat
  text : String
  tokenCount : Nat
  metadataJson : Dict Json
deriving DecidableEq

/-- `CaptureCandidate`. -/
structure CaptureCandidate where
  line : LineCandidate
  sourceChunkId : String
  sourceChunkIndex : Nat
deriving DecidableEq

/-- The columns of `memories` a capture writes. -/
structure CandidateMemory where
  id : String
  memoryKey : String
  value : Dict Json
  status : MemoryStatus
  sourceEventIds : List String
  memoryType : String
  confidence : Rat
  title : String
  canonicalText : String
  summary : String
  domain : String
  sensitivity : String
  projectId : Option String
  createdByAgentId : Option String
  runId : Option String
  metadataJson : Dict Json
  deletedAt : Option String

/-- A row of `provenance_links`. -/
structure ProvenanceRow where
  id : String
  targetId : String
  sourceId : String
  sourceChunkId : String
  quote : String
  evidenceRole : String
  confidence : Rat

/-- The columns of `event_log` that name an event. -/
structure CaptureEvent where
  eventType : String
  targetId : Option String

/-- One user's tables. -/
structure CaptureStore where
  sources : Table SourceRow.id
  chunks : List ChunkRow := []
  memories : List CandidateMemory := []
  links : List ProvenanceRow := []
  events : List CaptureEvent := []
  ticks : Nat := 0

/-- What a capture raises. -/
inductive CaptureError where
  /-- `VNextCaptureValidationError`. -/
  | validation (message : String)
  /-- `ContinuityStoreInvariantError`. -/
  | storeInvariant (message : String)
  /-- A constraint of the database. -/
  | integrity
  /-- The `OverflowError` of a timestamp outside the calendar. -/
  | overflow
  /-- A store call that failed for a reason of its own. -/
  | fault
deriving DecidableEq, Repr

abbrev Capture := EStateM CaptureError CaptureStore

namespace CaptureStore

/-- The sources that are not deleted. -/
def liveSources (s : CaptureStore) : List SourceRow := s.sources.rows.filter SourceRow.live

/-- The live sources that satisfy a condition, `ORDER BY captured_at DESC, id DESC`. -/
def selectSources (s : CaptureStore) (p : SourceRow → Bool) : List SourceRow :=
  (s.liveSources.filter p).insertionSort fun a b =>
    b.capturedAt < a.capturedAt ∨ (b.capturedAt = a.capturedAt ∧ b.id ≤ a.id)

/-- `get_source_by_dedupe_key`. -/
def sourceByDedupeKey (s : CaptureStore) (dedupeKey : String) : Option SourceRow :=
  (s.selectSources fun row => row.dedupeKey == some dedupeKey).head?

/-- `get_sources_by_content_hash`. -/
def sourcesByContentHash (s : CaptureStore) (contentHash : String) : List SourceRow :=
  s.selectSources fun row => row.contentHash == contentHash

/-- `get_source`. -/
def getSource (s : CaptureStore) (sourceId : String) : Option SourceRow :=
  (s.sources.get? sourceId).filter SourceRow.live

end CaptureStore

/-! ### Requests -/

/-- `SourceCaptureInput`. What a caller captures: a text, where it is from, and the
labels it is to have. -/
structure SourceCaptureInput where
  sourceType : String
  rawText : String
  title : Option String := none
  author : Option String := none
  uri : Option String := none
  rawPath : Option String := none
  connectorName : Option String := none
  externalId : Option String := none
  domain : String := "unknown"
  sensitivity : String := "unknown"
  projectScope : Option (List String) := none
  capturedAt : Option String := none
  sourceCreatedAt : Option String := none
  sourceModifiedAt : Option String := none
  metadataJson : Dict Json := []

/-- `VNextCaptureService`, with what it was made with. -/
structure CaptureService where
  chunkMaxChars : Nat := 2400
  actorType : String := "system"
  actorId : Option String := none
  traceId : Option String := none
  runId : Option String := none
  agentIdentity : Option (Dict Json) := none
  policyDecision : Option (Dict Json) := none
  deferEmbeddings : Bool := false

/-- `None`, or an object. -/
def optObj : Option (Dict Json) → Json
  | some d => .obj d
  | none => .null

namespace SourceCaptureInput

/-- The effective project scope: the field, or else the member of the metadata. -/
def requestScope (input : SourceCaptureInput) : List String :=
  normalizeProjectScope <| match input.projectScope with
    | some scope => .strs scope
    | none => input.metadataJson.item "project_scope"

/-- `project_scope_metadata`. -/
def scopeMetadata (input : SourceCaptureInput) : Dict Json :=
  if input.projectScope.isSome ∨ input.metadataJson.has "project_scope" then
    [("project_scope", .strs input.requestScope)]
  else []

end SourceCaptureInput

/-- The members a service adds to whatever it stores. -/
def CaptureService.attribution (svc : CaptureService) : Dict Json :=
  [("generated_by", .str svc.actorType), ("agent_identity", optObj svc.agentIdentity),
    ("agent_id", .optStr (if svc.actorType = "agent" then svc.actorId else none)),
    ("agent_run_id", .optStr (if svc.actorType = "agent" then svc.runId else none)),
    ("trace_id", .optStr svc.traceId), ("policy_decision", optObj svc.policyDecision)]

variable (env : CaptureEnv) (svc : CaptureService)

/-- What a request is looked up and stored under. -/
structure CaptureKeys where
  text : String
  projectScope : List String
  contentHash : String
  legacyContentHash : String
  dedupeKey : String
deriving DecidableEq

/-- The head of `capture_source`; a blank text has no keys. -/
def captureKeys (input : SourceCaptureInput) : Option CaptureKeys := do
  let text ← normalizeText input.rawText
  let projectScope := input.requestScope
  let contentHash ← contentHashForText env text projectScope
  let dedupeKey ← captureDedupeKeyForText env text projectScope input.domain input.sensitivity
  let legacyContentHash ← contentHashForText env text []
  return { text, projectScope, contentHash, legacyContentHash, dedupeKey }

/-- A timestamp of a request, as the store's normalisers take it. -/
def requestStamp : Option String → TimestampValue
  | some text => .text text
  | none => .absent

/-- The metadata a capture stores with its source. -/
def sourceMetadata (input : SourceCaptureInput) : Dict Json :=
  ((input.metadataJson.update input.scopeMetadata).update svc.attribution).update
    [("raw_text", .str input.rawText),
      ("raw_text_sha256", .str ("sha256:" ++ env.sha256 input.rawText))]

/-- The row a capture writes for its source, under an identifier and at a
reading of the clock. A timestamp outside the calendar raises. -/
def sourceRecord (input : SourceCaptureInput) (keys : CaptureKeys) (id : String)
    (now : UtcMoment) : Except TimestampError SourceRow := do
  -- a capture without a time was made now
  let capturedAt ← isoOrNow env.fromisoformat (requestStamp input.capturedAt) now
  let sourceCreatedAt ← isoOrNone env.fromisoformat (requestStamp input.sourceCreatedAt)
  let sourceModifiedAt ← isoOrNone env.fromisoformat (requestStamp input.sourceModifiedAt)
  return { id := id
           sourceType := input.sourceType
           title := input.title
           author := input.author
           uri := input.uri
           rawPath := input.rawPath
           contentHash := keys.contentHash
           dedupeKey := some keys.dedupeKey
           capturedAt := capturedAt
           sourceCreatedAt := sourceCreatedAt
           sourceModifiedAt := sourceModifiedAt
           connectorName := input.connectorName
           externalId := input.externalId
           domain := input.domain
           sensitivity := input.sensitivity
           metadataJson := sourceMetadata env svc input
           deletedAt := none }

/-! ### Store calls -/

/-- One store call, handed the number it has. -/
def storeCall {α : Type} (m : Nat → Capture α) : Capture α := do
  let n ← modifyGet fun s : CaptureStore => (s.ticks, { s with ticks := s.ticks + 1 })
  match env.fault n with
  | none => m n
  | some .before => throw .fault
  | some .after => do
    let _ ← m n
    throw .fault

/-- An event appended beside a write. -/
def appendCaptureEvent (eventType : String) (targetId : Option String) : Capture Unit :=
  modify fun s => { s with events := s.events ++ [⟨eventType, targetId⟩] }

/-- `_log_event`. -/
def logEvent (eventType : String) (targetId : Option String) : Capture Unit :=
  storeCall env fun _ => appendCaptureEvent eventType targetId

/-- Calls that write outside these tables. -/
def writeElsewhere : Capture Unit := storeCall env fun _ => pure ()

/-- `INSERT INTO sources … ON CONFLICT(user_id, dedupe_key) … DO NOTHING`, and
the row that holds the identity where the insertion did nothing. -/
def insertOrFindSource (record : String → UtcMoment → Except TimestampError SourceRow) (n : Nat) :
    Capture (SourceRow × Bool) := do
  let row ← raising ((record (env.uuid n) (env.now n)).mapError fun _ => .overflow)
  let s ← get
  raiseIf (row.checks = false) .integrity
  match (s.selectSources fun r => decide (r.dedupeKey = row.dedupeKey)).head? with
  | some winner =>
    -- the row that holds the key is returned, if it has the identity of the request
    raiseIf (sourceCaptureIdentityMatches env winner [row.contentHash] row.projectScope
        row.domain row.sensitivity = false)
      (.storeInvariant "atomic source dedupe winner does not match capture identity")
    return (winner, false)
  | none =>
    let sources ← orRaise (s.sources.insert? row) .integrity
    set { s with sources := sources }
    appendCaptureEvent "source.created" (some row.id)
    return (row, true)

/-- `get_or_create_source`: the row that holds the identity, and whether it was
created. -/
def getOrCreateSource (record : String → UtcMoment → Except TimestampError SourceRow) :
    Capture (SourceRow × Bool) :=
  storeCall env (insertOrFindSource env record)

/-- `create_source_chunk`. A piece of the source, with its own event. -/
def createSourceChunk (sourceId contentHash : String) (chunkIndex : Nat) (chunk : String) :
    Capture ChunkRow :=
  storeCall env fun n => do
    let row : ChunkRow :=
      { id := env.uuid n
        sourceId := sourceId
        chunkIndex := chunkIndex
        text := chunk
        tokenCount := (words chunk).length
        metadataJson := [("content_hash", .str contentHash)] }
    modify fun s => { s with chunks := s.chunks ++ [row] }
    appendCaptureEvent "source_chunk.created" (some row.id)
    return row

/-- The constraints of `memories` on a candidate. -/
def CandidateMemory.checks (row : CandidateMemory) : Bool :=
  decide (row.memoryType ∈ vnextMemoryTypes) && decide (row.domain ∈ vnextDomains)
    && decide (row.sensitivity ∈ vnextSensitivityLevels) && decide (0 ≤ row.confidence)
    && decide (row.confidence ≤ 1)

/-- `create_memory`. -/
def createCandidate (record : String → CandidateMemory) : Capture CandidateMemory :=
  storeCall env fun n => do
    let row := record (env.uuid n)
    let s ← get
    raiseIf (row.checks = false ∨ row.memoryKey ∈ s.memories.map (·.memoryKey)) .integrity
    set { s with memories := s.memories ++ [row] }
    appendCaptureEvent "memory.created" (some row.id)
    return row

/-- `create_provenance_link`. The target was created just before, so it is not
redacted. -/
def createProvenanceLink (record : String → ProvenanceRow) : Capture Unit :=
  storeCall env fun n => do
    modify fun s => { s with links := s.links ++ [record (env.uuid n)] }
    appendCaptureEvent "provenance_link.created" (some (record (env.uuid n)).targetId)

/-! ### Looking a request up -/

/-- `source_capture_identity_matches` against a request. -/
def matchesRequest (source : SourceRow) (contentHashes : List String) (keys : CaptureKeys)
    (input : SourceCaptureInput) : Bool :=
  sourceCaptureIdentityMatches env source contentHashes keys.projectScope input.domain
    input.sensitivity

/-- What `_find_compatible_source` answers a row found by its key with. -/
def acceptsByKey (keys : CaptureKeys) (input : SourceCaptureInput) (source : SourceRow) : Bool :=
  decide (source.captureDedupeKey env ∈ [none, some keys.dedupeKey])
    && matchesRequest env source [] keys input

/-- What it answers a row found by a hash with. -/
def acceptsByHash (keys : CaptureKeys) (input : SourceCaptureInput) (source : SourceRow) : Bool :=
  matchesRequest env source [keys.contentHash, keys.legacyContentHash] keys input

/-- The hashes it looks up, in order. -/
def CaptureKeys.hashes (keys : CaptureKeys) : List String :=
  fromkeys [keys.contentHash, keys.legacyContentHash]

/-- The loop of `_find_compatible_source` over the hashes. -/
def findByHash (keys : CaptureKeys) (input : SourceCaptureInput) :
    List String → Capture (Option SourceRow)
  | [] => pure none
  | contentHash :: rest => do
    let rows ← storeCall env fun _ => do
      let s ← get
      return s.sourcesByContentHash contentHash
    match rows.find? (acceptsByHash env keys input) with
    | some source => pure (some source)
    | none => findByHash keys input rest

/-- `_find_compatible_source`. The source a text was captured as before: by its key, or
by a hash under the labels of the request. -/
def findCompatibleSource (keys : CaptureKeys) (input : SourceCaptureInput) :
    Capture (Option SourceRow) := do
  let byKey ← storeCall env fun _ => do
    let s ← get
    return s.sourceByDedupeKey keys.dedupeKey
  match byKey.filter (acceptsByKey env keys input) with
  | some source => pure (some source)
  | none => findByHash env keys input keys.hashes

/-! ### Claiming the source -/

/-- How a claim ends. -/
inductive Claim where
  | duplicate (sourceId : String)
  | created (source : SourceRow)

/-- The part of `capture_source` that finds or inserts the source. -/
def claimSource (input : SourceCaptureInput) (keys : CaptureKeys) : Capture Claim := do
  match ← findCompatibleSource env keys input with
  | some duplicate =>
    logEvent env "source.duplicate_skipped" (some duplicate.id)
    return .duplicate duplicate.id
  | none =>
    match ← getOrCreateSource env (sourceRecord env svc input keys) with
    | (source, true) => return .created source
    | (source, false) =>
      raiseIf (matchesRequest env source [keys.contentHash] keys input = false)
        (.storeInvariant "atomic source dedupe winner does not match capture identity")
      logEvent env "source.duplicate_skipped" (some source.id)
      return .duplicate source.id

/-! ### Reading candidates -/

/-- The candidates on the lines of one chunk. -/
def chunkCandidates (chunk : ChunkRow) : List CaptureCandidate :=
  (splitlines chunk.text).filterMap fun line =>
    (env.candidateFromLine line).map fun c => ⟨c, chunk.id, chunk.chunkIndex⟩

/-- What `extract_candidate_memories` takes for one candidate. -/
def CaptureCandidate.batchKey (candidate : CaptureCandidate) : String :=
  candidate.line.memoryType ++ ":" ++ env.casefold candidate.line.text

/-- `extract_candidate_memories`: the first candidate of each key. -/
def extractCandidateMemories (chunks : List ChunkRow) : List CaptureCandidate :=
  (chunks.flatMap (chunkCandidates env)).foldl (fun kept candidate =>
    if candidate.batchKey env ∈ kept.map (·.batchKey env) then kept else kept ++ [candidate]) []

/-- `USER_ASSERTED_VALUE_RULE`. -/
def userAssertedValueRule : String := "user_asserted_value"

/-- The statuses `find_live_memory_by_canonical_text` looks among. -/
def liveMemoryStatuses : List MemoryStatus :=
  [.candidate, .active, .accepted, .needsReview, .privateOnly]

/-- `alice_project_scope_identity(metadata_json, project_id)`. -/
def CandidateMemory.scopeIdentity (row : CandidateMemory) : List String :=
  (resolveProjectScope [("metadata_json", .obj row.metadataJson),
    ("project_id", .optStr row.projectId)]).identity

/-- Whether `find_live_memory_by_canonical_text` finds a row. -/
def CaptureStore.hasLiveMemory (s : CaptureStore) (canonicalText domain sensitivity : String)
    (projectScope : List String) : Bool :=
  strip canonicalText ≠ "" && s.memories.any fun row =>
    row.deletedAt.isNone && decide (row.status ∈ liveMemoryStatuses)
      && asciiLower row.canonicalText == asciiLower (strip canonicalText)
      && row.domain == domain && row.sensitivity == sensitivity
      && decide (row.scopeIdentity = projectScopeIdentity (.strs projectScope))

/-- `_drop_cross_batch_user_asserted_duplicates`. A value the user asserted is proposed
once, also over several captures; other candidates are not compared. -/
def dropUserAssertedDuplicates (keys : CaptureKeys) (input : SourceCaptureInput) :
    List CaptureCandidate → Capture (List CaptureCandidate)
  | [] => pure []
  | candidate :: rest =>
    if candidate.line.extractionRule = userAssertedValueRule then do
      let found ← storeCall env fun _ => do
        let s ← get
        return s.hasLiveMemory candidate.line.text input.domain input.sensitivity keys.projectScope
      let kept ← dropUserAssertedDuplicates keys input rest
      return if found then kept else candidate :: kept
    else do
      let kept ← dropUserAssertedDuplicates keys input rest
      return candidate :: kept

/-! ### Filling the source -/

/-- `_truncate`. -/
def truncateText (value : String) (maxLength : Nat) : String :=
  if value.length ≤ maxLength then value
  else String.ofList
    (((value.toList.take (maxLength - 3)).reverse.dropWhile isSpace).reverse ++ "...".toList)

/-- `_memory_key`. -/
def captureMemoryKey (contentHash : String) (candidate : CaptureCandidate)
    (domain sensitivity : String) : String :=
  let identity := contentHash ++ "|" ++ toString candidate.sourceChunkIndex ++ "|"
    ++ candidate.line.text ++ "|domain:" ++ (if domain = "" then "unknown" else domain)
    ++ "|sensitivity:" ++ (if sensitivity = "" then "unknown" else sensitivity)
  "vnext.capture." ++ candidate.line.memoryType ++ "."
    ++ String.ofList ((env.sha256 identity).toList.take 16)

/-- `canonical_memory_metadata`, from the columns that carry a scope. -/
def candidateMetadata (projectId : Option String) (metadata : Dict Json) : Dict Json :=
  let resolution := resolveProjectScope [("project_id", .optStr projectId),
    ("metadata_json", .obj metadata)]
  if resolution.present ∨ resolution.values ≠ [] then
    metadata.set "project_scope" (.strs resolution.values)
  else metadata

/-- The memory written for a candidate. -/
def candidateRecord (input : SourceCaptureInput) (keys : CaptureKeys) (sourceId : String)
    (candidate : CaptureCandidate) (id : String) : CandidateMemory :=
  let projectId := match keys.projectScope with
    | [project] => some project
    | _ => none
  let metadata : Dict Json :=
    [("source_id", .str sourceId), ("source_chunk_id", .str candidate.sourceChunkId),
      ("source_chunk_index", .int candidate.sourceChunkIndex),
      ("extraction_rule", .str candidate.line.extractionRule),
      ("capture_content_hash", .str keys.contentHash)]
  -- only a line said by a speaker has a role and an assertion class
  let provenance : Dict Json := match candidate.line.provenance with
    | some (role, assertion) =>
      [("provenance_role", .str role), ("assertion_class", .str assertion)]
    | none => []
  { id := id
    memoryKey := captureMemoryKey env keys.contentHash candidate input.domain input.sensitivity
    value := [("text", .str candidate.line.text), ("source_id", .str sourceId),
      ("source_chunk_id", .str candidate.sourceChunkId)]
    status := .candidate
    sourceEventIds := [sourceId, candidate.sourceChunkId]
    memoryType := candidate.line.memoryType
    confidence := candidate.line.confidence
    title := truncateText candidate.line.text 120
    canonicalText := candidate.line.text
    summary := truncateText candidate.line.text 280
    domain := input.domain
    sensitivity := input.sensitivity
    projectId := projectId
    createdByAgentId := if svc.actorType = "agent" then svc.actorId else none
    runId := if svc.actorType = "agent" then svc.runId else none
    -- later fields overwrite earlier ones of the same name
    metadataJson := candidateMetadata projectId
      (((metadata.update provenance).update input.scopeMetadata).update svc.attribution)
    deletedAt := none }

/-- The chunks of the text, stored one by one. -/
def createChunks (sourceId contentHash : String) : List String → Nat → Capture (List ChunkRow)
  | [], _ => pure []
  | chunk :: rest, index => do
    let row ← createSourceChunk env sourceId contentHash index chunk
    let rows ← createChunks sourceId contentHash rest (index + 1)
    return row :: rows

/-- The candidates, each stored with its provenance and its event. -/
def createCandidates (input : SourceCaptureInput) (keys : CaptureKeys) (sourceId : String) :
    List CaptureCandidate → Capture (List CandidateMemory)
  | [] => pure []
  | candidate :: rest => do
    let memory ← createCandidate env (candidateRecord env svc input keys sourceId candidate)
    createProvenanceLink env fun id =>
      { id := id
        targetId := memory.id
        sourceId := sourceId
        sourceChunkId := candidate.sourceChunkId
        quote := candidate.line.text
        evidenceRole := "quoted_from"
        confidence := candidate.line.confidence }
    logEvent env "memory.candidate_created" (some memory.id)
    let rows ← createCandidates input keys sourceId rest
    return memory :: rows

/-- `ENTITY_EXTRACTION_SKIP_SENSITIVITIES`. -/
def entityExtractionSkipSensitivities : List String :=
  ["private", "secret", "confidential", "highly_sensitive", "sacred", "regulated"]

/-- `_link_captured_entities`: a failure is logged, and only the log can raise. -/
def linkCapturedEntities (sourceId sensitivity : String) : Capture Unit :=
  onlyIf (env.casefold sensitivity ∉ entityExtractionSkipSensitivities) <|
    catching (writeElsewhere env) fun _ =>
      logEvent env "entity.extraction_failed" (some sourceId)

/-- `CaptureResult`. -/
structure CaptureResult where
  sourceId : String
  contentHash : String
  duplicate : Bool
  chunkCount : Nat := 0
  candidateMemoryCount : Nat := 0
  /-- The memories whose embedding the caller attaches. -/
  deferredEmbeddingInputs : List String := []

/-- The part of `capture_source` that follows the insertion of the source. -/
def fillSource (input : SourceCaptureInput) (keys : CaptureKeys) (source : SourceRow) :
    Capture CaptureResult := do
  logEvent env "source.captured" (some source.id)
  -- `chunk_text` checks its bound after the source was inserted
  raiseIf (svc.chunkMaxChars < 200) (.validation "chunk max_chars must be at least 200")
  let chunks ← createChunks env source.id keys.contentHash
    (env.chunkText keys.text svc.chunkMaxChars) 0
  logEvent env "source.chunked" (some source.id)
  let candidates ← dropUserAssertedDuplicates env keys input (extractCandidateMemories env chunks)
  let memories ← createCandidates env svc input keys source.id candidates
  -- embeddings are computed now, or named in the answer for later
  onlyIf (!svc.deferEmbeddings) (writeElsewhere env)
  linkCapturedEntities env source.id input.sensitivity
  return { sourceId := source.id
           contentHash := keys.contentHash
           duplicate := false
           chunkCount := chunks.length
           candidateMemoryCount := candidates.length
           deferredEmbeddingInputs :=
             if svc.deferEmbeddings then memories.map (·.id) else [] }

/-- `capture_source` without its handler. -/
def captureBody (input : SourceCaptureInput) : Capture CaptureResult := do
  let keys ← orRaise (captureKeys env input) (.validation "source text must not be empty")
  match ← claimSource env svc input keys with
  | .duplicate sourceId =>
    return { sourceId := sourceId, contentHash := keys.contentHash, duplicate := true }
  | .created source => fillSource env svc input keys source

/-- `_log_failure`. -/
def logFailure : Capture Unit := logEvent env "source.import_failed" none

/-- `capture_source`. A text is captured once: what is found is answered as a duplicate,
and a new source is filled with its chunks and candidates. -/
def captureSource (input : SourceCaptureInput) : Capture CaptureResult :=
  catching (captureBody env svc input) fun e => do
    logFailure env
    throw e

/-! ### Updating a source -/

/-- The `patch` of `update_source`. A member of the metadata may be given as
`None`, which is not the same as leaving it out. -/
structure SourcePatch where
  title : Option String := none
  author : Option String := none
  uri : Option String := none
  rawPath : Option String := none
  domain : Option String := none
  sensitivity : Option String := none
  metadataJson : Option (Option (Dict Json)) := none

/-- The row the identity is recomputed from: a `None` keeps the column. -/
def SourcePatch.prospective (patch : SourcePatch) (current : SourceRow) : SourceRow :=
  { current with
    title := patch.title.or current.title
    author := patch.author.or current.author
    uri := patch.uri.or current.uri
    rawPath := patch.rawPath.or current.rawPath
    domain := patch.domain.getD current.domain
    sensitivity := patch.sensitivity.getD current.sensitivity
    metadataJson := patch.metadataJson.join.getD current.metadataJson }

/-- The row that is written: `COALESCE` keeps a column, but metadata given as
`None` are written as an empty object. -/
def SourcePatch.written (patch : SourcePatch) (contentHash : String) (dedupeKey : Option String)
    (current : SourceRow) : SourceRow :=
  { patch.prospective current with
    metadataJson := match patch.metadataJson with
      | some metadata => metadata.getD []
      | none => current.metadataJson
    contentHash := contentHash
    dedupeKey := dedupeKey }

/-- The keys `update_source` writes: recomputed where what they are made of
has changed. -/
def updatedKeys (current prospective : SourceRow) : String × Option String :=
  let scopeChanged : Bool := current.scopeIdentity ≠ prospective.scopeIdentity
  let identityChanged := !sourceCaptureIdentityMatches env current [] prospective.scopeIdentity
    prospective.domain prospective.sensitivity
  let rawTextChanged : Bool := current.captureRawText ≠ prospective.captureRawText
  (if scopeChanged || rawTextChanged then
      (prospective.captureContentHash env).getD current.contentHash
    else current.contentHash,
    if identityChanged || rawTextChanged then prospective.captureDedupeKey env
    else current.dedupeKey)

/-- `update_source`. The key is computed anew from what the patch leaves, and must be
free among the live sources. -/
def updateSource (sourceId : String) (patch : SourcePatch) : Capture SourceRow :=
  storeCall env fun _ => do
    let s ← get
    let current ← orRaise (s.getSource sourceId)
      (.storeInvariant "update_source did not return a row from the database")
    let (contentHash, dedupeKey) := updatedKeys env current (patch.prospective current)
    -- the unique index over the live sources
    raiseIf (dedupeKey.isSome = true ∧ dedupeKey ≠ current.dedupeKey ∧
        ∃ other ∈ s.liveSources, other.id ≠ sourceId ∧ other.dedupeKey = dedupeKey)
      (.storeInvariant "source capture identity already belongs to another live source")
    let row := patch.written contentHash dedupeKey current
    raiseIf (row.checks = false)
      (.storeInvariant "source capture identity already belongs to another live source")
    set { s with
      sources := s.sources.rewrite sourceId ⟨patch.written contentHash dedupeKey, fun _ => rfl⟩ }
    appendCaptureEvent "source.updated" (some sourceId)
    return row

end AliceBot
