import AliceBot.Library.Run
import AliceBot.RedactionGuard

/-!
# The writers of the event log

The program's own writers of events, one constructor of `LogWriter` for each
shape of linkages an event can have, and the redaction of a memory among them.
`LogWriter.apply` performs one call; `none` is a call that writes nothing,
because it raised, was refused or was a replay.

A row is looked up by `::uuid`, which reads many spellings of its id. The events
of a table's own writes name the row by the id stored; the services above log
the text their caller gave.

Of all linkage shapes only three log a memory next to an artifact text that
leads nowhere, `LogWriter.conflicts`: the promotion of an artifact to a memory,
the ingestion of an agent's output that proposes one, and the acceptance of a
project update under another spelling of its artifact's id.
-/

namespace AliceBot

open PyLib

/-! ### State and events -/

/-- The tables the writers share; of a memory, its id. -/
structure LogState where
  memories : List String := []
  artifacts : List ArtifactRow := []
  events : List EventRow := []

/-- The columns of an event that carry no linkage. -/
structure EventHeader where
  id : String
  userId : String
  actorType : String
  actorId : Option String := none
  occurredAt : String
  traceId : Option String := none
  runId : Option String := none
  integrityHash : Option String := none

/-- The payload keys behind the generated linkage columns. -/
def linkageKeys : List String := ["artifact_id", "candidate_memory_id", "memory_id"]

theorem getStr?_nil_of_linkage : ∀ key ∈ linkageKeys, Dict.getStr? [] key = none := by
  decide

/-- A payload none of whose linkage keys holds a string. -/
structure PlainPayload where
  items : Dict Json := []
  plain : ∀ key ∈ linkageKeys, items.getStr? key = none := by
    first | exact getStr?_nil_of_linkage | decide

/-- `payload[key] = value` for a value that is given. -/
def setOptional (d : Dict Json) (key : String) : Option String → Dict Json
  | some value => d.set key (.str value)
  | none => d

/-- One event: its target, and a payload with the linkages given. -/
def EventHeader.event (h : EventHeader) (eventType : String) (target : Option (String × String))
    (payload : PlainPayload) (artifact candidate memory : Option String) : EventRow :=
  { id := h.id
    userId := h.userId
    eventType := eventType
    actorType := h.actorType
    actorId := h.actorId
    targetType := target.map (·.1)
    targetId := target.map (·.2)
    occurredAt := h.occurredAt
    payloadJson := setOptional (setOptional (setOptional payload.items "artifact_id" artifact)
      "candidate_memory_id" candidate) "memory_id" memory
    traceId := h.traceId
    runId := h.runId
    integrityHash := h.integrityHash }

/-- An event on a memory. -/
def EventHeader.onMemory (h : EventHeader) (eventType : String) (memoryId : String)
    (payload : PlainPayload) : EventRow :=
  h.event eventType (some ("memory", memoryId)) payload none none none

/-- An event on an artifact, with or without the artifact's id in the payload. -/
def EventHeader.onArtifact (h : EventHeader) (eventType : String) (artifactId : String)
    (payload : PlainPayload) (named : Bool) : EventRow :=
  h.event eventType (some ("artifact", artifactId)) payload
    (if named then some artifactId else none)
    none none

/-! ### The writers -/

/-- One call of a writer. -/
inductive LogWriter where
  /-- `create_memory`. -/
  | createMemory (h : EventHeader) (memoryId : String) (payload : PlainPayload)
  /-- Any other `memory.*` event on a memory: updates, commits, lifecycle
  transitions, capture candidates, reviews, sweeps, failed derivations. -/
  | memoryEvent (h : EventHeader) (eventType memoryId : String) (payload : PlainPayload)
  /-- `create_artifact` by the queue, the scheduler workflows and the reports. -/
  | createArtifact (h : EventHeader) (artifactId artifactType status content : String)
  /-- `artifact.updated`, `artifact.quality_rated`,
  `artifact.insight_feedback_recorded`, `scheduler.artifact_created` and the
  workflow events on their artifact. -/
  | artifactEvent (h : EventHeader) (eventType artifactId : String) (payload : PlainPayload)
      (named : Bool)
  /-- An event whose target is neither a memory nor an artifact:
  `queue.task_completed` and `scheduler.run_*` with the artifact they made,
  policy, source, open-loop and sweep events without one. -/
  | workEvent (h : EventHeader) (eventType targetType targetId : String) (payload : PlainPayload)
      (artifactId : Option String)
  /-- `create_belief`. -/
  | createBelief (h : EventHeader) (beliefId memoryId : String)
  /-- The project update scan: a candidate memory and its artifact. -/
  | proposeProjectUpdate (h : EventHeader) (memoryId artifactId content : String)
      (payload : PlainPayload)
  /-- The review of a project update. -/
  | reviewProjectUpdate (h : EventHeader) (artifactId action projectId : String)
      (payload : PlainPayload)
  /-- `VNextQueueService.review_artifact` below promotion. -/
  | reviewArtifact (h : EventHeader) (artifactId action : String)
  /-- `VNextQueueService._promote_artifact`. -/
  | promoteArtifact (h : EventHeader) (artifactId memoryId : String)
  /-- `ingest_agent_output`, with the memory proposed, if one is. -/
  | ingestAgentOutput (h : EventHeader) (artifactId artifactType content : String)
      (proposed : Option String)
  /-- `redact_memory_bundle`, and whether anything outside the log changed. -/
  | redactMemory (h : EventHeader) (memoryId : String) (contentChanged : Bool)

/-- `ARTIFACT_STATUS_TRANSITIONS`. -/
def artifactStatusTransitions : String → List String
  | "draft" => ["reviewed", "accepted", "rejected", "archived", "promoted_to_memory"]
  | "needs_review" => ["reviewed", "accepted", "rejected", "archived", "promoted_to_memory"]
  | "reviewed" => ["accepted", "rejected", "archived", "promoted_to_memory"]
  | "accepted" => ["rejected", "archived", "promoted_to_memory"]
  | "rejected" => ["archived"]
  | "superseded" => ["archived"]
  | _ => []

/-- `action_to_status` of `review_artifact`. -/
def actionToStatus : String → Option String
  | "review" => some "reviewed"
  | "accept" => some "accepted"
  | "reject" => some "rejected"
  | "archive" => some "archived"
  | _ => none

/-- `is_project_update_artifact`. -/
def isProjectUpdateArtifact (a : ArtifactRow) : Bool :=
  a.artifactType == "project_update" || a.workflow == some "project_auto_update"

namespace LogState

variable (uuid : UuidInput)

/-- `get_artifact_for_update`: the row is found under every spelling of its id. -/
def artifact? (s : LogState) (artifactId : String) : Option ArtifactRow :=
  (uuid.read artifactId).bind fun id => s.artifacts.find? (·.id == id)

/-- `get_memory_for_update`: the id of the row found. -/
def memory? (s : LogState) (memoryId : String) : Option String :=
  (uuid.read memoryId).bind fun id => s.memories.find? (· == id)

/-- Append to the event log. -/
def log (s : LogState) (events : List EventRow) : LogState :=
  { s with events := s.events ++ events }

/-- Insert a memory row. The id is new, and as the database gives it back. -/
def insertMemory (s : LogState) (memoryId : String) : Option LogState :=
  if uuid.read memoryId = some memoryId ∧ memoryId ∉ s.memories then
    some { s with memories := s.memories ++ [memoryId] }
  else none

/-- Insert an artifact row. The id is new, and as the database gives it back. -/
def insertArtifact (s : LogState) (row : ArtifactRow) : Option LogState :=
  if uuid.read row.id = some row.id ∧ row.id ∉ s.artifacts.map (·.id) then
    some { s with artifacts := s.artifacts ++ [row] }
  else none

/-- Update the columns of an artifact that are not linkages. -/
def updateArtifact (s : LogState) (artifactId : String)
    (status : String) (content : String) (reviewAction : Option String) : LogState :=
  { s with artifacts := s.artifacts.map fun a =>
      if a.id == artifactId then
        { a with status := status, contentMarkdown := content, reviewAction := reviewAction }
      else a }

/-- Every artifact coupled to the memory has been reviewed. -/
def redactionReady (s : LogState) (memoryId : String) : Bool :=
  s.artifacts.all fun a =>
    a.artifactType != "project_update" || a.candidateMemoryId != some memoryId
      || (a.workflow == some "project_auto_update"
        && ((a.status == "accepted" && (a.reviewAction == some "accept"
              || a.reviewAction == some "edit"))
          || (a.status == "rejected" && a.reviewAction == some "reject")))

/-- The event update of `redact_memory_bundle`, row by row under the guard.
One refused row aborts the statement. -/
def redactEvents (s : LogState) (memoryId : String) : Option (List EventRow) :=
  if s.events.all fun e => !redactionSelects s.artifacts memoryId e
      || guardAdmits s.artifacts true e (e.redacted memoryId) then
    some (s.events.map fun e =>
      if redactionSelects s.artifacts memoryId e then e.redacted memoryId else e)
  else none

end LogState

section Calls

variable (uuid : UuidInput)

/-- One call. `none` wrote nothing. -/
def LogWriter.apply (s : LogState) : LogWriter → Option LogState
  | .createMemory h memoryId payload => do
    let s ← s.insertMemory uuid memoryId
    pure (s.log [h.onMemory "memory.created" memoryId payload])
  | .memoryEvent h eventType memoryId payload => do
    let _ ← s.memory? uuid memoryId
    pure (s.log [h.onMemory eventType memoryId payload])
  | .createArtifact h artifactId artifactType status content => do
    let s ← s.insertArtifact uuid
      { id := artifactId, artifactType := artifactType, status := status
        contentMarkdown := content }
    pure (s.log [h.onArtifact "artifact.created" artifactId {} false])
  | .artifactEvent h eventType artifactId payload named => do
    let _ ← s.artifact? uuid artifactId
    pure (s.log [h.onArtifact eventType artifactId payload named])
  | .workEvent h eventType targetType targetId payload artifactId =>
    if targetType ∈ ["memory", "artifact"] then none
    else some (s.log [h.event eventType (some (targetType, targetId)) payload artifactId none none])
  | .createBelief h beliefId memoryId => do
    -- the foreign key is checked, and the row written gives the id back
    let id ← s.memory? uuid memoryId
    pure (s.log [h.event "belief.created" (some ("belief", beliefId))
      { items := [("operation", .str "create")] } none none (some id)])
  | .proposeProjectUpdate h memoryId artifactId content payload => do
    -- the candidate is upserted under its key, so it may be there already
    let (s, created) := match s.insertMemory uuid memoryId with
      | some s => (s, [h.onMemory "memory.created" memoryId {}])
      | none => (s, [])
    let s ← s.insertArtifact uuid
      { id := artifactId, artifactType := "project_update", status := "needs_review"
        contentMarkdown := content, workflow := some "project_auto_update"
        candidateMemoryId := some memoryId }
    pure (s.log (created ++ [h.onArtifact "artifact.created" artifactId {} false,
      h.event "project.update_candidate_created" (some ("artifact", artifactId)) payload none
        (some memoryId) none]))
  | .reviewProjectUpdate h artifactId action projectId payload => do
    let row ← s.artifact? uuid artifactId
    let memoryId ← row.candidateMemoryId
    let id ← s.memory? uuid memoryId
    if row.artifactType == "project_update" && row.status == "needs_review"
        && action ∈ ["accept", "edit", "reject"] then
      let status := if action == "reject" then "rejected" else "accepted"
      let s := s.updateArtifact row.id status row.contentMarkdown (some action)
      let shared := [h.onMemory "memory.updated" id {},
        h.onArtifact "artifact.updated" row.id {} false]
      -- the decision is logged under the caller's spelling
      let decision := if action == "reject" then
          h.onArtifact "project.update_candidate_rejected" artifactId payload false
        else
          h.event "project.update_candidate_accepted" (some ("project", projectId)) payload
            (some artifactId) (some memoryId) none
      pure (s.log (shared ++ [decision]))
    else none
  | .reviewArtifact h artifactId action => do
    let row ← s.artifact? uuid artifactId
    let status ← actionToStatus action
    if !isProjectUpdateArtifact row && status ∈ artifactStatusTransitions row.status then
      let s := s.updateArtifact row.id status row.contentMarkdown row.reviewAction
      pure (s.log [h.onArtifact "artifact.updated" row.id {} false,
        h.onArtifact "artifact.reviewed" artifactId {} false])
    else none
  | .promoteArtifact h artifactId memoryId => do
    let row ← s.artifact? uuid artifactId
    if !isProjectUpdateArtifact row && "promoted_to_memory" ∈ artifactStatusTransitions row.status
        && strip row.contentMarkdown != "" then
      let s ← s.insertMemory uuid memoryId
      let s := s.updateArtifact row.id "promoted_to_memory" row.contentMarkdown row.reviewAction
      pure (s.log [h.onMemory "memory.created" memoryId {},
        h.onArtifact "artifact.updated" row.id {} false,
        h.event "artifact.promoted_to_memory" (some ("artifact", artifactId)) {} none none
          (some memoryId)])
    else none
  | .ingestAgentOutput h artifactId artifactType content proposed => do
    let s ← s.insertArtifact uuid
      { id := artifactId, artifactType := artifactType, status := "needs_review"
        contentMarkdown := content }
    let s := s.log [h.onArtifact "artifact.created" artifactId {} false]
    match proposed with
    | none => pure (s.log [h.event "agent.output_ingested" (some ("connector", "agent_output")) {}
        (some artifactId) none none])
    | some memoryId =>
      let s ← s.insertMemory uuid memoryId
      pure (s.log [h.onMemory "memory.created" memoryId {},
        h.event "memory.candidate_created" (some ("connector", "agent_output")) {}
          (some artifactId) none (some memoryId),
        h.event "agent.output_ingested" (some ("connector", "agent_output")) {}
          (some artifactId) none (some memoryId)])
  | .redactMemory h memoryId contentChanged => do
    let _ ← s.memory? uuid memoryId
    -- from here on the text the caller gave is compared, not the row's id
    if s.redactionReady memoryId then do
      let events ← s.redactEvents memoryId
      let changed := contentChanged || s.events.any (redactionSelects s.artifacts memoryId)
      let receipt := { h with integrityHash := none }.event "memory.redacted"
        (some ("memory", memoryId)) { items := [("redacted", .bool true),
          ("event_type", .str "memory.redacted")] } none none (some memoryId)
      pure { s with
        artifacts := s.artifacts.map fun a =>
          if a.candidateMemoryId == some memoryId && a.artifactType == "project_update" then
            { a with contentMarkdown := "[REDACTED]" }
          else a
        events := events ++ if changed then [receipt] else [] }
    else none

/-- The calls that log a memory next to an artifact text coupled to nothing. -/
def LogWriter.conflicts : LogWriter → Bool
  | .promoteArtifact .. => true
  | .ingestAgentOutput _ _ _ _ (some _) => true
  | .reviewProjectUpdate _ artifactId action _ _ =>
    action != "reject" && uuid.read artifactId != some artifactId
  | _ => false

end Calls

end AliceBot
