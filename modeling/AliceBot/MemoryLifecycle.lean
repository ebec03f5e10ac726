import AliceBot.MemoryCommit

/-!
# Lifecycle calls on memories

`VNextMemoryCommitService.undo`, `.forget`, `.correct`, `.expire` and
`.unexpire`, with the two routines they share: `transitionMemory`, which
retires a row and records its successor, and
`invalidatePendingDerivedCandidates`, which makes stale every pending
consolidation candidate that was derived from a row that changes.

Every call first reads its row, then checks the policy, then writes from the
row as it was read.
-/

namespace AliceBot

open PyLib

variable (env : Env)

/-! ### Project updates and consolidation candidates -/

/-- `is_project_update_memory`. -/
def isProjectUpdateMemory (memory : MemoryRow) : Bool :=
  memory.metadataJson.getStr? "workflow" == some "project_auto_update"
    || startsWith (strip memory.memoryKey) "project_update."

/-- `is_pending_project_update_memory`. -/
def isPendingProjectUpdateMemory (memory : MemoryRow) : Bool :=
  isProjectUpdateMemory memory
    && !(match memory.metadataJson.get? "candidate" with
      | some (.bool b) => !b
      | _ => false)

/-- `_require_project_update_decision_path`. -/
def requireProjectUpdateDecisionPath (memory : MemoryRow) : Service Unit :=
  raiseIf (isPendingProjectUpdateMemory memory = true) (.validation
    "pending project update candidates must be reviewed through the project update workflow")

/-- `DERIVED_CONSOLIDATION_CANDIDATE_KINDS`. -/
def derivedConsolidationCandidateKinds : List String := ["memory_consolidation", "memory_rollup"]

/-- `metadata["consolidation"]` where it is a mapping. -/
def consolidationOf? (memory : MemoryRow) : Option (Dict Json) :=
  (memory.metadataJson.item "consolidation").asObj?

/-- `isinstance(consolidation.get("accepted"), Mapping)`. -/
def acceptedRecord? (consolidation : Dict Json) : Option (Dict Json) :=
  (consolidation.item "accepted").asObj?

/-- `candidate_kind` is one of the derived kinds. -/
def hasDerivedKind (memory : MemoryRow) : Bool :=
  (memory.metadataJson.getStr? "candidate_kind").any
    fun kind => decide (kind ∈ derivedConsolidationCandidateKinds)

/-- `is_pending_consolidation_candidate`. -/
def isPendingConsolidationCandidate (memory : MemoryRow) : Bool :=
  match consolidationOf? memory with
  | none => hasDerivedKind memory
  | some consolidation => (acceptedRecord? consolidation).isNone

/-! ### Validity windows -/

/-- `_is_unbounded_valid_to`. -/
def isUnboundedValidTo : Option ValidityEnd → Bool
  | some (.moment u) => decide (9999 ≤ u.date.year)
  | some (.text raw) => startsWith raw "9999-"
  | none => false

/-- `VALID_TO_UNBOUNDED_SENTINEL`, `9999-12-31T23:59:59Z`. -/
def validToUnboundedSentinel : UtcMoment :=
  ⟨.ofFields 9999 12 31 (Eq.refl true), .ofFields 23 59 59 0 (Eq.refl true)⟩

/-- The conversion to UTC inside `_valid_to_iso`. -/
def toUtcMoment (value : PyDateTime) : Service UtcMoment :=
  orRaise value.moment.toUtc (.python "OverflowError")

/-- `_valid_to_iso`. Nothing given means now. -/
def validToIso : TimestampValue → Service UtcMoment
  | .absent => utcNow env
  | .datetime value => toUtcMoment value
  | .text s =>
    match env.fromisoformat (replaceAll s "Z" "+00:00") with
    | none => throw (.validation "valid_to must be an ISO-8601 timestamp")
    | some value => toUtcMoment value

/-- `_earliest_valid_to`. A legacy text is replaced. -/
def earliestValidTo (existing : Option ValidityEnd) (replacement : UtcMoment) : UtcMoment :=
  match existing with
  | some (.moment u) => if u.instant ≤ replacement.instant then u else replacement
  | _ => replacement

/-! ### Derived candidates -/

/-- The patch that makes a pending candidate stale. -/
def invalidationPatch (candidate : MemoryRow) (consolidation : Dict Json)
    (memberId reason : String) (invalidatedAt : UtcMoment) : MemoryPatch :=
  { status := some .stale
    promotionEligibility := some "not_promotable"
    lastReviewedAt := some invalidatedAt
    metadataJson := some <| (candidate.metadataJson.set "review_required" (.bool false)).set
      "consolidation" (.obj (consolidation.set "invalidated"
        (.obj [("invalidated_at", isoJson invalidatedAt), ("member_id", .str memberId),
          ("reason", .str reason)]))) }

/-- The body of the loop of `_invalidate_pending_derived_candidates`. -/
def invalidateCandidate (identity : Option AgentIdentity) (memberId reason : String)
    (invalidatedAt : UtcMoment) (candidate : MemoryRow) : Service Unit :=
  match consolidationOf? candidate with
  | none => pure ()
  | some consolidation =>
    -- one that was accepted is no candidate any more
    if (acceptedRecord? consolidation).isSome then pure ()
    else do
      let updated ← updateMemory env candidate.id
        (invalidationPatch candidate consolidation memberId reason invalidatedAt)
        (actorOf identity)
      reviseMemory candidate updated "rejected" "memory_consolidation_candidate_invalidated"
        updated.canonicalText reason (actorOf identity)
      appendMemoryEvent env "agent.memory_consolidation_candidate_invalidated"
        (actorOf identity) candidate.id

/-- `_invalidate_pending_derived_candidates`. The candidates that still wait and were
derived from the memory are made stale, but for the one being accepted. -/
def invalidatePendingDerivedCandidates (memberId : String) (identity : Option AgentIdentity)
    (reason : String) (excludeMemoryId : Option String) : Service Unit := do
  let invalidatedAt ← utcNow env
  let s ← get
  (s.pendingDerivedCandidates env memberId excludeMemoryId).forM
    (invalidateCandidate env identity memberId reason invalidatedAt)

/-! ### Retiring a row -/

/-- `require_valid_supersession_successor`. A successor has to be accepted and live; a
candidate is one only for its own acceptance. -/
def requireValidSupersessionSuccessor (successor : MemoryRow)
    (allowPendingConsolidation : Bool) : Service Unit :=
  raiseIf (¬ (successor.status ∈ supersessionSuccessorStatuses ∨
      allowPendingConsolidation = true ∧
        successor.status ∈ [MemoryStatus.candidate, .needsReview]))
    (.validation ("superseding memory must be an accepted live successor; got status '"
      ++ successor.status.text ++ "'"))

/-- `_guard_supersession_acyclic`. A successor that would close a cycle is refused, and
so is one whose chain cannot be followed to its end. -/
def guardSupersessionAcyclic (memory successor : MemoryRow) (allowPendingConsolidation : Bool) :
    Service Unit := do
  requireValidSupersessionSuccessor successor allowPendingConsolidation
  let s ← get
  match supersessionWouldCycle MemoryRow.id supersessionPointer s.getMemory memory.id successor with
  | .error e => throw (.validation e.message)
  | .ok true => throw (.validation ("cannot supersede a memory with one of its own predecessors; "
      ++ "that would create a supersession cycle"))
  | .ok false => pure ()

/-- The constant arguments of one kind of transition. -/
structure Transition where
  operation : LifecycleOperation
  lifecycleStatus : String
  nextStatus : MemoryStatus := .superseded
  eventType : String
  revisionType : String
  action : String
  setSuccessorPointer : Bool := true
  excludeDerivedCandidateId : Option String := none
  allowPendingConsolidationSuccessor : Bool := false

/-- The `agentic_memory` part after a transition. -/
def transitionedAgentic (memory : MemoryRow) (lifecycleStatus reason : String) (now : UtcMoment) :
    Dict Json :=
  let history := ((memory.agentic.item "lifecycle_history").asArr?).getD []
  (memory.agentic.set "lifecycle_status" (.str lifecycleStatus)).set "lifecycle_history"
    (.arr (history ++ [.obj [("status", .str lifecycleStatus), ("at", isoJson now),
      ("reason", .str reason)]]))

/-- The patch of a transition without a successor. -/
def retirePatch (memory : MemoryRow) (transition : Transition) (reason : String)
    (now : UtcMoment) : MemoryPatch :=
  { status := some transition.nextStatus
    metadataJson := some (withAgentic memory
      (transitionedAgentic memory transition.lifecycleStatus reason now)) }

/-- The patch of a transition with a successor: both copies of the pointer, and
the window closed at the replacement's event time. -/
def supersedePatch (memory : MemoryRow) (transition : Transition) (reason : String)
    (now : UtcMoment) (successorId : String) (replacementTime : UtcMoment) : MemoryPatch :=
  { status := some transition.nextStatus
    metadataJson := some ((memory.metadataJson.set "superseded_by" (.str successorId)).set
      "agentic_memory" (.obj (transitionedAgentic memory transition.lifecycleStatus reason now)))
    supersededBy := some successorId
    validTo := some (.moment (earliestValidTo memory.validTo replacementTime)) }

/-- `supersession_event_time(…) or _utc_iso()`. -/
def replacementEventTime (successor : MemoryRow) : Service UtcMoment :=
  match env.supersessionEventTime successor with
  | some u => pure u
  | none => utcNow env

/-- The patch of a transition. -/
def transitionPatch (memory : MemoryRow) (transition : Transition) (reason : String)
    (now : UtcMoment) : Option MemoryRow → Service MemoryPatch
  | none => pure (retirePatch memory transition reason now)
  | some successor => do
    let replacementTime ← replacementEventTime env successor
    pure (supersedePatch memory transition reason now successor.id replacementTime)

/-- The patch of the successor. -/
def successorPatch (memory successor : MemoryRow) : MemoryPatch :=
  { supersedes := some memory.id
    metadataJson := some (successor.metadataJson.set "supersedes" (.str memory.id)) }

/-- `_transition_memory`. A memory is retired, or moved to another status: the checks,
the candidates derived from it, the row, its successor, and the log. -/
def transitionMemory (identity : Option AgentIdentity) (memory : MemoryRow)
    (transition : Transition) (reason : String) (supersededBy : Option MemoryRow) :
    Service MemoryRow := do
  let _ ← requireTransition transition.operation memory.status
  match supersededBy with
  | none => pure ()
  | some successor =>
    guardSupersessionAcyclic memory successor transition.allowPendingConsolidationSuccessor
  -- the checks are done; the candidates that were derived from the memory go first
  let now ← utcNow env
  invalidatePendingDerivedCandidates env memory.id identity
    ("source memory transitioned to " ++ transition.nextStatus.text
      ++ " after the derived candidate was proposed") transition.excludeDerivedCandidateId
  let patch ← transitionPatch env memory transition reason now supersededBy
  let updated ← updateMemory env memory.id patch (actorOf identity)
  match supersededBy with
  | none => pure ()
  | some successor =>
    -- the successor points back, unless the caller writes that itself
    if transition.setSuccessorPointer then
      let _ ← updateMemory env successor.id (successorPatch memory successor) (actorOf identity)
  reviseMemory memory updated transition.revisionType transition.action updated.canonicalText
    reason (actorOf identity)
  appendMemoryEvent env transition.eventType (actorOf identity) updated.id
  pure updated

/-! ### Undo and forget -/

/-- The answer of a lifecycle call. -/
structure LifecycleAnswer where
  status : String
  memory : MemoryRow
  idempotentReplay : Bool := false

/-- The row a lifecycle call is about. -/
def lockedMemory (memoryId : String) (missing : String := "memory was not found") :
    Service MemoryRow := do
  let s ← get
  orRaise (s.getMemory memoryId) (.validation missing)

/-- The row `undo` is about: the one named, or the latest commit. -/
def undoTarget (identity : Option AgentIdentity) : Option String → Service MemoryRow
  | some memoryId =>
    if memoryId = "" then latestTarget else lockedMemory memoryId
  | none => latestTarget
where
  latestTarget : Service MemoryRow := do
    let s ← get
    let latest ← orRaise (s.latestAgenticCommit (identity.map (·.agentId)))
      (.validation "memory was not found")
    lockedMemory latest.id

/-- The successor `undo` was given. -/
def undoSuccessor (identity : Option AgentIdentity) (memory : MemoryRow) :
    Option String → Service (Option MemoryRow)
  | none => pure none
  | some successorId => do
    let successor ← lockedMemory successorId "superseding memory was not found"
    raiseIf (successor.id = memory.id) (.validation "a memory cannot supersede itself")
    requireProjectUpdateDecisionPath successor
    let _ ← policyCheckedWrite env identity "memory.undo" successor
    pure (some successor)

def undoTransition : Transition where
  operation := .undo
  lifecycleStatus := "undone"
  eventType := "agent.memory_undone"
  revisionType := "superseded"
  action := "agentic_memory_undo"

/-- `undo`. The memory, or the last one committed, is retired, in favour of another one
if the caller names it. -/
def undo (identity : Option AgentIdentity) (memoryId : Option String := none)
    (reason : Option String := none) (supersededByMemoryId : Option String := none) :
    Service LifecycleAnswer := do
  let memory ← undoTarget identity memoryId
  requireProjectUpdateDecisionPath memory
  let _ ← policyCheckedWrite env identity "memory.undo" memory
  let successor ← undoSuccessor env identity memory supersededByMemoryId
  let updated ← transitionMemory env identity memory undoTransition
    (orText reason "Agentic memory commit undone.") successor
  pure { status := undoTransition.lifecycleStatus, memory := updated }

def forgetTransition : Transition where
  operation := .forget
  lifecycleStatus := "forgotten"
  eventType := "agent.memory_forgotten"
  revisionType := "archived"
  action := "agentic_memory_forget"

/-- `forget`. The memory is retired without a successor. -/
def forget (identity : Option AgentIdentity) (memoryId : String)
    (reason : Option String := none) : Service LifecycleAnswer := do
  let memory ← lockedMemory memoryId
  requireProjectUpdateDecisionPath memory
  let _ ← policyCheckedWrite env identity "memory.forget" memory
  let updated ← transitionMemory env identity memory forgetTransition
    (orText reason "Agentic memory forgotten.") none
  pure { status := forgetTransition.lifecycleStatus, memory := updated }

/-! ### Correct -/

/-- The `agentic_memory` part after a correction. -/
def correctedAgentic (memory : MemoryRow) (reason : Option String) (now : UtcMoment) :
    Dict Json :=
  let history := ((memory.agentic.item "corrections").asArr?).getD []
  ((memory.agentic.set "corrections" (.arr (history ++
      [.obj [("corrected_at", isoJson now), ("reason", .optStr reason),
        ("previous_text", .str memory.canonicalText)]]))).set
    "lifecycle_status" (.str "corrected")).set "requires_dashboard_review" (.bool false)

/-- The patch of a correction. -/
def correctionPatch (memory : MemoryRow) (nextText : String) (reason : Option String)
    (now : UtcMoment) : MemoryPatch :=
  { status := some .active
    confirmationStatus := some "confirmed"
    title := some (takeText 120 nextText)
    canonicalText := some nextText
    summary := some (takeText 280 nextText)
    value := some (valueWithText memory.value nextText)
    metadataJson := some ((memory.metadataJson.set "review_required" (.bool false)).set
      "agentic_memory" (.obj (correctedAgentic memory reason now)))
    lastConfirmedAt := some now
    lastReviewedAt := some now }

/-- `correct`. The text of a live memory is replaced, and the candidates that were
derived from the old one are made stale. -/
def correct (identity : Option AgentIdentity) (memoryId canonicalText : String)
    (reason : Option String := none) : Service LifecycleAnswer := do
  let memory ← lockedMemory memoryId
  requireProjectUpdateDecisionPath memory
  let _ ← policyCheckedWrite env identity "memory.correct" memory
  let _ ← requireTransition .correct memory.status
  -- a candidate would escape the checks of its acceptance
  raiseIf (isPendingConsolidationCandidate memory = true)
    (.validation "consolidation candidates must be approved through accept_consolidation")
  let nextText ← normalizedText canonicalText "canonical_text"
  invalidatePendingDerivedCandidates env memory.id identity
    "source memory was corrected after the derived candidate was proposed" none
  let now ← utcNow env
  let updated ← updateMemory env memory.id (correctionPatch memory nextText reason now)
    (actorOf identity)
  refreshMemoryDerivedState env updated identity "correction" true
  reviseMemory memory updated "corrected" "agentic_memory_correct" nextText
    (orText reason "Agentic memory correction.") (actorOf identity)
  appendMemoryEvent env "agent.memory_corrected" (actorOf identity) updated.id
  pure { status := "committed", memory := updated }

/-! ### Expire and unexpire -/

/-- The `validity` record of a row. -/
def validityOf (memory : MemoryRow) : Dict Json := memory.metadataJson.getObj "validity"

/-- The `history` of the validity record. -/
def validityHistory (memory : MemoryRow) : List Json :=
  ((validityOf memory).item "history").asArr?.getD []

/-- `validity.pop("unbounded_sentinel", None)`. -/
def dropSentinel (validity : Dict Json) : Dict Json :=
  validity.filter fun item => item.1 ≠ "unbounded_sentinel"

/-- The validity record after an expiry. -/
def expiredValidity (memory : MemoryRow) (validTo now : UtcMoment) (reason : String)
    (actor : Actor) : Dict Json :=
  dropSentinel <| (validityOf memory).update
    [("state", .str "expired"), ("expired_at", isoJson now), ("valid_to", isoJson validTo),
      ("history", .arr (validityHistory memory ++ [.obj [("op", .str "expired"),
        ("at", isoJson now), ("valid_to", isoJson validTo), ("reason", .str reason),
        ("actor_id", .optStr actor.id)]]))]

/-- The patch of an expiry. -/
def expirePatch (memory : MemoryRow) (validTo now : UtcMoment) (reason : String)
    (actor : Actor) : MemoryPatch :=
  { validTo := some (.moment validTo)
    lastReviewedAt := some now
    metadataJson := some (memory.metadataJson.set "validity"
      (.obj (expiredValidity memory validTo now reason actor))) }

/-- `expire`. The window of a memory is closed at the time given, or now, without a
change of its status. -/
def expire (identity : Option AgentIdentity) (memoryId : String)
    (validTo : TimestampValue := .absent) (reason : String) : Service LifecycleAnswer := do
  let memory ← lockedMemory memoryId
  let _ ← policyCheckedWrite env identity "memory.expire" memory
  let _ ← requireTransition .expire memory.status
  let reasonText ← normalizedText reason "reason"
  let validToMoment ← validToIso env validTo
  let now ← utcNow env
  let updated ← updateMemory env memory.id
    (expirePatch memory validToMoment now reasonText (actorOf identity)) (actorOf identity)
  reviseMemory memory updated "edited" "agentic_memory_expire" updated.canonicalText reasonText
    (actorOf identity)
  appendMemoryEvent env "agent.memory_expired" (actorOf identity) updated.id
  pure { status := "expired", memory := updated }

/-- The validity record after an unexpiry. -/
def clearedValidity (memory : MemoryRow) (now : UtcMoment) (reason : String) (actor : Actor) :
    Dict Json :=
  dropSentinel <| (validityOf memory).update
    [("state", .str "cleared"), ("unexpired_at", isoJson now), ("valid_to", .null),
      ("history", .arr (validityHistory memory ++ [.obj [("op", .str "unexpired"),
        ("at", isoJson now), ("reason", .str reason), ("actor_id", .optStr actor.id)]]))]

/-- The first patch of an unexpiry. Its `valid_to` is `None`, which `COALESCE`
turns into the old value. -/
def unexpirePatch (memory : MemoryRow) (restored : MemoryStatus) (validity : Dict Json)
    (now : UtcMoment) : MemoryPatch :=
  { status := if restored ≠ memory.status then some restored else none
    lastReviewedAt := some now
    metadataJson := some (memory.metadataJson.set "validity" (.obj validity)) }

/-- The second patch, with the far-future stand-in. -/
def sentinelPatch (memory : MemoryRow) (validity : Dict Json) : MemoryPatch :=
  { validTo := some (.moment validToUnboundedSentinel)
    metadataJson := some (memory.metadataJson.set "validity" (.obj (validity.set
      "unbounded_sentinel" (isoJson validToUnboundedSentinel)))) }

/-- There is an end to the window: `valid_to` is set, to something bounded. -/
def isBoundedValidTo (validTo : Option ValidityEnd) : Bool :=
  validTo.isSome && decide (validTo ≠ some (.text "")) && !isUnboundedValidTo validTo

/-- The writes of `unexpire`. -/
def reopenWindow (identity : Option AgentIdentity) (memory : MemoryRow) (restored : MemoryStatus)
    (reason : String) : Service MemoryRow := do
  let now ← utcNow env
  let validity := clearedValidity memory now reason (actorOf identity)
  let updated ← updateMemory env memory.id (unexpirePatch memory restored validity now)
    (actorOf identity)
  if isBoundedValidTo updated.validTo then
    updateMemory env memory.id (sentinelPatch memory validity) (actorOf identity)
  else pure updated

/-- `unexpire`. The window of a memory is opened again, with the record of the expiry
kept in its history. -/
def unexpire (identity : Option AgentIdentity) (memoryId reason : String) :
    Service LifecycleAnswer := do
  let memory ← lockedMemory memoryId
  let _ ← policyCheckedWrite env identity "memory.unexpire" memory
  let restored ← requireTransition .unexpire memory.status
  let reasonText ← normalizedText reason "reason"
  -- a memory without an end is answered as it is
  if isBoundedValidTo memory.validTo then
    let updated ← reopenWindow env identity memory restored reasonText
    reviseMemory memory updated "edited" "agentic_memory_unexpire" updated.canonicalText
      reasonText (actorOf identity)
    appendMemoryEvent env "agent.memory_unexpired" (actorOf identity) updated.id
    pure { status := updated.status.text, memory := updated }
  else
    pure { status := memory.status.text, memory := memory, idempotentReplay := true }

end AliceBot
