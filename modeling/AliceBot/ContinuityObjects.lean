import AliceBot.Library.Effect
import AliceBot.Library.Json
import AliceBot.Library.Table
import AliceBot.Library.Text

/-!
# Continuity objects and their corrections

An object is what was captured and kept: a note, a decision, a commitment. It is created once
and from then on only corrected (`apply_continuity_correction`) or reviewed as an open loop
(`apply_continuity_open_loop_review_action`). Both write one correction event, with a snapshot of
the object before and after, and update the row. An object that is superseded stays, with a
pointer to the object that was created to replace it.

New ids and the readings of the clock are drawn from sequences, one after the other.
-/

namespace AliceBot

open PyLib

/-! ### Rows -/

/-- `CONTINUITY_OBJECT_TYPES`. -/
inductive ContinuityObjectType where
  | note
  | memoryFact
  | decision
  | commitment
  | waitingFor
  | blocker
  | nextAction
deriving DecidableEq

def ContinuityObjectType.text : ContinuityObjectType → String
  | .note => "Note"
  | .memoryFact => "MemoryFact"
  | .decision => "Decision"
  | .commitment => "Commitment"
  | .waitingFor => "WaitingFor"
  | .blocker => "Blocker"
  | .nextAction => "NextAction"

/-- `CONTINUITY_OBJECT_STATUSES`. -/
inductive ContinuityStatus where
  | active
  | completed
  | cancelled
  | superseded
  | stale
  | deleted
deriving DecidableEq

def ContinuityStatus.text : ContinuityStatus → String
  | .active => "active"
  | .completed => "completed"
  | .cancelled => "cancelled"
  | .superseded => "superseded"
  | .stale => "stale"
  | .deleted => "deleted"

/-- A row of `continuity_objects`. -/
structure ContinuityObject where
  id : String
  captureEventId : String
  objectType : ContinuityObjectType
  status : ContinuityStatus
  isPreserved : Bool
  isSearchable : Bool
  isPromotable : Bool
  title : String
  body : Dict Json
  provenance : Dict Json
  confidence : Rat
  lastConfirmedAt : Option Int
  supersedesObjectId : Option String
  supersededByObjectId : Option String
  createdAt : Int
  updatedAt : Int

/-- `_snapshot`. What an event keeps of an object: all that a correction may change. -/
structure ObjectSnapshot where
  id : String
  captureEventId : String
  objectType : ContinuityObjectType
  status : ContinuityStatus
  isPreserved : Bool
  isSearchable : Bool
  isPromotable : Bool
  title : String
  body : Dict Json
  provenance : Dict Json
  confidence : Rat
  lastConfirmedAt : Option String
  supersedesObjectId : Option String
  supersededByObjectId : Option String

/-- A row of `continuity_capture_events`. -/
structure ContinuityCapture where
  id : String
  rawContent : String
  explicitSignal : Option String
  admissionPosture : String
  admissionReason : String
  createdAt : Int

/-- A row of `continuity_object_evidence_links`. -/
structure EvidenceLink where
  continuityObjectId : String
  artifactId : String
  artifactCopyId : String
  artifactSegmentId : Option String
  relationship : String

/-- The link on another object. -/
def EvidenceLink.onto (link : EvidenceLink) (objectId : String) : EvidenceLink :=
  { link with continuityObjectId := objectId }

/-- `CONTINUITY_CORRECTION_ACTIONS`. -/
inductive CorrectionAction where
  | confirm
  | edit
  | delete
  | supersede
  | markStale
deriving DecidableEq

def CorrectionAction.text : CorrectionAction → String
  | .confirm => "confirm"
  | .edit => "edit"
  | .delete => "delete"
  | .supersede => "supersede"
  | .markStale => "mark_stale"

/-- `ContinuityCorrectionInput`. A field that is not given is left as it is by an edit,
and taken from the object by a supersession. -/
structure CorrectionInput where
  action : String
  reason : Option String := none
  title : Option String := none
  body : Option (Dict Json) := none
  provenance : Option (Dict Json) := none
  confidence : Option Rat := none
  replacementTitle : Option String := none
  replacementBody : Option (Dict Json) := none
  replacementProvenance : Option (Dict Json) := none
  replacementConfidence : Option Rat := none

/-- `CONTINUITY_OPEN_LOOP_REVIEW_ACTIONS`. -/
inductive ReviewAction where
  | done
  | deferred
  | stillBlocked
deriving DecidableEq

def ReviewAction.text : ReviewAction → String
  | .done => "done"
  | .deferred => "deferred"
  | .stillBlocked => "still_blocked"

/-- The payload of a correction event. -/
inductive CorrectionPayload where
  | request (request : CorrectionInput)
  | replacement (title : String) (body provenance : Dict Json) (confidence : Rat)
  | review (action : ReviewAction) (note : Option String) (mapped : CorrectionAction)
      (outcome : ContinuityStatus)

/-- A row of `continuity_correction_events`. -/
structure CorrectionEvent where
  id : String
  continuityObjectId : String
  action : CorrectionAction
  reason : Option String
  beforeSnapshot : ObjectSnapshot
  afterSnapshot : ObjectSnapshot
  payload : CorrectionPayload

/-- The tables, and how many ids and readings of the clock were drawn. Correction events are
append-only. -/
structure ContinuityStore where
  captureEvents : Table ContinuityCapture.id := default
  objects : Table ContinuityObject.id := default
  correctionEvents : List CorrectionEvent := []
  evidenceLinks : List EvidenceLink := []
  drawnIds : Nat := 0
  readings : Nat := 0

/-- `gen_random_uuid`, the clock, and `isoformat`. -/
structure ContinuityEnv where
  uuid : Nat → String
  clock : Nat → Int
  isoformat : Int → String

inductive ContinuityError where
  | reviewInvalid (message : String)
  | reviewNotFound (objectId : String)
  | openLoopInvalid (message : String)
  | openLoopNotFound (objectId : String)
  | objectInvalid (message : String)
  | uniqueViolation
deriving DecidableEq

abbrev ContinuityM := EStateM ContinuityError ContinuityStore

section Store

variable (env : ContinuityEnv)

def snapshot (row : ContinuityObject) : ObjectSnapshot where
  id := row.id
  captureEventId := row.captureEventId
  objectType := row.objectType
  status := row.status
  isPreserved := row.isPreserved
  isSearchable := row.isSearchable
  isPromotable := row.isPromotable
  title := row.title
  body := row.body
  provenance := row.provenance
  confidence := row.confidence
  lastConfirmedAt := row.lastConfirmedAt.map env.isoformat
  supersedesObjectId := row.supersedesObjectId
  supersededByObjectId := row.supersededByObjectId

/-! ### The store -/

def drawId : ContinuityM String :=
  modifyGet fun s => (env.uuid s.drawnIds, { s with drawnIds := s.drawnIds + 1 })

/-- `_utcnow`, `clock_timestamp()`. -/
def utcnow : ContinuityM Int :=
  modifyGet fun s => (env.clock s.readings, { s with readings := s.readings + 1 })

/-- `create_continuity_capture_event`. The capture an object is made of, which is
written before the object. -/
def createContinuityCaptureEvent (rawContent : String) (explicitSignal : Option String)
    (admissionPosture admissionReason : String) : ContinuityM ContinuityCapture := do
  let id ← drawId env
  let createdAt ← utcnow env
  let row : ContinuityCapture :=
    { id, rawContent, explicitSignal, admissionPosture, admissionReason, createdAt }
  let s ← get
  let captureEvents ← orRaise (s.captureEvents.insert? row) .uniqueViolation
  set { s with captureEvents }
  return row

/-- The columns of a new object that its creator chooses. -/
structure NewObject where
  captureEventId : String
  objectType : ContinuityObjectType
  status : ContinuityStatus
  isPreserved : Bool
  isSearchable : Bool
  isPromotable : Bool
  title : String
  body : Dict Json
  provenance : Dict Json
  confidence : Rat
  lastConfirmedAt : Option Int := none
  supersedesObjectId : Option String := none

def NewObject.row (new : NewObject) (id : String) (now : Int) : ContinuityObject where
  id := id
  captureEventId := new.captureEventId
  objectType := new.objectType
  status := new.status
  isPreserved := new.isPreserved
  isSearchable := new.isSearchable
  isPromotable := new.isPromotable
  title := new.title
  body := new.body
  provenance := new.provenance
  confidence := new.confidence
  lastConfirmedAt := new.lastConfirmedAt
  supersedesObjectId := new.supersedesObjectId
  supersededByObjectId := none
  createdAt := now
  updatedAt := now

/-- `create_continuity_object`; a capture event has one object. -/
def createContinuityObject (new : NewObject) : ContinuityM ContinuityObject := do
  let id ← drawId env
  let now ← utcnow env
  let s ← get
  raiseIf (s.objects.rows.any fun row => row.captureEventId = new.captureEventId) .uniqueViolation
  let objects ← orRaise (s.objects.insert? (new.row id now)) .uniqueViolation
  set { s with objects }
  return new.row id now

/-- `create_continuity_correction_event`. One line of the history of an object. -/
def createContinuityCorrectionEvent (objectId : String) (action : CorrectionAction)
    (reason : Option String) (before after : ObjectSnapshot) (payload : CorrectionPayload) :
    ContinuityM CorrectionEvent := do
  let id ← drawId env
  let event : CorrectionEvent :=
    { id, continuityObjectId := objectId, action, reason, beforeSnapshot := before,
      afterSnapshot := after, payload }
  modify fun s => { s with correctionEvents := s.correctionEvents ++ [event] }
  return event

/-- What `update_continuity_object_optional` puts in a row. -/
def updateTo (next : ContinuityObject) (now : Int) : Rewrite ContinuityObject.id where
  apply row :=
    { next with
      id := row.id
      captureEventId := row.captureEventId
      objectType := row.objectType
      createdAt := row.createdAt
      updatedAt := now }

/-- `update_continuity_object_optional`. -/
def updateContinuityObjectOptional (objectId : String) (next : ContinuityObject) :
    ContinuityM (Option ContinuityObject) := do
  let now ← utcnow env
  modify fun s => { s with objects := s.objects.rewrite objectId (updateTo next now) }
  return (← get).objects.get? objectId

/-- `list_continuity_object_evidence` and one `create_continuity_object_evidence_link` for each. -/
def copyEvidence (fromId toId : String) : ContinuityM Unit :=
  modify fun s =>
    { s with
      evidenceLinks := s.evidenceLinks ++
        (s.evidenceLinks.filter fun link => link.continuityObjectId = fromId).map (·.onto toId) }

end Store

/-! ### Corrections -/

/-- `_normalize_optional_text`. -/
def normalizeOptionalReviewText (value : Option String) : Option String :=
  (value.map fun text => strip (collapse text)).filter fun text => text ≠ ""

/-- The text behind a `reason` or a `note` that is too long. -/
def reasonTooLong (reason : Option String) : Bool := reason.any fun text => 500 < text.length

/-- `_validate_title`. -/
def validateTitle (title : String) : Except ContinuityError String :=
  let normalized := strip (collapse title)
  if normalized = "" then .error (.reviewInvalid "title must not be empty")
  else if 280 < normalized.length then
    .error (.reviewInvalid "title must be 280 characters or fewer")
  else .ok normalized

/-- `_validate_confidence`. -/
def validateConfidence (confidence : Rat) : Except ContinuityError Rat :=
  if confidence < 0 ∨ 1 < confidence then
    .error (.reviewInvalid "confidence must be between 0.0 and 1.0")
  else .ok confidence

/-- `_CORRECTION_ACTION_ALIASES`. -/
def correctionActionAliases : List (String × CorrectionAction) :=
  [("approve", .confirm), ("edit-and-approve", .edit), ("edit_and_approve", .edit),
    ("reject", .delete), ("supersede-existing", .supersede), ("supersede_existing", .supersede)]

/-- `_canonicalize_action`, and whether that is an action. -/
def canonicalizeAction (action : String) : Option CorrectionAction :=
  (correctionActionAliases.lookup (strip action)).or
    ([CorrectionAction.confirm, .edit, .delete, .supersede, .markStale].find? fun known =>
      known.text = strip action)

/-- Only an active or a stale object is corrected. -/
def Correctable (row : ContinuityObject) : Prop := row.status = .active ∨ row.status = .stale

instance (row : ContinuityObject) : Decidable (Correctable row) :=
  inferInstanceAs (Decidable (_ ∨ _))

/-- The response of a correction, before it is serialized. -/
structure CorrectionResult where
  continuityObject : ContinuityObject
  correctionEvent : CorrectionEvent
  replacementObject : Option ContinuityObject

section Corrections

variable (env : ContinuityEnv)

/-- `_lookup_object_or_raise`. -/
def lookupObjectOrRaise (objectId : String) : ContinuityM ContinuityObject := do
  let s ← get
  orRaise (s.objects.get? objectId) (.reviewNotFound objectId)

/-- The end of a correction and of a review: the event, and then the row. -/
def recordCorrection (missing : ContinuityError) (action : CorrectionAction)
    (reason : Option String) (payload : CorrectionPayload) (current next : ContinuityObject) :
    ContinuityM CorrectionResult := do
  let event ← createContinuityCorrectionEvent env current.id action reason (snapshot env current)
    (snapshot env next) payload
  let updated ← updateContinuityObjectOptional env current.id next
  let row ← orRaise updated missing
  return ⟨row, event, none⟩

/-- What an edit puts in the row, but for the time of the confirmation. -/
def editedRow (request : CorrectionInput) (current : ContinuityObject) :
    Except ContinuityError ContinuityObject := do
  let title ← request.title.elim (.ok current.title) validateTitle
  let confidence ← request.confidence.elim (.ok current.confidence) validateConfidence
  return { current with
    title
    body := request.body.getD current.body
    provenance := request.provenance.getD current.provenance
    confidence
    status := .active }

/-- The object that replaces another one, but for its capture event and its times. -/
structure Replacement where
  title : String
  body : Dict Json
  provenance : Dict Json
  confidence : Rat

/-- The values of the replacement: those of the request, or else of the object. -/
def replacementOf (request : CorrectionInput) (current : ContinuityObject) :
    Except ContinuityError Replacement := do
  let title ← validateTitle
    ((request.replacementTitle.filter fun title => title ≠ "").getD current.title)
  let confidence ← validateConfidence (request.replacementConfidence.getD current.confidence)
  return {
    title
    body := request.replacementBody.getD current.body
    provenance := request.replacementProvenance.getD current.provenance
    confidence }

/-- The provenance of the replacement. -/
def Replacement.provenancePayload (replacement : Replacement) (current : ContinuityObject)
    (captureEventId : String) : Dict Json :=
  replacement.provenance.update [("supersedes_object_id", .str current.id),
    ("correction_action", .str "supersede"), ("capture_event_id", .str captureEventId),
    ("source_kind", .str "continuity_correction_event")]

/-- `supersede`: the event, the replacement with the evidence, and then the row. The snapshot
after is written before the replacement has an id. -/
def supersedeObject (reason : Option String) (request : CorrectionInput)
    (current : ContinuityObject) : ContinuityM CorrectionResult := do
  let replacement ← raising (replacementOf request current)
  -- the event is written first, so the snapshot after it names no replacement yet
  let event ← createContinuityCorrectionEvent env current.id .supersede reason
    (snapshot env current)
    { snapshot env current with status := .superseded, supersededByObjectId := none }
    (.replacement replacement.title replacement.body replacement.provenance
      replacement.confidence)
  let capture ← createContinuityCaptureEvent env replacement.title none "DERIVED"
    "correction_supersede"
  let now ← utcnow env
  let replacementObject ← createContinuityObject env {
    captureEventId := capture.id
    objectType := current.objectType
    status := .active
    isPreserved := current.isPreserved
    isSearchable := current.isSearchable
    isPromotable := current.isPromotable
    title := replacement.title
    body := replacement.body
    provenance := replacement.provenancePayload current capture.id
    confidence := replacement.confidence
    lastConfirmedAt := some now
    supersedesObjectId := some current.id }
  -- the evidence goes along, and stays with the old object too
  copyEvidence current.id replacementObject.id
  let updated ← updateContinuityObjectOptional env current.id
    { current with status := .superseded, supersededByObjectId := some replacementObject.id }
  let row ← orRaise updated (.reviewNotFound current.id)
  return ⟨row, event, some replacementObject⟩

/-- `apply_continuity_correction`. The review of one object by the user: the correction
is told by an event with the snapshots before and after. -/
def applyContinuityCorrection (objectId : String) (request : CorrectionInput) :
    ContinuityM CorrectionResult := do
  let action ← orRaise (canonicalizeAction request.action)
    (.reviewInvalid "action must be one of: confirm, edit, delete, supersede, mark_stale")
  let reason := normalizeOptionalReviewText request.reason
  raiseIf (reasonTooLong reason) (.reviewInvalid "reason must be 500 characters or fewer")
  let current ← lookupObjectOrRaise objectId
  match action with
  | .confirm => do
    raiseIf (¬ Correctable current)
      (.reviewInvalid "confirm requires an active or stale continuity object")
    let now ← utcnow env
    recordCorrection env (.reviewNotFound objectId) .confirm reason (.request request) current
      { current with status := .active, lastConfirmedAt := some now }
  | .edit => do
    raiseIf (¬ Correctable current)
      (.reviewInvalid "edit requires an active or stale continuity object")
    raiseIf (request.title = none ∧ request.body.isNone ∧ request.provenance.isNone ∧
        request.confidence = none)
      (.reviewInvalid "edit requires at least one of title, body, provenance, or confidence")
    -- what the edit does not name is kept
    let edited ← raising (editedRow request current)
    let now ← utcnow env
    recordCorrection env (.reviewNotFound objectId) .edit reason (.request request) current
      { edited with lastConfirmedAt := some now }
  | .delete => do
    raiseIf (¬ Correctable current)
      (.reviewInvalid "delete requires an active or stale continuity object")
    recordCorrection env (.reviewNotFound objectId) .delete reason (.request request) current
      { current with status := .deleted }
  | .markStale => do
    raiseIf (current.status ≠ .active)
      (.reviewInvalid "mark_stale requires an active continuity object")
    recordCorrection env (.reviewNotFound objectId) .markStale reason (.request request) current
      { current with status := .stale }
  | .supersede => do
    raiseIf (¬ Correctable current)
      (.reviewInvalid "supersede requires an active or stale continuity object")
    supersedeObject env reason request current

/-! ### Reviews of open loops -/

/-- `_OPEN_LOOP_OBJECT_TYPES`. -/
def isOpenLoopType : ContinuityObjectType → Bool
  | .waitingFor => true
  | .blocker => true
  | .nextAction => true
  | _ => false

/-- `_REVIEW_ACTION_TRANSITIONS`. -/
def ReviewAction.transition : ReviewAction → CorrectionAction × ContinuityStatus
  | .done => (.edit, .completed)
  | .deferred => (.markStale, .stale)
  | .stillBlocked => (.confirm, .active)

/-- The statuses that a review does not change. -/
def ContinuityStatus.reviewCloses : ContinuityStatus → Bool
  | .superseded => true
  | .deleted => true
  | .cancelled => true
  | _ => false

/-- `apply_continuity_open_loop_review_action`. The review of an open loop: a loop is
done, deferred, or still blocked, which confirms it. -/
def applyContinuityOpenLoopReviewAction (objectId action : String) (note : Option String) :
    ContinuityM CorrectionResult := do
  let action ← orRaise ([ReviewAction.done, .deferred, .stillBlocked].find? fun known =>
      known.text = action)
    (.openLoopInvalid "action must be one of: done, deferred, still_blocked")
  let note := normalizeOptionalReviewText note
  raiseIf (reasonTooLong note) (.openLoopInvalid "note must be 500 characters or fewer")
  let s ← get
  let current ← orRaise (s.objects.get? objectId) (.openLoopNotFound objectId)
  raiseIf (isOpenLoopType current.objectType = false)
    (.openLoopInvalid
      "review action requires one of object types: Blocker, NextAction, WaitingFor")
  raiseIf (current.status.reviewCloses = true)
    (.openLoopInvalid
      ("review action cannot be applied when status is " ++ current.status.text))
  let payload := CorrectionPayload.review action note action.transition.1 action.transition.2
  -- a loop that is still blocked was looked at, so it counts as confirmed
  if action = .stillBlocked then do
    let now ← utcnow env
    recordCorrection env (.openLoopNotFound objectId) action.transition.1 note payload current
      { current with status := action.transition.2, lastConfirmedAt := some now }
  else
    recordCorrection env (.openLoopNotFound objectId) action.transition.1 note payload current
      { current with status := action.transition.2 }

/-! ### Creation -/

/-- `default_continuity_searchable`. -/
def defaultContinuitySearchable (objectType : ContinuityObjectType) : Bool :=
  objectType ≠ .note

/-- `default_continuity_promotable`. -/
def defaultContinuityPromotable : ContinuityObjectType → Bool
  | .decision => true
  | .commitment => true
  | .waitingFor => true
  | .blocker => true
  | .nextAction => true
  | _ => false

/-- The object types by their texts. -/
def parseObjectType (text : String) : Option ContinuityObjectType :=
  [ContinuityObjectType.note, .memoryFact, .decision, .commitment, .waitingFor, .blocker,
    .nextAction].find? fun known => known.text = text

/-- `create_continuity_object_record`. The type, the title and the confidence are
checked; what is not given follows from the type. -/
def createContinuityObjectRecord (captureEventId objectType title : String)
    (body provenance : Dict Json) (confidence : Rat) (status : ContinuityStatus)
    (isPreserved : Bool := true) (isSearchable isPromotable : Option Bool := none) :
    ContinuityM ContinuityObject := do
  let objectType ← orRaise (parseObjectType objectType)
    (.objectInvalid ("object_type must be one of: " ++
      "Note, MemoryFact, Decision, Commitment, WaitingFor, Blocker, NextAction"))
  -- the title is checked and stored without its outer blanks
  raiseIf (strip title = "") (.objectInvalid "title must not be empty")
  raiseIf (280 < (strip title).length)
    (.objectInvalid "title must be 280 characters or fewer")
  raiseIf (confidence < 0 ∨ 1 < confidence)
    (.objectInvalid "confidence must be between 0.0 and 1.0")
  createContinuityObject env {
    captureEventId
    objectType
    status
    isPreserved
    isSearchable := isSearchable.getD (defaultContinuitySearchable objectType)
    isPromotable := isPromotable.getD (defaultContinuityPromotable objectType)
    title := strip title
    body
    provenance
    confidence }

end Corrections

end AliceBot
