import AliceBot.ContinuityObjects
import AliceBot.Library.CaseFolding
import AliceBot.Library.SortedByKey
import Mathlib.Algebra.Order.Ring.Rat
import Mathlib.Data.Prod.Lex
import Mathlib.Data.String.Basic

/-!
# Memory operations

What was said in a turn becomes candidates (`generate_memory_operation_candidates`): a candidate
is compared with the objects that are there and says what is to be done, with one of them or
without, and whether somebody has to look at it first. Committing candidates
(`commit_memory_operations`) does it and writes an operation for each.

Numbers that the source holds as floats are exact here. Reading candidates off the turn is a
parameter: it looks at the two texts only.
-/

namespace AliceBot

open PyLib

/-! ### Rows -/

/-- `CONTINUITY_CAPTURE_CANDIDATE_TYPES`. -/
inductive CandidateType where
  | decision
  | commitment
  | waitingFor
  | blocker
  | preference
  | correction
  | note
  | noOp
deriving DecidableEq

def CandidateType.text : CandidateType → String
  | .decision => "decision"
  | .commitment => "commitment"
  | .waitingFor => "waiting_for"
  | .blocker => "blocker"
  | .preference => "preference"
  | .correction => "correction"
  | .note => "note"
  | .noOp => "no_op"

/-- `ContinuityCaptureCandidateRecord`. -/
structure CandidateRecord where
  candidateId : String
  candidateType : CandidateType
  objectType : Option ContinuityObjectType
  normalizedText : String
  confidence : Rat
  explicit : Bool
  admissionReason : String

/-- `MEMORY_OPERATION_TYPES`. -/
inductive OperationType where
  | add
  | update
  | supersede
  | delete
  | noop
deriving DecidableEq

def OperationType.text : OperationType → String
  | .add => "ADD"
  | .update => "UPDATE"
  | .supersede => "SUPERSEDE"
  | .delete => "DELETE"
  | .noop => "NOOP"

/-- `MEMORY_OPERATION_POLICY_ACTIONS`. -/
inductive PolicyAction where
  | autoApply
  | reviewRequired
  | skip
deriving DecidableEq

/-- `MEMORY_OPERATION_STATUSES`. -/
inductive OperationStatus where
  | applied
  | noOp
  | skipped
  | duplicate
deriving DecidableEq

/-- `_candidate_scope`. -/
structure CandidateScope where
  sessionId : Option String := none
  threadId : Option String := none
  taskId : Option String := none
  project : Option String := none
  person : Option String := none
  targetContinuityObjectId : Option String := none

/-- A row of `memory_operation_candidates`. -/
structure OperationCandidate where
  id : String
  syncFingerprint : String
  sourceKind : String
  sourceCandidateId : String
  sourceCandidateType : String
  candidatePayload : CandidateRecord
  sourceScope : CandidateScope
  operationType : OperationType
  operationReason : String
  policyAction : PolicyAction
  policyReason : String
  targetContinuityObjectId : Option String
  targetSnapshot : Option ObjectSnapshot
  appliedOperationId : Option String
  createdAt : Int
  appliedAt : Option Int

/-- The snapshot after an operation. -/
inductive AfterSnapshot where
  | object (row : Option ObjectSnapshot)
  | superseded (original replacement : Option ObjectSnapshot)

/-- The details of an operation, before they are serialized. -/
inductive OperationDetails where
  | reason (text : String)
  | added (captureEventId : String) (object : ContinuityObject)
  | corrected (object : ContinuityObject)
  | superseded (object : ContinuityObject) (replacement : Option ContinuityObject)

/-- A row of `memory_operations`. -/
structure MemoryOperation where
  id : String
  candidateId : String
  operationType : OperationType
  status : OperationStatus
  syncFingerprint : String
  targetContinuityObjectId : Option String
  resultingContinuityObjectId : Option String
  correctionEventId : Option String
  beforeSnapshot : Option ObjectSnapshot
  afterSnapshot : AfterSnapshot
  details : OperationDetails
  createdAt : Int

/-- The tables of the objects, the candidates and the operations. -/
structure MutationStore where
  continuity : ContinuityStore := {}
  candidates : Table OperationCandidate.id := default
  operations : Table MemoryOperation.id := default

/-- The folding of texts, and `capture_continuity_candidates`. -/
structure MutationEnv extends ContinuityEnv where
  folding : CaseFolding
  captureContinuityCandidates : String → String → List CandidateRecord

inductive MutationError where
  | invalid (message : String)
  | continuity (error : ContinuityError)
  | uniqueViolation
deriving DecidableEq

abbrev MutationM := EStateM MutationError MutationStore

/-- A computation on the objects. -/
def onContinuity {α : Type} (m : ContinuityM α) : MutationM α := fun s =>
  match m.run s.continuity with
  | .ok a continuity => .ok a { s with continuity }
  | .error error continuity => .error (.continuity error) { s with continuity }

/-! ### Texts -/

/-- `_normalize_text`. -/
def normalizeMutationText (value : Option String) : String :=
  value.elim "" fun text => strip (collapse text)

/-- `_truncate`. -/
def truncate (value : String) (maxLength : Nat) : String :=
  if value.length ≤ maxLength then value
  else String.ofList (trimEnd (value.toList.take (maxLength - 3))) ++ "..."

/-- `text.split(marker, 1)[0]`, of a text that has the marker. -/
def headBefore (marker : List Char) : List Char → Option (List Char)
  | [] => if marker = [] then some [] else none
  | c :: rest =>
    if marker.isPrefixOf (c :: rest) then some [] else (headBefore marker rest).map (c :: ·)

section Comparison

variable (folding : CaseFolding)

/-- `_subject_key`: what stands before the first of the markers that the text has. -/
def subjectKey (text : String) : Option String :=
  let normalized := (folding.casefold (normalizeMutationText (some text))).toList
  ([" is ", " = ", ":"].findSome? fun marker => headBefore marker.toList normalized).bind
    fun head => if trim head = [] then none else some (String.ofList (trim head))

/-- `[a-z0-9]`. -/
def isLexicalChar (c : Char) : Bool := ('a' ≤ c ∧ c ≤ 'z') ∨ ('0' ≤ c ∧ c ≤ '9')

/-- `_tokenize`. -/
def tokenize (text : String) : List (List Char) :=
  fromkeys (((folding.casefold text).toList.splitOnP fun c => !isLexicalChar c).filter
    fun token => 3 ≤ token.length)

/-- `_lexical_overlap`. How many words two texts have in common, as a share of the
longer one. -/
def lexicalOverlap (left right : String) : Rat :=
  let leftTokens := tokenize folding left
  let rightTokens := tokenize folding right
  if leftTokens = [] ∨ rightTokens = [] then 0
  else ((leftTokens.filter fun token => rightTokens.contains token).length : Rat) /
    (max leftTokens.length rightTokens.length : Nat)

/-- The fields of a body that are compared, in their order. -/
def comparedKeys : List String :=
  ["decision_text", "commitment_text", "waiting_for_text", "blocking_reason", "action_text",
    "fact_text", "body", "raw_content"]

/-- `_comparison_text`. -/
def comparisonText (row : ContinuityObject) : String :=
  normalizeMutationText (((comparedKeys.findSome? fun key =>
    ((row.body.get? key).bind Json.asStr?).filter fun text => strip text ≠ "")).getD row.title)

/-- The texts are the same but for case. -/
def sameText (left right : String) : Bool := folding.casefold left = folding.casefold right

/-- `_scope_matches`. -/
def scopeMatches (row : ContinuityObject) (scope : CandidateScope) : Bool :=
  [("thread_id", scope.threadId), ("task_id", scope.taskId), ("project", scope.project),
    ("person", scope.person)].all fun field =>
      field.2 = none || (row.provenance.get? field.1).bind Json.asStr? = field.2

/-- `_object_type_for_candidate`. The type of the object that a candidate becomes. -/
def objectTypeForCandidate (candidate : CandidateRecord) : ContinuityObjectType :=
  candidate.objectType.getD (match candidate.candidateType with
    | .decision => .decision
    | .commitment => .commitment
    | .waitingFor => .waitingFor
    | .blocker => .blocker
    | .preference => .memoryFact
    | .correction => .note
    | .note => .note
    | .noOp => .note)

/-- `_explicit_signal_for_candidate`. The signal that the capture of a candidate is
given. -/
def explicitSignalForCandidate : CandidateType → Option String
  | .decision => some "decision"
  | .commitment => some "commitment"
  | .waitingFor => some "waiting_for"
  | .blocker => some "blocker"
  | .preference => some "remember_this"
  | .note => some "note"
  | .correction => none
  | .noOp => none

/-! ### What is to be done -/

/-- The newest first. -/
def ContinuityObject.recallOrder (row : ContinuityObject) : (Int ×ₗ String)ᵒᵈ :=
  OrderDual.toDual (toLex (row.createdAt, row.id))

/-- `list_continuity_recall_candidates`. -/
def ContinuityStore.recallCandidates (s : ContinuityStore) : List ContinuityObject :=
  sortByKeys ContinuityObject.recallOrder
    (s.objects.rows.filter fun row => (s.captureEvents.get? row.captureEventId).isSome)

/-- The objects that a candidate is compared with. -/
def isCompared (candidate : CandidateRecord) (scope : CandidateScope) (row : ContinuityObject) :
    Bool :=
  (row.status = .active || row.status = .stale) && scopeMatches row scope &&
    (candidate.candidateType = .correction || row.objectType = objectTypeForCandidate candidate)

/-- How close an object comes to a text. -/
def targetScore (text : String) (row : ContinuityObject) : Rat :=
  let existing := comparisonText row
  let overlap := lexicalOverlap folding text existing
  if subjectKey folding text ≠ none ∧ subjectKey folding text = subjectKey folding existing then
    max overlap (85 / 100)
  else overlap

/-- The best score first, and of one score the newest. -/
def targetOrder (text : String) (row : ContinuityObject) : (Rat ×ₗ Int ×ₗ Int)ᵒᵈ :=
  OrderDual.toDual (toLex (targetScore folding text row, toLex (row.updatedAt, row.createdAt)))

/-- `_select_target_record`. The object that the scope names, else one of the same text,
else the one most like it if it is like enough. -/
def selectTargetRecord (s : ContinuityStore) (candidate : CandidateRecord)
    (scope : CandidateScope) : Option ContinuityObject :=
  match scope.targetContinuityObjectId with
  | some target => s.objects.get? target
  | none =>
    let text := normalizeMutationText (some candidate.normalizedText)
    let compared := s.recallCandidates.filter (isCompared candidate scope)
    (compared.find? fun row => sameText folding text (comparisonText row)).or
      ((sortByKeys (targetOrder folding text) compared).head?.filter fun best =>
        (candidate.candidateType = .correction && 2 / 10 ≤ targetScore folding text best) ||
          5 / 10 ≤ targetScore folding text best)

/-- `_DELETE_PATTERNS`. -/
def deletePatterns : List String :=
  ["delete", "remove", "forget this", "ignore this", "no longer true"]

/-- `_REPLACEABLE_OBJECT_TYPES`. -/
def isReplaceable (objectType : ContinuityObjectType) : Bool := objectType ≠ .note

/-- `_classify_operation`. What a candidate does to the object it is about, with the
reason: nothing, an addition, or a change of the object. -/
def classifyOperation (candidate : CandidateRecord) (target : Option ContinuityObject) :
    OperationType × String :=
  let text := normalizeMutationText (some candidate.normalizedText)
  if candidate.candidateType = .noOp then (.noop, "ack_or_irrelevant_turn")
  else
    match target with
    | none => (.add, "no_current_target_match")
    | some target =>
      let existing := comparisonText target
      if sameText folding text existing then (.noop, "exact_current_match")
      -- an explicit correction deletes, replaces or edits, whatever the overlap is
      else if candidate.candidateType = .correction then
        if deletePatterns.any fun marker =>
            (headBefore marker.toList (folding.casefold text).toList).isSome then
          (.delete, "explicit_correction_delete_request")
        else if isReplaceable target.objectType then
          (.supersede, "explicit_correction_replaces_current_fact")
        else (.update, "explicit_correction_updates_current_note")
      -- two statements about one subject
      else if subjectKey folding text ≠ none ∧
          subjectKey folding text = subjectKey folding existing then
        if isReplaceable target.objectType then (.supersede, "subject_key_match_changed_fact")
        else (.update, "subject_key_match_changed_note")
      else if 72 / 100 ≤ lexicalOverlap folding text existing then
        (.update, "high_overlap_refinement")
      else (.add, "distinct_candidate_requires_add")

end Comparison

/-- `CONTINUITY_CAPTURE_COMMIT_MODES`. -/
inductive CommitMode where
  | manual
  | assist
  | auto
deriving DecidableEq

/-- `_validate_mode`. -/
def validateMode (mode : String) : Except MutationError CommitMode :=
  match asciiLower (normalizeMutationText (some mode)) with
  | "manual" => .ok .manual
  | "assist" => .ok .assist
  | "auto" => .ok .auto
  | _ => .error (.invalid "mode must be one of: manual, assist, auto")

/-- `CONTINUITY_CAPTURE_REVIEW_REQUIRED_TYPES`. -/
def reviewRequiredType (candidateType : CandidateType) : Bool := candidateType = .note

/-- `CONTINUITY_CAPTURE_ASSIST_AUTOSAVE_TYPES`. -/
def assistAutosaveType : CandidateType → Bool
  | .correction => true
  | .preference => true
  | .decision => true
  | .commitment => true
  | .waitingFor => true
  | .blocker => true
  | .note => false
  | .noOp => false

/-- `_resolve_policy_action`. Whether an operation is applied by itself, waits for a
review, or is skipped. What destroys always waits. -/
def resolvePolicyAction (candidate : CandidateRecord) (operationType : OperationType)
    (mode : CommitMode) : PolicyAction × String :=
  if operationType = .noop then (.skip, "noop_candidate")
  else if operationType = .delete then
    (.reviewRequired, "destructive_operations_require_review")
  -- the gates that hold in every mode come before the mode
  else if candidate.confidence < 9 / 10 then
    (.reviewRequired, "low_confidence_requires_review")
  else if reviewRequiredType candidate.candidateType then
    (.reviewRequired, "candidate_type_requires_review")
  else
    match mode with
    | .manual => (.reviewRequired, "manual_mode_requires_review")
    | .assist =>
      if candidate.explicit && assistAutosaveType candidate.candidateType then
        (.autoApply, "assist_mode_allowlist_explicit_high_confidence")
      else (.reviewRequired, "assist_mode_review_gate")
    | .auto =>
      if assistAutosaveType candidate.candidateType then
        (.autoApply, "auto_mode_allowlist_high_confidence")
      else (.reviewRequired, "auto_mode_review_gate")

/-! ### Candidates -/

/-- `MemoryOperationGenerateInput`. -/
structure GenerateInput where
  userContent : String
  assistantContent : String
  mode : String := "assist"
  syncFingerprint : Option String := none
  sourceKind : String := "sync_turn"
  scope : CandidateScope := {}

section Generate

variable (env : MutationEnv)

/-- The row that a candidate is to have. -/
def OperationCandidate.of (s : ContinuityStore) (request : GenerateInput) (mode : CommitMode)
    (syncFingerprint : String) (candidate : CandidateRecord) (id : String) (now : Int) :
    OperationCandidate :=
  let target := selectTargetRecord env.folding s candidate request.scope
  let operation := classifyOperation env.folding candidate target
  let policy := resolvePolicyAction candidate operation.1 mode
  { id
    syncFingerprint
    sourceKind := request.sourceKind
    sourceCandidateId := candidate.candidateId
    sourceCandidateType := candidate.candidateType.text
    candidatePayload := candidate
    sourceScope := request.scope
    operationType := operation.1
    operationReason := operation.2
    policyAction := policy.1
    policyReason := policy.2
    targetContinuityObjectId := target.map ContinuityObject.id
    -- the target as it is now, not as it will be when the candidate is applied
    targetSnapshot := target.map (snapshot env.toContinuityEnv)
    appliedOperationId := none
    createdAt := now
    appliedAt := none }

/-- The sync fingerprint of a candidate. -/
def candidateFingerprint (request : GenerateInput) (candidate : CandidateRecord) : String :=
  if normalizeMutationText request.syncFingerprint = "" then "mutation:" ++ candidate.candidateId
  else normalizeMutationText request.syncFingerprint

/-- `get_memory_operation_candidate_by_sync_source_optional`. -/
def MutationStore.candidateBySyncSource (s : MutationStore) (syncFingerprint : String)
    (sourceCandidateId : String) : Option OperationCandidate :=
  s.candidates.rows.find? fun row =>
    row.syncFingerprint = syncFingerprint && row.sourceCandidateId = sourceCandidateId

/-- The row of one candidate: the one that is there, or a new one. -/
def generateCandidate (request : GenerateInput) (mode : CommitMode) (candidate : CandidateRecord) :
    MutationM OperationCandidate := do
  let fingerprint := candidateFingerprint request candidate
  let s ← get
  match s.candidateBySyncSource fingerprint candidate.candidateId with
  -- the turn was generated from before: its candidate is returned as it is
  | some existing => return existing
  | none => do
    let id ← onContinuity (drawId env.toContinuityEnv)
    let now ← onContinuity (utcnow env.toContinuityEnv)
    let row := OperationCandidate.of env s.continuity request mode fingerprint candidate id now
    let s ← get
    let candidates ← orRaise (s.candidates.insert? row) .uniqueViolation
    set { s with candidates }
    return row

/-- `generate_memory_operation_candidates`. -/
def generateMemoryOperationCandidates (request : GenerateInput) :
    MutationM (List OperationCandidate) := do
  let mode ← raising (validateMode request.mode)
  (env.captureContinuityCandidates request.userContent request.assistantContent).mapM
    (generateCandidate env request mode)

end Generate

/-! ### Committing -/

/-- `_title_for_object_type`. -/
def titlePrefix : ContinuityObjectType → String
  | .decision => "Decision"
  | .commitment => "Commitment"
  | .waitingFor => "Waiting For"
  | .blocker => "Blocker"
  | .nextAction => "Next Action"
  | .memoryFact => "Memory Fact"
  | .note => "Note"

def titleForObjectType (objectType : ContinuityObjectType) (text : String) : String :=
  truncate (titlePrefix objectType ++ ": " ++ text) 280

/-- The field of a body that holds the text. -/
def bodyKey : ContinuityObjectType → String
  | .note => "body"
  | .memoryFact => "fact_text"
  | .decision => "decision_text"
  | .commitment => "commitment_text"
  | .waitingFor => "waiting_for_text"
  | .blocker => "blocking_reason"
  | .nextAction => "action_text"

/-- `_body_for_object_type`. -/
def bodyForObjectType (objectType : ContinuityObjectType) (text rawContent : String)
    (explicitSignal : Option String) : Dict Json :=
  [(bodyKey objectType, .str text), ("raw_content", .str rawContent),
    ("explicit_signal", .optStr explicitSignal)]

/-- The fields of the scope that are set. -/
def CandidateScope.provenance (scope : CandidateScope) : Dict Json :=
  [("session_id", scope.sessionId), ("thread_id", scope.threadId), ("task_id", scope.taskId),
    ("project", scope.project), ("person", scope.person)].filterMap fun field =>
      field.2.map fun value => (field.1, .str value)

/-- What the provenance says of the operation. -/
def OperationCandidate.provenance (row : OperationCandidate) (operationId : String) : Dict Json :=
  [("memory_operation_candidate_id", .str row.id), ("memory_operation_id", .str operationId),
    ("sync_fingerprint", .str row.syncFingerprint), ("source_kind", .str row.sourceKind),
    ("source_candidate_id", .str row.sourceCandidateId),
    ("source_candidate_type", .str row.sourceCandidateType)]

/-- `_replacement_values`. What an operation writes: the text of the candidate in the
form of the type of the object, and its provenance on top of that of the target. -/
def replacementValues (row : OperationCandidate) (target : Option ContinuityObject)
    (operationId : String) : Replacement :=
  let candidate := row.candidatePayload
  let text := normalizeMutationText (some candidate.normalizedText)
  let objectType := target.elim (objectTypeForCandidate candidate) ContinuityObject.objectType
  { title := titleForObjectType objectType text
    body := bodyForObjectType objectType text text
      (explicitSignalForCandidate candidate.candidateType)
    provenance := (target.elim row.sourceScope.provenance ContinuityObject.provenance).update
      (row.provenance operationId)
    confidence := candidate.confidence }

/-- What an operation did. -/
structure OperationEffect where
  status : OperationStatus
  resulting : Option String := none
  correctionEventId : Option String := none
  after : AfterSnapshot
  details : OperationDetails

section Apply

variable (env : MutationEnv)

/-- `_snapshot` of the row that is there. -/
def ContinuityStore.snapshotOf (s : ContinuityStore) (objectId : String) : Option ObjectSnapshot :=
  (s.objects.get? objectId).map (snapshot env.toContinuityEnv)

/-- `_apply_add_operation`. A new object, with a capture of the turn it was said in. -/
def applyAddOperation (row : OperationCandidate) (operationId : String) :
    ContinuityM (ContinuityCapture × ContinuityObject) := do
  let candidate := row.candidatePayload
  let objectType := objectTypeForCandidate candidate
  let values := replacementValues row none operationId
  let capture ← createContinuityCaptureEvent env.toContinuityEnv
    (normalizeMutationText (some candidate.normalizedText))
    (explicitSignalForCandidate candidate.candidateType)
    -- what the user did not say outright is left for triage
    (if candidate.explicit then "DERIVED" else "TRIAGE")
    (truncate candidate.admissionReason 200)
  let created ← createContinuityObjectRecord env.toContinuityEnv capture.id objectType.text
    values.title values.body values.provenance values.confidence .active true
    (some (defaultContinuitySearchable objectType)) (some (defaultContinuityPromotable objectType))
  return (capture, created)

/-- The correction that an operation on an object asks for. -/
def correctionFor (row : OperationCandidate) (target : ContinuityObject) (operationId : String) :
    OperationType → Option CorrectionInput
  | .update =>
    let values := replacementValues row (some target) operationId
    some { action := "edit", title := some values.title, body := some values.body,
           provenance := some values.provenance, confidence := some values.confidence }
  | .supersede =>
    let values := replacementValues row (some target) operationId
    some { action := "supersede", reason := some "Auto-applied memory mutation supersession",
           replacementTitle := some values.title, replacementBody := some values.body,
           replacementProvenance := some values.provenance,
           replacementConfidence := some values.confidence }
  | .delete =>
    some { action := "delete", reason := some "Memory mutation delete candidate approved" }
  | .add => none
  | .noop => none

/-- What a correction did. -/
def correctionEffect (operationType : OperationType) (target : ContinuityObject)
    (applied : CorrectionResult) (s : ContinuityStore) : OperationEffect :=
  { status := .applied
    resulting :=
      match operationType with
      | .supersede => applied.replacementObject.map ContinuityObject.id
      | .delete => none
      | _ => some target.id
    correctionEventId := some applied.correctionEvent.id
    after :=
      match operationType with
      | .supersede => .superseded (s.snapshotOf env target.id)
          (applied.replacementObject.bind fun row => s.snapshotOf env row.id)
      | _ => .object (s.snapshotOf env target.id)
    details :=
      match operationType with
      | .supersede => .superseded applied.continuityObject applied.replacementObject
      | _ => .corrected applied.continuityObject }

/-- The target is corrected, if it is there. -/
def correctTarget (row : OperationCandidate) (target : Option ContinuityObject)
    (operationId : String) : MutationM OperationEffect :=
  match target with
  | none => return {
      status := .skipped
      after := .object none
      details := .reason "target_continuity_object_missing" }
  | some target => do
    let request ← orRaise (correctionFor row target operationId row.operationType)
      (.invalid ("unsupported operation_type " ++ row.operationType.text))
    let applied ← onContinuity (applyContinuityCorrection env.toContinuityEnv target.id request)
    let s ← get
    return correctionEffect env row.operationType target applied s.continuity

/-- What is done for a candidate, by its operation type. -/
def applyOperation (row : OperationCandidate) (target : Option ContinuityObject)
    (operationId : String) : MutationM OperationEffect :=
  match row.operationType with
  | .noop => return {
      status := .noOp
      after := .object row.targetSnapshot
      details := .reason row.operationReason }
  | .add => do
    let (capture, created) ← onContinuity (applyAddOperation env row operationId)
    let s ← get
    return {
      status := .applied
      resulting := some created.id
      after := .object (s.continuity.snapshotOf env created.id)
      details := .added capture.id created }
  | _ => correctTarget env row target operationId

/-- `create_memory_operation`. -/
def createMemoryOperation (operation : MemoryOperation) : MutationM Unit := do
  let s ← get
  let operations ← orRaise (s.operations.insert? operation) .uniqueViolation
  set { s with operations }

/-- What `update_memory_operation_candidate_application` writes. -/
def applicationTo (operationId : String) (now : Int) : Rewrite OperationCandidate.id where
  apply row := { row with appliedOperationId := some operationId, appliedAt := some now }

/-- The operation of a candidate. -/
def MemoryOperation.of (row : OperationCandidate) (target : Option ContinuityObject)
    (operationId : String) (effect : OperationEffect) (now : Int) : MemoryOperation where
  id := operationId
  candidateId := row.id
  operationType := row.operationType
  status := effect.status
  syncFingerprint := row.syncFingerprint
  targetContinuityObjectId := row.targetContinuityObjectId
  resultingContinuityObjectId := effect.resulting
  correctionEventId := effect.correctionEventId
  beforeSnapshot := target.map (snapshot env.toContinuityEnv)
  afterSnapshot := effect.after
  details := effect.details
  createdAt := now

/-- One candidate is applied, the operation written and the candidate marked. -/
def commitCandidate (row : OperationCandidate) :
    MutationM (OperationCandidate × MemoryOperation) := do
  let s ← get
  -- the target is read again, since it may have changed after the proposal
  let target := row.targetContinuityObjectId.bind s.continuity.objects.get?
  let operationId ← onContinuity (drawId env.toContinuityEnv)
  let effect ← applyOperation env row target operationId
  let now ← onContinuity (utcnow env.toContinuityEnv)
  let operation := MemoryOperation.of env row target operationId effect now
  createMemoryOperation operation
  let appliedAt ← onContinuity (utcnow env.toContinuityEnv)
  -- from here on the candidate counts as applied
  modify fun s =>
    { s with candidates := s.candidates.rewrite row.id (applicationTo operationId appliedAt) }
  let s ← get
  let updated ← orRaise (s.candidates.get? row.id)
    (.invalid ("memory operation candidate " ++ row.id ++ " disappeared during commit"))
  return (updated, operation)

/-- What a commit answers. -/
structure CommitResponse where
  candidates : List OperationCandidate := []
  operations : List MemoryOperation := []
  requestedCount : Nat
  appliedCount : Nat := 0
  noOpCount : Nat := 0
  skippedCount : Nat := 0
  duplicateCount : Nat := 0

/-- `sorted(operation_types)`. -/
def CommitResponse.operationTypes (response : CommitResponse) : List String :=
  sortByKeys id (fromkeys (response.operations.map fun operation => operation.operationType.text))

/-- The answer with a candidate and its operation. -/
def CommitResponse.add (response : CommitResponse) (row : OperationCandidate)
    (operation : MemoryOperation) : CommitResponse :=
  { response with
    candidates := response.candidates ++ [row]
    operations := response.operations ++ [operation]
    appliedCount := response.appliedCount + if operation.status = .applied then 1 else 0
    noOpCount := response.noOpCount + if operation.status = .noOp then 1 else 0
    skippedCount := response.skippedCount + if operation.status = .skipped then 1 else 0 }

/-- One round of the loop over the candidates, which were read before it. -/
def commitRound (includeReviewRequired : Bool) (response : CommitResponse)
    (row : OperationCandidate) : MutationM CommitResponse := do
  match row.appliedOperationId with
  | some operationId =>
    -- answered from the operation that was made when it was applied
    let s ← get
    return { response with
      candidates := response.candidates ++ [row]
      operations := response.operations ++ (s.operations.get? operationId).toList
      duplicateCount := response.duplicateCount + 1 }
  | none =>
    if row.policyAction = .reviewRequired && !includeReviewRequired then
      return { response with
        candidates := response.candidates ++ [row]
        skippedCount := response.skippedCount + 1 }
    else do
      let (updated, operation) ← commitCandidate env row
      return response.add updated operation

/-- `MemoryOperationCommitInput`. -/
structure CommitInput where
  candidateIds : List String := []
  syncFingerprint : Option String := none
  includeReviewRequired : Bool := false

/-- The newest first. -/
def OperationCandidate.listOrder (row : OperationCandidate) : (Int ×ₗ String)ᵒᵈ :=
  OrderDual.toDual (toLex (row.createdAt, row.id))

/-- `list_memory_operation_candidates`, by the sync fingerprint. -/
def MutationStore.candidatesOfSync (s : MutationStore) (syncFingerprint : String) :
    List OperationCandidate :=
  (sortByKeys OperationCandidate.listOrder
    (s.candidates.rows.filter fun row => row.syncFingerprint = syncFingerprint)).take 100

/-- `get_memory_operation_candidate_optional`, which has to find it. -/
def candidateOrRaise (candidateId : String) : MutationM OperationCandidate := do
  let s ← get
  orRaise (s.candidates.get? candidateId)
    (.invalid ("memory operation candidate " ++ candidateId ++ " was not found"))

/-- The candidates that a commit is about. -/
def candidateRows (request : CommitInput) : MutationM (List OperationCandidate) := do
  let rows ← request.candidateIds.mapM candidateOrRaise
  let s ← get
  let syncRows :=
    if normalizeMutationText request.syncFingerprint = "" then []
    else s.candidatesOfSync (normalizeMutationText request.syncFingerprint)
  return rows ++ syncRows.filter fun row => row.id ∉ rows.map OperationCandidate.id

/-- `commit_memory_operations`. -/
def commitMemoryOperations (request : CommitInput) : MutationM CommitResponse := do
  raiseIf (request.candidateIds = [] ∧ normalizeMutationText request.syncFingerprint = "")
    (.invalid "candidate_ids or sync_fingerprint is required")
  let rows ← candidateRows request
  rows.foldlM (commitRound env request.includeReviewRequired) { requestedCount := rows.length }

end Apply

end AliceBot
