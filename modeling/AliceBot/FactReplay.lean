import AliceBot.FactAdmission
import AliceBot.Library.Run
import AliceBot.Library.SortedByKey
import Mathlib.Data.Prod.Lex

/-!
# The past of the facts

`temporal_state` tells what was known at some time from the revisions alone: it replays those
that were made by then. `factsAt_eq_storedFacts` says that this is what the rows held at that
time, whatever was admitted since, provided that the calls that had started by then had ended.
A replayed state has the columns of the row (`Shows`) except for two: the reason of trust is kept
as the candidate spelled it, and a type that no candidate named is missing.
-/

namespace AliceBot

open PyLib

/-! ### Replaying revisions -/

/-- The state that `_apply_revision` goes on with; the initial one is `_snapshot_defaults`. -/
structure ReplayState where
  value : Json := .null
  status : String := "active"
  sourceEventIds : List String := []
  memoryType : Json := .null
  confidence : Json := .null
  confirmationStatus : Json := .str "unconfirmed"
  trustClass : Json := .str "deterministic"
  trustReason : Json := .null
  validFrom : Option Int := none
  validTo : Option Int := none

/-- `_MemorySnapshot`. -/
structure MemorySnapshot where
  memoryId : String
  memoryKey : String
  state : ReplayState
  createdAt : Int
  effectiveRevision : Option FactRevision

section Replay

variable (env : FactEnv)

/-- `_parse_optional_candidate_datetime`, of the value under the key. -/
def parseCandidateDatetime (value : Json) : Option Int :=
  match value with
  | .str raw =>
    let normalized := strip raw
    if normalized.toList.getLast? = some 'Z' then
      env.fromisoformat (String.ofList normalized.toList.dropLast ++ "+00:00")
    else env.fromisoformat normalized
  | _ => none

/-- `_apply_revision`. A revision brings its value and its status, and overwrites of the
rest what its candidate names. -/
def applyRevision (current : ReplayState) (revision : FactRevision) : ReplayState where
  -- a deletion keeps the value for the record
  value := if revision.action = "DELETE" then current.value else revision.newValue
  status := if revision.action = "DELETE" then "deleted" else "active"
  sourceEventIds := revision.sourceEventIds
  memoryType := (revision.candidate.get? "memory_type").getD current.memoryType
  confidence := (revision.candidate.get? "confidence").getD current.confidence
  confirmationStatus :=
    (revision.candidate.get? "confirmation_status").getD current.confirmationStatus
  trustClass := (revision.candidate.get? "trust_class").getD current.trustClass
  trustReason := (revision.candidate.get? "trust_reason").getD current.trustReason
  validFrom := ((revision.candidate.get? "valid_from").map (parseCandidateDatetime env)).getD
    current.validFrom
  validTo := ((revision.candidate.get? "valid_to").map (parseCandidateDatetime env)).getD
    current.validTo

/-- The loop of `_reconstruct_memory_snapshot`, which stops at the first revision that was made
later. -/
def replayUntil (moment : Int) (state : ReplayState) (effective : Option FactRevision) :
    List FactRevision → ReplayState × Option FactRevision
  | [] => (state, effective)
  | revision :: rest =>
    if moment < revision.createdAt then (state, effective)
    else replayUntil moment (applyRevision env state revision) (some revision) rest

/-- The columns of a row that a snapshot shows. -/
def FactRow.snapshotState (row : FactRow) : ReplayState where
  value := row.value
  status := row.status
  sourceEventIds := row.sourceEventIds
  memoryType := .str row.typed.memoryType
  confidence := (row.typed.confidence.map Json.float).getD .null
  confirmationStatus := .str row.typed.confirmationStatus
  trustClass := .str row.typed.trustClass
  trustReason := .optStr row.typed.trustReason
  validFrom := row.typed.validFrom
  validTo := row.typed.validTo

/-- The snapshot of a row as it is. -/
def FactRow.snapshot (row : FactRow) : MemorySnapshot :=
  ⟨row.id, row.memoryKey, row.snapshotState, row.createdAt, none⟩

/-- `_reconstruct_memory_snapshot`. A fact as it was at a moment: its revisions up to
then, replayed in order, or the row itself if it has none. -/
def reconstructMemorySnapshot (memory : FactRow) (revisions : List FactRevision) (moment : Int) :
    Option MemorySnapshot :=
  if revisions.isEmpty then
    if moment < memory.createdAt then none else some memory.snapshot
  else
    let replayed := replayUntil env moment {} none revisions
    if replayed.2.isNone then none
    else some ⟨memory.id, memory.memoryKey, replayed.1, memory.createdAt, replayed.2⟩

/-- `_is_effective_at`: from the start of the interval to before its end. -/
def isEffectiveAt (validFrom validTo : Option Int) (moment : Int) : Bool :=
  validFrom.all (fun start => decide (start ≤ moment))
    && validTo.all fun stop => decide (moment < stop)

/-- `_is_active_snapshot`. -/
def isActiveSnapshot (moment : Int) (snapshot : MemorySnapshot) : Bool :=
  snapshot.state.status = "active"
    && isEffectiveAt snapshot.state.validFrom snapshot.state.validTo moment

/-- `TemporalStateFactRecord`. -/
structure FactRecord where
  memoryId : String
  memoryKey : String
  value : Json
  status : String
  validFrom : Option Int
  validTo : Option Int
  effectiveAt : Bool
  createdAt : Int

/-- The order of the facts in a response. -/
def FactRecord.place (record : FactRecord) : Lex (String × String) :=
  toLex (record.memoryKey, record.memoryId)

/-- `_serialize_fact_state`. The form in which a fact is answered, with whether it is in
effect at the moment. -/
def serializeFactState (moment : Int) (snapshot : MemorySnapshot) : FactRecord where
  memoryId := snapshot.memoryId
  memoryKey := snapshot.memoryKey
  value := snapshot.state.value
  status := snapshot.state.status
  validFrom := snapshot.state.validFrom
  validTo := snapshot.state.validTo
  effectiveAt := isEffectiveAt snapshot.state.validFrom snapshot.state.validTo moment
  createdAt := snapshot.createdAt

/-- `_effective_fact_snapshots`. -/
def effectiveFactSnapshots (s : FactStore) (memoryIds : List String) (moment : Int) :
    List MemorySnapshot :=
  let memories := s.memories.rows.filter fun row => row.id ∈ memoryIds
  sortByKeys (fun snapshot => (serializeFactState moment snapshot).place)
    ((memories.filterMap fun row =>
      reconstructMemorySnapshot env row (s.listMemoryRevisions row.id) moment).filter
        (isActiveSnapshot moment))

/-- The facts of `get_temporal_state_at`, of an entity with these source memories. -/
def factsAt (s : FactStore) (memoryIds : List String) (moment : Int) : List FactRecord :=
  (effectiveFactSnapshots env s memoryIds moment).map (serializeFactState moment)

end Replay

/-- What the rows themselves say: those that are active and effective. -/
def storedFacts (s : FactStore) (memoryIds : List String) (moment : Int) : List FactRecord :=
  let memories := s.memories.rows.filter fun row => row.id ∈ memoryIds
  sortByKeys FactRecord.place (((memories.map FactRow.snapshot).filter
    (isActiveSnapshot moment)).map (serializeFactState moment))

/-! ### What a candidate names -/

theorem get?_itemOf {α : Type} (key : String) (value : Option α) (write : α → Json) (k : String) :
    (itemOf key value write).get? k = if key = k then value.map write else none := by
  cases value with
  | none =>
    rw [itemOf, Dict.get?_nil, Option.map_none, ite_self]
  | some a =>
    rw [itemOf, Dict.get?_cons, Dict.get?_nil, Option.map_some]

/-- What a replay looks up in the candidate of a revision. -/
structure CandidateNames (env : FactEnv) (c : MemoryCandidateInput) (candidate : Dict Json) :
    Prop where
  memoryType : candidate.get? "memory_type" = c.memoryType.map .str
  confidence : candidate.get? "confidence" = c.confidence.map .float
  confirmationStatus : candidate.get? "confirmation_status" = c.confirmationStatus.map .str
  trustClass : candidate.get? "trust_class" = c.trustClass.map .str
  trustReason : candidate.get? "trust_reason" = c.trustReason.map .str
  validFrom : candidate.get? "valid_from" = c.validFrom.map fun t => .str (env.isoformat t)
  validTo : candidate.get? "valid_to" = c.validTo.map fun t => .str (env.isoformat t)

/-- Under any other key than the profile's, the revision keeps what the candidate said. -/
theorem names_candidatePayload (env : FactEnv) (c : MemoryCandidateInput) (profile : String) :
    CandidateNames env c (candidatePayload env c profile) := by
  have hkeep : ∀ key, "agent_profile_id" ≠ key →
      (candidatePayload env c profile).get? key = (c.asPayload env).get? key :=
    fun key hkey => Dict.get?_set_of_ne _ _ hkey
  refine ⟨?_, ?_, ?_, ?_, ?_, ?_, ?_⟩ <;>
    rw [hkeep _ (by decide), MemoryCandidateInput.asPayload] <;>
    simp [Dict.get?_append, get?_itemOf, Dict.get?_cons]

/-- A time is read as it was written. -/
theorem parseCandidateDatetime_isoformat (env : FactEnv) (t : Int) :
    parseCandidateDatetime env (.str (env.isoformat t)) = some t := by
  unfold parseCandidateDatetime
  simp only [env.strip_isoformat, if_neg (env.isoformat_offset t), env.reads_isoformat]

theorem validateAmong_ok {field : String} {allowed : List String} {value result : Option String}
    (h : validateAmong field allowed value = .ok result) : result = value := by
  unfold validateAmong at h
  cases value with
  | none => exact (Except.ok.inj h).symm
  | some name =>
    dsimp only at h
    split at h
    next => exact (Except.ok.inj h).symm
    next => cases h

theorem validateScore_ok {name : String} {score result : Option Rat}
    (h : validateScore name score = .ok result) : result = score := by
  unfold validateScore at h
  split at h
  next => cases h
  next => exact (Except.ok.inj h).symm

theorem normalizeOptionalText_ok {name : String} {text result : Option String}
    (h : normalizeOptionalText name text = .ok result) :
    result = text.map fun t => strip (collapse t) := by
  unfold normalizeOptionalText at h
  split at h
  next => cases h
  next => exact (Except.ok.inj h).symm

theorem namedOrKept_ok {validate : Option String → Except AdmissionError (Option String)}
    (hvalidate : ∀ value result, validate value = .ok result → result = value)
    {named : Option String} {stored initial result : String}
    (h : namedOrKept validate named stored initial = .ok result) :
    result = named.getD stored := by
  unfold namedOrKept at h
  cases named with
  | some name => exact (Except.ok.inj h).symm
  | none =>
    cases hstored : validate (some stored) with
    | error e =>
      rw [hstored] at h
      cases h
    | ok kept =>
      rw [hstored, hvalidate _ _ hstored] at h
      exact (Except.ok.inj h).symm

/-- The columns of a row that a replay shows, by what the candidate names and what the row had. -/
structure ResolvedFrom (existing : Option TypedMetadata) (c : MemoryCandidateInput)
    (typed : TypedMetadata) : Prop where
  memoryType : typed.memoryType =
    c.memoryType.getD ((existing.map TypedMetadata.memoryType).getD "preference")
  confidence : typed.confidence = c.confidence.or (existing.bind TypedMetadata.confidence)
  confirmationStatus : typed.confirmationStatus = c.confirmationStatus.getD
    ((existing.map TypedMetadata.confirmationStatus).getD "unconfirmed")
  trustClass : typed.trustClass =
    c.trustClass.getD ((existing.map TypedMetadata.trustClass).getD "deterministic")
  trustReason : typed.trustReason =
    (c.trustReason.map fun t => strip (collapse t)).or (existing.bind TypedMetadata.trustReason)
  validFrom : typed.validFrom = c.validFrom.or (existing.bind TypedMetadata.validFrom)
  validTo : typed.validTo = c.validTo.or (existing.bind TypedMetadata.validTo)

/-- What the metadata is resolved from, field by field: the candidate, the fact that
exists, or the default. -/
theorem resolveMemoryTypedMetadata_ok {existing : Option TypedMetadata} {c : MemoryCandidateInput}
    {typed : TypedMetadata} (h : resolveMemoryTypedMetadata existing c = .ok typed) :
    ResolvedFrom existing c typed := by
  unfold resolveMemoryTypedMetadata at h
  obtain ⟨memoryType, hmemoryType, h⟩ := except_bind_ok.mp h
  obtain ⟨confirmationStatus, hconfirmation, h⟩ := except_bind_ok.mp h
  obtain ⟨trustClass, htrust, h⟩ := except_bind_ok.mp h
  obtain ⟨promotionEligibility, hpromotion, h⟩ := except_bind_ok.mp h
  obtain ⟨confidence, hconfidence, h⟩ := except_bind_ok.mp h
  obtain ⟨salience, hsalience, h⟩ := except_bind_ok.mp h
  obtain ⟨evidenceCount, hevidence, h⟩ := except_bind_ok.mp h
  obtain ⟨independentSourceCount, hindependent, h⟩ := except_bind_ok.mp h
  obtain ⟨extractedByModel, hextracted, h⟩ := except_bind_ok.mp h
  obtain ⟨trustReason, hreason, h⟩ := except_bind_ok.mp h
  obtain ⟨-, hrange, h⟩ := except_bind_ok.mp h
  obtain rfl := validateAmong_ok hmemoryType
  obtain rfl := validateAmong_ok hconfirmation
  obtain rfl := validateAmong_ok htrust
  obtain rfl := validateScore_ok hconfidence
  obtain rfl := normalizeOptionalText_ok hreason
  -- a new fact takes what the candidate names, an existing one keeps what it does not
  cases existing with
  | none =>
    obtain rfl := Except.ok.inj h
    exact ⟨rfl, (Option.or_none).symm, rfl, rfl, (Option.or_none).symm, (Option.or_none).symm,
      (Option.or_none).symm⟩
  | some row =>
    obtain ⟨existingTrust, hexisting, h⟩ := except_bind_ok.mp h
    obtain rfl := validateAmong_ok hexisting
    obtain ⟨eligibility, heligibility, h⟩ := except_bind_ok.mp h
    obtain ⟨type, htype, h⟩ := except_bind_ok.mp h
    obtain ⟨confirmation, hkept, h⟩ := except_bind_ok.mp h
    obtain rfl := Except.ok.inj h
    exact ⟨namedOrKept_ok (fun _ _ => validateAmong_ok) htype, rfl,
      namedOrKept_ok (fun _ _ => validateAmong_ok) hkept, rfl, rfl, rfl, rfl⟩

/-! ### One revision -/

/-- A replayed state has the columns of the row. -/
structure Shows (state : ReplayState) (row : FactRow) : Prop where
  value : state.value = row.value
  status : state.status = row.status
  sourceEventIds : state.sourceEventIds = row.sourceEventIds
  /-- The type that a fact has if no candidate names one is not replayed. -/
  memoryType : state.memoryType = .str row.typed.memoryType ∨
    state.memoryType = .null ∧ row.typed.memoryType = "preference"
  confidence : state.confidence = (row.typed.confidence.map Json.float).getD .null
  confirmationStatus : state.confirmationStatus = .str row.typed.confirmationStatus
  trustClass : state.trustClass = .str row.typed.trustClass
  /-- The row has the reason without superfluous white space. -/
  trustReason : (state.trustReason.asStr?.map fun t => strip (collapse t)) = row.typed.trustReason
  validFrom : state.validFrom = row.typed.validFrom
  validTo : state.validTo = row.typed.validTo

/-- A state shows a row, or the initial state no row. -/
def ShowsOption (state : ReplayState) : Option FactRow → Prop
  | some row => Shows state row
  | none => state = {}

/-- The revision of a write takes what showed the row before to what shows the row after. -/
theorem shows_applyRevision {env : FactEnv} {call : AdmissionCall} {s t : FactStore}
    {before : Option FactRow} {row : FactRow} {revision : FactRevision}
    (h : s.Records env call t before row revision) {state : ReplayState}
    (hstate : ShowsOption state before) : Shows (applyRevision env state revision) row := by
  obtain ⟨profile, hcandidate⟩ := h.candidate
  have hnames := names_candidatePayload env call.candidate profile
  rw [← hcandidate] at hnames
  have hresolved := resolveMemoryTypedMetadata_ok h.typed
  -- what a column falls back to where the candidate does not name it
  have hfall : (state.memoryType =
        .str (((before.map FactRow.typed).map TypedMetadata.memoryType).getD "preference") ∨
      state.memoryType = .null ∧
        ((before.map FactRow.typed).map TypedMetadata.memoryType).getD "preference" =
          "preference") ∧
      state.confidence =
        ((((before.map FactRow.typed).bind TypedMetadata.confidence).map Json.float).getD .null) ∧
      state.confirmationStatus = .str
        (((before.map FactRow.typed).map TypedMetadata.confirmationStatus).getD "unconfirmed") ∧
      state.trustClass = .str
        (((before.map FactRow.typed).map TypedMetadata.trustClass).getD "deterministic") ∧
      (state.trustReason.asStr?.map fun t => strip (collapse t)) =
        (before.map FactRow.typed).bind TypedMetadata.trustReason ∧
      state.validFrom = (before.map FactRow.typed).bind TypedMetadata.validFrom ∧
      state.validTo = (before.map FactRow.typed).bind TypedMetadata.validTo := by
    cases before with
    | none =>
      obtain rfl : state = {} := hstate
      exact ⟨.inr ⟨rfl, rfl⟩, rfl, rfl, rfl, rfl, rfl, rfl⟩
    | some old =>
      have hold : Shows state old := hstate
      exact ⟨hold.memoryType, hold.confidence, hold.confirmationStatus, hold.trustClass,
        hold.trustReason, hold.validFrom, hold.validTo⟩
  obtain ⟨htype, hconfidence, hconfirmation, htrust, hreason, hfrom, hto⟩ := hfall
  -- a deletion keeps the value, anything else writes the one of the revision
  have hvalue : (applyRevision env state revision).value = row.value := by
    show (if revision.action = "DELETE" then state.value else revision.newValue) = row.value
    rcases h.value with ⟨haction, -, old, hold, hvalue⟩ | ⟨haction, -, hvalue⟩
    · rw [if_pos haction, hvalue]
      obtain rfl : before = some old := hold
      exact (show Shows state old from hstate).value
    · rw [if_neg haction, hvalue]
  have hstatus : (applyRevision env state revision).status = row.status := by
    show (if revision.action = "DELETE" then "deleted" else "active") = row.status
    rcases h.value with ⟨haction, hstatus, -⟩ | ⟨haction, hstatus, -⟩
    · rw [if_pos haction, hstatus]
    · rw [if_neg haction, hstatus]
  -- each column is named by the candidate, or falls back to the row before
  refine ⟨hvalue, hstatus, h.sourceEventIds, ?_, ?_, ?_, ?_, ?_, ?_, ?_⟩
  · show (revision.candidate.get? "memory_type").getD state.memoryType = _ ∨
      (revision.candidate.get? "memory_type").getD state.memoryType = _ ∧ _
    rw [hnames.memoryType, hresolved.memoryType]
    cases call.candidate.memoryType with
    | none => exact htype
    | some name => exact .inl rfl
  · show (revision.candidate.get? "confidence").getD state.confidence = _
    rw [hnames.confidence, hresolved.confidence]
    cases call.candidate.confidence with
    | none => exact hconfidence
    | some q => rfl
  · show (revision.candidate.get? "confirmation_status").getD state.confirmationStatus = _
    rw [hnames.confirmationStatus, hresolved.confirmationStatus]
    cases call.candidate.confirmationStatus with
    | none => exact hconfirmation
    | some name => rfl
  · show (revision.candidate.get? "trust_class").getD state.trustClass = _
    rw [hnames.trustClass, hresolved.trustClass]
    cases call.candidate.trustClass with
    | none => exact htrust
    | some name => rfl
  · show ((revision.candidate.get? "trust_reason").getD state.trustReason).asStr?.map _ = _
    rw [hnames.trustReason, hresolved.trustReason]
    cases call.candidate.trustReason with
    | none => exact hreason
    | some text => rfl
  · show ((revision.candidate.get? "valid_from").map (parseCandidateDatetime env)).getD
      state.validFrom = _
    rw [hnames.validFrom, hresolved.validFrom]
    cases call.candidate.validFrom with
    | none => exact hfrom
    | some time =>
      -- an instant is written as ISO text and read back
      rw [Option.map_some, Option.map_some, Option.getD_some, Option.some_or]
      exact parseCandidateDatetime_isoformat env time
  · show ((revision.candidate.get? "valid_to").map (parseCandidateDatetime env)).getD
      state.validTo = _
    rw [hnames.validTo, hresolved.validTo]
    cases call.candidate.validTo with
    | none => exact hto
    | some time =>
      rw [Option.map_some, Option.map_some, Option.getD_some, Option.some_or]
      exact parseCandidateDatetime_isoformat env time

end AliceBot
