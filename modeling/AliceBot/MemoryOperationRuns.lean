import AliceBot.ContinuityHistory
import AliceBot.MemoryOperations

/-!
# Runs of memory operations

Candidates are generated and committed between all that is done to the objects otherwise. The
loop of a commit works on candidates that were read before it, one round each (`CommitRound`),
and a call is taken apart into the moves it makes.

* A candidate is applied by one commit of the run, once unless that commit lists it more often;
  no other call changes what is applied of it, and what needs a review is applied only where that
  commit says that it was reviewed (`operations_applied_once`). What a call may do to a candidate
  is said once (`MutationEffect.fate`), and `Run.changed_once` finds the commit.
* What an operation says is in the log of the objects (`OperationBacked`), whatever is done later.
-/

namespace AliceBot

open PyLib Relation

variable {env : MutationEnv} {s t : MutationStore}

/-! ### What stays true of an operation -/

/-- Changes of the objects, one after the other. -/
abbrev ContinuityMoves (env : ContinuityEnv) : ContinuityStore → ContinuityStore → Prop :=
  ReflTransGen (ContinuityChange env)

theorem ContinuityStore.SameObjects.moves {env : ContinuityEnv} {c d : ContinuityStore}
    (h : c.SameObjects d) : ContinuityMoves env c d :=
  .single (.elsewhere h.captures h.objects h.correctionEvents h.evidenceLinks)

/-- The object that a candidate proposes: what its capture is, with the flags of its type. -/
def OperationCandidate.newObject (row : OperationCandidate) (operationId captureEventId : String) :
    NewObject :=
  let values := replacementValues row none operationId
  let objectType := objectTypeForCandidate row.candidatePayload
  { captureEventId
    objectType
    status := .active
    isPreserved := true
    isSearchable := defaultContinuitySearchable objectType
    isPromotable := defaultContinuityPromotable objectType
    title := strip values.title
    body := values.body
    provenance := values.provenance
    confidence := values.confidence }

/-- The object was added for a candidate, and as long as no event is about it, it is what was
proposed, in every column: only its id, its capture and its time are not the candidate's. -/
structure AddedAs (c : ContinuityStore) (row : OperationCandidate) (operationId objectId : String)
    (object : ContinuityObject) : Prop where
  found : c.objects.get? objectId = some object
  captured : (c.captureEvents.get? object.captureEventId).isSome = true
  untouched : c.eventsOf objectId = [] →
    object = (row.newObject operationId object.captureEventId).row objectId object.createdAt

/-- What an operation says of the objects is so. -/
structure OperationBacked (c : ContinuityStore) (row : OperationCandidate)
    (operation : MemoryOperation) : Prop where
  operationType : operation.operationType = row.operationType
  target : operation.targetContinuityObjectId = row.targetContinuityObjectId
  added : row.operationType = .add → ∃ objectId object,
    operation.resultingContinuityObjectId = some objectId ∧
      AddedAs c row operation.id objectId object
  corrected : operation.status = .applied → row.operationType ≠ .add →
    ∃ event ∈ c.correctionEvents, operation.correctionEventId = some event.id ∧
      row.targetContinuityObjectId = some event.continuityObjectId ∧
      operation.beforeSnapshot = some event.beforeSnapshot

section Later

variable {env : ContinuityEnv} {c d : ContinuityStore} {row : OperationCandidate}

theorem ContinuityChange.captures (h : ContinuityChange env c d) : c.KeepsCaptures d := by
  cases h with
  | elsewhere hcaptures => exact hcaptures
  | created hcaptures => exact hcaptures
  | corrected hcaptures => exact hcaptures
  | superseded hcaptures => exact hcaptures

/-- No event is taken back. -/
theorem ContinuityChange.mem_events (h : ContinuityChange env c d) {event : CorrectionEvent}
    (hevent : event ∈ c.correctionEvents) : event ∈ d.correctionEvents := by
  cases h with
  | elsewhere hcaptures hobjects hevents => exact hevents ▸ hevent
  | created hcaptures hnew hsupersedes hby hobjects hevents => exact hevents ▸ hevent
  | corrected hcaptures hbefore hsupersedes hby hobjects hevents =>
    exact hevents ▸ List.mem_append_left _ hevent
  | superseded hcaptures hbefore hnew hsupersedes hby hafter hreplaces hlast hobjects hevents =>
    exact hevents ▸ List.mem_append_left _ hevent

theorem ContinuityChange.captureEventId_eq (h : ContinuityChange env c d) {id : String}
    {before after : ContinuityObject} (hbefore : c.objects.get? id = some before)
    (hafter : d.objects.get? id = some after) : after.captureEventId = before.captureEventId := by
  cases h.object_moves hbefore with
  | kept hrow => rw [Option.some.inj (hafter.symm.trans hrow)]
  | told hrow hevents htells =>
    rw [Option.some.inj (hafter.symm.trans hrow)]
    exact htells.captureEventId_eq

/-- What was added stays told by its object, however the object is changed afterwards.
-/
theorem AddedAs.of_change {operationId objectId : String} {object : ContinuityObject}
    (h : AddedAs c row operationId objectId object) (hchange : ContinuityChange env c d) :
    ∃ later, AddedAs d row operationId objectId later := by
  obtain ⟨hfound, hcaptured, huntouched⟩ := h
  have hcaptured' := hchange.captures _ hcaptured
  have hsame : ∀ after, d.objects.get? objectId = some after →
      after.captureEventId = object.captureEventId :=
    fun _ => hchange.captureEventId_eq hfound
  cases hchange.object_moves hfound with
  | kept hrow hevents => exact ⟨object, hrow, hcaptured', fun hnone => huntouched (hevents ▸ hnone)⟩
  | @told after event hrow hevents =>
    refine ⟨after, hrow, ?_, fun hnone => ?_⟩
    · rw [hsame after hrow]
      exact hcaptured'
    · rw [hevents] at hnone
      exact absurd hnone (List.append_ne_nil_of_right_ne_nil _ (List.cons_ne_nil _ _))

theorem ReplacementInv.of_moves (h : ReplacementInv c) (hmoves : ContinuityMoves env c d) :
    ReplacementInv d := by
  induction hmoves with
  | refl => exact h
  | tail _ hchange ih => exact hchange.replacementInv ih

theorem OperationBacked.of_moves {operation : MemoryOperation} (h : OperationBacked c row operation)
    (hmoves : ContinuityMoves env c d) : OperationBacked d row operation := by
  induction hmoves with
  | refl => exact h
  | tail _ hchange ih =>
    refine ⟨ih.operationType, ih.target, fun htype => ?_, fun hstatus htype => ?_⟩
    · obtain ⟨objectId, object, hresulting, hadded⟩ := ih.added htype
      obtain ⟨later, hlater⟩ := hadded.of_change hchange
      exact ⟨objectId, later, hresulting, hlater⟩
    · obtain ⟨event, hevent, hrest⟩ := ih.corrected hstatus htype
      exact ⟨event, hchange.mem_events hevent, hrest⟩

end Later

/-! ### What an operation does -/

theorem onContinuity_ok {α : Type} {m : ContinuityM α} {a : α} :
    (onContinuity m).run s = .ok a t ↔
      ∃ c, m.run s.continuity = .ok a c ∧ { s with continuity := c } = t := by
  simp only [onContinuity, EStateM.run]
  cases m s.continuity with
  | ok b c =>
    constructor
    · intro h
      cases h
      exact ⟨c, rfl, rfl⟩
    · rintro ⟨d, hd, rfl⟩
      cases hd
      rfl
  | error e c =>
    constructor
    · intro h
      cases h
    · rintro ⟨d, hd, -⟩
      cases hd

/-- Only the objects move. -/
structure MutationStore.OnlyObjects (env : MutationEnv) (s t : MutationStore) : Prop where
  moves : ContinuityMoves env.toContinuityEnv s.continuity t.continuity
  candidates : t.candidates = s.candidates
  operations : t.operations = s.operations

theorem MutationStore.OnlyObjects.refl (s : MutationStore) : OnlyObjects env s s :=
  ⟨.refl, rfl, rfl⟩

/-- A draw of an id or a reading of the clock. -/
theorem onContinuity_same {α : Type} {m : ContinuityM α} {a : α}
    (hm : ∀ c d, m.run c = .ok a d → c.SameObjects d) (h : (onContinuity m).run s = .ok a t) :
    MutationStore.OnlyObjects env s t := by
  obtain ⟨c, hrun, rfl⟩ := onContinuity_ok.mp h
  exact ⟨(hm _ _ hrun).moves, rfl, rfl⟩

theorem parseObjectType_text (objectType : ContinuityObjectType) :
    parseObjectType objectType.text = some objectType := by
  cases objectType <;> decide

/-- An addition is one change of the objects, and the object added is as it was
proposed. -/
theorem applyAddOperation_ok {row : OperationCandidate} {operationId : String}
    {c d : ContinuityStore} {capture : ContinuityCapture} {created : ContinuityObject}
    (h : (applyAddOperation env row operationId).run c = .ok (capture, created) d) :
    ContinuityChange env.toContinuityEnv c d ∧
      AddedAs d row operationId created.id created := by
  obtain ⟨captured, c₁, hcapture, h⟩ := run_bind_ok.mp h
  obtain ⟨object, c₂, hrecord, h⟩ := run_bind_ok.mp h
  obtain ⟨hpair, rfl⟩ := run_pure_ok.mp h
  cases hpair
  obtain ⟨hsame, hthere⟩ := createContinuityCaptureEvent_ok hcapture
  obtain ⟨known, htype, hcreate⟩ := createContinuityObjectRecord_ok hrecord
  -- the capture comes first, and it puts no object
  have hchange : ContinuityChange env.toContinuityEnv c₁ c₂ :=
    .of_created rfl hcreate rfl rfl (List.append_nil _).symm (by simp) rfl
  obtain ⟨⟨id, now, hrow⟩, hcaptures, -, hputs, -, -⟩ := createContinuityObject_ok hcreate
  rw [parseObjectType_text] at htype
  obtain rfl := Option.some.inj htype
  refine ⟨hchange.of_same hsame, ?_, ?_, fun _ => ?_⟩
  · rw [hputs, if_pos rfl]
  · rw [hrow]
    exact hcaptures _ hthere
  · rw [hrow]
    rfl

/-- A correction of the target writes objects only, and the operation made of it is
backed by what it left there. -/
theorem correctTarget_ok {row : OperationCandidate} {operationId : String}
    {effect : OperationEffect} {target : Option ContinuityObject}
    (htarget : row.targetContinuityObjectId.bind s.continuity.objects.get? = target)
    (htype : row.operationType ≠ .add)
    (h : (correctTarget env row target operationId).run s = .ok effect t) :
    s.OnlyObjects env t ∧ ∀ now, OperationBacked t.continuity row
      (.of env row target operationId effect now) := by
  cases target with
  | none =>
    -- without a target nothing is done, and the operation is recorded as skipped
    obtain ⟨rfl, rfl⟩ := run_pure_ok.mp h
    refine ⟨.refl s, fun now => ⟨rfl, rfl, fun hadd => absurd hadd htype, fun hstatus => ?_⟩⟩
    cases hstatus
  | some target =>
    obtain ⟨request, s₁, hrequest, h⟩ := run_bind_ok.mp h
    obtain ⟨-, rfl⟩ := run_orRaise_ok.mp hrequest
    obtain ⟨applied, s₂, hcorrect, h⟩ := run_bind_ok.mp h
    obtain ⟨s₃, s₄, hget, h⟩ := run_bind_ok.mp h
    obtain ⟨rfl, rfl⟩ := run_get_ok.mp hget
    obtain ⟨rfl, rfl⟩ := run_pure_ok.mp h
    obtain ⟨c, hrun, rfl⟩ := onContinuity_ok.mp hcorrect
    have hwritten := applyContinuityCorrection_written hrun
    obtain ⟨objectId, hid, hfound⟩ := Option.bind_eq_some_iff.mp htarget
    obtain rfl : target.id = objectId := Table.key_of_get? hfound
    refine ⟨⟨.single hwritten.change, rfl, rfl⟩, fun now =>
      ⟨rfl, rfl, fun hadd => absurd hadd htype, fun _ _ =>
        ⟨applied.correctionEvent, ?_, rfl, ?_, ?_⟩⟩⟩
    · show applied.correctionEvent ∈ c.correctionEvents
      rw [hwritten.events]
      exact List.mem_append_right _ (List.mem_singleton_self _)
    · rw [hid, hwritten.about]
    · have hbefore := hwritten.before
      rw [hfound] at hbefore
      exact hbefore

/-- What is done for a candidate, and what its operation says. -/
theorem applyOperation_ok {row : OperationCandidate} {operationId : String}
    {effect : OperationEffect} {target : Option ContinuityObject}
    (htarget : row.targetContinuityObjectId.bind s.continuity.objects.get? = target)
    (h : (applyOperation env row target operationId).run s = .ok effect t) :
    s.OnlyObjects env t ∧ ∀ now, OperationBacked t.continuity row
      (.of env row target operationId effect now) := by
  rw [applyOperation] at h
  -- by the type: nothing, one new object, or a correction of the target
  cases htype : row.operationType with
  | noop =>
    rw [htype] at h
    obtain ⟨rfl, rfl⟩ := run_pure_ok.mp h
    refine ⟨.refl s, fun now => ⟨rfl, rfl, fun hadd => ?_, fun hstatus => ?_⟩⟩
    · rw [htype] at hadd
      cases hadd
    · cases hstatus
  | add =>
    rw [htype] at h
    obtain ⟨⟨capture, created⟩, s₁, hadd, h⟩ := run_bind_ok.mp h
    obtain ⟨s₂, s₃, hget, h⟩ := run_bind_ok.mp h
    obtain ⟨rfl, rfl⟩ := run_get_ok.mp hget
    obtain ⟨rfl, rfl⟩ := run_pure_ok.mp h
    obtain ⟨c, hrun, rfl⟩ := onContinuity_ok.mp hadd
    obtain ⟨hchange, hadded⟩ := applyAddOperation_ok hrun
    refine ⟨⟨.single hchange, rfl, rfl⟩, fun now => ⟨rfl, rfl, fun _ => ?_, fun _ hne => ?_⟩⟩
    · exact ⟨created.id, created, rfl, hadded⟩
    · exact absurd htype hne
  | update =>
    rw [htype] at h
    exact correctTarget_ok htarget (by simp [htype]) h
  | supersede =>
    rw [htype] at h
    exact correctTarget_ok htarget (by simp [htype]) h
  | delete =>
    rw [htype] at h
    exact correctTarget_ok htarget (by simp [htype]) h

/-- A candidate that is committed: its operation is written, and it is marked. -/
structure CommittedBy (env : MutationEnv) (s t : MutationStore) (row : OperationCandidate)
    (operation : MemoryOperation) : Prop where
  moves : ContinuityMoves env.toContinuityEnv s.continuity t.continuity
  candidate : operation.candidateId = row.id
  backed : OperationBacked t.continuity row operation
  operations : t.operations.rows = s.operations.rows ++ [operation]
  candidates : ∃ now, t.candidates = s.candidates.rewrite row.id (applicationTo operation.id now)

theorem createMemoryOperation_ok {operation : MemoryOperation}
    (h : (createMemoryOperation operation).run s = .ok () t) :
    t.operations.rows = s.operations.rows ++ [operation] ∧ t.candidates = s.candidates ∧
      t.continuity = s.continuity := by
  obtain ⟨s₁, s₂, hget, h⟩ := run_bind_ok.mp h
  obtain ⟨rfl, rfl⟩ := run_get_ok.mp hget
  obtain ⟨operations, s₃, hinsert, h⟩ := run_bind_ok.mp h
  obtain ⟨hinserted, rfl⟩ := run_orRaise_ok.mp hinsert
  rw [run_set_ok] at h
  subst h
  exact ⟨(Table.insert?_eq_some_iff.mp hinserted).2, rfl, rfl⟩

/-- A candidate that was committed is marked, and told by one operation that the objects
back. -/
theorem commitCandidate_ok {row updated : OperationCandidate} {operation : MemoryOperation}
    (h : (commitCandidate env row).run s = .ok (updated, operation) t) :
    CommittedBy env s t row operation := by
  obtain ⟨s₁, s₂, hget, h⟩ := run_bind_ok.mp h
  obtain ⟨rfl, rfl⟩ := run_get_ok.mp hget
  obtain ⟨operationId, s₃, hid, h⟩ := run_bind_ok.mp h
  obtain ⟨effect, s₄, happly, h⟩ := run_bind_ok.mp h
  obtain ⟨now, s₅, hnow, h⟩ := run_bind_ok.mp h
  obtain ⟨_, s₆, hcreate, h⟩ := run_bind_ok.mp h
  obtain ⟨appliedAt, s₇, hat, h⟩ := run_bind_ok.mp h
  obtain ⟨_, s₈, hmodify, h⟩ := run_bind_ok.mp h
  obtain ⟨s₉, s₁₀, hget, h⟩ := run_bind_ok.mp h
  obtain ⟨rfl, rfl⟩ := run_get_ok.mp hget
  obtain ⟨found, s₁₁, hfound, h⟩ := run_bind_ok.mp h
  obtain ⟨-, rfl⟩ := run_orRaise_ok.mp hfound
  obtain ⟨hpair, rfl⟩ := run_pure_ok.mp h
  cases hpair
  rw [run_modify_ok] at hmodify
  subst hmodify
  -- drawing the id changes no object, so the target is the one it was
  obtain ⟨c, hdrawn, rfl⟩ := onContinuity_ok.mp hid
  have hsame := drawId_ok hdrawn
  have htarget : row.targetContinuityObjectId.bind c.objects.get? =
      row.targetContinuityObjectId.bind s.continuity.objects.get? := by rw [hsame.objects]
  obtain ⟨honly, hbacked⟩ := applyOperation_ok htarget happly
  have hread : s₄.OnlyObjects env s₅ := onContinuity_same (fun _ _ => utcnow_ok) hnow
  obtain ⟨hoperations, hcandidates, hcontinuity⟩ := createMemoryOperation_ok hcreate
  have hread' : s₆.OnlyObjects env s₇ := onContinuity_same (fun _ _ => utcnow_ok) hat
  -- the writes after the operation are to other tables
  have hlater : ContinuityMoves env.toContinuityEnv s₄.continuity s₇.continuity :=
    hread.moves.trans (hcontinuity ▸ hread'.moves)
  refine ⟨(hsame.moves.trans honly.moves).trans hlater, rfl, (hbacked now).of_moves hlater, ?_,
    appliedAt, ?_⟩
  · show s₇.operations.rows = _
    rw [hread'.operations, hoperations, hread.operations, honly.operations]
  · show s₇.candidates.rewrite _ _ = _
    rw [hread'.candidates, hcandidates, hread.candidates, honly.candidates]
    rfl

/-! ### Rounds of a commit -/

/-- A round applies the candidate, as it was read. -/
def OperationCandidate.Applies (row : OperationCandidate) (reviewed : Bool) : Prop :=
  row.appliedOperationId = none ∧ (row.policyAction = .reviewRequired → reviewed = true)

instance (row : OperationCandidate) (reviewed : Bool) : Decidable (row.Applies reviewed) :=
  inferInstanceAs (Decidable (_ ∧ (_ → _)))

/-- One round of the loop. -/
inductive CommitRound (env : MutationEnv) (reviewed : Bool) (s : MutationStore)
    (row : OperationCandidate) (t : MutationStore) : Prop where
  | kept (hkept : ¬ row.Applies reviewed) (hsame : t = s)
  | applied {operation : MemoryOperation} (happlies : row.Applies reviewed)
      (hcommitted : CommittedBy env s t row operation)

/-- One round applies its candidate, or refuses it and keeps the store. -/
theorem commitRound_ok {reviewed : Bool} {response response' : CommitResponse}
    {row : OperationCandidate}
    (h : (commitRound env reviewed response row).run s = .ok response' t) :
    CommitRound env reviewed s row t := by
  rw [commitRound] at h
  cases happlied : row.appliedOperationId with
  | some operationId =>
    -- the candidate was applied before: its operation is answered again
    rw [happlied] at h
    obtain ⟨s₁, s₂, hget, h⟩ := run_bind_ok.mp h
    obtain ⟨rfl, rfl⟩ := run_get_ok.mp hget
    obtain ⟨-, rfl⟩ := run_pure_ok.mp h
    refine .kept (fun happlies => ?_) rfl
    rw [happlies.1] at happlied
    cases happlied
  | none =>
    rw [happlied] at h
    dsimp only at h
    split at h
    · next hgate =>
      -- it has to be reviewed, and the request does not say that it was
      obtain ⟨-, rfl⟩ := run_pure_ok.mp h
      rw [Bool.and_eq_true, decide_eq_true_eq, Bool.not_eq_true'] at hgate
      refine .kept (fun happlies => ?_) rfl
      rw [happlies.2 hgate.1] at hgate
      cases hgate.2
    · next hgate =>
      obtain ⟨⟨updated, operation⟩, s₁, hcommit, h⟩ := run_bind_ok.mp h
      obtain ⟨-, rfl⟩ := run_pure_ok.mp h
      refine .applied ⟨happlied, fun hreview => ?_⟩ (commitCandidate_ok hcommit)
      simpa [hreview] using hgate

/-! ### What is kept -/

/-- `list_memory_operations`, of one candidate. -/
def MutationStore.operationsOf (s : MutationStore) (candidateId : String) : List MemoryOperation :=
  s.operations.rows.filter fun operation => operation.candidateId = candidateId

/-- What was proposed, whether or not it is applied. -/
def OperationCandidate.proposal (row : OperationCandidate) : OperationCandidate :=
  { row with
    appliedOperationId := none
    appliedAt := none }

/-- What needs a review is marked so. -/
def OperationCandidate.Gated (row : OperationCandidate) : Prop :=
  row.operationType ≠ .noop → (row.operationType = .delete ∨
    row.candidatePayload.confidence < 9 / 10 ∨
    reviewRequiredType row.candidatePayload.candidateType = true) →
  row.policyAction = .reviewRequired

theorem OperationBacked.congr {c : ContinuityStore} {row row' : OperationCandidate}
    {operation : MemoryOperation} (h : OperationBacked c row operation)
    (hsame : row.proposal = row'.proposal) : OperationBacked c row' operation := by
  have hbacked : OperationBacked c row.proposal operation :=
    ⟨h.operationType, h.target, fun htype => by
      obtain ⟨objectId, object, hresulting, hfound, hcaptured, huntouched⟩ := h.added htype
      exact ⟨objectId, object, hresulting, hfound, hcaptured, huntouched⟩, h.corrected⟩
  rw [hsame] at hbacked
  exact ⟨hbacked.operationType, hbacked.target, fun htype => by
    obtain ⟨objectId, object, hresulting, hfound, hcaptured, huntouched⟩ := hbacked.added htype
    exact ⟨objectId, object, hresulting, hfound, hcaptured, huntouched⟩, hbacked.corrected⟩

theorem OperationCandidate.Gated.congr {row row' : OperationCandidate} (h : row.Gated)
    (hsame : row.proposal = row'.proposal) : row'.Gated := by
  have hgated : row.proposal.Gated := h
  rw [hsame] at hgated
  exact hgated

/-- What every call keeps. -/
structure MutationInv (s : MutationStore) : Prop where
  backed : ∀ operation ∈ s.operations.rows, ∃ row,
    s.candidates.get? operation.candidateId = some row ∧ row.appliedOperationId ≠ none ∧
      OperationBacked s.continuity row operation
  marked : ∀ id row operationId, s.candidates.get? id = some row →
    row.appliedOperationId = some operationId → ∃ operation ∈ s.operationsOf id,
      operation.id = operationId
  gated : ∀ id row, s.candidates.get? id = some row → row.Gated

namespace MutationInv

/-- A candidate that is not applied has no operation. -/
theorem operationsOf_eq_nil (hinv : MutationInv s) {id : String} {row : OperationCandidate}
    (hrow : s.candidates.get? id = some row) (hopen : row.appliedOperationId = none) :
    s.operationsOf id = [] := by
  refine List.filter_eq_nil_iff.mpr fun operation hoperation hid => ?_
  obtain ⟨found, hfound, happlied, -⟩ := hinv.backed operation hoperation
  rw [of_decide_eq_true hid, hrow] at hfound
  exact happlied (Option.some.inj hfound ▸ hopen)

/-- Nor has one that is not there. -/
theorem operationsOf_eq_nil_of_none (hinv : MutationInv s) {id : String}
    (hnone : s.candidates.get? id = none) : s.operationsOf id = [] := by
  refine List.filter_eq_nil_iff.mpr fun operation hoperation hid => ?_
  obtain ⟨found, hfound, -, -⟩ := hinv.backed operation hoperation
  rw [of_decide_eq_true hid, hnone] at hfound
  cases hfound

/-- Where the objects move, and candidates and operations stay. -/
theorem of_onlyObjects (hinv : MutationInv s) (h : s.OnlyObjects env t) : MutationInv t where
  backed operation hoperation := by
    rw [h.operations] at hoperation
    rw [h.candidates]
    obtain ⟨row, hrow, happlied, hbacked⟩ := hinv.backed operation hoperation
    exact ⟨row, hrow, happlied, hbacked.of_moves h.moves⟩
  marked id row operationId hrow happlied := by
    rw [h.candidates] at hrow
    rw [MutationStore.operationsOf, h.operations]
    exact hinv.marked id row operationId hrow happlied
  gated id row hrow := by
    rw [h.candidates] at hrow
    exact hinv.gated id row hrow

/-- A committed candidate keeps the invariant, since it is still in the store with the
proposal it was read with. -/
theorem of_committed (hinv : MutationInv s) {row current : OperationCandidate}
    {operation : MemoryOperation} (h : CommittedBy env s t row operation)
    (hcurrent : s.candidates.get? row.id = some current)
    (hsame : current.proposal = row.proposal) : MutationInv t := by
  obtain ⟨hmoves, hcandidate, hbacked, hoperations, now, hcandidates⟩ := h
  -- the commit marks one candidate and adds one operation
  have hread : ∀ id, t.candidates.get? id =
      if row.id = id then (s.candidates.get? id).map (applicationTo operation.id now).apply
      else s.candidates.get? id := by
    intro id
    rw [hcandidates, Table.get?_rewrite]
  have hmarked : t.candidates.get? row.id =
      some ((applicationTo operation.id now).apply current) := by
    rw [hread, if_pos rfl, hcurrent]
    rfl
  have hmore : ∀ id, t.operationsOf id =
      s.operationsOf id ++ [operation].filter fun made => made.candidateId = id := by
    intro id
    rw [MutationStore.operationsOf, hoperations, List.filter_append]
    rfl
  refine ⟨fun made hmade => ?_, fun id found operationId hfound happlied => ?_,
    fun id found hfound => ?_⟩
  · rw [hoperations, List.mem_append, List.mem_singleton] at hmade
    -- an earlier operation keeps its candidate, and the new one has the marked one
    rcases hmade with hold | rfl
    · obtain ⟨found, hfound, happlied, hfoundBacked⟩ := hinv.backed made hold
      by_cases hid : row.id = made.candidateId
      · rw [← hid, hmarked]
        rw [← hid, hcurrent] at hfound
        obtain rfl := Option.some.inj hfound
        exact ⟨_, rfl, Option.some_ne_none _, (hfoundBacked.of_moves hmoves).congr rfl⟩
      · rw [hread, if_neg hid]
        exact ⟨found, hfound, happlied, hfoundBacked.of_moves hmoves⟩
    · rw [hcandidate, hmarked]
      exact ⟨_, rfl, Option.some_ne_none _, hbacked.congr hsame.symm⟩
  · rw [hmore]
    -- of the candidates only the one applied is marked anew
    by_cases hid : row.id = id
    · subst hid
      rw [hmarked] at hfound
      obtain rfl := Option.some.inj hfound
      refine ⟨operation, List.mem_append_right _ ?_, Option.some.inj happlied⟩
      rw [List.filter_cons_of_pos (by simp [hcandidate])]
      exact List.mem_cons_self ..
    · rw [hread, if_neg hid] at hfound
      obtain ⟨made, hmade, hmadeId⟩ := hinv.marked id found operationId hfound happlied
      exact ⟨made, List.mem_append_left _ hmade, hmadeId⟩
  · by_cases hid : row.id = id
    · subst hid
      rw [hmarked] at hfound
      obtain rfl := Option.some.inj hfound
      exact (hinv.gated row.id current hcurrent).congr rfl
    · rw [hread, if_neg hid] at hfound
      exact hinv.gated id found hfound

end MutationInv

/-! ### A commit -/

/-- The rounds over these candidates, from a store that has them. -/
structure LoopInv (env : MutationEnv) (reviewed : Bool) (s t : MutationStore)
    (done : List OperationCandidate) : Prop where
  inv : MutationInv t
  moves : ContinuityMoves env.toContinuityEnv s.continuity t.continuity
  proposals : ∀ id, (t.candidates.get? id).map OperationCandidate.proposal =
    (s.candidates.get? id).map OperationCandidate.proposal
  count : ∀ id, (t.operationsOf id).length ≤ (s.operationsOf id).length +
    done.countP fun row => row.id = id ∧ row.Applies reviewed
  kept : ∀ id, (∀ row ∈ done, row.id = id → ¬ row.Applies reviewed) →
    t.candidates.get? id = s.candidates.get? id ∧ t.operationsOf id = s.operationsOf id

/-- The invariant of the loop over the candidates of a commit, for one candidate more:
none has more new operations than there were rounds to apply it, and one that was not
applied is as it was. -/
theorem LoopInv.next {reviewed : Bool} {u : MutationStore} {done : List OperationCandidate}
    {row : OperationCandidate} (h : LoopInv env reviewed s t done)
    (hrow : s.candidates.get? row.id = some row) (hround : CommitRound env reviewed t row u) :
    LoopInv env reviewed s u (done ++ [row]) := by
  obtain ⟨hinv, hmoves, hproposals, hcount, hkept⟩ := h
  cases hround with
  | kept hrefused hsame =>
    -- a round that kept the store counts for nothing
    subst hsame
    refine ⟨hinv, hmoves, hproposals, fun id => (hcount id).trans ?_, fun id hnone => ?_⟩
    · rw [List.countP_append]
      omega
    · exact hkept id fun row hmem => hnone row (List.mem_append_left _ hmem)
  | @applied operation happlies hcommitted =>
    -- the candidate is still in the store, with the proposal it was read with
    obtain ⟨current, hcurrent, hsame⟩ : ∃ current, t.candidates.get? row.id = some current ∧
        current.proposal = row.proposal := by
      have hproposal := hproposals row.id
      rw [hrow] at hproposal
      exact Option.map_eq_some_iff.mp hproposal
    have hinv' := hinv.of_committed hcommitted hcurrent hsame
    obtain ⟨hmoves', hcandidate, -, hoperations, now, hcandidates⟩ := hcommitted
    have hread : ∀ id, u.candidates.get? id =
        if row.id = id then (t.candidates.get? id).map (applicationTo operation.id now).apply
        else t.candidates.get? id := by
      intro id
      rw [hcandidates, Table.get?_rewrite]
    have hmore : ∀ id, u.operationsOf id =
        t.operationsOf id ++ [operation].filter fun made => made.candidateId = id := by
      intro id
      rw [MutationStore.operationsOf, hoperations, List.filter_append]
      rfl
    refine ⟨hinv', hmoves.trans hmoves', fun id => ?_, fun id => ?_, fun id hnone => ?_⟩
    · rw [← hproposals id, hread]
      split
      · rw [Option.map_map]
        rfl
      · rfl
    · rw [hmore, List.length_append, List.countP_append]
      -- the operation made counts for the row that was applied
      have hone : ([operation].filter fun made => made.candidateId = id).length =
          [row].countP fun row => row.id = id ∧ row.Applies reviewed := by
        simp [List.filter_cons, List.countP_cons, hcandidate, happlies]
        split <;> rfl
      rw [hone]
      exact Nat.add_le_add_right (hcount id) _ |>.trans_eq (Nat.add_assoc _ _ _)
    · have hne : row.id ≠ id := fun hid =>
        hnone row (List.mem_append_right _ (List.mem_singleton_self _)) hid happlies
      obtain ⟨hrowKept, hoperationsKept⟩ :=
        hkept id fun row hmem => hnone row (List.mem_append_left _ hmem)
      refine ⟨by rw [hread, if_neg hne, hrowKept], ?_⟩
      rw [hmore, hoperationsKept, List.filter_cons_of_neg (by simpa [hcandidate] using hne)]
      exact List.append_nil _

theorem LoopInv.of_run {reviewed : Bool} {rows : List OperationCandidate} (hinv : MutationInv s)
    (hrows : ∀ row ∈ rows, s.candidates.get? row.id = some row)
    (run : Run (CommitRound env reviewed) (· = s) rows t) : LoopInv env reviewed s t rows := by
  refine Run.history (P := fun done t => (∀ row ∈ done, s.candidates.get? row.id = some row) →
    LoopInv env reviewed s t done) ?_ ?_ run hrows
  · rintro _ rfl -
    exact ⟨hinv, .refl, fun _ => rfl, fun _ => Nat.le_add_right _ _, fun _ _ => ⟨rfl, rfl⟩⟩
  · intro done t row u ih hround hdone
    exact (ih fun row hmem => hdone row (List.mem_append_left _ hmem)).next
      (hdone row (List.mem_append_right _ (List.mem_singleton_self _))) hround

theorem candidateOrRaise_ok {candidateId : String} {row : OperationCandidate}
    (h : (candidateOrRaise candidateId).run s = .ok row t) :
    s.candidates.get? candidateId = some row ∧ s = t := by
  obtain ⟨s₁, s₂, hget, h⟩ := run_bind_ok.mp h
  obtain ⟨rfl, rfl⟩ := run_get_ok.mp hget
  exact run_orRaise_ok.mp h

/-- The candidates of a commit are read before the loop, each by its id, and reading
them writes nothing. -/
theorem listedRows_ok {ids : List String} {rows : List OperationCandidate}
    (h : (ids.mapM candidateOrRaise).run s = .ok rows t) :
    s = t ∧ rows.map OperationCandidate.id = ids ∧
      ∀ row ∈ rows, s.candidates.get? row.id = some row := by
  induction ids generalizing s rows with
  | nil =>
    obtain ⟨rfl, rfl⟩ := run_pure_ok.mp h
    exact ⟨rfl, rfl, fun row hrow => nomatch hrow⟩
  | cons id ids ih =>
    rw [List.mapM_cons] at h
    obtain ⟨row, s₁, hrow, h⟩ := run_bind_ok.mp h
    obtain ⟨rest, s₂, hrest, h⟩ := run_bind_ok.mp h
    obtain ⟨rfl, rfl⟩ := run_pure_ok.mp h
    obtain ⟨hfound, rfl⟩ := candidateOrRaise_ok hrow
    obtain ⟨rfl, hids, hall⟩ := ih hrest
    obtain rfl : row.id = id := Table.key_of_get? hfound
    refine ⟨rfl, by rw [List.map_cons, hids], fun other hother => ?_⟩
    rcases List.mem_cons.mp hother with rfl | hmem
    · exact hfound
    · exact hall other hmem

/-- No candidate of a sync is listed twice. -/
theorem candidatesOfSync_ok (s : MutationStore) (fingerprint : String) :
    ((s.candidatesOfSync fingerprint).map OperationCandidate.id).Nodup ∧
      ∀ row ∈ s.candidatesOfSync fingerprint, row ∈ s.candidates.rows := by
  have hperm : (sortByKeys OperationCandidate.listOrder
      (s.candidates.rows.filter fun row => row.syncFingerprint = fingerprint)).Perm
      (s.candidates.rows.filter fun row => row.syncFingerprint = fingerprint) :=
    sortByKeys_perm _
  constructor
  · refine List.Nodup.sublist ((List.take_sublist 100 _).map _) ?_
    rw [(hperm.map OperationCandidate.id).nodup_iff]
    exact s.candidates.nodup.sublist (List.filter_sublist.map _)
  · intro row hrow
    exact (List.mem_filter.mp (hperm.mem_iff.mp (List.mem_of_mem_take hrow))).1

/-- The candidates of a commit: those that it lists, as often as it does, and others once. -/
theorem candidateRows_ok {request : CommitInput} {rows : List OperationCandidate}
    (h : (candidateRows request).run s = .ok rows t) :
    s = t ∧ (∀ row ∈ rows, s.candidates.get? row.id = some row) ∧
      ∀ id, (rows.map OperationCandidate.id).count id ≤ max 1 (request.candidateIds.count id) := by
  obtain ⟨listed, s₁, hlisted, h⟩ := run_bind_ok.mp h
  obtain ⟨s₂, s₃, hget, h⟩ := run_bind_ok.mp h
  obtain ⟨rfl, rfl⟩ := run_get_ok.mp hget
  obtain ⟨hrows, rfl⟩ := run_pure_ok.mp h
  obtain ⟨rfl, hids, hall⟩ := listedRows_ok hlisted
  obtain ⟨syncRows, hsync⟩ : ∃ syncRows, syncRows =
    if normalizeMutationText request.syncFingerprint = "" then []
    else s.candidatesOfSync (normalizeMutationText request.syncFingerprint) := ⟨_, rfl⟩
  rw [← hsync, hids] at hrows
  have hsub : (syncRows.map OperationCandidate.id).Nodup ∧
      ∀ row ∈ syncRows, row ∈ s.candidates.rows := by
    rw [hsync]
    split
    · exact ⟨List.nodup_nil, fun row hrow => nomatch hrow⟩
    · exact candidatesOfSync_ok s _
  subst hrows
  refine ⟨rfl, fun row hrow => ?_, fun id => ?_⟩
  · rcases List.mem_append.mp hrow with hmem | hmem
    · exact hall row hmem
    · exact Table.get?_eq_some_iff.mpr ⟨hsub.2 row (List.mem_filter.mp hmem).1, rfl⟩
  · rw [List.map_append, List.count_append, hids]
    by_cases hid : id ∈ request.candidateIds
    · -- what is listed is not taken from the sync as well
      have hnone : ((syncRows.filter fun row => row.id ∉ request.candidateIds).map
          OperationCandidate.id).count id = 0 := by
        refine List.count_eq_zero.mpr fun hmem => ?_
        obtain ⟨row, hrow, rfl⟩ := List.mem_map.mp hmem
        exact of_decide_eq_true (List.mem_filter.mp hrow).2 hid
      rw [hnone, Nat.add_zero]
      exact le_max_right _ _
    · have hnodup : ((syncRows.filter fun row => row.id ∉ request.candidateIds).map
          OperationCandidate.id).Nodup := hsub.1.sublist (List.filter_sublist.map _)
      rw [List.count_eq_zero.mpr hid, Nat.zero_add]
      exact (List.nodup_iff_count_le_one.mp hnodup id).trans (le_max_left _ _)

/-- What a commit makes of the candidates: one is left with its operations, or it was not applied
and may be, and has at most as many operations as the commit listed it, or one. -/
structure CommitEffect (env : MutationEnv) (request : CommitInput) (s t : MutationStore) :
    Prop where
  inv : MutationInv t
  moves : ContinuityMoves env.toContinuityEnv s.continuity t.continuity
  proposals : ∀ id, (t.candidates.get? id).map OperationCandidate.proposal =
    (s.candidates.get? id).map OperationCandidate.proposal
  fate : ∀ id row, s.candidates.get? id = some row →
    (t.candidates.get? id = some row ∧ t.operationsOf id = s.operationsOf id) ∨
    (row.Applies request.includeReviewRequired ∧
      (t.operationsOf id).length ≤ max 1 (request.candidateIds.count id))

/-- A commit, as its effect: a candidate is left alone, or is one the request applies,
with no more operations than times it was named. -/
theorem commitMemoryOperations_ok {request : CommitInput} {response : CommitResponse}
    (hinv : MutationInv s) (h : (commitMemoryOperations env request).run s = .ok response t) :
    CommitEffect env request s t := by
  obtain ⟨_, s₁, hguard, h⟩ := run_bind_ok.mp h
  obtain ⟨-, rfl⟩ := run_raiseIf_ok.mp hguard
  obtain ⟨rows, s₂, hrows, h⟩ := run_bind_ok.mp h
  obtain ⟨rfl, hfound, hcount⟩ := candidateRows_ok hrows
  have hstart : Run (CommitRound env request.includeReviewRequired) (· = s) [] s := .start rfl
  have run := hstart.foldlM (f := commitRound env request.includeReviewRequired)
    (fun _ _ _ _ _ hround => commitRound_ok hround) h
  rw [List.nil_append] at run
  have hloop := LoopInv.of_run hinv hfound run
  refine ⟨hloop.inv, hloop.moves, hloop.proposals, fun id row hrow => ?_⟩
  by_cases hnone : ∀ other ∈ rows, other.id = id → ¬ other.Applies request.includeReviewRequired
  · obtain ⟨hrowKept, hoperationsKept⟩ := hloop.kept id hnone
    exact .inl ⟨hrowKept.trans hrow, hoperationsKept⟩
  · simp only [not_forall, not_not] at hnone
    obtain ⟨other, hother, rfl, happlies⟩ := hnone
    obtain rfl : other = row := Option.some.inj ((hfound other hother).symm.trans hrow)
    refine .inr ⟨happlies, (hloop.count other.id).trans ?_⟩
    rw [hinv.operationsOf_eq_nil hrow happlies.1, List.length_nil, Nat.zero_add]
    refine le_trans ?_ (hcount other.id)
    rw [List.count, List.countP_map]
    refine List.countP_mono_left fun row _ hboth => ?_
    simpa using (of_decide_eq_true hboth).1

/-! ### Proposals -/

/-- A deletion, a low confidence or a type that needs a review is gated in every mode.
-/
theorem resolvePolicyAction_gated {candidate : CandidateRecord} {operationType : OperationType}
    {mode : CommitMode} (hnoop : operationType ≠ .noop)
    (hneeds : operationType = .delete ∨ candidate.confidence < 9 / 10 ∨
      reviewRequiredType candidate.candidateType = true) :
    (resolvePolicyAction candidate operationType mode).1 = .reviewRequired := by
  unfold resolvePolicyAction
  rw [if_neg hnoop]
  split
  · rfl
  next hdelete =>
  split
  · rfl
  next hconfident =>
  split
  · rfl
  next htype => simp [hdelete, hconfident, htype] at hneeds

theorem OperationCandidate.gated_of {c : ContinuityStore} {request : GenerateInput}
    {mode : CommitMode} {fingerprint id : String} {candidate : CandidateRecord} {now : Int} :
    (OperationCandidate.of env c request mode fingerprint candidate id now).Gated :=
  fun hnoop hneeds => resolvePolicyAction_gated hnoop hneeds

/-- One candidate of a turn: it is there already, or it is proposed. -/
inductive GenerateRound (env : MutationEnv) (request : GenerateInput) (mode : CommitMode)
    (s : MutationStore) (candidate : CandidateRecord) (t : MutationStore) : Prop where
  | known (hsame : t = s)
  | proposed {row : OperationCandidate} {id : String} {now : Int}
      (hobjects : s.continuity.SameObjects t.continuity)
      (hrow : row = .of env s.continuity request mode (candidateFingerprint request candidate)
        candidate id now)
      (hnew : s.candidates.get? row.id = none)
      (hcandidates : ∀ id, t.candidates.get? id =
        if row.id = id then some row else s.candidates.get? id)
      (hoperations : t.operations = s.operations)

/-- One candidate is generated: an earlier turn has it already, or it is inserted as a
new row. -/
theorem generateCandidate_ok {request : GenerateInput} {mode : CommitMode}
    {candidate : CandidateRecord} {row : OperationCandidate}
    (h : (generateCandidate env request mode candidate).run s = .ok row t) :
    GenerateRound env request mode s candidate t := by
  obtain ⟨s₁, s₂, hget, h⟩ := run_bind_ok.mp h
  obtain ⟨rfl, rfl⟩ := run_get_ok.mp hget
  cases hknown : s.candidateBySyncSource (candidateFingerprint request candidate)
    candidate.candidateId with
  | some existing =>
    -- the text of this turn has its candidate already
    rw [hknown] at h
    obtain ⟨-, rfl⟩ := run_pure_ok.mp h
    exact .known rfl
  | none =>
    rw [hknown] at h
    obtain ⟨id, s₃, hid, h⟩ := run_bind_ok.mp h
    obtain ⟨now, s₄, hnow, h⟩ := run_bind_ok.mp h
    obtain ⟨s₅, s₆, hget, h⟩ := run_bind_ok.mp h
    obtain ⟨rfl, rfl⟩ := run_get_ok.mp hget
    obtain ⟨candidates, s₇, hinsert, h⟩ := run_bind_ok.mp h
    obtain ⟨hinserted, rfl⟩ := run_orRaise_ok.mp hinsert
    obtain ⟨_, s₈, hset, h⟩ := run_bind_ok.mp h
    rw [run_set_ok] at hset
    obtain ⟨-, rfl⟩ := run_pure_ok.mp h
    subst hset
    obtain ⟨c, hdrawn, rfl⟩ := onContinuity_ok.mp hid
    obtain ⟨d, hread, rfl⟩ := onContinuity_ok.mp hnow
    exact .proposed ((drawId_ok hdrawn).trans (utcnow_ok hread)) rfl
      (Table.insert?_eq_some_iff.mp hinserted).1 (Table.get?_insert? hinserted) rfl

/-- A store after candidates were proposed: what was there is there. -/
structure Proposed (s t : MutationStore) : Prop where
  inv : MutationInv t
  objects : s.continuity.SameObjects t.continuity
  operations : t.operations = s.operations
  candidates : ∀ id, t.candidates.get? id = s.candidates.get? id ∨
    (s.candidates.get? id = none ∧
      ∀ row, t.candidates.get? id = some row → row.appliedOperationId = none)

/-- One candidate more is generated: objects and operations stay as they are, and a new
row is one that nothing has applied. -/
theorem Proposed.next {request : GenerateInput} {mode : CommitMode} {u : MutationStore}
    {candidate : CandidateRecord} (h : Proposed s t)
    (hround : GenerateRound env request mode t candidate u) : Proposed s u := by
  obtain ⟨hinv, hobjects, hoperations, hcandidates⟩ := h
  cases hround with
  | known hsame =>
    subst hsame
    exact ⟨hinv, hobjects, hoperations, hcandidates⟩
  | @proposed row id now hobjects' hrow hnew hread hoperations' =>
    have hopen : row.appliedOperationId = none := by rw [hrow]; rfl
    have hgated : row.Gated := by rw [hrow]; exact OperationCandidate.gated_of
    have hmoves : ContinuityMoves env.toContinuityEnv t.continuity u.continuity := hobjects'.moves
    have hold : ∀ id found, t.candidates.get? id = some found →
        u.candidates.get? id = some found := by
      intro id found hfound
      rw [hread, if_neg, hfound]
      rintro rfl
      rw [hnew] at hfound
      cases hfound
    refine ⟨⟨fun operation hoperation => ?_, fun id found operationId hfound happlied => ?_,
      fun id found hfound => ?_⟩, hobjects.trans hobjects', hoperations'.trans hoperations,
      fun id => ?_⟩
    · rw [hoperations'] at hoperation
      obtain ⟨found, hfound, happlied, hbacked⟩ := hinv.backed operation hoperation
      exact ⟨found, hold _ _ hfound, happlied, hbacked.of_moves hmoves⟩
    · rw [hread] at hfound
      split at hfound
      · obtain rfl := Option.some.inj hfound
        rw [hopen] at happlied
        cases happlied
      · rw [MutationStore.operationsOf, hoperations']
        exact hinv.marked id found operationId hfound happlied
    · rw [hread] at hfound
      split at hfound
      · obtain rfl := Option.some.inj hfound
        exact hgated
      · exact hinv.gated id found hfound
    · by_cases hid : row.id = id
      · -- the row that is proposed is not there before
        subst hid
        refine .inr ⟨?_, fun found hfound => ?_⟩
        · rcases hcandidates row.id with hsame | ⟨hnone, -⟩
          · exact hsame.symm.trans hnew
          · exact hnone
        · rw [hread, if_pos rfl] at hfound
          rw [← Option.some.inj hfound]
          exact hopen
      · rw [hread, if_neg hid]
        exact hcandidates id

theorem generateMemoryOperationCandidates_ok {request : GenerateInput}
    {rows : List OperationCandidate}
    (h : (generateMemoryOperationCandidates env request).run s = .ok rows t) :
    ∃ mode, Run (GenerateRound env request mode) (· = s)
      (env.captureContinuityCandidates request.userContent request.assistantContent) t := by
  obtain ⟨mode, s₁, hmode, h⟩ := run_bind_ok.mp h
  obtain ⟨-, rfl⟩ := run_raising_ok.mp hmode
  have hstart : Run (GenerateRound env request mode) (· = s) [] s := .start rfl
  have run := hstart.mapM (f := generateCandidate env request mode)
    (fun _ _ _ _ hround => generateCandidate_ok hround) h
  exact ⟨mode, run⟩

/-! ### Calls -/

/-- A call to the API: one about the objects themselves, or one about memory operations. -/
inductive MutationCall where
  | objects (call : ContinuityCall)
  | generate (request : GenerateInput)
  | commit (request : CommitInput)

section Perform

variable (env : MutationEnv)

def MutationCall.perform : MutationCall → MutationM Unit
  | .objects call => onContinuity (call.perform env.toContinuityEnv)
  | .generate request => do
    let _ ← generateMemoryOperationCandidates env request
  | .commit request => do
    let _ ← commitMemoryOperations env request

/-- A call is a transaction: one that raises leaves nothing but the ids and times it drew. -/
inductive MutationStep : MutationStore → MutationCall → MutationStore → Prop where
  | returned {s t : MutationStore} {call : MutationCall}
      (h : (call.perform env).run s = .ok () t) : MutationStep s call t
  | raised {s u : MutationStore} {call : MutationCall} {error : MutationError}
      (h : (call.perform env).run s = .error error u) :
      MutationStep s call { s with
        continuity := { s.continuity with
          drawnIds := u.continuity.drawnIds
          readings := u.continuity.readings } }

end Perform

/-- What is applied of a candidate: the row, once it is applied, and its operations. -/
def MutationStore.application (s : MutationStore) (id : String) :
    Option OperationCandidate × List MemoryOperation :=
  ((s.candidates.get? id).filter fun row => row.appliedOperationId.isSome, s.operationsOf id)

/-- The commit that applies a candidate: it says that it was reviewed where that is needed, and
lists it as often as there are operations. -/
structure AppliedBy (request : CommitInput) (row : OperationCandidate) (operations : Nat) :
    Prop where
  reviewed : row.policyAction = .reviewRequired → request.includeReviewRequired = true
  count : operations ≤ max 1 (request.candidateIds.count row.id)

theorem AppliedBy.congr {request : CommitInput} {row row' : OperationCandidate} {n : Nat}
    (h : AppliedBy request row n) (hsame : row.proposal = row'.proposal) :
    AppliedBy request row' n := by
  have happlied : AppliedBy request row.proposal n := ⟨h.reviewed, h.count⟩
  rw [hsame] at happlied
  exact ⟨happlied.reviewed, happlied.count⟩

/-- The move is a commit that applies the candidate. -/
def AppliesCandidate (id : String) (move : Move MutationCall MutationStore) : Prop :=
  ∃ request, move.op = .commit request ∧ ∀ row, move.after.candidates.get? id = some row →
    AppliedBy request row (move.after.operationsOf id).length

/-- What a call does, whether it returns or raises. What is applied of a candidate it leaves,
unless that is nothing yet and the call is a commit. -/
structure MutationEffect (env : MutationEnv) (s : MutationStore) (call : MutationCall)
    (t : MutationStore) : Prop where
  inv : MutationInv t
  moves : ContinuityMoves env.toContinuityEnv s.continuity t.continuity
  fate : ∀ id, t.application id = s.application id ∨
    (s.application id = (none, []) ∧ AppliesCandidate id ⟨s, call, t⟩)

theorem MutationInv.application_eq_nil (hinv : MutationInv s) {id : String}
    {row : OperationCandidate} (hrow : s.candidates.get? id = some row)
    (hopen : row.appliedOperationId = none) : s.application id = (none, []) := by
  rw [MutationStore.application, hinv.operationsOf_eq_nil hrow hopen, hrow]
  simp [Option.filter, hopen]

namespace MutationEffect

variable {call : MutationCall}

/-- Where no candidate is applied. -/
theorem of_unapplied (hinv : MutationInv t)
    (hmoves : ContinuityMoves env.toContinuityEnv s.continuity t.continuity)
    (hoperations : t.operations = s.operations)
    (hcandidates : ∀ id, t.candidates.get? id = s.candidates.get? id ∨
      (s.candidates.get? id = none ∧
        ∀ row, t.candidates.get? id = some row → row.appliedOperationId = none)) :
    MutationEffect env s call t := by
  refine ⟨hinv, hmoves, fun id => .inl ?_⟩
  unfold MutationStore.application MutationStore.operationsOf
  rw [hoperations]
  rcases hcandidates id with hsame | ⟨hnone, hopen⟩
  · rw [hsame]
  · -- a row that is new is not applied
    rw [hnone]
    cases hrow : t.candidates.get? id with
    | none => rfl
    | some row => simp [Option.filter, hopen row hrow]

theorem of_onlyObjects (hinv : MutationInv s) (honly : s.OnlyObjects env t) :
    MutationEffect env s call t :=
  .of_unapplied (hinv.of_onlyObjects honly) honly.moves honly.operations fun _ =>
    .inl (honly.candidates ▸ rfl)

/-- The effect of a commit, as one of the effects a call can have. -/
theorem of_commit {request : CommitInput} (hinv : MutationInv s)
    (heffect : CommitEffect env request s t) : MutationEffect env s (.commit request) t := by
  refine ⟨heffect.inv, heffect.moves, fun id => ?_⟩
  have hproposal := heffect.proposals id
  cases hbefore : s.candidates.get? id with
  | none =>
    -- a candidate that is not there has no operation, before or after
    rw [hbefore] at hproposal
    have hafter : t.candidates.get? id = none := Option.map_eq_none_iff.mp hproposal
    refine .inl ?_
    unfold MutationStore.application
    rw [hbefore, hafter, hinv.operationsOf_eq_nil_of_none hbefore,
      heffect.inv.operationsOf_eq_nil_of_none hafter]
  | some before =>
    rcases heffect.fate id before hbefore with ⟨hkept, hoperations⟩ | ⟨happlies, hcount⟩
    · refine .inl ?_
      unfold MutationStore.application
      rw [hbefore, hkept, hoperations]
    · refine .inr ⟨hinv.application_eq_nil hbefore happlies.1, request, rfl, fun row hrow => ?_⟩
      rw [hbefore, hrow] at hproposal
      obtain rfl : before.id = id := Table.key_of_get? hbefore
      have hby : AppliedBy request before (t.operationsOf before.id).length :=
        ⟨happlies.2, hcount⟩
      exact hby.congr (Option.some.inj hproposal).symm

end MutationEffect

/-- Every call has such an effect. -/
theorem MutationStep.effect {call : MutationCall} (hstep : MutationStep env s call t)
    (hinv : MutationInv s) : MutationEffect env s call t := by
  cases hstep with
  | @raised u error hraised =>
    -- a call that raised is rolled back, except for the ids and readings it used up
    have honly : s.OnlyObjects env { s with
        continuity := { s.continuity with
          drawnIds := u.continuity.drawnIds
          readings := u.continuity.readings } } :=
      ⟨.single (.elsewhere (.of_eq rfl) rfl rfl rfl), rfl, rfl⟩
    exact .of_onlyObjects hinv honly
  | returned hreturned =>
    cases call with
    | objects call =>
      obtain ⟨c, hrun, rfl⟩ := onContinuity_ok.mp hreturned
      have honly : s.OnlyObjects env { s with continuity := c } :=
        ⟨.single (call.perform_change hrun), rfl, rfl⟩
      exact .of_onlyObjects hinv honly
    | generate request =>
      obtain ⟨rows, s₁, hgenerate, hreturned⟩ := run_bind_ok.mp hreturned
      obtain ⟨-, rfl⟩ := run_pure_ok.mp hreturned
      obtain ⟨mode, run⟩ := generateMemoryOperationCandidates_ok hgenerate
      have hproposed : Proposed s s₁ := by
        refine Run.invariant (P := Proposed s) ?_ (fun _ _ _ ih hround => ih.next hround) run
        rintro _ rfl
        exact ⟨hinv, ⟨.of_eq rfl, rfl, rfl, rfl⟩, rfl, fun _ => .inl rfl⟩
      exact .of_unapplied hproposed.inv hproposed.objects.moves hproposed.operations
        hproposed.candidates
    | commit request =>
      obtain ⟨response, s₁, hcommit, hreturned⟩ := run_bind_ok.mp hreturned
      obtain ⟨-, rfl⟩ := run_pure_ok.mp hreturned
      exact .of_commit hinv (commitMemoryOperations_ok hinv hcommit)

/-- Nothing was proposed yet. -/
structure MutationStore.NoCandidates (s : MutationStore) : Prop where
  candidates : s.candidates.rows = []
  operations : s.operations.rows = []

theorem MutationInv.of_noCandidates (hs : s.NoCandidates) : MutationInv s := by
  have hnone : ∀ id, s.candidates.get? id = none := by
    intro id
    rw [Table.get?_eq_none_iff, hs.candidates]
    exact List.not_mem_nil
  refine ⟨fun operation hoperation => ?_, fun id row _ hrow => ?_, fun id row hrow => ?_⟩
  · rw [hs.operations] at hoperation
    cases hoperation
  all_goals
    rw [hnone] at hrow
    cases hrow

theorem MutationInv.of_run {calls : List MutationCall}
    (run : Run (MutationStep env) MutationStore.NoCandidates calls s) : MutationInv s :=
  Run.invariant (P := MutationInv) (fun _ => MutationInv.of_noCandidates)
    (fun _ _ _ hinv hstep => (hstep.effect hinv).inv) run

/-- Memory operations keep the pointers between replaced objects in order as well. -/
theorem ReplacementInv.of_mutations {calls : List MutationCall}
    (run : Run (MutationStep env) (fun s => s.NoCandidates ∧ ReplacementInv s.continuity) calls s) :
    ReplacementInv s.continuity := by
  have hboth : MutationInv s ∧ ReplacementInv s.continuity := by
    refine Run.invariant (P := fun s => MutationInv s ∧ ReplacementInv s.continuity) ?_ ?_ run
    · intro s hs
      exact ⟨MutationInv.of_noCandidates hs.1, hs.2⟩
    · intro s call t ih hstep
      have heffect := hstep.effect ih.1
      exact ⟨heffect.inv, ih.2.of_moves heffect.moves⟩
  exact hboth.2

/-- **A candidate is applied by one commit.** A candidate that is not applied has no operation.
One that is applied has the operation that it names. One move of the run applied it, from nothing to
what is there in the end, and no other move changed what is applied of it. That move is a commit;
there are no more operations than it has listed the candidate, or one, and unless there was nothing
to do, a deletion, a note and what is not sure was only applied because it says that it was
reviewed. -/
theorem operations_applied_once {moves : List (Move MutationCall MutationStore)}
    (run : Run (WithStates (MutationStep env)) MutationStore.NoCandidates moves s) {id : String}
    {row : OperationCandidate} (hrow : s.candidates.get? id = some row) :
    (row.appliedOperationId = none → s.operationsOf id = []) ∧
      ∀ operationId, row.appliedOperationId = some operationId →
        (∃ operation ∈ s.operationsOf id, operation.id = operationId) ∧
        ∃ before commit after request, moves = before ++ commit :: after ∧
          commit.op = .commit request ∧
          commit.before.application id = (none, []) ∧
          commit.after.application id = (some row, s.operationsOf id) ∧
          (∀ move ∈ before ++ after, move.after.application id = move.before.application id) ∧
          (s.operationsOf id).length ≤ max 1 (request.candidateIds.count id) ∧
          (row.operationType ≠ .noop → (row.operationType = .delete ∨
            row.candidatePayload.confidence < 9 / 10 ∨
            reviewRequiredType row.candidatePayload.candidateType = true) →
          request.includeReviewRequired = true) := by
  have hinv : MutationInv s := .of_run run.of_moves
  refine ⟨hinv.operationsOf_eq_nil hrow, fun operationId happlied => ?_⟩
  refine ⟨hinv.marked id row operationId hrow happlied, ?_⟩
  have hend : s.application id = (some row, s.operationsOf id) := by
    rw [MutationStore.application, hrow]
    simp [Option.filter, happlied]
  have hchanged := Run.changed_once (I := MutationInv) (f := fun s => s.application id)
    (a := (none, [])) (Q := AppliesCandidate id) (fun s hs => ?_)
    (fun s call t hinv hstep => ?_) run
  · rcases hchanged with ⟨hnothing, -⟩ | ⟨before, commit, after, hmoves, hfirst, hlast, hby, hrest⟩
    · -- what is applied in the end is something
      rw [hend] at hnothing
      exact absurd (congrArg Prod.fst hnothing) (Option.some_ne_none _)
    obtain ⟨request, hcommit, hall⟩ := hby
    have hlast : commit.after.application id = (some row, s.operationsOf id) := hlast.trans hend
    have hthen : commit.after.candidates.get? id = some row :=
      (Option.filter_eq_some_iff.mp (congrArg Prod.fst hlast)).1
    have hoperations : commit.after.operationsOf id = s.operationsOf id := congrArg Prod.snd hlast
    obtain ⟨hreviewed, hcount⟩ := hall row hthen
    rw [hoperations, Table.key_of_get? hrow] at hcount
    exact ⟨before, commit, after, request, hmoves, hcommit, hfirst, hlast, hrest, hcount,
      fun hnoop hneeds => hreviewed (hinv.gated id row hrow hnoop hneeds)⟩
  · have hinv := MutationInv.of_noCandidates hs
    refine ⟨hinv, ?_⟩
    have hnone : s.candidates.get? id = none := by
      rw [Table.get?_eq_none_iff, hs.candidates]
      exact List.not_mem_nil
    unfold MutationStore.application
    rw [hnone, hinv.operationsOf_eq_nil_of_none hnone]
    rfl
  · have heffect := hstep.effect hinv
    exact ⟨heffect.inv, heffect.fate id⟩

/-- The candidate of a turn that begins with the word for a decision. -/
def decisionCandidate (candidateId text : String) : CandidateRecord where
  candidateId := candidateId
  candidateType := .decision
  objectType := some .decision
  normalizedText := text
  confidence := 98 / 100
  explicit := true
  admissionReason := "explicit_prefix_decision"

/-- The candidate of a turn that begins with the word for a note. -/
def noteCandidate (candidateId text : String) : CandidateRecord where
  candidateId := candidateId
  candidateType := .note
  objectType := some .note
  normalizedText := text
  confidence := 98 / 100
  explicit := true
  admissionReason := "explicit_prefix_note"

/-- Three turns of a user, and the candidates that are read off them. -/
def turnEnv : MutationEnv where
  toContinuityEnv := countingEnv
  folding := .ascii
  captureContinuityCandidates userContent _ :=
    if userContent = "Decision: We ship on Friday." then
      [decisionCandidate "49d49338e105c70c7e93f0da9127de6a3a645af707e1ae81c18044d0c46584b2"
        "We ship on Friday."]
    else if userContent = "Decision:  we ship on FRIDAY." then
      [decisionCandidate "5048bcc152e8eca7ec6c21d987b1ea1ce9d4bd912fb5f454e023f785e3404f9c"
        "we ship on FRIDAY."]
    else if userContent = "Note: The office moved to Bern." then
      [noteCandidate "b7ae94be41a856b328b5fc994a5b1025149ef3a5c3b89150dbb1705bc17d4470"
        "The office moved to Bern."]
    else []

def proposeCall : MutationCall :=
  .generate { userContent := "Decision: We ship on Friday.", assistantContent := "" }

def commitCall : MutationCall := .commit { candidateIds := ["o"] }

/-- The stores after a turn was proposed and after it was committed. -/
def proposedTurn : MutationStore := endState ((proposeCall.perform turnEnv).run {})

def committedTurn : MutationStore := endState ((commitCall.perform turnEnv).run proposedTurn)

theorem run_committedTurn : Run (MutationStep turnEnv) MutationStore.NoCandidates
    [proposeCall, commitCall] committedTurn := by
  obtain ⟨_, hpropose⟩ := exists_ok_of_returned
    (r := (proposeCall.perform turnEnv).run {}) (by decide +kernel)
  obtain ⟨_, hcommit⟩ := exists_ok_of_returned
    (r := (commitCall.perform turnEnv).run proposedTurn) (by decide +kernel)
  have hstart : Run (MutationStep turnEnv) MutationStore.NoCandidates [] {} := .start ⟨rfl, rfl⟩
  exact (hstart.next (.returned hpropose)).next (.returned hcommit)

/-- The store after a call that returns. -/
def MutationCall.after? (env : MutationEnv) (s : MutationStore) (call : MutationCall) :
    Option MutationStore :=
  match (call.perform env).run s with
  | .ok _ t => some t
  | .error _ _ => none

theorem MutationStep.of_after? {call : MutationCall} (h : call.after? env s = some t) :
    MutationStep env s call t := by
  unfold MutationCall.after? at h
  split at h
  · next u hrun =>
    obtain rfl := Option.some.inj h
    exact .returned hrun
  · cases h

/-- A note is proposed, committed without a review, then with one, and then again. -/
def noteCalls : List MutationCall :=
  [.generate { userContent := "Note: The office moved to Bern.", assistantContent := "" },
    .commit { candidateIds := ["o"] },
    .commit { candidateIds := ["o"], includeReviewRequired := true },
    .commit { candidateIds := ["o"], includeReviewRequired := true }]

def reviewedNote : MutationStore := performAll (MutationCall.after? turnEnv) {} noteCalls

theorem run_reviewedNote :
    Run (MutationStep turnEnv) MutationStore.NoCandidates noteCalls reviewedNote := by
  have hstart : Run (MutationStep turnEnv) MutationStore.NoCandidates [] {} := .start ⟨rfl, rfl⟩
  have hany : ∀ s call t, MutationCall.after? turnEnv s call = some t → true = true →
      MutationStep turnEnv s call t := fun _ _ _ hafter _ => MutationStep.of_after? hafter
  exact hstart.performAll hany noteCalls (by decide +kernel)

/-- The note is applied by the commit that says that it was reviewed. -/
theorem operations_applied_once_reviewedNote :
    ∃ (row : OperationCandidate) (before : List (Move MutationCall MutationStore))
      (commit : Move MutationCall MutationStore) (after : List (Move MutationCall MutationStore))
      (request : CommitInput),
      reviewedNote.candidates.get? "o" = some row ∧
      (before ++ commit :: after).map Move.op = noteCalls ∧ commit.op = .commit request ∧
      request.includeReviewRequired = true ∧ (reviewedNote.operationsOf "o").length ≤ 1 := by
  have hsome : ((reviewedNote.candidates.get? "o").any fun row =>
      row.appliedOperationId.isSome ∧ row.operationType = .add ∧
        row.candidatePayload.candidateType = .note) = true := by
    decide +kernel
  obtain ⟨row, hrow, hvalues⟩ := Option.any_eq_true _ _ |>.mp hsome
  obtain ⟨happlied, htype, hnote⟩ := of_decide_eq_true hvalues
  obtain ⟨operationId, happlied⟩ := Option.isSome_iff_exists.mp happlied
  obtain ⟨moves, hops, run⟩ := run_reviewedNote.exists_moves
  obtain ⟨-, hall⟩ := operations_applied_once run hrow
  obtain ⟨-, before, commit, after, request, hmoves, hcommit, -, -, -, hcount, hreviewed⟩ :=
    hall operationId happlied
  have hinclude : request.includeReviewRequired = true :=
    hreviewed (by simp [htype]) (.inr (.inr (by rw [hnote]; rfl)))
  refine ⟨row, before, commit, after, request, hrow, hmoves ▸ hops, hcommit, hinclude, ?_⟩
  -- no commit of the run names the note twice
  have honce : request.candidateIds.count "o" ≤ 1 := by
    have hmem : MutationCall.commit request ∈ noteCalls := by
      rw [← hops, hmoves, ← hcommit]
      exact List.mem_map_of_mem (List.mem_append_right _ List.mem_cons_self)
    simp only [noteCalls, List.mem_cons, List.not_mem_nil, or_false, MutationCall.commit.injEq,
      reduceCtorEq, false_or] at hmem
    rcases hmem with rfl | rfl | rfl <;> decide
  exact hcount.trans (max_le le_rfl honce)

/-- **What an operation says is so.** Each operation is of a candidate that is applied, and of what
that candidate proposed. An object that it added is there, and is what was proposed as long as no
event is about it; a correction that it made is in the log of the objects, under the id that the
operation has of it, about the target of the candidate, with the snapshot the operation has. -/
theorem operations_backed {calls : List MutationCall}
    (run : Run (MutationStep env) MutationStore.NoCandidates calls s)
    {operation : MemoryOperation} (hoperation : operation ∈ s.operations.rows) :
    ∃ row, s.candidates.get? operation.candidateId = some row ∧ row.appliedOperationId ≠ none ∧
      OperationBacked s.continuity row operation :=
  (MutationInv.of_run run).backed operation hoperation

theorem operations_backed_committedTurn :
    ∃ operation row, committedTurn.candidates.get? operation.candidateId = some row ∧
      OperationBacked committedTurn.continuity row operation := by
  have hsome : committedTurn.operations.rows.head?.isSome = true := by decide +kernel
  obtain ⟨operation, hfirst⟩ := Option.isSome_iff_exists.mp hsome
  obtain ⟨row, hrow, -, hbacked⟩ := operations_backed run_committedTurn (List.mem_of_head? hfirst)
  exact ⟨operation, row, hrow, hbacked⟩

end AliceBot
