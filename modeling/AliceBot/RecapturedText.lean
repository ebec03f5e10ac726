import AliceBot.MemoryOperationRuns

/-!
# Text that is captured again

A text that was added as an object is found again when it is said again in the same scope, and
nothing is proposed to be done (`recaptured_noop`), as long as nobody corrected or reviewed the
object. The object is compared by the field of its body that holds the text, and the scope is read
off its provenance.
-/

namespace AliceBot

open PyLib Relation

variable {env : MutationEnv} {s t : MutationStore}

/-! ### The text and the scope of an object -/

theorem normalizeMutationText_normalize (text : String) :
    normalizeMutationText (some (normalizeMutationText (some text))) =
      normalizeMutationText (some text) := by
  show strip (collapse (strip (collapse text))) = strip (collapse text)
  rw [strip_collapse, strip_collapse, collapse_collapse]

/-- What is found first, if only one thing can be found. -/
theorem findSome?_of_only {α β : Type} {f : α → Option β} {b : β} {l : List α}
    (honly : ∀ a ∈ l, f a = none ∨ f a = some b) {a : α} (ha : a ∈ l) (hb : f a = some b) :
    l.findSome? f = some b := by
  cases hfound : l.findSome? f with
  | none =>
    rw [List.findSome?_eq_none_iff.mp hfound a ha] at hb
    cases hb
  | some b' =>
    obtain ⟨a', ha', hb'⟩ := List.exists_of_findSome?_eq_some hfound
    rcases honly a' ha' with hnone | hsome
    · rw [hnone] at hb'
      cases hb'
    · exact hb'.symm.trans hsome

/-- The text of an added object, if there is one, is what it is compared by. -/
theorem comparisonText_of_body {row : ContinuityObject} {text : String}
    {signal : Option String} (hbody : row.body = bodyForObjectType row.objectType text text signal)
    (htext : strip text ≠ "") : comparisonText row = normalizeMutationText (some text) := by
  -- no key of the body holds another text
  have hread : ∀ key ∈ comparedKeys, row.body.get? key = none ∨
      row.body.get? key = some (.str text) := by
    intro key hkey
    have hsignal : "explicit_signal" ≠ key := by
      rintro rfl
      exact absurd hkey (by decide)
    rw [hbody, bodyForObjectType, Dict.get?_cons, Dict.get?_cons, Dict.get?_cons, if_neg hsignal]
    split
    · exact .inr rfl
    split
    · exact .inr rfl
    · exact .inl rfl
  have hraw : row.body.get? "raw_content" = some (.str text) := by
    rw [hbody, bodyForObjectType, Dict.get?_cons, Dict.get?_cons, if_pos rfl]
    split <;> rfl
  have hfound : (comparedKeys.findSome? fun key =>
      ((row.body.get? key).bind Json.asStr?).filter fun text => strip text ≠ "") = some text := by
    refine findSome?_of_only (a := "raw_content") (fun key hkey => ?_) (by decide) ?_
    · rcases hread key hkey with hnone | hsome
      · rw [hnone]
        exact .inl rfl
      · rw [hsome]
        exact .inr (by simp [htext])
    · rw [hraw]
      simp [htext]
  rw [comparisonText, hfound]
  rfl

/-- The keys of the scope in a provenance differ. -/
theorem CandidateScope.nodup_provenance (scope : CandidateScope) :
    (scope.provenance.map Prod.fst).Nodup := by
  have hkeys : scope.provenance.map Prod.fst =
      ([("session_id", scope.sessionId), ("thread_id", scope.threadId), ("task_id", scope.taskId),
        ("project", scope.project), ("person", scope.person)].filter fun field =>
          field.2.isSome).map Prod.fst := by
    rw [CandidateScope.provenance, List.map_filterMap, ← List.filterMap_eq_map,
      List.filterMap_filter]
    refine List.filterMap_congr fun field _ => ?_
    cases field.2 <;> rfl
  have hnodup : ["session_id", "thread_id", "task_id", "project", "person"].Nodup := by decide
  rw [hkeys]
  exact List.Nodup.sublist (List.filter_sublist.map _) hnodup

/-- What the scope sets is read from the provenance of an object that was added in it. -/
theorem get?_scope_provenance {scope : CandidateScope} {row : OperationCandidate}
    {operationId key value : String}
    (hkey : ∀ item ∈ row.provenance operationId, item.1 ≠ key)
    (hset : (key, Json.str value) ∈ scope.provenance) :
    (scope.provenance.update (row.provenance operationId)).get? key = some (.str value) := by
  rw [Dict.get?_update_of_notMem _ _ hkey]
  exact Dict.get?_of_mem scope.nodup_provenance hset

/-- The scope asks for nothing but what this one has. -/
structure CandidateScope.Within (scope other : CandidateScope) : Prop where
  threadId : scope.threadId = none ∨ scope.threadId = other.threadId
  taskId : scope.taskId = none ∨ scope.taskId = other.taskId
  project : scope.project = none ∨ scope.project = other.project
  person : scope.person = none ∨ scope.person = other.person

/-- One field of the scope. -/
theorem scopeField_matches {object : ContinuityObject} {row : OperationCandidate}
    {operationId key : String} {asked set : Option String}
    (hprovenance : object.provenance =
      row.sourceScope.provenance.update (row.provenance operationId))
    (hkey : ∀ item ∈ row.provenance operationId, item.1 ≠ key)
    (hset : ∀ value, set = some value → (key, Json.str value) ∈ row.sourceScope.provenance)
    (hasked : asked = none ∨ asked = set) :
    (asked = none || (object.provenance.get? key).bind Json.asStr? = asked) = true := by
  cases asked with
  | none => rfl
  | some value =>
    rcases hasked with hnone | hsome
    · cases hnone
    · rw [hprovenance, get?_scope_provenance hkey (hset value hsome.symm)]
      simp

/-- An object that was added is in any scope within the one it was said in, since its
provenance names all of it. -/
theorem scopeMatches_of_added {object : ContinuityObject} {row : OperationCandidate}
    {operationId : String} {scope : CandidateScope}
    (hprovenance : object.provenance =
      row.sourceScope.provenance.update (row.provenance operationId))
    (hwithin : scope.Within row.sourceScope) : scopeMatches object scope = true := by
  -- the keys of the provenance that are not of the scope
  have hapart : ∀ key ∈ ["thread_id", "task_id", "project", "person"],
      key ∉ ["memory_operation_candidate_id", "memory_operation_id", "sync_fingerprint",
        "source_kind", "source_candidate_id", "source_candidate_type"] := by decide
  have hkey : ∀ key ∈ ["thread_id", "task_id", "project", "person"],
      ∀ item ∈ row.provenance operationId, item.1 ≠ key := by
    intro key hkey item hitem heq
    have hname : item.1 ∈ (row.provenance operationId).map Prod.fst := List.mem_map_of_mem hitem
    rw [heq] at hname
    exact hapart key hkey hname
  rw [scopeMatches, List.all_eq_true]
  intro field hfield
  have hset : ∀ key (value : Option String) text, value = some text →
      (key, value) ∈ [("session_id", row.sourceScope.sessionId),
        ("thread_id", row.sourceScope.threadId), ("task_id", row.sourceScope.taskId),
        ("project", row.sourceScope.project), ("person", row.sourceScope.person)] →
      (key, Json.str text) ∈ row.sourceScope.provenance := by
    rintro key _ text rfl hmem
    exact List.mem_filterMap.mpr ⟨(key, some text), hmem, rfl⟩
  simp only [List.mem_cons, List.not_mem_nil, or_false] at hfield
  -- the four fields a scope is compared by
  rcases hfield with rfl | rfl | rfl | rfl
  · exact scopeField_matches hprovenance (hkey "thread_id" (by decide))
      (fun text htext => hset _ _ text htext (by simp)) hwithin.threadId
  · exact scopeField_matches hprovenance (hkey "task_id" (by decide))
      (fun text htext => hset _ _ text htext (by simp)) hwithin.taskId
  · exact scopeField_matches hprovenance (hkey "project" (by decide))
      (fun text htext => hset _ _ text htext (by simp)) hwithin.project
  · exact scopeField_matches hprovenance (hkey "person" (by decide))
      (fun text htext => hset _ _ text htext (by simp)) hwithin.person

/-! ### Saying it again -/

/-- The candidate says what the other one said, of the same type of object. -/
structure CandidateRecord.SaysAgain (folding : CaseFolding) (again said : CandidateRecord) :
    Prop where
  text : sameText folding (normalizeMutationText (some again.normalizedText))
    (normalizeMutationText (some said.normalizedText)) = true
  type : again.candidateType = .correction ∨
    objectTypeForCandidate again = objectTypeForCandidate said

/-- An object that is current, in the scope, and of the text, is found by the text. -/
theorem exists_selectTargetRecord {folding : CaseFolding} {c : ContinuityStore}
    {candidate : CandidateRecord} {scope : CandidateScope} {id : String}
    {object : ContinuityObject} (hfound : c.objects.get? id = some object)
    (hcaptured : (c.captureEvents.get? object.captureEventId).isSome = true)
    (hcompared : isCompared candidate scope object = true)
    (hscope : scope.targetContinuityObjectId = none)
    (htext : sameText folding (normalizeMutationText (some candidate.normalizedText))
      (comparisonText object) = true) :
    ∃ target, selectTargetRecord folding c candidate scope = some target ∧
      sameText folding (normalizeMutationText (some candidate.normalizedText))
        (comparisonText target) = true := by
  -- the object is one of those that are compared
  have hmem : object ∈ c.recallCandidates.filter (isCompared candidate scope) := by
    refine List.mem_filter.mpr
      ⟨mem_sortByKeys.mpr (List.mem_filter.mpr ⟨?_, hcaptured⟩), hcompared⟩
    exact (Table.get?_eq_some_iff.mp hfound).1
  have hsome : ((c.recallCandidates.filter (isCompared candidate scope)).find? fun row =>
      sameText folding (normalizeMutationText (some candidate.normalizedText))
        (comparisonText row)).isSome = true := by
    rw [List.find?_isSome]
    exact ⟨object, hmem, htext⟩
  obtain ⟨target, htarget⟩ := Option.isSome_iff_exists.mp hsome
  have hsame := List.find?_some
    (p := fun row => sameText folding (normalizeMutationText (some candidate.normalizedText))
      (comparisonText row)) htarget
  -- the first of the text comes before any other choice
  refine ⟨target, ?_, hsame⟩
  rw [selectTargetRecord, hscope]
  show Option.or _ _ = some target
  rw [htarget]
  rfl

/-- Nothing is to be done where the target says the same. -/
theorem classifyOperation_same {folding : CaseFolding} {candidate : CandidateRecord}
    {target : ContinuityObject}
    (htext : sameText folding (normalizeMutationText (some candidate.normalizedText))
      (comparisonText target) = true) :
    (classifyOperation folding candidate (some target)).1 = .noop := by
  unfold classifyOperation
  dsimp only
  rw [if_pos htext]
  split <;> rfl

/-- What was added is not proposed again, in a store that has the object as it was added. -/
theorem OperationCandidate.of_again {c : ContinuityStore} {row : OperationCandidate}
    {operationId objectId : String} {object : ContinuityObject}
    (hadded : AddedAs c row operationId objectId object) (huntouched : c.eventsOf objectId = [])
    (hsaid : normalizeMutationText (some row.candidatePayload.normalizedText) ≠ "")
    {request : GenerateInput} {mode : CommitMode} {candidate : CandidateRecord}
    (hscope : request.scope.targetContinuityObjectId = none)
    (hwithin : request.scope.Within row.sourceScope)
    (hagain : candidate.SaysAgain env.folding row.candidatePayload) {fingerprint id : String}
    {now : Int} :
    (OperationCandidate.of env c request mode fingerprint candidate id now).operationType = .noop ∧
      (OperationCandidate.of env c request mode fingerprint candidate id now).policyAction =
        .skip := by
  obtain ⟨hfound, hcaptured, hvalues⟩ := hadded
  -- no event has changed the object since it was added
  have hobject := hvalues huntouched
  have htype : object.objectType = objectTypeForCandidate row.candidatePayload := by
    rw [hobject]
    rfl
  have hstatus : object.status = .active := by
    rw [hobject]
    rfl
  have hbody : object.body = (replacementValues row none operationId).body := by
    rw [hobject]
    rfl
  have hprovenance : object.provenance = (replacementValues row none operationId).provenance := by
    rw [hobject]
    rfl
  obtain ⟨text, htext⟩ : ∃ text, normalizeMutationText (some row.candidatePayload.normalizedText) =
    text := ⟨_, rfl⟩
  -- its text is the one that was proposed, normalized
  have hstripped : strip text ≠ "" := by
    have hstrip : strip text = text := by
      rw [← htext]
      exact strip_strip _
    rw [hstrip, ← htext]
    exact hsaid
  have hcomparison : comparisonText object = text := by
    have hbody' : object.body = bodyForObjectType object.objectType text text
        (explicitSignalForCandidate row.candidatePayload.candidateType) := by
      rw [hbody, htype, ← htext]
      rfl
    rw [comparisonText_of_body hbody' hstripped, ← htext]
    exact normalizeMutationText_normalize _
  have hsame : sameText env.folding (normalizeMutationText (some candidate.normalizedText))
      (comparisonText object) = true := by
    rw [hcomparison, ← htext]
    exact hagain.text
  -- so the new candidate is compared with it, by scope and by type
  have hcompared : isCompared candidate request.scope object = true := by
    have hmatches := scopeMatches_of_added hprovenance hwithin
    have hkind : candidate.candidateType = .correction ∨
        object.objectType = objectTypeForCandidate candidate := by
      rw [htype]
      exact hagain.type.imp_right Eq.symm
    simp [isCompared, hstatus, hmatches, hkind]
  obtain ⟨target, htarget, htargetText⟩ :=
    exists_selectTargetRecord hfound hcaptured hcompared hscope hsame
  -- and the object that is selected has the text, whichever it is
  have hnoop : (OperationCandidate.of env c request mode fingerprint candidate id
      now).operationType = .noop := by
    show (classifyOperation env.folding candidate (selectTargetRecord env.folding c candidate
      request.scope)).1 = .noop
    rw [htarget]
    exact classifyOperation_same htargetText
  refine ⟨hnoop, ?_⟩
  show (resolvePolicyAction candidate (OperationCandidate.of env c request mode fingerprint
    candidate id now).operationType mode).1 = .skip
  rw [hnoop]
  rfl

/-- **What is saved is not saved again.** A text that a commit added as an object, and that nobody
corrected or reviewed since, may be said again in its scope, in other letters and with other white
space: whatever is proposed for it is to do nothing. -/
theorem recaptured_noop {calls : List MutationCall}
    (run : Run (MutationStep env) MutationStore.NoCandidates calls s)
    {operation : MemoryOperation} (hoperation : operation ∈ s.operations.rows)
    {row : OperationCandidate} (hrow : s.candidates.get? operation.candidateId = some row)
    (hadd : row.operationType = .add)
    (hsaid : normalizeMutationText (some row.candidatePayload.normalizedText) ≠ "")
    (huntouched : ∀ objectId, operation.resultingContinuityObjectId = some objectId →
      s.continuity.eventsOf objectId = [])
    {request : GenerateInput} {rows : List OperationCandidate}
    (hgenerate : (generateMemoryOperationCandidates env request).run s = .ok rows t)
    (hscope : request.scope.targetContinuityObjectId = none)
    (hwithin : request.scope.Within row.sourceScope)
    {again : OperationCandidate} (hagain : t.candidates.get? again.id = some again)
    (hnew : s.candidates.get? again.id = none)
    (hstates : again.candidatePayload.SaysAgain env.folding row.candidatePayload) :
    again.operationType = .noop ∧ again.policyAction = .skip := by
  obtain ⟨found, hfound, -, hbacked⟩ := (MutationInv.of_run run).backed operation hoperation
  obtain rfl : found = row := Option.some.inj (hfound.symm.trans hrow)
  obtain ⟨objectId, object, hresulting, hadded⟩ := hbacked.added hadd
  have hnone := huntouched objectId hresulting
  obtain ⟨mode, hrounds⟩ := generateMemoryOperationCandidates_ok hgenerate
  -- the objects are those before the call in every round
  have hall : s.continuity.SameObjects t.continuity ∧ ∀ again, t.candidates.get? again.id =
      some again → s.candidates.get? again.id = none →
      again.candidatePayload.SaysAgain env.folding found.candidatePayload →
      again.operationType = .noop ∧ again.policyAction = .skip := by
    refine Run.invariant (P := fun t => s.continuity.SameObjects t.continuity ∧ ∀ again,
      t.candidates.get? again.id = some again → s.candidates.get? again.id = none →
      again.candidatePayload.SaysAgain env.folding found.candidatePayload →
      again.operationType = .noop ∧ again.policyAction = .skip) ?_ ?_ hrounds
    · -- no round yet, and no candidate that is new
      rintro _ rfl
      refine ⟨⟨.of_eq rfl, rfl, rfl, rfl⟩, fun again hagain hnew => ?_⟩
      rw [hagain] at hnew
      cases hnew
    · rintro u candidate v ⟨hsame, ih⟩ hround
      cases hround with
      | known hkept =>
        -- the candidate was proposed by an earlier call
        subst hkept
        exact ⟨hsame, ih⟩
      | @proposed made id now hobjects hmade hfresh hread hoperations =>
        refine ⟨hsame.trans hobjects, fun again hagain hnew hstates => ?_⟩
        rw [hread] at hagain
        split at hagain
        · obtain rfl := Option.some.inj hagain
          have hadded' : AddedAs u.continuity found operation.id objectId object :=
            ⟨hsame.objects ▸ hadded.found, hsame.captures _ hadded.captured,
              fun _ => hadded.untouched hnone⟩
          -- the rounds write no correction event either
          have hnone' : u.continuity.eventsOf objectId = [] := by
            rw [ContinuityStore.eventsOf, hsame.correctionEvents]
            exact hnone
          rw [hmade] at hstates ⊢
          exact OperationCandidate.of_again hadded' hnone' hsaid hscope hwithin hstates
        · exact ih again hagain hnew hstates
  exact hall.2 again hagain hnew hstates

def againRequest : GenerateInput where
  userContent := "Decision:  we ship on FRIDAY."
  assistantContent := ""

def againTurn : MutationStore :=
  endState ((generateMemoryOperationCandidates turnEnv againRequest).run committedTurn)

/-- The decision is said again in other letters. -/
theorem recaptured_noop_friday : ∃ (again : OperationCandidate) (later : MutationStore),
    later.candidates.get? again.id = some again ∧ again.operationType = .noop ∧
      again.policyAction = .skip := by
  have hsome : ((committedTurn.operations.rows.head?.bind fun operation =>
      committedTurn.candidates.get? operation.candidateId).filter fun row =>
        row.operationType = .add ∧
          normalizeMutationText (some row.candidatePayload.normalizedText) = "We ship on Friday." ∧
          row.candidatePayload.objectType = some .decision).isSome = true := by
    decide +kernel
  -- the candidate that was added, and nothing has corrected it since
  obtain ⟨row, hfiltered⟩ := Option.isSome_iff_exists.mp hsome
  obtain ⟨hfound, hvalues⟩ := Option.filter_eq_some_iff.mp hfiltered
  obtain ⟨operation, hfirst, hrow⟩ := Option.bind_eq_some_iff.mp hfound
  obtain ⟨hadd, htext, htype⟩ := of_decide_eq_true hvalues
  have hnoEvents : committedTurn.continuity.correctionEvents = [] := by
    have hlength : committedTurn.continuity.correctionEvents.length = 0 := by decide +kernel
    exact List.length_eq_zero_iff.mp hlength
  -- the text is said again, and a new candidate is made of it
  obtain ⟨rows, hgenerate⟩ := exists_ok_of_returned
    (r := (generateMemoryOperationCandidates turnEnv againRequest).run committedTurn)
    (by decide +kernel)
  have hagainSome : (againTurn.candidates.rows.find? fun again =>
      committedTurn.candidates.get? again.id |>.isNone) |>.any (fun again =>
        sameText .ascii (normalizeMutationText (some again.candidatePayload.normalizedText))
          "We ship on Friday." ∧ objectTypeForCandidate again.candidatePayload = .decision) := by
    decide +kernel
  obtain ⟨again, hagain, hstates⟩ := Option.any_eq_true _ _ |>.mp hagainSome
  have hnew := List.find?_some hagain
  obtain ⟨hsame, hkind⟩ := of_decide_eq_true hstates
  have hread : againTurn.candidates.get? again.id = some again :=
    Table.get?_eq_some_iff.mpr ⟨List.mem_of_find?_eq_some hagain, rfl⟩
  obtain ⟨hnoop, hskip⟩ := recaptured_noop run_committedTurn (List.mem_of_head? hfirst) hrow hadd
    (by rw [htext]; decide)
    (fun objectId _ => by rw [ContinuityStore.eventsOf, hnoEvents]; rfl) hgenerate rfl
    ⟨.inl rfl, .inl rfl, .inl rfl, .inl rfl⟩ hread (Option.isNone_iff_eq_none.mp hnew)
    ⟨by rw [htext]; exact hsame, .inr (by rw [hkind, objectTypeForCandidate, htype]; rfl)⟩
  exact ⟨again, againTurn, hread, hnoop, hskip⟩

end AliceBot
