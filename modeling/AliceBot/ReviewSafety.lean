import AliceBot.ArtifactReview
import AliceBot.ServiceCalls

/-!
# Artifact review is safe

`Promoted env s a m` says that both records of a promotion are there and agree:
the row of the artifact has the terminal status, and of the events that record
a promotion of it there is exactly one, which names the memory `m`. A review
takes an artifact from `NotYetPromoted` to `Promoted`, and nothing takes it
back (`Promoted.apply`).

A redaction may rewrite the very event the replay reads. It does so only for
the memory that event names, and the payload it writes names the memory again
(`Recording.redacted`). Whether the trigger on the log lets that happen is of
no consequence: everything holds for every trigger.

One thing does not hold. The replay searches the log for the text of its call,
so a promotion is confirmed to a caller only who spells the artifact's id the
way the promoting caller did (`Promoted.replay_iff`).
-/

namespace AliceBot

open PyLib

variable {env : Env} {digest : String → String} {uuid : UuidInput}
  {guard : List ArtifactRow → EventRow → EventRow → Bool} {s t : QueueState} {a b m : String}

/-! ### One review -/

/-- What a review that returns has done. -/
inductive ReviewStep (uuid : UuidInput) (s : QueueState) (call : ReviewCall) (t : QueueState) :
    Prop
  /-- A repeated review, or the replay of a promotion. -/
  | unchanged (same : t = s) : ReviewStep uuid s call t
  | moved (id : String) (artifact : QueueArtifact) (status : String) (events : List EventRow)
      (read : uuid.read call.artifactId = some id) (found : s.artifacts.get? id = some artifact)
      (allowed : status ∈ artifactStatusTransitions artifact.status)
      (below : status ≠ "promoted_to_memory")
      (plain : ∀ e ∈ events, e.eventType ≠ "artifact.promoted_to_memory")
      (artifacts : t.artifacts = s.artifacts.rewrite id (QueueState.statusRewrite status))
      (memories : t.memories = s.memories) (log : t.events = s.events ++ events) :
      ReviewStep uuid s call t
  | promoted (id : String) (artifact : QueueArtifact) (row : RedactableMemory)
      (events : List EventRow) (e : EventRow)
      (read : uuid.read call.artifactId = some id) (found : s.artifacts.get? id = some artifact)
      (generic : isProjectUpdateArtifact artifact.row = false)
      (allowed : "promoted_to_memory" ∈ artifactStatusTransitions artifact.status)
      (inserted : s.memories.insert? row = some t.memories)
      (plain : ∀ e ∈ events, e.eventType ≠ "artifact.promoted_to_memory")
      (records : e.recordsPromotion uuid id = true)
      (payload : e.payloadJson = [("memory_id", .str call.newMemoryId)])
      (artifacts : t.artifacts =
        s.artifacts.rewrite id (QueueState.statusRewrite "promoted_to_memory"))
      (log : t.events = s.events ++ events ++ [e]) : ReviewStep uuid s call t

/-- What is reviewed was found under the id as the database reads it, and is no project
update. -/
theorem reviewable_ok {text : String} {artifact : QueueArtifact}
    (h : s.reviewable uuid text = .ok artifact) :
    ∃ id, uuid.read text = some id ∧ s.artifacts.get? id = some artifact ∧
      isProjectUpdateArtifact artifact.row = false := by
  unfold QueueState.reviewable at h
  split at h
  · cases h
  · next id hread =>
    split at h
    · cases h
    · next found hfound =>
      split at h
      · cases h
      · next hgeneric =>
        cases h
        exact ⟨id, hread, hfound, by simpa using hgeneric⟩

/-- The update of a status found the status it expected, wrote the row and logged one
event about it. -/
theorem updateArtifactStatus_some {call : ReviewCall} {status expected id : String}
    {updated artifact : QueueArtifact} (hread : uuid.read call.artifactId = some id)
    (hfound : s.artifacts.get? id = some artifact)
    (h : s.updateArtifactStatus uuid call status expected = some (updated, t)) :
    artifact.status = expected ∧ ∃ e : EventRow, e.eventType = "artifact.updated" ∧
      t = { s with
        artifacts := s.artifacts.rewrite id (QueueState.statusRewrite status)
        events := s.events ++ [e] } := by
  have hid : artifact.id = id := Table.key_of_get? hfound
  unfold QueueState.updateArtifactStatus at h
  rw [hread, Option.bind_some, hfound] at h
  dsimp only at h
  split at h
  · next hstatus =>
    simp only [Option.some.injEq, Prod.mk.injEq, hid] at h
    exact ⟨hstatus, _, rfl, h.2.symm⟩
  · cases h

theorem promotion_createMemory_ok {call : ReviewCall} {memory : NewMemory}
    (h : s.createMemory call memory = .ok t) :
    ∃ (row : RedactableMemory) (memories : Table fun row : RedactableMemory => row.id)
      (e : EventRow), s.memories.insert? row = some memories ∧ e.eventType = "memory.created" ∧
        t = { s with memories := memories, events := s.events ++ [e] } := by
  simp only [QueueState.createMemory] at h
  split at h
  · cases h
  · split at h
    · cases h
    · next memories hinsert =>
      cases h
      exact ⟨_, memories, _, hinsert, rfl, rfl⟩

/-- The statuses a review below promotion sets. -/
theorem actionToStatus_ne {action status : String} (h : actionToStatus action = some status) :
    status ≠ "promoted_to_memory" := by
  unfold actionToStatus at h
  split at h <;> cases h <;> decide

/-- A promotion that returns is a replay, or it makes one memory, one event that names
it, and the status to go with it. -/
theorem promoteArtifact_ok {call : ReviewCall} {reply : ReviewReply}
    (h : s.promoteArtifact env digest uuid call = .ok (reply, t)) : ReviewStep uuid s call t := by
  unfold QueueState.promoteArtifact at h
  split at h
  · cases h
  · next artifact hlocked =>
    obtain ⟨id, hread, hfound, hgeneric⟩ := reviewable_ok hlocked
    split at h
    · -- The replay reads the log and writes nothing.
      split at h
      · cases h
        exact .unchanged rfl
      · cases h
    · split at h
      · cases h
      · split at h
        · cases h
        · next hallowed =>
          split at h
          · cases h
          · split at h
            · cases h
            · next created hcreated =>
              split at h
              · cases h
              · split at h
                · cases h
                · next updated u hupdated =>
                  cases h
                  obtain ⟨row, memories, e₁, hinsert, htype₁, hafter⟩ :=
                    promotion_createMemory_ok hcreated
                  have hstill : created.artifacts.get? id = some artifact := by
                    rw [hafter]
                    exact hfound
                  obtain ⟨hstatus, e₂, htype₂, rfl⟩ :=
                    updateArtifactStatus_some hread hstill hupdated
                  subst hafter
                  rw [not_not, ← hstatus] at hallowed
                  exact .promoted id artifact row [e₁, e₂] (promotionEvent call) hread hfound
                    hgeneric hallowed hinsert (by simp [htype₁, htype₂])
                    (by simp [EventRow.recordsPromotion, promotionEvent, EventHeader.event, hread])
                    rfl rfl (by simp [QueueState.logged])

/-- A review that returns is one of the steps of an artifact: a replay, a move along the
table, or the promotion. -/
theorem reviewStep_of_ok {call : ReviewCall} {reply : ReviewReply}
    (h : s.reviewArtifact env digest uuid call = .ok (reply, t)) : ReviewStep uuid s call t := by
  unfold QueueState.reviewArtifact at h
  split at h
  · -- a promotion has its own path; any other action moves the status or leaves it
    exact promoteArtifact_ok h
  · split at h
    · cases h
    · next status haction =>
      split at h
      · cases h
      · next artifact hlocked =>
        obtain ⟨id, hread, hfound, -⟩ := reviewable_ok hlocked
        split at h
        · cases h
          exact .unchanged rfl
        · split at h
          · cases h
          · next hallowed =>
            split at h
            · cases h
            · next updated u hupdated =>
              cases h
              obtain ⟨hstatus, e, htype, rfl⟩ := updateArtifactStatus_some hread hfound hupdated
              rw [not_not, ← hstatus] at hallowed
              exact .moved id artifact status [e, reviewedEvent call status] hread hfound hallowed
                (actionToStatus_ne haction) (by simp [htype, reviewedEvent, EventHeader.event])
                rfl rfl (by simp [QueueState.logged])

/-! ### One redaction -/

/-- What a redaction that returns has done to what a review reads. -/
structure RedactStep (s : QueueState) (call : QueueRedaction) (t : QueueState) : Prop where
  artifacts : ∃ stamp, ∀ id, t.artifacts.get? id = (s.artifacts.get? id).map fun a =>
    if a.coupledTo call.memoryId then a.redacted call.memoryId stamp else a
  events : ∃ receipts : List EventRow,
    (∀ e ∈ receipts, e.eventType ≠ "artifact.promoted_to_memory") ∧
      t.events = sweep (redactionSelects s.artifactRows call.memoryId)
        (·.redacted call.memoryId) s.events ++ receipts

/-- A redaction that returns, as a step: the artifacts and events of its memory are
rewritten, all others are as they were. -/
theorem redactStep_of_ok {call : QueueRedaction} (h : s.redact env uuid guard call = .ok t) :
    RedactStep s call t := by
  simp only [QueueState.redact] at h
  split at h
  · cases h
  · split at h
    · cases h
    · -- the four refusals, then the rewrite
      split at h
      · cases h
      · split at h
        · cases h
        · split at h
          · cases h
          · split at h
            · cases h
            · cases h
              refine ⟨⟨_, fun id => Table.get?_rewriteAll _ _ id⟩, ⟨_, ?_, rfl⟩⟩
              intro e he
              split at he
              · rw [List.mem_singleton.mp he]
                show "memory.redacted" ≠ "artifact.promoted_to_memory"
                decide
              · cases he

/-- A redaction keeps the type and the target of an event. -/
theorem recordsPromotion_redacted (e : EventRow) (memoryId : String) :
    (e.redacted memoryId).recordsPromotion uuid a = e.recordsPromotion uuid a := rfl

theorem recordsPromotion_of_plain {e : EventRow}
    (h : e.eventType ≠ "artifact.promoted_to_memory") : e.recordsPromotion uuid a = false := by
  simp [EventRow.recordsPromotion, h]

/-- The event of one artifact's promotion is of no other's. -/
theorem recordsPromotion_of_ne {e : EventRow} (h : e.recordsPromotion uuid b = true)
    (hne : b ≠ a) : e.recordsPromotion uuid a = false := by
  simp only [EventRow.recordsPromotion, Bool.and_eq_true, beq_iff_eq] at h
  simp [EventRow.recordsPromotion, h.2, hne]

theorem filter_eq_nil_of_plain {events : List EventRow}
    (h : ∀ e ∈ events, e.eventType ≠ "artifact.promoted_to_memory") :
    events.filter (·.recordsPromotion uuid a) = [] := by
  refine List.filter_eq_nil_iff.mpr fun e he => ?_
  rw [recordsPromotion_of_plain (h e he)]
  decide

/-- The events that record a promotion, after a redaction. -/
theorem RedactStep.filter {call : QueueRedaction} (h : RedactStep s call t) :
    t.events.filter (·.recordsPromotion uuid a) =
      sweep (redactionSelects s.artifactRows call.memoryId) (·.redacted call.memoryId)
        (s.events.filter (·.recordsPromotion uuid a)) := by
  obtain ⟨receipts, hplain, hevents⟩ := h.events
  rw [hevents, List.filter_append, filter_eq_nil_of_plain hplain, List.append_nil,
    filter_sweep fun e => recordsPromotion_redacted e call.memoryId]

/-- A redaction moves no artifact. -/
theorem RedactStep.statusOf {call : QueueRedaction} (h : RedactStep s call t) :
    t.statusOf a = s.statusOf a := by
  obtain ⟨stamp, hartifacts⟩ := h.artifacts
  unfold QueueState.statusOf
  rw [hartifacts, Option.map_map]
  congr 1
  funext row
  simp only [Function.comp_apply]
  split <;> rfl

/-! ### Statuses -/

/-- The status stays, or moves along the table. -/
def MovesAlong (old new : Option String) : Prop :=
  new = old ∨ ∃ from_ to_, old = some from_ ∧ new = some to_ ∧ to_ ∈ artifactStatusTransitions from_

theorem statusOf_rewrite {artifact : QueueArtifact} {status : String}
    (hfound : s.artifacts.get? b = some artifact)
    (hafter : t.artifacts = s.artifacts.rewrite b (QueueState.statusRewrite status)) :
    t.statusOf a = if b = a then some status else s.statusOf a := by
  rw [QueueState.statusOf, hafter, Table.get?_rewrite]
  by_cases hba : b = a
  · subst hba
    rw [if_pos rfl, if_pos rfl, hfound]
    rfl
  · rw [if_neg hba, if_neg hba]
    rfl

/-- No call moves a status off the table, from any state. -/
theorem movesAlong_apply (s : QueueState) (call : QueueCall) (a : String) :
    MovesAlong (s.statusOf a) ((call.apply env digest uuid guard s).statusOf a) := by
  -- a review moves the status of its own artifact, and a redaction moves none
  cases call with
  | review call =>
    simp only [QueueCall.apply]
    split
    · next reply t hok =>
      cases reviewStep_of_ok hok with
      | unchanged hsame => exact Or.inl (by rw [hsame])
      | moved id artifact status events hread hfound hallowed hbelow hplain hartifacts =>
        rw [statusOf_rewrite hfound hartifacts]
        split
        · next hid =>
          subst hid
          exact Or.inr ⟨artifact.status, status, by rw [QueueState.statusOf, hfound]; rfl, rfl,
            hallowed⟩
        · exact Or.inl rfl
      | promoted id artifact row events e hread hfound hgeneric hallowed hinserted hplain hrecords
          hpayload hartifacts =>
        rw [statusOf_rewrite hfound hartifacts]
        split
        · next hid =>
          subst hid
          exact Or.inr ⟨artifact.status, "promoted_to_memory",
            by rw [QueueState.statusOf, hfound]; rfl, rfl, hallowed⟩
        · exact Or.inl rfl
    · exact Or.inl rfl
  | redact call =>
    simp only [QueueCall.apply]
    split
    · next t hok => exact Or.inl (redactStep_of_ok hok).statusOf
    · exact Or.inl rfl

/-- No call renames an artifact. -/
theorem storedIds_apply (h : s.StoredIds uuid) (call : QueueCall) :
    (call.apply env digest uuid guard s).StoredIds uuid := by
  -- a rewritten status is stored under the same id
  have hrewrite : ∀ {id status} {t : QueueState}, t.artifacts =
      s.artifacts.rewrite id (QueueState.statusRewrite status) → t.StoredIds uuid := by
    intro id status t hartifacts other artifact hfound
    rw [hartifacts, Table.get?_rewrite] at hfound
    split at hfound
    · obtain ⟨before, hbefore, -⟩ := Option.map_eq_some_iff.mp hfound
      exact h other before hbefore
    · exact h other artifact hfound
  cases call with
  | review call =>
    simp only [QueueCall.apply]
    split
    · next reply t hok =>
      cases reviewStep_of_ok hok with
      | unchanged hsame => exact hsame ▸ h
      | moved id artifact status events hread hfound hallowed hbelow hplain hartifacts =>
        exact hrewrite hartifacts
      | promoted id artifact row events e hread hfound hgeneric hallowed hinserted hplain hrecords
          hpayload hartifacts =>
        exact hrewrite hartifacts
    · exact h
  | redact call =>
    simp only [QueueCall.apply]
    split
    · next t hok =>
      obtain ⟨stamp, hartifacts⟩ := (redactStep_of_ok hok).artifacts
      intro id artifact hfound
      rw [hartifacts, Option.map_eq_some_iff] at hfound
      obtain ⟨before, hbefore, -⟩ := hfound
      exact h id before hbefore
    · exact h

/-! ### The record of a promotion -/

/-- The event names the memory, in the payload of the promotion or in the
redacted one, and is linked to nothing else but its artifact. -/
def Recording (m : String) (e : EventRow) : Prop :=
  e.payloadJson = [("memory_id", .str m)] ∨ e.payloadJson = redactedPayload m e.eventType

namespace Recording

variable {e : EventRow}

theorem namedMemory (h : Recording m e) : QueueState.namedMemory env e = some m := by
  rcases h with h | h <;>
    simp [QueueState.namedMemory, h, redactedPayload, Dict.item, Dict.get?_cons, Env.str]

theorem redacted (m : String) (e : EventRow) : Recording m (e.redacted m) := Or.inr rfl

/-- Only the redaction of that memory selects the event, as long as its
artifact is no project update. -/
theorem eq_of_selects {artifacts : List ArtifactRow} {memoryId : String} (h : Recording m e)
    (hrecords : e.recordsPromotion uuid a = true)
    (hgeneric : ∀ text, uuid.read text = some a →
      ∀ row ∈ artifacts, row.id = text → row.artifactType ≠ "project_update")
    (hselects : redactionSelects artifacts memoryId e = true) : memoryId = m := by
  have hmemory : e.payloadMemoryId = some m := by
    rcases h with h | h <;>
      simp [EventRow.payloadMemoryId, h, redactedPayload, Dict.getStr?, Dict.get?_cons]
  have hcandidate : e.payloadCandidateMemoryId = none := by
    rcases h with h | h <;>
      simp [EventRow.payloadCandidateMemoryId, h, redactedPayload, Dict.getStr?, Dict.get?_cons]
  have hartifact : e.payloadArtifactId = none := by
    rcases h with h | h <;>
      simp [EventRow.payloadArtifactId, h, redactedPayload, Dict.getStr?, Dict.get?_cons]
  simp only [EventRow.recordsPromotion, Bool.and_eq_true, beq_iff_eq] at hrecords
  obtain ⟨⟨-, htype⟩, hid⟩ := hrecords
  obtain ⟨text, hid, hread⟩ := Option.bind_eq_some_iff.mp hid
  obtain ⟨⟨link, hlink, hresolves⟩, -⟩ := redactionSelects_iff.mp hselects
  simp only [EventRow.links, htype, hid, hmemory, hcandidate, hartifact, Option.some.injEq,
    Option.toList_none, Option.toList_some, List.map_nil, List.map_cons, List.append_nil,
    if_true, List.mem_append, List.mem_cons, List.not_mem_nil, or_false] at hlink
  rcases hlink with hlink | rfl
  · -- The target leads nowhere: the artifact is coupled to nothing.
    have hlink : link = .artifact (some text) := by
      rcases hlink with hlink | hlink
      · simp at hlink
      · exact hlink
    subst hlink
    simp only [Link.resolves, Option.any_some, couples, List.any_eq_true, Bool.and_eq_true,
      beq_iff_eq] at hresolves
    obtain ⟨row, hrow, ⟨hrowId, hrowType⟩, -⟩ := hresolves
    exact absurd hrowType (hgeneric text hread row hrow hrowId)
  · exact (Option.some.inj (eq_of_beq hresolves)).symm

end Recording

/-- Both records of the promotion of an artifact to a memory are there. -/
structure Promoted (uuid : UuidInput) (s : QueueState) (a m : String) : Prop where
  stored : s.StoredIds uuid
  row : ∃ artifact, s.artifacts.get? a = some artifact ∧ artifact.status = "promoted_to_memory" ∧
    isProjectUpdateArtifact artifact.row = false
  event : ∃ e, s.events.filter (·.recordsPromotion uuid a) = [e] ∧ Recording m e

theorem statusOf_eq_of_found {artifact : QueueArtifact}
    (hfound : s.artifacts.get? a = some artifact) : s.statusOf a = some artifact.status := by
  rw [QueueState.statusOf, hfound]
  rfl

namespace Promoted

theorem statusOf (h : Promoted uuid s a m) : s.statusOf a = some "promoted_to_memory" := by
  obtain ⟨artifact, hfound, hstatus, -⟩ := h.row
  rw [statusOf_eq_of_found hfound, hstatus]

theorem promotions (h : Promoted uuid s a m) : s.promotions uuid env a = [m] := by
  obtain ⟨e, he, hrecording⟩ := h.event
  rw [QueueState.promotions, he, List.filterMap_cons_some hrecording.namedMemory,
    List.filterMap_nil]

/-- The replay finds the event under the text it was logged with, and finds no
other. -/
theorem promotedMemoryId? (env : Env) (h : Promoted uuid s a m) {text : String}
    (hread : uuid.read text = some a) :
    (s.PromotedUnder uuid a text ∧ s.promotedMemoryId? env text = some m) ∨
      (¬ s.PromotedUnder uuid a text ∧ s.promotedMemoryId? env text = none) := by
  obtain ⟨e, he, hrecording⟩ := h.event
  have hfilter : ∀ e', (e' ∈ s.events ∧ e'.recordsPromotion uuid a = true) ↔ e' = e := by
    intro e'
    rw [← List.mem_filter, he, List.mem_singleton]
  obtain ⟨hlogged, hrecords⟩ := (hfilter e).mpr rfl
  have hunder : s.PromotedUnder uuid a text ↔ e.targetId = some text := by
    refine ⟨fun hall => hall e hlogged hrecords, ?_⟩
    intro htarget e' he' hrecords'
    rw [(hfilter e').mp ⟨he', hrecords'⟩]
    exact htarget
  -- what the loop can meet under the text is the one event
  have hmem : ∀ e', (e' ∈ s.artifactEvents text ∧ e'.eventType = "artifact.promoted_to_memory") →
      e' = e ∧ e.targetId = some text := by
    rintro e' ⟨hin, htype⟩
    simp only [QueueState.artifactEvents, List.mem_mergeSort, List.mem_filter, Bool.and_eq_true,
      beq_iff_eq] at hin
    have hsame := (hfilter e').mp
      ⟨hin.1, by simp [EventRow.recordsPromotion, htype, hin.2.1, hin.2.2, hread]⟩
    exact ⟨hsame, hsame ▸ hin.2.2⟩
  unfold QueueState.promotedMemoryId?
  cases hfind : (s.artifactEvents text).findSome? fun e =>
      if e.eventType = "artifact.promoted_to_memory" then QueueState.namedMemory env e
      else none with
  | none =>
    right
    refine ⟨fun hall => ?_, rfl⟩
    have htarget := hunder.mp hall
    simp only [EventRow.recordsPromotion, Bool.and_eq_true, beq_iff_eq] at hrecords
    have hin : e ∈ s.artifactEvents text := by
      simp [QueueState.artifactEvents, hlogged, hrecords.1.2, htarget]
    have hnone := List.findSome?_eq_none_iff.mp hfind e hin
    rw [if_pos hrecords.1.1, hrecording.namedMemory] at hnone
    cases hnone
  | some m' =>
    left
    obtain ⟨e', hin, hsome⟩ := List.exists_of_findSome?_eq_some hfind
    split at hsome
    · next htype =>
      obtain ⟨hsame, htarget⟩ := hmem e' ⟨hin, htype⟩
      rw [hsame, hrecording.namedMemory] at hsome
      exact ⟨hunder.mpr htarget, hsome.symm⟩
    · cases hsome

/-- A promote call on a promoted artifact is answered from the log, to a caller
who spells the id the way it was spelled at the promotion; another is told that
there is no promotion. -/
theorem replay (env : Env) (digest : String → String) (h : Promoted uuid s a m) {call : ReviewCall}
    (hread : uuid.read call.artifactId = some a) (haction : call.action = "promote") :
    (s.PromotedUnder uuid a call.artifactId ∧ ∃ artifact, s.reviewArtifact env digest uuid call =
      .ok ({ artifact := artifact, promotedMemoryId := some m }, s)) ∨
    (¬ s.PromotedUnder uuid a call.artifactId ∧ s.reviewArtifact env digest uuid call =
      .error (.validation
        "artifact is marked promoted, but no persisted memory target can be verified")) := by
  obtain ⟨artifact, hfound, hstatus, hgeneric⟩ := h.row
  have hlocked : s.reviewable uuid call.artifactId = .ok artifact := by
    rw [QueueState.reviewable, hread]
    dsimp only
    rw [hfound]
    dsimp only
    rw [hgeneric]
    rfl
  -- the status sends the call to the log
  have hcurrent : artifact.currentStatus = "promoted_to_memory" := by
    rw [QueueArtifact.currentStatus, hstatus]
    rfl
  rw [QueueState.reviewArtifact, if_pos haction, QueueState.promoteArtifact, hlocked]
  dsimp only
  rw [if_pos hcurrent]
  rcases h.promotedMemoryId? env hread with ⟨hunder, hid⟩ | ⟨hunder, hid⟩
  · exact .inl ⟨hunder, artifact, by rw [hid]⟩
  · exact .inr ⟨hunder, by rw [hid]⟩

theorem replay_iff (h : Promoted uuid s a m) {call : ReviewCall}
    (hread : uuid.read call.artifactId = some a) (haction : call.action = "promote") :
    (∃ artifact, s.reviewArtifact env digest uuid call =
      .ok ({ artifact := artifact, promotedMemoryId := some m }, s)) ↔
    s.PromotedUnder uuid a call.artifactId := by
  rcases h.replay env digest hread haction with ⟨hunder, hok⟩ | ⟨hunder, herror⟩
  · exact iff_of_true hok hunder
  · refine iff_of_false ?_ hunder
    rintro ⟨artifact, hok⟩
    rw [herror] at hok
    cases hok

/-- No review of a promoted artifact writes anything. -/
theorem eq_of_review (h : Promoted uuid s a m) {call : ReviewCall}
    (hread : uuid.read call.artifactId = some a) (hstep : ReviewStep uuid s call t) : t = s := by
  obtain ⟨artifact, hfound, hstatus, -⟩ := h.row
  have hterminal : ∀ id found status, uuid.read call.artifactId = some id →
      s.artifacts.get? id = some found → status ∉ artifactStatusTransitions found.status := by
    intro id found status hid hget
    rw [hread] at hid
    rw [← Option.some.inj hid, hfound] at hget
    rw [← Option.some.inj hget, hstatus]
    exact List.not_mem_nil
  cases hstep with
  | unchanged hsame => exact hsame
  | moved id found status events hid hget hallowed =>
    exact absurd hallowed (hterminal _ _ _ hid hget)
  | promoted id found row events e hid hget hgeneric hallowed =>
    exact absurd hallowed (hterminal _ _ _ hid hget)

/-- A review of another artifact leaves both records alone. -/
theorem review (h : Promoted uuid s a m) {call : ReviewCall}
    (hread : uuid.read call.artifactId ≠ some a) (hstored : t.StoredIds uuid)
    (hstep : ReviewStep uuid s call t) : Promoted uuid t a m := by
  obtain ⟨artifact, hfound, hstatus, hgeneric⟩ := h.row
  obtain ⟨e, he, hrecording⟩ := h.event
  have hother : ∀ {id}, uuid.read call.artifactId = some id → id ≠ a := by
    rintro id hid rfl
    exact hread hid
  -- the review writes the row of its own artifact and events about it
  cases hstep with
  | unchanged hsame => exact hsame ▸ h
  | moved id found status events hid hget hallowed hbelow hplain hartifacts hmemories hlog =>
    refine ⟨hstored, ⟨artifact, ?_, hstatus, hgeneric⟩, ⟨e, ?_, hrecording⟩⟩
    · rw [hartifacts, Table.get?_rewrite_of_ne _ (hother hid), hfound]
    · rw [hlog, List.filter_append, filter_eq_nil_of_plain hplain, List.append_nil, he]
  | promoted id found row events e' hid hget hgeneric' hallowed hinserted hplain hrecords hpayload
      hartifacts hlog =>
    have hunrecorded : e'.recordsPromotion uuid a = false :=
      recordsPromotion_of_ne hrecords (hother hid)
    refine ⟨hstored, ⟨artifact, ?_, hstatus, hgeneric⟩, ⟨e, ?_, hrecording⟩⟩
    · rw [hartifacts, Table.get?_rewrite_of_ne _ (hother hid), hfound]
    · rw [hlog, List.filter_append, List.filter_append, filter_eq_nil_of_plain hplain,
        List.append_nil, he, List.filter_cons_of_neg (by simp [hunrecorded]), List.filter_nil,
        List.append_nil]

/-- A redaction may rewrite the event, which then still names the memory. -/
theorem redact (h : Promoted uuid s a m) {call : QueueRedaction} (hstored : t.StoredIds uuid)
    (hstep : RedactStep s call t) : Promoted uuid t a m := by
  obtain ⟨artifact, hfound, hstatus, hgeneric⟩ := h.row
  obtain ⟨e, he, hrecording⟩ := h.event
  have hrecords : e.recordsPromotion uuid a = true := by
    have hmem : e ∈ s.events.filter (·.recordsPromotion uuid a) := by simp [he]
    exact (List.mem_filter.mp hmem).2
  have htype : artifact.artifactType ≠ "project_update" := by
    simp only [isProjectUpdateArtifact, Bool.or_eq_false_iff, beq_eq_false_iff_ne] at hgeneric
    exact hgeneric.1
  refine ⟨hstored, ?_, ?_⟩
  · obtain ⟨stamp, hartifacts⟩ := hstep.artifacts
    have hkept : artifact.coupledTo call.memoryId = false := by
      simp [QueueArtifact.coupledTo, htype]
    refine ⟨artifact, ?_, hstatus, hgeneric⟩
    rw [hartifacts, hfound, Option.map_some, if_neg (by simp [hkept])]
  · rw [hstep.filter, he]
    -- a row under the event's text is the artifact itself
    have hrows : ∀ text, uuid.read text = some a →
        ∀ row ∈ s.artifactRows, row.id = text → row.artifactType ≠ "project_update" := by
      intro text hread row hrow hid
      obtain ⟨found, hmem, rfl⟩ := List.mem_map.mp hrow
      have hget := Table.get?_of_mem hmem
      have hid : found.id = text := hid
      rw [hid] at hget
      have hsame : text = a := Option.some.inj ((h.stored _ _ hget).symm.trans hread)
      rw [hsame, hfound] at hget
      rw [← Option.some.inj hget]
      exact htype
    cases hselects : redactionSelects s.artifactRows call.memoryId e with
    | false => exact ⟨e, by simp [sweep, hselects], hrecording⟩
    | true =>
      obtain rfl := hrecording.eq_of_selects hrecords hrows hselects
      exact ⟨e.redacted call.memoryId, by simp [sweep, hselects], .redacted call.memoryId e⟩

/-- Once promoted, always promoted: no call takes the status back, and none adds a
second event that records the promotion. -/
theorem apply (h : Promoted uuid s a m) (call : QueueCall) :
    Promoted uuid (call.apply env digest uuid guard s) a m := by
  have hstored : (call.apply env digest uuid guard s).StoredIds uuid :=
    storedIds_apply h.stored call
  cases call with
  | review call =>
    cases hok : s.reviewArtifact env digest uuid call with
    | error e =>
      have hsame : QueueCall.apply env digest uuid guard s (.review call) = s := by
        simp only [QueueCall.apply, hok]
      exact hsame.symm ▸ h
    | ok result =>
      obtain ⟨reply, t⟩ := result
      have hafter : QueueCall.apply env digest uuid guard s (.review call) = t := by
        simp only [QueueCall.apply, hok]
      rw [hafter] at hstored ⊢
      by_cases hread : uuid.read call.artifactId = some a
      · rw [h.eq_of_review hread (reviewStep_of_ok hok)]
        exact h
      · exact h.review hread hstored (reviewStep_of_ok hok)
  | redact call =>
    -- a redaction keeps the status and the events it may not touch
    cases hok : s.redact env uuid guard call with
    | error e =>
      have hsame : QueueCall.apply env digest uuid guard s (.redact call) = s := by
        simp only [QueueCall.apply, hok]
      exact hsame.symm ▸ h
    | ok t =>
      have hafter : QueueCall.apply env digest uuid guard s (.redact call) = t := by
        simp only [QueueCall.apply, hok]
      rw [hafter] at hstored ⊢
      exact h.redact hstored (redactStep_of_ok hok)

/-- A promoted artifact stays promoted, to the same memory. -/
theorem after (h : Promoted uuid s a m) (calls : List QueueCall) :
    Promoted uuid (s.after env digest uuid guard calls) a m := by
  induction calls generalizing s with
  | nil => exact h
  | cons call calls ih => exact ih (h.apply call)

/-- And no further memory is made of it. -/
theorem createdFrom (h : Promoted uuid s a m) (calls : List QueueCall) :
    s.createdFrom env digest uuid guard a calls = 0 := by
  induction calls generalizing s with
  | nil => rfl
  | cons call calls ih =>
    rw [QueueState.createdFrom, ih (h.apply call), Nat.add_zero]
    cases call with
    | redact call => rfl
    | review call =>
      rw [QueueState.createdBy]
      split
      · next hread =>
        have hsame : QueueCall.apply env digest uuid guard s (.review call) = s := by
          simp only [QueueCall.apply]
          split
          · next reply t hok => exact h.eq_of_review hread (reviewStep_of_ok hok)
          · rfl
        rw [hsame, Nat.sub_self]
      · rfl

end Promoted

/-! ### Before the promotion -/

/-- A call on an artifact that is not yet promoted leaves it so and makes no
memory of it, or promotes it and makes one. -/
theorem notYetPromoted_apply (env : Env) (digest : String → String)
    (guard : List ArtifactRow → EventRow → EventRow → Bool) (hstored : s.StoredIds uuid)
    (h : s.NotYetPromoted uuid a) (call : QueueCall) :
    ((call.apply env digest uuid guard s).NotYetPromoted uuid a ∧
        s.createdBy env digest uuid guard a call = 0) ∨
      (∃ m, Promoted uuid (call.apply env digest uuid guard s) a m) ∧
        s.createdBy env digest uuid guard a call = 1 := by
  have hids : (call.apply env digest uuid guard s).StoredIds uuid := storedIds_apply hstored call
  have hfilter : s.events.filter (·.recordsPromotion uuid a) = [] :=
    List.filter_eq_nil_iff.mpr fun e he => by simp [h.events e he]
  have hrefused : ∀ {t : QueueState}, t = s → t.NotYetPromoted uuid a := fun hsame => hsame ▸ h
  cases call with
  | redact call =>
    -- a redaction rewrites events, and appends none that records a promotion
    refine Or.inl ⟨?_, rfl⟩
    simp only [QueueCall.apply]
    split
    · next t hok =>
      have hstep := redactStep_of_ok hok
      refine ⟨by rw [hstep.statusOf]; exact h.status, fun e he => ?_⟩
      have hnone : t.events.filter (·.recordsPromotion uuid a) = [] := by
        rw [hstep.filter, hfilter]
        rfl
      simpa using List.filter_eq_nil_iff.mp hnone e he
    · exact h
  | review call =>
    cases hok : s.reviewArtifact env digest uuid call with
    | error e =>
      -- a review that raises leaves the state
      have hsame : QueueCall.apply env digest uuid guard s (.review call) = s := by
        simp only [QueueCall.apply, hok]
      refine Or.inl ⟨hrefused hsame, ?_⟩
      rw [QueueState.createdBy, hsame, Nat.sub_self, ite_self]
    | ok result =>
      obtain ⟨reply, t⟩ := result
      have hafter : QueueCall.apply env digest uuid guard s (.review call) = t := by
        simp only [QueueCall.apply, hok]
      rw [hafter] at hids
      rw [QueueState.createdBy, hafter]
      cases reviewStep_of_ok hok with
      | unchanged hsame =>
        exact Or.inl ⟨hrefused hsame, by rw [hsame, Nat.sub_self, ite_self]⟩
      | moved id artifact status events hread hfound hallowed hbelow hplain hartifacts hmemories
          -- a review below a promotion writes another status
          hlog =>
        refine Or.inl ⟨⟨?_, ?_⟩, by rw [hmemories, Nat.sub_self, ite_self]⟩
        · rw [statusOf_rewrite hfound hartifacts]
          split
          · exact fun heq => hbelow (Option.some.inj heq)
          · exact h.status
        · intro e he
          rw [hlog] at he
          rcases List.mem_append.mp he with he | he
          · exact h.events e he
          · exact recordsPromotion_of_plain (hplain e he)
      | promoted id artifact row events e hread hfound hgeneric hallowed hinserted hplain hrecords
          hpayload hartifacts hlog =>
        by_cases hcall : id = a
        · -- This is the promotion.
          subst hcall
          refine Or.inr ⟨⟨call.newMemoryId, hids,
            ⟨(QueueState.statusRewrite "promoted_to_memory").apply artifact, ?_, rfl, ?_⟩,
            ⟨e, ?_, Or.inl hpayload⟩⟩, ?_⟩
          · rw [hartifacts, Table.get?_rewrite_self _ hfound]
          · exact hgeneric
          · rw [hlog, List.filter_append, List.filter_append, hfilter,
              filter_eq_nil_of_plain hplain, List.filter_cons_of_pos hrecords, List.filter_nil,
              List.nil_append, List.nil_append]
          · obtain ⟨-, hrows⟩ := Table.insert?_eq_some_iff.mp hinserted
            rw [if_pos hread, hrows, List.length_append, List.length_singleton]
            omega
        · -- Another artifact is promoted.
          refine Or.inl ⟨⟨?_, ?_⟩, by rw [if_neg (by simp [hread, hcall])]⟩
          · rw [statusOf_rewrite hfound hartifacts, if_neg hcall]
            exact h.status
          · intro e' he'
            rw [hlog] at he'
            rcases List.mem_append.mp he' with he' | he'
            · rcases List.mem_append.mp he' with he' | he'
              · exact h.events e' he'
              · exact recordsPromotion_of_plain (hplain e' he')
            · rw [List.mem_singleton.mp he']
              exact recordsPromotion_of_ne hrecords hcall

/-- Along a whole sequence of calls. -/
theorem notYetPromoted_after (env : Env) (digest : String → String)
    (guard : List ArtifactRow → EventRow → EventRow → Bool) (hstored : s.StoredIds uuid)
    (h : s.NotYetPromoted uuid a) (calls : List QueueCall) :
    ((s.after env digest uuid guard calls).NotYetPromoted uuid a ∧
        s.createdFrom env digest uuid guard a calls = 0) ∨
      (∃ m, Promoted uuid (s.after env digest uuid guard calls) a m) ∧
        s.createdFrom env digest uuid guard a calls = 1 := by
  induction calls generalizing s with
  | nil => exact Or.inl ⟨h, rfl⟩
  | cons call calls ih =>
    rw [QueueState.createdFrom]
    rcases notYetPromoted_apply env digest guard hstored h call with
      ⟨hstill, hcreated⟩ | ⟨⟨m, hpromoted⟩, hcreated⟩
    · rw [hcreated, Nat.zero_add]
      exact ih (storedIds_apply hstored call) hstill
    · rw [hcreated, hpromoted.createdFrom]
      exact Or.inr ⟨⟨m, hpromoted.after calls⟩, rfl⟩

theorem QueueState.NotYetPromoted.promotions (h : s.NotYetPromoted uuid a) :
    s.promotions uuid env a = [] := by
  have hfilter : s.events.filter (·.recordsPromotion uuid a) = [] :=
    List.filter_eq_nil_iff.mpr fun e he => by simp [h.events e he]
  rw [QueueState.promotions, hfilter, List.filterMap_nil]

/-! ### The result -/

/-- From an artifact not yet promoted, whatever is reviewed and redacted, by
whomever and in whatever order, and whatever the trigger on the log admits: a
status moves along the table only; at most one memory is made of the artifact;
its status says promoted exactly when one event names the memory; from then on
the status stays; and a promote call on the artifact returns that memory exactly
if it spells the artifact's id as it was spelled at the promotion. -/
theorem artifact_review_safe (env : Env) (digest : String → String) (uuid : UuidInput)
    (guard : List ArtifactRow → EventRow → EventRow → Bool) {s : QueueState} {a : String}
    (hstored : s.StoredIds uuid) (h : s.NotYetPromoted uuid a) (calls : List QueueCall) :
    (∀ call : QueueCall, MovesAlong ((s.after env digest uuid guard calls).statusOf a)
        ((call.apply env digest uuid guard (s.after env digest uuid guard calls)).statusOf a)) ∧
      s.createdFrom env digest uuid guard a calls ≤ 1 ∧
      ((s.after env digest uuid guard calls).statusOf a = some "promoted_to_memory" ↔
        ((s.after env digest uuid guard calls).promotions uuid env a).length = 1) ∧
      ((s.after env digest uuid guard calls).promotions uuid env a).length ≤ 1 ∧
      ∀ m ∈ (s.after env digest uuid guard calls).promotions uuid env a,
        ∀ later : List QueueCall,
          (s.after env digest uuid guard (calls ++ later)).statusOf a =
              some "promoted_to_memory" ∧
            ∀ call : ReviewCall, uuid.read call.artifactId = some a → call.action = "promote" →
              ((∃ artifact,
                (s.after env digest uuid guard (calls ++ later)).reviewArtifact env digest uuid call
                  = .ok ({ artifact := artifact, promotedMemoryId := some m },
                    s.after env digest uuid guard (calls ++ later))) ↔
              (s.after env digest uuid guard (calls ++ later)).PromotedUnder uuid a
                call.artifactId) := by
  refine ⟨fun call => movesAlong_apply _ call a, ?_⟩
  -- either nothing has been promoted yet, or one memory was
  rcases notYetPromoted_after env digest guard hstored h calls with
    ⟨hstill, hcreated⟩ | ⟨⟨m, hpromoted⟩, hcreated⟩
  · refine ⟨by omega, ?_, by simp [hstill.promotions], by simp [hstill.promotions]⟩
    rw [hstill.promotions]
    exact ⟨fun hstatus => absurd hstatus hstill.status, fun hlength => by simp at hlength⟩
  · refine ⟨by omega, ?_, by simp [hpromoted.promotions], ?_⟩
    · rw [hpromoted.promotions, hpromoted.statusOf]
      simp
    · intro m' hm' later
      rw [hpromoted.promotions, List.mem_singleton] at hm'
      subst hm'
      have hlater : Promoted uuid (s.after env digest uuid guard (calls ++ later)) a m' := by
        rw [QueueState.after, List.foldl_append]
        exact hpromoted.after later
      exact ⟨hlater.statusOf, fun call hread haction => hlater.replay_iff hread haction⟩

/-- A draft, and nothing else. -/
def draftState : QueueState where
  artifacts :=
    ⟨[{ id := "a3c1b2d4-5e6f-4a7b-8c9d-0e1f2a3b4c5d"
        artifactType := "daily_brief"
        status := "draft"
        contentMarkdown := "Ship on Friday."
        domain := some "project"
        sensitivity := some "internal" }], List.nodup_singleton _⟩
  memories := default

/-- A promotion of the draft, under a spelling of its id. -/
def draftPromotion (spelling : String) : ReviewCall where
  artifactId := spelling
  action := "promote"
  header := { id := "e1", userId := "u1", actorType := "user", occurredAt := "t1" }
  newMemoryId := "0d9e2f64-7a51-4c8b-9b1e-5f2a6c3d4e10"
  now := noon

/-- The redaction of the memory it makes. -/
def draftRedaction : QueueRedaction where
  memoryId := "0d9e2f64-7a51-4c8b-9b1e-5f2a6c3d4e10"
  header := { id := "e2", userId := "u1", actorType := "user", occurredAt := "t2" }
  now := noon

/-- The state after the promotion and the redaction, under a trigger that admits
every rewrite, so that the redaction goes through. -/
def redactedDraft (spelling : String) : QueueState :=
  draftState.after .plain id .hyphenated (fun _ _ _ => true)
    [.review (draftPromotion spelling), .redact draftRedaction]

theorem storedIds_draftState : draftState.StoredIds .hyphenated := by
  intro id artifact hfound
  have hid : artifact.id = id := Table.key_of_get? hfound
  rw [← hid, List.mem_singleton.mp (Table.mem_of_get? hfound)]
  decide +kernel

theorem notYetPromoted_draftState :
    draftState.NotYetPromoted .hyphenated "a3c1b2d4-5e6f-4a7b-8c9d-0e1f2a3b4c5d" :=
  ⟨by decide +kernel, fun e he => absurd he List.not_mem_nil⟩

/-- Promoted under the spelling stored, the draft answers with its memory under
that spelling and not under the one in upper case. -/
theorem artifact_review_safe_draft :
    (∃ artifact, (redactedDraft "a3c1b2d4-5e6f-4a7b-8c9d-0e1f2a3b4c5d").reviewArtifact .plain id
        .hyphenated (draftPromotion "a3c1b2d4-5e6f-4a7b-8c9d-0e1f2a3b4c5d") =
      .ok ({ artifact := artifact
             promotedMemoryId := some "0d9e2f64-7a51-4c8b-9b1e-5f2a6c3d4e10" },
        redactedDraft "a3c1b2d4-5e6f-4a7b-8c9d-0e1f2a3b4c5d")) ∧
    ¬ ∃ artifact, (redactedDraft "a3c1b2d4-5e6f-4a7b-8c9d-0e1f2a3b4c5d").reviewArtifact .plain id
        .hyphenated (draftPromotion "A3C1B2D4-5E6F-4A7B-8C9D-0E1F2A3B4C5D") =
      .ok ({ artifact := artifact
             promotedMemoryId := some "0d9e2f64-7a51-4c8b-9b1e-5f2a6c3d4e10" },
        redactedDraft "a3c1b2d4-5e6f-4a7b-8c9d-0e1f2a3b4c5d") := by
  obtain ⟨-, -, -, -, hreplay⟩ := artifact_review_safe .plain id .hyphenated (fun _ _ _ => true)
    storedIds_draftState notYetPromoted_draftState
    [.review (draftPromotion "a3c1b2d4-5e6f-4a7b-8c9d-0e1f2a3b4c5d"), .redact draftRedaction]
  have hmem : "0d9e2f64-7a51-4c8b-9b1e-5f2a6c3d4e10" ∈
      (redactedDraft "a3c1b2d4-5e6f-4a7b-8c9d-0e1f2a3b4c5d").promotions .hyphenated .plain
        "a3c1b2d4-5e6f-4a7b-8c9d-0e1f2a3b4c5d" := by
    decide +kernel
  obtain ⟨-, hanswer⟩ := hreplay _ hmem []
  have htargets : (redactedDraft "a3c1b2d4-5e6f-4a7b-8c9d-0e1f2a3b4c5d").events.all (fun e =>
      !e.recordsPromotion .hyphenated "a3c1b2d4-5e6f-4a7b-8c9d-0e1f2a3b4c5d"
        || e.targetId == some "a3c1b2d4-5e6f-4a7b-8c9d-0e1f2a3b4c5d") = true ∧
      (redactedDraft "a3c1b2d4-5e6f-4a7b-8c9d-0e1f2a3b4c5d").events.any (fun e =>
        e.recordsPromotion .hyphenated "a3c1b2d4-5e6f-4a7b-8c9d-0e1f2a3b4c5d") = true := by
    decide +kernel
  have hunder : (redactedDraft "a3c1b2d4-5e6f-4a7b-8c9d-0e1f2a3b4c5d").PromotedUnder .hyphenated
      "a3c1b2d4-5e6f-4a7b-8c9d-0e1f2a3b4c5d" "a3c1b2d4-5e6f-4a7b-8c9d-0e1f2a3b4c5d" := by
    intro e he hrecords
    simpa [hrecords] using List.all_eq_true.mp htargets.1 e he
  refine ⟨(hanswer (draftPromotion _) (by decide +kernel) rfl).mpr hunder, ?_⟩
  intro hok
  have hupper := (hanswer (draftPromotion _) (by decide +kernel) rfl).mp hok
  obtain ⟨e, he, hrecords⟩ := List.any_eq_true.mp htargets.2
  exact absurd ((hunder e he hrecords).symm.trans (hupper e he hrecords)) (by decide +kernel)

/-- A promote call is not always answered with the memory: the draft is promoted
under its id in upper case, and then asked for under the spelling stored. -/
theorem promotion_lost_under_other_spelling :
    ¬ ∀ (s : QueueState) (a : String), s.StoredIds .hyphenated → s.NotYetPromoted .hyphenated a →
      ∀ (calls : List QueueCall) (call : ReviewCall),
        UuidInput.hyphenated.read call.artifactId = some a → call.action = "promote" →
        ∀ m ∈ (s.after .plain id .hyphenated (fun _ _ _ => true) calls).promotions .hyphenated
            .plain a,
          ∃ reply t, (s.after .plain id .hyphenated (fun _ _ _ => true) calls).reviewArtifact
              .plain id .hyphenated call = .ok (reply, t) ∧ reply.promotedMemoryId = some m := by
  intro hall
  let calls : List QueueCall := [.review (draftPromotion "A3C1B2D4-5E6F-4A7B-8C9D-0E1F2A3B4C5D")]
  have hmem : "0d9e2f64-7a51-4c8b-9b1e-5f2a6c3d4e10" ∈
      (draftState.after .plain id .hyphenated (fun _ _ _ => true) calls).promotions .hyphenated
        .plain "a3c1b2d4-5e6f-4a7b-8c9d-0e1f2a3b4c5d" := by
    decide +kernel
  have hread : UuidInput.hyphenated.read
      (draftPromotion "a3c1b2d4-5e6f-4a7b-8c9d-0e1f2a3b4c5d").artifactId =
        some "a3c1b2d4-5e6f-4a7b-8c9d-0e1f2a3b4c5d" := by
    decide +kernel
  obtain ⟨reply, t, hok, -⟩ := hall draftState _ storedIds_draftState notYetPromoted_draftState
    calls _ hread rfl _ hmem
  rcases notYetPromoted_after .plain id (fun _ _ _ => true) storedIds_draftState
      notYetPromoted_draftState calls with ⟨hstill, -⟩ | ⟨⟨m, hpromoted⟩, -⟩
  · rw [hstill.promotions] at hmem
    cases hmem
  · rcases hpromoted.replay .plain id hread rfl with ⟨hunder, -⟩ | ⟨-, herror⟩
    · -- the event of the promotion is logged in upper case
      have hupper : (draftState.after .plain id .hyphenated (fun _ _ _ => true) calls).events.any
          (fun e => e.recordsPromotion .hyphenated "a3c1b2d4-5e6f-4a7b-8c9d-0e1f2a3b4c5d" &&
            e.targetId != some "a3c1b2d4-5e6f-4a7b-8c9d-0e1f2a3b4c5d") = true := by
        decide +kernel
      obtain ⟨e, he, hrespelled⟩ := List.any_eq_true.mp hupper
      obtain ⟨hrecords, htarget⟩ := Bool.and_eq_true_iff.mp hrespelled
      exact absurd (hunder e he hrecords) (by simpa [draftPromotion] using htarget)
    · rw [herror] at hok
      cases hok

end AliceBot
