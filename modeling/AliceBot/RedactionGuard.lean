import Mathlib.Data.List.TakeWhile
import AliceBot.Library.Json
import AliceBot.Library.Text

/-!
# Redaction against the append-only event log

Redacting a memory rewrites every event that carries it
(`redact_memory_bundle`), and the event log admits no rewrite but this one
(`app.reject_event_log_mutation`). The two conditions were written apart.

* The selector is a disjunction: an event is rewritten when *some* linkage of
  it leads to the memory.
* The guard is a conjunction: a rewrite is admitted when *every* linkage of it
  leads to the memory.

`EventRow.links` lists the linkages of an event, `redactionSelects_iff` and
`guardAdmits_redacted_iff` put both conditions into these terms. They part
company on the events with two linkages that disagree.
-/

namespace AliceBot

open PyLib

/-! ### Ids -/

/-- `btrim(value)`: spaces only. -/
def btrim (s : String) : String :=
  String.ofList (((s.toList.dropWhile (· == ' ')).reverse.dropWhile (· == ' ')).reverse)

theorem btrim_ne_empty {s : String} {c : Char} (hc : c ∈ s.toList) (hspace : c ≠ ' ') :
    btrim s ≠ "" := by
  have hkept : ∀ l : List Char, c ∈ l → c ∈ l.dropWhile (· == ' ') := by
    intro l hl
    rw [← List.takeWhile_append_dropWhile (p := (· == ' ')) (l := l), List.mem_append] at hl
    rcases hl with hl | hl
    · exact absurd (List.mem_takeWhile_imp hl) (by simpa using hspace)
    · exact hl
  intro hempty
  have hmem : c ∈ (btrim s).toList := by
    rw [btrim, String.toList_ofList, List.mem_reverse]
    exact hkept _ (List.mem_reverse.mpr (hkept _ (by simpa using hc)))
  rw [hempty] at hmem
  exact absurd hmem (by simp)

/-- PostgreSQL's `::uuid`: the texts it reads and, for each, the text the
database gives back. Upper case, braces and left out hyphens are all read, so
one row has many spellings. -/
structure UuidInput where
  read : String → Option String
  nonblank : ∀ {text id : String}, read text = some id → btrim text ≠ ""

/-- A UUID as the database gives it back: eight, four, four, four and twelve
digits, in lower case. -/
def isStoredUuid (cs : List Char) : Bool :=
  cs.length == 36 && cs.zipIdx.all fun p =>
    if [8, 13, 18, 23].contains p.2 then p.1 == '-'
    else "0123456789abcdef".toList.contains p.1

theorem mem_of_isStoredUuid {cs : List Char} (h : isStoredUuid cs = true) {c : Char}
    (hc : c ∈ cs) : c ∈ "-0123456789abcdef".toList := by
  simp only [isStoredUuid, Bool.and_eq_true, List.all_eq_true] at h
  obtain ⟨i, hi, rfl⟩ := List.mem_iff_getElem.mp hc
  have hat := h.2 (cs[i], i) (by simp [List.mem_zipIdx_iff_getElem?, hi])
  dsimp only at hat
  split at hat
  · rw [eq_of_beq hat]
    decide
  · have hdigit : cs[i] ∈ "0123456789abcdef".toList := by simpa using hat
    exact List.mem_cons_of_mem _ hdigit

/-- The hyphenated form in either case is read. -/
def UuidInput.hyphenated : UuidInput where
  read text :=
    if isStoredUuid (text.toList.map Char.toLower) then
      some (String.ofList (text.toList.map Char.toLower))
    else none
  nonblank := by
    intro text id h
    split at h
    · next hstored =>
      have hlength : text.toList.length = 36 := by
        simp only [isStoredUuid, Bool.and_eq_true, beq_iff_eq, List.length_map] at hstored
        exact hstored.1
      obtain ⟨c, hc⟩ := List.exists_mem_of_length_pos (l := text.toList) (by omega)
      have hstoredChar := mem_of_isStoredUuid hstored (List.mem_map_of_mem hc)
      refine btrim_ne_empty hc ?_
      rintro rfl
      exact absurd hstoredChar (by decide)
    · cases h

/-! ### Rows -/

/-- The columns of a row of `event_log`. -/
structure EventRow where
  id : String
  userId : String
  eventType : String
  actorType : String
  actorId : Option String
  targetType : Option String
  targetId : Option String
  occurredAt : String
  payloadJson : Dict Json
  traceId : Option String
  runId : Option String
  integrityHash : Option String

/-- The columns of a row of `generated_artifacts` that redaction, review and
promotion read, the members of `metadata_json` included. -/
structure ArtifactRow where
  id : String
  artifactType : String
  status : String
  contentMarkdown : String
  workflow : Option String := none
  candidateMemoryId : Option String := none
  reviewAction : Option String := none

namespace EventRow

/-- `payload_memory_id`, the generated column. -/
def payloadMemoryId (e : EventRow) : Option String := e.payloadJson.getStr? "memory_id"

/-- `payload_candidate_memory_id`, the generated column. -/
def payloadCandidateMemoryId (e : EventRow) : Option String :=
  e.payloadJson.getStr? "candidate_memory_id"

/-- `payload_artifact_id`, the generated column. -/
def payloadArtifactId (e : EventRow) : Option String := e.payloadJson.getStr? "artifact_id"

end EventRow

/-! ### The selector and the guard -/

/-- The artifact is a project update whose candidate is the memory. -/
def couples (artifacts : List ArtifactRow) (artifactId memoryId : String) : Bool :=
  artifacts.any fun a =>
    a.id == artifactId && a.artifactType == "project_update"
      && a.candidateMemoryId == some memoryId

/-- `lock_project_update_artifacts_for_redaction`: the ids handed to the
redaction. -/
def projectUpdateArtifactIds (artifacts : List ArtifactRow) (memoryId : String) : List String :=
  (artifacts.filter fun a =>
    a.artifactType == "project_update" && a.candidateMemoryId == some memoryId).map (·.id)

/-- `jsonb_build_object('redacted', true, 'memory_id', …, 'event_type', …)`. -/
def redactedPayload (memoryId eventType : String) : Dict Json :=
  [("redacted", .bool true), ("memory_id", .str memoryId), ("event_type", .str eventType)]

/-- The payload equals the redacted one, as objects. -/
def isRedactedPayload (payload : Dict Json) (memoryId eventType : String) : Bool :=
  payload.length == 3
    && (match payload.item "redacted" with
      | .bool b => b
      | _ => false)
    && payload.getStr? "memory_id" == some memoryId
    && payload.getStr? "event_type" == some eventType

/-- The `WHERE` clause of the event update in `redact_memory_bundle`. -/
def redactionSelects (artifacts : List ArtifactRow) (memoryId : String) (e : EventRow) : Bool :=
  let artifactIds := projectUpdateArtifactIds artifacts memoryId
  ((e.targetType == some "memory" && e.targetId == some memoryId)
    || (e.targetType == some "artifact" && artifactIds.any (e.targetId == some ·))
    || artifactIds.any (e.payloadArtifactId == some ·)
    || e.payloadCandidateMemoryId == some memoryId
    || e.payloadMemoryId == some memoryId)
  && (!isRedactedPayload e.payloadJson memoryId e.eventType || e.integrityHash.isSome)

/-- The `SET` clause of that update. -/
def EventRow.redacted (e : EventRow) (memoryId : String) : EventRow :=
  { e with payloadJson := redactedPayload memoryId e.eventType, integrityHash := none }

/-- `app.reject_event_log_mutation` on an update: whether the new row is let
through. -/
def guardAdmits (artifacts : List ArtifactRow) (redactionInProgress : Bool)
    (old new : EventRow) : Bool :=
  redactionInProgress
    && old.id == new.id && old.userId == new.userId && old.eventType == new.eventType
    && old.actorType == new.actorType && old.actorId == new.actorId
    && old.targetType == new.targetType && old.targetId == new.targetId
    && old.occurredAt == new.occurredAt && old.traceId == new.traceId && old.runId == new.runId
    && new.integrityHash == none
    && (match new.payloadJson.getStr? "memory_id" with
      | none => false
      | some memoryId =>
        isRedactedPayload new.payloadJson memoryId new.eventType
        && btrim memoryId != ""
        && (old.targetType != some "memory" || old.targetId == some memoryId)
        -- `IS NULL OR …` on each generated column
        && old.payloadMemoryId.all (· == memoryId)
        && old.payloadCandidateMemoryId.all (· == memoryId)
        && (old.targetType != some "artifact"
          || old.targetId.any (couples artifacts · memoryId))
        && old.payloadArtifactId.all (couples artifacts · memoryId)
        && (old.targetType == some "memory" || old.targetType == some "artifact"
          || old.payloadMemoryId.isSome || old.payloadCandidateMemoryId.isSome
          || old.payloadArtifactId.isSome))

/-! ### Linkages -/

/-- One linkage of an event. A target of type `memory` or `artifact` without
an id leads nowhere. -/
inductive Link where
  | memory (id : Option String)
  | artifact (id : Option String)
deriving DecidableEq

/-- The linkage leads to the memory. -/
def Link.resolves (artifacts : List ArtifactRow) (memoryId : String) : Link → Bool
  | .memory id => id == some memoryId
  | .artifact id => id.any (couples artifacts · memoryId)

/-- The linkages of an event: its target, then the members of its payload. -/
def EventRow.links (e : EventRow) : List Link :=
  (if e.targetType = some "memory" then [.memory e.targetId] else [])
    ++ (if e.targetType = some "artifact" then [.artifact e.targetId] else [])
    ++ (e.payloadArtifactId.toList.map fun a => .artifact (some a))
    ++ (e.payloadCandidateMemoryId.toList.map fun m => .memory (some m))
    ++ e.payloadMemoryId.toList.map fun m => .memory (some m)

theorem couples_iff {artifacts : List ArtifactRow} {a m : String} :
    couples artifacts a m = true ↔ a ∈ projectUpdateArtifactIds artifacts m := by
  simp only [couples, projectUpdateArtifactIds, List.any_eq_true, List.mem_map, List.mem_filter,
    Bool.and_eq_true, beq_iff_eq]
  constructor
  · rintro ⟨row, hrow, ⟨rfl, htype⟩, hcandidate⟩
    exact ⟨row, ⟨hrow, htype, hcandidate⟩, rfl⟩
  · rintro ⟨row, ⟨hrow, htype, hcandidate⟩, rfl⟩
    exact ⟨row, hrow, ⟨rfl, htype⟩, hcandidate⟩

theorem any_projectUpdateArtifactIds {artifacts : List ArtifactRow} {m : String}
    (id : Option String) :
    ((projectUpdateArtifactIds artifacts m).any (id == some ·)) =
      id.any (couples artifacts · m) := by
  cases id with
  | none => simp
  | some a =>
    have h : couples artifacts a m = true ↔ a ∈ projectUpdateArtifactIds artifacts m := couples_iff
    rw [Bool.eq_iff_iff]
    simp [h]

/-- The selector asks for some linkage that leads to the memory, and for
something left to scrub. -/
theorem redactionSelects_iff {artifacts : List ArtifactRow} {m : String} {e : EventRow} :
    redactionSelects artifacts m e = true ↔
      (∃ l ∈ e.links, l.resolves artifacts m = true) ∧
        (isRedactedPayload e.payloadJson m e.eventType = false ∨
          e.integrityHash.isSome = true) := by
  -- the five places a linkage can stand in
  have hlinks : (∃ l ∈ e.links, l.resolves artifacts m = true) ↔
      ((e.targetType = some "memory" ∧ e.targetId = some m) ∨
        (e.targetType = some "artifact" ∧ e.targetId.any (couples artifacts · m) = true) ∨
        e.payloadArtifactId.any (couples artifacts · m) = true ∨
        e.payloadCandidateMemoryId = some m ∨ e.payloadMemoryId = some m) := by
    simp only [EventRow.links, List.mem_append, or_and_right, exists_or, or_assoc]
    refine or_congr ?_ (or_congr ?_ (or_congr ?_ (or_congr ?_ ?_)))
    · by_cases h : e.targetType = some "memory" <;> simp [h, Link.resolves]
    · by_cases h : e.targetType = some "artifact" <;> simp [h, Link.resolves]
    · cases e.payloadArtifactId <;> simp [Link.resolves]
    · cases e.payloadCandidateMemoryId <;> simp [Link.resolves]
    · cases e.payloadMemoryId <;> simp [Link.resolves]
  rw [hlinks]
  simp only [redactionSelects, any_projectUpdateArtifactIds, Bool.and_eq_true, Bool.or_eq_true,
    beq_iff_eq, Bool.not_eq_true', or_assoc]

@[simp] theorem isRedactedPayload_redactedPayload (m t : String) :
    isRedactedPayload (redactedPayload m t) m t = true := by
  simp [isRedactedPayload, redactedPayload, Dict.item, Dict.getStr?, Dict.get?_cons]

/-- The guard asks of a redaction that every linkage leads to the memory, and
that there is one. -/
theorem guardAdmits_redacted_iff {artifacts : List ArtifactRow} {m : String} {e : EventRow} :
    guardAdmits artifacts true e (e.redacted m) = true ↔
      btrim m ≠ "" ∧ e.links ≠ [] ∧ ∀ l ∈ e.links, l.resolves artifacts m = true := by
  have hpayload : (e.redacted m).payloadJson.getStr? "memory_id" = some m := by
    simp [EventRow.redacted, redactedPayload, Dict.getStr?, Dict.get?_cons]
  have hskeleton : isRedactedPayload (e.redacted m).payloadJson m (e.redacted m).eventType = true :=
    isRedactedPayload_redactedPayload m e.eventType
  -- the linkages one by one, in the order the trigger looks at them
  have hall : (∀ l ∈ e.links, l.resolves artifacts m = true) ↔
      (e.targetType = some "memory" → e.targetId = some m) ∧
        (e.targetType = some "artifact" → e.targetId.any (couples artifacts · m) = true) ∧
        (∀ a, e.payloadArtifactId = some a → couples artifacts a m = true) ∧
        (∀ x, e.payloadCandidateMemoryId = some x → x = m) ∧
        (∀ x, e.payloadMemoryId = some x → x = m) := by
    simp only [EventRow.links, List.mem_append, or_imp, forall_and, and_assoc]
    refine and_congr ?_ (and_congr ?_ (and_congr ?_ (and_congr ?_ ?_)))
    · by_cases h : e.targetType = some "memory" <;> simp [h, Link.resolves]
    · by_cases h : e.targetType = some "artifact" <;> simp [h, Link.resolves]
    · cases e.payloadArtifactId <;> simp [Link.resolves]
    · cases e.payloadCandidateMemoryId <;> simp [Link.resolves]
    · cases e.payloadMemoryId <;> simp [Link.resolves]
  have hsome : e.links ≠ [] ↔
      e.targetType = some "memory" ∨ e.targetType = some "artifact" ∨
        e.payloadMemoryId.isSome = true ∨ e.payloadCandidateMemoryId.isSome = true ∨
        e.payloadArtifactId.isSome = true := by
    simp only [EventRow.links, ne_eq, List.append_eq_nil_iff, not_and_or, List.map_eq_nil_iff,
      Option.toList_eq_nil_iff, ← Option.isSome_iff_ne_none, ite_eq_right_iff, reduceCtorEq,
      imp_false, not_not, or_assoc, or_left_comm, or_comm]
  rw [hall, hsome]
  simp only [guardAdmits, hpayload, hskeleton]
  simp only [EventRow.redacted, beq_self_eq_true, Bool.true_and, Bool.and_eq_true, Bool.or_eq_true,
    beq_iff_eq, bne_iff_ne, Option.all_eq_true, ne_eq, imp_iff_not_or, or_assoc]
  constructor
  · rintro ⟨⟨⟨⟨⟨⟨hid, htarget⟩, hmemory⟩, hcandidate⟩, hartifact⟩, hpayload⟩, hlinked⟩
    exact ⟨hid, hlinked, htarget, hartifact, hpayload, hcandidate, hmemory⟩
  · rintro ⟨hid, hlinked, htarget, hartifact, hpayload, hcandidate, hmemory⟩
    exact ⟨⟨⟨⟨⟨⟨hid, htarget⟩, hmemory⟩, hcandidate⟩, hartifact⟩, hpayload⟩, hlinked⟩

end AliceBot
