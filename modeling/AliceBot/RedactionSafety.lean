import Mathlib.Data.List.Nodup
import AliceBot.EventWriters

/-!
# When a redaction is refused

The guard of the event log refuses a redaction when an event the redaction
selects has a linkage that leads elsewhere. Two kinds of events matter.

* `Settled` — all linkages of the event are one linkage, or they are an
  artifact and the memory it is coupled to. Such an event is safe to redact
  from, now and after any further call.
* `Conflicting` — the event names a memory next to an artifact text that is
  `Uncoupled`: the id of an artifact made without a memory, or a text that is
  not the stored spelling of an id. Redacting that memory is refused for good:
  the coupling of an artifact is fixed when its row is inserted, no row will
  ever be stored under another spelling, and the refusal itself keeps the event
  from being scrubbed.

`LogStep` says once what a call can do to the log. `LogInv` carries it through
a run: without a conflicting call every event is settled, with one there is
a conflicting event. `redactionNeverRefused_iff` reads off it that a log is
safe exactly when none of the conflicting calls was made.
-/

namespace AliceBot

open PyLib

/-! ### Linkages of the events written -/

theorem getStr?_setOptional (d : Dict Json) (key other : String) (value : Option String) :
    (setOptional d key value).getStr? other =
      if key = other then value.or (d.getStr? other) else d.getStr? other := by
  cases value with
  | none => simp [setOptional]
  | some v => simp [setOptional, Dict.getStr?_set]

/-- The linkages of an event written: its target, then what the payload names. -/
theorem links_event (h : EventHeader) (eventType : String) (target : Option (String × String))
    (payload : PlainPayload) (artifact candidate memory : Option String) :
    (h.event eventType target payload artifact candidate memory).links =
      (if target.map (·.1) = some "memory" then [.memory (target.map (·.2))] else [])
        ++ (if target.map (·.1) = some "artifact" then [.artifact (target.map (·.2))] else [])
        ++ (artifact.toList.map fun a => .artifact (some a))
        ++ (candidate.toList.map fun m => .memory (some m))
        ++ memory.toList.map fun m => .memory (some m) := by
  have hartifact := payload.plain "artifact_id" (by simp [linkageKeys])
  have hcandidate := payload.plain "candidate_memory_id" (by simp [linkageKeys])
  have hmemory := payload.plain "memory_id" (by simp [linkageKeys])
  -- the payload of a caller names no linkage, so the header alone does
  have hpayload : ∀ e : EventRow, e = h.event eventType target payload artifact candidate memory →
      e.payloadArtifactId = artifact ∧ e.payloadCandidateMemoryId = candidate ∧
        e.payloadMemoryId = memory := by
    rintro e rfl
    simp [EventHeader.event, EventRow.payloadArtifactId, EventRow.payloadCandidateMemoryId,
      EventRow.payloadMemoryId, getStr?_setOptional, hartifact, hcandidate, hmemory]
  obtain ⟨h₁, h₂, h₃⟩ := hpayload _ rfl
  rw [EventRow.links, h₁, h₂, h₃]
  rfl

theorem links_onMemory (h : EventHeader) (eventType memoryId : String)
    (payload : PlainPayload) :
    (h.onMemory eventType memoryId payload).links = [.memory (some memoryId)] := by
  simp [EventHeader.onMemory, links_event]

theorem mem_links_onArtifact {h : EventHeader} {eventType artifactId : String}
    {payload : PlainPayload} {named : Bool} {l : Link}
    (hl : l ∈ (h.onArtifact eventType artifactId payload named).links) :
    l = .artifact (some artifactId) := by
  cases named <;> simpa [EventHeader.onArtifact, links_event] using hl

/-! ### Couplings -/

/-- The id of an artifact and the memory it is the project update of. -/
def ArtifactRow.coupling (a : ArtifactRow) : String × Option String :=
  (a.id, if a.artifactType == "project_update" then a.candidateMemoryId else none)

/-- The couplings of the artifact table. -/
def couplings (artifacts : List ArtifactRow) : List (String × Option String) :=
  artifacts.map ArtifactRow.coupling

theorem couples_iff_mem {artifacts : List ArtifactRow} {a m : String} :
    couples artifacts a m = true ↔ (a, some m) ∈ couplings artifacts := by
  simp only [couples, couplings, List.any_eq_true, List.mem_map, Bool.and_eq_true, beq_iff_eq,
    ArtifactRow.coupling, Prod.mk.injEq]
  constructor
  · rintro ⟨row, hrow, ⟨rfl, htype⟩, hcandidate⟩
    refine ⟨row, hrow, rfl, ?_⟩
    rw [if_pos htype, hcandidate]
  · rintro ⟨row, hrow, rfl, hcandidate⟩
    split at hcandidate
    · next htype => exact ⟨row, hrow, ⟨rfl, htype⟩, hcandidate⟩
    · exact absurd hcandidate (by simp)

/-- The ids of the artifact table are unique, and each is the text the database
gives back. -/
structure Keyed (uuid : UuidInput) (artifacts : List ArtifactRow) : Prop where
  unique : ((couplings artifacts).map (·.1)).Nodup
  stored : ∀ c ∈ couplings artifacts, uuid.read c.1 = some c.1

/-- An artifact has one coupling. -/
theorem Keyed.coupling_unique {uuid : UuidInput} {artifacts : List ArtifactRow}
    (h : Keyed uuid artifacts) {a : String} {x y : Option String}
    (hx : (a, x) ∈ couplings artifacts) (hy : (a, y) ∈ couplings artifacts) : x = y := by
  have hsame := List.inj_on_of_nodup_map h.unique hx hy rfl
  exact (Prod.mk.inj hsame).2

theorem ids_couplings (artifacts : List ArtifactRow) :
    (couplings artifacts).map (·.1) = artifacts.map (·.id) := by
  rw [couplings, List.map_map]
  rfl

/-! ### Settled and conflicting events -/

/-- The linkages of the event are one, or an artifact and its memory. -/
def Settled (artifacts : List ArtifactRow) (e : EventRow) : Prop :=
  (∃ l, ∀ l' ∈ e.links, l' = l) ∨
    ∃ a m, (a, some m) ∈ couplings artifacts ∧
      ∀ l ∈ e.links, l = .artifact (some a) ∨ l = .memory (some m)

/-- The artifact text leads to no memory: it is the id of an artifact made
without one, or not the stored spelling of any id. -/
def Uncoupled (uuid : UuidInput) (artifacts : List ArtifactRow) (a : String) : Prop :=
  (a, none) ∈ couplings artifacts ∨ uuid.read a ≠ some a

/-- The event names a memory of the table next to an artifact text that leads
to none. -/
def Conflicting (uuid : UuidInput) (s : LogState) (e : EventRow) : Prop :=
  ∃ a memoryId, (s.memory? uuid memoryId).isSome = true ∧ Uncoupled uuid s.artifacts a ∧
    Link.artifact (some a) ∈ e.links ∧ Link.memory (some memoryId) ∈ e.links ∧
    isRedactedPayload e.payloadJson memoryId e.eventType = false

section Kept

variable {uuid : UuidInput} {artifacts : List ArtifactRow} {s t : LogState} {e : EventRow}

theorem memory?_isSome_iff {memoryId : String} :
    (s.memory? uuid memoryId).isSome = true ↔
      ∃ id, uuid.read memoryId = some id ∧ id ∈ s.memories := by
  unfold LogState.memory?
  cases uuid.read memoryId with
  | none => simp
  | some id => simp [List.find?_isSome]

/-- Whatever keeps the couplings keeps a text uncoupled. -/
theorem Uncoupled.mono {rows : List ArtifactRow} {a : String}
    (hsub : couplings artifacts ⊆ couplings rows) (h : Uncoupled uuid artifacts a) :
    Uncoupled uuid rows a :=
  h.imp (fun hnone => hsub hnone) id

theorem Uncoupled.not_couples (hkeyed : Keyed uuid artifacts) {a m : String}
    (h : Uncoupled uuid artifacts a) : ¬ couples artifacts a m = true := by
  intro hcouples
  have hcoupled := couples_iff_mem.mp hcouples
  rcases h with hnone | hspelling
  · -- the artifact would have two couplings
    exact absurd (hkeyed.coupling_unique hnone hcoupled) (by simp)
  · -- the text would be the id of a row
    exact hspelling (hkeyed.stored _ hcoupled)

theorem Settled.mono {rows : List ArtifactRow} (hsub : couplings artifacts ⊆ couplings rows)
    (h : Settled artifacts e) : Settled rows e := by
  rcases h with hone | ⟨a, m, hcoupled, hlinks⟩
  · exact .inl hone
  · exact .inr ⟨a, m, hsub hcoupled, hlinks⟩

theorem Conflicting.mono (hmem : s.memories ⊆ t.memories)
    (hsub : couplings s.artifacts ⊆ couplings t.artifacts) (h : Conflicting uuid s e) :
    Conflicting uuid t e := by
  obtain ⟨a, memoryId, hmemory, huncoupled, hlinks⟩ := h
  obtain ⟨id, hread, hid⟩ := memory?_isSome_iff.mp hmemory
  exact ⟨a, memoryId, memory?_isSome_iff.mpr ⟨id, hread, hmem hid⟩, huncoupled.mono hsub, hlinks⟩

/-- A redaction that selects a settled event is admitted on it. -/
theorem Settled.admitted {memoryId : String} (hblank : btrim memoryId ≠ "")
    (hkeyed : Keyed uuid artifacts) (hsettled : Settled artifacts e)
    (hselected : redactionSelects artifacts memoryId e = true) :
    guardAdmits artifacts true e (e.redacted memoryId) = true := by
  obtain ⟨⟨l, hl, hresolves⟩, -⟩ := redactionSelects_iff.mp hselected
  rw [guardAdmits_redacted_iff]
  refine ⟨hblank, List.ne_nil_of_mem hl, ?_⟩
  intro l' hl'
  rcases hsettled with ⟨l₀, hone⟩ | ⟨a, m, hcoupled, hlinks⟩
  · rw [hone l' hl', ← hone l hl]
    exact hresolves
  · -- either way the memory redacted is the one the artifact is coupled to
    have hm : m = memoryId := by
      rcases hlinks l hl with rfl | rfl
      · have hcouples : (a, some memoryId) ∈ couplings artifacts :=
          couples_iff_mem.mp (by simpa [Link.resolves] using hresolves)
        exact Option.some.inj (hkeyed.coupling_unique hcoupled hcouples)
      · simpa [Link.resolves] using hresolves
    subst hm
    rcases hlinks l' hl' with rfl | rfl
    · show couples artifacts a m = true
      exact couples_iff_mem.mpr hcoupled
    · simp [Link.resolves]

/-- A redaction that the guard admits leaves no conflict behind. -/
theorem Conflicting.not_admitted {m : String} (hkeyed : Keyed uuid s.artifacts)
    (h : Conflicting uuid s e) : ¬ guardAdmits s.artifacts true e (e.redacted m) = true := by
  rw [guardAdmits_redacted_iff]
  rintro ⟨-, -, hall⟩
  obtain ⟨a, memoryId, -, huncoupled, hartifact, -⟩ := h
  have hcouples : couples s.artifacts a m = true := by
    simpa [Link.resolves] using hall _ hartifact
  exact huncoupled.not_couples hkeyed hcouples

/-- The memory a conflicting event names selects it. -/
theorem Conflicting.selected (h : Conflicting uuid s e) :
    ∃ memoryId, (s.memory? uuid memoryId).isSome = true ∧
      redactionSelects s.artifacts memoryId e = true := by
  obtain ⟨a, memoryId, hmemory, -, -, hlink, hfresh⟩ := h
  refine ⟨memoryId, hmemory, redactionSelects_iff.mpr ⟨⟨_, hlink, ?_⟩, .inl hfresh⟩⟩
  simp [Link.resolves]

/-- What a redaction leaves of an event it was admitted on is settled. -/
theorem settled_redacted {m : String}
    (h : guardAdmits artifacts true e (e.redacted m) = true) :
    Settled artifacts (e.redacted m) := by
  obtain ⟨-, -, hall⟩ := guardAdmits_redacted_iff.mp h
  -- the payload names the memory and nothing else, the target is kept
  have hlinks : ∀ l ∈ (e.redacted m).links, l = .memory (some m) ∨
      (l ∈ e.links ∧ e.targetType = some "artifact" ∧ l = .artifact e.targetId) := by
    intro l hl
    have hpayload : (e.redacted m).payloadArtifactId = none ∧
        (e.redacted m).payloadCandidateMemoryId = none ∧
        (e.redacted m).payloadMemoryId = some m := by
      simp [EventRow.redacted, redactedPayload, EventRow.payloadArtifactId,
        EventRow.payloadCandidateMemoryId, EventRow.payloadMemoryId, Dict.getStr?, Dict.get?_cons]
    have htarget : ∀ l ∈ e.links, l.resolves artifacts m = true := hall
    simp only [EventRow.links, hpayload.1, hpayload.2.1, hpayload.2.2, Option.toList_none,
      Option.toList_some, List.map_nil, List.map_cons, List.append_nil, List.mem_append,
      List.mem_singleton] at hl
    rcases hl with (hmemory | hartifact) | rfl
    · left
      split at hmemory
      · next htype =>
        have hid : Link.memory e.targetId ∈ e.links := by
          have ht : e.targetType = some "memory" := htype
          simp [EventRow.links, ht]
        have := htarget _ hid
        rw [List.mem_singleton.mp hmemory]
        simpa [Link.resolves, EventRow.redacted] using this
      · simp at hmemory
    · right
      split at hartifact
      · next htype =>
        have ht : e.targetType = some "artifact" := htype
        rw [List.mem_singleton.mp hartifact]
        refine ⟨?_, ht, rfl⟩
        simp [EventRow.links, ht, EventRow.redacted]
      · simp at hartifact
    · exact .inl rfl
  by_cases htype : e.targetType = some "artifact"
  · have hid : Link.artifact e.targetId ∈ e.links := by simp [EventRow.links, htype]
    have hresolves := hall _ hid
    cases htarget : e.targetId with
    | none => simp [Link.resolves, htarget] at hresolves
    | some a =>
      right
      refine ⟨a, m, couples_iff_mem.mp (by simpa [Link.resolves, htarget] using hresolves), ?_⟩
      intro l hl
      rcases hlinks l hl with rfl | ⟨-, -, rfl⟩
      · exact .inr rfl
      · rw [htarget]
        exact .inl rfl
  · left
    refine ⟨.memory (some m), ?_⟩
    intro l hl
    rcases hlinks l hl with rfl | ⟨-, htype', -⟩
    · rfl
    · exact absurd htype' htype

end Kept

/-! ### What a call does to the log -/

section Steps

variable {uuid : UuidInput}

/-- What a call may do to the tables and to the log. -/
structure LogStep (uuid : UuidInput) (s : LogState) (w : LogWriter) (t : LogState) : Prop where
  /-- No memory row is taken away. -/
  memories : s.memories ⊆ t.memories
  /-- Couplings are fixed when the artifact is inserted. -/
  couplings : couplings s.artifacts ⊆ couplings t.artifacts
  /-- Artifact ids stay unique and as stored. -/
  keyed : Keyed uuid s.artifacts → Keyed uuid t.artifacts
  /-- An event of the log stays, or was admitted to redaction. -/
  kept : ∀ e ∈ s.events, e ∈ t.events ∨
    ∃ m, guardAdmits s.artifacts true e (e.redacted m) = true
  /-- An event of the new log is an old one, or settled, or from a conflicting call. -/
  events : ∀ e ∈ t.events, e ∈ s.events ∨ Settled t.artifacts e ∨ w.conflicts uuid = true
  /-- A conflicting call logs a conflicting event. -/
  conflict : w.conflicts uuid = true → ∃ e ∈ t.events, Conflicting uuid t e

/-- The tables grow: rows are added, couplings are not touched. -/
structure TablesGrow (uuid : UuidInput) (s t : LogState) : Prop where
  memories : s.memories ⊆ t.memories
  couplings : couplings s.artifacts ⊆ couplings t.artifacts
  keyed : Keyed uuid s.artifacts → Keyed uuid t.artifacts
  events : t.events = s.events

namespace TablesGrow

theorem refl (s : LogState) : TablesGrow uuid s s :=
  ⟨List.Subset.refl _, List.Subset.refl _, id, rfl⟩

theorem trans {s t u : LogState} (hst : TablesGrow uuid s t) (htu : TablesGrow uuid t u) :
    TablesGrow uuid s u :=
  ⟨List.Subset.trans hst.memories htu.memories, List.Subset.trans hst.couplings htu.couplings,
    htu.keyed ∘ hst.keyed, htu.events.trans hst.events⟩

/-- A writer that adds rows and logs settled events. -/
theorem logStep {s t : LogState} (h : TablesGrow uuid s t) {w : LogWriter}
    (hw : w.conflicts uuid = false) {new : List EventRow}
    (hnew : ∀ e ∈ new, Settled t.artifacts e) : LogStep uuid s w (t.log new) where
  memories := h.memories
  couplings := h.couplings
  keyed := h.keyed
  kept e he := by
    left
    rw [LogState.log, h.events]
    exact List.mem_append_left _ he
  events e he := by
    rw [LogState.log, h.events] at he
    rcases List.mem_append.mp he with hold | hnew'
    · exact .inl hold
    · exact .inr (.inl (hnew e hnew'))
  conflict hc := by
    rw [hw] at hc
    exact absurd hc (by simp)

/-- A writer that adds rows and logs a conflicting event among others. -/
theorem logStep_conflict {s t : LogState} (h : TablesGrow uuid s t) {w : LogWriter}
    (hw : w.conflicts uuid = true) {new : List EventRow} {e : EventRow} (he : e ∈ new)
    (hconflict : Conflicting uuid t e) : LogStep uuid s w (t.log new) where
  memories := h.memories
  couplings := h.couplings
  keyed := h.keyed
  kept e he := by
    left
    rw [LogState.log, h.events]
    exact List.mem_append_left _ he
  events _ _ := .inr (.inr hw)
  conflict _ := ⟨e, List.mem_append_right _ he, hconflict⟩

end TablesGrow

section Tables

variable {s t : LogState}

theorem insertMemory_eq {memoryId : String} (h : s.insertMemory uuid memoryId = some t) :
    uuid.read memoryId = some memoryId ∧ t = { s with memories := s.memories ++ [memoryId] } := by
  unfold LogState.insertMemory at h
  split at h
  · next hfresh => exact ⟨hfresh.1, (Option.some.inj h).symm⟩
  · exact absurd h (by simp)

theorem tablesGrow_insertMemory {memoryId : String} (h : s.insertMemory uuid memoryId = some t) :
    TablesGrow uuid s t ∧ (t.memory? uuid memoryId).isSome = true ∧ t.artifacts = s.artifacts := by
  obtain ⟨hread, rfl⟩ := insertMemory_eq h
  have hmemory : memoryId ∈ s.memories ++ [memoryId] := by simp
  exact ⟨⟨List.subset_append_left _ _, List.Subset.refl _, id, rfl⟩,
    memory?_isSome_iff.mpr ⟨memoryId, hread, hmemory⟩, rfl⟩

/-- A new artifact adds its coupling to those there were, and takes no row away. -/
theorem tablesGrow_insertArtifact {row : ArtifactRow} (h : s.insertArtifact uuid row = some t) :
    TablesGrow uuid s t ∧ row.coupling ∈ couplings t.artifacts ∧ t.memories = s.memories := by
  unfold LogState.insertArtifact at h
  split at h
  · next hfresh =>
    obtain rfl := Option.some.inj h
    have hsplit : couplings (s.artifacts ++ [row]) = couplings s.artifacts ++ [row.coupling] := by
      simp [couplings]
    refine ⟨⟨List.Subset.refl _, ?_, ?_, rfl⟩, ?_, rfl⟩
    · show couplings s.artifacts ⊆ couplings (s.artifacts ++ [row])
      rw [hsplit]
      exact List.subset_append_left _ _
    · intro hkeyed
      refine ⟨?_, ?_⟩
      · -- the id is new, and it is stored as the database spells it
        show ((couplings (s.artifacts ++ [row])).map (·.1)).Nodup
        have hnodup := hkeyed.unique
        rw [ids_couplings] at hnodup ⊢
        rw [List.map_append]
        refine hnodup.append (List.nodup_singleton _) ?_
        intro a ha hrow
        rw [List.map_singleton, List.mem_singleton] at hrow
        exact hfresh.2 (hrow ▸ ha)
      · show ∀ c ∈ couplings (s.artifacts ++ [row]), uuid.read c.1 = some c.1
        intro c hc
        rw [hsplit, List.mem_append, List.mem_singleton] at hc
        rcases hc with hc | rfl
        · exact hkeyed.stored c hc
        · exact hfresh.1
    · show row.coupling ∈ couplings (s.artifacts ++ [row])
      rw [hsplit]
      exact List.mem_append_right _ (List.mem_singleton_self _)
  · exact absurd h (by simp)

/-- Rewriting columns that are no linkages leaves the couplings alone. -/
theorem couplings_map {artifacts : List ArtifactRow} {f : ArtifactRow → ArtifactRow}
    (hf : ∀ a, (f a).coupling = a.coupling) :
    couplings (artifacts.map f) = couplings artifacts := by
  simp only [couplings, List.map_map]
  exact List.map_congr_left fun a _ => hf a

theorem couplings_updateArtifact (artifactId status content : String)
    (reviewAction : Option String) :
    couplings (s.updateArtifact artifactId status content reviewAction).artifacts =
      couplings s.artifacts := by
  refine couplings_map ?_
  intro a
  split <;> rfl

theorem tablesGrow_updateArtifact (artifactId status content : String)
    (reviewAction : Option String) :
    TablesGrow uuid s (s.updateArtifact artifactId status content reviewAction) := by
  have hsame := couplings_updateArtifact (s := s) artifactId status content reviewAction
  refine ⟨List.Subset.refl _, ?_, ?_, rfl⟩
  · rw [hsame]
    exact List.Subset.refl _
  · intro hkeyed
    exact ⟨hsame ▸ hkeyed.unique, hsame ▸ hkeyed.stored⟩

theorem coupling_of_artifact? {artifactId : String} {row : ArtifactRow}
    (h : s.artifact? uuid artifactId = some row) : uuid.read artifactId = some row.id ∧
      row.coupling ∈ couplings s.artifacts := by
  obtain ⟨id, hread, hfind⟩ := Option.bind_eq_some_iff.mp h
  have hid : (row.id == id) = true :=
    List.find?_some (p := fun a : ArtifactRow => a.id == id) hfind
  rw [eq_of_beq hid]
  exact ⟨hread, List.mem_map_of_mem (List.mem_of_find?_eq_some hfind)⟩

end Tables

section Events

variable {artifacts : List ArtifactRow} {h : EventHeader}

theorem settled_onMemory (eventType memoryId : String) (payload : PlainPayload) :
    Settled artifacts (h.onMemory eventType memoryId payload) := by
  refine .inl ⟨.memory (some memoryId), ?_⟩
  intro l hl
  rw [links_onMemory] at hl
  exact List.mem_singleton.mp hl

theorem settled_onArtifact (eventType artifactId : String) (payload : PlainPayload)
    (named : Bool) : Settled artifacts (h.onArtifact eventType artifactId payload named) :=
  .inl ⟨.artifact (some artifactId), fun _ hl => mem_links_onArtifact hl⟩

/-- An event with an artifact and the memory it is coupled to is settled. -/
theorem settled_coupled {a m : String} (hcoupled : (a, some m) ∈ couplings artifacts)
    {e : EventRow} (hlinks : ∀ l ∈ e.links, l = .artifact (some a) ∨ l = .memory (some m)) :
    Settled artifacts e :=
  .inr ⟨a, m, hcoupled, hlinks⟩

/-- An event whose target is no row of the log's and that names at most one row. -/
theorem settled_workEvent {targetType : String} (htarget : ¬ targetType ∈ ["memory", "artifact"])
    (eventType targetId : String) (payload : PlainPayload) (artifact : Option String) :
    Settled artifacts
      (h.event eventType (some (targetType, targetId)) payload artifact none none) := by
  refine .inl ⟨.artifact artifact, ?_⟩
  intro l hl
  rw [links_event] at hl
  simp only [List.mem_cons, List.not_mem_nil, or_false, not_or] at htarget
  cases artifact with
  | none => simp [htarget.1, htarget.2] at hl
  | some a => simpa [htarget.1, htarget.2] using hl

end Events

/-! ### One call -/

variable {s t : LogState}

/-- A proposed project update couples its artifact to the memory, so the events about it
are settled. -/
theorem logStep_proposeProjectUpdate {h : EventHeader} {memoryId artifactId content : String}
    {payload : PlainPayload}
    (happly : (LogWriter.proposeProjectUpdate h memoryId artifactId content payload).apply uuid s
      = some t) :
    LogStep uuid s (.proposeProjectUpdate h memoryId artifactId content payload) t := by
  -- whether or not the candidate was there, rows are only added
  obtain ⟨u, created, hgrow, hcreated, v, hinsert, rfl⟩ : ∃ u created, TablesGrow uuid s u ∧
      (∀ e ∈ created, ∀ artifacts, Settled artifacts e) ∧ ∃ v, u.insertArtifact uuid
        { id := artifactId, artifactType := "project_update", status := "needs_review"
          contentMarkdown := content, workflow := some "project_auto_update"
          candidateMemoryId := some memoryId } = some v ∧
      t = v.log (created ++ [h.onArtifact "artifact.created" artifactId {} false,
        h.event "project.update_candidate_created" (some ("artifact", artifactId)) payload none
          (some memoryId) none]) := by
    simp only [LogWriter.apply] at happly
    cases hmemory : s.insertMemory uuid memoryId with
    | none =>
      rw [hmemory] at happly
      obtain ⟨v, hv, ht⟩ := Option.bind_eq_some_iff.mp happly
      exact ⟨s, [], TablesGrow.refl s, by simp, v, hv, (Option.some.inj ht).symm⟩
    | some u =>
      rw [hmemory] at happly
      obtain ⟨v, hv, ht⟩ := Option.bind_eq_some_iff.mp happly
      refine ⟨u, [h.onMemory "memory.created" memoryId {}], (tablesGrow_insertMemory hmemory).1, ?_,
        v, hv, (Option.some.inj ht).symm⟩
      intro e he artifacts
      rw [List.mem_singleton.mp he]
      exact settled_onMemory _ _ _
  obtain ⟨hgrow', hcoupling, -⟩ := tablesGrow_insertArtifact hinsert
  refine (hgrow.trans hgrow').logStep rfl ?_
  intro e he
  rcases List.mem_append.mp he with he | he
  · exact hcreated e he _
  · simp only [List.mem_cons, List.not_mem_nil, or_false] at he
    rcases he with rfl | rfl
    · exact settled_onArtifact _ _ _ _
    · -- the row just inserted couples the two
      refine settled_coupled (a := artifactId) (m := memoryId) hcoupling ?_
      intro l hl
      simpa [links_event] using hl

/-- An event that names a memory next to an uncoupled artifact text. -/
theorem conflicting_event {h : EventHeader} {eventType a memoryId : String}
    {target : Option (String × String)} {artifact candidate memory : Option String}
    {payload : PlainPayload} (hmemory : (s.memory? uuid memoryId).isSome = true)
    (huncoupled : Uncoupled uuid s.artifacts a)
    (hartifact : target = some ("artifact", a) ∨ artifact = some a)
    (hnamed : candidate = some memoryId ∨ memory = some memoryId)
    (hfresh : isRedactedPayload (h.event eventType target payload artifact candidate
      memory).payloadJson memoryId eventType = false) :
    Conflicting uuid s (h.event eventType target payload artifact candidate memory) := by
  refine ⟨a, memoryId, hmemory, huncoupled, ?_, ?_, hfresh⟩
  · rw [links_event]
    rcases hartifact with rfl | rfl <;> simp
  · rw [links_event]
    rcases hnamed with rfl | rfl <;> simp

/-- The payload of an acceptance names no memory under `memory_id`. -/
theorem isRedactedPayload_candidate {h : EventHeader} {eventType m : String}
    {target : Option (String × String)} {artifact candidate : Option String}
    {payload : PlainPayload} :
    isRedactedPayload (h.event eventType target payload artifact candidate none).payloadJson m
      eventType = false := by
  have hmemory := payload.plain "memory_id" (by simp [linkageKeys])
  have hnone : (h.event eventType target payload artifact candidate none).payloadJson.getStr?
      "memory_id" = none := by
    simp [EventHeader.event, getStr?_setOptional, hmemory]
  simp [isRedactedPayload, hnone]

/-- The review of a project update logs events about its artifact. After an acceptance
they are settled where the id was spelled as it is stored, after any other action
always. -/
theorem logStep_reviewProjectUpdate {h : EventHeader} {artifactId action projectId : String}
    {payload : PlainPayload}
    (happly : (LogWriter.reviewProjectUpdate h artifactId action projectId payload).apply uuid s
      = some t) :
    LogStep uuid s (.reviewProjectUpdate h artifactId action projectId payload) t := by
  simp only [LogWriter.apply, Option.bind_eq_bind, Option.bind_eq_some_iff] at happly
  obtain ⟨row, hrow, memoryId, hcandidate, id, hmemory, happly⟩ := happly
  split at happly
  · next hready =>
    obtain rfl := Option.some.inj happly
    simp only [Bool.and_eq_true, beq_iff_eq, decide_eq_true_eq] at hready
    obtain ⟨hread, hcoupling⟩ := coupling_of_artifact? hrow
    have hcoupled : (row.id, some memoryId) ∈ couplings s.artifacts := by
      rw [ArtifactRow.coupling, hready.1.1, hcandidate] at hcoupling
      exact hcoupling
    have hgrow : TablesGrow uuid s (s.updateArtifact row.id
        (if (action == "reject") = true then "rejected" else "accepted") row.contentMarkdown
        (some action)) := tablesGrow_updateArtifact _ _ _ _
    have hshared : ∀ e ∈ [h.onMemory "memory.updated" id {},
        h.onArtifact "artifact.updated" row.id {} false], ∀ rows, Settled rows e := by
      intro e he rows
      simp only [List.mem_cons, List.not_mem_nil, or_false] at he
      rcases he with rfl | rfl
      · exact settled_onMemory _ _ _
      · exact settled_onArtifact _ _ _ _
    by_cases hreject : action = "reject"
    · -- a rejection names the artifact only, under whatever spelling
      refine hgrow.logStep (by simp [LogWriter.conflicts, hreject]) ?_
      intro e he
      rw [if_pos (by simp [hreject])] at he
      rcases List.mem_append.mp he with he | he
      · exact hshared e he _
      · rw [List.mem_singleton.mp he]
        exact settled_onArtifact _ _ _ _
    · by_cases hspelling : uuid.read artifactId = some artifactId
      · -- under the stored spelling the event names the artifact and its candidate
        refine hgrow.logStep (by simp [LogWriter.conflicts, hspelling]) ?_
        intro e he
        rw [if_neg (by simp [hreject])] at he
        rcases List.mem_append.mp he with he | he
        · exact hshared e he _
        · have hid : artifactId = row.id := Option.some.inj (hspelling.symm.trans hread)
          rw [List.mem_singleton.mp he]
          refine settled_coupled (a := artifactId) (m := memoryId) ?_ ?_
          · rw [couplings_updateArtifact, hid]
            exact hcoupled
          · intro l hl
            simpa [links_event] using hl
      · -- under another one the artifact it names is none of the table
        refine hgrow.logStep_conflict (by simp [LogWriter.conflicts, hreject, hspelling])
          (e := h.event "project.update_candidate_accepted" (some ("project", projectId)) payload
            (some artifactId) (some memoryId) none) (by simp [hreject]) ?_
        obtain ⟨stored, hstored, hmem⟩ := memory?_isSome_iff.mp (Option.isSome_of_eq_some hmemory)
        exact conflicting_event (memory?_isSome_iff.mpr ⟨stored, hstored, hgrow.memories hmem⟩)
          (.inr hspelling) (.inr rfl) (.inl rfl) isRedactedPayload_candidate
  · exact absurd happly (by simp)

/-- A promotion names the memory in an event whose target is the artifact. The artifact
is coupled to no memory, so the event is not settled. -/
theorem logStep_promoteArtifact {h : EventHeader} {artifactId memoryId : String}
    (happly : (LogWriter.promoteArtifact h artifactId memoryId).apply uuid s = some t) :
    LogStep uuid s (.promoteArtifact h artifactId memoryId) t := by
  simp only [LogWriter.apply, Option.bind_eq_bind, Option.bind_eq_some_iff] at happly
  obtain ⟨row, hrow, happly⟩ := happly
  split at happly
  · next hready =>
    obtain ⟨u, hinsert, happly⟩ := Option.bind_eq_some_iff.mp happly
    obtain rfl := Option.some.inj happly
    simp only [Bool.and_eq_true, Bool.not_eq_true', isProjectUpdateArtifact, Bool.or_eq_false_iff]
      at hready
    obtain ⟨hread, hcoupling⟩ := coupling_of_artifact? hrow
    -- project updates are not promoted, so the artifact has no candidate
    have hnone : (row.id, none) ∈ couplings s.artifacts := by
      rw [ArtifactRow.coupling, hready.1.1.1] at hcoupling
      exact hcoupling
    have huncoupled : Uncoupled uuid s.artifacts artifactId := by
      by_cases hspelling : uuid.read artifactId = some artifactId
      · have hid : artifactId = row.id := Option.some.inj (hspelling.symm.trans hread)
        exact .inl (hid ▸ hnone)
      · exact .inr hspelling
    obtain ⟨hgrow, hmemory, -⟩ := tablesGrow_insertMemory hinsert
    have hupdate : TablesGrow uuid u (u.updateArtifact row.id "promoted_to_memory"
        row.contentMarkdown row.reviewAction) := tablesGrow_updateArtifact _ _ _ _
    refine (hgrow.trans hupdate).logStep_conflict rfl
      (e := h.event "artifact.promoted_to_memory" (some ("artifact", artifactId)) {} none none
        (some memoryId)) (by simp) ?_
    refine conflicting_event (a := artifactId) hmemory
      (huncoupled.mono (List.Subset.trans hgrow.couplings hupdate.couplings)) (.inl rfl)
      (.inr rfl) ?_
    simp [isRedactedPayload, EventHeader.event, setOptional, Dict.item, Dict.set, Dict.get?_cons]
  · exact absurd happly (by simp)

/-- Ingesting an agent output writes events about its artifact. They are settled unless
a memory was proposed with it, since the artifact is not coupled to that memory. -/
theorem logStep_ingestAgentOutput {h : EventHeader} {artifactId artifactType content : String}
    {proposed : Option String}
    (happly : (LogWriter.ingestAgentOutput h artifactId artifactType content proposed).apply uuid s
      = some t) :
    LogStep uuid s (.ingestAgentOutput h artifactId artifactType content proposed) t := by
  simp only [LogWriter.apply, Option.bind_eq_bind, Option.bind_eq_some_iff] at happly
  obtain ⟨u, hinsert, happly⟩ := happly
  obtain ⟨hgrow, hcoupling, -⟩ := tablesGrow_insertArtifact hinsert
  -- the row inserted has no candidate
  have hnone : (artifactId, none) ∈ couplings u.artifacts := by
    simpa [ArtifactRow.coupling] using hcoupling
  cases proposed with
  | none =>
    obtain rfl := Option.some.inj happly
    have hlog : LogStep uuid s (.ingestAgentOutput h artifactId artifactType content none)
        (u.log [h.onArtifact "artifact.created" artifactId {} false,
          h.event "agent.output_ingested" (some ("connector", "agent_output")) {}
            (some artifactId) none none]) := by
      refine hgrow.logStep rfl ?_
      intro e he
      simp only [List.mem_cons, List.not_mem_nil, or_false] at he
      rcases he with rfl | rfl
      · exact settled_onArtifact _ _ _ _
      · exact settled_workEvent (by decide) _ _ _ _
    simpa [LogState.log] using hlog
  | some memoryId =>
    simp only [Option.bind_eq_some_iff] at happly
    obtain ⟨v, hinsertMemory, happly⟩ := happly
    obtain rfl := Option.some.inj happly
    obtain ⟨hread, rfl⟩ := insertMemory_eq hinsertMemory
    have hmemory : memoryId ∈ u.memories ++ [memoryId] := by simp
    have hinserted : TablesGrow uuid u { u with memories := u.memories ++ [memoryId] } :=
      ⟨List.subset_append_left _ _, List.Subset.refl _, id, rfl⟩
    have hlog : LogStep uuid s
        (.ingestAgentOutput h artifactId artifactType content (some memoryId))
        (LogState.log { u with memories := u.memories ++ [memoryId] }
          [h.onArtifact "artifact.created" artifactId {} false,
            h.onMemory "memory.created" memoryId {},
            h.event "memory.candidate_created" (some ("connector", "agent_output")) {}
              (some artifactId) none (some memoryId),
            h.event "agent.output_ingested" (some ("connector", "agent_output")) {}
              (some artifactId) none (some memoryId)]) := by
      refine (hgrow.trans hinserted).logStep_conflict rfl
        (e := h.event "agent.output_ingested" (some ("connector", "agent_output")) {}
          (some artifactId) none (some memoryId)) (by simp) ?_
      refine conflicting_event (a := artifactId) (memory?_isSome_iff.mpr ⟨_, hread, hmemory⟩)
        (.inl hnone) (.inr rfl) (.inr rfl) ?_
      simp [isRedactedPayload, EventHeader.event, setOptional, Dict.item, Dict.set, Dict.get?_cons]
    simpa [LogState.log] using hlog

theorem redactEvents_isSome_iff {m : String} :
    (s.redactEvents m).isSome = true ↔ ∀ e ∈ s.events,
      redactionSelects s.artifacts m e = true →
        guardAdmits s.artifacts true e (e.redacted m) = true := by
  unfold LogState.redactEvents
  split
  · next h => simpa [imp_iff_not_or] using h
  · next h => simpa [imp_iff_not_or] using h

/-- Redacting a memory logs a receipt, which is settled for the guard; events that it
rewrites were admitted. -/
theorem logStep_redactMemory {h : EventHeader} {memoryId : String} {contentChanged : Bool}
    (happly : (LogWriter.redactMemory h memoryId contentChanged).apply uuid s = some t) :
    LogStep uuid s (.redactMemory h memoryId contentChanged) t := by
  simp only [LogWriter.apply, Option.bind_eq_bind, Option.bind_eq_some_iff] at happly
  obtain ⟨-, -, happly⟩ := happly
  split at happly
  · obtain ⟨events, hredact, happly⟩ := Option.bind_eq_some_iff.mp happly
    obtain rfl := Option.some.inj happly
    have hadmitted := redactEvents_isSome_iff.mp (Option.isSome_of_eq_some hredact)
    -- the artifacts lose their content, not their coupling
    have hcouplings : ∀ content : ArtifactRow → Bool, couplings (s.artifacts.map fun a =>
        if content a then { a with contentMarkdown := "[REDACTED]" } else a) =
          couplings s.artifacts := by
      intro content
      refine couplings_map ?_
      intro a
      split <;> rfl
    have hevents : events = s.events.map fun e =>
        if redactionSelects s.artifacts memoryId e then e.redacted memoryId else e := by
      unfold LogState.redactEvents at hredact
      split at hredact
      · exact (Option.some.inj hredact).symm
      · exact absurd hredact (by simp)
    refine ⟨List.Subset.refl _, ?_, ?_, ?_, ?_, fun hc => absurd hc (by simp [LogWriter.conflicts])⟩
    · show couplings s.artifacts ⊆ couplings (s.artifacts.map _)
      rw [hcouplings]
      exact List.Subset.refl _
    · intro hkeyed
      refine ⟨?_, ?_⟩
      · show ((couplings (s.artifacts.map _)).map (·.1)).Nodup
        rw [hcouplings]
        exact hkeyed.unique
      · show ∀ c ∈ couplings (s.artifacts.map _), _
        rw [hcouplings]
        exact hkeyed.stored
    · intro e he
      by_cases hselected : redactionSelects s.artifacts memoryId e = true
      · exact .inr ⟨memoryId, hadmitted e he hselected⟩
      · left
        refine List.mem_append_left _ ?_
        rw [hevents]
        refine List.mem_map.mpr ⟨e, he, ?_⟩
        rw [if_neg hselected]
    · intro e he
      rcases List.mem_append.mp he with he | he
      · rw [hevents] at he
        obtain ⟨old, hold, rfl⟩ := List.mem_map.mp he
        split
        · next hselected =>
          right; left
          refine (settled_redacted (hadmitted old hold hselected)).mono ?_
          show couplings s.artifacts ⊆ couplings (s.artifacts.map _)
          rw [hcouplings]
          exact List.Subset.refl _
        · exact .inl hold
      · -- the receipt names the memory twice
        split at he
        · right; left
          rw [List.mem_singleton.mp he]
          refine .inl ⟨.memory (some memoryId), ?_⟩
          intro l hl
          rw [links_event] at hl
          simpa using hl
        · simp at he
  · exact absurd happly (by simp)

/-- What one call does, whichever it is. -/
theorem logStep_apply {w : LogWriter} (happly : w.apply uuid s = some t) :
    LogStep uuid s w t := by
  -- every call appends events that are settled for the redaction guard, and rows that only grow
  cases w with
  | createMemory h memoryId payload =>
    obtain ⟨u, hinsert, ht⟩ := Option.bind_eq_some_iff.mp happly
    obtain rfl := Option.some.inj ht
    refine (tablesGrow_insertMemory hinsert).1.logStep rfl ?_
    simpa using settled_onMemory _ _ _
  | memoryEvent h eventType memoryId payload =>
    obtain ⟨id, -, ht⟩ := Option.bind_eq_some_iff.mp happly
    obtain rfl := Option.some.inj ht
    refine (TablesGrow.refl s).logStep rfl ?_
    simpa using settled_onMemory _ _ _
  | createArtifact h artifactId artifactType status content =>
    obtain ⟨u, hinsert, ht⟩ := Option.bind_eq_some_iff.mp happly
    obtain rfl := Option.some.inj ht
    refine (tablesGrow_insertArtifact hinsert).1.logStep rfl ?_
    simpa using settled_onArtifact _ _ _ _
  | artifactEvent h eventType artifactId payload named =>
    obtain ⟨row, -, ht⟩ := Option.bind_eq_some_iff.mp happly
    obtain rfl := Option.some.inj ht
    refine (TablesGrow.refl s).logStep rfl ?_
    simpa using settled_onArtifact _ _ _ _
  | workEvent h eventType targetType targetId payload artifactId =>
    simp only [LogWriter.apply] at happly
    split at happly
    · exact absurd happly (by simp)
    · next htarget =>
      obtain rfl := Option.some.inj happly
      refine (TablesGrow.refl s).logStep rfl ?_
      simpa using settled_workEvent htarget _ _ _ _
  | createBelief h beliefId memoryId =>
    -- the link to the memory is the only one of the event
    obtain ⟨id, -, ht⟩ := Option.bind_eq_some_iff.mp happly
    obtain rfl := Option.some.inj ht
    refine (TablesGrow.refl s).logStep rfl ?_
    intro e he
    rw [List.mem_singleton.mp he]
    refine .inl ⟨.memory (some id), ?_⟩
    intro l hl
    rw [links_event] at hl
    simpa using hl
  | proposeProjectUpdate => exact logStep_proposeProjectUpdate happly
  | reviewProjectUpdate => exact logStep_reviewProjectUpdate happly
  | reviewArtifact h artifactId action =>
    simp only [LogWriter.apply, Option.bind_eq_bind, Option.bind_eq_some_iff] at happly
    obtain ⟨row, -, status, -, happly⟩ := happly
    split at happly
    · obtain rfl := Option.some.inj happly
      refine (tablesGrow_updateArtifact row.id status row.contentMarkdown
        row.reviewAction).logStep rfl ?_
      intro e he
      simp only [List.mem_cons, List.not_mem_nil, or_false] at he
      -- a review leaves two events, both on the artifact
      rcases he with rfl | rfl <;> exact settled_onArtifact _ _ _ _
    · exact absurd happly (by simp)
  | promoteArtifact => exact logStep_promoteArtifact happly
  | ingestAgentOutput => exact logStep_ingestAgentOutput happly
  | redactMemory => exact logStep_redactMemory happly

end Steps

/-! ### A whole run -/

/-- `redact_memory_bundle` meets no refusal, whichever memory it is asked to
redact and under whichever spelling of its id. -/
def RedactionNeverRefused (uuid : UuidInput) (s : LogState) : Prop :=
  ∀ memoryId, (s.memory? uuid memoryId).isSome = true → ∀ e ∈ s.events,
    redactionSelects s.artifacts memoryId e = true →
      guardAdmits s.artifacts true e (e.redacted memoryId) = true

/-- A log the program's own writers built, call by call. -/
def LogRun (uuid : UuidInput) : List LogWriter → LogState → Prop :=
  Run (fun s w t => w.apply uuid s = some t) (fun s => s = {})

section Runs

variable {uuid : UuidInput} {s t : LogState}

/-- The statement of the redaction goes through exactly when no row is refused. -/
theorem redactionNeverRefused_iff_redactEvents :
    RedactionNeverRefused uuid s ↔ ∀ memoryId, (s.memory? uuid memoryId).isSome = true →
      (s.redactEvents memoryId).isSome = true := by
  simp only [RedactionNeverRefused, redactEvents_isSome_iff]

theorem LogRun.start : LogRun uuid [] {} :=
  Run.start rfl

/-- One more call. -/
theorem LogRun.next {calls : List LogWriter} {w : LogWriter} (run : LogRun uuid calls s)
    (happly : w.apply uuid s = some t) : LogRun uuid (calls ++ [w]) t :=
  Run.next run happly

/-- Calls that all write make a run. -/
theorem LogRun.foldlM {before calls : List LogWriter} (run : LogRun uuid before s)
    (h : calls.foldlM (LogWriter.apply uuid) s = some t) : LogRun uuid (before ++ calls) t := by
  induction calls generalizing before s with
  | nil =>
    obtain rfl := Option.some.inj h
    rwa [List.append_nil]
  | cons w calls ih =>
    rw [List.foldlM_cons] at h
    obtain ⟨u, happly, hrest⟩ := Option.bind_eq_some_iff.mp h
    have hrun := ih (run.next happly) hrest
    rwa [List.append_assoc] at hrun

/-- What ties a log to the calls that built it. -/
structure LogInv (uuid : UuidInput) (calls : List LogWriter) (s : LogState) : Prop where
  keyed : Keyed uuid s.artifacts
  settled : (∀ w ∈ calls, w.conflicts uuid = false) → ∀ e ∈ s.events, Settled s.artifacts e
  conflict : (∃ w ∈ calls, w.conflicts uuid = true) → ∃ e ∈ s.events, Conflicting uuid s e

theorem LogInv.initial : LogInv uuid [] {} where
  keyed := ⟨List.nodup_nil, by simp [couplings]⟩
  settled _ e he := absurd he (by simp)
  conflict h := by simp at h

/-- One call keeps the log invariant: without a conflicting call every event is settled,
with one there is a conflicting event. -/
theorem LogInv.step {calls : List LogWriter} {w : LogWriter} (hinv : LogInv uuid calls s)
    (happly : w.apply uuid s = some t) : LogInv uuid (calls ++ [w]) t := by
  have hstep := logStep_apply happly
  refine ⟨hstep.keyed hinv.keyed, ?_, ?_⟩
  · intro hcalm e he
    have hw : w.conflicts uuid = false := hcalm w (by simp)
    rcases hstep.events e he with hold | hnew | hc
    · have hsettled := hinv.settled (fun w' hw' => hcalm w' (by simp [hw'])) e hold
      exact hsettled.mono hstep.couplings
    · exact hnew
    · rw [hw] at hc
      exact absurd hc (by simp)
  · rintro ⟨w', hw', hc⟩
    rcases List.mem_append.mp hw' with hw' | hw'
    · -- an old conflict is out of reach of the redaction
      obtain ⟨e, he, hconflicting⟩ := hinv.conflict ⟨w', hw', hc⟩
      rcases hstep.kept e he with hkept | ⟨m, hadmitted⟩
      · exact ⟨e, hkept, hconflicting.mono hstep.memories hstep.couplings⟩
      · exact absurd hadmitted (hconflicting.not_admitted hinv.keyed)
    · rw [List.mem_singleton.mp hw'] at hc
      exact hstep.conflict hc

theorem LogRun.inv {calls : List LogWriter} (run : LogRun uuid calls s) : LogInv uuid calls s :=
  Run.history (fun _ h => h ▸ LogInv.initial) (fun _ _ _ _ hinv h => hinv.step h) run

end Runs

/-- **Redaction and the append-only guard.** The log of a run is safe from
refusals exactly when no call of the run promoted an artifact to a memory,
ingested an agent's output together with a memory, or accepted a project update
under another spelling than the stored one. -/
theorem redactionNeverRefused_iff {uuid : UuidInput} {calls : List LogWriter} {s : LogState}
    (run : LogRun uuid calls s) :
    RedactionNeverRefused uuid s ↔ ∀ w ∈ calls, w.conflicts uuid = false := by
  have hinv := run.inv
  constructor
  · intro hsafe w hw
    by_contra hc
    obtain ⟨e, he, hconflicting⟩ := hinv.conflict ⟨w, hw, by simpa using hc⟩
    obtain ⟨memoryId, hmemory, hselected⟩ := hconflicting.selected
    exact hconflicting.not_admitted hinv.keyed (hsafe memoryId hmemory e he hselected)
  · intro hcalm memoryId hmemory e he hselected
    obtain ⟨id, hread, -⟩ := memory?_isSome_iff.mp hmemory
    exact (hinv.settled hcalm e he).admitted (uuid.nonblank hread) hinv.keyed hselected

/-- A project update is proposed, and accepted under a spelling of its artifact's
id. -/
def acceptanceCalls (spelling : String) : List LogWriter :=
  [.proposeProjectUpdate { id := "e1", userId := "u", actorType := "system", occurredAt := "t1" }
      "0d9e2f64-7a51-4c8b-9b1e-5f2a6c3d4e10" "a3c1b2d4-5e6f-4a7b-8c9d-0e1f2a3b4c5d" "state" {},
    .reviewProjectUpdate { id := "e2", userId := "u", actorType := "user", occurredAt := "t2" }
      spelling "accept" "alice" {}]

/-- The acceptance is safe under the spelling stored, and not under the one in
upper case. -/
theorem redactionNeverRefused_iff_acceptance :
    (∃ s, LogRun .hyphenated (acceptanceCalls "a3c1b2d4-5e6f-4a7b-8c9d-0e1f2a3b4c5d") s ∧
      RedactionNeverRefused .hyphenated s) ∧
    ∃ s, LogRun .hyphenated (acceptanceCalls "A3C1B2D4-5E6F-4A7B-8C9D-0E1F2A3B4C5D") s ∧
      ¬ RedactionNeverRefused .hyphenated s := by
  have hstored : ((acceptanceCalls "a3c1b2d4-5e6f-4a7b-8c9d-0e1f2a3b4c5d").foldlM
      (LogWriter.apply .hyphenated) {}).isSome = true := by
    decide +kernel
  have hupper : ((acceptanceCalls "A3C1B2D4-5E6F-4A7B-8C9D-0E1F2A3B4C5D").foldlM
      (LogWriter.apply .hyphenated) {}).isSome = true := by
    decide +kernel
  obtain ⟨s, hs⟩ := Option.isSome_iff_exists.mp hstored
  obtain ⟨t, ht⟩ := Option.isSome_iff_exists.mp hupper
  have hrun := LogRun.start.foldlM hs
  have hrun' := LogRun.start.foldlM ht
  refine ⟨⟨s, hrun, (redactionNeverRefused_iff hrun).mpr (by decide +kernel)⟩, t, hrun', ?_⟩
  rw [redactionNeverRefused_iff hrun']
  decide +kernel

/-- An artifact is made and promoted to a memory. -/
def promotionCalls : List LogWriter :=
  [.createArtifact { id := "e1", userId := "u", actorType := "system", occurredAt := "t1" }
      "a3c1b2d4-5e6f-4a7b-8c9d-0e1f2a3b4c5d" "daily_brief" "draft" "brief",
    .promoteArtifact { id := "e2", userId := "u", actorType := "user", occurredAt := "t2" }
      "a3c1b2d4-5e6f-4a7b-8c9d-0e1f2a3b4c5d" "0d9e2f64-7a51-4c8b-9b1e-5f2a6c3d4e10"]

/-- Redaction is refused after a promotion. -/
theorem redaction_refused_after_promotion :
    ¬ ∀ calls s, LogRun .hyphenated calls s → RedactionNeverRefused .hyphenated s := by
  intro hall
  have heval : (promotionCalls.foldlM (LogWriter.apply .hyphenated) {}).any (fun s =>
      (s.memory? .hyphenated "0d9e2f64-7a51-4c8b-9b1e-5f2a6c3d4e10").isSome &&
        (s.redactEvents "0d9e2f64-7a51-4c8b-9b1e-5f2a6c3d4e10").isNone) = true := by
    decide +kernel
  obtain ⟨s, hs, hresult⟩ := (Option.any_eq_true _ _).mp heval
  obtain ⟨hmemory, hnone⟩ := Bool.and_eq_true_iff.mp hresult
  have hsome := redactionNeverRefused_iff_redactEvents.mp
    (hall _ s (LogRun.start.foldlM hs)) _ hmemory
  rw [Option.isNone_iff_eq_none.mp hnone] at hsome
  exact absurd hsome (by simp)

end AliceBot
