import AliceBot.MemoryRedaction
import AliceBot.ServicePrimitives

/-!
# Histories of a memory store

Beside the calls of the commit service, rows are rewritten by reviews, which
call `update_memory` with any of its columns, and by redactions. `StoreCall`
has all three, each in a transaction of its own, and a history is a run of them
from the empty store.

A redaction is modelled on four tables elsewhere; `redactMemory` is what it does
to the tables of this model, and `redactMemory_refines` says so.
-/

namespace AliceBot

open PyLib

/-! ### Reviews -/

/-- The whole `patch` of `update_memory`: the columns a service call writes, and
the others. -/
structure ReviewPatch extends MemoryPatch where
  memoryType : Option String := none
  confidence : Option Rat := none
  validFrom : Option ValidityEnd := none
  domain : Option String := none
  sensitivity : Option String := none
  projectId : Option String := none

/-- The row `update_memory` leaves. -/
def ReviewPatch.revise (patch : ReviewPatch) (now deletedNow : UtcMoment) (row : MemoryRow) :
    MemoryRow :=
  { patch.toMemoryPatch.apply now deletedNow row with
    memoryType := patch.memoryType.getD row.memoryType
    confidence := patch.confidence.or row.confidence
    validFrom := patch.validFrom.or row.validFrom
    domain := patch.domain.getD row.domain
    sensitivity := patch.sensitivity.getD row.sensitivity
    projectId := patch.projectId.or row.projectId }

section

variable (env : Env)

/-- `update_memory`, with any of its columns. -/
def reviewMemory (memoryId : String) (patch : ReviewPatch) (actor : Actor) :
    Service MemoryRow := do
  let now ← utcNow env
  let deletedNow ← utcNow env
  let s ← get
  let row ← orRaise (s.getMemory memoryId)
    (.storeInvariant "update_memory did not return a row from the database")
  raiseIf ((patch.revise now deletedNow row).checks = false) .integrity
  let revise : Rewrite MemoryRow.id := ⟨patch.revise now deletedNow, fun _ => rfl⟩
  set { s with memories := s.memories.rewrite memoryId revise }
  appendMemoryEvent env "memory.updated" ⟨actor.type, none⟩ memoryId
  pure (patch.revise now deletedNow row)

/-- With the columns of a service call it is `updateMemory`. -/
theorem reviewMemory_toMemoryPatch (memoryId : String) (patch : MemoryPatch) (actor : Actor) :
    reviewMemory env memoryId { toMemoryPatch := patch } actor =
      updateMemory env memoryId patch actor := rfl

/-! ### Redactions -/

/-- A redaction, with what it reads outside the tables of the store: the other
columns of the row, and whether the rest of its bundle is changed, and may be. -/
structure StoreRedaction where
  memoryId : String
  redactedAt : String
  now : UtcMoment
  trustReason : Option String := none
  sourceEventIds : List Json := []
  embedding : Option (List Rat) := none
  factKeys : Option String := none
  elsewhereChanged : Bool := false
  admitted : Bool := true

/-- The row with its other columns. -/
def StoreRedaction.full (redaction : StoreRedaction) (row : MemoryRow) : RedactableMemory :=
  { toMemoryRow := row
    trustReason := redaction.trustReason
    sourceEventIds := redaction.sourceEventIds
    embedding := redaction.embedding
    factKeys := redaction.factKeys }

/-- A revision in its redacted form. -/
def RevisionRow.redacted (revision : RevisionRow) (memoryId : String) : RevisionRow :=
  { revision with
    memoryKey := "redacted." ++ memoryId
    textBefore := revision.textBefore.map fun _ => redactionMarker
    textAfter := redactionMarker
    reason := redactionMarker }

/-- The memory update of a redaction. -/
def redactRow (memoryId : String) (metadata : Dict Json) (now : UtcMoment) (row : MemoryRow) :
    Service Unit := do
  let s ← get
  raiseIf (∃ other ∈ s.memories.rows, other.id ≠ row.id ∧
    other.memoryKey = "redacted." ++ row.id) .integrity
  let redact : Rewrite MemoryRow.id := ⟨(·.redacted metadata now), fun _ => rfl⟩
  set { s with memories := s.memories.rewrite memoryId redact }

/-- `redact_memory_bundle`, on the tables of the store. -/
def redactMemory (redaction : StoreRedaction) (actor : Actor) : Service Unit := do
  let s ← get
  let row ← orRaise (s.memories.get? redaction.memoryId)
    (.storeInvariant "redact_memory_bundle did not find the memory to redact")
  let metadata := redactedMemoryMetadata row.metadataJson redaction.redactedAt
  let memoryChanged := (redaction.full row).differs metadata
  raiseIf (redaction.admitted = false) .integrity
  modify fun s => { s with revisions := s.revisions.map fun revision =>
    if revision.memoryId = redaction.memoryId then revision.redacted redaction.memoryId
    else revision }
  onlyIf memoryChanged (redactRow redaction.memoryId metadata redaction.now row)
  onlyIf (memoryChanged || redaction.elsewhereChanged)
    (appendMemoryEvent env "memory.redacted" ⟨actor.type, none⟩ redaction.memoryId)

end

/-! ### Calls -/

/-- The calls that write memories. -/
inductive StoreCall where
  | service (call : Invocation)
  | review (env : Env) (memoryId : String) (patch : ReviewPatch) (actor : Actor)
  | redact (env : Env) (redaction : StoreRedaction) (actor : Actor)

namespace StoreCall

/-- The environment it runs in. -/
def env : StoreCall → Env
  | .service call => call.env
  | .review env _ _ _ => env
  | .redact env _ _ => env

/-- What the call does, its answer dropped. -/
def perform : StoreCall → Service Unit
  | .service call => call.perform
  | .review env memoryId patch actor => do
    let _ ← reviewMemory env memoryId patch actor
  | .redact env redaction actor => redactMemory env redaction actor

/-- The transaction: a call that raises leaves the store it found. -/
def transact (call : StoreCall) (s : Store) : Store :=
  match call.perform.run s with
  | .ok _ t => t
  | .error _ _ => s

/-- A relation that the call keeps, whatever it comes to, holds across its
transaction. -/
theorem transact_of_moves {R : Store → Store → Prop} [Std.Refl R] {call : StoreCall}
    (hmoves : Moves R call.perform) (s : Store) : R s (call.transact s) := by
  unfold transact
  split
  · next hrun => exact hmoves.ok hrun
  · exact Std.Refl.refl s

end StoreCall

/-- The histories from the empty store in which every identifier is drawn from
one source. -/
abbrev StoreHistory (uuid : Nat → String) : List StoreCall → Store → Prop :=
  Run (fun s call t => call.env.uuid = uuid ∧ call.transact s = t) fun s =>
    s = { memories := default }

/-! ### The redaction on the four tables -/

section Refinement

/-- The store with the rows of the memory table, its other columns dropped. -/
def RedactionTables.rows (tables : RedactionTables) : List MemoryRow :=
  tables.memories.rows.map (·.toMemoryRow)

/-- Reading a row without its other columns. -/
theorem get?_of_rows {tables : RedactionTables} {s : Store} (hrows : s.memories.rows = tables.rows)
    (id : String) :
    s.memories.get? id = (tables.memories.get? id).map (·.toMemoryRow) := by
  rw [Table.get?, Table.get?, hrows, RedactionTables.rows, List.find?_map]
  rfl

/-- The redaction of the four tables, as the store sees it. -/
def RedactionCall.onStore (call : RedactionCall) (env : Env) (tables : RedactionTables)
    (row : RedactableMemory) : StoreRedaction :=
  { memoryId := call.memoryId.text
    redactedAt := tables.redactedAt env call row
    now := call.updatedNow
    trustReason := row.trustReason
    sourceEventIds := row.sourceEventIds
    embedding := row.embedding
    factKeys := row.factKeys
    elsewhereChanged := tables.changes row
      (redactedMemoryMetadata row.metadataJson (tables.redactedAt env call row)) }

/-- The update of one row, as the store sees it. -/
theorem rewrite_rows {tables : RedactionTables} {s : Store} (hrows : s.memories.rows = tables.rows)
    (id : String) (metadata : Dict Json) (now : UtcMoment) :
    (s.memories.rewrite id ⟨(·.redacted metadata now), fun _ => rfl⟩).rows =
      (tables.memories.rewrite id ⟨(·.redacted metadata now), fun _ => rfl⟩).rows.map
        (·.toMemoryRow) := by
  simp only [Table.rewrite, hrows, RedactionTables.rows, List.map_map]
  refine List.map_congr_left fun row _ => ?_
  simp only [Function.comp_apply]
  split <;> rfl

/-- **The two models agree.** A redaction of the four tables leaves the memory
rows that `redactMemory` leaves. -/
theorem redactMemory_refines {env : Env} {tables tables' : RedactionTables} {call : RedactionCall}
    {report : RedactionReport} {s : Store} (hrows : s.memories.rows = tables.rows)
    (hprofile : ∀ row ∈ tables.memories.rows, ∀ row' ∈ tables.memories.rows,
      row.agentProfileId = row'.agentProfileId)
    (h : tables.redactMemoryBundle env call = .ok (report, tables')) (actor : Actor) :
    ∃ row t, tables.memories.get? call.memoryId.text = some row ∧
      (redactMemory env (call.onStore env tables row) actor).run s = .ok () t ∧
      t.memories.rows = tables'.rows := by
  simp only [RedactionTables.redactMemoryBundle] at h
  split at h
  · cases h
  split at h
  · cases h
  next row hfound =>
  split at h
  swap
  · cases h
  split at h
  · cases h
  next hfree =>
  simp only [Except.ok.injEq, Prod.mk.injEq] at h
  obtain ⟨-, rfl⟩ := h
  let redaction := call.onStore env tables row
  let metadata := redactedMemoryMetadata row.metadataJson redaction.redactedAt
  have hrow : s.memories.get? call.memoryId.text = some row.toMemoryRow := by
    rw [get?_of_rows hrows, hfound]
    rfl
  -- no other row holds the key, so the update of the row goes through
  have hkey : row.differs metadata = true → ¬ ∃ other ∈ s.memories.rows,
      other.id ≠ row.id ∧ other.memoryKey = "redacted." ++ row.id := by
    rintro hdiffers ⟨other, hother, hne, hkey⟩
    rw [hrows] at hother
    obtain ⟨full, hfull, rfl⟩ := List.mem_map.mp hother
    refine hfree ⟨hdiffers, List.any_eq_true.mpr ⟨full, hfull, ?_⟩⟩
    have hsame := hprofile full hfull row (Table.mem_of_get? hfound)
    simp [hne, hkey, hsame]
  -- the revisions are redacted first, whatever becomes of the row
  let swept : Store := { s with revisions := s.revisions.map fun revision =>
    if revision.memoryId = call.memoryId.text then revision.redacted call.memoryId.text
    else revision }
  -- the row is written only where the redaction changes it
  obtain ⟨u, hredact, hmemories⟩ : ∃ u, (onlyIf (row.differs metadata) (redactRow
      call.memoryId.text metadata call.updatedNow row.toMemoryRow)).run swept = .ok () u ∧
      u.memories.rows = (if row.differs metadata then
          tables.memories.rewrite call.memoryId.text
            ⟨(·.redacted metadata call.updatedNow), fun _ => rfl⟩
        else tables.memories).rows.map (·.toMemoryRow) := by
    by_cases hdiffers : row.differs metadata = true
    · rw [onlyIf, if_pos hdiffers]
      refine ⟨_, run_bind_ok.mpr ⟨swept, swept, rfl, run_bind_ok.mpr ⟨(), swept, ?_, rfl⟩⟩, ?_⟩
      · exact run_raiseIf_ok.mpr ⟨hkey hdiffers, rfl⟩
      · rw [if_pos hdiffers]
        exact rewrite_rows hrows _ _ _
    · rw [onlyIf, if_neg hdiffers]
      refine ⟨swept, rfl, ?_⟩
      rw [if_neg hdiffers]
      exact hrows
  obtain ⟨_, t, hevent⟩ : ∃ a t, (onlyIf (row.differs metadata || redaction.elsewhereChanged)
      (appendMemoryEvent env "memory.redacted" ⟨actor.type, none⟩ call.memoryId.text)).run u =
        .ok a t :=
    Returns.onlyIf (returns_appendEvent env _ _ _ _) u
  -- the calls of the one model, in order
  refine ⟨row, t, hfound, ?_, ?_⟩
  · refine run_bind_ok.mpr ⟨s, s, rfl, run_bind_ok.mpr ⟨row.toMemoryRow, s,
      run_orRaise_ok.mpr ⟨hrow, rfl⟩, ?_⟩⟩
    exact run_bind_ok.mpr ⟨(), s, run_raiseIf_ok.mpr ⟨by simp [RedactionCall.onStore], rfl⟩,
      run_bind_ok.mpr ⟨(), swept, rfl, run_bind_ok.mpr ⟨(), u, hredact, hevent⟩⟩⟩
  · rw [((Moves.onlyIf (quiet_appendMemoryEvent env _ _ _)).ok hevent).memories, hmemories]
    rfl

end Refinement

end AliceBot
