import AliceBot.MemoryRedaction
import AliceBot.ServiceCalls

/-!
# A redacted bundle stays redacted

`Bundle env s mid row` says that the bundle of a memory is at rest: its row is
in the marker shape, none of the three sweeps selects anything, and the receipt
is there. It is what a redaction leaves (`bundle_of_step`), it is what the
exactness query and the row predicate recognise (`Bundle.exact`,
`Bundle.isRedacted`), it survives the redaction of any other memory
(`Bundle.step`), and on it a second redaction has nothing to do
(`Bundle.again`).

A redaction appends its receipt only when it changed something. That there is
one afterwards in every case is due to the log: `create_memory` logs an event
on the row it makes, the log is append-only, and no redaction of another memory
gets an event on this one past the trigger (`carries_unique`). So either that
event is still to be scrubbed or an earlier redaction has scrubbed it and left
its receipt (`Journalled`).
-/

namespace AliceBot

open PyLib

variable {env : Env}

/-! ### The text of an id -/

/-- No character of a UUID is white space. -/
theorem isSpace_of_isUuidChar {c : Char} (h : isUuidChar c = true) : isSpace c = false := by
  have hrange : c.toNat = 45 ∨ (48 ≤ c.toNat ∧ c.toNat ≤ 57) ∨ (97 ≤ c.toNat ∧ c.toNat ≤ 102) := by
    simp only [isUuidChar, Bool.or_eq_true, Bool.and_eq_true, decide_eq_true_eq, beq_iff_eq] at h
    rcases h with (hdigit | hletter) | rfl
    · simp only [Char.isDigit, Bool.and_eq_true, decide_eq_true_eq] at hdigit
      exact Or.inr (Or.inl ⟨hdigit.1, hdigit.2⟩)
    · exact Or.inr (Or.inr ⟨hletter.1, hletter.2⟩)
    · exact Or.inl rfl
  simp only [isSpace, List.mem_cons, List.not_mem_nil, or_false, decide_eq_false_iff_not]
  omega

theorem MemoryId.strip_text (id : MemoryId) : strip id.text = id.text :=
  strip_of_noSpace fun c hc => isSpace_of_isUuidChar (id.uuid c hc)

/-- The text of a clock reading has no white space around it. -/
theorem strip_utcNowIso (now : UtcMoment) : strip (utcNowIso now) = utcNowIso now := by
  refine strip_of_noSpace fun c hc => ?_
  cases hspace : isSpace c with
  | false => rfl
  | true =>
    have hdigit : ∀ n < 10, digitChar n ≠ c := by
      have hdigits : ∀ n < 10, isSpace (digitChar n) = false := by decide
      rintro n hn rfl
      rw [hdigits n hn] at hspace
      cases hspace
    have hfields : c ∉ render stampFields now.fields := by
      refine notMem_render hdigit ?_ _
      have hseps : ∀ f ∈ stampFields, f.sep.all (fun d => !isSpace d) = true := by decide
      intro f hf hmem
      have hsep := List.all_eq_true.mp (hseps f hf) c hmem
      rw [hspace] at hsep
      cases hsep
    have hfraction : c ∉ isoFraction true now := by
      simp only [isoFraction, reduceCtorEq, and_false, if_false, List.mem_cons, not_or]
      refine ⟨?_, notMem_digits hdigit 6 _⟩
      rintro rfl
      revert hspace
      decide
    rw [utcNowIso, stampText_toList] at hc
    rcases List.mem_append.mp hc with hc | hc
    · exact absurd hc hfields
    · rcases List.mem_append.mp hc with hc | hc
      · exact absurd hc hfraction
      · rw [List.mem_singleton.mp hc] at hspace
        revert hspace
        decide

/-! ### The row -/

namespace RedactableMemory

variable {m : RedactableMemory} {metadata : Dict Json} {now : UtcMoment}

@[simp] theorem id_redacted : (m.redacted metadata now).id = m.id := rfl

@[simp] theorem metadataJson_redacted : (m.redacted metadata now).metadataJson = metadata := rfl

/-- The update writes a row its condition does not hold of. -/
theorem differs_redacted : (m.redacted metadata now).differs metadata = false := by
  simp [differs, redacted, MemoryRow.redacted, Function.comp_def]

/-- What the condition of the update denies, column by column. -/
theorem differs_eq_false_iff : m.differs metadata = false ↔
    m.memoryKey = "redacted." ++ m.id ∧ m.title.all (· == redactionMarker) = true ∧
      m.canonicalText = redactionMarker ∧ m.summary.all (· == redactionMarker) = true ∧
      m.trustReason.all (· == redactionMarker) = true ∧ m.value = redactedJsonValue ∧
      m.sourceEventIds = [] ∧ m.metadataJson = metadata ∧ m.commitDigest = none ∧
      m.confirmationId = none ∧ m.embedding = none ∧ m.factKeys = none ∧ m.status = .archived ∧
      m.deletedAt.isSome = true := by
  have hmarker : ∀ o : Option String,
      (o = o.map fun _ => redactionMarker) ↔ o.all (· == redactionMarker) = true := by
    intro o
    cases o <;> simp
  simp only [differs, Bool.or_eq_false_iff, bne_eq_false_iff_eq, hmarker, decide_eq_false_iff_not,
    ne_eq, not_not, Option.isSome_eq_false_iff, Option.isNone_iff_eq_none, and_assoc,
    Option.isNone_eq_false_iff]

end RedactableMemory

/-! ### Its metadata -/

section Metadata

variable {metadata : Dict Json} {stamp : String}

/-- The marker and the stamp, as they are read back. -/
theorem item_redactedMemoryMetadata :
    (redactedMemoryMetadata metadata stamp).item "redacted" = .bool true ∧
      (redactedMemoryMetadata metadata stamp).item "redacted_at" = .str stamp := by
  have hkeys : "redacted" ∉ structuralKeys ∧ "redacted_at" ∉ structuralKeys := by decide
  constructor
  · rw [Dict.item, redactedMemoryMetadata, Dict.get?_append, Dict.get?_pick, if_neg hkeys.1]
    rfl
  · rw [Dict.item, redactedMemoryMetadata, Dict.get?_append, Dict.get?_pick, if_neg hkeys.2]
    rfl

/-- Redacted metadata is redacted to itself. -/
theorem redactedMemoryMetadata_idem (stamp' : String) :
    redactedMemoryMetadata (redactedMemoryMetadata metadata stamp) stamp' =
      redactedMemoryMetadata metadata stamp' := by
  have hpick : (redactedMemoryMetadata metadata stamp).pick structuralKeys =
      metadata.pick structuralKeys := by
    refine Dict.pick_congr fun key hkey => ?_
    have hother : Dict.get? [("redacted", Json.bool true), ("redacted_at", .str stamp)] key =
        none := by
      have hne : "redacted" ≠ key ∧ "redacted_at" ≠ key := by
        constructor <;> rintro rfl <;> revert hkey <;> decide
      rw [Dict.get?_cons, if_neg hne.1, Dict.get?_cons, if_neg hne.2, Dict.get?_nil]
    rw [redactedMemoryMetadata, Dict.get?_append, hother, Option.or_none, Dict.get?_pick,
      if_pos hkey]
  unfold redactedMemoryMetadata at hpick ⊢
  rw [hpick]

theorem keys_redactedMemoryMetadata {item : String × Json}
    (h : item ∈ redactedMemoryMetadata metadata stamp) : item.1 ∈ redactedMemoryMetadataKeys := by
  rcases List.mem_append.mp h with hpick | hmarker
  · exact List.mem_append_left _ (Dict.keys_pick hpick)
  · have hkeys : item.1 ∈ ["redacted", "redacted_at"] := List.mem_map_of_mem hmarker
    exact List.mem_append_right _ hkeys

/-- A stamp: not blank, and without white space around it. -/
def IsStamp (stamp : String) : Prop := stamp ≠ "" ∧ strip stamp = stamp

theorem isStamp_utcNowIso (now : UtcMoment) : IsStamp (utcNowIso now) :=
  ⟨stampText_ne_empty true now, strip_utcNowIso now⟩

theorem redactedAtOf_redactedMemoryMetadata (h : IsStamp stamp) :
    redactedAtOf env (redactedMemoryMetadata metadata stamp) = stamp := by
  have htruthy : (Json.str stamp).truthy = true := by
    simpa [Json.truthy] using h.1
  rw [redactedAtOf, item_redactedMemoryMetadata.2, if_pos htruthy]
  exact h.2

end Metadata

/-! ### The shape of the row -/

/-- The row is in the form a redaction leaves, under the stamp. -/
def Marked (stamp : String) (m : RedactableMemory) : Prop :=
  m.differs (redactedMemoryMetadata m.metadataJson stamp) = false

namespace Marked

variable {m : RedactableMemory} {stamp : String}

theorem redacted {metadata : Dict Json} {now : UtcMoment} :
    Marked stamp (m.redacted (redactedMemoryMetadata metadata stamp) now) := by
  rw [Marked, RedactableMemory.metadataJson_redacted, redactedMemoryMetadata_idem]
  exact RedactableMemory.differs_redacted

theorem redactedAtOf (h : Marked stamp m) (hstamp : IsStamp stamp) :
    redactedAtOf env m.metadataJson = stamp := by
  obtain ⟨-, -, -, -, -, -, -, hmetadata, -⟩ := RedactableMemory.differs_eq_false_iff.mp h
  rw [hmetadata]
  exact redactedAtOf_redactedMemoryMetadata hstamp

/-- The shape the two row predicates share. -/
theorem markerShape (h : Marked stamp m) (hstamp : IsStamp stamp) {keys : List String}
    (hkeys : redactedMemoryMetadataKeys ⊆ keys) : m.markerShape env keys = true := by
  obtain ⟨-, htitle, htext, hsummary, htrust, hvalue, -, hmetadata, -, -, hembedding, hfactKeys,
    hstatus, hdeleted⟩ := RedactableMemory.differs_eq_false_iff.mp h
  have hsubset : ∀ key value, (key, value) ∈ m.metadataJson → key ∈ keys := by
    intro key value hitem
    rw [hmetadata] at hitem
    exact hkeys (keys_redactedMemoryMetadata hitem)
  have hmarked : m.metadataJson.item "redacted" = .bool true := by
    rw [hmetadata]
    exact item_redactedMemoryMetadata.1
  have hat : (AliceBot.redactedAtOf env m.metadataJson != "") = true := by
    rw [h.redactedAtOf hstamp, bne_iff_ne]
    exact hstamp.1
  simpa [RedactableMemory.markerShape, htitle, htext, hsummary, htrust, hvalue, hembedding,
    hfactKeys, hstatus, hdeleted, hmarked, hat, redactedJsonValue, equalsRedactedJsonValue,
    equalsTrue] using hsubset

theorem isPrior (h : Marked stamp m) (hstamp : IsStamp stamp) :
    m.isPriorRedactedMemoryMarker env = true :=
  h.markerShape hstamp (List.subset_append_left _ _)

theorem isRedacted (h : Marked stamp m) (hstamp : IsStamp stamp) {id : MemoryId}
    (hid : m.id = id.text) : m.isRedactedMemory env = true := by
  have hshape : m.markerShape env redactedMemoryMetadataKeys = true :=
    h.markerShape hstamp (List.Subset.refl _)
  obtain ⟨hkey, -, -, -, -, -, hsources, -, hdigest, hconfirmation, -⟩ :=
    RedactableMemory.differs_eq_false_iff.mp h
  have hstrip : strip m.id = m.id := by rw [hid, id.strip_text]
  have hne : m.id ≠ "" := by rw [hid]; exact id.nonempty
  simp [RedactableMemory.isRedactedMemory, hstrip, hne, hkey, hsources, hdigest, hconfirmation,
    hshape]

end Marked

/-! ### The other rows -/

theorem ProvenanceLink.selects_redacted {mid : String} (link : ProvenanceLink) :
    quoteSelects mid link.redacted = false := by
  simp [quoteSelects, ProvenanceLink.redacted]

namespace RevisionRecord

variable {mid : String} {r : RevisionRecord}

theorem selects_redacted (r : RevisionRecord) : (r.redacted mid).selects mid = false := by
  simp [selects, redacted, Function.comp_def]

/-- The trigger lets every rewrite of the sweep through. -/
theorem updateAdmitted_redacted (h : r.selects mid = true) :
    r.updateAdmitted true (r.redacted mid) = true := by
  have hid : r.memoryId = mid := by
    simp only [selects, Bool.and_eq_true, beq_iff_eq] at h
    exact h.1
  simp [updateAdmitted, redacted, hid, Function.comp_def]

/-- A revision of another memory is not touched. -/
theorem selects_redacted_of_ne {other : String} (hne : other ≠ mid) (h : r.selects other = true) :
    (r.redacted other).selects mid = false := by
  have hid : r.memoryId = other := by
    simp only [selects, Bool.and_eq_true, beq_iff_eq] at h
    exact h.1
  simp [selects, redacted, hid, hne]

/-- Whatever the exactness query objects to, the sweep selects. -/
theorem inexact_of_selects (h : r.selects mid = false) : r.inexact mid = false := by
  by_cases hid : r.memoryId = mid
  · subst hid
    simp only [selects, beq_self_eq_true, Bool.true_and, Bool.or_eq_false_iff, bne_eq_false_iff_eq,
      decide_eq_false_iff_not, ne_eq, not_not] at h
    obtain ⟨⟨⟨⟨⟨⟨⟨⟨hkey, hprevious⟩, hnew⟩, hsources⟩, hcandidate⟩, hbefore⟩, hafter⟩, hreason⟩,
      hmetadata⟩ := h
    -- Equal texts are equal values.
    have hvalue : ∀ o : Option JsonText, (o = o.map fun _ => { value := redactedJsonValue }) →
        o.map (·.value) = o.map fun _ => redactedJsonValue := by
      intro o ho
      cases o with
      | none => rfl
      | some text =>
        simp only [Option.map_some, Option.some.injEq] at ho
        rw [ho]
        rfl
    simp [inexact, ← hkey, ← hbefore, ← hreason, hafter, hsources, hcandidate, hmetadata,
      hvalue _ hprevious, hvalue _ hnew]
  · simp [inexact, hid]

end RevisionRecord

namespace EventRow

variable {mid : String} {e : EventRow}

@[simp] theorem payloadMemoryId_redacted : (e.redacted mid).payloadMemoryId = some mid := by
  simp [payloadMemoryId, redacted, redactedPayload, Dict.getStr?, Dict.get?_cons]

@[simp] theorem payloadCandidateMemoryId_redacted :
    (e.redacted mid).payloadCandidateMemoryId = none := by
  simp [payloadCandidateMemoryId, redacted, redactedPayload, Dict.getStr?, Dict.get?_cons]

theorem selects_redacted (e : EventRow) : (e.redacted mid).selects mid = false := by
  simp [selects, unredacted, redacted]

/-- A redaction keeps the receipts of all memories. -/
theorem isReceipt_redacted (other : String) :
    (e.redacted other).isReceipt mid = e.isReceipt mid := rfl

/-- The trigger admits the redaction of an event for one memory only. -/
theorem carries_unique {log : List EventRow} {other : String}
    (hadmitted : eventUpdateAdmitted true log e (e.redacted other) = true)
    (h : e.carries mid = true) : mid = other := by
  simp only [eventUpdateAdmitted, payloadMemoryId_redacted, Bool.and_eq_true, Bool.or_eq_true,
    bne_iff_ne, beq_iff_eq, Option.all_eq_true] at hadmitted
  obtain ⟨-, ⟨⟨⟨⟨⟨⟨-, htarget⟩, hmemory⟩, hcandidate⟩, -⟩, -⟩, -⟩⟩ := hadmitted
  simp only [carries, Bool.and_eq_true, Bool.or_eq_true, beq_iff_eq] at h
  rcases h with (⟨htype, hid⟩ | hpayload) | hpayload
  · rcases htarget with hne | htarget
    · exact absurd htype hne
    · exact Option.some.inj (hid.symm.trans htarget)
  · exact hmemory _ hpayload
  · exact hcandidate _ hpayload

/-- A redacted event carries no memory it did not carry before, but its own. -/
theorem carries_of_redacted {other : String} (h : (e.redacted other).carries mid = true) :
    mid = other ∨ e.carries mid = true := by
  simp only [carries, payloadMemoryId_redacted, payloadCandidateMemoryId_redacted,
    Bool.or_eq_true, beq_iff_eq, Option.some.injEq, reduceCtorEq, or_false] at h
  rcases h with htarget | rfl
  · exact Or.inr (by simp only [carries, Bool.or_eq_true]; exact Or.inl (Or.inl htarget))
  · exact Or.inl rfl

/-- The redaction of another memory wakes no event of this one. -/
theorem selects_redacted_of_ne {log : List EventRow} {other : String} (hne : mid ≠ other)
    (hadmitted : eventUpdateAdmitted true log e (e.redacted other) = true) :
    (e.redacted other).selects mid = false := by
  cases hselects : (e.redacted other).selects mid with
  | false => rfl
  | true =>
    simp only [selects, Bool.and_eq_true] at hselects
    rcases carries_of_redacted hselects.1 with hmid | hcarries
    · exact absurd hmid hne
    · exact absurd (carries_unique hadmitted hcarries) hne

end EventRow

/-! ### One redaction -/

/-- What a redaction that returns has done: the row it found, and the tables it
left. -/
structure RedactionStep (env : Env) (s : RedactionTables) (call : RedactionCall)
    (current : RedactableMemory) (report : RedactionReport) (t : RedactionTables) : Prop where
  found : s.memories.get? call.memoryId.text = some current
  memory : report.memory =
    if current.differs (redactedMemoryMetadata current.metadataJson (s.redactedAt env call current))
    then current.redacted
      (redactedMemoryMetadata current.metadataJson (s.redactedAt env call current)) call.updatedNow
    else current
  memories : ∀ id, t.memories.get? id =
    if id = call.memoryId.text then some report.memory else s.memories.get? id
  revisions : t.revisions =
    sweep (RevisionRecord.selects call.memoryId.text) (·.redacted call.memoryId.text) s.revisions
  provenance : t.provenance =
    sweep (quoteSelects call.memoryId.text) ProvenanceLink.redacted s.provenance
  events : t.events =
    sweep (EventRow.selects call.memoryId.text) (·.redacted call.memoryId.text) s.events ++
      if s.changes current
          (redactedMemoryMetadata current.metadataJson (s.redactedAt env call current))
      then [s.receipt call] else []
  admitted : ∀ e ∈ s.events, e.selects call.memoryId.text = true →
    ∃ log, eventUpdateAdmitted true log e (e.redacted call.memoryId.text) = true

/-- A redaction that returns, as a step: what it did to the row, to the logs and to the
quotes, and that both triggers admitted it. -/
theorem redactionStep_of_ok {s t : RedactionTables} {call : RedactionCall}
    {report : RedactionReport} (h : s.redactMemoryBundle env call = .ok (report, t)) :
    ∃ current, RedactionStep env s call current report t := by
  simp only [RedactionTables.redactMemoryBundle] at h
  split at h
  · cases h
  · split at h
    · cases h
    · next current hfound =>
      split at h
      · next revisions events hrevisions hevents =>
        split at h
        · cases h
        · obtain ⟨rfl, -⟩ := guardedSweep_some hrevisions
          obtain ⟨rfl, hadmitted⟩ := guardedSweep_some hevents
          simp only [Except.ok.injEq, Prod.mk.injEq] at h
          obtain ⟨rfl, rfl⟩ := h
          refine ⟨current, hfound, rfl, ?_, rfl, rfl, ?_, hadmitted⟩
          · -- the only row that is written is the one of the call
            intro id
            by_cases hid : id = call.memoryId.text
            · subst hid
              rw [if_pos rfl]
              dsimp only
              split
              · exact Table.get?_rewrite_self _ hfound
              · exact hfound
            · rw [if_neg hid]
              dsimp only
              split
              · exact Table.get?_rewrite_of_ne _ (Ne.symm hid)
              · rfl
          · dsimp only
            split <;> simp
      · cases h

namespace RedactionStep

variable {s t : RedactionTables} {call : RedactionCall} {current : RedactableMemory}
  {report : RedactionReport} {mid : String}

/-- The stamp is the one of an earlier redaction or a reading of the clock. -/
theorem isStamp_redactedAt : IsStamp (s.redactedAt env call current) := by
  unfold RedactionTables.redactedAt
  split
  · next h =>
    have hat : redactedAtOf env current.metadataJson ≠ "" := by
      have hprior := h.1
      simp only [RedactableMemory.isPriorRedactedMemoryMarker, RedactableMemory.markerShape,
        Bool.and_eq_true, bne_iff_ne] at hprior
      exact hprior.2
    exact ⟨hat, strip_strip _⟩
  · exact isStamp_utcNowIso call.redactedNow

/-- The row is in the marker shape, whether it was rewritten or not. -/
theorem marked (h : RedactionStep env s call current report t) :
    Marked (s.redactedAt env call current) report.memory := by
  rw [h.memory]
  split
  · exact Marked.redacted
  · next hsame =>
    have hsame := Bool.not_eq_true _ ▸ hsame
    exact hsame

theorem mem_events (h : RedactionStep env s call current report t) {e : EventRow}
    (he : e ∈ t.events) :
    (∃ e₀ ∈ s.events,
      (if e₀.selects call.memoryId.text then e₀.redacted call.memoryId.text else e₀) = e) ∨
      e = s.receipt call := by
  rw [h.events] at he
  rcases List.mem_append.mp he with he | he
  · exact Or.inl (mem_sweep.mp he)
  · split at he
    · exact Or.inr (List.mem_singleton.mp he)
    · cases he

/-- No receipt is lost. -/
theorem hasReceipt (h : RedactionStep env s call current report t)
    (hreceipt : s.hasReceipt mid = true) : t.hasReceipt mid = true := by
  obtain ⟨e, he, hmid⟩ := List.any_eq_true.mp hreceipt
  refine List.any_eq_true.mpr
    ⟨if e.selects call.memoryId.text then e.redacted call.memoryId.text else e, ?_, ?_⟩
  · rw [h.events]
    exact List.mem_append_left _ (mem_sweep.mpr ⟨e, he, rfl⟩)
  · split
    · rw [EventRow.isReceipt_redacted]
      exact hmid
    · exact hmid

/-- An event to scrub is a change, and a change leaves a receipt. -/
theorem hasReceipt_of_selects (h : RedactionStep env s call current report t) {e : EventRow}
    (he : e ∈ s.events) (hselects : e.selects call.memoryId.text = true) :
    t.hasReceipt call.memoryId.text = true := by
  have hid : current.id = call.memoryId.text := by simpa using Table.key_of_get? h.found
  have hchanges : s.changes current (redactedMemoryMetadata current.metadataJson
      (s.redactedAt env call current)) = true := by
    have hswept : swept (EventRow.selects call.memoryId.text) s.events ≠ 0 := by
      intro hzero
      rw [atRest_of_swept hzero e he] at hselects
      cases hselects
    simp [RedactionTables.changes, hid, hswept]
  refine List.any_eq_true.mpr ⟨s.receipt call, ?_, ?_⟩
  · rw [h.events, if_pos hchanges]
    exact List.mem_append_right _ (List.mem_singleton_self _)
  · simp [EventRow.isReceipt, RedactionTables.receipt]

/-- The redaction of another memory wakes no event of this one. -/
theorem atRest_events (h : RedactionStep env s call current report t)
    (hne : mid ≠ call.memoryId.text) (hrest : AtRest (EventRow.selects mid) s.events) :
    AtRest (EventRow.selects mid) t.events := by
  intro e he
  rcases h.mem_events he with ⟨e₀, he₀, rfl⟩ | rfl
  · split
    · next hselects =>
      obtain ⟨log, hadmitted⟩ := h.admitted e₀ he₀ hselects
      exact EventRow.selects_redacted_of_ne hne hadmitted
    · exact hrest e₀ he₀
  · have hother : (s.receipt call).carries mid = false := by
      simp [EventRow.carries, RedactionTables.receipt, EventRow.payloadMemoryId,
        EventRow.payloadCandidateMemoryId, redactedPayload, Dict.getStr?, Dict.get?_cons, hne.symm]
    rw [EventRow.selects, hother, Bool.false_and]

/-- Nor does it wake a provenance link. -/
theorem atRest_provenance (h : RedactionStep env s call current report t)
    (hrest : AtRest (quoteSelects mid) s.provenance) : AtRest (quoteSelects mid) t.provenance := by
  rw [h.provenance]
  refine hrest.sweep fun link _ _ _ => ?_
  simp [quoteSelects, ProvenanceLink.redacted]

end RedactionStep

/-! ### The log keeps up with the rows -/

/-- Of every row there is an event still to be scrubbed, or a receipt. -/
def Journalled (s : RedactionTables) : Prop :=
  ∀ row ∈ s.memories.rows, s.hasReceipt row.id = true ∨
    ∃ e ∈ s.events, e.selects row.id = true

namespace Journalled

variable {s t : RedactionTables}

theorem hasReceipt_mono {mid : String} (hevents : s.events ⊆ t.events)
    (h : s.hasReceipt mid = true) : t.hasReceipt mid = true := by
  obtain ⟨e, he, hmid⟩ := List.any_eq_true.mp h
  exact List.any_eq_true.mpr ⟨e, hevents he, hmid⟩

/-- Rows that were there before and a longer log. -/
theorem mono (h : Journalled s) (hevents : s.events ⊆ t.events)
    (hrows : ∀ row ∈ t.memories.rows, ∃ old ∈ s.memories.rows, old.id = row.id) : Journalled t := by
  intro row hrow
  obtain ⟨old, hold, hid⟩ := hrows row hrow
  rw [← hid]
  rcases h old hold with hreceipt | ⟨e, he, hselects⟩
  · exact Or.inl (hasReceipt_mono hevents hreceipt)
  · exact Or.inr ⟨e, hevents he, hselects⟩

/-- A redaction keeps the journal: its own memory has a receipt or its events, and those
of the others stay. -/
theorem redact (h : Journalled s) {call : RedactionCall} {current : RedactableMemory}
    {report : RedactionReport} (hstep : RedactionStep env s call current report t) :
    Journalled t := by
  intro row hrow
  have hold : ∃ old ∈ s.memories.rows, old.id = row.id := by
    have hget := hstep.memories row.id
    rw [Table.get?_of_mem hrow] at hget
    split at hget
    · next hid =>
      rw [hid]
      exact ⟨current, Table.mem_of_get? hstep.found, by simpa using Table.key_of_get? hstep.found⟩
    · exact ⟨row, Table.mem_of_get? hget.symm, rfl⟩
  obtain ⟨old, hmem, hid⟩ := hold
  rw [← hid]
  rcases h old hmem with hreceipt | ⟨e, he, hselects⟩
  · exact Or.inl (hstep.hasReceipt hreceipt)
  · by_cases hcall : old.id = call.memoryId.text
    · -- The call itself scrubs the event, and leaves its receipt.
      rw [hcall] at hselects ⊢
      exact Or.inl (hstep.hasReceipt_of_selects he hselects)
    · -- The trigger keeps the event out of the reach of the call.
      have hkept : e.selects call.memoryId.text = false := by
        cases hother : e.selects call.memoryId.text with
        | false => rfl
        | true =>
          obtain ⟨log, hadmitted⟩ := hstep.admitted e he hother
          have hcarries : e.carries old.id = true := by
            simp only [EventRow.selects, Bool.and_eq_true] at hselects
            exact hselects.1
          exact absurd (EventRow.carries_unique hadmitted hcarries) hcall
      refine Or.inr ⟨e, ?_, hselects⟩
      rw [hstep.events]
      exact List.mem_append_left _ (mem_sweep.mpr ⟨e, he, by simp [hkept]⟩)

/-- The creation of a row logs an event on it. -/
theorem selects_createdEvent (h : EventHeader) (memoryId : String) (fields : List String) :
    (createdEvent h memoryId fields).selects memoryId = true := by
  simp [EventRow.selects, EventRow.carries, EventRow.unredacted, createdEvent,
    EventHeader.event, redactedPayload]

/-- Each statement keeps the journal: of every memory there is a receipt or an event in
the log. -/
theorem apply (h : Journalled s) (w : StoreWrite) : Journalled (w.apply env s) := by
  cases w with
  | create row header fields =>
    -- a new row comes with the event of its creation
    simp only [StoreWrite.apply]
    split
    · next memories hinsert =>
      obtain ⟨-, hrows⟩ := Table.insert?_eq_some_iff.mp hinsert
      intro r hr
      have hr : r ∈ s.memories.rows ++ [row] := hrows ▸ hr
      rcases List.mem_append.mp hr with hr | hr
      · rcases h r hr with hreceipt | ⟨e, he, hselects⟩
        · exact Or.inl (hasReceipt_mono (List.subset_append_left _ _) hreceipt)
        · exact Or.inr ⟨e, List.mem_append_left _ he, hselects⟩
      · rw [List.mem_singleton.mp hr]
        exact Or.inr ⟨createdEvent header row.id fields,
          List.mem_append_right _ (List.mem_singleton_self _), selects_createdEvent ..⟩
    · exact h
  | update row =>
    refine h.mono (List.Subset.refl _) fun r hr => ?_
    obtain ⟨old, hold, rfl⟩ := List.mem_map.mp hr
    refine ⟨old, hold, ?_⟩
    dsimp only
    split <;> rfl
  | appendEvent event =>
    exact h.mono (List.subset_append_left _ _) fun r hr => ⟨r, hr, rfl⟩
  | appendRevision revision =>
    exact h.mono (List.Subset.refl _) fun r hr => ⟨r, hr, rfl⟩
  | linkProvenance link =>
    exact h.mono (List.Subset.refl _) fun r hr => ⟨r, hr, rfl⟩
  | redact call =>
    -- a redaction that fails is rolled back
    simp only [StoreWrite.apply]
    split
    · next t hok =>
      obtain ⟨current, hstep⟩ := redactionStep_of_ok hok
      exact h.redact hstep
    · exact h

/-- Every state the store gets into is journalled. -/
theorem after (h : Journalled s) (writes : List StoreWrite) : Journalled (s.after env writes) := by
  induction writes generalizing s with
  | nil => exact h
  | cons w writes ih => exact ih (h.apply w)

end Journalled

/-! ### The bundle at rest -/

/-- The bundle of a memory is redacted, and its row is the given one. -/
structure Bundle (s : RedactionTables) (mid : String) (row : RedactableMemory) : Prop where
  found : s.memories.get? mid = some row
  marked : ∃ stamp, IsStamp stamp ∧ Marked stamp row
  revisions : AtRest (RevisionRecord.selects mid) s.revisions
  events : AtRest (EventRow.selects mid) s.events
  provenance : AtRest (quoteSelects mid) s.provenance
  receipt : s.hasReceipt mid = true

section Bundle

variable {s t : RedactionTables} {call : RedactionCall} {current row : RedactableMemory}
  {report : RedactionReport} {mid : String}

/-- The exactness query, table by table. -/
theorem exact_iff {artifactIds : List String} :
    s.memoryRedactionBundleIsExact mid artifactIds = true ↔
      artifactIds = [] ∧ s.hasReceipt mid = true ∧
        (∃ row, s.memories.get? mid = some row ∧ row.embedding = none ∧ row.factKeys = none) ∧
        AtRest (RevisionRecord.inexact mid) s.revisions ∧
        AtRest (EventRow.selects mid) s.events ∧ AtRest (quoteSelects mid) s.provenance := by
  have hrow : (s.memories.rows.any fun row =>
        row.id == mid && row.embedding.isNone && row.factKeys.isNone) = true ↔
      ∃ row, s.memories.get? mid = some row ∧ row.embedding = none ∧ row.factKeys = none := by
    simp only [List.any_eq_true, Bool.and_eq_true, beq_iff_eq, Option.isNone_iff_eq_none,
      Table.get?_eq_some_iff, and_assoc]
  have hrest : ∀ {ρ : Type} (p : ρ → Bool) (rows : List ρ),
      (!rows.any p) = true ↔ AtRest p rows := by
    intro ρ p rows
    simp [AtRest]
  simp only [RedactionTables.memoryRedactionBundleIsExact, Bool.and_eq_true,
    List.isEmpty_iff, hrow, hrest, and_assoc]
  rfl

namespace Bundle

/-- A redaction of a journalled state leaves the bundle redacted. -/
theorem of_step (hlog : Journalled s) (h : RedactionStep env s call current report t) :
    Bundle t call.memoryId.text report.memory where
  found := by rw [h.memories, if_pos rfl]
  marked := ⟨_, RedactionStep.isStamp_redactedAt, h.marked⟩
  revisions := by
    rw [h.revisions]
    exact atRest_sweep fun r _ => RevisionRecord.selects_redacted r
  events := by
    have hsweep : AtRest (EventRow.selects call.memoryId.text)
        (sweep (EventRow.selects call.memoryId.text) (·.redacted call.memoryId.text) s.events) :=
      atRest_sweep fun e _ => EventRow.selects_redacted e
    intro e he
    rcases h.mem_events he with ⟨e₀, he₀, rfl⟩ | rfl
    · exact hsweep _ (mem_sweep.mpr ⟨e₀, he₀, rfl⟩)
    · -- The receipt is appended after the sweep, in the form the sweep gives.
      simp [EventRow.selects, EventRow.unredacted, RedactionTables.receipt]
  provenance := by
    rw [h.provenance]
    exact atRest_sweep fun link _ => ProvenanceLink.selects_redacted link
  receipt := by
    have hid : current.id = call.memoryId.text := by simpa using Table.key_of_get? h.found
    have hcurrent := hlog current (Table.mem_of_get? h.found)
    rw [hid] at hcurrent
    rcases hcurrent with hreceipt | ⟨e, he, hselects⟩
    · exact h.hasReceipt hreceipt
    · exact h.hasReceipt_of_selects he hselects

/-- The redaction of another memory leaves the bundle alone. -/
theorem step (hb : Bundle s mid row) (h : RedactionStep env s call current report t)
    (hne : mid ≠ call.memoryId.text) : Bundle t mid row where
  found := by rw [h.memories, if_neg hne]; exact hb.found
  marked := hb.marked
  revisions := by
    rw [h.revisions]
    exact hb.revisions.sweep fun r _ hr _ => RevisionRecord.selects_redacted_of_ne hne.symm hr
  events := h.atRest_events hne hb.events
  provenance := h.atRest_provenance hb.provenance
  receipt := h.hasReceipt hb.receipt

theorem exact (hb : Bundle s mid row) : s.memoryRedactionBundleIsExact mid [] = true := by
  obtain ⟨stamp, -, hmarked⟩ := hb.marked
  obtain ⟨-, -, -, -, -, -, -, -, -, -, hembedding, hfactKeys, -⟩ :=
    RedactableMemory.differs_eq_false_iff.mp hmarked
  refine exact_iff.mpr ⟨rfl, hb.receipt, ⟨row, hb.found, hembedding, hfactKeys⟩, ?_, hb.events,
    hb.provenance⟩
  exact fun r hr => RevisionRecord.inexact_of_selects (hb.revisions r hr)

/-- On a redacted bundle a redaction has nothing to do. -/
theorem again (hb : Bundle s call.memoryId.text row)
    (hartifacts : call.projectUpdateArtifacts = []) :
    s.redactMemoryBundle env call = .ok
      ({ memory := row, redactedRevisions := 0, redactedEvents := 0, redactedProvenanceLinks := 0,
         idempotentReplay := true }, s) := by
  obtain ⟨stamp, hstamp, hmarked⟩ := hb.marked
  have hid : row.id = call.memoryId.text := by simpa using Table.key_of_get? hb.found
  -- The first stamp is found again, so the metadata to write is the metadata there.
  have hat : s.redactedAt env call row = stamp := by
    rw [RedactionTables.redactedAt, if_pos ⟨hmarked.isPrior hstamp, hb.receipt⟩,
      hmarked.redactedAtOf hstamp]
  have hsame : row.differs (redactedMemoryMetadata row.metadataJson stamp) = false := hmarked
  have hchanges : s.changes row (redactedMemoryMetadata row.metadataJson stamp) = false := by
    simp [RedactionTables.changes, hid, hsame, hb.revisions.swept_eq, hb.events.swept_eq,
      hb.provenance.swept_eq]
  obtain ⟨-, -, -, -, -, -, -, -, -, -, hembedding, -⟩ :=
    RedactableMemory.differs_eq_false_iff.mp hsame
  simp only [RedactionTables.redactMemoryBundle, hartifacts, ne_eq, not_true_eq_false, if_false,
    hb.found, hat, hb.revisions.guardedSweep_eq, hb.events.guardedSweep_eq, List.nil_append, hsame,
    Bool.false_eq_true, false_and, hchanges, Bool.not_false, hembedding, Option.isSome_none,
    hb.revisions.swept_eq, hb.events.swept_eq, hb.provenance.swept_eq, hb.provenance.sweep_eq]

/-- No sequence of redactions of other memories disturbs the bundle. -/
theorem after (hb : Bundle s mid row) {others : List RedactionCall}
    (hothers : ∀ other ∈ others, mid ≠ other.memoryId.text) :
    Bundle (s.after env (others.map .redact)) mid row := by
  induction others generalizing s with
  | nil => exact hb
  | cons other others ih =>
    refine ih ?_ fun o ho => hothers o (List.mem_cons_of_mem _ ho)
    simp only [StoreWrite.apply]
    split
    · next t hok =>
      obtain ⟨current, hstep⟩ := redactionStep_of_ok hok
      exact hb.step hstep (hothers other List.mem_cons_self)
    · exact hb

end Bundle

/-- The redaction of another memory keeps an exact bundle exact, however it
came to be so. -/
theorem exact_of_step {artifactIds : List String} (h : RedactionStep env s call current report t)
    (hne : mid ≠ call.memoryId.text)
    (hexact : s.memoryRedactionBundleIsExact mid artifactIds = true) :
    t.memoryRedactionBundleIsExact mid artifactIds = true := by
  obtain ⟨hartifacts, hreceipt, hrow, hrevisions, hevents, hprovenance⟩ := exact_iff.mp hexact
  refine exact_iff.mpr ⟨hartifacts, h.hasReceipt hreceipt, ?_, ?_, h.atRest_events hne hevents,
    h.atRest_provenance hprovenance⟩
  · rw [h.memories, if_neg hne]
    exact hrow
  · rw [h.revisions]
    refine hrevisions.sweep fun r _ hr _ => ?_
    exact RevisionRecord.inexact_of_selects (RevisionRecord.selects_redacted_of_ne hne.symm hr)

end Bundle

/-! ### The result -/

/-- The tables of a new user. -/
def RedactionTables.new (userId : String) : RedactionTables :=
  { userId := userId, memories := default }

/-- Whatever was stored, a redaction that returns is complete, and it is the
last: in any state that redactions of other memories lead to, the bundle is
exact and a second redaction changes nothing, returns the row as it is, first
stamp included, and reports a replay. Nor does the redaction of another memory
ever make an exact bundle inexact. -/
theorem redaction_complete_and_idempotent {userId : String} {writes : List StoreWrite}
    {call : RedactionCall} {report : RedactionReport} {t : RedactionTables}
    (h : ((RedactionTables.new userId).after env writes).redactMemoryBundle env call =
      .ok (report, t)) :
    t.memories.get? call.memoryId.text = some report.memory ∧
      report.memory.isRedactedMemory env = true ∧
      t.memoryRedactionBundleIsExact call.memoryId.text [] = true ∧
      (∀ others : List RedactionCall,
        (∀ other ∈ others, call.memoryId.text ≠ other.memoryId.text) →
          (t.after env (others.map .redact)).memoryRedactionBundleIsExact call.memoryId.text [] =
              true ∧
            ∀ again : RedactionCall, again.memoryId = call.memoryId →
              again.projectUpdateArtifacts = [] →
              (t.after env (others.map .redact)).redactMemoryBundle env again =
                .ok
                  ({ memory := report.memory, redactedRevisions := 0, redactedEvents := 0,
                     redactedProvenanceLinks := 0, idempotentReplay := true },
                    t.after env (others.map .redact))) ∧
      ∀ (s u : RedactionTables) (other : RedactionCall) (otherReport : RedactionReport),
        call.memoryId.text ≠ other.memoryId.text →
        s.redactMemoryBundle env other = .ok (otherReport, u) →
        s.memoryRedactionBundleIsExact call.memoryId.text [] = true →
        u.memoryRedactionBundleIsExact call.memoryId.text [] = true := by
  have hlog : Journalled ((RedactionTables.new userId).after env writes) :=
    Journalled.after (fun row hrow => absurd hrow (List.not_mem_nil)) writes
  -- the bundle is what the step leaves behind, and every redaction of another memory keeps it
  obtain ⟨current, hstep⟩ := redactionStep_of_ok h
  have hbundle : Bundle t call.memoryId.text report.memory := .of_step hlog hstep
  obtain ⟨stamp, hstamp, hmarked⟩ := hbundle.marked
  have hid : report.memory.id = call.memoryId.text := by
    simpa using Table.key_of_get? hbundle.found
  refine ⟨hbundle.found, hmarked.isRedacted hstamp hid, hbundle.exact, ?_, ?_⟩
  · intro others hothers
    have hlater : Bundle (t.after env (others.map .redact)) call.memoryId.text report.memory :=
      hbundle.after hothers
    refine ⟨hlater.exact, fun again hagain hartifacts => ?_⟩
    rw [← hagain] at hlater
    exact hlater.again hartifacts
  · intro s u other otherReport hne hother hexact
    obtain ⟨current', hstep'⟩ := redactionStep_of_ok hother
    exact exact_of_step hstep' hne hexact

/-- The id of a note. -/
def noteId : MemoryId where
  text := "c0ffee00-0000-4000-8000-000000000001"
  nonempty := by decide
  uuid := List.all_eq_true.mp (by decide)

/-- A note that is still live, with a vector, a digest and metadata of its own. -/
def noteRow : RedactableMemory where
  id := noteId.text
  memoryKey := "agent.note.1"
  value := .obj [("text", .str "the door code is 4711")]
  status := .active
  memoryType := "semantic"
  confidence := none
  confirmationStatus := "unconfirmed"
  promotionEligibility := "promotable"
  validFrom := none
  validTo := none
  lastConfirmedAt := none
  title := some "Door code"
  canonicalText := "the door code is 4711"
  summary := none
  domain := "personal"
  sensitivity := "private"
  lastReviewedAt := none
  metadataJson := [("source_refs", .arr [.str "mail-7"]), ("project_id", .str "house")]
  commitDigest := some "digest"
  confirmationId := none
  projectId := some "house"
  createdByAgentId := none
  runId := none
  supersededBy := none
  supersedes := none
  createdAt := noon
  updatedAt := noon
  deletedAt := none
  trustReason := some "told by the user"
  sourceEventIds := [.str "e0"]
  embedding := some [1, 0]

/-- The note, a revision of it that was its first, a quote, and an event that
names it. -/
def noteWrites : List StoreWrite :=
  [.create noteRow { id := "e1", userId := "u1", actorType := "agent", occurredAt := "t1" }
      ["canonical_text"],
    .appendRevision
      { id := "r1", memoryId := noteId.text, sequenceNo := 1, action := "ADD",
        memoryKey := "agent.note.1", previousValue := none,
        newValue := some { value := noteRow.value }, sourceEventIds := .arr [],
        candidate := .obj [], revisionNumber := 1, revisionType := "created", textBefore := none,
        textAfter := "the door code is 4711", reason := none, actorType := "agent",
        actorId := none, metadataJson := .obj [], createdAt := "t1" },
    .linkProvenance
      { id := "p1", targetType := "memory", targetId := noteId.text, quote := some "4711" },
    .appendEvent
      { id := "e2", userId := "u1", eventType := "retrieval.used", actorType := "agent",
        actorId := none, targetType := some "query", targetId := some "q1", occurredAt := "t2",
        payloadJson := [("memory_id", .str noteId.text)], traceId := none, runId := none,
        integrityHash := some "h2" }]

def noteRedaction : RedactionCall :=
  { memoryId := noteId, redactedNow := noon, updatedNow := noon, receiptId := "e3",
    receiptNow := noon }

theorem redaction_complete_and_idempotent_note :
    ∃ report t, ((RedactionTables.new "u1").after .plain noteWrites).redactMemoryBundle .plain
        noteRedaction = .ok (report, t) ∧
      (report.redactedRevisions = 1 ∧ report.redactedEvents = 2 ∧
        report.redactedProvenanceLinks = 1 ∧ report.idempotentReplay = false) ∧
      report.memory.isRedactedMemory .plain = true ∧
      t.memoryRedactionBundleIsExact noteId.text [] = true ∧
      ∃ replay, t.redactMemoryBundle .plain noteRedaction = .ok (replay, t) ∧
        replay.idempotentReplay = true := by
  have hrun : (((RedactionTables.new "u1").after .plain noteWrites).redactMemoryBundle .plain
      noteRedaction).toOption.any (fun result => decide (result.1.redactedRevisions = 1 ∧
        result.1.redactedEvents = 2 ∧ result.1.redactedProvenanceLinks = 1 ∧
        result.1.idempotentReplay = false)) = true := by
    decide +kernel
  -- the redaction returns, and the theorem speaks of what it returned
  cases hok : ((RedactionTables.new "u1").after .plain noteWrites).redactMemoryBundle .plain
      noteRedaction with
  | error e =>
    rw [hok] at hrun
    cases hrun
  | ok result =>
    rw [hok] at hrun
    obtain ⟨-, hredacted, hexact, hlater, -⟩ := redaction_complete_and_idempotent hok
    obtain ⟨-, hagain⟩ := hlater [] (by simp)
    exact ⟨result.1, result.2, rfl, of_decide_eq_true hrun, hredacted, hexact, _,
      hagain noteRedaction rfl rfl, rfl⟩

end AliceBot
