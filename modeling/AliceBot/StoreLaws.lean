import AliceBot.Consolidation

/-!
# Laws of the store

What one store operation does, stated once. `Quiet` relates two stores with
the same memories, the later one with more events and a later clock: audit
rows, policy checks and every other step that writes no memory. `updateMemory`
and `createMemory` get a law each, in terms of the rows `get?` reads.
-/

namespace AliceBot

open PyLib

/-! ### Steps that write no memory -/

/-- The clock went on and the event log grew. -/
structure Later (s t : Store) : Prop where
  ticks : s.ticks ≤ t.ticks
  events : s.events <+: t.events

/-- No memory was written. -/
structure Quiet (s t : Store) : Prop extends Later s t where
  memories : t.memories = s.memories

instance : Std.Refl Later where
  refl _ := ⟨Nat.le_refl _, List.prefix_refl _⟩

instance : IsTrans Store Later where
  trans _ _ _ h₁ h₂ := ⟨h₁.ticks.trans h₂.ticks, h₁.events.trans h₂.events⟩

instance : Std.Refl Quiet where
  refl s := ⟨Std.Refl.refl s, rfl⟩

instance : IsTrans Store Quiet where
  trans _ _ _ h₁ h₂ :=
    ⟨IsTrans.trans _ _ _ h₁.toLater h₂.toLater, h₂.memories.trans h₁.memories⟩

theorem Quiet.getMemory {s t : Store} (h : Quiet s t) (id : String) :
    t.getMemory id = s.getMemory id := by
  rw [Store.getMemory, Store.getMemory, h.memories]

variable (env : Env)

theorem quiet_utcNow : Moves Quiet (utcNow env) :=
  Moves.modifyGet fun _ => ⟨⟨Nat.le_succ _, List.prefix_refl _⟩, rfl⟩

theorem quiet_newId : Moves Quiet (newId env) :=
  Moves.modifyGet fun _ => ⟨⟨Nat.le_succ _, List.prefix_refl _⟩, rfl⟩

theorem quiet_appendEvent (eventType : String) (actor : Actor)
    (targetType targetId : Option String) :
    Moves Quiet (appendEvent env eventType actor targetType targetId) :=
  Moves.bind (quiet_newId env) fun _ => Moves.bind (quiet_utcNow env) fun _ =>
    Moves.modify fun _ => ⟨⟨Nat.le_refl _, List.prefix_append _ _⟩, rfl⟩

theorem quiet_appendMemoryEvent (eventType : String) (actor : Actor) (memoryId : String) :
    Moves Quiet (appendMemoryEvent env eventType actor memoryId) :=
  quiet_appendEvent env _ _ _ _

theorem quiet_appendDerivedEvents (eventTypes : List String) (actor : Actor) (memoryId : String) :
    Moves Quiet (appendDerivedEvents env eventTypes actor memoryId) :=
  Moves.forM (fun _ => quiet_appendMemoryEvent env _ _ _) _

theorem quiet_createMemoryProvenanceLink (memory : MemoryRow) (actorType sourceId : String) :
    Moves Quiet (createMemoryProvenanceLink env memory actorType sourceId) :=
  Moves.bind (quiet_newId env) fun _ => Moves.bind (quiet_utcNow env) fun _ =>
    Moves.bind (Moves.raiseIf _ _) fun _ => quiet_appendMemoryEvent env _ _ _

theorem quiet_appendRevision (revision : RevisionRow) : Moves Quiet (appendRevision revision) :=
  Moves.modify fun _ => ⟨⟨Nat.le_refl _, List.prefix_refl _⟩, rfl⟩

theorem quiet_reviseMemory (memory updated : MemoryRow)
    (revisionType action textAfter reason : String) (actor : Actor) :
    Moves Quiet (reviseMemory memory updated revisionType action textAfter reason actor) :=
  quiet_appendRevision _

theorem quiet_upsertIdentity (identity : Option AgentIdentity) :
    Moves Quiet (upsertIdentity env identity) := by
  cases identity with
  | none => exact Moves.pure _
  | some agent => exact Moves.bind (quiet_newId env) fun _ => quiet_appendEvent env _ _ _ _

theorem quiet_appendPolicyEvents (identity : Option AgentIdentity) (decision : PolicyDecision)
    (targetType targetId : Option String) :
    Moves Quiet (appendPolicyEvents env identity decision targetType targetId) := by
  cases identity with
  | none => exact Moves.pure _
  | some agent =>
    refine Moves.bind (quiet_appendEvent env _ _ _ _) fun _ => ?_
    split
    · exact quiet_appendEvent env _ _ _ _
    · exact quiet_appendEvent env _ _ _ _
    · exact Moves.pure _

theorem quiet_policyCheckedWrite (identity : Option AgentIdentity) (action : String)
    (memory : MemoryRow) : Moves Quiet (policyCheckedWrite env identity action memory) :=
  Moves.bind (quiet_upsertIdentity env identity) fun _ => Moves.bind (quiet_newId env) fun _ =>
    Moves.bind (quiet_appendPolicyEvents env identity _ _ _) fun _ =>
      Moves.bind (Moves.raiseIf _ _) fun _ => Moves.pure _

theorem returns_appendEvent (eventType : String) (actor : Actor)
    (targetType targetId : Option String) :
    Returns (appendEvent env eventType actor targetType targetId) :=
  Returns.bind (Returns.modifyGet _) fun _ => Returns.bind (Returns.modifyGet _) fun _ =>
    Returns.modify _

theorem returns_upsertIdentity (identity : Option AgentIdentity) :
    Returns (upsertIdentity env identity) := by
  cases identity with
  | none => exact Returns.pure _
  | some agent => exact Returns.bind (Returns.modifyGet _) fun _ => returns_appendEvent env _ _ _ _

theorem returns_appendPolicyEvents (identity : Option AgentIdentity) (decision : PolicyDecision)
    (targetType targetId : Option String) :
    Returns (appendPolicyEvents env identity decision targetType targetId) := by
  cases identity with
  | none => exact Returns.pure _
  | some agent =>
    refine Returns.bind (returns_appendEvent env _ _ _ _) fun _ => ?_
    split
    · exact returns_appendEvent env _ _ _ _
    · exact returns_appendEvent env _ _ _ _
    · exact Returns.pure _

/-- The policy lets the caller write the row. -/
def MayWrite (identity : Option AgentIdentity) (action : String) (memory : MemoryRow) : Prop :=
  (evaluateAgentPolicy env.rx identity (memory.writeRequest action) "").decision ≠ .blocked

/-- The decision does not depend on the trace it is logged under. -/
theorem evaluateAgentPolicy_decision_trace (identity : Option AgentIdentity) (req : PolicyRequest)
    (traceId : String) : (evaluateAgentPolicy env.rx identity req traceId).decision =
      (evaluateAgentPolicy env.rx identity req "").decision := by
  cases identity <;> rfl

theorem policyCheckedWrite_ok {identity : Option AgentIdentity} {action : String}
    {memory : MemoryRow} {decision : PolicyDecision} {s t : Store}
    (h : (policyCheckedWrite env identity action memory).run s = .ok decision t) :
    MayWrite env identity action memory := by
  simp only [policyCheckedWrite, run_bind_ok, run_raiseIf_ok, run_pure_ok] at h
  obtain ⟨_, _, -, traceId, _, -, _, _, -, _, _, ⟨hallowed, -⟩, -, -⟩ := h
  rw [MayWrite, ← evaluateAgentPolicy_decision_trace env identity _ traceId]
  exact hallowed

/-- The check raises for no other reason. -/
theorem policyCheckedWrite_returns {identity : Option AgentIdentity} {action : String}
    {memory : MemoryRow} (h : MayWrite env identity action memory) :
    Returns (policyCheckedWrite env identity action memory) := by
  refine Returns.bind (returns_upsertIdentity env _) fun _ =>
    Returns.bind (Returns.modifyGet _) fun traceId =>
      Returns.bind (returns_appendPolicyEvents env _ _ _ _) fun _ => ?_
  rw [MayWrite, ← evaluateAgentPolicy_decision_trace env identity _ traceId] at h
  intro s
  exact ⟨_, s, run_bind_ok.mpr ⟨(), s, run_raiseIf_ok.mpr ⟨h, rfl⟩, rfl⟩⟩

theorem quiet_requireTransition (operation : LifecycleOperation) (current : MemoryStatus) :
    Moves Quiet (requireTransition operation current) := by
  unfold requireTransition
  split
  · exact Moves.pure _
  · exact Moves.throw _

theorem quiet_normalizedText (value fieldName : String) :
    Moves Quiet (normalizedText value fieldName) :=
  Moves.ite (fun _ => Moves.throw _) fun _ => Moves.pure _

theorem quiet_lockedMemory (memoryId missing : String) :
    Moves Quiet (lockedMemory memoryId missing) :=
  Moves.bind Moves.get fun _ => Moves.orRaise _ _

/-! ### Updating a row -/

variable {env}

/-- **What `update_memory` does.** It finds the row, and leaves the patched one
in its place. -/
theorem updateMemory_ok {memoryId : String} {patch : MemoryPatch} {actor : Actor} {s t : Store}
    {updated : MemoryRow} (h : (updateMemory env memoryId patch actor).run s = .ok updated t) :
    ∃ row, s.getMemory memoryId = some row ∧
      updated = patch.apply (env.clock.read s.ticks) (env.clock.read (s.ticks + 1)) row ∧
      t.memories = s.memories.rewrite memoryId
        (patch.rewrite (env.clock.read s.ticks) (env.clock.read (s.ticks + 1))) ∧ Later s t := by
  simp only [updateMemory, utcNow, run_bind_ok, run_modifyGet_ok, run_get_ok, run_orRaise_ok,
    run_raiseIf_ok, run_set_ok, run_pure_ok] at h
  obtain ⟨now, s₁, ⟨rfl, rfl⟩, deletedNow, s₂, ⟨rfl, rfl⟩, s₃, s₄, ⟨rfl, rfl⟩, row, s₅,
    ⟨hrow, rfl⟩, _, s₆, ⟨-, rfl⟩, _, s₇, rfl, _, s₈, hevent, rfl, rfl⟩ := h
  have hquiet := (quiet_appendMemoryEvent env _ _ _).ok hevent
  refine ⟨row, hrow, rfl, hquiet.memories, ⟨?_, hquiet.events⟩⟩
  exact (Nat.le_add_right s.ticks 2).trans hquiet.ticks

/-- An event is always logged. -/
theorem appendMemoryEvent_ne_error {eventType : String} {actor : Actor} {memoryId : String}
    {s t : Store} {e : ServiceError} :
    (appendMemoryEvent env eventType actor memoryId).run s ≠ .error e t := by
  simp [appendMemoryEvent, appendEvent, newId, utcNow]

/-- An update that raises writes nothing. It found no row, or a column out of
range. -/
theorem updateMemory_error {memoryId : String} {patch : MemoryPatch} {actor : Actor} {s t : Store}
    {e : ServiceError} (h : (updateMemory env memoryId patch actor).run s = .error e t) :
    Quiet s t ∧ ((∃ message, e = .storeInvariant message) ∨ e = .integrity) := by
  simp only [updateMemory, utcNow, run_bind_error, run_modifyGet_error, run_modifyGet_ok,
    run_get_error, run_get_ok, run_orRaise_error, run_orRaise_ok, run_raiseIf_error,
    run_raiseIf_ok, run_set_error, run_pure_error, false_or, or_false, and_false, exists_false,
    appendMemoryEvent_ne_error] at h
  obtain ⟨now, s₁, ⟨-, rfl⟩, deletedNow, s₂, ⟨-, rfl⟩, s₃, s₄, ⟨rfl, rfl⟩, h⟩ := h
  have hticks : s.ticks ≤ s.ticks + 1 + 1 := Nat.le_add_right s.ticks 2
  rcases h with ⟨-, rfl, rfl⟩ | ⟨row, s₅, ⟨-, rfl⟩, -, rfl, rfl⟩
  · exact ⟨⟨⟨hticks, List.prefix_refl _⟩, rfl⟩, .inl ⟨_, rfl⟩⟩
  · exact ⟨⟨⟨hticks, List.prefix_refl _⟩, rfl⟩, .inr rfl⟩

/-- An update raises where there is no row, or where the patched one fails its
checks. -/
theorem updateMemory_returns {memoryId : String} {patch : MemoryPatch} {actor : Actor} {s : Store}
    {row : MemoryRow} (hrow : s.getMemory memoryId = some row)
    (hchecks : ∀ now deletedNow, (patch.apply now deletedNow row).checks = true) :
    ∃ updated t, (updateMemory env memoryId patch actor).run s = .ok updated t := by
  cases hrun : (updateMemory env memoryId patch actor).run s with
  | ok updated t => exact ⟨updated, t, rfl⟩
  | error e t =>
    simp only [updateMemory, utcNow, run_bind_error, run_modifyGet_error, run_modifyGet_ok,
      run_get_error, run_get_ok, run_orRaise_error, run_orRaise_ok, run_raiseIf_error,
      run_raiseIf_ok, run_set_error, run_pure_error, false_or, or_false, and_false, exists_false,
      appendMemoryEvent_ne_error] at hrun
    obtain ⟨now, s₁, ⟨-, rfl⟩, deletedNow, s₂, ⟨-, rfl⟩, s₃, s₄, ⟨rfl, rfl⟩, hrun⟩ := hrun
    have hfound : Store.getMemory { s with ticks := s.ticks + 1 + 1 } memoryId = some row := hrow
    rcases hrun with ⟨hnone, -, -⟩ | ⟨found, s₅, ⟨hsome, rfl⟩, hfails, -, -⟩
    · rw [hfound] at hnone
      exact absurd hnone (by simp)
    · obtain rfl : found = row := Option.some.inj (hsome.symm.trans hfound)
      rw [hchecks] at hfails
      exact absurd hfails (by simp)

theorem Store.getMemory_eq_some_iff {s : Store} {id : String} {row : MemoryRow} :
    s.getMemory id = some row ↔ s.memories.get? id = some row ∧ row.deletedAt = none := by
  simp [Store.getMemory, Option.filter_eq_some_iff, MemoryRow.present, Option.isNone_iff_eq_none]

theorem Store.id_of_getMemory {s : Store} {id : String} {row : MemoryRow}
    (h : s.getMemory id = some row) : row.id = id :=
  Table.key_of_get? (Store.getMemory_eq_some_iff.mp h).1

/-- The rows after an update. -/
theorem updateMemory_get? {memoryId : String} {patch : MemoryPatch} {actor : Actor} {s t : Store}
    {updated : MemoryRow} (h : (updateMemory env memoryId patch actor).run s = .ok updated t)
    (id : String) :
    t.memories.get? id = if memoryId = id then some updated else s.memories.get? id := by
  obtain ⟨row, hrow, rfl, hmemories, -⟩ := updateMemory_ok h
  rw [hmemories, Table.get?_rewrite]
  split
  · next hid =>
    subst hid
    rw [(Store.getMemory_eq_some_iff.mp hrow).1]
    rfl
  · rfl

/-- The row is found as it was left. -/
theorem updateMemory_getMemory {memoryId : String} {patch : MemoryPatch} {actor : Actor}
    {s t : Store} {updated : MemoryRow}
    (h : (updateMemory env memoryId patch actor).run s = .ok updated t)
    (hstatus : patch.status ≠ some .archived) : t.getMemory memoryId = some updated := by
  obtain ⟨row, hrow, hupdated, -⟩ := updateMemory_ok h
  rw [Store.getMemory_eq_some_iff] at hrow ⊢
  refine ⟨?_, ?_⟩
  · rw [updateMemory_get? h, if_pos rfl]
  · rw [hupdated, MemoryPatch.apply, if_neg hstatus]
    exact hrow.2

/-- It passed its checks. -/
theorem updateMemory_checks {memoryId : String} {patch : MemoryPatch} {actor : Actor}
    {s t : Store} {updated : MemoryRow}
    (h : (updateMemory env memoryId patch actor).run s = .ok updated t) :
    updated.checks = true := by
  simp only [updateMemory, run_bind_ok, run_raiseIf_ok, run_pure_ok] at h
  obtain ⟨_, _, -, _, _, -, _, _, -, row, _, -, _, _, ⟨hchecks, -⟩, _, _, -, _, _, -, rfl, -⟩ := h
  exact Bool.eq_true_of_not_eq_false hchecks

theorem Store.getMemory_congr {s t : Store} {id : String}
    (h : t.memories.get? id = s.memories.get? id) :
    t.getMemory id = s.getMemory id := by
  rw [Store.getMemory, Store.getMemory, h]

/-! ### Inserting a row -/

/-- **What `create_memory` does.** The row has a new id and a digest no other
row has. -/
theorem createMemory_ok {memory : NewMemory} {actor : Actor} {s t : Store} {row : MemoryRow}
    (h : (createMemory env memory actor).run s = .ok row t) :
    (∃ id now, row = memory.row id now) ∧ s.memories.get? row.id = none ∧
      (∀ id, t.memories.get? id = if row.id = id then some row else s.memories.get? id) ∧
      Later s t := by
  simp only [createMemory, newId, utcNow, run_bind_ok, run_modifyGet_ok, run_get_ok,
    run_orRaise_ok, run_raiseIf_ok, run_set_ok, run_pure_ok] at h
  obtain ⟨id, s₁, ⟨rfl, rfl⟩, now, s₂, ⟨rfl, rfl⟩, s₃, s₄, ⟨rfl, rfl⟩, _, s₅, ⟨-, rfl⟩, _, s₆,
    ⟨-, rfl⟩, memories, s₇, ⟨hinsert, rfl⟩, _, s₈, rfl, _, s₉, hevent, rfl, rfl⟩ := h
  have hquiet := (quiet_appendMemoryEvent env _ _ _).ok hevent
  refine ⟨⟨_, _, rfl⟩, (Table.insert?_eq_some_iff.mp hinsert).1, ?_, ⟨?_, hquiet.events⟩⟩
  · intro k
    rw [hquiet.memories]
    exact Table.get?_insert? hinsert k
  · exact (Nat.le_add_right s.ticks 2).trans hquiet.ticks

/-- An insertion that raises writes nothing. It found a digest or a key taken, or
a column out of range. -/
theorem createMemory_error {memory : NewMemory} {actor : Actor} {s t : Store} {e : ServiceError}
    (h : (createMemory env memory actor).run s = .error e t) :
    Quiet s t ∧ ((∃ message, e = .storeInvariant message) ∨ e = .integrity) := by
  simp only [createMemory, newId, utcNow, run_bind_error, run_modifyGet_error, run_modifyGet_ok,
    run_get_error, run_get_ok, run_orRaise_error, run_orRaise_ok, run_raiseIf_error,
    run_raiseIf_ok, run_set_error, run_pure_error, false_or, or_false, and_false, exists_false,
    appendMemoryEvent_ne_error] at h
  obtain ⟨id, s₁, ⟨-, rfl⟩, now, s₂, ⟨-, rfl⟩, s₃, s₄, ⟨rfl, rfl⟩, h⟩ := h
  have hticks : s.ticks ≤ s.ticks + 1 + 1 := Nat.le_add_right s.ticks 2
  rcases h with ⟨-, rfl, rfl⟩ | ⟨_, s₅, ⟨-, rfl⟩, ⟨-, rfl, rfl⟩ | ⟨_, s₆, ⟨-, rfl⟩, -, rfl, rfl⟩⟩
  · exact ⟨⟨⟨hticks, List.prefix_refl _⟩, rfl⟩, .inl ⟨_, rfl⟩⟩
  · exact ⟨⟨⟨hticks, List.prefix_refl _⟩, rfl⟩, .inr rfl⟩
  · exact ⟨⟨⟨hticks, List.prefix_refl _⟩, rfl⟩, .inr rfl⟩

/-! ### Metadata alone -/

/-- `t` differs from `s` in the metadata of one row at most. -/
theorem rewriteMetadata_get? {memoryId : String} {f : Dict Json → Dict Json} {s t : Store}
    {u : Unit} (h : (rewriteMetadata memoryId f).run s = .ok u t) (id : String) :
    t.memories.get? id =
      if memoryId = id then (s.memories.get? id).map (metadataRewrite f).apply
      else s.memories.get? id := by
  obtain rfl := run_modify_ok.mp h
  exact Table.get?_rewrite _ _ _ _

theorem metadataRewrite_apply (f : Dict Json → Dict Json) (row : MemoryRow) :
    (metadataRewrite f).apply row =
      if row.present then { row with metadataJson := f row.metadataJson } else row := rfl

/-- `t` differs from `s` in the embedding signature of one row at most. -/
structure Resigned (memoryId : String) (s t : Store) : Prop where
  absent : ∀ id, s.memories.get? id = none → t.memories.get? id = none
  row : ∀ id row, s.memories.get? id = some row →
    ∃ metadata, t.memories.get? id = some { row with metadataJson := metadata } ∧
      (∀ key, key ≠ embeddingSignatureKey → metadata.get? key = row.metadataJson.get? key) ∧
      (id ≠ memoryId → metadata = row.metadataJson)

instance (memoryId : String) : Std.Refl (Resigned memoryId) where
  refl _ := ⟨fun _ h => h, fun _ row h => ⟨row.metadataJson, h, fun _ _ => rfl, fun _ => rfl⟩⟩

instance (memoryId : String) : IsTrans Store (Resigned memoryId) where
  trans s t u h₁ h₂ := by
    refine ⟨fun id h => h₂.absent id (h₁.absent id h), fun id row h => ?_⟩
    obtain ⟨metadata, ht, hkeys, hsame⟩ := h₁.row id row h
    obtain ⟨metadata', hu, hkeys', hsame'⟩ := h₂.row id _ ht
    refine ⟨metadata', hu, fun key hkey => ?_, fun hid => ?_⟩
    · exact (hkeys' key hkey).trans (hkeys key hkey)
    · exact (hsame' hid).trans (hsame hid)

theorem Resigned.get?_of_ne {memoryId : String} {s t : Store} (h : Resigned memoryId s t)
    {id : String} (hid : id ≠ memoryId) : t.memories.get? id = s.memories.get? id := by
  cases hrow : s.memories.get? id with
  | none => exact h.absent id hrow
  | some row =>
    obtain ⟨metadata, ht, -, hsame⟩ := h.row id row hrow
    rw [ht, hsame hid]

/-- The row itself is still found, with its other metadata. -/
theorem Resigned.getMemory {memoryId : String} {s t : Store} (h : Resigned memoryId s t)
    {id : String} {row : MemoryRow} (hrow : s.getMemory id = some row) :
    ∃ metadata, t.getMemory id = some { row with metadataJson := metadata } ∧
      ∀ key, key ≠ embeddingSignatureKey → metadata.get? key = row.metadataJson.get? key := by
  obtain ⟨hget, hpresent⟩ := Store.getMemory_eq_some_iff.mp hrow
  obtain ⟨metadata, ht, hkeys, -⟩ := h.row id row hget
  exact ⟨metadata, Store.getMemory_eq_some_iff.mpr ⟨ht, hpresent⟩, hkeys⟩

theorem Quiet.resigned {memoryId : String} {s t : Store} (h : Quiet s t) :
    Resigned memoryId s t := by
  refine ⟨fun id hid => ?_, fun id row hrow => ⟨row.metadataJson, ?_, fun _ _ => rfl, fun _ => rfl⟩⟩
  · rw [h.memories]
    exact hid
  · rw [h.memories]
    exact hrow

theorem resigned_rewriteMetadata {memoryId : String} {f : Dict Json → Dict Json}
    (hf : ∀ d key, key ≠ embeddingSignatureKey → (f d).get? key = d.get? key) :
    Moves (Resigned memoryId) (rewriteMetadata memoryId f) := by
  intro s
  refine MovesAt.intro ?_ fun e t h => absurd h (by simp [rewriteMetadata])
  intro u t h
  refine ⟨fun id hid => ?_, fun id row hrow => ?_⟩
  · rw [rewriteMetadata_get? h, hid]
    split <;> rfl
  · rw [rewriteMetadata_get? h, hrow]
    by_cases hid : memoryId = id ∧ row.present = true
    · obtain ⟨rfl, hpresent⟩ := hid
      refine ⟨f row.metadataJson, ?_, fun key hkey => hf _ key hkey, fun hne => absurd rfl hne⟩
      rw [if_pos rfl, Option.map_some, metadataRewrite_apply, if_pos hpresent]
    · refine ⟨row.metadataJson, ?_, fun _ _ => rfl, fun _ => rfl⟩
      split
      · next h =>
        rw [Option.map_some, metadataRewrite_apply, if_neg fun hpresent => hid ⟨h, hpresent⟩]
      · rfl

theorem resigned_attachMemoryEmbedding (memory : MemoryRow) :
    Moves (Resigned memory.id) (attachMemoryEmbedding env memory) := by
  unfold attachMemoryEmbedding
  split
  · exact Moves.pure _
  · exact resigned_rewriteMetadata fun d key hkey => Dict.get?_set_of_ne d _ (Ne.symm hkey)

/-- The derived state of a row is its embedding signature, and other tables. -/
theorem resigned_refreshMemoryDerivedState (identity : Option AgentIdentity) (memory : MemoryRow)
    (stage : String) (replaceEntityLinks : Bool) :
    Moves (Resigned memory.id)
      (refreshMemoryDerivedState env memory identity stage replaceEntityLinks) := by
  have hclear : Moves (Resigned memory.id) (clearMemoryEmbedding memory.id) :=
    resigned_rewriteMetadata fun d key hkey =>
      Dict.get?_filter d (fun key => decide (key ≠ embeddingSignatureKey)) (decide_eq_true hkey)
  have hevents : ∀ events, Moves (Resigned memory.id)
      (appendDerivedEvents env events (actorOf identity) memory.id) := fun events =>
    (quiet_appendDerivedEvents env _ _ _).mono fun _ _ => Quiet.resigned
  refine Moves.bind hclear fun _ => Moves.bind (resigned_attachMemoryEmbedding _) fun _ => ?_
  refine Moves.ite (fun _ => ?_) fun _ => hevents _
  exact Moves.bind (Moves.raising _) fun _ => Moves.bind (hevents _) fun _ => hevents _

/-! ### The routines of the service -/

section Routines

variable {env : Env} {s : Store} {identity : Option AgentIdentity}

/-- A transition that is allowed starts from a live row. -/
theorem run_requireTransition_ok {operation : LifecycleOperation} {current target : MemoryStatus}
    {t : Store} (h : (requireTransition operation current).run s = .ok target t) :
    resolveTransition operation current = .ok target ∧ ¬ IsRetired current ∧ s = t := by
  unfold requireTransition at h
  split at h
  · next resolved hresolve =>
    obtain ⟨rfl, rfl⟩ := run_pure_ok.mp h
    exact ⟨hresolve, (mem_liveStatuses_iff current).mp (resolveTransition_live hresolve), rfl⟩
  · exact (run_throw_ok.mp h).elim

theorem quiet_guardSupersessionAcyclic (memory successor : MemoryRow) (allowPending : Bool) :
    Moves Quiet (guardSupersessionAcyclic memory successor allowPending) := by
  refine Moves.bind (Moves.raiseIf _ _) fun _ => Moves.bind Moves.get fun u => ?_
  split
  · exact Moves.throw _
  · exact Moves.throw _
  · exact Moves.pure _

/-- **What the guard is for.** The successor is live, and another row. -/
theorem run_guardSupersessionAcyclic_ok {memory successor : MemoryRow} {allowPending : Bool}
    {t : Store} {u : Unit}
    (h : (guardSupersessionAcyclic memory successor allowPending).run s = .ok u t) :
    ¬ IsRetired successor.status ∧ successor.id ≠ memory.id ∧ s = t := by
  simp only [guardSupersessionAcyclic, requireValidSupersessionSuccessor, run_bind_ok,
    run_raiseIf_ok, run_get_ok, not_not] at h
  obtain ⟨_, s₁, ⟨hstatus, rfl⟩, s₂, s₃, ⟨rfl, rfl⟩, h⟩ := h
  have hlive : ∀ status ∈ supersessionSuccessorStatuses ++ [MemoryStatus.candidate, .needsReview],
      ¬ IsRetired status := by
    decide
  split at h
  · exact (run_throw_ok.mp h).elim
  · exact (run_throw_ok.mp h).elim
  · next hwalk =>
    refine ⟨hlive _ ?_, supersessionWalk_ne hwalk, (run_pure_ok.mp h).2⟩
    rcases hstatus with hsuccessor | ⟨-, hpending⟩
    · exact List.mem_append_left _ hsuccessor
    · exact List.mem_append_right _ hpending

theorem quiet_replacementEventTime (successor : MemoryRow) :
    Moves Quiet (replacementEventTime env successor) := by
  unfold replacementEventTime
  split
  · exact Moves.pure _
  · exact quiet_utcNow env

theorem quiet_transitionPatch (memory : MemoryRow) (transition : Transition) (reason : String)
    (now : UtcMoment) (supersededBy : Option MemoryRow) :
    Moves Quiet (transitionPatch env memory transition reason now supersededBy) := by
  cases supersededBy with
  | none => exact Moves.pure _
  | some successor => exact Moves.bind (quiet_replacementEventTime _) fun _ => Moves.pure _

/-- The log entries of a transition. -/
theorem quiet_transitionLog (memory updated : MemoryRow) (transition : Transition)
    (reason : String) : Moves Quiet (do
      reviseMemory memory updated transition.revisionType transition.action
        updated.canonicalText reason (actorOf identity)
      appendMemoryEvent env transition.eventType (actorOf identity) updated.id
      pure updated) :=
  Moves.bind (quiet_reviseMemory _ _ _ _ _ _ _) fun _ =>
    Moves.bind (quiet_appendMemoryEvent env _ _ _) fun _ => Moves.pure _

theorem quiet_undoTarget (memoryId : Option String) :
    Moves Quiet (undoTarget identity memoryId) := by
  have hlatest : Moves Quiet (undoTarget.latestTarget identity) :=
    Moves.bind Moves.get fun _ => Moves.bind (Moves.orRaise _ _) fun _ => quiet_lockedMemory _ _
  cases memoryId with
  | none => exact hlatest
  | some id => exact Moves.ite (fun _ => hlatest) fun _ => quiet_lockedMemory _ _

/-- The row `undo` is about is a row of the store. -/
theorem run_undoTarget_ok {memoryId : Option String} {memory : MemoryRow} {t : Store}
    (h : (undoTarget identity memoryId).run s = .ok memory t) :
    ∃ id, s.getMemory id = some memory := by
  have hlocked : ∀ {id missing : String} {u : Store},
      (lockedMemory id missing).run u = .ok memory t → u.getMemory id = some memory := by
    intro id missing u hrun
    simp only [lockedMemory, run_bind_ok, run_get_ok, run_orRaise_ok] at hrun
    obtain ⟨_, _, ⟨rfl, rfl⟩, hrow, -⟩ := hrun
    exact hrow
  have hlatest : (undoTarget.latestTarget identity).run s = .ok memory t →
      ∃ id, s.getMemory id = some memory := by
    intro hrun
    simp only [undoTarget.latestTarget, run_bind_ok, run_get_ok, run_orRaise_ok] at hrun
    obtain ⟨_, _, ⟨rfl, rfl⟩, latest, _, ⟨-, rfl⟩, hrun⟩ := hrun
    exact ⟨latest.id, hlocked hrun⟩
  cases memoryId with
  | none => exact hlatest h
  | some id =>
    simp only [undoTarget] at h
    split at h
    · exact hlatest h
    · exact ⟨id, hlocked h⟩

theorem quiet_undoSuccessor (memory : MemoryRow) (successorId : Option String) :
    Moves Quiet (undoSuccessor env identity memory successorId) := by
  cases successorId with
  | none => exact Moves.pure _
  | some id =>
    exact Moves.bind (quiet_lockedMemory _ _) fun _ => Moves.bind (Moves.raiseIf _ _) fun _ =>
      Moves.bind (Moves.raiseIf _ _) fun _ =>
        Moves.bind (quiet_policyCheckedWrite env _ _ _) fun _ => Moves.pure _

/-- So is the successor it was given. -/
theorem run_undoSuccessor_ok {memory : MemoryRow} {successorId : Option String}
    {successor : Option MemoryRow} {t : Store}
    (h : (undoSuccessor env identity memory successorId).run s = .ok successor t)
    {row : MemoryRow} (hrow : row ∈ successor) : ∃ id, s.getMemory id = some row := by
  cases successorId with
  | none =>
    obtain ⟨rfl, -⟩ := run_pure_ok.mp h
    exact absurd hrow (by simp)
  | some id =>
    simp only [undoSuccessor, lockedMemory, run_bind_ok, run_get_ok, run_orRaise_ok,
      run_pure_ok] at h
    obtain ⟨found, _, ⟨_, _, ⟨rfl, rfl⟩, hfound, rfl⟩, _, _, -, _, _, -, _, _, -, rfl, -⟩ := h
    obtain rfl := Option.some.inj hrow
    exact ⟨id, hfound⟩

theorem quiet_validToIso (validTo : TimestampValue) : Moves Quiet (validToIso env validTo) := by
  unfold validToIso toUtcMoment
  split
  · exact quiet_utcNow env
  · exact Moves.orRaise _ _
  · split
    · exact Moves.throw _
    · exact Moves.orRaise _ _

theorem quiet_idempotentReplay (memory : MemoryRow) (request : MemoryCommitRequest) :
    Moves Quiet (idempotentReplay env memory request identity) :=
  Moves.bind (quiet_policyCheckedWrite env _ _ _) fun _ =>
    Moves.bind (Moves.raiseIf _ _) fun _ => Moves.pure _

theorem quiet_evaluatePolicy (request : MemoryCommitRequest) :
    Moves Quiet (evaluatePolicy env identity request) := by
  refine Moves.bind (quiet_upsertIdentity env _) fun _ => Moves.bind (quiet_newId env) fun _ =>
    Moves.bind (quiet_appendPolicyEvents env _ _ _ _) fun _ => ?_
  -- with and without promotion settings: the decision is returned, or its error raised
  split <;> dsimp only
  all_goals
    split
    · exact Moves.pure _
    · exact Moves.throw _

theorem quiet_memoryKeySuffix (request : MemoryCommitRequest) :
    Moves Quiet (memoryKeySuffix env request) := by
  unfold memoryKeySuffix
  split
  · exact Moves.ite (fun _ => quiet_newId env) fun _ => Moves.pure _
  · exact quiet_newId env

theorem quiet_createProvenanceLinks (memory : MemoryRow) (request : MemoryCommitRequest) :
    Moves Quiet (createProvenanceLinks env memory request identity) :=
  Moves.forM (fun _ => quiet_createMemoryProvenanceLink env _ _ _) _

theorem quiet_confirmationExpired (memory : MemoryRow) :
    Moves Quiet (confirmationExpired env memory) := by
  unfold confirmationExpired
  split
  · exact Moves.pure _
  · split
    · exact Moves.throw _
    · exact Moves.throw _
    · exact Moves.bind (quiet_utcNow env) fun _ => Moves.pure _

theorem quiet_confirmedText (memory : MemoryRow) (canonicalText : Option String) :
    Moves Quiet (confirmedText memory canonicalText) := by
  cases canonicalText with
  | none => exact Moves.pure _
  | some text => exact quiet_normalizedText _ _

theorem quiet_replayAcceptance (memory : MemoryRow) (consolidation accepted : Dict Json) :
    Moves Quiet (replayAcceptance memory consolidation accepted) :=
  Moves.bind (Moves.raising _) fun _ => Moves.bind (Moves.raising _) fun _ => Moves.pure _

end Routines

end AliceBot
