import AliceBot.DateNormalisers
import AliceBot.StoreLaws

/-!
# Taking an expiry back

`expire` closes the validity window of a live row and leaves its status alone;
`unexpire` opens the window again. A store may write the `None` that `unexpire`
puts into its patch, or drop it through `COALESCE`; then a second update writes
the far-future stand-in. `UpdateFlavour` is that choice, and the store of
`MemoryStore` is the flavour that coalesces (`unexpireIn_coalesces`).

The transition table maps `stale` to `active` under `unexpire`, since the
staleness sweep makes stale the rows whose window closed. It does not know the
rows that were stale before: those come back `active`, which they were not.
`AsksUnbounded` is the one case that spares them, an expiry that closes
nothing.
-/

namespace AliceBot

open PyLib

variable {env : Env}

/-! ### The two flavours of `update_memory` -/

/-- What `update_memory` makes of a column that is patched to `None`. -/
inductive UpdateFlavour where
  | coalesces
  | writesNull

/-- `"valid_to": None` in a patch. -/
def UpdateFlavour.clearValidTo (flavour : UpdateFlavour) (row : MemoryRow) : MemoryRow :=
  match flavour with
  | .coalesces => row
  | .writesNull => { row with validTo := none }

/-- The rewrite of an update that also patches `valid_to` to `None`. -/
def UpdateFlavour.clearing (flavour : UpdateFlavour) (patch : MemoryPatch)
    (now deletedNow : UtcMoment) : Rewrite MemoryRow.id where
  apply row := flavour.clearValidTo (patch.apply now deletedNow row)
  key_apply row := by cases flavour <;> rfl

/-- `update_memory`, with `valid_to` patched to `None`. -/
def updateClearing (env : Env) (flavour : UpdateFlavour) (memoryId : String) (patch : MemoryPatch)
    (actor : Actor) : Service MemoryRow := do
  let now ← utcNow env
  let deletedNow ← utcNow env
  let s ← get
  let row ← orRaise (s.getMemory memoryId)
    (.storeInvariant "update_memory did not return a row from the database")
  raiseIf ((flavour.clearValidTo (patch.apply now deletedNow row)).checks = false) .integrity
  set { s with memories := s.memories.rewrite memoryId (flavour.clearing patch now deletedNow) }
  appendMemoryEvent env "memory.updated" ⟨actor.type, none⟩ memoryId
  pure (flavour.clearValidTo (patch.apply now deletedNow row))

/-- The writes of `unexpire` in a store of either flavour. -/
def reopenWindowIn (env : Env) (flavour : UpdateFlavour) (identity : Option AgentIdentity)
    (memory : MemoryRow) (restored : MemoryStatus) (reason : String) : Service MemoryRow := do
  let now ← utcNow env
  let validity := clearedValidity memory now reason (actorOf identity)
  let updated ← updateClearing env flavour memory.id (unexpirePatch memory restored validity now)
    (actorOf identity)
  if isBoundedValidTo updated.validTo then
    updateMemory env memory.id (sentinelPatch memory validity) (actorOf identity)
  else pure updated

/-- `unexpire` in a store of either flavour. -/
def unexpireIn (env : Env) (flavour : UpdateFlavour) (identity : Option AgentIdentity)
    (memoryId reason : String) : Service LifecycleAnswer := do
  let memory ← lockedMemory memoryId
  let _ ← policyCheckedWrite env identity "memory.unexpire" memory
  let restored ← requireTransition .unexpire memory.status
  let reasonText ← normalizedText reason "reason"
  if isBoundedValidTo memory.validTo then
    let updated ← reopenWindowIn env flavour identity memory restored reasonText
    reviseMemory memory updated "edited" "agentic_memory_unexpire" updated.canonicalText
      reasonText (actorOf identity)
    appendMemoryEvent env "agent.memory_unexpired" (actorOf identity) updated.id
    pure { status := updated.status.text, memory := updated }
  else
    pure { status := memory.status.text, memory := memory, idempotentReplay := true }

/-- The store of the other modules is the flavour that coalesces. -/
theorem unexpireIn_coalesces (identity : Option AgentIdentity) (memoryId reason : String) :
    unexpireIn env .coalesces identity memoryId reason = unexpire env identity memoryId reason :=
  rfl

/-! ### What the pair of calls is to leave alone -/

/-- The window has no end: `NULL`, or the far-future stand-in. -/
def Unbounded (validTo : Option ValidityEnd) : Prop :=
  validTo = none ∨ isUnboundedValidTo validTo = true

/-- The content, the pointers and the scope of a row, and its metadata outside
the validity record. -/
structure ContentKept (before after : MemoryRow) : Prop where
  title : after.title = before.title
  canonicalText : after.canonicalText = before.canonicalText
  value : after.value = before.value
  supersededBy : after.supersededBy = before.supersededBy
  supersedes : after.supersedes = before.supersedes
  domain : after.domain = before.domain
  sensitivity : after.sensitivity = before.sensitivity
  projectId : after.projectId = before.projectId
  metadata : ∀ key, key ≠ "validity" →
    after.metadataJson.get? key = before.metadataJson.get? key

/-! The scope resolver reads the metadata under other keys. -/

section Scope

variable {m n : Dict Json} (h : ∀ key, key ≠ "validity" → n.get? key = m.get? key)

include h

theorem nestedScopes_congr : nestedScopes n = nestedScopes m := by
  have hitem : ∀ key, key ≠ "validity" → n.item key = m.item key := fun key hkey => by
    rw [Dict.item, Dict.item, h key hkey]
  simp only [nestedScopes, List.filterMap_cons, List.filterMap_nil,
    hitem "agentic_memory" (by decide), hitem "agent_identity" (by decide)]

theorem legacyScopes_congr : legacyScopes n = legacyScopes m := by
  have hitem : ∀ key, key ≠ "validity" → n.item key = m.item key := fun key hkey => by
    rw [Dict.item, Dict.item, h key hkey]
  simp only [legacyScopes, projectAliasKeys, List.map_cons, List.map_nil,
    hitem "agentic_memory" (by decide), hitem "project_id" (by decide),
    hitem "project" (by decide), hitem "projects" (by decide)]

/-- The scope of a row is read from fields of its metadata that the two records share.
-/
theorem resolveProjectScope_columns_congr (projectId : Json) :
    resolveProjectScope [("project_id", projectId), ("metadata_json", .obj n)] =
      resolveProjectScope [("project_id", projectId), ("metadata_json", .obj m)] := by
  have hcontainers (m : Dict Json) : scopeContainers
      [("project_id", projectId), ("metadata_json", .obj m)] = [m] := rfl
  have hroot (m : Dict Json) : Dict.get? [("project_id", projectId), ("metadata_json", .obj m)]
      "project_scope" = none := rfl
  -- the aliases at the root are columns, not metadata
  have halias (key : String) (hkey : key ≠ "metadata_json") (m : Dict Json) :
      Dict.item [("project_id", projectId), ("metadata_json", .obj m)] key =
        Dict.item [("project_id", projectId)] key := by
    simp only [Dict.item, Dict.get?_cons, Ne.symm hkey, if_false, Dict.get?_nil]
  simp only [resolveProjectScope, hcontainers, hroot, List.findSome?_cons, List.findSome?_nil,
    List.flatMap_cons, List.flatMap_nil, h "project_scope" (by decide), nestedScopes_congr h,
    legacyScopes_congr h, projectAliasKeys, List.map_cons, List.map_nil,
    halias "project_id" (by decide), halias "project" (by decide), halias "projects" (by decide)]

end Scope

theorem projectScope_eq (row : MemoryRow) : row.projectScope = canonicalValues (.strs
    (resolveProjectScope [("project_id", .optStr row.projectId),
      ("metadata_json", .obj row.metadataJson)]).values) := rfl

/-- The row is as it was before the two calls, its window open. -/
structure Undone (before after : MemoryRow) : Prop extends ContentKept before after where
  status : after.status = before.status
  validTo : Unbounded after.validTo
  pointer : supersessionPointer after = supersessionPointer before
  scope : after.projectScope = before.projectScope

namespace ContentKept

theorem refl (row : MemoryRow) : ContentKept row row :=
  ⟨rfl, rfl, rfl, rfl, rfl, rfl, rfl, rfl, fun _ _ => rfl⟩

theorem trans {a b c : MemoryRow} (h₁ : ContentKept a b) (h₂ : ContentKept b c) :
    ContentKept a c where
  title := h₂.title.trans h₁.title
  canonicalText := h₂.canonicalText.trans h₁.canonicalText
  value := h₂.value.trans h₁.value
  supersededBy := h₂.supersededBy.trans h₁.supersededBy
  supersedes := h₂.supersedes.trans h₁.supersedes
  domain := h₂.domain.trans h₁.domain
  sensitivity := h₂.sensitivity.trans h₁.sensitivity
  projectId := h₂.projectId.trans h₁.projectId
  metadata key hkey := (h₂.metadata key hkey).trans (h₁.metadata key hkey)

theorem pointer {a b : MemoryRow} (h : ContentKept a b) :
    supersessionPointer b = supersessionPointer a := by
  unfold supersessionPointer Dict.getStr?
  rw [h.supersededBy, h.metadata _ (by decide)]

theorem scope {a b : MemoryRow} (h : ContentKept a b) : b.projectScope = a.projectScope := by
  rw [projectScope_eq, projectScope_eq, h.projectId,
    resolveProjectScope_columns_congr h.metadata]

/-- A patch that writes nothing but the status, the window and the validity
record. -/
theorem apply {patch : MemoryPatch} {row : MemoryRow} {validity : Json}
    (hmetadata : patch.metadataJson = some (row.metadataJson.set "validity" validity))
    (htitle : patch.title = none) (htext : patch.canonicalText = none)
    (hvalue : patch.value = none) (hby : patch.supersededBy = none)
    (hof : patch.supersedes = none) (now deletedNow : UtcMoment) :
    ContentKept row (patch.apply now deletedNow row) where
  title := by rw [MemoryPatch.apply, htitle]; rfl
  canonicalText := by rw [MemoryPatch.apply, htext]; rfl
  value := by rw [MemoryPatch.apply, hvalue]; rfl
  supersededBy := by rw [MemoryPatch.apply, hby]; rfl
  supersedes := by rw [MemoryPatch.apply, hof]; rfl
  domain := rfl
  sensitivity := rfl
  projectId := rfl
  metadata key hkey := by
    rw [MemoryPatch.apply, hmetadata]
    exact Dict.get?_set_of_ne _ _ (Ne.symm hkey)

theorem clearValidTo {a b : MemoryRow} (h : ContentKept a b) (flavour : UpdateFlavour) :
    ContentKept a (flavour.clearValidTo b) := by
  cases flavour with
  | coalesces => exact h
  | writesNull => exact ⟨h.title, h.canonicalText, h.value, h.supersededBy, h.supersedes,
      h.domain, h.sensitivity, h.projectId, h.metadata⟩

end ContentKept

/-! ### What the two calls do to the row -/

/-- The end an expiry asks for: now, where it names none. -/
def requestedEnd (env : Env) (now : UtcMoment) : TimestampValue → Option UtcMoment
  | .absent => some now
  | .datetime value => value.moment.toUtc
  | .text s =>
    (env.fromisoformat (replaceAll s "Z" "+00:00")).bind fun value => value.moment.toUtc

theorem run_toUtcMoment_ok {value : PyDateTime} {s t : Store} {u : UtcMoment}
    (h : (toUtcMoment value).run s = .ok u t) : value.moment.toUtc = some u ∧ s = t :=
  run_orRaise_ok.mp h

theorem requestedEnd_of_validToIso {value : TimestampValue} {s t : Store} {u : UtcMoment}
    (h : (validToIso env value).run s = .ok u t) :
    requestedEnd env (env.clock.read s.ticks) value = some u := by
  cases value with
  | absent => exact congrArg some (run_modifyGet_ok.mp h).1
  | datetime value => exact (run_toUtcMoment_ok h).1
  | text raw =>
    rw [validToIso] at h
    rw [requestedEnd]
    split at h
    · exact (run_throw_ok.mp h).elim
    · next value hvalue =>
      rw [hvalue]
      exact (run_toUtcMoment_ok h).1

theorem expireChecks_ok {identity : Option AgentIdentity} {memoryId reason : String} {s t : Store}
    {checked : MemoryRow × String}
    (h : (expireChecks env identity memoryId reason).run s = .ok checked t) :
    s.getMemory memoryId = some checked.1 ∧ Quiet s t := by
  simp only [expireChecks, lockedMemory, run_bind_ok, run_get_ok, run_orRaise_ok, run_pure_ok] at h
  obtain ⟨memory, s₁, ⟨_, _, ⟨rfl, rfl⟩, hrow, rfl⟩, _, s₂, hpolicy, _, s₃, htransition,
    reasonText, s₄, hreason, rfl, rfl⟩ := h
  have hquiet₂ : Quiet s s₂ := (quiet_policyCheckedWrite env _ _ _).ok hpolicy
  have hquiet₃ : Quiet s₂ s₃ := (quiet_requireTransition _ _).ok htransition
  have hquiet₄ : Quiet s₃ s₄ := (quiet_normalizedText _ _).ok hreason
  exact ⟨hrow, IsTrans.trans _ _ _ (IsTrans.trans _ _ _ hquiet₂ hquiet₃) hquiet₄⟩

/-- An expiry closes the window of its row at the end it asks for. -/
theorem expire_row {identity : Option AgentIdentity} {memoryId reason : String}
    {validTo : TimestampValue} {s t : Store} {answer : LifecycleAnswer}
    (h : (expire env identity memoryId validTo reason).run s = .ok answer t) :
    ∃ memory validEnd closed, s.getMemory memoryId = some memory ∧
      requestedEnd env (env.clock.read (endState
        ((expireChecks env identity memoryId reason).run s)).ticks) validTo = some validEnd ∧
      t.getMemory memoryId = some closed ∧ closed.status = memory.status ∧
      closed.validTo = some (.moment validEnd) ∧ ContentKept memory closed := by
  rw [expire_eq] at h
  obtain ⟨checked, s₁, hchecks, h⟩ := run_bind_ok.mp h
  obtain ⟨validEnd, s₂, hend, h⟩ := run_bind_ok.mp h
  obtain ⟨hrow, hquiet₁⟩ := expireChecks_ok hchecks
  have hquiet₂ : Quiet s₁ s₂ := (quiet_validToIso _).ok hend
  simp only [expireAt, run_bind_ok, run_pure_ok] at h
  obtain ⟨now, s₃, hnow, updated, s₄, hupdate, _, s₅, hrevise, _, s₆, hevent, -, rfl⟩ := h
  have hquiet₃ : Quiet s₂ s₃ := (quiet_utcNow env).ok hnow
  have hafter : Quiet s₄ s₆ := IsTrans.trans _ _ _
    ((quiet_reviseMemory _ _ _ _ _ _ _).ok hrevise) ((quiet_appendMemoryEvent env _ _ _).ok hevent)
  -- the row that is updated is the row that was read
  have hid := Store.id_of_getMemory hrow
  have hstored := updateMemory_getMemory hupdate (by simp [expirePatch])
  obtain ⟨row, hread, hupdated, -⟩ := updateMemory_ok hupdate
  rw [hid, hquiet₃.getMemory, hquiet₂.getMemory, hquiet₁.getMemory, hrow] at hread
  obtain rfl := Option.some.inj hread
  refine ⟨checked.1, validEnd, updated, hrow, ?_, ?_, ?_, ?_, ?_⟩
  · rw [hchecks]
    exact requestedEnd_of_validToIso hend
  · rw [hafter.getMemory, ← hid]
    exact hstored
  · rw [hupdated]
    rfl
  · rw [hupdated]
    rfl
  · rw [hupdated]
    exact ContentKept.apply rfl rfl rfl rfl rfl rfl _ _

/-- What an update that clears the window leaves. -/
theorem updateClearing_row {flavour : UpdateFlavour} {memoryId : String} {patch : MemoryPatch}
    {actor : Actor} {s t : Store} {updated : MemoryRow}
    (h : (updateClearing env flavour memoryId patch actor).run s = .ok updated t)
    (hstatus : patch.status ≠ some .archived) :
    ∃ row now deletedNow, s.getMemory memoryId = some row ∧
      updated = flavour.clearValidTo (patch.apply now deletedNow row) ∧
      t.getMemory memoryId = some updated := by
  simp only [updateClearing, utcNow, run_bind_ok, run_modifyGet_ok, run_get_ok, run_orRaise_ok,
    run_raiseIf_ok, run_set_ok, run_pure_ok] at h
  obtain ⟨now, s₁, ⟨rfl, rfl⟩, deletedNow, s₂, ⟨rfl, rfl⟩, s₃, s₄, ⟨rfl, rfl⟩, row, s₅,
    ⟨hrow, rfl⟩, _, s₆, ⟨-, rfl⟩, _, s₇, rfl, _, s₈, hevent, rfl, rfl⟩ := h
  refine ⟨row, _, _, hrow, rfl, ?_⟩
  rw [((quiet_appendMemoryEvent env _ _ _).ok hevent).getMemory]
  obtain ⟨hget, hpresent⟩ := Store.getMemory_eq_some_iff.mp hrow
  refine Store.getMemory_eq_some_iff.mpr ⟨Table.get?_rewrite_self _ hget, ?_⟩
  -- neither the clearing nor the patch deletes the row
  have hkept : (patch.apply (env.clock.read s.ticks) (env.clock.read (s.ticks + 1)) row).deletedAt =
      none := by
    rw [MemoryPatch.apply, if_neg hstatus]
    exact hpresent
  cases flavour with
  | coalesces => exact hkept
  | writesNull => exact hkept

/-- The table of `unexpire`. -/
theorem resolveTransition_unexpire_eq {current restored : MemoryStatus}
    (h : resolveTransition .unexpire current = .ok restored) :
    restored = if current = .stale then .active else current := by
  have hall : ∀ move ∈ LifecycleOperation.unexpire.rule.transitions,
      move.2 = if move.1 = .stale then .active else move.1 := by
    decide
  exact hall _ (mem_transitions_of_resolve h)

/-- The writes of an unexpiry give the row the status of the table and an open
window. -/
theorem reopenWindowIn_row {flavour : UpdateFlavour} {identity : Option AgentIdentity}
    {memory : MemoryRow} {restored : MemoryStatus} {reason : String} {s t : Store}
    {updated : MemoryRow} (hrow : s.getMemory memory.id = some memory)
    (hclosed : isBoundedValidTo memory.validTo = true) (hrestored : restored ≠ .archived)
    (h : (reopenWindowIn env flavour identity memory restored reason).run s = .ok updated t) :
    t.getMemory memory.id = some updated ∧ updated.status = restored ∧
      Unbounded updated.validTo ∧ ContentKept memory updated := by
  obtain ⟨now, s₁, hnow, h⟩ := run_bind_ok.mp h
  have hquiet : Quiet s s₁ := (quiet_utcNow env).ok hnow
  obtain ⟨first, s₂, hfirst, h⟩ := run_bind_ok.mp h
  have hstatus : (unexpirePatch memory restored (clearedValidity memory now reason
      (actorOf identity)) now).status ≠ some .archived := by
    simp only [unexpirePatch]
    split
    · simpa using hrestored
    · simp
  obtain ⟨row, n₁, n₂, hread, hfirst, hstored⟩ := updateClearing_row hfirst hstatus
  rw [hquiet.getMemory, hrow] at hread
  obtain rfl := Option.some.inj hread
  have hpatched : ((unexpirePatch memory restored (clearedValidity memory now reason
      (actorOf identity)) now).apply n₁ n₂ memory).status = restored := by
    by_cases hsame : restored = memory.status
    · simp [unexpirePatch, MemoryPatch.apply, hsame]
    · simp [unexpirePatch, MemoryPatch.apply, hsame]
  -- both kinds of update write the status, and differ in the end of the window
  have hfirst_status : first.status = restored := by
    rw [hfirst]
    cases flavour with
    | coalesces => exact hpatched
    | writesNull => exact hpatched
  have hkept : ContentKept memory first := by
    rw [hfirst]
    exact (ContentKept.apply rfl rfl rfl rfl rfl rfl _ _).clearValidTo flavour
  by_cases hbounded : isBoundedValidTo first.validTo = true
  · -- the old end survived, so the stand-in is written over it
    rw [if_pos hbounded] at h
    obtain ⟨row', hread', hupdated, -⟩ := updateMemory_ok h
    rw [hstored] at hread'
    obtain rfl := Option.some.inj hread'
    refine ⟨updateMemory_getMemory h (by simp [sentinelPatch]), ?_, ?_, ?_⟩
    · rw [hupdated]
      exact hfirst_status
    · have hsentinel : isUnboundedValidTo (some (.moment validToUnboundedSentinel)) = true := by
        decide
      rw [hupdated]
      exact .inr hsentinel
    · rw [hupdated]
      exact {
        hkept with
        metadata := fun key hkey => Dict.get?_set_of_ne _ _ (Ne.symm hkey) }
  · rw [if_neg hbounded] at h
    obtain ⟨rfl, rfl⟩ := run_pure_ok.mp h
    refine ⟨hstored, hfirst_status, ?_, hkept⟩
    cases flavour with
    | coalesces =>
      -- an update that coalesces would have kept the old end
      rw [hfirst] at hbounded
      exact absurd hclosed hbounded
    | writesNull =>
      rw [hfirst]
      exact .inl rfl

/-- An unexpiry reopens a closed window, and replays on an open one. -/
theorem unexpireIn_row {flavour : UpdateFlavour} {identity : Option AgentIdentity}
    {memoryId reason : String} {s t : Store} {answer : LifecycleAnswer} {memory : MemoryRow}
    (hrow : s.getMemory memoryId = some memory)
    (h : (unexpireIn env flavour identity memoryId reason).run s = .ok answer t) :
    ∃ after, t.getMemory memoryId = some after ∧ ContentKept memory after ∧
      if isBoundedValidTo memory.validTo = true then
        after.status = (if memory.status = .stale then .active else memory.status) ∧
          Unbounded after.validTo
      else after = memory := by
  simp only [unexpireIn, lockedMemory, run_bind_ok, run_get_ok, run_orRaise_ok] at h
  obtain ⟨found, s₁, ⟨_, _, ⟨rfl, rfl⟩, hfound, rfl⟩, _, s₂, hpolicy, restored, s₃, htransition,
    reasonText, s₄, hreason, h⟩ := h
  rw [hrow] at hfound
  obtain rfl := Option.some.inj hfound
  -- what comes before the write reads and logs only
  have hquiet₂ : Quiet s s₂ := (quiet_policyCheckedWrite env _ _ _).ok hpolicy
  have hquiet₃ : Quiet s₂ s₃ := (quiet_requireTransition _ _).ok htransition
  have hquiet₄ : Quiet s₃ s₄ := (quiet_normalizedText _ _).ok hreason
  have hread : s₄.getMemory memoryId = some memory := by
    rw [hquiet₄.getMemory, hquiet₃.getMemory, hquiet₂.getMemory, hrow]
  have hresolve := (run_requireTransition_ok htransition).1
  by_cases hclosed : isBoundedValidTo memory.validTo = true
  · rw [if_pos hclosed] at h
    have hid := Store.id_of_getMemory hrow
    -- no transition of an unexpiry ends in the archive
    have hlive : restored ≠ .archived := by
      rintro rfl
      exact absurd (resolveTransition_unexpire hresolve) (by decide)
    obtain ⟨updated, s₅, hreopen, h⟩ := run_bind_ok.mp h
    obtain ⟨hstored, hstatus, hend, hkept⟩ :=
      reopenWindowIn_row (hid.symm ▸ hread) hclosed hlive hreopen
    simp only [run_bind_ok, run_pure_ok] at h
    obtain ⟨_, s₆, hrevise, _, s₇, hevent, -, rfl⟩ := h
    refine ⟨updated, ?_, hkept, ?_⟩
    · rw [((quiet_appendMemoryEvent env _ _ _).ok hevent).getMemory,
        ((quiet_reviseMemory _ _ _ _ _ _ _).ok hrevise).getMemory, ← hid]
      exact hstored
    · rw [if_pos hclosed, ← resolveTransition_unexpire_eq hresolve]
      exact ⟨hstatus, hend⟩
  · rw [if_neg hclosed] at h
    obtain ⟨-, rfl⟩ := run_pure_ok.mp h
    exact ⟨memory, hread, ContentKept.refl memory, by rw [if_neg hclosed]⟩

/-! ### The pair of calls -/

/-- The end that is asked for is itself open. -/
def AsksUnbounded (env : Env) (now : UtcMoment) (validTo : TimestampValue) : Prop :=
  ∃ validEnd, requestedEnd env now validTo = some validEnd ∧ 9999 ≤ validEnd.date.year

/-- An unexpiry takes back the expiry of its row, whatever end that expiry was
given and whichever way the store takes a `None`, unless the row was stale
before and the expiry closed its window. -/
theorem unexpire_undoes_expire_iff (env : Env) (flavour : UpdateFlavour)
    {identity identity' : Option AgentIdentity} {memoryId reason reason' : String}
    {validTo : TimestampValue} {s t t' u : Store} {memory : MemoryRow}
    {answer answer' : LifecycleAnswer} (hrow : s.getMemory memoryId = some memory)
    (hexpire : (expire env identity memoryId validTo reason).run s = .ok answer t)
    (hbetween : t'.getMemory memoryId = t.getMemory memoryId)
    (hunexpire : (unexpireIn env flavour identity' memoryId reason').run t' = .ok answer' u) :
    (∃ after, u.getMemory memoryId = some after ∧ Undone memory after) ↔
      memory.status ≠ .stale ∨ AsksUnbounded env (env.clock.read (endState
        ((expireChecks env identity memoryId reason).run s)).ticks) validTo := by
  obtain ⟨found, validEnd, closed, hfound, hend, hclosed, hstatus, hvalidTo, hkept⟩ :=
    expire_row hexpire
  rw [hrow] at hfound
  obtain rfl := Option.some.inj hfound
  obtain ⟨after, hafter, hkept', hunexpired⟩ := unexpireIn_row (hbetween.trans hclosed) hunexpire
  have hkept := hkept.trans hkept'
  have hundone : (∃ after, u.getMemory memoryId = some after ∧ Undone memory after) ↔
      after.status = memory.status ∧ Unbounded after.validTo := by
    rw [hafter]
    constructor
    · rintro ⟨_, ⟨⟩, h⟩
      exact ⟨h.status, h.validTo⟩
    · rintro ⟨h₁, h₂⟩
      exact ⟨after, rfl, hkept, h₁, h₂, hkept.pointer, hkept.scope⟩
  have hasks : AsksUnbounded env (env.clock.read (endState
      ((expireChecks env identity memoryId reason).run s)).ticks) validTo ↔
      9999 ≤ validEnd.date.year := by
    rw [AsksUnbounded, hend]
    simp
  rw [hundone, hasks]
  rw [hvalidTo, hstatus] at hunexpired
  by_cases hfar : 9999 ≤ validEnd.date.year
  · -- the expiry closed nothing, and the unexpiry replays
    have hopen : isUnboundedValidTo (some (.moment validEnd)) = true := decide_eq_true hfar
    rw [if_neg (by simp [isBoundedValidTo, hopen])] at hunexpired
    rw [hunexpired, hstatus, hvalidTo]
    exact ⟨fun _ => .inr hfar, fun _ => ⟨rfl, .inr hopen⟩⟩
  · have hbounded : isBoundedValidTo (some (.moment validEnd)) = true := by
      simp [isBoundedValidTo, isUnboundedValidTo, hfar]
    rw [if_pos hbounded] at hunexpired
    rw [hunexpired.1]
    constructor
    · rintro ⟨hsame, -⟩
      refine .inl fun hstale => ?_
      rw [if_pos hstale, hstale] at hsame
      exact absurd hsame (by decide)
    · rintro (hfresh | hnear)
      · exact ⟨if_neg hfresh, hunexpired.2⟩
      · exact absurd hnear hfar

/-- One row. -/
def oneRow (status : MemoryStatus) : Store :=
  { memories := ⟨[.plain "m" status []], List.nodup_singleton _⟩ }

/-- What is left of it after an expiry and an unexpiry. -/
def swept (status : MemoryStatus) : Store :=
  endState ((expire .plain none "m" .absent "swept").run (oneRow status))

def sweptAndReopened (flavour : UpdateFlavour) (status : MemoryStatus) : Store :=
  endState ((unexpireIn .plain flavour none "m" "reopened").run (swept status))

theorem unexpire_undoes_expire_active :
    ∃ after, (sweptAndReopened .writesNull .active).getMemory "m" = some after ∧
      Undone (.plain "m" .active []) after := by
  have hexpire : returned ((expire .plain none "m" .absent "swept").run (oneRow .active)) =
      true := by
    decide +kernel
  have hunexpire : returned ((unexpireIn .plain .writesNull none "m" "reopened").run
      (swept .active)) = true := by
    decide +kernel
  obtain ⟨answer, hexpire⟩ := exists_ok_of_returned hexpire
  obtain ⟨answer', hunexpire⟩ := exists_ok_of_returned hunexpire
  have hrow : (oneRow .active).getMemory "m" = some (.plain "m" .active []) := rfl
  exact (unexpire_undoes_expire_iff .plain .writesNull hrow hexpire rfl hunexpire).mpr
    (.inl (by decide))

/-- A stale row is swept, and the reversal makes it active. -/
theorem unexpire_revives_stale :
    returned ((expire .plain none "m" .absent "swept").run (oneRow .stale)) = true ∧
    returned ((unexpireIn .plain .coalesces none "m" "reopened").run (swept .stale)) = true ∧
    ¬ ∃ after, (sweptAndReopened .coalesces .stale).getMemory "m" = some after ∧
      Undone (.plain "m" .stale []) after := by
  refine ⟨by decide +kernel, by decide +kernel, ?_⟩
  rintro ⟨after, hafter, hundone⟩
  have hstatus : ((sweptAndReopened .coalesces .stale).getMemory "m").map (·.status) =
      some .active := by
    decide +kernel
  rw [hafter, Option.map_some, hundone.status] at hstatus
  exact absurd hstatus (by decide)

end AliceBot
