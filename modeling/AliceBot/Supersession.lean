import AliceBot.Library.Succession
import AliceBot.ConsolidationReview
import AliceBot.ServiceCalls

/-!
# Supersession is safe

The rows of a store, each by its status and its supersession pointer, are
records that are retired and succeeded (`lifecycleView`). Every call of the
service develops them by the three steps of `Evolves`, so that retirement is
terminal, pointers come from retired rows alone and never form a cycle
(`supersession_safe`).

The cycle guard itself contributes one fact, that the successor is another row
than the one retired. The rest of its walk is implied: a live successor points
nowhere, so the walk ends where it starts. What makes this work is the
invariant `Records.Sound`, which every call has to find and to keep.

Calls write from the row as they read it, while other writes of the same call
may already have touched the row. `OpenCopy` is what such a copy is good for:
if it was live when read, the row is still live, and neither points anywhere.
-/

namespace AliceBot

open PyLib Relation

/-! ### Rows as records -/

/-- The status and the pointer of every row. -/
def lifecycleView (s : Store) : Records String MemoryStatus := fun id =>
  (s.memories.get? id).map fun row => (row.status, supersessionPointer row)

/-- The row is live and points nowhere. -/
def Store.Open (s : Store) (id : String) : Prop := (lifecycleView s).Open IsRetired id

/-- Pointers come from retired rows and form no cycle. -/
def Store.Sound (s : Store) : Prop := (lifecycleView s).Sound IsRetired

/-- The rows of `t` developed from those of `s`. -/
def Evolved (mayRetire : String → Prop) (s t : Store) : Prop :=
  Develops IsRetired mayRetire (lifecycleView s) (lifecycleView t)

variable {mayRetire : String → Prop}

instance : Std.Refl (Evolved mayRetire) where
  refl s := Develops.refl (lifecycleView s)

instance : IsTrans Store (Evolved mayRetire) where
  trans _ _ _ h₁ h₂ := Develops.trans h₁ h₂

theorem Evolved.sound {s t : Store} (h : Evolved mayRetire s t) (hs : s.Sound) : t.Sound :=
  Develops.sound h hs

theorem Evolved.keeps_open {s t : Store} (h : Evolved mayRetire s t) {id : String}
    (hid : ¬ mayRetire id) (hopen : s.Open id) : t.Open id :=
  Develops.keeps h id hid hopen

/-- Two stores with the same memories have the same records. -/
theorem evolved_of_quiet {s t : Store} (h : Quiet s t) : Evolved mayRetire s t := by
  have hview : lifecycleView t = lifecycleView s := by
    funext id
    rw [lifecycleView, lifecycleView, h.memories]
  rw [Evolved, hview]
  exact Develops.refl _

theorem Quiet.sound {s t : Store} (h : Quiet s t) (hs : s.Sound) : t.Sound := by
  have hevolved : Evolved (fun _ => False) s t := evolved_of_quiet h
  exact hevolved.sound hs

theorem Quiet.moves {α : Type} {m : Service α} (h : Moves Quiet m) :
    Moves (Evolved mayRetire) m :=
  h.mono fun _ _ => evolved_of_quiet

/-! ### Pointers -/

/-- The metadata names no successor. -/
def PointerFree (metadata : Dict Json) : Prop :=
  (metadata.getStr? "superseded_by").filter (· ≠ "") = none

theorem supersessionPointer_eq_none_iff {row : MemoryRow} :
    supersessionPointer row = none ↔
      row.supersededBy.filter (· ≠ "") = none ∧ PointerFree row.metadataJson := by
  unfold supersessionPointer PointerFree
  split
  · next id h =>
    rw [h]
    exact ⟨fun hnone => absurd hnone (by simp), fun hnone => absurd hnone.1 (by simp)⟩
  · next h =>
    rw [h]
    exact ⟨fun hnone => ⟨rfl, hnone⟩, fun hnone => hnone.2⟩

theorem pointerFree_set {metadata : Dict Json} {key : String} {value : Json}
    (hkey : key ≠ "superseded_by") :
    PointerFree (metadata.set key value) ↔ PointerFree metadata := by
  rw [PointerFree, PointerFree, Dict.getStr?_set, if_neg hkey]

/-- A patch that sets no pointer. -/
def MemoryPatch.SetsNoPointer (patch : MemoryPatch) : Prop :=
  patch.supersededBy = none ∧ ∀ metadata ∈ patch.metadataJson, PointerFree metadata

theorem MemoryPatch.SetsNoPointer.apply {patch : MemoryPatch} (h : patch.SetsNoPointer)
    {row : MemoryRow} (hrow : supersessionPointer row = none) (now deletedNow : UtcMoment) :
    supersessionPointer (patch.apply now deletedNow row) = none := by
  obtain ⟨hcolumn, hmetadata⟩ := supersessionPointer_eq_none_iff.mp hrow
  refine supersessionPointer_eq_none_iff.mpr ⟨?_, ?_⟩
  · show (patch.supersededBy.or row.supersededBy).filter (· ≠ "") = none
    rw [h.1, Option.none_or]
    exact hcolumn
  · show PointerFree (patch.metadataJson.getD row.metadataJson)
    cases hm : patch.metadataJson with
    | none => exact hmetadata
    | some metadata => exact h.2 metadata hm

/-! ### One update -/

section Update

variable {env : Env} {s : Store} {actor : Actor}

theorem Store.view_of_getMemory {s : Store} {id : String} {row : MemoryRow}
    (h : s.getMemory id = some row) :
    lifecycleView s id = some (row.status, supersessionPointer row) := by
  rw [lifecycleView, (Store.getMemory_eq_some_iff.mp h).1]
  rfl

/-- An open row that is found has no pointer. -/
theorem Store.Open.of_getMemory {id : String} {row : MemoryRow} (hopen : s.Open id)
    (h : s.getMemory id = some row) : supersessionPointer row = none ∧ ¬ IsRetired row.status := by
  obtain ⟨state, hview, hlive⟩ := hopen
  rw [Store.view_of_getMemory h] at hview
  obtain ⟨rfl, hpointer⟩ := Prod.mk.inj (Option.some.inj hview)
  exact ⟨hpointer, hlive⟩

/-- The records after an update. -/
theorem lifecycleView_updateMemory {t : Store} {memoryId : String} {patch : MemoryPatch}
    {updated : MemoryRow} (h : (updateMemory env memoryId patch actor).run s = .ok updated t) :
    lifecycleView t = Function.update (lifecycleView s) memoryId
      (some (updated.status, supersessionPointer updated)) := by
  funext id
  rw [lifecycleView, updateMemory_get? h]
  by_cases hid : memoryId = id
  · subst hid
    rw [if_pos rfl, Function.update_self]
    rfl
  · rw [if_neg hid, Function.update_of_ne (Ne.symm hid)]
    rfl

/-- **Updating an open row without a successor.** -/
theorem evolved_updateMemory {memoryId : String} {patch : MemoryPatch}
    (hopen : s.Open memoryId) (hpatch : patch.SetsNoPointer)
    (hstatus : ∀ status ∈ patch.status, IsRetired status → mayRetire memoryId) :
    MovesAt (Evolved mayRetire) (updateMemory env memoryId patch actor) s := by
  refine MovesAt.intro ?_ fun e t h => evolved_of_quiet (updateMemory_error h).1
  intro updated t h
  obtain ⟨row, hrow, rfl, -⟩ := updateMemory_ok h
  obtain ⟨hpointer, hlive⟩ := hopen.of_getMemory hrow
  rw [Evolved, lifecycleView_updateMemory h, hpatch.apply hpointer]
  refine Develops.restate hopen ?_
  show IsRetired (patch.status.getD row.status) → mayRetire memoryId
  cases hp : patch.status with
  | none => exact fun hret => absurd hret hlive
  | some status => exact hstatus status hp

/-- An update that leaves status and pointers alone. -/
theorem evolved_updateMemory_same {memoryId : String} {patch : MemoryPatch}
    (hstatus : patch.status = none) (hpointer : patch.supersededBy = none)
    (hmetadata : patch.metadataJson = none) :
    MovesAt (Evolved mayRetire) (updateMemory env memoryId patch actor) s := by
  refine MovesAt.intro ?_ fun e t h => evolved_of_quiet (updateMemory_error h).1
  intro updated t h
  obtain ⟨row, hrow, rfl, -⟩ := updateMemory_ok h
  have hview : lifecycleView t = lifecycleView s := by
    rw [lifecycleView_updateMemory h]
    refine Function.update_eq_self_iff.mpr ?_
    rw [Store.view_of_getMemory hrow]
    simp [MemoryPatch.apply, supersessionPointer, hstatus, hpointer, hmetadata]
  rw [Evolved, hview]
  exact Develops.refl _

/-- The embedding signature is no part of the records. -/
theorem evolved_of_resigned {t : Store} {memoryId : String} (h : Resigned memoryId s t) :
    Evolved mayRetire s t := by
  have hview : lifecycleView t = lifecycleView s := by
    funext id
    cases hrow : s.memories.get? id with
    | none => rw [lifecycleView, lifecycleView, hrow, h.absent id hrow]
    | some row =>
      obtain ⟨metadata, ht, hkeys, -⟩ := h.row id row hrow
      have hpointer : metadata.getStr? "superseded_by" = row.metadataJson.getStr? "superseded_by" :=
        congrArg (·.bind Json.asStr?) (hkeys "superseded_by" (by decide))
      rw [lifecycleView, lifecycleView, hrow, ht]
      simp only [Option.map_some, supersessionPointer, hpointer]
  rw [Evolved, hview]
  exact Develops.refl _

end Update

/-! ### Copies of rows -/

/-- A copy of a row read earlier. If it was live then, the row is still open,
and the copy names no successor. -/
def OpenCopy (s : Store) (memory : MemoryRow) : Prop :=
  ¬ IsRetired memory.status → s.Open memory.id ∧ PointerFree memory.metadataJson

theorem openCopy_of_row {s : Store} (hs : s.Sound) {row : MemoryRow}
    (hrow : s.memories.get? row.id = some row) : OpenCopy s row := by
  intro hlive
  have hview : lifecycleView s row.id = some (row.status, supersessionPointer row) := by
    rw [lifecycleView, hrow]
    rfl
  obtain ⟨state, hstate, hstateLive⟩ := Records.Sound.open_of_live hs hview hlive
  refine ⟨⟨state, hstate, hstateLive⟩, ?_⟩
  rw [hview] at hstate
  have hpointer : supersessionPointer row = none := (Prod.mk.inj (Option.some.inj hstate)).2
  exact (supersessionPointer_eq_none_iff.mp hpointer).2

theorem openCopy_of_getMemory {s : Store} (hs : s.Sound) {id : String} {row : MemoryRow}
    (h : s.getMemory id = some row) : OpenCopy s row := by
  have hid : row.id = id := Store.id_of_getMemory h
  subst hid
  exact openCopy_of_row hs (Store.getMemory_eq_some_iff.mp h).1

theorem Evolved.openCopy {s t : Store} (h : Evolved mayRetire s t) {memory : MemoryRow}
    (hid : ¬ mayRetire memory.id) (hcopy : OpenCopy s memory) : OpenCopy t memory :=
  fun hlive => ⟨h.keeps_open hid (hcopy hlive).1, (hcopy hlive).2⟩

/-! ### The shared routines -/

section Routines

variable {env : Env} {s : Store} {identity : Option AgentIdentity}

/-- The candidates selected are live. -/
theorem openCopy_of_pendingDerivedCandidates (hs : s.Sound) {memberId : String}
    {excludeMemoryId : Option String} {candidate : MemoryRow}
    (h : candidate ∈ s.pendingDerivedCandidates env memberId excludeMemoryId) :
    OpenCopy s candidate ∧ ¬ IsRetired candidate.status := by
  rw [Store.pendingDerivedCandidates, List.mem_mergeSort, Store.select, List.mem_filter] at h
  obtain ⟨hrow, hcond⟩ := h
  refine ⟨openCopy_of_row hs (Table.get?_of_mem hrow), ?_⟩
  simp only [Bool.and_eq_true, decide_eq_true_eq] at hcond
  have hpending : ∀ status ∈ [MemoryStatus.candidate, .needsReview], ¬ IsRetired status := by
    decide
  exact hpending _ hcond.2.1.1

/-- A candidate that is made stale stays open. -/
theorem evolved_invalidateCandidate {memberId reason : String} {invalidatedAt : UtcMoment}
    {candidate : MemoryRow} (hcopy : OpenCopy s candidate)
    (hlive : ¬ IsRetired candidate.status) :
    MovesAt (Evolved mayRetire) (invalidateCandidate env identity memberId reason invalidatedAt
      candidate) s := by
  unfold invalidateCandidate
  split
  · exact Moves.pure _ s
  split
  · exact Moves.pure _ s
  obtain ⟨hopen, hfree⟩ := hcopy hlive
  refine MovesAt.bind (evolved_updateMemory hopen ⟨rfl, ?_⟩ ?_) fun updated t _ =>
    Quiet.moves (Moves.bind (quiet_reviseMemory _ _ _ _ _ _ _) fun _ =>
      quiet_appendMemoryEvent env _ _ _) t
  · intro metadata hmetadata
    obtain rfl := Option.some.inj hmetadata
    rw [pointerFree_set (by decide), pointerFree_set (by decide)]
    exact hfree
  · -- stale is no retired status
    intro status hstatus hret
    obtain rfl := Option.some.inj hstatus
    exact absurd hret (by decide)

/-- Making derived candidates stale retires no memory. -/
theorem evolved_invalidateCandidates {memberId reason : String} {invalidatedAt : UtcMoment}
    (candidates : List MemoryRow)
    (h : ∀ candidate ∈ candidates, OpenCopy s candidate ∧ ¬ IsRetired candidate.status) :
    MovesAt (Evolved fun _ => False)
      (candidates.forM (invalidateCandidate env identity memberId reason invalidatedAt)) s := by
  induction candidates generalizing s with
  | nil => exact Moves.pure _ s
  | cons candidate candidates ih =>
    obtain ⟨hcopy, hlive⟩ := h candidate (by simp)
    have hfirst : MovesAt (Evolved fun _ => False)
        (invalidateCandidate env identity memberId reason invalidatedAt candidate) s :=
      evolved_invalidateCandidate hcopy hlive
    refine MovesAt.bind hfirst fun u t hrun => ih ?_
    intro other hother
    obtain ⟨hcopy, hlive⟩ := h other (by simp [hother])
    exact ⟨(hfirst.ok hrun).openCopy id hcopy, hlive⟩

theorem evolved_invalidatePendingDerivedCandidates (hs : s.Sound) (memberId reason : String)
    (excludeMemoryId : Option String) :
    MovesAt (Evolved fun _ => False) (invalidatePendingDerivedCandidates env memberId identity
      reason excludeMemoryId) s := by
  refine MovesAt.bind (Quiet.moves (quiet_utcNow env) s) fun now t hnow => ?_
  have ht : t.Sound := ((quiet_utcNow env).ok hnow).sound hs
  refine MovesAt.bind (Moves.get t) fun u t' hget => ?_
  obtain ⟨rfl, rfl⟩ := run_get_ok.mp hget
  exact evolved_invalidateCandidates _ fun candidate h =>
    openCopy_of_pendingDerivedCandidates ht h

/-- A step that writes no memory, in front of others. -/
theorem evolved_bind_quiet {α β : Type} {m : Service α} {f : α → Service β} (hm : Moves Quiet m)
    (hf : ∀ a t, m.run s = .ok a t → Quiet s t → MovesAt (Evolved mayRetire) (f a) t) :
    MovesAt (Evolved mayRetire) (m >>= f) s :=
  MovesAt.bind (Quiet.moves hm s) fun a t hrun => hf a t hrun (hm.ok hrun)

theorem Quiet.openCopy {t : Store} (h : Quiet s t) {memory : MemoryRow}
    (hcopy : OpenCopy s memory) : OpenCopy t memory := by
  have hevolved : Evolved (fun _ => False) s t := evolved_of_quiet h
  exact hevolved.openCopy id hcopy

/-- Metadata with its lifecycle part replaced names the same successor. -/
theorem pointerFree_withAgentic {memory : MemoryRow} {agentic : Dict Json} :
    PointerFree (withAgentic memory agentic) ↔ PointerFree memory.metadataJson :=
  pointerFree_set (by decide)

/-- **Retiring without a successor.** -/
theorem evolved_transitionMemory_none {memory : MemoryRow} {transition : Transition}
    {reason : String} (hs : s.Sound) (hmemory : OpenCopy s memory) :
    MovesAt (Evolved fun id => id = memory.id)
      (transitionMemory env identity memory transition reason none) s := by
  refine evolved_bind_quiet (quiet_requireTransition _ _) fun _ s₁ hlegal hquiet => ?_
  have hlive : ¬ IsRetired memory.status := (run_requireTransition_ok hlegal).2.1
  have hs₁ : s₁.Sound := hquiet.sound hs
  have hmemory₁ : OpenCopy s₁ memory := hquiet.openCopy hmemory
  refine evolved_bind_quiet (quiet_utcNow env) fun now s₂ _ hquiet => ?_
  -- candidates that depend on the memory are made stale first, which retires none
  have hinvalidate : ∀ reason, MovesAt (Evolved fun _ => False)
      (invalidatePendingDerivedCandidates env memory.id identity reason
        transition.excludeDerivedCandidateId) s₂ := fun reason =>
    evolved_invalidatePendingDerivedCandidates (hquiet.sound hs₁) _ _ _
  refine MovesAt.bind ((hinvalidate _).mono fun _ h => h.mono fun _ => False.elim)
    fun _ s₃ hrun => ?_
  obtain ⟨hopen, hfree⟩ :=
    ((hinvalidate _).ok hrun).openCopy id (hquiet.openCopy hmemory₁) hlive
  refine MovesAt.bind (Moves.pure _ s₃) fun patch s₄ hpatch => ?_
  obtain ⟨rfl, rfl⟩ := run_pure_ok.mp hpatch
  refine MovesAt.bind (evolved_updateMemory hopen ⟨rfl, ?_⟩ fun _ _ _ => rfl) fun updated s₅ _ =>
    Quiet.moves (quiet_transitionLog _ _ _ _) s₅
  -- the patch writes no pointer without a successor
  intro metadata hmetadata
  obtain rfl := Option.some.inj hmetadata
  exact pointerFree_withAgentic.mpr hfree

/-- Both copies of the pointer name the successor. An empty id is no pointer. -/
theorem supersessionPointer_supersede {memory row : MemoryRow} {transition : Transition}
    {reason successorId : String} {now replacementTime t₁ t₂ : UtcMoment} :
    supersessionPointer ((supersedePatch memory transition reason now successorId
      replacementTime).apply t₁ t₂ row) = (some successorId).filter (· ≠ "") := by
  have hmetadata : ((memory.metadataJson.set "superseded_by" (.str successorId)).set
      "agentic_memory" (.obj (transitionedAgentic memory transition.lifecycleStatus reason
        now))).getStr? "superseded_by" = some successorId := by
    rw [Dict.getStr?_set, if_neg (by decide), Dict.getStr?_set, if_pos rfl, Json.asStr?_str]
  unfold supersessionPointer
  simp only [MemoryPatch.apply, supersedePatch, Option.some_or, Option.getD_some, hmetadata]
  split
  · next id h => exact h.symm
  · rfl

/-- **Retiring in favour of a successor**: the update of the retired row. -/
theorem evolved_supersede {memory successor : MemoryRow} {transition : Transition}
    {reason : String} {now replacementTime : UtcMoment} {actor : Actor}
    (hretired : IsRetired transition.nextStatus) (hopen : s.Open memory.id)
    (hsuccessor : s.Open successor.id) (hne : successor.id ≠ memory.id) :
    MovesAt (Evolved fun id => id = memory.id) (updateMemory env memory.id
      (supersedePatch memory transition reason now successor.id replacementTime) actor) s := by
  refine MovesAt.intro ?_ fun e t h => evolved_of_quiet (updateMemory_error h).1
  intro updated t h
  obtain ⟨row, -, rfl, -⟩ := updateMemory_ok h
  rw [Evolved, lifecycleView_updateMemory h, supersessionPointer_supersede]
  show Develops IsRetired _ _ (Function.update _ _ (some (transition.nextStatus, _)))
  by_cases hid : successor.id = ""
  · -- an empty id leaves no pointer behind
    rw [Option.filter_some, if_neg (by simp [hid])]
    exact Develops.restate hopen fun _ => rfl
  · rw [Option.filter_some, if_pos (by simpa using hid)]
    exact Develops.succeed hopen hsuccessor (Ne.symm hne) hretired rfl

/-- The update of the successor. -/
theorem evolved_successorPatch {memory successor : MemoryRow} {actor : Actor}
    (hopen : s.Open successor.id) (hfree : PointerFree successor.metadataJson) :
    MovesAt (Evolved mayRetire)
      (updateMemory env successor.id (successorPatch memory successor) actor) s := by
  refine evolved_updateMemory hopen ⟨rfl, ?_⟩ ?_
  · intro metadata hmetadata
    obtain rfl := Option.some.inj hmetadata
    exact (pointerFree_set (by decide)).mpr hfree
  · intro status hstatus
    exact absurd hstatus (by simp [successorPatch])

/-- **`_transition_memory`** develops the rows and retires none but its own. -/
theorem evolved_transitionMemory {memory : MemoryRow} {transition : Transition} {reason : String}
    {supersededBy : Option MemoryRow} (hretired : IsRetired transition.nextStatus)
    (hs : s.Sound) (hmemory : OpenCopy s memory)
    (hsupersededBy : ∀ successor ∈ supersededBy, OpenCopy s successor) :
    MovesAt (Evolved fun id => id = memory.id)
      (transitionMemory env identity memory transition reason supersededBy) s := by
  cases supersededBy with
  | none => exact evolved_transitionMemory_none hs hmemory
  | some successor =>
  refine evolved_bind_quiet (quiet_requireTransition _ _) fun _ s₁ hlegal hquiet => ?_
  have hlive : ¬ IsRetired memory.status := (run_requireTransition_ok hlegal).2.1
  have hs₁ : s₁.Sound := hquiet.sound hs
  have hmemory₁ : OpenCopy s₁ memory := hquiet.openCopy hmemory
  have hsuccessor₁ : OpenCopy s₁ successor := hquiet.openCopy (hsupersededBy successor rfl)
  refine evolved_bind_quiet (quiet_guardSupersessionAcyclic _ _ _) fun _ s₂ hguard _ => ?_
  obtain ⟨hsuccessorLive, hne, rfl⟩ := run_guardSupersessionAcyclic_ok hguard
  refine evolved_bind_quiet (quiet_utcNow env) fun now s₃ _ hquiet => ?_
  -- the invalidation retires nothing, so both rows are still open after it
  have hinvalidate : ∀ reason, MovesAt (Evolved fun _ => False)
      (invalidatePendingDerivedCandidates env memory.id identity reason
        transition.excludeDerivedCandidateId) s₃ := fun reason =>
    evolved_invalidatePendingDerivedCandidates (hquiet.sound hs₁) _ _ _
  refine MovesAt.bind ((hinvalidate _).mono fun _ h => h.mono fun _ => False.elim)
    fun _ s₄ hrun => ?_
  have hkept := (hinvalidate _).ok hrun
  obtain ⟨hopen, -⟩ := hkept.openCopy id (hquiet.openCopy hmemory₁) hlive
  obtain ⟨hopen', hfree'⟩ := hkept.openCopy id (hquiet.openCopy hsuccessor₁) hsuccessorLive
  refine evolved_bind_quiet (quiet_transitionPatch _ _ _ _ _) fun patch s₅ hpatch hquiet => ?_
  have hview : ∀ {id}, s₄.Open id → s₅.Open id := fun h => by
    have hevolved : Evolved (fun _ => False) s₄ s₅ := evolved_of_quiet hquiet
    exact hevolved.keeps_open not_false h
  simp only [transitionPatch, run_bind_ok, run_pure_ok] at hpatch
  obtain ⟨replacementTime, s₆, -, rfl, rfl⟩ := hpatch
  have hupdate : MovesAt (Evolved fun id => id = memory.id) (updateMemory env memory.id
      (supersedePatch memory transition reason now successor.id replacementTime)
      (actorOf identity)) s₆ :=
    evolved_supersede hretired (hview hopen) (hview hopen') hne
  refine MovesAt.bind hupdate fun updated s₇ hrun => ?_
  have hopen₇ : s₇.Open successor.id := (hupdate.ok hrun).keeps_open hne (hview hopen')
  dsimp only
  split
  · exact MovesAt.bind (evolved_successorPatch hopen₇ hfree') fun _ s₈ _ =>
      Quiet.moves (quiet_transitionLog _ _ _ _) s₈
  · exact Quiet.moves (quiet_transitionLog _ _ _ _) s₇

end Routines

/-! ### The calls -/

section Calls

variable {env : Env} {s : Store} {identity : Option AgentIdentity}

/-- A sound store and a row read from it, a few quiet steps ago. -/
structure Ready (s : Store) (memory : MemoryRow) : Prop where
  sound : s.Sound
  copy : OpenCopy s memory

theorem Quiet.ready {t : Store} (h : Quiet s t) {memory : MemoryRow} (hready : Ready s memory) :
    Ready t memory :=
  ⟨h.sound hready.sound, h.openCopy hready.copy⟩

/-- A quiet step in front of the rest of a call. -/
theorem Ready.bind_quiet {α β : Type} {memory : MemoryRow} {m : Service α} {f : α → Service β}
    (hready : Ready s memory) (hm : Moves Quiet m)
    (hf : ∀ a t, m.run s = .ok a t → Ready t memory → MovesAt (Evolved mayRetire) (f a) t) :
    MovesAt (Evolved mayRetire) (m >>= f) s :=
  evolved_bind_quiet hm fun a t hrun hquiet => hf a t hrun (hquiet.ready hready)

/-- Reading the row in front of the rest of a call. -/
theorem evolved_bind_lockedMemory {β : Type} {memoryId missing : String}
    {f : MemoryRow → Service β} (hs : s.Sound)
    (hf : ∀ memory, s.getMemory memoryId = some memory → Ready s memory →
      MovesAt (Evolved mayRetire) (f memory) s) :
    MovesAt (Evolved mayRetire) (lockedMemory memoryId missing >>= f) s := by
  refine evolved_bind_quiet (quiet_lockedMemory _ _) fun memory t hrun _ => ?_
  simp only [lockedMemory, run_bind_ok, run_get_ok, run_orRaise_ok] at hrun
  obtain ⟨_, _, ⟨rfl, rfl⟩, hrow, rfl⟩ := hrun
  exact hf memory hrow ⟨hs, openCopy_of_getMemory hs hrow⟩

/-- An update of the row that was read, when it was live. -/
theorem Ready.evolved_updateMemory {memory : MemoryRow} {patch : MemoryPatch} {actor : Actor}
    (hready : Ready s memory) (hlive : ¬ IsRetired memory.status)
    (hcolumn : patch.supersededBy = none)
    (hmetadata : ∀ metadata ∈ patch.metadataJson,
      PointerFree memory.metadataJson → PointerFree metadata) :
    MovesAt (Evolved fun _ => True) (updateMemory env memory.id patch actor) s := by
  obtain ⟨hopen, hfree⟩ := hready.copy hlive
  exact AliceBot.evolved_updateMemory hopen ⟨hcolumn, fun d hd => hmetadata d hd hfree⟩
    fun _ _ _ => trivial

theorem evolved_attachMemoryEmbedding (memory : MemoryRow) :
    Moves (Evolved mayRetire) (attachMemoryEmbedding env memory) :=
  (resigned_attachMemoryEmbedding memory).mono fun _ _ => evolved_of_resigned

theorem evolved_refreshMemoryDerivedState (memory : MemoryRow) (stage : String)
    (replaceEntityLinks : Bool) :
    Moves (Evolved mayRetire)
      (refreshMemoryDerivedState env memory identity stage replaceEntityLinks) :=
  (resigned_refreshMemoryDerivedState identity memory stage replaceEntityLinks).mono
    fun _ _ => evolved_of_resigned

theorem evolved_forget (hs : s.Sound) (memoryId : String) (reason : Option String) :
    MovesAt (Evolved fun _ => True) (forget env identity memoryId reason) s := by
  refine evolved_bind_lockedMemory hs fun memory _ hready => ?_
  refine hready.bind_quiet (Moves.raiseIf _ _) fun _ s₁ _ hready => ?_
  refine hready.bind_quiet (quiet_policyCheckedWrite env _ _ _) fun _ s₂ _ hready => ?_
  refine MovesAt.bind (MovesAt.mono (evolved_transitionMemory (by decide) hready.sound
    hready.copy (by simp)) fun _ h => h.mono fun _ _ => trivial) fun _ t _ => Moves.pure _ t

/-- An undo develops the store soundly: its row is retired, in favour of a live
successor if there is one. -/
theorem evolved_undo (hs : s.Sound) (memoryId reason supersededByMemoryId : Option String) :
    MovesAt (Evolved fun _ => True)
      (undo env identity memoryId reason supersededByMemoryId) s := by
  refine evolved_bind_quiet (quiet_undoTarget _) fun memory s₁ htarget hquiet => ?_
  obtain ⟨id, hrow⟩ := run_undoTarget_ok htarget
  have hready : Ready s₁ memory := hquiet.ready ⟨hs, openCopy_of_getMemory hs hrow⟩
  refine hready.bind_quiet (Moves.raiseIf _ _) fun _ s₂ _ hready => ?_
  refine hready.bind_quiet (quiet_policyCheckedWrite env _ _ _) fun _ s₃ _ hready => ?_
  refine evolved_bind_quiet (quiet_undoSuccessor _ _) fun successor s₄ hsuccessor hquiet => ?_
  have hsuccessor₄ : ∀ row ∈ successor, OpenCopy s₄ row := by
    intro row hmem
    obtain ⟨id, hrow⟩ := run_undoSuccessor_ok hsuccessor hmem
    exact hquiet.openCopy (openCopy_of_getMemory hready.sound hrow)
  have hready := hquiet.ready hready
  refine MovesAt.bind (MovesAt.mono (evolved_transitionMemory (by decide) hready.sound
    hready.copy hsuccessor₄) fun _ h => h.mono fun _ _ => trivial) fun _ t _ => Moves.pure _ t

/-- A correction develops the store soundly: derived candidates are made stale, and the
row gets its new text. -/
theorem evolved_correct (hs : s.Sound) (memoryId canonicalText : String)
    (reason : Option String) :
    MovesAt (Evolved fun _ => True) (correct env identity memoryId canonicalText reason) s := by
  -- the checks come first, and none of them writes a row
  refine evolved_bind_lockedMemory hs fun memory _ hready => ?_
  refine hready.bind_quiet (Moves.raiseIf _ _) fun _ s₁ _ hready => ?_
  refine hready.bind_quiet (quiet_policyCheckedWrite env _ _ _) fun _ s₂ _ hready => ?_
  refine hready.bind_quiet (quiet_requireTransition _ _) fun _ s₃ hlegal hready => ?_
  have hlive : ¬ IsRetired memory.status := (run_requireTransition_ok hlegal).2.1
  refine hready.bind_quiet (Moves.raiseIf _ _) fun _ s₄ _ hready => ?_
  refine hready.bind_quiet (quiet_normalizedText _ _) fun nextText s₅ _ hready => ?_
  -- the first write is to the derived candidates
  have hinvalidate : ∀ reason, MovesAt (Evolved fun _ => False)
      (invalidatePendingDerivedCandidates env memory.id identity reason none) s₅ := fun reason =>
    evolved_invalidatePendingDerivedCandidates hready.sound _ _ _
  refine MovesAt.bind ((hinvalidate _).mono fun _ h => h.mono fun _ => False.elim)
    fun _ s₆ hrun => ?_
  have hkept := (hinvalidate _).ok hrun
  have hready : Ready s₆ memory := ⟨hkept.sound hready.sound, hkept.openCopy id hready.copy⟩
  refine hready.bind_quiet (quiet_utcNow env) fun now s₇ _ hready => ?_
  refine MovesAt.bind (hready.evolved_updateMemory hlive rfl ?_) fun updated s₈ _ => ?_
  · intro metadata hmetadata hfree
    obtain rfl := Option.some.inj hmetadata
    rw [pointerFree_set (by decide), pointerFree_set (by decide)]
    exact hfree
  · exact MovesAt.bind (evolved_refreshMemoryDerivedState _ _ _ s₈) fun _ s₉ _ =>
      Quiet.moves (Moves.bind (quiet_reviseMemory _ _ _ _ _ _ _) fun _ =>
        Moves.bind (quiet_appendMemoryEvent env _ _ _) fun _ => Moves.pure _) s₉

/-- An expiry develops the store soundly, since it touches neither status nor pointers.
-/
theorem evolved_expire (hs : s.Sound) (memoryId : String) (validTo : TimestampValue)
    (reason : String) :
    MovesAt (Evolved fun _ => True) (expire env identity memoryId validTo reason) s := by
  refine evolved_bind_lockedMemory hs fun memory _ hready => ?_
  refine hready.bind_quiet (quiet_policyCheckedWrite env _ _ _) fun _ s₁ _ hready => ?_
  refine hready.bind_quiet (quiet_requireTransition _ _) fun _ s₂ hlegal hready => ?_
  have hlive : ¬ IsRetired memory.status := (run_requireTransition_ok hlegal).2.1
  refine hready.bind_quiet (quiet_normalizedText _ _) fun reasonText s₃ _ hready => ?_
  refine hready.bind_quiet (quiet_validToIso _) fun moment s₄ _ hready => ?_
  refine hready.bind_quiet (quiet_utcNow env) fun now s₅ _ hready => ?_
  refine MovesAt.bind (hready.evolved_updateMemory hlive rfl ?_) fun updated s₆ _ =>
    Quiet.moves (Moves.bind (quiet_reviseMemory _ _ _ _ _ _ _) fun _ =>
      Moves.bind (quiet_appendMemoryEvent env _ _ _) fun _ => Moves.pure _) s₆
  intro metadata hmetadata hfree
  obtain rfl := Option.some.inj hmetadata
  exact (pointerFree_set (by decide)).mpr hfree

/-- Both writes of an unexpiry leave the row open. -/
theorem evolved_reopenWindow {memory : MemoryRow} {restored : MemoryStatus} {reason : String}
    (hready : Ready s memory) (hlive : ¬ IsRetired memory.status)
    (hrestored : ¬ IsRetired restored) :
    MovesAt (Evolved fun _ => True) (reopenWindow env identity memory restored reason) s := by
  refine hready.bind_quiet (quiet_utcNow env) fun now s₁ _ hready => ?_
  obtain ⟨hopen, hfree⟩ := hready.copy hlive
  have hupdate : MovesAt (Evolved fun _ => False) (updateMemory env memory.id
      (unexpirePatch memory restored (clearedValidity memory now reason (actorOf identity)) now)
      (actorOf identity)) s₁ := by
    refine evolved_updateMemory hopen ⟨rfl, ?_⟩ ?_
    · intro metadata hmetadata
      obtain rfl := Option.some.inj hmetadata
      exact (pointerFree_set (by decide)).mpr hfree
    · intro status hstatus hret
      simp only [unexpirePatch, Option.mem_def, Option.ite_none_right_eq_some,
        Option.some.injEq] at hstatus
      exact hrestored (hstatus.2 ▸ hret)
  refine MovesAt.bind (hupdate.mono fun _ h => h.mono fun _ => False.elim) fun updated s₂ hrun => ?_
  -- between the writes the copy is still the open row
  have hkept := hupdate.ok hrun
  have hready : Ready s₂ memory := ⟨hkept.sound hready.sound, hkept.openCopy id hready.copy⟩
  split
  · refine hready.evolved_updateMemory hlive rfl ?_
    intro metadata hmetadata hfree
    obtain rfl := Option.some.inj hmetadata
    exact (pointerFree_set (by decide)).mpr hfree
  · exact Moves.pure _ s₂

theorem evolved_unexpire (hs : s.Sound) (memoryId reason : String) :
    MovesAt (Evolved fun _ => True) (unexpire env identity memoryId reason) s := by
  refine evolved_bind_lockedMemory hs fun memory _ hready => ?_
  refine hready.bind_quiet (quiet_policyCheckedWrite env _ _ _) fun _ s₁ _ hready => ?_
  refine hready.bind_quiet (quiet_requireTransition _ _) fun restored s₂ hlegal hready => ?_
  obtain ⟨hresolve, hlive, -⟩ := run_requireTransition_ok hlegal
  have hrestored : ¬ IsRetired restored :=
    (mem_liveStatuses_iff restored).mp (resolveTransition_unexpire hresolve)
  refine hready.bind_quiet (quiet_normalizedText _ _) fun reasonText s₃ _ hready => ?_
  split
  · exact MovesAt.bind (evolved_reopenWindow hready hlive hrestored) fun updated s₄ _ =>
      Quiet.moves (Moves.bind (quiet_reviseMemory _ _ _ _ _ _ _) fun _ =>
        Moves.bind (quiet_appendMemoryEvent env _ _ _) fun _ => Moves.pure _) s₄
  · exact Moves.pure _ s₃

/-! #### Commit -/

/-- **A row is inserted.** It points nowhere. -/
theorem evolved_createMemoryRecord {memory : NewMemory} {request : MemoryCommitRequest}
    (hfree : PointerFree memory.metadataJson) :
    Moves (Evolved mayRetire) (createMemoryRecord env memory identity request) := by
  intro s
  refine MovesAt.catching ?_ fun e t _ => ?_
  · refine MovesAt.intro ?_ fun e t h => evolved_of_quiet (createMemory_error h).1
    intro row t h
    obtain ⟨⟨id, now, rfl⟩, hnew, hrows, -⟩ := createMemory_ok h
    -- the metadata of a new row names no successor
    have hpointer : supersessionPointer (memory.row id now) = none := by
      refine supersessionPointer_eq_none_iff.mpr ⟨rfl, ?_⟩
      show PointerFree (canonicalMemoryMetadata memory)
      unfold canonicalMemoryMetadata
      dsimp only
      split
      · exact (pointerFree_set (by decide)).mpr hfree
      · exact hfree
    -- so one more row is live, and the others are as they were
    have hview : lifecycleView t = Function.update (lifecycleView s) (memory.row id now).id
        (some (memory.status, none)) := by
      funext k
      rw [lifecycleView, hrows]
      by_cases hk : (memory.row id now).id = k
      · subst hk
        rw [if_pos rfl, Function.update_self, Option.map_some, hpointer]
        rfl
      · rw [if_neg hk, Function.update_of_ne (Ne.symm hk)]
        rfl
    rw [Evolved, hview]
    refine Develops.insert ?_
    rw [lifecycleView, hnew]
    rfl
  · split
    · exact Moves.bind Moves.get (fun _ => Moves.bind (Moves.orRaise _ _) fun _ =>
        Moves.bind (Moves.raiseIf _ _) fun _ => Moves.throw _) t
    · exact Moves.throw _ t

/-- The metadata of a commit names no successor. -/
theorem pointerFree_baseMetadata {request : MemoryCommitRequest}
    {decision : MemoryCommitPolicyDecision} {status writeMode lifecycleStatus : String}
    {confirmation : Option (Dict Json)} :
    PointerFree (baseMetadata env identity request decision status writeMode lifecycleStatus
      confirmation) := by
  have habsent : (baseMetadata env identity request decision status writeMode lifecycleStatus
      confirmation).getStr? "superseded_by" = none := by
    cases identity <;>
      simp [baseMetadata, agentMetadata, Dict.getStr?, Dict.get?, List.lookup_cons]
  rw [PointerFree, habsent]
  rfl

/-- Creating a memory in any mode retires none: a new row is added, and a conflict
replays an old one. -/
theorem evolved_createByMode (request : MemoryCommitRequest)
    (decision : MemoryCommitPolicyDecision) :
    Moves (Evolved mayRetire) (createByMode env identity request decision) := by
  unfold createByMode
  split
  · -- a pending confirmation
    refine Moves.bind (Quiet.moves (quiet_utcNow env)) fun _ =>
      Moves.bind (Quiet.moves (quiet_newId env)) fun _ => Moves.bind (Moves.orRaise _ _) fun _ =>
      Moves.bind (Quiet.moves (quiet_memoryKeySuffix _)) fun _ =>
      Moves.bind (evolved_createMemoryRecord pointerFree_baseMetadata) fun _ =>
      Moves.bind (evolved_attachMemoryEmbedding _) fun _ => Quiet.moves ?_
    exact Moves.bind (quiet_appendRevision _) fun _ =>
      Moves.bind (quiet_appendMemoryEvent env _ _ _) fun _ => Moves.pure _
  · -- a review candidate
    refine Moves.bind (Quiet.moves (quiet_newId env)) fun _ =>
      Moves.bind (Quiet.moves (quiet_memoryKeySuffix _)) fun _ =>
      Moves.bind (evolved_createMemoryRecord ?_) fun _ =>
      Moves.bind (evolved_attachMemoryEmbedding _) fun _ => Quiet.moves ?_
    · show PointerFree (reviewMetadata ..)
      unfold reviewMetadata
      rw [pointerFree_set (by decide), pointerFree_set (by decide), pointerFree_set (by decide)]
      exact pointerFree_baseMetadata
    · exact Moves.bind (quiet_appendRevision _) fun _ =>
        Moves.bind (quiet_appendMemoryEvent env _ _ _) fun _ =>
        Moves.bind (quiet_appendMemoryEvent env _ _ _) fun _ => Moves.pure _
  · -- a fact
    refine Moves.bind (Quiet.moves (quiet_utcNow env)) fun _ =>
      Moves.bind (Quiet.moves (quiet_memoryKeySuffix _)) fun _ =>
      Moves.bind (evolved_createMemoryRecord pointerFree_baseMetadata) fun _ =>
      Moves.bind (evolved_attachMemoryEmbedding _) fun _ => Quiet.moves ?_
    refine Moves.bind (quiet_appendRevision _) fun _ =>
      Moves.bind (quiet_createProvenanceLinks _ _) fun _ =>
      Moves.bind (quiet_appendDerivedEvents env _ _ _) fun _ =>
      Moves.bind (quiet_appendMemoryEvent env _ _ _) fun _ => ?_
    split
    · refine Moves.bind (quiet_appendMemoryEvent env _ _ _) fun _ => ?_
      refine Moves.ite (fun _ => ?_) fun _ => ?_
      · exact Moves.bind (quiet_appendMemoryEvent env _ _ _) fun _ => Moves.pure _
      · exact Moves.pure _
    · exact Moves.pure _

theorem evolved_commit (request : MemoryCommitRequest) :
    Moves (Evolved mayRetire) (commit env identity request) := by
  refine Moves.bind Moves.get fun u => ?_
  split
  · exact Quiet.moves (quiet_idempotentReplay _ _)
  · refine Moves.bind (Quiet.moves (quiet_evaluatePolicy _)) fun decision => ?_
    refine Moves.ite (fun _ => ?_) fun _ => ?_
    · exact Quiet.moves (Moves.bind (quiet_appendEvent env _ _ _ _) fun _ => Moves.pure _)
    · refine Moves.catching (evolved_createByMode _ _) fun e => ?_
      split
      · exact Quiet.moves (quiet_idempotentReplay _ _)
      · exact Moves.throw _

/-! #### Confirm -/

/-- A replayed confirmation touches neither status nor pointer, whatever became
of the row. -/
theorem evolved_replayConfirmation (memory : MemoryRow) (confirmationId action : String) :
    Moves (Evolved mayRetire)
      (replayConfirmation env identity memory confirmationId action) := by
  refine Moves.ite (fun _ => ?_) fun _ => Moves.ite (fun _ => Moves.pure _) fun _ => Moves.throw _
  refine Moves.bind ?_ fun _ => Moves.pure _
  refine Moves.bind (Quiet.moves (quiet_utcNow env)) fun _ => ?_
  refine Moves.bind (fun s => evolved_updateMemory_same rfl rfl rfl) fun _ => ?_
  exact Quiet.moves (Moves.bind (quiet_reviseMemory _ _ _ _ _ _ _) fun _ => Moves.pure _)

theorem evolved_expireConfirmation {memory : MemoryRow} {confirmationId : String}
    (hready : Ready s memory) :
    MovesAt (Evolved fun _ => True)
      (expireConfirmation env identity memory confirmationId) s := by
  refine hready.bind_quiet (quiet_requireTransition _ _) fun _ s₁ hlegal hready => ?_
  have hlive : ¬ IsRetired memory.status := (run_requireTransition_ok hlegal).2.1
  refine hready.bind_quiet (quiet_utcNow env) fun now s₂ _ hready => ?_
  refine MovesAt.bind (hready.evolved_updateMemory hlive rfl ?_) fun updated s₃ _ =>
    Quiet.moves (Moves.bind (quiet_reviseMemory _ _ _ _ _ _ _) fun _ =>
      Moves.bind (quiet_appendMemoryEvent env _ _ _) fun _ => Moves.pure _) s₃
  intro metadata hmetadata hfree
  obtain rfl := Option.some.inj hmetadata
  exact pointerFree_withAgentic.mpr hfree

/-- Deciding a confirmation develops the store soundly: the row becomes active or
rejected, and points nowhere. -/
theorem evolved_decideConfirmation {memory : MemoryRow} {confirmationId action : String}
    {canonicalText rationale : Option String} (hready : Ready s memory) :
    MovesAt (Evolved fun _ => True) (decideConfirmation env identity memory confirmationId action
      canonicalText rationale) s := by
  refine hready.bind_quiet (quiet_requireTransition _ _) fun _ s₁ hlegal hready => ?_
  have hlive : ¬ IsRetired memory.status := (run_requireTransition_ok hlegal).2.1
  refine hready.bind_quiet (quiet_confirmedText _ _) fun nextText s₂ _ hready => ?_
  refine hready.bind_quiet (quiet_utcNow env) fun now s₃ _ hready => ?_
  split
  · refine MovesAt.bind (hready.evolved_updateMemory hlive rfl ?_) fun updated s₄ _ =>
      Quiet.moves (Moves.bind (quiet_reviseMemory _ _ _ _ _ _ _) fun _ =>
        Moves.bind (quiet_appendMemoryEvent env _ _ _) fun _ => Moves.pure _) s₄
    intro metadata hmetadata hfree
    obtain rfl := Option.some.inj hmetadata
    exact pointerFree_withAgentic.mpr hfree
  · refine MovesAt.bind (hready.evolved_updateMemory hlive rfl ?_) fun updated s₄ _ =>
      MovesAt.bind (evolved_refreshMemoryDerivedState _ _ _ s₄) fun _ s₅ _ =>
        Quiet.moves (Moves.bind (quiet_reviseMemory _ _ _ _ _ _ _) fun _ =>
          Moves.bind (quiet_appendMemoryEvent env _ _ _) fun _ => Moves.pure _) s₅
    intro metadata hmetadata hfree
    obtain rfl := Option.some.inj hmetadata
    exact pointerFree_withAgentic.mpr hfree

/-- A confirmation develops the store soundly, whether it is replayed, expires or is
decided. -/
theorem evolved_confirm (hs : s.Sound) (confirmationId action : String)
    (canonicalText rationale : Option String) :
    MovesAt (Evolved fun _ => True)
      (confirm env identity confirmationId action canonicalText rationale) s := by
  refine evolved_bind_quiet (Moves.raiseIf _ _) fun _ s₁ _ hquiet => ?_
  have hs₁ : s₁.Sound := hquiet.sound hs
  refine MovesAt.bind (Moves.get s₁) fun u _ hget => ?_
  obtain ⟨rfl, rfl⟩ := run_get_ok.mp hget
  refine MovesAt.bind (Moves.orRaise _ _ _) fun found s₂ hfound => ?_
  obtain ⟨-, rfl⟩ := run_orRaise_ok.mp hfound
  refine MovesAt.bind (Moves.orRaise _ _ _) fun memory s₃ hmemory => ?_
  obtain ⟨hrow, rfl⟩ := run_orRaise_ok.mp hmemory
  have hready : Ready s₁ memory := ⟨hs₁, openCopy_of_getMemory hs₁ hrow⟩
  refine hready.bind_quiet (quiet_policyCheckedWrite env _ _ _) fun _ s₄ _ hready => ?_
  split
  · exact evolved_replayConfirmation _ _ _ s₄
  · refine hready.bind_quiet (quiet_confirmationExpired _) fun expired s₅ _ hready => ?_
    split
    · exact evolved_expireConfirmation hready
    · exact evolved_decideConfirmation hready

/-! #### Acceptance -/

/-- The loop over the proposed members. A member that was superseded leaves the
ones after it open. -/
theorem evolved_supersedeMembers {memory : MemoryRow} {members : List (String × MemoryRow)}
    {ids : List String} (hs : s.Sound) (hmemory : OpenCopy s memory) (hnodup : ids.Nodup)
    (hnotMem : memory.id ∉ ids)
    (hmembers : ∀ id ∈ ids, ∀ member, Dict.get? members id = some member →
      member.id = id ∧ OpenCopy s member) :
    MovesAt (Evolved fun id => id ∈ ids) (supersedeMembers env identity memory members ids) s := by
  induction ids generalizing s with
  | nil => exact Moves.pure _ s
  | cons first ids ih =>
    obtain ⟨hfirst, hnodup⟩ := List.nodup_cons.mp hnodup
    -- what develops with the rest develops with all of them
    have hwiden : ∀ {u : Store} {m : Service SupersededMembers},
        MovesAt (Evolved fun id => id ∈ ids) m u →
        MovesAt (Evolved fun id => id ∈ first :: ids) m u := fun h =>
      h.mono fun _ hdev => Develops.mono hdev fun _ hid => List.mem_cons_of_mem _ hid
    have hrest := ih hs hmemory hnodup (fun h => hnotMem (List.mem_cons_of_mem _ h))
      fun id hid => hmembers id (List.mem_cons_of_mem _ hid)
    unfold supersedeMembers
    split
    · exact MovesAt.bind (hwiden hrest) fun _ t _ => Moves.pure _ t
    · next member hmember =>
      split
      · exact MovesAt.bind (hwiden hrest) fun _ t _ => Moves.pure _ t
      · -- the first member is retired in favour of the accepted memory
        obtain ⟨hid, hcopy⟩ := hmembers first (by simp) member hmember
        have htransition : MovesAt (Evolved fun id => id = member.id)
            (transitionMemory env identity member (supersedeMemberTransition memory.id)
              ("Superseded by accepted consolidation candidate " ++ memory.id ++ ".")
              (some memory)) s := by
          refine evolved_transitionMemory (List.mem_cons_self : IsRetired .superseded) hs hcopy ?_
          rintro successor hsuccessor
          obtain rfl := Option.some.inj hsuccessor
          exact hmemory
        rw [hid] at htransition
        refine MovesAt.bind (htransition.mono fun _ h => h.mono fun id hid => ?_)
          fun _ t hrun => ?_
        · rw [hid]
          exact List.mem_cons_self
        · have hevolved := htransition.ok hrun
          refine MovesAt.bind (hwiden (ih (hevolved.sound hs) ?_ hnodup ?_ ?_)) fun _ u _ =>
            Moves.pure _ u
          · -- the accepted memory and the members after this one are still open: ids are distinct
            refine hevolved.openCopy ?_ hmemory
            rintro rfl
            exact hnotMem List.mem_cons_self
          · exact fun h => hnotMem (List.mem_cons_of_mem _ h)
          · intro id hmem other hother
            obtain ⟨hotherId, hcopy⟩ := hmembers id (List.mem_cons_of_mem _ hmem) other hother
            refine ⟨hotherId, hevolved.openCopy ?_ hcopy⟩
            rw [hotherId]
            rintro rfl
            exact hfirst hmem

theorem pointerFree_acceptancePatch {memory : MemoryRow} {consolidation accepted : Dict Json}
    {proposal : ConsolidationProposal} {now : UtcMoment} {metadata : Dict Json}
    (hmetadata : metadata ∈
      (acceptancePatch memory consolidation proposal accepted now).metadataJson)
    (hfree : PointerFree memory.metadataJson) : PointerFree metadata := by
  obtain rfl := Option.some.inj hmetadata
  split
  · rw [pointerFree_set (by decide), pointerFree_set (by decide), pointerFree_set (by decide)]
    exact hfree
  · rw [pointerFree_set (by decide), pointerFree_set (by decide), pointerFree_set (by decide)]
    exact hfree

/-- An acceptance develops the store soundly: the members go first, each in favour of
the memory that is accepted. -/
theorem evolved_applyAcceptance {memory : MemoryRow} {consolidation : Dict Json}
    {reasonText : String} {proposal : ConsolidationProposal} {members : List (String × MemoryRow)}
    (hready : Ready s memory) (hreview : Reviewed env s memory consolidation proposal members) :
    MovesAt (Evolved fun _ => True) (applyAcceptance env identity memory consolidation reasonText
      proposal members) s := by
  have hpending : ∀ status ∈ [MemoryStatus.candidate, .needsReview], ¬ IsRetired status := by
    decide
  have hlive : ¬ IsRetired memory.status := hpending _ hreview.acceptable
  obtain ⟨hnodup, hnotMem⟩ := readProposal_ok hreview.read
  -- the members are the rows locked for the review, so each is an open copy
  have hloop : MovesAt (Evolved fun id => id ∈ proposal.proposed)
      (supersedeMembers env identity memory members proposal.proposed) s := by
    refine evolved_supersedeMembers hready.sound hready.copy hnodup hnotMem ?_
    intro id hid member hmember
    rw [hreview.rows, get?_lockedRows, if_pos (mem_dependencyIds.mpr (.inr hid))] at hmember
    exact ⟨Store.id_of_getMemory hmember, openCopy_of_getMemory hready.sound hmember⟩
  refine MovesAt.bind (hloop.mono fun _ h => h.mono fun _ _ => trivial) fun outcome s₁ hrun => ?_
  have hevolved := hloop.ok hrun
  have hready : Ready s₁ memory :=
    ⟨hevolved.sound hready.sound, hevolved.openCopy hnotMem hready.copy⟩
  refine hready.bind_quiet (quiet_utcNow env) fun now s₂ _ hready => ?_
  refine MovesAt.bind (hready.evolved_updateMemory hlive rfl
    fun metadata hmetadata => pointerFree_acceptancePatch hmetadata) fun updated s₃ _ => ?_
  exact MovesAt.bind (evolved_refreshMemoryDerivedState _ _ _ s₃) fun _ s₄ _ =>
    Quiet.moves (Moves.bind (quiet_reviseMemory _ _ _ _ _ _ _) fun _ =>
      Moves.bind (quiet_appendMemoryEvent env _ _ _) fun _ => Moves.pure _) s₄

theorem evolved_acceptConsolidationCandidate (hs : s.Sound) (memoryId reason : String) :
    MovesAt (Evolved fun _ => True)
      (acceptConsolidationCandidate env identity memoryId reason) s := by
  refine evolved_bind_lockedMemory hs fun memory _ hready => ?_
  refine hready.bind_quiet (quiet_policyCheckedWrite env _ _ _) fun _ s₁ _ hready => ?_
  refine hready.bind_quiet (Moves.orRaise _ _) fun consolidation s₂ _ hready => ?_
  split
  · exact Quiet.moves (quiet_replayAcceptance _ _ _) s₂
  · refine evolved_bind_quiet (quiet_reviewedInputs _ _ _) fun inputs s₃ hreview hquiet => ?_
    have hreviewed := reviewedInputs_ok hreview
    exact evolved_applyAcceptance (hquiet.ready hready) (hreviewed.quiet hquiet)

/-! ### Runs of the service -/

/-- **Every call develops a sound store.** -/
theorem evolved_perform (hs : s.Sound) (i : Invocation) :
    MovesAt (Evolved fun _ => True) i.perform s := by
  obtain ⟨env, identity, call⟩ := i
  cases call with
  | commit request => exact MovesAt.bind (evolved_commit _ s) fun _ t _ => Moves.pure _ t
  | confirm confirmationId action canonicalText rationale =>
    exact MovesAt.bind (evolved_confirm hs _ _ _ _) fun _ t _ => Moves.pure _ t
  | correct memoryId canonicalText reason =>
    exact MovesAt.bind (evolved_correct hs _ _ _) fun _ t _ => Moves.pure _ t
  | undo memoryId reason supersededByMemoryId =>
    exact MovesAt.bind (evolved_undo hs _ _ _) fun _ t _ => Moves.pure _ t
  | forget memoryId reason =>
    exact MovesAt.bind (evolved_forget hs _ _) fun _ t _ => Moves.pure _ t
  | expire memoryId validTo reason =>
    exact MovesAt.bind (evolved_expire hs _ _ _) fun _ t _ => Moves.pure _ t
  | unexpire memoryId reason =>
    exact MovesAt.bind (evolved_unexpire hs _ _) fun _ t _ => Moves.pure _ t
  | acceptConsolidation memoryId reason =>
    exact MovesAt.bind (evolved_acceptConsolidationCandidate hs _ _) fun _ t _ => Moves.pure _ t

end Calls

/-- What holds of a store `s` the service has reached and of any store `t` it
reaches from there. -/
structure SupersessionSafe (s t : Store) : Prop where
  terminal : ∀ id row, s.memories.get? id = some row → row.status ∈ retiredStatuses →
    ∃ row', t.memories.get? id = some row' ∧ row'.status ∈ retiredStatuses
  retired_of_pointer : ∀ row ∈ s.memories.rows, supersessionPointer row ≠ none →
    row.status ∈ retiredStatuses
  acyclic : Acyclic fun id => (s.memories.get? id).bind supersessionPointer

theorem sound_of_pointerless {s : Store}
    (h : ∀ row ∈ s.memories.rows, supersessionPointer row = none) : s.Sound := by
  refine Records.sound_of_no_pointers ?_
  intro id state pointer hview
  obtain ⟨row, hrow, hrecord⟩ := Option.map_eq_some_iff.mp hview
  obtain ⟨-, rfl⟩ := Prod.mk.inj hrecord
  exact h row (Table.mem_of_get? hrow)

/-- A run of the service develops the store it starts from. -/
theorem evolved_of_run {s t : Store} {calls : List Invocation} (hs : s.Sound)
    (run : ServiceRun (· = s) calls t) : Evolved (fun _ => True) s t := by
  refine run.invariant ?_ ?_
  · rintro u rfl
    exact Std.Refl.refl u
  · rintro u i _ hevolved rfl
    exact IsTrans.trans _ _ _ hevolved
      (Invocation.transact_of_moves (evolved_perform (hevolved.sound hs) i))

/-- **Supersession is safe.** Whatever calls the service performs, from a store
without supersession pointers and in any order: a retired row stays retired,
only retired rows have a successor, and successors form no cycle. -/
theorem supersession_safe {calls later : List Invocation} {s t : Store}
    (run : ServiceRun (fun s₀ => ∀ row ∈ s₀.memories.rows, supersessionPointer row = none) calls s)
    (more : ServiceRun (· = s) later t) : SupersessionSafe s t := by
  -- a store without pointers is sound, and every call keeps it so
  have hs : s.Sound := by
    refine run.invariant (fun _ => sound_of_pointerless) ?_
    rintro u i _ hu rfl
    have hevolved : Evolved (fun _ => True) u (i.transact u) :=
      Invocation.transact_of_moves (evolved_perform hu i)
    exact hevolved.sound hu
  refine ⟨?_, ?_, ?_⟩
  · -- a retired record stays as it is along the steps
    intro id row hrow hret
    have hview : lifecycleView s id = some (row.status, supersessionPointer row) := by
      rw [lifecycleView, hrow]
      rfl
    have hkept := Evolves.of_retired_star (evolved_of_run hs more).steps hview hret
    obtain ⟨row', hrow', hrecord⟩ := Option.map_eq_some_iff.mp hkept
    exact ⟨row', hrow', (Prod.mk.inj hrecord).1 ▸ hret⟩
  · intro row hrow hpointer
    obtain ⟨successor, hsuccessor⟩ := Option.ne_none_iff_exists'.mp hpointer
    refine hs.retired_of_next row.id row.status successor ?_
    rw [lifecycleView, Table.get?_of_mem hrow, ← hsuccessor]
    rfl
  · -- the successors are the pointers of the rows
    have hnext : (lifecycleView s).next =
        fun id => (s.memories.get? id).bind supersessionPointer := by
      funext id
      rw [Records.next, lifecycleView]
      cases s.memories.get? id <;> rfl
    rw [← hnext]
    exact hs.acyclic

/-- Two facts, the first undone in favour of the second. -/
theorem supersession_safe_undo :
    let s₀ : Store :=
      { memories := ⟨[.plain "m1" .active [], .plain "m2" .active []], by decide⟩ }
    let undone := Invocation.transact ⟨.plain, none, .undo (some "m1") none (some "m2")⟩ s₀
    let forgotten := Invocation.transact ⟨.plain, none, .forget "m2" none⟩ undone
    SupersessionSafe undone forgotten ∧
      (undone.memories.get? "m1").bind supersessionPointer = some "m2" :=
  ⟨supersession_safe (.next (.start (by decide)) rfl) (.next (.start rfl) rfl), by decide +kernel⟩

end AliceBot
