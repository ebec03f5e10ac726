import AliceBot.ConsolidationReview
import AliceBot.ServiceCalls

/-!
# Acceptance is fail-closed

Accepting a consolidation candidate of a derived kind either finds every
dependency as it was reviewed, or writes no memory. When it succeeds, it has
superseded the proposed members, promoted the candidate, and touched nothing
else but the pending candidates that were derived from one of those members
(`acceptance_failClosed`).

The loop over the members is followed by `Merged`, a relation between the store
before and after that composes: what one transition did to a row is not undone
by the next, because a row that was superseded or made stale is no longer
pending, and only pending rows are made stale.
-/

namespace AliceBot

open PyLib

variable {env : Env} {s t : Store} {identity : Option AgentIdentity}

/-! ### Invalidated candidates -/

/-- The row is a pending candidate with a snapshot of the member. -/
def PendingDerived (env : Env) (s : Store) (memberId id : String) : Prop :=
  ∃ row ∈ s.pendingDerivedCandidates env memberId none, row.id = id

theorem mem_pendingDerivedCandidates {memberId : String} {excludeMemoryId : Option String}
    {row : MemoryRow} :
    row ∈ s.pendingDerivedCandidates env memberId excludeMemoryId ↔
      row ∈ s.memories.rows ∧ row.present = true ∧
        row.status ∈ [MemoryStatus.candidate, .needsReview] ∧
        (∀ id ∈ excludeMemoryId, row.id ≠ id) ∧
        (Store.memberSnapshots row).any
          (fun snapshot => Store.snapshotIdText env snapshot == some memberId) = true := by
  rw [Store.pendingDerivedCandidates, List.mem_mergeSort, Store.select, List.mem_filter]
  simp only [Bool.and_eq_true, decide_eq_true_eq]
  have hexclude : (excludeMemoryId.all fun id => row.id != id) = true ↔
      ∀ id ∈ excludeMemoryId, row.id ≠ id := by
    cases excludeMemoryId <;> simp
  rw [hexclude, and_assoc]

/-- The row of `t` was made stale, its pointer left alone. -/
def MadeStale (s t : Store) (id : String) : Prop :=
  ∃ before after, s.getMemory id = some before ∧ t.getMemory id = some after ∧
    before.status ∈ [MemoryStatus.candidate, .needsReview] ∧ after.status = .stale ∧
    supersessionPointer after = supersessionPointer before

theorem MadeStale.congr {s' t' : Store} {id : String} (h : MadeStale s t id)
    (hs : s'.getMemory id = s.getMemory id) (ht : t'.getMemory id = t.getMemory id) :
    MadeStale s' t' id := by
  obtain ⟨before, after, hbefore, hafter, hrest⟩ := h
  exact ⟨before, after, hs.trans hbefore, ht.trans hafter, hrest⟩

theorem Quiet.pendingDerivedCandidates (h : Quiet s t) (memberId : String)
    (excludeMemoryId : Option String) :
    t.pendingDerivedCandidates env memberId excludeMemoryId =
      s.pendingDerivedCandidates env memberId excludeMemoryId := by
  rw [Store.pendingDerivedCandidates, Store.pendingDerivedCandidates, Store.select, Store.select,
    h.memories]

/-- One candidate of the loop. -/
theorem invalidateCandidate_ok {memberId reason : String} {invalidatedAt : UtcMoment}
    {candidate : MemoryRow} {u : Unit}
    (h : (invalidateCandidate env identity memberId reason invalidatedAt candidate).run s = .ok u t)
    (hrow : s.getMemory candidate.id = some candidate)
    (hstatus : candidate.status ∈ [MemoryStatus.candidate, .needsReview]) :
    (∀ id, id ≠ candidate.id → t.memories.get? id = s.memories.get? id) ∧
      (t.memories.get? candidate.id = s.memories.get? candidate.id ∨
        MadeStale s t candidate.id) := by
  unfold invalidateCandidate at h
  split at h
  · obtain ⟨-, rfl⟩ := run_pure_ok.mp h
    exact ⟨fun _ _ => rfl, .inl rfl⟩
  · next consolidation hconsolidation =>
  split at h
  · obtain ⟨-, rfl⟩ := run_pure_ok.mp h
    exact ⟨fun _ _ => rfl, .inl rfl⟩
  · simp only [run_bind_ok] at h
    obtain ⟨updated, s₁, hupdate, _, s₂, hrevise, hevent⟩ := h
    have hquiet : Quiet s₁ t := IsTrans.trans _ _ _ ((quiet_reviseMemory _ _ _ _ _ _ _).ok hrevise)
      ((quiet_appendMemoryEvent env _ _ _).ok hevent)
    refine ⟨fun id hid => ?_, .inr ⟨candidate, updated, hrow, ?_, hstatus, ?_, ?_⟩⟩
    · rw [hquiet.memories, updateMemory_get? hupdate, if_neg (Ne.symm hid)]
    · rw [hquiet.getMemory]
      exact updateMemory_getMemory hupdate (by simp [invalidationPatch])
    -- both goals are about the row as the patch left it
    all_goals
      obtain ⟨row, hfound, rfl, -⟩ := updateMemory_ok hupdate
      obtain rfl : row = candidate := Option.some.inj (hfound.symm.trans hrow)
    · rfl
    · have hmetadata : ∀ value value' : Json,
          (((row.metadataJson.set "review_required" value).set "consolidation" value').getStr?
            "superseded_by") = row.metadataJson.getStr? "superseded_by" := by
        intro value value'
        rw [Dict.getStr?_set, if_neg (by decide), Dict.getStr?_set, if_neg (by decide)]
      simp only [supersessionPointer, MemoryPatch.apply, invalidationPatch, Option.none_or,
        Option.getD_some, hmetadata]

/-- The loop over the candidates, each with a row of its own. -/
theorem invalidateCandidates_ok {memberId reason : String} {invalidatedAt : UtcMoment}
    {candidates : List MemoryRow} {u : PUnit}
    (h : (candidates.forM (invalidateCandidate env identity memberId reason invalidatedAt)).run s =
      .ok u t)
    (hnodup : (candidates.map MemoryRow.id).Nodup)
    (hrows : ∀ candidate ∈ candidates, s.getMemory candidate.id = some candidate ∧
      candidate.status ∈ [MemoryStatus.candidate, .needsReview]) (id : String) :
    t.memories.get? id = s.memories.get? id ∨
      (∃ candidate ∈ candidates, candidate.id = id) ∧ MadeStale s t id := by
  induction candidates generalizing s with
  | nil =>
    obtain ⟨-, rfl⟩ := run_pure_ok.mp h
    exact .inl rfl
  | cons first candidates ih =>
    obtain ⟨hfirst, hnodup⟩ := List.nodup_cons.mp hnodup
    obtain ⟨_, s₁, hrun, hrest⟩ := run_bind_ok.mp h
    obtain ⟨hrow, hstatus⟩ := hrows first List.mem_cons_self
    obtain ⟨hothers, hown⟩ := invalidateCandidate_ok hrun hrow hstatus
    -- the other candidates are untouched by the first one, since ids are distinct
    have hrows₁ : ∀ candidate ∈ candidates, s₁.getMemory candidate.id = some candidate ∧
        candidate.status ∈ [MemoryStatus.candidate, .needsReview] := by
      intro candidate hmem
      obtain ⟨hrow, hstatus⟩ := hrows candidate (List.mem_cons_of_mem _ hmem)
      have hne : candidate.id ≠ first.id := fun heq =>
        hfirst (heq ▸ List.mem_map_of_mem hmem)
      rw [Store.getMemory_congr (hothers candidate.id hne)]
      exact ⟨hrow, hstatus⟩
    -- a row changes in the round of its own candidate, or in none
    by_cases hid : id = first.id
    · subst hid
      have hkept : t.memories.get? first.id = s₁.memories.get? first.id := by
        rcases ih hrest hnodup hrows₁ with hsame | ⟨⟨candidate, hmem, heq⟩, -⟩
        · exact hsame
        · exact absurd (heq ▸ List.mem_map_of_mem hmem) hfirst
      rcases hown with hsame | hstale
      · exact .inl (hkept.trans hsame)
      · exact .inr ⟨⟨first, List.mem_cons_self, rfl⟩,
          hstale.congr rfl (Store.getMemory_congr hkept)⟩
    · rcases ih hrest hnodup hrows₁ with hsame | ⟨⟨candidate, hmem, heq⟩, hstale⟩
      · exact .inl (hsame.trans (hothers id hid))
      · refine .inr ⟨⟨candidate, List.mem_cons_of_mem _ hmem, heq⟩, ?_⟩
        exact hstale.congr (Store.getMemory_congr (hothers id hid)).symm rfl

/-- **What `_invalidate_pending_derived_candidates` does.** -/
theorem invalidatePendingDerivedCandidates_ok {memberId reason : String}
    {excludeMemoryId : Option String} {u : Unit}
    (h : (invalidatePendingDerivedCandidates env memberId identity reason excludeMemoryId).run s =
      .ok u t) (id : String) :
    t.memories.get? id = s.memories.get? id ∨
      (∀ excluded ∈ excludeMemoryId, id ≠ excluded) ∧ PendingDerived env s memberId id ∧
        MadeStale s t id := by
  simp only [invalidatePendingDerivedCandidates, run_bind_ok, run_get_ok] at h
  obtain ⟨now, s₁, hnow, _, _, ⟨rfl, rfl⟩, h⟩ := h
  have hquiet : Quiet s s₁ := (quiet_utcNow env).ok hnow
  -- the candidates are distinct rows of the table, sorted
  have hnodup : ((s₁.pendingDerivedCandidates env memberId excludeMemoryId).map
      MemoryRow.id).Nodup := by
    refine List.Perm.nodup_iff ((List.mergeSort_perm _ _).map _) |>.mpr ?_
    exact List.Nodup.sublist (List.filter_sublist.map _) s₁.memories.nodup
  have hrows : ∀ candidate ∈ s₁.pendingDerivedCandidates env memberId excludeMemoryId,
      s₁.getMemory candidate.id = some candidate ∧
        candidate.status ∈ [MemoryStatus.candidate, .needsReview] := by
    intro candidate hmem
    obtain ⟨hrow, hpresent, hstatus, -⟩ := mem_pendingDerivedCandidates.mp hmem
    refine ⟨?_, hstatus⟩
    rw [Store.getMemory, Table.get?_of_mem hrow, Option.filter_some, if_pos hpresent]
  rcases invalidateCandidates_ok h hnodup hrows id with hsame | ⟨⟨candidate, hmem, rfl⟩, hstale⟩
  · rw [hquiet.memories] at hsame
    exact .inl hsame
  · rw [hquiet.pendingDerivedCandidates] at hmem
    obtain ⟨hrow, hpresent, hstatus, hexclude, hsnapshot⟩ := mem_pendingDerivedCandidates.mp hmem
    refine .inr ⟨hexclude, ⟨candidate, ?_, rfl⟩, ?_⟩
    · exact mem_pendingDerivedCandidates.mpr ⟨hrow, hpresent, hstatus, by simp, hsnapshot⟩
    · exact hstale.congr (hquiet.getMemory _).symm rfl

/-! ### One member -/

/-- The row was superseded by the candidate. -/
def SupersededBy (t : Store) (candidateId id : String) : Prop :=
  ∃ row, t.getMemory id = some row ∧ row.status = .superseded ∧
    row.supersededBy = some candidateId

/-- **What superseding a member does.** -/
theorem supersedeMember_ok {member candidate updated : MemoryRow} {reason : String}
    (h : (transitionMemory env identity member (supersedeMemberTransition candidate.id) reason
      (some candidate)).run s = .ok updated t) :
    SupersededBy t candidate.id member.id ∧ ∀ id, id ≠ member.id →
      (t.memories.get? id = s.memories.get? id ∨
        id ≠ candidate.id ∧ PendingDerived env s member.id id ∧ MadeStale s t id) := by
  simp only [transitionMemory, supersedeMemberTransition, transitionPatch, run_bind_ok, run_pure_ok,
    Bool.false_eq_true, if_false] at h
  obtain ⟨_, s₁, hlegal, _, s₂, hguard, now, s₃, hnow, _, s₄, hinvalidate, patch, s₅,
    ⟨replacementTime, s₆, htime, rfl, rfl⟩, row, s₇, hupdate, _, s₈, hrevise, _, s₉, hevent,
    rfl, rfl⟩ := h
  have hbefore : Quiet s s₃ := IsTrans.trans _ _ _ ((quiet_requireTransition _ _).ok hlegal)
    (IsTrans.trans _ _ _ ((quiet_guardSupersessionAcyclic _ _ _).ok hguard)
      ((quiet_utcNow env).ok hnow))
  have hbetween : Quiet s₄ s₆ := (quiet_replacementEventTime _).ok htime
  have hafter : Quiet s₇ s₉ := IsTrans.trans _ _ _ ((quiet_reviseMemory _ _ _ _ _ _ _).ok hrevise)
    ((quiet_appendMemoryEvent env _ _ _).ok hevent)
  refine ⟨⟨row, ?_, ?_, ?_⟩, fun id hid => ?_⟩
  · rw [hafter.getMemory]
    exact updateMemory_getMemory hupdate (by simp [supersedePatch])
  · obtain ⟨_, -, rfl, -⟩ := updateMemory_ok hupdate
    rfl
  · obtain ⟨_, -, rfl, -⟩ := updateMemory_ok hupdate
    rfl
  · -- the update is of the member alone, so only the invalidation is left
    have hlast : s₉.memories.get? id = s₄.memories.get? id := by
      rw [hafter.memories, updateMemory_get? hupdate, if_neg (Ne.symm hid), hbetween.memories]
    rcases invalidatePendingDerivedCandidates_ok hinvalidate id with
      hsame | ⟨hexclude, hpending, hstale⟩
    · left
      rw [hlast, hsame, hbefore.memories]
    · right
      refine ⟨hexclude candidate.id rfl, ?_, ?_⟩
      · rw [PendingDerived, hbefore.pendingDerivedCandidates] at hpending
        exact hpending
      · exact hstale.congr (hbefore.getMemory id).symm (Store.getMemory_congr hlast)

/-! ### The loop over the members -/

/-- What became of a row while members of the candidate were superseded. -/
inductive RowOutcome (env : Env) (candidateId : String) (ids : List String) (s t : Store)
    (id : String) : Prop
  | unchanged (h : t.memories.get? id = s.memories.get? id)
  | superseded (hmem : id ∈ ids) (h : SupersededBy t candidateId id)
  | invalidated (hne : id ≠ candidateId) (h : MadeStale s t id)
      (hderived : ∃ memberId ∈ ids, PendingDerived env s memberId id)

/-- The loop superseded the members that were not superseded yet. -/
structure Merged (env : Env) (candidateId : String) (members : Dict MemoryRow)
    (ids : List String) (s t : Store) : Prop where
  outcome : ∀ id, RowOutcome env candidateId ids s t id
  superseded : ∀ id ∈ ids, ∀ member, members.get? id = some member →
    alreadySuperseded member = false → SupersededBy t candidateId id

/-- A row that is still pending was not touched, and was pending before. -/
theorem RowOutcome.of_pendingDerived {candidateId memberId : String} {ids : List String}
    {id : String} (h : RowOutcome env candidateId ids s t id)
    (hpending : PendingDerived env t memberId id) : PendingDerived env s memberId id := by
  obtain ⟨row, hmem, rfl⟩ := hpending
  obtain ⟨hrow, hpresent, hstatus, -, hsnapshot⟩ := mem_pendingDerivedCandidates.mp hmem
  have hget : t.getMemory row.id = some row := by
    rw [Store.getMemory, Table.get?_of_mem hrow, Option.filter_some, if_pos hpresent]
  -- a row that was superseded or made stale is not pending any more
  cases h with
  | unchanged hsame =>
    rw [Table.get?_of_mem hrow] at hsame
    refine ⟨row, mem_pendingDerivedCandidates.mpr ?_, rfl⟩
    exact ⟨Table.mem_of_get? hsame.symm, hpresent, hstatus, by simp, hsnapshot⟩
  | superseded _ hsuperseded =>
    obtain ⟨row', hrow', hstatus', -⟩ := hsuperseded
    obtain rfl : row' = row := Option.some.inj (hrow'.symm.trans hget)
    rw [hstatus'] at hstatus
    exact absurd hstatus (by decide)
  | invalidated _ hstale =>
    obtain ⟨-, row', -, hrow', -, hstatus', -⟩ := hstale
    obtain rfl : row' = row := Option.some.inj (hrow'.symm.trans hget)
    rw [hstatus'] at hstatus
    exact absurd hstatus (by decide)

/-- A row that was superseded or made stale is not made stale again. -/
theorem RowOutcome.unchanged_of_madeStale {u : Store} {candidateId : String} {ids : List String}
    {id : String} (h : RowOutcome env candidateId ids s t id) (hstale : MadeStale t u id) :
    t.memories.get? id = s.memories.get? id := by
  obtain ⟨before, after, hbefore, -, hstatus, -⟩ := hstale
  cases h with
  | unchanged hsame => exact hsame
  | superseded _ hsuperseded =>
    obtain ⟨row, hrow, hstatus', -⟩ := hsuperseded
    obtain rfl : row = before := Option.some.inj (hrow.symm.trans hbefore)
    rw [hstatus'] at hstatus
    exact absurd hstatus (by decide)
  | invalidated _ hstale' =>
    obtain ⟨-, row, -, hrow, -, hstatus', -⟩ := hstale'
    obtain rfl : row = before := Option.some.inj (hrow.symm.trans hbefore)
    rw [hstatus'] at hstatus
    exact absurd hstatus (by decide)

theorem SupersededBy.congr {candidateId id : String} (h : SupersededBy s candidateId id)
    (hsame : t.memories.get? id = s.memories.get? id) : SupersededBy t candidateId id := by
  obtain ⟨row, hrow, hrest⟩ := h
  exact ⟨row, (Store.getMemory_congr hsame).trans hrow, hrest⟩

/-- What was superseded stays superseded. -/
theorem RowOutcome.keeps_superseded {candidateId : String} {ids : List String} {id : String}
    (h : RowOutcome env candidateId ids s t id) (hs : SupersededBy s candidateId id) :
    SupersededBy t candidateId id := by
  cases h with
  | unchanged hsame => exact hs.congr hsame
  | superseded _ hsuperseded => exact hsuperseded
  | invalidated _ hstale =>
    obtain ⟨row, hrow, hstatus, -⟩ := hs
    obtain ⟨before, -, hbefore, -, hpending, -⟩ := hstale
    obtain rfl : before = row := Option.some.inj (hbefore.symm.trans hrow)
    rw [hstatus] at hpending
    exact absurd hpending (by decide)

/-- **Outcomes compose.** -/
theorem RowOutcome.trans {u : Store} {candidateId : String} {ids ids' : List String} {id : String}
    (h : RowOutcome env candidateId ids s t id) (h' : RowOutcome env candidateId ids' t u id)
    {all : List String} (hids : ids ⊆ all) (hids' : ids' ⊆ all)
    (hall : ∀ memberId, PendingDerived env t memberId id → PendingDerived env s memberId id) :
    RowOutcome env candidateId all s u id := by
  cases h' with
  | unchanged hsame =>
    cases h with
    | unchanged hsame' => exact .unchanged (hsame.trans hsame')
    | superseded hmem hsuperseded => exact .superseded (hids hmem) (hsuperseded.congr hsame)
    | invalidated hne hstale hderived =>
      obtain ⟨memberId, hmem, hpending⟩ := hderived
      exact .invalidated hne (hstale.congr rfl (Store.getMemory_congr hsame))
        ⟨memberId, hids hmem, hpending⟩
  | superseded hmem hsuperseded => exact .superseded (hids' hmem) hsuperseded
  | invalidated hne hstale hderived =>
    -- a row made stale now was not touched before
    obtain ⟨memberId, hmem, hpending⟩ := hderived
    have hsame := h.unchanged_of_madeStale hstale
    exact .invalidated hne (hstale.congr (Store.getMemory_congr hsame).symm rfl)
      ⟨memberId, hids' hmem, hall memberId hpending⟩

/-- **The loop.** -/
theorem supersedeMembers_ok {memory : MemoryRow} {members : List (String × MemoryRow)}
    {ids : List String} {outcome : SupersededMembers}
    (h : (supersedeMembers env identity memory members ids).run s = .ok outcome t)
    (hmembers : ∀ id member, Dict.get? members id = some member → member.id = id) :
    Merged env memory.id members ids s t := by
  induction ids generalizing s outcome with
  | nil =>
    obtain ⟨-, rfl⟩ := run_pure_ok.mp h
    exact ⟨fun _ => .unchanged rfl, fun id hid => absurd hid (by simp)⟩
  | cons first ids ih =>
    -- a member that is skipped leaves the store to the rest of the loop
    have hskip : (∀ member, Dict.get? members first = some member →
        alreadySuperseded member = true) → Merged env memory.id members ids s t →
        Merged env memory.id members (first :: ids) s t := by
      intro hfirst hrest
      refine ⟨fun id => ?_, fun id hid member hmember hopen => ?_⟩
      · have hnone : RowOutcome env memory.id [] s s id := .unchanged rfl
        exact hnone.trans (hrest.outcome id) (by simp) (List.subset_cons_self _ _) fun _ h => h
      · rcases List.mem_cons.mp hid with rfl | hid
        · rw [hfirst member hmember] at hopen
          exact absurd hopen (by simp)
        · exact hrest.superseded id hid member hmember hopen
    unfold supersedeMembers at h
    split at h
    · next hmissing =>
      obtain ⟨rest, _, hrest, -, rfl⟩ := by simpa only [run_bind_ok, run_pure_ok] using h
      exact hskip (fun member hmember => by rw [hmissing] at hmember; simp at hmember) (ih hrest)
    · next member hmember =>
    split at h
    · next halready =>
      obtain ⟨rest, _, hrest, -, rfl⟩ := by simpa only [run_bind_ok, run_pure_ok] using h
      refine hskip (fun other hother => ?_) (ih hrest)
      obtain rfl : other = member := Option.some.inj (hother.symm.trans hmember)
      exact halready
    · obtain ⟨updated, s₁, htransition, rest, _, hrest, -, rfl⟩ := by
        simpa only [run_bind_ok, run_pure_ok] using h
      obtain ⟨hown, hothers⟩ := supersedeMember_ok htransition
      have hid : member.id = first := hmembers first member hmember
      rw [hid] at hown hothers
      have hfirst : ∀ id, RowOutcome env memory.id [first] s s₁ id := by
        intro id
        by_cases hne : id = first
        · subst hne
          exact .superseded (by simp) hown
        · rcases hothers id hne with hsame | ⟨hcandidate, hpending, hstale⟩
          · exact .unchanged hsame
          · exact .invalidated hcandidate hstale ⟨first, by simp, hpending⟩
      have hmerged := ih hrest
      refine ⟨fun id => ?_, fun id hmem other hother hopen => ?_⟩
      · exact (hfirst id).trans (hmerged.outcome id) (by simp) (List.subset_cons_self _ _)
          fun _ => (hfirst id).of_pendingDerived
      · rcases List.mem_cons.mp hmem with rfl | hmem
        · exact (hmerged.outcome id).keeps_superseded hown
        · exact hmerged.superseded id hmem other hother hopen

/-! ### The whole acceptance -/

/-- What an acceptance leaves. -/
structure AcceptanceEffect (env : Env) (s t : Store) (memory : MemoryRow)
    (proposal : ConsolidationProposal) : Prop where
  promoted : ∃ row consolidation, t.getMemory memory.id = some row ∧ row.status = .active ∧
    consolidationOf? row = some consolidation ∧ (acceptedRecord? consolidation).isSome
  superseded : ∀ id ∈ proposal.proposed, ∀ before, s.getMemory id = some before →
    ∃ after, t.getMemory id = some after ∧ alreadySuperseded after = true ∧
      (alreadySuperseded before = false →
        after.status = .superseded ∧ after.supersededBy = some memory.id)
  untouched : ∀ id, id ≠ memory.id → id ∉ proposal.proposed →
    (∀ memberId ∈ proposal.proposed, ¬ PendingDerived env s memberId id) →
    t.memories.get? id = s.memories.get? id

/-- A member that was superseded already still is. -/
theorem RowOutcome.keeps_alreadySuperseded {candidateId : String} {ids : List String}
    {id : String} (h : RowOutcome env candidateId ids s t id) {before : MemoryRow}
    (hbefore : s.getMemory id = some before) (halready : alreadySuperseded before = true) :
    ∃ after, t.getMemory id = some after ∧ alreadySuperseded after = true := by
  cases h with
  | unchanged hsame => exact ⟨before, (Store.getMemory_congr hsame).trans hbefore, halready⟩
  | superseded _ hsuperseded =>
    obtain ⟨row, hrow, hstatus, -⟩ := hsuperseded
    exact ⟨row, hrow, by simp [alreadySuperseded, hstatus]⟩
  | invalidated _ hstale =>
    obtain ⟨row, after, hrow, hafter, hpending, -, hpointer⟩ := hstale
    obtain rfl : row = before := Option.some.inj (hrow.symm.trans hbefore)
    refine ⟨after, hafter, ?_⟩
    -- its status was a pending one, so it was the pointer that counted
    have hstatus : row.status ≠ .superseded := by
      rintro hsuperseded
      rw [hsuperseded] at hpending
      exact absurd hpending (by decide)
    have hpointerSet : (supersessionPointer row).isSome = true := by
      simpa [alreadySuperseded, hstatus] using halready
    rw [alreadySuperseded, hpointer, hpointerSet, Bool.or_true]

/-- The promoted row carries the record of its acceptance. -/
theorem acceptancePatch_consolidation {memory row : MemoryRow}
    {consolidation accepted : Dict Json} {proposal : ConsolidationProposal}
    {now t₁ t₂ : UtcMoment} :
    ((acceptancePatch memory consolidation proposal accepted now).apply t₁ t₂
        row).metadataJson.get? "consolidation" =
      some (.obj (consolidation.set "accepted" (.obj accepted))) := by
  simp only [MemoryPatch.apply, acceptancePatch, Option.getD_some]
  split
  · rw [Dict.get?_set_of_ne _ _ (by decide), Dict.get?_set_of_ne _ _ (by decide),
      Dict.get?_set_self]
  · rw [Dict.get?_set_of_ne _ _ (by decide), Dict.get?_set_of_ne _ _ (by decide),
      Dict.get?_set_self]

/-- **Applying an acceptance that was reviewed.** -/
theorem applyAcceptance_ok {memory : MemoryRow} {consolidation : Dict Json} {reasonText : String}
    {proposal : ConsolidationProposal} {members : List (String × MemoryRow)}
    {answer : AcceptanceAnswer}
    (h : (applyAcceptance env identity memory consolidation reasonText proposal members).run s =
      .ok answer t)
    (hreview : Reviewed env s memory consolidation proposal members) :
    AcceptanceEffect env s t memory proposal := by
  simp only [applyAcceptance, run_bind_ok, run_pure_ok] at h
  obtain ⟨outcome, s₁, hloop, now, s₂, hnow, updated, s₃, hupdate, _, s₄, hrefresh, _, s₅, hrevise,
    _, s₆, hevent, -, rfl⟩ := h
  obtain ⟨-, hnotMem⟩ := readProposal_ok hreview.read
  -- the loop over the members comes first
  have hmerged : Merged env memory.id members proposal.proposed s s₁ := by
    refine supersedeMembers_ok hloop fun id member hmember => ?_
    rw [hreview.rows, get?_lockedRows] at hmember
    split at hmember
    · exact Store.id_of_getMemory hmember
    · exact absurd hmember (by simp)
  have hnowQuiet : Quiet s₁ s₂ := (quiet_utcNow env).ok hnow
  obtain ⟨row, hrow, hupdated, -⟩ := updateMemory_ok hupdate
  have hid : updated.id = memory.id := by
    rw [hupdated]
    show row.id = memory.id
    exact Store.id_of_getMemory hrow
  -- behind the patch only fingerprints and logs are written
  have hresigned : Resigned memory.id s₃ s₆ := by
    rw [← hid]
    exact IsTrans.trans _ _ _ ((resigned_refreshMemoryDerivedState identity _ _ _).ok hrefresh)
      (IsTrans.trans _ _ _ ((quiet_reviseMemory _ _ _ _ _ _ _).ok hrevise).resigned
        ((quiet_appendMemoryEvent env _ _ _).ok hevent).resigned)
  -- beside the candidate, the loop has the last word
  have hothers : ∀ id, id ≠ memory.id → s₆.memories.get? id = s₁.memories.get? id := by
    intro id hne
    rw [hresigned.get?_of_ne hne, updateMemory_get? hupdate, if_neg (Ne.symm hne),
      hnowQuiet.memories]
  refine ⟨?_, ?_, ?_⟩
  · have hfound := updateMemory_getMemory hupdate (by simp [acceptancePatch])
    obtain ⟨metadata, hlast, hkeys⟩ := hresigned.getMemory hfound
    have hconsolidation : metadata.get? "consolidation" = some (.obj (consolidation.set "accepted"
        (.obj (acceptedRecord identity reasonText outcome now)))) := by
      rw [hkeys "consolidation" (by decide), hupdated, acceptancePatch_consolidation]
    have hstatus : updated.status = .active := by
      rw [hupdated]
      rfl
    refine ⟨_, consolidation.set "accepted" (.obj (acceptedRecord identity reasonText outcome now)),
      hlast, hstatus, ?_, ?_⟩
    · rw [consolidationOf?, Dict.item, hconsolidation]
      rfl
    · rw [acceptedRecord?, Dict.item, Dict.get?_set_self]
      rfl
  · intro id hmem before hbefore
    have hne : id ≠ memory.id := by
      rintro rfl
      exact hnotMem hmem
    have hlast : s₆.getMemory id = s₁.getMemory id := Store.getMemory_congr (hothers id hne)
    -- a member that was superseded before keeps its replacement
    cases halready : alreadySuperseded before with
    | true =>
      obtain ⟨after, hafter, hstill⟩ :=
        (hmerged.outcome id).keeps_alreadySuperseded hbefore halready
      exact ⟨after, hlast.trans hafter, hstill, fun h => absurd h (by simp)⟩
    | false =>
      have hlocked : Dict.get? members id = some before := by
        rw [hreview.rows, get?_lockedRows, if_pos (mem_dependencyIds.mpr (.inr hmem)), hbefore]
      obtain ⟨after, hafter, hstatus, hpointer⟩ :=
        hmerged.superseded id hmem before hlocked halready
      exact ⟨after, hlast.trans hafter, by simp [alreadySuperseded, hstatus],
        fun _ => ⟨hstatus, hpointer⟩⟩
  · intro id hne hnotProposed hnotDerived
    rw [hothers id hne]
    cases hmerged.outcome id with
    | unchanged hsame => exact hsame
    | superseded hmem _ => exact absurd hmem hnotProposed
    | invalidated _ _ hderived =>
      obtain ⟨memberId, hmem, hpending⟩ := hderived
      exact absurd hpending (hnotDerived memberId hmem)

/-- A second acceptance writes no memory. -/
theorem quiet_acceptConsolidationCandidate {memoryId reason : String} {memory : MemoryRow}
    {consolidation : Dict Json} (hrow : s.getMemory memoryId = some memory)
    (hconsolidation : consolidationOf? memory = some consolidation)
    (haccepted : (acceptedRecord? consolidation).isSome) :
    MovesAt Quiet (acceptConsolidationCandidate env identity memoryId reason) s := by
  refine MovesAt.bind (quiet_lockedMemory _ _ s) fun found s₁ hfound => ?_
  have hfound : found = memory := by
    simp only [lockedMemory, run_bind_ok, run_get_ok, run_orRaise_ok] at hfound
    obtain ⟨_, _, ⟨rfl, rfl⟩, hfound, -⟩ := hfound
    exact Option.some.inj (hfound.symm.trans hrow)
  subst hfound
  refine MovesAt.bind (quiet_policyCheckedWrite env _ _ _ s₁) fun _ s₂ _ => ?_
  refine MovesAt.bind (Moves.orRaise _ _ s₂) fun read s₃ hrun => ?_
  obtain ⟨hread, rfl⟩ := run_orRaise_ok.mp hrun
  obtain rfl : read = consolidation := Option.some.inj (hread.symm.trans hconsolidation)
  obtain ⟨accepted, haccepted⟩ := Option.isSome_iff_exists.mp haccepted
  rw [haccepted]
  exact quiet_replayAcceptance _ _ _ s₂

theorem AcceptanceEffect.of_quiet {s₀ : Store} {memory : MemoryRow}
    {proposal : ConsolidationProposal} (h : AcceptanceEffect env s t memory proposal)
    (hquiet : Quiet s₀ s) : AcceptanceEffect env s₀ t memory proposal := by
  refine ⟨h.promoted, fun id hmem before hbefore => ?_, fun id hne hnotMem hnotDerived => ?_⟩
  · exact h.superseded id hmem before ((hquiet.getMemory id).trans hbefore)
  · rw [← hquiet.memories]
    refine h.untouched id hne hnotMem fun memberId hmem hpending => hnotDerived memberId hmem ?_
    rw [PendingDerived, hquiet.pendingDerivedCandidates] at hpending
    exact hpending

section FirstAcceptance

variable {memoryId reason : String} {memory : MemoryRow}

/-- What a first acceptance that returned went through. -/
theorem acceptConsolidationCandidate_ok {answer : AcceptanceAnswer}
    (hrow : s.getMemory memoryId = some memory)
    (hfresh : (consolidationOf? memory).bind acceptedRecord? = none)
    (h : (acceptConsolidationCandidate env identity memoryId reason).run s = .ok answer t) :
    ∃ consolidation proposal members, consolidationOf? memory = some consolidation ∧
      Reviewed env s memory consolidation proposal members ∧
      AcceptanceEffect env s t memory proposal := by
  simp only [acceptConsolidationCandidate, lockedMemory, run_bind_ok, run_get_ok,
    run_orRaise_ok] at h
  obtain ⟨_, _, ⟨_, _, ⟨rfl, rfl⟩, hfound, rfl⟩, _, s₁, hpolicy, consolidation, _,
    ⟨hconsolidation, rfl⟩, h⟩ := h
  obtain rfl := Option.some.inj (hfound.symm.trans hrow)
  rw [hconsolidation, Option.bind_some] at hfresh
  rw [hfresh] at h
  obtain ⟨inputs, s₂, hreview, happly⟩ := run_bind_ok.mp h
  -- the policy check and the review are quiet, so what was reviewed is the first store
  have hchecked : Quiet s s₁ := (quiet_policyCheckedWrite env _ _ _).ok hpolicy
  have hquiet : Quiet s₁ s₂ := (quiet_reviewedInputs _ _ _).ok hreview
  have hreviewed := reviewedInputs_ok hreview
  have heffect := applyAcceptance_ok happly (hreviewed.quiet hquiet)
  exact ⟨consolidation, inputs.2.1, inputs.2.2, hconsolidation, hreviewed.of_quiet hchecked,
    heffect.of_quiet (IsTrans.trans _ _ _ hchecked hquiet)⟩

/-- **Nothing is written before the review is over.** -/
theorem quiet_acceptance_of_not_reviewed (hrow : s.getMemory memoryId = some memory)
    (hfresh : (consolidationOf? memory).bind acceptedRecord? = none)
    (hnot : ¬ ∃ consolidation proposal members, consolidationOf? memory = some consolidation ∧
      Reviewed env s memory consolidation proposal members) :
    MovesAt Quiet (acceptConsolidationCandidate env identity memoryId reason) s := by
  refine MovesAt.bind (quiet_lockedMemory _ _ s) fun found s₁ hfound => ?_
  have hfound : found = memory ∧ s = s₁ := by
    simp only [lockedMemory, run_bind_ok, run_get_ok, run_orRaise_ok] at hfound
    obtain ⟨_, _, ⟨rfl, rfl⟩, hfound, rfl⟩ := hfound
    exact ⟨Option.some.inj (hfound.symm.trans hrow), rfl⟩
  obtain ⟨rfl, rfl⟩ := hfound
  refine MovesAt.bind (quiet_policyCheckedWrite env _ _ _ s) fun _ s₂ hpolicy => ?_
  have hchecked : Quiet s s₂ := (quiet_policyCheckedWrite env _ _ _).ok hpolicy
  refine MovesAt.bind (Moves.orRaise _ _ s₂) fun consolidation s₃ hrun => ?_
  obtain ⟨hconsolidation, rfl⟩ := run_orRaise_ok.mp hrun
  rw [hconsolidation, Option.bind_some] at hfresh
  rw [hfresh]
  refine MovesAt.bind (quiet_reviewedInputs _ _ _ s₂) fun inputs s₄ hreview => ?_
  exact absurd ⟨_, _, _, hconsolidation, (reviewedInputs_ok hreview).of_quiet hchecked⟩ hnot

end FirstAcceptance

/-! ### The version evidence -/

/-- The digest tells contents apart. -/
def DigestInjective (env : Env) : Prop :=
  ∀ title text summary value title' text' summary' value',
    env.contentDigest title text summary value = env.contentDigest title' text' summary' value' →
      title = title' ∧ text = text' ∧ summary = summary' ∧ value = value'

/-- Two rows in the same version. -/
structure SameVersion (row row' : MemoryRow) : Prop where
  id : row.id = row'.id
  status : row.status = row'.status
  updatedAt : row.updatedAt = row'.updatedAt
  title : row.title = row'.title
  canonicalText : row.canonicalText = row'.canonicalText
  summary : row.summary = row'.summary
  value : row.value = row'.value

/-- **A snapshot is of one version.** -/
theorem sameVersion_of_snapshot (hdigest : DigestInjective env) {row row' : MemoryRow}
    {snapshot : Dict Json} (h : memoryMatchesSnapshot env row snapshot = true)
    (h' : memoryMatchesSnapshot env row' snapshot = true) : SameVersion row row' := by
  simp only [memoryMatchesSnapshot, memoryVersionSnapshot, List.all_cons, List.all_nil,
    Bool.and_true, Bool.and_eq_true, beq_iff_eq] at h h'
  obtain ⟨hid, hstatus, hupdated, hcontent⟩ := h
  obtain ⟨hid', hstatus', hupdated', hcontent'⟩ := h'
  obtain ⟨htitle, htext, hsummary, hvalue⟩ :=
    hdigest _ _ _ _ _ _ _ _ (Option.some.inj (hcontent.symm.trans hcontent'))
  exact
    { id := Option.some.inj (hid.symm.trans hid')
      status := MemoryStatus.text_inj (Option.some.inj (hstatus.symm.trans hstatus'))
      updatedAt := stampText_pinned_inj (Option.some.inj (hupdated.symm.trans hupdated'))
      title := htitle
      canonicalText := htext
      summary := hsummary
      value := hvalue }

/-- Every dependency is in the version its snapshot was taken of. -/
def UnchangedSinceReview (env : Env) (s : Store) (proposal : ConsolidationProposal) : Prop :=
  ∀ id ∈ proposal.dependencyIds, ∃ member snapshot, s.getMemory id = some member ∧
    proposal.snapshots.get? id = some snapshot ∧
    ∀ reviewed, memoryMatchesSnapshot env reviewed snapshot = true → SameVersion member reviewed

/-- The candidate carries the proposal, and its checks hold. -/
def ReviewHolds (env : Env) (s : Store) (memory : MemoryRow) (proposal : ConsolidationProposal) :
    Prop :=
  ∃ consolidation, consolidationOf? memory = some consolidation ∧
    readProposal env memory.id consolidation = .ok proposal ∧
    StrictlyReviewed env s memory proposal

/-- **Acceptance is fail-closed and all-or-nothing.** For a candidate of a
derived kind that was not accepted yet: a call that returns found every
dependency present, as reviewed and in the candidate's project scope, did what
it says to the candidate and its members and nothing else, and is a no-op when
repeated; without those checks the call raises and no memory is written. -/
theorem acceptance_failClosed (identity : Option AgentIdentity) {memoryId : String}
    {memory : MemoryRow} (reason : String) (hrow : s.getMemory memoryId = some memory)
    (hkind : hasDerivedKind memory = true)
    (hfresh : (consolidationOf? memory).bind acceptedRecord? = none) :
    (∀ answer t, (acceptConsolidationCandidate env identity memoryId reason).run s = .ok answer t →
      ∃ proposal, ReviewHolds env s memory proposal ∧
        (DigestInjective env → UnchangedSinceReview env s proposal) ∧
        AcceptanceEffect env s t memory proposal ∧
        ∀ env' identity' reason', (endState ((acceptConsolidationCandidate env' identity' memoryId
          reason').run t)).memories = t.memories) ∧
    ((¬ ∃ proposal, ReviewHolds env s memory proposal) →
      ∃ e t, (acceptConsolidationCandidate env identity memoryId reason).run s = .error e t ∧
        t.memories = s.memories) := by
  have hid : memory.id = memoryId := Store.id_of_getMemory hrow
  refine ⟨fun answer t h => ?_, fun hnot => ?_⟩
  · -- a call that returns has made the strict checks, since the kind is derived
    obtain ⟨consolidation, proposal, members, hconsolidation, hreviewed, heffect⟩ :=
      acceptConsolidationCandidate_ok hrow hfresh h
    have hstrict := hreviewed.strictly hkind
    refine ⟨proposal, ⟨consolidation, hconsolidation, hreviewed.read, hstrict⟩,
      fun hdigest id hmem => ?_, heffect, ?_⟩
    · obtain ⟨member, snapshot, hmember, hsnapshot, hmatch⟩ := hstrict.current id hmem
      exact ⟨member, snapshot, hmember, hsnapshot,
        fun reviewed h => sameVersion_of_snapshot hdigest hmatch h⟩
    · -- the accepted record is on the row now, and it ends a repetition early
      intro env' identity' reason'
      obtain ⟨row, accepted, hlast, -, hlastConsolidation, haccepted⟩ := heffect.promoted
      rw [hid] at hlast
      have hquiet : MovesAt Quiet
          (acceptConsolidationCandidate env' identity' memoryId reason') t :=
        quiet_acceptConsolidationCandidate hlast hlastConsolidation haccepted
      exact Quiet.memories hquiet
  · have hnotReviewed : ¬ ∃ consolidation proposal members,
        consolidationOf? memory = some consolidation ∧
          Reviewed env s memory consolidation proposal members := by
      rintro ⟨consolidation, proposal, members, hconsolidation, hreviewed⟩
      exact hnot ⟨proposal, consolidation, hconsolidation, hreviewed.read,
        hreviewed.strictly hkind⟩
    have hquiet : MovesAt Quiet (acceptConsolidationCandidate env identity memoryId reason) s :=
      quiet_acceptance_of_not_reviewed hrow hfresh hnotReviewed
    -- without the checks the call is quiet, so it can only have raised
    cases hrun : (acceptConsolidationCandidate env identity memoryId reason).run s with
    | ok answer t =>
      obtain ⟨consolidation, proposal, members, hconsolidation, hreviewed, -⟩ :=
        acceptConsolidationCandidate_ok hrow hfresh hrun
      exact absurd ⟨consolidation, proposal, members, hconsolidation, hreviewed⟩ hnotReviewed
    | error e t => exact ⟨e, t, rfl, (hquiet.error hrun).memories⟩

/-- A snapshot of the row as it is stored in a proposal. -/
def snapshotJson (env : Env) (memory : MemoryRow) : Json :=
  .obj ((memoryVersionSnapshot env memory).map fun item => (item.1, .str item.2))

/-- A candidate to merge two facts into one. -/
def dedupCandidate : MemoryRow :=
  .plain "c" .candidate [("candidate_kind", .str "memory_consolidation"),
    ("consolidation", .obj [("proposal_kind", .str "dedup"), ("survivor_memory_id", .str "m1"),
      ("cluster_member_ids", .strs ["m1", "m2"]),
      ("member_snapshots", .arr [snapshotJson .plain (.plain "m1" .active []),
        snapshotJson .plain (.plain "m2" .active [])])])]

theorem acceptance_failClosed_dedup :
    let s : Store :=
      { memories := ⟨[.plain "m1" .active [], .plain "m2" .active [], dedupCandidate], by decide⟩ }
    let t := endState ((acceptConsolidationCandidate .plain none "c" "reviewed").run s)
    ∃ proposal, ReviewHolds .plain s dedupCandidate proposal ∧
      AcceptanceEffect .plain s t dedupCandidate proposal := by
  intro s t
  have hreturned : returned ((acceptConsolidationCandidate .plain none "c" "reviewed").run s) =
      true := by
    decide +kernel
  obtain ⟨answer, hrun⟩ := exists_ok_of_returned hreturned
  have hrow : s.getMemory "c" = some dedupCandidate := by rfl
  obtain ⟨proposal, hreview, -, heffect, -⟩ :=
    (acceptance_failClosed none "reviewed" hrow (by decide +kernel) (by rfl)).1 answer t hrun
  exact ⟨proposal, hreview, heffect⟩

end AliceBot
