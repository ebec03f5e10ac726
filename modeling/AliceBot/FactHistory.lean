import AliceBot.FactReplay

/-!
# Histories of the facts

Candidates are admitted or refused one after the other, between whatever else happens to the
other tables. Every row is what its revisions replay to (`FactStore.Replays`), and revisions are
only appended (`FactStore.Since`); so a later store still tells what the rows held at an earlier
time (`factsAt_eq_storedFacts`).
-/

namespace AliceBot

open PyLib

/-! ### Steps -/

/-- A candidate comes, or something else happens. -/
inductive FactOp where
  | propose (call : AdmissionCall)
  | elsewhere

/-- The transaction of the operation, if it is an admission, started at such a time. -/
def FactOp.Started (p : Int → Prop) : FactOp → Prop
  | .propose call => p call.now
  | .elsewhere => True

/-- A call that raises is rolled back. -/
inductive FactStep (env : FactEnv) : FactStore → FactOp → FactStore → Prop where
  | admitted {s t : FactStore} {call : AdmissionCall} {decision : AdmissionDecision}
      (h : (admitMemoryCandidate env call).run s = .ok decision t) :
      FactStep env s (.propose call) t
  | refused {s u : FactStore} {call : AdmissionCall} {error : AdmissionError}
      (h : (admitMemoryCandidate env call).run s = .error error u) :
      FactStep env s (.propose call) s
  | elsewhere {s t : FactStore} (h : s.Keeps t) : FactStep env s .elsewhere t

/-- No fact has been admitted. -/
def FactStore.NoFacts (s : FactStore) : Prop := s.memories.rows = [] ∧ s.revisions = []

/-- A step keeps both tables or records one change. -/
theorem FactStep.records {env : FactEnv} {s t : FactStore} {op : FactOp} (h : FactStep env s op t) :
    s.Keeps t ∨ ∃ call before row revision, op = .propose call ∧
      s.Records env call t before row revision := by
  cases h with
  | admitted h =>
    rcases admitMemoryCandidate_records h with hkeeps | ⟨before, row, revision, hrecords⟩
    · exact .inl hkeeps
    · exact .inr ⟨_, before, row, revision, rfl, hrecords⟩
  | refused => exact .inl ⟨rfl, rfl⟩
  | elsewhere h => exact .inl h

/-! ### Rows and their revisions -/

/-- The revisions of a row, as they were appended. -/
def FactStore.revisionsOf (s : FactStore) (id : String) : List FactRevision :=
  s.revisions.filter fun r => r.memoryId = id

/-- Every row is what its revisions replay to. -/
structure FactStore.Replays (env : FactEnv) (s : FactStore) : Prop where
  known : ∀ r ∈ s.revisions, ∃ row, s.memories.get? r.memoryId = some row
  ordered : ∀ id, (s.revisionsOf id).Pairwise fun a b => a.sequenceNo < b.sequenceNo
  shown : ∀ id row, s.memories.get? id = some row → s.revisionsOf id ≠ [] ∧
    Shows ((s.revisionsOf id).foldl (applyRevision env) {}) row

namespace FactStore

variable {env : FactEnv} {s t : FactStore}

theorem Keeps.revisionsOf (h : s.Keeps t) (id : String) : t.revisionsOf id = s.revisionsOf id := by
  unfold FactStore.revisionsOf
  rw [h.2]

theorem Replays.of_noFacts (h : s.NoFacts) : s.Replays env := by
  obtain ⟨hrows, hrevisions⟩ := h
  refine ⟨fun r hr => ?_, fun id => ?_, fun id row hrow => ?_⟩
  · rw [hrevisions] at hr
    exact absurd hr List.not_mem_nil
  · rw [FactStore.revisionsOf, hrevisions]
    exact List.Pairwise.nil
  · have hmem := Table.mem_of_get? hrow
    rw [hrows] at hmem
    exact absurd hmem List.not_mem_nil

theorem Replays.of_keeps (h : s.Replays env) (hkeeps : s.Keeps t) : t.Replays env := by
  refine ⟨fun r hr => ?_, fun id => ?_, fun id row hrow => ?_⟩
  · rw [hkeeps.2] at hr
    rw [hkeeps.1]
    exact h.known r hr
  · rw [hkeeps.revisionsOf]
    exact h.ordered id
  · rw [hkeeps.revisionsOf]
    rw [hkeeps.1] at hrow
    exact h.shown id row hrow

variable {call : AdmissionCall} {before : Option FactRow} {row : FactRow} {revision : FactRevision}

theorem Records.revisionsOf_self (h : s.Records env call t before row revision) :
    t.revisionsOf row.id = s.revisionsOf row.id ++ [revision] := by
  unfold FactStore.revisionsOf
  rw [h.revisions, List.filter_append, List.filter_singleton, h.memoryId, decide_eq_true rfl,
    cond_true]

theorem Records.revisionsOf_of_ne (h : s.Records env call t before row revision) {id : String}
    (hid : row.id ≠ id) : t.revisionsOf id = s.revisionsOf id := by
  unfold FactStore.revisionsOf
  rw [h.revisions, List.filter_append, List.filter_singleton, h.memoryId, decide_eq_false hid,
    cond_false, List.append_nil]

/-- A new revision is numbered behind the others of its row. -/
theorem lt_nextSequence {id : String} {r : FactRevision} (hr : r ∈ s.revisionsOf id) :
    r.sequenceNo < s.nextSequence id := by
  have hmem : r.sequenceNo ∈ (s.revisionsOf id).map FactRevision.sequenceNo :=
    List.mem_map_of_mem hr
  unfold nextSequence
  cases hlast :
      ((s.revisions.filter fun r => r.memoryId = id).map FactRevision.sequenceNo).max? with
  | none =>
    rw [List.max?_eq_none_iff] at hlast
    unfold FactStore.revisionsOf at hmem
    rw [hlast] at hmem
    exact absurd hmem List.not_mem_nil
  | some last =>
    have hle := List.le_max?_getD_of_mem (k := 0) hmem
    unfold FactStore.revisionsOf at hle
    rw [hlast] at hle
    exact Nat.lt_succ_of_le hle

/-- Recording a revision keeps the rows what the replay of their revisions makes of
them. -/
theorem Replays.of_records (h : s.Replays env)
    (hrecords : s.Records env call t before row revision) : t.Replays env := by
  refine ⟨fun r hr => ?_, fun id => ?_, fun id found hfound => ?_⟩
  · rw [hrecords.get?]
    split
    next => exact ⟨row, rfl⟩
    next hid =>
      rw [hrecords.revisions] at hr
      rcases List.mem_append.mp hr with hr | hr
      · exact h.known r hr
      · rw [List.mem_singleton.mp hr] at hid
        exact absurd hrecords.memoryId.symm hid
  · by_cases hid : row.id = id
    · subst hid
      rw [hrecords.revisionsOf_self]
      refine List.pairwise_append.mpr ⟨h.ordered _, List.pairwise_singleton _ _, ?_⟩
      intro a ha b hb
      rw [List.mem_singleton.mp hb, hrecords.sequenceNo]
      exact lt_nextSequence ha
    · rw [hrecords.revisionsOf_of_ne hid]
      exact h.ordered id
  · rw [hrecords.get?] at hfound
    by_cases hid : row.id = id
    · subst hid
      rw [if_pos rfl] at hfound
      obtain rfl := Option.some.inj hfound
      have hstate : ShowsOption ((s.revisionsOf row.id).foldl (applyRevision env) {}) before := by
        have hbefore := hrecords.found
        cases before with
        | some old => exact (h.shown _ _ hbefore).2
        | none =>
          -- a row that is new has no revisions yet
          have hnone : s.revisionsOf row.id = [] := by
            refine List.filter_eq_nil_iff.mpr fun r hr hid => ?_
            obtain ⟨known, hknown⟩ := h.known r hr
            rw [of_decide_eq_true hid, hbefore] at hknown
            cases hknown
          rw [hnone]
          rfl
      rw [hrecords.revisionsOf_self, List.foldl_append]
      exact ⟨List.append_ne_nil_of_right_ne_nil _ (List.cons_ne_nil _ _),
        shows_applyRevision hrecords hstate⟩
    · rw [if_neg hid] at hfound
      rw [hrecords.revisionsOf_of_ne hid]
      exact h.shown id found hfound

theorem Replays.of_step (h : s.Replays env) {op : FactOp} (hstep : FactStep env s op t) :
    t.Replays env := by
  rcases hstep.records with hkeeps | ⟨_, _, _, _, _, hrecords⟩
  · exact h.of_keeps hkeeps
  · exact h.of_records hrecords

/-! ### What later admissions leave -/

/-- Later than the moment, revisions were appended and rows kept their keys. -/
structure Since (moment : Int) (t s : FactStore) : Prop where
  revisions : ∃ later, s.revisions = t.revisions ++ later ∧ ∀ r ∈ later, moment < r.createdAt
  rows : ∀ id row, t.memories.get? id = some row → ∃ row', s.memories.get? id = some row' ∧
    row'.memoryKey = row.memoryKey ∧ row'.createdAt = row.createdAt

variable {moment : Int}

theorem Since.refl (moment : Int) (t : FactStore) : Since moment t t :=
  ⟨⟨[], (List.append_nil _).symm, fun _ hr => absurd hr List.not_mem_nil⟩,
    fun _ row hrow => ⟨row, hrow, rfl, rfl⟩⟩

/-- An operation after the moment only adds to what was recorded then. -/
theorem Since.of_step {u : FactStore} {op : FactOp} (h : Since moment t s)
    (hstep : FactStep env s op u) (hop : op.Started (moment < ·)) : Since moment t u := by
  obtain ⟨later, hlater, htimes⟩ := h.revisions
  rcases hstep.records with ⟨hmemories, hrevisions⟩ |
      ⟨call, before, row, revision, rfl, hrecords⟩
  · refine ⟨⟨later, hrevisions.trans hlater, htimes⟩, fun id old hold => ?_⟩
    rw [hmemories]
    exact h.rows id old hold
  · refine ⟨⟨later ++ [revision], ?_, ?_⟩, fun id old hold => ?_⟩
    · rw [hrecords.revisions, hlater, List.append_assoc]
    · intro r hr
      rcases List.mem_append.mp hr with hr | hr
      · exact htimes r hr
      · rw [List.mem_singleton.mp hr, hrecords.createdAt]
        exact hop
    · obtain ⟨row', hrow', hkey, hcreated⟩ := h.rows id old hold
      rw [hrecords.get?]
      split
      next hid =>
        -- the row that was rewritten is the one that was there
        have hbefore : before = some row' := by
          rw [← hrecords.found, hid, hrow']
        obtain ⟨hkey', hcreated'⟩ := hrecords.kept row' hbefore
        exact ⟨row, rfl, hkey'.trans hkey, hcreated'.trans hcreated⟩
      next => exact ⟨row', hrow', hkey, hcreated⟩

theorem Since.revisionsOf (h : Since moment t s) (id : String) :
    ∃ later, s.revisionsOf id = t.revisionsOf id ++ later ∧ ∀ r ∈ later, moment < r.createdAt := by
  obtain ⟨later, hlater, htimes⟩ := h.revisions
  refine ⟨later.filter fun r => r.memoryId = id, ?_, fun r hr => ?_⟩
  · unfold FactStore.revisionsOf
    rw [hlater, List.filter_append]
  · exact htimes r (List.mem_filter.mp hr).1

end FactStore

/-! ### Replaying up to a time -/

/-- The replay up to a moment applies the revisions of then in order and stops at the
first one behind it. -/
theorem replayUntil_append (env : FactEnv) {moment : Int} {early later : List FactRevision}
    (hearly : ∀ r ∈ early, r.createdAt ≤ moment) (hlater : ∀ r ∈ later, moment < r.createdAt)
    (state : ReplayState) (effective : Option FactRevision) :
    replayUntil env moment state effective (early ++ later) =
      (early.foldl (applyRevision env) state, early.getLast?.or effective) := by
  induction early generalizing state effective with
  | nil =>
    -- the first revision after the moment ends the replay
    cases later with
    | nil => rfl
    | cons r later =>
      rw [List.nil_append, replayUntil, if_pos (hlater r (List.mem_cons_self ..))]
      rfl
  | cons r early ih =>
    have hr : ¬ moment < r.createdAt := not_lt.mpr (hearly r (List.mem_cons_self ..))
    rw [List.cons_append, replayUntil, if_neg hr,
      ih (fun r' hr' => hearly r' (List.mem_cons_of_mem _ hr')), List.foldl_cons,
      List.getLast?_cons]
    cases early.getLast? with
    | none => rfl
    | some last => rfl

variable {env : FactEnv} {s t : FactStore} {moment : Int}

theorem listMemoryRevisions_eq (h : s.Replays env) (id : String) :
    s.listMemoryRevisions id = s.revisionsOf id :=
  ((h.ordered id).imp fun hlt => Nat.le_of_lt hlt).insertionSort_eq

/-- The snapshot of a fact that was known is what its row showed; of one that was not there is
none. -/
theorem reconstruct_since (ht : t.Replays env) (hs : s.Replays env)
    (hbefore : ∀ r ∈ t.revisions, r.createdAt ≤ moment) (hsince : FactStore.Since moment t s)
    {id : String} {memory : FactRow} (hmemory : s.memories.get? id = some memory) :
    match t.memories.get? id with
    | none => reconstructMemorySnapshot env memory (s.listMemoryRevisions id) moment = none
    | some row => ∃ snapshot,
        reconstructMemorySnapshot env memory (s.listMemoryRevisions id) moment = some snapshot ∧
        snapshot.memoryId = row.id ∧ snapshot.memoryKey = row.memoryKey ∧
        snapshot.createdAt = row.createdAt ∧ Shows snapshot.state row := by
  obtain ⟨later, hlater, htimes⟩ := hsince.revisionsOf id
  have hearly : ∀ r ∈ t.revisionsOf id, r.createdAt ≤ moment := fun r hr =>
    hbefore r (List.mem_filter.mp hr).1
  have hnonempty : (s.revisionsOf id).isEmpty = false := by
    rw [List.isEmpty_eq_false_iff]
    exact (hs.shown id memory hmemory).1
  -- the replay stops after the revisions of then, since the later ones have a later time
  have hreplay := replayUntil_append env hearly htimes {} none
  rw [← hlater] at hreplay
  have hsnapshot : reconstructMemorySnapshot env memory (s.listMemoryRevisions id) moment =
      if ((t.revisionsOf id).getLast?.or none).isNone then none
      else some ⟨memory.id, memory.memoryKey, (t.revisionsOf id).foldl (applyRevision env) {},
        memory.createdAt, (t.revisionsOf id).getLast?.or none⟩ := by
    rw [listMemoryRevisions_eq hs, reconstructMemorySnapshot, hnonempty, hreplay]
    rfl
  rw [hsnapshot, Option.or_none]
  cases hrow : t.memories.get? id with
  | none =>
    -- a memory without a row has no revision
    have hnone : t.revisionsOf id = [] := by
      refine List.filter_eq_nil_iff.mpr fun r hr hid => ?_
      obtain ⟨known, hknown⟩ := ht.known r hr
      rw [of_decide_eq_true hid, hrow] at hknown
      cases hknown
    rw [hnone]
    rfl
  | some row =>
    obtain ⟨hne, hshows⟩ := ht.shown id row hrow
    obtain ⟨row', hrow', hkey, hcreated⟩ := hsince.rows id row hrow
    obtain rfl : row' = memory := Option.some.inj (hrow'.symm.trans hmemory)
    have hlast : (t.revisionsOf id).getLast?.isNone = false := by
      rw [Option.isNone_eq_false_iff, List.getLast?_isSome]
      exact hne
    refine ⟨_, by rw [hlast]; rfl, ?_, hkey, hcreated, hshows⟩
    exact (Table.key_of_get? hmemory).trans (Table.key_of_get? hrow).symm

/-! ### The facts of a past time -/

/-- A snapshot that shows a row says what the row says. -/
theorem serialize_of_shows (moment : Int) {snapshot : MemorySnapshot} {row : FactRow}
    (hid : snapshot.memoryId = row.id) (hkey : snapshot.memoryKey = row.memoryKey)
    (hcreated : snapshot.createdAt = row.createdAt) (h : Shows snapshot.state row) :
    serializeFactState moment snapshot = serializeFactState moment row.snapshot ∧
      isActiveSnapshot moment snapshot = isActiveSnapshot moment row.snapshot := by
  constructor
  · rw [serializeFactState, hid, hkey, hcreated, h.value, h.status, h.validFrom, h.validTo]
    rfl
  · rw [isActiveSnapshot, h.status, h.validFrom, h.validTo]
    rfl

/-- The records of snapshots of some rows, one for each row. -/
theorem nodup_places (moment : Int) {memories : List FactRow}
    (hnodup : (memories.map FactRow.id).Nodup) (reading : FactRow → Option MemorySnapshot)
    (hreading : ∀ row snapshot, reading row = some snapshot → snapshot.memoryId = row.id)
    (keep : MemorySnapshot → Bool) :
    ((((memories.filterMap reading).filter keep).map (serializeFactState moment)).map
      FactRecord.place).Nodup := by
  -- a record is placed by its id at last, and a row has one record at most
  have hids : ((((memories.filterMap reading).filter keep).map
      (serializeFactState moment)).map FactRecord.memoryId).Nodup := by
    have hsub : (((memories.filterMap reading).filter keep).map MemorySnapshot.memoryId).Sublist
        (memories.map FactRow.id) := by
      refine ((List.filter_sublist).map _).trans ?_
      clear hnodup
      induction memories with
      | nil => exact List.Sublist.refl _
      | cons row memories ih =>
        rw [List.filterMap_cons, List.map_cons]
        cases hrow : reading row with
        | none => exact ih.cons _
        | some snapshot =>
          rw [List.map_cons, hreading row snapshot hrow]
          exact ih.cons_cons _
    rw [List.map_map]
    exact hnodup.sublist hsub
  refine List.Nodup.of_map (fun place => (ofLex place).2) ?_
  rw [List.map_map]
  exact hids

theorem memoryId_of_reconstruct {memory : FactRow} {revisions : List FactRevision}
    {snapshot : MemorySnapshot}
    (h : reconstructMemorySnapshot env memory revisions moment = some snapshot) :
    snapshot.memoryId = memory.id := by
  unfold reconstructMemorySnapshot at h
  split at h
  · split at h
    · cases h
    · obtain rfl := Option.some.inj h
      rfl
  · dsimp only at h
    split at h
    · cases h
    · obtain rfl := Option.some.inj h
      rfl

/-- A step by some time leaves no revision of a later time. -/
theorem revisions_by {op : FactOp} (hstep : FactStep env s op t)
    (h : ∀ r ∈ s.revisions, r.createdAt ≤ moment) (hop : op.Started (· ≤ moment)) :
    ∀ r ∈ t.revisions, r.createdAt ≤ moment := by
  rcases hstep.records with hkeeps | ⟨call, before, row, revision, rfl, hrecords⟩
  · rw [hkeeps.2]
    exact h
  · intro r hr
    rw [hrecords.revisions] at hr
    rcases List.mem_append.mp hr with hr | hr
    · exact h r hr
    · rw [List.mem_singleton.mp hr, hrecords.createdAt]
      exact hop

/-- A record is told later if a row of then has it. -/
theorem mem_records_iff (ht : t.Replays env) (hs : s.Replays env)
    (htimes : ∀ r ∈ t.revisions, r.createdAt ≤ moment) (hsince : FactStore.Since moment t s)
    {memoryIds : List String} {record : FactRecord} :
    record ∈ (((s.memories.rows.filter fun row => row.id ∈ memoryIds).filterMap fun row =>
        reconstructMemorySnapshot env row (s.listMemoryRevisions row.id) moment).filter
          (isActiveSnapshot moment)).map (serializeFactState moment) ↔
      record ∈ (((t.memories.rows.filter fun row => row.id ∈ memoryIds).map
        FactRow.snapshot).filter (isActiveSnapshot moment)).map (serializeFactState moment) := by
  constructor
  · intro hrecord
    obtain ⟨snapshot, hsnapshot, rfl⟩ := List.mem_map.mp hrecord
    obtain ⟨hmem, hactive⟩ := List.mem_filter.mp hsnapshot
    obtain ⟨memory, hmemory, hreconstruct⟩ := List.mem_filterMap.mp hmem
    obtain ⟨hmemory, hids⟩ := List.mem_filter.mp hmemory
    -- a row that was not there at the moment is not reconstructed
    have hcases := reconstruct_since ht hs htimes hsince (Table.get?_of_mem hmemory)
    cases hrow : t.memories.get? memory.id with
    | none =>
      rw [hrow] at hcases
      rw [show _ = none from hcases] at hreconstruct
      cases hreconstruct
    | some row =>
      rw [hrow] at hcases
      obtain ⟨snapshot', hsome, hid, hkey, hcreated, hshows⟩ := hcases
      obtain rfl : snapshot' = snapshot := Option.some.inj (hsome.symm.trans hreconstruct)
      obtain ⟨hserialize, hsame⟩ := serialize_of_shows moment hid hkey hcreated hshows
      have hrowIds : row.id ∈ memoryIds := by
        rw [Table.key_of_get? hrow]
        exact of_decide_eq_true hids
      refine List.mem_map.mpr ⟨row.snapshot, List.mem_filter.mpr ⟨List.mem_map.mpr ⟨row,
        List.mem_filter.mpr ⟨Table.mem_of_get? hrow, decide_eq_true hrowIds⟩, rfl⟩, ?_⟩,
        hserialize.symm⟩
      rw [← hsame]
      exact hactive
  · intro hrecord
    obtain ⟨snapshot, hsnapshot, rfl⟩ := List.mem_map.mp hrecord
    obtain ⟨hmem, hactive⟩ := List.mem_filter.mp hsnapshot
    obtain ⟨row, hrow, rfl⟩ := List.mem_map.mp hmem
    obtain ⟨hrow, hids⟩ := List.mem_filter.mp hrow
    have hget := Table.get?_of_mem hrow
    -- no row is deleted, so the one of then has a successor to be reconstructed from
    obtain ⟨memory, hmemory, -, -⟩ := hsince.rows row.id row hget
    have hcases := reconstruct_since ht hs htimes hsince hmemory
    rw [hget] at hcases
    obtain ⟨later, hsome, hid, hkey, hcreated, hshows⟩ := hcases
    obtain ⟨hserialize, hsame⟩ := serialize_of_shows moment hid hkey hcreated hshows
    have hmemoryId : memory.id = row.id := Table.key_of_get? hmemory
    have hmemoryIds : memory.id ∈ memoryIds := by
      rw [hmemoryId]
      exact of_decide_eq_true hids
    refine List.mem_map.mpr ⟨later, List.mem_filter.mpr ⟨List.mem_filterMap.mpr ⟨memory,
      List.mem_filter.mpr ⟨Table.mem_of_get? hmemory, decide_eq_true hmemoryIds⟩, ?_⟩, ?_⟩,
      hserialize⟩
    · rw [hmemoryId]
      exact hsome
    · rw [hsame]
      exact hactive

/-- **What was known.** The facts of an entity at some time, told at any later time, are the ones
that the rows held then. -/
theorem factsAt_eq_storedFacts {before after : List FactOp}
    (hthen : Run (FactStep env) FactStore.NoFacts before t)
    (hlater : Run (FactStep env) (fun s => s = t) after s)
    (hbefore : ∀ op ∈ before, op.Started (· ≤ moment))
    (hafter : ∀ op ∈ after, op.Started (moment < ·)) (memoryIds : List String) :
    factsAt env s memoryIds moment = storedFacts t memoryIds moment := by
  have ht : t.Replays env :=
    Run.invariant (P := FactStore.Replays env) (fun _ h => .of_noFacts h)
      (fun _ _ _ h => h.of_step) hthen
  have hs : s.Replays env :=
    Run.invariant (P := FactStore.Replays env) (fun u (hu : u = t) => by rw [hu]; exact ht)
      (fun _ _ _ h => h.of_step) hlater
  -- the revisions of then were made by then, and the ones since are later
  have htimes : ∀ r ∈ t.revisions, r.createdAt ≤ moment :=
    Run.history (P := fun ops u => (∀ op ∈ ops, op.Started (· ≤ moment)) →
        ∀ r ∈ u.revisions, r.createdAt ≤ moment)
      (fun _ h _ r hr => by rw [h.2] at hr; exact absurd hr List.not_mem_nil)
      (fun ops _ op _ ih hstep hops => revisions_by hstep
        (ih fun op' hop' => hops op' (List.mem_append_left _ hop'))
        (hops op (List.mem_append_right _ (List.mem_singleton_self _)))) hthen hbefore
  have hsince : FactStore.Since moment t s :=
    Run.history (P := fun ops u => (∀ op ∈ ops, op.Started (moment < ·)) →
        FactStore.Since moment t u)
      (fun u (hu : u = t) _ => by rw [hu]; exact FactStore.Since.refl moment t)
      (fun ops _ op _ ih hstep hops =>
        (ih fun op' hop' => hops op' (List.mem_append_left _ hop')).of_step hstep
          (hops op (List.mem_append_right _ (List.mem_singleton_self _)))) hlater hafter
  have hkeep : ∀ row snapshot,
      reconstructMemorySnapshot env row (s.listMemoryRevisions row.id) moment = some snapshot →
        snapshot.memoryId = row.id := fun row snapshot => memoryId_of_reconstruct
  rw [factsAt, effectiveFactSnapshots, map_sortByKeys, storedFacts]
  refine sortByKeys_eq_of_perm ?_ ?_
  · refine (List.perm_ext_iff_of_nodup ?_ ?_).mpr fun record => ?_
    · exact (nodup_places moment (s.memories.nodup.sublist ((List.filter_sublist).map _)) _
        hkeep _).of_map _
    · have hrows := nodup_places moment
        (t.memories.nodup.sublist
          ((List.filter_sublist (p := fun row => row.id ∈ memoryIds)).map _))
        (some ∘ FactRow.snapshot) (fun row snapshot h => by obtain rfl := Option.some.inj h; rfl)
        (isActiveSnapshot moment)
      rw [List.filterMap_eq_map] at hrows
      exact hrows.of_map _
    · exact mem_records_iff ht hs htimes hsince
  · exact nodup_places moment (s.memories.nodup.sublist ((List.filter_sublist).map _)) _ hkeep _

/-- Times as tally marks. -/
def tally : Int → String
  | .ofNat n => String.ofList (List.replicate n 'i')
  | .negSucc n => String.ofList ('-' :: List.replicate n 'i')

def tallyEnv : FactEnv where
  isoformat := tally
  fromisoformat text :=
    match text.toList with
    | '-' :: rest => some (.negSucc rest.length)
    | chars => some (.ofNat chars.length)
  sameValue := Json.same
  reads_isoformat t := by
    cases t with
    | ofNat n => cases n <;> simp [tally, List.replicate_succ]
    | negSucc n => simp [tally]
  strip_isoformat t := by
    refine strip_of_noSpace fun c hc => ?_
    have hmark : c = 'i' ∨ c = '-' := by
      cases t with
      | ofNat n =>
        simp only [tally, String.toList_ofList] at hc
        exact .inl (List.eq_of_mem_replicate hc)
      | negSucc n =>
        simp only [tally, String.toList_ofList, List.mem_cons] at hc
        exact hc.symm.imp_left List.eq_of_mem_replicate
    rcases hmark with rfl | rfl <;> decide
  isoformat_offset t := by
    intro hlast
    have hmem := List.mem_of_getLast? hlast
    cases t with
    | ofNat n => simp [tally] at hmem
    | negSucc n => simp [tally] at hmem

/-- One event of a thread of the default profile. -/
def oneEventStore : FactStore where
  events := [("e1", "t1")]
  threads := [("t1", "assistant_default")]
  agentProfiles := ["assistant_default"]
  memories := { rows := [], nodup := List.nodup_nil }
  revisions := []
  openLoops := []

def drinkCall (drink : String) (now : Int) (id : String) : AdmissionCall where
  candidate := { memoryKey := "drink", value := .str drink, sourceEventIds := ["e1"] }
  now := now
  clock := now
  memoryId := "m-" ++ id
  revisionId := "r-" ++ id
  openLoopId := "o-" ++ id

/-- The stores after one drink and after another. -/
def firstDrink : FactStore :=
  endState ((admitMemoryCandidate tallyEnv (drinkCall "tea" 1 "1")).run oneEventStore)

def secondDrink : FactStore :=
  endState ((admitMemoryCandidate tallyEnv (drinkCall "coffee" 5 "2")).run firstDrink)

/-- At three the drink was tea, and it is told so after five. -/
theorem factsAt_secondDrink :
    factsAt tallyEnv secondDrink ["m-1"] 3 = storedFacts firstDrink ["m-1"] 3 := by
  obtain ⟨_, hfirst⟩ := exists_ok_of_returned
    (r := (admitMemoryCandidate tallyEnv (drinkCall "tea" 1 "1")).run oneEventStore)
    (by decide +kernel)
  obtain ⟨_, hsecond⟩ := exists_ok_of_returned
    (r := (admitMemoryCandidate tallyEnv (drinkCall "coffee" 5 "2")).run firstDrink)
    (by decide +kernel)
  have hthen : Run (FactStep tallyEnv) FactStore.NoFacts [.propose (drinkCall "tea" 1 "1")]
      firstDrink := Run.next (.start ⟨rfl, rfl⟩) (FactStep.admitted hfirst)
  have hlater : Run (FactStep tallyEnv) (fun s => s = firstDrink)
      [.propose (drinkCall "coffee" 5 "2")] secondDrink :=
    Run.next (Run.start (by rfl)) (FactStep.admitted hsecond)
  refine factsAt_eq_storedFacts hthen hlater (fun op hop => ?_) (fun op hop => ?_) ["m-1"]
  · rw [List.mem_singleton.mp hop]
    exact (by decide : (1 : Int) ≤ 3)
  · rw [List.mem_singleton.mp hop]
    exact (by decide : (3 : Int) < 5)

example : (storedFacts firstDrink ["m-1"] 3).map (fun record => record.value.asStr?) =
    [some "tea"] := by decide +kernel

end AliceBot
