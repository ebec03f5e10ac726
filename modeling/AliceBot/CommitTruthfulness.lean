import AliceBot.ServiceCalls
import AliceBot.StoreLaws

/-!
# When a committed answer is truthful

A commit or a confirmation that answers `committed` says that the row it
returns is a fact. A fresh one is right: it has just inserted the row as active,
or made it active. A replay answers out of `metadata_json.agentic_memory`, which
undo, forget and an accepted consolidation leave at `committed` when they retire
the row.

`answersTruthful_iff` says so of whole runs: the committed answers of a run are
all truthful if and only if no call of it is such a replay of a retired row
(`Invocation.StaleReplay`).
-/

namespace AliceBot

open PyLib

variable {env : Env} {s t : Store} {identity : Option AgentIdentity}

/-! ### Answers -/

/-- The row returned and the row stored after the call are live. -/
def Truthful (answer : CommitAnswer) (t : Store) : Prop :=
  ∃ row stored, answer.memory = some row ∧ t.getMemory row.id = some stored ∧
    row.status ∈ liveStatuses ∧ stored.status ∈ liveStatuses

/-- The answer says that the memory is a fact. -/
def CommitAnswer.Committed (answer : CommitAnswer) : Prop := answer.status = .str "committed"

theorem CommitAnswer.Committed.receipt {answer : CommitAnswer} (h : answer.Committed) :
    answer.receipt env = "saved as a fact." := by
  rw [CommitAnswer.Committed] at h
  rw [CommitAnswer.receipt, h]
  rfl

/-- An answer with another status says nothing. -/
theorem not_committed_of_status {answer : CommitAnswer} {status : String}
    (h : answer.status = .str status) (hne : status ≠ "committed") : ¬ answer.Committed := by
  intro hcommitted
  rw [CommitAnswer.Committed, h] at hcommitted
  exact hne (Json.str.inj hcommitted)

/-! ### The rows the replays find -/

theorem mem_of_latest {key : MemoryRow → List Int} {rows : List MemoryRow} {row : MemoryRow}
    (h : Store.latest key rows = some row) : row ∈ rows :=
  List.mem_mergeSort.mp (List.mem_of_mem_head? h)

/-- A row that was selected is found under its id. -/
theorem getMemory_of_mem_select {p : MemoryRow → Bool} {row : MemoryRow}
    (h : row ∈ s.select p) : s.getMemory row.id = some row := by
  obtain ⟨hrow, hcond⟩ := List.mem_filter.mp h
  rw [Store.getMemory, Table.get?_of_mem hrow, Option.filter_some, if_pos]
  exact (Bool.and_eq_true_iff.mp hcond).1

theorem getMemory_of_idempotentMemory {key : Option String} {row : MemoryRow}
    (h : s.idempotentMemory key = some row) : s.getMemory row.id = some row := by
  cases key with
  | none => exact absurd h (by simp [Store.idempotentMemory])
  | some digest => exact getMemory_of_mem_select (mem_of_latest h)

theorem getMemory_of_byConfirmationId {confirmationId : String} {row : MemoryRow}
    (h : s.byConfirmationId confirmationId = some row) : s.getMemory row.id = some row :=
  getMemory_of_mem_select (mem_of_latest h)

theorem Quiet.idempotentMemory (h : Quiet s t) (key : Option String) :
    t.idempotentMemory key = s.idempotentMemory key := by
  cases key with
  | none => rfl
  | some digest =>
    rw [Store.idempotentMemory, Store.idempotentMemory, Store.byCommitDigest,
      Store.byCommitDigest, Store.select, Store.select, h.memories]

/-- A row in its store, a few quiet steps later. -/
theorem truthful_of_getMemory {answer : CommitAnswer} {row : MemoryRow}
    (hanswer : answer.memory = some row) (hrow : s.getMemory row.id = some row)
    (hquiet : Quiet s t) : Truthful answer t ↔ row.status ∈ liveStatuses := by
  constructor
  · rintro ⟨row', stored, hrow', -, hlive, -⟩
    obtain rfl : row' = row := Option.some.inj (hrow'.symm.trans hanswer)
    exact hlive
  · intro hlive
    exact ⟨row, row, hanswer, (hquiet.getMemory row.id).trans hrow, hlive, hlive⟩

/-! ### A fresh commit -/

/-- A record that was created is the row inserted. -/
theorem createMemoryRecord_ok {memory : NewMemory} {request : MemoryCommitRequest}
    {row : MemoryRow}
    (h : (createMemoryRecord env memory identity request).run s = .ok row t) :
    row.status = memory.status ∧ t.getMemory row.id = some row := by
  rcases run_catching_ok.mp h with hcreate | ⟨e, u, -, hhandler⟩
  · obtain ⟨⟨id, now, rfl⟩, -, hrows, -⟩ := createMemory_ok hcreate
    refine ⟨rfl, Store.getMemory_eq_some_iff.mpr ⟨?_, rfl⟩⟩
    rw [hrows, if_pos rfl]
  · -- the handler always raises
    split at hhandler
    · simp only [run_bind_ok, run_throw_ok, and_false, exists_false] at hhandler
    · exact (run_throw_ok.mp hhandler).elim

/-- No replay is signalled. -/
def NoSignal (e : ServiceError) : Prop := ∀ row, e ≠ .idempotentReplay row

/-- Without a row under the key, no replay is signalled. -/
theorem createMemoryRecord_raises {memory : NewMemory} {request : MemoryCommitRequest}
    (hnone : s.idempotentMemory request.idempotencyKey = none) :
    RaisesAt NoSignal (createMemoryRecord env memory identity request) s := by
  intro e t h row
  rw [createMemoryRecord, run_catching] at h
  cases hrun : (createMemory env memory (actorOf identity)).run s with
  | ok created u =>
    rw [hrun] at h
    exact absurd h (by simp)
  | error e' u =>
    rw [hrun] at h
    obtain ⟨hquiet, hkind⟩ := createMemory_error hrun
    -- a conflict looks the key up once more, and still finds no row
    rcases hkind with ⟨message, rfl⟩ | rfl
    · have hnone' : u.idempotentMemory request.idempotencyKey = none :=
        (hquiet.idempotentMemory _).trans hnone
      simp only [run_bind_error, run_get_error, run_get_ok, run_orRaise_error, run_orRaise_ok,
        false_or] at h
      obtain ⟨_, _, ⟨rfl, rfl⟩, ⟨-, rfl, -⟩ | ⟨existing, _, ⟨hsome, -⟩, -⟩⟩ := h
      · simp
      · rw [hnone'] at hsome
        exact absurd hsome (by simp)
    · obtain ⟨rfl, -⟩ := run_throw_error.mp h
      simp

/-- The steps after an insertion leave the row found and its status alone. -/
theorem truthful_of_resigned {answer : CommitAnswer} {row : MemoryRow}
    (hanswer : answer.memory = some row) (hrow : s.getMemory row.id = some row)
    (hlive : row.status ∈ liveStatuses) (hresigned : Resigned row.id s t) : Truthful answer t := by
  obtain ⟨metadata, hstored, -⟩ := hresigned.getMemory hrow
  exact ⟨row, _, hanswer, hstored, hlive, hlive⟩

/-- A commit that is answered as committed has written a live row, and what follows the
insert leaves it live. -/
theorem createCommittedMemory_ok {request : MemoryCommitRequest}
    {decision : MemoryCommitPolicyDecision} {answer : CommitAnswer}
    (h : (createCommittedMemory env identity request decision).run s = .ok answer t) :
    Truthful answer t := by
  simp only [createCommittedMemory, run_bind_ok] at h
  obtain ⟨now, s₁, -, suffix, s₂, -, memory, s₃, hcreate, _, s₄, hattach, _, s₅, hrevise, _,
    s₅', hprovenance, _, s₆, hlinks, _, s₇, hevent, h⟩ := h
  obtain ⟨hstatus, hrow⟩ := createMemoryRecord_ok hcreate
  -- the events of a promotion are the last entries of the log
  have hlast : answer.memory = some memory ∧ Quiet s₇ t := by
    have hquiet := fun eventType =>
      quiet_appendMemoryEvent env eventType (actorOf identity) memory.id
    split at h
    · obtain ⟨_, s₈, hpromoted, h⟩ := run_bind_ok.mp h
      split at h
      · obtain ⟨_, s₉, hreview, h⟩ := run_bind_ok.mp h
        obtain ⟨rfl, rfl⟩ := run_pure_ok.mp h
        exact ⟨rfl, IsTrans.trans _ _ _ ((hquiet _).ok hpromoted) ((hquiet _).ok hreview)⟩
      · obtain ⟨rfl, rfl⟩ := run_pure_ok.mp h
        exact ⟨rfl, (hquiet _).ok hpromoted⟩
    · obtain ⟨rfl, rfl⟩ := run_pure_ok.mp h
      exact ⟨rfl, Std.Refl.refl _⟩
  obtain ⟨hanswer, hquiet⟩ := hlast
  have hlogged : Quiet s₄ t := IsTrans.trans _ _ _ ((quiet_appendRevision _).ok hrevise)
    (IsTrans.trans _ _ _ ((quiet_createProvenanceLinks _ _).ok hprovenance)
      (IsTrans.trans _ _ _ ((quiet_appendDerivedEvents env _ _ _).ok hlinks)
        (IsTrans.trans _ _ _ ((quiet_appendMemoryEvent env _ _ _).ok hevent) hquiet)))
  refine truthful_of_resigned hanswer hrow ?_
    (IsTrans.trans _ _ _ ((resigned_attachMemoryEmbedding _).ok hattach) hlogged.resigned)
  rw [hstatus]
  show MemoryStatus.active ∈ liveStatuses
  decide

/-- A confirmation is not a fact yet. -/
theorem createConfirmation_ok {request : MemoryCommitRequest}
    {decision : MemoryCommitPolicyDecision} {answer : CommitAnswer}
    (h : (createConfirmation env identity request decision).run s = .ok answer t) :
    ¬ answer.Committed := by
  simp only [createConfirmation, run_bind_ok, run_pure_ok] at h
  obtain ⟨_, _, -, _, _, -, _, _, -, _, _, -, memory, _, -, _, _, -, _, _, -, _, _, -, rfl, -⟩ := h
  exact not_committed_of_status rfl (by decide)

/-- Nor is a review candidate. -/
theorem createReviewCandidate_ok {request : MemoryCommitRequest}
    {decision : MemoryCommitPolicyDecision} {answer : CommitAnswer}
    (h : (createReviewCandidate env identity request decision).run s = .ok answer t) :
    ¬ answer.Committed := by
  simp only [createReviewCandidate, run_bind_ok, run_pure_ok] at h
  obtain ⟨_, _, -, _, _, -, memory, _, -, _, _, -, _, _, -, _, _, -, _, _, -, rfl, -⟩ := h
  exact not_committed_of_status rfl (by decide)

theorem createByMode_ok {request : MemoryCommitRequest} {decision : MemoryCommitPolicyDecision}
    {answer : CommitAnswer}
    (h : (createByMode env identity request decision).run s = .ok answer t)
    (hcommitted : answer.Committed) : Truthful answer t := by
  unfold createByMode at h
  split at h
  · exact absurd hcommitted (createConfirmation_ok h)
  · exact absurd hcommitted (createReviewCandidate_ok h)
  · exact createCommittedMemory_ok h

theorem returns_memoryKeySuffix (request : MemoryCommitRequest) :
    Returns (memoryKeySuffix env request) := by
  have hfresh : Returns (newId env) := Returns.modifyGet _
  unfold memoryKeySuffix
  split
  · split
    · exact hfresh
    · exact Returns.pure _
  · exact hfresh

theorem returns_attachMemoryEmbedding (memory : MemoryRow) :
    Returns (attachMemoryEmbedding env memory) := by
  unfold attachMemoryEmbedding
  split
  · exact Returns.pure _
  · exact Returns.modify _

theorem returns_appendMemoryEvent (eventType : String) (actor : Actor) (memoryId : String) :
    Returns (appendMemoryEvent env eventType actor memoryId) :=
  returns_appendEvent env _ _ _ _

/-- A quiet step keeps the key free. -/
theorem noSignal_bind {α β : Type} {key : Option String} {m : Service α} {f : α → Service β}
    (hnone : s.idempotentMemory key = none) (hquiet : Moves Quiet m) (hm : RaisesAt NoSignal m s)
    (hf : ∀ a t, t.idempotentMemory key = none → RaisesAt NoSignal (f a) t) :
    RaisesAt NoSignal (m >>= f) s :=
  hm.bind fun a t hrun => hf a t (((hquiet.ok hrun).idempotentMemory key).trans hnone)

theorem noSignal_utcNow (s : Store) : RaisesAt NoSignal (utcNow env) s :=
  Returns.raisesAt (Returns.modifyGet _) s

theorem noSignal_newId (s : Store) : RaisesAt NoSignal (newId env) s :=
  Returns.raisesAt (Returns.modifyGet _) s

theorem returns_appendRevision (revision : RevisionRow) : Returns (appendRevision revision) :=
  Returns.modify _

/-- A link to a source fails in the database alone. -/
theorem noSignal_createProvenanceLinks (memory : MemoryRow) (request : MemoryCommitRequest)
    (s : Store) : RaisesAt NoSignal (createProvenanceLinks env memory request identity) s := by
  refine RaisesAt.forM (fun sourceId u => ?_) _ s
  refine (noSignal_newId u).bind fun _ u₁ _ => (noSignal_utcNow u₁).bind fun _ u₂ _ =>
    RaisesAt.bind ?_ fun _ u₃ _ => (returns_appendMemoryEvent _ _ _).raisesAt u₃
  intro e t h row
  obtain ⟨-, rfl, -⟩ := run_raiseIf_error.mp h
  simp

/-- Without a row under the key, no path of a commit signals a replay. -/
theorem createByMode_raises {request : MemoryCommitRequest}
    {decision : MemoryCommitPolicyDecision}
    (hnone : s.idempotentMemory request.idempotencyKey = none) :
    RaisesAt NoSignal (createByMode env identity request decision) s := by
  have hevent : ∀ eventType actor memoryId,
      Returns (appendMemoryEvent env eventType actor memoryId) := returns_appendMemoryEvent
  unfold createByMode
  -- the three modes; only the insertion could signal a replay, and no row has the key
  split
  · refine noSignal_bind hnone (quiet_utcNow env) (noSignal_utcNow s) fun _ s₁ hnone => ?_
    refine noSignal_bind hnone (quiet_newId env) (noSignal_newId s₁) fun _ s₂ hnone => ?_
    refine noSignal_bind hnone (Moves.orRaise _ _) ?_ fun _ s₃ hnone => ?_
    · intro e t h row
      obtain ⟨-, rfl, -⟩ := run_orRaise_error.mp h
      simp
    refine noSignal_bind hnone (quiet_memoryKeySuffix _) ((returns_memoryKeySuffix _).raisesAt s₃)
      fun _ s₄ hnone => ?_
    refine (createMemoryRecord_raises hnone).bind fun memory s₅ _ => Returns.raisesAt ?_ s₅
    exact Returns.bind (returns_attachMemoryEmbedding _) fun _ =>
      Returns.bind (returns_appendRevision _) fun _ => Returns.bind (hevent _ _ _) fun _ =>
        Returns.pure _
  · refine noSignal_bind hnone (quiet_newId env) (noSignal_newId s) fun _ s₁ hnone => ?_
    refine noSignal_bind hnone (quiet_memoryKeySuffix _) ((returns_memoryKeySuffix _).raisesAt s₁)
      fun _ s₂ hnone => ?_
    refine (createMemoryRecord_raises hnone).bind fun memory s₃ _ => Returns.raisesAt ?_ s₃
    exact Returns.bind (returns_attachMemoryEmbedding _) fun _ =>
      Returns.bind (returns_appendRevision _) fun _ => Returns.bind (hevent _ _ _) fun _ =>
        Returns.bind (hevent _ _ _) fun _ => Returns.pure _
  · refine noSignal_bind hnone (quiet_utcNow env) (noSignal_utcNow s) fun _ s₁ hnone => ?_
    refine noSignal_bind hnone (quiet_memoryKeySuffix _) ((returns_memoryKeySuffix _).raisesAt s₁)
      fun _ s₂ hnone => ?_
    refine (createMemoryRecord_raises hnone).bind fun memory s₃ _ =>
      ((returns_attachMemoryEmbedding memory).raisesAt s₃).bind fun _ s₄ _ =>
      ((returns_appendRevision _).raisesAt s₄).bind fun _ s₅ _ =>
      (noSignal_createProvenanceLinks memory request s₅).bind fun _ s₆ _ => Returns.raisesAt ?_ s₆
    refine Returns.bind (Returns.forM (fun _ => hevent _ _ _) _) fun _ =>
      Returns.bind (hevent _ _ _) fun _ => ?_
    split
    · refine Returns.bind (hevent _ _ _) fun _ => ?_
      split
      · exact Returns.bind (hevent _ _ _) fun _ => Returns.pure _
      · exact Returns.pure _
    · exact Returns.pure _

/-! ### Commits -/

theorem idempotentReplay_ok {existing : MemoryRow} {request : MemoryCommitRequest}
    {answer : CommitAnswer}
    (h : (idempotentReplay env existing request identity).run s = .ok answer t) :
    MayWrite env identity "memory.commit" existing ∧
      idempotentRequestMatches env existing request = true ∧ answer.memory = some existing ∧
      answer.status = orDefault (existing.agentic.item "status") "committed" := by
  simp only [idempotentReplay, assertIdempotentRequestMatches, run_bind_ok, run_raiseIf_ok,
    run_pure_ok] at h
  obtain ⟨_, _, hpolicy, _, _, ⟨hmatches, -⟩, rfl, -⟩ := h
  exact ⟨policyCheckedWrite_ok env hpolicy, Bool.eq_true_of_not_eq_false hmatches, rfl, rfl⟩

/-- A replay that may be answered is. -/
theorem idempotentReplay_returns {existing : MemoryRow} {request : MemoryCommitRequest}
    (hmay : MayWrite env identity "memory.commit" existing)
    (hmatches : idempotentRequestMatches env existing request = true) :
    Returns (idempotentReplay env existing request identity) := by
  refine Returns.bind (policyCheckedWrite_returns env hmay) fun _ => Returns.bind ?_ fun _ =>
    Returns.pure _
  intro u
  refine ⟨(), u, run_raiseIf_ok.mpr ⟨?_, rfl⟩⟩
  rw [hmatches]
  simp

/-- The key is that of a retired row which still says `committed`, and the
replay is answered. -/
def StaleReplay (env : Env) (identity : Option AgentIdentity) (s : Store)
    (request : MemoryCommitRequest) : Prop :=
  ∃ existing, s.idempotentMemory request.idempotencyKey = some existing ∧
    existing.status ∈ retiredStatuses ∧
    orDefault (existing.agentic.item "status") "committed" = .str "committed" ∧
    idempotentRequestMatches env existing request = true ∧
    MayWrite env identity "memory.commit" existing

theorem not_live_iff {status : MemoryStatus} :
    status ∉ liveStatuses ↔ status ∈ retiredStatuses := by
  rw [mem_liveStatuses_iff, not_not]

/-- **Commits.** A committed answer is truthful unless it replays a retired row. -/
theorem commit_truthful_iff (env : Env) (identity : Option AgentIdentity) (s : Store)
    (request : MemoryCommitRequest) :
    (∀ answer t, (commit env identity request).run s = .ok answer t → answer.Committed →
      Truthful answer t) ↔ ¬ StaleReplay env identity s request := by
  cases hkey : s.idempotentMemory request.idempotencyKey with
  | some existing =>
    -- the key is known: the answer replays its row
    have hcommit : (commit env identity request).run s =
        (idempotentReplay env existing request identity).run s := by
      rw [commit, run_bind_of_ok (run_get_ok.mpr ⟨rfl, rfl⟩), hkey]
    have hrow : s.getMemory existing.id = some existing := getMemory_of_idempotentMemory hkey
    have htruthful : ∀ answer t,
        (idempotentReplay env existing request identity).run s = .ok answer t →
        (Truthful answer t ↔ existing.status ∈ liveStatuses) := by
      intro answer t hrun
      obtain ⟨-, -, hanswer, -⟩ := idempotentReplay_ok hrun
      exact truthful_of_getMemory hanswer hrow ((quiet_idempotentReplay _ _).ok hrun)
    constructor
    · rintro hall ⟨found, hfound, hretired, hstatus, hmatches, hmay⟩
      obtain rfl : found = existing := Option.some.inj (hfound.symm.trans hkey)
      obtain ⟨answer, t, hrun⟩ := idempotentReplay_returns hmay hmatches s
      obtain ⟨-, -, -, hanswer⟩ := idempotentReplay_ok hrun
      have hlive := (htruthful answer t hrun).mp
        (hall answer t (hcommit.trans hrun) (hanswer.trans hstatus))
      exact not_live_iff.mpr hretired hlive
    · intro hfresh answer t hrun hcommitted
      rw [hcommit] at hrun
      obtain ⟨hmay, hmatches, -, hanswer⟩ := idempotentReplay_ok hrun
      refine (htruthful answer t hrun).mpr ?_
      by_contra hdead
      exact hfresh ⟨existing, hkey, not_live_iff.mp hdead, hanswer.symm.trans hcommitted,
        hmatches, hmay⟩
  | none =>
    -- no row has the key, so there is nothing to replay
    have hnot : ¬ StaleReplay env identity s request := by
      rintro ⟨existing, hfound, -⟩
      rw [hkey] at hfound
      exact absurd hfound (by simp)
    refine iff_of_true ?_ hnot
    intro answer t hrun hcommitted
    simp only [commit, run_bind_ok, run_get_ok] at hrun
    obtain ⟨_, _, ⟨rfl, rfl⟩, hrun⟩ := hrun
    rw [hkey] at hrun
    obtain ⟨decision, s₁, hdecision, hrun⟩ := run_bind_ok.mp hrun
    have hnone : s₁.idempotentMemory request.idempotencyKey = none :=
      (((quiet_evaluatePolicy _).ok hdecision).idempotentMemory _).trans hkey
    -- a rejected write is not answered as a committed one
    split at hrun
    · simp only [run_bind_ok, run_pure_ok] at hrun
      obtain ⟨_, _, -, rfl, -⟩ := hrun
      exact absurd hcommitted (not_committed_of_status rfl (by decide))
    · rcases run_catching_ok.mp hrun with hcreate | ⟨e, u, herror, hhandler⟩
      · exact createByMode_ok hcreate hcommitted
      · -- no replay is signalled, so the handler raises
        have hsignal := createByMode_raises hnone e u herror
        split at hhandler
        · next row => exact absurd rfl (hsignal row)
        · exact (run_throw_ok.mp hhandler).elim

/-! ### Confirmations -/

/-- The confirmation was confirmed, its row has been retired since, and the
confirmation is repeated. -/
def StaleReconfirmation (env : Env) (identity : Option AgentIdentity) (s : Store)
    (confirmationId action : String) : Prop :=
  ∃ row, s.byConfirmationId confirmationId = some row ∧ row.status ∈ retiredStatuses ∧
    (confirmationOf row).getStr? "status" = some "confirmed" ∧
    env.rx.casefold (strip action) = "confirm" ∧ row.checks = true ∧
    MayWrite env identity "memory.confirm" row

/-- A repeated confirmation refreshes the row and leaves its status. -/
theorem refreshLastConfirmed_ok {row refreshed : MemoryRow} {action reason : String}
    (h : (refreshLastConfirmed env identity row action reason).run s = .ok refreshed t)
    (hrow : s.getMemory row.id = some row) :
    refreshed.status = row.status ∧ t.getMemory refreshed.id = some refreshed ∧
      row.checks = true := by
  simp only [refreshLastConfirmed, run_bind_ok, run_pure_ok] at h
  obtain ⟨now, s₁, hnow, updated, s₂, hupdate, _, s₃, hrevise, rfl, rfl⟩ := h
  obtain ⟨found, hfound, rfl, -⟩ := updateMemory_ok hupdate
  rw [((quiet_utcNow env).ok hnow).getMemory] at hfound
  obtain rfl : found = row := Option.some.inj (hfound.symm.trans hrow)
  have hchecks := updateMemory_checks hupdate
  refine ⟨rfl, ?_, hchecks⟩
  rw [((quiet_reviseMemory _ _ _ _ _ _ _).ok hrevise).getMemory]
  exact updateMemory_getMemory hupdate (by simp)

/-- The refresh of a replayed commit returns, since the row is there and stays
admissible. -/
theorem refreshLastConfirmed_returns {row : MemoryRow} {action reason : String}
    (hrow : s.getMemory row.id = some row) (hchecks : row.checks = true) :
    ∃ refreshed t, (refreshLastConfirmed env identity row action reason).run s =
      .ok refreshed t := by
  have hquiet : Quiet s { s with ticks := s.ticks + 1 } :=
    ⟨⟨Nat.le_succ _, List.prefix_refl _⟩, rfl⟩
  obtain ⟨updated, t, hupdate⟩ : ∃ updated t, (updateMemory env row.id
      { lastConfirmedAt := some (env.clock.read s.ticks)
        lastReviewedAt := some (env.clock.read s.ticks) } (actorOf identity)).run
      { s with ticks := s.ticks + 1 } = .ok updated t :=
    updateMemory_returns ((hquiet.getMemory row.id).trans hrow) fun _ _ => hchecks
  have hrevises : Returns (reviseMemory row updated "edited" action updated.canonicalText reason
      (actorOf identity)) :=
    Returns.modify _
  obtain ⟨_, u, hrevise⟩ := hrevises t
  refine ⟨updated, u, run_bind_ok.mpr ⟨_, { s with ticks := s.ticks + 1 }, rfl, ?_⟩⟩
  exact run_bind_ok.mpr ⟨updated, t, hupdate, run_bind_ok.mpr ⟨_, u, hrevise, rfl⟩⟩

/-- A confirmation that was acted on: only a repeated one is answered
`committed`, and it is truthful when the row is still live. -/
theorem replayConfirmation_ok {row : MemoryRow} {confirmationId action : String}
    {answer : CommitAnswer}
    (h : (replayConfirmation env identity row confirmationId action).run s = .ok answer t)
    (hrow : s.getMemory row.id = some row) (hcommitted : answer.Committed) :
    (confirmationOf row).getStr? "status" = some "confirmed" ∧ action = "confirm" ∧
      row.checks = true ∧ (Truthful answer t ↔ row.status ∈ liveStatuses) := by
  unfold replayConfirmation at h
  dsimp only at h
  split at h
  · next hrepeated =>
    simp only [run_bind_ok, run_pure_ok] at h
    obtain ⟨refreshed, _, hrefresh, rfl, rfl⟩ := h
    obtain ⟨hstatus, hfound, hchecks⟩ := refreshLastConfirmed_ok hrefresh hrow
    refine ⟨hrepeated.1, hrepeated.2, hchecks, ?_⟩
    rw [← hstatus]
    exact truthful_of_getMemory rfl hfound (Std.Refl.refl _)
  · split at h
    · obtain ⟨rfl, -⟩ := run_pure_ok.mp h
      exact absurd hcommitted (not_committed_of_status rfl (by decide))
    · exact (run_throw_ok.mp h).elim

/-- Expiry is no acceptance. -/
theorem expireConfirmation_ok {row : MemoryRow} {confirmationId : String} {answer : CommitAnswer}
    (h : (expireConfirmation env identity row confirmationId).run s = .ok answer t) :
    ¬ answer.Committed := by
  simp only [expireConfirmation, run_bind_ok, run_pure_ok] at h
  obtain ⟨_, _, -, _, _, -, _, _, -, _, _, -, _, _, -, rfl, -⟩ := h
  exact not_committed_of_status rfl (by decide)

/-- **A fresh confirmation** leaves an active row. -/
theorem decideConfirmation_ok {row : MemoryRow} {confirmationId action : String}
    {canonicalText rationale : Option String} {answer : CommitAnswer}
    (h : (decideConfirmation env identity row confirmationId action canonicalText rationale).run s =
      .ok answer t) (hcommitted : answer.Committed) : Truthful answer t := by
  simp only [decideConfirmation, run_bind_ok] at h
  obtain ⟨_, _, -, nextText, _, -, now, s₁, -, h⟩ := h
  -- a rejection is not answered as committed
  split at h
  · simp only [run_bind_ok, run_pure_ok] at h
    obtain ⟨_, _, -, _, _, -, _, _, -, rfl, -⟩ := h
    exact absurd hcommitted (not_committed_of_status rfl (by decide))
  · simp only [run_bind_ok, run_pure_ok] at h
    obtain ⟨updated, s₂, hupdate, _, s₃, hrefresh, _, s₄, hrevise, _, s₅, hevent, rfl, rfl⟩ := h
    obtain ⟨found, hfound, hupdated, -⟩ := updateMemory_ok hupdate
    have hid : updated.id = row.id := by
      rw [hupdated]
      show found.id = row.id
      exact Store.id_of_getMemory hfound
    have hstatus : updated.status = .active := by
      rw [hupdated]
      rfl
    have hstored : s₂.getMemory updated.id = some updated := by
      rw [hid]
      exact updateMemory_getMemory hupdate (by simp [acceptConfirmationPatch])
    -- what follows the update writes no status
    refine truthful_of_resigned rfl hstored (by rw [hstatus]; decide) ?_
    exact IsTrans.trans _ _ _ ((resigned_refreshMemoryDerivedState identity _ _ _).ok hrefresh)
      (IsTrans.trans _ _ _ ((quiet_reviseMemory _ _ _ _ _ _ _).ok hrevise).resigned
        ((quiet_appendMemoryEvent env _ _ _).ok hevent).resigned)

/-- **Confirmations.** A committed answer is truthful unless it repeats the
confirmation of a row retired since. -/
theorem confirm_truthful_iff (env : Env) (identity : Option AgentIdentity) (s : Store)
    (confirmationId action : String) (canonicalText rationale : Option String) :
    (∀ answer t, (confirm env identity confirmationId action canonicalText rationale).run s =
      .ok answer t → answer.Committed → Truthful answer t) ↔
    ¬ StaleReconfirmation env identity s confirmationId action := by
  constructor
  · -- a repeated confirmation of a retired row is answered as committed
    rintro hall ⟨row, hfound, hretired, hconfirmed, haction, hchecks, hmay⟩
    have hrow : s.getMemory row.id = some row := getMemory_of_byConfirmationId hfound
    obtain ⟨decision, s₁, hpolicy⟩ := policyCheckedWrite_returns env hmay s
    -- the policy check writes events only, so the row is as it was found
    have hquiet : Quiet s s₁ := (quiet_policyCheckedWrite env _ _ _).ok hpolicy
    have hrow₁ : s₁.getMemory row.id = some row := (hquiet.getMemory row.id).trans hrow
    obtain ⟨refreshed, t, hrefresh⟩ : ∃ refreshed t, (refreshLastConfirmed env identity row
        "agentic_memory_reconfirm"
        "Repeated inline confirmation replayed; last_confirmed_at refreshed.").run s₁ =
          .ok refreshed t :=
      refreshLastConfirmed_returns hrow₁ hchecks
    have hreplay : (replayConfirmation env identity row confirmationId "confirm").run s₁ =
        .ok (confirmationAnswer "committed" confirmationId refreshed none true) t := by
      rw [replayConfirmation, hconfirmed]
      exact run_bind_ok.mpr ⟨refreshed, t, hrefresh, rfl⟩
    have hrun : (confirm env identity confirmationId action canonicalText rationale).run s =
        .ok (confirmationAnswer "committed" confirmationId refreshed none true) t := by
      simp only [confirm, haction, run_bind_ok, run_raiseIf_ok, run_get_ok, run_orRaise_ok]
      refine ⟨(), s, ⟨by decide, rfl⟩, s, s, ⟨rfl, rfl⟩, row, s, ⟨hfound, rfl⟩, row, s,
        ⟨hrow, rfl⟩, decision, s₁, hpolicy, ?_⟩
      rw [if_pos (by rw [hconfirmed]; decide)]
      exact hreplay
    obtain ⟨-, -, -, htruthful⟩ := replayConfirmation_ok hreplay hrow₁ rfl
    exact not_live_iff.mpr hretired (htruthful.mp (hall _ _ hrun rfl))
  · intro hfresh answer t hrun hcommitted
    simp only [confirm, run_bind_ok, run_raiseIf_ok, run_get_ok, run_orRaise_ok] at hrun
    obtain ⟨_, _, ⟨-, rfl⟩, _, _, ⟨rfl, rfl⟩, found, _, ⟨hfound, rfl⟩, row, _, ⟨hrow, rfl⟩,
      decision, s₁, hpolicy, hrun⟩ := hrun
    have hself : s.getMemory found.id = some found := getMemory_of_byConfirmationId hfound
    obtain rfl : row = found := Option.some.inj (hrow.symm.trans hself)
    have hquiet : Quiet s s₁ := (quiet_policyCheckedWrite env _ _ _).ok hpolicy
    -- a confirmation that was decided before is replayed; the others expire or are decided now
    split at hrun
    · have hrow₁ : s₁.getMemory row.id = some row := (hquiet.getMemory row.id).trans hrow
      obtain ⟨hconfirmed, haction, hchecks, htruthful⟩ :=
        replayConfirmation_ok hrun hrow₁ hcommitted
      refine htruthful.mpr ?_
      by_contra hdead
      exact hfresh ⟨row, hfound, not_live_iff.mp hdead, hconfirmed, haction, hchecks,
        policyCheckedWrite_ok env hpolicy⟩
    · obtain ⟨expired, s₂, -, hrun⟩ := run_bind_ok.mp hrun
      split at hrun
      · exact absurd hcommitted (expireConfirmation_ok hrun)
      · exact decideConfirmation_ok hrun hcommitted

/-! ### Runs -/

/-- A committed answer of the call is truthful. For a commit it comes with the
receipt of a fact. -/
def Invocation.AnswersTruthfully (i : Invocation) (s : Store) : Prop :=
  match i.call with
  | .commit request => ∀ answer t, (commit i.env i.identity request).run s = .ok answer t →
      answer.Committed → answer.receipt i.env = "saved as a fact." ∧ Truthful answer t
  | .confirm confirmationId action canonicalText rationale => ∀ answer t,
      (confirm i.env i.identity confirmationId action canonicalText rationale).run s =
        .ok answer t → answer.Committed → Truthful answer t
  | _ => True

/-- The call replays a commit or a confirmation whose row was retired since,
and which still says `committed`. -/
def Invocation.StaleReplay (i : Invocation) (s : Store) : Prop :=
  match i.call with
  | .commit request => AliceBot.StaleReplay i.env i.identity s request
  | .confirm confirmationId action _ _ =>
    StaleReconfirmation i.env i.identity s confirmationId action
  | _ => False

theorem answersTruthfully_iff (i : Invocation) (s : Store) :
    i.AnswersTruthfully s ↔ ¬ i.StaleReplay s := by
  obtain ⟨env, identity, call⟩ := i
  cases call with
  | commit request =>
    refine Iff.trans ?_ (commit_truthful_iff env identity s request)
    constructor
    · intro h answer t hrun hcommitted
      exact (h answer t hrun hcommitted).2
    · intro h answer t hrun hcommitted
      exact ⟨hcommitted.receipt, h answer t hrun hcommitted⟩
  | confirm confirmationId action canonicalText rationale =>
    exact confirm_truthful_iff env identity s confirmationId action canonicalText rationale
  | _ => exact iff_of_true trivial not_false

/-- **When committed answers are truthful.** In a run of the service from any
store, every committed answer is that of a live row if and only if no call
replays a commit or a confirmation of a row retired since. -/
theorem answersTruthful_iff (s : Store) (calls : List Invocation) :
    Throughout Invocation.AnswersTruthfully s calls ↔
      Throughout (fun i u => ¬ i.StaleReplay u) s calls :=
  throughout_congr answersTruthfully_iff s calls

/-- A request that may be repeated under its key. -/
def keyedFact : MemoryCommitRequest :=
  { userId := "u"
    title := "Tea"
    canonicalText := "I drink green tea."
    domain := "personal"
    sensitivity := "internal"
    idempotencyKey := some "k1" }

/-- A fact is committed, undone, and committed again under its key: the third
call answers `committed` with the superseded row. -/
theorem undone_fact_answered_committed :
    let calls : List Invocation := [⟨.plain, none, .commit keyedFact⟩,
      ⟨.plain, none, .undo none none none⟩, ⟨.plain, none, .commit keyedFact⟩]
    ¬ Throughout Invocation.AnswersTruthfully { memories := default } calls := by
  rintro calls ⟨-, -, hthird, -⟩
  -- the store before the third call
  let undone := Invocation.transact ⟨.plain, none, .undo none none none⟩
    (Invocation.transact ⟨.plain, none, .commit keyedFact⟩ { memories := default })
  have hlast : (match (commit .plain none keyedFact).run undone with
      | .ok answer _ => answer.status.asStr? == some "committed" &&
          answer.memory.any fun row => row.status == .superseded
      | .error _ _ => false) = true := by
    decide +kernel
  cases hrun : (commit .plain none keyedFact).run undone with
  | error e t =>
    rw [hrun] at hlast
    exact absurd hlast (by simp)
  | ok answer t =>
    rw [hrun] at hlast
    simp only [Bool.and_eq_true, beq_iff_eq] at hlast
    obtain ⟨hstatus, hsuperseded⟩ := hlast
    have hcommitted : answer.Committed := by
      cases hvalue : answer.status with
      | str text =>
        rw [hvalue] at hstatus
        rw [CommitAnswer.Committed, hvalue, Option.some.inj hstatus]
      | _ =>
        rw [hvalue] at hstatus
        exact absurd hstatus (by simp [Json.asStr?])
    obtain ⟨-, row, stored, hrow, -, hlive, -⟩ := hthird answer t hrun hcommitted
    rw [hrow] at hsuperseded
    have hretired : row.status = .superseded := by simpa using hsuperseded
    rw [hretired] at hlive
    exact absurd hlive (by decide)

end AliceBot
