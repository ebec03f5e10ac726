import AliceBot.StoreLaws

/-!
# What a review establishes

The first half of an acceptance, `reviewedInputs`, writes no memory. When it
returns, the rows it hands on are the rows of the store (`lockedRows`), and for
a candidate of a derived kind they are the rows that were reviewed:
`StrictlyReviewed`.
-/

namespace AliceBot

open PyLib

variable {env : Env} {s t : Store} {identity : Option AgentIdentity}

/-! ### The proposal -/

/-- The proposed members are distinct, and none is the candidate. -/
theorem readProposal_ok {acceptedId : String} {consolidation : Dict Json}
    {proposal : ConsolidationProposal}
    (h : readProposal env acceptedId consolidation = .ok proposal) :
    proposal.proposed.Nodup ∧ acceptedId ∉ proposal.proposed := by
  unfold readProposal at h
  cases hmembers : idList env (consolidation.item "cluster_member_ids") with
  | error e =>
    rw [hmembers] at h
    exact absurd h (by simp [bind, Except.bind])
  | ok memberIds =>
  cases hlisted : idList env (consolidation.item "proposed_supersede") with
  | error e =>
    rw [hmembers, hlisted] at h
    exact absurd h (by simp [bind, Except.bind])
  | ok listed =>
  rw [hmembers, hlisted] at h
  obtain rfl := Except.ok.inj h
  refine ⟨(nodup_fromkeys _).filter _, ?_⟩
  -- the accepted candidate is filtered out of the list
  intro hmem
  simpa using List.of_mem_filter hmem

theorem mem_dependencyIds {proposal : ConsolidationProposal} {id : String} :
    id ∈ proposal.dependencyIds ↔ id ∈ proposal.memberIds ∨ id ∈ proposal.proposed := by
  rw [ConsolidationProposal.dependencyIds, mem_fromkeys, List.mem_append]

/-! ### The rows locked -/

/-- The rows of the store under the ids. -/
def lockedRows (s : Store) (ids : List String) : List (String × MemoryRow) :=
  ids.filterMap fun id => (s.getMemory id).map fun row => (id, row)

theorem mem_lockedRows {ids : List String} {id : String} {row : MemoryRow} :
    (id, row) ∈ lockedRows s ids ↔ id ∈ ids ∧ s.getMemory id = some row := by
  simp only [lockedRows, List.mem_filterMap, Option.map_eq_some_iff, Prod.mk.injEq]
  constructor
  · rintro ⟨id', hmem, row', hrow, rfl, rfl⟩
    exact ⟨hmem, hrow⟩
  · rintro ⟨hmem, hrow⟩
    exact ⟨id, hmem, row, hrow, rfl, rfl⟩

/-- Looking up a locked row. -/
theorem get?_lockedRows (ids : List String) (id : String) :
    Dict.get? (lockedRows s ids) id = if id ∈ ids then s.getMemory id else none := by
  induction ids with
  | nil => rfl
  | cons first ids ih =>
    cases hrow : s.getMemory first with
    | none =>
      have hskip : lockedRows s (first :: ids) = lockedRows s ids := by
        simp [lockedRows, hrow]
      rw [hskip, ih]
      by_cases hid : id = first
      · subst hid
        simp [hrow]
      · simp [hid]
    | some row =>
      have hkeep : lockedRows s (first :: ids) = (first, row) :: lockedRows s ids := by
        simp [lockedRows, hrow]
      rw [hkeep, Dict.get?_cons, ih]
      by_cases hid : first = id
      · subst hid
        simp [hrow]
      · simp [hid, Ne.symm hid]

/-- The row of a dependency is there, and as it was when the proposal was made. -/
def Current (env : Env) (s : Store) (proposal : ConsolidationProposal) (id : String) : Prop :=
  ∃ member snapshot, s.getMemory id = some member ∧
    proposal.snapshots.get? id = some snapshot ∧ memoryMatchesSnapshot env member snapshot = true

theorem Quiet.current {proposal : ConsolidationProposal} {id : String} (h : Quiet s t) :
    Current env t proposal id ↔ Current env s proposal id := by
  rw [Current, Current, h.getMemory]

theorem quiet_lockMember (strict : Bool) (proposal : ConsolidationProposal) (memberId : String) :
    Moves Quiet (lockMember env identity strict proposal memberId) := by
  refine Moves.bind Moves.get fun u => ?_
  split
  · exact Moves.bind (Moves.raiseIf _ _) fun _ => Moves.pure _
  · refine Moves.ite (fun _ => ?_) fun _ => ?_
    · exact Moves.bind (quiet_policyCheckedWrite env _ _ _) fun _ =>
        Moves.bind (Moves.raiseIf _ _) fun _ => Moves.pure _
    · exact Moves.bind (Moves.raiseIf _ _) fun _ => Moves.pure _

/-- One dependency: the row found, and current where the candidate is strict. -/
theorem lockMember_ok {strict : Bool} {proposal : ConsolidationProposal} {memberId : String}
    {member : Option (String × MemoryRow)}
    (h : (lockMember env identity strict proposal memberId).run s = .ok member t) :
    member = (s.getMemory memberId).map (fun row => (memberId, row)) ∧
      (strict = true → Current env s proposal memberId) := by
  -- a row that passes the check of a strict candidate is as it was reviewed
  have hcurrent : ∀ row, s.getMemory memberId = some row →
      ¬ (strict = true ∧
        (proposal.snapshots.get? memberId).any (memoryMatchesSnapshot env row) = false) →
      strict = true → Current env s proposal memberId := by
    intro row hrow hchecked hstrict
    have hany := Bool.eq_true_of_not_eq_false fun hfalse => hchecked ⟨hstrict, hfalse⟩
    cases hsnapshot : proposal.snapshots.get? memberId with
    | none =>
      rw [hsnapshot] at hany
      exact absurd hany (by simp)
    | some snapshot =>
      rw [hsnapshot] at hany
      exact ⟨row, snapshot, hrow, hsnapshot, hany⟩
  simp only [lockMember, run_bind_ok, run_get_ok] at h
  obtain ⟨_, _, ⟨rfl, rfl⟩, h⟩ := h
  split at h
  · next hrow =>
    simp only [run_bind_ok, run_raiseIf_ok, run_pure_ok] at h
    obtain ⟨_, _, ⟨hstrict, rfl⟩, rfl, rfl⟩ := h
    rw [hrow]
    exact ⟨rfl, fun h => absurd h hstrict⟩
  · next row hrow =>
    rw [hrow]
    split at h
    · simp only [run_bind_ok, run_raiseIf_ok, run_pure_ok] at h
      obtain ⟨_, _, _, _, _, ⟨hchecked, rfl⟩, rfl, rfl⟩ := h
      exact ⟨rfl, hcurrent row hrow hchecked⟩
    · simp only [run_bind_ok, run_raiseIf_ok, run_pure_ok] at h
      obtain ⟨_, _, ⟨hchecked, rfl⟩, rfl, rfl⟩ := h
      exact ⟨rfl, hcurrent row hrow hchecked⟩

theorem quiet_lockMembers (strict : Bool) (proposal : ConsolidationProposal) (ids : List String) :
    Moves Quiet (lockMembers env identity strict proposal ids) := by
  induction ids with
  | nil => exact Moves.pure _
  | cons id ids ih =>
    exact Moves.bind (quiet_lockMember _ _ _) fun _ => Moves.bind ih fun _ => Moves.pure _

/-- The loop over the dependencies. -/
theorem lockMembers_ok {strict : Bool} {proposal : ConsolidationProposal} {ids : List String}
    {members : List (String × MemoryRow)}
    (h : (lockMembers env identity strict proposal ids).run s = .ok members t) :
    members = lockedRows s ids ∧ (strict = true → ∀ id ∈ ids, Current env s proposal id) := by
  induction ids generalizing s members with
  | nil =>
    obtain ⟨rfl, rfl⟩ := run_pure_ok.mp h
    exact ⟨rfl, fun _ id hid => absurd hid (by simp)⟩
  | cons first ids ih =>
    simp only [lockMembers, run_bind_ok, run_pure_ok] at h
    obtain ⟨member, s₁, hmember, rest, s₂, hrest, rfl, rfl⟩ := h
    have hquiet : Quiet s s₁ := (quiet_lockMember _ _ _).ok hmember
    obtain ⟨rfl, hfirst⟩ := lockMember_ok hmember
    obtain ⟨rfl, hothers⟩ := ih hrest
    refine ⟨?_, ?_⟩
    · -- locking the first member changed no row
      have hrows : lockedRows s₁ ids = lockedRows s ids := by
        simp only [lockedRows, hquiet.getMemory]
      rw [hrows]
      cases hrow : s.getMemory first <;> simp [lockedRows, hrow]
    · intro hstrict id hid
      rcases List.mem_cons.mp hid with rfl | hid
      · exact hfirst hstrict
      · exact hquiet.current.mp (hothers hstrict id hid)

/-! ### The review -/

/-- What the checks on a strict candidate amount to: complete snapshots, every
dependency as it was, and one project scope. -/
structure StrictlyReviewed (env : Env) (s : Store) (memory : MemoryRow)
    (proposal : ConsolidationProposal) : Prop where
  complete : snapshotsComplete proposal = true
  current : ∀ id ∈ proposal.dependencyIds, Current env s proposal id
  singleScope : ∀ id ∈ proposal.dependencyIds, ∀ member, s.getMemory id = some member →
    scopeKey member = scopeKey memory

/-- What a review that returned has established. -/
structure Reviewed (env : Env) (s : Store) (memory : MemoryRow) (consolidation : Dict Json)
    (proposal : ConsolidationProposal) (members : List (String × MemoryRow)) : Prop where
  acceptable : memory.status ∈ [MemoryStatus.candidate, .needsReview]
  read : readProposal env memory.id consolidation = .ok proposal
  rows : members = lockedRows s proposal.dependencyIds
  strictly : hasDerivedKind memory = true → StrictlyReviewed env s memory proposal

theorem Reviewed.quiet {memory : MemoryRow} {consolidation : Dict Json}
    {proposal : ConsolidationProposal} {members : List (String × MemoryRow)}
    (h : Reviewed env s memory consolidation proposal members) (hquiet : Quiet s t) :
    Reviewed env t memory consolidation proposal members := by
  refine ⟨h.acceptable, h.read, ?_, fun hstrict => ?_⟩
  · rw [h.rows]
    simp only [lockedRows, hquiet.getMemory]
  · obtain ⟨hcomplete, hcurrent, hscope⟩ := h.strictly hstrict
    refine ⟨hcomplete, fun id hid => hquiet.current.mpr (hcurrent id hid), ?_⟩
    intro id hid member hmember
    rw [hquiet.getMemory] at hmember
    exact hscope id hid member hmember

theorem Reviewed.of_quiet {memory : MemoryRow} {consolidation : Dict Json}
    {proposal : ConsolidationProposal} {members : List (String × MemoryRow)}
    (h : Reviewed env t memory consolidation proposal members) (hquiet : Quiet s t) :
    Reviewed env s memory consolidation proposal members := by
  refine ⟨h.acceptable, h.read, ?_, fun hstrict => ?_⟩
  · rw [h.rows]
    simp only [lockedRows, hquiet.getMemory]
  · obtain ⟨hcomplete, hcurrent, hscope⟩ := h.strictly hstrict
    refine ⟨hcomplete, fun id hid => hquiet.current.mp (hcurrent id hid), ?_⟩
    intro id hid member hmember
    rw [← hquiet.getMemory] at hmember
    exact hscope id hid member hmember

theorem quiet_requireAcceptable (memory : MemoryRow) (consolidation : Dict Json) :
    Moves Quiet (requireAcceptable memory consolidation) :=
  Moves.bind (Moves.raiseIf _ _) fun _ => Moves.raiseIf _ _

theorem quiet_requireSnapshots (strict : Bool) (proposal : ConsolidationProposal) :
    Moves Quiet (requireSnapshots strict proposal) :=
  Moves.bind (Moves.raiseIf _ _) fun _ => Moves.raiseIf _ _

/-- A review writes no memory, whatever it comes to. -/
theorem quiet_reviewedInputs (memory : MemoryRow) (consolidation : Dict Json) (reason : String) :
    Moves Quiet (reviewedInputs env identity memory consolidation reason) :=
  Moves.bind (quiet_requireAcceptable _ _) fun _ => Moves.bind (quiet_normalizedText _ _) fun _ =>
    Moves.bind (Moves.raising _) fun _ => Moves.bind (quiet_requireSnapshots _ _) fun _ =>
      Moves.bind (quiet_lockMembers _ _ _) fun _ => Moves.bind (Moves.raiseIf _ _) fun _ =>
        Moves.pure _

/-- The members of a strict candidate share its scope. -/
theorem singleScope_of_check {memory : MemoryRow} {proposal : ConsolidationProposal}
    (hcheck : ¬ (proposal.dependencyIds ≠ [] ∧
      ((fromkeys ((lockedRows s proposal.dependencyIds).map fun m => scopeKey m.2)).length ≠ 1 ∨
        scopeKey memory ∉ (lockedRows s proposal.dependencyIds).map fun m => scopeKey m.2)))
    {id : String} (hid : id ∈ proposal.dependencyIds) {member : MemoryRow}
    (hmember : s.getMemory id = some member) : scopeKey member = scopeKey memory := by
  have hne : proposal.dependencyIds ≠ [] := List.ne_nil_of_mem hid
  have hboth := not_and.mp hcheck hne
  rw [not_or, not_not, not_not] at hboth
  obtain ⟨hone, hcandidate⟩ := hboth
  obtain ⟨key, hkey⟩ := List.length_eq_one_iff.mp hone
  -- one scope is left of all, the one of the candidate
  have honly : ∀ k ∈ (lockedRows s proposal.dependencyIds).map (fun m => scopeKey m.2),
      k = key := by
    intro k hk
    have hmem := mem_fromkeys.mpr hk
    rw [hkey, List.mem_singleton] at hmem
    exact hmem
  have hrow := List.mem_map_of_mem (f := fun m : String × MemoryRow => scopeKey m.2)
    (mem_lockedRows.mpr ⟨hid, hmember⟩)
  rw [honly _ hrow, honly _ hcandidate]

/-- **What a review establishes** about the store it started from. -/
theorem reviewedInputs_ok {memory : MemoryRow} {consolidation : Dict Json} {reason : String}
    {inputs : String × ConsolidationProposal × List (String × MemoryRow)}
    (h : (reviewedInputs env identity memory consolidation reason).run s = .ok inputs t) :
    Reviewed env s memory consolidation inputs.2.1 inputs.2.2 := by
  simp only [reviewedInputs, requireAcceptable, requireSnapshots, requireSingleScope, run_bind_ok,
    run_raiseIf_ok, run_raising_ok, run_pure_ok] at h
  obtain ⟨_, _, ⟨_, _, ⟨-, rfl⟩, hacceptable, rfl⟩, reasonText, s₁, hreason, proposal, _,
    ⟨hread, rfl⟩, _, _, ⟨_, _, ⟨-, rfl⟩, hcomplete, rfl⟩, members, s₂, hlock, _, _,
    ⟨hscope, rfl⟩, rfl, rfl⟩ := h
  have hquiet := (quiet_normalizedText reason "reason").ok hreason
  obtain ⟨hmembers, hcurrent⟩ := lockMembers_ok hlock
  -- the rows locked are those of the store the review began with
  have hrows : members = lockedRows s proposal.dependencyIds := by
    rw [hmembers]
    simp only [lockedRows, hquiet.getMemory]
  refine ⟨not_not.mp hacceptable, hread, hrows, fun hstrict => ?_⟩
  refine ⟨Bool.eq_true_of_not_eq_false fun hfalse => hcomplete ⟨hstrict, hfalse⟩, ?_, ?_⟩
  · intro id hid
    exact hquiet.current.mp (hcurrent hstrict id hid)
  · intro id hid member hmember
    refine singleScope_of_check ?_ hid hmember
    rw [← hrows]
    exact fun hcross => hscope ⟨hstrict, hcross⟩

end AliceBot
