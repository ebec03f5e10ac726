import AliceBot.MemoryLifecycle

/-!
# Accepting a consolidation candidate

`VNextMemoryCommitService.accept_consolidation_candidate`, with the version
evidence of `vnext_memory_version`. An acceptance has two halves.

* `reviewedInputs` reads the proposal, locks every row it depends on and
  compares each with the snapshot that was reviewed. It writes no memory.
* `applyAcceptance` supersedes the proposed members one by one, then promotes
  the candidate.

Candidates of a derived kind are strict: without a complete set of matching
snapshots and a single project scope the first half raises. Older candidates
without a kind pass it with whatever rows are there.
-/

namespace AliceBot

open PyLib

variable (env : Env)

/-! ### Version evidence -/

/-- `memory_version_snapshot`. -/
def memoryVersionSnapshot (memory : MemoryRow) : List (String × String) :=
  [("id", memory.id), ("status", memory.status.text),
    ("updated_at", stampText true memory.updatedAt),
    ("content_digest",
      env.contentDigest memory.title memory.canonicalText memory.summary memory.value)]

/-- `memory_matches_snapshot`. -/
def memoryMatchesSnapshot (memory : MemoryRow) (snapshot : Dict Json) : Bool :=
  (memoryVersionSnapshot env memory).all fun item => snapshot.getStr? item.1 == some item.2

/-! ### The proposal -/

/-- What an acceptance reads from the candidate's metadata. -/
structure ConsolidationProposal where
  kind : String
  survivorId : Option String
  memberIds : List String
  proposed : List String
  snapshots : Dict (Dict Json)
  /-- `len(snapshot_rows)`, where they are a list. -/
  snapshotCount : Option Nat

/-- `list(dict.fromkeys([*member_ids, *proposed]))`. -/
def ConsolidationProposal.dependencyIds (proposal : ConsolidationProposal) : List String :=
  fromkeys (proposal.memberIds ++ proposal.proposed)

/-- `for value in (x or [])`. -/
def iterOrEmpty (value : Json) : Except ServiceError (List Json) :=
  if !value.truthy then .ok []
  else
    match value with
    | .arr items => .ok items
    | .str s => .ok (s.toList.map fun c => .str (String.ofList [c]))
    | .obj fields => .ok (fields.map fun item => .str item.1)
    | _ => .error (.python "TypeError")

/-- `[str(value) for value in (x or []) if value]`. -/
def idList (value : Json) : Except ServiceError (List String) :=
  (iterOrEmpty value).map fun items => (items.filter Json.truthy).map env.str

/-- The snapshots by id. A later one replaces an earlier one. -/
def snapshotIndex (snapshotRows : List Json) : Dict (Dict Json) :=
  snapshotRows.foldl (fun index row =>
    match row.asObj? with
    | none => index
    | some snapshot =>
      match snapshot.item "id" with
      | .null => index
      | id => index.set (env.str id) snapshot) []

/-- Read the proposal of the candidate. -/
def readProposal (acceptedId : String) (consolidation : Dict Json) :
    Except ServiceError ConsolidationProposal := do
  let kind := env.str (orDefault (consolidation.item "proposal_kind") "dedup")
  let survivor := consolidation.item "survivor_memory_id"
  let memberIds ← idList env (consolidation.item "cluster_member_ids")
  let listed ← idList env (consolidation.item "proposed_supersede")
  let snapshotRows := (consolidation.item "member_snapshots").asArr?
  pure
    { kind := kind
      survivorId := if survivor.truthy then some (env.str survivor) else none
      memberIds := memberIds
      -- a dedup proposal supersedes every member, whatever it lists
      proposed := (fromkeys (if kind = "dedup" then memberIds else listed)).filter (· ≠ acceptedId)
      snapshots := snapshotIndex env (snapshotRows.getD [])
      snapshotCount := snapshotRows.map List.length }

/-! ### The review -/

/-- The status checks in front of a first acceptance. -/
def requireAcceptable (memory : MemoryRow) (consolidation : Dict Json) : Service Unit := do
  raiseIf (memory.status = .stale ∧ (consolidation.item "invalidated").asObj?.isSome = true)
    (.validation "consolidation candidate is stale; regenerate it before acceptance")
  raiseIf (memory.status ∉ [MemoryStatus.candidate, .needsReview])
    (.validation "consolidation candidate must be in candidate or needs_review status")

/-- The snapshots cover the dependencies, one each. -/
def snapshotsComplete (proposal : ConsolidationProposal) : Bool :=
  !proposal.memberIds.isEmpty
    && proposal.snapshotCount == some proposal.dependencyIds.length
    && (proposal.snapshots.map (·.1)).all (fun id => decide (id ∈ proposal.dependencyIds))
    && proposal.dependencyIds.all fun id => decide (id ∈ proposal.snapshots.map (·.1))

/-- The refusals of a strict candidate without complete snapshots. -/
def requireSnapshots (strict : Bool) (proposal : ConsolidationProposal) : Service Unit := do
  raiseIf (strict = true ∧ proposal.snapshots = [])
    (.validation ("consolidation candidate lacks member version snapshots; "
      ++ "regenerate it before acceptance"))
  raiseIf (strict = true ∧ snapshotsComplete proposal = false)
    (.validation ("consolidation candidate has incomplete member version snapshots; "
      ++ "regenerate it before acceptance"))

/-- Lock one dependency and compare it with its snapshot. -/
def lockMember (identity : Option AgentIdentity) (strict : Bool)
    (proposal : ConsolidationProposal) (memberId : String) :
    Service (Option (String × MemoryRow)) := do
  let s ← get
  match s.getMemory memberId with
  | none =>
    raiseIf (strict = true) (.validation
      ("consolidation candidate is stale: member " ++ memberId ++ " is missing"))
    pure none
  | some member =>
    -- only the members to be superseded are written, so only they need the right to
    if memberId ∈ proposal.proposed then
      let _ ← policyCheckedWrite env identity "memory.accept_consolidation" member
    raiseIf (strict = true ∧
        ((proposal.snapshots.get? memberId).any (memoryMatchesSnapshot env member)) = false)
      (.validation ("consolidation candidate is stale: member " ++ memberId
        ++ " changed; regenerate it"))
    pure (some (memberId, member))

/-- The loop over the dependencies. -/
def lockMembers (identity : Option AgentIdentity) (strict : Bool)
    (proposal : ConsolidationProposal) : List String → Service (List (String × MemoryRow))
  | [] => pure []
  | memberId :: rest => do
    let member ← lockMember env identity strict proposal memberId
    let members ← lockMembers identity strict proposal rest
    pure (member.toList ++ members)

/-- `project_scope_identity(resource_project_scope(row))`. -/
def scopeKey (memory : MemoryRow) : List String := projectScopeIdentity (.strs memory.projectScope)

/-- All members of a strict candidate share its project scope. -/
def requireSingleScope (strict : Bool) (memory : MemoryRow) (proposal : ConsolidationProposal)
    (members : List (String × MemoryRow)) : Service Unit :=
  raiseIf (strict = true ∧ proposal.dependencyIds ≠ [] ∧
      ((fromkeys (members.map fun m => scopeKey m.2)).length ≠ 1 ∨
        scopeKey memory ∉ members.map fun m => scopeKey m.2))
    (.validation "consolidation candidate crosses project scopes; regenerate it before acceptance")

/-- Everything an acceptance checks before it writes a memory. -/
def reviewedInputs (identity : Option AgentIdentity) (memory : MemoryRow)
    (consolidation : Dict Json) (reason : String) :
    Service (String × ConsolidationProposal × List (String × MemoryRow)) := do
  requireAcceptable memory consolidation
  let reasonText ← normalizedText reason "reason"
  let proposal ← raising (readProposal env memory.id consolidation)
  requireSnapshots (hasDerivedKind memory) proposal
  let members ← lockMembers env identity (hasDerivedKind memory) proposal proposal.dependencyIds
  requireSingleScope (hasDerivedKind memory) memory proposal members
  pure (reasonText, proposal, members)

/-! ### The merge -/

/-- The outcome of the loop over the proposed members. -/
structure SupersededMembers where
  superseded : List String := []
  skipped : List (String × String) := []

/-- The member is superseded already, by status or by pointer. -/
def alreadySuperseded (member : MemoryRow) : Bool :=
  member.status == .superseded || (supersessionPointer member).isSome

/-- The transition of a member of the accepted candidate. -/
def supersedeMemberTransition (acceptedId : String) : Transition where
  operation := .supersedeMember
  lifecycleStatus := "superseded_by_consolidation"
  eventType := "agent.memory_superseded"
  revisionType := "superseded"
  action := "agentic_memory_consolidation_supersede"
  setSuccessorPointer := false
  excludeDerivedCandidateId := some acceptedId
  allowPendingConsolidationSuccessor := true

/-- The loop over the proposed members. -/
def supersedeMembers (identity : Option AgentIdentity) (memory : MemoryRow)
    (members : Dict MemoryRow) : List String → Service SupersededMembers
  | [] => pure {}
  | memberId :: rest =>
    match members.get? memberId with
    | none => do
      let outcome ← supersedeMembers identity memory members rest
      pure { outcome with skipped := (memberId, "missing") :: outcome.skipped }
    | some member =>
      -- a member that was superseded elsewhere keeps its successor
      if alreadySuperseded member then do
        let outcome ← supersedeMembers identity memory members rest
        pure { outcome with skipped := (memberId, "already_superseded") :: outcome.skipped }
      else do
        let _ ← transitionMemory env identity member (supersedeMemberTransition memory.id)
          ("Superseded by accepted consolidation candidate " ++ memory.id ++ ".") (some memory)
        let outcome ← supersedeMembers identity memory members rest
        pure { outcome with superseded := memberId :: outcome.superseded }

/-- The `accepted` record. -/
def acceptedRecord (identity : Option AgentIdentity) (reason : String)
    (outcome : SupersededMembers) (now : UtcMoment) : Dict Json :=
  [("accepted_at", isoJson now), ("actor_type", .str (actorOf identity).type),
    ("accepted_by", .optStr (actorOf identity).id), ("reason", .str reason),
    ("superseded_member_ids", .strs outcome.superseded),
    ("skipped_members", .arr (outcome.skipped.map fun m =>
      .obj [("member_id", .str m.1), ("state", .str m.2)]))]

/-- The `supersedes` pointer of the accepted row: the survivor of a dedup
proposal. A merge has no single predecessor. -/
def acceptedSupersedes (acceptedId : String) (proposal : ConsolidationProposal) : Option String :=
  if proposal.kind = "dedup" then proposal.survivorId.filter (· ≠ acceptedId) else none

/-- The patch that promotes the candidate. -/
def acceptancePatch (memory : MemoryRow) (consolidation : Dict Json)
    (proposal : ConsolidationProposal) (accepted : Dict Json) (now : UtcMoment) : MemoryPatch :=
  let metadata := (memory.metadataJson.set "consolidation"
    (.obj (consolidation.set "accepted" (.obj accepted)))).set "review_required" (.bool false)
  { status := some .active
    confirmationStatus := some "confirmed"
    lastConfirmedAt := some now
    lastReviewedAt := some now
    metadataJson := some <|
      match acceptedSupersedes memory.id proposal with
      | some survivorId => metadata.set "supersedes" (.str survivorId)
      | none => metadata.set "merged_from" (.strs proposal.memberIds)
    supersedes := acceptedSupersedes memory.id proposal }

/-- The answer of an acceptance. -/
structure AcceptanceAnswer where
  memory : MemoryRow
  proposalKind : Json
  supersededMemberIds : List Json
  skippedMembers : List Json
  supersedes : Json
  idempotentReplay : Bool

/-- Supersede the members, then promote the candidate. -/
def applyAcceptance (identity : Option AgentIdentity) (memory : MemoryRow)
    (consolidation : Dict Json) (reasonText : String) (proposal : ConsolidationProposal)
    (members : List (String × MemoryRow)) : Service AcceptanceAnswer := do
  let outcome ← supersedeMembers env identity memory members proposal.proposed
  let now ← utcNow env
  -- the candidate is promoted after its members have been superseded
  let updated ← updateMemory env memory.id
    (acceptancePatch memory consolidation proposal (acceptedRecord identity reasonText outcome now)
      now) (actorOf identity)
  refreshMemoryDerivedState env updated identity "consolidation_accepted" true
  reviseMemory memory updated "promoted" "agentic_memory_consolidation_accept"
    updated.canonicalText reasonText (actorOf identity)
  appendMemoryEvent env "agent.memory_consolidation_accepted" (actorOf identity) memory.id
  pure
    { memory := updated
      proposalKind := .str proposal.kind
      supersededMemberIds := outcome.superseded.map .str
      skippedMembers := outcome.skipped.map fun m =>
        .obj [("member_id", .str m.1), ("state", .str m.2)]
      supersedes := .optStr (acceptedSupersedes memory.id proposal)
      idempotentReplay := false }

/-- The answer to a second acceptance. -/
def replayAcceptance (memory : MemoryRow) (consolidation accepted : Dict Json) :
    Service AcceptanceAnswer := do
  let superseded ← raising (iterOrEmpty (accepted.item "superseded_member_ids"))
  let skipped ← raising (iterOrEmpty (accepted.item "skipped_members"))
  pure
    { memory := memory
      proposalKind := consolidation.item "proposal_kind"
      supersededMemberIds := superseded
      skippedMembers := skipped
      -- the column first, then the metadata
      supersedes :=
        match memory.supersedes.filter (· ≠ "") with
        | some id => .str id
        | none => memory.metadataJson.item "supersedes"
      idempotentReplay := true }

/-- `accept_consolidation_candidate`. An accepted candidate answers again what it
answered before; one that waits is checked against its members before anything is
written. -/
def acceptConsolidationCandidate (identity : Option AgentIdentity) (memoryId reason : String) :
    Service AcceptanceAnswer := do
  let memory ← lockedMemory memoryId
  let _ ← policyCheckedWrite env identity "memory.accept_consolidation" memory
  let consolidation ← orRaise (consolidationOf? memory)
    (.validation "memory is not a consolidation candidate")
  match acceptedRecord? consolidation with
  | some accepted => replayAcceptance memory consolidation accepted
  | none =>
    let inputs ← reviewedInputs env identity memory consolidation reason
    applyAcceptance env identity memory consolidation inputs.1 inputs.2.1 inputs.2.2

end AliceBot
