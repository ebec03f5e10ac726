import AliceBot.Consolidation

/-!
# The memory-commit service

The calls of `VNextMemoryCommitService` as a transition system on stores. Every
call runs in a transaction of its own: one that raises leaves the store it
found.
-/

namespace AliceBot

open PyLib

/-- The calls of the service that write memories, with their arguments. -/
inductive ServiceCall where
  | commit (request : MemoryCommitRequest)
  | confirm (confirmationId action : String) (canonicalText rationale : Option String)
  | correct (memoryId canonicalText : String) (reason : Option String)
  | undo (memoryId reason supersededByMemoryId : Option String)
  | forget (memoryId : String) (reason : Option String)
  | expire (memoryId : String) (validTo : TimestampValue) (reason : String)
  | unexpire (memoryId reason : String)
  | acceptConsolidation (memoryId reason : String)

/-- A call, who makes it and the environment it runs in. -/
structure Invocation where
  env : Env
  identity : Option AgentIdentity
  call : ServiceCall

/-- What the call does, its answer dropped. -/
def Invocation.perform (i : Invocation) : Service Unit :=
  match i.call with
  | .commit request => do
    let _ ← commit i.env i.identity request
  | .confirm confirmationId action canonicalText rationale => do
    let _ ← confirm i.env i.identity confirmationId action canonicalText rationale
  | .correct memoryId canonicalText reason => do
    let _ ← correct i.env i.identity memoryId canonicalText reason
  | .undo memoryId reason supersededByMemoryId => do
    let _ ← undo i.env i.identity memoryId reason supersededByMemoryId
  | .forget memoryId reason => do
    let _ ← forget i.env i.identity memoryId reason
  | .expire memoryId validTo reason => do
    let _ ← expire i.env i.identity memoryId validTo reason
  | .unexpire memoryId reason => do
    let _ ← unexpire i.env i.identity memoryId reason
  | .acceptConsolidation memoryId reason => do
    let _ ← acceptConsolidationCandidate i.env i.identity memoryId reason

/-- The transaction: a call that raises leaves the store it found. -/
def Invocation.transact (i : Invocation) (s : Store) : Store :=
  match i.perform.run s with
  | .ok _ t => t
  | .error _ _ => s

/-- The calls, one after the other, from a store as described. -/
abbrev ServiceRun (init : Store → Prop) : List Invocation → Store → Prop :=
  Run (fun s i t => i.transact s = t) init

/-- A relation that a call keeps, whatever it comes to, holds across its
transaction. -/
theorem Invocation.transact_of_moves {R : Store → Store → Prop} [Std.Refl R] {s : Store}
    {i : Invocation} (hmoves : MovesAt R i.perform s) : R s (i.transact s) := by
  unfold Invocation.transact
  split
  · next hrun => exact hmoves.ok hrun
  · exact Std.Refl.refl s

/-- `P` holds of every call of the run, in the store the call meets. -/
def Throughout (P : Invocation → Store → Prop) : Store → List Invocation → Prop
  | _, [] => True
  | s, i :: calls => P i s ∧ Throughout P (i.transact s) calls

/-- What is equivalent for each call is equivalent for runs. -/
theorem throughout_congr {P Q : Invocation → Store → Prop} (h : ∀ i s, P i s ↔ Q i s) (s : Store)
    (calls : List Invocation) : Throughout P s calls ↔ Throughout Q s calls := by
  induction calls generalizing s with
  | nil => rfl
  | cons i calls ih => exact and_congr (h i s) (ih (i.transact s))

/-! ### A small store -/

/-- A clock that stands still, texts that match no pattern. -/
def Env.plain : Env where
  rx := .plain
  clock := ⟨fun _ => noon, fun _ => le_refl _⟩
  uuid n := String.ofList (List.replicate n 'i')
  fromisoformat _ := none
  uuidText text := if text.length = 36 then some text else none
  hasSource _ := false
  repr _ := ""
  requestFingerprint request := request.canonicalText
  contentDigest _ text _ _ := text

/-- A row with the columns a lifecycle call does not look at left at their
defaults. -/
def MemoryRow.plain (id : String) (status : MemoryStatus) (metadata : Dict Json) : MemoryRow where
  id := id
  memoryKey := id
  value := .null
  status := status
  memoryType := "semantic"
  confidence := none
  confirmationStatus := "confirmed"
  promotionEligibility := "promotable"
  validFrom := none
  validTo := none
  lastConfirmedAt := none
  title := none
  canonicalText := "text of " ++ id
  summary := none
  domain := "project"
  sensitivity := "internal"
  lastReviewedAt := none
  metadataJson := metadata
  commitDigest := none
  confirmationId := none
  projectId := none
  createdByAgentId := none
  runId := none
  supersededBy := none
  supersedes := none
  createdAt := noon
  updatedAt := noon
  deletedAt := none

end AliceBot
