import AliceBot.Library.PointerGraph

/-!
# The memory lifecycle

`vnext_lifecycle`: the statuses of a memory row, the transition table every
lifecycle mutation is routed through (`resolveTransition`), and the bounded
walk that keeps supersession pointers from closing a cycle
(`supersessionWouldCycle`).

Every operation of the table is legal from live statuses only
(`resolveTransition_live`), which is what makes retirement terminal.
-/

namespace AliceBot

/-! ### Statuses -/

/-- `MEMORY_STATUSES`. The statuses of a memory; a retired one is never left again. -/
inductive MemoryStatus where
  | candidate
  | active
  | accepted
  | rejected
  | superseded
  | archived
  | needsReview
  | privateOnly
  | stale
deriving DecidableEq, Repr

namespace MemoryStatus

def text : MemoryStatus → String
  | candidate => "candidate"
  | active => "active"
  | accepted => "accepted"
  | rejected => "rejected"
  | superseded => "superseded"
  | archived => "archived"
  | needsReview => "needs_review"
  | privateOnly => "private_only"
  | stale => "stale"

theorem text_inj {s t : MemoryStatus} (h : s.text = t.text) : s = t := by
  revert h
  cases s <;> cases t <;> decide

end MemoryStatus

/-- `RETIRED_STATUSES`. -/
def retiredStatuses : List MemoryStatus := [.superseded, .rejected, .archived]

/-- `LIVE_STATUSES`. -/
def liveStatuses : List MemoryStatus :=
  [.candidate, .active, .accepted, .needsReview, .privateOnly, .stale]

/-- `SUPERSESSION_SUCCESSOR_STATUSES`. -/
def supersessionSuccessorStatuses : List MemoryStatus := [.active, .accepted, .privateOnly]

/-- The row left the lifecycle for good. -/
def IsRetired (status : MemoryStatus) : Prop := status ∈ retiredStatuses

instance : DecidablePred IsRetired := fun status =>
  inferInstanceAs (Decidable (status ∈ retiredStatuses))

/-- The two partitions make up the vocabulary. -/
theorem mem_liveStatuses_iff (s : MemoryStatus) : s ∈ liveStatuses ↔ s ∉ retiredStatuses := by
  cases s <;> decide

/-! ### The transition table -/

/-- The lifecycle verbs. -/
inductive LifecycleOperation where
  | confirmAccept
  | confirmReject
  | confirmExpire
  | reviewApprove
  | reviewReject
  | reviewSupersede
  | correct
  | undo
  | forget
  | supersedeMember
  | expire
  | unexpire
deriving DecidableEq, Repr

/-- `_LifecycleOperation`: the legal moves and the message of a refusal. -/
structure LifecycleRule where
  transitions : List (MemoryStatus × MemoryStatus)
  rejectMessage : String → String

/-- `_to`. -/
def toTarget (target : MemoryStatus) (sources : List MemoryStatus) :
    List (MemoryStatus × MemoryStatus) :=
  sources.map fun source => (source, target)

/-- `_identity`. -/
def identityOn (sources : List MemoryStatus) : List (MemoryStatus × MemoryStatus) :=
  sources.map fun source => (source, source)

/-- `_OPERATIONS`. For each operation the transitions it may make, and the message by
which it refuses any other status. -/
def LifecycleOperation.rule : LifecycleOperation → LifecycleRule
  | .confirmAccept => ⟨[(.needsReview, .active)], fun status =>
      "cannot confirm a memory in status '" ++ status
        ++ "'; its pending confirmation is no longer valid"⟩
  | .confirmReject => ⟨[(.needsReview, .rejected)], fun status =>
      "cannot reject a confirmation for a memory in status '" ++ status
        ++ "'; it is no longer pending"⟩
  | .confirmExpire => ⟨[(.needsReview, .rejected)], fun status =>
      "cannot expire a confirmation for a memory in status '" ++ status
        ++ "'; it is no longer pending"⟩
  | .reviewApprove => ⟨toTarget .active liveStatuses, fun status =>
      "memory cannot be reviewed from status '" ++ status ++ "'"⟩
  | .reviewReject => ⟨toTarget .rejected liveStatuses, fun status =>
      "memory cannot be reviewed from status '" ++ status ++ "'"⟩
  | .reviewSupersede => ⟨toTarget .superseded liveStatuses, fun status =>
      "memory cannot be reviewed from status '" ++ status ++ "'"⟩
  | .correct => ⟨toTarget .active liveStatuses, fun status =>
      "cannot correct a retired " ++ status ++ " memory; create a replacement instead"⟩
  | .undo => ⟨toTarget .superseded liveStatuses, fun status =>
      "cannot undo a " ++ status ++ " memory; it is already retired"⟩
  | .forget => ⟨toTarget .superseded liveStatuses, fun status =>
      "cannot forget a " ++ status ++ " memory; it is already retired"⟩
  | .supersedeMember => ⟨toTarget .superseded liveStatuses, fun status =>
      "cannot supersede a " ++ status ++ " memory; it is already retired"⟩
  | .expire => ⟨identityOn liveStatuses, fun status => "cannot expire a " ++ status ++ " memory"⟩
  | .unexpire =>
    -- a row swept stale becomes retrievable again
    ⟨identityOn (liveStatuses.filter (· ≠ .stale)) ++ [(.stale, .active)], fun status =>
      "cannot unexpire a " ++ status ++ " memory"⟩

/-- `LifecycleTransitionError`. -/
structure LifecycleTransitionError where
  message : String
deriving DecidableEq, Repr

/-- `resolve_transition`. The status an operation leads to, or the refusal of its rule.
-/
def resolveTransition (operation : LifecycleOperation) (current : MemoryStatus) :
    Except LifecycleTransitionError MemoryStatus :=
  match operation.rule.transitions.lookup current with
  | some target => .ok target
  | none => .error ⟨operation.rule.rejectMessage current.text⟩

/-- A transition that resolved is one of the table's. -/
theorem mem_transitions_of_resolve {operation : LifecycleOperation}
    {current target : MemoryStatus} (h : resolveTransition operation current = .ok target) :
    (current, target) ∈ operation.rule.transitions := by
  unfold resolveTransition at h
  split at h
  · next t hlookup =>
    obtain rfl := Except.ok.inj h
    obtain ⟨l₁, l₂, hl, -⟩ := List.lookup_eq_some_iff.mp hlookup
    rw [hl]
    simp
  · exact absurd h (by simp)

/-- Every operation is legal from live statuses only. -/
theorem resolveTransition_live {operation : LifecycleOperation} {current target : MemoryStatus}
    (h : resolveTransition operation current = .ok target) : current ∈ liveStatuses := by
  have hall : ∀ move ∈ operation.rule.transitions, move.1 ∈ liveStatuses := by
    cases operation <;> decide
  exact hall _ (mem_transitions_of_resolve h)

/-- Confirmations act on rows that await one. -/
theorem resolveTransition_confirm {operation : LifecycleOperation} {current target : MemoryStatus}
    (hoperation : operation = .confirmAccept ∨ operation = .confirmReject ∨
      operation = .confirmExpire)
    (h : resolveTransition operation current = .ok target) : current = .needsReview := by
  have hall : ∀ move ∈ operation.rule.transitions, move.1 = .needsReview := by
    rcases hoperation with rfl | rfl | rfl <;> decide
  exact hall _ (mem_transitions_of_resolve h)

/-- A row that may be expired keeps its status, and every live one may be. -/
theorem resolveTransition_expire (current : MemoryStatus) :
    resolveTransition .expire current = .ok current ↔ current ∈ liveStatuses := by
  constructor
  · exact resolveTransition_live
  · cases current <;> first | (intro _; rfl) | (intro h; exact absurd h (by decide))

/-- What unexpiring makes of a status is live. -/
theorem resolveTransition_unexpire {current target : MemoryStatus}
    (h : resolveTransition .unexpire current = .ok target) : target ∈ liveStatuses := by
  have hall : ∀ move ∈ LifecycleOperation.unexpire.rule.transitions, move.2 ∈ liveStatuses := by
    decide
  exact hall _ (mem_transitions_of_resolve h)

/-! ### The supersession walk -/

section Walk

variable {ρ : Type} (idOf : ρ → String) (pointer : ρ → Option String)
  (loadMemory : String → Option ρ)

/-- The loop of `supersession_would_cycle`, with the hops that are left. -/
def supersessionWalk (memoryId : String) (maxDepth : Nat) :
    Nat → List String → ρ → Except LifecycleTransitionError Bool
  | 0, _, _ => .error ⟨"supersession chain exceeds " ++ toString maxDepth
      ++ " hops; cannot verify acyclicity, rejecting the supersession to fail closed"⟩
  | hops + 1, seen, current =>
    if idOf current = memoryId then .ok true
    else if idOf current ∈ seen then
      .error ⟨"supersession chain already contains a cycle at memory " ++ idOf current
        ++ "; rejecting the supersession to fail closed"⟩
    else
      match pointer current with
      | none => .ok false
      | some nextId =>
        match loadMemory nextId with
        | none => .error ⟨"supersession chain points to missing memory " ++ nextId
            ++ "; cannot verify acyclicity, rejecting the supersession to fail closed"⟩
        | some next => supersessionWalk memoryId maxDepth hops (idOf current :: seen) next

/-- `supersession_would_cycle`. -/
def supersessionWouldCycle (memoryId : String) (successor : ρ) (maxDepth : Nat := 64) :
    Except LifecycleTransitionError Bool :=
  supersessionWalk idOf pointer loadMemory memoryId maxDepth maxDepth [] successor

variable {idOf pointer loadMemory}

/-- A walk that found no cycle never came across the row being retired. -/
theorem supersessionWalk_ne {memoryId : String} {maxDepth hops : Nat} {seen : List String}
    {current : ρ}
    (h : supersessionWalk idOf pointer loadMemory memoryId maxDepth hops seen current = .ok false) :
    idOf current ≠ memoryId := by
  cases hops with
  | zero => simp [supersessionWalk] at h
  | succ hops =>
    intro hid
    simp [supersessionWalk, hid] at h

/-- **The walk is sound.** When it finds no cycle, the row being retired is not
reached from the successor by any number of pointers. -/
theorem supersessionWalk_sound {memoryId : String} {maxDepth hops : Nat} {seen : List String}
    {current : ρ}
    (h : supersessionWalk idOf pointer loadMemory memoryId maxDepth hops seen current = .ok false)
    {row : ρ} (hreach : Relation.ReflTransGen
      (fun a b => ∃ id, pointer a = some id ∧ loadMemory id = some b) current row) :
    idOf row ≠ memoryId := by
  induction hops generalizing seen current with
  | zero => simp [supersessionWalk] at h
  | succ hops ih =>
    rcases Relation.ReflTransGen.cases_head hreach with rfl | ⟨next, ⟨id, hid, hload⟩, hrest⟩
    · exact supersessionWalk_ne h
    · have hne := supersessionWalk_ne h
      rw [supersessionWalk, if_neg hne] at h
      split at h
      · exact absurd h (by simp)
      · rw [hid] at h
        simp only [hload] at h
        exact ih h hrest

end Walk

end AliceBot
