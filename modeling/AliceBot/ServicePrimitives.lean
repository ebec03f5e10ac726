import AliceBot.ConsolidationReview
import AliceBot.ServiceCalls

/-!
# What every call is written with

The calls of the memory-commit service write memories through three operations
of the store: `create_memory`, `update_memory`, and the rewriting of the
metadata of a row that carries its embedding signature. Between them they only
log and read.

So a property of the store that these operations keep is kept by every call,
whatever it comes to. `Primitives env R` collects what there is to show of a
relation `R`, and `Primitives.perform` is the rule.
-/

namespace AliceBot

open PyLib

/-- `R` holds across the operations that a call in this environment is written
with. -/
structure Primitives (env : Env) (R : Store → Store → Prop) : Prop where
  quiet : ∀ {s t}, Quiet s t → R s t
  create : ∀ memory actor, Moves R (createMemory env memory actor)
  update : ∀ memoryId patch actor, Moves R (updateMemory env memoryId patch actor)
  metadata : ∀ memoryId f, Moves R (rewriteMetadata memoryId f)

namespace Primitives

variable {env : Env} {R : Store → Store → Prop} [Std.Refl R] [IsTrans Store R]
variable {identity : Option AgentIdentity} (h : Primitives env R)

include h

omit [Std.Refl R] [IsTrans Store R] in
theorem of_quiet {α : Type} {m : Service α} (hm : Moves Quiet m) : Moves R m :=
  hm.mono fun _ _ => h.quiet

/-! ### The routines -/

omit [IsTrans Store R] in
theorem attachMemoryEmbedding (memory : MemoryRow) :
    Moves R (attachMemoryEmbedding env memory) := by
  unfold AliceBot.attachMemoryEmbedding
  split
  · exact Moves.pure _
  · exact h.metadata _ _

theorem refreshMemoryDerivedState (memory : MemoryRow) (stage : String)
    (replaceEntityLinks : Bool) :
    Moves R (refreshMemoryDerivedState env memory identity stage replaceEntityLinks) := by
  have hevents : ∀ events, Moves R
      (appendDerivedEvents env events (actorOf identity) memory.id) := fun _ =>
    h.of_quiet (quiet_appendDerivedEvents env _ _ _)
  refine Moves.bind (h.metadata _ _) fun _ => Moves.bind (h.attachMemoryEmbedding _) fun _ => ?_
  refine Moves.ite (fun _ => ?_) fun _ => hevents _
  exact Moves.bind (Moves.raising _) fun _ => Moves.bind (hevents _) fun _ => hevents _

omit [Std.Refl R] [IsTrans Store R] in
/-- The log entries that follow an update. -/
theorem logged {α : Type} (memory updated : MemoryRow)
    (revisionType action textAfter reason eventType memoryId : String) (answer : α) :
    Moves R (do
      reviseMemory memory updated revisionType action textAfter reason (actorOf identity)
      appendMemoryEvent env eventType (actorOf identity) memoryId
      pure answer) :=
  h.of_quiet <| Moves.bind (quiet_reviseMemory _ _ _ _ _ _ _) fun _ =>
    Moves.bind (quiet_appendMemoryEvent env _ _ _) fun _ => Moves.pure _

theorem invalidatePendingDerivedCandidates (memberId reason : String)
    (excludeMemoryId : Option String) :
    Moves R (invalidatePendingDerivedCandidates env memberId identity reason excludeMemoryId) := by
  refine Moves.bind (h.of_quiet (quiet_utcNow env)) fun _ => Moves.bind Moves.get fun _ => ?_
  refine Moves.forM (fun candidate => ?_) _
  unfold invalidateCandidate
  split
  · exact Moves.pure _
  · refine Moves.ite (fun _ => Moves.pure _) fun _ => Moves.bind (h.update _ _ _) fun _ => ?_
    exact h.of_quiet (Moves.bind (quiet_reviseMemory _ _ _ _ _ _ _) fun _ =>
      quiet_appendMemoryEvent env _ _ _)

/-- A transition is two updates with what is logged around them, so it moves along any
relation that those keep. -/
theorem transitionMemory (memory : MemoryRow) (transition : Transition) (reason : String)
    (supersededBy : Option MemoryRow) :
    Moves R (transitionMemory env identity memory transition reason supersededBy) := by
  -- what comes before the update, with a successor or without one
  have hbefore {f : UtcMoment → MemoryPatch → Service MemoryRow}
      (hf : ∀ now patch, Moves R (f now patch)) : Moves R (do
        let now ← utcNow env
        AliceBot.invalidatePendingDerivedCandidates env memory.id identity
          ("source memory transitioned to " ++ transition.nextStatus.text
            ++ " after the derived candidate was proposed") transition.excludeDerivedCandidateId
        let patch ← transitionPatch env memory transition reason now supersededBy
        f now patch) :=
    Moves.bind (h.of_quiet (quiet_utcNow env)) fun now =>
      Moves.bind (h.invalidatePendingDerivedCandidates _ _ _) fun _ =>
      Moves.bind (h.of_quiet (quiet_transitionPatch _ _ _ _ _)) fun patch => hf now patch
  refine Moves.bind (h.of_quiet (quiet_requireTransition _ _)) fun _ => ?_
  cases supersededBy with
  | none => exact hbefore fun _ _ => Moves.bind (h.update _ _ _) fun _ => h.logged _ _ _ _ _ _ _ _ _
  | some successor =>
    refine Moves.bind (h.of_quiet (quiet_guardSupersessionAcyclic _ _ _)) fun _ => ?_
    refine hbefore fun _ _ => Moves.bind (h.update _ _ _) fun _ => ?_
    refine Moves.ite (fun _ => ?_) fun _ => ?_
    · exact Moves.bind (h.update _ _ _) fun _ => h.logged _ _ _ _ _ _ _ _ _
    · exact h.logged _ _ _ _ _ _ _ _ _

/-! ### Commit and confirm -/

theorem createMemoryRecord (memory : NewMemory) (request : MemoryCommitRequest) :
    Moves R (createMemoryRecord env memory identity request) := by
  refine Moves.catching (h.create _ _) fun e => ?_
  split
  · exact Moves.bind Moves.get fun _ => Moves.bind (Moves.orRaise _ _) fun _ =>
      Moves.bind (Moves.raiseIf _ _) fun _ => Moves.throw _
  · exact Moves.throw _

/-- Each of the three modes is an insert with what is logged around it, so it moves
along any relation that those keep. -/
theorem createByMode (request : MemoryCommitRequest) (decision : MemoryCommitPolicyDecision) :
    Moves R (createByMode env identity request decision) := by
  have hclock := h.of_quiet (quiet_utcNow env)
  have hid := h.of_quiet (quiet_newId env)
  have hsuffix : Moves R (memoryKeySuffix env request) := h.of_quiet (quiet_memoryKeySuffix _)
  unfold AliceBot.createByMode
  -- the three modes in their order: to confirm, to review, committed
  split
  · refine Moves.bind hclock fun _ => Moves.bind hid fun _ => Moves.bind (Moves.orRaise _ _)
      fun _ => Moves.bind hsuffix fun _ => Moves.bind (h.createMemoryRecord _ _) fun _ =>
      Moves.bind (h.attachMemoryEmbedding _) fun _ => h.of_quiet ?_
    exact Moves.bind (quiet_appendRevision _) fun _ =>
      Moves.bind (quiet_appendMemoryEvent env _ _ _) fun _ => Moves.pure _
  · refine Moves.bind hid fun _ => Moves.bind hsuffix fun _ =>
      Moves.bind (h.createMemoryRecord _ _) fun _ =>
      Moves.bind (h.attachMemoryEmbedding _) fun _ => h.of_quiet ?_
    exact Moves.bind (quiet_appendRevision _) fun _ =>
      Moves.bind (quiet_appendMemoryEvent env _ _ _) fun _ =>
      Moves.bind (quiet_appendMemoryEvent env _ _ _) fun _ => Moves.pure _
  · refine Moves.bind hclock fun _ => Moves.bind hsuffix fun _ =>
      Moves.bind (h.createMemoryRecord _ _) fun _ =>
      Moves.bind (h.attachMemoryEmbedding _) fun _ => h.of_quiet ?_
    refine Moves.bind (quiet_appendRevision _) fun _ =>
      Moves.bind (quiet_createProvenanceLinks _ _) fun _ =>
      Moves.bind (quiet_appendDerivedEvents env _ _ _) fun _ =>
      Moves.bind (quiet_appendMemoryEvent env _ _ _) fun _ => ?_
    split
    · refine Moves.bind (quiet_appendMemoryEvent env _ _ _) fun _ => ?_
      refine Moves.ite (fun _ => ?_) fun _ => ?_
      · exact Moves.bind (quiet_appendMemoryEvent env _ _ _) fun _ => Moves.pure _
      · exact Moves.pure _
    · exact Moves.pure _

theorem commit (request : MemoryCommitRequest) : Moves R (commit env identity request) := by
  refine Moves.bind Moves.get fun u => ?_
  split
  · exact h.of_quiet (quiet_idempotentReplay _ _)
  · refine Moves.bind (h.of_quiet (quiet_evaluatePolicy _)) fun decision => ?_
    refine Moves.ite (fun _ => ?_) fun _ => ?_
    · exact h.of_quiet (Moves.bind (quiet_appendEvent env _ _ _ _) fun _ => Moves.pure _)
    · refine Moves.catching (h.createByMode _ _) fun e => ?_
      split
      · exact h.of_quiet (quiet_idempotentReplay _ _)
      · exact Moves.throw _

theorem replayConfirmation (memory : MemoryRow) (confirmationId action : String) :
    Moves R (replayConfirmation env identity memory confirmationId action) := by
  refine Moves.ite (fun _ => ?_) fun _ => Moves.ite (fun _ => Moves.pure _) fun _ => Moves.throw _
  refine Moves.bind (Moves.bind (h.of_quiet (quiet_utcNow env)) fun _ => ?_) fun _ => Moves.pure _
  exact Moves.bind (h.update _ _ _) fun _ =>
    h.of_quiet (Moves.bind (quiet_reviseMemory _ _ _ _ _ _ _) fun _ => Moves.pure _)

omit [Std.Refl R] in
theorem expireConfirmation (memory : MemoryRow) (confirmationId : String) :
    Moves R (expireConfirmation env identity memory confirmationId) :=
  Moves.bind (h.of_quiet (quiet_requireTransition _ _)) fun _ =>
    Moves.bind (h.of_quiet (quiet_utcNow env)) fun _ =>
    Moves.bind (h.update _ _ _) fun _ => h.logged _ _ _ _ _ _ _ _ _

theorem decideConfirmation (memory : MemoryRow) (confirmationId action : String)
    (canonicalText rationale : Option String) :
    Moves R (decideConfirmation env identity memory confirmationId action canonicalText
      rationale) := by
  refine Moves.bind (h.of_quiet (quiet_requireTransition _ _)) fun _ =>
    Moves.bind (h.of_quiet (quiet_confirmedText _ _)) fun _ =>
    Moves.bind (h.of_quiet (quiet_utcNow env)) fun _ =>
    Moves.ite (fun _ => ?_) fun _ => ?_
  · exact Moves.bind (h.update _ _ _) fun _ => h.logged _ _ _ _ _ _ _ _ _
  · exact Moves.bind (h.update _ _ _) fun _ =>
      Moves.bind (h.refreshMemoryDerivedState _ _ _) fun _ => h.logged _ _ _ _ _ _ _ _ _

theorem confirm (confirmationId action : String) (canonicalText rationale : Option String) :
    Moves R (confirm env identity confirmationId action canonicalText rationale) := by
  refine Moves.bind (Moves.raiseIf _ _) fun _ => Moves.bind Moves.get fun _ =>
    Moves.bind (Moves.orRaise _ _) fun _ => Moves.bind (Moves.orRaise _ _) fun memory =>
    Moves.bind (h.of_quiet (quiet_policyCheckedWrite env _ _ _)) fun _ =>
    Moves.ite (fun _ => h.replayConfirmation _ _ _) fun _ => ?_
  refine Moves.bind (h.of_quiet (quiet_confirmationExpired _)) fun _ => ?_
  exact Moves.ite (fun _ => h.expireConfirmation _ _) fun _ => h.decideConfirmation _ _ _ _ _

/-! ### Lifecycle calls -/

theorem correct (memoryId canonicalText : String) (reason : Option String) :
    Moves R (correct env identity memoryId canonicalText reason) :=
  Moves.bind (h.of_quiet (quiet_lockedMemory _ _)) fun _ => Moves.bind (Moves.raiseIf _ _) fun _ =>
    Moves.bind (h.of_quiet (quiet_policyCheckedWrite env _ _ _)) fun _ =>
    Moves.bind (h.of_quiet (quiet_requireTransition _ _)) fun _ =>
    Moves.bind (Moves.raiseIf _ _) fun _ =>
    Moves.bind (h.of_quiet (quiet_normalizedText _ _)) fun _ =>
    Moves.bind (h.invalidatePendingDerivedCandidates _ _ _) fun _ =>
    Moves.bind (h.of_quiet (quiet_utcNow env)) fun _ => Moves.bind (h.update _ _ _) fun _ =>
    Moves.bind (h.refreshMemoryDerivedState _ _ _) fun _ => h.logged _ _ _ _ _ _ _ _ _

theorem undo (memoryId reason supersededByMemoryId : Option String) :
    Moves R (undo env identity memoryId reason supersededByMemoryId) :=
  Moves.bind (h.of_quiet (quiet_undoTarget _)) fun _ => Moves.bind (Moves.raiseIf _ _) fun _ =>
    Moves.bind (h.of_quiet (quiet_policyCheckedWrite env _ _ _)) fun _ =>
    Moves.bind (h.of_quiet (quiet_undoSuccessor _ _)) fun _ =>
    Moves.bind (h.transitionMemory _ _ _ _) fun _ => Moves.pure _

theorem forget (memoryId : String) (reason : Option String) :
    Moves R (forget env identity memoryId reason) :=
  Moves.bind (h.of_quiet (quiet_lockedMemory _ _)) fun _ => Moves.bind (Moves.raiseIf _ _) fun _ =>
    Moves.bind (h.of_quiet (quiet_policyCheckedWrite env _ _ _)) fun _ =>
    Moves.bind (h.transitionMemory _ _ _ _) fun _ => Moves.pure _

omit [Std.Refl R] in
theorem expire (memoryId : String) (validTo : TimestampValue) (reason : String) :
    Moves R (expire env identity memoryId validTo reason) :=
  Moves.bind (h.of_quiet (quiet_lockedMemory _ _)) fun _ =>
    Moves.bind (h.of_quiet (quiet_policyCheckedWrite env _ _ _)) fun _ =>
    Moves.bind (h.of_quiet (quiet_requireTransition _ _)) fun _ =>
    Moves.bind (h.of_quiet (quiet_normalizedText _ _)) fun _ =>
    Moves.bind (h.of_quiet (quiet_validToIso _)) fun _ =>
    Moves.bind (h.of_quiet (quiet_utcNow env)) fun _ => Moves.bind (h.update _ _ _) fun _ =>
    h.logged _ _ _ _ _ _ _ _ _

theorem unexpire (memoryId reason : String) :
    Moves R (unexpire env identity memoryId reason) := by
  refine Moves.bind (h.of_quiet (quiet_lockedMemory _ _)) fun _ =>
    Moves.bind (h.of_quiet (quiet_policyCheckedWrite env _ _ _)) fun _ =>
    Moves.bind (h.of_quiet (quiet_requireTransition _ _)) fun _ =>
    Moves.bind (h.of_quiet (quiet_normalizedText _ _)) fun _ =>
    Moves.ite (fun _ => ?_) fun _ => Moves.pure _
  refine Moves.bind ?_ fun _ => h.logged _ _ _ _ _ _ _ _ _
  refine Moves.bind (h.of_quiet (quiet_utcNow env)) fun _ => Moves.bind (h.update _ _ _) fun _ => ?_
  exact Moves.ite (fun _ => h.update _ _ _) fun _ => Moves.pure _

/-! ### Acceptance -/

/-- The loop over the proposed members. -/
theorem supersedeMembers (memory : MemoryRow) (members : Dict MemoryRow) (ids : List String) :
    Moves R (supersedeMembers env identity memory members ids) := by
  induction ids with
  | nil => exact Moves.pure _
  | cons memberId rest ih =>
    unfold AliceBot.supersedeMembers
    split
    · exact Moves.bind ih fun _ => Moves.pure _
    · refine Moves.ite (fun _ => Moves.bind ih fun _ => Moves.pure _) fun _ => ?_
      exact Moves.bind (h.transitionMemory _ _ _ _) fun _ => Moves.bind ih fun _ => Moves.pure _

theorem acceptConsolidationCandidate (memoryId reason : String) :
    Moves R (acceptConsolidationCandidate env identity memoryId reason) := by
  refine Moves.bind (h.of_quiet (quiet_lockedMemory _ _)) fun _ =>
    Moves.bind (h.of_quiet (quiet_policyCheckedWrite env _ _ _)) fun _ =>
    Moves.bind (Moves.orRaise _ _) fun _ => ?_
  split
  · exact h.of_quiet (quiet_replayAcceptance _ _ _)
  · exact Moves.bind (h.of_quiet (quiet_reviewedInputs _ _ _)) fun _ =>
      Moves.bind (h.supersedeMembers _ _ _) fun _ =>
      Moves.bind (h.of_quiet (quiet_utcNow env)) fun _ => Moves.bind (h.update _ _ _) fun _ =>
      Moves.bind (h.refreshMemoryDerivedState _ _ _) fun _ => h.logged _ _ _ _ _ _ _ _ _

/-! ### The rule -/

omit h in
/-- **What the operations keep, every call keeps.** -/
theorem perform {i : Invocation} (h : Primitives i.env R) : Moves R i.perform := by
  obtain ⟨env, identity, call⟩ := i
  cases call with
  | commit request => exact Moves.bind (h.commit _) fun _ => Moves.pure _
  | confirm confirmationId action canonicalText rationale =>
    exact Moves.bind (h.confirm _ _ _ _) fun _ => Moves.pure _
  | correct memoryId canonicalText reason =>
    exact Moves.bind (h.correct _ _ _) fun _ => Moves.pure _
  | undo memoryId reason supersededByMemoryId =>
    exact Moves.bind (h.undo _ _ _) fun _ => Moves.pure _
  | forget memoryId reason => exact Moves.bind (h.forget _ _) fun _ => Moves.pure _
  | expire memoryId validTo reason => exact Moves.bind (h.expire _ _ _) fun _ => Moves.pure _
  | unexpire memoryId reason => exact Moves.bind (h.unexpire _ _) fun _ => Moves.pure _
  | acceptConsolidation memoryId reason =>
    exact Moves.bind (h.acceptConsolidationCandidate _ _) fun _ => Moves.pure _

end Primitives

end AliceBot
