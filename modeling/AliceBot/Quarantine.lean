import AliceBot.ServiceCalls
import AliceBot.StoreLaws

/-!
# The quarantine sweep

`VNextMemoryCommitService.quarantine_by_agent_key` expires everything one agent
key auto-promoted in a window. The rows are found in the event log: a
promotion logs `memory.auto_promoted` with the agent as its actor, and nothing
else does. They are expired one by one, and what is no longer there, already
closed or retired is reported as skipped.

`sweepsExactly_iff` says when the sweeps of a history do what they are for.
A sweep closes every row the agent promoted in the window, except one whose
validity window has an end already: such a row is skipped whatever the end is,
and the agent can write an end in the far future itself, with `expire`. And it
closes no other row, except one promoted so shortly outside the window that
`julianday` does not tell the promotion from a bound.
-/

namespace AliceBot

open PyLib

variable (env : Env)

/-! ### The rows an agent promoted -/

/-- `AUTO_PROMOTED_EVENT`. -/
def autoPromotedEvent : String := "memory.auto_promoted"

/-- The arguments of `quarantine_by_agent_key` beside the identity. -/
structure QuarantineRequest where
  agentId : String
  reason : String
  since : Option UtcMoment := none
  till : Option UtcMoment := none
  dryRun : Bool := false

/-- The id of the row an event of the sweep is about. -/
def promotedTarget (agentId : String) (event : LoggedEvent) : Option String :=
  if event.eventType = autoPromotedEvent ∧ event.actorId.getD "" = agentId then
    event.targetId.filter (· ≠ "")
  else none

/-- `auto_promoted_by_agent`, the ids alone. -/
def autoPromotedByAgent (agentId : String) (since till : Option UtcMoment) :
    Service (List String) := do
  let normalizedAgent := collapse agentId
  raiseIf (normalizedAgent = "") (.validation "agent_id is required")
  let s ← get
  pure (fromkeys
    ((s.listEvents env "memory" since till).filterMap (promotedTarget normalizedAgent)))

/-! ### The sweep -/

/-- What became of one candidate. -/
inductive SweepOutcome where
  | expired (memoryId status : String)
  | skipped (memoryId reason : String)

/-- The body of the loop of `quarantine_by_agent_key`. -/
def sweepCandidate (identity : Option AgentIdentity) (dryRun : Bool) (reason : String)
    (memoryId : String) : Service SweepOutcome := do
  let s ← get
  match s.getMemory memoryId with
  | none => pure (.skipped memoryId "memory_not_found")
  | some memory =>
    -- any end is taken for an expiry, also one in the future
    if isUnboundedValidTo memory.validTo = false ∧ memory.validTo.isSome then
      pure (.skipped memoryId "already_expired")
    else if dryRun then pure (.expired memoryId "would_expire")
    else
      -- a memory that may not be expired is skipped, and the sweep goes on
      catching
        (do
          let _ ← expire env identity memoryId .absent reason
          pure (.expired memoryId "expired"))
        fun
          | .validation message => pure (.skipped memoryId message)
          | e => throw e

/-- The loop, with its outcomes in order. -/
def sweepCandidates (identity : Option AgentIdentity) (dryRun : Bool) (reason : String) :
    List String → Service (List SweepOutcome)
  | [] => pure []
  | memoryId :: rest => do
    let outcome ← sweepCandidate env identity dryRun reason memoryId
    let outcomes ← sweepCandidates identity dryRun reason rest
    pure (outcome :: outcomes)

/-- The envelope of a sweep. -/
structure QuarantineEnvelope where
  sweepId : String
  agentId : String
  since : Option UtcMoment
  till : Option UtcMoment
  dryRun : Bool
  candidateCount : Nat
  expired : List (String × String)
  skipped : List (String × String)
  reversibleVia : String := "memory.unexpire"
  policyDecision : PolicyDecision

/-- The rows expired, with their statuses. -/
def expiredOutcomes (outcomes : List SweepOutcome) : List (String × String) :=
  outcomes.filterMap fun
    | .expired memoryId status => some (memoryId, status)
    | .skipped .. => none

/-- The rows skipped, with the reasons. -/
def skippedOutcomes (outcomes : List SweepOutcome) : List (String × String) :=
  outcomes.filterMap fun
    | .expired .. => none
    | .skipped memoryId reason => some (memoryId, reason)

/-- `replace(decision, decision="blocked", …)` for an agent that sweeps another
agent's writes. -/
def limitedToOwnAgentId (decision : PolicyDecision) : PolicyDecision :=
  { decision with
    decision := .blocked
    reasons := fromkeys (decision.reasons ++ ["quarantine_limited_to_own_agent_id"]) }

/-- `quarantine_by_agent_key`. The memories that a promotion let through for one agent,
in a window of time, are expired one by one; what cannot be expired is reported as
skipped. -/
def quarantineByAgentKey (identity : Option AgentIdentity) (request : QuarantineRequest) :
    Service QuarantineEnvelope := do
  let traceId ← newId env
  let decision := evaluateAgentPolicy env.rx identity { action := "memory.quarantine" } traceId
  appendPolicyEvents env identity decision none none
  raiseIf (decision.decision = .blocked) (.policyBlocked decision)
  let reasonText := collapse request.reason
  raiseIf (reasonText = "") (.validation "reason is required")
  let normalizedAgent := collapse request.agentId
  -- an agent may sweep its own memories only
  raiseIf (identity.any fun agent => normalizedAgent != agent.agentId)
    (.policyBlocked (limitedToOwnAgentId decision))
  let candidates ← autoPromotedByAgent env normalizedAgent request.since request.till
  let fresh ← newId env
  let sweepId := "quarantine-" ++ fresh
  let outcomes ← sweepCandidates env identity request.dryRun
    (reasonText ++ " (sweep " ++ sweepId ++ ")") candidates
  let envelope : QuarantineEnvelope :=
    { sweepId := sweepId
      agentId := normalizedAgent
      since := request.since
      till := request.till
      dryRun := request.dryRun
      candidateCount := candidates.length
      expired := expiredOutcomes outcomes
      skipped := skippedOutcomes outcomes
      policyDecision := decision }
  -- a dry run leaves no event of a sweep
  if request.dryRun then pure envelope
  else do
    appendEvent env "memory.quarantine_sweep" (actorOf identity) (some "agent")
      (some normalizedAgent)
    pure envelope

/-! ### What a sweep is for -/

/-- A promotion of the row by the agent is logged in the window. -/
def AutoPromoted (s : Store) (agentId : String) (since till : Option UtcMoment)
    (memoryId : String) : Prop :=
  memoryId ≠ "" ∧ ∃ event ∈ s.events, event.eventType = autoPromotedEvent ∧
    event.actorId = some agentId ∧ event.targetType = some "memory" ∧
    event.targetId = some memoryId ∧
    (∀ start ∈ since, start.instant ≤ event.occurredAt.instant) ∧
    ∀ stop ∈ till, event.occurredAt.instant ≤ stop.instant

/-- The sweep reads such a promotion: `julianday` puts it in the window. -/
def ReadAsPromoted (s : Store) (agentId : String) (since till : Option UtcMoment)
    (memoryId : String) : Prop :=
  memoryId ≠ "" ∧ ∃ event ∈ s.events, event.eventType = autoPromotedEvent ∧
    event.actorId = some agentId ∧ event.targetType = some "memory" ∧
    event.targetId = some memoryId ∧
    (∀ start ∈ since, env.julianday.read start.instant ≤
      env.julianday.read event.occurredAt.instant) ∧
    ∀ stop ∈ till, env.julianday.read event.occurredAt.instant ≤
      env.julianday.read stop.instant

/-- The window of the row has an end, no later than `now`. -/
def ClosedBy (now : UtcMoment) (row : MemoryRow) : Prop :=
  ∃ u, row.validTo = some (.moment u) ∧ u.instant ≤ now.instant

/-- There is no end to the window: none is set, or the stand-in for none. -/
def OpenEnded (row : MemoryRow) : Prop :=
  ¬ (isUnboundedValidTo row.validTo = false ∧ row.validTo.isSome = true)

/-- **What the skip misses.** A live row whose window has an end that is not
reached. -/
def Evades (now : UtcMoment) (row : MemoryRow) : Prop :=
  row.status ∈ liveStatuses ∧ ¬ OpenEnded row ∧ ¬ ClosedBy now row

/-- The row is live and its window has no end. -/
def Sweepable (row : MemoryRow) : Prop :=
  row.status ∈ liveStatuses ∧ OpenEnded row

variable {env} {s t : Store}

/-- A promotion in the window is read: `julianday` keeps the order of instants. -/
theorem AutoPromoted.read {agentId memoryId : String} {since till : Option UtcMoment}
    (h : AutoPromoted s agentId since till memoryId) :
    ReadAsPromoted env s agentId since till memoryId := by
  obtain ⟨hid, event, hmem, htype, hactor, hmemory, hrow, hsince, htill⟩ := h
  exact ⟨hid, event, hmem, htype, hactor, hmemory, hrow,
    fun start hstart => env.julianday.mono (hsince start hstart),
    fun stop hstop => env.julianday.mono (htill stop hstop)⟩

/-- The sweep lists each memory once, and exactly those that a promotion event of the
window reads as promoted by the agent. -/
theorem mem_autoPromotedByAgent {agentId : String} {since till : Option UtcMoment}
    {ids : List String} (h : (autoPromotedByAgent env agentId since till).run s = .ok ids t) :
    s = t ∧ ids.Nodup ∧ ∀ id, id ∈ ids ↔
      ReadAsPromoted env s (collapse agentId) since till id := by
  simp only [autoPromotedByAgent, run_bind_ok, run_raiseIf_ok, run_get_ok, run_pure_ok] at h
  obtain ⟨_, _, ⟨hagent, rfl⟩, _, _, ⟨rfl, rfl⟩, rfl, rfl⟩ := h
  refine ⟨rfl, nodup_fromkeys _, fun id => ?_⟩
  -- an event promotes one memory at most, and by its type, its actor and its target
  have htarget : ∀ event, promotedTarget (collapse agentId) event = some id ↔
      id ≠ "" ∧ event.eventType = autoPromotedEvent ∧ event.actorId = some (collapse agentId) ∧
        event.targetId = some id := by
    intro event
    have hactor : event.actorId.getD "" = collapse agentId ↔
        event.actorId = some (collapse agentId) := by
      cases event.actorId with
      | none => simpa using Ne.symm hagent
      | some actor => simp
    unfold promotedTarget
    simp only [hactor]
    split
    · next hpromoted =>
      simp only [Option.filter_eq_some_iff, decide_eq_true_eq, hpromoted, true_and]
      exact and_comm
    · next hother =>
      refine iff_of_false (by simp) ?_
      rintro ⟨-, htype, hactor, -⟩
      exact hother ⟨htype, hactor⟩
  simp only [mem_fromkeys, List.mem_filterMap, Store.listEvents, Store.juliandayLe,
    List.mem_insertionSort, List.mem_filter, htarget, Bool.and_eq_true, beq_iff_eq,
    Option.all_eq_true, decide_eq_true_eq]
  constructor
  · rintro ⟨event, ⟨hmem, ⟨hmemory, hsince⟩, htill⟩, hid, htype, hactor, hrow⟩
    exact ⟨hid, event, hmem, htype, hactor, hmemory, hrow, hsince, htill⟩
  · rintro ⟨hid, event, hmem, htype, hactor, hmemory, hrow, hsince, htill⟩
    exact ⟨event, ⟨hmem, ⟨hmemory, hsince⟩, htill⟩, hid, htype, hactor, hrow⟩

/-! ### One candidate -/

/-- An expiry is added to the history of the row. -/
theorem validityHistory_expirePatch (row : MemoryRow) (validTo now now' deletedNow : UtcMoment)
    (reason : String) (actor : Actor) :
    (validityHistory
      ((expirePatch row validTo now reason actor).apply now' deletedNow row)).length =
      (validityHistory row).length + 1 := by
  have hvalidity :
      validityOf ((expirePatch row validTo now reason actor).apply now' deletedNow row) =
        expiredValidity row validTo now reason actor := by
    show Dict.getObj (row.metadataJson.set "validity" _) "validity" = _
    rw [Dict.getObj, Dict.item, Dict.get?_set_self]
    rfl
  -- the sentinel of an open end is dropped, and the history is not
  have hhistory : (expiredValidity row validTo now reason actor).item "history" =
      .arr (validityHistory row ++ [.obj [("op", .str "expired"), ("at", isoJson now),
        ("valid_to", isoJson validTo), ("reason", .str reason),
        ("actor_id", .optStr actor.id)]]) := by
    have hkept : (expiredValidity row validTo now reason actor).get? "history" = Dict.get? _ _ :=
      Dict.get?_filter _ (fun key => decide (key ≠ "unbounded_sentinel"))
        (by decide : decide ("history" ≠ "unbounded_sentinel") = true)
    rw [Dict.item, hkept]
    simp only [Dict.update_cons, Dict.update_nil, Dict.get?_set_self, Option.getD_some]
  rw [validityHistory, hvalidity, hhistory]
  exact List.length_append

/-- An expiry that returns found a live row, and closed it. -/
theorem expire_ok {identity : Option AgentIdentity} {memoryId reason : String}
    {answer : LifecycleAnswer}
    (h : (expire env identity memoryId .absent reason).run s = .ok answer t) :
    (∃ row closed, s.getMemory memoryId = some row ∧ row.status ∈ liveStatuses ∧
      t.getMemory memoryId = some closed ∧ closed ≠ row ∧
      ClosedBy (env.clock.read t.ticks) closed) ∧
      (∀ id, id ≠ memoryId → t.memories.get? id = s.memories.get? id) ∧ s.ticks ≤ t.ticks := by
  simp only [expire, validToIso, lockedMemory, utcNow, run_bind_ok, run_get_ok, run_orRaise_ok,
    run_modifyGet_ok, run_pure_ok] at h
  obtain ⟨memory, _, ⟨_, _, ⟨rfl, rfl⟩, hmemory, rfl⟩, _, s₁, hpolicy, _, _, hlegal, reasonText,
    s₂, hreason, _, _, ⟨rfl, rfl⟩, _, _, ⟨rfl, rfl⟩, updated, s₃, hupdate, _, s₄, hrevise, _, s₅,
    hevent, -, rfl⟩ := h
  obtain ⟨hresolve, -, rfl⟩ := run_requireTransition_ok hlegal
  have hbefore : Quiet s s₂ := IsTrans.trans _ _ _ ((quiet_policyCheckedWrite env _ _ _).ok hpolicy)
    ((quiet_normalizedText _ _).ok hreason)
  have hafter : Quiet s₃ s₅ := IsTrans.trans _ _ _ ((quiet_reviseMemory _ _ _ _ _ _ _).ok hrevise)
    ((quiet_appendMemoryEvent env _ _ _).ok hevent)
  have hid : memory.id = memoryId := Store.id_of_getMemory hmemory
  rw [hid] at hupdate
  obtain ⟨row, hrow, hupdated, -, hlater⟩ := updateMemory_ok hupdate
  obtain rfl : row = memory := Option.some.inj
    (hrow.symm.trans ((Store.getMemory_congr (congrArg (·.get? memoryId) hbefore.memories)).trans
      hmemory))
  have hticks : s₂.ticks ≤ s₅.ticks :=
    (Nat.le_add_right s₂.ticks 2).trans (hlater.ticks.trans hafter.ticks)
  refine ⟨⟨row, updated, hmemory, resolveTransition_live hresolve, ?_, ?_, ?_⟩, ?_, ?_⟩
  · rw [hafter.getMemory]
    exact updateMemory_getMemory hupdate (by simp [expirePatch])
  · intro hsame
    have hlength := congrArg (fun other => (validityHistory other).length)
      (hupdated.symm.trans hsame)
    dsimp only at hlength
    rw [validityHistory_expirePatch] at hlength
    omega
  · -- the end is a reading of the clock, and the clock is not set back
    refine ⟨env.clock.read s₂.ticks, ?_, env.clock.mono hticks⟩
    rw [hupdated]
    rfl
  · intro id hne
    rw [hafter.memories, updateMemory_get? hupdate, if_neg (Ne.symm hne)]
    show s₂.memories.get? id = s.memories.get? id
    rw [hbefore.memories]
  · exact hbefore.ticks.trans hticks

/-- An expiry that raises writes nothing, and it finds the row of a live memory
in order. -/
theorem expire_fails (s : Store) (memoryId reason : String) (hreason : collapse reason ≠ "") :
    FailsAt (fun e t => Quiet s t ∧ ∀ message row, e = .validation message →
      s.getMemory memoryId = some row → row.status ∉ liveStatuses)
      (expire env none memoryId .absent reason) s := by
  intro e t h
  unfold expire at h
  rcases run_bind_error.mp h with hlocked | ⟨memory, s₁, hlocked, h⟩
  · simp only [lockedMemory, run_bind_error, run_get_error, run_get_ok, run_orRaise_error,
      false_or] at hlocked
    obtain ⟨_, _, ⟨rfl, rfl⟩, hnone, -, rfl⟩ := hlocked
    refine ⟨Std.Refl.refl s, fun message row _ hrow => ?_⟩
    rw [hnone] at hrow
    exact absurd hrow (by simp)
  simp only [lockedMemory, run_bind_ok, run_get_ok, run_orRaise_ok] at hlocked
  obtain ⟨_, _, ⟨rfl, rfl⟩, hmemory, rfl⟩ := hlocked
  have hallowed : MayWrite env none "memory.expire" memory := by
    show PolicyOutcome.allowed ≠ .blocked
    decide
  rcases run_bind_error.mp h with hpolicy | ⟨_, s₂, hpolicy, h⟩
  · obtain ⟨_, _, hok⟩ := policyCheckedWrite_returns env hallowed s
    rw [hok] at hpolicy
    exact absurd hpolicy (by simp)
  have hquiet : Quiet s s₂ := (quiet_policyCheckedWrite env _ _ _).ok hpolicy
  rcases run_bind_error.mp h with hlegal | ⟨_, s₃, hlegal, h⟩
  · -- the row is retired
    refine ⟨IsTrans.trans _ _ _ hquiet ((quiet_requireTransition _ _ s₂).error hlegal), ?_⟩
    intro message row _ hrow hlive
    obtain rfl : row = memory := Option.some.inj (hrow.symm.trans hmemory)
    rw [requireTransition, (resolveTransition_expire row.status).mpr hlive] at hlegal
    exact absurd hlegal (by simp)
  obtain ⟨-, -, rfl⟩ := run_requireTransition_ok hlegal
  rcases run_bind_error.mp h with htext | ⟨text, s₄, htext, h⟩
  · rw [normalizedText, if_neg hreason] at htext
    exact absurd htext (by simp)
  have hquiet₄ : Quiet s s₄ :=
    IsTrans.trans _ _ _ hquiet ((quiet_normalizedText _ _).ok htext)
  rcases run_bind_error.mp h with hmoment | ⟨_, s₅, hmoment, h⟩
  · exact absurd hmoment (by simp [validToIso, utcNow])
  have hquiet₅ : Quiet s s₅ := IsTrans.trans _ _ _ hquiet₄ ((quiet_validToIso _).ok hmoment)
  rcases run_bind_error.mp h with hnow | ⟨_, s₆, hnow, h⟩
  · exact absurd hnow (by simp [utcNow])
  have hquiet₆ : Quiet s s₆ := IsTrans.trans _ _ _ hquiet₅ ((quiet_utcNow env).ok hnow)
  rcases run_bind_error.mp h with hupdate | ⟨updated, s₇, hupdate, h⟩
  · obtain ⟨hfailed, hkind⟩ := updateMemory_error hupdate
    refine ⟨IsTrans.trans _ _ _ hquiet₆ hfailed, ?_⟩
    rintro message row rfl
    rcases hkind with ⟨_, hkind⟩ | hkind <;> exact absurd hkind (by simp)
  · -- the log entries do not fail
    have hlog : Returns (do
        reviseMemory memory updated "edited" "agentic_memory_expire" updated.canonicalText
          text (actorOf none)
        appendMemoryEvent env "agent.memory_expired" (actorOf none) updated.id
        pure ({ status := "expired", memory := updated } : LifecycleAnswer)) :=
      Returns.bind (Returns.modify _) fun _ =>
        Returns.bind (returns_appendEvent env _ _ _ _) fun _ => Returns.pure _
    obtain ⟨_, _, hok⟩ := hlog s₇
    exact absurd (h.symm.trans hok) (by simp)

/-- What happened to one row: a sweepable one is closed, which its history
tells, and any other is as it was. -/
structure Swept (env : Env) (s t : Store) (memoryId : String) : Prop where
  closes : ∀ row, s.getMemory memoryId = some row → Sweepable row →
    ∃ closed, t.getMemory memoryId = some closed ∧ closed ≠ row ∧
      ClosedBy (env.clock.read t.ticks) closed
  spares : (∀ row, s.getMemory memoryId = some row → ¬ Sweepable row) →
    t.memories.get? memoryId = s.memories.get? memoryId

theorem ClosedBy.mono {now later : UtcMoment} {row : MemoryRow} (h : ClosedBy now row)
    (hle : now.instant ≤ later.instant) : ClosedBy later row := by
  obtain ⟨u, hu, hbound⟩ := h
  exact ⟨u, hu, hbound.trans hle⟩

/-- **One candidate.** -/
theorem sweepCandidate_ok {reason memoryId : String} {outcome : SweepOutcome}
    (hreason : collapse reason ≠ "")
    (h : (sweepCandidate env none false reason memoryId).run s = .ok outcome t) :
    Swept env s t memoryId ∧ s.ticks ≤ t.ticks ∧
      ∀ id, id ≠ memoryId → t.memories.get? id = s.memories.get? id := by
  simp only [sweepCandidate, run_bind_ok, run_get_ok] at h
  obtain ⟨_, _, ⟨rfl, rfl⟩, h⟩ := h
  -- a candidate that is left alone
  have hspared : ∀ u, Quiet s u →
      (∀ row, s.getMemory memoryId = some row → ¬ Sweepable row) →
      Swept env s u memoryId ∧ s.ticks ≤ u.ticks ∧
        ∀ id, id ≠ memoryId → u.memories.get? id = s.memories.get? id := by
    intro u hquiet hnot
    refine ⟨⟨fun row hrow hsweep => absurd hsweep (hnot row hrow), fun _ => ?_⟩, hquiet.ticks,
      fun id _ => ?_⟩
    · rw [hquiet.memories]
    · rw [hquiet.memories]
  split at h
  · next hnone =>
    obtain ⟨-, rfl⟩ := run_pure_ok.mp h
    refine hspared s (Std.Refl.refl s) fun row hrow => ?_
    rw [hnone] at hrow
    exact absurd hrow (by simp)
  · next memory hmemory =>
    split at h
    · next hbounded =>
      obtain ⟨-, rfl⟩ := run_pure_ok.mp h
      refine hspared s (Std.Refl.refl s) fun row hrow hsweep => ?_
      obtain rfl : row = memory := Option.some.inj (hrow.symm.trans hmemory)
      exact hsweep.2 hbounded
    · next hopen =>
      rw [if_neg (by simp)] at h
      rcases run_catching_ok.mp h with hexpired | ⟨e, u, hfailed, hhandler⟩
      · obtain ⟨answer, _, hexpire, hpure⟩ := run_bind_ok.mp hexpired
        obtain ⟨-, rfl⟩ := run_pure_ok.mp hpure
        obtain ⟨⟨row, closed, hrow, hlive, hclosed, hchanged, hbound⟩, hothers, hticks⟩ :=
          expire_ok hexpire
        obtain rfl : row = memory := Option.some.inj (hrow.symm.trans hmemory)
        refine ⟨⟨fun other hother _ => ?_, fun hnot => ?_⟩, hticks, hothers⟩
        · obtain rfl : other = row := Option.some.inj (hother.symm.trans hrow)
          exact ⟨closed, hclosed, hchanged, hbound⟩
        · exact absurd ⟨hlive, hopen⟩ (hnot row hrow)
      · -- the expiry raised, and a refusal is all the handler takes
        have hexpire : (expire env none memoryId .absent reason).run s = .error e u := by
          rcases run_bind_error.mp hfailed with hexpire | ⟨_, _, _, hpure⟩
          · exact hexpire
          · exact absurd hpure (by simp)
        obtain ⟨hquiet, hrefused⟩ := expire_fails s memoryId reason hreason e u hexpire
        cases e with
        | validation message =>
          obtain ⟨-, rfl⟩ := run_pure_ok.mp hhandler
          exact hspared _ hquiet fun row hrow hsweep => hrefused message row rfl hrow hsweep.1
        | _ => exact (run_throw_ok.mp hhandler).elim

/-! ### The whole sweep -/

/-- **The loop.** Every candidate is swept, and no other row is touched. The
candidates differ, so each is met as it was when the loop started. -/
theorem sweepCandidates_ok {reason : String} (hreason : collapse reason ≠ "")
    {memoryIds : List String} (hnodup : memoryIds.Nodup) {outcomes : List SweepOutcome}
    (h : (sweepCandidates env none false reason memoryIds).run s = .ok outcomes t) :
    (∀ id ∈ memoryIds, Swept env s t id) ∧ s.ticks ≤ t.ticks ∧
      ∀ id, id ∉ memoryIds → t.memories.get? id = s.memories.get? id := by
  induction memoryIds generalizing s outcomes with
  | nil =>
    obtain ⟨-, rfl⟩ := run_pure_ok.mp h
    exact ⟨fun id hid => absurd hid List.not_mem_nil, Nat.le_refl _, fun _ _ => rfl⟩
  | cons memoryId rest ih =>
    obtain ⟨hnotMem, hrest⟩ := List.nodup_cons.mp hnodup
    simp only [sweepCandidates, run_bind_ok, run_pure_ok] at h
    obtain ⟨outcome, u, hfirst, later, _, hlater, -, rfl⟩ := h
    obtain ⟨hswept, hticks, hothers⟩ := sweepCandidate_ok hreason hfirst
    obtain ⟨hsweptRest, hticksRest, hothersRest⟩ := ih hrest hlater
    refine ⟨?_, hticks.trans hticksRest, ?_⟩
    · intro id hid
      rcases List.mem_cons.mp hid with rfl | hmem
      · -- swept first, left alone afterwards
        have hkept := hothersRest id hnotMem
        refine ⟨fun row hrow hsweep => ?_, fun hnot => hkept.trans (hswept.spares hnot)⟩
        obtain ⟨closed, hclosed, hchanged, hbound⟩ := hswept.closes row hrow hsweep
        refine ⟨closed, ?_, hchanged, hbound.mono (env.clock.mono hticksRest)⟩
        rw [Store.getMemory_congr hkept]
        exact hclosed
      · have hne : id ≠ memoryId := fun heq => hnotMem (heq ▸ hmem)
        have hsame := hothers id hne
        have hrow : u.getMemory id = s.getMemory id := Store.getMemory_congr hsame
        obtain ⟨hcloses, hspares⟩ := hsweptRest id hmem
        rw [hrow] at hcloses hspares
        exact ⟨hcloses, fun hnot => (hspares hnot).trans hsame⟩
    · intro id hid
      rw [List.mem_cons, not_or] at hid
      exact (hothersRest id hid.2).trans (hothers id hid.1)

/-- No memory the agent did not promote in the window has changed. -/
def Exact (request : QuarantineRequest) (s t : Store) : Prop :=
  ∀ id, ¬ AutoPromoted s (collapse request.agentId) request.since request.till id →
    t.memories.get? id = s.memories.get? id

/-- Every live memory the agent promoted in the window is outside its validity
window when the sweep returns. -/
def Complete (env : Env) (request : QuarantineRequest) (s t : Store) : Prop :=
  ∀ id row, t.getMemory id = some row → row.status ∈ liveStatuses →
    AutoPromoted s (collapse request.agentId) request.since request.till id →
    ClosedBy (env.clock.read t.ticks) row

/-- The reason handed to `expire` is never blank: it names the sweep. -/
theorem collapse_sweepReason (reason sweepId : String) :
    collapse (reason ++ " (sweep " ++ sweepId ++ ")") ≠ "" := by
  refine collapse_ne_empty (c := ')') ?_ (by decide)
  simp

/-- **One sweep.** The candidates are the rows it reads as promoted by the
agent, and what the sweep does to the memories is what it does to them. -/
theorem quarantineByAgentKey_ok {request : QuarantineRequest} {envelope : QuarantineEnvelope}
    (h : (quarantineByAgentKey env none request).run s = .ok envelope t)
    (hdry : request.dryRun = false) :
    (∀ id, ReadAsPromoted env s (collapse request.agentId) request.since request.till id →
      Swept env s t id) ∧
    ∀ id, ¬ ReadAsPromoted env s (collapse request.agentId) request.since request.till id →
      t.memories.get? id = s.memories.get? id := by
  simp only [quarantineByAgentKey, run_bind_ok] at h
  obtain ⟨traceId, s₁, htrace, _, s₂, hpolicy, _, _, hallowed, _, _, hreason, _, _, hown, ids, _,
    hids, fresh, s₃, hfresh, outcomes, s₄, hloop, h⟩ := h
  obtain ⟨-, rfl⟩ := run_raiseIf_ok.mp hallowed
  obtain ⟨-, rfl⟩ := run_raiseIf_ok.mp hreason
  obtain ⟨-, rfl⟩ := run_raiseIf_ok.mp hown
  obtain ⟨rfl, hnodup, hmem⟩ := mem_autoPromotedByAgent hids
  rw [collapse_collapse] at hmem
  rw [hdry] at h hloop
  simp only [if_neg Bool.false_ne_true, run_bind_ok, run_pure_ok] at h
  obtain ⟨_, _, hevent, -, rfl⟩ := h
  have hlogged : Quiet s₄ _ := (quiet_appendEvent env _ _ _ _).ok hevent
  -- without an identity nothing but the clock moves before the loop
  obtain ⟨-, rfl⟩ := run_modifyGet_ok.mp htrace
  obtain ⟨-, rfl⟩ := run_pure_ok.mp hpolicy
  obtain ⟨-, rfl⟩ := run_modifyGet_ok.mp hfresh
  obtain ⟨hswept, -, hothers⟩ := sweepCandidates_ok (collapse_sweepReason _ _) hnodup hloop
  constructor
  · intro id hread
    obtain ⟨hcloses, hspares⟩ := hswept id ((hmem id).mpr hread)
    refine ⟨fun row hrow hsweep => ?_, fun hnot => ?_⟩
    · obtain ⟨closed, hclosed, hchanged, hbound⟩ := hcloses row hrow hsweep
      refine ⟨closed, ?_, hchanged, hbound.mono (env.clock.mono hlogged.ticks)⟩
      rw [hlogged.getMemory]
      exact hclosed
    · rw [hlogged.memories]
      exact hspares hnot
  · intro id hnot
    rw [hlogged.memories]
    exact hothers id fun hid => hnot ((hmem id).mp hid)

/-- A row that is closed has changed. -/
theorem Swept.changes {memoryId : String} {row : MemoryRow} (h : Swept env s t memoryId)
    (hrow : s.getMemory memoryId = some row) (hsweep : Sweepable row) :
    t.memories.get? memoryId ≠ s.memories.get? memoryId := by
  intro hsame
  obtain ⟨closed, hclosed, hchanged, -⟩ := h.closes row hrow hsweep
  rw [Store.getMemory_congr hsame, hrow] at hclosed
  exact hchanged (Option.some.inj hclosed).symm

/-- **When a sweep is complete**: no row it is to close evades it. -/
theorem sweep_complete_iff {request : QuarantineRequest} {envelope : QuarantineEnvelope}
    (h : (quarantineByAgentKey env none request).run s = .ok envelope t)
    (hdry : request.dryRun = false) :
    Complete env request s t ↔ ∀ id row, s.getMemory id = some row →
      AutoPromoted s (collapse request.agentId) request.since request.till id →
        ¬ Evades (env.clock.read t.ticks) row := by
  obtain ⟨hswept, -⟩ := quarantineByAgentKey_ok h hdry
  constructor
  · rintro hcomplete id row hrow hpromoted ⟨hlive, hbounded, hopen⟩
    -- the row was skipped, so it is what the claim is about
    have hspared : t.memories.get? id = s.memories.get? id := by
      refine (hswept id hpromoted.read).spares fun row' hrow' hsweep => ?_
      obtain rfl : row' = row := Option.some.inj (hrow'.symm.trans hrow)
      exact hbounded hsweep.2
    have hfound : t.getMemory id = some row := (Store.getMemory_congr hspared).trans hrow
    exact hopen (hcomplete id row hfound hlive hpromoted)
  · intro hnone id row hrow hlive hpromoted
    have hrowSwept := hswept id hpromoted.read
    by_cases hsweep : ∃ before, s.getMemory id = some before ∧ Sweepable before
    · obtain ⟨before, hbefore, hsweepable⟩ := hsweep
      obtain ⟨closed, hclosed, -, hbound⟩ := hrowSwept.closes before hbefore hsweepable
      obtain rfl : closed = row := Option.some.inj (hclosed.symm.trans hrow)
      exact hbound
    · have hspared := hrowSwept.spares fun before hbefore hsweepable =>
        hsweep ⟨before, hbefore, hsweepable⟩
      have hfound : s.getMemory id = some row := (Store.getMemory_congr hspared).symm.trans hrow
      by_contra hopen
      refine hnone id row hfound hpromoted ⟨hlive, fun hended => ?_, hopen⟩
      exact hsweep ⟨row, hfound, hlive, hended⟩

/-- **When a sweep is exact**: no row that it would close is read as promoted
and was not. -/
theorem sweep_exact_iff {request : QuarantineRequest} {envelope : QuarantineEnvelope}
    (h : (quarantineByAgentKey env none request).run s = .ok envelope t)
    (hdry : request.dryRun = false) :
    Exact request s t ↔ ∀ id row, s.getMemory id = some row → Sweepable row →
      ReadAsPromoted env s (collapse request.agentId) request.since request.till id →
        AutoPromoted s (collapse request.agentId) request.since request.till id := by
  obtain ⟨hswept, hothers⟩ := quarantineByAgentKey_ok h hdry
  constructor
  · intro hexact id row hrow hsweep hread
    by_contra hnot
    exact (hswept id hread).changes hrow hsweep (hexact id hnot)
  · intro hall id hnot
    by_cases hread : ReadAsPromoted env s (collapse request.agentId) request.since request.till id
    · exact (hswept id hread).spares fun row hrow hsweep => hnot (hall id row hrow hsweep hread)
    · exact hothers id hread

/-! ### Histories -/

/-- A call of the service, or a sweep. -/
inductive Operation where
  | service (invocation : Invocation)
  | quarantine (env : Env) (identity : Option AgentIdentity) (request : QuarantineRequest)

/-- The transaction of an operation. -/
def Operation.transact (op : Operation) (s : Store) : Store :=
  match op with
  | .service invocation => invocation.transact s
  | .quarantine env identity request =>
    match (quarantineByAgentKey env identity request).run s with
    | .ok _ t => t
    | .error _ _ => s

/-- A sweep the operator runs, not as a rehearsal, is complete and exact if it
returns. -/
def Operation.SweepsExactly (op : Operation) (s : Store) : Prop :=
  match op with
  | .quarantine env none request => request.dryRun = false → ∀ envelope t,
      (quarantineByAgentKey env none request).run s = .ok envelope t →
        Complete env request s t ∧ Exact request s t
  | _ => True

/-- The sweep returns, and a row that the agent promoted in the window evades
it, or it reads a promotion outside the window as one inside. -/
def Operation.Misses (op : Operation) (s : Store) : Prop :=
  match op with
  | .quarantine env none request => request.dryRun = false ∧ ∃ envelope t,
      (quarantineByAgentKey env none request).run s = .ok envelope t ∧
        ∃ id row, s.getMemory id = some row ∧
          (AutoPromoted s (collapse request.agentId) request.since request.till id ∧
              Evades (env.clock.read t.ticks) row ∨
            ¬ AutoPromoted s (collapse request.agentId) request.since request.till id ∧
              ReadAsPromoted env s (collapse request.agentId) request.since request.till id ∧
              Sweepable row)
  | _ => False

/-- A sweep is complete and exact unless some row is missed or taken wrongly. -/
theorem Operation.sweepsExactly_iff_not_misses (op : Operation) (s : Store) :
    op.SweepsExactly s ↔ ¬ op.Misses s := by
  cases op with
  | service invocation => exact iff_of_true trivial not_false
  | quarantine env identity request =>
    cases identity with
    | some agent => exact iff_of_true trivial not_false
    | none =>
      constructor
      · -- a miss is a row that evades the sweep, or one that it takes wrongly
        rintro hall ⟨hdry, envelope, t, hrun, id, row, hrow, hmiss⟩
        obtain ⟨hcomplete, hexact⟩ := hall hdry envelope t hrun
        rcases hmiss with ⟨hpromoted, hevades⟩ | ⟨hnot, hread, hsweep⟩
        · exact (sweep_complete_iff hrun hdry).mp hcomplete id row hrow hpromoted hevades
        · exact hnot ((sweep_exact_iff hrun hdry).mp hexact id row hrow hsweep hread)
      · intro hnone hdry envelope t hrun
        refine ⟨(sweep_complete_iff hrun hdry).mpr fun id row hrow hpromoted hevades => ?_,
          (sweep_exact_iff hrun hdry).mpr fun id row hrow hsweep hread => ?_⟩
        · exact hnone ⟨hdry, envelope, t, hrun, id, row, hrow, .inl ⟨hpromoted, hevades⟩⟩
        · by_contra hnot
          exact hnone ⟨hdry, envelope, t, hrun, id, row, hrow, .inr ⟨hnot, hread, hsweep⟩⟩

/-- **When the sweeps of a history are complete and exact.** From any store,
through any calls of the service and any sweeps: exactly when no sweep meets a
live row it is to close whose window has an end that is not reached, nor a live
row without an end whose promotion `julianday` alone puts in the window. -/
theorem sweepsExactly_iff (s : Store) (history : List Operation) :
    Along Operation.transact Operation.SweepsExactly s history ↔
      Along Operation.transact (fun op u => ¬ op.Misses u) s history :=
  along_congr Operation.transact Operation.sweepsExactly_iff_not_misses s history

/-- An agent that writes with a key of its own. -/
def keyedAgent : AgentIdentity :=
  { agentId := "hermes", permissionProfile := .trustedLocalAgent, auth := agentKeyAuth }

/-- Noon and a number of microseconds, up to the end of the second. -/
def noonPlus (n : Nat) : UtcMoment :=
  { noon with clock := { noon.clock with micro := min n 999999, micro_lt := by omega } }

/-- A clock that goes on by a microsecond at each reading. -/
def tickingClock : WallClock where
  read := noonPlus
  mono := by
    intro m n h
    have hm := (noonPlus m).instant_eq
    have hn := (noonPlus n).instant_eq
    have hseconds : (noonPlus m).seconds = (noonPlus n).seconds := rfl
    have hmicro : (noonPlus m).clock.micro ≤ (noonPlus n).clock.micro := by
      show min m 999999 ≤ min n 999999
      omega
    omega

/-- Personal use: what an agent writes is promoted. -/
def Env.promoting : Env :=
  { Env.plain with clock := tickingClock, promotionSettings := some { persona := .personal } }

/-- A fact the agent is not sure enough about to commit it directly. -/
def promotedFact : MemoryCommitRequest :=
  { userId := "u"
    title := "Tea"
    canonicalText := "I drink green tea."
    domain := "project"
    sensitivity := "internal"
    confidence := 7 / 10 }

/-- Noon of the first of July 2126. -/
def farNoon : UtcMoment :=
  { noon with
    date := .ofFields 2126 7 1 (Eq.refl true) }

/-- A sweep of the moment of the promotion. -/
def leakedKey : QuarantineRequest :=
  { agentId := "hermes"
    reason := "leaked key"
    since := some (noonPlus 15)
    till := some (noonPlus 15) }

/-- The agent promotes a fact and sets its end a century ahead. The sweep finds
the row and skips it, as expired already. -/
theorem future_end_skipped :
    let history : List Operation :=
      [.service ⟨.promoting, some keyedAgent, .commit promotedFact⟩,
        .service ⟨.promoting, some keyedAgent,
          .expire "iiiiiiii" (.datetime (.naive farNoon.date farNoon.clock)) "no longer needed"⟩,
        .quarantine .promoting none leakedKey]
    ¬ Along Operation.transact Operation.SweepsExactly { memories := default } history := by
  rintro history ⟨-, -, hsweeps, -⟩
  let before := Operation.transact (.service ⟨.promoting, some keyedAgent,
      .expire "iiiiiiii" (.datetime (.naive farNoon.date farNoon.clock)) "no longer needed"⟩)
    (Operation.transact (.service ⟨.promoting, some keyedAgent, .commit promotedFact⟩)
      { memories := default })
  have hevent : (before.events.any fun event => event.eventType == autoPromotedEvent &&
      event.actorId == some "hermes" && event.targetType == some "memory" &&
      event.targetId == some "iiiiiiii" && event.occurredAt == noonPlus 15) = true := by
    decide +kernel
  have hafter : (match (quarantineByAgentKey .promoting none leakedKey).run before with
      | .ok _ t => (t.getMemory "iiiiiiii").any fun row => row.status == .active &&
          row.validTo == some (.moment farNoon)
      | .error _ _ => false) = true := by
    decide +kernel
  cases hrun : (quarantineByAgentKey .promoting none leakedKey).run before with
  | error e t =>
    rw [hrun] at hafter
    exact absurd hafter (by simp)
  | ok envelope t =>
    rw [hrun] at hafter
    simp only [Option.any_eq_true, Bool.and_eq_true, beq_iff_eq] at hafter
    obtain ⟨row, hrow, hactive, hend⟩ := hafter
    obtain ⟨event, hmem, hpromotion⟩ := List.any_eq_true.mp hevent
    simp only [Bool.and_eq_true, beq_iff_eq] at hpromotion
    obtain ⟨⟨⟨⟨htype, hactor⟩, hmemory⟩, htarget⟩, hmoment⟩ := hpromotion
    have hpromoted : AutoPromoted before (collapse leakedKey.agentId) leakedKey.since leakedKey.till
        "iiiiiiii" := by
      have hagent : collapse leakedKey.agentId = "hermes" := by decide +kernel
      rw [hagent]
      exact ⟨by decide, event, hmem, htype, hactor, hmemory, htarget, by simp [leakedKey, hmoment],
        by simp [leakedKey, hmoment]⟩
    have hlive : row.status ∈ liveStatuses := by
      rw [hactive]
      decide
    obtain ⟨hcomplete, -⟩ := hsweeps rfl envelope t hrun
    obtain ⟨u, hu, hbound⟩ := hcomplete "iiiiiiii" row hrow hlive hpromoted
    -- the clock does not leave the second
    rw [hend] at hu
    obtain rfl := ValidityEnd.moment.inj (Option.some.inj hu)
    have hnow := (noonPlus t.ticks).instant_eq
    have hmicro := (noonPlus t.ticks).clock.micro_lt
    have hseconds : (noonPlus t.ticks).seconds = noon.seconds := rfl
    have hfar : noon.seconds * 1000000 + 1000000 ≤ farNoon.instant := by decide
    have hread : (Env.promoting.clock.read t.ticks).instant = (noonPlus t.ticks).instant := rfl
    omega

end AliceBot
