import AliceBot.InstanceDiversity
import AliceBot.Library.MoveUp

/-!
# Promoting roll-up cards

`promote_rollup_cards` moves an accepted roll-up card to the rank of the best of its own
members, where enough of them hold slots and the best one outranks it. No slot is added: what
the cards push behind the last slot loses it.

The pass is a run of moves within the pool (`promoteCards_movesUp`), so the candidates that
are no cards keep their order in the pool. It is rebuilt with the excluded candidates behind
the pool. One that stood between the others ends behind them
(`promoteRollupCards_slotNeutral`, `excluded_moves_back`).
-/

namespace AliceBot

open PyLib

/-- `COVERAGE_MAX_CARD_PROMOTIONS`. -/
def coverageMaxCardPromotions : Int := 2

/-- `COVERAGE_MIN_SLOTTED_MEMBERS`. -/
def coverageMinSlottedMembers : Int := 2

/-- `ROLLUP_PROPOSAL_KIND`. -/
def rollupProposalKind : String := "rollup"

/-- `candidate.exclusion_reason in _RANKING_EXCLUSION_REASONS`. -/
def RetrievalCandidate.rankable (candidate : RetrievalCandidate) : Bool :=
  decide (candidate.exclusionReason ∈ [none, some trimmedByLimit, some coverageRedundant])

section Pass

variable (env : RowEnv)

/-- `accepted_rollup_member_ids`. The members of a card that was accepted; no other row
has any. -/
def acceptedRollupMemberIds (memory : Row) : List String :=
  match (memory.cell "metadata_json").asObj?.bind fun metadata =>
    (Dict.item metadata "consolidation").asObj? with
  | none => []
  | some consolidation =>
    let kind := Dict.item consolidation "proposal_kind"
    if (if kind.truthy then env.str (.json kind) else "") ≠ rollupProposalKind then []
    else if (Dict.item consolidation "accepted").asObj?.isNone then []
    else
      match (Dict.item consolidation "cluster_member_ids").asArr? with
      | none => []
      | some memberIds =>
        -- the card itself is no member of its own
        fromkeys (((memberIds.filter fun value => decide (value ≠ .null)).map fun value =>
          env.str (.json value)).filter fun memberId => memberId != memory.id env)

/-- `position_of.get(member_id)`: the last position of an id. -/
def poolPositionOf (pool : List RetrievalCandidate) (memberId : String) : Option Nat :=
  (pool.zipIdx.reverse.find? fun entry => decide (entry.1.item.id env = memberId)).map Prod.snd

/-- The slots that the members of a card hold. -/
def slottedPositions (slotCount : Nat) (pool : List RetrievalCandidate)
    (card : RetrievalCandidate) : List Nat :=
  ((acceptedRollupMemberIds env card.item).filterMap (poolPositionOf env pool)).filter
    fun position => decide (position < slotCount)

/-- The move of a candidate, `(member position, card position)`. -/
def cardMove (minSlottedMembers : Int) (slotCount : Nat) (pool : List RetrievalCandidate)
    (entry : RetrievalCandidate × Nat) : Option (Nat ×ₗ Nat) :=
  let slotted := slottedPositions env slotCount pool entry.1
  if (slotted.length : Int) < max 1 minSlottedMembers then none
  else slotted.min?.bind fun target =>
    if entry.2 ≤ target then none else some (toLex (target, entry.2))

/-- The promotions of one pass, at most so many. -/
def promoteCards (minSlottedMembers : Int) (slotCount : Nat) :
    Nat → List RetrievalCandidate → List RetrievalCandidate × Nat
  | 0, pool => (pool, 0)
  | left + 1, pool =>
    match (pool.zipIdx.filterMap (cardMove env minSlottedMembers slotCount pool)).min? with
    | none => (pool, 0)
    | some move =>
      let later := promoteCards minSlottedMembers slotCount left
        (moveUp pool (ofLex move).1 (ofLex move).2)
      (later.1, later.2 + 1)

/-- One round of the loop that rebuilds the candidates. -/
def rebuildPromoted (slotCount : Nat) : RetrievalCandidate × Nat → RetrievalCandidate
  | (candidate, position) =>
    let selected := candidate.rankable && decide (position ≤ slotCount)
    { candidate with
      rank := position
      selected
      exclusionReason :=
        if selected then none
        else if candidate.exclusionReason.isNone then some trimmedByLimit
        else candidate.exclusionReason }

/-- `promote_rollup_cards`. A card moves up to the best place one of its slotted members
has, and no candidate is selected for it that was not before. -/
def promoteRollupCards (maxPromotions minSlottedMembers : Int)
    (candidates : List RetrievalCandidate) : List RetrievalCandidate × Nat :=
  if maxPromotions < 1 ∨ candidates = [] then (candidates, 0)
  else
    let pool := candidates.filter (·.rankable)
    -- candidates that the policy excludes do not compete, and go to the end
    let policyExcluded := candidates.filter fun candidate => !candidate.rankable
    let slotCount := pool.countP (·.selected)
    if slotCount = 0 ∨ pool.length < 2 then (candidates, 0)
    else if pool.all fun candidate => (acceptedRollupMemberIds env candidate.item).isEmpty then
      (candidates, 0)
    else
      let promoted := promoteCards env minSlottedMembers slotCount maxPromotions.toNat pool
      if promoted.2 = 0 then (candidates, 0)
      else (((promoted.1 ++ policyExcluded).zipIdx 1).map (rebuildPromoted slotCount), promoted.2)

end Pass

/-! ### What the pass promises -/

/-- The candidates that hold a slot, or may come to hold one. -/
def rankablePool (candidates : List RetrievalCandidate) : List RetrievalCandidate :=
  candidates.filter (·.rankable)

/-- The candidates that a policy keeps out. -/
def unrankable (candidates : List RetrievalCandidate) : List RetrievalCandidate :=
  candidates.filter fun candidate => !candidate.rankable

/-- The number of slots in use. -/
def slotCount (candidates : List RetrievalCandidate) : Nat :=
  (rankablePool candidates).countP (·.selected)

/-- The selected candidates are the first of the pool. -/
structure SelectedFirst (candidates : List RetrievalCandidate) : Prop where
  first : ∀ candidate ∈ (rankablePool candidates).take (slotCount candidates),
    candidate.selected = true
  excluded : ∀ candidate ∈ unrankable candidates, candidate.selected = false

section Promise

variable (env : RowEnv) (minSlottedMembers : Int)

/-- The target of a card: the best rank of its members in the slots, where enough of them
hold one. -/
def IsTarget (slots : Nat) (pool : List RetrievalCandidate) (card : RetrievalCandidate)
    (target : Nat) : Prop :=
  max 1 minSlottedMembers ≤ (slottedPositions env slots pool card).length ∧
    (slottedPositions env slots pool card).min? = some target

/-- The cards are promoted one after the other, and the candidates come to stand in an
order of which the result is the rebuilt list. -/
structure SlotNeutral (maxPromotions : Int) (candidates cards order : List RetrievalCandidate)
    (result : List RetrievalCandidate) : Prop where
  moves : (cards.length : Int) ≤ max 0 maxPromotions
  promoted : ∃ promotedPool, MovesUp (IsTarget env minSlottedMembers (slotCount candidates))
      (rankablePool candidates) cards promotedPool ∧
    (cards ≠ [] → order = promotedPool ++ unrankable candidates)
  untouched : cards = [] → order = candidates ∧ result = candidates
  perm : order.Perm candidates
  others : ∃ moved rest, moved ⊆ cards ∧ moved.length ≤ cards.length ∧
    (moved ++ rest).Perm (rankablePool candidates) ∧
    rest.Sublist (rankablePool candidates) ∧ rest.Sublist (rankablePool order)
  subjects : result.map (·.subject) = order.map (·.subject)
  slots : result.countP (·.selected) = candidates.countP (·.selected)
  selection : List.Forall₂ (fun before after : RetrievalCandidate => after.selected = true →
    before.rankable = true ∧ (before.selected = true ∨ before ∈ cards)) order result

end Promise

/-! ### The moves -/

section Moves

variable {env : RowEnv} {minSlottedMembers : Int} {slots : Nat}

/-- The move that is chosen is one of a card of the pool, from below its target. -/
theorem cardMove_cases {pool : List RetrievalCandidate} {move : Nat ×ₗ Nat}
    (h : (pool.zipIdx.filterMap (cardMove env minSlottedMembers slots pool)).min? = some move) :
    ∃ card, pool[(ofLex move).2]? = some card ∧ (ofLex move).1 < (ofLex move).2 ∧
      IsTarget env minSlottedMembers slots pool card (ofLex move).1 := by
  obtain ⟨⟨card, position⟩, hentry, hmove⟩ := List.mem_filterMap.mp (List.min?_mem h)
  rw [cardMove] at hmove
  split at hmove
  · cases hmove
  next hslotted =>
  obtain ⟨target, htarget, hmove⟩ := Option.bind_eq_some_iff.mp hmove
  split at hmove
  · cases hmove
  next hlt =>
  obtain rfl := Option.some.inj hmove
  exact ⟨card, List.mem_zipIdx_iff_getElem?.mp hentry, not_le.mp hlt, not_lt.mp hslotted, htarget⟩

/-- The promotions of a pass are a run of moves, each to the target of its card. -/
theorem promoteCards_movesUp (left : Nat) : ∀ pool : List RetrievalCandidate, ∃ cards,
    MovesUp (IsTarget env minSlottedMembers slots) pool cards
      (promoteCards env minSlottedMembers slots left pool).1 ∧
    cards.length = (promoteCards env minSlottedMembers slots left pool).2 ∧
    cards.length ≤ left := by
  induction left with
  | zero =>
    intro pool
    exact ⟨[], MovesUp.done pool, rfl, Nat.le_refl 0⟩
  | succ left ih =>
    intro pool
    rw [promoteCards]
    split
    · exact ⟨[], MovesUp.done pool, rfl, Nat.zero_le _⟩
    next move hmove =>
      obtain ⟨card, hcard, hlt, htarget⟩ := cardMove_cases hmove
      obtain ⟨cards, hmoves, hcount, hle⟩ := ih (moveUp pool (ofLex move).1 (ofLex move).2)
      refine ⟨card :: cards, MovesUp.move hcard hlt htarget hmoves, ?_, Nat.succ_le_succ hle⟩
      rw [List.length_cons, hcount]

end Moves

/-! ### The rebuilt list -/

section Rebuilt

variable {slots : Nat}

/-- Positions in the slots, counted from a position on. -/
theorem countP_rebuildPromoted {rows : List RetrievalCandidate}
    (h : ∀ candidate ∈ rows, candidate.rankable = true) : ∀ position : Nat,
    ((rows.zipIdx position).map (rebuildPromoted slots)).countP (·.selected) =
      min (slots + 1 - position) rows.length := by
  induction rows with
  | nil =>
    intro position
    simp
  | cons candidate rows ih =>
    intro position
    obtain ⟨hfirst, hrest⟩ := List.forall_mem_cons.mp h
    have hselected : (rebuildPromoted slots (candidate, position)).selected =
        decide (position ≤ slots) := by
      rw [rebuildPromoted, hfirst, Bool.true_and]
    rw [List.zipIdx_cons, List.map_cons, List.countP_cons, ih hrest, hselected, List.length_cons]
    -- within the slots a card is selected
    by_cases hslot : position ≤ slots
    · rw [if_pos (decide_eq_true hslot)]
      omega
    · rw [if_neg (by simpa using hslot)]
      omega

/-- No excluded candidate is selected. -/
theorem countP_rebuildPromoted_excluded {rows : List RetrievalCandidate}
    (h : ∀ candidate ∈ rows, candidate.rankable = false) (position : Nat) :
    ((rows.zipIdx position).map (rebuildPromoted slots)).countP (·.selected) = 0 := by
  refine List.countP_eq_zero.mpr fun candidate hmem => ?_
  obtain ⟨⟨before, place⟩, hentry, rfl⟩ := List.mem_map.mp hmem
  rw [rebuildPromoted, h before (List.fst_mem_of_mem_zipIdx hentry)]
  exact Bool.false_ne_true

theorem subjects_rebuildPromoted (rows : List RetrievalCandidate) (position : Nat) :
    ((rows.zipIdx position).map (rebuildPromoted slots)).map (·.subject) =
      rows.map (·.subject) := by
  conv_rhs => rw [← List.zipIdx_map_fst position rows]
  rw [List.map_map, List.map_map]
  rfl

/-- What is selected is in the pool, and stands in one of the slots. -/
theorem selection_rebuildPromoted (rows : List RetrievalCandidate) :
    List.Forall₂ (fun before after : RetrievalCandidate => after.selected = true →
      before.rankable = true ∧ before ∈ rows.take slots) rows
      ((rows.zipIdx 1).map (rebuildPromoted slots)) := by
  rw [List.forall₂_map_right_iff, List.forall₂_iff_get]
  refine ⟨List.length_zipIdx.symm, fun place hplace _ hselected => ?_⟩
  simp only [List.get_eq_getElem, List.getElem_zipIdx, rebuildPromoted, Bool.and_eq_true,
    decide_eq_true_eq] at hselected
  refine ⟨hselected.1, ?_⟩
  rw [List.get_eq_getElem]
  exact List.mem_take_iff_getElem.mpr ⟨place, by omega, rfl⟩

end Rebuilt

/-! ### The promise kept -/

section Kept

variable {env : RowEnv} {maxPromotions minSlottedMembers : Int}
  {candidates cards promotedPool : List RetrievalCandidate}

theorem pool_append_unrankable (candidates : List RetrievalCandidate) :
    (rankablePool candidates ++ unrankable candidates).Perm candidates :=
  List.filter_append_perm _ _

/-- Only the pool holds slots. -/
theorem SelectedFirst.countP (h : SelectedFirst candidates) :
    candidates.countP (·.selected) = slotCount candidates := by
  have hexcluded : (unrankable candidates).countP (·.selected) = 0 :=
    List.countP_eq_zero.mpr fun candidate hmem => by
      rw [h.excluded candidate hmem]
      exact Bool.false_ne_true
  rw [← (pool_append_unrankable candidates).countP_eq, List.countP_append, hexcluded, slotCount,
    Nat.add_zero]

theorem SelectedFirst.rankable (h : SelectedFirst candidates) :
    ∀ candidate ∈ candidates, candidate.selected = true → candidate.rankable = true := by
  intro candidate hmem hselected
  by_contra hnot
  have hexcluded := h.excluded candidate (List.mem_filter.mpr ⟨hmem, by simpa using hnot⟩)
  exact Bool.false_ne_true (hexcluded.symm.trans hselected)

/-- A pass that promotes nothing. -/
theorem slotNeutral_untouched (h : SelectedFirst candidates) :
    SlotNeutral env minSlottedMembers maxPromotions candidates [] candidates candidates where
  moves := le_max_left _ _
  promoted := ⟨rankablePool candidates, MovesUp.done _, fun hne => absurd rfl hne⟩
  untouched := fun _ => ⟨rfl, rfl⟩
  perm := List.Perm.refl _
  others := ⟨[], rankablePool candidates, List.nil_subset _, Nat.le_refl _, List.Perm.refl _,
    List.Sublist.refl _, List.Sublist.refl _⟩
  subjects := rfl
  slots := rfl
  selection := List.forall₂_same.mpr fun candidate hmem hselected =>
    ⟨h.rankable candidate hmem hselected, Or.inl hselected⟩

/-- A run of moves within the pool, rebuilt with the excluded candidates behind it. -/
theorem slotNeutral_promoted (h : SelectedFirst candidates) (hne : cards ≠ [])
    (hle : (cards.length : Int) ≤ maxPromotions)
    (hmoves : MovesUp (IsTarget env minSlottedMembers (slotCount candidates))
      (rankablePool candidates) cards promotedPool) :
    SlotNeutral env minSlottedMembers maxPromotions candidates cards
      (promotedPool ++ unrankable candidates)
      (((promotedPool ++ unrankable candidates).zipIdx 1).map
        (rebuildPromoted (slotCount candidates))) := by
  have hpool : ∀ candidate ∈ promotedPool, candidate.rankable = true := fun candidate hmem =>
    (List.mem_filter.mp (hmoves.perm.mem_iff.mp hmem)).2
  have hexcluded : ∀ candidate ∈ unrankable candidates, candidate.rankable = false :=
    fun candidate hmem => by simpa using (List.mem_filter.mp hmem).2
  have hslots : slotCount candidates ≤ promotedPool.length := by
    rw [hmoves.perm.length_eq]
    exact List.countP_le_length
  have horder : rankablePool (promotedPool ++ unrankable candidates) = promotedPool := by
    rw [rankablePool, List.filter_append, List.filter_eq_self.mpr hpool]
    rw [List.filter_eq_nil_iff.mpr fun candidate hmem => by
      rw [hexcluded candidate hmem]
      exact Bool.false_ne_true]
    exact List.append_nil _
  refine ⟨hle.trans (le_max_right _ _), ⟨promotedPool, hmoves, fun _ => rfl⟩,
    fun hnil => absurd hnil hne, ?_, ?_, subjects_rebuildPromoted _ 1, ?_, ?_⟩
  · exact (hmoves.perm.append_right _).trans (pool_append_unrankable candidates)
  · rw [horder]
    exact hmoves.others
  · rw [List.zipIdx_append, List.map_append, List.countP_append, countP_rebuildPromoted hpool,
      countP_rebuildPromoted_excluded hexcluded, h.countP]
    omega
  · -- the slots are in the pool, and the moves bring cards there and nothing else
    refine (selection_rebuildPromoted _).imp fun before after hselection hselected => ?_
    obtain ⟨hrankable, hslot⟩ := hselection hselected
    rw [List.take_append_of_le_length hslots] at hslot
    exact ⟨hrankable, (hmoves.mem_take hslot).imp_left fun hfirst => h.first before hfirst⟩

/-- **Promotion is slot-neutral.** At most `max_promotions` cards move up, one after the
other, each to the best rank of its slotted members; the other candidates of the pool keep
their order, as many candidates are selected as before, and a candidate that was not selected
before is one of the cards. -/
theorem promoteRollupCards_slotNeutral (h : SelectedFirst candidates) :
    ∃ cards order, SlotNeutral env minSlottedMembers maxPromotions candidates cards order
        (promoteRollupCards env maxPromotions minSlottedMembers candidates).1 ∧
      (promoteRollupCards env maxPromotions minSlottedMembers candidates).2 = cards.length := by
  have huntouched : ∃ cards order, SlotNeutral env minSlottedMembers maxPromotions candidates
      cards order candidates ∧ 0 = cards.length :=
    ⟨[], candidates, slotNeutral_untouched h, rfl⟩
  rw [promoteRollupCards]
  -- nothing to promote: no promotion allowed, no slots, or no card that moves up
  split
  · exact huntouched
  next hmax =>
  dsimp only
  split
  · exact huntouched
  split
  · exact huntouched
  split
  · exact huntouched
  next hsome =>
  have hrun : ∃ cards, MovesUp (IsTarget env minSlottedMembers (slotCount candidates))
      (rankablePool candidates) cards (promoteCards env minSlottedMembers (slotCount candidates)
        maxPromotions.toNat (rankablePool candidates)).1 ∧
      cards.length = (promoteCards env minSlottedMembers (slotCount candidates)
        maxPromotions.toNat (rankablePool candidates)).2 ∧ cards.length ≤ maxPromotions.toNat :=
    promoteCards_movesUp _ _
  obtain ⟨cards, hmoves, hcount, hle⟩ := hrun
  have hne : cards ≠ [] := fun hnil => hsome (hcount ▸ hnil ▸ rfl)
  refine ⟨cards, _, slotNeutral_promoted h hne ?_ hmoves, hcount.symm⟩
  rw [not_or] at hmax
  omega

end Kept

/-! ### A candidate that a policy keeps out -/

/-- A candidate that is known by its id. -/
def namedCandidate (id : String) (selected : Bool) (reason : Option String) (metadata : Json) :
    RetrievalCandidate where
  item := [("id", .json (.str id)), ("metadata_json", .json metadata)]
  targetType := "memory"
  rank := 0
  rrfScore := 0
  stageRanks := []
  selected
  exclusionReason := reason

/-- Two receipts hold the slots. Below them come a private memory, the card, and a note. -/
def privateAboveCard : List RetrievalCandidate :=
  [namedCandidate "first" true none .null, namedCandidate "second" true none .null,
    namedCandidate "private" false (some "sensitivity_filtered") .null,
    namedCandidate "card" false (some trimmedByLimit) (.obj [("consolidation", .obj
      [("proposal_kind", .str "rollup"), ("accepted", .obj []),
        ("cluster_member_ids", .strs ["first", "second"])])]),
    namedCandidate "note" false (some trimmedByLimit) .null]

theorem privateAboveCard_slotNeutral :
    ∃ cards order, SlotNeutral RowEnv.plain 2 2 privateAboveCard cards order
        (promoteRollupCards RowEnv.plain 2 2 privateAboveCard).1 ∧
      (promoteRollupCards RowEnv.plain 2 2 privateAboveCard).2 = cards.length :=
  promoteRollupCards_slotNeutral ⟨by decide +kernel, by decide +kernel⟩

/-- The private memory does not keep its place before the note. -/
theorem excluded_moves_back :
    SelectedFirst privateAboveCard ∧
    (((promoteRollupCards RowEnv.plain 2 2 privateAboveCard).1.map (·.item.id RowEnv.plain)).filter
      (· != "card")) ≠
    (privateAboveCard.map (·.item.id RowEnv.plain)).filter (· != "card") :=
  ⟨⟨by decide +kernel, by decide +kernel⟩, by decide +kernel⟩

end AliceBot
