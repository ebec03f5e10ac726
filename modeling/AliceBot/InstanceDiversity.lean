import AliceBot.Library.Binary64
import AliceBot.RankFusion
import AliceBot.ReadFilter
import Mathlib.Data.Finset.Card

/-!
# Instance diversity

`apply_instance_diversity` walks the fused candidates and demotes one that repeats
a candidate it has kept, so that distinct instances get the slots.

The walk splits what it considers into kept, demoted and unvisited candidates
(`diversityWalk_perm`). It visits the first `limit` candidates at least, and each of
them is kept or has the group of a kept one (`diversityWalk_covers`), which is why no
group loses its slots.

The pass returns its input untouched where it has nothing to demote. Excluded
candidates are then left where the fusion put them, between the others.
-/

namespace AliceBot

open PyLib

/-! ### Fused candidates -/

/-- `RetrievalCandidate`. A row on its way into the pack, with its rank, its scores and
why it is in or out. -/
structure RetrievalCandidate where
  item : Row
  targetType : String
  rank : Nat
  rrfScore : Rat
  stageRanks : Dict Nat
  selected : Bool
  exclusionReason : Option String := none

/-- `RRF_K`. -/
def rrfK : Int := 60

/-- `"trimmed_by_limit"`. -/
def trimmedByLimit : String := "trimmed_by_limit"

section Fused

variable (env : RowEnv) (targetType : String) (domains sensitivityAllowed : List String)
  (limit : Int)

/-- The loop of `_fused_candidates`, from a rank on, with so many selected. -/
def fusedCandidatesFrom : Nat → Nat → List FusedItem → List RetrievalCandidate
  | _, _, [] => []
  | rank, selectedCount, entry :: fused =>
    let reason := exclusionReason entry.item.plain domains sensitivityAllowed
    let selected := reason.isNone && decide ((selectedCount : Int) < limit)
    { item := entry.item, targetType, rank, rrfScore := entry.rrfScore
      stageRanks := entry.stageRanks, selected
      exclusionReason :=
        if selected then reason
        else if reason.isNone then some trimmedByLimit else reason } ::
      fusedCandidatesFrom (rank + 1) (if selected then selectedCount + 1 else selectedCount) fused

/-- `_fused_candidates`. -/
def fusedCandidates (rankedLists : Dict (List Row)) :
    Except FusionError (List RetrievalCandidate) :=
  (reciprocalRankFusion env rrfK rankedLists).map
    (fusedCandidatesFrom targetType domains sensitivityAllowed limit 1 0)

end Fused

/-! ### The pass -/

/-- `candidate.exclusion_reason in _REORDERABLE_EXCLUSION_REASONS`. -/
def RetrievalCandidate.reorderable (candidate : RetrievalCandidate) : Bool :=
  decide (candidate.exclusionReason ∈ [none, some trimmedByLimit])

/-- `EXCLUSION_REASON_COVERAGE_REDUNDANT`. -/
def coverageRedundant : String := "coverage_redundant_demoted"

/-- `DIVERSITY_SIGNATURE_MAX_CHARS`. -/
def diversitySignatureMaxChars : Nat := 4000

/-- `memory_provenance_group_key`: the source, with the chunk if there is one. -/
def memoryProvenanceGroupKey (memory : Row) : Option (String × Option String) := do
  let metadata ← (memory.cell "metadata_json").asObj?
  let sourceId ← ((metadata.get? "source_id").bind Json.asStr?).filter (· != "")
  pure (sourceId, ((metadata.get? "source_chunk_id").bind Json.asStr?).filter (· != ""))

section Pass

variable {γ : Type} [DecidableEq γ] (tokens : String → Finset String)
  (textFor : Option (Row → String)) (groupKeyFor : Option (Row → Option γ)) (threshold : Rat)

/-- `_signature_tokens` of the text of a candidate. -/
def signature (candidate : RetrievalCandidate) : Finset String :=
  match textFor with
  | some text =>
    tokens (String.ofList ((text candidate.item).toList.take diversitySignatureMaxChars))
  | none => tokens ""

/-- `_jaccard`. -/
def jaccard (left right : Finset String) : Rat :=
  if left = ∅ ∨ right = ∅ then 0
  else
    let intersection := (left ∩ right).card
    let union := left.card + right.card - intersection
    (nearestDouble ((intersection : Rat) / (union : Rat))).getD 0

/-- `group_key`. -/
def groupKey (candidate : RetrievalCandidate) : Option γ :=
  groupKeyFor.bind fun key => key candidate.item

/-- The candidate repeats one that was kept. -/
def redundant (kept : List RetrievalCandidate) (candidate : RetrievalCandidate) : Bool :=
  let redundantGroup := (groupKey groupKeyFor candidate).isSome &&
    kept.any fun other => groupKey groupKeyFor other = groupKey groupKeyFor candidate
  let redundantText := textFor.isSome && kept.any fun other =>
    decide (threshold ≤
      jaccard (signature tokens textFor candidate) (signature tokens textFor other))
  redundantGroup || redundantText

/-- What the walk made of the candidates it was given. -/
structure DiversityWalk where
  kept : List RetrievalCandidate
  demoted : List RetrievalCandidate
  unvisited : List RetrievalCandidate

/-- The walk, with the candidates kept so far. -/
def diversityWalk (limit : Int) (kept : List RetrievalCandidate) :
    List RetrievalCandidate → DiversityWalk
  | [] => ⟨kept, [], []⟩
  | candidate :: rest =>
    if limit ≤ kept.length then ⟨kept, [], candidate :: rest⟩
    else if redundant tokens textFor groupKeyFor threshold kept candidate then
      let walk := diversityWalk limit kept rest
      { walk with demoted := candidate :: walk.demoted }
    else diversityWalk limit (kept ++ [candidate]) rest

/-- One round of the loop that rebuilds the candidates. -/
def rebuildCandidate (selectedSlots : Int) :
    (RetrievalCandidate × Bool) × Nat → RetrievalCandidate
  | ((candidate, demoted), position) =>
    let selected := candidate.reorderable && decide ((position : Int) ≤ selectedSlots)
    { candidate with
      rank := position
      selected
      exclusionReason :=
        if selected then none
        else if candidate.reorderable = false then candidate.exclusionReason
        else if demoted then some coverageRedundant else some trimmedByLimit }

/-- `apply_instance_diversity`. The displaced candidates in the order of their
indices are the demoted ones and then the unvisited ones. -/
def applyInstanceDiversity (candidates : List RetrievalCandidate) (limit considerMultiplier : Int) :
    List RetrievalCandidate × Nat :=
  if limit < 1 ∨ candidates = [] ∨ textFor.isNone ∧ groupKeyFor.isNone then (candidates, 0)
  else
    let reorderable := candidates.filter (·.reorderable)
    if reorderable.length ≤ limit then (candidates, 0)
    else
      let policyExcluded := candidates.filter fun candidate => !candidate.reorderable
      -- only the first candidates are looked at, a multiple of the limit
      let consider := reorderable.take (max (limit * considerMultiplier) limit).toNat
      let tail := reorderable.drop consider.length
      let walk := diversityWalk tokens textFor groupKeyFor threshold limit [] consider
      if walk.demoted = [] then (candidates, 0)
      else
        -- what is kept, then what was displaced, then what was not looked at
        let reordered := walk.kept.map (·, false) ++
          (walk.demoted.map (·, true) ++ walk.unvisited.map (·, false)) ++ tail.map (·, false)
        let selectedSlots := min limit reordered.length
        (((reordered ++ policyExcluded.map (·, false)).zipIdx 1).map
          (rebuildCandidate selectedSlots), walk.demoted.length)

end Pass

/-! ### What the pass promises -/

/-- A candidate without what the passes assign. -/
def RetrievalCandidate.subject (candidate : RetrievalCandidate) : RetrievalCandidate :=
  { candidate with rank := 0, selected := false, exclusionReason := none }

/-- The candidates that may take a slot. -/
def pool (candidates : List RetrievalCandidate) : List RetrievalCandidate :=
  candidates.filter (·.reorderable)

/-- The candidates that a policy keeps out. -/
def policyExcluded (candidates : List RetrievalCandidate) : List RetrievalCandidate :=
  candidates.filter fun candidate => !candidate.reorderable

section Promise

variable (env : RowEnv) {γ : Type} (groupKeyFor : Option (Row → Option γ)) (limit : Int)

/-- A list as the fusion ranks it: numbered from 1, the first `limit` candidates of
the pool selected and no others. -/
structure RankedFor (candidates : List RetrievalCandidate) : Prop where
  ranks : candidates.map (·.rank) = List.range' 1 candidates.length
  first : ∀ candidate ∈ (pool candidates).take limit.toNat, candidate.selected = true
  rest : ∀ candidate ∈ (pool candidates).drop limit.toNat, candidate.selected = false
  excluded : ∀ candidate ∈ policyExcluded candidates, candidate.selected = false

/-- The slots are reordered: the same candidates, numbered from 1, the excluded ones
not selected, all slots used and no group of the first candidates without one. -/
structure SlotsReordered (candidates result : List RetrievalCandidate) : Prop where
  perm : (result.map (·.subject)).Perm (candidates.map (·.subject))
  ranks : result.map (·.rank) = List.range' 1 result.length
  excluded : ∀ candidate ∈ policyExcluded candidates, ∀ other ∈ result,
    other.item.id env = candidate.item.id env → other.selected = false
  slots : result.countP (·.selected) = min limit.toNat (pool candidates).length
  covers : ∀ candidate ∈ (pool candidates).take limit.toNat,
    (groupKey groupKeyFor candidate).isSome →
    ∃ other ∈ result, other.selected = true ∧
      groupKey groupKeyFor other = groupKey groupKeyFor candidate

/-- The excluded candidates come last. -/
def ExcludedLast (candidates result : List RetrievalCandidate) : Prop :=
  ∃ front back, result = front ++ back ∧
    back.map (·.subject) = (policyExcluded candidates).map (·.subject)

end Promise

/-! ### What the fusion hands over -/

section Ranked

variable {targetType : String} {domains sensitivityAllowed : List String} {limit : Int}

theorem exclusionReason_ne_trimmedByLimit (item : Dict Json) :
    exclusionReason item domains sensitivityAllowed ≠ some trimmedByLimit := by
  rw [exclusionReason]
  split
  · decide
  · split <;> decide

/-- The candidates numbered from a rank on, where so many were selected before. -/
structure RankedFrom (limit : Int) (rank selectedCount : Nat)
    (candidates : List RetrievalCandidate) : Prop where
  ranks : candidates.map (·.rank) = List.range' rank candidates.length
  first : ∀ candidate ∈ (pool candidates).take (limit.toNat - selectedCount),
    candidate.selected = true
  rest : ∀ candidate ∈ (pool candidates).drop (limit.toNat - selectedCount),
    candidate.selected = false
  excluded : ∀ candidate ∈ policyExcluded candidates, candidate.selected = false

section Cons

variable {rank selectedCount : Nat} {candidate : RetrievalCandidate}
  {candidates : List RetrievalCandidate}

/-- A candidate that gets a slot. -/
theorem RankedFrom.cons_selected (h : RankedFrom limit (rank + 1) (selectedCount + 1) candidates)
    (hrank : candidate.rank = rank) (hpool : candidate.reorderable = true)
    (hselected : candidate.selected = true) (hslot : selectedCount < limit.toNat) :
    RankedFrom limit rank selectedCount (candidate :: candidates) := by
  have hcons : pool (candidate :: candidates) = candidate :: pool candidates :=
    List.filter_cons_of_pos hpool
  have hexcluded : policyExcluded (candidate :: candidates) = policyExcluded candidates :=
    List.filter_cons_of_neg (by simp [hpool])
  have hleft : limit.toNat - selectedCount = limit.toNat - (selectedCount + 1) + 1 := by omega
  refine ⟨?_, ?_, ?_, hexcluded ▸ h.excluded⟩
  · rw [List.map_cons, List.length_cons, List.range'_succ, hrank, h.ranks]
  · rw [hcons, hleft, List.take_succ_cons]
    exact List.forall_mem_cons.mpr ⟨hselected, h.first⟩
  · rw [hcons, hleft, List.drop_succ_cons]
    exact h.rest

/-- A candidate of the pool for which no slot is left. -/
theorem RankedFrom.cons_trimmed (h : RankedFrom limit (rank + 1) selectedCount candidates)
    (hrank : candidate.rank = rank) (hpool : candidate.reorderable = true)
    (hselected : candidate.selected = false) (hslot : limit.toNat ≤ selectedCount) :
    RankedFrom limit rank selectedCount (candidate :: candidates) := by
  have hcons : pool (candidate :: candidates) = candidate :: pool candidates :=
    List.filter_cons_of_pos hpool
  have hexcluded : policyExcluded (candidate :: candidates) = policyExcluded candidates :=
    List.filter_cons_of_neg (by simp [hpool])
  have hnone : limit.toNat - selectedCount = 0 := Nat.sub_eq_zero_of_le hslot
  refine ⟨?_, ?_, ?_, hexcluded ▸ h.excluded⟩
  · rw [List.map_cons, List.length_cons, List.range'_succ, hrank, h.ranks]
  · rw [hnone, List.take_zero]
    exact fun _ hmem => absurd hmem List.not_mem_nil
  · have hrest := h.rest
    rw [hnone, List.drop_zero] at hrest ⊢
    rw [hcons]
    exact List.forall_mem_cons.mpr ⟨hselected, hrest⟩

/-- A candidate that a policy keeps out. -/
theorem RankedFrom.cons_excluded (h : RankedFrom limit (rank + 1) selectedCount candidates)
    (hrank : candidate.rank = rank) (hpool : candidate.reorderable = false)
    (hselected : candidate.selected = false) :
    RankedFrom limit rank selectedCount (candidate :: candidates) := by
  have hsame : pool (candidate :: candidates) = pool candidates :=
    List.filter_cons_of_neg (by simp [hpool])
  have hexcluded : policyExcluded (candidate :: candidates) =
      candidate :: policyExcluded candidates :=
    List.filter_cons_of_pos (by simp [hpool])
  refine ⟨?_, hsame ▸ h.first, hsame ▸ h.rest, ?_⟩
  · rw [List.map_cons, List.length_cons, List.range'_succ, hrank, h.ranks]
  · rw [hexcluded]
    exact List.forall_mem_cons.mpr ⟨hselected, h.excluded⟩

end Cons

/-- Fused candidates are ranked for the slots: selected while there are some, and marked
as trimmed from there on. -/
theorem rankedFrom_fusedCandidatesFrom (fused : List FusedItem) (rank selectedCount : Nat) :
    RankedFrom limit rank selectedCount
      (fusedCandidatesFrom targetType domains sensitivityAllowed limit rank selectedCount
        fused) := by
  induction fused generalizing rank selectedCount with
  | nil => exact ⟨rfl, by simp [fusedCandidatesFrom, pool], by simp [fusedCandidatesFrom, pool],
      by simp [fusedCandidatesFrom, policyExcluded]⟩
  | cons entry fused ih =>
    have hreason : exclusionReason entry.item.plain domains sensitivityAllowed ≠
      some trimmedByLimit := exclusionReason_ne_trimmedByLimit _
    rw [fusedCandidatesFrom]
    -- selected while there are slots, then trimmed, or excluded by the policy
    cases hallowed : exclusionReason entry.item.plain domains sensitivityAllowed with
    | none =>
      by_cases hslot : (selectedCount : Int) < limit
      · rw [decide_eq_true hslot]
        exact (ih (rank + 1) (selectedCount + 1)).cons_selected rfl rfl rfl (by omega)
      · rw [decide_eq_false hslot]
        exact (ih (rank + 1) selectedCount).cons_trimmed rfl rfl rfl (by omega)
    | some reason =>
      rw [hallowed] at hreason
      refine (ih (rank + 1) selectedCount).cons_excluded rfl ?_ rfl
      simpa [RetrievalCandidate.reorderable] using hreason

/-- The candidates of `_fused_candidates` are ranked for its limit. -/
theorem rankedFor_fusedCandidates (env : RowEnv) {rankedLists : Dict (List Row)}
    {candidates : List RetrievalCandidate}
    (h : fusedCandidates env targetType domains sensitivityAllowed limit rankedLists =
      .ok candidates) : RankedFor limit candidates := by
  rw [fusedCandidates] at h
  cases hfused : reciprocalRankFusion env rrfK rankedLists with
  | error e =>
    rw [hfused] at h
    cases h
  | ok fused =>
    rw [hfused] at h
    obtain rfl := Except.ok.inj h
    have hranked : RankedFrom limit 1 0 (fusedCandidatesFrom targetType domains
      sensitivityAllowed limit 1 0 fused) := rankedFrom_fusedCandidatesFrom fused 1 0
    exact ⟨hranked.ranks, hranked.first, hranked.rest, hranked.excluded⟩

end Ranked

/-! ### The walk -/

section Walk

variable {γ : Type} [DecidableEq γ] {tokens : String → Finset String}
  {textFor : Option (Row → String)} {groupKeyFor : Option (Row → Option γ)} {threshold : Rat}
  {limit : Int}

/-- The walk loses no candidate. -/
theorem diversityWalk_perm (kept rest : List RetrievalCandidate) :
    let walk := diversityWalk tokens textFor groupKeyFor threshold limit kept rest
    (walk.kept ++ (walk.demoted ++ walk.unvisited)).Perm (kept ++ rest) := by
  induction rest generalizing kept with
  | nil => exact List.Perm.refl _
  | cons candidate rest ih =>
    rw [diversityWalk]
    split
    · exact List.Perm.refl _
    · split
      · -- a demoted candidate leaves its place for the front of the demoted ones
        exact List.perm_middle.trans ((ih kept).cons candidate |>.trans List.perm_middle.symm)
      · have hrest := ih (kept ++ [candidate])
        rwa [List.append_assoc, List.singleton_append] at hrest

theorem kept_isPrefix (kept rest : List RetrievalCandidate) :
    kept <+: (diversityWalk tokens textFor groupKeyFor threshold limit kept rest).kept := by
  induction rest generalizing kept with
  | nil => exact List.prefix_refl _
  | cons candidate rest ih =>
    rw [diversityWalk]
    split
    · exact List.prefix_refl _
    · split
      · exact ih kept
      · exact (List.prefix_append kept [candidate]).trans (ih _)

/-- No more candidates are kept than there are slots. -/
theorem length_kept_le {kept : List RetrievalCandidate} (h : (kept.length : Int) ≤ limit)
    (rest : List RetrievalCandidate) :
    ((diversityWalk tokens textFor groupKeyFor threshold limit kept rest).kept.length : Int) ≤
      limit := by
  induction rest generalizing kept with
  | nil => exact h
  | cons candidate rest ih =>
    rw [diversityWalk]
    split
    · exact h
    · next hfree =>
      split
      · exact ih h
      · refine ih ?_
        rw [List.length_append, List.length_singleton]
        push_cast
        omega

/-- **The walk covers the groups** of the candidates it comes to before the slots are
used up: each is kept, or repeats the group of one that was kept. -/
theorem diversityWalk_covers {kept : List RetrievalCandidate} (rest : List RetrievalCandidate)
    {n : Nat} (hn : (kept.length + n : Int) ≤ limit) :
    ∀ candidate ∈ rest.take n, (groupKey groupKeyFor candidate).isSome →
      ∃ other ∈ (diversityWalk tokens none groupKeyFor threshold limit kept rest).kept,
        groupKey groupKeyFor other = groupKey groupKeyFor candidate := by
  induction rest generalizing kept n with
  | nil => simp
  | cons first rest ih =>
    cases n with
    | zero => simp
    | succ n =>
      have hfree : ¬ limit ≤ kept.length := by
        push_cast at hn
        omega
      intro candidate hmem hgroup
      rw [List.take_succ_cons, List.mem_cons] at hmem
      rw [diversityWalk, if_neg hfree]
      split
      · next hredundant =>
        obtain rfl | hmem := hmem
        · -- without texts, a candidate repeats a group
          obtain ⟨other, hother, hsame⟩ : ∃ other ∈ kept,
              groupKey groupKeyFor other = groupKey groupKeyFor candidate := by
            simpa [redundant, hgroup] using hredundant
          exact ⟨other, (kept_isPrefix kept rest).subset hother, hsame⟩
        · exact ih (n := n) (by push_cast at hn; omega) candidate hmem hgroup
      · obtain rfl | hmem := hmem
        · refine ⟨candidate, (kept_isPrefix _ rest).subset ?_, rfl⟩
          exact List.mem_append_right _ (List.mem_singleton_self _)
        · refine ih (n := n) ?_ candidate hmem hgroup
          rw [List.length_append, List.length_singleton]
          push_cast at hn ⊢
          omega

end Walk

/-! ### The rebuilt list -/

section Rebuilt

variable {slots : Int}

@[simp] theorem rebuildCandidate_subject (row : (RetrievalCandidate × Bool) × Nat) :
    (rebuildCandidate slots row).subject = row.1.1.subject := rfl

@[simp] theorem rebuildCandidate_item (row : (RetrievalCandidate × Bool) × Nat) :
    (rebuildCandidate slots row).item = row.1.1.item := rfl

/-- The list rebuilt from a position on. -/
def rebuilt (slots : Int) (position : Nat) (rows : List (RetrievalCandidate × Bool)) :
    List RetrievalCandidate :=
  (rows.zipIdx position).map (rebuildCandidate slots)

theorem rebuilt_append (position : Nat) (rows more : List (RetrievalCandidate × Bool)) :
    rebuilt slots position (rows ++ more) =
      rebuilt slots position rows ++ rebuilt slots (position + rows.length) more := by
  rw [rebuilt, List.zipIdx_append, List.map_append]
  rfl

theorem length_rebuilt (position : Nat) (rows : List (RetrievalCandidate × Bool)) :
    (rebuilt slots position rows).length = rows.length := by
  rw [rebuilt, List.length_map, List.length_zipIdx]

theorem subjects_rebuilt (position : Nat) (rows : List (RetrievalCandidate × Bool)) :
    (rebuilt slots position rows).map (·.subject) = (rows.map Prod.fst).map (·.subject) := by
  conv_rhs => rw [← List.zipIdx_map_fst position rows]
  rw [rebuilt, List.map_map, List.map_map, List.map_map]
  rfl

theorem ranks_rebuilt (position : Nat) (rows : List (RetrievalCandidate × Bool)) :
    (rebuilt slots position rows).map (·.rank) = List.range' position rows.length := by
  rw [rebuilt, List.map_map, ← List.zipIdx_map_snd position rows]
  rfl

theorem selected_rebuilt_excluded {position : Nat} {rows : List (RetrievalCandidate × Bool)}
    (h : ∀ row ∈ rows, row.1.reorderable = false) :
    ∀ candidate ∈ rebuilt slots position rows, candidate.selected = false := by
  intro candidate hmem
  obtain ⟨row, hrow, rfl⟩ := List.mem_map.mp hmem
  have hexcluded := h row.1 (List.fst_mem_of_mem_zipIdx hrow)
  simp [rebuildCandidate, hexcluded]

/-- As many candidates of the pool are selected as there are slots for them. -/
theorem countP_rebuilt {position : Nat} {rows : List (RetrievalCandidate × Bool)}
    (h : ∀ row ∈ rows, row.1.reorderable = true) :
    (rebuilt slots position rows).countP (·.selected) =
      min (slots + 1 - position).toNat rows.length := by
  induction rows generalizing position with
  | nil => simp [rebuilt]
  | cons row rows ih =>
    obtain ⟨hfirst, hrest⟩ := List.forall_mem_cons.mp h
    have hcons : rebuilt slots position (row :: rows) =
        rebuildCandidate slots (row, position) :: rebuilt slots (position + 1) rows := rfl
    have hselected : (rebuildCandidate slots (row, position)).selected =
        decide ((position : Int) ≤ slots) := by
      simp [rebuildCandidate, hfirst]
    rw [hcons, List.countP_cons, ih hrest, hselected, List.length_cons]
    -- a place within the slots counts, and those behind them do not
    by_cases hslot : (position : Int) ≤ slots
    · rw [if_pos (decide_eq_true hslot)]
      push_cast
      omega
    · rw [if_neg (by simpa using hslot)]
      push_cast
      omega

/-- The candidates in front of the last slot are selected. -/
theorem exists_selected_rebuilt {position : Nat} {rows : List (RetrievalCandidate × Bool)}
    (more : List (RetrievalCandidate × Bool)) (hpool : ∀ row ∈ rows, row.1.reorderable = true)
    (hslots : (position + rows.length : Int) ≤ slots + 1) :
    ∀ row ∈ rows, ∃ candidate ∈ rebuilt slots position (rows ++ more),
      candidate.selected = true ∧ candidate.item = row.1.item := by
  intro row hrow
  rw [← List.zipIdx_map_fst position rows] at hrow
  obtain ⟨⟨row, place⟩, hplace, rfl⟩ := List.mem_map.mp hrow
  obtain ⟨-, hlt, -⟩ := List.mem_zipIdx hplace
  refine ⟨rebuildCandidate slots (row, place), ?_, ?_, rfl⟩
  · rw [rebuilt_append]
    exact List.mem_append_left _ (List.mem_map_of_mem hplace)
  · have hreorderable := hpool row (List.fst_mem_of_mem_zipIdx hplace)
    have hslot : (place : Int) ≤ slots := by omega
    simp [rebuildCandidate, hreorderable, hslot]

end Rebuilt

/-! ### The promise kept -/

section Kept

variable {env : RowEnv} {γ : Type} [DecidableEq γ] {tokens : String → Finset String}
  {groupKeyFor : Option (Row → Option γ)} {threshold : Rat} {limit considerMultiplier : Int}
  {candidates : List RetrievalCandidate}

/-- What a pass does that demotes something: the kept candidates come first, then the
rest of the pool, then the excluded ones. -/
structure Diversified (groupKeyFor : Option (Row → Option γ)) (limit : Int)
    (candidates : List RetrievalCandidate) (kept : List RetrievalCandidate)
    (rest : List (RetrievalCandidate × Bool)) : Prop where
  limit_pos : 1 ≤ limit
  deep : limit < (pool candidates).length
  perm : (kept ++ rest.map Prod.fst).Perm (pool candidates)
  slots : (kept.length : Int) ≤ limit
  covers : ∀ candidate ∈ (pool candidates).take limit.toNat,
    (groupKey groupKeyFor candidate).isSome →
    ∃ other ∈ kept, groupKey groupKeyFor other = groupKey groupKeyFor candidate

/-- The list that such a pass returns. -/
def diversifiedList (limit : Int) (candidates kept : List RetrievalCandidate)
    (rest : List (RetrievalCandidate × Bool)) : List RetrievalCandidate :=
  rebuilt limit 1 ((kept.map (·, false) ++ rest) ++ (policyExcluded candidates).map (·, false))

/-- The two outcomes of diversity: the list as it was, or the slots refilled from the
pool with what was displaced behind them. -/
theorem applyInstanceDiversity_cases (tokens : String → Finset String)
    (groupKeyFor : Option (Row → Option γ)) (threshold : Rat)
    (candidates : List RetrievalCandidate) (limit considerMultiplier : Int) :
    applyInstanceDiversity tokens none groupKeyFor threshold candidates limit
        considerMultiplier = (candidates, 0) ∨
      ∃ kept rest demotions, Diversified groupKeyFor limit candidates kept rest ∧
        demotions ≠ 0 ∧
        applyInstanceDiversity tokens none groupKeyFor threshold candidates limit
          considerMultiplier = (diversifiedList limit candidates kept rest, demotions) := by
  have hdef := applyInstanceDiversity.eq_1 tokens none groupKeyFor threshold candidates limit
    considerMultiplier
  split at hdef
  · exact .inl hdef
  next hlimit =>
  rw [not_or, not_lt] at hlimit
  dsimp only at hdef
  split at hdef
  · exact .inl hdef
  next hdeep =>
  split at hdef
  · exact .inl hdef
  next hdemoted =>
  right
  let consider := (pool candidates).take (max (limit * considerMultiplier) limit).toNat
  let walk := diversityWalk tokens none groupKeyFor threshold limit [] consider
  let tail := (pool candidates).drop consider.length
  let rest := (walk.demoted.map (·, true) ++ walk.unvisited.map (·, false)) ++ tail.map (·, false)
  have hperm : (walk.kept ++ rest.map Prod.fst).Perm (pool candidates) := by
    have htail : consider ++ tail = pool candidates :=
      List.prefix_iff_eq_append.mp (List.take_prefix _ _)
    simp only [rest, List.map_append, List.map_map, Function.comp_def, List.map_id']
    rw [← List.append_assoc, ← htail]
    exact (diversityWalk_perm [] consider).append_right tail
  have hnone : (([] : List RetrievalCandidate).length : Int) ≤ limit := by
    simp only [List.length_nil, Nat.cast_zero]
    omega
  refine ⟨walk.kept, rest, walk.demoted.length, ?_, ?_, ?_⟩
  · refine ⟨hlimit.1, not_le.mp hdeep, hperm, length_kept_le hnone _, ?_⟩
    -- the walk is given the first `limit` candidates of the pool at least
    have hfirst : (pool candidates).take limit.toNat = consider.take limit.toNat := by
      rw [List.take_take, min_eq_left (Int.toNat_le_toNat (le_max_right _ _))]
    rw [hfirst]
    exact diversityWalk_covers consider (by simp; omega)
  · exact fun h => hdemoted (List.length_eq_zero_iff.mp h)
  · -- the pool has more than `limit` candidates, so each slot is used
    have hrows : walk.kept.map (·, false) ++ (walk.demoted.map (·, true) ++
        walk.unvisited.map (·, false)) ++ tail.map (·, false) =
        walk.kept.map (·, false) ++ rest := List.append_assoc _ _ _
    have hslots : min limit ((walk.kept.map (·, false) ++ rest).length : Int) = limit := by
      have hlength := hperm.length_eq
      rw [List.length_append, List.length_map] at hlength
      refine min_eq_left ?_
      rw [List.length_append, List.length_map, hlength]
      exact (not_le.mp hdeep).le
    have hlist : rebuilt (min limit ((walk.kept.map (·, false) ++ rest).length : Int)) 1
        ((walk.kept.map (·, false) ++ rest) ++ (policyExcluded candidates).map (·, false)) =
        diversifiedList limit candidates walk.kept rest := by
      rw [hslots, diversifiedList]
    rw [hdef, ← hlist, ← hrows]
    rfl

variable {kept : List RetrievalCandidate} {rest : List (RetrievalCandidate × Bool)}

omit [DecidableEq γ] in
/-- Everything that was promised holds where something was demoted. -/
theorem Diversified.slotsReordered (h : Diversified groupKeyFor limit candidates kept rest)
    (hids : (candidates.map fun candidate => candidate.item.id env).Nodup) :
    SlotsReordered env groupKeyFor limit candidates
      (diversifiedList limit candidates kept rest) := by
  have hrows : (kept.map (·, false) ++ rest).map Prod.fst = kept ++ rest.map Prod.fst := by
    rw [List.map_append, List.map_map]
    exact congrArg (· ++ _) (List.map_id' kept)
  have hpool : ∀ row ∈ kept.map (·, false) ++ rest, row.1.reorderable = true := by
    intro row hrow
    have hmem : row.1 ∈ pool candidates :=
      h.perm.mem_iff.mp (hrows ▸ List.mem_map_of_mem hrow)
    exact (List.mem_filter.mp hmem).2
  have hexcluded : ∀ row ∈ (policyExcluded candidates).map (·, false),
      row.1.reorderable = false := by
    intro row hrow
    obtain ⟨candidate, hmem, rfl⟩ := List.mem_map.mp hrow
    simpa using (List.mem_filter.mp hmem).2
  -- kept and demoted rows together are the pool
  have hlength : (kept.map (·, false) ++ rest).length = (pool candidates).length := by
    rw [← h.perm.length_eq, ← hrows, List.length_map]
  have hall : (kept.map (·, false) ++ rest ++ (policyExcluded candidates).map (·, false)).map
      Prod.fst = (kept ++ rest.map Prod.fst) ++ policyExcluded candidates := by
    rw [List.map_append, hrows, List.map_map]
    exact congrArg (_ ++ ·) (List.map_id' _)
  refine ⟨?_, ?_, ?_, ?_, ?_⟩
  · rw [diversifiedList, subjects_rebuilt, hall]
    refine List.Perm.map _ ((h.perm.append_right _).trans ?_)
    exact List.filter_append_perm _ candidates
  · rw [diversifiedList, ranks_rebuilt, length_rebuilt]
  · intro candidate hmem other hother hsame
    rw [diversifiedList, rebuilt_append, List.mem_append] at hother
    obtain hother | hother := hother
    · -- the candidate with this id would be in the pool
      obtain ⟨row, hrow, rfl⟩ := List.mem_map.mp hother
      have hrow' := List.fst_mem_of_mem_zipIdx hrow
      have hmem' : row.1.1 ∈ pool candidates :=
        h.perm.mem_iff.mp (hrows ▸ List.mem_map_of_mem hrow')
      have heq := List.inj_on_of_nodup_map hids (List.mem_filter.mp hmem').1
        (List.mem_filter.mp hmem).1 hsame
      have hin := hpool row.1 hrow'
      have hout := (List.mem_filter.mp hmem).2
      rw [← heq, hin] at hout
      exact absurd hout (by decide)
    · exact selected_rebuilt_excluded hexcluded other hother
  · rw [diversifiedList, rebuilt_append, List.countP_append, countP_rebuilt hpool, hlength,
      List.countP_eq_zero.mpr fun candidate hmem => by
        simp [selected_rebuilt_excluded hexcluded candidate hmem]]
    push_cast
    omega
  · -- a group that had a slot has one row among those kept, which come first
    intro candidate hmem hgroup
    obtain ⟨other, hother, hsame⟩ := h.covers candidate hmem hgroup
    have hkept : ∀ row ∈ kept.map (·, false), row.1.reorderable = true := fun row hrow =>
      hpool row (List.mem_append_left _ hrow)
    have hslots : ((1 : Nat) + (kept.map (·, false)).length : Int) ≤ limit + 1 := by
      have := h.slots
      rw [List.length_map]
      push_cast
      omega
    obtain ⟨chosen, hchosen, hselected, hitem⟩ :=
      exists_selected_rebuilt (rest ++ (policyExcluded candidates).map (·, false))
        hkept hslots (other, false) (List.mem_map_of_mem hother)
    refine ⟨chosen, ?_, hselected, ?_⟩
    · rwa [diversifiedList, List.append_assoc]
    · rw [← hsame, groupKey, hitem]
      rfl

theorem excludedLast_diversifiedList :
    ExcludedLast candidates (diversifiedList limit candidates kept rest) := by
  have hexcluded : ((policyExcluded candidates).map (·, false)).map Prod.fst =
      policyExcluded candidates := by
    rw [List.map_map]
    exact List.map_id' _
  refine ⟨_, _, rebuilt_append _ _ _, ?_⟩
  rw [subjects_rebuilt, hexcluded]

omit [DecidableEq γ] in
/-- A list that is ranked for the slots already keeps the promise. -/
theorem RankedFor.slotsReordered (h : RankedFor limit candidates)
    (hids : (candidates.map fun candidate => candidate.item.id env).Nodup) :
    SlotsReordered env groupKeyFor limit candidates candidates := by
  refine ⟨List.Perm.refl _, h.ranks, fun candidate hmem other hother hsame => ?_, ?_, ?_⟩
  · have heq := List.inj_on_of_nodup_map hids hother (List.mem_filter.mp hmem).1 hsame
    exact h.excluded other (heq ▸ hmem)
  · -- the selected candidates are the first ones of the pool
    have hsplit : (pool candidates ++ policyExcluded candidates).Perm candidates :=
      List.filter_append_perm _ candidates
    have hfirst : ((pool candidates).take limit.toNat).countP (·.selected) =
        ((pool candidates).take limit.toNat).length :=
      List.countP_eq_length.mpr h.first
    have hrest : ((pool candidates).drop limit.toNat).countP (·.selected) = 0 :=
      List.countP_eq_zero.mpr fun candidate hmem => by simp [h.rest candidate hmem]
    have hexcluded : (policyExcluded candidates).countP (·.selected) = 0 :=
      List.countP_eq_zero.mpr fun candidate hmem => by simp [h.excluded candidate hmem]
    rw [← hsplit.countP_eq, List.countP_append, hexcluded,
      ← List.take_append_drop limit.toNat (pool candidates), List.countP_append, hfirst, hrest,
      List.take_append_drop, List.length_take]
    rfl
  · intro candidate hmem _
    have hpool := List.mem_of_mem_take hmem
    exact ⟨candidate, (List.mem_filter.mp hpool).1, h.first candidate hmem, rfl⟩

/-- **Instance diversity reorders slots only.** Where nothing is demoted the list is
returned as it is. Where something is, the slots are reordered and the excluded
candidates come last. For a list that is ranked for the slots, they are reordered
either way. -/
theorem applyInstanceDiversity_reorders (env : RowEnv) (tokens : String → Finset String)
    (groupKeyFor : Option (Row → Option γ)) (threshold : Rat)
    (candidates : List RetrievalCandidate) (limit considerMultiplier : Int)
    (hids : (candidates.map fun candidate => candidate.item.id env).Nodup) :
    let diversified := applyInstanceDiversity tokens none groupKeyFor threshold candidates limit
      considerMultiplier
    (diversified.2 = 0 → diversified.1 = candidates) ∧
      (diversified.2 ≠ 0 ∨ RankedFor limit candidates →
        SlotsReordered env groupKeyFor limit candidates diversified.1) ∧
      (diversified.2 ≠ 0 → ExcludedLast candidates diversified.1) := by
  dsimp only
  obtain hsame | ⟨kept, rest, demotions, h, hdemotions, hchanged⟩ :=
    applyInstanceDiversity_cases tokens groupKeyFor threshold candidates limit considerMultiplier
  · rw [hsame]
    refine ⟨fun _ => rfl, fun h => ?_, fun h => absurd rfl h⟩
    exact (h.resolve_left fun h => h rfl).slotsReordered hids
  · rw [hchanged]
    exact ⟨fun h => absurd h hdemotions, fun _ => h.slotsReordered hids,
      fun _ => excludedLast_diversifiedList⟩

end Kept

/-! ### Three candidates -/

/-- A candidate for a memory of a source. -/
def memoryCandidate (itemId sourceId : String) (rank : Nat) (exclusionReason : Option String) :
    RetrievalCandidate where
  item := [("id", .json (.str itemId)),
    ("metadata_json", .json (.obj [("source_id", .str sourceId)]))]
  targetType := "memory"
  rank
  rrfScore := 1 / 61
  stageRanks := []
  selected := exclusionReason.isNone
  exclusionReason

/-- The second candidate repeats the source of the first one. -/
def restated : List RetrievalCandidate :=
  [memoryCandidate "a" "s" 1 none, memoryCandidate "b" "s" 2 none,
    memoryCandidate "c" "t" 3 (some trimmedByLimit)]

/-- It gives its slot to the third one. -/
theorem applyInstanceDiversity_restated :
    SlotsReordered RowEnv.plain (some memoryProvenanceGroupKey) 2 restated
      (applyInstanceDiversity (fun _ => ∅) none (some memoryProvenanceGroupKey) 1 restated 2
        3).1 :=
  (applyInstanceDiversity_reorders RowEnv.plain _ _ _ restated 2 3 (by decide +kernel)).2.1
    (.inl (by decide +kernel))

/-- The fusion leaves an excluded candidate between two others. -/
def interleaved : List RetrievalCandidate :=
  [memoryCandidate "a" "s" 1 none, memoryCandidate "b" "t" 2 (some "domain_filtered"),
    memoryCandidate "c" "u" 3 none]

/-- The pass has nothing to demote there, and leaves it where it is. -/
theorem excluded_between :
    RankedFor 2 interleaved ∧
      (interleaved.map fun candidate => candidate.item.id RowEnv.plain).Nodup ∧
      ¬ ExcludedLast interleaved (applyInstanceDiversity (fun _ => ∅) none
        (some memoryProvenanceGroupKey) 1 interleaved 2 3).1 := by
  refine ⟨⟨by decide, by decide +kernel, by decide +kernel, by decide +kernel⟩,
    by decide +kernel, ?_⟩
  rintro ⟨front, back, hresult, hback⟩
  -- the list returned ends with the third candidate
  have hlast : (front ++ back).getLast? = some (memoryCandidate "c" "u" 3 none) :=
    congrArg List.getLast? hresult.symm
  have hexcluded : (policyExcluded interleaved).map (·.subject) =
      [(memoryCandidate "b" "t" 2 (some "domain_filtered")).subject] := rfl
  rw [hexcluded] at hback
  obtain ⟨candidate, rfl, hsubject⟩ := List.map_eq_singleton_iff.mp hback
  rw [List.getLast?_concat, Option.some.injEq] at hlast
  rw [hlast] at hsubject
  exact absurd (congrArg (fun candidate => candidate.item.id RowEnv.plain) hsubject)
    (by decide +kernel)

end AliceBot
