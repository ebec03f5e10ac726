import AliceBot.RetrievalRows
import Mathlib.Algebra.Order.Ring.Int
import Mathlib.Tactic.Linarith
import Mathlib.Tactic.Positivity

/-!
# The deepening scan

`_fetch_filtered_prefix` against an adapter that can only return its first rows.
The scan asks for more and more of them until enough survive the filter, or the
adapter returns fewer than it was asked for.

An answer is a prefix of the ranked list, and both the removal of repeated rows
and a filter by rows take prefixes to prefixes. So what the scan has at any moment
is the beginning of what it would have with the whole list (`matching_isPrefix`).
A prefix that is shorter than the limit is the whole list. The limit doubles until
it reaches the cap, where the scan returns or refuses, which is after fifteen
rounds at most (`scanLoop_terminates`).
-/

namespace AliceBot

open PyLib

/-! ### The scan -/

section Fetch

variable (env : RowEnv)

/-- `SCOPED_ROW_OVERFETCH_LIMIT`. -/
def scopedRowOverfetchLimit : Int := 200

/-- `LEGACY_SCOPED_SCAN_MAX_ROWS`. -/
def legacyScopedScanMaxRows : Int := 16384

/-- `VNextRetrievalCompletenessError`. -/
structure VNextRetrievalCompletenessError where
  message : String
deriving DecidableEq, Repr

def nonProgressingPrefix : VNextRetrievalCompletenessError :=
  ⟨"legacy scoped retrieval adapter returned a repeated or non-progressing prefix"⟩

def exhaustionUnproved : VNextRetrievalCompletenessError :=
  ⟨"legacy scoped retrieval adapter did not prove exhaustion within "
    ++ toString legacyScopedScanMaxRows ++ " rows"⟩

variable {σ : Type} (fetch : Int → List Row × σ)
  (selectRows : List Row → List Row) (target : Int)

/-- The loop of `_fetch_filtered_prefix`; nothing where it goes on for more than
`fuel` rounds. -/
def scanLoop : Nat → Int → Int →
    Option (Except VNextRetrievalCompletenessError (List Row × σ))
  | 0, _, _ => none
  | fuel + 1, limit, previousUniqueCount =>
    let (rawRows, source) := fetch limit
    let rows := dedupeRetrievalRows env rawRows
    let filtered := dedupeRetrievalRows env (selectRows rows)
    if target ≤ filtered.length ∨ rawRows.length < limit then some (.ok (filtered, source))
    else if rows.length ≤ previousUniqueCount then some (.error nonProgressingPrefix)
    else if legacyScopedScanMaxRows ≤ limit then some (.error exhaustionUnproved)
    else scanLoop fuel (min (limit * 2) legacyScopedScanMaxRows) rows.length

/-- `initial_limit or SCOPED_ROW_OVERFETCH_LIMIT`. -/
def initialLimitOr (initialLimit : Option Int) : Int :=
  match initialLimit with
  | none => scopedRowOverfetchLimit
  | some limit => if limit = 0 then scopedRowOverfetchLimit else limit

/-- `_fetch_filtered_prefix`. The source is read deeper and deeper until enough of its
rows pass the filter; it is read once where it filters by itself. -/
def fetchFilteredPrefix (predicateAppliedBeforeLimit : Bool) (initialLimit : Option Int)
    (fuel : Nat) : Option (Except VNextRetrievalCompletenessError (List Row × σ)) :=
  if predicateAppliedBeforeLimit then
    let (rows, source) := fetch target
    some (.ok (dedupeRetrievalRows env
      (selectRows (dedupeRetrievalRows env rows)), source))
  else
    scanLoop env fetch selectRows target fuel
      (min legacyScopedScanMaxRows (max target (initialLimitOr initialLimit))) (-1)

end Fetch

/-! ### Prefixes of one ranked list -/

section Scan

variable {env : RowEnv} {σ : Type}
  {fetch : Int → List Row × σ} {ranked : List Row} {target : Int}

/-- The adapter answers with the first rows of one list. -/
def AnswersPrefixes (fetch : Int → List Row × σ) (ranked : List Row) : Prop :=
  ∀ limit, 0 ≤ limit → (fetch limit).1 = ranked.take limit.toNat

/-- The rows of a list that are wanted, each once. -/
def matching (env : RowEnv) (keep : Row → Bool)
    (rows : List Row) : List Row :=
  (dedupeRetrievalRows env rows).filter keep

theorem nodup_matching (keep : Row → Bool) (rows : List Row) :
    ((matching env keep rows).map (retrievalRowIdentity env)).Nodup :=
  (nodup_firstsAfter [] rows).sublist (List.filter_sublist.map _)

/-- Nothing is left to be removed after the filter. -/
theorem dedupeRetrievalRows_filter (keep : Row → Bool) (rows : List Row) :
    dedupeRetrievalRows env ((dedupeRetrievalRows env rows).filter keep) =
      matching env keep rows :=
  firstsAfter_of_nodup (nodup_matching keep rows) fun _ _ => List.not_mem_nil

theorem matching_isPrefix (keep : Row → Bool) {rows more : List Row}
    (h : rows <+: more) :
    matching env keep rows <+: matching env keep more :=
  (firstsAfter_isPrefix h).filter keep

/-- What a scan may return: a beginning of the wanted rows that is long enough or
all of them. -/
def CompleteFor (env : RowEnv) (keep : Row → Bool)
    (ranked : List Row) (target : Int) (found : List Row) : Prop :=
  found <+: matching env keep ranked ∧
    (found.map (retrievalRowIdentity env)).Nodup ∧
    (target ≤ found.length ∨ found = matching env keep ranked)

/-- An answer with enough rows or fewer than asked for is complete. -/
theorem completeFor_take {keep : Row → Bool} {limit : Int} (hlimit : 0 ≤ limit)
    (h : target ≤ (matching env keep (ranked.take limit.toNat)).length ∨
      ((ranked.take limit.toNat).length : Int) < limit) :
    CompleteFor env keep ranked target
      (matching env keep (ranked.take limit.toNat)) := by
  refine ⟨matching_isPrefix keep (List.take_prefix _ _), nodup_matching keep _, ?_⟩
  refine h.imp_right fun hshort => ?_
  -- a prefix shorter than the limit is the whole list
  have hwhole : ranked.length ≤ limit.toNat := by
    rw [List.length_take] at hshort
    omega
  rw [List.take_of_length_le hwhole]

/-- **One round.** The scan stops, with what it may return or an error, or it goes
on below the cap with twice the limit. -/
theorem scanLoop_round (env : RowEnv) (target : Int) (hfetch : AnswersPrefixes fetch ranked)
    (keep : Row → Bool) {limit : Int} (hlimit : 0 < limit) (previous : Int) :
    (∃ outcome, (∀ found source, outcome = .ok (found, source) →
        CompleteFor env keep ranked target found) ∧
      ∀ fuel, scanLoop env fetch (·.filter keep) target (fuel + 1) limit previous =
        some outcome) ∨
    limit < legacyScopedScanMaxRows ∧ ∃ count, ∀ fuel,
      scanLoop env fetch (·.filter keep) target (fuel + 1) limit previous =
        scanLoop env fetch (·.filter keep) target fuel
          (min (limit * 2) legacyScopedScanMaxRows) count := by
  have hround (fuel : Nat) := scanLoop.eq_2 env fetch (·.filter keep) target limit
    previous fuel
  dsimp only at hround
  rw [hfetch limit hlimit.le, dedupeRetrievalRows_filter] at hround
  split at hround
  · next hreturn =>
    -- enough rows were kept, or the source is exhausted below the limit
    refine .inl ⟨_, fun found source h => ?_, hround⟩
    obtain ⟨rfl, -⟩ := Prod.mk.inj (Except.ok.inj h)
    exact completeFor_take hlimit.le hreturn
  · -- no more rows than in the round before, or the cap is reached: both raise
    split at hround
    · exact .inl ⟨.error nonProgressingPrefix, nofun, hround⟩
    · split at hround
      · exact .inl ⟨.error exhaustionUnproved, nofun, hround⟩
      · next hcap => exact .inr ⟨not_le.mp hcap, _, hround⟩

/-- The limit doubles until it reaches the cap, where a round does not go on: the
limit and the number of rounds left bound it together. -/
theorem scanLoop_terminates (hfetch : AnswersPrefixes fetch ranked) (keep : Row → Bool)
    (rounds : Nat) {limit : Int} (hlimit : 0 < limit)
    (hrounds : legacyScopedScanMaxRows ≤ limit * 2 ^ rounds) (previous : Int) :
    ∃ outcome, (∀ found source, outcome = .ok (found, source) →
        CompleteFor env keep ranked target found) ∧
      ∀ fuel, rounds < fuel →
        scanLoop env fetch (·.filter keep) target fuel limit previous =
          some outcome := by
  -- on the doublings that are left before the cap
  induction rounds generalizing limit previous with
  | zero =>
    obtain ⟨outcome, hcomplete, hstop⟩ | ⟨hcap, -⟩ :=
      scanLoop_round env target hfetch keep hlimit
        previous
    · refine ⟨outcome, hcomplete, fun fuel hfuel => ?_⟩
      rw [← Nat.succ_pred_eq_of_pos hfuel]
      exact hstop _
    · rw [pow_zero, mul_one] at hrounds
      exact absurd hcap (not_lt.mpr hrounds)
  | succ rounds ih =>
    obtain ⟨outcome, hcomplete, hstop⟩ | ⟨hcap, count, hnext⟩ :=
      scanLoop_round env target hfetch keep hlimit
        previous
    · refine ⟨outcome, hcomplete, fun fuel hfuel => ?_⟩
      rw [← Nat.succ_pred_eq_of_pos (Nat.zero_lt_of_lt hfuel)]
      exact hstop _
    · -- the next round has twice the limit, and one doubling less to go
      have hpos : 0 < min (limit * 2) legacyScopedScanMaxRows :=
        lt_min (by omega) (hlimit.trans hcap)
      have hreach : legacyScopedScanMaxRows ≤
          min (limit * 2) legacyScopedScanMaxRows * 2 ^ rounds := by
        rw [min_mul_of_nonneg _ _ (by positivity : (0 : Int) ≤ 2 ^ rounds)]
        refine le_min ?_ ?_
        · rw [pow_succ] at hrounds
          linarith
        · exact le_mul_of_one_le_right (hlimit.trans hcap).le (one_le_pow₀ (by norm_num))
      obtain ⟨outcome, hcomplete, hstop⟩ := ih hpos hreach count
      refine ⟨outcome, hcomplete, fun fuel hfuel => ?_⟩
      rw [← Nat.succ_pred_eq_of_pos (Nat.zero_lt_of_lt hfuel), hnext]
      exact hstop _ (Nat.lt_pred_iff.mpr hfuel)

/-- **The deepening scan is complete or refuses.** It ends within fifteen rounds.
What it returns is a beginning of the wanted rows in rank order, none of them twice,
and has the target number of rows or all there are. -/
theorem fetchFilteredPrefix_complete (hfetch : AnswersPrefixes fetch ranked)
    (keep : Row → Bool) (htarget : 1 ≤ target) (initialLimit : Option Int) :
    ∃ outcome, (∀ found source, outcome = .ok (found, source) →
        CompleteFor env keep ranked target found) ∧
      ∀ fuel, 14 < fuel →
        fetchFilteredPrefix env fetch (·.filter keep) target false initialLimit fuel =
          some outcome := by
  have hstart : 1 ≤ min legacyScopedScanMaxRows (max target (initialLimitOr initialLimit)) :=
    le_min (by decide) (htarget.trans (le_max_left _ _))
  refine scanLoop_terminates hfetch keep 14 hstart ?_ (-1)
  exact le_mul_of_one_le_left (by decide) hstart

/-- A row of one text. -/
def textRow (key text : String) : Row := [(key, .json (.str text))]

/-- A list in which the wanted row comes after two others, one of them repeated. -/
theorem fetchFilteredPrefix_third :
    ∃ outcome, (∀ found source, outcome = .ok (found, source) →
        CompleteFor RowEnv.plain (fun row => row.has "wanted")
          [textRow "title" "a", textRow "title" "a", textRow "wanted" "b"] 1 found) ∧
      ∀ fuel, 14 < fuel →
        fetchFilteredPrefix RowEnv.plain
          (fun limit => (List.take limit.toNat
            [textRow "title" "a", textRow "title" "a", textRow "wanted" "b"], ()))
          (·.filter fun row => row.has "wanted") 1 false (some 1) fuel = some outcome :=
  fetchFilteredPrefix_complete (fun _ _ => rfl) _ (by decide) (some 1)

end Scan

end AliceBot
