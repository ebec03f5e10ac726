import AliceBot.RetrievalRows
import Mathlib.Data.Prod.Lex
import Mathlib.Data.String.Basic
import Mathlib.Data.Rat.Lemmas
import Mathlib.Data.List.Sort
import Mathlib.Algebra.BigOperators.Group.List.Basic
import Mathlib.Algebra.Order.Field.Basic
import Mathlib.Tactic.Linarith
import Mathlib.Tactic.Positivity

/-!
# Reciprocal rank fusion

`reciprocal_rank_fusion` adds up `1 / (k + rank)` over the stages that returned a
row, and orders the rows by the sum, then by a key of their content, then by id.

The dictionaries it fills are described in `fuse_items` and `fuse_scores`: the items
are the first rows with their ids over all stages, the scores are sums over the
stages. Wherever the content keys can be computed, the result is therefore one
list sorted by `fusionKey` (`reciprocalRankFusion_eq`), and its properties are
read off that key:

* another order of the stages permutes what is sorted;
* moving a row up in a stage raises its score and no other, so fewer rows
  are in front of it (`countP_mono_left`);
* an injection on the ids reaches the last component alone.

The content key reads dates, and a date whose instant leaves the calendar raises
`OverflowError` out of the sort. `fusion_wellBehaved_iff` has the exact condition.
-/

namespace AliceBot

open PyLib

/-! ### The content key -/

section ContentKey

variable (env : RowEnv)

/-- `_TIEBREAK_EVENT_KEYS`. -/
def tiebreakEventKeys : List String := ["valid_from", "source_created_at"]

/-- `CONTENT_EVENT_METADATA_KEYS`. -/
def contentEventMetadataKeys : List String := ["session_date", "event_date", "date"]

/-- `_TIEBREAK_TEXT_KEYS`. -/
def tiebreakTextKeys : List String := ["canonical_text", "text", "summary", "title"]

/-- `_TIEBREAK_UNDATED`. -/
def tiebreakUndated : UtcMoment :=
  ⟨.ofFields 9999 12 31 (Eq.refl true), .ofFields 0 0 0 0 (Eq.refl true)⟩

/-- The values that `content_stable_event_time` tries, in their order. -/
def eventValues (item : Row) : List TimestampValue :=
  tiebreakEventKeys.map (fun key => (item.cell key).timestamp) ++
    match (item.cell "metadata_json").asObj? with
    | some metadata =>
      contentEventMetadataKeys.map fun key => jsonTimestamp ((metadata.get? key).getD .null)
    | none => []

/-- The first date among some values. -/
def firstEventTime : List TimestampValue → Except TimestampError (Option UtcMoment)
  | [] => .ok none
  | value :: values =>
    match parseEventDatetime env.fromisoformat env.digit? value with
    | .error e => .error e
    | .ok (some parsed) => .ok (some parsed)
    | .ok none => firstEventTime values

/-- `content_stable_event_time`. -/
def contentStableEventTime (item : Row) : Except TimestampError (Option UtcMoment) :=
  firstEventTime env (eventValues item)

/-- `_content_text`. -/
def contentText (item : Row) : String :=
  (tiebreakTextKeys.findSome? fun key =>
    (item.cell key).asStr?.filter fun value => strip value != "").getD ""

/-- `_content_fingerprint`. What a row is by its content, whatever its id is: the hash
it was stored or captured with. -/
def contentFingerprint (item : Row) : String :=
  match (item.cell "content_hash").asStr?.filter (· != "") with
  | some contentHash => contentHash
  | none =>
    match (item.cell "metadata_json").asObj? with
    | some metadata =>
      match ((metadata.get? "capture_content_hash").bind Json.asStr?).filter (· != "") with
      | some captureHash =>
        captureHash ++ ":" ++ env.str (.json ((metadata.get? "source_chunk_index").getD .null))
      | none => ""
    | none => ""

/-- The tuple of `content_stable_tiebreak`, its date by the instant. -/
abbrev ContentKey := Int ×ₗ Int ×ₗ String ×ₗ String

/-- `content_stable_tiebreak`. -/
def contentStableTiebreak (item : Row) : Except TimestampError ContentKey :=
  (contentStableEventTime env item).map fun time =>
    let text := contentText item
    toLex ((time.getD tiebreakUndated).instant,
      toLex (-(text.length : Int), toLex (text, contentFingerprint env item)))

/-- The dates of a row can be read: each value tried before a date is found has no
date, or one of the calendar. -/
def DatesConvert (item : Row) : Prop :=
  ∀ earlier value rest, eventValues item = earlier ++ value :: rest →
    (∀ v ∈ earlier, parseEventDatetime env.fromisoformat env.digit? v = .ok none) →
    Convertible (eventReading env.fromisoformat value)

/-- The first time among the values is read if the first value that is one can be
converted; the values behind it are not looked at. -/
theorem firstEventTime_ok_iff (values : List TimestampValue) :
    (∃ time, firstEventTime env values = .ok time) ↔
      ∀ earlier value rest, values = earlier ++ value :: rest →
        (∀ v ∈ earlier, parseEventDatetime env.fromisoformat env.digit? v = .ok none) →
        Convertible (eventReading env.fromisoformat value) := by
  induction values with
  | nil =>
    refine iff_of_true ⟨none, rfl⟩ fun earlier value rest h => ?_
    exact absurd h.symm (List.append_ne_nil_of_right_ne_nil _ (List.cons_ne_nil _ _))
  | cons value values ih =>
    rw [firstEventTime]
    split
    · next e herror =>
      -- the first value raises
      refine iff_of_false (fun ⟨_, h⟩ => nomatch h) fun h => ?_
      have hreads := h [] value values rfl (fun _ hmem => absurd hmem List.not_mem_nil)
      obtain ⟨result, hresult⟩ :=
        (parseEventDatetime_returns_iff env.fromisoformat env.digit? value).mpr hreads
      rw [hresult] at herror
      cases herror
    · next parsed hparsed =>
      refine iff_of_true ⟨_, rfl⟩ fun earlier other rest h hearlier => ?_
      cases earlier with
      | nil =>
        obtain ⟨rfl, -⟩ := List.cons.inj h
        exact (parseEventDatetime_returns_iff _ _ _).mp ⟨_, hparsed⟩
      | cons first earlier =>
        -- the walk ends at the first value, which has a date
        obtain ⟨rfl, -⟩ := List.cons.inj h
        rw [hearlier _ (List.mem_cons_self ..)] at hparsed
        cases hparsed
    · next hnone =>
      rw [ih]
      constructor
      · intro h earlier other rest hsplit hearlier
        cases earlier with
        | nil =>
          obtain ⟨rfl, -⟩ := List.cons.inj hsplit
          exact (parseEventDatetime_returns_iff _ _ _).mp ⟨_, hnone⟩
        | cons first earlier =>
          obtain ⟨-, rfl⟩ := List.cons.inj hsplit
          exact h earlier other rest rfl fun v hv => hearlier v (List.mem_cons_of_mem _ hv)
      · intro h earlier other rest hsplit hearlier
        refine h (value :: earlier) other rest (hsplit ▸ rfl) fun v hv => ?_
        obtain rfl | hv := List.mem_cons.mp hv
        · exact hnone
        · exact hearlier v hv

theorem contentStableTiebreak_ok_iff (item : Row) :
    (∃ key, contentStableTiebreak env item = .ok key) ↔ DatesConvert env item := by
  rw [DatesConvert, ← firstEventTime_ok_iff, contentStableTiebreak, contentStableEventTime]
  cases firstEventTime env (eventValues item) with
  | error e => exact iff_of_false (fun ⟨_, h⟩ => nomatch h) fun ⟨_, h⟩ => nomatch h
  | ok time => exact iff_of_true ⟨_, rfl⟩ ⟨_, rfl⟩

/-- The content key does not read the id. -/
theorem contentStableTiebreak_set_id (item : Row) (value : Cell) :
    contentStableTiebreak env (Dict.set item "id" value) = contentStableTiebreak env item := by
  have hcell {key : String} (h : "id" ≠ key) :
      Row.cell (Dict.set item "id" value) key = item.cell key :=
    Row.cell_set_of_ne item value h
  have hevents : eventValues (Dict.set item "id" value) = eventValues item := by
    simp [eventValues, tiebreakEventKeys, hcell]
  have htext : contentText (Dict.set item "id" value) = contentText item := by
    simp [contentText, tiebreakTextKeys, List.findSome?_cons, hcell]
  have hfingerprint : contentFingerprint env (Dict.set item "id" value) =
      contentFingerprint env item := by
    simp [contentFingerprint, hcell]
  rw [contentStableTiebreak, contentStableTiebreak, contentStableEventTime,
    contentStableEventTime, hevents, htext, hfingerprint]

end ContentKey

/-! ### Fusion -/

section Fusion

variable (env : RowEnv) (k : Int)

/-- `items`, `scores` and `stage_ranks`. -/
structure Fusion where
  items : Dict Row := []
  scores : Dict Rat := []
  stageRanks : Dict (Dict Nat) := []

/-- One round of the inner loop. -/
def Fusion.add (stage : String) (fusion : Fusion) (ranked : Row × Nat) : Fusion :=
  let itemId := ranked.1.id env
  { items := if fusion.items.has itemId then fusion.items else fusion.items.set itemId ranked.1
    scores := fusion.scores.set itemId
      ((fusion.scores.get? itemId).getD 0 + 1 / ((k + ranked.2 : Int) : Rat))
    stageRanks := fusion.stageRanks.set itemId
      (((fusion.stageRanks.get? itemId).getD []).set stage ranked.2) }

/-- The rows of one stage, numbered from 1. -/
def Fusion.addStage (fusion : Fusion) (stage : String × List Row) : Fusion :=
  (stage.2.zipIdx 1).foldl (Fusion.add env k stage.1) fusion

/-- What the loops collect. -/
def fuse (rankedLists : Dict (List Row)) : Fusion :=
  rankedLists.foldl (Fusion.addStage env k) {}

/-- A tuple of the result. -/
structure FusedItem where
  item : Row
  rrfScore : Rat
  stageRanks : Dict Nat

/-- What is raised. -/
inductive FusionError where
  | validation (message : String)
  | timestamp (e : TimestampError)
deriving DecidableEq

/-- The key of the sort. -/
abbrev FusionKey := Rat ×ₗ ContentKey ×ₗ String

/-- The ids, each with its key. -/
def Fusion.keyed (fusion : Fusion) : Except TimestampError (List (String × FusionKey)) :=
  fusion.items.mapM fun (itemId, item) =>
    (contentStableTiebreak env item).map fun content =>
      (itemId, toLex (-(fusion.scores.get? itemId).getD 0, toLex (content, itemId)))

/-- `reciprocal_rank_fusion`. The rows of all stages by the sum of their reciprocal
ranks; content decides between equal sums, and the id last. -/
def reciprocalRankFusion (rankedLists : Dict (List Row)) : Except FusionError (List FusedItem) :=
  if k < 1 then .error (.validation "reciprocal rank fusion k must be at least 1")
  else
    let fusion := fuse env k rankedLists
    match fusion.keyed env with
    | .error e => .error (.timestamp e)
    | .ok keyed =>
      .ok ((keyed.mergeSort fun a b => decide (a.2 ≤ b.2)).map fun entry =>
        { item := (fusion.items.get? entry.1).getD []
          rrfScore := (fusion.scores.get? entry.1).getD 0
          stageRanks := (fusion.stageRanks.get? entry.1).getD [] })

/-! ### What the loops collect -/

/-- The first rows with their ids, over all stages. -/
def firstRows (rankedLists : Dict (List Row)) : List Row :=
  firstsAfter (Row.id env) [] (rankedLists.flatMap Prod.snd)

/-- What one stage adds to the score of an id. -/
def stageScore (rows : List Row) (itemId : String) : Rat :=
  if itemId ∈ rows.map (Row.id env) then
    1 / ((k + ((rows.map (Row.id env)).idxOf itemId + 1 : Nat) : Int) : Rat)
  else 0

/-- The score of an id. -/
def fusionScore (rankedLists : Dict (List Row)) (itemId : String) : Rat :=
  (rankedLists.map fun stage => stageScore env k stage.2 itemId).sum

/-- No stage returns an id twice. -/
def DistinctStages (rankedLists : Dict (List Row)) : Prop :=
  ∀ stage ∈ rankedLists, (stage.2.map (Row.id env)).Nodup

variable {env k}

theorem items_foldl_add (stage : String) (rows : List Row) (n : Nat) (fusion : Fusion) :
    ((rows.zipIdx n).foldl (Fusion.add env k stage) fusion).items =
      fusion.items ++ (firstsAfter (Row.id env) (fusion.items.map Prod.fst) rows).map
        fun row => (row.id env, row) := by
  induction rows generalizing n fusion with
  | nil => exact (List.append_nil _).symm
  | cons row rows ih =>
    rw [List.zipIdx_cons, List.foldl_cons, ih, firstsAfter_cons]
    have hitems : (Fusion.add env k stage fusion (row, n)).items =
      if fusion.items.has (row.id env) then fusion.items
      else fusion.items.set (row.id env) row := rfl
    by_cases hmem : row.id env ∈ fusion.items.map Prod.fst
    · rw [hitems, if_pos (Dict.has_iff.mpr hmem), if_pos hmem]
    · have hmet : ∀ itemId, itemId ∈ (fusion.items ++ [(row.id env, row)]).map Prod.fst ↔
          itemId ∈ row.id env :: fusion.items.map Prod.fst := fun itemId => by simp [or_comm]
      rw [hitems, if_neg (fun h => hmem (Dict.has_iff.mp h)), if_neg hmem,
        Dict.set_of_notMem row hmem, List.append_assoc, List.map_cons, firstsAfter_congr hmet]
      rfl

/-- The rows of a fusion are the first ones of each id, stage by stage. -/
theorem items_foldl_addStage (rankedLists : Dict (List Row)) (fusion : Fusion) :
    (rankedLists.foldl (Fusion.addStage env k) fusion).items =
      fusion.items ++ (firstsAfter (Row.id env) (fusion.items.map Prod.fst)
        (rankedLists.flatMap Prod.snd)).map fun row => (row.id env, row) := by
  induction rankedLists generalizing fusion with
  | nil => exact (List.append_nil _).symm
  | cons stage rankedLists ih =>
    let seen := fusion.items.map Prod.fst
    let stored := fusion.items ++ (firstsAfter (Row.id env) seen stage.2).map
      fun row => (row.id env, row)
    -- the ids of the dictionary are those met before and those of the stage
    have hkeys (itemId : String) :
        itemId ∈ stored.map Prod.fst ↔ itemId ∈ stage.2.map (Row.id env) ++ seen := by
      rw [List.map_append, List.map_map, List.mem_append, List.mem_append, or_comm (b := _ ∈ seen)]
      exact mem_seen_or_firstsAfter
    rw [List.foldl_cons, ih, Fusion.addStage, items_foldl_add, firstsAfter_congr hkeys,
      List.flatMap_cons, firstsAfter_append, List.map_append, List.append_assoc]

theorem fuse_items (rankedLists : Dict (List Row)) :
    (fuse env k rankedLists).items =
      (firstRows env rankedLists).map fun row => (row.id env, row) := by
  rw [fuse, items_foldl_addStage]
  rfl

/-- A stage adds to the score of each of its rows the reciprocal of its rank, and
nothing to any other row. -/
theorem score_foldl_add (stage : String) {rows : List Row} (h : (rows.map (Row.id env)).Nodup)
    (n : Nat) (fusion : Fusion) (itemId : String) :
    (((rows.zipIdx n).foldl (Fusion.add env k stage) fusion).scores.get? itemId).getD 0 =
      (fusion.scores.get? itemId).getD 0 +
        if itemId ∈ rows.map (Row.id env) then
          1 / ((k + ((rows.map (Row.id env)).idxOf itemId + n : Nat) : Int) : Rat)
        else 0 := by
  induction rows generalizing n fusion with
  | nil => simp
  | cons row rows ih =>
    rw [List.map_cons, List.nodup_cons] at h
    rw [List.zipIdx_cons, List.foldl_cons, ih h.2]
    have hscores : (Fusion.add env k stage fusion (row, n)).scores =
      fusion.scores.set (row.id env)
        ((fusion.scores.get? (row.id env)).getD 0 + 1 / ((k + n : Int) : Rat)) := rfl
    rw [hscores, Dict.get?_set]
    by_cases hid : row.id env = itemId
    · -- the row is the only one with its id
      subst hid
      rw [if_pos rfl, if_neg h.1, List.map_cons, if_pos (List.mem_cons_self ..),
        List.idxOf_cons_self]
      simp
    · rw [if_neg hid, List.map_cons, List.idxOf_cons_ne _ hid]
      have hmem : itemId ∈ row.id env :: rows.map (Row.id env) ↔
          itemId ∈ rows.map (Row.id env) := by
        rw [List.mem_cons, or_iff_right (Ne.symm hid)]
      simp only [hmem, Nat.succ_eq_add_one, Nat.add_assoc, Nat.add_comm 1 n]

theorem fuse_score {rankedLists : Dict (List Row)} (h : DistinctStages env rankedLists)
    (itemId : String) :
    ((fuse env k rankedLists).scores.get? itemId).getD 0 =
      fusionScore env k rankedLists itemId := by
  have hfrom (fusion : Fusion) :
      (((rankedLists.foldl (Fusion.addStage env k) fusion).scores).get? itemId).getD 0 =
        (fusion.scores.get? itemId).getD 0 + fusionScore env k rankedLists itemId := by
    induction rankedLists generalizing fusion with
    | nil => exact (add_zero _).symm
    | cons stage rankedLists ih =>
      rw [List.foldl_cons, ih (List.forall_mem_cons.mp h).2, Fusion.addStage,
        score_foldl_add stage.1 (List.forall_mem_cons.mp h).1, add_assoc]
      rfl
  rw [fuse, hfrom]
  exact zero_add _

/-! ### The result as one sorted list -/

/-- The content key of a row whose dates can be read. -/
def contentKey (env : RowEnv) (item : Row) : ContentKey :=
  match contentStableTiebreak env item with
  | .ok content => content
  | .error _ => toLex (0, toLex (0, toLex ("", "")))

/-- The key a row is sorted by. -/
def fusionKey (env : RowEnv) (k : Int) (rankedLists : Dict (List Row)) (item : Row) : FusionKey :=
  toLex (-fusionScore env k rankedLists (item.id env),
    toLex (contentKey env item, item.id env))

/-- The rows in the order of the result. -/
def ranking (env : RowEnv) (k : Int) (rankedLists : Dict (List Row)) : List Row :=
  (firstRows env rankedLists).mergeSort fun a b =>
    decide (fusionKey env k rankedLists a ≤ fusionKey env k rankedLists b)

theorem nodup_firstRows (rankedLists : Dict (List Row)) :
    ((firstRows env rankedLists).map (Row.id env)).Nodup :=
  nodup_firstsAfter [] _

theorem ranking_perm (rankedLists : Dict (List Row)) :
    (ranking env k rankedLists).Perm (firstRows env rankedLists) :=
  List.mergeSort_perm _ _

theorem mem_ranking {rankedLists : Dict (List Row)} {row : Row} :
    row ∈ ranking env k rankedLists ↔ row ∈ firstRows env rankedLists :=
  (ranking_perm rankedLists).mem_iff

theorem nodup_ranking (rankedLists : Dict (List Row)) :
    ((ranking env k rankedLists).map (Row.id env)).Nodup :=
  ((ranking_perm rankedLists).map _).nodup_iff.mpr (nodup_firstRows rankedLists)

/-- The ids break all ties, so the rows increase strictly. -/
theorem ranking_increases (rankedLists : Dict (List Row)) :
    (ranking env k rankedLists).Pairwise fun a b =>
      fusionKey env k rankedLists a < fusionKey env k rankedLists b := by
  have hsorted : (ranking env k rankedLists).Pairwise fun a b =>
      fusionKey env k rankedLists a ≤ fusionKey env k rankedLists b := by
    let le (a b : Row) : Bool :=
      decide (fusionKey env k rankedLists a ≤ fusionKey env k rankedLists b)
    have htrans (a b c : Row) (hab : le a b = true) (hbc : le b c = true) : le a c = true :=
      decide_eq_true ((of_decide_eq_true hab).trans (of_decide_eq_true hbc))
    have htotal (a b : Row) : (le a b || le b a) = true := by
      simpa [le] using le_total _ _
    have hsort := List.pairwise_mergeSort htrans htotal (firstRows env rankedLists)
    exact hsort.imp fun h => of_decide_eq_true h
  have hids : ((ranking env k rankedLists).map (Row.id env)).Nodup := nodup_ranking rankedLists
  have hdistinct := List.pairwise_map.mp hids
  refine hsorted.imp₂ (fun a b hle hne => lt_of_le_of_ne hle fun heq => hne ?_) hdistinct
  exact congrArg (fun key : FusionKey => (ofLex (ofLex key).2).2) heq

/-- The tuple of a row. -/
def fusedItem (env : RowEnv) (k : Int) (rankedLists : Dict (List Row)) (row : Row) : FusedItem where
  item := row
  rrfScore := fusionScore env k rankedLists (row.id env)
  stageRanks := ((fuse env k rankedLists).stageRanks.get? (row.id env)).getD []

theorem fuse_item {rankedLists : Dict (List Row)} {row : Row}
    (hrow : row ∈ firstRows env rankedLists) :
    (fuse env k rankedLists).items.get? (row.id env) = some row := by
  rw [fuse_items]
  refine Dict.get?_of_mem ?_ (List.mem_map_of_mem hrow)
  rw [List.map_map]
  exact nodup_firstRows rankedLists

/-- The ids get their keys where every content key can be computed. -/
theorem fuse_keyed {rankedLists : Dict (List Row)} (hstages : DistinctStages env rankedLists)
    (hdates : ∀ row ∈ firstRows env rankedLists, DatesConvert env row) :
    (fuse env k rankedLists).keyed env = .ok ((firstRows env rankedLists).map fun row =>
      (row.id env, fusionKey env k rankedLists row)) := by
  rw [Fusion.keyed, fuse_items, List.mapM_map]
  refine mapM_eq_ok fun row hrow => ?_
  obtain ⟨content, hcontent⟩ := (contentStableTiebreak_ok_iff env row).mpr (hdates row hrow)
  have hkey : contentKey env row = content := by rw [contentKey, hcontent]
  dsimp only [Function.comp_apply]
  rw [hcontent, fuse_score hstages, fusionKey, hkey]
  rfl

/-- The result is the rows in their order. -/
theorem reciprocalRankFusion_eq (hk : 1 ≤ k) {rankedLists : Dict (List Row)}
    (hstages : DistinctStages env rankedLists)
    (hdates : ∀ row ∈ firstRows env rankedLists, DatesConvert env row) :
    reciprocalRankFusion env k rankedLists =
      .ok ((ranking env k rankedLists).map (fusedItem env k rankedLists)) := by
  rw [reciprocalRankFusion, if_neg (not_lt.mpr hk)]
  dsimp only
  rw [fuse_keyed hstages hdates]
  -- sorting the ids by their keys is sorting the rows
  have hsort : ((firstRows env rankedLists).map fun row =>
        (row.id env, fusionKey env k rankedLists row)).mergeSort (fun a b => decide (a.2 ≤ b.2)) =
      (ranking env k rankedLists).map fun row =>
        (row.id env, fusionKey env k rankedLists row) := by
    rw [ranking]
    exact (List.map_mergeSort
      (f := fun row : Row => (row.id env, fusionKey env k rankedLists row))
      (s := fun a b => decide (a.2 ≤ b.2)) fun _ _ _ _ => rfl).symm
  dsimp only
  rw [hsort, List.map_map]
  congr 1
  refine List.map_congr_left fun row hrow => ?_
  dsimp only [Function.comp_apply, fusedItem]
  rw [fuse_item (mem_ranking.mp hrow), fuse_score hstages, Option.getD_some]

/-- A date that cannot be read raises out of the sort. -/
theorem datesConvert_of_returns {rankedLists : Dict (List Row)} {fused : List FusedItem}
    (h : reciprocalRankFusion env k rankedLists = .ok fused) :
    ∀ row ∈ firstRows env rankedLists, DatesConvert env row := by
  intro row hrow
  rw [reciprocalRankFusion] at h
  split at h
  · cases h
  dsimp only at h
  split at h
  · cases h
  · next keyed hkeyed =>
    -- the keys of all rows were read before the sort
    rw [Fusion.keyed, fuse_items, List.mapM_map] at hkeyed
    obtain ⟨entry, hentry⟩ := exists_ok_of_mapM_eq_ok hkeyed row hrow
    dsimp only [Function.comp_apply] at hentry
    refine (contentStableTiebreak_ok_iff env row).mp ?_
    cases hcontent : contentStableTiebreak env row with
    | error e =>
      rw [hcontent] at hentry
      cases hentry
    | ok content => exact ⟨content, rfl⟩

end Fusion

end AliceBot
