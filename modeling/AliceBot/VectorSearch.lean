import AliceBot.Library.SortedByKey
import AliceBot.Library.Table
import Mathlib.Algebra.Order.Ring.Rat
import Mathlib.Data.Prod.Lex
import Mathlib.Data.String.Basic
import Mathlib.Tactic.Linarith

/-!
# The vector search of memories

`search_memories_vector` ranks the rows by an approximate distance, and reads them back in
that order, batch by batch, until the exact distances it has found rule out the rest.

The walk stops where the next approximation is above the last distance that counts by more
than the error of an approximation. No row behind it is closer, and none is as close
(`cutoff_lt_exact`), so what was read already has the nearest rows
(`searchMemoriesVector_eq_fullScan`).
-/

namespace AliceBot

open PyLib

/-! ### Rows and distances -/

/-- A row with an embedding: the distance computed from its blob, and the approximation of
it the scan ranks it by. -/
structure VectorRow where
  id : String
  updatedAt : String
  exact : Rat
  approximate : Rat

/-- `_VECTOR_DISTANCE_REFINE_EPSILON`. -/
def vectorDistanceRefineEpsilon : Rat := 1 / 1000

/-- `(approximate_distance, updated_at, id)`. -/
abbrev RankedEntry : Type := Rat ×ₗ String ×ₗ String

/-- A distance with the keys behind it. -/
def rankedEntry (distance : Rat) (updatedAt id : String) : RankedEntry :=
  toLex (distance, toLex (updatedAt, id))

/-- The key of a row that was read. -/
def VectorRow.exactKey (row : VectorRow) : RankedEntry :=
  rankedEntry row.exact row.updatedAt row.id

/-- The key of a row in the scan. -/
def VectorRow.approximateKey (row : VectorRow) : RankedEntry :=
  rankedEntry row.approximate row.updatedAt row.id

def RankedEntry.distance (entry : RankedEntry) : Rat := (ofLex entry).1

def RankedEntry.rowId (entry : RankedEntry) : String := (ofLex (ofLex entry).2).2

/-! ### The walk -/

/-- Hydration batch: ids per statement. -/
def vectorBatchSize (limit : Nat) : Nat := min (max (4 * limit) 32) 900

theorem vectorBatchSize_pos (limit : Nat) : 0 < vectorBatchSize limit := by
  rw [vectorBatchSize]
  omega

section Walk

variable (rows : List VectorRow) (hydrates current : VectorRow → Bool) (limit : Nat)

/-- The rows of a batch that are read and verified, in the order of the batch. -/
def hydrateBatch (batch : List RankedEntry) : List VectorRow :=
  let batchIds := batch.map RankedEntry.rowId
  let hydrated := rows.filter fun row => hydrates row && decide (row.id ∈ batchIds)
  batch.filterMap fun entry =>
    (hydrated.find? fun row => decide (row.id = entry.rowId)).filter current

/-- There are as many rows as are to be returned. -/
def Filled (collected : List VectorRow) : Prop := 0 < limit ∧ limit ≤ collected.length

instance (collected : List VectorRow) : Decidable (Filled limit collected) :=
  inferInstanceAs (Decidable (_ ∧ _))

/-- The rows collected, in order once there are enough of them. -/
def settleCollected (collected : List VectorRow) : List VectorRow :=
  if Filled limit collected then sortByKeys VectorRow.exactKey collected else collected

/-- The walk stops before an entry whose distance is too large. -/
def stopsBefore (settled : List VectorRow) (entry : RankedEntry) : Bool :=
  decide (Filled limit settled) && settled[limit - 1]?.any fun last =>
    decide (last.exact + vectorDistanceRefineEpsilon < entry.distance)

/-- The walk from an entry on. -/
def hydrateWalk : List RankedEntry → List VectorRow → List VectorRow
  | [], collected => collected
  | entry :: ranked, collected =>
    let settled := settleCollected limit collected
    if stopsBefore limit settled entry then settled
    else
      hydrateWalk ((entry :: ranked).drop (vectorBatchSize limit))
        (settled ++ hydrateBatch rows hydrates current
          ((entry :: ranked).take (vectorBatchSize limit)))
termination_by ranked => ranked.length
decreasing_by
  have hpos := vectorBatchSize_pos limit
  simp only [List.length_drop, List.length_cons]
  omega

/-- `search_memories_vector`, after the scan. -/
def searchMemoriesVector : List VectorRow :=
  let ranked := (rows.map VectorRow.approximateKey).insertionSort (· ≤ ·)
  (sortByKeys VectorRow.exactKey (hydrateWalk rows hydrates current limit ranked [])).take limit

/-- The rows that are read and verified, sorted by their exact distances. -/
def fullVectorScan : List VectorRow :=
  (sortByKeys VectorRow.exactKey (rows.filter fun row => hydrates row && current row)).take limit

end Walk

/-! ### What a batch reads -/

section Exact

variable {rows : List VectorRow} {hydrates current : VectorRow → Bool} {limit : Nat}

/-- The rows whose entries are given, in their order. -/
def readRows (rows : List VectorRow) (hydrates current : VectorRow → Bool)
    (ranked : List RankedEntry) : List VectorRow :=
  ranked.filterMap fun entry =>
    (rows.find? fun row => decide (row.id = entry.rowId)).filter fun row =>
      hydrates row && current row

theorem find?_id_iff (hids : (rows.map VectorRow.id).Nodup) {rowId : String} {row : VectorRow} :
    (rows.find? fun row => decide (row.id = rowId)) = some row ↔ row ∈ rows ∧ row.id = rowId := by
  constructor
  · intro h
    exact ⟨List.mem_of_find?_eq_some h, by simpa using List.find?_some h⟩
  · rintro ⟨hmem, hid⟩
    cases hfound : rows.find? fun row => decide (row.id = rowId) with
    | none => exact absurd (decide_eq_true hid) (List.find?_eq_none.mp hfound row hmem)
    | some other =>
      have hother : other.id = rowId := by simpa using List.find?_some hfound
      rw [List.inj_on_of_nodup_map hids (List.mem_of_find?_eq_some hfound) hmem
        (hother.trans hid.symm)]

/-- A batch reads its own rows, whatever the statement returns beside them. -/
theorem hydrateBatch_eq (hids : (rows.map VectorRow.id).Nodup) (batch : List RankedEntry) :
    hydrateBatch rows hydrates current batch = readRows rows hydrates current batch := by
  refine List.filterMap_congr fun entry hentry => Option.ext fun row => ?_
  have hbatch : entry.rowId ∈ batch.map RankedEntry.rowId := List.mem_map_of_mem hentry
  have hhydrated : ((rows.filter fun row => hydrates row &&
      decide (row.id ∈ batch.map RankedEntry.rowId)).map VectorRow.id).Nodup :=
    hids.sublist (List.filter_sublist.map _)
  rw [Option.filter_eq_some_iff, Option.filter_eq_some_iff, find?_id_iff hhydrated,
    find?_id_iff hids, List.mem_filter, Bool.and_eq_true, Bool.and_eq_true, decide_eq_true_eq]
  constructor
  · rintro ⟨⟨⟨hmem, hhydrates, _⟩, hid⟩, hcurrent⟩
    exact ⟨⟨hmem, hid⟩, hhydrates, hcurrent⟩
  · rintro ⟨⟨hmem, hid⟩, hhydrates, hcurrent⟩
    exact ⟨⟨⟨hmem, hhydrates, hid ▸ hbatch⟩, hid⟩, hcurrent⟩

/-- All entries together read the verified rows of the table. -/
theorem readRows_perm (hids : (rows.map VectorRow.id).Nodup) {ranked : List RankedEntry}
    (hperm : ranked.Perm (rows.map VectorRow.approximateKey)) :
    (readRows rows hydrates current ranked).Perm
      (rows.filter fun row => hydrates row && current row) := by
  refine (hperm.filterMap _).trans (List.Perm.of_eq ?_)
  rw [List.filterMap_map, ← List.filterMap_eq_filter]
  refine List.filterMap_congr fun row hrow => ?_
  have hself : (rows.find? fun other => decide (other.id = row.approximateKey.rowId)) = some row :=
    (find?_id_iff hids).mpr ⟨hrow, rfl⟩
  rw [Function.comp_apply, hself]
  rfl

/-- A row that is read has its own entry. -/
theorem entry_of_mem_readRows (hids : (rows.map VectorRow.id).Nodup) {ranked : List RankedEntry}
    (hranked : ∀ entry ∈ ranked, entry ∈ rows.map VectorRow.approximateKey) {row : VectorRow}
    (h : row ∈ readRows rows hydrates current ranked) :
    row ∈ rows ∧ row.approximateKey ∈ ranked := by
  obtain ⟨entry, hentry, hread⟩ := List.mem_filterMap.mp h
  obtain ⟨hmem, hid⟩ := (find?_id_iff hids).mp (Option.filter_eq_some_iff.mp hread).1
  obtain ⟨other, hother, rfl⟩ := List.mem_map.mp (hranked entry hentry)
  obtain rfl : other = row := List.inj_on_of_nodup_map hids hother hmem hid.symm
  exact ⟨hmem, hentry⟩

/-! ### Where the walk stops -/

/-- The approximations are as good as the code takes them to be. -/
def Approximates (rows : List VectorRow) : Prop :=
  ∀ row ∈ rows, |row.approximate - row.exact| ≤ vectorDistanceRefineEpsilon

/-- A row that is approximated above a cutoff by more than the error is above it. -/
theorem cutoff_lt_exact (happrox : Approximates rows) {row : VectorRow} (hrow : row ∈ rows)
    {cutoff : Rat} (h : cutoff + vectorDistanceRefineEpsilon < row.approximate) :
    cutoff < row.exact := by
  have herror := (abs_le.mp (happrox row hrow)).2
  linarith

theorem exactKey_lt {a b : VectorRow} (h : a.exact < b.exact) : a.exactKey < b.exactKey :=
  Prod.Lex.toLex_lt_toLex.mpr (Or.inl h)

theorem nodup_exactKey (hids : (rows.map VectorRow.id).Nodup) :
    (rows.map VectorRow.exactKey).Nodup := by
  have hread : rows.map VectorRow.id = (rows.map VectorRow.exactKey).map RankedEntry.rowId := by
    rw [List.map_map]
    rfl
  rw [hread] at hids
  exact hids.of_map

theorem settleCollected_perm (collected : List VectorRow) :
    (settleCollected limit collected).Perm collected := by
  unfold settleCollected
  split
  · exact sortByKeys_perm collected
  · exact List.Perm.refl _

theorem readRows_append (seen ranked : List RankedEntry) :
    readRows rows hydrates current (seen ++ ranked) =
      readRows rows hydrates current seen ++ readRows rows hydrates current ranked :=
  List.filterMap_append

/-- Where the walk stops there are enough rows, in order, and the next distance is above the
last one that counts. -/
theorem stopsBefore_cases {collected : List VectorRow} {entry : RankedEntry}
    (h : stopsBefore limit (settleCollected limit collected) entry = true) :
    0 < limit ∧ ∃ last, (sortByKeys VectorRow.exactKey collected)[limit - 1]? = some last ∧
      last.exact + vectorDistanceRefineEpsilon < entry.distance := by
  rw [stopsBefore, Bool.and_eq_true, decide_eq_true_eq, Option.any_eq_true] at h
  obtain ⟨⟨hpos, hlength⟩, last, hlast, habove⟩ := h
  rw [(settleCollected_perm collected).length_eq] at hlength
  rw [settleCollected, if_pos ⟨hpos, hlength⟩] at hlast
  exact ⟨hpos, last, hlast, of_decide_eq_true habove⟩

/-- The rows behind the place where the walk stops do not change what is returned. -/
theorem take_of_stops (hids : (rows.map VectorRow.id).Nodup) (happrox : Approximates rows)
    {seen ranked : List RankedEntry} {entry : RankedEntry} {collected : List VectorRow}
    (hperm : (seen ++ entry :: ranked).Perm (rows.map VectorRow.approximateKey))
    (hsorted : (entry :: ranked).Pairwise (· ≤ ·))
    (hcollected : collected.Perm (readRows rows hydrates current seen))
    (hstops : stopsBefore limit (settleCollected limit collected) entry = true) :
    (sortByKeys VectorRow.exactKey (settleCollected limit collected)).take limit =
      (sortByKeys VectorRow.exactKey
        (readRows rows hydrates current (seen ++ entry :: ranked))).take limit := by
  obtain ⟨hpos, last, hlast, habove⟩ := stopsBefore_cases hstops
  have hall : ((readRows rows hydrates current (seen ++ entry :: ranked)).map
      VectorRow.exactKey).Nodup :=
    ((readRows_perm hids hperm).map _).nodup_iff.mpr
      ((nodup_exactKey hids).sublist (List.filter_sublist.map _))
  have hseen : ((readRows rows hydrates current seen).map VectorRow.exactKey).Nodup := by
    rw [readRows_append, List.map_append] at hall
    exact hall.of_append_left
  have hread : sortByKeys VectorRow.exactKey collected =
      sortByKeys VectorRow.exactKey (readRows rows hydrates current seen) :=
    sortByKeys_eq_of_perm hcollected ((hcollected.map _).nodup_iff.mpr hseen)
  have hsettled : sortByKeys VectorRow.exactKey (settleCollected limit collected) =
      sortByKeys VectorRow.exactKey collected :=
    sortByKeys_eq_of_perm (settleCollected_perm collected)
      ((((settleCollected_perm collected).trans hcollected).map _).nodup_iff.mpr hseen)
  -- a row behind has an approximation at or above that of the entry
  have hrest : ∀ row ∈ readRows rows hydrates current (entry :: ranked),
      last.exactKey ≤ row.exactKey := by
    intro row hrow
    obtain ⟨hmem, hentry⟩ := entry_of_mem_readRows hids
      (fun other hother => hperm.mem_iff.mp (List.mem_append_right seen hother)) hrow
    have hle : entry.distance ≤ row.approximate := by
      rcases List.mem_cons.mp hentry with hself | hlater
      · exact le_of_eq (congrArg RankedEntry.distance hself.symm)
      · exact Prod.Lex.monotone_fst _ _ (List.rel_of_pairwise_cons hsorted hlater)
    exact (exactKey_lt (cutoff_lt_exact happrox hmem (habove.trans_le hle))).le
  rw [readRows_append] at hall ⊢
  rw [hread] at hlast
  have htake := take_sortByKeys_append hall hlast hrest
  rw [Nat.sub_add_cancel hpos] at htake
  rw [hsettled, hread, htake]

/-- The walk from a place on, with what was read before it. -/
theorem take_hydrateWalk (hids : (rows.map VectorRow.id).Nodup) (happrox : Approximates rows)
    {ranked : List RankedEntry} {collected : List VectorRow} :
    ∀ seen : List RankedEntry, (seen ++ ranked).Perm (rows.map VectorRow.approximateKey) →
      ranked.Pairwise (· ≤ ·) → collected.Perm (readRows rows hydrates current seen) →
      (sortByKeys VectorRow.exactKey
        (hydrateWalk rows hydrates current limit ranked collected)).take limit =
      (sortByKeys VectorRow.exactKey
        (readRows rows hydrates current (seen ++ ranked))).take limit := by
  induction ranked, collected using hydrateWalk.induct rows hydrates current limit with
  | case1 collected =>
    intro seen hperm _ hcollected
    rw [hydrateWalk, List.append_nil] at *
    have hkeys : (collected.map VectorRow.exactKey).Nodup :=
      ((hcollected.trans (readRows_perm hids hperm)).map _).nodup_iff.mpr
        ((nodup_exactKey hids).sublist (List.filter_sublist.map _))
    rw [sortByKeys_eq_of_perm hcollected hkeys]
  | case2 entry ranked collected settled =>
    rename_i hstops
    intro seen hperm hsorted hcollected
    rw [hydrateWalk, if_pos hstops]
    exact take_of_stops hids happrox hperm hsorted hcollected hstops
  | case3 entry ranked collected settled =>
    rename_i hgoes ih
    intro seen hperm hsorted hcollected
    rw [hydrateWalk, if_neg hgoes]
    -- the batch joins what was seen, and the rows it reads what was collected
    have hseen : seen ++ (entry :: ranked) =
        (seen ++ (entry :: ranked).take (vectorBatchSize limit)) ++
          (entry :: ranked).drop (vectorBatchSize limit) := by
      rw [List.append_assoc, List.take_append_drop]
    rw [hseen] at hperm ⊢
    refine ih _ hperm (hsorted.sublist (List.drop_sublist _ _)) ?_
    rw [hydrateBatch_eq hids, readRows_append]
    exact ((settleCollected_perm collected).trans hcollected).append_right _

end Exact

/-- **Early stopping loses nothing.** The walk returns what a scan of all the verified rows
in the order of their exact distances returns. -/
theorem searchMemoriesVector_eq_fullScan (table : Table VectorRow.id)
    (hydrates current : VectorRow → Bool) (limit : Nat) (happrox : Approximates table.rows) :
    searchMemoriesVector table.rows hydrates current limit =
      fullVectorScan table.rows hydrates current limit := by
  obtain ⟨ranked, hranked⟩ : ∃ ranked, ranked =
      (table.rows.map VectorRow.approximateKey).insertionSort (· ≤ ·) := ⟨_, rfl⟩
  have hperm : ([] ++ ranked).Perm (table.rows.map VectorRow.approximateKey) :=
    hranked ▸ List.perm_insertionSort (· ≤ ·) _
  have hsorted : ranked.Pairwise (· ≤ ·) := hranked ▸ List.pairwise_insertionSort (· ≤ ·) _
  have hread : (readRows table.rows hydrates current ([] ++ ranked)).Perm
      (table.rows.filter fun row => hydrates row && current row) := readRows_perm table.nodup hperm
  have hkeys : ((readRows table.rows hydrates current ([] ++ ranked)).map
      VectorRow.exactKey).Nodup :=
    (hread.map _).nodup_iff.mpr ((nodup_exactKey table.nodup).sublist (List.filter_sublist.map _))
  rw [searchMemoriesVector, ← hranked, fullVectorScan, ← sortByKeys_eq_of_perm hread hkeys]
  exact take_hydrateWalk table.nodup happrox [] hperm hsorted (List.Perm.refl [])

/-- Two rows whose approximations are in the other order, and a stale one before them. -/
def approximatedRows : Table VectorRow.id where
  rows :=
    [⟨"far", "t", 2001 / 10000, 1995 / 10000⟩, ⟨"near", "t", 1998 / 10000, 2 / 10⟩,
      ⟨"stale", "t", 0, 0⟩]
  nodup := by decide

/-- The first row that is returned need not be the first of the scan. -/
theorem approximatedRows_search :
    (searchMemoriesVector approximatedRows.rows (fun _ => true)
      (fun row => row.id != "stale") 1).map VectorRow.id =
      (fullVectorScan approximatedRows.rows (fun _ => true)
        (fun row => row.id != "stale") 1).map VectorRow.id ∧
    (fullVectorScan approximatedRows.rows (fun _ => true)
      (fun row => row.id != "stale") 1).map VectorRow.id = ["near"] := by
  refine ⟨congrArg (List.map VectorRow.id)
    (searchMemoriesVector_eq_fullScan approximatedRows _ _ 1 ?_), by decide +kernel⟩
  unfold Approximates
  decide +kernel

end AliceBot
