import AliceBot.RankFusion

/-!
# Fusion as an aggregate

What `reciprocal_rank_fusion` owes its callers, for one family of ranked lists:
every id exactly once, no dependence on the order of the stages, no row punished
for a better rank, and ids that decide between true ties alone
(`FusionWellBehaved`).

Each of the four compares two sorted lists, and is a statement about their keys.
-/

namespace AliceBot

open PyLib

variable {env : RowEnv} {k : Int}

/-! ### What is asked -/

/-- The ids of a result, in their order. -/
def fusedIds (env : RowEnv) (fused : List FusedItem) : List String :=
  fused.map fun entry => entry.item.id env

/-- The place of an id in a result. -/
def place (env : RowEnv) (fused : List FusedItem) (itemId : String) : Nat :=
  (fusedIds env fused).idxOf itemId

/-- One row moved up, past the rows `passed`. -/
def MovedUp (item : Row) (rows moved : List Row) : Prop :=
  ∃ before passed after, rows = before ++ (passed ++ item :: after) ∧
    moved = before ++ item :: (passed ++ after)

/-- The row under another id. -/
def withId (env : RowEnv) (f : String → String) (row : Row) : Row :=
  Dict.set row "id" (.json (.str (f (row.id env))))

/-- All rows under other ids. -/
def renameIds (env : RowEnv) (f : String → String) (rankedLists : Dict (List Row)) :
    Dict (List Row) :=
  rankedLists.map fun stage => (stage.1, stage.2.map (withId env f))

section Asked

variable (env : RowEnv) (k : Int) (rankedLists : Dict (List Row))

/-- Every id of some stage is returned, and none twice. -/
def ReturnsEachIdOnce : Prop :=
  ∃ fused, reciprocalRankFusion env k rankedLists = .ok fused ∧
    (fusedIds env fused).Nodup ∧
    ∀ itemId, itemId ∈ fusedIds env fused ↔
      ∃ stage ∈ rankedLists, itemId ∈ stage.2.map (Row.id env)

/-- Where an id has one row, the order of the stages does not matter. -/
def IgnoresStageOrder : Prop :=
  (∀ a ∈ rankedLists.flatMap Prod.snd, ∀ b ∈ rankedLists.flatMap Prod.snd,
    a.id env = b.id env → a = b) →
  ∀ other, other.Perm rankedLists →
    ∃ fused fused', reciprocalRankFusion env k rankedLists = .ok fused ∧
      reciprocalRankFusion env k other = .ok fused' ∧
      fused'.map (fun entry => (entry.item, entry.rrfScore)) =
        fused.map fun entry => (entry.item, entry.rrfScore)

/-- A row moved up in one stage is not further down in the result. -/
def RewardsRanks : Prop :=
  ∀ front stage rows back item moved, rankedLists = front ++ (stage, rows) :: back →
    MovedUp item rows moved →
    ∃ fused fused', reciprocalRankFusion env k rankedLists = .ok fused ∧
      reciprocalRankFusion env k (front ++ (stage, moved) :: back) = .ok fused' ∧
      place env fused' (item.id env) ≤ place env fused (item.id env)

/-- Other ids reorder at most the rows that agree in score and content key. -/
def IgnoresIds : Prop :=
  ∀ f, Function.Injective f →
    ∃ fused fused', reciprocalRankFusion env k rankedLists = .ok fused ∧
      reciprocalRankFusion env k (renameIds env f rankedLists) = .ok fused' ∧
      ∀ a ∈ fused, ∀ b ∈ fused,
        (a.rrfScore, contentStableTiebreak env a.item) ≠
          (b.rrfScore, contentStableTiebreak env b.item) →
        (place env fused (a.item.id env) < place env fused (b.item.id env) ↔
          place env fused' (f (a.item.id env)) < place env fused' (f (b.item.id env)))

/-- What fusion owes its callers. -/
structure FusionWellBehaved : Prop where
  eachIdOnce : ReturnsEachIdOnce env k rankedLists
  stageOrder : IgnoresStageOrder env k rankedLists
  ranks : RewardsRanks env k rankedLists
  ids : IgnoresIds env k rankedLists

end Asked

/-! ### Places -/

theorem fusedIds_ranking (rankedLists : Dict (List Row)) :
    fusedIds env ((ranking env k rankedLists).map (fusedItem env k rankedLists)) =
      (ranking env k rankedLists).map (Row.id env) := by
  rw [fusedIds, List.map_map]
  rfl

/-- The place of a row is the number of rows with a smaller key. -/
theorem place_eq_countP {rankedLists : Dict (List Row)} {row : Row}
    (hrow : row ∈ firstRows env rankedLists) :
    place env ((ranking env k rankedLists).map (fusedItem env k rankedLists)) (row.id env) =
      (firstRows env rankedLists).countP fun other =>
        decide (fusionKey env k rankedLists other < fusionKey env k rankedLists row) := by
  rw [place, fusedIds_ranking, idxOf_eq_countP (ranking_increases rankedLists)
    (nodup_ranking rankedLists) (mem_ranking.mpr hrow)]
  exact (ranking_perm rankedLists).countP_eq _

theorem place_lt_place_iff {rankedLists : Dict (List Row)} {a b : Row}
    (ha : a ∈ firstRows env rankedLists) (hb : b ∈ firstRows env rankedLists) :
    place env ((ranking env k rankedLists).map (fusedItem env k rankedLists)) (a.id env) <
        place env ((ranking env k rankedLists).map (fusedItem env k rankedLists)) (b.id env) ↔
      fusionKey env k rankedLists a < fusionKey env k rankedLists b := by
  rw [place, place, fusedIds_ranking]
  exact idxOf_lt_idxOf_iff (ranking_increases rankedLists) (nodup_ranking rankedLists)
    (mem_ranking.mpr ha) (mem_ranking.mpr hb)

/-- A row is in the result under every id that some stage returned. -/
theorem mem_ids_firstRows {rankedLists : Dict (List Row)} {itemId : String} :
    itemId ∈ (firstRows env rankedLists).map (Row.id env) ↔
      ∃ stage ∈ rankedLists, itemId ∈ stage.2.map (Row.id env) := by
  have hkeys : itemId ∈ [] ∨ itemId ∈ (firstRows env rankedLists).map (Row.id env) ↔
      itemId ∈ [] ∨ itemId ∈ (rankedLists.flatMap Prod.snd).map (Row.id env) :=
    mem_seen_or_firstsAfter
  simp only [List.not_mem_nil, false_or] at hkeys
  rw [hkeys]
  simp only [List.mem_map, List.mem_flatMap]
  constructor
  · rintro ⟨row, ⟨stage, hstage, hrow⟩, hid⟩
    exact ⟨stage, hstage, row, hrow, hid⟩
  · rintro ⟨stage, hstage, row, hrow, hid⟩
    exact ⟨row, ⟨stage, hstage, hrow⟩, hid⟩

/-! ### The order of the stages -/

theorem firstRows_perm {rankedLists other : Dict (List Row)} (h : other.Perm rankedLists)
    (hagree : ∀ a ∈ rankedLists.flatMap Prod.snd, ∀ b ∈ rankedLists.flatMap Prod.snd,
      a.id env = b.id env → a = b) :
    (firstRows env other).Perm (firstRows env rankedLists) := by
  have hrows : (other.flatMap Prod.snd).Perm (rankedLists.flatMap Prod.snd) := h.flatMap_right _
  have hagree' : ∀ a ∈ other.flatMap Prod.snd, ∀ b ∈ other.flatMap Prod.snd,
      a.id env = b.id env → a = b := fun a ha b hb =>
    hagree a (hrows.mem_iff.mp ha) b (hrows.mem_iff.mp hb)
  refine (List.perm_ext_iff_of_nodup (nodup_firstRows other).of_map
    (nodup_firstRows rankedLists).of_map).mpr fun row => ?_
  rw [firstRows, firstRows, mem_firstsAfter_of_agree hagree', mem_firstsAfter_of_agree hagree,
    hrows.mem_iff]

theorem fusionScore_perm {rankedLists other : Dict (List Row)} (h : other.Perm rankedLists)
    (itemId : String) : fusionScore env k other itemId = fusionScore env k rankedLists itemId :=
  (h.map _).sum_eq

/-- The same rows under the same keys are sorted in one way. -/
theorem ranking_eq {rankedLists other : Dict (List Row)}
    (hrows : (firstRows env other).Perm (firstRows env rankedLists))
    (hscores : ∀ itemId, fusionScore env k other itemId = fusionScore env k rankedLists itemId) :
    ranking env k other = ranking env k rankedLists := by
  have hkey : fusionKey env k other = fusionKey env k rankedLists :=
    funext fun row => by rw [fusionKey, fusionKey, hscores]
  have hother : (ranking env k other).Pairwise fun a b =>
      fusionKey env k other a < fusionKey env k other b := ranking_increases other
  rw [hkey] at hother
  refine List.Perm.eq_of_pairwise (fun a b _ _ hab hba => absurd hab (lt_asymm hba)) hother
    (ranking_increases rankedLists) ?_
  exact (ranking_perm other).trans (hrows.trans (ranking_perm rankedLists).symm)

/-! ### A row moved up -/

theorem MovedUp.perm {item : Row} {rows moved : List Row} (h : MovedUp item rows moved) :
    moved.Perm rows := by
  obtain ⟨before, passed, after, rfl, rfl⟩ := h
  exact (List.perm_middle.symm).append_left before

/-- The row itself is not further down. -/
theorem MovedUp.idxOf_self {item : Row} {rows moved : List Row} (h : MovedUp item rows moved) :
    (moved.map (Row.id env)).idxOf (item.id env) ≤ (rows.map (Row.id env)).idxOf (item.id env) := by
  obtain ⟨before, passed, after, rfl, rfl⟩ := h
  simp only [List.map_append, List.map_cons]
  rw [List.idxOf_append, List.idxOf_append]
  split
  · exact le_rfl
  · rw [List.idxOf_cons_self]
    exact Nat.add_le_add_right (Nat.zero_le _) _

/-- No other row is further up. -/
theorem MovedUp.idxOf_other {item : Row} {rows moved : List Row} (h : MovedUp item rows moved)
    {itemId : String} (hne : item.id env ≠ itemId) :
    (rows.map (Row.id env)).idxOf itemId ≤ (moved.map (Row.id env)).idxOf itemId := by
  obtain ⟨before, passed, after, rfl, rfl⟩ := h
  simp only [List.map_append, List.map_cons]
  by_cases hbefore : itemId ∈ before.map (Row.id env)
  · rw [List.idxOf_append_of_mem hbefore, List.idxOf_append_of_mem hbefore]
  · rw [List.idxOf_append_of_notMem hbefore, List.idxOf_append_of_notMem hbefore,
      List.idxOf_cons_ne _ hne]
    refine Nat.add_le_add_left ?_ _
    by_cases hpassed : itemId ∈ passed.map (Row.id env)
    · rw [List.idxOf_append_of_mem hpassed, List.idxOf_append_of_mem hpassed]
      exact Nat.le_succ _
    · rw [List.idxOf_append_of_notMem hpassed, List.idxOf_append_of_notMem hpassed,
        List.idxOf_cons_ne _ hne]
      omega

theorem mem_ids_movedUp {item : Row} {rows moved : List Row} (h : MovedUp item rows moved)
    (itemId : String) : itemId ∈ moved.map (Row.id env) ↔ itemId ∈ rows.map (Row.id env) :=
  (h.perm.map _).mem_iff

/-- A smaller rank counts for more. -/
theorem stageScore_mono (hk : 1 ≤ k) {rows rows' : List Row} {itemId : String}
    (hmem : itemId ∈ rows'.map (Row.id env) ↔ itemId ∈ rows.map (Row.id env))
    (hidx : (rows'.map (Row.id env)).idxOf itemId ≤ (rows.map (Row.id env)).idxOf itemId) :
    stageScore env k rows itemId ≤ stageScore env k rows' itemId := by
  rw [stageScore, stageScore]
  simp only [hmem]
  split
  · refine one_div_le_one_div_of_le ?_ ?_
    · exact_mod_cast (by omega : (0 : Int) <
        k + (((rows'.map (Row.id env)).idxOf itemId + 1 : Nat) : Int))
    · exact_mod_cast (by omega : k + (((rows'.map (Row.id env)).idxOf itemId + 1 : Nat) : Int) ≤
        k + (((rows.map (Row.id env)).idxOf itemId + 1 : Nat) : Int))
  · exact le_rfl

section Moved

variable {front back : Dict (List Row)} {stage : String} {rows moved : List Row} {item : Row}

theorem fusionScore_replace (itemId : String) :
    fusionScore env k (front ++ (stage, rows) :: back) itemId =
      fusionScore env k front itemId + stageScore env k rows itemId +
        fusionScore env k back itemId := by
  rw [fusionScore, List.map_append, List.sum_append, List.map_cons, List.sum_cons, ← add_assoc]
  rfl

/-- Moving a row up in one stage does not change which rows come first. -/
theorem firstRows_movedUp (hstages : DistinctStages env (front ++ (stage, rows) :: back))
    (h : MovedUp item rows moved) :
    (firstRows env (front ++ (stage, moved) :: back)).Perm
      (firstRows env (front ++ (stage, rows) :: back)) := by
  have hrows : (rows.map (Row.id env)).Nodup := hstages (stage, rows) (by simp)
  have hmoved : (moved.map (Row.id env)).Nodup := (h.perm.map _).nodup_iff.mpr hrows
  have hseen (seen : List String) (itemId : String) :
      itemId ∈ moved.map (Row.id env) ++ seen ↔ itemId ∈ rows.map (Row.id env) ++ seen := by
    rw [List.mem_append, List.mem_append, mem_ids_movedUp h]
  simp only [firstRows, List.flatMap_append, List.flatMap_cons, firstsAfter_append]
  rw [firstsAfter_congr (hseen _)]
  exact ((firstsAfter_perm h.perm hmoved _).append_right _).append_left _

/-- Fewer rows are in front of the row than before. -/
theorem fusionKey_lt_of_movedUp (hk : 1 ≤ k) (h : MovedUp item rows moved) {a b : Row}
    (ha : a.id env = item.id env) (hb : b.id env ≠ item.id env)
    (hlt : fusionKey env k (front ++ (stage, moved) :: back) b <
      fusionKey env k (front ++ (stage, moved) :: back) a) :
    fusionKey env k (front ++ (stage, rows) :: back) b <
      fusionKey env k (front ++ (stage, rows) :: back) a := by
  have hraised : fusionScore env k (front ++ (stage, rows) :: back) (a.id env) ≤
      fusionScore env k (front ++ (stage, moved) :: back) (a.id env) := by
    rw [fusionScore_replace, fusionScore_replace, ha]
    exact add_le_add_left (add_le_add_right
      (stageScore_mono hk (mem_ids_movedUp h _) h.idxOf_self) _) _
  have hlowered : fusionScore env k (front ++ (stage, moved) :: back) (b.id env) ≤
      fusionScore env k (front ++ (stage, rows) :: back) (b.id env) := by
    rw [fusionScore_replace, fusionScore_replace]
    exact add_le_add_left (add_le_add_right
      (stageScore_mono hk (mem_ids_movedUp h _).symm (h.idxOf_other hb.symm)) _) _
  rw [fusionKey, fusionKey, Prod.Lex.toLex_lt_toLex] at hlt ⊢
  obtain hscore | ⟨hscore, hcontent⟩ := hlt
  · left
    dsimp only at hscore ⊢
    linarith
  · -- equal scores after the move: the content decides, unless the scores differed before
    dsimp only at hscore hcontent ⊢
    obtain heq | hne := eq_or_ne
      (fusionScore env k (front ++ (stage, rows) :: back) (b.id env))
      (fusionScore env k (front ++ (stage, rows) :: back) (a.id env))
    · exact .inr ⟨by rw [heq], hcontent⟩
    · left
      have := lt_of_le_of_ne (by linarith) hne.symm
      linarith

end Moved

/-! ### Other ids -/

@[simp] theorem id_withId (f : String → String) (row : Row) :
    (withId env f row).id env = f (row.id env) := by
  rw [Row.id, withId, Row.cell_set_self]
  rfl

theorem contentStableTiebreak_withId (f : String → String) (row : Row) :
    contentStableTiebreak env (withId env f row) = contentStableTiebreak env row :=
  contentStableTiebreak_set_id env row _

section Renamed

variable {f : String → String} (hf : Function.Injective f) {rankedLists : Dict (List Row)}
include hf

theorem firstRows_renameIds :
    firstRows env (renameIds env f rankedLists) =
      (firstRows env rankedLists).map (withId env f) := by
  have hrows : (renameIds env f rankedLists).flatMap Prod.snd =
      (rankedLists.flatMap Prod.snd).map (withId env f) := by
    rw [renameIds, List.flatMap_map, List.map_flatMap]
  rw [firstRows, hrows]
  exact firstsAfter_map hf (id_withId f) [] _

theorem stageScore_renameIds (rows : List Row) (itemId : String) :
    stageScore env k (rows.map (withId env f)) (f itemId) = stageScore env k rows itemId := by
  have hids : (rows.map (withId env f)).map (Row.id env) = (rows.map (Row.id env)).map f := by
    simp
  rw [stageScore, stageScore, hids, idxOf_map_of_injective hf]
  simp only [List.mem_map_of_injective hf]

theorem fusionScore_renameIds (itemId : String) :
    fusionScore env k (renameIds env f rankedLists) (f itemId) =
      fusionScore env k rankedLists itemId := by
  rw [fusionScore, renameIds, List.map_map, fusionScore]
  exact congrArg List.sum (List.map_congr_left fun stage _ => stageScore_renameIds hf _ _)

theorem distinctStages_renameIds (h : DistinctStages env rankedLists) :
    DistinctStages env (renameIds env f rankedLists) := by
  intro stage hstage
  obtain ⟨stage, hmem, rfl⟩ := List.mem_map.mp hstage
  have hids : (stage.2.map (withId env f)).map (Row.id env) = (stage.2.map (Row.id env)).map f := by
    simp
  rw [hids]
  exact (h stage hmem).map hf

/-- Where two rows differ in score or content, the ids are not compared. -/
theorem fusionKey_lt_renameIds {a b : Row}
    (hne : (fusionScore env k rankedLists (a.id env), contentKey env a) ≠
      (fusionScore env k rankedLists (b.id env), contentKey env b)) :
    fusionKey env k (renameIds env f rankedLists) (withId env f a) <
        fusionKey env k (renameIds env f rankedLists) (withId env f b) ↔
      fusionKey env k rankedLists a < fusionKey env k rankedLists b := by
  have hcontent (row : Row) : contentKey env (withId env f row) = contentKey env row := by
    rw [contentKey, contentStableTiebreak_withId, contentKey]
  simp only [fusionKey, Prod.Lex.toLex_lt_toLex, id_withId, fusionScore_renameIds hf, hcontent]
  refine or_congr_right (and_congr_right fun hscore => or_congr_right ?_)
  -- the ids come last, after equal scores and contents
  refine iff_of_false (fun h => hne ?_) fun h => hne ?_
  · exact Prod.ext (neg_inj.mp hscore) h.1
  · exact Prod.ext (neg_inj.mp hscore) h.1

end Renamed

/-! ### The aggregate -/

theorem datesConvert_withId (f : String → String) (row : Row) :
    DatesConvert env (withId env f row) ↔ DatesConvert env row := by
  rw [← contentStableTiebreak_ok_iff, ← contentStableTiebreak_ok_iff,
    contentStableTiebreak_withId]

theorem contentStableTiebreak_eq {row : Row} (h : DatesConvert env row) :
    contentStableTiebreak env row = .ok (contentKey env row) := by
  obtain ⟨content, hcontent⟩ := (contentStableTiebreak_ok_iff env row).mpr h
  rw [contentKey, hcontent]

section Aggregate

variable {rankedLists : Dict (List Row)} (hk : 1 ≤ k) (hstages : DistinctStages env rankedLists)
  (hdates : ∀ row ∈ firstRows env rankedLists, DatesConvert env row)
include hk hstages hdates

theorem returnsEachIdOnce_of_dates : ReturnsEachIdOnce env k rankedLists := by
  refine ⟨_, reciprocalRankFusion_eq hk hstages hdates, ?_, fun itemId => ?_⟩
  · rw [fusedIds_ranking]
    exact nodup_ranking rankedLists
  · rw [fusedIds_ranking, ((ranking_perm rankedLists).map _).mem_iff]
    exact mem_ids_firstRows

theorem ignoresStageOrder_of_dates : IgnoresStageOrder env k rankedLists := by
  intro hagree other hperm
  have hrows := firstRows_perm hperm hagree
  have hother := reciprocalRankFusion_eq (k := k) hk
    (fun stage hstage => hstages stage (hperm.mem_iff.mp hstage))
    (fun row hrow => hdates row (hrows.mem_iff.mp hrow))
  refine ⟨_, _, reciprocalRankFusion_eq hk hstages hdates, hother, ?_⟩
  rw [ranking_eq hrows (fusionScore_perm hperm), List.map_map, List.map_map]
  refine List.map_congr_left fun row _ => ?_
  dsimp only [Function.comp_apply, fusedItem]
  rw [fusionScore_perm hperm]

/-- A row that moves up in one stage does not move down in the result. -/
theorem rewardsRanks_of_dates : RewardsRanks env k rankedLists := by
  rintro front stage rows back item moved rfl hmoved
  have hrows := firstRows_movedUp hstages hmoved
  have hdistinct : DistinctStages env (front ++ (stage, moved) :: back) := by
    intro other hother
    obtain hfront | hmid := List.mem_append.mp hother
    · exact hstages other (List.mem_append_left _ hfront)
    · obtain rfl | hback := List.mem_cons.mp hmid
      · exact (hmoved.perm.map _).nodup_iff.mpr (hstages (stage, rows) (by simp))
      · exact hstages other (List.mem_append_right _ (List.mem_cons_of_mem _ hback))
  have hother := reciprocalRankFusion_eq (k := k) hk hdistinct
    fun row hrow => hdates row (hrows.mem_iff.mp hrow)
  refine ⟨_, _, reciprocalRankFusion_eq hk hstages hdates, hother, ?_⟩
  -- the row may come first in another stage, under the same id
  have hmem : item ∈ rows := by
    obtain ⟨before, passed, after, rfl, -⟩ := hmoved
    simp
  have hitem : item.id env ∈
      (firstRows env (front ++ (stage, rows) :: back)).map (Row.id env) :=
    mem_ids_firstRows.mpr ⟨(stage, rows), by simp, List.mem_map_of_mem hmem⟩
  obtain ⟨row, hrow, hid⟩ := List.mem_map.mp hitem
  rw [← hid, place_eq_countP hrow, place_eq_countP (hrows.mem_iff.mpr hrow), hrows.countP_eq]
  refine List.countP_mono_left fun other hother hlt => ?_
  rw [decide_eq_true_eq] at hlt ⊢
  refine fusionKey_lt_of_movedUp hk hmoved hid (fun hsame => ?_) hlt
  -- the only row with the id is the row itself
  have heq := List.inj_on_of_nodup_map (nodup_firstRows _) hother hrow (hsame.trans hid.symm)
  rw [heq] at hlt
  exact lt_irrefl _ hlt

/-- Renaming the rows leaves their order as it was, wherever scores and contents decide
it. -/
theorem ignoresIds_of_dates : IgnoresIds env k rankedLists := by
  intro f hf
  have hrows : firstRows env (renameIds env f rankedLists) =
      (firstRows env rankedLists).map (withId env f) := firstRows_renameIds hf
  have hrenamed : ∀ row ∈ firstRows env (renameIds env f rankedLists), DatesConvert env row := by
    intro row hrow
    rw [hrows] at hrow
    obtain ⟨original, horiginal, rfl⟩ := List.mem_map.mp hrow
    exact (datesConvert_withId f original).mpr (hdates original horiginal)
  -- the renamed lists are fused as the lists are, row by row
  have hother := reciprocalRankFusion_eq (k := k) hk (distinctStages_renameIds hf hstages) hrenamed
  refine ⟨_, _, reciprocalRankFusion_eq hk hstages hdates, hother, fun a ha b hb hne => ?_⟩
  obtain ⟨row, hrow, rfl⟩ := List.mem_map.mp ha
  obtain ⟨row', hrow', rfl⟩ := List.mem_map.mp hb
  have hfirst := mem_ranking.mp hrow
  have hfirst' := mem_ranking.mp hrow'
  have hmem : withId env f row ∈ firstRows env (renameIds env f rankedLists) :=
    hrows ▸ List.mem_map_of_mem hfirst
  have hmem' : withId env f row' ∈ firstRows env (renameIds env f rankedLists) :=
    hrows ▸ List.mem_map_of_mem hfirst'
  dsimp only [fusedItem] at hne ⊢
  rw [contentStableTiebreak_eq (hdates row hfirst),
    contentStableTiebreak_eq (hdates row' hfirst')] at hne
  rw [place_lt_place_iff hfirst hfirst', ← id_withId f row, ← id_withId f row',
    place_lt_place_iff hmem hmem', fusionKey_lt_renameIds hf]
  -- ids decide only where score and content are equal
  intro heq
  obtain ⟨hscore, hcontent⟩ := Prod.mk.inj heq
  exact hne (by rw [hscore, hcontent])

end Aggregate

/-- **Fusion is a well-behaved aggregate** of the stages exactly where the dates of
the rows it sorts can be read. -/
theorem fusion_wellBehaved_iff (hk : 1 ≤ k) {rankedLists : Dict (List Row)}
    (hstages : DistinctStages env rankedLists) :
    FusionWellBehaved env k rankedLists ↔
      ∀ row ∈ firstRows env rankedLists, DatesConvert env row := by
  constructor
  · rintro ⟨⟨fused, hfused, -⟩, -⟩
    exact datesConvert_of_returns hfused
  · intro hdates
    exact {
      eachIdOnce := returnsEachIdOnce_of_dates hk hstages hdates
      stageOrder := ignoresStageOrder_of_dates hk hstages hdates
      ranks := rewardsRanks_of_dates hk hstages hdates
      ids := ignoresIds_of_dates hk hstages hdates }

/-! ### Two stages -/

/-- A row with an id. -/
def rowNamed (itemId : String) : Row := [("id", .json (.str itemId))]

/-- Two stages that return three rows. -/
def twoStages : Dict (List Row) :=
  [("fts", [rowNamed "a", rowNamed "b"]), ("vector", [rowNamed "b", rowNamed "c"])]

theorem fusion_wellBehaved_twoStages :
    FusionWellBehaved RowEnv.plain 60 twoStages ↔
      ∀ row ∈ firstRows RowEnv.plain twoStages, DatesConvert RowEnv.plain row :=
  fusion_wellBehaved_iff (by decide) (by unfold DistinctStages; decide +kernel)

/-- A row captured with the date of the calendar's first hour, told ahead of UTC. -/
def farRow : Row :=
  [("id", .json (.str "a")),
    ("metadata_json", .json (.obj [("session_date", .str "0001-01-01T00:00:00+01:00")]))]

/-- The reading of that text. -/
def RowEnv.readingFirstHour : RowEnv :=
  { RowEnv.plain with
    fromisoformat := fun text =>
      if text = "0001-01-01T00:00:00+01:00" then some firstHour else none }

/-- One stage with one row is not fused: the date of the row raises. -/
theorem fusion_overflows :
    ¬ FusionWellBehaved RowEnv.readingFirstHour 60 [("fts", [farRow])] := by
  rintro ⟨⟨fused, hfused, -⟩, -⟩
  have hraised : contentStableEventTime RowEnv.readingFirstHour farRow = .error .overflow := by
    decide +kernel
  have hfirst : farRow ∈ firstRows RowEnv.readingFirstHour [("fts", [farRow])] :=
    List.mem_cons_self ..
  obtain ⟨key, hkey⟩ :=
    (contentStableTiebreak_ok_iff _ _).mpr (datesConvert_of_returns hfused farRow hfirst)
  rw [contentStableTiebreak, hraised] at hkey
  cases hkey

end AliceBot
