import AliceBot.RollupCards

/-!
# Rows without their scope

Grouping reads the columns of a row that say what the memory is about and when, and never those
that say which projects it belongs to. A `ScopeErasure` takes the scope off a row and leaves what
is read; grouping rows without their scope gives the groups of the rows, without their scope.

Each function that reads rows has one lemma here: what it makes of erased rows.
-/

namespace AliceBot

open PyLib

/-- The columns that grouping reads. -/
def groupingColumns : List String :=
  ["id", "canonical_text", "summary", "title", "memory_key", "value", "first_seen_at",
    "created_at", "last_seen_at"]

/-- The metadata that grouping reads. -/
def groupingMetadata : List String :=
  ["session_date", "source_id", "session_id", "speaker", "speaker_role", "role"]

/-- A way to take the project scope off a row. -/
structure ScopeErasure where
  erase : Dict Json → Dict Json
  scope_eq : ∀ row, rowScopeKey (erase row) = []
  column_eq : ∀ row, ∀ key ∈ groupingColumns, (erase row).get? key = row.get? key
  metadata_eq : ∀ row, ∀ key ∈ groupingMetadata,
    ((erase row).getObj "metadata_json").item key = (row.getObj "metadata_json").item key

/-- The scope of a row, emptied: an empty canonical scope wins over every other spelling. -/
def emptyScope : ScopeErasure where
  erase row := row.set "project_scope" (.arr [])
  scope_eq row := by
    have hget : (row.set "project_scope" (.arr [])).get? "project_scope" = some (.arr []) :=
      Dict.get?_set_self ..
    rw [rowScopeKey, resolveProjectScope, hget]
    rfl
  column_eq row key hkey := by
    refine Dict.get?_set_of_ne row _ fun heq => ?_
    subst heq
    revert hkey
    decide
  metadata_eq row key _ := by
    have hget : (row.set "project_scope" (.arr [])).get? "metadata_json" =
        row.get? "metadata_json" := Dict.get?_set_of_ne row _ (by decide)
    unfold Dict.getObj Dict.item
    rw [hget]

section Rows

variable (env : RollupEnv) (erasure : ScopeErasure)

/-! ### What is read of a row -/

theorem item_erase (row : Dict Json) {key : String} (h : key ∈ groupingColumns) :
    (erasure.erase row).item key = row.item key := by
  rw [Dict.item, erasure.column_eq row key h, Dict.item]

/-- What the first of some columns gives. -/
theorem findSome?_columns {α : Type} (read : Json → Option α) (row : Dict Json)
    {keys : List String} (h : keys ⊆ groupingColumns) :
    (keys.findSome? fun key => read ((erasure.erase row).item key)) =
      keys.findSome? fun key => read (row.item key) := by
  induction keys with
  | nil => rfl
  | cons key keys ih =>
    obtain ⟨hkey, hkeys⟩ := List.cons_subset.mp h
    rw [List.findSome?_cons, List.findSome?_cons, item_erase erasure row hkey, ih hkeys]

/-- What the first of some metadata gives, where there are metadata. -/
theorem findSome?_getObj {α : Type} (read : String → Json → Option α)
    (hnull : ∀ key, read key .null = none) (value : Json) (keys : List String) :
    (value.asObj?.bind fun metadata => keys.findSome? fun key => read key (metadata.item key)) =
      keys.findSome? fun key => read key (value.objOrEmpty.item key) := by
  unfold Json.objOrEmpty
  cases value.asObj? with
  | some metadata => rfl
  | none =>
    refine Eq.symm (List.findSome?_eq_none_iff.mpr fun key _ => ?_)
    exact hnull key

theorem findSome?_metadata {α : Type} (read : String → Json → Option α)
    (hnull : ∀ key, read key .null = none) (row : Dict Json) {keys : List String}
    (h : keys ⊆ groupingMetadata) :
    (((erasure.erase row).item "metadata_json").asObj?.bind fun metadata =>
        keys.findSome? fun key => read key (metadata.item key)) =
      (row.item "metadata_json").asObj?.bind fun metadata =>
        keys.findSome? fun key => read key (metadata.item key) := by
  rw [findSome?_getObj read hnull, findSome?_getObj read hnull]
  induction keys with
  | nil => rfl
  | cons key keys ih =>
    obtain ⟨hkey, hkeys⟩ := List.cons_subset.mp h
    have hread := erasure.metadata_eq row key hkey
    unfold Dict.getObj at hread
    rw [List.findSome?_cons, List.findSome?_cons, hread, ih hkeys]

theorem memberId_erase (row : Dict Json) :
    memberId env (erasure.erase row) = memberId env row :=
  congrArg env.text (item_erase erasure row (by decide))

theorem memberText_erase (row : Dict Json) :
    memberText env (erasure.erase row) = memberText env row := by
  unfold memberText
  rw [findSome?_columns erasure writtenText row (by decide),
    item_erase erasure row (by decide : "value" ∈ groupingColumns),
    erasure.column_eq row "id" (by decide)]

/-- What one of the metadata gives, where there are metadata. -/
theorem metadata_erase {α : Type} (read : Json → Option α) (hnull : read .null = none)
    (row : Dict Json) {key : String} (h : key ∈ groupingMetadata) :
    (((erasure.erase row).item "metadata_json").asObj?.bind fun metadata =>
        read (metadata.item key)) =
      (row.item "metadata_json").asObj?.bind fun metadata => read (metadata.item key) := by
  have hone := findSome?_metadata erasure (fun _ => read) (fun _ => hnull) row
    (List.cons_subset.mpr ⟨h, List.nil_subset _⟩)
  simpa only [List.findSome?_singleton] using hone

theorem memberDate_erase (row : Dict Json) : memberDate (erasure.erase row) = memberDate row := by
  unfold memberDate
  rw [metadata_erase erasure (leadingDate 8) rfl row (by decide),
    item_erase erasure row (by decide : "value" ∈ groupingColumns),
    findSome?_columns erasure (leadingDate 10) row (by decide)]

theorem memberSessionKey_erase (row : Dict Json) :
    memberSessionKey (erasure.erase row) = memberSessionKey row := by
  unfold memberSessionKey
  rw [memberDate_erase, findSome?_metadata erasure
    (fun key value => (strippedText value).map fun value => key ++ ":" ++ value) (fun _ => rfl) row
    (by decide)]

theorem memberRole_erase (row : Dict Json) :
    memberRole env (erasure.erase row) = memberRole env row := by
  have hvalue := item_erase erasure row (by decide : "value" ∈ groupingColumns)
  have hmetadata : namedSpeaker env ((erasure.erase row).item "metadata_json") =
      namedSpeaker env (row.item "metadata_json") :=
    findSome?_metadata erasure (fun _ value => (strippedText value).map env.upper) (fun _ => rfl)
      row (by decide)
  unfold memberRole
  rw [hvalue, findSome?_columns erasure (taggedSpeaker env) row (by decide), List.findSome?_cons,
    List.findSome?_cons, hmetadata]
  rfl

theorem memberRank_erase (row : Dict Json) :
    memberRank env (erasure.erase row) = memberRank env row := by
  unfold memberRank
  rw [memberDate_erase, memberId_erase, item_erase erasure row (by decide)]

/-! ### What is read of members -/

theorem sortedMembers_map (members : List (Dict Json)) :
    sortedMembers env (members.map erasure.erase) =
      (sortedMembers env members).map erasure.erase :=
  sortByKeys_map (memberRank_erase env erasure) members

theorem groupMemberIds_map (members : List (Dict Json)) :
    groupMemberIds env (members.map erasure.erase) = groupMemberIds env members := by
  unfold groupMemberIds
  rw [List.map_map]
  exact congrArg List.toFinset (List.map_congr_left fun row _ => memberId_erase env erasure row)

theorem surfaceCounts_map (members : List (Dict Json)) (anchor : String) :
    surfaceCounts env (members.map erasure.erase) anchor = surfaceCounts env members anchor := by
  unfold surfaceCounts
  rw [List.flatMap_map]
  simp only [memberText_erase]

theorem surfaceForm_map (members : List (Dict Json)) (anchor : String) :
    surfaceForm env (members.map erasure.erase) anchor = surfaceForm env members anchor := by
  rw [surfaceForm, surfaceCounts_map, surfaceForm]

theorem surfaceVariants_map (members : List (Dict Json)) (anchors : List String)
    (label : String) : surfaceVariants env (members.map erasure.erase) anchors label =
      surfaceVariants env members anchors label := by
  unfold surfaceVariants
  simp only [surfaceCounts_map]

/-- What is made of the texts of some members. -/
theorem map_memberText {α : Type} (read : String → α) (members : List (Dict Json)) :
    ((members.map erasure.erase).map fun row => read (memberText env row)) =
      members.map fun row => read (memberText env row) := by
  rw [List.map_map]
  exact List.map_congr_left fun row _ => congrArg read (memberText_erase env erasure row)

theorem naturalSurfaceOrder_map (members : List (Dict Json)) (surfaces : List String) :
    naturalSurfaceOrder env (members.map erasure.erase) surfaces =
      naturalSurfaceOrder env members surfaces := by
  unfold naturalSurfaceOrder
  simp only [← List.map_take, map_memberText env erasure
    fun text => (collapse (env.link.casefold text)).toList]

theorem expandedEntityLabel_map (label : String) (members : List (Dict Json)) :
    expandedEntityLabel env label (members.map erasure.erase) =
      expandedEntityLabel env label members := by
  unfold expandedEntityLabel
  simp only [← List.map_take, List.flatMap_map, memberText_erase]

theorem rowProfile_erase (row : Dict Json) :
    rowProfile env (erasure.erase row) = rowProfile env row := by
  rw [rowProfile, memberText_erase, memberSessionKey_erase, rowProfile]

theorem rowProfiles_map (rows : List (Dict Json)) :
    rowProfiles env (rows.map erasure.erase) = rowProfiles env rows := by
  unfold rowProfiles
  rw [List.foldl_map]
  simp only [memberId_erase, rowProfile_erase]

theorem groupUtility_map (label : String) (members : List (Dict Json))
    (profiles : Dict RowProfile) (stats : CorpusStats) :
    groupUtility env label (members.map erasure.erase) profiles stats =
      groupUtility env label members profiles stats := by
  unfold groupUtility
  rw [List.filterMap_map, List.length_map]
  simp only [Function.comp_def, memberId_erase]

theorem sharedTokens_map (members : List (Dict Json)) :
    sharedTokens env (members.map erasure.erase) = sharedTokens env members := by
  cases members with
  | nil => rfl
  | cons member rest =>
    rw [List.map_cons, sharedTokens, sharedTokens, List.foldl_map]
    simp only [memberText_erase]

/-! ### Groups without their scope -/

/-- A group, the scope taken off its members. -/
def RollupGroup.erased (group : RollupGroup) : RollupGroup :=
  { group with members := group.members.map erasure.erase }

/-- What is kept while grouping, the scope taken off the groups. -/
def Grouping.erased (state : Grouping) : Grouping :=
  { state with groups := state.groups.map (RollupGroup.erased erasure) }

/-- A row under a key, without its scope. -/
def KeyedRow.erased (entry : KeyedRow) : KeyedRow := { entry with row := erasure.erase entry.row }

theorem drop_erased (state : Grouping) (key reason : String) :
    (state.drop key reason).erased erasure = (state.erased erasure).drop key reason := rfl

theorem skip_erased (state : Grouping) (reason : String) :
    (state.skip reason).erased erasure = (state.erased erasure).skip reason := rfl

/-- Admitting a group does not look at what is erased, so erasing before and after give
the same grouping. -/
theorem admitGroup_erased (excluded : List (Finset String)) (profiles : Dict RowProfile)
    (stats : CorpusStats) (kind : GroupKind) (name label : String) (members : List (Dict Json))
    (variants : List String) (state : Grouping) :
    admitGroup env excluded profiles stats kind name label (members.map erasure.erase) variants
        (state.erased erasure) =
      (admitGroup env excluded profiles stats kind name label members variants state).erased
        erasure := by
  unfold admitGroup
  dsimp only
  rw [List.length_map, groupMemberIds_map, groupUtility_map, sortedMembers_map, ← List.map_take,
    map_memberText]
  obtain ⟨utility, gate⟩ := groupUtility env label members profiles stats
  dsimp only
  -- the label and the utility decide, and they are the same for erased members
  cases labelJunkReason env label stats utility.distinctAmounts with
  | some reason => simp only [apply_ite (Grouping.erased erasure), drop_erased, skip_erased]
  | none =>
    cases gate with
    | some reason => simp only [apply_ite (Grouping.erased erasure), drop_erased, skip_erased]
    | none =>
      simp only [apply_ite (Grouping.erased erasure), skip_erased]
      simp only [Grouping.erased, List.map_append, List.map_cons, List.map_nil,
        RollupGroup.erased]

/-! ### Rounds -/

theorem rowCandidates_map (rows : List (Dict Json)) :
    rowCandidates env (rows.map erasure.erase) =
      (rowCandidates env rows).map (Prod.map erasure.erase id) := by
  have hrow : ∀ row : Dict Json,
      (erasure.erase row, extractEntityCandidates env.link env.rules
        (stripSpeakerTag env (memberText env (erasure.erase row)))) =
      Prod.map erasure.erase id (row, extractEntityCandidates env.link env.rules
        (stripSpeakerTag env (memberText env row))) := by
    intro row
    rw [memberText_erase, Prod.map_apply, id_eq]
  unfold rowCandidates
  rw [List.map_map, List.map_map]
  exact List.map_congr_left fun row _ => hrow row

theorem entityRows_map (candidates : List (Dict Json × List EntityCandidate)) :
    entityRows env (candidates.map (Prod.map erasure.erase id)) =
      (entityRows env candidates).map (KeyedRow.erased erasure) := by
  unfold entityRows
  rw [List.flatMap_map, List.flatMap_map, List.map_flatMap]
  simp only [Prod.map_snd, Prod.map_fst, id_eq, List.map_map]
  rfl

theorem anchorRows_map (rows : List (Dict Json)) :
    anchorRows env (rows.map erasure.erase) =
      (anchorRows env rows).map (KeyedRow.erased erasure) := by
  unfold anchorRows
  rw [List.flatMap_map, List.map_flatMap]
  simp only [memberText_erase, List.map_map]
  rfl

theorem keys_erased (entries : List KeyedRow) :
    (entries.map (KeyedRow.erased erasure)).map KeyedRow.key = entries.map KeyedRow.key := by
  rw [List.map_map]
  rfl

theorem countP_key_erased (entries : List KeyedRow) (key : String) :
    ((entries.map (KeyedRow.erased erasure)).countP fun entry => entry.key = key) =
      entries.countP fun entry => entry.key = key := by
  rw [List.countP_map]
  rfl

theorem filter_claimed_map (claimed : Finset String) (rows : List (Dict Json)) :
    ((rows.map erasure.erase).filter fun row => memberId env row ∉ claimed) =
      (rows.filter fun row => memberId env row ∉ claimed).map erasure.erase := by
  rw [List.filter_map]
  simp only [Function.comp_def, memberId_erase]

theorem unclaimed_map (entries : List KeyedRow) (key : String) (claimed : Finset String) :
    unclaimed env (entries.map (KeyedRow.erased erasure)) key claimed =
      (unclaimed env entries key claimed).map erasure.erase := by
  have hrows : (((entries.map (KeyedRow.erased erasure)).filter fun entry =>
      entry.key = key).map KeyedRow.row) =
      ((entries.filter fun entry => entry.key = key).map KeyedRow.row).map erasure.erase := by
    rw [List.filter_map, List.map_map, List.map_map]
    rfl
  unfold unclaimed
  rw [hrows, filter_claimed_map]

variable (options : RollupOptions) (excluded : List (Finset String))

theorem entityRound_erased (profiles : Dict RowProfile) (stats : CorpusStats)
    (entries : List KeyedRow) (state : Grouping) (key : String) :
    entityRound env options excluded profiles stats (entries.map (KeyedRow.erased erasure))
        (state.erased erasure) key =
      (entityRound env options excluded profiles stats entries state key).erased erasure := by
  have hdisplay : ((entries.map (KeyedRow.erased erasure)).find? fun entry =>
      entry.key = key).map KeyedRow.display =
      (entries.find? fun entry => entry.key = key).map KeyedRow.display := by
    rw [List.find?_map, Option.map_map]
    rfl
  have hclaimed : (state.erased erasure).claimed = state.claimed := rfl
  unfold entityRound
  dsimp only
  rw [hclaimed, unclaimed_map, List.length_map, hdisplay, expandedEntityLabel_map,
    admitGroup_erased, apply_ite (Grouping.erased erasure)]

theorem topicStems_map (stats : CorpusStats) (entries : List KeyedRow) (anchor : String)
    (members : List (Dict Json)) :
    topicStems env stats (entries.map (KeyedRow.erased erasure)) anchor
        (members.map erasure.erase) = topicStems env stats entries anchor members := by
  unfold topicStems
  simp only [sharedTokens_map, countP_key_erased]

theorem topicRound_erased (profiles : Dict RowProfile) (stats : CorpusStats)
    (entries : List KeyedRow) (state : Grouping) (anchor : String) :
    topicRound env options excluded profiles stats (entries.map (KeyedRow.erased erasure))
        (state.erased erasure) anchor =
      (topicRound env options excluded profiles stats entries state anchor).erased erasure := by
  have hclaimed : (state.erased erasure).claimed = state.claimed := rfl
  have hforms : ∀ (members : List (Dict Json)) (stems : List String),
      stems.map (surfaceForm env (members.map erasure.erase)) =
        stems.map (surfaceForm env members) := fun members stems =>
    List.map_congr_left fun stem _ => surfaceForm_map env erasure members stem
  unfold topicRound
  dsimp only
  rw [hclaimed, unclaimed_map, countP_key_erased, List.length_map, topicStems_map, hforms,
    naturalSurfaceOrder_map, surfaceVariants_map, admitGroup_erased]
  simp only [apply_ite (Grouping.erased erasure), drop_erased]

/-- The rounds over the keys, without scopes. -/
theorem foldl_erased (round round' : Grouping → String → Grouping)
    (h : ∀ state key, round' (state.erased erasure) key = (round state key).erased erasure)
    (keys : List String) (state : Grouping) :
    keys.foldl round' (state.erased erasure) = (keys.foldl round state).erased erasure := by
  induction keys generalizing state with
  | nil => rfl
  | cons key keys ih => rw [List.foldl_cons, List.foldl_cons, h, ih]

/-- The passes read no scope. -/
theorem groupingPasses_erased (rows : List (Dict Json)) :
    groupingPasses env options excluded (rows.map erasure.erase) =
      (groupingPasses env options excluded rows).erased erasure := by
  unfold groupingPasses
  dsimp only
  rw [rowProfiles_map, rowCandidates_map, entityRows_map, keys_erased]
  have hfirst := foldl_erased erasure _ _ (entityRound_erased env erasure options excluded
    (rowProfiles env rows) (corpusStats (rowProfiles env rows))
    (entityRows env (rowCandidates env rows)))
    (byFrequency ((entityRows env (rowCandidates env rows)).map KeyedRow.key)) {}
  have hempty : ({} : Grouping).erased erasure = {} := rfl
  rw [hempty] at hfirst
  rw [hfirst]
  have hclaimed : ∀ state : Grouping, (state.erased erasure).claimed = state.claimed :=
    fun _ => rfl
  rw [hclaimed, filter_claimed_map, anchorRows_map, keys_erased]
  exact foldl_erased erasure _ _ (topicRound_erased env erasure options excluded _ _ _) _ _

/-- Grouping the rows of one scope reads no scope. -/
theorem groupMembersSameScope_erased (rows : List (Dict Json)) :
    (groupMembersSameScope env options excluded (rows.map erasure.erase)).groups =
      (groupMembersSameScope env options excluded rows).groups.map
        (RollupGroup.erased erasure) := by
  unfold groupMembersSameScope
  rw [groupingPasses_erased]
  refine sortByKeys_map (fun group => ?_) _
  rw [groupRank, groupRank, RollupGroup.erased, List.length_map]

/-! ### Instances -/

theorem plainInstanceLabel_erase (row : Dict Json) :
    plainInstanceLabel env (erasure.erase row) = plainInstanceLabel env row := by
  unfold plainInstanceLabel
  rw [memberText_erase, item_erase erasure row (by decide : "title" ∈ groupingColumns)]

theorem instanceLabel_erase (row : Dict Json) (excludeNormalized : Option String) :
    instanceLabel env (erasure.erase row) excludeNormalized =
      instanceLabel env row excludeNormalized := by
  have hlabel : ∀ name : String, expandedEntityLabel env name [erasure.erase row] =
      expandedEntityLabel env name [row] := fun name =>
    expandedEntityLabel_map env erasure name [row]
  unfold instanceLabel
  simp only [memberText_erase, hlabel, plainInstanceLabel_erase]

/-- A member is written down the same without its scope. -/
theorem instanceRecord_erase (row : Dict Json) (excludeNormalized : Option String) :
    instanceRecord env (erasure.erase row) excludeNormalized =
      instanceRecord env row excludeNormalized := by
  unfold instanceRecord
  rw [memberId_erase, instanceLabel_erase, memberDate_erase, memberText_erase, memberRole_erase]

end Rows

end AliceBot
