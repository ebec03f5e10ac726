import AliceBot.RollupErasure

/-!
# Scopes of roll-ups

A project scope only partitions. `groupsOfScope_groupMembers` says that the groups of a scope are
those of its rows alone, under keys that begin with the scope; and grouping these rows without
their scope gives the same groups.

The cards are where the two part. The entity that a group is about is read back out of its key,
to leave its name out of the labels of the instances, and the key of a group of a scope does not
begin as the reading expects. `scopeOnlyPartitions_iff` says that this is all.
-/

namespace AliceBot

open PyLib

/-- The groups whose members have a scope. -/
def groupsOfScope (scope : List String) (groups : List RollupGroup) : List RollupGroup :=
  groups.filter fun group => ∀ member ∈ group.members, rowScopeKey member = scope

section Scopes

variable {env : RollupEnv} {options : RollupOptions} {excluded : List (Finset String)}

/-! ### What a group is made of -/

/-- A group of some rows, under a key of its kind. -/
structure GroupFrom (rows : List (Dict Json)) (group : RollupGroup) : Prop where
  ne_nil : group.members ≠ []
  mem : ∀ member ∈ group.members, member ∈ rows
  key : ∃ name, group.rollupKey = group.groupKind.tag ++ name

/-- All groups are of some rows. -/
def GroupsFrom (rows : List (Dict Json)) (state : Grouping) : Prop :=
  ∀ group ∈ state.groups, GroupFrom rows group

theorem three_le_of_gateReason {memberCount : Nat} {utility : GroupUtility}
    (h : gateReason memberCount utility = none) : 3 ≤ memberCount := by
  unfold gateReason at h
  split at h
  · cases h
  · next hcount => exact Nat.le_of_not_lt hcount

/-- Admitting a group of rows keeps all groups made of those rows. -/
theorem groupsFrom_admitGroup {rows members : List (Dict Json)} {profiles : Dict RowProfile}
    {stats : CorpusStats} {kind : GroupKind} {name label : String} {variants : List String}
    {state : Grouping} (hstate : GroupsFrom rows state) (hmembers : ∀ row ∈ members, row ∈ rows) :
    GroupsFrom rows
      (admitGroup env excluded profiles stats kind name label members variants state) := by
  have hgate : (groupUtility env label members profiles stats).2 =
      gateReason members.length (groupUtility env label members profiles stats).1 := rfl
  unfold admitGroup
  generalize groupUtility env label members profiles stats = result at hgate ⊢
  obtain ⟨utility, gate⟩ := result
  dsimp only at hgate ⊢
  split
  · exact hstate
  · split
    · exact hstate
    · split
      · exact hstate
      · split
        · exact hstate
        · exact hstate
        · -- the group that is admitted passed the gate, so it has members
          have hthree := three_le_of_gateReason hgate.symm
          intro group hgroup
          rcases List.mem_append.mp hgroup with hold | hnew
          · exact hstate group hold
          · obtain rfl := List.mem_singleton.mp hnew
            refine ⟨fun hnil => ?_, fun row hrow => ?_, name, rfl⟩
            · have hlength := congrArg List.length hnil
              rw [sortedMembers, length_sortByKeys, List.length_nil] at hlength
              omega
            · exact hmembers row (mem_sortByKeys.mp hrow)

/-- The rows that stand under keys are those of a list. -/
def RowsFrom (rows : List (Dict Json)) (entries : List KeyedRow) : Prop :=
  ∀ entry ∈ entries, entry.row ∈ rows

theorem mem_of_mem_unclaimed {rows : List (Dict Json)} {entries : List KeyedRow}
    (h : RowsFrom rows entries) {key : String} {claimed : Finset String} :
    ∀ row ∈ unclaimed env entries key claimed, row ∈ rows := by
  intro row hrow
  obtain ⟨entry, hentry, rfl⟩ := List.mem_map.mp (List.mem_of_mem_filter hrow)
  exact h entry (List.mem_of_mem_filter hentry)

theorem rowsFrom_entityRows (rows : List (Dict Json)) :
    RowsFrom rows (entityRows env (rowCandidates env rows)) := by
  intro entry hentry
  obtain ⟨⟨row, found⟩, hpair, hentry⟩ := List.mem_flatMap.mp hentry
  obtain ⟨⟨key, display⟩, _, rfl⟩ := List.mem_map.mp hentry
  obtain ⟨row', hrow, heq⟩ := List.mem_map.mp hpair
  have hsame : row' = row := congrArg Prod.fst heq
  exact hsame ▸ hrow

theorem rowsFrom_anchorRows {rows remaining : List (Dict Json)} (h : remaining ⊆ rows) :
    RowsFrom rows (anchorRows env remaining) := by
  intro entry hentry
  obtain ⟨row, hrow, hentry⟩ := List.mem_flatMap.mp hentry
  obtain ⟨_, _, rfl⟩ := List.mem_map.mp hentry
  exact h hrow

theorem groupsFrom_entityRound {rows : List (Dict Json)} {profiles : Dict RowProfile}
    {stats : CorpusStats} {entries : List KeyedRow} (hentries : RowsFrom rows entries)
    {state : Grouping} (hstate : GroupsFrom rows state) (key : String) :
    GroupsFrom rows (entityRound env options excluded profiles stats entries state key) := by
  unfold entityRound
  dsimp only
  split
  · exact hstate
  · exact groupsFrom_admitGroup hstate (mem_of_mem_unclaimed hentries)

theorem groupsFrom_topicRound {rows : List (Dict Json)} {profiles : Dict RowProfile}
    {stats : CorpusStats} {entries : List KeyedRow} (hentries : RowsFrom rows entries)
    {state : Grouping} (hstate : GroupsFrom rows state) (anchor : String) :
    GroupsFrom rows (topicRound env options excluded profiles stats entries state anchor) := by
  unfold topicRound
  dsimp only
  split
  · split
    · exact hstate
    · exact hstate
  · split
    · exact hstate
    · exact groupsFrom_admitGroup hstate (mem_of_mem_unclaimed hentries)

theorem groupsFrom_foldl {rows : List (Dict Json)} {round : Grouping → String → Grouping}
    (h : ∀ state key, GroupsFrom rows state → GroupsFrom rows (round state key))
    (keys : List String) : ∀ {state : Grouping}, GroupsFrom rows state →
      GroupsFrom rows (keys.foldl round state) := by
  induction keys with
  | nil => exact fun hstate => hstate
  | cons key keys ih => exact fun hstate => ih (h _ key hstate)

theorem groupsFrom_groupingPasses (rows : List (Dict Json)) :
    GroupsFrom rows (groupingPasses env options excluded rows) := by
  unfold groupingPasses
  dsimp only
  refine groupsFrom_foldl (fun state anchor hstate => groupsFrom_topicRound
    (rowsFrom_anchorRows (List.filter_subset_self _)) hstate anchor) _ ?_
  refine groupsFrom_foldl (fun state key hstate => groupsFrom_entityRound
    (rowsFrom_entityRows rows) hstate key) _ ?_
  exact fun _ hgroup => absurd hgroup List.not_mem_nil

theorem groupFrom_of_sameScope {rows : List (Dict Json)} {group : RollupGroup}
    (h : group ∈ (groupMembersSameScope env options excluded rows).groups) :
    GroupFrom rows group :=
  groupsFrom_groupingPasses rows group (mem_sortByKeys.mp h)

/-! ### The groups of a scope -/

theorem sameScope_nil : (groupMembersSameScope env options excluded []).groups = [] := by
  refine List.eq_nil_iff_forall_not_mem.mpr fun group hgroup => ?_
  have hfrom := groupFrom_of_sameScope hgroup
  obtain ⟨member, hmember⟩ := List.exists_mem_of_ne_nil _ hfrom.ne_nil
  exact absurd (hfrom.mem member hmember) List.not_mem_nil

theorem le_append_left_string {a b : String} (front : String) (h : a ≤ b) :
    front ++ a ≤ front ++ b := by
  rw [String.le_iff_toList_le, ← not_lt] at h ⊢
  rw [String.toList_append, String.toList_append]
  exact List.append_left_le h

/-- Keys of one scope are in the order that they have without it. -/
theorem groupRank_scoped {scope : List String} {group other : RollupGroup}
    (h : KeyOrder groupRank group other) :
    KeyOrder groupRank (group.scoped env scope) (other.scoped env scope) := by
  unfold KeyOrder groupRank at h ⊢
  rw [Prod.Lex.toLex_le_toLex] at h ⊢
  refine h.imp_right fun ⟨hscore, hrest⟩ => ⟨hscore, ?_⟩
  rw [Prod.Lex.toLex_le_toLex] at hrest ⊢
  exact hrest.imp_right fun ⟨hlength, hkey⟩ => ⟨hlength, le_append_left_string _ hkey⟩

theorem sortByKeys_scoped (scope : List String) (rows : List (Dict Json)) :
    sortByKeys groupRank ((groupMembersSameScope env options excluded rows).groups.map
        (RollupGroup.scoped env scope)) =
      (groupMembersSameScope env options excluded rows).groups.map
        (RollupGroup.scoped env scope) := by
  refine sortByKeys_of_sorted (List.pairwise_map.mpr ?_)
  have hsorted : (groupMembersSameScope env options excluded rows).groups.Pairwise
      (KeyOrder groupRank) := sortByKeys_sorted _
  exact hsorted.imp groupRank_scoped

/-- The groups of rows that have one scope are of this scope, and of no other. -/
theorem groupsOfScope_scoped {rows : List (Dict Json)} {scope other : List String}
    (h : ∀ row ∈ rows, rowScopeKey row = other) :
    groupsOfScope scope ((groupMembersSameScope env options excluded rows).groups.map
        (RollupGroup.scoped env other)) =
      if other = scope then (groupMembersSameScope env options excluded rows).groups.map
        (RollupGroup.scoped env other) else [] := by
  -- a group has members, and all of them have the scope of the rows
  have hscope : ∀ group ∈ (groupMembersSameScope env options excluded rows).groups.map
      (RollupGroup.scoped env other), group.members ≠ [] ∧
        ∀ member ∈ group.members, rowScopeKey member = other := by
    intro group hgroup
    obtain ⟨plain, hplain, rfl⟩ := List.mem_map.mp hgroup
    have hfrom := groupFrom_of_sameScope hplain
    exact ⟨hfrom.ne_nil, fun member hmember => h member (hfrom.mem member hmember)⟩
  unfold groupsOfScope
  split
  · next heq =>
    refine List.filter_eq_self.mpr fun group hgroup => decide_eq_true ?_
    exact fun member hmember => ((hscope group hgroup).2 member hmember).trans heq
  · next hne =>
    refine List.filter_eq_nil_iff.mpr fun group hgroup => ?_
    obtain ⟨hmembers, hother⟩ := hscope group hgroup
    obtain ⟨member, hmember⟩ := List.exists_mem_of_ne_nil _ hmembers
    rw [decide_eq_true_eq]
    exact fun hall => hne ((hother member hmember).symm.trans (hall member hmember))

theorem flatMap_if_eq {α : Type} {scope : List String} (f : List String → List α) :
    ∀ {scopes : List (List String)}, scopes.Nodup →
      (scopes.flatMap fun other => if other = scope then f other else []) =
        if scope ∈ scopes then f scope else []
  | [], _ => rfl
  | other :: scopes, h => by
    obtain ⟨hother, hrest⟩ := List.nodup_cons.mp h
    rw [List.flatMap_cons, flatMap_if_eq f hrest]
    by_cases heq : other = scope
    · subst heq
      rw [if_pos rfl, if_neg hother, if_pos (List.mem_cons_self ..), List.append_nil]
    · have hiff : scope ∈ other :: scopes ↔ scope ∈ scopes :=
        ⟨fun hmem => (List.mem_cons.mp hmem).resolve_left (Ne.symm heq), List.mem_cons_of_mem _⟩
      rw [if_neg heq, List.nil_append]
      simp only [hiff]

theorem mem_rowsOfScope {rows : List (Dict Json)} {scope : List String} :
    ∀ row ∈ rowsOfScope scope rows, rowScopeKey row = scope := fun _ hrow =>
  of_decide_eq_true (List.mem_filter.mp hrow).2

theorem rowsOfScope_eq_nil {rows : List (Dict Json)} {scope : List String}
    (h : scope ∉ rows.map rowScopeKey) : rowsOfScope scope rows = [] := by
  refine List.filter_eq_nil_iff.mpr fun row hrow => ?_
  rw [decide_eq_true_eq]
  exact fun heq => h (List.mem_map.mpr ⟨row, hrow, heq⟩)

/-- **A scope only partitions.** The groups of a scope are the groups of its rows. -/
theorem groupsOfScope_groupMembers (scope : List String) (rows : List (Dict Json)) :
    groupsOfScope scope (groupMembers env options excluded rows).groups =
      (groupMembersSameScope env options excluded (rowsOfScope scope rows)).groups.map
        (RollupGroup.scoped env scope) := by
  have hmem : ∀ other, other ∈ rows.map rowScopeKey ↔
      other ∈ fromkeys (rows.map rowScopeKey) := fun other => mem_fromkeys.symm
  have hnodup := nodup_fromkeys (rows.map rowScopeKey)
  unfold groupMembers
  generalize fromkeys (rows.map rowScopeKey) = scopes at hmem hnodup
  split
  · -- no rows
    have hrows : rows = [] := List.map_eq_nil_iff.mp
      (List.eq_nil_iff_forall_not_mem.mpr fun other hother =>
        absurd ((hmem other).mp hother) List.not_mem_nil)
    subst hrows
    dsimp only
    rw [sameScope_nil]
    have hnone : rowsOfScope scope [] = [] := rfl
    rw [hnone, sameScope_nil]
    rfl
  · next only =>
    have honly : ∀ row ∈ rows, rowScopeKey row = only := fun row hrow =>
      List.mem_singleton.mp ((hmem _).mp (List.mem_map.mpr ⟨row, hrow, rfl⟩))
    dsimp only
    rw [groupsOfScope_scoped honly]
    split
    · next heq =>
      subst heq
      have hall : rowsOfScope only rows = rows :=
        List.filter_eq_self.mpr fun row hrow => decide_eq_true (honly row hrow)
      rw [hall]
    · next hne =>
      have hnone : rowsOfScope scope rows = [] := rowsOfScope_eq_nil fun hscope =>
        hne (List.mem_singleton.mp ((hmem scope).mp hscope)).symm
      rw [hnone, sameScope_nil]
      rfl
  · -- the parts are filtered before they are sorted together
    have hperm : ∀ scopes : List (List String), (sortByKeys id scopes).Perm scopes :=
      sortByKeys_perm
    dsimp only
    unfold groupsOfScope
    rw [filter_sortByKeys, List.flatMap_map, List.filter_flatMap]
    have hpart : ∀ other, groupsOfScope scope ((groupMembersSameScope env options excluded
        (rowsOfScope other rows)).groups.map (RollupGroup.scoped env other)) =
          if other = scope then (groupMembersSameScope env options excluded
            (rowsOfScope other rows)).groups.map (RollupGroup.scoped env other) else [] :=
      fun other => groupsOfScope_scoped mem_rowsOfScope
    unfold groupsOfScope at hpart
    simp only [hpart]
    rw [flatMap_if_eq (fun other => (groupMembersSameScope env options excluded
      (rowsOfScope other rows)).groups.map (RollupGroup.scoped env other))
      ((hperm _).nodup_iff.mpr hnodup)]
    split
    · exact sortByKeys_scoped scope _
    · next hscope =>
      rw [mem_sortByKeys, ← hmem] at hscope
      rw [rowsOfScope_eq_nil hscope, sameScope_nil]
      rfl

theorem scoped_nil (group : RollupGroup) : group.scoped env [] = group := by
  have hkey : scopeTag env [] ++ group.rollupKey = group.rollupKey := String.empty_append
  rw [RollupGroup.scoped, hkey]

/-- Rows that have no scope are grouped under plain keys. -/
theorem groups_of_unscoped {rows : List (Dict Json)} (h : ∀ row ∈ rows, rowScopeKey row = []) :
    (groupMembers env options excluded rows).groups =
      (groupMembersSameScope env options excluded rows).groups := by
  have hscopes : ∀ scope ∈ fromkeys (rows.map rowScopeKey), scope = [] := by
    intro scope hscope
    obtain ⟨row, hrow, rfl⟩ := List.mem_map.mp (mem_fromkeys.mp hscope)
    exact h row hrow
  have hnodup := nodup_fromkeys (rows.map rowScopeKey)
  unfold groupMembers
  generalize fromkeys (rows.map rowScopeKey) = scopes at hscopes hnodup
  split
  · rfl
  · next only =>
    obtain rfl := hscopes only (List.mem_singleton_self _)
    have hplain : RollupGroup.scoped env [] = id := funext scoped_nil
    dsimp only
    rw [hplain, List.map_id]
  · next hnil hone =>
    -- two scopes would be the empty one twice
    match scopes, hnil, hone, hscopes, hnodup with
    | [], hnil, _, _, _ => exact absurd rfl hnil
    | [only], _, hone, _, _ => exact absurd rfl (hone only)
    | scope :: other :: rest, _, _, hscopes, hnodup =>
      have hfirst := hscopes scope (List.mem_cons_self ..)
      have hsecond := hscopes other (List.mem_cons_of_mem _ (List.mem_cons_self ..))
      refine absurd ?_ (List.nodup_cons.mp hnodup).1
      rw [hfirst, hsecond]
      exact List.mem_cons_self ..

/-! ### Cards of a scope -/

/-- The entity that a group of a scope is about. -/
def entityName (env : RollupEnv) (scope : List String) (group : RollupGroup) : String :=
  removePrefix group.rollupKey (scopeTag env scope ++ "entity:")

/-- The name of its own entity makes no difference to a group of a scope: each of its displayed
members is labelled alike whether it is left out or, the key being taken for a name, nothing is. -/
def OwnNameSpared (env : RollupEnv) (options : RollupOptions) (scope : List String)
    (group : RollupGroup) : Prop :=
  scope ≠ [] → group.groupKind = .entity →
    ∀ row ∈ group.members.take options.maxInstancesPerCard,
      instanceLabel env row (some group.rollupKey) =
        instanceLabel env row (some (entityName env scope group))

/-- Two groups have the same card: the lines of its instances, and its texts. -/
structure SameCard (env : RollupEnv) (options : RollupOptions) (group other : RollupGroup) :
    Prop where
  lines : (groupInstances env options group).map renderInstance =
    (groupInstances env options other).map renderInstance
  texts : ∀ args, groupCard env options args group = groupCard env options args other

/-- A group of a scope, and the group of its rows without the scope. -/
structure SameButScope (env : RollupEnv) (options : RollupOptions) (erasure : ScopeErasure)
    (scope : List String) (group other : RollupGroup) : Prop where
  rollupKey : group.rollupKey = scopeTag env scope ++ other.rollupKey
  groupKind : group.groupKind = other.groupKind
  label : group.label = other.label
  members : other.members = group.members.map erasure.erase
  utility : group.utility = other.utility
  labelVariants : group.labelVariants = other.labelVariants
  card : SameCard env options group other

/-- Project scope only partitions: the groups of a scope depend on its rows alone, and they are
the groups of these rows without their scope. -/
structure ScopeOnlyPartitions (env : RollupEnv) (options : RollupOptions)
    (excluded : List (Finset String)) (erasure : ScopeErasure) (scope : List String)
    (rows : List (Dict Json)) : Prop where
  alone : ∀ others, rowsOfScope scope others = rowsOfScope scope rows →
    groupsOfScope scope (groupMembers env options excluded others).groups =
      groupsOfScope scope (groupMembers env options excluded rows).groups
  unscoped : List.Forall₂ (SameButScope env options erasure scope)
    (groupsOfScope scope (groupMembers env options excluded rows).groups)
    (groupMembers env options excluded ((rowsOfScope scope rows).map erasure.erase)).groups

theorem removePrefix_append (front rest : String) : removePrefix (front ++ rest) front = rest := by
  have hstarts : startsWith (front ++ rest) front = true := by
    rw [startsWith, String.toList_append]
    exact List.isPrefixOf_iff_prefix.mpr (List.prefix_append _ _)
  rw [removePrefix, if_pos hstarts, String.toList_append, List.drop_left, String.ofList_toList]

/-- The key of a group of a scope does not begin with the kind of the group. -/
theorem removePrefix_scoped {scope : List String} (hscope : scope ≠ []) (key : String) :
    removePrefix (scopeTag env scope ++ key) "entity:" = scopeTag env scope ++ key := by
  have hstarts : startsWith (scopeTag env scope ++ key) "entity:" = false := by
    rw [scopeTag, if_neg hscope, startsWith, String.toList_append, String.toList_append,
      String.toList_append]
    rfl
  rw [removePrefix, hstarts]
  rfl

theorem append_right_cancel_string {a b rest : String} (h : a ++ rest = b ++ rest) : a = b := by
  have hlist := congrArg String.toList h
  rw [String.toList_append, String.toList_append] at hlist
  exact String.toList_inj.mp (List.append_cancel_right hlist)

/-- What stands behind a label does not depend on what is left out of it. -/
theorem renderInstance_eq_iff (row : Dict Json) (excludeNormalized other : Option String) :
    renderInstance (instanceRecord env row excludeNormalized) =
        renderInstance (instanceRecord env row other) ↔
      instanceLabel env row excludeNormalized = instanceLabel env row other := by
  have hdetails : instanceDetails (instanceRecord env row excludeNormalized) =
      instanceDetails (instanceRecord env row other) := by
    unfold instanceDetails instanceRecord
    dsimp only
  have hlabel : ∀ name, (instanceRecord env row name).label = instanceLabel env row name := by
    intro name
    rw [instanceRecord]
  rw [renderInstance, renderInstance, hdetails, hlabel, hlabel]
  constructor
  · intro h
    exact append_right_cancel_string h
  · intro h
    rw [h]

/-- Cards of groups that differ in their keys. -/
theorem sameCard_iff {group other : RollupGroup} {erasure : ScopeErasure}
    (hlabel : group.label = other.label)
    (hvariants : group.labelVariants = other.labelVariants)
    (hmembers : other.members = group.members.map erasure.erase) :
    SameCard env options group other ↔
      ∀ row ∈ group.members.take options.maxInstancesPerCard,
        instanceLabel env row (groupEntity group) = instanceLabel env row (groupEntity other) := by
  have hlength : other.members.length = group.members.length := by
    rw [hmembers, List.length_map]
  -- erasing the scope of a member changes no instance, if the label is made with the same entity
  have hother : groupInstances env options other =
      (group.members.take options.maxInstancesPerCard).map fun row =>
        instanceRecord env row (groupEntity other) := by
    rw [groupInstances, hmembers, ← List.map_take, List.map_map]
    exact List.map_congr_left fun row _ => instanceRecord_erase env erasure row _
  constructor
  · intro h row hrow
    have hlines := h.lines
    rw [hother, groupInstances, List.map_map, List.map_map] at hlines
    exact (renderInstance_eq_iff row _ _).mp (List.map_inj_left.mp hlines row hrow)
  · intro h
    have hinstances : groupInstances env options group = groupInstances env options other := by
      rw [hother]
      refine List.map_congr_left fun row hrow => ?_
      unfold instanceRecord
      rw [h row hrow]
    refine ⟨by rw [hinstances], fun args => ?_⟩
    have htitle : cardTitle env group (groupInstances env options other) args =
        cardTitle env other (groupInstances env options other) args := by
      unfold cardTitle
      rw [hlabel, hlength]
    have htext : ∀ lines, cardText group lines args = cardText other lines args := by
      intro lines
      unfold cardText
      rw [hlabel, hvariants, hlength]
    rw [groupCard, groupCard, hinstances, renderCard, renderCard, htitle, htext]

/-- The entity is read out of a plain key. -/
theorem groupEntity_plain {group : RollupGroup} {name : String} (hkind : group.groupKind = .entity)
    (hkey : group.rollupKey = "entity:" ++ name) : groupEntity group = some name := by
  rw [groupEntity, hkind, hkey]
  exact congrArg some (removePrefix_append "entity:" name)

theorem entityName_scoped {group : RollupGroup} {scope : List String} {name : String}
    (hkey : group.rollupKey = "entity:" ++ name) :
    entityName env scope (group.scoped env scope) = name := by
  have hscoped : (group.scoped env scope).rollupKey = scopeTag env scope ++ group.rollupKey := rfl
  rw [entityName, hscoped, hkey, ← String.append_assoc]
  exact removePrefix_append _ _

theorem groupEntity_scoped {group : RollupGroup} {scope : List String} (hscope : scope ≠ [])
    (hkind : group.groupKind = .entity) :
    groupEntity (group.scoped env scope) = some (group.scoped env scope).rollupKey := by
  have hsame : (group.scoped env scope).groupKind = .entity := hkind
  rw [groupEntity, hsame]
  exact congrArg some (removePrefix_scoped hscope _)

/-- The cards of a group of a scope and of the group without it. -/
theorem sameCard_scoped_iff {rows : List (Dict Json)} {group : RollupGroup}
    (erasure : ScopeErasure) (scope : List String) (hfrom : GroupFrom rows group) :
    SameCard env options (group.scoped env scope) (group.erased erasure) ↔
      OwnNameSpared env options scope (group.scoped env scope) := by
  obtain ⟨name, hkey⟩ := hfrom.key
  have hlabels : SameCard env options (group.scoped env scope) (group.erased erasure) ↔
      ∀ row ∈ group.members.take options.maxInstancesPerCard,
        instanceLabel env row (groupEntity (group.scoped env scope)) =
          instanceLabel env row (groupEntity (group.erased erasure)) :=
    sameCard_iff rfl rfl rfl
  rw [hlabels]
  -- a group of a topic has no entity whose own name could be left out
  cases hkind : group.groupKind with
  | topic =>
    have hscoped : groupEntity (group.scoped env scope) = none := by
      have hsame : (group.scoped env scope).groupKind = .topic := hkind
      rw [groupEntity, hsame]
    have herased : groupEntity (group.erased erasure) = none := by
      have hsame : (group.erased erasure).groupKind = .topic := hkind
      rw [groupEntity, hsame]
    rw [hscoped, herased]
    refine ⟨fun _ _ hentity => ?_, fun _ _ _ => rfl⟩
    cases hkind.symm.trans hentity
  | entity =>
    rw [hkind] at hkey
    have herased : groupEntity (group.erased erasure) = some name := groupEntity_plain hkind hkey
    rw [herased]
    by_cases hscope : scope = []
    · subst hscope
      rw [scoped_nil, groupEntity_plain hkind hkey]
      exact ⟨fun _ hne => absurd rfl hne, fun _ _ _ => rfl⟩
    · rw [groupEntity_scoped hscope hkind]
      unfold OwnNameSpared
      rw [entityName_scoped hkey]
      exact ⟨fun h _ _ => h, fun h => h hscope hkind⟩

/-- The groups of the rows of a scope, without it. -/
theorem groupMembers_unscoped (erasure : ScopeErasure) (scope : List String)
    (rows : List (Dict Json)) :
    (groupMembers env options excluded ((rowsOfScope scope rows).map erasure.erase)).groups =
      (groupMembersSameScope env options excluded (rowsOfScope scope rows)).groups.map
        (RollupGroup.erased erasure) := by
  rw [groups_of_unscoped fun row hrow => ?_, groupMembersSameScope_erased]
  obtain ⟨before, _, rfl⟩ := List.mem_map.mp hrow
  exact erasure.scope_eq before

/-- **Scopes of roll-ups.** Project scope only partitions the roll-ups of some rows exactly where
the name of its own entity makes no difference to any group of the scope. -/
theorem scopeOnlyPartitions_iff (env : RollupEnv) (options : RollupOptions)
    (excluded : List (Finset String)) (erasure : ScopeErasure) (scope : List String)
    (rows : List (Dict Json)) :
    ScopeOnlyPartitions env options excluded erasure scope rows ↔
      ∀ group ∈ groupsOfScope scope (groupMembers env options excluded rows).groups,
        OwnNameSpared env options scope group := by
  constructor
  · -- group by group the cards are compared: only the label of a member can differ
    intro h group hgroup
    have hpairs := h.unscoped
    rw [groupsOfScope_groupMembers] at hgroup hpairs
    rw [groupMembers_unscoped, List.forall₂_map_left_iff, List.forall₂_map_right_iff] at hpairs
    obtain ⟨plain, hplain, rfl⟩ := List.mem_map.mp hgroup
    have hsame := List.forall₂_same.mp hpairs plain hplain
    exact (sameCard_scoped_iff erasure scope (groupFrom_of_sameScope hplain)).mp hsame.card
  · intro h
    refine ⟨fun others hothers => ?_, ?_⟩
    · rw [groupsOfScope_groupMembers, groupsOfScope_groupMembers, hothers]
    · rw [groupsOfScope_groupMembers] at h ⊢
      rw [groupMembers_unscoped, List.forall₂_map_left_iff, List.forall₂_map_right_iff]
      refine List.forall₂_same.mpr fun plain hplain => ?_
      have hspared := h _ (List.mem_map_of_mem hplain)
      exact ⟨rfl, rfl, rfl, rfl, rfl, rfl,
        (sameCard_scoped_iff erasure scope (groupFrom_of_sameScope hplain)).mpr hspared⟩

end Scopes

/-! ### A group that repeats its name -/

/-- ASCII, the agency of the rows below, and a store without entities. -/
def agencyEnv : RollupEnv where
  link := ⟨asciiLower, fun c => ['.', ',', ':'].contains c, fun _ => "", fun _ => ""⟩
  rules text :=
    if startsWith text "NASA" then [⟨0, "NASA", .other, .acronym⟩] else []
  alphabet := ⟨fun c => isAsciiAlnum c || c == '_', isSpace,
    fun c => if c.isDigit then some (c.toNat - 48) else none,
    fun a b => asciiLowerChar a == asciiLowerChar b⟩
  isAlpha c := isAsciiAlnum c && !c.isDigit
  isUpper c := 'A' ≤ c ∧ c ≤ 'Z'
  upper text := text
  text value := value.asStr?.getD "None"
  amountMatches _ := []
  dateMatches _ := []
  sum values := values.foldl (fun total value => rounded (total + value)) 0
  twoDigits _ := ""
  digest _ := "0123456789abcdef"
  findEntities := none

/-- `RollupOptions()`. -/
def defaultRollupOptions : RollupOptions :=
  ⟨3, 8, 40, 5000, by decide, by decide, by decide, by decide⟩

/-- A memory of a project. -/
def projectMemory (id text createdAt : String) : Dict Json :=
  [("id", .str id), ("canonical_text", .str text), ("created_at", .str createdAt),
    ("project_scope", .strs ["apollo"])]

/-- Three memories about an agency. -/
def agencyMemories : List (Dict Json) :=
  [projectMemory "m1" "NASA budget" "2024-01-05 09:00:00",
    projectMemory "m2" "NASA engine" "2024-01-06 09:00:00",
    projectMemory "m3" "NASA lander" "2024-01-07 09:00:00"]

/-- The instances of the agency read `NASA (2024-01-05)` in the card of the project, and
`budget (2024-01-05)` without it. -/
theorem agency_repeats_itself :
    ¬ ScopeOnlyPartitions agencyEnv defaultRollupOptions [] emptyScope ["apollo"]
      agencyMemories := by
  intro h
  have hpairs := h.unscoped
  rw [groupsOfScope_groupMembers, groupMembers_unscoped, List.forall₂_map_left_iff,
    List.forall₂_map_right_iff] at hpairs
  have hlines : ∀ group ∈ (groupMembersSameScope agencyEnv defaultRollupOptions []
      (rowsOfScope ["apollo"] agencyMemories)).groups,
      (groupInstances agencyEnv defaultRollupOptions (group.scoped agencyEnv ["apollo"])).map
          renderInstance =
        (groupInstances agencyEnv defaultRollupOptions (group.erased emptyScope)).map
          renderInstance := fun group hgroup =>
    (List.forall₂_same.mp hpairs group hgroup).card.lines
  revert hlines
  decide +kernel

end AliceBot
