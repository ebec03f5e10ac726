import AliceBot.CurrencyChainLaws
import AliceBot.Library.Regroup

/-!
# Chain blocks of a pack

`apply_currency_chains`: the rows of chain members are annotated in place, and
the pack is gone through once more. A row of no chain is emitted; the first
member of a chain emits the whole chain, from the rows known by identifier.

For the result of `build_currency_chains` on a pack with distinct identifiers
this is `PyLib.regroup` on the identifiers (`applyCurrencyChains_eq`): the
chains share no member and all members are rows of the pack. So rows are only
reordered (`applyCurrencyChains_regroups`).
-/

namespace AliceBot

open PyLib

/-- The annotation as it is stored. -/
def CurrencyAnnotation.toJson (note : CurrencyAnnotation) : Json :=
  .obj [("chain_id", .str note.chainId), ("slot_key", .str note.slotKey),
    ("position", .int note.position), ("chain_size", .int note.chainSize),
    ("status", .str note.status.text), ("as_of", Json.optStr note.asOf),
    ("label", .str note.label)]

section Apply

variable (env : CurrencyEnv) (result : CurrencyChainResult)

/-- A row with the annotation of its identifier, under `CURRENCY_ANNOTATION_KEY`. -/
def annotatedRow (row : Dict Json) : Dict Json :=
  match result.annotations.get? (env.memoryId row) with
  | some note => row.set "currency" note.toJson
  | none => row

/-- The rows, annotated in place: of several rows with one identifier, `by_id`
holds the last. -/
def annotateRows : List (Dict Json) → List (Dict Json)
  | [] => []
  | row :: rest =>
    (if rest.any fun other => env.memoryId other == env.memoryId row then row
      else annotatedRow env result row) :: annotateRows rest

/-- `by_id`. -/
def byIdOf (rows : List (Dict Json)) : Dict (Dict Json) :=
  rows.foldl (fun acc row =>
    if result.annotations.has (env.memoryId row) then Dict.set acc (env.memoryId row) row
    else acc) []

/-- `chain_of`. -/
def chainOfId : Dict CurrencyChain :=
  result.chains.foldl (fun acc chain =>
    chain.memberIds.foldl (fun acc id => Dict.set acc id chain) acc) []

/-- The members of a chain that were not emitted, and what is emitted then. -/
def emitMembers (byId : Dict (Dict Json)) :
    List String → Finset String → List (Dict Json) × Finset String
  | [], emitted => ([], emitted)
  | memberId :: rest, emitted =>
    match byId.get? memberId with
    | none => emitMembers byId rest emitted
    | some member =>
      if memberId ∈ emitted then emitMembers byId rest emitted
      else
        let later := emitMembers byId rest (insert memberId emitted)
        (member :: later.1, later.2)

/-- The second pass over the pack. -/
def emitRows (byId : Dict (Dict Json)) (chainOf : Dict CurrencyChain) :
    List (Dict Json) → Finset String → List (Dict Json)
  | [], _ => []
  | memory :: rest, emitted =>
    match chainOf.get? (env.memoryId memory) with
    | none => memory :: emitRows byId chainOf rest emitted
    | some chain =>
      if env.memoryId memory ∈ emitted then emitRows byId chainOf rest emitted
      else
        let block := emitMembers byId chain.memberIds emitted
        block.1 ++ emitRows byId chainOf rest block.2

/-- `apply_currency_chains`. -/
def applyCurrencyChains (rows : List (Dict Json)) : List (Dict Json) :=
  if result.chains = [] then rows
  else
    let annotated := annotateRows env result rows
    emitRows env (byIdOf env result annotated) (chainOfId result) annotated ∅

end Apply

/-! ### Annotated rows -/

section Laws

variable {env : CurrencyEnv} {result : CurrencyChainResult}

@[simp] theorem memoryId_annotatedRow (row : Dict Json) :
    env.memoryId (annotatedRow env result row) = env.memoryId row := by
  unfold annotatedRow
  split
  · have hitem (value : Json) : (row.set "currency" value).item "id" = row.item "id" := by
      rw [Dict.item, Dict.get?_set_of_ne _ _ (by decide), ← Dict.item]
    rw [CurrencyEnv.memoryId, hitem, ← CurrencyEnv.memoryId]
  · rfl

theorem annotateRows_eq {rows : List (Dict Json)} (hids : (rows.map env.memoryId).Nodup) :
    annotateRows env result rows = rows.map (annotatedRow env result) := by
  induction rows with
  | nil => rfl
  | cons row rest ih =>
    obtain ⟨hfresh, hrest⟩ := List.nodup_cons.mp hids
    have hlast : (rest.any fun other => env.memoryId other == env.memoryId row) = false := by
      refine Bool.eq_false_iff.mpr fun hany => hfresh ?_
      obtain ⟨other, hother, heq⟩ := List.any_eq_true.mp hany
      exact List.mem_map.mpr ⟨other, hother, beq_iff_eq.mp heq⟩
    rw [annotateRows, hlast, ih hrest]
    rfl

/-! ### The two dictionaries -/

theorem get?_byId_of_notMem {rows : List (Dict Json)} {id : String}
    (h : id ∉ rows.map env.memoryId) (acc : Dict (Dict Json)) :
    Dict.get? (rows.foldl (fun acc row =>
      if result.annotations.has (env.memoryId row) then Dict.set acc (env.memoryId row) row
      else acc) acc) id = acc.get? id := by
  induction rows generalizing acc with
  | nil => rfl
  | cons row rest ih =>
    rw [List.map_cons, List.mem_cons, not_or] at h
    rw [List.foldl_cons, ih h.2]
    split
    · exact Dict.get?_set_of_ne _ _ (Ne.symm h.1)
    · rfl

/-- An annotated row is found under its identifier. -/
theorem get?_byIdOf {rows : List (Dict Json)} (hids : (rows.map env.memoryId).Nodup)
    {row : Dict Json} (hrow : row ∈ rows)
    (hannotated : result.annotations.has (env.memoryId row) = true) :
    (byIdOf env result rows).get? (env.memoryId row) = some row := by
  unfold byIdOf
  generalize ([] : Dict (Dict Json)) = acc
  induction rows generalizing acc with
  | nil => exact absurd hrow List.not_mem_nil
  | cons other rest ih =>
    obtain ⟨hfresh, hrest⟩ := List.nodup_cons.mp hids
    rw [List.foldl_cons]
    rcases List.mem_cons.mp hrow with rfl | hrow
    · rw [get?_byId_of_notMem hfresh, if_pos hannotated, Dict.get?_set_self]
    · exact ih hrest hrow _

/-- The members of the chains, as blocks. -/
abbrev chainBlocks (result : CurrencyChainResult) : List (List String) :=
  result.chains.map CurrencyChain.memberIds

/-- `chain_of` knows the block of an identifier. -/
theorem get?_chainOfId (hdisjoint : DisjointBlocks (chainBlocks result)) (id : String) :
    ((chainOfId result).get? id).map CurrencyChain.memberIds = blockOf (chainBlocks result) id := by
  -- no identifier comes twice, so nothing is overwritten as the dictionary is filled
  have hpairs : chainOfId result = result.chains.flatMap fun chain =>
      chain.memberIds.map fun id => (id, chain) := by
    have hupdate : chainOfId result = Dict.update [] (result.chains.flatMap fun chain =>
        chain.memberIds.map fun id => (id, chain)) := by
      simp only [chainOfId, Dict.update, List.foldl_flatMap, List.foldl_map]
    rw [hupdate, Dict.update_of_nodup, List.nil_append]
    simpa [List.map_flatMap, Function.comp_def, DisjointBlocks, List.flatMap_def] using hdisjoint
  have hkeys : ((chainOfId result).map Prod.fst).Nodup := by
    rw [hpairs]
    simpa [List.map_flatMap, Function.comp_def, DisjointBlocks, List.flatMap_def] using hdisjoint
  cases hblock : blockOf (chainBlocks result) id with
  | none =>
    have hfree := blockOf_eq_none.mp hblock
    rw [Option.map_eq_none_iff, Dict.get?, List.lookup_eq_none_iff]
    intro entry hentry
    rw [hpairs] at hentry
    obtain ⟨chain, hchain, hmem⟩ := List.mem_flatMap.mp hentry
    obtain ⟨member, hmember, rfl⟩ := List.mem_map.mp hmem
    refine bne_iff_ne.mpr ?_
    rintro rfl
    exact hfree _ (List.mem_map.mpr ⟨chain, hchain, rfl⟩) hmember
  | some block =>
    obtain ⟨hmem, hid⟩ := mem_of_blockOf hblock
    obtain ⟨chain, hchain, rfl⟩ := List.mem_map.mp hmem
    have hentry : (id, chain) ∈ chainOfId result := by
      rw [hpairs]
      exact List.mem_flatMap.mpr ⟨chain, hchain, List.mem_map.mpr ⟨id, hid, rfl⟩⟩
    rw [Dict.get?_of_mem hkeys hentry]
    rfl

/-! ### The pass over the pack -/

/-- A chain of which nothing was emitted is emitted as a whole. -/
theorem emitMembers_eq {byId : Dict (Dict Json)} {rowOf : String → Dict Json} {ids : List String}
    {emitted : Finset String} (hids : ids.Nodup)
    (hbyId : ∀ id ∈ ids, byId.get? id = some (rowOf id)) (hleft : ∀ id ∈ ids, id ∉ emitted) :
    emitMembers byId ids emitted = (ids.map rowOf, emitted ∪ ids.toFinset) := by
  induction ids generalizing emitted with
  | nil => simp [emitMembers]
  | cons id ids ih =>
    obtain ⟨hfresh, hrest⟩ := List.nodup_cons.mp hids
    obtain ⟨hid, hlater⟩ := List.forall_mem_cons.mp hbyId
    obtain ⟨hnot, hleft⟩ := List.forall_mem_cons.mp hleft
    -- emitting the first member leaves the others to be emitted
    have hstill : ∀ other ∈ ids, other ∉ insert id emitted := by
      intro other hother hin
      rcases Finset.mem_insert.mp hin with rfl | hin
      · exact hfresh hother
      · exact hleft other hother hin
    rw [emitMembers, hid]
    dsimp only
    rw [if_neg hnot, ih hrest hlater hstill, List.toFinset_cons, Finset.union_insert,
      Finset.insert_union]
    rfl

/-- The pass brings the chains together. -/
theorem emitRows_eq {byId : Dict (Dict Json)} {chainOf : Dict CurrencyChain}
    {blocks : List (List String)} {rowOf : String → Dict Json} {rows : List (Dict Json)}
    {emitted : Finset String} (hdisjoint : DisjointBlocks blocks)
    (hchain : ∀ id, (chainOf.get? id).map CurrencyChain.memberIds = blockOf blocks id)
    (hbyId : ∀ block ∈ blocks, ∀ id ∈ block, byId.get? id = some (rowOf id))
    (hrows : ∀ row ∈ rows, rowOf (env.memoryId row) = row) (hwhole : Whole blocks emitted) :
    emitRows env byId chainOf rows emitted =
      (regroup blocks (rows.map env.memoryId) emitted).map rowOf := by
  induction rows generalizing emitted with
  | nil => rfl
  | cons row rest ih =>
    obtain ⟨hrow, hrest⟩ := List.forall_mem_cons.mp hrows
    rw [emitRows, List.map_cons, regroup, ← hchain]
    cases hget : chainOf.get? (env.memoryId row) with
    | none =>
      dsimp only [Option.map_none]
      rw [ih hrest hwhole, List.map_cons, hrow]
    | some chain =>
      dsimp only [Option.map_some]
      have hblock : blockOf blocks (env.memoryId row) = some chain.memberIds := by
        rw [← hchain, hget]
        rfl
      obtain ⟨hmem, hid⟩ := mem_of_blockOf hblock
      split
      · exact ih hrest hwhole
      · next hleft =>
        -- with one member left, all of them are
        have hall : ∀ id ∈ chain.memberIds, id ∉ emitted := fun id hin hout =>
          hleft ((hwhole.all_iff hmem hid hin).mp hout)
        rw [emitMembers_eq ((List.nodup_flatten.mp hdisjoint).1 _ hmem) (hbyId _ hmem) hall,
          ih hrest (hwhole.bring hdisjoint hmem), List.map_append]

end Laws

/-! ### Packs and their chains -/

section Pack

variable {env : CurrencyEnv} {rows : List (Dict Json)}

theorem disjointBlocks (hids : (rows.map env.memoryId).Nodup) :
    DisjointBlocks (chainBlocks (buildCurrencyChains env rows)) := by
  have h := (consistentResult hids).disjoint
  rwa [List.flatMap_def] at h

/-- The members of the chains are rows of the pack. -/
theorem mem_ids_of_chain (hids : (rows.map env.memoryId).Nodup) {chain : CurrencyChain}
    (hchain : chain ∈ (buildCurrencyChains env rows).chains) {id : String}
    (hid : id ∈ chain.memberIds) : id ∈ rows.map env.memoryId := by
  have hmembers := ((consistentResult hids).labels chain hchain).members
  obtain ⟨member, hmember, rfl⟩ := List.mem_map.mp (hmembers.mem_iff.mp hid)
  obtain ⟨row, hrow, rfl⟩ := mem_packMembers (mem_groupOf.mp hmember).1
  exact List.mem_map.mpr ⟨row, hrow, rfl⟩

/-- Members of chains are annotated, and no others. -/
theorem has_annotation_iff (hids : (rows.map env.memoryId).Nodup) {id : String} :
    (buildCurrencyChains env rows).annotations.has id = true ↔
      ∃ chain ∈ (buildCurrencyChains env rows).chains, id ∈ chain.memberIds := by
  have hkeys := (consistentResult hids).annotated
  have hmem : id ∈ (buildCurrencyChains env rows).annotations.map Prod.fst ↔
      ∃ chain ∈ (buildCurrencyChains env rows).chains, id ∈ chain.memberIds := by
    rw [hkeys, List.mem_flatMap]
  rw [← hmem, Dict.has, Dict.get?, List.lookup_isSome_iff]
  simp

/-- The identifier is that of a chain member. -/
def InChain (result : CurrencyChainResult) (id : String) : Prop :=
  ∃ chain ∈ result.chains, id ∈ chain.memberIds

instance (result : CurrencyChainResult) : DecidablePred (InChain result) := fun id =>
  inferInstanceAs (Decidable (∃ chain ∈ result.chains, id ∈ chain.memberIds))

theorem blockOf_isNone_iff {result : CurrencyChainResult} {id : String} :
    (blockOf (chainBlocks result) id).isNone = !decide (InChain result id) := by
  rw [Bool.eq_iff_iff, Option.isNone_iff_eq_none, blockOf_eq_none, Bool.not_eq_true',
    decide_eq_false_iff_not, InChain]
  simp

/-- A row of no chain stays as it is. -/
theorem annotatedRow_of_not_inChain (hids : (rows.map env.memoryId).Nodup) {row : Dict Json}
    (h : ¬ InChain (buildCurrencyChains env rows) (env.memoryId row)) :
    annotatedRow env (buildCurrencyChains env rows) row = row := by
  have hnone : (buildCurrencyChains env rows).annotations.get? (env.memoryId row) = none := by
    by_contra hsome
    exact h ((has_annotation_iff hids).mp (Option.isSome_iff_ne_none.mpr hsome))
  rw [annotatedRow, hnone]

/-- The annotated row of an identifier. -/
def rowWithId (env : CurrencyEnv) (rows : List (Dict Json)) (id : String) : Dict Json :=
  ((rows.find? fun row => decide (env.memoryId row = id)).map
    (annotatedRow env (buildCurrencyChains env rows))).getD []

theorem rowWithId_eq (hids : (rows.map env.memoryId).Nodup) {row : Dict Json}
    (hrow : row ∈ rows) : rowWithId env rows (env.memoryId row) =
      annotatedRow env (buildCurrencyChains env rows) row := by
  unfold rowWithId
  cases hfind : rows.find? fun other => decide (env.memoryId other = env.memoryId row) with
  | none => exact absurd (decide_eq_true rfl) (List.find?_eq_none.mp hfind row hrow)
  | some other =>
    have hid := List.find?_some hfind
    rw [decide_eq_true_eq] at hid
    rw [List.inj_on_of_nodup_map hids (List.mem_of_find?_eq_some hfind) hrow hid]
    rfl

theorem map_rowWithId (hids : (rows.map env.memoryId).Nodup) :
    (rows.map env.memoryId).map (rowWithId env rows) =
      rows.map (annotatedRow env (buildCurrencyChains env rows)) := by
  rw [List.map_map]
  exact List.map_congr_left fun row hrow => rowWithId_eq hids hrow

/-- The identifiers are those of the pack, regrouped. -/
theorem regroup_ids_perm (hids : (rows.map env.memoryId).Nodup) :
    (regroup (chainBlocks (buildCurrencyChains env rows)) (rows.map env.memoryId) ∅).Perm
      (rows.map env.memoryId) := by
  refine regroup_perm (disjointBlocks hids) hids fun block hblock id hid => ?_
  obtain ⟨chain, hchain, rfl⟩ := List.mem_map.mp hblock
  exact mem_ids_of_chain hids hchain hid

/-- Applying the chains of a pack regroups its identifiers. -/
theorem applyCurrencyChains_eq (hids : (rows.map env.memoryId).Nodup) :
    applyCurrencyChains env (buildCurrencyChains env rows) rows =
      (regroup (chainBlocks (buildCurrencyChains env rows)) (rows.map env.memoryId) ∅).map
        (rowWithId env rows) := by
  have hannotatedIds : (rows.map (annotatedRow env (buildCurrencyChains env rows))).map
      env.memoryId = rows.map env.memoryId := by
    simp only [List.map_map, Function.comp_def, memoryId_annotatedRow]
  unfold applyCurrencyChains
  split
  · next hempty =>
    -- nothing is annotated, and nothing is moved
    rw [chainBlocks, hempty, List.map_nil, regroup_no_blocks, map_rowWithId hids]
    refine (List.map_id'' (fun row => ?_) rows).symm
    refine annotatedRow_of_not_inChain hids ?_
    rintro ⟨chain, hchain, -⟩
    rw [hempty] at hchain
    exact absurd hchain List.not_mem_nil
  · dsimp only
    rw [annotateRows_eq hids, ← hannotatedIds]
    refine emitRows_eq (disjointBlocks hids) (get?_chainOfId (disjointBlocks hids)) ?_ ?_
      Whole.empty
    · intro block hblock id hid
      obtain ⟨chain, hchain, rfl⟩ := List.mem_map.mp hblock
      obtain ⟨row, hrow, rfl⟩ := List.mem_map.mp (mem_ids_of_chain hids hchain hid)
      have hhas := (has_annotation_iff hids).mpr ⟨chain, hchain, hid⟩
      have hsame : env.memoryId (annotatedRow env (buildCurrencyChains env rows) row) =
          env.memoryId row := memoryId_annotatedRow row
      rw [rowWithId_eq hids hrow, ← hsame]
      refine get?_byIdOf (hannotatedIds ▸ hids) (List.mem_map.mpr ⟨row, hrow, rfl⟩) ?_
      rwa [hsame]
    · intro row hrow
      obtain ⟨original, horiginal, rfl⟩ := List.mem_map.mp hrow
      rw [memoryId_annotatedRow, rowWithId_eq hids horiginal]

/-- The identifiers of the output. -/
theorem ids_applyCurrencyChains (hids : (rows.map env.memoryId).Nodup) :
    (applyCurrencyChains env (buildCurrencyChains env rows) rows).map env.memoryId =
      regroup (chainBlocks (buildCurrencyChains env rows)) (rows.map env.memoryId) ∅ := by
  rw [applyCurrencyChains_eq hids, List.map_map]
  refine (List.map_congr_left fun id hid => ?_).trans (List.map_id _)
  obtain ⟨row, hrow, rfl⟩ := List.mem_map.mp ((regroup_ids_perm hids).mem_iff.mp hid)
  rw [Function.comp_apply, rowWithId_eq hids hrow, memoryId_annotatedRow]
  rfl

/-- The rows of no chain keep their order. -/
theorem filter_applyCurrencyChains (hids : (rows.map env.memoryId).Nodup) :
    ((applyCurrencyChains env (buildCurrencyChains env rows) rows).filter fun row =>
      !decide (InChain (buildCurrencyChains env rows) (env.memoryId row))) =
    rows.filter fun row => !decide (InChain (buildCurrencyChains env rows) (env.memoryId row)) := by
  -- on the identifiers this is the law of regrouping
  have hregroup := regroup_filter (chainBlocks (buildCurrencyChains env rows))
    (rows.map env.memoryId) ∅
  simp only [blockOf_isNone_iff] at hregroup
  have hoff (l : List String) (hl : ∀ id ∈ l, id ∈ rows.map env.memoryId) :
      ((l.map (rowWithId env rows)).filter fun row =>
        !decide (InChain (buildCurrencyChains env rows) (env.memoryId row))) =
      (l.filter fun id => !decide (InChain (buildCurrencyChains env rows) id)).map
        (rowWithId env rows) := by
    rw [List.filter_map]
    congr 1
    refine List.filter_congr fun id hid => ?_
    obtain ⟨row, hrow, rfl⟩ := List.mem_map.mp (hl id hid)
    rw [Function.comp_apply, rowWithId_eq hids hrow, memoryId_annotatedRow]
  rw [applyCurrencyChains_eq hids,
    hoff _ fun id hid => (regroup_ids_perm hids).mem_iff.mp hid, hregroup, List.filter_map,
    List.map_map]
  refine (List.map_congr_left fun row hrow => ?_).trans (List.map_id _)
  obtain ⟨hrow, hfree⟩ := List.mem_filter.mp hrow
  rw [Function.comp_apply, rowWithId_eq hids hrow]
  exact annotatedRow_of_not_inChain hids (by simpa using hfree)

/-- A chain stands in one piece behind what the rows before its first member
bring. -/
theorem block_applyCurrencyChains (hids : (rows.map env.memoryId).Nodup) {chain : CurrencyChain}
    (hchain : chain ∈ (buildCurrencyChains env rows).chains) :
    ∃ before best after tail, rows = before ++ best :: after ∧
      env.memoryId best ∈ chain.memberIds ∧
      (∀ row ∈ before, env.memoryId row ∉ chain.memberIds) ∧
      (applyCurrencyChains env (buildCurrencyChains env rows) rows).map env.memoryId =
        regroup (chainBlocks (buildCurrencyChains env rows)) (before.map env.memoryId) ∅ ++
          chain.memberIds ++ tail := by
  have hsize := ((consistentResult hids).labels chain hchain).size
  obtain ⟨id, hid⟩ := List.exists_mem_of_length_pos (by omega : 0 < chain.memberIds.length)
  obtain ⟨row, hrow, rfl⟩ := List.mem_map.mp (mem_ids_of_chain hids hchain hid)
  -- the best-ranked member is the first row of the chain
  obtain ⟨best, hbest⟩ : ∃ best,
      (rows.find? fun row => decide (env.memoryId row ∈ chain.memberIds)) = some best :=
    Option.isSome_iff_exists.mp (List.find?_isSome.mpr ⟨row, hrow, decide_eq_true hid⟩)
  obtain ⟨hmem, before, after, hsplit, hbefore⟩ := List.find?_eq_some_iff_append.mp hbest
  have hmem := of_decide_eq_true hmem
  have hbefore : ∀ row ∈ before, env.memoryId row ∉ chain.memberIds := fun row hrow => by
    simpa using hbefore row hrow
  have hblock : chain.memberIds ∈ chainBlocks (buildCurrencyChains env rows) :=
    List.mem_map.mpr ⟨chain, hchain, rfl⟩
  have hids' : rows.map env.memoryId =
      before.map env.memoryId ++ env.memoryId best :: after.map env.memoryId := by
    rw [hsplit, List.map_append, List.map_cons]
  obtain ⟨tail, htail⟩ : ∃ tail,
      regroup (chainBlocks (buildCurrencyChains env rows)) (rows.map env.memoryId) ∅ =
        regroup (chainBlocks (buildCurrencyChains env rows)) (before.map env.memoryId) ∅ ++
          chain.memberIds ++ tail := by
    rw [hids']
    exact regroup_block (disjointBlocks hids) hblock hmem (List.forall_mem_map.mpr hbefore)
      fun b _ => Finset.notMem_empty b
  exact ⟨before, best, after, tail, hsplit, hmem, hbefore,
    (ids_applyCurrencyChains hids).trans htail⟩

/-- Applying the chains of a pack only reorders it: the output is a permutation
of the annotated rows, the rows of no chain keep their order, and the members of
a chain stand together in its order, behind what the rows before its
best-ranked member bring. -/
theorem applyCurrencyChains_regroups (env : CurrencyEnv) (rows : List (Dict Json))
    (hids : (rows.map env.memoryId).Nodup) (result : CurrencyChainResult)
    (hresult : result = buildCurrencyChains env rows) (output : List (Dict Json))
    (houtput : output = applyCurrencyChains env result rows) :
    output.Perm (rows.map (annotatedRow env result)) ∧
      (output.filter fun row => !decide (InChain result (env.memoryId row))) =
        (rows.filter fun row => !decide (InChain result (env.memoryId row))) ∧
      ∀ chain ∈ result.chains, ∃ before best after head tail,
        rows = before ++ best :: after ∧ env.memoryId best ∈ chain.memberIds ∧
        (∀ row ∈ before, env.memoryId row ∉ chain.memberIds) ∧
        output.map env.memoryId = head ++ chain.memberIds ++ tail ∧
        ∀ id, id ∈ head ↔ ∃ row ∈ before,
          (id = env.memoryId row ∧ ¬ InChain result id) ∨
            ∃ other ∈ result.chains, id ∈ other.memberIds ∧ env.memoryId row ∈ other.memberIds := by
  subst hresult houtput
  refine ⟨?_, filter_applyCurrencyChains hids, fun chain hchain => ?_⟩
  · rw [applyCurrencyChains_eq hids, ← map_rowWithId hids]
    exact (regroup_ids_perm hids).map _
  · -- the block of a chain stands where its first row did
    obtain ⟨before, best, after, tail, hsplit, hbest, hbefore, hids'⟩ :=
      block_applyCurrencyChains hids hchain
    refine ⟨before, best, after, _, tail, hsplit, hbest, hbefore, hids', fun id => ?_⟩
    rw [mem_regroup (disjointBlocks hids) Whole.empty, and_iff_left (Finset.notMem_empty id)]
    simp only [List.mem_map, exists_exists_and_eq_and, BroughtBy, InChain, chainBlocks,
      forall_exists_index, and_imp, forall_apply_eq_imp_iff₂, not_exists, not_and]

/-- The two rows of one chain, with the current one ranked first. -/
theorem applyCurrencyChains_of_followers :
    (applyCurrencyChains followersEnv
      (buildCurrencyChains followersEnv [chunkBetween, staleFollowers])
      [chunkBetween, staleFollowers]).Perm
      ([chunkBetween, staleFollowers].map (annotatedRow followersEnv
        (buildCurrencyChains followersEnv [chunkBetween, staleFollowers]))) :=
  (applyCurrencyChains_regroups followersEnv [chunkBetween, staleFollowers] (by decide) _ rfl _
    rfl).1

end Pack

end AliceBot
