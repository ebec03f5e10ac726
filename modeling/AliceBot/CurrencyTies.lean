import AliceBot.CurrencyChainLaws

/-!
# Ties that cannot be ordered

A group with two members of one date, from different sources and with different
values, has no order: it should be skipped as ambiguous. `_date_order` looks at
neighbours of its sort alone. A third member between the two hides the tie where
it agrees with one of them in the value and is ordered against the other by
their document (`tie_between_chunks_chained`).

`tied_group_skipped_iff` says exactly which groups with a tie are skipped. What
becomes of a key is read off the loop first: a key is decided unless an earlier
one decided the same members (`exists_verdict_iff`), and a chain is dropped
where a chain of another key shares a member (`exists_chain_iff`).
-/

namespace AliceBot

open PyLib

section Verdicts

variable {theme : Finset String} {members : List CurrencyMember}

/-- A key whose members were decided under an earlier one. -/
def DecidedBefore (theme : Finset String) (members : List CurrencyMember) (slotKey : String) :
    Prop :=
  ∃ earlier, earlier < slotKey ∧
    memberIds (groupOf members earlier) = memberIds (groupOf members slotKey) ∧
    (groupOutcome theme earlier (groupOf members earlier)).decides = true

theorem length_of_memberIds {group other : List CurrencyMember} (hgroup : DistinctIds group)
    (hother : DistinctIds other) (h : memberIds group = memberIds other) :
    group.length = other.length := by
  have hcard {l : List CurrencyMember} (hl : DistinctIds l) : (memberIds l).card = l.length := by
    rw [memberIds, List.toFinset_card_of_nodup hl, List.length_map]
  rw [← hcard hgroup, h, hcard hother]

/-- The loop over increasing keys decides a key unless its members were decided
before it started, or under an earlier key. -/
theorem exists_mem_decideGroups_iff (hids : DistinctIds members) {keys : List String}
    (hkeys : keys.Pairwise (· < ·)) {decided : Finset (Finset String)} {slotKey : String}
    (hsize : 2 ≤ (groupOf members slotKey).length) :
    (∃ verdict ∈ decideGroups theme members keys decided, verdict.slotKey = slotKey) ↔
      slotKey ∈ keys ∧ memberIds (groupOf members slotKey) ∉ decided ∧
        ∀ earlier ∈ keys, earlier < slotKey →
          memberIds (groupOf members earlier) = memberIds (groupOf members slotKey) →
          (groupOutcome theme earlier (groupOf members earlier)).decides = false := by
  induction keys generalizing decided with
  | nil => simp [decideGroups]
  | cons key keys ih =>
    obtain ⟨hfirst, hrest⟩ := List.pairwise_cons.mp hkeys
    rw [decideGroups]
    dsimp only
    by_cases hkey : slotKey = key
    · -- nothing comes before the first key
      subst hkey
      have hnone : ∀ earlier ∈ slotKey :: keys, ¬ earlier < slotKey := by
        intro earlier hmem
        rcases List.mem_cons.mp hmem with rfl | hmem
        · exact lt_irrefl _
        · exact lt_asymm (hfirst earlier hmem)
      have hlater : slotKey ∉ keys := fun hmem => lt_irrefl _ (hfirst slotKey hmem)
      split
      · next hskip =>
        have hdecided : memberIds (groupOf members slotKey) ∈ decided :=
          hskip.resolve_left (not_lt.mpr hsize)
        rw [ih hrest]
        simp [hlater, hdecided]
      · next hfresh =>
        rw [not_or] at hfresh
        refine iff_of_true ⟨_, List.mem_cons_self .., rfl⟩
          ⟨List.mem_cons_self .., hfresh.2, fun earlier hmem hlt => ?_⟩
        exact absurd hlt (hnone earlier hmem)
    · have hmemCons : slotKey ∈ key :: keys ↔ slotKey ∈ keys := by
        rw [List.mem_cons, or_iff_right hkey]
      rw [hmemCons, List.forall_mem_cons]
      split
      · next hskip =>
        rw [ih hrest]
        -- the first key decides nothing new about these members
        refine and_congr_right fun hmem => and_congr_right fun hnot => ?_
        refine (and_iff_right fun _ heq => ?_).symm
        rcases hskip with hsmall | hdecided
        · exact absurd (length_of_memberIds (hids.groupOf key) (hids.groupOf slotKey) heq)
            (by omega)
        · exact absurd (heq ▸ hdecided) hnot
      · rw [List.exists_mem_cons_iff, or_iff_right fun heq => hkey heq.symm, ih hrest]
        refine and_congr_right fun hmem => ?_
        have hlt := hfirst slotKey hmem
        cases hdecides : (groupOutcome theme key (groupOf members key)).decides with
        | false =>
          refine and_congr_right fun _ => (and_iff_right fun _ _ => rfl).symm
        | true =>
          rw [if_pos rfl, Finset.mem_insert, not_or, and_assoc]
          rw [and_left_comm]
          refine and_congr_right fun _ => and_congr_left fun _ => ?_
          constructor
          · exact fun hne _ heq => absurd heq.symm hne
          · exact fun hnever heq => absurd (hnever hlt heq.symm) (by decide)

end Verdicts

section Pack

variable {env : CurrencyEnv} {rows : List (Dict Json)}

theorem mem_sortedKeys {slotKey : String}
    (h : 1 ≤ (packGroup env rows slotKey).length) :
    slotKey ∈ sortedKeys (packMembers env rows) := by
  obtain ⟨member, hmember⟩ := List.exists_mem_of_length_pos h
  obtain ⟨hpack, hkey⟩ := mem_groupOf.mp hmember
  exact (Finset.mem_sort _).mpr (mem_unionOver.mpr ⟨member, hpack, hkey⟩)

/-- A key with two members or more gets a verdict unless they were decided
before. -/
theorem exists_verdict_iff (hids : (rows.map env.memoryId).Nodup) {slotKey : String}
    (hsize : 2 ≤ (packGroup env rows slotKey).length) :
    (∃ verdict ∈ packVerdicts env rows, verdict.slotKey = slotKey) ↔
      ¬ DecidedBefore (packTheme env rows) (packMembers env rows) slotKey := by
  have hdistinct := distinctIds_packMembers hids
  have hsorted : (sortedKeys (packMembers env rows)).Pairwise (· < ·) :=
    (Finset.sortedLT_sort _).pairwise
  have hkey : slotKey ∈ sortedKeys (packMembers env rows) := mem_sortedKeys (by omega)
  refine (exists_mem_decideGroups_iff hdistinct hsorted hsize).trans ?_
  rw [and_iff_right hkey, and_iff_right (Finset.notMem_empty _)]
  constructor
  · rintro hnever ⟨earlier, hlt, heq, hdecides⟩
    -- a key with the same members has as many of them, so it is one of the sorted keys
    have hlength := length_of_memberIds (hdistinct.groupOf earlier) (hdistinct.groupOf slotKey) heq
    have hmem : earlier ∈ sortedKeys (packMembers env rows) := by
      refine mem_sortedKeys ?_
      rw [packGroup, hlength]
      exact le_trans (by decide) hsize
    rw [hnever earlier hmem hlt heq] at hdecides
    exact absurd hdecides (by decide)
  · intro hfree earlier _ hlt heq
    exact Bool.eq_false_iff.mpr fun hdecides => hfree ⟨earlier, hlt, heq, hdecides⟩

/-- A key makes a chain, before the chains are compared. -/
def MakesChain (env : CurrencyEnv) (rows : List (Dict Json)) (slotKey : String) : Prop :=
  2 ≤ (packGroup env rows slotKey).length ∧
    ¬ DecidedBefore (packTheme env rows) (packMembers env rows) slotKey ∧
    ∃ ordered groupClass edgeOnly, groupOutcome (packTheme env rows) slotKey
      (packGroup env rows slotKey) = .chain ordered groupClass edgeOnly

/-- Another key makes a chain with a member of the group. -/
def SharesMember (env : CurrencyEnv) (rows : List (Dict Json)) (slotKey : String) : Prop :=
  ∃ other, other ≠ slotKey ∧ MakesChain env rows other ∧
    ∃ member ∈ packGroup env rows slotKey, member ∈ packGroup env rows other

/-- A key makes a chain exactly if there is a candidate for it. -/
theorem makesChain_iff (hids : (rows.map env.memoryId).Nodup) {slotKey : String} :
    MakesChain env rows slotKey ↔ ∃ entry ∈ packCandidates env rows, entry.1.slotKey = slotKey := by
  constructor
  · rintro ⟨hsize, hfree, ordered, groupClass, edgeOnly, hchain⟩
    obtain ⟨verdict, hverdict, rfl⟩ := (exists_verdict_iff hids hsize).mpr hfree
    have houtcome := (mem_decideGroups hverdict).2.trans hchain
    refine ⟨annotateChain env verdict.slotKey ordered groupClass edgeOnly,
      List.mem_filterMap.mpr ⟨verdict, hverdict, ?_⟩, rfl⟩
    rw [ChainVerdict.candidate, houtcome]
  · rintro ⟨entry, hentry, rfl⟩
    obtain ⟨verdict, hverdict, hcandidate⟩ := List.mem_filterMap.mp hentry
    obtain ⟨hsize, houtcome⟩ := mem_decideGroups hverdict
    unfold ChainVerdict.candidate at hcandidate
    split at hcandidate
    · next ordered groupClass edgeOnly hchain =>
      obtain rfl := Option.some.inj hcandidate
      exact ⟨hsize, (exists_verdict_iff hids hsize).mp ⟨verdict, hverdict, rfl⟩, ordered,
        groupClass, edgeOnly, houtcome.symm.trans hchain⟩
    · exact absurd hcandidate (by simp)

/-- One candidate for a key. -/
theorem candidates_keys (env : CurrencyEnv) (rows : List (Dict Json)) :
    ((packCandidates env rows).map fun entry => entry.1.slotKey).Nodup := by
  -- a verdict makes one candidate at most, for its own key
  have hsublist (verdicts : List ChainVerdict) :
      ((verdicts.filterMap (ChainVerdict.candidate env)).map fun entry => entry.1.slotKey).Sublist
        (verdicts.map ChainVerdict.slotKey) := by
    induction verdicts with
    | nil => exact .slnil
    | cons verdict verdicts ih =>
      cases hcandidate : verdict.candidate env with
      | none =>
        rw [List.filterMap_cons_none hcandidate]
        exact ih.cons _
      | some entry =>
        have hkey : entry.1.slotKey = verdict.slotKey := by
          unfold ChainVerdict.candidate at hcandidate
          split at hcandidate
          · rw [← Option.some.inj hcandidate]
            rfl
          · exact absurd hcandidate (by simp)
        rw [List.filterMap_cons_some hcandidate, List.map_cons, List.map_cons, hkey]
        exact ih.cons_cons _
  exact (Finset.sort_nodup _ _).sublist ((hsublist _).trans (decideGroups_keys _ _ _ _))

theorem position_of_slotKey {i j : Nat} {entry other : CurrencyChain × Dict CurrencyAnnotation}
    (hi : (packCandidates env rows)[i]? = some entry)
    (hj : (packCandidates env rows)[j]? = some other) (h : entry.1.slotKey = other.1.slotKey) :
    i = j := by
  have hlt : i < ((packCandidates env rows).map fun entry => entry.1.slotKey).length := by
    rw [List.length_map]
    exact (List.getElem?_eq_some_iff.mp hi).1
  refine (List.getElem?_inj hlt (candidates_keys env rows)).mp ?_
  rw [List.getElem?_map, List.getElem?_map, hi, hj, Option.map_some, Option.map_some, h]

/-- The members of a candidate are those of the group of its key. -/
theorem mem_memberIds_candidate (hids : (rows.map env.memoryId).Nodup)
    {entry : CurrencyChain × Dict CurrencyAnnotation} (hentry : entry ∈ packCandidates env rows)
    {id : String} : id ∈ entry.1.memberIds ↔
      ∃ member ∈ packGroup env rows entry.1.slotKey, member.memoryId = id := by
  obtain ⟨ordered, groupClass, edgeOnly, hcandidate⟩ := candidateOf_of_mem hentry
  rw [hcandidate.memberIds, List.mem_map]
  simp only [(hcandidate.chainOrder hids).perm.mem_iff]

/-- A candidate is dropped where another key makes a chain with one of its
members. -/
theorem mem_overlapping_iff (hids : (rows.map env.memoryId).Nodup) {position : Nat}
    {entry : CurrencyChain × Dict CurrencyAnnotation}
    (hget : (packCandidates env rows)[position]? = some entry) :
    position ∈ overlapping (packCandidates env rows) ↔ SharesMember env rows entry.1.slotKey := by
  have hentry := List.mem_of_getElem? hget
  rw [mem_overlapping (nodup_candidates hids)]
  constructor
  · rintro ⟨id, other, hown, htheirs, hne⟩
    obtain ⟨own, hownGet, hownId⟩ := mem_claims.mp hown
    obtain ⟨theirs, htheirsGet, htheirsId⟩ := mem_claims.mp htheirs
    obtain rfl : own = entry := Option.some.inj (hownGet.symm.trans hget)
    have htheirsMem := List.mem_of_getElem? htheirsGet
    obtain ⟨a, ha, rfl⟩ := (mem_memberIds_candidate hids hentry).mp hownId
    obtain ⟨b, hb, hid⟩ := (mem_memberIds_candidate hids htheirsMem).mp htheirsId
    -- the two candidates name one member of the pack
    have hsame : b = a := (distinctIds_packMembers hids).eq (mem_groupOf.mp hb).1
      (mem_groupOf.mp ha).1 hid
    exact ⟨theirs.1.slotKey, fun heq => hne (position_of_slotKey htheirsGet hget heq),
      (makesChain_iff hids).mpr ⟨theirs, htheirsMem, rfl⟩, a, ha, hsame ▸ hb⟩
  · rintro ⟨slotKey, hne, hchain, member, hown, htheirs⟩
    obtain ⟨theirs, htheirsMem, rfl⟩ := (makesChain_iff hids).mp hchain
    obtain ⟨other, hother⟩ := List.mem_iff_getElem?.mp htheirsMem
    refine ⟨member.memoryId, other, mem_claims.mpr ⟨entry, hget, ?_⟩,
      mem_claims.mpr ⟨theirs, hother, ?_⟩, ?_⟩
    · exact (mem_memberIds_candidate hids hentry).mpr ⟨member, hown, rfl⟩
    · exact (mem_memberIds_candidate hids htheirsMem).mpr ⟨member, htheirs, rfl⟩
    · rintro rfl
      rw [hother] at hget
      exact hne (by rw [Option.some.inj hget])

/-- The keys counted in `skipped_ambiguous`. -/
def skippedKeys (env : CurrencyEnv) (rows : List (Dict Json)) : List String :=
  ((packVerdicts env rows).filter ChainVerdict.isSkipped).map ChainVerdict.slotKey ++
    ((packCandidates env rows).zipIdx.filter fun entry =>
      decide (entry.2 ∈ overlapping (packCandidates env rows))).map fun entry => entry.1.1.slotKey

/-- The number reported is the number of the keys skipped. -/
theorem length_skippedKeys (hids : (rows.map env.memoryId).Nodup) :
    (buildCurrencyChains env rows).skippedAmbiguous = (skippedKeys env rows).length := by
  -- the positions that overlap are positions of candidates
  have hfilter : overlapping (packCandidates env rows) =
      (((packCandidates env rows).zipIdx.filter fun entry =>
        decide (entry.2 ∈ overlapping (packCandidates env rows))).map Prod.snd).toFinset := by
    ext position
    rw [List.mem_toFinset, List.mem_map]
    constructor
    · intro h
      obtain ⟨id, other, hown, -⟩ := (mem_overlapping (nodup_candidates hids)).mp h
      obtain ⟨entry, hget, -⟩ := mem_claims.mp hown
      exact ⟨(entry, position), List.mem_filter.mpr
        ⟨List.mk_mem_zipIdx_iff_getElem?.mpr hget, decide_eq_true h⟩, rfl⟩
    · rintro ⟨entry, hentry, rfl⟩
      exact of_decide_eq_true (List.mem_filter.mp hentry).2
  have hnodup : (((packCandidates env rows).zipIdx.filter fun entry =>
      decide (entry.2 ∈ overlapping (packCandidates env rows))).map Prod.snd).Nodup := by
    refine List.Nodup.sublist (List.filter_sublist.map _) ?_
    rw [List.zipIdx_map_snd]
    exact List.nodup_range'
  have hcard := congrArg Finset.card hfilter
  rw [List.toFinset_card_of_nodup hnodup, List.length_map] at hcard
  rw [skippedKeys, List.length_append, List.length_map, List.length_map, ← hcard,
    ← List.countP_eq_length_filter]
  rfl

/-- No chain of the result has the key, and the key is counted as ambiguous. -/
def SkippedAsAmbiguous (env : CurrencyEnv) (rows : List (Dict Json)) (slotKey : String) : Prop :=
  (∀ chain ∈ (buildCurrencyChains env rows).chains, chain.slotKey ≠ slotKey) ∧
    slotKey ∈ skippedKeys env rows

/-- A key has a chain in the result where it makes one, and no other chain takes
a member of it. -/
theorem exists_chain_iff (hids : (rows.map env.memoryId).Nodup) {slotKey : String} :
    (∃ chain ∈ (buildCurrencyChains env rows).chains, chain.slotKey = slotKey) ↔
      MakesChain env rows slotKey ∧ ¬ SharesMember env rows slotKey := by
  constructor
  · rintro ⟨chain, hchain, rfl⟩
    obtain ⟨entry, hentry, rfl⟩ := List.mem_map.mp hchain
    obtain ⟨position, hget, hkept⟩ := mem_keptChains.mp hentry
    exact ⟨(makesChain_iff hids).mpr ⟨entry, List.mem_of_getElem? hget, rfl⟩,
      fun hshares => hkept ((mem_overlapping_iff hids hget).mpr hshares)⟩
  · rintro ⟨hmakes, halone⟩
    obtain ⟨entry, hentry, rfl⟩ := (makesChain_iff hids).mp hmakes
    obtain ⟨position, hget⟩ := List.mem_iff_getElem?.mp hentry
    exact ⟨entry.1, List.mem_map.mpr ⟨entry, mem_keptChains.mpr
      ⟨position, hget, fun hover => halone ((mem_overlapping_iff hids hget).mp hover)⟩, rfl⟩, rfl⟩

/-- A key is skipped where its group is, or its chain shares a member. -/
theorem skippedAsAmbiguous_iff (hids : (rows.map env.memoryId).Nodup) {slotKey : String}
    (hsize : 2 ≤ (packGroup env rows slotKey).length) :
    SkippedAsAmbiguous env rows slotKey ↔
      ¬ DecidedBefore (packTheme env rows) (packMembers env rows) slotKey ∧
        (groupOutcome (packTheme env rows) slotKey (packGroup env rows slotKey) = .skipped ∨
          (∃ ordered groupClass edgeOnly, groupOutcome (packTheme env rows) slotKey
            (packGroup env rows slotKey) = .chain ordered groupClass edgeOnly) ∧
          SharesMember env rows slotKey) := by
  constructor
  · rintro ⟨-, hskipped⟩
    rcases List.mem_append.mp hskipped with hskipped | hskipped
    · obtain ⟨verdict, hmem, rfl⟩ := List.mem_map.mp hskipped
      obtain ⟨hverdict, hoff⟩ := List.mem_filter.mp hmem
      refine ⟨(exists_verdict_iff hids hsize).mp ⟨verdict, hverdict, rfl⟩, .inl ?_⟩
      have houtcome := (mem_decideGroups hverdict).2
      unfold ChainVerdict.isSkipped at hoff
      split at hoff
      · next hcase => exact houtcome.symm.trans hcase
      · exact absurd hoff (by decide)
    · obtain ⟨⟨entry, position⟩, hmem, rfl⟩ := List.mem_map.mp hskipped
      obtain ⟨hget, hover⟩ := List.mem_filter.mp hmem
      have hget := List.mk_mem_zipIdx_iff_getElem?.mp hget
      obtain ⟨-, hfree, hchain⟩ :=
        (makesChain_iff hids).mpr ⟨entry, List.mem_of_getElem? hget, rfl⟩
      exact ⟨hfree, .inr ⟨hchain, (mem_overlapping_iff hids hget).mp (of_decide_eq_true hover)⟩⟩
  · rintro ⟨hfree, hskipped | ⟨hchain, hshares⟩⟩
    · -- a group that is skipped makes no chain
      obtain ⟨verdict, hverdict, rfl⟩ := (exists_verdict_iff hids hsize).mpr hfree
      have houtcome := (mem_decideGroups hverdict).2.trans hskipped
      refine ⟨fun chain hchain heq => ?_, List.mem_append_left _
        (List.mem_map.mpr ⟨verdict, List.mem_filter.mpr ⟨hverdict, ?_⟩, rfl⟩)⟩
      · obtain ⟨⟨-, -, ordered, groupClass, edgeOnly, hmade⟩, -⟩ :=
          (exists_chain_iff hids).mp ⟨chain, hchain, heq⟩
        rw [hskipped] at hmade
        exact absurd hmade (by simp)
      · rw [ChainVerdict.isSkipped, houtcome]
    · -- a chain that shares a member is dropped, and counted
      obtain ⟨entry, hentry, rfl⟩ := (makesChain_iff hids).mp ⟨hsize, hfree, hchain⟩
      obtain ⟨position, hget⟩ := List.mem_iff_getElem?.mp hentry
      have hover := (mem_overlapping_iff hids hget).mpr hshares
      exact ⟨fun chain hkept heq => ((exists_chain_iff hids).mp ⟨chain, hkept, heq⟩).2 hshares,
        List.mem_append_right _ (List.mem_map.mpr ⟨(entry, position), List.mem_filter.mpr
          ⟨List.mk_mem_zipIdx_iff_getElem?.mpr hget, decide_eq_true hover⟩, rfl⟩)⟩

end Pack

/-! ### Groups without edges -/

/-- Two members of one date that nothing orders: they do not assert one value,
and are not of different chunks of one source. -/
structure UnorderableTie (groupClass : Option String) (a b : CurrencyMember) : Prop where
  ne : a ≠ b
  date : ∃ date, a.event = some date ∧ b.event = some date
  values : ¬ ∃ value, valueOf groupClass a = some value ∧ valueOf groupClass b = some value
  chunks : documentOrdered a b = false

/-- The group is skipped before its dates are looked at. -/
def SkippedAtOnce (groupClass : Option String) (group : List CurrencyMember) : Prop :=
  maxChainMembers < group.length ∨
    ∃ name, groupClass = some name ∧ ∃ member ∈ group, name ∈ member.signature.ambiguousClasses

/-- The dates give no order: a member has none, or two neighbours of the sort
are not told apart. -/
def NoDateOrder (groupClass : Option String) (group : List CurrencyMember) : Prop :=
  (∃ member ∈ group, member.event = none) ∨
    ∃ pair ∈ neighbours (group.insertionSort DateLE), tieResolved groupClass pair.1 pair.2 = false

/-- Two neighbours of the sort do not support each other. -/
def Unsupported (theme : Finset String) (groupClass : Option String)
    (group : List CurrencyMember) : Prop :=
  ∃ pair ∈ neighbours (group.insertionSort DateLE),
    pairSupported groupClass ∅ theme pair.1 pair.2 = false

section Edgeless

variable {group : List CurrencyMember}

/-- When the dates give no order: a member without one, or two neighbours that their
dates do not separate. -/
theorem dateOrder_eq_none_iff {groupClass : Option String} :
    dateOrder group groupClass = none ↔ NoDateOrder groupClass group := by
  unfold dateOrder NoDateOrder
  split
  · next hundated =>
    -- a member without a date, or two neighbours that their dates do not order
    obtain ⟨member, hmember, hnone⟩ := List.any_eq_true.mp hundated
    exact iff_of_true rfl (.inl ⟨member, hmember, Option.isNone_iff_eq_none.mp hnone⟩)
  · next hdated =>
    have hall : ¬ ∃ member ∈ group, member.event = none := fun ⟨member, hmember, hnone⟩ =>
      hdated (List.any_eq_true.mpr ⟨member, hmember, Option.isNone_iff_eq_none.mpr hnone⟩)
    rw [or_iff_right hall]
    dsimp only
    split
    · next hresolved =>
      refine iff_of_false (by simp) ?_
      rintro ⟨pair, hpair, hfalse⟩
      rw [List.all_eq_true.mp hresolved pair hpair] at hfalse
      exact absurd hfalse (by decide)
    · next hunresolved =>
      refine iff_of_true rfl ?_
      simpa using hunresolved

/-- An order of the dates is the sort. -/
theorem eq_of_dateOrder {groupClass : Option String} {ordered : List CurrencyMember}
    (h : dateOrder group groupClass = some ordered) : ordered = group.insertionSort DateLE := by
  unfold dateOrder at h
  split at h
  · exact absurd h (by simp)
  · simp only [Option.ite_none_right_eq_some, Option.some.injEq] at h
    exact h.2.symm

theorem distinctValues_perm {other : List CurrencyMember} (groupClass : Option String)
    (h : group.Perm other) : distinctValues groupClass group = distinctValues groupClass other :=
  List.toFinset_eq_of_perm _ _ (h.filterMap _)

theorem allSupported_sort {theme : Finset String} {groupClass : Option String} :
    allSupported groupClass ∅ theme (group.insertionSort DateLE) = false ↔
      Unsupported theme groupClass group := by
  rw [allSupported, List.all_eq_false, Unsupported]
  simp

/-- Without edges nothing closes a cycle. -/
theorem groupEdges_edgeless (h : edgesAmong group = ∅) : groupEdges group = some ∅ := by
  have hacyclic : hasCycle (edgesAmong group) (memberIds group) = false := by
    refine Bool.eq_false_iff.mpr fun hcycle => ?_
    obtain ⟨start, -, hreach⟩ := hasCycle_iff.mp hcycle
    obtain ⟨next, hedge, -⟩ := Relation.TransGen.head'_iff.mp hreach
    rw [Edge, h] at hedge
    exact Finset.notMem_empty _ hedge
  rw [groupEdges, if_neg (by rw [hacyclic]; decide), h]

/-- What becomes of a group without edges. -/
theorem groupOutcome_edgeless (theme : Finset String) (slotKey : String)
    (h : edgesAmong group = ∅) :
    (groupOutcome theme slotKey group = .skipped ↔
      SkippedAtOnce (groupClassOf slotKey group) group ∨
        NoDateOrder (groupClassOf slotKey group) group ∨
        2 ≤ (distinctValues (groupClassOf slotKey group) group).card ∧
          Unsupported theme (groupClassOf slotKey group) group) ∧
    ((∃ ordered groupClass edgeOnly, groupOutcome theme slotKey group =
        .chain ordered groupClass edgeOnly) ↔
      ¬ SkippedAtOnce (groupClassOf slotKey group) group ∧
        ¬ NoDateOrder (groupClassOf slotKey group) group ∧
        2 ≤ (distinctValues (groupClassOf slotKey group) group).card ∧
          ¬ Unsupported theme (groupClassOf slotKey group) group) := by
  unfold groupOutcome
  rw [groupEdges_edgeless h]
  dsimp only
  generalize groupClassOf slotKey group = groupClass
  split
  · -- without edges the size of the group is the first test
    next hlarge => simp [SkippedAtOnce, hlarge]
  next hsmall =>
  split
  · next hambiguous =>
    have honce : SkippedAtOnce groupClass group := by
      refine .inr ?_
      simpa [Option.any_eq_true, List.any_eq_true] using hambiguous
    simp [honce]
  next hambiguous =>
  have honce : ¬ SkippedAtOnce groupClass group := by
    rintro (hlarge | ⟨name, rfl, member, hmember, hname⟩)
    · exact hsmall hlarge
    · exact hambiguous (List.any_eq_true.mpr ⟨member, hmember, decide_eq_true hname⟩)
  -- and the dates are the only order left
  cases hdate : dateOrder group groupClass with
  | none => simp [edgeTotalOrder, honce, dateOrder_eq_none_iff.mp hdate]
  | some ordered =>
    have hdated : ¬ NoDateOrder groupClass group := fun hnone => by
      rw [dateOrder_eq_none_iff.mpr hnone] at hdate
      exact absurd hdate (by simp)
    obtain rfl := eq_of_dateOrder hdate
    have hvalues := distinctValues_perm groupClass (List.perm_insertionSort DateLE group)
    -- no edge contradicts it
    have hforward : orderConsistentWithEdges (group.insertionSort DateLE) ∅ = true := by
      simp [orderConsistentWithEdges]
    simp only [hforward, Bool.not_true, if_neg (by decide : ¬ false = true), hvalues, honce, hdated,
      false_or, not_false_eq_true, true_and]
    split
    · next hfew =>
      have hnot : ¬ 2 ≤ (distinctValues groupClass group).card := not_le.mpr hfew
      simp [hnot]
    · next hmany =>
      rw [and_iff_right (not_lt.mp hmany), and_iff_right (not_lt.mp hmany), ← allSupported_sort]
      cases allSupported groupClass ∅ theme (group.insertionSort DateLE) <;> simp

end Edgeless

/-- A group with an unorderable tie and no edges is skipped as ambiguous where
an earlier key did not decide its members, and the tie is caught: the group is
skipped at once, two neighbours are themselves a tie, or the values differ and
either two neighbours do not support each other or another chain takes a
member. -/
theorem tied_group_skipped_iff (env : CurrencyEnv) (rows : List (Dict Json))
    (hids : (rows.map env.memoryId).Nodup) (slotKey : String) (group : List CurrencyMember)
    (groupClass : Option String) (hgroup : group = packGroup env rows slotKey)
    (hclass : groupClass = groupClassOf slotKey group) (hedges : edgesAmong group = ∅)
    (a b : CurrencyMember) (ha : a ∈ group) (hb : b ∈ group)
    (htie : UnorderableTie groupClass a b) :
    SkippedAsAmbiguous env rows slotKey ↔
      ¬ DecidedBefore (packTheme env rows) (packMembers env rows) slotKey ∧
        (SkippedAtOnce groupClass group ∨ NoDateOrder groupClass group ∨
          2 ≤ (distinctValues groupClass group).card ∧
            (Unsupported (packTheme env rows) groupClass group ∨
              SharesMember env rows slotKey)) := by
  subst hgroup hclass
  have hsize : 2 ≤ (packGroup env rows slotKey).length := by
    match hgroup : packGroup env rows slotKey with
    | [] => rw [hgroup] at ha; exact absurd ha List.not_mem_nil
    | [m] =>
      rw [hgroup, List.mem_singleton] at ha hb
      exact absurd (ha.trans hb.symm) htie.ne
    | _ :: _ :: _ => simp
  obtain ⟨hskipped, hchain⟩ := groupOutcome_edgeless (packTheme env rows) slotKey hedges
  rw [skippedAsAmbiguous_iff hids hsize, hskipped, hchain]
  refine and_congr_right fun _ => ?_
  -- a chain that another one takes a member of is the last of the cases
  by_cases honce : SkippedAtOnce (groupClassOf slotKey (packGroup env rows slotKey))
      (packGroup env rows slotKey)
  · simp only [honce, true_or]
  by_cases hdates : NoDateOrder (groupClassOf slotKey (packGroup env rows slotKey))
      (packGroup env rows slotKey)
  · simp only [hdates, true_or, or_true]
  by_cases hsupport : Unsupported (packTheme env rows)
      (groupClassOf slotKey (packGroup env rows slotKey)) (packGroup env rows slotKey)
  · simp only [hsupport, true_or, not_true_eq_false, and_false, false_and, or_false]
  · simp only [honce, hdates, hsupport, false_or, not_false_eq_true, true_and, and_true, and_false]

/-! ### A tie that is hidden -/

/-- The member a row of `followersEnv` becomes. -/
def followersMember (row : Dict Json) : CurrencyMember :=
  memberFromMemory followersEnv row (followersEnv.signatureFor row)
    (followersEnv.memoryEventDatetime row)

theorem mem_followers {rows : List (Dict Json)} {row : Dict Json} (hrow : row ∈ packRows rows) :
    followersMember row ∈ packGroup followersEnv rows "count:follower" := by
  refine mem_groupOf.mpr ⟨List.mem_filterMap.mpr ⟨row, hrow, ?_⟩, Finset.mem_singleton_self _⟩
  have hkeys : (followersEnv.signatureFor row).slotKeys ≠ ∅ := Finset.singleton_ne_empty _
  simp only [packMember, if_neg hkeys, followersMember]

theorem staleFollowers_mem {rows : List (Dict Json)} (hrow : staleFollowers ∈ packRows rows) :
    followersMember staleFollowers ∈ packGroup followersEnv rows "count:follower" :=
  mem_followers hrow

/-- A pack with one key: nothing is decided before it, and no other chain takes
its members. -/
theorem followers_alone {rows : List (Dict Json)} {member : CurrencyMember}
    (hmember : member ∈ packGroup followersEnv rows "count:follower") :
    ¬ DecidedBefore (packTheme followersEnv rows) (packMembers followersEnv rows)
        "count:follower" ∧
      ¬ SharesMember followersEnv rows "count:follower" := by
  have hkey {slotKey : String} {m : CurrencyMember}
      (h : m ∈ packGroup followersEnv rows slotKey) : slotKey = "count:follower" := by
    obtain ⟨hm, hslot⟩ := mem_groupOf.mp h
    obtain ⟨row, -, rfl⟩ := mem_packMembers hm
    exact Finset.mem_singleton.mp hslot
  constructor
  · rintro ⟨earlier, hlt, heq, -⟩
    have hin := mem_memberIds hmember
    rw [← heq] at hin
    obtain ⟨m, hm, -⟩ := List.mem_map.mp (List.mem_toFinset.mp hin)
    exact hlt.ne (hkey hm)
  · rintro ⟨other, hne, -, m, -, hm⟩
    exact hne (hkey hm)

/-- 500 and 600 followers of one date in two sources are a tie. -/
theorem stale_fresh_tie : UnorderableTie (some "count:follower") (followersMember staleFollowers)
    (followersMember freshFollowers) where
  ne heq := absurd (congrArg CurrencyMember.memoryId heq) (by decide)
  date := ⟨_, rfl, rfl⟩
  values := by
    rintro ⟨value, hstale, hfresh⟩
    exact absurd (hstale.trans hfresh.symm) (by decide)
  chunks := by decide

/-- The two are skipped where nothing stands between them. -/
theorem stale_fresh_skipped :
    SkippedAsAmbiguous followersEnv [staleFollowers, freshFollowers] "count:follower" :=
  (tied_group_skipped_iff followersEnv [staleFollowers, freshFollowers] (by decide)
    "count:follower" (packGroup followersEnv [staleFollowers, freshFollowers] "count:follower")
    (some "count:follower") rfl (by decide) (by decide) (followersMember staleFollowers)
    (followersMember freshFollowers)
    (mem_followers (List.mem_cons_self ..)) (mem_followers (.tail _ (List.mem_cons_self ..)))
    stale_fresh_tie).mpr
    ⟨(followers_alone (staleFollowers_mem (List.mem_cons_self ..))).1,
      .inr (.inl (by unfold NoDateOrder; decide))⟩

/-- The third member hides the tie: it follows the first in their source, and
states what the second does. The group is chained. -/
theorem tie_between_chunks_chained :
    let rows := [staleFollowers, chunkBetween, freshFollowers]
    let group := packGroup followersEnv rows "count:follower"
    (rows.map followersEnv.memoryId).Nodup ∧ edgesAmong group = ∅ ∧
      groupClassOf "count:follower" group = some "count:follower" ∧
      followersMember staleFollowers ∈ group ∧ followersMember freshFollowers ∈ group ∧
      UnorderableTie (some "count:follower") (followersMember staleFollowers)
        (followersMember freshFollowers) ∧
      ∃ chain ∈ (buildCurrencyChains followersEnv rows).chains,
        chain.slotKey = "count:follower" := by
  intro rows group
  have hids : (rows.map followersEnv.memoryId).Nodup := by decide
  have hclass : groupClassOf "count:follower" group = some "count:follower" := by decide
  have hedges : edgesAmong group = ∅ := by decide
  have hstale : followersMember staleFollowers ∈ group := mem_followers (List.mem_cons_self ..)
  have hfresh : followersMember freshFollowers ∈ group :=
    mem_followers (.tail _ (.tail _ (List.mem_cons_self ..)))
  -- the group has its members to itself, so it is chained if its outcome says so
  obtain ⟨hfree, halone⟩ := followers_alone hstale
  refine ⟨hids, hedges, hclass, hstale, hfresh, stale_fresh_tie,
    (exists_chain_iff hids).mpr ⟨⟨by decide, hfree, ?_⟩, halone⟩⟩
  rw [(groupOutcome_edgeless _ _ hedges).2, hclass]
  unfold SkippedAtOnce NoDateOrder Unsupported
  decide

end AliceBot
