import AliceBot.CurrencyChains

/-!
# Laws of the update chains

The loop of `build_currency_chains` visits the keys in their own order and
decides each group by its members, so the result depends on the set of rows
alone. Its labels are consistent, because the chains that are kept share no
member: an annotation is never written over by that of another chain, and what
`annotationOf` says of one chain stands in the result.

`mem_overlapping` says when a candidate is dropped: where another one claims one
of its members, whichever of the two comes first.
-/

namespace AliceBot

open PyLib

section Pack

variable {env : CurrencyEnv} {rows rows' : List (Dict Json)}

/-! ### The members of a pack -/

/-- A member goes by the identifier of its row. -/
theorem memoryId_of_packMember {memory : Dict Json} {member : CurrencyMember}
    (h : packMember env memory = some member) : member.memoryId = env.memoryId memory := by
  unfold packMember at h
  simp only [Option.ite_none_left_eq_some, Option.some.injEq] at h
  rw [← h.2]
  rfl

theorem packMembers_ids (env : CurrencyEnv) (rows : List (Dict Json)) :
    ((packMembers env rows).map CurrencyMember.memoryId).Sublist (rows.map env.memoryId) := by
  have hsublist (l : List (Dict Json)) :
      ((l.filterMap (packMember env)).map CurrencyMember.memoryId).Sublist
        (l.map env.memoryId) := by
    induction l with
    | nil => exact .slnil
    | cons memory rest ih =>
      cases hmember : packMember env memory with
      | none =>
        rw [List.filterMap_cons_none hmember]
        exact ih.cons _
      | some member =>
        rw [List.filterMap_cons_some hmember, List.map_cons, memoryId_of_packMember hmember]
        exact ih.cons_cons _
  exact (hsublist _).trans (List.filter_sublist.map _)

theorem distinctIds_packMembers (hids : (rows.map env.memoryId).Nodup) :
    DistinctIds (packMembers env rows) :=
  List.Nodup.sublist (packMembers_ids env rows) hids

theorem packRows_perm (h : rows.Perm rows') : (packRows rows).Perm (packRows rows') :=
  h.filter _

theorem packMembers_perm (h : rows.Perm rows') :
    (packMembers env rows).Perm (packMembers env rows') :=
  (packRows_perm h).filterMap _

theorem themeAnchors_perm {signatures signatures' : List SlotSignature}
    (h : signatures.Perm signatures') : themeAnchors signatures = themeAnchors signatures' := by
  simp only [themeAnchors, unionOver_perm h, h.countP_eq, h.length_eq]

end Pack

section Groups

variable {members members' : List CurrencyMember}

theorem mem_groupOf {slotKey : String} {member : CurrencyMember} :
    member ∈ groupOf members slotKey ↔ member ∈ members ∧ slotKey ∈ member.signature.slotKeys := by
  rw [groupOf, List.mem_filter, decide_eq_true_iff]

theorem DistinctIds.groupOf (h : DistinctIds members) (slotKey : String) :
    DistinctIds (groupOf members slotKey) :=
  List.Nodup.sublist (List.filter_sublist.map _) h

theorem groupOf_perm (h : members.Perm members') (slotKey : String) :
    (groupOf members slotKey).Perm (groupOf members' slotKey) :=
  h.filter _

/-- The loop decides by the members, in the order of the keys. -/
theorem decideGroups_perm (theme : Finset String) (hids : DistinctIds members)
    (h : members.Perm members') (keys : List String) (decided : Finset (Finset String)) :
    decideGroups theme members keys decided = decideGroups theme members' keys decided := by
  induction keys generalizing decided with
  | nil => rfl
  | cons slotKey keys ih =>
    have hgroup := groupOf_perm h slotKey
    rw [decideGroups, decideGroups]
    simp only [hgroup.length_eq, memberIds_perm hgroup,
      groupOutcome_perm theme slotKey (hids.groupOf slotKey) hgroup, ih]

/-- A verdict is the outcome for the group of its key. -/
theorem mem_decideGroups {theme : Finset String} {keys : List String}
    {decided : Finset (Finset String)} {verdict : ChainVerdict}
    (h : verdict ∈ decideGroups theme members keys decided) :
    2 ≤ (groupOf members verdict.slotKey).length ∧
      verdict.outcome = groupOutcome theme verdict.slotKey (groupOf members verdict.slotKey) := by
  induction keys generalizing decided with
  | nil => exact absurd h List.not_mem_nil
  | cons slotKey keys ih =>
    rw [decideGroups] at h
    dsimp only at h
    split at h
    · exact ih h
    · next hfresh =>
      rw [not_or, not_lt] at hfresh
      rcases List.mem_cons.mp h with rfl | h
      · exact ⟨hfresh.1, rfl⟩
      · exact ih h

/-- The loop gives one verdict for a key at most. -/
theorem decideGroups_keys (theme : Finset String) (members : List CurrencyMember)
    (keys : List String) (decided : Finset (Finset String)) :
    ((decideGroups theme members keys decided).map ChainVerdict.slotKey).Sublist keys := by
  induction keys generalizing decided with
  | nil => exact .slnil
  | cons slotKey keys ih =>
    rw [decideGroups]
    dsimp only
    split
    · exact (ih _).cons _
    · exact (ih _).cons_cons _

end Groups

/-- The verdicts depend on the set of rows. -/
theorem packVerdicts_perm {env : CurrencyEnv} {rows rows' : List (Dict Json)}
    (hids : (rows.map env.memoryId).Nodup) (h : rows.Perm rows') :
    packVerdicts env rows = packVerdicts env rows' := by
  have hmembers : (packMembers env rows).Perm (packMembers env rows') := packMembers_perm h
  have htheme : themeAnchors (packSignatures env rows) = themeAnchors (packSignatures env rows') :=
    themeAnchors_perm ((packRows_perm h).map _)
  have hkeys : sortedKeys (packMembers env rows) = sortedKeys (packMembers env rows') := by
    rw [sortedKeys, sortedKeys, unionOver_perm hmembers]
  unfold packVerdicts
  dsimp only
  rw [htheme, hkeys, decideGroups_perm _ (distinctIds_packMembers hids) hmembers]

/-! ### Overlaps -/

/-- The members that candidates claim, with the position of the claiming one. -/
def claims (candidates : List (CurrencyChain × Dict CurrencyAnnotation)) : List (String × Nat) :=
  candidates.zipIdx.flatMap fun entry => entry.1.1.memberIds.map fun id => (id, entry.2)

theorem mem_claims {candidates : List (CurrencyChain × Dict CurrencyAnnotation)}
    {id : String} {position : Nat} :
    (id, position) ∈ claims candidates ↔
      ∃ entry, candidates[position]? = some entry ∧ id ∈ entry.1.memberIds := by
  rw [claims, List.mem_flatMap]
  constructor
  · rintro ⟨⟨entry, p⟩, hentry, hid⟩
    obtain ⟨id', hid', heq⟩ := List.mem_map.mp hid
    obtain ⟨rfl, rfl⟩ := Prod.mk.inj heq
    exact ⟨entry, List.mk_mem_zipIdx_iff_getElem?.mp hentry, hid'⟩
  · rintro ⟨entry, hentry, hid⟩
    exact ⟨(entry, position), List.mk_mem_zipIdx_iff_getElem?.mpr hentry,
      List.mem_map.mpr ⟨id, hid, rfl⟩⟩

/-- What the loop knows after some claims: who claimed a member first, and the
candidates that share one. -/
structure Claimed (done : List (String × Nat)) (state : Dict Nat × Finset Nat) : Prop where
  unclaimed : ∀ id, state.1.get? id = none → ∀ position, (id, position) ∉ done
  first : ∀ id position, state.1.get? id = some position → (id, position) ∈ done
  shared : ∀ position, position ∈ state.2 ↔
    ∃ id other, (id, position) ∈ done ∧ (id, other) ∈ done ∧ other ≠ position

/-- Claiming one member more: it is claimed by the first chain that has it, and any
later chain overlaps. -/
theorem Claimed.step {done : List (String × Nat)} {state : Dict Nat × Finset Nat}
    (h : Claimed done state) {id : String} {position : Nat} (hnew : (id, position) ∉ done) :
    Claimed (done ++ [(id, position)]) (claimMember position state id) := by
  unfold claimMember
  cases hget : state.1.get? id with
  | none =>
    have hfree := h.unclaimed id hget
    refine ⟨fun other hother p hmem => ?_, fun other p hother => ?_, fun p => ?_⟩
    · rw [Dict.get?_set] at hother
      split at hother
      · exact absurd hother (by simp)
      · next hne =>
        rcases List.mem_append.mp hmem with hmem | hmem
        · exact h.unclaimed other hother p hmem
        · exact hne (Prod.mk.inj (List.mem_singleton.mp hmem)).1.symm
    · rw [Dict.get?_set] at hother
      split at hother
      · next heq =>
        rw [← heq, ← Option.some.inj hother]
        simp
      · exact List.mem_append_left _ (h.first other p hother)
    · -- nobody else claims the member
      rw [h.shared]
      constructor
      · rintro ⟨m, other, hm, hother, hne⟩
        exact ⟨m, other, List.mem_append_left _ hm, List.mem_append_left _ hother, hne⟩
      · rintro ⟨m, other, hm, hother, hne⟩
        simp only [List.mem_append, List.mem_singleton, Prod.mk.injEq] at hm hother
        rcases hm with hm | ⟨rfl, rfl⟩
        · rcases hother with hother | ⟨rfl, rfl⟩
          · exact ⟨m, other, hm, hother, hne⟩
          · exact absurd hm (hfree p)
        · rcases hother with hother | ⟨-, rfl⟩
          · exact absurd hother (hfree other)
          · exact absurd rfl hne
  | some first =>
    have hfirst := h.first id first hget
    have hne : first ≠ position := fun heq => hnew (heq ▸ hfirst)
    refine ⟨fun other hother p hmem => ?_, fun other p hother => ?_, fun p => ?_⟩
    · rcases List.mem_append.mp hmem with hmem | hmem
      · exact h.unclaimed other hother p hmem
      · rw [(Prod.mk.inj (List.mem_singleton.mp hmem)).1, hget] at hother
        exact absurd hother (by simp)
    · exact List.mem_append_left _ (h.first other p hother)
    · rw [Finset.mem_insert, Finset.mem_insert, h.shared]
      constructor
      · rintro (rfl | rfl | ⟨m, other, hm, hother, hne⟩)
        · exact ⟨id, first, by simp, List.mem_append_left _ hfirst, hne⟩
        · exact ⟨id, position, List.mem_append_left _ hfirst, by simp, hne.symm⟩
        · exact ⟨m, other, List.mem_append_left _ hm, List.mem_append_left _ hother, hne⟩
      · rintro ⟨m, other, hm, hother, hdiff⟩
        simp only [List.mem_append, List.mem_singleton, Prod.mk.injEq] at hm hother
        rcases hm with hm | ⟨rfl, rfl⟩
        · rcases hother with hother | ⟨rfl, rfl⟩
          · exact .inr (.inr ⟨m, other, hm, hother, hdiff⟩)
          · -- claimed before, either by the first or by one that shares with it
            by_cases hp : p = first
            · exact .inr (.inl hp)
            · exact .inr (.inr ⟨m, first, hm, hfirst, fun heq => hp heq.symm⟩)
        · exact .inl rfl

theorem claimed_foldl {pairs done : List (String × Nat)} {state : Dict Nat × Finset Nat}
    (h : Claimed done state) (hnodup : (done ++ pairs).Nodup) :
    Claimed (done ++ pairs) (pairs.foldl (fun s pair => claimMember pair.2 s pair.1) state) := by
  induction pairs generalizing done state with
  | nil => simpa using h
  | cons pair pairs ih =>
    have hnew : pair ∉ done := fun hmem =>
      (List.nodup_append.mp hnodup).2.2 pair hmem pair (List.mem_cons_self ..) rfl
    have hassoc : done ++ pair :: pairs = done ++ [pair] ++ pairs := by simp
    rw [hassoc] at hnodup ⊢
    exact ih (h.step hnew) hnodup

section Overlapping

variable {candidates : List (CurrencyChain × Dict CurrencyAnnotation)}

/-- Chains that have each member once claim each member once. -/
theorem claims_nodup (h : ∀ entry ∈ candidates, entry.1.memberIds.Nodup) :
    (claims candidates).Nodup := by
  refine List.nodup_flatMap.mpr ⟨?_, ?_⟩
  · rintro ⟨entry, position⟩ hmem
    have hentry : entry ∈ candidates :=
      List.mem_of_getElem? (List.mk_mem_zipIdx_iff_getElem?.mp hmem)
    exact (h entry hentry).map fun a b heq => (Prod.mk.inj heq).1
  · -- claims of two candidates differ in the position
    have hpositions : (candidates.zipIdx.map Prod.snd).Nodup := by
      rw [List.zipIdx_map_snd]
      exact List.nodup_range'
    refine (List.pairwise_map.mp hpositions).imp fun {a b} hne => ?_
    intro claim ha hb
    obtain ⟨x, -, rfl⟩ := List.mem_map.mp ha
    obtain ⟨y, -, heq⟩ := List.mem_map.mp hb
    exact hne (Prod.mk.inj heq).2.symm

/-- A candidate is dropped where another one claims one of its members. -/
theorem mem_overlapping (h : ∀ entry ∈ candidates, entry.1.memberIds.Nodup) {position : Nat} :
    position ∈ overlapping candidates ↔ ∃ id other, (id, position) ∈ claims candidates ∧
      (id, other) ∈ claims candidates ∧ other ≠ position := by
  have hinit : Claimed [] (([] : Dict Nat), (∅ : Finset Nat)) :=
    ⟨by simp, by simp, by simp⟩
  have hclaimed : Claimed (claims candidates)
      ((claims candidates).foldl (fun s pair => claimMember pair.2 s pair.1) ([], ∅)) :=
    claimed_foldl hinit (claims_nodup h)
  rw [← hclaimed.shared]
  unfold overlapping claims
  simp only [List.foldl_flatMap, List.foldl_map]

theorem mem_keptChains {entry : CurrencyChain × Dict CurrencyAnnotation} :
    entry ∈ keptChains candidates ↔
      ∃ position, candidates[position]? = some entry ∧ position ∉ overlapping candidates := by
  rw [keptChains, List.mem_map]
  constructor
  · rintro ⟨⟨entry, position⟩, hmem, rfl⟩
    obtain ⟨hentry, hkept⟩ := List.mem_filter.mp hmem
    exact ⟨position, List.mk_mem_zipIdx_iff_getElem?.mp hentry, of_decide_eq_true hkept⟩
  · rintro ⟨position, hentry, hkept⟩
    exact ⟨(entry, position), List.mem_filter.mpr
      ⟨List.mk_mem_zipIdx_iff_getElem?.mpr hentry, decide_eq_true hkept⟩, rfl⟩

/-- The candidates that are kept share no member. -/
theorem nodup_keptMembers (h : ∀ entry ∈ candidates, entry.1.memberIds.Nodup) :
    ((keptChains candidates).flatMap fun entry => entry.1.memberIds).Nodup := by
  refine List.nodup_flatMap.mpr ⟨fun entry hentry => ?_, ?_⟩
  · obtain ⟨position, hget, -⟩ := mem_keptChains.mp hentry
    exact h entry (List.mem_of_getElem? hget)
  · have hpositions : (candidates.zipIdx.map Prod.snd).Nodup := by
      rw [List.zipIdx_map_snd]
      exact List.nodup_range'
    refine List.pairwise_map.mpr
      (((List.pairwise_map.mp hpositions).filter _).imp_of_mem fun {a b} ha hb hne => ?_)
    obtain ⟨ha, hkept⟩ := List.mem_filter.mp ha
    obtain ⟨hb, -⟩ := List.mem_filter.mp hb
    intro id hida hidb
    refine of_decide_eq_true hkept
      ((mem_overlapping h).mpr ⟨id, b.2, ?_, ?_, fun heq => hne heq.symm⟩)
    · exact mem_claims.mpr ⟨a.1, List.mk_mem_zipIdx_iff_getElem?.mp ha, hida⟩
    · exact mem_claims.mpr ⟨b.1, List.mk_mem_zipIdx_iff_getElem?.mp hb, hidb⟩

end Overlapping

/-! ### The annotations of a chain -/

section Annotations

variable {ordered : List CurrencyMember} {groupClass : Option String} {edgeOnly : Bool}

/-- The annotations of a chain, one for each of its members. -/
theorem annotateChain_annotations (env : CurrencyEnv) (slotKey : String)
    (groupClass : Option String) (edgeOnly : Bool) (hids : DistinctIds ordered) :
    (annotateChain env slotKey ordered groupClass edgeOnly).2 =
      ordered.zipIdx.map fun entry => (entry.1.memoryId,
        annotationOf (chainIdOf env slotKey (ordered.map CurrencyMember.memoryId)) slotKey ordered
          groupClass edgeOnly entry.2 entry.1) := by
  unfold annotateChain
  dsimp only
  rw [Dict.update_of_nodup, List.nil_append]
  have hkeys (f : CurrencyMember × Nat → CurrencyAnnotation) :
      (ordered.zipIdx.map fun entry => (entry.1.memoryId, f entry)).map Prod.fst =
        ordered.map CurrencyMember.memoryId := by
    rw [List.map_map, ← List.zipIdx_map_fst 0 ordered, List.map_map, List.zipIdx_map_fst]
    rfl
  rw [List.nil_append, hkeys]
  exact hids

/-- The last member is current, whatever the labels follow. -/
theorem isCurrent_last {position : Nat} {member : CurrencyMember}
    (hget : ordered[position]? = some member) (hlast : position + 1 = ordered.length) :
    isCurrent ordered groupClass edgeOnly position member = true := by
  have hmember : ordered.getLast? = some member := by
    rw [List.getLast?_eq_getElem?, ← hlast, Nat.add_sub_cancel, hget]
  unfold isCurrent
  split
  · exact beq_iff_eq.mpr hlast
  · next value hvalue =>
    unfold currentValue at hvalue
    split at hvalue
    · exact absurd hvalue (by simp)
    · rw [hmember, Option.bind_some] at hvalue
      exact beq_iff_eq.mpr hvalue

end Annotations

/-! ### The chains of a result -/

section Result

variable {env : CurrencyEnv} {rows rows' : List (Dict Json)}

/-- The theme of a pack. -/
abbrev packTheme (env : CurrencyEnv) (rows : List (Dict Json)) : Finset String :=
  themeAnchors (packSignatures env rows)

/-- The group of a key in a pack. -/
abbrev packGroup (env : CurrencyEnv) (rows : List (Dict Json)) (slotKey : String) :
    List CurrencyMember :=
  groupOf (packMembers env rows) slotKey

theorem distinctIds_packGroup (hids : (rows.map env.memoryId).Nodup) (slotKey : String) :
    DistinctIds (packGroup env rows slotKey) :=
  (distinctIds_packMembers hids).groupOf slotKey

/-- Where a candidate comes from. -/
structure CandidateOf (env : CurrencyEnv) (rows : List (Dict Json))
    (entry : CurrencyChain × Dict CurrencyAnnotation) (ordered : List CurrencyMember)
    (groupClass : Option String) (edgeOnly : Bool) : Prop where
  annotated : entry = annotateChain env entry.1.slotKey ordered groupClass edgeOnly
  decided : groupOutcome (packTheme env rows) entry.1.slotKey (packGroup env rows entry.1.slotKey) =
    .chain ordered groupClass edgeOnly
  size : 2 ≤ (packGroup env rows entry.1.slotKey).length

theorem candidateOf_of_mem {entry : CurrencyChain × Dict CurrencyAnnotation}
    (h : entry ∈ packCandidates env rows) :
    ∃ ordered groupClass edgeOnly, CandidateOf env rows entry ordered groupClass edgeOnly := by
  obtain ⟨verdict, hverdict, hentry⟩ := List.mem_filterMap.mp h
  obtain ⟨hsize, houtcome⟩ := mem_decideGroups hverdict
  unfold ChainVerdict.candidate at hentry
  split at hentry
  · next ordered groupClass edgeOnly hchain =>
    obtain rfl := Option.some.inj hentry
    exact ⟨ordered, groupClass, edgeOnly, rfl, houtcome.symm.trans hchain, hsize⟩
  · exact absurd hentry (by simp)

namespace CandidateOf

variable {entry : CurrencyChain × Dict CurrencyAnnotation} {ordered : List CurrencyMember}
  {groupClass : Option String} {edgeOnly : Bool}

theorem memberIds (h : CandidateOf env rows entry ordered groupClass edgeOnly) :
    entry.1.memberIds = ordered.map CurrencyMember.memoryId := by
  rw [h.annotated]
  rfl

theorem chainOrder (h : CandidateOf env rows entry ordered groupClass edgeOnly)
    (hids : (rows.map env.memoryId).Nodup) :
    ChainOrder (packGroup env rows entry.1.slotKey) ordered :=
  (groupOutcome_chain (distinctIds_packGroup hids _) h.decided).1

theorem distinctIds (h : CandidateOf env rows entry ordered groupClass edgeOnly)
    (hids : (rows.map env.memoryId).Nodup) : DistinctIds ordered :=
  (distinctIds_packGroup hids _).perm (h.chainOrder hids).perm.symm

theorem annotations (h : CandidateOf env rows entry ordered groupClass edgeOnly)
    (hids : (rows.map env.memoryId).Nodup) :
    entry.2 = ordered.zipIdx.map fun member => (member.1.memoryId,
      annotationOf entry.1.chainId entry.1.slotKey ordered groupClass edgeOnly member.2
        member.1) := by
  have hannotated := h.annotated
  rw [hannotated, annotateChain_annotations env _ groupClass edgeOnly (h.distinctIds hids)]
  rfl

end CandidateOf

theorem nodup_candidates (hids : (rows.map env.memoryId).Nodup) :
    ∀ entry ∈ packCandidates env rows, entry.1.memberIds.Nodup := by
  intro entry hentry
  obtain ⟨ordered, groupClass, edgeOnly, hcandidate⟩ := candidateOf_of_mem hentry
  rw [hcandidate.memberIds]
  exact hcandidate.distinctIds hids

/-- The candidates that are kept. -/
abbrev packKept (env : CurrencyEnv) (rows : List (Dict Json)) :
    List (CurrencyChain × Dict CurrencyAnnotation) :=
  keptChains (packCandidates env rows)

theorem candidateOf_of_kept {entry : CurrencyChain × Dict CurrencyAnnotation}
    (h : entry ∈ packKept env rows) :
    ∃ ordered groupClass edgeOnly, CandidateOf env rows entry ordered groupClass edgeOnly := by
  obtain ⟨position, hget, -⟩ := mem_keptChains.mp h
  exact candidateOf_of_mem (List.mem_of_getElem? hget)

/-- The chains that are kept annotate their members. -/
theorem keys_annotations (hids : (rows.map env.memoryId).Nodup) :
    ((packKept env rows).flatMap Prod.snd).map Prod.fst =
      (packKept env rows).flatMap fun entry => entry.1.memberIds := by
  rw [List.map_flatMap]
  refine List.flatMap_congr fun entry hentry => ?_
  obtain ⟨ordered, groupClass, edgeOnly, hcandidate⟩ := candidateOf_of_kept hentry
  rw [hcandidate.annotations hids, hcandidate.memberIds, List.map_map]
  conv_rhs => rw [← List.zipIdx_map_fst 0 ordered, List.map_map]
  rfl

/-- No annotation is written over: the result has those of all the chains kept. -/
theorem annotations_eq (hids : (rows.map env.memoryId).Nodup) :
    (buildCurrencyChains env rows).annotations = (packKept env rows).flatMap Prod.snd := by
  have hupdate : (buildCurrencyChains env rows).annotations =
      Dict.update [] ((packKept env rows).flatMap Prod.snd) := by
    rw [Dict.update, List.foldl_flatMap]
    rfl
  rw [hupdate, Dict.update_of_nodup, List.nil_append]
  rw [List.nil_append, keys_annotations hids]
  exact nodup_keptMembers (nodup_candidates hids)

/-- The annotation of a member of a chain that is kept. -/
theorem get?_annotations (hids : (rows.map env.memoryId).Nodup)
    {entry : CurrencyChain × Dict CurrencyAnnotation} (hkept : entry ∈ packKept env rows)
    {ordered : List CurrencyMember} {groupClass : Option String} {edgeOnly : Bool}
    (h : CandidateOf env rows entry ordered groupClass edgeOnly) {position : Nat}
    {member : CurrencyMember} (hget : ordered[position]? = some member) :
    (buildCurrencyChains env rows).annotations.get? member.memoryId =
      some (annotationOf entry.1.chainId entry.1.slotKey ordered groupClass edgeOnly position
        member) := by
  rw [annotations_eq hids]
  refine Dict.get?_of_mem ?_ (List.mem_flatMap.mpr ⟨entry, hkept, ?_⟩)
  · rw [keys_annotations hids]
    exact nodup_keptMembers (nodup_candidates hids)
  · rw [h.annotations hids]
    exact List.mem_map.mpr ⟨(member, position), List.mk_mem_zipIdx_iff_getElem?.mpr hget, rfl⟩

/-- The labels of one chain. -/
structure ChainLabels (env : CurrencyEnv) (rows : List (Dict Json))
    (annotations : Dict CurrencyAnnotation) (chain : CurrencyChain) : Prop where
  size : 2 ≤ chain.memberIds.length
  /-- The chain is the group of its key. -/
  members : chain.memberIds.Perm
    ((packGroup env rows chain.slotKey).map CurrencyMember.memoryId)
  /-- Positions follow the order of the members. -/
  positions : ∀ position id, chain.memberIds[position]? = some id →
    ∃ note, annotations.get? id = some note ∧
      note.chainId = chain.chainId ∧ note.slotKey = chain.slotKey ∧
      note.position = position + 1 ∧ note.chainSize = chain.memberIds.length ∧
      note.label = labelText note.status note.asOf
  /-- The last member is current. -/
  last : ∀ id, chain.memberIds.getLast? = some id →
    ∃ note, annotations.get? id = some note ∧ note.status = .current
  /-- Supersession goes to a higher position. -/
  edges : ∀ row ∈ rows, ∀ other, other ≠ env.memoryId row → other ∈ chain.memberIds →
    env.memoryId row ∈ chain.memberIds →
    ∀ own theirs, annotations.get? (env.memoryId row) = some own →
      annotations.get? other = some theirs →
      (env.strIfTruthy (row.item "superseded_by") = some other → own.position < theirs.position) ∧
      (env.strIfTruthy (row.item "supersedes") = some other → theirs.position < own.position)
  /-- In the order of the dates, the current members are those with the value of
  the last one. -/
  values : ∀ groupClass,
    groupClass = groupClassOf chain.slotKey (packGroup env rows chain.slotKey) →
    (dateOrder (packGroup env rows chain.slotKey) groupClass).isSome = true →
    ∀ last ∈ packGroup env rows chain.slotKey, chain.memberIds.getLast? = some last.memoryId →
    ∀ value, assertedValue groupClass last = some value →
    ∀ member ∈ packGroup env rows chain.slotKey, ∀ note,
      annotations.get? member.memoryId = some note →
      (note.status = .current ↔ assertedValue groupClass member = some value)

/-- The result of a pack with its labels. -/
structure ConsistentResult (env : CurrencyEnv) (rows : List (Dict Json))
    (result : CurrencyChainResult) : Prop where
  /-- A member belongs to one chain, once. -/
  disjoint : (result.chains.flatMap CurrencyChain.memberIds).Nodup
  /-- Members of chains are annotated, and no others. -/
  annotated : result.annotations.map Prod.fst = result.chains.flatMap CurrencyChain.memberIds
  labels : ∀ chain ∈ result.chains, ChainLabels env rows result.annotations chain

/-- An explicit pointer between two rows of a group is an edge of it. -/
theorem strIfTruthy_ne {value : Json} {other : String}
    (h : env.strIfTruthy value = some other) : other ≠ "" := by
  unfold CurrencyEnv.strIfTruthy at h
  split at h
  · next htruthy =>
    obtain rfl := Option.some.inj h
    unfold CurrencyEnv.str
    split
    · simpa [Json.truthy] using htruthy
    · exact env.repr_ne value
  · exact absurd h (by simp)

theorem mem_packMembers {member : CurrencyMember} (h : member ∈ packMembers env rows) :
    ∃ row ∈ rows, member = memberFromMemory env row (env.signatureFor row)
      (env.memoryEventDatetime row) := by
  obtain ⟨row, hrow, hmember⟩ := List.mem_filterMap.mp h
  unfold packMember at hmember
  simp only [Option.ite_none_left_eq_some, Option.some.injEq] at hmember
  exact ⟨row, List.mem_of_mem_filter hrow, hmember.2.symm⟩

/-- The row of a member, found by the identifier. -/
theorem member_of_row (hids : (rows.map env.memoryId).Nodup) {row : Dict Json} (hrow : row ∈ rows)
    {slotKey : String}
    (hid : env.memoryId row ∈ (packGroup env rows slotKey).map CurrencyMember.memoryId) :
    memberFromMemory env row (env.signatureFor row) (env.memoryEventDatetime row) ∈
      packGroup env rows slotKey := by
  obtain ⟨member, hmember, heq⟩ := List.mem_map.mp hid
  obtain ⟨row', hrow', rfl⟩ := mem_packMembers (mem_groupOf.mp hmember).1
  rwa [← List.inj_on_of_nodup_map hids hrow' hrow heq]

/-- A pointer from a row of a group to another one is an edge of the group. -/
theorem mem_edgesAmong_of_row (hids : (rows.map env.memoryId).Nodup) {row : Dict Json}
    (hrow : row ∈ rows) {slotKey other : String} (hne : other ≠ env.memoryId row)
    (hown : env.memoryId row ∈ (packGroup env rows slotKey).map CurrencyMember.memoryId)
    (hother : other ∈ (packGroup env rows slotKey).map CurrencyMember.memoryId) :
    (env.strIfTruthy (row.item "superseded_by") = some other →
      (env.memoryId row, other) ∈ edgesAmong (packGroup env rows slotKey)) ∧
    (env.strIfTruthy (row.item "supersedes") = some other →
      (other, env.memoryId row) ∈ edgesAmong (packGroup env rows slotKey)) := by
  have hmember := member_of_row hids hrow hown
  have hin : other ∈ memberIds (packGroup env rows slotKey) := List.mem_toFinset.mpr hother
  constructor
  · -- the pointer to the successor
    intro hpointer
    refine mem_unionOver.mpr ⟨_, hmember, Finset.mem_union_left _ ?_⟩
    have hfield : (memberFromMemory env row (env.signatureFor row)
        (env.memoryEventDatetime row)).supersededBy = some other := hpointer
    rw [hfield]
    dsimp only
    rw [if_pos ⟨strIfTruthy_ne hpointer, hin, hne⟩]
    exact Finset.mem_singleton_self _
  · -- and the one to the predecessor, which is an edge the other way
    intro hpointer
    refine mem_unionOver.mpr ⟨_, hmember, Finset.mem_union_right _ ?_⟩
    have hfield : (memberFromMemory env row (env.signatureFor row)
        (env.memoryEventDatetime row)).supersedes = some other := hpointer
    rw [hfield]
    dsimp only
    rw [if_pos ⟨strIfTruthy_ne hpointer, hin, hne⟩]
    exact Finset.mem_singleton_self _

/-- The labels of a chain that is kept. -/
theorem chainLabels_of_kept (hids : (rows.map env.memoryId).Nodup)
    {entry : CurrencyChain × Dict CurrencyAnnotation} (hkept : entry ∈ packKept env rows) :
    ChainLabels env rows (buildCurrencyChains env rows).annotations entry.1 := by
  obtain ⟨ordered, groupClass, edgeOnly, hcandidate⟩ := candidateOf_of_kept hkept
  have horder := hcandidate.chainOrder hids
  have hdistinct := hcandidate.distinctIds hids
  have hmemberIds := hcandidate.memberIds
  obtain ⟨-, hclass, hedgeOnly⟩ :=
    groupOutcome_chain (distinctIds_packGroup hids _) hcandidate.decided
  have hperm : entry.1.memberIds.Perm
      ((packGroup env rows entry.1.slotKey).map CurrencyMember.memoryId) := by
    rw [hmemberIds]
    exact horder.perm.map _
  have hget {position : Nat} {member : CurrencyMember} (h : ordered[position]? = some member) :=
    get?_annotations hids hkept hcandidate h
  -- every member has its place in the order, and the annotation that goes with it
  have hplace {id : String} (hid : id ∈ entry.1.memberIds) : ∃ position member,
      ordered[position]? = some member ∧ member.memoryId = id ∧
        positionOf ordered id = position := by
    rw [hmemberIds] at hid
    obtain ⟨member, hmember, rfl⟩ := List.mem_map.mp hid
    obtain ⟨position, hposition⟩ := List.mem_iff_getElem?.mp hmember
    exact ⟨position, member, hposition, rfl, positionOf_eq hdistinct hposition⟩
  have hposition {id : String} (hid : id ∈ entry.1.memberIds) {note : CurrencyAnnotation}
      (hnote : (buildCurrencyChains env rows).annotations.get? id = some note) :
      note.position = positionOf ordered id + 1 := by
    obtain ⟨position, member, hmember, rfl, hpos⟩ := hplace hid
    rw [hget hmember] at hnote
    rw [← Option.some.inj hnote, hpos]
    rfl
  refine ⟨?_, hperm, ?_, ?_, ?_, ?_⟩
  · rw [hperm.length_eq, List.length_map]
    exact hcandidate.size
  · intro position id hid
    rw [hmemberIds, List.getElem?_map] at hid
    obtain ⟨member, hmember, rfl⟩ := Option.map_eq_some_iff.mp hid
    refine ⟨_, hget hmember, rfl, rfl, rfl, ?_, rfl⟩
    rw [hmemberIds, List.length_map]
    rfl
  · intro id hid
    rw [hmemberIds, List.getLast?_map] at hid
    obtain ⟨member, hmember, rfl⟩ := Option.map_eq_some_iff.mp hid
    rw [List.getLast?_eq_getElem?] at hmember
    refine ⟨_, hget hmember, ?_⟩
    have hpositive : ordered.length - 1 + 1 = ordered.length :=
      Nat.sub_add_cancel (by rw [horder.perm.length_eq]; exact le_trans (by decide) hcandidate.size)
    exact if_pos (isCurrent_last hmember hpositive)
  · intro row hrow other hne hother hown own theirs hownGet htheirsGet
    rw [hposition hown hownGet, hposition hother htheirsGet]
    obtain ⟨hafter, hbefore⟩ := mem_edgesAmong_of_row hids hrow hne (hperm.mem_iff.mp hown)
      (hperm.mem_iff.mp hother)
    exact ⟨fun h => Nat.succ_lt_succ (horder.forward _ (hafter h)),
      fun h => Nat.succ_lt_succ (horder.forward _ (hbefore h))⟩
  · intro cls hcls hdates last hlast hlastId value hvalue member hmember note hnote
    rw [← hclass] at hcls
    subst hcls
    have hdated : edgeOnly = false := by
      rw [hedgeOnly]
      exact Option.isNone_eq_false_iff.mpr hdates
    -- the last of the order is the member whose value counts
    rw [hmemberIds, List.getLast?_map] at hlastId
    obtain ⟨final, hfinal, hfinalId⟩ := Option.map_eq_some_iff.mp hlastId
    have hsame : final = last := (distinctIds_packGroup hids _).eq
      (horder.perm.mem_iff.mp (List.mem_of_getLast? hfinal)) hlast hfinalId
    have hcurrent : currentValue ordered cls edgeOnly = some value := by
      rw [currentValue, hdated, if_neg (by decide), hfinal, Option.bind_some, hsame, hvalue]
    obtain ⟨position, hposition⟩ := List.mem_iff_getElem?.mp (horder.perm.mem_iff.mpr hmember)
    rw [hget hposition] at hnote
    rw [← Option.some.inj hnote]
    have hstatus : isCurrent ordered cls edgeOnly position member =
        (assertedValue cls member == some value) := by
      rw [isCurrent, hcurrent]
    unfold annotationOf
    dsimp only
    rw [hstatus]
    by_cases heq : assertedValue cls member = some value
    · simp [heq]
    · simp [heq, beq_eq_false_iff_ne.mpr heq]

theorem consistentResult (hids : (rows.map env.memoryId).Nodup) :
    ConsistentResult env rows (buildCurrencyChains env rows) where
  disjoint := by
    rw [buildCurrencyChains, List.flatMap_map]
    exact nodup_keptMembers (nodup_candidates hids)
  annotated := by
    rw [annotations_eq hids, keys_annotations hids, buildCurrencyChains, List.flatMap_map]
  labels chain hchain := by
    obtain ⟨entry, hentry, rfl⟩ := List.mem_map.mp hchain
    exact chainLabels_of_kept hids hentry

/-- The result of a pack depends on the set of its rows, and its labels are
consistent. -/
theorem buildCurrencyChains_of_rows (env : CurrencyEnv) (rows rows' : List (Dict Json))
    (hids : (rows.map env.memoryId).Nodup) (hperm : rows.Perm rows') :
    buildCurrencyChains env rows = buildCurrencyChains env rows' ∧
      ConsistentResult env rows (buildCurrencyChains env rows) := by
  refine ⟨?_, consistentResult hids⟩
  unfold buildCurrencyChains packCandidates
  rw [packVerdicts_perm hids hperm]

/-- The two rows give one chain, whichever comes first. -/
theorem buildCurrencyChains_of_followers :
    buildCurrencyChains followersEnv [staleFollowers, chunkBetween] =
        buildCurrencyChains followersEnv [chunkBetween, staleFollowers] ∧
      ConsistentResult followersEnv [staleFollowers, chunkBetween]
        (buildCurrencyChains followersEnv [staleFollowers, chunkBetween]) :=
  buildCurrencyChains_of_rows followersEnv _ _ (by decide) (.swap _ _ _)

end Result

end AliceBot
