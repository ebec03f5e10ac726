import AliceBot.CurrencyGroups

/-!
# Laws of the decision on a group

Two kinds of facts about `groupOutcome`.

* It depends on the members of the group alone (`groupOutcome_perm`). What is
  computed from sets cannot see an order; the two orders it puts the members
  into are those of keys that tell members apart, so a permutation of the group
  is put into the same one.
* The order of a chain is a permutation of the group, and every supersession
  edge goes forward in it (`ChainOrder`). The dates are checked against the
  edges; the walk along the edges passes each member once, since the edges
  close no cycle.
-/

namespace AliceBot

open PyLib

/-- No two members share an identifier. -/
def DistinctIds (group : List CurrencyMember) : Prop :=
  (group.map CurrencyMember.memoryId).Nodup

variable {group other : List CurrencyMember}

theorem DistinctIds.nodup (h : DistinctIds group) : group.Nodup := List.Nodup.of_map _ h

/-- A member is known by its identifier. -/
theorem DistinctIds.eq (h : DistinctIds group) {a b : CurrencyMember} (ha : a ∈ group)
    (hb : b ∈ group) (hid : a.memoryId = b.memoryId) : a = b :=
  List.inj_on_of_nodup_map h ha hb hid

theorem DistinctIds.perm (h : DistinctIds group) (hperm : group.Perm other) : DistinctIds other :=
  (hperm.map _).nodup_iff.mp h

/-! ### Sets of the group -/

theorem mem_unionOver {α β : Type} [DecidableEq β] {f : α → Finset β} {l : List α} {b : β} :
    b ∈ unionOver f l ↔ ∃ a ∈ l, b ∈ f a := by
  induction l with
  | nil => simp [unionOver]
  | cons a l ih =>
    rw [unionOver, List.foldr_cons, Finset.mem_union, ← unionOver, ih]
    simp

theorem unionOver_perm {α β : Type} [DecidableEq β] {f : α → Finset β} {l l' : List α}
    (h : l.Perm l') : unionOver f l = unionOver f l' := by
  ext b
  simp only [mem_unionOver, h.mem_iff]

theorem memberIds_perm (h : group.Perm other) : memberIds group = memberIds other :=
  List.toFinset_eq_of_perm _ _ (h.map _)

theorem mem_memberIds {member : CurrencyMember} (h : member ∈ group) :
    member.memoryId ∈ memberIds group :=
  List.mem_toFinset.mpr (List.mem_map.mpr ⟨member, h, rfl⟩)

theorem edgesAmong_perm (h : group.Perm other) : edgesAmong group = edgesAmong other := by
  rw [edgesAmong, edgesAmong, memberIds_perm h, unionOver_perm h]

theorem groupEdges_perm (h : group.Perm other) : groupEdges group = groupEdges other := by
  rw [groupEdges, groupEdges, edgesAmong_perm h, memberIds_perm h]

/-- A class is common to a group if the group has members and each of them has a value
of it. -/
theorem mem_commonClasses {name : String} : name ∈ commonClasses group ↔
    group ≠ [] ∧ ∀ member ∈ group, name ∈ valueClasses member := by
  cases group with
  | nil => simp [commonClasses]
  | cons member members =>
    have hfold : ∀ (l : List CurrencyMember) (start : Finset String),
        name ∈ l.foldl (fun common m => common ∩ valueClasses m) start ↔
          name ∈ start ∧ ∀ m ∈ l, name ∈ valueClasses m := by
      intro l
      induction l with
      | nil => simp
      | cons m l ih =>
        intro start
        rw [List.foldl_cons, ih, Finset.mem_inter, List.forall_mem_cons, and_assoc]
    rw [commonClasses, hfold, List.forall_mem_cons]
    simp

theorem groupClassOf_perm (slotKey : String) (h : group.Perm other) :
    groupClassOf slotKey group = groupClassOf slotKey other := by
  have hcommon : commonClasses group = commonClasses other := by
    have hnil : group = [] ↔ other = [] :=
      ⟨fun heq => (heq ▸ h).nil_eq.symm, fun heq => (heq ▸ h).eq_nil⟩
    ext name
    simp only [mem_commonClasses, ne_eq, h.mem_iff, hnil]
  rw [groupClassOf, groupClassOf, hcommon]

/-! ### The two orders -/

theorem find?_perm {α : Type} {p : α → Bool} {l l' : List α} (h : l.Perm l')
    (hunique : ∀ a ∈ l, ∀ b ∈ l, p a = true → p b = true → a = b) : l.find? p = l'.find? p := by
  cases hfind : l.find? p with
  | none =>
    rw [List.find?_eq_none] at hfind
    exact (List.find?_eq_none.mpr fun a ha => hfind a (h.mem_iff.mpr ha)).symm
  | some a =>
    have ha := List.mem_of_find?_eq_some hfind
    have hpa := List.find?_some hfind
    cases hfind' : l'.find? p with
    | none => exact absurd hpa (List.find?_eq_none.mp hfind' a (h.mem_iff.mp ha))
    | some b =>
      have hb := h.mem_iff.mpr (List.mem_of_find?_eq_some hfind')
      rw [hunique a ha b hb hpa (List.find?_some hfind')]

theorem single_perm {α : Type} {l l' : List α} (h : l.Perm l') : single l = single l' := by
  match l with
  | [] => rw [h.nil_eq]
  | [a] => rw [List.perm_singleton.mp h.symm]
  | a :: b :: rest =>
    match l' with
    | [] => exact absurd h.length_eq (by simp)
    | [c] => exact absurd h.length_eq (by simp)
    | c :: d :: rest' => rfl

theorem mem_of_single {α : Type} {l : List α} {a : α} (h : single l = some a) : a ∈ l := by
  match l with
  | [_] =>
    rw [← Option.some.inj h]
    exact List.mem_singleton_self _

/-- Without branching, an edge leads to one member. -/
theorem successor_unique {edges : Finset (String × String)} (hbranch : branches edges = false)
    (hids : DistinctIds group) (id : String) :
    ∀ a ∈ group, ∀ b ∈ group, decide ((id, a.memoryId) ∈ edges) = true →
      decide ((id, b.memoryId) ∈ edges) = true → a = b := by
  intro a ha b hb hedge hedge'
  refine hids.eq ha hb ?_
  by_contra hne
  have hbranches : branches edges = true :=
    decide_eq_true ⟨_, of_decide_eq_true hedge, _, of_decide_eq_true hedge', .inl ⟨rfl, hne⟩⟩
  rw [hbranch] at hbranches
  exact absurd hbranches (by decide)

theorem edgeWalk_perm {edges : Finset (String × String)} (hbranch : branches edges = false)
    (hids : DistinctIds group) (h : group.Perm other) (steps : Nat) (member : CurrencyMember) :
    edgeWalk group edges steps member = edgeWalk other edges steps member := by
  induction steps generalizing member with
  | zero => rfl
  | succ steps ih =>
    rw [edgeWalk, edgeWalk, find?_perm h (successor_unique hbranch hids member.memoryId)]
    split
    · rw [ih]
    · rfl

theorem edgeTotalOrder_perm (edges : Finset (String × String)) (hids : DistinctIds group)
    (h : group.Perm other) : edgeTotalOrder group edges = edgeTotalOrder other edges := by
  unfold edgeTotalOrder
  split
  · rfl
  · split
    · rfl
    · next hbranch =>
      rw [single_perm (h.filter _), h.length_eq]
      split
      · simp only [edgeWalk_perm (Bool.eq_false_iff.mpr hbranch) hids h]
      · rfl

instance : Std.Total DateLE := ⟨fun a b => le_total (dateKey a) (dateKey b)⟩

instance : IsTrans CurrencyMember DateLE := ⟨fun _ _ _ => le_trans⟩

/-- The key ends in the identifier. -/
theorem memoryId_of_dateKey {a b : CurrencyMember} (h : dateKey a = dateKey b) :
    a.memoryId = b.memoryId := by
  simp only [dateKey, EmbeddingLike.apply_eq_iff_eq, Prod.mk.injEq] at h
  exact h.2.2.2

/-- The members are put into one order, whatever order they come in. -/
theorem dateSort_perm (hids : DistinctIds group) (h : group.Perm other) :
    group.insertionSort DateLE = other.insertionSort DateLE := by
  refine List.Perm.eq_of_pairwise (fun a b ha hb hle hge => ?_)
    (List.pairwise_insertionSort DateLE group) (List.pairwise_insertionSort DateLE other)
    ((List.perm_insertionSort DateLE group).trans
      (h.trans (List.perm_insertionSort DateLE other).symm))
  exact hids.eq ((List.mem_insertionSort DateLE).mp ha)
    (h.mem_iff.mpr ((List.mem_insertionSort DateLE).mp hb))
    (memoryId_of_dateKey (le_antisymm hle hge))

theorem dateOrder_perm (groupClass : Option String) (hids : DistinctIds group)
    (h : group.Perm other) : dateOrder group groupClass = dateOrder other groupClass := by
  rw [dateOrder, dateOrder, h.any_eq, dateSort_perm hids h]

/-- A group is decided by its members. -/
theorem groupOutcome_perm (theme : Finset String) (slotKey : String) (hids : DistinctIds group)
    (h : group.Perm other) :
    groupOutcome theme slotKey group = groupOutcome theme slotKey other := by
  have hany : ∀ p, group.any p = other.any p := fun p => h.any_eq
  have hdate := fun groupClass => dateOrder_perm groupClass hids h
  have hedge := fun edges => edgeTotalOrder_perm edges hids h
  simp only [groupOutcome, h.length_eq, groupClassOf_perm slotKey h, groupEdges_perm h, hany, hdate,
    hedge]

/-! ### The order of a chain -/

/-- The order of a chain: the members of the group, every edge forward. -/
structure ChainOrder (group ordered : List CurrencyMember) : Prop where
  perm : ordered.Perm group
  forward : ∀ edge ∈ edgesAmong group, positionOf ordered edge.1 < positionOf ordered edge.2

/-- An edge as a relation on members. -/
def EdgeBetween (edges : Finset (String × String)) (a b : CurrencyMember) : Prop :=
  (a.memoryId, b.memoryId) ∈ edges

theorem edgeWalk_head (group : List CurrencyMember) (edges : Finset (String × String))
    (steps : Nat) (member : CurrencyMember) :
    ∃ rest, edgeWalk group edges steps member = member :: rest := by
  cases steps with
  | zero => exact ⟨[], rfl⟩
  | succ steps =>
    rw [edgeWalk]
    split
    · exact ⟨_, rfl⟩
    · exact ⟨[], rfl⟩

/-- Neighbours on a walk along the edges have an edge between them. -/
theorem edgeWalk_isChain (edges : Finset (String × String)) (steps : Nat)
    (member : CurrencyMember) :
    (edgeWalk group edges steps member).IsChain (EdgeBetween edges) := by
  induction steps generalizing member with
  | zero => exact .singleton _
  | succ steps ih =>
    rw [edgeWalk]
    split
    · next next hnext =>
      have hedge := List.find?_some hnext
      simp only [decide_eq_true_eq] at hedge
      have hrest := ih next
      obtain ⟨rest, hwalk⟩ := edgeWalk_head group edges steps next
      rw [hwalk] at hrest ⊢
      exact hrest.cons_cons hedge
    · exact .singleton _

theorem edgeWalk_subset {edges : Finset (String × String)} {steps : Nat}
    {member : CurrencyMember} (hmember : member ∈ group) :
    ∀ m ∈ edgeWalk group edges steps member, m ∈ group := by
  induction steps generalizing member with
  | zero =>
    intro m hm
    rw [List.mem_singleton.mp hm]
    exact hmember
  | succ steps ih =>
    intro m hm
    rw [edgeWalk] at hm
    split at hm
    · next next hnext =>
      rcases List.mem_cons.mp hm with rfl | hm
      · exact hmember
      · exact ih (List.mem_of_find?_eq_some hnext) m hm
    · rw [List.mem_singleton.mp hm]
      exact hmember

/-- A walk that did not run out of steps goes on wherever an edge does. -/
theorem edgeWalk_next {edges : Finset (String × String)} {steps : Nat} {member a b : CurrencyMember}
    (hshort : (edgeWalk group edges steps member).length ≤ steps)
    (ha : a ∈ edgeWalk group edges steps member)
    (hb : (group.find? fun next => decide ((a.memoryId, next.memoryId) ∈ edges)) = some b) :
    ∃ before after, edgeWalk group edges steps member = before ++ a :: b :: after := by
  -- along the walk: its first member, or a later one
  induction steps generalizing member with
  | zero => exact absurd hshort (by simp [edgeWalk])
  | succ steps ih =>
    cases hfind : group.find? fun next => decide ((member.memoryId, next.memoryId) ∈ edges) with
    | none =>
      have hwalk : edgeWalk group edges (steps + 1) member = [member] := by rw [edgeWalk, hfind]
      rw [hwalk] at ha
      rw [List.mem_singleton.mp ha, hfind] at hb
      exact absurd hb (by simp)
    | some next =>
      have hwalk : edgeWalk group edges (steps + 1) member =
          member :: edgeWalk group edges steps next := by rw [edgeWalk, hfind]
      rw [hwalk] at hshort ha ⊢
      rcases List.mem_cons.mp ha with rfl | ha
      · rw [hfind] at hb
        obtain rfl := Option.some.inj hb
        obtain ⟨rest, hrest⟩ := edgeWalk_head group edges steps next
        exact ⟨[], rest, by rw [hrest]; rfl⟩
      · obtain ⟨before, after, hsplit⟩ := ih (Nat.le_of_succ_le_succ hshort) ha
        exact ⟨member :: before, after, by rw [hsplit]; rfl⟩

/-- The position of a member in an order with distinct identifiers. -/
theorem positionOf_append {before after : List CurrencyMember} {member : CurrencyMember}
    (hids : DistinctIds (before ++ member :: after)) :
    positionOf (before ++ member :: after) member.memoryId = before.length := by
  induction before with
  | nil => simp [positionOf, List.findIdx_cons]
  | cons m before ih =>
    obtain ⟨hm, hrest⟩ := List.nodup_cons.mp hids
    have hne : (m.memoryId == member.memoryId) = false := by
      refine beq_eq_false_iff_ne.mpr fun heq => hm ?_
      rw [heq]
      exact List.mem_map.mpr ⟨member, by simp, rfl⟩
    have hpos : positionOf (m :: (before ++ member :: after)) member.memoryId =
        positionOf (before ++ member :: after) member.memoryId + 1 := by
      rw [positionOf, List.findIdx_cons, hne]
      rfl
    rw [List.cons_append, hpos, ih hrest, List.length_cons]

theorem positionOf_eq {ordered : List CurrencyMember} (hids : DistinctIds ordered) {position : Nat}
    {member : CurrencyMember} (hget : ordered[position]? = some member) :
    positionOf ordered member.memoryId = position := by
  obtain ⟨hlt, rfl⟩ := List.getElem?_eq_some_iff.mp hget
  have hsplit : ordered =
      ordered.take position ++ ordered[position] :: ordered.drop (position + 1) := by
    rw [← List.drop_eq_getElem_cons hlt, List.take_append_drop]
  have hpos := positionOf_append (hsplit ▸ hids)
  rw [← hsplit, List.length_take_of_le hlt.le] at hpos
  exact hpos

/-- The ends of an edge are two members. -/
theorem exists_of_mem_edgesAmong {edge : String × String} (h : edge ∈ edgesAmong group) :
    (∃ a ∈ group, a.memoryId = edge.1) ∧ ∃ b ∈ group, b.memoryId = edge.2 := by
  obtain ⟨member, hmember, hedge⟩ := mem_unionOver.mp h
  have hin (id : String) (hid : id ∈ memberIds group) : ∃ a ∈ group, a.memoryId = id := by
    simpa [memberIds] using hid
  -- the pointer to a successor or to a predecessor, which is of the group
  rcases Finset.mem_union.mp hedge with hedge | hedge
  · split at hedge
    · split at hedge
      · next id _ hid =>
        obtain rfl := Finset.mem_singleton.mp hedge
        exact ⟨⟨member, hmember, rfl⟩, hin id hid.2.1⟩
      · exact absurd hedge (Finset.notMem_empty _)
    · exact absurd hedge (Finset.notMem_empty _)
  · split at hedge
    · split at hedge
      · next id _ hid =>
        obtain rfl := Finset.mem_singleton.mp hedge
        exact ⟨hin id hid.2.1, ⟨member, hmember, rfl⟩⟩
      · exact absurd hedge (Finset.notMem_empty _)
    · exact absurd hedge (Finset.notMem_empty _)

/-- A walk along edges that close no cycle passes no member twice. -/
theorem nodup_of_isChain {edges : Finset (String × String)} {nodes : Finset String}
    {walk : List CurrencyMember} (hacyclic : hasCycle edges nodes = false)
    (hnodes : ∀ m ∈ walk, m.memoryId ∈ nodes) (hwalk : walk.IsChain (EdgeBetween edges)) :
    walk.Nodup := by
  have hchain : walk.IsChain fun a b =>
      Relation.TransGen (Edge edges) a.memoryId b.memoryId :=
    hwalk.imp fun a b hedge => .single hedge
  have htrans : IsTrans CurrencyMember fun a b =>
      Relation.TransGen (Edge edges) a.memoryId b.memoryId := ⟨fun _ _ _ => .trans⟩
  refine hchain.pairwise.imp_of_mem fun {a b} ha _ hreach => ?_
  rintro rfl
  have hcycle : hasCycle edges nodes = true := hasCycle_iff.mpr ⟨_, hnodes _ ha, hreach⟩
  rw [hacyclic] at hcycle
  exact absurd hcycle (by decide)

/-- The order along the edges. -/
theorem chainOrder_of_edgeTotalOrder {ordered : List CurrencyMember} (hids : DistinctIds group)
    (hacyclic : hasCycle (edgesAmong group) (memberIds group) = false)
    (h : edgeTotalOrder group (edgesAmong group) = some ordered) : ChainOrder group ordered := by
  unfold edgeTotalOrder at h
  split at h
  · exact absurd h (by simp)
  split at h
  · exact absurd h (by simp)
  next hbranch =>
  split at h
  swap
  · exact absurd h (by simp)
  next start hstart =>
  simp only [Option.ite_none_left_eq_some, Option.some.injEq, not_not] at h
  obtain ⟨hlength, rfl⟩ := h
  have hmem : start ∈ group := List.mem_of_mem_filter (mem_of_single hstart)
  have hsubset : ∀ m ∈ edgeWalk group (edgesAmong group) group.length start, m ∈ group :=
    edgeWalk_subset hmem
  -- no member twice, and as many as the group has
  have hnodup : (edgeWalk group (edgesAmong group) group.length start).Nodup :=
    nodup_of_isChain hacyclic (fun m hm => mem_memberIds (hsubset m hm))
      (edgeWalk_isChain _ _ _)
  have hperm := (hnodup.subperm hsubset).perm_of_length_le hlength.ge
  refine ⟨hperm, fun edge hedge => ?_⟩
  obtain ⟨⟨a, ha, hfst⟩, b, hb, hsnd⟩ := exists_of_mem_edgesAmong hedge
  have hpair : (a.memoryId, b.memoryId) ∈ edgesAmong group := by rw [hfst, hsnd]; exact hedge
  have hnext : (group.find? fun next => decide ((a.memoryId, next.memoryId) ∈ edgesAmong group)) =
      some b := by
    cases hfind :
        group.find? fun next => decide ((a.memoryId, next.memoryId) ∈ edgesAmong group) with
    | none => exact absurd (decide_eq_true hpair) (List.find?_eq_none.mp hfind b hb)
    | some c =>
      have hc := List.find?_some hfind
      rw [successor_unique (Bool.eq_false_iff.mpr hbranch) hids a.memoryId c
        (List.mem_of_find?_eq_some hfind) b hb hc (decide_eq_true hpair)]
  obtain ⟨before, after, hsplit⟩ := edgeWalk_next hlength.le (hperm.mem_iff.mpr ha) hnext
  have hwalkIds : DistinctIds (before ++ a :: b :: after) := hsplit ▸ hids.perm hperm.symm
  rw [hsplit, ← hfst, ← hsnd, positionOf_append hwalkIds]
  have hreassoc : before ++ a :: b :: after = (before ++ [a]) ++ b :: after := by simp
  rw [hreassoc] at hwalkIds ⊢
  rw [positionOf_append hwalkIds, List.length_append]
  exact Nat.lt_succ_self _

/-- The order of the dates. -/
theorem chainOrder_of_dateOrder {ordered : List CurrencyMember} {groupClass : Option String}
    (h : dateOrder group groupClass = some ordered)
    (hedges : orderConsistentWithEdges ordered (edgesAmong group) = true) :
    ChainOrder group ordered := by
  unfold dateOrder at h
  split at h
  · exact absurd h (by simp)
  · simp only [Option.ite_none_right_eq_some, Option.some.injEq] at h
    obtain ⟨-, rfl⟩ := h
    exact ⟨List.perm_insertionSort DateLE group, of_decide_eq_true hedges⟩

theorem groupEdges_eq_some {edges : Finset (String × String)} (h : groupEdges group = some edges) :
    edges = edgesAmong group ∧ hasCycle (edgesAmong group) (memberIds group) = false := by
  unfold groupEdges at h
  split at h
  · exact absurd h (by simp)
  · next hcycle => exact ⟨(Option.some.inj h).symm, Bool.eq_false_iff.mpr hcycle⟩

/-- What a chain is: the group in an order that its edges go along, for the
class of the group. The edges alone decide the order where the dates fail. -/
theorem groupOutcome_chain {theme : Finset String} {slotKey : String}
    {ordered : List CurrencyMember} {groupClass : Option String} {edgeOnly : Bool}
    (hids : DistinctIds group)
    (h : groupOutcome theme slotKey group = .chain ordered groupClass edgeOnly) :
    ChainOrder group ordered ∧ groupClass = groupClassOf slotKey group ∧
      edgeOnly = (dateOrder group groupClass).isNone := by
  unfold groupOutcome at h
  split at h
  · exact absurd h (by simp)
  dsimp only at h
  split at h
  · exact absurd h (by simp)
  next edges hedges =>
  obtain ⟨rfl, hacyclic⟩ := groupEdges_eq_some hedges
  split at h
  · exact absurd h (by simp)
  split at h
  · next hdate =>
    -- the dates order the group, and the edges must not contradict them
    split at h
    · exact absurd h (by simp)
    next hforward =>
    split at h
    · exact absurd h (by simp)
    split at h
    · obtain ⟨rfl, rfl, rfl⟩ := GroupOutcome.chain.inj h
      exact ⟨chainOrder_of_dateOrder hdate (by simpa using hforward), rfl, by rw [hdate]; rfl⟩
    · exact absurd h (by simp)
  · next hdate =>
    -- the dates fail, and the edges order it alone
    split at h
    · exact absurd h (by simp)
    next hwalk =>
    split at h
    · exact absurd h (by simp)
    split at h
    · obtain ⟨rfl, rfl, rfl⟩ := GroupOutcome.chain.inj h
      exact ⟨chainOrder_of_edgeTotalOrder hids hacyclic hwalk, rfl, by rw [hdate]; rfl⟩
    · exact absurd h (by simp)

end AliceBot
