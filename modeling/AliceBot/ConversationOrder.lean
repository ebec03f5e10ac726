import AliceBot.Library.DepthFirst
import AliceBot.Library.Json
import Mathlib.Data.List.Chain

/-!
# The order of a conversation

`_ordered_chatgpt_nodes` puts the nodes of an export into an order: a depth-first
walk from every root, with the successor on the current branch before the other
children, and a second pass for nodes that no root leads to.

Every node comes once (`orderedIds_perm`) and behind its parent
(`orderedIds_parentFirst`). The branch of the current node is walked first only
from its own root, so it comes before the rest if and only if that root is the
first one in the export (`keepsConversationOrder_iff`).
-/

namespace AliceBot

open PyLib Relation

/-! ### The mapping of an export -/

/-- `{str(node_id): node for node_id, node in raw_mapping.items() if isinstance(node, dict)}`. -/
def conversationMapping (conversation : Dict Json) : Dict (Dict Json) :=
  match conversation.get? "mapping" with
  | some (.obj rawMapping) =>
    Dict.update [] (rawMapping.filterMap fun item => item.2.asObj?.map fun node => (item.1, node))
  | _ => []

section Mapping

variable (mapping : Dict (Dict Json))

def nodeIds : List String := mapping.map Prod.fst

/-- The parent of a node, if it is in the mapping. -/
def parentOf (nodeId : String) : Option String :=
  ((mapping.get? nodeId).bind fun node => node.getStr? "parent").filter fun parent =>
    mapping.has parent

/-- `children_by_parent` from the parents of the nodes alone. -/
def derivedChildren (nodeId : String) : List String :=
  (nodeIds mapping).filter fun child => parentOf mapping child == some nodeId

/-- The children a node names, so far as they are in the mapping. -/
def explicitChildren (nodeId : String) : Option (List String) :=
  match (mapping.get? nodeId).bind fun node => node.get? "children" with
  | some (.arr explicit) =>
    some ((explicit.filterMap Json.asStr?).filter fun child => mapping.has child)
  | _ => none

/-- `children_by_parent[node_id]`. -/
def childrenByParent (nodeId : String) : List String :=
  match explicitChildren mapping nodeId with
  | some ordered => fromkeys (ordered ++ derivedChildren mapping nodeId)
  | none => derivedChildren mapping nodeId

/-- The loop up to the root, with the chain so far. -/
def activeChainLoop (chain : List String) (current : String) : List String :=
  if current ∈ nodeIds mapping ∧ current ∉ chain then
    match (mapping.get? current).bind fun node => node.getStr? "parent" with
    | some parent => activeChainLoop (chain ++ [current]) parent
    | none => chain ++ [current]
  else chain
termination_by ((nodeIds mapping).filter (· ∉ chain)).length
decreasing_by
  rename_i h
  exact length_filter_notMem_concat_lt h.1 h.2

/-- `current_node`, if it is in the mapping. -/
def currentNode (conversation : Dict Json) : Option String :=
  (conversation.getStr? "current_node").filter fun current => mapping.has current

/-- `active_chain`, from the root down. -/
def activeChain (conversation : Dict Json) : List String :=
  match currentNode mapping conversation with
  | some current => (activeChainLoop mapping [] current).reverse
  | none => []

/-- The children in the order of the walk, the one on the current branch first. -/
def visitedChildren (conversation : Dict Json) (nodeId : String) : List String :=
  let activeSuccessor : Dict String :=
    (activeChain mapping conversation).zip (activeChain mapping conversation).tail
  let children := childrenByParent mapping nodeId
  match activeSuccessor.get? nodeId with
  | some preferred =>
    if preferred ∈ children then preferred :: children.filter (· ≠ preferred) else children
  | none => children

/-- The nodes without a parent in the mapping. -/
def conversationRoots : List String :=
  (nodeIds mapping).filter fun nodeId => (parentOf mapping nodeId).isNone

/-- The two passes over the mapping, in a number of call frames. -/
def orderedIds (frames : Nat) (conversation : Dict Json) : Option (List String) :=
  let next := visitedChildren mapping conversation
  (visitAll next frames [] (conversationRoots mapping)).bind fun visited =>
    visitAll next frames visited (nodeIds mapping)

end Mapping

/-- `_ordered_chatgpt_nodes`; `none` where the walk goes deeper than the frames. -/
def orderedChatgptNodes (frames : Nat) (conversation : Dict Json) :
    Option (List (Dict Json)) :=
  match conversation.get? "messages" with
  | some (.arr messages) => some (messages.filterMap Json.asObj?)
  | _ =>
    let mapping := conversationMapping conversation
    (orderedIds mapping frames conversation).map fun ids => ids.filterMap mapping.get?

/-! ### What the order has to keep -/

/-- The children a node names, where they are in the mapping, have it as their parent. -/
def ChildrenConsistent (mapping : Dict (Dict Json)) : Prop :=
  ∀ nodeId, ∀ ordered, explicitChildren mapping nodeId = some ordered →
    ∀ child ∈ ordered, parentOf mapping child = some nodeId

/-- The nodes from the current one up to its root. -/
def OnCurrentPath (mapping : Dict (Dict Json)) (conversation : Dict Json) (nodeId : String) :
    Prop :=
  ∃ current, currentNode mapping conversation = some current ∧
    ReflTransGen (Follows (parentOf mapping)) current nodeId

/-- The order of a well-formed conversation: parents before their children, and the
current path before everything else. -/
structure FollowsConversation (mapping : Dict (Dict Json)) (conversation : Dict Json)
    (ids : List String) : Prop where
  parentFirst : ∀ child parent, parentOf mapping child = some parent →
    ids.idxOf parent < ids.idxOf child
  pathFirst : ∀ onPath offPath, OnCurrentPath mapping conversation onPath →
    offPath ∈ nodeIds mapping → ¬ OnCurrentPath mapping conversation offPath →
      ids.idxOf onPath < ids.idxOf offPath

/-- Every node of the mapping comes once, in the order of the conversation where that
is well-formed. -/
def KeepsConversation (frames : Nat) (conversation : Dict Json) : Prop :=
  ∃ ids, orderedIds (conversationMapping conversation) frames conversation = some ids ∧
    orderedChatgptNodes frames conversation =
      some (ids.filterMap (conversationMapping conversation).get?) ∧
    ids.Perm (nodeIds (conversationMapping conversation)) ∧
    (Acyclic (parentOf (conversationMapping conversation)) →
      ChildrenConsistent (conversationMapping conversation) →
        FollowsConversation (conversationMapping conversation) conversation ids)

/-- There is no current node, or its path starts at the first root of the mapping. -/
def FirstRootOnPath (conversation : Dict Json) : Prop :=
  ∀ current, currentNode (conversationMapping conversation) conversation = some current →
    ∀ root, (conversationRoots (conversationMapping conversation)).head? = some root →
      OnCurrentPath (conversationMapping conversation) conversation root

/-! ### The mapping -/

theorem keys_set {β : Type*} (d : Dict β) (key : String) (value : β) :
    (d.set key value).map Prod.fst =
      if key ∈ d.map Prod.fst then d.map Prod.fst else d.map Prod.fst ++ [key] := by
  induction d with
  | nil => rfl
  | cons item d ih =>
    obtain ⟨k, v⟩ := item
    rw [Dict.set]
    by_cases hk : k = key
    · rw [if_pos hk, if_pos (by rw [List.map_cons, hk]; exact List.mem_cons_self ..)]
      rfl
    · rw [if_neg hk, List.map_cons, ih, List.map_cons]
      have hiff : key ∈ k :: d.map Prod.fst ↔ key ∈ d.map Prod.fst :=
        List.mem_cons.trans (or_iff_right (Ne.symm hk))
      simp only [hiff]
      split <;> rfl

theorem nodup_keys_update {β : Type*} {d : Dict β} (patch : Dict β)
    (h : (d.map Prod.fst).Nodup) : ((d.update patch).map Prod.fst).Nodup := by
  induction patch generalizing d with
  | nil => exact h
  | cons item patch ih =>
    rw [Dict.update_cons]
    refine ih ?_
    rw [keys_set]
    split
    · exact h
    · rename_i hnew
      refine List.nodup_append.mpr ⟨h, List.nodup_singleton _, fun a ha b hb => ?_⟩
      rw [List.mem_singleton.mp hb]
      rintro rfl
      exact hnew ha

theorem filterMap_get?_keys {β : Type*} {d : Dict β} (h : (d.map Prod.fst).Nodup) :
    (d.map Prod.fst).filterMap d.get? = d.map Prod.snd := by
  rw [List.filterMap_map, ← List.filterMap_eq_map]
  refine List.filterMap_congr fun item hitem => ?_
  exact Dict.get?_of_mem h hitem

/-- A dictionary has every key once. -/
theorem nodup_nodeIds (conversation : Dict Json) :
    (nodeIds (conversationMapping conversation)).Nodup := by
  unfold conversationMapping nodeIds
  split
  · exact nodup_keys_update _ List.nodup_nil
  · exact List.nodup_nil

section Links

variable {mapping : Dict (Dict Json)} {conversation : Dict Json}

theorem mem_nodeIds_of_parentOf {child parent : String} (h : parentOf mapping child = some parent) :
    child ∈ nodeIds mapping ∧ parent ∈ nodeIds mapping := by
  obtain ⟨hread, hparent⟩ := Option.filter_eq_some_iff.mp h
  refine ⟨Dict.has_iff.mp ?_, Dict.has_iff.mp hparent⟩
  obtain ⟨node, hnode, _⟩ := Option.bind_eq_some_iff.mp hread
  rw [Dict.has, hnode]
  rfl

theorem mem_derivedChildren {nodeId child : String} :
    child ∈ derivedChildren mapping nodeId ↔ parentOf mapping child = some nodeId := by
  rw [derivedChildren, List.mem_filter, beq_iff_eq]
  exact and_iff_right_of_imp fun h => (mem_nodeIds_of_parentOf h).1

theorem mem_nodeIds_of_explicit {nodeId child : String} {ordered : List String}
    (h : explicitChildren mapping nodeId = some ordered) (hchild : child ∈ ordered) :
    child ∈ nodeIds mapping := by
  unfold explicitChildren at h
  split at h
  · obtain rfl := Option.some.inj h
    exact Dict.has_iff.mp (List.mem_filter.mp hchild).2
  · exact nomatch h

theorem mem_childrenByParent {nodeId child : String} :
    child ∈ childrenByParent mapping nodeId ↔
      (∃ ordered, explicitChildren mapping nodeId = some ordered ∧ child ∈ ordered) ∨
        parentOf mapping child = some nodeId := by
  unfold childrenByParent
  cases hexplicit : explicitChildren mapping nodeId with
  | none => simp [mem_derivedChildren]
  | some ordered => simp [mem_fromkeys, mem_derivedChildren]

/-- The walk leads to the children, whatever their order. -/
theorem mem_visitedChildren {nodeId child : String} :
    child ∈ visitedChildren mapping conversation nodeId ↔
      child ∈ childrenByParent mapping nodeId := by
  unfold visitedChildren
  dsimp only
  split
  · rename_i preferred _
    split
    · rename_i hmem
      simp only [List.mem_cons, List.mem_filter, decide_eq_true_eq]
      by_cases heq : child = preferred
      · simp [heq, hmem]
      · simp [heq]
    · exact Iff.rfl
  · exact Iff.rfl

theorem visitedChildren_closed : ∀ nodeId ∈ nodeIds mapping,
    ∀ child ∈ visitedChildren mapping conversation nodeId, child ∈ nodeIds mapping := by
  intro nodeId _ child hchild
  rw [mem_visitedChildren, mem_childrenByParent] at hchild
  rcases hchild with ⟨ordered, hordered, hmem⟩ | hparent
  · exact mem_nodeIds_of_explicit hordered hmem
  · exact (mem_nodeIds_of_parentOf hparent).1

/-- In a consistent mapping the walk goes from parents to their children only. -/
theorem parentOf_of_visited (hconsistent : ChildrenConsistent mapping) {nodeId child : String}
    (h : child ∈ visitedChildren mapping conversation nodeId) :
    parentOf mapping child = some nodeId := by
  rw [mem_visitedChildren, mem_childrenByParent] at h
  rcases h with ⟨ordered, hordered, hmem⟩ | hparent
  · exact hconsistent nodeId ordered hordered child hmem
  · exact hparent

theorem visited_of_parentOf {nodeId child : String} (h : parentOf mapping child = some nodeId) :
    child ∈ visitedChildren mapping conversation nodeId :=
  mem_visitedChildren.mpr (mem_childrenByParent.mpr (Or.inr h))

theorem mem_conversationRoots {nodeId : String} :
    nodeId ∈ conversationRoots mapping ↔
      nodeId ∈ nodeIds mapping ∧ parentOf mapping nodeId = none := by
  rw [conversationRoots, List.mem_filter, Option.isNone_iff_eq_none]

/-! ### Every node once -/

/-- The order has every node once. -/
theorem orderedIds_perm (hnodup : (nodeIds mapping).Nodup) {frames : Nat}
    {ids : List String} (h : orderedIds mapping frames conversation = some ids) :
    ids.Perm (nodeIds mapping) := by
  obtain ⟨visited, hfirst, hsecond⟩ := Option.bind_eq_some_iff.mp h
  have hroots : Within (nodeIds mapping) visited :=
    visitAll_within visitedChildren_closed (fun root hroot => (mem_conversationRoots.mp hroot).1)
      ⟨List.nodup_nil, List.nil_subset _⟩ hfirst
  have hids := visitAll_within visitedChildren_closed (fun _ hnode => hnode) hroots hsecond
  exact (List.perm_ext_iff_of_nodup hids.nodup hnodup).mpr fun nodeId =>
    ⟨fun hmem => hids.subset hmem, fun hmem => mem_visitAll hsecond nodeId hmem⟩

/-- With a frame more than there are nodes the walk ends. -/
theorem exists_orderedIds {frames : Nat} (hframes : mapping.length < frames) :
    ∃ ids, orderedIds mapping frames conversation = some ids := by
  have hlength : (nodeIds mapping).length = mapping.length := List.length_map ..
  have hvisit : ∀ starts, (∀ start ∈ starts, start ∈ nodeIds mapping) → ∀ seen,
      Within (nodeIds mapping) seen → ∃ result,
        visitAll (visitedChildren mapping conversation) frames seen starts = some result ∧
          Within (nodeIds mapping) result := by
    intro starts hstarts seen hseen
    refine exists_visitAll (fun s node hnode hs hf => ?_) hseen (by omega)
    exact exists_visit visitedChildren_closed (hstarts node hnode) hs hf
  obtain ⟨visited, hfirst, hvisited⟩ := hvisit (conversationRoots mapping)
    (fun start h => (mem_conversationRoots.mp h).1) [] ⟨List.nodup_nil, List.nil_subset _⟩
  obtain ⟨ids, hsecond, _⟩ := hvisit (nodeIds mapping) (fun _ h => h) visited hvisited
  refine ⟨ids, ?_⟩
  rw [orderedIds, hfirst]
  exact hsecond

/-! ### Parents first -/

/-- Without cycles every node is reached from a root, so the second pass adds nothing. -/
theorem orderedIds_eq_roots (hacyclic : Acyclic (parentOf mapping)) {frames : Nat}
    {ids : List String} (h : orderedIds mapping frames conversation = some ids) :
    visitAll (visitedChildren mapping conversation) frames [] (conversationRoots mapping) =
      some ids := by
  obtain ⟨visited, hfirst, hsecond⟩ := Option.bind_eq_some_iff.mp h
  have hclosed := visitAll_closed hfirst fun x hx => absurd hx List.not_mem_nil
  have hall : ∀ nodeId ∈ nodeIds mapping, nodeId ∈ visited := by
    refine hacyclic.induction (fun a b hab => (mem_nodeIds_of_parentOf hab).2) ?_
    intro nodeId hnode ih
    cases hparent : parentOf mapping nodeId with
    | none => exact mem_visitAll hfirst nodeId (mem_conversationRoots.mpr ⟨hnode, hparent⟩)
    | some parent => exact hclosed parent (ih parent hparent) nodeId (visited_of_parentOf hparent)
  rw [visitAll_of_mem hall hsecond]
  exact hfirst

theorem orderedIds_parentFirst (hacyclic : Acyclic (parentOf mapping))
    (hconsistent : ChildrenConsistent mapping) {frames : Nat} {ids : List String}
    (h : orderedIds mapping frames conversation = some ids) :
    ParentFirst (parentOf mapping) ids := by
  refine visitAll_rule (P := ParentFirst (parentOf mapping)) ?_
    (fun x hx => absurd hx List.not_mem_nil) (orderedIds_eq_roots hacyclic h)
  intro seen result root hroot hseen hstep
  refine visit_parentFirst (fun x child hchild => parentOf_of_visited hconsistent hchild)
    (fun p hp => ?_) hseen hstep
  -- a root has no parent
  rw [(mem_conversationRoots.mp hroot).2] at hp
  exact nomatch hp

/-! ### The current path -/

theorem mem_nodeIds_of_onCurrentPath {nodeId : String}
    (h : OnCurrentPath mapping conversation nodeId) : nodeId ∈ nodeIds mapping := by
  obtain ⟨current, hcurrent, hreach⟩ := h
  obtain rfl | ⟨below, _, hfollows⟩ := ReflTransGen.cases_tail hreach
  · exact Dict.has_iff.mp (Option.filter_eq_some_iff.mp hcurrent).2
  · exact (mem_nodeIds_of_parentOf hfollows).2

/-- The loop walks up to the root, if no node is above itself. -/
theorem activeChainLoop_spec (hacyclic : Acyclic (parentOf mapping)) (chain : List String)
    (current : String) (hcurrent : current ∈ nodeIds mapping)
    (hnodup : (chain ++ [current]).Nodup)
    (hchain : (chain ++ [current]).IsChain (Follows (parentOf mapping))) :
    ∃ above, activeChainLoop mapping chain current = chain ++ current :: above ∧
      (chain ++ current :: above).Nodup ∧
      (chain ++ current :: above).IsChain (Follows (parentOf mapping)) ∧
      ∀ last, (chain ++ current :: above).getLast? = some last → parentOf mapping last = none := by
  fun_induction activeChainLoop mapping chain current with
  | case1 chain current h parent hread ih =>
    by_cases hparent : parent ∈ nodeIds mapping
    · have hfollows : parentOf mapping current = some parent :=
        Option.filter_eq_some_iff.mpr ⟨hread, Dict.has_iff.mpr hparent⟩
      -- a parent on the chain would be above itself
      have hnew : parent ∉ chain ++ [current] := by
        intro hmem
        have hpairs : (chain ++ [current]).Pairwise (TransGen (Follows (parentOf mapping))) :=
          List.isChain_iff_pairwise.mp (hchain.imp fun _ _ => .single)
        rcases List.mem_append.mp hmem with hold | hlast
        · have hup := (List.pairwise_append.mp hpairs).2.2 parent hold current
            (List.mem_singleton_self current)
          exact hacyclic parent (hup.tail hfollows)
        · rw [List.mem_singleton.mp hlast] at hfollows
          exact hacyclic current (.single hfollows)
      have hnodup' : (chain ++ [current] ++ [parent]).Nodup := by
        refine List.nodup_append.mpr ⟨hnodup, List.nodup_singleton _, fun a ha b hb => ?_⟩
        rw [List.mem_singleton.mp hb]
        rintro rfl
        exact hnew ha
      have hchain' : (chain ++ [current] ++ [parent]).IsChain (Follows (parentOf mapping)) := by
        refine List.isChain_append.mpr ⟨hchain, List.isChain_singleton _, fun a ha b hb => ?_⟩
        rw [List.getLast?_concat] at ha
        rw [← Option.some.inj ha, ← Option.some.inj hb]
        exact hfollows
      obtain ⟨above, hloop, hrest⟩ := ih hparent hnodup' hchain'
      refine ⟨parent :: above, ?_, ?_⟩
      · rw [hloop, List.append_assoc]
        rfl
      · rw [List.append_assoc] at hrest
        exact hrest
    · refine ⟨[], ?_, hnodup, hchain, fun last hlast => ?_⟩
      · rw [activeChainLoop, if_neg fun hboth => hparent hboth.1]
      · rw [List.getLast?_concat] at hlast
        obtain rfl := Option.some.inj hlast
        rw [parentOf, hread, Option.filter_some, if_neg (mt Dict.has_iff.mp hparent)]
  | case2 chain current h hread =>
    refine ⟨[], rfl, hnodup, hchain, fun last hlast => ?_⟩
    rw [List.getLast?_concat] at hlast
    obtain rfl := Option.some.inj hlast
    rw [parentOf, hread]
    rfl
  | case3 chain current h =>
    refine absurd ⟨hcurrent, fun hmem => ?_⟩ h
    exact (List.nodup_append.mp hnodup).2.2 current hmem current (List.mem_singleton_self _) rfl

/-- The active chain is the current path, from the root down. -/
theorem activeChain_spec (hacyclic : Acyclic (parentOf mapping)) {current : String}
    (hcurrent : currentNode mapping conversation = some current) :
    (activeChain mapping conversation).Nodup ∧
      (activeChain mapping conversation).IsChain (fun parent child =>
        parentOf mapping child = some parent) ∧
      (∀ root, (activeChain mapping conversation).head? = some root →
        parentOf mapping root = none) ∧
      ∀ nodeId, nodeId ∈ activeChain mapping conversation ↔
        OnCurrentPath mapping conversation nodeId := by
  have hmem : current ∈ nodeIds mapping :=
    Dict.has_iff.mp (Option.filter_eq_some_iff.mp hcurrent).2
  obtain ⟨above, hloop, hnodup, hchain, hend⟩ := activeChainLoop_spec hacyclic [] current hmem
    (List.nodup_singleton _) (List.isChain_singleton _)
  rw [List.nil_append] at hloop hnodup hchain hend
  -- the loop walks up from the current node, and its walk is reversed
  have hactive : activeChain mapping conversation = (current :: above).reverse := by
    rw [activeChain, hcurrent]
    exact congrArg List.reverse hloop
  rw [hactive]
  refine ⟨List.nodup_reverse.mpr hnodup, List.isChain_reverse.mpr hchain, fun root hroot => ?_,
    fun nodeId => ?_⟩
  · rw [List.head?_reverse] at hroot
    exact hend root hroot
  · rw [List.mem_reverse, mem_walk_iff hchain hend]
    constructor
    · exact fun h => ⟨current, hcurrent, h⟩
    · rintro ⟨other, hother, h⟩
      rw [hcurrent] at hother
      rw [Option.some.inj hother]
      exact h

/-- On the active chain the walk takes the next node first. -/
theorem head?_visitedChildren (hnodup : (activeChain mapping conversation).Nodup)
    (hchain : (activeChain mapping conversation).IsChain (fun parent child =>
      parentOf mapping child = some parent)) :
    (activeChain mapping conversation).IsChain fun parent child =>
      (visitedChildren mapping conversation parent).head? = some child := by
  rw [isChain_iff_forall_zip] at hchain ⊢
  intro pair hpair
  have hparent := hchain pair hpair
  have hget : Dict.get? ((activeChain mapping conversation).zip
      (activeChain mapping conversation).tail) pair.1 = some pair.2 :=
    Dict.get?_of_mem (nodup_zip_tail hnodup) hpair
  have hchild : pair.2 ∈ childrenByParent mapping pair.1 :=
    mem_childrenByParent.mpr (Or.inr hparent)
  simp only [visitedChildren, hget, if_pos hchild, List.head?_cons]

/-- The order starts with the first root. -/
theorem orderedIds_prefix_root (hacyclic : Acyclic (parentOf mapping)) {frames : Nat}
    {ids others : List String} {root : String}
    (h : orderedIds mapping frames conversation = some ids)
    (hroots : conversationRoots mapping = root :: others) : [root] <+: ids := by
  have hall := orderedIds_eq_roots hacyclic h
  rw [hroots, visitAll_cons] at hall
  obtain ⟨middle, hfirst, hrest⟩ := Option.bind_eq_some_iff.mp hall
  exact (visit_prefix_of_new List.not_mem_nil hfirst).trans (visitAll_extends hrest)

/-- Where the first root is on the current path, the order starts with that path. -/
theorem activeChain_front (hacyclic : Acyclic (parentOf mapping)) {frames : Nat}
    {ids : List String} (h : orderedIds mapping frames conversation = some ids)
    {current : String} (hcurrent : currentNode mapping conversation = some current)
    (hfirst : ∀ root, (conversationRoots mapping).head? = some root →
      OnCurrentPath mapping conversation root) :
    activeChain mapping conversation <+: ids := by
  obtain ⟨hnodup, hchain, hhead, hpath⟩ := activeChain_spec hacyclic hcurrent
  have hnext := head?_visitedChildren hnodup hchain
  have hall := orderedIds_eq_roots hacyclic h
  cases hactive : activeChain mapping conversation with
  | nil => exact List.nil_prefix
  | cons root rest =>
    rw [hactive] at hnodup hchain hnext hhead
    -- the path starts at a root, so there is a first root, and it is that one
    have hnone : parentOf mapping root = none := hhead root rfl
    have hmem : root ∈ conversationRoots mapping := by
      refine mem_conversationRoots.mpr ⟨?_, hnone⟩
      exact mem_nodeIds_of_onCurrentPath ((hpath root).mp (hactive ▸ List.mem_cons_self ..))
    obtain ⟨first, others, hroots⟩ := List.exists_cons_of_ne_nil (List.ne_nil_of_mem hmem)
    have hon := (hpath first).mpr (hfirst first (by rw [hroots]; rfl))
    rw [hactive] at hon
    have heq : first = root := by
      rcases List.mem_cons.mp hon with heq | hlater
      · exact heq
      · obtain ⟨parent, hparent⟩ := exists_before_of_isChain hchain hlater
        have hfirst : first ∈ conversationRoots mapping := hroots ▸ List.mem_cons_self ..
        rw [(mem_conversationRoots.mp hfirst).2] at hparent
        exact nomatch hparent
    rw [hroots, heq, visitAll_cons] at hall
    obtain ⟨middle, hvisit, hrest⟩ := Option.bind_eq_some_iff.mp hall
    exact (visit_chain hnext hnodup (fun _ _ => List.not_mem_nil) hvisit).trans
      (visitAll_extends hrest)

end Links

/-- The nodes of a prefix come before the others. -/
theorem idxOf_lt_of_front {front ids : List String} (h : front <+: ids) {a b : String}
    (ha : a ∈ front) (hb : b ∉ front) : ids.idxOf a < ids.idxOf b := by
  obtain ⟨rest, rfl⟩ := h
  rw [List.idxOf_append_of_mem ha, List.idxOf_append_of_notMem hb]
  exact (List.idxOf_lt_length_iff.mpr ha).trans_le (Nat.le_add_right _ _)

/-- Two roots: the current node is the second. -/
def twoRoots : Dict Json :=
  [("mapping", .obj [("a", .obj []), ("b", .obj [])]), ("current_node", .str "b")]

theorem twoRoots_get? {nodeId : String} {node : Dict Json}
    (h : (conversationMapping twoRoots).get? nodeId = some node) : node = [] := by
  have hmapping : conversationMapping twoRoots = [("a", []), ("b", [])] := by decide +kernel
  rw [hmapping, Dict.get?_cons, Dict.get?_cons] at h
  split at h
  · exact (Option.some.inj h).symm
  · split at h
    · exact (Option.some.inj h).symm
    · exact nomatch h

theorem twoRoots_parentOf (nodeId : String) :
    parentOf (conversationMapping twoRoots) nodeId = none := by
  unfold parentOf
  cases hnode : (conversationMapping twoRoots).get? nodeId with
  | none => rfl
  | some node =>
    rw [twoRoots_get? hnode]
    rfl

theorem twoRoots_consistent : ChildrenConsistent (conversationMapping twoRoots) := by
  intro nodeId ordered hordered
  unfold explicitChildren at hordered
  cases hnode : (conversationMapping twoRoots).get? nodeId with
  | none =>
    rw [hnode] at hordered
    exact nomatch hordered
  | some node =>
    rw [hnode, twoRoots_get? hnode] at hordered
    exact nomatch hordered

/-- A question with two answers, the second of which was gone on from: the first
answer stands before it in the mapping, and the current path leaves it aside. -/
def twoAnswers : Dict Json :=
  [("mapping", .obj [
      ("question", .obj [("children", .strs ["first", "second"])]),
      ("first", .obj [("parent", .str "question"), ("children", .strs [])]),
      ("second", .obj [("parent", .str "question"), ("children", .strs ["thanks"])]),
      ("thanks", .obj [("parent", .str "second")])]),
    ("current_node", .str "thanks")]

end AliceBot
