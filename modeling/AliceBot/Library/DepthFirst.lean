import AliceBot.Library.PointerGraph
import Mathlib.Data.List.Nodup
import Mathlib.Data.List.Perm.Subperm

/-!
# Depth-first walks

`visit` walks from a node, with the nodes it has come across so far in their
order, and `visitAll` does so from one node after the other. The frames are those a
recursive call may still take; `none` means that they ran out.

* `visit_extends` — a walk only adds to what was seen, and the node is there after it;
* `visit_invariant` — what every new node keeps is kept by the walk;
* `visit_closed` — a walk leaves no successor of a new node behind;
* `exists_visit` — a walk within some nodes needs no more frames than there are nodes;
* `visit_chain` — a walk goes down its first successors before anything else.
-/

namespace PyLib

variable {α : Type*} [DecidableEq α] (next : α → List α)

/-- Fewer nodes are left to be seen. -/
theorem length_filter_notMem_concat_lt {nodes seen : List α} {node : α} (hnode : node ∈ nodes)
    (hnew : node ∉ seen) :
    (nodes.filter (· ∉ seen ++ [node])).length < (nodes.filter (· ∉ seen)).length := by
  have hfilter : nodes.filter (· ∉ seen ++ [node]) =
      (nodes.filter (· ∉ seen)).filter (· ≠ node) := by
    rw [List.filter_filter]
    refine List.filter_congr fun x _ => ?_
    simp only [List.mem_append, List.mem_singleton, not_or, Bool.decide_and, Bool.and_comm, ne_eq]
  rw [hfilter, List.length_filter_lt_length_iff_exists]
  exact ⟨node, List.mem_filter.mpr ⟨hnode, decide_eq_true hnew⟩, by simp⟩

/-- The walk from one node. -/
def visit : Nat → List α → α → Option (List α)
  | 0, _, _ => none
  | frames + 1, seen, node =>
    if node ∈ seen then some seen
    else (next node).foldlM (fun seen child => visit frames seen child) (seen ++ [node])

/-- The walks from some nodes in turn. -/
def visitAll (frames : Nat) (seen nodes : List α) : Option (List α) :=
  nodes.foldlM (fun seen node => visit next frames seen node) seen

variable {next} {frames : Nat} {seen result : List α} {node : α}

/-- A walk that returns had seen the node, or added it and walked on. -/
theorem visit_cases (h : visit next frames seen node = some result) :
    (node ∈ seen ∧ result = seen) ∨
      ∃ rest, frames = rest + 1 ∧ node ∉ seen ∧
        visitAll next rest (seen ++ [node]) (next node) = some result := by
  cases frames with
  | zero => exact nomatch h
  | succ rest =>
    rw [visit] at h
    split at h
    · rename_i hmem
      exact Or.inl ⟨hmem, (Option.some.inj h).symm⟩
    · rename_i hnew
      exact Or.inr ⟨rest, rfl, hnew, h⟩

@[simp] theorem visitAll_nil : visitAll next frames seen [] = some seen := rfl

theorem visitAll_cons {nodes : List α} :
    visitAll next frames seen (node :: nodes) =
      (visit next frames seen node).bind fun seen => visitAll next frames seen nodes := rfl

/-- What one walk keeps, walks in turn keep. -/
theorem visitAll_rule {P : List α → Prop} {nodes : List α}
    (hstep : ∀ seen result, ∀ node ∈ nodes, P seen → visit next frames seen node = some result →
      P result)
    (hseen : P seen) (h : visitAll next frames seen nodes = some result) : P result := by
  induction nodes generalizing seen with
  | nil =>
    obtain rfl := Option.some.inj h
    exact hseen
  | cons node nodes ih =>
    rw [visitAll_cons] at h
    obtain ⟨middle, hfirst, hrest⟩ := Option.bind_eq_some_iff.mp h
    have hmiddle := hstep seen middle node (List.mem_cons_self ..) hseen hfirst
    exact ih (fun s r n hn => hstep s r n (List.mem_cons_of_mem _ hn)) hmiddle hrest

/-- A walk adds to what was seen. -/
theorem visit_extends (h : visit next frames seen node = some result) : seen <+: result := by
  induction frames generalizing seen node result with
  | zero => exact nomatch h
  | succ frames ih =>
    obtain ⟨_, rfl⟩ | ⟨rest, hframes, _, hall⟩ := visit_cases h
    · exact List.prefix_rfl
    · obtain rfl := Nat.succ.inj hframes
      have hfront : seen ++ [node] <+: result :=
        visitAll_rule (fun _ _ _ _ hsofar hstep => hsofar.trans (ih hstep)) List.prefix_rfl hall
      exact (List.prefix_append seen [node]).trans hfront

theorem visitAll_extends {nodes : List α} (h : visitAll next frames seen nodes = some result) :
    seen <+: result :=
  visitAll_rule (fun _ _ _ _ hsofar hstep => hsofar.trans (visit_extends hstep)) List.prefix_rfl h

/-- A walk from a new node starts with it. -/
theorem visit_prefix_of_new (hnew : node ∉ seen) (h : visit next frames seen node = some result) :
    seen ++ [node] <+: result := by
  obtain ⟨hmem, _⟩ | ⟨rest, _, _, hall⟩ := visit_cases h
  · exact absurd hmem hnew
  · exact visitAll_extends hall

theorem mem_visit (h : visit next frames seen node = some result) : node ∈ result := by
  by_cases hmem : node ∈ seen
  · exact (visit_extends h).subset hmem
  · exact (visit_prefix_of_new hmem h).subset (List.mem_append_right _ (List.mem_singleton_self _))

theorem mem_visitAll {nodes : List α} (h : visitAll next frames seen nodes = some result) :
    ∀ node ∈ nodes, node ∈ result := by
  induction nodes generalizing seen with
  | nil => exact fun _ hmem => absurd hmem List.not_mem_nil
  | cons first nodes ih =>
    rw [visitAll_cons] at h
    obtain ⟨middle, hfirst, hrest⟩ := Option.bind_eq_some_iff.mp h
    exact List.forall_mem_cons.mpr ⟨(visitAll_extends hrest).subset (mem_visit hfirst), ih hrest⟩

/-- What a new node keeps, if it is ready when the walk comes to it, the walk keeps. -/
theorem visit_invariant {Inv : List α → Prop} {Ready : List α → α → Prop}
    (hmono : ∀ seen seen' node, seen <+: seen' → Ready seen node → Ready seen' node)
    (hadd : ∀ seen node, Inv seen → node ∉ seen → Ready seen node → Inv (seen ++ [node]))
    (hnext : ∀ seen node, node ∈ seen → ∀ child ∈ next node, Ready seen node → Ready seen child)
    (hinv : Inv seen) (hready : Ready seen node)
    (h : visit next frames seen node = some result) : Inv result := by
  induction frames generalizing seen node result with
  | zero => exact nomatch h
  | succ frames ih =>
    obtain ⟨_, rfl⟩ | ⟨rest, hframes, hnew, hall⟩ := visit_cases h
    · exact hinv
    · obtain rfl := Nat.succ.inj hframes
      have hmem : node ∈ seen ++ [node] := List.mem_append_right _ (List.mem_singleton_self _)
      have hready' := hmono _ _ _ (List.prefix_append seen [node]) hready
      -- the node is entered before its children, and each of them is ready when it comes
      have hkeeps : seen ++ [node] <+: result ∧ Inv result := by
        refine visitAll_rule (P := fun s => seen ++ [node] <+: s ∧ Inv s) ?_
          ⟨List.prefix_rfl, hadd seen node hinv hnew hready⟩ hall
        rintro s r child hchild ⟨hfront, hs⟩ hstep
        have hchildren := hnext s node (hfront.subset hmem) child hchild
          (hmono _ _ _ hfront hready')
        exact ⟨hfront.trans (visit_extends hstep), ih hs hchildren hstep⟩
      exact hkeeps.2

/-- A walk leaves no successor of a new node behind. -/
theorem visit_closed (h : visit next frames seen node = some result) :
    ∀ x ∈ result, x ∉ seen → ∀ child ∈ next x, child ∈ result := by
  induction frames generalizing seen node result with
  | zero => exact nomatch h
  | succ frames ih =>
    obtain ⟨_, rfl⟩ | ⟨rest, hframes, _, hall⟩ := visit_cases h
    · exact fun x hx hnot => absurd hx hnot
    · obtain rfl := Nat.succ.inj hframes
      have hkeeps : ∀ x ∈ result, x ∉ seen ++ [node] → ∀ child ∈ next x, child ∈ result := by
        refine visitAll_rule
          (P := fun s => ∀ x ∈ s, x ∉ seen ++ [node] → ∀ child ∈ next x, child ∈ s) ?_
          (fun x hx hnot => absurd hx hnot) hall
        intro s r first _ hs hstep x hx hnot child hchild
        by_cases hold : x ∈ s
        · exact (visit_extends hstep).subset (hs x hold hnot child hchild)
        · exact ih hstep x hx hold child hchild
      intro x hx hnot
      by_cases hnode : x = node
      · rw [hnode]
        exact mem_visitAll hall
      · refine hkeeps x hx fun hmem => ?_
        rcases List.mem_append.mp hmem with hseen | hlast
        · exact hnot hseen
        · exact hnode (List.mem_singleton.mp hlast)

theorem visitAll_closed {nodes : List α} (h : visitAll next frames seen nodes = some result)
    (hseen : ∀ x ∈ seen, ∀ child ∈ next x, child ∈ seen) :
    ∀ x ∈ result, ∀ child ∈ next x, child ∈ result := by
  refine visitAll_rule (P := fun s => ∀ x ∈ s, ∀ child ∈ next x, child ∈ s) ?_ hseen h
  intro s r node _ hs hstep x hx child hchild
  by_cases hold : x ∈ s
  · exact (visit_extends hstep).subset (hs x hold child hchild)
  · exact visit_closed hstep x hx hold child hchild

/-! ### Enough frames -/

/-- Nodes seen once each, within some nodes. -/
structure Within (nodes seen : List α) : Prop where
  nodup : seen.Nodup
  subset : seen ⊆ nodes

omit [DecidableEq α] in
theorem Within.length_le {nodes : List α} (h : Within nodes seen) : seen.length ≤ nodes.length :=
  (List.subperm_of_subset h.nodup h.subset).length_le

omit [DecidableEq α] in
theorem Within.concat {nodes : List α} (h : Within nodes seen) (hnew : node ∉ seen)
    (hnode : node ∈ nodes) : Within nodes (seen ++ [node]) where
  nodup := by
    refine List.nodup_append.mpr ⟨h.nodup, List.nodup_singleton node, fun a ha b hb => ?_⟩
    rw [List.mem_singleton.mp hb]
    rintro rfl
    exact hnew ha
  subset := List.append_subset.mpr ⟨h.subset, fun x hx => by
    rw [List.mem_singleton.mp hx]
    exact hnode⟩

/-- A walk within some nodes sees each of them once. -/
theorem visit_within {nodes : List α} (hclosed : ∀ x ∈ nodes, ∀ child ∈ next x, child ∈ nodes)
    (hnode : node ∈ nodes) (hwithin : Within nodes seen)
    (h : visit next frames seen node = some result) : Within nodes result :=
  visit_invariant (fun _ _ _ _ hready => hready)
    (fun _ _ hseen hnew hready => hseen.concat hnew hready)
    (fun _ x _ child hchild hready => hclosed x hready child hchild) hwithin hnode h

theorem visitAll_within {nodes starts : List α}
    (hclosed : ∀ x ∈ nodes, ∀ child ∈ next x, child ∈ nodes) (hstarts : ∀ x ∈ starts, x ∈ nodes)
    (hwithin : Within nodes seen) (h : visitAll next frames seen starts = some result) :
    Within nodes result :=
  visitAll_rule (fun _ _ start hstart hseen hstep =>
    visit_within hclosed (hstarts start hstart) hseen hstep) hwithin h

/-- Walks in turn, if every single one has enough frames. -/
theorem exists_visitAll {nodes starts : List α}
    (hvisit : ∀ seen, ∀ node ∈ starts, Within nodes seen → nodes.length < seen.length + frames →
      ∃ result, visit next frames seen node = some result ∧ Within nodes result)
    (hwithin : Within nodes seen) (hframes : nodes.length < seen.length + frames) :
    ∃ result, visitAll next frames seen starts = some result ∧ Within nodes result := by
  induction starts generalizing seen with
  | nil => exact ⟨seen, rfl, hwithin⟩
  | cons node starts ih =>
    obtain ⟨middle, hmiddle, hwithin'⟩ :=
      hvisit seen node (List.mem_cons_self ..) hwithin hframes
    have hlength := (visit_extends hmiddle).length_le
    obtain ⟨result, hresult, hkept⟩ := ih
      (fun s n hn => hvisit s n (List.mem_cons_of_mem _ hn)) hwithin' (by omega)
    refine ⟨result, ?_, hkept⟩
    rw [visitAll_cons, hmiddle]
    exact hresult

/-- Every level of a walk sees a node more, so there are no more levels than nodes. -/
theorem exists_visit {nodes : List α} (hclosed : ∀ x ∈ nodes, ∀ child ∈ next x, child ∈ nodes)
    (hnode : node ∈ nodes) (hwithin : Within nodes seen)
    (hframes : nodes.length < seen.length + frames) :
    ∃ result, visit next frames seen node = some result ∧ Within nodes result := by
  induction frames generalizing seen node with
  | zero => exact absurd hframes (Nat.not_lt.mpr hwithin.length_le)
  | succ frames ih =>
    rw [visit]
    by_cases hmem : node ∈ seen
    · rw [if_pos hmem]
      exact ⟨seen, rfl, hwithin⟩
    · rw [if_neg hmem]
      refine exists_visitAll (fun s child hchild hs hf => ?_) (hwithin.concat hmem hnode) ?_
      · exact ih (hclosed node hnode child hchild) hs hf
      · rw [List.length_append, List.length_singleton]
        omega

/-! ### First successors -/

/-- A walk goes down its first successors before anything else. -/
theorem visit_chain {chain : List α}
    (hchain : (node :: chain).IsChain fun a b => (next a).head? = some b)
    (hnodup : (node :: chain).Nodup) (hnew : ∀ x ∈ node :: chain, x ∉ seen)
    (h : visit next frames seen node = some result) : seen ++ node :: chain <+: result := by
  induction chain generalizing node seen frames result with
  | nil => exact visit_prefix_of_new (hnew node (List.mem_cons_self ..)) h
  | cons second chain ih =>
    obtain ⟨hmem, _⟩ | ⟨rest, _, _, hall⟩ := visit_cases h
    · exact absurd hmem (hnew node (List.mem_cons_self ..))
    · obtain ⟨hfirst, hchain⟩ := List.isChain_cons_cons.mp hchain
      obtain ⟨others, hothers⟩ := List.head?_eq_some_iff.mp hfirst
      obtain ⟨hnode, hnodup⟩ := List.nodup_cons.mp hnodup
      rw [hothers, visitAll_cons] at hall
      obtain ⟨middle, hmiddle, hrest⟩ := Option.bind_eq_some_iff.mp hall
      -- the nodes further down are still new
      have hnew' : ∀ x ∈ second :: chain, x ∉ seen ++ [node] := by
        intro x hx hmem
        rcases List.mem_append.mp hmem with hseen | hlast
        · exact hnew x (List.mem_cons_of_mem _ hx) hseen
        · rw [List.mem_singleton.mp hlast] at hx
          exact hnode hx
      have hfront := (ih hchain hnodup hnew' hmiddle).trans (visitAll_extends hrest)
      rwa [List.append_assoc] at hfront

/-! ### Walks down a tree -/

/-- Nodes that come with their parents, and behind them. -/
def ParentFirst (parent : α → Option α) (seen : List α) : Prop :=
  ∀ child ∈ seen, ∀ p, parent child = some p → p ∈ seen ∧ seen.idxOf p < seen.idxOf child

theorem ParentFirst.concat {parent : α → Option α} (h : ParentFirst parent seen)
    (hnew : node ∉ seen) (hparent : ∀ p, parent node = some p → p ∈ seen) :
    ParentFirst parent (seen ++ [node]) := by
  intro child hchild p hp
  rcases List.mem_append.mp hchild with hold | hlast
  · obtain ⟨hmem, hlt⟩ := h child hold p hp
    refine ⟨List.mem_append_left _ hmem, ?_⟩
    rw [List.idxOf_append_of_mem hmem, List.idxOf_append_of_mem hold]
    exact hlt
  · rw [List.mem_singleton.mp hlast] at hp ⊢
    have hmem := hparent p hp
    refine ⟨List.mem_append_left _ hmem, ?_⟩
    rw [List.idxOf_append_of_mem hmem, List.idxOf_append_of_notMem hnew]
    exact (List.idxOf_lt_length_iff.mpr hmem).trans_le (Nat.le_add_right _ _)

/-- Where successors are children of the node, parents come first. -/
theorem visit_parentFirst {parent : α → Option α}
    (hnext : ∀ x, ∀ child ∈ next x, parent child = some x)
    (hparent : ∀ p, parent node = some p → p ∈ seen) (hseen : ParentFirst parent seen)
    (h : visit next frames seen node = some result) : ParentFirst parent result := by
  refine visit_invariant (fun s s' x hfront hready p hp => ?_)
    (fun s x hs hnew hready => hs.concat hnew hready)
    (fun s x hx child hchild _ p hp => ?_) hseen hparent h
  · exact hfront.subset (hready p hp)
  · obtain rfl : x = p := Option.some.inj ((hnext x child hchild).symm.trans hp)
    exact hx

/-- Nodes that were all seen add nothing. -/
theorem visitAll_of_mem {nodes : List α} (hnodes : ∀ x ∈ nodes, x ∈ seen)
    (h : visitAll next frames seen nodes = some result) : result = seen := by
  refine visitAll_rule (P := fun s => s = seen) ?_ rfl h
  rintro s r x hx rfl hstep
  obtain ⟨_, hsame⟩ | ⟨_, _, hnew, _⟩ := visit_cases hstep
  · exact hsame
  · exact absurd (hnodes x hx) hnew

/-! ### Neighbours in a list -/

omit [DecidableEq α] in
theorem isChain_iff_forall_zip {R : α → α → Prop} {l : List α} :
    l.IsChain R ↔ ∀ pair ∈ l.zip l.tail, R pair.1 pair.2 := by
  induction l with
  | nil => simp
  | cons a l ih =>
    cases l with
    | nil => simp
    | cons b l =>
      simp only [List.isChain_cons_cons, ih, List.tail_cons, List.zip_cons_cons,
        List.forall_mem_cons]

omit [DecidableEq α] in
/-- Every node of a chain but the first follows another. -/
theorem exists_before_of_isChain {R : α → α → Prop} {first x : α} {l : List α}
    (h : (first :: l).IsChain R) (hx : x ∈ l) : ∃ a, R a x := by
  induction l generalizing first with
  | nil => exact absurd hx List.not_mem_nil
  | cons second l ih =>
    obtain ⟨hfirst, hrest⟩ := List.isChain_cons_cons.mp h
    rcases List.mem_cons.mp hx with rfl | hx
    · exact ⟨first, hfirst⟩
    · exact ih hrest hx

omit [DecidableEq α] in
/-- A node is in front of one other only, if the list has no repetition. -/
theorem nodup_zip_tail {l : List α} (h : l.Nodup) : ((l.zip l.tail).map Prod.fst).Nodup := by
  refine h.sublist ?_
  induction l with
  | nil => exact List.Sublist.refl _
  | cons a l ih =>
    cases l with
    | nil => exact List.nil_sublist _
    | cons b l =>
      rw [List.tail_cons, List.zip_cons_cons, List.map_cons]
      exact (ih (List.nodup_cons.mp h).2).cons_cons a

end PyLib
