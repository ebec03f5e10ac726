import Mathlib.Data.Finset.Card
import Mathlib.Data.Finset.Union
import Mathlib.Logic.Relation

/-!
# Searching a finite graph for a cycle

A graph is a finite set of edges. `searchCycle` walks from a node and reports
whether it comes back to it; the nodes that are still to be left are kept as a
set, since nothing depends on their order.

`hasCycle_iff` says that the search over all nodes finds a cycle exactly where
there is one: every round leaves at least one node for the first time, so there
are no more rounds than edges.
-/

namespace PyLib

open Relation

variable {α : Type*} [DecidableEq α]

/-- The ends of the edges that leave some nodes. -/
def successors (edges : Finset (α × α)) (nodes : Finset α) : Finset α :=
  (edges.filter fun edge => edge.1 ∈ nodes).image Prod.snd

/-- The walk from one node, with the nodes seen and those still to be left. -/
def searchCycle (edges : Finset (α × α)) (start : α) : Nat → Finset α → Finset α → Bool
  | 0, _, _ => false
  | rounds + 1, seen, frontier =>
    if frontier = ∅ then false
    else if start ∈ successors edges frontier then true
    else searchCycle edges start rounds (seen ∪ successors edges frontier)
      (successors edges frontier \ seen)

/-- Some node is reached from itself. -/
def hasCycle (edges : Finset (α × α)) (nodes : Finset α) : Bool :=
  decide (∃ start ∈ nodes, searchCycle edges start (edges.card + 2) ∅ {start} = true)

/-- One edge. -/
def Edge (edges : Finset (α × α)) (a b : α) : Prop := (a, b) ∈ edges

theorem mem_successors {edges : Finset (α × α)} {nodes : Finset α} {b : α} :
    b ∈ successors edges nodes ↔ ∃ a ∈ nodes, Edge edges a b := by
  simp only [successors, Finset.mem_image, Finset.mem_filter, Edge]
  constructor
  · rintro ⟨⟨a, b⟩, ⟨hedge, ha⟩, rfl⟩
    exact ⟨a, ha, hedge⟩
  · rintro ⟨a, ha, hedge⟩
    exact ⟨(a, b), ⟨hedge, ha⟩, rfl⟩

/-- What the walk has come across was reached from the start, and what it left
leads to nothing new. -/
structure Searching (edges : Finset (α × α)) (start : α) (seen frontier : Finset α) : Prop where
  reached : ∀ node ∈ frontier, ReflTransGen (Edge edges) start node
  left : ∀ a b, a = start ∨ a ∈ seen → a ∉ frontier → Edge edges a b → b ∈ seen ∧ b ≠ start
  ends : seen ⊆ edges.image Prod.snd

namespace Searching

variable {edges : Finset (α × α)} {start : α} {seen frontier : Finset α}

theorem init : Searching edges start ∅ {start} where
  reached node hnode := by
    rw [Finset.mem_singleton.mp hnode]
  left a b ha hnot _ := by
    rcases ha with rfl | hmem
    · exact absurd (Finset.mem_singleton_self _) hnot
    · exact absurd hmem (Finset.notMem_empty a)
  ends := Finset.empty_subset _

/-- The next round. -/
theorem step (h : Searching edges start seen frontier)
    (hstart : start ∉ successors edges frontier) :
    Searching edges start (seen ∪ successors edges frontier)
      (successors edges frontier \ seen) where
  reached node hnode := by
    obtain ⟨a, ha, hedge⟩ := mem_successors.mp (Finset.mem_sdiff.mp hnode).1
    exact (h.reached a ha).tail hedge
  left a b ha hnot hedge := by
    -- `a` was left now or before
    by_cases hfrontier : a ∈ frontier
    · have hb : b ∈ successors edges frontier := mem_successors.mpr ⟨a, hfrontier, hedge⟩
      exact ⟨Finset.mem_union_right _ hb, fun heq => hstart (heq ▸ hb)⟩
    · have hold : a = start ∨ a ∈ seen := by
        rcases ha with rfl | hmem
        · exact .inl rfl
        · rcases Finset.mem_union.mp hmem with hseen | hnext
          · exact .inr hseen
          · by_contra hnew
            exact hnot (Finset.mem_sdiff.mpr ⟨hnext, fun hseen => hnew (.inr hseen)⟩)
      obtain ⟨hb, hne⟩ := h.left a b hold hfrontier hedge
      exact ⟨Finset.mem_union_left _ hb, hne⟩
  ends := by
    refine Finset.union_subset h.ends fun node hnode => ?_
    obtain ⟨a, -, hedge⟩ := mem_successors.mp hnode
    exact Finset.mem_image.mpr ⟨(a, node), hedge, rfl⟩

/-- A walk that has nothing left to leave did not come back. -/
theorem no_cycle (h : Searching edges start seen ∅) : ¬ TransGen (Edge edges) start start := by
  intro hcycle
  have hclosed : ∀ node, TransGen (Edge edges) start node → node ∈ seen ∧ node ≠ start := by
    intro node hreach
    induction hreach with
    | single hedge => exact h.left start _ (.inl rfl) (Finset.notMem_empty _) hedge
    | tail _ hedge ih => exact h.left _ _ (.inr ih.1) (Finset.notMem_empty _) hedge
  exact (hclosed start hcycle).2 rfl

/-- With rounds for the nodes not yet seen, the walk answers. -/
theorem search_iff {rounds : Nat} (h : Searching edges start seen frontier)
    (hrounds : (edges.image Prod.snd \ seen).card + 1 < rounds) :
    searchCycle edges start rounds seen frontier = true ↔ TransGen (Edge edges) start start := by
  induction rounds generalizing seen frontier with
  | zero => omega
  | succ rounds ih =>
    rw [searchCycle]
    split
    · next hempty =>
      subst hempty
      simp [h.no_cycle]
    · split
      · next hback =>
        obtain ⟨a, ha, hedge⟩ := mem_successors.mp hback
        exact iff_of_true rfl (.tail' (h.reached a ha) hedge)
      · next hback =>
        have hstep := h.step hback
        by_cases hnothing : successors edges frontier \ seen = ∅
        · -- the last round only finds that there is nothing left
          rw [hnothing] at hstep ⊢
          obtain ⟨rounds, rfl⟩ : ∃ n, rounds = n + 1 := ⟨rounds - 1, by omega⟩
          simp [searchCycle, hstep.no_cycle]
        · -- a node was seen for the first time
          refine ih hstep ?_
          obtain ⟨node, hnode⟩ := Finset.nonempty_iff_ne_empty.mpr hnothing
          obtain ⟨hnext, hfresh⟩ := Finset.mem_sdiff.mp hnode
          have hmem : node ∈ edges.image Prod.snd \ seen :=
            Finset.mem_sdiff.mpr ⟨hstep.ends (Finset.mem_union_right _ hnext), hfresh⟩
          have hless : (edges.image Prod.snd \ (seen ∪ successors edges frontier)).card <
              (edges.image Prod.snd \ seen).card := by
            refine Finset.card_lt_card (Finset.ssubset_iff_of_subset ?_ |>.mpr ⟨node, hmem, ?_⟩)
            · exact Finset.sdiff_subset_sdiff (Finset.Subset.refl _) Finset.subset_union_left
            · exact fun hin => (Finset.mem_sdiff.mp hin).2 (Finset.mem_union_right _ hnext)
          omega

end Searching

/-- The search finds a cycle exactly where there is one. -/
theorem hasCycle_iff {edges : Finset (α × α)} {nodes : Finset α} :
    hasCycle edges nodes = true ↔ ∃ start ∈ nodes, TransGen (Edge edges) start start := by
  have hcard : (edges.image Prod.snd \ ∅).card ≤ edges.card := by
    rw [Finset.sdiff_empty]
    exact Finset.card_image_le
  rw [hasCycle, decide_eq_true_iff]
  exact exists_congr fun start => and_congr_right fun _ =>
    Searching.init.search_iff (by omega)

end PyLib
