import Mathlib.Data.Fintype.Card
import Mathlib.Data.Set.Finite.Basic
import Mathlib.Logic.Relation

/-!
# Graphs of single pointers

Every node points to at most one other: `next : α → Option α`. The graph is
acyclic when no walk along pointers returns to a node it left. Setting the
pointer of one node keeps the graph acyclic when the new target is another
node and points nowhere itself.
-/

namespace PyLib

open Relation

variable {α : Type*}

/-- One pointer followed. -/
def Follows (next : α → Option α) (a b : α) : Prop := next a = some b

/-- No walk returns to where it started. -/
def Acyclic (next : α → Option α) : Prop := ∀ a, ¬ TransGen (Follows next) a a

namespace Acyclic

variable {next next' : α → Option α}

/-- A graph without pointers. -/
theorem of_none (h : ∀ a, next a = none) : Acyclic next := by
  intro a hcycle
  obtain ⟨b, hfollows, -⟩ := TransGen.head'_iff.mp hcycle
  rw [Follows, h a] at hfollows
  exact absurd hfollows (by simp)

/-- Dropping pointers. -/
theorem of_subset (hnext : Acyclic next) (h : ∀ a b, next' a = some b → next a = some b) :
    Acyclic next' :=
  fun a hcycle => hnext a (TransGen.mono (fun x y hxy => h x y hxy) a a hcycle)

/-- A walk in the changed graph whose end still points somewhere never took the
new pointer, since that one ends in a node without one. -/
theorem walk_of_new {a b : α} (hsink : next' b = none)
    (h : ∀ x y, next' x = some y → next x = some y ∨ (x = a ∧ y = b)) {x y z : α}
    (hwalk : TransGen (Follows next') x y) (hy : next' y = some z) :
    TransGen (Follows next) x y := by
  have hold : ∀ {u v w : α}, next' u = some v → next' v = some w → next u = some v := by
    intro u v w huv hvw
    rcases h u v huv with hnext | ⟨-, rfl⟩
    · exact hnext
    · rw [hsink] at hvw
      exact absurd hvw (by simp)
  induction hwalk generalizing z with
  | single hxy => exact .single (hold hxy hy)
  | tail _ hmy ih => exact .tail (ih hmy) (hold hmy hy)

/-- **A new pointer to a sink.** -/
theorem of_new_pointer (hnext : Acyclic next) {a b : α} (hsink : next' b = none)
    (h : ∀ x y, next' x = some y → next x = some y ∨ (x = a ∧ y = b)) : Acyclic next' := by
  intro x hcycle
  -- the first step of the cycle shows that its end points somewhere
  obtain ⟨y, hxy, -⟩ := TransGen.head'_iff.mp hcycle
  exact hnext x (walk_of_new hsink h hcycle hxy)

/-- Induction along the pointers of finitely many nodes: what holds of a node if it
holds of the one it points at holds of all. -/
theorem induction (hnext : Acyclic next) {nodes : List α}
    (hnodes : ∀ a b, next a = some b → b ∈ nodes) {P : α → Prop}
    (hstep : ∀ a ∈ nodes, (∀ b, next a = some b → P b) → P a) : ∀ a ∈ nodes, P a := by
  let above : { x // x ∈ nodes } → { x // x ∈ nodes } → Prop :=
    fun b a => TransGen (Follows next) a.1 b.1
  have : IsTrans _ above := ⟨fun _ _ _ hba hcb => hcb.trans hba⟩
  have : Std.Irrefl above := ⟨fun a hself => hnext a.1 hself⟩
  have : Finite { x // x ∈ nodes } := nodes.finite_toSet
  have hwf : WellFounded above := Finite.wellFounded_of_trans_of_irrefl above
  have hall : ∀ a : { x // x ∈ nodes }, P a.1 := by
    intro a
    induction a using hwf.induction with
    | _ a ih =>
      exact hstep a.1 a.2 fun b hab => ih ⟨b, hnodes a.1 b hab⟩ (.single hab)
  exact fun a ha => hall ⟨a, ha⟩

end Acyclic

/-- A walk that ends where nothing is pointed at holds every node that is reached
from its start. -/
theorem mem_walk_iff {next : α → Option α} {start : α} {walk : List α}
    (hwalk : (start :: walk).IsChain (Follows next))
    (hend : ∀ last, (start :: walk).getLast? = some last → next last = none) {a : α} :
    a ∈ start :: walk ↔ ReflTransGen (Follows next) start a := by
  induction walk generalizing start with
  | nil =>
    have hnone : next start = none := hend start rfl
    rw [List.mem_singleton]
    constructor
    · rintro rfl
      exact .refl
    · intro h
      obtain rfl | ⟨b, hfollows, _⟩ := ReflTransGen.cases_head h
      · rfl
      · rw [Follows, hnone] at hfollows
        exact absurd hfollows (by simp)
  | cons second walk ih =>
    obtain ⟨hfirst, hrest⟩ := List.isChain_cons_cons.mp hwalk
    have ih := ih hrest fun last hlast => hend last (by rw [List.getLast?_cons_cons]; exact hlast)
    rw [List.mem_cons, ih]
    constructor
    · rintro (rfl | h)
      · exact .refl
      · exact .head hfirst h
    · intro h
      obtain rfl | ⟨b, hfollows, hreach⟩ := ReflTransGen.cases_head h
      · exact Or.inl rfl
      · -- the pointer of a node is the only one it has
        obtain rfl : second = b := Option.some.inj (hfirst.symm.trans hfollows)
        exact Or.inr hreach

end PyLib
