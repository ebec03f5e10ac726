import Mathlib.Data.List.Perm.Subperm
import Mathlib.Data.List.Sublists

/-!
# Moving elements of a list up

`moveUp l target position` takes the element at a position out and puts it back at an earlier
one. `MovesUp allowed l cards l'` is a run of such moves, with the elements that were moved.

Some elements of a run may be left out so that the others have the same order before and after
(`MovesUp.others`), and only what was moved comes to the first places
(`MovesUp.mem_take`).
-/

namespace PyLib

variable {α : Type*}

/-- `l.insert(target, l.pop(position))`. -/
def moveUp (l : List α) (target position : Nat) : List α :=
  match l[position]? with
  | none => l
  | some card => (l.eraseIdx position).insertIdx target card

/-- What is behind the target and before the element moves down by one place. -/
theorem moveUp_append (before between after : List α) (card : α) :
    moveUp (before ++ (between ++ card :: after)) before.length
      (before.length + between.length) = before ++ card :: (between ++ after) := by
  -- the element is read, erased and put in at the target
  have hcard : (before ++ (between ++ card :: after))[before.length + between.length]? =
      some card := by
    rw [List.getElem?_append_right (Nat.le_add_right _ _), Nat.add_sub_cancel_left,
      List.getElem?_append_right (Nat.le_refl _), Nat.sub_self, List.getElem?_cons_zero]
  have herase : (before ++ (between ++ card :: after)).eraseIdx (before.length + between.length) =
      before ++ (between ++ after) := by
    rw [List.eraseIdx_append_of_length_le (Nat.le_add_right _ _), Nat.add_sub_cancel_left,
      List.eraseIdx_append_of_length_le (Nat.le_refl _), Nat.sub_self, List.eraseIdx_cons_zero]
  have hinsert : ∀ l : List α, (l ++ (between ++ after)).insertIdx l.length card =
      l ++ card :: (between ++ after) := by
    intro l
    induction l with
    | nil => exact List.insertIdx_zero
    | cons a l ih => rw [List.cons_append, List.length_cons, List.insertIdx_succ_cons, ih]; rfl
  rw [moveUp, hcard]
  show ((before ++ _).eraseIdx _).insertIdx _ card = _
  rw [herase, hinsert]

/-- The three pieces around an element and its target. -/
theorem exists_pieces {l : List α} {target position : Nat} {card : α}
    (hcard : l[position]? = some card) (hlt : target < position) :
    ∃ before between after, l = before ++ (between ++ card :: after) ∧
      before.length = target ∧ before.length + between.length = position := by
  obtain ⟨hposition, rfl⟩ := List.getElem?_eq_some_iff.mp hcard
  refine ⟨l.take target, (l.take position).drop target, l.drop (position + 1), ?_, ?_, ?_⟩
  · have hfirst : l.take target ++ (l.take position).drop target = l.take position := by
      have hshort : l.take target = (l.take position).take target := by
        rw [List.take_take, Nat.min_eq_left (Nat.le_of_lt hlt)]
      rw [hshort, List.take_append_drop]
    rw [← List.append_assoc, hfirst, List.getElem_cons_drop, List.take_append_drop]
  · rw [List.length_take]
    omega
  · rw [List.length_take, List.length_drop, List.length_take]
    omega

/-- An element in between pushes nothing further than by one place. -/
theorem take_subset_cons {card : α} (between after : List α) : ∀ n : Nat,
    (between ++ after).take n ⊆ (between ++ card :: after).take (n + 1) := by
  induction between with
  | nil =>
    intro n
    exact List.subset_cons_self _ _
  | cons b between ih =>
    intro n
    cases n with
    | zero => exact List.nil_subset _
    | succ n => exact List.cons_subset_cons b (ih n)

/-- What is in the first places behind an inserted element was there one place before. -/
theorem mem_take_cons {card a : α} {rest rest' : List α} (before : List α)
    (hrest : ∀ n, rest.take n ⊆ rest'.take (n + 1)) : ∀ {k : Nat},
      a ∈ (before ++ card :: rest).take k → a = card ∨ a ∈ (before ++ rest').take k := by
  induction before with
  | nil =>
    intro k ha
    cases k with
    | zero => exact absurd ha List.not_mem_nil
    | succ k => exact (List.mem_cons.mp ha).imp_right fun hmem => hrest k hmem
  | cons b before ih =>
    intro k ha
    cases k with
    | zero => exact absurd ha List.not_mem_nil
    | succ k =>
      obtain rfl | hmem := List.mem_cons.mp ha
      · exact Or.inr List.mem_cons_self
      · exact (ih hmem).imp_right (List.mem_cons_of_mem b)

/-- Elements are moved up one after the other, each as the list is then. -/
inductive MovesUp (allowed : List α → α → Nat → Prop) : List α → List α → List α → Prop where
  | done (l : List α) : MovesUp allowed l [] l
  | move {l cards result : List α} {card : α} {target position : Nat}
      (hcard : l[position]? = some card) (hlt : target < position)
      (hallowed : allowed l card target)
      (h : MovesUp allowed (moveUp l target position) cards result) :
      MovesUp allowed l (card :: cards) result

namespace MovesUp

variable {allowed : List α → α → Nat → Prop} {l cards result : List α}

theorem perm (h : MovesUp allowed l cards result) : result.Perm l := by
  induction h with
  | done => exact List.Perm.refl _
  | move hcard hlt _ _ ih =>
    obtain ⟨before, between, after, rfl, rfl, rfl⟩ := exists_pieces hcard hlt
    rw [moveUp_append] at ih
    exact ih.trans (List.Perm.append_left before List.perm_middle.symm)

/-- In the first places stands what stood there, or what was moved. -/
theorem mem_take (h : MovesUp allowed l cards result) {k : Nat} {a : α} (ha : a ∈ result.take k) :
    a ∈ l.take k ∨ a ∈ cards := by
  induction h with
  | done => exact Or.inl ha
  | move hcard hlt _ _ ih =>
    obtain ⟨before, between, after, rfl, rfl, rfl⟩ := exists_pieces hcard hlt
    rw [moveUp_append] at ih
    obtain hfirst | hmoved := ih ha
    · obtain rfl | hstood := mem_take_cons before (take_subset_cons between after) hfirst
      · exact Or.inr List.mem_cons_self
      · exact Or.inl hstood
    · exact Or.inr (List.mem_cons_of_mem _ hmoved)

/-- The elements that were not moved keep their order. -/
theorem others (h : MovesUp allowed l cards result) :
    ∃ moved rest, moved ⊆ cards ∧ moved.length ≤ cards.length ∧ (moved ++ rest).Perm l ∧
      rest.Sublist l ∧ rest.Sublist result := by
  induction h with
  | done l => exact ⟨[], l, List.nil_subset _, Nat.le_refl _, List.Perm.refl _,
      List.Sublist.refl _, List.Sublist.refl _⟩
  | @move l cards result card target position hcard hlt _ _ ih =>
    obtain ⟨before, between, after, rfl, rfl, rfl⟩ := exists_pieces hcard hlt
    obtain ⟨moved, rest, hmoved, hlength, hperm, hsub, hresult⟩ := ih
    rw [moveUp_append] at hperm hsub
    have hlist : (before ++ card :: (between ++ after)).Perm
        (before ++ (between ++ card :: after)) :=
      List.Perm.append_left before List.perm_middle.symm
    have hgap : (between ++ after).Sublist (between ++ card :: after) :=
      List.Sublist.append_left (List.sublist_cons_self card after) between
    obtain ⟨first, second, rfl, hfirst, hsecond⟩ := List.sublist_append_iff.mp hsub
    obtain hwithout | ⟨second, rfl, hwith⟩ := List.sublist_cons_iff.mp hsecond
    · -- the card is moved again later, or another one that equals it is
      exact ⟨moved, first ++ second, List.subset_cons_of_subset card hmoved,
        Nat.le_succ_of_le hlength, hperm.trans hlist, hfirst.append (hwithout.trans hgap), hresult⟩
    · refine ⟨card :: moved, first ++ second, List.cons_subset_cons card hmoved,
        Nat.succ_le_succ hlength, ?_, hfirst.append (hwith.trans hgap), ?_⟩
      · have hback : (card :: moved ++ (first ++ second)).Perm
            (moved ++ (first ++ card :: second)) := by
          rw [List.cons_append, ← List.append_assoc, ← List.append_assoc]
          exact List.perm_middle.symm
        exact hback.trans (hperm.trans hlist)
      · exact (List.Sublist.append_left (List.sublist_cons_self card second) first).trans hresult

end MovesUp

end PyLib
