import Mathlib.Data.List.Basic
import Mathlib.Data.List.Perm.Basic
import Mathlib.Data.List.Nodup
import Mathlib.Data.List.Pairwise

/-!
# Greedy complete-link groups

The first of the elements that remain opens a group, every other one joins it or is passed
over, and what was passed over remains for the next group. `joins group candidate` is the
test; it sees the group as it is when the candidate comes.

Where the test asks for a link to every member (`LinkTest`), a finished group is linked
throughout (`pairwise_of_mem_groupsOf`), and the test fails for each element it passed over
also when it is asked of the finished group (`exists_not_link`): a group only grows.
-/

namespace PyLib

variable {α β : Type*}

/-- A group, and the elements that were passed over while it was built. -/
structure BuiltGroup (α : Type*) where
  members : List α
  passedOver : List α

/-- The same group of other elements. -/
def BuiltGroup.map (f : α → β) (group : BuiltGroup α) : BuiltGroup β :=
  ⟨group.members.map f, group.passedOver.map f⟩

section Groups

variable (joins : List α → α → Bool)

/-- Build a group from the candidates that are left. -/
def formGroup : List α → List α → List α → BuiltGroup α
  | members, passedOver, [] => ⟨members, passedOver⟩
  | members, passedOver, candidate :: candidates =>
    if joins members candidate then formGroup (members ++ [candidate]) passedOver candidates
    else formGroup members (passedOver ++ [candidate]) candidates

variable {joins}

/-- Every candidate joins or is passed over. -/
theorem formGroup_perm (candidates : List α) : ∀ members passedOver : List α,
    ((formGroup joins members passedOver candidates).members ++
      (formGroup joins members passedOver candidates).passedOver).Perm
      (members ++ passedOver ++ candidates) := by
  induction candidates with
  | nil =>
    intro members passedOver
    rw [formGroup, List.append_nil]
  | cons candidate candidates ih =>
    intro members passedOver
    rw [formGroup]
    split
    · refine (ih _ _).trans ?_
      simp only [List.append_assoc, List.singleton_append]
      exact List.Perm.append_left _ List.perm_middle.symm
    · refine (ih _ _).trans ?_
      rw [← List.append_assoc members, List.append_assoc _ [candidate]]
      rfl

/-- No more is passed over than there were candidates. -/
theorem length_formGroup_le (candidates : List α) : ∀ members passedOver : List α,
    (formGroup joins members passedOver candidates).passedOver.length ≤
      passedOver.length + candidates.length := by
  induction candidates with
  | nil =>
    intro members passedOver
    exact Nat.le_refl _
  | cons candidate candidates ih =>
    intro members passedOver
    rw [formGroup]
    split
    · have hle := ih (members ++ [candidate]) passedOver
      simp only [List.length_cons]
      omega
    · have hle := ih members (passedOver ++ [candidate])
      simp only [List.length_append, List.length_cons, List.length_nil] at hle ⊢
      omega

variable (joins)

/-- Build groups until nothing remains. -/
def groupsOf : List α → List (BuiltGroup α)
  | [] => []
  | seed :: candidates =>
    let group := formGroup joins [seed] [] candidates
    group :: groupsOf group.passedOver
termination_by remaining => remaining.length
decreasing_by
  have hle : (formGroup joins [seed] [] candidates).passedOver.length ≤ 0 + candidates.length :=
    length_formGroup_le candidates [seed] []
  simp only [List.length_cons]
  omega

variable {joins}

/-- Every element is in one group, once. -/
theorem groupsOf_perm (remaining : List α) :
    ((groupsOf joins remaining).flatMap BuiltGroup.members).Perm remaining := by
  induction remaining using groupsOf.induct joins with
  | case1 => rw [groupsOf, List.flatMap_nil]
  | case2 seed candidates group ih =>
    rw [groupsOf, List.flatMap_cons]
    refine (List.Perm.append_left _ ih).trans ?_
    exact formGroup_perm candidates [seed] []

end Groups

/-! ### Groups that are linked throughout -/

section Links

/-- The test asks whether the candidate is linked to every member of a group that is linked
throughout. -/
def LinkTest (joins : List α → α → Bool) (link : α → α → Prop) : Prop :=
  ∀ seed rest candidate, (seed :: rest).Pairwise link →
    (joins (seed :: rest) candidate = true ↔ ∀ a ∈ seed :: rest, link a candidate)

variable {joins : List α → α → Bool} {link : α → α → Prop}

/-- A candidate that joins keeps the group linked, and one that is passed over stays out of
every group that this one grows to. -/
theorem formGroup_linked (htest : LinkTest joins link) (candidates : List α) :
    ∀ (seed : α) (rest passedOver : List α), (seed :: rest).Pairwise link →
      (∀ x ∈ passedOver, ∃ a ∈ seed :: rest, ¬ link a x) →
      (formGroup joins (seed :: rest) passedOver candidates).members.Pairwise link ∧
      ∀ x ∈ (formGroup joins (seed :: rest) passedOver candidates).passedOver,
        ∃ a ∈ (formGroup joins (seed :: rest) passedOver candidates).members, ¬ link a x := by
  induction candidates with
  | nil =>
    intro seed rest passedOver hlinked hpassed
    exact ⟨hlinked, hpassed⟩
  | cons candidate candidates ih =>
    intro seed rest passedOver hlinked hpassed
    have hjoins := htest seed rest candidate hlinked
    rw [formGroup]
    split
    case isTrue hjoin =>
      refine ih seed (rest ++ [candidate]) passedOver ?_ ?_
      · rw [← List.cons_append]
        exact List.pairwise_append.mpr ⟨hlinked, List.pairwise_singleton _ _,
          fun a ha b hb => List.mem_singleton.mp hb ▸ hjoins.mp hjoin a ha⟩
      · intro x hx
        obtain ⟨a, ha, hnot⟩ := hpassed x hx
        exact ⟨a, List.mem_append_left [candidate] ha, hnot⟩
    case isFalse hjoin =>
      refine ih seed rest (passedOver ++ [candidate]) hlinked fun x hx => ?_
      rcases List.mem_append.mp hx with hbefore | hself
      · exact hpassed x hbefore
      · -- some member is not linked to the candidate, and it stays a member
        rw [List.mem_singleton.mp hself]
        by_contra hall
        push Not at hall
        exact hjoin (hjoins.mpr hall)

/-- What holds of each group at the moment it is finished holds of every group. -/
theorem forall_groupsOf {P : BuiltGroup α → Prop}
    (h : ∀ seed candidates, P (formGroup joins [seed] [] candidates)) (remaining : List α) :
    ∀ group ∈ groupsOf joins remaining, P group := by
  induction remaining using groupsOf.induct joins with
  | case1 =>
    rw [groupsOf]
    exact List.forall_mem_nil _
  | case2 seed candidates group ih =>
    rw [groupsOf]
    exact List.forall_mem_cons.mpr ⟨h seed candidates, ih⟩

/-- A group is linked throughout. -/
theorem pairwise_of_mem_groupsOf (htest : LinkTest joins link) {remaining : List α} :
    ∀ group ∈ groupsOf joins remaining, group.members.Pairwise link :=
  forall_groupsOf (fun seed candidates => (formGroup_linked htest candidates seed [] []
    (List.pairwise_singleton _ _) (List.forall_mem_nil _)).1) remaining

/-- An element that a group passed over is not linked to all of the finished group. -/
theorem exists_not_link (htest : LinkTest joins link) {remaining : List α} :
    ∀ group ∈ groupsOf joins remaining, ∀ x ∈ group.passedOver,
      ∃ a ∈ group.members, ¬ link a x :=
  forall_groupsOf (fun seed candidates => (formGroup_linked htest candidates seed [] []
    (List.pairwise_singleton _ _) (List.forall_mem_nil _)).2) remaining

end Links

/-! ### Groups of what the elements stand for -/

section Images

variable {joins : List α → α → Bool} {joins' : List β → β → Bool} {f : α → β}

theorem formGroup_map (hjoins : ∀ members a, joins' (members.map f) (f a) = joins members a)
    (candidates : List α) : ∀ members passedOver : List α,
    (formGroup joins members passedOver candidates).map f =
      formGroup joins' (members.map f) (passedOver.map f) (candidates.map f) := by
  induction candidates with
  | nil =>
    intro members passedOver
    rfl
  | cons candidate candidates ih =>
    intro members passedOver
    rw [List.map_cons, formGroup, formGroup, hjoins]
    split
    · rw [ih, List.map_append, List.map_singleton]
    · rw [ih, List.map_append, List.map_singleton]

/-- Groups depend on the elements only through what the test sees of them. -/
theorem groupsOf_map (hjoins : ∀ members a, joins' (members.map f) (f a) = joins members a)
    (remaining : List α) :
    (groupsOf joins remaining).map (BuiltGroup.map f) = groupsOf joins' (remaining.map f) := by
  induction remaining using groupsOf.induct joins with
  | case1 => rw [groupsOf, List.map_nil, List.map_nil, groupsOf]
  | case2 seed candidates group ih =>
    have hgroup : group.map f = formGroup joins' [f seed] [] (candidates.map f) :=
      formGroup_map hjoins candidates [seed] []
    rw [groupsOf, List.map_cons, List.map_cons, groupsOf, ih, ← hgroup]
    rfl

end Images

end PyLib
