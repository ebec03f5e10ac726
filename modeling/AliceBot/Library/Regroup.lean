import Mathlib.Data.Finset.Basic
import Mathlib.Data.List.Nodup
import Mathlib.Data.List.Pairwise
import Mathlib.Data.List.Perm.Basic

/-!
# Bringing the members of blocks together

A list is gone through in order. An element of no block is passed on; the first
member of a block brings the whole block, in the order of the block, and its
other members bring nothing any more.

For blocks that share no element the result is a permutation of the list
(`regroup_perm`), the elements of no block keep their order
(`regroup_filter`), and a block stands in one piece right behind what the
elements before its first member have brought (`regroup_block`).
-/

namespace PyLib

variable {α : Type*} [DecidableEq α]

/-- The first block with the element. -/
def blockOf (blocks : List (List α)) (a : α) : Option (List α) :=
  blocks.find? fun block => decide (a ∈ block)

/-- The pass, with the elements of the blocks brought so far. -/
def regroup (blocks : List (List α)) : List α → Finset α → List α
  | [], _ => []
  | a :: rest, brought =>
    match blockOf blocks a with
    | none => a :: regroup blocks rest brought
    | some block =>
      if a ∈ brought then regroup blocks rest brought
      else block ++ regroup blocks rest (brought ∪ block.toFinset)

/-- An element brings itself where it is in no block, and its block otherwise. -/
def BroughtBy (blocks : List (List α)) (b a : α) : Prop :=
  (a = b ∧ ∀ block ∈ blocks, a ∉ block) ∨ ∃ block ∈ blocks, a ∈ block ∧ b ∈ block

/-- Blocks that share no element. -/
def DisjointBlocks (blocks : List (List α)) : Prop := blocks.flatten.Nodup

/-- Every block was brought as a whole, or not at all, and nothing else was. -/
structure Whole (blocks : List (List α)) (brought : Finset α) : Prop where
  inside : ∀ a ∈ brought, ∃ block ∈ blocks, a ∈ block
  whole : ∀ block ∈ blocks, (∀ a ∈ block, a ∈ brought) ∨ ∀ a ∈ block, a ∉ brought

variable {blocks : List (List α)} {block l before after : List α} {brought : Finset α} {a b : α}

theorem blockOf_eq_none : blockOf blocks a = none ↔ ∀ block ∈ blocks, a ∉ block := by
  simp [blockOf, List.find?_eq_none]

theorem mem_of_blockOf (h : blockOf blocks a = some block) : block ∈ blocks ∧ a ∈ block := by
  have hmem := List.find?_some h
  exact ⟨List.mem_of_find?_eq_some h, of_decide_eq_true hmem⟩

namespace DisjointBlocks

omit [DecidableEq α] in
theorem eq (h : DisjointBlocks blocks) {other : List α} (hblock : block ∈ blocks)
    (hother : other ∈ blocks) (ha : a ∈ block) (ha' : a ∈ other) : block = other := by
  by_contra hne
  have hsymm : Std.Symm (@List.Disjoint α) := ⟨fun _ _ => List.Disjoint.symm⟩
  exact (List.nodup_flatten.mp h).2.forall hblock hother hne ha ha'

theorem blockOf_eq_some (h : DisjointBlocks blocks) (hblock : block ∈ blocks) (ha : a ∈ block) :
    blockOf blocks a = some block := by
  cases hfind : blockOf blocks a with
  | none => exact absurd ha (blockOf_eq_none.mp hfind block hblock)
  | some other =>
    obtain ⟨hother, ha'⟩ := mem_of_blockOf hfind
    rw [h.eq hblock hother ha ha']

omit [DecidableEq α] in
/-- A member of a block brings the block. -/
theorem broughtBy_iff (h : DisjointBlocks blocks) (hblock : block ∈ blocks) (hb : b ∈ block) :
    BroughtBy blocks b a ↔ a ∈ block := by
  constructor
  · rintro (⟨rfl, hfree⟩ | ⟨other, hother, ha, hb'⟩)
    · exact absurd hb (hfree block hblock)
    · rwa [h.eq hblock hother hb hb']
  · exact fun ha => .inr ⟨block, hblock, ha, hb⟩

end DisjointBlocks

omit [DecidableEq α] in
/-- An element of no block brings itself. -/
theorem broughtBy_free (h : ∀ block ∈ blocks, b ∉ block) : BroughtBy blocks b a ↔ a = b := by
  constructor
  · rintro (⟨rfl, -⟩ | ⟨block, hblock, -, hb⟩)
    · rfl
    · exact absurd hb (h block hblock)
  · rintro rfl
    exact .inl ⟨rfl, h⟩

namespace Whole

omit [DecidableEq α] in
theorem empty : Whole blocks (∅ : Finset α) where
  inside a ha := absurd ha (Finset.notMem_empty a)
  whole _ _ := .inr fun a _ => Finset.notMem_empty a

/-- Bringing a block keeps the others as they are. -/
theorem bring (h : Whole blocks brought) (hdisjoint : DisjointBlocks blocks)
    (hblock : block ∈ blocks) : Whole blocks (brought ∪ block.toFinset) where
  inside a ha := by
    rcases Finset.mem_union.mp ha with hold | hnew
    · exact h.inside a hold
    · exact ⟨block, hblock, List.mem_toFinset.mp hnew⟩
  whole other hother := by
    by_cases heq : other = block
    · subst heq
      exact .inl fun a ha => Finset.mem_union_right _ (List.mem_toFinset.mpr ha)
    · rcases h.whole other hother with hin | hout
      · exact .inl fun a ha => Finset.mem_union_left _ (hin a ha)
      · refine .inr fun a ha hmem => ?_
        rcases Finset.mem_union.mp hmem with hold | hnew
        · exact hout a ha hold
        · exact heq (hdisjoint.eq hother hblock ha (List.mem_toFinset.mp hnew))

omit [DecidableEq α] in
/-- A block with one member brought was brought, and one with a member left was
left. -/
theorem all_iff (h : Whole blocks brought) (hblock : block ∈ blocks) (hb : b ∈ block)
    (ha : a ∈ block) : a ∈ brought ↔ b ∈ brought := by
  rcases h.whole block hblock with hin | hout
  · exact iff_of_true (hin a ha) (hin b hb)
  · exact iff_of_false (hout a ha) (hout b hb)

end Whole

/-- Without blocks nothing is moved. -/
theorem regroup_no_blocks (l : List α) (brought : Finset α) : regroup [] l brought = l := by
  induction l with
  | nil => rfl
  | cons a l ih => rw [regroup, ih]; rfl

/-- The result has what the elements of the list bring, and was not brought
before. -/
theorem mem_regroup (hdisjoint : DisjointBlocks blocks) (hwhole : Whole blocks brought) :
    a ∈ regroup blocks l brought ↔ (∃ b ∈ l, BroughtBy blocks b a) ∧ a ∉ brought := by
  induction l generalizing brought with
  | nil => simp [regroup]
  | cons b l ih =>
    rw [regroup, List.exists_mem_cons_iff]
    split
    · next hfind =>
      have hfree := blockOf_eq_none.mp hfind
      rw [List.mem_cons, ih hwhole, broughtBy_free hfree, or_and_right]
      -- nothing outside the blocks was brought
      refine or_congr_left (iff_self_and.mpr ?_)
      rintro rfl hmem
      obtain ⟨block, hblock, ha⟩ := hwhole.inside a hmem
      exact hfree block hblock ha
    · next block hfind =>
      obtain ⟨hblock, hb⟩ := mem_of_blockOf hfind
      rw [hdisjoint.broughtBy_iff hblock hb, or_and_right]
      split
      · next hbrought =>
        rw [ih hwhole, iff_or_self]
        exact fun ⟨ha, hnot⟩ => absurd ((hwhole.all_iff hblock hb ha).mpr hbrought) hnot
      · next hleft =>
        rw [List.mem_append, ih (hwhole.bring hdisjoint hblock), Finset.mem_union,
          List.mem_toFinset, not_or]
        constructor
        · rintro (ha | ⟨hl, hnot, -⟩)
          · exact .inl ⟨ha, fun hmem => hleft ((hwhole.all_iff hblock hb ha).mp hmem)⟩
          · exact .inr ⟨hl, hnot⟩
        · rintro (⟨ha, -⟩ | ⟨hl, hnot⟩)
          · exact .inl ha
          · by_cases ha : a ∈ block
            · exact .inl ha
            · exact .inr ⟨hl, hnot, ha⟩

/-- Regrouping repeats nothing, if the blocks are disjoint and come whole or not at all.
-/
theorem regroup_nodup (hdisjoint : DisjointBlocks blocks) (hwhole : Whole blocks brought)
    (hl : l.Nodup) : (regroup blocks l brought).Nodup := by
  induction l generalizing brought with
  | nil => exact List.nodup_nil
  | cons b l ih =>
    obtain ⟨hb, hl⟩ := List.nodup_cons.mp hl
    rw [regroup]
    split
    · next hfind =>
      have hfree := blockOf_eq_none.mp hfind
      refine List.nodup_cons.mpr ⟨fun hmem => ?_, ih hwhole hl⟩
      obtain ⟨⟨c, hc, ⟨rfl, -⟩ | ⟨block, hblock, hmem, -⟩⟩, -⟩ :=
        (mem_regroup hdisjoint hwhole).mp hmem
      · exact hb hc
      · exact hfree block hblock hmem
    · next block hfind =>
      obtain ⟨hblock, -⟩ := mem_of_blockOf hfind
      -- a block is brought once, before the rest of the list
      split
      · exact ih hwhole hl
      · have hbring := hwhole.bring hdisjoint hblock
        refine List.nodup_append.mpr ⟨(List.nodup_flatten.mp hdisjoint).1 block hblock,
          ih hbring hl, fun a ha c hc => ?_⟩
        rintro rfl
        exact ((mem_regroup hdisjoint hbring).mp hc).2
          (Finset.mem_union_right _ (List.mem_toFinset.mpr ha))

/-- Regrouping the members of a list is a permutation of it. -/
theorem regroup_perm (hdisjoint : DisjointBlocks blocks) (hl : l.Nodup)
    (hmembers : ∀ block ∈ blocks, ∀ a ∈ block, a ∈ l) : (regroup blocks l ∅).Perm l := by
  refine (List.perm_ext_iff_of_nodup (regroup_nodup hdisjoint Whole.empty hl) hl).mpr fun a => ?_
  rw [mem_regroup hdisjoint Whole.empty, and_iff_left (Finset.notMem_empty a)]
  constructor
  · rintro ⟨b, hb, ⟨rfl, -⟩ | ⟨block, hblock, ha, -⟩⟩
    · exact hb
    · exact hmembers block hblock a ha
  · intro ha
    by_cases hfree : ∀ block ∈ blocks, a ∉ block
    · exact ⟨a, ha, .inl ⟨rfl, hfree⟩⟩
    · push Not at hfree
      obtain ⟨block, hblock, hmem⟩ := hfree
      exact ⟨a, ha, .inr ⟨block, hblock, hmem, hmem⟩⟩

/-- The elements of no block keep their order. -/
theorem regroup_filter (blocks : List (List α)) (l : List α) (brought : Finset α) :
    (regroup blocks l brought).filter (fun a => (blockOf blocks a).isNone) =
      l.filter fun a => (blockOf blocks a).isNone := by
  induction l generalizing brought with
  | nil => rfl
  | cons b l ih =>
    rw [regroup, List.filter_cons]
    split
    · next hfind => rw [List.filter_cons, ih, hfind]
    · next block hfind =>
      obtain ⟨hblock, -⟩ := mem_of_blockOf hfind
      rw [hfind]
      split
      · exact ih brought
      · have hnone : block.filter (fun a => (blockOf blocks a).isNone) = [] := by
          refine List.filter_eq_nil_iff.mpr fun a ha hfree => ?_
          exact blockOf_eq_none.mp (Option.isNone_iff_eq_none.mp hfree) block hblock ha
        rw [List.filter_append, hnone, ih]
        rfl

/-- A block stands in one piece behind what was brought before its first member. -/
theorem regroup_block (hdisjoint : DisjointBlocks blocks) (hblock : block ∈ blocks)
    (ha : a ∈ block) (hbefore : ∀ b ∈ before, b ∉ block) (hleft : ∀ b ∈ block, b ∉ brought) :
    ∃ tail, regroup blocks (before ++ a :: after) brought =
      regroup blocks before brought ++ block ++ tail := by
  induction before generalizing brought with
  | nil =>
    have hfirst : regroup blocks (a :: after) brought =
        block ++ regroup blocks after (brought ∪ block.toFinset) := by
      rw [regroup, hdisjoint.blockOf_eq_some hblock ha]
      exact if_neg (hleft a ha)
    exact ⟨_, hfirst⟩
  | cons b before ih =>
    obtain ⟨hb, hrest⟩ := List.forall_mem_cons.mp hbefore
    rw [List.cons_append, regroup, regroup]
    cases hfind : blockOf blocks b with
    | none =>
      obtain ⟨tail, heq⟩ := ih hrest hleft
      exact ⟨tail, by simp only [heq, List.cons_append]⟩
    | some other =>
      obtain ⟨hother, hmem⟩ := mem_of_blockOf hfind
      dsimp only
      split
      · exact ih hrest hleft
      · -- the other block shares nothing with this one
        have hstill : ∀ c ∈ block, c ∉ brought ∪ other.toFinset := by
          intro c hc hin
          rcases Finset.mem_union.mp hin with hold | hnew
          · exact hleft c hc hold
          · rw [hdisjoint.eq hblock hother hc (List.mem_toFinset.mp hnew)] at hb
            exact hb hmem
        obtain ⟨tail, heq⟩ := ih hrest hstill
        exact ⟨tail, by simp only [heq, List.append_assoc]⟩

end PyLib
