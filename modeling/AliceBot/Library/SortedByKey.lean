import Mathlib.Data.List.Sort
import Mathlib.Order.Defs.LinearOrder

/-!
# Lists sorted by a key

`sortByKeys key l` is the list `l` in the order of a key, elements of one key in the order
they had.

* `sortByKeys_eq_of_perm` — a list without repeated keys is sorted in one way, whatever its
  order was;
* `take_sortByKeys_append` — the first elements of a sorted list are settled before what is
  not smaller than the last of them is added.
-/

namespace PyLib

variable {α κ : Type*} [LinearOrder κ]

/-- In the order of a key. -/
def KeyOrder (key : α → κ) (a b : α) : Prop := key a ≤ key b

variable (key : α → κ)

instance : DecidableRel (KeyOrder key) := fun a b => inferInstanceAs (Decidable (key a ≤ key b))

instance : Std.Total (KeyOrder key) := ⟨fun a b => le_total (key a) (key b)⟩

instance : IsTrans α (KeyOrder key) := ⟨fun _ _ _ => le_trans⟩

/-- `sorted(l, key=key)`. -/
def sortByKeys (l : List α) : List α := l.insertionSort (KeyOrder key)

variable {key}

theorem sortByKeys_perm (l : List α) : (sortByKeys key l).Perm l :=
  List.perm_insertionSort (KeyOrder key) l

theorem sortByKeys_sorted (l : List α) : (sortByKeys key l).Pairwise (KeyOrder key) :=
  List.pairwise_insertionSort (KeyOrder key) l

@[simp] theorem mem_sortByKeys {l : List α} {a : α} : a ∈ sortByKeys key l ↔ a ∈ l :=
  (sortByKeys_perm l).mem_iff

@[simp] theorem length_sortByKeys (l : List α) : (sortByKeys key l).length = l.length :=
  (sortByKeys_perm l).length_eq

/-- Sorting by the key of what the elements stand for. -/
theorem map_sortByKeys {β : Type*} (f : β → α) (l : List β) :
    (sortByKeys (fun b => key (f b)) l).map f = sortByKeys key (l.map f) :=
  List.map_insertionSort (KeyOrder fun b => key (f b)) (KeyOrder key) f l
    fun _ _ _ _ => Iff.rfl

/-- What has a property, among sorted elements, is sorted among itself. -/
theorem filter_orderedInsert (p : α → Bool) (a : α) {l : List α}
    (hsorted : l.Pairwise (KeyOrder key)) :
    (l.orderedInsert (KeyOrder key) a).filter p =
      if p a then (l.filter p).orderedInsert (KeyOrder key) a else l.filter p := by
  induction l with
  | nil =>
    rw [List.orderedInsert_nil, List.filter_cons, List.filter_nil]
    rfl
  | cons b l ih =>
    obtain ⟨hfirst, hrest⟩ := List.pairwise_cons.mp hsorted
    by_cases hle : KeyOrder key a b
    · rw [List.orderedInsert_cons_of_le _ _ hle, List.filter_cons]
      split
      · -- the new element stands before whatever is kept of the others
        cases hkept : (b :: l).filter p with
        | nil => rfl
        | cons c kept =>
          have hc : c ∈ b :: l := (List.mem_filter.mp (hkept ▸ List.mem_cons_self ..)).1
          have hac : KeyOrder key a c := by
            rcases List.mem_cons.mp hc with rfl | hmem
            · exact hle
            · exact le_trans hle (hfirst c hmem)
          exact (List.orderedInsert_cons_of_le _ _ hac).symm
      · rfl
    · rw [List.orderedInsert_of_not_le _ _ hle, List.filter_cons, ih hrest, List.filter_cons]
      split
      · split
        · exact (List.orderedInsert_of_not_le _ _ hle).symm
        · rfl
      · rfl

/-- Filtering before or after sorting is the same. -/
theorem filter_sortByKeys (p : α → Bool) (l : List α) :
    (sortByKeys key l).filter p = sortByKeys key (l.filter p) := by
  induction l with
  | nil => rfl
  | cons a l ih =>
    have hsorted : (sortByKeys key l).Pairwise (KeyOrder key) := sortByKeys_sorted l
    have hinsert := filter_orderedInsert p a hsorted
    rw [ih] at hinsert
    unfold sortByKeys at hinsert ⊢
    rw [List.insertionSort_cons, hinsert, List.filter_cons]
    split
    · rw [List.insertionSort_cons]
    · rfl

/-- A sorted list stays as it is. -/
theorem sortByKeys_of_sorted {l : List α} (h : l.Pairwise (KeyOrder key)) : sortByKeys key l = l :=
  h.insertionSort_eq

/-- Sorting elements that are mapped to others of the same key. -/
theorem sortByKeys_map {β : Type*} {key' : β → κ} {f : β → α} (h : ∀ b, key (f b) = key' b)
    (l : List β) : sortByKeys key (l.map f) = (sortByKeys key' l).map f := by
  have hkeys : (fun b => key (f b)) = key' := funext h
  rw [← map_sortByKeys, hkeys]

/-- Lists without repeated keys that are sorted and have the same elements are equal. -/
theorem eq_of_keyOrder {l l' : List α} (hperm : l.Perm l') (hkeys : (l.map key).Nodup)
    (hsorted : l.Pairwise (KeyOrder key)) (hsorted' : l'.Pairwise (KeyOrder key)) : l = l' := by
  refine hperm.eq_of_pairwise (fun a b ha hb hle hge => ?_) hsorted hsorted'
  have hsame : key a = key b := le_antisymm hle hge
  exact List.inj_on_of_nodup_map hkeys ha (hperm.mem_iff.mpr hb) hsame

/-- A list without repeated keys is sorted in one way. -/
theorem sortByKeys_eq_of_perm {l l' : List α} (hperm : l.Perm l') (hkeys : (l.map key).Nodup) :
    sortByKeys key l = sortByKeys key l' := by
  refine eq_of_keyOrder ?_ ?_ (sortByKeys_sorted l) (sortByKeys_sorted l')
  · exact (sortByKeys_perm l).trans (hperm.trans (sortByKeys_perm l').symm)
  · exact ((sortByKeys_perm l).map key).nodup_iff.mpr hkeys

/-- An element is not larger than the last of the first ones. -/
theorem le_of_mem_take {l : List α} (hsorted : l.Pairwise (KeyOrder key)) {k : Nat} {last : α}
    (hlast : l[k]? = some last) : ∀ a ∈ l.take (k + 1), key a ≤ key last := by
  obtain ⟨hlt, rfl⟩ := List.getElem?_eq_some_iff.mp hlast
  intro a ha
  rw [List.take_succ_eq_append_getElem hlt] at ha
  have hfirst : (l.take k ++ [l[k]]).Pairwise (KeyOrder key) := by
    rw [← List.take_succ_eq_append_getElem hlt]
    exact hsorted.sublist (List.take_sublist _ _)
  rcases List.mem_append.mp ha with hbefore | hself
  · exact (List.pairwise_append.mp hfirst).2.2 a hbefore _ (List.mem_singleton_self _)
  · rw [List.mem_singleton.mp hself]

/-- What is not smaller than the last of the first elements does not change them. -/
theorem take_sortByKeys_append {l rest : List α} {k : Nat} {last : α}
    (hkeys : ((l ++ rest).map key).Nodup) (hlast : (sortByKeys key l)[k]? = some last)
    (hrest : ∀ b ∈ rest, key last ≤ key b) :
    (sortByKeys key (l ++ rest)).take (k + 1) = (sortByKeys key l).take (k + 1) := by
  obtain ⟨hlt, _⟩ := List.getElem?_eq_some_iff.mp hlast
  have hsplit := List.take_append_drop (k + 1) (sortByKeys key l)
  have hsorted : (sortByKeys key l).Pairwise (KeyOrder key) := sortByKeys_sorted l
  have hfirst := le_of_mem_take hsorted hlast
  -- the first elements, and behind them the others and the rest in order
  have hsame : sortByKeys key (l ++ rest) = (sortByKeys key l).take (k + 1) ++
      sortByKeys key ((sortByKeys key l).drop (k + 1) ++ rest) := by
    refine eq_of_keyOrder ?_ ?_ (sortByKeys_sorted _) ?_
    · have hpieces : ((sortByKeys key l).take (k + 1) ++
          sortByKeys key ((sortByKeys key l).drop (k + 1) ++ rest)).Perm (l ++ rest) := by
        refine ((sortByKeys_perm _).append_left _).trans ?_
        rw [← List.append_assoc, hsplit]
        exact (sortByKeys_perm l).append_right rest
      exact (sortByKeys_perm _).trans hpieces.symm
    · exact ((sortByKeys_perm _).map key).nodup_iff.mpr hkeys
    · refine List.pairwise_append.mpr ⟨hsorted.sublist (List.take_sublist _ _),
        sortByKeys_sorted _, fun a ha b hb => ?_⟩
      rcases List.mem_append.mp (mem_sortByKeys.mp hb) with hothers | hrestMem
      · exact (List.pairwise_append.mp (hsplit.symm ▸ hsorted)).2.2 a ha b hothers
      · exact (hfirst a ha).trans (hrest b hrestMem)
  rw [hsame, List.take_left']
  rw [List.length_take]
  omega

end PyLib
