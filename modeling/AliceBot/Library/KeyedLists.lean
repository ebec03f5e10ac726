import Mathlib.Data.List.Dedup
import Mathlib.Data.List.Nodup
import Mathlib.Data.List.Perm.Lattice
import Mathlib.Order.Lattice

/-!
# Lists of keyed elements

A loop that goes through a list and passes over each element whose key it has
already met: `firstsAfter key seen` is what it keeps when the keys `seen` were met
before it started.

* `firstsAfter_isPrefix` — the more of a list the loop is given, the longer what
  it keeps, and the earlier part of it stays;
* `nodup_firstsAfter`, `firstsAfter_of_nodup` — no key is kept twice, and a list
  without repeated keys is kept whole;
* `firstsAfter_map` — renaming the keys changes nothing;
* `mem_take_firstsAfter_iff` — which elements a loop with a bound keeps, told by what comes
  before them.

In a list whose elements increase in some order, the place of an element is the
number of elements that are smaller (`idxOf_eq_countP`), and comparing places is
comparing elements (`idxOf_lt_idxOf_iff`).
-/

namespace PyLib

section Keyed

variable {α κ : Type*} [DecidableEq κ] (key : α → κ)

/-- The elements whose key is neither in `seen` nor that of an earlier element. -/
def firstsAfter (seen : List κ) : List α → List α
  | [] => []
  | a :: l => if key a ∈ seen then firstsAfter seen l else a :: firstsAfter (key a :: seen) l

variable {key}

@[simp] theorem firstsAfter_nil (seen : List κ) : firstsAfter key seen [] = [] := rfl

theorem firstsAfter_cons (seen : List κ) (a : α) (l : List α) :
    firstsAfter key seen (a :: l) =
      if key a ∈ seen then firstsAfter key seen l else a :: firstsAfter key (key a :: seen) l :=
  rfl

theorem firstsAfter_sublist (seen : List κ) (l : List α) :
    (firstsAfter key seen l).Sublist l := by
  induction l generalizing seen with
  | nil => exact List.Sublist.refl []
  | cons a l ih =>
    rw [firstsAfter_cons]
    split
    · exact (ih seen).cons a
    · exact (ih _).cons_cons a

theorem key_notMem_of_mem_firstsAfter {seen : List κ} {l : List α} {a : α}
    (h : a ∈ firstsAfter key seen l) : key a ∉ seen := by
  induction l generalizing seen with
  | nil => simp at h
  | cons b l ih =>
    rw [firstsAfter_cons] at h
    split at h
    · exact ih h
    · next hb =>
      obtain rfl | h := List.mem_cons.mp h
      · exact hb
      · exact fun hseen => ih h (List.mem_cons_of_mem _ hseen)

theorem nodup_firstsAfter (seen : List κ) (l : List α) :
    ((firstsAfter key seen l).map key).Nodup := by
  induction l generalizing seen with
  | nil => exact List.nodup_nil
  | cons a l ih =>
    rw [firstsAfter_cons]
    split
    · exact ih seen
    · rw [List.map_cons, List.nodup_cons]
      refine ⟨fun hmem => ?_, ih _⟩
      obtain ⟨b, hb, hkey⟩ := List.mem_map.mp hmem
      exact key_notMem_of_mem_firstsAfter hb (hkey ▸ List.mem_cons_self ..)

theorem firstsAfter_of_nodup {seen : List κ} {l : List α} (hl : (l.map key).Nodup)
    (hseen : ∀ a ∈ l, key a ∉ seen) : firstsAfter key seen l = l := by
  induction l generalizing seen with
  | nil => rfl
  | cons a l ih =>
    rw [List.map_cons, List.nodup_cons] at hl
    rw [firstsAfter_cons, if_neg (hseen a (List.mem_cons_self ..)), ih hl.2]
    intro b hb hmem
    obtain hsame | hmem := List.mem_cons.mp hmem
    · exact hl.1 (hsame ▸ List.mem_map_of_mem hb)
    · exact hseen b (List.mem_cons_of_mem _ hb) hmem

/-- What is kept of a part of the list is kept of the whole. -/
theorem firstsAfter_isPrefix {seen : List κ} {l m : List α} (h : l <+: m) :
    firstsAfter key seen l <+: firstsAfter key seen m := by
  obtain ⟨rest, rfl⟩ := h
  induction l generalizing seen with
  | nil => exact List.nil_prefix
  | cons a l ih =>
    rw [List.cons_append, firstsAfter_cons, firstsAfter_cons]
    split
    · exact ih
    · exact List.cons_prefix_cons.mpr ⟨rfl, ih⟩

/-- Only which keys were met matters. -/
theorem firstsAfter_congr {seen seen' : List κ} (h : ∀ k, k ∈ seen ↔ k ∈ seen') (l : List α) :
    firstsAfter key seen l = firstsAfter key seen' l := by
  induction l generalizing seen seen' with
  | nil => rfl
  | cons a l ih =>
    have hnext : ∀ k, k ∈ key a :: seen ↔ k ∈ key a :: seen' := fun k => by
      rw [List.mem_cons, List.mem_cons, h k]
    rw [firstsAfter_cons, firstsAfter_cons, ih h, ih hnext]
    simp only [h]

/-- Keeping the first of each key in a list cut in two: the second part has seen the
keys of the first. -/
theorem firstsAfter_append (seen : List κ) (l m : List α) :
    firstsAfter key seen (l ++ m) =
      firstsAfter key seen l ++ firstsAfter key (l.map key ++ seen) m := by
  induction l generalizing seen with
  | nil => rfl
  | cons a l ih =>
    rw [List.cons_append, firstsAfter_cons, firstsAfter_cons]
    split
    · next hseen =>
      -- the key of the element is among those met already
      have hmet : ∀ k, k ∈ l.map key ++ seen ↔ k ∈ (a :: l).map key ++ seen := by
        intro k
        simp only [List.map_cons, List.cons_append, List.mem_cons, List.mem_append]
        constructor
        · exact .inr
        · rintro (rfl | h)
          · exact .inr hseen
          · exact h
      rw [ih, firstsAfter_congr hmet]
    · have hmet : ∀ k, k ∈ l.map key ++ (key a :: seen) ↔ k ∈ (a :: l).map key ++ seen := by
        intro k
        simp only [List.map_cons, List.cons_append, List.mem_cons, List.mem_append]
        tauto
      rw [ih, List.cons_append, firstsAfter_congr hmet]

/-- Every key is kept, by the first element that has it. -/
theorem exists_mem_firstsAfter {seen : List κ} {l : List α} {a : α} (ha : a ∈ l)
    (hseen : key a ∉ seen) : ∃ b ∈ firstsAfter key seen l, key b = key a := by
  induction l generalizing seen with
  | nil => exact absurd ha List.not_mem_nil
  | cons c l ih =>
    rw [firstsAfter_cons]
    by_cases hc : key a = key c
    · rw [← hc, if_neg hseen]
      exact ⟨c, List.mem_cons_self .., hc.symm⟩
    · have hrest : a ∈ l :=
        (List.mem_cons.mp ha).resolve_left fun h => hc (congrArg key h)
      split
      · exact ih hrest hseen
      · have hnew : key a ∉ key c :: seen := fun h => (List.mem_cons.mp h).elim hc hseen
        obtain ⟨b, hb, hkey⟩ := ih hrest hnew
        exact ⟨b, List.mem_cons_of_mem _ hb, hkey⟩

/-- The keys met once the loop has gone through the list. -/
theorem mem_seen_or_firstsAfter {seen : List κ} {l : List α} {k : κ} :
    k ∈ seen ∨ k ∈ (firstsAfter key seen l).map key ↔ k ∈ seen ∨ k ∈ l.map key := by
  constructor
  · refine Or.imp_right fun h => ?_
    exact ((firstsAfter_sublist seen l).map key).subset h
  · rintro (h | h)
    · exact .inl h
    · by_cases hseen : k ∈ seen
      · exact .inl hseen
      · obtain ⟨a, ha, rfl⟩ := List.mem_map.mp h
        obtain ⟨b, hb, hkey⟩ := exists_mem_firstsAfter ha hseen
        exact .inr (List.mem_map.mpr ⟨b, hb, hkey⟩)

/-- There are as many elements kept as there are keys. -/
theorem length_firstsAfter_nil (l : List α) :
    (firstsAfter key [] l).length = (l.map key).dedup.length := by
  have hsame : ∀ k, k ∈ (firstsAfter key [] l).map key ↔ k ∈ (l.map key).dedup := by
    intro k
    have hmet : k ∈ [] ∨ k ∈ (firstsAfter key [] l).map key ↔ k ∈ [] ∨ k ∈ l.map key :=
      mem_seen_or_firstsAfter
    rw [List.mem_dedup]
    simpa only [List.not_mem_nil, false_or] using hmet
  have hperm := (List.perm_ext_iff_of_nodup (nodup_firstsAfter [] l) (List.nodup_dedup _)).mpr hsame
  rw [← hperm.length_eq, List.length_map]

/-- An element is among the first `n` that are kept if its key is new where it stands and fewer
than `n` are kept of what comes before it. -/
theorem mem_take_firstsAfter_iff {seen : List κ} {l : List α} {a : α} {n : Nat} :
    a ∈ (firstsAfter key seen l).take n ↔
      ∃ before after, l = before ++ a :: after ∧ key a ∉ before.map key ++ seen ∧
        (firstsAfter key seen before).length < n := by
  constructor
  · intro h
    induction l generalizing seen n with
    | nil =>
      rw [firstsAfter_nil, List.take_nil] at h
      exact absurd h List.not_mem_nil
    | cons b l ih =>
      rw [firstsAfter_cons] at h
      split at h
      next hb =>
        -- the first key was seen: `b` is passed over
        obtain ⟨before, after, rfl, hnew, hfew⟩ := ih h
        refine ⟨b :: before, after, rfl, ?_, ?_⟩
        · intro hmem
          obtain heq | hmem := List.mem_cons.mp hmem
          · exact hnew (List.mem_append_right _ (heq ▸ hb))
          · exact hnew hmem
        · rwa [firstsAfter_cons, if_pos hb]
      next hb =>
        -- `b` is kept, and its key is seen from here on
        cases n with
        | zero => exact absurd h List.not_mem_nil
        | succ n =>
          rw [List.take_succ_cons] at h
          obtain rfl | h := List.mem_cons.mp h
          · exact ⟨[], l, rfl, hb, Nat.succ_pos n⟩
          · obtain ⟨before, after, rfl, hnew, hfew⟩ := ih h
            refine ⟨b :: before, after, rfl, ?_, ?_⟩
            · intro hmem
              have hmoved : key a ∈ before.map key ++ key b :: seen := by
                rw [List.map_cons, List.cons_append, List.mem_cons, List.mem_append] at hmem
                rw [List.mem_append, List.mem_cons]
                tauto
              exact hnew hmoved
            · rw [firstsAfter_cons, if_neg hb, List.length_cons]
              exact Nat.succ_lt_succ hfew
  · rintro ⟨before, after, rfl, hnew, hfew⟩
    rw [firstsAfter_append, firstsAfter_cons, if_neg hnew, List.take_append]
    -- what is kept before `a` leaves room for it
    have hroom : n - (firstsAfter key seen before).length =
        n - (firstsAfter key seen before).length - 1 + 1 := by omega
    rw [hroom, List.take_succ_cons]
    exact List.mem_append_right _ (List.mem_cons_self ..)

/-- Where one key means one element, every element is kept. -/
theorem mem_firstsAfter_of_agree {l : List α} (h : ∀ a ∈ l, ∀ b ∈ l, key a = key b → a = b)
    {a : α} : a ∈ firstsAfter key [] l ↔ a ∈ l := by
  refine ⟨fun ha => (firstsAfter_sublist [] l).subset ha, fun ha => ?_⟩
  have hnew : key a ∉ ([] : List κ) := List.not_mem_nil
  obtain ⟨b, hb, hkey⟩ := exists_mem_firstsAfter ha hnew
  rwa [← h b ((firstsAfter_sublist [] l).subset hb) a ha hkey]

/-- A block without repeated keys can be reordered. -/
theorem firstsAfter_perm {l l' : List α} (h : l.Perm l') (hl : (l.map key).Nodup)
    (seen : List κ) : (firstsAfter key seen l).Perm (firstsAfter key seen l') := by
  -- without repeated keys only those seen before are left out
  have hfilter : ∀ {m : List α} (_ : (m.map key).Nodup) (seen : List κ),
      firstsAfter key seen m = m.filter fun a => key a ∉ seen := by
    intro m
    induction m with
    | nil => exact fun _ _ => rfl
    | cons a m ih =>
      intro hm seen
      rw [List.map_cons, List.nodup_cons] at hm
      rw [firstsAfter_cons, ih hm.2, ih hm.2, List.filter_cons]
      split
      · next hseen => simp [hseen]
      · next hseen =>
        rw [if_pos (decide_eq_true hseen)]
        congr 1
        refine List.filter_congr fun b hb => ?_
        have hne : key b ≠ key a := fun hkey => hm.1 (hkey ▸ List.mem_map_of_mem hb)
        simp [hne]
  rw [hfilter hl, hfilter ((h.map key).nodup_iff.mp hl)]
  exact h.filter _

theorem firstsAfter_map {β ι : Type*} [DecidableEq ι] {f : α → β} {key' : β → ι} {g : κ → ι}
    (hg : Function.Injective g) (hkey : ∀ a, key' (f a) = g (key a)) (seen : List κ)
    (l : List α) :
    firstsAfter key' (seen.map g) (l.map f) = (firstsAfter key seen l).map f := by
  induction l generalizing seen with
  | nil => rfl
  | cons a l ih =>
    have hmem : key' (f a) ∈ seen.map g ↔ key a ∈ seen := by
      rw [hkey, List.mem_map_of_injective hg]
    have hnext : key' (f a) :: seen.map g = (key a :: seen).map g := by
      rw [hkey, List.map_cons]
    rw [List.map_cons, firstsAfter_cons, firstsAfter_cons, hnext, ih, ih]
    simp only [hmem]
    split <;> rfl

end Keyed

/-! ### Places in an increasing list -/

theorem idxOf_map_of_injective {ι κ : Type*} [DecidableEq ι] [DecidableEq κ] {f : ι → κ}
    (hf : Function.Injective f) (l : List ι) (a : ι) : (l.map f).idxOf (f a) = l.idxOf a := by
  induction l with
  | nil => rfl
  | cons b l ih =>
    rw [List.map_cons]
    by_cases h : b = a
    · rw [h, List.idxOf_cons_self, List.idxOf_cons_self]
    · rw [List.idxOf_cons_ne _ h, List.idxOf_cons_ne _ fun heq => h (hf heq), ih]

section Places

variable {α β κ : Type*} [DecidableEq κ] [LinearOrder β] {key : α → κ} {value : α → β}

theorem idxOf_lt_idxOf_iff {l : List α} (hl : l.Pairwise fun a b => value a < value b)
    (hkey : (l.map key).Nodup) {a b : α} (ha : a ∈ l) (hb : b ∈ l) :
    (l.map key).idxOf (key a) < (l.map key).idxOf (key b) ↔ value a < value b := by
  induction l with
  | nil => exact absurd ha List.not_mem_nil
  | cons c l ih =>
    obtain ⟨hfirst, hl⟩ := List.pairwise_cons.mp hl
    rw [List.map_cons, List.nodup_cons] at hkey
    have hne {d : α} (hd : d ∈ l) : key c ≠ key d := fun h =>
      hkey.1 (h ▸ List.mem_map_of_mem hd)
    rw [List.map_cons]
    obtain rfl | ha' := List.mem_cons.mp ha <;> obtain rfl | hb' := List.mem_cons.mp hb
    · exact iff_of_false (Nat.lt_irrefl _) (lt_irrefl _)
    · simp [List.idxOf_cons_ne _ (hne hb'), hfirst b hb']
    · simp [List.idxOf_cons_ne _ (hne ha'), lt_asymm (hfirst a ha')]
    · rw [List.idxOf_cons_ne _ (hne ha'), List.idxOf_cons_ne _ (hne hb'), Nat.succ_lt_succ_iff]
      exact ih hl hkey.2 ha' hb'

/-- In a sorted list without repeated keys the place of an element is the number of
those below it. -/
theorem idxOf_eq_countP {l : List α} (hl : l.Pairwise fun a b => value a < value b)
    (hkey : (l.map key).Nodup) {a : α} (ha : a ∈ l) :
    (l.map key).idxOf (key a) = l.countP fun b => value b < value a := by
  induction l with
  | nil => exact absurd ha List.not_mem_nil
  | cons c l ih =>
    obtain ⟨hfirst, hl⟩ := List.pairwise_cons.mp hl
    rw [List.map_cons, List.nodup_cons] at hkey
    rw [List.map_cons]
    obtain rfl | ha := List.mem_cons.mp ha
    · -- nothing is smaller than the first element
      have hnone : ∀ b ∈ a :: l, ¬ value b < value a := by
        intro b hb
        obtain rfl | hb := List.mem_cons.mp hb
        · exact lt_irrefl _
        · exact lt_asymm (hfirst b hb)
      rw [List.idxOf_cons_self, eq_comm, List.countP_eq_zero]
      exact fun b hb => by simpa using hnone b hb
    · have hne : key c ≠ key a := fun h => hkey.1 (h ▸ List.mem_map_of_mem ha)
      have hsmaller : decide (value c < value a) = true := decide_eq_true (hfirst a ha)
      rw [List.idxOf_cons_ne _ hne, ih hl hkey.2 ha,
        List.countP_cons_of_pos (p := fun b => decide (value b < value a)) hsmaller]

/-- Where no element is in front of one it is related to, the related one comes
first. -/
theorem idxOf_lt_of_pairwise {R : α → α → Prop} {l : List α} (hl : l.Pairwise fun a b => ¬ R a b)
    (hkey : (l.map key).Nodup) {a b : α} (ha : a ∈ l) (hb : b ∈ l) (h : R a b)
    (hne : key a ≠ key b) : (l.map key).idxOf (key b) < (l.map key).idxOf (key a) := by
  induction l with
  | nil => exact absurd ha List.not_mem_nil
  | cons c l ih =>
    obtain ⟨hfirst, hl⟩ := List.pairwise_cons.mp hl
    rw [List.map_cons] at hkey ⊢
    obtain ⟨honce, hkey⟩ := List.nodup_cons.mp hkey
    by_cases hc : key c = key b
    · rw [hc, List.idxOf_cons_self, List.idxOf_cons_ne _ hne.symm]
      exact Nat.succ_pos _
    have hb' : b ∈ l := (List.mem_cons.mp hb).resolve_left fun heq => hc (congrArg key heq.symm)
    obtain rfl | ha' := List.mem_cons.mp ha
    · exact absurd h (hfirst b hb')
    · have hca : key c ≠ key a := fun heq => honce (heq ▸ List.mem_map_of_mem ha')
      rw [List.idxOf_cons_ne _ hc, List.idxOf_cons_ne _ hca]
      exact Nat.succ_lt_succ (ih hl hkey ha' hb')

end Places

end PyLib
