import Mathlib.Logic.Relation

/-!
# Lookup by name, with a fallback

Names are answered by things: `F k i` says that `i` answers to the name `k`. A
lookup tries a name, and where nothing answers to it the fallback of the name. It
is definite if it finds one thing at most: in whatever order it sees the things,
it then finds the same one.

`Grows` is how a registry that is filled by its own lookups grows: a name that
finds nothing is given to a new thing, and a name that was found by its fallback
is given to what was found. `Grows.finds` and `Grows.definite` say that such a
registry never changes an answer. A name that is given out otherwise must not be
contested (`Adds.finds`, `Adds.definite`).
-/

namespace PyLib

variable {κ ι : Type*}

/-- Something answers to the name. -/
def Answered (F : κ → ι → Prop) (k : κ) : Prop :=
  ∃ i, F k i

/-- What the lookup of a name may find. -/
def Finds (fallback : κ → Option κ) (F : κ → ι → Prop) (k : κ) (i : ι) : Prop :=
  F k i ∨ ¬Answered F k ∧ ∃ f, fallback k = some f ∧ F f i

/-- The lookup of the name finds one thing at most. -/
def Definite (fallback : κ → Option κ) (F : κ → ι → Prop) (k : κ) : Prop :=
  ∀ i j, Finds fallback F k i → Finds fallback F k j → i = j

/-- `i` begins to answer to `k`, and nothing else changes. -/
def Adds (F G : κ → ι → Prop) (k : κ) (i : ι) : Prop :=
  ∀ k' j, G k' j ↔ F k' j ∨ k' = k ∧ j = i

/-- A new thing under the name `n` would be found by the lookup of `k`, which
finds something already. -/
def Contests (fallback : κ → Option κ) (F : κ → ι → Prop) (n k : κ) : Prop :=
  (n = k ∧ ∃ i, Finds fallback F k i) ∨
    (¬Answered F k ∧ fallback k = some n ∧ Answered F n)

section Adds

variable {fallback : κ → Option κ} {F G : κ → ι → Prop} {k n : κ} {i j : ι}

theorem Adds.answered (h : Adds F G n i) : Answered G k ↔ Answered F k ∨ k = n := by
  constructor
  · rintro ⟨j, hj⟩
    rcases (h k j).mp hj with hold | ⟨hk, -⟩
    · exact Or.inl ⟨j, hold⟩
    · exact Or.inr hk
  · rintro (⟨j, hj⟩ | rfl)
    · exact ⟨j, (h k j).mpr (Or.inl hj)⟩
    · exact ⟨i, (h k i).mpr (Or.inr ⟨rfl, rfl⟩)⟩

/-- A name that is not contested does not change what is found. -/
theorem Adds.finds (h : Adds F G n i) (hfree : ¬Contests fallback F n k)
    (hfinds : Finds fallback F k j) : Finds fallback G k j := by
  rcases hfinds with hdirect | ⟨hnone, f, hf, hanswer⟩
  · exact Or.inl ((h k j).mpr (Or.inl hdirect))
  · have hne : k ≠ n := by
      rintro rfl
      exact hfree (Or.inl ⟨rfl, j, Or.inr ⟨hnone, f, hf, hanswer⟩⟩)
    refine Or.inr ⟨?_, f, hf, (h f j).mpr (Or.inl hanswer)⟩
    rw [h.answered]
    rintro (hold | hk)
    · exact hnone hold
    · exact hne hk

/-- A name that is not contested leaves a lookup definite. -/
theorem Adds.definite (h : Adds F G n i) (hfree : ¬Contests fallback F n k)
    (hdefinite : Definite fallback F k) : Definite fallback G k := by
  -- what is found after was found before, or is the new thing where nothing was
  have hback : ∀ {j}, Finds fallback G k j →
      Finds fallback F k j ∨ j = i ∧ ∀ j', ¬Finds fallback F k j' := by
    rintro j (hdirect | ⟨hnone, f, hf, hanswer⟩)
    · rcases (h k j).mp hdirect with hold | ⟨rfl, rfl⟩
      · exact Or.inl (Or.inl hold)
      · refine Or.inr ⟨rfl, fun j' hj' => hfree (Or.inl ⟨rfl, j', hj'⟩)⟩
    · have hnoneF : ¬Answered F k := fun hold => hnone (h.answered.mpr (Or.inl hold))
      rcases (h f j).mp hanswer with hold | ⟨rfl, rfl⟩
      · exact Or.inl (Or.inr ⟨hnoneF, f, hf, hold⟩)
      · refine Or.inr ⟨rfl, ?_⟩
        rintro j' (hdirect | ⟨-, f', hf', hanswer'⟩)
        · exact hnoneF ⟨j', hdirect⟩
        · rw [hf] at hf'
          cases hf'
          exact hfree (Or.inr ⟨hnoneF, hf, j', hanswer'⟩)
  intro a b ha hb
  rcases hback ha with ha | ⟨rfl, hnothing⟩
  · rcases hback hb with hb | ⟨-, hnothing⟩
    · exact hdefinite a b ha hb
    · exact absurd ha (hnothing a)
  · rcases hback hb with hb | ⟨rfl, -⟩
    · exact absurd hb (hnothing b)
    · rfl

end Adds

/-! ### A registry filled by its own lookups -/

/-- One name given out by a lookup. -/
inductive Names (fallback : κ → Option κ) (F G : κ → ι → Prop) : Prop
  | new (n : κ) (i : ι) (hnothing : ∀ j, ¬Finds fallback F n j) (h : Adds F G n i)
  | also (n f : κ) (i : ι) (hnone : ¬Answered F n) (hf : fallback n = some f) (hi : F f i)
      (h : Adds F G n i)

/-- Names given out by lookups, one after the other. -/
def Grows (fallback : κ → Option κ) : (κ → ι → Prop) → (κ → ι → Prop) → Prop :=
  Relation.ReflTransGen (Names fallback)

section Grows

variable {fallback : κ → Option κ} {F G : κ → ι → Prop} {k : κ} {i : ι}

/-- A new name contests nothing. -/
theorem not_contests_of_nothing {n : κ} (hnothing : ∀ j, ¬Finds fallback F n j) :
    ¬Contests fallback F n k := by
  rintro (⟨rfl, j, hj⟩ | ⟨-, -, j, hj⟩)
  · exact hnothing j hj
  · exact hnothing j (Or.inl hj)

theorem Names.finds (h : Names fallback F G) (hdefinite : Definite fallback F k)
    (hfinds : Finds fallback F k i) : Finds fallback G k i := by
  cases h with
  | new n i' hnothing h => exact h.finds (not_contests_of_nothing hnothing) hfinds
  | also n f i' hnone hf hi h =>
    by_cases hk : k = n
    · -- the name was found by its fallback, and is found by itself now
      subst hk
      rw [hdefinite i i' hfinds (Or.inr ⟨hnone, f, hf, hi⟩)]
      exact Or.inl ((h k i').mpr (Or.inr ⟨rfl, rfl⟩))
    · refine h.finds ?_ hfinds
      rintro (⟨hn, -⟩ | ⟨-, -, hanswered⟩)
      · exact hk hn.symm
      · exact hnone hanswered

/-- A name that was definite stays so when a lookup gives out another one. -/
theorem Names.definite (h : Names fallback F G) (hdefinite : Definite fallback F k) :
    Definite fallback G k := by
  cases h with
  | new n i' hnothing h => exact h.definite (not_contests_of_nothing hnothing) hdefinite
  | also n f i' hnone hf hi h =>
    by_cases hk : k = n
    · subst hk
      have honly : ∀ j, Finds fallback G k j → j = i' := by
        rintro j (hdirect | ⟨hnone', -⟩)
        · rcases (h k j).mp hdirect with hold | ⟨-, hj⟩
          · exact absurd ⟨j, hold⟩ hnone
          · exact hj
        · exact absurd (h.answered.mpr (Or.inr rfl)) hnone'
      intro a b ha hb
      rw [honly a ha, honly b hb]
    · refine h.definite ?_ hdefinite
      rintro (⟨hn, -⟩ | ⟨-, -, hanswered⟩)
      · exact hk hn.symm
      · exact hnone hanswered

theorem Grows.definite (h : Grows fallback F G) (hdefinite : Definite fallback F k) :
    Definite fallback G k := by
  induction h with
  | refl => exact hdefinite
  | tail _ hstep ih => exact hstep.definite ih

/-- What a definite lookup finds, it finds ever after. -/
theorem Grows.finds (h : Grows fallback F G) (hdefinite : Definite fallback F k)
    (hfinds : Finds fallback F k i) : Finds fallback G k i := by
  induction h with
  | refl => exact hfinds
  | tail hfirst hstep ih => exact hstep.finds (Grows.definite hfirst hdefinite) ih

end Grows

end PyLib
