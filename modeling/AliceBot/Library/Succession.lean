import Mathlib.Logic.Function.Basic
import AliceBot.Library.PointerGraph

/-!
# Records that are retired and succeeded

A collection of records, each in some state, each with at most one pointer to
the record that succeeded it. Some states are retired. Three things happen to
a collection: a record is added, a live record without a pointer changes its
state, and such a record is retired in favour of another live record without
one.

`Evolves` is one such step. It keeps a collection `Sound`: only retired records
point somewhere, and no walk along pointers returns to where it started. And it
never touches a retired record. `Develops` is any number of steps that retire
none but some given records.
-/

namespace PyLib

open Relation

/-- The state and the pointer of each record. -/
abbrev Records (ι S : Type*) := ι → Option (S × Option ι)

variable {ι S : Type*} {retired : S → Prop}

/-- The pointers of a collection. -/
def Records.next (v : Records ι S) (i : ι) : Option ι := (v i).bind (·.2)

/-- A record that is live and points nowhere. -/
def Records.Open (retired : S → Prop) (v : Records ι S) (i : ι) : Prop :=
  ∃ state, v i = some (state, none) ∧ ¬ retired state

/-- Pointers come from retired records, and walks along them do not return. -/
structure Records.Sound (retired : S → Prop) (v : Records ι S) : Prop where
  retired_of_next : ∀ i state j, v i = some (state, some j) → retired state
  acyclic : Acyclic v.next

/-- One step of a collection. -/
inductive Evolves [DecidableEq ι] (retired : S → Prop) : Records ι S → Records ι S → Prop
  | insert {v : Records ι S} {i : ι} {state : S} (hnew : v i = none) :
      Evolves retired v (Function.update v i (some (state, none)))
  | restate {v : Records ι S} {i : ι} {state : S} (hopen : v.Open retired i) :
      Evolves retired v (Function.update v i (some (state, none)))
  | succeed {v : Records ι S} {i j : ι} {state : S} (hopen : v.Open retired i)
      (hsuccessor : v.Open retired j) (hne : i ≠ j) (hretired : retired state) :
      Evolves retired v (Function.update v i (some (state, some j)))

namespace Records

variable {v w : Records ι S}

/-- A live record of a sound collection points nowhere. -/
theorem Sound.open_of_live (h : v.Sound retired) {i : ι} {state : S} {pointer : Option ι}
    (hi : v i = some (state, pointer)) (hlive : ¬ retired state) : v.Open retired i := by
  cases pointer with
  | none => exact ⟨state, hi, hlive⟩
  | some j => exact absurd (h.retired_of_next i state j hi) hlive

theorem sound_of_no_pointers (h : ∀ i state pointer, v i = some (state, pointer) → pointer = none) :
    v.Sound retired where
  retired_of_next i state j hi := absurd (h i state _ hi) (by simp)
  acyclic := by
    refine Acyclic.of_none ?_
    intro i
    cases hi : v i with
    | none => simp [next, hi]
    | some record =>
      obtain ⟨state, pointer⟩ := record
      obtain rfl := h i state pointer hi
      simp [next, hi]

variable [DecidableEq ι]

/-- A record without a pointer is put where no pointer was. -/
theorem Sound.update_none (h : v.Sound retired) {i : ι} {state : S} :
    Sound retired (Function.update v i (some (state, none))) where
  retired_of_next k st j hk := by
    by_cases hki : k = i
    · subst hki
      rw [Function.update_self] at hk
      exact absurd (congrArg (·.map (·.2)) hk) (by simp)
    · rw [Function.update_of_ne hki] at hk
      exact h.retired_of_next k st j hk
  acyclic := by
    refine h.acyclic.of_subset ?_
    intro a b hab
    by_cases hai : a = i
    · subst hai
      simp [next] at hab
    · simpa [next, Function.update_of_ne hai] using hab

/-- Retiring an element in favour of an open one keeps the succession sound: the new
pointer closes no cycle, since an open element points nowhere. -/
theorem Sound.update_some (h : v.Sound retired) {i j : ι} {state : S}
    (hj : v.Open retired j) (hne : i ≠ j) (hretired : retired state) :
    Sound retired (Function.update v i (some (state, some j))) where
  retired_of_next k st l hk := by
    by_cases hki : k = i
    · subst hki
      rw [Function.update_self] at hk
      obtain ⟨rfl, -⟩ := Prod.mk.inj (Option.some.inj hk)
      exact hretired
    · rw [Function.update_of_ne hki] at hk
      exact h.retired_of_next k st l hk
  acyclic := by
    obtain ⟨st, hst, -⟩ := hj
    refine h.acyclic.of_new_pointer (a := i) (b := j) ?_ ?_
    · -- the successor points nowhere
      simp [next, Function.update_of_ne hne.symm, hst]
    · intro x y hxy
      by_cases hxi : x = i
      · subst hxi
        right
        simpa [next, eq_comm] using hxy
      · left
        simpa [next, Function.update_of_ne hxi] using hxy

end Records

namespace Evolves

variable [DecidableEq ι] {v w : Records ι S}

theorem sound (hstep : Evolves retired v w) (h : v.Sound retired) : w.Sound retired := by
  cases hstep with
  | insert hnew => exact h.update_none
  | restate hopen => exact h.update_none
  | succeed hopen hsuccessor hne hretired => exact h.update_some hsuccessor hne hretired

/-- A retired record is never touched. -/
theorem of_retired (hstep : Evolves retired v w) {i : ι} {state : S} {pointer : Option ι}
    (hi : v i = some (state, pointer)) (hretired : retired state) :
    w i = some (state, pointer) := by
  have hne : ∀ {k : ι}, v.Open retired k → i ≠ k := by
    rintro k ⟨st, hst, hlive⟩ rfl
    rw [hi] at hst
    obtain ⟨rfl, -⟩ := Prod.mk.inj (Option.some.inj hst)
    exact hlive hretired
  cases hstep with
  | @insert k _ hnew =>
    have hik : i ≠ k := by
      rintro rfl
      rw [hi] at hnew
      exact absurd hnew (by simp)
    rw [Function.update_of_ne hik, hi]
  | restate hopen => rw [Function.update_of_ne (hne hopen), hi]
  | succeed hopen => rw [Function.update_of_ne (hne hopen), hi]

theorem sound_star (hsteps : ReflTransGen (Evolves retired) v w) (h : v.Sound retired) :
    w.Sound retired := by
  induction hsteps with
  | refl => exact h
  | tail _ hstep ih => exact hstep.sound ih

theorem of_retired_star (hsteps : ReflTransGen (Evolves retired) v w) {i : ι} {state : S}
    {pointer : Option ι} (hi : v i = some (state, pointer)) (hretired : retired state) :
    w i = some (state, pointer) := by
  induction hsteps with
  | refl => exact hi
  | tail _ hstep ih => exact hstep.of_retired ih hretired

end Evolves

/-! ### Developments -/

variable [DecidableEq ι]

/-- Any number of steps. An open record stays open unless it is one of those
that may be retired. -/
structure Develops (retired : S → Prop) (mayRetire : ι → Prop) (v w : Records ι S) : Prop where
  steps : ReflTransGen (Evolves retired) v w
  keeps : ∀ i, ¬ mayRetire i → v.Open retired i → w.Open retired i

namespace Develops

variable {v w x : Records ι S} {mayRetire : ι → Prop}

theorem refl (v : Records ι S) : Develops retired mayRetire v v :=
  ⟨.refl, fun _ _ h => h⟩

theorem trans (hvw : Develops retired mayRetire v w) (hwx : Develops retired mayRetire w x) :
    Develops retired mayRetire v x :=
  ⟨hvw.steps.trans hwx.steps, fun i hi h => hwx.keeps i hi (hvw.keeps i hi h)⟩

theorem mono {mayRetire' : ι → Prop} (h : Develops retired mayRetire v w)
    (hle : ∀ i, mayRetire i → mayRetire' i) : Develops retired mayRetire' v w :=
  ⟨h.steps, fun i hi => h.keeps i fun hret => hi (hle i hret)⟩

theorem sound (h : Develops retired mayRetire v w) (hv : v.Sound retired) : w.Sound retired :=
  Evolves.sound_star h.steps hv

/-- A new record. -/
theorem insert {i : ι} {state : S} (hnew : v i = none) :
    Develops retired mayRetire v (Function.update v i (some (state, none))) where
  steps := .single (.insert hnew)
  keeps k _ := by
    rintro ⟨st, hst, hlive⟩
    have hne : k ≠ i := by
      rintro rfl
      rw [hnew] at hst
      exact absurd hst (by simp)
    exact ⟨st, by rw [Function.update_of_ne hne, hst], hlive⟩

/-- An open record in another state. -/
theorem restate {i : ι} {state : S} (hopen : v.Open retired i)
    (hstate : retired state → mayRetire i) :
    Develops retired mayRetire v (Function.update v i (some (state, none))) where
  steps := .single (.restate hopen)
  keeps k hk := by
    rintro ⟨st, hst, hlive⟩
    by_cases hki : k = i
    · subst hki
      exact ⟨state, Function.update_self .., fun hret => hk (hstate hret)⟩
    · exact ⟨st, by rw [Function.update_of_ne hki, hst], hlive⟩

/-- An open record retired in favour of another. -/
theorem succeed {i j : ι} {state : S} (hopen : v.Open retired i)
    (hsuccessor : v.Open retired j) (hne : i ≠ j) (hretired : retired state)
    (hmay : mayRetire i) :
    Develops retired mayRetire v (Function.update v i (some (state, some j))) where
  steps := .single (.succeed hopen hsuccessor hne hretired)
  keeps k hk := by
    rintro ⟨st, hst, hlive⟩
    have hki : k ≠ i := by
      rintro rfl
      exact hk hmay
    exact ⟨st, by rw [Function.update_of_ne hki, hst], hlive⟩

end Develops

end PyLib
