import Mathlib.Data.List.Basic

/-!
# Conditional updates of a table

`UPDATE … SET f WHERE p` on the list of rows of a table, its row count, and
the form a trigger guards.

* `sweep` — every row that meets the condition is rewritten;
* `swept` — the row count;
* `guardedSweep` — the rows are rewritten one by one, each rewrite admitted or
  refused by a trigger that sees the table as it stands then.

An update is *settling* when no row it writes meets its condition again. A
second run of a settling update does nothing, and so does a run after any
other update that wakes none of the rows at rest (`AtRest.sweep`).
-/

namespace PyLib

variable {ρ : Type*}

/-- `UPDATE … SET f WHERE p`. -/
def sweep (p : ρ → Bool) (f : ρ → ρ) (rows : List ρ) : List ρ :=
  rows.map fun r => if p r then f r else r

/-- The row count of the update. -/
def swept (p : ρ → Bool) (rows : List ρ) : Nat := rows.countP p

/-- The update under a trigger, `done` being the rows already passed. -/
def guardedSweep (guard : List ρ → ρ → ρ → Bool) (p : ρ → Bool) (f : ρ → ρ) :
    List ρ → List ρ → Option (List ρ)
  | done, [] => some done
  | done, r :: rest =>
    if p r then
      if guard (done ++ r :: rest) r (f r) then guardedSweep guard p f (done ++ [f r]) rest
      else none
    else guardedSweep guard p f (done ++ [r]) rest

/-- No row meets the condition. -/
def AtRest (p : ρ → Bool) (rows : List ρ) : Prop := ∀ r ∈ rows, p r = false

section

variable {p q : ρ → Bool} {f g : ρ → ρ} {rows : List ρ}

theorem mem_sweep {r : ρ} :
    r ∈ sweep p f rows ↔ ∃ r₀ ∈ rows, (if p r₀ then f r₀ else r₀) = r :=
  List.mem_map

theorem AtRest.sweep_eq (h : AtRest p rows) : sweep p f rows = rows := by
  unfold sweep
  rw [List.map_congr_left (g := id) fun r hr => by simp [h r hr], List.map_id]

theorem AtRest.swept_eq (h : AtRest p rows) : swept p rows = 0 :=
  List.countP_eq_zero.mpr fun r hr => by simp [h r hr]

theorem atRest_of_swept (h : swept p rows = 0) : AtRest p rows := fun r hr => by
  simpa using List.countP_eq_zero.mp h r hr

/-- A settling update leaves its own rows at rest. -/
theorem atRest_sweep (hsettle : ∀ r, p r = true → p (f r) = false) : AtRest p (sweep p f rows) := by
  intro r hr
  obtain ⟨r₀, _, rfl⟩ := mem_sweep.mp hr
  split
  · next h => exact hsettle r₀ h
  · next h => simpa using h

/-- Another update that wakes no row keeps the table at rest. -/
theorem AtRest.sweep (h : AtRest p rows)
    (hkeep : ∀ r ∈ rows, q r = true → p r = false → p (g r) = false) :
    AtRest p (sweep q g rows) := by
  intro r hr
  obtain ⟨r₀, hr₀, rfl⟩ := mem_sweep.mp hr
  split
  · next hq => exact hkeep r₀ hr₀ hq (h r₀ hr₀)
  · exact h r₀ hr₀

/-- An update that keeps a property of the rows commutes with selecting them by
it. -/
theorem filter_sweep (h : ∀ r, q (f r) = q r) :
    (PyLib.sweep p f rows).filter q = PyLib.sweep p f (rows.filter q) := by
  have hkeep : (q ∘ fun r => if p r then f r else r) = q := by
    funext r
    rw [Function.comp_apply]
    split
    · exact h r
    · rfl
  rw [PyLib.sweep, List.filter_map, hkeep, PyLib.sweep]

/-- A guarded update that goes through is the plain one, and the trigger has
admitted each rewrite. -/
theorem guardedSweep_some {guard : List ρ → ρ → ρ → Bool} {done rest result : List ρ}
    (h : guardedSweep guard p f done rest = some result) :
    result = done ++ PyLib.sweep p f rest ∧
      ∀ r ∈ rest, p r = true → ∃ table, guard table r (f r) = true := by
  -- Induction on the rows not yet passed.
  induction rest generalizing done with
  | nil =>
    simp only [guardedSweep, Option.some.injEq] at h
    simp [PyLib.sweep, h]
  | cons r rest ih =>
    simp only [guardedSweep] at h
    split at h
    · next hp =>
      split at h
      · next hguard =>
        obtain ⟨rfl, hrest⟩ := ih h
        refine ⟨by simp [PyLib.sweep, hp], ?_⟩
        intro r' hr' hp'
        rcases List.mem_cons.mp hr' with rfl | hr'
        · exact ⟨_, hguard⟩
        · exact hrest r' hr' hp'
      · cases h
    · next hp =>
      obtain ⟨rfl, hrest⟩ := ih h
      refine ⟨by simp [PyLib.sweep, hp], ?_⟩
      intro r' hr' hp'
      rcases List.mem_cons.mp hr' with rfl | hr'
      · exact absurd hp' hp
      · exact hrest r' hr' hp'

/-- An update with nothing to do asks no trigger. -/
theorem AtRest.guardedSweep_eq {guard : List ρ → ρ → ρ → Bool} (h : AtRest p rows)
    (done : List ρ) : guardedSweep guard p f done rows = some (done ++ rows) := by
  induction rows generalizing done with
  | nil => simp [guardedSweep]
  | cons r rows ih =>
    have hr : p r = false := h r (by simp)
    rw [guardedSweep, if_neg (by simp [hr]), ih fun r' hr' => h r' (by simp [hr'])]
    simp

end

end PyLib
