import Mathlib.Data.List.Nodup

/-!
# Tables with a primary key

`Table key` is a list of rows no two of which agree on `key`. Rows are read by
`get?`, added by `insert?`, which refuses a key that is taken, and rewritten in
place by `rewrite`, with a function that keeps the key. Every law is stated in
terms of `get?`.
-/

namespace PyLib

variable {ρ κ : Type} [DecidableEq κ]

/-- Rows with pairwise different keys. -/
structure Table (key : ρ → κ) where
  rows : List ρ
  nodup : (rows.map key).Nodup

/-- A function on rows that keeps the key. -/
structure Rewrite (key : ρ → κ) where
  apply : ρ → ρ
  key_apply : ∀ r, key (apply r) = key r := by intro r; rfl

namespace Table

variable {key : ρ → κ}

instance : Inhabited (Table key) := ⟨⟨[], List.nodup_nil⟩⟩

/-- The row with the key. -/
def get? (t : Table key) (k : κ) : Option ρ := t.rows.find? fun r => key r = k

/-- Add a row under a new key. -/
def insert? (t : Table key) (r : ρ) : Option (Table key) :=
  if h : key r ∈ t.rows.map key then none
  else some ⟨t.rows ++ [r], by
    rw [List.map_append, List.map_singleton]
    exact t.nodup.append (List.nodup_singleton _) fun k hk hr => by
      rw [List.mem_singleton.mp hr] at hk
      exact h hk⟩

/-- Rewrite the row with the key. -/
def rewrite (t : Table key) (k : κ) (f : Rewrite key) : Table key :=
  ⟨t.rows.map fun r => if key r = k then f.apply r else r, by
    have h : ((t.rows.map fun r => if key r = k then f.apply r else r).map key) =
        t.rows.map key := by
      rw [List.map_map]
      refine List.map_congr_left ?_
      intro r _
      show key (if key r = k then f.apply r else r) = key r
      split
      · exact f.key_apply r
      · rfl
    rw [h]
    exact t.nodup⟩

/-- Rewrite every row. -/
def rewriteAll (t : Table key) (f : Rewrite key) : Table key :=
  ⟨t.rows.map f.apply, by
    have h : (t.rows.map f.apply).map key = t.rows.map key := by
      rw [List.map_map]
      exact List.map_congr_left fun r _ => f.key_apply r
    rw [h]
    exact t.nodup⟩

/-- `UPDATE … WHERE key = k AND guard … RETURNING`: the row written, if one
was. -/
def updateWhere? (t : Table key) (k : κ) (guard : ρ → Bool) (f : Rewrite key) :
    Option (Table key × ρ) :=
  (t.get? k).bind fun r => if guard r then some (t.rewrite k f, f.apply r) else none

variable {t : Table key} {k k' : κ} {r : ρ}

theorem key_of_get? (h : t.get? k = some r) : key r = k := by
  have := List.find?_some h
  simpa using this

theorem mem_of_get? (h : t.get? k = some r) : r ∈ t.rows := List.mem_of_find?_eq_some h

/-- A row is read back under its own key. -/
theorem get?_eq_some_iff : t.get? k = some r ↔ r ∈ t.rows ∧ key r = k := by
  constructor
  · intro h
    exact ⟨mem_of_get? h, key_of_get? h⟩
  · rintro ⟨hr, rfl⟩
    cases hfind : t.get? (key r) with
    | none =>
      exact absurd (decide_eq_true rfl) (List.find?_eq_none.mp hfind r hr)
    | some r' =>
      have hkey : key r' = key r := key_of_get? hfind
      rw [List.inj_on_of_nodup_map t.nodup (mem_of_get? hfind) hr hkey]

theorem get?_of_mem (h : r ∈ t.rows) : t.get? (key r) = some r :=
  get?_eq_some_iff.mpr ⟨h, rfl⟩

theorem get?_eq_none_iff : t.get? k = none ↔ k ∉ t.rows.map key := by
  simp [get?, List.find?_eq_none]

theorem insert?_eq_some_iff {u : Table key} :
    t.insert? r = some u ↔ t.get? (key r) = none ∧ u.rows = t.rows ++ [r] := by
  unfold insert?
  split
  · next h =>
    simp only [reduceCtorEq, false_iff, not_and]
    intro hnone
    exact absurd h (get?_eq_none_iff.mp hnone)
  · next h =>
    simp only [Option.some.injEq, get?_eq_none_iff.mpr h, true_and]
    constructor
    · rintro rfl
      rfl
    · intro hrows
      obtain ⟨rows, hnodup⟩ := u
      simp only at hrows
      subst hrows
      rfl

/-- A new key is not refused. -/
theorem exists_insert? (h : t.get? (key r) = none) : ∃ u, t.insert? r = some u := by
  rw [insert?, dif_neg (get?_eq_none_iff.mp h)]
  exact ⟨_, rfl⟩

/-- Reading after an insertion. -/
theorem get?_insert? {u : Table key} (h : t.insert? r = some u) (k : κ) :
    u.get? k = if key r = k then some r else t.get? k := by
  obtain ⟨hnone, hrows⟩ := insert?_eq_some_iff.mp h
  simp only [get?, hrows, List.find?_append]
  by_cases hk : key r = k
  · subst hk
    have hfind : t.rows.find? (fun r' => decide (key r' = key r)) = none := hnone
    simp [hfind]
  · simp [hk]

/-- Reading after a rewrite. -/
theorem get?_rewrite (t : Table key) (k : κ) (f : Rewrite key) (k' : κ) :
    (t.rewrite k f).get? k' = if k = k' then (t.get? k').map f.apply else t.get? k' := by
  have hkey : ∀ r, key (if key r = k then f.apply r else r) = key r := by
    intro r
    split
    · exact f.key_apply r
    · rfl
  simp only [get?, rewrite, List.find?_map, Function.comp_def, hkey]
  cases hfind : t.rows.find? (fun r => decide (key r = k')) with
  | none => simp
  | some r =>
    have hr : key r = k' := by simpa using List.find?_some hfind
    by_cases hk : k = k'
    · simp [hr, hk]
    · simp [hr, hk, Ne.symm hk]

/-- A row read after a rewrite, and the row it was before. -/
theorem get?_rewrite_eq_some_iff {f : Rewrite key} {r' : ρ} :
    (t.rewrite k f).get? k' = some r' ↔
      ∃ r, t.get? k' = some r ∧ (k = k' ∧ r' = f.apply r ∨ k ≠ k' ∧ r' = r) := by
  rw [get?_rewrite]
  split
  · next h =>
    subst h
    simp only [Option.map_eq_some_iff, true_and, ne_eq, not_true_eq_false, false_and, or_false]
    exact exists_congr fun r => and_congr_right fun _ => eq_comm
  · next h => simp [h]

theorem get?_rewrite_of_ne (f : Rewrite key) (h : k ≠ k') :
    (t.rewrite k f).get? k' = t.get? k' := by
  rw [get?_rewrite, if_neg h]

theorem get?_rewrite_self (f : Rewrite key) (h : t.get? k = some r) :
    (t.rewrite k f).get? k = some (f.apply r) := by
  rw [get?_rewrite, if_pos rfl, h]
  rfl

theorem get?_rewriteAll (t : Table key) (f : Rewrite key) (k : κ) :
    (t.rewriteAll f).get? k = (t.get? k).map f.apply := by
  simp only [get?, rewriteAll, List.find?_map, Function.comp_def, f.key_apply]

theorem updateWhere?_eq_some_iff {guard : ρ → Bool} {f : Rewrite key} {u : Table key} {r' : ρ} :
    t.updateWhere? k guard f = some (u, r') ↔
      ∃ r, t.get? k = some r ∧ guard r = true ∧ u = t.rewrite k f ∧ r' = f.apply r := by
  unfold updateWhere?
  cases t.get? k with
  | none => simp
  | some r =>
    simp only [Option.bind_some, Option.some.injEq, exists_eq_left']
    split
    · next h => simp [h, eq_comm]
    · next h => simp [h]

end Table

end PyLib
