import AliceBot.Library.JsonText
import Mathlib.Data.List.Sort
import Mathlib.Order.Defs.LinearOrder
import Mathlib.Data.String.Basic

/-!
# The order of members

Two JSON values are the same up to the order of their members when their
objects have the same keys, under each of them the same value. `SameUpTo`
moreover leaves members of ignored names out of account, at every depth.

`deleteKeys` deletes those members and `sortKeys` sorts the others, so that
values which are the same become equal (`sortKeys_deleteKeys_eq_iff`).
-/

namespace PyLib

/-! ### Dictionaries sorted by key -/

namespace Dict

variable {β : Type*}

/-- Sorted by key. -/
def KeyLE (a b : String × β) : Prop := a.1 ≤ b.1

instance : DecidableRel (KeyLE (β := β)) := fun a b => inferInstanceAs (Decidable (a.1 ≤ b.1))

instance : Std.Total (KeyLE (β := β)) := ⟨fun a b => le_total a.1 b.1⟩

instance : IsTrans (String × β) KeyLE := ⟨fun _ _ _ => le_trans⟩

/-- `sorted(d.items())`, of distinct keys. -/
def sortByKey (d : Dict β) : Dict β := d.insertionSort KeyLE

theorem get?_eq_some_iff_mem {d : Dict β} (h : (d.map Prod.fst).Nodup) {key : String} {value : β} :
    d.get? key = some value ↔ (key, value) ∈ d := by
  induction d with
  | nil => simp
  | cons item d ih =>
    obtain ⟨k, v⟩ := item
    obtain ⟨hk, hd⟩ := List.nodup_cons.mp h
    rw [get?_cons]
    split
    · next hkey =>
      subst hkey
      have hnot : (k, value) ∉ d := fun hmem => hk (List.mem_map.mpr ⟨_, hmem, rfl⟩)
      simp [hnot, eq_comm]
    · next hkey => simp [ih hd, Ne.symm hkey]

/-- Sorting identifies the dictionaries with the same value under each key. -/
theorem sortByKey_eq_iff {a b : Dict β} (ha : (a.map Prod.fst).Nodup)
    (hb : (b.map Prod.fst).Nodup) :
    a.sortByKey = b.sortByKey ↔ ∀ key, a.get? key = b.get? key := by
  constructor
  · intro h key
    have hsorted : (a.insertionSort KeyLE).Perm b := by
      rw [show a.insertionSort KeyLE = b.insertionSort KeyLE from h]
      exact List.perm_insertionSort KeyLE b
    have hperm : a.Perm b := (List.perm_insertionSort KeyLE a).symm.trans hsorted
    refine Option.ext fun value => ?_
    rw [get?_eq_some_iff_mem ha, get?_eq_some_iff_mem hb]
    exact hperm.mem_iff
  · intro h
    have hperm : a.Perm b := by
      refine (List.perm_ext_iff_of_nodup ha.of_map hb.of_map).mpr fun item => ?_
      rw [← get?_eq_some_iff_mem ha, ← get?_eq_some_iff_mem hb, h]
    refine List.Perm.eq_of_pairwise (fun x y hx hy hle hge => ?_)
      (List.pairwise_insertionSort KeyLE a) (List.pairwise_insertionSort KeyLE b)
      ((List.perm_insertionSort KeyLE a).trans (hperm.trans (List.perm_insertionSort KeyLE b).symm))
    -- two items of one key are one item
    have hkey : x.1 = y.1 := le_antisymm hle hge
    have hxb : (x.1, x.2) ∈ b := hperm.mem_iff.mp ((List.mem_insertionSort KeyLE).mp hx)
    have hyb : (x.1, y.2) ∈ b := by
      rw [hkey]
      exact (List.mem_insertionSort KeyLE).mp hy
    rw [← get?_eq_some_iff_mem hb] at hxb hyb
    exact Prod.ext hkey (Option.some.inj (hxb.symm.trans hyb))

end Dict

/-! ### Values up to order -/

namespace Json

/-- The same value, but for the order of members and the members of ignored
names. -/
inductive SameUpTo (ignored : List String) : Json → Json → Prop where
  | null : SameUpTo ignored .null .null
  | bool (b : Bool) : SameUpTo ignored (.bool b) (.bool b)
  | int (n : Int) : SameUpTo ignored (.int n) (.int n)
  | float (q : Rat) : SameUpTo ignored (.float q) (.float q)
  | str (s : String) : SameUpTo ignored (.str s) (.str s)
  | arr {as bs : List Json} (h : List.Forall₂ (SameUpTo ignored) as bs) :
      SameUpTo ignored (.arr as) (.arr bs)
  | obj {as bs : Dict Json}
      (h : ∀ key, key ∉ ignored → Option.Rel (SameUpTo ignored) (as.get? key) (bs.get? key)) :
      SameUpTo ignored (.obj as) (.obj bs)

mutual

/-- Without the members of ignored names, at every depth. -/
def deleteKeys (ignored : List String) : Json → Json
  | .null => .null
  | .bool b => .bool b
  | .int n => .int n
  | .float q => .float q
  | .str s => .str s
  | .arr items => .arr (deleteItems ignored items)
  | .obj fields => .obj (deleteFields ignored fields)

def deleteItems (ignored : List String) : List Json → List Json
  | [] => []
  | item :: items => deleteKeys ignored item :: deleteItems ignored items

def deleteFields (ignored : List String) : List (String × Json) → List (String × Json)
  | [] => []
  | field :: fields =>
    if field.1 ∈ ignored then deleteFields ignored fields
    else deleteField ignored field :: deleteFields ignored fields

def deleteField (ignored : List String) : String × Json → String × Json
  | (key, value) => (key, deleteKeys ignored value)

end

mutual

/-- The members of every object sorted by key. -/
def sortKeys : Json → Json
  | .null => .null
  | .bool b => .bool b
  | .int n => .int n
  | .float q => .float q
  | .str s => .str s
  | .arr items => .arr (sortItems items)
  | .obj fields => .obj (Dict.sortByKey (sortFields fields))

def sortItems : List Json → List Json
  | [] => []
  | item :: items => sortKeys item :: sortItems items

def sortFields : List (String × Json) → List (String × Json)
  | [] => []
  | field :: fields => sortField field :: sortFields fields

def sortField : String × Json → String × Json
  | (key, value) => (key, sortKeys value)

end

/-- Deleted and sorted. -/
def normal (ignored : List String) (v : Json) : Json := sortKeys (deleteKeys ignored v)

section Normal

variable (ignored : List String)

theorem normal_arr (items : List Json) :
    normal ignored (.arr items) = .arr (items.map (normal ignored)) := by
  have hitems : sortItems (deleteItems ignored items) = items.map (normal ignored) := by
    induction items with
    | nil => rfl
    | cons item items ih => rw [deleteItems, sortItems, ih]; rfl
  rw [normal, deleteKeys, sortKeys, hitems]

/-- The members that are kept, each in its normal form. -/
def keptFields (fields : Dict Json) : Dict Json :=
  (fields.filter fun field => field.1 ∉ ignored).map fun field => (field.1, normal ignored field.2)

theorem normal_obj (fields : Dict Json) :
    normal ignored (.obj fields) = .obj (keptFields ignored fields).sortByKey := by
  have hfields : sortFields (deleteFields ignored fields) = keptFields ignored fields := by
    induction fields with
    | nil => rfl
    | cons field fields ih =>
      obtain ⟨k, v⟩ := field
      rw [deleteFields, keptFields]
      by_cases hignored : k ∈ ignored
      · rw [if_pos hignored, List.filter_cons_of_neg (by simpa using hignored)]
        exact ih
      · rw [if_neg hignored, List.filter_cons_of_pos (by simpa using hignored), sortFields, ih]
        rfl
  rw [normal, deleteKeys, sortKeys, hfields]

theorem nodup_keptFields {fields : Dict Json} (h : (fields.map Prod.fst).Nodup) :
    ((keptFields ignored fields).map Prod.fst).Nodup := by
  have hkeys : (keptFields ignored fields).map Prod.fst =
      (fields.filter fun field => field.1 ∉ ignored).map Prod.fst := by
    rw [keptFields, List.map_map]
    rfl
  rw [hkeys]
  exact h.sublist (List.filter_sublist.map _)

/-- What is found under a key after the ignored members were taken out and the rest was
put in normal form. -/
theorem get?_keptFields (fields : Dict Json) (key : String) :
    (keptFields ignored fields).get? key =
      if key ∈ ignored then none else (fields.get? key).map (normal ignored) := by
  induction fields with
  | nil => simp [keptFields]
  | cons field fields ih =>
    obtain ⟨k, v⟩ := field
    -- an ignored member is skipped, and its key is found nowhere else
    by_cases hignored : k ∈ ignored
    · have hskip : keptFields ignored ((k, v) :: fields) = keptFields ignored fields := by
        rw [keptFields, List.filter_cons_of_neg (by simpa using hignored)]
        rfl
      rw [hskip, ih, Dict.get?_cons]
      split
      · rfl
      · next hkey =>
        have hne : k ≠ key := by
          rintro rfl
          exact hkey hignored
        rw [if_neg hne]
    · have hkeep : keptFields ignored ((k, v) :: fields) =
          (k, normal ignored v) :: keptFields ignored fields := by
        rw [keptFields, List.filter_cons_of_pos (by simpa using hignored)]
        rfl
      rw [hkeep, Dict.get?_cons, Dict.get?_cons, ih]
      split
      · next hkey => rw [if_neg (hkey ▸ hignored), Option.map_some]
      · rfl

/-- The normal form of a plain value is plain. -/
theorem Plain.normal {v : Json} (h : Plain v) : Plain (normal ignored v) := by
  induction h with
  | null => exact .null
  | bool b => exact .bool b
  | int n => exact .int n
  | str s => exact .str s
  | arr hitems ih =>
    rw [normal_arr]
    refine .arr fun item hitem => ?_
    obtain ⟨item, hmem, rfl⟩ := List.mem_map.mp hitem
    exact ih item hmem
  | @obj fields hkeys hfields ih =>
    rw [normal_obj]
    have hperm := List.perm_insertionSort Dict.KeyLE (keptFields ignored fields)
    refine .obj ((hperm.map Prod.fst).nodup_iff.mpr (nodup_keptFields ignored hkeys)) ?_
    intro field hfield
    obtain ⟨field, hmem, rfl⟩ := List.mem_map.mp (hperm.mem_iff.mp hfield)
    exact ih field (List.mem_of_mem_filter hmem)

theorem map_eq_map_iff_forall₂ {α β : Type} {f : α → β} {R : α → α → Prop} {as bs : List α}
    (h : ∀ a ∈ as, ∀ b ∈ bs, (f a = f b ↔ R a b)) :
    as.map f = bs.map f ↔ List.Forall₂ R as bs := by
  induction as generalizing bs with
  | nil => cases bs <;> simp
  | cons a as ih =>
    cases bs with
    | nil => simp
    | cons b bs =>
      rw [List.map_cons, List.map_cons, List.cons.injEq, List.forall₂_cons,
        h a (by simp) b (by simp),
        ih fun a ha b hb => h a (List.mem_cons_of_mem _ ha) b (List.mem_cons_of_mem _ hb)]

/-- The normal form of a value is of the shape of the value. -/
theorem kind_normal (v : Json) : kind (normal ignored v) = kind v := by
  cases v with
  | bool b => cases b <;> rfl
  | arr items => rw [normal_arr]; rfl
  | obj fields => rw [normal_obj]; rfl
  | _ => rfl

/-- Either side of `normal_eq_iff` makes the two values of one shape. -/
theorem kind_eq_of_normal {a b : Json} (h : normal ignored a = normal ignored b) :
    kind b = kind a := by
  rw [← kind_normal ignored b, ← h, kind_normal]

/-- The kept members sort alike when they are the same under each key that is
kept. -/
theorem sortByKey_keptFields_iff {as bs : Dict Json} (has : (as.map Prod.fst).Nodup)
    (hbs : (bs.map Prod.fst).Nodup)
    (h : ∀ a ∈ as, ∀ b ∈ bs, (normal ignored a.2 = normal ignored b.2 ↔ SameUpTo ignored a.2 b.2)) :
    (keptFields ignored as).sortByKey = (keptFields ignored bs).sortByKey ↔
      ∀ key, key ∉ ignored → Option.Rel (SameUpTo ignored) (as.get? key) (bs.get? key) := by
  rw [Dict.sortByKey_eq_iff (nodup_keptFields ignored has) (nodup_keptFields ignored hbs)]
  refine forall_congr' fun key => ?_
  rw [get?_keptFields, get?_keptFields]
  by_cases hkey : key ∈ ignored
  · simp [hkey]
  · rw [if_neg hkey, if_neg hkey, imp_iff_right hkey]
    -- a value under the key on both sides, or on neither
    cases ha : as.get? key with
    | none =>
      cases hb : bs.get? key with
      | none => exact ⟨fun _ => .none, fun _ => rfl⟩
      | some b => exact ⟨fun h => absurd h (by simp), fun h => absurd h (by rintro ⟨⟩)⟩
    | some a =>
      cases hb : bs.get? key with
      | none => exact ⟨fun h => absurd h (by simp), fun h => absurd h (by rintro ⟨⟩)⟩
      | some b =>
        rw [Option.map_some, Option.map_some, Option.some.injEq, h _
          ((Dict.get?_eq_some_iff_mem has).mp ha) _ ((Dict.get?_eq_some_iff_mem hbs).mp hb)]
        constructor
        · exact .some
        · rintro ⟨hsame⟩
          exact hsame

/-- Deleting and sorting identifies exactly the values that are the same up to
order and ignored members. -/
theorem normal_eq_iff {a b : Json} (ha : Plain a) (hb : Plain b) :
    normal ignored a = normal ignored b ↔ SameUpTo ignored a b := by
  -- by the constructor of `a`: normalizing keeps the kind, so `b` has the same one
  induction ha generalizing b with
  | null =>
    constructor
    · intro h
      have hshape := eq_of_kind b
      rw [kind_eq_of_normal ignored h] at hshape
      obtain rfl := hshape
      exact .null
    · rintro ⟨⟩
      rfl
  | bool v =>
    constructor
    · intro h
      have hshape := eq_of_kind b
      rw [kind_eq_of_normal ignored h] at hshape
      cases v <;> (obtain rfl := hshape; exact .bool _)
    · rintro ⟨⟩
      rfl
  | int n =>
    constructor
    · intro h
      have hshape := eq_of_kind b
      rw [kind_eq_of_normal ignored h] at hshape
      obtain ⟨m, rfl⟩ := hshape
      obtain rfl : n = m := Json.int.inj h
      exact .int n
    · rintro ⟨⟩
      rfl
  | str s =>
    constructor
    · intro h
      have hshape := eq_of_kind b
      rw [kind_eq_of_normal ignored h] at hshape
      obtain ⟨t, rfl⟩ := hshape
      obtain rfl : s = t := Json.str.inj h
      exact .str s
    · rintro ⟨⟩
      rfl
  | arr hitems ih =>
    -- an array keeps its order: the items agree one by one
    constructor
    · intro h
      have hshape := eq_of_kind b
      rw [kind_eq_of_normal ignored h] at hshape
      obtain ⟨others, rfl⟩ := hshape
      cases hb with
      | arr hothers =>
        rw [normal_arr, normal_arr, Json.arr.injEq,
          map_eq_map_iff_forall₂ fun a ha b hb => ih a ha (hothers b hb)] at h
        exact .arr h
    · intro h
      cases h with
      | arr h =>
        cases hb with
        | arr hothers =>
          rw [normal_arr, normal_arr, Json.arr.injEq,
            map_eq_map_iff_forall₂ fun a ha b hb => ih a ha (hothers b hb)]
          exact h
  | obj hkeys hfields ih =>
    -- an object is sorted by its keys after the ignored members were taken out
    constructor
    · intro h
      have hshape := eq_of_kind b
      rw [kind_eq_of_normal ignored h] at hshape
      obtain ⟨others, rfl⟩ := hshape
      cases hb with
      | obj hkeys' hothers =>
        rw [normal_obj, normal_obj, Json.obj.injEq, sortByKey_keptFields_iff ignored hkeys hkeys'
          fun a ha b hb => ih a ha (hothers b hb)] at h
        exact .obj h
    · intro h
      cases h with
      | obj h =>
        cases hb with
        | obj hkeys' hothers =>
          rw [normal_obj, normal_obj, Json.obj.injEq, sortByKey_keptFields_iff ignored hkeys hkeys'
            fun a ha b hb => ih a ha (hothers b hb)]
          exact h

end Normal

end Json

end PyLib
