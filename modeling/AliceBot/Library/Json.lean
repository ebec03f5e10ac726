import Mathlib.Data.Rat.Defs
import Mathlib.Data.List.Basic

/-!
# JSON values and insertion-ordered dictionaries

The value space a Python service stores in its JSON columns, and the two
dictionary operations every patch of such a column is made of.

* `fromkeys` — `tuple(dict.fromkeys(xs))`: the list without repetitions, each
  element at the place of its first occurrence;
* `Dict` — a dictionary as the list of its items in insertion order. Lookup
  reads the first item under the key, `Dict.set` overwrites in place or appends;
* `Json` — null, booleans, integers, finite floats (by the rational their
  shortest decimal spelling denotes), strings, arrays and objects.

Everything downstream reads a dictionary through `Dict.get?` and writes it
through `Dict.set`, so the only facts a proof needs are the two lookup laws
`Dict.get?_set_self` and `Dict.get?_set_of_ne`.
-/

namespace PyLib

/-! ### First-occurrence deduplication -/

/-- `list(dict.fromkeys(xs))`: repetitions dropped, first occurrences kept in
their order. -/
def fromkeys {α : Type*} [DecidableEq α] : List α → List α
  | [] => []
  | a :: l => a :: (fromkeys l).filter (· ≠ a)

section Fromkeys

variable {α : Type*} [DecidableEq α]

@[simp] theorem mem_fromkeys {a : α} {l : List α} : a ∈ fromkeys l ↔ a ∈ l := by
  induction l with
  | nil => rfl
  | cons b l ih =>
    by_cases h : a = b
    · simp [fromkeys, h]
    · simp [fromkeys, h, ih]

theorem nodup_fromkeys (l : List α) : (fromkeys l).Nodup := by
  induction l with
  | nil => exact List.nodup_nil
  | cons b l ih =>
    refine List.nodup_cons.mpr ⟨?_, ih.filter _⟩
    simp

@[simp] theorem fromkeys_eq_nil {l : List α} : fromkeys l = [] ↔ l = [] := by
  cases l <;> simp [fromkeys]

/-- A list without repetitions is its own deduplication. -/
theorem fromkeys_of_nodup {l : List α} (h : l.Nodup) : fromkeys l = l := by
  induction l with
  | nil => rfl
  | cons b l ih =>
    obtain ⟨hb, hl⟩ := List.nodup_cons.mp h
    have hkeep : l.filter (· ≠ b) = l := by
      refine List.filter_eq_self.mpr fun a ha => ?_
      simpa using fun hab : a = b => hb (hab ▸ ha)
    rw [fromkeys, ih hl, hkeep]

end Fromkeys

/-! ### Dictionaries -/

/-- A dictionary with string keys, as its items in insertion order. -/
abbrev Dict (β : Type*) := List (String × β)

namespace Dict

variable {β : Type*}

/-- `d.get(key)`, the first item stored under the key. -/
def get? (d : Dict β) (key : String) : Option β :=
  d.lookup key

/-- `key in d`. -/
def has (d : Dict β) (key : String) : Bool :=
  (d.get? key).isSome

/-- `d[key] = value`: overwrite in place, or append a new item. -/
def set : Dict β → String → β → Dict β
  | [], key, value => [(key, value)]
  | (k, v) :: d, key, value =>
    if k = key then (k, value) :: d else (k, v) :: set d key value

/-- `{**d, **patch}`: the items of `patch` written over `d` one by one. -/
def update (d patch : Dict β) : Dict β :=
  patch.foldl (fun acc item => acc.set item.1 item.2) d

/-- The items under the given keys, in the order of the keys. -/
def pick (d : Dict β) (keys : List String) : Dict β :=
  keys.filterMap fun key => (d.get? key).map fun value => (key, value)

@[simp] theorem get?_nil (key : String) : get? ([] : Dict β) key = none := rfl

theorem get?_cons (k : String) (v : β) (d : Dict β) (key : String) :
    get? ((k, v) :: d) key = if k = key then some v else get? d key := by
  unfold get?
  rw [List.lookup_cons]
  by_cases h : k = key
  · subst h; simp
  · have hbeq : (key == k) = false := by simpa using Ne.symm h
    rw [hbeq, if_neg h]

@[simp] theorem get?_set_self (d : Dict β) (key : String) (value : β) :
    (d.set key value).get? key = some value := by
  induction d with
  | nil => simp [set, get?_cons]
  | cons item d ih =>
    obtain ⟨k, v⟩ := item
    by_cases h : k = key
    · simp [set, get?_cons, h]
    · simp [set, get?_cons, h, ih]

theorem get?_set_of_ne (d : Dict β) {key other : String} (value : β) (h : key ≠ other) :
    (d.set key value).get? other = d.get? other := by
  induction d with
  | nil => simp [set, get?_cons, h]
  | cons item d ih =>
    obtain ⟨k, v⟩ := item
    by_cases hk : k = key
    · subst hk; simp [set, get?_cons, h]
    · simp only [set, if_neg hk, get?_cons, ih]

/-- Reading any key after one write. -/
theorem get?_set (d : Dict β) (key other : String) (value : β) :
    (d.set key value).get? other = if key = other then some value else d.get? other := by
  by_cases h : key = other
  · subst h; simp
  · rw [get?_set_of_ne d value h, if_neg h]

/-- Dropping items leaves the keys kept alone. -/
theorem get?_filter (d : Dict β) (p : String → Bool) {key : String} (h : p key = true) :
    Dict.get? (d.filter fun item => p item.1) key = d.get? key := by
  induction d with
  | nil => rfl
  | cons item d ih =>
    obtain ⟨k, v⟩ := item
    by_cases hk : k = key
    · subst hk
      simp [h, get?_cons]
    · by_cases hp : p k = true
      · simp [hp, get?_cons, hk, ih]
      · simp [hp, get?_cons, hk, ih]

theorem get?_append (d d' : Dict β) (key : String) :
    Dict.get? (d ++ d') key = (d.get? key).or (d'.get? key) := by
  induction d with
  | nil => rfl
  | cons item d ih =>
    obtain ⟨k, v⟩ := item
    rw [List.cons_append, get?_cons, get?_cons, ih]
    split <;> rfl

theorem get?_pick (d : Dict β) (keys : List String) (key : String) :
    (d.pick keys).get? key = if key ∈ keys then d.get? key else none := by
  unfold pick
  induction keys with
  | nil => rfl
  | cons k keys ih =>
    have hmem : key ∈ k :: keys ↔ k = key ∨ key ∈ keys := by
      rw [List.mem_cons, eq_comm]
    by_cases hk : k = key
    · subst hk
      rw [if_pos (List.mem_cons_self ..)]
      cases hget : d.get? k with
      | none =>
        rw [List.filterMap_cons_none (by rw [hget]; rfl), ih, hget, ite_self]
      | some v =>
        rw [List.filterMap_cons_some (by rw [hget]; rfl), get?_cons, if_pos rfl]
    · simp only [hmem, hk, false_or]
      cases hget : d.get? k with
      | none => rw [List.filterMap_cons_none (by rw [hget]; rfl), ih]
      | some v => rw [List.filterMap_cons_some (by rw [hget]; rfl), get?_cons, if_neg hk, ih]

theorem keys_pick {d : Dict β} {keys : List String} {item : String × β} (h : item ∈ d.pick keys) :
    item.1 ∈ keys := by
  obtain ⟨key, hkey, hitem⟩ := List.mem_filterMap.mp h
  obtain ⟨value, _, rfl⟩ := Option.map_eq_some_iff.mp hitem
  exact hkey

/-- Only the picked keys matter to a pick. -/
theorem pick_congr {d d' : Dict β} {keys : List String}
    (h : ∀ key ∈ keys, d.get? key = d'.get? key) : d.pick keys = d'.pick keys :=
  List.filterMap_congr fun key hkey => by rw [h key hkey]

@[simp] theorem update_nil (d : Dict β) : d.update [] = d := rfl

@[simp] theorem update_cons (d : Dict β) (k : String) (v : β) (patch : Dict β) :
    d.update ((k, v) :: patch) = (d.set k v).update patch := rfl

/-- A key the patch does not mention is read from the dictionary patched. -/
theorem get?_update_of_notMem (d patch : Dict β) {key : String}
    (h : ∀ item ∈ patch, item.1 ≠ key) : (d.update patch).get? key = d.get? key := by
  induction patch generalizing d with
  | nil => rfl
  | cons item patch ih =>
    obtain ⟨k, v⟩ := item
    have hk : k ≠ key := h (k, v) (by simp)
    rw [update_cons, ih (d.set k v) fun i hi => h i (by simp [hi])]
    exact get?_set_of_ne d v hk

theorem has_iff {d : Dict β} {key : String} : d.has key = true ↔ key ∈ d.map Prod.fst := by
  induction d with
  | nil => simp [has]
  | cons item d ih =>
    obtain ⟨k, v⟩ := item
    rw [has, get?_cons, List.map_cons, List.mem_cons, ← ih, has]
    by_cases hk : k = key
    · simp [hk]
    · simp [hk, Ne.symm hk]

/-- A new key is stored at the end. -/
theorem set_of_notMem {d : Dict β} {key : String} (value : β) (h : key ∉ d.map Prod.fst) :
    d.set key value = d ++ [(key, value)] := by
  induction d with
  | nil => rfl
  | cons item d ih =>
    obtain ⟨k, v⟩ := item
    rw [List.map_cons, List.mem_cons, not_or] at h
    rw [set, if_neg (Ne.symm h.1), ih h.2, List.cons_append]

/-- A patch of new keys is appended. -/
theorem update_of_nodup {d patch : Dict β} (h : ((d ++ patch).map Prod.fst).Nodup) :
    d.update patch = d ++ patch := by
  induction patch generalizing d with
  | nil => rw [update_nil, List.append_nil]
  | cons item patch ih =>
    obtain ⟨k, v⟩ := item
    have hassoc : d ++ (k, v) :: patch = d ++ [(k, v)] ++ patch := by simp
    have hk : k ∉ d.map Prod.fst := by
      rw [List.map_append, List.nodup_append] at h
      exact fun hmem => h.2.2 k hmem k (by simp) rfl
    rw [hassoc] at h ⊢
    rw [update_cons, set_of_notMem v hk, ih h]

/-- An item of a dictionary is found under its key. -/
theorem get?_of_mem {d : Dict β} {key : String} {value : β} (h : (d.map Prod.fst).Nodup)
    (hmem : (key, value) ∈ d) : d.get? key = some value := by
  induction d with
  | nil => exact absurd hmem List.not_mem_nil
  | cons item d ih =>
    obtain ⟨k, v⟩ := item
    obtain ⟨hk, hrest⟩ := List.nodup_cons.mp h
    rw [get?_cons]
    rcases List.mem_cons.mp hmem with heq | hmem
    · obtain ⟨rfl, rfl⟩ := Prod.mk.inj heq
      exact if_pos rfl
    · have hne : k ≠ key := fun heq => hk (List.mem_map.mpr ⟨(key, value), hmem, heq.symm⟩)
      rw [if_neg hne, ih hrest hmem]

end Dict

/-! ### JSON values -/

/-- A JSON value. A finite float is kept as the rational its shortest decimal
spelling denotes; the non-finite floats are not JSON. -/
inductive Json where
  | null
  | bool (b : Bool)
  | int (n : Int)
  | float (q : Rat)
  | str (s : String)
  | arr (items : List Json)
  | obj (fields : List (String × Json))

namespace Json

/-- `isinstance(value, str)`, with the string. -/
def asStr? : Json → Option String
  | .str s => some s
  | _ => none

/-- `isinstance(value, Mapping)`, with the mapping. -/
def asObj? : Json → Option (Dict Json)
  | .obj d => some d
  | _ => none

/-- `isinstance(value, (list, tuple))`, with the items. -/
def asArr? : Json → Option (List Json)
  | .arr l => some l
  | _ => none

/-- `dict(value) if isinstance(value, Mapping) else {}`. -/
def objOrEmpty (v : Json) : Dict Json :=
  v.asObj?.getD []

/-- A tuple or list of strings as a JSON array. -/
def strs (l : List String) : Json :=
  .arr (l.map .str)

/-- An optional string, `None` being `null`. -/
def optStr : Option String → Json
  | some s => .str s
  | none => .null

/-- Python truthiness of a JSON value: `None`, `False`, zero and every empty
string or container are falsy. -/
def truthy : Json → Bool
  | .null => false
  | .bool b => b
  | .int n => n != 0
  | .float q => q != 0
  | .str s => s != ""
  | .arr l => !l.isEmpty
  | .obj d => !d.isEmpty

@[simp] theorem asStr?_str (s : String) : (Json.str s).asStr? = some s := rfl
@[simp] theorem asObj?_obj (d : Dict Json) : (Json.obj d).asObj? = some d := rfl
@[simp] theorem objOrEmpty_obj (d : Dict Json) : (Json.obj d).objOrEmpty = d := rfl
@[simp] theorem objOrEmpty_null : Json.null.objOrEmpty = [] := rfl

/-! Comparing values is decided along the structure of the first. -/

mutual

/-- Equality of JSON values, member by member. -/
def same : Json → Json → Bool
  | .null, .null => true
  | .bool a, .bool b => a == b
  | .int a, .int b => a == b
  | .float a, .float b => a == b
  | .str a, .str b => a == b
  | .arr a, .arr b => sameItems a b
  | .obj a, .obj b => sameFields a b
  | _, _ => false
termination_by structural a => a

def sameItems : List Json → List Json → Bool
  | [], [] => true
  | a :: as, b :: bs => same a b && sameItems as bs
  | _, _ => false
termination_by structural a => a

def sameFields : List (String × Json) → List (String × Json) → Bool
  | [], [] => true
  | a :: as, b :: bs => sameField a b && sameFields as bs
  | _, _ => false
termination_by structural a => a

def sameField : String × Json → String × Json → Bool
  | (k, a), b => k == b.1 && same a b.2
termination_by structural a => a

end

mutual

theorem eq_of_same : ∀ {a b : Json}, same a b = true → a = b
  | .null, b, h => by cases b <;> simp_all [same]
  | .bool a, b, h => by cases b <;> simp_all [same]
  | .int a, b, h => by cases b <;> simp_all [same]
  | .float a, b, h => by cases b <;> simp_all [same]
  | .str a, b, h => by cases b <;> simp_all [same]
  | .arr a, b, h => by
    cases b with
    | arr b => exact congrArg _ (eq_of_sameItems h)
    | _ => cases h
  | .obj a, b, h => by
    cases b with
    | obj b => exact congrArg _ (eq_of_sameFields h)
    | _ => cases h

theorem eq_of_sameItems : ∀ {a b : List Json}, sameItems a b = true → a = b
  | [], [], _ => rfl
  | [], b :: bs, h => by cases h
  | a :: as, [], h => by cases h
  | a :: as, b :: bs, h => by
    obtain ⟨hitem, hitems⟩ := Bool.and_eq_true_iff.mp h
    rw [eq_of_same hitem, eq_of_sameItems hitems]

theorem eq_of_sameFields : ∀ {a b : List (String × Json)}, sameFields a b = true → a = b
  | [], [], _ => rfl
  | [], b :: bs, h => by cases h
  | a :: as, [], h => by cases h
  | a :: as, b :: bs, h => by
    obtain ⟨hfield, hfields⟩ := Bool.and_eq_true_iff.mp h
    rw [eq_of_sameField hfield, eq_of_sameFields hfields]

theorem eq_of_sameField : ∀ {a b : String × Json}, sameField a b = true → a = b
  | (k, a), (l, b), h => by
    obtain ⟨hkey, hvalue⟩ := Bool.and_eq_true_iff.mp h
    have hb : a = b := eq_of_same hvalue
    rw [hb, eq_of_beq hkey]

end

mutual

theorem same_self : ∀ a : Json, same a a = true
  | .null => rfl
  | .bool a => by simp [same]
  | .int a => by simp [same]
  | .float a => by simp [same]
  | .str a => by simp [same]
  | .arr a => sameItems_self a
  | .obj a => sameFields_self a

theorem sameItems_self : ∀ a : List Json, sameItems a a = true
  | [] => rfl
  | a :: as => Bool.and_eq_true_iff.mpr ⟨same_self a, sameItems_self as⟩

theorem sameFields_self : ∀ a : List (String × Json), sameFields a a = true
  | [] => rfl
  | a :: as => Bool.and_eq_true_iff.mpr ⟨sameField_self a, sameFields_self as⟩

theorem sameField_self : ∀ a : String × Json, sameField a a = true
  | (k, a) => Bool.and_eq_true_iff.mpr ⟨beq_self_eq_true k, same_self a⟩

end

instance : DecidableEq Json := fun a b =>
  decidable_of_iff (same a b = true) ⟨eq_of_same, fun h => h ▸ same_self a⟩

end Json

namespace Dict

/-- `d.get(key)`, `None` being JSON's `null`. -/
def item (d : Dict Json) (key : String) : Json :=
  (d.get? key).getD .null

/-- `d.get(key)` when it holds a mapping, `{}` otherwise. -/
def getObj (d : Dict Json) (key : String) : Dict Json :=
  (d.item key).objOrEmpty

/-- `d.get(key)` when it holds a string. -/
def getStr? (d : Dict Json) (key : String) : Option String :=
  (d.get? key).bind Json.asStr?

/-- Reading a string member after one write. -/
theorem getStr?_set (d : Dict Json) (key other : String) (value : Json) :
    (d.set key value).getStr? other = if key = other then value.asStr? else d.getStr? other := by
  unfold getStr?
  rw [get?_set]
  split <;> rfl

end Dict

end PyLib
