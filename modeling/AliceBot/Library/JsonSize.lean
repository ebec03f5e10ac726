import AliceBot.Library.JsonText
import AliceBot.Library.SelfReport
import Mathlib.Algebra.Ring.Nat

/-!
# The size of a JSON text

`writeRaw` is the text of a value without blanks that leaves the characters of strings as
they are, but for those JSON does not allow. Its length is a sum over the members of an
object: what is written under one key or two adds its own length to that of the rest
(`exists_length_writeRaw_set`, `exists_length_writeRaw_set_set`), and a natural number has its
digits (`length_writeRaw_natCast`).
-/

namespace PyLib

/-- The decimal digits of a number. -/
theorem length_toDigits_eq {b : ℕ} (hb : 1 < b) (n : ℕ) :
    (Nat.toDigits b n).length = numeralLength b n := by
  have hpos : 0 < (Nat.toDigits b n).length := Nat.length_toDigits_pos
  refine le_antisymm ?_ ?_
  · exact (Nat.length_toDigits_le_iff hb (Nat.succ_pos _)).mpr (Nat.lt_pow_succ_log_self hb n)
  · rcases Nat.eq_zero_or_pos n with rfl | hn
    · rw [numeralLength, Nat.log_zero_right]
      exact hpos
    · exact Nat.log_lt_of_lt_pow hn.ne' ((Nat.length_toDigits_le_iff hb hpos).mp le_rfl)

namespace Json

/-! ### The text -/

/-- A character of a string, as it is where JSON allows it. -/
def escapeRaw (c : Char) : List Char :=
  match shortEscapes.lookup c with
  | some letter => ['\\', letter]
  | none => if c < ' ' then escapeUnit c.toNat else [c]

/-- A string in quotes. -/
def quoteRaw (s : String) : List Char := '"' :: (s.toList.flatMap escapeRaw ++ ['"'])

section Writing

variable (floatText : Rat → List Char)

mutual

/-- `json.dumps(value, ensure_ascii=False, separators=(",", ":"))`. The text of a float is
a parameter. -/
def writeRaw : Json → List Char
  | .null => "null".toList
  | .bool true => "true".toList
  | .bool false => "false".toList
  | .int n => decimal n
  | .float q => floatText q
  | .str s => quoteRaw s
  | .arr [] => ['[', ']']
  | .arr (item :: items) => '[' :: (writeRaw item ++ writeRawItems items)
  | .obj [] => ['{', '}']
  | .obj (field :: fields) => '{' :: (writeRawField field ++ writeRawFields fields)

/-- The items after the first. -/
def writeRawItems : List Json → List Char
  | [] => [']']
  | item :: items => ',' :: (writeRaw item ++ writeRawItems items)

/-- The members after the first. -/
def writeRawFields : List (String × Json) → List Char
  | [] => ['}']
  | field :: fields => ',' :: (writeRawField field ++ writeRawFields fields)

def writeRawField : String × Json → List Char
  | (key, value) => quoteRaw key ++ ':' :: writeRaw value

end

/-! ### Its length -/

variable {floatText}

theorem length_writeRaw_natCast (n : ℕ) :
    (writeRaw floatText (.int n)).length = numeralLength 10 n := by
  rw [writeRaw]
  exact length_toDigits_eq (by omega) n

theorem length_writeRawField (key : String) (value : Json) :
    (writeRawField floatText (key, value)).length =
      (quoteRaw key).length + 1 + (writeRaw floatText value).length := by
  rw [writeRawField, List.length_append, List.length_cons]
  omega

/-- The length of the members of an object, each with the comma or brace after it. -/
theorem length_writeRaw_obj_cons (field : String × Json) (fields : List (String × Json)) :
    (writeRaw floatText (.obj (field :: fields))).length =
      (writeRawFields floatText (field :: fields)).length := by
  rw [writeRaw, writeRawFields, List.length_cons, List.length_cons]

theorem length_writeRawFields_cons (field : String × Json) (fields : List (String × Json)) :
    (writeRawFields floatText (field :: fields)).length =
      (writeRawField floatText field).length + 1 + (writeRawFields floatText fields).length := by
  rw [writeRawFields, List.length_cons, List.length_append]
  omega

/-- An object in which a member is written is not empty. -/
theorem length_writeRaw_set (d : Dict Json) (key : String) (value : Json) :
    (writeRaw floatText (.obj (d.set key value))).length =
      (writeRawFields floatText (d.set key value)).length := by
  cases d with
  | nil => exact length_writeRaw_obj_cons ..
  | cons item d =>
    rw [Dict.set]
    split <;> exact length_writeRaw_obj_cons ..

variable (floatText) in
/-- The rest of an object does not depend on the value that is written. -/
theorem exists_length_writeRawFields_set (d : Dict Json) (key : String) :
    ∃ rest, ∀ value, (writeRawFields floatText (d.set key value)).length =
      rest + (writeRaw floatText value).length := by
  induction d with
  | nil =>
    refine ⟨(quoteRaw key).length + 3, fun value => ?_⟩
    rw [Dict.set, length_writeRawFields_cons, length_writeRawField, writeRawFields,
      List.length_singleton]
    omega
  | cons item d ih =>
    obtain ⟨k, v⟩ := item
    by_cases hk : k = key
    · refine ⟨(quoteRaw k).length + 2 + (writeRawFields floatText d).length, fun value => ?_⟩
      rw [Dict.set, if_pos hk, length_writeRawFields_cons, length_writeRawField]
      omega
    · obtain ⟨rest, hrest⟩ := ih
      refine ⟨(writeRawField floatText (k, v)).length + 1 + rest, fun value => ?_⟩
      rw [Dict.set, if_neg hk, length_writeRawFields_cons, hrest]
      omega

variable (floatText) in
theorem exists_length_writeRaw_set (d : Dict Json) (key : String) :
    ∃ rest, ∀ value, (writeRaw floatText (.obj (d.set key value))).length =
      rest + (writeRaw floatText value).length := by
  obtain ⟨rest, hrest⟩ := exists_length_writeRawFields_set floatText d key
  exact ⟨rest, fun value => (length_writeRaw_set d key value).trans (hrest value)⟩

variable (floatText) in
/-- Neither does it depend on the values that are written under two keys. -/
theorem exists_length_writeRaw_set_set (d : Dict Json) (key key' : String) (hne : key ≠ key') :
    ∃ rest, ∀ value value',
      (writeRaw floatText (.obj ((d.set key value).set key' value'))).length =
        rest + (writeRaw floatText value).length + (writeRaw floatText value').length := by
  have hfields : ∃ rest, ∀ value value',
      (writeRawFields floatText ((d.set key value).set key' value')).length =
        rest + (writeRaw floatText value).length + (writeRaw floatText value').length := by
    induction d with
    | nil =>
      refine ⟨(quoteRaw key).length + (quoteRaw key').length + 5, fun value value' => ?_⟩
      rw [Dict.set, Dict.set, if_neg hne, Dict.set, length_writeRawFields_cons,
        length_writeRawFields_cons, length_writeRawField, length_writeRawField, writeRawFields,
        List.length_singleton]
      omega
    | cons item d ih =>
      obtain ⟨k, v⟩ := item
      by_cases hk : k = key
      · -- the first key is written here, and the second further on
        obtain ⟨rest, hrest⟩ := exists_length_writeRawFields_set floatText d key'
        refine ⟨(quoteRaw k).length + 2 + rest, fun value value' => ?_⟩
        rw [Dict.set, if_pos hk, Dict.set, if_neg (hk ▸ hne), length_writeRawFields_cons,
          length_writeRawField, hrest]
        omega
      · by_cases hk' : k = key'
        · obtain ⟨rest, hrest⟩ := exists_length_writeRawFields_set floatText d key
          refine ⟨(quoteRaw k).length + 2 + rest, fun value value' => ?_⟩
          rw [Dict.set, if_neg hk, Dict.set, if_pos hk', length_writeRawFields_cons,
            length_writeRawField, hrest]
          omega
        · obtain ⟨rest, hrest⟩ := ih
          refine ⟨(writeRawField floatText (k, v)).length + 1 + rest, fun value value' => ?_⟩
          rw [Dict.set, if_neg hk, Dict.set, if_neg hk', length_writeRawFields_cons, hrest]
          omega
  obtain ⟨rest, hrest⟩ := hfields
  exact ⟨rest, fun value value' => (length_writeRaw_set _ key' value').trans (hrest value value')⟩

/-! ### The members of an object -/

variable (floatText) in
/-- The characters of a member, with the comma or brace after it. -/
def memberLength (field : String × Json) : ℕ := (writeRawField floatText field).length + 1

theorem length_writeRawFields_eq (d : Dict Json) :
    (writeRawFields floatText d).length = (d.map (memberLength floatText)).sum + 1 := by
  induction d with
  | nil => rfl
  | cons field d ih =>
    rw [length_writeRawFields_cons, ih, List.map_cons, List.sum_cons, memberLength]
    omega

theorem length_writeRaw_obj (d : Dict Json) :
    (writeRaw floatText (.obj d)).length = max 2 ((d.map (memberLength floatText)).sum + 1) := by
  cases d with
  | nil => rfl
  | cons field d =>
    have hquotes : 2 ≤ (writeRawField floatText field).length := by
      rw [← Prod.eta field, length_writeRawField, quoteRaw, List.length_cons, List.length_append,
        List.length_singleton]
      omega
    rw [length_writeRaw_obj_cons, length_writeRawFields_eq, List.map_cons, List.sum_cons,
      memberLength]
    omega

end Writing

end Json

end PyLib
