import AliceBot.Library.Json
import Mathlib.Data.List.Sort

/-!
# Canonical JSON text

The text of a JSON value without blanks, its strings in ASCII and the members
of its objects sorted by key at every depth, as a library function writes it to
compare values by a digest of their text.

* `write` — the text of a value, which can be read back from the front of any
  text that goes on with no digit (`write_append_inj`);
* `sortKeys` — the members sorted at every depth;
* `SameUpTo` — equality of two values up to the order of their members, and up
  to the members of ignored names at every depth;
* `sortKeys_eq_iff` — sorting identifies exactly the values that are the same
  up to order.

`Plain` are the values with one member for each key and without floats.
-/

namespace PyLib

namespace Json

/-! ### Strings -/

/-- A digit of `%04x`. -/
def hexDigit (n : Nat) : Char :=
  Char.ofNat (if n < 10 then 48 + n else 87 + n)

/-- The value of such a digit. -/
def hexValue (c : Char) : Nat :=
  if c.toNat < 58 then c.toNat - 48 else c.toNat - 87

/-- The escape of one unit of UTF-16. -/
def escapeUnit (n : Nat) : List Char :=
  ['\\', 'u', hexDigit (n / 4096 % 16), hexDigit (n / 256 % 16), hexDigit (n / 16 % 16),
    hexDigit (n % 16)]

/-- The value of four such digits. -/
def unitValue (a b c d : Char) : Nat :=
  hexValue a * 4096 + hexValue b * 256 + hexValue c * 16 + hexValue d

/-- The characters that have an escape of their own, with its letter. -/
def shortEscapes : List (Char × Char) :=
  [('"', '"'), ('\\', '\\'), ('\n', 'n'), ('\r', 'r'), ('\t', 't'), (Char.ofNat 12, 'f'),
    (Char.ofNat 8, 'b')]

/-- A character of a string, in ASCII. -/
def escape (c : Char) : List Char :=
  match shortEscapes.lookup c with
  | some letter => ['\\', letter]
  | none =>
    if ' ' ≤ c ∧ c ≤ '~' then [c]
    else if c.toNat < 0x10000 then escapeUnit c.toNat
    else escapeUnit (0xd800 + (c.toNat - 0x10000) / 0x400) ++
      escapeUnit (0xdc00 + (c.toNat - 0x10000) % 0x400)

/-- The first character of a text of escapes, and what is left. -/
def unescape : List Char → Option (Char × List Char)
  | '\\' :: 'u' :: a :: b :: c :: d :: rest =>
    let high := unitValue a b c d
    if 0xd800 ≤ high ∧ high < 0xdc00 then
      match rest with
      | '\\' :: 'u' :: a :: b :: c :: d :: rest =>
        some (Char.ofNat (0x10000 + (high - 0xd800) * 0x400 + (unitValue a b c d - 0xdc00)), rest)
      | _ => none
    else some (Char.ofNat high, rest)
  | '\\' :: letter :: rest =>
    (shortEscapes.find? fun item => item.2 = letter).map fun item => (item.1, rest)
  | c :: rest => some (c, rest)
  | [] => none

theorem hexValue_hexDigit : ∀ n, n < 16 → hexValue (hexDigit n) = n := by
  decide

theorem unitValue_escapeUnit {n : Nat} (h : n < 0x10000) :
    unitValue (hexDigit (n / 4096 % 16)) (hexDigit (n / 256 % 16)) (hexDigit (n / 16 % 16))
      (hexDigit (n % 16)) = n := by
  unfold unitValue
  rw [hexValue_hexDigit _ (Nat.mod_lt _ (by omega)), hexValue_hexDigit _ (Nat.mod_lt _ (by omega)),
    hexValue_hexDigit _ (Nat.mod_lt _ (by omega)), hexValue_hexDigit _ (Nat.mod_lt _ (by omega))]
  omega

theorem unescape_of_ne {c : Char} (h : c ≠ '\\') (rest : List Char) :
    unescape (c :: rest) = some (c, rest) := by
  unfold unescape
  split
  · next heq => exact absurd (List.cons.inj heq).1 h
  · next heq => exact absurd (List.cons.inj heq).1 h
  · next heq =>
    obtain ⟨rfl, rfl⟩ := List.cons.inj heq
    rfl
  · next heq => exact absurd heq (List.cons_ne_nil _ _)

/-- A letter after a backslash, other than that of a UTF-16 unit. -/
theorem unescape_letter {letter : Char} (h : letter ≠ 'u') (rest : List Char) :
    unescape ('\\' :: letter :: rest) =
      (shortEscapes.find? fun item => item.2 = letter).map fun item => (item.1, rest) := by
  unfold unescape
  split
  · next heq => exact absurd (List.cons.inj (List.cons.inj heq).2).1 h
  · next heq =>
    obtain ⟨-, heq⟩ := List.cons.inj heq
    obtain ⟨rfl, rfl⟩ := List.cons.inj heq
    rfl
  · next hnot heq =>
    obtain ⟨rfl, rfl⟩ := List.cons.inj heq
    exact absurd rfl (hnot _ _ rfl)
  · next heq => exact absurd heq (List.cons_ne_nil _ _)

theorem unescape_escapeUnit {n : Nat} (h : n < 0x10000) (hunit : ¬ (0xd800 ≤ n ∧ n < 0xdc00))
    (rest : List Char) : unescape (escapeUnit n ++ rest) = some (Char.ofNat n, rest) := by
  simp only [escapeUnit, List.cons_append, List.nil_append, unescape, unitValue_escapeUnit h,
    if_neg hunit]

theorem unescape_surrogates {high low : Nat} (hhigh : 0xd800 ≤ high ∧ high < 0xdc00)
    (hlow : low < 0x10000) (rest : List Char) :
    unescape (escapeUnit high ++ escapeUnit low ++ rest) =
      some (Char.ofNat (0x10000 + (high - 0xd800) * 0x400 + (low - 0xdc00)), rest) := by
  simp only [escapeUnit, List.cons_append, List.nil_append, unescape,
    unitValue_escapeUnit (show high < 0x10000 by omega), unitValue_escapeUnit hlow, if_pos hhigh]

/-- An escape is read back, whatever follows it. -/
theorem unescape_escape (c : Char) (rest : List Char) :
    unescape (escape c ++ rest) = some (c, rest) := by
  unfold escape
  split
  · next letter hletter =>
    have hall : ∀ item ∈ shortEscapes, item.2 ≠ 'u' ∧
        (shortEscapes.find? fun other => other.2 = item.2) = some item := by
      decide
    obtain ⟨l₁, l₂, hl, -⟩ := List.lookup_eq_some_iff.mp hletter
    obtain ⟨hu, hfind⟩ := hall (c, letter) (by rw [hl]; simp)
    exact (unescape_letter hu rest).trans (by rw [hfind]; rfl)
  · next hplain =>
    split_ifs with hascii hunit
    · -- a character that stands for itself is no backslash
      refine unescape_of_ne ?_ rest
      rintro rfl
      exact absurd hplain (by decide)
    · have hvalid : c.toNat.isValidChar := c.valid
      rw [unescape_escapeUnit hunit (by unfold Nat.isValidChar at hvalid; omega),
        Char.ofNat_toNat]
    · have hvalid : c.toNat.isValidChar := c.valid
      have hmax : c.toNat < 0x110000 := by unfold Nat.isValidChar at hvalid; omega
      rw [unescape_surrogates (by omega) (by omega)]
      have hback : 0x10000 + (0xd800 + (c.toNat - 0x10000) / 0x400 - 0xd800) * 0x400 +
          (0xdc00 + (c.toNat - 0x10000) % 0x400 - 0xdc00) = c.toNat := by omega
      rw [hback, Char.ofNat_toNat]

/-- No escape begins with the quote that ends a string. -/
theorem escape_head (c : Char) : ∃ first rest, escape c = first :: rest ∧ first ≠ '"' := by
  unfold escape
  split
  · exact ⟨_, _, rfl, by decide⟩
  · next hplain =>
    split_ifs
    · refine ⟨c, [], rfl, ?_⟩
      rintro rfl
      exact absurd hplain (by decide)
    · exact ⟨_, _, rfl, by decide⟩
    · exact ⟨_, _, rfl, by decide⟩

/-- A string in quotes. -/
def quote (s : String) : List Char := '"' :: (s.toList.flatMap escape ++ ['"'])

/-- An escaped text ends at the first quote that is not escaped, so it can be read back.
-/
theorem escapes_inj {l l' : List Char} {x y : List Char}
    (h : l.flatMap escape ++ '"' :: x = l'.flatMap escape ++ '"' :: y) : l = l' ∧ x = y := by
  induction l generalizing l' with
  | nil =>
    cases l' with
    | nil => exact ⟨rfl, (List.cons.inj h).2⟩
    | cons c' l' =>
      obtain ⟨first, rest, hescape, hfirst⟩ := escape_head c'
      rw [List.flatMap_cons, hescape] at h
      exact absurd (List.cons.inj h).1.symm hfirst
  | cons c l ih =>
    cases l' with
    | nil =>
      obtain ⟨first, rest, hescape, hfirst⟩ := escape_head c
      rw [List.flatMap_cons, hescape] at h
      exact absurd (List.cons.inj h).1 hfirst
    | cons c' l' =>
      rw [List.flatMap_cons, List.flatMap_cons, List.append_assoc, List.append_assoc] at h
      -- reading the first character of both sides leaves what follows it
      have hread := congrArg unescape h
      rw [unescape_escape, unescape_escape, Option.some.injEq, Prod.mk.injEq] at hread
      obtain ⟨rfl, hread⟩ := hread
      obtain ⟨rfl, hxy⟩ := ih hread
      exact ⟨rfl, hxy⟩

theorem quote_append_inj {s t : String} {x y : List Char} (h : quote s ++ x = quote t ++ y) :
    s = t ∧ x = y := by
  simp only [quote, List.cons_append, List.append_assoc, List.nil_append] at h
  obtain ⟨hlist, hxy⟩ := escapes_inj (List.cons.inj h).2
  exact ⟨String.toList_injective hlist, hxy⟩

/-! ### Integers -/

/-- `int.__repr__`. -/
def decimal : Int → List Char
  | .ofNat n => Nat.toDigits 10 n
  | .negSucc n => '-' :: Nat.toDigits 10 (n + 1)

/-- What follows a value is no digit. -/
def NoDigit (x : List Char) : Prop := ∀ c ∈ x.head?, c.isDigit = false

theorem noDigit_cons {c : Char} (h : c.isDigit = false) (x : List Char) : NoDigit (c :: x) := by
  rintro _ ⟨⟩
  exact h

theorem toDigits_append_inj {m n : Nat} {x y : List Char} (hx : NoDigit x) (hy : NoDigit y)
    (h : Nat.toDigits 10 m ++ x = Nat.toDigits 10 n ++ y) : m = n ∧ x = y := by
  have hdigits (n : Nat) : ∀ c ∈ Nat.toDigits 10 n, c.isDigit = true := fun c hc =>
    Nat.isDigit_of_mem_toDigits (by omega) (by omega) hc
  have htake {n : Nat} {x : List Char} (hx : NoDigit x) :
      (Nat.toDigits 10 n ++ x).takeWhile Char.isDigit = Nat.toDigits 10 n := by
    rw [List.takeWhile_append_of_pos (hdigits n)]
    cases x with
    | nil => simp
    | cons c x => simp [hx c rfl]
  have hsame : Nat.toDigits 10 m = Nat.toDigits 10 n := by
    rw [← htake hx, h, htake hy]
  rw [hsame] at h
  refine ⟨?_, List.append_cancel_left h⟩
  rw [← Nat.ofDigitChars_ten_toDigits (n := m), hsame, Nat.ofDigitChars_ten_toDigits]

/-- Where a numeral ends is seen by the first character that is no digit, so it can be
read back. -/
theorem decimal_append_inj {m n : Int} {x y : List Char} (hx : NoDigit x) (hy : NoDigit y)
    (h : decimal m ++ x = decimal n ++ y) : m = n ∧ x = y := by
  -- a text that begins with a digit begins with no minus
  have hminus (n : Nat) (x y : List Char) : Nat.toDigits 10 n ++ x ≠ '-' :: y := by
    intro h
    cases hdigits : Nat.toDigits 10 n with
    | nil => exact absurd hdigits Nat.toDigits_ne_nil
    | cons c rest =>
      rw [hdigits] at h
      have hc : c.isDigit = true := Nat.isDigit_of_mem_toDigits (n := n) (by omega : 0 < 10)
        (by omega) (by rw [hdigits]; simp)
      rw [(List.cons.inj h).1] at hc
      exact absurd hc (by decide)
  cases m with
  | ofNat m =>
    cases n with
    | ofNat n =>
      obtain ⟨rfl, hxy⟩ := toDigits_append_inj hx hy h
      exact ⟨rfl, hxy⟩
    | negSucc n => exact absurd h (hminus _ _ _)
  | negSucc m =>
    cases n with
    | ofNat n => exact absurd h.symm (hminus _ _ _)
    | negSucc n =>
      obtain ⟨hmn, hxy⟩ := toDigits_append_inj hx hy (List.cons.inj h).2
      exact ⟨by rw [Nat.succ.inj hmn], hxy⟩

/-! ### Values -/

section Writing

variable (floatText : Rat → List Char)

mutual

/-- The text of a value. The text of a float is a parameter. -/
def write : Json → List Char
  | .null => "null".toList
  | .bool true => "true".toList
  | .bool false => "false".toList
  | .int n => decimal n
  | .float q => floatText q
  | .str s => quote s
  | .arr [] => ['[', ']']
  | .arr (item :: items) => '[' :: (write item ++ writeItems items)
  | .obj [] => ['{', '}']
  | .obj (field :: fields) => '{' :: (writeField field ++ writeFields fields)

/-- The items after the first. -/
def writeItems : List Json → List Char
  | [] => [']']
  | item :: items => ',' :: (write item ++ writeItems items)

/-- The members after the first. -/
def writeFields : List (String × Json) → List Char
  | [] => ['}']
  | field :: fields => ',' :: (writeField field ++ writeFields fields)

def writeField : String × Json → List Char
  | (key, value) => quote key ++ ':' :: write value

end

end Writing

/-- No floats, and one member for each key. -/
inductive Plain : Json → Prop where
  | null : Plain .null
  | bool (b : Bool) : Plain (.bool b)
  | int (n : Int) : Plain (.int n)
  | str (s : String) : Plain (.str s)
  | arr {items : List Json} (h : ∀ item ∈ items, Plain item) : Plain (.arr items)
  | obj {fields : List (String × Json)} (hkeys : (fields.map Prod.fst).Nodup)
      (h : ∀ field ∈ fields, Plain field.2) : Plain (.obj fields)

/-- The kinds of plain values, by the first character of their text. -/
inductive Kind where
  | null
  | true
  | false
  | int
  | str
  | arr
  | obj
  | other
deriving DecidableEq

def kind : Json → Kind
  | .null => .null
  | .bool Bool.true => .true
  | .bool Bool.false => .false
  | .int _ => .int
  | .float _ => .other
  | .str _ => .str
  | .arr _ => .arr
  | .obj _ => .obj

/-- The kind a first character announces. -/
def kindOf (c : Char) : Kind :=
  if c = 'n' then .null else if c = 't' then .true else if c = 'f' then .false
  else if c = '"' then .str else if c = '[' then .arr else if c = '{' then .obj
  else if c = '-' ∨ c.isDigit then .int else .other

/-- The first character of a written value tells which kind of value it is. -/
theorem write_head (floatText : Rat → List Char) {v : Json} (h : Plain v) :
    ∃ c rest, write floatText v = c :: rest ∧ kindOf c = kind v := by
  cases h with
  | null => exact ⟨_, _, rfl, rfl⟩
  | bool b => cases b <;> exact ⟨_, _, rfl, rfl⟩
  | int n =>
    cases n with
    | ofNat n =>
      -- a number begins with a digit, which begins no other kind
      cases hdigits : Nat.toDigits 10 n with
      | nil => exact absurd hdigits Nat.toDigits_ne_nil
      | cons c rest =>
        have hc : c.isDigit = Bool.true := Nat.isDigit_of_mem_toDigits (n := n)
          (by omega : 0 < 10) (by omega) (by rw [hdigits]; simp)
        have hne (d : Char) (hd : d.isDigit = Bool.false) : c ≠ d := by
          rintro rfl
          rw [hc] at hd
          exact absurd hd (by decide)
        refine ⟨c, rest, by rw [write, decimal, hdigits], ?_⟩
        rw [kindOf, if_neg (hne 'n' (by decide)), if_neg (hne 't' (by decide)),
          if_neg (hne 'f' (by decide)), if_neg (hne '"' (by decide)), if_neg (hne '[' (by decide)),
          if_neg (hne '{' (by decide)), if_pos (.inr hc)]
        rfl
    | negSucc n => exact ⟨'-', _, rfl, rfl⟩
  | str s => exact ⟨_, _, rfl, rfl⟩
  | @arr items _ => cases items <;> exact ⟨_, _, by simp only [write]; rfl, rfl⟩
  | @obj fields _ _ => cases fields <;> exact ⟨_, _, by simp only [write]; rfl, rfl⟩

/-- The values of a kind. -/
theorem eq_of_kind (v : Json) :
    match kind v with
    | .null => v = .null
    | .true => v = .bool Bool.true
    | .false => v = .bool Bool.false
    | .int => ∃ n, v = .int n
    | .str => ∃ s, v = .str s
    | .arr => ∃ items, v = .arr items
    | .obj => ∃ fields, v = .obj fields
    | .other => True := by
  cases v with
  | null => exact rfl
  | bool b => cases b <;> exact rfl
  | int n => exact ⟨n, rfl⟩
  | float q => exact trivial
  | str s => exact ⟨s, rfl⟩
  | arr items => exact ⟨items, rfl⟩
  | obj fields => exact ⟨fields, rfl⟩

section Reading

variable {floatText : Rat → List Char}

/-- The text of a value is read back from the front of any text. -/
def Readable (floatText : Rat → List Char) (a : Json) : Prop :=
  ∀ {b x y}, Plain b → NoDigit x → NoDigit y →
    write floatText a ++ x = write floatText b ++ y → a = b ∧ x = y

theorem writeItems_noDigit (items : List Json) (x : List Char) :
    NoDigit (writeItems floatText items ++ x) := by
  cases items <;> exact noDigit_cons (by decide) _

theorem writeFields_noDigit (fields : List (String × Json)) (x : List Char) :
    NoDigit (writeFields floatText fields ++ x) := by
  cases fields <;> exact noDigit_cons (by decide) _

theorem writeItems_append_inj {as bs : List Json} (has : ∀ a ∈ as, Readable floatText a)
    (hbs : ∀ b ∈ bs, Plain b) {x y : List Char}
    (h : writeItems floatText as ++ x = writeItems floatText bs ++ y) : as = bs ∧ x = y := by
  induction as generalizing bs with
  | nil =>
    cases bs with
    | nil => exact ⟨rfl, (List.cons.inj h).2⟩
    | cons b bs => exact absurd (List.cons.inj h).1 (by decide)
  | cons a as ih =>
    cases bs with
    | nil => exact absurd (List.cons.inj h).1 (by decide)
    | cons b bs =>
      rw [writeItems, writeItems, List.cons_append, List.cons_append, List.append_assoc,
        List.append_assoc] at h
      obtain ⟨hhead, htail⟩ := List.forall_mem_cons.mp has
      obtain ⟨hplain, hplains⟩ := List.forall_mem_cons.mp hbs
      obtain ⟨rfl, hrest⟩ := hhead hplain (writeItems_noDigit _ _) (writeItems_noDigit _ _)
        (List.cons.inj h).2
      obtain ⟨rfl, hxy⟩ := ih htail hplains hrest
      exact ⟨rfl, hxy⟩

theorem writeField_append_inj {a b : String × Json} (ha : Readable floatText a.2)
    (hb : Plain b.2) {x y : List Char} (hx : NoDigit x) (hy : NoDigit y)
    (h : writeField floatText a ++ x = writeField floatText b ++ y) : a = b ∧ x = y := by
  rw [writeField, writeField, List.append_assoc, List.append_assoc] at h
  obtain ⟨hkey, h⟩ := quote_append_inj h
  obtain ⟨hvalue, hxy⟩ := ha hb hx hy (List.cons.inj h).2
  exact ⟨Prod.ext hkey hvalue, hxy⟩

theorem writeFields_append_inj {as bs : List (String × Json)}
    (has : ∀ a ∈ as, Readable floatText a.2) (hbs : ∀ b ∈ bs, Plain b.2) {x y : List Char}
    (h : writeFields floatText as ++ x = writeFields floatText bs ++ y) : as = bs ∧ x = y := by
  induction as generalizing bs with
  | nil =>
    cases bs with
    | nil => exact ⟨rfl, (List.cons.inj h).2⟩
    | cons b bs => exact absurd (List.cons.inj h).1 (by decide)
  | cons a as ih =>
    cases bs with
    | nil => exact absurd (List.cons.inj h).1 (by decide)
    | cons b bs =>
      -- the first members agree, and so do the rest
      rw [writeFields, writeFields, List.cons_append, List.cons_append, List.append_assoc,
        List.append_assoc] at h
      obtain ⟨hhead, htail⟩ := List.forall_mem_cons.mp has
      obtain ⟨hplain, hplains⟩ := List.forall_mem_cons.mp hbs
      obtain ⟨rfl, hrest⟩ := writeField_append_inj hhead hplain (writeFields_noDigit _ _)
        (writeFields_noDigit _ _) (List.cons.inj h).2
      obtain ⟨rfl, hxy⟩ := ih htail hplains hrest
      exact ⟨rfl, hxy⟩

/-- The text of a value does not begin with a bracket that closes. -/
theorem write_ne_close {v : Json} (h : Plain v) {c : Char} (hc : kindOf c = .other)
    (x y : List Char) : write floatText v ++ x ≠ c :: y := by
  intro heq
  obtain ⟨first, rest, hwrite, hkind⟩ := write_head floatText h
  rw [hwrite] at heq
  rw [(List.cons.inj heq).1, hc] at hkind
  cases h with
  | bool b => cases b <;> exact absurd hkind (by decide)
  | _ => cases hkind

/-- Values whose texts begin alike are of one kind. -/
theorem kind_eq_of_write {a b : Json} (ha : Plain a) (hb : Plain b) {x y : List Char}
    (h : write floatText a ++ x = write floatText b ++ y) : kind b = kind a := by
  obtain ⟨c, rest, hwrite, hkind⟩ := write_head floatText ha
  obtain ⟨c', rest', hwrite', hkind'⟩ := write_head floatText hb
  rw [hwrite, hwrite'] at h
  rw [← hkind, ← hkind', (List.cons.inj h).1]

theorem arr_append_inj {as bs : List Json} (has : ∀ a ∈ as, Readable floatText a)
    (hplains : ∀ a ∈ as, Plain a) (hbs : ∀ b ∈ bs, Plain b) {x y : List Char}
    (h : write floatText (.arr as) ++ x = write floatText (.arr bs) ++ y) : as = bs ∧ x = y := by
  cases as with
  | nil =>
    cases bs with
    | nil => exact ⟨rfl, (List.cons.inj (List.cons.inj h).2).2⟩
    | cons b bs =>
      simp only [write, List.cons_append, List.append_assoc, List.nil_append] at h
      exact absurd (List.cons.inj h).2.symm (write_ne_close (hbs b (by simp)) (by decide) _ _)
  | cons a as =>
    cases bs with
    | nil =>
      simp only [write, List.cons_append, List.append_assoc, List.nil_append] at h
      exact absurd (List.cons.inj h).2 (write_ne_close (hplains a (by simp)) (by decide) _ _)
    | cons b bs =>
      -- the first items are read like the others
      refine writeItems_append_inj has hbs ?_
      simp only [write, List.cons_append] at h
      simp only [writeItems, List.cons_append, (List.cons.inj h).2]

theorem writeField_head (floatText : Rat → List Char) (field : String × Json) :
    ∃ rest, writeField floatText field = '"' :: rest := by
  obtain ⟨key, value⟩ := field
  exact ⟨_, rfl⟩

theorem obj_append_inj {as bs : List (String × Json)} (has : ∀ a ∈ as, Readable floatText a.2)
    (hbs : ∀ b ∈ bs, Plain b.2) {x y : List Char}
    (h : write floatText (.obj as) ++ x = write floatText (.obj bs) ++ y) : as = bs ∧ x = y := by
  cases as with
  | nil =>
    cases bs with
    | nil => exact ⟨rfl, (List.cons.inj (List.cons.inj h).2).2⟩
    | cons b bs =>
      -- an empty object closes where a member would begin
      obtain ⟨rest, hrest⟩ := writeField_head floatText b
      simp only [write, hrest, List.cons_append] at h
      exact absurd (List.cons.inj (List.cons.inj h).2).1 (by decide)
  | cons a as =>
    cases bs with
    | nil =>
      obtain ⟨rest, hrest⟩ := writeField_head floatText a
      simp only [write, hrest, List.cons_append] at h
      exact absurd (List.cons.inj (List.cons.inj h).2).1 (by decide)
    | cons b bs =>
      refine writeFields_append_inj has hbs ?_
      simp only [write, List.cons_append] at h
      simp only [writeFields, List.cons_append, (List.cons.inj h).2]

/-- Two texts that begin with the texts of values begin with the same one, if
what follows them is no digit. -/
theorem write_append_inj {a : Json} (ha : Plain a) : Readable floatText a := by
  -- the first character tells the kind, and each kind tells where its text ends
  induction ha with
  | null =>
    intro b x y hb hx hy h
    have hkind := kind_eq_of_write .null hb h
    have hb := eq_of_kind b
    rw [hkind] at hb
    obtain rfl := hb
    exact ⟨rfl, List.append_cancel_left h⟩
  | bool v =>
    intro b x y hb hx hy h
    have hkind := kind_eq_of_write (.bool v) hb h
    have hb := eq_of_kind b
    rw [hkind] at hb
    cases v <;> (obtain rfl := hb; exact ⟨rfl, List.append_cancel_left h⟩)
  | int n =>
    intro b x y hb hx hy h
    have hkind := kind_eq_of_write (.int n) hb h
    have hb := eq_of_kind b
    rw [hkind] at hb
    obtain ⟨m, rfl⟩ := hb
    obtain ⟨rfl, hxy⟩ := decimal_append_inj hx hy h
    exact ⟨rfl, hxy⟩
  | str s =>
    intro b x y hb hx hy h
    have hkind := kind_eq_of_write (.str s) hb h
    have hb := eq_of_kind b
    rw [hkind] at hb
    obtain ⟨t, rfl⟩ := hb
    obtain ⟨rfl, hxy⟩ := quote_append_inj h
    exact ⟨rfl, hxy⟩
  | @arr items hitems ih =>
    intro b x y hb hx hy h
    have hkind := kind_eq_of_write (.arr hitems) hb h
    have hshape := eq_of_kind b
    rw [hkind] at hshape
    obtain ⟨others, rfl⟩ := hshape
    cases hb with
    | arr hothers =>
      obtain ⟨rfl, hxy⟩ := arr_append_inj (fun a ha => ih a ha) hitems hothers h
      exact ⟨rfl, hxy⟩
  | @obj fields hkeys hfields ih =>
    intro b x y hb hx hy h
    have hkind := kind_eq_of_write (.obj hkeys hfields) hb h
    have hshape := eq_of_kind b
    rw [hkind] at hshape
    obtain ⟨others, rfl⟩ := hshape
    cases hb with
    | obj hkeys' hothers =>
      obtain ⟨rfl, hxy⟩ := obj_append_inj (fun a ha => ih a ha) hothers h
      exact ⟨rfl, hxy⟩

/-- A value is known by its text. -/
theorem write_inj {a b : Json} (ha : Plain a) (hb : Plain b)
    (h : write floatText a = write floatText b) : a = b := by
  have hnil : NoDigit [] := fun c hc => absurd hc (by simp)
  have hread : Readable floatText a := write_append_inj ha
  refine (hread hb hnil hnil ?_).1
  rw [h]

end Reading

end Json

end PyLib
