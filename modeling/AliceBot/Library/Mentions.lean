import AliceBot.Library.Json
import AliceBot.Library.Text

/-!
# Texts that mention names

A value is written with names that are not known yet: a `Template` is a JSON value whose texts
mention names by their place in a list. Where such a value was written with one list of names and
each name is then replaced in all texts, one after the other, by its counterpart of another list,
the outcome is the value written with the other list (`Template.mapTexts_json`), as long as

* each name, when its turn comes, occurs only where it is mentioned (`CleanText`), so that
  `str.replace` finds the mentions and nothing else;
* the keys of objects, in which nothing is replaced, mention only names that stay (`KeptText`).
-/

namespace PyLib

/-! ### MarkedText places -/

/-- A text in which places are marked: `none` is a marked place. -/
abbrev MarkedText := List (Option Char)

/-- The text with the same word at every marked place. -/
def MarkedText.fill (word : List Char) : MarkedText → List Char
  | [] => []
  | some c :: rest => c :: fill word rest
  | none :: rest => word ++ fill word rest

/-- Where the marked places are filled with a word, it begins nowhere but there. -/
def MarkedText.Only (word : List Char) : MarkedText → Prop
  | [] => True
  | some c :: rest => ¬ word <+: c :: fill word rest ∧ Only word rest
  | none :: rest => Only word rest

instance MarkedText.decidableOnly (word : List Char) : ∀ text, Decidable (MarkedText.Only word text)
  | [] => isTrue trivial
  | some _ :: rest => have := decidableOnly word rest; inferInstanceAs (Decidable (_ ∧ _))
  | none :: rest => decidableOnly word rest

theorem replaceScan_skip (old new l rest : List Char) :
    replaceScan old new (l ++ rest) l.length = replaceScan old new rest 0 := by
  induction l with
  | nil => rfl
  | cons c l ih => exact ih

/-- Replacing a word that occurs only at the marked places fills these with the other word. -/
theorem replaceScan_fill {old : List Char} (new : List Char) (hold : old ≠ [])
    {text : MarkedText} (h : MarkedText.Only old text) :
    replaceScan old new (MarkedText.fill old text) 0 = MarkedText.fill new text := by
  induction text with
  | nil => rfl
  | cons place text ih =>
    cases place with
    | some c =>
      obtain ⟨hother, hrest⟩ := h
      rw [MarkedText.fill, MarkedText.fill, replaceScan,
        if_neg fun hmatch => hother (List.isPrefixOf_iff_prefix.mp hmatch), ih hrest]
    | none =>
      obtain ⟨o, rest, rfl⟩ := List.exists_cons_of_ne_nil hold
      rw [MarkedText.fill, MarkedText.fill, List.cons_append, replaceScan, if_pos, List.length_cons,
        Nat.add_sub_cancel, replaceScan_skip, ih h]
      exact List.isPrefixOf_iff_prefix.mpr (List.prefix_append (o :: rest) _)

/-! ### Texts -/

/-- A piece of a text: characters, or the name at a place of a list. -/
inductive Piece where
  | text (chars : List Char)
  | mention (index : Nat)
deriving DecidableEq

/-- The name at a place. -/
def nameAt (names : List String) (index : Nat) : List Char := (names[index]?.getD "").toList

def Piece.chars (names : List String) : Piece → List Char
  | .text chars => chars
  | .mention index => nameAt names index

/-- The text of pieces. -/
def renderText (names : List String) (pieces : List Piece) : String :=
  String.ofList (pieces.flatMap (Piece.chars names))

/-- The places that pieces mention. -/
def mentions (pieces : List Piece) : List Nat :=
  pieces.filterMap fun
    | .text _ => none
    | .mention index => some index

/-- The text of pieces, the mentions of one name marked. -/
def marked (names : List String) (index : Nat) : List Piece → MarkedText
  | [] => []
  | .text chars :: rest => chars.map some ++ marked names index rest
  | .mention other :: rest =>
    (if other = index then [none] else (nameAt names other).map some) ++ marked names index rest

section Texts

variable {names others : List String} {pieces : List Piece}

theorem MarkedText.fill_map_some (word chars : List Char) (rest : MarkedText) :
    MarkedText.fill word (chars.map some ++ rest) = chars ++ MarkedText.fill word rest := by
  induction chars with
  | nil => rfl
  | cons c chars ih => exact congrArg (c :: ·) ih

theorem fill_marked (names : List String) (index : Nat) (pieces : List Piece) :
    MarkedText.fill (nameAt names index) (marked names index pieces) =
      pieces.flatMap (Piece.chars names) := by
  induction pieces with
  | nil => rfl
  | cons piece pieces ih =>
    rw [List.flatMap_cons]
    cases piece with
    | text chars => rw [marked, MarkedText.fill_map_some, ih, Piece.chars]
    | mention other =>
      rw [marked, Piece.chars]
      split
      · next heq =>
        rw [List.singleton_append, MarkedText.fill, ih, heq]
      · rw [MarkedText.fill_map_some, ih]

/-- The other names alone make a marked text. -/
theorem marked_congr {index : Nat}
    (h : ∀ other, other ≠ index → nameAt names other = nameAt others other) :
    marked names index pieces = marked others index pieces := by
  induction pieces with
  | nil => rfl
  | cons piece pieces ih =>
    cases piece with
    | text chars => rw [marked, marked, ih]
    | mention other =>
      rw [marked, marked, ih]
      split
      · rfl
      · next hne => rw [h other hne]

theorem renderText_congr (h : ∀ index ∈ mentions pieces, nameAt names index = nameAt others index) :
    renderText names pieces = renderText others pieces := by
  refine congrArg String.ofList (List.flatMap_congr fun piece hpiece => ?_)
  cases piece with
  | text chars => rfl
  | mention index => exact h index (List.mem_filterMap.mpr ⟨_, hpiece, rfl⟩)

end Texts

/-! ### Replacing names one after the other -/

/-- Names with their counterparts. -/
abbrev Renames := List (String × String)

/-- Each name that changes is replaced in a text, one after the other. -/
def replaceText (renames : Renames) (text : String) : String :=
  renames.foldl
    (fun text rename => if rename.1 ≠ rename.2 then replaceAll text rename.1 rename.2 else text)
    text

/-- The names after the first of them have been replaced. -/
def replaced (renames : Renames) (done : Nat) : List String :=
  (renames.take done).map Prod.snd ++ (renames.drop done).map Prod.fst

/-- Each name that changes occurs, when its turn comes, only where it is mentioned. -/
def CleanText (renames : Renames) (pieces : List Piece) : Prop :=
  ∀ index (hindex : index < renames.length), renames[index].1 ≠ renames[index].2 →
    renames[index].1 ≠ "" ∧
      MarkedText.Only renames[index].1.toList (marked (replaced renames index) index pieces)

instance (renames : Renames) (pieces : List Piece) : Decidable (CleanText renames pieces) :=
  inferInstanceAs (Decidable (∀ index, ∀ hindex : index < renames.length,
    renames[index].1 ≠ renames[index].2 → _ ∧ _))

/-- A text mentions no name that changes. -/
def KeptText (renames : Renames) (pieces : List Piece) : Prop :=
  ∀ index ∈ mentions pieces, ∀ rename ∈ renames[index]?, rename.1 = rename.2

instance (renames : Renames) (pieces : List Piece) : Decidable (KeptText renames pieces) :=
  inferInstanceAs (Decidable (∀ index ∈ mentions pieces, ∀ rename ∈ renames[index]?, _ = _))

section Replace

variable {renames : Renames} {pieces : List Piece}

theorem nameAt_replaced_of_lt {done index : Nat} (h : index < done)
    (hlength : index < renames.length) :
    nameAt (replaced renames done) index = renames[index].2.toList := by
  have hget : (replaced renames done)[index]? = some renames[index].2 := by
    rw [replaced, List.getElem?_append_left (by simp; omega), List.getElem?_map,
      List.getElem?_take_of_lt h, List.getElem?_eq_getElem hlength]
    rfl
  rw [nameAt, hget]
  rfl

theorem nameAt_replaced_of_ge {done index : Nat} (h : done ≤ index)
    (hlength : index < renames.length) :
    nameAt (replaced renames done) index = renames[index].1.toList := by
  have hget : (replaced renames done)[index]? = some renames[index].1 := by
    have htake : ((renames.take done).map Prod.snd).length = done := by
      simp
      omega
    rw [replaced, List.getElem?_append_right (by rw [htake]; exact h), htake, List.getElem?_map,
      List.getElem?_drop, Nat.add_sub_cancel' h, List.getElem?_eq_getElem hlength]
    rfl
  rw [nameAt, hget]
  rfl

theorem nameAt_replaced_of_length_le {done index : Nat} (hlength : renames.length ≤ index) :
    nameAt (replaced renames done) index = [] := by
  have hget : (replaced renames done)[index]? = none := by
    rw [List.getElem?_eq_none_iff, replaced, List.length_append, List.length_map, List.length_map,
      List.length_take, List.length_drop]
    omega
  rw [nameAt, hget]
  rfl

/-- Replacing one name leaves the others. -/
theorem nameAt_replaced_succ {done other : Nat} (h : other ≠ done) :
    nameAt (replaced renames (done + 1)) other = nameAt (replaced renames done) other := by
  rcases Nat.lt_or_ge other renames.length with hlength | hlength
  · rcases Nat.lt_or_gt_of_ne h with hlt | hgt
    · rw [nameAt_replaced_of_lt hlt hlength, nameAt_replaced_of_lt (by omega) hlength]
    · rw [nameAt_replaced_of_ge (by omega) hlength, nameAt_replaced_of_ge (by omega) hlength]
  · rw [nameAt_replaced_of_length_le hlength, nameAt_replaced_of_length_le hlength]

/-- One name after the other is replaced where it is mentioned. -/
theorem replaceText_take (h : CleanText renames pieces) {done : Nat}
    (hdone : done ≤ renames.length) :
    replaceText (renames.take done) (renderText (replaced renames 0) pieces) =
      renderText (replaced renames done) pieces := by
  induction done with
  | zero => rfl
  | succ done ih =>
    have hlt : done < renames.length := hdone
    rw [List.take_succ_eq_append_getElem hlt, replaceText, List.foldl_append]
    have hearlier := ih (by omega)
    unfold replaceText at hearlier
    rw [hearlier, List.foldl_cons, List.foldl_nil]
    -- what is replaced now stands at the marked places, before and after
    have hmarked : marked (replaced renames done) done pieces =
        marked (replaced renames (done + 1)) done pieces :=
      marked_congr fun other hother => (nameAt_replaced_succ hother).symm
    have hbefore := fill_marked (replaced renames done) done pieces
    have hafter := fill_marked (replaced renames (done + 1)) done pieces
    rw [nameAt_replaced_of_ge (Nat.le_refl done) hlt] at hbefore
    rw [nameAt_replaced_of_lt (Nat.lt_succ_self done) hlt, ← hmarked] at hafter
    split
    · next hchanges =>
      obtain ⟨hname, honly⟩ := h done hlt hchanges
      have hne : renames[done].1.toList ≠ [] := fun hnil => hname (String.toList_eq_nil_iff.mp hnil)
      have hscan := replaceScan_fill renames[done].2.toList hne honly
      rw [hbefore, hafter] at hscan
      rw [replaceAll, renderText, String.toList_ofList, hscan, renderText]
    · next hkept =>
      rw [not_not] at hkept
      rw [renderText, renderText, ← hbefore, ← hafter, hkept]

theorem nameAt_take {names : List String} {done index : Nat} (h : index < done) :
    nameAt (names.take done) index = nameAt names index := by
  rw [nameAt, List.getElem?_take_of_lt h, nameAt]

theorem map_fst_eq_replaced (renames : Renames) : renames.map Prod.fst = replaced renames 0 := rfl

/-- A text that was written with the first names, and mentions only these, becomes the text that
is written with their counterparts, when these names and any later ones are replaced. -/
theorem replaceText_renderText (h : CleanText renames pieces) {known done : Nat}
    (hknown : known ≤ done) (hdone : done ≤ renames.length)
    (hbelow : ∀ index ∈ mentions pieces, index < known) :
    replaceText (renames.take done) (renderText ((renames.take known).map Prod.fst) pieces) =
      renderText ((renames.take known).map Prod.snd) pieces := by
  have hfirst : renderText ((renames.take known).map Prod.fst) pieces =
      renderText (replaced renames 0) pieces := by
    refine renderText_congr fun index hindex => ?_
    rw [List.map_take, nameAt_take (hbelow index hindex), map_fst_eq_replaced]
  have hsecond : renderText ((renames.take known).map Prod.snd) pieces =
      renderText (replaced renames done) pieces := by
    refine renderText_congr fun index hindex => ?_
    have hlt := hbelow index hindex
    have hlength : index < renames.length := by omega
    rw [List.map_take, nameAt_take hlt, nameAt_replaced_of_lt (by omega) hlength, nameAt,
      List.getElem?_map, List.getElem?_eq_getElem hlength]
    rfl
  rw [hfirst, hsecond, replaceText_take h hdone]

/-- A text that mentions no name that changes is the same with the counterparts. -/
theorem renderText_of_kept (h : KeptText renames pieces) :
    renderText (renames.map Prod.fst) pieces = renderText (renames.map Prod.snd) pieces := by
  refine renderText_congr fun index hindex => ?_
  rw [nameAt, nameAt, List.getElem?_map, List.getElem?_map]
  cases hget : renames[index]? with
  | none => rfl
  | some rename => rw [Option.map_some, Option.map_some, h index hindex rename hget]

end Replace

/-! ### Values -/

/-- A JSON value whose texts and keys mention names. -/
inductive Template where
  | null
  | bool (b : Bool)
  | int (n : Int)
  | float (q : Rat)
  | str (pieces : List Piece)
  | arr (items : List Template)
  | obj (fields : List (List Piece × Template))

namespace Template

mutual

/-- The value with names. -/
def json (names : List String) : Template → Json
  | .null => .null
  | .bool b => .bool b
  | .int n => .int n
  | .float q => .float q
  | .str pieces => .str (renderText names pieces)
  | .arr items => .arr (jsonItems names items)
  | .obj fields => .obj (jsonFields names fields)
termination_by structural t => t

def jsonItems (names : List String) : List Template → List Json
  | [] => []
  | item :: rest => json names item :: jsonItems names rest
termination_by structural t => t

def jsonFields (names : List String) : List (List Piece × Template) → Dict Json
  | [] => []
  | field :: rest => jsonField names field :: jsonFields names rest
termination_by structural t => t

def jsonField (names : List String) : List Piece × Template → String × Json
  | (key, value) => (renderText names key, json names value)
termination_by structural t => t

end

/-- A text of a value that mentions only the first names, and cleanly. -/
structure TextOK (renames : Renames) (known : Nat) (pieces : List Piece) : Prop where
  clean : CleanText renames pieces
  below : ∀ index ∈ mentions pieces, index < known

/-- A key that mentions only first names that stay. -/
structure KeyOK (renames : Renames) (known : Nat) (pieces : List Piece) : Prop where
  kept : KeptText renames pieces
  below : ∀ index ∈ mentions pieces, index < known

mutual

/-- Texts and keys of a value mention the first names in order. -/
def OK (renames : Renames) (known : Nat) : Template → Prop
  | .str pieces => TextOK renames known pieces
  | .arr items => ItemsOK renames known items
  | .obj fields => FieldsOK renames known fields
  | _ => True
termination_by structural t => t

def ItemsOK (renames : Renames) (known : Nat) : List Template → Prop
  | [] => True
  | item :: rest => OK renames known item ∧ ItemsOK renames known rest
termination_by structural t => t

def FieldsOK (renames : Renames) (known : Nat) : List (List Piece × Template) → Prop
  | [] => True
  | field :: rest => FieldOK renames known field ∧ FieldsOK renames known rest
termination_by structural t => t

def FieldOK (renames : Renames) (known : Nat) : List Piece × Template → Prop
  | (key, value) => KeyOK renames known key ∧ OK renames known value
termination_by structural t => t

end

end Template

namespace Json

mutual

/-- A value with every text rewritten; the keys of objects stay. -/
def mapTexts (f : String → String) : Json → Json
  | .str s => .str (f s)
  | .arr items => .arr (mapItems f items)
  | .obj fields => .obj (mapFields f fields)
  | .null => .null
  | .bool b => .bool b
  | .int n => .int n
  | .float q => .float q
termination_by structural v => v

def mapItems (f : String → String) : List Json → List Json
  | [] => []
  | item :: rest => mapTexts f item :: mapItems f rest
termination_by structural v => v

def mapFields (f : String → String) : List (String × Json) → List (String × Json)
  | [] => []
  | field :: rest => mapField f field :: mapFields f rest
termination_by structural v => v

def mapField (f : String → String) : String × Json → String × Json
  | (key, value) => (key, mapTexts f value)
termination_by structural v => v

end

/-- Rewriting texts goes through the items of a dictionary. -/
theorem mapFields_set (f : String → String) (fields : Dict Json) (key : String) (value : Json) :
    mapFields f (fields.set key value) = Dict.set (mapFields f fields) key (mapTexts f value) := by
  induction fields with
  | nil => rfl
  | cons field fields ih =>
    obtain ⟨k, v⟩ := field
    rw [Dict.set]
    split
    · next heq =>
      rw [mapFields, mapFields, mapField, mapField, Dict.set, if_pos heq]
    · next hne =>
      rw [mapFields, mapFields, mapField, Dict.set, if_neg hne, ih]

theorem get?_mapFields (f : String → String) (fields : Dict Json) (key : String) :
    Dict.get? (mapFields f fields) key = (Dict.get? fields key).map (mapTexts f) := by
  induction fields with
  | nil => rfl
  | cons field fields ih =>
    obtain ⟨k, v⟩ := field
    rw [mapFields, mapField, Dict.get?_cons, Dict.get?_cons, ih]
    split
    · rfl
    · rfl

end Json

section Values

variable {renames : Renames} {known done : Nat}

theorem renderText_key {pieces : List Piece} (h : Template.KeyOK renames known pieces) :
    renderText ((renames.take known).map Prod.fst) pieces =
      renderText ((renames.take known).map Prod.snd) pieces := by
  refine renderText_of_kept fun index hindex rename hrename => h.kept index hindex rename ?_
  rw [List.getElem?_take_of_lt (h.below index hindex)] at hrename
  exact hrename

mutual

/-- A value that was written with the first names becomes the value that is written with their
counterparts, when these names and any later ones are replaced. -/
theorem Template.mapTexts_json (hknown : known ≤ done) (hdone : done ≤ renames.length) :
    ∀ t : Template, t.OK renames known →
      (t.json ((renames.take known).map Prod.fst)).mapTexts (replaceText (renames.take done)) =
        t.json ((renames.take known).map Prod.snd)
  | .null, _ => rfl
  | .bool _, _ => rfl
  | .int _, _ => rfl
  | .float _, _ => rfl
  | .str _, h => congrArg Json.str (replaceText_renderText h.clean hknown hdone h.below)
  | .arr items, h => congrArg Json.arr (Template.mapItems_json hknown hdone items h)
  | .obj fields, h => congrArg Json.obj (Template.mapFields_json hknown hdone fields h)

theorem Template.mapItems_json (hknown : known ≤ done) (hdone : done ≤ renames.length) :
    ∀ items : List Template, Template.ItemsOK renames known items →
      Json.mapItems (replaceText (renames.take done))
          (Template.jsonItems ((renames.take known).map Prod.fst) items) =
        Template.jsonItems ((renames.take known).map Prod.snd) items
  | [], _ => rfl
  | item :: rest, h =>
    congrArg₂ List.cons (Template.mapTexts_json hknown hdone item h.1)
      (Template.mapItems_json hknown hdone rest h.2)

theorem Template.mapFields_json (hknown : known ≤ done) (hdone : done ≤ renames.length) :
    ∀ fields : List (List Piece × Template), Template.FieldsOK renames known fields →
      Json.mapFields (replaceText (renames.take done))
          (Template.jsonFields ((renames.take known).map Prod.fst) fields) =
        Template.jsonFields ((renames.take known).map Prod.snd) fields
  | [], _ => rfl
  | field :: rest, h =>
    congrArg₂ List.cons (Template.mapField_json hknown hdone field h.1)
      (Template.mapFields_json hknown hdone rest h.2)

theorem Template.mapField_json (hknown : known ≤ done) (hdone : done ≤ renames.length) :
    ∀ field : List Piece × Template, Template.FieldOK renames known field →
      Json.mapField (replaceText (renames.take done))
          (Template.jsonField ((renames.take known).map Prod.fst) field) =
        Template.jsonField ((renames.take known).map Prod.snd) field
  | (_, value), h =>
    congrArg₂ Prod.mk (renderText_key h.1) (Template.mapTexts_json hknown hdone value h.2)

end

end Values

end PyLib
