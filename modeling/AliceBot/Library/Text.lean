import Mathlib.Data.String.Basic

/-!
# Text helpers of the Python standard library

`str.split`, `str.strip`, `str.startswith` and the ASCII part of case folding,
on the code points of a string. The set of separators of an argument-free
`str.split` is Unicode's, which Python fixes as the twenty-nine code points of
`isSpace`.
-/

namespace PyLib

/-! ### The order of strings -/

instance isTrans_string_le : IsTrans String (· ≤ ·) := inferInstance

instance antisymm_string_le : Std.Antisymm fun a b : String => a ≤ b := inferInstance

instance total_string_le : Std.Total fun a b : String => a ≤ b := inferInstance

instance lawfulBEq_optionString : LawfulBEq (Option String) := inferInstance

/-! ### White space and case -/

/-- `str.isspace` on one code point. -/
def isSpace (c : Char) : Bool :=
  c.toNat ∈ [0x09, 0x0A, 0x0B, 0x0C, 0x0D, 0x1C, 0x1D, 0x1E, 0x1F, 0x20, 0x85, 0xA0, 0x1680,
    0x2000, 0x2001, 0x2002, 0x2003, 0x2004, 0x2005, 0x2006, 0x2007, 0x2008, 0x2009, 0x200A,
    0x2028, 0x2029, 0x202F, 0x205F, 0x3000]

/-- `value.split()`: the maximal runs of non-space code points. -/
def words (s : String) : List String :=
  ((s.toList.splitOnP isSpace).filter (· ≠ [])).map String.ofList

/-- `" ".join(value.split())`. -/
def collapse (s : String) : String :=
  " ".intercalate (words s)

/-- `value.strip()`. -/
def strip (s : String) : String :=
  String.ofList (((s.toList.dropWhile isSpace).reverse.dropWhile isSpace).reverse)

/-- `value.startswith(pre)`. -/
def startsWith (s pre : String) : Bool :=
  pre.toList.isPrefixOf s.toList

/-- `value.removeprefix(pre)`. -/
def removePrefix (s pre : String) : String :=
  if startsWith s pre then String.ofList (s.toList.drop pre.toList.length) else s

/-- The case translation of the twenty-six ASCII capitals. -/
def asciiLowerChar (c : Char) : Char :=
  if 'A' ≤ c ∧ c ≤ 'Z' then Char.ofNat (c.toNat + 32) else c

/-- `value.translate(…)` under the ASCII capital-to-small table. -/
def asciiLower (s : String) : String :=
  String.ofList (s.toList.map asciiLowerChar)

/-- `value.isascii()`. -/
def isAscii (s : String) : Bool :=
  s.toList.all fun c => c.toNat < 128

/-! ### Stripping -/

/-- A text without white space is its own stripped form. -/
theorem strip_of_noSpace {s : String} (h : ∀ c ∈ s.toList, isSpace c = false) : strip s = s := by
  have hkeep : ∀ l : List Char, (∀ c ∈ l, isSpace c = false) → l.dropWhile isSpace = l := by
    intro l hl
    cases l with
    | nil => rfl
    | cons c l => simp [hl c (by simp)]
  rw [strip, hkeep _ h, hkeep _ fun c hc => h c (List.mem_reverse.mp hc), List.reverse_reverse,
    String.ofList_toList]

/-- Stripping leaves nothing to strip. -/
theorem strip_strip (s : String) : strip (strip s) = strip s := by
  have hdrop : ∀ l : List Char, (l.dropWhile isSpace).dropWhile isSpace = l.dropWhile isSpace := by
    intro l
    induction l with
    | nil => rfl
    | cons c l ih =>
      by_cases hc : isSpace c = true
      · simpa [hc] using ih
      · simp [hc]
  -- What is left after the front is stripped keeps its front when the back is.
  have hfront : ∀ l : List Char, l.dropWhile isSpace = l →
      ((l.reverse.dropWhile isSpace).reverse).dropWhile isSpace =
        (l.reverse.dropWhile isSpace).reverse := by
    intro l hl
    obtain ⟨back, hback⟩ : ∃ back, l = (l.reverse.dropWhile isSpace).reverse ++ back := by
      refine ⟨(l.reverse.takeWhile isSpace).reverse, ?_⟩
      rw [← List.reverse_append, List.takeWhile_append_dropWhile, List.reverse_reverse]
    cases hkept : (l.reverse.dropWhile isSpace).reverse with
    | nil => rfl
    | cons c kept =>
      rw [hkept] at hback
      have hc : isSpace c = false := by
        cases hspace : isSpace c with
        | false => rfl
        | true =>
          rw [hback, List.cons_append, List.dropWhile_cons_of_pos hspace] at hl
          have hlen := congrArg List.length hl
          have hle := (List.dropWhile_suffix isSpace (l := kept ++ back)).length_le
          rw [List.length_cons] at hlen
          omega
      simp [hc]
  have hlist : (strip s).toList =
      (((s.toList.dropWhile isSpace).reverse.dropWhile isSpace).reverse) := String.toList_ofList
  have hstart : (strip s).toList.dropWhile isSpace = (strip s).toList := by
    rw [hlist]
    exact hfront _ (hdrop _)
  have hend : (strip s).toList.reverse.dropWhile isSpace = (strip s).toList.reverse := by
    rw [hlist, List.reverse_reverse, hdrop]
  rw [strip, hstart, hend, List.reverse_reverse, String.ofList_toList]

/-- What is not white space is not stripped. -/
theorem strip_ne_empty {s : String} {c : Char} (h : c ∈ s.toList) (hc : isSpace c = false) :
    strip s ≠ "" := by
  -- the character stops what is dropped, from either end
  have hkeep : ∀ l : List Char, c ∈ l → c ∈ l.dropWhile isSpace := by
    intro l hl
    induction l with
    | nil => exact hl
    | cons a l ih =>
      by_cases ha : isSpace a = true
      · rw [List.dropWhile_cons_of_pos ha]
        refine ih ((List.mem_cons.mp hl).resolve_left fun heq => ?_)
        rw [heq, ha] at hc
        exact Bool.false_ne_true hc.symm
      · rw [List.dropWhile_cons_of_neg ha]
        exact hl
  intro hempty
  have hlist := congrArg String.toList hempty
  rw [strip, String.toList_ofList] at hlist
  have hmem := List.mem_reverse.mpr (hkeep _ (List.mem_reverse.mpr (hkeep _ h)))
  rw [hlist] at hmem
  exact absurd hmem List.not_mem_nil

theorem exists_of_strip_ne_empty {s : String} (h : strip s ≠ "") :
    ∃ c ∈ s.toList, isSpace c = false := by
  by_contra hnone
  have hdrop : ∀ l : List Char, (∀ c ∈ l, isSpace c = true) → l.dropWhile isSpace = [] := by
    intro l hl
    induction l with
    | nil => rfl
    | cons a l ih =>
      rw [List.dropWhile_cons_of_pos (hl a (List.mem_cons_self ..))]
      exact ih fun c hc => hl c (List.mem_cons_of_mem _ hc)
  have hspace : ∀ c ∈ s.toList, isSpace c = true := fun c hc => by
    by_contra hne
    exact hnone ⟨c, hc, Bool.eq_false_of_not_eq_true hne⟩
  exact h (by rw [strip, hdrop _ hspace]; rfl)

/-! ### Replacement -/

/-- The scan of `str.replace`: at a match the replacement is written and the
rest of the match skipped, otherwise the character is copied. -/
def replaceScan (old new : List Char) : List Char → Nat → List Char
  | [], _ => []
  | _ :: cs, skip + 1 => replaceScan old new cs skip
  | c :: cs, 0 =>
    if old.isPrefixOf (c :: cs) then new ++ replaceScan old new cs (old.length - 1)
    else c :: replaceScan old new cs 0

/-- `value.replace(old, new)` for a non-empty `old`. -/
def replaceAll (s old new : String) : String :=
  String.ofList (replaceScan old.toList new.toList s.toList 0)

/-- A stretch free of the first character of the pattern is copied. -/
theorem replaceScan_append {o : Char} {old new l : List Char} (h : o ∉ l) (rest : List Char) :
    replaceScan (o :: old) new (l ++ rest) 0 = l ++ replaceScan (o :: old) new rest 0 := by
  induction l with
  | nil => rfl
  | cons c l ih =>
    obtain ⟨hc, hl⟩ := List.ne_and_not_mem_of_not_mem_cons h
    have hmatch : (o :: old).isPrefixOf (c :: (l ++ rest)) = false := by
      simp [List.isPrefixOf, hc]
    rw [List.cons_append, replaceScan, hmatch, if_neg (by simp), ih hl, List.cons_append]

/-- Nothing is replaced in a text without the first character of the pattern. -/
theorem replaceAll_of_notMem {s old new : String} {o : Char} {rest : List Char}
    (hold : old.toList = o :: rest) (h : o ∉ s.toList) : replaceAll s old new = s := by
  have hcopy : replaceScan (o :: rest) new.toList (s.toList ++ []) 0 =
      s.toList ++ replaceScan (o :: rest) new.toList [] 0 := replaceScan_append h []
  rw [List.append_nil, replaceScan, List.append_nil] at hcopy
  rw [replaceAll, hold, hcopy, String.ofList_toList]

/-- A character replaced everywhere is gone. -/
theorem notMem_replaceScan {o : Char} {new : List Char} (hnew : o ∉ new) (l : List Char) :
    o ∉ replaceScan [o] new l 0 := by
  induction l with
  | nil => exact List.not_mem_nil
  | cons c l ih =>
    rw [replaceScan]
    split
    · intro hmem
      rcases List.mem_append.mp hmem with hwritten | hrest
      · exact hnew hwritten
      · exact ih hrest
    · next hmatch =>
      intro hmem
      rcases List.mem_cons.mp hmem with rfl | hrest
      · exact hmatch (by simp [List.isPrefixOf])
      · exact ih hrest

/-- A character outside the pattern is kept: what is skipped behind a match is
of the pattern. -/
theorem mem_replaceScan {c o : Char} {old new : List Char} (hc : c ∉ o :: old) {l : List Char}
    {skip : Nat} (hskip : ∀ x ∈ l.take skip, x ∈ old) (h : c ∈ l) :
    c ∈ replaceScan (o :: old) new l skip := by
  induction l generalizing skip with
  | nil => exact absurd h List.not_mem_nil
  | cons a l ih =>
    cases skip with
    | succ skip =>
      have hne : c ≠ a := fun heq => hc (heq ▸ List.mem_cons_of_mem _ (hskip a (by simp)))
      refine ih (fun x hx => hskip x ?_) ((List.mem_cons.mp h).resolve_left hne)
      rw [List.take_succ_cons]
      exact List.mem_cons_of_mem _ hx
    | zero =>
      -- a match is replaced, and its other characters are skipped
      rw [replaceScan]
      split
      · next hmatch =>
        obtain ⟨rest, hrest⟩ := List.isPrefixOf_iff_prefix.mp hmatch
        rw [List.cons_append, List.cons.injEq] at hrest
        obtain ⟨rfl, rfl⟩ := hrest
        have hne : c ≠ o := fun heq => hc (heq ▸ List.mem_cons_self ..)
        refine List.mem_append_right _ (ih (fun x hx => ?_) ((List.mem_cons.mp h).resolve_left hne))
        rw [List.length_cons, Nat.add_sub_cancel, List.take_left] at hx
        exact hx
      · rcases List.mem_cons.mp h with rfl | h
        · exact List.mem_cons_self ..
        · exact List.mem_cons_of_mem _ (ih (by simp) h)

theorem mem_replaceAll {s old new : String} {c o : Char} {rest : List Char}
    (hold : old.toList = o :: rest) (hc : c ∉ o :: rest) (h : c ∈ s.toList) :
    c ∈ (replaceAll s old new).toList := by
  rw [replaceAll, String.toList_ofList, hold]
  exact mem_replaceScan hc (by simp) h

/-- Stripping keeps no character that was not there. -/
theorem mem_of_mem_strip {s : String} {c : Char} (h : c ∈ (strip s).toList) : c ∈ s.toList := by
  rw [strip, String.toList_ofList, List.mem_reverse] at h
  have hback := List.mem_reverse.mp ((List.dropWhile_suffix isSpace).subset h)
  exact (List.dropWhile_suffix isSpace).subset hback

/-! ### Lines -/

/-- The code points `str.splitlines` ends a line at. -/
def isLineBreak (c : Char) : Bool :=
  c.toNat ∈ [0x0A, 0x0B, 0x0C, 0x0D, 0x1C, 0x1D, 0x1E, 0x85, 0x2028, 0x2029]

/-- The scan of `str.splitlines`, with the line read so far in reverse. A
carriage return and the line feed after it are one break. -/
def splitlinesScan : List Char → List Char → List (List Char)
  | [], [] => []
  | [], line => [line.reverse]
  | '\r' :: '\n' :: rest, line => line.reverse :: splitlinesScan rest []
  | c :: rest, line =>
    if isLineBreak c then line.reverse :: splitlinesScan rest []
    else splitlinesScan rest (c :: line)

/-- `value.splitlines()`. -/
def splitlines (s : String) : List String :=
  (splitlinesScan s.toList []).map String.ofList

/-! ### Collapsing white space -/

/-- A piece of a split holds no separator. -/
theorem eq_false_of_mem_splitOnP {p : Char → Bool} {l piece : List Char}
    (h : piece ∈ l.splitOnP p) : ∀ c ∈ piece, p c = false := by
  induction l generalizing piece with
  | nil =>
    rw [List.splitOnP_nil, List.mem_singleton] at h
    rw [h]
    exact fun c hc => absurd hc List.not_mem_nil
  | cons a l ih =>
    rw [List.splitOnP_cons_eq_if_modifyHead] at h
    split at h
    · rcases List.mem_cons.mp h with rfl | hrest
      · exact fun c hc => absurd hc List.not_mem_nil
      · exact ih hrest
    · next ha =>
      cases hsplit : l.splitOnP p with
      | nil => exact absurd hsplit (List.splitOnP_ne_nil p l)
      | cons first rest =>
        rw [hsplit] at h ih
        rcases List.mem_cons.mp h with rfl | hrest
        · intro c hc
          rcases List.mem_cons.mp hc with rfl | hfirst
          · exact Bool.eq_false_of_not_eq_true ha
          · exact ih (List.mem_cons_self ..) c hfirst
        · exact ih (List.mem_cons_of_mem _ hrest)

/-- Every other character is in a piece. -/
theorem exists_mem_splitOnP {p : Char → Bool} {l : List Char} {c : Char} (h : c ∈ l)
    (hc : p c = false) : ∃ piece ∈ l.splitOnP p, c ∈ piece := by
  induction l with
  | nil => exact absurd h List.not_mem_nil
  | cons a l ih =>
    rw [List.splitOnP_cons_eq_if_modifyHead]
    cases hsplit : l.splitOnP p with
    | nil => exact absurd hsplit (List.splitOnP_ne_nil p l)
    | cons first rest =>
      rw [hsplit] at ih
      rcases List.mem_cons.mp h with rfl | hrest
      · rw [if_neg (by simp [hc])]
        exact ⟨c :: first, List.mem_cons_self .., List.mem_cons_self ..⟩
      · obtain ⟨piece, hpiece, hmem⟩ := ih hrest
        split
        · exact ⟨piece, List.mem_cons_of_mem _ hpiece, hmem⟩
        · rcases List.mem_cons.mp hpiece with rfl | hlater
          · exact ⟨a :: piece, List.mem_cons_self .., List.mem_cons_of_mem _ hmem⟩
          · exact ⟨piece, List.mem_cons_of_mem _ hlater, hmem⟩

/-- A run of characters without a space in it. -/
def IsWord (w : String) : Prop := w.toList ≠ [] ∧ ∀ c ∈ w.toList, isSpace c = false

theorem isWord_of_mem_words {s w : String} (h : w ∈ words s) : IsWord w := by
  obtain ⟨piece, hpiece, rfl⟩ := List.mem_map.mp h
  obtain ⟨hsplit, hne⟩ := List.mem_filter.mp hpiece
  rw [IsWord, String.toList_ofList]
  exact ⟨by simpa using hne, eq_false_of_mem_splitOnP hsplit⟩

/-- Words joined by single spaces are read back. -/
theorem words_intercalate {ws : List String} (h : ∀ w ∈ ws, IsWord w) :
    words (" ".intercalate ws) = ws := by
  have hspace : isSpace ' ' = true := by decide
  -- a word holds no space, so the text is split between the words only
  have hpieces : ∀ l : List String, (∀ w ∈ l, IsWord w) →
      ((([' '].intercalate (l.map String.toList)).splitOnP isSpace).filter (· ≠ [])) =
        l.map String.toList := by
    intro l hl
    induction l with
    | nil => simp
    | cons w l ih =>
      obtain ⟨hne, hw⟩ := hl w (List.mem_cons_self ..)
      have hrest := ih fun v hv => hl v (List.mem_cons_of_mem _ hv)
      cases l with
      | nil => simp [List.splitOnP_eq_singleton hw, hne]
      | cons v l =>
        have hjoin : [' '].intercalate ((w :: v :: l).map String.toList) =
            w.toList ++ ' ' :: [' '].intercalate ((v :: l).map String.toList) := by
          simp
        rw [hjoin, List.splitOnP_append_cons _ _ hspace, List.splitOnP_eq_singleton hw,
          List.filter_append, hrest]
        simp [hne]
  rw [words, String.toList_intercalate]
  have hlist := hpieces ws h
  rw [show (" " : String).toList = [' '] from rfl, hlist, List.map_map]
  simp

theorem words_collapse (s : String) : words (collapse s) = words s :=
  words_intercalate fun _ h => isWord_of_mem_words h

theorem collapse_collapse (s : String) : collapse (collapse s) = collapse s := by
  rw [collapse, words_collapse]
  rfl

/-- A text with a character that is no space does not collapse to nothing. -/
theorem collapse_ne_empty {s : String} {c : Char} (h : c ∈ s.toList) (hc : isSpace c = false) :
    collapse s ≠ "" := by
  intro hempty
  obtain ⟨piece, hpiece, hmem⟩ := exists_mem_splitOnP h hc
  have hwords : words s = [] := by
    rw [← words_collapse, hempty]
    rfl
  have hfilter := List.map_eq_nil_iff.mp hwords
  have hne := List.filter_eq_nil_iff.mp hfilter piece hpiece
  simp only [decide_not, Bool.not_eq_eq_eq_not, Bool.not_true, decide_eq_false_iff_not,
    not_not] at hne
  rw [hne] at hmem
  exact absurd hmem List.not_mem_nil

end PyLib
