import AliceBot.Library.AsciiCase
import AliceBot.Library.Lines

/-!
# Case folding

`str.casefold` replaces each character by the characters it folds to. What is known of the
table: an ASCII character folds to its small letter, nothing folds twice, and no character
becomes white space or nothing.

* `casefold_asciiLower` — lowering the ASCII capitals first changes nothing;
* `trim_casefold` — the folded form of a stripped text is stripped;
* `trim_padded` — white space around a text is stripped with it;
* `strip_collapse` — a text with its white space collapsed has none around it.
-/

namespace PyLib

/-! ### Stripped texts -/

/-- White space at both ends is stripped with the text. -/
theorem trim_padded {front l back : List Char} (hfront : ∀ c ∈ front, isSpace c = true)
    (hback : ∀ c ∈ back, isSpace c = true) : trim (front ++ l ++ back) = trim l := by
  have hstart : trimStart (front ++ l ++ back) = trimStart (l ++ back) := by
    rw [trimStart, List.append_assoc, List.dropWhile_append_of_pos hfront, trimStart]
  have hend : ∀ m : List Char, trimEnd (m ++ back) = trimEnd m := by
    intro m
    have hreversed : ∀ c ∈ back.reverse, isSpace c = true := fun c hc =>
      hback c (List.mem_reverse.mp hc)
    rw [trimEnd, List.reverse_append, List.dropWhile_append_of_pos hreversed, trimEnd]
  rw [trim, hstart, trim, trimStart, trimStart, List.dropWhile_append]
  split
  next hblank =>
    have hnil : l.dropWhile isSpace = [] := List.isEmpty_iff.mp hblank
    have hnone : back.dropWhile isSpace = [] := List.dropWhile_eq_nil_iff.mpr hback
    rw [hnil, hnone]
  next => exact hend _

/-- A text is stripped if no white space stands at its ends. -/
theorem trim_eq_self_iff {l : List Char} :
    trim l = l ↔ (∀ c ∈ l.head?, isSpace c = false) ∧ ∀ c ∈ l.getLast?, isSpace c = false := by
  -- nothing is dropped at the start of a text exactly if it begins otherwise
  have hdrop : ∀ m : List Char, m.dropWhile isSpace = m ↔ ∀ c ∈ m.head?, isSpace c = false := by
    intro m
    cases m with
    | nil => simp
    | cons a m =>
      cases ha : isSpace a with
      | false => simp [ha]
      | true =>
        have hshort := (List.dropWhile_suffix isSpace (l := m)).length_le
        simp only [List.dropWhile_cons_of_pos ha, List.head?_cons, Option.mem_def,
          Option.some.injEq, forall_eq', ha, Bool.true_eq_false, iff_false]
        intro heq
        rw [heq, List.length_cons] at hshort
        omega
  have hlast : l.reverse.head? = l.getLast? := List.head?_reverse
  constructor
  · intro h
    -- trimming both ends shortens by what it takes at each of them
    have hlength : ∀ m : List Char, (m.dropWhile isSpace).length ≤ m.length := fun m =>
      (List.dropWhile_suffix isSpace).length_le
    have hstart : l.dropWhile isSpace = l := by
      refine (List.dropWhile_suffix isSpace).eq_of_length ?_
      have htotal := congrArg List.length h
      have hback := hlength (l.dropWhile isSpace).reverse
      have hfront := hlength l
      rw [trim, trimEnd, trimStart, List.length_reverse] at htotal
      rw [List.length_reverse] at hback
      omega
    have hback : l.reverse.dropWhile isSpace = l.reverse := by
      rw [trim, trimStart, hstart, trimEnd] at h
      rw [← List.reverse_reverse (l.reverse.dropWhile isSpace), h]
    exact ⟨(hdrop l).mp hstart, hlast ▸ (hdrop l.reverse).mp hback⟩
  · rintro ⟨hstart, hback⟩
    rw [trim, trimStart, (hdrop l).mpr hstart, trimEnd, (hdrop l.reverse).mpr (hlast ▸ hback),
      List.reverse_reverse]

/-- Words joined by single spaces have no white space around them. -/
theorem trim_intercalate {l : List (List Char)}
    (h : ∀ w ∈ l, w ≠ [] ∧ ∀ c ∈ w, isSpace c = false) :
    trim ([' '].intercalate l) = [' '].intercalate l := by
  have hjoin : ∀ (w v : List Char) (l : List (List Char)),
      [' '].intercalate (w :: v :: l) = w ++ ' ' :: [' '].intercalate (v :: l) := by
    intro w v l
    simp
  rw [trim_eq_self_iff]
  constructor
  · -- the first character is that of the first word
    intro c hc
    cases l with
    | nil => exact absurd hc (by simp)
    | cons w l =>
      obtain ⟨hne, hw⟩ := h w (List.mem_cons_self ..)
      cases w with
      | nil => exact absurd rfl hne
      | cons a w =>
        have hhead : ([' '].intercalate ((a :: w) :: l)).head? = some a := by
          cases l with
          | nil => simp
          | cons v l => rw [hjoin]; rfl
        rw [hhead] at hc
        obtain rfl : a = c := Option.some.inj hc
        exact hw a (List.mem_cons_self ..)
  · -- and the last one that of the last word
    induction l with
    | nil => exact fun c hc => absurd hc (by simp)
    | cons w l ih =>
      cases l with
      | nil =>
        intro c hc
        have hmem : c ∈ w := by simpa using List.mem_of_getLast? hc
        exact (h w (List.mem_cons_self ..)).2 c hmem
      | cons v l =>
        have hrest := ih fun u hu => h u (List.mem_cons_of_mem _ hu)
        have hne : [' '].intercalate (v :: l) ≠ [] := by
          have hv := (h v (List.mem_cons_of_mem _ (List.mem_cons_self ..))).1
          cases l with
          | nil => simpa using hv
          | cons u l => simp [hjoin]
        rw [hjoin, List.append_cons, List.getLast?_append_of_ne_nil _ hne]
        exact hrest

theorem strip_collapse (s : String) : strip (collapse s) = collapse s := by
  have hwords : ∀ w ∈ (words s).map String.toList, w ≠ [] ∧ ∀ c ∈ w, isSpace c = false := by
    intro w hw
    obtain ⟨word, hword, rfl⟩ := List.mem_map.mp hw
    exact isWord_of_mem_words hword
  have htrim := trim_intercalate hwords
  have htext : (collapse s).toList = [' '].intercalate ((words s).map String.toList) :=
    String.toList_intercalate
  have hstrip : strip (collapse s) = String.ofList (trim (collapse s).toList) := rfl
  rw [hstrip, htext, htrim, ← htext, String.ofList_toList]

/-! ### Folding -/

/-- White space has no case. -/
theorem isSpace_asciiLowerChar (c : Char) : isSpace (asciiLowerChar c) = isSpace c := by
  refine asciiLowerChar_cases (P := fun c lower => isSpace lower = isSpace c) ?_ (fun c => rfl) c
  intro n hn
  revert n
  decide

/-- The table of `str.casefold`. -/
structure CaseFolding where
  fold : Char → List Char
  fold_ascii : ∀ c, c.toNat < 128 → fold c = [asciiLowerChar c]
  fold_fold : ∀ c, ∀ d ∈ fold c, fold d = [d]
  fold_ne_nil : ∀ c, fold c ≠ []
  fold_solid : ∀ c, isSpace c = false → ∀ d ∈ fold c, isSpace d = false

namespace CaseFolding

variable (folding : CaseFolding)

/-- `text.casefold()`, of a list of characters. -/
def foldText (text : List Char) : List Char := text.flatMap folding.fold

/-- `value.casefold()`. -/
def casefold (value : String) : String := String.ofList (folding.foldText value.toList)

theorem foldText_foldText (text : List Char) :
    folding.foldText (folding.foldText text) = folding.foldText text := by
  induction text with
  | nil => rfl
  | cons c text ih =>
    have hsame : ∀ l : List Char, (∀ d ∈ l, folding.fold d = [d]) → l.flatMap folding.fold = l := by
      intro l hl
      induction l with
      | nil => rfl
      | cons d l ih =>
        rw [List.flatMap_cons, hl d (List.mem_cons_self ..),
          ih fun e he => hl e (List.mem_cons_of_mem _ he), List.singleton_append]
    unfold foldText at ih ⊢
    rw [List.flatMap_cons, List.flatMap_append, ih, hsame _ (folding.fold_fold c)]

/-- Folding does not depend on the case of ASCII letters. -/
theorem fold_asciiLowerChar (c : Char) : folding.fold (asciiLowerChar c) = folding.fold c := by
  refine asciiLowerChar_cases (P := fun c lower => folding.fold lower = folding.fold c) ?_ ?_ c
  · intro n hn
    have hcapital : (Char.ofNat (65 + n)).toNat < 128 := by
      revert n
      decide
    have hsmall : (Char.ofNat (97 + n)).toNat < 128 := by
      revert n
      decide
    have hlower : asciiLowerChar (Char.ofNat (97 + n)) = asciiLowerChar (Char.ofNat (65 + n)) := by
      revert n
      decide
    rw [folding.fold_ascii _ hcapital, folding.fold_ascii _ hsmall, hlower]
  · exact fun c => rfl

theorem foldText_map_asciiLowerChar (text : List Char) :
    folding.foldText (text.map asciiLowerChar) = folding.foldText text := by
  unfold foldText
  rw [List.flatMap_map]
  exact List.flatMap_congr fun c _ => folding.fold_asciiLowerChar c

/-- The folded form of a stripped text is stripped. -/
theorem trim_foldText {text : List Char} (h : trim text = text) :
    trim (folding.foldText text) = folding.foldText text := by
  obtain ⟨hfirst, hlast⟩ := trim_eq_self_iff.mp h
  refine trim_eq_self_iff.mpr ⟨?_, ?_⟩
  · -- folding turns a solid character into solid characters, at the start
    cases text with
    | nil => exact fun c hc => absurd (Option.mem_def.mp hc) (Option.some_ne_none c).symm
    | cons c text =>
      have hsolid := folding.fold_solid c (hfirst c rfl)
      cases hfold : folding.fold c with
      | nil => exact absurd hfold (folding.fold_ne_nil c)
      | cons d rest =>
        rw [foldText, List.flatMap_cons, hfold, List.cons_append, List.head?_cons]
        rintro e he
        cases he
        exact hsolid d (hfold ▸ List.mem_cons_self ..)
  · -- and at the end
    rcases List.eq_nil_or_concat text with rfl | ⟨text, c, rfl⟩
    · exact fun c hc => absurd (Option.mem_def.mp hc) (Option.some_ne_none c).symm
    · rw [List.concat_eq_append] at hlast ⊢
      have hc : isSpace c = false := hlast c List.getLast?_concat
      have hsolid := folding.fold_solid c hc
      rw [foldText, List.flatMap_append, List.flatMap_singleton,
        List.getLast?_append_of_ne_nil _ (folding.fold_ne_nil c)]
      intro d hd
      exact hsolid d (List.mem_of_getLast? hd)

/-- A text that is folded and stripped is the folded form of every text that differs from it in the
case of ASCII letters and in white space around it. -/
theorem foldText_trim {text front middle back : List Char}
    (hfront : ∀ c ∈ front, isSpace c = true) (hback : ∀ c ∈ back, isSpace c = true)
    (hlower : middle.map asciiLowerChar = text) (htrim : trim text = text)
    (hfolded : folding.foldText text = text) :
    folding.foldText (trim (front ++ middle ++ back)) = text := by
  have hmiddle : trim middle = middle := by
    rw [trim_eq_self_iff]
    rw [← hlower, trim_eq_self_iff, List.head?_map, List.getLast?_map] at htrim
    refine ⟨fun c hc => ?_, fun c hc => ?_⟩
    · have h := htrim.1 (asciiLowerChar c) (Option.mem_map_of_mem _ hc)
      rwa [isSpace_asciiLowerChar] at h
    · have h := htrim.2 (asciiLowerChar c) (Option.mem_map_of_mem _ hc)
      rwa [isSpace_asciiLowerChar] at h
  rw [trim_padded hfront hback, hmiddle, ← folding.foldText_map_asciiLowerChar, hlower, hfolded]

/-- Folding, as it is on ASCII texts. -/
def ascii : CaseFolding where
  fold c := [asciiLowerChar c]
  fold_ascii _ _ := rfl
  fold_fold c d hd := by rw [List.mem_singleton.mp hd, asciiLowerChar_asciiLowerChar]
  fold_ne_nil _ := List.cons_ne_nil _ _
  fold_solid c hc d hd := by rw [List.mem_singleton.mp hd, isSpace_asciiLowerChar, hc]

end CaseFolding

end PyLib
