import AliceBot.Library.Text
import Mathlib.Algebra.GroupWithZero.Nat
import Mathlib.Algebra.Order.BigOperators.Group.List
import Mathlib.Data.List.TakeWhile

/-!
# Lines of a text

Texts as lists of characters, cut into lines and joined again.

* `trim` — `value.strip()` on characters;
* `solid` — the characters that are no white space, which is what a text keeps
  under any cutting and joining at white space;
* `width` — the length of a joined list, which is kept beside the list by loops
  that fill it up to a bound.
-/

namespace PyLib

/-! ### White space -/

/-- `value.lstrip()`. -/
def trimStart (l : List Char) : List Char := l.dropWhile isSpace

/-- `value.rstrip()`. -/
def trimEnd (l : List Char) : List Char := (l.reverse.dropWhile isSpace).reverse

/-- `value.strip()`. -/
def trim (l : List Char) : List Char := trimEnd (trimStart l)

theorem strip_eq (s : String) : strip s = String.ofList (trim s.toList) := rfl

/-- `strip_strip`, on characters. -/
theorem trim_trim (l : List Char) : trim (trim l) = trim l := by
  have h := strip_strip (String.ofList l)
  rw [strip_eq, strip_eq, String.toList_ofList, String.toList_ofList] at h
  exact String.ofList_inj.mp h

/-- The characters that are no white space. -/
def solid (l : List Char) : List Char := l.filter fun c => !isSpace c

@[simp] theorem solid_nil : solid [] = [] := rfl

@[simp] theorem solid_append (l m : List Char) : solid (l ++ m) = solid l ++ solid m :=
  List.filter_append l m

theorem solid_of_space {l : List Char} (h : ∀ c ∈ l, isSpace c = true) : solid l = [] :=
  List.filter_eq_nil_iff.mpr fun c hc => by simp [h c hc]

theorem solid_of_noSpace {l : List Char} (h : ∀ c ∈ l, isSpace c = false) : solid l = l :=
  List.filter_eq_self.mpr fun c hc => by simp [h c hc]

theorem solid_dropWhile (l : List Char) : solid (l.dropWhile isSpace) = solid l := by
  have hfront : solid (l.takeWhile isSpace) = [] :=
    solid_of_space fun c hc => List.mem_takeWhile_imp hc
  conv_rhs => rw [← List.takeWhile_append_dropWhile (p := isSpace) (l := l)]
  rw [solid_append, hfront, List.nil_append]

theorem solid_reverse (l : List Char) : solid l.reverse = (solid l).reverse :=
  List.filter_reverse

theorem solid_trimEnd (l : List Char) : solid (trimEnd l) = solid l := by
  rw [trimEnd, solid_reverse, solid_dropWhile, solid_reverse, List.reverse_reverse]

theorem solid_trim (l : List Char) : solid (trim l) = solid l := by
  rw [trim, solid_trimEnd, trimStart, solid_dropWhile]

/-- A text is blank if it has no other characters than white space. -/
theorem trim_eq_nil_iff {l : List Char} : trim l = [] ↔ solid l = [] := by
  constructor
  · intro h
    rw [← solid_trim, h, solid_nil]
  · intro h
    have hspace : ∀ c ∈ l, isSpace c = true := fun c hc => by
      simpa using List.filter_eq_nil_iff.mp h c hc
    have hdrop : l.dropWhile isSpace = [] := List.dropWhile_eq_nil_iff.mpr hspace
    rw [trim, trimStart, hdrop]
    rfl

theorem length_trim_le (l : List Char) : (trim l).length ≤ l.length := by
  rw [trim, trimEnd, trimStart, List.length_reverse]
  have hback := (List.dropWhile_suffix (l := (l.dropWhile isSpace).reverse) isSpace).length_le
  have hfront := (List.dropWhile_suffix (l := l) isSpace).length_le
  rw [List.length_reverse] at hback
  exact hback.trans hfront

/-- A character in front of the first piece of a split text. -/
theorem flatMap_solid_modifyHead {pieces : List (List Char)} (h : pieces ≠ []) (c : Char) :
    (pieces.modifyHead (c :: ·)).flatMap solid = solid [c] ++ pieces.flatMap solid := by
  cases pieces with
  | nil => exact absurd rfl h
  | cons piece pieces =>
    rw [List.modifyHead_cons, List.flatMap_cons, List.flatMap_cons, ← List.append_assoc,
      ← solid_append]
    rfl

/-- Splitting at white space loses nothing else. -/
theorem flatMap_solid_splitOnP {p : Char → Bool} (hp : ∀ c, p c = true → isSpace c = true)
    (l : List Char) : (l.splitOnP p).flatMap solid = solid l := by
  induction l with
  | nil => rfl
  | cons c l ih =>
    rw [List.splitOnP_cons_eq_if_modifyHead]
    split
    · rename_i hc
      have hsolid : solid [c] = [] :=
        solid_of_space (List.forall_mem_singleton.mpr (hp c hc))
      rw [List.flatMap_cons, ih, ← List.singleton_append, solid_append, hsolid]
      rfl
    · rw [flatMap_solid_modifyHead (List.splitOnP_ne_nil p l), ih, ← solid_append]
      rfl

/-- Leaving out blank pieces loses nothing. -/
theorem flatMap_solid_filter (pieces : List (List Char)) {keep : List Char → Bool}
    (h : ∀ piece ∈ pieces, keep piece = false → solid piece = []) :
    (pieces.filter keep).flatMap solid = pieces.flatMap solid := by
  induction pieces with
  | nil => rfl
  | cons piece pieces ih =>
    obtain ⟨hpiece, hpieces⟩ := List.forall_mem_cons.mp h
    rw [List.filter_cons]
    split
    · rw [List.flatMap_cons, List.flatMap_cons, ih hpieces]
    · rename_i hdrop
      rw [ih hpieces, List.flatMap_cons, hpiece (Bool.eq_false_of_not_eq_true hdrop),
        List.nil_append]

/-! ### Joined lists -/

section Joined

variable {α : Type*} {size : α → Nat} {gap : Nat} {parts : List α}

/-- The size of the parts joined, with gaps of the given size between them. -/
def width (size : α → Nat) (gap : Nat) (parts : List α) : Nat :=
  (parts.map size).sum + gap * (parts.length - 1)

@[simp] theorem width_singleton (part : α) : width size gap [part] = size part := by
  simp [width]

theorem size_le_width {part : α} (h : part ∈ parts) : size part ≤ width size gap parts :=
  (List.le_sum_of_mem (List.mem_map_of_mem h)).trans (Nat.le_add_right _ _)

/-- A part more at the end. -/
theorem width_concat (h : parts ≠ []) (part : α) :
    width size gap (parts ++ [part]) = width size gap parts + size part + gap := by
  have hpos := List.length_pos_iff.mpr h
  simp only [width, List.map_append, List.sum_append, List.map_cons, List.map_nil,
    List.sum_cons, List.sum_nil, List.length_append, List.length_cons, List.length_nil]
  rw [show parts.length + (0 + 1) - 1 = parts.length - 1 + 1 by omega, Nat.mul_succ]
  omega

/-- A part more at the front. -/
theorem width_cons (h : parts ≠ []) (part : α) :
    width size gap (part :: parts) = width size gap parts + size part + gap := by
  have hpos := List.length_pos_iff.mpr h
  simp only [width, List.map_cons, List.sum_cons, List.length_cons]
  rw [show parts.length + 1 - 1 = parts.length - 1 + 1 by omega, Nat.mul_succ]
  omega

end Joined

theorem length_intercalate (sep : List Char) (parts : List (List Char)) :
    (sep.intercalate parts).length = width List.length sep.length parts := by
  induction parts with
  | nil => simp [width]
  | cons part parts ih =>
    cases parts with
    | nil => simp [width]
    | cons next parts =>
      rw [List.intercalate_cons_cons, List.length_append, List.length_append, ih,
        width_cons (List.cons_ne_nil next parts)]
      omega

theorem solid_intercalate {sep : List Char} (hsep : ∀ c ∈ sep, isSpace c = true)
    (parts : List (List Char)) : solid (sep.intercalate parts) = parts.flatMap solid := by
  induction parts with
  | nil => rfl
  | cons part parts ih =>
    cases parts with
    | nil => simp
    | cons next parts =>
      rw [List.intercalate_cons_cons, solid_append, solid_append, ih, solid_of_space hsep,
        List.append_nil, List.flatMap_cons, List.flatMap_cons, List.flatMap_cons]

theorem mem_of_mem_intercalate {sep : List Char} {parts : List (List Char)} {c : Char}
    (h : c ∈ sep.intercalate parts) : c ∈ sep ∨ ∃ part ∈ parts, c ∈ part := by
  induction parts with
  | nil => exact absurd h List.not_mem_nil
  | cons part parts ih =>
    cases parts with
    | nil =>
      rw [List.intercalate_singleton] at h
      exact Or.inr ⟨part, List.mem_singleton_self part, h⟩
    | cons next parts =>
      rw [List.intercalate_cons_cons, List.mem_append, List.mem_append] at h
      rcases h with (hpart | hsep) | hrest
      · exact Or.inr ⟨part, List.mem_cons_self .., hpart⟩
      · exact Or.inl hsep
      · exact (ih hrest).imp_right fun ⟨other, hother, hc⟩ =>
          ⟨other, List.mem_cons_of_mem _ hother, hc⟩

/-- A part joined is empty only if there was nothing to join. -/
theorem intercalate_ne_nil {sep : List Char} {parts : List (List Char)} (h : parts ≠ [])
    (hparts : ∀ part ∈ parts, part ≠ []) : sep.intercalate parts ≠ [] := by
  cases parts with
  | nil => exact absurd rfl h
  | cons part parts =>
    have hpart := hparts part (List.mem_cons_self ..)
    cases parts with
    | nil => simpa using hpart
    | cons next parts =>
      rw [List.intercalate_cons_cons]
      intro heq
      exact hpart (List.append_eq_nil_iff.mp (List.append_eq_nil_iff.mp heq).1).1

/-- One part more at the end, joined. -/
theorem intercalate_concat {sep : List Char} {parts : List (List Char)} (h : parts ≠ [])
    (part : List Char) :
    sep.intercalate (parts ++ [part]) = sep.intercalate parts ++ sep ++ part := by
  induction parts with
  | nil => exact absurd rfl h
  | cons first parts ih =>
    cases parts with
    | nil => simp [List.intercalate_cons_cons]
    | cons next parts =>
      rw [List.cons_append, List.cons_append, List.intercalate_cons_cons, ← List.cons_append,
        ih (List.cons_ne_nil next parts), List.intercalate_cons_cons]
      simp only [List.append_assoc]

end PyLib
