import Mathlib.Data.List.Basic
import Mathlib.Data.String.Basic

/-!
# Fixed-width decimal text

Numbers padded to a fixed number of decimal digits compare as text the way
they compare as numbers. The comparison stays decided whatever follows, so
records of such fields compare lexicographically field by field:

* `digits w n` — the last `w` decimal digits of `n`;
* `digits_append_lt` — the order of two numbers decides, before any tails;
* `render` — fields with their separators, and `render_append_lt` for them.
-/

namespace PyLib

/-- The character of a decimal digit. -/
def digitChar (n : Nat) : Char := Char.ofNat (48 + n % 10)

theorem digitChar_lt {m n : Nat} (h : m < n) (hn : n < 10) : digitChar m < digitChar n := by
  have hdec : ∀ m < 10, ∀ n < 10, m < n → digitChar m < digitChar n := by decide
  exact hdec m (by omega) n hn h

/-- The last `w` decimal digits of `n`, most significant first. -/
def digits : Nat → Nat → List Char
  | 0, _ => []
  | w + 1, n => digits w (n / 10) ++ [digitChar (n % 10)]

/-- **Fixed width decides.** Below `10 ^ w` the order of two numbers is the
order of their texts, whatever the two texts continue with. -/
theorem digits_append_lt {w m n : Nat} (h : m < n) (hn : n < 10 ^ w) (x y : List Char) :
    digits w m ++ x < digits w n ++ y := by
  induction w generalizing m n x y with
  | zero => simp only [Nat.pow_zero] at hn; omega
  | succ w ih =>
    simp only [digits, List.append_assoc]
    have hdiv : n / 10 < 10 ^ w := by rw [Nat.pow_succ] at hn; omega
    rcases Nat.lt_or_ge (m / 10) (n / 10) with hlt | hge
    · exact ih hlt hdiv _ _
    · -- the leading digits agree, the last one decides
      have heq : m / 10 = n / 10 := by omega
      rw [heq]
      refine List.append_left_lt ?_
      have hlast : m % 10 < n % 10 := by omega
      exact List.cons_lt_cons_iff.mpr (.inl (digitChar_lt hlast (Nat.mod_lt n (by omega))))

theorem notMem_digits {c : Char} (hc : ∀ n < 10, digitChar n ≠ c) (w n : Nat) :
    c ∉ digits w n := by
  induction w generalizing n with
  | zero => exact List.not_mem_nil
  | succ w ih =>
    simp only [digits, List.mem_append, List.mem_singleton, not_or]
    exact ⟨ih _, (hc _ (Nat.mod_lt n (by omega))).symm⟩

/-! ### Records of fields -/

/-- One field of a record: the text before it and its width. -/
structure Field where
  sep : List Char
  width : Nat

/-- The values of a record written one after the other. -/
def render : List Field → List Nat → List Char
  | f :: fs, n :: ns => f.sep ++ digits f.width n ++ render fs ns
  | _, _ => []

/-- The values fit their widths. -/
def Fits : List Field → List Nat → Prop
  | f :: fs, n :: ns => n < 10 ^ f.width ∧ Fits fs ns
  | [], [] => True
  | _, _ => False

/-- Records compare as text the way their values compare lexicographically. -/
theorem render_append_lt {fs : List Field} {ms ns : List Nat} (hms : Fits fs ms)
    (hns : Fits fs ns) (h : ms < ns) (x y : List Char) :
    render fs ms ++ x < render fs ns ++ y := by
  induction fs generalizing ms ns with
  | nil =>
    cases ms with
    | nil =>
      cases ns with
      | nil => exact absurd h (lt_irrefl _)
      | cons n ns => exact hns.elim
    | cons m ms => exact hms.elim
  | cons f fs ih =>
    cases ms with
    | nil => exact hms.elim
    | cons m ms =>
      cases ns with
      | nil => exact hns.elim
      | cons n ns =>
        simp only [render, List.append_assoc]
        refine List.append_left_lt ?_
        -- the first field that differs decides, and it has the same width in both
        rcases List.cons_lt_cons_iff.mp h with hlt | ⟨rfl, hrest⟩
        · exact digits_append_lt hlt hns.1 _ _
        · exact List.append_left_lt (ih hms.2 hns.2 hrest)

/-- A character that is neither a digit nor in a separator is not written. -/
theorem notMem_render {c : Char} (hc : ∀ n < 10, digitChar n ≠ c) {fs : List Field}
    (hfs : ∀ f ∈ fs, c ∉ f.sep) (ns : List Nat) : c ∉ render fs ns := by
  induction fs generalizing ns with
  | nil => exact List.not_mem_nil
  | cons f fs ih =>
    cases ns with
    | nil => exact List.not_mem_nil
    | cons n ns =>
      simp only [render, List.mem_append, not_or]
      exact ⟨⟨hfs f (by simp), notMem_digits hc _ _⟩,
        ih (fun g hg => hfs g (by simp [hg])) ns⟩

end PyLib
