import Mathlib.Algebra.Order.Ring.Rat
import Mathlib.Data.Rat.Lemmas
import Mathlib.Tactic.Linarith

/-!
# Decimals read as doubles

What a program sees of a decimal number that it reads as a binary64 float and
writes out again.

* `nearestDouble` rounds a rational to binary64, halves to even; `none` is an
  infinity.
* `shortestDecimal` is the shortest decimal that rounds to a double, the closest
  one if there are several: what `repr` writes.
* `readDouble` is the one after the other.

A whole number below `2 ^ 53` is read as it is written
(`readDouble_intCast`).
-/

namespace PyLib

/-! ### Scaling by powers of the base -/

/-- `n / d` as a whole number, halves to even. -/
def roundDiv (n d : Nat) : Nat :=
  if 2 * (n % d) < d ∨ 2 * (n % d) = d ∧ n / d % 2 = 0 then n / d else n / d + 1

/-- Numerator and denominator of `n / d / b ^ e`. -/
def shiftDown (b n d : Nat) : Int → Nat × Nat
  | .ofNat e => (n, d * b ^ e)
  | .negSucc e => (n * b ^ (e + 1), d)

/-- `m * b ^ e`. -/
def scaleUp (b m : Nat) : Int → Rat
  | .ofNat e => (m * b ^ e : Nat)
  | .negSucc e => mkRat m (b ^ (e + 1))

/-- The exponent of the leading binary digit of `n / d`. -/
def binaryExponent (n d : Nat) : Int :=
  let e : Int := (n.log2 : Int) - d.log2
  let shifted := shiftDown 2 n d e
  if shifted.2 ≤ shifted.1 then e else e - 1

/-! ### Rounding -/

/-- The double nearest to `n / d`, were there no largest one. Its last place is
the 53rd binary digit, or the smallest there is. -/
def doubleMagnitude (n d : Nat) : Rat :=
  let e := max (binaryExponent n d - 52) (-1074)
  let shifted := shiftDown 2 n d e
  scaleUp 2 (roundDiv shifted.1 shifted.2) e

/-- The double nearest to a rational; from `2 ^ 1024` on it is an infinity. -/
def nearestDouble (q : Rat) : Option Rat :=
  let magnitude := doubleMagnitude q.num.natAbs q.den
  if magnitude < scaleUp 2 1 1024 then some (q.num.sign * magnitude) else none

/-- The multiple of `10 ^ k` closest to the magnitude of a double, of the two
next to it that round to it. -/
def decimalNear (v : Rat) (k : Int) : Option Rat :=
  let shifted := shiftDown 10 v.num.natAbs v.den k
  let low := scaleUp 10 (shifted.1 / shifted.2) k
  let high := scaleUp 10 (shifted.1 / shifted.2 + 1) k
  let reads (x : Rat) : Bool := decide (nearestDouble x = some (mkRat v.num.natAbs v.den))
  if reads low && reads high then some (scaleUp 10 (roundDiv shifted.1 shifted.2) k)
  else if reads low then some low
  else if reads high then some high
  else none

/-- The shortest decimal that rounds to a double: a multiple of the largest
power of ten. -/
def shortestDecimal (v : Rat) : Rat :=
  v.num.sign * ((List.range 633).findSome? fun (i : Nat) => decimalNear v (308 - i)).getD
    (mkRat v.num.natAbs v.den)

/-- A decimal text read as a float, by the text `repr` writes of it. -/
def readDouble (q : Rat) : Option Rat := (nearestDouble q).map shortestDecimal

example : nearestDouble (mkRat 10000000000000000000001 10000000000000000000000) = some 1 := by
  decide +kernel

/-! ### Small whole numbers -/

@[simp] theorem roundDiv_one (n : Nat) : roundDiv n 1 = n := by
  simp [roundDiv, Nat.mod_one]

/-- Rounding down at least is what the division does. -/
theorem div_le_roundDiv (n d : Nat) : n / d ≤ roundDiv n d := by
  unfold roundDiv
  split
  · exact le_refl _
  · exact Nat.le_succ _

theorem scaleUp_natCast (b m e : Nat) : scaleUp b m e = (m * b ^ e : Nat) := rfl

/-- A whole number has no digits below the point to lose. -/
theorem scaleUp_roundDiv_of_nonpos {b : Nat} (hb : 0 < b) (n : Nat) {e : Int} (he : e ≤ 0) :
    scaleUp b (roundDiv (shiftDown b n 1 e).1 (shiftDown b n 1 e).2) e = n := by
  cases e with
  | ofNat e =>
    obtain rfl : e = 0 := by simpa using he
    simp [shiftDown, scaleUp]
  | negSucc e =>
    have hpow : ((b ^ (e + 1) : Nat) : Rat) ≠ 0 := by
      exact_mod_cast (Nat.pow_pos hb).ne'
    simp only [shiftDown, scaleUp, roundDiv_one]
    rw [Rat.mkRat_eq_div, Nat.cast_mul]
    push_cast at hpow ⊢
    rw [mul_div_assoc, div_self hpow, mul_one]

theorem binaryExponent_one {n : Nat} (hn : n ≠ 0) : binaryExponent n 1 = n.log2 := by
  have hlog : ((n.log2 : Nat) : Int) - (Nat.log2 1 : Nat) = (n.log2 : Nat) := by
    rw [show Nat.log2 1 = 0 by decide]
    simp
  unfold binaryExponent
  rw [hlog]
  have hle : 1 * 2 ^ n.log2 ≤ n := by
    rw [one_mul]
    exact Nat.log2_self_le hn
  exact if_pos hle

theorem doubleMagnitude_natCast {n : Nat} (h : n < 2 ^ 53) : doubleMagnitude n 1 = n := by
  refine scaleUp_roundDiv_of_nonpos (by decide) n ?_
  by_cases hn : n = 0
  · subst hn
    decide
  · have hlog : n.log2 < 53 := (Nat.log2_lt hn).mpr h
    rw [binaryExponent_one hn]
    omega

/-- From `2 ^ 53` on the last place is at least two. -/
theorem le_doubleMagnitude {n : Nat} (h : 2 ^ 53 ≤ n) :
    ((2 ^ 53 : Nat) : Rat) ≤ doubleMagnitude n 1 := by
  have hn : n ≠ 0 := (lt_of_lt_of_le (by decide) h).ne'
  obtain ⟨e, he⟩ := Nat.exists_eq_add_of_le ((Nat.le_log2 hn).mpr h)
  have hexp : max (binaryExponent n 1 - 52) (-1074) = ((e + 1 : Nat) : Int) := by
    rw [binaryExponent_one hn]
    omega
  have hvalue : doubleMagnitude n 1 =
      ((roundDiv n (1 * 2 ^ (e + 1)) * 2 ^ (e + 1) : Nat) : Rat) := by
    unfold doubleMagnitude
    rw [hexp]
    rfl
  -- 53 places are kept, so the quotient is at least `2 ^ 52`
  have hplaces : 2 ^ 52 ≤ n / (1 * 2 ^ (e + 1)) := by
    rw [one_mul, Nat.le_div_iff_mul_le (Nat.pow_pos (by decide)), ← Nat.pow_add]
    have hself := Nat.log2_self_le hn
    rwa [he, show 53 + e = 52 + (e + 1) by omega] at hself
  have hlast : 2 ≤ 2 ^ (e + 1) := by
    rw [Nat.pow_succ]
    exact Nat.le_mul_of_pos_left 2 (Nat.pow_pos (by decide))
  rw [hvalue, Nat.cast_le]
  calc 2 ^ 53 = 2 ^ 52 * 2 := by decide
    _ ≤ roundDiv n (1 * 2 ^ (e + 1)) * 2 ^ (e + 1) :=
      Nat.mul_le_mul (hplaces.trans (div_le_roundDiv _ _)) hlast

theorem natCast_lt_scaleUp {n e : Nat} (h : n < 2 ^ 53) (he : 53 ≤ e) :
    (n : Rat) < scaleUp 2 1 e := by
  rw [scaleUp_natCast, Nat.cast_lt, one_mul]
  exact lt_of_lt_of_le h (Nat.pow_le_pow_right (by decide) he)

theorem sign_mul_natAbs (z : Int) : (z.sign : Rat) * (z.natAbs : Rat) = z := by
  rw [← Int.cast_natCast, ← Int.cast_mul, Int.sign_mul_natAbs]

theorem nearestDouble_intCast {z : Int} (h : z.natAbs < 2 ^ 53) :
    nearestDouble (z : Rat) = some (z : Rat) := by
  unfold nearestDouble
  rw [Rat.num_intCast, Rat.den_intCast, doubleMagnitude_natCast h]
  refine (if_pos (natCast_lt_scaleUp (e := 1024) h (by decide))).trans ?_
  rw [sign_mul_natAbs]

/-- Only a small whole number reads as a small whole number. -/
theorem eq_of_nearestDouble {m n : Nat} (hn : n < 2 ^ 53)
    (h : nearestDouble (m : Rat) = some (n : Rat)) : m = n := by
  by_cases hm : m < 2 ^ 53
  · have hself := nearestDouble_intCast (z := m) (by simpa using hm)
    rw [Int.cast_natCast] at hself
    rw [hself] at h
    exact_mod_cast Option.some.inj h
  · have hm := Nat.le_of_not_lt hm
    unfold nearestDouble at h
    rw [Rat.num_natCast, Rat.den_natCast, Int.natAbs_natCast] at h
    dsimp only at h
    split at h
    · have hvalue := Option.some.inj h
      rw [Int.sign_eq_one_of_pos (by omega), Int.cast_one, one_mul] at hvalue
      have hbig := le_doubleMagnitude hm
      rw [hvalue, Nat.cast_le] at hbig
      omega
    · exact absurd h (by simp)

/-! ### Writing small whole numbers -/

/-- The sign is put back at the end. -/
theorem decimalNear_intCast (z : Int) (k : Int) :
    decimalNear (z : Rat) k = decimalNear (z.natAbs : Rat) k := by
  unfold decimalNear
  rw [Rat.num_intCast, Rat.den_intCast, Rat.num_natCast, Rat.den_natCast, Int.natAbs_natCast]

/-- Among the multiples of a power of ten none but the number itself reads as
it. -/
theorem decimalNear_natCast {n : Nat} (h : n < 2 ^ 53) (j : Nat) :
    decimalNear (n : Rat) j = none ∨ decimalNear (n : Rat) j = some (n : Rat) := by
  have hself : mkRat (n : Int) 1 = (n : Rat) := by
    rw [Rat.mkRat_one, Int.cast_natCast]
  have hreads : ∀ m : Nat, decide (nearestDouble (scaleUp 10 m (j : Nat)) = some (mkRat n 1)) =
      true → scaleUp 10 m (j : Nat) = (n : Rat) := by
    intro m hm
    have hm := of_decide_eq_true hm
    rw [hself, scaleUp_natCast] at hm
    rw [scaleUp_natCast, eq_of_nearestDouble h hm]
  unfold decimalNear
  rw [Rat.num_natCast, Rat.den_natCast, Int.natAbs_natCast]
  dsimp only
  split
  · next hboth =>
    -- the two multiples are not the same number
    obtain ⟨hlow, hhigh⟩ := Bool.and_eq_true_iff.mp hboth
    have hsame := (hreads _ hlow).trans (hreads _ hhigh).symm
    rw [scaleUp_natCast, scaleUp_natCast, Nat.cast_inj] at hsame
    have hpow : 0 < 10 ^ j := Nat.pow_pos (by decide)
    exact absurd (Nat.eq_of_mul_eq_mul_right hpow hsame) (Nat.ne_of_lt (Nat.lt_succ_self _))
  split
  · next hlow => exact .inr (congrArg some (hreads _ hlow))
  split
  · next hhigh => exact .inr (congrArg some (hreads _ hhigh))
  · exact .inl rfl

/-- The number itself is a multiple of one. -/
theorem decimalNear_zero {n : Nat} (h : n < 2 ^ 53) :
    decimalNear (n : Rat) 0 = some (n : Rat) := by
  refine (decimalNear_natCast h 0).resolve_left fun hnone => ?_
  have hlow : nearestDouble (scaleUp 10 (n / (1 * 10 ^ 0)) ((0 : Nat) : Int)) =
      some (mkRat (n : Int) 1) := by
    rw [scaleUp_natCast, Rat.mkRat_one, pow_zero, mul_one, mul_one, Nat.div_one]
    exact nearestDouble_intCast (z := n) (by simpa using h)
  unfold decimalNear at hnone
  rw [Rat.num_natCast, Rat.den_natCast, Int.natAbs_natCast] at hnone
  dsimp only at hnone
  split at hnone
  · exact absurd hnone (by simp)
  split at hnone
  · exact absurd hnone (by simp)
  next hlow' => exact hlow' (decide_eq_true hlow)

/-- The first find, where all finds are the same. -/
theorem findSome?_eq_of_forall {α β : Type*} {f : α → Option β} {b : β} {l : List α} {a : α}
    (hall : ∀ x ∈ l, f x = none ∨ f x = some b) (ha : a ∈ l) (hfound : f a = some b) :
    l.findSome? f = some b := by
  induction l with
  | nil => exact absurd ha List.not_mem_nil
  | cons x l ih =>
    rw [List.findSome?_cons]
    rcases hall x (List.mem_cons_self ..) with hnone | hsome
    · have hne : a ≠ x := by
        rintro rfl
        rw [hfound] at hnone
        exact absurd hnone (by simp)
      rw [hnone]
      exact ih (fun y hy => hall y (List.mem_cons_of_mem _ hy))
        ((List.mem_cons.mp ha).resolve_left hne)
    · rw [hsome]

theorem shortestDecimal_intCast {z : Int} (h : z.natAbs < 2 ^ 53) :
    shortestDecimal (z : Rat) = z := by
  -- the search goes down to the ones before it comes to places below the point
  have hfirst : (List.range 309).findSome? (fun (i : Nat) => decimalNear (z : Rat) (308 - i)) =
      some (z.natAbs : Rat) := by
    refine findSome?_eq_of_forall (a := 308) (fun i hi => ?_) (List.mem_range.mpr (by decide)) ?_
    · have hi : i < 309 := List.mem_range.mp hi
      rw [decimalNear_intCast, show (308 - i : Int) = ((308 - i : Nat) : Int) by omega]
      exact decimalNear_natCast h _
    · rw [decimalNear_intCast]
      exact decimalNear_zero h
  unfold shortestDecimal
  rw [show (633 : Nat) = 309 + 324 from rfl, List.range_add, List.findSome?_append, hfirst,
    Option.some_or, Option.getD_some, Rat.num_intCast, sign_mul_natAbs]

/-- A small whole number is read as it is written. -/
theorem readDouble_intCast {z : Int} (h : z.natAbs < 2 ^ 53) :
    readDouble (z : Rat) = some (z : Rat) := by
  rw [readDouble, nearestDouble_intCast h, Option.map_some, shortestDecimal_intCast h]

end PyLib
