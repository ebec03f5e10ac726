import Mathlib.Data.Nat.Log
import Mathlib.Order.Monotone.Basic

/-!
# Reports of one's own size

A text that reports its own size, and by how much it exceeds a total, changes its size by
reporting it: where a number has a digit more, the text is longer. `report` are the sizes
found round after round, each reported in the next one; the first text reports zero.

* `report_mono` — no round finds a smaller size than the one before;
* `report_le_succ` — from the fourth round on, a round finds at most one more;
* `exists_stable_report` — the seventh round, or one before it, finds the size that is
  reported.
-/

namespace PyLib

/-! ### Numerals -/

/-- The number of digits of a number to a base. -/
def numeralLength (b n : ℕ) : ℕ := Nat.log b n + 1

section Numerals

variable {b m n : ℕ}

theorem numeralLength_mono (b : ℕ) : Monotone (numeralLength b) := fun _ _ h =>
  Nat.succ_le_succ (Nat.log_mono_right h)

theorem numeralLength_pos (b n : ℕ) : 0 < numeralLength b n := Nat.succ_pos _

theorem numeralLength_le_self (hn : n ≠ 0) : numeralLength b n ≤ n := Nat.log_lt_self b hn

theorem numeralLength_of_lt (h : n < b) : numeralLength b n = 1 := by
  rw [numeralLength, Nat.log_of_lt h]

/-- A number has at most a digit more than one a base below it. -/
theorem numeralLength_le_succ (hb : 1 < b) (hn : n ≠ 0) (h : m ≤ b * n) :
    numeralLength b m ≤ numeralLength b n + 1 := by
  calc numeralLength b m ≤ numeralLength b (n * b) :=
        numeralLength_mono b (h.trans_eq (Nat.mul_comm b n))
    _ = numeralLength b n + 1 := by
        rw [numeralLength, Nat.log_mul_base hb hn, numeralLength]

/-- Up to three more are at most a digit more. -/
theorem numeralLength_add_le (hb : 4 ≤ b) (h : m ≤ n + 3) :
    numeralLength b m ≤ numeralLength b n + 1 := by
  rcases Nat.eq_zero_or_pos n with rfl | hpos
  · rw [numeralLength_of_lt (by omega : m < b)]
    exact Nat.le_add_left 1 _
  · refine numeralLength_le_succ (by omega) hpos.ne' (h.trans ?_)
    calc n + 3 ≤ 4 * n := by omega
      _ ≤ b * n := Nat.mul_le_mul_right n hb

end Numerals

/-! ### Rounds -/

section Rounds

variable (b : ℕ) (size : ℕ → ℕ) (total : ℕ)

/-- The digits of a size and of what it exceeds the total by. -/
def reportLength (s : ℕ) : ℕ := numeralLength b s + numeralLength b (s - total)

/-- The size that a round finds, of the text that reports what the round before found. -/
def report : ℕ → ℕ
  | 0 => 0
  | round + 1 => size (reportLength b total (report round))

variable {b size total}

theorem reportLength_mono : Monotone (reportLength b total) := fun _ _ h =>
  Nat.add_le_add (numeralLength_mono b h) (numeralLength_mono b (Nat.sub_le_sub_right h total))

/-- A size is reported in no more digits than twice its own. -/
theorem reportLength_le (s : ℕ) : reportLength b total s ≤ 2 * numeralLength b s := by
  have hexcess := numeralLength_mono b (Nat.sub_le s total)
  rw [reportLength, Nat.two_mul]
  exact Nat.add_le_add_left hexcess _

variable (hmono : Monotone size) (hslow : ∀ a, size (a + 2) ≤ size a + 1)

include hmono in
theorem report_mono : Monotone (report b size total) := by
  refine monotone_nat_of_le_succ fun round => ?_
  induction round with
  | zero => exact Nat.zero_le _
  | succ round ih => exact hmono (reportLength_mono ih)

include hmono hslow in
/-- Two digits more are at most one more. -/
theorem size_add_le (a n : ℕ) : size (a + n) ≤ size a + (n + 1) / 2 := by
  induction n using Nat.twoStepInduction with
  | zero => exact Nat.le_add_right _ _
  | one => exact (hmono (Nat.le_succ (a + 1))).trans (hslow a)
  | more n ih _ =>
    have hstep := hslow (a + n)
    rw [Nat.add_assoc] at hstep
    omega

include hmono hslow in
theorem report_add_le (round : ℕ) {n : ℕ}
    (h : reportLength b total (report b size total (round + 1)) ≤
      reportLength b total (report b size total round) + n) :
    report b size total (round + 2) ≤ report b size total (round + 1) + (n + 1) / 2 :=
  (hmono h).trans (size_add_le hmono hslow _ n)

/-- A round finds more only where there are more digits to report. -/
theorem reportLength_lt_of_ne (hmono : Monotone size) {round : ℕ}
    (h : report b size total (round + 2) ≠ report b size total (round + 1)) :
    reportLength b total (report b size total round) <
      reportLength b total (report b size total (round + 1)) := by
  refine lt_of_le_of_ne (reportLength_mono (report_mono hmono (Nat.le_succ round))) fun heq => ?_
  exact h (congrArg size heq.symm)

/-- A size that grows by no more than half the digits of what it exceeds the total by gets
at most a digit more in either number. -/
theorem reportLength_add_le (hb : 4 ≤ b) {s s' : ℕ} (hs : s ≠ 0)
    (h : s' ≤ s + (numeralLength b (s - total) + 1) / 2) :
    reportLength b total s' ≤ reportLength b total s + 2 := by
  have hself : numeralLength b (s - total) ≤ s :=
    (numeralLength_mono b (Nat.sub_le s total)).trans (numeralLength_le_self hs)
  have hdouble (n : ℕ) : 2 * n ≤ b * n := Nat.mul_le_mul_right n (by omega)
  have hsize : numeralLength b s' ≤ numeralLength b s + 1 :=
    numeralLength_le_succ (by omega) hs (le_trans (by omega) (hdouble s))
  have hexcess : numeralLength b (s' - total) ≤ numeralLength b (s - total) + 1 := by
    by_cases hzero : s - total = 0
    · -- nothing exceeds the total, so the size grows by one
      rw [hzero, numeralLength_of_lt (by omega : 0 < b)] at h
      exact numeralLength_add_le hb (by omega)
    · have hless := numeralLength_le_self (b := b) hzero
      exact numeralLength_le_succ (by omega) hzero (le_trans (by omega) (hdouble (s - total)))
  rw [reportLength, reportLength]
  omega

variable (hb : 4 ≤ b) (hpos : ∀ a, 0 < size a)

include hmono hslow hb hpos in
/-- The second round adds at most a digit to the size, and the third a digit to either
number. -/
theorem reportLength_third :
    reportLength b total (report b size total 3) ≤
      reportLength b total (report b size total 2) + 2 := by
  have hfirst : report b size total 1 ≠ 0 := (hpos _).ne'
  have hsecond : report b size total 2 ≠ 0 := (hpos _).ne'
  have hself := numeralLength_le_self (b := b) hfirst
  have hdigits : reportLength b total (report b size total 1) ≤
      2 * numeralLength b (report b size total 1) := reportLength_le _
  -- from the first round to the second the report at most doubles
  have hgrows : report b size total 2 ≤ report b size total 1 +
      (2 * numeralLength b (report b size total 1) + 1) / 2 :=
    report_add_le hmono hslow 0 (hdigits.trans (Nat.le_add_left _ _))
  -- so its numeral is at most one digit longer
  have hlonger : numeralLength b (report b size total 2) ≤
      numeralLength b (report b size total 1) + 1 := by
    refine numeralLength_le_succ (by omega) hfirst ?_
    calc report b size total 2 ≤ 2 * report b size total 1 := by omega
      _ ≤ b * report b size total 1 := Nat.mul_le_mul_right _ (by omega)
  have hlength : reportLength b total (report b size total 2) ≤
      reportLength b total (report b size total 1) +
        numeralLength b (report b size total 2 - total) := by
    have hexcess := numeralLength_pos b (report b size total 1 - total)
    rw [reportLength, reportLength]
    omega
  exact reportLength_add_le hb hsecond (report_add_le hmono hslow 1 hlength)

include hmono hslow hb hpos in
theorem reportLength_succ (round : ℕ) :
    reportLength b total (report b size total (round + 3)) ≤
      reportLength b total (report b size total (round + 2)) + 2 := by
  induction round with
  | zero => exact reportLength_third hmono hslow hb hpos
  | succ round ih =>
    -- two digits more are one more to report, which is at most a digit in either number
    have hone : report b size total (round + 4) ≤ report b size total (round + 3) + 1 :=
      report_add_le hmono hslow (round + 2) ih
    have hexcess := numeralLength_pos b (report b size total (round + 3) - total)
    have hhalf : 1 ≤ (numeralLength b (report b size total (round + 3) - total) + 1) / 2 := by
      omega
    exact reportLength_add_le hb (hpos _).ne' (hone.trans (Nat.add_le_add_left hhalf _))

include hmono hslow hb hpos in
/-- From the fourth round on, a round finds at most one more. -/
theorem report_le_succ (round : ℕ) :
    report b size total (round + 4) ≤ report b size total (round + 3) + 1 :=
  report_add_le hmono hslow (round + 2) (reportLength_succ hmono hslow hb hpos round)

include hmono hslow hb hpos in
/-- The seventh round, or one before it, finds the size that is reported. -/
theorem exists_stable_report :
    ∃ round ≤ 6, report b size total (round + 1) = report b size total round := by
  by_contra hnone
  have hne (round : ℕ) (h : round ≤ 6) :
      report b size total (round + 1) ≠ report b size total round :=
    fun heq => hnone ⟨round, h, heq⟩
  -- three rounds in turn have more digits to report
  have hlength (round : ℕ) (h : round ≤ 4) :
      reportLength b total (report b size total (round + 1)) <
        reportLength b total (report b size total (round + 2)) :=
    reportLength_lt_of_ne hmono (hne (round + 2) (by omega))
  have hthree : reportLength b total (report b size total 3) + 3 ≤
      reportLength b total (report b size total 6) := by
    calc reportLength b total (report b size total 3) + 3
        ≤ reportLength b total (report b size total 4) + 2 :=
          Nat.add_le_add_right (hlength 2 (by omega)) 2
      _ ≤ reportLength b total (report b size total 5) + 1 :=
          Nat.add_le_add_right (hlength 3 (by omega)) 1
      _ ≤ reportLength b total (report b size total 6) := hlength 4 (by omega)
  -- but the size grows by three at most, which is one digit in either number
  have hgrows : report b size total 6 ≤ report b size total 3 + 3 := by
    have h₄ : report b size total 4 ≤ report b size total 3 + 1 :=
      report_le_succ hmono hslow hb hpos 0
    have h₅ : report b size total 5 ≤ report b size total 4 + 1 :=
      report_le_succ hmono hslow hb hpos 1
    have h₆ : report b size total 6 ≤ report b size total 5 + 1 :=
      report_le_succ hmono hslow hb hpos 2
    omega
  have hsize : numeralLength b (report b size total 6) ≤
      numeralLength b (report b size total 3) + 1 := numeralLength_add_le hb hgrows
  have hexcess : numeralLength b (report b size total 6 - total) ≤
      numeralLength b (report b size total 3 - total) + 1 := numeralLength_add_le hb (by omega)
  rw [reportLength, reportLength] at hthree
  omega

end Rounds

end PyLib
