import AliceBot.Library.Text

/-!
# Texts without ASCII case

Lowering the twenty-six capitals keeps every other character, is idempotent, and makes no
text ASCII that was not.
-/

namespace PyLib

/-- A capital is one of twenty-six. -/
theorem exists_of_capital {c : Char} (h : 'A' ≤ c ∧ c ≤ 'Z') :
    ∃ n < 26, c = Char.ofNat (65 + n) := by
  have hlow : 65 ≤ c.toNat := h.1
  have hhigh : c.toNat ≤ 90 := h.2
  refine ⟨c.toNat - 65, by omega, ?_⟩
  rw [Nat.add_sub_cancel' hlow, Char.ofNat_toNat]

/-- A property of characters is checked for the capitals alone where lowering may change
it. -/
theorem asciiLowerChar_cases {P : Char → Char → Prop}
    (hcapital : ∀ n < 26, P (Char.ofNat (65 + n)) (Char.ofNat (97 + n))) (hother : ∀ c, P c c)
    (c : Char) : P c (asciiLowerChar c) := by
  unfold asciiLowerChar
  split
  case isTrue h =>
    obtain ⟨n, hn, rfl⟩ := exists_of_capital h
    have hlower : Char.ofNat ((Char.ofNat (65 + n)).toNat + 32) = Char.ofNat (97 + n) := by
      revert n
      decide
    rw [hlower]
    exact hcapital n hn
  case isFalse => exact hother c

@[simp] theorem asciiLowerChar_asciiLowerChar (c : Char) :
    asciiLowerChar (asciiLowerChar c) = asciiLowerChar c := by
  refine asciiLowerChar_cases (P := fun c lower => asciiLowerChar lower = lower ∨ c = lower) ?_ ?_ c
    |>.elim id fun h => ?_
  · decide
  · exact fun c => Or.inr rfl
  · rw [← h]
    exact h.symm

@[simp] theorem asciiLower_asciiLower (s : String) : asciiLower (asciiLower s) = asciiLower s := by
  rw [asciiLower, asciiLower, String.toList_ofList, List.map_map]
  congr 1
  exact List.map_congr_left fun c _ => asciiLowerChar_asciiLowerChar c

@[simp] theorem isAscii_asciiLower (s : String) : isAscii (asciiLower s) = isAscii s := by
  have hchar : ∀ c : Char, decide ((asciiLowerChar c).toNat < 128) = decide (c.toNat < 128) :=
    asciiLowerChar_cases (P := fun c lower => decide (lower.toNat < 128) = decide (c.toNat < 128))
      (by decide) fun _ => rfl
  rw [isAscii, isAscii, asciiLower, String.toList_ofList, List.all_map]
  exact congrArg s.toList.all (funext hchar)

@[simp] theorem asciiLower_eq_empty {s : String} : asciiLower s = "" ↔ s = "" := by
  have hempty : s = "" ↔ s.toList = [] := String.toList_eq_nil_iff.symm
  rw [hempty, ← String.toList_eq_nil_iff, asciiLower, String.toList_ofList]
  exact List.map_eq_nil_iff

end PyLib
