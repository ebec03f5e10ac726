import AliceBot.Library.Binary64
import AliceBot.Library.Lines
import Mathlib.Data.Finset.Card
import Mathlib.Data.List.GetD

/-!
# Excerpts

`_query_anchored_window` cuts a chunk down to the lines around the one that answers
the query best. The lines from `lo` to `hi` are the window. It starts with the best
line alone and takes the shorter neighbour as long as that one fits, so where it
stops the longer one does not fit either (`growWindow_spec`).

A line that is longer than the budget is cut instead, at a word or at the budget.
-/

namespace AliceBot

open PyLib

/-! ### The score of a line -/

/-- What the language decides about a line. -/
structure LineEnv where
  /-- `text.lower()`. -/
  lower : List Char → List Char
  /-- `\w`. -/
  isWord : Char → Bool
  /-- `_LINK_ONLY_LINE.match(line)`. -/
  linkOnly : List Char → Bool

section Scores

variable (env : LineEnv)

/-- `_tokens`. -/
def lineTokens (text : List Char) : Finset (List Char) :=
  (((env.lower text).splitOnP fun c => !env.isWord c).filter fun token =>
    decide (2 < token.length)).toFinset

/-- `_line_overlap_score`. -/
def lineOverlapScore (line : List Char) (queryTokens : Finset (List Char)) : Nat :=
  if trim line = [] ∨ env.linkOnly line = true then 0
  else (queryTokens ∩ lineTokens env line).card

/-- The loop that looks for the best line, with the best index and score so far. -/
def bestLineLoop : Nat → Nat → Int → List Nat → Nat
  | _, best, _, [] => best
  | index, best, bestScore, score :: scores =>
    if bestScore < score then bestLineLoop (index + 1) index score scores
    else bestLineLoop (index + 1) best bestScore scores

end Scores

/-! ### Cutting a line -/

/-- `sliced.rsplit(" ", 1)[0]`. -/
def beforeLastSpace (text : List Char) : List Char :=
  if ' ' ∈ text then (text.reverse.dropWhile (· != ' ')).tail.reverse else text

/-- `_WORD_TRIM_FLOOR`. -/
def wordTrimFloor : Rat := (nearestDouble (3 / 5)).getD 0

/-- `length >= max_chars * _WORD_TRIM_FLOOR`. No text is as long as a budget beyond
the floats. -/
def reachesFloor (length maxChars : Nat) : Bool :=
  match (nearestDouble maxChars).bind fun budget => nearestDouble (budget * wordTrimFloor) with
  | some floor => decide (floor ≤ length)
  | none => false

/-- The ellipsis. -/
def ellipsis : Char := '\u2026'

/-- `_trimmed_to_budget`. -/
def trimmedToBudget (text : List Char) (maxChars : Nat) : List Char :=
  if text.length ≤ maxChars then text
  else
    let sliced := text.take maxChars
    let tidy := beforeLastSpace sliced
    if reachesFloor tidy.length maxChars then tidy ++ [ellipsis] else sliced ++ [ellipsis]

/-! ### The window -/

/-- The lines from `lo` to `hi`. -/
def windowLines (lines : List (List Char)) (lo hi : Nat) : List (List Char) :=
  (lines.drop lo).take (hi + 1 - lo)

/-- The loop that grows the window. -/
def growWindow (lines : List (List Char)) (maxChars lo hi size : Nat) : Nat × Nat :=
  if h : 0 < lo ∨ hi + 1 < lines.length then
    -- towards the shorter neighbour, or the only one
    let growUp := decide (0 < lo) && (decide (hi + 1 = lines.length) ||
      decide ((lines.getD (lo - 1) []).length ≤ (lines.getD (hi + 1) []).length))
    if hup : growUp = true then
      let candidate := lines.getD (lo - 1) []
      if maxChars < size + candidate.length + 1 then (lo, hi)
      else growWindow lines maxChars (lo - 1) hi (size + candidate.length + 1)
    else if hdown : hi + 1 < lines.length then
      let candidate := lines.getD (hi + 1) []
      if maxChars < size + candidate.length + 1 then (lo, hi)
      else growWindow lines maxChars lo (hi + 1) (size + candidate.length + 1)
    else (lo, hi)
  else (lo, hi)
termination_by lo + (lines.length - hi)
decreasing_by
  · have hlo : 0 < lo := by
      have := (Bool.and_eq_true_iff.mp hup).1
      simpa using this
    omega
  · omega

/-- `_query_anchored_window`. The excerpt of a chunk around the line that shares most
with the query. -/
def queryAnchoredWindow (env : LineEnv) (chunk query : List Char) (maxChars : Nat) : List Char :=
  let chunk := trim chunk
  if chunk.length ≤ maxChars then chunk
  else
    let queryTokens := lineTokens env query
    let lines := chunk.splitOn '\n'
    let best := bestLineLoop 0 0 (-1) (lines.map fun line => lineOverlapScore env line queryTokens)
    let anchor := lines.getD best []
    if maxChars ≤ anchor.length then trimmedToBudget anchor maxChars
    else
      let (lo, hi) := growWindow lines maxChars best best anchor.length
      trim (['\n'].intercalate (windowLines lines lo hi))

/-! ### The best line -/

/-- `best` is the first index at which the scores are highest. -/
structure IsFirstMax (scores : List Nat) (best : Nat) : Prop where
  lt_length : best < scores.length
  le_best : ∀ index, scores.getD index 0 ≤ scores.getD best 0
  lt_best : ∀ index < best, scores.getD index 0 < scores.getD best 0

theorem IsFirstMax.singleton (score : Nat) : IsFirstMax [score] 0 where
  lt_length := Nat.zero_lt_one
  le_best := by
    intro index
    cases index with
    | zero => exact Nat.le_refl _
    | succ index => exact Nat.zero_le _
  lt_best := fun index h => absurd h (Nat.not_lt_zero index)

/-- A score that is not higher leaves the best index. -/
theorem IsFirstMax.keep {scores : List Nat} {best score : Nat} (h : IsFirstMax scores best)
    (hle : score ≤ scores.getD best 0) : IsFirstMax (scores ++ [score]) best := by
  have hbest : (scores ++ [score]).getD best 0 = scores.getD best 0 :=
    List.getD_append _ _ _ _ h.lt_length
  refine ⟨?_, ?_, ?_⟩
  · rw [List.length_append]
    exact Nat.lt_add_right _ h.lt_length
  · intro index
    rw [hbest]
    rcases Nat.lt_trichotomy index scores.length with hlt | heq | hgt
    · rw [List.getD_append _ _ _ _ hlt]
      exact h.le_best index
    · subst heq
      rw [List.getD_append_right _ _ _ _ (Nat.le_refl _), Nat.sub_self]
      exact hle
    · -- beyond the new score
      rw [List.getD_eq_default]
      · exact Nat.zero_le _
      · rw [List.length_append]
        exact hgt
  · intro index hindex
    rw [hbest, List.getD_append _ _ _ _ (hindex.trans h.lt_length)]
    exact h.lt_best index hindex

/-- A higher score becomes the best one. -/
theorem IsFirstMax.replace {scores : List Nat} {best score : Nat} (h : IsFirstMax scores best)
    (hlt : scores.getD best 0 < score) : IsFirstMax (scores ++ [score]) scores.length := by
  have hnew : (scores ++ [score]).getD scores.length 0 = score := by
    rw [List.getD_append_right _ _ _ _ (Nat.le_refl _), Nat.sub_self]
    rfl
  -- every earlier score is below the new one
  have hold : ∀ index < scores.length, (scores ++ [score]).getD index 0 < score := by
    intro index hindex
    rw [List.getD_append _ _ _ _ hindex]
    exact (h.le_best index).trans_lt hlt
  refine ⟨?_, ?_, ?_⟩
  · rw [List.length_append]
    exact Nat.lt_add_one _
  · intro index
    rw [hnew]
    rcases Nat.lt_trichotomy index scores.length with hindex | heq | hgt
    · exact (hold index hindex).le
    · rw [heq, hnew]
    · rw [List.getD_eq_default]
      · exact Nat.zero_le _
      · rw [List.length_append]
        exact hgt
  · intro index hindex
    rw [hnew]
    exact hold index hindex

/-- The loop keeps the first index of the highest score among those it has seen. -/
theorem bestLineLoop_isFirstMax (scores : List Nat) {seen : List Nat} {best : Nat}
    (h : IsFirstMax seen best) :
    IsFirstMax (seen ++ scores)
      (bestLineLoop seen.length best (seen.getD best 0) scores) := by
  -- along the scores that are left; those seen grow at their end
  induction scores generalizing seen best with
  | nil =>
    rw [List.append_nil]
    exact h
  | cons score scores ih =>
    have hseen : seen ++ score :: scores = (seen ++ [score]) ++ scores :=
      List.append_cons seen score scores
    have hlength : seen.length + 1 = (seen ++ [score]).length := by
      rw [List.length_append]
      rfl
    rw [bestLineLoop, hseen, hlength]
    split
    · -- a higher score takes the place
      rename_i hlt
      have hrep := h.replace (Int.ofNat_lt.mp hlt)
      have hscore : (seen ++ [score]).getD seen.length 0 = score := by
        rw [List.getD_append_right _ _ _ _ (Nat.le_refl _), Nat.sub_self]
        rfl
      have hrest := ih hrep
      rw [hscore] at hrest
      exact hrest
    · -- one that is as high does not: the first index stays
      rename_i hge
      have hkeep := h.keep (Int.ofNat_le.mp (Int.not_lt.mp hge))
      have hscore : (seen ++ [score]).getD best 0 = seen.getD best 0 :=
        List.getD_append _ _ _ _ h.lt_length
      have hrest := ih hkeep
      rw [hscore] at hrest
      exact hrest

/-- The first score is higher than the score the loop starts with. -/
theorem bestLineLoop_start {scores : List Nat} (h : scores ≠ []) :
    IsFirstMax scores (bestLineLoop 0 0 (-1) scores) := by
  cases scores with
  | nil => exact absurd rfl h
  | cons score scores =>
    have hlt : (-1 : Int) < score := Int.lt_of_lt_of_le (by decide) (Int.natCast_nonneg score)
    rw [bestLineLoop, if_pos hlt]
    exact bestLineLoop_isFirstMax scores (IsFirstMax.singleton score)

/-! ### The cut line -/

theorem beforeLastSpace_front (text : List Char) : beforeLastSpace text <+: text := by
  unfold beforeLastSpace
  split
  · have hsuffix : (text.reverse.dropWhile (· != ' ')).tail <:+ text.reverse :=
      (List.tail_suffix _).trans (List.dropWhile_suffix _)
    rw [← List.reverse_reverse text]
    exact List.reverse_prefix.mpr (by simpa using hsuffix)
  · exact List.prefix_rfl

/-- A line over the budget is cut to a prefix within it, with the ellipsis after it. -/
theorem trimmedToBudget_cut {text : List Char} {maxChars : Nat} (h : maxChars < text.length) :
    ∃ kept, kept <+: text ∧ kept.length ≤ maxChars ∧
      trimmedToBudget text maxChars = kept ++ [ellipsis] := by
  have htake : (text.take maxChars).length ≤ maxChars := List.length_take_le _ _
  have hbegin : text.take maxChars <+: text := List.take_prefix _ _
  unfold trimmedToBudget
  rw [if_neg (Nat.not_le.mpr h)]
  dsimp only
  split
  · have hfront := beforeLastSpace_front (text.take maxChars)
    exact ⟨_, hfront.trans hbegin, hfront.length_le.trans htake, rfl⟩
  · exact ⟨_, hbegin, htake, rfl⟩

/-! ### Growing the window -/

section Windows

variable {lines : List (List Char)} {maxChars best lo hi size : Nat}

theorem windowLines_self (h : best < lines.length) :
    windowLines lines best best = [lines.getD best []] := by
  rw [windowLines, Nat.add_sub_cancel_left, List.drop_eq_getElem_cons h,
    List.getD_eq_getElem _ _ h]
  rfl

theorem windowLines_ne_nil (hle : lo ≤ hi) (hlt : hi < lines.length) :
    windowLines lines lo hi ≠ [] := by
  rw [windowLines, ← List.length_pos_iff, List.length_take, List.length_drop]
  exact Nat.lt_min.mpr ⟨by omega, by omega⟩

/-- The line above the window, in front of it. -/
theorem windowLines_up (hpos : 0 < lo) (hle : lo ≤ hi) (hlt : hi < lines.length) :
    windowLines lines (lo - 1) hi = lines.getD (lo - 1) [] :: windowLines lines lo hi := by
  have hindex : lo - 1 < lines.length := by omega
  have hnext : lo - 1 + 1 = lo := Nat.sub_add_cancel hpos
  have hcount : hi + 1 - (lo - 1) = hi + 1 - lo + 1 := by omega
  rw [windowLines, List.drop_eq_getElem_cons hindex, hnext, hcount, List.take_succ_cons,
    List.getD_eq_getElem _ _ hindex]
  rfl

/-- The line below the window, behind it. -/
theorem windowLines_down (hle : lo ≤ hi) (hlt : hi + 1 < lines.length) :
    windowLines lines lo (hi + 1) = windowLines lines lo hi ++ [lines.getD (hi + 1) []] := by
  have hcount : hi + 1 + 1 - lo = hi + 1 - lo + 1 := by omega
  have hindex : hi + 1 - lo < (lines.drop lo).length := by
    rw [List.length_drop]
    omega
  have hsum : lo + (hi + 1 - lo) = hi + 1 := by omega
  rw [windowLines, windowLines, hcount, List.take_succ_eq_append_getElem hindex,
    List.getElem_drop, List.getD_eq_getElem _ _ hlt]
  simp only [hsum]

/-- The lines from `lo` to `hi` are around the best one and fit the budget. -/
structure IsWindow (lines : List (List Char)) (maxChars best lo hi : Nat) : Prop where
  lo_le : lo ≤ best
  le_hi : best ≤ hi
  hi_lt : hi < lines.length
  fits : (['\n'].intercalate (windowLines lines lo hi)).length ≤ maxChars

/-- Neither neighbour of the window fits. -/
structure IsFullWindow (lines : List (List Char)) (maxChars best lo hi : Nat) : Prop
    extends IsWindow lines maxChars best lo hi where
  above : 0 < lo →
    maxChars < (['\n'].intercalate (windowLines lines (lo - 1) hi)).length
  below : hi + 1 < lines.length →
    maxChars < (['\n'].intercalate (windowLines lines lo (hi + 1))).length

theorem IsWindow.lo_le_hi (h : IsWindow lines maxChars best lo hi) : lo ≤ hi :=
  h.lo_le.trans h.le_hi

/-- One line, joined. -/
theorem intercalate_window_line (h : best < lines.length) :
    ['\n'].intercalate (windowLines lines best best) = lines.getD best [] := by
  rw [windowLines_self h]
  exact List.intercalate_singleton ..

theorem IsWindow.line (h : best < lines.length) (hfits : (lines.getD best []).length ≤ maxChars) :
    IsWindow lines maxChars best best best where
  lo_le := Nat.le_refl _
  le_hi := Nat.le_refl _
  hi_lt := h
  fits := by
    rw [intercalate_window_line h]
    exact hfits

theorem length_window_up (h : IsWindow lines maxChars best lo hi) (hpos : 0 < lo) :
    (['\n'].intercalate (windowLines lines (lo - 1) hi)).length =
      (['\n'].intercalate (windowLines lines lo hi)).length +
        (lines.getD (lo - 1) []).length + 1 := by
  rw [length_intercalate, length_intercalate, windowLines_up hpos h.lo_le_hi h.hi_lt]
  exact width_cons (windowLines_ne_nil h.lo_le_hi h.hi_lt) _

theorem length_window_down (h : IsWindow lines maxChars best lo hi)
    (hlt : hi + 1 < lines.length) :
    (['\n'].intercalate (windowLines lines lo (hi + 1))).length =
      (['\n'].intercalate (windowLines lines lo hi)).length +
        (lines.getD (hi + 1) []).length + 1 := by
  rw [length_intercalate, length_intercalate, windowLines_down h.lo_le_hi hlt]
  exact width_concat (windowLines_ne_nil h.lo_le_hi h.hi_lt) _

theorem IsWindow.up (h : IsWindow lines maxChars best lo hi) (hpos : 0 < lo)
    (hfits : (['\n'].intercalate (windowLines lines lo hi)).length +
      (lines.getD (lo - 1) []).length + 1 ≤ maxChars) :
    IsWindow lines maxChars best (lo - 1) hi where
  lo_le := (Nat.sub_le lo 1).trans h.lo_le
  le_hi := h.le_hi
  hi_lt := h.hi_lt
  fits := by
    rw [length_window_up h hpos]
    exact hfits

theorem IsWindow.down (h : IsWindow lines maxChars best lo hi) (hlt : hi + 1 < lines.length)
    (hfits : (['\n'].intercalate (windowLines lines lo hi)).length +
      (lines.getD (hi + 1) []).length + 1 ≤ maxChars) :
    IsWindow lines maxChars best lo (hi + 1) where
  lo_le := h.lo_le
  le_hi := h.le_hi.trans (Nat.le_succ hi)
  hi_lt := hlt
  fits := by
    rw [length_window_down h hlt]
    exact hfits

/-- Growing keeps a window and stops only at one that is full. The loop carries the
length of the window; where the shorter neighbour does not fit, the other one does not. -/
theorem growWindow_spec (h : IsWindow lines maxChars best lo hi)
    (hsize : size = (['\n'].intercalate (windowLines lines lo hi)).length) :
    IsFullWindow lines maxChars best (growWindow lines maxChars lo hi size).1
      (growWindow lines maxChars lo hi size).2 := by
  fun_induction growWindow lines maxChars lo hi size with
  | case1 lo hi size hmore growUp hup candidate hover =>
    -- the line above does not fit, and the one below is not shorter
    obtain ⟨hpos, hshort⟩ := Bool.and_eq_true_iff.mp hup
    have hpos : 0 < lo := of_decide_eq_true hpos
    refine ⟨h, fun _ => ?_, fun hlt => ?_⟩
    · rw [length_window_up h hpos, ← hsize]
      exact hover
    · rcases Bool.or_eq_true_iff.mp hshort with hend | hle
      · exact absurd (of_decide_eq_true hend) (Nat.ne_of_lt hlt)
      · rw [length_window_down h hlt, ← hsize]
        have hle := of_decide_eq_true hle
        exact hover.trans_le (Nat.add_le_add_right (Nat.add_le_add_left hle size) 1)
  | case2 lo hi size hmore growUp hup candidate hfits ih =>
    have hpos : 0 < lo := of_decide_eq_true (Bool.and_eq_true_iff.mp hup).1
    have hfits := Nat.not_lt.mp hfits
    refine ih (h.up hpos ?_) ?_
    · rw [← hsize]
      exact hfits
    · rw [length_window_up h hpos, ← hsize]
  | case3 lo hi size hmore growUp hup hdown candidate hover =>
    -- the line below does not fit, and it is shorter than the one above
    refine ⟨h, fun hpos => ?_, fun _ => ?_⟩
    · have hlong : ¬ (lines.getD (lo - 1) []).length ≤ (lines.getD (hi + 1) []).length := by
        intro hle
        apply hup
        simp only [growUp, decide_eq_true hpos, decide_eq_true hle, Bool.or_true, Bool.and_true]
      rw [length_window_up h hpos, ← hsize]
      have hle := (Nat.not_le.mp hlong).le
      exact hover.trans_le (Nat.add_le_add_right (Nat.add_le_add_left hle size) 1)
    · rw [length_window_down h hdown, ← hsize]
      exact hover
  | case4 lo hi size hmore growUp hup hdown candidate hfits ih =>
    have hfits := Nat.not_lt.mp hfits
    refine ih (h.down hdown ?_) ?_
    · rw [← hsize]
      exact hfits
    · rw [length_window_down h hdown, ← hsize]
  | case5 lo hi size hmore growUp hup hdown =>
    -- no line below: then the loop would have grown upwards
    have hlast : hi + 1 = lines.length := Nat.le_antisymm h.hi_lt (Nat.not_lt.mp hdown)
    have hpos : 0 < lo := hmore.resolve_right hdown
    have hgrow : growUp = true := by
      simp only [growUp, decide_eq_true hpos, decide_eq_true hlast, Bool.true_or, Bool.and_true]
    exact absurd hgrow hup
  | case6 lo hi size hnone =>
    exact ⟨h, fun hpos => absurd (Or.inl hpos) hnone, fun hlt => absurd (Or.inr hlt) hnone⟩

end Windows

/-! ### The excerpt -/

/-- What an excerpt of a chunk for a query may be. -/
inductive IsExcerpt (env : LineEnv) (chunk query : List Char) (maxChars : Nat) :
    List Char → Prop
  /-- The chunk fits. -/
  | whole (hfits : (trim chunk).length ≤ maxChars) :
      IsExcerpt env chunk query maxChars (trim chunk)
  /-- A full window around the first line of the highest score. -/
  | window {best lo hi : Nat} {excerpt : List Char}
      (hbest : IsFirstMax (((trim chunk).splitOn '\n').map fun line =>
        lineOverlapScore env line (lineTokens env query)) best)
      (hfull : IsFullWindow ((trim chunk).splitOn '\n') maxChars best lo hi)
      (htrim : trim excerpt =
        trim (['\n'].intercalate (windowLines ((trim chunk).splitOn '\n') lo hi)))
      (hfits : excerpt.length ≤ maxChars) :
      IsExcerpt env chunk query maxChars excerpt
  /-- The beginning of that line, if the line alone is over the budget. -/
  | cut {best : Nat} {kept : List Char}
      (hbest : IsFirstMax (((trim chunk).splitOn '\n').map fun line =>
        lineOverlapScore env line (lineTokens env query)) best)
      (hlong : maxChars < (((trim chunk).splitOn '\n').getD best []).length)
      (hfront : kept <+: ((trim chunk).splitOn '\n').getD best [])
      (hkept : kept.length ≤ maxChars) :
      IsExcerpt env chunk query maxChars (kept ++ [ellipsis])

/-- The excerpt is the chunk, a full window around the line that answers the query
best, or the beginning of that line. -/
theorem queryAnchoredWindow_isExcerpt (env : LineEnv) (chunk query : List Char)
    (maxChars : Nat) :
    IsExcerpt env chunk query maxChars (queryAnchoredWindow env chunk query maxChars) := by
  unfold queryAnchoredWindow
  dsimp only
  split
  · rename_i hfits
    exact .whole hfits
  · have hbest : IsFirstMax (((trim chunk).splitOn '\n').map fun line =>
        lineOverlapScore env line (lineTokens env query)) _ :=
      bestLineLoop_start (mt List.map_eq_nil_iff.mp (List.splitOn_ne_nil _ _))
    have hlt := hbest.lt_length
    rw [List.length_map] at hlt
    split
    · rename_i hover
      rcases Nat.lt_or_eq_of_le hover with hlong | heq
      · obtain ⟨kept, hfront, hkept, hcut⟩ := trimmedToBudget_cut hlong
        rw [hcut]
        exact .cut hbest hlong hfront hkept
      · -- the line fills the budget: it is returned as it is, and nothing fits beside it
        have hline := heq.ge
        have hwindow := IsWindow.line hlt hline
        rw [trimmedToBudget, if_pos hline]
        refine .window hbest ⟨hwindow, fun hpos => ?_, fun hnext => ?_⟩ ?_ hline
        · rw [length_window_up hwindow hpos, intercalate_window_line hlt, ← heq]
          exact Nat.lt_succ_of_le (Nat.le_add_right _ _)
        · rw [length_window_down hwindow hnext, intercalate_window_line hlt, ← heq]
          exact Nat.lt_succ_of_le (Nat.le_add_right _ _)
        · rw [intercalate_window_line hlt]
    · rename_i hover
      have hwindow := IsWindow.line hlt (Nat.not_le.mp hover).le
      have hfull := growWindow_spec hwindow
        (congrArg List.length (intercalate_window_line hlt)).symm
      exact .window hbest hfull (trim_trim _) ((length_trim_le _).trans hfull.fits)

end AliceBot
