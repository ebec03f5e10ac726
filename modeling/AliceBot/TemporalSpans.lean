import AliceBot.Library.Calendar

/-!
# Spans between two days

`_humanized_day_span` writes the days between two dates and breaks a long span
down into whole calendar months and days. `_add_months` clamps at the end of a
month, so it is neither injective nor additive: the 29th, 30th and 31st of
January all go to the 28th of February.

What carries the breakdown is `monthIndex`. Shifting a day by months shifts its
index by as many, and days of a larger index are later whatever their day of
the month is. So the shifts of one day are strictly increasing
(`addMonths_lt`), although the days shifted are not kept apart.
-/

namespace AliceBot

open PyLib

/-- `ValueError`: there is no such date. -/
inductive DateError where
  | valueError
deriving DecidableEq

/-- `date(year, month, day)`. -/
def dateOf (year month day : Nat) : Except DateError Date :=
  match Date.ofFields? year month day with
  | some date => .ok date
  | none => .error .valueError

/-- `_days_in_month`. -/
def daysInMonthOf (year month : Nat) : Except DateError Nat :=
  if month = 12 then .ok 31
  else do
    let next ← dateOf year (month + 1) 1
    let first ← dateOf year month 1
    pure (next.dayNumber - first.dayNumber)

/-- The months from the beginning of year 0 to the month of a day. -/
def monthIndex (day : Date) : Int := day.year * 12 + (day.month - 1)

/-- `_add_months`. A year below 0 is no year either. -/
def addMonths (day : Date) (months : Int) : Except DateError Date := do
  let index := monthIndex day + months
  let year := (index / 12).toNat
  let month := (index % 12).toNat + 1
  let last ← daysInMonthOf year month
  dateOf year month (min day.day last)

/-- What `_calendar_breakdown` writes: whole months, as years and months, and
the days that remain. -/
structure Span where
  years : Int
  months : Int
  days : Int

/-- `_calendar_breakdown`, before it is written out; nothing where the dates
are less than one month apart. -/
def calendarSpan (earlier later : Date) : Except DateError (Option Span) := do
  let months : Int :=
    ((later.year : Int) - earlier.year) * 12 + ((later.month : Int) - earlier.month)
  let shifted ← addMonths earlier months
  let months := if later.dayNumber < shifted.dayNumber then months - 1 else months
  if months ≤ 0 then pure none
  else do
    let start ← addMonths earlier months
    pure (some ⟨months / 12, months % 12, later.dayNumber - start.dayNumber⟩)

/-- `f"{n} unit" + ("s" if n != 1 else "")`. -/
def counted (n : Int) (unit : String) : String :=
  toString n ++ " " ++ unit ++ (if n ≠ 1 then "s" else "")

/-- The parts that are not zero. -/
def Span.parts (span : Span) : List String :=
  (if span.years ≠ 0 then [counted span.years "year"] else []) ++
  (if span.months ≠ 0 then [counted span.months "month"] else []) ++
  (if span.days ≠ 0 then [counted span.days "day"] else [])

/-- `" ".join(parts)`. -/
def Span.text (span : Span) : String := String.intercalate " " span.parts

/-- `_calendar_breakdown`. -/
def calendarBreakdown (earlier later : Date) : Except DateError String :=
  (calendarSpan earlier later).map fun span => (span.map Span.text).getD ""

/-- `(later - earlier).days`. -/
def daysBetween (earlier later : Date) : Int := (later.dayNumber : Int) - earlier.dayNumber

/-- `_WEEKS_BREAKDOWN_MIN_DAYS`. -/
def weeksBreakdownMinDays : Int := 7

/-- `_MONTHS_BREAKDOWN_MIN_DAYS`. -/
def monthsBreakdownMinDays : Int := 60

/-- The breakdown into weeks and days. -/
def weeksBreakdown (days : Int) : String :=
  counted (days / 7) "week" ++ (if days % 7 ≠ 0 then " " ++ counted (days % 7) "day" else "")

/-- `_humanized_day_span`. A span in days, broken down to weeks when it is longer, and
to months and years when it is longer still. -/
def humanizedDaySpan (earlier later : Date) : Except DateError String :=
  let days := daysBetween earlier later
  let label := counted days "day"
  if days < weeksBreakdownMinDays then .ok label
  else if days < monthsBreakdownMinDays then .ok (label ++ " (" ++ weeksBreakdown days ++ ")")
  else do
    let breakdown ← calendarBreakdown earlier later
    if breakdown = "" then pure label else pure (label ++ " (" ++ breakdown ++ ")")

/-! ### Months -/

theorem dateOf_ok_iff {year month day : Nat} {date : Date} :
    dateOf year month day = .ok date ↔
      date.year = year ∧ date.month = month ∧ date.day = day := by
  unfold dateOf Date.ofFields?
  constructor
  · intro h
    split_ifs at h with hrange
    · cases h
      exact ⟨rfl, rfl, rfl⟩
  · rintro ⟨rfl, rfl, rfl⟩
    have hrange : (1 ≤ date.year ∧ date.year ≤ 9999) ∧ (1 ≤ date.month ∧ date.month ≤ 12) ∧
        1 ≤ date.day ∧ date.day ≤ daysInMonth date.year date.month :=
      ⟨⟨date.year_pos, date.year_le⟩, ⟨date.month_pos, date.month_le⟩, date.day_pos, date.day_le⟩
    rw [dif_pos hrange]

theorem exists_dateOf {year month day : Nat} (hyear : 1 ≤ year ∧ year ≤ 9999)
    (hmonth : 1 ≤ month ∧ month ≤ 12) (hday : 1 ≤ day ∧ day ≤ daysInMonth year month) :
    ∃ date, dateOf year month day = .ok date :=
  ⟨⟨year, month, day, hyear.1, hyear.2, hmonth.1, hmonth.2, hday.1, hday.2⟩,
    dateOf_ok_iff.mpr ⟨rfl, rfl, rfl⟩⟩

/-- `_days_in_month` computes the length of the month. -/
theorem daysInMonthOf_eq {year month : Nat} (hyear : 1 ≤ year ∧ year ≤ 9999)
    (hmonth : 1 ≤ month ∧ month ≤ 12) :
    daysInMonthOf year month = .ok (daysInMonth year month) := by
  unfold daysInMonthOf
  split
  · next hlast =>
    rw [hlast]
    rfl
  · next hlast =>
    have hfirstDay : ∀ month, 1 ≤ month → 1 ≤ 1 ∧ 1 ≤ daysInMonth year month := fun _ h =>
      ⟨le_refl _, Date.daysInMonth_pos _ h⟩
    obtain ⟨next, hnext⟩ := exists_dateOf hyear (by omega : 1 ≤ month + 1 ∧ month + 1 ≤ 12)
      (hfirstDay _ (by omega))
    obtain ⟨first, hfirst⟩ := exists_dateOf hyear hmonth (hfirstDay _ hmonth.1)
    obtain ⟨hny, hnm, hnd⟩ := dateOf_ok_iff.mp hnext
    obtain ⟨hfy, hfm, hfd⟩ := dateOf_ok_iff.mp hfirst
    -- both days are the first of their month, so the month lies between them
    have hspan : next.dayNumber - first.dayNumber = daysInMonth year month := by
      rw [Date.dayNumber, Date.dayNumber, hny, hnm, hnd, hfy, hfm, hfd, daysBeforeMonth]
      omega
    rw [hnext, hfirst]
    exact congrArg Except.ok hspan

theorem daysInMonth_le (year month : Nat) : daysInMonth year month ≤ 31 := by
  unfold daysInMonth
  split <;> first | omega | (split <;> omega)

theorem monthIndex_range (day : Date) : 12 ≤ monthIndex day ∧ monthIndex day < 120000 := by
  have hyear_pos := day.year_pos
  have hyear_le := day.year_le
  have hmonth_pos := day.month_pos
  have hmonth_le := day.month_le
  unfold monthIndex
  omega

/-- The earlier of two days is not in the later month. -/
theorem monthIndex_le {a b : Date} (h : a.dayNumber ≤ b.dayNumber) :
    monthIndex a ≤ monthIndex b := by
  by_contra hindex
  have ha := a.month_le
  have hb := b.month_pos
  have hlt : b.dayNumber < a.dayNumber := by
    refine Date.dayNumber_lt ((Date.fields_lt_iff b a).mpr ?_)
    unfold monthIndex at hindex
    omega
  omega

theorem dayNumber_lt_of_monthIndex_lt {a b : Date} (h : monthIndex a < monthIndex b) :
    a.dayNumber < b.dayNumber := by
  by_contra hnot
  have hle := monthIndex_le (Nat.le_of_not_lt hnot)
  omega

/-- The year and the month that `_add_months` computes from an index are those
of the days of that index. -/
theorem year_month_of_index {day : Date} {index : Int} (h : monthIndex day = index) :
    day.year = (index / 12).toNat ∧ day.month = (index % 12).toNat + 1 := by
  have hmonth_pos := day.month_pos
  have hmonth_le := day.month_le
  unfold monthIndex at h
  omega

theorem addMonths_eq (day : Date) (months : Int) :
    addMonths day months = (daysInMonthOf ((monthIndex day + months) / 12).toNat
        (((monthIndex day + months) % 12).toNat + 1)).bind fun last =>
      dateOf ((monthIndex day + months) / 12).toNat (((monthIndex day + months) % 12).toNat + 1)
        (min day.day last) := rfl

/-- Shifting by months shifts the index and clamps the day. -/
theorem addMonths_ok_iff {day shifted : Date} {months : Int} :
    addMonths day months = .ok shifted ↔
      monthIndex shifted = monthIndex day + months ∧
        shifted.day = min day.day (daysInMonth shifted.year shifted.month) := by
  rw [addMonths_eq]
  constructor
  · intro h
    cases hlast : daysInMonthOf ((monthIndex day + months) / 12).toNat
        (((monthIndex day + months) % 12).toNat + 1) with
    | error e =>
      rw [hlast] at h
      cases h
    | ok last =>
      rw [hlast] at h
      obtain ⟨hyear, hmonth, hday⟩ := dateOf_ok_iff.mp h
      -- the month of the index has the length that the day was clamped to
      have hlength := daysInMonthOf_eq ⟨shifted.year_pos, shifted.year_le⟩
        ⟨shifted.month_pos, shifted.month_le⟩
      rw [hyear, hmonth, hlast] at hlength
      have hyear_pos := shifted.year_pos
      refine ⟨?_, ?_⟩
      · unfold monthIndex at *
        omega
      · rw [hday, hyear, hmonth, Except.ok.inj hlength]
  · rintro ⟨hindex, hday⟩
    obtain ⟨hyear, hmonth⟩ := year_month_of_index hindex
    have hlength := daysInMonthOf_eq ⟨shifted.year_pos, shifted.year_le⟩
      ⟨shifted.month_pos, shifted.month_le⟩
    rw [← hyear, ← hmonth, hlength]
    exact dateOf_ok_iff.mpr ⟨rfl, rfl, hday⟩

/-- A shift that stays in the years 1 to 9999 has a day. -/
theorem exists_addMonths {day : Date} {months : Int}
    (h : 12 ≤ monthIndex day + months ∧ monthIndex day + months < 120000) :
    ∃ shifted, addMonths day months = .ok shifted := by
  have hyear : 1 ≤ ((monthIndex day + months) / 12).toNat ∧
      ((monthIndex day + months) / 12).toNat ≤ 9999 := by omega
  have hmonth : 1 ≤ ((monthIndex day + months) % 12).toNat + 1 ∧
      ((monthIndex day + months) % 12).toNat + 1 ≤ 12 := by omega
  have hlength := Date.daysInMonth_pos ((monthIndex day + months) / 12).toNat hmonth.1
  have hday := day.day_pos
  have hclamped : 1 ≤ min day.day (daysInMonth ((monthIndex day + months) / 12).toNat
      (((monthIndex day + months) % 12).toNat + 1)) := by omega
  obtain ⟨shifted, hshifted⟩ := exists_dateOf hyear hmonth ⟨hclamped, Nat.min_le_right _ _⟩
  refine ⟨shifted, ?_⟩
  rw [addMonths_eq, daysInMonthOf_eq hyear hmonth]
  exact hshifted

/-- A larger shift of the same day is a later day, whatever the clamping does. -/
theorem addMonths_lt {day a b : Date} {m n : Int} (ha : addMonths day m = .ok a)
    (hb : addMonths day n = .ok b) (h : m < n) : a.dayNumber < b.dayNumber := by
  have hia := (addMonths_ok_iff.mp ha).1
  have hib := (addMonths_ok_iff.mp hb).1
  exact dayNumber_lt_of_monthIndex_lt (by omega)

/-- Nothing is shifted by no months. -/
theorem addMonths_zero (day : Date) : addMonths day 0 = .ok day :=
  addMonths_ok_iff.mpr ⟨by omega, (Nat.min_eq_left day.day_le).symm⟩

/-- A month later is at most 31 days later. -/
theorem addMonths_one_le {day next : Date} (h : addMonths day 1 = .ok next) :
    next.dayNumber ≤ day.dayNumber + 31 := by
  obtain ⟨hindex, hday⟩ := addMonths_ok_iff.mp h
  have hclamped : next.day ≤ day.day := hday ▸ Nat.min_le_left _ _
  have hmonth_le := day.month_le
  have hnext_pos := next.month_pos
  have hnext_le := next.month_le
  unfold monthIndex at hindex
  by_cases hlast : day.month = 12
  · -- January of the year after
    have hyear : next.year = day.year + 1 := by omega
    have hmonth : next.month = 1 := by omega
    have hdecember : daysBeforeMonth day.year 12 + 31 = 365 + (isLeap day.year).toNat :=
      daysBeforeMonth_thirteen day.year
    have hjanuary : daysBeforeMonth (day.year + 1) 1 = 0 := rfl
    rw [Date.dayNumber, Date.dayNumber, hyear, hmonth, hlast, hjanuary,
      daysBeforeYear_succ day.year_pos]
    omega
  · have hyear : next.year = day.year := by omega
    have hmonth : next.month = day.month + 1 := by omega
    have hlength := daysInMonth_le day.year day.month
    rw [Date.dayNumber, Date.dayNumber, hyear, hmonth, daysBeforeMonth]
    omega

/-! ### The breakdown -/

/-- A shift by whole months that does not pass a day, and that no larger shift
does not pass. -/
structure WholeMonths (earlier later : Date) (months : Int) (start : Date) : Prop where
  shift : addMonths earlier months = .ok start
  start_le : start.dayNumber ≤ later.dayNumber
  largest : ∀ n d, months < n → addMonths earlier n = .ok d → later.dayNumber < d.dayNumber

theorem monthIndex_sub (earlier later : Date) :
    ((later.year : Int) - earlier.year) * 12 + ((later.month : Int) - earlier.month) =
      monthIndex later - monthIndex earlier := by
  unfold monthIndex
  omega

/-- The months that are counted, once the shift by the difference of the
indices is known. -/
theorem calendarSpan_of {earlier later shifted start : Date} {months : Int}
    (hshifted : addMonths earlier (monthIndex later - monthIndex earlier) = .ok shifted)
    (hmonths : (if later.dayNumber < shifted.dayNumber
      then monthIndex later - monthIndex earlier - 1
      else monthIndex later - monthIndex earlier) = months)
    (hstart : addMonths earlier months = .ok start) :
    calendarSpan earlier later = .ok (if months ≤ 0 then none
      else some ⟨months / 12, months % 12, later.dayNumber - start.dayNumber⟩) := by
  simp only [calendarSpan, monthIndex_sub, hshifted, bind, Except.bind]
  rw [hmonths, hstart]
  split <;> rfl

/-- The code counts the months as the index does, less one where the day of the
month was not reached. -/
theorem exists_wholeMonths {earlier later : Date} (h : earlier.dayNumber ≤ later.dayNumber) :
    ∃ months start, WholeMonths earlier later months start ∧ 0 ≤ months ∧
      calendarSpan earlier later = .ok (if months ≤ 0 then none
        else some ⟨months / 12, months % 12, later.dayNumber - start.dayNumber⟩) := by
  have hindex := monthIndex_le h
  have hearlier := monthIndex_range earlier
  have hlater := monthIndex_range later
  obtain ⟨shifted, hshifted⟩ := exists_addMonths (by omega :
    12 ≤ monthIndex earlier + (monthIndex later - monthIndex earlier) ∧
      monthIndex earlier + (monthIndex later - monthIndex earlier) < 120000)
  -- a larger shift goes to a later month
  have hbeyond : ∀ n d, monthIndex later - monthIndex earlier < n → addMonths earlier n = .ok d →
      later.dayNumber < d.dayNumber := by
    intro n d hn hd
    have hd := (addMonths_ok_iff.mp hd).1
    exact dayNumber_lt_of_monthIndex_lt (by omega)
  by_cases hpassed : later.dayNumber < shifted.dayNumber
  · -- the day of the month was not reached; it is not the month of `earlier` then
    have hpos : monthIndex later - monthIndex earlier ≠ 0 := by
      intro hzero
      rw [hzero, addMonths_zero] at hshifted
      cases hshifted
      omega
    obtain ⟨start, hstart⟩ := exists_addMonths (by omega :
      12 ≤ monthIndex earlier + (monthIndex later - monthIndex earlier - 1) ∧
        monthIndex earlier + (monthIndex later - monthIndex earlier - 1) < 120000)
    refine ⟨_, start, ⟨hstart, ?_, fun n d hn hd => ?_⟩, by omega, ?_⟩
    · have hbefore := (addMonths_ok_iff.mp hstart).1
      exact Nat.le_of_lt (dayNumber_lt_of_monthIndex_lt (by omega))
    · rcases Int.lt_or_eq_of_le (show monthIndex later - monthIndex earlier ≤ n by omega) with
        hlt | rfl
      · exact hbeyond n d hlt hd
      · rw [hshifted] at hd
        cases hd
        exact hpassed
    · exact calendarSpan_of hshifted (if_pos hpassed) hstart
  · exact ⟨_, shifted, ⟨hshifted, Nat.le_of_not_lt hpassed, hbeyond⟩, by omega,
      calendarSpan_of hshifted (if_neg hpassed) hshifted⟩

theorem counted_ne_empty (n : Int) (unit : String) : counted n unit ≠ "" := by
  simp [counted]

/-- A span of some month has a text. -/
theorem Span.text_ne_empty {span : Span} (h : span.years ≠ 0 ∨ span.months ≠ 0) :
    span.text ≠ "" := by
  have hjoined : ∀ n unit rest, String.intercalate " " (counted n unit :: rest) ≠ "" := by
    intro n unit rest
    by_cases hrest : rest = []
    · rw [hrest, String.intercalate_singleton]
      exact counted_ne_empty n unit
    · rw [String.intercalate_cons_of_ne_nil hrest]
      simp
  unfold Span.text Span.parts
  by_cases hyears : span.years ≠ 0
  · rw [if_pos hyears]
    exact hjoined _ _ _
  · rw [if_neg hyears, if_pos (h.resolve_left hyears)]
    exact hjoined _ _ _

/-- What a breakdown says of the two dates. -/
structure Span.Exact (span : Span) (earlier later : Date) : Prop where
  years_nonneg : 0 ≤ span.years
  months_nonneg : 0 ≤ span.months
  months_lt : span.months < 12
  days_nonneg : 0 ≤ span.days
  decomposes : ∃ start, addMonths earlier (12 * span.years + span.months) = .ok start ∧
    (start.dayNumber : Int) + span.days = later.dayNumber
  largest : ∀ n d, 12 * span.years + span.months < n → addMonths earlier n = .ok d →
    later.dayNumber < d.dayNumber

theorem WholeMonths.exact {earlier later start : Date} {months : Int}
    (h : WholeMonths earlier later months start) (hpos : 0 < months) :
    Span.Exact ⟨months / 12, months % 12, later.dayNumber - start.dayNumber⟩ earlier later := by
  have hstart := h.start_le
  have hmonths : 12 * (months / 12) + months % 12 = months := Int.mul_ediv_add_emod _ _
  refine ⟨by simp only; omega, by simp only; omega, by simp only; omega, by simp only; omega,
    ⟨start, ?_, by simp only; omega⟩, fun n d hn hd => h.largest n d ?_ hd⟩
  · simp only [hmonths]
    exact h.shift
  · simpa only [hmonths] using hn

/-- Where some months were completed, the first of them was. -/
theorem WholeMonths.first_le {earlier later start : Date} {months : Int}
    (h : WholeMonths earlier later months start) (hpos : 0 < months) :
    ∃ next, addMonths earlier 1 = .ok next ∧ next.dayNumber ≤ later.dayNumber := by
  have hindex := (addMonths_ok_iff.mp h.shift).1
  have hearlier := monthIndex_range earlier
  have hstart := monthIndex_range start
  obtain ⟨next, hnext⟩ := exists_addMonths (by omega :
    12 ≤ monthIndex earlier + 1 ∧ monthIndex earlier + 1 < 120000)
  refine ⟨next, hnext, ?_⟩
  rcases Int.lt_or_eq_of_le (show 1 ≤ months by omega) with hlt | rfl
  · exact Nat.le_of_lt (Nat.lt_of_lt_of_le (addMonths_lt hnext h.shift hlt) h.start_le)
  · rw [Except.ok.inj (hnext.symm.trans h.shift)]
    exact h.start_le

theorem calendarBreakdown_of {earlier later : Date} {span : Option Span}
    (h : calendarSpan earlier later = .ok span) :
    calendarBreakdown earlier later = .ok ((span.map Span.text).getD "") := by
  rw [calendarBreakdown, h]
  rfl

/-- A long span is written out when its breakdown is not empty. -/
theorem humanizedDaySpan_of {earlier later : Date} {breakdown : String}
    (hlong : monthsBreakdownMinDays ≤ daysBetween earlier later)
    (hbreakdown : calendarBreakdown earlier later = .ok breakdown) (htext : breakdown ≠ "") :
    humanizedDaySpan earlier later =
      .ok (counted (daysBetween earlier later) "day" ++ " (" ++ breakdown ++ ")") := by
  have hweeks : ¬ daysBetween earlier later < weeksBreakdownMinDays := by
    unfold monthsBreakdownMinDays at hlong
    unfold weeksBreakdownMinDays
    omega
  simp only [humanizedDaySpan, if_neg hweeks, if_neg (Int.not_lt.mpr hlong), hbreakdown, bind,
    Except.bind, if_neg htext]
  rfl

/-- A span of 60 days holds a month. -/
theorem month_of_sixty {earlier later : Date}
    (h : monthsBreakdownMinDays ≤ daysBetween earlier later) :
    ∃ next, addMonths earlier 1 = .ok next ∧ next.dayNumber ≤ later.dayNumber := by
  unfold monthsBreakdownMinDays daysBetween at h
  have hearlier := monthIndex_range earlier
  have hlater := monthIndex_range later
  -- 60 days on, the month is a later one, so there is a month after that of `earlier`
  have hindex : monthIndex earlier < monthIndex later := by
    by_contra hnot
    have hsame : monthIndex later = monthIndex earlier := by
      have hle := monthIndex_le (show earlier.dayNumber ≤ later.dayNumber by omega)
      omega
    obtain ⟨hyear, hmonth⟩ := year_month_of_index hsame
    obtain ⟨hyear', hmonth'⟩ := year_month_of_index (rfl : monthIndex earlier = monthIndex earlier)
    have hday := later.day_le
    have hlength := daysInMonth_le later.year later.month
    simp only [Date.dayNumber, hyear, hmonth, hyear', hmonth'] at h hday hlength
    omega
  obtain ⟨next, hnext⟩ := exists_addMonths (by omega :
    12 ≤ monthIndex earlier + 1 ∧ monthIndex earlier + 1 < 120000)
  have hstep := addMonths_one_le hnext
  exact ⟨next, hnext, by omega⟩

/-- The breakdown of `_calendar_breakdown` is exact, it is empty exactly where
no month was completed, and a span of 60 days is always written out. -/
theorem calendar_breakdown_exact (earlier later : Date)
    (h : earlier.dayNumber ≤ later.dayNumber) :
    ∃ span : Option Span, calendarSpan earlier later = .ok span ∧
      calendarBreakdown earlier later = .ok ((span.map Span.text).getD "") ∧
      (∀ found ∈ span, found.Exact earlier later ∧ found.text ≠ "") ∧
      (calendarBreakdown earlier later = .ok "" ↔
        ∀ next, addMonths earlier 1 = .ok next → later.dayNumber < next.dayNumber) ∧
      (monthsBreakdownMinDays ≤ daysBetween earlier later → ∃ found ∈ span,
        humanizedDaySpan earlier later =
          .ok (counted (daysBetween earlier later) "day" ++ " (" ++ found.text ++ ")")) := by
  obtain ⟨months, start, hwhole, hnonneg, hspan⟩ := exists_wholeMonths h
  have hbreakdown := calendarBreakdown_of hspan
  by_cases hzero : months ≤ 0
  · -- no month was completed, so the first shift passes the later day
    have hpassed : ∀ next, addMonths earlier 1 = .ok next → later.dayNumber < next.dayNumber :=
      fun next hnext => hwhole.largest 1 next (by omega) hnext
    rw [if_pos hzero] at hspan hbreakdown
    refine ⟨none, hspan, hbreakdown, fun _ h => absurd h (Option.not_mem_none _),
      ⟨fun _ => hpassed, fun _ => hbreakdown⟩, fun hsixty => ?_⟩
    obtain ⟨next, hnext, hle⟩ := month_of_sixty hsixty
    exact absurd (hpassed next hnext) (Nat.not_lt_of_le hle)
  · have hexact := hwhole.exact (by omega)
    have htext : Span.text ⟨months / 12, months % 12, later.dayNumber - start.dayNumber⟩ ≠ "" :=
      Span.text_ne_empty (by simp only; omega)
    rw [if_neg hzero] at hspan hbreakdown
    refine ⟨some _, hspan, hbreakdown, ?_, ⟨fun hempty => ?_, fun hpassed => ?_⟩, fun hsixty => ?_⟩
    · rintro found ⟨⟩
      exact ⟨hexact, htext⟩
    · rw [hbreakdown] at hempty
      exact absurd (Except.ok.inj hempty) htext
    · obtain ⟨next, hnext, hle⟩ := hwhole.first_le (by omega)
      exact absurd (hpassed next hnext) (Nat.not_lt_of_le hle)
    · exact ⟨_, rfl, humanizedDaySpan_of hsixty hbreakdown htext⟩

/-- The 30th of May 2023. -/
def endOfMay : Date :=
  .ofFields 2023 5 30 (Eq.refl true)

/-- The third of January 2024. -/
def newYear : Date :=
  .ofFields 2024 1 3 (Eq.refl true)

/-- Seven months and four days. -/
theorem calendar_breakdown_to_newYear : endOfMay.dayNumber ≤ newYear.dayNumber ∧
    ∃ span, calendarSpan endOfMay newYear = .ok span ∧
      ∀ found ∈ span, found.Exact endOfMay newYear ∧ found.text ≠ "" := by
  obtain ⟨span, hspan, -, hexact, -⟩ := calendar_breakdown_exact endOfMay newYear (by decide)
  exact ⟨by decide, span, hspan, hexact⟩

end AliceBot
