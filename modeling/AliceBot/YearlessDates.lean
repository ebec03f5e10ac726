import AliceBot.TemporalAnchors

/-!
# Dates without a year

`_resolve_yearless_date` goes back from the year of the reference, one year after the other, and
takes the first in which the day exists, is supported and has begun. The number of years it may
go back is larger than the supported range is long, so it stops at the floor of the range and
nowhere before: `resolveYearlessDate_greatest`.
-/

namespace AliceBot

open PyLib

/-- A day of a month that is supported and has begun at the reference. -/
structure Occurrence (month day : Nat) (reference : UtcMoment) (date : Date) : Prop where
  month_eq : date.month = month
  day_eq : date.day = day
  window : ∃ window, supportedDayWindow date = .ok (some window) ∧
    midnight window.first ≤ reference.instant

/-! ### Supported days -/

theorem ofFields?_fields (date : Date) :
    Date.ofFields? date.year date.month date.day = some date := by
  have hfields : (1 ≤ date.year ∧ date.year ≤ 9999) ∧ (1 ≤ date.month ∧ date.month ≤ 12) ∧
      1 ≤ date.day ∧ date.day ≤ daysInMonth date.year date.month :=
    ⟨⟨date.year_pos, date.year_le⟩, ⟨date.month_pos, date.month_le⟩, date.day_pos, date.day_le⟩
  rw [Date.ofFields?, dif_pos hfields]

/-- The window of a day begins with the day. -/
theorem first_of_dayWindow {date : Date} {window : Window} (h : dayWindow date = .ok window) :
    window.first = date := by
  unfold dayWindow windowOfDays at h
  split at h
  · cases h
    rfl
  · cases h

theorem dayWindow_of_lt {date : Date} (h : date.dayNumber < 3652059) :
    ∃ window, dayWindow date = .ok window := by
  unfold dayWindow windowOfDays
  split
  · exact ⟨_, rfl⟩
  · next hnone =>
    -- only the last day of the calendar has no day after it
    have hnext : date.next = none := by
      cases hnext : date.next with
      | none => rfl
      | some later =>
        rw [daysOn, hnext] at hnone
        cases hnone
    have hlast := (Date.next_eq_none_iff date).mp hnext
    omega

/-- The days that are supported are those of the range. -/
theorem supported_iff {date : Date} {reference : UtcMoment} :
    (∃ window, supportedDayWindow date = .ok (some window) ∧
        midnight window.first ≤ reference.instant) ↔
      (windowFloor.dayNumber ≤ date.dayNumber ∧ date.dayNumber < windowCeiling.dayNumber) ∧
        midnight date ≤ reference.instant := by
  constructor
  · rintro ⟨window, hwindow, hbegun⟩
    unfold supportedDayWindow at hwindow
    split at hwindow
    · cases hwindow
    · next hrange =>
      cases hday : dayWindow date with
      | error e =>
        rw [hday] at hwindow
        cases hwindow
      | ok found =>
        rw [hday] at hwindow
        cases hwindow
        rw [first_of_dayWindow hday] at hbegun
        exact ⟨by omega, hbegun⟩
  · rintro ⟨⟨hfloor, hceiling⟩, hbegun⟩
    -- the range ends on the calendar, so its days have windows
    have hend : windowCeiling.dayNumber ≤ 3652059 := Date.dayNumber_le _
    obtain ⟨window, hday⟩ : ∃ window, dayWindow date = .ok window := dayWindow_of_lt (by omega)
    refine ⟨window, ?_, by rwa [first_of_dayWindow hday]⟩
    rw [supportedDayWindow, if_neg (by omega), hday]
    rfl

/-- What a year of the scan gives. -/
theorem occursBefore_eq_some {month day year : Nat} {reference : UtcMoment} {date : Date} :
    occursBefore month day reference year = some date ↔
      date.year = year ∧ Occurrence month day reference date := by
  constructor
  · intro h
    obtain ⟨candidate, hfields, h⟩ := Option.bind_eq_some_iff.mp h
    obtain ⟨hyear, hmonth, hday⟩ := ofFields?_spec hfields
    split at h
    · cases h
    · next hrange =>
      split at h
      · next hbegun =>
        cases h
        exact ⟨hyear, hmonth, hday, supported_iff.mpr ⟨by omega, hbegun⟩⟩
      · cases h
  · rintro ⟨rfl, rfl, rfl, hwindow⟩
    obtain ⟨hrange, hbegun⟩ := supported_iff.mp hwindow
    refine Option.bind_eq_some_iff.mpr ⟨date, ofFields?_fields date, ?_⟩
    rw [if_neg (by omega), if_pos hbegun]

/-! ### The scan -/

/-- Going back from a number, what is found first. -/
theorem findSome?_back {α : Type} {f : Nat → Option α} {start : Nat} {a : α} (n : Nat) :
    ((List.range n).map (start - ·)).findSome? f = some a ↔
      ∃ i < n, f (start - i) = some a ∧ ∀ j < i, f (start - j) = none := by
  induction n with
  | zero =>
    refine ⟨fun h => ?_, fun ⟨i, hi, _⟩ => absurd hi (Nat.not_lt_zero i)⟩
    cases h
  | succ n ih =>
    -- the last number is tried when all before it have failed
    rw [List.range_succ, List.map_append, List.findSome?_append, Option.or_eq_some_iff, ih,
      List.findSome?_eq_none_iff]
    constructor
    · rintro (⟨i, hi, hfound, hbefore⟩ | ⟨hnone, hlast⟩)
      · exact ⟨i, by omega, hfound, hbefore⟩
      · refine ⟨n, Nat.lt_succ_self n, ?_, fun j hj => ?_⟩
        · simpa only [List.map_cons, List.map_nil, List.findSome?_singleton] using hlast
        · exact hnone _ (List.mem_map.mpr ⟨j, List.mem_range.mpr hj, rfl⟩)
    · rintro ⟨i, hi, hfound, hbefore⟩
      rcases Nat.lt_succ_iff_lt_or_eq.mp hi with hlt | rfl
      · exact .inl ⟨i, hlt, hfound, hbefore⟩
      · refine .inr ⟨fun year hyear => ?_, ?_⟩
        · obtain ⟨j, hj, rfl⟩ := List.mem_map.mp hyear
          exact hbefore j (List.mem_range.mp hj)
        · simpa only [List.map_cons, List.map_nil, List.findSome?_singleton] using hfound

/-- Dates that are not after another are not in a later year. -/
theorem year_le_of_dayNumber_le {a b : Date} (h : a.dayNumber ≤ b.dayNumber) : a.year ≤ b.year := by
  by_contra hlater
  have hfields := (Date.fields_lt_iff b a).mpr (.inl (by omega))
  have hdays := Date.dayNumber_lt hfields
  omega

section Scan

variable {month day : Nat} {reference : UtcMoment} {date other : Date}

/-- The years that a day can be found in: those of the supported range, up to the reference. -/
theorem Occurrence.year_mem (h : Occurrence month day reference date) :
    1900 ≤ date.year ∧ date.year ≤ 2199 ∧ date.year ≤ reference.date.year := by
  obtain ⟨⟨hfloor, hceiling⟩, hbegun⟩ := supported_iff.mp h.window
  have hclock := reference.clock.micros_lt
  refine ⟨year_le_of_dayNumber_le hfloor, ?_, year_le_of_dayNumber_le ?_⟩
  · -- no day of a later year is before the first of January of 2200
    by_contra hlate
    have hfirst : windowCeiling.dayNumber = daysBeforeYear 2200 + 1 := rfl
    have hmono : daysBeforeYear 2200 ≤ daysBeforeYear date.year :=
      daysBeforeYear_mono (by decide) (by omega)
    have hday := date.day_pos
    unfold Date.dayNumber at hceiling hfirst
    omega
  · unfold midnight UtcMoment.instant at hbegun
    omega

/-- Of two days of one month and number, the one of the later year is later. -/
theorem Occurrence.dayNumber_le_iff (h : Occurrence month day reference date)
    (hother : Occurrence month day reference other) :
    other.dayNumber ≤ date.dayNumber ↔ other.year ≤ date.year := by
  refine ⟨year_le_of_dayNumber_le, fun hyear => ?_⟩
  rcases Nat.lt_or_eq_of_le hyear with hlt | heq
  · exact (Date.dayNumber_lt ((Date.fields_lt_iff _ _).mpr (.inl hlt))).le
  · have hfields : other.fields = date.fields := by
      rw [Date.fields, Date.fields, heq, h.month_eq, hother.month_eq, h.day_eq, hother.day_eq]
    rw [Date.eq_of_fields_eq hfields]

theorem occursBefore_eq_none {year : Nat} :
    occursBefore month day reference year = none ↔
      ∀ date, Occurrence month day reference date → date.year ≠ year := by
  rw [Option.eq_none_iff_forall_ne_some]
  constructor
  · intro h date hdate hyear
    exact h date (occursBefore_eq_some.mpr ⟨hyear, hdate⟩)
  · intro h date hsome
    obtain ⟨hyear, hdate⟩ := occursBefore_eq_some.mp hsome
    exact h date hdate hyear

/-- The scan goes back to the floor of the supported range. -/
theorem resolveYearlessDate_eq_scan (month day : Nat) (reference : UtcMoment) :
    resolveYearlessDate month day reference =
      ((List.range (min reference.date.year 2199 - 1899)).map
        (min reference.date.year 2199 - ·)).findSome? (occursBefore month day reference) := by
  have hceiling : windowCeiling.year - 1 = 2199 := rfl
  have hfloor : windowFloor.year - 1 = 1899 := rfl
  -- four hundred years before 2199 are before the floor
  have hstop : max 1899 (min reference.date.year 2199 - 401) = 1899 := by omega
  unfold resolveYearlessDate
  rw [hceiling, hfloor]
  dsimp only
  rw [hstop]

end Scan

/-- **Yearless dates.** The date that a month and a day resolve to is the greatest one that is
supported and has begun at the reference, and there is none only where there is no such date. -/
theorem resolveYearlessDate_greatest (month day : Nat) (reference : UtcMoment) :
    (∀ date, resolveYearlessDate month day reference = some date ↔
      Occurrence month day reference date ∧
        ∀ other, Occurrence month day reference other → other.dayNumber ≤ date.dayNumber) ∧
      (resolveYearlessDate month day reference = none ↔
        ∀ date, ¬ Occurrence month day reference date) := by
  rw [resolveYearlessDate_eq_scan]
  generalize hstart : min reference.date.year 2199 = start
  refine ⟨fun date => ?_, ?_⟩
  · rw [findSome?_back]
    constructor
    · rintro ⟨i, hi, hfound, hbefore⟩
      obtain ⟨hyear, hdate⟩ := occursBefore_eq_some.mp hfound
      refine ⟨hdate, fun other hother => (hdate.dayNumber_le_iff hother).mpr ?_⟩
      -- a later year would have been found before
      by_contra hlater
      obtain ⟨_, hceiling, hreference⟩ := hother.year_mem
      have hnone := hbefore (start - other.year) (by omega)
      have hback : start - (start - other.year) = other.year := by omega
      rw [hback] at hnone
      exact occursBefore_eq_none.mp hnone other hother rfl
    · rintro ⟨hdate, hgreatest⟩
      obtain ⟨hfloor, hceiling, hreference⟩ := hdate.year_mem
      refine ⟨start - date.year, by omega, ?_, fun j hj => ?_⟩
      · exact occursBefore_eq_some.mpr ⟨by omega, hdate⟩
      · refine occursBefore_eq_none.mpr fun other hother hyear => ?_
        have hle := (hdate.dayNumber_le_iff hother).mp (hgreatest other hother)
        omega
  · rw [List.findSome?_eq_none_iff]
    constructor
    · intro h date hdate
      obtain ⟨hfloor, hceiling, hreference⟩ := hdate.year_mem
      have hmem : date.year ∈ (List.range (start - 1899)).map (start - ·) :=
        List.mem_map.mpr ⟨start - date.year, List.mem_range.mpr (by omega), by omega⟩
      exact occursBefore_eq_none.mp (h _ hmem) date hdate rfl
    · intro h year _
      exact occursBefore_eq_none.mpr fun date hdate _ => h date hdate

end AliceBot
