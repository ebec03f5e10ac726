import Mathlib.Data.Nat.Basic
import Mathlib.Data.Int.Order.Basic
import Mathlib.Data.List.Lex
import Mathlib.Tactic.Ring

/-!
# The proleptic Gregorian calendar, to the microsecond

Dates of the years 1 to 9999, wall-clock times to the microsecond, and the
conversion of a moment with an offset to UTC. The carrier types keep their
ranges as fields, so a day that does not exist cannot be written down.

* `Date.dayNumber` — days since the epoch, the order of which is the
  lexicographic order of year, month and day (`Date.dayNumber_lt`);
* `Date.next`, `Date.prev` — the neighbouring days, where the range has them;
* `Moment.instant` — microseconds of UTC, and `Moment.toUtc`, which rewrites a
  moment into UTC without moving it (`Moment.instant_toUtc`).
-/

namespace PyLib

/-! ### Days -/

/-- A Gregorian leap year. -/
def isLeap (year : Nat) : Bool :=
  year % 4 = 0 ∧ (year % 100 ≠ 0 ∨ year % 400 = 0)

/-- The length of a month; there is no month 0. -/
def daysInMonth (year : Nat) : Nat → Nat
  | 0 => 0
  | 2 => if isLeap year then 29 else 28
  | 4 | 6 | 9 | 11 => 30
  | _ => 31

/-- The days of a year before the first of a month. -/
def daysBeforeMonth (year : Nat) : Nat → Nat
  | 0 => 0
  | month + 1 => daysBeforeMonth year month + daysInMonth year month

/-- The days before the first of January of a year. -/
def daysBeforeYear (year : Nat) : Nat :=
  (year - 1) * 365 + (year - 1) / 4 - (year - 1) / 100 + (year - 1) / 400

theorem daysBeforeMonth_mono (year : Nat) {m n : Nat} (h : m ≤ n) :
    daysBeforeMonth year m ≤ daysBeforeMonth year n := by
  induction h with
  | refl => exact Nat.le_refl _
  | step _ ih => exact Nat.le_trans ih (Nat.le_add_right _ _)

theorem daysBeforeMonth_thirteen (year : Nat) :
    daysBeforeMonth year 13 = 365 + (isLeap year).toNat := by
  cases h : isLeap year <;> simp [daysBeforeMonth, daysInMonth, h]

theorem daysBeforeYear_succ {year : Nat} (h : 1 ≤ year) :
    daysBeforeYear (year + 1) = daysBeforeYear year + 365 + (isLeap year).toNat := by
  obtain ⟨y, rfl⟩ : ∃ y, year = y + 1 := ⟨year - 1, by omega⟩
  have hle : y / 100 ≤ y / 4 := Nat.div_le_div_left (by omega) (by omega)
  have h100 : (y + 1) % 100 = 0 → (y + 1) % 4 = 0 := by omega
  have h400 : (y + 1) % 400 = 0 → (y + 1) % 100 = 0 := by omega
  simp only [daysBeforeYear, Nat.add_sub_cancel, isLeap, Nat.succ_div, Nat.dvd_iff_mod_eq_zero]
  -- each quotient steps exactly when the new year is divisible
  generalize y / 4 = a, y / 100 = b, y / 400 = c, (y + 1) % 4 = r4, (y + 1) % 100 = r100,
    (y + 1) % 400 = r400 at *
  by_cases c4 : r4 = 0
  · by_cases c100 : r100 = 0
    · by_cases c400 : r400 = 0 <;> simp [c4, c100, c400] <;> omega
    · simp [c4, c100, mt h400 c100]
      omega
  · simp [c4, mt h100 c4, mt h400 (mt h100 c4)]
    omega

theorem daysBeforeYear_mono {m n : Nat} (hm : 1 ≤ m) (h : m ≤ n) :
    daysBeforeYear m ≤ daysBeforeYear n := by
  induction n, h using Nat.le_induction with
  | base => exact Nat.le_refl _
  | succ n hn ih => rw [daysBeforeYear_succ (by omega)]; omega

/-- A date of the years 1 to 9999. -/
structure Date where
  year : Nat
  month : Nat
  day : Nat
  year_pos : 1 ≤ year
  year_le : year ≤ 9999
  month_pos : 1 ≤ month
  month_le : month ≤ 12
  day_pos : 1 ≤ day
  day_le : day ≤ daysInMonth year month
deriving DecidableEq

namespace Date

/-- The number of a day, counted from 1 for the first of January of year 1. -/
def dayNumber (d : Date) : Nat :=
  daysBeforeYear d.year + daysBeforeMonth d.year d.month + d.day

theorem daysInMonth_pos (year : Nat) {month : Nat} (h : 1 ≤ month) :
    1 ≤ daysInMonth year month := by
  unfold daysInMonth
  split <;> first | omega | (split <;> omega)

theorem le_next_month (d : Date) :
    daysBeforeMonth d.year d.month + d.day ≤ daysBeforeMonth d.year (d.month + 1) :=
  Nat.add_le_add_left d.day_le _

theorem le_next_year (d : Date) : d.dayNumber ≤ daysBeforeYear (d.year + 1) := by
  have hmonth := d.le_next_month
  have hyear := daysBeforeMonth_mono d.year (n := 13) (m := d.month + 1)
    (by have := d.month_le; omega)
  rw [daysBeforeMonth_thirteen] at hyear
  rw [dayNumber, daysBeforeYear_succ d.year_pos]
  omega

/-- Year, month and day. -/
def fields (d : Date) : List Nat := [d.year, d.month, d.day]

theorem fields_lt_iff (a b : Date) :
    a.fields < b.fields ↔ a.year < b.year ∨ a.year = b.year ∧
      (a.month < b.month ∨ a.month = b.month ∧ a.day < b.day) := by
  simp [fields, List.cons_lt_cons_iff]

/-- The days follow each other in the order of year, month and day. -/
theorem dayNumber_lt {a b : Date} (h : a.fields < b.fields) : a.dayNumber < b.dayNumber := by
  rcases (fields_lt_iff a b).mp h with hyear | ⟨hyear, hmonth | ⟨hmonth, hday⟩⟩
  · have h1 := a.le_next_year
    have h2 := daysBeforeYear_mono (m := a.year + 1) (n := b.year) (by omega) hyear
    have h3 : daysBeforeYear b.year + 1 ≤ b.dayNumber := by
      have := b.day_pos
      simp only [dayNumber]; omega
    omega
  · have h1 := a.le_next_month
    have h2 := daysBeforeMonth_mono a.year (m := a.month + 1) (n := b.month) hmonth
    have h3 := b.day_pos
    simp only [dayNumber, ← hyear]
    omega
  · simp only [dayNumber, ← hyear, ← hmonth]
    omega

theorem eq_of_fields_eq {a b : Date} (h : a.fields = b.fields) : a = b := by
  cases a; cases b
  simp only [fields, List.cons.injEq] at h
  obtain ⟨rfl, rfl, rfl, -⟩ := h
  rfl

/-- The order of the days is exactly the order of year, month and day. -/
theorem fields_lt_of_dayNumber_lt {a b : Date} (h : a.dayNumber < b.dayNumber) :
    a.fields < b.fields := by
  rcases lt_trichotomy a.fields b.fields with hlt | heq | hgt
  · exact hlt
  · rw [eq_of_fields_eq heq] at h; omega
  · have := dayNumber_lt hgt; omega

/-- A day is known by its number. -/
theorem eq_of_dayNumber_eq {a b : Date} (h : a.dayNumber = b.dayNumber) : a = b := by
  rcases lt_trichotomy a.fields b.fields with hlt | heq | hgt
  · have := dayNumber_lt hlt; omega
  · exact eq_of_fields_eq heq
  · have := dayNumber_lt hgt; omega

/-- The day after, unless it would leave year 9999. -/
def next (d : Date) : Option Date :=
  if hday : d.day + 1 ≤ daysInMonth d.year d.month then
    some { d with day := d.day + 1, day_pos := by omega, day_le := hday }
  else if hmonth : d.month + 1 ≤ 12 then
    some { d with
      month := d.month + 1, day := 1, month_pos := by omega, month_le := hmonth
      day_pos := Nat.le_refl 1, day_le := daysInMonth_pos _ (by omega) }
  else if hyear : d.year + 1 ≤ 9999 then
    some ⟨d.year + 1, 1, 1, by omega, hyear, by omega, by omega, by omega,
      daysInMonth_pos _ (by omega)⟩
  else none

/-- The day before, unless it would leave year 1. -/
def prev (d : Date) : Option Date :=
  if hday : 1 < d.day then
    some { d with
      day := d.day - 1, day_pos := by omega, day_le := by have := d.day_le; omega }
  else if hmonth : 1 < d.month then
    some { d with
      month := d.month - 1, day := daysInMonth d.year (d.month - 1)
      month_pos := by omega, month_le := by have := d.month_le; omega
      day_pos := daysInMonth_pos _ (by omega), day_le := Nat.le_refl _ }
  else if hyear : 1 < d.year then
    some ⟨d.year - 1, 12, 31, by omega, by have := d.year_le; omega, by omega, by omega,
      by omega, by simp [daysInMonth]⟩
  else none

theorem dayNumber_next {d d' : Date} (h : d.next = some d') : d'.dayNumber = d.dayNumber + 1 := by
  have hday_le := d.day_le
  have hmonth_le := d.month_le
  unfold next at h
  split_ifs at h with hday hmonth hyear
  · cases h; simp only [dayNumber]; omega
  · cases h; simp only [dayNumber, daysBeforeMonth]; omega
  · cases h
    have hmonth12 : d.month = 12 := by omega
    have hlast : daysBeforeMonth d.year 13 = daysBeforeMonth d.year d.month +
        daysInMonth d.year d.month := by rw [hmonth12]; rfl
    rw [daysBeforeMonth_thirteen] at hlast
    simp only [dayNumber, daysBeforeYear_succ d.year_pos, daysBeforeMonth, daysInMonth]
    omega

theorem dayNumber_prev {d d' : Date} (h : d.prev = some d') : d'.dayNumber + 1 = d.dayNumber := by
  have hday_pos := d.day_pos
  have hmonth_pos := d.month_pos
  unfold prev at h
  split_ifs at h with hday hmonth hyear
  · cases h; simp only [dayNumber]; omega
  · cases h
    obtain ⟨m, hm⟩ : ∃ m, d.month = m + 1 := ⟨d.month - 1, by omega⟩
    simp only [dayNumber, hm, Nat.add_sub_cancel, daysBeforeMonth]
    omega
  · cases h
    obtain ⟨y, hy⟩ : ∃ y, d.year = y + 1 := ⟨d.year - 1, by omega⟩
    have hmonth1 : d.month = 1 := by omega
    have hlast : daysBeforeMonth y 12 + 31 = 365 + (isLeap y).toNat := daysBeforeMonth_thirteen y
    have hfirst : daysBeforeMonth (y + 1) 1 = 0 := rfl
    have hyear' := daysBeforeYear_succ (show 1 ≤ y by omega)
    simp only [dayNumber, hy, hmonth1, Nat.add_sub_cancel, hfirst, hyear']
    omega

theorem dayNumber_pos (d : Date) : 1 ≤ d.dayNumber :=
  Nat.le_trans d.day_pos (Nat.le_add_left _ _)

/-- The last day of the calendar. -/
theorem dayNumber_le (d : Date) : d.dayNumber ≤ 3652059 := by
  have hyear := daysBeforeYear_mono (m := d.year + 1) (n := 10000) (by omega)
    (by have := d.year_le; omega)
  have hlast : daysBeforeYear 10000 = 3652059 := by decide
  have hday := d.le_next_year
  omega

/-- There is a day after every day but the last. -/
theorem next_eq_none_iff (d : Date) : d.next = none ↔ d.dayNumber = 3652059 := by
  have hday_le := d.day_le
  have hmonth_le := d.month_le
  have hyear_le := d.year_le
  constructor
  · -- no month and no year follows, so it is the last of December 9999
    intro h
    unfold next at h
    split_ifs at h with hday hmonth hyear
    have hmonth12 : d.month = 12 := by omega
    have hyear9999 : d.year = 9999 := by omega
    have hday31 : d.day = 31 := by
      rw [hmonth12, hyear9999] at hday hday_le
      have hlast : daysInMonth 9999 12 = 31 := rfl
      omega
    rw [dayNumber, hmonth12, hyear9999, hday31]
    decide
  · -- a day after it would have a greater number than any day has
    intro h
    cases hnext : d.next with
    | none => rfl
    | some d' =>
      have hstep := dayNumber_next hnext
      have hle := d'.dayNumber_le
      omega

/-- There is a day before every day but the first. -/
theorem prev_eq_none_iff (d : Date) : d.prev = none ↔ d.dayNumber = 1 := by
  have hday_pos := d.day_pos
  have hmonth_pos := d.month_pos
  have hyear_pos := d.year_pos
  constructor
  · intro h
    unfold prev at h
    -- no month and no year comes before
    split_ifs at h with hday hmonth hyear
    have hmonth1 : d.month = 1 := by omega
    have hyear1 : d.year = 1 := by omega
    have hday1 : d.day = 1 := by omega
    rw [dayNumber, hmonth1, hyear1, hday1]
    decide
  · intro h
    cases hprev : d.prev with
    | none => rfl
    | some d' =>
      have hstep := dayNumber_prev hprev
      have hpos := d'.dayNumber_pos
      omega

/-- The date of a year, a month and a day, where there is one. -/
def ofFields? (year month day : Nat) : Option Date :=
  if h : (1 ≤ year ∧ year ≤ 9999) ∧ (1 ≤ month ∧ month ≤ 12) ∧
      1 ≤ day ∧ day ≤ daysInMonth year month then
    some ⟨year, month, day, h.1.1, h.1.2, h.2.1.1, h.2.1.2, h.2.2.1, h.2.2.2⟩
  else none

/-- The date of fields that are known to be in range. -/
def ofFields (year month day : Nat)
    (h : decide ((1 ≤ year ∧ year ≤ 9999) ∧ (1 ≤ month ∧ month ≤ 12) ∧
      1 ≤ day ∧ day ≤ daysInMonth year month) = true) : Date :=
  have h := of_decide_eq_true h
  ⟨year, month, day, h.1.1, h.1.2, h.2.1.1, h.2.1.2, h.2.2.1, h.2.2.2⟩

end Date

/-! ### Times of day -/

/-- A wall-clock time to the microsecond. A second has 1000000 of them and a
day 86400000000. -/
structure Clock where
  hour : Nat
  minute : Nat
  second : Nat
  micro : Nat
  hour_lt : hour < 24
  minute_lt : minute < 60
  second_lt : second < 60
  micro_lt : micro < 1000000
deriving DecidableEq

namespace Clock

/-- The time of fields that are known to be in range. -/
def ofFields (hour minute second micro : Nat)
    (h : decide (hour < 24 ∧ minute < 60 ∧ second < 60 ∧ micro < 1000000) = true) : Clock :=
  have h := of_decide_eq_true h
  ⟨hour, minute, second, micro, h.1, h.2.1, h.2.2.1, h.2.2.2⟩

/-- The first moment of a minute. -/
def atMinute (hour minute : Nat) (hour_lt : hour < 24) (minute_lt : minute < 60) : Clock :=
  ⟨hour, minute, 0, 0, hour_lt, minute_lt, by decide, by decide⟩

/-- Seconds since midnight. -/
def seconds (c : Clock) : Nat := c.hour * 3600 + c.minute * 60 + c.second

/-- Microseconds since midnight. -/
def micros (c : Clock) : Nat := c.seconds * 1000000 + c.micro

/-- The time of day a number of microseconds after midnight. -/
def ofMicros (n : Nat) (h : n < 86400000000) : Clock :=
  let s := n / 1000000
  { hour := s / 3600
    minute := s / 60 % 60
    second := s % 60
    micro := n % 1000000
    hour_lt := by omega
    minute_lt := by omega
    second_lt := by omega
    micro_lt := Nat.mod_lt _ (by omega) }

theorem seconds_lt (c : Clock) : c.seconds < 86400 := by
  have h1 := c.hour_lt
  have h2 := c.minute_lt
  have h3 := c.second_lt
  simp only [seconds]; omega

@[simp] theorem micros_ofMicros {n : Nat} (h : n < 86400000000) : (ofMicros n h).micros = n := by
  have hclock : ∀ s : Nat, s / 3600 * 3600 + s / 60 % 60 * 60 + s % 60 = s := fun s => by omega
  simp only [micros, seconds, ofMicros, hclock]
  exact Nat.div_add_mod' n 1000000

theorem micros_lt (c : Clock) : c.micros < 86400000000 := by
  have h1 := c.seconds_lt
  have h2 := c.micro_lt
  simp only [micros]; omega

/-- Hour, minute and second. -/
def fields (c : Clock) : List Nat := [c.hour, c.minute, c.second]

theorem fields_lt_of_seconds_lt {a b : Clock} (h : a.seconds < b.seconds) :
    a.fields < b.fields := by
  have h1 := a.minute_lt; have h2 := a.second_lt
  have h3 := b.minute_lt; have h4 := b.second_lt
  simp only [seconds] at h
  simp only [fields, List.cons_lt_cons_iff]
  omega

theorem fields_eq_of_seconds_eq {a b : Clock} (h : a.seconds = b.seconds) :
    a.fields = b.fields := by
  have h1 := a.minute_lt; have h2 := a.second_lt
  have h3 := b.minute_lt; have h4 := b.second_lt
  simp only [seconds] at h
  simp only [fields, List.cons.injEq, and_true]
  omega

end Clock

/-! ### Moments -/

/-- A date and time of day in UTC. -/
structure UtcMoment where
  date : Date
  clock : Clock
deriving DecidableEq

/-- Whole seconds of UTC. -/
def UtcMoment.seconds (u : UtcMoment) : Int := u.date.dayNumber * 86400 + u.clock.seconds

/-- Date and time of day down to the second. -/
def UtcMoment.fields (u : UtcMoment) : List Nat := u.date.fields ++ u.clock.fields

/-- Microseconds of UTC. -/
def UtcMoment.instant (u : UtcMoment) : Int := u.date.dayNumber * 86400000000 + u.clock.micros

theorem UtcMoment.instant_eq (u : UtcMoment) :
    u.instant = u.seconds * 1000000 + u.clock.micro := by
  simp only [instant, seconds, Clock.micros]
  push_cast
  ring

/-- Whole seconds follow each other in the order of their fields. -/
theorem UtcMoment.fields_lt_of_seconds_lt {u v : UtcMoment} (h : u.seconds < v.seconds) :
    u.fields < v.fields := by
  have hu := u.clock.seconds_lt
  have hv := v.clock.seconds_lt
  simp only [seconds] at h
  rcases Nat.lt_trichotomy u.date.dayNumber v.date.dayNumber with hlt | heq | hgt
  · have hdate := (Date.fields_lt_iff _ _).mp (Date.fields_lt_of_dayNumber_lt hlt)
    simp only [fields, Date.fields, List.cons_append, List.nil_append, List.cons_lt_cons_iff]
    omega
  · have hdate := Date.eq_of_dayNumber_eq heq
    rw [fields, fields, hdate]
    exact List.append_left_lt (Clock.fields_lt_of_seconds_lt (by omega))
  · omega

/-- The fields to the second are known by the whole seconds. -/
theorem UtcMoment.fields_eq_of_seconds_eq {u v : UtcMoment} (h : u.seconds = v.seconds) :
    u.fields = v.fields := by
  have hu := u.clock.seconds_lt
  have hv := v.clock.seconds_lt
  simp only [seconds] at h
  have hdate : u.date = v.date := Date.eq_of_dayNumber_eq (by omega)
  have hclock : u.clock.seconds = v.clock.seconds := by omega
  rw [fields, fields, hdate, Clock.fields_eq_of_seconds_eq hclock]

/-- An instant has one date and time of day. -/
theorem UtcMoment.eq_of_instant_eq {u v : UtcMoment} (h : u.instant = v.instant) : u = v := by
  have hu := u.clock.micro_lt
  have hv := v.clock.micro_lt
  rw [instant_eq, instant_eq] at h
  have hmicro : u.clock.micro = v.clock.micro := by omega
  have hseconds : u.seconds = v.seconds := by omega
  have hfields := fields_eq_of_seconds_eq hseconds
  simp only [fields, Date.fields, Clock.fields, List.cons_append, List.nil_append,
    List.cons.injEq, and_true] at hfields
  obtain ⟨hyear, hmonth, hday, hhour, hminute, hsecond⟩ := hfields
  obtain ⟨⟨year, month, day, _, _, _, _, _, _⟩, ⟨hour, minute, second, micro, _, _, _, _⟩⟩ := u
  obtain ⟨⟨year', month', day', _, _, _, _, _, _⟩,
    ⟨hour', minute', second', micro', _, _, _, _⟩⟩ := v
  simp only at hyear hmonth hday hhour hminute hsecond hmicro
  subst hyear hmonth hday hhour hminute hsecond hmicro
  rfl

/-- A date and time of day at an offset from UTC, shorter than a day either
way. -/
structure Moment where
  date : Date
  clock : Clock
  offset : Int
  offset_gt : -86400000000 < offset
  offset_lt : offset < 86400000000

namespace Moment

/-- Microseconds of UTC. -/
def instant (m : Moment) : Int := m.date.dayNumber * 86400000000 + m.clock.micros - m.offset

/-- The same instant in UTC, when it still falls in the years 1 to 9999. -/
def toUtc (m : Moment) : Option UtcMoment :=
  if hneg : (m.clock.micros : Int) - m.offset < 0 then
    m.date.prev.map fun date => ⟨date, .ofMicros (m.clock.micros - m.offset + 86400000000).toNat (by
      have := m.offset_lt
      omega)⟩
  else if hday : (m.clock.micros : Int) - m.offset < 86400000000 then
    some ⟨m.date, .ofMicros (m.clock.micros - m.offset).toNat (by omega)⟩
  else
    m.date.next.map fun date => ⟨date, .ofMicros (m.clock.micros - m.offset - 86400000000).toNat (by
      have h1 := m.clock.micros_lt
      have h2 := m.offset_gt
      omega)⟩

/-- Rewriting a moment into UTC does not move it. -/
theorem instant_toUtc {m : Moment} {u : UtcMoment} (h : m.toUtc = some u) :
    u.instant = m.instant := by
  unfold toUtc at h
  have hoffset := m.offset_lt
  split_ifs at h with hneg hday
  · obtain ⟨date, hdate, rfl⟩ := Option.map_eq_some_iff.mp h
    have hnumber := Date.dayNumber_prev hdate
    simp only [UtcMoment.instant, instant, Clock.micros_ofMicros, ← hnumber]
    omega
  · cases h
    simp only [UtcMoment.instant, instant, Clock.micros_ofMicros]
    omega
  · obtain ⟨date, hdate, rfl⟩ := Option.map_eq_some_iff.mp h
    have hnumber := Date.dayNumber_next hdate
    simp only [UtcMoment.instant, instant, Clock.micros_ofMicros, hnumber]
    omega

/-- A moment can be rewritten into UTC if its instant falls in the years 1 to 9999. -/
theorem toUtc_isSome_iff (m : Moment) :
    m.toUtc.isSome = true ↔ 86400000000 ≤ m.instant ∧ m.instant < 3652060 * 86400000000 := by
  have hoffset_gt := m.offset_gt
  have hoffset_lt := m.offset_lt
  have hmicros := m.clock.micros_lt
  have hpos := m.date.dayNumber_pos
  have hle := m.date.dayNumber_le
  unfold toUtc instant
  split_ifs with hneg hday
  · -- the instant falls on the day before
    rw [Option.isSome_map, Option.isSome_iff_ne_none, ne_eq, Date.prev_eq_none_iff]
    omega
  · simp only [Option.isSome_some, true_iff]
    omega
  · -- the instant falls on the day after
    rw [Option.isSome_map, Option.isSome_iff_ne_none, ne_eq, Date.next_eq_none_iff]
    omega

end Moment

/-! ### Julian days -/

/-- `julianday()` of SQLite, asked of an instant in microseconds: a number of milliseconds. Its
releases do not all round alike, but each keeps the order of instants. -/
structure JulianDay where
  read : Int → Int
  mono : ∀ {a b : Int}, a ≤ b → read a ≤ read b

/-- The releases that round to the nearest millisecond. -/
def JulianDay.rounding : JulianDay where
  read instant := (instant + 500) / 1000
  mono h := Int.ediv_le_ediv (by decide) (Int.add_le_add_right h 500)

end PyLib
