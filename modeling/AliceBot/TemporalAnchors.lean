import AliceBot.Library.Calendar
import AliceBot.Library.Regex
import AliceBot.Library.Text
import Mathlib.Data.List.Sort
import Mathlib.Order.Interval.Set.Disjoint

/-!
# Windows of dated queries

`parse_temporal_anchor` reads one window of time out of a query. It looks for explicit calendar
references first, tries a closed range, an open range and a single reference over them, and
falls back to a phrase that is relative to the reference time.
-/

namespace AliceBot

open PyLib

/-! ### Calendar windows -/

/-- What a call may raise. -/
inductive AnchorError where
  | value
  | overflow
  | key
deriving DecidableEq

/-- The instant at which a day begins. -/
def midnight (day : Date) : Int := day.dayNumber * 86400000000

/-- A window from one midnight to a later one. -/
structure Window where
  first : Date
  last : Date
  lt : first.dayNumber < last.dayNumber
deriving DecidableEq

/-- `WINDOW_FLOOR`. -/
def windowFloor : Date :=
  .ofFields 1900 1 1 (Eq.refl true)

/-- `WINDOW_CEILING`. -/
def windowCeiling : Date :=
  .ofFields 2200 1 1 (Eq.refl true)

/-- `date(year, month, day)`. -/
def makeDate (year : Int) (month day : Nat) : Except AnchorError Date :=
  match Date.ofFields? year.toNat month day with
  | some date => .ok date
  | none => .error .value

/-- `day - timedelta(days=n)`. -/
def daysBack : Nat → Date → Except AnchorError Date
  | 0, day => .ok day
  | n + 1, day =>
    match day.prev with
    | some before => daysBack n before
    | none => .error .overflow

/-- A later day, if there is one. -/
def daysOn : Nat → Date → Option Date
  | 0, day => some day
  | n + 1, day => day.next.bind (daysOn n)

theorem dayNumber_daysOn {n : Nat} : ∀ {day later : Date}, daysOn n day = some later →
    later.dayNumber = day.dayNumber + n := by
  induction n with
  | zero =>
    intro day later h
    cases h
    rfl
  | succ n ih =>
    intro day later h
    obtain ⟨next, hnext, hlater⟩ := Option.bind_eq_some_iff.mp h
    have hstep := Date.dayNumber_next hnext
    have hrest := ih hlater
    omega

/-- The days from one day on. -/
def windowOfDays (n : Nat) (day : Date) : Except AnchorError Window :=
  match h : daysOn (n + 1) day with
  | some last => .ok ⟨day, last, by have hlast := dayNumber_daysOn h; omega⟩
  | none => .error .overflow

/-- `_day_window`. -/
def dayWindow (day : Date) : Except AnchorError Window := windowOfDays 0 day

/-- `day.weekday()`. -/
def weekdayOf (day : Date) : Nat := (day.dayNumber + 6) % 7

/-- `_week_window`. -/
def weekWindow (day : Date) : Except AnchorError Window := do
  let monday ← daysBack (weekdayOf day) day
  windowOfDays 6 monday

/-- The first of the month after a first. -/
def nextMonth (first : Date) : Option Date :=
  if first.month = 12 then Date.ofFields? (first.year + 1) 1 1
  else Date.ofFields? first.year (first.month + 1) 1

/-- The first of January after a date. -/
def nextYear (first : Date) : Option Date := Date.ofFields? (first.year + 1) 1 1

theorem ofFields?_spec {year month day : Nat} {date : Date}
    (h : Date.ofFields? year month day = some date) :
    date.year = year ∧ date.month = month ∧ date.day = day := by
  unfold Date.ofFields? at h
  split at h
  · cases h
    exact ⟨rfl, rfl, rfl⟩
  · cases h

theorem dayNumber_lt_nextYear {first last : Date} (h : nextYear first = some last) :
    first.dayNumber < last.dayNumber := by
  obtain ⟨hyear, _, _⟩ := ofFields?_spec h
  exact Date.dayNumber_lt ((Date.fields_lt_iff _ _).mpr (.inl (by omega)))

theorem dayNumber_lt_nextMonth {first last : Date} (h : nextMonth first = some last) :
    first.dayNumber < last.dayNumber := by
  unfold nextMonth at h
  split at h
  · exact dayNumber_lt_nextYear h
  · obtain ⟨hyear, hmonth, _⟩ := ofFields?_spec h
    refine Date.dayNumber_lt ((Date.fields_lt_iff _ _).mpr (.inr ⟨hyear.symm, .inl ?_⟩))
    omega

/-- `_month_window`. -/
def monthWindow (year : Int) (month : Nat) : Except AnchorError Window := do
  let first ← makeDate year month 1
  match h : nextMonth first with
  | some last => .ok ⟨first, last, dayNumber_lt_nextMonth h⟩
  | none => .error .value

/-- `_year_window`. -/
def yearWindow (year : Int) : Except AnchorError Window := do
  let first ← makeDate year 1 1
  match h : nextYear first with
  | some last => .ok ⟨first, last, dayNumber_lt_nextYear h⟩
  | none => .error .value

/-- `_months_back`. -/
def monthsBack (reference : Date) (months : Nat) : Int × Nat :=
  let index : Int := reference.year * 12 + (reference.month - 1) - months
  (index / 12, (index % 12).toNat + 1)

/-- `_resolve_month_year`. -/
def resolveMonthYear (month : Nat) (reference : Date) : Int :=
  if month ≤ reference.month then reference.year else reference.year - 1

/-- `_supported_day_window`. -/
def supportedDayWindow (day : Date) : Except AnchorError (Option Window) :=
  if day.dayNumber < windowFloor.dayNumber ∨ windowCeiling.dayNumber ≤ day.dayNumber then .ok none
  else (dayWindow day).map some

/-- Whether a year has the day, and it is supported and not after the reference. -/
def occursBefore (month day : Nat) (reference : UtcMoment) (year : Nat) : Option Date := do
  let candidate ← Date.ofFields? year month day
  if candidate.dayNumber < windowFloor.dayNumber ∨
      windowCeiling.dayNumber ≤ candidate.dayNumber then none
  else if midnight candidate ≤ reference.instant then some candidate else none

/-- `_resolve_yearless_date`. -/
def resolveYearlessDate (month day : Nat) (reference : UtcMoment) : Option Date :=
  let startYear := min reference.date.year (windowCeiling.year - 1)
  let stopYear := max (windowFloor.year - 1) (startYear - 401)
  ((List.range (startYear - stopYear)).map (startYear - ·)).findSome?
    (occursBefore month day reference)

/-! ### Patterns -/

namespace Pattern

open Regex

def digit : Regex := .char .digit
def spaces : Regex := plus (.char .space)
def anySpaces : Regex := .star (.char .space)

/-- `_MONTHS_BY_NAME`. -/
def monthsByName : List String :=
  ["january", "february", "march", "april", "may", "june", "july", "august", "september",
    "october", "november", "december"]

/-- `_NUMBER_WORDS`. -/
def numberWords : List (String × Nat) :=
  [("a", 1), ("an", 1), ("one", 1), ("a couple of", 2), ("couple of", 2), ("two", 2),
    ("three", 3), ("four", 4), ("five", 5), ("six", 6), ("seven", 7), ("eight", 8), ("nine", 9),
    ("ten", 10), ("eleven", 11), ("twelve", 12)]

/-- A phrase, its blanks as any run of spaces. -/
def phrase (text : String) : Regex :=
  seqs (text.toList.map fun c => if c = ' ' then spaces else .char (.letter c))

/-- `_MONTH_NAMES`. -/
def monthNames : Regex := alts (monthsByName.map letters)

/-- `_NUMBER_WORD_PATTERN`, the longest first. -/
def numberWord : Regex :=
  alts (["a couple of", "couple of", "eleven", "twelve", "three", "seven", "eight", "four", "five",
    "nine", "one", "two", "six", "ten", "an", "a"].map phrase)

/-- `_ORDINAL_SUFFIX`. -/
def ordinalSuffix : Regex := optional (alts (["st", "nd", "rd", "th"].map letters))

/-- `_MODIFIER_PREFIX`. -/
def modifier : Regex :=
  optional (seqs [alts (["early", "mid", "late"].map letters), spaces])

/-- A comma or spaces before a year. -/
def beforeYear : Regex := alts [seqs [anySpaces, .char (.oneOf [',']), anySpaces], spaces]

/-- Four digits. -/
def fourDigits : Regex := seqs [digit, digit, digit, digit]

/-- `_NUMERIC_DATE`. -/
def numericDate : Regex :=
  let separator := .char (.oneOf ['/', '-'])
  seqs [.boundary, .group 1 fourDigits, separator, .group 2 (upTo digit 1), separator,
    .group 3 (upTo digit 1), .boundary]

/-- `_MONTH_DAY_YEAR`. -/
def monthDayYear : Regex :=
  seqs [.boundary, modifier, .group 1 monthNames, spaces, .group 2 (upTo digit 1),
    ordinalSuffix, beforeYear, .group 3 fourDigits, .boundary]

/-- `_DAY_MONTH_YEAR`. -/
def dayMonthYear : Regex :=
  seqs [.boundary, .group 1 (upTo digit 1), ordinalSuffix, spaces,
    optional (seqs [letters "of", spaces]), .group 2 monthNames, beforeYear, .group 3 fourDigits,
    .boundary]

/-- `_MONTH_DAY`. -/
def monthDay : Regex :=
  seqs [.boundary, .group 1 monthNames, spaces, .group 2 (upTo digit 1), ordinalSuffix, .boundary]

/-- `_DAY_MONTH`. -/
def dayMonth : Regex :=
  seqs [.boundary, .group 1 (upTo digit 1), ordinalSuffix, spaces, letters "of", spaces,
    .group 2 monthNames, .boundary]

/-- `_MONTH_YEAR`. -/
def monthYear : Regex :=
  seqs [.boundary, modifier, .group 1 monthNames, spaces,
    optional (seqs [letters "of", spaces]), .group 2 fourDigits, .boundary]

/-- `_BARE_MONTH`. -/
def bareMonth : Regex := seqs [.boundary, modifier, .group 1 monthNames, .boundary]

/-- `_BARE_YEAR`. -/
def bareYear : Regex := seqs [.boundary, .group 1 fourDigits, .boundary]

/-- `_ANCHOR_BEFORE`. -/
def anchorBefore : Regex :=
  seqs [alts [.start, alts [.char .space, .char (.oneOf ['(', ',', ';', ':'])]],
    .group 1 (alts (["in", "during", "on", "since", "before", "after", "until", "by",
      "from"].map letters)), spaces, .finish]

/-- `_RANGE_CONNECTOR`. -/
def rangeConnector : Regex :=
  seqs [.start, anySpaces, alts (["and", "to", "until", "through"].map letters), anySpaces,
    .finish]

/-- `_BETWEEN_BEFORE`. -/
def betweenBefore : Regex :=
  seqs [.boundary, .group 1 (alts (["between", "from"].map letters)), spaces, .finish]

/-- `_OPEN_BEFORE`. -/
def openBefore : Regex :=
  seqs [.boundary, .group 1 (alts (["before", "until", "prior to", "since", "after",
    "by"].map phrase)), spaces, .finish]

/-- `_MONTH_PAIR_AFTER`. -/
def monthPairAfter : Regex :=
  seqs [.start, spaces, letters "and", spaces, .group 1 monthNames, .boundary]

/-- `_YESTERDAY`. -/
def yesterday : Regex := seqs [.boundary, letters "yesterday", .boundary]

/-- `_TODAY`. -/
def today : Regex := seqs [.boundary, letters "today", .boundary]

/-- `_LAST_THIS_UNIT`. -/
def lastThisUnit : Regex :=
  seqs [.boundary, .group 1 (alts (["last", "this"].map letters)), spaces,
    .group 2 (alts (["week", "month", "year"].map letters)), .boundary]

/-- `_UNITS_AGO`. -/
def unitsAgo : Regex :=
  seqs [.boundary, .group 1 (alts [numberWord, upTo digit 2]), spaces,
    .group 2 (alts (["day", "week", "month", "year"].map letters)), optional (letters "s"), spaces,
    letters "ago", .boundary]

end Pattern

/-! ### Points -/

/-- The kinds of points. -/
inductive PointKind where
  | date
  | monthYear
  | month
  | year
deriving DecidableEq

/-- `_Point`. -/
structure Point where
  start : Nat
  stop : Nat
  text : List Char
  kind : PointKind
  window : Window
  month : Option Nat
deriving DecidableEq

/-- `_Point.weak`. -/
def Point.weak (point : Point) : Bool := point.kind = .month ∨ point.kind = .year

/-- What reading a query leaves to the language. -/
structure AnchorEnv where
  alphabet : Alphabet
  casefold : List Char → List Char

section Parser

variable (env : AnchorEnv)

/-- `int(digits)`. -/
def intOf (digits : List Char) : Nat :=
  digits.foldl (fun n c => 10 * n + (env.alphabet.digit? c).getD 0) 0

/-- `_MONTHS_BY_NAME[name.casefold()]`. -/
def monthOf (name : List Char) : Except AnchorError Nat :=
  match Pattern.monthsByName.findIdx? (·.toList = env.casefold name) with
  | some index => .ok (index + 1)
  | none => .error .key

/-- `" ".join(phrase.casefold().split())`. -/
def foldedPhrase (phrase : List Char) : String := collapse (String.ofList (env.casefold phrase))

section Points

variable (text : List Char) (reference : UtcMoment)

/-- A point of a match. -/
def pointOf (m : Match) (kind : PointKind) (window : Window) (month : Option Nat) : Point :=
  ⟨m.first, m.last, m.whole text, kind, window, month⟩

/-- The point of a date that is supported. -/
def datePoint (m : Match) (day : Option Date) : Except AnchorError (Option Point) :=
  match day with
  | none => .ok none
  | some day => do
    let window ← supportedDayWindow day
    .ok (window.map fun window => pointOf text m .date window (some day.month))

/-- The point of a numeric date. -/
def numericPoint (m : Match) : Except AnchorError (Option Point) :=
  datePoint text m (Date.ofFields? (intOf env (m.group text 1)) (intOf env (m.group text 2))
    (intOf env (m.group text 3)))

/-- The point of a date with a named month and a year. -/
def writtenPoint (monthGroup dayGroup yearGroup : Nat) (m : Match) :
    Except AnchorError (Option Point) := do
  let month ← monthOf env (m.group text monthGroup)
  datePoint text m (Date.ofFields? (intOf env (m.group text yearGroup)) month
    (intOf env (m.group text dayGroup)))

/-- Whether a number is a year: `_YEAR_MIN` and `_YEAR_MAX`. -/
def IsYear (year : Nat) : Prop := 1900 ≤ year ∧ year ≤ 2099

instance (year : Nat) : Decidable (IsYear year) := inferInstanceAs (Decidable (_ ∧ _))

/-- The point of a month with a year. -/
def monthYearPoint (m : Match) : Except AnchorError (Option Point) :=
  let year := intOf env (m.group text 2)
  if ¬ IsYear year then .ok none
  else do
    let month ← monthOf env (m.group text 1)
    let window ← monthWindow year month
    .ok (some (pointOf text m .monthYear window (some month)))

/-- The point of a date without a year. -/
def yearlessPoint (monthGroup dayGroup : Nat) (m : Match) :
    Except AnchorError (Option Point) := do
  let month ← monthOf env (m.group text monthGroup)
  datePoint text m (resolveYearlessDate month (intOf env (m.group text dayGroup)) reference)

/-- The point of a month without a year. -/
def bareMonthPoint (m : Match) : Except AnchorError (Option Point) := do
  let month ← monthOf env (m.group text 1)
  let window ← monthWindow (resolveMonthYear month reference.date) month
  .ok (some (pointOf text m .month window (some month)))

/-- The point of a year. -/
def bareYearPoint (m : Match) : Except AnchorError (Option Point) :=
  let year := intOf env (m.group text 1)
  if ¬ IsYear year then .ok none
  else do
    let window ← yearWindow year
    .ok (some (pointOf text m .year window none))

/-- The points of the matches of a pattern. -/
def pointsOf (pattern : Regex) (point : Match → Except AnchorError (Option Point)) :
    Except AnchorError (List Point) :=
  ((findIter env.alphabet text pattern).mapM point).map List.reduceOption

/-- The candidates of all patterns. -/
def candidates : Except AnchorError (List Point) := do
  let numeric ← pointsOf env text Pattern.numericDate (numericPoint env text)
  let monthDayYear ← pointsOf env text Pattern.monthDayYear (writtenPoint env text 1 2 3)
  let dayMonthYear ← pointsOf env text Pattern.dayMonthYear (writtenPoint env text 2 1 3)
  let monthYear ← pointsOf env text Pattern.monthYear (monthYearPoint env text)
  let monthDay ← pointsOf env text Pattern.monthDay (yearlessPoint env text reference 1 2)
  let dayMonth ← pointsOf env text Pattern.dayMonth (yearlessPoint env text reference 2 1)
  let bareMonth ← pointsOf env text Pattern.bareMonth (bareMonthPoint env text reference)
  let bareYear ← pointsOf env text Pattern.bareYear (bareYearPoint env text)
  .ok (numeric ++ monthDayYear ++ dayMonthYear ++ monthYear ++ monthDay ++ dayMonth ++
    bareMonth ++ bareYear)

/-- The order of the candidates: by their start, the longest first. -/
def Point.Precedes (p q : Point) : Prop :=
  p.start < q.start ∨ p.start = q.start ∧ q.stop - q.start ≤ p.stop - p.start

instance (p q : Point) : Decidable (p.Precedes q) := inferInstanceAs (Decidable (_ ∨ _))

/-- Two points overlap. -/
def Point.overlaps (p q : Point) : Bool := p.start < q.stop ∧ q.start < p.stop

/-- The candidates that overlap none accepted before. -/
def accepted (points : List Point) : List Point :=
  points.foldl (fun kept p => if kept.any p.overlaps then kept else kept ++ [p]) []

/-- `_find_points`. -/
def findPoints : Except AnchorError (List Point) :=
  (candidates env text reference).map fun points =>
    accepted (points.insertionSort Point.Precedes)

end Points

/-! ### Anchors -/

/-- `TemporalAnchor`. -/
structure TemporalAnchor where
  windowStart : Date
  windowEnd : Date
  parsedFrom : List Char
deriving DecidableEq

section Anchors

variable (text : List Char) (reference : UtcMoment)

/-- `_anchored`. -/
def anchored (point : Point) : Bool :=
  !point.weak || (search env.alphabet (text.take point.start) Pattern.anchorBefore).isSome

/-- The window of the first point of a range. A month without a year borrows the year of the
second point, or the one before where the range would run backwards. -/
def borrowedWindow (first second : Point) : Except AnchorError Window :=
  match first.kind, first.month, second.month with
  | .month, some month, some _ =>
    let secondStart := second.window.first
    monthWindow (if month ≤ secondStart.month then secondStart.year else secondStart.year - 1) month
  | _, _, _ => .ok first.window

/-- The closed range over two points that follow each other. -/
def closedPair (first second : Point) : Except AnchorError (Option TemporalAnchor) :=
  match search env.alphabet (text.take first.start) Pattern.betweenBefore with
  | none => .ok none
  | some keyword =>
    if (matchAt env.alphabet (slice text first.stop second.start) Pattern.rangeConnector 0) =
        none then .ok none
    else do
      let firstWindow ← borrowedWindow first second
      let start := firstWindow.first
      let stop := second.window.last
      if start.dayNumber < stop.dayNumber then
        .ok (some ⟨start, stop, slice text (keyword.startOf 1) second.stop⟩)
      else .ok none

/-- `_closed_range`. -/
def closedRange : List Point → Except AnchorError (Option TemporalAnchor)
  | first :: second :: rest => do
    match ← closedPair env text first second with
    | some anchor => .ok (some anchor)
    | none => closedRange (second :: rest)
  | _ => .ok none

/-- The keyword of an open range right before a position, and where it begins. -/
def openKeyword (position : Nat) : Option (String × Nat) :=
  (search env.alphabet (text.take position) Pattern.openBefore).map fun m =>
    (foldedPhrase env (m.group (text.take position) 1), m.startOf 1)

/-- The keywords that ask for what is before a point. -/
def beforeWords : List String := ["before", "until", "prior to"]

/-- What an open range makes of a window. -/
def openWindow (keyword : String) (window : Window) : Option (Date × Date) :=
  if keyword ∈ beforeWords then
    if windowFloor.dayNumber < window.first.dayNumber then some (windowFloor, window.first)
    else none
  else if keyword = "by" then
    if windowFloor.dayNumber < window.last.dayNumber then some (windowFloor, window.last)
    else none
  else if keyword = "after" then
    if window.last.dayNumber < windowCeiling.dayNumber then some (window.last, windowCeiling)
    else none
  else
    if window.first.dayNumber < windowCeiling.dayNumber then some (window.first, windowCeiling)
    else none

/-- The open range of a point with a keyword right before it. -/
def openAnchor (point : Point) : Option TemporalAnchor :=
  match openKeyword env text point.start with
  | none => none
  | some (keyword, start) =>
    (openWindow keyword point.window).map fun (first, last) =>
      ⟨first, last, slice text start point.stop⟩

/-- `_open_range`. -/
def openRange (points : List Point) : Option TemporalAnchor :=
  points.findSome? (openAnchor env text)

/-- The second month of a pair, and where it ends. -/
def pairAfter (point : Point) : Except AnchorError (Option (Nat × Nat)) :=
  let rest := text.drop point.stop
  match matchAt env.alphabet rest Pattern.monthPairAfter 0 with
  | none => .ok none
  | some pair => do
    let month ← monthOf env (pair.group rest 1)
    .ok (some (month, point.stop + pair.last))

/-- The anchor of one point. -/
def pointAnchor (point : Point) : Except AnchorError TemporalAnchor :=
  let alone : TemporalAnchor := ⟨point.window.first, point.window.last, point.text⟩
  match point.kind, point.month with
  | .month, some month => do
    match ← pairAfter env text point with
    | none => .ok alone
    | some (secondMonth, stop) =>
      -- a second month that precedes the first is one of the next year
      let firstStart := point.window.first
      let year := if month ≤ secondMonth then firstStart.year else firstStart.year + 1
      let second ← monthWindow year secondMonth
      .ok ⟨firstStart, second.last, slice text point.start stop⟩
  | _, _ => .ok alone

/-- `_single_point`. -/
def singlePoint (points : List Point) : Except AnchorError (Option TemporalAnchor) :=
  match points.find? (anchored env text) with
  | some point => (pointAnchor env text point).map some
  | none => .ok none

/-- `_open_adjusted`. A window that follows a word such as before, by, after or since
becomes open on that side. -/
def openAdjusted (m : Match) (window : Window) : TemporalAnchor :=
  let own : TemporalAnchor := ⟨window.first, window.last, m.whole text⟩
  match openKeyword env text m.first with
  | none => own
  | some (keyword, start) =>
    if keyword ∈ beforeWords ++ ["by", "after", "since"] then
      match openWindow keyword window with
      | some (first, last) => ⟨first, last, slice text start m.last⟩
      | none => own
    else own

/-- `last` or `this` with a unit. -/
def unitWindow (which unit : List Char) : Except AnchorError Window :=
  let today := reference.date
  let last := which = "last".toList
  if unit = "week".toList then do weekWindow (← daysBack (if last then 7 else 0) today)
  else if unit = "month".toList then
    let (year, month) := monthsBack today (if last then 1 else 0)
    monthWindow year month
  else yearWindow (today.year - if last then 1 else 0)

/-- A number of units ago. -/
def agoWindow (count : Nat) (unit : List Char) : Except AnchorError Window :=
  let today := reference.date
  if unit = "day".toList then do dayWindow (← daysBack count today)
  else if unit = "week".toList then do weekWindow (← daysBack (7 * count) today)
  else if unit = "month".toList then
    let (year, month) := monthsBack today count
    monthWindow year month
  else yearWindow (today.year - count)

/-- The count of a phrase, if it is a number word or `int` reads it. -/
def countOf (phrase : List Char) : Option Nat :=
  let rawCount := foldedPhrase env phrase
  match Pattern.numberWords.lookup rawCount with
  | some count => some count
  | none =>
    if rawCount.toList.all fun c => (env.alphabet.digit? c).isSome then
      some (intOf env rawCount.toList)
    else none

/-- The phrase that is relative to the reference, with its window. -/
def relativePhrase : Except AnchorError (Option (Match × Window)) :=
  let today := reference.date
  match search env.alphabet text Pattern.yesterday with
  | some m => do
    let window ← dayWindow (← daysBack 1 today)
    .ok (some (m, window))
  | none =>
  match search env.alphabet text Pattern.today with
  | some m => do
    let window ← dayWindow today
    .ok (some (m, window))
  | none =>
  match search env.alphabet text Pattern.lastThisUnit with
  | some m => do
    let window ← unitWindow reference (env.casefold (m.group text 1))
      (env.casefold (m.group text 2))
    .ok (some (m, window))
  | none =>
  match search env.alphabet text Pattern.unitsAgo with
  | some m =>
    match countOf env (m.group text 1) with
    | some count => do
      let window ← agoWindow reference count (env.casefold (m.group text 2))
      .ok (some (m, window))
    -- a count that is no numeral is no phrase
    | none => .ok none
  | none => .ok none

/-- `_relative_window`. -/
def relativeWindow : Except AnchorError (Option TemporalAnchor) :=
  (relativePhrase env text reference).map
    (Option.map fun (m, window) => openAdjusted env text m window)

/-- The anchor of the points of a text, if they have one. -/
def explicitAnchor (points : List Point) : Except AnchorError (Option TemporalAnchor) := do
  match ← closedRange env text points with
  | some anchor => .ok (some anchor)
  | none =>
    match openRange env text points with
    | some anchor => .ok (some anchor)
    | none => singlePoint env text points

/-- What is read out of a text. -/
def anchorOfText : Except AnchorError (Option TemporalAnchor) := do
  if text = [] then .ok none
  else
    match ← explicitAnchor env text (← findPoints env text reference) with
    | some anchor => .ok (some anchor)
    | none => relativeWindow env text reference

end Anchors

/-- The text that is read. -/
def queryText (query : String) : List Char := (collapse query).toList

/-- `parse_temporal_anchor`. -/
def parseTemporalAnchor (query : String) (reference : UtcMoment) :
    Except AnchorError (Option TemporalAnchor) :=
  anchorOfText env (queryText query) reference

end Parser

end AliceBot
