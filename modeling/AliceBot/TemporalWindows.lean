import AliceBot.Library.Effect
import AliceBot.TemporalAnchors
import Mathlib

/-!
# What the windows of queries cover

Every window that `parse_temporal_anchor` yields ends after it begins: the windows of points do
by their type, and a range is only taken in that order.

`before X` and `since X` are the two sides of X, unless X begins at or before `WINDOW_FLOOR`: then
there is no room before it, the open range is passed over, and the query yields X itself, which
`since X` contains (`partition_iff`). A month in a list whose year is written behind the last
month, as in `in March and May 2023`, is resolved by the reference time as if no year were
written: a list is resolved in its year exactly where the reference makes that year the latest of
every month that is written without one (`yearedList_iff`).
-/

namespace AliceBot

open PyLib

/-! ### Months -/

/-- The first of a month. -/
structure IsFirst (year : Int) (month : Nat) (date : Date) : Prop where
  year_eq : (date.year : Int) = year
  month_eq : date.month = month
  day_eq : date.day = 1

theorem IsFirst.unique {year : Int} {month : Nat} {a b : Date} (ha : IsFirst year month a)
    (hb : IsFirst year month b) : a = b := by
  refine Date.eq_of_fields_eq ?_
  have hyear : a.year = b.year := by
    have h := ha.year_eq.trans hb.year_eq.symm
    omega
  simp only [Date.fields, hyear, ha.month_eq, hb.month_eq, ha.day_eq, hb.day_eq]

/-- First days come in the order of their months. -/
theorem IsFirst.le {year other : Int} {month next : Nat} {a b : Date} (ha : IsFirst year month a)
    (hb : IsFirst other next b) (h : year < other ∨ year = other ∧ month ≤ next) :
    a.dayNumber ≤ b.dayNumber := by
  have ha' := ha.year_eq
  have hb' := hb.year_eq
  rcases h with hyear | ⟨rfl, hmonth⟩
  · exact (Date.dayNumber_lt ((Date.fields_lt_iff _ _).mpr (.inl (by omega)))).le
  · rcases hmonth.eq_or_lt with rfl | hlt
    · rw [ha.unique hb]
    · refine (Date.dayNumber_lt ((Date.fields_lt_iff _ _).mpr (.inr ⟨by omega, .inl ?_⟩))).le
      rw [ha.month_eq, hb.month_eq]
      exact hlt

theorem isFirst_of_ofFields? {year month : Nat} {date : Date}
    (h : Date.ofFields? year month 1 = some date) : IsFirst year month date := by
  obtain ⟨hyear, hmonth, hday⟩ := ofFields?_spec h
  exact ⟨by rw [hyear], hmonth, hday⟩

theorem isFirst_of_makeDate {year : Int} {month : Nat} {date : Date}
    (h : makeDate year month 1 = .ok date) : IsFirst year month date := by
  unfold makeDate at h
  split at h
  · next hdate =>
    rw [Except.ok.inj h] at hdate
    obtain ⟨hyear, hmonth, hday⟩ := ofFields?_spec hdate
    have hpos := date.year_pos
    exact ⟨by omega, hmonth, hday⟩
  · cases h

/-- The window of a month begins at its first and ends at the first of the next. -/
theorem monthWindow_spec {year : Int} {month : Nat} {window : Window}
    (h : monthWindow year month = .ok window) : IsFirst year month window.first ∧
      if month = 12 then IsFirst (year + 1) 1 window.last
      else IsFirst year (month + 1) window.last := by
  obtain ⟨first, hfirst, h⟩ := except_bind_ok.mp h
  have hspec := isFirst_of_makeDate hfirst
  split at h
  · next last hlast =>
    obtain rfl := Except.ok.inj h
    refine ⟨hspec, ?_⟩
    have hyear := hspec.year_eq
    unfold nextMonth at hlast
    rw [hspec.month_eq] at hlast
    -- December, and any other month
    split at hlast
    · next hmonth =>
      have hnext := isFirst_of_ofFields? hlast
      rw [if_pos hmonth]
      exact ⟨by rw [hnext.year_eq]; omega, hnext.month_eq, hnext.day_eq⟩
    · next hmonth =>
      have hnext := isFirst_of_ofFields? hlast
      rw [if_neg hmonth]
      exact ⟨by rw [hnext.year_eq]; omega, hnext.month_eq, hnext.day_eq⟩
  · cases h

/-- The months of the years before 9999 have windows. -/
theorem exists_monthWindow {year month : Nat} (hyear : 1 ≤ year ∧ year ≤ 9998)
    (hmonth : 1 ≤ month ∧ month ≤ 12) : ∃ window, monthWindow year month = .ok window := by
  have hfirst : ∀ {y m : Nat}, 1 ≤ y ∧ y ≤ 9999 → 1 ≤ m ∧ m ≤ 12 →
      ∃ date, Date.ofFields? y m 1 = some date := by
    intro y m hy hm
    rw [Date.ofFields?, dif_pos ⟨hy, hm, le_rfl, Date.daysInMonth_pos _ hm.1⟩]
    exact ⟨_, rfl⟩
  obtain ⟨first, hdate⟩ := hfirst ⟨hyear.1, by omega⟩ hmonth
  obtain ⟨hfirstYear, hfirstMonth, _⟩ := ofFields?_spec hdate
  -- December is followed by the January of the next year
  have hnext : ∃ last, nextMonth first = some last := by
    unfold nextMonth
    split
    · exact hfirst ⟨by omega, by omega⟩ ⟨le_rfl, by decide⟩
    · exact hfirst ⟨by omega, by omega⟩ ⟨by omega, by omega⟩
  obtain ⟨last, hlast⟩ := hnext
  have hmake : makeDate year month 1 = .ok first := by
    rw [makeDate, Int.toNat_natCast, hdate]
  rw [monthWindow, hmake]
  refine ⟨⟨first, last, dayNumber_lt_nextMonth hlast⟩, ?_⟩
  dsimp only [bind, Except.bind]
  split
  · next other hother =>
    obtain rfl := Option.some.inj (hlast.symm.trans hother)
    rfl
  · next hnone =>
    rw [hlast] at hnone
    cases hnone

/-! ### The points of a text -/

section Points

variable {env : AnchorEnv} {text : List Char} {reference : UtcMoment}

/-- How the months of points are resolved. -/
structure ResolvedBy (reference : UtcMoment) (point : Point) : Prop where
  /-- A bare month is resolved by the reference. -/
  bare : point.kind = .month → ∃ month, point.month = some month ∧
    monthWindow (resolveMonthYear month reference.date) month = .ok point.window
  /-- A month with a year is the month of its window. -/
  written : point.kind = .monthYear → point.month = some point.window.first.month
  /-- A year alone has no month. -/
  alone : point.kind = .year → point.month = none
  /-- A written year is a year. -/
  year_le : point.kind = .monthYear ∨ point.kind = .year → point.window.first.year ≤ 2099

theorem resolvedBy_of_date {point : Point} (h : point.kind = .date) :
    ResolvedBy reference point := by
  constructor <;> rw [h]
  · nofun
  · nofun
  · nofun
  · rintro (hkind | hkind) <;> cases hkind

/-- A point stands in the text, and is not empty. -/
structure InText (text : List Char) (point : Point) : Prop where
  lt : point.start < point.stop
  le : point.stop ≤ text.length

/-- A point of a kind at the place of a match. -/
structure MadeOf (m : Match) (kind : PointKind) (point : Point) : Prop where
  kind_eq : point.kind = kind
  start_eq : point.start = m.first
  stop_eq : point.stop = m.last

theorem MadeOf.inText {m : Match} {kind : PointKind} {point : Point} {pattern : Regex}
    (h : MadeOf m kind point) (hm : m ∈ findIter env.alphabet text pattern)
    (hmin : 0 < pattern.minLength) : InText text point := by
  obtain ⟨hlength, hin⟩ := findIter_spec hm
  have hstart := h.start_eq
  have hstop := h.stop_eq
  exact ⟨by omega, by omega⟩

/-- Each point is made of a match. -/
theorem mem_pointsOf {pattern : Regex} {make : Match → Except AnchorError (Option Point)}
    {points : List Point} (h : pointsOf env text pattern make = .ok points) {point : Point}
    (hpoint : point ∈ points) :
    ∃ m ∈ findIter env.alphabet text pattern, make m = .ok (some point) := by
  unfold pointsOf at h
  cases hmap : (findIter env.alphabet text pattern).mapM make with
  | error e =>
    rw [hmap] at h
    cases h
  | ok found =>
    rw [hmap] at h
    obtain rfl := Except.ok.inj h
    have hmem := List.reduceOption_mem_iff.mp hpoint
    -- the list of points is as long as the list of matches, and follows it
    obtain ⟨i, hi, hget⟩ := List.getElem_of_mem hmem
    have hall := List.forall₂_iff_get.mp (forall₂_of_mapM_eq_ok hmap)
    have hlength : i < (findIter env.alphabet text pattern).length := by
      rw [hall.1]
      exact hi
    refine ⟨(findIter env.alphabet text pattern)[i], List.getElem_mem hlength, ?_⟩
    rw [← hget]
    exact hall.2 i hlength hi

theorem madeOf_datePoint {m : Match} {day : Option Date} {point : Point}
    (h : datePoint text m day = .ok (some point)) : MadeOf m .date point := by
  cases day with
  | none => cases h
  | some day =>
    obtain ⟨window, _, h⟩ := except_bind_ok.mp h
    obtain ⟨_, _, rfl⟩ := Option.map_eq_some_iff.mp (Except.ok.inj h)
    exact ⟨rfl, rfl, rfl⟩

theorem madeOf_numericPoint {m : Match} {point : Point}
    (h : numericPoint env text m = .ok (some point)) : MadeOf m .date point := madeOf_datePoint h

theorem madeOf_writtenPoint {monthGroup dayGroup yearGroup : Nat} {m : Match} {point : Point}
    (h : writtenPoint env text monthGroup dayGroup yearGroup m = .ok (some point)) :
    MadeOf m .date point := by
  obtain ⟨_, _, h⟩ := except_bind_ok.mp h
  exact madeOf_datePoint h

theorem madeOf_yearlessPoint {monthGroup dayGroup : Nat} {m : Match} {point : Point}
    (h : yearlessPoint env text reference monthGroup dayGroup m = .ok (some point)) :
    MadeOf m .date point := by
  obtain ⟨_, _, h⟩ := except_bind_ok.mp h
  exact madeOf_datePoint h

/-- A month with a year has the window of that month, and needs no reference. -/
theorem monthYearPoint_spec {m : Match} {point : Point}
    (h : monthYearPoint env text m = .ok (some point)) :
    MadeOf m .monthYear point ∧ ResolvedBy reference point := by
  unfold monthYearPoint at h
  dsimp only at h
  split at h
  · cases h
  · next hyear =>
    obtain ⟨_, _, h⟩ := except_bind_ok.mp h
    obtain ⟨_, hwindow, h⟩ := except_bind_ok.mp h
    cases h
    obtain ⟨hfirst, hmonth, _⟩ := (monthWindow_spec hwindow).1
    have hle := (not_not.mp hyear).2
    refine ⟨⟨rfl, rfl, rfl⟩, (fun hkind => nomatch hkind), fun _ => ?_,
      (fun hkind => nomatch hkind), fun _ => ?_⟩
    · rw [pointOf, hmonth]
    · dsimp only [pointOf]
      omega

theorem yearWindow_spec {year : Int} {window : Window} (h : yearWindow year = .ok window) :
    (window.first.year : Int) = year := by
  obtain ⟨first, hfirst, h⟩ := except_bind_ok.mp h
  split at h
  · obtain rfl := Except.ok.inj h
    exact (isFirst_of_makeDate hfirst).year_eq
  · cases h

/-- A year by itself has the window of that year, and needs no reference. -/
theorem bareYearPoint_spec {m : Match} {point : Point}
    (h : bareYearPoint env text m = .ok (some point)) :
    MadeOf m .year point ∧ ResolvedBy reference point := by
  unfold bareYearPoint at h
  dsimp only at h
  split at h
  · cases h
  · next hyear =>
    obtain ⟨_, hwindow, h⟩ := except_bind_ok.mp h
    cases h
    refine ⟨⟨rfl, rfl, rfl⟩, (fun hkind => nomatch hkind), (fun hkind => nomatch hkind),
      fun _ => rfl, fun _ => ?_⟩
    have hfirst := yearWindow_spec hwindow
    have hle := (not_not.mp hyear).2
    dsimp only [pointOf]
    omega

theorem bareMonthPoint_spec {m : Match} {point : Point}
    (h : bareMonthPoint env text reference m = .ok (some point)) :
    MadeOf m .month point ∧ ResolvedBy reference point := by
  obtain ⟨month, _, h⟩ := except_bind_ok.mp h
  obtain ⟨window, hwindow, h⟩ := except_bind_ok.mp h
  cases h
  refine ⟨⟨rfl, rfl, rfl⟩, fun _ => ⟨month, rfl, hwindow⟩, (fun hkind => nomatch hkind),
    (fun hkind => nomatch hkind), ?_⟩
  rintro (hkind | hkind) <;> cases hkind

/-- Of all patterns only the last two and that of a month with a year make points that are not
dates. -/
theorem candidates_spec {points : List Point}
    (h : candidates env text reference = .ok points) :
    ∀ point ∈ points, InText text point ∧ ResolvedBy reference point := by
  obtain ⟨numeric, hnumeric, h⟩ := except_bind_ok.mp h
  obtain ⟨monthDayYear, hmonthDayYear, h⟩ := except_bind_ok.mp h
  obtain ⟨dayMonthYear, hdayMonthYear, h⟩ := except_bind_ok.mp h
  obtain ⟨monthYear, hmonthYear, h⟩ := except_bind_ok.mp h
  obtain ⟨monthDay, hmonthDay, h⟩ := except_bind_ok.mp h
  obtain ⟨dayMonth, hdayMonth, h⟩ := except_bind_ok.mp h
  obtain ⟨bareMonth, hbareMonth, h⟩ := except_bind_ok.mp h
  obtain ⟨bareYear, hbareYear, h⟩ := except_bind_ok.mp h
  cases h
  have hdate : ∀ {m : Match} {point : Point} {pattern : Regex}, MadeOf m .date point →
      m ∈ findIter env.alphabet text pattern → 0 < pattern.minLength →
      InText text point ∧ ResolvedBy reference point :=
    fun hmade hm hmin => ⟨hmade.inText hm hmin, resolvedBy_of_date hmade.kind_eq⟩
  intro point hpoint
  simp only [List.mem_append] at hpoint
  -- the eight patterns in their order
  rcases hpoint with ((((((hmem | hmem) | hmem) | hmem) | hmem) | hmem) | hmem) | hmem
  · obtain ⟨m, hm, hpoint⟩ := mem_pointsOf hnumeric hmem
    exact hdate (madeOf_numericPoint hpoint) hm (by decide)
  · obtain ⟨m, hm, hpoint⟩ := mem_pointsOf hmonthDayYear hmem
    exact hdate (madeOf_writtenPoint hpoint) hm (by decide)
  · obtain ⟨m, hm, hpoint⟩ := mem_pointsOf hdayMonthYear hmem
    exact hdate (madeOf_writtenPoint hpoint) hm (by decide)
  · obtain ⟨m, hm, hpoint⟩ := mem_pointsOf hmonthYear hmem
    obtain ⟨hmade, hresolved⟩ := monthYearPoint_spec hpoint
    exact ⟨hmade.inText hm (by decide), hresolved⟩
  · obtain ⟨m, hm, hpoint⟩ := mem_pointsOf hmonthDay hmem
    exact hdate (madeOf_yearlessPoint hpoint) hm (by decide)
  · obtain ⟨m, hm, hpoint⟩ := mem_pointsOf hdayMonth hmem
    exact hdate (madeOf_yearlessPoint hpoint) hm (by decide)
  · obtain ⟨m, hm, hpoint⟩ := mem_pointsOf hbareMonth hmem
    obtain ⟨hmade, hresolved⟩ := bareMonthPoint_spec hpoint
    exact ⟨hmade.inText hm (by decide), hresolved⟩
  · obtain ⟨m, hm, hpoint⟩ := mem_pointsOf hbareYear hmem
    obtain ⟨hmade, hresolved⟩ := bareYearPoint_spec hpoint
    exact ⟨hmade.inText hm (by decide), hresolved⟩

instance : Std.Total Point.Precedes := ⟨fun p q => by unfold Point.Precedes; omega⟩

instance : IsTrans Point Point.Precedes :=
  ⟨fun p q r hpq hqr => by unfold Point.Precedes at *; omega⟩

/-- What a scan keeps: candidates in their order, none of which overlaps another. -/
theorem accepted_spec (points : List Point) : (accepted points).Sublist points ∧
    (accepted points).Pairwise fun p q => q.overlaps p = false := by
  have hfold : ∀ rest done kept : List Point, kept.Sublist done →
      (kept.Pairwise fun p q => q.overlaps p = false) →
      (rest.foldl (fun kept p => if kept.any p.overlaps then kept else kept ++ [p]) kept).Sublist
        (done ++ rest) ∧
      (rest.foldl (fun kept p => if kept.any p.overlaps then kept else kept ++ [p]) kept).Pairwise
        fun p q => q.overlaps p = false := by
    intro rest
    induction rest with
    | nil =>
      intro done kept hsub hapart
      rw [List.append_nil]
      exact ⟨hsub, hapart⟩
    | cons p rest ih =>
      -- a point that overlaps one kept before is dropped
      intro done kept hsub hapart
      rw [List.foldl_cons, List.append_cons done p rest]
      split
      · exact ih _ _ (hsub.trans (List.sublist_append_left _ _)) hapart
      · next hnone =>
        refine ih _ _ (hsub.append (List.Sublist.refl _)) (List.pairwise_append.mpr
          ⟨hapart, List.pairwise_singleton _ _, fun q hq r hr => ?_⟩)
        rw [List.mem_singleton.mp hr]
        rw [Bool.not_eq_true, List.any_eq_false] at hnone
        exact Bool.eq_false_iff.mpr (hnone q hq)
  exact hfold points [] [] (List.Sublist.refl _) List.Pairwise.nil

theorem findPoints_eq {points : List Point} (h : findPoints env text reference = .ok points) :
    ∃ found, candidates env text reference = .ok found ∧
      points = accepted (found.insertionSort Point.Precedes) := by
  unfold findPoints at h
  cases hfound : candidates env text reference with
  | error e =>
    rw [hfound] at h
    cases h
  | ok found =>
    rw [hfound] at h
    exact ⟨found, rfl, (Except.ok.inj h).symm⟩

theorem findPoints_spec {points : List Point}
    (h : findPoints env text reference = .ok points) :
    ∀ point ∈ points, InText text point ∧ ResolvedBy reference point := by
  obtain ⟨found, hfound, rfl⟩ := findPoints_eq h
  intro point hpoint
  have hsorted := (accepted_spec _).1.subset hpoint
  exact candidates_spec hfound point ((List.mem_insertionSort _).mp hsorted)

theorem findPoints_resolvedBy {points : List Point}
    (h : findPoints env text reference = .ok points) :
    ∀ point ∈ points, ResolvedBy reference point :=
  fun point hpoint => (findPoints_spec h point hpoint).2

/-- The points of a text follow each other. -/
theorem findPoints_pairwise {points : List Point}
    (h : findPoints env text reference = .ok points) :
    points.Pairwise fun p q => p.stop ≤ q.start := by
  have hspec := findPoints_spec h
  obtain ⟨found, hfound, rfl⟩ := findPoints_eq h
  obtain ⟨hsub, hapart⟩ := accepted_spec (found.insertionSort Point.Precedes)
  have hsorted := (List.pairwise_insertionSort Point.Precedes found).sublist hsub
  refine (hsorted.and hapart).imp_of_mem fun {p q} _ hq hpair => ?_
  obtain ⟨horder, hoverlap⟩ := hpair
  have hlt := (hspec q hq).1.lt
  have hstart : p.start ≤ q.start := by
    unfold Point.Precedes at horder
    omega
  have hoverlap' := of_decide_eq_false hoverlap
  omega

end Points

/-! ### Windows end after they begin -/

section Order

variable {env : AnchorEnv} {text : List Char} {reference : UtcMoment}

/-- The instants of a window. -/
def timeFrom (first last : Date) : Set Int := Set.Ico (midnight first) (midnight last)

def Window.times (window : Window) : Set Int := timeFrom window.first window.last

def TemporalAnchor.times (anchor : TemporalAnchor) : Set Int :=
  timeFrom anchor.windowStart anchor.windowEnd

theorem midnight_lt_iff {a b : Date} : midnight a < midnight b ↔ a.dayNumber < b.dayNumber := by
  unfold midnight
  omega

/-- An open window has room on its open side, or it is not taken. -/
theorem openWindow_lt {keyword : String} {window : Window} {first last : Date}
    (h : openWindow keyword window = some (first, last)) : midnight first < midnight last := by
  rw [midnight_lt_iff]
  unfold openWindow at h
  -- before, by, after and since: each makes sure that there is room for a window
  split at h
  · split at h
    · next hroom =>
      cases h
      exact hroom
    · cases h
  split at h
  · split at h
    · next hroom =>
      cases h
      exact hroom
    · cases h
  split at h
  · split at h
    · next hroom =>
      cases h
      exact hroom
    · cases h
  · split at h
    · next hroom =>
      cases h
      exact hroom
    · cases h

/-- A range ends after it begins: its second window is taken only if it ends behind the
start of the first. -/
theorem closedRange_lt {points : List Point} : ∀ {anchor : TemporalAnchor},
    closedRange env text points = .ok (some anchor) →
      midnight anchor.windowStart < midnight anchor.windowEnd := by
  induction points using closedRange.induct with
  | case1 first second rest ih =>
    intro anchor h
    obtain ⟨found, hfound, h⟩ := except_bind_ok.mp h
    cases found with
    | none => exact ih h
    | some found =>
      cases h
      unfold closedPair at hfound
      -- a pair that is no range, or whose end is not behind its start, is passed over
      split at hfound
      · cases hfound
      split at hfound
      · cases hfound
      · obtain ⟨window, _, hfound⟩ := except_bind_ok.mp hfound
        dsimp only at hfound
        split at hfound
        · next hroom =>
          cases hfound
          exact midnight_lt_iff.mpr hroom
        · cases hfound
  | case2 points hpoints =>
    intro anchor h
    rw [closedRange] at h
    · cases h
    · exact hpoints

theorem openAnchor_lt {point : Point} {anchor : TemporalAnchor}
    (h : openAnchor env text point = some anchor) :
    midnight anchor.windowStart < midnight anchor.windowEnd := by
  unfold openAnchor at h
  split at h
  · cases h
  · obtain ⟨⟨first, last⟩, hopen, rfl⟩ := Option.map_eq_some_iff.mp h
    exact openWindow_lt hopen

/-- A pair of months ends after the first month begins, whichever year the second is in. -/
theorem pointAnchor_lt {point : Point} (hresolved : ResolvedBy reference point)
    {anchor : TemporalAnchor} (h : pointAnchor env text point = .ok anchor) :
    midnight anchor.windowStart < midnight anchor.windowEnd := by
  rw [midnight_lt_iff]
  unfold pointAnchor at h
  dsimp only at h
  split at h
  · next month hkind hmonth =>
    obtain ⟨other, hother, hwindow⟩ := hresolved.bare hkind
    obtain rfl := Option.some.inj (hmonth.symm.trans hother)
    obtain ⟨pair, _, h⟩ := except_bind_ok.mp h
    cases pair with
    | none =>
      cases h
      exact point.window.lt
    | some pair =>
      obtain ⟨second, hsecond, h⟩ := except_bind_ok.mp h
      cases h
      have hfirst := (monthWindow_spec hwindow).1
      have hnext := (monthWindow_spec hsecond).1
      have hyear := hfirst.year_eq
      -- the second month is later in the year, or in the next one
      refine lt_of_le_of_lt (hfirst.le hnext ?_) second.lt
      split
      · next hle => exact .inr ⟨hyear.symm, hle⟩
      · exact .inl (by omega)
  · cases h
    exact point.window.lt

theorem openAdjusted_lt (m : Match) (window : Window) :
    midnight (openAdjusted env text m window).windowStart <
      midnight (openAdjusted env text m window).windowEnd := by
  unfold openAdjusted
  dsimp only
  split
  · exact midnight_lt_iff.mpr window.lt
  · split
    · split
      · next hopen => exact openWindow_lt hopen
      · exact midnight_lt_iff.mpr window.lt
    · exact midnight_lt_iff.mpr window.lt

/-- Whatever is read out of points, its window ends after it begins. -/
theorem explicitAnchor_lt {points : List Point}
    (hresolved : ∀ point ∈ points, ResolvedBy reference point) {anchor : TemporalAnchor}
    (h : explicitAnchor env text points = .ok (some anchor)) :
    midnight anchor.windowStart < midnight anchor.windowEnd := by
  obtain ⟨closed, hclosed, h⟩ := except_bind_ok.mp h
  -- a closed range comes before an open one, and a single point last
  cases closed with
  | some found =>
    cases h
    exact closedRange_lt hclosed
  | none =>
    dsimp only at h
    split at h
    · next found hopen =>
      cases h
      obtain ⟨point, _, hpoint⟩ := List.exists_of_findSome?_eq_some hopen
      exact openAnchor_lt hpoint
    · unfold singlePoint at h
      split at h
      · next point hfind =>
        cases hanchor : pointAnchor env text point with
        | error e =>
          rw [hanchor] at h
          cases h
        | ok found =>
          rw [hanchor] at h
          cases h
          exact pointAnchor_lt (hresolved point (List.mem_of_find?_eq_some hfind)) hanchor
      · cases h

theorem relativeWindow_lt {anchor : TemporalAnchor}
    (h : relativeWindow env text reference = .ok (some anchor)) :
    midnight anchor.windowStart < midnight anchor.windowEnd := by
  unfold relativeWindow at h
  cases hphrase : relativePhrase env text reference with
  | error e =>
    rw [hphrase] at h
    cases h
  | ok found =>
    rw [hphrase] at h
    obtain ⟨⟨m, window⟩, _, rfl⟩ := Option.map_eq_some_iff.mp (Except.ok.inj h)
    exact openAdjusted_lt m window

/-- Every window ends after it begins. -/
theorem parseTemporalAnchor_lt {query : String} {anchor : TemporalAnchor}
    (h : parseTemporalAnchor env query reference = .ok (some anchor)) :
    midnight anchor.windowStart < midnight anchor.windowEnd := by
  unfold parseTemporalAnchor anchorOfText at h
  split at h
  · cases h
  · obtain ⟨points, hpoints, h⟩ := except_bind_ok.mp h
    obtain ⟨explicit, hexplicit, h⟩ := except_bind_ok.mp h
    cases explicit with
    | some found =>
      cases h
      exact explicitAnchor_lt (findPoints_resolvedBy hpoints) hexplicit
    | none => exact relativeWindow_lt h

end Order

/-! ### Before, since and after -/

section Partition

variable {env : AnchorEnv} {reference : UtcMoment}

/-- A query about one thing, with a keyword right before it: an explicit reference, or else a
phrase relative to the reference time. Whether it would be taken without the keyword's help is
told apart: a bare month or year needs a word before it that anchors it. -/
inductive AsksAbout (env : AnchorEnv) (reference : UtcMoment) (query keyword : String)
    (window : Window) : Bool → Prop where
  | point {point : Point} {position : Nat}
      (hpoints : findPoints env (queryText query) reference = .ok [point])
      (hphrase : relativePhrase env (queryText query) reference = .ok none)
      (hpair : pairAfter env (queryText query) point = .ok none)
      (hkey : openKeyword env (queryText query) point.start = some (keyword, position))
      (hwindow : point.window = window) :
      AsksAbout env reference query keyword window (anchored env (queryText query) point)
  | phrase {m : Match} {position : Nat}
      (hpoints : findPoints env (queryText query) reference = .ok [])
      (hphrase : relativePhrase env (queryText query) reference = .ok (some (m, window)))
      (hkey : openKeyword env (queryText query) m.first = some (keyword, position)) :
      AsksAbout env reference query keyword window true

/-- The window of a query about one thing. -/
def askedWindow (keyword : String) (window : Window) (stands : Bool) : Option (Date × Date) :=
  match openWindow keyword window with
  | some span => some span
  | none => if stands then some (window.first, window.last) else none

/-- A keyword does not stand in a text that is empty. -/
theorem ne_nil_of_openKeyword {text : List Char} {position : Nat} {found : String × Nat}
    (h : openKeyword env text position = some found) : text ≠ [] := by
  rintro rfl
  obtain ⟨m, hm, _⟩ := Option.map_eq_some_iff.mp h
  obtain ⟨_, hlength, hin⟩ := searchFrom_spec hm
  have hmin : 0 < Pattern.openBefore.minLength := by decide
  rw [List.take_nil, List.length_nil] at hin
  omega

theorem pointAnchor_alone {text : List Char} {point : Point}
    (h : pairAfter env text point = .ok none) : pointAnchor env text point =
      .ok ⟨point.window.first, point.window.last, point.text⟩ := by
  unfold pointAnchor
  dsimp only
  split
  · rw [h]
    rfl
  · rfl

/-- What a query about one thing yields. -/
theorem parse_of_asksAbout {query keyword : String} {window : Window} {stands : Bool}
    (hkeyword : keyword ∈ beforeWords ++ ["by", "after", "since"])
    (h : AsksAbout env reference query keyword window stands) :
    ∃ anchor, parseTemporalAnchor env query reference = .ok anchor ∧
      anchor.map (fun found => (found.windowStart, found.windowEnd)) =
        askedWindow keyword window stands := by
  cases h with
  | @point point position hpoints hphrase hpair hkey hwindow =>
    subst hwindow
    have hparse : parseTemporalAnchor env query reference =
        (explicitAnchor env (queryText query) [point]).bind fun found =>
          found.elim (relativeWindow env (queryText query) reference) (.ok ∘ some) := by
      rw [parseTemporalAnchor, anchorOfText, if_neg (ne_nil_of_openKeyword hkey), hpoints]
      change (explicitAnchor env (queryText query) [point]).bind _ = _
      cases explicitAnchor env (queryText query) [point] with
      | error e => rfl
      | ok found => cases found <;> rfl
    have hopen : openRange env (queryText query) [point] =
        (openWindow keyword point.window).map fun span =>
          ⟨span.1, span.2, slice (queryText query) position point.stop⟩ := by
      rw [openRange, List.findSome?_singleton, openAnchor, hkey]
    have hexplicit : explicitAnchor env (queryText query) [point] =
        (openRange env (queryText query) [point]).elim
          (singlePoint env (queryText query) [point]) (.ok ∘ some) := by
      unfold explicitAnchor
      cases openRange env (queryText query) [point] <;> rfl
    rw [hparse, hexplicit, hopen, askedWindow]
    cases openWindow keyword point.window with
    | some span => exact ⟨_, rfl, rfl⟩
    | none =>
      -- there is no room: the point alone is taken, if it is anchored
      rw [Option.map_none]
      dsimp only
      rw [singlePoint]
      cases hanchored : anchored env (queryText query) point with
      | true =>
        rw [List.find?_cons_of_pos hanchored]
        dsimp only
        rw [pointAnchor_alone hpair]
        exact ⟨_, rfl, rfl⟩
      | false =>
        rw [List.find?_cons_of_neg (by rw [hanchored]; decide), List.find?_nil]
        refine ⟨none, ?_, rfl⟩
        rw [relativeWindow, hphrase]
        rfl
  | @phrase m position hpoints hphrase hkey =>
    -- a phrase relative to now is read only where no point is found
    have hparse : parseTemporalAnchor env query reference =
        .ok (some (openAdjusted env (queryText query) m window)) := by
      rw [parseTemporalAnchor, anchorOfText, if_neg (ne_nil_of_openKeyword hkey), hpoints,
        relativeWindow, hphrase]
      rfl
    refine ⟨_, hparse, ?_⟩
    rw [openAdjusted, hkey]
    dsimp only
    rw [if_pos hkeyword, askedWindow]
    cases openWindow keyword window with
    | some span => rfl
    | none => rfl

/-- The windows before, since and after a thing are apart, and leave nothing out with it. -/
structure Partition (window : Window) (before since after : TemporalAnchor) : Prop where
  since_disjoint : Disjoint before.times since.times
  after_disjoint : Disjoint before.times after.times
  since_covers : timeFrom windowFloor windowCeiling ⊆ before.times ∪ window.times ∪ since.times
  after_covers : timeFrom windowFloor windowCeiling ⊆ before.times ∪ window.times ∪ after.times

theorem openWindow_before {keyword : String} (h : keyword ∈ beforeWords) (window : Window) :
    openWindow keyword window = if windowFloor.dayNumber < window.first.dayNumber then
      some (windowFloor, window.first) else none := by
  rw [openWindow, if_pos h]

theorem openWindow_since (window : Window) : openWindow "since" window =
    if window.first.dayNumber < windowCeiling.dayNumber then some (window.first, windowCeiling)
    else none := by
  rw [openWindow, if_neg (by decide), if_neg (by decide), if_neg (by decide)]

theorem openWindow_after (window : Window) : openWindow "after" window =
    if window.last.dayNumber < windowCeiling.dayNumber then some (window.last, windowCeiling)
    else none := by
  rw [openWindow, if_neg (by decide), if_neg (by decide), if_pos rfl]

/-- What a query about one thing covers, where it yields a window. -/
theorem asked_of_parse {query keyword : String} {window : Window} {stands : Bool}
    {anchor : TemporalAnchor} (hkeyword : keyword ∈ beforeWords ++ ["by", "after", "since"])
    (h : AsksAbout env reference query keyword window stands)
    (hparse : parseTemporalAnchor env query reference = .ok (some anchor)) :
    askedWindow keyword window stands = some (anchor.windowStart, anchor.windowEnd) := by
  obtain ⟨found, hfound, hasked⟩ := parse_of_asksAbout hkeyword h
  rw [hparse] at hfound
  rw [← hasked, ← Except.ok.inj hfound]
  rfl

theorem exists_parse_of_asked {query keyword : String} {window : Window} {stands : Bool}
    {first last : Date} (hkeyword : keyword ∈ beforeWords ++ ["by", "after", "since"])
    (h : AsksAbout env reference query keyword window stands)
    (hasked : askedWindow keyword window stands = some (first, last)) :
    ∃ anchor, parseTemporalAnchor env query reference = .ok (some anchor) ∧
      anchor.times = timeFrom first last := by
  obtain ⟨found, hfound, hwindow⟩ := parse_of_asksAbout hkeyword h
  obtain ⟨anchor, rfl, hspan⟩ := Option.map_eq_some_iff.mp (hwindow.trans hasked)
  obtain ⟨rfl, rfl⟩ := Prod.mk.inj hspan
  exact ⟨anchor, hfound, rfl⟩

/-- What begins in a window, and ends at the ceiling, or lets the window do so, is the other
side of what comes before the window. -/
theorem sides_of_window {window : Window} {first last : Date}
    (hfirst : window.first.dayNumber ≤ first.dayNumber)
    (hmeets : first.dayNumber ≤ window.last.dayNumber)
    (hlast : windowCeiling.dayNumber ≤ last.dayNumber ∨
      windowCeiling.dayNumber ≤ window.last.dayNumber) :
    Disjoint (timeFrom windowFloor window.first) (timeFrom first last) ∧
      timeFrom windowFloor windowCeiling ⊆
        timeFrom windowFloor window.first ∪ window.times ∪ timeFrom first last := by
  constructor
  · refine Set.disjoint_left.mpr fun t hbefore hsince => ?_
    have hend := hbefore.2
    have hstart := hsince.1
    unfold midnight at hend hstart
    omega
  · intro t ht
    obtain ⟨hfloor, hceiling⟩ := ht
    -- `t` is before the window, or in it, or behind it
    by_cases hbefore : t < midnight window.first
    · exact .inl (.inl ⟨hfloor, hbefore⟩)
    by_cases hin : t < midnight window.last
    · exact .inl (.inr ⟨not_lt.mp hbefore, hin⟩)
    · refine .inr ⟨?_, ?_⟩
      · unfold midnight at *
        omega
      · unfold midnight at *
        omega

/-- Before and since or after a thing are its two sides exactly where the thing begins behind
the floor, and where there is no room behind it, it is taken alone. -/
theorem partition_iff {keyword before since after : String} {window : Window} {b s a : Bool}
    (hkeyword : keyword ∈ beforeWords) (hbefore : AsksAbout env reference before keyword window b)
    (hsince : AsksAbout env reference since "since" window s)
    (hafter : AsksAbout env reference after "after" window a) :
    (∃ x y z, parseTemporalAnchor env before reference = .ok (some x) ∧
      parseTemporalAnchor env since reference = .ok (some y) ∧
      parseTemporalAnchor env after reference = .ok (some z) ∧ Partition window x y z) ↔
    windowFloor.dayNumber < window.first.dayNumber ∧
      (s = true ∨ window.first.dayNumber < windowCeiling.dayNumber) ∧
      (a = true ∨ window.last.dayNumber < windowCeiling.dayNumber) := by
  have hroom : windowFloor.dayNumber < windowCeiling.dayNumber := by decide
  have hwords : keyword ∈ beforeWords ++ ["by", "after", "since"] := List.mem_append_left _ hkeyword
  have hwindow := window.lt
  constructor
  · rintro ⟨x, y, z, hx, hy, hz, hpart⟩
    have hxasked := asked_of_parse hwords hbefore hx
    have hyasked := asked_of_parse (by decide) hsince hy
    have hzasked := asked_of_parse (by decide) hafter hz
    rw [askedWindow, openWindow_before hkeyword] at hxasked
    rw [askedWindow, openWindow_since] at hyasked
    rw [askedWindow, openWindow_after] at hzasked
    refine ⟨?_, ?_, ?_⟩
    · by_contra hfloor
      -- both windows begin where the thing begins
      rw [if_neg hfloor] at hxasked
      rw [if_pos (by omega)] at hyasked
      dsimp only at hxasked hyasked
      split at hxasked
      · obtain ⟨hxstart, hxend⟩ := Prod.mk.inj (Option.some.inj hxasked)
        obtain ⟨hystart, hyend⟩ := Prod.mk.inj (Option.some.inj hyasked)
        have hin : midnight window.first ∈ x.times := by
          refine ⟨(congrArg midnight hxstart).ge, ?_⟩
          rw [← hxend]
          exact midnight_lt_iff.mpr hwindow
        have hin' : midnight window.first ∈ y.times := by
          refine ⟨(congrArg midnight hystart).ge, ?_⟩
          rw [← hyend]
          exact midnight_lt_iff.mpr (by omega)
        exact Set.disjoint_left.mp hpart.since_disjoint hin hin'
      · cases hxasked
    · -- without room behind the thing, the answer was the thing alone
      by_cases hceiling : window.first.dayNumber < windowCeiling.dayNumber
      · exact .inr hceiling
      · rw [if_neg hceiling] at hyasked
        dsimp only at hyasked
        split at hyasked
        · next hs => exact .inl hs
        · cases hyasked
    · by_cases hceiling : window.last.dayNumber < windowCeiling.dayNumber
      · exact .inr hceiling
      · rw [if_neg hceiling] at hzasked
        dsimp only at hzasked
        split at hzasked
        · next hs => exact .inl hs
        · cases hzasked
  · -- conversely each query has an answer, and the two sides meet at the thing
    rintro ⟨hfloor, hs, ha⟩
    have hxasked : askedWindow keyword window b = some (windowFloor, window.first) := by
      rw [askedWindow, openWindow_before hkeyword, if_pos hfloor]
    obtain ⟨x, hx, hxtimes⟩ := exists_parse_of_asked hwords hbefore hxasked
    have hyasked : ∃ first last, askedWindow "since" window s = some (first, last) ∧
        window.first.dayNumber ≤ first.dayNumber ∧ first.dayNumber ≤ window.last.dayNumber ∧
        (windowCeiling.dayNumber ≤ last.dayNumber ∨
          windowCeiling.dayNumber ≤ window.last.dayNumber) := by
      rw [askedWindow, openWindow_since]
      by_cases hceiling : window.first.dayNumber < windowCeiling.dayNumber
      · rw [if_pos hceiling]
        exact ⟨_, _, rfl, le_rfl, hwindow.le, .inl le_rfl⟩
      · rw [if_neg hceiling, hs.resolve_right hceiling]
        exact ⟨_, _, rfl, le_rfl, hwindow.le, .inr (by omega)⟩
    have hzasked : ∃ first last, askedWindow "after" window a = some (first, last) ∧
        window.first.dayNumber ≤ first.dayNumber ∧ first.dayNumber ≤ window.last.dayNumber ∧
        (windowCeiling.dayNumber ≤ last.dayNumber ∨
          windowCeiling.dayNumber ≤ window.last.dayNumber) := by
      rw [askedWindow, openWindow_after]
      by_cases hceiling : window.last.dayNumber < windowCeiling.dayNumber
      · rw [if_pos hceiling]
        exact ⟨_, _, rfl, hwindow.le, le_rfl, .inl le_rfl⟩
      · rw [if_neg hceiling, ha.resolve_right hceiling]
        exact ⟨_, _, rfl, le_rfl, hwindow.le, .inr (by omega)⟩
    obtain ⟨sinceFirst, sinceLast, hysome, hsinceFirst, hsinceMeets, hsinceLast⟩ := hyasked
    obtain ⟨afterFirst, afterLast, hzsome, hafterFirst, hafterMeets, hafterLast⟩ := hzasked
    obtain ⟨y, hy, hytimes⟩ := exists_parse_of_asked (by decide) hsince hysome
    obtain ⟨z, hz, hztimes⟩ := exists_parse_of_asked (by decide) hafter hzsome
    have hsinceSides := sides_of_window hsinceFirst hsinceMeets hsinceLast
    have hafterSides := sides_of_window hafterFirst hafterMeets hafterLast
    rw [← hxtimes, ← hytimes] at hsinceSides
    rw [← hxtimes, ← hztimes] at hafterSides
    exact ⟨x, y, z, hx, hy, hz, hsinceSides.1, hafterSides.1, hsinceSides.2, hafterSides.2⟩

end Partition

/-! ### Lists of months with one year -/

section Lists

variable {env : AnchorEnv} {reference : UtcMoment} {text : List Char} {points listed : List Point}
  {year : Nat}

/-- What stands between the months of a list. -/
def listJoins : List String := ["and", "or", "&", ",", ", and", ", or", ", &"]

/-- What stands between the last month of a list and a year that is a point of its own. -/
def yearJoins : List String := [",", "of", ", of", "in", ", in", "("]

variable (env text) in
def Joined (p q : Point) : Prop :=
  foldedPhrase env (slice text p.stop q.start) ∈ if q.kind = .year then yearJoins else listJoins

variable (env text) in
/-- A list of months in the points of a text. The year is written behind the last of them, with
that month in one point ("March and May 2023") or in one of its own ("March and May, 2023"). -/
inductive YearedList : List Point → List Point → Nat → Prop where
  | intro {earlier months later : List Point} {last : Point} (hmonths : months ≠ [])
      (hbare : ∀ point ∈ months, point.kind = .month)
      (hlast : last.kind = .monthYear ∨ last.kind = .year)
      (hjoined : List.IsChain (Joined env text) (months ++ [last])) :
      YearedList (earlier ++ (months ++ last :: later)) (months ++ [last]) last.window.first.year

variable (env text) in
/-- The two points over which `_closed_range` reads its range. -/
def takenRange : List Point → Option (Point × Point)
  | first :: second :: rest =>
    match closedPair env text first second with
    | .ok (some _) => some (first, second)
    | .ok none => takenRange (second :: rest)
    | .error _ => none
  | _ => none

variable (env text points) in
/-- A month without a year that begins the closed range, and borrows the year of its end. -/
structure Borrows (first second : Point) : Prop where
  taken : takenRange env text points = some (first, second)
  bare : first.kind = .month
  dated : second.month.isSome

variable (env text points) in
/-- A month that `_single_point` reads together with the one behind it, which ends at `stop`. -/
structure ReadTogether (point : Point) (month secondMonth stop : Nat) : Prop where
  closed : closedRange env text points = .ok none
  opened : openRange env text points = none
  single : points.find? (anchored env text) = some point
  bare : point.kind = .month
  month_eq : point.month = some month
  pair : pairAfter env text point = .ok (some (secondMonth, stop))

/-- The year of the second of two months that are read together. -/
def pairedYear (point : Point) (month secondMonth : Nat) : Nat :=
  if month ≤ secondMonth then point.window.first.year else point.window.first.year + 1

variable (env text points) in
/-- The windows to which the parser resolves what ends at a place of the text: a point has the
window that `_find_points` gives it, but where it borrows a year; and a month that is read together
with the one before it is resolved once more. -/
inductive Resolves : Nat → Window → Prop where
  | own {point : Point} (hmem : point ∈ points)
      (hown : ∀ second, ¬ Borrows env text points point second) :
      Resolves point.stop point.window
  | borrowed {first second : Point} {window : Window} (h : Borrows env text points first second)
      (hwindow : borrowedWindow first second = .ok window) : Resolves first.stop window
  | paired {point : Point} {month secondMonth stop : Nat} {window : Window}
      (h : ReadTogether env text points point month secondMonth stop)
      (hwindow : monthWindow (pairedYear point month secondMonth) secondMonth = .ok window) :
      Resolves stop window

/-- What ends at a place ends in the point. -/
def Point.Holds (point : Point) (place : Nat) : Prop := point.start < place ∧ place ≤ point.stop

variable (env text points listed year) in
/-- Every month of a list is resolved in the year. -/
def ResolvedIn : Prop :=
  ∀ point ∈ listed, ∀ place window, point.Holds place → Resolves env text points place window →
    window.first.year = year

variable (env text points) in
/-- The bounds of an anchor are those of windows to which the text is resolved, or the floor and
the ceiling. -/
structure BoundedByResolved (anchor : TemporalAnchor) : Prop where
  start : anchor.windowStart = windowFloor ∨ ∃ place window,
    Resolves env text points place window ∧
      (anchor.windowStart = window.first ∨ anchor.windowStart = window.last)
  stop : anchor.windowEnd = windowCeiling ∨ ∃ place window,
    Resolves env text points place window ∧
      (anchor.windowEnd = window.first ∨ anchor.windowEnd = window.last)

/-- A month of the year is the latest of its name that has begun by a date. -/
def IsLatest (reference : Date) (month year : Nat) : Prop :=
  month ≤ reference.month ∧ year = reference.year ∨
    reference.month < month ∧ year + 1 = reference.year

variable (env text reference points listed year) in
/-- Where the reference and the places of the months give every month of a list its year. -/
structure YearFits : Prop where
  /-- The year makes every month that is written without it the latest of its name, but one that
  borrows the year. -/
  latest : ∀ point ∈ listed, point.kind = .month →
    (∀ second, ¬ Borrows env text points point second) →
    ∀ month, point.month = some month → IsLatest reference.date month year
  /-- The end of a closed range does not precede its beginning. -/
  ordered : ∀ first ∈ listed, ∀ second, Borrows env text points first second →
    ∀ month next, first.month = some month → second.month = some next → month ≤ next
  /-- A month that is read together with the one before it is in that one's year, or in the next
  where it precedes it. -/
  together : ∀ first month next stop, ReadTogether env text points first month next stop →
    ∀ second ∈ listed, second.Holds stop →
      IsLatest reference.date month (if month ≤ next then year else year - 1)

theorem isLatest_iff {reference : Date} {month year : Nat} :
    IsLatest reference month year ↔ resolveMonthYear month reference = year := by
  unfold IsLatest resolveMonthYear
  split <;> omega

/-- A range that is answered was taken from two points of the query, in their order. -/
theorem exists_takenRange {anchor : TemporalAnchor} : ∀ {points : List Point},
    closedRange env text points = .ok (some anchor) →
      ∃ first second, takenRange env text points = some (first, second) ∧
        closedPair env text first second = .ok (some anchor) := by
  intro points
  induction points using closedRange.induct with
  | case1 first second rest ih =>
    intro h
    obtain ⟨found, hfound, h⟩ := except_bind_ok.mp h
    rw [takenRange, hfound]
    cases found with
    | some found =>
      cases h
      exact ⟨first, second, rfl, hfound⟩
    | none => exact ih h
  | case2 points hpoints =>
    intro h
    rw [closedRange] at h
    · cases h
    · exact hpoints

theorem takenRange_eq_none : ∀ {points : List Point},
    closedRange env text points = .ok none → takenRange env text points = none := by
  intro points
  induction points using closedRange.induct with
  | case1 first second rest ih =>
    intro h
    obtain ⟨found, hfound, h⟩ := except_bind_ok.mp h
    rw [takenRange, hfound]
    cases found with
    | some found => cases h
    | none => exact ih h
  | case2 points hpoints =>
    intro _
    rw [takenRange]
    exact hpoints

/-- The points of the range follow each other. -/
theorem takenRange_spec : ∀ {points : List Point} {first second : Point},
    takenRange env text points = some (first, second) →
      (∃ before behind, points = before ++ first :: second :: behind) ∧
        ∃ anchor, closedPair env text first second = .ok (some anchor) := by
  intro points
  -- the first pair of neighbours that is a range is taken
  induction points using takenRange.induct env text with
  | case1 first second rest anchor hpair =>
    intro p q h
    rw [takenRange, hpair] at h
    cases h
    exact ⟨⟨[], rest, rfl⟩, anchor, hpair⟩
  | case2 first second rest hpair ih =>
    intro p q h
    rw [takenRange, hpair] at h
    obtain ⟨⟨before, behind, hrest⟩, hanchor⟩ := ih h
    exact ⟨⟨first :: before, behind, by rw [hrest, List.cons_append]⟩, hanchor⟩
  | case3 first second rest e hpair =>
    intro p q h
    rw [takenRange, hpair] at h
    cases h
  | case4 points hpoints =>
    intro p q h
    rw [takenRange] at h
    · cases h
    · exact hpoints

/-- What a closed range makes of two points. -/
theorem closedPair_spec {first second : Point} {anchor : TemporalAnchor}
    (h : closedPair env text first second = .ok (some anchor)) :
    ∃ window, borrowedWindow first second = .ok window ∧ anchor.windowStart = window.first ∧
      anchor.windowEnd = second.window.last := by
  unfold closedPair at h
  split at h
  · cases h
  split at h
  · cases h
  · obtain ⟨window, hwindow, h⟩ := except_bind_ok.mp h
    dsimp only at h
    split at h
    · cases h
      exact ⟨window, hwindow, rfl, rfl⟩
    · cases h

theorem borrowedWindow_own {first second : Point}
    (h : ¬ (first.kind = .month ∧ second.month.isSome)) :
    borrowedWindow first second = .ok first.window := by
  unfold borrowedWindow
  split
  · next hkind _ hmonth => exact absurd ⟨hkind, by rw [hmonth, Option.isSome_some]⟩ h
  · rfl

/-- The year that is borrowed: that of the end, or the one before where the range would run
backwards. -/
theorem borrowedWindow_year {first second : Point} {window : Window} {month : Nat}
    (hbare : first.kind = .month) (hmonth : first.month = some month)
    (hdated : second.month.isSome) (h : borrowedWindow first second = .ok window) :
    window.first.year = if month ≤ second.window.first.month then second.window.first.year
      else second.window.first.year - 1 := by
  obtain ⟨next, hnext⟩ := Option.isSome_iff_exists.mp hdated
  rw [borrowedWindow, hbare, hmonth, hnext] at h
  have hyear := (monthWindow_spec h).1.year_eq
  have hpos := second.window.first.year_pos
  split at hyear
  · next hle =>
    rw [if_pos hle]
    exact_mod_cast hyear
  · next hlt =>
    rw [if_neg hlt]
    omega

/-! #### The anchors that are read -/

section Bounds

variable {anchor : TemporalAnchor}

/-- Points that follow each other, none of which is empty, are different. -/
theorem ne_of_follows {before behind : List Point} {first second : Point}
    (hnodup : (before ++ first :: second :: behind).Nodup) : second ≠ first := by
  rintro rfl
  have hbehind := (List.nodup_append.mp hnodup).2.1
  exact (List.nodup_cons.mp hbehind).1 List.mem_cons_self

/-- A range is bounded by the windows to which its two points are resolved. -/
theorem closedRange_bounded (hnodup : points.Nodup)
    (h : closedRange env text points = .ok (some anchor)) :
    BoundedByResolved env text points anchor := by
  obtain ⟨first, second, htaken, hpair⟩ := exists_takenRange h
  obtain ⟨⟨before, behind, rfl⟩, _⟩ := takenRange_spec htaken
  obtain ⟨window, hwindow, hstart, hstop⟩ := closedPair_spec hpair
  constructor
  · by_cases hborrows : first.kind = .month ∧ second.month.isSome
    · exact .inr ⟨_, window, .borrowed ⟨htaken, hborrows.1, hborrows.2⟩ hwindow, .inl hstart⟩
    · rw [borrowedWindow_own hborrows] at hwindow
      obtain rfl := Except.ok.inj hwindow
      refine .inr ⟨_, _, .own (by simp) fun other hother => hborrows ⟨hother.bare, ?_⟩, .inl hstart⟩
      obtain ⟨_, rfl⟩ := Prod.mk.inj (Option.some.inj (htaken.symm.trans hother.taken))
      exact hother.dated
  · refine .inr ⟨_, _, .own (by simp) fun other hother => ?_, .inr hstop⟩
    obtain ⟨heq, _⟩ := Prod.mk.inj (Option.some.inj (htaken.symm.trans hother.taken))
    exact ne_of_follows hnodup heq.symm

/-- Where there is no closed range, no point borrows. -/
theorem not_borrows (hclosed : closedRange env text points = .ok none) (first second : Point) :
    ¬ Borrows env text points first second :=
  fun h => absurd (h.taken.symm.trans (takenRange_eq_none hclosed)) (Option.some_ne_none _)

/-- An open range is bounded by the window of the thing it is about on one side, and by
the calendar of the parser on the other. -/
theorem openRange_bounded (hclosed : closedRange env text points = .ok none)
    (h : openRange env text points = some anchor) :
    BoundedByResolved env text points anchor := by
  obtain ⟨point, hmem, hpoint⟩ := List.exists_of_findSome?_eq_some h
  have hown : Resolves env text points point.stop point.window :=
    .own hmem (not_borrows hclosed point)
  unfold openAnchor at hpoint
  split at hpoint
  · cases hpoint
  obtain ⟨⟨first, last⟩, hopen, rfl⟩ := Option.map_eq_some_iff.mp hpoint
  unfold openWindow at hopen
  -- one end is the floor or the ceiling, and the other one of the two ends of the point
  split at hopen
  · obtain ⟨_, hspan⟩ := Option.ite_none_right_eq_some.mp hopen
    cases hspan
    exact ⟨.inl rfl, .inr ⟨_, _, hown, .inl rfl⟩⟩
  split at hopen
  · obtain ⟨_, hspan⟩ := Option.ite_none_right_eq_some.mp hopen
    cases hspan
    exact ⟨.inl rfl, .inr ⟨_, _, hown, .inr rfl⟩⟩
  split at hopen
  · obtain ⟨_, hspan⟩ := Option.ite_none_right_eq_some.mp hopen
    cases hspan
    exact ⟨.inr ⟨_, _, hown, .inr rfl⟩, .inl rfl⟩
  · obtain ⟨_, hspan⟩ := Option.ite_none_right_eq_some.mp hopen
    cases hspan
    exact ⟨.inr ⟨_, _, hown, .inl rfl⟩, .inl rfl⟩

/-- A query that is neither a range nor open is bounded by the window of one point, or
by those of the pair. -/
theorem singlePoint_bounded (hclosed : closedRange env text points = .ok none)
    (hopen : openRange env text points = none)
    (h : singlePoint env text points = .ok (some anchor)) :
    BoundedByResolved env text points anchor := by
  unfold singlePoint at h
  split at h
  · next point hfind =>
    have hown : Resolves env text points point.stop point.window :=
      .own (List.mem_of_find?_eq_some hfind) (not_borrows hclosed point)
    cases hanchor : pointAnchor env text point with
    | error e =>
      rw [hanchor] at h
      cases h
    | ok found =>
      rw [hanchor] at h
      obtain rfl := Option.some.inj (Except.ok.inj h)
      unfold pointAnchor at hanchor
      dsimp only at hanchor
      split at hanchor
      · next month hkind hmonth =>
        -- a bare month may be read together with the month after it, which ends the window
        obtain ⟨pair, hpair, hanchor⟩ := except_bind_ok.mp hanchor
        cases pair with
        | none =>
          cases hanchor
          exact ⟨.inr ⟨_, _, hown, .inl rfl⟩, .inr ⟨_, _, hown, .inr rfl⟩⟩
        | some pair =>
          obtain ⟨secondMonth, stop⟩ := pair
          obtain ⟨window, hwindow, hanchor⟩ := except_bind_ok.mp hanchor
          cases hanchor
          have htogether : ReadTogether env text points point month secondMonth stop :=
            ⟨hclosed, hopen, hfind, hkind, hmonth, hpair⟩
          exact ⟨.inr ⟨_, _, hown, .inl rfl⟩,
            .inr ⟨_, _, .paired htogether hwindow, .inr rfl⟩⟩
      · cases hanchor
        exact ⟨.inr ⟨_, _, hown, .inl rfl⟩, .inr ⟨_, _, hown, .inr rfl⟩⟩
  · cases h

/-- Whatever way an anchor is read out of points, its bounds come from the windows to which the
text is resolved. -/
theorem explicitAnchor_bounded (hnodup : points.Nodup)
    (h : explicitAnchor env text points = .ok (some anchor)) :
    BoundedByResolved env text points anchor := by
  obtain ⟨closed, hclosed, h⟩ := except_bind_ok.mp h
  cases closed with
  | some found =>
    cases h
    exact closedRange_bounded hnodup hclosed
  | none =>
    dsimp only at h
    split at h
    · next hopen =>
      cases h
      exact openRange_bounded hclosed hopen
    · next hopen => exact singlePoint_bounded hclosed hopen h

end Bounds

/-! #### The years of a list -/

/-- No two points of a text are the same. -/
theorem findPoints_nodup (h : findPoints env text reference = .ok points) : points.Nodup := by
  refine (findPoints_pairwise h).imp_of_mem fun {p q} hp _ hle heq => ?_
  have hlt := (findPoints_spec h p hp).1.lt
  rw [← heq] at hle
  omega

/-- A place is in one point only. -/
theorem eq_of_holds (h : findPoints env text reference = .ok points) {p q : Point}
    (hp : p ∈ points) (hq : q ∈ points) (hplace : p.Holds q.stop) : q = p := by
  by_contra hne
  have hpairwise : points.Pairwise fun a b => a.stop ≤ b.start ∨ b.stop ≤ a.start :=
    (findPoints_pairwise h).imp Or.inl
  have hsymm : Std.Symm fun a b : Point => a.stop ≤ b.start ∨ b.stop ≤ a.start :=
    ⟨fun _ _ hor => Or.symm hor⟩
  have hapart := hpairwise.forall hp hq (Ne.symm hne)
  have hlt := (findPoints_spec h q hq).1.lt
  obtain ⟨hstart, hstop⟩ := hplace
  omega

/-- The months of a list are points of the text, and those behind the months without a year have
the year. -/
theorem YearedList.spec (h : YearedList env text points listed year) :
    (∀ point ∈ listed, point ∈ points ∧
      (point.kind = .month ∨ point.window.first.year = year ∧
        (point.kind = .monthYear ∨ point.kind = .year))) ∧
      ∃ first ∈ listed, first.kind = .month := by
  obtain @⟨earlier, months, later, last, hmonths, hbare, hlast, _⟩ := h
  constructor
  · intro point hpoint
    rcases List.mem_append.mp hpoint with hmem | hmem
    · exact ⟨by simp [hmem], .inl (hbare point hmem)⟩
    · rw [List.mem_singleton.mp hmem]
      exact ⟨by simp, .inr ⟨rfl, hlast⟩⟩
  · obtain ⟨first, hfirst⟩ := List.exists_mem_of_ne_nil months hmonths
    exact ⟨first, List.mem_append_left _ hfirst, hbare first hfirst⟩

/-- A month of a list that borrows a year borrows it from the next point of the list. -/
theorem Borrows.mem (hnodup : points.Nodup) (hlist : YearedList env text points listed year)
    {first second : Point} (h : Borrows env text points first second) (hfirst : first ∈ listed) :
    second ∈ listed := by
  obtain @⟨earlier, months, later, last, _, _, hlast, _⟩ := hlist
  obtain ⟨⟨before, behind, hpoints⟩, _⟩ := takenRange_spec h.taken
  have hmonth : first ∈ months := by
    rcases List.mem_append.mp hfirst with hmem | hmem
    · exact hmem
    · have hkind := h.bare
      rw [List.mem_singleton.mp hmem] at hkind
      rw [hkind] at hlast
      rcases hlast with hlast | hlast <;> cases hlast
  obtain ⟨done, rest, rfl⟩ := List.append_of_mem hmonth
  -- the first point stands once in the text, so that what follows it does too
  have hsplit : earlier ++ (done ++ first :: rest ++ last :: later) =
      earlier ++ done ++ first :: (rest ++ last :: later) := by simp
  rw [hsplit] at hpoints hnodup
  obtain ⟨hnotin, _⟩ := List.nodup_middle.mp hnodup |> List.nodup_cons.mp
  obtain ⟨_, _, hrest⟩ := (List.append_cons_inj_of_notMem
    (fun hmem => hnotin (List.mem_append_left _ hmem))
    (fun hmem => hnotin (List.mem_append_right _ hmem))).mp hpoints
  cases rest with
  | nil =>
    rw [← (List.cons.inj hrest).1]
    simp
  | cons next rest =>
    rw [← (List.cons.inj hrest).1]
    simp

theorem monthOf_range {name : List Char} {month : Nat} (h : monthOf env name = .ok month) :
    1 ≤ month ∧ month ≤ 12 := by
  unfold monthOf at h
  split at h
  · next index hindex =>
    obtain rfl := Except.ok.inj h
    obtain ⟨hlt, _⟩ := List.findIdx?_eq_some_iff_getElem.mp hindex
    have hlength : Pattern.monthsByName.length = 12 := by decide
    omega
  · cases h

theorem pairAfter_range {text : List Char} {point : Point} {month stop : Nat}
    (h : pairAfter env text point = .ok (some (month, stop))) : 1 ≤ month ∧ month ≤ 12 := by
  unfold pairAfter at h
  dsimp only at h
  split at h
  · cases h
  · obtain ⟨found, hfound, h⟩ := except_bind_ok.mp h
    cases h
    exact monthOf_range hfound

/-- A month without a year has the year that the reference gives it. -/
theorem ResolvedBy.bare_year {point : Point} {month : Nat} (h : ResolvedBy reference point)
    (hkind : point.kind = .month) (hmonth : point.month = some month) :
    resolveMonthYear month reference.date = point.window.first.year ∧
      point.window.first.month = month := by
  obtain ⟨other, hother, hwindow⟩ := h.bare hkind
  obtain rfl := Option.some.inj (hmonth.symm.trans hother)
  obtain ⟨hyear, hfirst, _⟩ := (monthWindow_spec hwindow).1
  exact ⟨hyear.symm, hfirst⟩

section Fits

variable (hpoints : findPoints env text reference = .ok points)
  (hlist : YearedList env text points listed year)

include hpoints hlist

/-- The end of a range that begins in a list is in the list, and keeps its own window. -/
theorem Borrows.end_spec {first second : Point} (h : Borrows env text points first second)
    (hfirst : first ∈ listed) : second ∈ listed ∧
      (∀ other, ¬ Borrows env text points second other) ∧
      second.month = some second.window.first.month := by
  have hnodup := findPoints_nodup hpoints
  have hsecond := h.mem hnodup hlist hfirst
  refine ⟨hsecond, fun other hother => ?_, ?_⟩
  · obtain ⟨⟨before, behind, rfl⟩, _⟩ := takenRange_spec h.taken
    obtain ⟨heq, _⟩ := Prod.mk.inj (Option.some.inj (h.taken.symm.trans hother.taken))
    exact ne_of_follows hnodup heq.symm
  · obtain ⟨hmem, hkind⟩ := hlist.spec.1 second hsecond
    have hresolved := findPoints_resolvedBy hpoints second hmem
    rcases hkind with hkind | ⟨_, hkind | hkind⟩
    · obtain ⟨month, hmonth, _⟩ := hresolved.bare hkind
      rw [hmonth, (hresolved.bare_year hkind hmonth).2]
    · exact hresolved.written hkind
    · have hdated := h.dated
      rw [hresolved.alone hkind] at hdated
      cases hdated

theorem YearedList.year_range : 1 ≤ year ∧ year ≤ 2099 := by
  obtain @⟨_, _, _, last, _, _, hlast, _⟩ := hlist
  exact ⟨last.window.first.year_pos,
    (findPoints_resolvedBy hpoints last (by simp)).year_le hlast⟩

/-- Where the year fits, every reading of a month of the list is in it. -/
theorem resolvedIn_of_fits (h : YearFits env reference text points listed year) :
    ResolvedIn env text points listed year := by
  have hspec := hlist.spec.1
  -- a month that borrows no year has the last one it fits in, or the year of the list itself
  have hown : ∀ point ∈ listed, (∀ second, ¬ Borrows env text points point second) →
      point.window.first.year = year := by
    intro point hpoint hnot
    obtain ⟨hmem, hkind | hkind⟩ := hspec point hpoint
    · have hresolved := findPoints_resolvedBy hpoints point hmem
      obtain ⟨month, hmonth, _⟩ := hresolved.bare hkind
      have hyear := (hresolved.bare_year hkind hmonth).1
      rw [isLatest_iff.mp (h.latest point hpoint hkind hnot month hmonth)] at hyear
      exact (Int.ofNat_inj.mp hyear).symm
    · exact hkind.1
  intro point hpoint place window hplace hread
  have hmem := (hspec point hpoint).1
  cases hread with
  | @own other hother hnot =>
    obtain rfl := eq_of_holds hpoints hmem hother hplace
    exact hown other hpoint hnot
  | @borrowed first second window hborrows hwindow =>
    -- the first month of a range is in the year of its end, if it does not come after it
    obtain ⟨⟨before, behind, hsplit⟩, _⟩ := takenRange_spec hborrows.taken
    obtain rfl := eq_of_holds hpoints hmem (by rw [hsplit]; simp) hplace
    obtain ⟨hsecond, hnot, hnext⟩ := hborrows.end_spec hpoints hlist hpoint
    have hresolved := findPoints_resolvedBy hpoints first hmem
    obtain ⟨month, hmonth, _⟩ := hresolved.bare hborrows.bare
    rw [borrowedWindow_year hborrows.bare hmonth hborrows.dated hwindow,
      if_pos (h.ordered first hpoint second hborrows month _ hmonth hnext)]
    exact hown second hsecond hnot
  | @paired first month next _ _ htogether hwindow =>
    -- and of two months read together the first one is in the last year it fits in
    have hfirst := findPoints_resolvedBy hpoints first (List.mem_of_find?_eq_some htogether.single)
    have hyear := (hfirst.bare_year htogether.bare htogether.month_eq).1
    rw [isLatest_iff.mp (h.together first month next _ htogether point hpoint hplace)] at hyear
    have hpaired := (monthWindow_spec hwindow).1.year_eq
    have hpos := (hlist.year_range hpoints).1
    unfold pairedYear at hpaired
    split at hpaired
    · next hle =>
      rw [if_pos hle] at hyear
      omega
    · next hlt =>
      rw [if_neg hlt] at hyear
      omega

/-- Where every reading of a month of the list is in the year, the year fits. -/
theorem fits_of_resolvedIn (h : ResolvedIn env text points listed year) :
    YearFits env reference text points listed year := by
  have hspec := hlist.spec.1
  have hstop : ∀ point ∈ points, point.Holds point.stop :=
    fun point hmem => ⟨(findPoints_spec hpoints point hmem).1.lt, le_rfl⟩
  have hown : ∀ point ∈ listed, (∀ second, ¬ Borrows env text points point second) →
      point.window.first.year = year := fun point hpoint hnot =>
    h point hpoint _ _ (hstop point (hspec point hpoint).1) (.own (hspec point hpoint).1 hnot)
  have hlatest : ∀ point ∈ listed, point.kind = .month →
      (∀ second, ¬ Borrows env text points point second) →
      ∀ month, point.month = some month → IsLatest reference.date month year := by
    intro point hpoint hkind hnot month hmonth
    have hresolved := findPoints_resolvedBy hpoints point (hspec point hpoint).1
    rw [isLatest_iff, (hresolved.bare_year hkind hmonth).1, hown point hpoint hnot]
  refine ⟨hlatest, ?_, ?_⟩
  · intro first hfirst second hborrows month next hmonth hnext
    obtain ⟨_, _, hpair⟩ := takenRange_spec hborrows.taken
    obtain ⟨window, hwindow, _⟩ := closedPair_spec hpair
    obtain ⟨hsecond, hnot, hwindowMonth⟩ := hborrows.end_spec hpoints hlist hfirst
    obtain rfl := Option.some.inj (hnext.symm.trans hwindowMonth)
    have hread := h first hfirst _ _ (hstop first (hspec first hfirst).1)
      (.borrowed hborrows hwindow)
    rw [borrowedWindow_year hborrows.bare hmonth hborrows.dated hwindow,
      hown second hsecond hnot] at hread
    have hpos := (hlist.year_range hpoints).1
    -- a range that would run backwards begins in the year before
    by_contra hlt
    rw [if_neg hlt] at hread
    omega
  · intro first month next stop htogether second hsecond hplace
    have hfirst := findPoints_resolvedBy hpoints first (List.mem_of_find?_eq_some htogether.single)
    have hyear := (hfirst.bare_year htogether.bare htogether.month_eq).1
    obtain ⟨hpos, hle⟩ := hlist.year_range hpoints
    -- a month of the list without a year bounds the year of the reference
    have hnear : reference.date.year ≤ year + 1 := by
      obtain ⟨point, hpoint, hkind⟩ := hlist.spec.2
      obtain ⟨other, hother, _⟩ :=
        (findPoints_resolvedBy hpoints point (hspec point hpoint).1).bare hkind
      have hbound := hlatest point hpoint hkind (not_borrows htogether.closed point) other hother
      unfold IsLatest at hbound
      omega
    have hfirstYear : first.window.first.year ≤ reference.date.year := by
      unfold resolveMonthYear at hyear
      split at hyear <;> omega
    have hrange : 1 ≤ pairedYear first month next ∧ pairedYear first month next ≤ 9998 := by
      have hfirstPos := first.window.first.year_pos
      unfold pairedYear
      split <;> omega
    obtain ⟨window, hwindow⟩ := exists_monthWindow hrange (pairAfter_range htogether.pair)
    have hread := h second hsecond _ _ hplace (.paired htogether hwindow)
    have hpaired := (monthWindow_spec hwindow).1.year_eq
    unfold pairedYear at hpaired
    rw [isLatest_iff, hyear]
    split at hpaired
    · next hmonths =>
      rw [if_pos hmonths]
      omega
    · next hmonths =>
      rw [if_neg hmonths]
      omega

/-- The months of a list are resolved in the year that is written behind the last exactly where
the reference makes it the latest year of every month that is written without it and borrows none,
and no month that is read with another precedes that one. -/
theorem yearedList_iff : ResolvedIn env text points listed year ↔
    YearFits env reference text points listed year :=
  ⟨fits_of_resolvedIn hpoints hlist, resolvedIn_of_fits hpoints hlist⟩

end Fits

end Lists

/-! ### The parser -/

/-- Texts of ASCII letters, digits and spaces. -/
def asciiReading : AnchorEnv where
  alphabet :=
    { word := fun c => c.isAlphanum || c = '_'
      space := isSpace
      digit? := fun c => if c.isDigit then some (c.toNat - 48) else none
      sameLetter := fun l c => l.toLower = c.toLower }
  casefold := List.map Char.toLower

/-- The 15th of June 2000. -/
def midJune2000 : Date := .ofFields 2000 6 15 (Eq.refl true)

/-- Noon of 15 June of a year of this century. -/
def midJune (year : Fin 100) : UtcMoment where
  date :=
    { midJune2000 with
      year := 2000 + year
      year_pos := by omega
      year_le := by omega
      day_le := (by decide : 15 ≤ 30) }
  clock := .ofFields 12 0 0 0 (Eq.refl true)

/-- March 2023. -/
def march2023 : Window :=
  ⟨.ofFields 2023 3 1 (Eq.refl true), .ofFields 2023 4 1 (Eq.refl true), by decide⟩

/-- May 2023. -/
def may2023 : Window :=
  ⟨.ofFields 2023 5 1 (Eq.refl true), .ofFields 2023 6 1 (Eq.refl true), by decide⟩

def july2022 : Window :=
  ⟨.ofFields 2022 7 1 (Eq.refl true), .ofFields 2022 8 1 (Eq.refl true), by decide⟩

def august2023 : Window :=
  ⟨.ofFields 2023 8 1 (Eq.refl true), .ofFields 2023 9 1 (Eq.refl true), by decide⟩

/-- The March of `in March and May 2023`, read in the year 2023. -/
def marchPoint : Point := ⟨3, 8, "March".toList, .month, march2023, some 3⟩

/-- The points of that text. -/
def marchAndMay : List Point :=
  [marchPoint, ⟨13, 21, "May 2023".toList, .monthYear, may2023, some 5⟩]

end AliceBot
