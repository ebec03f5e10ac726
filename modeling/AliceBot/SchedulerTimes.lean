import AliceBot.Library.Json
import AliceBot.Library.Text
import Mathlib.Data.List.Dedup
import Mathlib.Data.List.Sort
import Mathlib.Order.Fin.Basic

/-!
# When a scheduled workflow runs next

`compute_next_run_at` looks at the dates from today on for the first allowed weekday whose run
time is after now on the wall clock of the zone, and returns the instant of that wall time.

A schedule matches every instant at which the clocks show the run time on an allowed date, so
twice on a date where the clocks go back over it, and once, shifted, on a date where they go
forward over it (`OccursOn`). The scan knows one instant of a date, the earlier one of two.

Clocks of one zone are compared without their offsets. Where the zone has changed its clocks
between now and the run time, the later wall time may be the earlier instant, and the other
way round; and a run time that the clocks show for the second time is not after now where they
have shown it before. `computeNextRunAt_next_iff` says exactly when the answer is the next
matching instant: when no such pair is compared, and the calendar has room for the answer.

The scan itself never comes to its end (`scanDays_ne_noRun`): a weekday comes again within
seven days.
-/

namespace AliceBot

open PyLib

/-! ### Schedules -/

/-- `DAY_NAMES`. -/
def dayNames : List String :=
  ["monday", "tuesday", "wednesday", "thursday", "friday", "saturday", "sunday"]

/-- `WORKFLOW_TYPES`. -/
def workflowTypes : List String :=
  ["daily_brief", "weekly_synthesis", "connection_report", "contradiction_report",
    "open_loop_review", "project_update_scan", "memory_consolidation", "staleness_sweep"]

/-- `DAILY_WORKFLOWS`. -/
def dailyWorkflows : List String := ["daily_brief", "staleness_sweep"]

/-- What a call may raise. -/
inductive ScheduleError where
  | validation (message : String)
  | overflow
deriving DecidableEq

/-- A time of day to the minute. -/
structure TimeOfDay where
  hour : Nat
  minute : Nat
  hour_lt : hour < 24
  minute_lt : minute < 60

/-- What `validate_schedule` returns. -/
inductive Schedule where
  | manual
  | daily (time : TimeOfDay) (days : List (Fin 7)) (hdays : days ≠ [])
  | weekly (time : TimeOfDay) (day : Fin 7)

/-- What reading a schedule leaves to the language: `int(text)` and `text.casefold()`. -/
structure ScheduleEnv where
  int : String → Option Int
  casefold : String → String

section Validation

variable (env : ScheduleEnv)

/-- `_parse_time_of_day`. An hour and a minute in the range of the clock. -/
def parseTimeOfDay (value : Json) : Except ScheduleError TimeOfDay :=
  let failed := .error (.validation "time_of_day must be HH:MM")
  match value with
  | .str text =>
    match text.toList.span (· != ':') with
    | (_, []) => failed
    | (hour, _ :: minute) =>
      -- what follows the first colon is the minute
      match env.int (String.ofList hour), env.int (String.ofList minute) with
      | some hour, some minute =>
        if h : (0 ≤ hour ∧ hour < 24) ∧ 0 ≤ minute ∧ minute < 60 then
          .ok ⟨hour.toNat, minute.toNat, by omega, by omega⟩
        else failed
      | _, _ => failed
  | _ => failed

/-- `_day_index`. A day of the week by its name or its number, Monday first. -/
def dayIndex (value : Json) : Except ScheduleError (Fin 7) :=
  let failed := .error (.validation "day_of_week must be a weekday name or integer 0-6")
  match value with
  | .int n => if h : 0 ≤ n ∧ n ≤ 6 then .ok ⟨n.toNat, by omega⟩ else failed
  | .bool b => .ok (if b then 1 else 0)
  | .str text =>
    match dayNames.idxOf? (strip (env.casefold text)) with
    | some index => if h : index < 7 then .ok ⟨index, h⟩ else failed
    | none => failed
  | _ => failed

/-- The kind of a schedule, with the default of its workflow. -/
def scheduleKind (workflowType : String) (scheduleJson : Dict Json) : Json :=
  let kind := scheduleJson.item "kind"
  if kind.truthy then kind
  else if workflowType ∈ dailyWorkflows then .str "daily"
  else if workflowType = "weekly_synthesis" then .str "weekly"
  else .str "manual"

/-- `sorted(dict.fromkeys(days))`. -/
def sortedDays (days : List (Fin 7)) : List (Fin 7) := days.dedup.insertionSort (· ≤ ·)

theorem sortedDays_ne_nil (day : Fin 7) (days : List (Fin 7)) : sortedDays (day :: days) ≠ [] :=
  List.ne_nil_of_mem ((List.mem_insertionSort _).mpr (List.mem_dedup.mpr List.mem_cons_self))

/-- `validate_schedule`. The schedule a workflow is to have, with the defaults of its
type; what is not understood raises. -/
def validateSchedule (workflowType : String) (scheduleJson : Json) :
    Except ScheduleError Schedule :=
  if workflowType ∉ workflowTypes then
    .error (.validation ("workflow_type must be one of " ++ ", ".intercalate workflowTypes))
  else
    match scheduleJson with
    | .obj fields =>
      if scheduleKind workflowType fields = .str "manual" then .ok .manual
      else if workflowType ∈ dailyWorkflows then do
        -- the brief comes in the morning, the other daily work at night
        let default := if workflowType = "daily_brief" then "08:00" else "03:30"
        let time ← parseTimeOfDay env ((Dict.get? fields "time_of_day").getD (.str default))
        match (Dict.get? fields "days_of_week").getD (.strs dayNames) with
        | .arr (first :: rest) => do
          let day ← dayIndex env first
          let days ← rest.mapM (dayIndex env)
          .ok (.daily time (sortedDays (day :: days)) (sortedDays_ne_nil day days))
        | _ => .error (.validation "days_of_week must be a non-empty list")
      else if workflowType = "weekly_synthesis" then do
        let time ← parseTimeOfDay env ((Dict.get? fields "time_of_day").getD (.str "09:00"))
        let day ← dayIndex env ((Dict.get? fields "day_of_week").getD (.str "monday"))
        .ok (.weekly time day)
      -- a workflow that is neither daily nor weekly runs by hand
      else .ok .manual
    | _ => .error (.validation "schedule_json must be an object")

end Validation

/-! ### Zones -/

/-- A day, in microseconds. -/
def dayMicros : Int := 86400000000

/-- The end of the calendar: instants and wall times are counted from its first midnight. -/
def calendarEnd : Int := 3652059 * dayMicros

/-- A moment of the years 1 to 9999. -/
def OnCalendar (moment : Int) : Prop := 0 ≤ moment ∧ moment < calendarEnd

instance (moment : Int) : Decidable (OnCalendar moment) := inferInstanceAs (Decidable (_ ∧ _))

/-- A zone: the wall time at an instant, and the instant of a wall time, the earlier one of
two (`fold=0`). A wall time that the clocks show is read back. Clocks are never put forward by
more than a day at once, so wall times a day apart do not come in the other order. -/
structure Zone where
  wallAt : Int → Int
  instantOf : Int → Int
  reads : ∀ instant, wallAt (instantOf (wallAt instant)) = wallAt instant ∧
    instantOf (wallAt instant) ≤ instant
  days : ∀ wall later, wall + dayMicros ≤ later → instantOf wall ≤ instantOf later

/-- A zone that changes its clocks once. -/
def Zone.changing (change before after : Int) (hday : after - before ≤ dayMicros) : Zone where
  wallAt instant := instant + if instant < change then before else after
  instantOf wall := wall - if wall < change + max before after then before else after
  reads := by
    intro instant
    constructor <;> (split <;> split <;> (try split) <;> omega)
  days := by
    intro wall later h
    unfold dayMicros at *
    split <;> split <;> omega

/-! ### The scan -/

/-- The microseconds of a time of day. -/
def TimeOfDay.micros (time : TimeOfDay) : Int := (time.hour * 60 + time.minute) * 60000000

/-- The run time of a schedule, and its weekdays. -/
def Schedule.runs : Schedule → Option (TimeOfDay × List (Fin 7))
  | .manual => none
  | .daily time days _ => some (time, days)
  | .weekly time day => some (time, [day])

/-- `candidate_date.weekday()` of a date that is counted from the first Monday. -/
def weekday (date : Int) : Int := date % 7

/-- `datetime.combine(candidate_date, run_time)`. -/
def runAt (time : TimeOfDay) (date : Int) : Int := date * dayMicros + time.micros

/-- `candidate_date.weekday() in allowed_days`. -/
def Allowed (days : List (Fin 7)) (date : Int) : Prop :=
  ∃ day ∈ days, ((day : Nat) : Int) = weekday date

instance (days : List (Fin 7)) (date : Int) : Decidable (Allowed days date) :=
  inferInstanceAs (Decidable (∃ day ∈ days, _))

/-- The loop of `compute_next_run_at`, from an offset on. -/
def scanDays (zone : Zone) (time : TimeOfDay) (days : List (Fin 7)) (localNow : Int) :
    Nat → Int → Except ScheduleError Int
  | 0, _ => .error (.validation "could not compute next scheduler run")
  | left + 1, offset =>
    if ¬ OnCalendar (localNow + offset * dayMicros) then .error .overflow
    else
      let date := (localNow + offset * dayMicros) / dayMicros
      if ¬ Allowed days date then scanDays zone time days localNow left (offset + 1)
      else if localNow < runAt time date then
        let next := zone.instantOf (runAt time date)
        if OnCalendar next then .ok next else .error .overflow
      else scanDays zone time days localNow left (offset + 1)

/-- `compute_next_run_at`, its result by the instant. -/
def computeNextRunAt (env : ScheduleEnv) (zoneInfo : String → Option Zone)
    (workflowType : String) (enabled paused : Bool) (scheduleJson : Json) (timezone : String)
    (now : Int) : Except ScheduleError (Option Int) :=
  if enabled = false ∨ paused = true then .ok none
  else
    match validateSchedule env workflowType scheduleJson with
    | .error e => .error e
    | .ok schedule =>
      match schedule.runs with
      | none => .ok none
      | some (time, days) =>
        match zoneInfo timezone with
        | none => .error (.validation "timezone must be a valid IANA timezone")
        | some zone =>
          let localNow := zone.wallAt now
          -- the shift to local time raises at the ends of the calendar
          if ¬ OnCalendar now ∨ ¬ OnCalendar localNow then .error .overflow
          else (scanDays zone time days localNow 8 0).map some

/-! ### What a scan finds -/

section Scan

variable {zone : Zone} {time : TimeOfDay} {days : List (Fin 7)} {now localNow : Int}

/-- A date of the calendar. -/
def InDates (date : Int) : Prop := 0 ≤ date ∧ date < 3652059

/-- An allowed date whose run time is still to come on the wall clock. -/
def Due (time : TimeOfDay) (days : List (Fin 7)) (localNow date : Int) : Prop :=
  Allowed days date ∧ localNow < runAt time date

/-- The instant at which an allowed date runs. -/
def occurrence (zone : Zone) (time : TimeOfDay) (date : Int) : Int :=
  zone.instantOf (runAt time date)

theorem micros_lt (time : TimeOfDay) : 0 ≤ time.micros ∧ time.micros < dayMicros := by
  have hhour := time.hour_lt
  have hminute := time.minute_lt
  unfold TimeOfDay.micros dayMicros
  omega

/-- Later dates do not run earlier. -/
theorem occurrence_mono {date later : Int} (h : date ≤ later) :
    occurrence zone time date ≤ occurrence zone time later := by
  rcases h.eq_or_lt with rfl | hlt
  · exact le_rfl
  · refine zone.days _ _ ?_
    unfold runAt dayMicros
    omega

/-- What is due is not before today. -/
theorem today_le_of_due {date : Int} (h : Due time days localNow date) :
    localNow / dayMicros ≤ date := by
  have htime := micros_lt time
  have hlater := h.2
  unfold runAt at hlater
  unfold dayMicros at *
  omega

theorem date_of_offset (offset : Int) :
    (localNow + offset * dayMicros) / dayMicros = localNow / dayMicros + offset := by
  unfold dayMicros
  omega

theorem onCalendar_offset (h : OnCalendar localNow) {offset : Int} (hoffset : 0 ≤ offset) :
    OnCalendar (localNow + offset * dayMicros) ↔ localNow / dayMicros + offset < 3652059 := by
  unfold OnCalendar calendarEnd dayMicros at *
  omega

/-- Nothing is due at the offsets from one to another. -/
def NoneDue (time : TimeOfDay) (days : List (Fin 7)) (localNow offset last : Int) : Prop :=
  ∀ other, offset ≤ other → other < last → ¬ Due time days localNow (localNow / dayMicros + other)

theorem NoneDue.cons {offset last : Int}
    (hfirst : ¬ Due time days localNow (localNow / dayMicros + offset))
    (h : NoneDue time days localNow (offset + 1) last) :
    NoneDue time days localNow offset last := by
  intro other hle hlt
  rcases hle.eq_or_lt with rfl | hmore
  · exact hfirst
  · exact h other hmore hlt

/-- What the scan may end with. -/
inductive ScanEnds (zone : Zone) (time : TimeOfDay) (days : List (Fin 7)) (localNow : Int)
    (first last : Int) : Except ScheduleError Int → Prop where
  | found {offset : Int} (hfirst : first ≤ offset)
      (hnone : NoneDue time days localNow first offset)
      (hdates : localNow / dayMicros + offset < 3652059)
      (hdue : Due time days localNow (localNow / dayMicros + offset))
      (hroom : OnCalendar (occurrence zone time (localNow / dayMicros + offset))) :
      ScanEnds zone time days localNow first last
        (.ok (occurrence zone time (localNow / dayMicros + offset)))
  | noDate {offset : Int} (hnone : NoneDue time days localNow first offset)
      (hend : 3652059 ≤ localNow / dayMicros + offset) :
      ScanEnds zone time days localNow first last (.error .overflow)
  | noInstant {offset : Int} (hfirst : first ≤ offset)
      (hnone : NoneDue time days localNow first offset)
      (hdue : Due time days localNow (localNow / dayMicros + offset))
      (hroom : ¬ OnCalendar (occurrence zone time (localNow / dayMicros + offset))) :
      ScanEnds zone time days localNow first last (.error .overflow)
  | noRun (hnone : NoneDue time days localNow first last) :
      ScanEnds zone time days localNow first last
        (.error (.validation "could not compute next scheduler run"))

theorem ScanEnds.cons {first last : Int} {result : Except ScheduleError Int}
    (hfirst : ¬ Due time days localNow (localNow / dayMicros + first))
    (h : ScanEnds zone time days localNow (first + 1) last result) :
    ScanEnds zone time days localNow first last result := by
  cases h with
  | found hle hnone hdates hdue hroom =>
    exact .found (by omega) (hnone.cons hfirst) hdates hdue hroom
  | noDate hnone hend => exact .noDate (hnone.cons hfirst) hend
  | noInstant hle hnone hdue hroom => exact .noInstant (by omega) (hnone.cons hfirst) hdue hroom
  | noRun hnone => exact .noRun (hnone.cons hfirst)

variable (zone time days) in
/-- The scan takes the first date that is due. -/
theorem scanEnds_scanDays (h : OnCalendar localNow) (left : Nat) : ∀ offset : Int, 0 ≤ offset →
    ScanEnds zone time days localNow offset (offset + left)
      (scanDays zone time days localNow left offset) := by
  induction left with
  | zero =>
    intro offset _
    refine .noRun fun other hle hlt => ?_
    omega
  | succ left ih =>
    intro offset hoffset
    have hlast : offset + ((left + 1 : Nat) : Int) = offset + 1 + left := by
      push_cast
      omega
    have hlater := ih (offset + 1) (by omega)
    have hnothing : NoneDue time days localNow offset offset := fun other hle hlt => by omega
    rw [scanDays, hlast]
    dsimp only
    rw [date_of_offset]
    -- the date is off the calendar, is not due, has no instant left in it, or is the one
    split
    · next hend =>
      rw [onCalendar_offset h hoffset, not_lt] at hend
      exact .noDate hnothing hend
    next hdates =>
    rw [not_not, onCalendar_offset h hoffset] at hdates
    split
    · next hday => exact ScanEnds.cons (fun hdue => hday hdue.1) hlater
    next hday =>
    split
    · next htime =>
      have hdue : Due time days localNow (localNow / dayMicros + offset) :=
        ⟨not_not.mp hday, htime⟩
      split
      · next hroom => exact .found le_rfl hnothing hdates hdue hroom
      · next hroom => exact .noInstant le_rfl hnothing hdue hroom
    · next htime => exact ScanEnds.cons (fun hdue => htime hdue.2) hlater

variable (time) in
/-- A weekday comes again within seven days, and then its run time is to come. -/
theorem exists_due (hdays : days ≠ []) (localNow : Int) :
    ∃ offset, 0 ≤ offset ∧ offset < 8 ∧
      Due time days localNow (localNow / dayMicros + offset) := by
  obtain ⟨day, hday⟩ := List.exists_mem_of_ne_nil days hdays
  have hlt := day.isLt
  have htime := micros_lt time
  refine ⟨((day : Nat) - localNow / dayMicros - 1) % 7 + 1, by omega, by omega, ⟨day, hday, ?_⟩, ?_⟩
  · unfold weekday
    omega
  · unfold runAt
    unfold dayMicros at *
    omega

variable (zone time) in
/-- The error at the end of the scan is never raised. -/
theorem scanDays_ne_noRun (h : OnCalendar localNow) (hdays : days ≠ []) :
    scanDays zone time days localNow 8 0 ≠
      .error (.validation "could not compute next scheduler run") := by
  intro hresult
  have hends := scanEnds_scanDays zone time days h 8 0 le_rfl
  rw [hresult] at hends
  cases hends with
  | noRun hnone =>
    obtain ⟨offset, hle, hlt, hdue⟩ := exists_due time hdays localNow
    exact hnone offset hle (by omega) hdue

end Scan

/-! ### The next occurrence -/

section Next

variable {zone : Zone} {time : TimeOfDay} {days : List (Fin 7)} {now result : Int}

/-- The instants at which a date runs: those at which the clocks show the run time on that date,
both of them where the clocks go back over it, and where they never show it the one that the wall
time is shifted to. -/
def OccursOn (zone : Zone) (time : TimeOfDay) (date instant : Int) : Prop :=
  zone.wallAt instant = runAt time date ∨
    ((∀ other, zone.wallAt other ≠ runAt time date) ∧ instant = occurrence zone time date)

/-- The schedule matches the instant: it runs then, on an allowed date of the calendar. -/
def Matches (zone : Zone) (time : TimeOfDay) (days : List (Fin 7)) (instant : Int) : Prop :=
  ∃ date, InDates date ∧ Allowed days date ∧ OccursOn zone time date instant

/-- The instant that a wall time is converted to is one at which the date runs. -/
theorem occursOn_occurrence (date : Int) :
    OccursOn zone time date (occurrence zone time date) := by
  by_cases hshown : ∃ other, zone.wallAt other = runAt time date
  · obtain ⟨other, hother⟩ := hshown
    -- a wall time that the clocks show is read back
    have hreads := (zone.reads other).1
    rw [hother] at hreads
    exact .inl hreads
  · exact .inr ⟨fun other hother => hshown ⟨other, hother⟩, rfl⟩

/-- It is the first of them. -/
theorem OccursOn.occurrence_le {date instant : Int} (h : OccursOn zone time date instant) :
    occurrence zone time date ≤ instant := by
  rcases h with hshown | ⟨-, rfl⟩
  · have hreads := (zone.reads instant).2
    rw [hshown] at hreads
    exact hreads
  · exact le_rfl

/-- The next matching instant: none that is after now comes earlier. -/
structure NextOccurrence (zone : Zone) (time : TimeOfDay) (days : List (Fin 7))
    (now result : Int) : Prop where
  later : now < result
  occurs : Matches zone time days result
  first : ∀ instant, Matches zone time days instant → now < instant → result ≤ instant

/-- The clocks agree with the instants about what is to come, and the calendar has room. -/
structure ClocksAgree (zone : Zone) (time : TimeOfDay) (days : List (Fin 7)) (now : Int) :
    Prop where
  now_in : OnCalendar now
  local_in : OnCalendar (zone.wallAt now)
  /-- Some run is to come on the wall clock. -/
  room : ∃ date, InDates date ∧ Due time days (zone.wallAt now) date ∧
    OnCalendar (occurrence zone time date)
  /-- A run that is to come on the wall clock is to come. -/
  ahead : ∀ date, InDates date → Due time days (zone.wallAt now) date →
    now < occurrence zone time date
  /-- A date whose run is past on the wall clock does not run any more, neither for the first
  time nor again, or another one is to come no later. -/
  behind : ∀ date instant, InDates date → Allowed days date → runAt time date ≤ zone.wallAt now →
    OccursOn zone time date instant → now < instant →
    ∃ other, InDates other ∧ Due time days (zone.wallAt now) other ∧
      occurrence zone time other ≤ instant

theorem inDates_today {localNow offset : Int} (h : OnCalendar localNow) (hoffset : 0 ≤ offset)
    (hlt : localNow / dayMicros + offset < 3652059) : InDates (localNow / dayMicros + offset) := by
  refine ⟨?_, hlt⟩
  have hpos := h.1
  unfold dayMicros
  omega

/-- The first date that is due comes before every date that is due. -/
theorem first_due_le {localNow offset date : Int}
    (hnone : NoneDue time days localNow 0 offset) (hdate : Due time days localNow date) :
    localNow / dayMicros + offset ≤ date := by
  by_contra hlt
  have htoday := today_le_of_due hdate
  refine hnone (date - localNow / dayMicros) (by omega) (by omega) ?_
  rwa [show localNow / dayMicros + (date - localNow / dayMicros) = date by omega]

/-- Where the clocks agree, the scan finds the next occurrence. -/
theorem exists_next_of_agree (hagree : ClocksAgree zone time days now) (hdays : days ≠ []) :
    ∃ result, scanDays zone time days (zone.wallAt now) 8 0 = .ok result ∧
      NextOccurrence zone time days now result := by
  have hends := scanEnds_scanDays zone time days hagree.local_in 8 0 le_rfl
  obtain ⟨date, hdate, hdue, hroom⟩ := hagree.room
  cases hscan : scanDays zone time days (zone.wallAt now) 8 0 with
  | error e =>
    rw [hscan] at hends
    cases hends with
    | noDate hnone hend =>
      have hle := first_due_le hnone hdue
      have hlast := hdate.2
      omega
    | noInstant hfirst hnone hfound hoverflow =>
      -- the first run that is due lies between now and the one for which there is room
      have hle := first_due_le hnone hdue
      have hlast := hdate.2
      have hahead := hagree.ahead _ (inDates_today hagree.local_in hfirst (by omega)) hfound
      refine absurd ⟨?_, ?_⟩ hoverflow
      · exact hagree.now_in.1.trans hahead.le
      · exact (occurrence_mono hle).trans_lt hroom.2
    | noRun hnone =>
      obtain ⟨offset, hle, hlt, hfound⟩ := exists_due time hdays (zone.wallAt now)
      exact absurd hfound (hnone offset hle (by omega))
  | ok result =>
    rw [hscan] at hends
    cases hends with
    | found hfirst hnone hlt hfound hin =>
      have hdates := inDates_today hagree.local_in hfirst hlt
      refine ⟨_, rfl, hagree.ahead _ hdates hfound,
        ⟨_, hdates, hfound.1, occursOn_occurrence _⟩, ?_⟩
      rintro instant ⟨other, hother, hallowed, hoccurs⟩ hcoming
      by_cases hwall : zone.wallAt now < runAt time other
      · -- a date that is due does not come before the first one
        calc occurrence zone time (zone.wallAt now / dayMicros + _)
            ≤ occurrence zone time other :=
              occurrence_mono (first_due_le hnone ⟨hallowed, hwall⟩)
          _ ≤ instant := hoccurs.occurrence_le
      · obtain ⟨third, _, hthird, hle⟩ :=
          hagree.behind other instant hother hallowed (not_lt.mp hwall) hoccurs hcoming
        exact (occurrence_mono (first_due_le hnone hthird)).trans hle

/-- Where the scan finds the next occurrence, the clocks agree. -/
theorem agree_of_next (hnow : OnCalendar now) (hlocal : OnCalendar (zone.wallAt now))
    (hscan : scanDays zone time days (zone.wallAt now) 8 0 = .ok result)
    (hnext : NextOccurrence zone time days now result) : ClocksAgree zone time days now := by
  have hends := scanEnds_scanDays zone time days hlocal 8 0 le_rfl
  rw [hscan] at hends
  cases hends with
  | found hfirst hnone hlt hfound hin =>
    have hdates := inDates_today hlocal hfirst hlt
    refine ⟨hnow, hlocal, ⟨_, hdates, hfound, hin⟩, ?_, ?_⟩
    · intro date _ hdue
      exact hnext.later.trans_le (occurrence_mono (first_due_le hnone hdue))
    · intro date instant hdate hallowed _ hoccurs hcoming
      exact ⟨_, hdates, hfound, hnext.first instant ⟨date, hdate, hallowed, hoccurs⟩ hcoming⟩

end Next

theorem Schedule.runs_ne_nil {schedule : Schedule} {time : TimeOfDay} {days : List (Fin 7)}
    (h : schedule.runs = some (time, days)) : days ≠ [] := by
  cases schedule with
  | manual => cases h
  | daily _ _ hdays =>
    obtain ⟨_, rfl⟩ := Prod.mk.inj (Option.some.inj h)
    exact hdays
  | weekly _ day =>
    obtain ⟨_, rfl⟩ := Prod.mk.inj (Option.some.inj h)
    exact List.cons_ne_nil _ _

/-- **The next run is the next matching instant** exactly where the clocks of the zone agree with
the instants, and the scan of eight days never comes to its end. -/
theorem computeNextRunAt_next_iff (env : ScheduleEnv) (zoneInfo : String → Option Zone)
    {workflowType timezone : String} {scheduleJson : Json} {schedule : Schedule}
    {time : TimeOfDay} {days : List (Fin 7)} {zone : Zone} (now : Int)
    (hvalid : validateSchedule env workflowType scheduleJson = .ok schedule)
    (hruns : schedule.runs = some (time, days)) (hzone : zoneInfo timezone = some zone) :
    ((∃ result, computeNextRunAt env zoneInfo workflowType true false scheduleJson timezone now =
        .ok (some result) ∧ NextOccurrence zone time days now result) ↔
      ClocksAgree zone time days now) ∧
    computeNextRunAt env zoneInfo workflowType true false scheduleJson timezone now ≠
      .error (.validation "could not compute next scheduler run") := by
  have hdays := Schedule.runs_ne_nil hruns
  have hcompute : computeNextRunAt env zoneInfo workflowType true false scheduleJson timezone
      now = if ¬ OnCalendar now ∨ ¬ OnCalendar (zone.wallAt now) then .error .overflow
        else (scanDays zone time days (zone.wallAt now) 8 0).map some := by
    rw [computeNextRunAt, if_neg (by decide), hvalid]
    simp only [hruns, hzone]
  rw [hcompute]
  -- off the calendar the call raises, and the clocks do not agree there by definition
  by_cases hin : OnCalendar now ∧ OnCalendar (zone.wallAt now)
  · rw [if_neg (by rw [← not_and_or]; exact not_not.mpr hin)]
    refine ⟨⟨?_, ?_⟩, ?_⟩
    · rintro ⟨result, hresult, hnext⟩
      cases hscan : scanDays zone time days (zone.wallAt now) 8 0 with
      | error e =>
        rw [hscan] at hresult
        cases hresult
      | ok found =>
        rw [hscan] at hresult
        obtain rfl := Option.some.inj (Except.ok.inj hresult)
        exact agree_of_next hin.1 hin.2 hscan hnext
    · intro hagree
      obtain ⟨result, hscan, hnext⟩ := exists_next_of_agree hagree hdays
      exact ⟨result, by rw [hscan]; rfl, hnext⟩
    · have hrun := scanDays_ne_noRun zone time hin.2 hdays
      cases hscan : scanDays zone time days (zone.wallAt now) 8 0 with
      | error e =>
        rw [hscan] at hrun
        intro h
        exact hrun (by rw [Except.error.inj h])
      | ok found => exact fun h => nomatch h
  · rw [if_pos (not_and_or.mp hin)]
    refine ⟨iff_of_false (fun ⟨_, h, _⟩ => nomatch h) fun hagree => hin ⟨hagree.1, hagree.2⟩, ?_⟩
    exact fun h => nomatch h

/-- `int` of plain digits, and text that is in lower case already. -/
def plainSchedules : ScheduleEnv where
  int text :=
    if text ≠ "" ∧ text.toList.all Char.isDigit then
      some (text.toList.foldl (fun n c => 10 * n + ((c.toNat - 48 : Nat) : Int)) 0)
    else none
  casefold text := text

/-- An hour, in microseconds. -/
def hourMicros : Int := 60 * 60000000

/-- A zone west of Greenwich where summer ends at 02:00 on Sunday, 3 November 2024. -/
def autumnZone : Zone :=
  .changing (739192 * dayMicros + 6 * hourMicros) (-4 * hourMicros) (-5 * hourMicros) (by decide)

/-- The same zone, where summer begins at 02:00 on Sunday, 10 March 2024. -/
def springZone : Zone :=
  .changing (738954 * dayMicros + 7 * hourMicros) (-5 * hourMicros) (-4 * hourMicros) (by decide)

/-- On the Sunday the clocks change they agree about a run of every Monday at 09:00. -/
theorem clocksAgree_monday : ClocksAgree autumnZone ⟨9, 0, by decide, by decide⟩ [0]
    (739192 * dayMicros + 6 * hourMicros) := by
  have hmonday : ∀ date, Allowed [0] date → date % 7 = 0 := by
    rintro date ⟨day, hday, hweekday⟩
    rw [List.mem_singleton.mp hday] at hweekday
    exact hweekday.symm
  have hwall : autumnZone.wallAt (739192 * dayMicros + 6 * hourMicros) =
      739192 * dayMicros + hourMicros := by decide
  have htime : TimeOfDay.micros ⟨9, 0, by decide, by decide⟩ = 9 * hourMicros := by decide
  refine ⟨by decide, by decide, ⟨739193, ⟨by decide, by decide⟩, ⟨by decide, by decide⟩, by decide⟩,
    fun date _ hdue => ?_, fun date instant _ hallowed hpast hoccurs hcoming => ?_⟩
  · -- from the Monday on the clocks are those of winter
    have hday := hmonday date hdue.1
    have hlater := hdue.2
    rw [hwall, runAt, htime] at hlater
    unfold occurrence runAt autumnZone Zone.changing
    rw [htime]
    unfold dayMicros hourMicros at *
    dsimp only
    split <;> omega
  · -- the Monday before is over
    have hday := hmonday date hallowed
    rw [hwall, runAt, htime] at hpast
    exfalso
    rcases hoccurs with hshown | ⟨-, rfl⟩
    · rw [runAt, htime] at hshown
      unfold autumnZone Zone.changing at hshown
      unfold dayMicros hourMicros at *
      dsimp only at hshown
      split at hshown <;> omega
    · unfold occurrence runAt autumnZone Zone.changing at hcoming
      rw [htime] at hcoming
      unfold dayMicros hourMicros at *
      dsimp only at hcoming
      split at hcoming <;> omega

/-- The weekly run of that zone, asked for on the Sunday the clocks change, is the next one. -/
theorem weeklyRun_next :
    ∃ result, computeNextRunAt plainSchedules (fun _ => some autumnZone) "weekly_synthesis" true
        false (.obj [("kind", .str "weekly")]) "America/New_York"
        (739192 * dayMicros + 6 * hourMicros) = .ok (some result) ∧
      NextOccurrence autumnZone ⟨9, 0, by decide, by decide⟩ [0]
        (739192 * dayMicros + 6 * hourMicros) result :=
  have hvalid : validateSchedule plainSchedules "weekly_synthesis"
      (.obj [("kind", .str "weekly")]) = .ok (.weekly ⟨9, 0, by decide, by decide⟩ 0) := rfl
  (computeNextRunAt_next_iff plainSchedules (fun _ => some autumnZone) _ hvalid rfl rfl).1.mpr
    clocksAgree_monday

/-- At 01:15, after the clocks went back, the run of 01:30 is taken for one to come, though it
was at 05:30 UTC and now is 06:15 UTC. At 01:45, before they go back, the second 01:30 of that
night is passed over for the one of the next day. At 03:10, after the clocks went forward, the run
of 02:30 that comes at 03:30 is passed over for the one of the next day. -/
theorem clocksChanged_not_next :
    (∃ result, computeNextRunAt plainSchedules (fun _ => some autumnZone) "daily_brief" true false
        (.obj [("time_of_day", .str "01:30")]) "America/New_York"
        (739192 * dayMicros + 6 * hourMicros + 15 * 60000000) = .ok (some result) ∧
      result = 739192 * dayMicros + 5 * hourMicros + 30 * 60000000 ∧
      ¬ NextOccurrence autumnZone ⟨1, 30, by decide, by decide⟩ [0, 1, 2, 3, 4, 5, 6]
        (739192 * dayMicros + 6 * hourMicros + 15 * 60000000) result) ∧
    (∃ result, computeNextRunAt plainSchedules (fun _ => some autumnZone) "daily_brief" true false
        (.obj [("time_of_day", .str "01:30")]) "America/New_York"
        (739192 * dayMicros + 5 * hourMicros + 45 * 60000000) = .ok (some result) ∧
      result = 739193 * dayMicros + 6 * hourMicros + 30 * 60000000 ∧
      ¬ NextOccurrence autumnZone ⟨1, 30, by decide, by decide⟩ [0, 1, 2, 3, 4, 5, 6]
        (739192 * dayMicros + 5 * hourMicros + 45 * 60000000) result) ∧
    ∃ result, computeNextRunAt plainSchedules (fun _ => some springZone) "daily_brief" true false
        (.obj [("time_of_day", .str "02:30")]) "America/New_York"
        (738954 * dayMicros + 7 * hourMicros + 10 * 60000000) = .ok (some result) ∧
      result = 738955 * dayMicros + 6 * hourMicros + 30 * 60000000 ∧
      ¬ NextOccurrence springZone ⟨2, 30, by decide, by decide⟩ [0, 1, 2, 3, 4, 5, 6]
        (738954 * dayMicros + 7 * hourMicros + 10 * 60000000) result := by
  refine ⟨⟨_, by decide +kernel, rfl, fun hnext => ?_⟩,
    ⟨_, by decide +kernel, rfl, fun hnext => ?_⟩, ⟨_, by decide +kernel, rfl, fun hnext => ?_⟩⟩
  · exact absurd hnext.later (by decide)
  · -- the clocks show 01:30 again at 06:30 UTC
    have hagain : Matches autumnZone ⟨1, 30, by decide, by decide⟩ [0, 1, 2, 3, 4, 5, 6]
        (739192 * dayMicros + 6 * hourMicros + 30 * 60000000) :=
      ⟨739192, ⟨by decide, by decide⟩, by decide, .inl (by decide)⟩
    exact absurd (hnext.first _ hagain (by decide)) (by decide)
  · -- the run of the same day is at 07:30 UTC
    have hshifted : Matches springZone ⟨2, 30, by decide, by decide⟩ [0, 1, 2, 3, 4, 5, 6]
        (occurrence springZone ⟨2, 30, by decide, by decide⟩ 738954) :=
      ⟨738954, ⟨by decide, by decide⟩, by decide, occursOn_occurrence _⟩
    exact absurd (hnext.first _ hshifted (by decide)) (by decide)

end AliceBot
