import AliceBot.MemoryLifecycle
import AliceBot.ServiceCalls

/-!
# The date normalisers

`parse_event_datetime` reads the dates of stored rows, `_valid_to_iso` the end
of a validity window that a caller asks for. Both read ISO-8601 first and then
rewrite what they read into UTC, and both expect the reading to fail, not the
rewriting: `astimezone` raises `OverflowError` where the instant falls outside
the years 1 to 9999, and `except ValueError` lets it through.

So each normaliser keeps its promise exactly on the values whose instant the
calendar has. `Convertible` is that condition, `eventReading` and
`validToReading` are the values the two read.
-/

namespace AliceBot

open PyLib

/-! ### The decorated date form -/

section Decorated

variable (digit? : Char → Option Nat)

/-- At most so many digits from the front, and what is left. -/
def takeDigits : Nat → List Char → List Nat × List Char
  | 0, text => ([], text)
  | _ + 1, [] => ([], [])
  | count + 1, c :: text =>
    match digit? c with
    | some d => (d :: (takeDigits count text).1, (takeDigits count text).2)
    | none => ([], c :: text)

/-- `int` of a string of digits. -/
def intOfDigits (digits : List Nat) : Nat := digits.foldl (fun n d => 10 * n + d) 0

/-- The group `(\d{lo,hi})`. -/
def digitGroup (lo hi : Nat) (text : List Char) : Option (Nat × List Char) :=
  let read := takeDigits digit? hi text
  if lo ≤ read.1.length then some (intOfDigits read.1, read.2) else none

/-- One slash or dash. -/
def dateSeparator : List Char → Option (List Char)
  | '/' :: text | '-' :: text => some text
  | _ => none

/-- `(?:\D+?(\d{1,2}):(\d{2}))?`. The decoration has no digits, so it ends at
the first one. -/
def decoratedTime : List Char → Option (Nat × Nat)
  | [] => none
  | c :: text =>
    if (digit? c).isSome then none
    else match digitGroup digit? 1 2 (text.dropWhile fun c => (digit? c).isNone) with
      | some (hour, ':' :: text) =>
        (digitGroup digit? 2 2 text).map fun minute => (hour, minute.1)
      | _ => none

/-- The groups of the pattern: year, month, day and the time of day. A group of
digits is read as far as it goes: what follows it in the pattern is no digit. -/
def decoratedDate (text : List Char) : Option (Nat × Nat × Nat × Option (Nat × Nat)) := do
  let (year, text) ← digitGroup digit? 4 4 text
  let text ← dateSeparator text
  let (month, text) ← digitGroup digit? 1 2 text
  let text ← dateSeparator text
  let (day, text) ← digitGroup digit? 1 2 text
  pure (year, month, day, decoratedTime digit? text)

/-- `datetime(year, month, day, hour, minute, tzinfo=UTC)`, unless it raises
`ValueError`. -/
def datetimeOf? (year month day hour minute : Nat) : Option UtcMoment := do
  let date ← Date.ofFields? year month day
  if h : hour < 24 ∧ minute < 60 then
    some ⟨date, .atMinute hour minute h.1 h.2⟩
  else none

/-- What `parse_event_datetime` makes of a text that is not ISO-8601. -/
def decoratedDatetime (text : String) : Option UtcMoment :=
  (decoratedDate digit? text.toList).bind fun (year, month, day, time) =>
    match time with
    | some (hour, minute) => datetimeOf? year month day hour minute
    | none => datetimeOf? year month day 0 0

end Decorated

example : decoratedDatetime (fun c => if c.isDigit then some (c.toNat - 48) else none)
    "2023/05/30 (Tue) 02:01" = datetimeOf? 2023 5 30 2 1 := by decide

/-! ### The two normalisers -/

section Normalisers

variable (fromisoformat : String → Option PyDateTime) (digit? : Char → Option Nat)

/-- `_utc`. -/
def utcOf (value : PyDateTime) : Except TimestampError UtcMoment :=
  match value.moment.toUtc with
  | some u => .ok u
  | none => .error .overflow

/-- `parse_event_datetime`. A value that is neither a `datetime` nor a string
is `absent`. -/
def parseEventDatetime : TimestampValue → Except TimestampError (Option UtcMoment)
  | .absent => .ok none
  | .datetime value => (utcOf value).map some
  | .text s =>
    if strip s = "" then .ok none
    else match fromisoformat (replaceAll (strip s) "Z" "+00:00") with
      | some value => (utcOf value).map some
      | none => .ok (decoratedDatetime digit? (strip s))

/-- The `datetime` that `parse_event_datetime` rewrites into UTC, if any. -/
def eventReading : TimestampValue → Option PyDateTime
  | .absent => none
  | .datetime value => some value
  | .text s =>
    if strip s = "" then none else fromisoformat (replaceAll (strip s) "Z" "+00:00")

/-- The `datetime` that `_valid_to_iso` rewrites into UTC, if any. -/
def validToReading : TimestampValue → Option PyDateTime
  | .absent => none
  | .datetime value => some value
  | .text s => fromisoformat (replaceAll s "Z" "+00:00")

/-- The instant falls in the years 1 to 9999 of UTC. -/
def InCalendar (instant : Int) : Prop :=
  86400000000 ≤ instant ∧ instant < 3652060 * 86400000000

/-- What was read, if anything was, is an instant of the calendar. -/
def Convertible (reading : Option PyDateTime) : Prop :=
  ∀ value ∈ reading, InCalendar value.moment.instant

end Normalisers

variable {env : Env}

/-! ### Rewriting into UTC -/

theorem toUtc_eq_none_iff (value : PyDateTime) :
    value.moment.toUtc = none ↔ ¬ InCalendar value.moment.instant := by
  rw [InCalendar, ← Moment.toUtc_isSome_iff, Option.not_isSome_iff_eq_none]

/-- `_utc` returns exactly on the instants of the calendar. -/
theorem utcOf_returns_iff (value : PyDateTime) :
    (∃ u, utcOf value = .ok u) ↔ InCalendar value.moment.instant := by
  rw [← not_iff_not, ← toUtc_eq_none_iff]
  unfold utcOf
  cases value.moment.toUtc with
  | none => simp
  | some u => simp

theorem convertible_none : Convertible none := fun _ h => absurd h (Option.not_mem_none _)

theorem convertible_some (value : PyDateTime) :
    Convertible (some value) ↔ InCalendar value.moment.instant := by
  constructor
  · intro h
    exact h value rfl
  · rintro h _ ⟨⟩
    exact h

/-- `parse_event_datetime` returns exactly where what it read can be rewritten. -/
theorem parseEventDatetime_returns_iff (fromisoformat : String → Option PyDateTime)
    (digit? : Char → Option Nat) (value : TimestampValue) :
    (∃ result, parseEventDatetime fromisoformat digit? value = .ok result) ↔
      Convertible (eventReading fromisoformat value) := by
  -- a moment is returned if it can be rewritten in UTC
  have hread (value : PyDateTime) : (∃ result, (utcOf value).map some = .ok result) ↔
      Convertible (some value) := by
    rw [convertible_some, ← utcOf_returns_iff]
    cases utcOf value with
    | ok u => simp [Except.map]
    | error e => simp [Except.map]
  unfold parseEventDatetime eventReading
  split
  · simp [convertible_none]
  · exact hread _
  · next s =>
    split
    · simp [convertible_none]
    · split
      · next value hvalue => rw [hvalue]; exact hread value
      · next hnone => simp [hnone, convertible_none]

theorem run_toUtcMoment_error {value : PyDateTime} {s t : Store} {e : ServiceError} :
    (toUtcMoment value).run s = .error e t ↔
      ¬ InCalendar value.moment.instant ∧ .python "OverflowError" = e ∧ s = t := by
  rw [toUtcMoment, run_orRaise_error, toUtc_eq_none_iff]

/-- `_valid_to_iso` raises `OverflowError` exactly where what it read cannot be
rewritten. -/
theorem run_validToIso_error {value : TimestampValue} {s t : Store} {e : ServiceError}
    (h : (validToIso env value).run s = .error e t) :
    (∃ message, e = .validation message) ∧ validToReading env.fromisoformat value = none ∨
      e = .python "OverflowError" ∧ ¬ Convertible (validToReading env.fromisoformat value) := by
  unfold validToIso at h
  split at h
  · exact absurd h (by simp [utcNow])
  · next value =>
    obtain ⟨hfar, rfl, -⟩ := run_toUtcMoment_error.mp h
    exact .inr ⟨rfl, mt (convertible_some value).mp hfar⟩
  · next raw =>
    -- a text may be no date at all, which is a validation error
    split at h
    · next hnone =>
      obtain ⟨rfl, -⟩ := run_throw_error.mp h
      exact .inl ⟨⟨_, rfl⟩, hnone⟩
    · next value hvalue =>
      obtain ⟨hfar, rfl, -⟩ := run_toUtcMoment_error.mp h
      refine .inr ⟨rfl, ?_⟩
      rw [validToReading, hvalue]
      exact mt (convertible_some value).mp hfar

theorem run_validToIso_overflow {value : TimestampValue} (s : Store)
    (hfar : ¬ Convertible (validToReading env.fromisoformat value)) :
    (validToIso env value).run s = .error (.python "OverflowError") s := by
  have hthrow (d : PyDateTime) (h : ¬ Convertible (some d)) :
      (toUtcMoment d).run s = .error (.python "OverflowError") s :=
    run_toUtcMoment_error.mpr ⟨mt (convertible_some d).mpr h, rfl, rfl⟩
  cases value with
  | absent => exact absurd convertible_none hfar
  | datetime d => exact hthrow d hfar
  | text raw =>
    rw [validToReading] at hfar
    rw [validToIso]
    cases hread : env.fromisoformat (replaceAll raw "Z" "+00:00") with
    | none => rw [hread] at hfar; exact absurd convertible_none hfar
    | some d => rw [hread] at hfar; exact hthrow d hfar

/-- `_valid_to_iso` returns or raises the validation error exactly where what
it read can be rewritten. -/
theorem validToIso_validates_iff (value : TimestampValue) (s : Store) :
    (∀ e t, (validToIso env value).run s = .error e t → ∃ message, e = .validation message) ↔
      Convertible (validToReading env.fromisoformat value) := by
  constructor
  · intro h
    by_contra hfar
    obtain ⟨message, hmessage⟩ := h _ _ (run_validToIso_overflow s hfar)
    exact absurd hmessage (by simp)
  · intro hnear e t h
    rcases run_validToIso_error h with ⟨hvalidation, -⟩ | ⟨-, hfar⟩
    · exact hvalidation
    · exact absurd hnear hfar

/-! ### Expiry -/

/-- The checks of `expire` that come before the date is read. -/
def expireChecks (env : Env) (identity : Option AgentIdentity) (memoryId reason : String) :
    Service (MemoryRow × String) := do
  let memory ← lockedMemory memoryId
  let _ ← policyCheckedWrite env identity "memory.expire" memory
  let _ ← requireTransition .expire memory.status
  let reasonText ← normalizedText reason "reason"
  pure (memory, reasonText)

/-- What `expire` does with the date. -/
def expireAt (env : Env) (identity : Option AgentIdentity) (memory : MemoryRow)
    (reasonText : String) (validTo : UtcMoment) : Service LifecycleAnswer := do
  let now ← utcNow env
  let updated ← updateMemory env memory.id
    (expirePatch memory validTo now reasonText (actorOf identity)) (actorOf identity)
  reviseMemory memory updated "edited" "agentic_memory_expire" updated.canonicalText reasonText
    (actorOf identity)
  appendMemoryEvent env "agent.memory_expired" (actorOf identity) updated.id
  pure { status := "expired", memory := updated }

/-- `expire` checks, reads the date, and writes. -/
theorem expire_eq (identity : Option AgentIdentity) (memoryId reason : String)
    (validTo : TimestampValue) :
    expire env identity memoryId validTo reason = (do
      let checked ← expireChecks env identity memoryId reason
      let moment ← validToIso env validTo
      expireAt env identity checked.1 checked.2 moment) := by
  simp only [expire, expireChecks, expireAt, bind_assoc, pure_bind]

/-- The error of a date outside the calendar. -/
def IsOverflow (e : ServiceError) : Prop := e = .python "OverflowError"

theorem never_appendEvent (eventType : String) (actor : Actor)
    (targetType targetId : Option String) :
    NeverRaises IsOverflow (appendEvent env eventType actor targetType targetId) :=
  NeverRaises.bind (NeverRaises.modifyGet _) fun _ =>
    NeverRaises.bind (NeverRaises.modifyGet _) fun _ => NeverRaises.modify _

/-- The policy check of a write reads no timestamp of the caller, so it does not
overflow. -/
theorem never_policyCheckedWrite (identity : Option AgentIdentity) (action : String)
    (memory : MemoryRow) :
    NeverRaises IsOverflow (policyCheckedWrite env identity action memory) := by
  have hidentity : NeverRaises IsOverflow (upsertIdentity env identity) := by
    unfold upsertIdentity
    split
    · exact NeverRaises.pure _
    · exact NeverRaises.bind (NeverRaises.modifyGet _) fun _ => never_appendEvent _ _ _ _
  have hevents (decision : PolicyDecision) (targetType targetId : Option String) :
      NeverRaises IsOverflow (appendPolicyEvents env identity decision targetType targetId) := by
    unfold appendPolicyEvents
    split
    · exact NeverRaises.pure _
    · refine NeverRaises.bind (never_appendEvent _ _ _ _) fun _ => ?_
      split
      · exact never_appendEvent _ _ _ _
      · exact never_appendEvent _ _ _ _
      · exact NeverRaises.pure _
  refine NeverRaises.bind hidentity fun _ => NeverRaises.bind (NeverRaises.modifyGet _) fun _ => ?_
  exact NeverRaises.bind (hevents _ _ _) fun _ =>
    NeverRaises.bind (NeverRaises.raiseIf (by simp [IsOverflow])) fun _ => NeverRaises.pure _

theorem never_expireChecks (identity : Option AgentIdentity) (memoryId reason : String) :
    NeverRaises IsOverflow (expireChecks env identity memoryId reason) := by
  have hlocked : NeverRaises IsOverflow (lockedMemory memoryId) :=
    NeverRaises.bind NeverRaises.get fun _ => NeverRaises.orRaise (by simp [IsOverflow])
  have htransition (memory : MemoryRow) :
      NeverRaises IsOverflow (requireTransition .expire memory.status) := by
    unfold requireTransition
    split
    · exact NeverRaises.pure _
    · exact NeverRaises.throw (by simp [IsOverflow])
  have hreason : NeverRaises IsOverflow (normalizedText reason "reason") :=
    NeverRaises.ite (NeverRaises.throw (by simp [IsOverflow])) (NeverRaises.pure _)
  exact NeverRaises.bind hlocked fun _ => NeverRaises.bind (never_policyCheckedWrite _ _ _) fun _ =>
    NeverRaises.bind (htransition _) fun _ => NeverRaises.bind hreason fun _ => NeverRaises.pure _

theorem never_expireAt (identity : Option AgentIdentity) (memory : MemoryRow) (reasonText : String)
    (validTo : UtcMoment) :
    NeverRaises IsOverflow (expireAt env identity memory reasonText validTo) := by
  have hupdate (patch : MemoryPatch) (actor : Actor) :
      NeverRaises IsOverflow (updateMemory env memory.id patch actor) :=
    NeverRaises.bind (NeverRaises.modifyGet _) fun _ =>
      NeverRaises.bind (NeverRaises.modifyGet _) fun _ =>
      NeverRaises.bind NeverRaises.get fun _ =>
      NeverRaises.bind (NeverRaises.orRaise (by simp [IsOverflow])) fun _ =>
      NeverRaises.bind (NeverRaises.raiseIf (by simp [IsOverflow])) fun _ =>
      NeverRaises.bind (NeverRaises.set _) fun _ =>
      NeverRaises.bind (never_appendEvent _ _ _ _) fun _ => NeverRaises.pure _
  exact NeverRaises.bind (NeverRaises.modifyGet _) fun _ => NeverRaises.bind (hupdate _ _) fun _ =>
    NeverRaises.bind (NeverRaises.modify _) fun _ =>
    NeverRaises.bind (never_appendEvent _ _ _ _) fun _ => NeverRaises.pure _

/-- An expiry that passes its checks crashes exactly on a date outside the
calendar, and no other expiry crashes on its date. -/
theorem expire_overflows_iff (identity : Option AgentIdentity) (memoryId reason : String)
    (validTo : TimestampValue) (s : Store) :
    (∃ t, (expire env identity memoryId validTo reason).run s =
        .error (.python "OverflowError") t) ↔
      returned ((expireChecks env identity memoryId reason).run s) = true ∧
        ¬ Convertible (validToReading env.fromisoformat validTo) := by
  rw [expire_eq]
  constructor
  · rintro ⟨t, h⟩
    rcases run_bind_error.mp h with hchecks | ⟨checked, u, hchecks, h⟩
    · exact absurd rfl (never_expireChecks _ _ _ _ _ _ hchecks)
    · refine ⟨by rw [hchecks]; rfl, ?_⟩
      rcases run_bind_error.mp h with hdate | ⟨moment, v, -, h⟩
      · rcases run_validToIso_error hdate with ⟨⟨message, hmessage⟩, -⟩ | ⟨-, hfar⟩
        · exact absurd hmessage (by simp)
        · exact hfar
      · exact absurd rfl (never_expireAt _ _ _ _ _ _ _ h)
  · rintro ⟨hchecks, hfar⟩
    obtain ⟨checked, hchecks⟩ := exists_ok_of_returned hchecks
    -- the date is read in the store that the checks leave
    have hdate := run_validToIso_overflow
      (endState ((expireChecks env identity memoryId reason).run s)) hfar
    exact ⟨_, run_bind_error.mpr (.inr ⟨checked, _, hchecks, run_bind_error.mpr (.inl hdate)⟩)⟩

/-! ### What the normalisers promise -/

/-- No value makes the normalisers raise an error of the language. -/
def NormalisersTotal (env : Env) (digit? : Char → Option Nat) (value : TimestampValue) : Prop :=
  (∃ result, parseEventDatetime env.fromisoformat digit? value = .ok result) ∧
    (∀ s e t, (validToIso env value).run s = .error e t → ∃ message, e = .validation message) ∧
    ∀ identity memoryId reason s t,
      (expire env identity memoryId value reason).run s ≠ .error (.python "OverflowError") t

/-- The normalisers keep their promise exactly on the values they read, if they
read one, as an instant of the years 1 to 9999. -/
theorem normalisers_total_iff (env : Env) (digit? : Char → Option Nat) (value : TimestampValue) :
    NormalisersTotal env digit? value ↔
      Convertible (eventReading env.fromisoformat value) ∧
        Convertible (validToReading env.fromisoformat value) := by
  constructor
  · rintro ⟨hevent, hvalidTo, -⟩
    exact ⟨(parseEventDatetime_returns_iff _ _ _).mp hevent,
      (validToIso_validates_iff value ⟨default, [], [], 0⟩).mp (hvalidTo _)⟩
  · rintro ⟨hevent, hvalidTo⟩
    refine ⟨(parseEventDatetime_returns_iff _ _ _).mpr hevent,
      fun s => (validToIso_validates_iff value s).mpr hvalidTo, fun _ _ _ s t h => ?_⟩
    exact ((expire_overflows_iff _ _ _ _ s).mp ⟨t, h⟩).2 hvalidTo

/-- The first hour of the calendar, told an hour ahead of UTC. -/
def firstHour : PyDateTime :=
  .aware ⟨.ofFields 1 1 1 (Eq.refl true), .ofFields 0 0 0 0 (Eq.refl true), 3600000000,
    by decide, by decide⟩

/-- The reading of one text. -/
def Env.readingFirstHour : Env :=
  { Env.plain with
    fromisoformat := fun text =>
      if text = "0001-01-01T00:00:00+01:00" then some firstHour else none }

/-- A well-formed ISO-8601 text that crashes both normalisers. -/
theorem normalisers_crash : ¬ NormalisersTotal Env.readingFirstHour (fun _ => none)
    (.text "0001-01-01T00:00:00+01:00") := by
  rintro ⟨⟨result, hresult⟩, -⟩
  have hcrash : parseEventDatetime Env.readingFirstHour.fromisoformat (fun _ => none)
      (.text "0001-01-01T00:00:00+01:00") = .error .overflow := by decide
  rw [hcrash] at hresult
  exact absurd hresult (by simp)

end AliceBot
