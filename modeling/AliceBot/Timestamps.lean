import AliceBot.Library.Calendar
import AliceBot.Library.DecimalText
import AliceBot.Library.Text

/-!
# Stored timestamps

The SQLite store keeps instants as text and sorts and filters by that text
(`vnext_stores.sqlite.primitives`). Two encoders write into the same columns.

* `utcNowIso` pins six fractional digits.
* `isoOrNone`, for a value handed in, leaves the fraction out when it is zero.

Both end in `Z`, which sorts behind the `.` of a fraction, so a whole second
written by the second encoder sorts behind every later instant of its own
second. `storedText_lt_iff` shows that this is the only disagreement between
the order of the texts and the order of the instants.
-/

namespace AliceBot

open PyLib

/-! ### Values and encoders -/

/-- A `datetime`: naive, or aware of its offset. -/
inductive PyDateTime where
  | naive (date : Date) (clock : Clock)
  | aware (moment : Moment)

/-- `value.replace(tzinfo=UTC)` for a naive value. -/
def PyDateTime.moment : PyDateTime → Moment
  | .naive date clock => ⟨date, clock, 0, by decide, by decide⟩
  | .aware moment => moment

/-- The `value` of a timestamp column: nothing, a `datetime` or a text. -/
inductive TimestampValue where
  | absent
  | datetime (value : PyDateTime)
  | text (value : String)

/-- `astimezone(UTC)` left the years 1 to 9999. -/
inductive TimestampError where
  | overflow
deriving DecidableEq, Repr

/-- The fields of `isoformat` down to the second. -/
def stampFields : List Field :=
  [⟨[], 4⟩, ⟨['-'], 2⟩, ⟨['-'], 2⟩, ⟨['T'], 2⟩, ⟨[':'], 2⟩, ⟨[':'], 2⟩]

/-- The fraction `isoformat` writes. Without `timespec="microseconds"` a zero
fraction is left out. -/
def isoFraction (pinned : Bool) (u : UtcMoment) : List Char :=
  if u.clock.micro = 0 ∧ pinned = false then [] else '.' :: digits 6 u.clock.micro

/-- `isoformat()` in UTC. -/
def isoformat (pinned : Bool) (u : UtcMoment) : String :=
  String.ofList (render stampFields u.fields ++ (isoFraction pinned u ++ "+00:00".toList))

/-- `.isoformat(…).replace("+00:00", "Z")`. -/
def stampText (pinned : Bool) (u : UtcMoment) : String :=
  replaceAll (isoformat pinned u) "+00:00" "Z"

/-- `_utc_now_iso`, at a given reading of the clock. -/
def utcNowIso (now : UtcMoment) : String := stampText true now

/-- `moment.astimezone(UTC).isoformat().replace("+00:00", "Z")`. -/
def utcText (value : PyDateTime) : Except TimestampError String :=
  match value.moment.toUtc with
  | some u => .ok (stampText false u)
  | none => .error .overflow

section Writers

variable (fromisoformat : String → Option PyDateTime)

/-- `_iso_or_none`. A text that is not a timestamp is stored as it is. -/
def isoOrNone : TimestampValue → Except TimestampError (Option String)
  | .absent => .ok none
  | .datetime value => (utcText value).map some
  | .text s =>
    match fromisoformat (replaceAll s "Z" "+00:00") with
    | none => .ok (some s)
    | some parsed => (utcText parsed).map some

/-- `_iso_or_now`. -/
def isoOrNow (value : TimestampValue) (now : UtcMoment) : Except TimestampError String :=
  (isoOrNone fromisoformat value).map fun
    | some text => if text = "" then utcNowIso now else text
    | none => utcNowIso now

/-- One write of an instant through the store's normalisers. -/
inductive StampWrite where
  | isoOrNone (value : TimestampValue)
  | isoOrNow (value : TimestampValue) (now : UtcMoment)
  | utcNowIso (now : UtcMoment)

/-- The instant a value denotes, in microseconds of UTC. -/
def TimestampValue.instant? : TimestampValue → Option Int
  | .absent => none
  | .datetime value => some value.moment.instant
  | .text s => (fromisoformat (replaceAll s "Z" "+00:00")).map fun d => d.moment.instant

/-- The instant a write is about. -/
def StampWrite.instant? : StampWrite → Option Int
  | .isoOrNone value => value.instant? fromisoformat
  | .isoOrNow .absent now => some now.instant
  | .isoOrNow value _ => value.instant? fromisoformat
  | .utcNowIso now => some now.instant

/-- The text a write stores. -/
def StampWrite.stored : StampWrite → Except TimestampError (Option String)
  | .isoOrNone value => AliceBot.isoOrNone fromisoformat value
  | .isoOrNow value now => (AliceBot.isoOrNow fromisoformat value now).map some
  | .utcNowIso now => .ok (some (AliceBot.utcNowIso now))

/-- The write goes through the encoder that pins the fraction: it is the clock
that is written. -/
def StampWrite.pinsFraction : StampWrite → Bool
  | .isoOrNow .absent _ => true
  | .utcNowIso _ => true
  | _ => false

/-! ### The order of the texts -/

/-- The text of an instant, with its suffix in place. -/
theorem stampText_toList (pinned : Bool) (u : UtcMoment) :
    (stampText pinned u).toList =
      render stampFields u.fields ++ (isoFraction pinned u ++ ['Z']) := by
  have hdigit : ∀ n < 10, digitChar n ≠ '+' := by decide
  have hfields : '+' ∉ render stampFields u.fields :=
    notMem_render hdigit (by decide) _
  have hfraction : '+' ∉ isoFraction pinned u := by
    unfold isoFraction
    split
    · exact List.not_mem_nil
    · simpa using notMem_digits hdigit 6 u.clock.micro
  have hsuffix : replaceScan "+00:00".toList "Z".toList "+00:00".toList 0 = ['Z'] := by decide
  change (String.ofList (replaceScan ('+' :: "00:00".toList) "Z".toList _ 0)).toList = _
  simp only [isoformat, String.toList_ofList]
  rw [replaceScan_append hfields, replaceScan_append hfraction]
  exact congrArg (fun suffix => _ ++ (_ ++ suffix)) hsuffix

theorem fits_stampFields (u : UtcMoment) : Fits stampFields u.fields := by
  have h1 := u.date.year_le
  have h2 := u.date.month_le
  have h3 : u.date.day ≤ 31 := by
    refine Nat.le_trans u.date.day_le ?_
    unfold daysInMonth
    split <;> first | omega | (split <;> omega)
  have h4 := u.clock.hour_lt
  have h5 := u.clock.minute_lt
  have h6 := u.clock.second_lt
  simp only [Fits, stampFields, UtcMoment.fields, Date.fields, Clock.fields, List.cons_append,
    List.nil_append, and_true]
  omega

/-- **The order of two texts.** For instants in their order the texts are in
order too, unless the earlier one is a whole second whose fraction was left
out and the later one falls into the same second. -/
theorem stampText_lt_iff {u v : UtcMoment} (h : u.instant < v.instant) (pu pv : Bool) :
    stampText pu u < stampText pv v ↔
      ¬ (u.clock.micro = 0 ∧ u.seconds = v.seconds ∧ pu = false) := by
  have hu := u.instant_eq
  have hv := v.instant_eq
  have humicro := u.clock.micro_lt
  have hvmicro := v.clock.micro_lt
  rw [String.lt_iff_toList_lt, stampText_toList, stampText_toList]
  rcases lt_trichotomy u.seconds v.seconds with hlt | heq | hgt
  · -- an earlier second decides before the fractions are reached
    have htext := render_append_lt (fits_stampFields u) (fits_stampFields v)
      (UtcMoment.fields_lt_of_seconds_lt hlt) (isoFraction pu u ++ ['Z'])
      (isoFraction pv v ++ ['Z'])
    simp only [htext, true_iff]
    rintro ⟨-, heq, -⟩
    omega
  · have hmicro : u.clock.micro < v.clock.micro := by omega
    have hvfraction : isoFraction pv v = '.' :: digits 6 v.clock.micro := by
      rw [isoFraction, if_neg (by omega)]
    rw [UtcMoment.fields_eq_of_seconds_eq heq, hvfraction]
    by_cases hdropped : u.clock.micro = 0 ∧ pu = false
    · -- the suffix is met by the point of the other fraction
      have hback : '.' :: digits 6 v.clock.micro ++ ['Z'] < isoFraction pu u ++ ['Z'] := by
        rw [isoFraction, if_pos hdropped]
        exact List.cons_lt_cons_iff.mpr (.inl (by decide))
      have hback' : render stampFields v.fields ++ ('.' :: digits 6 v.clock.micro ++ ['Z']) <
          render stampFields v.fields ++ (isoFraction pu u ++ ['Z']) := List.append_left_lt hback
      exact iff_of_false (lt_asymm hback') fun hnot => hnot ⟨hdropped.1, heq, hdropped.2⟩
    · have hufraction : isoFraction pu u = '.' :: digits 6 u.clock.micro := by
        rw [isoFraction, if_neg hdropped]
      have htext : isoFraction pu u ++ ['Z'] < '.' :: digits 6 v.clock.micro ++ ['Z'] := by
        rw [hufraction]
        exact List.cons_lt_cons_iff.mpr (.inr ⟨rfl, digits_append_lt hmicro (by omega) _ _⟩)
      simp only [List.append_left_lt htext, true_iff]
      exact fun hall => hdropped ⟨hall.1, hall.2.2⟩
  · omega

/-- A pinned text is the text of one instant. -/
theorem stampText_pinned_inj {u v : UtcMoment} (h : stampText true u = stampText true v) :
    u = v := by
  refine UtcMoment.eq_of_instant_eq ?_
  rcases lt_trichotomy u.instant v.instant with hlt | heq | hgt
  · have hless := (stampText_lt_iff hlt true true).mpr (by simp)
    rw [h] at hless
    exact absurd hless (lt_irrefl _)
  · exact heq
  · have hless := (stampText_lt_iff hgt true true).mpr (by simp)
    rw [h] at hless
    exact absurd hless (lt_irrefl _)

/-- A `datetime` is stored as the text of its instant, without a zero
fraction. -/
theorem utcText_ok {d : PyDateTime} {s : String} (h : utcText d = .ok s) :
    ∃ u : UtcMoment, u.instant = d.moment.instant ∧ s = stampText false u := by
  cases hutc : d.moment.toUtc with
  | none => simp [utcText, hutc] at h
  | some u =>
    simp only [utcText, hutc, Except.ok.injEq] at h
    exact ⟨u, Moment.instant_toUtc hutc, h.symm⟩

/-- A value that denotes an instant is stored as its text. -/
theorem isoOrNone_ok {value : TimestampValue} {t : Int} {result : Option String}
    (ht : value.instant? fromisoformat = some t)
    (h : isoOrNone fromisoformat value = .ok result) :
    ∃ u : UtcMoment, u.instant = t ∧ result = some (stampText false u) := by
  have hdatetime : ∀ d : PyDateTime, d.moment.instant = t →
      (utcText d).map some = .ok result →
      ∃ u : UtcMoment, u.instant = t ∧ result = some (stampText false u) := by
    intro d hd hmap
    cases hutc : utcText d with
    | error e => simp [hutc, Except.map] at hmap
    | ok s =>
      obtain ⟨u, hu, rfl⟩ := utcText_ok hutc
      simp only [hutc, Except.map, Except.ok.injEq] at hmap
      exact ⟨u, hu.trans hd, hmap.symm⟩
  cases value with
  | absent => simp [TimestampValue.instant?] at ht
  | datetime d => exact hdatetime d (Option.some.inj ht) h
  | text s =>
    obtain ⟨d, hparsed, hd⟩ := Option.map_eq_some_iff.mp ht
    rw [isoOrNone, hparsed] at h
    exact hdatetime d hd h

theorem stampText_ne_empty (pinned : Bool) (u : UtcMoment) : stampText pinned u ≠ "" := by
  intro h
  have hlist := congrArg String.toList h
  rw [stampText_toList] at hlist
  simp at hlist

/-- A write that stores a text for an instant stores the text of that instant,
its fraction pinned or not. -/
theorem stored_eq_stampText {w : StampWrite} {t : Int} {s : String}
    (ht : w.instant? fromisoformat = some t)
    (hs : w.stored fromisoformat = .ok (some s)) :
    ∃ u : UtcMoment, u.instant = t ∧ s = stampText w.pinsFraction u := by
  cases w with
  | isoOrNone value =>
    obtain ⟨u, hu, hsome⟩ := isoOrNone_ok fromisoformat ht hs
    exact ⟨u, hu, Option.some.inj hsome⟩
  | utcNowIso now => exact ⟨now, Option.some.inj ht, (Option.some.inj (Except.ok.inj hs)).symm⟩
  | isoOrNow value now =>
    cases hiso : isoOrNone fromisoformat value with
    | error e => simp [StampWrite.stored, isoOrNow, hiso, Except.map] at hs
    | ok result =>
      simp only [StampWrite.stored, isoOrNow, hiso, Except.map, Except.ok.injEq,
        Option.some.injEq] at hs
      by_cases habsent : value = .absent
      · -- the clock is read instead
        subst habsent
        rw [← Except.ok.inj hiso] at hs
        exact ⟨now, Option.some.inj ht, hs.symm⟩
      · have hinstant : value.instant? fromisoformat = some t := by
          cases value with
          | absent => exact absurd rfl habsent
          | datetime d => exact ht
          | text s => exact ht
        have hpins : (StampWrite.isoOrNow value now).pinsFraction = false := by
          cases value with
          | absent => exact absurd rfl habsent
          | datetime d => rfl
          | text s => rfl
        obtain ⟨u, hu, rfl⟩ := isoOrNone_ok fromisoformat hinstant hiso
        simp only [stampText_ne_empty, if_false] at hs
        exact ⟨u, hu, by rw [hpins, hs]⟩

/-- **The stored order, exactly.** The text of the earlier of two instants is
the smaller one, unless the earlier instant is a whole second, was written by
the encoder that leaves a zero fraction out, and the later instant falls into
the same second. -/
theorem storedText_lt_iff (w₁ w₂ : StampWrite) {t₁ t₂ : Int} {s₁ s₂ : String}
    (h₁ : w₁.instant? fromisoformat = some t₁) (h₂ : w₂.instant? fromisoformat = some t₂)
    (hs₁ : w₁.stored fromisoformat = .ok (some s₁))
    (hs₂ : w₂.stored fromisoformat = .ok (some s₂)) (hlt : t₁ < t₂) :
    s₁ < s₂ ↔
      ¬ (t₁ % 1000000 = 0 ∧ t₁ / 1000000 = t₂ / 1000000 ∧ w₁.pinsFraction = false) := by
  obtain ⟨u, rfl, rfl⟩ := stored_eq_stampText fromisoformat h₁ hs₁
  obtain ⟨v, rfl, rfl⟩ := stored_eq_stampText fromisoformat h₂ hs₂
  rw [stampText_lt_iff hlt]
  have hu := u.instant_eq
  have hv := v.instant_eq
  have humicro := u.clock.micro_lt
  have hvmicro := v.clock.micro_lt
  have hwhole : u.instant % 1000000 = 0 ↔ u.clock.micro = 0 := by omega
  have hsecond : u.instant / 1000000 = v.instant / 1000000 ↔ u.seconds = v.seconds := by omega
  rw [hwhole, hsecond]

/-- Noon of the first of July 2026 in UTC, and the next microsecond. -/
def noon : UtcMoment :=
  ⟨.ofFields 2026 7 1 (Eq.refl true), .ofFields 12 0 0 0 (Eq.refl true)⟩

def noonPlusOne : UtcMoment :=
  { noon with clock := { noon.clock with micro := 1, micro_lt := by decide } }

/-- The write of a UTC `datetime` through `_iso_or_none`. -/
def isoWrite (u : UtcMoment) : StampWrite :=
  .isoOrNone (.datetime (.naive u.date u.clock))

theorem storedText_lt_iff_noon :
    stampText true noon < stampText false noonPlusOne ↔
      ¬ (noon.instant % 1000000 = 0 ∧ noon.instant / 1000000 = noonPlusOne.instant / 1000000 ∧
        (StampWrite.utcNowIso noon).pinsFraction = false) :=
  storedText_lt_iff (fun _ => none) (.utcNowIso noon) (isoWrite noonPlusOne) rfl rfl rfl rfl
    (by decide)

/-- The disagreement: an event at noon is stored behind the event of the next
microsecond. -/
theorem noon_stored_behind_next_microsecond :
    noon.instant < noonPlusOne.instant ∧
    (isoWrite noon).instant? (fun _ => none) = some noon.instant ∧
    (isoWrite noonPlusOne).instant? (fun _ => none) = some noonPlusOne.instant ∧
    (isoWrite noon).stored (fun _ => none) = .ok (some "2026-07-01T12:00:00Z") ∧
    (isoWrite noonPlusOne).stored (fun _ => none) = .ok (some "2026-07-01T12:00:00.000001Z") ∧
    ¬ "2026-07-01T12:00:00Z" < "2026-07-01T12:00:00.000001Z" := by
  refine ⟨by decide, by decide +kernel, by decide +kernel, ?_, ?_, by decide⟩
  · decide +kernel
  · decide +kernel

end Writers

end AliceBot
