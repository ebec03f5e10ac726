import AliceBot.CaptureDedupe
import AliceBot.ConnectorSync

/-!
# What a sync leaves behind

What a sync that returns has written (`syncItemsFrom_ok`). Its cursor stays
where it was read; or it moves to an imported item, and then every item below
is taken (`ItemTaken`): it lay at or below the cursor that was read, or it is
logged as imported, with a source under the identity of its text. Or the
cursor moves to the safe one, and then every item is taken (`CursorAt`).
Whatever raises on the way leaves sources and events in place, and records no
other cursor (`Quiet`, `RecordsOnly`).

The loop that captures the items carries `SyncLoop`: the items done split into
those before the first failure, which are all taken and which the cursor is
one of, and the rest.
-/

namespace AliceBot

open PyLib

variable {env : ConnectorEnv} {svc : CaptureService}

/-! ### Cursors of numbers -/

section Cursors

theorem toList_toString (n : Nat) : (toString n).toList = Nat.toDigits 10 n := Nat.toList_repr

theorem isDigit_of_mem_toString {n : Nat} {c : Char} (h : c ∈ (toString n).toList) :
    c.isDigit = true := by
  rw [toList_toString] at h
  exact Nat.isDigit_of_mem_toDigits (by omega) (by omega) h

theorem toString_ne_empty (n : Nat) : toString n ≠ "" := Nat.repr_ne_empty

/-- The number of an update is read back from its text. -/
theorem cursorNumber_toString (hlaw : env.Lawful) (n : Nat) :
    cursorNumber env (toString n) = some n := by
  have hfold (l : List Char) (hl : ∀ c ∈ l, c.isDigit = true) (init : Nat) :
      l.foldl (fun n c => 10 * n + (env.digit? c).getD 0) init = Nat.ofDigitChars 10 l init := by
    induction l generalizing init with
    | nil => rfl
    | cons c l ih =>
      rw [List.foldl_cons, Nat.ofDigitChars_cons, hlaw.digit_ascii c (hl c (by simp)),
        ih fun d hd => hl d (by simp [hd])]
      rfl
  have hdigits : ((toString n).toList.all fun c => (env.digit? c).isSome) = true := by
    refine List.all_eq_true.mpr fun c hc => ?_
    rw [hlaw.digit_ascii c (isDigit_of_mem_toString hc)]
    rfl
  rw [cursorNumber, if_pos ⟨toString_ne_empty n, hdigits⟩,
    hfold _ fun c hc => isDigit_of_mem_toString hc, toList_toString,
    Nat.ofDigitChars_ten_toDigits]

theorem cursorLte_toString (hlaw : env.Lawful) (m n : Nat) :
    cursorLte env (toString m) (some (toString n)) = decide (m ≤ n) := by
  simp only [cursorLte, cursorNumber_toString hlaw]

theorem cursorSortKey_toString (hlaw : env.Lawful) (n : Nat) :
    cursorSortKey env (toString n) = toLex (.inl n) := by
  rw [cursorSortKey, cursorNumber_toString hlaw]

theorem cursorSortKey_lt_toString (hlaw : env.Lawful) (m n : Nat) :
    cursorSortKey env (toString m) < cursorSortKey env (toString n) ↔ m < n := by
  rw [cursorSortKey_toString hlaw, cursorSortKey_toString hlaw]
  exact Sum.Lex.inl_lt_inl_iff

theorem storedCursor_toString (n : Nat) : storedCursor (some (toString n)) = some (toString n) := by
  have hspace : ∀ c ∈ (toString n).toList, isSpace c = false := by
    intro c hc
    have hdigit := isDigit_of_mem_toString hc
    simp only [Char.isDigit, Bool.and_eq_true, decide_eq_true_eq] at hdigit
    have hlow : 48 ≤ c.toNat := hdigit.1
    have hhigh : c.toNat ≤ 57 := hdigit.2
    simp only [isSpace, List.mem_cons, List.not_mem_nil, or_false, decide_eq_false_iff_not]
    omega
  have hstrip : strip (toString n) = toString n := strip_of_noSpace hspace
  simp only [storedCursor, Json.optStr, asOptionalText, hstrip, toString_ne_empty, if_false]

end Cursors

/-! ### What a capture leaves -/

section Captures

variable {cenv : CaptureEnv} {input : SourceCaptureInput} {keys : CaptureKeys} {s t : CaptureStore}

/-- A source stored under the identity of a request. -/
def HoldsIdentity (keys : CaptureKeys) (source : SourceRow) : Prop :=
  source.dedupeKey = some keys.dedupeKey ∨ source.contentHash ∈ keys.hashes

theorem compatibleSource_holds {source : SourceRow}
    (h : s.compatibleSource cenv keys input = some source) :
    source ∈ s.sources.rows ∧ HoldsIdentity keys source := by
  refine ⟨(List.mem_filter.mp (compatibleSource_some h).1).1, ?_⟩
  rw [CaptureStore.compatibleSource] at h
  split at h
  · next found hfound =>
    obtain rfl := Option.some.inj h
    obtain ⟨hselected, -⟩ := Option.filter_eq_some_iff.mp hfound
    have hkey := (mem_selectSources.mp (List.mem_of_mem_head? hselected)).2
    exact .inl (eq_of_beq hkey)
  · obtain ⟨contentHash, hhash, hfind⟩ := List.exists_of_findSome?_eq_some h
    have hrow := (mem_selectSources.mp (List.mem_of_find?_eq_some hfind)).2
    rw [HoldsIdentity, eq_of_beq hrow]
    exact .inr hhash

/-- The rows stay where they are. -/
def SourcesGrow (s t : CaptureStore) : Prop := ∀ row ∈ s.sources.rows, row ∈ t.sources.rows

theorem sourcesGrow_of_insert {row : SourceRow} (h : s.sources.insert? row = some t.sources) :
    SourcesGrow s t ∧ row ∈ t.sources.rows := by
  have hrows := (Table.insert?_eq_some_iff.mp h).2
  refine ⟨fun other hother => ?_, ?_⟩
  · rw [hrows]
    exact List.mem_append_left _ hother
  · rw [hrows]
    exact List.mem_append_right _ (List.mem_singleton_self row)

theorem captureSource_grows (input : SourceCaptureInput) :
    Moves SourcesGrow (captureSource cenv svc input) := by
  intro s
  have hends := captureSource_ends cenv svc input s
  rw [MovesAt]
  generalize (captureSource cenv svc input).run s = result at hends
  cases hends with
  | imported _ _ hinsert _ _ => exact (sourcesGrow_of_insert hinsert).1
  | broken _ _ hinsert => exact (sourcesGrow_of_insert hinsert).1
  | kept _ hsources _ =>
    intro row hrow
    rw [hsources]
    exact hrow

/-- A row that was there when the source was to be inserted holds its key. -/
theorem getOrCreateSource_existing {winner : SourceRow}
    (h : (getOrCreateSource cenv (sourceRecord cenv svc input keys)).run s =
      .ok (winner, false) t) :
    winner ∈ s.sources.rows ∧ winner.dedupeKey = some keys.dedupeKey := by
  obtain ⟨-, hrun⟩ := run_storeCall_ok.mp h
  obtain ⟨row, u, hraising, hrun⟩ := run_bind_ok.mp hrun
  obtain ⟨hrecord, rfl⟩ := run_raising_ok.mp hraising
  obtain ⟨v₁, v₂, hget, hrun⟩ := run_bind_ok.mp hrun
  obtain ⟨rfl, rfl⟩ := run_get_ok.mp hget
  obtain ⟨_, v, hchecks, hrun⟩ := run_bind_ok.mp hrun
  obtain ⟨-, rfl⟩ := run_raiseIf_ok.mp hchecks
  have hrow : sourceRecord cenv svc input keys (cenv.uuid s.ticks) (cenv.now s.ticks) =
      .ok row := by
    cases hresult : sourceRecord cenv svc input keys (cenv.uuid s.ticks) (cenv.now s.ticks) with
    | ok made =>
      rw [hresult] at hrecord
      exact congrArg Except.ok (Except.ok.inj hrecord)
    | error e =>
      rw [hresult] at hrecord
      cases hrecord
  split at hrun
  · next found hfound =>
    obtain ⟨_, w, -, hpure⟩ := run_bind_ok.mp hrun
    obtain ⟨hpair, -⟩ := run_pure_ok.mp hpure
    obtain ⟨rfl, -⟩ := Prod.mk.inj hpair
    obtain ⟨hlive, hkey⟩ := mem_selectSources.mp (List.mem_of_mem_head? hfound)
    refine ⟨(List.mem_filter.mp hlive).1, ?_⟩
    exact (of_decide_eq_true hkey).trans (sourceRecord_dedupeKey hrow)
  · -- a row that was created answers so
    obtain ⟨sources, w₁, -, hrun⟩ := run_bind_ok.mp hrun
    obtain ⟨_, w₂, -, hrun⟩ := run_bind_ok.mp hrun
    obtain ⟨_, w₃, -, hpure⟩ := run_bind_ok.mp hrun
    obtain ⟨hpair, -⟩ := run_pure_ok.mp hpure
    exact absurd (Prod.mk.inj hpair).2 (by simp)

/-- A claim that answers a duplicate answers a source of the identity. -/
theorem claimSource_duplicate {sourceId : String}
    (h : (claimSource cenv svc input keys).run s = .ok (.duplicate sourceId) t) :
    ∃ source ∈ s.sources.rows, source.id = sourceId ∧ HoldsIdentity keys source := by
  obtain ⟨found, u, hfind, h⟩ := run_bind_ok.mp h
  obtain ⟨hfound, hsources, -, -⟩ := findCompatibleSource_ok hfind
  cases found with
  | some source =>
    -- found before the insert
    obtain ⟨_, v, -, hpure⟩ := run_bind_ok.mp h
    obtain ⟨hanswer, -⟩ := run_pure_ok.mp hpure
    obtain ⟨hmem, hholds⟩ := compatibleSource_holds hfound.symm
    exact ⟨source, hmem, Claim.duplicate.inj hanswer, hholds⟩
  | none =>
    obtain ⟨⟨winner, created⟩, v, hinsert, h⟩ := run_bind_ok.mp h
    -- or by the insert itself, which lost to the row of another call
    cases created with
    | true =>
      obtain ⟨hanswer, -⟩ := run_pure_ok.mp h
      cases hanswer
    | false =>
      obtain ⟨_, w, -, h⟩ := run_bind_ok.mp h
      obtain ⟨_, x, -, hpure⟩ := run_bind_ok.mp h
      obtain ⟨hanswer, -⟩ := run_pure_ok.mp hpure
      obtain ⟨hmem, hkey⟩ := getOrCreateSource_existing hinsert
      rw [hsources] at hmem
      exact ⟨winner, hmem, Claim.duplicate.inj hanswer, .inl hkey⟩

/-- A capture that returns did not reach its handler. -/
theorem captureBody_of_captureSource {result : CaptureResult}
    (h : (captureSource cenv svc input).run s = .ok result t) :
    (captureBody cenv svc input).run s = .ok result t := by
  rw [captureSource] at h
  rcases run_catching_ok.mp h with hbody | ⟨e, u, -, hhandler⟩
  · exact hbody
  · obtain ⟨_, v, -, hthrow⟩ := run_bind_ok.mp hhandler
    exact (run_throw_ok.mp hthrow).elim

/-- A capture that returns answers a source of the identity asked for. -/
theorem captureSource_holds {result : CaptureResult}
    (h : (captureSource cenv svc input).run s = .ok result t) :
    ∃ keys, captureKeys cenv input = some keys ∧
      ∃ source ∈ t.sources.rows, source.id = result.sourceId ∧ HoldsIdentity keys source := by
  have hgrow : SourcesGrow s t := (captureSource_grows input).ok h
  have hbody := captureBody_of_captureSource h
  rw [captureBody] at hbody
  obtain ⟨keys, u, hkeys, hbody⟩ := run_bind_ok.mp hbody
  obtain ⟨hsome, rfl⟩ := run_orRaise_ok.mp hkeys
  obtain ⟨claim, v, hclaim, hbody⟩ := run_bind_ok.mp hbody
  refine ⟨keys, hsome, ?_⟩
  -- a duplicate answers the source it was found by, a new one its own
  cases claim with
  | duplicate sourceId =>
    obtain ⟨hresult, -⟩ := run_pure_ok.mp hbody
    obtain ⟨source, hmem, hid, hholds⟩ := claimSource_duplicate hclaim
    refine ⟨source, hgrow source hmem, ?_, hholds⟩
    rw [← hresult]
    exact hid
  | created row =>
    have hfill : (fillSource cenv svc input keys row).run v = .ok result t := hbody
    have hends : ClaimEnds cenv svc input keys s ((claimSource cenv svc input keys).run s) :=
      claimSource_ends hsome s
    rw [hclaim] at hends
    obtain ⟨-, hsources, hid, -⟩ := (fillSource_returnsIff cenv svc input keys row v).post hfill
    cases hends with
    | created hinserts _ hinsert _ _ =>
      refine ⟨row, ?_, hid.symm, .inl (sourceRecord_dedupeKey hinserts.insertable.record_eq)⟩
      rw [hsources]
      exact (sourcesGrow_of_insert hinsert).2
    | kept _ _ hanswer => exact absurd rfl (hanswer row v)

end Captures

/-! ### What a store call leaves -/

variable {s t : ConnectorStore}

/-- A cursor that `get_cursor` may answer. -/
def ConnectorStore.Recorded (s : ConnectorStore) (cursor : String) : Prop :=
  (∃ row, s.state = some row ∧ row.cursorValue = some cursor) ∨
    ∃ event ∈ s.events, event.eventType = "connector.sync_completed" ∧
      event.syncCursor = some cursor

/-- Sources and events stay. -/
structure ConnectorStore.Grows (s t : ConnectorStore) : Prop where
  sources : ∀ row ∈ s.captured.sources.rows, row ∈ t.captured.sources.rows
  events : ∀ event ∈ s.events, event ∈ t.events

/-- Sources and events stay, and no cursor is recorded. -/
structure ConnectorStore.Quiet (s t : ConnectorStore) : Prop extends s.Grows t where
  cursors : ∀ cursor, t.Recorded cursor → s.Recorded cursor

open ConnectorStore

theorem ConnectorStore.Grows.trans {u : ConnectorStore} (h : Grows s t) (h' : Grows t u) :
    Grows s u :=
  ⟨fun row hrow => h'.sources row (h.sources row hrow),
    fun event hevent => h'.events event (h.events event hevent)⟩

theorem ConnectorStore.Quiet.trans {u : ConnectorStore} (h : Quiet s t) (h' : Quiet t u) :
    Quiet s u :=
  ⟨h.toGrows.trans h'.toGrows, fun c hc => h.cursors c (h'.cursors c hc)⟩

instance : Std.Refl Quiet := ⟨fun _ => ⟨⟨fun _ h => h, fun _ h => h⟩, fun _ h => h⟩⟩

instance : IsTrans ConnectorStore Quiet := ⟨fun _ _ _ h h' => h.trans h'⟩

/-- Nothing beside the captures changes. -/
theorem quiet_captured {captured : CaptureStore}
    (h : SourcesGrow s.captured captured) : Quiet s { s with captured := captured } :=
  ⟨⟨h, fun _ hevent => hevent⟩, fun _ hcursor => hcursor⟩

theorem ofCapture_quiet {α : Type} {m : Capture α} (hm : Moves SourcesGrow m) :
    Moves Quiet (ofCapture m) :=
  zoom_moves hm fun _ _ h => quiet_captured h

theorem ofCapture_ok {α : Type} {m : Capture α} {a : α} :
    (ofCapture m).run s = .ok a t ↔
      ∃ captured, m.run s.captured = .ok a captured ∧ { s with captured := captured } = t :=
  run_zoom_ok

theorem takeTick_quiet : Moves Quiet takeTick :=
  ofCapture_quiet (Moves.modifyGet fun _ _ hrow => hrow)

theorem takeTick_ok {n : Nat} (h : takeTick.run s = .ok n t) :
    t.events = s.events ∧ t.state = s.state ∧ t.captured.sources = s.captured.sources := by
  rw [takeTick] at h
  obtain ⟨captured, hpart, rfl⟩ := ofCapture_ok.mp h
  obtain ⟨-, rfl⟩ := run_modifyGet_ok.mp hpart
  exact ⟨rfl, rfl, rfl⟩

theorem connectorCall_quiet {α : Type} {m : Nat → Connector α} (hm : ∀ n, Moves Quiet (m n)) :
    Moves Quiet (connectorCall env m) := by
  refine Moves.bind takeTick_quiet fun n => ?_
  cases env.capture.fault n with
  | none => exact hm n
  | some kind =>
    cases kind with
    | before => exact Moves.throw _
    | after => exact Moves.bind (hm n) fun _ => Moves.throw _

theorem connectorCall_ok {α : Type} {m : Nat → Connector α} {a : α}
    (h : (connectorCall env m).run s = .ok a t) :
    ∃ n u, takeTick.run s = .ok n u ∧ (m n).run u = .ok a t := by
  obtain ⟨n, u, htick, h⟩ := run_bind_ok.mp h
  refine ⟨n, u, htick, ?_⟩
  cases hfault : env.capture.fault n with
  | none =>
    rw [hfault] at h
    exact h
  | some kind =>
    rw [hfault] at h
    cases kind with
    | before => exact (run_throw_ok.mp h).elim
    | after =>
      obtain ⟨_, v, -, hthrow⟩ := run_bind_ok.mp h
      exact (run_throw_ok.mp hthrow).elim

theorem quiet_event {event : ConnectorEvent} (h : event.eventType ≠ "connector.sync_completed") :
    Quiet s { s with events := s.events ++ [event] } := by
  refine ⟨⟨fun _ hrow => hrow, fun other hother => List.mem_append_left _ hother⟩, ?_⟩
  rintro cursor (hstate | ⟨other, hother, htype, hcursor⟩)
  · exact .inl hstate
  · rcases List.mem_append.mp hother with hold | hnew
    · exact .inr ⟨other, hold, htype, hcursor⟩
    · obtain rfl := List.mem_singleton.mp hnew
      exact absurd htype h

section Events

variable {eventType : String} {externalId syncCursor sourceId : Option String}

theorem logConnectorEvent_quiet (h : eventType ≠ "connector.sync_completed") :
    Moves Quiet (logConnectorEvent env eventType externalId syncCursor sourceId) :=
  connectorCall_quiet fun _ => Moves.modify fun _ => quiet_event h

/-- An event that was logged is the last one. -/
theorem logConnectorEvent_ok {u : Unit}
    (h : (logConnectorEvent env eventType externalId syncCursor sourceId).run s = .ok u t) :
    ∃ event, event.eventType = eventType ∧ event.externalId = externalId ∧
      event.syncCursor = syncCursor ∧ event.sourceId = sourceId ∧
      t.events = s.events ++ [event] ∧ t.state = s.state ∧
      t.captured.sources = s.captured.sources := by
  obtain ⟨n, v, htick, hlog⟩ := connectorCall_ok h
  obtain ⟨hevents, hstate, hsources⟩ := takeTick_ok htick
  obtain rfl := run_modify_ok.mp hlog
  refine ⟨⟨env.capture.uuid n, eventType, utcNowIso (env.capture.now n), externalId, syncCursor,
    sourceId⟩, rfl, rfl, rfl, rfl, ?_, hstate, hsources⟩
  rw [← hevents]

end Events

section Reads

variable {α : Type} {f : ConnectorStore → α}

theorem storeRead_quiet : Moves Quiet (connectorCall env fun _ => do return f (← get)) :=
  connectorCall_quiet fun _ => Moves.bind Moves.get fun _ => Moves.pure _

theorem storeRead_ok {a : α}
    (h : (connectorCall env fun _ => do return f (← get)).run s = .ok a t) :
    a = f t ∧ t.events = s.events ∧ t.state = s.state := by
  obtain ⟨n, u, htick, hread⟩ := connectorCall_ok h
  obtain ⟨hevents, hstate, -⟩ := takeTick_ok htick
  obtain ⟨v₁, v₂, hget, hpure⟩ := run_bind_ok.mp hread
  obtain ⟨rfl, rfl⟩ := run_get_ok.mp hget
  obtain ⟨rfl, rfl⟩ := run_pure_ok.mp hpure
  exact ⟨rfl, hevents, hstate⟩

end Reads

theorem readState_quiet : Moves Quiet (readState env) := by
  unfold readState
  split
  · exact storeRead_quiet
  · exact Moves.pure _

theorem readState_ok {row : Option ConnectorStateRow} (h : (readState env).run s = .ok row t) :
    (row = none ∨ row = s.state) ∧ t.events = s.events := by
  unfold readState at h
  split at h
  · obtain ⟨hrow, hevents, hstate⟩ := storeRead_ok h
    rw [hstate] at hrow
    exact ⟨.inr hrow, hevents⟩
  · obtain ⟨rfl, rfl⟩ := run_pure_ok.mp h
    exact ⟨.inl rfl, rfl⟩

theorem storedCursor_some {raw : Option String} {cursor : String}
    (h : storedCursor raw = some cursor) : ∃ text, raw = some text := by
  cases raw with
  | none => cases h
  | some text => exact ⟨text, rfl⟩

/-- What `get_cursor` answers was recorded. -/
theorem getCursor_recorded {cursor : String} (h : (getCursor env).run s = .ok (some cursor) t) :
    ∃ raw, s.Recorded raw ∧ storedCursor (some raw) = some cursor := by
  rw [getCursor] at h
  obtain ⟨row, u, hrow, h⟩ := run_bind_ok.mp h
  obtain ⟨hrow, hevents⟩ := readState_ok hrow
  cases hcursor : row.bind fun row => storedCursor row.cursorValue with
  | some answer =>
    -- the row has a cursor
    rw [hcursor] at h
    obtain ⟨hanswer, -⟩ := run_pure_ok.mp h
    obtain rfl := Option.some.inj hanswer
    obtain ⟨stored, hstored, hvalue⟩ := Option.bind_eq_some_iff.mp hcursor
    obtain ⟨raw, hraw⟩ := storedCursor_some hvalue
    rw [hraw] at hvalue
    rcases hrow with rfl | rfl
    · cases hstored
    · exact ⟨raw, .inl ⟨stored, hstored, hraw⟩, hvalue⟩
  | none =>
    -- the latest sync that has one is asked
    rw [hcursor] at h
    obtain ⟨events, v, hcall, hpure⟩ := run_bind_ok.mp h
    obtain ⟨hanswer, -⟩ := run_pure_ok.mp hpure
    obtain ⟨rfl, hsame, -⟩ := storeRead_ok hcall
    obtain ⟨event, hevent, hvalue⟩ := List.exists_of_findSome?_eq_some hanswer
    rw [completedSyncs, List.mem_insertionSort, List.mem_filter, hsame, hevents] at hevent
    obtain ⟨hmem, htype⟩ := hevent
    obtain ⟨raw, hraw⟩ := storedCursor_some hvalue
    rw [hraw] at hvalue
    exact ⟨raw, .inr ⟨event, hmem, of_decide_eq_true htype, hraw⟩, hvalue⟩

theorem getCursor_quiet : Moves Quiet (getCursor env) := by
  refine Moves.bind readState_quiet fun row => ?_
  cases row.bind fun row => storedCursor row.cursorValue with
  | some cursor => exact Moves.pure _
  | none => exact Moves.bind storeRead_quiet fun _ => Moves.pure _

/-! ### The loops -/

section Items

variable {normalize : UtcMoment → Dict Json → Except ConnectorError NormalizedConnectorItem}

/-- What the loop that reads the items leaves. -/
structure ItemsRead (normalize : UtcMoment → Dict Json → Except ConnectorError
    NormalizedConnectorItem) (items : List (Dict Json)) (p p' : SyncProgress)
    (normalized : List NormalizedConnectorItem) : Prop where
  cursor : p'.syncCursor = p.syncCursor
  blocked : p.failureBlockedCursorAdvance = true → p'.failureBlockedCursorAdvance = true
  read : p'.failureBlockedCursorAdvance = false →
    ∀ raw ∈ items, ∃ now item, normalize now raw = .ok item ∧ item ∈ normalized
  origin : ∀ item ∈ normalized, ∃ raw ∈ items, ∃ now, normalize now raw = .ok item

theorem normalizeItems_quiet (items : List (Dict Json)) (index : Nat) (p : SyncProgress) :
    Moves Quiet (normalizeItems env normalize items index p) := by
  induction items generalizing index p with
  | nil => exact Moves.pure _
  | cons raw rest ih =>
    refine Moves.bind (Moves.map _ takeTick_quiet) fun now => ?_
    cases normalize now raw with
    | ok item => exact Moves.bind (ih _ _) fun _ => Moves.pure _
    | error e =>
      exact Moves.bind (logConnectorEvent_quiet (by decide)) fun _ => ih _ _

/-- What is read comes from the items; and unless a failure holds the cursor back, each
of them was read. -/
theorem normalizeItems_ok {items : List (Dict Json)} {index : Nat} {p p' : SyncProgress}
    {normalized : List NormalizedConnectorItem}
    (h : (normalizeItems env normalize items index p).run s = .ok (normalized, p') t) :
    ItemsRead normalize items p p' normalized := by
  induction items generalizing index p s t normalized with
  | nil =>
    obtain ⟨hpair, -⟩ := run_pure_ok.mp h
    obtain ⟨rfl, rfl⟩ := Prod.mk.inj hpair
    exact ⟨rfl, id, fun _ raw hraw => absurd hraw List.not_mem_nil,
      fun item hitem => absurd hitem List.not_mem_nil⟩
  | cons raw rest ih =>
    obtain ⟨now, u, -, h⟩ := run_bind_ok.mp h
    cases hitem : normalize now raw with
    | ok item =>
      rw [hitem] at h
      obtain ⟨⟨later, p₁⟩, v, hlater, hpure⟩ := run_bind_ok.mp h
      obtain ⟨hpair, -⟩ := run_pure_ok.mp hpure
      obtain ⟨rfl, rfl⟩ := Prod.mk.inj hpair
      have hread := ih hlater
      refine ⟨hread.cursor, hread.blocked, fun hopen other hother => ?_, fun other hother => ?_⟩
      · rcases List.mem_cons.mp hother with rfl | hother
        · exact ⟨now, item, hitem, List.mem_cons_self ..⟩
        · obtain ⟨moment, read, hnormal, hmem⟩ := hread.read hopen other hother
          exact ⟨moment, read, hnormal, List.mem_cons_of_mem _ hmem⟩
      · rcases List.mem_cons.mp hother with rfl | hother
        · exact ⟨raw, List.mem_cons_self .., now, hitem⟩
        · obtain ⟨source, hsource, moment, hnormal⟩ := hread.origin other hother
          exact ⟨source, List.mem_cons_of_mem _ hsource, moment, hnormal⟩
    | error e =>
      rw [hitem] at h
      obtain ⟨_, v, -, h⟩ := run_bind_ok.mp h
      have hread := ih h
      -- a failure blocks from the start, whatever the rest reads
      refine ⟨hread.cursor, fun _ => hread.blocked rfl, fun hopen => ?_, fun other hother => ?_⟩
      · rw [hread.blocked rfl] at hopen
        exact absurd hopen (by simp)
      · obtain ⟨source, hsource, moment, hnormal⟩ := hread.origin other hother
        exact ⟨source, List.mem_cons_of_mem _ hsource, moment, hnormal⟩

variable {request : SyncRequest} {previous : Option String}

/-- The import of an item is logged, with a source stored under its identity. -/
def ItemImported (env : ConnectorEnv) (request : SyncRequest) (t : ConnectorStore)
    (item : NormalizedConnectorItem) : Prop :=
  ∃ event ∈ t.events, event.eventType = "connector.item_imported" ∧
    event.syncCursor = some item.cursor ∧
    ∃ source ∈ t.captured.sources.rows, event.sourceId = some source.id ∧
      ∃ keys, captureKeys env.capture (item.captureInput request.domain request.sensitivity) =
        some keys ∧ HoldsIdentity keys source

theorem ItemImported.mono {item : NormalizedConnectorItem} (h : ItemImported env request s item)
    (hgrows : Grows s t) : ItemImported env request t item := by
  obtain ⟨event, hevent, htype, hcursor, source, hsource, hkeys⟩ := h
  exact ⟨event, hgrows.events event hevent, htype, hcursor, source,
    hgrows.sources source hsource, hkeys⟩

/-- An item that was skipped or imported. -/
def ItemTaken (env : ConnectorEnv) (request : SyncRequest) (previous : Option String)
    (t : ConnectorStore) (item : NormalizedConnectorItem) : Prop :=
  cursorLte env item.cursor previous = true ∨ ItemImported env request t item

theorem ItemTaken.mono {item : NormalizedConnectorItem}
    (h : ItemTaken env request previous s item) (hgrows : Grows s t) :
    ItemTaken env request previous t item :=
  h.imp_right fun himported => himported.mono hgrows

theorem tryCapture_quiet (input : SourceCaptureInput) : Moves Quiet (tryCapture env svc input) :=
  Moves.catching (Moves.bind (ofCapture_quiet (captureSource_grows input)) fun _ => Moves.pure _)
    fun _ => Moves.pure _

theorem tryCapture_some {input : SourceCaptureInput} {result : CaptureResult}
    (h : (tryCapture env svc input).run s = .ok (some result) t) :
    ∃ captured, (captureSource env.capture svc input).run s.captured = .ok result captured ∧
      { s with captured := captured } = t := by
  rw [tryCapture] at h
  rcases run_catching_ok.mp h with hcapture | ⟨e, u, -, hnone⟩
  · obtain ⟨answer, u, hrun, hpure⟩ := run_bind_ok.mp hcapture
    obtain ⟨hanswer, rfl⟩ := run_pure_ok.mp hpure
    obtain rfl := Option.some.inj hanswer
    exact ofCapture_ok.mp hrun
  · exact absurd (run_pure_ok.mp hnone).1 (by simp)

theorem syncItem_quiet (p : SyncProgress) (item : NormalizedConnectorItem) :
    Moves Quiet (syncItem env svc request previous p item) := by
  refine Moves.ite (fun _ => Moves.pure _) fun _ => ?_
  refine Moves.bind (tryCapture_quiet _) fun answer => ?_
  cases answer with
  | none => exact Moves.bind (logConnectorEvent_quiet (by decide)) fun _ => Moves.pure _
  | some result => exact Moves.bind (logConnectorEvent_quiet (by decide)) fun _ => Moves.pure _

/-- What the body of the loop does with an item. -/
inductive ItemSynced (env : ConnectorEnv) (request : SyncRequest) (previous : Option String)
    (p : SyncProgress) (item : NormalizedConnectorItem) (t : ConnectorStore) :
    SyncProgress → Prop
  | skipped : cursorLte env item.cursor previous = true →
      ItemSynced env request previous p item t p.itemSkipped
  | failed : ItemSynced env request previous p item t (p.itemFailed item.externalId)
  | imported (result : CaptureResult) : ItemImported env request t item →
      ItemSynced env request previous p item t ((p.itemCounted result).cursorMoved item.cursor)

/-- One item is skipped, fails, or is imported; the cursor moves with an imported one
only. -/
theorem syncItem_ok {p p' : SyncProgress} {item : NormalizedConnectorItem}
    (h : (syncItem env svc request previous p item).run s = .ok p' t) :
    ItemSynced env request previous p item t p' := by
  unfold syncItem at h
  split at h
  · next hlte =>
    obtain ⟨rfl, -⟩ := run_pure_ok.mp h
    exact .skipped hlte
  · obtain ⟨answer, u, htry, h⟩ := run_bind_ok.mp h
    cases answer with
    | none =>
      -- the capture raised: the failure is logged, and the cursor stays
      obtain ⟨_, v, -, hpure⟩ := run_bind_ok.mp h
      obtain ⟨rfl, -⟩ := run_pure_ok.mp hpure
      exact .failed
    | some result =>
      -- the event names the source that the capture answered
      obtain ⟨_, v, hlog, hpure⟩ := run_bind_ok.mp h
      obtain ⟨rfl, rfl⟩ := run_pure_ok.mp hpure
      refine .imported result ?_
      obtain ⟨captured, hrun, rfl⟩ := tryCapture_some htry
      obtain ⟨keys, hkeys, source, hsource, hid, hholds⟩ := captureSource_holds hrun
      obtain ⟨event, htype, -, hcursor, hsourceId, hevents, -, hsources⟩ :=
        logConnectorEvent_ok hlog
      refine ⟨event, ?_, htype, hcursor, source, ?_, ?_, keys, hkeys, hholds⟩
      · rw [hevents]
        exact List.mem_append_right _ (List.mem_singleton_self event)
      · rw [hsources]
        exact hsource
      · rw [hsourceId, hid]

/-- Of the items done, those before the first failure are taken, and the
cursor is where it was or at one of them. -/
structure SyncLoop (env : ConnectorEnv) (request : SyncRequest) (previous : Option String)
    (blocked : Bool) (done : List NormalizedConnectorItem) (p : SyncProgress)
    (t : ConnectorStore) : Prop where
  parts : ∃ taken rest, done = taken ++ rest ∧
    (∀ item ∈ taken, ItemTaken env request previous t item) ∧
    (p.failureBlockedCursorAdvance = false → rest = []) ∧
    (p.syncCursor = previous ∨
      ∃ item ∈ taken, p.syncCursor = some item.cursor ∧ ItemImported env request t item)
  blocked : blocked = true → p.failureBlockedCursorAdvance = true ∧ p.syncCursor = previous

/-- The invariant of the loop over the items, for one item more: the items up to a
failure are taken, and the cursor is the one the sync began with or that of an imported
item. -/
theorem SyncLoop.next {blocked : Bool} {done : List NormalizedConnectorItem}
    {p p' : SyncProgress} {item : NormalizedConnectorItem}
    (hinv : SyncLoop env request previous blocked done p s) (hgrows : Grows s t)
    (hsynced : ItemSynced env request previous p item t p') :
    SyncLoop env request previous blocked (done ++ [item]) p' t := by
  obtain ⟨taken, rest, rfl, htaken, hopen, hcursor⟩ := hinv.parts
  have htaken' : ∀ other ∈ taken, ItemTaken env request previous t other :=
    fun other hother => (htaken other hother).mono hgrows
  have hcursor' : p.syncCursor = previous ∨
      ∃ other ∈ taken, p.syncCursor = some other.cursor ∧ ItemImported env request t other :=
    hcursor.imp_right fun ⟨other, hother, heq, himported⟩ =>
      ⟨other, hother, heq, himported.mono hgrows⟩
  -- behind a failure an item joins the rest
  have hbehind : p.failureBlockedCursorAdvance = true →
      p'.failureBlockedCursorAdvance = true → p'.syncCursor = p.syncCursor →
      SyncLoop env request previous blocked (taken ++ rest ++ [item]) p' t := by
    intro hblocked hblocked' heq
    refine ⟨⟨taken, rest ++ [item], List.append_assoc .., htaken', fun h => ?_, ?_⟩,
      fun h => ⟨hblocked', ?_⟩⟩
    · rw [hblocked'] at h
      exact absurd h (by simp)
    · rw [heq]
      exact hcursor'
    · rw [heq]
      exact (hinv.blocked h).2
  cases hblocked : p.failureBlockedCursorAdvance with
  | true =>
    cases hsynced with
    | skipped hlte => exact hbehind hblocked hblocked rfl
    | failed => exact hbehind hblocked rfl rfl
    | imported result himported =>
      refine hbehind hblocked hblocked ?_
      simp [SyncProgress.cursorMoved, SyncProgress.itemCounted, hblocked]
  | false =>
    -- before the first failure an item is taken, or it is the failure
    obtain rfl := hopen hblocked
    rw [List.append_nil]
    have hnot : ¬ blocked = true := fun h => by
      rw [(hinv.blocked h).1] at hblocked
      exact absurd hblocked (by simp)
    cases hsynced with
    | skipped hlte =>
      refine ⟨⟨taken ++ [item], [], (List.append_nil _).symm, ?_, fun _ => rfl, ?_⟩,
        fun h => absurd h hnot⟩
      · exact List.forall_mem_append.mpr ⟨htaken', List.forall_mem_singleton.mpr (.inl hlte)⟩
      · exact hcursor'.imp_right fun ⟨other, hother, heq, himported⟩ =>
          ⟨other, List.mem_append_left _ hother, heq, himported⟩
    | failed =>
      refine ⟨⟨taken, [item], rfl, htaken', fun h => absurd h (by simp [SyncProgress.itemFailed]),
        hcursor'⟩, fun h => absurd h hnot⟩
    | imported result himported =>
      refine ⟨⟨taken ++ [item], [], (List.append_nil _).symm, ?_, fun _ => rfl, ?_⟩,
        fun h => absurd h hnot⟩
      · exact List.forall_mem_append.mpr
          ⟨htaken', List.forall_mem_singleton.mpr (.inr himported)⟩
      · refine .inr ⟨item, List.mem_append_right _ (List.mem_singleton_self item), ?_, himported⟩
        simp [SyncProgress.cursorMoved, SyncProgress.itemCounted, hblocked]

/-- Where a sync leaves the cursor. -/
inductive CursorAt (env : ConnectorEnv) (normalize : UtcMoment → Dict Json →
    Except ConnectorError NormalizedConnectorItem) (request : SyncRequest)
    (items : List (Dict Json)) (previous : Option String) (t : ConnectorStore) :
    Option String → Prop
  /-- It stays where it was read. -/
  | stays : CursorAt env normalize request items previous t previous
  /-- It is at an imported item, and every item below is taken. -/
  | item {raw : Dict Json} {now : UtcMoment} {item : NormalizedConnectorItem} : raw ∈ items →
      normalize now raw = .ok item → ItemImported env request t item →
      (∀ other ∈ items, ∃ moment read, normalize moment other = .ok read ∧
        (cursorSortKey env read.cursor < cursorSortKey env item.cursor →
          ItemTaken env request previous t read)) →
      CursorAt env normalize request items previous t (some item.cursor)
  /-- It is at the safe cursor, and every item is taken. -/
  | safe {cursor : String} : request.safeCursorOverride = some cursor →
      (∀ other ∈ items, ∃ moment read, normalize moment other = .ok read ∧
        ItemTaken env request previous t read) →
      CursorAt env normalize request items previous t (some cursor)

theorem CursorAt.mono {items : List (Dict Json)} {cursor : Option String}
    (h : CursorAt env normalize request items previous s cursor) (hgrows : Grows s t) :
    CursorAt env normalize request items previous t cursor := by
  cases h with
  | stays => exact .stays
  | item hraw hof himported hbelow =>
    refine .item hraw hof (himported.mono hgrows) fun other hother => ?_
    obtain ⟨moment, read, hreads, htaken⟩ := hbelow other hother
    exact ⟨moment, read, hreads, fun hlt => (htaken hlt).mono hgrows⟩
  | safe hsafe hall =>
    refine .safe hsafe fun other hother => ?_
    obtain ⟨moment, read, hreads, htaken⟩ := hall other hother
    exact ⟨moment, read, hreads, htaken.mono hgrows⟩

section Cursor

variable {items : List (Dict Json)} {p p' p'' : SyncProgress}
  {normalized : List NormalizedConnectorItem}

/-- Where the loop leaves the cursor. -/
theorem SyncLoop.reached (hread : ItemsRead normalize items p p' normalized)
    (hinv : SyncLoop env request previous p'.failureBlockedCursorAdvance
      (normalized.insertionSort fun a b => cursorSortKey env a.cursor ≤ cursorSortKey env b.cursor)
      p'' t) : CursorAt env normalize request items previous t p''.syncCursor := by
  obtain ⟨taken, rest, hsorted, htaken, -, hcursor⟩ := hinv.parts
  have hmem : ∀ item, item ∈ normalized ↔ item ∈ taken ++ rest := by
    intro item
    rw [← hsorted, List.mem_insertionSort]
  rcases hcursor with hstays | ⟨item, hitem, heq, himported⟩
  · rw [hstays]
    exact .stays
  · cases hblocked : p'.failureBlockedCursorAdvance with
    | true =>
      rw [(hinv.blocked hblocked).2]
      exact .stays
    | false =>
      have hnormal : item ∈ normalized := (hmem item).mpr (List.mem_append_left _ hitem)
      obtain ⟨raw, hraw, now, hof⟩ := hread.origin item hnormal
      rw [heq]
      refine .item hraw hof himported fun other hother => ?_
      obtain ⟨moment, read, hreads, hin⟩ := hread.read hblocked other hother
      refine ⟨moment, read, hreads, fun hlt => ?_⟩
      rcases List.mem_append.mp ((hmem read).mp hin) with hfirst | hlater
      · exact htaken read hfirst
      · -- what follows a taken item is not below it
        have hpairs : (taken ++ rest).Pairwise fun a b : NormalizedConnectorItem =>
            cursorSortKey env a.cursor ≤ cursorSortKey env b.cursor := by
          rw [← hsorted]
          exact List.pairwise_insertionSort _ normalized
        have hle := (List.pairwise_append.mp hpairs).2.2 item hitem read hlater
        exact absurd hlt (not_lt_of_ge hle)

/-- Without a failure every item is taken. -/
theorem SyncLoop.allTaken (hread : ItemsRead normalize items p p' normalized)
    (hinv : SyncLoop env request previous p'.failureBlockedCursorAdvance
      (normalized.insertionSort fun a b => cursorSortKey env a.cursor ≤ cursorSortKey env b.cursor)
      p'' t) (hfree : p''.failureBlockedCursorAdvance = false) :
    ∀ other ∈ items, ∃ moment read, normalize moment other = .ok read ∧
      ItemTaken env request previous t read := by
  intro other hother
  obtain ⟨taken, rest, hsorted, htaken, hopen, -⟩ := hinv.parts
  obtain rfl := hopen hfree
  rw [List.append_nil] at hsorted
  have hblocked : p'.failureBlockedCursorAdvance = false := by
    by_contra hblocked
    have hstill := (hinv.blocked ((Bool.not_eq_false _).mp hblocked)).1
    rw [hfree] at hstill
    exact absurd hstill Bool.false_ne_true
  obtain ⟨moment, read, hreads, hin⟩ := hread.read hblocked other hother
  refine ⟨moment, read, hreads, htaken read ?_⟩
  rw [← hsorted, List.mem_insertionSort]
  exact hin

/-- What the loop leaves of the cursor, once the safe cursor is considered. -/
theorem SyncLoop.cursorAt (hread : ItemsRead normalize items p p' normalized)
    (hinv : SyncLoop env request previous p'.failureBlockedCursorAdvance
      (normalized.insertionSort fun a b => cursorSortKey env a.cursor ≤ cursorSortKey env b.cursor)
      p'' t) :
    CursorAt env normalize request items previous t
      (p''.overridden env request.safeCursorOverride).syncCursor := by
  have hreached := hinv.reached hread
  -- the safe cursor is taken if no failure holds the cursor back and it is ahead
  cases hsafe : request.safeCursorOverride with
  | none => exact hreached
  | some safe =>
    cases hblocked : p''.failureBlockedCursorAdvance with
    | true =>
      simp only [SyncProgress.overridden, hblocked, if_true]
      exact hreached
    | false =>
      have hall := hinv.allTaken hread hblocked
      cases hat : p''.syncCursor with
      | none =>
        simp only [SyncProgress.overridden, hblocked, hat]
        exact .safe hsafe hall
      | some cursor =>
        rw [hat] at hreached
        by_cases hlt : cursorSortKey env cursor < cursorSortKey env safe
        · simp only [SyncProgress.overridden, hblocked, hat, hlt, if_true]
          exact .safe hsafe hall
        · simp only [SyncProgress.overridden, hblocked, hat, hlt, if_false]
          exact hreached

end Cursor

/-- What a sync that returns has done. -/
structure Synced (env : ConnectorEnv) (normalize : UtcMoment → Dict Json →
    Except ConnectorError NormalizedConnectorItem) (request : SyncRequest)
    (items : List (Dict Json)) (result : ConnectorSyncResult) (s t : ConnectorStore) : Prop where
  grows : Grows s t
  cursors : ∀ cursor, t.Recorded cursor → s.Recorded cursor ∨ result.syncCursor = some cursor
  cursor : CursorAt env normalize request items result.previousCursor t result.syncCursor

theorem upsertedState_cursor {result : ConnectorSyncResult} {now cursor : String}
    {old : Option ConnectorStateRow}
    (h : (upsertedState result now old).cursorValue = some cursor) :
    (∃ row, old = some row ∧ row.cursorValue = some cursor) ∨ result.syncCursor = some cursor := by
  simp only [upsertedState] at h
  cases hcursor : result.syncCursor with
  | some answer =>
    rw [hcursor] at h
    exact .inr h
  | none =>
    rw [hcursor, Option.none_or] at h
    exact .inl (Option.bind_eq_some_iff.mp h)

/-- At most the cursor of a result is recorded. -/
structure RecordsOnly (cursor : Option String) (s t : ConnectorStore) : Prop extends
    s.Grows t where
  cursors : ∀ c, t.Recorded c → s.Recorded c ∨ cursor = some c

theorem ConnectorStore.Quiet.recordsOnly {cursor : Option String} (h : Quiet s t) :
    RecordsOnly cursor s t :=
  ⟨h.toGrows, fun c hc => .inl (h.cursors c hc)⟩

theorem RecordsOnly.trans {cursor : Option String} {u : ConnectorStore}
    (h : RecordsOnly cursor s t) (h' : RecordsOnly cursor t u) : RecordsOnly cursor s u :=
  ⟨h.toGrows.trans h'.toGrows, fun c hc => (h'.cursors c hc).elim (h.cursors c) .inr⟩

instance {cursor : Option String} : IsTrans ConnectorStore (RecordsOnly cursor) :=
  ⟨fun _ _ _ h h' => h.trans h'⟩

/-- Recording the state of a connector records no cursor but that of the result. -/
theorem recordConnectorState_records (result : ConnectorSyncResult) :
    Moves (RecordsOnly result.syncCursor) (recordConnectorState env result) := by
  have hquiet {α : Type} {m : Connector α} (hm : Moves Quiet m) :
      Moves (RecordsOnly result.syncCursor) m :=
    hm.mono fun _ _ h => h.recordsOnly
  refine Moves.ite (fun _ => Moves.catching ?_ fun _ => ?_) fun _ => hquiet (Moves.pure _)
  · refine Moves.bind (hquiet takeTick_quiet) fun n => ?_
    -- the state is written with the cursor of the result
    have hwrite : Moves (RecordsOnly result.syncCursor) (modify fun s : ConnectorStore =>
        { s with
          state := some (upsertedState result (utcNowIso (env.capture.now n)) s.state) } :
        Connector Unit) := by
      refine Moves.modify fun s => ⟨⟨fun _ h => h, fun _ h => h⟩, ?_⟩
      rintro c (⟨row, hrow, hcursor⟩ | hevent)
      · obtain rfl := Option.some.inj hrow
        exact (upsertedState_cursor hcursor).imp_left .inl
      · exact .inl (.inr hevent)
    -- a write that fails has been made, or has not
    cases env.capture.fault n with
    | none => exact hwrite
    | some kind =>
      cases kind with
      | before => exact hquiet (Moves.throw _)
      | after => exact Moves.bind hwrite fun _ => hquiet (Moves.throw _)
  · exact hquiet (logConnectorEvent_quiet (by decide))

/-- The last event of a sync records at most the cursor of its result. -/
theorem logFinished_records {result : ConnectorSyncResult} {u : Unit}
    (h : (logConnectorEvent env
      (if result.status = "failed" then "connector.sync_failed" else "connector.sync_completed")
      none result.syncCursor none).run s = .ok u t) : RecordsOnly result.syncCursor s t := by
  obtain ⟨event, htype, -, hcursor, -, hevents, hstate, hsources⟩ := logConnectorEvent_ok h
  refine ⟨⟨fun row hrow => ?_, fun other hother => ?_⟩, ?_⟩
  · rw [hsources]
    exact hrow
  · rw [hevents]
    exact List.mem_append_left _ hother
  · rintro c (⟨row, hrow, hvalue⟩ | ⟨other, hother, hdone, hvalue⟩)
    · rw [hstate] at hrow
      exact .inl (.inl ⟨row, hrow, hvalue⟩)
    · rw [hevents] at hother
      rcases List.mem_append.mp hother with hold | hnew
      · exact .inl (.inr ⟨other, hold, hdone, hvalue⟩)
      · obtain rfl := List.mem_singleton.mp hnew
        exact .inr (hcursor.symm.trans hvalue)

variable {readCursor : Connector (Option String)}

/-- A sync that returns has read its cursor before it changed anything, and reports what
it did to its items. -/
theorem syncItemsFrom_ok (hquiet : Moves Quiet readCursor) {items : List (Dict Json)}
    {result : ConnectorSyncResult}
    (h : (syncItemsFrom env svc normalize readCursor request items).run s = .ok result t) :
    Synced env normalize request items result s t ∧
      ∃ u v, readCursor.run u = .ok result.previousCursor v ∧ Quiet s u := by
  obtain ⟨previous, s₁, hread, h⟩ := run_bind_ok.mp h
  obtain ⟨_, s₂, hstarted, h⟩ := run_bind_ok.mp h
  obtain ⟨⟨normalized, p₁⟩, s₃, hnormal, h⟩ := run_bind_ok.mp h
  obtain ⟨p₂, s₄, hloop, h⟩ := run_bind_ok.mp h
  obtain ⟨_, s₅, hfinished, h⟩ := run_bind_ok.mp h
  obtain ⟨_, s₆, hstate, hpure⟩ := run_bind_ok.mp h
  obtain ⟨rfl, rfl⟩ := run_pure_ok.mp hpure
  have hbefore : Quiet s s₃ :=
    calc
      Quiet s s₁ := hquiet.ok hread
      Quiet _ s₂ := (logConnectorEvent_quiet (by decide)).ok hstarted
      Quiet _ s₃ := (normalizeItems_quiet _ _ _).ok hnormal
  have hcursor := (normalizeItems_ok hnormal).cursor
  -- the loop begins with the cursor it was given, and with no item done
  have hstart : Quiet s s₃ ∧
      SyncLoop env request previous p₁.failureBlockedCursorAdvance [] p₁ s₃ :=
    ⟨hbefore, ⟨[], [], rfl, fun _ h => absurd h List.not_mem_nil, fun _ => rfl,
      .inl hcursor⟩, fun hblocked => ⟨hblocked, hcursor⟩⟩
  have hinv := run_foldlM_ok (P := fun done p u => Quiet s u ∧
      SyncLoop env request previous p₁.failureBlockedCursorAdvance done p u)
    (fun done item p u p' v hinv hround => by
      have hstep := (syncItem_quiet p item).ok hround
      exact ⟨hinv.1.trans hstep, hinv.2.next hstep.toGrows (syncItem_ok hround)⟩) hstart hloop
  have hafter := (logFinished_records hfinished).trans
    ((recordConnectorState_records _).ok hstate)
  have hall := hinv.1.recordsOnly.trans hafter
  refine ⟨⟨hall.toGrows, hall.cursors, ?_⟩, s, s₁, hread, Std.Refl.refl s⟩
  refine CursorAt.mono ?_ hafter.toGrows
  exact hinv.2.cursorAt (normalizeItems_ok hnormal)

end Items

end AliceBot
