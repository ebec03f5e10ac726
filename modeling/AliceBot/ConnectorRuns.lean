import AliceBot.ConnectorEvidence
import Mathlib.Logic.Relation

/-!
# No update is lost

Telegram offers updates with growing numbers; clients ask for those behind a
cursor that they have seen and sync them, once or again; the store records a
cursor. The cursor says which updates the next sync skips, so whatever lies at
or below it must be settled.

A request runs in one transaction, which commits when it returns and is rolled
back when it raises. Requests run beside each other: the cursor may be read in
a store that others have written since (`readIn`), and what is then recorded
may lie below what they recorded. A step is a request that commits or that is
rolled back, a capture of another connector, or a new update.

`TelegramStep.inv` is the step lemma: a cursor that was recorded at any time has
passed settled updates only (`Passed`). `skippedUpdate_settled` is what it says
of a run.
-/

namespace AliceBot

open PyLib ConnectorStore

variable {env : ConnectorEnv} {svc : CaptureService} {s t : ConnectorStore}

/-! ### Updates -/

/-- An update Telegram has posted: its number is positive. -/
structure PostedUpdate where
  payload : Dict Json
  number : Nat
  number_pos : 0 < number
  update_id : payload.get? "update_id" = some (.int number)

theorem get?_redactFields (d : Dict Json) (key : String) :
    Dict.get? (redactFields env d) key = (Dict.get? d key).map fun value =>
      if isSecretKey env key then .str "***" else redactSecretFields env value := by
  induction d with
  | nil =>
    rw [redactFields]
    rfl
  | cons item d ih =>
    obtain ⟨k, v⟩ := item
    rw [redactFields, Dict.get?_cons, Dict.get?_cons]
    by_cases hk : k = key
    · rw [if_pos hk, if_pos hk, hk]
      rfl
    · rw [if_neg hk, if_neg hk, ih]

theorem PostedUpdate.item_eq (u : PostedUpdate) :
    u.payload.item "update_id" = .int u.number := by
  rw [Dict.item, u.update_id]
  rfl

theorem telegramUpdateId_posted (u : PostedUpdate) :
    telegramUpdateId env u.payload = some (toString u.number) := by
  have htruthy : (Json.int u.number).truthy = true := by
    have hpos := u.number_pos
    simp only [Json.truthy, bne_iff_ne]
    omega
  rw [telegramUpdateId, u.item_eq, if_pos htruthy]
  show Option.filter _ (some (toString u.number)) = _
  rw [Option.filter_some, if_pos (decide_eq_true (toString_ne_empty u.number))]

/-- An update that is read has its number for a cursor. -/
theorem normalizeConnectorItem_cursor {u : PostedUpdate} {now : UtcMoment}
    {item : NormalizedConnectorItem} (h : normalizeConnectorItem env now u.payload = .ok item) :
    item.cursor = toString u.number := by
  rw [normalizeConnectorItem, normalizeTelegramItem] at h
  obtain ⟨normalized, hsource, h⟩ := except_bind_ok.mp h
  obtain ⟨_, -, h⟩ := except_bind_ok.mp h
  obtain rfl := Except.ok.inj h
  show normalized.providerUpdateId = _
  rw [normalizeTelegramSourceItem] at hsource
  obtain ⟨_, hint, hsource⟩ := except_bind_ok.mp hsource
  obtain ⟨_, -, hsource⟩ := except_bind_ok.mp hsource
  obtain ⟨_, -, hsource⟩ := except_bind_ok.mp hsource
  obtain ⟨_, -, hsource⟩ := except_bind_ok.mp hsource
  obtain ⟨_, -, hsource⟩ := except_bind_ok.mp hsource
  obtain ⟨_, -, hsource⟩ := except_bind_ok.mp hsource
  obtain rfl := Except.ok.inj hsource
  show strOf env (Dict.item (redactFields env u.payload) "update_id") = _
  have hitem : Dict.item (redactFields env u.payload) "update_id" =
      if isSecretKey env "update_id" then .str "***" else .int u.number := by
    rw [Dict.item, get?_redactFields, u.update_id]
    rfl
  rw [hitem] at hint ⊢
  split at hint
  · -- a member that was redacted is not read
    cases hint
  · next hplain =>
    rw [if_neg hplain]
    rfl

/-! ### Settled updates -/

namespace ConnectorStore

/-- The rejection of the update is logged. -/
def Rejected (s : ConnectorStore) (u : PostedUpdate) : Prop :=
  ∃ event ∈ s.events, event.eventType = "connector.item_rejected" ∧
    event.externalId = some (toString u.number)

/-- The import of the update is logged, with a source that is stored under the
identity of its text. -/
def Captured (env : ConnectorEnv) (s : ConnectorStore) (u : PostedUpdate) : Prop :=
  ∃ event ∈ s.events, event.eventType = "connector.item_imported" ∧
    event.syncCursor = some (toString u.number) ∧
    ∃ source ∈ s.captured.sources.rows, event.sourceId = some source.id ∧
      ∃ now item domain sensitivity keys, normalizeConnectorItem env now u.payload = .ok item ∧
        captureKeys env.capture (item.captureInput domain sensitivity) = some keys ∧
        HoldsIdentity keys source

/-- The update is rejected or captured. -/
def Settled (env : ConnectorEnv) (s : ConnectorStore) (u : PostedUpdate) : Prop :=
  s.Rejected u ∨ s.Captured env u

theorem Settled.mono {u : PostedUpdate} (h : s.Settled env u) (hgrows : Grows s t) :
    t.Settled env u := by
  rcases h with ⟨event, hevent, hrejected⟩ | ⟨event, hevent, htype, hcursor, source, hsource, h⟩
  · exact .inl ⟨event, hgrows.events event hevent, hrejected⟩
  · exact .inr ⟨event, hgrows.events event hevent, htype, hcursor, source,
      hgrows.sources source hsource, h⟩

end ConnectorStore

theorem ItemImported.captured {request : SyncRequest} {u : PostedUpdate} {now : UtcMoment}
    {item : NormalizedConnectorItem} (h : ItemImported env request t item)
    (hitem : normalizeConnectorItem env now u.payload = .ok item) : t.Captured env u := by
  obtain ⟨event, hevent, htype, hcursor, source, hsource, hid, keys, hkeys, hholds⟩ := h
  rw [normalizeConnectorItem_cursor hitem] at hcursor
  exact ⟨event, hevent, htype, hcursor, source, hsource, hid, now, item, _, _, keys, hitem,
    hkeys, hholds⟩

/-! ### One sync of a batch -/

/-- What the loop over the updates leaves. -/
structure Screened (env : ConnectorEnv) (s : ConnectorStore) (done : List (Dict Json))
    (screened : ScreenedUpdates) (t : ConnectorStore) : Prop where
  quiet : Quiet s t
  fate : ∀ update ∈ done, update ∈ screened.accepted ∨
    ∃ event ∈ t.events, event.eventType = "connector.item_rejected" ∧
      event.externalId = some ((telegramUpdateId env update).getD "unknown")
  accepted : ∀ update ∈ screened.accepted, update ∈ done
  safe : ∀ cursor, screened.safeCursor = some cursor →
    ∃ update ∈ done, telegramUpdateId env update = some cursor

/-- The safe cursor is one of the two it is made of. -/
theorem saferCursor_cases {safe updateId : Option String} {cursor : String}
    (h : saferCursor env safe updateId = some cursor) :
    safe = some cursor ∨ updateId = some cursor := by
  cases updateId with
  | none => exact .inl h
  | some id =>
    cases safe with
    | none => exact .inr h
    | some safe =>
      simp only [saferCursor] at h
      split at h
      · exact .inr h
      · exact .inl h

/-- The invariant of the screening, for one update more: it is kept for the import, or
an event with its id tells of its rejection. -/
theorem Screened.next {allowed : List String} {done : List (Dict Json)}
    {screened screened' : ScreenedUpdates} {update : Dict Json} {u : ConnectorStore}
    (h : Screened env s done screened u)
    (hround : (screenUpdate env allowed screened update).run u = .ok screened' t) :
    Screened env s (done ++ [update]) screened' t := by
  -- the safe cursor is that of an update looked at, this one or an earlier
  have hsafe : ∀ cursor,
      saferCursor env screened.safeCursor (telegramUpdateId env update) = some cursor →
        ∃ other ∈ done ++ [update], telegramUpdateId env other = some cursor := by
    intro cursor hcursor
    rcases saferCursor_cases hcursor with hold | hnew
    · obtain ⟨other, hother, hof⟩ := h.safe cursor hold
      exact ⟨other, List.mem_append_left _ hother, hof⟩
    · exact ⟨update, by simp, hnew⟩
  rw [screenUpdate] at hround
  dsimp only at hround
  split at hround
  · -- an accepted update is kept for the import
    obtain ⟨rfl, rfl⟩ := run_pure_ok.mp hround
    refine ⟨h.quiet, fun other hother => ?_, fun other hother => ?_, hsafe⟩
    · rcases List.mem_append.mp hother with hold | hnew
      · exact (h.fate other hold).imp_left (List.mem_append_left _)
      · exact .inl (List.mem_append_right _ hnew)
    · rcases List.mem_append.mp hother with hold | hnew
      · exact List.mem_append_left _ (h.accepted other hold)
      · exact List.mem_append_right _ hnew
  · -- a rejected one leaves an event with its id
    obtain ⟨_, v, hlog, hpure⟩ := run_bind_ok.mp hround
    obtain ⟨rfl, rfl⟩ := run_pure_ok.mp hpure
    have hquiet : Quiet u v := (logConnectorEvent_quiet (by decide)).ok hlog
    obtain ⟨event, htype, hexternal, -, -, hevents, -, -⟩ := logConnectorEvent_ok hlog
    refine ⟨h.quiet.trans hquiet, fun other hother => ?_, fun other hother =>
      List.mem_append_left _ (h.accepted other hother), hsafe⟩
    rcases List.mem_append.mp hother with hold | hnew
    · refine (h.fate other hold).imp_right fun ⟨past, hpast, hrejected⟩ => ?_
      exact ⟨past, hquiet.events past hpast, hrejected⟩
    · obtain rfl := List.mem_singleton.mp hnew
      refine .inr ⟨event, ?_, htype, hexternal⟩
      rw [hevents]
      exact List.mem_append_right _ (List.mem_singleton_self event)

/-- What a sync of a batch that returns has done. -/
structure BatchSynced (env : ConnectorEnv) (batch : List PostedUpdate)
    (result : ConnectorSyncResult) (s t : ConnectorStore) : Prop extends
    RecordsOnly result.syncCursor s t where
  moved : result.syncCursor = result.previousCursor ∨
    ∃ v ∈ batch, result.syncCursor = some (toString v.number) ∧
      ∀ u ∈ batch, u.number ≤ v.number →
        t.Settled env u ∨ cursorLte env (toString u.number) result.previousCursor = true

section Batch

variable {batch : List PostedUpdate} {screened : ScreenedUpdates}

theorem Screened.accepted_posted
    (h : Screened env s (batch.map PostedUpdate.payload) screened t) {raw : Dict Json}
    (hraw : raw ∈ screened.accepted) : ∃ u ∈ batch, u.payload = raw :=
  List.mem_map.mp (h.accepted raw hraw)

theorem Screened.safe_posted (h : Screened env s (batch.map PostedUpdate.payload) screened t)
    {cursor : String} (hsafe : screened.safeCursor = some cursor) :
    ∃ v ∈ batch, cursor = toString v.number := by
  obtain ⟨raw, hraw, hof⟩ := h.safe cursor hsafe
  obtain ⟨v, hv, rfl⟩ := List.mem_map.mp hraw
  rw [telegramUpdateId_posted] at hof
  exact ⟨v, hv, (Option.some.inj hof).symm⟩

/-- One of the batch is accepted or settled. -/
theorem Screened.accepted_or_settled {w : ConnectorStore}
    (h : Screened env s (batch.map PostedUpdate.payload) screened t) (hgrows : Grows t w)
    {u : PostedUpdate} (hu : u ∈ batch) : u.payload ∈ screened.accepted ∨ w.Settled env u := by
  refine (h.fate _ (List.mem_map_of_mem hu)).imp_right fun ⟨event, hevent, htype, hexternal⟩ => ?_
  rw [telegramUpdateId_posted, Option.getD_some] at hexternal
  exact .inl ⟨event, hgrows.events event hevent, htype, hexternal⟩

/-- A taken update is settled, or lay below the cursor. -/
theorem ItemTaken.settled {request : SyncRequest} {previous : Option String} {u : PostedUpdate}
    {now : UtcMoment} {item : NormalizedConnectorItem}
    (hitem : normalizeConnectorItem env now u.payload = .ok item)
    (h : ItemTaken env request previous t item) :
    t.Settled env u ∨ cursorLte env (toString u.number) previous = true := by
  rcases h with hskipped | himported
  · rw [normalizeConnectorItem_cursor hitem] at hskipped
    exact .inr hskipped
  · exact .inl (.inr (himported.captured hitem))

/-- Where a sync of a batch leaves the cursor. -/
theorem CursorAt.ofBatch (hlaw : env.Lawful) {u : ConnectorStore} {request : SyncRequest}
    {previous cursor : Option String}
    (hscreened : Screened env s (batch.map PostedUpdate.payload) screened u) (hgrows : Grows u t)
    (hsafe : request.safeCursorOverride = screened.safeCursor)
    (hnumbers : ∀ u ∈ batch, ∀ v ∈ batch, u.number = v.number → u = v)
    (h : CursorAt env (normalizeConnectorItem env) request screened.accepted previous t cursor) :
    cursor = previous ∨
      ∃ v ∈ batch, cursor = some (toString v.number) ∧
        ∀ u ∈ batch, u.number ≤ v.number →
          t.Settled env u ∨ cursorLte env (toString u.number) previous = true := by
  cases h with
  | stays => exact .inl rfl
  | @item raw now item hraw hof himported hbelow =>
    obtain ⟨v, hv, rfl⟩ := hscreened.accepted_posted hraw
    refine .inr ⟨v, hv, congrArg some (normalizeConnectorItem_cursor hof), fun u hu hle => ?_⟩
    rcases hscreened.accepted_or_settled hgrows hu with hin | hsettled
    · rcases hle.lt_or_eq with hlt | heq
      · obtain ⟨moment, read, hreads, htake⟩ := hbelow u.payload hin
        refine (htake ?_).settled hreads
        rw [normalizeConnectorItem_cursor hreads, normalizeConnectorItem_cursor hof]
        exact (cursorSortKey_lt_toString hlaw _ _).mpr hlt
      · -- the update the cursor is at was imported
        obtain rfl := hnumbers u hu v hv heq
        exact .inl (.inr (himported.captured hof))
    · exact .inl hsettled
  | safe hcursor hall =>
    rw [hsafe] at hcursor
    obtain ⟨v, hv, rfl⟩ := hscreened.safe_posted hcursor
    refine .inr ⟨v, hv, rfl, fun u hu _ => ?_⟩
    rcases hscreened.accepted_or_settled hgrows hu with hin | hsettled
    · obtain ⟨moment, read, hreads, htake⟩ := hall u.payload hin
      exact htake.settled hreads
    · exact .inl hsettled

end Batch

variable {readCursor : Connector (Option String)} {request : TelegramSync}
  {result : ConnectorSyncResult}

/-- A sync of updates, told of the updates themselves: each was captured, is a
duplicate, failed, or was rejected with an event. -/
theorem syncTelegramUpdatesWith_ok (hlaw : env.Lawful) (hquiet : Moves Quiet readCursor)
    {batch : List PostedUpdate} (hupdates : request.updates = batch.map PostedUpdate.payload)
    (hnumbers : ∀ u ∈ batch, ∀ v ∈ batch, u.number = v.number → u = v)
    (h : (syncTelegramUpdatesWith env svc readCursor request).run s = .ok result t) :
    BatchSynced env batch result s t ∧
      ∃ u v, readCursor.run u = .ok result.previousCursor v ∧ Quiet s u := by
  rw [syncTelegramUpdatesWith] at h
  obtain ⟨_, s₁, hallowed, h⟩ := run_bind_ok.mp h
  obtain ⟨-, rfl⟩ := run_raiseIf_ok.mp hallowed
  obtain ⟨screened, s₂, hscreen, h⟩ := run_bind_ok.mp h
  -- the updates are screened one by one, before a cursor is read
  have hstart : Screened env s [] {} s := ⟨Std.Refl.refl s, by simp, by simp, by simp⟩
  have hscreened : Screened env s request.updates screened s₂ :=
    run_foldlM_ok (P := fun done screened u => Screened env s done screened u)
      (fun done update screened u screened' v hinv hround => hinv.next hround) hstart hscreen
  rw [syncItems] at h
  obtain ⟨_, s₃, hdomain, h⟩ := run_bind_ok.mp h
  obtain ⟨-, rfl⟩ := run_raiseIf_ok.mp hdomain
  obtain ⟨_, s₄, hsensitivity, h⟩ := run_bind_ok.mp h
  obtain ⟨-, rfl⟩ := run_raiseIf_ok.mp hsensitivity
  obtain ⟨hsynced, u, v, hread, hu⟩ := syncItemsFrom_ok hquiet h
  refine ⟨⟨⟨hscreened.quiet.toGrows.trans hsynced.grows, fun c hc =>
    (hsynced.cursors c hc).imp_left (hscreened.quiet.cursors c)⟩, ?_⟩, u, v, hread,
    hscreened.quiet.trans hu⟩
  -- what the sync says of its items is said of the updates they were made of
  rw [hupdates] at hscreened
  exact hsynced.cursor.ofBatch hlaw hscreened hsynced.grows rfl hnumbers

/-! ### Clients, requests and other captures beside each other -/

/-- What Telegram has posted, the store that is committed, and those committed
before it. -/
structure TelegramWorld where
  posted : List PostedUpdate
  store : ConnectorStore
  past : List ConnectorStore := []

namespace TelegramWorld

variable (env) (w : TelegramWorld)

/-- A cursor that was recorded at some time. -/
def Seen (cursor : String) : Prop := ∃ s ∈ w.store :: w.past, s.Recorded cursor

/-- The world once a store is committed. -/
def committed (t : ConnectorStore) : TelegramWorld :=
  { w with
    store := t
    past := w.store :: w.past }

/-- No cursor is recorded yet, and the numbers grow. -/
structure Fresh : Prop where
  ordered : w.posted.Pairwise fun u v => u.number < v.number
  past : w.past = []
  unrecorded : ∀ cursor, ¬ w.store.Recorded cursor

/-- What a client is offered that asks for the updates behind a cursor it has
seen, or for all: of the updates posted by then some, and with each of them
those before it. -/
structure Offered (offered : List PostedUpdate) (offset : Option String)
    (batch : List PostedUpdate) : Prop where
  posted : offered <+: w.posted
  seen : ∀ cursor, offset = some cursor → w.Seen cursor
  of_offered : ∀ u ∈ batch, u ∈ offered
  before : ∀ v ∈ batch, ∀ u ∈ offered, u.number ≤ v.number →
    u ∈ batch ∨ cursorLte env (toString u.number) offset = true

end TelegramWorld

/-- `get_cursor` in the store of an earlier moment. -/
def readIn (env : ConnectorEnv) (snapshot : ConnectorStore) : Connector (Option String) := fun s =>
  match (getCursor env).run snapshot with
  | .ok cursor _ => .ok cursor s
  | .error e _ => .error e s

/-- The cursor is read where it is used, or in a store committed before. -/
def ReadsCursor (env : ConnectorEnv) (w : TelegramWorld) (readCursor : Connector (Option String)) :
    Prop :=
  readCursor = getCursor env ∨ ∃ snapshot ∈ w.store :: w.past, readCursor = readIn env snapshot

/-- A transaction that is rolled back leaves no row; its ticks are gone. -/
def ConnectorStore.rolledBack (s t : ConnectorStore) : ConnectorStore :=
  { s with captured := { s.captured with ticks := t.captured.ticks } }

/-- One step of Telegram, of a request or of another capture. -/
inductive TelegramStep (env : ConnectorEnv) (w : TelegramWorld) : TelegramWorld → Prop
  /-- Telegram posts an update. -/
  | post {u : PostedUpdate} : (∀ v ∈ w.posted, v.number < u.number) →
      TelegramStep env w { w with posted := w.posted ++ [u] }
  /-- A request commits. -/
  | commit {svc : CaptureService} {offered batch : List PostedUpdate} {offset : Option String}
      {request : TelegramSync} {readCursor : Connector (Option String)}
      {result : ConnectorSyncResult} {t : ConnectorStore} :
      w.Offered env offered offset batch →
      request.updates = batch.map PostedUpdate.payload → ReadsCursor env w readCursor →
      (syncTelegramUpdatesWith env svc readCursor request).run w.store = .ok result t →
      TelegramStep env w (w.committed t)
  /-- A request raises. -/
  | abort {svc : CaptureService} {request : TelegramSync} {readCursor : Connector (Option String)}
      {e : ConnectorError} {t : ConnectorStore} :
      (syncTelegramUpdatesWith env svc readCursor request).run w.store = .error e t →
      TelegramStep env w (w.committed (w.store.rolledBack t))
  /-- Something else is captured, or part of it before the capture raises. -/
  | capture (svc : CaptureService) (input : SourceCaptureInput) :
      TelegramStep env w (w.committed { w.store with
        captured := endState ((captureSource env.capture svc input).run w.store.captured) })

/-! ### The invariant -/

section Invariant

variable {w : TelegramWorld}

/-- The cursor is at an update, and the updates up to that one are settled. -/
def Passed (env : ConnectorEnv) (w : TelegramWorld) (cursor : String) : Prop :=
  ∃ v ∈ w.posted, cursor = toString v.number ∧
    ∀ u ∈ w.posted, u.number ≤ v.number → w.store.Settled env u

/-- The numbers grow, and a cursor recorded at any time has passed settled
updates only. -/
structure WorldInv (env : ConnectorEnv) (w : TelegramWorld) : Prop where
  ordered : w.posted.Pairwise fun u v => u.number < v.number
  passed : ∀ cursor, w.Seen cursor → Passed env w cursor

theorem Passed.mono {cursor : String} (h : Passed env w cursor) (hgrows : Grows w.store t) :
    Passed env (w.committed t) cursor := by
  obtain ⟨v, hv, heq, hsettled⟩ := h
  exact ⟨v, hv, heq, fun u hu hle => (hsettled u hu hle).mono hgrows⟩

/-- An update that lies at or below the cursor is settled. -/
theorem Passed.settled (hlaw : env.Lawful) {cursor : String} (h : Passed env w cursor)
    {u : PostedUpdate} (hu : u ∈ w.posted)
    (hlte : cursorLte env (toString u.number) (some cursor) = true) : w.store.Settled env u := by
  obtain ⟨v, hv, rfl, hsettled⟩ := h
  rw [cursorLte_toString hlaw] at hlte
  exact hsettled u hu (of_decide_eq_true hlte)

/-- What is read as the cursor was recorded. -/
theorem WorldInv.read (hinv : WorldInv env w) {raw cursor : String} (hseen : w.Seen raw)
    (hstored : storedCursor (some raw) = some cursor) : w.Seen cursor := by
  obtain ⟨v, -, rfl, -⟩ := hinv.passed raw hseen
  rw [storedCursor_toString] at hstored
  obtain rfl := Option.some.inj hstored
  exact hseen

theorem readIn_ok {snapshot : ConnectorStore} {cursor : Option String}
    (h : (readIn env snapshot).run s = .ok cursor t) :
    (∃ u, (getCursor env).run snapshot = .ok cursor u) ∧ s = t := by
  simp only [readIn, EStateM.run] at h
  cases hread : getCursor env snapshot with
  | ok answer u =>
    rw [hread] at h
    obtain ⟨rfl, rfl⟩ := EStateM.Result.ok.inj h
    exact ⟨⟨u, hread⟩, rfl⟩
  | error e u =>
    rw [hread] at h
    cases h

theorem ReadsCursor.quiet {readCursor : Connector (Option String)}
    (h : ReadsCursor env w readCursor) : Moves Quiet readCursor := by
  rcases h with rfl | ⟨snapshot, -, rfl⟩
  · exact getCursor_quiet
  · intro u
    rw [MovesAt]
    simp only [readIn, EStateM.run]
    cases getCursor env snapshot with
    | ok cursor v => exact Std.Refl.refl u
    | error e v => exact Std.Refl.refl u

/-- The cursor a request has read was recorded. -/
theorem ReadsCursor.seen (hinv : WorldInv env w) {readCursor : Connector (Option String)}
    (h : ReadsCursor env w readCursor) {u v : ConnectorStore} {cursor : String}
    (hquiet : Quiet w.store u) (hread : readCursor.run u = .ok (some cursor) v) :
    w.Seen cursor := by
  rcases h with rfl | ⟨snapshot, hsnapshot, rfl⟩
  · obtain ⟨raw, hraw, hstored⟩ := getCursor_recorded hread
    exact hinv.read ⟨w.store, List.mem_cons_self .., hquiet.cursors raw hraw⟩ hstored
  · obtain ⟨⟨t, hread⟩, -⟩ := readIn_ok hread
    obtain ⟨raw, hraw, hstored⟩ := getCursor_recorded hread
    exact hinv.read ⟨snapshot, hsnapshot, hraw⟩ hstored

/-- A cursor seen after a commit was seen before, or the commit recorded it. -/
theorem seen_committed {cursor : String} (h : (w.committed t).Seen cursor) :
    w.Seen cursor ∨ t.Recorded cursor := by
  obtain ⟨s, hs, hrecorded⟩ := h
  rcases List.mem_cons.mp hs with rfl | hs
  · exact .inr hrecorded
  · exact .inl ⟨s, hs, hrecorded⟩

/-- A commit that records no cursor. -/
theorem WorldInv.committed_quiet (hinv : WorldInv env w) (hquiet : Quiet w.store t) :
    WorldInv env (w.committed t) := by
  refine ⟨hinv.ordered, fun cursor hseen => Passed.mono ?_ hquiet.toGrows⟩
  rcases seen_committed hseen with hbefore | hrecorded
  · exact hinv.passed cursor hbefore
  · exact hinv.passed cursor ⟨w.store, List.mem_cons_self .., hquiet.cursors cursor hrecorded⟩

theorem WorldInv.posted {u : PostedUpdate} (hinv : WorldInv env w)
    (hlast : ∀ v ∈ w.posted, v.number < u.number) :
    WorldInv env { w with posted := w.posted ++ [u] } := by
  refine ⟨?_, fun cursor hseen => ?_⟩
  · refine List.pairwise_append.mpr ⟨hinv.ordered, List.pairwise_singleton _ u, ?_⟩
    intro v hv other hother
    obtain rfl := List.mem_singleton.mp hother
    exact hlast v hv
  · obtain ⟨v, hv, heq, hsettled⟩ := hinv.passed cursor hseen
    refine ⟨v, List.mem_append_left _ hv, heq, fun other hother hle => ?_⟩
    rcases List.mem_append.mp hother with hold | hnew
    · exact hsettled other hold hle
    · -- the new update lies above every cursor
      obtain rfl := List.mem_singleton.mp hnew
      exact absurd (hlast v hv) (Nat.not_lt.mpr hle)

/-- Growing numbers tell updates apart. -/
theorem eq_of_number_eq {posted : List PostedUpdate}
    (hordered : posted.Pairwise fun u v => u.number < v.number) {u v : PostedUpdate}
    (hu : u ∈ posted) (hv : v ∈ posted) (h : u.number = v.number) : u = v := by
  induction posted with
  | nil => exact absurd hu List.not_mem_nil
  | cons first rest ih =>
    obtain ⟨hfirst, hrest⟩ := List.pairwise_cons.mp hordered
    rcases List.mem_cons.mp hu with hu | hu
    · rcases List.mem_cons.mp hv with hv | hv
      · exact hu.trans hv.symm
      · exact absurd h (hu ▸ hfirst v hv).ne
    · rcases List.mem_cons.mp hv with hv | hv
      · exact absurd h.symm (hv ▸ hfirst u hu).ne
      · exact ih hrest hu hv

/-- What was posted before an update that was offered was posted by then. -/
theorem mem_of_number_le {offered posted : List PostedUpdate}
    (hordered : posted.Pairwise fun u v => u.number < v.number) (h : offered <+: posted)
    {u v : PostedUpdate} (hv : v ∈ offered) (hu : u ∈ posted) (hle : u.number ≤ v.number) :
    u ∈ offered := by
  obtain ⟨later, rfl⟩ := h
  rcases List.mem_append.mp hu with hin | hlater
  · exact hin
  · have hlt := (List.pairwise_append.mp hordered).2.2 v hv u hlater
    exact absurd hlt (Nat.not_lt.mpr hle)

/-- What lay at or below a cursor that was seen is settled. -/
theorem WorldInv.below (hlaw : env.Lawful) (hinv : WorldInv env w) {offset : Option String}
    (hseen : ∀ cursor, offset = some cursor → w.Seen cursor) {u : PostedUpdate}
    (hu : u ∈ w.posted) (hlte : cursorLte env (toString u.number) offset = true) :
    w.store.Settled env u := by
  cases offset with
  | none => exact absurd hlte (by simp [cursorLte])
  | some cursor => exact (hinv.passed cursor (hseen cursor rfl)).settled hlaw hu hlte

/-- A sync of a batch that was offered keeps the invariant: whatever lies behind a
cursor it may leave was imported, or an event tells of it. -/
theorem WorldInv.synced (hlaw : env.Lawful) (hinv : WorldInv env w)
    {offered batch : List PostedUpdate} {offset : Option String}
    (hoffered : w.Offered env offered offset batch)
    {readCursor : Connector (Option String)} (hreads : ReadsCursor env w readCursor)
    (hupdates : request.updates = batch.map PostedUpdate.payload)
    (h : (syncTelegramUpdatesWith env svc readCursor request).run w.store = .ok result t) :
    WorldInv env (w.committed t) := by
  have hposted : ∀ u ∈ batch, u ∈ w.posted := fun u hu =>
    hoffered.posted.subset (hoffered.of_offered u hu)
  obtain ⟨hsynced, u, v, hread, hquiet⟩ := syncTelegramUpdatesWith_ok hlaw hreads.quiet hupdates
    (fun u hu v hv => eq_of_number_eq hinv.ordered (hposted u hu) (hposted v hv)) h
  have hprevious : ∀ cursor, result.previousCursor = some cursor → w.Seen cursor := by
    intro cursor hcursor
    rw [hcursor] at hread
    exact hreads.seen hinv hquiet hread
  refine ⟨hinv.ordered, fun cursor hseen => ?_⟩
  have hbefore : w.Seen cursor ∨ result.syncCursor = some cursor := by
    rcases seen_committed hseen with hold | hrecorded
    · exact .inl hold
    · exact (hsynced.cursors cursor hrecorded).imp_left fun hold =>
        ⟨w.store, List.mem_cons_self .., hold⟩
  rcases hbefore with hold | hcursor
  · exact (hinv.passed cursor hold).mono hsynced.toGrows
  · rcases hsynced.moved with hstays | ⟨v, hv, hmoved, hsettled⟩
    · rw [hstays] at hcursor
      exact (hinv.passed cursor (hprevious cursor hcursor)).mono hsynced.toGrows
    · rw [hmoved] at hcursor
      refine ⟨v, hposted v hv, (Option.some.inj hcursor).symm, fun u hu hle => ?_⟩
      have hin := mem_of_number_le hinv.ordered hoffered.posted (hoffered.of_offered v hv) hu hle
      rcases hoffered.before v hv u hin hle with hbatch | hskipped
      · rcases hsettled u hbatch hle with hdone | hskipped
        · exact hdone
        · exact (hinv.below hlaw hprevious hu hskipped).mono hsynced.toGrows
      · -- not offered: it lay below the cursor the client asked with
        exact (hinv.below hlaw hoffered.seen hu hskipped).mono hsynced.toGrows

theorem TelegramStep.inv (hlaw : env.Lawful) {w' : TelegramWorld} (hinv : WorldInv env w)
    (h : TelegramStep env w w') : WorldInv env w' := by
  cases h with
  | post hlast => exact hinv.posted hlast
  | commit hoffered hupdates hreads hrun => exact hinv.synced hlaw hoffered hreads hupdates hrun
  | abort hrun => exact hinv.committed_quiet (quiet_captured fun _ hrow => hrow)
  | capture svc input => exact hinv.committed_quiet (quiet_captured (captureSource_grows input _))

theorem TelegramWorld.Fresh.inv (h : w.Fresh) : WorldInv env w := by
  refine ⟨h.ordered, fun cursor hseen => ?_⟩
  obtain ⟨s, hs, hrecorded⟩ := hseen
  rw [h.past] at hs
  obtain rfl := List.mem_singleton.mp hs
  exact absurd hrecorded (h.unrecorded cursor)

theorem WorldInv.run (hlaw : env.Lawful) {w₀ : TelegramWorld} (hfresh : w₀.Fresh)
    (run : Relation.ReflTransGen (TelegramStep env) w₀ w) : WorldInv env w := by
  induction run with
  | refl => exact hfresh.inv
  | tail _ hstep ih => exact hstep.inv hlaw ih

/-- **No update is lost.** In every run, an update that the next sync would
skip is logged as rejected, or as imported with its source in the store. -/
theorem skippedUpdate_settled (hlaw : env.Lawful) {w₀ : TelegramWorld} (hfresh : w₀.Fresh)
    (run : Relation.ReflTransGen (TelegramStep env) w₀ w) {u : PostedUpdate} (hu : u ∈ w.posted)
    {cursor : Option String} (hread : (getCursor env).run w.store = .ok cursor t)
    (hskip : cursorLte env (toString u.number) cursor = true) : w.store.Settled env u := by
  have hinv := WorldInv.run hlaw hfresh run
  refine hinv.below hlaw (fun cursor hcursor => ?_) hu hskip
  rw [hcursor] at hread
  exact ReadsCursor.seen hinv (.inl rfl) (Std.Refl.refl w.store) hread

end Invariant

/-! ### A sync of two messages -/

/-- A connector that reads the digits of ASCII. -/
def ConnectorEnv.plain : ConnectorEnv :=
  { capture := .plain
    digit? := fun c => if c.isDigit then some (c.toNat - '0'.toNat) else none
    repr := fun _ => "..."
    fromtimestamp := fun _ => none }

/-- The same, whose first store call raises after it has written. -/
def ConnectorEnv.failsFirst : ConnectorEnv :=
  { ConnectorEnv.plain with
    capture := { ConnectorEnv.plain.capture with
      fault := fun n => if n = 0 then some .after else none } }

theorem ConnectorEnv.failsFirst_lawful : ConnectorEnv.failsFirst.Lawful where
  digit_ascii _ h := if_pos h

/-- A message from a chat that is not on the allowlist. -/
def strangeUpdate : PostedUpdate :=
  { payload := [("update_id", .int 6), ("message", .obj [("message_id", .int 1),
      ("chat", .obj [("id", .int 4)]), ("from", .obj [("id", .int 8)]),
      ("text", .str "decision: goodbye")])]
    number := 6
    number_pos := by decide
    update_id := rfl }

/-- A message from a chat that is. -/
def helloUpdate : PostedUpdate :=
  { payload := [("update_id", .int 7), ("message", .obj [("message_id", .int 1),
      ("chat", .obj [("id", .int 5)]), ("from", .obj [("id", .int 9)]),
      ("text", .str "decision: hello")])]
    number := 7
    number_pos := by decide
    update_id := rfl }

/-- The messages are posted, and nothing is stored. -/
def helloWorld : TelegramWorld :=
  { posted := [strangeUpdate, helloUpdate]
    store := { captured := { sources := default } } }

/-- The request for both. -/
def helloRequest : TelegramSync :=
  { updates := [strangeUpdate.payload, helloUpdate.payload], allowedChatIds := ["5"] }

/-- The sync, in which logging the rejection raises. -/
def failedSync : EStateM.Result ConnectorError ConnectorStore ConnectorSyncResult :=
  (syncTelegramUpdates .failsFirst {} helloRequest).run helloWorld.store

/-- The sync again, once the first is rolled back. -/
def helloSync : EStateM.Result ConnectorError ConnectorStore ConnectorSyncResult :=
  (syncTelegramUpdates .failsFirst {} helloRequest).run
    (helloWorld.store.rolledBack (endState failedSync))

theorem helloWorld_fresh : helloWorld.Fresh where
  ordered := by simp [helloWorld, strangeUpdate, helloUpdate]
  past := rfl
  unrecorded := by
    rintro cursor (⟨row, hrow, -⟩ | ⟨event, hevent, -⟩)
    · cases hrow
    · cases hevent

/-- One message is rejected and the other imported, after a sync that raised. -/
theorem skippedUpdate_settled_helloSync :
    (endState helloSync).Settled .failsFirst strangeUpdate ∧
      (endState helloSync).Settled .failsFirst helloUpdate := by
  have hraises : raises (fun _ : ConnectorError => true) failedSync = true := by decide +kernel
  obtain ⟨error, hfailed, -⟩ := exists_error_of_raises hraises
  obtain ⟨result, hsync⟩ := exists_ok_of_returned (r := helloSync) (by decide +kernel)
  have hanswer : answers (fun cursor =>
      cursorLte .failsFirst (toString strangeUpdate.number) cursor &&
        cursorLte .failsFirst (toString helloUpdate.number) cursor)
      ((getCursor .failsFirst).run (endState helloSync)) = true := by decide +kernel
  obtain ⟨cursor, hread, hskip⟩ := exists_ok_of_answers hanswer
  obtain ⟨hskipStrange, hskipHello⟩ := Bool.and_eq_true_iff.mp hskip
  have hraised : TelegramStep .failsFirst helloWorld
      (helloWorld.committed (helloWorld.store.rolledBack (endState failedSync))) :=
    .abort hfailed
  generalize endState helloSync = t at hsync hread ⊢
  have hoffered : (helloWorld.committed (helloWorld.store.rolledBack (endState failedSync))).Offered
      .failsFirst [strangeUpdate, helloUpdate] none [strangeUpdate, helloUpdate] :=
    { posted := List.prefix_rfl
      seen := fun _ h => by cases h
      of_offered := fun _ h => h
      before := fun _ _ _ h _ => .inl h }
  have hstep := TelegramStep.commit hoffered rfl (.inl rfl) hsync
  have hrun := (Relation.ReflTransGen.single hraised).tail hstep
  exact ⟨skippedUpdate_settled ConnectorEnv.failsFirst_lawful helloWorld_fresh hrun
      (List.mem_cons_self ..) hread hskipStrange,
    skippedUpdate_settled ConnectorEnv.failsFirst_lawful helloWorld_fresh hrun
      (List.mem_cons_of_mem _ (List.mem_cons_self ..)) hread hskipHello⟩

end AliceBot
