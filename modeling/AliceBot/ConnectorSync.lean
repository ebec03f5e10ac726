import AliceBot.Library.Loops
import AliceBot.SourceCapture
import Mathlib.Data.String.Basic
import Mathlib.Data.Sum.Order

/-!
# Syncing a connector

`_sync_items` and `sync_telegram_updates` of `vnext_connectors`, the Telegram
items of `connector_payloads`, and the checkpoint row of `vnext_store`.

A sync captures the items whose cursor lies above the one stored, in the order
of their cursors, and moves the cursor behind it. An item that cannot be read
or captured is counted and logged, and from there on the cursor stays: the
items behind it are captured, and offered again. Telegram updates of a chat
that is not on the allowlist are logged as rejected, and the cursor may pass
them.

Everything is written through the tables a capture writes (`CaptureStore`), the
event log and the row of `connector_state`. As in a capture, every store call
takes one tick and raises where the environment says so.
-/

namespace AliceBot

open PyLib

/-! ### What a sync reads from outside -/

/-- What a sync reads beside its request and the store. -/
structure ConnectorEnv where
  capture : CaptureEnv
  /-- The value of a decimal digit, which `str.isdecimal` and `int` agree on. -/
  digit? : Char → Option Nat
  /-- `str(value)` of a float, a list or an object. -/
  repr : Json → String
  /-- `datetime.fromtimestamp(n, tz=UTC)`, where it does not raise. -/
  fromtimestamp : Int → Option UtcMoment
  /-- `hasattr(store, "get_connector_state")`. -/
  hasConnectorState : Bool := true

/-- The digits the language promises: those of ASCII have their values. -/
structure ConnectorEnv.Lawful (env : ConnectorEnv) : Prop where
  digit_ascii : ∀ c : Char, c.isDigit = true → env.digit? c = some (c.toNat - '0'.toNat)

/-- What a sync raises. -/
inductive ConnectorError where
  /-- `VNextConnectorValidationError`. -/
  | validation (message : String)
  /-- The error of a timestamp outside the calendar. -/
  | timestamp
  /-- What a capture or a store call raised. -/
  | store (e : CaptureError)
deriving DecidableEq, Repr

variable (env : ConnectorEnv)

/-! ### Cursors -/

/-- `int(cursor)`, where `cursor.isdecimal()`. -/
def cursorNumber (cursor : String) : Option Nat :=
  if cursor ≠ "" ∧ cursor.toList.all fun c => (env.digit? c).isSome then
    some (cursor.toList.foldl (fun n c => 10 * n + (env.digit? c).getD 0) 0)
  else none

/-- `_cursor_lte`. -/
def cursorLte (left : String) : Option String → Bool
  | none => false
  | some right =>
    match cursorNumber env left, cursorNumber env right with
    | some m, some n => decide (m ≤ n)
    | _, _ => decide (left ≤ right)

/-- `_cursor_sort_key`: numbers come before texts. -/
def cursorSortKey (cursor : String) : Nat ⊕ₗ String :=
  toLex (match cursorNumber env cursor with
    | some n => .inl n
    | none => .inr cursor)

/-! ### Reading an item -/

/-- `_as_optional_text`. -/
def asOptionalText : Json → Option String
  | .str s => if strip s = "" then none else some (strip s)
  | _ => none

/-- `_first_text`. -/
def firstText (payload : Dict Json) (keys : List String) : Option String :=
  keys.findSome? fun key => asOptionalText (payload.item key)

/-- `str(value)`. -/
def strOf : Json → String
  | .str s => s
  | .int n => toString n
  | .bool true => "True"
  | .bool false => "False"
  | .null => "None"
  | value => env.repr value

/-- `isinstance(value, int)`, with the number: a bool is an int. -/
def intOf? : Json → Option Int
  | .int n => some n
  | .bool b => some (if b then 1 else 0)
  | _ => none

/-- `isinstance(value, (str, int))`, with its text. -/
def textOrInt? : Json → Option String
  | .str s => some s
  | value => (intOf? value).map fun _ => strOf env value

/-- `part in text`. -/
def occursIn (part text : String) : Bool := decide (part.toList <:+: text.toList)

/-- `is_secret_key`. -/
def isSecretKey (key : String) : Bool :=
  ["token", "secret", "password", "credential", "api_key"].any
    fun marker => occursIn marker (env.capture.casefold key)

mutual

/-- `redact_secret_fields`. -/
def redactSecretFields : Json → Json
  | .obj fields => .obj (redactFields fields)
  | .arr items => .arr (redactItems items)
  | value => value

/-- The members of an object, redacted. -/
def redactFields : List (String × Json) → List (String × Json)
  | [] => []
  | (key, value) :: rest =>
    (key, if isSecretKey env key then .str "***" else redactSecretFields value) ::
      redactFields rest

/-- The items of a list, redacted. -/
def redactItems : List Json → List Json
  | [] => []
  | value :: rest => redactSecretFields value :: redactItems rest

end

/-- `NormalizedConnectorItem`. An item in the form all connectors share; the cursor is
the place it has in its stream. -/
structure NormalizedConnectorItem where
  connectorName : String
  sourceType : String
  externalId : String
  cursor : String
  rawText : String
  title : String
  author : Option String := none
  uri : Option String := none
  rawPath : Option String := none
  capturedAt : Option String := none
  sourceCreatedAt : Option String := none
  sourceModifiedAt : Option String := none
  metadataJson : Dict Json := []

/-! ### Telegram updates -/

/-- `_telegram_chat_id`: the chat of the first message that has one. -/
def telegramChatId (payload : Dict Json) : Option String :=
  ["message", "edited_message", "channel_post"].findSome? fun key => do
    let message ← (payload.item key).asObj?
    let chat ← (message.item "chat").asObj?
    textOrInt? env (chat.item "id")

/-- `_telegram_update_id`. -/
def telegramUpdateId (payload : Dict Json) : Option String :=
  let value := if (payload.item "update_id").truthy then payload.item "update_id"
    else payload.item "id"
  (textOrInt? env value).filter (· ≠ "")

/-- The result of `normalize_telegram_source_item`. -/
structure TelegramSourceItem where
  providerUpdateId : String
  providerMessageId : String
  externalChatId : String
  externalUserId : String
  externalUsername : Option String
  messageText : String
  sentAt : UtcMoment
  idempotencyKey : String
  normalizedPayload : Dict Json

/-- A member an item has to have. -/
def required {α : Type} (value : Option α) (message : String) : Except ConnectorError α :=
  match value with
  | some a => .ok a
  | none => .error (.validation message)

/-- The moment of a message: its date, or else now. -/
def telegramSentAt (now : UtcMoment) (rawDate : Json) : Except ConnectorError UtcMoment :=
  match intOf? rawDate with
  | some seconds =>
    match env.fromtimestamp seconds with
    | some moment => .ok moment
    | none => .error .timestamp
  | none => .ok now

/-- `normalize_telegram_source_item`, at a reading of the clock. -/
def normalizeTelegramSourceItem (now : UtcMoment) (payload : Dict Json) :
    Except ConnectorError TelegramSourceItem := do
  let rawUpdateId := payload.item "update_id"
  let _ ← required (intOf? rawUpdateId) "telegram source item requires integer update_id"
  let rawMessage ← required (payload.item "message").asObj?
    "telegram source item requires message object"
  let rawChat ← required ((rawMessage.item "chat").asObj?.filter (·.has "id"))
    "telegram source message requires chat.id"
  let rawFrom ← required ((rawMessage.item "from").asObj?.filter (·.has "id"))
    "telegram source message requires from.id"
  let rawMessageId := rawMessage.item "message_id"
  let _ ← required (intOf? rawMessageId) "telegram source message requires integer message_id"
  -- a message without text is imported as an empty one
  let messageText := ((rawMessage.item "text").asStr?.map strip).getD ""
  let sentAt ← telegramSentAt env now (rawMessage.item "date")
  let externalChatId := strOf env (rawChat.item "id")
  let externalUserId := strOf env (rawFrom.item "id")
  let externalUsername := asOptionalText (rawFrom.item "username")
  return { providerUpdateId := strOf env rawUpdateId
           providerMessageId := strOf env rawMessageId
           externalChatId := externalChatId
           externalUserId := externalUserId
           externalUsername := externalUsername
           messageText := messageText
           sentAt := sentAt
           idempotencyKey := env.capture.sha256 ("telegram:update:" ++ strOf env rawUpdateId)
           normalizedPayload :=
             [("update_id", rawUpdateId), ("message_id", rawMessageId),
               ("chat", .obj [("id", .str externalChatId), ("type", rawChat.item "type")]),
               ("from", .obj [("id", .str externalUserId),
                 ("username", .optStr externalUsername)]),
               ("text", .str messageText), ("received_kind", .str "telegram_source_ingest")] }

/-- A scalar an attachment keeps; a missing member is `None`. -/
def scalarOrNull? : Json → Option Json
  | .arr _ => none
  | .obj _ => none
  | value => some value

/-- `_telegram_attachment_metadata` of one attachment. -/
def attachmentMetadata (key : String) : Json → Option Json
  | .arr items =>
    if key = "photo" then some (.obj [("type", .str key), ("count", .int items.length)]) else none
  | .obj value =>
    some (.obj (("type", .str key) ::
      ["file_id", "file_unique_id", "file_name", "mime_type", "duration", "file_size"].filterMap
        fun name => (scalarOrNull? (Dict.item value name)).map fun field => (name, field)))
  | _ => none

/-- `_telegram_attachment_metadata`. -/
def telegramAttachmentMetadata (payload : Dict Json) : List Json :=
  match (payload.item "message").asObj? with
  | none => []
  | some message => ["photo", "document", "voice", "audio", "video"].filterMap
      fun key => attachmentMetadata key (message.item key)

/-- `_normalize_telegram_item`. The item of one message, with what was received and what
was read out of it in its metadata. -/
def normalizeTelegramItem (now : UtcMoment) (payload : Dict Json) :
    Except ConnectorError NormalizedConnectorItem := do
  let normalized ← normalizeTelegramSourceItem env now payload
  let text := strip normalized.messageText
  let _ ← required (if text = "" then none else some ())
    "telegram item requires non-empty message text"
  let folded := env.capture.casefold text
  -- `str(sent_at)` has a blank where the ISO text has its `T`
  let moment := replaceAll (isoformat false normalized.sentAt) "T" " "
  return { connectorName := "telegram"
           sourceType := "telegram_message"
           externalId := normalized.externalChatId ++ ":" ++ normalized.providerMessageId
           cursor := normalized.providerUpdateId
           rawText := text
           title := "Telegram capture - " ++ String.ofList (moment.toList.take 16)
           author := some (match normalized.externalUsername with
             | some username => "@" ++ username
             | none => normalized.externalUserId)
           sourceCreatedAt := some (stampText false normalized.sentAt)
           metadataJson :=
             [("raw_payload", .obj payload),
               ("normalized_payload", .obj normalized.normalizedPayload),
               ("provider_update_id", .str normalized.providerUpdateId),
               ("provider_message_id", .str normalized.providerMessageId),
               ("external_chat_id", .str normalized.externalChatId),
               ("idempotency_key", .str normalized.idempotencyKey),
               ("chat_id", .str normalized.externalChatId),
               ("message_id", .str normalized.providerMessageId),
               ("sender_id", .str normalized.externalUserId),
               ("sender_username", .optStr normalized.externalUsername),
               ("message_date", .str (stampText false normalized.sentAt)),
               ("contains_links",
                 .bool (occursIn "http://" folded || occursIn "https://" folded)),
               ("attachment_metadata", .arr (telegramAttachmentMetadata payload)),
               ("untrusted_source_material", .bool true), ("raw_evidence_preserved", .bool true)] }

/-- `normalize_connector_item` of a Telegram update. -/
def normalizeConnectorItem (now : UtcMoment) (payload : Dict Json) :
    Except ConnectorError NormalizedConnectorItem :=
  normalizeTelegramItem env now (redactFields env payload)

/-! ### The store -/

/-- The columns of an event of the connector, and the members of its payload
that are read again or name an item. -/
structure ConnectorEvent where
  id : String
  eventType : String
  occurredAt : String
  externalId : Option String := none
  syncCursor : Option String := none
  sourceId : Option String := none
deriving DecidableEq

/-- The connector's row of `connector_state`. -/
structure ConnectorStateRow where
  cursorValue : Option String
  lastSyncAt : String
  lastSuccessAt : Option String
  lastFailureAt : Option String
  lastError : Option String
  itemsSeen : Nat
  itemsCaptured : Nat
  itemsDeduped : Nat
  itemsFailed : Nat
deriving DecidableEq

/-- One user's tables, as one connector sees them. -/
structure ConnectorStore where
  captured : CaptureStore
  events : List ConnectorEvent := []
  state : Option ConnectorStateRow := none

abbrev Connector := EStateM ConnectorError ConnectorStore

/-- What a capture does, done in the wider store. -/
def ofCapture {α : Type} (m : Capture α) : Connector α :=
  zoom ConnectorStore.captured (fun s captured => { s with captured := captured }) .store m

/-- The next tick. -/
def takeTick : Connector Nat :=
  ofCapture (modifyGet fun s => (s.ticks, { s with ticks := s.ticks + 1 }))

/-- One store call, handed the number it has. -/
def connectorCall {α : Type} (m : Nat → Connector α) : Connector α := do
  let n ← takeTick
  match env.capture.fault n with
  | none => m n
  | some .before => throw (.store .fault)
  | some .after => do
    let _ ← m n
    throw (.store .fault)

/-- `_log_event`. The events of a sync are about the connector, and name the item and
the cursor if there are any. -/
def logConnectorEvent (eventType : String) (externalId syncCursor sourceId : Option String) :
    Connector Unit :=
  connectorCall env fun n => modify fun s =>
    { s with events := s.events ++ [{ id := env.capture.uuid n
                                      eventType := eventType
                                      occurredAt := utcNowIso (env.capture.now n)
                                      externalId := externalId
                                      syncCursor := syncCursor
                                      sourceId := sourceId }] }

/-- The completed syncs, the latest first. -/
def completedSyncs (events : List ConnectorEvent) : List ConnectorEvent :=
  (events.filter fun event => event.eventType = "connector.sync_completed").insertionSort
    fun a b => b.occurredAt < a.occurredAt ∨ (b.occurredAt = a.occurredAt ∧ b.id ≤ a.id)

/-- `_as_optional_text` of a stored cursor. -/
def storedCursor (cursor : Option String) : Option String := asOptionalText (.optStr cursor)

/-- The row of `connector_state`, where the store keeps one. -/
def readState : Connector (Option ConnectorStateRow) :=
  if env.hasConnectorState then connectorCall env fun _ => return (← get).state else pure none

/-- `get_cursor`. The cursor of the recorded state, or else that of the last completed
sync of the log. -/
def getCursor : Connector (Option String) := do
  let row ← readState env
  match row.bind fun row => storedCursor row.cursorValue with
  | some cursor => return some cursor
  | none =>
    let events ← connectorCall env fun _ => return (← get).events
    return (completedSyncs events).findSome? fun event => storedCursor event.syncCursor

/-! ### The result of a sync -/

/-- `CONNECTOR_ITEM_IMPORT_ERROR_CODE`. -/
def connectorItemImportErrorCode : String := "connector_item_import_failed"

/-- `CONNECTOR_ITEM_IMPORT_ERROR_MESSAGE`. -/
def connectorItemImportErrorMessage : String := "Connector item could not be imported"

/-- `ConnectorSyncResult`. What a sync reports, and what the state of the connector is
updated from. -/
structure ConnectorSyncResult where
  status : String
  connectorName : String
  itemCount : Nat
  importedCount : Nat
  duplicateCount : Nat
  skippedCount : Nat
  failedCount : Nat
  previousCursor : Option String
  syncCursor : Option String
  errorCode : Option String
  sourceIds : List String
  failedExternalIds : List String
  errors : List String
  deferredEmbeddingInputs : List String

/-- The variables of the loops of `_sync_items`. -/
structure SyncProgress where
  sourceIds : List String := []
  errors : List String := []
  failedExternalIds : List String := []
  importedCount : Nat := 0
  duplicateCount : Nat := 0
  skippedCount : Nat
  failedCount : Nat := 0
  syncCursor : Option String
  failureBlockedCursorAdvance : Bool := false
  deferredEmbeddingInputs : List String := []

namespace SyncProgress

/-- An item that could not be read or captured. -/
def itemFailed (p : SyncProgress) (externalId : String) : SyncProgress :=
  { p with
    failedCount := p.failedCount + 1
    failedExternalIds := p.failedExternalIds ++ [externalId]
    errors := p.errors ++ [connectorItemImportErrorMessage]
    failureBlockedCursorAdvance := true }

/-- An item at or below the cursor. -/
def itemSkipped (p : SyncProgress) : SyncProgress := { p with skippedCount := p.skippedCount + 1 }

/-- The counts of a captured item. -/
def itemCounted (p : SyncProgress) (result : CaptureResult) : SyncProgress :=
  { p with
    duplicateCount := p.duplicateCount + if result.duplicate then 1 else 0
    importedCount := p.importedCount + if result.duplicate then 0 else 1
    sourceIds := p.sourceIds ++ if result.duplicate then [] else [result.sourceId]
    deferredEmbeddingInputs := p.deferredEmbeddingInputs ++ result.deferredEmbeddingInputs }

/-- The cursor moves to a captured item, unless an item before it failed. -/
def cursorMoved (p : SyncProgress) (cursor : String) : SyncProgress :=
  { p with syncCursor := if p.failureBlockedCursorAdvance then p.syncCursor else some cursor }

/-- `safe_cursor_override`. The cursor a caller knows to be safe is taken when no
failure holds the cursor back and it is ahead of the one reached. -/
def overridden (p : SyncProgress) (safeCursor : Option String) : SyncProgress :=
  { p with
    syncCursor := match safeCursor with
      | none => p.syncCursor
      | some safe =>
        if p.failureBlockedCursorAdvance then p.syncCursor
        else match p.syncCursor with
          | none => some safe
          | some cursor =>
            if cursorSortKey env cursor < cursorSortKey env safe then some safe else some cursor }

/-- The status of a sync. -/
def status (p : SyncProgress) : String :=
  if 0 < p.failedCount ∧ (0 < p.importedCount ∨ 0 < p.duplicateCount) then "partial"
  else if 0 < p.failedCount then "failed"
  else if p.importedCount = 0 ∧ p.duplicateCount = 0 ∧ 0 < p.skippedCount then "skipped"
  else "ok"

end SyncProgress

/-! ### Syncing items -/

/-- A connector, and what a sync of it is asked for. -/
structure SyncRequest where
  connectorName : String
  domain : String
  sensitivity : String
  itemCount : Nat
  extraSkippedCount : Nat := 0
  safeCursorOverride : Option String := none

/-- What is captured of an item. -/
def NormalizedConnectorItem.captureInput (item : NormalizedConnectorItem)
    (domain sensitivity : String) : SourceCaptureInput :=
  { sourceType := item.sourceType
    rawText := item.rawText
    title := some item.title
    author := item.author
    uri := item.uri
    rawPath := item.rawPath
    connectorName := some item.connectorName
    externalId := some item.externalId
    domain := domain
    sensitivity := sensitivity
    capturedAt := item.capturedAt
    sourceCreatedAt := item.sourceCreatedAt
    sourceModifiedAt := item.sourceModifiedAt
    metadataJson := item.metadataJson.update
      [("connector_name", .str item.connectorName), ("external_id", .str item.externalId),
        ("sync_cursor", .str item.cursor), ("default_domain", .str domain),
        ("default_sensitivity", .str sensitivity)] }

variable (svc : CaptureService)
  (normalize : UtcMoment → Dict Json → Except ConnectorError NormalizedConnectorItem)

/-- The loop that reads the items. -/
def normalizeItems : List (Dict Json) → Nat → SyncProgress →
    Connector (List NormalizedConnectorItem × SyncProgress)
  | [], _, p => pure ([], p)
  | item :: rest, index, p => do
    let now ← env.capture.now <$> takeTick
    match normalize now item with
    | .ok normalized => do
      let (later, p) ← normalizeItems rest (index + 1) p
      return (normalized :: later, p)
    | .error _ => do
      -- the item is named by the first of these fields, or by its place
      let externalId := (firstText item ["external_id", "id", "filename", "path", "url"]).getD
        ("item-" ++ toString index)
      logConnectorEvent env "connector.item_failed" (some externalId) none none
      normalizeItems rest (index + 1) (p.itemFailed externalId)

/-- `capture_source`, `None` where it raises. -/
def tryCapture (input : SourceCaptureInput) : Connector (Option CaptureResult) :=
  catching (do
    let result ← ofCapture (captureSource env.capture svc input)
    return some result) fun _ => pure none

/-- The body of the loop that captures the items. -/
def syncItem (request : SyncRequest) (previous : Option String) (p : SyncProgress)
    (item : NormalizedConnectorItem) : Connector SyncProgress :=
  if cursorLte env item.cursor previous then pure p.itemSkipped
  else do
    match ← tryCapture env svc (item.captureInput request.domain request.sensitivity) with
    | none => do
      logConnectorEvent env "connector.item_failed" (some item.externalId) (some item.cursor) none
      return p.itemFailed item.externalId
    | some result => do
      logConnectorEvent env "connector.item_imported" (some item.externalId) (some item.cursor)
        (some result.sourceId)
      return (p.itemCounted result).cursorMoved item.cursor

/-- The row `upsert_connector_state` leaves: a cursor that is `None` keeps the
one stored. -/
def upsertedState (result : ConnectorSyncResult) (now : String) (old : Option ConnectorStateRow) :
    ConnectorStateRow :=
  let success := if result.status ∈ ["ok", "partial", "skipped"] then some now else none
  let failure := if result.status = "failed" then some now else none
  { cursorValue := result.syncCursor.or (old.bind (·.cursorValue))
    lastSyncAt := now
    lastSuccessAt := success.or (old.bind (·.lastSuccessAt))
    lastFailureAt := failure.or (old.bind (·.lastFailureAt))
    lastError := result.errors.head?
    itemsSeen := (old.map (·.itemsSeen)).getD 0 + result.itemCount
    itemsCaptured := (old.map (·.itemsCaptured)).getD 0 + result.importedCount
    itemsDeduped := (old.map (·.itemsDeduped)).getD 0 + result.duplicateCount
    itemsFailed := (old.map (·.itemsFailed)).getD 0 + result.failedCount }

/-- `_record_connector_state`: a failure is logged. -/
def recordConnectorState (result : ConnectorSyncResult) : Connector Unit :=
  if env.hasConnectorState then
    catching (connectorCall env fun n => modify fun s =>
      { s with state := some (upsertedState result (utcNowIso (env.capture.now n)) s.state) })
      fun _ => logConnectorEvent env "connector.state_update_failed" none none none
  else pure ()

/-- `_sync_items` behind its checks, with the way the cursor is read. -/
def syncItemsFrom (readCursor : Connector (Option String)) (request : SyncRequest)
    (items : List (Dict Json)) : Connector ConnectorSyncResult := do
  let previous ← readCursor
  logConnectorEvent env "connector.sync_started" none none none
  -- an item that cannot be read is counted as failed, and the others are imported
  let (normalized, p) ← normalizeItems env normalize items 0
    { skippedCount := request.extraSkippedCount, syncCursor := previous }
  -- in the order of their cursors, so that the cursor only moves on
  let sorted := normalized.insertionSort fun a b =>
    cursorSortKey env a.cursor ≤ cursorSortKey env b.cursor
  let p ← sorted.foldlM (syncItem env svc request previous) p
  let p := p.overridden env request.safeCursorOverride
  let result : ConnectorSyncResult :=
    { status := p.status
      connectorName := request.connectorName
      itemCount := request.itemCount
      importedCount := p.importedCount
      duplicateCount := p.duplicateCount
      skippedCount := p.skippedCount
      failedCount := p.failedCount
      previousCursor := previous
      syncCursor := p.syncCursor
      errorCode := if p.failedCount = 0 then none else some connectorItemImportErrorCode
      sourceIds := p.sourceIds
      failedExternalIds := p.failedExternalIds
      errors := p.errors
      deferredEmbeddingInputs := p.deferredEmbeddingInputs }
  logConnectorEvent env
    (if result.status = "failed" then "connector.sync_failed" else "connector.sync_completed")
    none result.syncCursor none
  -- the cursor is stored last, after every item was tried
  recordConnectorState env result
  return result

/-- The columns of `ConnectorDefinition` a sync reads. -/
structure ConnectorDefinition where
  name : String
  defaultDomain : String
  defaultSensitivity : String

/-- The members of `get_config` a sync reads. -/
structure ConnectorConfig where
  defaultDomain : Option String := none
  defaultSensitivity : Option String := none

/-- `asked or _as_optional_text(configured) or default`. -/
def firstDefault (asked configured : Option String) (default : String) : String :=
  ((asked.filter (· ≠ "")).or (storedCursor configured)).getD default

/-- `_sync_items`. The domains and levels it admits are those of the store. -/
def syncItems (readCursor : Connector (Option String)) (definition : ConnectorDefinition)
    (config : ConnectorConfig) (defaultDomain defaultSensitivity : Option String)
    (originalItemCount : Option Nat) (extraSkippedCount : Nat)
    (safeCursorOverride : Option String) (items : List (Dict Json)) :
    Connector ConnectorSyncResult := do
  let domain := firstDefault defaultDomain config.defaultDomain definition.defaultDomain
  let sensitivity :=
    firstDefault defaultSensitivity config.defaultSensitivity definition.defaultSensitivity
  -- an invalid default raises before anything is logged
  raiseIf (domain ∉ vnextDomains) (.validation ("invalid connector default domain: " ++ domain))
  raiseIf (sensitivity ∉ vnextSensitivityLevels)
    (.validation ("invalid connector default sensitivity: " ++ sensitivity))
  syncItemsFrom env svc normalize readCursor
    { connectorName := definition.name
      domain := domain
      sensitivity := sensitivity
      itemCount := originalItemCount.getD items.length
      extraSkippedCount := extraSkippedCount
      safeCursorOverride := safeCursorOverride } items

/-! ### Syncing Telegram updates -/

/-- The Telegram entry of `SUPPORTED_CONNECTORS`. -/
def telegramDefinition : ConnectorDefinition :=
  { name := "telegram"
    defaultDomain := "personal"
    defaultSensitivity := "private" }

/-- The arguments of `sync_telegram_updates`, and the configuration stored. -/
structure TelegramSync where
  updates : List (Dict Json)
  allowedChatIds : List String
  defaultDomain : Option String := none
  defaultSensitivity : Option String := none
  config : ConnectorConfig := {}

/-- The chats on the allowlist. -/
def TelegramSync.allowed (request : TelegramSync) : List String :=
  request.allowedChatIds.filter fun chat => strip chat ≠ ""

/-- The variables of the loop of `sync_telegram_updates`. -/
structure ScreenedUpdates where
  accepted : List (Dict Json) := []
  rejectedCount : Nat := 0
  safeCursor : Option String := none

/-- The larger of the cursor kept and an update's. -/
def saferCursor (safe updateId : Option String) : Option String :=
  match updateId, safe with
  | none, safe => safe
  | some id, none => some id
  | some id, some safe =>
    if cursorSortKey env safe < cursorSortKey env id then some id else some safe

/-- Whether the chat of an update is on the allowlist. -/
def chatAllowed (allowed : List String) (update : Dict Json) : Bool :=
  (telegramChatId env update).any fun chat => decide (chat ∈ allowed)

/-- The body of the loop of `sync_telegram_updates`. -/
def screenUpdate (allowed : List String) (screened : ScreenedUpdates) (update : Dict Json) :
    Connector ScreenedUpdates := do
  let updateId := telegramUpdateId env update
  let screened := { screened with safeCursor := saferCursor env screened.safeCursor updateId }
  if chatAllowed env allowed update then
    return { screened with accepted := screened.accepted ++ [update] }
  else do
    logConnectorEvent env "connector.item_rejected" (some (updateId.getD "unknown")) none none
    return { screened with rejectedCount := screened.rejectedCount + 1 }

/-- `sync_telegram_updates`, with the way the cursor is read. -/
def syncTelegramUpdatesWith (readCursor : Connector (Option String)) (request : TelegramSync) :
    Connector ConnectorSyncResult := do
  raiseIf (request.allowed = [])
    (.validation "telegram connector requires at least one allowed chat id")
  let screened ← request.updates.foldlM (screenUpdate env request.allowed) {}
  syncItems env svc (normalizeConnectorItem env) readCursor telegramDefinition request.config
    request.defaultDomain request.defaultSensitivity (some request.updates.length)
    screened.rejectedCount screened.safeCursor screened.accepted

/-- `sync_telegram_updates`. -/
def syncTelegramUpdates (request : TelegramSync) : Connector ConnectorSyncResult :=
  syncTelegramUpdatesWith env svc (getCursor env) request

end AliceBot
