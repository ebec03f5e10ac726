import AliceBot.BatchImport
import AliceBot.ConversationOrder
import AliceBot.Library.Binary64
import Mathlib.Data.List.Basic

/-!
# The transcripts of an export

`import_chatgpt_export_file` makes all transcripts of an export before it captures the
first one, outside the handler of its loop. A timestamp that raises therefore ends the
whole import: an integer beyond the floats, and a text whose instant in UTC is outside
the calendar (`Overflows`).

A conversation without times of its own takes the smallest and the greatest text among
those of its messages. A whole second is written without a fraction and sorts behind
every fraction of it, so the texts agree with the instants unless the second in question
has both (`SharesSecond`).
-/

namespace AliceBot

open PyLib

/-! ### Values -/

/-- What the language makes of the values of an export. -/
structure ExportEnv where
  /-- `str(value)` of a value that is not a string. -/
  repr : Json → String
  /-- `value.upper()`. -/
  upper : String → String
  /-- `float(text)`, where it does not raise; a float that is not finite is `none`. -/
  readFloat : String → Option (Option Rat)
  /-- `datetime.fromtimestamp(numeric, tz=UTC)`, where it does not raise. -/
  fromtimestamp : Rat → Option UtcMoment
  /-- `datetime.fromisoformat`, where it does not raise. -/
  fromisoformat : String → Option PyDateTime
  /-- `json.dumps(payload, sort_keys=True, ensure_ascii=False)`. -/
  dumps : Json → String
  /-- The call frames there are. -/
  frames : Nat

variable (env : ExportEnv)

/-- `str(value)`. -/
def ExportEnv.str : Json → String
  | .str s => s
  | value => env.repr value

/-- `first or second`. -/
def orValue (first second : Json) : Json := if first.truthy then first else second

/-! ### Conversations -/

/-- The items of a list that are mappings. -/
def mappingsOf (items : List Json) : List (Dict Json) := items.filterMap Json.asObj?

/-- `_chatgpt_conversations`. The conversations of an export: a list of them, a field of
that name, or one conversation by itself. -/
def chatgptConversations : Json → List (Dict Json)
  | .arr items => mappingsOf items
  | .obj payload =>
    match Dict.get? payload "conversations" with
    | some (.arr conversations) => mappingsOf conversations
    | _ =>
      match Dict.get? payload "mapping", Dict.get? payload "messages" with
      | some (.obj _), _ => [payload]
      | _, some (.arr _) => [payload]
      | _, _ => []
  | _ => []

/-- `_chatgpt_conversation_id`. -/
def chatgptConversationId (conversation : Dict Json) (index : Nat) : String :=
  match ["id", "conversation_id"].find? fun key =>
      decide (conversation.item key ≠ .null ∧ strip (env.str (conversation.item key)) ≠ "") with
  | some key => collapse (env.str (conversation.item key))
  | none => "conversation-" ++ toString index

/-- The title of a transcript. -/
def conversationTitle (conversation : Dict Json) (index : Nat) : String :=
  let numbered := "Conversation " ++ toString index
  let title := collapse (env.str (orValue (conversation.item "title") (.str numbered)))
  if title = "" then numbered else title

/-! ### Timestamps -/

/-- The datetime `_chatgpt_timestamp` writes out. -/
def chatgptMoment : Json → Except CaptureError (Option UtcMoment)
  | .int n =>
    match nearestDouble n with
    | some numeric => .ok (env.fromtimestamp numeric)
    -- `float(n)` raises; what `fromtimestamp` raises is caught
    | none => .error .overflow
  | .float q => .ok ((nearestDouble q).bind env.fromtimestamp)
  | .str value =>
    if strip value = "" then .ok none
    else match env.readFloat (strip value) with
      | some numeric => .ok (numeric.bind env.fromtimestamp)
      | none =>
        match env.fromisoformat (replaceAll (strip value) "Z" "+00:00") with
        | none => .ok none
        | some parsed =>
          match parsed.moment.toUtc with
          | some u => .ok (some u)
          -- the shift to UTC is not guarded
          | none => .error .overflow
  | _ => .ok none

/-- `_chatgpt_timestamp`. -/
def chatgptTimestamp (value : Json) : Except CaptureError (Option String) :=
  (chatgptMoment env value).map fun moment => moment.map (stampText false)

/-! ### Messages -/

/-- `_chatgpt_message_parts`. The lines of a message, whichever of the known fields they
are in. -/
def chatgptMessageParts (message : Dict Json) : List String :=
  let values := match message.item "content" with
    | .obj content =>
      match Dict.get? content "parts" with
      | some (.arr parts) => parts
      | _ => [orValue (Dict.item content "text")
          (orValue (Dict.item content "content") (Dict.item content "message"))]
    | .null => [orValue (message.item "text") (message.item "message")]
    | content => [content]
  (values.filterMap Json.asStr?).flatMap fun value =>
    let lines := splitlines (replaceAll (replaceAll value "\r\n" "\n") "\r" "\n")
    ((if lines.isEmpty then [value] else lines).map fun line => strip (collapse line)).filter
      (· ≠ "")

/-- The message of a node, which may be the node itself. -/
def chatgptMessage (node : Dict Json) : Dict Json :=
  match node.get? "message" with
  | some (.obj message) => message
  | _ => node

/-- The time of a message, or else of its node. -/
def messageTime (node : Dict Json) : Json :=
  match (chatgptMessage node).item "create_time" with
  | .null => node.item "create_time"
  | value => value

/-- The role of a message, in capitals. -/
def messageRole (message : Dict Json) : String :=
  let roleValue := match message.get? "author" with
    | some (.obj author) => Dict.item author "role"
    | _ => message.item "role"
  let role := env.upper (strip (env.str (orValue roleValue (.str "unknown"))))
  let spelled := role.toList.map fun c =>
    if ('A' ≤ c ∧ c ≤ 'Z') ∨ ('0' ≤ c ∧ c ≤ '9') ∨ c = '_' ∨ c = '-' then c else '_'
  if spelled = [] then "UNKNOWN" else String.ofList spelled

/-- What a transcript holds of the messages so far. -/
structure MessageLog where
  lines : List String := []
  timestamps : List String := []
  count : Nat := 0

/-- One turn of the loop over the nodes. -/
def transcribeNode (log : MessageLog) (node : Dict Json) : Except CaptureError MessageLog :=
  let message := chatgptMessage node
  let parts := chatgptMessageParts message
  if parts = [] then .ok log
  else
    (chatgptTimestamp env (messageTime node)).map fun timestamp =>
      { lines := log.lines ++ timestamp.toList.map (fun text => "[AT]: " ++ text) ++
          parts.map fun part => "[" ++ messageRole env message ++ "]: " ++ part
        timestamps := log.timestamps ++ timestamp.toList
        count := log.count + 1 }

/-- `_ordered_chatgpt_nodes`, which raises where the frames run out. -/
def nodesInOrder (conversation : Dict Json) : Except CaptureError (List (Dict Json)) :=
  match orderedChatgptNodes env.frames conversation with
  | some nodes => .ok nodes
  | none => .error .fault

/-- `_chatgpt_conversation_transcript`. One conversation as a text, message by message,
under a header with its id, its title and its times. -/
def chatgptConversationTranscript (conversation : Dict Json) (index : Nat) :
    Except CaptureError ConversationTranscript := do
  let title := conversationTitle env conversation index
  let externalId := chatgptConversationId env conversation index
  let nodes ← nodesInOrder env conversation
  let log ← nodes.foldlM (transcribeNode env) {}
  let ownCreated ← chatgptTimestamp env (conversation.item "create_time")
  let ownModified ← chatgptTimestamp env (conversation.item "update_time")
  -- a conversation without times of its own has those of its messages
  let createdAt := ownCreated.or log.timestamps.min?
  let modifiedAt := ownModified.or log.timestamps.max?
  let lines := ["[CONVERSATION]: " ++ externalId, "[TITLE]: " ++ title] ++
    createdAt.toList.map (fun text => "[CREATED_AT]: " ++ text) ++
    modifiedAt.toList.map (fun text => "[UPDATED_AT]: " ++ text) ++ log.lines
  pure
    { index := index
      externalId := externalId
      title := title
      rawText := "\n".intercalate lines
      messageCount := log.count
      createdAt := createdAt
      modifiedAt := modifiedAt }

/-! ### Other payloads -/

theorem sizeOf_get?_lt {fields : List (String × Json)} {key : String} {value : Json}
    (h : Dict.get? fields key = some value) : sizeOf value < sizeOf fields := by
  induction fields with
  | nil => exact nomatch h
  | cons field fields ih =>
    obtain ⟨k, v⟩ := field
    rw [Dict.get?_cons] at h
    simp only [List.cons.sizeOf_spec, Prod.mk.sizeOf_spec]
    split at h
    · rw [Option.some.inj h]
      omega
    · have hlt := ih h
      omega

theorem sizeOf_lt_obj {fields : List (String × Json)} {value : Json}
    (h : sizeOf value < sizeOf fields) : sizeOf value < sizeOf (Json.obj fields) := by
  rw [Json.obj.sizeOf_spec]
  omega

/-- The member of an object under a key, which is smaller than the object. -/
def memberBelow (fields : List (String × Json)) (key : String) :
    List { value : Json // sizeOf value < sizeOf fields } :=
  match h : Dict.get? fields key with
  | some value => [⟨value, sizeOf_get?_lt h⟩]
  | none => []

/-- The values of an object, which are smaller than the object. -/
def valuesBelow (fields : List (String × Json)) :
    List { value : Json // sizeOf value < sizeOf fields } :=
  fields.attach.map fun field => ⟨field.1.2, by
    have hlt := List.sizeOf_lt_of_mem field.2
    have hvalue : sizeOf field.1.2 < sizeOf field.1 := by
      cases field.1
      simp only [Prod.mk.sizeOf_spec]
      omega
    omega⟩

/-- `_extract_text_from_json_value`. The texts of a JSON value, wherever its known
fields keep them. -/
def extractTextFromJsonValue : Json → List String
  | .str value => if strip (collapse value) = "" then [] else [strip (collapse value)]
  | .arr items => items.attach.flatMap fun item => extractTextFromJsonValue item.1
  | .obj fields =>
    ((["text", "message"].flatMap (memberBelow fields)).flatMap fun member =>
        extractTextFromJsonValue member.1) ++
      ((memberBelow fields "content").flatMap fun content =>
        match _ : content.1 with
        | .obj inner =>
          (["parts", "text", "content", "message"].flatMap (memberBelow inner)).flatMap
            fun member => extractTextFromJsonValue member.1
        | .null => []
        | value => extractTextFromJsonValue value) ++
      ((memberBelow fields "mapping").flatMap fun mapping =>
        match _ : mapping.1 with
        | .obj nodes => (valuesBelow nodes).flatMap fun node => extractTextFromJsonValue node.1
        | _ => []) ++
      (["messages", "conversations", "items", "records"].flatMap (memberBelow fields)).flatMap
        fun member => extractTextFromJsonValue member.1
  | _ => []
termination_by value => sizeOf value
decreasing_by
  · exact (List.sizeOf_lt_of_mem item.2).trans (by simp only [Json.arr.sizeOf_spec]; omega)
  · exact sizeOf_lt_obj member.2
  · rename_i h
    exact (sizeOf_lt_obj member.2).trans (sizeOf_lt_obj (h ▸ content.2))
  · rename_i h
    exact sizeOf_lt_obj (h ▸ content.2)
  · rename_i h
    exact (sizeOf_lt_obj node.2).trans (sizeOf_lt_obj (h ▸ mapping.2))
  · exact sizeOf_lt_obj member.2

/-- The transcript of a payload without conversations. -/
def fallbackTranscript (name : String) (payload : Json) : ConversationTranscript :=
  let extractedTexts := extractTextFromJsonValue payload
  let fallbackText :=
    if extractedTexts = [] then env.dumps payload else "\n".intercalate extractedTexts
  { index := 1
    externalId := name ++ "#conversation-1"
    title := name
    rawText := "[CONVERSATION]: " ++ name ++ "#conversation-1\n[TITLE]: " ++ name ++ "\n"
      ++ fallbackText
    messageCount := extractedTexts.length
    createdAt := none
    modifiedAt := none }

/-- The transcripts of an export, with their format. -/
def exportTranscripts (name : String) (payload : Json) :
    Except CaptureError (String × List ConversationTranscript) :=
  ((chatgptConversations payload).zipIdx.mapM fun entry =>
      chatgptConversationTranscript env entry.1 (entry.2 + 1)).map fun transcripts =>
    if transcripts = [] then ("json_fallback_v1", [fallbackTranscript env name payload])
    else ("chatgpt_conversation_v1", transcripts)

/-! ### The import -/

/-- A file of an export, as it was read. -/
structure ChatgptExportFile where
  path : String
  name : String
  /-- The digest of its text, with its prefix. -/
  sha256 : String
  payload : Json

/-- `import_chatgpt_export_file`. The transcripts of an export are imported; one that
cannot be read raises before anything is written. -/
def importChatgptExportFile (captureEnv : CaptureEnv) (svc : CaptureService)
    (file : ChatgptExportFile) (domain sensitivity : String) : Capture BatchImportResult :=
  match exportTranscripts env file.name file.payload with
  | .error e => throw e
  | .ok (transcriptFormat, transcripts) =>
    importChatgptExport captureEnv svc
      { path := file.path
        name := file.name
        sha256 := file.sha256
        transcriptFormat := transcriptFormat
        transcripts := transcripts } domain sensitivity

end AliceBot
