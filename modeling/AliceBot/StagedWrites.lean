import AliceBot.Library.Effect
import AliceBot.Library.Mentions

/-!
# Staged writes

While a workflow waits for a provider it writes to a `_StagedSchedulerStore`, which only takes
down what was asked, gives each new row a provisional id, and reads through to the store behind
it. `SchedulerWorkflowPlan.publish` makes the calls later, with every provisional id replaced
by the id that the store has answered with.

The store behind is a parameter: what its methods answer, and the state they leave.
-/

namespace AliceBot

open PyLib

/-! ### Stores -/

/-- What a call may raise. -/
inductive StagingError where
  | validation (message : String)
  | key (name : String)
  | store (name : String)
deriving DecidableEq

/-- The methods that create a row. -/
inductive CreateMethod where
  | artifact
  | memory
  | openLoop
  | edge
  | revision
deriving DecidableEq

/-- The methods that create a row unless there is one under its key. -/
inductive UpsertMethod where
  | artifact
  | memory
  | openLoop
  | edge
deriving DecidableEq

/-- What a publication falls back to where the store has no such method. -/
def UpsertMethod.create : UpsertMethod → CreateMethod
  | .artifact => .artifact
  | .memory => .memory
  | .openLoop => .openLoop
  | .edge => .edge

/-- The key of a row. -/
inductive UpsertKey where
  | artifact (artifactType workflow digest : String)
  | memory (profileId memoryKey : String)
  | openLoop (digest : String) (projectId personId : Option String)
  | edge (digest : String)
deriving DecidableEq

/-- A store behind the staged one: its methods on its states. -/
structure Delegate (σ : Type) where
  appendEvent : Dict Json → σ → Except StagingError (Dict Json × σ)
  create : CreateMethod → Dict Json → String → σ → Except StagingError (Dict Json × σ)
  upsert : UpsertMethod →
    Option (Dict Json → Dict String → String → σ → Except StagingError (Dict Json × σ))
  updateMemory : String → Dict Json → String → σ → Except StagingError (Dict Json × σ)
  /-- `get_memory`, where there is such a method. -/
  getMemory : String → σ → Option (Dict Json)
  listMemories : σ → List (Dict Json)
  /-- The finder of a key, where there is such a method. -/
  find : UpsertKey → σ → Option (Dict Json)

/-- `str(value)`. -/
structure StagingEnv where
  text : Json → String
  text_str : ∀ s, text (.str s) = s

/-- The methods of a staged mutation. -/
inductive StagedMethod where
  | appendEvent
  | create (method : CreateMethod)
  | upsert (method : UpsertMethod)
  | updateMemory
deriving DecidableEq

/-- `_StagedSchedulerMutation`. -/
structure StagedMutation where
  method : StagedMethod
  payload : Dict Json
  actorType : String
  options : Dict String
deriving DecidableEq

/-- `SchedulerWorkflowPlan`. -/
structure WorkflowPlan where
  artifact : Dict Json
  mutations : List StagedMutation

/-- What a `_StagedSchedulerStore` keeps: its mutations, and the rows it knows by their keys. -/
structure Staged where
  mutations : List StagedMutation
  known : List (UpsertKey × Dict Json)
deriving DecidableEq

section Store

variable {σ : Type} (env : StagingEnv) (delegate : Delegate σ)

/-! ### Staging -/

/-- `str(value or default)`. -/
def textOr (value : Json) (default : String) : String :=
  if value.truthy then env.text value else default

/-- A row of a payload: `row["id"] = str(row.get("id") or uuid4())`. -/
def stagedRow (payload : Dict Json) (uuid : String) : Dict Json :=
  payload.set "id" (.str (textOr env (payload.item "id") uuid))

/-- `_stage_create`. -/
def stageCreate (method : StagedMethod) (payload : Dict Json) (actorType : String)
    (options : Dict String) (uuid : String) (staged : Staged) : Dict Json × Staged :=
  let row := stagedRow env payload uuid
  (row, { staged with mutations := staged.mutations ++ [⟨method, row, actorType, options⟩] })

/-- `append_event`. -/
def stageEvent (event : Dict Json) (uuid : String) (staged : Staged) : Dict Json × Staged :=
  let row := stagedRow env event uuid
  stageCreate env .appendEvent event (textOr env (row.item "actor_type") "scheduler") [] uuid staged

/-- `str(record[field]) if record.get(field) is not None else None`. -/
def fieldText (record : Dict Json) (field : String) : Option String :=
  match record.item field with
  | .null => none
  | value => some (env.text value)

/-- The key under which a row is looked for. -/
def upsertKey (method : UpsertMethod) (payload : Dict Json) (options : Dict String) :
    Except StagingError UpsertKey :=
  let option name := (Dict.get? options name).getD ""
  match method with
  | .artifact =>
    match Dict.get? payload "artifact_type" with
    | some value => .ok (.artifact (env.text value) (option "workflow") (option "digest"))
    | none => .error (.key "artifact_type")
  | .memory =>
    let memoryKey := strip (textOr env (payload.item "memory_key") "")
    if memoryKey = "" then .error (.validation "staged memory_key must not be empty")
    else .ok (.memory (textOr env (payload.item "agent_profile_id") "assistant_default") memoryKey)
  | .openLoop =>
    .ok (.openLoop (option "digest") (fieldText env payload "project_id")
      (fieldText env payload "person_id"))
  | .edge =>
    let digest := strip (option "digest")
    if digest = "" then .error (.validation "staged edge digest must not be empty")
    else .ok (.edge digest)

/-- What a staged upsert writes into the metadata of its row. -/
def keyFields (method : UpsertMethod) (options : Dict String) : Dict Json :=
  let option name := Json.str ((Dict.get? options name).getD "")
  match method with
  | .artifact => [("workflow", option "workflow"), ("idempotency_digest", option "digest")]
  | .memory => []
  | .openLoop => [("automation_digest", option "digest"), ("idempotency_digest", option "digest")]
  | .edge => [("idempotency_digest", option "digest")]

/-- The options that are staged: the digest of an edge is stripped. -/
def stagedOptions (method : UpsertMethod) (options : Dict String) : Dict String :=
  match method with
  | .edge => options.map fun (name, value) => (name, strip value)
  | _ => options

/-- The payload that is staged: its metadata name the key. -/
def keyedPayload (method : UpsertMethod) (payload : Dict Json) (options : Dict String) :
    Dict Json :=
  match method with
  | .memory => payload
  | _ =>
    let metadata := (payload.item "metadata_json").objOrEmpty
    payload.set "metadata_json" (.obj (metadata.update (keyFields method options)))

/-- `upsert_artifact_by_workflow_digest`, `upsert_memory_by_key`,
`upsert_open_loop_by_automation_digest` and `upsert_edge_by_idempotency_digest`: a row that is
staged under the key, or found in the store, is returned as it is. -/
def stageUpsert (method : UpsertMethod) (payload : Dict Json) (options : Dict String)
    (actorType uuid : String) (source : σ) (staged : Staged) :
    Except StagingError (Dict Json × Option String × Staged) := do
  let key ← upsertKey env method payload options
  -- a row staged before comes first, then one of the store
  match staged.known.lookup key with
  | some row => .ok (row, none, staged)
  | none =>
    match delegate.find key source with
    | some row => .ok (row, none, staged)
    | none =>
      let options := stagedOptions method options
      let payload := keyedPayload method payload options
      let (row, staged) := stageCreate env (.upsert method) payload actorType options uuid staged
      .ok (row, some (textOr env (payload.item "id") uuid),
        { staged with known := staged.known ++ [(key, row)] })

/-- The row that an update is about: the one of the store. -/
def updateTarget (memoryId : String) (source : σ) : Option (Dict Json) :=
  match delegate.getMemory memoryId source with
  | some row => some row
  | none => (delegate.listMemories source).find? fun row => env.text (row.item "id") = memoryId

/-- `update_memory`. The patch is staged, and the answer is the row it is meant for with
the patch on it. -/
def stageUpdate (memoryId : String) (patch : Dict Json) (actorType : String) (source : σ)
    (staged : Staged) : Except StagingError (Dict Json × Staged) :=
  match updateTarget env delegate memoryId source with
  | none => .error (.validation "staged memory update target does not exist")
  | some current =>
    .ok (current.update patch, { staged with
      mutations := staged.mutations ++
        [⟨.updateMemory, patch, actorType, [("memory_id", memoryId)]⟩] })

/-! ### Publication -/

/-- `_publish_mutation`. A staged mutation is made on the store. An upsert has been
looked up when it was staged, so a store without upserts creates the row. -/
def publishMutation (method : StagedMethod) (payload : Dict Json) (actorType : String)
    (options : Dict String) (s : σ) : Except StagingError (Dict Json × σ) :=
  match method with
  | .appendEvent => delegate.appendEvent payload s
  | .create method => delegate.create method payload actorType s
  | .upsert method =>
    match delegate.upsert method with
    | some upsert => upsert payload options actorType s
    | none => delegate.create method.create payload actorType s
  | .updateMemory =>
    delegate.updateMemory ((Dict.get? options "memory_id").getD "") payload actorType s

/-- `str(row.get("id") or "").strip() or None`. -/
def provisionalId (row : Dict Json) : Option String :=
  let id := strip (textOr env (row.item "id") "")
  if id = "" then none else some id

/-- The loop of `publish`: the ids so far, and the rows by their provisional ids. -/
def publishFrom : List StagedMutation → Renames → Dict (Dict Json) → σ →
    Except StagingError (Renames × Dict (Dict Json) × σ)
  | [], ids, rows, s => .ok (ids, rows, s)
  | mutation :: rest, ids, rows, s => do
    let payload := Json.mapFields (replaceText ids) mutation.payload
    let options := mutation.options.map fun (name, value) => (name, replaceText ids value)
    let (row, s) ← publishMutation delegate mutation.method payload mutation.actorType options s
    match provisionalId env mutation.payload, fieldText env row "id" with
    | some provisional, some durable =>
      publishFrom rest (Dict.set ids provisional durable) (Dict.set rows provisional row) s
    | _, _ => publishFrom rest ids rows s

/-- `SchedulerWorkflowPlan.publish`. -/
def publish (plan : WorkflowPlan) (s : σ) : Except StagingError (Dict Json × σ) := do
  let (ids, rows, s) ← publishFrom env delegate plan.mutations [] [] s
  let row := (provisionalId env plan.artifact).bind (Dict.get? rows)
  .ok (row.getD (Json.mapFields (replaceText ids) plan.artifact), s)

/-! ### Workflows -/

/-- A call of a workflow. Texts and keys of what it hands in may mention the ids of rows that
were staged by earlier calls. A call that may stage a row carries the `uuid4()` it would draw. -/
inductive Call where
  | event (payload : List (List Piece × Template)) (uuid : String)
  | create (method : CreateMethod) (payload : List (List Piece × Template))
      (actorType uuid : String)
  | upsert (method : UpsertMethod) (payload : List (List Piece × Template))
      (options : List (String × List Piece)) (actorType uuid : String)
  | update (memoryId : List Piece) (patch : List (List Piece × Template)) (actorType : String)

/-- Options with names. -/
def optionTexts (names : List String) (options : List (String × List Piece)) : Dict String :=
  options.map fun (name, pieces) => (name, renderText names pieces)

/-- A call on the staged store: the value returned, the provisional id of the row it staged, if
any, and what is staged then. -/
def stageCall (source : σ) (names : List String) (staged : Staged) :
    Call → Except StagingError (Dict Json × Option String × Staged)
  | .event payload uuid =>
    let event := Template.jsonFields names payload
    let (row, staged) := stageEvent env event uuid staged
    .ok (row, some (textOr env (event.item "id") uuid), staged)
  | .create method payload actorType uuid =>
    let record := Template.jsonFields names payload
    let (row, staged) := stageCreate env (.create method) record actorType [] uuid staged
    .ok (row, some (textOr env (record.item "id") uuid), staged)
  | .upsert method payload options actorType uuid =>
    stageUpsert env delegate method (Template.jsonFields names payload)
      (optionTexts names options) actorType uuid source staged
  | .update memoryId patch actorType => do
    let (row, staged) ← stageUpdate env delegate (renderText names memoryId)
      (Template.jsonFields names patch) actorType source staged
    .ok (row, none, staged)

/-- The calls of a workflow on the staged store, over one state of the store behind it. -/
def stageRun (source : σ) : List Call → List String → Staged →
    Except StagingError (List (Dict Json) × List (Option String) × Staged)
  | [], _, staged => .ok ([], [], staged)
  | call :: rest, names, staged => do
    let (value, chosen, staged) ← stageCall env delegate source names staged call
    let (values, chosens, staged) ← stageRun source rest (names ++ chosen.toList) staged
    .ok (value :: values, chosen :: chosens, staged)

/-- A record, given an id. -/
def givenId (record : Dict Json) (chosen : Option String) : Dict Json :=
  match chosen with
  | some id => record.set "id" (.str id)
  | none => record

/-- The same call on the store itself, with the id that staging chose. -/
def directCall (names : List String) (chosen : Option String) (s : σ) :
    Call → Except StagingError (Dict Json × σ)
  | .event payload _ => delegate.appendEvent (givenId (Template.jsonFields names payload) chosen) s
  | .create method payload actorType _ =>
    delegate.create method (givenId (Template.jsonFields names payload) chosen) actorType s
  | .upsert method payload options actorType _ =>
    publishMutation delegate (.upsert method) (givenId (Template.jsonFields names payload) chosen)
      actorType (optionTexts names options) s
  | .update memoryId patch actorType =>
    delegate.updateMemory (renderText names memoryId) (Template.jsonFields names patch) actorType s

/-- One call of a run on the store itself: the provisional ids so far with those the store
answered with, the states before and after, and the row answered. -/
structure DirectStep (σ : Type) where
  ids : Renames
  before : σ
  row : Dict Json
  after : σ
deriving DecidableEq

/-- The calls of a workflow on the store itself. Ids are mentioned as the store answered them. -/
def directRun : List (Call × Option String) → Renames → σ →
    Except StagingError (List (DirectStep σ) × Renames × σ)
  | [], ids, s => .ok ([], ids, s)
  | (call, chosen) :: rest, ids, s => do
    let (row, after) ← directCall delegate (ids.map Prod.snd) chosen s call
    let answered :=
      match chosen, fieldText env row "id" with
      | some provisional, some durable => [(provisional, durable)]
      | _, _ => []
    let (steps, final, last) ← directRun rest (ids ++ answered) after
    .ok (⟨ids, s, row, after⟩ :: steps, final, last)

end Store

end AliceBot
