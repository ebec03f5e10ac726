import AliceBot.Library.Effect
import AliceBot.Library.Json
import AliceBot.Library.Table
import AliceBot.Library.Text
import Mathlib.Data.List.Sort

/-!
# Entity linking

`EntityLinkingService` and the statements of the store it uses. A text is searched
for candidates, each candidate is looked up among the names and aliases of the
entities, and the owner of the text (a source or a memory) gets an edge to the
entity found or created. A person memory also gets an edge to the person its title
names, which is looked up by its type and its name alone.

What the regular expressions of the rules match is given, as are `casefold`, the
Unicode category, the clock and the ids; confidences are in hundredths. Events,
edge metadata and entity metadata are left out, and rows of other users.
-/

namespace AliceBot

open PyLib

/-! ### Names -/

/-- What the code takes from the interpreter. -/
structure LinkEnv where
  /-- `str.casefold`. -/
  casefold : String → String
  /-- `unicodedata.category(c)` starts with `P`. -/
  isPunctuation : Char → Bool
  /-- `uuid4`, the `n`-th time. -/
  newId : Nat → String
  /-- `_utc_now_iso`, the `n`-th time. -/
  utcNow : Nat → String

/-- A token without the punctuation at its edges. -/
def stripPunctuation (env : LinkEnv) (token : String) : String :=
  let front := token.toList.dropWhile env.isPunctuation
  String.ofList (front.reverse.dropWhile env.isPunctuation).reverse

/-- `normalize_entity_name`. -/
def normalizeEntityName (env : LinkEnv) (text : String) : String :=
  " ".intercalate
    (((words (env.casefold text)).map (stripPunctuation env)).filter fun token => token != "")

/-- `_HONORIFICS`. -/
def honorifics : List String :=
  ["mr", "mrs", "ms", "dr", "prof", "professor"]

/-- `_honorific_stripped`. -/
def honorificStripped (normalized : String) : Option String :=
  match words normalized with
  | first :: second :: rest =>
    if honorifics.contains first then some (" ".intercalate (second :: rest)) else none
  | _ => none

/-! ### Candidates -/

/-- `ENTITY_TYPES`. -/
inductive EntityType where
  | person
  | organization
  | project
  | topic
  | technology
  | market
  | report
  | agent
  | other
deriving DecidableEq, Repr

/-- The rules of `extract_entity_candidates`. -/
inductive SourceRule where
  | capitalizedSpan
  | domain
  | handle
  | acronym
  | capitalizedSpanDefault
  | repeatedCapitalized
deriving DecidableEq, Repr

namespace SourceRule

def text : SourceRule → String
  | capitalizedSpan => "capitalized_span"
  | domain => "domain"
  | handle => "handle"
  | acronym => "acronym"
  | capitalizedSpanDefault => "capitalized_span_default"
  | repeatedCapitalized => "repeated_capitalized"

/-- `RULE_CONFIDENCE`. -/
def confidence : SourceRule → Nat
  | capitalizedSpan => 75
  | domain => 70
  | handle => 65
  | acronym => 60
  | capitalizedSpanDefault => 60
  | repeatedCapitalized => 55

end SourceRule

/-- `ENTITY_EXTRACTION_BLOCKLIST`. -/
def entityExtractionBlocklist : List String :=
  ["monday", "tuesday", "wednesday", "thursday", "friday", "saturday", "sunday",
    "january", "february", "march", "april", "may", "june",
    "july", "august", "september", "october", "november", "december",
    "a", "an", "the", "this", "that", "these", "those", "there", "then",
    "when", "where", "while", "after", "before", "however", "meanwhile",
    "also", "and", "but", "because", "although", "though", "unless",
    "until", "if", "in", "on", "at", "by", "to", "of", "as", "or", "not",
    "with", "met",
    "is", "are", "was", "were", "be", "been", "it", "its", "we", "our",
    "i", "my", "you", "your", "he", "his", "she", "her", "they", "their",
    "yes", "no", "please", "thanks", "thank", "hello", "hi", "hey", "dear",
    "today", "tomorrow", "yesterday", "tonight",
    "later", "earlier", "soon", "now", "here", "finally", "suddenly",
    "maybe", "perhaps", "everyone", "someone", "anyone",
    "ask", "tell", "call", "ping", "email", "check",
    "decision", "preference", "prefer", "remember", "fact", "belief",
    "question", "answer", "commitment", "todo", "note", "procedure",
    "playbook", "happened", "log", "how",
    "ok", "okay", "asap", "fyi", "am", "pm", "tbd", "tba", "eta", "ps"]

/-- `EntityCandidate`. -/
structure EntityCandidate where
  name : String
  normalized : String
  entityType : EntityType
  sourceRule : SourceRule
  occurrences : Nat
  nonempty : normalized ≠ ""

/-- What a rule hands to `_candidate`, and where in the text it stands. -/
structure RuleMatch where
  position : Nat
  surface : String
  entityType : EntityType
  rule : SourceRule

/-- `_candidate`. -/
def RuleMatch.candidate? (env : LinkEnv) (m : RuleMatch) : Option EntityCandidate :=
  if h : normalizeEntityName env m.surface = "" then none
  else if entityExtractionBlocklist.contains (normalizeEntityName env m.surface) then none
  else some
    { name := m.surface
      normalized := normalizeEntityName env m.surface
      entityType := m.entityType
      sourceRule := m.rule
      occurrences := 1
      nonempty := h }

/-- One more occurrence: the rule with the highest confidence is kept. -/
def absorbCandidate (best : List EntityCandidate) (c : EntityCandidate) : List EntityCandidate :=
  if best.any fun b => b.normalized == c.normalized then
    best.map fun b =>
      if b.normalized = c.normalized then
        if b.sourceRule.confidence < c.sourceRule.confidence then
          { c with occurrences := b.occurrences + 1 }
        else { b with occurrences := b.occurrences + 1 }
      else b
  else best ++ [c]

/-- `extract_entity_candidates`, from what the rules match. -/
def extractEntityCandidates (env : LinkEnv) (rules : String → List RuleMatch) (text : String) :
    List EntityCandidate :=
  if strip text = "" then []
  else
    let found := (rules text).filterMap fun m =>
      (m.candidate? env).map fun c => (m.position, c)
    (found.insertionSort fun a b => a.1 ≤ b.1).foldl (fun best c => absorbCandidate best c.2) []

/-- `MAX_LINKED_ENTITIES_PER_TEXT`. -/
def maxLinkedEntitiesPerText : Nat := 25

/-- By confidence, then by occurrences, then by position. -/
def rankedBefore (a b : EntityCandidate × Nat) : Prop :=
  b.1.sourceRule.confidence < a.1.sourceRule.confidence ∨
    b.1.sourceRule.confidence = a.1.sourceRule.confidence ∧
      (b.1.occurrences < a.1.occurrences ∨ b.1.occurrences = a.1.occurrences ∧ a.2 ≤ b.2)

instance : DecidableRel rankedBefore := fun a b => by
  unfold rankedBefore
  infer_instance

/-- `select_candidates_for_linking`. -/
def selectCandidatesForLinking (candidates : List EntityCandidate) : List EntityCandidate :=
  if candidates.length ≤ maxLinkedEntitiesPerText then candidates
  else
    let ranked := candidates.zipIdx.insertionSort rankedBefore
    ((ranked.take maxLinkedEntitiesPerText).insertionSort fun a b => a.2 ≤ b.2).map (·.1)

/-- The candidates a text is linked by. -/
def candidatesOf (env : LinkEnv) (rules : String → List RuleMatch) (text : String) :
    List EntityCandidate :=
  selectCandidatesForLinking (extractEntityCandidates env rules text)

/-! ### Rows -/

/-- A row of `vnext_entities`. -/
structure EntityRow where
  id : String
  entityType : EntityType
  name : String
  normalizedName : String
  aliases : List String := []
  firstObservedAt : Option String
  lastObservedAt : Option String
  mentionCount : Nat
  updatedAt : String

/-- The entity answers to the key. -/
def EntityRow.answers (row : EntityRow) (key : String) : Bool :=
  row.normalizedName == key || row.aliases.contains key

/-- The edge types of the linker: `ENTITY_MENTION_EDGE_TYPE` and
`PERSON_ABOUT_EDGE_TYPE`. -/
inductive LinkEdgeType where
  | mentions
  | relatedToPerson
deriving DecidableEq, Repr

inductive OwnerType where
  | source
  | memory
deriving DecidableEq, Repr

/-- A row of `graph_edges` that goes to an entity. -/
structure GraphEdgeRow where
  fromType : OwnerType
  fromId : String
  toId : String
  edgeType : LinkEdgeType
  confidence : Nat
  explanation : String
  observedAt : String
  validTo : Option String := none

/-- The two tables, and how many ids and times were drawn. -/
structure LinkStore where
  entities : Table EntityRow.id := default
  edges : List GraphEdgeRow := []
  drawn : Nat := 0

inductive LinkError where
  | integrity
  | invariant (message : String)
deriving DecidableEq, Repr

abbrev Linking := EStateM LinkError LinkStore

/-! ### Statements -/

def drawNumber : Linking Nat :=
  modifyGet fun s => (s.drawn, { s with drawn := s.drawn + 1 })

/-- The length checks of the table. -/
def EntityRow.checks (row : EntityRow) : Bool :=
  1 ≤ row.name.length && row.name.length ≤ 500 && 1 ≤ row.normalizedName.length &&
    row.normalizedName.length ≤ 500

/-- `vnext_entities_user_type_normalized_name_key`. -/
def EntityRow.collides (row other : EntityRow) : Bool :=
  row.entityType == other.entityType && row.normalizedName == other.normalizedName

/-- The `INSERT`, under the constraints of the table. -/
def insertEntity (row : EntityRow) : Linking EntityRow := do
  let s ← get
  raiseIf (row.checks = false ∨ s.entities.rows.any row.collides) .integrity
  let entities ← orRaise (s.entities.insert? row) .integrity
  set { s with entities := entities }
  pure row

/-- `create_entity`, with a first mention. -/
def createEntity (env : LinkEnv) (entityType : EntityType) (name normalized : String)
    (observedAt : Option String) : Linking EntityRow := do
  let n ← drawNumber
  insertEntity
    { id := env.newId n
      entityType := entityType
      name := name
      normalizedName := if normalized = "" then normalizeEntityName env name else normalized
      firstObservedAt := observedAt
      lastObservedAt := observedAt
      mentionCount := 1
      updatedAt := env.utcNow n }

/-- `MIN(COALESCE(x, observed), observed)`. -/
def earliest (current : Option String) (observed : String) : String :=
  match current with
  | some c => if c ≤ observed then c else observed
  | none => observed

/-- `MAX(COALESCE(x, observed), observed)`. -/
def latest (current : Option String) (observed : String) : String :=
  match current with
  | some c => if observed ≤ c then c else observed
  | none => observed

/-- What `record_entity_mention` sets. -/
def mentionRewrite (observed now : String) : Rewrite EntityRow.id where
  apply row := { row with
    mentionCount := row.mentionCount + 1
    firstObservedAt := some (earliest row.firstObservedAt observed)
    lastObservedAt := some (latest row.lastObservedAt observed)
    updatedAt := now }

/-- `record_entity_mention`. One more mention, and the span of time in which the entity
was seen. -/
def recordEntityMention (env : LinkEnv) (entityId : String) (observedAt : Option String) :
    Linking EntityRow := do
  let observed ← orRaise observedAt (.invariant "record_entity_mention requires observed_at")
  let n ← drawNumber
  let s ← get
  let row ← orRaise (s.entities.get? entityId)
    (.invariant "record_entity_mention did not return a row from the database")
  set { s with entities := s.entities.rewrite entityId (mentionRewrite observed (env.utcNow n)) }
  pure ((mentionRewrite observed (env.utcNow n)).apply row)

/-- What `update_entity` sets for a patch of the aliases. -/
def aliasRewrite (aliases : List String) (now : String) : Rewrite EntityRow.id where
  apply row := { row with aliases := aliases, updatedAt := now }

/-- `update_entity`, with a patch of the aliases. -/
def updateEntityAliases (env : LinkEnv) (entityId : String) (aliases : List String) :
    Linking EntityRow := do
  let n ← drawNumber
  let s ← get
  let row ← orRaise (s.entities.get? entityId)
    (.invariant "update_entity did not return a row from the database")
  set { s with entities := s.entities.rewrite entityId (aliasRewrite aliases (env.utcNow n)) }
  pure ((aliasRewrite aliases (env.utcNow n)).apply row)

/-- `get_entity_by_normalized_name`. -/
def LinkStore.entityByNormalizedName (s : LinkStore) (entityType : EntityType)
    (normalized : String) : Option EntityRow :=
  s.entities.rows.find? fun row => row.entityType == entityType && row.normalizedName == normalized

/-- `ORDER BY mention_count DESC, updated_at DESC, id DESC`. -/
def mentionedBefore (a b : EntityRow) : Prop :=
  b.mentionCount < a.mentionCount ∨
    b.mentionCount = a.mentionCount ∧
      (b.updatedAt < a.updatedAt ∨ b.updatedAt = a.updatedAt ∧ b.id ≤ a.id)

instance : DecidableRel mentionedBefore := fun a b => by
  unfold mentionedBefore
  infer_instance

/-- `find_entities_by_names`. -/
def LinkStore.findEntitiesByNames (s : LinkStore) (names : List String) : List EntityRow :=
  (s.entities.rows.filter fun row => names.any row.answers).insertionSort mentionedBefore

/-- `_existing_edge_keys`: `list_edges` returns the active edges of an owner. -/
def LinkStore.existingEdgeKeys (s : LinkStore) (fromId : String) : List (String × LinkEdgeType) :=
  (s.edges.filter fun edge => edge.fromId == fromId && edge.validTo.isNone).map fun edge =>
    (edge.toId, edge.edgeType)

/-- The owner of a text. -/
structure LinkOwner where
  type : OwnerType
  id : String

/-- `_create_edge`. An edge from the owner of a text to an entity, observed when the
text was or now. -/
def createEdge (env : LinkEnv) (owner : LinkOwner) (toId : String) (edgeType : LinkEdgeType)
    (confidence : Nat) (explanation : String) (observedAt : Option String) :
    Linking GraphEdgeRow := do
  let n ← drawNumber
  let edge : GraphEdgeRow :=
    { fromType := owner.type
      fromId := owner.id
      toId := toId
      edgeType := edgeType
      confidence := confidence
      explanation := explanation
      observedAt := observedAt.getD (env.utcNow n) }
  modify fun s => { s with edges := s.edges ++ [edge] }
  pure edge

/-! ### Linking -/

inductive LinkAction where
  | created
  | mentioned
  | alreadyLinked
deriving DecidableEq, Repr

/-- What is reported of an entity. -/
structure LinkRecord where
  entity : EntityRow
  edge : Option GraphEdgeRow
  action : LinkAction

/-- `dict.setdefault`. -/
def setDefault (d : Dict EntityRow) (key : String) (row : EntityRow) : Dict EntityRow :=
  if d.has key then d else d.set key row

/-- `by_key`, from the rows of the lookup: the first row of a key wins. -/
def byKeyOf (rows : List EntityRow) : Dict EntityRow :=
  rows.foldl (fun d row =>
    (row.normalizedName :: row.aliases).foldl (fun d key => setDefault d key row) d) []

/-- `by_key` and `existing_edges`, which the loop keeps up to date. -/
structure LinkLookup where
  byKey : Dict EntityRow
  edges : List (String × LinkEdgeType)

/-- The entity a candidate resolves to, and whether by its fallback. -/
def LinkLookup.resolve (look : LinkLookup) (c : EntityCandidate) : Option (EntityRow × Bool) :=
  match look.byKey.get? c.normalized with
  | some entity => some (entity, false)
  | none =>
    match honorificStripped c.normalized with
    | some fallback => (look.byKey.get? fallback).map fun entity => (entity, true)
    | none => none

/-- `_append_alias`. -/
def appendAlias (env : LinkEnv) (entity : EntityRow) (name : String) : Linking EntityRow :=
  if entity.answers name then pure entity
  else updateEntityAliases env entity.id (entity.aliases ++ [name])

/-- The mention of an entity that was found, under its new name if it was found
by the fallback. -/
def mentionEntity (env : LinkEnv) (look : LinkLookup) (c : EntityCandidate) (found : EntityRow)
    (viaFallback : Bool) (observedAt : Option String) :
    Linking (EntityRow × Dict EntityRow) := do
  let entity ← recordEntityMention env found.id observedAt
  if viaFallback then do
    let entity ← appendAlias env entity c.normalized
    pure (entity, setDefault look.byKey c.normalized entity)
  else pure (entity, look.byKey)

/-- The edge from the owner to the entity a candidate was resolved to. -/
def createMention (env : LinkEnv) (owner : LinkOwner) (c : EntityCandidate) (toId : String)
    (observedAt : Option String) : Linking GraphEdgeRow :=
  createEdge env owner toId .mentions c.sourceRule.confidence
    s!"Deterministic extraction rule \"{c.sourceRule.text}\" matched \"{c.name}\"." observedAt

instance lawfulBEq_edgeKey : LawfulBEq (String × LinkEdgeType) := inferInstance

/-- One turn of the loop of `_link`. -/
def linkCandidate (env : LinkEnv) (owner : LinkOwner) (observedAt : Option String)
    (look : LinkLookup) (c : EntityCandidate) : Linking (LinkRecord × LinkLookup) :=
  match look.resolve c with
  | none => do
    let entity ← createEntity env c.entityType c.name c.normalized observedAt
    let edge ← createMention env owner c entity.id observedAt
    pure (⟨entity, some edge, .created⟩,
      { byKey := setDefault look.byKey entity.normalizedName entity
        edges := (entity.id, .mentions) :: look.edges })
  | some (found, viaFallback) =>
    -- mentioned before: neither the row nor the edges change
    if (found.id, .mentions) ∈ look.edges then pure (⟨found, none, .alreadyLinked⟩, look)
    else do
      let (entity, byKey) ← mentionEntity env look c found viaFallback observedAt
      let edge ← createMention env owner c entity.id observedAt
      pure (⟨entity, some edge, .mentioned⟩,
        { byKey := byKey
          edges := (entity.id, .mentions) :: look.edges })

/-- The loop of `_link`. -/
def linkCandidates (env : LinkEnv) (owner : LinkOwner) (observedAt : Option String) :
    LinkLookup → List EntityCandidate → Linking (List LinkRecord)
  | _, [] => pure []
  | look, c :: rest => do
    let (record, look) ← linkCandidate env owner observedAt look c
    let records ← linkCandidates env owner observedAt look rest
    pure (record :: records)

/-- `lookup_keys`. -/
def lookupKeys (candidates : List EntityCandidate) : List String :=
  candidates.flatMap fun c =>
    match honorificStripped c.normalized with
    | some fallback => if fallback = "" then [c.normalized] else [c.normalized, fallback]
    | none => [c.normalized]

/-- What the loop of `_link` begins with. -/
def LinkStore.lookup (s : LinkStore) (owner : LinkOwner) (candidates : List EntityCandidate) :
    LinkLookup where
  byKey := byKeyOf (s.findEntitiesByNames (lookupKeys candidates))
  edges := s.existingEdgeKeys owner.id

/-- `_link`. -/
def linkText (env : LinkEnv) (rules : String → List RuleMatch) (owner : LinkOwner) (text : String)
    (observedAt : Option String) : Linking (List LinkRecord) := do
  let candidates := candidatesOf env rules text
  let s ← get
  linkCandidates env owner observedAt (s.lookup owner candidates) candidates

/-- The entity of a person: created, or mentioned once more. -/
def ensurePerson (env : LinkEnv) (personName normalized : String) (observedAt : Option String) :
    Linking (EntityRow × LinkAction) := do
  let s ← get
  match s.entityByNormalizedName .person normalized with
  | none => do
    let entity ← createEntity env .person personName normalized observedAt
    pure (entity, .created)
  | some found => do
    let entity ← recordEntityMention env found.id observedAt
    pure (entity, .mentioned)

/-- `link_memory_to_person`. The person a memory is about is found or created, and
linked by one edge. -/
def linkMemoryToPerson (env : LinkEnv) (memoryId personName : String)
    (observedAt : Option String) : Linking (Option LinkRecord) :=
  if normalizeEntityName env personName = "" then pure none
  else do
    let (entity, action) ←
      ensurePerson env personName (normalizeEntityName env personName) observedAt
    let s ← get
    if (entity.id, .relatedToPerson) ∈ s.existingEdgeKeys memoryId then
      pure (some ⟨entity, none, action⟩)
    else do
      let edge ← createEdge env ⟨.memory, memoryId⟩ entity.id .relatedToPerson 80
        s!"Person memory is about \"{personName}\" (title-derived)." observedAt
      pure (some ⟨entity, some edge, action⟩)

/-! ### Calls -/

inductive LinkCall where
  | forSource (sourceId text : String) (observedAt : Option String)
  | forMemory (memoryId text : String) (observedAt : Option String)
  | toPerson (memoryId personName : String) (observedAt : Option String)

/-- `link_entities_for_source`, `link_entities_for_memory` and
`link_memory_to_person`. -/
def LinkCall.perform (env : LinkEnv) (rules : String → List RuleMatch) :
    LinkCall → Linking (List LinkRecord)
  | forSource sourceId text observedAt => linkText env rules ⟨.source, sourceId⟩ text observedAt
  | forMemory memoryId text observedAt => linkText env rules ⟨.memory, memoryId⟩ text observedAt
  | toPerson memoryId personName observedAt =>
    Option.toList <$> linkMemoryToPerson env memoryId personName observedAt

end AliceBot
