import AliceBot.Library.Calendar
import AliceBot.Library.CaseFolding
import AliceBot.Library.Effect
import AliceBot.ProjectScopeLaws

/-!
# Scope predicates

A retrieval scope narrows a query to projects, people and a window of time. The SQLite store
applies it as a clause before it limits the rows (`_project_clause` and
`_retrieval_scope_clause`), and the service verifies the rows that it reads
(`_row_matches_scope`).

The two read the projects of a row alike. They compare names differently: the clause strips blanks
and lowers ASCII letters, the verifier strips white space and folds case. A name that the clause
finds in the scope is found by the verifier (`lowered_of_name`). They compare times differently
too: the verifier by instants, the clause by `julianday`, which counts milliseconds.

`scopeClause_iff` says what follows. Of the rows that the verifier admits, the clause loses those
of which every matching name is spelled otherwise, and under a window those that are dated in their
metadata alone. Of the rows that the verifier refuses, it admits those whose event time lies just
outside the window, where `julianday` does not tell it from a bound.

A time column holds what the store writes, a UTC time with a trailing `Z`, which is one instant to
both; instants are counted in microseconds. What `parse_event_datetime` makes of a metadata value
is given.
-/

namespace AliceBot

open PyLib

/-! ### Scopes -/

/-- What a request says of its scope. -/
structure ScopeRequest where
  projects : List String
  people : List String
  timeWindow : String
  /-- `reference_time`, or else the clock. -/
  referenceTime : Int

/-- `_ResolvedRetrievalScope`. -/
structure ResolvedScope where
  projects : List String
  people : List String
  windowStart : Option Int
  windowEnd : Option Int
deriving DecidableEq

/-- `VNextRetrievalValidationError`. -/
structure ScopeError where
  message : String
deriving DecidableEq

/-- `MAX_CONTEXT_SCOPE_VALUES`. -/
def maxContextScopeValues : Nat := 50

/-- `MAX_TIME_WINDOW_DAYS`. -/
def maxTimeWindowDays : Nat := 3650

/-- Values that are short enough. -/
def shortValues (fieldName : String) (values : List String) : Except ScopeError (List String) :=
  if values.any fun value => 200 < value.toList.length then
    .error ⟨fieldName ++ " values must be at most 200 characters"⟩
  else .ok values

/-- A field with too many values. -/
def limitError (fieldName : String) : ScopeError :=
  ⟨fieldName ++ " is limited to " ++ toString maxContextScopeValues ++ " values"⟩

section Resolution

variable (folding : CaseFolding)

/-- `_normalized_scope_values`. -/
def normalizedScopeValues (values : List String) (fieldName : String) :
    Except ScopeError (List String) :=
  if maxContextScopeValues < values.length then .error (limitError fieldName)
  else
    shortValues fieldName
      ((values.filter (strip · ≠ "")).map fun value => folding.casefold (strip value))

/-- The days of `_TIME_WINDOW_PATTERN`. -/
def windowDays (raw : List Char) : Option Nat :=
  match raw.reverse with
  | 'd' :: reversed =>
    let digits := reversed.reverse
    if digits.all Char.isDigit ∧ 1 ≤ digits.length ∧ digits.length ≤ 4 ∧
        digits.head? ≠ some '0' then
      some (digits.foldl (fun n c => 10 * n + (c.toNat - 48)) 0)
    else none
  | _ => none

/-- The microseconds of a day. -/
def dayMicroseconds : Int := 86400000000

/-- The window of a request: none for `all`. -/
def resolveWindow (request : ScopeRequest) : Except ScopeError (Option (Int × Int)) :=
  let raw := folding.casefold (strip request.timeWindow)
  if raw = "all" then .ok none
  else
    match windowDays raw.toList with
    | none =>
      .error ⟨"time_window must be 'all' or a positive day window such as '7d' or '30d'"⟩
    | some days =>
      if maxTimeWindowDays < days then
        .error ⟨"time_window must not exceed " ++ toString maxTimeWindowDays ++ "d"⟩
      else .ok (some (request.referenceTime - days * dayMicroseconds, request.referenceTime))

/-- `_resolve_retrieval_scope`. The scope of a request in the form in which rows are
compared with it. -/
def resolveRetrievalScope (request : ScopeRequest) : Except ScopeError ResolvedScope :=
  if maxContextScopeValues < request.projects.length then .error (limitError "projects")
  else do
    let projects ← shortValues "projects" (projectScopeIdentity (.strs request.projects))
    let people ← normalizedScopeValues folding request.people "people"
    let window ← resolveWindow folding request
    .ok ⟨projects, people, window.map Prod.fst, window.map Prod.snd⟩

end Resolution

/-! ### Rows -/

/-- What the two predicates read of a memory row. -/
structure ScopedMemory where
  id : String
  projectId : Option String
  metadataJson : Dict Json
  validFrom : Option Int
  lastSeenAt : Option Int
  updatedAt : Option Int
  firstSeenAt : Option Int
  createdAt : Option Int

/-- The row as the service reads it; of the keys that the verifier asks for, no other is a column
of `memories`. -/
def ScopedMemory.columns (row : ScopedMemory) : Dict Json :=
  [("id", .str row.id), ("project_id", .optStr row.projectId),
    ("metadata_json", .obj row.metadataJson)]

/-- `parse_event_datetime(row.get(key))`, of a time column. -/
def ScopedMemory.moment (row : ScopedMemory) (key : String) : Option Int :=
  if key = "valid_from" then row.validFrom
  else if key = "last_seen_at" then row.lastSeenAt
  else if key = "updated_at" then row.updatedAt
  else if key = "first_seen_at" then row.firstSeenAt
  else if key = "created_at" then row.createdAt
  else none

/-- `_PEOPLE_SCOPE_KEYS`. -/
def peopleScopeKeys : List String := ["person_id", "person_ids", "person", "people", "people_ids"]

/-! ### The verifier -/

section Verifier

variable (folding : CaseFolding)

mutual
/-- `_scope_values_from`. -/
def scopeValuesFrom : Json → List String
  | .str s => if strip s = "" then [] else [folding.casefold (strip s)]
  | .arr items => scopeValuesFromItems items
  | .obj fields => scopeValuesFromFields fields
  | .null | .bool _ | .int _ | .float _ => []

def scopeValuesFromItems : List Json → List String
  | [] => []
  | value :: rest => scopeValuesFrom value ++ scopeValuesFromItems rest

def scopeValuesFromFields : List (String × Json) → List String
  | [] => []
  | (_, value) :: rest => scopeValuesFrom value ++ scopeValuesFromFields rest
end

/-- `_row_scope_values`. -/
def rowScopeValues (row : ScopedMemory) (keys : List String) : List String :=
  keys.flatMap (fun key => scopeValuesFrom folding (row.columns.item key)) ++
    keys.flatMap fun key => scopeValuesFrom folding (row.metadataJson.item key)

/-- `_row_project_scope_values`. -/
def rowProjectScopeValues (row : ScopedMemory) : List String :=
  (resolveProjectScope row.columns).identity

/-- `_SCOPE_EVENT_KEYS`. -/
def scopeEventKeys : List String :=
  ["valid_from", "source_created_at", "occurred_at", "opened_at", "last_seen_at", "updated_at",
    "first_seen_at", "created_at"]

/-- `SOURCE_EVENT_METADATA_KEYS`, with the two keys that are read after them. -/
def scopeMetadataEventKeys : List String :=
  ["session_date", "event_date", "date", "occurred_at", "opened_at"]

/-- `_row_scope_event_time`. -/
def rowScopeEventTime (parse : Json → Option Int) (row : ScopedMemory) : Option Int :=
  (scopeEventKeys.findSome? row.moment).or <|
    (scopeMetadataEventKeys.findSome? fun key => parse (row.metadataJson.item key)).or
      (row.moment "captured_at")

/-- The window of `_row_matches_scope`. -/
def scopeWindowHolds (scope : ResolvedScope) (eventTime : Option Int) : Bool :=
  match scope.windowStart with
  | none => true
  | some start =>
    match eventTime with
    | none => false
    | some moment =>
      if moment < start then false
      else
        match scope.windowEnd with
        | none => true
        | some last => !decide (last < moment)

/-- The people of `_row_matches_scope`. -/
def scopePeopleHold (row : ScopedMemory) (scope : ResolvedScope) (linked : List String) : Bool :=
  if scope.people = [] then true
  else
    linked.contains row.id ||
      (rowScopeValues folding row peopleScopeKeys).any scope.people.contains

/-- The projects of `_row_matches_scope`. -/
def scopeProjectsHold (row : ScopedMemory) (scope : ResolvedScope) : Bool :=
  scope.projects.isEmpty || (rowProjectScopeValues row).any scope.projects.contains

/-- `_row_matches_scope`, of a memory row. -/
def rowMatchesScope (parse : Json → Option Int) (row : ScopedMemory) (scope : ResolvedScope)
    (linked : List String) : Bool :=
  scopeProjectsHold row scope && scopePeopleHold folding row scope linked &&
    scopeWindowHolds scope (rowScopeEventTime parse row)

end Verifier

/-! ### The clause -/

/-- SQLite's `TRIM`, which strips blanks only. -/
def sqlTrim (value : String) : String :=
  String.ofList (((value.toList.dropWhile (· = ' ')).reverse.dropWhile (· = ' ')).reverse)

mutual
/-- The rows of type `text` of `json_tree`. -/
def jsonTreeTexts : Json → List String
  | .str s => [s]
  | .arr items => jsonTreeTextsOfItems items
  | .obj fields => jsonTreeTextsOfFields fields
  | .null | .bool _ | .int _ | .float _ => []

def jsonTreeTextsOfItems : List Json → List String
  | [] => []
  | value :: rest => jsonTreeTexts value ++ jsonTreeTextsOfItems rest

def jsonTreeTextsOfFields : List (String × Json) → List String
  | [] => []
  | (_, value) :: rest => jsonTreeTexts value ++ jsonTreeTextsOfFields rest
end

/-- `alice_project_scope_identity(metadata_json, project_id)`. -/
def projectScopeIdentityJson (metadataJson : Dict Json) (projectId : Option String) :
    List String :=
  (resolveProjectScope
    [("metadata_json", .obj metadataJson), ("project_id", .optStr projectId)]).identity

/-- `_project_clause`, asked of a row. -/
def projectClause (row : ScopedMemory) (projects : List String) : Bool :=
  let values := projectScopeIdentity (.strs projects)
  values.isEmpty ||
    (projectScopeIdentityJson row.metadataJson row.projectId).any values.contains

/-- The texts of `json_tree(json_array(json_extract(metadata_json, '$.key'), …))`. -/
def scopedPersonTexts (row : ScopedMemory) : List String :=
  jsonTreeTexts (.arr (peopleScopeKeys.map row.metadataJson.item))

/-- The event time of the clause: `COALESCE` over five columns. -/
def eventTimeClause (row : ScopedMemory) : Option Int :=
  row.validFrom.or <| row.lastSeenAt.or <| row.updatedAt.or <| row.firstSeenAt.or row.createdAt

/-- A comparison with the event time, which no row passes whose event time is null. -/
def eventTimeCompares (row : ScopedMemory) (compare : Int → Bool) : Bool :=
  (eventTimeClause row).any compare

/-- The people of `_retrieval_scope_clause`: linked, or named in the metadata. -/
def peopleClause (row : ScopedMemory) (scopePeople scopePersonMemoryIds : List String) : Bool :=
  scopePeople.isEmpty ||
    (scopePersonMemoryIds.contains row.id ||
      (scopedPersonTexts row).any fun text => scopePeople.contains (asciiLower (sqlTrim text)))

section Clauses

variable (julianday : JulianDay)

/-- The window of `_retrieval_scope_clause`: bounds and event time are compared by `julianday`. -/
def windowClause (row : ScopedMemory) (scopeWindowStart scopeWindowEnd : Option Int) : Bool :=
  scopeWindowStart.all (fun start =>
      eventTimeCompares row fun moment => julianday.read start ≤ julianday.read moment) &&
    scopeWindowEnd.all fun last =>
      eventTimeCompares row fun moment => julianday.read moment ≤ julianday.read last

/-- `_retrieval_scope_clause`, asked of a row. -/
def retrievalScopeClause (row : ScopedMemory) (scopePeople scopePersonMemoryIds : List String)
    (scopeWindowStart scopeWindowEnd : Option Int) : Bool :=
  peopleClause row scopePeople scopePersonMemoryIds &&
    windowClause julianday row scopeWindowStart scopeWindowEnd

/-- The clauses that a scope is turned into. -/
def scopeClause (row : ScopedMemory) (scope : ResolvedScope) (linked : List String) : Bool :=
  projectClause row scope.projects &&
    retrievalScopeClause julianday row scope.people linked scope.windowStart scope.windowEnd

end Clauses

/-! ### Projects and times -/

/-- The function of the store reads the projects of a row as the service does. -/
theorem projectScopeIdentityJson_eq (row : ScopedMemory) :
    projectScopeIdentityJson row.metadataJson row.projectId = rowProjectScopeValues row := by
  -- of a row the resolver reads the metadata and the project column only
  have hget : ∀ key, key ≠ "id" → row.columns.get? key =
      Dict.get? [("metadata_json", Json.obj row.metadataJson),
        ("project_id", .optStr row.projectId)] key := by
    intro key hkey
    simp only [ScopedMemory.columns, Dict.get?_cons, Dict.get?_nil, if_neg hkey.symm]
    split
    · next hproject =>
      subst hproject
      rfl
    · rfl
  have hitem : ∀ key, key ≠ "id" → row.columns.item key =
      Dict.item [("metadata_json", Json.obj row.metadataJson),
        ("project_id", .optStr row.projectId)] key := by
    intro key hkey
    rw [Dict.item, hget key hkey, ← Dict.item]
  have haliases : projectAliasKeys.map row.columns.item = projectAliasKeys.map
      (Dict.item [("metadata_json", Json.obj row.metadataJson),
        ("project_id", .optStr row.projectId)]) := by
    refine List.map_congr_left fun key hkey => hitem key ?_
    rintro rfl
    revert hkey
    decide
  have hcontainers : scopeContainers row.columns = scopeContainers
      [("metadata_json", Json.obj row.metadataJson), ("project_id", .optStr row.projectId)] := by
    unfold scopeContainers
    refine List.filterMap_congr fun key hkey => ?_
    rw [hitem key]
    rintro rfl
    revert hkey
    decide
  rw [projectScopeIdentityJson, rowProjectScopeValues, resolveProjectScope, resolveProjectScope,
    hget _ (by decide), haliases, hcontainers]

/-- The columns are read first, and in the order of the clause. -/
theorem rowScopeEventTime_eq (parse : Json → Option Int) (row : ScopedMemory) :
    rowScopeEventTime parse row = (eventTimeClause row).or
      (scopeMetadataEventKeys.findSome? fun key => parse (row.metadataJson.item key)) := by
  have hcolumns : scopeEventKeys.findSome? row.moment = eventTimeClause row := by
    simp only [scopeEventKeys, List.findSome?_cons, List.findSome?_nil, ScopedMemory.moment,
      eventTimeClause]
    simp
    cases row.validFrom <;> cases row.lastSeenAt <;> cases row.updatedAt <;>
      cases row.firstSeenAt <;> cases row.createdAt <;> rfl
  have hcaptured : row.moment "captured_at" = none := by simp [ScopedMemory.moment]
  rw [rowScopeEventTime, hcolumns, hcaptured, Option.or_none]

/-! ### Names -/

section Names

variable {folding : CaseFolding}

mutual

/-- The verifier reads the texts that the clause reads, each folded. -/
theorem mem_scopeValuesFrom {name : String} : ∀ {value : Json},
    name ∈ scopeValuesFrom folding value ↔
      ∃ text ∈ jsonTreeTexts value, strip text ≠ "" ∧ folding.casefold (strip text) = name
  | .str s => by
    rw [scopeValuesFrom, jsonTreeTexts]
    split
    next hblank => simp [hblank]
    next hblank =>
      simp only [List.mem_singleton, exists_eq_left, ne_eq, hblank, not_false_eq_true, true_and]
      exact eq_comm
  | .arr items => by
    rw [scopeValuesFrom, jsonTreeTexts]
    exact mem_scopeValuesFromItems
  | .obj fields => by
    rw [scopeValuesFrom, jsonTreeTexts]
    exact mem_scopeValuesFromFields
  | .null => by simp [scopeValuesFrom, jsonTreeTexts]
  | .bool _ => by simp [scopeValuesFrom, jsonTreeTexts]
  | .int _ => by simp [scopeValuesFrom, jsonTreeTexts]
  | .float _ => by simp [scopeValuesFrom, jsonTreeTexts]

theorem mem_scopeValuesFromItems {name : String} : ∀ {items : List Json},
    name ∈ scopeValuesFromItems folding items ↔
      ∃ text ∈ jsonTreeTextsOfItems items, strip text ≠ "" ∧ folding.casefold (strip text) = name
  | [] => by simp [scopeValuesFromItems, jsonTreeTextsOfItems]
  | value :: rest => by
    rw [scopeValuesFromItems, jsonTreeTextsOfItems, List.mem_append, mem_scopeValuesFrom,
      mem_scopeValuesFromItems]
    simp only [List.mem_append, or_and_right, exists_or]

theorem mem_scopeValuesFromFields {name : String} : ∀ {fields : List (String × Json)},
    name ∈ scopeValuesFromFields folding fields ↔
      ∃ text ∈ jsonTreeTextsOfFields fields,
        strip text ≠ "" ∧ folding.casefold (strip text) = name
  | [] => by simp [scopeValuesFromFields, jsonTreeTextsOfFields]
  | (_, value) :: rest => by
    rw [scopeValuesFromFields, jsonTreeTextsOfFields, List.mem_append, mem_scopeValuesFrom,
      mem_scopeValuesFromFields]
    simp only [List.mem_append, or_and_right, exists_or]

end

/-- The names a row has for the verifier: its person fields, stripped and folded,
without the blank ones. -/
theorem mem_rowScopeValues {row : ScopedMemory} {name : String} :
    name ∈ rowScopeValues folding row peopleScopeKeys ↔
      ∃ text ∈ scopedPersonTexts row, strip text ≠ "" ∧ folding.casefold (strip text) = name := by
  -- no column of the row is a name
  have hcolumns : peopleScopeKeys.flatMap
      (fun key => scopeValuesFrom folding (row.columns.item key)) = [] := by
    refine List.flatMap_eq_nil_iff.mpr fun key hkey => ?_
    have hnone : row.columns.get? key = none := by
      simp only [peopleScopeKeys, List.mem_cons, List.not_mem_nil, or_false] at hkey
      rcases hkey with rfl | rfl | rfl | rfl | rfl <;> rfl
    rw [Dict.item, hnone]
    rfl
  have hitems : ∀ items : List Json, jsonTreeTextsOfItems items = items.flatMap jsonTreeTexts := by
    intro items
    induction items with
    | nil => rfl
    | cons value rest ih => rw [jsonTreeTextsOfItems, ih, List.flatMap_cons]
  rw [rowScopeValues, hcolumns, List.nil_append, List.mem_flatMap]
  simp only [mem_scopeValuesFrom, scopedPersonTexts, jsonTreeTexts, hitems, List.mem_flatMap,
    List.mem_map, exists_exists_and_eq_and]
  constructor
  · rintro ⟨key, hkey, text, htext, hname⟩
    exact ⟨text, ⟨key, hkey, htext⟩, hname⟩
  · rintro ⟨text, ⟨key, hkey, htext⟩, hname⟩
    exact ⟨key, hkey, text, htext, hname⟩

/-- What SQLite strips is white space. -/
theorem exists_sqlTrim (text : String) : ∃ front back, (∀ c ∈ front, isSpace c = true) ∧
    (∀ c ∈ back, isSpace c = true) ∧ text.toList = front ++ (sqlTrim text).toList ++ back := by
  have hblank : ∀ l : List Char, ∀ c ∈ l.takeWhile (· = ' '), isSpace c = true := by
    intro l c hc
    have hspace : c = ' ' := by simpa using List.mem_takeWhile_imp hc
    rw [hspace]
    decide
  refine ⟨text.toList.takeWhile (· = ' '),
    ((text.toList.dropWhile (· = ' ')).reverse.takeWhile (· = ' ')).reverse, hblank _,
    fun c hc => hblank _ c (List.mem_reverse.mp hc), ?_⟩
  rw [sqlTrim, String.toList_ofList, List.append_assoc, ← List.reverse_append,
    List.takeWhile_append_dropWhile, List.reverse_reverse, List.takeWhile_append_dropWhile]

/-- A name of a scope: folded, and stripped of white space. -/
structure ScopeName (folding : CaseFolding) (name : String) : Prop where
  folded : folding.casefold name = name
  stripped : strip name = name
  nonblank : name ≠ ""

/-- A name that the clause finds is found by the verifier. -/
theorem lowered_of_name {text name : String} (hname : ScopeName folding name)
    (h : asciiLower (sqlTrim text) = name) :
    strip text ≠ "" ∧ folding.casefold (strip text) = name := by
  obtain ⟨front, back, hfront, hback, htext⟩ := exists_sqlTrim text
  have hlower : (sqlTrim text).toList.map asciiLowerChar = name.toList := by
    rw [← h, asciiLower, String.toList_ofList]
  have htrim : trim name.toList = name.toList := by
    have hstripped := congrArg String.toList hname.stripped
    rwa [strip_eq, String.toList_ofList] at hstripped
  have hfolded : folding.foldText name.toList = name.toList := by
    have := congrArg String.toList hname.folded
    rwa [CaseFolding.casefold, String.toList_ofList] at this
  have hfold := folding.foldText_trim hfront hback hlower htrim hfolded
  have hcasefold : folding.casefold (strip text) = name := by
    rw [CaseFolding.casefold, strip_eq, String.toList_ofList, htext, hfold, String.ofList_toList]
  refine ⟨fun hblank => hname.nonblank ?_, hcasefold⟩
  rw [← hcasefold, hblank]
  rfl

/-- What is resolved of a scope: its people are names, and it has a whole window or none. -/
structure ScopeResolved (folding : CaseFolding) (scope : ResolvedScope) : Prop where
  projects : ∃ projects : List String, scope.projects = projectScopeIdentity (.strs projects)
  people : ∀ name ∈ scope.people, ScopeName folding name
  window : scope.windowStart = none ↔ scope.windowEnd = none
  ordered : ∀ start last, scope.windowStart = some start → scope.windowEnd = some last →
    start ≤ last

/-- The window of a request ends at its reference time. -/
theorem resolveWindow_le {request : ScopeRequest} {start last : Int}
    (h : resolveWindow folding request = .ok (some (start, last))) : start ≤ last := by
  unfold resolveWindow at h
  dsimp only at h
  split at h
  · cases h
  split at h
  · cases h
  split at h
  · cases h
  · obtain ⟨rfl, rfl⟩ := Prod.mk.inj (Option.some.inj (Except.ok.inj h))
    unfold dayMicroseconds
    omega

theorem shortValues_ok {fieldName : String} {values result : List String}
    (h : shortValues fieldName values = .ok result) : result = values := by
  unfold shortValues at h
  split at h
  · cases h
  · exact (Except.ok.inj h).symm

theorem scopeName_casefold {value : String} (h : strip value ≠ "") :
    ScopeName folding (folding.casefold (strip value)) where
  folded := by
    rw [CaseFolding.casefold, CaseFolding.casefold, String.toList_ofList,
      folding.foldText_foldText]
  stripped := by
    rw [CaseFolding.casefold, strip_eq (String.ofList _), String.toList_ofList, strip_eq,
      String.toList_ofList, folding.trim_foldText (trim_trim _)]
  nonblank := by
    intro hempty
    rw [CaseFolding.casefold, String.ofList_eq_empty_iff] at hempty
    rcases hvalue : (strip value).toList with - | ⟨c, rest⟩
    · exact h (String.toList_eq_nil_iff.mp hvalue)
    · rw [hvalue, CaseFolding.foldText, List.flatMap_cons] at hempty
      exact folding.fold_ne_nil c (List.append_eq_nil_iff.mp hempty).1

/-- What is known of a resolved scope: its projects are normalized, its people folded,
and its window is ordered. -/
theorem scopeResolved_of_ok {request : ScopeRequest} {scope : ResolvedScope}
    (h : resolveRetrievalScope folding request = .ok scope) : ScopeResolved folding scope := by
  unfold resolveRetrievalScope at h
  split at h
  · cases h
  obtain ⟨projects, hprojects, h⟩ := except_bind_ok.mp h
  obtain ⟨people, hpeople, h⟩ := except_bind_ok.mp h
  obtain ⟨window, hwindow, h⟩ := except_bind_ok.mp h
  obtain rfl := Except.ok.inj h
  -- projects and people are normalized, and the window is ordered
  refine ⟨⟨request.projects, shortValues_ok hprojects⟩, fun name hname => ?_, ?_, ?_⟩
  · unfold normalizedScopeValues at hpeople
    split at hpeople
    · cases hpeople
    rw [shortValues_ok hpeople] at hname
    obtain ⟨value, hvalue, rfl⟩ := List.mem_map.mp hname
    exact scopeName_casefold (of_decide_eq_true (List.mem_filter.mp hvalue).2)
  · cases window with
    | none => exact iff_of_true rfl rfl
    | some bounds => exact iff_of_false (Option.some_ne_none _) (Option.some_ne_none _)
  · intro start last hstart hlast
    obtain ⟨bounds, rfl, rfl⟩ := Option.map_eq_some_iff.mp hstart
    obtain rfl := Option.some.inj hlast
    exact resolveWindow_le hwindow

end Names

/-! ### The clause and the verifier -/

section Agreement

variable {folding : CaseFolding} {scope : ResolvedScope}

theorem projectClause_eq (h : ScopeResolved folding scope) (row : ScopedMemory) :
    projectClause row scope.projects = scopeProjectsHold row scope := by
  obtain ⟨projects, hprojects⟩ := h.projects
  unfold projectClause scopeProjectsHold
  dsimp only
  rw [projectScopeIdentityJson_eq, hprojects, projectScopeIdentity_identity]

/-- An event time outside the window that `julianday` does not tell from a bound. -/
structure JustOutside (julianday : JulianDay) (scope : ResolvedScope) (moment : Int) : Prop where
  refused : scopeWindowHolds scope (some moment) = false
  read_eq : (∃ start, scope.windowStart = some start ∧
      julianday.read moment = julianday.read start) ∨
    ∃ last, scope.windowEnd = some last ∧ julianday.read moment = julianday.read last

/-- Under a window, an event time passes the clause if it is in the window or just outside. -/
theorem bounds_iff (julianday : JulianDay) {moment start last : Int}
    (h : ScopeResolved folding scope) (hstart : scope.windowStart = some start)
    (hlast : scope.windowEnd = some last) :
    julianday.read start ≤ julianday.read moment ∧ julianday.read moment ≤ julianday.read last ↔
      scopeWindowHolds scope (some moment) = true ∨ JustOutside julianday scope moment := by
  have hholds : scopeWindowHolds scope (some moment) = true ↔ start ≤ moment ∧ moment ≤ last := by
    simp [scopeWindowHolds, hstart, hlast]
  have hordered := julianday.mono (h.ordered start last hstart hlast)
  constructor
  · rintro ⟨hafter, hbefore⟩
    -- a moment outside is admitted only if its Julian day is that of a bound
    by_cases hin : start ≤ moment ∧ moment ≤ last
    · exact .inl (hholds.mpr hin)
    · refine .inr ⟨Bool.eq_false_iff.mpr fun htrue => hin (hholds.mp htrue), ?_⟩
      rcases not_and_or.mp hin with hlt | hlt
      · exact .inl ⟨start, hstart, le_antisymm (julianday.mono (not_le.mp hlt).le) hafter⟩
      · exact .inr ⟨last, hlast, le_antisymm hbefore (julianday.mono (not_le.mp hlt).le)⟩
  · rintro (hin | ⟨-, ⟨first, hfirst, heq⟩ | ⟨final, hfinal, heq⟩⟩)
    · obtain ⟨hafter, hbefore⟩ := hholds.mp hin
      exact ⟨julianday.mono hafter, julianday.mono hbefore⟩
    · obtain rfl := Option.some.inj (hfirst.symm.trans hstart)
      rw [heq]
      exact ⟨le_rfl, hordered⟩
    · obtain rfl := Option.some.inj (hfinal.symm.trans hlast)
      rw [heq]
      exact ⟨hordered, le_rfl⟩

/-- The clause asks the window of the columns, by `julianday`. -/
theorem windowClause_iff (julianday : JulianDay) (h : ScopeResolved folding scope)
    (row : ScopedMemory) :
    windowClause julianday row scope.windowStart scope.windowEnd = true ↔
      scope.windowStart = none ∨ ∃ moment, eventTimeClause row = some moment ∧
        (scopeWindowHolds scope (some moment) = true ∨ JustOutside julianday scope moment) := by
  unfold windowClause eventTimeCompares
  cases hstart : scope.windowStart with
  | none =>
    have hend := h.window.mp hstart
    simp [hend]
  | some start =>
    cases hend : scope.windowEnd with
    | none => exact absurd (h.window.mpr hend) (by simp [hstart])
    | some last =>
      cases eventTimeClause row with
      | none => simp
      | some moment => simp [← bounds_iff julianday h hstart hend]

/-- The verifier asks the window of the time columns too, where one is set. -/
theorem windowHolds_of_column {moment : Int} (parse : Json → Option Int) {row : ScopedMemory}
    (h : eventTimeClause row = some moment) :
    scopeWindowHolds scope (rowScopeEventTime parse row) =
      scopeWindowHolds scope (some moment) := by
  rw [rowScopeEventTime_eq, h, Option.some_or]

theorem windowHolds_of_none (h : scope.windowStart = none) (eventTime : Option Int) :
    scopeWindowHolds scope eventTime = true := by
  rw [scopeWindowHolds, h]

/-- A row is named plainly if a name of the scope is in its metadata so that lowering its ASCII
letters and stripping its blanks is enough to find it. -/
def PlainlyNamed (folding : CaseFolding) (row : ScopedMemory) (scope : ResolvedScope) : Prop :=
  ∃ text ∈ scopedPersonTexts row, folding.casefold (strip text) ∈ scope.people ∧
    asciiLower (sqlTrim text) = folding.casefold (strip text)

/-- The clause about people admits what the verifier does, but for names it can only
compare after trimming and lowering them as SQL does. -/
theorem peopleClause_iff (h : ScopeResolved folding scope) (row : ScopedMemory)
    (linked : List String) :
    peopleClause row scope.people linked = true ↔
      scopePeopleHold folding row scope linked = true ∧
        (scope.people ≠ [] → row.id ∉ linked → PlainlyNamed folding row scope) := by
  -- the clause compares what SQL trims and lowers, so it finds the names that are plain
  have hclause : ((scopedPersonTexts row).any fun text =>
      scope.people.contains (asciiLower (sqlTrim text))) = true ↔
        PlainlyNamed folding row scope := by
    simp only [List.any_eq_true, List.contains_iff_mem]
    constructor
    · rintro ⟨text, htext, hmem⟩
      obtain ⟨-, hfold⟩ := lowered_of_name (h.people _ hmem) rfl
      exact ⟨text, htext, by rwa [hfold], hfold.symm⟩
    · rintro ⟨text, htext, hmem, hplain⟩
      exact ⟨text, htext, by rwa [hplain]⟩
  -- and such a name is one for the verifier too
  have hverified : PlainlyNamed folding row scope →
      (rowScopeValues folding row peopleScopeKeys).any scope.people.contains = true := by
    rintro ⟨text, htext, hmem, -⟩
    refine List.any_eq_true.mpr ⟨_, mem_rowScopeValues.mpr ⟨text, htext, ?_, rfl⟩,
      List.contains_iff_mem.mpr hmem⟩
    intro hblank
    rw [hblank] at hmem
    exact (h.people _ hmem).nonblank rfl
  unfold peopleClause scopePeopleHold
  by_cases hpeople : scope.people = []
  · simp [hpeople]
  · have hempty : scope.people.isEmpty = false := List.isEmpty_eq_false_iff.mpr hpeople
    by_cases hlinked : row.id ∈ linked
    · simp [hpeople, hlinked]
    · have hcontains : linked.contains row.id = false := by simpa using hlinked
      rw [hempty, hcontains, if_neg hpeople, Bool.false_or, Bool.false_or, Bool.false_or, hclause]
      exact ⟨fun hplain => ⟨hverified hplain, fun _ _ => hplain⟩, fun hboth =>
        hboth.2 hpeople hlinked⟩

end Agreement

/-- **The two predicates of a scope.** Of the rows that the verifier admits, the clause of the store
admits those of which a name is spelled plainly where names are asked for, and a time column is set
where a window is. Of the rows that the verifier refuses, it admits those that fail for their time
alone, and for that only because `julianday` reads it as a bound of the window. -/
theorem scopeClause_iff (folding : CaseFolding) (julianday : JulianDay) (request : ScopeRequest)
    {scope : ResolvedScope} (hscope : resolveRetrievalScope folding request = .ok scope)
    (parse : Json → Option Int) (row : ScopedMemory) (linked : List String) :
    (rowMatchesScope folding parse row scope linked = true →
      (scopeClause julianday row scope linked = true ↔
        (scope.people ≠ [] → row.id ∉ linked → PlainlyNamed folding row scope) ∧
          (scope.windowStart ≠ none → eventTimeClause row ≠ none))) ∧
    (rowMatchesScope folding parse row scope linked = false →
      (scopeClause julianday row scope linked = true ↔
        scopeProjectsHold row scope = true ∧ scopePeopleHold folding row scope linked = true ∧
          (scope.people ≠ [] → row.id ∉ linked → PlainlyNamed folding row scope) ∧
          ∃ moment, eventTimeClause row = some moment ∧ JustOutside julianday scope moment)) := by
  have h := scopeResolved_of_ok hscope
  rw [scopeClause, projectClause_eq h, retrievalScopeClause, Bool.and_eq_true, Bool.and_eq_true,
    peopleClause_iff h row linked, windowClause_iff julianday h row]
  constructor
  · intro hmatches
    rw [rowMatchesScope, Bool.and_eq_true, Bool.and_eq_true] at hmatches
    obtain ⟨⟨hprojects, hpeople⟩, hwindow⟩ := hmatches
    constructor
    · rintro ⟨-, ⟨-, hnamed⟩, htimes⟩
      refine ⟨hnamed, fun hasked hnone => ?_⟩
      rcases htimes with hall | ⟨moment, hmoment, -⟩
      · exact hasked hall
      · exact absurd (hnone.symm.trans hmoment) (Option.some_ne_none _).symm
    · rintro ⟨hnamed, hdated⟩
      refine ⟨hprojects, ⟨hpeople, hnamed⟩, ?_⟩
      by_cases hall : scope.windowStart = none
      · exact .inl hall
      · obtain ⟨moment, hmoment⟩ := Option.ne_none_iff_exists'.mp (hdated hall)
        rw [windowHolds_of_column parse hmoment] at hwindow
        exact .inr ⟨moment, hmoment, .inl hwindow⟩
  · intro hrefuses
    constructor
    · rintro ⟨hprojects, ⟨hpeople, hnamed⟩, htimes⟩
      -- projects and people hold, so that the row is refused for its time
      have hwindow : scopeWindowHolds scope (rowScopeEventTime parse row) = false := by
        rw [rowMatchesScope, hprojects, hpeople, Bool.true_and, Bool.true_and] at hrefuses
        exact hrefuses
      refine ⟨hprojects, hpeople, hnamed, ?_⟩
      rcases htimes with hall | ⟨moment, hmoment, hholds | houtside⟩
      · rw [windowHolds_of_none hall] at hwindow
        cases hwindow
      · rw [windowHolds_of_column parse hmoment, hholds] at hwindow
        cases hwindow
      · exact ⟨moment, hmoment, houtside⟩
    · rintro ⟨hprojects, hpeople, hnamed, moment, hmoment, houtside⟩
      exact ⟨hprojects, ⟨hpeople, hnamed⟩, .inr ⟨moment, hmoment, .inr houtside⟩⟩

/-- A request for Ann, of the last day. -/
def annRequest : ScopeRequest where
  projects := []
  people := [" Ann "]
  timeWindow := "1d"
  referenceTime := 86400000000

def annScope : ResolvedScope where
  projects := []
  people := ["ann"]
  windowStart := some 0
  windowEnd := some 86400000000

/-- A memory of one person, seen at a time. -/
def memoryOf (person : String) (moment : Int) : ScopedMemory where
  id := "m1"
  projectId := none
  metadataJson := [("people", .strs [person])]
  validFrom := none
  lastSeenAt := none
  updatedAt := some moment
  firstSeenAt := some moment
  createdAt := some moment

/-- A row of Ann a microsecond after the window is refused, and the clause admits it. -/
theorem scopeClause_memoryOf :
    rowMatchesScope .ascii (fun _ => none) (memoryOf "Ann" 86400000001) annScope [] = false ∧
      scopeClause .rounding (memoryOf "Ann" 86400000001) annScope [] = true := by
  have hrefused : rowMatchesScope .ascii (fun _ => none) (memoryOf "Ann" 86400000001) annScope [] =
      false := by decide +kernel
  refine ⟨hrefused, ((scopeClause_iff .ascii .rounding annRequest (by rfl) (fun _ => none)
    (memoryOf "Ann" 86400000001) []).2 hrefused).mpr ⟨by decide +kernel, by decide +kernel,
      fun _ _ => ⟨"Ann", ?_, by decide +kernel, by decide +kernel⟩, 86400000001, rfl, ?_⟩⟩
  · decide +kernel
  · exact ⟨by decide +kernel, .inr ⟨86400000000, rfl, by decide⟩⟩

/-- A name after a tab is not spelled plainly. -/
example : rowMatchesScope .ascii (fun _ => none) (memoryOf "\tAnn" 0) annScope [] = true ∧
    scopeClause .rounding (memoryOf "\tAnn" 0) annScope [] = false := by decide +kernel

end AliceBot
