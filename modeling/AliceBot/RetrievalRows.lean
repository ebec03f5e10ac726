import AliceBot.DateNormalisers
import AliceBot.Library.JsonOrder
import AliceBot.Library.KeyedLists

/-!
# Retrieved rows

A row as a retrieval stage gets it from a store. Besides JSON values its cells
hold the `datetime` and `UUID` objects that a Postgres driver returns.
-/

namespace AliceBot

open PyLib

/-- A value of a row. -/
inductive Cell where
  | json (value : Json)
  | datetime (value : PyDateTime)
  | uuid (text : String)

/-- `JsonObject`. -/
abbrev Row := Dict Cell

/-- What reading a row leaves to the language. -/
structure RowEnv where
  /-- `str(value)` of a value that is neither a string nor a `UUID`. -/
  repr : Cell → String
  /-- `value.isoformat()`. -/
  isoformat : PyDateTime → String
  /-- The text of a float. -/
  floatText : Rat → List Char
  /-- `datetime.fromisoformat`, where it does not raise. -/
  fromisoformat : String → Option PyDateTime
  /-- The value of a character of `\d`. -/
  digit? : Char → Option Nat

variable (env : RowEnv)

/-- `str(value)`. -/
def RowEnv.str : Cell → String
  | .json (.str s) => s
  | .uuid text => text
  | value => env.repr value

/-- A language that reads no ISO-8601 and has the digits of ASCII. -/
def RowEnv.plain : RowEnv where
  repr := fun
    | .json .null => "None"
    | _ => ""
  isoformat := fun _ => ""
  floatText := fun _ => []
  fromisoformat := fun _ => none
  digit? := fun c => if c.isDigit then some (c.toNat - 48) else none

/-- `isinstance(value, str)`, with the string. -/
def Cell.asStr? : Cell → Option String
  | .json value => value.asStr?
  | _ => none

/-- `isinstance(value, Mapping)`, with the mapping. -/
def Cell.asObj? : Cell → Option (Dict Json)
  | .json value => value.asObj?
  | _ => none

/-- A JSON value that a date is read from. -/
def jsonTimestamp : Json → TimestampValue
  | .str s => .text s
  | _ => .absent

/-- A value that a date is read from. -/
def Cell.timestamp : Cell → TimestampValue
  | .json value => jsonTimestamp value
  | .datetime value => .datetime value
  | .uuid _ => .absent

/-- `bool(value)`. -/
def Cell.truthy : Cell → Bool
  | .json value => value.truthy
  | .datetime _ => true
  | .uuid _ => true

/-- `json_safe(value)`. -/
def jsonSafe : Cell → Json
  | .json value => value
  | .datetime value => .str (env.isoformat value)
  | .uuid text => .str text

namespace Row

/-- `row.get(key)`. -/
def cell (row : Row) (key : String) : Cell := (Dict.get? row key).getD (.json .null)

/-- `str(row.get("id"))`. -/
def id (row : Row) : String := env.str (row.cell "id")

/-- The JSON values of a row. -/
def plain (row : Row) : Dict Json :=
  row.filterMap fun (key, value) => match value with
    | .json value => some (key, value)
    | _ => none

@[simp] theorem cell_set_self (row : Row) (key : String) (value : Cell) :
    cell (Dict.set row key value) key = value := by
  rw [cell, Dict.get?_set_self, Option.getD_some]

theorem cell_set_of_ne (row : Row) {key other : String} (value : Cell) (h : key ≠ other) :
    cell (Dict.set row key value) other = row.cell other := by
  rw [cell, Dict.get?_set_of_ne row value h, cell]

end Row

/-! ### Repeated rows -/

/-- `_retrieval_row_identity`. -/
def retrievalRowIdentity (row : Row) : String :=
  let safe : Json := .obj (row.map fun (key, value) => (key, jsonSafe env value))
  let dumped := "row:" ++ String.ofList (safe.sortKeys.write env.floatText)
  match row.cell "id" with
  | .json .null | .json (.str "") => dumped
  | rowId => "id:" ++ env.str rowId

/-- `_dedupe_retrieval_rows`. -/
def dedupeRetrievalRows (rows : List Row) : List Row :=
  firstsAfter (retrievalRowIdentity env) [] rows

end AliceBot
