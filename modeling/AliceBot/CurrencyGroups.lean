import AliceBot.Library.Calendar
import AliceBot.Library.DecimalText
import AliceBot.Library.GraphSearch
import AliceBot.Library.Json
import AliceBot.Library.Text
import Mathlib.Data.Finset.Sort
import Mathlib.Data.Prod.Lex
import Mathlib.Data.String.Basic

/-!
# Groups of memories that state one slot

`vnext_currency`: the rows of a pack that share a slot key form a group, and a
group is decided on its own. It is put into the order of its event dates, or
into the order of its supersession edges where the dates fail; it is skipped
where neither is certain, and stays silent where nothing was updated.

Sets of the source are finite sets here, so that what does not depend on the
order of their elements cannot. `groupOutcome` is the body of the loop of
`build_currency_chains` for one group; it depends on the members of the group
alone, not on their order (`groupOutcome_perm`), because every order it uses is
the order of a key that tells members apart.
-/

namespace AliceBot

open PyLib

/-! ### Members -/

/-- `SlotSignature`. -/
structure SlotSignature where
  slotKeys : Finset String
  values : Dict String
  ambiguousClasses : Finset String
  stativeClasses : Finset String
  anchors : Finset String

/-- `_Member`, less its position in the pack. -/
structure CurrencyMember where
  memoryId : String
  signature : SlotSignature
  event : Option UtcMoment
  sourceId : String
  chunkIndex : Option Int
  supersededBy : Option String
  supersedes : Option String

/-- What `build_currency_chains` calls. Two of the functions can raise, and the whole
call raises with them before it has a chain: they stand here for the packs on which
they return. -/
structure CurrencyEnv where
  /-- `str(value)` of a value that is no string, which is never empty. -/
  repr : Json → String
  repr_ne : ∀ value, repr value ≠ ""
  /-- `signature_for`; a `KeyError` where a unit is spelled with a dotless i. -/
  signatureFor : Dict Json → SlotSignature
  /-- `memory_event_datetime`, with the source lookup; an `OverflowError` where a time of
  the first or the last day of the calendar has an offset that leads out of it. -/
  memoryEventDatetime : Dict Json → Option UtcMoment
  /-- The hexadecimal SHA-256 of a text. -/
  sha256 : String → String

section Members

variable (env : CurrencyEnv)

/-- `str(value)`. -/
def CurrencyEnv.str : Json → String
  | .str s => s
  | v => env.repr v

/-- `str(memory.get("id"))`. -/
def CurrencyEnv.memoryId (memory : Dict Json) : String := env.str (memory.item "id")

/-- `str(value) if value else None`. -/
def CurrencyEnv.strIfTruthy (value : Json) : Option String :=
  if value.truthy then some (env.str value) else none

/-- `str(value or "")`. -/
def CurrencyEnv.strOrEmpty (value : Json) : String :=
  if value.truthy then env.str value else ""

/-- `_is_rollup_card`. -/
def isRollupCard (memory : Dict Json) : Bool :=
  match memory.item "metadata_json" with
  | .obj metadata => (Dict.item metadata "consolidation").asObj?.isSome
  | _ => false

/-- `_member_from_memory`. What the grouping knows of a row: its id, its signature, its
date and the pointers it has. -/
def memberFromMemory (memory : Dict Json) (signature : SlotSignature) (event : Option UtcMoment) :
    CurrencyMember :=
  let metadata := memory.getObj "metadata_json"
  { memoryId := env.memoryId memory
    signature := signature
    event := event
    sourceId := env.strOrEmpty (metadata.item "source_id")
    chunkIndex := match metadata.item "source_chunk_index" with
      | .int n => some n
      | _ => none
    supersededBy := env.strIfTruthy (memory.item "superseded_by")
    supersedes := env.strIfTruthy (memory.item "supersedes") }

end Members

/-! ### Supersession edges -/

/-- What the elements of a list contribute to a set. -/
def unionOver {α β : Type} [DecidableEq β] (f : α → Finset β) (l : List α) : Finset β :=
  l.foldr (fun a rest => f a ∪ rest) ∅

/-- The identifiers of a group. -/
def memberIds (members : List CurrencyMember) : Finset String :=
  (members.map CurrencyMember.memoryId).toFinset

/-- The edges one member names, ancestor first. -/
def memberEdges (ids : Finset String) (member : CurrencyMember) : Finset (String × String) :=
  (match member.supersededBy with
    | some id => if id ≠ "" ∧ id ∈ ids ∧ id ≠ member.memoryId then {(member.memoryId, id)} else ∅
    | none => ∅) ∪
  (match member.supersedes with
    | some id => if id ≠ "" ∧ id ∈ ids ∧ id ≠ member.memoryId then {(id, member.memoryId)} else ∅
    | none => ∅)

/-- The edges among the members. -/
def edgesAmong (members : List CurrencyMember) : Finset (String × String) :=
  unionOver (memberEdges (memberIds members)) members

/-- `_group_edges`: nothing where they close a cycle. -/
def groupEdges (members : List CurrencyMember) : Option (Finset (String × String)) :=
  if hasCycle (edgesAmong members) (memberIds members) then none else some (edgesAmong members)

/-- Two edges leave one member for different ones, or come to one from
different ones. -/
def branches (edges : Finset (String × String)) : Bool :=
  decide (∃ e ∈ edges, ∃ f ∈ edges, e.1 = f.1 ∧ e.2 ≠ f.2 ∨ e.2 = f.2 ∧ e.1 ≠ f.1)

/-- The members along the edges, for at most so many steps. -/
def edgeWalk (members : List CurrencyMember) (edges : Finset (String × String)) :
    Nat → CurrencyMember → List CurrencyMember
  | 0, member => [member]
  | steps + 1, member =>
    match members.find? fun next => decide ((member.memoryId, next.memoryId) ∈ edges) with
    | some next => member :: edgeWalk members edges steps next
    | none => [member]

/-- The element of a list that has exactly one. -/
def single {α : Type} : List α → Option α
  | [a] => some a
  | _ => none

/-- `_edge_total_order`. A walk that is longer than the group is no order of
it, so the steps are as many as the members. -/
def edgeTotalOrder (members : List CurrencyMember) (edges : Finset (String × String)) :
    Option (List CurrencyMember) :=
  if edges = ∅ then none
  else if branches edges then none
  else
    match single (members.filter fun member =>
        decide (∀ edge ∈ edges, edge.2 ≠ member.memoryId)) with
    | some start =>
      let ordered := edgeWalk members edges members.length start
      if ordered.length ≠ members.length then none else some ordered
    | none => none

/-! ### Event dates -/

/-- The value a member asserts for a class; the empty text is no class. -/
def valueOf (groupClass : Option String) (member : CurrencyMember) : Option String :=
  match groupClass with
  | some name => if name = "" then none else member.signature.values.get? name
  | none => none

/-- The key of the sort: event, source, chunk and identifier. -/
def dateKey (member : CurrencyMember) : Int ×ₗ String ×ₗ Int ×ₗ String :=
  toLex ((member.event.map UtcMoment.instant).getD 0,
    toLex (member.sourceId, toLex (member.chunkIndex.getD (-1), member.memoryId)))

/-- Before, or the same, in that key. -/
def DateLE (a b : CurrencyMember) : Prop := dateKey a ≤ dateKey b

instance : DecidableRel DateLE := fun a b => inferInstanceAs (Decidable (dateKey a ≤ dateKey b))

/-- Each element of a list with the one after it. -/
def neighbours {α : Type} (l : List α) : List (α × α) := l.zip l.tail

/-- The two members are of one source, at different chunks of it. -/
def documentOrdered (left right : CurrencyMember) : Bool :=
  left.sourceId != "" && left.sourceId == right.sourceId
    && left.chunkIndex.isSome && right.chunkIndex.isSome && left.chunkIndex != right.chunkIndex

/-- The order of the two members is certain, or does not matter. -/
def tieResolved (groupClass : Option String) (left right : CurrencyMember) : Bool :=
  left.event != right.event
    || ((valueOf groupClass left).isSome && valueOf groupClass left == valueOf groupClass right)
    || documentOrdered left right

/-- `_date_order`. -/
def dateOrder (members : List CurrencyMember) (groupClass : Option String) :
    Option (List CurrencyMember) :=
  if members.any fun member => member.event.isNone then none
  else
    let ordered := members.insertionSort DateLE
    if (neighbours ordered).all fun pair => tieResolved groupClass pair.1 pair.2 then some ordered
    else none

/-! ### Support -/

/-- `_theme_anchors`. -/
def themeAnchors (signatures : List SlotSignature) : Finset String :=
  (unionOver SlotSignature.anchors signatures).filter fun token =>
    let count := signatures.countP fun signature => decide (token ∈ signature.anchors)
    4 ≤ count ∧ signatures.length ≤ count * 2

/-- `_pair_supported`. Two neighbours of a chain must be about one thing: by an edge
between them, or by values of the class of the group and an anchor that is not the theme
of all. -/
def pairSupported (groupClass : Option String) (edges : Finset (String × String))
    (theme : Finset String) (left right : CurrencyMember) : Bool :=
  if (left.memoryId, right.memoryId) ∈ edges ∨ (right.memoryId, left.memoryId) ∈ edges then true
  else
    match groupClass with
    | none => false
    | some name =>
      left.signature.values.has name && right.signature.values.has name
        && decide (name ∈ left.signature.stativeClasses)
        && decide (name ∈ right.signature.stativeClasses)
        && decide ((left.signature.anchors ∩ right.signature.anchors) \ theme ≠ ∅)

/-- The position of a member in an order. -/
def positionOf (ordered : List CurrencyMember) (memoryId : String) : Nat :=
  ordered.findIdx fun member => member.memoryId == memoryId

/-- `_order_consistent_with_edges`. -/
def orderConsistentWithEdges (ordered : List CurrencyMember) (edges : Finset (String × String)) :
    Bool :=
  decide (∀ edge ∈ edges, positionOf ordered edge.1 < positionOf ordered edge.2)

/-! ### The decision on a group -/

/-- `MAX_CHAIN_MEMBERS`. -/
def maxChainMembers : Nat := 8

/-- The classes for which a member asserts a value. -/
def valueClasses (member : CurrencyMember) : Finset String :=
  (member.signature.values.map Prod.fst).toFinset

/-- The classes for which every member does. -/
def commonClasses : List CurrencyMember → Finset String
  | [] => ∅
  | member :: members =>
    members.foldl (fun common m => common ∩ valueClasses m) (valueClasses member)

/-- The value class of a group: that of its key, or the first one shared. -/
def groupClassOf (slotKey : String) (group : List CurrencyMember) : Option String :=
  if startsWith slotKey "category:" then ((commonClasses group).sort (· ≤ ·)).head?
  else some slotKey

/-- What becomes of a group. -/
inductive GroupOutcome where
  /-- Nothing was updated; a later key may decide the same members. -/
  | silent
  /-- Ambiguous. -/
  | skipped
  | chain (ordered : List CurrencyMember) (groupClass : Option String) (edgeOnly : Bool)

/-- The different values asserted. -/
def distinctValues (groupClass : Option String) (ordered : List CurrencyMember) : Finset String :=
  (ordered.filterMap (valueOf groupClass)).toFinset

/-- A date that follows a later one. -/
def datesContradict (ordered : List CurrencyMember) : Bool :=
  (neighbours (ordered.filterMap CurrencyMember.event)).any fun pair =>
    decide (pair.2.instant < pair.1.instant)

/-- The neighbours support each other. -/
def allSupported (groupClass : Option String) (edges : Finset (String × String))
    (theme : Finset String) (ordered : List CurrencyMember) : Bool :=
  (neighbours ordered).all fun pair => pairSupported groupClass edges theme pair.1 pair.2

/-- The body of the loop of `build_currency_chains` for a group of two members
or more that was not decided. -/
def groupOutcome (theme : Finset String) (slotKey : String) (group : List CurrencyMember) :
    GroupOutcome :=
  if maxChainMembers < group.length then .skipped
  else
    let groupClass := groupClassOf slotKey group
    match groupEdges group with
    | none => .skipped
    | some edges =>
      if groupClass.any fun name =>
          group.any fun member => decide (name ∈ member.signature.ambiguousClasses) then .skipped
      else
        -- the dates order the group if they can; otherwise its edges have to
        match dateOrder group groupClass with
        | some ordered =>
          if !orderConsistentWithEdges ordered edges then .skipped
          -- one value throughout is no history, and nothing is skipped either
          else if (distinctValues groupClass ordered).card < 2 then .silent
          else if allSupported groupClass edges theme ordered then .chain ordered groupClass false
          else .skipped
        | none =>
          match edgeTotalOrder group edges with
          | none => .skipped
          | some ordered =>
            if datesContradict ordered then .skipped
            else if allSupported groupClass edges theme ordered then .chain ordered groupClass true
            else .skipped

end AliceBot
