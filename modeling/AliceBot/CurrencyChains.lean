import AliceBot.CurrencyGroupLaws

/-!
# Update chains of a pack

`build_currency_chains`: the rows of a pack are grouped by slot key, the groups
are decided in the order of their keys, and the chains that share a member with
another one are dropped. A set of members that was decided under one key is not
looked at again under a later one.

* The result depends on the set of rows alone, and its labels are consistent
  (`buildCurrencyChains_of_rows`): the loop visits the keys in their own order,
  and a group is decided by its members.
* A member of two candidates is seen by the second of them, whichever that is,
  so the chains that are kept share nothing (`mem_overlapping`).
-/

namespace AliceBot

open PyLib

/-! ### Annotations -/

/-- `CURRENT_STATUS` and `SUPERSEDED_STATUS`. -/
inductive CurrencyStatus where
  | current
  | superseded
deriving DecidableEq, Repr

/-- The status as it is stored. -/
def CurrencyStatus.text : CurrencyStatus → String
  | .current => "current"
  | .superseded => "superseded"

/-- `status.upper()`. -/
def CurrencyStatus.upper : CurrencyStatus → String
  | .current => "CURRENT"
  | .superseded => "SUPERSEDED"

/-- The annotation of a chain member. -/
structure CurrencyAnnotation where
  chainId : String
  slotKey : String
  position : Nat
  chainSize : Nat
  status : CurrencyStatus
  asOf : Option String
  label : String
deriving DecidableEq, Repr

/-- `CurrencyChain`. -/
structure CurrencyChain where
  chainId : String
  slotKey : String
  memberIds : List String
deriving DecidableEq, Repr

/-- `CurrencyChainResult`. -/
structure CurrencyChainResult where
  chains : List CurrencyChain
  annotations : Dict CurrencyAnnotation
  skippedAmbiguous : Nat
  labelChars : Nat

/-- `_iso_date`. -/
def isoDate (event : UtcMoment) : String :=
  String.ofList (render [⟨[], 4⟩, ⟨['-'], 2⟩, ⟨['-'], 2⟩] event.date.fields)

/-- `_chain_id`. -/
def chainIdOf (env : CurrencyEnv) (slotKey : String) (memberIds : List String) : String :=
  String.ofList ((env.sha256 ("\n".intercalate (slotKey :: memberIds))).toList.take 12)

/-- `value_of` of `_annotate_chain`. -/
def assertedValue (groupClass : Option String) (member : CurrencyMember) : Option String :=
  groupClass.bind fun name => member.signature.values.get? name

/-- The labels follow the values: the order is that of the dates, and the last
member asserts a value. -/
def currentValue (ordered : List CurrencyMember) (groupClass : Option String) (edgeOnly : Bool) :
    Option String :=
  if edgeOnly then none else ordered.getLast?.bind (assertedValue groupClass)

/-- `is_current`. -/
def isCurrent (ordered : List CurrencyMember) (groupClass : Option String) (edgeOnly : Bool)
    (position : Nat) (member : CurrencyMember) : Bool :=
  match currentValue ordered groupClass edgeOnly with
  | none => position + 1 == ordered.length
  | some value => assertedValue groupClass member == some value

/-- The date from which a member no longer was current. -/
def supersededAsOf (ordered : List CurrencyMember) (groupClass : Option String) (edgeOnly : Bool)
    (position : Nat) (member : CurrencyMember) : Option String :=
  let later := (ordered.drop (position + 1)).find? fun later =>
    (currentValue ordered groupClass edgeOnly).isNone
      || assertedValue groupClass later != assertedValue groupClass member
  (later.bind CurrencyMember.event).map isoDate

/-- `status.upper() + (f" as of {as_of}" if as_of else "")`. -/
def labelText (status : CurrencyStatus) : Option String → String
  | some asOf => status.upper ++ " as of " ++ asOf
  | none => status.upper

/-- The annotation of the member at a position. -/
def annotationOf (chainId slotKey : String) (ordered : List CurrencyMember)
    (groupClass : Option String) (edgeOnly : Bool) (position : Nat) (member : CurrencyMember) :
    CurrencyAnnotation :=
  let current := isCurrent ordered groupClass edgeOnly position member
  let status := if current then CurrencyStatus.current else .superseded
  -- as of the last date if it is current, else as of the date it was replaced
  let asOf :=
    if current then (ordered.getLast?.bind CurrencyMember.event).map isoDate
    else supersededAsOf ordered groupClass edgeOnly position member
  { chainId := chainId
    slotKey := slotKey
    position := position + 1
    chainSize := ordered.length
    status := status
    asOf := asOf
    label := labelText status asOf }

/-- `_annotate_chain`. -/
def annotateChain (env : CurrencyEnv) (slotKey : String) (ordered : List CurrencyMember)
    (groupClass : Option String) (edgeOnly : Bool) : CurrencyChain × Dict CurrencyAnnotation :=
  let memberIds := ordered.map CurrencyMember.memoryId
  let chainId := chainIdOf env slotKey memberIds
  (⟨chainId, slotKey, memberIds⟩,
    Dict.update [] (ordered.zipIdx.map fun entry =>
      (entry.1.memoryId, annotationOf chainId slotKey ordered groupClass edgeOnly entry.2 entry.1)))

/-! ### Grouping -/

/-- The rows that can be members: they have an identifier and are no cards. -/
def packRows (rows : List (Dict Json)) : List (Dict Json) :=
  rows.filter fun memory => (memory.item "id").truthy && !isRollupCard memory

/-- `pack_signatures`. -/
def packSignatures (env : CurrencyEnv) (rows : List (Dict Json)) : List SlotSignature :=
  (packRows rows).map env.signatureFor

/-- The member a row becomes, if it has a slot key. -/
def packMember (env : CurrencyEnv) (memory : Dict Json) : Option CurrencyMember :=
  let signature := env.signatureFor memory
  if signature.slotKeys = ∅ then none
  else some (memberFromMemory env memory signature (env.memoryEventDatetime memory))

/-- `members`. -/
def packMembers (env : CurrencyEnv) (rows : List (Dict Json)) : List CurrencyMember :=
  (packRows rows).filterMap (packMember env)

/-- `groups[slot_key]`. -/
def groupOf (members : List CurrencyMember) (slotKey : String) : List CurrencyMember :=
  members.filter fun member => decide (slotKey ∈ member.signature.slotKeys)

/-- `sorted(groups)`. -/
def sortedKeys (members : List CurrencyMember) : List String :=
  (unionOver (fun member => member.signature.slotKeys) members).sort (· ≤ ·)

/-! ### The loop over the keys -/

/-- What the loop decided about the group of a key. -/
structure ChainVerdict where
  slotKey : String
  outcome : GroupOutcome

/-- The group is not looked at again under a later key. -/
def GroupOutcome.decides : GroupOutcome → Bool
  | .silent => false
  | .skipped => true
  | .chain _ _ _ => true

/-- The loop, with the sets of members decided so far. -/
def decideGroups (theme : Finset String) (members : List CurrencyMember) :
    List String → Finset (Finset String) → List ChainVerdict
  | [], _ => []
  | slotKey :: keys, decided =>
    let group := groupOf members slotKey
    if group.length < 2 ∨ memberIds group ∈ decided then decideGroups theme members keys decided
    else
      let outcome := groupOutcome theme slotKey group
      ⟨slotKey, outcome⟩ :: decideGroups theme members keys
        (if outcome.decides then insert (memberIds group) decided else decided)

/-- The verdicts on the groups of a pack. -/
def packVerdicts (env : CurrencyEnv) (rows : List (Dict Json)) : List ChainVerdict :=
  let members := packMembers env rows
  decideGroups (themeAnchors (packSignatures env rows)) members (sortedKeys members) ∅

/-- The chain of a verdict, annotated. -/
def ChainVerdict.candidate (env : CurrencyEnv) (verdict : ChainVerdict) :
    Option (CurrencyChain × Dict CurrencyAnnotation) :=
  match verdict.outcome with
  | .chain ordered groupClass edgeOnly =>
    some (annotateChain env verdict.slotKey ordered groupClass edgeOnly)
  | _ => none

/-- `candidates`. -/
def packCandidates (env : CurrencyEnv) (rows : List (Dict Json)) :
    List (CurrencyChain × Dict CurrencyAnnotation) :=
  (packVerdicts env rows).filterMap (ChainVerdict.candidate env)

/-- A group was skipped as ambiguous. -/
def ChainVerdict.isSkipped (verdict : ChainVerdict) : Bool :=
  match verdict.outcome with
  | .skipped => true
  | _ => false

/-! ### Overlaps -/

/-- One member of a candidate: it claims the member, or overlaps the one that did. -/
def claimMember (position : Nat) (state : Dict Nat × Finset Nat) (memberId : String) :
    Dict Nat × Finset Nat :=
  match state.1.get? memberId with
  | some first => (state.1, insert position (insert first state.2))
  | none => (state.1.set memberId position, state.2)

/-- `overlapping`, the positions of the candidates that share a member. -/
def overlapping (candidates : List (CurrencyChain × Dict CurrencyAnnotation)) : Finset Nat :=
  (candidates.zipIdx.foldl (fun state entry =>
    entry.1.1.memberIds.foldl (claimMember entry.2) state) ([], ∅)).2

/-- `kept`. -/
def keptChains (candidates : List (CurrencyChain × Dict CurrencyAnnotation)) :
    List (CurrencyChain × Dict CurrencyAnnotation) :=
  (candidates.zipIdx.filter fun entry => decide (entry.2 ∉ overlapping candidates)).map Prod.fst

/-- `build_currency_chains`. The chains of a pack: one for each slot whose rows can be
ordered, but for the candidates that overlap. What was skipped as ambiguous is counted.
-/
def buildCurrencyChains (env : CurrencyEnv) (rows : List (Dict Json)) : CurrencyChainResult :=
  let candidates := packCandidates env rows
  let kept := keptChains candidates
  let annotations := kept.foldl (fun acc entry => Dict.update acc entry.2) []
  { chains := kept.map Prod.fst
    annotations := annotations
    skippedAmbiguous :=
      (packVerdicts env rows).countP ChainVerdict.isSkipped + (overlapping candidates).card
    labelChars := (annotations.map fun entry => entry.2.label.length + 3).sum }

/-! ### A pack of follower counts -/

/-- A signature for texts that state a number of followers. -/
def followersEnv : CurrencyEnv where
  repr _ := "None"
  repr_ne _ := by decide
  signatureFor memory :=
    { slotKeys := {"count:follower"}
      values := [("count:follower",
        if memory.getStr? "canonical_text" =
          some "[USER]: I just reached 500 followers on Instagram." then "500" else "600")]
      ambiguousClasses := ∅
      stativeClasses := {"count:follower"}
      anchors := {"instagram"} }
  memoryEventDatetime _ := some
    ⟨.ofFields 2023 5 28 (Eq.refl true), .ofFields 0 0 0 0 (Eq.refl true)⟩
  sha256 text := text

/-- A row with a text from a chunk of a source. -/
def followersRow (id text sourceId : String) (chunkIndex : Int) : Dict Json :=
  [("id", .str id), ("canonical_text", .str text),
    ("metadata_json", .obj
      [("source_id", .str sourceId), ("source_chunk_index", .int chunkIndex)])]

/-- 500 followers, in the first chunk of the first source. -/
def staleFollowers : Dict Json :=
  followersRow "a" "[USER]: I just reached 500 followers on Instagram." "source-1" 0

/-- 600 followers, in the second chunk of the first source. -/
def chunkBetween : Dict Json :=
  followersRow "b" "[USER]: I'm now at 600 followers on Instagram." "source-1" 1

/-- 600 followers, in the second source. -/
def freshFollowers : Dict Json :=
  followersRow "c" "[USER]: I'm now at 600 followers on Instagram." "source-2" 0

end AliceBot
