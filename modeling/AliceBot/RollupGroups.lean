import AliceBot.RollupText

/-!
# Grouping memories for roll-ups

`VNextRollupService._group_members` partitions the rows by their exact project scope, and groups
each partition on its own: by the entities their texts name, and then, over the rows that no such
group has claimed, by the topic tokens they share. A group has to pass the checks of its label
and of its utility. The tier that compares embeddings is off, as it is without a provider.
-/

namespace AliceBot

open PyLib

/-- `RollupOptions`, as `from_metadata` makes them. -/
structure RollupOptions where
  minMembers : Nat
  maxRollups : Nat
  maxInstancesPerCard : Nat
  maxGroupableMemories : Nat
  minMembers_mem : 2 ≤ minMembers ∧ minMembers ≤ 100
  maxRollups_mem : 1 ≤ maxRollups ∧ maxRollups ≤ 50
  maxInstancesPerCard_mem : minMembers ≤ maxInstancesPerCard ∧ maxInstancesPerCard ≤ 500
  maxGroupableMemories_mem : 2 ≤ maxGroupableMemories ∧ maxGroupableMemories ≤ 5000

/-- `MAX_ROLLUP_GROUP_MEMBERS`. -/
def maxRollupGroupMembers : Nat := 500

/-- `JACCARD_SAMPLE_MEMBERS`. -/
def jaccardSampleMembers : Nat := 20

/-- `DUPLICATE_GROUP_JACCARD_THRESHOLD`. -/
def duplicateGroupJaccardThreshold : Rat := 3 / 4

/-- `MIN_AGGREGATION_MEMBERS`. -/
def minAggregationMembers : Nat := 3

/-- `MIN_DISTINCT_INSTANCE_VALUES`. -/
def minDistinctInstanceValues : Nat := 2

/-- `MIN_DISTINCT_SESSIONS`. -/
def minDistinctSessions : Nat := 3

/-- `LABEL_COHERENCE_MIN_FRACTION`. -/
def labelCoherenceMinFraction : Rat := 1 / 2

/-- `GENERIC_ANCHOR_SESSION_DISPERSION`, `0.30` as a double. -/
def genericAnchorSessionDispersion : Rat := rounded (3 / 10)

/-- `GENERIC_ANCHOR_MIN_ROWS`. -/
def genericAnchorMinRows : Nat := 30

/-- `GENERIC_ANCHOR_MIN_SESSIONS`. -/
def genericAnchorMinSessions : Nat := 10

/-! ### Statistics -/

/-- A sentence of a text with values: its stems, the values and the amounts among them. -/
structure SentenceProfile where
  stems : Finset String
  values : Finset String
  amounts : Finset String

/-- `_RowProfile`. -/
structure RowProfile where
  stems : Finset String
  sessionKey : Option String
  sentences : List SentenceProfile

/-- `_SENTENCE_SPLIT_RE.split`. -/
def sentencesOf (text : String) : List String :=
  (text.toList.splitOnP fun c => ['.', '!', '?', '\n', ';', '•', '|'].contains c).map String.ofList

section Stats

variable (env : RollupEnv)

/-- The profile of a row. -/
def rowProfile (row : Dict Json) : RowProfile :=
  let text := stripSpeakerTag env (memberText env row)
  { stems := statsTokens env text
    sessionKey := memberSessionKey row
    sentences := (sentencesOf text).filterMap fun sentence =>
      if strip sentence = "" then none
      else
        let values := memberInstanceValues env sentence
        if values = ∅ then none
        else some ⟨statsTokens env sentence, values, foldedAmounts env sentence⟩ }

/-- `_row_profiles`. -/
def rowProfiles (rows : List (Dict Json)) : Dict RowProfile :=
  rows.foldl (fun profiles row => Dict.set profiles (memberId env row) (rowProfile env row)) []

/-- `_CorpusStats`. -/
structure CorpusStats where
  enabled : Bool
  sessionCount : Nat
  stemSessionCounts : Dict Nat

/-- `_CorpusStats.__init__`. In how many sessions a stem occurs; nothing is counted
below a number of rows and sessions. -/
def corpusStats (profiles : Dict RowProfile) : CorpusStats :=
  let sessions := (profiles.filterMap fun profile => profile.2.sessionKey).toFinset
  let enabled := decide (genericAnchorMinRows ≤ profiles.length ∧
    genericAnchorMinSessions ≤ sessions.card)
  let stems := profiles.foldl (fun stems profile => stems ∪ profile.2.stems) ∅
  let sessionsOf (stem : String) := (profiles.filterMap fun profile =>
    if stem ∈ profile.2.stems then profile.2.sessionKey else none).toFinset
  { enabled := enabled
    sessionCount := sessions.card
    stemSessionCounts :=
      if enabled then (stems.sort (· ≤ ·)).map fun stem => (stem, (sessionsOf stem).card) else [] }

/-- `dispersion`. -/
def CorpusStats.dispersion (stats : CorpusStats) (stem : String) : Rat :=
  if ¬ stats.enabled ∨ stats.sessionCount = 0 then 0
  else rounded (((Dict.get? stats.stemSessionCounts stem).getD 0 : Nat) / stats.sessionCount)

/-- `is_generic`. -/
def CorpusStats.isGeneric (stats : CorpusStats) (stem : String) : Bool :=
  genericAnchorSessionDispersion ≤ stats.dispersion stem

/-! ### Labels -/

/-- A label that heads no card by the class of its first content word. -/
def labelHeadJunk (amountCount : Nat) (head : String) (others : List String) : Option String :=
  if closedClassLabelHeads.contains head then some "label_head_closed_class"
  else if isVerbForm head &&
      !others.any fun token => !closedClassLabelHeads.contains token && !isVerbForm token then
    if lightVerbForms.contains head then some "label_head_light_verb"
    else if amountCount < minDistinctInstanceValues then some "label_bare_verb_without_values"
    else none
  else none

/-- `_label_junk_reason`. Why a label is none: it has no content, a bad head, or is
everywhere in the store. -/
def labelJunkReason (label : String) (stats : CorpusStats) (amountCount : Nat) : Option String :=
  match labelContentTokens env label with
  | [] => some "label_without_content_words"
  | head :: others =>
    match labelHeadJunk amountCount head others with
    | some reason => some reason
    | none =>
      if stats.enabled ∧ genericAnchorSessionDispersion ≤
          leastOf ((labelStems env label).map stats.dispersion) then
        some "label_generic_for_store"
      else none

/-- `_label_specificity`. -/
def labelSpecificity (label : String) (stats : CorpusStats) : Rat :=
  match labelStems env label with
  | [] => 0
  | stems => rounded (1 - leastOf (stems.map stats.dispersion))

/-- `_label_coherence`. The share of the members that speak of the stem of the label
that fewest of them speak of. -/
def labelCoherence (label : String) (memberProfiles : List RowProfile) : Rat :=
  let stems := labelStems env label
  if stems = [] ∨ memberProfiles.length = 0 then 0
  else
    leastOf (stems.map fun stem =>
      rounded ((memberProfiles.countP fun profile => stem ∈ profile.stems) /
        memberProfiles.length))

/-! ### Titles -/

/-- The text between two words is blank. -/
def blankBetween (text : List Char) (before after : WordAt) : Bool :=
  strip (String.ofList (slice text before.stop after.start)) = ""

/-- `_title_word`. -/
def titleWord (word : String) : Bool :=
  (word.toList.head?).any env.isUpper &&
    !pronounContractionHeads.contains
      (apostropheHead (plainApostrophes (env.link.casefold word)))

/-- Where the title begins that a word at an index is in: to the left over capitalised words, and
over a connector with a capitalised word before it. -/
def titleStart (text : List Char) (tokens : List WordAt) : Nat → Nat
  | 0 => 0
  | 1 =>
    if blankBetween text (tokens.getD 0 default) (tokens.getD 1 default) &&
        titleWord env (tokens.getD 0 default).word then 0
    else 1
  | start + 2 =>
    let previous := tokens.getD (start + 1) default
    let before := tokens.getD start default
    if !blankBetween text previous (tokens.getD (start + 2) default) then start + 2
    else if titleWord env previous.word then titleStart text tokens (start + 1)
    else if titleConnectorTokens.contains (env.link.casefold previous.word) &&
        (blankBetween text before previous && titleWord env before.word) then
      titleStart text tokens start
    else start + 2

/-- The occurrences of a label in a text, each with the longer title it is part of. -/
def labelOccurrences (label : List String) (text : String) : List (Option String) :=
  let tokens := wordsWithPos env text
  (List.range (tokens.length + 1 - label.length)).filterMap fun index =>
    let window := (tokens.drop index).take label.length
    if window.map WordAt.word ≠ label then none
    else if (window.zip window.tail).any fun (left, right) => !blankBetween text.toList left right
    then none
    else
      let start := titleStart env text.toList tokens index
      if start < index then
        let title := (tokens.drop start).take (index + label.length - start)
        some (some (" ".intercalate (title.map WordAt.word)))
      else some none

/-- `_expanded_entity_label`. The longer form of a label, where most of its occurrences
are part of one. -/
def expandedEntityLabel (label : String) (members : List (Dict Json)) : String :=
  let labelTokens := words label
  if labelTokens = [] then label
  else
    let occurrences := (members.take jaccardSampleMembers).flatMap fun member =>
      labelOccurrences env labelTokens (stripSpeakerTag env (memberText env member))
    let expansions := occurrences.filterMap id
    if occurrences.length < expansions.length * 2 then
      ((byFrequency expansions).head?).getD label
    else label

/-! ### Utility -/

/-- `_GroupUtility`, of a group that is not semantic. -/
structure GroupUtility where
  distinctValues : Nat
  distinctAmounts : Nat
  distinctSessions : Nat
  labelSpecificity : Rat
  labelCoherence : Rat
  score : Rat
deriving DecidableEq

/-- Why a group fails the gate, if it does. -/
def gateReason (memberCount : Nat) (utility : GroupUtility) : Option String :=
  if memberCount < minAggregationMembers then some "below_min_aggregation_members"
  else if utility.distinctValues < minDistinctInstanceValues ∧
      utility.distinctSessions < minDistinctSessions then some "no_aggregation_signal"
  else if utility.labelCoherence < labelCoherenceMinFraction then
    some "label_not_coherent_with_members"
  else none

/-- `_group_utility`. How much a roll-up of the members would tell: the values, amounts
and sessions of the sentences about its label. -/
def groupUtility (label : String) (members : List (Dict Json)) (profiles : Dict RowProfile)
    (stats : CorpusStats) : GroupUtility × Option String :=
  let stems := (labelStems env label).toFinset
  let memberProfiles := members.filterMap fun member => Dict.get? profiles (memberId env member)
  -- only the sentences that speak of the label are counted
  let sentences := (memberProfiles.flatMap RowProfile.sentences).filter fun sentence =>
    stems ∩ sentence.stems ≠ ∅
  let values := sentences.foldl (fun values sentence => values ∪ sentence.values) ∅
  let amounts := sentences.foldl (fun amounts sentence => amounts ∪ sentence.amounts) ∅
  let sessions := (memberProfiles.filterMap RowProfile.sessionKey).toFinset
  let specificity := labelSpecificity env label stats
  let utility : GroupUtility :=
    { distinctValues := values.card
      distinctAmounts := amounts.card
      distinctSessions := sessions.card
      labelSpecificity := specificity
      labelCoherence := labelCoherence env label memberProfiles
      score := rounded (((max 1 values.card * max 1 sessions.card : Nat) : Rat) * specificity) }
  (utility, gateReason members.length utility)

end Stats

/-! ### Admission -/

/-- `group_kind`, of groups that are not semantic. -/
inductive GroupKind where
  | entity
  | topic
deriving DecidableEq

/-- What the keys of a kind begin with. -/
def GroupKind.tag : GroupKind → String
  | .entity => "entity:"
  | .topic => "topic:"

/-- `_RollupGroup`. -/
structure RollupGroup where
  rollupKey : String
  groupKind : GroupKind
  label : String
  members : List (Dict Json)
  utility : GroupUtility
  labelVariants : List String

/-- What `_group_members_same_scope` keeps while it groups. -/
structure Grouping where
  claimed : Finset String := ∅
  groups : List RollupGroup := []
  skipped : List String := []
  /-- The groups that were dropped, with the reason. -/
  dropped : List (String × String) := []

/-- `_drop`. -/
def Grouping.drop (state : Grouping) (key reason : String) : Grouping :=
  { state with dropped := state.dropped ++ [(key, reason)] }

/-- A group that is skipped without a gate. -/
def Grouping.skip (state : Grouping) (reason : String) : Grouping :=
  { state with skipped := state.skipped ++ [reason] }

section Groups

variable (env : RollupEnv) (options : RollupOptions) (excluded : List (Finset String))

/-- The ids of members. -/
def groupMemberIds (members : List (Dict Json)) : Finset String :=
  (members.map (memberId env)).toFinset

/-- `_admit`. A group is made a roll-up unless one of the gates stops it, and the first
gate that does is recorded. -/
def admitGroup (profiles : Dict RowProfile) (stats : CorpusStats) (kind : GroupKind)
    (name label : String) (members : List (Dict Json)) (variants : List String)
    (state : Grouping) : Grouping :=
  let key := kind.tag ++ name
  let count := toString members.length
  -- a group is skipped for its members, and dropped for its label or its utility
  if maxRollupGroupMembers < members.length then
    state.skip ("group_too_large: " ++ key ++ " (members=" ++ count ++ ")")
  else if excluded.any fun ids => groupMemberIds env members ⊆ ids then
    state.skip ("covered_by_near_duplicate_cluster: " ++ key ++ " (members=" ++ count ++ ")")
  else
    -- notes that say the same are left to the deduplication
    let sample := members.take jaccardSampleMembers
    let overlap := meanPairwiseJaccard env
      (sample.map fun member => topicTokens env (memberText env member))
    if duplicateGroupJaccardThreshold ≤ overlap then
      state.skip ("near_duplicate_group_left_to_dedup: " ++ key ++ " (mean_jaccard=" ++
        env.twoDigits overlap ++ ", members=" ++ count ++ ")")
    else
      let (utility, gate) := groupUtility env label members profiles stats
      match labelJunkReason env label stats utility.distinctAmounts, gate with
      | some reason, _ => state.drop key reason
      | none, some reason => state.drop key reason
      | none, none =>
        { state with
          claimed := state.claimed ∪ groupMemberIds env members
          groups := state.groups ++
            [⟨key, kind, label, sortedMembers env members, utility, variants⟩] }

/-! ### Entities -/

/-- The candidates of each row. -/
def rowCandidates (rows : List (Dict Json)) : List (Dict Json × List EntityCandidate) :=
  rows.map fun row =>
    (row, extractEntityCandidates env.link env.rules (stripSpeakerTag env (memberText env row)))

/-- The first name of each normalised one. -/
def extractedNames (candidates : List EntityCandidate) : Dict String :=
  candidates.foldl (fun names candidate =>
    if Dict.has names candidate.normalized then names
    else Dict.set names candidate.normalized candidate.name) []

/-- One entity of the store, folded over its names. -/
def foldEntity (extracted : Dict String) (mapping : Dict (String × String))
    (entity : Dict Json) : Dict (String × String) :=
  let textOr (value : Json) (default : String) := if value.truthy then env.text value else default
  let canonical := textOr (entity.item "normalized_name") ""
  if canonical = "" then mapping
  else
    let display := textOr (entity.item "name") ((Dict.get? extracted canonical).getD canonical)
    let names := canonical :: (((entity.item "aliases").asArr?).getD []).map env.text
    names.foldl (fun mapping name =>
      if Dict.has mapping name then Dict.set mapping name (canonical, display) else mapping) mapping

/-- `_entity_key_maps`. The names found in the rows, each with the key and the display
of the entity it stands for. -/
def entityKeyMaps (candidates : List EntityCandidate) : Dict (String × String) :=
  let extracted := extractedNames candidates
  let mapping := extracted.map fun (normalized, display) => (normalized, (normalized, display))
  if extracted = [] then []
  else
    match env.findEntities with
    | none => mapping
    | some finder =>
      (finder (sortByKeys id (extracted.map Prod.fst))).foldl (foldEntity env extracted) mapping

/-- A row under a key, with the name that the key is displayed by. -/
structure KeyedRow where
  key : String
  display : String
  row : Dict Json

/-- The rows under the keys of their entities, each row once under a key. -/
def entityRows (candidates : List (Dict Json × List EntityCandidate)) : List KeyedRow :=
  let mapping := entityKeyMaps env (candidates.flatMap Prod.snd)
  candidates.flatMap fun (row, found) =>
    (firstsAfter Prod.fst [] (found.map fun candidate =>
      (Dict.get? mapping candidate.normalized).getD (candidate.normalized, candidate.name))).map
        fun (key, display) => ⟨key, display, row⟩

/-- The rows under a key that no group has claimed. -/
def unclaimed (entries : List KeyedRow) (key : String) (claimed : Finset String) :
    List (Dict Json) :=
  ((entries.filter fun entry => entry.key = key).map KeyedRow.row).filter fun row =>
    memberId env row ∉ claimed

/-- One round of the first pass. -/
def entityRound (profiles : Dict RowProfile) (stats : CorpusStats) (entries : List KeyedRow)
    (state : Grouping) (key : String) : Grouping :=
  let members := unclaimed env entries key state.claimed
  if members.length < options.minMembers then state
  else
    let display := ((entries.find? fun entry => entry.key = key).map KeyedRow.display).getD key
    let label := expandedEntityLabel env display members
    admitGroup env excluded profiles stats .entity key label members [] state

/-! ### Topics -/

/-- The rows under their topic tokens. -/
def anchorRows (rows : List (Dict Json)) : List KeyedRow :=
  rows.flatMap fun row =>
    ((topicTokens env (memberText env row)).sort (· ≤ ·)).map fun token => ⟨token, token, row⟩

/-- The tokens that every member has; there is at least one member. -/
def sharedTokens : List (Dict Json) → Finset String
  | [] => ∅
  | member :: rest => rest.foldl
      (fun shared member => shared ∩ topicTokens env (memberText env member))
      (topicTokens env (memberText env member))

/-- The stems that a topic is labelled by. -/
def topicStems (stats : CorpusStats) (entries : List KeyedRow) (anchor : String)
    (members : List (Dict Json)) : List String :=
  let shared := (sharedTokens env members).filter fun stem =>
    ¬ stats.isGeneric stem ∧ ¬ closedClassLabelHeads.contains stem
  let support (token : String) := entries.countP fun entry => entry.key = token
  match sortByKeys (fun token => toLex (-(support token : Int), token))
      (shared.sort (· ≤ ·)) with
  | [] => [anchor]
  | ordered => ordered

/-- One round of the second pass. -/
def topicRound (profiles : Dict RowProfile) (stats : CorpusStats) (entries : List KeyedRow)
    (state : Grouping) (anchor : String) : Grouping :=
  if stats.isGeneric anchor then
    if options.minMembers ≤ entries.countP fun entry => entry.key = anchor then
      state.drop ("topic:" ++ anchor) "anchor_generic_for_store"
    else state
  else
    let members := unclaimed env entries anchor state.claimed
    if members.length < options.minMembers then state
    else
      -- a topic is named by two stems at most, in the words of the notes
      let stems := (topicStems env stats entries anchor members).take 2
      let label := " ".intercalate
        (naturalSurfaceOrder env members (stems.map (surfaceForm env members)))
      let variants := surfaceVariants env members stems label
      admitGroup env excluded profiles stats .topic anchor label members variants state

/-! ### One scope -/

/-- By utility, then by size, then by key. -/
def groupRank (group : RollupGroup) : Rat ×ₗ Int ×ₗ String :=
  toLex (-group.utility.score, toLex (-(group.members.length : Int), group.rollupKey))

/-- The record of the gate. -/
structure GateRecord where
  anchorStatsEnabled : Bool
  sessionCount : Nat
  droppedGroupCount : Nat
  droppedByReason : List (String × Nat)

/-- The line that reports what the gate has dropped. -/
def droppedLine (dropped : List (String × String)) (byReason : List (String × Nat)) : String :=
  let reasons := ", ".intercalate (byReason.map fun (reason, count) =>
    reason ++ "=" ++ toString count)
  let examples := "; ".intercalate ((dropped.take 6).map fun (key, reason) =>
    key ++ " (" ++ reason ++ ")")
  "quality_gate_dropped: " ++ toString dropped.length ++ " group(s) not proposed (" ++ reasons ++
    "); e.g. " ++ examples

/-- What grouping returns. -/
structure GroupedRows where
  groups : List RollupGroup
  skipped : List String
  gate : GateRecord

/-- The passes over the rows of one scope. -/
def groupingPasses (rows : List (Dict Json)) : Grouping :=
  let profiles := rowProfiles env rows
  let stats := corpusStats profiles
  let entities := entityRows env (rowCandidates env rows)
  let first := (byFrequency (entities.map KeyedRow.key)).foldl
    (entityRound env options excluded profiles stats entities) {}
  let anchors := anchorRows env (rows.filter fun row => memberId env row ∉ first.claimed)
  (byFrequency (anchors.map KeyedRow.key)).foldl
    (topicRound env options excluded profiles stats anchors) first

/-- `_group_members_same_scope`. Both passes over the rows of one scope: the groups in
the order of their rank, what was skipped, and the record of the gate. -/
def groupMembersSameScope (rows : List (Dict Json)) : GroupedRows :=
  let stats := corpusStats (rowProfiles env rows)
  let state := groupingPasses env options excluded rows
  let reasons := state.dropped.map Prod.snd
  let byReason := (reasons.toFinset.sort (· ≤ ·)).map fun reason => (reason, reasons.count reason)
  { groups := sortByKeys groupRank state.groups
    skipped :=
      if state.dropped = [] then state.skipped
      else state.skipped ++ [droppedLine state.dropped byReason]
    gate := ⟨stats.enabled, stats.sessionCount, state.dropped.length, byReason⟩ }

/-! ### All scopes -/

/-- What the keys of the groups of a scope begin with. -/
def scopeTag (scope : List String) : String :=
  if scope = [] then "" else "scope:" ++ env.digest scope ++ ":"

/-- A group under the key of its scope. -/
def RollupGroup.scoped (scope : List String) (group : RollupGroup) : RollupGroup :=
  { group with rollupKey := scopeTag env scope ++ group.rollupKey }

/-- The rows of a scope. -/
def rowsOfScope (scope : List String) (rows : List (Dict Json)) : List (Dict Json) :=
  rows.filter fun row => rowScopeKey row = scope

/-- The gate records of `_group_members`: the one of the only partition, or all of them. -/
inductive ScopedGate where
  | single (record : GateRecord)
  | partitioned (records : List (List String × GateRecord)) (droppedGroupCount : Nat)

/-- What `_group_members` returns. -/
structure ScopedGroups where
  groups : List RollupGroup
  skipped : List String
  gate : ScopedGate

/-- `_group_members`. The groups of some rows, each project scope by itself, in the
order of their rank. -/
def groupMembers (rows : List (Dict Json)) : ScopedGroups :=
  match fromkeys (rows.map rowScopeKey) with
  | [] =>
    let result := groupMembersSameScope env options excluded rows
    ⟨result.groups, result.skipped, .single result.gate⟩
  | [scope] =>
    -- the rows of one scope are grouped as they are, and the keys are marked with it
    let result := groupMembersSameScope env options excluded rows
    ⟨result.groups.map (RollupGroup.scoped env scope), result.skipped, .single result.gate⟩
  | scopes =>
    -- the rows of each scope are grouped by themselves
    let results := (sortByKeys id scopes).map fun scope =>
      (scope, groupMembersSameScope env options excluded (rowsOfScope scope rows))
    { groups := sortByKeys groupRank
        (results.flatMap fun (scope, result) => result.groups.map (RollupGroup.scoped env scope))
      skipped := results.flatMap fun (scope, result) =>
        result.skipped.map fun reason => "scope:" ++ env.digest scope ++ ": " ++ reason
      gate := .partitioned (results.map fun (scope, result) => (scope, result.gate))
        (results.map fun (_, result) => result.gate.droppedGroupCount).sum }

end Groups

end AliceBot
