import AliceBot.EntityLinking
import AliceBot.Library.Binary64
import AliceBot.Library.KeyedLists
import AliceBot.Library.Regex
import AliceBot.Library.SortedByKey
import AliceBot.ProjectScope
import Mathlib.Data.Finset.Sort
import Mathlib.Data.Prod.Lex

/-!
# Texts of roll-ups

What `vnext_rollups` reads out of a memory row (its text, date, role, session and amounts), the
tokens of a text, and the surface words of a topic.

Rows are dictionaries. A date or a time in a row stands as its text. What the expressions for
amounts and dates match is given, and so are `casefold`, `str` and the rules of entity
extraction. Floats are rounded to doubles after every operation; how `sum` adds them is given.
-/

namespace AliceBot

open PyLib

/-- What grouping takes from the interpreter, the extraction of entities and the store. -/
structure RollupEnv where
  /-- `casefold`, and what entity names are normalised with. -/
  link : LinkEnv
  /-- What the rules of `extract_entity_candidates` match. -/
  rules : String → List RuleMatch
  alphabet : Alphabet
  isAlpha : Char → Bool
  isUpper : Char → Bool
  upper : String → String
  /-- `str(value)`. -/
  text : Json → String
  /-- The groups that `_AMOUNT_RE.finditer` finds. -/
  amountMatches : String → List String
  /-- The groups that `_DATE_MENTION_RE.finditer` finds. -/
  dateMatches : String → List String
  /-- `sum` of floats. -/
  sum : List Rat → Rat
  /-- `f"{value:.2f}"`. -/
  twoDigits : Rat → String
  /-- `_digest` of a project scope. -/
  digest : List String → String
  /-- `find_entities_by_names`, where the store has it. -/
  findEntities : Option (List String → List (Dict Json))

/-! ### Numbers -/

/-- The double next to a number. -/
def rounded (q : Rat) : Rat := (nearestDouble q).getD 0

/-- `min(values)`. -/
def leastOf : List Rat → Rat
  | [] => 0
  | value :: rest => rest.foldl min value

/-- The elements, the most frequent first and ties by name. -/
def byFrequency (names : List String) : List String :=
  sortByKeys (fun name => toLex (-(names.count name : Int), name)) (fromkeys names)

/-! ### Words -/

/-- `FTS_QUERY_STOPWORDS`. -/
def ftsQueryStopwords : List String :=
  ["i", "me", "my", "myself", "we", "our", "ours", "ourselves", "you", "your", "yours", "yourself",
    "yourselves", "he", "him", "his", "himself", "she", "her", "hers", "herself", "it", "its",
    "itself", "they", "them", "their", "theirs", "themselves", "what", "which", "who", "whom",
    "this", "that", "these", "those", "am", "is", "are", "was", "were", "be", "been", "being",
    "have", "has", "had", "having", "do", "does", "did", "doing", "a", "an", "the", "and", "but",
    "if", "or", "because", "as", "until", "while", "of", "at", "by", "for", "with", "about",
    "against", "between", "into", "through", "during", "before", "after", "above", "below", "to",
    "from", "up", "down", "in", "out", "on", "off", "over", "under", "again", "further", "then",
    "once", "here", "there", "when", "where", "why", "how", "all", "any", "both", "each", "few",
    "more", "most", "other", "some", "such", "no", "nor", "not", "only", "own", "same", "so",
    "than", "too", "very", "s", "t", "can", "will", "just", "don", "should", "now"]

/-- `_TOPIC_TOKEN_BLOCKLIST`. -/
def topicTokenBlocklist : List String :=
  ["user", "assistant", "alice", "memory", "memories", "session", "chat", "remember", "today",
    "yesterday", "tomorrow", "really", "recently", "think", "thanks", "thank", "please", "would",
    "like", "want", "wanted", "going", "got", "get", "also", "one", "two", "new", "time", "day",
    "lot", "bit", "yes", "yeah", "okay", "ok", "ai"]

/-- `_PRONOUN_CONTRACTION_HEADS`. -/
def pronounContractionHeads : List String :=
  ["i", "you", "he", "she", "it", "we", "they", "that", "there", "this", "who", "what", "let",
    "here"]

/-- `_CLOSED_CLASS_LABEL_HEADS`. -/
def closedClassLabelHeads : List String :=
  ["even", "still", "right", "already", "almost", "always", "anyway", "aside", "away", "back",
    "certainly", "currently", "definitely", "especially", "eventually", "finally", "furthermore",
    "generally", "however", "indeed", "instead", "later", "maybe", "meanwhile", "moreover",
    "never", "often", "otherwise", "perhaps", "probably", "quite", "rather", "somehow",
    "sometimes", "somewhat", "soon", "specifically", "together", "typically", "usually",
    "across", "along", "among", "amongst", "around", "behind", "beneath", "beside", "besides",
    "beyond", "despite", "except", "inside", "near", "onto", "outside", "past", "since",
    "throughout", "till", "toward", "towards", "underneath", "until", "unto", "upon", "via",
    "within", "without",
    "although", "though", "unless", "whereas", "whether", "yet"]

/-- `_LIGHT_VERB_FORMS`. -/
def lightVerbForms : List String :=
  ["add", "adds", "use", "uses", "used", "incorporate", "incorporates", "get", "gets", "gotten",
    "make", "makes", "made", "take", "takes", "took", "taken", "put", "puts", "give", "gives",
    "gave", "given", "go", "goes", "went", "gone", "come", "comes", "came", "keep", "keeps",
    "kept", "bring", "brings", "brought", "need", "needs", "know", "knows", "knew", "known",
    "say", "says", "said", "tell", "tells", "told", "see", "sees", "seen", "find", "finds",
    "think", "thinks", "thought"]

/-- `_TRANSACTION_VERB_FORMS`. -/
def transactionVerbForms : List String := ["bought", "sold", "paid", "spent"]

/-- `_TITLE_CONNECTOR_TOKENS`. -/
def titleConnectorTokens : List String :=
  ["of", "the", "and", "for", "de", "la", "le", "du", "da", "di", "del", "van", "von", "&"]

/-- `_MONTH_TOKENS`. -/
def monthTokens : List String :=
  ["january", "february", "march", "april", "may", "june", "july", "august", "september",
    "october", "november", "december"]

/-- `token.endswith(ending)`. -/
def endsWith (token ending : String) : Bool := ending.toList.isSuffixOf token.toList

/-- `_is_verb_form`. -/
def isVerbForm (token : String) : Bool :=
  lightVerbForms.contains token || transactionVerbForms.contains token ||
    (decide (4 ≤ token.toList.length) && endsWith token "ed" && !endsWith token "eed")

/-- Words of a query, and words about the conversation itself. -/
def isPlumbing (token : String) : Bool :=
  ftsQueryStopwords.contains token || topicTokenBlocklist.contains token

/-- `_light_stem`. -/
def lightStem (token : String) : String :=
  if 3 < token.toList.length ∧ endsWith token "s" ∧ ¬ endsWith token "ss" then
    String.ofList token.toList.dropLast
  else token

/-- A token before its first apostrophe. -/
def apostropheHead (token : String) : String :=
  String.ofList (token.toList.takeWhile (· ≠ '\''))

/-- The typographic apostrophes of a text as plain ones. -/
def plainApostrophes (text : String) : String := replaceAll text "’" "'"

/-- A pronoun, or a contraction that begins with one. -/
def isPronounToken (token : String) : Bool :=
  (token.toList.contains '\'' && pronounContractionHeads.contains (apostropheHead token)) ||
    pronounContractionHeads.contains token

/-! ### Tokens -/

/-- A word of a text: where it begins and ends. -/
structure WordAt where
  word : String
  start : Nat
  stop : Nat
deriving DecidableEq, Inhabited

/-- What one character and any number of others match, from a position on: `run` is the word
that is being read, its last character first. -/
def findRuns (first next : Char → Bool) : Nat → List Char → List Char → List WordAt
  | pos, run, [] => if run = [] then [] else [⟨String.ofList run.reverse, pos - run.length, pos⟩]
  | pos, [], c :: rest =>
    if first c then findRuns first next (pos + 1) [c] rest
    else findRuns first next (pos + 1) [] rest
  | pos, d :: run, c :: rest =>
    if next c then findRuns first next (pos + 1) (c :: d :: run) rest
    else ⟨String.ofList (d :: run).reverse, pos - (run.length + 1), pos⟩ ::
      findRuns first next (pos + 1) [] rest

/-- `[a-z0-9]`. -/
def isLowerAlnum (c : Char) : Bool := ('a' ≤ c ∧ c ≤ 'z') ∨ ('0' ≤ c ∧ c ≤ '9')

/-- `[A-Za-z0-9]`. -/
def isAsciiAlnum (c : Char) : Bool := isLowerAlnum c ∨ ('A' ≤ c ∧ c ≤ 'Z')

/-- `_TOKEN_RE.findall`. -/
def tokensOf (text : String) : List String :=
  (findRuns isLowerAlnum (fun c => isLowerAlnum c || c == '\'' || c == '-') 0 []
    text.toList).map WordAt.word

/-- `_SURFACE_TOKEN_RE.findall`. -/
def surfaceTokens (text : String) : List String :=
  (findRuns isAsciiAlnum (fun c => isAsciiAlnum c || c == '\'' || c == '-') 0 []
    text.toList).map WordAt.word

section Texts

variable (env : RollupEnv)

/-- `_WORD_WITH_POS_RE.finditer`. -/
def wordsWithPos (text : String) : List WordAt :=
  findRuns isAsciiAlnum
    (fun c => env.alphabet.word c || c == '\'' || c == '’' || c == '&' || c == '-') 0 []
    text.toList

/-- The token has a letter. -/
def hasLetter (token : String) : Bool := token.toList.any env.isAlpha

/-- `_topic_tokens`. -/
def topicTokens (text : String) : Finset String :=
  ((tokensOf (env.link.casefold text)).filterMap fun raw =>
    if raw.toList.length < 3 ∨ ¬ hasLetter env raw then none
    else if isPlumbing raw then none
    else if isPlumbing (lightStem raw) then none
    else some (lightStem raw)).toFinset

/-- `_stats_tokens`. -/
def statsTokens (text : String) : Finset String :=
  ((tokensOf (env.link.casefold text)).filterMap fun raw =>
    if raw.toList.length < 2 ∨ ¬ hasLetter env raw then none
    else if isPlumbing raw then none
    else some (lightStem raw)).toFinset

/-- `_label_content_tokens`. -/
def labelContentTokens (label : String) : List String :=
  (tokensOf (env.link.casefold (plainApostrophes label))).filter fun token =>
    !isPronounToken token && !(decide (token.toList.length < 2) || !hasLetter env token) &&
      !isPlumbing token

/-- The content stems of a label. -/
def labelStems (label : String) : List String := (labelContentTokens env label).map lightStem

/-- `_SPEAKER_TAG_RE`, with the speaker as its group. -/
def speakerTagRe : Regex :=
  .seqs [.start, .star (.char .space), .char (.oneOf ['[']),
    .group 1 (.alts [.letters "USER", .letters "ASSISTANT"]), .char (.oneOf [']']),
    .star (.char .space), .optional (.char (.oneOf [':']))]

/-- `_SPEAKER_TAG_RE.match`. -/
def speakerTag (text : String) : Option Match :=
  matchAt env.alphabet text.toList speakerTagRe 0

/-- `_strip_speaker_tag`. -/
def stripSpeakerTag (text : String) : String :=
  match speakerTag env text with
  | some tag => strip (String.ofList (text.toList.drop tag.last))
  | none => strip text

/-- `_member_amounts`. -/
def memberAmounts (text : String) (limit : Nat) : List String :=
  (fromkeys ((env.amountMatches text).map collapse)).take limit

/-- The amounts of a text as they are compared. -/
def foldedAmounts (text : String) : Finset String :=
  ((memberAmounts env text 8).map fun amount => collapse (env.link.casefold amount)).toFinset

/-- `_member_instance_values`. -/
def memberInstanceValues (text : String) : Finset String :=
  let months := (surfaceTokens text).filter fun token =>
    (token.toList.head?).any env.isUpper && monthTokens.contains (env.link.casefold token)
  foldedAmounts env text ∪ (env.dateMatches text).toFinset ∪
    (months.map env.link.casefold).toFinset

/-! ### Rows -/

/-- A text that is not blank, its white space collapsed. -/
def writtenText (value : Json) : Option String :=
  match value with
  | .str s => if strip s = "" then none else some (collapse s)
  | _ => none

/-- `_member_text`. -/
def memberText (row : Dict Json) : String :=
  match ["canonical_text", "summary", "title", "memory_key"].findSome? fun key =>
      writtenText (row.item key) with
  | some text => text
  | none =>
    match (row.item "value").asObj?.bind fun value => writtenText (value.item "text") with
    | some text => text
    | none => ((row.get? "id").map env.text).getD "item"

/-- `str(row.get("id"))`. -/
def memberId (row : Dict Json) : String := env.text (row.item "id")

/-- `_project_scope_key`. -/
def rowScopeKey (row : Dict Json) : List String := (resolveProjectScope row).identity

/-- The first ten characters of a text that is long enough. -/
def leadingDate (least : Nat) (value : Json) : Option String :=
  match value with
  | .str s => if least ≤ s.toList.length then some (String.ofList (s.toList.take 10)) else none
  | _ => none

/-- `_member_date`. -/
def memberDate (row : Dict Json) : Option String :=
  ((row.item "metadata_json").asObj?.bind fun metadata =>
      leadingDate 8 (metadata.item "session_date")).orElse fun _ =>
    ((row.item "value").asObj?.bind fun value => leadingDate 8 (value.item "date")).orElse fun _ =>
      ["first_seen_at", "created_at", "last_seen_at"].findSome? fun key =>
        leadingDate 10 (row.item key)

/-- A text that is not blank, stripped. -/
def strippedText (value : Json) : Option String :=
  match value with
  | .str s => if strip s = "" then none else some (strip s)
  | _ => none

/-- The speaker that a text is tagged with. -/
def taggedSpeaker (value : Json) : Option String :=
  match value with
  | .str s => (speakerTag env s).map fun tag => env.upper (String.ofList (tag.group s.toList 1))
  | _ => none

/-- The speaker that a dictionary names. -/
def namedSpeaker (container : Json) : Option String :=
  container.asObj?.bind fun fields => ["speaker", "speaker_role", "role"].findSome? fun key =>
    (strippedText (fields.item key)).map env.upper

/-- `_member_role`. -/
def memberRole (row : Dict Json) : Option String :=
  (([row.item "metadata_json", row.item "value"].findSome? (namedSpeaker env)).orElse fun _ =>
    ["canonical_text", "title"].findSome? fun key => taggedSpeaker env (row.item key)).orElse
      fun _ => (row.item "value").asObj?.bind fun value => taggedSpeaker env (value.item "text")

/-- `_member_session_key`. -/
def memberSessionKey (row : Dict Json) : Option String :=
  ((row.item "metadata_json").asObj?.bind fun metadata =>
    ["source_id", "session_id", "session_date"].findSome? fun key =>
      (strippedText (metadata.item key)).map fun value => key ++ ":" ++ value).orElse fun _ =>
    ((memberDate row).filter (· ≠ "")).map fun date => "date:" ++ date

/-- The order of members: by date, by `str(row.get("created_at") or "")`, and by id. -/
def memberRank (row : Dict Json) : String ×ₗ String ×ₗ String :=
  let createdAt := row.item "created_at"
  toLex (((memberDate row).filter (· ≠ "")).getD "9999-99-99",
    toLex (if createdAt.truthy then env.text createdAt else "", memberId env row))

/-- `_sorted_members`. -/
def sortedMembers (members : List (Dict Json)) : List (Dict Json) :=
  sortByKeys (memberRank env) members

/-! ### Surface words -/

/-- `_surface_counts`: the surface words that are counted. -/
def surfaceCounts (members : List (Dict Json)) (anchor : String) : List String :=
  members.flatMap fun member =>
    ((surfaceTokens (memberText env member)).map env.link.casefold).filter fun lowered =>
      lightStem lowered = anchor

/-- `_surface_form`. -/
def surfaceForm (members : List (Dict Json)) (anchor : String) : String :=
  ((byFrequency (surfaceCounts env members anchor)).head?).getD anchor

/-- `_surface_variants`. -/
def surfaceVariants (members : List (Dict Json)) (anchors : List String) (label : String) :
    List String :=
  let labelTokens := tokensOf (env.link.casefold label)
  anchors.foldl (fun variants anchor =>
    match (byFrequency (surfaceCounts env members anchor)).find? fun surface =>
        !labelTokens.contains surface && !variants.contains surface with
    | some surface => variants ++ [surface]
    | none => variants) []

/-- `text.count(word)`: the places that are passed over are given. -/
def countScan (word : List Char) : List Char → Nat → Nat
  | [], _ => 0
  | _ :: rest, skip + 1 => countScan word rest skip
  | c :: rest, 0 =>
    if word.isPrefixOf (c :: rest) then countScan word rest (word.length - 1) + 1
    else countScan word rest 0

/-- `_natural_surface_order`. -/
def naturalSurfaceOrder (members : List (Dict Json)) : List String → List String
  | [first, second] =>
    let texts := (members.take 20).map fun member =>
      (collapse (env.link.casefold (memberText env member))).toList
    let count (word : String) := (texts.map fun text => countScan word.toList text 0).sum
    if count (first ++ " " ++ second) < count (second ++ " " ++ first) then [second, first]
    else [first, second]
  | surfaces => surfaces

/-- The Jaccard index of two sets. -/
def tokenJaccard (left right : Finset String) : Rat :=
  if left ∪ right = ∅ then 1 else rounded ((left ∩ right).card / (left ∪ right).card)

/-- A value for each pair of elements. -/
def pairwiseValues {α : Type} (value : α → α → Rat) : List α → List Rat
  | [] => []
  | left :: rest => rest.map (value left) ++ pairwiseValues value rest

/-- `_mean_pairwise_jaccard`. -/
def meanPairwiseJaccard (tokenSets : List (Finset String)) : Rat :=
  let pairs := pairwiseValues tokenJaccard tokenSets
  if pairs = [] then 0 else rounded (env.sum pairs / pairs.length)

end Texts

end AliceBot
