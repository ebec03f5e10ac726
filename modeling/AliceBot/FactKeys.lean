import AliceBot.Library.Json
import AliceBot.Library.KeyedLists
import AliceBot.Library.Lines
import AliceBot.Library.Regex
import AliceBot.Library.SortedByKey
import Mathlib.Data.Prod.Lex

/-!
# Fact keys

The retrieval phrases of `vnext_fact_keys`: what the deterministic tier derives from a memory
row and its linked entities, what a model's reply adds, and the one text in which the keys are
stored.

Texts are lists of characters. What the interpreter knows of characters, how it writes numbers
and what `json.loads` reads is given. A provider is the reply that its endpoint gives to a text.
-/

namespace AliceBot

open PyLib

/-- What the derivation of fact keys takes from the interpreter. -/
structure FactKeyEnv where
  alphabet : Alphabet
  /-- `str.lower`. -/
  lower : List Char → List Char
  /-- `str.isalpha` of one character. -/
  isAlpha : Char → Bool
  /-- `str` of a number. -/
  numberText : Json → List Char
  /-- `json.loads`, of the texts that it reads. -/
  loads : List Char → Option Json

/-- How a derivation can fail. -/
inductive FactKeyError where
  /-- `KeyError`, of the table of units. -/
  | key (spelling : List Char)
deriving DecidableEq

/-- `MAX_FACT_KEYS`. -/
def maxFactKeys : Nat := 8

/-- `MAX_FACT_KEY_LENGTH`. -/
def maxFactKeyLength : Nat := 80

/-- `MAX_FACT_KEY_WORDS`. -/
def maxFactKeyWords : Nat := 12

/-- `MAX_PROVIDER_KEY_WORDS`. -/
def maxProviderKeyWords : Nat := 8

/-- `FACT_KEY_SEPARATOR`. -/
def factKeySeparator : List Char := [';', ' ']

/-! ### Tables -/

/-- `_CATEGORY_LEXICON`. -/
def categoryLexicon : List (String × List String) :=
  [("charity event fundraiser fundraising",
      ["bike-a-thon", "bikeathon", "walk-a-thon", "walkathon", "jog-a-thon", "dance-a-thon",
        "read-a-thon", "bake sale", "charity auction", "charity run", "charity gala", "fundraiser",
        "fund-raiser", "fundraising", "donation drive", "raffle", "telethon", "gala"]),
    ("pet dog animal",
      ["golden retriever", "labrador", "poodle", "beagle", "dachshund", "corgi", "terrier",
        "bulldog", "chihuahua", "puppy"]),
    ("pet cat animal", ["kitten", "tabby", "siamese cat", "calico"]),
    ("vehicle car",
      ["sedan", "suv", "hatchback", "minivan", "coupe", "convertible", "pickup truck",
        "crossover"]),
    ("vehicle bike motorcycle", ["motorbike", "scooter", "moped", "e-bike"]),
    ("home housing residence",
      ["apartment", "condo", "studio apartment", "townhouse", "duplex", "loft"]),
    ("job role profession occupation",
      ["engineer", "developer", "designer", "teacher", "professor", "nurse", "doctor",
        "accountant", "lawyer", "barista", "chef", "consultant", "analyst", "architect",
        "electrician", "plumber", "recruiter", "therapist"]),
    ("exercise fitness workout activity",
      ["yoga", "pilates", "marathon", "triathlon", "jog", "jogging", "hike", "hiking", "swim",
        "swimming", "cycling", "spin class", "gym", "crossfit", "zumba"]),
    ("book reading", ["novel", "memoir", "biography", "paperback", "audiobook", "book club"]),
    ("movie film show television",
      ["sitcom", "documentary", "thriller", "rom-com", "miniseries", "season finale"]),
    ("restaurant food dining meal",
      ["restaurant", "cafe", "bistro", "diner", "bakery", "sushi", "pizzeria", "food truck",
        "brunch", "takeout"]),
    ("travel trip vacation",
      ["flight", "road trip", "itinerary", "airbnb", "hotel", "hostel", "cruise", "layover",
        "sightseeing"]),
    ("class course education training",
      ["seminar", "workshop", "webinar", "bootcamp", "certification", "lecture", "tutorial"]),
    ("health medical condition",
      ["allergy", "allergic", "migraine", "asthma", "physical therapy", "prescription",
        "medication", "diagnosis"]),
    ("musical instrument music",
      ["guitar", "piano", "violin", "drums", "ukulele", "cello", "saxophone"]),
    ("concert live music performance", ["music festival", "gig", "open mic"]),
    ("wedding celebration event", ["engagement party", "bridal shower", "anniversary party"]),
    ("birthday celebration party event", ["birthday"]),
    ("computer device electronics",
      ["laptop", "desktop", "tablet", "smartphone", "monitor", "headphones"]),
    ("plant gardening", ["succulent", "fern", "orchid", "herb garden", "monstera"]),
    ("game gaming hobby", ["board game", "video game", "chess", "puzzle", "poker"]),
    ("interview hiring job application", ["job interview", "job offer", "resume"])]

/-- `_UNIT_EXPANSIONS`, in the order in which the pattern tries the spellings. -/
def unitExpansions : List (String × String × String) :=
  [("mins", "minutes", "duration"), ("lbs", "pounds", "weight"), ("hrs", "hours", "duration"),
    ("min", "minutes", "duration"), ("km", "kilometers", "distance"), ("mi", "miles", "distance"),
    ("kg", "kilograms", "weight"), ("lb", "pounds", "weight"), ("hr", "hours", "duration")]

/-- `_ENTITY_TYPE_PHRASES`. -/
def entityTypePhrases : List (String × String) :=
  [("person", "person"), ("organization", "organization company"), ("project", "project"),
    ("topic", "topic"), ("technology", "technology tool"), ("market", "market"),
    ("report", "report"), ("agent", "agent")]

/-- `_VALUE_ATTRIBUTE_NAME_EXCLUSIONS`. -/
def valueAttributeNameExclusions : List String :=
  ["text", "intent", "source_refs", "source_id", "source_chunk_id"]

/-! ### Patterns -/

namespace FactKeyPattern

open Regex

/-- One pattern of `_LEXICON_PATTERNS`. -/
def lexicon (triggers : List String) : Regex :=
  seqs [.boundary, alts (triggers.map letters), .boundary]

/-- `(?:\.\d+)?`. -/
def decimals : Regex := optional (seqs [.char (.oneOf ['.']), plus (.char .digit)])

/-- `\d[\d,]*(?:\.\d+)?`. -/
def amount : Regex :=
  seqs [.char .digit, .star (.alt (.char .digit) (.char (.oneOf [',']))), decimals]

/-- `_CURRENCY_PATTERN`. -/
def currency : Regex :=
  seqs [.group 1 (.char (.oneOf ['$', '€', '£'])), optional (.char .space), .group 2 amount]

/-- `_PERCENT_PATTERN`. -/
def percent : Regex :=
  seqs [.boundary, .group 1 (seqs [plus (.char .digit), decimals]), optional (.char .space),
    alts [.char (.oneOf ['%']), seqs [letters "percent", .boundary]]]

/-- `_UNIT_PATTERN`. -/
def unit : Regex :=
  seqs [.boundary, .group 1 amount, optional (.char .space),
    .group 2 (alts (unitExpansions.map fun entry => letters entry.1)), .boundary]

end FactKeyPattern

/-! ### Phrases -/

/-- `" ".join(parts)`. -/
def joinWords (parts : List (List Char)) : List Char := List.intercalate [' '] parts

/-- A string that is not blank, stripped. -/
def nonBlankText : Option Json → Option (List Char)
  | some (.str s) => if trim s.toList = [] then none else some (trim s.toList)
  | _ => none

/-- `_memory_text_fields`. -/
def memoryTextFields (memory : Dict Json) : List (List Char) :=
  (["title", "canonical_text", "summary"].filterMap fun field =>
      nonBlankText (memory.get? field)) ++
    match memory.get? "value" with
    | some (.obj value) => (nonBlankText (Dict.get? value "text")).toList
    | _ => []

/-- The text of a memory: its fields, joined by line breaks. -/
def memoryText (memory : Dict Json) : List Char := List.intercalate ['\n'] (memoryTextFields memory)

/-- The characters of `_WORD_PATTERN`. -/
def isTokenChar (c : Char) : Bool := c.isAlphanum

/-- `_tokens`. -/
def factTokens (text : List Char) : List (List Char) :=
  ((text.splitOnP fun c => !isTokenChar c).filter (· ≠ [])).map (List.map asciiLowerChar)

/-- `re.sub(r"\s+", " ", text)`; the flag says that the scan is inside of a run. -/
def squeezeBlanks : Bool → List Char → List Char
  | _, [] => []
  | inRun, c :: rest =>
    if isSpace c then
      if inRun then squeezeBlanks true rest else ' ' :: squeezeBlanks true rest
    else c :: squeezeBlanks false rest

/-- `text.strip(chars)`. -/
def stripChars (chars : List Char) (text : List Char) : List Char :=
  ((text.dropWhile chars.contains).reverse.dropWhile chars.contains).reverse

/-- `text.rsplit(" ", 1)[0]`. -/
def beforeLastBlank (text : List Char) : List Char :=
  if ' ' ∈ text then ((text.reverse.dropWhile (· ≠ ' ')).drop 1).reverse else text

/-- A text in which a word occurs. -/
def withWord (text : List Char) : Option (List Char) :=
  if text.any isTokenChar then some text else none

/-- A phrase cut before the word that would make it too long. -/
def cutPhrase (text : List Char) : Option (List Char) :=
  if maxFactKeyLength < text.length then
    withWord (trim (beforeLastBlank (text.take maxFactKeyLength)))
  else some text

/-- `_sanitize_key`, of a string. -/
def sanitizeKey (maxWords : Nat) (candidate : List Char) : Option (List Char) :=
  let line := trim (squeezeBlanks false (candidate.map fun c => if c = '\x00' then ' ' else c))
  let text := trim (stripChars "-*•>\"'` \t".toList line)
  -- A text without a word is none, be it empty or not.
  match withWord text with
  | none => none
  | some text => if maxWords < (text.splitOn ' ').length then none else cutPhrase text

section Candidates

variable (env : FactKeyEnv)

/-! ### Candidates of the deterministic tier -/

/-- The categories with a trigger in a text, by the place of their first trigger. -/
def lexiconHits (text : List Char) : List (List Char) :=
  let matched : List (Nat × String) := categoryLexicon.filterMap fun (category, triggers) =>
    (search env.alphabet text (FactKeyPattern.lexicon triggers)).map fun m => (m.first, category)
  (sortByKeys (fun hit => toLex hit) matched).map fun hit => hit.2.toList

/-- `_CURRENCY_WORDS[symbol]`, of the symbols that the pattern admits. -/
def currencyWord (symbol : List Char) : String :=
  if symbol = ['$'] then "dollars" else if symbol = ['€'] then "euros" else "pounds"

/-- `amount.replace(",", "")`. -/
def withoutCommas (amount : List Char) : List Char := amount.filter (· ≠ ',')

/-- The phrase of an amount of money. -/
def currencyKey (text : List Char) (m : Match) : List Char :=
  joinWords [withoutCommas (m.group text 2), (currencyWord (m.group text 1)).toList,
    "total amount".toList]

/-- The phrase of a percentage. -/
def percentKey (text : List Char) (m : Match) : List Char :=
  joinWords [m.group text 1, "percent percentage".toList]

/-- The phrase of a quantity with a unit. The table is asked for the lowered spelling, which is
not in it for every spelling that the pattern matches. -/
def unitKey (text : List Char) (m : Match) : Except FactKeyError (List Char) :=
  let spelling := env.lower (m.group text 2)
  match unitExpansions.find? (·.1.toList = spelling) with
  | none => .error (.key spelling)
  | some (_, expanded, hypernym) =>
    .ok (joinWords [withoutCommas (m.group text 1), expanded.toList, hypernym.toList])

/-- `_amount_keys`. -/
def amountKeys (text : List Char) : Except FactKeyError (List (List Char)) := do
  let units ← (findIter env.alphabet text FactKeyPattern.unit).mapM (unitKey env text)
  .ok ((findIter env.alphabet text FactKeyPattern.currency).map (currencyKey text) ++
    (findIter env.alphabet text FactKeyPattern.percent).map (percentKey text) ++ units)

/-- `_is_identifier_attribute`. -/
def isIdentifierAttribute (name : String) : Bool :=
  valueAttributeNameExclusions.contains name ||
    "_id".toList.isSuffixOf name.toList || "_ids".toList.isSuffixOf name.toList

/-- A hexadecimal digit. -/
def isHexDigit (c : Char) : Bool := c.isDigit || ('a' ≤ c && c ≤ 'f') || ('A' ≤ c && c ≤ 'F')

/-- `_is_identifier_value`, of a string: the shape of a UUID, or at least twelve hexadecimal
digits. -/
def isIdentifierValue (raw : List Char) : Bool :=
  let text := trim raw
  (text.all isHexDigit && decide (12 ≤ text.length)) ||
    (text.all (fun c => isHexDigit c || c = '-') &&
      (text.splitOn '-').map List.length = [8, 4, 4, 4, 12])

/-- The text of an attribute that is a string without the shape of an identifier, or a number. -/
def attributeText : Json → Option (List Char)
  | .str s => if isIdentifierValue s.toList then none else some s.toList
  | .int n => some (env.numberText (.int n))
  | .float q => some (env.numberText (.float q))
  | _ => none

/-- The words of an attribute's name: `re.split(r"[_\-]+", name)`. -/
def attributeWords (name : String) : List Char :=
  trim (joinWords ((name.toList.splitOnP fun c => c = '_' ∨ c = '-').filter (· ≠ [])))

/-- The phrase of an attribute of `value`. -/
def attributeKey (value : Dict Json) (name : String) : Option (List Char) :=
  if isIdentifierAttribute name then none
  else
    ((value.get? name).bind (attributeText env)).bind fun raw =>
      let words := attributeWords name
      if words = [] then none else some (trim (joinWords [words, raw]))

/-- `_value_attribute_keys`. -/
def valueAttributeKeys (memory : Dict Json) : List (List Char) :=
  match memory.get? "value" with
  | some (.obj value) =>
    (sortByKeys id (value.map Prod.fst)).filterMap (attributeKey env value)
  | _ => []

/-- The phrase that a type of entity adds to a name. -/
def entityPhrase (name : List Char) : Option Json → List Char
  | some (.str kind) =>
    match entityTypePhrases.lookup kind with
    | some phrase => trim (joinWords [name, phrase.toList])
    | none => name
  | _ => name

/-- The phrases of one entity: its name with its type, and its aliases. -/
def entityNames (entity : Dict Json) : List (List Char) :=
  ((nonBlankText (entity.get? "name")).map fun name =>
      entityPhrase name (entity.get? "entity_type")).toList ++
    match entity.get? "aliases" with
    | some (.arr aliases) => aliases.filterMap fun alias_ => nonBlankText (some alias_)
    | _ => []

/-- `_entity_keys`. -/
def factEntityKeys (entities : List Json) : List (List Char) :=
  entities.flatMap fun
    | .obj entity => entityNames entity
    | _ => []

/-- `_memory_key_words`. The words of a key that a person has chosen; a generated key
has none. -/
def memoryKeyWords (memory : Dict Json) : List Char :=
  match memory.get? "memory_key" with
  | some (.str key) =>
    if "vnext.".toList.isPrefixOf key.toList || "agentic_memory.".toList.isPrefixOf key.toList then
      []
    else
      let segments :=
        (key.toList.splitOnP fun c => ['.', '_', '/', '-', ':'].contains c).filter (· ≠ [])
      -- One segment that is not made of letters marks the key as generated.
      if segments.all (List.all · env.isAlpha) then joinWords (fromkeys (segments.map env.lower))
      else []
  | _ => []

/-- The candidates of `derive_deterministic_fact_keys`, in the order of its five sources. -/
def deterministicCandidates (memory : Dict Json) (entities : List Json) :
    Except FactKeyError (List (List Char)) := do
  let amounts ← amountKeys env (memoryText memory)
  .ok (lexiconHits env (memoryText memory) ++ amounts ++ valueAttributeKeys env memory ++
    factEntityKeys entities ++ [memoryKeyWords env memory])

/-! ### Derivation -/

/-- Whether a phrase has a token that a text does not have. -/
def hasNewToken (text key : List Char) : Bool :=
  (factTokens key).any fun token => !(factTokens text).contains token

/-- The loop over candidates: one is kept if its lowered form was not seen and it has a new
token, until there are `maxKeys` of them. -/
def keepKeys (text : List Char) (maxKeys : Nat) :
    List (List Char) → List (List Char) → List (List Char) → List (List Char)
  | _, kept, [] => kept
  | seen, kept, key :: rest =>
    if env.lower key ∈ seen then keepKeys text maxKeys seen kept rest
    else if !hasNewToken text key then keepKeys text maxKeys seen kept rest
    else if maxKeys ≤ kept.length + 1 then kept ++ [key]
    else keepKeys text maxKeys (env.lower key :: seen) (kept ++ [key]) rest

/-- `derive_deterministic_fact_keys`. -/
def deriveDeterministicFactKeys (memory : Dict Json) (entities : List Json) (maxKeys : Nat) :
    Except FactKeyError (List (List Char)) := do
  let candidates ← deterministicCandidates env memory entities
  .ok (keepKeys env (memoryText memory) maxKeys [] []
    (candidates.filterMap (sanitizeKey maxFactKeyWords)))

/-- The first stretch from a bracket to the next closing one: `re.search(r"\[.*?\]", text)`. -/
def firstBracketed (text : List Char) : Option (List Char) :=
  match text.dropWhile (· ≠ '[') with
  | [] => none
  | opening :: rest =>
    if ']' ∈ rest then some (opening :: rest.takeWhile (· ≠ ']') ++ [']']) else none

/-- `_parse_provider_keys`. -/
def parseProviderKeys (content : List Char) : List (List Char) :=
  let parsed := (env.loads content).orElse fun _ => (firstBracketed content).bind env.loads
  let items := match parsed with
    | some (.arr items) => (items.filterMap Json.asStr?).map String.toList
    | _ => splitlinesScan content []
  items.filterMap (sanitizeKey maxProviderKeyWords)

/-- The phrases that a provider suggests for a memory with a text. -/
def suggestedKeys (memory : Dict Json) (provider : Option (List Char → List Char)) :
    List (List Char) :=
  match provider with
  | none => []
  | some reply =>
    if trim (memoryText memory) = [] then []
    else parseProviderKeys env (reply (memoryText memory))

/-- `derive_fact_keys`. The keys by rule come first, those of the provider after them,
up to the limit. -/
def deriveFactKeys (memory : Dict Json) (entities : List Json)
    (provider : Option (List Char → List Char)) (maxKeys : Nat) :
    Except FactKeyError (List (List Char)) := do
  let keys ← deriveDeterministicFactKeys env memory entities maxKeys
  if maxKeys ≤ keys.length then .ok keys
  else .ok (keepKeys env (memoryText memory) maxKeys (keys.map env.lower) keys
    (suggestedKeys env memory provider))

end Candidates

/-! ### Storage -/

/-- `fact_keys_text`. -/
def factKeysText (keys : List (List Char)) : List Char := List.intercalate factKeySeparator keys

/-- `split_fact_keys`, of a string. -/
def splitFactKeys (text : List Char) : List (List Char) :=
  if trim text = [] then []
  else ((text.splitOn ';').map trim).filter (· ≠ [])

end AliceBot
