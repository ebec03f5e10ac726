import AliceBot.RollupGroups

/-!
# Cards of roll-ups

How `propose_rollups` writes a group down: one instance for each of its first members, labelled
by what the text of the member names best, and the texts of the card.
-/

namespace AliceBot

open PyLib

section Instances

variable (env : RollupEnv)

/-! ### Labels of instances -/

/-- `_instance_label_junk_reason`. Why the label of an instance is none: no content, a
fragment, or a closed-class head. -/
def instanceLabelJunkReason (label : String) : Option String :=
  match labelContentTokens env label with
  | [] => some "label_without_content_words"
  | head :: _ =>
    let first := ((tokensOf (env.link.casefold (plainApostrophes label))).head?).getD ""
    if pronounContractionHeads.contains first ||
        pronounContractionHeads.contains (apostropheHead first) then
      some "label_pronoun_fragment"
    else if closedClassLabelHeads.contains first || closedClassLabelHeads.contains head then
      some "label_head_closed_class"
    else none

/-- The token can name what a text is about. -/
def isNounToken (token : String) : Bool :=
  !isPronounToken token && !(decide (token.toList.length < 3) || !hasLetter env token) &&
    !isPlumbing token && !(closedClassLabelHeads.contains token || isVerbForm token)

/-- `_dominant_noun_label`. -/
def dominantNounLabel (text : String) : Option String :=
  let found := (surfaceTokens text).map fun raw => (plainApostrophes (env.link.casefold raw), raw)
  let nouns := found.filter fun pair => isNounToken env pair.1
  ((byFrequency (nouns.map Prod.fst)).head?).bind fun best =>
    (nouns.find? fun pair => pair.1 = best).map Prod.snd

/-- By confidence, by occurrences, and by name. -/
def candidateRank (candidate : EntityCandidate) : Int ×ₗ Int ×ₗ String :=
  toLex (-(candidate.sourceRule.confidence : Int),
    toLex (-(candidate.occurrences : Int), candidate.name))

/-- The first eighty characters of a text. -/
def firstEighty (text : String) : String := String.ofList (text.toList.take 80)

/-- The label of a row whose entities give none. -/
def plainInstanceLabel (row : Dict Json) : String :=
  let text := stripSpeakerTag env (memberText env row)
  let titled : Option String :=
    match row.item "title" with
    | .str title =>
      let cleaned := firstEighty (stripSpeakerTag env (collapse title))
      if strip title ≠ "" ∧ cleaned ≠ "" ∧ instanceLabelJunkReason env cleaned = none then
        some cleaned
      else none
    | _ => none
  (titled.orElse fun _ => dominantNounLabel env text).getD (firstEighty text)

/-- `_instance_label`. -/
def instanceLabel (row : Dict Json) (excludeNormalized : Option String) : String :=
  let text := stripSpeakerTag env (memberText env row)
  let candidates := (extractEntityCandidates env.link env.rules text).filter fun candidate =>
    some candidate.normalized ≠ excludeNormalized
  let labels := (sortByKeys candidateRank candidates).map fun candidate =>
    expandedEntityLabel env candidate.name [row]
  (labels.find? fun label => instanceLabelJunkReason env label = none).getD
    (plainInstanceLabel env row)

/-! ### Instances -/

/-- What a card keeps of a member. -/
structure InstanceRecord where
  memoryId : String
  label : String
  date : Option String
  amounts : List String
  text : String
  role : Option String
deriving DecidableEq

/-- `_instance_record`. What a card keeps of one of its members: its label, its date,
its amounts and a piece of its text. -/
def instanceRecord (row : Dict Json) (excludeNormalized : Option String) : InstanceRecord :=
  let text := stripSpeakerTag env (memberText env row)
  { memoryId := memberId env row
    label := instanceLabel env row excludeNormalized
    date := memberDate row
    amounts := memberAmounts env text 4
    text := String.ofList (text.toList.take 200)
    role := memberRole env row }

/-- The letters, or percent signs, that a text ends in before white space. -/
def trailingUnit (text : String) : Option String :=
  let unit := ((text.toList.reverse.dropWhile env.alphabet.space).takeWhile fun c =>
    ('a' ≤ c ∧ c ≤ 'z') ∨ c = '%').reverse
  if unit = [] then none else some (String.ofList unit)

/-- `_amount_unit`. -/
def amountUnit (amount : String) : Option String :=
  let stripped := strip amount
  match stripped.toList with
  | c :: _ =>
    if ['$', '€', '£'].contains c then some (String.singleton c)
    else trailingUnit env (env.link.casefold stripped)
  | [] => some ""

/-- `_dominant_amount_unit`. -/
def dominantAmountUnit (instances : List InstanceRecord) : Option String :=
  let units := instances.flatMap fun item => fromkeys (item.amounts.filterMap (amountUnit env))
  ((byFrequency units).head?).filter fun unit => 2 ≤ units.count unit

/-- What stands behind the label of an instance. -/
def instanceDetails (item : InstanceRecord) : String :=
  let amounts := if item.amounts = [] then [] else [", ".intercalate item.amounts]
  let details := amounts ++ ((item.date.filter (· ≠ "")).toList) ++
    ((item.role.filter (· ≠ "")).toList)
  if details = [] then "" else " (" ++ "; ".intercalate details ++ ")"

/-- `_render_instance`. -/
def renderInstance (item : InstanceRecord) : String := item.label ++ instanceDetails item

end Instances

/-! ### Cards -/

/-- What a card says about the rows that were read, and the sentence of a model. -/
structure CardArgs where
  modelSummary : Option String
  groupingInputTruncated : Bool
  groupingInputCount : Nat
  groupingInputTotal : Nat
  groupingInputTotalExact : Bool

/-- The texts of a card. -/
structure CardTexts where
  title : String
  canonicalText : String
  summary : String
deriving DecidableEq

section Cards

variable (env : RollupEnv)

/-- The rows that were scanned. -/
def scannedOf (args : CardArgs) : String :=
  let total := if args.groupingInputTotalExact then toString args.groupingInputTotal
    else "at least " ++ toString args.groupingInputTotal
  toString args.groupingInputCount ++ " of " ++ total

/-- The title of a card. -/
def cardTitle (group : RollupGroup) (instances : List InstanceRecord) (args : CardArgs) : String :=
  let total := toString group.members.length
  let displayed := toString instances.length
  let truncated := instances.length < group.members.length
  let display := if truncated then "; showing " ++ displayed else ""
  if args.groupingInputTruncated then
    "Roll-up: " ++ group.label ++ " — " ++ total ++ " matched instances in bounded input (" ++
      scannedOf args ++ " memories scanned" ++ display ++ ")"
  else if truncated then
    "Roll-up: " ++ group.label ++ " — " ++ total ++ " instances total (showing " ++ displayed ++ ")"
  else
    match dominantAmountUnit env instances with
    | some unit => "Roll-up: " ++ group.label ++ " — " ++ total ++ " instances, amounts in " ++ unit
    | none => "Roll-up: " ++ group.label ++ " (" ++ total ++ " instances in total)"

/-- The text of a card, from its rendered instances. -/
def cardText (group : RollupGroup) (lines : List String) (args : CardArgs) : String :=
  let rendered := "; ".intercalate lines
  let total := toString group.members.length
  let displayed := toString lines.length
  let truncated := lines.length < group.members.length
  let display := if truncated then "; showing " ++ displayed else ""
  let head := if group.labelVariants = [] then group.label
    else group.label ++ " (also: " ++ ", ".intercalate group.labelVariants ++ ")"
  let text :=
    -- a truncated input makes the count a lower bound, so the card does not call it a total
    if args.groupingInputTruncated then
      head ++ " — " ++ total ++ " matched instances in a truncated grouping input (" ++
        scannedOf args ++ " in-scope memories scanned" ++ display ++ "): " ++ rendered ++ "."
    else if truncated then
      head ++ " — " ++ total ++ " instances in the authoritative group; showing " ++ displayed ++
        ": " ++ rendered ++ "."
    else head ++ " — " ++ total ++ " instances in total: " ++ rendered ++ "."
  match args.modelSummary with
  | some summary => if summary = "" then text else text ++ " Summary: " ++ summary
  | none => text

/-- `_render_card`. -/
def renderCard (group : RollupGroup) (instances : List InstanceRecord) (args : CardArgs) :
    CardTexts :=
  let text := cardText group (instances.map renderInstance) args
  ⟨cardTitle env group instances args, text, String.ofList (text.toList.take 280)⟩

/-- The entity that the instances of a group are not labelled by. -/
def groupEntity (group : RollupGroup) : Option String :=
  match group.groupKind with
  | .entity => some (removePrefix group.rollupKey "entity:")
  | .topic => none

/-- The instances of a group. -/
def groupInstances (options : RollupOptions) (group : RollupGroup) : List InstanceRecord :=
  (group.members.take options.maxInstancesPerCard).map fun row =>
    instanceRecord env row (groupEntity group)

/-- The card of a group. -/
def groupCard (options : RollupOptions) (args : CardArgs) (group : RollupGroup) : CardTexts :=
  renderCard env group (groupInstances env options group) args

end Cards

end AliceBot
