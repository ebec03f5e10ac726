import AliceBot.BudgetReport
import AliceBot.CurrencyRegroup

/-!
# The counted sections of a context pack

`compile_context_pack` offers the sections of a pack to a budget one item after the other: the
ranked sections in the order of the strategy, then the annotations of the items that were packed,
the supplemental sections, and at the end the event times and the derived values
(`compileSections`). A `Ledger` is the budget with everything that it was offered.

Between the ranked sections and the annotations the packed memories are brought into the order of
their currency chains. The chains are those of `build_currency_chains`, on the rows as they are
written (`currencyRow`), and the packed rows follow `apply_currency_chains`
(`map_currencyRow_applyCurrency`).
-/

namespace AliceBot

open PyLib

/-! ### The size of an item -/

/-- An item of a pack: a row, a record or an annotation. -/
abbrev PackItem := Dict PackValue

section Sizes

variable (floatText : Rat → List Char)

/-- The characters of one member of an item. -/
def memberChars (member : String × PackValue) : Nat :=
  Json.memberLength floatText (PackValue.jsonSafeField member)

/-- The characters of the members of an item. -/
def itemChars (item : PackItem) : Nat := (item.map (memberChars floatText)).sum

/-- The tokens of a text of so many characters. -/
def tokensOfChars (chars : Nat) : Nat :=
  max 1 ((chars + tokenEstimateCharsPerToken - 1) / tokenEstimateCharsPerToken)

theorem tokensOfChars_mono {a b : Nat} (h : a ≤ b) : tokensOfChars a ≤ tokensOfChars b := by
  unfold tokensOfChars tokenEstimateCharsPerToken
  omega

theorem tokensOfChars_add_le (a b : Nat) :
    tokensOfChars (a + b) ≤ tokensOfChars a + tokensOfChars b := by
  unfold tokensOfChars tokenEstimateCharsPerToken
  omega

theorem jsonSafeFields_eq_map (item : PackItem) :
    PackValue.jsonSafeFields item = item.map PackValue.jsonSafeField := by
  induction item with
  | nil => rfl
  | cons member item ih => rw [PackValue.jsonSafeFields, ih, List.map_cons]

/-- The estimate of an item is that of its braces and members. -/
theorem estimateItemTokens_dict (item : PackItem) :
    estimateItemTokens floatText (.dict item) =
      tokensOfChars (max 2 (itemChars floatText item + 1)) := by
  have hlength : ((PackValue.dict item).jsonSafe.writeRaw floatText).length =
      max 2 (itemChars floatText item + 1) := by
    rw [PackValue.jsonSafe, Json.length_writeRaw_obj, jsonSafeFields_eq_map, List.map_map]
    rfl
  unfold estimateItemTokens
  rw [hlength]
  rfl

/-- A member that is written adds its characters at most. -/
theorem itemChars_set_le (item : PackItem) (key : String) (value : PackValue) :
    itemChars floatText (item.set key value) ≤
      itemChars floatText item + memberChars floatText (key, value) := by
  induction item with
  | nil => exact Nat.le_of_eq (Nat.add_comm _ _)
  | cons member item ih =>
    obtain ⟨k, v⟩ := member
    rw [Dict.set]
    split
    next hk =>
      rw [hk]
      simp only [itemChars, List.map_cons, List.sum_cons]
      omega
    next =>
      simp only [itemChars, List.map_cons, List.sum_cons] at ih ⊢
      omega

end Sizes

/-! ### The ledger -/

/-- An item that was offered in a section, and whether it was admitted. -/
structure Offer where
  sectionName : String
  item : PackItem
  admitted : Bool

section Ledgers

variable (floatText : Rat → List Char)

/-- The tokens that were charged for offers. -/
def charged (offers : List Offer) : Nat :=
  ((offers.filter Offer.admitted).map fun offer =>
    estimateItemTokens floatText (.dict offer.item)).sum

/-- A budget with what it was offered: it has charged what it admitted, keeps within its limit, and
has refused every offer after the first that it refused. -/
structure Ledger where
  budget : TokenBudget
  offers : List Offer
  charged_eq : charged floatText offers = budget.tokenEstimate
  within : ∀ limit ∈ budget.tokenBudget, (budget.tokenEstimate : Int) ≤ limit
  refuses : budget.truncated = false → budget.droppedItemCount = 0
  greedy : ∃ taken, offers.map Offer.admitted =
    List.replicate taken true ++ List.replicate budget.droppedItemCount false

variable {floatText}

/-- What an offer does to a budget. -/
theorem admitItem_cases (budget : TokenBudget) (item : PackValue) (sectionName : String) :
    let answer := budget.admitItem floatText item sectionName
    answer.2.tokenBudget = budget.tokenBudget ∧
      (answer.1 = true ∧ budget.truncated = false ∧ answer.2.truncated = false ∧
          answer.2.droppedItemCount = budget.droppedItemCount ∧
          answer.2.tokenEstimate = budget.tokenEstimate + estimateItemTokens floatText item ∧
          (∀ limit ∈ budget.tokenBudget, (answer.2.tokenEstimate : Int) ≤ limit) ∨
        answer.1 = false ∧ answer.2.truncated = true ∧
          answer.2.droppedItemCount = budget.droppedItemCount + 1 ∧
          answer.2.tokenEstimate = budget.tokenEstimate) := by
  unfold TokenBudget.admitItem
  dsimp only [TokenBudget.openSection]
  split
  next => exact ⟨rfl, .inr ⟨rfl, rfl, rfl, rfl⟩⟩
  next hfits =>
    obtain ⟨htruncated, hlimit⟩ := Bool.or_eq_false_iff.mp (Bool.eq_false_iff.mpr hfits)
    refine ⟨rfl, .inl ⟨rfl, htruncated, htruncated, rfl, rfl, fun limit hmem => ?_⟩⟩
    rw [Option.mem_def.mp hmem, Option.any_some, decide_eq_false_iff_not, not_lt] at hlimit
    exact_mod_cast hlimit

namespace Ledger

/-- A budget that was offered nothing. -/
def start (maxTokens : Option Nat) (strategy : String) : Ledger floatText where
  budget :=
    { tokenBudget := maxTokens.map Int.ofNat
      strategy := strategy
      tokenEstimate := 0
      truncated := false
      droppedItemCount := 0
      allocation := []
      allocated_eq := rfl }
  offers := []
  charged_eq := rfl
  within limit hlimit := by
    obtain ⟨tokens, -, rfl⟩ := Option.mem_map.mp hlimit
    exact Int.natCast_nonneg tokens
  refuses _ := rfl
  greedy := ⟨0, rfl⟩

/-- `open_section`. -/
def openSection (ledger : Ledger floatText) (sectionName : String) : Ledger floatText :=
  { ledger with budget := ledger.budget.openSection sectionName }

theorem charged_append (offers : List Offer) (offer : Offer) :
    charged floatText (offers ++ [offer]) = charged floatText offers +
      if offer.admitted then estimateItemTokens floatText (.dict offer.item) else 0 := by
  unfold charged
  rw [List.filter_append, List.filter_singleton]
  cases offer.admitted with
  | true => rw [cond_true, List.map_append, List.sum_append, List.map_singleton, List.sum_singleton,
      if_pos rfl]
  | false => rw [cond_false, List.append_nil, if_neg Bool.false_ne_true, Nat.add_zero]

/-- `admit`, with the offer written down. -/
def offer (ledger : Ledger floatText) (sectionName : String) (item : PackItem) :
    Bool × Ledger floatText :=
  let answer := ledger.budget.admitItem floatText (.dict item) sectionName
  (answer.1,
    { budget := answer.2
      offers := ledger.offers ++ [⟨sectionName, item, answer.1⟩]
      charged_eq := by
        rw [charged_append, ledger.charged_eq]
        rcases (admitItem_cases ledger.budget (.dict item) sectionName).2 with
          ⟨hanswer, -, -, -, hestimate, -⟩ | ⟨hanswer, -, -, hestimate⟩
        · rw [hanswer, if_pos rfl, hestimate]
        · rw [hanswer, if_neg Bool.false_ne_true, hestimate, Nat.add_zero]
      within := by
        obtain ⟨hlimit, ⟨-, -, -, -, -, hwithin⟩ | ⟨-, -, -, hestimate⟩⟩ :=
          admitItem_cases ledger.budget (.dict item) sectionName
        · rw [hlimit]
          exact hwithin
        · rw [hlimit, hestimate]
          exact ledger.within
      refuses := by
        rcases (admitItem_cases ledger.budget (.dict item) sectionName).2 with
          ⟨-, hbefore, -, hdropped, -⟩ | ⟨-, htruncated, -⟩
        · intro _
          rw [hdropped]
          exact ledger.refuses hbefore
        · intro h
          exact absurd (h.symm.trans htruncated) Bool.false_ne_true
      greedy := by
        obtain ⟨taken, htaken⟩ := ledger.greedy
        rcases (admitItem_cases ledger.budget (.dict item) sectionName).2 with
          ⟨hanswer, hbefore, -, hdropped, -⟩ | ⟨hanswer, -, hdropped, -⟩
        · -- nothing was refused before
          refine ⟨taken + 1, ?_⟩
          rw [List.map_append, htaken, hdropped, ledger.refuses hbefore, List.map_singleton,
            hanswer, List.replicate_succ', List.replicate_zero, List.append_nil, List.append_nil]
        · refine ⟨taken, ?_⟩
          rw [List.map_append, htaken, hdropped, List.map_singleton, hanswer,
            List.replicate_succ', List.append_assoc] })

/-- The items of a comprehension that the budget admits. -/
def offerAll (sectionName : String) :
    List PackItem → Ledger floatText → List PackItem × Ledger floatText
  | [], ledger => ([], ledger)
  | item :: items, ledger =>
    let answer := ledger.offer sectionName item
    let rest := offerAll sectionName items answer.2
    (if answer.1 then item :: rest.1 else rest.1, rest.2)

end Ledger

end Ledgers

/-! ### The sections -/

/-- The sections that are ranked. -/
inductive RankedSection where
  | relevantMemories
  | openLoops
  | sources
  | supportingEvidence
  | contradictingEvidence
deriving DecidableEq

def RankedSection.name : RankedSection → String
  | .relevantMemories => "relevant_memories"
  | .openLoops => "open_loops"
  | .sources => "sources"
  | .supportingEvidence => "supporting_evidence"
  | .contradictingEvidence => "contradicting_evidence"

/-- `BUDGET_STRATEGIES`. -/
inductive BudgetStrategy where
  | balanced
  | factsFirst
  | recentFirst
  | contradictionsFirst
  | sourcesFirst
deriving DecidableEq

def BudgetStrategy.name : BudgetStrategy → String
  | .balanced => "balanced"
  | .factsFirst => "facts_first"
  | .recentFirst => "recent_first"
  | .contradictionsFirst => "contradictions_first"
  | .sourcesFirst => "sources_first"

/-- `PACK_VIEWS`. -/
inductive PackView where
  | loops
  | facts
  | sources
deriving DecidableEq

/-- `BUDGET_STRATEGY_SECTION_ORDERS`. -/
def BudgetStrategy.sectionOrder : BudgetStrategy → List RankedSection
  | .contradictionsFirst =>
    [.contradictingEvidence, .relevantMemories, .openLoops, .sources, .supportingEvidence]
  | .sourcesFirst =>
    [.sources, .relevantMemories, .openLoops, .supportingEvidence, .contradictingEvidence]
  | _ => [.relevantMemories, .openLoops, .sources, .supportingEvidence, .contradictingEvidence]

/-- `budget_section_order`. -/
def budgetSectionOrder (strategy : BudgetStrategy) (view : PackView) : List RankedSection :=
  match strategy, view with
  | .balanced, .loops =>
    [.openLoops, .relevantMemories, .sources, .supportingEvidence, .contradictingEvidence]
  | .balanced, .sources => BudgetStrategy.sourcesFirst.sectionOrder
  | .balanced, .facts => BudgetStrategy.balanced.sectionOrder
  | other, _ => other.sectionOrder

/-- `SUPPLEMENTAL_BUDGET_SECTIONS`. -/
def supplementalBudgetSections : List String :=
  ["item_annotations", "entities", "recent_changes", "supersession_context", "grounding",
    "derived_values"]

/-- `BUDGETED_ITEM_ANNOTATION_KEYS`. -/
def budgetedItemAnnotationKeys : List String := ["staleness", "validity", "currency", "event_time"]

/-- A packed row, as the currency chains read it. -/
def currencyRow (item : PackItem) : Dict Json := PackValue.jsonSafeFields item

/-- `str(memory.get("id"))`. -/
def packMemoryId (env : CurrencyEnv) (item : PackItem) : String := env.memoryId (currencyRow item)

/-- `dict(result.annotations[memory_id])`. -/
def CurrencyAnnotation.item (note : CurrencyAnnotation) : PackItem :=
  [("chain_id", .str note.chainId), ("slot_key", .str note.slotKey),
    ("position", .int note.position), ("chain_size", .int note.chainSize),
    ("status", .str note.status.text), ("as_of", note.asOf.elim .null .str),
    ("label", .str note.label)]

/-- What the other stages of `compile_context_pack` supply. A section that the depth or the scope
leaves out is `none` or empty. The memories come from a fusion that keeps one candidate for an id,
so no two of them have the same. -/
structure PackStages where
  orderedMemories : List PackItem
  rankedOpenLoops : List PackItem
  rankedSources : List PackItem
  /-- `memory_write_provenance`. -/
  writeProvenance : PackItem → Option PackItem
  /-- `_supporting_evidence`. -/
  supportingEvidence : List PackItem → List PackItem
  /-- `_contradicting_evidence`. -/
  contradictingEvidence : List PackItem → List PackItem
  memoryId : PackItem → String
  /-- The pointer of a row to its ancestor, if it has one. -/
  supersedes : PackItem → Option String
  /-- `_staleness_note`. -/
  staleness : PackItem → Option PackItem
  /-- `_validity_annotation`. -/
  validity : PackItem → Option String → Option PackItem
  /-- What `build_currency_chains` looks up for a row; the stage is left out at minimal depth. -/
  currency : Option CurrencyEnv
  distinct : ∀ env ∈ currency, (orderedMemories.map (packMemoryId env)).Nodup
  /-- `_supersession_context`. -/
  supersessionContext : List PackItem → List PackItem
  /-- `_recent_changes`. -/
  recentChanges : List PackItem
  matchedEntities : List PackItem
  grounding : Option PackItem
  /-- `_memory_event_time`, as text. -/
  memoryEventTime : PackItem → Option String
  /-- `_source_event_time`, as text. -/
  sourceEventTime : PackItem → Option String
  /-- The block of `derived_timeline_lines`, of the event times. -/
  derivedValues : List String → Option PackItem

/-- The counted sections of a pack, and the ledger. -/
structure PackSections (floatText : Rat → List Char) where
  ledger : Ledger floatText
  relevantMemories : List PackItem := []
  openLoops : List PackItem := []
  sources : List PackItem := []
  supportingEvidence : List PackItem := []
  contradictingEvidence : List PackItem := []
  entities : List PackItem := []
  recentChanges : List PackItem := []
  supersessionContext : List PackItem := []
  grounding : List PackItem := []
  derivedValues : List PackItem := []
  memoriesPacked : Bool := false

section Packing

variable {floatText : Rat → List Char} (stages : PackStages)

/-- An item with a note under a key, if there is one. -/
def withNote (item : PackItem) (key : String) : Option PackItem → PackItem
  | some note => item.set key (.dict note)
  | none => item

/-- `_with_write_provenance`. -/
def withWriteProvenance (memory : PackItem) : PackItem :=
  withNote memory "write_provenance" (stages.writeProvenance memory)

/-- One round of the loop over `section_order`. -/
def packSection (pack : PackSections floatText) (ranked : RankedSection) :
    PackSections floatText :=
  let ledger := pack.ledger.openSection ranked.name
  -- the evidence of the memories that were packed, or of all where none have been yet
  let base := if pack.memoriesPacked then pack.relevantMemories else stages.orderedMemories
  match ranked with
  | .relevantMemories =>
    let memories := stages.orderedMemories.map (withWriteProvenance stages)
    let kept := ledger.offerAll ranked.name memories
    { pack with ledger := kept.2, relevantMemories := kept.1, memoriesPacked := true }
  | .openLoops =>
    let kept := ledger.offerAll ranked.name stages.rankedOpenLoops
    { pack with ledger := kept.2, openLoops := kept.1 }
  | .sources =>
    let kept := ledger.offerAll ranked.name stages.rankedSources
    { pack with ledger := kept.2, sources := kept.1 }
  | .supportingEvidence =>
    let kept := ledger.offerAll ranked.name (stages.supportingEvidence base)
    { pack with ledger := kept.2, supportingEvidence := kept.1 }
  | .contradictingEvidence =>
    let kept := ledger.offerAll ranked.name (stages.contradictingEvidence base)
    { pack with ledger := kept.2, contradictingEvidence := kept.1 }

/-- `superseded_by_packmate`: the first claim wins. -/
def supersededByPackmate (memories : List PackItem) : Dict String :=
  memories.foldl (fun hints memory =>
    match stages.supersedes memory with
    | some ancestor =>
      if hints.has ancestor then hints else hints.set ancestor (stages.memoryId memory)
    | none => hints) []

/-- The staleness and validity of a packed memory. -/
def annotateMemory (hints : Dict String) (memory : PackItem) : PackItem :=
  let memory := withNote memory "staleness" (stages.staleness memory)
  withNote memory "validity" (stages.validity memory (hints.get? (stages.memoryId memory)))

/-- A packed row with the annotation of its id, under `CURRENCY_ANNOTATION_KEY`. -/
def withCurrency (env : CurrencyEnv) (result : CurrencyChainResult) (memory : PackItem) :
    PackItem :=
  withNote memory "currency"
    ((result.annotations.get? (packMemoryId env memory)).map CurrencyAnnotation.item)

/-- `build_currency_chains` and `apply_currency_chains`: the packed rows with their annotations, in
the order in which their chains bring them. -/
def applyCurrency (env : CurrencyEnv) (memories : List PackItem) : List PackItem :=
  let rows := memories.map currencyRow
  let result := buildCurrencyChains env rows
  let annotated := memories.map (withCurrency env result)
  (applyCurrencyChains env result rows).filterMap fun row =>
    annotated.find? fun memory => packMemoryId env memory = env.memoryId row

/-- The stage of the currency chains, for two memories or more. -/
def currencyStage (memories : List PackItem) : List PackItem :=
  match stages.currency with
  | some env => if memories.length < 2 then memories else applyCurrency env memories
  | none => memories

/-- The value of an annotation, unless it is missing or `None`. -/
def annotation? (item : PackItem) (key : String) : Option PackValue :=
  match item.get? key with
  | some .null => none
  | found => found

/-- `item.pop(key, None)`. -/
def popKey (item : PackItem) (key : String) : PackItem := item.filter fun member => member.1 ≠ key

/-- The loop over the annotations of one item. -/
def settleItem : List String → PackItem → Ledger floatText → PackItem × Ledger floatText
  | [], item, ledger => (item, ledger)
  | key :: keys, item, ledger =>
    match annotation? item key with
    | none => settleItem keys item ledger
    | some value =>
      let answer := ledger.offer "item_annotations" [(key, value)]
      settleItem keys (if answer.1 then item else popKey item key) answer.2

/-- The loop over the annotated items. -/
def settleItems : List PackItem → Ledger floatText → List PackItem × Ledger floatText
  | [], ledger => ([], ledger)
  | item :: items, ledger =>
    let settled := settleItem budgetedItemAnnotationKeys item ledger
    let rest := settleItems items settled.2
    (settled.1 :: rest.1, rest.2)

/-- The loop over the event times of the packed items. -/
def stampEventTimes (eventTime : PackItem → Option String) :
    List PackItem → Ledger floatText → List PackItem × Ledger floatText
  | [], ledger => ([], ledger)
  | item :: items, ledger =>
    match eventTime item with
    | none =>
      let rest := stampEventTimes eventTime items ledger
      (item :: rest.1, rest.2)
    | some text =>
      let answer := ledger.offer "item_annotations" [("event_time", .str text)]
      let rest := stampEventTimes eventTime items answer.2
      (if answer.1 then item.set "event_time" (.str text) :: rest.1 else item :: rest.1, rest.2)

/-- The packed memories with their annotations, none of which is charged yet. -/
def annotatedMemories (memories : List PackItem) : List PackItem :=
  currencyStage stages
    (memories.map (annotateMemory stages (supersededByPackmate stages memories)))

/-- The annotations of the packed items are charged or dropped. -/
def packAnnotations (annotated : List PackItem) (pack : PackSections floatText) :
    PackSections floatText :=
  let ledger := supplementalBudgetSections.foldl Ledger.openSection pack.ledger
  let memories := settleItems annotated ledger
  let sources := settleItems pack.sources memories.2
  { pack with ledger := sources.2, relevantMemories := memories.1, sources := sources.1 }

/-- The supplemental sections. -/
def packSupplements (annotated : List PackItem) (pack : PackSections floatText) :
    PackSections floatText :=
  let entities := pack.ledger.offerAll "entities" stages.matchedEntities
  let changes := entities.2.offerAll "recent_changes" stages.recentChanges
  let supersession :=
    changes.2.offerAll "supersession_context" (stages.supersessionContext annotated)
  let grounding := supersession.2.offerAll "grounding" stages.grounding.toList
  { pack with
    ledger := grounding.2
    entities := entities.1
    recentChanges := changes.1
    supersessionContext := supersession.1
    grounding := grounding.1 }

/-- The event times of the packed items and the values that are derived from them. -/
def packTimes (pack : PackSections floatText) : PackSections floatText :=
  let dated := pack.relevantMemories.filterMap stages.memoryEventTime ++
    pack.sources.filterMap stages.sourceEventTime
  let memories := stampEventTimes stages.memoryEventTime pack.relevantMemories pack.ledger
  let sources := stampEventTimes stages.sourceEventTime pack.sources memories.2
  let derived := sources.2.offerAll "derived_values" (stages.derivedValues dated).toList
  { pack with
    ledger := derived.2
    relevantMemories := memories.1
    sources := sources.1
    derivedValues := derived.1 }

/-- The counted sections of `compile_context_pack`. -/
def compileSections (floatText : Rat → List Char) (maxTokens : Option Nat)
    (strategy : BudgetStrategy) (view : PackView) : PackSections floatText :=
  let ranked := (budgetSectionOrder strategy view).foldl (packSection stages)
    { ledger := Ledger.start maxTokens strategy.name }
  let annotated := annotatedMemories stages ranked.relevantMemories
  packTimes stages (packSupplements stages annotated (packAnnotations annotated ranked))

end Packing

/-! ### The chains of the packed rows -/

section Currency

variable {env : CurrencyEnv} {memories : List PackItem}

theorem jsonSafe_item (note : CurrencyAnnotation) :
    (PackValue.dict note.item).jsonSafe = note.toJson := by
  cases hnote : note.asOf <;>
    simp [ CurrencyAnnotation.item, CurrencyAnnotation.toJson, hnote, PackValue.jsonSafe,
      PackValue.jsonSafeFields, PackValue.jsonSafeField, Json.optStr]

/-- The annotation that is written into a packed row is that of the row as it is written. -/
theorem currencyRow_withCurrency (result : CurrencyChainResult) (memory : PackItem) :
    currencyRow (withCurrency env result memory) =
      annotatedRow env result (currencyRow memory) := by
  unfold withCurrency annotatedRow packMemoryId
  cases result.annotations.get? (env.memoryId (currencyRow memory)) with
  | none => rfl
  | some note =>
    show PackValue.jsonSafeFields (Dict.set memory "currency" (.dict note.item)) = _
    rw [PackValue.jsonSafeFields_set, jsonSafe_item]
    rfl

theorem packMemoryId_withCurrency (result : CurrencyChainResult) (memory : PackItem) :
    packMemoryId env (withCurrency env result memory) = packMemoryId env memory := by
  rw [packMemoryId, currencyRow_withCurrency, memoryId_annotatedRow]
  rfl

theorem map_packMemoryId_withCurrency (env : CurrencyEnv) (memories : List PackItem)
    (result : CurrencyChainResult) :
    (memories.map (withCurrency env result)).map (packMemoryId env) =
      memories.map (packMemoryId env) := by
  rw [List.map_map]
  exact List.map_congr_left fun memory _ => packMemoryId_withCurrency result memory

/-- The ids of the packed rows are those of the rows as they are written. -/
theorem map_memoryId_currencyRow (env : CurrencyEnv) (memories : List PackItem) :
    (memories.map currencyRow).map env.memoryId = memories.map (packMemoryId env) :=
  List.map_map

/-- An item is found under its id, where the ids are distinct. -/
theorem find?_packMemoryId (hids : (memories.map (packMemoryId env)).Nodup) {memory : PackItem}
    (hmem : memory ∈ memories) :
    (memories.find? fun other => packMemoryId env other = packMemoryId env memory) =
      some memory := by
  cases hfind : memories.find? fun other => decide (packMemoryId env other =
      packMemoryId env memory) with
  | none => exact absurd (decide_eq_true rfl) (List.find?_eq_none.mp hfind memory hmem)
  | some other =>
    have hid := List.find?_some hfind
    rw [decide_eq_true_eq] at hid
    rw [List.inj_on_of_nodup_map hids (List.mem_of_find?_eq_some hfind) hmem hid]

/-- What is brought for the ids of the output. -/
theorem applyCurrency_eq (hids : (memories.map (packMemoryId env)).Nodup) :
    applyCurrency env memories =
      (regroup (chainBlocks (buildCurrencyChains env (memories.map currencyRow)))
        (memories.map (packMemoryId env)) ∅).filterMap fun id =>
          (memories.map (withCurrency env (buildCurrencyChains env
            (memories.map currencyRow)))).find? fun memory => packMemoryId env memory = id := by
  have hrows := map_memoryId_currencyRow env memories
  have hout := ids_applyCurrencyChains (hrows ▸ hids)
  rw [hrows] at hout
  rw [← hout, List.filterMap_map]
  rfl

/-- The rows are brought into another order, each with its annotation. -/
theorem applyCurrency_perm (hids : (memories.map (packMemoryId env)).Nodup) :
    (applyCurrency env memories).Perm (memories.map (withCurrency env
      (buildCurrencyChains env (memories.map currencyRow)))) := by
  have hrows := map_memoryId_currencyRow env memories
  have hperm := regroup_ids_perm (hrows ▸ hids)
  rw [hrows] at hperm
  generalize hresult : buildCurrencyChains env (memories.map currencyRow) = result at hperm
  have hannotated := map_packMemoryId_withCurrency env memories result
  rw [applyCurrency_eq hids, hresult]
  refine (hperm.filterMap _).trans (List.Perm.of_eq ?_)
  -- in the order of the pack every id finds its own row
  rw [← hannotated, List.filterMap_map]
  refine (List.filterMap_congr fun memory hmem => ?_).trans List.filterMap_some
  exact find?_packMemoryId (hannotated ▸ hids) hmem

/-- The packed rows, as they are written, are those of `apply_currency_chains`. -/
theorem map_currencyRow_applyCurrency (hids : (memories.map (packMemoryId env)).Nodup) :
    (applyCurrency env memories).map currencyRow =
      applyCurrencyChains env (buildCurrencyChains env (memories.map currencyRow))
        (memories.map currencyRow) := by
  have hrows := map_memoryId_currencyRow env memories
  have hrowIds := hrows ▸ hids
  have hperm := regroup_ids_perm hrowIds
  rw [applyCurrency_eq hids, applyCurrencyChains_eq hrowIds, hrows, List.map_filterMap]
  rw [hrows] at hperm
  generalize hresult : buildCurrencyChains env (memories.map currencyRow) = result at hperm ⊢
  -- the ids stand in the same order on both sides, and each has its own row
  refine (List.filterMap_congr fun id hid => ?_).trans
    (congrFun List.filterMap_eq_map (regroup (chainBlocks result) _ ∅))
  obtain ⟨memory, hmem, rfl⟩ := List.mem_map.mp (hperm.mem_iff.mp hid)
  have hannotated := map_packMemoryId_withCurrency env memories result
  have hfind := find?_packMemoryId (hannotated ▸ hids)
    (List.mem_map.mpr ⟨memory, hmem, rfl⟩ : withCurrency env result memory ∈ _)
  rw [packMemoryId_withCurrency] at hfind
  rw [hfind, Option.map_some, currencyRow_withCurrency]
  have hrow := rowWithId_eq hrowIds (List.mem_map.mpr ⟨memory, hmem, rfl⟩)
  rw [hresult] at hrow
  exact congrArg some hrow.symm

end Currency

end AliceBot
