import AliceBot.Library.JsonText
import AliceBot.PromotionPolicy
import Mathlib.Data.List.Sort

/-!
# Stored promotion settings

The persona the owner chose is kept in the Brain Charter. `to_record` writes the filters that
stay on as a list of names, and `parse_escalation_filters` reads such a list back, except that
a list without names says nothing to it and leaves every filter on.

Settings survive the charter exactly when some filter is on
(`promotionSettings_survive_iff`): the writer has no word for the empty set, although the
reader has one, `DISABLE_ALL_ESCALATION_FILTERS`.
-/

namespace AliceBot

open PyLib

/-! ### Vocabularies -/

/-- The filter a string names, if it is one of `ESCALATION_FILTERS`. -/
def EscalationFilter.ofText? (s : String) : Option EscalationFilter :=
  escalationFilters.find? (·.text = s)

@[simp] theorem EscalationFilter.ofText?_text (f : EscalationFilter) :
    EscalationFilter.ofText? f.text = some f := by
  cases f <;> rfl

/-- The persona a string names, if it is one of `PROMOTION_PERSONAS`. -/
def Persona.ofText? (s : String) : Option Persona :=
  [Persona.personal, .team, .enterprise].find? (·.text = s)

@[simp] theorem Persona.ofText?_text (p : Persona) : Persona.ofText? p.text = some p := by
  cases p <;> rfl

/-- `DISABLE_ALL_ESCALATION_FILTERS`. -/
def disableAllEscalationFilters : String := "DISABLE_ALL_ESCALATION_FILTERS"

/-- `BRAIN_CHARTER_PROMOTION_KEY`. -/
def brainCharterPromotionKey : String := "promotion"

/-! ### The reader -/

/-- The error of names that are not filters, if there are any. -/
def unknownFilters (names : List String) : Except PromotionSettingsValidationError Unit :=
  let unknown :=
    ((names.filter fun name => (EscalationFilter.ofText? name).isNone).dedup).insertionSort (· ≤ ·)
  if unknown = [] then .ok ()
  else .error ⟨"unknown escalation filters: " ++ ", ".intercalate unknown⟩

/-- The names of a list, trimmed, without the blank ones. -/
def filterNames : List Json → Except PromotionSettingsValidationError (List String)
  | [] => .ok []
  | .str name :: rest => do
    let names ← filterNames rest
    .ok (if strip name = "" then names else strip name :: names)
  | _ :: _ => .error ⟨"escalation filters must be strings"⟩

/-- One entry of a mapping of names: a patch on what is on. -/
def patchFilter (enabled : Finset EscalationFilter) (entry : String × Json) :
    Finset EscalationFilter :=
  match EscalationFilter.ofText? entry.1 with
  | none => enabled
  | some f => if entry.2.truthy then insert f enabled else enabled.erase f

/-- `PromotionSettings.parse_escalation_filters`. The filters are written as a list of
those that are on, or as a patch of all of them. -/
def parseEscalationFilters :
    Json → Except PromotionSettingsValidationError (Finset EscalationFilter)
  | .null => .ok Finset.univ
  | .obj patch => do
    unknownFilters (patch.map Prod.fst)
    .ok (patch.foldl patchFilter Finset.univ)
  | .arr items => do
    let names ← filterNames items
    -- no name is every filter; to turn them all off takes a word of its own
    if names = [] then .ok Finset.univ
    else if names = [disableAllEscalationFilters] then .ok ∅
    else if disableAllEscalationFilters ∈ names then
      .error ⟨disableAllEscalationFilters ++ " must be the only value when it is used"⟩
    else do
      unknownFilters names
      .ok (names.filterMap EscalationFilter.ofText?).toFinset
  | _ => .error ⟨"escalation_filters must be a list or object"⟩

/-- The items of `owner_aliases`, which are strings. -/
def aliasItems : List Json → Except PromotionSettingsValidationError (List String)
  | [] => .ok []
  | .str text :: rest => do
    let texts ← aliasItems rest
    .ok (text :: texts)
  | _ :: _ => .error ⟨"owner_aliases must be strings"⟩

/-- The aliases of a configuration. -/
def rawOwnerAliases (raw : Json) : Except PromotionSettingsValidationError (List String) :=
  if raw.truthy then
    match raw with
    | .str text => .ok [text]
    | .arr items => aliasItems items
    | _ => .error ⟨"owner_aliases must be a list of strings"⟩
  else .ok []

/-- `alias.strip() for alias in aliases if alias.strip()`. -/
def trimmedAliases (aliases : List String) : List String :=
  (aliases.map strip).filter (· ≠ "")

section Reader

variable (casefold : String → String)

/-- `PromotionSettings.from_mapping`. The settings of a stored record; none if it names
no persona. -/
def PromotionSettings.fromMapping (payload : Dict Json) :
    Except PromotionSettingsValidationError (Option PromotionSettings) :=
  match payload.item "persona" with
  | .null => .ok none
  | .str rawPersona =>
    let persona := casefold (strip rawPersona)
    if persona = "" then .ok none
    else do
      let filters ← parseEscalationFilters (payload.item "escalation_filters")
      let aliases ← rawOwnerAliases (payload.item "owner_aliases")
      -- the check of `__post_init__` comes last
      match Persona.ofText? persona with
      | none => .error ⟨"persona must be one of personal, team, enterprise"⟩
      | some known => .ok (some ⟨known, filters, trimmedAliases aliases⟩)
  | _ => .error ⟨"persona must be a string"⟩

/-- `promotion_settings_from_brain_charter`. -/
def promotionSettingsFromBrainCharter (charter : Dict Json) :
    Except PromotionSettingsValidationError (Option PromotionSettings) :=
  match charter.item "memory_philosophy_json" with
  | .obj philosophy =>
    match Dict.item philosophy brainCharterPromotionKey with
    | .null => .ok none
    | .obj stored => PromotionSettings.fromMapping casefold stored
    | _ => .error ⟨"brain charter promotion settings must be an object"⟩
  | _ => .ok none

end Reader

/-! ### The writer -/

/-- `sorted(settings.escalation_filters)`. -/
def enabledFilterTexts (s : PromotionSettings) : List String :=
  ((escalationFilters.filter (· ∈ s.escalationFilters)).map EscalationFilter.text).insertionSort
    (· ≤ ·)

/-- `PromotionSettings.to_record`. -/
def PromotionSettings.toRecord (s : PromotionSettings) : Dict Json :=
  [("persona", .str s.persona.text), ("escalation_filters", .strs (enabledFilterTexts s)),
    ("owner_aliases", .strs s.ownerAliases)]

/-- `brain_charter_promotion_patch`. -/
def brainCharterPromotionPatch (s : PromotionSettings) : Dict Json :=
  [(brainCharterPromotionKey, .obj s.toRecord)]

/-! ### Reading what was written -/

theorem mem_enabledFilterTexts {s : PromotionSettings} {text : String} :
    text ∈ enabledFilterTexts s ↔ ∃ f ∈ s.escalationFilters, f.text = text := by
  rw [enabledFilterTexts, List.mem_insertionSort, List.mem_map]
  constructor
  · rintro ⟨f, hf, htext⟩
    exact ⟨f, by simpa using (List.mem_filter.mp hf).2, htext⟩
  · rintro ⟨f, hf, htext⟩
    exact ⟨f, List.mem_filter.mpr ⟨mem_escalationFilters f, decide_eq_true hf⟩, htext⟩

/-- No filter has a blank name, or the name that turns all of them off. -/
theorem text_of_filter (f : EscalationFilter) :
    strip f.text = f.text ∧ f.text ≠ "" ∧ f.text ≠ disableAllEscalationFilters := by
  cases f <;> decide +kernel

theorem filterNames_strs {names : List String}
    (h : ∀ name ∈ names, strip name = name ∧ name ≠ "") :
    filterNames (names.map .str) = .ok names := by
  induction names with
  | nil => rfl
  | cons name names ih =>
    obtain ⟨⟨hstrip, hne⟩, hrest⟩ := List.forall_mem_cons.mp h
    rw [List.map_cons, filterNames, ih hrest, hstrip]
    exact congrArg Except.ok (if_neg hne)

theorem aliasItems_strs (texts : List String) : aliasItems (texts.map .str) = .ok texts := by
  induction texts with
  | nil => rfl
  | cons text texts ih =>
    rw [List.map_cons, aliasItems, ih]
    rfl

theorem unknownFilters_eq_ok {names : List String}
    (h : ∀ name ∈ names, ∃ f : EscalationFilter, f.text = name) :
    unknownFilters names = .ok () := by
  have hknown : (names.filter fun name => (EscalationFilter.ofText? name).isNone) = [] := by
    refine List.filter_eq_nil_iff.mpr fun name hname => ?_
    obtain ⟨f, rfl⟩ := h name hname
    rw [EscalationFilter.ofText?_text]
    exact Bool.false_ne_true
  rw [unknownFilters, hknown]
  rfl

/-- The filters that are on are read back, except that a list without names leaves every
filter on. -/
theorem parseEscalationFilters_enabled (s : PromotionSettings) :
    parseEscalationFilters (.strs (enabledFilterTexts s)) =
      .ok (if s.escalationFilters = ∅ then Finset.univ else s.escalationFilters) := by
  have hnames : filterNames ((enabledFilterTexts s).map .str) = .ok (enabledFilterTexts s) := by
    refine filterNames_strs fun name hname => ?_
    obtain ⟨f, _, rfl⟩ := mem_enabledFilterTexts.mp hname
    exact ⟨(text_of_filter f).1, (text_of_filter f).2.1⟩
  -- the word that turns all filters off is the name of none
  have hdisable : disableAllEscalationFilters ∉ enabledFilterTexts s := by
    intro hmem
    obtain ⟨f, _, htext⟩ := mem_enabledFilterTexts.mp hmem
    exact (text_of_filter f).2.2 htext
  -- no names are written exactly if no filter is on, and read as every filter
  have hnil : enabledFilterTexts s = [] ↔ s.escalationFilters = ∅ := by
    rw [List.eq_nil_iff_forall_not_mem, Finset.eq_empty_iff_forall_notMem]
    constructor
    · intro h f hf
      exact h f.text (mem_enabledFilterTexts.mpr ⟨f, hf, rfl⟩)
    · intro h text htext
      obtain ⟨f, hf, _⟩ := mem_enabledFilterTexts.mp htext
      exact h f hf
  rw [Json.strs, parseEscalationFilters, hnames]
  show (if enabledFilterTexts s = [] then _ else _) = _
  split
  case isTrue hempty => rw [if_pos (hnil.mp hempty)]
  case isFalse hsome =>
    have honly : enabledFilterTexts s ≠ [disableAllEscalationFilters] := fun h =>
      hdisable (h ▸ List.mem_singleton_self _)
    have hknown : unknownFilters (enabledFilterTexts s) = .ok () :=
      unknownFilters_eq_ok fun name hname => (mem_enabledFilterTexts.mp hname).imp fun _ h => h.2
    rw [if_neg honly, if_neg (mt hnil.mpr hsome), hknown]
    refine congrArg Except.ok (Finset.ext fun f => ?_)
    rw [List.mem_toFinset, List.mem_filterMap]
    constructor
    · rintro ⟨text, htext, hof⟩
      obtain ⟨other, hother, rfl⟩ := mem_enabledFilterTexts.mp htext
      rw [EscalationFilter.ofText?_text] at hof
      exact Option.some.inj hof ▸ hother
    · intro hf
      exact ⟨f.text, mem_enabledFilterTexts.mpr ⟨f, hf, rfl⟩, EscalationFilter.ofText?_text f⟩

theorem rawOwnerAliases_strs (texts : List String) : rawOwnerAliases (.strs texts) = .ok texts := by
  cases texts with
  | nil => rfl
  | cons text texts => exact aliasItems_strs (text :: texts)

theorem trimmedAliases_eq {aliases : List String}
    (h : ∀ text ∈ aliases, text ≠ "" ∧ strip text = text) : trimmedAliases aliases = aliases := by
  have hstrip : aliases.map strip = aliases :=
    (List.map_congr_left fun text htext => (h text htext).2).trans (List.map_id aliases)
  rw [trimmedAliases, hstrip]
  exact List.filter_eq_self.mpr fun text htext => decide_eq_true (h text htext).1

section RoundTrip

variable {casefold : String → String}

/-- What is read from the record of some settings. -/
theorem fromMapping_toRecord
    (hcasefold : ∀ text, isAscii text = true → casefold text = asciiLower text)
    {s : PromotionSettings} (haliases : ∀ text ∈ s.ownerAliases, text ≠ "" ∧ strip text = text) :
    PromotionSettings.fromMapping casefold s.toRecord =
      .ok (some { s with escalationFilters :=
        if s.escalationFilters = ∅ then Finset.univ else s.escalationFilters }) := by
  have hpersona : casefold (strip s.persona.text) = s.persona.text ∧ s.persona.text ≠ "" := by
    have hlower : casefold (strip s.persona.text) = asciiLower (strip s.persona.text) :=
      hcasefold _ (by cases s.persona <;> decide +kernel)
    rw [hlower]
    cases s.persona <;> decide +kernel
  have hfilters : Dict.item s.toRecord "escalation_filters" = .strs (enabledFilterTexts s) := rfl
  have hitems : Dict.item s.toRecord "owner_aliases" = .strs s.ownerAliases := rfl
  have hname : Dict.item s.toRecord "persona" = .str s.persona.text := rfl
  rw [PromotionSettings.fromMapping, hname]
  simp only [hpersona.1, if_neg hpersona.2, hfilters, hitems, parseEscalationFilters_enabled,
    rawOwnerAliases_strs, Persona.ofText?_text]
  show Except.ok (some (PromotionSettings.mk _ _ (trimmedAliases s.ownerAliases))) = _
  rw [trimmedAliases_eq haliases]

theorem allFilters_ne_empty : (Finset.univ : Finset EscalationFilter) ≠ ∅ :=
  Finset.ne_empty_of_mem (Finset.mem_univ .indirectProvenance)

/-- The patch has one member for each key. -/
theorem plain_brainCharterPromotionPatch (s : PromotionSettings) :
    (Json.obj (brainCharterPromotionPatch s)).Plain := by
  have hstrs : ∀ texts : List String, (Json.strs texts).Plain := by
    intro texts
    refine Json.Plain.arr fun item hitem => ?_
    obtain ⟨text, _, rfl⟩ := List.mem_map.mp hitem
    exact Json.Plain.str text
  -- the three members of the record have different keys
  have hrecord : (Json.obj s.toRecord).Plain := by
    have hkeys : (s.toRecord.map Prod.fst).Nodup := by
      show ["persona", "escalation_filters", "owner_aliases"].Nodup
      decide
    refine Json.Plain.obj hkeys fun field hfield => ?_
    rw [PromotionSettings.toRecord] at hfield
    simp only [List.mem_cons, List.not_mem_nil, or_false] at hfield
    obtain rfl | rfl | rfl := hfield
    · exact Json.Plain.str _
    · exact hstrs _
    · exact hstrs _
  refine Json.Plain.obj (List.nodup_singleton _) fun field hfield => ?_
  rw [List.mem_singleton.mp hfield]
  exact hrecord

/-- **Settings survive storage when some filter is on.** The philosophy of the charter is the
patch, or a value that has the same JSON text. -/
theorem promotionSettings_survive_iff (floatText : Rat → List Char)
    (hcasefold : ∀ text, isAscii text = true → casefold text = asciiLower text)
    {s : PromotionSettings} (haliases : ∀ text ∈ s.ownerAliases, text ≠ "" ∧ strip text = text)
    {charter : Dict Json} {stored : Json}
    (hcharter : charter.item "memory_philosophy_json" = stored)
    (hstored : stored = .obj (brainCharterPromotionPatch s) ∨ stored.Plain ∧
      stored.write floatText = (Json.obj (brainCharterPromotionPatch s)).write floatText) :
    promotionSettingsFromBrainCharter casefold charter = .ok (some s) ↔
      s.escalationFilters ≠ ∅ := by
  have hpatch : stored = .obj (brainCharterPromotionPatch s) :=
    hstored.elim id fun h => Json.write_inj h.1 (plain_brainCharterPromotionPatch s) h.2
  have hread : promotionSettingsFromBrainCharter casefold charter =
      PromotionSettings.fromMapping casefold s.toRecord := by
    rw [promotionSettingsFromBrainCharter, hcharter, hpatch]
    rfl
  rw [hread, fromMapping_toRecord hcasefold haliases]
  constructor
  · intro h hempty
    have hfilters := congrArg PromotionSettings.escalationFilters
      (Option.some.inj (Except.ok.inj h))
    rw [if_pos hempty, hempty] at hfilters
    exact allFilters_ne_empty hfilters
  · intro hsome
    rw [if_neg hsome]

end RoundTrip

/-- An owner who keeps one filter and has an alias. -/
def onlyThirdParty : PromotionSettings := ⟨.personal, {.thirdPartyPerson}, ["Sam"]⟩

/-- These settings are read back. -/
theorem onlyThirdParty_survives :
    promotionSettingsFromBrainCharter asciiLower
      [("memory_philosophy_json", .obj (brainCharterPromotionPatch onlyThirdParty))] =
      .ok (some onlyThirdParty) :=
  (promotionSettings_survive_iff (fun _ => []) (fun _ _ => rfl) (by decide +kernel) rfl
    (Or.inl rfl)).mpr (Finset.singleton_ne_empty _)

/-- Settings without a filter come back with all of them. -/
theorem noFilters_not_read_back :
    promotionSettingsFromBrainCharter asciiLower
      [("memory_philosophy_json", .obj (brainCharterPromotionPatch ⟨.personal, ∅, []⟩))] ≠
      .ok (some ⟨.personal, ∅, []⟩) := by
  rw [promotionSettingsFromBrainCharter]
  show PromotionSettings.fromMapping asciiLower _ ≠ _
  rw [fromMapping_toRecord (fun _ _ => rfl) (List.forall_mem_nil _), if_pos rfl]
  intro h
  have hfilters := congrArg PromotionSettings.escalationFilters
    (Option.some.inj (Except.ok.inj h))
  exact allFilters_ne_empty hfilters

end AliceBot
