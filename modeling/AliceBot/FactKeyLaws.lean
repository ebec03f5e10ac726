import AliceBot.FactKeys
import AliceBot.Library.Effect

/-!
# What fact keys keep when they are stored

A key that `_sanitize_key` lets through is stripped, short and has a word in it
(`SanitizedKey`). The two loops of a derivation together keep the first phrases with a new
token, one for each lowered form, up to the bound (`deriveFactKeys_eq`).

Keys are stored in one text, between separators, and `splitFactKeys` cuts that text at every
semicolon. The sanitiser leaves semicolons in a key, so the cut gives the keys back exactly if
none of them has one (`splitFactKeys_factKeysText`). Which keys do is told by the phrases that
come before them (`factKeysSurvive_iff`).
-/

namespace AliceBot

open PyLib

/-! ### Sanitised keys -/

/-- What `_sanitize_key` gives. -/
structure SanitizedKey (key : List Char) : Prop where
  trimmed : trim key = key
  word : key.any isTokenChar
  short : key.length ≤ maxFactKeyLength

theorem withWord_eq_some {text key : List Char} (h : withWord text = some key) :
    text = key ∧ key.any isTokenChar := by
  unfold withWord at h
  split at h
  next hword =>
    cases h
    exact ⟨rfl, hword⟩
  next => cases h

theorem length_beforeLastBlank_le (text : List Char) :
    (beforeLastBlank text).length ≤ text.length := by
  unfold beforeLastBlank
  split
  · rw [List.length_reverse, List.length_drop]
    have hsuffix : text.reverse.dropWhile (· ≠ ' ') <:+ text.reverse := List.dropWhile_suffix _
    have hlength := hsuffix.length_le
    rw [List.length_reverse] at hlength
    exact (Nat.sub_le _ _).trans hlength
  · exact le_rfl

theorem sanitizedKey_of_cutPhrase {text key : List Char} (htrim : trim text = text)
    (hword : text.any isTokenChar) (h : cutPhrase text = some key) : SanitizedKey key := by
  unfold cutPhrase at h
  split at h
  next =>
    obtain ⟨rfl, hcut⟩ := withWord_eq_some h
    refine ⟨trim_trim _, hcut, ?_⟩
    calc (trim (beforeLastBlank (text.take maxFactKeyLength))).length
        ≤ (beforeLastBlank (text.take maxFactKeyLength)).length := length_trim_le _
      _ ≤ (text.take maxFactKeyLength).length := length_beforeLastBlank_le _
      _ ≤ maxFactKeyLength := List.length_take_le _ _
  next hlength =>
    cases h
    exact ⟨htrim, hword, Nat.le_of_not_lt hlength⟩

theorem sanitizedKey_of_sanitizeKey {maxWords : Nat} {candidate key : List Char}
    (h : sanitizeKey maxWords candidate = some key) : SanitizedKey key := by
  unfold sanitizeKey at h
  dsimp only at h
  split at h
  next => cases h
  next text htext =>
    obtain ⟨hline, hword⟩ := withWord_eq_some htext
    split at h
    next => cases h
    next =>
      refine sanitizedKey_of_cutPhrase ?_ hword h
      rw [← hline, trim_trim]

theorem SanitizedKey.ne_nil {key : List Char} (h : SanitizedKey key) : key ≠ [] := by
  intro hnil
  have hword := h.word
  rw [hnil] at hword
  exact Bool.false_ne_true hword

/-! ### Cutting what was joined -/

/-- The blank of a separator belongs to the part behind it. -/
theorem factKeysText_cons (key : List Char) (keys : List (List Char)) :
    factKeysText (key :: keys) = List.intercalate [';'] (key :: keys.map (' ' :: ·)) := by
  induction keys generalizing key with
  | nil => simp only [factKeysText, List.intercalate_singleton, List.map_nil]
  | cons next keys ih =>
    have hnext := ih next
    rw [factKeysText] at hnext ⊢
    rw [List.intercalate_cons_cons, hnext, List.map_cons, List.intercalate_cons_cons]
    cases keys with
    | nil =>
      simp only [List.map_nil, List.intercalate_singleton, factKeySeparator, List.append_assoc,
        List.cons_append, List.nil_append]
    | cons last keys =>
      simp only [List.map_cons, List.intercalate_cons_cons, factKeySeparator, List.append_assoc,
        List.cons_append, List.nil_append]

theorem trim_cons_blank (key : List Char) : trim (' ' :: key) = trim key := by
  have hblank : isSpace ' ' = true := by decide
  rw [trim, trim, trimStart, trimStart, List.dropWhile_cons_of_pos hblank]

/-- The parts of the stored text, stripped, are the keys. -/
theorem map_trim_splitOn {keys : List (List Char)} (hne : keys ≠ [])
    (htrim : ∀ key ∈ keys, trim key = key) (hsep : ∀ key ∈ keys, ';' ∉ key) :
    ((factKeysText keys).splitOn ';').map trim = keys := by
  cases keys with
  | nil => exact absurd rfl hne
  | cons key keys =>
    -- behind each semicolon a blank was written, which is stripped again
    have hparts : ∀ part ∈ key :: keys.map (' ' :: ·), ';' ∉ part := by
      intro part hpart
      obtain rfl | hpart := List.mem_cons.mp hpart
      · exact hsep _ (List.mem_cons_self ..)
      · obtain ⟨later, hlater, rfl⟩ := List.mem_map.mp hpart
        have hnot := hsep later (List.mem_cons_of_mem _ hlater)
        exact fun hmem => (List.mem_cons.mp hmem).elim (by decide) hnot
    have hlater : (keys.map (' ' :: ·)).map trim = keys := by
      rw [List.map_map]
      conv_rhs => rw [← List.map_id keys]
      refine List.map_congr_left fun later hmem => ?_
      rw [Function.comp_apply, trim_cons_blank, id_eq]
      exact htrim later (List.mem_cons_of_mem _ hmem)
    rw [factKeysText_cons, List.splitOn_intercalate ';' hparts (List.cons_ne_nil _ _),
      List.map_cons, hlater, htrim key (List.mem_cons_self ..)]

/-- A part of a cut has no semicolon. -/
theorem semicolon_notMem_of_mem_splitFactKeys {text key : List Char}
    (h : key ∈ splitFactKeys text) : ';' ∉ key := by
  unfold splitFactKeys at h
  split at h
  · exact absurd h List.not_mem_nil
  · obtain ⟨part, hpart, rfl⟩ := List.mem_map.mp (List.mem_filter.mp h).1
    intro hmem
    have hin : ';' ∈ part := by
      have hstrip : ';' ∈ (strip (String.ofList part)).toList → ';' ∈ (String.ofList part).toList :=
        mem_of_mem_strip
      rw [strip_eq, String.toList_ofList, String.toList_ofList] at hstrip
      exact hstrip hmem
    rw [List.splitOn_eq_splitOnP] at hpart
    have hnot := eq_false_of_mem_splitOnP hpart ';' hin
    simp at hnot

/-- Stripped keys come back from the text that stores them if, and only if, none of them has a
semicolon. -/
theorem splitFactKeys_factKeysText {keys : List (List Char)}
    (htrim : ∀ key ∈ keys, trim key = key) (hne : ∀ key ∈ keys, key ≠ []) :
    splitFactKeys (factKeysText keys) = keys ↔ ∀ key ∈ keys, ';' ∉ key := by
  constructor
  · intro h key hkey
    rw [← h] at hkey
    exact semicolon_notMem_of_mem_splitFactKeys hkey
  · intro hsep
    cases keys with
    | nil => decide
    | cons key keys =>
      have hparts := map_trim_splitOn (List.cons_ne_nil key keys) htrim hsep
      have hfilter : (key :: keys).filter (· ≠ []) = key :: keys :=
        List.filter_eq_self.mpr fun k hk => by simpa using hne k hk
      -- The text is not blank: its first key has a character that is no white space.
      have hblank : trim (factKeysText (key :: keys)) ≠ [] := by
        intro hnil
        have hsolid := trim_eq_nil_iff.mp hnil
        rw [factKeysText] at hsolid
        have hkey : solid key = [] := by
          cases keys with
          | nil => simpa only [List.intercalate_singleton] using hsolid
          | cons next keys =>
            rw [List.intercalate_cons_cons, List.append_assoc, solid_append] at hsolid
            exact (List.append_eq_nil_iff.mp hsolid).1
        have htrimmed := trim_eq_nil_iff.mpr hkey
        rw [htrim key (List.mem_cons_self ..)] at htrimmed
        exact hne key (List.mem_cons_self ..) htrimmed
      rw [splitFactKeys, if_neg hblank, hparts, hfilter]

/-! ### The loops -/

section Derivation

variable {env : FactKeyEnv}

/-- The loop keeps the first phrases with a new token, one for each lowered form, as many as
there is room for. -/
theorem keepKeys_eq {text : List Char} {maxKeys : Nat} {seen kept : List (List Char)}
    (keys : List (List Char)) (h : kept.length < maxKeys) :
    keepKeys env text maxKeys seen kept keys =
      kept ++ (firstsAfter env.lower seen (keys.filter (hasNewToken text))).take
        (maxKeys - kept.length) := by
  induction keys generalizing seen kept with
  | nil => rw [keepKeys, List.filter_nil, firstsAfter_nil, List.take_nil, List.append_nil]
  | cons key rest ih =>
    rw [keepKeys]
    by_cases hseen : env.lower key ∈ seen
    · rw [if_pos hseen, ih h, List.filter_cons]
      split
      · rw [firstsAfter_cons, if_pos hseen]
      · rfl
    · rw [if_neg hseen]
      cases hnew : hasNewToken text key with
      | false =>
        have hold : ¬ hasNewToken text key = true := by
          rw [hnew]
          exact Bool.false_ne_true
        have hskip : (!false) = true := rfl
        rw [if_pos hskip, ih h, List.filter_cons_of_neg hold]
      | true =>
        rw [if_neg (by decide), List.filter_cons_of_pos hnew, firstsAfter_cons, if_neg hseen]
        split
        next hfull =>
          -- the last key that there is room for
          have hroom : maxKeys - kept.length = 1 := by omega
          rw [hroom, List.take_succ_cons, List.take_zero]
        next hmore =>
          have hnext : (kept ++ [key]).length < maxKeys := by
            rw [List.length_append, List.length_singleton]
            exact Nat.lt_of_not_le hmore
          have hroom : maxKeys - kept.length = maxKeys - (kept ++ [key]).length + 1 := by
            rw [List.length_append, List.length_singleton]
            omega
          rw [ih hnext, hroom, List.take_succ_cons, List.append_assoc, List.singleton_append]

variable (env) in
/-- Every quantity of a text has a unit of the table. -/
def UnitsKnown (text : List Char) : Prop :=
  ∀ m ∈ findIter env.alphabet text FactKeyPattern.unit,
    ∃ entry ∈ unitExpansions, entry.1.toList = env.lower (m.group text 2)

instance (text : List Char) : Decidable (UnitsKnown env text) :=
  inferInstanceAs (Decidable (∀ m ∈ _, ∃ entry ∈ _, _))

theorem unitKey_ok_iff {text : List Char} {m : Match} :
    (∃ key, unitKey env text m = .ok key) ↔
      ∃ entry ∈ unitExpansions, entry.1.toList = env.lower (m.group text 2) := by
  unfold unitKey
  dsimp only
  split
  next hnone =>
    constructor
    · rintro ⟨key, hok⟩
      cases hok
    · rintro ⟨entry, hentry, hspelled⟩
      have hother := List.find?_eq_none.mp hnone entry hentry
      exact absurd (decide_eq_true hspelled) hother
  next unit expanded hypernym hsome =>
    have hspelled := List.find?_some hsome
    refine ⟨fun _ => ⟨_, List.mem_of_find?_eq_some hsome, ?_⟩, fun _ => ⟨_, rfl⟩⟩
    exact of_decide_eq_true hspelled

/-- The keys of amounts are derived exactly if the unit of every amount is known. -/
theorem amountKeys_ok_iff {text : List Char} :
    (∃ keys, amountKeys env text = .ok keys) ↔ UnitsKnown env text := by
  unfold amountKeys
  constructor
  · rintro ⟨keys, h⟩ m hm
    cases hunits : (findIter env.alphabet text FactKeyPattern.unit).mapM (unitKey env text) with
    | error e =>
      rw [hunits] at h
      cases h
    | ok units =>
      obtain ⟨key, hkey⟩ := exists_ok_of_mapM_eq_ok hunits m hm
      exact unitKey_ok_iff.mp ⟨key, hkey⟩
  · intro h
    have hall : ∀ m ∈ findIter env.alphabet text FactKeyPattern.unit,
        ∃ key, unitKey env text m = .ok key := fun m hm => unitKey_ok_iff.mpr (h m hm)
    obtain ⟨units, hunits⟩ := exists_mapM_eq_ok hall
    rw [hunits]
    exact ⟨_, rfl⟩

/-! ### The phrases of a derivation -/

variable (env) in
/-- The sanitised phrases with a new token, those of the deterministic tier first. -/
def novelPhrases (memory : Dict Json) (entities : List Json)
    (provider : Option (List Char → List Char)) : List (List Char) :=
  let candidates := (deterministicCandidates env memory entities).toOption.getD []
  (candidates.filterMap (sanitizeKey maxFactKeyWords) ++ suggestedKeys env memory provider).filter
    (hasNewToken (memoryText memory))

variable {memory : Dict Json} {entities : List Json} {provider : Option (List Char → List Char)}
  {maxKeys : Nat}

theorem sanitizedKey_of_mem_suggestedKeys {key : List Char}
    (h : key ∈ suggestedKeys env memory provider) : SanitizedKey key := by
  unfold suggestedKeys at h
  split at h
  next => exact absurd h List.not_mem_nil
  next reply =>
    split at h
    next => exact absurd h List.not_mem_nil
    next =>
      obtain ⟨item, -, hitem⟩ := List.mem_filterMap.mp h
      exact sanitizedKey_of_sanitizeKey hitem

theorem of_mem_novelPhrases {key : List Char}
    (h : key ∈ novelPhrases env memory entities provider) :
    SanitizedKey key ∧ hasNewToken (memoryText memory) key := by
  obtain ⟨hmem, hnew⟩ := List.mem_filter.mp h
  refine ⟨?_, hnew⟩
  obtain hdet | hsuggested := List.mem_append.mp hmem
  · obtain ⟨candidate, -, hkey⟩ := List.mem_filterMap.mp hdet
    exact sanitizedKey_of_sanitizeKey hkey
  · exact sanitizedKey_of_mem_suggestedKeys hsuggested

theorem exists_deterministicCandidates_iff :
    (∃ candidates, deterministicCandidates env memory entities = .ok candidates) ↔
      UnitsKnown env (memoryText memory) := by
  rw [← amountKeys_ok_iff]
  unfold deterministicCandidates
  constructor
  · rintro ⟨candidates, h⟩
    cases hamounts : amountKeys env (memoryText memory) with
    | error e =>
      rw [hamounts] at h
      cases h
    | ok amounts => exact ⟨amounts, rfl⟩
  · rintro ⟨amounts, hamounts⟩
    rw [hamounts]
    exact ⟨_, rfl⟩

/-- The deterministic tier keeps the first phrases of its own. -/
theorem deriveDeterministicFactKeys_eq {candidates : List (List Char)} (hmax : 1 ≤ maxKeys)
    (h : deterministicCandidates env memory entities = .ok candidates) :
    deriveDeterministicFactKeys env memory entities maxKeys =
      .ok ((firstsAfter env.lower [] (novelPhrases env memory entities none)).take maxKeys) := by
  have hnovel : novelPhrases env memory entities none =
      (candidates.filterMap (sanitizeKey maxFactKeyWords)).filter
        (hasNewToken (memoryText memory)) := by
    rw [novelPhrases, h, suggestedKeys, List.append_nil]
    rfl
  rw [deriveDeterministicFactKeys, h, hnovel]
  have hloop : keepKeys env (memoryText memory) maxKeys [] []
      (candidates.filterMap (sanitizeKey maxFactKeyWords)) = _ := keepKeys_eq _ hmax
  exact congrArg Except.ok hloop

/-- The phrases of both tiers, those of the deterministic one first. -/
theorem novelPhrases_eq_append : novelPhrases env memory entities provider =
    novelPhrases env memory entities none ++
      (suggestedKeys env memory provider).filter (hasNewToken (memoryText memory)) := by
  have hnone : suggestedKeys env memory none = [] := rfl
  rw [novelPhrases, novelPhrases, hnone, List.append_nil, List.filter_append]

/-- A derivation keeps the first phrases of both tiers, one for each lowered form, up to the
bound. -/
theorem deriveFactKeys_eq {candidates : List (List Char)} (hmax : 1 ≤ maxKeys)
    (h : deterministicCandidates env memory entities = .ok candidates) :
    deriveFactKeys env memory entities provider maxKeys =
      .ok ((firstsAfter env.lower []
        (novelPhrases env memory entities provider)).take maxKeys) := by
  have hdet := deriveDeterministicFactKeys_eq hmax h
  rw [novelPhrases_eq_append, firstsAfter_append, List.append_nil]
  generalize hown : novelPhrases env memory entities none = own at hdet ⊢
  rw [deriveFactKeys, hdet]
  dsimp only [bind, Except.bind]
  split
  next hfull =>
    -- the deterministic keys leave no room
    have hlength : maxKeys ≤ (firstsAfter env.lower [] own).length :=
      hfull.trans (List.length_take_le' _ _)
    rw [List.take_append_of_le_length hlength]
  next hroom =>
    have hlength : (firstsAfter env.lower [] own).length < maxKeys := by
      rw [List.length_take] at hroom
      omega
    have hall : (firstsAfter env.lower [] own).take maxKeys = firstsAfter env.lower [] own :=
      List.take_of_length_le hlength.le
    -- what the kept keys block is what the phrases before them block
    have hseen : ∀ k, k ∈ (firstsAfter env.lower [] own).map env.lower ↔ k ∈ own.map env.lower := by
      intro k
      have hmet : k ∈ [] ∨ k ∈ (firstsAfter env.lower [] own).map env.lower ↔
          k ∈ [] ∨ k ∈ own.map env.lower := mem_seen_or_firstsAfter
      simpa only [List.not_mem_nil, false_or] using hmet
    rw [hall, keepKeys_eq _ hlength, firstsAfter_congr hseen, List.take_append, hall]

/-! ### Keys that survive -/

variable (env memory entities provider maxKeys) in
/-- What is promised of the keys of a memory and of the text that stores them. -/
structure StoredKeys (detKeys keys : List (List Char)) : Prop where
  atMost : keys.length ≤ maxKeys
  distinct : (keys.map env.lower).Nodup
  short : ∀ key ∈ keys, key.length ≤ maxFactKeyLength
  newToken : ∀ key ∈ keys, ∃ token ∈ factTokens key, token ∉ factTokens (memoryText memory)
  appended : detKeys <+: keys
  survive : splitFactKeys (factKeysText keys) = keys

variable (env memory entities provider maxKeys) in
/-- The derivation gives keys, and they survive storage. -/
def FactKeysSurvive : Prop :=
  ∃ detKeys keys, deriveDeterministicFactKeys env memory entities maxKeys = .ok detKeys ∧
    deriveFactKeys env memory entities provider maxKeys = .ok keys ∧
    StoredKeys env memory maxKeys detKeys keys

variable (env memory entities provider maxKeys) in
/-- A phrase with a semicolon repeats an earlier one or comes after as many different ones as
are kept. -/
def SemicolonsLate : Prop :=
  ∀ before key after, novelPhrases env memory entities provider = before ++ key :: after →
    ';' ∈ key → env.lower key ∈ before.map env.lower ∨
      maxKeys ≤ (before.map env.lower).dedup.length

/-- The phrases that are kept have no semicolon. -/
theorem semicolonsLate_iff : SemicolonsLate env memory entities provider maxKeys ↔
    ∀ key ∈ (firstsAfter env.lower [] (novelPhrases env memory entities provider)).take maxKeys,
      ';' ∉ key := by
  constructor
  · intro h key hkey hsemicolon
    obtain ⟨before, after, heq, hnew, hfew⟩ := mem_take_firstsAfter_iff.mp hkey
    rw [List.append_nil] at hnew
    rw [length_firstsAfter_nil] at hfew
    obtain hmet | hlate := h before key after heq hsemicolon
    · exact hnew hmet
    · exact absurd hfew (Nat.not_lt_of_le hlate)
  · intro h before key after heq hsemicolon
    by_contra hearly
    rw [not_or] at hearly
    obtain ⟨hnew, hfew⟩ := hearly
    refine h key (mem_take_firstsAfter_iff.mpr ⟨before, after, heq, ?_, ?_⟩) hsemicolon
    · rwa [List.append_nil]
    · rw [length_firstsAfter_nil]
      exact Nat.lt_of_not_le hfew

/-- What the derivation keeps satisfies everything but, with a semicolon in it, the last. -/
theorem storedKeys_iff {own phrases : List (List Char)} (hown : own <+: phrases)
    (hphrases : ∀ key ∈ phrases, SanitizedKey key ∧ hasNewToken (memoryText memory) key) :
    StoredKeys env memory maxKeys ((firstsAfter env.lower [] own).take maxKeys)
        ((firstsAfter env.lower [] phrases).take maxKeys) ↔
      ∀ key ∈ (firstsAfter env.lower [] phrases).take maxKeys, ';' ∉ key := by
  have hkept : ∀ key ∈ (firstsAfter env.lower [] phrases).take maxKeys,
      SanitizedKey key ∧ hasNewToken (memoryText memory) key := fun key hkey =>
    hphrases key ((firstsAfter_sublist [] _).subset (List.mem_of_mem_take hkey))
  -- a key that is read back is trimmed, not empty and without a semicolon
  have hsplit := splitFactKeys_factKeysText (fun key hkey => (hkept key hkey).1.trimmed)
    fun key hkey => (hkept key hkey).1.ne_nil
  constructor
  · intro h
    exact hsplit.mp h.survive
  · intro hsemicolons
    have hdistinct : ((firstsAfter env.lower [] phrases).map env.lower).Nodup :=
      nodup_firstsAfter [] phrases
    have hprefixed : firstsAfter env.lower [] own <+: firstsAfter env.lower [] phrases :=
      firstsAfter_isPrefix hown
    refine ⟨List.length_take_le _ _, ?_, ?_, ?_, ?_, hsplit.mpr hsemicolons⟩
    · exact hdistinct.sublist ((List.take_sublist _ _).map _)
    · exact fun key hkey => (hkept key hkey).1.short
    · intro key hkey
      obtain ⟨token, htoken, hnew⟩ := List.any_eq_true.mp (hkept key hkey).2
      refine ⟨token, htoken, fun hmem => ?_⟩
      rw [List.contains_iff_mem.mpr hmem] at hnew
      exact Bool.false_ne_true hnew
    · refine List.prefix_of_prefix_length_le ((List.take_prefix ..).trans hprefixed)
        (List.take_prefix ..) ?_
      rw [List.length_take, List.length_take]
      exact min_le_min_left maxKeys hprefixed.length_le

/-- A derivation that gives keys meets a known unit in every quantity. -/
theorem unitsKnown_of_survive (h : FactKeysSurvive env memory entities provider maxKeys) :
    UnitsKnown env (memoryText memory) := by
  obtain ⟨detKeys, keys, hdet, -, -⟩ := h
  cases hcandidates : deterministicCandidates env memory entities with
  | error e =>
    rw [deriveDeterministicFactKeys, hcandidates] at hdet
    cases hdet
  | ok candidates => exact exists_deterministicCandidates_iff.mp ⟨candidates, hcandidates⟩

/-- Fact keys survive storage exactly if the units of all quantities are known and every phrase
with a semicolon comes too late to be kept. -/
theorem factKeysSurvive_iff (hmax : 1 ≤ maxKeys) :
    FactKeysSurvive env memory entities provider maxKeys ↔
      UnitsKnown env (memoryText memory) ∧
        SemicolonsLate env memory entities provider maxKeys := by
  -- where all units are known, both derivations return
  have hkeys : UnitsKnown env (memoryText memory) →
      (FactKeysSurvive env memory entities provider maxKeys ↔
        SemicolonsLate env memory entities provider maxKeys) := by
    intro hunits
    obtain ⟨candidates, hcandidates⟩ := exists_deterministicCandidates_iff.mpr hunits
    have hown : novelPhrases env memory entities none <+:
        novelPhrases env memory entities provider := ⟨_, novelPhrases_eq_append.symm⟩
    have hphrases : ∀ key ∈ novelPhrases env memory entities provider,
        SanitizedKey key ∧ hasNewToken (memoryText memory) key := fun _ => of_mem_novelPhrases
    rw [semicolonsLate_iff, ← storedKeys_iff hown hphrases, FactKeysSurvive,
      deriveDeterministicFactKeys_eq hmax hcandidates, deriveFactKeys_eq hmax hcandidates]
    constructor
    · rintro ⟨detKeys, keys, hdet, hkeys, hstored⟩
      cases hdet
      cases hkeys
      exact hstored
    · intro hstored
      exact ⟨_, _, rfl, rfl, hstored⟩
  constructor
  · intro h
    have hunits := unitsKnown_of_survive h
    exact ⟨hunits, (hkeys hunits).mp h⟩
  · rintro ⟨hunits, hlate⟩
    exact (hkeys hunits).mpr hlate

end Derivation

/-! ### Two memories -/

/-- Texts of ASCII characters and the small letter i without a dot, which `re.IGNORECASE` takes
for an `i` and `str.lower` keeps. -/
def dotlessReading : FactKeyEnv where
  alphabet :=
    { word := fun c => c.isAlphanum || c = '_' || c = 'ı'
      space := isSpace
      digit? := fun c => if c.isDigit then some (c.toNat - 48) else none
      sameLetter := fun l c => l.toLower = c.toLower || (l = 'i' && c = 'ı') }
  lower := List.map Char.toLower
  isAlpha := fun c => c.isAlpha || c = 'ı'
  numberText := fun value =>
    match value with
    | .int n => (toString n).toList
    | _ => []
  loads := fun _ => none

/-- The key of an alias with a semicolon has no room behind the key of an amount. -/
theorem raffle_survives :
    FactKeysSurvive dotlessReading [("title", .str "Paid $5 in 2 hrs")]
      [.obj [("name", .str "A; B")]] none 2 :=
  (factKeysSurvive_iff (by decide)).mpr
    ⟨by decide +kernel, semicolonsLate_iff.mpr (by decide +kernel)⟩

/-- The key `total 5; 6` comes back as two, and no key comes of a quantity whose unit is spelled
without a dot. -/
theorem semicolon_not_survives :
    ¬ FactKeysSurvive dotlessReading [("value", .obj [("total", .str "5; 6")])] [] none 8 ∧
      deriveFactKeys dotlessReading [("title", .str "5 mı")] [] none 8 =
        .error (.key "mı".toList) := by
  refine ⟨?_, by decide +kernel⟩
  rintro ⟨detKeys, keys, -, hkeys, hstored⟩
  have hkey : deriveFactKeys dotlessReading [("value", .obj [("total", .str "5; 6")])] [] none 8 =
      .ok ["total 5; 6".toList] := by decide +kernel
  rw [hkey] at hkeys
  cases hkeys
  have hparts : splitFactKeys (factKeysText ["total 5; 6".toList]) ≠ ["total 5; 6".toList] := by
    decide +kernel
  exact hparts hstored.survive

end AliceBot
