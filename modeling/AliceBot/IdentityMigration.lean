import AliceBot.Library.Binary64
import AliceBot.ScopeMigration
import AliceBot.SourceIdentity

/-!
# The capture identity in SQL

Migration 0090 recomputes the dedupe key of every live source that has kept its
text (`_RECOMPUTE_LIVE_SOURCE_IDENTITIES`). The runtime recomputes the key of a
row that psycopg has read, in `capture_dedupe_key_for_source`.

Text, classification and projects are spelled alike (`migratedText_eq`), but not
read alike. SQL reads the decimals of a `jsonb` column as they are. Python reads
a number with digits below the point as a double, and refuses a whole number of
more than 4300 digits. And where the envelope of a row names no project, Python
asks the row itself, which brings back an alias under `agentic_memory` that the
envelope had overridden. The two keys are one exactly where none of this changes
the projects (`migratedKey_agrees_iff`).
-/

namespace AliceBot

open PyLib

/-! ### The migration -/

/-- `_PYTHON_312_STRIP_CODEPOINTS`. -/
def python312StripCodepoints : List Nat :=
  [0x0009, 0x000A, 0x000B, 0x000C, 0x000D, 0x001C, 0x001D, 0x001E, 0x001F, 0x0020, 0x0085, 0x00A0,
    0x1680, 0x2000, 0x2001, 0x2002, 0x2003, 0x2004, 0x2005, 0x2006, 0x2007, 0x2008, 0x2009, 0x200A,
    0x2028, 0x2029, 0x202F, 0x205F, 0x3000]

/-- `alice_normalize_capture_text`. -/
def aliceNormalizeCaptureText (rawText : String) : String :=
  btrimChars (replaceAll (replaceAll rawText "\r\n" "\n") "\r" "\n")
    (python312StripCodepoints.map Char.ofNat)

/-- `scope_value.value`: a text of as many bytes as characters is ASCII. -/
def scopeValue (value : String) : String :=
  if value.utf8ByteSize = value.length then asciiLower value else value

/-- `scope_identity.value`. The collation "C" is that of the code points. -/
def scopeIdentityValue (resolvedScope : List String) : String :=
  "\x1f".intercalate (((resolvedScope.map scopeValue).dedup).insertionSort (· ≤ ·))

/-- The text that is hashed. -/
def migratedText (rawText : String) (row : SourceRow) : String :=
  let scopeIdentity := scopeIdentityValue
    (aliceResolveProjectScope (aliceSourceScopeResource (.obj row.metadataJson)))
  aliceNormalizeCaptureText rawText
    ++ (if scopeIdentity ≠ "" then "\x1fproject_scope:" ++ scopeIdentity else "")
    ++ "\x1fdomain:" ++ asciiLower (btrimChars row.domain [' '])
    ++ "\x1fsensitivity:" ++ asciiLower (btrimChars row.sensitivity [' '])

/-- `computed.computed_key`. -/
def computedKey (md5 : String → String) (row : SourceRow) : String :=
  match row.metadataJson.get? "raw_text" with
  | some (.str rawText) => "capture-md5:" ++ md5 (migratedText rawText row)
  | _ => row.contentHash

/-! ### The row as psycopg reads it -/

/-- `int(text)` raises at more than 4300 digits. -/
@[irreducible] def intLoads (n : Int) : Bool := decide (n.natAbs < 10 ^ 4300)

mutual
/-- `json.loads` does not raise. -/
def jsonLoads : Json → Bool
  | .int n => intLoads n
  | .arr items => jsonLoadsItems items
  | .obj fields => jsonLoadsFields fields
  | .null | .bool _ | .float _ | .str _ => true

def jsonLoadsItems : List Json → Bool
  | [] => true
  | value :: rest => jsonLoads value && jsonLoadsItems rest

def jsonLoadsFields : List (String × Json) → Bool
  | [] => true
  | (_, value) :: rest => jsonLoads value && jsonLoadsFields rest
end

/-- A number with digits below the point is read as a double. An infinity, which
names no project either, is kept as null. -/
def readNumber (q : Rat) : Json := ((readDouble q).map Json.float).getD .null

mutual
/-- `json.loads`, of what it does not raise at. -/
def readJson : Json → Json
  | .float q => readNumber q
  | .arr items => .arr (readItems items)
  | .obj fields => .obj (readFields fields)
  | .null => .null
  | .bool b => .bool b
  | .int n => .int n
  | .str s => .str s

def readItems : List Json → List Json
  | [] => []
  | value :: rest => readJson value :: readItems rest

def readFields : List (String × Json) → List (String × Json)
  | [] => []
  | (key, value) :: rest => (key, readJson value) :: readFields rest
end

/-- The row, where psycopg can read it. -/
def SourceRow.read (row : SourceRow) : Option SourceRow :=
  if jsonLoads (.obj row.metadataJson) then
    some { row with metadataJson := readFields row.metadataJson }
  else none

/-- The key of the migration is that of the runtime, whatever the digest. -/
def KeysAgree (env : CaptureEnv) (row : SourceRow) : Prop :=
  ∀ md5, (row.read.bind fun source => source.captureDedupeKey { env with md5 := md5 }) =
    some (computedKey md5 row)

/-! ### What decides the projects -/

/-- The aliases under the outer `agentic_memory`. -/
def outerAliases (metadata : Dict Json) : List Json :=
  match (metadata.item "agentic_memory").asObj? with
  | some agentic => projectAliasKeys.map agentic.item
  | none => []

/-- The envelope decides the projects. -/
def ProjectScopeResolution.decides (resolution : ProjectScopeResolution) : Prop :=
  resolution.present ∨ resolution.values ≠ []

instance (resolution : ProjectScopeResolution) : Decidable resolution.decides :=
  inferInstanceAs (Decidable (resolution.present = true ∨ resolution.values ≠ []))

/-- Reading a row does not change the projects its envelope names. -/
structure KeepsScope (metadata : Dict Json) : Prop where
  loads : jsonLoads (.obj metadata) = true
  /-- As doubles the numbers spell the same projects. -/
  numbers : (resolveSourceMetadataProjectScope (readFields metadata)).decides →
    scopeSuffix "\x1f" (resolveSourceMetadataProjectScope metadata).values =
      scopeSuffix "\x1f" (resolveSourceMetadataProjectScope (readFields metadata)).values
  /-- Where the envelope names none, no alias was overridden in it. -/
  aliases : ¬ (resolveSourceMetadataProjectScope (readFields metadata)).decides →
    scopeSuffix "\x1f" (resolveSourceMetadataProjectScope metadata).values =
      scopeSuffix "\x1f" (normalizeProjectScope (.arr (outerAliases (readFields metadata))))

/-! ### Texts -/

theorem mem_python312StripCodepoints (c : Char) :
    decide (c ∈ python312StripCodepoints.map Char.ofNat) = isSpace c := by
  have hvalid : ∀ n ∈ python312StripCodepoints, (Char.ofNat n).toNat = n := by decide
  refine decide_eq_decide.mpr ⟨fun h => ?_, fun h => ?_⟩
  · obtain ⟨n, hn, rfl⟩ := List.mem_map.mp h
    rw [hvalid n hn]
    exact hn
  · exact List.mem_map.mpr ⟨c.toNat, h, Char.ofNat_toNat c⟩

theorem aliceNormalizeCaptureText_eq (rawText : String) :
    aliceNormalizeCaptureText rawText =
      strip (replaceAll (replaceAll rawText "\r\n" "\n") "\r" "\n") := by
  have hspace : (fun c => decide (c ∈ python312StripCodepoints.map Char.ofNat)) = isSpace :=
    funext mem_python312StripCodepoints
  rw [aliceNormalizeCaptureText, btrimChars, strip, List.rdropWhile, hspace]

/-- A text that is not blank has a normal form. -/
theorem normalizeText_of_ne_empty {rawText : String} (h : strip rawText ≠ "") :
    normalizeText rawText = some (aliceNormalizeCaptureText rawText) := by
  rw [normalizeText_of_not_blank h, aliceNormalizeCaptureText_eq]

/-- An admitted classification is spelled alike. -/
theorem lower_admitted {value : String} (h : value ∈ vnextDomains ++ vnextSensitivityLevels) :
    asciiLower (btrimChars value [' ']) = value := by
  have hplain : ∀ v ∈ vnextDomains ++ vnextSensitivityLevels,
      asciiLower (btrimChars v [' ']) = v := by
    decide +kernel
  exact hplain value h

/-! ### Projects -/

/-- One byte for each character: the text is ASCII. -/
theorem utf8ByteSize_eq_length (s : String) :
    s.utf8ByteSize = s.length ↔ isAscii s = true := by
  have hlist : ∀ l : List Char, l.length ≤ (String.ofList l).utf8ByteSize ∧
      ((String.ofList l).utf8ByteSize = l.length ↔ ∀ c ∈ l, c.toNat < 128) := by
    intro l
    induction l with
    | nil => simp
    | cons c l ih =>
      obtain ⟨hle, hiff⟩ := ih
      have hsize : (String.ofList (c :: l)).utf8ByteSize =
          c.utf8Size + (String.ofList l).utf8ByteSize := by
        rw [String.ofList_cons, String.utf8ByteSize_append, String.utf8ByteSize_singleton]
      have hpos := c.utf8Size_pos
      -- the characters of one byte are those of ASCII
      have hone : c.utf8Size = 1 ↔ c.toNat < 128 := by
        rw [Char.utf8Size_eq_one_iff, UInt32.le_iff_toNat_le]
        exact Nat.lt_succ_iff.symm
      rw [hsize, List.length_cons, List.forall_mem_cons, ← hone, ← hiff]
      omega
  have h := (hlist s.toList).2
  rw [String.ofList_toList, String.length_toList] at h
  rw [h, isAscii, List.all_eq_true]
  simp only [decide_eq_true_eq]

/-- The values of a scope: each is a normal form, and there once. -/
def NormalScope (values : List String) : Prop :=
  values.Nodup ∧ ∀ value ∈ values, value ≠ "" ∧ normalizeProjectIdentifier (.str value) = value

theorem normalScope_nil : NormalScope [] := ⟨List.nodup_nil, fun _ h => absurd h List.not_mem_nil⟩

theorem normalScope_normalizeProjectScope (value : Json) :
    NormalScope (normalizeProjectScope value) :=
  ⟨nodup_fromkeys _, fun _ hmem => normal_of_mem_scopeItems (mem_fromkeys.mp hmem)⟩

theorem normalScope_canonicalValues (value : Json) : NormalScope (canonicalValues value) := by
  cases value with
  | arr items => exact normalScope_normalizeProjectScope _
  | _ => exact normalScope_nil

theorem normalScope_resolveProjectScope (resource : Dict Json) :
    NormalScope (resolveProjectScope resource).values := by
  unfold resolveProjectScope
  dsimp only
  split
  · exact normalScope_canonicalValues _
  split
  · exact normalScope_canonicalValues _
  split
  · exact normalScope_normalizeProjectScope _
  split
  · next hdirect =>
    rw [← hdirect]
    exact normalScope_normalizeProjectScope _
  · exact normalScope_normalizeProjectScope _

/-- A scope is its own normal form. -/
theorem normalizeProjectScope_strs {values : List String} (h : NormalScope values) :
    normalizeProjectScope (.strs values) = values := by
  obtain ⟨hnodup, hnormal⟩ := h
  have hitems : ∀ l : List String,
      (∀ value ∈ l, value ≠ "" ∧ normalizeProjectIdentifier (.str value) = value) →
      scopeItemsOfList (l.map Json.str) = l := by
    intro l hl
    induction l with
    | nil => rfl
    | cons value l ih =>
      obtain ⟨hne, hself⟩ := hl value (List.mem_cons_self ..)
      have hone : scopeItems (.str value) = [value] := by
        simp [scopeItems, projectScalarText, hself, hne]
      rw [List.map_cons, scopeItemsOfList, hone,
        ih fun other hother => hl other (List.mem_cons_of_mem _ hother), List.singleton_append]
  rw [normalizeProjectScope, Json.strs, scopeItems, hitems values hnormal,
    fromkeys_of_nodup hnodup]

theorem scopeValue_eq {value : String} (h : normalizeProjectIdentifier (.str value) = value) :
    scopeValue value = projectIdentifierIdentity (.str value) := by
  unfold scopeValue projectIdentifierIdentity
  rw [h]
  simp only [utf8ByteSize_eq_length]

theorem scopeValue_ne_empty {value : String} (h : value ≠ "") : scopeValue value ≠ "" := by
  unfold scopeValue
  split
  · intro hempty
    have hlength := congrArg String.length hempty
    rw [asciiLower, String.length_ofList, List.length_map, String.length_toList] at hlength
    exact h (String.length_eq_zero_iff.mp hlength)
  · exact h

theorem scopeIdentityValue_eq {values : List String} (h : NormalScope values) :
    scopeIdentityValue values = "\x1f".intercalate (projectScopeIdentity (.strs values)) := by
  have hmap : values.map scopeValue =
      values.map fun value => projectIdentifierIdentity (.str value) :=
    List.map_congr_left fun value hmem => scopeValue_eq (h.2 value hmem).2
  rw [scopeIdentityValue, hmap, projectScopeIdentity, normalizeProjectScope_strs h]

/-- A joined list of texts that are not empty is empty for no text only. -/
theorem intercalate_eq_empty {separator : String} {l : List String} (h : ∀ s ∈ l, s ≠ "") :
    separator.intercalate l = "" ↔ l = [] := by
  cases l with
  | nil => simp
  | cons first rest =>
    have hfirst := h first (List.mem_cons_self ..)
    cases rest with
    | nil => simp [hfirst]
    | cons second rest =>
      rw [String.intercalate_cons_cons]
      simp [hfirst]

/-- Both sides write the projects of a scope alike. -/
theorem scopeSuffix_eq {values : List String} (h : NormalScope values) :
    (if scopeIdentityValue values ≠ "" then "\x1fproject_scope:" ++ scopeIdentityValue values
      else "") = scopeSuffix "\x1f" values := by
  have hblank : ∀ s ∈ projectScopeIdentity (.strs values), s ≠ "" := by
    intro s hs
    rw [projectScopeIdentity, normalizeProjectScope_strs h, List.mem_insertionSort,
      List.mem_dedup] at hs
    obtain ⟨value, hvalue, rfl⟩ := List.mem_map.mp hs
    rw [← scopeValue_eq (h.2 value hvalue).2]
    exact scopeValue_ne_empty (h.2 value hvalue).1
  rw [scopeIdentityValue_eq h]
  unfold scopeSuffix
  cases hidentity : projectScopeIdentity (.strs values) with
  | nil => exact if_neg (by simp)
  | cons first rest =>
    rw [hidentity] at hblank
    refine (if_pos (mt (intercalate_eq_empty hblank).mp (by simp))).trans ?_
    rfl

/-- The text of the migration, in the words of the runtime. -/
theorem migratedText_eq {row : SourceRow} (hchecks : row.checks = true) (rawText : String) :
    migratedText rawText row = aliceNormalizeCaptureText rawText
      ++ scopeSuffix "\x1f" (resolveSourceMetadataProjectScope row.metadataJson).values
      ++ "\x1fdomain:" ++ row.domain ++ "\x1fsensitivity:" ++ row.sensitivity := by
  simp only [SourceRow.checks, Bool.and_eq_true, decide_eq_true_eq] at hchecks
  have hdomain := lower_admitted (List.mem_append_left vnextSensitivityLevels hchecks.1.2)
  have hsensitivity := lower_admitted (List.mem_append_right vnextDomains hchecks.2)
  have hnormal : NormalScope (resolveSourceMetadataProjectScope row.metadataJson).values :=
    normalScope_resolveProjectScope _
  unfold migratedText
  dsimp only
  rw [aliceResolveProjectScope_source, scopeSuffix_eq hnormal, hdomain, hsensitivity]

/-! ### Rows that were read -/

theorem get?_readFields (fields : Dict Json) (key : String) :
    Dict.get? (readFields fields) key = (fields.get? key).map readJson := by
  induction fields with
  | nil => rfl
  | cons field fields ih =>
    obtain ⟨k, value⟩ := field
    rw [readFields, Dict.get?_cons, Dict.get?_cons]
    split
    · rfl
    · exact ih

theorem asStr?_readNumber (q : Rat) : (readNumber q).asStr? = none := by
  unfold readNumber
  cases readDouble q with
  | none => rfl
  | some shortest => rfl

theorem asStr?_readJson (value : Json) : (readJson value).asStr? = value.asStr? := by
  cases value with
  | float q => exact asStr?_readNumber q
  | _ => rfl

/-- A text is read as it is, and nothing else as a text. -/
theorem getStr?_readFields (fields : Dict Json) (key : String) :
    Dict.getStr? (readFields fields) key = fields.getStr? key := by
  unfold Dict.getStr?
  rw [get?_readFields]
  cases fields.get? key with
  | none => rfl
  | some value => exact asStr?_readJson value

/-- A patch keeps the keys that are there. -/
theorem get?_update_isSome (d patch : Dict Json) {key : String} (h : (d.get? key).isSome) :
    ((d.update patch).get? key).isSome := by
  induction patch generalizing d with
  | nil => exact h
  | cons item patch ih =>
    obtain ⟨k, v⟩ := item
    rw [Dict.update_cons]
    refine ih _ ?_
    rw [Dict.get?_set]
    split
    · rfl
    · exact h

/-- What is merged under a key keeps the keys of the outer object. -/
theorem mergeNested_self (resource container : Dict Json) {key field : String} {direct : Dict Json}
    (hdirect : (resource.item key).asObj? = some direct) (h : (direct.get? field).isSome) :
    ∃ merged : Dict Json, (mergeNested resource container key).item key = .obj merged ∧
      (merged.get? field).isSome := by
  unfold mergeNested
  rw [hdirect]
  dsimp only
  cases (container.item key).asObj? with
  | none => exact ⟨direct, by rw [Dict.item, Dict.get?_set_self, Option.getD_some], h⟩
  | some stored =>
    exact ⟨_, by rw [Dict.item, Dict.get?_set_self, Option.getD_some],
      get?_update_isSome direct stored h⟩

theorem mergeNested_of_ne (resource container : Dict Json) {key other : String}
    (h : key ≠ other) : (mergeNested resource container key).item other = container.item other := by
  unfold mergeNested
  split
  · rfl
  · split <;> rw [Dict.item, Dict.get?_set_of_ne _ _ h, Dict.item]

/-- Where the merged container has no nested scope, the outer objects have none. -/
theorem nestedScopes_of_merged {metadata container : Dict Json}
    (h : nestedScopes (["agentic_memory", "agent_identity"].foldl (mergeNested metadata)
      container) = []) : nestedScopes metadata = [] := by
  have hnone := List.filterMap_eq_nil_iff.mp h
  refine List.filterMap_eq_nil_iff.mpr fun key hkey => ?_
  rw [Option.bind_eq_none_iff]
  intro direct hdirect
  by_contra hfield
  have hfield := Option.isSome_iff_ne_none.mpr hfield
  -- the second merge leaves what the first one has stored
  have hmerged : ∃ merged : Dict Json,
      (["agentic_memory", "agent_identity"].foldl (mergeNested metadata) container).item key =
        .obj merged ∧ (merged.get? "project_scope").isSome := by
    rw [List.foldl_cons, List.foldl_cons, List.foldl_nil]
    rcases List.mem_cons.mp hkey with rfl | hkey
    · rw [mergeNested_of_ne _ _ (by decide)]
      exact mergeNested_self metadata container hdirect hfield
    · obtain rfl := List.mem_singleton.mp hkey
      exact mergeNested_self metadata _ hdirect hfield
  obtain ⟨merged, hitem, hpresent⟩ := hmerged
  have hgone := hnone key hkey
  rw [hitem, Json.asObj?_obj, Option.bind_some] at hgone
  rw [hgone] at hpresent
  exact Bool.false_ne_true hpresent

theorem normalizeProjectScope_eq_nil {value : Json} :
    normalizeProjectScope value = [] ↔ scopeItems value = [] := fromkeys_eq_nil

/-- What an envelope lacks that names no project. -/
theorem resolve_of_not_decides {resource : Dict Json}
    (h : ¬ (resolveProjectScope resource).decides) :
    resource.get? "project_scope" = none ∧
      (∀ container ∈ scopeContainers resource, nestedScopes container = []) ∧
      normalizeProjectScope (.arr (projectAliasKeys.map resource.item)) = [] := by
  unfold resolveProjectScope ProjectScopeResolution.decides at h
  dsimp only at h
  split at h
  · exact absurd (.inl rfl) h
  next hroot =>
  split at h
  · exact absurd (.inl rfl) h
  split at h
  · exact absurd (.inl rfl) h
  next hnested =>
  split at h
  · exact absurd (.inr (by simp)) h
  next hdirect => exact ⟨hroot, List.flatMap_eq_nil_iff.mp hnested, hdirect⟩

/-- A row whose envelope names no project is asked for the aliases that its
envelope has overridden. -/
theorem fallback_eq {metadata : Dict Json}
    (h : ¬ (resolveSourceMetadataProjectScope metadata).decides) :
    (resolveProjectScope [("metadata_json", .obj metadata)]).values =
      normalizeProjectScope (.arr (outerAliases metadata)) := by
  unfold resolveSourceMetadataProjectScope at h
  dsimp only at h
  generalize hcontainer : ["agentic_memory", "agent_identity"].foldl (mergeNested metadata)
    (metadata.getObj "metadata_json") = container at h
  obtain ⟨hroot, hnested, hdirect⟩ := resolve_of_not_decides h
  rw [Dict.get?_set_of_ne _ _ (by decide)] at hroot
  have hmerged : nestedScopes container = [] := by
    refine hnested container ?_
    rw [scopeContainers_eq, Dict.item, Dict.get?_set_self]
    exact List.mem_append_left _ (List.mem_singleton.mpr rfl)
  have houter : nestedScopes metadata = [] := by
    rw [← hcontainer] at hmerged
    exact nestedScopes_of_merged hmerged
  have halias : projectAliasKeys.map (metadata.set "metadata_json" (.obj container)).item =
      projectAliasKeys.map metadata.item :=
    List.map_congr_left fun key hkey => by
      have hne : "metadata_json" ≠ key := by
        rintro rfl
        exact absurd hkey (by decide)
      rw [Dict.item, Dict.get?_set_of_ne _ _ hne, Dict.item]
  rw [halias, normalizeProjectScope_eq_nil, scopeItems] at hdirect
  -- of the row itself only the metadata column is a container
  have hcontainers : scopeContainers [("metadata_json", .obj metadata)] = [metadata] := rfl
  have hnothing : normalizeProjectScope (.arr (projectAliasKeys.map
      (Dict.item [("metadata_json", .obj metadata)]))) = [] := rfl
  unfold resolveProjectScope
  dsimp only
  rw [hcontainers, List.flatMap_singleton, List.flatMap_singleton, houter, hnothing]
  rw [show Dict.get? [("metadata_json", Json.obj metadata)] "project_scope" = none from rfl,
    List.findSome?_cons, hroot, List.findSome?_nil]
  have hitems : scopeItems (.arr (legacyScopes metadata)) =
      scopeItems (.arr (outerAliases metadata)) := by
    rw [scopeItems, scopeItems, legacyScopes, scopeItemsOfList_append, hdirect, List.nil_append]
    rfl
  rw [normalizeProjectScope, hitems]
  rfl

/-! ### Small whole numbers -/

mutual
/-- Every number is whole and small, however it is written. -/
def wholeNumbers : Json → Bool
  | .int n => intLoads n
  | .float q => decide (q.den = 1 ∧ q.num.natAbs < 2 ^ 53)
  | .arr items => wholeNumbersItems items
  | .obj fields => wholeNumbersFields fields
  | .null | .bool _ | .str _ => true

def wholeNumbersItems : List Json → Bool
  | [] => true
  | value :: rest => wholeNumbers value && wholeNumbersItems rest

def wholeNumbersFields : List (String × Json) → Bool
  | [] => true
  | (_, value) :: rest => wholeNumbers value && wholeNumbersFields rest
end

theorem readNumber_of_whole {q : Rat} (hden : q.den = 1) (hsmall : q.num.natAbs < 2 ^ 53) :
    readNumber q = .float q := by
  have hq : (q.num : Rat) = q := (Rat.den_eq_one_iff q).mp hden
  have hread := readDouble_intCast hsmall
  rw [hq] at hread
  rw [readNumber, hread]
  rfl

mutual
/-- Such a value is read as it is. -/
theorem read_of_wholeNumbers : ∀ {value : Json}, wholeNumbers value = true →
    jsonLoads value = true ∧ readJson value = value
  | .int n, h => ⟨h, rfl⟩
  | .float q, h => by
    obtain ⟨hden, hsmall⟩ := of_decide_eq_true h
    exact ⟨rfl, readNumber_of_whole hden hsmall⟩
  | .arr items, h => by
    obtain ⟨hloads, hread⟩ := readItems_of_wholeNumbers h
    exact ⟨hloads, congrArg Json.arr hread⟩
  | .obj fields, h => by
    obtain ⟨hloads, hread⟩ := readFields_of_wholeNumbers h
    exact ⟨hloads, congrArg Json.obj hread⟩
  | .null, _ | .bool _, _ | .str _, _ => ⟨rfl, rfl⟩

theorem readItems_of_wholeNumbers : ∀ {items : List Json}, wholeNumbersItems items = true →
    jsonLoadsItems items = true ∧ readItems items = items
  | [], _ => ⟨rfl, rfl⟩
  | value :: rest, h => by
    obtain ⟨hvalue, hrest⟩ := Bool.and_eq_true_iff.mp h
    obtain ⟨hloads, hread⟩ := read_of_wholeNumbers hvalue
    obtain ⟨hloads', hread'⟩ := readItems_of_wholeNumbers hrest
    exact ⟨Bool.and_eq_true_iff.mpr ⟨hloads, hloads'⟩, congrArg₂ List.cons hread hread'⟩

theorem readFields_of_wholeNumbers : ∀ {fields : List (String × Json)},
    wholeNumbersFields fields = true →
      jsonLoadsFields fields = true ∧ readFields fields = fields
  | [], _ => ⟨rfl, rfl⟩
  | (key, value) :: rest, h => by
    obtain ⟨hvalue, hrest⟩ := Bool.and_eq_true_iff.mp h
    obtain ⟨hloads, hread⟩ := read_of_wholeNumbers hvalue
    obtain ⟨hloads', hread'⟩ := readFields_of_wholeNumbers hrest
    refine ⟨Bool.and_eq_true_iff.mpr ⟨hloads, hloads'⟩, ?_⟩
    rw [readFields, hread, hread']
end

/-- Of an envelope that names its projects without other numbers, nothing is
lost. -/
theorem keepsScope_of_wholeNumbers {metadata : Dict Json}
    (h : wholeNumbers (.obj metadata) = true)
    (hdecides : (resolveSourceMetadataProjectScope metadata).decides) : KeepsScope metadata := by
  obtain ⟨hloads, hread⟩ := readFields_of_wholeNumbers h
  refine ⟨hloads, fun _ => ?_, fun hnot => ?_⟩
  · rw [hread]
  · rw [hread] at hnot
    exact absurd hdecides hnot

/-! ### The two keys -/

/-- A row whose envelope decides. -/
theorem projectScope_of_decides {row : SourceRow}
    (h : (resolveSourceMetadataProjectScope row.metadataJson).decides) :
    row.projectScope = (resolveSourceMetadataProjectScope row.metadataJson).values :=
  if_pos h

/-- A row whose envelope does not, with what it falls back on. -/
theorem projectScope_of_not_decides {row : SourceRow}
    (h : ¬ (resolveSourceMetadataProjectScope row.metadataJson).decides) :
    row.projectScope = normalizeProjectScope (.arr (outerAliases row.metadataJson)) :=
  (if_neg h).trans (fallback_eq h)

/-- The key of the runtime, of a row that was read. -/
theorem captureDedupeKey_read {env : CaptureEnv} (hlaw : env.Lawful) (md5 : String → String)
    {row : SourceRow} (hchecks : row.checks = true) {rawText : String}
    (hraw : row.captureRawText = some rawText) (hblank : strip rawText ≠ "")
    (hloads : jsonLoads (.obj row.metadataJson) = true) :
    (row.read.bind fun source => source.captureDedupeKey { env with md5 := md5 }) =
      some ("capture-md5:" ++ md5 (aliceNormalizeCaptureText rawText
        ++ scopeSuffix "\x1f"
          ({ row with metadataJson := readFields row.metadataJson } : SourceRow).projectScope
        ++ "\x1fdomain:" ++ row.domain ++ "\x1fsensitivity:" ++ row.sensitivity)) := by
  -- the laws of the environment do not speak of the digest
  have hlaw' : CaptureEnv.Lawful { env with md5 := md5 } :=
    ⟨hlaw.uuid_injective, hlaw.casefold_admitted, hlaw.candidate_admitted⟩
  simp only [SourceRow.checks, Bool.and_eq_true, decide_eq_true_eq] at hchecks
  have hdomain := classification_admitted hlaw'
    (List.mem_append_left vnextSensitivityLevels hchecks.1.2)
  have hsensitivity := classification_admitted hlaw'
    (List.mem_append_right vnextDomains hchecks.2)
  have hread : ({ row with metadataJson := readFields row.metadataJson } : SourceRow).captureRawText
      = some rawText := (getStr?_readFields row.metadataJson "raw_text").trans hraw
  rw [SourceRow.read, if_pos hloads, Option.bind_some, SourceRow.captureDedupeKey, hread,
    Option.bind_some, captureDedupeKeyForText, normalizeText_of_ne_empty hblank, Option.map_some,
    hdomain, hsensitivity]

theorem computedKey_eq (md5 : String → String) {row : SourceRow} {rawText : String}
    (hraw : row.captureRawText = some rawText) :
    computedKey md5 row = "capture-md5:" ++ md5 (migratedText rawText row) := by
  obtain ⟨value, hvalue, htext⟩ := Option.bind_eq_some_iff.mp hraw
  cases value with
  | str s =>
    obtain rfl := Option.some.inj htext
    rw [computedKey, hvalue]
  | _ => exact absurd htext (by simp [Json.asStr?])

/-- For every live source that has kept its text, the key of the migration is
that of the runtime if and only if reading the row does not change the projects
of its envelope. -/
theorem migratedKey_agrees_iff (env : CaptureEnv) (hlaw : env.Lawful) (row : SourceRow)
    (hchecks : row.checks = true) (rawText : String)
    (hraw : row.captureRawText = some rawText) (hblank : strip rawText ≠ "") :
    KeysAgree env row ↔ KeepsScope row.metadataJson := by
  have hmigrated := migratedText_eq hchecks rawText
  by_cases hloads : jsonLoads (.obj row.metadataJson) = true
  · -- the keys differ in the suffix of the scope only, whatever the digest is
    have hkeys : KeysAgree env row ↔
        scopeSuffix "\x1f" (resolveSourceMetadataProjectScope row.metadataJson).values =
          scopeSuffix "\x1f"
            (SourceRow.projectScope { row with metadataJson := readFields row.metadataJson }) := by
      constructor
      · intro h
        have h := h id
        rw [captureDedupeKey_read hlaw id hchecks hraw hblank hloads, computedKey_eq id hraw,
          hmigrated] at h
        have h := congrArg String.toList (Option.some.inj h)
        simp only [id, String.toList_append, List.append_assoc, List.append_cancel_left_eq] at h
        rw [List.append_cancel_right_eq] at h
        exact (String.toList_injective h).symm
      · intro h md5
        rw [captureDedupeKey_read hlaw md5 hchecks hraw hblank hloads, computedKey_eq md5 hraw,
          hmigrated, h]
    rw [hkeys]
    -- the scope is read from the aliases unless the canonical fields decide it
    by_cases hdecides : (resolveSourceMetadataProjectScope (readFields row.metadataJson)).decides
    · rw [projectScope_of_decides hdecides]
      exact ⟨fun h => ⟨hloads, fun _ => h, fun hnot => absurd hdecides hnot⟩,
        fun h => h.numbers hdecides⟩
    · rw [projectScope_of_not_decides hdecides]
      exact ⟨fun h => ⟨hloads, fun hyes => absurd hyes hdecides, fun _ => h⟩,
        fun h => h.aliases hdecides⟩
  · -- a row whose metadata cannot be read has no key
    refine iff_of_false (fun h => ?_) fun h => hloads h.loads
    have h := h id
    rw [SourceRow.read, if_neg hloads] at h
    exact absurd h (by simp)

/-! ### Three notes -/

/-- A note with its metadata. -/
def bareNote (metadata : Dict Json) : SourceRow where
  id := "note"
  sourceType := "note"
  title := none
  author := none
  uri := none
  rawPath := none
  contentHash := "hash"
  dedupeKey := none
  capturedAt := "2026-07-14"
  sourceCreatedAt := none
  sourceModifiedAt := none
  connectorName := none
  externalId := none
  domain := "personal"
  sensitivity := "private"
  metadataJson := ("raw_text", .str "A note.") :: metadata
  deletedAt := none

/-- A project with two spellings, once as a number. -/
def plainScope : Dict Json :=
  [("project_scope", .arr [.str " Alpha\tOne ", .arr [.float 7, .bool true], .str "7"])]

/-- As a double the number is one. -/
def finerScope : Dict Json :=
  [("project_scope", .arr [.float (mkRat 100000000000000000001 100000000000000000000)])]

/-- The alias is overridden with nothing. -/
def maskedScope : Dict Json :=
  [("agentic_memory", .obj [("project_id", .str "alpha")]),
    ("metadata_json", .obj [("agentic_memory", .obj [("project_id", .null)])])]

theorem plainScope_keeps : KeysAgree .plain (bareNote plainScope) :=
  (migratedKey_agrees_iff .plain CaptureEnv.plain_lawful (bareNote plainScope) (by decide +kernel)
    "A note." rfl (by decide +kernel)).mpr
    ⟨by decide +kernel, fun _ => by decide +kernel, fun h => absurd (by decide +kernel) h⟩

/-- A number finer than a double gives a project to the runtime alone; so does an
alias that the envelope has overridden. -/
theorem migratedKey_differs : ∃ rawText, strip rawText ≠ "" ∧
    ∀ row ∈ [bareNote finerScope, bareNote maskedScope],
      row.live = true ∧ row.checks = true ∧ row.captureRawText = some rawText ∧
        ¬ KeysAgree .plain row := by
  refine ⟨"A note.", by decide +kernel, fun row hrow => ?_⟩
  rcases List.mem_cons.mp hrow with rfl | hrow
  · refine ⟨rfl, by decide +kernel, rfl, fun h => ?_⟩
    exact absurd (h id) (by decide +kernel)
  · obtain rfl := List.mem_singleton.mp hrow
    refine ⟨rfl, by decide +kernel, rfl, fun h => ?_⟩
    exact absurd (h id) (by decide +kernel)

end AliceBot
