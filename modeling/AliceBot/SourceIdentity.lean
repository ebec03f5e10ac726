import AliceBot.Library.Text
import AliceBot.MemoryStore
import AliceBot.ProjectScope

/-!
# The identity of a captured source

A capture is answered "duplicate" when a live source holds the same evidence
for the same projects under the same classification. Three texts stand for
that identity (`vnext_capture`):

* `captureDedupeKeyForText`, from the request, and recomputed out of a stored
  row by `captureDedupeKeyForSource`;
* `contentHashForText`, the public one, which leaves the classification out;
* the memory key of each candidate read from the text.

The first two join free texts with separators and hash the result, and both
are asked for the projects separately: of the request by its
`project_scope`, of a row by `sourceProjectScope` on its stored metadata.
`sourceCaptureIdentityMatches` is the comparison made before a row is
answered.
-/

namespace AliceBot

open PyLib

/-! ### What a capture reads from outside -/

/-- A store call that raises, before it has written or after. -/
inductive Fault where
  | before
  | after
deriving DecidableEq, Repr

/-- What `_candidate_from_line` reads from one line. -/
structure LineCandidate where
  text : String
  memoryType : String
  confidence : Rat
  extractionRule : String
  /-- `provenance_role`, with the assertion class. -/
  provenance : Option (String × String) := none
deriving DecidableEq

/-- What a capture reads beside its request and the store. -/
structure CaptureEnv where
  /-- `str.casefold`. -/
  casefold : String → String
  /-- `md5(text.encode("utf-8")).hexdigest()`. -/
  md5 : String → String
  /-- `sha256(text.encode("utf-8")).hexdigest()`. -/
  sha256 : String → String
  /-- `str(uuid4())`. -/
  uuid : Nat → String
  /-- `datetime.now(UTC)`. -/
  now : Nat → UtcMoment
  /-- `datetime.fromisoformat`, where it does not raise. -/
  fromisoformat : String → Option PyDateTime
  /-- `chunk_text`, where the bound is not refused. -/
  chunkText : String → Nat → List String
  /-- `_candidate_from_line`. -/
  candidateFromLine : String → Option LineCandidate
  /-- The store calls that raise. -/
  fault : Nat → Option Fault := fun _ => none

/-- What the language and the rules of `_candidate_from_line` promise. -/
structure CaptureEnv.Lawful (env : CaptureEnv) : Prop where
  uuid_injective : Function.Injective env.uuid
  /-- A domain or a level is in small letters. -/
  casefold_admitted : ∀ value ∈ vnextDomains ++ vnextSensitivityLevels, env.casefold value = value
  candidate_admitted : ∀ {line candidate}, env.candidateFromLine line = some candidate →
    candidate.memoryType ∈ vnextMemoryTypes ∧ 0 ≤ candidate.confidence ∧ candidate.confidence ≤ 1

/-- A digest for examples. -/
def checksum (text : String) : String :=
  toString (text.toList.foldl (fun h c => (h * 131 + c.toNat) % 10 ^ 16) 7)

/-- A capture that reads one candidate rule and stores a text as one chunk. -/
def CaptureEnv.plain : CaptureEnv :=
  { casefold := asciiLower
    md5 := checksum
    sha256 := checksum
    uuid := fun n => String.ofList (List.replicate n 'i')
    now := fun _ => noon
    fromisoformat := fun _ => none
    chunkText := fun text _ => [text]
    candidateFromLine := fun line =>
      if startsWith line "decision:" then
        some { text := strip (removePrefix line "decision:")
               memoryType := "decision"
               confidence := 86 / 100
               extractionRule := "prefixed_decision" }
      else none }

theorem CaptureEnv.plain_lawful : CaptureEnv.plain.Lawful where
  uuid_injective := by
    intro m n h
    have hlength : (CaptureEnv.plain.uuid m).length = (CaptureEnv.plain.uuid n).length :=
      congrArg String.length h
    simpa [CaptureEnv.plain] using hlength
  casefold_admitted := by decide +kernel
  candidate_admitted := by
    intro line candidate h
    simp only [CaptureEnv.plain] at h
    split at h
    · obtain rfl := Option.some.inj h
      exact ⟨show "decision" ∈ vnextMemoryTypes by decide,
        show (0 : Rat) ≤ 86 / 100 by decide +kernel, show (86 / 100 : Rat) ≤ 1 by decide +kernel⟩
    · exact absurd h (by simp)

variable (env : CaptureEnv)

/-! ### The text -/

/-- `normalize_text`: universal newlines, stripped; a blank text is refused. -/
def normalizeText (rawText : String) : Option String :=
  let normalized := strip (replaceAll (replaceAll rawText "\r\n" "\n") "\r" "\n")
  if normalized = "" then none else some normalized

/-- A text that is not blank has a normal form. -/
theorem normalizeText_of_not_blank {rawText : String} (h : strip rawText ≠ "") :
    normalizeText rawText =
      some (strip (replaceAll (replaceAll rawText "\r\n" "\n") "\r" "\n")) := by
  obtain ⟨c, hc, hspace⟩ := exists_of_strip_ne_empty h
  -- neither replacement takes a character that is not white space
  have hbreaks : ∀ old : List Char, (∀ x ∈ old, isSpace x = true) → c ∉ old := by
    intro old hold hmem
    rw [hold c hmem] at hspace
    exact Bool.false_ne_true hspace.symm
  have hpair : ("\r\n" : String).toList = ['\r', '\n'] := by decide
  have hreturn : ("\r" : String).toList = ['\r'] := by decide
  have hspaces : ∀ x ∈ ['\r', '\n'], isSpace x = true :=
    List.forall_mem_cons.mpr ⟨by decide, List.forall_mem_singleton.mpr (by decide)⟩
  have hnewlines : c ∈ (replaceAll rawText "\r\n" "\n").toList :=
    mem_replaceAll hpair (hbreaks ['\r', '\n'] hspaces) hc
  have hreturns : c ∈ (replaceAll (replaceAll rawText "\r\n" "\n") "\r" "\n").toList :=
    mem_replaceAll hreturn (hbreaks ['\r'] (List.forall_mem_singleton.mpr (by decide))) hnewlines
  simp only [normalizeText]
  rw [if_neg (strip_ne_empty hreturns hspace)]

/-- A normalised text is its own normal form. -/
theorem normalizeText_normalized {rawText normalized : String}
    (h : normalizeText rawText = some normalized) : normalizeText normalized = some normalized := by
  simp only [normalizeText] at h
  split at h
  · exact absurd h (by simp)
  · next hblank =>
    obtain rfl := Option.some.inj h
    generalize hraw : replaceAll rawText "\r\n" "\n" = newlines at hblank ⊢
    -- no carriage return is left for either replacement
    have hnone : '\r' ∉ (strip (replaceAll newlines "\r" "\n")).toList := by
      intro hmem
      have hmem := mem_of_mem_strip hmem
      rw [replaceAll, String.toList_ofList] at hmem
      exact notMem_replaceScan (by decide) _ hmem
    rw [normalizeText, replaceAll_of_notMem rfl hnone, replaceAll_of_notMem rfl hnone, strip_strip]
    exact if_neg hblank

/-- A normalised text is stripped, and not blank. -/
theorem strip_normalized {rawText normalized : String}
    (h : normalizeText rawText = some normalized) : strip normalized = normalized ∧
      normalized ≠ "" := by
  simp only [normalizeText] at h
  split at h
  · exact absurd h (by simp)
  · next hblank =>
    obtain rfl := Option.some.inj h
    exact ⟨strip_strip _, hblank⟩

/-! ### The encoders -/

/-- The identity of a scope, joined behind a separator; nothing for no scope. -/
def scopeSuffix (separator : String) (projectScope : List String) : String :=
  match projectScopeIdentity (.strs projectScope) with
  | [] => ""
  | scope => separator ++ "project_scope:" ++ separator.intercalate scope

/-- `content_hash_for_text`. -/
def contentHashForText (rawText : String) (projectScope : List String) : Option String :=
  (normalizeText rawText).map fun normalized =>
    "sha256:" ++ env.sha256 (normalized ++ scopeSuffix "\x00" projectScope)

/-- `str(value or "unknown").strip().casefold()`. -/
def classification (value : String) : String :=
  env.casefold (strip (if value = "" then "unknown" else value))

/-- An admitted domain or level is its own classification. -/
theorem classification_admitted {env : CaptureEnv} (hlaw : env.Lawful) {value : String}
    (h : value ∈ vnextDomains ++ vnextSensitivityLevels) : classification env value = value := by
  have hplain : ∀ v ∈ vnextDomains ++ vnextSensitivityLevels,
      strip (if v = "" then "unknown" else v) = v := by
    decide +kernel
  rw [classification, hplain value h, hlaw.casefold_admitted value h]

/-- `capture_dedupe_key_for_text`, with the classification supplied. -/
def captureDedupeKeyForText (rawText : String) (projectScope : List String)
    (domain sensitivity : String) : Option String :=
  (normalizeText rawText).map fun normalized =>
    "capture-md5:" ++ env.md5 (normalized ++ scopeSuffix "\x1f" projectScope
      ++ "\x1fdomain:" ++ classification env domain
      ++ "\x1fsensitivity:" ++ classification env sensitivity)

/-! ### Source rows -/

/-- The columns of a row of `sources`. -/
structure SourceRow where
  id : String
  sourceType : String
  title : Option String
  author : Option String
  uri : Option String
  rawPath : Option String
  contentHash : String
  dedupeKey : Option String
  capturedAt : String
  sourceCreatedAt : Option String
  sourceModifiedAt : Option String
  connectorName : Option String
  externalId : Option String
  domain : String
  sensitivity : String
  metadataJson : Dict Json
  deletedAt : Option String
deriving DecidableEq

namespace SourceRow

/-- The `CHECK` constraints of `sources`. -/
def checks (row : SourceRow) : Bool :=
  decide (1 ≤ row.sourceType.length) && decide (row.sourceType.length ≤ 120)
    && decide (1 ≤ row.contentHash.length) && decide (row.contentHash.length ≤ 200)
    && row.dedupeKey.all (fun key => decide (1 ≤ key.length) && decide (key.length ≤ 200))
    && decide (row.domain ∈ vnextDomains) && decide (row.sensitivity ∈ vnextSensitivityLevels)

/-- `deleted_at IS NULL`. -/
def live (row : SourceRow) : Bool := row.deletedAt.isNone

/-- `source_project_scope` of the row. -/
def projectScope (row : SourceRow) : List String :=
  sourceProjectScope [("metadata_json", .obj row.metadataJson)]

/-- The projects the row names. -/
def scopeIdentity (row : SourceRow) : List String :=
  projectScopeIdentity (.strs row.projectScope)

/-- `source_capture_raw_text`. -/
def captureRawText (row : SourceRow) : Option String := row.metadataJson.getStr? "raw_text"

/-- The normalised text the row preserves. -/
def text (row : SourceRow) : Option String := row.captureRawText.bind normalizeText

/-- `capture_dedupe_key_for_source`. -/
def captureDedupeKey (row : SourceRow) : Option String :=
  row.captureRawText.bind fun rawText =>
    captureDedupeKeyForText env rawText row.projectScope row.domain row.sensitivity

/-- `capture_content_hash_for_source`. -/
def captureContentHash (row : SourceRow) : Option String :=
  row.captureRawText.bind fun rawText => contentHashForText env rawText row.projectScope

end SourceRow

/-- `source_capture_identity_matches`. No hash to compare with stands for any
hash. -/
def sourceCaptureIdentityMatches (source : SourceRow) (contentHashes : List String)
    (projectScope : List String) (domain sensitivity : String) : Bool :=
  let expectedHashes := contentHashes.filter (· ≠ "")
  (expectedHashes.isEmpty || decide (source.contentHash ∈ expectedHashes))
    && decide (source.scopeIdentity = projectScopeIdentity (.strs projectScope))
    && decide (classification env source.domain = classification env domain)
    && decide (classification env source.sensitivity = classification env sensitivity)

end AliceBot
