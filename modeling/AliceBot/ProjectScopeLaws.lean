import AliceBot.Library.AsciiCase
import AliceBot.ProjectScope
import Mathlib.Data.String.Basic

/-!
# What a project scope means

The identity of a scope is a set of projects. It does not see how the scope is written
(`ScopeVariant`): in what order and how often the entries are listed, how deep they are
nested, which blanks separate the words of one, how a number is spelled. Letter case is not
seen either in an entry of ASCII characters; an entry with any other character is compared
exactly (`projectScopeIdentity_of_variant`, `letterCase_beyond_ascii`).

A `project_scope` key is authoritative where it is present: what the aliases around it say is
never read (`resolveProjectScope_of_canonical`).
-/

namespace AliceBot

open PyLib

/-! ### Spellings of one scope -/

/-- Only the white space of project identifiers. -/
def Blank (spaces : List Char) : Prop := ∀ c ∈ spaces, c ∈ asciiProjectWhitespace

/-- Two values that write one scope. -/
inductive ScopeVariant : Json → Json → Prop where
  | refl (value : Json) : ScopeVariant value value
  | symm {value other : Json} (h : ScopeVariant value other) : ScopeVariant other value
  | trans {value other third : Json} (h : ScopeVariant value other)
      (h' : ScopeVariant other third) : ScopeVariant value third
  /-- The entries in another order. -/
  | perm {items items' : List Json} (h : items.Perm items') :
      ScopeVariant (.arr items) (.arr items')
  /-- An entry that is listed again. -/
  | again {item : Json} {items : List Json} (h : item ∈ items) :
      ScopeVariant (.arr (item :: items)) (.arr items)
  /-- Entries in a sequence of their own. -/
  | nested (inner rest : List Json) :
      ScopeVariant (.arr (.arr inner :: rest)) (.arr (inner ++ rest))
  | single (value : Json) : ScopeVariant (.arr [value]) value
  /-- Another spelling of one entry. -/
  | entry {value other : Json} (h : ScopeVariant value other) (rest : List Json) :
      ScopeVariant (.arr (value :: rest)) (.arr (other :: rest))
  /-- An integral number, however it is written. -/
  | number {q : Rat} (h : q.den = 1) : ScopeVariant (.float q) (.int q.num)
  | digits (n : Int) : ScopeVariant (.int n) (.str (toString n))
  /-- Letter case, where every character is ASCII. -/
  | letterCase {text other : String} (hascii : isAscii text = true)
      (h : asciiLower text = asciiLower other) : ScopeVariant (.str text) (.str other)
  /-- Other white space between the same characters. -/
  | spaces (before after : List Char) {gap other : List Char} (hgap : Blank gap)
      (hother : Blank other) (hne : gap ≠ []) (hne' : other ≠ []) :
      ScopeVariant (.str (String.ofList (before ++ gap ++ after)))
        (.str (String.ofList (before ++ other ++ after)))
  | leading {gap : List Char} (hgap : Blank gap) (text : List Char) :
      ScopeVariant (.str (String.ofList (gap ++ text))) (.str (String.ofList text))
  | trailing (text : List Char) {gap : List Char} (hgap : Blank gap) :
      ScopeVariant (.str (String.ofList (text ++ gap))) (.str (String.ofList text))

/-! ### White space -/

/-- After white space a separator is owed behind what was kept. -/
theorem foldl_push_blank {gap : List Char} (hgap : Blank gap) (hne : gap ≠ [])
    (st : NormalizeState) :
    gap.foldl NormalizeState.push st = { st with pendingSpace := !st.normalized.isEmpty } := by
  induction gap generalizing st with
  | nil => exact absurd rfl hne
  | cons c gap ih =>
    have hpush : NormalizeState.push st c = { st with pendingSpace := !st.normalized.isEmpty } :=
      if_pos (hgap c List.mem_cons_self)
    rw [List.foldl_cons, hpush]
    by_cases hmore : gap = []
    · rw [hmore, List.foldl_nil]
    · rw [ih (fun c hc => hgap c (List.mem_cons_of_mem _ hc)) hmore]

/-- The normal form of a text. -/
theorem normalizeProjectIdentifier_ofList (text : List Char) :
    normalizeProjectIdentifier (.str (String.ofList text)) =
      String.ofList (text.foldl NormalizeState.push {}).normalized := by
  rw [normalizeProjectIdentifier, projectScalarText]
  simp only [String.toList_ofList]

theorem normalize_spaces (before after : List Char) {gap other : List Char} (hgap : Blank gap)
    (hother : Blank other) (hne : gap ≠ []) (hne' : other ≠ []) :
    normalizeProjectIdentifier (.str (String.ofList (before ++ gap ++ after))) =
      normalizeProjectIdentifier (.str (String.ofList (before ++ other ++ after))) := by
  rw [normalizeProjectIdentifier_ofList, normalizeProjectIdentifier_ofList]
  simp only [List.foldl_append, foldl_push_blank hgap hne, foldl_push_blank hother hne']

theorem normalize_leading {gap : List Char} (hgap : Blank gap) (text : List Char) :
    normalizeProjectIdentifier (.str (String.ofList (gap ++ text))) =
      normalizeProjectIdentifier (.str (String.ofList text)) := by
  rw [normalizeProjectIdentifier_ofList, normalizeProjectIdentifier_ofList, List.foldl_append]
  by_cases hne : gap = []
  · rw [hne, List.foldl_nil]
  · rw [foldl_push_blank hgap hne]
    rfl

theorem normalize_trailing (text : List Char) {gap : List Char} (hgap : Blank gap) :
    normalizeProjectIdentifier (.str (String.ofList (text ++ gap))) =
      normalizeProjectIdentifier (.str (String.ofList text)) := by
  rw [normalizeProjectIdentifier_ofList, normalizeProjectIdentifier_ofList, List.foldl_append]
  by_cases hne : gap = []
  · rw [hne, List.foldl_nil]
  · rw [foldl_push_blank hgap hne]

/-! ### Letter case -/

/-- Case does not make or remove white space. -/
theorem mem_whitespace_asciiLowerChar (c : Char) :
    asciiLowerChar c ∈ asciiProjectWhitespace ↔ c ∈ asciiProjectWhitespace :=
  asciiLowerChar_cases
    (P := fun c lower => lower ∈ asciiProjectWhitespace ↔ c ∈ asciiProjectWhitespace)
    (by decide) (fun _ => Iff.rfl) c

/-- The state of the loop, without case. -/
def NormalizeState.lower (st : NormalizeState) : NormalizeState :=
  { st with normalized := st.normalized.map asciiLowerChar }

theorem push_lower (st : NormalizeState) (c : Char) :
    NormalizeState.push st.lower (asciiLowerChar c) = (NormalizeState.push st c).lower := by
  unfold NormalizeState.push
  simp only [mem_whitespace_asciiLowerChar]
  split
  · simp only [NormalizeState.lower, List.isEmpty_map]
  · have hspace : asciiLowerChar ' ' = ' ' := by decide
    by_cases howed : st.pendingSpace = true
    · simp [NormalizeState.lower, howed, hspace]
    · simp [NormalizeState.lower, howed]

theorem foldl_push_lower (text : List Char) (st : NormalizeState) :
    (text.map asciiLowerChar).foldl NormalizeState.push st.lower =
      (text.foldl NormalizeState.push st).lower := by
  induction text generalizing st with
  | nil => rfl
  | cons c text ih => rw [List.map_cons, List.foldl_cons, List.foldl_cons, push_lower, ih]

/-- Normalising and lowering commute. -/
theorem normalize_asciiLower (text : String) :
    normalizeProjectIdentifier (.str (asciiLower text)) =
      asciiLower (normalizeProjectIdentifier (.str text)) := by
  have hlower := foldl_push_lower text.toList {}
  obtain ⟨l, rfl⟩ : ∃ l, text = String.ofList l := ⟨text.toList, (String.ofList_toList).symm⟩
  rw [asciiLower, normalizeProjectIdentifier_ofList, normalizeProjectIdentifier_ofList, asciiLower,
    String.toList_ofList, String.toList_ofList]
  rw [String.toList_ofList] at hlower
  exact congrArg (fun st => String.ofList (NormalizeState.normalized st)) hlower

/-- Only ASCII characters are kept of an ASCII text. -/
theorem isAscii_normalize {text : String} (h : isAscii text = true) :
    isAscii (normalizeProjectIdentifier (.str text)) = true := by
  obtain ⟨l, rfl⟩ : ∃ l, text = String.ofList l := ⟨text.toList, (String.ofList_toList).symm⟩
  rw [normalizeProjectIdentifier_ofList, isAscii, String.toList_ofList, List.all_eq_true]
  rw [isAscii, String.toList_ofList, List.all_eq_true] at h
  suffices hkept : ∀ l : List Char, (∀ c ∈ l, decide (c.toNat < 128) = true) →
      ∀ st : NormalizeState, (∀ c ∈ st.normalized, decide (c.toNat < 128) = true) →
        ∀ c ∈ (l.foldl NormalizeState.push st).normalized, decide (c.toNat < 128) = true from
    hkept l h {} (List.forall_mem_nil _)
  intro l
  induction l with
  | nil => exact fun _ st hst => hst
  | cons c l ih =>
    intro hl st hst
    obtain ⟨hc, hrest⟩ := List.forall_mem_cons.mp hl
    refine ih hrest _ ?_
    unfold NormalizeState.push
    split
    · exact hst
    · split
      · refine List.forall_mem_append.mpr ⟨hst, ?_⟩
        exact List.forall_mem_cons.mpr ⟨by decide, List.forall_mem_singleton.mpr hc⟩
      · exact List.forall_mem_append.mpr ⟨hst, List.forall_mem_singleton.mpr hc⟩

/-! ### Identities -/

/-- An identity is known by its members. -/
theorem projectScopeIdentity_congr {value other : Json}
    (h : ∀ x, x ∈ projectScopeIdentity value ↔ x ∈ projectScopeIdentity other) :
    projectScopeIdentity value = projectScopeIdentity other := by
  have hnodup : ∀ value : Json, (projectScopeIdentity value).Nodup := fun value =>
    (List.perm_insertionSort _ _).nodup_iff.mpr (List.nodup_dedup _)
  have hperm := (List.perm_ext_iff_of_nodup (hnodup value) (hnodup other)).mpr h
  exact hperm.eq_of_pairwise (fun _ _ _ _ => le_antisymm) (List.pairwise_insertionSort _ _)
    (List.pairwise_insertionSort _ _)

/-- The identity of one text. -/
theorem mem_projectScopeIdentity_str {text x : String} :
    x ∈ projectScopeIdentity (.str text) ↔ normalizeProjectIdentifier (.str text) ≠ "" ∧
      projectIdentifierIdentity (.str text) = x := by
  have hsame : projectIdentifierIdentity (.str (normalizeProjectIdentifier (.str text))) =
      projectIdentifierIdentity (.str text) := by
    rw [projectIdentifierIdentity, normalizeProjectIdentifier_normalized]
    rfl
  rw [mem_projectScopeIdentity]
  simp only [scopeItems, projectScalarText, Option.isSome_some, true_and]
  split
  case isTrue h => simp [h, hsame]
  case isFalse h => simp [h]

/-- Texts with one normal form name one project. -/
theorem projectScopeIdentity_of_normalize {text other : String}
    (h : normalizeProjectIdentifier (.str text) = normalizeProjectIdentifier (.str other)) :
    projectScopeIdentity (.str text) = projectScopeIdentity (.str other) := by
  rw [← projectScopeIdentity_normalized text, h, projectScopeIdentity_normalized]

/-- ASCII texts that differ in case name one project. -/
theorem projectScopeIdentity_of_asciiLower {text other : String} (hascii : isAscii text = true)
    (h : asciiLower text = asciiLower other) :
    projectScopeIdentity (.str text) = projectScopeIdentity (.str other) := by
  have hother : isAscii other = true := by
    rw [← isAscii_asciiLower, ← h, isAscii_asciiLower, hascii]
  have hidentity : ∀ {t : String}, isAscii t = true →
      projectIdentifierIdentity (.str t) = normalizeProjectIdentifier (.str (asciiLower t)) := by
    intro t ht
    rw [normalize_asciiLower]
    exact if_pos (isAscii_normalize ht)
  have hblank : ∀ {t : String}, normalizeProjectIdentifier (.str t) = "" ↔
      normalizeProjectIdentifier (.str (asciiLower t)) = "" := by
    intro t
    rw [normalize_asciiLower, asciiLower_eq_empty]
  refine projectScopeIdentity_congr fun x => ?_
  rw [mem_projectScopeIdentity_str, mem_projectScopeIdentity_str, hidentity hascii,
    hidentity hother, h, Ne, hblank, h, ← hblank]

/-- A scope is not seen through its spelling. -/
theorem projectScopeIdentity_of_variant {value other : Json} (h : ScopeVariant value other) :
    projectScopeIdentity value = projectScopeIdentity other := by
  -- by the rule of spelling: order and repetition first, then nesting, then one entry
  induction h with
  | refl => rfl
  | symm _ ih => exact ih.symm
  | trans _ _ ih ih' => exact ih.trans ih'
  | perm h =>
    refine projectScopeIdentity_congr fun x => ?_
    simp only [mem_projectScopeIdentity_arr, h.mem_iff]
  | again h =>
    refine projectScopeIdentity_congr fun x => ?_
    simp only [mem_projectScopeIdentity_arr, List.mem_cons]
    constructor
    · rintro ⟨v, hv, hx⟩
      exact ⟨v, hv.elim (fun heq => heq ▸ h) id, hx⟩
    · rintro ⟨v, hv, hx⟩
      exact ⟨v, Or.inr hv, hx⟩
  | nested inner rest =>
    rw [projectScopeIdentity, projectScopeIdentity, normalizeProjectScope, normalizeProjectScope]
    simp only [scopeItems, scopeItemsOfList_eq, List.flatMap_cons, List.flatMap_append]
  | single value => exact projectScopeIdentity_congr fun x => mem_projectScopeIdentity_singleton
  | entry _ rest ih =>
    refine projectScopeIdentity_congr fun x => ?_
    simp only [mem_projectScopeIdentity_arr, List.exists_mem_cons_iff, ih]
  | number h =>
    rw [projectScopeIdentity, projectScopeIdentity, normalizeProjectScope, normalizeProjectScope]
    simp only [scopeItems, normalizeProjectIdentifier, projectScalarText, if_pos h]
    rfl
  | digits n => rfl
  | letterCase hascii h => exact projectScopeIdentity_of_asciiLower hascii h
  | spaces before after hgap hother hne hne' =>
    exact projectScopeIdentity_of_normalize (normalize_spaces before after hgap hother hne hne')
  | leading hgap text => exact projectScopeIdentity_of_normalize (normalize_leading hgap text)
  | trailing text hgap => exact projectScopeIdentity_of_normalize (normalize_trailing text hgap)

/-- A member of an identity is its own normal form and its own identity. -/
theorem identity_of_mem {value : Json} {x : String} (h : x ∈ projectScopeIdentity value) :
    x ≠ "" ∧ normalizeProjectIdentifier (.str x) = x ∧ projectIdentifierIdentity (.str x) = x := by
  obtain ⟨item, hitem, hx⟩ := mem_projectScopeIdentity.mp h
  obtain ⟨hne, hnormal⟩ := normal_of_mem_scopeItems hitem
  simp only [projectIdentifierIdentity, hnormal] at hx
  split at hx
  case isTrue hascii =>
    subst hx
    have hlower := normalize_asciiLower item
    rw [hnormal] at hlower
    refine ⟨mt asciiLower_eq_empty.mp hne, hlower, ?_⟩
    simp only [projectIdentifierIdentity, hlower, isAscii_asciiLower, asciiLower_asciiLower,
      ite_self]
  case isFalse hascii =>
    subst hx
    refine ⟨hne, hnormal, ?_⟩
    simp only [projectIdentifierIdentity, hnormal, if_neg hascii]

/-- An identity is the identity of its own members. -/
theorem projectScopeIdentity_identity (value : Json) :
    projectScopeIdentity (.strs (projectScopeIdentity value)) = projectScopeIdentity value := by
  refine projectScopeIdentity_congr fun x => ?_
  simp only [Json.strs, mem_projectScopeIdentity_arr, List.mem_map]
  constructor
  · rintro ⟨_, ⟨y, hy, rfl⟩, hx⟩
    obtain ⟨_, hidentity⟩ := mem_projectScopeIdentity_str.mp hx
    rw [← hidentity, (identity_of_mem hy).2.2]
    exact hy
  · intro hx
    obtain ⟨hne, hnormal, hidentity⟩ := identity_of_mem hx
    refine ⟨.str x, ⟨x, hx, rfl⟩, mem_projectScopeIdentity_str.mpr ⟨?_, hidentity⟩⟩
    rw [hnormal]
    exact hne

/-- `project_scopes_overlap`. -/
def projectScopesOverlap (resourceScope requestedScope : Json) : Bool :=
  let requested := projectScopeIdentity requestedScope
  !requested.isEmpty && requested.any fun x => decide (x ∈ projectScopeIdentity resourceScope)

/-- Scopes overlap when they have a project in common. -/
theorem projectScopesOverlap_iff {resourceScope requestedScope : Json} :
    projectScopesOverlap resourceScope requestedScope = true ↔
      ∃ x ∈ projectScopeIdentity resourceScope, x ∈ projectScopeIdentity requestedScope := by
  rw [projectScopesOverlap, Bool.and_eq_true, List.any_eq_true]
  constructor
  · rintro ⟨_, x, hrequested, hx⟩
    exact ⟨x, of_decide_eq_true hx, hrequested⟩
  · rintro ⟨x, hx, hrequested⟩
    refine ⟨?_, x, hrequested, decide_eq_true hx⟩
    rw [Bool.not_eq_true', List.isEmpty_eq_false_iff]
    exact List.ne_nil_of_mem hrequested

/-! ### The authoritative key -/

/-- The value of the `project_scope` key: at the root, failing that in `metadata_json`, and
then in `scope_json`. -/
def canonicalProjectScope (resource : Dict Json) : Option Json :=
  (resource.get? "project_scope").or <|
    (((resource.item "metadata_json").asObj?.bind fun c => Dict.get? c "project_scope")).or <|
      (resource.item "scope_json").asObj?.bind fun c => Dict.get? c "project_scope"

/-- Of the containers the metadata comes before the scope record. -/
theorem findSome?_containers (resource : Dict Json) :
    (scopeContainers resource).findSome? (fun c => c.get? "project_scope") =
      (((resource.item "metadata_json").asObj?.bind fun c => Dict.get? c "project_scope")).or
        ((resource.item "scope_json").asObj?.bind fun c => Dict.get? c "project_scope") := by
  -- a container that is no object is passed over
  have hread : ∀ keys : List String,
      (keys.filterMap fun key => (resource.item key).asObj?).findSome?
        (fun c => c.get? "project_scope") = keys.findSome? fun key =>
          (resource.item key).asObj?.bind fun c => Dict.get? c "project_scope" := by
    intro keys
    induction keys with
    | nil => rfl
    | cons key keys ih =>
      rw [List.filterMap_cons, List.findSome?_cons, ← ih]
      cases (resource.item key).asObj? with
      | none => rfl
      | some c => rw [List.findSome?_cons, Option.bind_some]
  rw [scopeContainers, hread, List.findSome?_cons, List.findSome?_cons, List.findSome?_nil]
  cases (resource.item "metadata_json").asObj?.bind fun c => Dict.get? c "project_scope" with
  | some value => rfl
  | none =>
    cases (resource.item "scope_json").asObj?.bind fun c => Dict.get? c "project_scope" with
    | some value => rfl
    | none => rfl

/-- The key decides where it is present. -/
theorem resolveProjectScope_of_canonical {resource : Dict Json} {value : Json}
    (h : canonicalProjectScope resource = some value) :
    resolveProjectScope resource = ⟨true, canonicalValues value⟩ := by
  rw [canonicalProjectScope, ← findSome?_containers] at h
  rw [resolveProjectScope]
  cases hroot : resource.get? "project_scope" with
  | some root =>
    rw [hroot] at h
    obtain rfl : root = value := Option.some.inj h
    rfl
  | none =>
    rw [hroot, Option.none_or] at h
    simp only [h]

/-- The keys that are read where no `project_scope` key is present. -/
def legacyScopeKeys : List String :=
  ["project_id", "project", "projects", "agentic_memory", "agent_identity"]

/-- The same mapping, apart from those keys. -/
def SameButLegacy (d d' : Dict Json) : Prop := ∀ key ∉ legacyScopeKeys, d.get? key = d'.get? key

/-- The same resource, apart from those keys at the root and in its containers. -/
structure LegacyChange (resource changed : Dict Json) : Prop where
  root : ∀ key ∉ legacyScopeKeys, key ∉ ["metadata_json", "scope_json"] →
    resource.get? key = changed.get? key
  containers : ∀ key ∈ ["metadata_json", "scope_json"], resource.get? key = changed.get? key ∨
    ∃ c c', resource.get? key = some (.obj c) ∧ changed.get? key = some (.obj c') ∧
      SameButLegacy c c'

theorem LegacyChange.canonical {resource changed : Dict Json} (h : LegacyChange resource changed) :
    canonicalProjectScope resource = canonicalProjectScope changed := by
  have hcontainer : ∀ key ∈ ["metadata_json", "scope_json"],
      ((resource.item key).asObj?.bind fun c => Dict.get? c "project_scope") =
        (changed.item key).asObj?.bind fun c => Dict.get? c "project_scope" := by
    intro key hkey
    obtain hsame | ⟨c, c', hc, hc', hsame⟩ := h.containers key hkey
    · rw [Dict.item, Dict.item, hsame]
    · rw [Dict.item, Dict.item, hc, hc']
      exact hsame "project_scope" (by decide)
  rw [canonicalProjectScope, canonicalProjectScope, h.root "project_scope" (by decide) (by decide),
    hcontainer _ (by decide), hcontainer _ (by decide)]

/-! ### Beyond ASCII -/

/-- In an entry with a character outside ASCII letter case is kept. -/
theorem letterCase_beyond_ascii :
    asciiLower "É A" = asciiLower "É a" ∧
      projectScopeIdentity (.str "É A") ≠ projectScopeIdentity (.str "É a") := by
  decide +kernel

/-- **Project scopes are canonical, and presence is authoritative.** -/
theorem projectScope_canonical :
    (∀ value : Json, normalizeProjectIdentifier (.str (normalizeProjectIdentifier value)) =
      normalizeProjectIdentifier value) ∧
    (∀ value : Json, projectScopeIdentity (.strs (projectScopeIdentity value)) =
      projectScopeIdentity value) ∧
    (∀ value other : Json, ScopeVariant value other →
      projectScopeIdentity value = projectScopeIdentity other) ∧
    (∀ resourceScope requestedScope : Json,
      projectScopesOverlap resourceScope requestedScope = true ↔
        ∃ x ∈ projectScopeIdentity resourceScope, x ∈ projectScopeIdentity requestedScope) ∧
    ∀ (resource : Dict Json) (value : Json), canonicalProjectScope resource = some value →
      resolveProjectScope resource = ⟨true, canonicalValues value⟩ ∧
      ∀ changed : Dict Json, LegacyChange resource changed →
        resolveProjectScope changed = resolveProjectScope resource := by
  refine ⟨normalizeProjectIdentifier_normalized, projectScopeIdentity_identity,
    fun _ _ => projectScopeIdentity_of_variant, fun _ _ => projectScopesOverlap_iff,
    fun resource value h => ⟨resolveProjectScope_of_canonical h, fun changed hchange => ?_⟩⟩
  rw [resolveProjectScope_of_canonical h,
    resolveProjectScope_of_canonical (hchange.canonical.symm.trans h)]

end AliceBot
