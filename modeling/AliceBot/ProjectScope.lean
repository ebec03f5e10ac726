import AliceBot.Library.Json
import AliceBot.Library.Text
import Mathlib.Data.List.Dedup
import Mathlib.Data.List.Induction
import Mathlib.Data.List.Sort

/-!
# Project scopes

The comparison of project scopes shared by every store and policy
(`vnext_project_scope`). A scope is a set of project identifiers written as a
list. Two spellings of one project are identified in two steps:

* `normalizeProjectIdentifier` collapses the six ASCII whitespace characters
  to single inner spaces and leaves every other code point alone;
* `projectIdentifierIdentity` then drops ASCII case, provided nothing outside
  ASCII is left.

An identifier may collapse to nothing, and then it disappears from
`projectScopeIdentity`. A list of blank identifiers is therefore a non-empty
list with an empty identity, which is the gap between "was a scope given"
(asked of the list) and "what does it name" (asked of the identity).

`resolveProjectScope` finds the scope a stored resource carries: canonical
`project_scope` keys first, then the nested and the singular aliases.
-/

namespace AliceBot

open PyLib

/-! ### One identifier -/

/-- `_project_scalar_text`: the spelling a JSON scalar has as a project id.
Numbers count only when they are integral, and then by their decimal digits. -/
def projectScalarText : Json → Option String
  | .str s => some s
  | .bool b => some (if b then "True" else "False")
  | .int n => some (toString n)
  | .float q => if q.den = 1 then some (toString q.num) else none
  | .null | .arr _ | .obj _ => none

/-- `_ASCII_PROJECT_WHITESPACE`. -/
def asciiProjectWhitespace : List Char :=
  [' ', '\t', '\n', '\r', Char.ofNat 0x0C, Char.ofNat 0x0B]

/-- The loop state of `normalize_project_identifier`: the characters kept so
far, and whether a separator is owed before the next one. -/
structure NormalizeState where
  normalized : List Char := []
  pendingSpace : Bool := false

/-- One iteration of the loop of `normalize_project_identifier`. -/
def NormalizeState.push (st : NormalizeState) (c : Char) : NormalizeState :=
  if c ∈ asciiProjectWhitespace then
    { st with pendingSpace := !st.normalized.isEmpty }
  else if st.pendingSpace then
    { normalized := st.normalized ++ [' ', c], pendingSpace := false }
  else
    { st with normalized := st.normalized ++ [c] }

/-- `normalize_project_identifier`. -/
def normalizeProjectIdentifier (value : Json) : String :=
  match projectScalarText value with
  | none => ""
  | some scalar =>
    String.ofList (scalar.toList.foldl NormalizeState.push {}).normalized

/-- `project_identifier_identity`: ASCII identifiers compare without case, the
others exactly. -/
def projectIdentifierIdentity (value : Json) : String :=
  let normalized := normalizeProjectIdentifier value
  if isAscii normalized then asciiLower normalized else normalized

/-! ### Scopes as sets of identifiers -/

mutual
/-- The values `normalize_project_scope` collects from one value: a scalar
contributes its normal form unless that is empty, a sequence everything its
items contribute. -/
def scopeItems : Json → List String
  | .arr items => scopeItemsOfList items
  | value =>
    if (projectScalarText value).isSome ∧ normalizeProjectIdentifier value ≠ "" then
      [normalizeProjectIdentifier value]
    else []

/-- The values collected from the items of a sequence, in order. -/
def scopeItemsOfList : List Json → List String
  | [] => []
  | value :: rest => scopeItems value ++ scopeItemsOfList rest
end

/-- `normalize_project_scope`. -/
def normalizeProjectScope (value : Json) : List String :=
  fromkeys (scopeItems value)

/-- `project_scope_identity`: the sorted set of the identities of the
normalised identifiers. -/
def projectScopeIdentity (value : Json) : List String :=
  (((normalizeProjectScope value).map fun item =>
    projectIdentifierIdentity (.str item)).dedup).insertionSort (· ≤ ·)

theorem scopeItemsOfList_eq (l : List Json) :
    scopeItemsOfList l = l.flatMap scopeItems := by
  induction l with
  | nil => rfl
  | cons v l ih => rw [scopeItemsOfList, ih, List.flatMap_cons]

theorem mem_projectScopeIdentity {value : Json} {x : String} :
    x ∈ projectScopeIdentity value ↔
      ∃ item ∈ scopeItems value, projectIdentifierIdentity (.str item) = x := by
  simp [projectScopeIdentity, normalizeProjectScope]

/-- The identity of a sequence is the union of the identities of its items. -/
theorem mem_projectScopeIdentity_arr {l : List Json} {x : String} :
    x ∈ projectScopeIdentity (.arr l) ↔ ∃ v ∈ l, x ∈ projectScopeIdentity v := by
  simp only [mem_projectScopeIdentity, scopeItems, scopeItemsOfList_eq, List.mem_flatMap]
  constructor
  · rintro ⟨item, ⟨v, hv, hitem⟩, rfl⟩
    exact ⟨v, hv, item, hitem, rfl⟩
  · rintro ⟨v, hv, item, hitem, rfl⟩
    exact ⟨item, ⟨v, hv, hitem⟩, rfl⟩

/-- `(value,)` has the identity of `value`. -/
theorem mem_projectScopeIdentity_singleton {v : Json} {x : String} :
    x ∈ projectScopeIdentity (.arr [v]) ↔ x ∈ projectScopeIdentity v := by
  simp [mem_projectScopeIdentity_arr]

@[simp] theorem projectScopeIdentity_nil : projectScopeIdentity (.arr []) = [] := rfl

/-! ### Normal forms -/

/-- What the loop has kept is kept again when it is read a second time, and a
separator is owed only behind something. -/
theorem push_normalized (l : List Char) :
    let st := l.foldl NormalizeState.push {}
    (st.normalized.foldl NormalizeState.push {} = ⟨st.normalized, false⟩) ∧
      (st.pendingSpace = true → st.normalized ≠ []) := by
  induction l using List.reverseRecOn with
  | nil => exact ⟨rfl, fun h => absurd h (by decide)⟩
  | append_singleton l c ih =>
    obtain ⟨hread, hpending⟩ := ih
    rw [List.foldl_append, List.foldl_cons, List.foldl_nil]
    generalize l.foldl NormalizeState.push {} = st at hread hpending ⊢
    by_cases hspace : c ∈ asciiProjectWhitespace
    · rw [NormalizeState.push, if_pos hspace]
      exact ⟨hread, fun h => by simpa using h⟩
    · by_cases howed : st.pendingSpace = true
      · -- the separator and the character are read as they were written
        have hnonempty := hpending howed
        rw [NormalizeState.push, if_neg hspace, if_pos howed]
        refine ⟨?_, fun h => absurd h (by simp)⟩
        rw [List.foldl_append, hread]
        simpa [NormalizeState.push, asciiProjectWhitespace, hnonempty] using hspace
      · rw [NormalizeState.push, if_neg hspace, if_neg howed]
        refine ⟨?_, fun h => absurd h howed⟩
        rw [List.foldl_append, hread, List.foldl_cons, List.foldl_nil, NormalizeState.push,
          if_neg hspace, if_neg (by simp)]

/-- Normalising a normal form changes nothing. -/
theorem normalizeProjectIdentifier_normalized (value : Json) :
    normalizeProjectIdentifier (.str (normalizeProjectIdentifier value)) =
      normalizeProjectIdentifier value := by
  unfold normalizeProjectIdentifier
  cases projectScalarText value with
  | none => rfl
  | some scalar =>
    simp only [projectScalarText, String.toList_ofList]
    rw [(push_normalized scalar.toList).1]

mutual
/-- What a scope collects are normal forms that are not blank. -/
theorem normal_of_mem_scopeItems {x : String} : ∀ {value : Json}, x ∈ scopeItems value →
    x ≠ "" ∧ normalizeProjectIdentifier (.str x) = x
  | .arr items, h => normal_of_mem_scopeItemsOfList h
  | .null, h | .bool _, h | .int _, h | .float _, h | .str _, h | .obj _, h => by
    simp only [scopeItems] at h
    split at h
    · next hkept =>
      obtain rfl := List.mem_singleton.mp h
      exact ⟨hkept.2, normalizeProjectIdentifier_normalized _⟩
    · exact absurd h List.not_mem_nil

theorem normal_of_mem_scopeItemsOfList {x : String} : ∀ {items : List Json},
    x ∈ scopeItemsOfList items → x ≠ "" ∧ normalizeProjectIdentifier (.str x) = x
  | [], h => absurd h List.not_mem_nil
  | value :: rest, h => by
    rcases List.mem_append.mp h with hvalue | hrest
    · exact normal_of_mem_scopeItems hvalue
    · exact normal_of_mem_scopeItemsOfList hrest
end

/-- A scope that names one project. -/
theorem projectScopeIdentity_str {text : String}
    (h : normalizeProjectIdentifier (.str text) ≠ "") :
    projectScopeIdentity (.str text) =
      [projectIdentifierIdentity (.str (normalizeProjectIdentifier (.str text)))] := by
  have hitems : scopeItems (.str text) = [normalizeProjectIdentifier (.str text)] := by
    simp [scopeItems, h, projectScalarText]
  simp [projectScopeIdentity, normalizeProjectScope, hitems, fromkeys]

/-- Normalising a project name does not change the project. -/
theorem projectScopeIdentity_normalized (text : String) :
    projectScopeIdentity (.str (normalizeProjectIdentifier (.str text))) =
      projectScopeIdentity (.str text) := by
  simp only [projectScopeIdentity, normalizeProjectScope, scopeItems, projectScalarText,
    normalizeProjectIdentifier_normalized, Option.isSome_some]

/-- A scope whose identity has one member is that project's. -/
theorem projectScopeIdentity_eq_singleton {value : Json} {x : String}
    (hsub : projectScopeIdentity value ⊆ [x]) (hne : projectScopeIdentity value ≠ []) :
    projectScopeIdentity value = [x] := by
  have hnodup : (projectScopeIdentity value).Nodup :=
    (List.perm_insertionSort _ _).nodup_iff.mpr (List.nodup_dedup _)
  generalize projectScopeIdentity value = l at hsub hne hnodup ⊢
  match l with
  | [] => exact absurd rfl hne
  | [y] =>
    obtain rfl := List.mem_singleton.mp (hsub (List.mem_singleton.mpr rfl))
    rfl
  | y :: z :: l =>
    have hy := List.mem_singleton.mp (hsub (List.mem_cons_self ..))
    have hz := List.mem_singleton.mp (hsub (List.mem_cons_of_mem _ (List.mem_cons_self ..)))
    exact absurd (List.mem_cons.mpr (.inl (hy.trans hz.symm))) (List.nodup_cons.mp hnodup).1

/-! ### The scope a stored resource carries -/

/-- `ProjectScopeResolution`: `present` keeps an explicitly empty canonical
value apart from an absent one. -/
structure ProjectScopeResolution where
  present : Bool
  values : List String
deriving DecidableEq, Repr

/-- `ProjectScopeResolution.identity`. -/
def ProjectScopeResolution.identity (r : ProjectScopeResolution) : List String :=
  projectScopeIdentity (.strs r.values)

/-- `canonical_values`: only a sequence is read, anything else fails closed. -/
def canonicalValues : Json → List String
  | .arr items => normalizeProjectScope (.arr items)
  | _ => []

/-- The singular aliases, in the order they are consulted. -/
def projectAliasKeys : List String := ["project_id", "project", "projects"]

/-- The containers of a resource that are mappings. -/
def scopeContainers (resource : Dict Json) : List (Dict Json) :=
  (["metadata_json", "scope_json"].filterMap fun key => (resource.item key).asObj?)

/-- The `project_scope` values nested under `agentic_memory` and
`agent_identity` in one container. -/
def nestedScopes (container : Dict Json) : List Json :=
  ["agentic_memory", "agent_identity"].filterMap fun key =>
    (container.item key).asObj?.bind fun nested => nested.get? "project_scope"

/-- The alias values of one container, its `agentic_memory` included. -/
def legacyScopes (container : Dict Json) : List Json :=
  projectAliasKeys.map container.item ++
    match (container.item "agentic_memory").asObj? with
    | some agentic => projectAliasKeys.map agentic.item
    | none => []

/-- `resolve_project_scope`: canonical keys at the root and then in the
containers are authoritative, nested ones come next, aliases last. -/
def resolveProjectScope (resource : Dict Json) : ProjectScopeResolution :=
  let containers := scopeContainers resource
  match resource.get? "project_scope" with
  | some value => ⟨true, canonicalValues value⟩
  | none =>
    match containers.findSome? fun c => c.get? "project_scope" with
    | some value => ⟨true, canonicalValues value⟩
    | none =>
      match containers.flatMap nestedScopes with
      | v :: vs => ⟨true, normalizeProjectScope (.arr (v :: vs))⟩
      | [] =>
        match normalizeProjectScope (.arr (projectAliasKeys.map resource.item)) with
        | s :: ss => ⟨false, s :: ss⟩
        | [] => ⟨false, normalizeProjectScope (.arr (containers.flatMap legacyScopes))⟩

/-- One nested mapping of `resolve_source_metadata_project_scope`, merged into
the stored metadata container; a stored value wins on a key collision. -/
def mergeNested (resource container : Dict Json) (nestedKey : String) : Dict Json :=
  match (resource.item nestedKey).asObj? with
  | none => container
  | some direct =>
    match (container.item nestedKey).asObj? with
    | some stored => container.set nestedKey (.obj (direct.update stored))
    | none => container.set nestedKey (.obj direct)

/-- `resolve_source_metadata_project_scope`: a source's metadata read as a
resource envelope of its own. -/
def resolveSourceMetadataProjectScope (metadata : Dict Json) : ProjectScopeResolution :=
  let container := ["agentic_memory", "agent_identity"].foldl (mergeNested metadata)
    (metadata.getObj "metadata_json")
  resolveProjectScope (metadata.set "metadata_json" (.obj container))

/-- `source_project_scope` on the columns of a source row. -/
def sourceProjectScope (source : Dict Json) : List String :=
  let resolution := resolveSourceMetadataProjectScope (source.getObj "metadata_json")
  if resolution.present ∨ resolution.values ≠ [] then resolution.values
  else (resolveProjectScope source).values

end AliceBot
