import AliceBot.ProjectScope
import Mathlib.Data.List.DropRight

/-!
# The project scope in SQL

The helpers that migration 0090 installs to recompute the scope of a stored
source (`alice_project_scope_leaves` to `alice_resolve_project_scope`), on
`jsonb` values. A `jsonb` number is a decimal: `.int` where it has no digits
below the point, `.float` where it has some.

They are a second implementation of `vnext_project_scope`, and on decimals they
agree with it: the SQL normaliser returns the array that
`normalize_project_scope` would (`aliceNormalizedProjectScope_eq`), and the SQL
resolver the values of `resolve_source_metadata_project_scope`
(`aliceResolveProjectScope_source`). What is left to compare is how a number is
read.
-/

namespace AliceBot

open PyLib

/-! ### Texts -/

/-- `btrim(text, characters)`. -/
def btrimChars (s : String) (characters : List Char) : String :=
  String.ofList ((s.toList.dropWhile (· ∈ characters)).rdropWhile (· ∈ characters))

/-- The characters of the bracket in `alice_normalized_project_scope`. -/
def sqlProjectWhitespace : List Char :=
  [Char.ofNat 9, Char.ofNat 10, Char.ofNat 11, Char.ofNat 12, Char.ofNat 13, ' ']

/-- `regexp_replace(value, '[…]+', ' ', 'g')`; the flag says that the last
character was in the bracket. -/
def replaceRuns : List Char → Bool → List Char
  | [], _ => []
  | c :: cs, inRun =>
    if c ∈ sqlProjectWhitespace then
      if inRun then replaceRuns cs true else ' ' :: replaceRuns cs true
    else c :: replaceRuns cs false

/-- `normalized.value`. -/
def normalizedScopeValue (value : String) : String :=
  btrimChars (String.ofList (replaceRuns value.toList false)) [' ']

/-! ### Values -/

/-- The branch of `alice_project_scope_leaves` for a number. -/
def numberLeaf (q : Rat) : List String :=
  -- `trunc` cuts towards zero
  let truncated := q.num.tdiv q.den
  if q = truncated then [if q = 0 then "0" else toString truncated] else []

mutual
/-- `alice_project_scope_leaves`. -/
def aliceProjectScopeLeaves : Json → List String
  | .arr items => aliceProjectScopeLeavesOfItems items
  | .str s => [s]
  | .int n => numberLeaf n
  | .float q => numberLeaf q
  | .bool b => [if b then "True" else "False"]
  | .null | .obj _ => []

/-- The loop over `jsonb_array_elements`. -/
def aliceProjectScopeLeavesOfItems : List Json → List String
  | [] => []
  | element :: rest => aliceProjectScopeLeaves element ++ aliceProjectScopeLeavesOfItems rest
end

/-- The rows of the inner query, with their ordinality. -/
def scopeRows (value : Json) : List (String × Nat) :=
  (((aliceProjectScopeLeaves value).zipIdx 1).map fun row =>
    (normalizedScopeValue row.1, row.2)).filter fun row => row.1 ≠ ""

/-- `MIN(raw_value.ordinality)` of the group of a value. -/
def firstOrdinal (rows : List (String × Nat)) (value : String) : Nat :=
  ((rows.filter fun row => row.1 = value).map Prod.snd).min?.getD 0

/-- `ORDER BY deduplicated.first_ordinal`. -/
def OrdinalLE (rows : List (String × Nat)) (a b : String) : Prop :=
  firstOrdinal rows a ≤ firstOrdinal rows b

instance (rows : List (String × Nat)) : DecidableRel (OrdinalLE rows) := fun a b =>
  inferInstanceAs (Decidable (firstOrdinal rows a ≤ firstOrdinal rows b))

instance (rows : List (String × Nat)) : Std.Total (OrdinalLE rows) where
  total a b := Nat.le_total (firstOrdinal rows a) (firstOrdinal rows b)

instance (rows : List (String × Nat)) : IsTrans String (OrdinalLE rows) where
  trans _ _ _ := Nat.le_trans

/-- `alice_normalized_project_scope`: the groups, in the order of their first
ordinals. -/
def aliceNormalizedProjectScope (value : Json) : List String :=
  let rows := scopeRows value
  ((rows.map Prod.fst).dedup).insertionSort (OrdinalLE rows)

/-! ### Resources -/

/-- One round of the loop of `alice_source_scope_resource`. -/
def aliceMergeNested (resource container : Dict Json) (nestedKey : String) : Dict Json :=
  match resource.get? nestedKey with
  | some (.obj direct) =>
    match container.get? nestedKey with
    | some (.obj stored) => container.set nestedKey (.obj (Dict.update direct stored))
    | _ => container.set nestedKey (.obj direct)
  | _ => container

/-- The object under a key, or else `'{}'::jsonb`. -/
def objectAt (resource : Dict Json) (key : String) : Dict Json :=
  match resource.get? key with
  | some (.obj fields) => fields
  | _ => []

/-- `alice_source_scope_resource`. -/
def aliceSourceScopeResource (storedMetadata : Json) : Json :=
  let resource := match storedMetadata with
    | .obj fields => fields
    | _ => []
  let container := ["agentic_memory", "agent_identity"].foldl (aliceMergeNested resource)
    (objectAt resource "metadata_json")
  .obj (resource.set "metadata_json" (.obj container))

/-- `container #> '{key,field}'`. -/
def pathValue (container : Dict Json) (key field : String) : Option Json :=
  match container.get? key with
  | some (.obj fields) => Dict.get? fields field
  | _ => none

/-- A canonical value: only an array is read. -/
def canonicalScope : Json → List String
  | .arr items => aliceNormalizedProjectScope (.arr items)
  | _ => []

/-- `jsonb_build_array`, which writes SQL's null as a JSON null. -/
def jsonbBuildArray (values : List (Option Json)) : Json :=
  .arr (values.map fun value => value.getD .null)

/-- `alice_resolve_project_scope` of an object. -/
def aliceResolveObject (resource : Dict Json) : List String :=
  let metadata := objectAt resource "metadata_json"
  let scope := objectAt resource "scope_json"
  match resource.get? "project_scope" with
  | some value => canonicalScope value
  | none =>
  match metadata.get? "project_scope" with
  | some value => canonicalScope value
  | none =>
  match scope.get? "project_scope" with
  | some value => canonicalScope value
  | none =>
    -- presence decides, whatever the values
    if (pathValue metadata "agentic_memory" "project_scope").isSome
        || (pathValue metadata "agent_identity" "project_scope").isSome
        || (pathValue scope "agentic_memory" "project_scope").isSome
        || (pathValue scope "agent_identity" "project_scope").isSome then
      aliceNormalizedProjectScope (jsonbBuildArray
        [pathValue metadata "agentic_memory" "project_scope",
          pathValue metadata "agent_identity" "project_scope",
          pathValue scope "agentic_memory" "project_scope",
          pathValue scope "agent_identity" "project_scope"])
    else
      let resolved := aliceNormalizedProjectScope (jsonbBuildArray
        [resource.get? "project_id", resource.get? "project", resource.get? "projects"])
      if 0 < resolved.length then resolved
      else
        aliceNormalizedProjectScope (jsonbBuildArray
          [metadata.get? "project_id", metadata.get? "project", metadata.get? "projects",
            pathValue metadata "agentic_memory" "project_id",
            pathValue metadata "agentic_memory" "project",
            pathValue metadata "agentic_memory" "projects",
            scope.get? "project_id", scope.get? "project", scope.get? "projects",
            pathValue scope "agentic_memory" "project_id",
            pathValue scope "agentic_memory" "project",
            pathValue scope "agentic_memory" "projects"])

/-- `alice_resolve_project_scope`. -/
def aliceResolveProjectScope : Json → List String
  | .obj resource => aliceResolveObject resource
  | _ => []

/-! ### White space -/

theorem mem_sqlProjectWhitespace {c : Char} :
    c ∈ sqlProjectWhitespace ↔ c ∈ asciiProjectWhitespace := by
  have hperm : sqlProjectWhitespace.Perm asciiProjectWhitespace := by decide
  exact hperm.mem_iff

/-- A character that is kept keeps what is before it. -/
theorem rdropWhile_append_cons {p : Char → Bool} {c : Char} (hc : p c = false)
    (front back : List Char) :
    (front ++ c :: back).rdropWhile p = front ++ c :: back.rdropWhile p := by
  have hdrop : ∀ l rest : List Char, (l ++ c :: rest).dropWhile p = l.dropWhile p ++ c :: rest := by
    intro l rest
    induction l with
    | nil => simp [hc]
    | cons a l ih =>
      by_cases ha : p a = true
      · rw [List.cons_append, List.dropWhile_cons_of_pos ha, List.dropWhile_cons_of_pos ha, ih]
      · rw [List.cons_append, List.dropWhile_cons_of_neg ha, List.dropWhile_cons_of_neg ha,
          List.cons_append]
  unfold List.rdropWhile
  rw [List.reverse_append, List.reverse_cons, List.append_assoc, List.singleton_append, hdrop,
    List.reverse_append, List.reverse_cons, List.reverse_reverse, List.append_assoc,
    List.singleton_append]

theorem rdropWhile_space {c : Char} (h : c ∉ asciiProjectWhitespace) (front back : List Char) :
    (front ++ c :: back).rdropWhile (· ∈ [' ']) = front ++ c :: back.rdropWhile (· ∈ [' ']) := by
  refine rdropWhile_append_cons (decide_eq_false fun hc => h ?_) front back
  rw [List.mem_singleton.mp hc]
  decide

/-- The loop of `normalize_project_identifier` behind a first character: the
separators at the end are left out. -/
theorem foldl_push_of_ne_nil (l : List Char) {kept : List Char} (hkept : kept ≠ [])
    (pending : Bool) :
    (l.foldl NormalizeState.push ⟨kept, pending⟩).normalized =
      kept ++ (if pending then ' ' :: replaceRuns l true else replaceRuns l false).rdropWhile
        (· ∈ [' ']) := by
  induction l generalizing kept pending with
  | nil => cases pending <;> simp [replaceRuns]
  | cons c l ih =>
    rw [List.foldl_cons]
    by_cases hspace : c ∈ asciiProjectWhitespace
    · have hsql := mem_sqlProjectWhitespace.mpr hspace
      have hnonempty : (!kept.isEmpty) = true := by simpa using hkept
      rw [NormalizeState.push, if_pos hspace, hnonempty, ih hkept true]
      cases pending <;> simp [replaceRuns, hsql]
    · have hsql := mt mem_sqlProjectWhitespace.mp hspace
      have hruns : ∀ inRun, replaceRuns (c :: l) inRun = c :: replaceRuns l false := fun _ => by
        rw [replaceRuns, if_neg hsql]
      cases pending with
      | true =>
        -- the separator that was owed is written before the character
        have hkeep : (' ' :: c :: replaceRuns l false).rdropWhile (· ∈ [' ']) =
            ' ' :: c :: (replaceRuns l false).rdropWhile (· ∈ [' ']) :=
          rdropWhile_space hspace [' '] _
        rw [NormalizeState.push, if_neg hspace, if_pos rfl, ih (by simp) false, if_pos rfl, hruns,
          hkeep]
        simp
      | false =>
        have hkeep := rdropWhile_space hspace [] (replaceRuns l false)
        rw [List.nil_append, List.nil_append] at hkeep
        rw [NormalizeState.push, if_neg hspace, if_neg Bool.false_ne_true, ih (by simp) false,
          if_neg Bool.false_ne_true, if_neg Bool.false_ne_true, hruns, hkeep]
        simp

/-- The loop from its start: the separators at the front are left out too. -/
theorem foldl_push_nil (l : List Char) (inRun : Bool) :
    (l.foldl NormalizeState.push {}).normalized =
      ((replaceRuns l inRun).dropWhile (· ∈ [' '])).rdropWhile (· ∈ [' ']) := by
  induction l generalizing inRun with
  | nil => rfl
  | cons c l ih =>
    rw [List.foldl_cons]
    -- a separator at the front leaves nothing, a character starts the text
    by_cases hspace : c ∈ asciiProjectWhitespace
    · have hsql := mem_sqlProjectWhitespace.mpr hspace
      rw [NormalizeState.push, if_pos hspace]
      refine (ih true).trans ?_
      cases inRun <;> simp [replaceRuns, hsql]
    · have hsql := mt mem_sqlProjectWhitespace.mp hspace
      have hne : ¬ decide (c ∈ [' ']) = true := by
        intro hc
        rw [List.mem_singleton.mp (of_decide_eq_true hc)] at hspace
        exact hspace (by decide)
      have hdrop : (c :: replaceRuns l false).dropWhile (· ∈ [' ']) = c :: replaceRuns l false :=
        List.dropWhile_cons_of_neg hne
      have hkeep := rdropWhile_space hspace [] (replaceRuns l false)
      rw [List.nil_append, List.nil_append] at hkeep
      rw [NormalizeState.push, if_neg hspace, if_neg Bool.false_ne_true, List.nil_append,
        foldl_push_of_ne_nil l (by simp) false, if_neg Bool.false_ne_true, replaceRuns,
        if_neg hsql, hdrop, hkeep, List.singleton_append]

/-- The regular expression and the trim do what the loop does. -/
theorem normalizedScopeValue_eq (text : String) :
    normalizedScopeValue text = normalizeProjectIdentifier (.str text) := by
  simp only [normalizedScopeValue, btrimChars, normalizeProjectIdentifier, projectScalarText,
    String.toList_ofList]
  rw [foldl_push_nil text.toList false]

/-! ### Leaves -/

/-- A decimal is whole in SQL when it is whole. -/
theorem numberLeaf_eq (q : Rat) : numberLeaf q = (projectScalarText (.float q)).toList := by
  unfold numberLeaf projectScalarText
  by_cases hden : q.den = 1
  · have htrunc : q.num.tdiv q.den = q.num := by
      rw [hden, Int.ofNat_one, Int.tdiv_one]
    have hwhole : q = (q.num : Rat) := (Rat.den_eq_one_iff q).mp hden |>.symm
    dsimp only
    rw [htrunc, if_pos hwhole, if_pos hden]
    split
    · next hzero =>
      rw [hzero]
      rfl
    · rfl
  · have hpart : q ≠ ((q.num.tdiv q.den : Int) : Rat) := by
      intro hwhole
      rw [hwhole] at hden
      exact hden (Rat.den_intCast _)
    dsimp only
    rw [if_neg hpart, if_neg hden]
    rfl

theorem numberLeaf_intCast (n : Int) : numberLeaf (n : Rat) = [toString n] := by
  rw [numberLeaf_eq, projectScalarText, Rat.den_intCast, if_pos rfl, Rat.num_intCast]
  rfl

/-- What one scalar contributes. -/
theorem scopeItems_of_text {value : Json} {text : String} (hvalue : ∀ items, value ≠ .arr items)
    (h : projectScalarText value = some text) :
    scopeItems value = ([text].map normalizedScopeValue).filter (· ≠ "") := by
  have hnormal : normalizeProjectIdentifier value = normalizedScopeValue text := by
    rw [normalizedScopeValue_eq, normalizeProjectIdentifier, h]
    rfl
  cases value with
  | arr items => exact absurd rfl (hvalue items)
  | null | obj fields => exact absurd h (by simp [projectScalarText])
  | bool b | int n | float q | str s =>
    simp only [scopeItems, h, Option.isSome_some, true_and, hnormal, List.map_cons, List.map_nil,
      List.filter_cons, List.filter_nil, decide_eq_true_eq]

theorem scopeItems_of_none {value : Json} (hvalue : ∀ items, value ≠ .arr items)
    (h : projectScalarText value = none) : scopeItems value = [] := by
  cases value with
  | arr items => exact absurd rfl (hvalue items)
  | _ => simp [scopeItems, h]

mutual
/-- The leaves of the SQL recursion, normalised, are what
`normalize_project_scope` collects. -/
theorem filter_leaves : ∀ value : Json,
    ((aliceProjectScopeLeaves value).map normalizedScopeValue).filter (· ≠ "") = scopeItems value
  | .arr items => filter_leavesOfItems items
  | .str s => (scopeItems_of_text (by simp) rfl).symm
  | .bool b => (scopeItems_of_text (by simp) rfl).symm
  | .null => rfl
  | .obj fields => rfl
  | .int n => by
    rw [aliceProjectScopeLeaves, numberLeaf_intCast]
    exact (scopeItems_of_text (by simp) rfl).symm
  | .float q => by
    rw [aliceProjectScopeLeaves, numberLeaf_eq]
    cases htext : projectScalarText (.float q) with
    | none => exact (scopeItems_of_none (by simp) htext).symm
    | some text => exact (scopeItems_of_text (by simp) htext).symm

theorem filter_leavesOfItems : ∀ items : List Json,
    ((aliceProjectScopeLeavesOfItems items).map normalizedScopeValue).filter (· ≠ "") =
      scopeItemsOfList items
  | [] => rfl
  | element :: rest => by
    rw [aliceProjectScopeLeavesOfItems, List.map_append, List.filter_append, filter_leaves element,
      filter_leavesOfItems rest, scopeItemsOfList]
end

/-! ### The order of the groups -/

theorem scopeRows_map_fst (value : Json) : (scopeRows value).map Prod.fst = scopeItems value := by
  have hfilter : ∀ (leaves : List String) (start : Nat),
      (((leaves.zipIdx start).map fun row => (normalizedScopeValue row.1, row.2)).filter
        fun row => row.1 ≠ "").map Prod.fst =
        (leaves.map normalizedScopeValue).filter (· ≠ "") := by
    intro leaves
    induction leaves with
    | nil => exact fun _ => rfl
    | cons leaf leaves ih =>
      intro start
      rw [List.zipIdx_cons, List.map_cons, List.map_cons, List.filter_cons, List.filter_cons]
      by_cases hblank : normalizedScopeValue leaf = ""
      · simpa [hblank] using ih (start + 1)
      · simpa [hblank] using ih (start + 1)
  rw [scopeRows, hfilter, filter_leaves]

/-- The ordinals of the rows grow. -/
theorem scopeRows_pairwise (value : Json) : (scopeRows value).Pairwise fun a b => a.2 < b.2 := by
  refine List.Pairwise.filter _ (List.pairwise_map.mpr ?_)
  have hordinals : ∀ (leaves : List String) (start : Nat),
      (leaves.zipIdx start).Pairwise fun a b => a.2 < b.2 := by
    intro leaves
    induction leaves with
    | nil => exact fun _ => List.Pairwise.nil
    | cons leaf leaves ih =>
      intro start
      refine List.pairwise_cons.mpr ⟨fun row hrow => ?_, ih (start + 1)⟩
      exact Nat.lt_of_succ_le (List.le_snd_of_mem_zipIdx hrow)
  exact hordinals _ _

theorem firstOrdinal_cons_self (row : String × Nat) {rows : List (String × Nat)}
    (h : ∀ other ∈ rows, row.2 < other.2) : firstOrdinal (row :: rows) row.1 = row.2 := by
  have hmin : (((row :: rows).filter fun other => other.1 = row.1).map Prod.snd).min? =
      some row.2 := by
    rw [List.filter_cons_of_pos (by simp), List.map_cons, List.min?_eq_some_iff]
    refine ⟨List.mem_cons_self .., fun ordinal hordinal => ?_⟩
    rcases List.mem_cons.mp hordinal with rfl | hlater
    · exact Nat.le_refl _
    · obtain ⟨other, hother, rfl⟩ := List.mem_map.mp hlater
      exact Nat.le_of_lt (h other (List.mem_of_mem_filter hother))
  rw [firstOrdinal, hmin, Option.getD_some]

theorem firstOrdinal_cons_of_ne {row : String × Nat} (rows : List (String × Nat)) {value : String}
    (h : row.1 ≠ value) : firstOrdinal (row :: rows) value = firstOrdinal rows value := by
  rw [firstOrdinal, List.filter_cons_of_neg (by simpa using h), firstOrdinal]

/-- The first ordinal of a value is that of one of its rows. -/
theorem mk_firstOrdinal_mem {rows : List (String × Nat)} {value : String}
    (h : value ∈ rows.map Prod.fst) : (value, firstOrdinal rows value) ∈ rows := by
  obtain ⟨row, hrow, rfl⟩ := List.mem_map.mp h
  have hmem : row.2 ∈ (rows.filter fun other => other.1 = row.1).map Prod.snd :=
    List.mem_map.mpr ⟨row, List.mem_filter.mpr ⟨hrow, decide_eq_true rfl⟩, rfl⟩
  obtain ⟨ordinal, hmin⟩ := Option.isSome_iff_exists.mp (List.isSome_min?_of_mem hmem)
  obtain ⟨other, hother, hordinal⟩ := List.mem_map.mp (List.min?_mem hmin)
  obtain ⟨hother, hvalue⟩ := List.mem_filter.mp hother
  rw [firstOrdinal, hmin, Option.getD_some, ← hordinal, ← of_decide_eq_true hvalue]
  exact hother

/-- The values at their first occurrences are in the order of their first
ordinals. -/
theorem fromkeys_pairwise {rows : List (String × Nat)}
    (h : rows.Pairwise fun a b => a.2 < b.2) :
    (fromkeys (rows.map Prod.fst)).Pairwise (OrdinalLE rows) := by
  induction rows with
  | nil => exact List.Pairwise.nil
  | cons row rows ih =>
    obtain ⟨hfirst, hrest⟩ := List.pairwise_cons.mp h
    rw [List.map_cons, fromkeys]
    refine List.pairwise_cons.mpr ⟨fun value hvalue => ?_, ?_⟩
    · obtain ⟨hvalue, hne⟩ := List.mem_filter.mp hvalue
      have hne : row.1 ≠ value := fun heq => absurd heq.symm (by simpa using hne)
      have hlater := hfirst _ (mk_firstOrdinal_mem (mem_fromkeys.mp hvalue))
      unfold OrdinalLE
      rw [firstOrdinal_cons_self row hfirst, firstOrdinal_cons_of_ne rows hne]
      exact Nat.le_of_lt hlater
    · refine ((ih hrest).filter _).imp_of_mem fun {a b} ha hb hle => ?_
      have hkept : ∀ {value}, value ∈ (fromkeys (rows.map Prod.fst)).filter (· ≠ row.1) →
          row.1 ≠ value := fun hmem heq => by
        simpa [heq] using (List.mem_filter.mp hmem).2
      unfold OrdinalLE
      rw [firstOrdinal_cons_of_ne rows (hkept ha), firstOrdinal_cons_of_ne rows (hkept hb)]
      exact hle

/-- The SQL normaliser returns the tuple of the Python one. -/
theorem aliceNormalizedProjectScope_eq (value : Json) :
    aliceNormalizedProjectScope value = normalizeProjectScope value := by
  have hpairwise := scopeRows_pairwise value
  have hordinals : ((scopeRows value).map Prod.snd).Nodup :=
    (List.pairwise_map.mpr hpairwise).imp Nat.ne_of_lt
  have hperm : ((scopeRows value).map Prod.fst).dedup.Perm
      (fromkeys ((scopeRows value).map Prod.fst)) :=
    (List.perm_ext_iff_of_nodup (List.nodup_dedup _) (nodup_fromkeys _)).mpr fun x => by
      rw [List.mem_dedup, mem_fromkeys]
  rw [normalizeProjectScope, ← scopeRows_map_fst]
  refine List.Perm.eq_of_pairwise (fun a b ha hb hab hba => ?_)
    (List.pairwise_insertionSort (OrdinalLE (scopeRows value)) _) (fromkeys_pairwise hpairwise)
    ((List.perm_insertionSort _ _).trans hperm)
  -- two values have not the same first row
  have ha := mk_firstOrdinal_mem (List.mem_dedup.mp ((List.mem_insertionSort _).mp ha))
  have hb := mk_firstOrdinal_mem (mem_fromkeys.mp hb)
  exact congrArg Prod.fst (List.inj_on_of_nodup_map hordinals ha hb (Nat.le_antisymm hab hba))

/-! ### Resources -/

theorem objectAt_eq (resource : Dict Json) (key : String) :
    objectAt resource key = ((resource.item key).asObj?).getD [] := by
  unfold objectAt Dict.item
  cases resource.get? key with
  | none => rfl
  | some value => cases value <;> rfl

theorem pathValue_eq (container : Dict Json) (key field : String) :
    pathValue container key field =
      (container.item key).asObj?.bind fun fields => fields.get? field := by
  unfold pathValue Dict.item
  cases container.get? key with
  | none => rfl
  | some value => cases value <;> rfl

theorem aliceMergeNested_eq (resource container : Dict Json) (nestedKey : String) :
    aliceMergeNested resource container nestedKey = mergeNested resource container nestedKey := by
  unfold aliceMergeNested mergeNested Dict.item
  cases resource.get? nestedKey with
  | none => rfl
  | some direct =>
    cases direct with
    | obj direct =>
      cases container.get? nestedKey with
      | none => rfl
      | some stored => cases stored <;> rfl
    | _ => rfl

theorem canonicalScope_eq (value : Json) : canonicalScope value = canonicalValues value := by
  cases value with
  | arr items => exact aliceNormalizedProjectScope_eq _
  | _ => rfl

/-- SQL's nulls contribute nothing. -/
theorem scopeItems_jsonbBuildArray (values : List (Option Json)) :
    scopeItems (jsonbBuildArray values) = scopeItemsOfList (values.filterMap id) := by
  rw [jsonbBuildArray, scopeItems]
  induction values with
  | nil => rfl
  | cons value values ih =>
    rw [List.map_cons, scopeItemsOfList, ih]
    cases value with
    | none => rfl
    | some value => rfl

theorem aliceNormalizedProjectScope_build {values : List (Option Json)} {items : List Json}
    (h : scopeItemsOfList (values.filterMap id) = scopeItemsOfList items) :
    aliceNormalizedProjectScope (jsonbBuildArray values) = normalizeProjectScope (.arr items) := by
  rw [aliceNormalizedProjectScope_eq, normalizeProjectScope, scopeItems_jsonbBuildArray, h]
  rfl

theorem scopeContainers_eq (resource : Dict Json) :
    scopeContainers resource = (resource.item "metadata_json").asObj?.toList ++
      (resource.item "scope_json").asObj?.toList := by
  unfold scopeContainers
  simp only [List.filterMap_cons, List.filterMap_nil]
  cases (resource.item "metadata_json").asObj? <;> cases (resource.item "scope_json").asObj? <;> rfl

/-- An empty object stands for the container that is not there. -/
theorem flatMap_scopeContainers {α : Type} (resource : Dict Json) {f : Dict Json → List α}
    (hnil : f [] = []) : (scopeContainers resource).flatMap f =
      f (objectAt resource "metadata_json") ++ f (objectAt resource "scope_json") := by
  rw [scopeContainers_eq, objectAt_eq, objectAt_eq]
  generalize (resource.item "metadata_json").asObj? = metadata
  generalize (resource.item "scope_json").asObj? = scope
  cases metadata <;> cases scope <;> simp [hnil]

theorem findSome?_scopeContainers (resource : Dict Json) :
    (scopeContainers resource).findSome? (fun container => container.get? "project_scope") =
      ((objectAt resource "metadata_json").get? "project_scope").or
        ((objectAt resource "scope_json").get? "project_scope") := by
  rw [scopeContainers_eq, objectAt_eq, objectAt_eq]
  generalize (resource.item "metadata_json").asObj? = metadata
  generalize (resource.item "scope_json").asObj? = scope
  cases metadata with
  | none => cases scope <;> simp
  | some metadata =>
    cases scope with
    | none => simp
    | some scope =>
      simp only [Option.toList_some, List.singleton_append, List.findSome?_cons,
        List.findSome?_nil, Option.getD_some]
      cases metadata.get? "project_scope" with
      | some value => rfl
      | none => cases scope.get? "project_scope" <;> rfl

theorem nestedScopes_eq (container : Dict Json) :
    nestedScopes container = [pathValue container "agentic_memory" "project_scope",
      pathValue container "agent_identity" "project_scope"].filterMap id := by
  rw [pathValue_eq, pathValue_eq]
  rfl

/-- The aliases of a container, with nulls or without. -/
theorem scopeItems_legacyScopes (container : Dict Json) :
    scopeItemsOfList (legacyScopes container) = scopeItemsOfList
      ([container.get? "project_id", container.get? "project", container.get? "projects",
        pathValue container "agentic_memory" "project_id",
        pathValue container "agentic_memory" "project",
        pathValue container "agentic_memory" "projects"].filterMap id) := by
  rw [← scopeItems_jsonbBuildArray, jsonbBuildArray, scopeItems]
  simp only [pathValue_eq, legacyScopes, projectAliasKeys]
  cases (container.item "agentic_memory").asObj? with
  | none => rfl
  | some agentic => rfl

theorem scopeItemsOfList_append (l l' : List Json) :
    scopeItemsOfList (l ++ l') = scopeItemsOfList l ++ scopeItemsOfList l' := by
  rw [scopeItemsOfList_eq, scopeItemsOfList_eq, scopeItemsOfList_eq, List.flatMap_append]

/-- The last tier, over both containers. -/
theorem scopeItems_flatMap_legacyScopes (resource : Dict Json) :
    scopeItemsOfList ((scopeContainers resource).flatMap legacyScopes) =
      scopeItemsOfList (legacyScopes (objectAt resource "metadata_json")) ++
        scopeItemsOfList (legacyScopes (objectAt resource "scope_json")) := by
  rw [← flatMap_scopeContainers resource
    (f := fun container => scopeItemsOfList (legacyScopes container)) rfl]
  simp only [scopeItemsOfList_eq, List.flatMap_assoc]

/-- The tiers behind the canonical ones. -/
theorem aliasTiers_eq (resource : Dict Json) (nested : List (Option Json)) :
    (if nested.any Option.isSome then aliceNormalizedProjectScope (jsonbBuildArray nested)
      else
        let resolved := aliceNormalizedProjectScope (jsonbBuildArray
          [resource.get? "project_id", resource.get? "project", resource.get? "projects"])
        if 0 < resolved.length then resolved
        else normalizeProjectScope (.arr ((scopeContainers resource).flatMap legacyScopes))) =
      (match nested.filterMap id with
        | v :: vs => (⟨true, normalizeProjectScope (.arr (v :: vs))⟩ : ProjectScopeResolution)
        | [] =>
          match normalizeProjectScope (.arr (projectAliasKeys.map resource.item)) with
          | s :: ss => ⟨false, s :: ss⟩
          | [] =>
            ⟨false, normalizeProjectScope (.arr ((scopeContainers resource).flatMap legacyScopes))⟩
        ).values := by
  -- a tier that is there decides, even if it names no project
  have hany : nested.any Option.isSome = !(nested.filterMap id).isEmpty := by
    induction nested with
    | nil => rfl
    | cons value nested ih =>
      cases value with
      | none => simpa using ih
      | some value => rfl
  have hdirect : aliceNormalizedProjectScope (jsonbBuildArray
      [resource.get? "project_id", resource.get? "project", resource.get? "projects"]) =
      normalizeProjectScope (.arr (projectAliasKeys.map resource.item)) :=
    aliceNormalizedProjectScope_eq _
  rw [hany, hdirect]
  cases hvalues : nested.filterMap id with
  | cons v vs => exact aliceNormalizedProjectScope_build (by rw [hvalues])
  | nil =>
    cases normalizeProjectScope (.arr (projectAliasKeys.map resource.item)) with
    | cons s ss => rfl
    | nil => rfl

/-- The SQL resolver returns the values of the Python one. -/
theorem aliceResolveObject_eq (resource : Dict Json) :
    aliceResolveObject resource = (resolveProjectScope resource).values := by
  have hnested := flatMap_scopeContainers resource (f := nestedScopes) rfl
  have hlegacy := scopeItems_flatMap_legacyScopes resource
  rw [scopeItems_legacyScopes, scopeItems_legacyScopes, ← scopeItemsOfList_append,
    ← List.filterMap_append] at hlegacy
  have htiers := aliasTiers_eq resource
  unfold aliceResolveObject resolveProjectScope
  dsimp only
  rw [findSome?_scopeContainers, hnested, nestedScopes_eq, nestedScopes_eq,
    ← List.filterMap_append]
  generalize objectAt resource "metadata_json" = metadata at hlegacy ⊢
  generalize objectAt resource "scope_json" = scope at hlegacy ⊢
  cases resource.get? "project_scope" with
  | some value => exact canonicalScope_eq value
  | none =>
  cases metadata.get? "project_scope" with
  | some value => exact canonicalScope_eq value
  | none =>
  cases scope.get? "project_scope" with
  | some value => exact canonicalScope_eq value
  | none =>
    refine Eq.trans ?_ (htiers _)
    rw [← aliceNormalizedProjectScope_build hlegacy.symm]
    simp only [List.cons_append, List.nil_append, List.any_cons, List.any_nil, Bool.or_false,
      Bool.or_assoc]

/-- `source_project_scope`, before it falls back on the row. -/
theorem aliceResolveProjectScope_source (metadata : Dict Json) :
    aliceResolveProjectScope (aliceSourceScopeResource (.obj metadata)) =
      (resolveSourceMetadataProjectScope metadata).values := by
  have hmerge : aliceMergeNested metadata = mergeNested metadata :=
    funext fun container => funext fun key => aliceMergeNested_eq metadata container key
  have hcontainer : objectAt metadata "metadata_json" = metadata.getObj "metadata_json" :=
    objectAt_eq metadata "metadata_json"
  unfold aliceSourceScopeResource resolveSourceMetadataProjectScope
  rw [aliceResolveProjectScope, aliceResolveObject_eq, hmerge, hcontainer]

end AliceBot
