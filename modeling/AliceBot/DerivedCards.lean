import AliceBot.ConsolidationAcceptance
import Mathlib.Data.List.MinMax

/-!
# Labels of derived cards

A consolidation run writes a *card*: a candidate memory whose text repeats the
texts of its members. `_create_proposal_candidate` writes the card of a dedup or
merge cluster, `_create_rollup_candidate` the card of a roll-up group. Both
compute a domain and a sensitivity for it from the members, with two copies of
one pair of functions.

The members of one card share their project scope, so that a card never carries
one project's text into another. Nothing of the kind is done for the domain and
the sensitivity: a mixed domain becomes `unknown`, which passes every domain
filter, and of several sensitivities the first of the highest rank is kept.
`cards_veil_iff` says for which members the card is nevertheless as closed as
the texts it repeats.
-/

namespace AliceBot

open PyLib

variable (env : Env)

/-! ### Labels -/

/-- `SENSITIVITY_RANK.get(value, SENSITIVITY_RANK["unknown"])`. -/
def sensitivityRank (value : String) : Nat :=
  match value with
  | "public" => 1
  | "internal" => 2
  | "private" => 3
  | "confidential" => 4
  | "highly_sensitive" => 5
  | "sacred" => 6
  | "regulated" => 6
  | _ => 2

/-- `_highest_sensitivity`: the first one of the highest rank. -/
def highestSensitivity (rows : List MemoryRow) : String :=
  (List.argmax sensitivityRank (rows.map MemoryRow.sensitivity)).getD "unknown"

/-- `_dominant_domain`: the one domain of the rows, `unknown` otherwise. -/
def dominantDomain (rows : List MemoryRow) : String :=
  match fromkeys (rows.map MemoryRow.domain) with
  | [domain] => domain
  | _ => "unknown"

/-- `_domain`: a request for one domain labels its cards with it. -/
def proposalDomain (requested : List String) (rows : List MemoryRow) : String :=
  match requested with
  | [domain] => domain
  | _ => dominantDomain rows

/-- `Counter(…).most_common(1)`, `semantic` without rows. -/
def dominantMemoryType (rows : List MemoryRow) : String :=
  let types := rows.map MemoryRow.memoryType
  (List.argmax (types.count ·) (fromkeys types)).getD "semantic"

/-- `_project_scope_key`. -/
def projectScopeKey (row : MemoryRow) : List String :=
  projectScopeIdentity (.strs row.projectScope)

/-- `_shared_project_scope`. -/
def sharedProjectScope : List MemoryRow → List String
  | [] => []
  | first :: rest =>
    if rest.all fun row => decide (projectScopeKey row = projectScopeKey first) then
      first.projectScope
    else []

/-! ### Cards -/

/-- A proposal of `_build_proposal`. Statistics, provenance, sources and the
texts for the reviewer are kept as the values they are written with. -/
structure ClusterProposal where
  members : List MemoryRow
  consolidationDigest : String
  proposalKind : String
  title : String
  canonicalText : String
  summary : String
  sourceRefs : List String
  similarityStats : Json
  modelProvenance : Json
  survivorMemoryId : Option String
  proposedSupersede : List String
  mergeRefusal : Json
  reviewerInstructions : List String

/-- `project_scope[0] if len(project_scope) == 1 else None`. -/
def singleProject : List String → Option String
  | [project] => some project
  | _ => none

/-- The row `_create_proposal_candidate` asks the store to create. -/
def proposalCandidate (requested : List String) (proposal : ClusterProposal) : NewMemory :=
  let members := proposal.members
  let memberIds := Json.strs (members.map MemoryRow.id)
  let scope := sharedProjectScope members
  { memoryKey := "vnext.consolidation." ++ proposal.consolidationDigest
    value := .obj
      [("kind", .str "memory_consolidation_proposal"),
        ("proposal_kind", .str proposal.proposalKind),
        ("consolidation_digest", .str proposal.consolidationDigest),
        ("cluster_member_ids", memberIds),
        ("text", .str proposal.canonicalText)]
    status := .candidate
    memoryType := dominantMemoryType members
    -- a merged text is trusted less than a deduplication, which keeps a text
    confidence := some (if proposal.proposalKind = "merge" then 6 / 10 else 75 / 100)
    confirmationStatus := "unconfirmed"
    title := some proposal.title
    canonicalText := proposal.canonicalText
    summary := some proposal.summary
    domain := proposalDomain requested members
    sensitivity := highestSensitivity members
    projectScope := scope
    projectId := singleProject scope
    commitDigest := none
    createdByAgentId := none
    runId := none
    metadataJson :=
      [("candidate_kind", .str "memory_consolidation"),
        ("consolidation_digest", .str proposal.consolidationDigest),
        ("source_refs", .strs proposal.sourceRefs),
        ("project_scope", .strs scope),
        ("review_required", .bool true),
        ("consolidation", .obj
          [("cluster_member_ids", memberIds),
            ("member_snapshots", Json.arr (members.map (snapshotJson env))),
            ("similarity_stats", proposal.similarityStats),
            ("proposal_kind", .str proposal.proposalKind),
            ("model_provenance", proposal.modelProvenance),
            ("survivor_memory_id", .optStr proposal.survivorMemoryId),
            ("proposed_supersede", .strs proposal.proposedSupersede),
            ("merge_refusal", proposal.mergeRefusal),
            ("reviewer_instructions", .strs proposal.reviewerInstructions)])] }

/-- What `_create_rollup_candidate` is given: a group with its rendered card.
`value` is the `rollup` block, `revises` the accepted card it would replace. -/
structure RollupDraft where
  members : List MemoryRow
  rollupDigest : String
  rollupKey : String
  groupKind : String
  label : String
  title : String
  canonicalText : String
  summary : String
  revises : Option MemoryRow
  proposedSupersede : List String
  modelProvenance : Json
  mergeRefusal : Json
  traceId : Option String
  value : Json
  reviewerInstructions : List String

/-- The row `_create_rollup_candidate` asks the store to create. The snapshots
cover the members and the card the draft revises. -/
def rollupCandidate (draft : RollupDraft) : NewMemory :=
  let members := draft.members
  let scope := sharedProjectScope members
  let summarised := draft.modelProvenance.truthy && decide (draft.mergeRefusal = .null)
  { memoryKey := "vnext.rollup." ++ draft.rollupDigest
    value := .obj
      [("kind", .str "memory_rollup"), ("text", .str draft.canonicalText),
        ("rollup", draft.value)]
    status := .candidate
    memoryType := dominantMemoryType members
    -- a summary written by a model is trusted less than a list of instances
    confidence := some (if summarised then 6 / 10 else 75 / 100)
    confirmationStatus := "unconfirmed"
    title := some draft.title
    canonicalText := draft.canonicalText
    summary := some draft.summary
    domain := dominantDomain members
    sensitivity := highestSensitivity members
    projectScope := scope
    projectId := singleProject scope
    commitDigest := none
    createdByAgentId := none
    runId := none
    metadataJson :=
      [("candidate_kind", .str "memory_rollup"),
        ("rollup_digest", .str draft.rollupDigest),
        ("rollup_key", .str draft.rollupKey),
        ("review_required", .bool true),
        ("source_refs", .strs (members.map fun row => "memory:" ++ row.id)),
        ("project_scope", .strs scope),
        ("trace_id", .optStr draft.traceId),
        ("consolidation", .obj
          [("proposal_kind", .str "rollup"),
            ("cluster_member_ids", .strs (members.map MemoryRow.id)),
            ("member_snapshots",
              -- the acceptance compares the card revised with its snapshot as well
              Json.arr ((members ++ draft.revises.toList).map (snapshotJson env))),
            ("proposed_supersede", .strs draft.proposedSupersede),
            ("survivor_memory_id", .null),
            ("model_provenance", draft.modelProvenance),
            ("merge_refusal", draft.mergeRefusal),
            ("reviewer_instructions", .strs draft.reviewerInstructions),
            ("rollup", .obj
              [("rollup_key", .str draft.rollupKey), ("group_kind", .str draft.groupKind),
                ("topic_label", .str draft.label),
                ("revises_memory_id", .optStr (draft.revises.map MemoryRow.id))])])] }

/-! ### Reading -/

/-- The domain and sensitivity arguments of `list_memories`. -/
structure ReadRequest where
  domains : List String := []
  sensitivityAllowed : Option (List String) := none

/-- The clauses `list_memories` builds from them: no domains is no filter, and
an empty list of sensitivities is answered with no rows. -/
def ReadRequest.admits (request : ReadRequest) (row : MemoryRow) : Bool :=
  (request.domains.isEmpty || decide (row.domain ∈ request.domains)
      || decide (row.domain = "unknown"))
    && request.sensitivityAllowed.all fun allowed => decide (row.sensitivity ∈ allowed)

/-- The card is as closed as these members: no request is shown the card and
not the member. -/
def Veils (card : MemoryRow) (members : List MemoryRow) : Prop :=
  ∀ request : ReadRequest, request.admits card = true →
    ∀ m ∈ members, request.admits m = true

/-- A card veils a member exactly when it carries the member's labels, the
domain `unknown` being readable anyway. -/
theorem veils_iff {card : MemoryRow} {members : List MemoryRow} :
    Veils card members ↔
      ∀ m ∈ members, (m.domain = card.domain ∨ m.domain = "unknown") ∧
        m.sensitivity = card.sensitivity := by
  constructor
  · intro h m hm
    -- the two requests that name nothing but a label of the card
    have hdomain := h { domains := [card.domain] } (by simp [ReadRequest.admits]) m hm
    have hsensitivity := h { sensitivityAllowed := some [card.sensitivity] }
      (by simp [ReadRequest.admits]) m hm
    constructor
    · simpa [ReadRequest.admits] using hdomain
    · simpa [ReadRequest.admits] using hsensitivity
  · intro h request hcard m hm
    obtain ⟨hdomain, hsensitivity⟩ := h m hm
    unfold ReadRequest.admits at hcard ⊢
    rw [hsensitivity]
    rcases hdomain with heq | hunknown
    · rw [heq]
      exact hcard
    · rw [Bool.and_eq_true] at hcard ⊢
      exact ⟨by simp [hunknown], hcard.2⟩

/-! ### The labels, read off the members -/

/-- The first element of the highest value, by its place in the list. -/
theorem argmax_eq_some_iff_split {α β : Type*} [LinearOrder β] {f : α → β} {l : List α} {a : α} :
    List.argmax f l = some a ↔
      ∃ before after, l = before ++ a :: after ∧ (∀ x ∈ before, f x < f a) ∧
        ∀ x ∈ after, f x ≤ f a := by
  induction l generalizing a with
  | nil => simp
  | cons y l ih =>
    rw [List.argmax_cons]
    cases hrest : List.argmax f l with
    | none =>
      rw [List.argmax_eq_none] at hrest
      subst hrest
      constructor
      · rintro h
        cases h
        exact ⟨[], [], rfl, by simp, by simp⟩
      · rintro ⟨before, after, hsplit, -, -⟩
        cases before with
        | nil => simp_all
        | cons b before => simp at hsplit
    | some c =>
      obtain ⟨pre, post, hl, hpre, hpost⟩ := ih.mp hrest
      by_cases hlt : f y < f c
      · -- the head is beaten by a later element
        simp only [hlt, if_true, Option.some.injEq]
        constructor
        · rintro rfl
          refine ⟨y :: pre, post, by rw [hl]; rfl, ?_, hpost⟩
          intro x hx
          rcases List.mem_cons.mp hx with rfl | hx
          · exact hlt
          · exact hpre x hx
        · rintro ⟨before, after, hsplit, hbefore, hafter⟩
          cases before with
          | nil =>
            obtain ⟨rfl, rfl⟩ := List.cons.inj hsplit
            have hc : c ∈ l := List.argmax_mem hrest
            exact absurd (hafter c hc) (not_le.mpr hlt)
          | cons b before =>
            obtain ⟨-, htail⟩ := List.cons.inj hsplit
            have := ih.mpr ⟨before, after, htail, fun x hx => hbefore x (by simp [hx]), hafter⟩
            exact Option.some.inj (hrest.symm.trans this)
      · simp only [hlt, if_false, Option.some.injEq]
        constructor
        · rintro rfl
          refine ⟨[], l, rfl, by simp, ?_⟩
          intro x hx
          exact (List.le_of_mem_argmax hx hrest).trans (not_lt.mp hlt)
        · rintro ⟨before, after, hsplit, hbefore, hafter⟩
          cases before with
          | nil => exact (List.cons.inj hsplit).1
          | cons b before =>
            -- the head would have to be below an element that is not below it
            obtain ⟨rfl, htail⟩ := List.cons.inj hsplit
            have ha : a ∈ l := by
              rw [htail]
              simp
            have hle : f a ≤ f c := List.le_of_mem_argmax ha hrest
            exact absurd ((hbefore y (by simp)).trans_le hle) hlt

/-- `s` is the sensitivity of the first member that no other member outranks. -/
def FirstOfHighest (members : List MemoryRow) (s : String) : Prop :=
  ∃ before top after, members = before ++ top :: after ∧ top.sensitivity = s ∧
    (∀ x ∈ before, sensitivityRank x.sensitivity < sensitivityRank s) ∧
    ∀ x ∈ after, sensitivityRank x.sensitivity ≤ sensitivityRank s

/-- The sensitivity of a card is that of the first member that no other outranks. -/
theorem highestSensitivity_eq_iff {members : List MemoryRow} {s : String} (h : members ≠ []) :
    highestSensitivity members = s ↔ FirstOfHighest members s := by
  -- the fold takes the first of the highest rank
  have hmax : highestSensitivity members = s ↔
      List.argmax sensitivityRank (members.map MemoryRow.sensitivity) = some s := by
    rw [highestSensitivity]
    cases hargmax : List.argmax sensitivityRank (members.map MemoryRow.sensitivity) with
    | none => exact absurd (List.map_eq_nil_iff.mp (List.argmax_eq_none.mp hargmax)) h
    | some c => simp
  rw [hmax, argmax_eq_some_iff_split, FirstOfHighest]
  constructor
  · rintro ⟨before, after, hsplit, hbefore, hafter⟩
    obtain ⟨before', rest, rfl, rfl, hrest⟩ := List.map_eq_append_iff.mp hsplit
    obtain ⟨top, after', rfl, rfl, rfl⟩ := List.map_eq_cons_iff.mp hrest
    refine ⟨before', top, after', rfl, rfl, ?_, ?_⟩
    · exact fun x hx => hbefore _ (List.mem_map_of_mem hx)
    · exact fun x hx => hafter _ (List.mem_map_of_mem hx)
  · rintro ⟨before, top, after, rfl, rfl, hbefore, hafter⟩
    refine ⟨before.map MemoryRow.sensitivity, after.map MemoryRow.sensitivity, by simp, ?_, ?_⟩
    · simpa using hbefore
    · simpa using hafter

theorem eq_singleton_of_nodup {α : Type*} {l : List α} {a : α} (hnodup : l.Nodup) (ha : a ∈ l)
    (hall : ∀ x ∈ l, x = a) : l = [a] := by
  match l with
  | [x] => rw [hall x (by simp)]
  | x :: y :: l =>
    have hxy : x = y := (hall x (by simp)).trans (hall y (by simp)).symm
    simp [hxy] at hnodup

/-- The dominant domain of rows is the domain of one of them if they all share
it, and `unknown` if they do not. -/
theorem dominantDomain_eq {rows : List MemoryRow} {m : MemoryRow} (hm : m ∈ rows) :
    dominantDomain rows =
      if ∀ x ∈ rows, x.domain = m.domain then m.domain else "unknown" := by
  have hmem : ∀ d, d ∈ fromkeys (rows.map MemoryRow.domain) ↔ ∃ x ∈ rows, x.domain = d := by
    simp [mem_fromkeys]
  have hnodup := nodup_fromkeys (rows.map MemoryRow.domain)
  have hdomain : m.domain ∈ fromkeys (rows.map MemoryRow.domain) := (hmem _).mpr ⟨m, hm, rfl⟩
  split
  · next hall =>
    have hone : fromkeys (rows.map MemoryRow.domain) = [m.domain] := by
      refine eq_singleton_of_nodup hnodup hdomain ?_
      intro d hd
      obtain ⟨x, hx, rfl⟩ := (hmem d).mp hd
      exact hall x hx
    rw [dominantDomain, hone]
  · next hmixed =>
    unfold dominantDomain
    split
    · next d hd =>
      -- a single domain would be shared by all rows
      refine absurd (fun x hx => ?_) hmixed
      have hx' := (hmem x.domain).mpr ⟨x, hx, rfl⟩
      rw [hd, List.mem_singleton] at hx' hdomain
      rw [hx', hdomain]
    · rfl

/-- A member's domain is what the card says, or nothing any filter asks for. -/
def DomainKept (requested : List String) (members : List MemoryRow) (m : MemoryRow) : Prop :=
  m.domain = "unknown" ∨ requested = [m.domain] ∨
    requested.length ≠ 1 ∧ ∀ x ∈ members, x.domain = m.domain

/-- A proposal keeps the domain of a member exactly where it is unknown, was asked for
alone, or is that of all members. -/
theorem proposalDomain_keeps_iff {requested : List String} {members : List MemoryRow}
    {m : MemoryRow} (hm : m ∈ members) :
    (m.domain = proposalDomain requested members ∨ m.domain = "unknown") ↔
      DomainKept requested members m := by
  have hdominant : (m.domain = dominantDomain members ∨ m.domain = "unknown") ↔
      m.domain = "unknown" ∨ ∀ x ∈ members, x.domain = m.domain := by
    rw [dominantDomain_eq hm]
    split
    · next hall => exact ⟨fun _ => Or.inr hall, fun _ => Or.inl rfl⟩
    · next hmixed => simp [hmixed]
  unfold DomainKept
  match requested with
  | [] => simpa [proposalDomain] using hdominant
  | [d] =>
    simp only [proposalDomain, List.cons.injEq, and_true, List.length_singleton, ne_eq,
      not_true_eq_false, false_and, or_false]
    rw [or_comm, eq_comm (a := d)]
  | d :: d' :: rest => simpa [proposalDomain] using hdominant

/-! ### Visibility -/

/-- The members whose labels the card carries: the sensitivity is the one kept,
and the domain survives. -/
def LabelsKept (requested : List String) (members : List MemoryRow) (m : MemoryRow) : Prop :=
  FirstOfHighest members m.sensitivity ∧ DomainKept requested members m

/-- A row labelled by the two functions veils a member whose labels are kept,
and no other. -/
theorem labelled_veils_iff {requested : List String} {members repeated : List MemoryRow}
    {card : MemoryRow} (hdomain : card.domain = proposalDomain requested members)
    (hsensitivity : card.sensitivity = highestSensitivity members)
    (hrepeated : repeated ⊆ members) :
    Veils card repeated ↔ ∀ m ∈ repeated, LabelsKept requested members m := by
  rw [veils_iff]
  refine forall₂_congr fun m hm => ?_
  have hm' : m ∈ members := hrepeated hm
  rw [hdomain, hsensitivity, proposalDomain_keeps_iff hm', eq_comm,
    highestSensitivity_eq_iff (List.ne_nil_of_mem hm'), LabelsKept, and_comm]

/-- **Cards and their members.** A card of either kind is as closed as the
members whose text it repeats exactly when it keeps the labels of each of them:
the sensitivity is that of the first member no other outranks, and the domain is
`unknown`, or the one the run was asked for, or common to all members. -/
theorem cards_veil_iff (id : String) (now : UtcMoment) (requested : List String)
    (proposal : ClusterProposal) (draft : RollupDraft) (repeated repeated' : List MemoryRow)
    (h : repeated ⊆ proposal.members) (h' : repeated' ⊆ draft.members) :
    (Veils ((proposalCandidate env requested proposal).row id now) repeated ↔
      ∀ m ∈ repeated, LabelsKept requested proposal.members m) ∧
    (Veils ((rollupCandidate env draft).row id now) repeated' ↔
      ∀ m ∈ repeated', LabelsKept [] draft.members m) :=
  ⟨labelled_veils_iff rfl rfl h, labelled_veils_iff rfl rfl h'⟩

/-- A note about health and a note of a project that were found to say the same. -/
def healthNote : MemoryRow := { MemoryRow.plain "m1" .active [] with domain := "health" }

def projectNote : MemoryRow := { MemoryRow.plain "m2" .active [] with domain := "project" }

/-- Their merge. -/
def mixedMerge : ClusterProposal :=
  { members := [healthNote, projectNote]
    consolidationDigest := "d1"
    proposalKind := "merge"
    title := "Training plan"
    canonicalText := "The training plan follows the diagnosis."
    summary := "merge proposal covering 2 near-duplicate memories (mean cosine 0.97)."
    sourceRefs := []
    similarityStats := .obj []
    modelProvenance := .obj []
    survivorMemoryId := none
    proposedSupersede := ["m1", "m2"]
    mergeRefusal := .null
    reviewerInstructions := [] }

/-- A roll-up of two notes of one project. -/
def projectRollup : RollupDraft :=
  { members := [projectNote, { projectNote with id := "m3" }]
    rollupDigest := "d2"
    rollupKey := "topic:training"
    groupKind := "topic"
    label := "training"
    title := "Roll-up: training"
    canonicalText := "training — 2 instances in total."
    summary := "training — 2 instances in total."
    revises := none
    proposedSupersede := []
    modelProvenance := .null
    mergeRefusal := .null
    traceId := none
    value := .obj []
    reviewerInstructions := [] }

theorem cards_veil_iff_mixedMerge :
    (Veils ((proposalCandidate .plain [] mixedMerge).row "c1" noon) mixedMerge.members ↔
      ∀ m ∈ mixedMerge.members, LabelsKept [] mixedMerge.members m) ∧
    (Veils ((rollupCandidate .plain projectRollup).row "c2" noon) projectRollup.members ↔
      ∀ m ∈ projectRollup.members, LabelsKept [] projectRollup.members m) :=
  cards_veil_iff .plain "c1" noon [] mixedMerge projectRollup mixedMerge.members
    projectRollup.members (List.Subset.refl _) (List.Subset.refl _)

/-- A request for the domain `project` is shown the merge, and would not be
shown the note about health. -/
theorem mixed_merge_is_readable :
    ({ domains := ["project"] } : ReadRequest).admits
        ((proposalCandidate .plain [] mixedMerge).row "c1" noon) = true ∧
      ¬ Veils ((proposalCandidate .plain [] mixedMerge).row "c1" noon) mixedMerge.members := by
  have hadmits : ({ domains := ["project"] } : ReadRequest).admits
      ((proposalCandidate .plain [] mixedMerge).row "c1" noon) = true := by decide
  refine ⟨hadmits, fun h => ?_⟩
  exact absurd (h _ hadmits healthNote (by simp [mixedMerge])) (by decide)

end AliceBot
