import AliceBot.InstanceDiversity
import AliceBot.Library.Effect
import AliceBot.Library.SortedByKey
import AliceBot.RankFusionLaws

/-!
# Reranking

`rerank_fused_candidates` lets a provider score the head of the fused candidates and orders
the head by the scores. The completion is untrusted: whatever is not an array of as many
integers between 0 and 100 as there are documents leaves the candidates as they were.

What is accepted decides an order and nothing else. The slots are counted again on the
reordered list, and the excluded candidates follow it (`Reranked`).

Scores that are equal are told apart by the content key of the rows. It is read when the
provider has answered, outside the block that fails open, and a row whose dates do not
convert raises there (`rerankFusedCandidates_failsOpen_iff`).
-/

namespace AliceBot

open PyLib

/-! ### Texts and scores -/

/-- `RERANK_TEXT_KEYS`. -/
def rerankTextKeys : List String := ["title", "canonical_text", "summary", "text"]

/-- `RERANK_TEXT_MAX_CHARS`. -/
def rerankTextMaxChars : Nat := 600

/-- `RERANK_EMPTY_TEXT`. -/
def rerankEmptyText : String := "(no content)"

/-- `rerank_candidate_text`. -/
def rerankCandidateText (item : Row) : String :=
  let parts := rerankTextKeys.filterMap fun key =>
    ((item.cell key).asStr?.filter fun value => strip value != "").map strip
  let text := collapse (" ".intercalate (fromkeys parts))
  if text = "" then rerankEmptyText else String.ofList (text.toList.take rerankTextMaxChars)

/-- `build_rerank_prompt`, `RERANK_PROMPT_TEMPLATE` with its places filled. -/
def buildRerankPrompt (query : String) (texts : List String) : String :=
  let documents := "\n".intercalate ((texts.zipIdx 1).map fun entry =>
    "[" ++ toString entry.2 ++ "] " ++ entry.1)
  "Score each document's relevance to the query.\n\nQuery: " ++ query ++
    "\n\nDocuments:\n" ++ documents ++ "\n\nReply with only a JSON array of " ++
    toString texts.length ++ " integers, one per document in order, each from 0 (unrelated) " ++
    "to 100 (directly relevant). No other text."

/-- `content[content.find("[") : content.rfind("]") + 1]`, where both are found in order. -/
def scoreSpan (content : String) : Option String :=
  let opened := content.toList.dropWhile (· != '[')
  let span := (opened.reverse.dropWhile (· != ']')).reverse
  if span = [] then none else some (String.ofList span)

/-- A score of the array, if it is one. -/
def rerankScore : Json → Option Int
  | .int value => if 0 ≤ value ∧ value ≤ 100 then some value else none
  | _ => none

section Rerank

variable (loads : String → Option Json)

/-- `parse_rerank_scores`, with `None` for the errors that the caller fails open on. -/
def parseRerankScores (content : String) (expectedCount : Nat) : Option (List Int) := do
  let span ← scoreSpan content
  let parsed ← loads span
  let values ← parsed.asArr?
  if values.length = expectedCount then values.mapM rerankScore else none

/-! ### The order -/

/-- What a provider does with a prompt. -/
inductive ProviderAnswer where
  | completion (content : String)
  | raised

/-- What a call may raise. -/
inductive RerankError where
  | configuration (message : String)
  | timestamp (error : TimestampError)
deriving DecidableEq

/-- `RerankOutcome`. -/
structure RerankOutcome where
  order : List Nat
  scores : Option (List Int)
  status : String
  reordered : Bool
  candidatesScored : Nat

/-- `_identity_outcome`. -/
def identityOutcome (count : Nat) (status : String) : RerankOutcome :=
  ⟨List.range count, none, status, false, 0⟩

variable (env : RowEnv)

/-- The key a scored row is sorted by. -/
abbrev RerankKey := Int ×ₗ ContentKey ×ₗ String

/-- `(-score, *content_stable_tiebreak(item), str(item.get("id")))`. -/
def rerankKey (scored : Row × Int) : Except TimestampError RerankKey :=
  (contentStableTiebreak env scored.1).map fun content =>
    toLex (-scored.2, toLex (content, scored.1.id env))

/-- `sorted(range(scored_count), key=…)`. -/
def headOrder (keys : List RerankKey) : List Nat :=
  (sortByKeys Prod.fst keys.zipIdx).map Prod.snd

/-- `rerank`. The provider scores the head of the list, and the scores decide its order;
without usable scores the order stays. -/
def rerank (provider : String → ProviderAnswer) (query : String) (candidates : List Row)
    (maxCandidates : Int) : Except RerankError RerankOutcome :=
  if maxCandidates < 1 then .error (.configuration "rerank max_candidates must be at least 1")
  else
    let total := candidates.length
    let scoredCount := min total maxCandidates.toNat
    if scoredCount < 2 then .ok (identityOutcome total "noop: fewer than two candidates")
    else
      let head := candidates.take scoredCount
      -- only the head is shown to the provider
      let scores := match provider (buildRerankPrompt query (head.map rerankCandidateText)) with
        | .completion content => parseRerankScores loads content scoredCount
        | .raised => none
      match scores with
      -- whatever goes wrong with the provider, the order stays
      | none => .ok (identityOutcome total "fail_open: provider_error")
      | some scores =>
        match (head.zip scores).mapM (rerankKey env) with
        | .error e => .error (.timestamp e)
        | .ok keys =>
          let order := headOrder keys ++ (List.range total).drop scoredCount
          .ok ⟨order, some scores, "reranked", order != List.range total, scoredCount⟩

/-- `rerank_fused_candidates`. The candidates are reranked, and their ranks and slots
are set anew. Excluded candidates take no part. -/
def rerankFusedCandidates (provider : String → ProviderAnswer) (query : String)
    (candidates : List RetrievalCandidate) (limit maxCandidates : Int) :
    Except RerankError (List RetrievalCandidate × RerankOutcome) :=
  if limit < 1 then .error (.configuration "rerank limit must be at least 1")
  else
    let reorderable := candidates.filter (·.reorderable)
    match rerank loads env provider query (reorderable.map (·.item)) maxCandidates with
    | .error e => .error e
    | .ok outcome =>
      if outcome.reordered = false then .ok (candidates, outcome)
      else
        -- excluded candidates go behind the pool
        let policyExcluded := candidates.filter fun candidate => !candidate.reorderable
        let reordered := outcome.order.filterMap fun index => reorderable[index]?
        let selectedSlots := min limit reordered.length
        .ok ((((reordered ++ policyExcluded).map (·, false)).zipIdx 1).map
          (rebuildCandidate selectedSlots), outcome)

end Rerank

/-! ### Accepted scores -/

section Accepted

variable {loads : String → Option Json}

/-- The text between the first `[` and the last `]` is an array of so many integers between
0 and 100. -/
def AcceptedScores (loads : String → Option Json) (content : String) (expectedCount : Nat)
    (scores : List Int) : Prop :=
  ∃ span, scoreSpan content = some span ∧ loads span = some (.arr (scores.map .int)) ∧
    scores.length = expectedCount ∧ ∀ score ∈ scores, 0 ≤ score ∧ score ≤ 100

/-- A list of values is a list of scores exactly if all of them are integers from 0 to
100. -/
theorem mapM_rerankScore {values : List Json} {scores : List Int} :
    values.mapM rerankScore = some scores ↔
      values = scores.map .int ∧ ∀ score ∈ scores, 0 ≤ score ∧ score ≤ 100 := by
  induction values generalizing scores with
  | nil =>
    rw [List.mapM_nil]
    constructor
    · intro h
      obtain rfl := Option.some.inj h
      exact ⟨rfl, List.forall_mem_nil _⟩
    · rintro ⟨h, _⟩
      rw [List.map_eq_nil_iff.mp h.symm]
      rfl
  | cons value values ih =>
    rw [List.mapM_cons]
    constructor
    · intro h
      obtain ⟨score, hscore, h⟩ := Option.bind_eq_some_iff.mp h
      obtain ⟨rest, hrest, h⟩ := Option.bind_eq_some_iff.mp h
      obtain rfl := Option.some.inj h
      obtain ⟨rfl, hrange⟩ := ih.mp hrest
      -- a score is an integer within the range; any other value refuses the whole list
      cases value with
      | int n =>
        rw [rerankScore] at hscore
        split at hscore
        · next hn =>
          obtain rfl := Option.some.inj hscore
          exact ⟨rfl, List.forall_mem_cons.mpr ⟨hn, hrange⟩⟩
        · cases hscore
      | _ => cases hscore
    · rintro ⟨h, hrange⟩
      obtain ⟨score, rest, rfl, rfl, rfl⟩ := List.map_eq_cons_iff.mp h.symm
      obtain ⟨hscore, hrest⟩ := List.forall_mem_cons.mp hrange
      rw [rerankScore, if_pos hscore, ih.mpr ⟨rfl, hrest⟩]
      rfl

/-- Which completions are scores: one array of integers in the range, as many as rows
were shown. -/
theorem parseRerankScores_eq_some_iff {content : String} {expectedCount : Nat}
    {scores : List Int} :
    parseRerankScores loads content expectedCount = some scores ↔
      AcceptedScores loads content expectedCount scores := by
  rw [parseRerankScores]
  constructor
  · intro h
    obtain ⟨span, hspan, h⟩ := Option.bind_eq_some_iff.mp h
    obtain ⟨parsed, hparsed, h⟩ := Option.bind_eq_some_iff.mp h
    obtain ⟨values, hvalues, h⟩ := Option.bind_eq_some_iff.mp h
    split at h
    · next hlength =>
      obtain ⟨rfl, hrange⟩ := mapM_rerankScore.mp h
      -- only an array of the expected length has scores
      cases parsed with
      | arr items =>
        obtain rfl := Option.some.inj hvalues
        exact ⟨span, hspan, hparsed, by rwa [List.length_map] at hlength, hrange⟩
      | _ => cases hvalues
    · cases h
  · rintro ⟨span, hspan, hloads, hlength, hrange⟩
    rw [hspan]
    show (loads span).bind _ = _
    rw [hloads]
    show (if (scores.map Json.int).length = expectedCount then _ else _) = _
    rw [if_pos (by rw [List.length_map, hlength]), mapM_rerankScore]
    exact ⟨rfl, hrange⟩

end Accepted

/-! ### The head in its new order -/

section Head

variable {env : RowEnv}

/-- The key of a scored row whose dates can be read. -/
def scoredKey (env : RowEnv) (scored : RetrievalCandidate × Int) : RerankKey :=
  toLex (-scored.2, toLex (contentKey env scored.1.item, scored.1.item.id env))

/-- The keys are read exactly where the dates of every scored row convert. -/
theorem mapM_rerankKey {scored : List (RetrievalCandidate × Int)} :
    (∃ keys, (scored.map fun entry => (entry.1.item, entry.2)).mapM (rerankKey env) = .ok keys) ↔
      ∀ entry ∈ scored, DatesConvert env entry.1.item := by
  constructor
  · rintro ⟨keys, hkeys⟩ entry hentry
    obtain ⟨key, hkey⟩ := PyLib.exists_ok_of_mapM_eq_ok hkeys _ (List.mem_map_of_mem hentry)
    refine (contentStableTiebreak_ok_iff env entry.1.item).mp ?_
    rw [rerankKey] at hkey
    cases hcontent : contentStableTiebreak env entry.1.item with
    | ok content => exact ⟨content, rfl⟩
    | error e =>
      rw [hcontent] at hkey
      cases hkey
  · intro hdates
    refine PyLib.exists_mapM_eq_ok fun row hrow => ?_
    obtain ⟨entry, hentry, rfl⟩ := List.mem_map.mp hrow
    obtain ⟨content, hcontent⟩ := (contentStableTiebreak_ok_iff env entry.1.item).mpr
      (hdates entry hentry)
    exact ⟨_, by rw [rerankKey, hcontent]; rfl⟩

/-- The keys of the scored rows, once all of them could be read. -/
theorem keys_of_mapM {scored : List (RetrievalCandidate × Int)} {keys : List RerankKey}
    (h : (scored.map fun entry => (entry.1.item, entry.2)).mapM (rerankKey env) = .ok keys) :
    keys = scored.map (scoredKey env) := by
  have hread := PyLib.forall₂_of_mapM_eq_ok h
  rw [List.forall₂_map_left_iff] at hread
  have hkeys : List.Forall₂ (fun entry key => scoredKey env entry = key) scored keys := by
    refine hread.imp fun entry key hkey => ?_
    rw [rerankKey] at hkey
    rw [scoredKey, contentKey]
    cases hcontent : contentStableTiebreak env entry.1.item with
    | ok content =>
      rw [hcontent] at hkey
      exact Except.ok.inj hkey
    | error e =>
      rw [hcontent] at hkey
      cases hkey
  exact (List.forall₂_eq_eq_eq ▸ List.forall₂_map_left_iff.mpr hkeys).symm

variable (env) in
/-- The order of the head, as the candidates in that order. -/
theorem exists_headOrder (candidates : List RetrievalCandidate) (scores : List Int) (n : Nat) :
    ∃ scored : List (RetrievalCandidate × Int),
      scored.Perm ((candidates.take n).zip scores) ∧
      scored.Pairwise (KeyOrder (scoredKey env)) ∧
      (headOrder (((candidates.take n).zip scores).map (scoredKey env))).filterMap
        (fun index => candidates[index]?) = scored.map Prod.fst := by
  let pairs := (candidates.take n).zip scores
  let sorted := sortByKeys (fun entry : (RetrievalCandidate × Int) × Nat =>
    scoredKey env entry.1) pairs.zipIdx
  have hsorted : sorted.Perm pairs.zipIdx := sortByKeys_perm _
  have horder : headOrder (pairs.map (scoredKey env)) = sorted.map Prod.snd := by
    have hzip : (pairs.map (scoredKey env)).zipIdx =
        pairs.zipIdx.map fun entry => (scoredKey env entry.1, entry.2) := by
      rw [List.zipIdx_map]
      rfl
    rw [headOrder, hzip, ← map_sortByKeys, List.map_map]
    rfl
  refine ⟨sorted.map Prod.fst, ?_, ?_, ?_⟩
  · have hfirst := hsorted.map Prod.fst
    rwa [List.zipIdx_map_fst] at hfirst
  · exact List.pairwise_map.mpr (sortByKeys_sorted _)
  · rw [horder, List.filterMap_map, List.map_map, ← List.filterMap_eq_map]
    refine List.filterMap_congr fun entry hentry => ?_
    -- the index of a scored candidate is its place in the pool
    have hplace := List.mem_zipIdx_iff_getElem?.mp (hsorted.mem_iff.mp hentry)
    obtain ⟨hcandidate, _⟩ := List.getElem?_zip_eq_some.mp hplace
    rw [List.getElem?_take] at hcandidate
    split at hcandidate
    · exact hcandidate
    · cases hcandidate

end Head

/-! ### What reranking promises -/

section Promise

variable (loads : String → Option Json) (env : RowEnv) (provider : String → ProviderAnswer)
  (query : String) (candidates : List RetrievalCandidate) (limit maxCandidates : Int)

/-- The candidates that are scored. -/
def scoredHead : List RetrievalCandidate := (pool candidates).take maxCandidates.toNat

/-- The provider is asked, and its scores are accepted. -/
def ProviderScores (scores : List Int) : Prop :=
  2 ≤ (scoredHead candidates maxCandidates).length ∧
    ∃ content, provider (buildRerankPrompt query
        ((scoredHead candidates maxCandidates).map fun candidate =>
          rerankCandidateText candidate.item)) = .completion content ∧
      AcceptedScores loads content (scoredHead candidates maxCandidates).length scores

/-- The head sorted by the scores, then the rest of the pool, then the excluded candidates,
numbered from 1 and with the slots given to the first of them. -/
structure Reranked (scores : List Int) (result : List RetrievalCandidate) : Prop where
  order : ∃ scored : List (RetrievalCandidate × Int),
    scored.Perm ((scoredHead candidates maxCandidates).zip scores) ∧
    scored.Pairwise (KeyOrder (scoredKey env)) ∧
    result.map (·.subject) = ((scored.map Prod.fst ++
      (pool candidates).drop maxCandidates.toNat) ++ policyExcluded candidates).map (·.subject)
  perm : (result.map (·.subject)).Perm (candidates.map (·.subject))
  ranks : result.map (·.rank) = List.range' 1 candidates.length
  slots : result.map (·.selected) =
    List.replicate (min limit.toNat (pool candidates).length) true ++
      List.replicate (candidates.length - min limit.toNat (pool candidates).length) false
  excluded : (result.drop (pool candidates).length).map (·.exclusionReason) =
    (policyExcluded candidates).map (·.exclusionReason)

end Promise

section Kept

variable {loads : String → Option Json} {env : RowEnv} {provider : String → ProviderAnswer}
  {query : String} {candidates reordered : List RetrievalCandidate} {limit maxCandidates : Int}
  {scores : List Int}

/-- The slots of a rebuilt pool are its first places. -/
theorem selected_rebuilt_pool {slots : Int} {rows : List (RetrievalCandidate × Bool)}
    (h : ∀ row ∈ rows, row.1.reorderable = true) : ∀ position : Nat,
    (rebuilt slots position rows).map (·.selected) =
      List.replicate (min (slots + 1 - position).toNat rows.length) true ++
        List.replicate (rows.length - min (slots + 1 - position).toNat rows.length) false := by
  induction rows with
  | nil =>
    intro position
    simp [rebuilt]
  | cons row rows ih =>
    intro position
    obtain ⟨hfirst, hrest⟩ := List.forall_mem_cons.mp h
    have hcons : rebuilt slots position (row :: rows) =
        rebuildCandidate slots (row, position) :: rebuilt slots (position + 1) rows := rfl
    have hselected : (rebuildCandidate slots (row, position)).selected =
        decide ((position : Int) ≤ slots) := by
      simp [rebuildCandidate, hfirst]
    rw [hcons, List.map_cons, ih hrest, hselected, List.length_cons]
    -- a place within the slots is selected, and all after the last slot are not
    by_cases hslot : (position : Int) ≤ slots
    · have hmore : min (slots + 1 - (position : Int)).toNat (rows.length + 1) =
          min (slots + 1 - ((position + 1 : Nat) : Int)).toNat rows.length + 1 := by
        push_cast
        omega
      rw [decide_eq_true hslot, hmore, List.replicate_succ, Nat.add_sub_add_right]
      rfl
    · have hnone : (slots + 1 - (position : Int)).toNat = 0 := by omega
      have hlater : (slots + 1 - ((position + 1 : Nat) : Int)).toNat = 0 := by
        push_cast
        omega
      rw [decide_eq_false hslot, hnone, hlater, Nat.zero_min, Nat.zero_min, Nat.sub_zero,
        Nat.sub_zero, List.replicate_succ]
      rfl

/-- An excluded candidate keeps its reason. -/
theorem reasons_rebuilt_excluded {slots : Int} {position : Nat}
    {rows : List (RetrievalCandidate × Bool)} (h : ∀ row ∈ rows, row.1.reorderable = false) :
    (rebuilt slots position rows).map (·.exclusionReason) =
      rows.map fun row => row.1.exclusionReason := by
  conv_rhs => rw [← List.zipIdx_map_fst position rows, List.map_map]
  rw [rebuilt, List.map_map]
  refine List.map_congr_left fun row hrow => ?_
  have hexcluded := h row.1 (List.fst_mem_of_mem_zipIdx hrow)
  simp [rebuildCandidate, hexcluded]

/-- A pool in another order, rebuilt with the excluded candidates behind it. -/
theorem reranked_rebuilt (hlimit : 1 ≤ limit) {scored : List (RetrievalCandidate × Int)}
    (hscores : scores.length = (scoredHead candidates maxCandidates).length)
    (hscored : scored.Perm ((scoredHead candidates maxCandidates).zip scores))
    (hsorted : scored.Pairwise (KeyOrder (scoredKey env)))
    (hreordered : reordered = scored.map Prod.fst ++ (pool candidates).drop maxCandidates.toNat) :
    Reranked env candidates limit maxCandidates scores
      (rebuilt (min limit reordered.length) 1
        ((reordered ++ policyExcluded candidates).map (·, false))) := by
  -- the scored head is sorted, and the tail of the pool stays
  have hpool : reordered.Perm (pool candidates) := by
    have hhead : (scored.map Prod.fst).Perm (scoredHead candidates maxCandidates) := by
      have hfirst := hscored.map Prod.fst
      rwa [List.map_fst_zip (le_of_eq hscores.symm)] at hfirst
    rw [hreordered]
    refine (hhead.append_right _).trans (List.Perm.of_eq ?_)
    exact List.take_append_drop _ _
  have hall : (reordered ++ policyExcluded candidates).Perm candidates :=
    (hpool.append_right _).trans (List.filter_append_perm _ _)
  have hmembers : ∀ row ∈ reordered.map (·, false), row.1.reorderable = true := by
    intro row hrow
    obtain ⟨candidate, hcandidate, rfl⟩ := List.mem_map.mp hrow
    exact (List.mem_filter.mp (hpool.mem_iff.mp hcandidate)).2
  have hexcluded : ∀ row ∈ (policyExcluded candidates).map (·, false),
      row.1.reorderable = false := by
    intro row hrow
    obtain ⟨candidate, hcandidate, rfl⟩ := List.mem_map.mp hrow
    simpa using (List.mem_filter.mp hcandidate).2
  -- the rebuilt list in two pieces: the pool, and the excluded rows behind it
  have hpieces : ∀ slots : Int, rebuilt slots 1 ((reordered ++ policyExcluded candidates).map
      (·, false)) = rebuilt slots 1 (reordered.map (·, false)) ++
        rebuilt slots (1 + reordered.length) ((policyExcluded candidates).map (·, false)) := by
    intro slots
    rw [List.map_append, rebuilt_append, List.length_map]
  have hlength := hpool.length_eq
  have hfirst : ((reordered ++ policyExcluded candidates).map (·, false)).map Prod.fst =
      reordered ++ policyExcluded candidates := by
    rw [List.map_map]
    exact List.map_id _
  refine ⟨⟨scored, hscored, hsorted, ?_⟩, ?_, ?_, ?_, ?_⟩
  · rw [subjects_rebuilt, hfirst, ← hreordered]
  · rw [subjects_rebuilt, hfirst]
    exact hall.map _
  · rw [ranks_rebuilt, List.length_map, hall.length_eq]
  · -- the slots of the pool, and none behind it
    have hslots : (min limit (reordered.length : Int) + 1 - ((1 : Nat) : Int)).toNat =
        min limit.toNat reordered.length := by
      push_cast
      omega
    have hsum : candidates.length = reordered.length + (policyExcluded candidates).length := by
      rw [← hall.length_eq, List.length_append]
    have hrest : candidates.length - min limit.toNat reordered.length =
        (reordered.length - min limit.toNat reordered.length) +
          (policyExcluded candidates).length := by
      omega
    have hnone : (rebuilt (min limit (reordered.length : Int)) (1 + reordered.length)
        ((policyExcluded candidates).map (·, false))).map (·.selected) =
        List.replicate (policyExcluded candidates).length false := by
      refine List.eq_replicate_iff.mpr ⟨?_, fun selected hselected => ?_⟩
      · rw [List.length_map, length_rebuilt, List.length_map]
      · obtain ⟨candidate, hcandidate, rfl⟩ := List.mem_map.mp hselected
        exact selected_rebuilt_excluded hexcluded candidate hcandidate
    rw [hpieces, List.map_append, selected_rebuilt_pool hmembers, hslots, hnone, List.length_map,
      ← hlength, hrest, List.replicate_add, Nat.min_assoc, Nat.min_self, List.append_assoc]
  · have hplace : (rebuilt (min limit (reordered.length : Int)) 1
        (reordered.map (·, false))).length = (pool candidates).length := by
      rw [length_rebuilt, List.length_map, hlength]
    rw [hpieces, ← hplace, List.drop_left, reasons_rebuilt_excluded hexcluded, List.map_map]
    rfl

/-! ### Every answer of the provider -/

theorem length_scoredHead :
    (scoredHead candidates maxCandidates).length =
      min (pool candidates).length maxCandidates.toNat := by
  rw [scoredHead, List.length_take, Nat.min_comm]

/-- What is handed to the provider, and scored. -/
theorem take_items :
    ((pool candidates).map (·.item)).take (min (pool candidates).length maxCandidates.toNat) =
      (scoredHead candidates maxCandidates).map (·.item) := by
  rw [← List.map_take, scoredHead, Nat.min_comm, ← List.take_take, List.take_length]

variable (env) in
/-- Without accepted scores the order stands. -/
theorem rerank_of_not_scores (hmax : 1 ≤ maxCandidates)
    (h : ∀ scores, ¬ ProviderScores loads provider query candidates maxCandidates scores) :
    ∃ status, rerank loads env provider query ((pool candidates).map (·.item)) maxCandidates =
      .ok (identityOutcome (pool candidates).length status) := by
  rw [rerank, if_neg (not_lt.mpr hmax)]
  dsimp only
  rw [List.length_map]
  split
  · exact ⟨_, rfl⟩
  next htwo =>
  rw [← length_scoredHead, not_lt] at htwo
  rw [take_items, List.map_map]
  split
  · exact ⟨_, rfl⟩
  next scores hscores =>
  -- a completion that has no scores is no answer of scores
  split at hscores
  · next content hcontent =>
    rw [← length_scoredHead] at hscores
    exact absurd ⟨htwo, content, hcontent, parseRerankScores_eq_some_iff.mp hscores⟩ (h scores)
  · cases hscores

variable (env) in
/-- Accepted scores are sorted by, where the keys can be read. -/
theorem rerank_of_scores (hmax : 1 ≤ maxCandidates)
    (h : ProviderScores loads provider query candidates maxCandidates scores) :
    rerank loads env provider query ((pool candidates).map (·.item)) maxCandidates =
      match (((scoredHead candidates maxCandidates).zip scores).map fun entry =>
        (entry.1.item, entry.2)).mapM (rerankKey env) with
      | .error e => .error (.timestamp e)
      | .ok keys =>
        let order := headOrder keys ++
          (List.range (pool candidates).length).drop (scoredHead candidates maxCandidates).length
        .ok ⟨order, some scores, "reranked", order != List.range (pool candidates).length,
          (scoredHead candidates maxCandidates).length⟩ := by
  obtain ⟨htwo, content, hcontent, haccepted⟩ := h
  have hzip : ((scoredHead candidates maxCandidates).zip scores).map
      (fun entry => (entry.1.item, entry.2)) =
      ((scoredHead candidates maxCandidates).map (·.item)).zip scores := by
    rw [List.zip_map_left]
    rfl
  rw [rerank, if_neg (not_lt.mpr hmax)]
  dsimp only
  rw [List.length_map, ← length_scoredHead, if_neg (not_lt.mpr htwo), length_scoredHead,
    take_items, List.map_map, ← length_scoredHead]
  have hcontent' : provider (buildRerankPrompt query
      ((scoredHead candidates maxCandidates).map (rerankCandidateText ∘ fun candidate =>
        candidate.item))) = .completion content := hcontent
  rw [hcontent', hzip]
  dsimp only
  rw [parseRerankScores_eq_some_iff.mpr haccepted]

/-- The candidates as they are, or reranked by the scores that were accepted. -/
def FailsOpen (loads : String → Option Json) (env : RowEnv) (provider : String → ProviderAnswer)
    (query : String) (candidates : List RetrievalCandidate) (limit maxCandidates : Int) : Prop :=
  ∃ result outcome, rerankFusedCandidates loads env provider query candidates limit
      maxCandidates = .ok (result, outcome) ∧
    (result = candidates ∨ ∃ scores,
      ProviderScores loads provider query candidates maxCandidates scores ∧
      Reranked env candidates limit maxCandidates scores result) ∧
    ((∀ scores, ¬ ProviderScores loads provider query candidates maxCandidates scores) →
      result = candidates)

theorem failsOpen_of_not_scores (hlimit : 1 ≤ limit) (hmax : 1 ≤ maxCandidates)
    (h : ∀ scores, ¬ ProviderScores loads provider query candidates maxCandidates scores) :
    FailsOpen loads env provider query candidates limit maxCandidates := by
  obtain ⟨status, hstatus⟩ := rerank_of_not_scores env hmax h
  refine ⟨candidates, identityOutcome (pool candidates).length status, ?_, Or.inl rfl, fun _ => rfl⟩
  rw [rerankFusedCandidates, if_neg (not_lt.mpr hlimit)]
  show (match rerank loads env provider query ((pool candidates).map (·.item)) maxCandidates with
    | .error e => _ | .ok outcome => _) = _
  rw [hstatus]
  rfl

/-- The indices behind the head bring the rest of the pool. -/
theorem filterMap_drop_range (l : List RetrievalCandidate) (n : Nat) :
    ((List.range l.length).drop n).filterMap (fun index => l[index]?) = l.drop n := by
  have hread : (List.range l.length).map (fun index => l[index]?) = l.map some := by
    refine List.ext_getElem (by simp) fun index hleft hright => ?_
    simp
  have hdrop : ((List.range l.length).drop n).map (fun index => l[index]?) =
      (l.drop n).map some := by
    rw [List.map_drop, hread, ← List.map_drop]
  have hsplit : ((List.range l.length).drop n).filterMap (fun index => l[index]?) =
      (((List.range l.length).drop n).map fun index => l[index]?).filterMap id := by
    rw [List.filterMap_map]
    rfl
  rw [hsplit, hdrop, List.filterMap_map]
  exact List.filterMap_some

theorem drop_scoredHead :
    (pool candidates).drop (scoredHead candidates maxCandidates).length =
      (pool candidates).drop maxCandidates.toNat := by
  rw [length_scoredHead]
  obtain hle | hle := Nat.le_total (pool candidates).length maxCandidates.toNat
  · rw [Nat.min_eq_left hle, List.drop_length, List.drop_eq_nil_of_le hle]
  · rw [Nat.min_eq_right hle]

/-- The call itself, where the scores are accepted. -/
theorem rerankFusedCandidates_of_scores (hlimit : 1 ≤ limit) (hmax : 1 ≤ maxCandidates)
    (h : ProviderScores loads provider query candidates maxCandidates scores)
    (hdates : ∀ candidate ∈ scoredHead candidates maxCandidates,
      DatesConvert env candidate.item) :
    ∃ result outcome, rerankFusedCandidates loads env provider query candidates limit
        maxCandidates = .ok (result, outcome) ∧
      (result = candidates ∨ Reranked env candidates limit maxCandidates scores result) := by
  have hscores : scores.length = (scoredHead candidates maxCandidates).length := by
    obtain ⟨_, _, _, _, _, _, hlength, _⟩ := h
    exact hlength
  obtain ⟨keys, hkeys⟩ := mapM_rerankKey.mpr fun entry hentry =>
    hdates entry.1 (List.of_mem_zip (show (entry.1, entry.2) ∈ _ from hentry)).1
  -- the scored head in its new order, and the rest of the pool behind it
  obtain ⟨scored, hscored, hsorted, horder⟩ :=
    exists_headOrder env (pool candidates) scores maxCandidates.toNat
  have hrerank := rerank_of_scores env hmax h
  rw [hkeys, keys_of_mapM hkeys] at hrerank
  rw [rerankFusedCandidates, if_neg (not_lt.mpr hlimit)]
  dsimp only at hrerank ⊢
  have hpool : candidates.filter (fun candidate => candidate.reorderable) = pool candidates := rfl
  rw [hpool, hrerank]
  dsimp only
  -- an order that is the old one is answered without a rebuild
  split
  · exact ⟨_, _, rfl, Or.inl rfl⟩
  · refine ⟨_, _, rfl, Or.inr ?_⟩
    refine reranked_rebuilt hlimit hscores hscored hsorted ?_
    rw [List.filterMap_append, filterMap_drop_range, drop_scoredHead]
    exact congrArg (· ++ _) horder

/-- Where the provider has given scores, what is left to go wrong is a date of the
scored head that cannot be converted. -/
theorem failsOpen_of_scores (hlimit : 1 ≤ limit) (hmax : 1 ≤ maxCandidates)
    (h : ProviderScores loads provider query candidates maxCandidates scores) :
    FailsOpen loads env provider query candidates limit maxCandidates ↔
      ∀ candidate ∈ scoredHead candidates maxCandidates, DatesConvert env candidate.item := by
  constructor
  · rintro ⟨result, outcome, hresult, -, -⟩
    have hkeys : ∃ keys, (((scoredHead candidates maxCandidates).zip scores).map fun entry =>
        (entry.1.item, entry.2)).mapM (rerankKey env) = .ok keys := by
      by_contra hnone
      -- a key that cannot be read raises out of the call
      rw [rerankFusedCandidates, if_neg (not_lt.mpr hlimit)] at hresult
      have hrerank := rerank_of_scores env hmax h
      cases hread : (((scoredHead candidates maxCandidates).zip scores).map fun entry =>
        (entry.1.item, entry.2)).mapM (rerankKey env) with
      | ok keys => exact hnone ⟨keys, hread⟩
      | error e =>
        rw [hread] at hrerank
        dsimp only at hresult hrerank
        have hpool : candidates.filter (fun candidate => candidate.reorderable) =
          pool candidates := rfl
        rw [hpool, hrerank] at hresult
        cases hresult
    intro candidate hcandidate
    obtain ⟨_, _, _, _, _, _, hlength, _⟩ := h
    rw [← List.map_fst_zip (le_of_eq hlength.symm)] at hcandidate
    obtain ⟨entry, hentry, rfl⟩ := List.mem_map.mp hcandidate
    exact mapM_rerankKey.mp hkeys entry hentry
  · intro hdates
    obtain ⟨result, outcome, hresult, hreranked⟩ :=
      rerankFusedCandidates_of_scores hlimit hmax h hdates
    exact ⟨result, outcome, hresult, hreranked.imp_right fun hr => ⟨scores, h, hr⟩,
      fun hnone => absurd h (hnone scores)⟩

/-- **Reranking fails open** exactly where the dates of the scored candidates can be read
whenever the provider's scores are accepted. -/
theorem rerankFusedCandidates_failsOpen_iff (hlimit : 1 ≤ limit) (hmax : 1 ≤ maxCandidates) :
    FailsOpen loads env provider query candidates limit maxCandidates ↔
      ∀ scores, ProviderScores loads provider query candidates maxCandidates scores →
        ∀ candidate ∈ scoredHead candidates maxCandidates, DatesConvert env candidate.item := by
  by_cases h : ∃ scores, ProviderScores loads provider query candidates maxCandidates scores
  · obtain ⟨scores, hscores⟩ := h
    rw [failsOpen_of_scores hlimit hmax hscores]
    exact ⟨fun hdates _ _ => hdates, fun hall => hall scores hscores⟩
  · push Not at h
    exact iff_of_true (failsOpen_of_not_scores hlimit hmax h)
      fun scores hscores => absurd hscores (h scores)

end Kept

/-! ### Two candidates -/

/-- A fused candidate with the one slot. -/
def fusedWinner (item : Row) : RetrievalCandidate where
  item
  targetType := "memory"
  rank := 1
  rrfScore := 0
  stageRanks := []
  selected := true

/-- A candidate of a clause, brought in behind it without a fusion. -/
def clauseBackfill (item : Row) : RetrievalCandidate where
  item
  targetType := "memory"
  rank := 2
  rrfScore := 0
  stageRanks := []
  selected := false
  exclusionReason := some trimmedByLimit

/-- A provider that finds the second document better. -/
def secondFirst : String → ProviderAnswer := fun _ => .completion "[10, 90]"

/-- The reading of that text. -/
def twoScores : String → Option Json := fun _ => some (.arr [.int 10, .int 90])

theorem secondFirst_scores (first second : Row) :
    ProviderScores twoScores secondFirst "query" [fusedWinner first, clauseBackfill second] 20
        [10, 90] ∧
      scoredHead [fusedWinner first, clauseBackfill second] 20 =
        [fusedWinner first, clauseBackfill second] :=
  ⟨⟨Nat.le_refl 2, "[10, 90]", rfl, "[10, 90]", by decide +kernel, rfl, rfl, by decide⟩, rfl⟩

theorem failsOpen_named :
    FailsOpen twoScores RowEnv.plain secondFirst "query"
      [fusedWinner (rowNamed "a"), clauseBackfill (rowNamed "b")] 1 20 := by
  refine (rerankFusedCandidates_failsOpen_iff (by decide) (by decide)).mpr fun _ _ => ?_
  rw [(secondFirst_scores (rowNamed "a") (rowNamed "b")).2]
  refine List.forall_mem_cons.mpr ⟨?_, List.forall_mem_singleton.mpr ?_⟩
  · exact (contentStableTiebreak_ok_iff _ _).mp ⟨_, rfl⟩
  · exact (contentStableTiebreak_ok_iff _ _).mp ⟨_, rfl⟩

/-- Scores that are accepted raise where a date cannot be told in UTC. -/
theorem not_failsOpen_farRow :
    ¬ FailsOpen twoScores RowEnv.readingFirstHour secondFirst "query"
      [fusedWinner (rowNamed "b"), clauseBackfill farRow] 1 20 := by
  intro h
  obtain ⟨hscores, hhead⟩ := secondFirst_scores (rowNamed "b") farRow
  have hdates := (failsOpen_of_scores (by decide) (by decide) hscores).mp h
  rw [hhead] at hdates
  have hraised : contentStableEventTime RowEnv.readingFirstHour farRow = .error .overflow := by
    decide +kernel
  obtain ⟨key, hkey⟩ := (contentStableTiebreak_ok_iff _ _).mpr
    (hdates (clauseBackfill farRow) (List.mem_cons_of_mem _ List.mem_cons_self))
  have hkey' : contentStableTiebreak RowEnv.readingFirstHour farRow = .ok key := hkey
  rw [contentStableTiebreak, hraised] at hkey'
  cases hkey'

end AliceBot
