import AliceBot.Library.JsonSize
import Mathlib.Algebra.GroupWithZero.Nat

/-!
# The budget report of a context pack

`compile_context_pack` ends with a report of its token budget. The report is in the pack
twice, as `pack.budget` and as `pack.trace.budget`, and says what the whole pack is
estimated at, so that writing it changes what it has to say. The two numbers are written
until they are right (`reportAttempts`).

The text of the pack is a fixed length and twice the digits of the two numbers
(`exists_length_packWith`), so the attempts are the rounds of a report of its own size
(`estimate_recordAt`), which are seven at most of the thirty-two there are
(`compileBudgetReport_settles`).
-/

namespace AliceBot

open PyLib

/-! ### Values of a pack -/

/-- A value of a pack. -/
inductive PackValue where
  | null
  | bool (b : Bool)
  | int (n : Int)
  | float (q : Rat)
  | str (s : String)
  | list (items : List PackValue)
  | dict (fields : List (String × PackValue))
  /-- A UUID, a date or any other object, with the text that stands for it. -/
  | other (text : String)

namespace PackValue

/-- `isinstance(value, int)`, with the integer. -/
def asInt? : PackValue → Option Int
  | .int n => some n
  | _ => none

mutual

/-- `json_safe`. -/
def jsonSafe : PackValue → Json
  | .null => .null
  | .bool b => .bool b
  | .int n => .int n
  | .float q => .float q
  | .str s => .str s
  | .list items => .arr (jsonSafeItems items)
  | .dict fields => .obj (jsonSafeFields fields)
  | .other text => .str text

def jsonSafeItems : List PackValue → List Json
  | [] => []
  | item :: items => jsonSafe item :: jsonSafeItems items

def jsonSafeFields : List (String × PackValue) → List (String × Json)
  | [] => []
  | field :: fields => jsonSafeField field :: jsonSafeFields fields

def jsonSafeField : String × PackValue → String × Json
  | (key, value) => (key, jsonSafe value)

end

/-- What is written into a dictionary is made safe by itself. -/
theorem jsonSafeFields_set (d : Dict PackValue) (key : String) (value : PackValue) :
    jsonSafeFields (Dict.set d key value) = Dict.set (jsonSafeFields d) key (jsonSafe value) := by
  induction d with
  | nil => rfl
  | cons item d ih =>
    obtain ⟨k, v⟩ := item
    rw [jsonSafeFields, jsonSafeField, Dict.set, Dict.set]
    split
    · rfl
    · rw [jsonSafeFields, jsonSafeField, ih]

end PackValue

/-! ### The token budget -/

/-- `TOKEN_ESTIMATE_CHARS_PER_TOKEN`. -/
def tokenEstimateCharsPerToken : Nat := 4

section Budget

variable (floatText : Rat → List Char)

/-- `estimate_item_tokens`. -/
def estimateItemTokens (item : PackValue) : Nat :=
  let chars := (item.jsonSafe.writeRaw floatText).length
  max 1 ((chars + tokenEstimateCharsPerToken - 1) / tokenEstimateCharsPerToken)

/-- The tokens of all sections. -/
def allocated (allocation : Dict Nat) : Nat := (allocation.map Prod.snd).sum

/-- `_TokenBudget`, whose allocation sums to its estimate. -/
structure TokenBudget where
  tokenBudget : Option Int
  strategy : String
  tokenEstimate : Nat
  truncated : Bool
  droppedItemCount : Nat
  allocation : Dict Nat
  allocated_eq : allocated allocation = tokenEstimate

theorem allocated_set (allocation : Dict Nat) (sectionName : String) (tokens : Nat) :
    allocated (allocation.set sectionName tokens) + (allocation.get? sectionName).getD 0 =
      allocated allocation + tokens := by
  induction allocation with
  | nil =>
    show tokens + 0 + 0 = 0 + tokens
    omega
  | cons item allocation ih =>
    obtain ⟨k, v⟩ := item
    rw [Dict.set, Dict.get?_cons]
    split
    · simp only [allocated, List.map_cons, List.sum_cons, Option.getD_some]
      omega
    · simp only [allocated, List.map_cons, List.sum_cons] at ih ⊢
      omega

namespace TokenBudget

/-- What a section has so far. -/
def spent (budget : TokenBudget) (sectionName : String) : Nat :=
  (budget.allocation.get? sectionName).getD 0

/-- `open_section`. -/
def openSection (budget : TokenBudget) (sectionName : String) : TokenBudget :=
  { budget with
    allocation := budget.allocation.set sectionName (budget.spent sectionName)
    allocated_eq := by
      have hsum := allocated_set budget.allocation sectionName (budget.spent sectionName)
      rw [spent] at hsum ⊢
      exact (Nat.add_right_cancel hsum).trans budget.allocated_eq }

/-- `admit`, with its answer. -/
def admitItem (budget : TokenBudget) (item : PackValue) (sectionName : String) :
    Bool × TokenBudget :=
  let budget := budget.openSection sectionName
  let cost := estimateItemTokens floatText item
  let exceeds (limit : Int) : Bool := decide (limit < budget.tokenEstimate + cost)
  -- after the first refusal nothing is admitted, however small
  if budget.truncated || budget.tokenBudget.any exceeds then
    (false, { budget with
      truncated := true
      droppedItemCount := budget.droppedItemCount + 1 })
  else
    (true, { budget with
      tokenEstimate := budget.tokenEstimate + cost
      allocation := budget.allocation.set sectionName (budget.spent sectionName + cost)
      allocated_eq := by
        have hsum := allocated_set budget.allocation sectionName (budget.spent sectionName + cost)
        have hbefore := budget.allocated_eq
        rw [spent] at hsum ⊢
        omega })

/-- `to_record`. -/
def toRecord (budget : TokenBudget) : Dict PackValue :=
  [("token_budget", (budget.tokenBudget.map PackValue.int).getD .null),
    ("token_estimate", .int budget.tokenEstimate),
    ("truncated", .bool budget.truncated),
    ("dropped_item_count", .int budget.droppedItemCount),
    ("strategy", .str budget.strategy),
    ("allocation", .dict (budget.allocation.map fun (sectionName, tokens) =>
      (sectionName, .int tokens)))]

end TokenBudget

/-! ### The report -/

/-- `BUDGET_EXCLUDED_SECTIONS`. -/
def budgetExcludedSections : List String :=
  ["context_pack_id", "query_interpretation", "current_known_state", "relevant_beliefs",
    "decisions", "procedures", "missing_information", "warnings", "budget", "context_depth",
    "trace_id", "trace", "agent_identity", "policy_decision"]

/-- The record of a budget, before its size is reported. -/
def budgetRecord (budget : TokenBudget) : Dict PackValue :=
  Dict.update budget.toRecord
    [("scope", .str "content_sections"),
      ("counted_sections", .list (budget.allocation.map fun item => .str item.1)),
      ("excluded_sections", .list (budgetExcludedSections.map .str)),
      ("is_transport_cap", .bool false)]

/-- The record with the two numbers of the report. -/
def reportNumbers (record : Dict PackValue) (serialized excluded : Int) : Dict PackValue :=
  Dict.set (Dict.set record "serialized_token_estimate" (.int serialized))
    "excluded_token_estimate" (.int excluded)

/-- The pack with the record, which is in its trace too. -/
def packWith (pack trace record : Dict PackValue) : Dict PackValue :=
  Dict.set (Dict.set pack "budget" (.dict record))
    "trace" (.dict (Dict.set trace "budget" (.dict record)))

/-- The attempts at a report that is right, of so many at most. -/
def reportAttempts (pack trace : Dict PackValue) (budget : TokenBudget) :
    Nat → Dict PackValue → Except String (Dict PackValue)
  | 0, _ => .error "context-pack budget report did not converge"
  | attempts + 1, record =>
    let serialized := estimateItemTokens floatText (.dict (packWith pack trace record))
    let excluded := max 0 ((serialized : Int) - budget.tokenEstimate)
    if (Dict.get? record "serialized_token_estimate").bind PackValue.asInt? = some ↑serialized ∧
        (Dict.get? record "excluded_token_estimate").bind PackValue.asInt? = some excluded then
      .ok record
    else reportAttempts pack trace budget attempts (reportNumbers record serialized excluded)

/-- The end of `compile_context_pack`: the pack with its budget report. -/
def compileBudgetReport (pack trace : Dict PackValue) (budget : TokenBudget) :
    Except String (Dict PackValue) :=
  (reportAttempts floatText pack trace budget 32 (reportNumbers (budgetRecord budget) 0 0)).map
    (packWith pack trace)

/-! ### The report is written over itself -/

section Overwriting

variable {β : Type*}

theorem set_set_self (d : Dict β) (key : String) (value value' : β) :
    (d.set key value).set key value' = d.set key value' := by
  induction d with
  | nil =>
    show (if key = key then [(key, value')] else _) = [(key, value')]
    exact if_pos rfl
  | cons item d ih =>
    obtain ⟨k, v⟩ := item
    rw [Dict.set, Dict.set]
    split
    · rename_i hk
      rw [Dict.set, if_pos hk]
    · rename_i hk
      rw [Dict.set, if_neg hk, ih]

/-- A key that is written again keeps its place before one that was written after it. -/
theorem set_set_set (d : Dict β) {key other : String} (hne : key ≠ other) (value value' x : β) :
    ((d.set key value).set other x).set key value' = (d.set key value').set other x := by
  induction d with
  | nil =>
    simp only [Dict.set, if_neg hne, if_true]
  | cons item d ih =>
    obtain ⟨k, v⟩ := item
    by_cases hk : k = key
    · simp only [Dict.set, hk, if_true, if_neg hne]
    · by_cases hother : k = other
      · simp only [Dict.set, if_neg hk, if_pos hother, set_set_self]
      · simp only [Dict.set, if_neg hk, if_neg hother, ih]

end Overwriting

theorem reportNumbers_reportNumbers (record : Dict PackValue) (s e s' e' : Int) :
    reportNumbers (reportNumbers record s e) s' e' = reportNumbers record s' e' := by
  rw [reportNumbers, reportNumbers, set_set_set record (by decide), set_set_self, reportNumbers]

/-! ### The size of the pack -/

/-- The text of a pack with its report is a fixed length and the digits of the two numbers,
twice. -/
theorem exists_length_packWith (pack trace record : Dict PackValue) :
    ∃ rest, ∀ serialized excluded : Nat,
      ((PackValue.dict (packWith pack trace
        (reportNumbers record serialized excluded))).jsonSafe.writeRaw floatText).length =
          rest + 2 * (numeralLength 10 serialized + numeralLength 10 excluded) := by
  obtain ⟨inPack, hpack⟩ := Json.exists_length_writeRaw_set_set floatText
    (PackValue.jsonSafeFields pack) "budget" "trace" (by decide)
  obtain ⟨inTrace, htrace⟩ := Json.exists_length_writeRaw_set floatText
    (PackValue.jsonSafeFields trace) "budget"
  obtain ⟨inRecord, hrecord⟩ := Json.exists_length_writeRaw_set_set floatText
    (PackValue.jsonSafeFields record) "serialized_token_estimate" "excluded_token_estimate"
    (by decide)
  refine ⟨inPack + inTrace + 2 * inRecord, fun serialized excluded => ?_⟩
  have hnumbers : ((PackValue.dict (reportNumbers record serialized excluded)).jsonSafe.writeRaw
      floatText).length =
        inRecord + numeralLength 10 serialized + numeralLength 10 excluded := by
    rw [PackValue.jsonSafe, reportNumbers, PackValue.jsonSafeFields_set,
      PackValue.jsonSafeFields_set, hrecord, PackValue.jsonSafe, PackValue.jsonSafe,
      Json.length_writeRaw_natCast, Json.length_writeRaw_natCast]
  generalize reportNumbers record serialized excluded = reported at hnumbers ⊢
  -- the record stands in the pack and in its trace
  have hinTrace : ((PackValue.dict (Dict.set trace "budget" (.dict reported))).jsonSafe.writeRaw
      floatText).length =
        inTrace + (inRecord + numeralLength 10 serialized + numeralLength 10 excluded) := by
    rw [PackValue.jsonSafe, PackValue.jsonSafeFields_set, htrace, hnumbers]
  rw [PackValue.jsonSafe, packWith, PackValue.jsonSafeFields_set, PackValue.jsonSafeFields_set,
    hpack, hnumbers, hinTrace]
  omega

/-! ### The attempts -/

variable {floatText}

/-- The estimate of a pack whose report has so many digits. -/
def estimateOfLength (rest digits : Nat) : Nat := max 1 ((rest + 2 * digits + 3) / 4)

theorem estimateOfLength_mono (rest : Nat) : Monotone (estimateOfLength rest) := by
  intro a b h
  unfold estimateOfLength
  omega

theorem estimateOfLength_slow (rest a : Nat) :
    estimateOfLength rest (a + 2) ≤ estimateOfLength rest a + 1 := by
  unfold estimateOfLength
  omega

theorem estimateOfLength_pos (rest a : Nat) : 0 < estimateOfLength rest a :=
  Nat.lt_of_lt_of_le Nat.one_pos (le_max_left _ _)

/-- The record that reports a size. -/
def recordOf (budget : TokenBudget) (size : Nat) : Dict PackValue :=
  reportNumbers (budgetRecord budget) size ↑(size - budget.tokenEstimate)

variable (floatText) in
/-- Each attempt is a round of a report of its own size. -/
theorem estimate_recordOf (pack trace : Dict PackValue) (budget : TokenBudget) :
    ∃ rest, ∀ size, estimateItemTokens floatText (.dict (packWith pack trace
      (recordOf budget size))) =
        estimateOfLength rest (reportLength 10 budget.tokenEstimate size) := by
  obtain ⟨rest, hrest⟩ := exists_length_packWith floatText pack trace
    (budgetRecord budget)
  refine ⟨rest, fun size => ?_⟩
  rw [estimateItemTokens, recordOf, hrest]
  rfl

theorem get?_recordOf (budget : TokenBudget) (size : Nat) :
    Dict.get? (recordOf budget size) "serialized_token_estimate" = some (.int size) ∧
      Dict.get? (recordOf budget size) "excluded_token_estimate" =
        some (.int ↑(size - budget.tokenEstimate)) := by
  constructor
  · rw [recordOf, reportNumbers, Dict.get?_set_of_ne _ _ (by decide), Dict.get?_set_self]
  · rw [recordOf, reportNumbers, Dict.get?_set_self]

/-- An attempt is right, or the next one reports what it found. -/
theorem reportAttempts_succ {pack trace : Dict PackValue} {budget : TokenBudget} {size found : Nat}
    (hfound : estimateItemTokens floatText (.dict (packWith pack trace (recordOf budget size))) =
      found) (attempts : Nat) :
    reportAttempts floatText pack trace budget (attempts + 1) (recordOf budget size) =
      if found = size then .ok (recordOf budget size)
      else reportAttempts floatText pack trace budget attempts (recordOf budget found) := by
  obtain ⟨hserialized, hexcluded⟩ := get?_recordOf budget size
  have hmax : max 0 ((found : Int) - budget.tokenEstimate) =
      ↑(found - budget.tokenEstimate) := by omega
  rw [reportAttempts, hfound, hserialized, hexcluded]
  simp only [hmax, Option.bind_some, PackValue.asInt?, Option.some.injEq,
    Int.natCast_inj]
  have hright : (size = found ∧ size - budget.tokenEstimate = found - budget.tokenEstimate) ↔
      found = size := by
    constructor
    · exact fun h => h.1.symm
    · rintro rfl
      exact ⟨rfl, rfl⟩
  simp only [hright]
  split
  · rfl
  · rw [recordOf, reportNumbers_reportNumbers, recordOf]

/-- The attempts end with a report that is right, if a round within them finds what is
reported. -/
theorem reportAttempts_settle {pack trace : Dict PackValue} {budget : TokenBudget} {rest : Nat}
    (hestimate : ∀ size, estimateItemTokens floatText (.dict (packWith pack trace
      (recordOf budget size))) =
        estimateOfLength rest (reportLength 10 budget.tokenEstimate size)) {attempts start : Nat}
    (hstable : ∃ round < attempts,
      report 10 (estimateOfLength rest) budget.tokenEstimate (start + round + 1) =
        report 10 (estimateOfLength rest) budget.tokenEstimate (start + round)) :
    ∃ size, estimateItemTokens floatText (.dict (packWith pack trace (recordOf budget size))) =
        size ∧
      reportAttempts floatText pack trace budget attempts
        (recordOf budget (report 10 (estimateOfLength rest) budget.tokenEstimate start)) =
          .ok (recordOf budget size) := by
  induction attempts generalizing start with
  | zero =>
    obtain ⟨round, hround, _⟩ := hstable
    exact absurd hround (Nat.not_lt_zero round)
  | succ attempts ih =>
    have hfound := hestimate (report 10 (estimateOfLength rest) budget.tokenEstimate start)
    have hstep := reportAttempts_succ hfound attempts
    by_cases heq : report 10 (estimateOfLength rest) budget.tokenEstimate (start + 1) =
        report 10 (estimateOfLength rest) budget.tokenEstimate start
    · exact ⟨_, hfound.trans heq, hstep.trans (if_pos heq)⟩
    · obtain ⟨round, hround, hround'⟩ := hstable
      -- the round that is right is a later one
      have hlater : ∃ later < attempts,
          report 10 (estimateOfLength rest) budget.tokenEstimate (start + 1 + later + 1) =
            report 10 (estimateOfLength rest) budget.tokenEstimate (start + 1 + later) := by
        cases round with
        | zero => exact absurd hround' heq
        | succ later =>
          refine ⟨later, Nat.lt_of_succ_lt_succ hround, ?_⟩
          rwa [Nat.add_right_comm start 1 later]
      obtain ⟨size, hsize, hrun⟩ := ih hlater
      exact ⟨size, hsize, (hstep.trans (if_neg heq)).trans hrun⟩

variable (floatText) in
/-- A pack whose report is right: it is in the pack and in its trace, and says what the pack
with both is estimated at, and by how much that exceeds the admitted total. -/
def ReportsItself (packed : Dict PackValue) (tokenEstimate : Nat) : Prop :=
  let size := estimateItemTokens floatText (.dict packed)
  ∃ record trace, Dict.get? packed "budget" = some (.dict record) ∧
    Dict.get? packed "trace" = some (.dict trace) ∧
    Dict.get? trace "budget" = some (.dict record) ∧
    Dict.get? record "serialized_token_estimate" = some (.int size) ∧
    Dict.get? record "excluded_token_estimate" = some (.int (max 0 ((size : Int) - tokenEstimate)))

/-- Whatever is in the pack and whatever was admitted, an attempt is right, and the pack
that is returned reports itself. -/
theorem compileBudgetReport_settles (floatText : Rat → List Char) (pack trace : Dict PackValue)
    (budget : TokenBudget) :
    ∃ packed, compileBudgetReport floatText pack trace budget = .ok packed ∧
      ReportsItself floatText packed budget.tokenEstimate := by
  obtain ⟨rest, hestimate⟩ := estimate_recordOf floatText pack trace budget
  -- the number is stable after six rounds, and thirty-two are made
  obtain ⟨round, hround, hstable⟩ : ∃ round ≤ 6,
      report 10 (estimateOfLength rest) budget.tokenEstimate (round + 1) =
        report 10 (estimateOfLength rest) budget.tokenEstimate round :=
    exists_stable_report (estimateOfLength_mono rest) (estimateOfLength_slow rest) (by omega)
      (estimateOfLength_pos rest)
  have hrounds : ∃ round < 32,
      report 10 (estimateOfLength rest) budget.tokenEstimate (0 + round + 1) =
        report 10 (estimateOfLength rest) budget.tokenEstimate (0 + round) :=
    ⟨round, by omega, by rw [Nat.zero_add]; exact hstable⟩
  obtain ⟨size, hsize, hrun⟩ := reportAttempts_settle hestimate hrounds
  obtain ⟨hserialized, hexcluded⟩ := get?_recordOf budget size
  refine ⟨packWith pack trace (recordOf budget size), ?_, recordOf budget size,
    Dict.set trace "budget" (.dict (recordOf budget size)), ?_, ?_, ?_, ?_, ?_⟩
  · have hstart : recordOf budget (report 10 (estimateOfLength rest) budget.tokenEstimate 0) =
        reportNumbers (budgetRecord budget) 0 0 := by
      rw [recordOf, report, Nat.zero_sub]
      rfl
    rw [compileBudgetReport, ← hstart, hrun]
    rfl
  · rw [packWith, Dict.get?_set_of_ne _ _ (by decide), Dict.get?_set_self]
  · rw [packWith, Dict.get?_set_self]
  · exact Dict.get?_set_self ..
  · rw [hserialized, hsize]
  · have hmax : max 0 ((size : Int) - budget.tokenEstimate) =
        ↑(size - budget.tokenEstimate) := by omega
    rw [hexcluded, hsize, hmax]

end Budget

end AliceBot
