import AliceBot.Library.Json
import AliceBot.Lifecycle
import AliceBot.MemoryStore
import Mathlib.Data.Nat.Find

/-!
# The bounded walk along a supersession chain

`supersession_would_cycle` on rows as they are loaded, which may lack an id and
point to rows that are not there. `verdictAt k` is what the walk says at the
`k`-th row of the chain, and nothing where it goes on to the next one. The walk
says what the first such row says (`wouldCycle_eq_iff`), and there is one because
its depth is bounded. The claims about the answers are then read off the rows.

The walk of the lifecycle service, whose rows all have ids, is the same one
(`supersessionWouldCycle_eq`).
-/

namespace AliceBot

open PyLib

/-! ### The walk -/

/-- What is raised. -/
inductive ChainDefect where
  | tooLong
  | withoutId
  | repeated (id : String)
  | missing (id : String)
deriving DecidableEq, Repr

/-- The texts of the errors. -/
def ChainDefect.error (maxDepth : Int) : ChainDefect → LifecycleTransitionError
  | .tooLong => ⟨"supersession chain exceeds " ++ toString maxDepth
      ++ " hops; cannot verify acyclicity, rejecting the supersession to fail closed"⟩
  | .withoutId => ⟨"supersession chain contains a row without an id; cannot verify "
      ++ "acyclicity, rejecting the supersession to fail closed"⟩
  | .repeated id => ⟨"supersession chain already contains a cycle at memory " ++ id
      ++ "; rejecting the supersession to fail closed"⟩
  | .missing id => ⟨"supersession chain points to missing memory " ++ id
      ++ "; cannot verify acyclicity, rejecting the supersession to fail closed"⟩

section Walk

variable {ρ : Type} (idOf : ρ → Option String) (readPointer : ρ → Option String)
  (loadMemory : String → Option ρ) (memoryId : String) (maxDepth : Int)

/-- The loop of `supersession_would_cycle`: `depth` hops were made, and the rows
`seen` were passed. -/
def supersessionLoop (depth : Nat) (seen : List String) (current : ρ) :
    Except ChainDefect Bool :=
  if maxDepth ≤ depth then .error .tooLong
  else
    match idOf current with
    | none => .error .withoutId
    | some currentId =>
      if currentId = memoryId then .ok true
      else if currentId ∈ seen then .error (.repeated currentId)
      else
        -- a row without a pointer ends the chain
        match readPointer current with
        | none => .ok false
        | some nextId =>
          match loadMemory nextId with
          | none => .error (.missing nextId)
          | some next => supersessionLoop (depth + 1) (currentId :: seen) next
termination_by (maxDepth - depth).toNat

/-- `supersession_would_cycle`. -/
def wouldCycle (successor : ρ) : Except ChainDefect Bool :=
  supersessionLoop idOf readPointer loadMemory memoryId maxDepth 0 [] successor

/-! ### The chain -/

/-- The rows of the chain, from the successor on. -/
def chainRow (successor : ρ) : Nat → Option ρ
  | 0 => some successor
  | k + 1 => (chainRow successor k).bind fun row => (readPointer row).bind loadMemory

/-- The id of a row of the chain. -/
def chainId (successor : ρ) (k : Nat) : Option String :=
  (chainRow readPointer loadMemory successor k).bind idOf

/-- The first `n` rows of the chain are there, and have ids that do not repeat. -/
def SoundChain (successor : ρ) (n : Nat) : Prop :=
  ∀ k < n, ∃ id, chainId idOf readPointer loadMemory successor k = some id ∧
    ∀ j < k, chainId idOf readPointer loadMemory successor j ≠ some id

/-- The chain has `n + 1` rows: the last of them has no pointer. -/
def ChainEnds (successor : ρ) (n : Nat) : Prop :=
  ∃ row, chainRow readPointer loadMemory successor n = some row ∧ readPointer row = none

/-- The defect of the chain at its `k`-th row. -/
inductive DefectAt (successor : ρ) (k : Nat) : ChainDefect → Prop
  | tooLong (row : ρ) (hrow : chainRow readPointer loadMemory successor k = some row)
      (h : maxDepth ≤ k) : DefectAt successor k .tooLong
  | withoutId (row : ρ) (hrow : chainRow readPointer loadMemory successor k = some row)
      (h : k < maxDepth) (hid : idOf row = none) : DefectAt successor k .withoutId
  | repeated (id : String) (j : Nat) (h : k < maxDepth) (hj : j < k)
      (hid : chainId idOf readPointer loadMemory successor k = some id)
      (hsame : chainId idOf readPointer loadMemory successor j = some id) :
      DefectAt successor k (.repeated id)
  | missing (row : ρ) (id : String) (h : k ≤ maxDepth) (hpos : 0 < k)
      (hrow : chainRow readPointer loadMemory successor (k - 1) = some row)
      (hpointer : readPointer row = some id) (hload : loadMemory id = none) :
      DefectAt successor k (.missing id)

/-! ### What the walk says at a row -/

/-- What is said at the `k`-th row of the chain, unless the walk goes on. -/
def verdictAt (successor : ρ) (k : Nat) : Option (Except ChainDefect Bool) :=
  match chainRow readPointer loadMemory successor k with
  | none => none
  | some row =>
    if maxDepth ≤ k then some (.error .tooLong)
    else
      match idOf row with
      | none => some (.error .withoutId)
      | some id =>
        if id = memoryId then some (.ok true)
        else if ∃ j < k, chainId idOf readPointer loadMemory successor j = some id then
          some (.error (.repeated id))
        else
          match readPointer row with
          | none => some (.ok false)
          | some nextId =>
            if loadMemory nextId = none then some (.error (.missing nextId)) else none

end Walk

section Verdicts

variable {ρ : Type} {idOf : ρ → Option String} {readPointer : ρ → Option String}
  {loadMemory : String → Option ρ} {memoryId : String} {maxDepth : Int} {successor : ρ}

/-- The loop, at a row it came to, says what the next row says that says something. -/
theorem supersessionLoop_verdict {depth : Nat} {seen : List String} {current : ρ}
    (hrow : chainRow readPointer loadMemory successor depth = some current)
    (hseen : ∀ id, id ∈ seen ↔
      ∃ j < depth, chainId idOf readPointer loadMemory successor j = some id)
    (hpassed : ∀ j < depth,
      verdictAt idOf readPointer loadMemory memoryId maxDepth successor j = none) :
    ∃ k, (∀ j < k, verdictAt idOf readPointer loadMemory memoryId maxDepth successor j = none) ∧
      verdictAt idOf readPointer loadMemory memoryId maxDepth successor k =
        some (supersessionLoop idOf readPointer loadMemory memoryId maxDepth depth seen
          current) := by
  -- along the loop: every case but the last answers at this row
  fun_induction supersessionLoop idOf readPointer loadMemory memoryId maxDepth depth seen current
      with
  | case1 depth seen current hdepth =>
    refine ⟨depth, hpassed, ?_⟩
    rw [verdictAt, hrow]
    exact if_pos hdepth
  | case2 depth seen current hdepth hid =>
    refine ⟨depth, hpassed, ?_⟩
    simp only [verdictAt, hrow, if_neg hdepth, hid]
  | case3 depth seen current hdepth hid =>
    refine ⟨depth, hpassed, ?_⟩
    simp only [verdictAt, hrow, if_neg hdepth, hid, if_pos]
  | case4 depth seen current hdepth currentId hid htarget hmem =>
    refine ⟨depth, hpassed, ?_⟩
    simp only [verdictAt, hrow, if_neg hdepth, hid, if_neg htarget, if_pos ((hseen _).mp hmem)]
  | case5 depth seen current hdepth currentId hid htarget hmem hend =>
    refine ⟨depth, hpassed, ?_⟩
    simp only [verdictAt, hrow, if_neg hdepth, hid, if_neg htarget, if_neg (mt (hseen _).mpr hmem),
      hend]
  | case6 depth seen current hdepth currentId hid htarget hmem nextId hnext hload =>
    refine ⟨depth, hpassed, ?_⟩
    simp only [verdictAt, hrow, if_neg hdepth, hid, if_neg htarget, if_neg (mt (hseen _).mpr hmem),
      hnext, hload, if_pos]
  | case7 depth seen current hdepth currentId hid htarget hmem nextId hnext next hload ih =>
    -- the row is passed, and its id is one of those seen
    have hid' : chainId idOf readPointer loadMemory successor depth = some currentId := by
      rw [chainId, hrow]
      exact hid
    refine ih ?_ ?_ ?_
    · rw [chainRow, hrow]
      show (readPointer current).bind loadMemory = some next
      rw [hnext]
      exact hload
    · intro id
      rw [List.mem_cons, hseen]
      constructor
      · rintro (rfl | ⟨j, hj, hjid⟩)
        · exact ⟨depth, Nat.lt_succ_self depth, hid'⟩
        · exact ⟨j, Nat.lt_succ_of_lt hj, hjid⟩
      · rintro ⟨j, hj, hjid⟩
        rcases Nat.lt_succ_iff_lt_or_eq.mp hj with hlt | rfl
        · exact Or.inr ⟨j, hlt, hjid⟩
        · rw [hid'] at hjid
          exact Or.inl (Option.some.inj hjid).symm
    · intro j hj
      rcases Nat.lt_succ_iff_lt_or_eq.mp hj with hlt | rfl
      · exact hpassed j hlt
      · simp only [verdictAt, hrow, if_neg hdepth, hid, if_neg htarget,
          if_neg (mt (hseen _).mpr hmem), hnext, hload, reduceCtorEq, if_false]

/-- The walk says what the first row says that says something. -/
theorem wouldCycle_eq_iff {r : Except ChainDefect Bool} :
    wouldCycle idOf readPointer loadMemory memoryId maxDepth successor = r ↔
      ∃ k, (∀ j < k, verdictAt idOf readPointer loadMemory memoryId maxDepth successor j = none) ∧
        verdictAt idOf readPointer loadMemory memoryId maxDepth successor k = some r := by
  have hfirst : ∃ k,
      (∀ j < k, verdictAt idOf readPointer loadMemory memoryId maxDepth successor j = none) ∧
        verdictAt idOf readPointer loadMemory memoryId maxDepth successor k =
          some (supersessionLoop idOf readPointer loadMemory memoryId maxDepth 0 [] successor) :=
    supersessionLoop_verdict rfl (by simp) (by simp)
  obtain ⟨k, hpassed, hverdict⟩ := hfirst
  constructor
  · rintro rfl
    exact ⟨k, hpassed, hverdict⟩
  · rintro ⟨k', hpassed', hverdict'⟩
    -- no row before the first one says anything
    rcases Nat.lt_trichotomy k k' with hlt | rfl | hlt
    · rw [hpassed' k hlt] at hverdict
      cases hverdict
    · rw [hverdict] at hverdict'
      exact Option.some.inj hverdict'
    · rw [hpassed k' hlt] at hverdict'
      cases hverdict'

/-! ### Rows that are passed -/

theorem chainRow_of_le {j k : Nat} {row : ρ} (hjk : j ≤ k)
    (h : chainRow readPointer loadMemory successor k = some row) :
    ∃ row', chainRow readPointer loadMemory successor j = some row' := by
  induction k generalizing row with
  | zero =>
    rw [Nat.le_zero.mp hjk]
    exact ⟨row, h⟩
  | succ k ih =>
    rcases Nat.le_succ_iff.mp hjk with hle | rfl
    · obtain ⟨row', hrow', -⟩ := Option.bind_eq_some_iff.mp h
      exact ih hle hrow'
    · exact ⟨row, h⟩

/-- A row is passed if it is within the bound, has a new id that is not looked for,
and points to a row. -/
theorem verdictAt_eq_none_iff {k : Nat} {row : ρ}
    (hrow : chainRow readPointer loadMemory successor k = some row) :
    verdictAt idOf readPointer loadMemory memoryId maxDepth successor k = none ↔
      k < maxDepth ∧ (∃ id, idOf row = some id ∧ id ≠ memoryId ∧
        ∀ j < k, chainId idOf readPointer loadMemory successor j ≠ some id) ∧
      ∃ next, chainRow readPointer loadMemory successor (k + 1) = some next := by
  have hnext : (∃ next, chainRow readPointer loadMemory successor (k + 1) = some next) ↔
      ∃ nextId next, readPointer row = some nextId ∧ loadMemory nextId = some next := by
    simp only [chainRow, hrow, Option.bind_some, Option.bind_eq_some_iff]
    exact ⟨fun ⟨next, id, h, h'⟩ => ⟨id, next, h, h'⟩, fun ⟨id, next, h, h'⟩ => ⟨next, id, h, h'⟩⟩
  rw [hnext, verdictAt, hrow]
  constructor
  · -- each test that would end the walk has failed
    intro h
    simp only at h
    split at h
    · cases h
    · next hdepth =>
      split at h
      · cases h
      · next id hid =>
        split at h
        · cases h
        · next htarget =>
          split at h
          · cases h
          · next hfresh =>
            split at h
            · cases h
            · next nextId hpointer =>
              split at h
              · cases h
              · next hload =>
                obtain ⟨next, hload⟩ := Option.ne_none_iff_exists'.mp hload
                refine ⟨Int.not_le.mp hdepth, ⟨id, hid, htarget, ?_⟩, nextId, next, hpointer, hload⟩
                intro j hj hjid
                exact hfresh ⟨j, hj, hjid⟩
  · rintro ⟨hdepth, ⟨id, hid, htarget, hfresh⟩, nextId, next, hpointer, hload⟩
    have hnew : ¬∃ j < k, chainId idOf readPointer loadMemory successor j = some id := by
      rintro ⟨j, hj, hjid⟩
      exact hfresh j hj hjid
    simp only [if_neg (Int.not_le.mpr hdepth), hid, if_neg htarget, if_neg hnew, hpointer, hload,
      reduceCtorEq, if_false]

/-- The rows before one that is there are passed if the chain is sound so far, does
not come to the id looked for, and is within the bound. -/
theorem passed_iff {k : Nat} {row : ρ}
    (hrow : chainRow readPointer loadMemory successor k = some row) :
    (∀ j < k, verdictAt idOf readPointer loadMemory memoryId maxDepth successor j = none) ↔
      (k = 0 ∨ k ≤ maxDepth) ∧ SoundChain idOf readPointer loadMemory successor k ∧
        ∀ j < k, chainId idOf readPointer loadMemory successor j ≠ some memoryId := by
  constructor
  · intro h
    -- what passing a row says of it
    have hrows : ∀ j < k, ∃ id, chainId idOf readPointer loadMemory successor j = some id ∧
        id ≠ memoryId ∧ (∀ i < j, chainId idOf readPointer loadMemory successor i ≠ some id) ∧
        j < maxDepth := by
      intro j hj
      obtain ⟨row', hrow'⟩ := chainRow_of_le (Nat.le_of_lt hj) hrow
      obtain ⟨hdepth, ⟨id, hid, htarget, hfresh⟩, -⟩ := (verdictAt_eq_none_iff hrow').mp (h j hj)
      refine ⟨id, ?_, htarget, hfresh, hdepth⟩
      rw [chainId, hrow']
      exact hid
    refine ⟨?_, ?_, ?_⟩
    · rcases Nat.eq_zero_or_pos k with rfl | hpos
      · exact Or.inl rfl
      · obtain ⟨-, -, -, -, hdepth⟩ := hrows (k - 1) (Nat.sub_one_lt_of_lt hpos)
        exact Or.inr (by omega)
    · intro j hj
      obtain ⟨id, hid, -, hfresh, -⟩ := hrows j hj
      exact ⟨id, hid, hfresh⟩
    · intro j hj hjid
      obtain ⟨id, hid, htarget, -⟩ := hrows j hj
      rw [hjid] at hid
      exact htarget (Option.some.inj hid).symm
  · rintro ⟨hdepth, hsound, htarget⟩ j hj
    obtain ⟨row', hrow'⟩ := chainRow_of_le (Nat.le_of_lt hj) hrow
    obtain ⟨id, hid, hfresh⟩ := hsound j hj
    rw [verdictAt_eq_none_iff hrow']
    refine ⟨by omega, ⟨id, ?_, ?_, hfresh⟩, chainRow_of_le hj hrow⟩
    · rw [chainId, hrow'] at hid
      exact hid
    · rintro rfl
      exact htarget j hj hid

/-! ### The answers -/

/-- What is said at a row, and why. -/
inductive Says (idOf readPointer : ρ → Option String) (loadMemory : String → Option ρ)
    (memoryId : String) (maxDepth : Int) (successor : ρ) (k : Nat) (row : ρ) :
    Except ChainDefect Bool → Prop
  | tooLong (h : maxDepth ≤ k) :
      Says idOf readPointer loadMemory memoryId maxDepth successor k row (.error .tooLong)
  | withoutId (h : k < maxDepth) (hid : idOf row = none) :
      Says idOf readPointer loadMemory memoryId maxDepth successor k row (.error .withoutId)
  | found (h : k < maxDepth) (hid : idOf row = some memoryId) :
      Says idOf readPointer loadMemory memoryId maxDepth successor k row (.ok true)
  | repeated (h : k < maxDepth) (id : String) (hid : idOf row = some id) (hne : id ≠ memoryId)
      (j : Nat) (hj : j < k)
      (hsame : chainId idOf readPointer loadMemory successor j = some id) :
      Says idOf readPointer loadMemory memoryId maxDepth successor k row (.error (.repeated id))
  | ended (h : k < maxDepth) (id : String) (hid : idOf row = some id) (hne : id ≠ memoryId)
      (hfresh : ∀ j < k, chainId idOf readPointer loadMemory successor j ≠ some id)
      (hend : readPointer row = none) :
      Says idOf readPointer loadMemory memoryId maxDepth successor k row (.ok false)
  | missing (h : k < maxDepth) (id : String) (hid : idOf row = some id) (hne : id ≠ memoryId)
      (hfresh : ∀ j < k, chainId idOf readPointer loadMemory successor j ≠ some id)
      (nextId : String) (hpointer : readPointer row = some nextId)
      (hload : loadMemory nextId = none) :
      Says idOf readPointer loadMemory memoryId maxDepth successor k row (.error (.missing nextId))

/-- What the walk says of a row it has reached, as a statement about the chain instead
of the order of its tests. -/
theorem verdictAt_eq_some_iff {k : Nat} {row : ρ} {r : Except ChainDefect Bool}
    (hrow : chainRow readPointer loadMemory successor k = some row) :
    verdictAt idOf readPointer loadMemory memoryId maxDepth successor k = some r ↔
      Says idOf readPointer loadMemory memoryId maxDepth successor k row r := by
  rw [verdictAt, hrow]
  constructor
  · intro h
    simp only at h
    -- the tests in the order the walk makes them
    split at h
    · next hdepth =>
      cases h
      exact .tooLong hdepth
    · next hdepth =>
      rw [Int.not_le] at hdepth
      split at h
      · next hid =>
        cases h
        exact .withoutId hdepth hid
      · next id hid =>
        split at h
        · next htarget =>
          cases h
          exact .found hdepth (htarget ▸ hid)
        · next hne =>
          split at h
          · next hsame =>
            cases h
            obtain ⟨j, hj, hsame⟩ := hsame
            exact .repeated hdepth id hid hne j hj hsame
          · next hfresh =>
            have hnew : ∀ j < k, chainId idOf readPointer loadMemory successor j ≠ some id :=
              fun j hj hjid => hfresh ⟨j, hj, hjid⟩
            split at h
            · next hend =>
              cases h
              exact .ended hdepth id hid hne hnew hend
            · next nextId hpointer =>
              split at h
              · next hload =>
                cases h
                exact .missing hdepth id hid hne hnew nextId hpointer hload
              · cases h
  · intro h
    -- an id that is new was met at no earlier place
    have hnew : ∀ {id}, (∀ j < k, chainId idOf readPointer loadMemory successor j ≠ some id) →
        ¬∃ j < k, chainId idOf readPointer loadMemory successor j = some id := by
      rintro id hfresh ⟨j, hj, hjid⟩
      exact hfresh j hj hjid
    cases h with
    | tooLong hdepth => simp only [if_pos hdepth]
    | withoutId hdepth hid => simp only [if_neg (Int.not_le.mpr hdepth), hid]
    | found hdepth hid => simp only [if_neg (Int.not_le.mpr hdepth), hid, if_pos]
    | repeated hdepth id hid hne j hj hsame =>
      have hold : ∃ j < k, chainId idOf readPointer loadMemory successor j = some id :=
        ⟨j, hj, hsame⟩
      simp only [if_neg (Int.not_le.mpr hdepth), hid, if_neg hne, if_pos hold]
    | ended hdepth id hid hne hfresh hend =>
      simp only [if_neg (Int.not_le.mpr hdepth), hid, if_neg hne, if_neg (hnew hfresh), hend]
    | missing hdepth id hid hne hfresh nextId hpointer hload =>
      simp only [if_neg (Int.not_le.mpr hdepth), hid, if_neg hne, if_neg (hnew hfresh), hpointer,
        hload, if_pos]

/-- The answer, by the row that decides it. -/
theorem wouldCycle_says_iff {r : Except ChainDefect Bool} :
    wouldCycle idOf readPointer loadMemory memoryId maxDepth successor = r ↔
      ∃ k row, chainRow readPointer loadMemory successor k = some row ∧ (k = 0 ∨ k ≤ maxDepth) ∧
        SoundChain idOf readPointer loadMemory successor k ∧
        (∀ j < k, chainId idOf readPointer loadMemory successor j ≠ some memoryId) ∧
        Says idOf readPointer loadMemory memoryId maxDepth successor k row r := by
  rw [wouldCycle_eq_iff]
  constructor
  · rintro ⟨k, hpassed, hverdict⟩
    have hthere : ∃ row, chainRow readPointer loadMemory successor k = some row := by
      unfold verdictAt at hverdict
      split at hverdict
      · cases hverdict
      · next row hrow => exact ⟨row, hrow⟩
    obtain ⟨row, hrow⟩ := hthere
    obtain ⟨hdepth, hsound, htarget⟩ := (passed_iff hrow).mp hpassed
    exact ⟨k, row, hrow, hdepth, hsound, htarget, (verdictAt_eq_some_iff hrow).mp hverdict⟩
  · rintro ⟨k, row, hrow, hdepth, hsound, htarget, hstates⟩
    exact ⟨k, (passed_iff hrow).mpr ⟨hdepth, hsound, htarget⟩,
      (verdictAt_eq_some_iff hrow).mpr hstates⟩

theorem chainId_of_row {k : Nat} {row : ρ}
    (hrow : chainRow readPointer loadMemory successor k = some row) :
    chainId idOf readPointer loadMemory successor k = idOf row := by
  rw [chainId, hrow]
  rfl

/-- A chain that is sound stays so by a row with a new id. -/
theorem SoundChain.succ {k : Nat} {id : String}
    (h : SoundChain idOf readPointer loadMemory successor k)
    (hid : chainId idOf readPointer loadMemory successor k = some id)
    (hfresh : ∀ j < k, chainId idOf readPointer loadMemory successor j ≠ some id) :
    SoundChain idOf readPointer loadMemory successor (k + 1) := by
  intro j hj
  rcases Nat.lt_succ_iff_lt_or_eq.mp hj with hlt | rfl
  · exact h j hlt
  · exact ⟨id, hid, hfresh⟩

/-- The walk finds a cycle exactly if the row to be retired is on the chain within the
bound, with no defect before it. -/
theorem wouldCycle_true_iff :
    wouldCycle idOf readPointer loadMemory memoryId maxDepth successor = .ok true ↔
      ∃ k : Nat, k < maxDepth ∧ SoundChain idOf readPointer loadMemory successor k ∧
        chainId idOf readPointer loadMemory successor k = some memoryId := by
  rw [wouldCycle_says_iff]
  constructor
  · rintro ⟨k, row, hrow, -, hsound, -, hstates⟩
    cases hstates with
    | found hdepth hid => exact ⟨k, hdepth, hsound, (chainId_of_row hrow).trans hid⟩
  · intro h
    classical
    -- the first row with the id is the one the walk comes to
    obtain ⟨hdepth, hsound, hid⟩ := Nat.find_spec h
    have hfirst : ∀ j < Nat.find h, chainId idOf readPointer loadMemory successor j ≠
        some memoryId := by
      intro j hj hjid
      refine Nat.find_min h hj ⟨by omega, fun i hi => hsound i (hi.trans hj), hjid⟩
    obtain ⟨row, hrow, hrowid⟩ := Option.bind_eq_some_iff.mp hid
    exact ⟨Nat.find h, row, hrow, Or.inr (by omega), hsound, hfirst, .found hdepth hrowid⟩

/-- The walk lets a supersession through exactly if the chain ends within the bound,
without a defect and without the row to be retired. -/
theorem wouldCycle_false_iff :
    wouldCycle idOf readPointer loadMemory memoryId maxDepth successor = .ok false ↔
      ∃ k : Nat, k < maxDepth ∧ SoundChain idOf readPointer loadMemory successor (k + 1) ∧
        ChainEnds readPointer loadMemory successor k ∧
        ∀ j ≤ k, chainId idOf readPointer loadMemory successor j ≠ some memoryId := by
  rw [wouldCycle_says_iff]
  constructor
  · rintro ⟨k, row, hrow, -, hsound, htarget, hstates⟩
    -- of the verdicts only the end of the chain is `false`
    cases hstates with
    | ended hdepth id hid hne hfresh hend =>
      have hid' := (chainId_of_row hrow).trans hid
      refine ⟨k, hdepth, hsound.succ hid' hfresh, ⟨row, hrow, hend⟩, ?_⟩
      intro j hj hjid
      rcases Nat.lt_or_eq_of_le hj with hlt | rfl
      · exact htarget j hlt hjid
      · rw [hid'] at hjid
        exact hne (Option.some.inj hjid)
  · rintro ⟨k, hdepth, hsound, ⟨row, hrow, hend⟩, htarget⟩
    obtain ⟨id, hid, hfresh⟩ := hsound k (Nat.lt_succ_self k)
    have hne : id ≠ memoryId := by
      rintro rfl
      exact htarget k (Nat.le_refl k) hid
    refine ⟨k, row, hrow, Or.inr (by omega), fun j hj => hsound j (hj.trans (Nat.lt_succ_self k)),
      fun j hj => htarget j (Nat.le_of_lt hj), ?_⟩
    exact .ended hdepth id ((chainId_of_row hrow).symm.trans hid) hne hfresh hend

/-- The walk refuses a chain exactly at its first defect, if the row to be retired does
not come before it. -/
theorem wouldCycle_error_iff {defect : ChainDefect} :
    wouldCycle idOf readPointer loadMemory memoryId maxDepth successor = .error defect ↔
      ∃ k : Nat, SoundChain idOf readPointer loadMemory successor k ∧
        (∀ j < k, chainId idOf readPointer loadMemory successor j ≠ some memoryId) ∧
        DefectAt idOf readPointer loadMemory maxDepth successor k defect := by
  rw [wouldCycle_says_iff]
  constructor
  · rintro ⟨k, row, hrow, -, hsound, htarget, hstates⟩
    cases hstates with
    | tooLong hdepth => exact ⟨k, hsound, htarget, .tooLong row hrow hdepth⟩
    | withoutId hdepth hid => exact ⟨k, hsound, htarget, .withoutId row hrow hdepth hid⟩
    | repeated hdepth id hid hne j hj hsame =>
      exact ⟨k, hsound, htarget, .repeated id j hdepth hj ((chainId_of_row hrow).trans hid) hsame⟩
    | missing hdepth id hid hne hfresh nextId hpointer hload =>
      have hid' := (chainId_of_row hrow).trans hid
      refine ⟨k + 1, hsound.succ hid' hfresh, ?_,
        .missing row nextId (by omega) (Nat.succ_pos k) hrow hpointer hload⟩
      intro j hj hjid
      rcases Nat.lt_succ_iff_lt_or_eq.mp hj with hlt | rfl
      · exact htarget j hlt hjid
      · rw [hid'] at hjid
        exact hne (Option.some.inj hjid)
  · rintro ⟨k, hsound, htarget, hdefect⟩
    cases hdefect with
    | tooLong row hrow hdepth =>
      -- the walk stops at the first row beyond the bound
      have hle : maxDepth.toNat ≤ k := by omega
      obtain ⟨row', hrow'⟩ := chainRow_of_le hle hrow
      refine ⟨maxDepth.toNat, row', hrow', by omega, fun j hj => hsound j (by omega),
        fun j hj => htarget j (by omega), .tooLong (by omega)⟩
    | withoutId row hrow hdepth hid =>
      exact ⟨k, row, hrow, Or.inr (by omega), hsound, htarget, .withoutId hdepth hid⟩
    | repeated id j hdepth hj hid hsame =>
      obtain ⟨row, hrow, hrowid⟩ := Option.bind_eq_some_iff.mp hid
      have hne : id ≠ memoryId := by
        rintro rfl
        exact htarget j hj hsame
      exact ⟨k, row, hrow, Or.inr (by omega), hsound, htarget,
        .repeated hdepth id hrowid hne j hj hsame⟩
    | missing row id hdepth hpos hrow hpointer hload =>
      -- the row that points to nothing is the last one there is
      obtain ⟨rowId, hid, hfresh⟩ := hsound (k - 1) (by omega)
      have hne : rowId ≠ memoryId := by
        rintro rfl
        exact htarget (k - 1) (by omega) hid
      refine ⟨k - 1, row, hrow, Or.inr (by omega), fun j hj => hsound j (by omega),
        fun j hj => htarget j (by omega), ?_⟩
      exact .missing (by omega) rowId ((chainId_of_row hrow).symm.trans hid) hne hfresh id hpointer
        hload

end Verdicts

/-! ### Rows as they are loaded -/

section Rows

variable (str : Json → String)

/-- `str(current["id"])`, where there is one. -/
def rowId (row : Dict Json) : Option String :=
  match row.item "id" with
  | .null => none
  | id => some (str id)

/-- `_supersession_pointer`: the column first, then the metadata copy. -/
def rowPointer (row : Dict Json) (key : String) : Option String :=
  if (row.item key).truthy then some (str (row.item key))
  else
    match row.item "metadata_json" with
    | .obj metadata => (Dict.getStr? metadata key).filter (· ≠ "")
    | _ => none

/-- `supersession_would_cycle`, as the lifecycle service calls it. -/
def supersessionWouldCycleOn (loadMemory : String → Option (Dict Json)) (memoryId : String)
    (successor : Dict Json) (maxDepth : Int := 64) : Except ChainDefect Bool :=
  wouldCycle (rowId str) (rowPointer str · "superseded_by") loadMemory memoryId maxDepth successor

end Rows

/-- The walk over typed rows, which all have ids. -/
theorem supersessionWalk_eq {ρ : Type} (idOf : ρ → String) (pointer : ρ → Option String)
    (loadMemory : String → Option ρ) (memoryId : String) (maxDepth hops depth : Nat)
    (seen : List String) (current : ρ) (hhops : hops + depth = maxDepth) :
    supersessionWalk idOf pointer loadMemory memoryId maxDepth hops seen current =
      (supersessionLoop (fun row => some (idOf row)) pointer loadMemory memoryId maxDepth depth seen
        current).mapError (·.error maxDepth) := by
  induction hops generalizing depth seen current with
  | zero =>
    have hdepth : (maxDepth : Int) ≤ depth := by omega
    rw [supersessionWalk, supersessionLoop, if_pos hdepth]
    rfl
  | succ hops ih =>
    -- a hop left: the tests are those of the loop, in the same order
    have hdepth : ¬(maxDepth : Int) ≤ depth := by omega
    rw [supersessionWalk, supersessionLoop, if_neg hdepth]
    by_cases htarget : idOf current = memoryId
    · simp only [if_pos htarget]
      rfl
    · simp only [if_neg htarget]
      by_cases hseen : idOf current ∈ seen
      · simp only [if_pos hseen]
        rfl
      · simp only [if_neg hseen]
        cases pointer current with
        | none => rfl
        | some nextId =>
          cases hload : loadMemory nextId with
          | none =>
            simp only [hload]
            rfl
          | some next =>
            simp only [hload]
            exact ih (depth + 1) _ _ (by omega)

theorem supersessionWouldCycle_eq {ρ : Type} (idOf : ρ → String) (pointer : ρ → Option String)
    (loadMemory : String → Option ρ) (memoryId : String) (successor : ρ) (maxDepth : Nat) :
    supersessionWouldCycle idOf pointer loadMemory memoryId successor maxDepth =
      (wouldCycle (fun row => some (idOf row)) pointer loadMemory memoryId maxDepth
        successor).mapError (·.error maxDepth) :=
  supersessionWalk_eq idOf pointer loadMemory memoryId maxDepth maxDepth 0 [] successor rfl

/-- The walk is exact within its bound: it finds the row to be retired if that is one
of the first `maxDepth` rows of the chain and no defect comes before it, it lets the
supersession through if the chain ends within the bound without it, and it refuses
each chain that has a defect or goes on beyond the bound. -/
theorem supersession_walk_exact (str : Json → String) (loadMemory : String → Option (Dict Json))
    (memoryId : String) (successor : Dict Json) (maxDepth : Int) :
    (supersessionWouldCycleOn str loadMemory memoryId successor maxDepth = .ok true ↔
      ∃ k : Nat, k < maxDepth ∧
        SoundChain (rowId str) (rowPointer str · "superseded_by") loadMemory successor k ∧
        chainId (rowId str) (rowPointer str · "superseded_by") loadMemory successor k =
          some memoryId) ∧
    (supersessionWouldCycleOn str loadMemory memoryId successor maxDepth = .ok false ↔
      ∃ k : Nat, k < maxDepth ∧
        SoundChain (rowId str) (rowPointer str · "superseded_by") loadMemory successor (k + 1) ∧
        ChainEnds (rowPointer str · "superseded_by") loadMemory successor k ∧
        ∀ j ≤ k, chainId (rowId str) (rowPointer str · "superseded_by") loadMemory successor j ≠
          some memoryId) ∧
    ∀ defect, supersessionWouldCycleOn str loadMemory memoryId successor maxDepth = .error defect ↔
      ∃ k : Nat, SoundChain (rowId str) (rowPointer str · "superseded_by") loadMemory successor k ∧
        (∀ j < k, chainId (rowId str) (rowPointer str · "superseded_by") loadMemory successor j ≠
          some memoryId) ∧
        DefectAt (rowId str) (rowPointer str · "superseded_by") loadMemory maxDepth successor k
          defect :=
  ⟨wouldCycle_true_iff, wouldCycle_false_iff, fun _ => wouldCycle_error_iff⟩

end AliceBot
