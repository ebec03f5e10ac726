import AliceBot.Library.Promotion
import AliceBot.RetrievalRows

/-!
# Current versions first

`_prefer_current_versions` puts a replacement in front of the rows it supersedes. Its
loop walks an index through the list and moves a replacement from behind it to it,
without a step of the index.

What is in front of the index is what was passed, so with distinct ids a round of the
loop is a `Promotion.Step` (`packLoop_run`). A round passes a row or moves one that was
not moved before, so twice as many rounds as there are rows are enough.
-/

namespace AliceBot

open PyLib

section Pack

variable (env : RowEnv)

/-- The pointer of a row under a key, if it is one to another row of the list. -/
def packPointer (idsInList : List String) (key : String) (memory : Row) : Option String :=
  if (memory.cell key).truthy && decide (env.str (memory.cell key) ∈ idsInList ∧
      env.str (memory.cell key) ≠ memory.id env) then some (env.str (memory.cell key))
  else none

/-- One round of the first loop over the pointers, with `setdefault`. -/
def addSupersedes (idsInList : List String) (successorOf : Dict String) (memory : Row) :
    Dict String :=
  match packPointer env idsInList "supersedes" memory with
  | some ancestorId =>
    if successorOf.has ancestorId then successorOf else successorOf.set ancestorId (memory.id env)
  | none => successorOf

/-- One round of the second loop. -/
def addSupersededBy (idsInList : List String) (successorOf : Dict String) (memory : Row) :
    Dict String :=
  match packPointer env idsInList "superseded_by" memory with
  | some successorId => successorOf.set (memory.id env) successorId
  | none => successorOf

/-- `successor_of`. -/
def packSuccessors (memories : List Row) : Dict String :=
  let idsInList := memories.map (Row.id env)
  memories.foldl (addSupersededBy env idsInList)
    (memories.foldl (addSupersedes env idsInList) [])

/-- The loop; nothing where it goes on for more than `fuel` rounds. -/
def packLoop (successorOf : Dict String) :
    Nat → Nat → List Row → List String → Nat → Option (List Row × List String × Nat)
  | 0, _, _, _, _ => none
  | fuel + 1, index, items, moved, reorders =>
    match items[index]? with
    | none => some (items, moved, reorders)
    | some ancestor =>
      match successorOf.get? (ancestor.id env) with
      | none => packLoop successorOf fuel (index + 1) items moved reorders
      | some successorId =>
        -- a row moves once at most, so the loop ends
        if successorId ∈ moved then packLoop successorOf fuel (index + 1) items moved reorders
        else
          match items.findIdx? fun item => decide (item.id env = successorId) with
          | none => packLoop successorOf fuel (index + 1) items moved reorders
          | some successorIndex =>
            if successorIndex ≤ index then
              packLoop successorOf fuel (index + 1) items moved reorders
            else
              -- the successor is put before the row, and the place is looked at again
              packLoop successorOf fuel index
                ((items.eraseIdx successorIndex).insertIdx index (items.getD successorIndex []))
                (successorId :: moved) (reorders + 1)

/-- `_prefer_current_versions`, with the ids of the rows it moved. -/
def preferCurrentVersionsMoving (memories : List Row) (fuel : Nat) :
    Option (List Row × List String × Nat) :=
  if memories.length < 2 then some (memories, [], 0)
  else
    let successorOf := packSuccessors env memories
    if successorOf = [] then some (memories, [], 0)
    else packLoop env successorOf fuel 0 memories [] 0

/-- `_prefer_current_versions`. -/
def preferCurrentVersions (memories : List Row) (fuel : Nat) : Option (List Row × Nat) :=
  (preferCurrentVersionsMoving env memories fuel).map fun (items, _, reorders) => (items, reorders)

end Pack

/-! ### The loop as a walk -/

section Walk

variable {env : RowEnv} {successorOf : Dict String}

/-- `items.insert(len(front), row)`. -/
theorem insertIdx_length (front back : List Row) (row : Row) :
    (front ++ back).insertIdx front.length row = front ++ row :: back := by
  induction front with
  | nil => rfl
  | cons first front ih =>
    rw [List.cons_append, List.length_cons, List.insertIdx_succ_cons, ih, List.cons_append]

/-- A replacement taken from behind a row and put in front of it. -/
theorem move_ahead (done before after : List Row) (ancestor row : Row) :
    let items := done ++ ancestor :: (before ++ row :: after)
    let successorIndex := (done ++ ancestor :: before).length
    (items.eraseIdx successorIndex).insertIdx done.length (items.getD successorIndex []) =
      done ++ row :: ancestor :: (before ++ after) := by
  dsimp only
  have hsplit : done ++ ancestor :: (before ++ row :: after) =
      (done ++ ancestor :: before) ++ row :: after := by simp
  have hrow : ((done ++ ancestor :: before) ++ row :: after).getD
      (done ++ ancestor :: before).length [] = row := by simp
  have herase : ((done ++ ancestor :: before) ++ row :: after).eraseIdx
      (done ++ ancestor :: before).length = done ++ (ancestor :: (before ++ after)) := by
    rw [List.eraseIdx_append_of_length_le le_rfl, Nat.sub_self, List.eraseIdx_cons_zero]
    simp
  rw [hsplit, hrow, herase, insertIdx_length]

/-- Where a row is found by its id. -/
theorem findIdx?_id {front after : List Row} {row : Row}
    (hids : ((front ++ row :: after).map (Row.id env)).Nodup) :
    (front ++ row :: after).findIdx? (fun item => decide (item.id env = row.id env)) =
      some front.length := by
  have hfront : front.findIdx? (fun item => decide (item.id env = row.id env)) = none := by
    refine List.findIdx?_eq_none_iff.mpr fun other hother => decide_eq_false fun hsame => ?_
    rw [List.map_append, List.map_cons, List.nodup_append] at hids
    exact hids.2.2 _ (List.mem_map_of_mem hother) _ (List.mem_cons_self ..) hsame
  rw [List.findIdx?_append, hfront, List.findIdx?_cons, decide_eq_true rfl]
  simp

/-- A row that is not behind the index is not found there. -/
theorem findIdx?_le {front rest : List Row} {itemId : String}
    (h : itemId ∉ rest.map (Row.id env)) {index : Nat}
    (hfound : (front ++ rest).findIdx? (fun item => decide (item.id env = itemId)) =
      some index) : index < front.length := by
  have hrest : rest.findIdx? (fun item => decide (item.id env = itemId)) = none := by
    refine List.findIdx?_eq_none_iff.mpr fun other hother => decide_eq_false fun hsame => ?_
    exact h (hsame ▸ List.mem_map_of_mem hother)
  rw [List.findIdx?_append, hrest, Option.map_none, Option.or_none] at hfound
  exact (List.findIdx?_eq_some_iff_findIdx_eq.mp hfound).1

/-- The loop where the rows in front of its index were passed. -/
def packLoopAt (env : RowEnv) (successorOf : Dict String) (fuel : Nat)
    (st : Promotion Row String) : Option (List Row × List String × Nat) :=
  packLoop env successorOf fuel st.done.length (st.done ++ st.pending) st.moved st.moved.length

theorem packLoopAt_end (fuel : Nat) (done : List Row) (moved : List String) :
    packLoopAt env successorOf (fuel + 1) ⟨done, [], moved⟩ =
      some (done, moved, moved.length) := by
  rw [packLoopAt, packLoop, List.append_nil, List.getElem?_eq_none le_rfl]

/-- **One round** passes a row or moves its replacement. -/
theorem packLoopAt_round {done rest : List Row} {ancestor : Row} {moved : List String}
    (hids : ((done ++ ancestor :: rest).map (Row.id env)).Nodup) :
    ∃ st', Promotion.Step (Row.id env) successorOf.get? ⟨done, ancestor :: rest, moved⟩ st' ∧
      ∀ fuel, packLoopAt env successorOf (fuel + 1) ⟨done, ancestor :: rest, moved⟩ =
        packLoopAt env successorOf fuel st' := by
  have hhead : (done ++ ancestor :: rest)[done.length]? = some ancestor := by simp
  have hnext : packLoopAt env successorOf = fun fuel (st : Promotion Row String) =>
    packLoop env successorOf fuel st.done.length (st.done ++ st.pending) st.moved
      st.moved.length := rfl
  have hpassed (fuel : Nat) : packLoop env successorOf fuel (done.length + 1)
      (done ++ ancestor :: rest) moved moved.length =
      packLoopAt env successorOf fuel ⟨done ++ [ancestor], rest, moved⟩ := by
    rw [packLoopAt, List.length_append, List.length_singleton, List.append_assoc,
      List.singleton_append]
  cases hsuccessor : successorOf.get? (ancestor.id env) with
  | none =>
    -- no replacement: the row is passed
    refine ⟨_, .advance done ancestor rest moved fun b _ h => ?_, fun fuel => ?_⟩
    · rw [hsuccessor] at h
      cases h
    · rw [packLoopAt, packLoop, hhead]
      dsimp only
      rw [hsuccessor]
      exact hpassed fuel
  | some successorId =>
    have hround (fuel : Nat) : packLoopAt env successorOf (fuel + 1)
        ⟨done, ancestor :: rest, moved⟩ =
        if successorId ∈ moved then packLoop env successorOf fuel (done.length + 1)
          (done ++ ancestor :: rest) moved moved.length
        else match (done ++ ancestor :: rest).findIdx?
            fun item => decide (item.id env = successorId) with
          | none => packLoop env successorOf fuel (done.length + 1)
            (done ++ ancestor :: rest) moved moved.length
          | some successorIndex =>
            if successorIndex ≤ done.length then packLoop env successorOf fuel (done.length + 1)
              (done ++ ancestor :: rest) moved moved.length
            else packLoop env successorOf fuel done.length
              (((done ++ ancestor :: rest).eraseIdx successorIndex).insertIdx done.length
                ((done ++ ancestor :: rest).getD successorIndex []))
              (successorId :: moved) (moved.length + 1) := by
      rw [packLoopAt, packLoop, hhead]
      dsimp only
      rw [hsuccessor]
    -- a replacement that was moved before is not moved again
    by_cases hbefore : successorId ∈ moved
    · refine ⟨_, .advance done ancestor rest moved fun b _ h => ?_, fun fuel => ?_⟩
      · rw [hsuccessor, Option.some.injEq] at h
        exact h ▸ hbefore
      · rw [hround, if_pos hbefore, hpassed]
    · simp only [if_neg hbefore] at hround
      by_cases hbehind : successorId ∈ rest.map (Row.id env)
      · -- the replacement is behind the index
        obtain ⟨row, hrow, rfl⟩ := List.mem_map.mp hbehind
        obtain ⟨before, after, rfl⟩ := List.append_of_mem hrow
        refine ⟨_, .promote done ancestor before row after moved hsuccessor hbefore,
          fun fuel => ?_⟩
        have hsplit : done ++ ancestor :: (before ++ row :: after) =
            (done ++ ancestor :: before) ++ row :: after := by simp
        have hfound := findIdx?_id (hsplit ▸ hids)
        have hindex : ¬ (done ++ ancestor :: before).length ≤ done.length := by simp
        rw [hround, hsplit, hfound]
        dsimp only
        rw [if_neg hindex, ← hsplit]
        exact congrArg (fun items => packLoop env successorOf fuel done.length items
          (row.id env :: moved) (moved.length + 1)) (move_ahead done before after ancestor row)
      · -- the replacement is ahead of the row, or not in the pack
        refine ⟨_, .advance done ancestor rest moved fun b hb h => ?_, fun fuel => ?_⟩
        · rw [hsuccessor, Option.some.injEq] at h
          exact absurd (h ▸ List.mem_map_of_mem hb) hbehind
        · rw [hround, ← hpassed]
          split
          · rfl
          · next successorIndex hfound =>
            rw [List.append_cons] at hfound
            have hlt := findIdx?_le hbehind hfound
            rw [List.length_append, List.length_singleton] at hlt
            exact if_pos (Nat.le_of_lt_succ hlt)

/-- Twice as many rounds as there are rows are enough. -/
theorem packLoopAt_run {memories : List Row} (hids : (memories.map (Row.id env)).Nodup)
    (rounds : Nat) {st : Promotion Row String}
    (h : Promotion.Promoting (Row.id env) successorOf.get? memories st)
    (hrounds : Promotion.roundsLeft memories st ≤ rounds) :
    ∃ items moved, Relation.ReflTransGen (Promotion.Step (Row.id env) successorOf.get?) st
        ⟨items, [], moved⟩ ∧
      ∀ fuel, rounds < fuel →
        packLoopAt env successorOf fuel st = some (items, moved, moved.length) := by
  -- each round of the loop lowers the rounds left
  induction rounds generalizing st with
  | zero =>
    obtain ⟨done, pending, moved⟩ := st
    have hpending : pending = [] := by
      refine List.length_eq_zero_iff.mp ?_
      dsimp only [Promotion.roundsLeft] at hrounds
      omega
    subst hpending
    refine ⟨done, moved, .refl, fun fuel hfuel => ?_⟩
    rw [← Nat.succ_pred_eq_of_pos hfuel]
    exact packLoopAt_end _ done moved
  | succ rounds ih =>
    obtain ⟨done, pending, moved⟩ := st
    cases pending with
    | nil =>
      refine ⟨done, moved, .refl, fun fuel hfuel => ?_⟩
      rw [← Nat.succ_pred_eq_of_pos (Nat.zero_lt_of_lt hfuel)]
      exact packLoopAt_end _ done moved
    | cons ancestor rest =>
      have hlist : ((done ++ ancestor :: rest).map (Row.id env)).Nodup :=
        (h.perm.map _).nodup_iff.mpr hids
      obtain ⟨st', hstep, hround⟩ := packLoopAt_round hlist
      have hless := h.roundsLeft_lt hstep
      obtain ⟨items, moved', hrun, hend⟩ := ih (h.step hstep) (by omega)
      refine ⟨items, moved', .head hstep hrun, fun fuel hfuel => ?_⟩
      rw [← Nat.succ_pred_eq_of_pos (Nat.zero_lt_of_lt hfuel), Nat.succ_eq_add_one, hround]
      exact hend _ (Nat.lt_pred_iff.mpr hfuel)

end Walk

/-! ### What the order repairs -/

section Repairs

variable (env : RowEnv)

/-- The row is the replacement of another one in the list. -/
def IsReplacement (memories : List Row) (memory : Row) : Prop :=
  ∃ ancestor ∈ memories, (packSuccessors env memories).get? (ancestor.id env) =
    some (memory.id env)

instance (memories : List Row) (memory : Row) : Decidable (IsReplacement env memories memory) :=
  inferInstanceAs (Decidable (∃ ancestor ∈ memories, _))

/-- What `_prefer_current_versions` may do to a list, moving the rows with the given
ids. -/
structure OnlyRepairs (memories items : List Row) (moved : List String) : Prop where
  perm : items.Perm memories
  others : items.filter (fun memory => !decide (IsReplacement env memories memory)) =
    memories.filter fun memory => !decide (IsReplacement env memories memory)
  unmoved : items.filter (fun memory => !decide (memory.id env ∈ moved)) =
    memories.filter fun memory => !decide (memory.id env ∈ moved)
  nodup : moved.Nodup
  replacements : ∀ itemId ∈ moved, ∃ memory ∈ memories, memory.id env = itemId ∧
    IsReplacement env memories memory
  ahead : Acyclic (packSuccessors env memories).get? → ∀ ancestor ∈ items, ∀ memory ∈ items,
    (packSuccessors env memories).get? (ancestor.id env) = some (memory.id env) →
    (items.map (Row.id env)).idxOf (memory.id env) <
      (items.map (Row.id env)).idxOf (ancestor.id env)

variable {env}

/-- A list that needs no repair. -/
theorem onlyRepairs_refl {memories : List Row}
    (h : ∀ ancestor ∈ memories, ∀ memory ∈ memories,
      (packSuccessors env memories).get? (ancestor.id env) = some (memory.id env) →
      memory.id env = ancestor.id env) :
    OnlyRepairs env memories memories [] := by
  refine ⟨List.Perm.refl _, rfl, rfl, List.nodup_nil,
    fun _ hmem => absurd hmem List.not_mem_nil, fun hacyclic ancestor ha memory hm hnext => ?_⟩
  have hsame := h ancestor ha memory hm hnext
  rw [hsame] at hnext
  exact absurd (.single hnext) (hacyclic _)

/-- A walk that passed all rows has repaired their order. -/
theorem onlyRepairs_of_run {memories items : List Row} {moved : List String}
    (hids : (memories.map (Row.id env)).Nodup)
    (hrun : Relation.ReflTransGen
      (Promotion.Step (Row.id env) (packSuccessors env memories).get?) ⟨[], memories, []⟩
      ⟨items, [], moved⟩) : OnlyRepairs env memories items moved := by
  have hpromoting := Promotion.Promoting.initial.run hrun
  have hitems : items ++ [] = items := List.append_nil items
  have hperm : items.Perm memories := hitems ▸ hpromoting.perm
  have hmoved (row : Row) (h : row.id env ∈ moved) : IsReplacement env memories row :=
    (hpromoting.replaces _ h).2
  refine ⟨hperm, ?_, ?_, hpromoting.nodup, fun itemId hmem => ?_, ?_⟩
  · have hkept := hpromoting.unmoved (fun row => !decide (IsReplacement env memories row))
      fun row h => by simp [hmoved row h]
    rwa [hitems] at hkept
  · have hkept := hpromoting.unmoved (fun row => !decide (row.id env ∈ moved))
      fun row h => by simp [show row.id env ∈ moved from h]
    rwa [hitems] at hkept
  · obtain ⟨memory, hmemory, rfl⟩ := List.mem_map.mp (hpromoting.replaces itemId hmem).1
    exact ⟨memory, hmemory, rfl, hmoved memory hmem⟩
  · -- pointers without a cycle are all in order at the end
    intro hacyclic ancestor ha memory hm hnext
    have hahead := Promotion.Ahead.initial.run hacyclic hids .initial hrun
    have hne : ancestor.id env ≠ memory.id env := by
      intro heq
      rw [← heq] at hnext
      exact hacyclic _ (.single hnext)
    exact idxOf_lt_of_pairwise hahead.ordered ((hperm.map _).nodup_iff.mpr hids) ha hm hnext hne

/-- **The pass only repairs the order of supersessions.** With distinct ids it ends
within twice as many rounds as there are rows, and the count it reports is the
number of rows it moved. -/
theorem preferCurrentVersions_repairs {memories : List Row}
    (hids : (memories.map (Row.id env)).Nodup) :
    ∃ items moved, OnlyRepairs env memories items moved ∧
      ∀ fuel, 2 * memories.length < fuel →
        preferCurrentVersionsMoving env memories fuel = some (items, moved, moved.length) ∧
        preferCurrentVersions env memories fuel = some (items, moved.length) := by
  by_cases hshort : memories.length < 2
  · -- at most one row
    refine ⟨memories, [], onlyRepairs_refl fun ancestor ha memory hm _ => ?_, fun fuel _ => ?_⟩
    · obtain ⟨i, hi, rfl⟩ := List.getElem_of_mem ha
      obtain ⟨j, hj, rfl⟩ := List.getElem_of_mem hm
      congr 2
      omega
    · have hmoving : preferCurrentVersionsMoving env memories fuel = some (memories, [], 0) := by
        rw [preferCurrentVersionsMoving, if_pos hshort]
      exact ⟨hmoving, by rw [preferCurrentVersions, hmoving]; rfl⟩
  by_cases hpointers : packSuccessors env memories = []
  · refine ⟨memories, [], onlyRepairs_refl fun ancestor _ memory _ hnext => ?_, fun fuel _ => ?_⟩
    · rw [hpointers] at hnext
      cases hnext
    · have hmoving : preferCurrentVersionsMoving env memories fuel = some (memories, [], 0) := by
        rw [preferCurrentVersionsMoving, if_neg hshort]
        exact if_pos hpointers
      exact ⟨hmoving, by rw [preferCurrentVersions, hmoving]; rfl⟩
  · have hinitial : Promotion.Promoting (Row.id env) (packSuccessors env memories).get? memories
      ⟨[], memories, []⟩ := .initial
    have hrounds : Promotion.roundsLeft memories
        (⟨[], memories, []⟩ : Promotion Row String) ≤ 2 * memories.length := by
      simp only [Promotion.roundsLeft, List.length_nil]
      omega
    obtain ⟨items, moved, hrun, hend⟩ :=
      packLoopAt_run hids (2 * memories.length) hinitial hrounds
    refine ⟨items, moved, onlyRepairs_of_run hids hrun, fun fuel hfuel => ?_⟩
    have hmoving : preferCurrentVersionsMoving env memories fuel =
        some (items, moved, moved.length) := by
      rw [preferCurrentVersionsMoving, if_neg hshort]
      exact (if_neg hpointers).trans (hend fuel hfuel)
    exact ⟨hmoving, by rw [preferCurrentVersions, hmoving]; rfl⟩

/-- A memory with a pointer to the row that superseded it. -/
def supersededRow (itemId supersededBy : String) : Row :=
  [("id", .json (.str itemId)), ("superseded_by", .json (.str supersededBy))]

/-- A chain of three versions, the oldest first. -/
def threeVersions : List Row :=
  [supersededRow "a" "b", supersededRow "b" "c", [("id", .json (.str "c"))]]

theorem preferCurrentVersions_threeVersions :
    ∃ items moved, OnlyRepairs RowEnv.plain threeVersions items moved ∧
      ∀ fuel, 6 < fuel →
        preferCurrentVersionsMoving RowEnv.plain threeVersions fuel =
          some (items, moved, moved.length) ∧
        preferCurrentVersions RowEnv.plain threeVersions fuel = some (items, moved.length) :=
  preferCurrentVersions_repairs (by decide +kernel)

example : (preferCurrentVersions RowEnv.plain threeVersions 7).map (fun packed =>
    (packed.1.map (Row.id RowEnv.plain), packed.2)) = some (["c", "b", "a"], 2) := by
  decide +kernel

end Repairs

end AliceBot
