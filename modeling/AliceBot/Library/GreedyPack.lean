import AliceBot.Library.Lines

/-!
# Greedy packing

Parts in their order are collected until the next one does not fit, or opens a
pack of its own. A part over the limit stays alone.

`parts_packGreedily` is the loss-free part: the packs hold the parts in their
order. `fits_packGreedily` is the invariant: what is collected is within the
limit, and nothing but its first part opens a pack.
-/

namespace PyLib

/-- Parts packed together, or an oversized part. -/
inductive Pack (α : Type*) where
  | together (parts : List α)
  | alone (part : α)

namespace Pack

variable {α : Type*}

def parts : Pack α → List α
  | .together parts => parts
  | .alone part => [part]

@[simp] theorem parts_together (parts : List α) : (Pack.together parts).parts = parts := rfl

@[simp] theorem parts_alone (part : α) : (Pack.alone part).parts = [part] := rfl

end Pack

section Packing

variable {α : Type*} (size : α → Nat) (gap limit : Nat) (opens : α → Bool)

/-- The pack of what is pending, if anything is. -/
def closed (pending : List α) : List (Pack α) :=
  if pending.isEmpty then [] else [.together pending]

/-- The packs, with the parts that are pending. -/
def packGreedily : List α → List α → List (Pack α)
  | pending, [] => closed pending
  | pending, part :: parts =>
    if limit < size part then closed pending ++ .alone part :: packGreedily [] parts
    else if !pending.isEmpty && (opens part ||
        decide (limit < width size gap pending + size part + gap)) then
      .together pending :: packGreedily [part] parts
    else packGreedily (pending ++ [part]) parts

/-- What packing makes of a pack. -/
def Pack.Fits : Pack α → Prop
  | .together parts =>
    parts ≠ [] ∧ width size gap parts ≤ limit ∧ ∀ part ∈ parts.tail, opens part = false
  | .alone part => limit < size part

variable {size gap limit opens}

theorem parts_closed (pending : List α) : (closed pending).flatMap Pack.parts = pending := by
  cases pending with
  | nil => rfl
  | cons part pending => simp [closed]

/-- The packs hold the parts in their order. -/
theorem parts_packGreedily (pending parts : List α) :
    (packGreedily size gap limit opens pending parts).flatMap Pack.parts = pending ++ parts := by
  fun_induction packGreedily size gap limit opens pending parts with
  | case1 pending => rw [parts_closed, List.append_nil]
  | case2 pending part parts hover ih =>
    rw [List.flatMap_append, parts_closed, List.flatMap_cons, ih]
    rfl
  | case3 pending part parts hover hcloses ih =>
    rw [List.flatMap_cons, ih]
    rfl
  | case4 pending part parts hover hstays ih =>
    rw [ih, List.append_assoc]
    rfl

theorem fits_closed {pending : List α}
    (h : pending ≠ [] → (Pack.together pending).Fits size gap limit opens) :
    ∀ pack ∈ closed pending, pack.Fits size gap limit opens := by
  intro pack hpack
  cases pending with
  | nil => exact absurd hpack List.not_mem_nil
  | cons part pending =>
    obtain rfl := List.mem_singleton.mp hpack
    exact h (List.cons_ne_nil part pending)

/-- A part that neither opens a pack nor exceeds the limit joins what is pending. -/
theorem Pack.Fits.concat {pending : List α} {part : α} (hpending : pending ≠ [])
    (h : (Pack.together pending).Fits size gap limit opens) (hopens : opens part = false)
    (hwidth : width size gap pending + size part + gap ≤ limit) :
    (Pack.together (pending ++ [part])).Fits size gap limit opens := by
  refine ⟨List.append_ne_nil_of_right_ne_nil _ (List.cons_ne_nil part []), ?_, ?_⟩
  · rw [width_concat hpending]
    exact hwidth
  · rw [List.tail_append_of_ne_nil hpending]
    intro p hp
    rcases List.mem_append.mp hp with hold | hnew
    · exact h.2.2 p hold
    · rw [List.mem_singleton.mp hnew]
      exact hopens

theorem fits_singleton {part : α} (h : size part ≤ limit) :
    (Pack.together [part]).Fits size gap limit opens :=
  ⟨List.cons_ne_nil part [], by rw [width_singleton]; exact h,
    fun _ hp => absurd hp List.not_mem_nil⟩

/-- Every pack fits, if what is pending does. -/
theorem fits_packGreedily {pending : List α} (parts : List α)
    (h : pending ≠ [] → (Pack.together pending).Fits size gap limit opens) :
    ∀ pack ∈ packGreedily size gap limit opens pending parts,
      pack.Fits size gap limit opens := by
  fun_induction packGreedily size gap limit opens pending parts with
  | case1 pending => exact fits_closed h
  | case2 pending part parts hover ih =>
    intro pack hpack
    rcases List.mem_append.mp hpack with hclosed | hrest
    · exact fits_closed h pack hclosed
    · rcases List.mem_cons.mp hrest with rfl | hrest
      · exact hover
      · exact ih (fun hne => absurd rfl hne) pack hrest
  | case3 pending part parts hover hcloses ih =>
    intro pack hpack
    rcases List.mem_cons.mp hpack with rfl | hrest
    · have hne : pending ≠ [] := by
        intro heq
        rw [heq] at hcloses
        exact Bool.false_ne_true hcloses
      exact h hne
    · exact ih (fun _ => fits_singleton (Nat.not_lt.mp hover)) pack hrest
  | case4 pending part parts hover hstays ih =>
    refine ih fun _ => ?_
    cases pending with
    | nil => exact fits_singleton (Nat.not_lt.mp hover)
    | cons first pending =>
      -- the part stays with what is pending: it opens nothing and fits
      have hstays := Bool.eq_false_of_not_eq_true hstays
      have hboth := Bool.or_eq_false_iff.mp hstays
      have hne := List.cons_ne_nil first pending
      exact (h hne).concat hne hboth.1
        (Nat.not_lt.mp (of_decide_eq_false hboth.2))

/-- The packs of a list, with nothing pending before it. -/
theorem fits_packs (parts : List α) : ∀ pack ∈ packGreedily size gap limit opens [] parts,
    pack.Fits size gap limit opens :=
  fits_packGreedily parts fun h => absurd rfl h

/-- The parts that stay alone are those over the limit. -/
theorem alone_mem_packs {parts : List α} {part : α} :
    .alone part ∈ packGreedily size gap limit opens [] parts ↔
      part ∈ parts ∧ limit < size part := by
  have hparts : (packGreedily size gap limit opens [] parts).flatMap Pack.parts = parts :=
    parts_packGreedily [] parts
  constructor
  · intro h
    refine ⟨?_, fits_packs parts _ h⟩
    rw [← hparts]
    exact List.mem_flatMap.mpr ⟨_, h, List.mem_singleton_self part⟩
  · rintro ⟨hmem, hover⟩
    rw [← hparts] at hmem
    obtain ⟨pack, hpack, hmem⟩ := List.mem_flatMap.mp hmem
    -- packed with others it would fit into the limit
    cases pack with
    | together packed =>
      have hwidth := (fits_packs parts _ hpack).2.1
      exact absurd ((size_le_width hmem).trans hwidth) (Nat.not_le.mpr hover)
    | alone other =>
      rw [List.mem_singleton.mp hmem]
      exact hpack

/-- The parts that are packed together are those within it. -/
theorem exists_together_mem_packs {parts : List α} {part : α} :
    (∃ packed, .together packed ∈ packGreedily size gap limit opens [] parts ∧ part ∈ packed) ↔
      part ∈ parts ∧ size part ≤ limit := by
  have hparts : (packGreedily size gap limit opens [] parts).flatMap Pack.parts = parts :=
    parts_packGreedily [] parts
  constructor
  · rintro ⟨packed, hpack, hmem⟩
    refine ⟨?_, (size_le_width hmem).trans (fits_packs parts _ hpack).2.1⟩
    rw [← hparts]
    exact List.mem_flatMap.mpr ⟨_, hpack, hmem⟩
  · rintro ⟨hmem, hfits⟩
    rw [← hparts] at hmem
    obtain ⟨pack, hpack, hmem⟩ := List.mem_flatMap.mp hmem
    cases pack with
    | together packed => exact ⟨packed, hpack, hmem⟩
    | alone other =>
      rw [List.mem_singleton.mp hmem] at hfits
      exact absurd hfits (Nat.not_le.mpr (fits_packs parts _ hpack))

end Packing

end PyLib
