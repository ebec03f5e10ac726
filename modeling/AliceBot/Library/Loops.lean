import AliceBot.Library.Effect

/-!
# Loops, and computations on a part of the state

* `run_foldlM_ok` — what every round of a loop keeps holds of the whole list
  after a loop that returned;
* `zoom` — a computation on a part of the state, its errors renamed.
-/

namespace PyLib

variable {ε δ σ τ α β : Type}

/-- What the rounds keep, with the elements done so far, holds after the loop. -/
theorem run_foldlM_ok {P : List α → β → σ → Prop} {f : β → α → EStateM ε σ β}
    (hf : ∀ done a b s b' t, P done b s → (f b a).run s = .ok b' t → P (done ++ [a]) b' t)
    {done l : List α} {b b' : β} {s t : σ} (hstart : P done b s)
    (h : (l.foldlM f b).run s = .ok b' t) : P (done ++ l) b' t := by
  induction l generalizing done s b with
  | nil =>
    obtain ⟨rfl, rfl⟩ := run_pure_ok.mp h
    rw [List.append_nil]
    exact hstart
  | cons a l ih =>
    rw [List.foldlM_cons] at h
    obtain ⟨b₁, s₁, hround, h⟩ := run_bind_ok.mp h
    rw [List.append_cons]
    exact ih (hf _ _ _ _ _ _ hstart hround) h

section Zoom

variable (get : σ → τ) (put : σ → τ → σ) (wrap : δ → ε)

/-- A computation on a part of the state, its errors renamed. -/
def zoom (m : EStateM δ τ α) : EStateM ε σ α := fun s =>
  match m.run (get s) with
  | .ok a part => .ok a (put s part)
  | .error e part => .error (wrap e) (put s part)

variable {get put wrap}

theorem run_zoom_ok {m : EStateM δ τ α} {s t : σ} {a : α} :
    (zoom get put wrap m).run s = .ok a t ↔
      ∃ part, m.run (get s) = .ok a part ∧ put s part = t := by
  simp only [zoom, EStateM.run]
  cases m (get s) with
  | ok b part =>
    constructor
    · intro h
      cases h
      exact ⟨part, rfl, rfl⟩
    · rintro ⟨part', hrun, rfl⟩
      cases hrun
      rfl
  | error e part =>
    constructor
    · intro h
      cases h
    · rintro ⟨part', hrun, -⟩
      cases hrun

/-- A part that moves moves the whole. -/
theorem zoom_moves {R : τ → τ → Prop} {S : σ → σ → Prop} {m : EStateM δ τ α} (hm : Moves R m)
    (h : ∀ s part, R (get s) part → S s (put s part)) : Moves S (zoom get put wrap m) := by
  intro s
  have hpart : R (get s) (endState (m.run (get s))) := hm (get s)
  rw [EStateM.run] at hpart
  rw [MovesAt]
  simp only [zoom, EStateM.run]
  cases hrun : m (get s) with
  | ok a part =>
    rw [hrun] at hpart
    exact h s part hpart
  | error e part =>
    rw [hrun] at hpart
    exact h s part hpart

end Zoom

end PyLib
