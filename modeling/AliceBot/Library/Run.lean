import AliceBot.Library.Effect
import Mathlib.Data.List.Basic

/-!
# Runs of a transition relation

A run is the list of operations performed so far together with the state they
led to. Two rules carry every invariant proof about a system: `Run.invariant`
for what holds of the state alone, and `Run.history` for what ties the state
to the operations that produced it. A run can keep the states that it went
through (`WithStates`), so that one can say which of its moves did something:
`Run.changed_once` finds the one move that changed what can change once. A loop
in a computation makes a run of its rounds (`Run.foldlM`, `Run.mapM`). Where the
steps are a partial function, `Run.performAll` makes a run of a list of
operations; where they are a function, `Along` says that a property holds of each
operation where it is performed.
-/

namespace PyLib

/-- `Run step init ops s`: from an initial state the operations `ops`, oldest
first, lead to `s`. -/
inductive Run {Op σ : Type*} (step : σ → Op → σ → Prop) (init : σ → Prop) :
    List Op → σ → Prop
  | start {s : σ} (h : init s) : Run step init [] s
  | next {ops : List Op} {s t : σ} {op : Op} (run : Run step init ops s) (h : step s op t) :
      Run step init (ops ++ [op]) t

namespace Run

variable {Op σ : Type*} {step : σ → Op → σ → Prop} {init : σ → Prop}

/-- A predicate on operations and state that holds initially and is kept by
every step holds of every run. -/
theorem history {P : List Op → σ → Prop} (hinit : ∀ s, init s → P [] s)
    (hstep : ∀ ops s op t, P ops s → step s op t → P (ops ++ [op]) t) {ops : List Op} {s : σ}
    (run : Run step init ops s) : P ops s := by
  induction run with
  | start h => exact hinit _ h
  | next _ h ih => exact hstep _ _ _ _ ih h

/-- A predicate that holds initially and is kept by every step holds of every
reachable state. -/
theorem invariant {P : σ → Prop} (hinit : ∀ s, init s → P s)
    (hstep : ∀ s op t, P s → step s op t → P t) {ops : List Op} {s : σ}
    (run : Run step init ops s) : P s :=
  history (P := fun _ s => P s) hinit (fun _ => hstep) run

end Run

/-! ### Runs that keep their states -/

section Moves

/-- An operation with the states before and after it. -/
structure Move (Op σ : Type*) where
  before : σ
  op : Op
  after : σ

variable {Op σ α : Type*} (step : σ → Op → σ → Prop) {init : σ → Prop}

/-- A step, kept with its states. -/
def WithStates (s : σ) (move : Move Op σ) (t : σ) : Prop :=
  move.before = s ∧ move.after = t ∧ step s move.op t

variable {step}

/-- Every run went through some states. -/
theorem Run.exists_moves {ops : List Op} {s : σ} (run : Run step init ops s) :
    ∃ moves, moves.map Move.op = ops ∧ Run (WithStates step) init moves s := by
  induction run with
  | start h => exact ⟨[], rfl, .start h⟩
  | @next ops s t op _ h ih =>
    obtain ⟨moves, hops, hmoves⟩ := ih
    refine ⟨moves ++ [⟨s, op, t⟩], ?_, hmoves.next ⟨rfl, rfl, h⟩⟩
    rw [List.map_append, hops]
    rfl

theorem Run.of_moves {moves : List (Move Op σ)} {s : σ}
    (run : Run (WithStates step) init moves s) : Run step init (moves.map Move.op) s := by
  induction run with
  | start h => exact .start h
  | next _ h ih =>
    obtain ⟨rfl, rfl, hstep⟩ := h
    rw [List.map_append]
    exact ih.next hstep

/-- What every step leaves as it is, unless it is still at its first value, is
changed by one move at most: no move changes it, or one does, from the first value
to the one in the end, and the others leave it as it is. Here `I` is an invariant,
and `Q` says of a step what is known of one that may change the value. -/
theorem Run.changed_once {I : σ → Prop} {f : σ → α} {a : α} {Q : Move Op σ → Prop}
    (hinit : ∀ s, init s → I s ∧ f s = a)
    (hstep : ∀ s op t, I s → step s op t →
      I t ∧ (f t = f s ∨ (f s = a ∧ Q ⟨s, op, t⟩)))
    {moves : List (Move Op σ)} {s : σ} (run : Run (WithStates step) init moves s) :
    (f s = a ∧ ∀ move ∈ moves, f move.after = f move.before) ∨
      ∃ before move after, moves = before ++ move :: after ∧ f move.before = a ∧
        f move.after = f s ∧ Q move ∧
          ∀ other ∈ before ++ after, f other.after = f other.before := by
  have hboth : I s ∧ ((f s = a ∧ ∀ move ∈ moves, f move.after = f move.before) ∨
      ∃ before move after, moves = before ++ move :: after ∧ f move.before = a ∧
        f move.after = f s ∧ Q move ∧
        ∀ other ∈ before ++ after, f other.after = f other.before) := by
    induction run with
    | start h => exact ⟨(hinit _ h).1, .inl ⟨(hinit _ h).2, fun move hmove => nomatch hmove⟩⟩
    | @next moves s t move _ h ih =>
      obtain ⟨hinv, hmoves⟩ := ih
      obtain ⟨rfl, rfl, hone⟩ := h
      obtain ⟨hinv', hchange⟩ := hstep _ _ _ hinv hone
      refine ⟨hinv', ?_⟩
      rcases hchange with hsame | ⟨hfirst, hQ⟩
      · -- the last move leaves the value: whatever changed it came before
        rcases hmoves with
          ⟨hvalue, hnone⟩ | ⟨before, changing, after, rfl, hbefore, hafter, hQ, hrest⟩
        · refine .inl ⟨hsame.trans hvalue, fun other hother => ?_⟩
          rcases List.mem_append.mp hother with hold | hnew
          · exact hnone other hold
          · rw [List.mem_singleton.mp hnew]
            exact hsame
        · refine .inr ⟨before, changing, after ++ [move], by simp, hbefore, hafter.trans hsame.symm,
            hQ, fun other hother => ?_⟩
          rw [← List.append_assoc] at hother
          rcases List.mem_append.mp hother with hold | hnew
          · exact hrest other hold
          · rw [List.mem_singleton.mp hnew]
            exact hsame
      · -- the value is at its first: no move has changed it
        have hnone : ∀ other ∈ moves, f other.after = f other.before := by
          rcases hmoves with ⟨-, hnone⟩ | ⟨before, changing, after, rfl, hbefore, hafter, -, hrest⟩
          · exact hnone
          · intro other hother
            rcases List.mem_append.mp hother with hmem | hmem
            · exact hrest other (List.mem_append_left _ hmem)
            rcases List.mem_cons.mp hmem with rfl | hmem
            · rw [hafter, hfirst, hbefore]
            · exact hrest other (List.mem_append_right _ hmem)
        exact .inr ⟨moves, move, [], rfl, hfirst, rfl, hQ, by rwa [List.append_nil]⟩
  exact hboth.2

end Moves

/-! ### Loops -/

section Loops

variable {ε σ Op β : Type} {step : σ → Op → σ → Prop} {init : σ → Prop}

/-- A loop whose rounds are steps makes a run. -/
theorem Run.foldlM {f : β → Op → EStateM ε σ β}
    (hf : ∀ b op s b' t, (f b op).run s = .ok b' t → step s op t) {before : List Op} {s t : σ}
    (run : Run step init before s) {ops : List Op} {b b' : β}
    (h : (ops.foldlM f b).run s = .ok b' t) : Run step init (before ++ ops) t := by
  induction ops generalizing before s b with
  | nil =>
    obtain ⟨-, rfl⟩ := run_pure_ok.mp h
    rw [List.append_nil]
    exact run
  | cons op ops ih =>
    rw [List.foldlM_cons] at h
    obtain ⟨b₁, s₁, hop, h⟩ := run_bind_ok.mp h
    rw [List.append_cons]
    exact ih (run.next (hf _ _ _ _ _ hop)) h

/-- A list of computations that are steps makes a run. -/
theorem Run.mapM {f : Op → EStateM ε σ β}
    (hf : ∀ op s b t, (f op).run s = .ok b t → step s op t) {before : List Op} {s t : σ}
    (run : Run step init before s) {ops : List Op} {bs : List β}
    (h : (ops.mapM f).run s = .ok bs t) : Run step init (before ++ ops) t := by
  induction ops generalizing before s bs with
  | nil =>
    obtain ⟨-, rfl⟩ := run_pure_ok.mp h
    rw [List.append_nil]
    exact run
  | cons op ops ih =>
    rw [List.mapM_cons] at h
    obtain ⟨b, s₁, hop, h⟩ := run_bind_ok.mp h
    obtain ⟨rest, s₂, hrest, h⟩ := run_bind_ok.mp h
    obtain ⟨-, rfl⟩ := run_pure_ok.mp h
    rw [List.append_cons]
    exact ih (run.next (hf _ _ _ _ hop)) hrest

end Loops

/-! ### Runs of a partial function -/

section Partial

variable {Op σ : Type*} (next : σ → Op → Option σ)

/-- The operations one after the other; one that cannot be done is skipped. -/
def performAll (s : σ) (ops : List Op) : σ :=
  ops.foldl (fun s op => (next s op).getD s) s

/-- Every operation can be done, and passes the check where it is done. -/
def allFlow (check : σ → Op → Bool) : σ → List Op → Bool
  | _, [] => true
  | s, op :: ops =>
    (next s op).isSome && check s op && allFlow check ((next s op).getD s) ops

variable {next}

/-- Operations that can be done extend a run. -/
theorem Run.performAll {check : σ → Op → Bool} {R : σ → Op → σ → Prop}
    (hR : ∀ s op t, next s op = some t → check s op = true → R s op t) {init : σ → Prop}
    {before : List Op} {s : σ} (run : Run R init before s) (ops : List Op)
    (h : allFlow next check s ops = true) :
    Run R init (before ++ ops) (performAll next s ops) := by
  induction ops generalizing before s with
  | nil =>
    rw [List.append_nil]
    exact run
  | cons op ops ih =>
    rw [allFlow, Bool.and_eq_true, Bool.and_eq_true] at h
    obtain ⟨⟨hsome, hcheck⟩, hrest⟩ := h
    obtain ⟨t, ht⟩ := Option.isSome_iff_exists.mp hsome
    have hnext : Run R init (before ++ [op]) ((next s op).getD s) := by
      rw [ht]
      exact run.next (hR s op t ht hcheck)
    rw [List.append_cons]
    exact ih hnext hrest

end Partial

/-! ### Histories of a function -/

section Along

variable {Op σ : Type*} (next : Op → σ → σ)

/-- `P` holds of every operation of the history, in the state it meets. -/
def Along (P : Op → σ → Prop) : σ → List Op → Prop
  | _, [] => True
  | s, op :: ops => P op s ∧ Along P (next op s) ops

/-- What is equivalent for each operation is equivalent for histories. -/
theorem along_congr {P Q : Op → σ → Prop} (h : ∀ op s, P op s ↔ Q op s) (s : σ)
    (ops : List Op) : Along next P s ops ↔ Along next Q s ops := by
  induction ops generalizing s with
  | nil => rfl
  | cons op ops ih => exact and_congr (h op s) (ih (next op s))

end Along

end PyLib
