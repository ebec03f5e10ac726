import Mathlib.Data.List.Forall2
import Mathlib.Logic.Relation

/-!
# Computations that write and may raise

A method of a stateful object reads and writes a state and then returns or
raises. A raise keeps what was written before it, so both outcomes carry a
state: `EStateM` without backtracking.

Two kinds of rules reason about such a computation.

* `run_bind_ok`, `run_throw_ok`, … take a run that returned apart, one
  statement at a time.
* `MovesAt R m s` says that the run of `m` from `s`, whether it returns or
  raises, relates `s` to the state after by `R`; `Moves R m` says so of every
  run. For a reflexive and transitive `R` both are closed under everything a
  method is written with, and `MovesAt.bind` also hands on what the first part
  returned.
-/

namespace PyLib

variable {ε σ α β : Type}

/-- The state a run ended in. -/
def endState : EStateM.Result ε σ α → σ
  | .ok _ s => s
  | .error _ s => s

@[simp] theorem endState_ok (a : α) (s : σ) : endState (.ok a s : EStateM.Result ε σ α) = s := rfl

@[simp] theorem endState_error (e : ε) (s : σ) :
    endState (.error e s : EStateM.Result ε σ α) = s := rfl

/-- The run returned. -/
def returned : EStateM.Result ε σ α → Bool
  | .ok _ _ => true
  | .error _ _ => false

theorem exists_ok_of_returned {r : EStateM.Result ε σ α} (h : returned r = true) :
    ∃ a, r = .ok a (endState r) := by
  cases r with
  | ok a s => exact ⟨a, rfl⟩
  | error e s => exact absurd h (by simp [returned])

/-- The run raised an error that passes a test. -/
def raises (test : ε → Bool) : EStateM.Result ε σ α → Bool
  | .ok _ _ => false
  | .error e _ => test e

theorem exists_error_of_raises {test : ε → Bool} {r : EStateM.Result ε σ α}
    (h : raises test r = true) : ∃ e, r = .error e (endState r) ∧ test e = true := by
  cases r with
  | ok a s => exact absurd h Bool.false_ne_true
  | error e s => exact ⟨e, rfl, h⟩

/-- The run returned an answer that passes a test. -/
def answers (test : α → Bool) : EStateM.Result ε σ α → Bool
  | .ok a _ => test a
  | .error _ _ => false

theorem exists_ok_of_answers {test : α → Bool} {r : EStateM.Result ε σ α}
    (h : answers test r = true) : ∃ a, r = .ok a (endState r) ∧ test a = true := by
  cases r with
  | ok a s => exact ⟨a, rfl, h⟩
  | error e s => exact absurd h Bool.false_ne_true

/-! ### Runs that return -/

section Runs

variable {s t : σ}

theorem run_bind (m : EStateM ε σ α) (f : α → EStateM ε σ β) (s : σ) :
    (m >>= f).run s = match m.run s with
      | .ok a t => (f a).run t
      | .error e t => .error e t := rfl

theorem run_bind_ok {m : EStateM ε σ α} {f : α → EStateM ε σ β} {b : β} :
    (m >>= f).run s = .ok b t ↔ ∃ a u, m.run s = .ok a u ∧ (f a).run u = .ok b t := by
  rw [run_bind]
  constructor
  · intro h
    cases hm : m.run s with
    | ok a u =>
      rw [hm] at h
      exact ⟨a, u, rfl, h⟩
    | error e u =>
      rw [hm] at h
      exact absurd h (by simp)
  · rintro ⟨a, u, hm, hf⟩
    rw [hm]
    exact hf

/-- What follows a part that returned. -/
theorem run_bind_of_ok {m : EStateM ε σ α} {f : α → EStateM ε σ β} {a : α}
    (h : m.run s = .ok a t) : (m >>= f).run s = (f a).run t := by
  rw [run_bind, h]

theorem run_map (f : α → β) (m : EStateM ε σ α) (s : σ) :
    (f <$> m).run s = match m.run s with
      | .ok a t => .ok (f a) t
      | .error e t => .error e t := rfl

theorem run_pure_ok {a b : α} : (pure a : EStateM ε σ α).run s = .ok b t ↔ a = b ∧ s = t := by
  constructor
  · intro h
    exact ⟨(EStateM.Result.ok.inj h).1, (EStateM.Result.ok.inj h).2⟩
  · rintro ⟨rfl, rfl⟩
    rfl

theorem run_throw_ok {e : ε} {b : α} : (throw e : EStateM ε σ α).run s = .ok b t ↔ False := by
  constructor
  · intro h
    have hraised : (EStateM.Result.error e s : EStateM.Result ε σ α) = .ok b t := h
    cases hraised
  · exact False.elim

theorem run_get_ok {a : σ} : (get : EStateM ε σ σ).run s = .ok a t ↔ s = a ∧ s = t := by
  constructor
  · intro h
    exact ⟨(EStateM.Result.ok.inj h).1, (EStateM.Result.ok.inj h).2⟩
  · rintro ⟨rfl, rfl⟩
    rfl

theorem run_modify_ok {f : σ → σ} {u : PUnit} :
    (modify f : EStateM ε σ PUnit).run s = .ok u t ↔ f s = t := by
  constructor
  · intro h
    exact (EStateM.Result.ok.inj h).2
  · rintro rfl
    rfl

theorem run_modifyGet_ok {f : σ → α × σ} {a : α} :
    (modifyGet f : EStateM ε σ α).run s = .ok a t ↔ (f s).1 = a ∧ (f s).2 = t := by
  constructor
  · intro h
    exact ⟨(EStateM.Result.ok.inj h).1, (EStateM.Result.ok.inj h).2⟩
  · rintro ⟨rfl, rfl⟩
    rfl

theorem run_set_ok {s' : σ} {u : PUnit} :
    (set s' : EStateM ε σ PUnit).run s = .ok u t ↔ s' = t := by
  constructor
  · intro h
    exact (EStateM.Result.ok.inj h).2
  · rintro rfl
    rfl

/-- `if c: raise e`. -/
def raiseIf (c : Prop) [Decidable c] (e : ε) : EStateM ε σ Unit :=
  if c then throw e else pure ()

theorem run_raiseIf_ok {c : Prop} [Decidable c] {e : ε} {u : Unit} :
    (raiseIf c e : EStateM ε σ Unit).run s = .ok u t ↔ ¬ c ∧ s = t := by
  unfold raiseIf
  split
  · next h => simp [h]
  · next h => simp [h]

/-- `if c: m`. -/
def onlyIf (c : Bool) (m : EStateM ε σ Unit) : EStateM ε σ Unit :=
  if c then m else pure ()

/-- A value, or a raise where there is none. -/
def orRaise (o : Option α) (e : ε) : EStateM ε σ α :=
  match o with
  | some a => pure a
  | none => throw e

theorem run_orRaise_ok {o : Option α} {e : ε} {a : α} :
    (orRaise o e : EStateM ε σ α).run s = .ok a t ↔ o = some a ∧ s = t := by
  cases o with
  | none => simp [orRaise, run_throw_ok]
  | some b => simp [orRaise]

/-- A pure computation that may raise. -/
def raising (x : Except ε α) : EStateM ε σ α :=
  match x with
  | .ok a => pure a
  | .error e => throw e

theorem run_raising_ok {x : Except ε α} {a : α} :
    (raising x : EStateM ε σ α).run s = .ok a t ↔ x = .ok a ∧ s = t := by
  cases x with
  | error e => simp [raising, run_throw_ok]
  | ok b => simp [raising]

/-- A pure computation that returned, one part after the other. -/
theorem except_bind_ok {x : Except ε α} {f : α → Except ε β} {b : β} :
    x >>= f = .ok b ↔ ∃ a, x = .ok a ∧ f a = .ok b := by
  cases x with
  | error e => simp [bind, Except.bind]
  | ok a => simp [bind, Except.bind]

/-- A pure computation whose result is wrapped in `some`. -/
theorem except_map_some_ok {x : Except ε α} {a : α} : some <$> x = .ok (some a) ↔ x = .ok a := by
  cases x with
  | error e => simp [Functor.map, Except.map]
  | ok b => simp [Functor.map, Except.map]

/-- `try: m except e: h(e)`. What `m` wrote before it raised stays. -/
def catching (m : EStateM ε σ α) (h : ε → EStateM ε σ α) : EStateM ε σ α := fun s =>
  match m.run s with
  | .ok a t => .ok a t
  | .error e t => (h e).run t

theorem run_catching (m : EStateM ε σ α) (h : ε → EStateM ε σ α) (s : σ) :
    (catching m h).run s = match m.run s with
      | .ok a t => .ok a t
      | .error e t => (h e).run t := rfl

theorem run_catching_ok {m : EStateM ε σ α} {h : ε → EStateM ε σ α} {a : α} :
    (catching m h).run s = .ok a t ↔
      m.run s = .ok a t ∨ ∃ e u, m.run s = .error e u ∧ (h e).run u = .ok a t := by
  rw [run_catching]
  cases hm : m.run s with
  | ok b u => simp
  | error e u =>
    constructor
    · intro hrun
      exact .inr ⟨e, u, rfl, hrun⟩
    · rintro (hok | ⟨e', u', herror, hrun⟩)
      · exact absurd hok (by simp)
      · obtain ⟨rfl, rfl⟩ := EStateM.Result.error.inj herror
        exact hrun

/-! ### Runs that raise -/

variable {e : ε}

theorem run_bind_error {m : EStateM ε σ α} {f : α → EStateM ε σ β} :
    (m >>= f).run s = .error e t ↔
      m.run s = .error e t ∨ ∃ a u, m.run s = .ok a u ∧ (f a).run u = .error e t := by
  rw [run_bind]
  cases hm : m.run s with
  | ok a u =>
    constructor
    · intro h
      exact .inr ⟨a, u, rfl, h⟩
    · rintro (h | ⟨a', u', hok, h⟩)
      · exact absurd h (by simp)
      · obtain ⟨rfl, rfl⟩ := EStateM.Result.ok.inj hok
        exact h
  | error e' u => simp

theorem run_throw_error {e' : ε} :
    (throw e' : EStateM ε σ α).run s = .error e t ↔ e' = e ∧ s = t := by
  constructor
  · intro h
    exact ⟨(EStateM.Result.error.inj h).1, (EStateM.Result.error.inj h).2⟩
  · rintro ⟨rfl, rfl⟩
    rfl

theorem run_pure_error {a : α} : (pure a : EStateM ε σ α).run s = .error e t ↔ False := by
  simp

theorem run_get_error : (get : EStateM ε σ σ).run s = .error e t ↔ False := by
  simp

theorem run_set_error {s' : σ} : (set s' : EStateM ε σ PUnit).run s = .error e t ↔ False := by
  simp

theorem run_modify_error {f : σ → σ} :
    (modify f : EStateM ε σ PUnit).run s = .error e t ↔ False := by
  simp

theorem run_modifyGet_error {f : σ → α × σ} :
    (modifyGet f : EStateM ε σ α).run s = .error e t ↔ False := by
  simp

theorem run_raiseIf_error {c : Prop} [Decidable c] {e' : ε} :
    (raiseIf c e' : EStateM ε σ Unit).run s = .error e t ↔ c ∧ e' = e ∧ s = t := by
  unfold raiseIf
  split
  · next h => simp [h]
  · next h => simp [h]

theorem run_orRaise_error {o : Option α} {e' : ε} :
    (orRaise o e' : EStateM ε σ α).run s = .error e t ↔ o = none ∧ e' = e ∧ s = t := by
  cases o with
  | none => simp [orRaise, run_throw_error]
  | some a => simp [orRaise]

end Runs

/-! ### Errors that are never raised -/

/-- No run raises an error of this kind. -/
def NeverRaises (bad : ε → Prop) (m : EStateM ε σ α) : Prop :=
  ∀ s e t, m.run s = .error e t → ¬ bad e

namespace NeverRaises

variable {bad : ε → Prop}

theorem pure (a : α) : NeverRaises bad (pure a : EStateM ε σ α) :=
  fun _ _ _ h => (run_pure_error.mp h).elim

theorem get : NeverRaises bad (get : EStateM ε σ σ) :=
  fun _ _ _ h => (run_get_error.mp h).elim

theorem set (s' : σ) : NeverRaises bad (set s' : EStateM ε σ PUnit) :=
  fun _ _ _ h => (run_set_error.mp h).elim

theorem modify (f : σ → σ) : NeverRaises bad (modify f : EStateM ε σ PUnit) :=
  fun _ _ _ h => (run_modify_error.mp h).elim

theorem modifyGet (f : σ → α × σ) : NeverRaises bad (modifyGet f : EStateM ε σ α) :=
  fun _ _ _ h => (run_modifyGet_error.mp h).elim

theorem throw {e : ε} (he : ¬ bad e) : NeverRaises bad (throw e : EStateM ε σ α) := by
  intro s e' t h
  obtain ⟨rfl, -⟩ := run_throw_error.mp h
  exact he

theorem raiseIf {c : Prop} [Decidable c] {e : ε} (he : ¬ bad e) :
    NeverRaises bad (raiseIf c e : EStateM ε σ Unit) := by
  intro s e' t h
  obtain ⟨-, rfl, -⟩ := run_raiseIf_error.mp h
  exact he

theorem orRaise {o : Option α} {e : ε} (he : ¬ bad e) :
    NeverRaises bad (orRaise o e : EStateM ε σ α) := by
  intro s e' t h
  obtain ⟨-, rfl, -⟩ := run_orRaise_error.mp h
  exact he

theorem bind {m : EStateM ε σ α} {f : α → EStateM ε σ β} (hm : NeverRaises bad m)
    (hf : ∀ a, NeverRaises bad (f a)) : NeverRaises bad (m >>= f) := by
  intro s e t h
  rcases run_bind_error.mp h with hraised | ⟨a, u, -, hraised⟩
  · exact hm _ _ _ hraised
  · exact hf a _ _ _ hraised

theorem ite {c : Prop} [Decidable c] {m n : EStateM ε σ α} (hm : NeverRaises bad m)
    (hn : NeverRaises bad n) : NeverRaises bad (if c then m else n) := by
  split
  · exact hm
  · exact hn

end NeverRaises

/-! ### What a computation does to the state -/

/-- The run from `s` relates `s` to the state after. -/
def MovesAt (R : σ → σ → Prop) (m : EStateM ε σ α) (s : σ) : Prop :=
  R s (endState (m.run s))

/-- Every run relates the state before to the state after. -/
def Moves (R : σ → σ → Prop) (m : EStateM ε σ α) : Prop :=
  ∀ s, MovesAt R m s

namespace MovesAt

variable {R : σ → σ → Prop} {s : σ}

theorem ok {m : EStateM ε σ α} (hm : MovesAt R m s) {t : σ} {a : α} (h : m.run s = .ok a t) :
    R s t := by
  rw [MovesAt, h] at hm
  exact hm

theorem error {m : EStateM ε σ α} (hm : MovesAt R m s) {t : σ} {e : ε}
    (h : m.run s = .error e t) : R s t := by
  rw [MovesAt, h] at hm
  exact hm

/-- One case for each outcome. -/
theorem intro {m : EStateM ε σ α} (hok : ∀ a t, m.run s = .ok a t → R s t)
    (herror : ∀ e t, m.run s = .error e t → R s t) : MovesAt R m s := by
  rw [MovesAt]
  cases hrun : m.run s with
  | ok a t => exact hok a t hrun
  | error e t => exact herror e t hrun

theorem mono {S : σ → σ → Prop} {m : EStateM ε σ α} (hm : MovesAt R m s)
    (h : ∀ t, R s t → S s t) : MovesAt S m s :=
  h _ hm

/-- One part after the other. The second starts from what the first returned. -/
theorem bind [IsTrans σ R] {m : EStateM ε σ α} {f : α → EStateM ε σ β} (hm : MovesAt R m s)
    (hf : ∀ a t, m.run s = .ok a t → MovesAt R (f a) t) : MovesAt R (m >>= f) s := by
  rw [MovesAt, run_bind]
  cases hrun : m.run s with
  | ok a t => exact IsTrans.trans _ _ _ (hm.ok hrun) (hf a t hrun)
  | error e t => exact hm.error hrun

theorem catching [IsTrans σ R] {m : EStateM ε σ α} {h : ε → EStateM ε σ α} (hm : MovesAt R m s)
    (hh : ∀ e t, m.run s = .error e t → MovesAt R (h e) t) : MovesAt R (catching m h) s := by
  rw [MovesAt, run_catching]
  cases hrun : m.run s with
  | ok a t => exact hm.ok hrun
  | error e t => exact IsTrans.trans _ _ _ (hm.error hrun) (hh e t hrun)

end MovesAt

namespace Moves

variable {R : σ → σ → Prop}

theorem ok {m : EStateM ε σ α} (hm : Moves R m) {s t : σ} {a : α} (h : m.run s = .ok a t) :
    R s t :=
  (hm s).ok h

theorem mono {S : σ → σ → Prop} {m : EStateM ε σ α} (hm : Moves R m)
    (h : ∀ s t, R s t → S s t) : Moves S m :=
  fun s => h _ _ (hm s)

section Reflexive

variable [Std.Refl R]

theorem pure (a : α) : Moves R (pure a : EStateM ε σ α) := fun s => Std.Refl.refl s

theorem throw (e : ε) : Moves R (throw e : EStateM ε σ α) := fun s => Std.Refl.refl s

theorem get : Moves R (get : EStateM ε σ σ) := fun s => Std.Refl.refl s

theorem raiseIf (c : Prop) [Decidable c] (e : ε) :
    Moves R (raiseIf c e : EStateM ε σ Unit) := by
  unfold PyLib.raiseIf
  split
  · exact throw e
  · exact pure ()

theorem orRaise (o : Option α) (e : ε) : Moves R (orRaise o e : EStateM ε σ α) := by
  cases o with
  | none => exact throw e
  | some a => exact pure a

theorem raising (x : Except ε α) : Moves R (raising x : EStateM ε σ α) := by
  cases x with
  | error e => exact throw e
  | ok a => exact pure a

end Reflexive

theorem modify {f : σ → σ} (h : ∀ s, R s (f s)) : Moves R (modify f : EStateM ε σ PUnit) :=
  fun s => h s

theorem modifyGet {f : σ → α × σ} (h : ∀ s, R s (f s).2) :
    Moves R (modifyGet f : EStateM ε σ α) :=
  fun s => h s

section Transitive

variable [IsTrans σ R]

theorem bind {m : EStateM ε σ α} {f : α → EStateM ε σ β} (hm : Moves R m)
    (hf : ∀ a, Moves R (f a)) : Moves R (m >>= f) :=
  fun s => (hm s).bind fun a t _ => hf a t

theorem map {m : EStateM ε σ α} (f : α → β) [Std.Refl R] (hm : Moves R m) : Moves R (f <$> m) :=
  bind hm fun a => pure (f a)

theorem catching {m : EStateM ε σ α} {h : ε → EStateM ε σ α} (hm : Moves R m)
    (hh : ∀ e, Moves R (h e)) : Moves R (catching m h) :=
  fun s => (hm s).catching fun e t _ => hh e t

/-- A loop over a list. -/
theorem forM [Std.Refl R] {f : α → EStateM ε σ PUnit} (hf : ∀ a, Moves R (f a)) (l : List α) :
    Moves R (l.forM f) := by
  induction l with
  | nil => exact pure _
  | cons a l ih => exact bind (hf a) fun _ => ih

end Transitive

theorem ite {c : Prop} [Decidable c] {m n : EStateM ε σ α} (hm : c → Moves R m)
    (hn : ¬ c → Moves R n) : Moves R (if c then m else n) := by
  split
  · next h => exact hm h
  · next h => exact hn h

theorem onlyIf [Std.Refl R] {c : Bool} {m : EStateM ε σ Unit} (hm : Moves R m) :
    Moves R (onlyIf c m) :=
  ite (fun _ => hm) fun _ => pure ()

end Moves

/-! ### What a computation raises -/

/-- The run from `s` raises nothing outside `E`. -/
def RaisesAt (E : ε → Prop) (m : EStateM ε σ α) (s : σ) : Prop :=
  ∀ e t, m.run s = .error e t → E e

theorem RaisesAt.forM {E : ε → Prop} {f : α → EStateM ε σ PUnit}
    (hf : ∀ a s, RaisesAt E (f a) s) (l : List α) (s : σ) : RaisesAt E (l.forM f) s := by
  induction l generalizing s with
  | nil =>
    intro e t h
    cases h
  | cons a l ih =>
    intro e t h
    rcases run_bind_error.mp h with ha | ⟨_, u, _, hrest⟩
    · exact hf a s e t ha
    · exact ih u e t hrest

theorem RaisesAt.bind {E : ε → Prop} {m : EStateM ε σ α} {f : α → EStateM ε σ β} {s : σ}
    (hm : RaisesAt E m s) (hf : ∀ a t, m.run s = .ok a t → RaisesAt E (f a) t) :
    RaisesAt E (m >>= f) s := by
  intro e t h
  rcases run_bind_error.mp h with hfirst | ⟨a, u, hok, hrest⟩
  · exact hm e t hfirst
  · exact hf a u hok e t hrest

/-- Where the run from `s` raises, it raises and leaves what `E` allows. -/
def FailsAt (E : ε → σ → Prop) (m : EStateM ε σ α) (s : σ) : Prop :=
  ∀ e t, m.run s = .error e t → E e t

/-! ### What a run ends in -/

/-- The run from `s` returns, with an answer and a state as described. -/
def EndsAt (P : α → σ → Prop) (m : EStateM ε σ α) (s : σ) : Prop :=
  ∃ a t, m.run s = .ok a t ∧ P a t

instance (P : α → σ → Prop) [∀ a t, Decidable (P a t)] (m : EStateM ε σ α) (s : σ) :
    Decidable (EndsAt P m s) :=
  match h : m.run s with
  | .ok a t => decidable_of_iff (P a t)
    ⟨fun hp => ⟨a, t, h, hp⟩, fun ⟨b, u, hrun, hp⟩ => by
      obtain ⟨rfl, rfl⟩ := EStateM.Result.ok.inj (h.symm.trans hrun)
      exact hp⟩
  | .error e t => isFalse fun ⟨b, u, hrun, _⟩ => by
      rw [h] at hrun
      exact absurd hrun (by simp)

/-- The run from `s` raises an error of the kind. -/
def BreaksAt (E : ε → Prop) (m : EStateM ε σ α) (s : σ) : Prop :=
  ∃ e t, m.run s = .error e t ∧ E e

theorem EndsAt.bind {P : α → σ → Prop} {Q : β → σ → Prop} {m : EStateM ε σ α}
    {f : α → EStateM ε σ β} {s : σ} (hm : EndsAt P m s)
    (hf : ∀ a t, m.run s = .ok a t → P a t → EndsAt Q (f a) t) : EndsAt Q (m >>= f) s := by
  obtain ⟨a, t, hrun, ha⟩ := hm
  obtain ⟨b, u, hrest, hb⟩ := hf a t hrun ha
  exact ⟨b, u, run_bind_ok.mpr ⟨a, t, hrun, hrest⟩, hb⟩

/-- What is raised at once ends the computation. -/
theorem BreaksAt.bind {E : ε → Prop} {m : EStateM ε σ α} {f : α → EStateM ε σ β} {s : σ}
    (hm : BreaksAt E m s) : BreaksAt E (m >>= f) s := by
  obtain ⟨e, t, hrun, he⟩ := hm
  exact ⟨e, t, run_bind_error.mpr (.inl hrun), he⟩

/-! ### When a run returns -/

/-- The run from `s` returns exactly under the condition `C`, with an answer
and a state as described. -/
structure ReturnsIff (C : Prop) (P : α → σ → Prop) (m : EStateM ε σ α) (s : σ) : Prop where
  post : ∀ {a t}, m.run s = .ok a t → C ∧ P a t
  returns : C → ∃ a t, m.run s = .ok a t

namespace ReturnsIff

variable {C D : Prop} {P : α → σ → Prop} {Q : β → σ → Prop} {m : EStateM ε σ α}
  {f : α → EStateM ε σ β} {s : σ}

/-- One part after the other. The second condition is known beforehand. -/
theorem bind (hm : ReturnsIff C P m s) (hf : ∀ a t, P a t → ReturnsIff D Q (f a) t) :
    ReturnsIff (C ∧ D) Q (m >>= f) s where
  post := by
    intro b u hrun
    obtain ⟨a, t, hfirst, hrest⟩ := run_bind_ok.mp hrun
    obtain ⟨hc, ha⟩ := hm.post hfirst
    obtain ⟨hd, hb⟩ := (hf a t ha).post hrest
    exact ⟨⟨hc, hd⟩, hb⟩
  returns := by
    rintro ⟨hc, hd⟩
    obtain ⟨a, t, hfirst⟩ := hm.returns hc
    obtain ⟨b, u, hrest⟩ := (hf a t (hm.post hfirst).2).returns hd
    exact ⟨b, u, run_bind_ok.mpr ⟨a, t, hfirst, hrest⟩⟩

/-- The same condition and a weaker description. -/
theorem imp {P' : α → σ → Prop} (hm : ReturnsIff C P m s) (hcond : C ↔ D)
    (h : ∀ a t, P a t → P' a t) : ReturnsIff D P' m s where
  post hrun := ⟨hcond.mp (hm.post hrun).1, h _ _ (hm.post hrun).2⟩
  returns hd := hm.returns (hcond.mpr hd)

theorem pure {a : α} (h : P a s) : ReturnsIff True P (pure a : EStateM ε σ α) s where
  post := by
    intro b t hrun
    obtain ⟨rfl, rfl⟩ := run_pure_ok.mp hrun
    exact ⟨trivial, h⟩
  returns _ := ⟨a, s, rfl⟩

theorem raiseIf (c : Prop) [Decidable c] (e : ε) :
    ReturnsIff (¬ c) (fun _ t => t = s) (raiseIf c e : EStateM ε σ Unit) s where
  post := by
    intro u t hrun
    obtain ⟨hc, rfl⟩ := run_raiseIf_ok.mp hrun
    exact ⟨hc, rfl⟩
  returns hc := ⟨(), s, run_raiseIf_ok.mpr ⟨hc, rfl⟩⟩

end ReturnsIff

/-! ### Computations that do not raise -/

/-- Every run returns. -/
def Returns (m : EStateM ε σ α) : Prop :=
  ∀ s, ∃ a t, m.run s = .ok a t

namespace Returns

theorem raisesAt {E : ε → Prop} {m : EStateM ε σ α} (hm : Returns m) (s : σ) : RaisesAt E m s := by
  intro e t h
  obtain ⟨a, u, hok⟩ := hm s
  rw [hok] at h
  exact absurd h (by simp)

/-- A computation that returns ends where it moves to. -/
theorem endsAt {R : σ → σ → Prop} {m : EStateM ε σ α} (hm : Returns m) (hmoves : Moves R m)
    (s : σ) : EndsAt (fun _ t => R s t) m s := by
  obtain ⟨a, t, hrun⟩ := hm s
  exact ⟨a, t, hrun, hmoves.ok hrun⟩

theorem pure (a : α) : Returns (pure a : EStateM ε σ α) := fun s => ⟨a, s, rfl⟩

theorem modify (f : σ → σ) : Returns (modify f : EStateM ε σ PUnit) := fun s => ⟨⟨⟩, f s, rfl⟩

theorem modifyGet (f : σ → α × σ) : Returns (modifyGet f : EStateM ε σ α) :=
  fun s => ⟨(f s).1, (f s).2, rfl⟩

theorem bind {m : EStateM ε σ α} {f : α → EStateM ε σ β} (hm : Returns m)
    (hf : ∀ a, Returns (f a)) : Returns (m >>= f) := by
  intro s
  obtain ⟨a, t, hrun⟩ := hm s
  obtain ⟨b, u, hrest⟩ := hf a t
  exact ⟨b, u, run_bind_ok.mpr ⟨a, t, hrun, hrest⟩⟩

theorem onlyIf {c : Bool} {m : EStateM ε σ Unit} (hm : Returns m) : Returns (onlyIf c m) := by
  unfold PyLib.onlyIf
  split
  · exact hm
  · exact pure ()

/-- A loop over a list. -/
theorem forM {f : α → EStateM ε σ PUnit} (hf : ∀ a, Returns (f a)) (l : List α) :
    Returns (l.forM f) := by
  induction l with
  | nil => exact pure _
  | cons a l ih => exact bind (hf a) fun _ => ih

end Returns

/-! ### Lists of values that may be missing -/

section Lists

variable {f : α → Except ε β} {l : List α}

theorem mapM_eq_ok {g : α → β} (h : ∀ a ∈ l, f a = .ok (g a)) : l.mapM f = .ok (l.map g) := by
  induction l with
  | nil => rfl
  | cons a l ih =>
    rw [List.mapM_cons, h a (List.mem_cons_self ..),
      ih fun b hb => h b (List.mem_cons_of_mem _ hb)]
    rfl

theorem exists_ok_of_mapM_eq_ok {bs : List β} (h : l.mapM f = .ok bs) :
    ∀ a ∈ l, ∃ b, f a = .ok b := by
  induction l generalizing bs with
  | nil => exact fun a ha => absurd ha List.not_mem_nil
  | cons a l ih =>
    rw [List.mapM_cons] at h
    intro c hc
    cases hfirst : f a with
    | error e =>
      rw [hfirst] at h
      cases h
    | ok b =>
      obtain rfl | hc := List.mem_cons.mp hc
      · exact ⟨b, hfirst⟩
      · cases hrest : l.mapM f with
        | error e =>
          rw [hfirst, hrest] at h
          cases h
        | ok rest => exact ih hrest c hc

/-- Where every item has a value, so has the list, item by item. -/
theorem exists_mapM_eq_ok (h : ∀ a ∈ l, ∃ b, f a = .ok b) : ∃ bs, l.mapM f = .ok bs := by
  induction l with
  | nil => exact ⟨[], rfl⟩
  | cons a l ih =>
    obtain ⟨b, hfirst⟩ := h a (List.mem_cons_self ..)
    obtain ⟨bs, hrest⟩ := ih fun c hc => h c (List.mem_cons_of_mem _ hc)
    refine ⟨b :: bs, ?_⟩
    rw [List.mapM_cons, hfirst, hrest]
    rfl

theorem forall₂_of_mapM_eq_ok {bs : List β} (h : l.mapM f = .ok bs) :
    List.Forall₂ (fun a b => f a = .ok b) l bs := by
  induction l generalizing bs with
  | nil =>
    rw [← Except.ok.inj h]
    exact .nil
  | cons a l ih =>
    rw [List.mapM_cons] at h
    cases hfirst : f a with
    | error e =>
      rw [hfirst] at h
      cases h
    | ok b =>
      cases hrest : l.mapM f with
      | error e =>
        rw [hfirst, hrest] at h
        cases h
      | ok rest =>
        rw [hfirst, hrest] at h
        rw [← Except.ok.inj h]
        exact .cons hfirst (ih hrest)

end Lists

end PyLib
