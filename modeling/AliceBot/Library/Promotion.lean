import AliceBot.Library.PointerGraph
import Mathlib.Data.List.Basic
import Mathlib.Data.List.Chain
import Mathlib.Data.List.Nodup
import Mathlib.Data.List.Perm.Subperm

/-!
# Moving replacements ahead

A list is gone through once, and each element may point to another one that
replaces it. The element that comes next is passed, unless its replacement is
further down and was not moved before: then the replacement is moved directly in
front of it, and comes next itself.

* `Promoting` holds of every walk: the elements are permuted, those that were not
  moved keep their order, and what was moved is the replacement of something.
* `Ahead` holds where the pointers are acyclic: the elements passed have their
  replacements in front of them. What was moved and not yet passed is a chain at the
  front of what is left, each the replacement of the one behind it. A pointer from
  the front into the chain would close a cycle.
-/

namespace PyLib

variable {α κ : Type*}

/-- The elements passed, those left, and the keys of the elements moved. -/
structure Promotion (α κ : Type*) where
  done : List α
  pending : List α
  moved : List κ

namespace Promotion

variable (key : α → κ) (next : κ → Option κ)

/-- One round of the walk. -/
inductive Step : Promotion α κ → Promotion α κ → Prop
  | advance (done : List α) (a : α) (rest : List α) (moved : List κ)
      (h : ∀ b ∈ rest, next (key a) = some (key b) → key b ∈ moved) :
      Step ⟨done, a :: rest, moved⟩ ⟨done ++ [a], rest, moved⟩
  | promote (done : List α) (a : α) (before : List α) (b : α) (after : List α) (moved : List κ)
      (h : next (key a) = some (key b)) (hnew : key b ∉ moved) :
      Step ⟨done, a :: (before ++ b :: after), moved⟩
        ⟨done, b :: a :: (before ++ after), key b :: moved⟩

/-- What holds after any number of rounds. -/
structure Promoting (input : List α) (st : Promotion α κ) : Prop where
  perm : (st.done ++ st.pending).Perm input
  unmoved : ∀ keep : α → Bool, (∀ a, key a ∈ st.moved → keep a = false) →
    (st.done ++ st.pending).filter keep = input.filter keep
  nodup : st.moved.Nodup
  replaces : ∀ k ∈ st.moved, k ∈ input.map key ∧ ∃ a ∈ input, next (key a) = some k

variable {key next} {input : List α} {st st' : Promotion α κ}

theorem Promoting.initial : Promoting key next input ⟨[], input, []⟩ :=
  ⟨List.Perm.refl _, fun _ _ => rfl, List.nodup_nil,
    fun _ hmem => absurd hmem List.not_mem_nil⟩

/-- One move keeps a permutation of the input in which nothing moves twice, and what was
not moved keeps its order. -/
theorem Promoting.step (h : Promoting key next input st) (hstep : Step key next st st') :
    Promoting key next input st' := by
  cases hstep with
  | advance done a rest moved _ =>
    have hsame : done ++ [a] ++ rest = done ++ a :: rest := by
      rw [List.append_assoc, List.singleton_append]
    refine ⟨?_, fun keep hkeep => ?_, h.nodup, h.replaces⟩
    · exact (congrArg (List.Perm · input) hsame).mpr h.perm
    · exact (congrArg (List.filter keep) hsame).trans (h.unmoved keep hkeep)
  | promote done a before b after moved hnext hnew =>
    have hperm : (done ++ b :: a :: (before ++ after)).Perm
        (done ++ a :: (before ++ b :: after)) := by
      refine List.Perm.append_left done ((List.Perm.swap a b _).trans ?_)
      exact List.Perm.cons a List.perm_middle.symm
    have ha : a ∈ input := h.perm.mem_iff.mp (by simp)
    have hb : b ∈ input := h.perm.mem_iff.mp (by simp)
    refine ⟨hperm.trans h.perm, fun keep hkeep => ?_, List.nodup_cons.mpr ⟨hnew, h.nodup⟩, ?_⟩
    · rw [← h.unmoved keep fun c hc => hkeep c (List.mem_cons_of_mem _ hc)]
      -- the element moved is one of those left out
      have hdropped : keep b = false := hkeep b (List.mem_cons_self ..)
      simp [List.filter_cons, hdropped]
    · intro k hk
      obtain rfl | hk := List.mem_cons.mp hk
      · exact ⟨List.mem_map_of_mem hb, a, ha, hnext⟩
      · exact h.replaces k hk

theorem Promoting.run (h : Promoting key next input st)
    (hrun : Relation.ReflTransGen (Step key next) st st') : Promoting key next input st' := by
  induction hrun with
  | refl => exact h
  | tail _ hstep ih => exact ih.step hstep

/-- A bound on the rounds that are left. -/
def roundsLeft (input : List α) (st : Promotion α κ) : Nat :=
  st.pending.length + (input.length - st.moved.length)

/-- What is moved once is not moved again, so the walk ends. -/
theorem Promoting.roundsLeft_lt (h : Promoting key next input st)
    (hstep : Step key next st st') : roundsLeft input st' < roundsLeft input st := by
  have hafter := h.step hstep
  have hmoved : st'.moved.length ≤ input.length := by
    have hsubset : st'.moved ⊆ input.map key := fun k hk => (hafter.replaces k hk).1
    have hle := (hafter.nodup.subperm hsubset).length_le
    rwa [List.length_map] at hle
  cases hstep with
  | advance done a rest moved _ =>
    simp only [roundsLeft, List.length_cons]
    omega
  | promote done a before b after moved _ _ =>
    simp only [roundsLeft, List.length_cons, List.length_append] at hmoved ⊢
    omega

/-! ### Acyclic pointers -/

/-- Each element replaces the one behind it. -/
def ReplacesNext (key : α → κ) (next : κ → Option κ) (a b : α) : Prop :=
  next (key b) = some (key a)

/-- Everything in such a chain leads to its front. -/
theorem follows_of_chain {a b : α} {l : List α}
    (h : (a :: l).IsChain (ReplacesNext key next)) (hb : b ∈ l) :
    Relation.TransGen (Follows next) (key b) (key a) := by
  induction l generalizing a with
  | nil => exact absurd hb List.not_mem_nil
  | cons c l ih =>
    obtain ⟨hfirst, hrest⟩ := List.isChain_cons_cons.mp h
    obtain rfl | hb := List.mem_cons.mp hb
    · exact .single hfirst
    · exact .tail (ih hrest hb) hfirst

variable (key next) in
/-- What holds after any number of rounds where the pointers are acyclic. -/
structure Ahead (input : List α) (st : Promotion α κ) : Prop where
  closed : ∀ a ∈ st.done, ∀ b ∈ input, next (key a) = some (key b) → b ∈ st.done
  ordered : st.done.Pairwise fun a b => next (key a) ≠ some (key b)
  chain : ∃ chain rest, st.pending = chain ++ rest ∧ chain.IsChain (ReplacesNext key next) ∧
    ∀ a ∈ rest, key a ∉ st.moved

theorem Ahead.initial : Ahead key next input ⟨[], input, []⟩ :=
  ⟨fun _ hmem => absurd hmem List.not_mem_nil, List.Pairwise.nil,
    [], input, rfl, List.isChain_nil, fun _ _ => List.not_mem_nil⟩

/-- The element that comes next is the front of the chain. -/
theorem Ahead.chain_cons {done rest : List α} {a : α} {moved : List κ}
    (h : Ahead key next input ⟨done, a :: rest, moved⟩) :
    ∃ chain others, rest = chain ++ others ∧ (a :: chain).IsChain (ReplacesNext key next) ∧
      ∀ b ∈ others, key b ∉ moved := by
  obtain ⟨chain, others, hpending, hchain, hothers⟩ := h.chain
  cases chain with
  | nil =>
    have hrest : a :: rest = others := hpending
    refine ⟨[], rest, rfl, List.isChain_singleton a, fun b hb => hothers b ?_⟩
    exact hrest ▸ List.mem_cons_of_mem a hb
  | cons c chain =>
    obtain ⟨rfl, hrest⟩ := List.cons.inj hpending
    exact ⟨chain, others, hrest, hchain, hothers⟩

/-- One move keeps the order of what is done, and what was moved last as a chain in
front of what is pending. In a cycle of pointers that chain would come back to itself,
so there must be none. -/
theorem Ahead.step (hacyclic : Acyclic next) (hkeys : (input.map key).Nodup)
    (hpromoting : Promoting key next input st) (h : Ahead key next input st)
    (hstep : Step key next st st') : Ahead key next input st' := by
  have hdistinct {a b : α} (ha : a ∈ input) (hb : b ∈ input) (hsame : key a = key b) : a = b :=
    List.inj_on_of_nodup_map hkeys ha hb hsame
  have hnodup : (st.done ++ st.pending).Nodup :=
    hpromoting.perm.nodup_iff.mpr hkeys.of_map
  have hinput {a : α} : a ∈ st.done ++ st.pending ↔ a ∈ input := hpromoting.perm.mem_iff
  cases hstep with
  | advance done a rest moved hpassed =>
    obtain ⟨chain, others, rfl, hchain, hothers⟩ := h.chain_cons
    have ha : a ∈ input := hinput.mp (by simp)
    have hleft : a ∉ done := fun hmem => by
      rw [List.nodup_append] at hnodup
      exact hnodup.2.2 a hmem a (List.mem_cons_self ..) rfl
    -- the replacement was passed: in the chain it would close a cycle
    have hreplaced : ∀ b ∈ input, next (key a) = some (key b) → b ∈ done := by
      intro b hb hnext
      obtain hdone | hpending := List.mem_append.mp (hinput.mpr hb)
      · exact hdone
      obtain rfl | hrest := List.mem_cons.mp hpending
      · exact absurd (.single hnext) (hacyclic _)
      obtain hin | hin := List.mem_append.mp hrest
      · exact absurd (.head hnext (follows_of_chain hchain hin)) (hacyclic _)
      · exact absurd (hpassed b hrest hnext) (hothers b hin)
    refine ⟨?_, ?_, chain, others, rfl, hchain.tail, hothers⟩
    · intro c hc b hb hnext
      refine List.mem_append_left _ ?_
      obtain hc | hc := List.mem_append.mp hc
      · exact h.closed c hc b hb hnext
      · rw [List.mem_singleton.mp hc] at hnext
        exact hreplaced b hb hnext
    · refine List.pairwise_append.mpr ⟨h.ordered, List.pairwise_singleton _ _, ?_⟩
      intro c hc b hb hnext
      rw [List.mem_singleton.mp hb] at hnext
      exact hleft (h.closed c hc a ha hnext)
  | promote done a before b after moved hnext hnew =>
    obtain ⟨chain, others, hrest, hchain, hothers⟩ := h.chain_cons
    have hb : b ∈ input := hinput.mp (by simp)
    have houtside : b ∉ chain := fun hmem =>
      absurd (.head hnext (follows_of_chain hchain hmem)) (hacyclic _)
    -- so the replacement stands behind the chain
    obtain ⟨between, rfl, rfl⟩ : ∃ between, before = chain ++ between ∧
        others = between ++ b :: after := by
      obtain ⟨between, hchainEq, htail⟩ | ⟨between, hbefore, hothersEq⟩ :=
        List.append_eq_append_iff.mp hrest
      · cases between with
        | nil => exact ⟨[], by simpa using hchainEq.symm, htail.symm⟩
        | cons c between =>
          obtain ⟨rfl, -⟩ := List.cons.inj htail
          exact absurd (by simp [hchainEq]) houtside
      · exact ⟨between, hbefore, hothersEq⟩
    refine ⟨h.closed, h.ordered, b :: a :: chain, between ++ after, ?_, ?_, ?_⟩
    · simp
    · exact List.isChain_cons_cons.mpr ⟨hnext, hchain⟩
    · intro c hc hmoved
      have hother : c ∈ between ++ b :: after := by
        obtain hc | hc := List.mem_append.mp hc
        · exact List.mem_append_left _ hc
        · exact List.mem_append_right _ (List.mem_cons_of_mem _ hc)
      obtain hsame | hmoved := List.mem_cons.mp hmoved
      · -- the element moved is in the list once
        have hc' : c ∈ input := hinput.mp (by simp [hother])
        rw [hdistinct hc' hb hsame] at hc
        have hrestNodup : (chain ++ between ++ b :: after).Nodup :=
          (List.nodup_cons.mp hnodup.of_append_right).2
        have honce : b ∉ chain ++ between ++ after :=
          (List.nodup_cons.mp (List.nodup_middle.mp hrestNodup)).1
        rw [List.append_assoc] at honce
        exact honce (List.mem_append_right _ hc)
      · exact hothers c hother hmoved

theorem Ahead.run (hacyclic : Acyclic next) (hkeys : (input.map key).Nodup)
    (hpromoting : Promoting key next input st) (h : Ahead key next input st)
    (hrun : Relation.ReflTransGen (Step key next) st st') : Ahead key next input st' := by
  induction hrun with
  | refl => exact h
  | tail hrun hstep ih => exact ih.step hacyclic hkeys (hpromoting.run hrun) hstep

end Promotion

end PyLib
