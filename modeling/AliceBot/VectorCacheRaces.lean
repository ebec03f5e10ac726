import AliceBot.VectorCache
import Mathlib.Logic.Function.Basic
import Mathlib.Logic.Relation

/-!
# Queries and writers beside each other

Any number of connections read and write one database file, any number of cache entries stand
over it: one for each process, and those that were dropped from the registry while a query
still held them. One connection at a time has a transaction open; a query reads what its own
transaction has written, and otherwise what is committed, statement by statement.

An entry under the current stamp never holds what the latest version does not
(`CacheWorld.Coherent.grows_latest`), and never contradicts what is committed
(`CacheWorld.Coherent.agrees_committed`). A transaction that lets a query put its own new
vectors in an entry must not be rolled back: the stamp stays, and the vectors are in the entry
but nowhere else. `CacheStep.rollsBack` asks for that; `OpenTransaction.lent` says whether it
happened.
-/

namespace AliceBot

open PyLib

variable {κ ν : Type}

/-! ### The world -/

/-- A query and the phase it is in; `disturbed` once something was committed since it began. -/
structure QueryInProgress (κ ν : Type) where
  query : VectorQuery κ
  phase : QueryPhase ν
  disturbed : Bool

/-- An entry, and the query that holds its lock. -/
structure CacheSlot (κ ν : Type) where
  entry : VectorCacheEntry ν
  running : Option (QueryInProgress κ ν)

/-- The open write transaction; `lent` once an entry holds under the committed stamp what only
the transaction has stored. -/
structure OpenTransaction (κ ν : Type) where
  connection : Nat
  pending : VectorDb κ ν
  lent : Bool

/-- `issued` are the tokens that were ever in a version of the file. -/
structure CacheWorld (κ ν : Type) where
  committed : VectorDb κ ν
  writer : Option (OpenTransaction κ ν)
  caches : Nat → CacheSlot κ ν
  issued : List String

namespace CacheWorld

/-- What a statement of the connection reads. -/
def view (w : CacheWorld κ ν) (connection : Nat) : VectorDb κ ν :=
  ((w.writer.filter fun t => t.connection = connection).map (·.pending)).getD w.committed

/-- What is committed if the open transaction is. -/
def latest (w : CacheWorld κ ν) : VectorDb κ ν := (w.writer.map (·.pending)).getD w.committed

/-- No query of the connection is in progress. -/
def Idle (w : CacheWorld κ ν) (connection : Nat) : Prop :=
  ∀ slot running, (w.caches slot).running = some running → running.query.connection ≠ connection

/-- One cache is another. -/
def setCache (w : CacheWorld κ ν) (slot : Nat) (cache : CacheSlot κ ν) : CacheWorld κ ν :=
  { w with caches := Function.update w.caches slot cache }

end CacheWorld

/-- Something was committed while the query was in progress. -/
def CacheSlot.disturb (slot : CacheSlot κ ν) : CacheSlot κ ν :=
  { slot with running := slot.running.map fun running => { running with disturbed := true } }

section Steps

variable [DecidableEq ν] (env : EmbeddingEnv κ ν)

/-- Under the committed stamp the entry holds what is not committed. -/
def VectorCacheEntry.exceeds (entry : VectorCacheEntry ν) (committed : VectorDb κ ν) : Bool :=
  decide (entry.token = committed.token) &&
    entry.rowIndex.any fun row => decide (entry.vectorAt row.1 ≠ committed.find row.1)

/-- The transaction after a statement of a query that left the entry. -/
def OpenTransaction.serve (t : OpenTransaction κ ν) (connection : Nat)
    (entry : VectorCacheEntry ν) (committed : VectorDb κ ν) : OpenTransaction κ ν :=
  { t with lent := t.lent || decide (t.connection = connection) && entry.exceeds committed }

/-- A statement of a query on the connection left the entry. -/
def CacheWorld.serve (w : CacheWorld κ ν) (connection : Nat) (entry : VectorCacheEntry ν) :
    CacheWorld κ ν :=
  { w with writer := w.writer.map fun t => t.serve connection entry w.committed }

/-- The world after a statement of the query in the slot. -/
def CacheWorld.advanced (w : CacheWorld κ ν) (slot : Nat) (running : QueryInProgress κ ν)
    (entry : VectorCacheEntry ν) (phase : QueryPhase ν) : CacheWorld κ ν :=
  (w.serve running.query.connection entry).setCache slot
    ⟨entry, some { running with phase := phase }⟩

/-- One step of a writer, or one statement of a query. A query ends with its ranking, or
anywhere with an error or an entry that is dropped. -/
inductive CacheStep (w : CacheWorld κ ν) : CacheWorld κ ν → Prop where
  | begins {connection : Nat} (hwriter : w.writer = none) (hidle : w.Idle connection) :
      CacheStep w { w with writer := some ⟨connection, w.committed, false⟩ }
  | writes {t : OpenTransaction κ ν} {fresh : String} {updated : VectorDb κ ν}
      (hwriter : w.writer = some t) (hidle : w.Idle t.connection) (hfresh : fresh ∉ w.issued)
      (hwrite : VectorWrite env fresh t.pending updated) :
      CacheStep w
        { w with writer := some { t with pending := updated }, issued := fresh :: w.issued }
  | commits {t : OpenTransaction κ ν} (hwriter : w.writer = some t) (hidle : w.Idle t.connection) :
      CacheStep w
        { w with
          committed := t.pending
          writer := none
          caches := fun slot => (w.caches slot).disturb }
  | rollsBack {t : OpenTransaction κ ν} (hwriter : w.writer = some t)
      (hidle : w.Idle t.connection) (hlent : t.lent = false) :
      CacheStep w { w with writer := none }
  | asks {slot : Nat} {query : VectorQuery κ} (hfree : (w.caches slot).running = none)
      (hidle : w.Idle query.connection)
      (htoken : (w.view query.connection).token = some query.token) :
      CacheStep w (w.setCache slot
        { (w.caches slot) with running := some ⟨query, .validating, false⟩ })
  | advances {slot : Nat} {running : QueryInProgress κ ν} {entry : VectorCacheEntry ν}
      {phase : QueryPhase ν} (hrunning : (w.caches slot).running = some running)
      (hnext : running.query.advance env (w.view running.query.connection) (w.caches slot).entry
        running.phase = some (entry, phase)) :
      CacheStep w (w.advanced slot running entry phase)
  | ends (slot : Nat) :
      CacheStep w (w.setCache slot { (w.caches slot) with running := none })

end Steps

/-- No entry has been filled, no transaction is open. -/
structure CacheWorld.Cold (w : CacheWorld κ ν) : Prop where
  writer : w.writer = none
  caches : ∀ slot, w.caches slot = ⟨.empty, none⟩
  issued : ∀ t, w.committed.token = some t → t ∈ w.issued

/-! ### What holds in every state -/

/-- The entries, what is committed and what is not. -/
structure CacheWorld.Coherent (w : CacheWorld κ ν) : Prop where
  issued_committed : ∀ t, w.committed.token = some t → t ∈ w.issued
  issued_latest : ∀ t, w.latest.token = some t → t ∈ w.issued
  issued_entry : ∀ slot t, (w.caches slot).entry.token = some t → t ∈ w.issued
  committed_grows : w.committed.vectors.Grows w.latest.vectors
  grows_latest : ∀ slot, (w.caches slot).entry.vectors.Grows w.latest.vectors
  agrees_committed : ∀ slot, (w.caches slot).entry.vectors.Agrees w.committed.vectors
  grows_committed : ∀ t, w.writer = some t → t.lent = false →
    ∀ slot, (w.caches slot).entry.vectors.Grows w.committed.vectors

/-- A query in progress, and the database it reads. -/
structure QueryInProgress.Sound (env : EmbeddingEnv κ ν) (w : CacheWorld κ ν)
    (entry : VectorCacheEntry ν) (running : QueryInProgress κ ν) : Prop where
  issued : running.query.token ∈ w.issued
  holds : running.query.Holds (w.view running.query.connection) entry running.phase
  /-- The stamp of the query is not the stamp of a transaction it does not see. -/
  apart : w.latest.token = some running.query.token →
    (w.view running.query.connection).token = some running.query.token
  own : ∀ t, w.writer = some t → t.connection = running.query.connection →
    running.disturbed = false
  steady : running.disturbed = false →
    (w.view running.query.connection).token = some running.query.token ∧
      running.query.Covers env (w.view running.query.connection) entry running.phase

/-- A query sees no difference between worlds of the same versions. -/
theorem QueryInProgress.Sound.congr {env : EmbeddingEnv κ ν} {w w' : CacheWorld κ ν}
    {entry : VectorCacheEntry ν} {running : QueryInProgress κ ν}
    (h : running.Sound env w entry) (hissued : w'.issued = w.issued)
    (hlatest : w'.latest = w.latest) (hview : ∀ c, w'.view c = w.view c)
    (hwriter : ∀ t', w'.writer = some t' → ∃ t, w.writer = some t ∧ t'.connection = t.connection) :
    running.Sound env w' entry := by
  refine ⟨hissued ▸ h.issued, hview _ ▸ h.holds, ?_, fun t' ht' hown => ?_, hview _ ▸ h.steady⟩
  · rw [hlatest, hview]
    exact h.apart
  · obtain ⟨t, ht, hsame⟩ := hwriter t' ht'
    exact h.own t ht (hsame.symm.trans hown)

/-- Entries and queries. -/
structure CacheWorld.Valid (env : EmbeddingEnv κ ν) (w : CacheWorld κ ν) : Prop
    extends w.Coherent where
  queries : ∀ slot running, (w.caches slot).running = some running →
    running.Sound env w (w.caches slot).entry

namespace CacheWorld

variable {env : EmbeddingEnv κ ν} {w : CacheWorld κ ν}

theorem view_of_writer {t : OpenTransaction κ ν} (h : w.writer = some t) :
    w.view t.connection = w.latest := by
  rw [view, latest, h, Option.filter_some, if_pos (decide_eq_true rfl)]

theorem view_of_not_writer {connection : Nat}
    (h : ∀ t, w.writer = some t → t.connection ≠ connection) : w.view connection = w.committed := by
  rw [view]
  cases hwriter : w.writer with
  | none => rfl
  | some t => rw [Option.filter_some, if_neg (by simpa using h t hwriter)]; rfl

/-- A statement reads the latest version or the committed one. -/
theorem view_cases (w : CacheWorld κ ν) (connection : Nat) :
    (∃ t, w.writer = some t ∧ t.connection = connection ∧ w.view connection = w.latest) ∨
      (∀ t, w.writer = some t → t.connection ≠ connection) ∧ w.view connection = w.committed := by
  by_cases h : ∃ t, w.writer = some t ∧ t.connection = connection
  · obtain ⟨t, ht, rfl⟩ := h
    exact .inl ⟨t, ht, rfl, view_of_writer ht⟩
  · have hnot : ∀ t, w.writer = some t → t.connection ≠ connection :=
      fun t ht hconnection => h ⟨t, ht, hconnection⟩
    exact .inr ⟨hnot, view_of_not_writer hnot⟩

theorem latest_of_none (h : w.writer = none) : w.latest = w.committed := by
  rw [latest, h]
  rfl

theorem latest_of_some {t : OpenTransaction κ ν} (h : w.writer = some t) :
    w.latest = t.pending := by
  rw [latest, h]
  rfl

theorem Coherent.view_grows (h : w.Coherent) (connection : Nat) :
    (w.view connection).vectors.Grows w.latest.vectors := by
  rcases w.view_cases connection with ⟨_, _, _, hview⟩ | ⟨_, hview⟩
  · rw [hview]
    exact .refl _
  · rw [hview]
    exact h.committed_grows

theorem Coherent.view_agrees (h : w.Coherent) (connection : Nat) :
    (w.view connection).vectors.Agrees w.committed.vectors := by
  rcases w.view_cases connection with ⟨_, _, _, hview⟩ | ⟨_, hview⟩
  · rw [hview]
    exact h.committed_grows.agrees.symm
  · rw [hview]
    exact .refl _

/-- A world without cached entries and running queries is valid. -/
theorem Cold.valid (h : w.Cold) : w.Valid env := by
  have hlatest := latest_of_none h.writer
  have hempty : ∀ slot, (w.caches slot).entry.vectors.stamp = none := by
    intro slot
    rw [h.caches slot]
    rfl
  exact
    { issued_committed := h.issued
      issued_latest := hlatest ▸ h.issued
      issued_entry := fun slot t ht => by
        have hnone := hempty slot
        rw [VectorCacheEntry.vectors_stamp, ht] at hnone
        cases hnone
      committed_grows := hlatest ▸ .refl _
      grows_latest := fun slot => Stamped.grows_of_stamp_none (hempty slot) _
      agrees_committed := fun slot => (Stamped.grows_of_stamp_none (hempty slot) _).agrees
      grows_committed := fun _ _ _ slot => Stamped.grows_of_stamp_none (hempty slot) _
      queries := fun slot running hrunning => by
        rw [h.caches slot] at hrunning
        cases hrunning }

end CacheWorld

/-! ### Steps of a writer -/

theorem CacheSlot.disturb_running {slot : CacheSlot κ ν} {running : QueryInProgress κ ν}
    (h : slot.disturb.running = some running) :
    ∃ before, slot.running = some before ∧ running = { before with disturbed := true } := by
  obtain ⟨before, hbefore, rfl⟩ := Option.map_eq_some_iff.mp h
  exact ⟨before, hbefore, rfl⟩

namespace CacheWorld

variable {env : EmbeddingEnv κ ν} {w : CacheWorld κ ν}

/-- A transaction begins with what is committed. -/
theorem Valid.begins {connection : Nat} (h : w.Valid env) (hwriter : w.writer = none)
    (hidle : w.Idle connection) :
    CacheWorld.Valid env { w with writer := some ⟨connection, w.committed, false⟩ } := by
  have hlatest : w.latest = w.committed := latest_of_none hwriter
  -- before and after, every connection sees what is committed
  have hview : ∀ c, w.view c = w.committed := fun c =>
    view_of_not_writer fun t ht => by
      rw [hwriter] at ht
      cases ht
  have hview' : ∀ c, CacheWorld.view { w with writer := some ⟨connection, w.committed, false⟩ } c =
      w.committed := by
    intro c
    rcases CacheWorld.view_cases _ c with ⟨_, _, _, heq⟩ | ⟨_, heq⟩ <;> exact heq
  exact
    { issued_committed := h.issued_committed
      issued_latest := h.issued_committed
      issued_entry := h.issued_entry
      committed_grows := .refl _
      grows_latest := fun slot => hlatest ▸ h.grows_latest slot
      agrees_committed := h.agrees_committed
      grows_committed := fun _ _ _ slot => hlatest ▸ h.grows_latest slot
      queries := fun slot running hrunning => by
        have hsound := h.queries slot running hrunning
        refine ⟨hsound.issued, ?_, ?_, fun t ht hown => ?_, ?_⟩
        · rw [hview', ← hview running.query.connection]
          exact hsound.holds
        · rw [hview']
          exact fun hstamp => hstamp
        · obtain rfl := Option.some.inj ht
          exact absurd hown.symm (hidle slot running hrunning)
        · rw [hview', ← hview running.query.connection]
          exact hsound.steady }

/-- A write of the transaction is seen by no query in progress, and its stamp by no entry. -/
theorem Valid.writes {t : OpenTransaction κ ν} {fresh : String} {updated : VectorDb κ ν}
    (h : w.Valid env) (hwriter : w.writer = some t) (hidle : w.Idle t.connection)
    (hfresh : fresh ∉ w.issued) (hwrite : t.pending.vectors.Written fresh updated.vectors) :
    CacheWorld.Valid env
      { w with writer := some { t with pending := updated }, issued := fresh :: w.issued } := by
  have hlatest : w.latest = t.pending := latest_of_some hwriter
  -- the stamp is new, so no stamp that anyone has seen is it
  have hunseen : ∀ {s : Option String}, (∀ k, s = some k → k ∈ w.issued) → s ≠ some fresh :=
    fun hissued heq => hfresh (hissued fresh heq)
  -- a write keeps the stamp or takes the new one
  have hstamp : ∀ k, updated.token = some k → w.latest.token = some k ∨ k = fresh := by
    intro k hk
    rcases hwrite with ⟨hsame, -⟩ | hbumps
    · rw [VectorDb.vectors_stamp, VectorDb.vectors_stamp] at hsame
      exact .inl (by rw [hlatest, ← hsame, hk])
    · exact .inr (hbumps k hk)
  exact
    { issued_committed := fun k hk => List.mem_cons_of_mem _ (h.issued_committed k hk)
      issued_latest := fun k hk => by
        rcases hstamp k hk with hk | rfl
        · exact List.mem_cons_of_mem _ (h.issued_latest k hk)
        · exact List.mem_cons_self
      issued_entry := fun slot k hk => List.mem_cons_of_mem _ (h.issued_entry slot k hk)
      committed_grows :=
        (hlatest ▸ h.committed_grows).write (hunseen h.issued_committed) hwrite
      grows_latest := fun slot =>
        (hlatest ▸ h.grows_latest slot).write (hunseen (h.issued_entry slot)) hwrite
      agrees_committed := h.agrees_committed
      grows_committed := fun t' ht' hlent => by
        obtain rfl := Option.some.inj ht'
        exact h.grows_committed t hwriter hlent
      queries := fun slot running hrunning => by
        have hsound := h.queries slot running hrunning
        have hother := (hidle slot running hrunning).symm
        -- a query of another connection sees the committed store, before and after
        have hview : w.view running.query.connection = w.committed :=
          view_of_not_writer fun t' ht' => by
            obtain rfl := Option.some.inj (hwriter.symm.trans ht')
            exact hother
        have hview' : CacheWorld.view
            { w with writer := some { t with pending := updated }, issued := fresh :: w.issued }
            running.query.connection = w.committed :=
          view_of_not_writer fun t' ht' => by
            obtain rfl := Option.some.inj ht'
            exact hother
        refine ⟨List.mem_cons_of_mem _ hsound.issued, ?_, fun hk => ?_, fun t' ht' hown => ?_, ?_⟩
        · rw [hview', ← hview]
          exact hsound.holds
        · rw [hview', ← hview]
          rcases hstamp _ hk with hk | hk
          · exact hsound.apart hk
          · exact absurd (hk ▸ hsound.issued) hfresh
        · obtain rfl := Option.some.inj ht'
          exact absurd hown hother
        · rw [hview', ← hview]
          exact hsound.steady }

/-- What a query has in hand is in the latest version, if that has the stamp of the query. -/
theorem Coherent.holds_latest {entry : VectorCacheEntry ν} (h : w.Coherent)
    {running : QueryInProgress κ ν} (hsound : running.Sound env w entry) :
    running.query.Holds w.latest entry running.phase := by
  have hgrows := h.view_grows running.query.connection
  refine ⟨hsound.holds.validated, fun hstamp row hrow => ?_, fun hstamp candidate hcandidate => ?_⟩
  · have hview := hsound.apart hstamp
    exact hgrows _ hview hstamp row.1 row.2 (hsound.holds.block hview row hrow)
  · have hview := hsound.apart hstamp
    obtain ⟨v, hv⟩ := Option.isSome_iff_exists.mp (hsound.holds.candidates hview _ hcandidate)
    exact Option.isSome_iff_exists.mpr ⟨v, hgrows _ hview hstamp candidate.1 v hv⟩

/-- What was pending is committed; the other connections see it from now on. -/
theorem Valid.commits {t : OpenTransaction κ ν} (h : w.Valid env) (hwriter : w.writer = some t) :
    CacheWorld.Valid env
      { w with
        committed := t.pending
        writer := none
        caches := fun slot => (w.caches slot).disturb } := by
  have hlatest : w.latest = t.pending := latest_of_some hwriter
  rw [← hlatest]
  exact
    { issued_committed := h.issued_latest
      issued_latest := h.issued_latest
      issued_entry := h.issued_entry
      committed_grows := .refl _
      grows_latest := h.grows_latest
      agrees_committed := fun slot => (h.grows_latest slot).agrees
      grows_committed := fun _ ht => by cases ht
      queries := fun slot running hrunning => by
        -- a query in progress saw the old store, and is marked as disturbed
        obtain ⟨before, hbefore, rfl⟩ := CacheSlot.disturb_running hrunning
        have hsound := h.queries slot before hbefore
        exact
          { issued := hsound.issued
            holds := (h.toCoherent.holds_latest hsound :)
            apart := fun hstamp => hstamp
            own := fun _ ht => by cases ht
            steady := fun hsteady => by cases hsteady } }

/-- Nothing of the transaction is left, unless an entry was lent it. -/
theorem Valid.rollsBack {t : OpenTransaction κ ν} (h : w.Valid env) (hwriter : w.writer = some t)
    (hidle : w.Idle t.connection) (hlent : t.lent = false) :
    CacheWorld.Valid env { w with writer := none } :=
  { issued_committed := h.issued_committed
    issued_latest := h.issued_committed
    issued_entry := h.issued_entry
    committed_grows := .refl _
    grows_latest := h.grows_committed t hwriter hlent
    agrees_committed := h.agrees_committed
    grows_committed := fun _ ht => by cases ht
    queries := fun slot running hrunning => by
      have hsound := h.queries slot running hrunning
      have hview : w.view running.query.connection = w.committed :=
        view_of_not_writer fun t' ht' => by
          obtain rfl := Option.some.inj (hwriter.symm.trans ht')
          exact (hidle slot running hrunning).symm
      exact
        { issued := hsound.issued
          holds := (hview ▸ hsound.holds :)
          apart := fun hstamp => hstamp
          own := fun _ ht => by cases ht
          steady := fun hsteady => (hview ▸ hsound.steady hsteady :) } }

/-! ### Statements of a query -/

/-- One cache is another, the rest are as they were. -/
theorem forall_update {P : CacheSlot κ ν → Prop} {caches : Nat → CacheSlot κ ν} {slot : Nat}
    {cache : CacheSlot κ ν} (hcache : P cache) (hcaches : ∀ i, P (caches i)) (i : Nat) :
    P (Function.update caches slot cache i) := by
  rw [Function.update_apply]
  split
  · exact hcache
  · exact hcaches i

/-- Another query begins or ends where one can; the entries stay. -/
theorem Valid.setRunning (h : w.Valid env) {slot : Nat} {running : Option (QueryInProgress κ ν)}
    (hsound : ∀ r, running = some r → r.Sound env w (w.caches slot).entry) :
    (w.setCache slot { (w.caches slot) with running := running }).Valid env := by
  refine ⟨⟨h.issued_committed, h.issued_latest, ?_, h.committed_grows, ?_, ?_,
    fun t ht hlent => ?_⟩, ?_⟩
  · exact forall_update
      (P := fun cache => ∀ token, cache.entry.token = some token → token ∈ w.issued)
      (h.issued_entry slot) (fun i => h.issued_entry i)
  · exact forall_update (P := fun cache => cache.entry.vectors.Grows w.latest.vectors)
      (h.grows_latest slot) (fun i => h.grows_latest i)
  · exact forall_update (P := fun cache => cache.entry.vectors.Agrees w.committed.vectors)
      (h.agrees_committed slot) (fun i => h.agrees_committed i)
  · exact forall_update (P := fun cache => cache.entry.vectors.Grows w.committed.vectors)
      (h.grows_committed t ht hlent slot) (fun i => h.grows_committed t ht hlent i)
  · -- a query beside it sees the same world
    have hsame : ∀ {r : QueryInProgress κ ν} {e : VectorCacheEntry ν}, r.Sound env w e →
        r.Sound env (w.setCache slot { (w.caches slot) with running := running }) e := fun hr =>
      hr.congr rfl rfl (fun _ => rfl) fun t ht => ⟨t, ht, rfl⟩
    exact forall_update (P := fun cache => ∀ r, cache.running = some r →
      QueryInProgress.Sound env _ cache.entry r) (fun r hr => hsame (hsound r hr))
        fun i r hr => hsame (h.queries i r hr)

/-- A query begins with the stamp it reads, and with nothing in hand. -/
theorem Valid.begun {query : VectorQuery κ} (h : w.Valid env) (entry : VectorCacheEntry ν)
    (htoken : (w.view query.connection).token = some query.token) :
    QueryInProgress.Sound env w entry ⟨query, .validating, false⟩ where
  issued := by
    rcases w.view_cases query.connection with ⟨_, _, _, hview⟩ | ⟨_, hview⟩
    · exact h.issued_latest _ (hview ▸ htoken)
    · exact h.issued_committed _ (hview ▸ htoken)
  holds := .of_block_nil rfl False.elim fun _ => List.forall_mem_nil _
  apart := fun _ => htoken
  own := fun _ _ _ => rfl
  steady := fun _ => ⟨htoken, trivial⟩

section Advance

variable [DecidableEq ν]

theorem latest_serve (w : CacheWorld κ ν) (connection : Nat) (entry : VectorCacheEntry ν) :
    (w.serve connection entry).latest = w.latest := by
  unfold latest serve
  cases w.writer <;> rfl

theorem view_serve (w : CacheWorld κ ν) (connection : Nat) (entry : VectorCacheEntry ν) (c : Nat) :
    (w.serve connection entry).view c = w.view c := by
  unfold view serve
  cases w.writer with
  | none => rfl
  | some t =>
    rw [Option.map_some, Option.filter_some, Option.filter_some]
    show Option.getD (Option.map _ (if decide (t.connection = c) then _ else none)) _ = _
    split <;> rfl

/-- An entry that does not exceed what is committed grows into it. -/
theorem grows_of_not_exceeds {entry : VectorCacheEntry ν} {committed : VectorDb κ ν}
    (h : entry.exceeds committed = false) : entry.vectors.Grows committed.vectors := by
  intro token hentry hcommitted id v hv
  rw [VectorCacheEntry.vectors_stamp] at hentry
  rw [VectorDb.vectors_stamp] at hcommitted
  rw [VectorCacheEntry.exceeds, hentry, hcommitted, decide_eq_true rfl, Bool.true_and,
    List.any_eq_false] at h
  have hheld : entry.holds id = true :=
    VectorCacheEntry.holds_iff.mpr (Option.isSome_iff_exists.mpr ⟨v, hv⟩)
  obtain ⟨position, hposition⟩ := Option.isSome_iff_exists.mp hheld
  obtain ⟨before, after, hindex, -⟩ := List.lookup_eq_some_iff.mp hposition
  have hsame := h (id, position) (by
    rw [hindex]
    exact List.mem_append_right _ List.mem_cons_self)
  rw [decide_eq_true_eq, not_not] at hsame
  exact hsame.symm.trans hv

/-- One statement of a query keeps the entries right, and what the queries have in hand. -/
theorem Valid.advances {slot : Nat} {running : QueryInProgress κ ν} {entry : VectorCacheEntry ν}
    {phase : QueryPhase ν} (h : w.Valid env) (hrunning : (w.caches slot).running = some running)
    (hnext : running.query.advance env (w.view running.query.connection) (w.caches slot).entry
      running.phase = some (entry, phase)) :
    (w.advanced slot running entry phase).Valid env := by
  have hsound := h.queries slot running hrunning
  obtain ⟨hholds, hfill⟩ := VectorQuery.advance_sound hsound.holds hnext
  have hlatest : (w.advanced slot running entry phase).latest = w.latest := latest_serve ..
  have hview : ∀ c, (w.advanced slot running entry phase).view c = w.view c := view_serve _ _ _
  -- the stamp of the query is committed only if the query sees it
  have hseen : w.committed.token = some running.query.token →
      (w.view running.query.connection).token = some running.query.token := by
    intro hcommitted
    rcases w.view_cases running.query.connection with ⟨t, ht, hown, _⟩ | ⟨_, hview⟩
    · exact (hsound.steady (hsound.own t ht hown)).1
    · rw [hview]
      exact hcommitted
  -- the entry is filled from what the connection sees, or stays
  have hgrows := (h.grows_latest slot).fill hfill (h.view_grows _) hsound.apart
  have hagrees := (h.agrees_committed slot).fill hfill (h.view_agrees _) hseen
  have hissued : ∀ token, entry.token = some token → token ∈ w.issued := by
    intro token htoken
    rcases hfill with hsame | ⟨hstamp, -⟩
    · have hold : (w.caches slot).entry.token = entry.token := congrArg Stamped.stamp hsame.symm
      exact h.issued_entry slot token (hold.trans htoken)
    · obtain rfl := Option.some.inj (hstamp.symm.trans htoken)
      exact hsound.issued
  -- a writer that has lent nothing so far has lent nothing to this entry either
  have hsettled : ∀ t, w.writer = some t →
      (t.serve running.query.connection entry w.committed).lent = false →
        t.lent = false ∧ entry.vectors.Grows w.committed.vectors := by
    intro t ht hlent
    obtain ⟨hbefore, hown⟩ := Bool.or_eq_false_iff.mp hlent
    refine ⟨hbefore, ?_⟩
    by_cases hconnection : t.connection = running.query.connection
    · rw [decide_eq_true hconnection, Bool.true_and] at hown
      exact grows_of_not_exceeds hown
    · have hcommitted : w.view running.query.connection = w.committed :=
        view_of_not_writer fun t' ht' => by
          obtain rfl := Option.some.inj (ht.symm.trans ht')
          exact hconnection
      rw [hcommitted] at hfill
      exact (h.grows_committed t ht hbefore slot).fill hfill (.refl _) fun hstamp => hstamp
  refine ⟨⟨h.issued_committed, ?_, ?_, ?_, ?_, ?_, fun t' ht' hlent => ?_⟩, ?_⟩
  · rw [hlatest]
    exact h.issued_latest
  · exact forall_update
      (P := fun cache => ∀ token, cache.entry.token = some token → token ∈ w.issued)
      (hissued) (fun i => h.issued_entry i)
  · rw [hlatest]
    exact h.committed_grows
  · rw [hlatest]
    exact forall_update (P := fun cache => cache.entry.vectors.Grows w.latest.vectors)
      (hgrows) (fun i => h.grows_latest i)
  · exact forall_update (P := fun cache => cache.entry.vectors.Agrees w.committed.vectors)
      (hagrees) (fun i => h.agrees_committed i)
  · obtain ⟨t, ht, rfl⟩ := Option.map_eq_some_iff.mp ht'
    obtain ⟨hbefore, hentry⟩ := hsettled t ht hlent
    exact forall_update (P := fun cache => cache.entry.vectors.Grows w.committed.vectors)
      (hentry) (fun i => h.grows_committed t ht hbefore i)
  · have hsame : ∀ {r : QueryInProgress κ ν} {e : VectorCacheEntry ν}, r.Sound env w e →
        r.Sound env (w.advanced slot running entry phase) e := by
      intro r e hr
      refine hr.congr rfl hlatest hview fun t' ht' => ?_
      obtain ⟨t, ht, rfl⟩ := Option.map_eq_some_iff.mp ht'
      exact ⟨t, ht, rfl⟩
    -- the query that moved covers the vectors its statement has read
    have hself : QueryInProgress.Sound env w entry { running with phase := phase } :=
      { issued := hsound.issued
        holds := hholds
        apart := hsound.apart
        own := hsound.own
        steady := fun hsteady =>
          ⟨(hsound.steady hsteady).1, VectorQuery.advance_covers (hsound.steady hsteady).2 hnext⟩ }
    refine forall_update (P := fun cache => ∀ r, cache.running = some r →
      QueryInProgress.Sound env _ cache.entry r) (fun r hr => ?_)
        fun i r hr => hsame (h.queries i r hr)
    obtain rfl := Option.some.inj hr
    exact hsame hself

/-- Every step keeps the entries right, and what the queries have in hand. -/
theorem Valid.step {w' : CacheWorld κ ν} (h : w.Valid env) (hstep : CacheStep env w w') :
    w'.Valid env := by
  cases hstep with
  | begins hwriter hidle => exact h.begins hwriter hidle
  | writes hwriter hidle hfresh hwrite => exact h.writes hwriter hidle hfresh hwrite.written
  | commits hwriter => exact h.commits hwriter
  | rollsBack hwriter hidle hlent => exact h.rollsBack hwriter hidle hlent
  | asks hfree hidle htoken =>
    refine h.setRunning fun r hr => ?_
    obtain rfl := Option.some.inj hr
    exact h.begun _ htoken
  | advances hrunning hnext => exact h.advances hrunning hnext
  | ends slot => exact h.setRunning fun r hr => by cases hr

theorem Cold.valid_of_run {w₀ : CacheWorld κ ν} (hcold : w₀.Cold)
    (hrun : Relation.ReflTransGen (CacheStep env) w₀ w) : w.Valid env := by
  induction hrun with
  | refl => exact hcold.valid
  | tail _ hstep ih => exact ih.step hstep

end Advance

end CacheWorld

/-! ### What is ranked -/

section Served

variable {env : EmbeddingEnv κ ν} {w₀ w : CacheWorld κ ν} {slot : Nat}
  {query : VectorQuery κ} {candidates : List (String × String)} {disturbed : Bool}

/-- The vectors of the candidates, while the stamp the query read is the current one. -/
theorem CacheWorld.Valid.vectorAt_eq (h : w.Valid env)
    (hserving : (w.caches slot).running = some ⟨query, .serving candidates, disturbed⟩)
    (hstamp : (w.view query.connection).token = some query.token) {candidate : String × String}
    (hcandidate : candidate ∈ candidates) {v : ν}
    (hv : (w.caches slot).entry.vectorAt candidate.1 = some v) :
    (w.view query.connection).find candidate.1 = some v := by
  have hsound := h.queries slot _ hserving
  have hentry : (w.caches slot).entry.token = some query.token := hsound.holds.validated trivial
  rcases w.view_cases query.connection with ⟨_, _, _, hview⟩ | ⟨_, hview⟩
  · rw [hview] at hstamp ⊢
    exact h.grows_latest slot _ hentry hstamp _ _ hv
  · -- another transaction may have lent the entry more than is committed, but nothing else
    obtain ⟨stored, hstored⟩ :=
      Option.isSome_iff_exists.mp (hsound.holds.candidates hstamp candidate hcandidate)
    rw [hview] at hstamp hstored ⊢
    rw [h.agrees_committed slot _ hentry hstamp _ _ _ hv hstored]
    exact hstored

variable [DecidableEq ν]

/-- Whatever the writers and the other queries do in between, a query ranks every candidate by
the vector that is stored for it in the version the query sees, as long as that version has the
stamp the query began with. -/
theorem rankedFromEntry_stored (hcold : w₀.Cold)
    (hrun : Relation.ReflTransGen (CacheStep env) w₀ w)
    (hserving : (w.caches slot).running = some ⟨query, .serving candidates, disturbed⟩)
    (hstamp : (w.view query.connection).token = some query.token) (distance : ν → Rat)
    {ranked : RankedEntry}
    (hranked : ranked ∈ rankedFromEntry distance (w.caches slot).entry candidates) :
    ∃ candidate ∈ candidates, ∃ v, (w.view query.connection).find candidate.1 = some v ∧
      ranked = rankedEntry (distance v) candidate.2 candidate.1 := by
  have hmem := (List.perm_insertionSort _ _).mem_iff.mp hranked
  obtain ⟨candidate, hcandidate, hheld⟩ := List.mem_filterMap.mp hmem
  obtain ⟨v, hv, rfl⟩ := Option.map_eq_some_iff.mp hheld
  have hvalid := hcold.valid_of_run hrun
  exact ⟨candidate, hcandidate, v, hvalid.vectorAt_eq hserving hstamp hcandidate hv, rfl⟩

/-- A query during which nothing is committed returns the ranking of the scan that reads every
vector from the database. -/
theorem rankedFromEntry_undisturbed (hcold : w₀.Cold)
    (hrun : Relation.ReflTransGen (CacheStep env) w₀ w)
    (hserving : (w.caches slot).running = some ⟨query, .serving candidates, false⟩)
    (exact approximate : ν → Rat) :
    rankedFromEntry approximate (w.caches slot).entry candidates =
      ((scanRows exact approximate env query.predicate (w.view query.connection)).map
        VectorRow.approximateKey).insertionSort (· ≤ ·) := by
  have hvalid := hcold.valid_of_run hrun
  obtain ⟨hstamp, hcovers⟩ := (hvalid.queries slot _ hserving).steady rfl
  refine rankedFromEntry_eq_scan exact approximate hcovers fun candidate hcandidate v hv => ?_
  exact hvalid.vectorAt_eq hserving hstamp hcandidate hv

/-! ### Two queries -/

/-- Vectors of one number, and nothing in the other columns. -/
def pantryEnv : EmbeddingEnv Unit Nat where
  blob vector := vector.length
  contentSha256 _ := ""
  updatedAt _ := "2024-05-01"
  sign _ _ := ()
  unsign _ := ()
  redact _ _ := ()
  redacted _ _ := false

theorem nodup_teaJam : ["tea", "jam"].Nodup := by decide

/-- A memory with a vector, and one that has none at first. -/
def pantryDb (second : Option Nat) : VectorDb Unit Nat :=
  ⟨⟨[⟨"tea", true, some 1, ()⟩, ⟨"jam", true, second, ()⟩], nodup_teaJam⟩, some "first"⟩

def pantryWorld : CacheWorld Unit Nat := ⟨pantryDb none, none, fun _ => ⟨.empty, none⟩, ["first"]⟩

/-- A query without conditions. -/
def pantryQuery (connection : Nat) : VectorQuery Unit :=
  ⟨connection, "first", fun _ => true, 100000⟩

/-- The second memory gets its vector. -/
theorem pantryWrite : VectorWrite pantryEnv "second" (pantryDb none) (pantryDb (some 2)) :=
  .embedded (h := show VectorDb.updateMemoryEmbedding pantryEnv "jam" [1, 2]
    ⟨none, none, none, none, 1⟩ "second" (pantryDb none) = .ok (some (pantryDb (some 2))) from rfl)

theorem pantryWorld_cold : pantryWorld.Cold where
  writer := rfl
  caches _ := rfl
  issued t ht := by
    obtain rfl := Option.some.inj ht
    exact List.mem_singleton_self _

def pantryRows : List (String × String) := [("tea", "2024-05-01"), ("jam", "2024-05-01")]

/-- The entry with the first memory, and with both. -/
def teaEntry : VectorCacheEntry Nat := ⟨some "first", [1], [("tea", 0)], rfl⟩

def teaJamEntry : VectorCacheEntry Nat := ⟨some "first", [1, 2], [("tea", 0), ("jam", 1)], rfl⟩

/-- The transaction has begun, and has stored the vector. -/
def pantryOpen (second : Option Nat) (issued : List String) : CacheWorld Unit Nat :=
  ⟨pantryDb none, some ⟨0, pantryDb second, false⟩, fun _ => ⟨.empty, none⟩, issued⟩

theorem pantryOpen_run : Relation.ReflTransGen (CacheStep pantryEnv) pantryWorld
    (pantryOpen (some 2) ["second", "first"]) := by
  have hidle : ∀ w : CacheWorld Unit Nat, w.caches = (fun _ => ⟨.empty, none⟩) → w.Idle 0 := by
    intro w hw slot running hrunning
    rw [hw] at hrunning
    cases hrunning
  have hbegun : CacheStep pantryEnv pantryWorld (pantryOpen none ["first"]) :=
    .begins rfl (hidle _ rfl)
  have hstored : CacheStep pantryEnv (pantryOpen none ["first"])
      (pantryOpen (some 2) ["second", "first"]) :=
    .writes (w := pantryOpen none ["first"]) (t := ⟨0, pantryDb none, false⟩) rfl (hidle _ rfl)
      (by decide : "second" ∉ ["first"]) pantryWrite
  exact (Relation.ReflTransGen.single hbegun).tail hstored

/-- The rows are counted, and they fit. -/
theorem pantry_counts (connection : Nat) (second : Option Nat) :
    (pantryQuery connection).advance pantryEnv (pantryDb second) .empty .validating =
      some (.empty, .rebuilding (pantryDb second).liveRows.length) := by
  cases second <;>
    simp [VectorQuery.advance, pantryQuery, pantryDb, VectorDb.liveRows, VectorCacheEntry.empty,
      vectorRowBytes]

/-- The query of the connection that stored the vector, up to its ranking. -/
def pantryAsked : CacheWorld Unit Nat :=
  (pantryOpen (some 2) ["second", "first"]).setCache 0
    ⟨.empty, some ⟨pantryQuery 0, .validating, false⟩⟩

def pantryCounted : CacheWorld Unit Nat :=
  pantryAsked.advanced 0 ⟨pantryQuery 0, .validating, false⟩ .empty (.rebuilding 2)

def pantryRebuilt : CacheWorld Unit Nat :=
  pantryCounted.advanced 0 ⟨pantryQuery 0, .rebuilding 2, false⟩ teaJamEntry (.selecting true)

def pantryServing : CacheWorld Unit Nat :=
  pantryRebuilt.advanced 0 ⟨pantryQuery 0, .selecting true, false⟩ teaJamEntry
    (.serving pantryRows)

theorem pantryServing_run :
    Relation.ReflTransGen (CacheStep pantryEnv) pantryWorld pantryServing := by
  have hasked : CacheStep pantryEnv (pantryOpen (some 2) ["second", "first"]) pantryAsked :=
    .asks rfl (fun _ _ h => by cases h) rfl
  have hcounted : CacheStep pantryEnv pantryAsked pantryCounted :=
    .advances rfl (pantry_counts 0 (some 2))
  have hrebuilt : CacheStep pantryEnv pantryCounted pantryRebuilt := .advances rfl rfl
  have hserving : CacheStep pantryEnv pantryRebuilt pantryServing := .advances rfl rfl
  exact (((pantryOpen_run.tail hasked).tail hcounted).tail hrebuilt).tail hserving

/-- Inside the transaction both memories are ranked. -/
theorem rankedFromEntry_undisturbed_pantry :
    rankedFromEntry (fun v : Nat => (v : Rat)) (pantryServing.caches 0).entry pantryRows =
      ((scanRows (fun v : Nat => (v : Rat)) (fun v : Nat => (v : Rat)) pantryEnv
        (pantryQuery 0).predicate (pantryServing.view (pantryQuery 0).connection)).map
          VectorRow.approximateKey).insertionSort (· ≤ ·) :=
  rankedFromEntry_undisturbed pantryWorld_cold pantryServing_run rfl _ _

/-- The query of another connection has counted the rows. -/
def pantryBeside : CacheWorld Unit Nat :=
  (pantryWorld.setCache 0 ⟨.empty, some ⟨pantryQuery 1, .validating, false⟩⟩).advanced 0
    ⟨pantryQuery 1, .validating, false⟩ .empty (.rebuilding 1)

/-- Then the vector is stored, and committed. -/
def pantryChanged : CacheWorld Unit Nat :=
  { pantryBeside with
    committed := pantryDb (some 2)
    writer := none
    caches := fun slot => (pantryBeside.caches slot).disturb
    issued := ["second", "first"] }

def pantryFetching : CacheWorld Unit Nat :=
  CacheWorld.advanced
    (pantryChanged.advanced 0 ⟨pantryQuery 1, .rebuilding 1, true⟩ teaEntry (.selecting true))
    0 ⟨pantryQuery 1, .selecting true, true⟩ teaEntry (.fetching pantryRows ["jam"] [])

def pantryServed : CacheWorld Unit Nat :=
  pantryFetching.advanced 0 ⟨pantryQuery 1, .fetching pantryRows ["jam"] [], true⟩ teaJamEntry
    (.serving pantryRows)

/-- The steps of the example, one by one. -/
theorem pantryChanged_run :
    Relation.ReflTransGen (CacheStep pantryEnv) pantryWorld pantryChanged := by
  have hidle : pantryBeside.Idle 0 := fun slot =>
    CacheWorld.forall_update
      (P := fun cache => ∀ r, cache.running = some r → r.query.connection ≠ 0)
      (fun r hr => by
        obtain rfl := Option.some.inj hr
        decide)
      (CacheWorld.forall_update
        (P := fun cache => ∀ r, cache.running = some r → r.query.connection ≠ 0)
        (fun r hr => by
          obtain rfl := Option.some.inj hr
          decide)
        fun _ _ hr => by cases hr) slot
  -- a query is asked and counts, then another connection begins, writes and commits
  have hasked : CacheStep pantryEnv pantryWorld
      (pantryWorld.setCache 0 ⟨.empty, some ⟨pantryQuery 1, .validating, false⟩⟩) :=
    .asks rfl (fun _ _ h => by cases h) rfl
  have hcounted : CacheStep pantryEnv
      (pantryWorld.setCache 0 ⟨.empty, some ⟨pantryQuery 1, .validating, false⟩⟩) pantryBeside :=
    .advances rfl (pantry_counts 1 none)
  have hbegun : CacheStep pantryEnv pantryBeside
      { pantryBeside with writer := some ⟨0, pantryDb none, false⟩ } := .begins rfl hidle
  have hstored : CacheStep pantryEnv
      { pantryBeside with writer := some ⟨0, pantryDb none, false⟩ }
      { pantryBeside with
        writer := some ⟨0, pantryDb (some 2), false⟩
        issued := ["second", "first"] } :=
    .writes (w := { pantryBeside with writer := some ⟨0, pantryDb none, false⟩ })
      (t := ⟨0, pantryDb none, false⟩) rfl hidle (by decide : "second" ∉ ["first"]) pantryWrite
  have hcommitted : CacheStep pantryEnv
      { pantryBeside with
        writer := some ⟨0, pantryDb (some 2), false⟩
        issued := ["second", "first"] } pantryChanged :=
    .commits (w := { pantryBeside with
        writer := some ⟨0, pantryDb (some 2), false⟩
        issued := ["second", "first"] }) (t := ⟨0, pantryDb (some 2), false⟩) rfl hidle
  exact ((((Relation.ReflTransGen.single hasked).tail hcounted).tail hbegun).tail hstored).tail
    hcommitted

/-- The second memory is not in the entry. -/
theorem pantry_selects :
    (pantryQuery 1).advance pantryEnv (pantryDb (some 2)) teaEntry (.selecting true) =
      some (teaEntry, .fetching pantryRows ["jam"] []) := by
  simp [VectorQuery.advance, VectorQuery.missingPhase, candidateIdRows, pantryQuery, pantryDb,
    pantryEnv, pantryRows, teaEntry, VectorCacheEntry.holds, vectorRowBytes, List.lookup_cons,
    List.lookup_nil]

theorem pantryServed_run :
    Relation.ReflTransGen (CacheStep pantryEnv) pantryWorld pantryServed := by
  have hrebuilt : CacheStep pantryEnv pantryChanged
      (pantryChanged.advanced 0 ⟨pantryQuery 1, .rebuilding 1, true⟩ teaEntry (.selecting true)) :=
    .advances rfl rfl
  have hselected : CacheStep pantryEnv
      (pantryChanged.advanced 0 ⟨pantryQuery 1, .rebuilding 1, true⟩ teaEntry (.selecting true))
      pantryFetching :=
    .advances rfl pantry_selects
  have hserved : CacheStep pantryEnv pantryFetching pantryServed := .advances rfl rfl
  exact ((pantryChanged_run.tail hrebuilt).tail hselected).tail hserved

/-- The vector stored in between is the one the memory is ranked by. -/
theorem rankedFromEntry_stored_pantry :
    ∃ candidate ∈ pantryRows, ∃ v, (pantryServed.view 1).find candidate.1 = some v ∧
      rankedEntry (2 : Nat) "2024-05-01" "jam" = rankedEntry (v : Rat) candidate.2 candidate.1 := by
  have hserving : (pantryServed.caches 0).running =
      some ⟨pantryQuery 1, .serving pantryRows, true⟩ := rfl
  have hranked : rankedEntry (2 : Nat) "2024-05-01" "jam" ∈
      rankedFromEntry (fun v : Nat => (v : Rat)) (pantryServed.caches 0).entry pantryRows :=
    (List.perm_insertionSort _ _).mem_iff.mpr
      (List.mem_filterMap.mpr ⟨("jam", "2024-05-01"), by decide, rfl⟩)
  exact rankedFromEntry_stored pantryWorld_cold pantryServed_run hserving rfl _ hranked

end Served

end AliceBot
