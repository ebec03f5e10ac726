import AliceBot.CommitTruthfulness
import AliceBot.MemoryHistory

/-!
# Idempotency keys

A commit under a key either finds the row that carries the key as its
`commit_digest`, and is answered from it, or inserts a row that carries it. The
lookup sees rows that are not deleted; the unique index on the digest, and the
one on `memory_key`, which contains the idempotency key, see all rows.

`idempotency_keys` compares the two in every reachable store. No two rows ever
carry one digest. A commit that the policy lets through inserts, replays or
refuses the key, unless the key is taken by rows the lookup does not see
(`Bricked`); then the insertion fails in the database. `update_memory` with
status `archived` brings that about, and so does a key that repeats the
identifier in the `memory_key` of a commit without one. A commit under a fresh
key fails in the database too where it refers to a source that does not exist
(`Unsourced`): the foreign key of its provenance link refuses the link.
-/

namespace AliceBot

open PyLib

/-! ### Digests are unique -/

/-- No two rows carry the same digest. -/
def Store.DigestsUnique (s : Store) : Prop :=
  ∀ row ∈ s.memories.rows, ∀ row' ∈ s.memories.rows,
    row.commitDigest = row'.commitDigest → row.commitDigest ≠ none → row = row'

/-- Rows have identifiers that were issued, and digests of their own. -/
structure Store.KeysSound (uuid : Nat → String) (s : Store) : Prop where
  issued : ∀ id row, s.memories.get? id = some row → ∃ n < s.ticks, id = uuid n
  unique : s.DigestsUnique

/-- What holds of the keys still does. -/
def KeepsKeys (uuid : Nat → String) (s t : Store) : Prop := s.KeysSound uuid → t.KeysSound uuid

instance (uuid : Nat → String) : Std.Refl (KeepsKeys uuid) where
  refl _ := id

instance (uuid : Nat → String) : IsTrans Store (KeepsKeys uuid) where
  trans _ _ _ h₁ h₂ := h₂ ∘ h₁

variable {env : Env} {s t : Store} {identity : Option AgentIdentity}

/-- Rows stay under their identifiers, and digests only go. -/
theorem keepsKeys_of_rows (hticks : s.ticks ≤ t.ticks)
    (hrows : ∀ id row', t.memories.get? id = some row' → ∃ row, s.memories.get? id = some row ∧
      (row'.commitDigest = none ∨ row'.commitDigest = row.commitDigest)) (uuid : Nat → String) :
    KeepsKeys uuid s t := by
  intro hs
  refine ⟨fun id row' hrow' => ?_, fun row₁ hrow₁ row₂ hrow₂ hsame hsome => ?_⟩
  · obtain ⟨row, hrow, -⟩ := hrows id row' hrow'
    obtain ⟨n, hn, hid⟩ := hs.issued id row hrow
    exact ⟨n, hn.trans_le hticks, hid⟩
  · have hfound₁ := Table.get?_of_mem hrow₁
    have hfound₂ := Table.get?_of_mem hrow₂
    obtain ⟨old₁, hold₁, hdigest₁⟩ := hrows _ _ hfound₁
    obtain ⟨old₂, hold₂, hdigest₂⟩ := hrows _ _ hfound₂
    have hkept₁ := hdigest₁.resolve_left hsome
    have hkept₂ := hdigest₂.resolve_left (hsame ▸ hsome)
    -- rows with the same digest had it before, and were one row then
    have hold : old₁ = old₂ := by
      refine hs.unique old₁ (Table.mem_of_get? hold₁) old₂ (Table.mem_of_get? hold₂) ?_ ?_
      · rw [← hkept₁, ← hkept₂, hsame]
      · rw [← hkept₁]
        exact hsome
    have hid : row₁.id = row₂.id := by
      rw [← Table.key_of_get? hold₁, ← Table.key_of_get? hold₂, hold]
    rw [hid, hfound₂] at hfound₁
    exact (Option.some.inj hfound₁).symm

/-- A table in which one row was rewritten. -/
theorem keepsKeys_of_rewrite {memoryId : String} {f : Rewrite MemoryRow.id}
    (hticks : s.ticks ≤ t.ticks) (hmemories : t.memories = s.memories.rewrite memoryId f)
    (hdigest : ∀ row, (f.apply row).commitDigest = none ∨
      (f.apply row).commitDigest = row.commitDigest) (uuid : Nat → String) :
    KeepsKeys uuid s t := by
  refine keepsKeys_of_rows hticks (fun id row' hrow' => ?_) uuid
  rw [hmemories, Table.get?_rewrite] at hrow'
  split at hrow'
  · obtain ⟨row, hrow, rfl⟩ := Option.map_eq_some_iff.mp hrow'
    exact ⟨row, hrow, hdigest row⟩
  · exact ⟨row', hrow', .inr rfl⟩

theorem Quiet.keepsKeys (h : Quiet s t) (uuid : Nat → String) : KeepsKeys uuid s t := by
  refine keepsKeys_of_rows h.ticks (fun id row hrow => ⟨row, ?_, .inr rfl⟩) uuid
  rw [← h.memories]
  exact hrow

/-! ### Insertions -/

/-- What an insertion finds and leaves, as far as the keys go. -/
structure FreshRow (env : Env) (s t : Store) (memory : NewMemory) (row : MemoryRow) : Prop where
  id : row.id = env.uuid s.ticks
  ticks : s.ticks < t.ticks
  digest : row.commitDigest = memory.commitDigest
  digest_free : memory.commitDigest ≠ none →
    ∀ r ∈ s.memories.rows, r.commitDigest ≠ memory.commitDigest
  key_free : ∀ r ∈ s.memories.rows, r.memoryKey ≠ memory.memoryKey

/-- **The row `create_memory` inserts** has the identifier drawn for it, and a
digest and a key that no row has. -/
theorem createMemory_fresh {memory : NewMemory} {actor : Actor} {row : MemoryRow}
    (h : (createMemory env memory actor).run s = .ok row t) : FreshRow env s t memory row := by
  simp only [createMemory, newId, utcNow, run_bind_ok, run_modifyGet_ok, run_get_ok,
    run_orRaise_ok, run_raiseIf_ok, run_set_ok, run_pure_ok] at h
  obtain ⟨id, s₁, ⟨rfl, rfl⟩, now, s₂, ⟨rfl, rfl⟩, s₃, s₄, ⟨rfl, rfl⟩, _, s₅, ⟨hdigest, rfl⟩, _,
    s₆, ⟨hkey, rfl⟩, memories, s₇, ⟨-, rfl⟩, _, s₈, rfl, _, s₉, hevent, rfl, rfl⟩ := h
  have hquiet := (quiet_appendMemoryEvent env _ _ _).ok hevent
  refine ⟨rfl, ?_, rfl, fun hsome r hr hsame => ?_, fun r hr hsame => hkey (.inr ⟨r, hr, hsame⟩)⟩
  · have hticks : s.ticks + 1 + 1 ≤ s₉.ticks := hquiet.ticks
    omega
  · exact hdigest ⟨Option.isSome_iff_ne_none.mpr hsome, r, hr, hsame⟩

/-- An insert keeps ids fresh and digests distinct: where the digest is taken nothing is
added. -/
theorem keepsKeys_createMemory (memory : NewMemory) (actor : Actor) :
    Moves (KeepsKeys env.uuid) (createMemory env memory actor) := by
  intro s
  refine MovesAt.intro ?_ fun e t h => (createMemory_error h).1.keepsKeys env.uuid
  intro row t h hs
  obtain ⟨-, -, hrows, -⟩ := createMemory_ok h
  obtain ⟨hid, hticks, hdigest, hfree, -⟩ := createMemory_fresh h
  refine ⟨fun id row' hrow' => ?_, fun row₁ hrow₁ row₂ hrow₂ hsame hsome => ?_⟩
  · rw [hrows] at hrow'
    split at hrow'
    · next heq => exact ⟨s.ticks, hticks, heq ▸ hid⟩
    · obtain ⟨n, hn, hissued⟩ := hs.issued id row' hrow'
      exact ⟨n, hn.trans hticks, hissued⟩
  · -- a row of the table is the new one or an old one
    have hcases : ∀ r ∈ t.memories.rows, r = row ∨ r ∈ s.memories.rows := by
      intro r hr
      have hfound := Table.get?_of_mem hr
      rw [hrows] at hfound
      split at hfound
      · exact .inl (Option.some.inj hfound).symm
      · exact .inr (Table.mem_of_get? hfound)
    have hnew : ∀ r ∈ s.memories.rows, r.commitDigest = row.commitDigest →
        r.commitDigest = none := by
      intro r hr hsame
      by_contra hdigested
      rw [hdigest] at hsame
      exact hfree (hsame ▸ hdigested) r hr hsame
    rcases hcases row₁ hrow₁ with rfl | hold₁ <;> rcases hcases row₂ hrow₂ with rfl | hold₂
    · rfl
    · exact absurd (hsame.trans (hnew row₂ hold₂ hsame.symm)) hsome
    · exact absurd (hnew row₁ hold₁ hsame) hsome
    · exact hs.unique row₁ hold₁ row₂ hold₂ hsame hsome

/-! ### Histories -/

/-- The operations of the service keep the keys sound. -/
theorem keepsKeys_primitives (env : Env) : Primitives env (KeepsKeys env.uuid) where
  quiet h := h.keepsKeys env.uuid
  create := keepsKeys_createMemory
  update memoryId patch actor := fun s => by
    refine MovesAt.intro ?_ fun e t h => (updateMemory_error h).1.keepsKeys env.uuid
    intro updated t h
    obtain ⟨row, -, -, hmemories, hlater⟩ := updateMemory_ok h
    exact keepsKeys_of_rewrite hlater.ticks hmemories (fun _ => .inr rfl) env.uuid
  metadata memoryId f := Moves.modify fun s => by
    refine keepsKeys_of_rewrite ?_ rfl (fun row => .inr ?_) env.uuid
    · exact le_refl s.ticks
    · rw [metadataRewrite_apply]
      split <;> rfl

/-- A review keeps ids fresh and digests distinct: it rewrites one row and leaves its
digest. -/
theorem keepsKeys_reviewMemory (memoryId : String) (patch : ReviewPatch) (actor : Actor) :
    Moves (KeepsKeys env.uuid) (reviewMemory env memoryId patch actor) := by
  have hquiet {α : Type} {m : Service α} (hm : Moves Quiet m) : Moves (KeepsKeys env.uuid) m :=
    hm.mono fun _ _ h => h.keepsKeys env.uuid
  refine Moves.bind (hquiet (quiet_utcNow env)) fun _ =>
    Moves.bind (hquiet (quiet_utcNow env)) fun _ => fun s => ?_
  refine MovesAt.bind (Moves.get s) fun u _ hget => ?_
  obtain ⟨rfl, rfl⟩ := run_get_ok.mp hget
  refine MovesAt.bind (Moves.orRaise _ _ _) fun row s₁ hrow => ?_
  obtain ⟨-, rfl⟩ := run_orRaise_ok.mp hrow
  refine MovesAt.bind (Moves.raiseIf _ _ _) fun _ s₂ hchecks => ?_
  obtain ⟨-, rfl⟩ := run_raiseIf_ok.mp hchecks
  refine MovesAt.bind ?_ fun _ s₃ _ =>
    hquiet (Moves.bind (quiet_appendMemoryEvent env _ _ _) fun _ => Moves.pure _) s₃
  refine keepsKeys_of_rewrite ?_ rfl (fun row => .inr ?_) env.uuid
  · exact le_refl _
  · rfl

/-- A redaction takes the digest away. -/
theorem keepsKeys_redactMemory (redaction : StoreRedaction) (actor : Actor) :
    Moves (KeepsKeys env.uuid) (redactMemory env redaction actor) := by
  refine Moves.bind Moves.get fun _ => Moves.bind (Moves.orRaise _ _) fun row =>
    Moves.bind (Moves.raiseIf _ _) fun _ => Moves.bind ?_ fun _ => Moves.bind ?_ fun _ => ?_
  · refine Moves.modify fun s => keepsKeys_of_rows ?_ (fun id row hrow => ?_) env.uuid
    · exact le_refl s.ticks
    · exact ⟨row, hrow, .inr rfl⟩
  · refine Moves.onlyIf fun s => ?_
    refine MovesAt.bind (Moves.get s) fun u _ hget => ?_
    obtain ⟨rfl, rfl⟩ := run_get_ok.mp hget
    refine MovesAt.bind (Moves.raiseIf _ _ _) fun _ s₁ hfree => ?_
    obtain ⟨-, rfl⟩ := run_raiseIf_ok.mp hfree
    refine keepsKeys_of_rewrite ?_ rfl (fun row => .inl ?_) env.uuid
    · exact le_refl _
    · rfl
  · exact Moves.onlyIf ((quiet_appendMemoryEvent env _ _ _).mono fun _ _ h =>
      h.keepsKeys env.uuid)

theorem keepsKeys_perform (call : StoreCall) :
    Moves (KeepsKeys call.env.uuid) call.perform := by
  cases call with
  | service call => exact (keepsKeys_primitives call.env).perform
  | review env memoryId patch actor =>
    exact Moves.bind (keepsKeys_reviewMemory _ _ _) fun _ => Moves.pure _
  | redact env redaction actor => exact keepsKeys_redactMemory _ _

/-- The keys are sound in every reachable store. -/
theorem keysSound_of_history {uuid : Nat → String} {history : List StoreCall}
    (run : StoreHistory uuid history s) : s.KeysSound uuid := by
  refine run.invariant ?_ ?_
  · rintro s rfl
    exact ⟨fun id row h => absurd h (by simp [Table.get?, default]),
      fun row h => absurd h (by simp [default])⟩
  · rintro u call _ hu ⟨rfl, rfl⟩
    exact StoreCall.transact_of_moves (keepsKeys_perform call) u hu

/-! ### A commit under a key -/

/-- A request under a key, as `memory_commit_request_from_payload` builds it. -/
structure KeyedRequest (request : MemoryCommitRequest) (key : String) : Prop where
  idempotencyKey : request.idempotencyKey = some key
  nonempty : key ≠ ""
  memoryType : request.memoryType ∈ vnextMemoryTypes
  domain : request.domain ∈ vnextDomains
  sensitivity : request.sensitivity ∈ vnextSensitivityLevels
  confidence : 0 ≤ request.confidence ∧ request.confidence ≤ 1

/-- The `memory_key` of the row the request inserts. -/
def commitMemoryKey (request : MemoryCommitRequest) (key : String) : String :=
  "agentic_memory." ++ request.memoryType ++ "." ++ key

/-- A row carries the digest, or holds the key of the row to insert. -/
def Store.KeyTaken (s : Store) (request : MemoryCommitRequest) (key : String) : Prop :=
  ∃ row ∈ s.memories.rows,
    row.commitDigest = some key ∨ row.memoryKey = commitMemoryKey request key

/-- A store invariant or a constraint of the database. -/
def ServiceError.FromStore : ServiceError → Prop
  | .storeInvariant _ => True
  | .integrity => True
  | _ => False

/-- A store invariant. -/
def ServiceError.isStoreInvariant : ServiceError → Bool
  | .storeInvariant _ => true
  | _ => false

theorem ServiceError.fromStore_of_isStoreInvariant {e : ServiceError}
    (h : e.isStoreInvariant = true) : e.FromStore := by
  cases e <;> first | exact trivial | cases h

/-- A row to be inserted for the request. -/
structure KeyedMemory (request : MemoryCommitRequest) (key : String) (memory : NewMemory) :
    Prop where
  commitDigest : memory.commitDigest = some key
  memoryKey : memory.memoryKey = commitMemoryKey request key
  checks : ∀ id now, (memory.row id now).checks = true

theorem KeyedRequest.memory {request : MemoryCommitRequest} {key : String}
    (h : KeyedRequest request key) {memory : NewMemory}
    (hdigest : memory.commitDigest = request.idempotencyKey)
    (hkey : memory.memoryKey = commitMemoryKey request key)
    (htype : memory.memoryType = request.memoryType) (hdomain : memory.domain = request.domain)
    (hsensitivity : memory.sensitivity = request.sensitivity)
    (hconfidence : memory.confidence = some request.confidence) :
    KeyedMemory request key memory := by
  refine ⟨hdigest.trans h.idempotencyKey, hkey, fun id now => ?_⟩
  simp only [MemoryRow.checks, NewMemory.row, htype, hdomain, hsensitivity, hconfidence,
    MemoryRow.validRange, h.memoryType, h.domain, h.sensitivity, h.confidence, Option.all_some,
    decide_true, Bool.and_self]

section Insert

variable {request : MemoryCommitRequest} {key : String} {memory : NewMemory}

/-- The row was inserted, and nothing else changed. -/
structure InsertedRow (key : String) (s t : Store) (row : MemoryRow) : Prop where
  digest : row.commitDigest = some key
  new : s.memories.get? row.id = none
  rows : ∀ id, t.memories.get? id = if row.id = id then some row else s.memories.get? id
  present : row.deletedAt = none

/-- **A free key is inserted.** -/
theorem createMemory_ends (hmemory : KeyedMemory request key memory)
    (hsound : s.KeysSound env.uuid) (hfresh : Function.Injective env.uuid)
    (hfree : ¬ s.KeyTaken request key) (actor : Actor) :
    EndsAt (fun row t => InsertedRow key s t row) (createMemory env memory actor) s := by
  cases hrun : (createMemory env memory actor).run s with
  | ok row t =>
    obtain ⟨⟨id, now, rfl⟩, hnew, hrows, -⟩ := createMemory_ok hrun
    exact ⟨_, t, hrun, hmemory.commitDigest, hnew, hrows, rfl⟩
  | error e t =>
    simp only [createMemory, newId, utcNow, run_bind_error, run_modifyGet_error, run_modifyGet_ok,
      run_get_error, run_get_ok, run_orRaise_error, run_orRaise_ok, run_raiseIf_error,
      run_raiseIf_ok, run_set_error, run_pure_error, false_or, or_false, and_false, exists_false,
      appendMemoryEvent_ne_error] at hrun
    obtain ⟨id, s₁, ⟨rfl, rfl⟩, now, s₂, ⟨-, rfl⟩, s₃, s₄, ⟨rfl, rfl⟩, hrun⟩ := hrun
    rcases hrun with ⟨⟨-, r, hr, hsame⟩, -, -⟩ | ⟨_, s₅, ⟨-, rfl⟩, ⟨hrefused, -, -⟩ |
      ⟨_, s₆, ⟨-, rfl⟩, hinsert, -, -⟩⟩
    · exact absurd ⟨r, hr, .inl (hsame.trans hmemory.commitDigest)⟩ hfree
    · rcases hrefused with hchecks | ⟨r, hr, hsame⟩
      · rw [hmemory.checks] at hchecks
        exact absurd hchecks (by simp)
      · exact absurd ⟨r, hr, .inr (hsame.trans hmemory.memoryKey)⟩ hfree
    · -- the identifier was not issued before
      have hnew : s.memories.get? (env.uuid s.ticks) = none := by
        cases hget : s.memories.get? (env.uuid s.ticks) with
        | none => rfl
        | some row =>
          obtain ⟨n, hn, hid⟩ := hsound.issued _ row hget
          exact absurd (hfresh hid) (Nat.ne_of_gt hn)
      obtain ⟨u, hu⟩ := Table.exists_insert? (r := memory.row (env.uuid s.ticks) now) hnew
      rw [hu] at hinsert
      exact absurd hinsert (by simp)

/-- A taken one is not. -/
theorem createMemory_breaks (hmemory : KeyedMemory request key memory)
    (htaken : s.KeyTaken request key) (actor : Actor) :
    ∃ e t, (createMemory env memory actor).run s = .error e t ∧ Quiet s t ∧
      ((∃ message, e = .storeInvariant message) ∨ e = .integrity) := by
  cases hrun : (createMemory env memory actor).run s with
  | error e t => exact ⟨e, t, rfl, createMemory_error hrun⟩
  | ok row t =>
    have hfresh := createMemory_fresh hrun
    obtain ⟨r, hr, hdigest | hkey⟩ := htaken
    · refine absurd (hdigest.trans hmemory.commitDigest.symm) (hfresh.digest_free ?_ r hr)
      rw [hmemory.commitDigest]
      simp
    · exact absurd (hkey.trans hmemory.memoryKey.symm) (hfresh.key_free r hr)

theorem createMemoryRecord_ends (hmemory : KeyedMemory request key memory)
    (hsound : s.KeysSound env.uuid) (hfresh : Function.Injective env.uuid)
    (hfree : ¬ s.KeyTaken request key) :
    EndsAt (fun row t => InsertedRow key s t row)
      (createMemoryRecord env memory identity request) s := by
  obtain ⟨row, t, hrun, hinserted⟩ :=
    createMemory_ends hmemory hsound hfresh hfree (actorOf identity)
  exact ⟨row, t, run_catching_ok.mpr (.inl hrun), hinserted⟩

/-- The handler finds no row to replay, and lets the error through. -/
theorem createMemoryRecord_breaks (hmemory : KeyedMemory request key memory)
    (hnone : s.idempotentMemory request.idempotencyKey = none) (htaken : s.KeyTaken request key) :
    BreaksAt ServiceError.FromStore (createMemoryRecord env memory identity request) s := by
  obtain ⟨e, t, hrun, hquiet, hkind⟩ := createMemory_breaks hmemory htaken (actorOf identity)
  have hnone' : t.idempotentMemory request.idempotencyKey = none :=
    (hquiet.idempotentMemory _).trans hnone
  rcases hkind with ⟨message, rfl⟩ | rfl
  · refine ⟨.storeInvariant message, t, ?_, trivial⟩
    rw [createMemoryRecord, run_catching, hrun]
    refine run_bind_error.mpr (.inr ⟨t, t, rfl, run_bind_error.mpr (.inl ?_)⟩)
    exact run_orRaise_error.mpr ⟨hnone', rfl, rfl⟩
  · refine ⟨.integrity, t, ?_, trivial⟩
    rw [createMemoryRecord, run_catching, hrun]
    rfl

/-! ### The three paths of a commit -/

/-- The answer carries the row, and what followed its insertion touched no more
than its embedding signature. -/
structure AnswersWith (row : MemoryRow) (s : Store) (answer : CommitAnswer) (t : Store) : Prop where
  memory : answer.memory = some row
  fresh : answer.idempotentReplay = false
  resigned : Resigned row.id s t

/-- The computation comes to an insertion of a row for the request, before it
has written a memory, and ends there or goes on: to its answer, if the sources
it links exist, and else into an error of the store. -/
inductive Reaches (env : Env) (identity : Option AgentIdentity) (request : MemoryCommitRequest)
    (key : String) (sourced : Prop) : Store → Service CommitAnswer → Prop
  | insert {s : Store} {memory : NewMemory} {tail : MemoryRow → Service CommitAnswer}
      (hmemory : KeyedMemory request key memory)
      (htail : sourced → ∀ row v, EndsAt (AnswersWith row v) (tail row) v)
      (hunsourced : ¬ sourced → ∀ row v, BreaksAt ServiceError.FromStore (tail row) v) :
      Reaches env identity request key sourced s
        (createMemoryRecord env memory identity request >>= tail)
  | after {α : Type} {s u : Store} {m : Service α} {f : α → Service CommitAnswer} {a : α}
      (hrun : m.run s = .ok a u) (hquiet : Quiet s u)
      (hrest : Reaches env identity request key sourced u (f a)) :
      Reaches env identity request key sourced s (m >>= f)

/-- What a commit that inserts a row answers and leaves. -/
structure Created (key : String) (s : Store) (answer : CommitAnswer) (t : Store) : Prop where
  fresh : answer.idempotentReplay = false
  row : ∃ row metadata, answer.memory = some row ∧ row.commitDigest = some key ∧
    s.memories.get? row.id = none ∧
    t.getMemory row.id = some { row with metadataJson := metadata } ∧
    ∀ id, id ≠ row.id → t.memories.get? id = s.memories.get? id

namespace Reaches

variable {m : Service CommitAnswer} {sourced : Prop}

/-- With a free key and its sources it returns, and has inserted a row. -/
theorem ends (h : Reaches env identity request key sourced s m) (hsourced : sourced)
    (hsound : s.KeysSound env.uuid) (hfresh : Function.Injective env.uuid)
    (hfree : ¬ s.KeyTaken request key) : EndsAt (Created key s) m s := by
  induction h with
  | insert hmemory htail _ =>
    -- the row is inserted, and what follows resigns it at most
    refine (createMemoryRecord_ends hmemory hsound hfresh hfree).bind fun row u _ hrow => ?_
    obtain ⟨answer, t, hrun, hmemory, hreplay, hresigned⟩ := htail hsourced row u
    refine ⟨answer, t, hrun, hreplay, ?_⟩
    have hfound : u.getMemory row.id = some row := by
      rw [Store.getMemory_eq_some_iff, hrow.rows, if_pos rfl]
      exact ⟨rfl, hrow.present⟩
    obtain ⟨metadata, hstored, -⟩ := hresigned.getMemory hfound
    refine ⟨row, metadata, hmemory, hrow.digest, hrow.new, hstored, fun id hid => ?_⟩
    rw [hresigned.get?_of_ne hid, hrow.rows, if_neg (Ne.symm hid)]
  | after hrun hquiet _ ih =>
    -- a quiet call before it changes neither the key nor the rows
    have hrows := hquiet.memories
    have hfree' : ¬ Store.KeyTaken _ request key := fun htaken => hfree (by
      obtain ⟨row, hrow, htaken⟩ := htaken
      exact ⟨row, hrows ▸ hrow, htaken⟩)
    obtain ⟨answer, t, hrest, hfresh, hcreated⟩ := ih (hquiet.keepsKeys env.uuid hsound) hfree'
    refine ⟨answer, t, run_bind_ok.mpr ⟨_, _, hrun, hrest⟩, hfresh, ?_⟩
    rw [hrows] at hcreated
    exact hcreated

/-- With a taken key it raises, out of the store. -/
theorem breaks (h : Reaches env identity request key sourced s m)
    (hnone : s.idempotentMemory request.idempotencyKey = none) (htaken : s.KeyTaken request key) :
    BreaksAt ServiceError.FromStore m s := by
  induction h with
  | insert hmemory _ _ => exact (createMemoryRecord_breaks hmemory hnone htaken).bind
  | after hrun hquiet _ ih =>
    obtain ⟨row, hrow, htaken⟩ := htaken
    obtain ⟨e, t, hrest, he⟩ := ih ((hquiet.idempotentMemory _).trans hnone)
      ⟨row, hquiet.memories ▸ hrow, htaken⟩
    exact ⟨e, t, run_bind_error.mpr (.inr ⟨_, _, hrun, hrest⟩), he⟩

/-- With a free key and without its sources it raises out of the store, after
the row was inserted. -/
theorem breaks_unsourced (h : Reaches env identity request key sourced s m)
    (hunsourced : ¬ sourced) (hsound : s.KeysSound env.uuid) (hfresh : Function.Injective env.uuid)
    (hfree : ¬ s.KeyTaken request key) : BreaksAt ServiceError.FromStore m s := by
  induction h with
  | insert hmemory _ hbreaks =>
    obtain ⟨row, u, hrun, -⟩ := createMemoryRecord_ends hmemory hsound hfresh hfree
    obtain ⟨e, t, htail, he⟩ := hbreaks hunsourced row u
    exact ⟨e, t, run_bind_error.mpr (.inr ⟨row, u, hrun, htail⟩), he⟩
  | after hrun hquiet _ ih =>
    have hfree' : ¬ Store.KeyTaken _ request key := fun htaken => hfree (by
      obtain ⟨row, hrow, htaken⟩ := htaken
      exact ⟨row, hquiet.memories ▸ hrow, htaken⟩)
    obtain ⟨e, t, hrest, he⟩ := ih (hquiet.keepsKeys env.uuid hsound) hfree'
    exact ⟨e, t, run_bind_error.mpr (.inr ⟨_, _, hrun, hrest⟩), he⟩

end Reaches

/-! ### Links to sources -/

/-- Every source that the request refers to exists. -/
def SourcesExist (env : Env) (request : MemoryCommitRequest) : Prop :=
  ∀ sourceId ∈ requestSources env request, env.hasSource sourceId = true

theorem returns_createMemoryProvenanceLink {sourceId : String} (h : env.hasSource sourceId = true)
    (row : MemoryRow) (actorType : String) :
    Returns (createMemoryProvenanceLink env row actorType sourceId) := by
  refine Returns.bind (Returns.modifyGet _) fun _ => Returns.bind (Returns.modifyGet _) fun _ =>
    Returns.bind ?_ fun _ => returns_appendMemoryEvent _ _ _
  intro s
  exact ⟨(), s, run_raiseIf_ok.mpr ⟨by rw [h]; decide, rfl⟩⟩

/-- Links to sources that exist are made. -/
theorem returns_createProvenanceLinks (h : SourcesExist env request) (row : MemoryRow) :
    Returns (createProvenanceLinks env row request identity) := by
  unfold SourcesExist at h
  unfold createProvenanceLinks
  generalize requestSources env request = sourceIds at h
  induction sourceIds with
  | nil => exact Returns.pure _
  | cons sourceId rest ih =>
    have hfirst := h sourceId List.mem_cons_self
    exact Returns.bind (returns_createMemoryProvenanceLink hfirst row _) fun _ =>
      ih fun other hother => h other (List.mem_cons_of_mem _ hother)

/-- The first that does not fails its foreign key. -/
theorem breaks_createProvenanceLinks (h : ¬ SourcesExist env request) (row : MemoryRow)
    (s : Store) :
    BreaksAt ServiceError.FromStore (createProvenanceLinks env row request identity) s := by
  unfold SourcesExist at h
  unfold createProvenanceLinks
  generalize requestSources env request = sourceIds at h
  induction sourceIds generalizing s with
  | nil => exact absurd (fun sourceId hmem => absurd hmem List.not_mem_nil) h
  | cons sourceId rest ih =>
    cases hexists : env.hasSource sourceId with
    | true =>
      -- this source is there, so a later one is missing
      obtain ⟨_, u, hrun⟩ :=
        returns_createMemoryProvenanceLink hexists row (actorOf identity).type s
      have hrest : ¬ ∀ other ∈ rest, env.hasSource other = true := fun hall => h fun other hother =>
        (List.mem_cons.mp hother).elim (fun heq => heq ▸ hexists) (hall other)
      obtain ⟨e, t, hbreak, he⟩ := ih u hrest
      exact ⟨e, t, run_bind_error.mpr (.inr ⟨_, u, hrun, hbreak⟩), he⟩
    | false =>
      -- the insert of the link fails its foreign key
      refine ⟨.integrity, { s with ticks := s.ticks + 1 + 1 }, run_bind_error.mpr (.inl ?_),
        trivial⟩
      refine run_bind_error.mpr (.inr ⟨_, _, rfl, run_bind_error.mpr (.inr ⟨_, _, rfl, ?_⟩)⟩)
      exact run_bind_error.mpr (.inl (run_raiseIf_error.mpr ⟨hexists, rfl, rfl⟩))

theorem memoryKeySuffix_keyed (hrequest : KeyedRequest request key) :
    memoryKeySuffix env request = pure key := by
  rw [memoryKeySuffix, hrequest.idempotencyKey]
  exact if_neg hrequest.nonempty

theorem quiet_tick (s : Store) : Quiet s { s with ticks := s.ticks + 1 } :=
  ⟨⟨Nat.le_succ _, List.prefix_refl _⟩, rfl⟩

/-- The answer carries the row, and only logs were written. -/
def Logged (row : MemoryRow) (s : Store) (answer : CommitAnswer) (t : Store) : Prop :=
  answer.memory = some row ∧ answer.idempotentReplay = false ∧ Quiet s t

theorem Logged.pure {row : MemoryRow} {answer : CommitAnswer} (hmemory : answer.memory = some row)
    (hfresh : answer.idempotentReplay = false) (s : Store) :
    EndsAt (Logged row s) (pure answer : Service CommitAnswer) s :=
  ⟨answer, s, rfl, hmemory, hfresh, Std.Refl.refl s⟩

/-- One more entry in a log. -/
theorem Logged.bind {row : MemoryRow} {α : Type} {m : Service α} {f : α → Service CommitAnswer}
    (hreturns : Returns m) (hquiet : Moves Quiet m) (hf : ∀ a u, EndsAt (Logged row u) (f a) u)
    (s : Store) : EndsAt (Logged row s) (m >>= f) s := by
  refine (hreturns.endsAt hquiet s).bind fun a u _ hentry => ?_
  obtain ⟨answer, t, hrun, hmemory, hfresh, hrest⟩ := hf a u
  exact ⟨answer, t, hrun, hmemory, hfresh, IsTrans.trans _ _ _ hentry hrest⟩

theorem Logged.event {row : MemoryRow} {eventType memoryId : String} {actor : Actor}
    {f : Unit → Service CommitAnswer} (hf : ∀ a u, EndsAt (Logged row u) (f a) u) (s : Store) :
    EndsAt (Logged row s) (appendMemoryEvent env eventType actor memoryId >>= f) s :=
  Logged.bind (returns_appendMemoryEvent _ _ _) (quiet_appendMemoryEvent env _ _ _) hf s

theorem Logged.revision {row : MemoryRow} {revision : RevisionRow}
    {f : Unit → Service CommitAnswer} (hf : ∀ a u, EndsAt (Logged row u) (f a) u) (s : Store) :
    EndsAt (Logged row s) (appendRevision revision >>= f) s :=
  Logged.bind (returns_appendRevision _) (quiet_appendRevision _) hf s

theorem breaksAt_of_returns {α β : Type} {m : Service α} {f : α → Service β} (hm : Returns m)
    (hf : ∀ a u, BreaksAt ServiceError.FromStore (f a) u) (s : Store) :
    BreaksAt ServiceError.FromStore (m >>= f) s := by
  obtain ⟨a, u, hrun⟩ := hm s
  obtain ⟨e, t, hbreak, he⟩ := hf a u
  exact ⟨e, t, run_bind_error.mpr (.inr ⟨a, u, hrun, hbreak⟩), he⟩

/-- The steps after an insertion: the embedding, then entries in the logs. -/
theorem answersWith {row : MemoryRow} {m : Service CommitAnswer}
    (hlogs : ∀ u, EndsAt (Logged row u) m u) (v : Store) :
    EndsAt (AnswersWith row v) (attachMemoryEmbedding env row >>= fun _ => m) v := by
  have hattach : EndsAt (fun _ t => Resigned row.id v t) (attachMemoryEmbedding env row) v :=
    (returns_attachMemoryEmbedding row).endsAt (resigned_attachMemoryEmbedding row) v
  refine hattach.bind fun _ u _ hresigned => ?_
  obtain ⟨answer, t, hrun, hmemory, hfresh, hquiet⟩ := hlogs u
  exact ⟨answer, t, hrun, hmemory, hfresh, IsTrans.trans _ _ _ hresigned hquiet.resigned⟩

theorem reaches_createConfirmation (hrequest : KeyedRequest request key)
    {decision : MemoryCommitPolicyDecision}
    (hclock : plusOneDay (env.clock.read s.ticks) ≠ none) :
    Reaches env identity request key True s
      (createConfirmation env identity request decision) := by
  obtain ⟨expiresAt, hexpires⟩ := Option.ne_none_iff_exists'.mp hclock
  rw [createConfirmation, memoryKeySuffix_keyed hrequest]
  refine .after rfl (quiet_tick s) (.after rfl (quiet_tick _) ?_)
  refine .after (run_orRaise_ok.mpr ⟨hexpires, rfl⟩) (Std.Refl.refl _) ?_
  refine .after rfl (Std.Refl.refl _) (.insert ?_ (fun _ row => answersWith ?_) ?_)
  · exact hrequest.memory rfl rfl rfl rfl rfl rfl
  · exact Logged.revision fun _ => Logged.event fun _ => Logged.pure rfl rfl
  · exact fun hnot => absurd trivial hnot

theorem reaches_createReviewCandidate (hrequest : KeyedRequest request key)
    {decision : MemoryCommitPolicyDecision} :
    Reaches env identity request key True s
      (createReviewCandidate env identity request decision) := by
  rw [createReviewCandidate, memoryKeySuffix_keyed hrequest]
  refine .after rfl (quiet_tick s) (.after rfl (Std.Refl.refl _) ?_)
  refine .insert ?_ (fun _ row => answersWith ?_) fun hnot => absurd trivial hnot
  · exact hrequest.memory rfl rfl rfl rfl rfl rfl
  · exact Logged.revision fun _ => Logged.event fun _ => Logged.event fun _ => Logged.pure rfl rfl

/-- A commit in this mode is an insert under the key, and what follows answers with the
row if the sources of the request exist, and fails in the store if not. -/
theorem reaches_createCommittedMemory (hrequest : KeyedRequest request key)
    {decision : MemoryCommitPolicyDecision} :
    Reaches env identity request key (SourcesExist env request) s
      (createCommittedMemory env identity request decision) := by
  rw [createCommittedMemory, memoryKeySuffix_keyed hrequest]
  refine .after rfl (quiet_tick s) (.after rfl (Std.Refl.refl _) ?_)
  refine .insert ?_ (fun hsources row => answersWith ?_) fun hmissing row v => ?_
  · exact hrequest.memory rfl rfl rfl rfl rfl rfl
  · have hlinks : ∀ events, Returns (appendDerivedEvents env events (actorOf identity) row.id) :=
      fun events => Returns.forM (fun _ => returns_appendMemoryEvent _ _ _) events
    refine Logged.revision fun _ => Logged.bind (returns_createProvenanceLinks hsources row)
      (quiet_createProvenanceLinks _ _) fun _ =>
      Logged.bind (hlinks _) (quiet_appendDerivedEvents env _ _ _) fun _ => Logged.event fun _ => ?_
    -- the entries of a promotion
    split
    · refine Logged.event fun _ => ?_
      split
      · exact Logged.event fun _ => Logged.pure rfl rfl
      · exact Logged.pure rfl rfl
    · exact Logged.pure rfl rfl
  · -- the links come right after the embedding and the revision
    exact breaksAt_of_returns (returns_attachMemoryEmbedding row) (fun _ =>
      breaksAt_of_returns (returns_appendRevision _) fun _ u =>
        (breaks_createProvenanceLinks hmissing row u).bind) v

end Insert

/-! ### What becomes of the key -/

section Commit

variable (env : Env) (identity : Option AgentIdentity) (s : Store)
  (request : MemoryCommitRequest) (key : String)

/-- The policy lets the commit through: to the row that carries the key, or past
the write gate. A pending confirmation must expire within the calendar. -/
def CommitAdmitted : Prop :=
  match s.idempotentMemory request.idempotencyKey with
  | some existing => MayWrite env identity "memory.commit" existing
  | none => ∃ decision t, (evaluatePolicy env identity request).run s = .ok decision t ∧
      decision.writeMode ≠ .reject ∧
      (decision.writeMode = .confirmInline → plusOneDay (env.clock.read t.ticks) ≠ none)

/-- The commit is let through, no row that is not deleted carries the key, and
the insertion finds it taken. -/
def Bricked : Prop :=
  CommitAdmitted env identity s request ∧ s.byCommitDigest key = none ∧ s.KeyTaken request key

/-- The commit is let through to write a fact, no row that is not deleted
carries the key, and it refers to a source that does not exist. -/
def Unsourced : Prop :=
  s.byCommitDigest key = none ∧ ¬ SourcesExist env request ∧
    ∃ decision t, (evaluatePolicy env identity request).run s = .ok decision t ∧
      decision.writeMode = .commit

end Commit

/-- What a commit that is answered from an earlier one answers and leaves. -/
structure Replayed (key : String) (s : Store) (answer : CommitAnswer) (t : Store) : Prop where
  replay : answer.idempotentReplay = true
  row : ∃ row, answer.memory = some row ∧ s.getMemory row.id = some row ∧
    row.commitDigest = some key
  memories : t.memories = s.memories

/-- The refusal of a key that was used for another request. -/
def keyRefused : ServiceError :=
  .validation "idempotency_key was already used for a different memory request"

/-- What a commit under a key may come to. It raises nothing out of the store;
and if it is let through, it inserts a row, is answered from the row that
carries the key, or refuses the key. -/
structure KeyHonoured (env : Env) (identity : Option AgentIdentity) (s : Store)
    (request : MemoryCommitRequest) (key : String) : Prop where
  no_store_error : ∀ e t, (commit env identity request).run s = .error e t → ¬ e.FromStore
  outcome : CommitAdmitted env identity s request →
    EndsAt (fun answer t => Created key s answer t ∨ Replayed key s answer t)
      (commit env identity request) s ∨
    ∃ t, (commit env identity request).run s = .error keyRefused t ∧ t.memories = s.memories

section Outcomes

variable {request : MemoryCommitRequest} {key : String}

theorem run_commit_of_some (env : Env) (identity : Option AgentIdentity) {existing : MemoryRow}
    (hkey : s.idempotentMemory request.idempotencyKey = some existing) :
    (commit env identity request).run s =
      (idempotentReplay env existing request identity).run s := by
  refine (run_bind_of_ok (run_get_ok.mpr ⟨rfl, rfl⟩)).trans ?_
  rw [hkey]

/-- What an insertion path signals is no replay. -/
theorem run_commit_of_none (identity : Option AgentIdentity)
    {decision : MemoryCommitPolicyDecision} {u : Store}
    (hkey : s.idempotentMemory request.idempotencyKey = none)
    (hdecision : (evaluatePolicy env identity request).run s = .ok decision u)
    (hmode : decision.writeMode ≠ .reject) :
    (commit env identity request).run s = (createByMode env identity request decision).run u := by
  -- evaluating the policy writes no row, so the key is still free
  have hnone : u.idempotentMemory request.idempotencyKey = none :=
    (((quiet_evaluatePolicy _).ok hdecision).idempotentMemory _).trans hkey
  refine (run_bind_of_ok (run_get_ok.mpr ⟨rfl, rfl⟩)).trans ?_
  rw [hkey]
  refine (run_bind_of_ok hdecision).trans ?_
  rw [if_neg hmode, run_catching]
  cases hcreate : (createByMode env identity request decision).run u with
  | ok answer t => rfl
  | error e t =>
    have hsignal := createByMode_raises hnone e t hcreate
    dsimp only
    split
    · next row => exact absurd rfl (hsignal row)
    · rfl

/-- The row the lookup finds carries the digest. -/
theorem commitDigest_of_byCommitDigest {row : MemoryRow} (h : s.byCommitDigest key = some row) :
    row.commitDigest = some key := by
  obtain ⟨-, hcond⟩ := List.mem_filter.mp (mem_of_latest h)
  simpa using (Bool.and_eq_true_iff.mp hcond).2

/-- A replay is refused by the policy, or because of the key. -/
theorem idempotentReplay_error {existing : MemoryRow} {e : ServiceError}
    (h : (idempotentReplay env existing request identity).run s = .error e t) :
    e = keyRefused ∨ (¬ MayWrite env identity "memory.commit" existing ∧ ¬ e.FromStore) := by
  rcases run_bind_error.mp h with hpolicy | ⟨decision, u, hpolicy, hrest⟩
  · refine .inr ⟨fun hmay => ?_, ?_⟩
    · obtain ⟨decision, u, hok⟩ := policyCheckedWrite_returns env hmay s
      rw [hok] at hpolicy
      exact absurd hpolicy (by simp)
    · -- what the policy check raises is no error of the store
      have hblocked : RaisesAt (fun e => ¬ e.FromStore)
          (policyCheckedWrite env identity "memory.commit" existing) s := by
        have hid : Returns (newId env) := Returns.modifyGet _
        refine ((returns_upsertIdentity env _).raisesAt s).bind fun _ s₁ _ =>
          (hid.raisesAt s₁).bind fun traceId s₂ _ =>
          ((returns_appendPolicyEvents env _ _ _ _).raisesAt s₂).bind fun _ s₃ _ => ?_
        refine RaisesAt.bind ?_ fun _ s₄ _ => (Returns.pure _).raisesAt s₄
        intro e t hraise
        obtain ⟨-, rfl, -⟩ := run_raiseIf_error.mp hraise
        exact not_false
      exact hblocked e t hpolicy
  · rcases run_bind_error.mp hrest with hmismatch | ⟨_, v, -, hpure⟩
    · obtain ⟨-, rfl, -⟩ := run_raiseIf_error.mp hmismatch
      exact .inl rfl
    · exact (run_pure_error.mp hpure).elim

/-- The write gate raises nothing out of the store. -/
theorem evaluatePolicy_raises (request : MemoryCommitRequest) (s : Store) :
    RaisesAt (fun e => ¬ e.FromStore) (evaluatePolicy env identity request) s := by
  have hid : Returns (newId env) := Returns.modifyGet _
  refine ((returns_upsertIdentity env _).raisesAt s).bind fun _ s₁ _ =>
    (hid.raisesAt s₁).bind fun traceId s₂ _ =>
    ((returns_appendPolicyEvents env _ _ _ _).raisesAt s₂).bind fun _ s₃ _ => ?_
  -- with and without promotion settings: the decision is returned, or its error raised
  split <;> dsimp only
  all_goals
    split
    · exact (Returns.pure _).raisesAt s₃
    · intro e' t h
      obtain ⟨rfl, -⟩ := run_throw_error.mp h
      exact not_false

/-- A row carries the key, and the commit is answered from it or refused. -/
theorem keyHonoured_of_some {existing : MemoryRow}
    (hrequest : KeyedRequest request key) (hkey : s.byCommitDigest key = some existing) :
    KeyHonoured env identity s request key := by
  have hfound : s.idempotentMemory request.idempotencyKey = some existing := by
    rw [hrequest.idempotencyKey]
    exact hkey
  have hrow : s.getMemory existing.id = some existing := getMemory_of_idempotentMemory hfound
  have hcommit := run_commit_of_some env identity hfound
  refine ⟨fun e t herror => ?_, fun hadmitted => ?_⟩
  · rw [hcommit] at herror
    rcases idempotentReplay_error herror with rfl | ⟨-, hkind⟩
    · exact not_false
    · exact hkind
  · rw [CommitAdmitted, hfound] at hadmitted
    -- the replay answers with the row, or refuses the request as another one
    cases hrun : (idempotentReplay env existing request identity).run s with
    | ok answer t =>
      obtain ⟨-, -, hmemory, -⟩ := idempotentReplay_ok hrun
      have hreplay : answer.idempotentReplay = true := by
        simp only [idempotentReplay, run_bind_ok, run_pure_ok] at hrun
        obtain ⟨_, _, -, _, _, -, rfl, -⟩ := hrun
        rfl
      exact .inl ⟨answer, t, hcommit.trans hrun, .inr ⟨hreplay,
        ⟨existing, hmemory, hrow, commitDigest_of_byCommitDigest hkey⟩,
        ((quiet_idempotentReplay _ _).ok hrun).memories⟩⟩
    | error e t =>
      rcases idempotentReplay_error hrun with rfl | ⟨hdenied, -⟩
      · exact .inr ⟨t, hcommit.trans hrun, ((quiet_idempotentReplay _ _ s).error hrun).memories⟩
      · exact absurd hadmitted hdenied

/-- What a commit past the write gate needs of the sources: a fact is linked to
those it refers to. -/
def SourcesFit (env : Env) (request : MemoryCommitRequest)
    (decision : MemoryCommitPolicyDecision) : Prop :=
  decision.writeMode = .commit → SourcesExist env request

theorem Reaches.congr {sourced sourced' : Prop} (hiff : sourced ↔ sourced')
    {m : Service CommitAnswer} (h : Reaches env identity request key sourced s m) :
    Reaches env identity request key sourced' s m :=
  propext hiff ▸ h

/-- Past the write gate, a commit comes to its insertion. -/
theorem reaches_createByMode (identity : Option AgentIdentity) (hrequest : KeyedRequest request key)
    {decision : MemoryCommitPolicyDecision} (hmode : decision.writeMode ≠ .reject)
    (hclock : decision.writeMode = .confirmInline → plusOneDay (env.clock.read s.ticks) ≠ none) :
    Reaches env identity request key (SourcesFit env request decision) s
      (createByMode env identity request decision) := by
  unfold createByMode SourcesFit
  cases hwrite : decision.writeMode with
  | confirmInline =>
    exact (reaches_createConfirmation hrequest (hclock hwrite)).congr (by simp)
  | proposeReview => exact (reaches_createReviewCandidate hrequest).congr (by simp)
  | commit => exact (reaches_createCommittedMemory hrequest).congr (by simp)
  | reject => exact absurd hwrite hmode

/-- A confirmation that would expire after the end of the calendar is not
inserted. -/
theorem createByMode_overflows (identity : Option AgentIdentity) (request : MemoryCommitRequest)
    {decision : MemoryCommitPolicyDecision}
    (hmode : decision.writeMode = .confirmInline)
    (hclock : plusOneDay (env.clock.read s.ticks) = none) :
    ∃ t, (createByMode env identity request decision).run s =
      .error (.python "OverflowError") t := by
  rw [createByMode, hmode]
  refine ⟨{ s with ticks := s.ticks + 1 + 1 }, run_bind_error.mpr (.inr ⟨_, _, rfl, ?_⟩)⟩
  refine run_bind_error.mpr (.inr ⟨_, _, rfl, run_bind_error.mpr (.inl ?_)⟩)
  exact run_orRaise_error.mpr ⟨hclock, rfl, rfl⟩

/-- No row carries the key as far as the lookup sees. -/
theorem keyHonoured_iff_of_none (hrequest : KeyedRequest request key)
    (hsound : s.KeysSound env.uuid) (hfresh : Function.Injective env.uuid)
    (hkey : s.byCommitDigest key = none) :
    KeyHonoured env identity s request key ↔
      ¬ Bricked env identity s request key ∧ ¬ Unsourced env identity s request key := by
  have hnone : s.idempotentMemory request.idempotencyKey = none := by
    rw [hrequest.idempotencyKey]
    exact hkey
  have hunfree : ∀ {u : Store}, Quiet s u → (u.KeyTaken request key ↔ s.KeyTaken request key) := by
    intro u hquiet
    rw [Store.KeyTaken, Store.KeyTaken, hquiet.memories]
  constructor
  · intro hhonoured
    -- the insertion fails in the store
    have hbricked : ¬ Bricked env identity s request key := by
      rintro ⟨hadmitted, -, htaken⟩
      rw [CommitAdmitted, hnone] at hadmitted
      obtain ⟨decision, u, hdecision, hmode, hclock⟩ := hadmitted
      have hquiet : Quiet s u := (quiet_evaluatePolicy _).ok hdecision
      have hnone' := (hquiet.idempotentMemory request.idempotencyKey).trans hnone
      obtain ⟨e, t, hrun, hstore⟩ := (reaches_createByMode identity hrequest hmode hclock).breaks
        hnone' ((hunfree hquiet).mpr htaken)
      exact hhonoured.no_store_error e t
        ((run_commit_of_none identity hnone hdecision hmode).trans hrun) hstore
    refine ⟨hbricked, ?_⟩
    -- the insertion succeeds, and the link after it fails
    rintro ⟨-, hmissing, decision, u, hdecision, hwrite⟩
    have hquiet : Quiet s u := (quiet_evaluatePolicy _).ok hdecision
    have hmode : decision.writeMode ≠ .reject := by
      rw [hwrite]
      decide
    have hclock : decision.writeMode = .confirmInline →
        plusOneDay (env.clock.read u.ticks) ≠ none := by
      rw [hwrite]
      nofun
    have hfree : ¬ u.KeyTaken request key := by
      intro htaken
      refine hbricked ⟨?_, hkey, (hunfree hquiet).mp htaken⟩
      rw [CommitAdmitted, hnone]
      exact ⟨decision, u, hdecision, hmode, hclock⟩
    obtain ⟨e, t, hrun, hstore⟩ :=
      (reaches_createByMode identity hrequest hmode hclock).breaks_unsourced
        (fun hfit => hmissing (hfit hwrite)) (hquiet.keepsKeys env.uuid hsound) hfresh hfree
    exact hhonoured.no_store_error e t
      ((run_commit_of_none identity hnone hdecision hmode).trans hrun) hstore
  · rintro ⟨hfree, hsourced⟩
    -- the gate lets the commit through with this decision, if it does
    have hadmitted : ∀ {decision : MemoryCommitPolicyDecision} {u : Store},
        (evaluatePolicy env identity request).run s = .ok decision u →
        CommitAdmitted env identity s request → decision.writeMode ≠ .reject ∧
          (decision.writeMode = .confirmInline → plusOneDay (env.clock.read u.ticks) ≠ none) := by
      intro decision u hdecision hadmitted
      rw [CommitAdmitted, hnone] at hadmitted
      obtain ⟨decision', u', hdecision', hcond⟩ := hadmitted
      obtain ⟨rfl, rfl⟩ := EStateM.Result.ok.inj (hdecision'.symm.trans hdecision)
      exact hcond
    cases hdecision : (evaluatePolicy env identity request).run s with
    | error e u =>
      have hcommit : (commit env identity request).run s = .error e u := by
        refine (run_bind_of_ok (run_get_ok.mpr ⟨rfl, rfl⟩)).trans ?_
        rw [hnone]
        exact run_bind_error.mpr (.inl hdecision)
      refine ⟨fun e' t herror => ?_, fun hadmitted => ?_⟩
      · obtain ⟨rfl, -⟩ := EStateM.Result.error.inj (hcommit.symm.trans herror)
        exact evaluatePolicy_raises request s e u hdecision
      · rw [CommitAdmitted, hnone] at hadmitted
        obtain ⟨decision, u', hok, -⟩ := hadmitted
        rw [hdecision] at hok
        exact absurd hok (by simp)
    | ok decision u =>
      by_cases hmode : decision.writeMode = .reject
      · refine ⟨fun e t herror => ?_, fun h => absurd hmode (hadmitted hdecision h).1⟩
        -- a rejected commit is answered
        obtain ⟨_, v, hevent⟩ := returns_appendEvent env "agent.memory_commit_rejected"
          (actorOf identity) (some "memory") none u
        have hcommit : (commit env identity request).run s = .ok (rejectedAnswer decision) v := by
          refine (run_bind_of_ok (run_get_ok.mpr ⟨rfl, rfl⟩)).trans ?_
          rw [hnone]
          refine (run_bind_of_ok hdecision).trans ?_
          rw [if_pos hmode]
          exact run_bind_ok.mpr ⟨_, v, hevent, rfl⟩
        rw [hcommit] at herror
        exact absurd herror (by simp)
      have hcommit := run_commit_of_none identity hnone hdecision hmode
      have hquiet : Quiet s u := (quiet_evaluatePolicy _).ok hdecision
      by_cases hclock : decision.writeMode = .confirmInline →
          plusOneDay (env.clock.read u.ticks) ≠ none
      · have hletThrough : CommitAdmitted env identity s request := by
          rw [CommitAdmitted, hnone]
          exact ⟨decision, u, hdecision, hmode, hclock⟩
        have hfree' : ¬ u.KeyTaken request key := fun htaken =>
          hfree ⟨hletThrough, hkey, (hunfree hquiet).mp htaken⟩
        have hfit : SourcesFit env request decision := fun hwrite => by
          by_contra hmissing
          exact hsourced ⟨hkey, hmissing, decision, u, hdecision, hwrite⟩
        obtain ⟨answer, t, hrun, hreplay, hcreated⟩ := (reaches_createByMode identity hrequest
          hmode hclock).ends hfit (hquiet.keepsKeys env.uuid hsound) hfresh hfree'
        rw [hquiet.memories] at hcreated
        have hrun' := hcommit.trans hrun
        refine ⟨fun e v herror => ?_, fun _ => .inl ⟨answer, t, hrun', .inl ⟨hreplay, hcreated⟩⟩⟩
        rw [hrun'] at herror
        exact absurd herror (by simp)
      · refine ⟨fun e t herror => ?_, fun h => absurd (hadmitted hdecision h).2 hclock⟩
        obtain ⟨hinline, hnever⟩ := Classical.not_imp.mp hclock
        obtain ⟨v, hrun⟩ := createByMode_overflows identity request hinline
          (not_not.mp hnever)
        obtain ⟨rfl, -⟩ := EStateM.Result.error.inj ((hcommit.trans hrun).symm.trans herror)
        exact not_false

end Outcomes

theorem Env.plain_fresh : Function.Injective Env.plain.uuid := by
  intro m n h
  have hlength : (Env.plain.uuid m).length = (Env.plain.uuid n).length := congrArg String.length h
  simpa [Env.plain] using hlength

theorem keyedFact_keyed : KeyedRequest keyedFact "k1" where
  idempotencyKey := rfl
  nonempty := by decide
  memoryType := by decide
  domain := by decide
  sensitivity := by decide
  confidence := by decide +kernel

/-- The store after some calls, from the empty one. -/
def Store.after (history : List StoreCall) : Store :=
  history.foldl (fun s call => call.transact s) { memories := default }

theorem storeHistory_after {uuid : Nat → String} {history : List StoreCall}
    (henv : ∀ call ∈ history, call.env.uuid = uuid) :
    StoreHistory uuid history (Store.after history) := by
  induction history using List.reverseRecOn with
  | nil => exact .start rfl
  | append_singleton history call ih =>
    rw [Store.after, List.foldl_append]
    refine .next (ih fun c hc => henv c (List.mem_append_left _ hc)) ⟨henv call ?_, rfl⟩
    exact List.mem_append_right _ List.mem_cons_self

/-- A fact is committed under a key, and a review archives it. -/
def archivedFact : List StoreCall :=
  [.service ⟨.plain, none, .commit keyedFact⟩,
    .review .plain "ii" { status := some .archived } ⟨"user", none⟩]

theorem archivedFact_history :
    StoreHistory Env.plain.uuid archivedFact (Store.after archivedFact) := by
  refine storeHistory_after fun call hcall => ?_
  simp only [archivedFact, List.mem_cons, List.not_mem_nil, or_false] at hcall
  rcases hcall with rfl | rfl <;> rfl

/-- The same fact without a key: its `memory_key` ends in the identifier drawn
for it. -/
def unkeyedFact : MemoryCommitRequest := { keyedFact with idempotencyKey := none }

/-- So does that of a commit under this identifier as its key, which then finds
it taken by a row that is not deleted. -/
example : (match (commit .plain none { keyedFact with idempotencyKey := some "ii" }).run
    (Store.after [.service ⟨.plain, none, .commit unkeyedFact⟩]) with
    | .error .integrity _ => true
    | _ => false) = true := by
  decide +kernel

/-- And so does a commit under a fresh key that refers to an unknown source. -/
example : (match (commit .plain none { keyedFact with
      sourceRefs := [.str "source:00000000-0000-4000-8000-000000000000"] }).run
    { memories := default } with
    | .error .integrity _ => true
    | _ => false) = true := by
  decide +kernel

end AliceBot
