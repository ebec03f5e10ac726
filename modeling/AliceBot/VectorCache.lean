import AliceBot.Library.StampedCache
import AliceBot.Library.Table
import AliceBot.VectorSearch

/-!
# The resident vector cache

The vectors of a user stay in the memory of the process, as a matrix and the position of each
row in it, and are used again as long as the stamp in the database is the one they were read
at. The stamp is replaced where a stored vector is changed or destroyed
(`VectorWrite.written`), and stays where a row gets its first vector: a row that is not
in the cache is read when a query first asks for it.

A query is several statements, and the database can be another one at each of them.
`VectorQuery.advance` is one statement of `cached_vector_ranked`; what it leaves in the cache
and in hand comes from the cache as it was or from the database it ran on
(`VectorQuery.advance_sound`).
-/

namespace AliceBot

open PyLib

variable {κ ν : Type}

/-! ### Rows and writes -/

/-- A row of the user in `memories`: `live` where `deleted_at` is null, and the columns that
the statements on vectors do not name. -/
structure EmbeddedMemory (κ ν : Type) where
  id : String
  live : Bool
  embedding : Option ν
  columns : κ

/-- The memories of a user, and the token in `embedding_stamp` if the file has one. -/
structure VectorDb (κ ν : Type) where
  memories : Table fun m : EmbeddedMemory κ ν => m.id
  token : Option String

namespace VectorDb

/-- The vector stored for a row, deleted or not. -/
def find (db : VectorDb κ ν) (id : String) : Option ν := (db.memories.get? id).bind (·.embedding)

def vectors (db : VectorDb κ ν) : Stamped String String ν := ⟨db.token, db.find⟩

@[simp] theorem vectors_stamp (db : VectorDb κ ν) : db.vectors.stamp = db.token := rfl

@[simp] theorem vectors_find (db : VectorDb κ ν) : db.vectors.find = db.find := rfl

/-- `bump_embedding_stamp`, with the new `uuid4().hex`. -/
def bumpEmbeddingStamp (fresh : String) (db : VectorDb κ ν) : VectorDb κ ν :=
  { db with token := db.token.map fun _ => fresh }

/-- `_EMBEDDING_PRESENT_SQL`. -/
def embeddingPresent (db : VectorDb κ ν) (memoryId : String) : Bool :=
  (db.memories.get? memoryId).any fun m => m.live && m.embedding.isSome

/-- An `UPDATE` of one row; `none` where no row is updated. -/
def update? (db : VectorDb κ ν) (memoryId : String) (guard : EmbeddedMemory κ ν → Bool)
    (f : Rewrite fun m : EmbeddedMemory κ ν => m.id) : Option (VectorDb κ ν) :=
  (db.memories.updateWhere? memoryId guard f).map fun (memories, _) => { db with memories }

end VectorDb

/-- What is recorded beside a vector under `EMBEDDING_SIGNATURE_METADATA_KEY`. -/
structure EmbeddingSignature where
  version : Int
  provider : String
  model : String
  endpoint : String
  contentSha256 : String

/-- The keyword arguments of `update_memory_embedding` that sign the vector. -/
structure SignatureRequest where
  provider : Option String
  model : Option String
  endpoint : Option String
  contentSha256 : Option String
  signatureVersion : Int

/-- A `ContinuityStoreInvariantError` of `update_memory_embedding`. -/
inductive EmbeddingError where
  | emptyVector
  | signatureIncomplete
deriving DecidableEq

def EmbeddingError.message : EmbeddingError → String
  | .emptyVector => "embedding vectors must not be empty"
  | .signatureIncomplete =>
    "embedding provider, model, and content_sha256 must be supplied together"

/-- The signature, if one is asked for: all its parts or none. -/
def SignatureRequest.signature (request : SignatureRequest) :
    Except EmbeddingError (Option EmbeddingSignature) :=
  if request.provider.isNone && request.model.isNone && request.contentSha256.isNone then .ok none
  else
    match request.provider, request.model, request.contentSha256 with
    | some provider, some model, some contentSha256 =>
      if provider ≠ "" ∧ model ≠ "" ∧ contentSha256 ≠ "" then
        .ok (some
          { version := request.signatureVersion, provider, model,
            endpoint := request.endpoint.getD "", contentSha256 })
      else .error .signatureIncomplete
    | _, _, _ => .error .signatureIncomplete

/-- The vectors as they are stored, and what the writes read from the other columns and put
there. -/
structure EmbeddingEnv (κ ν : Type) where
  blob : List Rat → ν
  contentSha256 : κ → String
  updatedAt : κ → String
  sign : EmbeddingSignature → κ → κ
  unsign : κ → κ
  redact : String → κ → κ
  redacted : String → κ → Bool

section Writes

variable (env : EmbeddingEnv κ ν)

/-- `SET embedding = ?`, with the signature if there is one. -/
def embed (blob : ν) (signature : Option EmbeddingSignature) :
    Rewrite fun m : EmbeddedMemory κ ν => m.id where
  apply m :=
    { m with
      embedding := some blob
      columns := signature.elim m.columns fun signature => env.sign signature m.columns }

/-- `update_memory_embedding`; `none` where it returns `None`. A signed vector is stored only
beside the text it was computed from. -/
def VectorDb.updateMemoryEmbedding (memoryId : String) (vector : List Rat)
    (request : SignatureRequest) (fresh : String) (db : VectorDb κ ν) :
    Except EmbeddingError (Option (VectorDb κ ν)) :=
  if vector = [] then .error .emptyVector
  else
    request.signature.map fun signature =>
      (db.update? memoryId
        (fun m => m.live &&
          signature.all fun signature => env.contentSha256 m.columns = signature.contentSha256)
        (embed env (env.blob vector) signature)).map fun updated =>
          if db.embeddingPresent memoryId then updated.bumpEmbeddingStamp fresh else updated

/-- `SET embedding = NULL`, without the signature. -/
def unembed : Rewrite fun m : EmbeddedMemory κ ν => m.id where
  apply m := { m with embedding := none, columns := env.unsign m.columns }

/-- `clear_memory_embedding`; `none` where it returns `None`. -/
def VectorDb.clearMemoryEmbedding (memoryId : String) (fresh : String) (db : VectorDb κ ν) :
    Option (VectorDb κ ν) :=
  (db.update? memoryId (fun m => m.live) (unembed env)).map fun updated =>
    if db.embeddingPresent memoryId then updated.bumpEmbeddingStamp fresh else updated

/-- What a redaction leaves of a row. -/
def scrub (now : String) : Rewrite fun m : EmbeddedMemory κ ν => m.id where
  apply m := { m with live := false, embedding := none, columns := env.redact now m.columns }

/-- The update of the row in `redact_memory_content`, also of a deleted one. -/
def VectorDb.redactMemoryContent (now memoryId fresh : String) (db : VectorDb κ ν) :
    Option (VectorDb κ ν) :=
  (db.update? memoryId (fun _ => true) (scrub env now)).map fun updated =>
    if (db.find memoryId).isSome then updated.bumpEmbeddingStamp fresh else updated

/-- The update of the row in `redact_memory_bundle`: a row that is already scrubbed stays. -/
def VectorDb.redactMemoryBundle (now memoryId fresh : String) (db : VectorDb κ ν) : VectorDb κ ν :=
  let updated := (db.update? memoryId
    (fun m => m.live || m.embedding.isSome || !env.redacted now m.columns)
    (scrub env now)).getD db
  if (db.find memoryId).isSome then updated.bumpEmbeddingStamp fresh else updated

/-- What a transaction can do to the vectors and the stamp. Another user's write replaces the
stamp they share; the other statements name neither. -/
inductive VectorWrite (fresh : String) (db : VectorDb κ ν) : VectorDb κ ν → Prop where
  | embedded {memoryId vector request updated}
      (h : VectorDb.updateMemoryEmbedding env memoryId vector request fresh db =
        .ok (some updated)) :
      VectorWrite fresh db updated
  | cleared {memoryId updated}
      (h : VectorDb.clearMemoryEmbedding env memoryId fresh db = some updated) :
      VectorWrite fresh db updated
  | redacted {now memoryId updated}
      (h : VectorDb.redactMemoryContent env now memoryId fresh db = some updated) :
      VectorWrite fresh db updated
  | bundled (now memoryId : String) :
      VectorWrite fresh db (VectorDb.redactMemoryBundle env now memoryId fresh db)
  | anotherUser : VectorWrite fresh db (db.bumpEmbeddingStamp fresh)
  | elsewhere {updated : VectorDb κ ν} (htoken : updated.token = db.token)
      (hfind : updated.find = db.find) : VectorWrite fresh db updated

end Writes

section WriteLaws

variable {env : EmbeddingEnv κ ν} {db updated : VectorDb κ ν} {memoryId fresh : String}
  {guard : EmbeddedMemory κ ν → Bool} {f : Rewrite fun m : EmbeddedMemory κ ν => m.id}

theorem VectorDb.update?_eq_some (h : db.update? memoryId guard f = some updated) :
    updated.token = db.token ∧
      ∃ m, db.memories.get? memoryId = some m ∧ guard m = true ∧
        ∀ id, updated.find id = if memoryId = id then (f.apply m).embedding else db.find id := by
  unfold VectorDb.update? at h
  obtain ⟨⟨memories, m'⟩, hupdate, rfl⟩ := Option.map_eq_some_iff.mp h
  obtain ⟨m, hm, hguard, rfl, -⟩ := Table.updateWhere?_eq_some_iff.mp hupdate
  refine ⟨rfl, m, hm, hguard, fun id => ?_⟩
  unfold VectorDb.find
  rw [Table.get?_rewrite]
  split
  · next hid =>
    subst hid
    rw [hm]
    rfl
  · rfl

/-- A statement that writes one row keeps the vectors if the row had none. -/
theorem VectorDb.written_update (h : db.update? memoryId guard f = some updated)
    (hnone : db.find memoryId = none) : db.vectors.Written fresh updated.vectors := by
  obtain ⟨htoken, m, -, -, hfind⟩ := VectorDb.update?_eq_some h
  refine .inl ⟨htoken, fun id v hv => ?_⟩
  rw [VectorDb.vectors_find] at hv ⊢
  rw [hfind id]
  split
  · next hid =>
    rw [← hid, hnone] at hv
    cases hv
  · exact hv

theorem VectorDb.written_bump (db updated : VectorDb κ ν) (fresh : String) :
    db.vectors.Written fresh (updated.bumpEmbeddingStamp fresh).vectors := by
  refine .inr fun t ht => ?_
  obtain ⟨-, -, rfl⟩ := Option.map_eq_some_iff.mp ht
  rfl

theorem VectorDb.find_eq_none_of_live {m : EmbeddedMemory κ ν}
    (hm : db.memories.get? memoryId = some m) (hlive : m.live = true)
    (h : db.embeddingPresent memoryId = false) : db.find memoryId = none := by
  unfold VectorDb.embeddingPresent at h
  rw [hm, Option.any_some, hlive, Bool.true_and] at h
  unfold VectorDb.find
  rw [hm, Option.bind_some]
  exact Option.not_isSome_iff_eq_none.mp (by rw [h]; exact Bool.false_ne_true)

theorem VectorDb.written_present
    (h : db.update? memoryId guard f = some updated)
    (hguard : ∀ m, guard m = true → m.live = true) :
    db.vectors.Written fresh (if db.embeddingPresent memoryId
      then updated.bumpEmbeddingStamp fresh else updated).vectors := by
  split
  · exact VectorDb.written_bump ..
  · next habsent =>
    obtain ⟨-, m, hm, hm', -⟩ := VectorDb.update?_eq_some h
    exact VectorDb.written_update h (VectorDb.find_eq_none_of_live hm (hguard m hm')
      (Bool.eq_false_of_not_eq_true habsent))

/-- Whatever is written, a vector that was stored under the stamp is still stored under it. -/
theorem VectorWrite.written (h : VectorWrite env fresh db updated) :
    db.vectors.Written fresh updated.vectors := by
  cases h with
  | @embedded _ _ request _ h =>
    unfold VectorDb.updateMemoryEmbedding at h
    split at h
    · cases h
    · cases hsignature : request.signature with
      | error => rw [hsignature] at h; cases h
      | ok signature =>
        rw [hsignature] at h
        obtain ⟨row, hrow, rfl⟩ := Option.map_eq_some_iff.mp (Except.ok.inj h)
        exact VectorDb.written_present hrow fun m hm => (Bool.and_eq_true_iff.mp hm).1
  | cleared h =>
    obtain ⟨row, hrow, rfl⟩ := Option.map_eq_some_iff.mp h
    exact VectorDb.written_present hrow fun m hm => hm
  | redacted h =>
    -- a redaction stamps anew if it clears a vector
    obtain ⟨row, hrow, rfl⟩ := Option.map_eq_some_iff.mp h
    split
    · exact VectorDb.written_bump ..
    · next hnone => exact VectorDb.written_update hrow (Option.not_isSome_iff_eq_none.mp hnone)
  | bundled now memoryId =>
    unfold VectorDb.redactMemoryBundle
    dsimp only
    split
    · exact VectorDb.written_bump ..
    · next hnone =>
      cases hrow : db.update? memoryId
          (fun m => m.live || m.embedding.isSome || !env.redacted now m.columns)
          (scrub env now) with
      | none => exact .inl ⟨rfl, fun _ _ h => h⟩
      | some row => exact VectorDb.written_update hrow (Option.not_isSome_iff_eq_none.mp hnone)
  | anotherUser => exact VectorDb.written_bump ..
  | elsewhere htoken hfind =>
    -- other tables share neither the stamp nor the vectors
    refine .inl ⟨htoken, fun id v hv => ?_⟩
    rw [VectorDb.vectors_find, hfind]
    exact hv

end WriteLaws

/-! ### The entry in the registry -/

/-- A `_VectorCacheEntry`: the rows of the matrix, and the position of each id. Every row has
one id. -/
structure VectorCacheEntry (ν : Type) where
  token : Option String
  matrix : List ν
  rowIndex : List (String × Nat)
  placed : rowIndex.map Prod.snd = List.range matrix.length

namespace VectorCacheEntry

/-- The entry as it is created. -/
def empty : VectorCacheEntry ν := ⟨none, [], [], rfl⟩

/-- Rows put behind the matrix, at positions counted from its length. -/
def append (entry : VectorCacheEntry ν) (block : List (String × ν)) : VectorCacheEntry ν where
  token := entry.token
  matrix := entry.matrix ++ block.map Prod.snd
  rowIndex := entry.rowIndex ++ (block.map Prod.fst).zipIdx entry.matrix.length
  placed := by
    rw [List.map_append, entry.placed, List.zipIdx_map_snd, List.length_append, List.length_map,
      List.length_map, List.range_add, List.range'_eq_map_range]

/-- `candidate_id in entry.row_index`. -/
def holds (entry : VectorCacheEntry ν) (id : String) : Bool := (entry.rowIndex.lookup id).isSome

/-- The row of the matrix at the position of an id. -/
def vectorAt (entry : VectorCacheEntry ν) (id : String) : Option ν :=
  (entry.rowIndex.lookup id).bind fun position => entry.matrix[position]?

def vectors (entry : VectorCacheEntry ν) : Stamped String String ν := ⟨entry.token, entry.vectorAt⟩

@[simp] theorem vectors_stamp (entry : VectorCacheEntry ν) :
    entry.vectors.stamp = entry.token := rfl

@[simp] theorem vectors_find (entry : VectorCacheEntry ν) :
    entry.vectors.find = entry.vectorAt := rfl

@[simp] theorem append_token (entry : VectorCacheEntry ν) (block : List (String × ν)) :
    (entry.append block).token = entry.token := rfl

end VectorCacheEntry

/-! ### The statements of a query -/

/-- `_ROW_BYTES`. -/
def vectorRowBytes : Nat := 1536 * 4

/-- `_MAX_SQL_VARIABLES`. -/
def maxSqlVariables : Nat := 900

/-- `SELECT id, embedding FROM memories WHERE … deleted_at IS NULL AND embedding IS NOT NULL`. -/
def VectorDb.liveRows (db : VectorDb κ ν) : List (String × ν) :=
  db.memories.rows.filterMap fun m => if m.live then m.embedding.map fun v => (m.id, v) else none

/-- `_rebuild_entry`: at most as many rows as were counted before. -/
def rebuildEntry (token : String) (expectedRows : Nat) (db : VectorDb κ ν) :
    VectorCacheEntry ν :=
  { VectorCacheEntry.empty.append (db.liveRows.take expectedRows) with token := some token }

/-- The vectors of a batch of `_upsert_missing_rows`. -/
def fetchMissing (entry : VectorCacheEntry ν) (batch : List String) (db : VectorDb κ ν) :
    List (String × ν) :=
  db.liveRows.filter fun row => decide (row.1 ∈ batch) && !entry.holds row.1

/-- One query: its connection, the token it read, the rest of its `WHERE` clause, and the cap
on the matrix. -/
structure VectorQuery (κ : Type) where
  connection : Nat
  token : String
  predicate : κ → Bool
  maxBytes : Nat

/-- Where a query is between two of its statements, with what it has in hand. -/
inductive QueryPhase (ν : Type) where
  | validating
  | rebuilding (liveRows : Nat)
  | selecting (rebuilt : Bool)
  | recounting (candidates : List (String × String))
  | compacting (candidates : List (String × String)) (liveRows : Nat)
  | fetching (candidates : List (String × String)) (missing : List String)
      (block : List (String × ν))
  | serving (candidates : List (String × String))

section Query

variable (env : EmbeddingEnv κ ν)

/-- `_candidate_id_rows`: `(id, updated_at)`. -/
def candidateIdRows (predicate : κ → Bool) (db : VectorDb κ ν) : List (String × String) :=
  (db.memories.rows.filter fun m => m.live && m.embedding.isSome && predicate m.columns).map
    fun m => (m.id, env.updatedAt m.columns)

/-- The candidates that are not in the cache are read next, unless they do not fit. -/
def VectorQuery.missingPhase (query : VectorQuery κ) (entry : VectorCacheEntry ν)
    (candidates : List (String × String)) : Option (VectorCacheEntry ν × QueryPhase ν) :=
  let missing := (candidates.map Prod.fst).filter fun id => !entry.holds id
  if missing = [] then some (entry, .serving candidates)
  else if query.maxBytes < (entry.rowIndex.length + missing.length) * vectorRowBytes then none
  else some (entry, .fetching candidates missing [])

/-- The next statement of `cached_vector_ranked`; `none` where the entry is dropped, or where
there is no statement left. Fewer than half is `_COMPACT_LIVE_FRACTION`. -/
def VectorQuery.advance (query : VectorQuery κ) (db : VectorDb κ ν) (entry : VectorCacheEntry ν) :
    QueryPhase ν → Option (VectorCacheEntry ν × QueryPhase ν)
  | .validating =>
    -- the entry is of another version: it is rebuilt, unless the matrix would be too large
    if entry.token ≠ some query.token then
      if query.maxBytes < db.liveRows.length * vectorRowBytes then none
      else some (entry, .rebuilding db.liveRows.length)
    else if query.maxBytes < entry.matrix.length * vectorRowBytes then none
    else some (entry, .selecting false)
  | .rebuilding liveRows => some (rebuildEntry query.token liveRows db, .selecting true)
  | .selecting rebuilt =>
    let candidates := candidateIdRows env query.predicate db
    -- the candidates are fewer than half of the entry, so the live rows are counted again
    if !rebuilt && entry.rowIndex ≠ [] && 2 * candidates.length < entry.rowIndex.length then
      some (entry, .recounting candidates)
    else query.missingPhase entry candidates
  | .recounting candidates =>
    if 2 * db.liveRows.length < entry.rowIndex.length then
      if query.maxBytes < db.liveRows.length * vectorRowBytes then none
      else some (entry, .compacting candidates db.liveRows.length)
    else query.missingPhase entry candidates
  | .compacting candidates liveRows =>
    query.missingPhase (rebuildEntry query.token liveRows db) candidates
  | .fetching candidates missing block =>
    -- the missing rows are read in batches, and joined to the entry at the end
    let block := block ++ fetchMissing entry (missing.take maxSqlVariables) db
    if missing.drop maxSqlVariables = [] then some (entry.append block, .serving candidates)
    else some (entry, .fetching candidates (missing.drop maxSqlVariables) block)
  | .serving _ => none

end Query

/-- `_ranked_from_entry`, with the approximate distance of a stored vector from the query's. -/
def rankedFromEntry (distance : ν → Rat) (entry : VectorCacheEntry ν)
    (candidates : List (String × String)) : List RankedEntry :=
  (candidates.filterMap fun (id, updatedAt) =>
    (entry.vectorAt id).map fun v => rankedEntry (distance v) updatedAt id).insertionSort (· ≤ ·)

/-! ### What the cache holds -/

section CacheLaws

variable {entry : VectorCacheEntry ν} {db : VectorDb κ ν} {id : String} {v : ν}

/-- A position is the position of a row. -/
theorem VectorCacheEntry.position_lt {position : Nat}
    (h : entry.rowIndex.lookup id = some position) : position < entry.matrix.length := by
  obtain ⟨before, after, hindex, -⟩ := List.lookup_eq_some_iff.mp h
  have hmem : position ∈ entry.rowIndex.map Prod.snd := by
    rw [hindex, List.map_append, List.map_cons]
    exact List.mem_append_right _ List.mem_cons_self
  rw [entry.placed] at hmem
  exact List.mem_range.mp hmem

theorem VectorCacheEntry.holds_iff : entry.holds id = true ↔ (entry.vectorAt id).isSome = true := by
  unfold VectorCacheEntry.holds VectorCacheEntry.vectorAt
  cases hposition : entry.rowIndex.lookup id with
  | none => rfl
  | some position =>
    rw [Option.bind_some, List.getElem?_eq_getElem (VectorCacheEntry.position_lt hposition)]
    rfl

/-- Positions counted from the length of the matrix lead to the rows put behind it. -/
theorem lookup_zipIdx (ids : List String) (start : Nat) (id : String) :
    (ids.zipIdx start).lookup id = (ids.idxOf? id).map (start + ·) := by
  induction ids generalizing start with
  | nil => rfl
  | cons head ids ih =>
    rw [List.zipIdx_cons, List.lookup_cons, List.idxOf?_cons, ih]
    by_cases h : id = head
    · subst h
      simp
    · have hne : ¬ head = id := fun heq => h heq.symm
      simp only [beq_eq_false_iff_ne.mpr h, beq_eq_false_iff_ne.mpr hne, Bool.false_eq_true,
        if_false, Option.map_map]
      congr 1
      funext n
      show start + 1 + n = start + (n + 1)
      omega

theorem getElem?_idxOf? (block : List (String × ν)) (id : String) :
    (((block.map Prod.fst).idxOf? id).bind fun n => (block.map Prod.snd)[n]?) =
      block.lookup id := by
  induction block with
  | nil => rfl
  | cons row block ih =>
    rw [List.map_cons, List.map_cons, List.idxOf?_cons, List.lookup_cons]
    by_cases h : id = row.1
    · subst h
      simp
    · have hne : ¬ row.1 = id := fun heq => h heq.symm
      simp only [beq_eq_false_iff_ne.mpr h, beq_eq_false_iff_ne.mpr hne, Bool.false_eq_true,
        if_false, Option.bind_map, ← ih]
      rfl

/-- What is put behind the matrix is found where nothing was held before. -/
theorem VectorCacheEntry.vectorAt_append (block : List (String × ν)) :
    (entry.append block).vectorAt id = (entry.vectorAt id).or (block.lookup id) := by
  unfold VectorCacheEntry.vectorAt VectorCacheEntry.append
  dsimp only
  rw [List.lookup_append]
  cases hposition : entry.rowIndex.lookup id with
  | some position =>
    have hlt := VectorCacheEntry.position_lt hposition
    rw [Option.some_or, Option.bind_some, Option.bind_some, List.getElem?_append_left hlt,
      List.getElem?_eq_getElem hlt, Option.some_or]
  | none =>
    rw [Option.none_or, Option.bind_none, Option.none_or, lookup_zipIdx, Option.bind_map,
      ← getElem?_idxOf?]
    congr 1
    funext n
    show (entry.matrix ++ block.map Prod.snd)[entry.matrix.length + n]? = _
    rw [List.getElem?_append_right (Nat.le_add_right ..), Nat.add_sub_cancel_left]

theorem mem_of_lookup {block : List (String × ν)} (h : block.lookup id = some v) :
    (id, v) ∈ block := by
  obtain ⟨before, after, rfl, -⟩ := List.lookup_eq_some_iff.mp h
  exact List.mem_append_right _ List.mem_cons_self

/-- The live rows are the memories that are live and have a vector. -/
theorem VectorDb.mem_liveRows :
    (id, v) ∈ db.liveRows ↔
      ∃ m, db.memories.get? id = some m ∧ m.live = true ∧ m.embedding = some v := by
  unfold VectorDb.liveRows
  constructor
  · intro h
    obtain ⟨m, hm, hrow⟩ := List.mem_filterMap.mp h
    split at hrow
    · next hlive =>
      obtain ⟨x, hx, heq⟩ := Option.map_eq_some_iff.mp hrow
      cases heq
      exact ⟨m, Table.get?_of_mem hm, hlive, hx⟩
    · cases hrow
  · rintro ⟨m, hm, hlive, hv⟩
    refine List.mem_filterMap.mpr ⟨m, Table.mem_of_get? hm, ?_⟩
    rw [if_pos hlive, hv, ← Table.key_of_get? hm]
    rfl

theorem VectorDb.find_of_mem_liveRows (h : (id, v) ∈ db.liveRows) : db.find id = some v := by
  obtain ⟨m, hm, -, hv⟩ := VectorDb.mem_liveRows.mp h
  rw [VectorDb.find, hm, Option.bind_some, hv]

theorem vectorAt_rebuildEntry {token : String} {expectedRows : Nat}
    (h : (rebuildEntry token expectedRows db).vectorAt id = some v) : db.find id = some v := by
  have happend : (VectorCacheEntry.empty.append (db.liveRows.take expectedRows)).vectorAt id =
      some v := h
  rw [VectorCacheEntry.vectorAt_append] at happend
  exact VectorDb.find_of_mem_liveRows (List.mem_of_mem_take (mem_of_lookup happend))

theorem find_of_mem_candidateIdRows {env : EmbeddingEnv κ ν} {predicate : κ → Bool}
    {candidate : String × String} (h : candidate ∈ candidateIdRows env predicate db) :
    ∃ v, (candidate.1, v) ∈ db.liveRows := by
  obtain ⟨m, hm, rfl⟩ := List.mem_map.mp h
  obtain ⟨hmem, hguard⟩ := List.mem_filter.mp hm
  rw [Bool.and_eq_true, Bool.and_eq_true] at hguard
  obtain ⟨v, hv⟩ := Option.isSome_iff_exists.mp hguard.1.2
  exact ⟨v, VectorDb.mem_liveRows.mpr ⟨m, Table.get?_of_mem hmem, hguard.1.1, hv⟩⟩

end CacheLaws

/-! ### What a statement reads -/

namespace QueryPhase

/-- The candidates in hand. -/
def candidates : QueryPhase ν → List (String × String)
  | .recounting candidates => candidates
  | .compacting candidates _ => candidates
  | .fetching candidates _ _ => candidates
  | .serving candidates => candidates
  | _ => []

/-- The rows read since, which are not in the cache yet. -/
def block : QueryPhase ν → List (String × ν)
  | .fetching _ _ block => block
  | _ => []

/-- The entry has been validated or rebuilt. -/
def Validated : QueryPhase ν → Prop
  | .validating => False
  | .rebuilding _ => False
  | _ => True

end QueryPhase

/-- As long as the database has the stamp of the query, what the query has in hand is stored
in it; and once validated the entry has that stamp. -/
structure VectorQuery.Holds (query : VectorQuery κ) (db : VectorDb κ ν)
    (entry : VectorCacheEntry ν) (phase : QueryPhase ν) : Prop where
  validated : phase.Validated → entry.token = some query.token
  block : db.token = some query.token → ∀ row ∈ phase.block, db.find row.1 = some row.2
  candidates : db.token = some query.token → ∀ candidate ∈ phase.candidates,
    (db.find candidate.1).isSome = true

section Statement

variable {env : EmbeddingEnv κ ν} {query : VectorQuery κ} {db : VectorDb κ ν}
  {entry entry' : VectorCacheEntry ν} {phase phase' : QueryPhase ν}
  {candidates : List (String × String)}

theorem VectorQuery.takesUp_rebuildEntry (liveRows : Nat) :
    Stamped.TakesUp query.token db.vectors entry.vectors
      (rebuildEntry query.token liveRows db).vectors :=
  .inr ⟨rfl, fun _ _ _ h => .inr (vectorAt_rebuildEntry h)⟩

/-- Reading the missing candidates begins with nothing in hand and changes nothing. -/
theorem VectorQuery.missingPhase_eq_some
    (h : query.missingPhase entry candidates = some (entry', phase')) :
    entry' = entry ∧ phase'.candidates = candidates ∧ phase'.block = [] := by
  unfold VectorQuery.missingPhase at h
  dsimp only at h
  split at h
  · cases h
    exact ⟨rfl, rfl, rfl⟩
  · split at h
    · cases h
    · cases h
      exact ⟨rfl, rfl, rfl⟩

theorem VectorQuery.Holds.of_block_nil (hblock : phase.block = [])
    (hvalidated : phase.Validated → entry.token = some query.token)
    (hcandidates : db.token = some query.token → ∀ candidate ∈ phase.candidates,
      (db.find candidate.1).isSome = true) : query.Holds db entry phase := by
  refine ⟨hvalidated, fun _ row hrow => ?_, hcandidates⟩
  rw [hblock] at hrow
  cases hrow

theorem VectorQuery.Holds.of_missingPhase
    (h : query.missingPhase entry candidates = some (entry', phase'))
    (htoken : entry.token = some query.token)
    (hcandidates : db.token = some query.token → ∀ candidate ∈ candidates,
      (db.find candidate.1).isSome = true) : query.Holds db entry' phase' := by
  obtain ⟨rfl, hsame, hnothing⟩ := missingPhase_eq_some h
  refine .of_block_nil hnothing (fun _ => htoken) ?_
  rw [hsame]
  exact hcandidates

theorem isSome_find_of_candidateIdRows {predicate : κ → Bool} :
    ∀ candidate ∈ candidateIdRows env predicate db, (db.find candidate.1).isSome = true := by
  intro candidate hcandidate
  obtain ⟨v, hv⟩ := find_of_mem_candidateIdRows hcandidate
  rw [VectorDb.find_of_mem_liveRows hv]
  rfl

/-- A statement reads what is stored, and the entry takes up nothing else. -/
theorem VectorQuery.advance_sound (h : query.Holds db entry phase)
    (hnext : query.advance env db entry phase = some (entry', phase')) :
    query.Holds db entry' phase' ∧
      Stamped.TakesUp query.token db.vectors entry.vectors entry'.vectors := by
  -- each phase is one statement; vectors are taken up while rebuilding, compacting and fetching
  cases phase with
  | validating =>
    rw [VectorQuery.advance] at hnext
    split at hnext
    · split at hnext
      · cases hnext
      · cases hnext
        exact ⟨.of_block_nil rfl False.elim fun _ => List.forall_mem_nil _, .inl rfl⟩
    · next hstamp =>
      split at hnext
      · cases hnext
      · cases hnext
        exact ⟨.of_block_nil rfl (fun _ => not_not.mp hstamp) fun _ => List.forall_mem_nil _,
          .inl rfl⟩
  | rebuilding liveRows =>
    cases hnext
    exact ⟨.of_block_nil rfl (fun _ => rfl) fun _ => List.forall_mem_nil _,
      takesUp_rebuildEntry liveRows⟩
  | selecting rebuilt =>
    rw [VectorQuery.advance] at hnext
    split at hnext
    · cases hnext
      exact ⟨.of_block_nil rfl (fun _ => h.validated trivial)
        fun _ => isSome_find_of_candidateIdRows,
        .inl rfl⟩
    · exact ⟨.of_missingPhase hnext (h.validated trivial) fun _ => isSome_find_of_candidateIdRows,
        .inl (congrArg _ (missingPhase_eq_some hnext).1)⟩
  | recounting candidates =>
    rw [VectorQuery.advance] at hnext
    split at hnext
    · split at hnext
      · cases hnext
      · cases hnext
        exact ⟨.of_block_nil rfl (fun _ => h.validated trivial) h.candidates, .inl rfl⟩
    · exact ⟨.of_missingPhase hnext (h.validated trivial) h.candidates,
        .inl (congrArg _ (missingPhase_eq_some hnext).1)⟩
  | compacting candidates liveRows =>
    rw [VectorQuery.advance] at hnext
    rw [(missingPhase_eq_some hnext).1]
    exact ⟨(missingPhase_eq_some hnext).1 ▸ .of_missingPhase hnext rfl h.candidates,
      takesUp_rebuildEntry liveRows⟩
  | fetching candidates missing block =>
    -- a batch joins the block only with rows that are stored
    have hblock : db.token = some query.token →
        ∀ row ∈ block ++ fetchMissing entry (missing.take maxSqlVariables) db,
          db.find row.1 = some row.2 := by
      intro hdb row hrow
      rcases List.mem_append.mp hrow with hrow | hrow
      · exact h.block hdb row hrow
      · exact VectorDb.find_of_mem_liveRows (List.mem_filter.mp hrow).1
    rw [VectorQuery.advance] at hnext
    split at hnext
    · cases hnext
      refine ⟨.of_block_nil rfl (fun _ => h.validated trivial) h.candidates,
        .inr ⟨h.validated trivial, fun hdb id v hv => ?_⟩⟩
      rw [VectorCacheEntry.vectors_find, VectorCacheEntry.vectorAt_append,
        Option.or_eq_some_iff] at hv
      -- a vector of the entry was held before or is of the block
      rcases hv with hv | ⟨-, hv⟩
      · exact .inl ⟨h.validated trivial, hv⟩
      · exact .inr (hblock hdb _ (mem_of_lookup hv))
    · cases hnext
      exact ⟨⟨fun _ => h.validated trivial, hblock, h.candidates⟩, .inl rfl⟩
  | serving => cases hnext

/-! ### What a statement leaves out -/

/-- In a database that stays the same the candidates in hand are its candidates, and those
that are not in the cache are still to be read or are in hand. -/
def VectorQuery.Covers (env : EmbeddingEnv κ ν) (query : VectorQuery κ) (db : VectorDb κ ν)
    (entry : VectorCacheEntry ν) : QueryPhase ν → Prop
  | .recounting candidates => candidates = candidateIdRows env query.predicate db
  | .compacting candidates _ => candidates = candidateIdRows env query.predicate db
  | .fetching candidates missing block =>
    candidates = candidateIdRows env query.predicate db ∧
      ∀ candidate ∈ candidates, entry.holds candidate.1 = true ∨ candidate.1 ∈ missing ∨
        candidate.1 ∈ block.map Prod.fst
  | .serving candidates =>
    candidates = candidateIdRows env query.predicate db ∧
      ∀ candidate ∈ candidates, entry.holds candidate.1 = true
  | _ => True

/-- The candidates that the entry does not hold are those to be fetched, and with none
missing the query is served. -/
theorem VectorQuery.Covers.of_missingPhase
    (hnext : query.missingPhase entry candidates = some (entry', phase'))
    (hcandidates : candidates = candidateIdRows env query.predicate db) :
    query.Covers env db entry' phase' := by
  unfold VectorQuery.missingPhase at hnext
  dsimp only at hnext
  split at hnext
  · next hnone =>
    -- the entry holds all candidates already
    cases hnext
    refine ⟨hcandidates, fun candidate hcandidate => ?_⟩
    have hheld := List.filter_eq_nil_iff.mp hnone _ (List.mem_map_of_mem hcandidate)
    simpa using hheld
  · split at hnext
    · cases hnext
    · cases hnext
      refine ⟨hcandidates, fun candidate hcandidate => ?_⟩
      cases hheld : entry.holds candidate.1 with
      | true => exact .inl rfl
      | false =>
        refine .inr (.inl (List.mem_filter.mpr ⟨List.mem_map_of_mem hcandidate, ?_⟩))
        rw [hheld]
        rfl

theorem VectorCacheEntry.holds_append {block : List (String × ν)} {id : String}
    (h : entry.holds id = true ∨ id ∈ block.map Prod.fst) :
    (entry.append block).holds id = true := by
  rw [VectorCacheEntry.holds_iff, VectorCacheEntry.vectorAt_append, Option.isSome_or,
    Bool.or_eq_true, ← VectorCacheEntry.holds_iff]
  refine h.imp_right fun hmem => ?_
  obtain ⟨row, hrow, rfl⟩ := List.mem_map.mp hmem
  rw [List.lookup_isSome_iff]
  exact ⟨row, hrow, beq_self_eq_true _⟩

/-- A candidate of a batch is read, if it is not in the cache. -/
theorem mem_fetchMissing {batch : List String} {candidate : String × String}
    (h : candidate ∈ candidateIdRows env query.predicate db) (hbatch : candidate.1 ∈ batch) :
    entry.holds candidate.1 = true ∨ candidate.1 ∈ (fetchMissing entry batch db).map Prod.fst := by
  obtain ⟨v, hv⟩ := find_of_mem_candidateIdRows h
  cases hheld : entry.holds candidate.1 with
  | true => exact .inl rfl
  | false =>
    refine .inr (List.mem_map.mpr ⟨(candidate.1, v), List.mem_filter.mpr ⟨hv, ?_⟩, rfl⟩)
    rw [decide_eq_true hbatch, hheld]
    rfl

/-- Each statement of a query keeps its candidates covered: they are held by the entry,
in the block, or still to be read. -/
theorem VectorQuery.advance_covers (h : query.Covers env db entry phase)
    (hnext : query.advance env db entry phase = some (entry', phase')) :
    query.Covers env db entry' phase' := by
  -- only fetching has candidates to cover: each is held, still missing or in the block
  cases phase with
  | validating =>
    rw [VectorQuery.advance] at hnext
    split at hnext <;> split at hnext <;> cases hnext <;> trivial
  | rebuilding liveRows =>
    cases hnext
    trivial
  | selecting rebuilt =>
    rw [VectorQuery.advance] at hnext
    split at hnext
    · cases hnext
      rfl
    · exact .of_missingPhase hnext rfl
  | recounting candidates =>
    rw [VectorQuery.advance] at hnext
    split at hnext
    · split at hnext
      · cases hnext
      · cases hnext
        exact h
    · exact .of_missingPhase hnext h
  | compacting candidates liveRows =>
    rw [VectorQuery.advance] at hnext
    exact .of_missingPhase hnext h
  | fetching candidates missing block =>
    obtain ⟨hcandidates, hleft⟩ := h
    have hread : ∀ candidate ∈ candidates, entry.holds candidate.1 = true ∨
        candidate.1 ∈ missing.drop maxSqlVariables ∨
          candidate.1 ∈ (block ++ fetchMissing entry (missing.take maxSqlVariables) db).map
            Prod.fst := by
      intro candidate hcandidate
      rw [List.map_append, List.mem_append]
      -- one that was missing is in the batch just read, or in a later one
      rcases hleft candidate hcandidate with hheld | hmissing | hblock
      · exact .inl hheld
      · rw [← List.take_append_drop maxSqlVariables missing, List.mem_append] at hmissing
        rcases hmissing with hbatch | hlater
        · exact (mem_fetchMissing (hcandidates ▸ hcandidate) hbatch).imp_right
            fun hmem => .inr (.inr hmem)
        · exact .inr (.inl hlater)
      · exact .inr (.inr (.inl hblock))
    rw [VectorQuery.advance] at hnext
    split at hnext
    · next hlast =>
      cases hnext
      refine ⟨hcandidates, fun candidate hcandidate => VectorCacheEntry.holds_append ?_⟩
      have hcandidate' := hread candidate hcandidate
      rw [hlast] at hcandidate'
      simpa using hcandidate'
    · cases hnext
      exact ⟨hcandidates, hread⟩
  | serving => cases hnext

end Statement

/-! ### The ranking -/

section Ranking

variable {env : EmbeddingEnv κ ν} {query : VectorQuery κ} {db : VectorDb κ ν}
  {entry : VectorCacheEntry ν} {candidates : List (String × String)} (exact approximate : ν → Rat)

/-- The rows of the scan without the cache, with both distances of each. -/
def scanRows (env : EmbeddingEnv κ ν) (predicate : κ → Bool) (db : VectorDb κ ν) :
    List VectorRow :=
  (db.memories.rows.filter fun m => m.live && m.embedding.isSome && predicate m.columns).filterMap
    fun m => m.embedding.map fun v => ⟨m.id, env.updatedAt m.columns, exact v, approximate v⟩

/-- An entry that covers the candidates and holds what is stored ranks them as the scan does. -/
theorem rankedFromEntry_eq_scan (hcovers : query.Covers env db entry (.serving candidates))
    (hright : ∀ candidate ∈ candidates, ∀ v, entry.vectorAt candidate.1 = some v →
      db.find candidate.1 = some v) :
    rankedFromEntry approximate entry candidates =
      ((scanRows exact approximate env query.predicate db).map
        VectorRow.approximateKey).insertionSort (· ≤ ·) := by
  obtain ⟨rfl, hheld⟩ := hcovers
  unfold rankedFromEntry scanRows candidateIdRows
  rw [List.filterMap_map, List.map_filterMap]
  congr 1
  -- candidate by candidate: the entry has the vector of the row
  refine List.filterMap_congr fun m hm => ?_
  have hheld' := hheld _ (List.mem_map_of_mem hm)
  obtain ⟨v, hv⟩ := Option.isSome_iff_exists.mp (VectorCacheEntry.holds_iff.mp hheld')
  have hrow : db.find m.id = m.embedding := by
    rw [VectorDb.find, Table.get?_of_mem (List.mem_filter.mp hm).1, Option.bind_some]
  have hstored := hright _ (List.mem_map_of_mem hm) v hv
  dsimp only at hstored
  rw [hrow] at hstored
  rw [hstored]
  show (entry.vectorAt m.id).map _ = _
  rw [hv]
  rfl

end Ranking

end AliceBot
