import AliceBot.SourceCapture

/-!
# What a capture does

Under which conditions on the store and the store calls ahead a capture
inserts a source (`Inserts`), and under which it then returns (`Completes`).
Both are read off the state before the call: the calls that do not raise
(`CallsPass`), the rows the lookup sees, and the memory keys that are taken. The
rest of a capture leaves `sources` alone, however it ends.
-/

namespace AliceBot

open PyLib

variable {env : CaptureEnv} {svc : CaptureService}

/-! ### Store calls -/

/-- None of the `k` calls from the `n`-th on raises. -/
def CallsPass (env : CaptureEnv) (n k : Nat) : Prop := ∀ i, n ≤ i → i < n + k → env.fault i = none

theorem callsPass_one {n : Nat} : CallsPass env n 1 ↔ env.fault n = none := by
  constructor
  · intro h
    exact h n (le_refl n) (Nat.lt_succ_self n)
  · intro h i hle hlt
    obtain rfl : i = n := by omega
    exact h

theorem callsPass_zero {n : Nat} : CallsPass env n 0 := fun i hle hlt => by omega

theorem callsPass_add {n j k : Nat} :
    CallsPass env n (j + k) ↔ CallsPass env n j ∧ CallsPass env (n + j) k := by
  constructor
  · intro h
    refine ⟨fun i hle hlt => h i hle (by omega), fun i hle hlt => h i (by omega) (by omega)⟩
  · rintro ⟨hfirst, hrest⟩ i hle hlt
    by_cases hi : i < n + j
    · exact hfirst i hle hi
    · exact hrest i (by omega) (by omega)

variable {α β : Type} {s t : CaptureStore}

/-- The store after the number of a call is taken. -/
def CaptureStore.ticked (s : CaptureStore) : CaptureStore := { s with ticks := s.ticks + 1 }

@[simp] theorem ticked_sources : s.ticked.sources = s.sources := rfl
@[simp] theorem ticked_memories : s.ticked.memories = s.memories := rfl
@[simp] theorem ticked_ticks : s.ticked.ticks = s.ticks + 1 := rfl

/-- A call on the store takes a tick, and fails before it has done anything, after it
has, or not at all. -/
theorem run_storeCall {m : Nat → Capture α} :
    (storeCall env m).run s = match env.fault s.ticks with
      | none => (m s.ticks).run s.ticked
      | some .before => .error .fault s.ticked
      | some .after => match (m s.ticks).run s.ticked with
        | .ok _ t => .error .fault t
        | .error e t => .error e t := by
  rw [storeCall, run_bind]
  show ((match env.fault s.ticks with
    | none => m s.ticks
    | some .before => throw .fault
    | some .after => do
      let _ ← m s.ticks
      throw .fault) : Capture α).run s.ticked = _
  cases hfault : env.fault s.ticks with
  | none => rfl
  | some kind =>
    -- a call that fails after it was made has written what it writes
    cases kind with
    | before => rfl
    | after =>
      show ((m s.ticks >>= fun _ => throw .fault) : Capture α).run s.ticked = _
      rw [run_bind]
      cases (m s.ticks).run s.ticked with
      | ok a u => rfl
      | error e u => rfl

/-- A call that returned. -/
theorem run_storeCall_ok {m : Nat → Capture α} {a : α} :
    (storeCall env m).run s = .ok a t ↔
      env.fault s.ticks = none ∧ (m s.ticks).run s.ticked = .ok a t := by
  rw [run_storeCall]
  cases hfault : env.fault s.ticks with
  | none => simp
  | some kind =>
    cases kind with
    | before => simp
    | after =>
      cases (m s.ticks).run s.ticked with
      | ok b u => simp
      | error e u => simp

/-- Whatever a call does, it does after taking its number. -/
theorem storeCall_moves {R : CaptureStore → CaptureStore → Prop} [IsTrans CaptureStore R]
    (htick : ∀ s : CaptureStore, R s s.ticked) {m : Nat → Capture α} (hm : ∀ n, Moves R (m n)) :
    Moves R (storeCall env m) := by
  intro s
  have hcall : MovesAt R (m s.ticks) s.ticked := hm s.ticks s.ticked
  rw [MovesAt, run_storeCall]
  cases env.fault s.ticks with
  | none => exact IsTrans.trans _ _ _ (htick s) hcall
  | some kind =>
    cases kind with
    | before => exact htick s
    | after =>
      rw [MovesAt] at hcall
      cases hrun : (m s.ticks).run s.ticked with
      | ok b u =>
        rw [hrun] at hcall
        exact IsTrans.trans _ _ _ (htick s) hcall
      | error e u =>
        rw [hrun] at hcall
        exact IsTrans.trans _ _ _ (htick s) hcall

/-! ### What leaves the sources alone -/

/-- The sources are the same, and no number is used twice. -/
structure KeepsSources (s t : CaptureStore) : Prop where
  sources : t.sources = s.sources
  ticks : s.ticks ≤ t.ticks

instance : Std.Refl KeepsSources := ⟨fun s => ⟨rfl, le_refl s.ticks⟩⟩

instance : IsTrans CaptureStore KeepsSources :=
  ⟨fun _ _ _ h h' => ⟨h'.sources.trans h.sources, h.ticks.trans h'.ticks⟩⟩

theorem keepsSources_ticked (s : CaptureStore) : KeepsSources s s.ticked :=
  ⟨rfl, Nat.le_succ _⟩

theorem storeCall_keeps {m : Nat → Capture α} (hm : ∀ n, Moves KeepsSources (m n)) :
    Moves KeepsSources (storeCall env m) :=
  storeCall_moves keepsSources_ticked hm

theorem appendCaptureEvent_keeps (eventType : String) (targetId : Option String) :
    Moves KeepsSources (appendCaptureEvent eventType targetId) :=
  Moves.modify fun s => ⟨rfl, le_refl s.ticks⟩

variable (env) in
theorem logEvent_keeps (eventType : String) (targetId : Option String) :
    Moves KeepsSources (logEvent env eventType targetId) :=
  storeCall_keeps fun _ => appendCaptureEvent_keeps eventType targetId

theorem writeElsewhere_keeps : Moves KeepsSources (writeElsewhere env) :=
  storeCall_keeps fun _ => Moves.pure ()

theorem createSourceChunk_keeps (sourceId contentHash : String) (index : Nat) (chunk : String) :
    Moves KeepsSources (createSourceChunk env sourceId contentHash index chunk) :=
  storeCall_keeps fun _ =>
    Moves.bind (Moves.modify fun s => ⟨rfl, le_refl s.ticks⟩) fun _ =>
      Moves.bind (appendCaptureEvent_keeps _ _) fun _ => Moves.pure _

theorem createProvenanceLink_keeps (record : String → ProvenanceRow) :
    Moves KeepsSources (createProvenanceLink env record) :=
  storeCall_keeps fun _ =>
    Moves.bind (Moves.modify fun s => ⟨rfl, le_refl s.ticks⟩) fun _ =>
      appendCaptureEvent_keeps _ _

theorem createCandidate_keeps (record : String → CandidateMemory) :
    Moves KeepsSources (createCandidate env record) := by
  refine storeCall_keeps fun n => ?_
  intro s
  -- the row is set on the store that was read
  refine MovesAt.bind (Moves.get s) fun read u hread => ?_
  obtain ⟨rfl, rfl⟩ := run_get_ok.mp hread
  refine MovesAt.bind (Moves.raiseIf _ _ s) fun _ v hraise => ?_
  obtain ⟨-, rfl⟩ := run_raiseIf_ok.mp hraise
  refine MovesAt.bind ?_ fun _ w _ =>
    Moves.bind (appendCaptureEvent_keeps _ _) (fun _ => Moves.pure _) w
  exact ⟨rfl, le_refl s.ticks⟩

theorem createChunks_keeps (sourceId contentHash : String) (chunks : List String) (index : Nat) :
    Moves KeepsSources (createChunks env sourceId contentHash chunks index) := by
  induction chunks generalizing index with
  | nil => exact Moves.pure _
  | cons chunk rest ih =>
    exact Moves.bind (createSourceChunk_keeps sourceId contentHash index chunk) fun _ =>
      Moves.bind (ih (index + 1)) fun _ => Moves.pure _

theorem createCandidates_keeps (input : SourceCaptureInput) (keys : CaptureKeys)
    (sourceId : String) (candidates : List CaptureCandidate) :
    Moves KeepsSources (createCandidates env svc input keys sourceId candidates) := by
  induction candidates with
  | nil => exact Moves.pure _
  | cons candidate rest ih =>
    exact Moves.bind (createCandidate_keeps _) fun _ =>
      Moves.bind (createProvenanceLink_keeps _) fun _ =>
        Moves.bind (logEvent_keeps env _ _) fun _ => Moves.bind ih fun _ => Moves.pure _

theorem dropUserAssertedDuplicates_keeps (keys : CaptureKeys) (input : SourceCaptureInput)
    (candidates : List CaptureCandidate) :
    Moves KeepsSources (dropUserAssertedDuplicates env keys input candidates) := by
  induction candidates with
  | nil => exact Moves.pure _
  | cons candidate rest ih =>
    refine Moves.ite (fun _ => ?_) fun _ => Moves.bind ih fun _ => Moves.pure _
    exact Moves.bind (storeCall_keeps fun _ => Moves.bind Moves.get fun _ => Moves.pure _)
      fun _ => Moves.bind ih fun _ => Moves.pure _

theorem linkCapturedEntities_keeps (sourceId sensitivity : String) :
    Moves KeepsSources (linkCapturedEntities env sourceId sensitivity) :=
  Moves.onlyIf (Moves.catching writeElsewhere_keeps fun _ => logEvent_keeps env _ _)

/-- Filling a source leaves `sources` as it is, also where it raises. -/
theorem fillSource_keeps (input : SourceCaptureInput) (keys : CaptureKeys) (source : SourceRow) :
    Moves KeepsSources (fillSource env svc input keys source) :=
  Moves.bind (logEvent_keeps env _ _) fun _ => Moves.bind (Moves.raiseIf _ _) fun _ =>
    Moves.bind (createChunks_keeps _ _ _ _) fun _ => Moves.bind (logEvent_keeps env _ _) fun _ =>
      Moves.bind (dropUserAssertedDuplicates_keeps _ _ _) fun _ =>
        Moves.bind (createCandidates_keeps _ _ _ _) fun _ =>
          Moves.bind (Moves.onlyIf writeElsewhere_keeps) fun _ =>
            Moves.bind (linkCapturedEntities_keeps _ _) fun _ => Moves.pure _

/-! ### When filling a source returns -/

/-- `k` calls later, with the tables a capture reads as they were. -/
structure CallsLater (k : Nat) (s t : CaptureStore) : Prop where
  ticks : t.ticks = s.ticks + k
  sources : t.sources = s.sources
  memories : t.memories = s.memories

theorem callsLater_zero : CallsLater 0 s s := ⟨rfl, rfl, rfl⟩

theorem CallsLater.trans {j k : Nat} {u : CaptureStore} (h : CallsLater j s t)
    (h' : CallsLater k t u) : CallsLater (j + k) s u :=
  ⟨by rw [h'.ticks, h.ticks, Nat.add_assoc], h'.sources.trans h.sources,
    h'.memories.trans h.memories⟩

/-- A call with a body that returns. -/
theorem storeCall_returnsIff {m : Nat → Capture α} {C : Prop} {P : α → CaptureStore → Prop}
    (hm : ReturnsIff C P (m s.ticks) s.ticked) :
    ReturnsIff (CallsPass env s.ticks 1 ∧ C) P (storeCall env m) s where
  post := by
    intro a t hrun
    obtain ⟨hfault, hbody⟩ := run_storeCall_ok.mp hrun
    exact ⟨⟨callsPass_one.mpr hfault, (hm.post hbody).1⟩, (hm.post hbody).2⟩
  returns := by
    rintro ⟨hpass, hc⟩
    obtain ⟨a, t, hbody⟩ := hm.returns hc
    exact ⟨a, t, run_storeCall_ok.mpr ⟨callsPass_one.mp hpass, hbody⟩⟩

variable (env) in
/-- A call that reads. -/
theorem read_returnsIff (f : CaptureStore → α) (s : CaptureStore) :
    ReturnsIff (CallsPass env s.ticks 1) (fun a t => a = f s.ticked ∧ CallsLater 1 s t)
      (storeCall env fun _ => do
        let u ← get
        return f u) s := by
  have hbody : ReturnsIff True (fun a t => a = f s.ticked ∧ CallsLater 1 s t)
      (do
        let u ← get
        return f u : Capture α) s.ticked := by
    refine ⟨fun hrun => ?_, fun _ => ⟨f s.ticked, s.ticked, rfl⟩⟩
    obtain ⟨u, v, hget, hpure⟩ := run_bind_ok.mp hrun
    obtain ⟨rfl, rfl⟩ := run_get_ok.mp hget
    obtain ⟨rfl, rfl⟩ := run_pure_ok.mp hpure
    exact ⟨trivial, rfl, rfl, rfl, rfl⟩
  exact (storeCall_returnsIff hbody).imp (and_iff_left trivial) fun _ _ h => h

variable (env) in
theorem logEvent_returnsIff (eventType : String) (targetId : Option String) (s : CaptureStore) :
    ReturnsIff (CallsPass env s.ticks 1) (fun _ t => CallsLater 1 s t)
      (logEvent env eventType targetId) s := by
  have hbody : ReturnsIff True (fun _ t => CallsLater 1 s t)
      (appendCaptureEvent eventType targetId) s.ticked := by
    refine ⟨fun hrun => ?_, fun _ => ⟨⟨⟩, _, rfl⟩⟩
    obtain rfl := run_modify_ok.mp hrun
    exact ⟨trivial, rfl, rfl, rfl⟩
  exact (storeCall_returnsIff hbody).imp (and_iff_left trivial) fun _ _ h => h

theorem writeElsewhere_returnsIff (s : CaptureStore) :
    ReturnsIff (CallsPass env s.ticks 1) (fun _ t => CallsLater 1 s t) (writeElsewhere env) s := by
  have hbody : ReturnsIff True (fun _ t => CallsLater 1 s t) (pure () : Capture Unit) s.ticked :=
    ReturnsIff.pure ⟨rfl, rfl, rfl⟩
  exact (storeCall_returnsIff hbody).imp (and_iff_left trivial) fun _ _ h => h

/-- The rows of the chunks, with the identifiers of the calls that store them. -/
def chunkRows (env : CaptureEnv) (sourceId contentHash : String) :
    List String → Nat → Nat → List ChunkRow
  | [], _, _ => []
  | chunk :: rest, index, n =>
    { id := env.uuid n
      sourceId := sourceId
      chunkIndex := index
      text := chunk
      tokenCount := (words chunk).length
      metadataJson := [("content_hash", .str contentHash)] } ::
        chunkRows env sourceId contentHash rest (index + 1) (n + 1)

/-- A chunk is stored exactly if its call passes. -/
theorem createSourceChunk_returnsIff (sourceId contentHash : String) (index : Nat)
    (chunk : String) (s : CaptureStore) :
    ReturnsIff (CallsPass env s.ticks 1)
      (fun row t => chunkRows env sourceId contentHash [chunk] index s.ticks = [row] ∧
        CallsLater 1 s t)
      (createSourceChunk env sourceId contentHash index chunk) s := by
  unfold createSourceChunk
  refine ReturnsIff.imp (storeCall_returnsIff (C := True) ?_) (and_iff_left trivial)
    fun _ _ h => h
  refine ⟨fun hrun => ?_, fun _ => ⟨_, _, rfl⟩⟩
  obtain ⟨_, u, hchunk, hrun⟩ := run_bind_ok.mp hrun
  obtain rfl := run_modify_ok.mp hchunk
  obtain ⟨_, v, hevent, hrun⟩ := run_bind_ok.mp hrun
  obtain rfl := run_modify_ok.mp hevent
  obtain ⟨rfl, rfl⟩ := run_pure_ok.mp hrun
  exact ⟨trivial, rfl, rfl, rfl, rfl⟩

variable (env) in
/-- The chunks are stored one call each. -/
theorem createChunks_returnsIff (sourceId contentHash : String) (chunks : List String)
    (index : Nat) (s : CaptureStore) :
    ReturnsIff (CallsPass env s.ticks chunks.length)
      (fun rows t => rows = chunkRows env sourceId contentHash chunks index s.ticks ∧
        CallsLater chunks.length s t)
      (createChunks env sourceId contentHash chunks index) s := by
  induction chunks generalizing index s with
  | nil =>
    refine (ReturnsIff.pure ⟨rfl, callsLater_zero⟩).imp ?_ fun _ _ h => h
    exact ⟨fun _ => callsPass_zero, fun _ => trivial⟩
  | cons chunk rest ih =>
    -- one call for the chunk, then the calls of the rest
    have hrest : ∀ row t, (chunkRows env sourceId contentHash [chunk] index s.ticks = [row] ∧
        CallsLater 1 s t) →
        ReturnsIff (CallsPass env (s.ticks + 1) rest.length)
          (fun rows u => rows =
            chunkRows env sourceId contentHash (chunk :: rest) index s.ticks ∧
            CallsLater (rest.length + 1) s u)
          (do
            let rows ← createChunks env sourceId contentHash rest (index + 1)
            return row :: rows) t := by
      rintro row t ⟨hrow, hlater⟩
      have hrows := (ih (index + 1) t).bind (f := fun rows => pure (row :: rows))
        fun rows u hu => ReturnsIff.pure
          (P := fun rows u => rows =
            chunkRows env sourceId contentHash (chunk :: rest) index s.ticks ∧
            CallsLater (rest.length + 1) s u) ⟨?_, ?_⟩
      · rw [hlater.ticks] at hrows
        exact hrows.imp (and_iff_left trivial) fun _ _ h => h
      · rw [hu.1, hlater.ticks]
        exact congrArg (· :: _) (List.cons.inj hrow).1.symm
      · rw [Nat.add_comm]
        exact hlater.trans hu.2
    refine ((createSourceChunk_returnsIff sourceId contentHash index chunk s).bind hrest).imp
      ?_ fun _ _ h => h
    rw [List.length_cons, Nat.add_comm rest.length 1, callsPass_add]

/-- The number of lookups among stored memories. -/
def lookupCount (candidates : List CaptureCandidate) : Nat :=
  candidates.countP fun c => c.line.extractionRule = userAssertedValueRule

/-- The candidates that are not dropped. -/
def keptCandidates (keys : CaptureKeys) (input : SourceCaptureInput) (s : CaptureStore)
    (candidates : List CaptureCandidate) : List CaptureCandidate :=
  candidates.filter fun c => !(decide (c.line.extractionRule = userAssertedValueRule)
    && s.hasLiveMemory c.line.text input.domain input.sensitivity keys.projectScope)

/-- Only the stored memories decide what is dropped. -/
theorem hasLiveMemory_congr (h : t.memories = s.memories) (text domain sensitivity : String)
    (scope : List String) : t.hasLiveMemory text domain sensitivity scope =
      s.hasLiveMemory text domain sensitivity scope := by
  rw [CaptureStore.hasLiveMemory, h]
  rfl

theorem keptCandidates_congr (h : t.memories = s.memories) (keys : CaptureKeys)
    (input : SourceCaptureInput) (candidates : List CaptureCandidate) :
    keptCandidates keys input t candidates = keptCandidates keys input s candidates := by
  simp only [keptCandidates, hasLiveMemory_congr h]

variable (env) in
/-- Dropping the duplicates returns exactly when each lookup does, with the candidates
that no live memory repeats. -/
theorem dropUserAssertedDuplicates_returnsIff (keys : CaptureKeys) (input : SourceCaptureInput)
    (candidates : List CaptureCandidate) (s : CaptureStore) :
    ReturnsIff (CallsPass env s.ticks (lookupCount candidates))
      (fun kept t => kept = keptCandidates keys input s candidates ∧
        CallsLater (lookupCount candidates) s t)
      (dropUserAssertedDuplicates env keys input candidates) s := by
  induction candidates generalizing s with
  | nil =>
    refine (ReturnsIff.pure ⟨rfl, callsLater_zero⟩).imp ?_ fun _ _ h => h
    exact ⟨fun _ => callsPass_zero, fun _ => trivial⟩
  | cons candidate rest ih =>
    by_cases hrule : candidate.line.extractionRule = userAssertedValueRule
    · -- one lookup, and then the rest
      have hcount : lookupCount (candidate :: rest) = 1 + lookupCount rest := by
        simp [lookupCount, hrule, Nat.add_comm]
      rw [dropUserAssertedDuplicates, if_pos hrule, hcount]
      refine ((read_returnsIff env (fun u : CaptureStore =>
        u.hasLiveMemory candidate.line.text input.domain input.sensitivity keys.projectScope)
        s).bind (D := CallsPass env (s.ticks + 1) (lookupCount rest)) ?_).imp
        callsPass_add.symm fun _ _ h => h
      rintro found t ⟨hfound, hlater⟩
      have hrows := ih t
      rw [hlater.ticks] at hrows
      refine (hrows.bind (D := True) ?_).imp (and_iff_left trivial) fun _ _ h => h
      rintro kept u ⟨rfl, hu⟩
      refine ReturnsIff.pure ⟨?_, hlater.trans hu⟩
      have hticked := hasLiveMemory_congr (t := s.ticked) (s := s) rfl
      rw [keptCandidates_congr hlater.memories, hfound, hticked]
      cases hlive : s.hasLiveMemory candidate.line.text input.domain input.sensitivity
          keys.projectScope with
      | false => simp [keptCandidates, hlive]
      | true => simp [keptCandidates, hlive, hrule]
    · have hcount : lookupCount (candidate :: rest) = lookupCount rest := by
        simp [lookupCount, hrule]
      rw [dropUserAssertedDuplicates, if_neg hrule, hcount]
      refine ((ih s).bind (D := True) ?_).imp (and_iff_left trivial) fun _ _ h => h
      rintro kept u ⟨rfl, hu⟩
      exact ReturnsIff.pure ⟨by simp [keptCandidates, hrule], hu⟩

/-- The candidates whose memories the table takes: the constraints hold of
each, and no two of them and no stored memory share a key. -/
structure Storable (env : CaptureEnv) (svc : CaptureService) (input : SourceCaptureInput)
    (keys : CaptureKeys) (candidates : List CaptureCandidate) (memories : List CandidateMemory) :
    Prop where
  checks : ∀ c ∈ candidates, (candidateRecord env svc input keys "" c "").checks = true
  distinct : (candidates.map fun c =>
    captureMemoryKey env keys.contentHash c input.domain input.sensitivity).Nodup
  free : ∀ c ∈ candidates, captureMemoryKey env keys.contentHash c input.domain
    input.sensitivity ∉ memories.map (·.memoryKey)

/-- A candidate is stored exactly if its call passes, its row meets the constraints, and
its key is free. -/
theorem createCandidate_returnsIff (record : String → CandidateMemory) (s : CaptureStore) :
    ReturnsIff (CallsPass env s.ticks 1 ∧ (record (env.uuid s.ticks)).checks = true ∧
        (record (env.uuid s.ticks)).memoryKey ∉ s.memories.map (·.memoryKey))
      (fun row t => row = record (env.uuid s.ticks) ∧ t.ticks = s.ticks + 1 ∧
        t.sources = s.sources ∧ t.memories = s.memories ++ [row])
      (createCandidate env record) s := by
  unfold createCandidate
  refine ReturnsIff.imp (storeCall_returnsIff
    (C := (record (env.uuid s.ticks)).checks = true ∧
      (record (env.uuid s.ticks)).memoryKey ∉ s.memories.map (·.memoryKey)) ?_) Iff.rfl
    fun _ _ h => h
  refine ⟨fun hrun => ?_, fun hc => ?_⟩
  · obtain ⟨read, u, hget, hrun⟩ := run_bind_ok.mp hrun
    obtain ⟨rfl, rfl⟩ := run_get_ok.mp hget
    obtain ⟨_, v, hraise, hrun⟩ := run_bind_ok.mp hrun
    obtain ⟨hnot, rfl⟩ := run_raiseIf_ok.mp hraise
    obtain ⟨_, w, hset, hrun⟩ := run_bind_ok.mp hrun
    obtain rfl := run_set_ok.mp hset
    obtain ⟨_, x, hevent, hrun⟩ := run_bind_ok.mp hrun
    obtain rfl := run_modify_ok.mp hevent
    obtain ⟨rfl, rfl⟩ := run_pure_ok.mp hrun
    rw [not_or, Bool.not_eq_false] at hnot
    exact ⟨hnot, rfl, rfl, rfl, rfl⟩
  · -- both constraints hold, so nothing is raised
    have hpass : (raiseIf ((record (env.uuid s.ticks)).checks = false ∨
        (record (env.uuid s.ticks)).memoryKey ∈ s.ticked.memories.map (·.memoryKey))
        CaptureError.integrity : Capture Unit).run s.ticked = .ok () s.ticked := by
      refine run_raiseIf_ok.mpr ⟨?_, rfl⟩
      rw [not_or, Bool.not_eq_false]
      exact hc
    rw [run_bind_of_ok (run_get_ok.mpr ⟨rfl, rfl⟩), run_bind_of_ok hpass]
    exact ⟨_, _, rfl⟩

/-- The first candidate against the table, the others against the table with
it. -/
theorem storable_cons {input : SourceCaptureInput} {keys : CaptureKeys}
    {candidate : CaptureCandidate} {rest : List CaptureCandidate}
    {memories : List CandidateMemory} (sourceId id : String) :
    Storable env svc input keys (candidate :: rest) memories ↔
      ((candidateRecord env svc input keys sourceId candidate id).checks = true ∧
        (candidateRecord env svc input keys sourceId candidate id).memoryKey ∉
          memories.map (·.memoryKey)) ∧
      Storable env svc input keys rest
        (memories ++ [candidateRecord env svc input keys sourceId candidate id]) := by
  have hkey : (candidateRecord env svc input keys sourceId candidate id).memoryKey =
      captureMemoryKey env keys.contentHash candidate input.domain input.sensitivity := rfl
  constructor
  · -- keys that differ among themselves are free of the row stored before them
    rintro ⟨hchecks, hdistinct, hfree⟩
    rw [List.map_cons, List.nodup_cons] at hdistinct
    refine ⟨⟨hchecks candidate List.mem_cons_self, hfree candidate List.mem_cons_self⟩,
      fun c hc => hchecks c (List.mem_cons_of_mem _ hc), hdistinct.2, fun c hc hmem => ?_⟩
    rw [List.map_append, List.mem_append, List.map_singleton, List.mem_singleton, hkey] at hmem
    rcases hmem with hstored | hfirst
    · exact hfree c (List.mem_cons_of_mem _ hc) hstored
    · exact hdistinct.1 (hfirst ▸ List.mem_map_of_mem hc)
  · rintro ⟨⟨hchecks, hfree⟩, hrest⟩
    -- and the other way round
    have hsplit : ∀ c ∈ rest, captureMemoryKey env keys.contentHash c input.domain
        input.sensitivity ∉ memories.map (·.memoryKey) ∧
        captureMemoryKey env keys.contentHash c input.domain input.sensitivity ≠
          captureMemoryKey env keys.contentHash candidate input.domain input.sensitivity := by
      intro c hc
      have hnot := hrest.free c hc
      rw [List.map_append, List.mem_append, List.map_singleton, List.mem_singleton, hkey,
        not_or] at hnot
      exact hnot
    refine ⟨?_, ?_, ?_⟩
    · intro c hc
      rcases List.mem_cons.mp hc with rfl | hc
      · exact hchecks
      · exact hrest.checks c hc
    · rw [List.map_cons, List.nodup_cons]
      refine ⟨fun hmem => ?_, hrest.distinct⟩
      obtain ⟨c, hc, heq⟩ := List.mem_map.mp hmem
      exact (hsplit c hc).2 heq
    · intro c hc
      rcases List.mem_cons.mp hc with rfl | hc
      · exact hfree
      · exact (hsplit c hc).1

variable (env) in
theorem createProvenanceLink_returnsIff (record : String → ProvenanceRow) (s : CaptureStore) :
    ReturnsIff (CallsPass env s.ticks 1) (fun _ t => CallsLater 1 s t)
      (createProvenanceLink env record) s := by
  unfold createProvenanceLink
  refine ReturnsIff.imp (storeCall_returnsIff (C := True) ?_) (and_iff_left trivial)
    fun _ _ h => h
  refine ⟨fun hrun => ?_, fun _ => ⟨_, _, rfl⟩⟩
  obtain ⟨_, u, hlink, hrun⟩ := run_bind_ok.mp hrun
  obtain rfl := run_modify_ok.mp hlink
  obtain rfl := run_modify_ok.mp hrun
  exact ⟨trivial, rfl, rfl, rfl⟩

variable (env svc) in
/-- The candidates are stored with three calls each. -/
theorem createCandidates_returnsIff (input : SourceCaptureInput) (keys : CaptureKeys)
    (sourceId : String) (candidates : List CaptureCandidate) (s : CaptureStore) :
    ReturnsIff (CallsPass env s.ticks (3 * candidates.length) ∧
        Storable env svc input keys candidates s.memories)
      (fun _ t => t.ticks = s.ticks + 3 * candidates.length ∧ t.sources = s.sources)
      (createCandidates env svc input keys sourceId candidates) s := by
  induction candidates generalizing s with
  | nil =>
    refine (ReturnsIff.pure ⟨rfl, rfl⟩).imp ?_ fun _ _ h => h
    exact ⟨fun _ => ⟨callsPass_zero, fun c hc => absurd hc List.not_mem_nil, List.nodup_nil,
      fun c hc => absurd hc List.not_mem_nil⟩, fun _ => trivial⟩
  | cons candidate rest ih =>
    let record := candidateRecord env svc input keys sourceId candidate (env.uuid s.ticks)
    -- the calls after the insertion leave the memories as the insertion left them
    have htail : ∀ memory t, (memory = record ∧ t.ticks = s.ticks + 1 ∧ t.sources = s.sources ∧
        t.memories = s.memories ++ [memory]) →
        ReturnsIff (CallsPass env (s.ticks + 1) 1 ∧ CallsPass env (s.ticks + 2) 1 ∧
            (CallsPass env (s.ticks + 3) (3 * rest.length) ∧
              Storable env svc input keys rest (s.memories ++ [record])) ∧ True)
          (fun _ u => u.ticks = s.ticks + 3 * (rest.length + 1) ∧ u.sources = s.sources)
          (do
            createProvenanceLink env fun id =>
              { id := id
                targetId := memory.id
                sourceId := sourceId
                sourceChunkId := candidate.sourceChunkId
                quote := candidate.line.text
                evidenceRole := "quoted_from"
                confidence := candidate.line.confidence }
            logEvent env "memory.candidate_created" (some memory.id)
            let rows ← createCandidates env svc input keys sourceId rest
            return memory :: rows) t := by
      rintro memory t ⟨rfl, hticks, hsources, hmemories⟩
      have hlink := createProvenanceLink_returnsIff env (fun id =>
        { id := id
          targetId := record.id
          sourceId := sourceId
          sourceChunkId := candidate.sourceChunkId
          quote := candidate.line.text
          evidenceRole := "quoted_from"
          confidence := candidate.line.confidence }) t
      rw [hticks] at hlink
      refine hlink.bind fun _ u hu => ?_
      have hlog := logEvent_returnsIff env "memory.candidate_created" (some record.id) u
      rw [hu.ticks, hticks] at hlog
      refine hlog.bind fun _ v hv => ?_
      have hrest := ih v
      rw [hv.ticks, hv.memories, hu.ticks, hu.memories, hticks, hmemories, hv.sources,
        hu.sources, hsources] at hrest
      refine hrest.bind fun rows w hw => ReturnsIff.pure ⟨?_, hw.2⟩
      rw [hw.1]
      omega
    refine ((createCandidate_returnsIff _ s).bind htail).imp ?_ fun _ _ h => h
    rw [storable_cons sourceId (env.uuid s.ticks), List.length_cons,
      show 3 * (rest.length + 1) = 1 + (1 + (1 + 3 * rest.length)) by omega, callsPass_add,
      callsPass_add, callsPass_add]
    show (CallsPass env s.ticks 1 ∧ record.checks = true ∧ _) ∧ _ ↔ _
    tauto

/-- The entity links, or the event that they failed. -/
def LinksPass (env : CaptureEnv) (sensitivity : String) (n : Nat) : Prop :=
  env.casefold sensitivity ∈ entityExtractionSkipSensitivities ∨ env.fault n = none ∨
    env.fault (n + 1) = none

variable (env) in
/-- Linking the entities of a source returns exactly when each of its calls does, and
touches no source. -/
theorem linkCapturedEntities_returnsIff (sourceId sensitivity : String) (s : CaptureStore) :
    ReturnsIff (LinksPass env sensitivity s.ticks) (fun _ t => t.sources = s.sources)
      (linkCapturedEntities env sourceId sensitivity) s where
  post := by
    intro u t hrun
    refine ⟨?_, ((linkCapturedEntities_keeps sourceId sensitivity).ok hrun).sources⟩
    by_cases hskip : env.casefold sensitivity ∈ entityExtractionSkipSensitivities
    · exact .inl hskip
    · refine .inr ?_
      simp only [linkCapturedEntities, onlyIf, hskip, not_false_eq_true, decide_true,
        if_true] at hrun
      rcases run_catching_ok.mp hrun with hok | ⟨e, v, herror, hlog⟩
      · exact .inl (run_storeCall_ok.mp hok).1
      · -- the call raised and so took one number; the event takes the next
        have hticks : v.ticks = s.ticks + 1 := by
          rw [writeElsewhere, run_storeCall] at herror
          cases hfault : env.fault s.ticks with
          | none => simp [hfault] at herror
          | some kind =>
            cases kind with
            | before =>
              rw [hfault] at herror
              exact (EStateM.Result.error.inj herror).2 ▸ rfl
            | after =>
              rw [hfault] at herror
              exact (EStateM.Result.error.inj herror).2 ▸ rfl
        have hpass := ((logEvent_returnsIff env _ _ v).post hlog).1
        rw [hticks] at hpass
        exact .inr (callsPass_one.mp hpass)
  returns := by
    intro hpass
    by_cases hskip : env.casefold sensitivity ∈ entityExtractionSkipSensitivities
    · exact ⟨(), s, by simp [linkCapturedEntities, onlyIf, hskip]⟩
    · have hunfold : linkCapturedEntities env sourceId sensitivity =
          catching (writeElsewhere env) fun _ =>
            logEvent env "entity.extraction_failed" (some sourceId) := by
        simp [linkCapturedEntities, onlyIf, hskip]
      rw [hunfold, run_catching, writeElsewhere, run_storeCall]
      cases hfault : env.fault s.ticks with
      | none => exact ⟨(), s.ticked, rfl⟩
      | some kind =>
        have hlater : env.fault s.ticked.ticks = none := by
          rcases hpass with hskip' | hnone | hnext
          · exact absurd hskip' hskip
          · exact absurd (hfault.symm.trans hnone) (by simp)
          · exact hnext
        obtain ⟨u, t, hlog⟩ := (logEvent_returnsIff env "entity.extraction_failed"
          (some sourceId) s.ticked).returns (callsPass_one.mpr hlater)
        cases kind with
        | before => exact ⟨u, t, hlog⟩
        | after => exact ⟨u, t, hlog⟩

section Fill

variable (env : CaptureEnv) (svc : CaptureService) (input : SourceCaptureInput)
  (keys : CaptureKeys) (sourceId : String) (s : CaptureStore) (n : Nat)

/-- The chunks of the text. -/
def chunkTexts : List String := env.chunkText keys.text svc.chunkMaxChars

/-- The candidates read from the chunks, when filling begins with the `n`-th
call. -/
def foundCandidates : List CaptureCandidate :=
  extractCandidateMemories env
    (chunkRows env sourceId keys.contentHash (chunkTexts env svc keys) 0 (n + 1))

/-- The candidates that are stored. -/
def storedCandidates : List CaptureCandidate :=
  keptCandidates keys input s (foundCandidates env svc keys sourceId n)

/-- The number of calls filling makes before the entities are linked. -/
def fillCalls : Nat :=
  1 + ((chunkTexts env svc keys).length + (1 +
    (lookupCount (foundCandidates env svc keys sourceId n) +
      (3 * (storedCandidates env svc input keys sourceId s n).length +
        if svc.deferEmbeddings then 0 else 1))))

/-- When filling the source returns: the bound of the chunks is accepted, no
call raises, and the table takes the candidates. -/
structure Fills : Prop where
  maxChars : 200 ≤ svc.chunkMaxChars
  calls : CallsPass env n (fillCalls env svc input keys sourceId s n)
  storable : Storable env svc input keys (storedCandidates env svc input keys sourceId s n)
    s.memories
  links : LinksPass env input.sensitivity (n + fillCalls env svc input keys sourceId s n)

end Fill

variable (env svc) in
theorem deferred_returnsIff (s : CaptureStore) :
    ReturnsIff (CallsPass env s.ticks (if svc.deferEmbeddings then 0 else 1))
      (fun _ t => t.ticks = s.ticks + (if svc.deferEmbeddings then 0 else 1) ∧
        t.sources = s.sources)
      (onlyIf (!svc.deferEmbeddings) (writeElsewhere env)) s := by
  cases hdefer : svc.deferEmbeddings with
  | true =>
    refine (ReturnsIff.pure ⟨rfl, rfl⟩).imp ?_ fun _ _ h => h
    exact ⟨fun _ => callsPass_zero, fun _ => trivial⟩
  | false => exact (writeElsewhere_returnsIff s).imp Iff.rfl fun _ _ h => ⟨h.ticks, h.sources⟩

variable (env svc) in
/-- Filling returns under `Fills` and not otherwise. -/
theorem fillSource_returnsIff (input : SourceCaptureInput) (keys : CaptureKeys)
    (source : SourceRow) (s : CaptureStore) :
    ReturnsIff (Fills env svc input keys source.id s s.ticks)
      (fun result t => t.sources = s.sources ∧ result.sourceId = source.id ∧
        result.duplicate = false)
      (fillSource env svc input keys source) s := by
  let chunks := chunkTexts env svc keys
  let found := foundCandidates env svc keys source.id s.ticks
  let kept := storedCandidates env svc input keys source.id s s.ticks
  let captured := s.ticks + 1 + chunks.length
  -- the conditions of the calls, in the order in which filling makes them
  have hchain : ReturnsIff
      (CallsPass env s.ticks 1 ∧ ¬ svc.chunkMaxChars < 200 ∧ CallsPass env (s.ticks + 1)
        chunks.length ∧ CallsPass env captured 1 ∧ CallsPass env (captured + 1)
        (lookupCount found) ∧ (CallsPass env (captured + 1 + lookupCount found)
          (3 * kept.length) ∧ Storable env svc input keys kept s.memories) ∧
        CallsPass env (captured + 1 + lookupCount found + 3 * kept.length)
          (if svc.deferEmbeddings then 0 else 1) ∧
        LinksPass env input.sensitivity (captured + 1 + lookupCount found + 3 * kept.length
          + (if svc.deferEmbeddings then 0 else 1)) ∧ True)
      (fun result t => t.sources = s.sources ∧ result.sourceId = source.id ∧
        result.duplicate = false)
      (fillSource env svc input keys source) s := by
    refine (logEvent_returnsIff env _ _ s).bind fun _ a ha => ?_
    refine (ReturnsIff.raiseIf _ _).bind fun _ b hb => ?_
    obtain rfl := hb
    have hchunks := createChunks_returnsIff env source.id keys.contentHash chunks 0 b
    rw [ha.ticks] at hchunks
    refine hchunks.bind fun rows c hc => ?_
    obtain ⟨rfl, hc⟩ := hc
    have hc := ha.trans hc
    have hlog := logEvent_returnsIff env "source.chunked" (some source.id) c
    rw [hc.ticks, ← Nat.add_assoc] at hlog
    refine hlog.bind fun _ d hd => ?_
    have hd := hc.trans hd
    -- the candidates are read from the chunks just stored
    have hdrop := dropUserAssertedDuplicates_returnsIff env keys input found d
    rw [hd.ticks, keptCandidates_congr hd.memories, ← Nat.add_assoc, ← Nat.add_assoc] at hdrop
    refine hdrop.bind fun candidates e he => ?_
    obtain ⟨rfl, he⟩ := he
    have he := hd.trans he
    have hcreate := createCandidates_returnsIff env svc input keys source.id
      kept e
    rw [he.ticks, he.memories, he.sources, ← Nat.add_assoc, ← Nat.add_assoc, ← Nat.add_assoc]
      at hcreate
    refine hcreate.bind fun memories f hf => ?_
    have hdefer := deferred_returnsIff env svc f
    rw [hf.1, hf.2] at hdefer
    refine hdefer.bind fun _ g hg => ?_
    have hlinks := linkCapturedEntities_returnsIff env source.id input.sensitivity g
    rw [hg.1, hg.2] at hlinks
    exact hlinks.bind fun _ h hh => ReturnsIff.pure ⟨hh, rfl, rfl⟩
  refine hchain.imp ?_ fun _ _ h => h
  -- the same calls, counted as one run of them
  have hcalls : fillCalls env svc input keys source.id s s.ticks = 1 + (chunks.length + (1 +
      (lookupCount found + (3 * kept.length + if svc.deferEmbeddings then 0 else 1)))) := rfl
  have hend : s.ticks + fillCalls env svc input keys source.id s s.ticks =
      captured + 1 + lookupCount found + 3 * kept.length
        + (if svc.deferEmbeddings then 0 else 1) := by
    rw [hcalls]
    show _ = s.ticks + 1 + chunks.length + 1 + lookupCount found + 3 * kept.length + _
    omega
  have hsplit : CallsPass env s.ticks (fillCalls env svc input keys source.id s s.ticks) ↔
      CallsPass env s.ticks 1 ∧ CallsPass env (s.ticks + 1) chunks.length ∧
        CallsPass env captured 1 ∧ CallsPass env (captured + 1) (lookupCount found) ∧
        CallsPass env (captured + 1 + lookupCount found) (3 * kept.length) ∧
        CallsPass env (captured + 1 + lookupCount found + 3 * kept.length)
          (if svc.deferEmbeddings then 0 else 1) := by
    rw [hcalls, callsPass_add, callsPass_add, callsPass_add, callsPass_add, callsPass_add]
  constructor
  · rintro ⟨h1, hmax, h2, h3, h4, ⟨h5, hstorable⟩, h6, hlinks, -⟩
    refine ⟨Nat.le_of_not_lt hmax, hsplit.mpr ⟨h1, h2, h3, h4, h5, h6⟩, hstorable, ?_⟩
    rw [hend]
    exact hlinks
  · rintro ⟨hmax, hpass, hstorable, hlinks⟩
    obtain ⟨h1, h2, h3, h4, h5, h6⟩ := hsplit.mp hpass
    rw [hend] at hlinks
    exact ⟨h1, Nat.not_lt.mpr hmax, h2, h3, h4, ⟨h5, hstorable⟩, h6, hlinks, trivial⟩

/-! ### When a claim inserts the source -/

/-- The source `_find_compatible_source` answers, when it reads the store as
it is. -/
def CaptureStore.compatibleSource (env : CaptureEnv) (s : CaptureStore) (keys : CaptureKeys)
    (input : SourceCaptureInput) : Option SourceRow :=
  match (s.sourceByDedupeKey keys.dedupeKey).filter (acceptsByKey env keys input) with
  | some source => some source
  | none => keys.hashes.findSome? fun contentHash =>
      (s.sourcesByContentHash contentHash).find? (acceptsByHash env keys input)

theorem liveSources_congr (h : t.sources = s.sources) : t.liveSources = s.liveSources := by
  rw [CaptureStore.liveSources, h]
  rfl

theorem selectSources_congr (h : t.sources = s.sources) (p : SourceRow → Bool) :
    t.selectSources p = s.selectSources p := by
  rw [CaptureStore.selectSources, liveSources_congr h]
  rfl

/-- A lookup by hash finds the first acceptable source, hash by hash, and writes
nothing. -/
theorem findByHash_ok {keys : CaptureKeys} {input : SourceCaptureInput} {hashes : List String}
    {found : Option SourceRow} (hrun : (findByHash env keys input hashes).run s = .ok found t) :
    (found = hashes.findSome? fun contentHash =>
      (s.sourcesByContentHash contentHash).find? (acceptsByHash env keys input)) ∧
    t.sources = s.sources ∧ t.memories = s.memories ∧
    (found = none → CallsPass env s.ticks hashes.length ∧ t.ticks = s.ticks + hashes.length) := by
  induction hashes generalizing s with
  | nil =>
    obtain ⟨rfl, rfl⟩ := run_pure_ok.mp hrun
    exact ⟨rfl, rfl, rfl, fun _ => ⟨callsPass_zero, rfl⟩⟩
  | cons contentHash rest ih =>
    obtain ⟨rows, u, hread, hrun⟩ := run_bind_ok.mp hrun
    obtain ⟨hpass, hrows, hlater⟩ := (read_returnsIff env (fun v : CaptureStore =>
      v.sourcesByContentHash contentHash) s).post hread
    have hrows : rows = s.sourcesByContentHash contentHash :=
      hrows.trans (selectSources_congr (t := s.ticked) (s := s) rfl _)
    subst hrows
    cases hfind : (s.sourcesByContentHash contentHash).find? (acceptsByHash env keys input) with
    | some source =>
      -- the first hash that finds a source ends the loop
      rw [hfind] at hrun
      obtain ⟨rfl, rfl⟩ := run_pure_ok.mp hrun
      refine ⟨?_, hlater.sources, hlater.memories, fun h => absurd h (by simp)⟩
      rw [List.findSome?_cons, hfind]
    | none =>
      -- a hash that finds none costs one call, as many as there are hashes in the end
      rw [hfind] at hrun
      obtain ⟨hfound, hsources, hmemories, hmissed⟩ := ih hrun
      refine ⟨?_, hsources.trans hlater.sources, hmemories.trans hlater.memories, fun h => ?_⟩
      · rw [List.findSome?_cons, hfind, hfound]
        congr 1
        funext other
        rw [CaptureStore.sourcesByContentHash, selectSources_congr hlater.sources]
        rfl
      · obtain ⟨hrest, hticks⟩ := hmissed h
        rw [hlater.ticks] at hrest hticks
        rw [List.length_cons, Nat.add_comm rest.length 1, callsPass_add]
        exact ⟨⟨hpass, hrest⟩, by omega⟩

/-- The number of lookups that find nothing. -/
def CaptureKeys.lookups (keys : CaptureKeys) : Nat := 1 + keys.hashes.length

/-- The lookup of a capture finds the source the store has for it and writes nothing; if
it finds none, it has made all its calls. -/
theorem findCompatibleSource_ok {keys : CaptureKeys} {input : SourceCaptureInput}
    {found : Option SourceRow}
    (hrun : (findCompatibleSource env keys input).run s = .ok found t) :
    found = s.compatibleSource env keys input ∧ t.sources = s.sources ∧
    t.memories = s.memories ∧
    (found = none → CallsPass env s.ticks keys.lookups ∧ t.ticks = s.ticks + keys.lookups) := by
  obtain ⟨byKey, u, hread, hrun⟩ := run_bind_ok.mp hrun
  obtain ⟨hpass, hkey, hlater⟩ := (read_returnsIff env (fun v : CaptureStore =>
    v.sourceByDedupeKey keys.dedupeKey) s).post hread
  have hkey : byKey = s.sourceByDedupeKey keys.dedupeKey :=
    hkey.trans (congrArg List.head? (selectSources_congr (t := s.ticked) (s := s) rfl _))
  subst hkey
  cases hfilter : (s.sourceByDedupeKey keys.dedupeKey).filter (acceptsByKey env keys input) with
  | some source =>
    -- a source under the key ends the search
    rw [hfilter] at hrun
    obtain ⟨rfl, rfl⟩ := run_pure_ok.mp hrun
    refine ⟨?_, hlater.sources, hlater.memories, fun h => absurd h (by simp)⟩
    rw [CaptureStore.compatibleSource, hfilter]
  | none =>
    -- without one the hashes are looked up, one call each
    rw [hfilter] at hrun
    obtain ⟨hfound, hsources, hmemories, hmissed⟩ := findByHash_ok hrun
    refine ⟨?_, hsources.trans hlater.sources, hmemories.trans hlater.memories, fun h => ?_⟩
    · rw [CaptureStore.compatibleSource, hfilter, hfound]
      simp only [CaptureStore.sourcesByContentHash, selectSources_congr hlater.sources]
    · obtain ⟨hrest, hticks⟩ := hmissed h
      rw [hlater.ticks] at hrest hticks
      rw [CaptureKeys.lookups, callsPass_add]
      exact ⟨⟨hpass, hrest⟩, by omega⟩

/-- A lookup by hash returns if its calls pass. -/
theorem findByHash_returns {keys : CaptureKeys} {input : SourceCaptureInput}
    {hashes : List String} (hpass : CallsPass env s.ticks hashes.length) :
    ∃ found t, (findByHash env keys input hashes).run s = .ok found t := by
  induction hashes generalizing s with
  | nil => exact ⟨none, s, rfl⟩
  | cons contentHash rest ih =>
    rw [List.length_cons, Nat.add_comm rest.length 1, callsPass_add] at hpass
    obtain ⟨rows, u, hread⟩ := (read_returnsIff env (fun v : CaptureStore =>
      v.sourcesByContentHash contentHash) s).returns hpass.1
    have hlater := ((read_returnsIff env (fun v : CaptureStore =>
      v.sourcesByContentHash contentHash) s).post hread).2.2
    rw [findByHash, run_bind_of_ok hread]
    cases rows.find? (acceptsByHash env keys input) with
    | some source => exact ⟨some source, u, rfl⟩
    | none =>
      rw [← hlater.ticks] at hpass
      exact ih hpass.2

theorem findCompatibleSource_returns {keys : CaptureKeys} {input : SourceCaptureInput}
    (hpass : CallsPass env s.ticks keys.lookups) :
    ∃ found t, (findCompatibleSource env keys input).run s = .ok found t := by
  rw [CaptureKeys.lookups, callsPass_add] at hpass
  obtain ⟨byKey, u, hread⟩ := (read_returnsIff env (fun v : CaptureStore =>
    v.sourceByDedupeKey keys.dedupeKey) s).returns hpass.1
  have hlater := ((read_returnsIff env (fun v : CaptureStore =>
    v.sourceByDedupeKey keys.dedupeKey) s).post hread).2.2
  rw [findCompatibleSource, run_bind_of_ok hread]
  cases byKey.filter (acceptsByKey env keys input) with
  | some source => exact ⟨some source, u, rfl⟩
  | none =>
    rw [← hlater.ticks] at hpass
    exact findByHash_returns hpass.2

/-- The row the call of number `n` inserts into the store. -/
structure Insertable (env : CaptureEnv)
    (record : String → UtcMoment → Except TimestampError SourceRow) (n : Nat) (s : CaptureStore)
    (row : SourceRow) : Prop where
  record_eq : record (env.uuid n) (env.now n) = .ok row
  checks : row.checks = true
  unclaimed : ∀ source ∈ s.liveSources, source.dedupeKey ≠ row.dedupeKey
  fresh : s.sources.get? row.id = none

/-- The rows a selection sees. -/
theorem mem_selectSources {p : SourceRow → Bool} {source : SourceRow} :
    source ∈ s.selectSources p ↔ source ∈ s.liveSources ∧ p source = true := by
  rw [CaptureStore.selectSources, List.mem_insertionSort, List.mem_filter]

theorem head?_selectSources_eq_none {p : SourceRow → Bool} :
    (s.selectSources p).head? = none ↔ ∀ source ∈ s.liveSources, p source = false := by
  rw [List.head?_eq_none_iff, List.eq_nil_iff_forall_not_mem]
  simp only [mem_selectSources, not_and, Bool.not_eq_true]

/-- The store once a source was inserted. -/
def CaptureStore.withSource (s : CaptureStore) (sources : Table SourceRow.id) (id : String) :
    CaptureStore :=
  { s with sources := sources, events := s.events ++ [⟨"source.created", some id⟩] }

theorem insertable_unique {record : String → UtcMoment → Except TimestampError SourceRow} {n : Nat}
    {row row' : SourceRow} (h : Insertable env record n s row)
    (h' : Insertable env record n s row') : row = row' :=
  Except.ok.inj (h.record_eq.symm.trans h'.record_eq)

/-- What an insertion that is accepted leaves. -/
theorem insertOrFindSource_insert
    {record : String → UtcMoment → Except TimestampError SourceRow} {n : Nat} {row : SourceRow}
    (h : Insertable env record n s row) :
    ∃ sources, s.sources.insert? row = some sources ∧
      (insertOrFindSource env record n).run s =
        .ok (row, true) (s.withSource sources row.id) := by
  obtain ⟨sources, hsources⟩ := Table.exists_insert? h.fresh
  have hrecord : (raising ((record (env.uuid n) (env.now n)).mapError fun _ => .overflow) :
      Capture SourceRow).run s = .ok row s := by
    rw [h.record_eq]
    rfl
  have hchecks : (raiseIf (row.checks = false) .integrity : Capture Unit).run s = .ok () s :=
    run_raiseIf_ok.mpr ⟨by simp [h.checks], rfl⟩
  have hnone : (s.selectSources fun r => decide (r.dedupeKey = row.dedupeKey)).head? = none :=
    head?_selectSources_eq_none.mpr fun source hsource =>
      decide_eq_false (h.unclaimed source hsource)
  refine ⟨sources, hsources, ?_⟩
  rw [insertOrFindSource, run_bind_of_ok hrecord, run_bind_of_ok (run_get_ok.mpr ⟨rfl, rfl⟩),
    run_bind_of_ok hchecks, hnone, hsources]
  rfl

/-- Where nothing is inserted, the store is left as it was. -/
theorem insertOrFindSource_keep
    {record : String → UtcMoment → Except TimestampError SourceRow} {n : Nat}
    (h : ∀ row, ¬ Insertable env record n s row) :
    endState ((insertOrFindSource env record n).run s) = s ∧
      ∀ row t, (insertOrFindSource env record n).run s ≠ .ok (row, true) t := by
  rw [insertOrFindSource]
  cases hrecord : record (env.uuid n) (env.now n) with
  | error e =>
    refine ⟨rfl, fun row t hrun => ?_⟩
    obtain ⟨found, u, hraised, -⟩ := run_bind_ok.mp hrun
    exact absurd (run_raising_ok.mp hraised).1 (by simp [Except.mapError])
  | ok row =>
    have hraise : (raising ((Except.ok row : Except TimestampError SourceRow).mapError
        fun _ => .overflow) : Capture SourceRow).run s = .ok row s := rfl
    rw [run_bind_of_ok hraise, run_bind_of_ok (run_get_ok.mpr ⟨rfl, rfl⟩), run_bind]
    by_cases hchecks : row.checks = false
    · have hrefused : (raiseIf (row.checks = false) .integrity : Capture Unit).run s =
          .error .integrity s := run_raiseIf_error.mpr ⟨hchecks, rfl, rfl⟩
      rw [hrefused]
      exact ⟨rfl, fun _ _ hrun => absurd hrun (by simp)⟩
    · have hpass : (raiseIf (row.checks = false) .integrity : Capture Unit).run s = .ok () s :=
        run_raiseIf_ok.mpr ⟨hchecks, rfl⟩
      rw [hpass]
      show endState (EStateM.run _ s) = s ∧ ∀ row' t, EStateM.run _ s ≠ .ok (row', true) t
      cases hwinner : (s.selectSources fun r => decide (r.dedupeKey = row.dedupeKey)).head? with
      | some winner =>
        -- the identity is held, by a row that is answered or refused
        have hcases : ∀ u, (raiseIf (sourceCaptureIdentityMatches env winner [row.contentHash]
            row.projectScope row.domain row.sensitivity = false) u : Capture Unit).run s =
              .ok () s ∨
            (raiseIf (sourceCaptureIdentityMatches env winner [row.contentHash]
            row.projectScope row.domain row.sensitivity = false) u : Capture Unit).run s =
              .error u s := by
          intro u
          by_cases hmatch : sourceCaptureIdentityMatches env winner [row.contentHash]
            row.projectScope row.domain row.sensitivity = false
          · exact .inr (run_raiseIf_error.mpr ⟨hmatch, rfl, rfl⟩)
          · exact .inl (run_raiseIf_ok.mpr ⟨hmatch, rfl⟩)
        simp only []
        rw [run_bind]
        rcases hcases (.storeInvariant
          "atomic source dedupe winner does not match capture identity") with hok | herror
        · rw [hok]
          refine ⟨rfl, fun row' t hrun => ?_⟩
          exact absurd (run_pure_ok.mp hrun).1 (by simp)
        · rw [herror]
          exact ⟨rfl, fun row' t hrun => absurd hrun (by simp)⟩
      | none =>
        -- only a taken identifier is left
        have hunclaimed := head?_selectSources_eq_none.mp hwinner
        cases hinsert : s.sources.insert? row with
        | none =>
          refine ⟨rfl, fun row' t hrun => ?_⟩
          obtain ⟨kept, u, hkept, -⟩ := run_bind_ok.mp hrun
          exact absurd (run_orRaise_ok.mp hkept).1 (by simp)
        | some sources =>
          refine absurd ⟨hrecord, Bool.eq_true_of_not_eq_false hchecks, ?_, ?_⟩ (h row)
          · intro source hsource
            exact of_decide_eq_false (hunclaimed source hsource)
          · exact (Table.insert?_eq_some_iff.mp hinsert).1

/-! ### How a capture ends -/

section Ends

variable (env : CaptureEnv) (svc : CaptureService) (input : SourceCaptureInput)
  (s : CaptureStore) (keys : CaptureKeys) (row : SourceRow)

/-- The number of the call that inserts the source. -/
def insertCall : Nat := s.ticks + keys.lookups

/-- A capture inserts the row: its lookups return and find nothing, and the
table takes the row. -/
structure Inserts : Prop where
  keys_eq : captureKeys env input = some keys
  lookups : CallsPass env s.ticks keys.lookups
  missed : s.compatibleSource env keys input = none
  reached : env.fault (insertCall s keys) ≠ some .before
  insertable : Insertable env (sourceRecord env svc input keys) (insertCall s keys) s row

/-- A capture that inserts the row returns. -/
structure Completes : Prop where
  inserted : env.fault (insertCall s keys) = none
  fills : Fills env svc input keys row.id s (insertCall s keys + 1)

end Ends

theorem inserts_unique {input : SourceCaptureInput} {keys keys' : CaptureKeys}
    {row row' : SourceRow} (h : Inserts env svc input s keys row)
    (h' : Inserts env svc input s keys' row') : keys = keys' ∧ row = row' := by
  obtain rfl := Option.some.inj (h.keys_eq.symm.trans h'.keys_eq)
  exact ⟨rfl, insertable_unique h.insertable h'.insertable⟩

theorem insertable_congr (h : t.sources = s.sources)
    {record : String → UtcMoment → Except TimestampError SourceRow} {n : Nat} {row : SourceRow} :
    Insertable env record n t row ↔ Insertable env record n s row := by
  have hlive : t.liveSources = s.liveSources := liveSources_congr h
  constructor
  · rintro ⟨hrecord, hchecks, hunclaimed, hfresh⟩
    exact ⟨hrecord, hchecks, hlive ▸ hunclaimed, h ▸ hfresh⟩
  · rintro ⟨hrecord, hchecks, hunclaimed, hfresh⟩
    exact ⟨hrecord, hchecks, hlive.symm ▸ hunclaimed, h.symm ▸ hfresh⟩

theorem fills_congr (h : t.memories = s.memories) {input : SourceCaptureInput}
    {keys : CaptureKeys} {sourceId : String} {n : Nat} :
    Fills env svc input keys sourceId t n ↔ Fills env svc input keys sourceId s n := by
  have hstored : storedCandidates env svc input keys sourceId t n =
      storedCandidates env svc input keys sourceId s n := keptCandidates_congr h _ _ _
  have hcalls : fillCalls env svc input keys sourceId t n =
      fillCalls env svc input keys sourceId s n := by
    rw [fillCalls, hstored]
    rfl
  constructor
  · rintro ⟨hmax, hpass, hstorable, hlinks⟩
    exact ⟨hmax, hcalls ▸ hpass, h ▸ hstored ▸ hstorable, hcalls ▸ hlinks⟩
  · rintro ⟨hmax, hpass, hstorable, hlinks⟩
    exact ⟨hmax, hcalls.symm ▸ hpass, h.symm ▸ hstored.symm ▸ hstorable,
      hcalls.symm ▸ hlinks⟩

theorem findByHash_keeps (keys : CaptureKeys) (input : SourceCaptureInput)
    (hashes : List String) : Moves KeepsSources (findByHash env keys input hashes) := by
  induction hashes with
  | nil => exact Moves.pure _
  | cons contentHash rest ih =>
    refine Moves.bind (storeCall_keeps fun _ => Moves.bind Moves.get fun _ => Moves.pure _)
      fun rows => ?_
    cases rows.find? (acceptsByHash env keys input) with
    | some source => exact Moves.pure _
    | none => exact ih

theorem findCompatibleSource_keeps (keys : CaptureKeys) (input : SourceCaptureInput) :
    Moves KeepsSources (findCompatibleSource env keys input) := by
  refine Moves.bind (storeCall_keeps fun _ => Moves.bind Moves.get fun _ => Moves.pure _)
    fun byKey => ?_
  cases byKey.filter (acceptsByKey env keys input) with
  | some source => exact Moves.pure _
  | none => exact findByHash_keeps keys input _

/-- How a claim of the keys ends. -/
inductive ClaimEnds (env : CaptureEnv) (svc : CaptureService) (input : SourceCaptureInput)
    (keys : CaptureKeys) (s : CaptureStore) : EStateM.Result CaptureError CaptureStore Claim → Prop
  /-- The row is inserted and answered. -/
  | created {row t} : Inserts env svc input s keys row → env.fault (insertCall s keys) = none →
      s.sources.insert? row = some t.sources → t.ticks = insertCall s keys + 1 →
      t.memories = s.memories → ClaimEnds env svc input keys s (.ok (.created row) t)
  /-- The call that inserts the row raises after it. -/
  | cut {row e t} : Inserts env svc input s keys row →
      env.fault (insertCall s keys) = some .after → s.sources.insert? row = some t.sources →
      ClaimEnds env svc input keys s (.error e t)
  /-- Nothing is inserted. -/
  | kept {result} : (∀ row, ¬ Inserts env svc input s keys row) →
      (endState result).sources = s.sources → (∀ row t, result ≠ .ok (.created row) t) →
      ClaimEnds env svc input keys s result

/-- A claim ends in one of three ways: its row is inserted and answered, it is inserted
by a call that raises after it, or nothing is inserted. -/
theorem claimSource_ends {input : SourceCaptureInput} {keys : CaptureKeys}
    (hkeys : captureKeys env input = some keys) (s : CaptureStore) :
    ClaimEnds env svc input keys s ((claimSource env svc input keys).run s) := by
  rw [claimSource, run_bind]
  cases hfind : (findCompatibleSource env keys input).run s with
  | error e u =>
    -- a lookup raised
    refine .kept (fun row hinserts => ?_) ((findCompatibleSource_keeps keys input s).error
      hfind).sources fun row t h => absurd h (by simp)
    obtain ⟨found, t, hok⟩ : ∃ found t, (findCompatibleSource env keys input).run s = .ok found t :=
      findCompatibleSource_returns hinserts.lookups
    exact absurd (hok.symm.trans hfind) (by simp)
  | ok found u =>
    obtain ⟨hfound, hsources, hmemories, hmissed⟩ := findCompatibleSource_ok hfind
    cases found with
    | some duplicate =>
      -- a duplicate is answered, and only its event is written
      refine .kept (fun row hinserts => ?_) ?_ ?_
      · exact absurd (hfound.trans hinserts.missed) (by simp)
      · have hmoves := Moves.bind (logEvent_keeps env "source.duplicate_skipped"
          (some duplicate.id)) fun _ => Moves.pure (Claim.duplicate duplicate.id)
        exact (KeepsSources.sources (hmoves u)).trans hsources
      · intro row t hrun
        obtain ⟨_, v, -, hpure⟩ := run_bind_ok.mp hrun
        exact absurd (run_pure_ok.mp hpure).1 (by simp)
    | none =>
      obtain ⟨hpass, hticks⟩ := hmissed rfl
      have hticks : u.ticks = insertCall s keys := hticks
      show ClaimEnds env svc input keys s (EStateM.run (_ >>= _) u)
      rw [run_bind, getOrCreateSource, run_storeCall, hticks]
      -- whether the table takes the row is read off the state before the claim
      by_cases hrow : ∃ row, Insertable env (sourceRecord env svc input keys)
          (insertCall s keys) u row
      · obtain ⟨row, hrow⟩ := hrow
        have hrow' := (insertable_congr hsources).mp hrow
        obtain ⟨sources, hinsert, hrun⟩ := insertOrFindSource_insert (s := u.ticked)
          ((insertable_congr (t := u.ticked) (s := u) rfl).mpr hrow)
        rw [ticked_sources, hsources] at hinsert
        rw [hrun]
        cases hfault : env.fault (insertCall s keys) with
        | none =>
          have hinserts : Inserts env svc input s keys row :=
            ⟨hkeys, hpass, hfound.symm, by rw [hfault]; simp, hrow'⟩
          exact .created hinserts hfault hinsert (congrArg Nat.succ hticks) hmemories
        | some kind =>
          cases kind with
          | before =>
            -- the call did not reach the table
            refine .kept (fun row hinserts => hinserts.reached hfault) hsources
              fun row t h => absurd h (by simp)
          | after =>
            -- the row stays behind a call that raised
            have hinserts : Inserts env svc input s keys row :=
              ⟨hkeys, hpass, hfound.symm, by rw [hfault]; simp, hrow'⟩
            exact .cut hinserts hfault hinsert
      · -- the identity is held by a row already, so nothing is inserted
        have hnot : ∀ row, ¬ Inserts env svc input s keys row := fun row hinserts =>
          hrow ⟨row, (insertable_congr hsources).mpr hinserts.insertable⟩
        have hnone : ∀ row, ¬ Insertable env (sourceRecord env svc input keys)
            (insertCall s keys) u.ticked row :=
          fun row h => hrow ⟨row, (insertable_congr (t := u.ticked) (s := u) rfl).mp h⟩
        obtain ⟨hkeep, hanswer⟩ := insertOrFindSource_keep hnone
        have hkept : (endState ((insertOrFindSource env (sourceRecord env svc input keys)
            (insertCall s keys)).run u.ticked)).sources = s.sources := by
          rw [hkeep]
          exact hsources
        cases hrun : (insertOrFindSource env (sourceRecord env svc input keys)
            (insertCall s keys)).run u.ticked with
        | error e v =>
          rw [hrun] at hkept
          cases env.fault (insertCall s keys) with
          | none => exact .kept hnot hkept fun row t h => absurd h (by simp)
          | some kind =>
            cases kind with
            | before => exact .kept hnot hsources fun row t h => absurd h (by simp)
            | after => exact .kept hnot hkept fun row t h => absurd h (by simp)
        | ok answer v =>
          obtain ⟨winner, created⟩ := answer
          rw [hrun] at hkept
          cases env.fault (insertCall s keys) with
          | some kind =>
            cases kind with
            | before => exact .kept hnot hsources fun row t h => absurd h (by simp)
            | after => exact .kept hnot hkept fun row t h => absurd h (by simp)
          | none =>
            cases created with
            | true => exact absurd hrun (hanswer winner v)
            | false =>
              -- the row that holds the identity is compared with the request
              have hmoves := Moves.bind (Moves.raiseIf (R := KeepsSources)
                (matchesRequest env winner [keys.contentHash] keys input = false)
                (.storeInvariant
                  "atomic source dedupe winner does not match capture identity"))
                fun _ => Moves.bind (logEvent_keeps env "source.duplicate_skipped"
                  (some winner.id)) fun _ => Moves.pure (Claim.duplicate winner.id)
              refine .kept hnot ((KeepsSources.sources (hmoves v)).trans hkept) ?_
              intro row t hrun
              obtain ⟨_, w, -, hrun⟩ := run_bind_ok.mp hrun
              obtain ⟨_, x, -, hpure⟩ := run_bind_ok.mp hrun
              exact absurd (run_pure_ok.mp hpure).1 (by simp)

/-- How a capture ends. -/
inductive CaptureEnds (env : CaptureEnv) (svc : CaptureService) (input : SourceCaptureInput)
    (s : CaptureStore) : EStateM.Result CaptureError CaptureStore CaptureResult → Prop
  /-- The row is inserted and filled. -/
  | imported {keys row result t} : Inserts env svc input s keys row →
      Completes env svc input s keys row → s.sources.insert? row = some t.sources →
      result.sourceId = row.id → result.duplicate = false →
      CaptureEnds env svc input s (.ok result t)
  /-- The row is inserted, and a later part raises. -/
  | broken {keys row e t} : Inserts env svc input s keys row →
      ¬ Completes env svc input s keys row → s.sources.insert? row = some t.sources →
      CaptureEnds env svc input s (.error e t)
  /-- Nothing is inserted; what is answered is a duplicate. -/
  | kept {result} : (∀ keys row, ¬ Inserts env svc input s keys row) →
      (endState result).sources = s.sources →
      (∀ answer t, result = .ok answer t → answer.duplicate = true) →
      CaptureEnds env svc input s result

variable (env svc) in
/-- A capture ends in one of three ways: its source is inserted and filled, it is
inserted and a later part raises, or nothing is inserted. -/
theorem captureBody_ends (input : SourceCaptureInput) (s : CaptureStore) :
    CaptureEnds env svc input s ((captureBody env svc input).run s) := by
  rw [captureBody]
  cases hkeys : captureKeys env input with
  | none =>
    -- without keys nothing has been read or written
    refine .kept (fun keys row h => ?_) rfl fun answer t h => ?_
    · exact absurd (hkeys.symm.trans h.keys_eq) (by simp)
    · obtain ⟨keys, u, hraise, -⟩ := run_bind_ok.mp h
      exact absurd (run_orRaise_ok.mp hraise).1 (by simp)
  | some keys =>
    rw [run_bind_of_ok (run_orRaise_ok.mpr ⟨rfl, rfl⟩), run_bind]
    have hends : ClaimEnds env svc input keys s ((claimSource env svc input keys).run s) :=
      claimSource_ends hkeys s
    cases hclaim : (claimSource env svc input keys).run s with
    | error e t =>
      rw [hclaim] at hends
      cases hends with
      | cut hinserts hafter hinsert =>
        -- the source was inserted and the claim raised after it
        refine .broken hinserts (fun h => ?_) hinsert
        exact absurd (hafter.symm.trans h.inserted) (by simp)
      | kept hnot hsources _ =>
        refine .kept (fun keys' row h => ?_) hsources fun answer t h => absurd h (by simp)
        obtain rfl := Option.some.inj (hkeys.symm.trans h.keys_eq)
        exact hnot row h
    | ok claim t =>
      rw [hclaim] at hends
      cases claim with
      | duplicate sourceId =>
        cases hends with
        | kept hnot hsources _ =>
          refine .kept (fun keys' row h => ?_) hsources fun answer u hrun => ?_
          · obtain rfl := Option.some.inj (hkeys.symm.trans h.keys_eq)
            exact hnot row h
          · obtain ⟨rfl, -⟩ := run_pure_ok.mp hrun
            rfl
      | created row =>
        cases hends with
        | kept _ _ hanswer => exact absurd rfl (hanswer row t)
        | created hinserts hnone hinsert hticks hmemories =>
          have hfill := fillSource_returnsIff env svc input keys row t
          -- the claim has read the clock and written the source; what is filled in later decides
          have hiff : Fills env svc input keys row.id t t.ticks ↔
              Completes env svc input s keys row := by
            rw [hticks, fills_congr hmemories]
            exact ⟨fun h => ⟨hnone, h⟩, fun h => h.fills⟩
          show CaptureEnds env svc input s ((fillSource env svc input keys row).run t)
          cases hrun : (fillSource env svc input keys row).run t with
          | ok result u =>
            obtain ⟨hfills, hsources, hid, hduplicate⟩ := hfill.post hrun
            exact .imported hinserts (hiff.mp hfills) (hsources ▸ hinsert) hid hduplicate
          | error e u =>
            -- a source is left behind that was not completed
            refine .broken hinserts (fun h => ?_) ?_
            · obtain ⟨result, v, hok⟩ := hfill.returns (hiff.mpr h)
              exact absurd (hok.symm.trans hrun) (by simp)
            · rw [((fillSource_keeps input keys row t).error hrun).sources]
              exact hinsert

variable (env svc) in
/-- A capture imports, or breaks behind an inserted row, or inserts nothing. -/
theorem captureSource_ends (input : SourceCaptureInput) (s : CaptureStore) :
    CaptureEnds env svc input s ((captureSource env svc input).run s) := by
  have hends := captureBody_ends env svc input s
  rw [captureSource, run_catching]
  cases hrun : (captureBody env svc input).run s with
  | ok result t =>
    rw [hrun] at hends
    exact hends
  | error e t =>
    rw [hrun] at hends
    -- the handler logs and raises again
    have hkeep := Moves.bind (logEvent_keeps env "source.import_failed" none)
      fun _ => Moves.throw (R := KeepsSources) (α := CaptureResult) e
    have hraises : ∃ e' u, (do
        logFailure env
        throw e : Capture CaptureResult).run t = .error e' u := by
      cases hhandler : (do
          logFailure env
          throw e : Capture CaptureResult).run t with
      | ok result u =>
        obtain ⟨_, v, -, hthrow⟩ := run_bind_ok.mp hhandler
        exact (run_throw_ok.mp hthrow).elim
      | error e' u => exact ⟨e', u, rfl⟩
    obtain ⟨e', u, hhandler⟩ := hraises
    have hsources : u.sources = t.sources := ((hkeep t).error hhandler).sources
    show CaptureEnds env svc input s ((do
      logFailure env
      throw e : Capture CaptureResult).run t)
    rw [hhandler]
    cases hends with
    | broken hinserts hnot hinsert => exact .broken hinserts hnot (hsources ▸ hinsert)
    | kept hnot hkept _ =>
      exact .kept hnot (hsources.trans hkept) fun answer v h => absurd h (by simp)

end AliceBot
