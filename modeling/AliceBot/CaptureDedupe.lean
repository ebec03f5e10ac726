import AliceBot.Library.Run
import AliceBot.CaptureLaws

/-!
# Deduplication of captures

What a capture is meant to answer is said by the rows alone: "duplicate" with
the live source of the same text, projects, domain and sensitivity
(`SameIdentity`), and otherwise "imported" (`Honoured`). What it answers is
found through the encoders of `SourceIdentity`. The two agree in a store
reached by captures and updates exactly where the encoders agree there
(`EncodersAgree`, `capture_honoured_iff`).

They need not agree. The request names its projects in a field, the stored row
in its metadata, and only a canonical key makes the two the same; the texts
are joined with separators they may contain; an update moves the keys of a
source and not the memory keys of its candidates.
-/

namespace AliceBot

open PyLib

/-! ### Histories -/

/-- A call of the component. -/
inductive CaptureCall where
  | capture (svc : CaptureService) (input : SourceCaptureInput)
  | update (sourceId : String) (patch : SourcePatch)

/-- The state a call leaves, also when it raises. -/
def CaptureCall.next (env : CaptureEnv) (s : CaptureStore) : CaptureCall → CaptureStore
  | .capture svc input => endState ((captureSource env svc input).run s)
  | .update sourceId patch => endState ((updateSource env sourceId patch).run s)

/-- Captures and updates from an empty store. A call whose transaction is
rolled back is no part of the history. -/
abbrev CaptureHistory (env : CaptureEnv) : List CaptureCall → CaptureStore → Prop :=
  Run (fun s call t => t = call.next env s) fun s => s = { sources := default }

variable {env : CaptureEnv} {svc : CaptureService} {s t : CaptureStore}

/-- Every source has an identifier drawn before, and the table's constraints
hold of it. -/
def SourcesSound (env : CaptureEnv) (s : CaptureStore) : Prop :=
  ∀ row ∈ s.sources.rows, (∃ n < s.ticks, row.id = env.uuid n) ∧ row.checks = true

/-- What every part of a call does: no number is used twice, and sound sources
stay sound. -/
structure StaysSound (env : CaptureEnv) (s t : CaptureStore) : Prop where
  ticks : s.ticks ≤ t.ticks
  sound : SourcesSound env s → SourcesSound env t

instance : Std.Refl (StaysSound env) := ⟨fun s => ⟨le_refl s.ticks, id⟩⟩

instance : IsTrans CaptureStore (StaysSound env) :=
  ⟨fun _ _ _ h h' => ⟨h.ticks.trans h'.ticks, h'.sound ∘ h.sound⟩⟩

theorem KeepsSources.staysSound (h : KeepsSources s t) : StaysSound env s t := by
  refine ⟨h.ticks, fun hsound row hrow => ?_⟩
  rw [h.sources] at hrow
  obtain ⟨⟨n, hn, hid⟩, hchecks⟩ := hsound row hrow
  exact ⟨⟨n, hn.trans_le h.ticks, hid⟩, hchecks⟩

/-- The identifier a record is given. -/
theorem sourceRecord_id {input : SourceCaptureInput} {keys : CaptureKeys} {id : String}
    {now : UtcMoment} {row : SourceRow}
    (h : sourceRecord env svc input keys id now = .ok row) : row.id = id := by
  rw [sourceRecord] at h
  obtain ⟨_, -, h⟩ := except_bind_ok.mp h
  obtain ⟨_, -, h⟩ := except_bind_ok.mp h
  obtain ⟨_, -, h⟩ := except_bind_ok.mp h
  obtain rfl := Except.ok.inj h
  rfl

/-- A source is inserted under a number drawn before, and only if the constraints of the
table hold of it. -/
theorem getOrCreateSource_staysSound (input : SourceCaptureInput) (keys : CaptureKeys) :
    Moves (StaysSound env) (getOrCreateSource env (sourceRecord env svc input keys)) := by
  intro s
  -- the call itself draws the identifier, so it is bounded by the ticks after it
  have hbody : StaysSound env s.ticked (endState
      ((insertOrFindSource env (sourceRecord env svc input keys) s.ticks).run s.ticked)) := by
    by_cases hrow : ∃ row, Insertable env (sourceRecord env svc input keys) s.ticks s.ticked row
    · obtain ⟨row, hrow⟩ := hrow
      obtain ⟨sources, hinsert, hrun⟩ := insertOrFindSource_insert hrow
      rw [hrun]
      refine ⟨le_refl _, fun hsound other hother => ?_⟩
      have hother : other ∈ sources.rows := hother
      rw [(Table.insert?_eq_some_iff.mp hinsert).2] at hother
      rcases List.mem_append.mp hother with hold | hnew
      · exact hsound other hold
      · obtain rfl := List.mem_singleton.mp hnew
        exact ⟨⟨s.ticks, Nat.lt_succ_self _, sourceRecord_id hrow.record_eq⟩, hrow.checks⟩
    · rw [(insertOrFindSource_keep fun row h => hrow ⟨row, h⟩).1]
      exact Std.Refl.refl _
  rw [MovesAt, getOrCreateSource, run_storeCall]
  have htick : StaysSound env s s.ticked := (keepsSources_ticked s).staysSound
  have hafter := IsTrans.trans (r := StaysSound env) _ _ _ htick hbody
  cases env.fault s.ticks with
  | none => exact hafter
  | some kind =>
    cases kind with
    | before => exact htick
    | after =>
      cases hrun : (insertOrFindSource env (sourceRecord env svc input keys) s.ticks).run
          s.ticked with
      | ok a u =>
        rw [hrun] at hafter
        exact hafter
      | error e u =>
        rw [hrun] at hafter
        exact hafter

theorem moves_sound {α : Type} {m : Capture α} (hm : Moves KeepsSources m) :
    Moves (StaysSound env) m :=
  hm.mono fun _ _ h => h.staysSound

/-- A capture keeps the sources sound, whether it returns or raises. -/
theorem captureSource_staysSound (input : SourceCaptureInput) :
    Moves (StaysSound env) (captureSource env svc input) := by
  refine Moves.catching ?_ fun e =>
    moves_sound (Moves.bind (logEvent_keeps env _ _) fun _ => Moves.throw e)
  refine Moves.bind (Moves.orRaise _ _) fun keys => ?_
  refine Moves.bind ?_ fun claim => ?_
  · refine Moves.bind (moves_sound (findCompatibleSource_keeps keys input)) fun found => ?_
    cases found with
    | some source => exact moves_sound (Moves.bind (logEvent_keeps env _ _) fun _ => Moves.pure _)
    | none =>
      refine Moves.bind (getOrCreateSource_staysSound input keys) fun answer => ?_
      obtain ⟨source, created⟩ := answer
      cases created with
      | true => exact Moves.pure _
      | false =>
        exact moves_sound (Moves.bind (Moves.raiseIf _ _) fun _ =>
          Moves.bind (logEvent_keeps env _ _) fun _ => Moves.pure _)
  · cases claim with
    | duplicate sourceId => exact Moves.pure _
    | created source => exact moves_sound (fillSource_keeps input keys source)

/-- An update draws no number and is refused where the constraints would not hold, so
sound sources stay sound. -/
theorem updateSource_staysSound (sourceId : String) (patch : SourcePatch) :
    Moves (StaysSound env) (updateSource env sourceId patch) := by
  refine storeCall_moves (fun s => (keepsSources_ticked s).staysSound) fun n => ?_
  intro s
  refine MovesAt.bind (Moves.get s) fun read u hread => ?_
  obtain ⟨rfl, rfl⟩ := run_get_ok.mp hread
  refine MovesAt.bind (Moves.orRaise _ _ s) fun current u hcurrent => ?_
  obtain ⟨hfound, rfl⟩ := run_orRaise_ok.mp hcurrent
  refine MovesAt.bind (Moves.raiseIf _ _ s) fun _ u howner => ?_
  obtain ⟨-, rfl⟩ := run_raiseIf_ok.mp howner
  refine MovesAt.bind (Moves.raiseIf _ _ s) fun _ u hchecks => ?_
  obtain ⟨htaken, rfl⟩ := run_raiseIf_ok.mp hchecks
  refine MovesAt.bind ?_ fun _ w _ =>
    moves_sound (Moves.bind (appendCaptureEvent_keeps _ _) fun _ => Moves.pure _) w
  refine ⟨le_refl s.ticks, fun hsound row hrow => ?_⟩
  obtain ⟨old, hold, hrow⟩ := List.mem_map.mp hrow
  split at hrow
  · next hid =>
    -- the row that was read is the one rewritten, and its constraints were checked
    obtain rfl : old = current := by
      have hget := Table.get?_of_mem hold
      rw [hid] at hget
      rw [CaptureStore.getSource, hget] at hfound
      exact Option.some.inj (Option.filter_eq_some_iff.mp hfound).1
    subst hrow
    exact ⟨(hsound old hold).1, Bool.eq_true_of_not_eq_false htaken⟩
  · subst hrow
    exact hsound old hold

/-- The sources of a history are sound. -/
theorem sourcesSound_of_history {calls : List CaptureCall} (run : CaptureHistory env calls s) :
    SourcesSound env s := by
  refine Run.invariant (P := SourcesSound env) ?_ ?_ run
  · rintro s rfl row hrow
    exact absurd hrow List.not_mem_nil
  · rintro s call t hsound rfl
    cases call with
    | capture svc input =>
      have hmoves : StaysSound env s (endState ((captureSource env svc input).run s)) :=
        captureSource_staysSound input s
      exact hmoves.sound hsound
    | update sourceId patch =>
      have hmoves : StaysSound env s (endState ((updateSource env sourceId patch).run s)) :=
        updateSource_staysSound sourceId patch s
      exact hmoves.sound hsound

/-- An identifier that is still to be drawn is not in the table. -/
theorem fresh_of_sound (huuid : Function.Injective env.uuid) (hsound : SourcesSound env s) {n : Nat}
    (hn : s.ticks ≤ n) : s.sources.get? (env.uuid n) = none := by
  refine Table.get?_eq_none_iff.mpr fun hmem => ?_
  obtain ⟨row, hrow, hid⟩ := List.mem_map.mp hmem
  obtain ⟨⟨m, hm, hrowid⟩, -⟩ := hsound row hrow
  have hmn := huuid (hrowid.symm.trans hid)
  omega

/-! ### What a capture is meant to answer -/

section Meaning

variable (env : CaptureEnv) (svc : CaptureService) (input : SourceCaptureInput)

/-- The projects the row of the request would be filed under. -/
def persistedScope : List String :=
  projectScopeIdentity
    (.strs (sourceProjectScope [("metadata_json", .obj (sourceMetadata env svc input))]))

/-- The source holds the evidence the request would store, for the same
projects and under the same classification. -/
structure SameIdentity (source : SourceRow) : Prop where
  text : source.text = normalizeText input.rawText
  scope : source.scopeIdentity = persistedScope env svc input
  domain : source.domain = input.domain
  sensitivity : source.sensitivity = input.sensitivity

/-- The capture returns "duplicate" with the id of a live source exactly if that
source has the identity of the request, and "imported" if none has. -/
def Honoured (s : CaptureStore) : Prop :=
  EndsAt
    (fun answer _ =>
      (∀ source ∈ s.liveSources, (answer.duplicate = true ∧ answer.sourceId = source.id) ↔
        SameIdentity env svc input source) ∧
      ((∀ source ∈ s.liveSources, ¬ SameIdentity env svc input source) →
        answer.duplicate = false))
    (captureSource env svc input) s

/-- The live rows that the keys of a request reach, in the order of the lookup:
the row under its dedupe key, unless that row's own text has another key, and
the rows under each of its hashes; all of them for the projects that the
request's scope field names and under its classification. -/
def CaptureStore.reached (s : CaptureStore) (keys : CaptureKeys) : List SourceRow :=
  ((s.sourceByDedupeKey keys.dedupeKey).filter (acceptsByKey env keys input)).toList ++
    keys.hashes.flatMap fun contentHash =>
      (s.sourcesByContentHash contentHash).filter (acceptsByHash env keys input)

/-- The row of a request can be stored with its candidates. It passes the
table's constraints, its dedupe key is free, and so are the memory keys of the
candidates. -/
structure Storage (s : CaptureStore) (keys : CaptureKeys) (row : SourceRow) : Prop where
  record : sourceRecord env svc input keys (env.uuid (insertCall s keys))
    (env.now (insertCall s keys)) = .ok row
  checks : row.checks = true
  unclaimed : ∀ other ∈ s.liveSources, other.dedupeKey ≠ some keys.dedupeKey
  maxChars : 200 ≤ svc.chunkMaxChars
  storable : Storable env svc input keys
    (storedCandidates env svc input keys row.id s (insertCall s keys + 1)) s.memories

/-- The encoders agree on the request, in this store. -/
structure EncodersAgree (s : CaptureStore) (keys : CaptureKeys) : Prop where
  /-- No key or hash is shared with another text: such a row is reached behind
  one of the request's text only. -/
  sound : ∀ {earlier source later}, s.reached env input keys = earlier ++ source :: later →
    source.text ≠ normalizeText input.rawText →
      ∃ other ∈ earlier, other.text = normalizeText input.rawText
  /-- Where a row is reached, the scope field names the projects of the metadata. -/
  scope : s.reached env input keys ≠ [] →
    projectScopeIdentity (.strs keys.projectScope) = persistedScope env svc input
  /-- Every live row of the identity is stored under a key or a hash of the request. -/
  complete : ∀ other ∈ s.liveSources, SameIdentity env svc input other →
    other ∈ s.reached env input keys
  /-- No two live rows have the identity. -/
  unique : ∀ other ∈ s.liveSources, ∀ other' ∈ s.liveSources,
    SameIdentity env svc input other → SameIdentity env svc input other' → other = other'
  /-- Where no row is reached, the row of the request can be stored. -/
  insertable : s.reached env input keys = [] → ∃ row, Storage env svc input s keys row

end Meaning

/-! ### The lookup -/

variable {input : SourceCaptureInput} {keys : CaptureKeys} {source : SourceRow}

/-- Hashes are not empty, so each is compared with. -/
theorem ne_empty_of_mem_hashes (hkeys : captureKeys env input = some keys) {contentHash : String}
    (h : contentHash ∈ [keys.contentHash, keys.legacyContentHash]) : contentHash ≠ "" := by
  -- a hash begins with the name of its algorithm
  have hprefix : ∀ {text : String} {scope : List String} {encoded : String},
      contentHashForText env text scope = some encoded → encoded ≠ "" := by
    intro text scope encoded hencoded
    obtain ⟨normalized, -, rfl⟩ := Option.map_eq_some_iff.mp hencoded
    intro hempty
    have hlength := congrArg String.length hempty
    rw [String.length_append] at hlength
    have : ("sha256:" : String).length = 7 := by decide
    simp only [String.length_empty] at hlength
    omega
  rw [captureKeys] at hkeys
  obtain ⟨text, -, hkeys⟩ := Option.bind_eq_some_iff.mp hkeys
  obtain ⟨hash, hhash, hkeys⟩ := Option.bind_eq_some_iff.mp hkeys
  obtain ⟨key, -, hkeys⟩ := Option.bind_eq_some_iff.mp hkeys
  obtain ⟨legacy, hlegacy, hkeys⟩ := Option.bind_eq_some_iff.mp hkeys
  obtain rfl := Option.some.inj hkeys
  rcases List.mem_cons.mp h with rfl | h
  · exact hprefix hhash
  · obtain rfl := List.mem_singleton.mp h
    exact hprefix hlegacy

/-- The identity check against a request, read off. -/
theorem matchesRequest_iff {contentHashes : List String} :
    matchesRequest env source contentHashes keys input = true ↔
      ((contentHashes.filter (· ≠ "") = [] ∨ source.contentHash ∈ contentHashes.filter (· ≠ "")) ∧
        source.scopeIdentity = projectScopeIdentity (.strs keys.projectScope)) ∧
      classification env source.domain = classification env input.domain ∧
      classification env source.sensitivity = classification env input.sensitivity := by
  simp only [matchesRequest, sourceCaptureIdentityMatches, Bool.and_eq_true, Bool.or_eq_true,
    List.isEmpty_iff, decide_eq_true_eq, and_assoc]

/-- The lookup answers the first row that it reaches. -/
theorem head?_reached : (s.reached env input keys).head? = s.compatibleSource env keys input := by
  have hhashes : ∀ hashes : List String, (hashes.flatMap fun contentHash =>
      (s.sourcesByContentHash contentHash).filter (acceptsByHash env keys input)).head? =
      hashes.findSome? fun contentHash =>
        (s.sourcesByContentHash contentHash).find? (acceptsByHash env keys input) := by
    intro hashes
    induction hashes with
    | nil => rfl
    | cons contentHash rest ih =>
      rw [List.flatMap_cons, List.head?_append, ih, List.head?_filter, List.findSome?_cons]
      cases (s.sourcesByContentHash contentHash).find? (acceptsByHash env keys input) <;> rfl
  rw [CaptureStore.reached, CaptureStore.compatibleSource, List.head?_append, hhashes]
  cases (s.sourceByDedupeKey keys.dedupeKey).filter (acceptsByKey env keys input) <;> rfl

/-- What the lookup answers is live and passes the identity check. -/
theorem compatibleSource_some (h : s.compatibleSource env keys input = some source) :
    source ∈ s.liveSources ∧ ∃ contentHashes,
      matchesRequest env source contentHashes keys input = true := by
  rw [CaptureStore.compatibleSource] at h
  split at h
  · next found hfound =>
    obtain rfl := Option.some.inj h
    obtain ⟨hselected, haccepts⟩ := Option.filter_eq_some_iff.mp hfound
    refine ⟨(mem_selectSources.mp (List.mem_of_mem_head? hselected)).1, [], ?_⟩
    exact (Bool.and_eq_true_iff.mp haccepts).2
  · obtain ⟨contentHash, -, hfind⟩ := List.exists_of_findSome?_eq_some h
    have haccepts : acceptsByHash env keys input source = true := List.find?_some hfind
    exact ⟨(mem_selectSources.mp (List.mem_of_find?_eq_some hfind)).1, _, haccepts⟩

/-- A live source under a hash of the request, with the request's scope and
classification, is not missed. -/
theorem compatibleSource_ne_none (hkeys : captureKeys env input = some keys)
    (hlive : source ∈ s.liveSources) (hhash : source.contentHash ∈ keys.hashes)
    (hscope : source.scopeIdentity = projectScopeIdentity (.strs keys.projectScope))
    (hdomain : classification env source.domain = classification env input.domain)
    (hsensitivity : classification env source.sensitivity = classification env input.sensitivity) :
    s.compatibleSource env keys input ≠ none := by
  rw [CaptureStore.compatibleSource]
  split
  · simp
  · intro hnone
    have hmem : source.contentHash ∈ [keys.contentHash, keys.legacyContentHash] :=
      mem_fromkeys.mp hhash
    have hfind := List.findSome?_eq_none_iff.mp hnone source.contentHash hhash
    have hrow : source ∈ s.sourcesByContentHash source.contentHash :=
      mem_selectSources.mpr ⟨hlive, beq_self_eq_true _⟩
    refine List.find?_eq_none.mp hfind source hrow (matchesRequest_iff.mpr ?_)
    refine ⟨⟨.inr ?_, hscope⟩, hdomain, hsensitivity⟩
    rw [List.mem_filter]
    exact ⟨hmem, decide_eq_true (ne_empty_of_mem_hashes hkeys hmem)⟩

/-! ### What a capture answers, where no store call raises -/

theorem callsPass_of_quiet (hquiet : ∀ n, env.fault n = none) (n k : Nat) : CallsPass env n k :=
  fun i _ _ => hquiet i

/-- A source that the lookup selects is answered. -/
theorem captureSource_of_found (hquiet : ∀ n, env.fault n = none)
    (hkeys : captureKeys env input = some keys)
    (hfound : s.compatibleSource env keys input = some source) :
    EndsAt (fun answer _ => answer.duplicate = true ∧ answer.sourceId = source.id)
      (captureSource env svc input) s := by
  obtain ⟨found, u, hlookup⟩ :
      ∃ found u, (findCompatibleSource env keys input).run s = .ok found u :=
    findCompatibleSource_returns (callsPass_of_quiet hquiet _ _)
  obtain rfl : found = some source := (findCompatibleSource_ok hlookup).1.trans hfound
  obtain ⟨_, v, hlog⟩ := (logEvent_returnsIff env "source.duplicate_skipped"
    (some source.id) u).returns (callsPass_of_quiet hquiet _ _)
  -- the claim ends with the source found, and writes no other
  have hclaim : (claimSource env svc input keys).run s = .ok (.duplicate source.id) v := by
    rw [claimSource, run_bind_of_ok hlookup]
    exact run_bind_of_ok hlog
  have hbody : (captureBody env svc input).run s =
      .ok { sourceId := source.id, contentHash := keys.contentHash, duplicate := true } v := by
    rw [captureBody, hkeys, run_bind_of_ok (run_orRaise_ok.mpr ⟨rfl, rfl⟩),
      run_bind_of_ok hclaim]
    rfl
  refine ⟨{ sourceId := source.id, contentHash := keys.contentHash, duplicate := true }, v, ?_,
    rfl, rfl⟩
  rw [captureSource, run_catching, hbody]

/-- Where the lookup misses, a capture that returns has imported: the winner of
a lost insertion would have been found. -/
theorem imported_of_missed (hkeys : captureKeys env input = some keys)
    (hmissed : s.compatibleSource env keys input = none) {answer : CaptureResult}
    (hrun : (captureSource env svc input).run s = .ok answer t) : answer.duplicate = false := by
  rcases run_catching_ok.mp hrun with hbody | ⟨e, u, -, hhandler⟩
  · obtain ⟨keys', u, hraise, hbody⟩ := run_bind_ok.mp hbody
    obtain ⟨hkeys', rfl⟩ := run_orRaise_ok.mp hraise
    obtain rfl := Option.some.inj (hkeys.symm.trans hkeys')
    obtain ⟨claim, u, hclaim, hrest⟩ := run_bind_ok.mp hbody
    cases claim with
    | created row =>
      exact ((fillSource_returnsIff env svc input keys row u).post hrest).2.2.2
    | duplicate sourceId =>
      exfalso
      obtain ⟨found, v, hlookup, hclaim⟩ := run_bind_ok.mp hclaim
      obtain ⟨hfound, hsources, -⟩ := findCompatibleSource_ok hlookup
      rw [hmissed] at hfound
      subst hfound
      obtain ⟨⟨winner, created⟩, w, hcreate, hclaim⟩ := run_bind_ok.mp hclaim
      cases created with
      | true => exact absurd (run_pure_ok.mp hclaim).1 (by simp)
      | false =>
        -- the winner passed both checks, so it is stored under the hash of the request
        obtain ⟨_, x, hcheck, -⟩ := run_bind_ok.mp hclaim
        have hmatch := Bool.eq_true_of_not_eq_false (run_raiseIf_ok.mp hcheck).1
        have hlive : winner ∈ s.liveSources := by
          have hbody := (run_storeCall_ok.mp hcreate).2
          obtain ⟨row, _, hrow, hbody⟩ := run_bind_ok.mp hbody
          obtain ⟨-, rfl⟩ := run_raising_ok.mp hrow
          obtain ⟨read, _, hget, hbody⟩ := run_bind_ok.mp hbody
          obtain ⟨rfl, rfl⟩ := run_get_ok.mp hget
          obtain ⟨_, _, hchecks, hbody⟩ := run_bind_ok.mp hbody
          obtain ⟨-, rfl⟩ := run_raiseIf_ok.mp hchecks
          split at hbody
          · next source hhead =>
            obtain ⟨_, _, -, hbody⟩ := run_bind_ok.mp hbody
            obtain ⟨hanswer, -⟩ := run_pure_ok.mp hbody
            obtain rfl := (Prod.mk.inj hanswer).1
            have hmem := (mem_selectSources.mp (List.mem_of_mem_head? hhead)).1
            rwa [liveSources_congr (t := v.ticked) (s := s) hsources] at hmem
          · obtain ⟨_, _, -, hbody⟩ := run_bind_ok.mp hbody
            obtain ⟨_, _, -, hbody⟩ := run_bind_ok.mp hbody
            obtain ⟨_, _, -, hbody⟩ := run_bind_ok.mp hbody
            obtain ⟨hanswer, -⟩ := run_pure_ok.mp hbody
            exact absurd (Prod.mk.inj hanswer).2 (by simp)
        obtain ⟨⟨hhash, hscope⟩, hdomain, hsensitivity⟩ := matchesRequest_iff.mp hmatch
        refine compatibleSource_ne_none hkeys hlive ?_ hscope hdomain hsensitivity hmissed
        have hne : keys.contentHash ≠ "" := ne_empty_of_mem_hashes hkeys List.mem_cons_self
        rcases hhash with hempty | hmem
        · simp [hne] at hempty
        · rw [CaptureKeys.hashes, mem_fromkeys,
            List.mem_singleton.mp (List.mem_filter.mp hmem).1]
          exact List.mem_cons_self
  · obtain ⟨_, v, -, hthrow⟩ := run_bind_ok.mp hhandler
    exact (run_throw_ok.mp hthrow).elim

/-- An import leaves the conditions of `Inserts` and `Completes`. -/
theorem captureSource_of_completes {row : SourceRow} (hinserts : Inserts env svc input s keys row)
    (hcompletes : Completes env svc input s keys row) :
    EndsAt (fun answer _ => answer.duplicate = false) (captureSource env svc input) s := by
  have hends := captureSource_ends env svc input s
  cases hrun : (captureSource env svc input).run s with
  | ok answer t => exact ⟨answer, t, hrun, imported_of_missed hinserts.keys_eq hinserts.missed hrun⟩
  | error e t =>
    rw [hrun] at hends
    cases hends with
    | broken hinserts' hnot _ =>
      obtain ⟨rfl, rfl⟩ := inserts_unique hinserts hinserts'
      exact absurd hcompletes hnot
    | kept hnot _ _ => exact absurd hinserts (hnot keys row)

/-! ### Where the encoders agree -/

variable (env) in
/-- A text has keys. -/
theorem exists_captureKeys (htext : normalizeText input.rawText ≠ none) :
    ∃ keys, captureKeys env input = some keys := by
  obtain ⟨text, hnormal⟩ := Option.ne_none_iff_exists'.mp htext
  -- the encoders normalise a second time
  have hagain := normalizeText_normalized hnormal
  simp only [captureKeys, hnormal, contentHashForText, captureDedupeKeyForText, hagain,
    Option.map_some, Option.bind_eq_bind, Option.bind_some]
  exact ⟨_, rfl⟩

theorem sourceRecord_dedupeKey {id : String} {now : UtcMoment} {row : SourceRow}
    (h : sourceRecord env svc input keys id now = .ok row) :
    row.dedupeKey = some keys.dedupeKey := by
  rw [sourceRecord] at h
  obtain ⟨_, -, h⟩ := except_bind_ok.mp h
  obtain ⟨_, -, h⟩ := except_bind_ok.mp h
  obtain ⟨_, -, h⟩ := except_bind_ok.mp h
  obtain rfl := Except.ok.inj h
  rfl

/-- Identifiers tell the live sources apart. -/
theorem eq_of_liveSources_id {other : SourceRow} (h : source ∈ s.liveSources)
    (h' : other ∈ s.liveSources) (hid : source.id = other.id) : source = other :=
  List.inj_on_of_nodup_map s.sources.nodup (List.mem_filter.mp h).1 (List.mem_filter.mp h').1 hid

/-- Where the lookup finds nothing, the capture is answered as it should be if a source
is inserted and completed and no live source has the identity. -/
theorem honoured_of_missed (hkeys : captureKeys env input = some keys)
    (hmissed : s.compatibleSource env keys input = none) :
    Honoured env svc input s ↔
      (∃ row, Inserts env svc input s keys row ∧ Completes env svc input s keys row) ∧
      ∀ other ∈ s.liveSources, ¬ SameIdentity env svc input other := by
  constructor
  · rintro ⟨answer, t, hrun, hexact, -⟩
    have himported := imported_of_missed hkeys hmissed hrun
    refine ⟨?_, fun other hother hidentity => ?_⟩
    · -- the row that was inserted is the one of these keys
      have hends := captureSource_ends env svc input s
      rw [hrun] at hends
      cases hends with
      | imported hinserts hcompletes _ _ _ =>
        obtain rfl := Option.some.inj (hinserts.keys_eq.symm.trans hkeys)
        exact ⟨_, hinserts, hcompletes⟩
      | kept _ _ hanswer =>
        exact absurd (himported.symm.trans (hanswer answer t rfl)) (by simp)
    · -- no live row has the identity, since none was answered
      have hanswered := ((hexact other hother).mpr hidentity).1
      exact absurd (himported.symm.trans hanswered) (by simp)
  · rintro ⟨⟨row, hinserts, hcompletes⟩, hnone⟩
    obtain ⟨answer, t, hrun, himported⟩ := captureSource_of_completes hinserts hcompletes
    refine ⟨answer, t, hrun, fun other hother => ?_, fun _ => himported⟩
    constructor
    · rintro ⟨hduplicate, -⟩
      exact absurd (himported.symm.trans hduplicate) (by simp)
    · intro hidentity
      exact absurd hidentity (hnone other hother)

section Exact

variable (hlaw : env.Lawful) (hquiet : ∀ n, env.fault n = none) (hsound : SourcesSound env s)
  (hdomain : input.domain ∈ vnextDomains)
  (hsensitivity : input.sensitivity ∈ vnextSensitivityLevels)

include hlaw hsound hdomain hsensitivity

/-- For an admitted request the identity check compares the columns. -/
theorem classifications_of_matches {contentHashes : List String} (hlive : source ∈ s.liveSources)
    (hmatch : matchesRequest env source contentHashes keys input = true) :
    source.domain = input.domain ∧ source.sensitivity = input.sensitivity := by
  obtain ⟨-, hsame, hsame'⟩ := matchesRequest_iff.mp hmatch
  have hchecks := (hsound source (List.mem_filter.mp hlive).1).2
  simp only [SourceRow.checks, Bool.and_eq_true, decide_eq_true_eq] at hchecks
  obtain ⟨⟨-, hrowdomain⟩, hrowsensitivity⟩ := hchecks
  rw [classification_admitted hlaw (List.mem_append_left _ hrowdomain),
    classification_admitted hlaw (List.mem_append_left _ hdomain)] at hsame
  rw [classification_admitted hlaw (List.mem_append_right _ hrowsensitivity),
    classification_admitted hlaw (List.mem_append_right _ hsensitivity)] at hsame'
  exact ⟨hsame, hsame'⟩

include hquiet

/-- Where the lookup finds a source, the capture is answered as it should be if that
source is the one live source of the identity. -/
theorem honoured_of_found (hkeys : captureKeys env input = some keys)
    (hfound : s.compatibleSource env keys input = some source) :
    Honoured env svc input s ↔ source.text = normalizeText input.rawText ∧
      projectScopeIdentity (.strs keys.projectScope) = persistedScope env svc input ∧
      ∀ other ∈ s.liveSources, SameIdentity env svc input other → other = source := by
  obtain ⟨hlive, contentHashes, hmatch⟩ := compatibleSource_some hfound
  have hscope := (matchesRequest_iff.mp hmatch).1.2
  obtain ⟨hsame, hsame'⟩ :=
    classifications_of_matches hlaw hsound hdomain hsensitivity hlive hmatch
  obtain ⟨answer, t, hrun, hduplicate, hid⟩ :
      EndsAt (fun answer _ => answer.duplicate = true ∧ answer.sourceId = source.id)
        (captureSource env svc input) s :=
    captureSource_of_found hquiet hkeys hfound
  constructor
  · -- the answer names the source that was found, so no other one has the identity
    rintro ⟨answer', t', hrun', hexact, -⟩
    obtain ⟨rfl, rfl⟩ := EStateM.Result.ok.inj (hrun.symm.trans hrun')
    have hself := (hexact source hlive).mp ⟨hduplicate, hid⟩
    refine ⟨hself.text, hscope.symm.trans hself.scope, fun other hother hidentity => ?_⟩
    have hanswered := ((hexact other hother).mpr hidentity).2
    exact eq_of_liveSources_id hother hlive (hanswered.symm.trans hid)
  · rintro ⟨htext, hrequest, honly⟩
    have hself : SameIdentity env svc input source :=
      ⟨htext, hscope.trans hrequest, hsame, hsame'⟩
    refine ⟨answer, t, hrun, fun other hother => ?_, fun hnone => absurd hself (hnone source hlive)⟩
    constructor
    · rintro ⟨-, hotherid⟩
      rw [← eq_of_liveSources_id hlive hother (hid.symm.trans hotherid)]
      exact hself
    · intro hidentity
      rw [honly other hother hidentity]
      exact ⟨hduplicate, hid⟩

/-- A row is reached: the answer is its, and it is right where the encoders agree. -/
theorem honoured_iff_of_found (hkeys : captureKeys env input = some keys)
    (hfound : s.compatibleSource env keys input = some source) :
    Honoured env svc input s ↔ EncodersAgree env svc input s keys := by
  obtain ⟨rest, hreached⟩ : ∃ rest, s.reached env input keys = source :: rest :=
    List.head?_eq_some_iff.mp (head?_reached.trans hfound)
  obtain ⟨hlive, contentHashes, hmatch⟩ := compatibleSource_some hfound
  rw [honoured_of_found hlaw hquiet hsound hdomain hsensitivity hkeys hfound]
  constructor
  · -- the row reached has the identity of the request, and no other row has
    rintro ⟨htext, hscope, honly⟩
    refine ⟨fun {earlier other later} hsplit hother => ?_, fun _ => hscope,
      fun other hother hid => ?_, fun other hother other' hother' hid hid' => ?_,
      fun hnone => ?_⟩
    · rw [hreached] at hsplit
      cases earlier with
      | nil => exact absurd ((List.cons.inj hsplit).1 ▸ htext) hother
      | cons first earlier =>
        rw [← (List.cons.inj hsplit).1]
        exact ⟨source, List.mem_cons_self, htext⟩
    · rw [hreached, honly other hother hid]
      exact List.mem_cons_self
    · rw [honly other hother hid, honly other' hother' hid']
    · rw [hreached] at hnone
      cases hnone
  · intro hagree
    have hscope := hagree.scope (by rw [hreached]; exact List.cons_ne_nil _ _)
    -- if its text were another one, the right one would have been reached before it
    have htext : source.text = normalizeText input.rawText := by
      by_contra hother
      have hsplit : s.reached env input keys = [] ++ source :: rest := hreached
      obtain ⟨_, hmem, _⟩ := hagree.sound hsplit hother
      cases hmem
    obtain ⟨hsame, hsame'⟩ :=
      classifications_of_matches hlaw hsound hdomain hsensitivity hlive hmatch
    have hself : SameIdentity env svc input source :=
      ⟨htext, (matchesRequest_iff.mp hmatch).1.2.trans hscope, hsame, hsame'⟩
    exact ⟨htext, hscope, fun other hother hid => hagree.unique other hother source hlive hid hself⟩

omit hdomain hsensitivity

/-- No row is reached: the answer is right where none has the identity and the
row of the request can be stored. -/
theorem honoured_iff_of_missed (hkeys : captureKeys env input = some keys)
    (hmissed : s.compatibleSource env keys input = none) :
    Honoured env svc input s ↔ EncodersAgree env svc input s keys := by
  have hreached : s.reached env input keys = [] :=
    List.head?_eq_none_iff.mp (head?_reached.trans hmissed)
  rw [honoured_of_missed hkeys hmissed]
  constructor
  · -- a new source is right only where no live row has the identity
    rintro ⟨⟨row, hinserts, hcompletes⟩, hnone⟩
    refine ⟨fun {earlier other later} hsplit _ => ?_, fun hne => absurd hreached hne,
      fun other hother hid => absurd hid (hnone other hother),
      fun other hother _ _ hid _ => absurd hid (hnone other hother), fun _ => ⟨row,
        hinserts.insertable.record_eq, hinserts.insertable.checks, fun other hother => ?_,
        hcompletes.fills.maxChars, hcompletes.fills.storable⟩⟩
    · rw [hreached] at hsplit
      exact absurd hsplit (by simp)
    · rw [← sourceRecord_dedupeKey hinserts.insertable.record_eq]
      exact hinserts.insertable.unclaimed other hother
  · intro hagree
    obtain ⟨row, hrow⟩ := hagree.insertable hreached
    refine ⟨⟨row, ⟨hkeys, callsPass_of_quiet hquiet _ _, hmissed, ?_, hrow.record, hrow.checks, ?_,
      ?_⟩, hquiet _, hrow.maxChars, callsPass_of_quiet hquiet _ _, hrow.storable,
      .inr (.inl (hquiet _))⟩, fun other hother hid => ?_⟩
    · rw [hquiet]
      simp
    · intro other hother
      rw [sourceRecord_dedupeKey hrow.record]
      exact hrow.unclaimed other hother
    · rw [sourceRecord_id hrow.record]
      exact fresh_of_sound hlaw.uuid_injective hsound (Nat.le_add_right _ _)
    · have hmem := hagree.complete other hother hid
      rw [hreached] at hmem
      cases hmem

end Exact

/-- **Exact deduplication.** In every store reached by captures and updates,
every admitted capture with a text is answered as it is meant to be, if and
only if the encoders agree on it. -/
theorem capture_honoured_iff (hlaw : env.Lawful) (hquiet : ∀ n, env.fault n = none)
    {calls : List CaptureCall} {s : CaptureStore} (run : CaptureHistory env calls s)
    (svc : CaptureService) (input : SourceCaptureInput) (htext : normalizeText input.rawText ≠ none)
    (hdomain : input.domain ∈ vnextDomains)
    (hsensitivity : input.sensitivity ∈ vnextSensitivityLevels) :
    ∃ keys, captureKeys env input = some keys ∧
      (Honoured env svc input s ↔ EncodersAgree env svc input s keys) := by
  have hsound := sourcesSound_of_history run
  obtain ⟨keys, hkeys⟩ := exists_captureKeys env htext
  refine ⟨keys, hkeys, ?_⟩
  cases hlookup : s.compatibleSource env keys input with
  | some source => exact honoured_iff_of_found hlaw hquiet hsound hdomain hsensitivity hkeys hlookup
  | none => exact honoured_iff_of_missed hlaw hquiet hsound hkeys hlookup

/-- A text filed under a project by an alias of the metadata. -/
def aliasedNote : SourceCaptureInput :=
  { sourceType := "manual_text", rawText := "note", metadataJson := [("project", .str "atlas")] }

/-- The same text for no project. -/
def plainNote : SourceCaptureInput := { sourceType := "manual_text", rawText := "note" }

/-- The store once the text was captured. -/
def aliasedStore : CaptureStore :=
  (CaptureCall.capture {} aliasedNote).next .plain { sources := default }

theorem aliasedStore_history :
    CaptureHistory .plain ([] ++ [.capture {} aliasedNote]) aliasedStore :=
  Run.next (Run.start rfl) rfl

theorem capture_honoured_iff_plainNote :
    ∃ keys, captureKeys .plain plainNote = some keys ∧
      (Honoured .plain {} plainNote aliasedStore ↔
        EncodersAgree .plain {} plainNote aliasedStore keys) :=
  capture_honoured_iff CaptureEnv.plain_lawful (fun _ => rfl) aliasedStore_history {} plainNote
    (by decide +kernel) (by decide) (by decide)

/-- **A second identical call raises.** The request is looked up without a
project, the stored row resolves to one, and the insertion finds the key taken
by a row that is not answered. -/
theorem repeated_capture_raises :
    ∃ calls s, CaptureHistory .plain calls s ∧ normalizeText aliasedNote.rawText ≠ none ∧
      aliasedNote.domain ∈ vnextDomains ∧ aliasedNote.sensitivity ∈ vnextSensitivityLevels ∧
      ¬ Honoured .plain {} aliasedNote s := by
  refine ⟨_, aliasedStore, aliasedStore_history, by decide +kernel, by decide, by decide, ?_⟩
  rintro ⟨answer, t, hrun, -⟩
  have hraises : returned ((captureSource .plain {} aliasedNote).run aliasedStore) = false := by
    decide +kernel
  rw [hrun] at hraises
  exact absurd hraises (by simp [returned])

end AliceBot
