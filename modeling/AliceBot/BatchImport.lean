import AliceBot.CaptureLaws

/-!
# Batch imports

`import_markdown_folder` and `import_chatgpt_export_file`. Both capture their
items one after the other inside the caller's transaction and go on when one
of them raises, without a savepoint: what the capture of a failed item had
written stays.

A source row is left behind for a failed item exactly where a capture raises
after its insertion (`LateFailure`). `import_clean_iff` says so of every run
of either import.
-/

namespace AliceBot

open PyLib

variable (env : CaptureEnv) (svc : CaptureService)

/-! ### The loop -/

/-- `SOURCE_IMPORT_ERROR_MESSAGE`. -/
def sourceImportErrorMessage : String := "Source could not be imported"

/-- `SOURCE_IMPORT_ERROR_CODE`. -/
def sourceImportErrorCode : String := "source_import_failed"

/-- What an import has counted so far. -/
structure ImportState where
  sourceIds : List String := []
  errors : List String := []
  duplicateCount : Nat := 0
  failedCount : Nat := 0
  runHashes : List String := []
  deferredEmbeddingInputs : List String := []

namespace ImportState

/-- An item that was captured. -/
def record (st : ImportState) (result : CaptureResult) : ImportState :=
  let st := { st with
    deferredEmbeddingInputs := st.deferredEmbeddingInputs ++ result.deferredEmbeddingInputs }
  if result.duplicate then { st with duplicateCount := st.duplicateCount + 1 }
  else { st with sourceIds := st.sourceIds ++ [result.sourceId] }

/-- An item that raised. -/
def fail (st : ImportState) : ImportState :=
  { st with
    failedCount := st.failedCount + 1
    errors := st.errors ++ [sourceImportErrorMessage] }

end ImportState

/-- The status of an import. -/
inductive ImportStatus where
  | ok
  | partly
  | duplicate
  | failed
deriving DecidableEq, Repr

/-- `BatchImportResult`. What an import reports. Each item is counted once: as imported,
as a duplicate or as failed. -/
structure BatchImportResult where
  status : ImportStatus
  importedCount : Nat
  duplicateCount : Nat
  failedCount : Nat
  sourceIds : List String
  errors : List String
  errorCode : Option String
  deferredEmbeddingInputs : List String

/-- The status after the loop. -/
def importStatus (importedCount duplicateCount failedCount : Nat) : ImportStatus :=
  if importedCount = 0 ∧ duplicateCount = 0 ∧ 0 < failedCount then .failed
  else if importedCount = 0 ∧ 0 < duplicateCount ∧ failedCount = 0 then .duplicate
  else if failedCount = 0 then .ok
  else .partly

/-- The result after the loop. -/
def ImportState.result (st : ImportState) : BatchImportResult :=
  { status := importStatus st.sourceIds.length st.duplicateCount st.failedCount
    importedCount := st.sourceIds.length
    duplicateCount := st.duplicateCount
    failedCount := st.failedCount
    sourceIds := st.sourceIds
    errors := st.errors
    errorCode := if st.failedCount = 0 then none else some sourceImportErrorCode
    deferredEmbeddingInputs := st.deferredEmbeddingInputs }

/-- The items one after the other. -/
def importItems {ι : Type} (step : ImportState → ι → Capture ImportState) :
    List ι → ImportState → Capture ImportState
  | [], st => pure st
  | item :: rest, st => do
    let st ← step st item
    importItems step rest st

/-! ### Markdown folders -/

/-- A file below the folder. The text is missing where it cannot be read. -/
structure MarkdownFile where
  path : String
  name : String
  stem : String
  relativePath : String
  rawText : Option String

/-- The folder, with its files in order; none where there is no such folder. -/
structure MarkdownFolder where
  path : String
  files : Option (List MarkdownFile)

/-- The capture of a file. -/
def MarkdownFile.request (file : MarkdownFile) (folder domain sensitivity rawText : String) :
    SourceCaptureInput :=
  { sourceType := "markdown"
    title := some file.stem
    rawText := rawText
    rawPath := some file.path
    connectorName := some "markdown_folder"
    externalId := some file.relativePath
    domain := domain
    sensitivity := sensitivity
    metadataJson := [("folder", .str folder), ("relative_path", .str file.relativePath)] }

/-- The handler of the loop over the files. -/
def failFile (st : ImportState) : Capture ImportState := do
  logFailure env
  return st.fail

/-- One turn of the loop of `import_markdown_folder`. The hash of the text is
kept also when its capture raises. -/
def importFile (folder domain sensitivity : String) (st : ImportState) (file : MarkdownFile) :
    Capture ImportState :=
  match file.rawText with
  | none => failFile env st
  | some rawText =>
    match contentHashForText env rawText [] with
    | none => failFile env st
    | some contentHash =>
      -- a file of this run with the same text
      if contentHash ∈ st.runHashes then
        let st := { st with duplicateCount := st.duplicateCount + 1 }
        catching
          (do
            logEvent env "source.duplicate_skipped" none
            return st)
          fun _ => failFile env st
      else
        let st := { st with runHashes := st.runHashes ++ [contentHash] }
        catching
          (do
            let result ← captureSource env svc (file.request folder domain sensitivity rawText)
            return st.record result)
          fun _ => failFile env st

/-- `import_markdown_folder`. The files of a folder are captured one by one, and a file
that fails does not stop the others. -/
def importMarkdownFolder (folder : MarkdownFolder) (domain sensitivity : String) :
    Capture BatchImportResult := do
  let files ← orRaise folder.files
    (.validation ("markdown source folder does not exist: " ++ folder.path))
  let st ← importItems (importFile env svc folder.path domain sensitivity) files {}
  logEvent env "source.batch_import_completed" none
  return st.result

/-! ### Exported conversations -/

/-- `_ChatGPTConversationTranscript`. -/
structure ConversationTranscript where
  index : Nat
  externalId : String
  title : String
  rawText : String
  messageCount : Nat
  createdAt : Option String
  modifiedAt : Option String

/-- An export as it was read, with the transcripts made of it. -/
structure ChatgptExport where
  path : String
  name : String
  sha256 : String
  transcriptFormat : String
  transcripts : List ConversationTranscript

/-- The capture of a conversation. -/
def ConversationTranscript.request (transcript : ConversationTranscript) (exported : ChatgptExport)
    (capturedAt domain sensitivity : String) : SourceCaptureInput :=
  { sourceType := "chatgpt_export"
    title := some transcript.title
    rawText := transcript.rawText
    rawPath := some exported.path
    connectorName := some "chatgpt_export"
    externalId := some transcript.externalId
    domain := domain
    sensitivity := sensitivity
    capturedAt := some capturedAt
    sourceCreatedAt := transcript.createdAt
    sourceModifiedAt := transcript.modifiedAt
    metadataJson :=
      [("filename", .str exported.name), ("export_sha256", .str exported.sha256),
        ("transcript_format", .str exported.transcriptFormat),
        ("export_conversation_count", .int exported.transcripts.length),
        ("conversation_index", .int transcript.index),
        ("conversation_id", .str transcript.externalId),
        ("conversation_title", .str transcript.title),
        ("message_count", .int transcript.messageCount)] }

/-- One turn of the loop of `import_chatgpt_export_file`. Its handler writes
nothing. -/
def importConversation (exported : ChatgptExport) (capturedAt domain sensitivity : String)
    (st : ImportState) (transcript : ConversationTranscript) : Capture ImportState :=
  catching
    (do
      let result ← captureSource env svc
        (transcript.request exported capturedAt domain sensitivity)
      return st.record result)
    fun _ => pure st.fail

/-- `import_chatgpt_export_file`, from the transcripts on. -/
def importChatgptExport (exported : ChatgptExport) (domain sensitivity : String) :
    Capture BatchImportResult := do
  let s ← get
  let capturedAt := stampText false (env.now s.ticks)
  let st ← importItems (importConversation env svc exported capturedAt domain sensitivity)
    exported.transcripts {}
  logEvent env "source.batch_import_completed" none
  return st.result

/-! ### What a failed item leaves behind -/

/-- Every live source an import has left is an old one or the source of an item
it imported: none belongs to an item it counted as failed. -/
def CleanImport (before after : CaptureStore) (sourceIds : List String) : Prop :=
  ∀ row ∈ after.liveSources, row ∈ before.liveSources ∨ row.id ∈ sourceIds

instance (before after : CaptureStore) (sourceIds : List String) :
    Decidable (CleanImport before after sourceIds) :=
  inferInstanceAs (Decidable (∀ row ∈ after.liveSources, row ∈ before.liveSources ∨ _))

/-- The capture inserts its source and then raises: at the insertion itself,
at a later store call, at the bound of the chunks, or at a memory key that is
taken. -/
def LateFailure (input : SourceCaptureInput) (s : CaptureStore) : Prop :=
  ∃ keys row, Inserts env svc input s keys row ∧ ¬ Completes env svc input s keys row

/-- A condition on each item and the state its turn starts in. -/
def AlongItems {ι : Type} (step : ImportState → ι → Capture ImportState)
    (P : ImportState → ι → CaptureStore → Prop) : List ι → ImportState → CaptureStore → Prop
  | [], _, _ => True
  | item :: rest, st, s =>
    P st item s ∧ ∀ st' t, (step st item).run s = .ok st' t → AlongItems step P rest st' t

/-- The turn of a file comes to a capture, and the capture fails late. -/
def FileFailsLate (folder domain sensitivity : String) (st : ImportState) (file : MarkdownFile)
    (s : CaptureStore) : Prop :=
  ∃ rawText contentHash, file.rawText = some rawText ∧
    contentHashForText env rawText [] = some contentHash ∧ contentHash ∉ st.runHashes ∧
    LateFailure env svc (file.request folder domain sensitivity rawText) s

variable {env svc} {s t : CaptureStore}

/-! ### One turn -/

/-- What one turn does to the sources and to the identifiers counted. -/
inductive TurnEnds (late : Prop) (st : ImportState) (s : CaptureStore) (st' : ImportState)
    (t : CaptureStore) : Prop
  | imported {row} : ¬ late → s.sources.insert? row = some t.sources → row.live = true →
      st'.sourceIds = st.sourceIds ++ [row.id] → TurnEnds late st s st' t
  | orphaned {row} : late → s.sources.insert? row = some t.sources → row.live = true →
      st'.sourceIds = st.sourceIds → TurnEnds late st s st' t
  | kept : ¬ late → t.sources = s.sources → st'.sourceIds = st.sourceIds → TurnEnds late st s st' t

/-- A row that is inserted is not deleted. -/
theorem live_of_inserts {input : SourceCaptureInput} {keys : CaptureKeys} {row : SourceRow}
    (h : Inserts env svc input s keys row) : row.live = true := by
  have hrecord := h.insertable.record_eq
  rw [sourceRecord] at hrecord
  obtain ⟨_, -, hrecord⟩ := except_bind_ok.mp hrecord
  obtain ⟨_, -, hrecord⟩ := except_bind_ok.mp hrecord
  obtain ⟨_, -, hrecord⟩ := except_bind_ok.mp hrecord
  obtain rfl := Except.ok.inj hrecord
  rfl

theorem lateFailure_iff {input : SourceCaptureInput} {keys : CaptureKeys} {row : SourceRow}
    (h : Inserts env svc input s keys row) :
    LateFailure env svc input s ↔ ¬ Completes env svc input s keys row := by
  constructor
  · rintro ⟨keys', row', hinserts, hnot⟩
    obtain ⟨rfl, rfl⟩ := inserts_unique h hinserts
    exact hnot
  · intro hnot
    exact ⟨keys, row, h, hnot⟩

/-- A captured item, with a handler that leaves the sources and the counted
identifiers alone. -/
theorem capture_turnEnds {input : SourceCaptureInput} {st st' : ImportState}
    {handler : CaptureError → Capture ImportState} (hhandler : ∀ e, Moves KeepsSources (handler e))
    (hfail : ∀ e u st' t, (handler e).run u = .ok st' t → st'.sourceIds = st.sourceIds)
    (hrun : (catching
      (do
        let result ← captureSource env svc input
        return st.record result) handler).run s = .ok st' t) :
    TurnEnds (LateFailure env svc input s) st s st' t := by
  have hends := captureSource_ends env svc input s
  rcases run_catching_ok.mp hrun with hok | ⟨e, u, herror, hhandled⟩
  · obtain ⟨result, u, hcapture, hpure⟩ := run_bind_ok.mp hok
    obtain ⟨rfl, rfl⟩ := run_pure_ok.mp hpure
    rw [hcapture] at hends
    cases hends with
    | imported hinserts hcompletes hinsert hid hduplicate =>
      refine .imported ?_ hinsert (live_of_inserts hinserts) ?_
      · rw [lateFailure_iff hinserts]
        exact not_not.mpr hcompletes
      · rw [ImportState.record, hduplicate, hid]
        rfl
    | kept hnot hsources hanswer =>
      refine .kept ?_ hsources ?_
      · rintro ⟨keys, row, hinserts, -⟩
        exact hnot keys row hinserts
      · rw [ImportState.record, hanswer _ _ rfl]
        rfl
  · -- what the capture wrote before it raised is still there
    have hcapture : (captureSource env svc input).run s = .error e u := by
      rcases run_bind_error.mp herror with hfirst | ⟨result, v, -, hpure⟩
      · exact hfirst
      · exact (run_pure_error.mp hpure).elim
    have hsources : t.sources = u.sources := ((hhandler e).ok hhandled).sources
    have hids := hfail e u st' t hhandled
    rw [hcapture] at hends
    cases hends with
    | broken hinserts hnot hinsert =>
      exact .orphaned ((lateFailure_iff hinserts).mpr hnot) (hsources ▸ hinsert)
        (live_of_inserts hinserts) hids
    | kept hnot hkept _ =>
      refine .kept ?_ (hsources.trans hkept) hids
      rintro ⟨keys, row, hinserts, -⟩
      exact hnot keys row hinserts

theorem failFile_keeps (st : ImportState) : Moves KeepsSources (failFile env st) :=
  Moves.bind (logEvent_keeps env _ _) fun _ => Moves.pure _

theorem failFile_ok {st st' : ImportState} (hrun : (failFile env st).run s = .ok st' t) :
    st'.sourceIds = st.sourceIds := by
  obtain ⟨_, u, -, hpure⟩ := run_bind_ok.mp hrun
  obtain ⟨rfl, -⟩ := run_pure_ok.mp hpure
  rfl

/-- The turn of one file ends with a source that is counted as imported, with one that a
late failure has orphaned, or without a new source. -/
theorem importFile_turnEnds {folder domain sensitivity : String} {st st' : ImportState}
    {file : MarkdownFile}
    (hrun : (importFile env svc folder domain sensitivity st file).run s = .ok st' t) :
    TurnEnds (FileFailsLate env svc folder domain sensitivity st file s) st s st' t := by
  -- a turn without a capture only logs
  have hlogged : ∀ {m : Capture ImportState}, Moves KeepsSources m → m.run s = .ok st' t →
      (∀ {u v}, m.run u = .ok st' v → st'.sourceIds = st.sourceIds) →
      ¬ FileFailsLate env svc folder domain sensitivity st file s →
      TurnEnds (FileFailsLate env svc folder domain sensitivity st file s) st s st' t :=
    fun hkeeps hm hids hnot => .kept hnot (hkeeps.ok hm).sources (hids hm)
  rw [importFile] at hrun
  cases htext : file.rawText with
  | none =>
    rw [htext] at hrun
    refine hlogged (failFile_keeps st) hrun failFile_ok ?_
    rintro ⟨rawText, _, hsome, -⟩
    exact absurd (htext.symm.trans hsome) (by simp)
  | some rawText =>
    rw [htext] at hrun
    cases hhash : contentHashForText env rawText [] with
    | none =>
      simp only [hhash] at hrun
      refine hlogged (failFile_keeps st) hrun failFile_ok ?_
      rintro ⟨rawText', _, hsome, hsome', -⟩
      obtain rfl := Option.some.inj (htext.symm.trans hsome)
      exact absurd (hhash.symm.trans hsome') (by simp)
    | some contentHash =>
      simp only [hhash] at hrun
      -- a text of this run is not captured again
      by_cases hseen : contentHash ∈ st.runHashes
      · rw [if_pos hseen] at hrun
        refine hlogged (Moves.catching (Moves.bind (logEvent_keeps env _ _) fun _ => Moves.pure _)
          fun _ => failFile_keeps _) hrun ?_ ?_
        · intro u v hcatch
          rcases run_catching_ok.mp hcatch with hok | ⟨e, w, -, hfail⟩
          · obtain ⟨_, x, -, hpure⟩ := run_bind_ok.mp hok
            obtain ⟨rfl, -⟩ := run_pure_ok.mp hpure
            rfl
          · have hids := failFile_ok hfail
            exact hids
        · rintro ⟨rawText', contentHash', hsome, hsome', hnew, -⟩
          obtain rfl := Option.some.inj (htext.symm.trans hsome)
          obtain rfl := Option.some.inj (hhash.symm.trans hsome')
          exact hnew hseen
      · rw [if_neg hseen] at hrun
        -- from here the turn fails late exactly if its capture does
        have hiff : FileFailsLate env svc folder domain sensitivity st file s ↔
            LateFailure env svc (file.request folder domain sensitivity rawText) s := by
          constructor
          · rintro ⟨rawText', contentHash', hsome, -, -, hlate⟩
            obtain rfl := Option.some.inj (htext.symm.trans hsome)
            exact hlate
          · intro hlate
            exact ⟨rawText, contentHash, htext, hhash, hseen, hlate⟩
        rw [hiff]
        have hturn : TurnEnds _ { st with runHashes := st.runHashes ++ [contentHash] } s st' t :=
          capture_turnEnds (fun _ => failFile_keeps _) (fun _ _ _ _ h => failFile_ok h) hrun
        cases hturn with
        | imported h1 h2 h3 h4 => exact .imported h1 h2 h3 h4
        | orphaned h1 h2 h3 h4 => exact .orphaned h1 h2 h3 h4
        | kept h1 h2 h3 => exact .kept h1 h2 h3

theorem importConversation_turnEnds {exported : ChatgptExport}
    {capturedAt domain sensitivity : String} {st st' : ImportState}
    {transcript : ConversationTranscript}
    (hrun : (importConversation env svc exported capturedAt domain sensitivity st
      transcript).run s = .ok st' t) :
    TurnEnds (LateFailure env svc
      (transcript.request exported capturedAt domain sensitivity) s) st s st' t := by
  refine capture_turnEnds (fun _ => Moves.pure _) (fun e u st' t h => ?_) hrun
  obtain ⟨rfl, -⟩ := run_pure_ok.mp h
  rfl

/-! ### All turns -/

/-- What the loop over the items has kept since it began. -/
structure LoopKeeps (before : CaptureStore) (st : ImportState) (s : CaptureStore) : Prop where
  old : ∀ row ∈ before.liveSources, row ∈ s.liveSources
  held : ∀ id ∈ st.sourceIds, s.sources.get? id ≠ none

theorem liveSources_insert {row : SourceRow} (h : s.sources.insert? row = some t.sources)
    (hlive : row.live = true) {other : SourceRow} :
    other ∈ t.liveSources ↔ other ∈ s.liveSources ∨ other = row := by
  obtain ⟨-, hrows⟩ := Table.insert?_eq_some_iff.mp h
  rw [CaptureStore.liveSources, CaptureStore.liveSources, hrows, List.filter_append,
    List.mem_append, List.filter_singleton, hlive]
  simp

variable {before : CaptureStore} {late : Prop} {st st' : ImportState}

/-- One turn keeps the sources there were before the loop, and those that it has
counted. -/
theorem TurnEnds.keeps (hturn : TurnEnds late st s st' t) (hloop : LoopKeeps before st s) :
    LoopKeeps before st' t := by
  -- an identifier that is held stays held
  have hheld : ∀ {row : SourceRow}, s.sources.insert? row = some t.sources →
      ∀ id, s.sources.get? id ≠ none → t.sources.get? id ≠ none := by
    intro row hinsert id hid
    rw [Table.get?_insert? hinsert]
    split
    · simp
    · exact hid
  cases hturn with
  | @imported row hlate hinsert hlive hids =>
    refine ⟨fun other h => (liveSources_insert hinsert hlive).mpr (.inl (hloop.old other h)),
      fun id hid => ?_⟩
    rw [hids] at hid
    rcases List.mem_append.mp hid with hold | hnew
    · exact hheld hinsert id (hloop.held id hold)
    · obtain rfl := List.mem_singleton.mp hnew
      rw [Table.get?_insert? hinsert, if_pos rfl]
      simp
  | orphaned hlate hinsert hlive hids =>
    refine ⟨fun other h => (liveSources_insert hinsert hlive).mpr (.inl (hloop.old other h)),
      fun id hid => ?_⟩
    rw [hids] at hid
    exact hheld hinsert id (hloop.held id hid)
  | kept hlate hsources hids =>
    refine ⟨fun other h => ?_, fun id hid => ?_⟩
    · rw [liveSources_congr hsources]
      exact hloop.old other h
    · rw [hids] at hid
      rw [hsources]
      exact hloop.held id hid

/-- One turn keeps the import clean exactly if its item does not fail late. -/
theorem TurnEnds.clean_iff (hturn : TurnEnds late st s st' t) (hloop : LoopKeeps before st s) :
    CleanImport before t st'.sourceIds ↔ CleanImport before s st.sourceIds ∧ ¬ late := by
  cases hturn with
  | @imported row hlate hinsert hlive hids =>
    have hfresh : s.sources.get? row.id = none := (Table.insert?_eq_some_iff.mp hinsert).1
    simp only [hlate, not_false_eq_true, and_true]
    constructor
    · intro hclean other hother
      rcases hclean other ((liveSources_insert hinsert hlive).mpr (.inl hother)) with hold | hnew
      · exact .inl hold
      · rw [hids] at hnew
        rcases List.mem_append.mp hnew with hcounted | hself
        · exact .inr hcounted
        · -- the new identifier is no old one
          have hget := Table.get?_of_mem (List.mem_filter.mp hother).1
          rw [List.mem_singleton.mp hself, hfresh] at hget
          exact absurd hget (by simp)
    · intro hclean other hother
      rw [hids, List.mem_append, List.mem_singleton]
      rcases (liveSources_insert hinsert hlive).mp hother with hbefore | rfl
      · rcases hclean other hbefore with hold | hcounted
        · exact .inl hold
        · exact .inr (.inl hcounted)
      · exact .inr (.inr rfl)
  | @orphaned row hlate hinsert hlive hids =>
    have hfresh : s.sources.get? row.id = none := (Table.insert?_eq_some_iff.mp hinsert).1
    simp only [hlate, not_true_eq_false, and_false, iff_false]
    intro hclean
    rcases hclean row ((liveSources_insert hinsert hlive).mpr (.inr rfl)) with hold | hcounted
    · -- it would have been there before
      have hget := Table.get?_of_mem (List.mem_filter.mp (hloop.old row hold)).1
      rw [hfresh] at hget
      exact absurd hget (by simp)
    · rw [hids] at hcounted
      exact hloop.held row.id hcounted hfresh
  | kept hlate hsources hids =>
    simp only [hlate, not_false_eq_true, and_true]
    rw [CleanImport, CleanImport, liveSources_congr hsources, hids]

/-- A loop is clean exactly if it was clean so far and no item still to come
fails late. -/
theorem importItems_clean_iff {ι : Type} {step : ImportState → ι → Capture ImportState}
    (late : ImportState → ι → CaptureStore → Prop)
    (hstep : ∀ {st item s st' t}, (step st item).run s = .ok st' t →
      TurnEnds (late st item s) st s st' t)
    {items : List ι} (hrun : (importItems step items st).run s = .ok st' t)
    (hloop : LoopKeeps before st s) :
    CleanImport before t st'.sourceIds ↔ CleanImport before s st.sourceIds ∧
      AlongItems step (fun st item s => ¬ late st item s) items st s := by
  induction items generalizing st s with
  | nil =>
    obtain ⟨rfl, rfl⟩ := run_pure_ok.mp hrun
    exact ⟨fun h => ⟨h, trivial⟩, fun h => h.1⟩
  | cons item rest ih =>
    obtain ⟨st₁, u, hfirst, hrest⟩ := run_bind_ok.mp hrun
    have hturn := hstep hfirst
    rw [ih hrest (hturn.keeps hloop), hturn.clean_iff hloop, AlongItems, and_assoc]
    -- the turn has one outcome
    have hone : (∀ st' t, (step st item).run s = .ok st' t →
        AlongItems step (fun st item s => ¬ late st item s) rest st' t) ↔
        AlongItems step (fun st item s => ¬ late st item s) rest st₁ u := by
      constructor
      · intro h
        exact h st₁ u hfirst
      · intro h st₂ v hsecond
        obtain ⟨rfl, rfl⟩ := EStateM.Result.ok.inj (hfirst.symm.trans hsecond)
        exact h
    rw [hone]

theorem cleanImport_start (s : CaptureStore) : CleanImport s s [] := fun _ h => .inl h

theorem loopKeeps_start (s : CaptureStore) : LoopKeeps s {} s :=
  ⟨fun _ h => h, fun _ h => absurd h List.not_mem_nil⟩

/-- The event at the end of an import changes no source. -/
theorem completed_clean {st : ImportState} {result : BatchImportResult}
    (hrun : (do
      logEvent env "source.batch_import_completed" none
      return st.result : Capture BatchImportResult).run s = .ok result t) :
    CleanImport before t result.sourceIds ↔ CleanImport before s st.sourceIds := by
  obtain ⟨_, u, hlog, hpure⟩ := run_bind_ok.mp hrun
  obtain ⟨rfl, rfl⟩ := run_pure_ok.mp hpure
  rw [CleanImport, CleanImport, liveSources_congr ((logEvent_keeps env _ _).ok hlog).sources]
  rfl

/-- An import of a folder or of an export leaves no source behind for an item
it counts as failed exactly if no item fails after its source was inserted. -/
theorem import_clean_iff (env : CaptureEnv) (svc : CaptureService) (domain sensitivity : String)
    (s t : CaptureStore) (result : BatchImportResult) :
    (∀ folder : MarkdownFolder,
      (importMarkdownFolder env svc folder domain sensitivity).run s = .ok result t →
      (CleanImport s t result.sourceIds ↔
        AlongItems (importFile env svc folder.path domain sensitivity)
          (fun st file u => ¬ FileFailsLate env svc folder.path domain sensitivity st file u)
          (folder.files.getD []) {} s)) ∧
    (∀ exported : ChatgptExport,
      (importChatgptExport env svc exported domain sensitivity).run s = .ok result t →
      (CleanImport s t result.sourceIds ↔
        AlongItems (importConversation env svc exported
            (stampText false (env.now s.ticks)) domain sensitivity)
          (fun _ transcript u => ¬ LateFailure env svc (transcript.request exported
            (stampText false (env.now s.ticks)) domain sensitivity) u)
          exported.transcripts {} s)) := by
  constructor
  · -- the files of a folder, in the order they were listed
    intro folder hrun
    obtain ⟨files, u, hfiles, hrun⟩ := run_bind_ok.mp hrun
    obtain ⟨hfolder, rfl⟩ := run_orRaise_ok.mp hfiles
    obtain ⟨st, u, hitems, hrun⟩ := run_bind_ok.mp hrun
    have hclean := importItems_clean_iff
      (fun st file u => FileFailsLate env svc folder.path domain sensitivity st file u)
      importFile_turnEnds hitems (loopKeeps_start s)
    rw [completed_clean hrun, hclean, hfolder]
    exact and_iff_right (cleanImport_start s)
  · -- the conversations of an export, all under the time the import was started at
    intro exported hrun
    obtain ⟨_, u, hget, hrun⟩ := run_bind_ok.mp hrun
    obtain ⟨rfl, rfl⟩ := run_get_ok.mp hget
    obtain ⟨st, u, hitems, hrun⟩ := run_bind_ok.mp hrun
    generalize stampText false (env.now s.ticks) = capturedAt at hitems ⊢
    have hclean := importItems_clean_iff
      (fun _ transcript u => LateFailure env svc
        (transcript.request exported capturedAt domain sensitivity) u)
      importConversation_turnEnds hitems (loopKeeps_start s)
    rw [completed_clean hrun, hclean]
    exact and_iff_right (cleanImport_start s)

/-! ### A folder imported three times -/

/-- A folder with one note. -/
def notesFolder : MarkdownFolder :=
  { path := "/notes"
    files := some
      [{ path := "/notes/db.md"
         name := "db.md"
         stem := "db"
         relativePath := "db.md"
         rawText := some "decision: sql" }] }

/-- The import of the folder. -/
def importNotes : Capture BatchImportResult :=
  importMarkdownFolder .plain {} notesFolder "unknown" "unknown"

/-- The store once the note was imported and its source filed under another
domain. -/
def notesMoved : CaptureStore :=
  let imported := endState (importNotes.run { sources := default })
  endState ((updateSource .plain "ii" { domain := some "professional" }).run imported)

/-- The note is imported again: its source is new, its candidate's memory key
is taken, and the file is counted as failed. The source stays, without its
candidate, and answers the next import as a duplicate. -/
theorem failed_note_leaves_source :
    EndsAt (fun result t => result.failedCount = 1 ∧ ¬ CleanImport notesMoved t result.sourceIds ∧
        EndsAt (fun next _ => next.duplicateCount = 1 ∧ next.failedCount = 0) importNotes t)
      importNotes notesMoved := by
  decide +kernel

/-- An export with one conversation, which has no text. -/
def conversationExport : ChatgptExport :=
  { path := "/export.json"
    name := "export.json"
    sha256 := "sha256:0"
    transcriptFormat := "chatgpt_conversation_v1"
    transcripts :=
      [{ index := 1
         externalId := "c1"
         title := "db"
         rawText := ""
         messageCount := 0
         createdAt := none
         modifiedAt := none }] }

/-- The criterion at the folder and at the export. -/
theorem import_clean_iff_notes :
    (∃ result t, importNotes.run { sources := default } = .ok result t ∧
      (CleanImport { sources := default } t result.sourceIds ↔
        AlongItems (importFile .plain {} "/notes" "unknown" "unknown")
          (fun st file u => ¬ FileFailsLate .plain {} "/notes" "unknown" "unknown" st file u)
          (notesFolder.files.getD []) {} { sources := default })) ∧
    (∃ result t, (importChatgptExport .plain {} conversationExport "personal" "private").run
        { sources := default } = .ok result t ∧
      (CleanImport { sources := default } t result.sourceIds ↔
        AlongItems (importConversation .plain {} conversationExport
            (stampText false (CaptureEnv.plain.now 0)) "personal" "private")
          (fun _ transcript u => ¬ LateFailure .plain {} (transcript.request conversationExport
            (stampText false (CaptureEnv.plain.now 0)) "personal" "private") u)
          conversationExport.transcripts {} { sources := default })) := by
  constructor
  · obtain ⟨result, hrun⟩ := exists_ok_of_returned (r := importNotes.run { sources := default })
      (by decide +kernel)
    exact ⟨result, _, hrun,
      (import_clean_iff .plain {} "unknown" "unknown" _ _ result).1 notesFolder hrun⟩
  · obtain ⟨result, hrun⟩ := exists_ok_of_returned
      (r := (importChatgptExport .plain {} conversationExport "personal" "private").run
        { sources := default })
      (by decide +kernel)
    exact ⟨result, _, hrun,
      (import_clean_iff .plain {} "personal" "private" _ _ result).2 conversationExport hrun⟩

end AliceBot
