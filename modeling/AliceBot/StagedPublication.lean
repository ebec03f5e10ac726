import AliceBot.StagedWrites

/-!
# Publishing what was staged

`publish_eq_direct` compares the publication of a plan with the same calls made on the store
itself, each row given the id that staging chose for it. Both leave the store in one state and
get the same answers, and what staging returned is, with the ids the store answered with, the
answer of a store that adds nothing to what it is given.

Each call of the run has to meet `CallOK`. Where a call does not, the two come apart:

* an update of a row that was staged is refused, since staging looks for it in the store;
* a second update of a row is staged over the row of the store, without the first;
* an id in a key of an object stays the provisional one.
-/

namespace AliceBot

open PyLib

section Publication

variable {σ : Type} {env : StagingEnv} {delegate : Delegate σ} {source : σ}

/-! ### Conditions -/

/-- An id that staging chose is no blank, and none of the ids before it. It is replaced as a
whole: no other id that changes occurs in it, or in what it is replaced by. -/
structure IdOK (renames : Renames) (known : Nat) (id : String) : Prop where
  strip_eq : strip id = id
  ne_empty : id ≠ ""
  fresh : id ∉ (renames.take known).map Prod.fst
  clean : CleanText renames [.mention known]

/-- Options mention the first ids in order. -/
def OptionsOK (renames : Renames) (known : Nat) (options : List (String × List Piece)) : Prop :=
  ∀ option ∈ options, Template.TextOK renames known option.2

/-- What a call has to meet, with the ids of the run and the store's answer to it. -/
inductive CallOK (env : StagingEnv) (delegate : Delegate σ) (renames : Renames) :
    Call → Option String → DirectStep σ → Prop where
  | event {payload : List (List Piece × Template)} {uuid id durable : String}
      {step : DirectStep σ} (hpayload : Template.FieldsOK renames step.ids.length payload)
      (hid : IdOK renames step.ids.length id)
      (hanswer : fieldText env step.row "id" = some durable) :
      CallOK env delegate renames (.event payload uuid) (some id) step
  | create {method : CreateMethod} {payload : List (List Piece × Template)}
      {actorType uuid id durable : String} {step : DirectStep σ}
      (hpayload : Template.FieldsOK renames step.ids.length payload)
      (hid : IdOK renames step.ids.length id)
      (hanswer : fieldText env step.row "id" = some durable) :
      CallOK env delegate renames (.create method payload actorType uuid) (some id) step
  /-- A row is staged under its key: the store writes the key into the metadata itself. -/
  | keyed {method : UpsertMethod} {payload : List (List Piece × Template)}
      {options : List (String × List Piece)} {actorType uuid id durable : String}
      {step : DirectStep σ} (hpayload : Template.FieldsOK renames step.ids.length payload)
      (hoptions : OptionsOK renames step.ids.length options)
      (hstrip : stagedOptions method (optionTexts (step.ids.map Prod.fst) options) =
        optionTexts (step.ids.map Prod.fst) options)
      (hkeyed : publishMutation delegate (.upsert method)
          (givenId (keyedPayload method (Template.jsonFields (step.ids.map Prod.snd) payload)
            (optionTexts (step.ids.map Prod.snd) options)) (some id)) actorType
          (optionTexts (step.ids.map Prod.snd) options) step.before =
        publishMutation delegate (.upsert method)
          (givenId (Template.jsonFields (step.ids.map Prod.snd) payload) (some id)) actorType
          (optionTexts (step.ids.map Prod.snd) options) step.before)
      (hid : IdOK renames step.ids.length id)
      (hanswer : fieldText env step.row "id" = some durable) :
      CallOK env delegate renames (.upsert method payload options actorType uuid) (some id) step
  /-- Staging knows the row under a key: the store finds it too, and writes nothing. -/
  | found {method : UpsertMethod} {payload : List (List Piece × Template)}
      {options : List (String × List Piece)} {actorType uuid : String} {step : DirectStep σ}
      (hsame : step.after = step.before) :
      CallOK env delegate renames (.upsert method payload options actorType uuid) none step
  | update {memoryId : List Piece} {patch : List (List Piece × Template)} {actorType : String}
      {step : DirectStep σ} (hmemory : Template.TextOK renames step.ids.length memoryId)
      (hpatch : Template.FieldsOK renames step.ids.length patch)
      (hid : provisionalId env (Template.jsonFields (step.ids.map Prod.fst) patch) = none) :
      CallOK env delegate renames (.update memoryId patch actorType) none step

/-- The store adds nothing to what it is given: a created row is the record with its id, an
updated one the row of the store before the run with the patch, in which no staged id occurs. -/
inductive AddsNothing (env : StagingEnv) (delegate : Delegate σ) (source : σ)
    (renames : Renames) : Call → Option String → DirectStep σ → Prop where
  | event {payload : List (List Piece × Template)} {uuid id durable : String}
      {step : DirectStep σ} (hanswer : fieldText env step.row "id" = some durable)
      (hrow : step.row =
        givenId (Template.jsonFields (step.ids.map Prod.snd) payload) (some durable)) :
      AddsNothing env delegate source renames (.event payload uuid) (some id) step
  | create {method : CreateMethod} {payload : List (List Piece × Template)}
      {actorType uuid id durable : String} {step : DirectStep σ}
      (hanswer : fieldText env step.row "id" = some durable)
      (hrow : step.row =
        givenId (Template.jsonFields (step.ids.map Prod.snd) payload) (some durable)) :
      AddsNothing env delegate source renames (.create method payload actorType uuid) (some id)
        step
  | keyed {method : UpsertMethod} {payload : List (List Piece × Template)}
      {options : List (String × List Piece)} {actorType uuid id durable : String}
      {step : DirectStep σ} (hanswer : fieldText env step.row "id" = some durable)
      (hrow : step.row = givenId (keyedPayload method
        (Template.jsonFields (step.ids.map Prod.snd) payload)
        (optionTexts (step.ids.map Prod.snd) options)) (some durable)) :
      AddsNothing env delegate source renames (.upsert method payload options actorType uuid)
        (some id) step
  | update {memoryId : List Piece} {patch plain : List (List Piece × Template)}
      {actorType : String} {step : DirectStep σ}
      (htarget : updateTarget env delegate (renderText (step.ids.map Prod.fst) memoryId) source =
        some (Template.jsonFields [] plain))
      (hplain : Template.FieldsOK renames 0 plain)
      (hrow : step.row = (Template.jsonFields [] plain).update
        (Template.jsonFields (step.ids.map Prod.snd) patch)) :
      AddsNothing env delegate source renames (.update memoryId patch actorType) none step

/-! ### One mutation -/

theorem textOr_str {id : String} (h : id ≠ "") (default : String) :
    textOr env (.str id) default = id := by
  have htruthy : (Json.str id).truthy = true := bne_iff_ne.mpr h
  rw [textOr, if_pos htruthy, env.text_str]

theorem provisionalId_set {record : Dict Json} {id : String} (hstrip : strip id = id)
    (hid : id ≠ "") : provisionalId env (record.set "id" (.str id)) = some id := by
  have hitem : Dict.item (Dict.set record "id" (.str id)) "id" = .str id := by
    rw [Dict.item, Dict.get?_set_self]
    rfl
  unfold provisionalId
  rw [hitem, textOr_str hid, hstrip]
  exact if_neg hid

theorem renderText_mention {names : List String} {index : Nat} {name : String}
    (h : names[index]? = some name) : renderText names [.mention index] = name := by
  rw [renderText, List.flatMap_cons, List.flatMap_nil, List.append_nil, Piece.chars, nameAt, h,
    Option.getD_some, String.ofList_toList]

/-- Before its turn an id stays, and then it becomes the one the store answered with. -/
theorem replaceText_id {renames : Renames} {known : Nat} {id durable : String}
    (hplace : renames[known]? = some (id, durable)) (h : IdOK renames known id) :
    replaceText (renames.take known) id = id ∧ replaceText renames id = durable := by
  obtain ⟨hlength, hget⟩ := List.getElem?_eq_some_iff.mp hplace
  have hfirst : renderText (replaced renames 0) [.mention known] = id := by
    refine renderText_mention ?_
    rw [← map_fst_eq_replaced, List.getElem?_map, hplace]
    rfl
  have htake := replaceText_take h.clean hlength.le
  have hall := replaceText_take h.clean (Nat.le_refl renames.length)
  rw [hfirst] at htake hall
  rw [List.take_length] at hall
  constructor
  · rw [htake, renderText, List.flatMap_cons, List.flatMap_nil, List.append_nil, Piece.chars,
      nameAt_replaced_of_ge (Nat.le_refl known) hlength, hget, String.ofList_toList]
  · rw [hall, renderText, List.flatMap_cons, List.flatMap_nil, List.append_nil, Piece.chars,
      nameAt_replaced_of_lt hlength hlength, hget, String.ofList_toList]

theorem optionTexts_replaced {renames : Renames} {known done : Nat} (hknown : known ≤ done)
    (hdone : done ≤ renames.length) {options : List (String × List Piece)}
    (h : OptionsOK renames known options) :
    (optionTexts ((renames.take known).map Prod.fst) options).map
        (fun (name, value) => (name, replaceText (renames.take done) value)) =
      optionTexts ((renames.take known).map Prod.snd) options := by
  unfold optionTexts
  rw [List.map_map]
  refine List.map_congr_left fun option hoption => ?_
  obtain ⟨hclean, hbelow⟩ := h option hoption
  exact congrArg (Prod.mk option.1) (replaceText_renderText hclean hknown hdone hbelow)

theorem item_mapFields (f : String → String) (record : Dict Json) (key : String) :
    Dict.item (Json.mapFields f record) key = (Dict.item record key).mapTexts f := by
  rw [Dict.item, Dict.item, Json.get?_mapFields]
  cases Dict.get? record key with
  | none => rfl
  | some value => rfl

theorem objOrEmpty_mapTexts (f : String → String) (value : Json) :
    (value.mapTexts f).objOrEmpty = Json.mapFields f value.objOrEmpty := by
  cases value <;> rfl

theorem mapFields_update (f : String → String) (record patch : Dict Json) :
    Json.mapFields f (record.update patch) =
      Dict.update (Json.mapFields f record) (Json.mapFields f patch) := by
  induction patch generalizing record with
  | nil => rfl
  | cons field patch ih =>
    obtain ⟨key, value⟩ := field
    have hstep := ih (record.set key value)
    rw [Json.mapFields_set] at hstep
    exact hstep

theorem get?_map_options (f : String → String) (options : Dict String) (name : String) :
    Dict.get? (options.map fun (name, value) => (name, f value)) name =
      (Dict.get? options name).map f := by
  induction options with
  | nil => rfl
  | cons option options ih =>
    obtain ⟨k, v⟩ := option
    rw [List.map_cons, Dict.get?_cons, Dict.get?_cons, ih]
    split
    · rfl
    · rfl

theorem replaceText_empty (renames : Renames) : replaceText renames "" = "" := by
  induction renames with
  | nil => rfl
  | cons rename renames ih =>
    have hreplace : replaceAll "" rename.1 rename.2 = "" := rfl
    rw [replaceText, List.foldl_cons, hreplace, ite_self]
    exact ih

/-- The key that is written into the metadata is rewritten with the options. -/
theorem mapFields_keyedPayload {f : String → String} (hf : f "" = "") (method : UpsertMethod)
    (payload : Dict Json) (options : Dict String) :
    Json.mapFields f (keyedPayload method payload options) =
      keyedPayload method (Json.mapFields f payload)
        (options.map fun (name, value) => (name, f value)) := by
  -- a missing option is the empty text, which is left as it is
  have hoption : ∀ name, (Json.str ((Dict.get? options name).getD "")).mapTexts f =
      Json.str ((Dict.get? (options.map fun (name, value) => (name, f value)) name).getD "") := by
    intro name
    rw [get?_map_options, Json.mapTexts]
    cases Dict.get? options name with
    | none => exact congrArg Json.str hf
    | some value => rfl
  have hkey : ∀ m, Json.mapFields f (keyFields m options) =
      keyFields m (options.map fun (name, value) => (name, f value)) := by
    intro m
    cases m <;> simp only [keyFields, Json.mapFields, Json.mapField, hoption]
  have hset : ∀ m, Json.mapFields f (payload.set "metadata_json"
      (.obj ((payload.item "metadata_json").objOrEmpty.update (keyFields m options)))) =
      Dict.set (Json.mapFields f payload) "metadata_json"
        (.obj ((Dict.item (Json.mapFields f payload) "metadata_json").objOrEmpty.update
          (keyFields m (options.map fun (name, value) => (name, f value))))) := by
    intro m
    rw [Json.mapFields_set, Json.mapTexts, mapFields_update, hkey, item_mapFields,
      objOrEmpty_mapTexts]
  -- the key goes into the metadata, but for a memory
  cases method with
  | memory => rfl
  | artifact => exact hset .artifact
  | openLoop => exact hset .openLoop
  | edge => exact hset .edge

/-- A staged row, its texts rewritten, is the record with its id. -/
theorem mapFields_stagedRow {f : String → String} {record direct : Dict Json}
    {uuid id name : String} (hrecord : Json.mapFields f record = direct) (hid : f id = name)
    (hchosen : textOr env (record.item "id") uuid = id) :
    Json.mapFields f (stagedRow env record uuid) = givenId direct (some name) := by
  rw [stagedRow, hchosen, Json.mapFields_set, Json.mapTexts, hid, hrecord]
  rfl

theorem provisionalId_stagedRow {record : Dict Json} {renames : Renames} {known : Nat}
    {uuid id : String} (hid : IdOK renames known id)
    (hchosen : textOr env (record.item "id") uuid = id) :
    provisionalId env (stagedRow env record uuid) = some id := by
  rw [stagedRow, hchosen]
  exact provisionalId_set hid.strip_eq hid.ne_empty

/-- What one call stages: nothing, where the store is left as it is; or a mutation that is
published as the call is made. -/
inductive StagedAs (env : StagingEnv) (delegate : Delegate σ) (step : DirectStep σ)
    (chosen : Option String) (staged : Staged) : Staged → Prop where
  | nothing (hchosen : chosen = none) (hsame : step.after = step.before) :
      StagedAs env delegate step chosen staged staged
  | mutation {mutation : StagedMutation} {later : Staged}
      (hmutations : later.mutations = staged.mutations ++ [mutation])
      (hid : provisionalId env mutation.payload = chosen)
      (hpublish : publishMutation delegate mutation.method
          (Json.mapFields (replaceText step.ids) mutation.payload) mutation.actorType
          (mutation.options.map fun (name, value) => (name, replaceText step.ids value))
          step.before = .ok (step.row, step.after)) :
      StagedAs env delegate step chosen staged later

variable {renames : Renames} {step : DirectStep σ}

/-- One call is published as it is made on the store. -/
theorem stagedAs_of_callOK {call : Call} {chosen : Option String} {value : Dict Json}
    {staged later : Staged} (hids : step.ids <+: renames)
    (hplace : ∀ id ∈ chosen, ∃ durable, renames[step.ids.length]? = some (id, durable))
    (h : CallOK env delegate renames call chosen step)
    (hstage : stageCall env delegate source (step.ids.map Prod.fst) staged call =
      .ok (value, chosen, later))
    (hdirect : directCall delegate (step.ids.map Prod.snd) chosen step.before call =
      .ok (step.row, step.after)) : StagedAs env delegate step chosen staged later := by
  have hlength := hids.length_le
  have htake := List.prefix_iff_eq_take.mp hids
  -- the payload names ids of earlier calls only, so what publishing replaces is all there is
  have hfields : ∀ {payload : List (List Piece × Template)},
      Template.FieldsOK renames step.ids.length payload →
      Json.mapFields (replaceText step.ids)
          (Template.jsonFields (step.ids.map Prod.fst) payload) =
        Template.jsonFields (step.ids.map Prod.snd) payload := by
    intro payload hpayload
    have hmap := Template.mapFields_json (Nat.le_refl _) hlength payload hpayload
    rwa [← htake] at hmap
  -- the id of the call itself is not among them
  have hkept : ∀ {id : String}, id ∈ chosen → IdOK renames step.ids.length id →
      replaceText step.ids id = id := by
    intro id hchosen hid
    obtain ⟨durable, hget⟩ := hplace id hchosen
    have hreplace := (replaceText_id hget hid).1
    rwa [← htake] at hreplace
  cases h with
  | event hpayload hid _ =>
    -- the row that was staged is, with its names replaced, the arguments of the direct call
    simp only [stageCall, Except.ok.injEq, Prod.mk.injEq, Option.some.injEq] at hstage
    obtain ⟨_, hchosen, rfl⟩ := hstage
    refine .mutation rfl (provisionalId_stagedRow hid hchosen) ?_
    have hrow := mapFields_stagedRow (hfields hpayload) (hkept rfl hid) hchosen
    dsimp only [stageEvent, stageCreate, publishMutation]
    rw [hrow]
    exact hdirect
  | create hpayload hid _ =>
    simp only [stageCall, Except.ok.injEq, Prod.mk.injEq, Option.some.injEq] at hstage
    obtain ⟨_, hchosen, rfl⟩ := hstage
    refine .mutation rfl (provisionalId_stagedRow hid hchosen) ?_
    have hrow := mapFields_stagedRow (hfields hpayload) (hkept rfl hid) hchosen
    dsimp only [stageCreate, publishMutation]
    rw [hrow]
    exact hdirect
  | @keyed method payload options actorType uuid id _ _ hpayload hoptions hstrip hkeyed hid _ =>
    -- the key was new: no row of the store and no staged one has it
    obtain ⟨key, _, hstage⟩ := except_bind_ok.mp hstage
    dsimp only at hstage
    split at hstage
    · cases hstage
    split at hstage
    · cases hstage
    rw [hstrip] at hstage
    simp only [Except.ok.injEq, Prod.mk.injEq, Option.some.injEq] at hstage
    obtain ⟨_, hchosen, rfl⟩ := hstage
    refine .mutation rfl (provisionalId_stagedRow hid hchosen) ?_
    -- the options are texts that name ids as the payload does
    have hoption : (optionTexts (step.ids.map Prod.fst) options).map
        (fun (name, value) => (name, replaceText step.ids value)) =
          optionTexts (step.ids.map Prod.snd) options := by
      have hmap := optionTexts_replaced (Nat.le_refl _) hlength hoptions
      rwa [← htake] at hmap
    have hrecord := mapFields_keyedPayload (replaceText_empty step.ids) method
      (Template.jsonFields (step.ids.map Prod.fst) payload)
      (optionTexts (step.ids.map Prod.fst) options)
    rw [hfields hpayload, hoption] at hrecord
    have hrow := mapFields_stagedRow hrecord (hkept rfl hid) hchosen
    dsimp only [stageCreate]
    rw [hrow, hoption, hkeyed]
    exact hdirect
  | found hsame =>
    -- the key is known: the row found is returned and nothing is staged
    obtain ⟨key, _, hstage⟩ := except_bind_ok.mp hstage
    dsimp only at hstage
    split at hstage
    · cases hstage
      exact .nothing rfl hsame
    split at hstage
    · cases hstage
      exact .nothing rfl hsame
    · cases hstage
  | @update memoryId patch actorType _ hmemory hpatch hid =>
    obtain ⟨⟨row, after⟩, hupdate, hstage⟩ := except_bind_ok.mp hstage
    cases hstage
    unfold stageUpdate at hupdate
    split at hupdate
    · cases hupdate
    cases hupdate
    refine .mutation rfl hid ?_
    -- the row to update is named by its id, which is replaced like the patch
    have htext : replaceText step.ids (renderText (step.ids.map Prod.fst) memoryId) =
        renderText (step.ids.map Prod.snd) memoryId := by
      have hmap := replaceText_renderText hmemory.clean (Nat.le_refl _) hlength hmemory.below
      rwa [← htake] at hmap
    have hoption : Dict.get? ([("memory_id", renderText (step.ids.map Prod.fst) memoryId)].map
        fun (name, value) => (name, replaceText step.ids value)) "memory_id" =
          some (renderText (step.ids.map Prod.snd) memoryId) := congrArg some htext
    rw [publishMutation, hfields hpatch, hoption]
    exact hdirect

/-- What staging returned is, with the ids the store answered with, the store's answer, where
that adds nothing. -/
theorem value_of_addsNothing {call : Call} {chosen : Option String} {value : Dict Json}
    {staged later : Staged} (hids : step.ids <+: renames)
    (hplace : ∀ id ∈ chosen, ∃ durable, fieldText env step.row "id" = some durable ∧
      renames[step.ids.length]? = some (id, durable))
    (h : CallOK env delegate renames call chosen step)
    (hstage : stageCall env delegate source (step.ids.map Prod.fst) staged call =
      .ok (value, chosen, later))
    (hadds : AddsNothing env delegate source renames call chosen step) :
    Json.mapFields (replaceText renames) value = step.row := by
  have hlength := hids.length_le
  have htake := List.prefix_iff_eq_take.mp hids
  -- all ids are durable now, so the payload is the one the store was given
  have hfields : ∀ {payload : List (List Piece × Template)},
      Template.FieldsOK renames step.ids.length payload →
      Json.mapFields (replaceText renames) (Template.jsonFields (step.ids.map Prod.fst) payload) =
        Template.jsonFields (step.ids.map Prod.snd) payload := by
    intro payload hpayload
    have hmap := Template.mapFields_json hlength (Nat.le_refl _) payload hpayload
    rwa [← htake, List.take_length] at hmap
  -- and the call's own id is the one the store answered with
  have hname : ∀ {id durable : String}, id ∈ chosen → IdOK renames step.ids.length id →
      fieldText env step.row "id" = some durable → replaceText renames id = durable := by
    intro id durable hchosen hid hanswer
    obtain ⟨other, hother, hget⟩ := hplace id hchosen
    rw [Option.some.inj (hanswer.symm.trans hother)]
    exact (replaceText_id hget hid).2
  cases hadds with
  | event hanswer hrow =>
    cases h with
    | event hpayload hid _ =>
      simp only [stageCall, Except.ok.injEq, Prod.mk.injEq, Option.some.injEq] at hstage
      obtain ⟨rfl, hchosen, _⟩ := hstage
      exact (mapFields_stagedRow (hfields hpayload) (hname rfl hid hanswer) hchosen).trans
        hrow.symm
  | create hanswer hrow =>
    cases h with
    | create hpayload hid _ =>
      simp only [stageCall, Except.ok.injEq, Prod.mk.injEq, Option.some.injEq] at hstage
      obtain ⟨rfl, hchosen, _⟩ := hstage
      exact (mapFields_stagedRow (hfields hpayload) (hname rfl hid hanswer) hchosen).trans
        hrow.symm
  | @keyed method payload options _ _ _ _ _ hanswer hrow =>
    cases h with
    | keyed hpayload hoptions hstrip _ hid _ =>
      obtain ⟨key, _, hstage⟩ := except_bind_ok.mp hstage
      dsimp only at hstage
      split at hstage
      · cases hstage
      split at hstage
      · cases hstage
      rw [hstrip] at hstage
      simp only [Except.ok.injEq, Prod.mk.injEq, Option.some.injEq] at hstage
      obtain ⟨rfl, hchosen, _⟩ := hstage
      have hoption : (optionTexts (step.ids.map Prod.fst) options).map
          (fun (name, value) => (name, replaceText renames value)) =
            optionTexts (step.ids.map Prod.snd) options := by
        have hmap := optionTexts_replaced hlength (Nat.le_refl _) hoptions
        rwa [← htake, List.take_length] at hmap
      have hrecord := mapFields_keyedPayload (replaceText_empty renames) method
        (Template.jsonFields (step.ids.map Prod.fst) payload)
        (optionTexts (step.ids.map Prod.fst) options)
      rw [hfields hpayload, hoption] at hrecord
      exact (mapFields_stagedRow hrecord (hname rfl hid hanswer) hchosen).trans hrow.symm
  | @update memoryId patch plain actorType _ htarget hplain hrow =>
    cases h with
    | update _ hpatch _ =>
      obtain ⟨⟨row, after⟩, hupdate, hstage⟩ := except_bind_ok.mp hstage
      cases hstage
      rw [stageUpdate, htarget] at hupdate
      cases hupdate
      -- the row updated names no id, so nothing is replaced in what it keeps
      have hsame := Template.mapFields_json (Nat.zero_le _) (Nat.le_refl _) plain hplain
      rw [List.take_length, List.take_zero] at hsame
      have hcurrent : Json.mapFields (replaceText renames) (Template.jsonFields [] plain) =
          Template.jsonFields [] plain := hsame
      rw [mapFields_update, hcurrent, hfields hpatch, hrow]

/-! ### Runs -/

/-- The ids of a run on the store begin with those it began with. -/
theorem ids_prefix_of_directRun {calls : List (Call × Option String)} : ∀ {ids final : Renames}
    {s last : σ} {steps : List (DirectStep σ)},
    directRun env delegate calls ids s = .ok (steps, final, last) → ids <+: final := by
  induction calls with
  | nil =>
    intro ids final s last steps h
    cases h
    exact List.prefix_rfl
  | cons call calls ih =>
    intro ids final s last steps h
    obtain ⟨⟨row, after⟩, _, h⟩ := except_bind_ok.mp h
    obtain ⟨⟨rest, final', last'⟩, hrest, h⟩ := except_bind_ok.mp h
    cases h
    exact (List.prefix_append ids _).trans (ih hrest)

/-- The calls of a run with what staging chose, and the steps of the run on the store. -/
def RunOK (env : StagingEnv) (delegate : Delegate σ) (renames : Renames)
    (calls : List (Call × Option String)) (steps : List (DirectStep σ)) : Prop :=
  List.Forall₂ (fun call step => CallOK env delegate renames call.1 call.2 step) calls steps

theorem CallOK.answered {call : Call} {id : String}
    (h : CallOK env delegate renames call (some id) step) :
    ∃ durable, fieldText env step.row "id" = some durable ∧
      IdOK renames step.ids.length id := by
  cases h with
  | event _ hid hanswer => exact ⟨_, hanswer, hid⟩
  | create _ hid hanswer => exact ⟨_, hanswer, hid⟩
  | keyed _ _ _ _ hid hanswer => exact ⟨_, hanswer, hid⟩

/-- The rows of a run by the ids that staging chose. -/
def answeredRows (env : StagingEnv) :
    List (Option String) → List (DirectStep σ) → Dict (Dict Json)
  | some id :: chosen, step :: steps => (id, step.row) :: answeredRows env chosen steps
  | none :: chosen, _ :: steps => answeredRows env chosen steps
  | _, _ => []

/-- What staging returned for the calls of a run are the answers of the store, where these add
nothing. -/
def SameValues (env : StagingEnv) (delegate : Delegate σ) (source : σ) (renames : Renames)
    (calls : List ((Call × Option String) × Dict Json)) (steps : List (DirectStep σ)) : Prop :=
  List.Forall₂ (fun call step =>
    AddsNothing env delegate source renames call.1.1 call.1.2 step →
      Json.mapFields (replaceText renames) call.2 = step.row) calls steps

/-- A run of calls is published as it is made on the store. -/
theorem publishFrom_of_runOK {calls : List Call} : ∀ {staged later : Staged} {ids final : Renames}
    {values : List (Dict Json)} {chosen : List (Option String)} {s last : σ}
    {steps : List (DirectStep σ)},
    stageRun env delegate source calls (ids.map Prod.fst) staged = .ok (values, chosen, later) →
    directRun env delegate (calls.zip chosen) ids s = .ok (steps, final, last) →
    RunOK env delegate final (calls.zip chosen) steps →
    (∃ mutations, later.mutations = staged.mutations ++ mutations ∧
      ∀ rows : Dict (Dict Json), rows.map Prod.fst = ids.map Prod.fst →
        publishFrom env delegate mutations ids rows s =
          .ok (final, rows ++ answeredRows env chosen steps, last)) ∧
      SameValues env delegate source final ((calls.zip chosen).zip values) steps := by
  induction calls with
  | nil =>
    -- no call: nothing is staged, and publishing changes no row
    intro staged later ids final values chosen s last steps hstage hdirect _
    cases hstage
    cases hdirect
    refine ⟨⟨[], (List.append_nil _).symm, fun rows _ => ?_⟩, List.Forall₂.nil⟩
    rw [publishFrom, answeredRows, List.append_nil]
    · exact nofun
    · exact nofun
  | cons call calls ih =>
    intro staged later ids final values chosen s last steps hstage hdirect hrun
    obtain ⟨⟨value, picked, middle⟩, hcall, hstage⟩ := except_bind_ok.mp hstage
    obtain ⟨⟨values', chosen', later'⟩, hrest, hstage⟩ := except_bind_ok.mp hstage
    cases hstage
    rw [List.zip_cons_cons] at hdirect hrun
    obtain ⟨⟨row, after⟩, hanswer, hdirect⟩ := except_bind_ok.mp hdirect
    obtain ⟨⟨steps', final', last'⟩, hdirectRest, hdirect⟩ := except_bind_ok.mp hdirect
    cases hdirect
    obtain ⟨hcallOK, hrunRest⟩ := List.forall₂_cons.mp hrun
    have hprefix := ids_prefix_of_directRun hdirectRest
    -- a call that chose an id adds it to the names the next calls may use
    cases picked with
    | none =>
      have hstaged := stagedAs_of_callOK ((List.prefix_append _ _).trans hprefix)
        (fun _ hnone => absurd hnone (Option.not_mem_none _)) hcallOK hcall hanswer
      dsimp only at hdirectRest
      rw [Option.toList_none, List.append_nil] at hrest
      rw [List.append_nil] at hdirectRest
      obtain ⟨⟨mutations, hmutations, hpublish⟩, hvalues⟩ := ih hrest hdirectRest hrunRest
      refine ⟨?_, List.Forall₂.cons (fun hadds => value_of_addsNothing
        ((List.prefix_append _ _).trans hprefix)
        (fun _ hnone => absurd hnone (Option.not_mem_none _)) hcallOK hcall hadds) hvalues⟩
      -- nothing was staged, so the store answered without a change; or one mutation is, and it
      -- is published as the call was made on the store
      cases hstaged with
      | nothing _ hsame =>
        refine ⟨mutations, hmutations, fun rows hrows => ?_⟩
        have hstate : after = s := hsame
        rw [← hstate, hpublish rows hrows]
        rfl
      | @mutation mutation _ hfirst hid hone =>
        refine ⟨mutation :: mutations, ?_, fun rows hrows => ?_⟩
        · rw [hmutations, hfirst, List.append_assoc]
          rfl
        · rw [publishFrom]
          dsimp only
          rw [hone]
          dsimp only [bind, Except.bind]
          rw [hid]
          exact hpublish rows hrows
    | some id =>
      obtain ⟨durable, hdurable, hidOK⟩ := hcallOK.answered
      dsimp only at hdurable
      rw [hdurable] at hdirectRest hprefix
      dsimp only at hdirectRest hprefix
      -- the id is the next one of the run
      have hplace : final[ids.length]? = some (id, durable) := by
        obtain ⟨rest, rfl⟩ := hprefix
        rw [List.append_assoc, List.getElem?_append_right (Nat.le_refl _), Nat.sub_self]
        rfl
      have htake := List.prefix_iff_eq_take.mp ((List.prefix_append ids _).trans hprefix)
      have hfresh := hidOK.fresh
      dsimp only at hfresh
      rw [← htake] at hfresh
      have hstaged := stagedAs_of_callOK ((List.prefix_append ids _).trans hprefix)
        (fun other hother => ⟨durable, by rw [← Option.some.inj hother]; exact hplace⟩) hcallOK
        hcall hanswer
      rw [Option.toList_some] at hrest
      -- the names of the calls after this one
      have hnames : ids.map Prod.fst ++ [id] = (ids ++ [(id, durable)]).map Prod.fst := by
        rw [List.map_append]
        rfl
      rw [hnames] at hrest
      obtain ⟨⟨mutations, hmutations, hpublish⟩, hvalues⟩ := ih hrest hdirectRest hrunRest
      refine ⟨?_, List.Forall₂.cons (fun hadds => value_of_addsNothing
        ((List.prefix_append ids _).trans hprefix) (fun other hother => ⟨durable, hdurable, by
          rw [← Option.some.inj hother]
          exact hplace⟩) hcallOK hcall hadds) hvalues⟩
      -- a call with an id stages a mutation: it is published, and its row is kept under the id
      -- until the calls after it have been published
      cases hstaged with
      | nothing hchosen _ => cases hchosen
      | @mutation mutation _ hfirst hid hone =>
        refine ⟨mutation :: mutations, ?_, fun rows hrows => ?_⟩
        · rw [hmutations, hfirst, List.append_assoc]
          rfl
        · rw [publishFrom]
          dsimp only
          rw [hone]
          dsimp only [bind, Except.bind]
          rw [hid, hdurable]
          dsimp only
          rw [Dict.set_of_notMem _ hfresh, Dict.set_of_notMem _ (by rw [hrows]; exact hfresh),
            hpublish _ (by rw [List.map_append, List.map_append, hrows]; rfl), answeredRows,
            List.append_assoc]
          rfl

/-- **Staged writes are direct writes.** Where every call of a run meets its conditions,
publishing the plan leaves the store in the state of the same calls made on it, each row given the
id that staging chose; the artifact of the plan is the row the store answered with, if it was
staged; and what staging returned are the store's answers, where the store adds nothing. -/
theorem publish_eq_direct {calls : List Call} {values : List (Dict Json)}
    {chosen : List (Option String)} {staged : Staged} {s last : σ} {steps : List (DirectStep σ)}
    {ids : Renames} (artifact : Dict Json)
    (hstage : stageRun env delegate source calls [] ⟨[], []⟩ = .ok (values, chosen, staged))
    (hdirect : directRun env delegate (calls.zip chosen) [] s = .ok (steps, ids, last))
    (hrun : RunOK env delegate ids (calls.zip chosen) steps) :
    publish env delegate ⟨artifact, staged.mutations⟩ s =
        .ok (((provisionalId env artifact).bind
          (Dict.get? (answeredRows env chosen steps))).getD
            (Json.mapFields (replaceText ids) artifact), last) ∧
      SameValues env delegate source ids ((calls.zip chosen).zip values) steps := by
  have hnames : ([] : Renames).map Prod.fst = [] := rfl
  rw [← hnames] at hstage
  obtain ⟨⟨mutations, hmutations, hpublish⟩, hvalues⟩ := publishFrom_of_runOK hstage hdirect hrun
  refine ⟨?_, hvalues⟩
  rw [List.nil_append] at hmutations
  rw [publish, hmutations, hpublish [] rfl]
  rfl

end Publication

/-! ### Runs that come apart -/

/-- Texts are what they are. -/
def plainTexts : StagingEnv where
  text value := value.asStr?.getD ""
  text_str _ := rfl

/-- A store of one table, that answers with the record under an id of its own. -/
def rowStore : Delegate (List (Dict Json)) where
  appendEvent event rows := .ok (event, rows ++ [event])
  create _ record _ rows :=
    let row := Dict.set record "id"
      (.str ("row-" ++ String.singleton (Char.ofNat (49 + rows.length))))
    .ok (row, rows ++ [row])
  upsert _ := none
  updateMemory memoryId patch _ rows :=
    match rows.find? fun row => row.item "id" = .str memoryId with
    | some row =>
      .ok (row.update patch,
        rows.map fun other => if other.item "id" = .str memoryId then other.update patch else other)
    | none => .error (.store "update_memory")
  getMemory memoryId rows := rows.find? fun row => row.item "id" = .str memoryId
  listMemories rows := rows
  find _ _ := none

/-- A text as pieces. -/
def plainPieces (text : String) : List Piece := [.text text.toList]

/-- A memory, and an open loop whose title mentions it. -/
def memoryAndLoop : List Call :=
  [.create .memory [(plainPieces "title", .str (plainPieces "tea"))] "scheduler" "uuid-a",
    .create .openLoop
      [(plainPieces "title", .str [.text "see ".toList, .mention 0, .text "!".toList])] "scheduler"
      "uuid-b"]

/-- What staging returns for them. -/
def memoryAndLoopValues : List (Dict Json) :=
  [[("title", .str "tea"), ("id", .str "uuid-a")],
    [("title", .str "see uuid-a!"), ("id", .str "uuid-b")]]

/-- What is staged for them. -/
def memoryAndLoopStaged : Staged :=
  ⟨[⟨.create .memory, [("title", .str "tea"), ("id", .str "uuid-a")], "scheduler", []⟩,
    ⟨.create .openLoop, [("title", .str "see uuid-a!"), ("id", .str "uuid-b")], "scheduler", []⟩],
    []⟩

/-- The rows that the store answers with. -/
def memoryAndLoopRows : List (Dict Json) :=
  [[("title", .str "tea"), ("id", .str "row-1")],
    [("title", .str "see row-1!"), ("id", .str "row-2")]]

/-- The calls on the store itself. -/
def memoryAndLoopSteps : List (DirectStep (List (Dict Json))) :=
  [⟨[], [], [("title", .str "tea"), ("id", .str "row-1")], memoryAndLoopRows.take 1⟩,
    ⟨[("uuid-a", "row-1")], memoryAndLoopRows.take 1,
      [("title", .str "see row-1!"), ("id", .str "row-2")], memoryAndLoopRows⟩]

theorem memoryAndLoop_runOK :
    RunOK plainTexts rowStore [("uuid-a", "row-1"), ("uuid-b", "row-2")]
      (memoryAndLoop.zip [some "uuid-a", some "uuid-b"]) memoryAndLoopSteps := by
  have hmemory : IdOK [("uuid-a", "row-1"), ("uuid-b", "row-2")] 0 "uuid-a" :=
    ⟨by decide +kernel, by decide, by decide, by decide +kernel⟩
  have hloop : IdOK [("uuid-a", "row-1"), ("uuid-b", "row-2")] 1 "uuid-b" :=
    ⟨by decide +kernel, by decide, by decide, by decide +kernel⟩
  refine List.Forall₂.cons (CallOK.create ?_ hmemory rfl)
    (List.Forall₂.cons (CallOK.create ?_ hloop rfl) List.Forall₂.nil)
  · exact ⟨⟨⟨by decide, by decide⟩, ⟨by decide, by decide⟩⟩, trivial⟩
  · exact ⟨⟨⟨by decide, by decide⟩, ⟨by decide, by decide⟩⟩, trivial⟩

set_option synthInstance.maxSize 400 in
/-- A memory, and an open loop about it. -/
theorem memoryAndLoop_published :
    publish plainTexts rowStore ⟨[("id", .str "uuid-b")], memoryAndLoopStaged.mutations⟩ [] =
        .ok (((provisionalId plainTexts [("id", .str "uuid-b")]).bind
          (Dict.get? (answeredRows plainTexts [some "uuid-a", some "uuid-b"]
            memoryAndLoopSteps))).getD
            (Json.mapFields (replaceText [("uuid-a", "row-1"), ("uuid-b", "row-2")])
              [("id", .str "uuid-b")]), memoryAndLoopRows) ∧
      SameValues plainTexts rowStore [] [("uuid-a", "row-1"), ("uuid-b", "row-2")]
        ((memoryAndLoop.zip [some "uuid-a", some "uuid-b"]).zip memoryAndLoopValues)
        memoryAndLoopSteps := by
  have hstage : stageRun plainTexts rowStore [] memoryAndLoop [] ⟨[], []⟩ =
      .ok (memoryAndLoopValues, [some "uuid-a", some "uuid-b"], memoryAndLoopStaged) := by
    decide +kernel
  have hdirect : directRun plainTexts rowStore
      (memoryAndLoop.zip [some "uuid-a", some "uuid-b"]) [] [] =
      .ok (memoryAndLoopSteps, [("uuid-a", "row-1"), ("uuid-b", "row-2")], memoryAndLoopRows) := by
    decide +kernel
  exact publish_eq_direct [("id", .str "uuid-b")] hstage hdirect memoryAndLoop_runOK

/-- A memory, and an update of it. -/
def memoryAndUpdate : List Call :=
  [.create .memory [(plainPieces "title", .str (plainPieces "tea"))] "scheduler" "uuid-a",
    .update [.mention 0] [(plainPieces "status", .str (plainPieces "active"))] "scheduler"]

/-- Two updates of a row of the store. -/
def twoUpdates : List Call :=
  [.update (plainPieces "m1") [(plainPieces "title", .str (plainPieces "tea"))] "scheduler",
    .update (plainPieces "m1") [(plainPieces "status", .str (plainPieces "active"))] "scheduler"]

/-- A memory, and an open loop with its id for a key. -/
def memoryAsKey : List Call :=
  [.create .memory [(plainPieces "title", .str (plainPieces "tea"))] "scheduler" "uuid-a",
    .create .openLoop [([.mention 0], .str (plainPieces "seen"))] "scheduler" "uuid-b"]

set_option synthInstance.maxSize 400 in
/-- An update of a staged row is refused, where the store makes it; a second update returns the
row without the first; and a row is published under the key that staging chose. -/
theorem staged_not_direct :
    (stageRun plainTexts rowStore [] memoryAndUpdate [] ⟨[], []⟩ =
        .error (.validation "staged memory update target does not exist") ∧
      directRun plainTexts rowStore (memoryAndUpdate.zip [some "uuid-a", none]) [] [] =
        .ok ([⟨[], [], [("title", .str "tea"), ("id", .str "row-1")],
            [[("title", .str "tea"), ("id", .str "row-1")]]⟩,
          ⟨[("uuid-a", "row-1")], [[("title", .str "tea"), ("id", .str "row-1")]],
            [("title", .str "tea"), ("id", .str "row-1"), ("status", .str "active")],
            [[("title", .str "tea"), ("id", .str "row-1"), ("status", .str "active")]]⟩],
          [("uuid-a", "row-1")],
          [[("title", .str "tea"), ("id", .str "row-1"), ("status", .str "active")]])) ∧
    ((stageRun plainTexts rowStore [[("id", .str "m1")]] twoUpdates [] ⟨[], []⟩).toOption.map
          Prod.fst =
        some [[("id", .str "m1"), ("title", .str "tea")],
          [("id", .str "m1"), ("status", .str "active")]] ∧
      (directRun plainTexts rowStore (twoUpdates.zip [none, none]) []
          [[("id", .str "m1")]]).toOption.map (fun run => run.1.map DirectStep.row) =
        some [[("id", .str "m1"), ("title", .str "tea")],
          [("id", .str "m1"), ("title", .str "tea"), ("status", .str "active")]]) ∧
    ((stageRun plainTexts rowStore [] memoryAsKey [] ⟨[], []⟩).toOption.bind (fun run =>
          (publish plainTexts rowStore ⟨[], run.2.2.mutations⟩ []).toOption.map Prod.snd) =
        some [[("title", .str "tea"), ("id", .str "row-1")],
          [("uuid-a", .str "seen"), ("id", .str "row-2")]] ∧
      (directRun plainTexts rowStore (memoryAsKey.zip [some "uuid-a", some "uuid-b"]) []
          []).toOption.map (fun run => run.2.2) =
        some [[("title", .str "tea"), ("id", .str "row-1")],
          [("row-1", .str "seen"), ("id", .str "row-2")]]) := by
  decide +kernel

end AliceBot
