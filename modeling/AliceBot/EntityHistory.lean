import AliceBot.EntityReplay
import AliceBot.Library.Run
import Mathlib.Data.List.Induction

/-!
# Histories of entity linking

What any calls leave behind. The linker checks for its own edge before it links a
text, so the edges of an owner are different and each is one mention of its
entity; `link_memory_to_person` mentions its person first and looks for the edge
afterwards, so a repeated person is counted once more without an edge.

A text adds nothing a second time as long as its names are found by one entity:
a person created under a name that an entity of another type answers to takes
part in later lookups, and the more often mentioned one wins.
`person_is_counted_again` shows both.
-/

namespace AliceBot

open PyLib

variable {env : LinkEnv} {rules : String → List RuleMatch}

/-! ### Persons -/

/-- The person of a call, where it has its edge already. -/
def LinkCall.again? (env : LinkEnv) (s : LinkStore) : LinkCall → Option String
  | .toPerson memoryId personName _ =>
    if normalizeEntityName env personName = "" then none
    else
      match s.entityByNormalizedName .person (normalizeEntityName env personName) with
      | none => none
      | some found =>
        if (found.id, .relatedToPerson) ∈ s.existingEdgeKeys memoryId then some found.id else none
  | _ => none

/-- The memory has an edge to the person of the name. -/
def PersonLinked (s : LinkStore) (memoryId normalized : String) : Prop :=
  ∃ row, s.entityByNormalizedName .person normalized = some row ∧
    (row.id, LinkEdgeType.relatedToPerson) ∈ s.existingEdgeKeys memoryId

/-- What `link_memory_to_person` does for a name: it counts the person once more,
or it gives the memory its edge. -/
inductive PersonStep (s t : LinkStore) (memoryId normalized : String) : Prop
  | again (found : EntityRow) (hfound : s.entityByNormalizedName .person normalized = some found)
      (hedge : (found.id, LinkEdgeType.relatedToPerson) ∈ s.existingEdgeKeys memoryId)
      (hkeeps : KeepsEntities s t) (hedges : t.edges = s.edges)
      (hcounts : ∀ id, t.mentionCount id = s.mentionCount id + [found.id].count id)
      (hnames : Found t = Found s)
  | linked (row : EntityRow) (edge : GraphEdgeRow)
      (hgains : Gains ⟨.memory, memoryId⟩ .relatedToPerson [edge] s t)
      (hnew : ∀ found, s.entityByNormalizedName .person normalized = some found →
        (found.id, LinkEdgeType.relatedToPerson) ∉ s.existingEdgeKeys memoryId)
      (hrow : t.entityByNormalizedName .person normalized = some row) (hid : row.id = edge.toId)
      (hnames : Found t = Found s ∨ s.entityByNormalizedName .person normalized = none ∧
        Adds (Found s) (Found t) normalized row.id)

theorem PersonStep.personLinked {s t : LinkStore} {memoryId normalized : String}
    (h : PersonStep s t memoryId normalized) : PersonLinked t memoryId normalized := by
  cases h with
  | again found hfound hedge hkeeps hedges _ _ =>
    obtain ⟨row, hrow, hid⟩ := hkeeps.named _ _ found hfound
    refine ⟨row, hrow, ?_⟩
    unfold LinkStore.existingEdgeKeys at hedge ⊢
    rw [hid, hedges]
    exact hedge
  | linked row edge hgains _ hrow hid _ =>
    obtain ⟨hfrom, htype, hactive⟩ := hgains.shape edge (List.mem_singleton_self edge)
    refine ⟨row, hrow, mem_existingEdgeKeys.mpr ⟨edge, ?_, hfrom, hactive, hid.symm, htype⟩⟩
    rw [hgains.edges]
    exact List.mem_append_right _ (List.mem_singleton_self edge)

section Persons

variable {s m t : LinkStore} {memoryId personName normalized : String}
  {observedAt : Option String} {x : LinkError}

/-- The person is there afterwards, and mentioned once more. -/
theorem ensurePerson_ok {e : EntityRow} {action : LinkAction} (hname : normalized ≠ "")
    (h : (ensurePerson env personName normalized observedAt).run s = .ok (e, action) m) :
    KeepsEntities s m ∧ (∀ id, m.mentionCount id = s.mentionCount id + [e.id].count id) ∧
      m.edges = s.edges ∧ (∃ row, m.entities.get? e.id = some row) ∧
      (∃ row, m.entityByNormalizedName .person normalized = some row ∧ row.id = e.id) ∧
      ((∃ found, s.entityByNormalizedName .person normalized = some found ∧ found.id = e.id ∧
          Found m = Found s) ∨
        (s.entityByNormalizedName .person normalized = none ∧ s.entities.get? e.id = none ∧
          Adds (Found s) (Found m) normalized e.id)) := by
  obtain ⟨_, _, hget, h⟩ := run_bind_ok.mp h
  obtain ⟨rfl, rfl⟩ := run_get_ok.mp hget
  split at h
  · next hnone =>
    -- a new person: the name is found at the end of the table
    obtain ⟨entity, m', hcreate, h⟩ := run_bind_ok.mp h
    obtain ⟨heq, rfl⟩ := run_pure_ok.mp h
    cases heq
    obtain ⟨hinsert, hedges, htype, hnormalized, haliases, hcount⟩ :=
      createEntity_ok hname hcreate
    have hadds := found_insert hinsert haliases
    rw [hnormalized] at hadds
    refine ⟨keepsEntities_insert hinsert, mentionCount_insert hinsert hcount, hedges, ?_, ?_,
      Or.inr ⟨hnone, (Table.insert?_eq_some_iff.mp hinsert).1, hadds⟩⟩
    · rw [Table.get?_insert? hinsert, if_pos rfl]
      exact ⟨_, rfl⟩
    · unfold LinkStore.entityByNormalizedName at hnone ⊢
      rw [(Table.insert?_eq_some_iff.mp hinsert).2, List.find?_append, hnone, Option.none_or,
        List.find?_singleton, htype, hnormalized]
      exact ⟨e, by simp, rfl⟩
  · next found hfound =>
    -- a known person: the mention rewrites its row, and the name is found where it was
    obtain ⟨entity, m', hmention, h⟩ := run_bind_ok.mp h
    obtain ⟨heq, rfl⟩ := run_pure_ok.mp h
    cases heq
    obtain ⟨row, observed, now, -, hrow, rfl, hentities, hedges⟩ := recordEntityMention_ok hmention
    have hid : row.id = found.id := Table.key_of_get? hrow
    have hkeeps : KeepsEntities s m' := keepsEntities_rewrite hentities fun _ => ⟨rfl, rfl⟩
    obtain ⟨row', hrow', hid'⟩ := hkeeps.named _ _ found hfound
    refine ⟨hkeeps, ?_, hedges, ?_, ⟨row', hrow', hid'.trans hid.symm⟩,
      Or.inl ⟨found, hfound, hid.symm, found_mention hentities⟩⟩
    · intro id
      show _ = _ + [row.id].count id
      rw [hid]
      exact mentionCount_mention hrow hentities id
    · show ∃ r, m'.entities.get? row.id = some r
      rw [hentities, hid]
      exact ⟨_, Table.get?_rewrite_self _ hrow⟩

/-- A person that is there is missed only without an observation time. -/
theorem ensurePerson_error
    (h : (ensurePerson env personName normalized observedAt).run s = .error x m) :
    SameTables s m ∧
      (observedAt = none ∨ s.entityByNormalizedName .person normalized = none) := by
  rcases run_bind_error.mp h with hget | ⟨_, _, hget, h⟩
  · exact (run_get_error.mp hget).elim
  obtain ⟨rfl, rfl⟩ := run_get_ok.mp hget
  split at h
  · next hnone =>
    rcases run_bind_error.mp h with hcreate | ⟨_, _, -, h⟩
    · exact ⟨createEntity_error hcreate, Or.inr hnone⟩
    · exact (run_pure_error.mp h).elim
  · next found hfound =>
    rcases run_bind_error.mp h with hmention | ⟨_, _, -, h⟩
    · obtain ⟨hsame, hwhy⟩ := recordEntityMention_error hmention
      refine ⟨hsame, hwhy.imp_right fun hgone => ?_⟩
      rw [Table.get?_of_mem (List.mem_of_find?_eq_some hfound)] at hgone
      cases hgone
    · exact (run_pure_error.mp h).elim

/-- A memory without a name links nobody; any other is linked to its person by one step.
-/
theorem linkMemoryToPerson_ok {record : Option LinkRecord} (hknown : KnownEdges s)
    (h : (linkMemoryToPerson env memoryId personName observedAt).run s = .ok record t) :
    normalizeEntityName env personName = "" ∧ t = s ∨
      normalizeEntityName env personName ≠ "" ∧
        PersonStep s t memoryId (normalizeEntityName env personName) := by
  unfold linkMemoryToPerson at h
  split at h
  · next hempty =>
    obtain ⟨-, rfl⟩ := run_pure_ok.mp h
    exact Or.inl ⟨hempty, rfl⟩
  · next hname =>
    right
    refine ⟨hname, ?_⟩
    obtain ⟨⟨e, action⟩, m, hensure, h⟩ := run_bind_ok.mp h
    obtain ⟨hkeeps, hcounts, hedges, hexists, ⟨row, hrow, hrowid⟩, hcases⟩ :=
      ensurePerson_ok hname hensure
    obtain ⟨_, _, hget, h⟩ := run_bind_ok.mp h
    obtain ⟨rfl, rfl⟩ := run_get_ok.mp hget
    have hkeys : m.existingEdgeKeys memoryId = s.existingEdgeKeys memoryId := by
      unfold LinkStore.existingEdgeKeys
      rw [hedges]
    split at h
    · next hedge =>
      -- the memory is linked to this person already
      obtain ⟨-, rfl⟩ := run_pure_ok.mp h
      rw [hkeys] at hedge
      rcases hcases with ⟨found, hfound, hid, hnames⟩ | ⟨-, hfresh, -⟩
      · refine .again found hfound (hid ▸ hedge) hkeeps hedges ?_ hnames
        rw [hid]
        exact hcounts
      · -- no edge goes to an id that was not there
        obtain ⟨old, hold, -, -, hoid, -⟩ := mem_existingEdgeKeys.mp hedge
        obtain ⟨_, hold'⟩ := hknown old hold
        rw [hoid, hfresh] at hold'
        cases hold'
    · next hedge =>
      -- a new edge to the person, found or created
      obtain ⟨edge, t', hcreate, hentities', hedges', hfrom, hto, htype, hactive⟩ :=
        createEdge_run env m ⟨.memory, memoryId⟩ e.id .relatedToPerson 80
          s!"Person memory is about \"{personName}\" (title-derived)." observedAt
      obtain ⟨_, _, hrun, h⟩ := run_bind_ok.mp h
      rw [hcreate] at hrun
      cases hrun
      obtain ⟨-, rfl⟩ := run_pure_ok.mp h
      rw [hkeys] at hedge
      obtain ⟨row', hrow', hrowid'⟩ := (keepsEntities_congr hentities').named _ _ row hrow
      refine .linked row' edge (gains_one hkeeps hcounts hedges hexists hedge hentities' hedges'
        hfrom hto htype hactive) ?_ hrow' ?_ ?_
      · intro found hfound
        rcases hcases with ⟨found', hfound', hid, -⟩ | ⟨hnone, -⟩
        · rw [hfound] at hfound'
          cases hfound'
          rw [hid]
          exact hedge
        · rw [hfound] at hnone
          cases hnone
      · rw [hrowid', hrowid, hto]
      · rw [found_congr hentities', hrowid', hrowid]
        exact hcases.imp (fun ⟨_, _, _, hnames⟩ => hnames) fun ⟨hnone, _, hadds⟩ => ⟨hnone, hadds⟩

/-- Linking a person raises only where the mention has no time or finds no row, and then
nothing was written. -/
theorem linkMemoryToPerson_error
    (h : (linkMemoryToPerson env memoryId personName observedAt).run s = .error x t) :
    SameTables s t ∧ (observedAt = none ∨
      s.entityByNormalizedName .person (normalizeEntityName env personName) = none) := by
  unfold linkMemoryToPerson at h
  split at h
  · exact (run_pure_error.mp h).elim
  · rcases run_bind_error.mp h with hensure | ⟨⟨e, action⟩, m, -, h⟩
    · exact ensurePerson_error hensure
    · rcases run_bind_error.mp h with hget | ⟨_, _, hget, h⟩
      · exact (run_get_error.mp hget).elim
      obtain ⟨rfl, rfl⟩ := run_get_ok.mp hget
      split at h
      · exact (run_pure_error.mp h).elim
      · -- creating an edge does not raise
        obtain ⟨edge, t', hcreate, -⟩ :=
          createEdge_run env m ⟨.memory, memoryId⟩ e.id .relatedToPerson 80
            s!"Person memory is about \"{personName}\" (title-derived)." observedAt
        rcases run_bind_error.mp h with hrun | ⟨_, _, -, h⟩
        · rw [hcreate] at hrun
          cases hrun
        · exact (run_pure_error.mp h).elim

end Persons

/-! ### Histories -/

/-- A store, with the entities each call has created an edge to, and the entities
that were counted without one. -/
structure LinkHistory where
  store : LinkStore := {}
  linked : List (List String) := []
  counted : List String := []

/-- A call, which may raise half way: what it has written is kept, or it is
rolled back. -/
structure LinkStep (env : LinkEnv) (rules : String → List RuleMatch) (h : LinkHistory)
    (call : LinkCall) (h' : LinkHistory) : Prop where
  outcome : h'.store = endState ((call.perform env rules).run h.store) ∨
    returned ((call.perform env rules).run h.store) = false ∧ h'.store = h.store
  linked : h'.linked = h.linked ++ [(h'.store.edges.drop h.store.edges.length).map (·.toId)]
  counted : h'.counted = h.counted ++
    if returned ((call.perform env rules).run h.store) then (call.again? env h.store).toList else []

/-- The text a call links. -/
def LinkCall.text? : LinkCall → Option String
  | .forSource _ text _ | .forMemory _ text _ => some text
  | .toPerson .. => none

/-- The same owner and text, observed at another time. -/
def LinkCall.observedAt (observedAt : Option String) : LinkCall → LinkCall
  | .forSource sourceId text _ => .forSource sourceId text observedAt
  | .forMemory memoryId text _ => .forMemory memoryId text observedAt
  | .toPerson memoryId personName _ => .toPerson memoryId personName observedAt

/-- The call creates a person under a name by which a candidate of the text is
found. -/
def Contested (env : LinkEnv) (rules : String → List RuleMatch) (text : String) (s : LinkStore) :
    LinkCall → Prop
  | .toPerson _ personName _ =>
    s.entityByNormalizedName .person (normalizeEntityName env personName) = none ∧
      ∃ c ∈ candidatesOf env rules text,
        Contests honorificStripped (Found s) (normalizeEntityName env personName) c.normalized
  | _ => False

/-- A step that leaves the names of the text alone. -/
def CalmStep (env : LinkEnv) (rules : String → List RuleMatch) (text : String) (h : LinkHistory)
    (call : LinkCall) (h' : LinkHistory) : Prop :=
  LinkStep env rules h call h' ∧ ¬Contested env rules text h.store call

/-- The call returned when it was made, and steps led from there to `h'`. -/
def CalledBefore (env : LinkEnv) (rules : String → List RuleMatch)
    (step : LinkHistory → LinkCall → LinkHistory → Prop) (h : LinkHistory) (call : LinkCall)
    (h' : LinkHistory) : Prop :=
  ∃ after later, LinkStep env rules h call after ∧
    returned ((call.perform env rules).run h.store) = true ∧ Run step (· = after) later h'

/-- The history after a call that wrote what it could. -/
def LinkHistory.serve (env : LinkEnv) (rules : String → List RuleMatch) (h : LinkHistory)
    (call : LinkCall) : LinkHistory :=
  let result := (call.perform env rules).run h.store
  { store := endState result
    linked := h.linked ++ [((endState result).edges.drop h.store.edges.length).map (·.toId)]
    counted := h.counted ++ if returned result then (call.again? env h.store).toList else [] }

theorem linkStep_serve (env : LinkEnv) (rules : String → List RuleMatch) (h : LinkHistory)
    (call : LinkCall) : LinkStep env rules h call (h.serve env rules call) :=
  ⟨Or.inl rfl, rfl, rfl⟩

section Steps

variable {s t : LinkStore} {h h' : LinkHistory} {call : LinkCall} {text : String}

/-- What a run of a call has done when it ended. -/
inductive CallEffect (env : LinkEnv) (s t : LinkStore) (call : LinkCall) (ok : Bool) : Prop
  | same (htables : SameTables s t) (hagain : ok = true → call.again? env s = none)
  | links (owner : LinkOwner) (hlinks : Links owner s t) (hagain : call.again? env s = none)
  | person (memoryId personName : String) (observedAt : Option String)
      (hcall : call = .toPerson memoryId personName observedAt) (hok : ok = true)
      (hname : normalizeEntityName env personName ≠ "")
      (hstep : PersonStep s t memoryId (normalizeEntityName env personName))

theorem perform_effect (hknown : KnownEdges s) :
    CallEffect env s (endState ((call.perform env rules).run s)) call
      (returned ((call.perform env rules).run s)) := by
  cases call with
  | forSource sourceId text observedAt => exact .links _ (linkText_links hknown) rfl
  | forMemory memoryId text observedAt => exact .links _ (linkText_links hknown) rfl
  | toPerson memoryId personName observedAt =>
    rw [LinkCall.perform, run_map]
    cases hrun : (linkMemoryToPerson env memoryId personName observedAt).run s with
    | ok record t =>
      rcases linkMemoryToPerson_ok hknown hrun with ⟨hempty, rfl⟩ | ⟨hname, hstep⟩
      · refine .same ⟨rfl, rfl⟩ fun _ => ?_
        rw [LinkCall.again?, if_pos hempty]
      · exact .person memoryId personName observedAt rfl rfl hname hstep
    | error x t => exact .same (linkMemoryToPerson_error hrun).1 nofun

theorem LinkStep.of_returned (hstep : LinkStep env rules h call h')
    (hreturned : returned ((call.perform env rules).run h.store) = true) :
    ∃ records, (call.perform env rules).run h.store = .ok records h'.store := by
  rcases hstep.outcome with hend | ⟨hraised, -⟩
  · rw [hend]
    exact exists_ok_of_returned hreturned
  · rw [hreturned] at hraised
    cases hraised

theorem linkStep_effect (hknown : KnownEdges h.store) (hstep : LinkStep env rules h call h') :
    CallEffect env h.store h'.store call (returned ((call.perform env rules).run h.store)) := by
  rcases hstep.outcome with hend | ⟨hraised, hback⟩
  · rw [hend]
    exact perform_effect hknown
  · rw [hback, hraised]
    exact .same ⟨rfl, rfl⟩ nofun

/-- What is counted: one for each new edge, and one for a person that has its edge
already. -/
theorem CallEffect.counts {ok : Bool} (heffect : CallEffect env s t call ok) :
    ∃ owner edgeType new, NewEdges owner edgeType new s t ∧
      ∀ id, t.mentionCount id = s.mentionCount id + (new.map (·.toId)).count id +
        (if ok then (call.again? env s).toList else []).count id := by
  -- what a call adds to the counts is what it adds to the edges, but for a person linked before
  cases heffect with
  | same htables hagain =>
    have hgains : Gains ⟨.source, ""⟩ .mentions [] s t := gains_nil htables.1 htables.2
    refine ⟨_, _, [], hgains.toNewEdges, fun id => ?_⟩
    rw [hgains.counts]
    cases ok with
    | true =>
      rw [hagain rfl]
      rfl
    | false => rfl
  | links owner hlinks hagain =>
    obtain ⟨⟨new, hgains⟩, -⟩ := hlinks
    refine ⟨owner, .mentions, new, hgains.toNewEdges, fun id => ?_⟩
    rw [hgains.counts, hagain]
    simp
  | person memoryId personName observedAt hcall hok hname hstep =>
    subst hcall hok
    cases hstep with
    | again found hfound hedge hkeeps hedges hcounts hnames =>
      refine ⟨⟨.memory, memoryId⟩, .relatedToPerson, [], ?_, fun id => ?_⟩
      · exact
          { toKeepsEntities := hkeeps
            edges := by rw [hedges, List.append_nil]
            shape := fun _ hedge => by cases hedge
            fresh := fun _ hedge => by cases hedge
            nodup := List.nodup_nil
            known := fun _ hedge => by cases hedge }
      · rw [hcounts, LinkCall.again?, if_neg hname, hfound]
        simp only [if_pos hedge]
        rfl
    | linked row edge hgains hnew hrow hid hnames =>
      refine ⟨_, _, _, hgains.toNewEdges, fun id => ?_⟩
      have hagain : (LinkCall.toPerson memoryId personName observedAt).again? env s = none := by
        rw [LinkCall.again?, if_neg hname]
        split
        · rfl
        · next found hfound => rw [if_neg (hnew found hfound)]
      rw [hgains.counts, hagain]
      simp

theorem linkStep_knownEdges (hknown : KnownEdges h.store) (hstep : LinkStep env rules h call h') :
    KnownEdges h'.store := by
  obtain ⟨_, _, _, hnew, -⟩ := (linkStep_effect hknown hstep).counts
  exact hnew.knownEdges hknown

/-- What a lookup of the text finds, it finds after a calm step. -/
theorem CallEffect.finds {ok : Bool} (heffect : CallEffect env s t call ok)
    (hcalm : ¬Contested env rules text s call) {c : EntityCandidate}
    (hc : c ∈ candidatesOf env rules text)
    (hdefinite : Definite honorificStripped (Found s) c.normalized) :
    Definite honorificStripped (Found t) c.normalized ∧
      ∀ id, Finds honorificStripped (Found s) c.normalized id →
        Finds honorificStripped (Found t) c.normalized id := by
  cases heffect with
  | same htables _ =>
    rw [found_congr htables.1]
    exact ⟨hdefinite, fun _ hfinds => hfinds⟩
  | links owner hlinks _ =>
    -- linking a text keeps the names that are definite
    exact ⟨hlinks.2.definite hdefinite, fun _ hfinds => hlinks.2.finds hdefinite hfinds⟩
  | person memoryId personName observedAt hcall _ hname hstep =>
    subst hcall
    cases hstep with
    | again found hfound hedge hkeeps hedges hcounts hnames =>
      rw [hnames]
      exact ⟨hdefinite, fun _ hfinds => hfinds⟩
    | linked row edge hgains hnew hrow hid hnames =>
      rcases hnames with hsame | ⟨hnone, hadds⟩
      · rw [hsame]
        exact ⟨hdefinite, fun _ hfinds => hfinds⟩
      · -- a new person has a name of its own, which a calm step does not contest
        have hfree : ¬Contests honorificStripped (Found s) (normalizeEntityName env personName)
            c.normalized := fun hcontests => hcalm ⟨hnone, c, hc, hcontests⟩
        exact ⟨hadds.definite hfree hdefinite, fun _ hfinds => hadds.finds hfree hfinds⟩

end Steps

/-! ### What every history keeps -/

/-- What tells an active edge from the others. -/
def GraphEdgeRow.key (edge : GraphEdgeRow) : String × String × LinkEdgeType :=
  (edge.fromId, edge.toId, edge.edgeType)

/-- Every active edge is the only one of its key, and every mention is an edge that a
call created, or a person that a call found with its edge. -/
structure Tallied (h : LinkHistory) : Prop where
  distinct : ((h.store.edges.filter fun edge => edge.validTo.isNone).map (·.key)).Nodup
  mentions : ∀ id, h.store.mentionCount id =
    h.linked.countP (fun ids => decide (id ∈ ids)) + h.counted.count id

section Runs

variable {s t : LinkStore} {h h' h₁ h₂ : LinkHistory} {call : LinkCall} {text : String}
  {ops later : List LinkCall} {owner : LinkOwner} {edgeType : LinkEdgeType}
  {new : List GraphEdgeRow} {observedAt : Option String}

/-- New edges repeat no active edge, so active edges stay distinct. -/
theorem NewEdges.distinct (hnew : NewEdges owner edgeType new s t)
    (hs : ((s.edges.filter fun edge => edge.validTo.isNone).map (·.key)).Nodup) :
    ((t.edges.filter fun edge => edge.validTo.isNone).map (·.key)).Nodup := by
  have hactive : new.filter (fun edge => edge.validTo.isNone) = new := by
    rw [List.filter_eq_self]
    intro edge hedge
    rw [(hnew.shape edge hedge).2.2]
    rfl
  rw [hnew.edges, List.filter_append, hactive, List.map_append]
  refine hs.append ?_ ?_
  · refine List.Nodup.of_map (fun key => key.2.1) ?_
    rw [List.map_map]
    exact hnew.nodup
  · -- an active edge of the same key is one the owner had
    intro key hold hkey
    obtain ⟨old, hmem, rfl⟩ := List.mem_map.mp hold
    obtain ⟨edge, hedge, hsame⟩ := List.mem_map.mp hkey
    rw [List.mem_filter, Option.isNone_iff_eq_none] at hmem
    obtain ⟨hfrom, htype, -⟩ := hnew.shape edge hedge
    obtain ⟨hfrom', hrest⟩ := Prod.mk.inj hsame
    obtain ⟨hto', htype'⟩ := Prod.mk.inj hrest
    refine hnew.fresh edge hedge (mem_existingEdgeKeys.mpr ⟨old, hmem.1, ?_, hmem.2, ?_, ?_⟩)
    · rw [← hfrom', hfrom]
    · rw [hto']
    · rw [← htype', htype]

theorem linkStep_tallied (hknown : KnownEdges h.store) (hstep : LinkStep env rules h call h')
    (htallied : Tallied h) : Tallied h' := by
  obtain ⟨owner, edgeType, new, hnew, hcounts⟩ := (linkStep_effect hknown hstep).counts
  refine ⟨hnew.distinct htallied.distinct, fun id => ?_⟩
  have hlinked : h'.linked = h.linked ++ [new.map (·.toId)] := by
    rw [hstep.linked, hnew.edges, List.drop_left]
  rw [hcounts, htallied.mentions, hlinked, hstep.counted, List.countP_append, List.count_append,
    List.countP_singleton, hnew.nodup.count]
  simp only [decide_eq_true_eq]
  omega

theorem run_tallied (run : Run (LinkStep env rules) (· = {}) ops h) :
    KnownEdges h.store ∧ Tallied h := by
  refine run.invariant (P := fun h => KnownEdges h.store ∧ Tallied h) ?_ ?_
  · rintro _ rfl
    refine ⟨fun edge hedge => ?_, List.nodup_nil, fun id => rfl⟩
    cases hedge
  · rintro h call h' ⟨hknown, htallied⟩ hstep
    exact ⟨linkStep_knownEdges hknown hstep, linkStep_tallied hknown hstep htallied⟩

/-- What a call leaves behind, later calls keep. -/
theorem run_newEdges (hknown : KnownEdges h₁.store)
    (run : Run (LinkStep env rules) (· = h₁) later h₂) :
    KnownEdges h₂.store ∧ KeepsEntities h₁.store h₂.store ∧
      ∀ fromId, ∀ key ∈ h₁.store.existingEdgeKeys fromId,
        key ∈ h₂.store.existingEdgeKeys fromId := by
  refine run.invariant (P := fun h => KnownEdges h.store ∧ KeepsEntities h₁.store h.store ∧
    ∀ fromId, ∀ key ∈ h₁.store.existingEdgeKeys fromId,
      key ∈ h.store.existingEdgeKeys fromId) ?_ ?_
  · rintro _ rfl
    exact ⟨hknown, keepsEntities_congr rfl, fun _ _ hkey => hkey⟩
  · rintro h call h' ⟨hknown, hkeeps, hexisting⟩ hstep
    obtain ⟨_, _, _, hnew, -⟩ := (linkStep_effect hknown hstep).counts
    exact ⟨hnew.knownEdges hknown, hkeeps.trans hnew.toKeepsEntities,
      fun fromId key hkey => hnew.existing (hexisting fromId key hkey)⟩

/-! ### Repeated calls -/

theorem perform_text (env : LinkEnv) (rules : String → List RuleMatch)
    (htext : call.text? = some text) :
    ∃ owner observedAt, call.perform env rules = linkText env rules owner text observedAt ∧
      ∀ again, (call.observedAt again).perform env rules =
        linkText env rules owner text again := by
  cases call with
  | forSource sourceId text' observedAt =>
    cases htext
    exact ⟨⟨.source, sourceId⟩, observedAt, rfl, fun _ => rfl⟩
  | forMemory memoryId text' observedAt =>
    cases htext
    exact ⟨⟨.memory, memoryId⟩, observedAt, rfl, fun _ => rfl⟩
  | toPerson => cases htext

/-- The names of the text are definite, and what is linked stays linked. -/
theorem calmStep_linked (owner : LinkOwner) (hknown : KnownEdges h.store)
    (hstep : CalmStep env rules text h call h') {c : EntityCandidate}
    (hc : c ∈ candidatesOf env rules text)
    (hdefinite : Definite honorificStripped (Found h.store) c.normalized) :
    Definite honorificStripped (Found h'.store) c.normalized ∧
      (LinkedTo owner h.store c → LinkedTo owner h'.store c) := by
  have heffect := linkStep_effect hknown hstep.1
  obtain ⟨hdefinite', hfinds⟩ := heffect.finds hstep.2 hc hdefinite
  obtain ⟨_, _, _, hnew, -⟩ := heffect.counts
  refine ⟨hdefinite', ?_⟩
  rintro ⟨id, hfound, hedge⟩
  exact ⟨id, hfinds id hfound, hnew.existing hedge⟩

theorem run_calm (run : Run (CalmStep env rules text) (· = {}) ops h) :
    KnownEdges h.store ∧ ∀ c ∈ candidatesOf env rules text,
      Definite honorificStripped (Found h.store) c.normalized := by
  refine run.invariant (P := fun h => KnownEdges h.store ∧ ∀ c ∈ candidatesOf env rules text,
    Definite honorificStripped (Found h.store) c.normalized) ?_ ?_
  · rintro _ rfl
    refine ⟨fun edge hedge => (by cases hedge), fun c _ i j hi _ => ?_⟩
    -- nothing answers to a name yet
    rcases hi with ⟨_, hrow, -⟩ | ⟨-, _, -, _, hrow, -⟩
    · cases hrow
    · cases hrow
  · rintro h call h' ⟨hknown, hdefinite⟩ hstep
    refine ⟨linkStep_knownEdges hknown hstep.1, fun c hc => ?_⟩
    exact (calmStep_linked ⟨.source, ""⟩ hknown hstep hc (hdefinite c hc)).1

/-- Along calls that leave the names of a text alone, what the text was linked to stays
linked. -/
theorem run_calm_linked (hknown : KnownEdges h₁.store)
    (hlinked : ∀ c ∈ candidatesOf env rules text, LinkedTo owner h₁.store c ∧
      Definite honorificStripped (Found h₁.store) c.normalized)
    (run : Run (CalmStep env rules text) (· = h₁) later h₂) :
    ∀ c ∈ candidatesOf env rules text, LinkedTo owner h₂.store c ∧
      Definite honorificStripped (Found h₂.store) c.normalized := by
  refine (run.invariant (P := fun h => KnownEdges h.store ∧
    ∀ c ∈ candidatesOf env rules text, LinkedTo owner h.store c ∧
      Definite honorificStripped (Found h.store) c.normalized) ?_ ?_).2
  · rintro _ rfl
    exact ⟨hknown, hlinked⟩
  · rintro h call h' ⟨hknown, hlinked⟩ hstep
    refine ⟨linkStep_knownEdges hknown hstep.1, fun c hc => ?_⟩
    obtain ⟨hc', hdefinite⟩ := hlinked c hc
    obtain ⟨hdefinite', hkeeps⟩ := calmStep_linked owner hknown hstep hc hdefinite
    exact ⟨hkeeps hc', hdefinite'⟩

/-- The text of a call that returned is linked, and its names are definite. -/
theorem linkStep_linked (hknown : KnownEdges h.store)
    (hdefinite : ∀ c ∈ candidatesOf env rules text,
      Definite honorificStripped (Found h.store) c.normalized)
    (htext : call.perform env rules = linkText env rules owner text observedAt)
    (hstep : LinkStep env rules h call h₁)
    (hreturned : returned ((call.perform env rules).run h.store) = true) :
    ∀ c ∈ candidatesOf env rules text, LinkedTo owner h₁.store c ∧
      Definite honorificStripped (Found h₁.store) c.normalized := by
  obtain ⟨records, hrun⟩ := hstep.of_returned hreturned
  rw [htext] at hrun
  intro c hc
  have hlinks : Links owner h.store h₁.store := (linkText_links hknown).ok hrun
  exact ⟨linkText_ok hknown hrun c hc (hdefinite c hc), hlinks.2.definite (hdefinite c hc)⟩

/-- A person of whom a call returned has its edge. -/
theorem linkStep_personLinked {memoryId personName : String} (hknown : KnownEdges h.store)
    (hname : normalizeEntityName env personName ≠ "")
    (hstep : LinkStep env rules h (.toPerson memoryId personName observedAt) h₁)
    (hreturned : returned
      (((LinkCall.toPerson memoryId personName observedAt).perform env rules).run h.store) = true) :
    PersonLinked h₁.store memoryId (normalizeEntityName env personName) := by
  obtain ⟨records, hrun⟩ := hstep.of_returned hreturned
  rw [LinkCall.perform, run_map] at hrun
  cases hlink : (linkMemoryToPerson env memoryId personName observedAt).run h.store with
  | ok record t =>
    rw [hlink] at hrun
    cases hrun
    rcases linkMemoryToPerson_ok hknown hlink with ⟨hempty, -⟩ | ⟨-, hperson⟩
    · exact absurd hempty hname
    · exact hperson.personLinked
  | error x t =>
    rw [hlink] at hrun
    cases hrun

/-- A person that has its edge is counted once more, and nothing else. -/
theorem linkMemoryToPerson_again {memoryId personName : String} (observed : String)
    (hknown : KnownEdges s)
    (hlinked : PersonLinked s memoryId (normalizeEntityName env personName))
    (hname : normalizeEntityName env personName ≠ "") :
    ∃ record t person, (linkMemoryToPerson env memoryId personName (some observed)).run s =
        .ok record t ∧
      s.entityByNormalizedName .person (normalizeEntityName env personName) = some person ∧
      t.edges = s.edges ∧ ∀ id, t.mentionCount id = s.mentionCount id + [person.id].count id := by
  obtain ⟨row, hrow, hedge⟩ := hlinked
  cases hrun : (linkMemoryToPerson env memoryId personName (some observed)).run s with
  | error x t =>
    rcases (linkMemoryToPerson_error hrun).2 with hnone | hnone
    · cases hnone
    · rw [hrow] at hnone
      cases hnone
  | ok record t =>
    rcases linkMemoryToPerson_ok hknown hrun with ⟨hempty, -⟩ | ⟨-, hperson⟩
    · exact absurd hempty hname
    · -- the person that was linked has its edge, so none is created
      cases hperson with
      | again found hfound _ _ hedges hcounts _ =>
        exact ⟨record, t, found, rfl, hfound, hedges, hcounts⟩
      | linked _ _ _ hnew _ _ _ => exact absurd hedge (hnew row hrow)

end Runs

/-- Whatever is linked, an owner has one active edge of a type to an entity, and an
entity is mentioned by the calls that created its edges and by those that found a
person with its edge. A text that was linked is linked ever after, as long as its
names are not contested; a person that was linked is counted once more. -/
theorem entity_linking {ops : List LinkCall} {h : LinkHistory}
    (run : Run (LinkStep env rules) (· = {}) ops h) :
    Tallied h ∧
      (∀ text call h' again, Run (CalmStep env rules text) (· = {}) ops h →
        call.text? = some text → CalledBefore env rules (CalmStep env rules text) h call h' →
        ∃ records, ((call.observedAt again).perform env rules).run h'.store =
          .ok records h'.store) ∧
      ∀ memoryId personName observedAt h' again, normalizeEntityName env personName ≠ "" →
        CalledBefore env rules (LinkStep env rules) h (.toPerson memoryId personName observedAt)
          h' →
        ∃ records t person,
          ((LinkCall.toPerson memoryId personName (some again)).perform env rules).run h'.store =
            .ok records t ∧
          h'.store.entityByNormalizedName .person (normalizeEntityName env personName) =
            some person ∧
          t.edges = h'.store.edges ∧
          ∀ id, t.mentionCount id = h'.store.mentionCount id + [person.id].count id := by
  obtain ⟨hknown, htallied⟩ := run_tallied run
  refine ⟨htallied, ?_, ?_⟩
  · -- a text: what it linked stays linked along calls that leave its names alone
    rintro text call h' again hcalm htext ⟨after, later, hstep, hreturned, hlater⟩
    obtain ⟨owner, observedAt, hperform, hagain⟩ := perform_text env rules htext
    have hlinked := linkStep_linked hknown (run_calm hcalm).2 hperform hstep hreturned
    rw [hagain]
    exact linkText_again (run_calm_linked (linkStep_knownEdges hknown hstep) hlinked hlater)
  · -- a person: the edge is still there, so the call only counts
    rintro memoryId personName observedAt h' again hname ⟨after, later, hstep, hreturned, hlater⟩
    obtain ⟨row, hrow, hedge⟩ := linkStep_personLinked hknown hname hstep hreturned
    obtain ⟨hknown', hkeeps, hexisting⟩ :=
      run_newEdges (linkStep_knownEdges hknown hstep) hlater
    obtain ⟨row', hrow', hid⟩ := hkeeps.named _ _ row hrow
    have hperson : PersonLinked h'.store memoryId (normalizeEntityName env personName) :=
      ⟨row', hrow', hid ▸ hexisting _ _ hedge⟩
    obtain ⟨record, t, person, hrun, hfound, hedges, hcounts⟩ :=
      linkMemoryToPerson_again again hknown' hperson hname
    refine ⟨record.toList, t, person, ?_, hfound, hedges, hcounts⟩
    rw [LinkCall.perform, run_map, hrun]

/-! ### One name for two -/

/-- Lower case and full stops, and ids and times that are counted. -/
def aliceEnv : LinkEnv where
  casefold := asciiLower
  isPunctuation c := c = '.'
  newId n := String.ofList (List.replicate n 'i')
  utcNow n := String.ofList (List.replicate n 't')

/-- What the rules match in a text about Alice. -/
def aliceRules (text : String) : List RuleMatch :=
  if text = "Ask Alice Rivers." then
    [⟨4, "Alice Rivers", .other, .capitalizedSpanDefault⟩]
  else []

/-- A text is linked. -/
def askAlice : LinkCall :=
  .forSource "source" "Ask Alice Rivers." (some "t")

/-- A memory is linked to a person. -/
def about (personName : String) : LinkCall :=
  .toPerson "memory" personName (some "t")

/-- The history of the calls. -/
def aliceHistory (calls : List LinkCall) : LinkHistory :=
  calls.foldl (LinkHistory.serve aliceEnv aliceRules) {}

theorem aliceHistory_step (calls : List LinkCall) (call : LinkCall) :
    LinkStep aliceEnv aliceRules (aliceHistory calls) call (aliceHistory (calls ++ [call])) := by
  rw [aliceHistory, aliceHistory, List.foldl_append]
  exact linkStep_serve _ _ _ _

theorem aliceHistory_run (calls : List LinkCall) :
    Run (LinkStep aliceEnv aliceRules) (· = {}) calls (aliceHistory calls) := by
  induction calls using List.reverseRecOn with
  | nil => exact .start rfl
  | append_singleton calls call ih => exact ih.next (aliceHistory_step calls call)

theorem about_bob_calm (s : LinkStore) :
    ¬Contested aliceEnv aliceRules "Ask Alice Rivers." s (about "Bob") := by
  have hnames : (candidatesOf aliceEnv aliceRules "Ask Alice Rivers.").all (fun c =>
      c.normalized != "bob" && (honorificStripped c.normalized).isNone) = true := by
    decide +kernel
  have hbob : normalizeEntityName aliceEnv "Bob" = "bob" := by decide +kernel
  rintro ⟨-, c, hc, hcontests⟩
  have hname := List.all_eq_true.mp hnames c hc
  rw [Bool.and_eq_true, bne_iff_ne, Option.isNone_iff_eq_none] at hname
  rw [hbob] at hcontests
  rcases hcontests with ⟨hsame, -⟩ | ⟨-, hfallback, -⟩
  · exact hname.1 hsame.symm
  · rw [hname.2] at hfallback
    cases hfallback

/-- Alice is asked, and Bob is linked before and after. -/
theorem entity_linking_alice :
    Tallied (aliceHistory [about "Bob"]) ∧
      (∃ records, (askAlice.perform aliceEnv aliceRules).run
          (aliceHistory [about "Bob", askAlice, about "Bob"]).store =
        .ok records (aliceHistory [about "Bob", askAlice, about "Bob"]).store) ∧
      ∃ records t, ((about "Bob").perform aliceEnv aliceRules).run
          (aliceHistory [about "Bob", about "Bob", askAlice]).store = .ok records t ∧
        t.mentionCount "" = 3 := by
  obtain ⟨htallied, htexts, hpersons⟩ := entity_linking (aliceHistory_run [about "Bob"])
  refine ⟨htallied, ?_, ?_⟩
  · have start : Run (CalmStep aliceEnv aliceRules "Ask Alice Rivers.") (· = {}) []
        (aliceHistory []) := .start rfl
    have calm := start.next ⟨aliceHistory_step [] (about "Bob"), about_bob_calm _⟩
    have asked : Run (CalmStep aliceEnv aliceRules "Ask Alice Rivers.")
        (· = aliceHistory ([about "Bob"] ++ [askAlice])) []
        (aliceHistory ([about "Bob"] ++ [askAlice])) := .start rfl
    have later := asked.next ⟨aliceHistory_step _ (about "Bob"), about_bob_calm _⟩
    exact htexts "Ask Alice Rivers." askAlice _ (some "t") calm rfl
      ⟨_, _, aliceHistory_step _ askAlice, by decide +kernel, later⟩
  · have bob : Run (LinkStep aliceEnv aliceRules)
        (· = aliceHistory ([about "Bob"] ++ [about "Bob"])) []
        (aliceHistory ([about "Bob"] ++ [about "Bob"])) := .start rfl
    have later := bob.next (aliceHistory_step _ askAlice)
    obtain ⟨records, t, person, hrun, hperson, -, hcounts⟩ :=
      hpersons "memory" "Bob" (some "t") _ "t" (by decide +kernel)
        ⟨_, _, aliceHistory_step _ (about "Bob"), by decide +kernel, later⟩
    refine ⟨records, t, hrun, ?_⟩
    have hbob : ((aliceHistory ([about "Bob"] ++ [about "Bob"] ++
        [askAlice])).store.entityByNormalizedName
        .person (normalizeEntityName aliceEnv "Bob")).map (·.id) = some "" := by decide +kernel
    have htwice : (aliceHistory ([about "Bob"] ++ [about "Bob"] ++ [askAlice])).store.mentionCount
        "" = 2 := by
      decide +kernel
    rw [hperson, Option.map_some] at hbob
    rw [hcounts, Option.some.inj hbob, htwice]
    rfl

/-- A person that is linked twice is counted twice, with one edge, and a text whose
name is given to a person as well is linked to the person when it is linked again. -/
theorem person_is_counted_again :
    (∀ calls, Run (LinkStep aliceEnv aliceRules) (· = {}) calls (aliceHistory calls)) ∧
      (aliceHistory [about "Alice"]).store.mentionCount "" = 1 ∧
      (aliceHistory [about "Alice", about "Alice"]).store.mentionCount "" = 2 ∧
      (aliceHistory [about "Alice", about "Alice"]).linked = [[""], []] ∧
      (aliceHistory [askAlice, about "Alice Rivers"]).store.edges.length = 2 ∧
      (aliceHistory [askAlice, about "Alice Rivers", askAlice]).store.edges.length = 3 := by
  refine ⟨aliceHistory_run, ?_⟩
  decide +kernel

end AliceBot
