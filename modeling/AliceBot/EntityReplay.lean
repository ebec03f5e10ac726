import AliceBot.EntityLinking
import AliceBot.Library.NameLookup

/-!
# Linking the same text again

Linking is idempotent for each owner and entity: an entity the owner has an edge
to is neither mentioned nor linked again. What a text resolves to is looked up
anew each time, among rows ordered by a count that linking changes, so the loop
is followed with what the names of the entities are, whatever their order.

`Links` is what a text does, whether its loop returns or raises half way: the
owner gains edges to entities it had none to, each of which is mentioned once, and
names are given out by the lookups alone. A loop that returns has linked every
candidate (`linkText_ok`), and candidates that are linked, and whose lookups are
definite, leave everything as it is (`linkText_again`).
-/

namespace AliceBot

open PyLib

variable {env : LinkEnv} {rules : String → List RuleMatch}

/-! ### What is counted -/

/-- The entity answers to the key. -/
def Found (s : LinkStore) (key id : String) : Prop :=
  ∃ row, s.entities.get? id = some row ∧ row.answers key = true

def LinkStore.mentionCount (s : LinkStore) (id : String) : Nat :=
  ((s.entities.get? id).map (·.mentionCount)).getD 0

/-- Edges go to entities. -/
def KnownEdges (s : LinkStore) : Prop :=
  ∀ edge ∈ s.edges, ∃ row, s.entities.get? edge.toId = some row

/-- Entities stay, and are found by type and name as before. -/
structure KeepsEntities (s t : LinkStore) : Prop where
  rows : ∀ id row, s.entities.get? id = some row → ∃ row', t.entities.get? id = some row'
  named : ∀ entityType normalized row, s.entityByNormalizedName entityType normalized = some row →
    ∃ row', t.entityByNormalizedName entityType normalized = some row' ∧ row'.id = row.id

/-- The owner gets new edges to different entities it had none to. -/
structure NewEdges (owner : LinkOwner) (edgeType : LinkEdgeType) (new : List GraphEdgeRow)
    (s t : LinkStore) : Prop extends KeepsEntities s t where
  edges : t.edges = s.edges ++ new
  shape : ∀ edge ∈ new, edge.fromId = owner.id ∧ edge.edgeType = edgeType ∧ edge.validTo = none
  fresh : ∀ edge ∈ new, (edge.toId, edgeType) ∉ s.existingEdgeKeys owner.id
  nodup : (new.map (·.toId)).Nodup
  known : ∀ edge ∈ new, ∃ row, t.entities.get? edge.toId = some row

/-- The owner gets new edges, and each entity it gets one to is mentioned once
more. -/
structure Gains (owner : LinkOwner) (edgeType : LinkEdgeType) (new : List GraphEdgeRow)
    (s t : LinkStore) : Prop extends NewEdges owner edgeType new s t where
  counts : ∀ id, t.mentionCount id = s.mentionCount id + (new.map (·.toId)).count id

section Gains

variable {s t u : LinkStore} {owner : LinkOwner} {edgeType : LinkEdgeType}
  {new new' : List GraphEdgeRow}

theorem mem_existingEdgeKeys {fromId toId : String} :
    (toId, edgeType) ∈ s.existingEdgeKeys fromId ↔
      ∃ edge ∈ s.edges, edge.fromId = fromId ∧ edge.validTo = none ∧ edge.toId = toId ∧
        edge.edgeType = edgeType := by
  unfold LinkStore.existingEdgeKeys
  rw [List.mem_map]
  constructor
  · rintro ⟨edge, hedge, heq⟩
    rw [List.mem_filter, Bool.and_eq_true, beq_iff_eq, Option.isNone_iff_eq_none] at hedge
    obtain ⟨hmem, hfrom, hactive⟩ := hedge
    cases heq
    exact ⟨edge, hmem, hfrom, hactive, rfl, rfl⟩
  · rintro ⟨edge, hmem, hfrom, hactive, rfl, rfl⟩
    refine ⟨edge, ?_, rfl⟩
    rw [List.mem_filter, Bool.and_eq_true, beq_iff_eq, Option.isNone_iff_eq_none]
    exact ⟨hmem, hfrom, hactive⟩

theorem keepsEntities_congr (h : t.entities = s.entities) : KeepsEntities s t where
  rows _ row hrow := ⟨row, h ▸ hrow⟩
  named _ _ row hrow := by
    refine ⟨row, ?_, rfl⟩
    unfold LinkStore.entityByNormalizedName at hrow ⊢
    rw [h]
    exact hrow

theorem KeepsEntities.trans (h : KeepsEntities s t) (h' : KeepsEntities t u) :
    KeepsEntities s u where
  rows id row hrow := by
    obtain ⟨row', hrow'⟩ := h.rows id row hrow
    exact h'.rows id row' hrow'
  named entityType normalized row hrow := by
    obtain ⟨row', hrow', hid⟩ := h.named entityType normalized row hrow
    obtain ⟨row'', hrow'', hid'⟩ := h'.named entityType normalized row' hrow'
    exact ⟨row'', hrow'', hid'.trans hid⟩

/-- Nothing is gained where the tables stay. -/
theorem gains_nil (hentities : t.entities = s.entities) (hedges : t.edges = s.edges) :
    Gains owner edgeType [] s t where
  toKeepsEntities := keepsEntities_congr hentities
  edges := by rw [hedges, List.append_nil]
  shape _ hedge := by cases hedge
  fresh _ hedge := by cases hedge
  nodup := List.nodup_nil
  known _ hedge := by cases hedge
  counts id := by
    unfold LinkStore.mentionCount
    rw [hentities]
    rfl

theorem NewEdges.existing (h : NewEdges owner edgeType new s t) {fromId : String}
    {key : String × LinkEdgeType} (hkey : key ∈ s.existingEdgeKeys fromId) :
    key ∈ t.existingEdgeKeys fromId := by
  unfold LinkStore.existingEdgeKeys at hkey ⊢
  rw [h.edges, List.filter_append, List.map_append]
  exact List.mem_append_left _ hkey

theorem NewEdges.knownEdges (h : NewEdges owner edgeType new s t) (hs : KnownEdges s) :
    KnownEdges t := by
  intro edge hedge
  rw [h.edges] at hedge
  rcases List.mem_append.mp hedge with hold | hnew
  · obtain ⟨row, hrow⟩ := hs edge hold
    exact h.rows _ row hrow
  · exact h.known edge hnew

/-- The edges of two steps one after the other, in the order in which they were made. -/
theorem Gains.trans (h : Gains owner edgeType new s t) (h' : Gains owner edgeType new' t u) :
    Gains owner edgeType (new ++ new') s u where
  toKeepsEntities := h.toKeepsEntities.trans h'.toKeepsEntities
  edges := by rw [h'.edges, h.edges, List.append_assoc]
  shape edge hedge := by
    rcases List.mem_append.mp hedge with hold | hnew
    · exact h.shape edge hold
    · exact h'.shape edge hnew
  fresh edge hedge := by
    rcases List.mem_append.mp hedge with hold | hnew
    · exact h.fresh edge hold
    · exact fun hexists => h'.fresh edge hnew (h.existing hexists)
  nodup := by
    rw [List.map_append]
    refine h.nodup.append h'.nodup ?_
    intro id hold hnew
    obtain ⟨edge, hedge, rfl⟩ := List.mem_map.mp hold
    obtain ⟨edge', hedge', hid⟩ := List.mem_map.mp hnew
    -- the first edge is there when the second is added
    obtain ⟨hfrom, htype, hactive⟩ := h.shape edge hedge
    refine h'.fresh edge' hedge' (mem_existingEdgeKeys.mpr ⟨edge, ?_, hfrom, hactive, ?_, htype⟩)
    · rw [h.edges]
      exact List.mem_append_right _ hedge
    · exact hid.symm
  known edge hedge := by
    rcases List.mem_append.mp hedge with hold | hnew
    · obtain ⟨row, hrow⟩ := h.known edge hold
      exact h'.rows _ row hrow
    · exact h'.known edge hnew
  counts id := by
    rw [h'.counts, h.counts, List.map_append, List.count_append, Nat.add_assoc]

end Gains

/-! ### What the statements do -/

section Statements

variable {s t : LinkStore} {row e : EntityRow} {id : String}

/-- Entities and edges are as before. -/
def SameTables (s t : LinkStore) : Prop :=
  t.entities = s.entities ∧ t.edges = s.edges

theorem run_drawNumber_ok {n : Nat} (h : drawNumber.run s = .ok n t) : SameTables s t := by
  obtain ⟨-, rfl⟩ := run_modifyGet_ok.mp h
  exact ⟨rfl, rfl⟩

theorem insertEntity_ok (h : (insertEntity row).run s = .ok e t) :
    e = row ∧ s.entities.insert? row = some t.entities ∧ t.edges = s.edges := by
  obtain ⟨_, _, hget, h⟩ := run_bind_ok.mp h
  obtain ⟨rfl, rfl⟩ := run_get_ok.mp hget
  obtain ⟨_, _, hraise, h⟩ := run_bind_ok.mp h
  obtain ⟨-, rfl⟩ := run_raiseIf_ok.mp hraise
  obtain ⟨entities, _, hinsert, h⟩ := run_bind_ok.mp h
  obtain ⟨hinserted, rfl⟩ := run_orRaise_ok.mp hinsert
  obtain ⟨_, _, hset, h⟩ := run_bind_ok.mp h
  obtain rfl := run_set_ok.mp hset
  obtain ⟨rfl, rfl⟩ := run_pure_ok.mp h
  exact ⟨rfl, hinserted, rfl⟩

theorem insertEntity_error {x : LinkError} (h : (insertEntity row).run s = .error x t) :
    t = s := by
  rcases run_bind_error.mp h with hget | ⟨_, _, hget, h⟩
  · exact (run_get_error.mp hget).elim
  obtain ⟨rfl, rfl⟩ := run_get_ok.mp hget
  rcases run_bind_error.mp h with hraise | ⟨_, _, hraise, h⟩
  · exact (run_raiseIf_error.mp hraise).2.2.symm
  obtain ⟨-, rfl⟩ := run_raiseIf_ok.mp hraise
  rcases run_bind_error.mp h with hinsert | ⟨entities, _, hinsert, h⟩
  · exact (run_orRaise_error.mp hinsert).2.2.symm
  rcases run_bind_error.mp h with hset | ⟨_, _, -, h⟩
  · exact (run_set_error.mp hset).elim
  · exact (run_pure_error.mp h).elim

/-- A new entity answers to its name alone, and has been mentioned once. -/
theorem createEntity_ok {entityType : EntityType} {name normalized : String}
    {observedAt : Option String} (hnormalized : normalized ≠ "")
    (h : (createEntity env entityType name normalized observedAt).run s = .ok e t) :
    s.entities.insert? e = some t.entities ∧ t.edges = s.edges ∧ e.entityType = entityType ∧
      e.normalizedName = normalized ∧ e.aliases = [] ∧ e.mentionCount = 1 := by
  obtain ⟨n, s', hdraw, h⟩ := run_bind_ok.mp h
  obtain ⟨hentities, hedges⟩ := run_drawNumber_ok hdraw
  obtain ⟨rfl, hinsert, hedges'⟩ := insertEntity_ok h
  rw [hentities] at hinsert
  exact ⟨hinsert, hedges'.trans hedges, rfl, if_neg hnormalized, rfl, rfl⟩

theorem createEntity_error {entityType : EntityType} {name normalized : String}
    {observedAt : Option String} {x : LinkError}
    (h : (createEntity env entityType name normalized observedAt).run s = .error x t) :
    SameTables s t := by
  rcases run_bind_error.mp h with hdraw | ⟨n, s', hdraw, h⟩
  · exact (run_modifyGet_error.mp hdraw).elim
  · rw [insertEntity_error h]
    exact run_drawNumber_ok hdraw

/-- A mention counts one entity that is there. -/
theorem recordEntityMention_ok {observedAt : Option String}
    (h : (recordEntityMention env id observedAt).run s = .ok e t) :
    ∃ row observed now, observedAt = some observed ∧ s.entities.get? id = some row ∧
      e = (mentionRewrite observed now).apply row ∧
      t.entities = s.entities.rewrite id (mentionRewrite observed now) ∧ t.edges = s.edges := by
  obtain ⟨observed, _, hobserved, h⟩ := run_bind_ok.mp h
  obtain ⟨hsome, rfl⟩ := run_orRaise_ok.mp hobserved
  obtain ⟨n, s', hdraw, h⟩ := run_bind_ok.mp h
  obtain ⟨hentities, hedges⟩ := run_drawNumber_ok hdraw
  obtain ⟨_, _, hget, h⟩ := run_bind_ok.mp h
  obtain ⟨rfl, rfl⟩ := run_get_ok.mp hget
  obtain ⟨row, _, hrow, h⟩ := run_bind_ok.mp h
  obtain ⟨hget, rfl⟩ := run_orRaise_ok.mp hrow
  obtain ⟨_, _, hset, h⟩ := run_bind_ok.mp h
  obtain rfl := run_set_ok.mp hset
  obtain ⟨rfl, rfl⟩ := run_pure_ok.mp h
  rw [hentities] at hget
  refine ⟨row, observed, env.utcNow n, hsome, hget, rfl, ?_, hedges⟩
  rw [← hentities]

theorem recordEntityMention_error {observedAt : Option String} {x : LinkError}
    (h : (recordEntityMention env id observedAt).run s = .error x t) :
    SameTables s t ∧ (observedAt = none ∨ s.entities.get? id = none) := by
  rcases run_bind_error.mp h with hobserved | ⟨observed, _, hobserved, h⟩
  · obtain ⟨hnone, -, rfl⟩ := run_orRaise_error.mp hobserved
    exact ⟨⟨rfl, rfl⟩, Or.inl hnone⟩
  obtain ⟨-, rfl⟩ := run_orRaise_ok.mp hobserved
  rcases run_bind_error.mp h with hdraw | ⟨n, s', hdraw, h⟩
  · exact (run_modifyGet_error.mp hdraw).elim
  have hsame := run_drawNumber_ok hdraw
  rcases run_bind_error.mp h with hget | ⟨_, _, hget, h⟩
  · exact (run_get_error.mp hget).elim
  obtain ⟨rfl, rfl⟩ := run_get_ok.mp hget
  rcases run_bind_error.mp h with hrow | ⟨row, _, hrow, h⟩
  · obtain ⟨hnone, -, rfl⟩ := run_orRaise_error.mp hrow
    rw [hsame.1] at hnone
    exact ⟨hsame, Or.inr hnone⟩
  rcases run_bind_error.mp h with hset | ⟨_, _, -, h⟩
  · exact (run_set_error.mp hset).elim
  · exact (run_pure_error.mp h).elim

/-- Writing aliases rewrites one row and no edge. -/
theorem updateEntityAliases_ok {aliases : List String}
    (h : (updateEntityAliases env id aliases).run s = .ok e t) :
    ∃ row now, s.entities.get? id = some row ∧ e = (aliasRewrite aliases now).apply row ∧
      t.entities = s.entities.rewrite id (aliasRewrite aliases now) ∧ t.edges = s.edges := by
  obtain ⟨n, s', hdraw, h⟩ := run_bind_ok.mp h
  obtain ⟨hentities, hedges⟩ := run_drawNumber_ok hdraw
  obtain ⟨_, _, hget, h⟩ := run_bind_ok.mp h
  obtain ⟨rfl, rfl⟩ := run_get_ok.mp hget
  obtain ⟨row, _, hrow, h⟩ := run_bind_ok.mp h
  obtain ⟨hget, rfl⟩ := run_orRaise_ok.mp hrow
  obtain ⟨_, _, hset, h⟩ := run_bind_ok.mp h
  obtain rfl := run_set_ok.mp hset
  obtain ⟨rfl, rfl⟩ := run_pure_ok.mp h
  rw [hentities] at hget
  refine ⟨row, env.utcNow n, hget, rfl, ?_, hedges⟩
  rw [← hentities]

/-- Aliases of an entity that is there are updated. -/
theorem updateEntityAliases_error {aliases : List String} {x : LinkError}
    (h : (updateEntityAliases env id aliases).run s = .error x t) :
    s.entities.get? id = none := by
  rcases run_bind_error.mp h with hdraw | ⟨n, s', hdraw, h⟩
  · exact (run_modifyGet_error.mp hdraw).elim
  obtain ⟨hentities, -⟩ := run_drawNumber_ok hdraw
  rcases run_bind_error.mp h with hget | ⟨_, _, hget, h⟩
  · exact (run_get_error.mp hget).elim
  obtain ⟨rfl, rfl⟩ := run_get_ok.mp hget
  rcases run_bind_error.mp h with hrow | ⟨row, _, hrow, h⟩
  · obtain ⟨hnone, -⟩ := run_orRaise_error.mp hrow
    rw [hentities] at hnone
    exact hnone
  rcases run_bind_error.mp h with hset | ⟨_, _, -, h⟩
  · exact (run_set_error.mp hset).elim
  · exact (run_pure_error.mp h).elim

/-- An edge is added, whatever happens. -/
theorem createEdge_run (env : LinkEnv) (s : LinkStore) (owner : LinkOwner) (toId : String)
    (edgeType : LinkEdgeType) (confidence : Nat) (explanation : String)
    (observedAt : Option String) :
    ∃ edge t, (createEdge env owner toId edgeType confidence explanation observedAt).run s =
        .ok edge t ∧ t.entities = s.entities ∧ t.edges = s.edges ++ [edge] ∧
      edge.fromId = owner.id ∧ edge.toId = toId ∧ edge.edgeType = edgeType ∧
      edge.validTo = none :=
  ⟨_, _, rfl, rfl, rfl, rfl, rfl, rfl, rfl⟩

end Statements

/-! ### What the statements mean for the entities -/

section Entities

variable {s t : LinkStore} {row : EntityRow} {id : String} {f : Rewrite EntityRow.id}

/-- A rewrite that keeps type and name of a row keeps what every name is answered with.
-/
theorem keepsEntities_rewrite (ht : t.entities = s.entities.rewrite id f)
    (hname : ∀ row, (f.apply row).entityType = row.entityType ∧
      (f.apply row).normalizedName = row.normalizedName) : KeepsEntities s t where
  rows i row hrow := by
    rw [ht, Table.get?_rewrite, hrow]
    split
    · exact ⟨_, rfl⟩
    · exact ⟨_, rfl⟩
  named entityType normalized row hrow := by
    unfold LinkStore.entityByNormalizedName at hrow ⊢
    have hrows : t.entities.rows = s.entities.rows.map fun r =>
        if r.id = id then f.apply r else r := by
      rw [ht]
      rfl
    -- type and name are kept, so the lookup finds the same row
    have hsame : (fun r : EntityRow => (if r.id = id then f.apply r else r).entityType == entityType
        && (if r.id = id then f.apply r else r).normalizedName == normalized) =
        fun r => r.entityType == entityType && r.normalizedName == normalized := by
      funext r
      split
      · rw [(hname r).1, (hname r).2]
      · rfl
    rw [hrows, List.find?_map]
    simp only [Function.comp_def]
    rw [hsame, hrow]
    refine ⟨_, rfl, ?_⟩
    show (if row.id = id then f.apply row else row).id = row.id
    split
    · exact f.key_apply row
    · rfl

theorem keepsEntities_insert (h : s.entities.insert? row = some t.entities) :
    KeepsEntities s t where
  rows i old hold := by
    rw [Table.get?_insert? h]
    split
    · exact ⟨_, rfl⟩
    · exact ⟨old, hold⟩
  named entityType normalized old hold := by
    unfold LinkStore.entityByNormalizedName at hold ⊢
    rw [(Table.insert?_eq_some_iff.mp h).2, List.find?_append, hold]
    exact ⟨old, rfl, rfl⟩

theorem found_congr (h : t.entities = s.entities) : Found t = Found s := by
  funext key i
  unfold Found
  rw [h]

/-- A mention changes no name, so every lookup answers as before. -/
theorem found_mention {observed now : String}
    (ht : t.entities = s.entities.rewrite id (mentionRewrite observed now)) :
    Found t = Found s := by
  funext key i
  unfold Found
  rw [ht]
  simp only [Table.get?_rewrite_eq_some_iff]
  apply propext
  constructor
  · rintro ⟨_, ⟨old, hold, ⟨-, rfl⟩ | ⟨-, rfl⟩⟩, hanswers⟩
    · exact ⟨old, hold, hanswers⟩
    · exact ⟨_, hold, hanswers⟩
  · rintro ⟨old, hold, hanswers⟩
    by_cases hid : id = i
    · exact ⟨_, ⟨old, hold, Or.inl ⟨hid, rfl⟩⟩, hanswers⟩
    · exact ⟨_, ⟨old, hold, Or.inr ⟨hid, rfl⟩⟩, hanswers⟩

theorem answers_append {name key : String} {now : String} :
    ((aliasRewrite (row.aliases ++ [name]) now).apply row).answers key = true ↔
      row.answers key = true ∨ key = name := by
  simp only [aliasRewrite, EntityRow.answers, Bool.or_eq_true, beq_iff_eq, List.contains_iff_mem,
    List.mem_append, List.mem_singleton, or_assoc]

/-- An alias is one more name. -/
theorem found_alias {name now : String} (hrow : s.entities.get? id = some row)
    (ht : t.entities = s.entities.rewrite id (aliasRewrite (row.aliases ++ [name]) now)) :
    Adds (Found s) (Found t) name id := by
  intro key i
  unfold Found
  rw [ht]
  simp only [Table.get?_rewrite_eq_some_iff]
  constructor
  · rintro ⟨_, ⟨old, hold, ⟨rfl, rfl⟩ | ⟨-, rfl⟩⟩, hanswers⟩
    · rw [hrow] at hold
      cases hold
      rcases answers_append.mp hanswers with hold | hnew
      · exact Or.inl ⟨row, hrow, hold⟩
      · exact Or.inr ⟨hnew, rfl⟩
    · exact Or.inl ⟨_, hold, hanswers⟩
  · rintro (⟨old, hold, hanswers⟩ | ⟨rfl, rfl⟩)
    · by_cases hid : id = i
      · subst hid
        rw [hrow] at hold
        cases hold
        exact ⟨_, ⟨row, hrow, Or.inl ⟨rfl, rfl⟩⟩, answers_append.mpr (Or.inl hanswers)⟩
      · exact ⟨_, ⟨old, hold, Or.inr ⟨hid, rfl⟩⟩, hanswers⟩
    · exact ⟨_, ⟨row, hrow, Or.inl ⟨rfl, rfl⟩⟩, answers_append.mpr (Or.inr rfl)⟩

/-- A new entity without aliases answers to its own name, and to no other. -/
theorem found_insert (h : s.entities.insert? row = some t.entities) (haliases : row.aliases = []) :
    Adds (Found s) (Found t) row.normalizedName row.id := by
  -- a new row without aliases answers to its own name only
  have hanswers : ∀ key, row.answers key = true ↔ key = row.normalizedName := by
    intro key
    rw [EntityRow.answers, haliases, List.contains_nil, Bool.or_false, beq_iff_eq]
    exact eq_comm
  have hfresh := (Table.insert?_eq_some_iff.mp h).1
  intro key i
  unfold Found
  rw [Table.get?_insert? h]
  constructor
  · rintro ⟨new, hnew, hkey⟩
    split at hnew
    · next hid =>
      cases hnew
      exact Or.inr ⟨(hanswers key).mp hkey, hid.symm⟩
    · exact Or.inl ⟨new, hnew, hkey⟩
  · rintro (⟨old, hold, hkey⟩ | ⟨rfl, rfl⟩)
    · refine ⟨old, ?_, hkey⟩
      rw [if_neg, hold]
      rintro rfl
      rw [hfresh] at hold
      cases hold
    · exact ⟨row, if_pos rfl, (hanswers _).mpr rfl⟩

theorem mentionCount_congr (h : t.entities = s.entities) (i : String) :
    t.mentionCount i = s.mentionCount i := by
  unfold LinkStore.mentionCount
  rw [h]

theorem mentionCount_mention {observed now : String} (hrow : s.entities.get? id = some row)
    (ht : t.entities = s.entities.rewrite id (mentionRewrite observed now)) (i : String) :
    t.mentionCount i = s.mentionCount i + [id].count i := by
  unfold LinkStore.mentionCount
  rw [ht, Table.get?_rewrite, List.count_singleton]
  by_cases hid : id = i
  · subst hid
    rw [if_pos rfl, hrow, if_pos (beq_self_eq_true _)]
    rfl
  · rw [if_neg hid, if_neg (by simpa using hid)]
    rfl

theorem mentionCount_alias {aliases : List String} {now : String}
    (ht : t.entities = s.entities.rewrite id (aliasRewrite aliases now)) (i : String) :
    t.mentionCount i = s.mentionCount i := by
  unfold LinkStore.mentionCount
  rw [ht, Table.get?_rewrite]
  split
  · rw [Option.map_map]
    rfl
  · rfl

theorem mentionCount_insert (h : s.entities.insert? row = some t.entities)
    (hcount : row.mentionCount = 1) (i : String) :
    t.mentionCount i = s.mentionCount i + [row.id].count i := by
  have hfresh := (Table.insert?_eq_some_iff.mp h).1
  unfold LinkStore.mentionCount
  rw [Table.get?_insert? h, List.count_singleton]
  by_cases hid : row.id = i
  · subst hid
    rw [if_pos rfl, hfresh, if_pos (beq_self_eq_true _), Option.map_some, hcount]
    rfl
  · rw [if_neg hid, if_neg (by simpa using hid)]
    rfl

end Entities

/-! ### The lookup of a text -/

section Lookup

variable {s t : LinkStore} {owner : LinkOwner} {keys : List String} {look : LinkLookup}
  {c : EntityCandidate} {e : EntityRow}

/-- The maps of the loop say what the tables say, for the keys of the text. -/
structure LookupFits (s : LinkStore) (owner : LinkOwner) (keys : List String) (look : LinkLookup) :
    Prop where
  edges : ∀ key, key ∈ look.edges ↔ key ∈ s.existingEdgeKeys owner.id
  missing : ∀ k ∈ keys, look.byKey.get? k = none → ¬Answered (Found s) k
  present : ∀ k ∈ keys, ∀ row, look.byKey.get? k = some row → Found s k row.id

/-- The keys by which a candidate is looked up are among those of the text. -/
def LooksUp (keys : List String) (c : EntityCandidate) : Prop :=
  c.normalized ∈ keys ∧ ∀ f, honorificStripped c.normalized = some f → f ∈ keys

theorem resolve_none (hfits : LookupFits s owner keys look) (hc : LooksUp keys c)
    (h : look.resolve c = none) :
    look.byKey.get? c.normalized = none ∧
      ∀ id, ¬Finds honorificStripped (Found s) c.normalized id := by
  unfold LinkLookup.resolve at h
  split at h
  · cases h
  · next hnone =>
    have hdirect := hfits.missing _ hc.1 hnone
    refine ⟨hnone, ?_⟩
    rintro id (hid | ⟨-, f, hf, hid⟩)
    · exact hdirect ⟨id, hid⟩
    · rw [hf] at h
      simp only [Option.map_eq_none_iff] at h
      exact hfits.missing f (hc.2 f hf) h ⟨id, hid⟩

/-- What the lookup answers with: an entity of the name itself, or one of the name
without its honorific where nobody has the name. -/
theorem resolve_some {viaFallback : Bool} (hfits : LookupFits s owner keys look)
    (hc : LooksUp keys c) (h : look.resolve c = some (e, viaFallback)) :
    Finds honorificStripped (Found s) c.normalized e.id ∧
      (viaFallback = false → Found s c.normalized e.id) ∧
      (viaFallback = true → look.byKey.get? c.normalized = none ∧
        ¬Answered (Found s) c.normalized ∧
        ∃ f, honorificStripped c.normalized = some f ∧ Found s f e.id) := by
  unfold LinkLookup.resolve at h
  split at h
  · next row hrow =>
    -- found under its name
    cases h
    have hfound := hfits.present _ hc.1 _ hrow
    exact ⟨Or.inl hfound, fun _ => hfound, fun h => absurd h (by decide)⟩
  · next hnone =>
    -- found without its honorific, since nobody answers to the name itself
    have hdirect := hfits.missing _ hc.1 hnone
    split at h
    · next f hf =>
      obtain ⟨row, hrow, heq⟩ := Option.map_eq_some_iff.mp h
      cases heq
      have hfound := hfits.present f (hc.2 f hf) _ hrow
      exact ⟨Or.inr ⟨hdirect, f, hf, hfound⟩, fun h => absurd h (by decide),
        fun _ => ⟨hnone, hdirect, f, hf, hfound⟩⟩
    · cases h

theorem get?_setDefault (d : Dict EntityRow) (key k : String) (row : EntityRow) :
    (setDefault d key row).get? k = (d.get? k).or (if key = k then some row else none) := by
  unfold setDefault Dict.has
  by_cases hk : key = k
  · subst hk
    cases hget : d.get? key with
    | none => simp
    | some old => simp [hget]
  · rw [if_neg hk, Option.or_none]
    split
    · rfl
    · exact Dict.get?_set_of_ne d row hk

/-- The lookup built from the rows finds under a key the first row that answers to it.
-/
theorem get?_byKeyOf (rows : List EntityRow) (k : String) :
    (byKeyOf rows).get? k = rows.find? fun row => row.answers k := by
  -- one row: its keys are entered, where they are not there yet
  have hkeys : ∀ (keys : List String) (row : EntityRow) (d : Dict EntityRow),
      (keys.foldl (fun d key => setDefault d key row) d).get? k =
        (d.get? k).or (if k ∈ keys then some row else none) := by
    intro keys row
    induction keys with
    | nil => simp
    | cons key keys ih =>
      intro d
      rw [List.foldl_cons, ih, get?_setDefault, Option.or_assoc]
      by_cases hk : key = k
      · simp [hk]
      · simp [hk, Ne.symm hk]
  -- all rows: the first one that answers to the key has it
  have hrows : ∀ (rows : List EntityRow) (d : Dict EntityRow),
      (rows.foldl (fun d row => (row.normalizedName :: row.aliases).foldl
        (fun d key => setDefault d key row) d) d).get? k =
        (d.get? k).or (rows.find? fun row => row.answers k) := by
    intro rows
    induction rows with
    | nil => simp
    | cons row rows ih =>
      intro d
      rw [List.foldl_cons, ih, hkeys, Option.or_assoc, List.find?_cons]
      have hanswers : k ∈ row.normalizedName :: row.aliases ↔ row.answers k = true := by
        rw [List.mem_cons, EntityRow.answers, Bool.or_eq_true, beq_iff_eq, List.contains_iff_mem]
        exact or_congr_left eq_comm
      by_cases hk : row.answers k = true
      · rw [if_pos (hanswers.mpr hk), hk]
        simp
      · rw [if_neg fun h => hk (hanswers.mp h), Bool.eq_false_iff.mpr hk]
        simp
  rw [byKeyOf, hrows]
  simp

/-- A name that is given out is entered into the maps. -/
theorem LookupFits.enter (hfits : LookupFits s owner keys look) {name id : String}
    (hadds : Adds (Found s) (Found t) name id) (hid : e.id = id)
    (hnone : look.byKey.get? name = none) {edges : List (String × LinkEdgeType)}
    (hedges : ∀ key, key ∈ edges ↔ key ∈ t.existingEdgeKeys owner.id) :
    LookupFits t owner keys ⟨setDefault look.byKey name e, edges⟩ where
  edges := hedges
  missing k hk hget := by
    rw [get?_setDefault] at hget
    obtain ⟨hget, hne⟩ := Option.or_eq_none_iff.mp hget
    rw [hadds.answered]
    rintro (hold | rfl)
    · exact hfits.missing k hk hget hold
    · rw [if_pos rfl] at hne
      cases hne
  present k hk row hget := by
    rw [get?_setDefault] at hget
    rw [hadds]
    -- the new name, and any other one
    by_cases heq : name = k
    · subst heq
      rw [hnone, if_pos rfl, Option.none_or] at hget
      cases hget
      exact Or.inr ⟨rfl, hid⟩
    · rw [if_neg heq, Option.or_none] at hget
      exact Or.inl (hfits.present k hk row hget)

/-- Where no name is given out, the maps stay. -/
theorem LookupFits.keep (hfits : LookupFits s owner keys look) (hfound : Found t = Found s)
    {edges : List (String × LinkEdgeType)}
    (hedges : ∀ key, key ∈ edges ↔ key ∈ t.existingEdgeKeys owner.id) :
    LookupFits t owner keys ⟨look.byKey, edges⟩ where
  edges := hedges
  missing k hk hget := by
    rw [hfound]
    exact hfits.missing k hk hget
  present k hk row hget := by
    rw [hfound]
    exact hfits.present k hk row hget

end Lookup

/-! ### One candidate, and all of them -/

section Loop

variable {s m t : LinkStore} {owner : LinkOwner} {keys : List String} {look look' : LinkLookup}
  {c : EntityCandidate} {e : EntityRow} {observedAt : Option String} {x : LinkError}

/-- An entity is mentioned, and gets an edge it had not. -/
theorem gains_one {edgeType : LinkEdgeType} {id : String} {edge : GraphEdgeRow}
    (hkeeps : KeepsEntities s m) (hcounts : ∀ i, m.mentionCount i = s.mentionCount i + [id].count i)
    (hedges : m.edges = s.edges) (hrow : ∃ row, m.entities.get? id = some row)
    (hfresh : (id, edgeType) ∉ s.existingEdgeKeys owner.id) (hentities : t.entities = m.entities)
    (hadded : t.edges = m.edges ++ [edge]) (hfrom : edge.fromId = owner.id) (hto : edge.toId = id)
    (htype : edge.edgeType = edgeType) (hactive : edge.validTo = none) :
    Gains owner edgeType [edge] s t where
  toKeepsEntities := hkeeps.trans (keepsEntities_congr hentities)
  edges := by rw [hadded, hedges]
  shape _ hmem := by
    cases List.mem_singleton.mp hmem
    exact ⟨hfrom, htype, hactive⟩
  fresh _ hmem := by
    cases List.mem_singleton.mp hmem
    rw [hto]
    exact hfresh
  nodup := List.nodup_singleton _
  known _ hmem := by
    cases List.mem_singleton.mp hmem
    rw [hto, hentities]
    exact hrow
  counts i := by
    rw [mentionCount_congr hentities, hcounts, List.map_singleton, hto]

/-- The mention of an entity that was found. -/
theorem mentionEntity_ok {found : EntityRow} {viaFallback : Bool} {byKey : Dict EntityRow}
    (hnone : viaFallback = true → ¬Answered (Found s) c.normalized)
    (h : (mentionEntity env look c found viaFallback observedAt).run s = .ok (e, byKey) m) :
    e.id = found.id ∧ KeepsEntities s m ∧
      (∀ i, m.mentionCount i = s.mentionCount i + [found.id].count i) ∧ m.edges = s.edges ∧
      (∃ row, m.entities.get? found.id = some row) ∧
      (viaFallback = false → Found m = Found s ∧ byKey = look.byKey) ∧
      (viaFallback = true → Adds (Found s) (Found m) c.normalized found.id ∧
        byKey = setDefault look.byKey c.normalized e) := by
  obtain ⟨entity, s', hmention, h⟩ := run_bind_ok.mp h
  obtain ⟨row, observed, now, -, hrow, rfl, hentities, hedges⟩ := recordEntityMention_ok hmention
  have hkeeps : KeepsEntities s s' := keepsEntities_rewrite hentities fun _ => ⟨rfl, rfl⟩
  have hid : row.id = found.id := Table.key_of_get? hrow
  have hget : s'.entities.get? found.id = some ((mentionRewrite observed now).apply row) := by
    rw [hentities]
    exact Table.get?_rewrite_self _ hrow
  cases viaFallback with
  | false =>
    obtain ⟨heq, rfl⟩ := run_pure_ok.mp h
    cases heq
    exact ⟨hid, hkeeps, mentionCount_mention hrow hentities, hedges, ⟨_, hget⟩,
      fun _ => ⟨found_mention hentities, rfl⟩, nofun⟩
  | true =>
    obtain ⟨renamed, m', halias, h⟩ := run_bind_ok.mp h
    obtain ⟨heq, rfl⟩ := run_pure_ok.mp h
    cases heq
    unfold appendAlias at halias
    split at halias
    · next hanswers =>
      -- nothing answers to the new name yet
      exact absurd ⟨found.id, row, hrow, hanswers⟩ (hnone rfl)
    · change (updateEntityAliases env row.id _).run s' = _ at halias
      rw [hid] at halias
      obtain ⟨row', now', hrow', rfl, hrenamed, hedges'⟩ := updateEntityAliases_ok halias
      rw [hget] at hrow'
      cases hrow'
      have hadds := found_alias hget hrenamed
      rw [found_mention hentities] at hadds
      refine ⟨hid, hkeeps.trans (keepsEntities_rewrite hrenamed fun _ => ⟨rfl, rfl⟩), ?_,
        hedges'.trans hedges, ?_, nofun, fun _ => ⟨hadds, rfl⟩⟩
      · intro i
        rw [mentionCount_alias hrenamed, mentionCount_mention hrow hentities]
      · rw [hrenamed]
        exact ⟨_, Table.get?_rewrite_self _ hget⟩

/-- A mention raises before it has written anything: without a time, or without a row.
-/
theorem mentionEntity_error {found : EntityRow} {viaFallback : Bool}
    (h : (mentionEntity env look c found viaFallback observedAt).run s = .error x m) :
    SameTables s m ∧ (observedAt = none ∨ s.entities.get? found.id = none) := by
  rcases run_bind_error.mp h with hmention | ⟨entity, s', hmention, h⟩
  · exact recordEntityMention_error hmention
  · -- what was mentioned is there to be renamed
    obtain ⟨row, observed, now, -, hrow, rfl, hentities, -⟩ := recordEntityMention_ok hmention
    have hid : row.id = found.id := Table.key_of_get? hrow
    cases viaFallback with
    | false => exact (run_pure_error.mp h).elim
    | true =>
      rcases run_bind_error.mp h with halias | ⟨_, _, -, h⟩
      · unfold appendAlias at halias
        split at halias
        · exact (run_pure_error.mp halias).elim
        · have hgone := updateEntityAliases_error halias
          change s'.entities.get? row.id = none at hgone
          rw [hentities, hid, Table.get?_rewrite_self _ hrow] at hgone
          cases hgone
      · exact (run_pure_error.mp h).elim

/-- The owner gains edges, and names are given out by the lookups. -/
def Links (owner : LinkOwner) (s t : LinkStore) : Prop :=
  (∃ new, Gains owner .mentions new s t) ∧ Grows honorificStripped (Found s) (Found t)

theorem links_same (h : SameTables s t) : Links owner s t := by
  refine ⟨⟨[], gains_nil h.1 h.2⟩, ?_⟩
  rw [found_congr h.1]
  exact Relation.ReflTransGen.refl

theorem Links.trans {u : LinkStore} (h : Links owner s t) (h' : Links owner t u) :
    Links owner s u := by
  obtain ⟨⟨new, hgains⟩, hgrows⟩ := h
  obtain ⟨⟨new', hgains'⟩, hgrows'⟩ := h'
  exact ⟨⟨new ++ new', hgains.trans hgains'⟩, Relation.ReflTransGen.trans hgrows hgrows'⟩

/-- The candidate has been linked: what it finds has an edge from the owner. -/
def LinkedTo (owner : LinkOwner) (s : LinkStore) (c : EntityCandidate) : Prop :=
  ∃ id, Finds honorificStripped (Found s) c.normalized id ∧
    (id, LinkEdgeType.mentions) ∈ s.existingEdgeKeys owner.id

theorem existing_append {edge : GraphEdgeRow} {edgeType : LinkEdgeType} {id : String}
    (hedges : t.edges = s.edges ++ [edge]) (hfrom : edge.fromId = owner.id)
    (hto : edge.toId = id) (htype : edge.edgeType = edgeType) (hactive : edge.validTo = none)
    (key : String × LinkEdgeType) : key ∈ t.existingEdgeKeys owner.id ↔
      key = (id, edgeType) ∨ key ∈ s.existingEdgeKeys owner.id := by
  have hkeep : (edge.fromId == owner.id && edge.validTo.isNone) = true := by
    rw [hfrom, hactive, beq_self_eq_true]
    rfl
  unfold LinkStore.existingEdgeKeys
  rw [hedges, List.filter_append, List.map_append, List.mem_append, List.filter_singleton, hkeep,
    cond_true, List.map_singleton, List.mem_singleton, hto, htype]
  exact or_comm

/-- One turn of the loop keeps the lookup in step with the store, and leaves the
candidate linked to the owner. -/
theorem linkCandidate_ok {record : LinkRecord} (hknown : KnownEdges s)
    (hfits : LookupFits s owner keys look) (hc : LooksUp keys c)
    (h : (linkCandidate env owner observedAt look c).run s = .ok (record, look') t) :
    Links owner s t ∧ LookupFits t owner keys look' ∧ LinkedTo owner t c := by
  unfold linkCandidate at h
  split at h
  · next hresolve =>
    -- the name is new: an entity is created, and an edge to it
    obtain ⟨hnone, hnothing⟩ := resolve_none hfits hc hresolve
    obtain ⟨entity, m, hcreate, h⟩ := run_bind_ok.mp h
    obtain ⟨hinsert, hedges, -, hname, haliases, hcount⟩ := createEntity_ok c.nonempty hcreate
    obtain ⟨edge, m', hedge, hentities', hedges', hfrom, hto, htype, hactive⟩ :=
      createEdge_run env m owner entity.id .mentions c.sourceRule.confidence
        s!"Deterministic extraction rule \"{c.sourceRule.text}\" matched \"{c.name}\"." observedAt
    obtain ⟨_, _, hrun, h⟩ := run_bind_ok.mp h
    rw [createMention, hedge] at hrun
    cases hrun
    obtain ⟨heq, rfl⟩ := run_pure_ok.mp h
    cases heq
    have hadds : Adds (Found s) (Found m') c.normalized entity.id := by
      rw [found_congr hentities', ← hname]
      exact found_insert hinsert haliases
    have hexists := existing_append (hedges ▸ hedges') hfrom hto htype hactive
    refine ⟨⟨⟨[edge], ?_⟩, ?_⟩, ?_, entity.id, ?_, ?_⟩
    · refine gains_one (keepsEntities_insert hinsert) (mentionCount_insert hinsert hcount) hedges
        ?_ ?_ hentities' hedges' hfrom hto htype hactive
      · rw [Table.get?_insert? hinsert, if_pos rfl]
        exact ⟨_, rfl⟩
      · -- no edge goes to an id that was not there
        intro hexisting
        obtain ⟨old, hold, -, -, hoid, -⟩ := mem_existingEdgeKeys.mp hexisting
        obtain ⟨row, hrow⟩ := hknown old hold
        rw [hoid, (Table.insert?_eq_some_iff.mp hinsert).1] at hrow
        cases hrow
    · exact Relation.ReflTransGen.single (.new c.normalized entity.id hnothing hadds)
    · rw [hname]
      refine hfits.enter hadds rfl hnone fun key => ?_
      rw [List.mem_cons, hexists, hfits.edges]
    · exact Or.inl ((hadds _ _).mpr (Or.inr ⟨rfl, rfl⟩))
    · exact (hexists _).mpr (Or.inl rfl)
  · next found viaFallback hresolve =>
    obtain ⟨hfinds, hdirect, hfallback⟩ := resolve_some hfits hc hresolve
    split at h
    · next hlinked =>
      -- the owner is linked to it already: nothing is written
      obtain ⟨heq, rfl⟩ := run_pure_ok.mp h
      cases heq
      exact ⟨links_same ⟨rfl, rfl⟩, hfits, found.id, hfinds, (hfits.edges _).mp hlinked⟩
    · next hunlinked =>
      obtain ⟨⟨entity, byKey⟩, m, hmention, h⟩ := run_bind_ok.mp h
      obtain ⟨hid, hkeeps, hcounts, hedges, hrow, hplain, hnamed⟩ :=
        mentionEntity_ok (fun hvia => (hfallback hvia).2.1) hmention
      obtain ⟨edge, m', hedge, hentities', hedges', hfrom, hto, htype, hactive⟩ :=
        createEdge_run env m owner entity.id .mentions c.sourceRule.confidence
          s!"Deterministic extraction rule \"{c.sourceRule.text}\" matched \"{c.name}\"." observedAt
      obtain ⟨_, _, hrun, h⟩ := run_bind_ok.mp h
      rw [createMention, hedge] at hrun
      cases hrun
      obtain ⟨heq, rfl⟩ := run_pure_ok.mp h
      cases heq
      rw [hid] at hto
      have hexists := existing_append (hedges ▸ hedges') hfrom hto htype hactive
      have hlookEdges : ∀ key, key ∈ (entity.id, LinkEdgeType.mentions) :: look.edges ↔
          key ∈ m'.existingEdgeKeys owner.id := by
        intro key
        rw [List.mem_cons, hexists, hfits.edges, hid]
      have hgains : Gains owner .mentions [edge] s m' :=
        gains_one hkeeps hcounts hedges hrow (fun hexisting => hunlinked ((hfits.edges _).mpr
          hexisting)) hentities' hedges' hfrom hto htype hactive
      have hedgeTo := (hexists (found.id, .mentions)).mpr (Or.inl rfl)
      -- found under a fallback key, the entity takes the name as an alias; else the names stay
      cases viaFallback with
      | false =>
        obtain ⟨hfound, rfl⟩ := hplain rfl
        have hfound' : Found m' = Found s := (found_congr hentities').trans hfound
        refine ⟨⟨⟨_, hgains⟩, ?_⟩, hfits.keep hfound' hlookEdges, found.id, ?_, hedgeTo⟩
        · rw [hfound']
          exact Relation.ReflTransGen.refl
        · rw [hfound']
          exact hfinds
      | true =>
        obtain ⟨hadds, rfl⟩ := hnamed rfl
        rw [← found_congr hentities'] at hadds
        obtain ⟨hnone, hunanswered, f, hf, hanswers⟩ := hfallback rfl
        exact ⟨⟨⟨_, hgains⟩, Relation.ReflTransGen.single
            (.also c.normalized f found.id hunanswered hf hanswers hadds)⟩,
          hfits.enter hadds hid hnone hlookEdges, found.id,
          Or.inl ((hadds _ _).mpr (Or.inr ⟨rfl, rfl⟩)), hedgeTo⟩

/-- A turn that raises has written neither an entity nor an edge. -/
theorem linkCandidate_error
    (h : (linkCandidate env owner observedAt look c).run s = .error x t) : SameTables s t := by
  unfold linkCandidate at h
  -- the edge is created last, and that never raises
  have hedge : ∀ {m : LinkStore} {toId : String},
      (createMention env owner c toId observedAt).run m ≠ .error x t := by
    intro m toId hrun
    obtain ⟨edge, m', hok, -⟩ := createEdge_run env m owner toId .mentions
      c.sourceRule.confidence
      s!"Deterministic extraction rule \"{c.sourceRule.text}\" matched \"{c.name}\"." observedAt
    rw [createMention, hok] at hrun
    cases hrun
  split at h
  · rcases run_bind_error.mp h with hcreate | ⟨_, _, -, h⟩
    · exact createEntity_error hcreate
    · rcases run_bind_error.mp h with hrun | ⟨_, _, -, h⟩
      · exact absurd hrun hedge
      · exact (run_pure_error.mp h).elim
  · split at h
    · exact (run_pure_error.mp h).elim
    · rcases run_bind_error.mp h with hmention | ⟨_, _, -, h⟩
      · exact (mentionEntity_error hmention).1
      · rcases run_bind_error.mp h with hrun | ⟨_, _, -, h⟩
        · exact absurd hrun hedge
        · exact (run_pure_error.mp h).elim

theorem LinkedTo.links (h : LinkedTo owner s c)
    (hdefinite : Definite honorificStripped (Found s) c.normalized) (hlinks : Links owner s t) :
    LinkedTo owner t c := by
  obtain ⟨id, hfinds, hedge⟩ := h
  obtain ⟨⟨new, hgains⟩, hgrows⟩ := hlinks
  exact ⟨id, hgrows.finds hdefinite hfinds, hgains.existing hedge⟩

theorem Links.knownEdges (h : Links owner s t) (hknown : KnownEdges s) : KnownEdges t := by
  obtain ⟨⟨new, hgains⟩, -⟩ := h
  exact hgains.knownEdges hknown

/-- The loop, whether it returns or raises. -/
theorem linkCandidates_links (cs : List EntityCandidate) (hknown : KnownEdges s)
    (hfits : LookupFits s owner keys look) (hcs : ∀ c ∈ cs, LooksUp keys c) :
    MovesAt (Links owner) (linkCandidates env owner observedAt look cs) s := by
  induction cs generalizing s look with
  | nil => exact links_same ⟨rfl, rfl⟩
  | cons c cs ih =>
    have hc : LooksUp keys c := hcs c List.mem_cons_self
    refine MovesAt.intro ?_ ?_
    · -- the loop returns: the first candidate and then the rest
      intro records t h
      obtain ⟨⟨record, look'⟩, u, hone, h⟩ := run_bind_ok.mp h
      obtain ⟨hlinks, hfits', -⟩ := linkCandidate_ok hknown hfits hc hone
      obtain ⟨rest, v, hrest, h⟩ := run_bind_ok.mp h
      obtain ⟨-, rfl⟩ := run_pure_ok.mp h
      have hlater := ih (hlinks.knownEdges hknown) hfits' fun c' hc' =>
        hcs c' (List.mem_cons_of_mem _ hc')
      exact hlinks.trans (hlater.ok hrest)
    · -- it raises, in the first candidate or in a later one
      intro x t h
      rcases run_bind_error.mp h with hone | ⟨⟨record, look'⟩, u, hone, h⟩
      · exact links_same (linkCandidate_error hone)
      · obtain ⟨hlinks, hfits', -⟩ := linkCandidate_ok hknown hfits hc hone
        have hlater := ih (hlinks.knownEdges hknown) hfits' fun c' hc' =>
          hcs c' (List.mem_cons_of_mem _ hc')
        rcases run_bind_error.mp h with hrest | ⟨_, _, -, h⟩
        · exact hlinks.trans (hlater.error hrest)
        · exact (run_pure_error.mp h).elim

/-- A loop that returns has linked every candidate. -/
theorem linkCandidates_ok {records : List LinkRecord} (cs : List EntityCandidate)
    (hknown : KnownEdges s) (hfits : LookupFits s owner keys look) (hcs : ∀ c ∈ cs, LooksUp keys c)
    (h : (linkCandidates env owner observedAt look cs).run s = .ok records t) :
    ∀ c ∈ cs, Definite honorificStripped (Found s) c.normalized → LinkedTo owner t c := by
  induction cs generalizing s look records with
  | nil =>
    intro c hc
    cases hc
  | cons c cs ih =>
    have hc : LooksUp keys c := hcs c List.mem_cons_self
    obtain ⟨⟨record, look'⟩, u, hone, h⟩ := run_bind_ok.mp h
    obtain ⟨hlinks, hfits', hlinked⟩ := linkCandidate_ok hknown hfits hc hone
    obtain ⟨rest, v, hrest, h⟩ := run_bind_ok.mp h
    obtain ⟨-, rfl⟩ := run_pure_ok.mp h
    have hcs' : ∀ c' ∈ cs, LooksUp keys c' := fun c' hc' => hcs c' (List.mem_cons_of_mem _ hc')
    have hknown' := hlinks.knownEdges hknown
    have hlater := (linkCandidates_links cs hknown' hfits' hcs').ok hrest
    intro c' hc' hdefinite
    have hdefinite' := hlinks.2.definite hdefinite
    -- what the first candidate was linked to stays linked while the rest is
    rcases List.mem_cons.mp hc' with rfl | hmem
    · exact hlinked.links hdefinite' hlater
    · exact ih hknown' hfits' hcs' hrest c' hmem hdefinite'

/-- Candidates that are linked already leave everything as it is. -/
theorem linkCandidates_again (cs : List EntityCandidate) (hfits : LookupFits s owner keys look)
    (hcs : ∀ c ∈ cs, LooksUp keys c ∧ LinkedTo owner s c ∧
      Definite honorificStripped (Found s) c.normalized) :
    ∃ records, (linkCandidates env owner observedAt look cs).run s = .ok records s := by
  induction cs with
  | nil => exact ⟨[], rfl⟩
  | cons c cs ih =>
    obtain ⟨hc, ⟨id, hfinds, hedge⟩, hdefinite⟩ := hcs c List.mem_cons_self
    have hone : ∃ record, (linkCandidate env owner observedAt look c).run s =
        .ok (record, look) s := by
      unfold linkCandidate
      cases hresolve : look.resolve c with
      | none => exact absurd hfinds ((resolve_none hfits hc hresolve).2 id)
      | some found =>
        obtain ⟨found, viaFallback⟩ := found
        -- whatever the order of the rows, the same entity is found
        have hsame := hdefinite _ _ (resolve_some hfits hc hresolve).1 hfinds
        have hlinked : (found.id, LinkEdgeType.mentions) ∈ look.edges := by
          rw [hsame]
          exact (hfits.edges _).mpr hedge
        refine ⟨⟨found, none, .alreadyLinked⟩, ?_⟩
        simp only [if_pos hlinked]
        rfl
    obtain ⟨record, hone⟩ := hone
    obtain ⟨records, hrest⟩ := ih fun c' hc' => hcs c' (List.mem_cons_of_mem _ hc')
    exact ⟨record :: records, run_bind_ok.mpr ⟨_, s, hone, run_bind_ok.mpr ⟨_, s, hrest, rfl⟩⟩⟩

end Loop

/-! ### Texts -/

section Texts

variable {s t : LinkStore} {owner : LinkOwner} {text : String} {observedAt : Option String}

theorem honorificStripped_ne {name f : String} (h : honorificStripped name = some f) : f ≠ "" := by
  unfold honorificStripped at h
  split at h
  · next first second rest hwords =>
    split at h
    · cases h
      have hword : ∀ w ∈ second :: rest, IsWord w := by
        intro w hw
        refine isWord_of_mem_words (s := name) ?_
        rw [hwords]
        exact List.mem_cons_of_mem _ hw
      intro hempty
      have hback := words_intercalate hword
      rw [hempty] at hback
      cases hback
    · cases h
  · cases h

theorem looksUp_of_mem {candidates : List EntityCandidate} {c : EntityCandidate}
    (hc : c ∈ candidates) : LooksUp (lookupKeys candidates) c := by
  unfold lookupKeys
  constructor
  · refine List.mem_flatMap.mpr ⟨c, hc, ?_⟩
    split
    · split <;> simp
    · simp
  · intro f hf
    refine List.mem_flatMap.mpr ⟨c, hc, ?_⟩
    rw [hf]
    simp [honorificStripped_ne hf]

/-- The lookup built before the loop fits the store: its keys are answered by rows, and
its edges are those of the owner. -/
theorem fits_lookup (s : LinkStore) (owner : LinkOwner) (candidates : List EntityCandidate) :
    LookupFits s owner (lookupKeys candidates) (s.lookup owner candidates) where
  edges _ := Iff.rfl
  missing k hk hget := by
    change (byKeyOf _).get? k = none at hget
    rw [get?_byKeyOf, List.find?_eq_none] at hget
    rintro ⟨id, row, hrow, hanswers⟩
    refine hget row ?_ hanswers
    rw [LinkStore.findEntitiesByNames, List.mem_insertionSort, List.mem_filter]
    exact ⟨Table.mem_of_get? hrow, List.any_eq_true.mpr ⟨k, hk, hanswers⟩⟩
  present k hk row hget := by
    change (byKeyOf _).get? k = some row at hget
    rw [get?_byKeyOf] at hget
    have hmem := List.mem_of_find?_eq_some hget
    rw [LinkStore.findEntitiesByNames, List.mem_insertionSort, List.mem_filter] at hmem
    exact ⟨row, Table.get?_of_mem hmem.1,
      List.find?_some (p := fun row : EntityRow => row.answers k) hget⟩

theorem run_linkText (s : LinkStore) :
    (linkText env rules owner text observedAt).run s =
      (linkCandidates env owner observedAt (s.lookup owner (candidatesOf env rules text))
        (candidatesOf env rules text)).run s := by
  unfold linkText
  exact run_bind_of_ok (run_get_ok.mpr ⟨rfl, rfl⟩)

theorem linkText_links (hknown : KnownEdges s) :
    MovesAt (Links owner) (linkText env rules owner text observedAt) s := by
  rw [MovesAt, run_linkText]
  exact linkCandidates_links _ hknown (fits_lookup s owner _) fun _ hc => looksUp_of_mem hc

theorem linkText_ok {records : List LinkRecord} (hknown : KnownEdges s)
    (h : (linkText env rules owner text observedAt).run s = .ok records t) :
    ∀ c ∈ candidatesOf env rules text,
      Definite honorificStripped (Found s) c.normalized → LinkedTo owner t c := by
  rw [run_linkText] at h
  exact linkCandidates_ok _ hknown (fits_lookup s owner _) (fun _ hc => looksUp_of_mem hc) h

theorem linkText_again (hlinked : ∀ c ∈ candidatesOf env rules text, LinkedTo owner s c ∧
      Definite honorificStripped (Found s) c.normalized) :
    ∃ records, (linkText env rules owner text observedAt).run s = .ok records s := by
  rw [run_linkText]
  exact linkCandidates_again _ (fits_lookup s owner _) fun c hc =>
    ⟨looksUp_of_mem hc, hlinked c hc⟩

end Texts

end AliceBot
