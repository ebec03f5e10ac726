import AliceBot.ContinuityObjects

/-!
# What the calls do to continuity objects

Whatever is called, a store changes in one of three ways (`ContinuityChange`): an object is
created, an object is corrected or reviewed and one event says so, or an object is superseded by
one that is created for it. `ContinuityStep.change` is the inversion of a call; what holds over
sequences of calls is derived from it alone.
-/

namespace AliceBot

open PyLib

/-! ### What an event says -/

/-- Active or stale. -/
def ObjectSnapshot.Correctable (a : ObjectSnapshot) : Prop :=
  a.status = .active ∨ a.status = .stale

/-- An edit puts these values and confirms them. -/
def ObjectSnapshot.edited (a : ObjectSnapshot) (title : String) (body provenance : Dict Json)
    (confidence : Rat) (time : String) : ObjectSnapshot :=
  { a with
    title
    body
    provenance
    confidence
    status := .active
    lastConfirmedAt := some time }

/-- The event says that the object was `a` and became `b`. What is not named stays, and the
pointer to a replacement is not in the event. -/
inductive CorrectionEvent.Tells : CorrectionEvent → ObjectSnapshot → ObjectSnapshot → Prop
  | confirmed {id : String} {reason : Option String} {request : CorrectionInput}
      {a : ObjectSnapshot} {time : String} (h : a.Correctable) :
      Tells ⟨id, a.id, .confirm, reason, a,
          { a with status := .active, lastConfirmedAt := some time }, .request request⟩
        a { a with status := .active, lastConfirmedAt := some time }
  | edited {id : String} {reason : Option String} {request : CorrectionInput}
      {a : ObjectSnapshot} {title : String} {body provenance : Dict Json} {confidence : Rat}
      {time : String} (h : a.Correctable) :
      Tells ⟨id, a.id, .edit, reason, a, a.edited title body provenance confidence time,
        .request request⟩ a (a.edited title body provenance confidence time)
  | deleted {id : String} {reason : Option String} {request : CorrectionInput}
      {a : ObjectSnapshot} (h : a.Correctable) :
      Tells ⟨id, a.id, .delete, reason, a, { a with status := .deleted }, .request request⟩
        a { a with status := .deleted }
  | markedStale {id : String} {reason : Option String} {request : CorrectionInput}
      {a : ObjectSnapshot} (h : a.status = .active) :
      Tells ⟨id, a.id, .markStale, reason, a, { a with status := .stale }, .request request⟩
        a { a with status := .stale }
  | superseded {id : String} {reason : Option String} {a : ObjectSnapshot} {title : String}
      {body provenance : Dict Json} {confidence : Rat} {replacementId : String}
      (h : a.Correctable) :
      Tells ⟨id, a.id, .supersede, reason, a,
          { a with status := .superseded, supersededByObjectId := none },
          .replacement title body provenance confidence⟩
        a { a with status := .superseded, supersededByObjectId := some replacementId }
  | reviewed {id : String} {note : Option String} {action : ReviewAction} {a : ObjectSnapshot}
      {lastConfirmedAt : Option String} (htype : isOpenLoopType a.objectType = true)
      (hopen : a.status.reviewCloses = false)
      (htime : action ≠ .stillBlocked → lastConfirmedAt = a.lastConfirmedAt) :
      Tells ⟨id, a.id, action.transition.1, note, a,
          { a with status := action.transition.2, lastConfirmedAt },
          .review action note action.transition.1 action.transition.2⟩
        a { a with status := action.transition.2, lastConfirmedAt }

namespace CorrectionEvent.Tells

variable {event : CorrectionEvent} {a b : ObjectSnapshot}

theorem about (h : event.Tells a b) : event.continuityObjectId = a.id := by
  cases h <;> rfl

theorem before (h : event.Tells a b) : event.beforeSnapshot = a := by
  cases h <;> rfl

theorem id_eq (h : event.Tells a b) : b.id = a.id := by
  cases h <;> rfl

theorem captureEventId_eq (h : event.Tells a b) : b.captureEventId = a.captureEventId := by
  cases h <;> rfl

/-- Nothing is said of an object that is superseded, deleted or cancelled. -/
theorem open_before (h : event.Tells a b) : a.status.reviewCloses = false := by
  have hcorrectable : a.Correctable → a.status.reviewCloses = false := by
    rintro (hstatus | hstatus) <;> rw [hstatus] <;> rfl
  cases h with
  | confirmed h => exact hcorrectable h
  | edited h => exact hcorrectable h
  | deleted h => exact hcorrectable h
  | markedStale h => exact hcorrectable (.inl h)
  | superseded h => exact hcorrectable h
  | reviewed _ hopen => exact hopen

end CorrectionEvent.Tells

/-! ### Changes -/

/-- One object is another row, or there for the first time. -/
def ContinuityStore.Puts (s t : ContinuityStore) (row : ContinuityObject) : Prop :=
  ∀ id, t.objects.get? id = if row.id = id then some row else s.objects.get? id

/-- The captures that were there are there. -/
def ContinuityStore.KeepsCaptures (s t : ContinuityStore) : Prop :=
  ∀ id, (s.captureEvents.get? id).isSome = true → (t.captureEvents.get? id).isSome = true

theorem ContinuityStore.KeepsCaptures.trans {s t u : ContinuityStore} (h : s.KeepsCaptures t)
    (h' : t.KeepsCaptures u) : s.KeepsCaptures u :=
  fun id hid => h' id (h id hid)

theorem ContinuityStore.KeepsCaptures.of_eq {s t : ContinuityStore}
    (h : t.captureEvents = s.captureEvents) : s.KeepsCaptures t :=
  fun _ hid => h ▸ hid

/-- What the calls can do to objects, events and evidence. -/
inductive ContinuityChange (env : ContinuityEnv) (s t : ContinuityStore) : Prop where
  | elsewhere (hcaptures : s.KeepsCaptures t) (hobjects : t.objects = s.objects)
      (hevents : t.correctionEvents = s.correctionEvents)
      (hevidence : t.evidenceLinks = s.evidenceLinks)
  | created {row : ContinuityObject} {links : List EvidenceLink}
      (hcaptures : s.KeepsCaptures t) (hnew : s.objects.get? row.id = none)
      (hsupersedes : row.supersedesObjectId = none)
      (hby : row.supersededByObjectId = none) (hobjects : s.Puts t row)
      (hevents : t.correctionEvents = s.correctionEvents)
      (hevidence : t.evidenceLinks = s.evidenceLinks ++ links)
      (hlinks : ∀ link ∈ links, link.continuityObjectId = row.id)
  | corrected {before after : ContinuityObject} {event : CorrectionEvent}
      (hcaptures : s.KeepsCaptures t) (hbefore : s.objects.get? after.id = some before)
      (hsupersedes : after.supersedesObjectId = before.supersedesObjectId)
      (hby : after.supersededByObjectId = before.supersededByObjectId)
      (hobjects : s.Puts t after)
      (hevents : t.correctionEvents = s.correctionEvents ++ [event])
      (hevidence : t.evidenceLinks = s.evidenceLinks)
      (htells : event.Tells (snapshot env before) (snapshot env after))
  | superseded {before after replacement : ContinuityObject} {event : CorrectionEvent}
      (hcaptures : s.KeepsCaptures t) (hbefore : s.objects.get? after.id = some before)
      (hnew : s.objects.get? replacement.id = none)
      (hsupersedes : after.supersedesObjectId = before.supersedesObjectId)
      (hby : after.supersededByObjectId = some replacement.id)
      (hafter : after.status = .superseded)
      (hreplaces : replacement.supersedesObjectId = some after.id)
      (hlast : replacement.supersededByObjectId = none)
      (hobjects : ∀ id, t.objects.get? id =
        if after.id = id then some after
        else if replacement.id = id then some replacement else s.objects.get? id)
      (hevents : t.correctionEvents = s.correctionEvents ++ [event])
      (hevidence : t.evidenceLinks = s.evidenceLinks ++
        (s.evidenceLinks.filter fun link => link.continuityObjectId = after.id).map
          (·.onto replacement.id))
      (htells : event.Tells (snapshot env before) (snapshot env after))

/-- The tables of objects, events and evidence are the same. -/
structure ContinuityStore.SameObjects (s t : ContinuityStore) : Prop where
  captures : s.KeepsCaptures t
  objects : t.objects = s.objects
  correctionEvents : t.correctionEvents = s.correctionEvents
  evidenceLinks : t.evidenceLinks = s.evidenceLinks

theorem ContinuityStore.SameObjects.trans {s t u : ContinuityStore} (h : s.SameObjects t)
    (h' : t.SameObjects u) : s.SameObjects u :=
  ⟨h.captures.trans h'.captures, h'.objects.trans h.objects,
    h'.correctionEvents.trans h.correctionEvents, h'.evidenceLinks.trans h.evidenceLinks⟩

/-- What changes from a store with the same objects, events and evidence. -/
theorem ContinuityChange.of_same {env : ContinuityEnv} {s s' t : ContinuityStore}
    (h : ContinuityChange env s' t) (hsame : s.SameObjects s') : ContinuityChange env s t := by
  obtain ⟨hkept, hsameObjects, hsameEvents, hsameEvidence⟩ := hsame
  -- each kind of change is told by objects, events and evidence, which are the same
  cases h with
  | elsewhere hcaptures hobjects hevents hevidence =>
    exact .elsewhere (hkept.trans hcaptures) (hobjects.trans hsameObjects)
      (hevents.trans hsameEvents) (hevidence.trans hsameEvidence)
  | created hcaptures hnew hsupersedes hby hobjects hevents hevidence hlinks =>
    rw [hsameObjects] at hnew
    rw [hsameEvidence] at hevidence
    exact .created (hkept.trans hcaptures) hnew hsupersedes hby
      (fun id => hsameObjects ▸ hobjects id) (hevents.trans hsameEvents) hevidence hlinks
  | corrected hcaptures hbefore hsupersedes hby hobjects hevents hevidence htells =>
    rw [hsameObjects] at hbefore
    rw [hsameEvents] at hevents
    exact .corrected (hkept.trans hcaptures) hbefore hsupersedes hby
      (fun id => hsameObjects ▸ hobjects id) hevents (hevidence.trans hsameEvidence) htells
  | superseded hcaptures hbefore hnew hsupersedes hby hafter hreplaces hlast hobjects hevents
      hevidence htells =>
    rw [hsameObjects] at hbefore hnew
    rw [hsameEvents] at hevents
    rw [hsameEvidence] at hevidence
    exact .superseded (hkept.trans hcaptures) hbefore hnew hsupersedes hby hafter hreplaces hlast
      (fun id => hsameObjects ▸ hobjects id) hevents hevidence htells

/-! ### What the store's methods do -/

section Methods

variable {env : ContinuityEnv} {s t : ContinuityStore}

theorem drawId_ok {id : String} (h : (drawId env).run s = .ok id t) : s.SameObjects t := by
  obtain ⟨-, rfl⟩ := run_modifyGet_ok.mp h
  exact ⟨.of_eq rfl, rfl, rfl, rfl⟩

theorem utcnow_ok {now : Int} (h : (utcnow env).run s = .ok now t) : s.SameObjects t := by
  obtain ⟨-, rfl⟩ := run_modifyGet_ok.mp h
  exact ⟨.of_eq rfl, rfl, rfl, rfl⟩

/-- A capture is added to the captures, and no object changes. -/
theorem createContinuityCaptureEvent_ok {rawContent posture reason : String}
    {signal : Option String} {row : ContinuityCapture}
    (h : (createContinuityCaptureEvent env rawContent signal posture reason).run s = .ok row t) :
    s.SameObjects t ∧ (t.captureEvents.get? row.id).isSome = true := by
  obtain ⟨id, s₁, hid, h⟩ := run_bind_ok.mp h
  obtain ⟨now, s₂, hnow, h⟩ := run_bind_ok.mp h
  obtain ⟨s₃, s₄, hget, h⟩ := run_bind_ok.mp h
  obtain ⟨rfl, rfl⟩ := run_get_ok.mp hget
  obtain ⟨captures, s₅, hinsert, h⟩ := run_bind_ok.mp h
  obtain ⟨hinserted, rfl⟩ := run_orRaise_ok.mp hinsert
  obtain ⟨_, s₆, hset, h⟩ := run_bind_ok.mp h
  rw [run_set_ok] at hset
  obtain ⟨rfl, rfl⟩ := run_pure_ok.mp h
  subst hset
  have hsame := (drawId_ok hid).trans (utcnow_ok hnow)
  have hread := Table.get?_insert? hinserted
  refine ⟨⟨fun id' hid' => ?_, hsame.objects, hsame.correctionEvents, hsame.evidenceLinks⟩, ?_⟩
  · show (captures.get? id').isSome = true
    rw [hread id']
    split
    · rfl
    · exact hsame.captures id' hid'
  · show (captures.get? id).isSome = true
    rw [hread id, if_pos rfl]
    rfl

/-- A new object is put where there was none. -/
theorem createContinuityObject_ok {new : NewObject} {row : ContinuityObject}
    (h : (createContinuityObject env new).run s = .ok row t) :
    (∃ id now, row = new.row id now) ∧ s.KeepsCaptures t ∧ s.objects.get? row.id = none ∧
      s.Puts t row ∧ t.correctionEvents = s.correctionEvents ∧
      t.evidenceLinks = s.evidenceLinks := by
  obtain ⟨id, s₁, hid, h⟩ := run_bind_ok.mp h
  obtain ⟨now, s₂, hnow, h⟩ := run_bind_ok.mp h
  obtain ⟨s₃, s₄, hget, h⟩ := run_bind_ok.mp h
  obtain ⟨rfl, rfl⟩ := run_get_ok.mp hget
  obtain ⟨_, s₅, hunique, h⟩ := run_bind_ok.mp h
  obtain ⟨-, rfl⟩ := run_raiseIf_ok.mp hunique
  obtain ⟨objects, s₆, hinsert, h⟩ := run_bind_ok.mp h
  obtain ⟨hinserted, rfl⟩ := run_orRaise_ok.mp hinsert
  obtain ⟨_, s₇, hset, h⟩ := run_bind_ok.mp h
  rw [run_set_ok] at hset
  obtain ⟨rfl, rfl⟩ := run_pure_ok.mp h
  subst hset
  -- an id and a time are read before, which changes no object
  have hsame := (drawId_ok hid).trans (utcnow_ok hnow)
  refine ⟨⟨id, now, rfl⟩, hsame.captures, ?_, fun id' => ?_, hsame.correctionEvents,
    hsame.evidenceLinks⟩
  · rw [← hsame.objects]
    exact (Table.insert?_eq_some_iff.mp hinserted).1
  · rw [← hsame.objects]
    exact Table.get?_insert? hinserted id'

theorem createContinuityCorrectionEvent_ok {objectId : String} {action : CorrectionAction}
    {reason : Option String} {before after : ObjectSnapshot} {payload : CorrectionPayload}
    {event : CorrectionEvent}
    (h : (createContinuityCorrectionEvent env objectId action reason before after payload).run s =
      .ok event t) :
    (∃ id, event = ⟨id, objectId, action, reason, before, after, payload⟩) ∧
      s.KeepsCaptures t ∧ t.objects = s.objects ∧
      t.correctionEvents = s.correctionEvents ++ [event] ∧
      t.evidenceLinks = s.evidenceLinks := by
  obtain ⟨id, s₁, hid, h⟩ := run_bind_ok.mp h
  obtain ⟨_, s₂, hmodify, h⟩ := run_bind_ok.mp h
  rw [run_modify_ok] at hmodify
  obtain ⟨rfl, rfl⟩ := run_pure_ok.mp h
  subst hmodify
  have hsame := drawId_ok hid
  refine ⟨⟨id, rfl⟩, hsame.captures, hsame.objects, ?_, hsame.evidenceLinks⟩
  rw [hsame.correctionEvents]

/-- An update writes the row under its id, if there is one, and nothing else. -/
theorem updateContinuityObjectOptional_ok {objectId : String} {next : ContinuityObject}
    {updated : Option ContinuityObject}
    (h : (updateContinuityObjectOptional env objectId next).run s = .ok updated t) :
    ∃ now, (∀ id, t.objects.get? id =
        if objectId = id then (s.objects.get? id).map (updateTo next now).apply
        else s.objects.get? id) ∧
      updated = (s.objects.get? objectId).map (updateTo next now).apply ∧ s.KeepsCaptures t ∧
      t.correctionEvents = s.correctionEvents ∧ t.evidenceLinks = s.evidenceLinks := by
  obtain ⟨now, s₁, hnow, h⟩ := run_bind_ok.mp h
  obtain ⟨_, s₂, hmodify, h⟩ := run_bind_ok.mp h
  rw [run_modify_ok] at hmodify
  obtain ⟨s₃, s₄, hget, h⟩ := run_bind_ok.mp h
  obtain ⟨rfl, rfl⟩ := run_get_ok.mp hget
  obtain ⟨rfl, rfl⟩ := run_pure_ok.mp h
  subst hmodify
  have hsame := utcnow_ok hnow
  have hread : ∀ id, (s₁.objects.rewrite objectId (updateTo next now)).get? id =
      if objectId = id then (s.objects.get? id).map (updateTo next now).apply
      else s.objects.get? id := by
    intro id
    rw [Table.get?_rewrite, hsame.objects]
  refine ⟨now, hread, ?_, hsame.captures, hsame.correctionEvents, hsame.evidenceLinks⟩
  rw [hread, if_pos rfl]

end Methods

/-! ### What the calls do -/

/-- The columns that no update writes. -/
structure ContinuityObject.SameIdentity (row next : ContinuityObject) : Prop where
  id : next.id = row.id
  captureEventId : next.captureEventId = row.captureEventId
  objectType : next.objectType = row.objectType
  createdAt : next.createdAt = row.createdAt

/-- The row with the time of an update. -/
def ContinuityObject.stamped (row : ContinuityObject) (now : Int) : ContinuityObject :=
  { row with updatedAt := now }

theorem updateTo_apply {row next : ContinuityObject} (h : row.SameIdentity next) (now : Int) :
    (updateTo next now).apply row = next.stamped now := by
  obtain ⟨hid, hcapture, htype, hcreated⟩ := h
  show { next with
    id := row.id
    captureEventId := row.captureEventId
    objectType := row.objectType
    createdAt := row.createdAt
    updatedAt := now } = _
  rw [← hid, ← hcapture, ← htype, ← hcreated]
  rfl

section Calls

variable {env : ContinuityEnv} {s t : ContinuityStore}

/-- A row that was read is updated. -/
theorem ContinuityStore.puts_update {u : ContinuityStore} {current next : ContinuityObject}
    {now : Int} (hcurrent : s.objects.get? current.id = some current)
    (hnext : current.SameIdentity next)
    (hobjects : ∀ id, u.objects.get? id =
      if current.id = id then (s.objects.get? id).map (updateTo next now).apply
      else s.objects.get? id) : s.Puts u (next.stamped now) := by
  intro id
  have hid : (next.stamped now).id = current.id := hnext.id
  rw [hobjects id, hid]
  split
  · next heq => rw [← heq, hcurrent, Option.map_some, updateTo_apply hnext]
  · rfl

/-- What a correction or a review writes: one change, and the event that it answers with. -/
structure CorrectionWritten (env : ContinuityEnv) (s t : ContinuityStore) (objectId : String)
    (result : CorrectionResult) : Prop where
  change : ContinuityChange env s t
  events : t.correctionEvents = s.correctionEvents ++ [result.correctionEvent]
  about : result.correctionEvent.continuityObjectId = objectId
  before : (s.objects.get? objectId).map (snapshot env) = some result.correctionEvent.beforeSnapshot

theorem CorrectionWritten.of_same {s' : ContinuityStore} {objectId : String}
    {result : CorrectionResult} (h : CorrectionWritten env s' t objectId result)
    (hsame : s.SameObjects s') : CorrectionWritten env s t objectId result where
  change := h.change.of_same hsame
  events := by rw [h.events, hsame.correctionEvents]
  about := h.about
  before := by rw [← hsame.objects, h.before]

/-- A correction or a review that keeps the pointers. -/
theorem recordCorrection_written {missing : ContinuityError} {action : CorrectionAction}
    {reason : Option String} {payload : CorrectionPayload} {current next : ContinuityObject}
    {result : CorrectionResult}
    (h : (recordCorrection env missing action reason payload current next).run s = .ok result t)
    (hcurrent : s.objects.get? current.id = some current) (hnext : current.SameIdentity next)
    (hsupersedes : next.supersedesObjectId = current.supersedesObjectId)
    (hby : next.supersededByObjectId = current.supersededByObjectId)
    (htells : ∀ id, CorrectionEvent.Tells ⟨id, current.id, action, reason, snapshot env current,
      snapshot env next, payload⟩ (snapshot env current) (snapshot env next)) :
    CorrectionWritten env s t current.id result := by
  obtain ⟨event, s₁, hevent, h⟩ := run_bind_ok.mp h
  obtain ⟨updated, s₂, hupdate, h⟩ := run_bind_ok.mp h
  obtain ⟨row, s₃, hrow, h⟩ := run_bind_ok.mp h
  obtain ⟨-, rfl⟩ := run_orRaise_ok.mp hrow
  obtain ⟨rfl, rfl⟩ := run_pure_ok.mp h
  obtain ⟨⟨id, rfl⟩, hcaptures, hobjects, hevents, hevidence⟩ :=
    createContinuityCorrectionEvent_ok hevent
  obtain ⟨now, hread, -, hcaptures', hevents', hevidence'⟩ :=
    updateContinuityObjectOptional_ok hupdate
  rw [hobjects] at hread
  have hputs := ContinuityStore.puts_update hcurrent hnext hread
  have hwritten := hevents'.trans hevents
  have hbefore : s.objects.get? (next.stamped now).id = some current := by
    show s.objects.get? next.id = some current
    rw [hnext.id, hcurrent]
  refine ⟨?_, hwritten, rfl, ?_⟩
  · exact .corrected (hcaptures.trans hcaptures') hbefore hsupersedes hby hputs hwritten
      (hevidence'.trans hevidence) (htells id)
  · rw [hcurrent]
    rfl

theorem lookupObjectOrRaise_ok {objectId : String} {row : ContinuityObject}
    (h : (lookupObjectOrRaise objectId).run s = .ok row t) :
    s.objects.get? objectId = some row ∧ s = t := by
  obtain ⟨s₁, s₂, hget, h⟩ := run_bind_ok.mp h
  obtain ⟨rfl, rfl⟩ := run_get_ok.mp hget
  exact run_orRaise_ok.mp h

theorem editedRow_ok {request : CorrectionInput} {current edited : ContinuityObject}
    (h : editedRow request current = .ok edited) :
    ∃ title body provenance confidence, edited = { current with
      title := title
      body := body
      provenance := provenance
      confidence := confidence
      status := .active } := by
  obtain ⟨title, -, h⟩ := except_bind_ok.mp h
  obtain ⟨confidence, -, h⟩ := except_bind_ok.mp h
  cases h
  exact ⟨_, _, _, _, rfl⟩

theorem correctable_snapshot {row : ContinuityObject} (h : Correctable row) :
    (snapshot env row).Correctable := h

/-- The row of an object that is superseded. -/
def ContinuityObject.replacedBy (row : ContinuityObject) (replacementId : String) (now : Int) :
    ContinuityObject :=
  { row with
    status := .superseded
    supersededByObjectId := some replacementId
    updatedAt := now }

/-- Superseding writes the event, the replacement with its evidence, and the pointer. -/
theorem supersedeObject_written {reason : Option String} {request : CorrectionInput}
    {current : ContinuityObject} {result : CorrectionResult}
    (hcurrent : s.objects.get? current.id = some current) (hcorrectable : Correctable current)
    (h : (supersedeObject env reason request current).run s = .ok result t) :
    CorrectionWritten env s t current.id result := by
  obtain ⟨replacement, s₁, hreplacement, h⟩ := run_bind_ok.mp h
  obtain ⟨-, rfl⟩ := run_raising_ok.mp hreplacement
  obtain ⟨event, s₂, hevent, h⟩ := run_bind_ok.mp h
  obtain ⟨capture, s₃, hcapture, h⟩ := run_bind_ok.mp h
  obtain ⟨now, s₄, hnow, h⟩ := run_bind_ok.mp h
  obtain ⟨new, s₅, hnew, h⟩ := run_bind_ok.mp h
  obtain ⟨_, s₆, hcopy, h⟩ := run_bind_ok.mp h
  obtain ⟨updated, s₇, hupdate, h⟩ := run_bind_ok.mp h
  obtain ⟨row, s₈, hrow, h⟩ := run_bind_ok.mp h
  obtain ⟨-, rfl⟩ := run_orRaise_ok.mp hrow
  obtain ⟨rfl, rfl⟩ := run_pure_ok.mp h
  obtain ⟨⟨eventId, rfl⟩, hcaptures₂, hobjects₂, hevents₂, hevidence₂⟩ :=
    createContinuityCorrectionEvent_ok hevent
  have hsame := (createContinuityCaptureEvent_ok hcapture).1.trans (utcnow_ok hnow)
  obtain ⟨⟨newId, newNow, hrow⟩, hcaptures₅, hfresh, hputs, hevents₅, hevidence₅⟩ :=
    createContinuityObject_ok hnew
  rw [copyEvidence, run_modify_ok] at hcopy
  subst hcopy
  obtain ⟨later, hread, -, hcaptures₇, hevents₇, hevidence₇⟩ :=
    updateContinuityObjectOptional_ok hupdate
  -- up to the insertion the objects are those of before
  have hobjects : s₄.objects = s.objects := hsame.objects.trans hobjects₂
  have hevidence : s₅.evidenceLinks = s.evidenceLinks :=
    hevidence₅.trans (hsame.evidenceLinks.trans hevidence₂)
  have hcaptures : s.KeepsCaptures s₇ :=
    ((hcaptures₂.trans hsame.captures).trans hcaptures₅).trans hcaptures₇
  rw [hobjects] at hfresh
  have hreplaces : new.supersedesObjectId = some current.id := by
    rw [hrow]
    rfl
  have hlast : new.supersededByObjectId = none := by
    rw [hrow]
    rfl
  -- the replacement is another object than the one it replaces
  have hne : ¬ new.id = current.id := by
    intro heq
    rw [heq, hcurrent] at hfresh
    cases hfresh
  have hput : ∀ id, s₅.objects.get? id = if new.id = id then some new else s.objects.get? id :=
    fun id => hobjects ▸ hputs id
  obtain ⟨after, hafter⟩ : ∃ after, after = current.replacedBy new.id later := ⟨_, rfl⟩
  have hid : after.id = current.id := by
    rw [hafter]
    rfl
  -- two reads differ: the object that is replaced, and its replacement
  have hread' : ∀ id, s₇.objects.get? id =
      if after.id = id then some after
      else if new.id = id then some new else s.objects.get? id := by
    intro id
    rw [hread id, hid]
    split
    · next hid =>
      subst hid
      show (s₅.objects.get? current.id).map _ = _
      rw [hput, if_neg hne, hcurrent, hafter]
      rfl
    · exact hput id
  have hevents := (hevents₇.trans hevents₅).trans (hsame.correctionEvents.trans hevents₂)
  have hbefore : s.objects.get? after.id = some current := by
    rw [hid, hcurrent]
  rw [← hid] at hreplaces
  refine ⟨.superseded hcaptures hbefore hfresh ?_ ?_ ?_ hreplaces hlast hread' hevents ?_ ?_,
    hevents, rfl, ?_⟩
  · rw [hafter]
    rfl
  · rw [hafter]
    rfl
  · rw [hafter]
    rfl
  · rw [hevidence₇, hid]
    show s₅.evidenceLinks ++ _ = _
    rw [hevidence]
  · rw [hafter]
    exact .superseded (correctable_snapshot hcorrectable)
  · rw [hcurrent]
    rfl

end Calls

/-! ### Calls -/

/-- A call to the API. The evidence of an imported object is linked as it is created. -/
inductive ContinuityCall where
  | capture (rawContent : String) (explicitSignal : Option String) (posture reason : String)
      (objectType title : String) (body provenance : Dict Json) (confidence : Rat)
      (status : ContinuityStatus)
  | importItem (rawContent : String) (explicitSignal : Option String) (posture reason : String)
      (new : NewObject) (link : EvidenceLink)
  | correct (objectId : String) (request : CorrectionInput)
  | review (objectId action : String) (note : Option String)

section Perform

variable (env : ContinuityEnv)

/-- `import_normalized_batch`, for an item that is not imported yet. -/
def persistImportedItem (rawContent : String) (explicitSignal : Option String)
    (posture reason : String) (new : NewObject) (link : EvidenceLink) : ContinuityM Unit := do
  let capture ← createContinuityCaptureEvent env rawContent explicitSignal posture reason
  let row ← createContinuityObject env
    { new with
      captureEventId := capture.id
      isPreserved := true
      isSearchable := defaultContinuitySearchable new.objectType
      isPromotable := defaultContinuityPromotable new.objectType
      lastConfirmedAt := none
      supersedesObjectId := none }
  modify fun s => { s with evidenceLinks := s.evidenceLinks ++ [link.onto row.id] }

def ContinuityCall.perform : ContinuityCall → ContinuityM Unit
  | .capture rawContent signal posture reason objectType title body provenance confidence
      status => do
    let capture ← createContinuityCaptureEvent env rawContent signal posture reason
    let _ ← createContinuityObjectRecord env capture.id objectType title body provenance
      confidence status
  | .importItem rawContent signal posture reason new link =>
    persistImportedItem env rawContent signal posture reason new link
  | .correct objectId request => do
    let _ ← applyContinuityCorrection env objectId request
  | .review objectId action note => do
    let _ ← applyContinuityOpenLoopReviewAction env objectId action note

/-- A call is a transaction: one that raises leaves nothing but the ids and times it drew. -/
inductive ContinuityStep : ContinuityStore → ContinuityCall → ContinuityStore → Prop where
  | returned {s t : ContinuityStore} {call : ContinuityCall}
      (h : (call.perform env).run s = .ok () t) : ContinuityStep s call t
  | raised {s u : ContinuityStore} {call : ContinuityCall} {error : ContinuityError}
      (h : (call.perform env).run s = .error error u) :
      ContinuityStep s call { s with drawnIds := u.drawnIds, readings := u.readings }

end Perform

section Spec

variable {env : ContinuityEnv} {s t : ContinuityStore}

/-- A correction that returns is one change of the objects, told by one event about the
object with the snapshot before it. -/
theorem applyContinuityCorrection_written {objectId : String} {request : CorrectionInput}
    {result : CorrectionResult}
    (h : (applyContinuityCorrection env objectId request).run s = .ok result t) :
    CorrectionWritten env s t objectId result := by
  -- the checks that every action makes, before it is looked at
  obtain ⟨action, s₁, haction, h⟩ := run_bind_ok.mp h
  obtain ⟨-, rfl⟩ := run_orRaise_ok.mp haction
  obtain ⟨_, s₂, hreason, h⟩ := run_bind_ok.mp h
  obtain ⟨-, rfl⟩ := run_raiseIf_ok.mp hreason
  obtain ⟨current, s₃, hlookup, h⟩ := run_bind_ok.mp h
  obtain ⟨hcurrent, rfl⟩ := lookupObjectOrRaise_ok hlookup
  obtain rfl : current.id = objectId := Table.key_of_get? hcurrent
  cases action with
  | confirm =>
    obtain ⟨_, s₄, hguard, h⟩ := run_bind_ok.mp h
    obtain ⟨hcorrectable, rfl⟩ := run_raiseIf_ok.mp hguard
    obtain ⟨now, s₅, hnow, h⟩ := run_bind_ok.mp h
    have hsame := utcnow_ok hnow
    rw [← hsame.objects] at hcurrent
    exact (recordCorrection_written h hcurrent ⟨rfl, rfl, rfl, rfl⟩ rfl rfl
      fun id => .confirmed (correctable_snapshot (not_not.mp hcorrectable))).of_same hsame
  | edit =>
    obtain ⟨_, s₄, hguard, h⟩ := run_bind_ok.mp h
    obtain ⟨hcorrectable, rfl⟩ := run_raiseIf_ok.mp hguard
    obtain ⟨_, s₅, hgiven, h⟩ := run_bind_ok.mp h
    obtain ⟨-, rfl⟩ := run_raiseIf_ok.mp hgiven
    obtain ⟨edited, s₆, hedited, h⟩ := run_bind_ok.mp h
    obtain ⟨hvalues, rfl⟩ := run_raising_ok.mp hedited
    obtain ⟨title, body, provenance, confidence, rfl⟩ := editedRow_ok hvalues
    obtain ⟨now, s₇, hnow, h⟩ := run_bind_ok.mp h
    have hsame := utcnow_ok hnow
    rw [← hsame.objects] at hcurrent
    exact (recordCorrection_written h hcurrent ⟨rfl, rfl, rfl, rfl⟩ rfl rfl
      fun id => .edited (correctable_snapshot (not_not.mp hcorrectable))).of_same hsame
  | delete =>
    obtain ⟨_, s₄, hguard, h⟩ := run_bind_ok.mp h
    obtain ⟨hcorrectable, rfl⟩ := run_raiseIf_ok.mp hguard
    exact recordCorrection_written h hcurrent ⟨rfl, rfl, rfl, rfl⟩ rfl rfl
      fun id => .deleted (correctable_snapshot (not_not.mp hcorrectable))
  | markStale =>
    obtain ⟨_, s₄, hguard, h⟩ := run_bind_ok.mp h
    obtain ⟨hunguarded, rfl⟩ := run_raiseIf_ok.mp hguard
    have hactive : (snapshot env current).status = .active := not_not.mp hunguarded
    exact recordCorrection_written h hcurrent ⟨rfl, rfl, rfl, rfl⟩ rfl rfl
      fun id => .markedStale hactive
  | supersede =>
    obtain ⟨_, s₄, hguard, h⟩ := run_bind_ok.mp h
    obtain ⟨hcorrectable, rfl⟩ := run_raiseIf_ok.mp hguard
    exact supersedeObject_written hcurrent (not_not.mp hcorrectable) h

/-- A review of an open loop that returns is one change of the objects as well, and one
event. -/
theorem applyContinuityOpenLoopReviewAction_written {objectId action : String}
    {note : Option String} {result : CorrectionResult}
    (h : (applyContinuityOpenLoopReviewAction env objectId action note).run s = .ok result t) :
    CorrectionWritten env s t objectId result := by
  obtain ⟨known, s₁, haction, h⟩ := run_bind_ok.mp h
  obtain ⟨-, rfl⟩ := run_orRaise_ok.mp haction
  obtain ⟨_, s₂, hnote, h⟩ := run_bind_ok.mp h
  obtain ⟨-, rfl⟩ := run_raiseIf_ok.mp hnote
  obtain ⟨s₃, s₄, hget, h⟩ := run_bind_ok.mp h
  obtain ⟨rfl, rfl⟩ := run_get_ok.mp hget
  obtain ⟨current, s₅, hlookup, h⟩ := run_bind_ok.mp h
  obtain ⟨hcurrent, rfl⟩ := run_orRaise_ok.mp hlookup
  obtain rfl : current.id = objectId := Table.key_of_get? hcurrent
  obtain ⟨_, s₆, hguard, h⟩ := run_bind_ok.mp h
  obtain ⟨hloop, rfl⟩ := run_raiseIf_ok.mp hguard
  obtain ⟨_, s₇, hguard', h⟩ := run_bind_ok.mp h
  obtain ⟨hunclosed, rfl⟩ := run_raiseIf_ok.mp hguard'
  have htype : isOpenLoopType (snapshot env current).objectType = true :=
    Bool.eq_true_of_not_eq_false hloop
  have hopen : (snapshot env current).status.reviewCloses = false :=
    Bool.eq_false_of_not_eq_true hunclosed
  -- a loop that stays blocked is stamped as confirmed, the other actions only set the status
  split at h
  · next hblocked =>
    obtain ⟨now, s₈, hnow, h⟩ := run_bind_ok.mp h
    have hsame := utcnow_ok hnow
    rw [← hsame.objects] at hcurrent
    exact (recordCorrection_written h hcurrent ⟨rfl, rfl, rfl, rfl⟩ rfl rfl
      fun id => .reviewed htype hopen fun hne => absurd hblocked hne).of_same hsame
  · exact recordCorrection_written h hcurrent ⟨rfl, rfl, rfl, rfl⟩ rfl rfl
      fun id => .reviewed htype hopen fun _ => rfl

/-- The columns of the object are those that the caller gives, with a title that
is stripped and the flags of its type where none are given. -/
theorem createContinuityObjectRecord_ok {captureEventId objectType title : String}
    {body provenance : Dict Json} {confidence : Rat} {status : ContinuityStatus}
    {preserved : Bool} {searchable promotable : Option Bool} {row : ContinuityObject}
    (h : (createContinuityObjectRecord env captureEventId objectType title body provenance
      confidence status preserved searchable promotable).run s = .ok row t) :
    ∃ known, parseObjectType objectType = some known ∧ (createContinuityObject env {
      captureEventId
      objectType := known
      status
      isPreserved := preserved
      isSearchable := searchable.getD (defaultContinuitySearchable known)
      isPromotable := promotable.getD (defaultContinuityPromotable known)
      title := strip title
      body
      provenance
      confidence }).run s = .ok row t := by
  obtain ⟨known, s₁, htype, h⟩ := run_bind_ok.mp h
  obtain ⟨hknown, rfl⟩ := run_orRaise_ok.mp htype
  obtain ⟨_, s₂, hempty, h⟩ := run_bind_ok.mp h
  obtain ⟨-, rfl⟩ := run_raiseIf_ok.mp hempty
  obtain ⟨_, s₃, hlong, h⟩ := run_bind_ok.mp h
  obtain ⟨-, rfl⟩ := run_raiseIf_ok.mp hlong
  obtain ⟨_, s₄, hconfidence, h⟩ := run_bind_ok.mp h
  obtain ⟨-, rfl⟩ := run_raiseIf_ok.mp hconfidence
  exact ⟨known, hknown, h⟩

/-- An object that replaces no other, and the links that are written with it. -/
theorem ContinuityChange.of_created {new : NewObject} {row : ContinuityObject}
    {u : ContinuityStore} {links : List EvidenceLink} (hnew : new.supersedesObjectId = none)
    (h : (createContinuityObject env new).run s = .ok row t) (hobjects : u.objects = t.objects)
    (hevents : u.correctionEvents = t.correctionEvents)
    (hevidence : u.evidenceLinks = t.evidenceLinks ++ links)
    (hlinks : ∀ link ∈ links, link.continuityObjectId = row.id)
    (hcaptures : u.captureEvents = t.captureEvents) : ContinuityChange env s u := by
  obtain ⟨⟨id, now, hrow⟩, hkept, hfresh, hputs, hevents', hevidence'⟩ :=
    createContinuityObject_ok h
  refine .created (hkept.trans (.of_eq hcaptures)) hfresh ?_ ?_
    (fun id' => hobjects ▸ hputs id') (hevents.trans hevents') ?_ hlinks
  · rw [hrow]
    exact hnew
  · rw [hrow]
    rfl
  · rw [hevidence, hevidence']

/-- A call that returns changes one object, or replaces one. -/
theorem ContinuityCall.perform_change {call : ContinuityCall}
    (h : (call.perform env).run s = .ok () t) : ContinuityChange env s t := by
  cases call with
  | capture rawContent signal posture reason objectType title body provenance confidence status =>
    obtain ⟨capture, s₁, hcapture, h⟩ := run_bind_ok.mp h
    obtain ⟨row, s₂, hrecord, h⟩ := run_bind_ok.mp h
    obtain ⟨-, rfl⟩ := run_pure_ok.mp h
    obtain ⟨known, -, hcreate⟩ := createContinuityObjectRecord_ok hrecord
    exact (ContinuityChange.of_created rfl hcreate rfl rfl (List.append_nil _).symm
      (by simp) rfl).of_same (createContinuityCaptureEvent_ok hcapture).1
  | importItem rawContent signal posture reason new link =>
    obtain ⟨capture, s₁, hcapture, h⟩ := run_bind_ok.mp h
    obtain ⟨row, s₂, hcreate, h⟩ := run_bind_ok.mp h
    rw [run_modify_ok] at h
    subst h
    have hlinks : ∀ copied ∈ [link.onto row.id], copied.continuityObjectId = row.id := by
      intro copied hcopied
      rw [List.mem_singleton.mp hcopied]
      rfl
    have hchange : ContinuityChange env s₁
        { s₂ with evidenceLinks := s₂.evidenceLinks ++ [link.onto row.id] } :=
      .of_created rfl hcreate rfl rfl rfl hlinks rfl
    exact hchange.of_same (createContinuityCaptureEvent_ok hcapture).1
  | correct objectId request =>
    obtain ⟨result, s₁, happly, h⟩ := run_bind_ok.mp h
    obtain ⟨-, rfl⟩ := run_pure_ok.mp h
    exact (applyContinuityCorrection_written happly).change
  | review objectId action note =>
    obtain ⟨result, s₁, happly, h⟩ := run_bind_ok.mp h
    obtain ⟨-, rfl⟩ := run_pure_ok.mp h
    exact (applyContinuityOpenLoopReviewAction_written happly).change

theorem ContinuityStep.change {call : ContinuityCall} (h : ContinuityStep env s call t) :
    ContinuityChange env s t := by
  cases h with
  | returned h => exact call.perform_change h
  | raised _ => exact .elsewhere (.of_eq rfl) rfl rfl rfl

end Spec

end AliceBot
