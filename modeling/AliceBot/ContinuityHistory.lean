import AliceBot.ContinuityChanges
import AliceBot.Library.PointerGraph
import AliceBot.Library.Run

/-!
# The history of continuity objects

Two things hold over every sequence of calls.

* The correction events tell the whole history of an object (`corrections_replay`): each begins
  with the snapshot the one before it left, is one of the permitted changes, and the row is what
  the last one left. An object that is superseded, deleted or cancelled has no more of them, and
  stays as it is.
* The pointers of superseded objects lead to one object each (`supersession_current`): no two
  objects have one replacement, no pointers run in a circle, and what is found at the end holds
  the evidence of every object on the way.
-/

namespace AliceBot

open PyLib Relation

variable {env : ContinuityEnv} {s t : ContinuityStore}

/-! ### The correction events of an object -/

/-- `list_continuity_correction_events`, oldest first. -/
def ContinuityStore.eventsOf (s : ContinuityStore) (objectId : String) : List CorrectionEvent :=
  s.correctionEvents.filter fun event => event.continuityObjectId = objectId

theorem ContinuityStore.eventsOf_of_append {events : List CorrectionEvent}
    (h : t.correctionEvents = s.correctionEvents ++ events) (objectId : String) :
    t.eventsOf objectId = s.eventsOf objectId ++
      events.filter fun event => event.continuityObjectId = objectId := by
  rw [eventsOf, h, List.filter_append]
  rfl

/-- What one call does to an object: nothing, or what one more event tells. -/
inductive ObjectMoves (env : ContinuityEnv) (s t : ContinuityStore) (id : String)
    (before : ContinuityObject) : Prop where
  | kept (hrow : t.objects.get? id = some before) (hevents : t.eventsOf id = s.eventsOf id)
  | told {after : ContinuityObject} {event : CorrectionEvent}
      (hrow : t.objects.get? id = some after) (hevents : t.eventsOf id = s.eventsOf id ++ [event])
      (htells : event.Tells (snapshot env before) (snapshot env after))

/-- The object that a change is about moves, and every other one stays. -/
theorem ObjectMoves.of_tells {id : String} {row before after : ContinuityObject}
    {event : CorrectionEvent} (hrow : s.objects.get? id = some row)
    (hbefore : s.objects.get? after.id = some before)
    (hother : after.id ≠ id → t.objects.get? id = s.objects.get? id)
    (hself : t.objects.get? after.id = some after)
    (hevents : t.correctionEvents = s.correctionEvents ++ [event])
    (htells : event.Tells (snapshot env before) (snapshot env after)) :
    ObjectMoves env s t id row := by
  have hid : before.id = after.id := Table.key_of_get? hbefore
  have habout : event.continuityObjectId = after.id := htells.about.trans hid
  have hmore := ContinuityStore.eventsOf_of_append hevents id
  by_cases heq : after.id = id
  · obtain rfl : before = row := Option.some.inj (hbefore.symm.trans (heq ▸ hrow))
    rw [List.filter_cons_of_pos (by simp [habout, heq]), List.filter_nil] at hmore
    exact .told (heq ▸ hself) hmore htells
  · rw [List.filter_cons_of_neg (by simp [habout, heq]), List.filter_nil, List.append_nil] at hmore
    exact .kept ((hother heq).trans hrow) hmore

/-- One call moves every object at most once. -/
theorem ContinuityChange.object_moves (h : ContinuityChange env s t) {id : String}
    {row : ContinuityObject} (hrow : s.objects.get? id = some row) :
    ObjectMoves env s t id row := by
  cases h with
  | elsewhere hcaptures hobjects hevents hevidence =>
    have hsame : t.eventsOf id = s.eventsOf id := by rw [ContinuityStore.eventsOf, hevents]; rfl
    exact .kept (hobjects ▸ hrow) hsame
  | created hcaptures hnew hsupersedes hby hobjects hevents hevidence hlinks =>
    have hsame : t.eventsOf id = s.eventsOf id := by rw [ContinuityStore.eventsOf, hevents]; rfl
    refine .kept ?_ hsame
    rw [hobjects id, if_neg, hrow]
    -- a new object has an id that no other has
    rintro rfl
    rw [hnew] at hrow
    cases hrow
  | corrected hcaptures hbefore hsupersedes hby hobjects hevents hevidence htells =>
    refine .of_tells hrow hbefore (fun hne => ?_) ?_ hevents htells
    · rw [hobjects id, if_neg hne]
    · rw [hobjects, if_pos rfl]
  | superseded hcaptures hbefore hnew hsupersedes hby hafter hreplaces hlast hobjects hevents
      hevidence htells =>
    refine .of_tells hrow hbefore (fun hne => ?_) ?_ hevents htells
    · rw [hobjects id, if_neg hne, if_neg]
      rintro rfl
      rw [hnew] at hrow
      cases hrow
    · rw [hobjects, if_pos rfl]

/-- Nothing follows a state that is closed. -/
theorem CorrectionEvent.no_tells_of_closed {first last : ObjectSnapshot}
    {events : List CorrectionEvent} (hclosed : first.status.reviewCloses = true)
    (run : Run (fun a (event : CorrectionEvent) b => event.Tells a b) (· = first) events last) :
    events = [] ∧ last = first := by
  refine Run.history (P := fun events last => events = [] ∧ last = first) ?_ ?_ run
  · rintro _ rfl
    exact ⟨rfl, rfl⟩
  · rintro events a event b ⟨-, rfl⟩ htells
    rw [htells.open_before] at hclosed
    cases hclosed

/-- **The events tell the history.** From any state of an object on, its row is what the events
since then made of it, each from what the one before it left; without events the row is the same,
and an object that is superseded, deleted or cancelled has none. -/
theorem corrections_replay {s₁ s₂ : ContinuityStore} {calls : List ContinuityCall}
    (run : Run (ContinuityStep env) (· = s₁) calls s₂) {id : String} {row₁ : ContinuityObject}
    (hrow : s₁.objects.get? id = some row₁) :
    ∃ (row₂ : ContinuityObject) (later : List CorrectionEvent),
      s₂.objects.get? id = some row₂ ∧ s₂.eventsOf id = s₁.eventsOf id ++ later ∧
      Run (fun a (event : CorrectionEvent) b => event.Tells a b) (· = snapshot env row₁) later
        (snapshot env row₂) ∧
      (later = [] → row₂ = row₁) ∧ (row₁.status.reviewCloses = true → row₂ = row₁) := by
  -- one step adds the one event that tells it, or nothing
  have hreplay : ∃ (row₂ : ContinuityObject) (later : List CorrectionEvent),
      s₂.objects.get? id = some row₂ ∧ s₂.eventsOf id = s₁.eventsOf id ++ later ∧
      Run (fun a (event : CorrectionEvent) b => event.Tells a b) (· = snapshot env row₁) later
        (snapshot env row₂) ∧ (later = [] → row₂ = row₁) := by
    refine Run.invariant (P := fun s₂ => ∃ row₂ later, s₂.objects.get? id = some row₂ ∧
      s₂.eventsOf id = s₁.eventsOf id ++ later ∧ Run _ _ later (snapshot env row₂) ∧
      (later = [] → row₂ = row₁)) ?_ ?_ run
    · rintro _ rfl
      exact ⟨row₁, [], hrow, (List.append_nil _).symm, .start rfl, fun _ => rfl⟩
    · rintro s call t ⟨row, later, hget, hevents, hrun, hkept⟩ hstep
      cases hstep.change.object_moves hget with
      | kept hrow' hevents' => exact ⟨row, later, hrow', hevents'.trans hevents, hrun, hkept⟩
      | @told after event hrow' hevents' htells =>
        refine ⟨after, later ++ [event], hrow', ?_, hrun.next htells, fun h => ?_⟩
        · rw [hevents', hevents, List.append_assoc]
        · exact absurd h (List.append_ne_nil_of_right_ne_nil _ (List.cons_ne_nil _ _))
  -- nothing can be told of a closed object, so no event follows
  obtain ⟨row₂, later, hget, hevents, hrun, hkept⟩ := hreplay
  refine ⟨row₂, later, hget, hevents, hrun, hkept, fun hclosed => hkept ?_⟩
  exact (CorrectionEvent.no_tells_of_closed hclosed hrun).1

/-- Ids are tally marks, and the clock counts. -/
def countingEnv : ContinuityEnv where
  uuid n := String.ofList (List.replicate (n + 1) 'o')
  clock n := n
  isoformat time := toString time

def captureDecision : ContinuityCall :=
  .capture "We ship on Friday." (some "decision") "DERIVED" "explicit_signal_decision" "Decision"
    "Decision: We ship on Friday." [] [] 1 .active

def replaceDecision : ContinuityCall :=
  .correct "oo" { action := "supersede", replacementTitle := some "Decision: Monday." }

/-- The stores after a decision was captured and after it was replaced. -/
def decided : ContinuityStore := endState ((captureDecision.perform countingEnv).run {})

def replacedOnce : ContinuityStore := endState ((replaceDecision.perform countingEnv).run decided)

theorem step_replaced : ContinuityStep countingEnv decided replaceDecision replacedOnce := by
  obtain ⟨_, h⟩ := exists_ok_of_returned
    (r := (replaceDecision.perform countingEnv).run decided) (by decide +kernel)
  exact .returned h

theorem corrections_replay_replaced :
    ∃ (row₁ row₂ : ContinuityObject) (later : List CorrectionEvent),
      replacedOnce.objects.get? "oo" = some row₂ ∧
      replacedOnce.eventsOf "oo" = decided.eventsOf "oo" ++ later ∧
      Run (fun a (event : CorrectionEvent) b => event.Tells a b)
        (· = snapshot countingEnv row₁) later (snapshot countingEnv row₂) := by
  have hsome : (decided.objects.get? "oo").isSome = true := by decide +kernel
  obtain ⟨row₁, hrow⟩ := Option.isSome_iff_exists.mp hsome
  have hstart : Run (ContinuityStep countingEnv) (· = decided) [] decided := .start rfl
  obtain ⟨row₂, later, hget, hevents, hrun, -⟩ :=
    corrections_replay (hstart.next step_replaced) hrow
  exact ⟨row₁, row₂, later, hget, hevents, hrun⟩

/-! ### Replacements -/

/-- The object that replaced this one. -/
def ContinuityStore.replacedBy (s : ContinuityStore) (id : String) : Option String :=
  (s.objects.get? id).bind (·.supersededByObjectId)

/-- The object that this one replaced. -/
def ContinuityStore.replaces (s : ContinuityStore) (id : String) : Option String :=
  (s.objects.get? id).bind (·.supersedesObjectId)

/-- What every call keeps of the pointers between objects. -/
structure ReplacementInv (s : ContinuityStore) : Prop where
  mutual_pointers : ∀ a b, s.replacedBy a = some b ↔ s.replaces b = some a
  superseded : ∀ id row, s.objects.get? id = some row → row.supersededByObjectId ≠ none →
    row.status = .superseded
  acyclic : Acyclic s.replacedBy
  evidence : ∀ a b, s.replacedBy a = some b → ∀ link ∈ s.evidenceLinks,
    link.continuityObjectId = a → link.onto b ∈ s.evidenceLinks

namespace ReplacementInv

/-- The pointers stay where the objects, read by them, are the same. -/
theorem of_same_pointers (hinv : ReplacementInv s) (hby : ∀ id, t.replacedBy id = s.replacedBy id)
    (hreplaces : ∀ id, t.replaces id = s.replaces id)
    (hsuperseded : ∀ id row, t.objects.get? id = some row → row.supersededByObjectId ≠ none →
      row.status = .superseded)
    {links : List EvidenceLink} (hevidence : t.evidenceLinks = s.evidenceLinks ++ links)
    (hlinks : ∀ link ∈ links, s.replacedBy link.continuityObjectId = none) :
    ReplacementInv t where
  mutual_pointers a b := by
    rw [hby, hreplaces]
    exact hinv.mutual_pointers a b
  superseded := hsuperseded
  acyclic := hinv.acyclic.of_subset fun a b hab => hby a ▸ hab
  evidence a b hab link hlink hon := by
    rw [hby] at hab
    rw [hevidence, List.mem_append] at hlink ⊢
    rcases hlink with hold | hnew
    · exact .inl (hinv.evidence a b hab link hold hon)
    · -- new evidence is of an object that nothing has replaced
      have hnone := hlinks link hnew
      rw [hon, hab] at hnone
      cases hnone

/-- One row in the place of another with the same pointers. -/
theorem of_puts (hinv : ReplacementInv s) {row : ContinuityObject} (hobjects : s.Puts t row)
    (hby : s.replacedBy row.id = row.supersededByObjectId)
    (hreplaces : s.replaces row.id = row.supersedesObjectId)
    (hsuperseded : row.supersededByObjectId ≠ none → row.status = .superseded)
    {links : List EvidenceLink} (hevidence : t.evidenceLinks = s.evidenceLinks ++ links)
    (hlinks : ∀ link ∈ links, s.replacedBy link.continuityObjectId = none) :
    ReplacementInv t := by
  refine hinv.of_same_pointers (fun id => ?_) (fun id => ?_) (fun id found hfound => ?_) hevidence
    hlinks
  · -- the row has the pointers it had, so it is where they agree
    rw [ContinuityStore.replacedBy, hobjects id]
    split
    · next heq => rw [← heq, hby]; rfl
    · rfl
  · rw [ContinuityStore.replaces, hobjects id]
    split
    · next heq => rw [← heq, hreplaces]; rfl
    · rfl
  · rw [hobjects id] at hfound
    split at hfound
    · obtain rfl := Option.some.inj hfound
      exact hsuperseded
    · exact hinv.superseded id found hfound

/-- An object that can be corrected was not replaced. -/
theorem not_replaced (hinv : ReplacementInv s) {id : String} {row : ContinuityObject}
    (hrow : s.objects.get? id = some row) (hstatus : row.status.reviewCloses = false) :
    row.supersededByObjectId = none := by
  by_contra hby
  rw [hinv.superseded id row hrow hby] at hstatus
  cases hstatus

/-- No object points at one that is not there. -/
theorem not_points_at_missing (hinv : ReplacementInv s) {b : String}
    (hnone : s.objects.get? b = none) (a : String) : s.replacedBy a ≠ some b := by
  intro hab
  rw [hinv.mutual_pointers, ContinuityStore.replaces, hnone] at hab
  cases hab

/-- A replacement is put at the end of the pointers. -/
theorem of_superseded (hinv : ReplacementInv s) {before after replacement : ContinuityObject}
    (hbefore : s.objects.get? after.id = some before)
    (hstatus : before.status.reviewCloses = false)
    (hnew : s.objects.get? replacement.id = none)
    (hsupersedes : after.supersedesObjectId = before.supersedesObjectId)
    (hby : after.supersededByObjectId = some replacement.id) (hafter : after.status = .superseded)
    (hreplaces : replacement.supersedesObjectId = some after.id)
    (hlast : replacement.supersededByObjectId = none)
    (hobjects : ∀ id, t.objects.get? id =
      if after.id = id then some after
      else if replacement.id = id then some replacement else s.objects.get? id)
    (hevidence : t.evidenceLinks = s.evidenceLinks ++
      (s.evidenceLinks.filter fun link => link.continuityObjectId = after.id).map
        (·.onto replacement.id)) : ReplacementInv t := by
  have hne : after.id ≠ replacement.id := by
    intro heq
    rw [heq, hnew] at hbefore
    cases hbefore
  have hopen : s.replacedBy after.id = none := by
    rw [ContinuityStore.replacedBy, hbefore]
    exact hinv.not_replaced hbefore hstatus
  have hmissing : s.replacedBy replacement.id = none := by
    rw [ContinuityStore.replacedBy, hnew]
    rfl
  -- one pointer forth is new, and the one back with it
  have hby' : ∀ a, t.replacedBy a =
      if after.id = a then some replacement.id else s.replacedBy a := by
    intro a
    rw [ContinuityStore.replacedBy, hobjects a]
    by_cases ha : after.id = a
    · rw [if_pos ha, if_pos ha]
      exact hby
    rw [if_neg ha, if_neg ha]
    split
    · next heq =>
      rw [← heq, hmissing]
      exact hlast
    · rfl
  have hreplaces' : ∀ b, t.replaces b =
      if replacement.id = b then some after.id else s.replaces b := by
    intro b
    rw [ContinuityStore.replaces, hobjects b]
    by_cases hb : after.id = b
    · rw [if_pos hb, if_neg fun heq => hne (hb.trans heq.symm), ← hb, ContinuityStore.replaces,
        hbefore]
      exact hsupersedes
    rw [if_neg hb]
    split
    · exact hreplaces
    · rfl
  refine ⟨fun a b => ?_, fun id row hrow hrowBy => ?_, ?_, fun a b hab link hlink hon => ?_⟩
  · have hold := hinv.mutual_pointers a b
    have hnotNew := hinv.not_points_at_missing hnew a
    rw [hby', hreplaces']
    grind
  · rw [hobjects id] at hrow
    split at hrow
    · obtain rfl := Option.some.inj hrow
      exact hafter
    split at hrow
    · obtain rfl := Option.some.inj hrow
      exact absurd hlast hrowBy
    · exact hinv.superseded id row hrow hrowBy
  · -- the replacement points nowhere, so the new pointer closes no cycle
    refine hinv.acyclic.of_new_pointer (a := after.id) (b := replacement.id) ?_ fun x y hxy => ?_
    · rw [hby', if_neg hne, hmissing]
    · rw [hby'] at hxy
      split at hxy
      · next heq => exact .inr ⟨heq.symm, (Option.some.inj hxy).symm⟩
      · exact .inl hxy
  · rw [hby'] at hab
    rw [hevidence, List.mem_append] at hlink ⊢
    rcases hlink with hold | hcopied
    · split at hab
      · -- the replacement has a copy of every link
        next heq =>
        obtain rfl := Option.some.inj hab
        refine .inr (List.mem_map_of_mem (List.mem_filter.mpr ⟨hold, ?_⟩))
        simpa [heq] using hon
      · exact .inl (hinv.evidence a b hab link hold hon)
    · -- the copies are on the replacement, which points nowhere
      obtain ⟨original, -, rfl⟩ := List.mem_map.mp hcopied
      obtain rfl : replacement.id = a := hon
      rw [if_neg hne, hmissing] at hab
      cases hab

end ReplacementInv

/-- Every call keeps the pointers in order. -/
theorem ContinuityChange.replacementInv (h : ContinuityChange env s t)
    (hinv : ReplacementInv s) : ReplacementInv t := by
  -- only a supersession writes pointers, and it writes both ways
  cases h with
  | elsewhere hcaptures hobjects hevents hevidence =>
    have hnone : t.evidenceLinks = s.evidenceLinks ++ [] := by rw [hevidence, List.append_nil]
    refine hinv.of_same_pointers (fun id => ?_) (fun id => ?_) (fun id row hrow => ?_) hnone
      (by simp)
    · rw [ContinuityStore.replacedBy, hobjects]
      rfl
    · rw [ContinuityStore.replaces, hobjects]
      rfl
    · rw [hobjects] at hrow
      exact hinv.superseded id row hrow
  | @created row links hcaptures hnew hsupersedes hby hobjects hevents hevidence hlinks =>
    refine hinv.of_puts hobjects ?_ ?_ (fun hne => absurd hby hne) hevidence fun link hlink => ?_
    · rw [ContinuityStore.replacedBy, hnew, hby]
      rfl
    · rw [ContinuityStore.replaces, hnew, hsupersedes]
      rfl
    · rw [hlinks link hlink, ContinuityStore.replacedBy, hnew]
      rfl
  | @corrected before after event hcaptures hbefore hsupersedes hby hobjects hevents hevidence
      htells =>
    -- the corrected object was open, so nothing had replaced it
    have hopen : before.supersededByObjectId = none := hinv.not_replaced hbefore htells.open_before
    have hnone : t.evidenceLinks = s.evidenceLinks ++ [] := by rw [hevidence, List.append_nil]
    refine hinv.of_puts hobjects ?_ ?_ (fun hne => absurd (hby.trans hopen) hne) hnone (by simp)
    · rw [ContinuityStore.replacedBy, hbefore, hby]
      rfl
    · rw [ContinuityStore.replaces, hbefore, hsupersedes]
      rfl
  | superseded hcaptures hbefore hnew hsupersedes hby hafter hreplaces hlast hobjects hevents
      hevidence htells =>
    exact hinv.of_superseded hbefore htells.open_before hnew hsupersedes hby hafter hreplaces hlast
      hobjects hevidence

theorem ReplacementInv.of_run {calls : List ContinuityCall}
    (run : Run (ContinuityStep env) (· = {}) calls s) : ReplacementInv s := by
  refine Run.invariant ?_ (fun s call t hinv hstep => hstep.change.replacementInv hinv) run
  rintro _ rfl
  refine ⟨fun a b => ?_, fun id row hrow => ?_, .of_none fun a => rfl, fun a b hab => ?_⟩
  · constructor <;> intro h <;> cases h
  · cases hrow
  · cases hab

/-- The object that the pointers from an object end at. -/
structure EndsAtCurrent (s : ContinuityStore) (id : String) (current : ContinuityObject) :
    Prop where
  found : s.objects.get? current.id = some current
  last : current.supersededByObjectId = none
  leads : ∀ other, ReflTransGen (Follows s.replacedBy) id other →
    ReflTransGen (Follows s.replacedBy) other current.id
  evidence : ∀ other, ReflTransGen (Follows s.replacedBy) id other → ∀ link ∈ s.evidenceLinks,
    link.continuityObjectId = other → link.onto current.id ∈ s.evidenceLinks

/-- An object that was not replaced is the end. -/
theorem EndsAtCurrent.refl {id : String} {row : ContinuityObject}
    (hrow : s.objects.get? id = some row) (hlast : row.supersededByObjectId = none) :
    EndsAtCurrent s id row := by
  obtain rfl : row.id = id := Table.key_of_get? hrow
  have hself : ∀ other, ReflTransGen (Follows s.replacedBy) row.id other → other = row.id := by
    intro other hreach
    obtain rfl | ⟨b, hfollows, -⟩ := ReflTransGen.cases_head hreach
    · rfl
    · rw [Follows, ContinuityStore.replacedBy, hrow, Option.bind_some, hlast] at hfollows
      cases hfollows
  refine ⟨hrow, hlast, fun other hreach => ?_, fun other hreach link hlink hon => ?_⟩
  · rw [hself other hreach]
  · rw [hself other hreach] at hon
    rw [← hon]
    exact hlink

/-- What the replacement ends at. -/
theorem EndsAtCurrent.head {id b : String} {current : ContinuityObject}
    (hinv : ReplacementInv s) (hb : s.replacedBy id = some b) (h : EndsAtCurrent s b current) :
    EndsAtCurrent s id current := by
  refine ⟨h.found, h.last, fun other hreach => ?_, fun other hreach link hlink hon => ?_⟩
  all_goals obtain rfl | ⟨c, hfollows, hrest⟩ := ReflTransGen.cases_head hreach
  · exact .head hb (h.leads b .refl)
  · obtain rfl : b = c := Option.some.inj (hb.symm.trans hfollows)
    exact h.leads other hrest
  · have hcopied := hinv.evidence id b hb link hlink hon
    exact h.evidence b .refl (link.onto b) hcopied rfl
  · obtain rfl : b = c := Option.some.inj (hb.symm.trans hfollows)
    exact h.evidence other hrest link hlink hon

/-- **What replaced an object in the end.** The pointers of superseded objects agree with those
of their replacements and run in no circle. From every object they lead to one that was not
replaced, which has the evidence of all objects on the way. -/
theorem supersession_current {calls : List ContinuityCall}
    (run : Run (ContinuityStep env) (· = {}) calls s) :
    (∀ a b, s.replacedBy a = some b ↔ s.replaces b = some a) ∧ Acyclic s.replacedBy ∧
      ∀ id row, s.objects.get? id = some row → ∃ current, EndsAtCurrent s id current := by
  have hinv := ReplacementInv.of_run run
  refine ⟨hinv.mutual_pointers, hinv.acyclic, fun id row hrow => ?_⟩
  -- a pointer leads to an object that is there
  have hnodes : ∀ a b, s.replacedBy a = some b → b ∈ s.objects.rows.map ContinuityObject.id := by
    intro a b hab
    by_contra hmissing
    exact hinv.not_points_at_missing (Table.get?_eq_none_iff.mpr hmissing) a hab
  -- along the pointers: an object that was not replaced is its own end
  refine hinv.acyclic.induction hnodes (P := fun id => ∃ current, EndsAtCurrent s id current) ?_ id
    (List.mem_map.mpr ⟨row, Table.get?_eq_some_iff.mp hrow⟩)
  intro a ha ih
  obtain ⟨found, hmem, rfl⟩ := List.mem_map.mp ha
  have hfound : s.objects.get? found.id = some found := Table.get?_eq_some_iff.mpr ⟨hmem, rfl⟩
  cases hnext : found.supersededByObjectId with
  | none => exact ⟨found, .refl hfound hnext⟩
  | some b =>
    have hb : s.replacedBy found.id = some b := by
      rw [ContinuityStore.replacedBy, hfound]
      exact hnext
    obtain ⟨current, hends⟩ := ih b hb
    exact ⟨current, hends.head hinv hb⟩

/-- A decision imported with its evidence. -/
def importDecision : ContinuityCall :=
  .importItem "Decision: We ship on Friday." (some "decision") "DERIVED" "explicit_signal_decision"
    { captureEventId := "", objectType := .decision, status := .active, isPreserved := true
      isSearchable := true, isPromotable := true, title := "Decision: We ship on Friday."
      body := [], provenance := [], confidence := 1 }
    { continuityObjectId := "", artifactId := "minutes", artifactCopyId := "copy-1"
      artifactSegmentId := none, relationship := "evidence" }

/-- The stores after the import, and after the decision was replaced and its
replacement was. -/
def imported : ContinuityStore := endState ((importDecision.perform countingEnv).run {})

def importedReplaced : ContinuityStore :=
  endState ((replaceDecision.perform countingEnv).run imported)

def replaceAgain : ContinuityCall :=
  .correct "ooooo" { action := "supersede", replacementTitle := some "Decision: Tuesday." }

def importedReplacedTwice : ContinuityStore :=
  endState ((replaceAgain.perform countingEnv).run importedReplaced)

theorem run_importedReplacedTwice : Run (ContinuityStep countingEnv) (· = {})
    [importDecision, replaceDecision, replaceAgain] importedReplacedTwice := by
  have hstart : Run (ContinuityStep countingEnv) (· = {}) [] {} := .start rfl
  obtain ⟨_, h₁⟩ := exists_ok_of_returned
    (r := (importDecision.perform countingEnv).run {}) (by decide +kernel)
  obtain ⟨_, h₂⟩ := exists_ok_of_returned
    (r := (replaceDecision.perform countingEnv).run imported) (by decide +kernel)
  obtain ⟨_, h₃⟩ := exists_ok_of_returned
    (r := (replaceAgain.perform countingEnv).run importedReplaced) (by decide +kernel)
  exact ((hstart.next (.returned h₁)).next (.returned h₂)).next (.returned h₃)

/-- The evidence of the imported decision is with its second replacement, which
is where the pointers end. -/
theorem supersession_current_imported :
    ∃ current link, EndsAtCurrent importedReplacedTwice "oo" current ∧
      current.id = "oooooooo" ∧ link ∈ importedReplacedTwice.evidenceLinks ∧
      link.continuityObjectId = "oo" ∧
        link.onto current.id ∈ importedReplacedTwice.evidenceLinks := by
  obtain ⟨-, -, hall⟩ := supersession_current run_importedReplacedTwice
  have hsome : (importedReplacedTwice.objects.get? "oo").isSome = true := by decide +kernel
  obtain ⟨row, hrow⟩ := Option.isSome_iff_exists.mp hsome
  obtain ⟨current, hends⟩ := hall "oo" row hrow
  -- the pointers of the run, and where they end
  have hfirst : importedReplacedTwice.replacedBy "oo" = some "ooooo" := by decide +kernel
  have hsecond : importedReplacedTwice.replacedBy "ooooo" = some "oooooooo" := by decide +kernel
  have hlast : importedReplacedTwice.replacedBy "oooooooo" = none := by decide +kernel
  have hid : current.id = "oooooooo" := by
    have hreach : ReflTransGen (Follows importedReplacedTwice.replacedBy) "oooooooo" current.id :=
      hends.leads "oooooooo" (.tail (.single hfirst) hsecond)
    obtain heq | ⟨next, hnext, -⟩ := ReflTransGen.cases_head hreach
    · exact heq.symm
    · exact absurd (hlast.symm.trans hnext) (by simp)
  have hlinked : importedReplacedTwice.evidenceLinks.any (·.continuityObjectId == "oo") = true := by
    decide +kernel
  obtain ⟨link, hlink, hon⟩ := List.any_eq_true.mp hlinked
  exact ⟨current, link, hends, hid, hlink, eq_of_beq hon,
    hends.evidence "oo" .refl link hlink (eq_of_beq hon)⟩

end AliceBot
