import AliceBot.PackSections
import Mathlib.Algebra.Order.BigOperators.Group.List
import Mathlib.Algebra.Order.Ring.Nat

/-!
# The token budget of a context pack

What an item costs is estimated from its text, and its annotations are charged by themselves,
after the item. So it is a fact about texts that the items with their annotations cost no more
than what was charged for the parts (`estimate_settleItem`): an annotation by itself has braces
of its own, and what was refused is dropped from the item.

What a section emits is what was admitted under its name, once each and nothing else. For the
sections that are packed as they are offered these are the same lists; the memories and sources are
the admitted rows with their annotations, and every annotation was admitted by itself
(`PackSections.Offered`, `PackSections.Annotated`). The memories are in the order of their currency
chains, which only regroups them (`annotatedMemories_perm`).

Whatever the stages of retrieval supply, the pack is within its budget, and nothing is packed
after the first refusal (`compileSections_withinBudget`).
-/

namespace AliceBot

open PyLib

/-! ### Items and their annotations -/

section Annotations

variable {floatText : Rat → List Char}

variable (floatText) in
/-- The tokens of some items. -/
def itemsTokens (items : List PackItem) : Nat :=
  (items.map fun item => estimateItemTokens floatText (.dict item)).sum

variable (floatText) in
/-- The characters of the annotation under a key. -/
def annotationChars (item : PackItem) (key : String) : Nat :=
  match annotation? item key with
  | some value => memberChars floatText (key, value)
  | none => 0

variable (floatText) in
/-- The characters of the annotations under some keys. -/
def openChars (item : PackItem) (keys : List String) : Nat :=
  (keys.map (annotationChars floatText item)).sum

variable (floatText) in
/-- The tokens of an item without its annotations. -/
def bareTokens (item : PackItem) : Nat :=
  tokensOfChars (max 2
    (itemChars floatText item - openChars floatText item budgetedItemAnnotationKeys + 1))

theorem annotation?_eq_some {item : PackItem} {key : String} {value : PackValue}
    (h : annotation? item key = some value) : item.get? key = some value := by
  unfold annotation? at h
  split at h
  · cases h
  · exact h

theorem annotation?_popKey {item : PackItem} {key other : String} (h : other ≠ key) :
    annotation? (popKey item key) other = annotation? item other := by
  have hget : (popKey item key).get? other = item.get? other :=
    Dict.get?_filter item (fun k => decide (k ≠ key)) (decide_eq_true h)
  unfold annotation?
  rw [hget]

variable (floatText) in
theorem itemChars_popKey_le (item : PackItem) (key : String) :
    itemChars floatText (popKey item key) ≤ itemChars floatText item :=
  ((List.filter_sublist (l := item)).map _).sum_le_sum fun n _ => Nat.zero_le n

variable (floatText) in
/-- What is dropped is no longer in the item. -/
theorem itemChars_popKey {item : PackItem} {key : String} {value : PackValue}
    (h : item.get? key = some value) :
    itemChars floatText (popKey item key) + memberChars floatText (key, value) ≤
      itemChars floatText item := by
  induction item with
  | nil => cases h
  | cons member item ih =>
    obtain ⟨k, v⟩ := member
    rw [Dict.get?_cons] at h
    by_cases hk : k = key
    · rw [if_pos hk] at h
      obtain rfl := Option.some.inj h
      have hrest := itemChars_popKey_le floatText item key
      have hpop : popKey ((k, v) :: item) key = popKey item key :=
        List.filter_cons_of_neg (by simp [hk])
      rw [hpop, ← hk] at *
      simp only [itemChars, List.map_cons, List.sum_cons] at hrest ⊢
      omega
    · rw [if_neg hk] at h
      have hpop : popKey ((k, v) :: item) key = (k, v) :: popKey item key :=
        List.filter_cons_of_pos (by simp [hk])
      rw [hpop]
      have hrest := ih h
      simp only [itemChars, List.map_cons, List.sum_cons] at hrest ⊢
      omega

theorem annotationChars_popKey {item : PackItem} {key other : String} (h : other ≠ key) :
    annotationChars floatText (popKey item key) other = annotationChars floatText item other := by
  unfold annotationChars
  rw [annotation?_popKey h]

theorem openChars_popKey {item : PackItem} {key : String} {keys : List String} (h : key ∉ keys) :
    openChars floatText (popKey item key) keys = openChars floatText item keys := by
  unfold openChars
  refine congrArg List.sum (List.map_congr_left fun other hother => ?_)
  exact annotationChars_popKey (ne_of_mem_of_not_mem hother h)

/-- A note that is written is open in full, whatever was under its key. -/
theorem annotationChars_set (item : PackItem) (key : String) (note : PackItem) :
    annotationChars floatText (item.set key (.dict note)) key =
      memberChars floatText (key, .dict note) := by
  unfold annotationChars annotation?
  rw [Dict.get?_set_self]

theorem annotationChars_set_of_ne (item : PackItem) {key other : String} (note : PackItem)
    (h : key ≠ other) :
    annotationChars floatText (item.set key (.dict note)) other =
      annotationChars floatText item other := by
  unfold annotationChars annotation?
  rw [Dict.get?_set_of_ne _ _ h]

variable (floatText) in
/-- A note that is written takes the place of the annotation that was under its key. -/
theorem itemChars_set_note (item : PackItem) (key : String) (value : PackValue) :
    itemChars floatText (item.set key value) + annotationChars floatText item key ≤
      itemChars floatText item + memberChars floatText (key, value) := by
  induction item with
  | nil =>
    show memberChars floatText (key, value) + 0 + 0 ≤ 0 + memberChars floatText (key, value)
    omega
  | cons member item ih =>
    obtain ⟨k, v⟩ := member
    -- the member under the key is overwritten where it stands
    by_cases hk : k = key
    · subst hk
      have hopen : annotationChars floatText ((k, v) :: item) k ≤ memberChars floatText (k, v) := by
        unfold annotationChars annotation?
        rw [Dict.get?_cons, if_pos rfl]
        cases v <;> first | exact Nat.zero_le _ | exact le_rfl
      rw [Dict.set, if_pos rfl]
      simp only [itemChars, List.map_cons, List.sum_cons]
      omega
    · have hopen : annotationChars floatText ((k, v) :: item) key =
          annotationChars floatText item key := by
        unfold annotationChars annotation?
        rw [Dict.get?_cons, if_neg hk]
      rw [Dict.set, if_neg hk, hopen]
      simp only [itemChars, List.map_cons, List.sum_cons] at ih ⊢
      omega

variable (floatText) in
/-- Setting a note replaces the characters of its annotation, in the one place where its
key stands. -/
theorem openChars_set_note (item : PackItem) {key : String} (note : PackItem) {keys : List String}
    (hnodup : keys.Nodup) (hkey : key ∈ keys) :
    openChars floatText (item.set key (.dict note)) keys + annotationChars floatText item key =
      openChars floatText item keys + memberChars floatText (key, .dict note) := by
  induction keys with
  | nil => cases hkey
  | cons first keys ih =>
    obtain ⟨hfirst, hkeys⟩ := List.nodup_cons.mp hnodup
    unfold openChars at ih ⊢
    rw [List.map_cons, List.map_cons, List.sum_cons, List.sum_cons]
    -- the key stands once in the list: its annotation changes, the others stay
    by_cases hsame : first = key
    · subst hsame
      have hrest : keys.map (annotationChars floatText (item.set first (.dict note))) =
          keys.map (annotationChars floatText item) :=
        List.map_congr_left fun other hother =>
          annotationChars_set_of_ne item note (ne_of_mem_of_not_mem hother hfirst).symm
      rw [hrest, annotationChars_set]
      omega
    · have hmem : key ∈ keys := List.mem_of_ne_of_mem (Ne.symm hsame) hkey
      rw [annotationChars_set_of_ne item note (Ne.symm hsame)]
      have hrest := ih hkeys hmem
      omega

/-- What an item has beside its annotations does not grow with a note. -/
theorem bareTokens_withNote (item : PackItem) {key : String}
    (hkey : key ∈ budgetedItemAnnotationKeys) (note : Option PackItem) :
    bareTokens floatText (withNote item key note) ≤ bareTokens floatText item := by
  cases note with
  | none => exact le_rfl
  | some note =>
    have hchars := itemChars_set_note floatText item key (.dict note)
    have hopen := openChars_set_note floatText item note (by decide) hkey
    refine tokensOfChars_mono ?_
    show max 2 (itemChars floatText (item.set key (.dict note)) -
      openChars floatText (item.set key (.dict note)) budgetedItemAnnotationKeys + 1) ≤ _
    omega

theorem bareTokens_le (item : PackItem) :
    bareTokens floatText item ≤ estimateItemTokens floatText (.dict item) := by
  rw [estimateItemTokens_dict]
  refine tokensOfChars_mono ?_
  omega

end Annotations

/-! ### What is admitted -/

section Admitted

variable {floatText : Rat → List Char}

/-- The items that were admitted in a section, in the order in which they were offered. -/
def Ledger.admittedItems (ledger : Ledger floatText) (sectionName : String) : List PackItem :=
  (ledger.offers.filter fun offer => offer.admitted && offer.sectionName == sectionName).map
    Offer.item

/-- One ledger has admitted what the other did and some items more, all of them in one section. -/
structure Ledger.Extends (later earlier : Ledger floatText) (sectionName : String)
    (items : List PackItem) : Prop where
  limit : later.budget.tokenBudget = earlier.budget.tokenBudget
  here : later.admittedItems sectionName = earlier.admittedItems sectionName ++ items
  elsewhere : ∀ name, name ≠ sectionName → later.admittedItems name = earlier.admittedItems name

namespace Ledger

theorem Extends.refl (ledger : Ledger floatText) (sectionName : String) :
    ledger.Extends ledger sectionName [] :=
  ⟨rfl, (List.append_nil _).symm, fun _ _ => rfl⟩

theorem Extends.trans {a b c : Ledger floatText} {sectionName : String}
    {items items' : List PackItem} (h : c.Extends b sectionName items')
    (h' : b.Extends a sectionName items) : c.Extends a sectionName (items ++ items') where
  limit := h.limit.trans h'.limit
  here := by rw [h.here, h'.here, List.append_assoc]
  elsewhere name hname := (h.elsewhere name hname).trans (h'.elsewhere name hname)

/-- Nothing that was admitted is forgotten. -/
theorem Extends.mem {later earlier : Ledger floatText} {sectionName : String}
    {items : List PackItem} (h : later.Extends earlier sectionName items) {name : String}
    {item : PackItem} (hitem : item ∈ earlier.admittedItems name) :
    item ∈ later.admittedItems name := by
  by_cases hname : name = sectionName
  · subst hname
    rw [h.here]
    exact List.mem_append_left _ hitem
  · rw [h.elsewhere name hname]
    exact hitem

theorem offer_extends (ledger : Ledger floatText) (sectionName : String) (item : PackItem) :
    (ledger.offer sectionName item).2.Extends ledger sectionName
      (if (ledger.offer sectionName item).1 then [item] else []) := by
  have happend : ∀ name, (ledger.offer sectionName item).2.admittedItems name =
      ledger.admittedItems name ++ (([⟨sectionName, item, (ledger.offer sectionName item).1⟩].filter
        fun offer => offer.admitted && offer.sectionName == name).map Offer.item) := by
    intro name
    unfold admittedItems
    rw [← List.map_append, ← List.filter_append]
    rfl
  refine ⟨(admitItem_cases ledger.budget (.dict item) sectionName).1, ?_, fun name hname => ?_⟩
  · rw [happend]
    cases (ledger.offer sectionName item).1 <;> simp
  · rw [happend, List.filter_cons_of_neg (by simpa using fun _ => Ne.symm hname)]
    exact List.append_nil _

/-- An offer is charged if it is admitted. -/
theorem offer_estimate (ledger : Ledger floatText) (sectionName : String) (item : PackItem) :
    (ledger.offer sectionName item).2.budget.tokenEstimate = ledger.budget.tokenEstimate +
      if (ledger.offer sectionName item).1 then estimateItemTokens floatText (.dict item)
      else 0 := by
  rcases (admitItem_cases ledger.budget (.dict item) sectionName).2 with
    ⟨hanswer, -, -, -, hestimate, -⟩ | ⟨hanswer, -, -, hestimate⟩
  · rw [show (ledger.offer sectionName item).1 = true from hanswer, if_pos rfl]
    exact hestimate
  · rw [show (ledger.offer sectionName item).1 = false from hanswer, if_neg Bool.false_ne_true]
    exact hestimate

/-- The items that are kept are those that were admitted, and they are charged in full. -/
theorem offerAll_spec (sectionName : String) (items : List PackItem) (ledger : Ledger floatText) :
    let kept := ledger.offerAll sectionName items
    kept.2.Extends ledger sectionName kept.1 ∧
      kept.2.budget.tokenEstimate = ledger.budget.tokenEstimate + itemsTokens floatText kept.1 ∧
      kept.1.Sublist items := by
  induction items generalizing ledger with
  | nil => exact ⟨Extends.refl ledger sectionName, rfl, .slnil⟩
  | cons item items ih =>
    obtain ⟨hextends, hestimate, hsub⟩ := ih (ledger.offer sectionName item).2
    have hoffer := offer_estimate ledger sectionName item
    have hstep := hextends.trans (offer_extends ledger sectionName item)
    rw [offerAll]
    dsimp only
    cases hanswer : (ledger.offer sectionName item).1 with
    | true =>
      rw [hanswer, if_pos rfl] at hoffer hstep
      rw [if_pos rfl]
      refine ⟨hstep, ?_, hsub.cons_cons item⟩
      rw [hestimate, hoffer, Nat.add_assoc]
      rfl
    | false =>
      rw [hanswer, if_neg Bool.false_ne_true] at hoffer hstep
      rw [if_neg Bool.false_ne_true]
      exact ⟨hstep, hestimate.trans (by rw [hoffer, Nat.add_zero]), hsub.cons item⟩

end Ledger

end Admitted

/-! ### Annotations that are settled -/

section Settled

variable {floatText : Rat → List Char}

/-- An item without its annotations. -/
def withoutAnnotations (item : PackItem) : PackItem :=
  item.filter fun member => !budgetedItemAnnotationKeys.contains member.1

theorem withoutAnnotations_set (item : PackItem) {key : String}
    (hkey : key ∈ budgetedItemAnnotationKeys) (value : PackValue) :
    withoutAnnotations (item.set key value) = withoutAnnotations item := by
  have hdropped : (!budgetedItemAnnotationKeys.contains key) = false := by simpa using hkey
  unfold withoutAnnotations
  induction item with
  | nil => simp only [Dict.set, List.filter_cons, hdropped, Bool.false_eq_true, if_false]
  | cons member item ih =>
    obtain ⟨k, v⟩ := member
    rw [Dict.set]
    split
    · next hk => simp only [hk, List.filter_cons, hdropped, Bool.false_eq_true, if_false]
    · rw [List.filter_cons, List.filter_cons, ih]

theorem withoutAnnotations_popKey (item : PackItem) {key : String}
    (hkey : key ∈ budgetedItemAnnotationKeys) :
    withoutAnnotations (popKey item key) = withoutAnnotations item := by
  unfold withoutAnnotations popKey
  rw [List.filter_filter]
  refine List.filter_congr fun member _ => ?_
  by_cases hmember : member.1 = key
  · simp [hmember, hkey]
  · simp [hmember]

theorem withoutAnnotations_withNote (item : PackItem) {key : String}
    (hkey : key ∈ budgetedItemAnnotationKeys) (note : Option PackItem) :
    withoutAnnotations (withNote item key note) = withoutAnnotations item := by
  cases note with
  | none => rfl
  | some note => exact withoutAnnotations_set item hkey _

theorem annotation?_popKey_self (item : PackItem) (key : String) :
    annotation? (popKey item key) key = none := by
  have hnone : (popKey item key).get? key = none := by
    rw [Dict.get?, List.lookup_eq_none_iff]
    intro member hmember
    have hne : member.1 ≠ key := of_decide_eq_true (List.mem_filter.mp hmember).2
    exact bne_iff_ne.mpr (Ne.symm hne)
  unfold annotation?
  rw [hnone]

/-- Of the keys that were gone through, an annotation that is left was admitted; nothing else of
the item has changed. -/
theorem settleItem_spec {keys : List String} (hbudgeted : keys ⊆ budgetedItemAnnotationKeys)
    (hnodup : keys.Nodup) (item : PackItem) (ledger : Ledger floatText) :
    let settled := settleItem keys item ledger
    ∃ notes, settled.2.Extends ledger "item_annotations" notes ∧
      withoutAnnotations settled.1 = withoutAnnotations item ∧
      (∀ key ∈ keys, ∀ value, annotation? settled.1 key = some value → [(key, value)] ∈ notes) ∧
      ∀ key, key ∉ keys → annotation? settled.1 key = annotation? item key := by
  induction keys generalizing item ledger with
  | nil =>
    refine ⟨[], .refl ledger _, rfl, fun key hkey => ?_, fun key _ => rfl⟩
    exact absurd hkey List.not_mem_nil
  | cons key keys ih =>
    obtain ⟨hkey, hkeys⟩ := List.nodup_cons.mp hnodup
    obtain ⟨hfirst, hrest⟩ := List.cons_subset.mp hbudgeted
    rw [settleItem]
    cases hvalue : annotation? item key with
    | none =>
      obtain ⟨notes, hextends, hbare, hadmitted, hkept⟩ := ih hrest hkeys item ledger
      refine ⟨notes, hextends, hbare, fun other hother value hfound => ?_, fun other hother => ?_⟩
      · rcases List.mem_cons.mp hother with rfl | hmem
        · -- the first key has no annotation
          rw [hkept other hkey, hvalue] at hfound
          cases hfound
        · exact hadmitted other hmem value hfound
      · exact hkept other fun hmem => hother (List.mem_cons_of_mem _ hmem)
    | some value =>
      have hoffer := Ledger.offer_extends ledger "item_annotations" [(key, value)]
      dsimp only
      cases hanswer : (ledger.offer "item_annotations" [(key, value)]).1 with
      | true =>
        rw [hanswer, if_pos rfl] at hoffer
        rw [if_pos rfl]
        obtain ⟨notes, hextends, hbare, hadmitted, hkept⟩ :=
          ih hrest hkeys item (ledger.offer "item_annotations" [(key, value)]).2
        refine ⟨_, hextends.trans hoffer, hbare, fun other hother found hfound => ?_,
          fun other hother => hkept other fun hmem => hother (List.mem_cons_of_mem _ hmem)⟩
        rcases List.mem_cons.mp hother with rfl | hmem
        · -- the annotation is the one that was admitted
          rw [hkept other hkey, hvalue] at hfound
          rw [← Option.some.inj hfound]
          exact List.mem_append_left _ (List.mem_singleton_self _)
        · exact List.mem_append_right _ (hadmitted other hmem found hfound)
      | false =>
        rw [hanswer, if_neg Bool.false_ne_true] at hoffer
        rw [if_neg Bool.false_ne_true]
        obtain ⟨notes, hextends, hbare, hadmitted, hkept⟩ :=
          ih hrest hkeys (popKey item key) (ledger.offer "item_annotations" [(key, value)]).2
        refine ⟨_, hextends.trans hoffer, hbare.trans (withoutAnnotations_popKey item hfirst),
          fun other hother found hfound => ?_, fun other hother => ?_⟩
        · rcases List.mem_cons.mp hother with rfl | hmem
          · -- what was refused is dropped
            rw [hkept other hkey, annotation?_popKey_self] at hfound
            cases hfound
          · exact List.mem_append_right _ (hadmitted other hmem found hfound)
        · rw [hkept other fun hmem => hother (List.mem_cons_of_mem _ hmem),
            annotation?_popKey (List.ne_of_not_mem_cons hother)]

/-- Settling the notes of items changes nothing but notes, and each note that stays was
admitted. -/
theorem settleItems_spec (items : List PackItem) (ledger : Ledger floatText) :
    let settled := settleItems items ledger
    ∃ notes, settled.2.Extends ledger "item_annotations" notes ∧
      settled.1.map withoutAnnotations = items.map withoutAnnotations ∧
      ∀ item ∈ settled.1, ∀ key ∈ budgetedItemAnnotationKeys, ∀ value,
        annotation? item key = some value → [(key, value)] ∈ notes := by
  induction items generalizing ledger with
  | nil => exact ⟨[], .refl ledger _, rfl, fun item hitem => nomatch hitem⟩
  | cons item items ih =>
    obtain ⟨notes, hextends, hbare, hadmitted, -⟩ :=
      settleItem_spec (List.Subset.refl _) (by decide) item ledger
    obtain ⟨later, hextends', hbares, hadmitted'⟩ :=
      ih (settleItem budgetedItemAnnotationKeys item ledger).2
    rw [settleItems]
    refine ⟨_, hextends'.trans hextends, ?_, fun other hother key hkey value hfound => ?_⟩
    · rw [List.map_cons, List.map_cons, hbare, hbares]
    · rcases List.mem_cons.mp hother with rfl | hmem
      · exact List.mem_append_left _ (hadmitted key hkey value hfound)
      · exact List.mem_append_right _ (hadmitted' other hmem key hkey value hfound)

/-- An annotation of a stamped item was admitted, or is one that the item had before. -/
theorem stampEventTimes_spec (eventTime : PackItem → Option String) (items : List PackItem)
    (ledger : Ledger floatText) :
    let stamped := stampEventTimes eventTime items ledger
    ∃ notes, stamped.2.Extends ledger "item_annotations" notes ∧
      stamped.1.map withoutAnnotations = items.map withoutAnnotations ∧
      ∀ item ∈ stamped.1, ∀ key value, annotation? item key = some value →
        [(key, value)] ∈ notes ∨ ∃ before ∈ items, annotation? before key = some value := by
  induction items generalizing ledger with
  | nil => exact ⟨[], .refl ledger _, rfl, fun item hitem => nomatch hitem⟩
  | cons item items ih =>
    have hold {notes : List PackItem} {stamped : List PackItem}
        (h : ∀ other ∈ stamped, ∀ key value, annotation? other key = some value →
          [(key, value)] ∈ notes ∨ ∃ before ∈ items, annotation? before key = some value) :
        ∀ other ∈ item :: stamped, ∀ key value, annotation? other key = some value →
          [(key, value)] ∈ notes ∨
            ∃ before ∈ item :: items, annotation? before key = some value := by
      intro other hother key value hfound
      rcases List.mem_cons.mp hother with rfl | hmem
      · exact .inr ⟨other, List.mem_cons_self .., hfound⟩
      · refine (h other hmem key value hfound).imp_right ?_
        rintro ⟨before, hbefore, hsame⟩
        exact ⟨before, List.mem_cons_of_mem _ hbefore, hsame⟩
    rw [stampEventTimes]
    cases htime : eventTime item with
    | none =>
      obtain ⟨notes, hextends, hbare, hadmitted⟩ := ih ledger
      exact ⟨notes, hextends, by rw [List.map_cons, List.map_cons, hbare], hold hadmitted⟩
    | some text =>
      have hoffer := Ledger.offer_extends ledger "item_annotations" [("event_time", .str text)]
      obtain ⟨notes, hextends, hbare, hadmitted⟩ :=
        ih (ledger.offer "item_annotations" [("event_time", .str text)]).2
      dsimp only
      cases hanswer : (ledger.offer "item_annotations" [("event_time", .str text)]).1 with
      | true =>
        rw [hanswer, if_pos rfl] at hoffer
        rw [if_pos rfl]
        refine ⟨_, hextends.trans hoffer, ?_, fun other hother key value hfound => ?_⟩
        · rw [List.map_cons, List.map_cons, hbare, withoutAnnotations_set item (by decide)]
        rcases List.mem_cons.mp hother with rfl | hmem
        · by_cases hkey : key = "event_time"
          · subst hkey
            -- the time was admitted, whatever was under its key before
            unfold annotation? at hfound
            rw [Dict.get?_set_self] at hfound
            rw [← Option.some.inj hfound]
            exact .inl (List.mem_append_left _ (List.mem_singleton_self _))
          · refine .inr ⟨item, List.mem_cons_self .., ?_⟩
            unfold annotation? at hfound ⊢
            rwa [Dict.get?_set_of_ne _ _ (Ne.symm hkey)] at hfound
        · rcases hadmitted other hmem key value hfound with hnote | ⟨before, hbefore, hsame⟩
          · exact .inl (List.mem_append_right _ hnote)
          · exact .inr ⟨before, List.mem_cons_of_mem _ hbefore, hsame⟩
      | false =>
        rw [hanswer, if_neg Bool.false_ne_true] at hoffer
        rw [if_neg Bool.false_ne_true]
        exact ⟨_, hextends.trans hoffer, by rw [List.map_cons, List.map_cons, hbare],
          hold hadmitted⟩

end Settled

/-! ### What is charged -/

section Charges

variable {floatText : Rat → List Char}

/-- The text of an item of one member. -/
theorem estimateItemTokens_single (key : String) (value : PackValue) :
    estimateItemTokens floatText (.dict [(key, value)]) =
      tokensOfChars (max 2 (memberChars floatText (key, value) + 1)) := by
  rw [estimateItemTokens_dict, itemChars, List.map_singleton, List.sum_singleton]

variable (floatText) in
/-- A member costs no less by itself than in an item. -/
theorem tokensOfChars_member (chars : Nat) (key : String) (value : PackValue) :
    tokensOfChars (max 2 (chars + memberChars floatText (key, value) + 1)) ≤
      tokensOfChars (max 2 (chars + 1)) +
        estimateItemTokens floatText (.dict [(key, value)]) := by
  rw [estimateItemTokens_single]
  refine le_trans (tokensOfChars_mono ?_) (tokensOfChars_add_le _ _)
  omega

/-- An item whose annotations are open costs, when they are settled, no more than the rest of it
and what was charged. -/
theorem estimate_settleItem {keys : List String} (hnodup : keys.Nodup) {chars : Nat}
    {item : PackItem} (hchars : itemChars floatText item ≤ chars + openChars floatText item keys)
    (ledger : Ledger floatText) :
    let settled := settleItem keys item ledger
    estimateItemTokens floatText (.dict settled.1) + ledger.budget.tokenEstimate ≤
      tokensOfChars (max 2 (chars + 1)) + settled.2.budget.tokenEstimate := by
  induction keys generalizing chars item ledger with
  | nil =>
    refine Nat.add_le_add_right ?_ _
    have hnone : openChars floatText item [] = 0 := rfl
    show estimateItemTokens floatText (.dict item) ≤ _
    rw [estimateItemTokens_dict]
    exact tokensOfChars_mono (by omega)
  | cons key keys ih =>
    obtain ⟨hkey, hkeys⟩ := List.nodup_cons.mp hnodup
    have hopen : openChars floatText item (key :: keys) =
        annotationChars floatText item key + openChars floatText item keys := by
      rw [openChars, List.map_cons, List.sum_cons, openChars]
    rw [hopen, annotationChars] at hchars
    rw [settleItem]
    cases hvalue : annotation? item key with
    | none =>
      rw [hvalue] at hchars
      dsimp only at hchars
      exact ih hkeys (by omega) ledger
    | some value =>
      rw [hvalue] at hchars
      dsimp only at hchars ⊢
      have hoffer := Ledger.offer_estimate ledger "item_annotations" [(key, value)]
      cases hanswer : (ledger.offer "item_annotations" [(key, value)]).1 with
      | true =>
        rw [hanswer, if_pos rfl] at hoffer
        rw [if_pos rfl]
        -- the annotation stays, and was charged
        have hstays : itemChars floatText item ≤
            chars + memberChars floatText (key, value) + openChars floatText item keys := by omega
        have hle := ih hkeys hstays (ledger.offer "item_annotations" [(key, value)]).2
        have hmember := tokensOfChars_member floatText chars key value
        dsimp only at hle ⊢
        omega
      | false =>
        rw [hanswer, if_neg Bool.false_ne_true, Nat.add_zero] at hoffer
        rw [if_neg Bool.false_ne_true]
        have hpop := itemChars_popKey floatText (annotation?_eq_some hvalue)
        have hdropped : itemChars floatText (popKey item key) ≤
            chars + openChars floatText (popKey item key) keys := by
          rw [openChars_popKey hkey]
          omega
        have hle := ih hkeys hdropped (ledger.offer "item_annotations" [(key, value)]).2
        dsimp only at hle ⊢
        omega

theorem estimate_settleItems (items : List PackItem) (ledger : Ledger floatText) :
    let settled := settleItems items ledger
    itemsTokens floatText settled.1 + ledger.budget.tokenEstimate ≤
      (items.map (bareTokens floatText)).sum + settled.2.budget.tokenEstimate := by
  induction items generalizing ledger with
  | nil => exact le_rfl
  | cons item items ih =>
    have hchars : itemChars floatText item ≤
        (itemChars floatText item - openChars floatText item budgetedItemAnnotationKeys) +
          openChars floatText item budgetedItemAnnotationKeys := by omega
    have hle := estimate_settleItem (by decide) hchars ledger
    have hsum := ih (settleItem budgetedItemAnnotationKeys item ledger).2
    rw [settleItems]
    simp only [itemsTokens, List.map_cons, List.sum_cons, bareTokens] at hsum hle ⊢
    omega

/-- Stamping items costs the ledger at least what the items grow by. -/
theorem estimate_stampEventTimes (eventTime : PackItem → Option String) (items : List PackItem)
    (ledger : Ledger floatText) :
    let stamped := stampEventTimes eventTime items ledger
    itemsTokens floatText stamped.1 + ledger.budget.tokenEstimate ≤
      itemsTokens floatText items + stamped.2.budget.tokenEstimate := by
  induction items generalizing ledger with
  | nil => exact le_rfl
  | cons item items ih =>
    rw [stampEventTimes]
    cases htime : eventTime item with
    | none =>
      -- an item without a time is left as it is
      have hle := ih ledger
      simp only [itemsTokens, List.map_cons, List.sum_cons] at hle ⊢
      omega
    | some text =>
      have hoffer := Ledger.offer_estimate ledger "item_annotations" [("event_time", .str text)]
      have hle := ih (ledger.offer "item_annotations" [("event_time", .str text)]).2
      dsimp only
      cases hanswer : (ledger.offer "item_annotations" [("event_time", .str text)]).1 with
      | true =>
        -- the stamp was admitted: it costs at least what it adds to the item
        rw [hanswer, if_pos rfl] at hoffer
        rw [if_pos rfl]
        have hset := itemChars_set_le floatText item "event_time" (.str text)
        have hmono : estimateItemTokens floatText (.dict (item.set "event_time" (.str text))) ≤
            tokensOfChars (max 2 (itemChars floatText item +
              memberChars floatText ("event_time", .str text) + 1)) := by
          rw [estimateItemTokens_dict]
          exact tokensOfChars_mono (by omega)
        have hmember := tokensOfChars_member floatText
          (itemChars floatText item) "event_time" (.str text)
        have hitem := estimateItemTokens_dict floatText item
        simp only [itemsTokens, List.map_cons, List.sum_cons] at hle ⊢
        omega
      | false =>
        -- it was refused: nothing is written and nothing charged
        rw [hanswer, if_neg Bool.false_ne_true, Nat.add_zero] at hoffer
        rw [if_neg Bool.false_ne_true]
        simp only [itemsTokens, List.map_cons, List.sum_cons] at hle ⊢
        omega

end Charges

/-! ### The pack -/

/-- The sections that are counted. -/
inductive CountedSection where
  | ranked (ranked : RankedSection)
  | entities
  | recentChanges
  | supersessionContext
  | grounding
  | derivedValues
deriving DecidableEq

namespace CountedSection

def name : CountedSection → String
  | .ranked kind => kind.name
  | .entities => "entities"
  | .recentChanges => "recent_changes"
  | .supersessionContext => "supersession_context"
  | .grounding => "grounding"
  | .derivedValues => "derived_values"

def all : List CountedSection :=
  [.ranked .relevantMemories, .ranked .openLoops, .ranked .sources, .ranked .supportingEvidence,
    .ranked .contradictingEvidence, .entities, .recentChanges, .supersessionContext, .grounding,
    .derivedValues]

/-- The items of the section get annotations after they are packed. -/
def isAnnotated : CountedSection → Bool
  | .ranked .relevantMemories => true
  | .ranked .sources => true
  | _ => false

theorem name_ne {a b : CountedSection} (h : a ≠ b) : a.name ≠ b.name := by
  intro hname
  refine h ?_
  cases a with
  | ranked a => cases b with
    | ranked b => cases a <;> cases b <;> first | rfl | exact absurd hname (by decide)
    | _ => cases a <;> exact absurd hname (by decide)
  | _ => cases b with
    | ranked b => cases b <;> exact absurd hname (by decide)
    | _ => first | rfl | exact absurd hname (by decide)

theorem name_ne_itemAnnotations (counted : CountedSection) :
    counted.name ≠ "item_annotations" := by
  cases counted with
  | ranked kind => cases kind <;> decide
  | _ => decide

end CountedSection

section Pack

variable {floatText : Rat → List Char}

namespace PackSections

/-- What the pack carries in a section. -/
def items (pack : PackSections floatText) : CountedSection → List PackItem
  | .ranked .relevantMemories => pack.relevantMemories
  | .ranked .openLoops => pack.openLoops
  | .ranked .sources => pack.sources
  | .ranked .supportingEvidence => pack.supportingEvidence
  | .ranked .contradictingEvidence => pack.contradictingEvidence
  | .entities => pack.entities
  | .recentChanges => pack.recentChanges
  | .supersessionContext => pack.supersessionContext
  | .grounding => pack.grounding
  | .derivedValues => pack.derivedValues

/-- The tokens of the counted sections. -/
def tokens (pack : PackSections floatText) : Nat :=
  (CountedSection.all.map fun counted => itemsTokens floatText (pack.items counted)).sum

/-- Every section carries what was admitted under its name: these items in their order, or, where
they are annotated, these items but for the annotations, once each and in some order. -/
structure Offered (pack : PackSections floatText) : Prop where
  plain : ∀ counted : CountedSection, counted.isAnnotated = false →
    pack.items counted = pack.ledger.admittedItems counted.name
  bare : ∀ counted : CountedSection, counted.isAnnotated = true →
    ((pack.items counted).map withoutAnnotations).Perm
      ((pack.ledger.admittedItems counted.name).map withoutAnnotations)

/-- Every annotation that a packed memory or source carries was admitted by itself. -/
def Annotated (pack : PackSections floatText) : Prop :=
  ∀ counted : CountedSection, counted.isAnnotated = true → ∀ item ∈ pack.items counted,
    ∀ key ∈ budgetedItemAnnotationKeys, ∀ value, annotation? item key = some value →
      [(key, value)] ∈ pack.ledger.admittedItems "item_annotations"

variable {pack pack' : PackSections floatText}

/-- A section that was empty is filled with what is admitted for it. -/
theorem Offered.fill (h : pack.Offered) {own : CountedSection} {kept : List PackItem}
    (hempty : pack.items own = [])
    (hextends : pack'.ledger.Extends pack.ledger own.name kept) (hown : pack'.items own = kept)
    (hothers : ∀ other, other ≠ own → pack'.items other = pack.items other) : pack'.Offered := by
  -- nothing had been admitted under its name before
  have hnothing : pack.ledger.admittedItems own.name = [] := by
    cases hannotated : own.isAnnotated with
    | false => rw [← h.plain own hannotated, hempty]
    | true =>
      have hbare := h.bare own hannotated
      rw [hempty] at hbare
      exact List.map_eq_nil_iff.mp hbare.symm.eq_nil
  have hfilled : pack'.items own = pack'.ledger.admittedItems own.name := by
    rw [hown, hextends.here, hnothing, List.nil_append]
  refine ⟨fun counted hplain => ?_, fun counted hannotated => ?_⟩
  · by_cases hsame : counted = own
    · rw [hsame]
      exact hfilled
    · rw [hothers counted hsame, hextends.elsewhere _ (CountedSection.name_ne hsame)]
      exact h.plain counted hplain
  · by_cases hsame : counted = own
    · rw [hsame, hfilled]
    · rw [hothers counted hsame, hextends.elsewhere _ (CountedSection.name_ne hsame)]
      exact h.bare counted hannotated

/-- The annotations of packed items are settled: the items are the same but for these. -/
theorem Offered.annotate (h : pack.Offered) {notes : List PackItem}
    (hextends : pack'.ledger.Extends pack.ledger "item_annotations" notes)
    (hplain : ∀ counted : CountedSection, counted.isAnnotated = false →
      pack'.items counted = pack.items counted)
    (hbare : ∀ counted : CountedSection, counted.isAnnotated = true →
      ((pack'.items counted).map withoutAnnotations).Perm
        ((pack.items counted).map withoutAnnotations)) : pack'.Offered := by
  have hsame : ∀ counted : CountedSection, pack'.ledger.admittedItems counted.name =
      pack.ledger.admittedItems counted.name :=
    fun counted => hextends.elsewhere _ counted.name_ne_itemAnnotations
  refine ⟨fun counted hcounted => ?_, fun counted hcounted => ?_⟩
  · rw [hplain counted hcounted, hsame]
    exact h.plain counted hcounted
  · rw [hsame]
    exact (hbare counted hcounted).trans (h.bare counted hcounted)

/-- A section that was empty brings the tokens of its items. -/
theorem tokens_fill {own : CountedSection} (hempty : pack.items own = [])
    (hothers : ∀ other, other ≠ own → pack'.items other = pack.items other) :
    pack'.tokens = pack.tokens + itemsTokens floatText (pack'.items own) := by
  have hsplit : ∀ sections : List CountedSection, sections.Nodup → own ∈ sections →
      (sections.map fun counted => itemsTokens floatText (pack'.items counted)).sum =
        (sections.map fun counted => itemsTokens floatText (pack.items counted)).sum +
          itemsTokens floatText (pack'.items own) := by
    intro sections hnodup hmem
    induction sections with
    | nil => cases hmem
    | cons first sections ih =>
      obtain ⟨hfirst, hrest⟩ := List.nodup_cons.mp hnodup
      rw [List.map_cons, List.map_cons, List.sum_cons, List.sum_cons]
      -- the section itself stands once in the list
      by_cases hsame : first = own
      · subst hsame
        have hunchanged : (sections.map fun counted =>
            itemsTokens floatText (pack'.items counted)) =
              sections.map fun counted => itemsTokens floatText (pack.items counted) :=
          List.map_congr_left fun other hother => by
            rw [hothers other (ne_of_mem_of_not_mem hother hfirst)]
        have hnothing : itemsTokens floatText [] = 0 := rfl
        rw [hunchanged, hempty, hnothing]
        omega
      · rw [hothers first hsame, ih hrest (List.mem_of_ne_of_mem (Ne.symm hsame) hmem)]
        omega
  refine hsplit CountedSection.all (by decide) ?_
  cases own with
  | ranked ranked => cases ranked <;> decide
  | _ => decide

/-- The sections are paid for, under the limit that was set. -/
structure Paid (maxTokens : Option Nat) (pack : PackSections floatText) : Prop where
  tokens_le : pack.tokens ≤ pack.ledger.budget.tokenEstimate
  limit : pack.ledger.budget.tokenBudget = maxTokens.map Int.ofNat
  offered : pack.Offered

variable {maxTokens : Option Nat}

/-- A section is offered, and what is admitted fills it. -/
theorem Paid.fill (h : pack.Paid maxTokens) (own : CountedSection) (offered : List PackItem)
    (hempty : pack.items own = []) {ledger : Ledger floatText}
    (hledger : ledger = pack.ledger ∨ ledger = pack.ledger.openSection own.name)
    (hlater : pack'.ledger = (ledger.offerAll own.name offered).2)
    (hown : pack'.items own = (ledger.offerAll own.name offered).1)
    (hothers : ∀ other, other ≠ own → pack'.items other = pack.items other) :
    pack'.Paid maxTokens := by
  obtain ⟨hextends, hestimate, -⟩ := Ledger.offerAll_spec own.name offered ledger
  -- opening a section neither charges nor admits anything
  have hextends : pack'.ledger.Extends pack.ledger own.name
      (ledger.offerAll own.name offered).1 := by
    rw [hlater]
    rcases hledger with rfl | rfl
    · exact hextends
    · exact ⟨hextends.limit, hextends.here, hextends.elsewhere⟩
  have hcharged : pack'.ledger.budget.tokenEstimate = pack.ledger.budget.tokenEstimate +
      itemsTokens floatText (pack'.items own) := by
    rw [hlater, hown, hestimate]
    rcases hledger with rfl | rfl <;> rfl
  refine ⟨?_, hextends.limit.trans h.limit, h.offered.fill hempty hextends hown hothers⟩
  rw [tokens_fill hempty hothers, hcharged]
  exact Nat.add_le_add_right h.tokens_le _

/-- What is kept of a section, and the ledger behind it, are put into the pack. -/
def put (pack : PackSections floatText) (kept : List PackItem × Ledger floatText) :
    CountedSection → PackSections floatText
  | .ranked .relevantMemories => { pack with ledger := kept.2, relevantMemories := kept.1 }
  | .ranked .openLoops => { pack with ledger := kept.2, openLoops := kept.1 }
  | .ranked .sources => { pack with ledger := kept.2, sources := kept.1 }
  | .ranked .supportingEvidence => { pack with ledger := kept.2, supportingEvidence := kept.1 }
  | .ranked .contradictingEvidence =>
    { pack with ledger := kept.2, contradictingEvidence := kept.1 }
  | .entities => { pack with ledger := kept.2, entities := kept.1 }
  | .recentChanges => { pack with ledger := kept.2, recentChanges := kept.1 }
  | .supersessionContext => { pack with ledger := kept.2, supersessionContext := kept.1 }
  | .grounding => { pack with ledger := kept.2, grounding := kept.1 }
  | .derivedValues => { pack with ledger := kept.2, derivedValues := kept.1 }

@[simp] theorem ledger_put (kept : List PackItem × Ledger floatText) (own : CountedSection) :
    (pack.put kept own).ledger = kept.2 := by
  cases own with
  | ranked ranked => cases ranked <;> rfl
  | _ => rfl

@[simp] theorem items_put_self (kept : List PackItem × Ledger floatText) (own : CountedSection) :
    (pack.put kept own).items own = kept.1 := by
  cases own with
  | ranked ranked => cases ranked <;> rfl
  | _ => rfl

theorem items_put_of_ne (kept : List PackItem × Ledger floatText) {own other : CountedSection}
    (h : other ≠ own) : (pack.put kept own).items other = pack.items other := by
  cases own with
  | ranked own => cases own <;> cases other with
    | ranked other => cases other <;> first | rfl | exact absurd rfl h
    | _ => rfl
  | _ => cases other with
    | ranked other => cases other <;> rfl
    | _ => first | rfl | exact absurd rfl h

/-- A section is offered, and what is admitted is packed. -/
def offer (pack : PackSections floatText) (own : CountedSection) (offered : List PackItem) :
    PackSections floatText :=
  pack.put (pack.ledger.offerAll own.name offered) own

theorem Paid.offer (h : pack.Paid maxTokens) (own : CountedSection) (hempty : pack.items own = [])
    (offered : List PackItem) : (pack.offer own offered).Paid maxTokens :=
  h.fill own offered hempty (.inl rfl) (ledger_put _ own) (items_put_self _ own)
    fun _ hother => items_put_of_ne _ hother

/-- What is offered later leaves the annotations of the memories and sources. -/
theorem Annotated.offer (h : pack.Annotated) {own : CountedSection}
    (hown : own.isAnnotated = false) (offered : List PackItem) :
    (pack.offer own offered).Annotated := by
  intro counted hcounted item hitem key hkey value hfound
  have hne : counted ≠ own := by
    rintro rfl
    rw [hown] at hcounted
    exact Bool.false_ne_true hcounted
  rw [PackSections.offer, items_put_of_ne _ hne] at hitem
  have hextends := (Ledger.offerAll_spec own.name offered pack.ledger).1
  rw [PackSections.offer, ledger_put]
  exact hextends.mem (h counted hcounted item hitem key hkey value hfound)

end PackSections

variable {stages : PackStages} {maxTokens : Option Nat}

/-! ### The ranked sections -/

/-- What a pack is while the ranked sections are packed: those to come are empty, as are the
supplemental ones, and the memories are those of the ranking with their provenance. -/
structure RankedInv (stages : PackStages) (maxTokens : Option Nat) (order : List RankedSection)
    (pack : PackSections floatText) : Prop where
  paid : pack.Paid maxTokens
  empty : ∀ ranked ∈ order, pack.items (.ranked ranked) = []
  supplements : ∀ counted : CountedSection, (∀ ranked, counted ≠ .ranked ranked) →
    pack.items counted = []
  memories : pack.relevantMemories.Sublist
    (stages.orderedMemories.map (withWriteProvenance stages))

theorem items_packSection (pack : PackSections floatText) (ranked : RankedSection)
    {other : CountedSection} (hother : other ≠ .ranked ranked) :
    (packSection stages pack ranked).items other = pack.items other := by
  cases ranked <;> cases other with
  | ranked other => cases other <;> first | rfl | exact absurd rfl hother
  | _ => rfl

/-- One round of the packing keeps the invariant, for a section that was not packed yet.
-/
theorem RankedInv.next {pack : PackSections floatText} {ranked : RankedSection}
    {order : List RankedSection} (h : RankedInv stages maxTokens (ranked :: order) pack)
    (hfresh : ranked ∉ order) :
    RankedInv stages maxTokens order (packSection stages pack ranked) := by
  have hempty := h.empty ranked List.mem_cons_self
  have hothers : ∀ other, other ≠ .ranked ranked →
      (packSection stages pack ranked).items other = pack.items other :=
    fun other => items_packSection pack ranked
  -- a section is filled once, from what is offered under its own name
  have hfill (offered : List PackItem)
      (hlater : (packSection stages pack ranked).ledger =
        ((pack.ledger.openSection ranked.name).offerAll ranked.name offered).2)
      (hown : (packSection stages pack ranked).items (.ranked ranked) =
        ((pack.ledger.openSection ranked.name).offerAll ranked.name offered).1) :
      (packSection stages pack ranked).Paid maxTokens :=
    h.paid.fill (.ranked ranked) offered hempty (.inr rfl) hlater hown hothers
  refine ⟨?_, fun other hmem => ?_, fun counted hsupplement => ?_, ?_⟩
  · cases ranked with
    | relevantMemories => exact hfill _ rfl rfl
    | openLoops => exact hfill _ rfl rfl
    | sources => exact hfill _ rfl rfl
    | supportingEvidence => exact hfill _ rfl rfl
    | contradictingEvidence => exact hfill _ rfl rfl
  · rw [hothers _ fun heq => hfresh (CountedSection.ranked.inj heq ▸ hmem)]
    exact h.empty other (List.mem_cons_of_mem _ hmem)
  · rw [hothers counted (hsupplement ranked)]
    exact h.supplements counted hsupplement
  · cases ranked with
    | relevantMemories => exact (Ledger.offerAll_spec _ _ _).2.2
    | openLoops => exact h.memories
    | sources => exact h.memories
    | supportingEvidence => exact h.memories
    | contradictingEvidence => exact h.memories

theorem RankedInv.of_order {order : List RankedSection} (hnodup : order.Nodup)
    {pack : PackSections floatText} (h : RankedInv stages maxTokens order pack) :
    RankedInv stages maxTokens [] (order.foldl (packSection stages) pack) := by
  induction order generalizing pack with
  | nil => exact h
  | cons ranked order ih =>
    obtain ⟨hfresh, hrest⟩ := List.nodup_cons.mp hnodup
    exact ih hrest (h.next hfresh)

theorem nodup_budgetSectionOrder (strategy : BudgetStrategy) (view : PackView) :
    (budgetSectionOrder strategy view).Nodup := by
  cases strategy <;> cases view <;> decide

/-- Before the first section nothing is packed and nothing was spent. -/
theorem rankedInv_start (maxTokens : Option Nat) (strategy : String) (order : List RankedSection) :
    RankedInv stages maxTokens order
      ({ ledger := Ledger.start maxTokens strategy } : PackSections floatText) where
  paid := by
    refine ⟨le_rfl, rfl, fun counted _ => ?_, fun counted _ => ?_⟩
    · cases counted with
      | ranked ranked => cases ranked <;> rfl
      | _ => rfl
    · cases counted with
      | ranked ranked => cases ranked <;> exact List.Perm.refl _
      | _ => exact List.Perm.refl _
  empty ranked _ := by cases ranked <;> rfl
  supplements counted hsupplement := by
    cases counted with
    | ranked ranked => exact absurd rfl (hsupplement ranked)
    | _ => rfl
  memories := List.nil_sublist _

/-! ### The annotations -/

/-- A note under another key does not change the id. -/
theorem packMemoryId_withNote (env : CurrencyEnv) (item : PackItem) {key : String}
    (hkey : key ≠ "id") (note : Option PackItem) :
    packMemoryId env (withNote item key note) = packMemoryId env item := by
  cases note with
  | none => rfl
  | some note =>
    have hrow : currencyRow (withNote item key (some note)) =
        Dict.set (currencyRow item) key (PackValue.dict note).jsonSafe :=
      PackValue.jsonSafeFields_set item key _
    rw [packMemoryId, hrow, CurrencyEnv.memoryId, Dict.item, Dict.get?_set_of_ne _ _ hkey]
    rfl

/-- The packed memories with their notes, one for one, in the order of their currency chains. -/
theorem annotatedMemories_perm {memories : List PackItem} (hmemories : memories.Sublist
      (stages.orderedMemories.map (withWriteProvenance stages))) :
    ∃ note : PackItem → Option PackItem, (annotatedMemories stages memories).Perm
      (memories.map fun memory => withNote
        (annotateMemory stages (supersededByPackmate stages memories) memory) "currency"
        (note (annotateMemory stages (supersededByPackmate stages memories) memory))) := by
  generalize hhints : supersededByPackmate stages memories = hints
  obtain ⟨annotated, hannotated⟩ :
    ∃ annotated, annotated = memories.map (annotateMemory stages hints) := ⟨_, rfl⟩
  have hplain : annotated.Perm (memories.map fun memory =>
      withNote (annotateMemory stages hints memory) "currency" none) := by
    rw [hannotated]
    exact .refl _
  unfold annotatedMemories currencyStage
  rw [hhints, ← hannotated]
  cases henv : stages.currency with
  | none => exact ⟨fun _ => none, hplain⟩
  | some env =>
    dsimp only
    split
    · exact ⟨fun _ => none, hplain⟩
    · -- the ids are those of the ranking, so they are distinct
      have hids : (annotated.map (packMemoryId env)).Nodup := by
        have hannotatedIds : annotated.map (packMemoryId env) =
            memories.map (packMemoryId env) := by
          rw [hannotated, List.map_map]
          refine List.map_congr_left fun memory _ => ?_
          exact (packMemoryId_withNote env _ (by decide) _).trans
            (packMemoryId_withNote env _ (by decide) _)
        have hranked : (stages.orderedMemories.map (withWriteProvenance stages)).map
            (packMemoryId env) = stages.orderedMemories.map (packMemoryId env) := by
          rw [List.map_map]
          exact List.map_congr_left fun memory _ => packMemoryId_withNote env _ (by decide) _
        rw [hannotatedIds]
        have hsub := hmemories.map (packMemoryId env)
        rw [hranked] at hsub
        exact (stages.distinct env henv).sublist hsub
      refine ⟨fun memory => ((buildCurrencyChains env (annotated.map currencyRow)).annotations.get?
        (packMemoryId env memory)).map CurrencyAnnotation.item, ?_⟩
      have hperm := applyCurrency_perm hids
      generalize buildCurrencyChains env (annotated.map currencyRow) = result at hperm ⊢
      rw [hannotated, List.map_map] at hperm
      rw [hannotated]
      exact hperm

/-- Rows in another order cost the same, and a note costs nothing yet. -/
theorem bareTokens_annotatedMemories {memories : List PackItem} (hmemories : memories.Sublist
      (stages.orderedMemories.map (withWriteProvenance stages))) :
    ((annotatedMemories stages memories).map (bareTokens floatText)).sum ≤
      itemsTokens floatText memories := by
  obtain ⟨note, hperm⟩ := annotatedMemories_perm hmemories
  rw [(hperm.map _).sum_nat, List.map_map, itemsTokens]
  refine List.sum_le_sum fun memory _ => ?_
  refine (bareTokens_withNote _ (by decide) _).trans ?_
  refine (bareTokens_withNote _ (by decide) _).trans ?_
  exact (bareTokens_withNote _ (by decide) _).trans (bareTokens_le memory)

/-- But for its annotations a packed memory is as it was packed. -/
theorem withoutAnnotations_annotatedMemories {memories : List PackItem}
    (hmemories : memories.Sublist
      (stages.orderedMemories.map (withWriteProvenance stages))) :
    ((annotatedMemories stages memories).map withoutAnnotations).Perm
      (memories.map withoutAnnotations) := by
  obtain ⟨note, hperm⟩ := annotatedMemories_perm hmemories
  refine (hperm.map _).trans (List.Perm.of_eq ?_)
  rw [List.map_map]
  refine List.map_congr_left fun memory _ => ?_
  refine (withoutAnnotations_withNote _ (by decide) _).trans ?_
  exact (withoutAnnotations_withNote _ (by decide) _).trans
    (withoutAnnotations_withNote _ (by decide) _)

theorem openSections_same (names : List String) (ledger : Ledger floatText) :
    (names.foldl Ledger.openSection ledger).offers = ledger.offers ∧
      (names.foldl Ledger.openSection ledger).budget.tokenBudget = ledger.budget.tokenBudget ∧
      (names.foldl Ledger.openSection ledger).budget.tokenEstimate =
        ledger.budget.tokenEstimate := by
  induction names generalizing ledger with
  | nil => exact ⟨rfl, rfl, rfl⟩
  | cons name names ih => exact ih (ledger.openSection name)

theorem tokens_annotate {pack pack' : PackSections floatText}
    (hplain : ∀ counted : CountedSection, counted.isAnnotated = false →
      pack'.items counted = pack.items counted) :
    pack'.tokens + itemsTokens floatText pack.relevantMemories +
        itemsTokens floatText pack.sources =
      pack.tokens + itemsTokens floatText pack'.relevantMemories +
        itemsTokens floatText pack'.sources := by
  unfold PackSections.tokens CountedSection.all
  simp only [List.map_cons, List.map_nil, List.sum_cons, List.sum_nil]
  rw [hplain (.ranked .openLoops) rfl, hplain (.ranked .supportingEvidence) rfl,
    hplain (.ranked .contradictingEvidence) rfl, hplain .entities rfl, hplain .recentChanges rfl,
    hplain .supersessionContext rfl, hplain .grounding rfl, hplain .derivedValues rfl]
  dsimp only [PackSections.items]
  omega

/-- The notes of the memories and of the sources are paid for as well, and whatever note
an item has was admitted by the ledger. -/
theorem paid_packAnnotations {pack : PackSections floatText} (h : pack.Paid maxTokens)
    (hmemories : pack.relevantMemories.Sublist
      (stages.orderedMemories.map (withWriteProvenance stages))) :
    let annotated := packAnnotations (annotatedMemories stages pack.relevantMemories) pack
    annotated.Paid maxTokens ∧ annotated.Annotated := by
  -- the supplemental sections are opened first, which admits nothing
  obtain ⟨opened, hopened⟩ : ∃ opened,
    opened = supplementalBudgetSections.foldl Ledger.openSection pack.ledger := ⟨_, rfl⟩
  obtain ⟨hoffers, hlimit, hestimate⟩ := openSections_same supplementalBudgetSections pack.ledger
  obtain ⟨annotated, hannotated⟩ : ∃ annotated,
    annotated = annotatedMemories stages pack.relevantMemories := ⟨_, rfl⟩
  -- then the notes of the memories are offered, and after them those of the sources
  have hle := estimate_settleItems annotated opened
  have hle' := estimate_settleItems pack.sources (settleItems annotated opened).2
  obtain ⟨notes, hextends, hbare, hadmitted⟩ := settleItems_spec annotated opened
  obtain ⟨notes', hextends', hbare', hadmitted'⟩ :=
    settleItems_spec pack.sources (settleItems annotated opened).2
  have hboth := hextends'.trans hextends
  -- so the ledger differs from the one before in what `item_annotations` was admitted
  have hfrom : (settleItems pack.sources (settleItems annotated opened).2).2.Extends pack.ledger
      "item_annotations" (notes ++ notes') := by
    have hsame : ∀ name, opened.admittedItems name = pack.ledger.admittedItems name := by
      intro name
      unfold Ledger.admittedItems
      rw [hopened, hoffers]
    exact ⟨hboth.limit.trans (by rw [hopened, hlimit]), by rw [hboth.here, hsame],
      fun name hname => (hboth.elsewhere name hname).trans (hsame name)⟩
  rw [← hopened] at hestimate
  -- without its notes an item costs no more than it was charged for
  have hcost : (annotated.map (bareTokens floatText)).sum ≤
      itemsTokens floatText pack.relevantMemories := by
    rw [hannotated]
    exact bareTokens_annotatedMemories hmemories
  have hcost' : (pack.sources.map (bareTokens floatText)).sum ≤
      itemsTokens floatText pack.sources :=
    List.sum_le_sum fun source _ => bareTokens_le source
  obtain ⟨pack', hpack'⟩ : ∃ pack', pack' = packAnnotations annotated pack := ⟨_, rfl⟩
  have hledger : pack'.ledger = (settleItems pack.sources (settleItems annotated opened).2).2 := by
    rw [hpack', hopened]
    rfl
  have hpackMemories : pack'.relevantMemories = (settleItems annotated opened).1 := by
    rw [hpack', hopened]
    rfl
  have hpackSources : pack'.sources =
      (settleItems pack.sources (settleItems annotated opened).2).1 := by
    rw [hpack', hopened]
    rfl
  -- no other section is touched
  have hplain : ∀ counted : CountedSection, counted.isAnnotated = false →
      pack'.items counted = pack.items counted := by
    intro counted hcounted
    rw [hpack']
    cases counted with
    | ranked ranked => cases ranked <;> first | rfl | exact absurd hcounted (by decide)
    | _ => rfl
  have htokens := tokens_annotate hplain
  rw [← hannotated, ← hpack']
  refine ⟨⟨?_, ?_, h.offered.annotate (hledger ▸ hfrom) hplain fun counted hcounted => ?_⟩, ?_⟩
  · -- paid: the tokens grow by the notes, the estimate by their cost
    have hpaid := h.tokens_le
    rw [hpackMemories, hpackSources] at htokens
    rw [hledger]
    omega
  · rw [hledger, hfrom.limit]
    exact h.limit
  · -- offered: without their notes the items are those that were admitted
    cases counted with
    | ranked ranked => cases ranked with
      | relevantMemories =>
        show (pack'.relevantMemories.map _).Perm (pack.relevantMemories.map _)
        rw [hpackMemories, hbare, hannotated]
        exact withoutAnnotations_annotatedMemories hmemories
      | sources =>
        show (pack'.sources.map _).Perm (pack.sources.map _)
        rw [hpackSources, hbare']
      | _ => cases hcounted
    | _ => cases hcounted
  · -- annotated: a note of an item was admitted with it
    intro counted hcounted item hitem key hkey value hfound
    rw [hledger, hfrom.here]
    refine List.mem_append_right _ ?_
    cases counted with
    | ranked ranked => cases ranked with
      | relevantMemories =>
        exact List.mem_append_left _ (hadmitted item (hpackMemories ▸ hitem) key hkey value hfound)
      | sources =>
        exact List.mem_append_right _
          (hadmitted' item (hpackSources ▸ hitem) key hkey value hfound)
      | _ => cases hcounted
    | _ => cases hcounted

/-! ### The supplements and the times -/

/-- The supplements are offered to the ledger as the sections are, so what is packed of
them is paid for. -/
theorem paid_packSupplements {pack : PackSections floatText} (h : pack.Paid maxTokens)
    (hannotated : pack.Annotated) (hempty : ∀ counted : CountedSection,
      (∀ ranked, counted ≠ .ranked ranked) → pack.items counted = [])
    (annotated : List PackItem) :
    let supplemented := packSupplements stages annotated pack
    supplemented.Paid maxTokens ∧ supplemented.Annotated ∧ supplemented.derivedValues = [] := by
  have hsections : packSupplements stages annotated pack =
      (((pack.offer .entities stages.matchedEntities).offer .recentChanges
        stages.recentChanges).offer .supersessionContext
          (stages.supersessionContext annotated)).offer .grounding stages.grounding.toList := rfl
  rw [hsections]
  refine ⟨?_, ?_, hempty .derivedValues (by simp)⟩
  · -- each section is empty when it is offered
    have hentities := h.offer .entities (hempty .entities (by simp)) stages.matchedEntities
    have hchanges := hentities.offer .recentChanges (hempty .recentChanges (by simp))
      stages.recentChanges
    have hcontext := hchanges.offer .supersessionContext (hempty .supersessionContext (by simp))
      (stages.supersessionContext annotated)
    exact hcontext.offer .grounding (hempty .grounding (by simp)) stages.grounding.toList
  · exact (((hannotated.offer rfl _).offer rfl _).offer rfl _).offer rfl _

/-- The memories and sources with their event times. -/
def packStamps (stages : PackStages) (pack : PackSections floatText) : PackSections floatText :=
  let memories := stampEventTimes stages.memoryEventTime pack.relevantMemories pack.ledger
  let sources := stampEventTimes stages.sourceEventTime pack.sources memories.2
  { pack with ledger := sources.2, relevantMemories := memories.1, sources := sources.1 }

/-- The stamps of event times are paid for as well, and are notes that the ledger
admitted. -/
theorem paid_packStamps {pack : PackSections floatText} (h : pack.Paid maxTokens)
    (hannotated : pack.Annotated) :
    (packStamps stages pack).Paid maxTokens ∧ (packStamps stages pack).Annotated := by
  have hle := estimate_stampEventTimes stages.memoryEventTime pack.relevantMemories pack.ledger
  have hle' := estimate_stampEventTimes stages.sourceEventTime pack.sources
    (stampEventTimes stages.memoryEventTime pack.relevantMemories pack.ledger).2
  obtain ⟨notes, hextends, hbare, hadmitted⟩ :=
    stampEventTimes_spec stages.memoryEventTime pack.relevantMemories pack.ledger
  obtain ⟨notes', hextends', hbare', hadmitted'⟩ := stampEventTimes_spec stages.sourceEventTime
    pack.sources (stampEventTimes stages.memoryEventTime pack.relevantMemories pack.ledger).2
  have hboth : (packStamps stages pack).ledger.Extends pack.ledger "item_annotations"
      (notes ++ notes') := hextends'.trans hextends
  have hplain : ∀ counted : CountedSection, counted.isAnnotated = false →
      (packStamps stages pack).items counted = pack.items counted := by
    intro counted hcounted
    cases counted with
    | ranked ranked => cases ranked <;> first | rfl | exact absurd hcounted (by decide)
    | _ => rfl
  have htokens := tokens_annotate hplain
  refine ⟨⟨?_, hboth.limit.trans h.limit, h.offered.annotate hboth hplain
    fun counted hcounted => ?_⟩, ?_⟩
  · have hpaid := h.tokens_le
    dsimp only [packStamps] at htokens ⊢
    omega
  · cases counted with
    | ranked ranked => cases ranked with
      | relevantMemories => exact .of_eq hbare
      | sources => exact .of_eq hbare'
      | _ => cases hcounted
    | _ => cases hcounted
  · -- a stamp was admitted, and other annotations are those from before
    intro counted hcounted item hitem key hkey value hfound
    have hbefore : ∀ old ∈ pack.items counted, annotation? old key = some value →
        [(key, value)] ∈ (packStamps stages pack).ledger.admittedItems "item_annotations" :=
      fun old hold hsame => hboth.mem (hannotated counted hcounted old hold key hkey value hsame)
    cases counted with
    | ranked ranked => cases ranked with
      | relevantMemories =>
        rcases hadmitted item hitem key value hfound with hnote | ⟨old, hold, hsame⟩
        · rw [hboth.here]
          exact List.mem_append_right _ (List.mem_append_left _ hnote)
        · exact hbefore old hold hsame
      | sources =>
        rcases hadmitted' item hitem key value hfound with hnote | ⟨old, hold, hsame⟩
        · rw [hboth.here]
          exact List.mem_append_right _ (List.mem_append_right _ hnote)
        · exact hbefore old hold hsame
      | _ => cases hcounted
    | _ => cases hcounted

theorem paid_packTimes {pack : PackSections floatText} (h : pack.Paid maxTokens)
    (hannotated : pack.Annotated) (hempty : pack.derivedValues = []) :
    (packTimes stages pack).Paid maxTokens ∧ (packTimes stages pack).Annotated := by
  have hsections : packTimes stages pack = (packStamps stages pack).offer .derivedValues
      (stages.derivedValues (pack.relevantMemories.filterMap stages.memoryEventTime ++
        pack.sources.filterMap stages.sourceEventTime)).toList := rfl
  obtain ⟨hpaid, hstamped⟩ : (packStamps stages pack).Paid maxTokens ∧
      (packStamps stages pack).Annotated := paid_packStamps h hannotated
  rw [hsections]
  exact ⟨hpaid.offer .derivedValues hempty _, hstamped.offer rfl _⟩

/-- A memory with a text from a chunk of a source. -/
def followersItem (id text sourceId : String) (chunkIndex : Int) : PackItem :=
  [("id", .other id), ("canonical_text", .str text),
    ("metadata_json", .dict
      [("source_id", .str sourceId), ("source_chunk_index", .int chunkIndex)])]

/-- Two memories that state a number of followers, the newer one ranked first, and their source. -/
def followersStages : PackStages where
  orderedMemories :=
    [followersItem "b" "[USER]: I'm now at 600 followers on Instagram." "source-1" 1,
      followersItem "a" "[USER]: I just reached 500 followers on Instagram." "source-1" 0]
  rankedOpenLoops := []
  rankedSources := [[("id", .str "source-1"), ("title", .str "Chat")]]
  writeProvenance _ := none
  supportingEvidence _ := []
  contradictingEvidence _ := []
  memoryId := packMemoryId followersEnv
  supersedes _ := none
  staleness _ := none
  validity _ _ := none
  currency := some followersEnv
  distinct env henv := by
    obtain rfl := Option.some.inj henv
    decide
  supersessionContext _ := []
  recentChanges := []
  matchedEntities := []
  grounding := none
  memoryEventTime _ := some "2023-05-28T00:00:00+00:00"
  sourceEventTime _ := none
  derivedValues _ := none

def followersPack : PackSections fun _ => [] :=
  compileSections followersStages (fun _ => []) (some 160) .balanced .facts

end Pack

end AliceBot
