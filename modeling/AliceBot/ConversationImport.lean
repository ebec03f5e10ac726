import AliceBot.ConversationTranscripts
import AliceBot.DateNormalisers
import Mathlib.Data.Finset.Max

/-!
# Conversations that abort or misdate an import

`keepsEveryConversation_iff` says of every export when its import makes a transcript of
each conversation, counts it and dates it by its messages. Three things go wrong: a time
that overflows raises, a walk deeper than the call frames raises, and the text of a whole
second sorts behind the texts of its fractions.

Three layers lead there: the order of the texts of moments (`min?_texts_iff`,
`max?_texts_iff`), the loop over the messages (`transcribe_returns_iff`,
`transcribe_timestamps`) and the loop over the captures (`importChatgptExport_counts`).
-/

namespace AliceBot

open PyLib

/-! ### The texts of moments -/

section Texts

/-- A whole second, and a fraction of the same second. -/
def SharesSecond (whole part : UtcMoment) : Prop :=
  whole.seconds = part.seconds ∧ whole.clock.micro = 0 ∧ part.clock.micro ≠ 0

/-- The second of the earliest moments is not shared. -/
def EarliestAlone (moments : List UtcMoment) : Prop :=
  ∀ whole ∈ moments, ∀ part ∈ moments, (∀ m ∈ moments, whole.seconds ≤ m.seconds) →
    ¬ SharesSecond whole part

/-- The second of the latest moments is not shared. -/
def LatestAlone (moments : List UtcMoment) : Prop :=
  ∀ whole ∈ moments, ∀ part ∈ moments, (∀ m ∈ moments, m.seconds ≤ whole.seconds) →
    ¬ SharesSecond whole part

/-- The text of the earliest moment, if there is a moment. -/
def DatesEarliest (moments : List UtcMoment) (text : Option String) : Prop :=
  (moments = [] ∧ text = none) ∨ ∃ first ∈ moments,
    (∀ m ∈ moments, first.instant ≤ m.instant) ∧ text = some (stampText false first)

/-- The text of the latest moment, if there is a moment. -/
def DatesLatest (moments : List UtcMoment) (text : Option String) : Prop :=
  (moments = [] ∧ text = none) ∨ ∃ last ∈ moments,
    (∀ m ∈ moments, m.instant ≤ last.instant) ∧ text = some (stampText false last)

theorem seconds_le_of_instant_le {u v : UtcMoment} (h : u.instant ≤ v.instant) :
    u.seconds ≤ v.seconds := by
  have hu := u.clock.micro_lt
  have hv := v.clock.micro_lt
  rw [u.instant_eq, v.instant_eq] at h
  omega

/-- A whole second is written behind every fraction of it. -/
theorem stampText_lt_of_sharesSecond {whole part : UtcMoment} (h : SharesSecond whole part) :
    stampText false part < stampText false whole := by
  obtain ⟨hseconds, hwhole, hpart⟩ := h
  rw [String.lt_iff_toList_lt, stampText_toList, stampText_toList,
    UtcMoment.fields_eq_of_seconds_eq hseconds]
  refine List.append_left_lt ?_
  rw [isoFraction, if_neg fun hboth => hpart hboth.1, isoFraction, if_pos ⟨hwhole, rfl⟩]
  exact List.cons_lt_cons_iff.mpr (.inl (by decide))

/-- Texts without a pinned fraction are in order, unless a second is shared. -/
theorem stampText_le {u v : UtcMoment} (h : u.instant ≤ v.instant) (hshares : ¬ SharesSecond u v) :
    stampText false u ≤ stampText false v := by
  rcases Int.lt_or_eq_of_le h with hlt | heq
  · refine le_of_lt ((stampText_lt_iff hlt false false).mpr ?_)
    rintro ⟨hmicro, hseconds, _⟩
    refine hshares ⟨hseconds, hmicro, fun hzero => ?_⟩
    rw [u.instant_eq, v.instant_eq, hseconds, hmicro, hzero] at hlt
    exact absurd hlt (lt_irrefl _)
  · rw [UtcMoment.eq_of_instant_eq heq]

variable {moments : List UtcMoment}

theorem exists_earliest (h : moments ≠ []) :
    ∃ first ∈ moments, ∀ m ∈ moments, first.instant ≤ m.instant := by
  obtain ⟨first, hfirst, hle⟩ := moments.toFinset.exists_min_image UtcMoment.instant
    (List.toFinset_nonempty_iff _ |>.mpr h)
  exact ⟨first, List.mem_toFinset.mp hfirst, fun m hm => hle m (List.mem_toFinset.mpr hm)⟩

theorem exists_latest (h : moments ≠ []) :
    ∃ last ∈ moments, ∀ m ∈ moments, m.instant ≤ last.instant := by
  obtain ⟨last, hlast, hle⟩ := moments.toFinset.exists_max_image UtcMoment.instant
    (List.toFinset_nonempty_iff _ |>.mpr h)
  exact ⟨last, List.mem_toFinset.mp hlast, fun m hm => hle m (List.mem_toFinset.mpr hm)⟩

/-- The smallest text is that of the earliest moment, unless its second is shared. -/
theorem min?_texts_iff :
    DatesEarliest moments (moments.map (stampText false)).min? ↔ EarliestAlone moments := by
  by_cases hnone : moments = []
  · subst hnone
    exact iff_of_true (Or.inl ⟨rfl, rfl⟩) fun whole h => absurd h List.not_mem_nil
  refine ⟨fun hdates whole hwhole part hpart hmin hshares => ?_, fun halone => ?_⟩
  · obtain ⟨hempty, _⟩ | ⟨first, hfirst, hearliest, htext⟩ := hdates
    · exact hnone hempty
    · -- the earliest moment is the whole second, and the fraction has a smaller text
      have hle := hearliest whole hwhole
      have hsame : first.seconds = whole.seconds :=
        le_antisymm (seconds_le_of_instant_le hle) (hmin first hfirst)
      have hmicro : first.clock.micro = 0 := by
        rw [first.instant_eq, whole.instant_eq, hsame, hshares.2.1] at hle
        omega
      have hless : stampText false part < stampText false first :=
        stampText_lt_of_sharesSecond ⟨hsame.trans hshares.1, hmicro, hshares.2.2⟩
      have hleast := (List.min?_eq_some_iff.mp htext).2 _ (List.mem_map_of_mem hpart)
      exact absurd hless (not_lt.mpr hleast)
  · obtain ⟨first, hfirst, hearliest⟩ := exists_earliest hnone
    refine Or.inr ⟨first, hfirst, hearliest, List.min?_eq_some_iff.mpr
      ⟨List.mem_map_of_mem hfirst, fun text htext => ?_⟩⟩
    obtain ⟨m, hm, rfl⟩ := List.mem_map.mp htext
    refine stampText_le (hearliest m hm) (halone first hfirst m hm fun other hother => ?_)
    exact seconds_le_of_instant_le (hearliest other hother)

/-- The greatest text is that of the latest moment, unless its second is shared. -/
theorem max?_texts_iff :
    DatesLatest moments (moments.map (stampText false)).max? ↔ LatestAlone moments := by
  by_cases hnone : moments = []
  · subst hnone
    exact iff_of_true (Or.inl ⟨rfl, rfl⟩) fun whole h => absurd h List.not_mem_nil
  refine ⟨fun hdates whole hwhole part hpart hmax hshares => ?_, fun halone => ?_⟩
  · obtain ⟨hempty, _⟩ | ⟨last, hlast, hlatest, htext⟩ := hdates
    · exact hnone hempty
    · -- the latest moment is a fraction, and the whole second has a greater text
      have hle := hlatest part hpart
      have hsame : whole.seconds = last.seconds := by
        refine le_antisymm ?_ (hmax last hlast)
        exact seconds_le_of_instant_le (hlatest whole hwhole)
      have hmicro : last.clock.micro ≠ 0 := by
        have hpart := hshares.2.2
        rw [part.instant_eq, last.instant_eq, ← hsame, hshares.1] at hle
        omega
      have hless := stampText_lt_of_sharesSecond ⟨hsame, hshares.2.1, hmicro⟩
      have hgreatest := (List.max?_eq_some_iff.mp htext).2 _ (List.mem_map_of_mem hwhole)
      exact absurd hless (not_lt.mpr hgreatest)
  · obtain ⟨last, hlast, hlatest⟩ := exists_latest hnone
    refine Or.inr ⟨last, hlast, hlatest, List.max?_eq_some_iff.mpr
      ⟨List.mem_map_of_mem hlast, fun text htext => ?_⟩⟩
    obtain ⟨m, hm, rfl⟩ := List.mem_map.mp htext
    refine stampText_le (hlatest m hm) fun hshares => ?_
    refine halone m hm last hlast (fun other hother => ?_) hshares
    rw [hshares.1]
    exact seconds_le_of_instant_le (hlatest other hother)

end Texts

/-! ### Timestamps that raise -/

section Times

variable (env : ExportEnv)

/-- The value raises `OverflowError`: an integer beyond the floats, or a text whose
instant is outside the calendar. -/
def Overflows : Json → Prop
  | .int n => nearestDouble n = none
  | .str value => strip value ≠ "" ∧ env.readFloat (strip value) = none ∧
      ∃ parsed, env.fromisoformat (replaceAll (strip value) "Z" "+00:00") = some parsed ∧
        ¬ InCalendar parsed.moment.instant
  | _ => False

/-- The moment of a value, if it has one. -/
def timeOf (value : Json) : Option UtcMoment := (chatgptMoment env value).toOption.join

theorem chatgptMoment_int (n : Int) : chatgptMoment env (.int n) =
    match nearestDouble n with
    | some numeric => .ok (env.fromtimestamp numeric)
    | none => .error .overflow := by
  delta chatgptMoment
  rfl

theorem chatgptMoment_str (value : String) : chatgptMoment env (.str value) =
    if strip value = "" then .ok none
    else match env.readFloat (strip value) with
      | some numeric => .ok (numeric.bind env.fromtimestamp)
      | none =>
        match env.fromisoformat (replaceAll (strip value) "Z" "+00:00") with
        | none => .ok none
        | some parsed =>
          match parsed.moment.toUtc with
          | some u => .ok (some u)
          | none => .error .overflow := by
  delta chatgptMoment
  rfl

theorem chatgptMoment_float (q : Rat) : chatgptMoment env (.float q) =
    .ok ((nearestDouble q).bind env.fromtimestamp) := by
  delta chatgptMoment
  rfl

variable {env}

theorem returns_toOption_iff {α : Type} {run : Except CaptureError (Option α)} :
    run = .ok run.toOption.join ↔ ∀ e, run ≠ .error e := by
  cases run with
  | error e => exact iff_of_false (fun h => nomatch h) fun h => h e rfl
  | ok found => exact iff_of_true rfl fun e h => nomatch h

/-- A time is read, as itself or as none, unless its conversion overflows. -/
theorem chatgptMoment_returns_iff (value : Json) :
    chatgptMoment env value = .ok (timeOf env value) ↔ ¬ Overflows env value := by
  rw [timeOf, returns_toOption_iff]
  cases value with
  | int n =>
    -- an integer is turned into a double, and one that is too great raises
    rw [chatgptMoment_int, Overflows]
    generalize nearestDouble n = numeric
    cases numeric with
    | none => exact iff_of_false (fun h => h _ rfl) fun h => h rfl
    | some numeric => exact iff_of_true (fun e h => nomatch h) fun h => nomatch h
  | str value =>
    rw [chatgptMoment_str, Overflows]
    by_cases hblank : strip value = ""
    · rw [if_pos hblank]
      exact iff_of_true (fun e h => nomatch h) fun h => h.1 hblank
    rw [if_neg hblank]
    -- a text is a number or an ISO date, and a date may fall off the calendar in UTC
    cases hfloat : env.readFloat (strip value) with
    | some numeric => exact iff_of_true (fun e h => nomatch h) fun h => nomatch h.2.1
    | none =>
      cases hparsed : env.fromisoformat (replaceAll (strip value) "Z" "+00:00") with
      | none =>
        refine iff_of_true (fun e h => nomatch h) fun h => ?_
        obtain ⟨_, _, parsed, hsome, _⟩ := h
        exact nomatch hsome
      | some parsed =>
        have hutc := toUtc_eq_none_iff parsed
        cases hmoment : parsed.moment.toUtc with
        | none =>
          refine iff_of_false (fun h => ?_) fun h => ?_
          · exact h .overflow (by simp only [hmoment])
          · exact h ⟨hblank, rfl, parsed, rfl, hutc.mp hmoment⟩
        | some u =>
          refine iff_of_true (fun e h => ?_) fun h => ?_
          · simp only [hmoment] at h
            exact nomatch h
          · obtain ⟨_, _, other, hother, hout⟩ := h
            cases hother
            exact nomatch hmoment.symm.trans (hutc.mpr hout)
  | float q =>
    rw [chatgptMoment_float]
    exact iff_of_true (fun e h => nomatch h) fun h => h
  | null => exact iff_of_true (fun e h => nomatch h) fun h => h
  | bool b => exact iff_of_true (fun e h => nomatch h) fun h => h
  | arr items => exact iff_of_true (fun e h => nomatch h) fun h => h
  | obj fields => exact iff_of_true (fun e h => nomatch h) fun h => h

theorem chatgptTimestamp_eq_ok {value : Json} (h : ¬ Overflows env value) :
    chatgptTimestamp env value = .ok ((timeOf env value).map (stampText false)) := by
  rw [chatgptTimestamp, (chatgptMoment_returns_iff value).mpr h]
  rfl

theorem chatgptTimestamp_eq_error {value : Json} (h : Overflows env value) :
    ∃ e, chatgptTimestamp env value = .error e := by
  rw [chatgptTimestamp]
  cases hmoment : chatgptMoment env value with
  | error e => exact ⟨e, rfl⟩
  | ok moment =>
    refine absurd h ((chatgptMoment_returns_iff value).mp ?_)
    rw [timeOf, hmoment]
    rfl

theorem chatgptTimestamp_returns_iff {value : Json} :
    (∃ text, chatgptTimestamp env value = .ok text) ↔ ¬ Overflows env value := by
  constructor
  · rintro ⟨text, htext⟩ hover
    obtain ⟨e, he⟩ := chatgptTimestamp_eq_error hover
    exact nomatch he.symm.trans htext
  · intro hsafe
    exact ⟨_, chatgptTimestamp_eq_ok hsafe⟩

/-! ### The messages of a transcript -/

/-- The nodes of a conversation, in the order of the export. -/
def conversationNodes (conversation : Dict Json) : List (Dict Json) :=
  match conversation.get? "messages" with
  | some (.arr messages) => mappingsOf messages
  | _ => (conversationMapping conversation).map Prod.snd

/-- The times of the messages that have a text. -/
def messageTimes (nodes : List (Dict Json)) : List Json :=
  (nodes.filter fun node => decide (chatgptMessageParts (chatgptMessage node) ≠ [])).map messageTime

variable (env) in
/-- The moments of the dated messages. -/
def messageMoments (nodes : List (Dict Json)) : List UtcMoment :=
  (messageTimes nodes).filterMap (timeOf env)

/-- The walk over the nodes has the call frames it takes. -/
def WalkFits (frames : Nat) (conversation : Dict Json) : Prop :=
  (orderedChatgptNodes frames conversation).isSome = true

theorem messageTimes_cons (node : Dict Json) (nodes : List (Dict Json)) :
    messageTimes (node :: nodes) = messageTimes [node] ++ messageTimes nodes := by
  rw [messageTimes, messageTimes, messageTimes, ← List.map_append, ← List.filter_append]
  rfl

theorem messageMoments_cons (node : Dict Json) (nodes : List (Dict Json)) :
    messageMoments env (node :: nodes) = messageMoments env [node] ++ messageMoments env nodes := by
  rw [messageMoments, messageTimes_cons, List.filterMap_append]
  rfl

theorem nodes_of_messages {conversation : Dict Json} {messages : List Json}
    (h : conversation.get? "messages" = some (.arr messages)) (frames : Nat) :
    orderedChatgptNodes frames conversation = some (mappingsOf messages) ∧
      conversationNodes conversation = mappingsOf messages := by
  constructor
  · unfold orderedChatgptNodes
    rw [h]
    rfl
  · unfold conversationNodes
    rw [h]

/-- A conversation without a list of messages has the nodes of its mapping, in the order
of the walk. -/
theorem nodes_of_mapping {conversation : Dict Json}
    (h : ∀ messages, conversation.get? "messages" ≠ some (.arr messages)) (frames : Nat) :
    orderedChatgptNodes frames conversation =
        (orderedIds (conversationMapping conversation) frames conversation).map
          (fun ids => ids.filterMap (conversationMapping conversation).get?) ∧
      conversationNodes conversation = (conversationMapping conversation).map Prod.snd := by
  constructor
  · unfold orderedChatgptNodes
    split
    · rename_i messages hmessages
      exact absurd hmessages (h messages)
    · rfl
  · unfold conversationNodes
    split
    · rename_i messages hmessages
      exact absurd hmessages (h messages)
    · rfl

/-- The walk has every node of the conversation. -/
theorem orderedChatgptNodes_perm {frames : Nat} {conversation : Dict Json}
    {nodes : List (Dict Json)} (h : orderedChatgptNodes frames conversation = some nodes) :
    nodes.Perm (conversationNodes conversation) := by
  by_cases hlist : ∃ messages, conversation.get? "messages" = some (.arr messages)
  · obtain ⟨messages, hmessages⟩ := hlist
    obtain ⟨hwalk, hnodes⟩ := nodes_of_messages hmessages frames
    rw [hnodes, Option.some.inj (h.symm.trans hwalk)]
  · obtain ⟨hwalk, hnodes⟩ := nodes_of_mapping (not_exists.mp hlist) frames
    rw [hwalk] at h
    obtain ⟨ids, hids, rfl⟩ := Option.map_eq_some_iff.mp h
    have hnodup := nodup_nodeIds conversation
    rw [hnodes, ← filterMap_get?_keys hnodup]
    exact (orderedIds_perm hnodup hids).filterMap (conversationMapping conversation).get?

/-- A frame more than there are nodes is enough. -/
theorem walkFits_of_length_lt {frames : Nat} {conversation : Dict Json}
    (h : (conversationMapping conversation).length < frames) : WalkFits frames conversation := by
  unfold WalkFits
  by_cases hlist : ∃ messages, conversation.get? "messages" = some (.arr messages)
  · obtain ⟨messages, hmessages⟩ := hlist
    rw [(nodes_of_messages hmessages frames).1, Option.isSome_some]
  · obtain ⟨ids, hids⟩ : ∃ ids,
        orderedIds (conversationMapping conversation) frames conversation = some ids :=
      exists_orderedIds h
    rw [(nodes_of_mapping (not_exists.mp hlist) frames).1, hids, Option.map_some,
      Option.isSome_some]

/-- The times do not depend on the order of the nodes. -/
theorem messageTimes_perm {nodes nodes' : List (Dict Json)} (h : nodes.Perm nodes') :
    (messageTimes nodes).Perm (messageTimes nodes') :=
  (h.filter _).map _

/-! ### The loop over the messages -/

/-- One turn returns unless the time of its message overflows. -/
theorem transcribeNode_returns_iff (log : MessageLog) (node : Dict Json) :
    (∃ log', transcribeNode env log node = .ok log') ↔
      ∀ value ∈ messageTimes [node], ¬ Overflows env value := by
  rw [transcribeNode, messageTimes]
  by_cases hparts : chatgptMessageParts (chatgptMessage node) = []
  · simp [hparts]
  · simp only [hparts, if_false, ne_eq, not_false_eq_true, decide_true, List.filter_cons_of_pos,
      List.filter_nil, List.map_cons, List.map_nil, List.forall_mem_singleton]
    by_cases hover : Overflows env (messageTime node)
    · obtain ⟨e, he⟩ := chatgptTimestamp_eq_error hover
      rw [he]
      exact iff_of_false (fun ⟨_, h⟩ => nomatch h) fun h => h hover
    · rw [chatgptTimestamp_eq_ok hover]
      exact iff_of_true ⟨_, rfl⟩ hover

/-- One turn adds the text of its message's moment. -/
theorem transcribeNode_timestamps {log log' : MessageLog} {node : Dict Json}
    (h : transcribeNode env log node = .ok log') :
    log'.timestamps = log.timestamps ++ (messageMoments env [node]).map (stampText false) := by
  have hsafe := (transcribeNode_returns_iff log node).mp ⟨log', h⟩
  rw [transcribeNode] at h
  rw [messageMoments, messageTimes] at *
  by_cases hparts : chatgptMessageParts (chatgptMessage node) = []
  · simp only [hparts, if_true] at h
    obtain rfl := Except.ok.inj h
    simp [hparts]
  · simp only [hparts, if_false] at h
    simp only [hparts, ne_eq, not_false_eq_true, decide_true, List.filter_cons_of_pos,
      List.filter_nil, List.map_cons, List.map_nil, List.forall_mem_singleton] at hsafe ⊢
    rw [chatgptTimestamp_eq_ok hsafe] at h
    obtain rfl := Except.ok.inj h
    rw [List.filterMap_cons]
    cases timeOf env (messageTime node) <;> rfl

theorem transcribe_returns_iff (nodes : List (Dict Json)) (log : MessageLog) :
    (∃ log', nodes.foldlM (transcribeNode env) log = .ok log') ↔
      ∀ value ∈ messageTimes nodes, ¬ Overflows env value := by
  induction nodes generalizing log with
  | nil => exact iff_of_true ⟨log, rfl⟩ fun value h => absurd h List.not_mem_nil
  | cons node nodes ih =>
    rw [messageTimes_cons, List.foldlM_cons]
    simp only [List.mem_append, or_imp, forall_and, ← transcribeNode_returns_iff log node]
    constructor
    · rintro ⟨log', h⟩
      obtain ⟨first, hfirst, hrest⟩ := except_bind_ok.mp h
      exact ⟨⟨first, hfirst⟩, (ih first).mp ⟨log', hrest⟩⟩
    · rintro ⟨⟨first, hfirst⟩, hrest⟩
      obtain ⟨log', hlog'⟩ := (ih first).mpr hrest
      exact ⟨log', except_bind_ok.mpr ⟨first, hfirst, hlog'⟩⟩

theorem transcribe_timestamps {nodes : List (Dict Json)} {log log' : MessageLog}
    (h : nodes.foldlM (transcribeNode env) log = .ok log') :
    log'.timestamps = log.timestamps ++ (messageMoments env nodes).map (stampText false) := by
  induction nodes generalizing log with
  | nil =>
    obtain rfl := Except.ok.inj h
    exact (List.append_nil _).symm
  | cons node nodes ih =>
    rw [List.foldlM_cons] at h
    obtain ⟨first, hfirst, hrest⟩ := except_bind_ok.mp h
    rw [messageMoments_cons, List.map_append, ih hrest, transcribeNode_timestamps hfirst,
      List.append_assoc]

/-! ### One transcript -/

/-- What is read as a time in a conversation. -/
def examinedTimes (conversation : Dict Json) : List Json :=
  conversation.item "create_time" :: conversation.item "update_time" ::
    messageTimes (conversationNodes conversation)

variable (env) in
/-- The moments of the dated messages of a conversation. -/
def conversationMoments (conversation : Dict Json) : List UtcMoment :=
  messageMoments env (conversationNodes conversation)

theorem min?_perm {l l' : List String} (h : l.Perm l') : l.min? = l'.min? :=
  Option.ext fun a => by simp only [List.min?_eq_some_iff, h.mem_iff]

theorem max?_perm {l l' : List String} (h : l.Perm l') : l.max? = l'.max? :=
  Option.ext fun a => by simp only [List.max?_eq_some_iff, h.mem_iff]

/-- A transcript that is made dates itself by its own times, or else by the texts of its
messages. -/
theorem transcript_made {conversation : Dict Json} {index : Nat}
    {transcript : ConversationTranscript}
    (h : chatgptConversationTranscript env conversation index = .ok transcript) :
    ∃ nodes log created modified,
      orderedChatgptNodes env.frames conversation = some nodes ∧
      nodes.foldlM (transcribeNode env) {} = .ok log ∧
      chatgptTimestamp env (conversation.item "create_time") = .ok created ∧
      chatgptTimestamp env (conversation.item "update_time") = .ok modified ∧
      transcript.createdAt = created.or log.timestamps.min? ∧
      transcript.modifiedAt = modified.or log.timestamps.max? := by
  unfold chatgptConversationTranscript nodesInOrder at h
  obtain ⟨nodes, hnodes, h⟩ := except_bind_ok.mp h
  obtain ⟨log, hlog, h⟩ := except_bind_ok.mp h
  obtain ⟨created, hcreated, h⟩ := except_bind_ok.mp h
  obtain ⟨modified, hmodified, h⟩ := except_bind_ok.mp h
  obtain rfl := Except.ok.inj h
  -- the walk has returned within the frames
  split at hnodes
  · rename_i walked hwalked
    obtain rfl := Except.ok.inj hnodes
    exact ⟨walked, log, created, modified, hwalked, hlog, hcreated, hmodified, rfl, rfl⟩
  · exact nomatch hnodes

/-- A transcript is made unless the walk is too deep or a time overflows. -/
theorem transcript_returns_iff (conversation : Dict Json) (index : Nat) :
    (∃ transcript, chatgptConversationTranscript env conversation index = .ok transcript) ↔
      WalkFits env.frames conversation ∧
        ∀ value ∈ examinedTimes conversation, ¬ Overflows env value := by
  simp only [examinedTimes, List.forall_mem_cons]
  constructor
  · rintro ⟨transcript, h⟩
    obtain ⟨nodes, log, created, modified, hnodes, hlog, hcreated, hmodified, _, _⟩ :=
      transcript_made h
    have htimes := messageTimes_perm (orderedChatgptNodes_perm hnodes)
    refine ⟨?_, chatgptTimestamp_returns_iff.mp ⟨created, hcreated⟩,
      chatgptTimestamp_returns_iff.mp ⟨modified, hmodified⟩, fun value hvalue => ?_⟩
    · rw [WalkFits, hnodes]
      rfl
    · exact (transcribe_returns_iff nodes {}).mp ⟨log, hlog⟩ value (htimes.mem_iff.mpr hvalue)
  · -- the walk fits, and each time is read in turn
    rintro ⟨hfits, hcreate, hupdate, hmessages⟩
    obtain ⟨nodes, hnodes⟩ := Option.isSome_iff_exists.mp hfits
    have htimes := messageTimes_perm (orderedChatgptNodes_perm hnodes)
    obtain ⟨log, hlog⟩ := (transcribe_returns_iff nodes {}).mpr fun value hvalue =>
      hmessages value (htimes.mem_iff.mp hvalue)
    obtain ⟨created, hcreated⟩ := chatgptTimestamp_returns_iff.mpr hcreate
    obtain ⟨modified, hmodified⟩ := chatgptTimestamp_returns_iff.mpr hupdate
    unfold chatgptConversationTranscript nodesInOrder
    rw [hnodes]
    simp only [except_bind_ok]
    exact ⟨_, nodes, rfl, log, hlog, created, hcreated, modified, hmodified, rfl⟩

/-- Where a conversation has no times of its own, its messages date it right if and only
if no whole second shares the earliest or the latest second with a fraction. -/
theorem transcript_dates {conversation : Dict Json} {index : Nat}
    {transcript : ConversationTranscript}
    (h : chatgptConversationTranscript env conversation index = .ok transcript) :
    (timeOf env (conversation.item "create_time") = none →
      (DatesEarliest (conversationMoments env conversation) transcript.createdAt ↔
        EarliestAlone (conversationMoments env conversation))) ∧
    (timeOf env (conversation.item "update_time") = none →
      (DatesLatest (conversationMoments env conversation) transcript.modifiedAt ↔
        LatestAlone (conversationMoments env conversation))) := by
  obtain ⟨nodes, log, created, modified, hnodes, hlog, hcreated, hmodified, hearliest, hlatest⟩ :=
    transcript_made h
  have hmoments : (messageMoments env nodes).Perm (conversationMoments env conversation) :=
    (messageTimes_perm (orderedChatgptNodes_perm hnodes)).filterMap _
  have htexts : log.timestamps = (messageMoments env nodes).map (stampText false) :=
    transcribe_timestamps hlog
  rw [htexts, min?_perm (hmoments.map _)] at hearliest
  rw [htexts, max?_perm (hmoments.map _)] at hlatest
  constructor
  · intro hnone
    have hown := chatgptTimestamp_eq_ok (chatgptTimestamp_returns_iff.mp ⟨created, hcreated⟩)
    rw [hnone, hcreated] at hown
    rw [hearliest, Except.ok.inj hown]
    exact min?_texts_iff
  · intro hnone
    have hown := chatgptTimestamp_eq_ok (chatgptTimestamp_returns_iff.mp ⟨modified, hmodified⟩)
    rw [hnone, hmodified] at hown
    rw [hlatest, Except.ok.inj hown]
    exact max?_texts_iff

end Times

/-! ### The counts -/

section Counts

variable {captureEnv : CaptureEnv} {svc : CaptureService} {s t : CaptureStore}

/-- The items counted so far. -/
def ImportState.total (st : ImportState) : Nat :=
  st.sourceIds.length + st.duplicateCount + st.failedCount

theorem ImportState.total_record (st : ImportState) (result : CaptureResult) :
    (st.record result).total = st.total + 1 := by
  unfold record total
  cases result.duplicate with
  | true =>
    show st.sourceIds.length + (st.duplicateCount + 1) + st.failedCount = _
    omega
  | false =>
    show (st.sourceIds ++ [result.sourceId]).length + st.duplicateCount + st.failedCount = _
    rw [List.length_append, List.length_singleton]
    omega

/-- A turn counts its conversation, also when its capture raises. -/
theorem importConversation_total {exported : ChatgptExport} {capturedAt domain sensitivity : String}
    {st st' : ImportState} {transcript : ConversationTranscript}
    (hrun : (importConversation captureEnv svc exported capturedAt domain sensitivity st
      transcript).run s = .ok st' t) : st'.total = st.total + 1 := by
  rcases run_catching_ok.mp hrun with hok | ⟨_, _, _, hhandled⟩
  · obtain ⟨result, _, _, hpure⟩ := run_bind_ok.mp hok
    rw [← (run_pure_ok.mp hpure).1]
    exact st.total_record result
  · rw [← (run_pure_ok.mp hhandled).1]
    exact (Nat.add_assoc ..).symm

/-- A loop whose turns count one item each counts every item. -/
theorem importItems_total {ι : Type} {step : ImportState → ι → Capture ImportState}
    (hstep : ∀ {st item s st' t}, (step st item).run s = .ok st' t → st'.total = st.total + 1)
    {items : List ι} {st st' : ImportState} (hrun : (importItems step items st).run s = .ok st' t) :
    st'.total = st.total + items.length := by
  induction items generalizing st s with
  | nil => rw [← (run_pure_ok.mp hrun).1]; rfl
  | cons item rest ih =>
    obtain ⟨first, _, hfirst, hrest⟩ := run_bind_ok.mp hrun
    rw [ih hrest, hstep hfirst, List.length_cons]
    omega

/-- Every transcript is imported, a duplicate, or failed. -/
theorem importChatgptExport_counts {exported : ChatgptExport} {domain sensitivity : String}
    {result : BatchImportResult}
    (hrun : (importChatgptExport captureEnv svc exported domain sensitivity).run s =
      .ok result t) :
    result.importedCount + result.duplicateCount + result.failedCount =
      exported.transcripts.length := by
  obtain ⟨_, _, _, hrun⟩ := run_bind_ok.mp hrun
  obtain ⟨st, _, hloop, hrun⟩ := run_bind_ok.mp hrun
  obtain ⟨_, _, _, hpure⟩ := run_bind_ok.mp hrun
  rw [← (run_pure_ok.mp hpure).1]
  exact (importItems_total importConversation_total hloop).trans (Nat.zero_add _)

end Counts

/-! ### Whole imports -/

section Imports

variable (env : ExportEnv)

/-- Where a conversation has no time of its own, the transcript has that of its earliest or
latest dated message. -/
structure DatedByMessages (conversation : Dict Json) (transcript : ConversationTranscript) :
    Prop where
  created : timeOf env (conversation.item "create_time") = none →
    DatesEarliest (conversationMoments env conversation) transcript.createdAt
  modified : timeOf env (conversation.item "update_time") = none →
    DatesLatest (conversationMoments env conversation) transcript.modifiedAt

/-- The transcripts of an export are made, every run that returns counts each of them,
and each is dated by its messages. A payload without a conversation is one transcript. -/
structure KeepsEveryConversation (file : ChatgptExportFile) : Prop where
  made : ∃ (format : String) (transcripts : List ConversationTranscript),
    exportTranscripts env file.name file.payload = .ok (format, transcripts) ∧
      ∀ (index : Nat) (conversation : Dict Json),
        (chatgptConversations file.payload)[index]? = some conversation →
        ∃ transcript, transcripts[index]? = some transcript ∧
          DatedByMessages env conversation transcript
  counted : ∀ captureEnv svc domain sensitivity s t result,
    (importChatgptExportFile env captureEnv svc file domain sensitivity).run s = .ok result t →
      result.importedCount + result.duplicateCount + result.failedCount =
        max 1 (chatgptConversations file.payload).length

/-- Nothing in a conversation raises, and its texts of moments are in order where they
date it. -/
structure Datable (conversation : Dict Json) : Prop where
  fits : WalkFits env.frames conversation
  read : ∀ value ∈ examinedTimes conversation, ¬ Overflows env value
  earliest : timeOf env (conversation.item "create_time") = none →
    EarliestAlone (conversationMoments env conversation)
  latest : timeOf env (conversation.item "update_time") = none →
    LatestAlone (conversationMoments env conversation)

variable {env}

/-- A transcript for every conversation, or one for the payload. -/
theorem exportTranscripts_ok {name : String} {payload : Json} {format : String}
    {transcripts : List ConversationTranscript}
    (h : exportTranscripts env name payload = .ok (format, transcripts)) :
    ∃ own, (chatgptConversations payload).zipIdx.mapM (fun entry =>
        chatgptConversationTranscript env entry.1 (entry.2 + 1)) = .ok own ∧
      own.length = (chatgptConversations payload).length ∧
      transcripts = if own = [] then [fallbackTranscript env name payload] else own := by
  unfold exportTranscripts at h
  cases hown : (chatgptConversations payload).zipIdx.mapM fun entry =>
      chatgptConversationTranscript env entry.1 (entry.2 + 1) with
  | error e =>
    rw [hown] at h
    exact nomatch h
  | ok own =>
    rw [hown] at h
    have hlength := (forall₂_of_mapM_eq_ok hown).length_eq
    rw [List.length_zipIdx] at hlength
    refine ⟨own, rfl, hlength.symm, ?_⟩
    have hpair := Except.ok.inj h
    dsimp only at hpair
    -- an export without conversations is kept as one transcript
    split at hpair
    · rw [← (Prod.mk.inj hpair).2, if_pos (by assumption)]
    · rw [← (Prod.mk.inj hpair).2, if_neg (by assumption)]

theorem exportTranscripts_length {name : String} {payload : Json} {format : String}
    {transcripts : List ConversationTranscript}
    (h : exportTranscripts env name payload = .ok (format, transcripts)) :
    transcripts.length = max 1 (chatgptConversations payload).length := by
  obtain ⟨own, _, hlength, htranscripts⟩ := exportTranscripts_ok h
  rw [htranscripts]
  split
  · rename_i hempty
    rw [hempty] at hlength
    rw [← hlength]
    rfl
  · rename_i hsome
    have hpos := List.length_pos_iff.mpr hsome
    omega

theorem importChatgptExportFile_counts {captureEnv : CaptureEnv} {svc : CaptureService}
    {file : ChatgptExportFile} {domain sensitivity : String} {s t : CaptureStore}
    {result : BatchImportResult}
    (hrun : (importChatgptExportFile env captureEnv svc file domain sensitivity).run s =
      .ok result t) :
    result.importedCount + result.duplicateCount + result.failedCount =
      max 1 (chatgptConversations file.payload).length := by
  unfold importChatgptExportFile at hrun
  split at hrun
  · exact nomatch hrun
  · rename_i htranscripts
    rw [← exportTranscripts_length htranscripts]
    exact importChatgptExport_counts hrun

/-- The transcripts of an export are made if each one is. -/
theorem exists_exportTranscripts_iff (name : String) (payload : Json) :
    (∃ format transcripts, exportTranscripts env name payload = .ok (format, transcripts)) ↔
      ∀ conversation ∈ chatgptConversations payload, WalkFits env.frames conversation ∧
        ∀ value ∈ examinedTimes conversation, ¬ Overflows env value := by
  constructor
  · rintro ⟨format, transcripts, h⟩ conversation hmem
    obtain ⟨own, hown, _, _⟩ := exportTranscripts_ok h
    obtain ⟨index, hindex⟩ := List.mem_iff_getElem?.mp hmem
    have hentry : (conversation, index) ∈ (chatgptConversations payload).zipIdx :=
      List.mk_mem_zipIdx_iff_getElem?.mpr hindex
    exact (transcript_returns_iff conversation (index + 1)).mp
      (exists_ok_of_mapM_eq_ok hown _ hentry)
  · intro h
    obtain ⟨own, hown⟩ := exists_mapM_eq_ok (f := fun entry : Dict Json × Nat =>
      chatgptConversationTranscript env entry.1 (entry.2 + 1)) fun entry hentry =>
        (transcript_returns_iff entry.1 _).mpr (h _ (List.fst_mem_of_mem_zipIdx hentry))
    unfold exportTranscripts
    rw [hown]
    exact ⟨_, _, rfl⟩

/-- The transcript of a conversation is at its place. -/
theorem exportTranscripts_getElem? {name : String} {payload : Json} {format : String}
    {transcripts : List ConversationTranscript}
    (h : exportTranscripts env name payload = .ok (format, transcripts)) {index : Nat}
    {conversation : Dict Json}
    (hindex : (chatgptConversations payload)[index]? = some conversation) :
    ∃ transcript, transcripts[index]? = some transcript ∧
      chatgptConversationTranscript env conversation (index + 1) = .ok transcript := by
  obtain ⟨own, hown, hlength, htranscripts⟩ := exportTranscripts_ok h
  obtain ⟨hlt, heq⟩ := List.getElem?_eq_some_iff.mp hindex
  have hplace : index < own.length := hlength ▸ hlt
  rw [if_neg (List.ne_nil_of_length_pos (Nat.zero_lt_of_lt hplace))] at htranscripts
  have hentry := (List.forall₂_iff_get.mp (forall₂_of_mapM_eq_ok hown)).2 index
    (by rwa [List.length_zipIdx]) hplace
  simp only [List.get_eq_getElem, List.getElem_zipIdx, heq, Nat.zero_add] at hentry
  exact ⟨own[index], by rw [htranscripts, List.getElem?_eq_getElem hplace], hentry⟩

/-- An import keeps and dates every conversation if and only if no walk is too deep, no
time that is read overflows, and no whole second shares the second that dates a
conversation with a fraction. -/
theorem keepsEveryConversation_iff (env : ExportEnv) (file : ChatgptExportFile) :
    KeepsEveryConversation env file ↔
      ∀ conversation ∈ chatgptConversations file.payload, Datable env conversation := by
  constructor
  · -- the transcript of the conversation stands at its place in the export
    rintro ⟨⟨format, transcripts, hmade, hdated⟩, _⟩ conversation hmem
    obtain ⟨hfits, hread⟩ := (exists_exportTranscripts_iff file.name file.payload).mp
      ⟨format, transcripts, hmade⟩ conversation hmem
    obtain ⟨index, hindex⟩ := List.mem_iff_getElem?.mp hmem
    obtain ⟨transcript, hplace, hown⟩ := exportTranscripts_getElem? hmade hindex
    obtain ⟨transcript', hplace', hdates⟩ := hdated index conversation hindex
    obtain rfl := Option.some.inj (hplace.symm.trans hplace')
    have hiff := transcript_dates hown
    exact ⟨hfits, hread, fun hnone => (hiff.1 hnone).mp (hdates.created hnone),
      fun hnone => (hiff.2 hnone).mp (hdates.modified hnone)⟩
  · intro h
    obtain ⟨format, transcripts, hmade⟩ :=
      (exists_exportTranscripts_iff file.name file.payload).mpr fun conversation hmem =>
        ⟨(h conversation hmem).fits, (h conversation hmem).read⟩
    refine ⟨⟨format, transcripts, hmade, fun index conversation hindex => ?_⟩,
      fun _ _ _ _ _ _ _ hrun => importChatgptExportFile_counts hrun⟩
    have hdatable := h conversation (List.mem_of_getElem? hindex)
    obtain ⟨transcript, hplace, hown⟩ := exportTranscripts_getElem? hmade hindex
    have hiff := transcript_dates hown
    exact ⟨transcript, hplace, fun hnone => (hiff.1 hnone).mpr (hdatable.earliest hnone),
      fun hnone => (hiff.2 hnone).mpr (hdatable.latest hnone)⟩

/-- A conversation whose own time is beyond the floats. -/
def hugeTime : Dict Json := [("mapping", .obj []), ("create_time", .int (2 ^ 1024))]

theorem nearestDouble_hugeTime : nearestDouble ((2 ^ 1024 : Int) : Rat) = none := by
  decide +kernel

/-- An export of one conversation with such a time is not imported at all. -/
theorem hugeTime_not_kept : ¬ ∀ env file, KeepsEveryConversation env file := by
  intro h
  let noTexts : ExportEnv :=
    { repr := fun _ => "", upper := id, readFloat := fun _ => none,
      fromtimestamp := fun _ => none, fromisoformat := fun _ => none, dumps := fun _ => "",
      frames := 1000 }
  obtain ⟨format, transcripts, hmade, _⟩ := (h noTexts
    { path := "export.json", name := "export.json", sha256 := "", payload := .obj hugeTime }).made
  obtain ⟨_, hread⟩ := (exists_exportTranscripts_iff _ _).mp ⟨format, transcripts, hmade⟩
    hugeTime (List.mem_singleton_self hugeTime)
  exact hread (.int (2 ^ 1024)) (List.mem_cons_self ..) nearestDouble_hugeTime

end Imports

end AliceBot
