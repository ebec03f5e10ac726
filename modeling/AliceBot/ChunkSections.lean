import AliceBot.TextChunks

/-!
# Section boundaries in chunks

`chunk_text` ends a chunk before a paragraph that starts with a heading or a
thematic break. It looks at nothing else, so a boundary line can stand behind text
in three ways: further down in a paragraph that is kept whole, as an empty heading
whose white space `_starts_new_section` strips off, and in a paragraph that is
packed by its lines. `chunkText_sectionsApart_iff` says that there is no fourth.
-/

namespace AliceBot

open PyLib

/-! ### Lines -/

/-- A line that is neither blank nor a boundary. -/
def isTextLine (line : List Char) : Bool :=
  !(trim line).isEmpty && !isSectionBoundary line

/-- No boundary line comes behind a text line. -/
def SectionsApart (lines : List (List Char)) : Prop :=
  lines.Pairwise fun earlier later => isTextLine earlier = true → isSectionBoundary later = false

instance (lines : List (List Char)) : Decidable (SectionsApart lines) :=
  inferInstanceAs (Decidable (lines.Pairwise _))

/-- The first line of a text. -/
def firstLine (text : List Char) : List Char := text.takeWhile (· != '\n')

/-- A boundary that `_starts_new_section` does not see, since it strips the line. -/
def hidesBoundary (paragraph : List Char) : Bool :=
  isSectionBoundary (firstLine paragraph) && !startsNewSection paragraph

example : hidesBoundary "# \nbody".toList = true := by decide

theorem isSectionBoundary_nil : isSectionBoundary [] = false := by decide

theorem isTextLine_nil : isTextLine [] = false := by decide

theorem isTextLine_iff {line : List Char} :
    isTextLine line = true ↔ solid line ≠ [] ∧ isSectionBoundary line = false := by
  rw [isTextLine, Bool.and_eq_true, Bool.not_eq_true', Bool.not_eq_true',
    List.isEmpty_eq_false_iff, ne_eq, trim_eq_nil_iff]

theorem splitOn_firstLine (text : List Char) :
    ∃ rest, text.splitOn '\n' = firstLine text :: rest := by
  induction text with
  | nil => exact ⟨[], rfl⟩
  | cons c text ih =>
    obtain ⟨rest, hrest⟩ := ih
    rw [List.splitOn_cons_eq_if_modifyHead, firstLine, List.takeWhile_cons]
    by_cases hc : c = '\n'
    · subst hc
      exact ⟨text.splitOn '\n', rfl⟩
    · rw [if_neg (mt beq_iff_eq.mp hc), hrest, List.modifyHead_cons,
        if_pos (by simpa using hc)]
      exact ⟨rest, rfl⟩

/-- A paragraph starts with a line that is not blank. -/
theorem solid_firstLine_ne_nil {paragraph : List Char} (hne : paragraph ≠ [])
    (htrim : trim paragraph = paragraph) : solid (firstLine paragraph) ≠ [] := by
  -- nothing is stripped from the start
  have hstart : trimStart paragraph = paragraph := by
    have hsuffix : trimStart paragraph <:+ paragraph := List.dropWhile_suffix _
    have hlength := length_trim_le (trimStart paragraph)
    have hback := (List.dropWhile_suffix (l := (trimStart paragraph).reverse) isSpace).length_le
    rw [List.length_reverse] at hback
    have hkept : (trim paragraph).length ≤ (trimStart paragraph).length := by
      rw [trim, trimEnd, List.length_reverse]
      exact hback
    rw [htrim] at hkept
    exact hsuffix.eq_of_length_le hkept
  cases paragraph with
  | nil => exact absurd rfl hne
  | cons c rest =>
    have hc : isSpace c = false := by
      cases hspace : isSpace c with
      | false => rfl
      | true =>
        rw [trimStart, List.dropWhile_cons_of_pos hspace] at hstart
        have hle := (List.dropWhile_suffix (l := rest) isSpace).length_le
        rw [hstart] at hle
        exact absurd hle (Nat.not_succ_le_self _)
    have hnewline : (c != '\n') = true := by
      rw [bne_iff_ne]
      rintro rfl
      exact Bool.noConfusion (hc.symm.trans (by decide : isSpace '\n' = true))
    have hkept : solid (firstLine (c :: rest)) = c :: solid (firstLine rest) := by
      simp only [firstLine, solid, List.takeWhile_cons, hnewline, if_true, List.filter_cons, hc,
        Bool.not_false]
    rw [hkept]
    exact List.cons_ne_nil _ _

/-! ### Joined lines and paragraphs -/

theorem splitOn_cons_paragraph (paragraph next : List Char) (rest : List (List Char)) :
    (['\n', '\n'].intercalate (paragraph :: next :: rest)).splitOn '\n' =
      paragraph.splitOn '\n' ++ [] :: (['\n', '\n'].intercalate (next :: rest)).splitOn '\n' := by
  rw [List.intercalate_cons_cons]
  generalize ['\n', '\n'].intercalate (next :: rest) = tail
  rw [List.append_assoc, List.cons_append, List.cons_append, List.nil_append,
    List.splitOn_append_cons_self, ← List.nil_append ('\n' :: tail),
    List.splitOn_append_cons_self]
  rfl

/-- What holds of a blank line holds of every line of the joined paragraphs if it
does of the lines of each. -/
theorem forall_line_joined {P : List Char → Prop} (hnil : P []) (paragraphs : List (List Char)) :
    (∀ line ∈ (['\n', '\n'].intercalate paragraphs).splitOn '\n', P line) ↔
      ∀ paragraph ∈ paragraphs, ∀ line ∈ paragraph.splitOn '\n', P line := by
  induction paragraphs with
  | nil => simpa using hnil
  | cons paragraph paragraphs ih =>
    cases paragraphs with
    | nil => simp
    | cons next rest =>
      rw [splitOn_cons_paragraph, List.forall_mem_append, List.forall_mem_cons, ih]
      simp only [List.forall_mem_cons, hnil, true_and]

/-- The boundary lines of a paragraph do not come behind the text lines of another. -/
def ComesBefore (earlier later : List Char) : Prop :=
  ∀ line ∈ earlier.splitOn '\n', isTextLine line = true →
    ∀ other ∈ later.splitOn '\n', isSectionBoundary other = false

/-- The lines of joined paragraphs have no boundary behind a text exactly if no
paragraph has one, and no paragraph of text comes before one that begins with a
boundary. -/
theorem sectionsApart_joined (paragraphs : List (List Char)) :
    SectionsApart ((['\n', '\n'].intercalate paragraphs).splitOn '\n') ↔
      (∀ paragraph ∈ paragraphs, SectionsApart (paragraph.splitOn '\n')) ∧
        paragraphs.Pairwise ComesBefore := by
  induction paragraphs with
  | nil => exact ⟨fun _ => ⟨fun _ h => absurd h List.not_mem_nil, .nil⟩, fun _ => by decide⟩
  | cons paragraph paragraphs ih =>
    cases paragraphs with
    | nil => simp
    | cons next rest =>
      -- the empty line between paragraphs is no heading and no text
      rw [splitOn_cons_paragraph, SectionsApart, List.pairwise_append, List.pairwise_cons]
      rw [SectionsApart] at ih
      have hall : (∀ part ∈ paragraph :: next :: rest, SectionsApart (part.splitOn '\n')) ↔
          SectionsApart (paragraph.splitOn '\n') ∧
            ∀ part ∈ next :: rest, SectionsApart (part.splitOn '\n') := List.forall_mem_cons
      have hpairwise : (paragraph :: next :: rest).Pairwise ComesBefore ↔
          (∀ later ∈ next :: rest, ComesBefore paragraph later) ∧
            (next :: rest).Pairwise ComesBefore := List.pairwise_cons
      rw [ih, hall, hpairwise]
      constructor
      · rintro ⟨hfirst, ⟨_, hrest, hpairs⟩, hacross⟩
        refine ⟨⟨hfirst, hrest⟩, fun later hlater line hline htext => ?_, hpairs⟩
        have htail : ∀ line ∈ (['\n', '\n'].intercalate (next :: rest)).splitOn '\n',
            isSectionBoundary line = false := fun tail htail =>
          hacross line hline tail (List.mem_cons_of_mem _ htail) htext
        exact (forall_line_joined isSectionBoundary_nil _).mp htail later hlater
      · rintro ⟨⟨hfirst, hrest⟩, hbefore, hpairs⟩
        refine ⟨hfirst, ⟨fun _ _ htext => ?_, hrest, hpairs⟩,
          fun line hline other hother htext => ?_⟩
        · rw [isTextLine_nil] at htext
          exact absurd htext Bool.false_ne_true
        · rcases List.mem_cons.mp hother with rfl | hother
          · exact isSectionBoundary_nil
          · have hall := (forall_line_joined isSectionBoundary_nil (next :: rest)).mpr
              fun paragraph hparagraph => hbefore paragraph hparagraph line hline htext
            exact hall other hother

/-- Where the boundary lines of a paragraph come first, only its first line decides
what it may follow. -/
theorem comesBefore_iff {earlier later : List Char} (hne : later ≠ []) (htrim : trim later = later)
    (hapart : SectionsApart (later.splitOn '\n')) :
    ComesBefore earlier later ↔
      (isSectionBoundary (firstLine later) = true →
        ∀ line ∈ earlier.splitOn '\n', isTextLine line = false) := by
  have hblank := solid_firstLine_ne_nil hne htrim
  obtain ⟨rest, hlines⟩ := splitOn_firstLine later
  rw [hlines, SectionsApart, List.pairwise_cons] at hapart
  constructor
  · intro hbefore hfirst line hline
    cases htext : isTextLine line with
    | false => rfl
    | true =>
      have hplain := hbefore line hline htext (firstLine later)
        (hlines ▸ List.mem_cons_self ..)
      exact Bool.noConfusion (hfirst.symm.trans hplain)
  · intro hfirst line hline htext
    -- the first line is no boundary, so it is text, and no boundary is behind it
    have hplain : isSectionBoundary (firstLine later) = false := by
      cases hbound : isSectionBoundary (firstLine later) with
      | false => rfl
      | true => exact Bool.noConfusion (htext.symm.trans (hfirst hbound line hline))
    rw [hlines]
    exact List.forall_mem_cons.mpr ⟨hplain, fun other hother =>
      hapart.1 other hother (isTextLine_iff.mpr ⟨hblank, hplain⟩)⟩

/-! ### The lines of an oversized paragraph -/

/-- The packs of the lines of a paragraph. -/
def linePacks (maxChars : Nat) (paragraph : List Char) : List (Pack (List Char)) :=
  packGreedily List.length 1 maxChars (fun _ => false) [] (paragraph.splitOn '\n')

theorem sectionsApart_singleton (line : List Char) : SectionsApart [line] :=
  List.pairwise_singleton _ line

theorem sectionsApart_of_notMem {text : List Char} (h : '\n' ∉ text) :
    SectionsApart (text.splitOn '\n') := by
  rw [List.splitOn_eq_singleton h]
  exact sectionsApart_singleton text

/-- A property of all texts of packs is one of the joined parts and of the cut ones. -/
theorem forall_mem_packsToTexts {P : List Char → Prop} {sep : List Char}
    {cut : List Char → List (List Char)} {packs : List (Pack (List Char))} :
    (∀ text ∈ packsToTexts sep cut packs, P text) ↔
      (∀ parts, .together parts ∈ packs → P (sep.intercalate parts)) ∧
        ∀ part, .alone part ∈ packs → ∀ text ∈ cut part, P text := by
  constructor
  · intro h
    refine ⟨fun parts hparts => ?_, fun part hpart text htext => ?_⟩
    · exact h _ (List.mem_flatMap.mpr ⟨_, hparts, List.mem_singleton_self _⟩)
    · exact h text (List.mem_flatMap.mpr ⟨_, hpart, htext⟩)
  · rintro ⟨htogether, halone⟩ text htext
    obtain ⟨pack, hpack, htext⟩ := List.mem_flatMap.mp htext
    cases pack with
    | together parts =>
      rw [List.mem_singleton.mp htext]
      exact htogether parts hpack
    | alone part => exact halone part hpack text htext

section Cut

variable {maxChars : Nat}

/-- Words are joined and cut without a newline. -/
theorem newline_notMem_splitOnWords (hmax : 0 < maxChars) (part : List Char) :
    ∀ text ∈ splitOnWords maxChars part, '\n' ∉ text := by
  have hnewline : isSpace '\n' = true := by decide
  have hword : ∀ word ∈ partWords part, '\n' ∉ word := fun word hword hmem =>
    Bool.noConfusion (hnewline.symm.trans ((isWord_of_mem_partWords hword).2 _ hmem))
  rw [splitOnWords_eq, forall_mem_packsToTexts]
  constructor
  · intro words hwords hmem
    rcases mem_of_mem_intercalate hmem with hsep | ⟨word, hmem, hc⟩
    · exact absurd (List.mem_singleton.mp hsep) (by decide)
    · exact hword word (exists_together_mem_packs.mp ⟨words, hwords, hmem⟩).1 hc
  · intro word hpack text htext hmem
    exact hword word (alone_mem_packs.mp hpack).1 (mem_of_mem_slices hmax htext hmem)

theorem newline_notMem_line {text line : List Char} (h : line ∈ text.splitOn '\n') :
    '\n' ∉ line := by
  rw [List.splitOn_eq_splitOnP] at h
  intro hmem
  exact Bool.noConfusion ((eq_false_of_mem_splitOnP h _ hmem).symm.trans (beq_self_eq_true '\n'))

theorem sectionsApart_of_blank {text : List Char} (h : solid text = []) :
    SectionsApart (text.splitOn '\n') := by
  refine List.pairwise_of_forall_mem_list fun line hline other _ htext => ?_
  -- every line of a blank text is blank
  rw [← flatMap_solid_lines text] at h
  exact absurd (List.flatMap_eq_nil_iff.mp h line hline) (isTextLine_iff.mp htext).1

/-- A paragraph without a newline is its only line. -/
theorem lines_eq_singleton {paragraph : List Char}
    (h : ¬ 1 < (paragraph.splitOn '\n').length) : paragraph.splitOn '\n' = [paragraph] := by
  obtain ⟨rest, hlines⟩ := splitOn_firstLine paragraph
  have hjoined : ['\n'].intercalate (paragraph.splitOn '\n') = paragraph :=
    List.intercalate_splitOn '\n'
  rw [hlines] at h hjoined ⊢
  cases rest with
  | nil =>
    rw [List.intercalate_singleton] at hjoined
    rw [hjoined]
  | cons next rest => exact absurd (Nat.succ_lt_succ (Nat.succ_pos rest.length)) h

/-- Only lines packed together can bring a boundary behind a text. -/
theorem splitLargePart_sectionsApart_iff (hmax : 0 < maxChars) {paragraph : List Char}
    (hlong : maxChars < paragraph.length) :
    (∀ chunk ∈ splitLargePart maxChars paragraph, SectionsApart (chunk.splitOn '\n')) ↔
      ∀ lines, .together lines ∈ linePacks maxChars paragraph → SectionsApart lines := by
  have hwords : ∀ part, ∀ text ∈ splitOnWords maxChars part, SectionsApart (text.splitOn '\n') :=
    fun part text htext =>
      sectionsApart_of_notMem (newline_notMem_splitOnWords hmax part text htext)
  unfold splitLargePart
  dsimp only
  split
  · -- the blank texts that are left out hold no line that is text
    have hfilter : ∀ texts : List (List Char),
        (∀ chunk ∈ texts.filter fun chunk => !(trim chunk).isEmpty,
          SectionsApart (chunk.splitOn '\n')) ↔
          ∀ chunk ∈ texts, SectionsApart (chunk.splitOn '\n') := by
      intro texts
      refine ⟨fun h chunk hchunk => ?_,
        fun h chunk hchunk => h chunk (List.mem_of_mem_filter hchunk)⟩
      cases hblank : (trim chunk).isEmpty with
      | true => exact sectionsApart_of_blank (trim_eq_nil_iff.mp (List.isEmpty_iff.mp hblank))
      | false =>
        refine h chunk (List.mem_filter.mpr ⟨hchunk, ?_⟩)
        rw [hblank]
        rfl
    rw [packedLines_eq, hfilter, forall_mem_packsToTexts]
    have hlines : ∀ lines, .together lines ∈ linePacks maxChars paragraph →
        (['\n'].intercalate lines).splitOn '\n' = lines := fun lines hpack =>
      List.splitOn_intercalate '\n' (fun line hline => newline_notMem_line
        (exists_together_mem_packs.mp ⟨lines, hpack, hline⟩).1) (fits_packs _ _ hpack).1
    constructor
    · rintro ⟨htogether, _⟩ lines hpack
      rw [← hlines lines hpack]
      exact htogether lines hpack
    · intro h
      refine ⟨fun lines hpack => ?_, fun line _ => hwords line⟩
      rw [hlines lines hpack]
      exact h lines hpack
  · -- a single line is cut at its words
    rename_i hsingle
    refine ⟨fun _ lines hpack => ?_, fun _ => hwords paragraph⟩
    obtain ⟨line, _, rfl⟩ := List.exists_cons_of_ne_nil (fits_packs _ _ hpack).1
    obtain ⟨hline, hshort⟩ :=
      exists_together_mem_packs.mp ⟨_, hpack, List.mem_cons_self ..⟩
    rw [lines_eq_singleton hsingle, List.mem_singleton] at hline
    rw [hline] at hshort
    exact absurd hshort (Nat.not_le.mpr hlong)

end Cut

/-! ### The chunks -/

/-- The three places where `chunk_text` does not look for a boundary hold none behind
a text. -/
structure PacksApart (maxChars : Nat) (text : List Char) : Prop where
  /-- A paragraph that is kept whole has its boundary lines first. -/
  whole : ∀ paragraph ∈ textParagraphs text, paragraph.length ≤ maxChars →
    SectionsApart (paragraph.splitOn '\n')
  /-- A paragraph whose boundary is hidden does not fit behind one with a text line. -/
  hidden : ∀ paragraphs, .together paragraphs ∈ paragraphPacks maxChars text →
    paragraphs.Pairwise fun earlier later => hidesBoundary later = true →
      ∀ line ∈ earlier.splitOn '\n', isTextLine line = false
  /-- No boundary line of an oversized paragraph fits behind a text line of it. -/
  cut : ∀ paragraph ∈ textParagraphs text, maxChars < paragraph.length →
    ∀ lines, .together lines ∈ linePacks maxChars paragraph → SectionsApart lines

/-- In a pack of paragraphs the boundaries come first if and only if they do in each
paragraph and no hidden one is behind a text line. -/
theorem pack_sectionsApart_iff {maxChars : Nat} {text : List Char} {paragraphs : List (List Char)}
    (hpack : .together paragraphs ∈ paragraphPacks maxChars text) :
    SectionsApart ((['\n', '\n'].intercalate paragraphs).splitOn '\n') ↔
      (∀ paragraph ∈ paragraphs, SectionsApart (paragraph.splitOn '\n')) ∧
        paragraphs.Pairwise fun earlier later => hidesBoundary later = true →
          ∀ line ∈ earlier.splitOn '\n', isTextLine line = false := by
  rw [sectionsApart_joined, and_congr_right_iff]
  intro hapart
  have hfits : (Pack.together paragraphs).Fits List.length 2 maxChars startsNewSection :=
    fits_packs (textParagraphs text) _ hpack
  have hshape : ∀ paragraph ∈ paragraphs, paragraph ≠ [] ∧ trim paragraph = paragraph :=
    fun paragraph hmem =>
      mem_textParagraphs (exists_together_mem_packs.mp ⟨paragraphs, hpack, hmem⟩).1
  obtain ⟨first, rest, rfl⟩ := List.exists_cons_of_ne_nil hfits.1
  -- a later paragraph was not seen to start a section, so its boundary is hidden
  have hpair : ∀ earlier, ∀ later ∈ rest, ComesBefore earlier later ↔
      (hidesBoundary later = true → ∀ line ∈ earlier.splitOn '\n', isTextLine line = false) := by
    intro earlier later hlater
    have hmem := List.mem_cons_of_mem first hlater
    rw [comesBefore_iff (hshape later hmem).1 (hshape later hmem).2 (hapart later hmem),
      hidesBoundary, hfits.2.2 later hlater, Bool.not_false, Bool.and_true]
  rw [List.pairwise_cons, List.pairwise_cons]
  refine and_congr ?_ ?_
  · exact forall₂_congr fun later hlater => hpair first later hlater
  · exact List.Pairwise.iff_of_mem fun _ hlater => hpair _ _ hlater

/-- The chunks of a text have no boundary line behind a text line if and only if none
of the three unseen places does. -/
theorem chunkText_sectionsApart_iff (rawText : String) (maxChars : Int) (hmax : 200 ≤ maxChars) :
    (∀ chunks, chunkText rawText maxChars = .ok chunks →
      ∀ chunk ∈ chunks, SectionsApart (chunk.toList.splitOn '\n')) ↔
    ∀ normalized, normalizeText rawText = some normalized →
      PacksApart maxChars.toNat normalized.toList := by
  have hpos : 0 < maxChars.toNat := by omega
  cases hnormal : normalizeText rawText with
  | none =>
    -- a blank text has no chunks
    constructor
    · intro _ normalized h
      cases h
    · intro _ chunks hchunks
      rw [chunkText, if_neg (Int.not_lt.mpr hmax), hnormal] at hchunks
      cases hchunks
  | some normalized =>
    have hchunks : (∀ chunks, chunkText rawText maxChars = .ok chunks →
        ∀ chunk ∈ chunks, SectionsApart (chunk.toList.splitOn '\n')) ↔
          ∀ chunk ∈ chunkLoop maxChars.toNat (textParagraphs normalized.toList) [],
            SectionsApart (chunk.splitOn '\n') := by
      rw [chunkText_eq_ok hmax hnormal]
      simp only [Except.ok.injEq, forall_eq', List.forall_mem_map, String.toList_ofList]
    rw [hchunks, chunkLoop_textParagraphs, forall_mem_packsToTexts]
    simp only [Option.some.injEq, forall_eq']
    constructor
    · rintro ⟨htogether, halone⟩
      refine ⟨fun paragraph hmem hfits => ?_, fun paragraphs hpack => ?_,
        fun paragraph hmem hlong => ?_⟩
      · obtain ⟨paragraphs, hpack, hmem⟩ := exists_together_mem_packs.mpr ⟨hmem, hfits⟩
        exact ((pack_sectionsApart_iff hpack).mp (htogether paragraphs hpack)).1 paragraph hmem
      · exact ((pack_sectionsApart_iff hpack).mp (htogether paragraphs hpack)).2
      · exact (splitLargePart_sectionsApart_iff hpos hlong).mp
          (halone paragraph (alone_mem_packs.mpr ⟨hmem, hlong⟩))
    · intro hapart
      refine ⟨fun paragraphs hpack => ?_, fun paragraph hpack => ?_⟩
      · refine (pack_sectionsApart_iff hpack).mpr ⟨fun paragraph hmem => ?_,
          hapart.hidden paragraphs hpack⟩
        obtain ⟨hmem, hfits⟩ := exists_together_mem_packs.mp ⟨paragraphs, hpack, hmem⟩
        exact hapart.whole paragraph hmem hfits
      · obtain ⟨hmem, hlong⟩ := alone_mem_packs.mp hpack
        exact (splitLargePart_sectionsApart_iff hpos hlong).mpr (hapart.cut paragraph hmem hlong)

/-- A heading right behind a line of text, in one paragraph. -/
theorem chunkText_packs_heading :
    ¬ ∀ rawText maxChars chunks, 200 ≤ maxChars → chunkText rawText maxChars = .ok chunks →
      ∀ chunk ∈ chunks, SectionsApart (chunk.toList.splitOn '\n') := by
  intro h
  have hchunks : chunkText "intro text\n# Heading" 200 = .ok ["intro text\n# Heading"] := by
    decide +kernel
  have happart := h _ _ _ (by decide) hchunks _ (List.mem_singleton_self _)
  exact absurd happart (by decide +kernel)

/-- The law at a text with a section of its own. -/
theorem chunkText_sectionsApart_section :
    (∀ chunks, chunkText "intro\n\n# Title" 200 = .ok chunks →
      ∀ chunk ∈ chunks, SectionsApart (chunk.toList.splitOn '\n')) ↔
    ∀ normalized, normalizeText "intro\n\n# Title" = some normalized →
      PacksApart (200 : Int).toNat normalized.toList :=
  chunkText_sectionsApart_iff "intro\n\n# Title" 200 (by decide)

end AliceBot
