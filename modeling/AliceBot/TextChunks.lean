import AliceBot.Library.GreedyPack
import AliceBot.SourceCapture

/-!
# Text chunks

`chunk_text` cuts a text into chunks of a bounded length with three splitters, one
inside the other: paragraphs are packed together, an oversized paragraph is packed by
its lines, and an oversized line by its words.

Each splitter flushes what it has collected at several places. `packsToTexts` is what
all three come to: greedy packing, with the packed parts joined and the oversized
ones cut by the next splitter (`bufferLoop_eq`, `chunkLoop_eq`). That nothing is
lost and that the bound is kept is then shown once for every splitter
(`solid_packsToTexts`, `length_packsToTexts_le`).
-/

namespace AliceBot

open PyLib

/-! ### Words and lines -/

/-- `word[index : index + max_chars]` for every `index` in steps of `max_chars`. -/
def slices (maxChars : Nat) (word : List Char) : List (List Char) :=
  if word = [] ∨ maxChars = 0 then []
  else word.take maxChars :: slices maxChars (word.drop maxChars)
termination_by word.length
decreasing_by
  rename_i h
  have hpos := List.length_pos_iff.mpr (mt Or.inl h)
  have hmax := Nat.pos_of_ne_zero (mt Or.inr h)
  rw [List.length_drop]
  omega

/-- The loop of `_split_on_words` and of the lines in `_split_large_part`: parts
collect in `current`, whose length joined is `currentLength`, and oversized parts
are cut. -/
def bufferLoop (maxChars : Nat) (sep : Char) (cut : List Char → List (List Char)) :
    List (List Char) → List (List Char) → Nat → List (List Char)
  | [], current, _ => if current.isEmpty then [] else [[sep].intercalate current]
  | part :: parts, current, currentLength =>
    if maxChars < part.length then
      if current.isEmpty then cut part ++ bufferLoop maxChars sep cut parts current currentLength
      else [sep].intercalate current :: (cut part ++ bufferLoop maxChars sep cut parts [] 0)
    else
      let projected := currentLength + part.length + (if current.isEmpty then 0 else 1)
      if !current.isEmpty && decide (maxChars < projected) then
        [sep].intercalate current :: bufferLoop maxChars sep cut parts [part] part.length
      else bufferLoop maxChars sep cut parts (current ++ [part]) projected

/-- `part.split()`. -/
def partWords (part : List Char) : List (List Char) :=
  (part.splitOnP isSpace).filter (· ≠ [])

/-- `_split_on_words`. -/
def splitOnWords (maxChars : Nat) (part : List Char) : List (List Char) :=
  bufferLoop maxChars ' ' (slices maxChars) (partWords part) [] 0

/-- `_split_large_part`. -/
def splitLargePart (maxChars : Nat) (part : List Char) : List (List Char) :=
  let lines := part.splitOn '\n'
  if 1 < lines.length then
    (bufferLoop maxChars '\n' (splitOnWords maxChars) lines [] 0).filter fun chunk =>
      !(trim chunk).isEmpty
  else splitOnWords maxChars part

/-! ### Paragraphs -/

/-- `_SECTION_BOUNDARY.match(line)`, of a line. -/
def isSectionBoundary (line : List Char) : Bool :=
  let hashes := (line.takeWhile (· == '#')).length
  let rule := fun mark : Char =>
    decide (3 ≤ (line.takeWhile (· == mark)).length) && (line.dropWhile (· == mark)).all isSpace
  (decide (1 ≤ hashes) && decide (hashes ≤ 6) && (line.dropWhile (· == '#')).head?.any isSpace)
    || rule '-' || rule '*' || rule '_'

/-- `_starts_new_section`. -/
def startsNewSection (paragraph : List Char) : Bool :=
  isSectionBoundary (trimEnd ((trimStart paragraph).takeWhile (· != '\n')))

/-- The length of `\s*\n` at the start of a text: the white space up to its last
newline. -/
def blankLinesLength (rest : List Char) : Nat :=
  ((rest.takeWhile isSpace).reverse.dropWhile (· != '\n')).length

/-- `re.split(r"\n\s*\n", text)`, where so many characters still belong to a separator. -/
def splitBlankLines : Nat → List Char → List (List Char)
  | _, [] => [[]]
  | skip + 1, _ :: rest => splitBlankLines skip rest
  | 0, c :: rest =>
    if c = '\n' ∧ 0 < blankLinesLength rest then
      [] :: splitBlankLines (blankLinesLength rest) rest
    else (splitBlankLines 0 rest).modifyHead (c :: ·)

/-- The paragraphs of a text, stripped. -/
def textParagraphs (text : List Char) : List (List Char) :=
  ((splitBlankLines 0 text).map trim).filter (· ≠ [])

/-- The loop over the paragraphs. -/
def chunkLoop (maxChars : Nat) : List (List Char) → List Char → List (List Char)
  | [], current => if current ≠ [] then [current] else []
  | paragraph :: rest, current =>
    let ends := decide (current ≠ []) && startsNewSection paragraph
    (if ends then [current] else []) ++
      let current := if ends then [] else current
      -- a paragraph that is too long closes the pack and is split by itself
      if maxChars < paragraph.length then
        (if current ≠ [] then [current] else []) ++
          (splitLargePart maxChars paragraph ++ chunkLoop maxChars rest [])
      else
        let separator := if current ≠ [] then ['\n', '\n'] else []
        let projected := current ++ separator ++ paragraph
        if current ≠ [] ∧ maxChars < projected.length then
          current :: chunkLoop maxChars rest paragraph
        else chunkLoop maxChars rest projected

/-- `chunk_text`. A text in pieces of a bounded length, which end where a section does.
-/
def chunkText (rawText : String) (maxChars : Int) : Except CaptureError (List String) :=
  if maxChars < 200 then .error (.validation "chunk max_chars must be at least 200")
  else
    match normalizeText rawText with
    | none => .error (.validation "source text must not be empty")
    | some normalized =>
      let chunks := chunkLoop maxChars.toNat (textParagraphs normalized.toList) []
      .ok (if chunks.isEmpty then [normalized] else chunks.map String.ofList)

/-! ### The splitters as greedy packing -/

/-- The texts of a pack: its parts joined, or the oversized part cut. -/
def packTexts (sep : List Char) (cut : List Char → List (List Char)) :
    Pack (List Char) → List (List Char)
  | .together parts => [sep.intercalate parts]
  | .alone part => cut part

def packsToTexts (sep : List Char) (cut : List Char → List (List Char))
    (packs : List (Pack (List Char))) : List (List Char) :=
  packs.flatMap (packTexts sep cut)

section Packed

variable {maxChars : Nat} {cut : List Char → List (List Char)}

/-- The buffer loop packs greedily: the length it carries is that of the pending
parts joined. -/
theorem bufferLoop_eq (sep : Char) (parts current : List (List Char)) {currentLength : Nat}
    (h : currentLength = width List.length 1 current) :
    bufferLoop maxChars sep cut parts current currentLength =
      packsToTexts [sep] cut
        (packGreedily List.length 1 maxChars (fun _ => false) current parts) := by
  induction parts generalizing current currentLength with
  | nil =>
    rw [bufferLoop, packGreedily, closed]
    split <;> rfl
  | cons part parts ih =>
    have hnone : bufferLoop maxChars sep cut parts [] 0 = packsToTexts [sep] cut _ := ih [] rfl
    rw [bufferLoop, packGreedily]
    cases current with
    | nil =>
      -- nothing is pending: the carried length is zero
      have hzero : currentLength = 0 := h
      subst hzero
      by_cases hover : maxChars < part.length
      · rw [if_pos hover, if_pos hover, if_pos List.isEmpty_nil, hnone]
        rfl
      · rw [if_neg hover, if_neg hover]
        have hlength : 0 + part.length + 0 = width List.length 1 [part] := by
          rw [width_singleton, Nat.zero_add, Nat.add_zero]
        exact ih [part] hlength
    | cons first current =>
      have hne := List.cons_ne_nil first current
      by_cases hover : maxChars < part.length
      · rw [if_pos hover, if_pos hover, List.isEmpty_cons, if_neg Bool.false_ne_true, hnone]
        rfl
      · rw [if_neg hover, if_neg hover]
        have hjoined : currentLength + part.length + 1 =
            width List.length 1 (first :: current ++ [part]) := by
          rw [width_concat hne, h]
        simp only [List.isEmpty_cons, Bool.not_false, Bool.true_and, Bool.false_or,
          Bool.false_eq_true, if_false, h]
        split
        · rw [ih [part] (width_singleton part).symm]
          rfl
        · rw [← h, ih _ hjoined]

/-- The loop over the paragraphs packs greedily: its text is that of the pending
paragraphs joined, which is empty only if none is pending. -/
theorem chunkLoop_eq (paragraphs pending : List (List Char))
    (hparagraphs : ∀ paragraph ∈ paragraphs, paragraph ≠ [])
    (hpending : ∀ paragraph ∈ pending, paragraph ≠ []) :
    chunkLoop maxChars paragraphs (['\n', '\n'].intercalate pending) =
      packsToTexts ['\n', '\n'] (splitLargePart maxChars)
        (packGreedily List.length 2 maxChars startsNewSection pending paragraphs) := by
  -- along the paragraphs, with the pending ones generalized
  induction paragraphs generalizing pending with
  | nil =>
    rw [chunkLoop, packGreedily, closed]
    cases pending with
    | nil => rfl
    | cons first pending =>
      rw [if_pos (intercalate_ne_nil (List.cons_ne_nil first pending) hpending)]
      rfl
  | cons paragraph rest ih =>
    obtain ⟨hparagraph, hrest⟩ := List.forall_mem_cons.mp hparagraphs
    have hnone := ih [] hrest fun _ h => absurd h List.not_mem_nil
    have hone := ih [paragraph] hrest (List.forall_mem_singleton.mpr hparagraph)
    rw [List.intercalate_nil] at hnone
    rw [List.intercalate_singleton] at hone
    rw [chunkLoop, packGreedily]
    -- a paragraph that begins a pack, and one that is packed with others
    cases pending with
    | nil =>
      simp only [List.intercalate_nil, ne_eq, not_true_eq_false, decide_false, Bool.false_and,
        Bool.false_eq_true, if_false, List.nil_append, false_and, List.isEmpty_nil, Bool.not_true,
        hnone, hone]
      split <;> rfl
    | cons first pending =>
      have hne := List.cons_ne_nil first pending
      have hjoined : ['\n', '\n'].intercalate (first :: pending) ≠ [] :=
        intercalate_ne_nil hne hpending
      have hlength := length_intercalate ['\n', '\n'] (first :: pending)
      have hconcat := ih (first :: pending ++ [paragraph]) hrest
        (List.forall_mem_append.mpr ⟨hpending, List.forall_mem_singleton.mpr hparagraph⟩)
      rw [intercalate_concat hne] at hconcat
      generalize hcurrent : ['\n', '\n'].intercalate (first :: pending) = current at *
      rw [List.isEmpty_cons, Bool.not_false, Bool.true_and, decide_eq_true hjoined, Bool.true_and]
      -- a heading closes the pack; any other paragraph joins it while the width allows
      cases hopens : startsNewSection paragraph with
      | true =>
        simp only [if_true, ne_eq, not_true_eq_false, if_false, false_and, List.nil_append,
          Bool.true_or, hnone, hone]
        split
        · rw [← hcurrent]
          rfl
        · rw [← hcurrent]
          rfl
      | false =>
        have hprojected : (current ++ ['\n', '\n'] ++ paragraph).length =
            width List.length 2 (first :: pending) + paragraph.length + 2 := by
          rw [List.length_append, List.length_append, hlength]
          exact Nat.add_right_comm ..
        simp only [Bool.false_eq_true, if_false, List.nil_append, ne_eq, hjoined,
          not_false_eq_true, if_true, true_and, Bool.false_or, hnone, hprojected, decide_eq_true_eq]
        split
        · rw [← hcurrent]
          rfl
        · split
          · rw [hone, ← hcurrent]
            rfl
          · exact hconcat

end Packed

/-! ### Nothing is lost -/

/-- The texts keep what was cut, and the bound. -/
structure IsSplit (maxChars : Nat) (content : List Char) (texts : List (List Char)) : Prop where
  keeps : texts.flatMap solid = content
  bound : ∀ text ∈ texts, text.length ≤ maxChars

section Splits

variable {maxChars : Nat} {sep : List Char} {cut : List Char → List (List Char)}
  {packs : List (Pack (List Char))}

/-- The texts of packs have the characters of their parts, if separators are blank and
cutting loses nothing. -/
theorem solid_packsToTexts (hsep : ∀ c ∈ sep, isSpace c = true)
    (hcut : ∀ part, .alone part ∈ packs → (cut part).flatMap solid = solid part) :
    (packsToTexts sep cut packs).flatMap solid = (packs.flatMap Pack.parts).flatMap solid := by
  induction packs with
  | nil => rfl
  | cons pack packs ih =>
    have hrest := ih fun part h => hcut part (List.mem_cons_of_mem _ h)
    rw [packsToTexts] at hrest
    rw [packsToTexts, List.flatMap_cons, List.flatMap_append, List.flatMap_cons,
      List.flatMap_append, hrest]
    congr 1
    cases pack with
    | together parts =>
      rw [packTexts, List.flatMap_singleton, solid_intercalate hsep]
      rfl
    | alone part =>
      rw [packTexts, hcut part (List.mem_cons_self ..), Pack.parts_alone, List.flatMap_singleton]

theorem length_packsToTexts_le {opens : List Char → Bool}
    (hfits : ∀ pack ∈ packs, pack.Fits List.length sep.length maxChars opens)
    (hcut : ∀ part, .alone part ∈ packs → ∀ text ∈ cut part, text.length ≤ maxChars) :
    ∀ text ∈ packsToTexts sep cut packs, text.length ≤ maxChars := by
  intro text htext
  obtain ⟨pack, hpack, htext⟩ := List.mem_flatMap.mp htext
  cases pack with
  | together parts =>
    obtain rfl := List.mem_singleton.mp htext
    rw [length_intercalate]
    exact (hfits _ hpack).2.1
  | alone part => exact hcut part hpack text htext

/-- Packing splits the parts, if cutting splits an oversized one. -/
theorem isSplit_packGreedily (hsep : ∀ c ∈ sep, isSpace c = true) {opens : List Char → Bool}
    (parts : List (List Char))
    (hcut : ∀ part ∈ parts, maxChars < part.length → IsSplit maxChars (solid part) (cut part)) :
    IsSplit maxChars (parts.flatMap solid)
      (packsToTexts sep cut (packGreedily List.length sep.length maxChars opens [] parts)) := by
  have hfits : ∀ pack ∈ packGreedily List.length sep.length maxChars opens [] parts,
      pack.Fits List.length sep.length maxChars opens :=
    fits_packGreedily parts fun h => absurd rfl h
  have hparts : (packGreedily List.length sep.length maxChars opens [] parts).flatMap Pack.parts =
      parts := parts_packGreedily [] parts
  generalize packGreedily List.length sep.length maxChars opens [] parts = packs at hfits hparts ⊢
  -- only oversized parts are cut
  have halone : ∀ part, .alone part ∈ packs → IsSplit maxChars (solid part) (cut part) := by
    intro part hpart
    have hmem : part ∈ packs.flatMap Pack.parts :=
      List.mem_flatMap.mpr ⟨_, hpart, List.mem_singleton_self part⟩
    rw [hparts] at hmem
    exact hcut part hmem (hfits _ hpart)
  refine ⟨?_, length_packsToTexts_le hfits fun part hpart => (halone part hpart).bound⟩
  rw [solid_packsToTexts hsep fun part hpart => (halone part hpart).keeps, hparts]

/-- A text whose parts are not blank is not blank. -/
theorem solid_ne_nil_packsToTexts {opens : List Char → Bool} {gap : Nat}
    (hsep : ∀ c ∈ sep, isSpace c = true)
    (hfits : ∀ pack ∈ packs, pack.Fits List.length gap maxChars opens)
    (hparts : ∀ part ∈ packs.flatMap Pack.parts, solid part ≠ [])
    (hcut : ∀ part, .alone part ∈ packs → ∀ text ∈ cut part, solid text ≠ []) :
    ∀ text ∈ packsToTexts sep cut packs, solid text ≠ [] := by
  intro text htext
  obtain ⟨pack, hpack, htext⟩ := List.mem_flatMap.mp htext
  cases pack with
  | together parts =>
    obtain rfl := List.mem_singleton.mp htext
    rw [solid_intercalate hsep]
    obtain ⟨first, parts, rfl⟩ := List.exists_cons_of_ne_nil (hfits _ hpack).1
    have hfirst := hparts first (List.mem_flatMap.mpr ⟨_, hpack, List.mem_cons_self ..⟩)
    intro heq
    exact hfirst (List.append_eq_nil_iff.mp heq).1
  | alone part => exact hcut part hpack text htext

end Splits

/-! ### The splitters -/

section Splitters

variable {maxChars : Nat}

theorem flatten_slices (hmax : 0 < maxChars) (word : List Char) :
    (slices maxChars word).flatten = word := by
  fun_induction slices maxChars word with
  | case1 word h => exact (h.resolve_right hmax.ne').symm
  | case2 word h ih =>
    rw [List.flatten_cons, ih, List.take_append_drop]

theorem length_slices_le (word : List Char) :
    ∀ piece ∈ slices maxChars word, piece.length ≤ maxChars := by
  fun_induction slices maxChars word with
  | case1 word h => exact fun piece hpiece => absurd hpiece List.not_mem_nil
  | case2 word h ih =>
    exact List.forall_mem_cons.mpr ⟨List.length_take_le _ _, ih⟩

theorem slices_ne_nil (word : List Char) : ∀ piece ∈ slices maxChars word, piece ≠ [] := by
  fun_induction slices maxChars word with
  | case1 word h => exact fun piece hpiece => absurd hpiece List.not_mem_nil
  | case2 word h ih =>
    refine List.forall_mem_cons.mpr ⟨?_, ih⟩
    intro heq
    rcases List.take_eq_nil_iff.mp heq with hmax | hword
    · exact h (Or.inr hmax)
    · exact h (Or.inl hword)

theorem slices_isSplit (hmax : 0 < maxChars) (word : List Char) :
    IsSplit maxChars (solid word) (slices maxChars word) where
  keeps := by
    conv_rhs => rw [← flatten_slices hmax word]
    rw [solid, List.filter_flatten, List.flatMap]
    rfl
  bound := length_slices_le word

theorem isWord_of_mem_partWords {part word : List Char} (h : word ∈ partWords part) :
    word ≠ [] ∧ ∀ c ∈ word, isSpace c = false := by
  obtain ⟨hsplit, hne⟩ := List.mem_filter.mp h
  exact ⟨of_decide_eq_true hne, eq_false_of_mem_splitOnP hsplit⟩

theorem flatMap_solid_partWords (part : List Char) :
    (partWords part).flatMap solid = solid part := by
  rw [partWords, flatMap_solid_filter, flatMap_solid_splitOnP fun _ h => h]
  intro piece _ hpiece
  have hnil : piece = [] := by simpa using hpiece
  rw [hnil, solid_nil]

/-- Words and slices of words are not blank. -/
theorem solid_ne_nil_of_word {word : List Char}
    (h : word ≠ [] ∧ ∀ c ∈ word, isSpace c = false) : solid word ≠ [] := by
  rw [solid_of_noSpace h.2]
  exact h.1

theorem mem_of_mem_slices (hmax : 0 < maxChars) {word piece : List Char} {c : Char}
    (hpiece : piece ∈ slices maxChars word) (hc : c ∈ piece) : c ∈ word := by
  rw [← flatten_slices hmax word]
  exact List.mem_flatten.mpr ⟨piece, hpiece, hc⟩

theorem splitOnWords_eq (part : List Char) :
    splitOnWords maxChars part = packsToTexts [' '] (slices maxChars)
      (packGreedily List.length 1 maxChars (fun _ => false) [] (partWords part)) :=
  bufferLoop_eq ' ' (partWords part) [] rfl

theorem space_isSpace : ∀ c ∈ [' '], isSpace c = true :=
  List.forall_mem_singleton.mpr (by decide)

theorem newline_isSpace : ∀ c ∈ ['\n'], isSpace c = true :=
  List.forall_mem_singleton.mpr (by decide)

theorem blankLine_isSpace : ∀ c ∈ ['\n', '\n'], isSpace c = true :=
  List.forall_mem_cons.mpr ⟨by decide, newline_isSpace⟩

theorem splitOnWords_isSplit (hmax : 0 < maxChars) (part : List Char) :
    IsSplit maxChars (solid part) (splitOnWords maxChars part) := by
  rw [splitOnWords_eq, ← flatMap_solid_partWords part]
  exact isSplit_packGreedily space_isSpace (partWords part) fun word _ _ =>
    slices_isSplit hmax word

theorem splitOnWords_ne_blank (hmax : 0 < maxChars) (part : List Char) :
    ∀ text ∈ splitOnWords maxChars part, solid text ≠ [] := by
  rw [splitOnWords_eq]
  have hparts : (packGreedily List.length 1 maxChars (fun _ => false) [] (partWords part)).flatMap
      Pack.parts = partWords part := parts_packGreedily [] _
  have hword : ∀ word ∈ (packGreedily List.length 1 maxChars (fun _ => false) []
      (partWords part)).flatMap Pack.parts, word ≠ [] ∧ ∀ c ∈ word, isSpace c = false := by
    intro word hmem
    rw [hparts] at hmem
    exact isWord_of_mem_partWords hmem
  refine solid_ne_nil_packsToTexts space_isSpace (fits_packs _)
    (fun word hmem => solid_ne_nil_of_word (hword word hmem)) fun word hmem text htext => ?_
  have hsolid := (hword word (List.mem_flatMap.mpr ⟨_, hmem, List.mem_singleton_self word⟩)).2
  exact solid_ne_nil_of_word ⟨slices_ne_nil word text htext, fun c hc =>
    hsolid c (mem_of_mem_slices hmax htext hc)⟩

theorem flatMap_solid_lines (part : List Char) :
    (part.splitOn '\n').flatMap solid = solid part := by
  rw [List.splitOn_eq_splitOnP]
  refine flatMap_solid_splitOnP (fun c hc => ?_) part
  rw [beq_iff_eq.mp hc]
  decide

theorem packedLines_eq (lines : List (List Char)) :
    bufferLoop maxChars '\n' (splitOnWords maxChars) lines [] 0 =
      packsToTexts ['\n'] (splitOnWords maxChars)
        (packGreedily List.length 1 maxChars (fun _ => false) [] lines) :=
  bufferLoop_eq '\n' lines [] rfl

/-- A part that is too long is cut into pieces within the bound, and only white space is
lost. -/
theorem splitLargePart_isSplit (hmax : 0 < maxChars) (part : List Char) :
    IsSplit maxChars (solid part) (splitLargePart maxChars part) := by
  unfold splitLargePart
  dsimp only
  split
  · have hlines : IsSplit maxChars ((part.splitOn '\n').flatMap solid) (packsToTexts ['\n'] _
        (packGreedily List.length 1 maxChars (fun _ => false) [] (part.splitOn '\n'))) :=
      isSplit_packGreedily newline_isSpace _ fun line _ _ => splitOnWords_isSplit hmax line
    rw [packedLines_eq]
    refine ⟨?_, fun text htext => hlines.bound text (List.mem_of_mem_filter htext)⟩
    rw [flatMap_solid_filter, ← flatMap_solid_lines part]
    · exact hlines.keeps
    · intro text _ hblank
      apply trim_eq_nil_iff.mp
      simpa using hblank
  · exact splitOnWords_isSplit hmax part

theorem splitLargePart_ne_blank (hmax : 0 < maxChars) (part : List Char) :
    ∀ text ∈ splitLargePart maxChars part, solid text ≠ [] := by
  unfold splitLargePart
  dsimp only
  split
  · intro text htext hblank
    have hkept := (List.mem_filter.mp htext).2
    rw [trim_eq_nil_iff.mpr hblank] at hkept
    exact Bool.false_ne_true hkept
  · exact splitOnWords_ne_blank hmax part

end Splitters

/-! ### The paragraphs of a text -/

/-- The blank lines of a separator are white space. -/
theorem solid_drop_blankLines (rest : List Char) :
    solid (rest.drop (blankLinesLength rest)) = solid rest := by
  have hle : blankLinesLength rest ≤ (rest.takeWhile isSpace).length := by
    have hsuffix := List.dropWhile_suffix (l := (rest.takeWhile isSpace).reverse) (· != '\n')
    exact hsuffix.length_le.trans (List.length_reverse ..).le
  have hspace : ∀ c ∈ rest.takeWhile isSpace, isSpace c = true := fun c hc =>
    List.mem_takeWhile_imp hc
  have hrun : solid (rest.takeWhile isSpace) = [] := solid_of_space hspace
  have hdrop : solid ((rest.takeWhile isSpace).drop (blankLinesLength rest)) = [] :=
    solid_of_space fun c hc => hspace c (List.mem_of_mem_drop hc)
  calc solid (rest.drop (blankLinesLength rest))
      = solid ((rest.takeWhile isSpace ++ rest.dropWhile isSpace).drop
          (blankLinesLength rest)) := by rw [List.takeWhile_append_dropWhile]
    _ = solid (rest.dropWhile isSpace) := by
        rw [List.drop_append_of_le_length hle, solid_append, hdrop, List.nil_append]
    _ = solid rest := solid_dropWhile rest

theorem splitBlankLines_ne_nil (skip : Nat) (text : List Char) :
    splitBlankLines skip text ≠ [] := by
  fun_induction splitBlankLines skip text with
  | case1 skip => exact List.cons_ne_nil [] []
  | case2 skip c rest ih => exact ih
  | case3 c rest hbreak ih => exact List.cons_ne_nil [] _
  | case4 c rest hplain ih => exact mt List.modifyHead_eq_nil_iff.mp ih

theorem flatMap_solid_splitBlankLines (skip : Nat) (text : List Char) :
    (splitBlankLines skip text).flatMap solid = solid (text.drop skip) := by
  fun_induction splitBlankLines skip text with
  | case1 skip =>
    rw [List.drop_nil]
    rfl
  | case2 skip c rest ih => exact ih
  | case3 c rest hbreak ih =>
    have hnewline : solid [c] = [] := by
      rw [hbreak.1]
      exact solid_of_space newline_isSpace
    rw [List.flatMap_cons, ih, solid_drop_blankLines, List.drop_zero, ← List.singleton_append,
      solid_append, hnewline]
    rfl
  | case4 c rest hplain ih =>
    rw [flatMap_solid_modifyHead (splitBlankLines_ne_nil 0 rest), ih, ← solid_append]
    rfl

theorem mem_textParagraphs {text paragraph : List Char} (h : paragraph ∈ textParagraphs text) :
    paragraph ≠ [] ∧ trim paragraph = paragraph := by
  obtain ⟨hmem, hne⟩ := List.mem_filter.mp h
  obtain ⟨part, _, rfl⟩ := List.mem_map.mp hmem
  exact ⟨of_decide_eq_true hne, trim_trim part⟩

theorem flatMap_solid_textParagraphs (text : List Char) :
    (textParagraphs text).flatMap solid = solid text := by
  rw [textParagraphs, flatMap_solid_filter, List.flatMap_map]
  · simp only [solid_trim]
    exact flatMap_solid_splitBlankLines 0 text
  · intro paragraph _ hdrop
    have hnil : paragraph = [] := by simpa using hdrop
    rw [hnil, solid_nil]

/-! ### The chunks -/

/-- The packs of the paragraphs of a text. -/
def paragraphPacks (maxChars : Nat) (text : List Char) : List (Pack (List Char)) :=
  packGreedily List.length 2 maxChars startsNewSection [] (textParagraphs text)

section Chunks

variable {maxChars : Nat}

theorem chunkLoop_textParagraphs (text : List Char) :
    chunkLoop maxChars (textParagraphs text) [] =
      packsToTexts ['\n', '\n'] (splitLargePart maxChars) (paragraphPacks maxChars text) :=
  chunkLoop_eq (textParagraphs text) [] (fun _ h => (mem_textParagraphs h).1)
    fun _ h => absurd h List.not_mem_nil

theorem chunkLoop_isSplit (hmax : 0 < maxChars) (text : List Char) :
    IsSplit maxChars (solid text) (chunkLoop maxChars (textParagraphs text) []) := by
  rw [chunkLoop_textParagraphs, ← flatMap_solid_textParagraphs text]
  exact isSplit_packGreedily blankLine_isSpace (textParagraphs text) fun paragraph _ _ =>
    splitLargePart_isSplit hmax paragraph

theorem chunkLoop_ne_blank (hmax : 0 < maxChars) (text : List Char) :
    ∀ chunk ∈ chunkLoop maxChars (textParagraphs text) [], solid chunk ≠ [] := by
  rw [chunkLoop_textParagraphs]
  have hparts : (paragraphPacks maxChars text).flatMap Pack.parts = textParagraphs text :=
    parts_packGreedily [] _
  refine solid_ne_nil_packsToTexts blankLine_isSpace (fits_packs _)
    (fun paragraph hmem => ?_) fun part _ => splitLargePart_ne_blank hmax part
  rw [hparts] at hmem
  obtain ⟨hne, htrim⟩ := mem_textParagraphs hmem
  intro hblank
  exact hne (htrim.symm.trans (trim_eq_nil_iff.mpr hblank))

end Chunks

/-- A normalised text is not blank, so there is a chunk. -/
theorem chunkLoop_ne_nil {rawText normalized : String} {maxChars : Nat} (hmax : 0 < maxChars)
    (h : normalizeText rawText = some normalized) :
    chunkLoop maxChars (textParagraphs normalized.toList) [] ≠ [] := by
  obtain ⟨hstrip, hne⟩ := strip_normalized h
  intro hnil
  have hkeeps := (chunkLoop_isSplit hmax normalized.toList).keeps
  rw [hnil] at hkeeps
  apply hne
  rw [← hstrip, strip_eq, trim_eq_nil_iff.mpr hkeeps.symm]

theorem chunkText_eq_ok {rawText normalized : String} {maxChars : Int} (hmax : 200 ≤ maxChars)
    (h : normalizeText rawText = some normalized) :
    chunkText rawText maxChars =
      .ok ((chunkLoop maxChars.toNat (textParagraphs normalized.toList) []).map String.ofList) := by
  have hpos : 0 < maxChars.toNat := by omega
  rw [chunkText, if_neg (Int.not_lt.mpr hmax), h]
  simp only [List.isEmpty_eq_false_iff.mpr (chunkLoop_ne_nil hpos h), Bool.false_eq_true, if_false]

/-- A text that is not blank is cut into chunks within the bound, none of them
blank, that hold every character of the normalised text but its white space. -/
theorem chunkText_keeps (rawText : String) (maxChars : Int) (hraw : strip rawText ≠ "")
    (hmax : 200 ≤ maxChars) :
    ∃ normalized chunks, normalizeText rawText = some normalized ∧
      chunkText rawText maxChars = .ok chunks ∧ chunks ≠ [] ∧
      (∀ chunk ∈ chunks, strip chunk ≠ "" ∧ (chunk.length : Int) ≤ maxChars) ∧
      solid (chunks.flatMap String.toList) = solid normalized.toList := by
  obtain ⟨normalized, hnormal⟩ : ∃ normalized, normalizeText rawText = some normalized :=
    ⟨_, normalizeText_of_not_blank hraw⟩
  have hpos : 0 < maxChars.toNat := by omega
  have hsome := chunkLoop_ne_nil hpos hnormal
  have hsplit := chunkLoop_isSplit hpos normalized.toList
  have hblank := chunkLoop_ne_blank hpos normalized.toList
  refine ⟨normalized, _, hnormal, chunkText_eq_ok hmax hnormal,
    mt List.map_eq_nil_iff.mp hsome, ?_, ?_⟩
  · -- no chunk is blank, and none is over the bound
    intro chunk hchunk
    obtain ⟨text, htext, rfl⟩ := List.mem_map.mp hchunk
    refine ⟨fun hempty => ?_, ?_⟩
    · rw [strip_eq, String.toList_ofList] at hempty
      exact hblank text htext (trim_eq_nil_iff.mp (String.ofList_eq_empty_iff.mp hempty))
    · rw [String.length_ofList]
      have hbound := hsplit.bound text htext
      omega
  · -- joined, the chunks have the characters of the text
    rw [List.flatMap_map]
    simp only [String.toList_ofList]
    rw [← hsplit.keeps, List.flatMap_id', solid, List.filter_flatten, List.flatMap]
    rfl

/-- A paragraph with a heading of its own behind it. -/
theorem chunkText_keeps_heading :
    ∃ normalized chunks, normalizeText "intro\n\n# Title" = some normalized ∧
      chunkText "intro\n\n# Title" 200 = .ok chunks ∧ chunks ≠ [] ∧
      (∀ chunk ∈ chunks, strip chunk ≠ "" ∧ (chunk.length : Int) ≤ 200) ∧
      solid (chunks.flatMap String.toList) = solid normalized.toList :=
  chunkText_keeps "intro\n\n# Title" 200 (by decide +kernel) (by decide)

end AliceBot
