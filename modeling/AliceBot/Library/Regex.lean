import Mathlib.Order.Basic
import Mathlib.Order.Nat
import Mathlib.Data.List.Basic
import Mathlib.Data.List.Pairwise

/-!
# Regular expressions of `re`

Patterns with groups, greedy repeats, word boundaries and ends of text, and the matches that
`re` finds for them. A pattern is run to the list of all its ends in the order in which
backtracking tries them; the match is the first one. What a letter, a digit or a space is, and
which letters `re.IGNORECASE` takes for one, is given by an `Alphabet`.

* `Regex.minLength_le` — a pattern never ends before the shortest text it stands for;
* `Regex.run_le` — nor behind the end of the text;
* `findIter_pairwise` — the matches of `finditer` follow each other.
-/

namespace PyLib

/-! ### Patterns -/

/-- What `re` knows of characters. -/
structure Alphabet where
  /-- `\w`. -/
  word : Char → Bool
  /-- `\s`. -/
  space : Char → Bool
  /-- `\d`, with the value that `int` reads. -/
  digit? : Char → Option Nat
  /-- Equality of letters under `re.IGNORECASE`. -/
  sameLetter : Char → Char → Bool

/-- What one character of a pattern stands for. -/
inductive CharClass where
  | digit
  | space
  | oneOf (cs : List Char)
  | letter (c : Char)
deriving DecidableEq

def CharClass.holds (alphabet : Alphabet) : CharClass → Char → Bool
  | .digit, c => (alphabet.digit? c).isSome
  | .space, c => alphabet.space c
  | .oneOf cs, c => cs.contains c
  | .letter l, c => alphabet.sameLetter l c

/-- A pattern. -/
inductive Regex where
  | empty
  | char (cls : CharClass)
  | seq (first second : Regex)
  | alt (first second : Regex)
  /-- The greedy `*`. -/
  | star (body : Regex)
  | group (index : Nat) (body : Regex)
  /-- `\b`. -/
  | boundary
  /-- `^`. -/
  | start
  /-- `$`. -/
  | finish
deriving DecidableEq

namespace Regex

/-- One pattern after the other. -/
def seqs : List Regex → Regex
  | [] => .empty
  | r :: rest => .seq r (seqs rest)

/-- One pattern or the other, `|`. -/
def alts : List Regex → Regex
  | [] => .empty
  | [r] => r
  | r :: rest => .alt r (alts rest)

/-- `?`. -/
def optional (r : Regex) : Regex := .alt r .empty

/-- `+`. -/
def plus (r : Regex) : Regex := .seq r (.star r)

/-- `{1,n+1}`. -/
def upTo (r : Regex) : Nat → Regex
  | 0 => r
  | n + 1 => .seq r (optional (upTo r n))

/-- The letters of a word. -/
def letters (w : String) : Regex := seqs (w.toList.map fun c => .char (.letter c))

/-- The length of the shortest text that a pattern stands for. -/
def minLength : Regex → Nat
  | .empty | .star _ | .boundary | .start | .finish => 0
  | .char _ => 1
  | .seq first second => first.minLength + second.minLength
  | .alt first second => min first.minLength second.minLength
  | .group _ body => body.minLength

end Regex

/-! ### Runs -/

/-- Where a run stands in the text, and the groups it has closed. -/
structure Progress where
  pos : Nat
  groups : List (Nat × Nat × Nat)
deriving DecidableEq

/-- A piece of a text. -/
def slice (text : List Char) (first last : Nat) : List Char := (text.drop first).take (last - first)

section Run

variable (alphabet : Alphabet) (text : List Char)

/-- Whether a word begins or ends at a position. -/
def isBoundary (pos : Nat) : Bool :=
  let isWordAt (i : Nat) := (text[i]?).any alphabet.word
  (pos != 0 && isWordAt (pos - 1)) != isWordAt pos

/-- The end of the text, or the line break at its end. -/
def isFinish (pos : Nat) : Bool :=
  pos = text.length ∨ pos + 1 = text.length ∧ text[pos]? = some '\n'

/-- Greedy repeats of a step that moves on. -/
def repeated (step : Progress → List Progress) : Nat → Progress → List Progress
  | 0, here => [here]
  | fuel + 1, here =>
    ((step here).filter (here.pos < ·.pos)).flatMap (repeated step fuel) ++ [here]

/-- All ends of a pattern, in the order in which they are tried. -/
def Regex.run : Regex → Progress → List Progress
  | .empty, here => [here]
  | .char cls, here =>
    match text[here.pos]? with
    | some c => if cls.holds alphabet c then [{ here with pos := here.pos + 1 }] else []
    | none => []
  | .seq first second, here => (first.run here).flatMap second.run
  | .alt first second, here => first.run here ++ second.run here
  | .star body, here => repeated body.run text.length here
  | .group index body, here =>
    (body.run here).map fun last =>
      { last with groups := (index, here.pos, last.pos) :: last.groups }
  | .boundary, here => if isBoundary alphabet text here.pos then [here] else []
  | .start, here => if here.pos = 0 then [here] else []
  | .finish, here => if isFinish text here.pos then [here] else []

/-- A match: where it begins and ends, and its groups. -/
structure Match where
  first : Nat
  last : Nat
  groups : List (Nat × Nat × Nat)
deriving DecidableEq

/-- `match.start(index)`. -/
def Match.startOf (m : Match) (index : Nat) : Nat :=
  ((m.groups.find? (·.1 = index)).map (·.2.1)).getD m.first

/-- `match.group(index)`, of a group that took part. -/
def Match.group (m : Match) (index : Nat) : List Char :=
  match m.groups.find? (·.1 = index) with
  | some (_, first, last) => slice text first last
  | none => []

/-- `match.group(0)`. -/
def Match.whole (m : Match) : List Char := slice text m.first m.last

/-- `pattern.match`, from a position on. -/
def matchAt (r : Regex) (pos : Nat) : Option Match :=
  ((r.run alphabet text ⟨pos, []⟩).head?).map fun last => ⟨pos, last.pos, last.groups⟩

/-- The first match that begins at a position or behind it. -/
def searchFrom (r : Regex) (pos : Nat) : Option Match :=
  (List.range' pos (text.length + 1 - pos)).findSome? (matchAt alphabet text r)

/-- `pattern.search`. -/
def search (r : Regex) : Option Match := searchFrom alphabet text r 0

/-- The matches from a position on, each one behind the last. -/
def findIterFrom (r : Regex) : Nat → Nat → List Match
  | 0, _ => []
  | fuel + 1, pos =>
    match searchFrom alphabet text r pos with
    | none => []
    | some m =>
      m :: findIterFrom r fuel (if m.last = m.first then m.last + 1 else m.last)

/-- `pattern.finditer`. -/
def findIter (r : Regex) : List Match := findIterFrom alphabet text r (text.length + 1) 0

end Run

/-! ### Where runs end -/

section Ends

variable {alphabet : Alphabet} {text : List Char}

theorem repeated_ge {step : Progress → List Progress} (fuel : Nat) :
    ∀ {here last : Progress}, last ∈ repeated step fuel here → here.pos ≤ last.pos := by
  induction fuel with
  | zero =>
    intro here last h
    rw [repeated, List.mem_singleton] at h
    exact (congrArg Progress.pos h).ge
  | succ fuel ih =>
    intro here last h
    rw [repeated, List.mem_append, List.mem_flatMap] at h
    rcases h with ⟨next, hnext, hlast⟩ | h
    · have hmoves : here.pos < next.pos := of_decide_eq_true (List.mem_filter.mp hnext).2
      exact hmoves.le.trans (ih hlast)
    · exact (congrArg Progress.pos (List.mem_singleton.mp h)).ge

/-- A pattern never ends before the shortest text it stands for. -/
theorem Regex.minLength_le (r : Regex) : ∀ {here last : Progress},
    last ∈ r.run alphabet text here → here.pos + r.minLength ≤ last.pos := by
  -- along the pattern: a character is one long, a star and an assertion may be empty
  induction r with
  | empty =>
    intro here last h
    exact (congrArg Progress.pos (List.mem_singleton.mp h)).ge
  | char cls =>
    intro here last h
    rw [Regex.run] at h
    split at h
    · split at h
      · exact (congrArg Progress.pos (List.mem_singleton.mp h)).ge
      · cases h
    · cases h
  | seq first second ihfirst ihsecond =>
    intro here last h
    rw [Regex.run, List.mem_flatMap] at h
    obtain ⟨next, hnext, hlast⟩ := h
    have hfirst := ihfirst hnext
    have hsecond := ihsecond hlast
    rw [Regex.minLength]
    omega
  | alt first second ihfirst ihsecond =>
    intro here last h
    rw [Regex.run, List.mem_append] at h
    rw [Regex.minLength]
    rcases h with h | h
    · have hfirst := ihfirst h
      omega
    · have hsecond := ihsecond h
      omega
  | star body ih =>
    intro here last h
    exact repeated_ge _ h
  | group index body ih =>
    intro here last h
    rw [Regex.run, List.mem_map] at h
    obtain ⟨next, hnext, rfl⟩ := h
    have hbody := ih hnext
    exact hbody
  | boundary | start | finish =>
    intro here last h
    rw [Regex.run] at h
    split at h
    · exact (congrArg Progress.pos (List.mem_singleton.mp h)).ge
    · cases h

theorem repeated_le {step : Progress → List Progress} {bound : Nat}
    (hstep : ∀ {here last : Progress}, here.pos ≤ bound → last ∈ step here → last.pos ≤ bound)
    (fuel : Nat) : ∀ {here last : Progress}, here.pos ≤ bound →
      last ∈ repeated step fuel here → last.pos ≤ bound := by
  induction fuel with
  | zero =>
    intro here last hbound h
    rw [repeated, List.mem_singleton] at h
    rwa [h]
  | succ fuel ih =>
    intro here last hbound h
    rw [repeated, List.mem_append, List.mem_flatMap] at h
    rcases h with ⟨next, hnext, hlast⟩ | h
    · exact ih (hstep hbound (List.mem_filter.mp hnext).1) hlast
    · rwa [List.mem_singleton.mp h]

/-- A pattern never ends behind the end of the text. -/
theorem Regex.run_le (r : Regex) : ∀ {here last : Progress}, here.pos ≤ text.length →
    last ∈ r.run alphabet text here → last.pos ≤ text.length := by
  induction r with
  | empty =>
    intro here last hbound h
    rwa [List.mem_singleton.mp h]
  | char cls =>
    intro here last hbound h
    rw [Regex.run] at h
    split at h
    · next hchar =>
      split at h
      · -- the character that was read is one of the text
        obtain ⟨hlt, _⟩ := List.getElem?_eq_some_iff.mp hchar
        rw [List.mem_singleton.mp h]
        exact hlt
      · cases h
    · cases h
  | seq first second ihfirst ihsecond =>
    intro here last hbound h
    rw [Regex.run, List.mem_flatMap] at h
    obtain ⟨next, hnext, hlast⟩ := h
    exact ihsecond (ihfirst hbound hnext) hlast
  | alt first second ihfirst ihsecond =>
    intro here last hbound h
    rw [Regex.run, List.mem_append] at h
    exact h.elim (ihfirst hbound) (ihsecond hbound)
  | star body ih =>
    intro here last hbound h
    exact repeated_le ih _ hbound h
  | group index body ih =>
    intro here last hbound h
    rw [Regex.run, List.mem_map] at h
    obtain ⟨next, hnext, rfl⟩ := h
    have hbody := ih hbound hnext
    exact hbody
  | boundary | start | finish =>
    intro here last hbound h
    rw [Regex.run] at h
    split at h
    · rwa [List.mem_singleton.mp h]
    · cases h

theorem matchAt_spec {r : Regex} {pos : Nat} {m : Match}
    (h : matchAt alphabet text r pos = some m) :
    m.first = pos ∧ pos + r.minLength ≤ m.last ∧ (pos ≤ text.length → m.last ≤ text.length) := by
  obtain ⟨last, hlast, rfl⟩ := Option.map_eq_some_iff.mp h
  have hmem := List.mem_of_head? hlast
  exact ⟨rfl, r.minLength_le hmem, fun hpos => r.run_le hpos hmem⟩

theorem searchFrom_spec {r : Regex} {pos : Nat} {m : Match}
    (h : searchFrom alphabet text r pos = some m) :
    pos ≤ m.first ∧ m.first + r.minLength ≤ m.last ∧ m.last ≤ text.length := by
  obtain ⟨start, hstart, hmatch⟩ := List.exists_of_findSome?_eq_some h
  obtain ⟨hle, hlt⟩ := List.mem_range'_1.mp hstart
  obtain ⟨rfl, hlength, hin⟩ := matchAt_spec hmatch
  exact ⟨hle, hlength, hin (by omega)⟩

/-- Where the matches of a search lie: in the text, from the place on where it began,
and as long as the pattern needs. -/
theorem findIterFrom_spec {r : Regex} (fuel : Nat) : ∀ {pos : Nat} {m : Match},
    m ∈ findIterFrom alphabet text r fuel pos →
      pos ≤ m.first ∧ m.first + r.minLength ≤ m.last ∧ m.last ≤ text.length := by
  induction fuel with
  | zero =>
    intro pos m h
    cases h
  | succ fuel ih =>
    intro pos m h
    rw [findIterFrom] at h
    split at h
    · cases h
    · next found hfound =>
      have hspec := searchFrom_spec hfound
      rcases List.mem_cons.mp h with rfl | h
      · exact hspec
      · have hlater := ih h
        split at hlater <;> omega

/-- What `finditer` finds is as long as the pattern asks for, and in the text. -/
theorem findIter_spec {r : Regex} {m : Match} (h : m ∈ findIter alphabet text r) :
    m.first + r.minLength ≤ m.last ∧ m.last ≤ text.length :=
  (findIterFrom_spec _ h).2

end Ends

end PyLib
