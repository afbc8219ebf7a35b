import Mathlib.Data.List.DropRight
import TrigPainting.Text.Blank
import TrigPainting.Text.Line

/-!
# Lines and the blanks around them

A text is cut at its line feeds, one after the other, so what stands before a line feed
has no part in the lines after it. The carriage return that may belong to an ending is
blank, and so the lines of a text, once trimmed, do not tell its endings apart.

## Main definitions

- `Padded` — a line with blanks around it
- `Ending`, `withEndings` — the two endings of a line, and lines with an ending each

## Main statements

- `lines_append_feed`, `lines_append_returnFeed` — the first line of a text
- `lineInduction` — induction over the lines of a text
- `trim_eq_of_padded` — trimming takes the blanks around a line away
- `map_trim_lines_withEndings` — the trimmed lines do not depend on the endings
-/

namespace TrigPainting.Text

-- ════════════════════════════════════════════════════════════════════════
-- Trimming
-- ════════════════════════════════════════════════════════════════════════

/-- A line with blanks around it. -/
def Padded (line other : List Char) : Prop :=
  ∃ before after, (∀ c ∈ before, isBlank c = true) ∧ (∀ c ∈ after, isBlank c = true) ∧
    other = before ++ line ++ after

theorem trim_eq_rdropWhile (text : List Char) :
    trim text = (trimLeft text).rdropWhile isBlank := rfl

theorem padded_refl (line : List Char) : Padded line line :=
  ⟨[], [], nofun, nofun, by simp⟩

theorem rdropWhile_append_of_blank {after : List Char} (h : ∀ c ∈ after, isBlank c = true)
    (text : List Char) :
    (text ++ after).rdropWhile isBlank = text.rdropWhile isBlank := by
  have hreverse : ∀ c ∈ after.reverse, isBlank c = true := by simpa using h
  simp only [List.rdropWhile, List.reverse_append, List.dropWhile_append_of_pos hreverse]

/-- Trimming takes the blanks around a line away. -/
theorem trim_eq_of_padded {line other : List Char} (h : Padded line other) :
    trim other = trim line := by
  obtain ⟨before, after, hbefore, hafter, rfl⟩ := h
  have hleft : trimLeft (before ++ line ++ after) = trimLeft (line ++ after) := by
    rw [trimLeft, List.append_assoc, List.dropWhile_append_of_pos hbefore]
    rfl
  rw [trim_eq_rdropWhile, trim_eq_rdropWhile, hleft, trimLeft, List.dropWhile_append]
  split
  · next hblank =>
    -- Nothing but blanks stands in the line, and so all of it is trimmed away.
    have hline : trimLeft line = [] := by simpa [trimLeft] using hblank
    rw [List.dropWhile_eq_nil_iff.mpr hafter, hline]
  · exact rdropWhile_append_of_blank hafter _

theorem trim_eq_self {text : List Char} (hfirst : ∀ c ∈ text.head?, isBlank c = false)
    (hlast : ∀ c ∈ text.getLast?, isBlank c = false) : trim text = text := by
  have hleft : trimLeft text = text := by
    rw [trimLeft, List.dropWhile_eq_self_iff]
    intro hlength
    have hvisible := hfirst text[0] (List.head?_eq_getElem? ▸ List.getElem?_eq_getElem hlength)
    simp [hvisible]
  rw [trim_eq_rdropWhile, hleft, List.rdropWhile_eq_self_iff]
  intro hne
  have hvisible := hlast (text.getLast hne) (List.getLast?_eq_some_getLast hne)
  simp [hvisible]

-- ════════════════════════════════════════════════════════════════════════
-- The first line
-- ════════════════════════════════════════════════════════════════════════

/-- A character that ends no line belongs to the first one. -/
theorem lines_cons {c : Char} {rest line : List Char} {others : List (List Char)}
    (hfeed : c ≠ '\n') (hreturn : c = '\r' → rest.head? ≠ some '\n')
    (h : lines rest = line :: others) : lines (c :: rest) = (c :: line) :: others := by
  rw [lines, h]
  · exact hfeed
  · rintro rest' hc rfl
    exact hreturn hc rfl

theorem head?_append_ne_feed {line rest : List Char} (hne : line ≠ []) (h : '\n' ∉ line) :
    (line ++ rest).head? ≠ some '\n' := by
  cases line with
  | nil => exact absurd rfl hne
  | cons c line =>
    intro hhead
    obtain rfl : c = '\n' := by simpa using hhead
    exact h (List.mem_cons_self ..)

theorem lines_append_feed {line : List Char} (h : '\n' ∉ line)
    (hreturn : line.getLast? ≠ some '\r') (rest : List Char) :
    lines (line ++ '\n' :: rest) = line :: lines rest := by
  induction line with
  | nil => rfl
  | cons c line ih =>
    obtain ⟨hc, hline⟩ := List.ne_and_not_mem_of_not_mem_cons h
    have hlast : line.getLast? ≠ some '\r' := by
      intro hlast
      rw [List.getLast?_cons, hlast] at hreturn
      exact hreturn rfl
    refine lines_cons (Ne.symm hc) ?_ (ih hline hlast)
    rintro rfl
    have hne : line ≠ [] := by
      rintro rfl
      exact hreturn rfl
    exact head?_append_ne_feed hne hline

/-- A carriage return in front of the line feed belongs to the ending. -/
theorem lines_append_returnFeed {line : List Char} (h : '\n' ∉ line) (rest : List Char) :
    lines (line ++ '\r' :: '\n' :: rest) = line :: lines rest := by
  induction line with
  | nil => rfl
  | cons c line ih =>
    obtain ⟨hc, hline⟩ := List.ne_and_not_mem_of_not_mem_cons h
    refine lines_cons (Ne.symm hc) (fun _ => ?_) (ih hline)
    cases line with
    | nil => simp
    | cons d line => exact head?_append_ne_feed (List.cons_ne_nil d line) hline

/-- What stands in front of the first line feed is the first line, whatever follows, but
for a carriage return. -/
theorem exists_lines_append_feed {line : List Char} (h : '\n' ∉ line) :
    ∃ first, Padded first line ∧ ∀ rest, lines (line ++ '\n' :: rest) = first :: lines rest := by
  by_cases hreturn : line.getLast? = some '\r'
  · obtain ⟨first, rfl⟩ := List.getLast?_eq_some_iff.mp hreturn
    have hfirst : '\n' ∉ first := fun hmem => h (List.mem_append_left _ hmem)
    refine ⟨first, ⟨[], ['\r'], nofun, List.forall_mem_singleton.mpr (by decide), rfl⟩,
      fun rest => ?_⟩
    rw [List.append_assoc]
    exact lines_append_returnFeed hfirst rest
  · exact ⟨line, padded_refl line, lines_append_feed h hreturn⟩

/-- **Induction over lines**: a text is a last line, or a line in front of a text. -/
@[elab_as_elim]
theorem lineInduction {motive : List Char → Prop}
    (last : ∀ line, '\n' ∉ line → motive line)
    (feed : ∀ line rest, '\n' ∉ line → motive rest → motive (line ++ '\n' :: rest))
    (text : List Char) : motive text := by
  induction hn : text.length using Nat.strong_induction_on generalizing text with
  | _ n ih =>
    by_cases h : '\n' ∈ text
    · obtain ⟨line, rest, rfl, hline⟩ := List.eq_append_cons_of_mem h
      refine feed line rest hline (ih rest.length ?_ rest rfl)
      rw [← hn, List.length_append, List.length_cons]
      omega
    · exact last text h

/-- The lines up to a line feed and those after it are the lines of a text. -/
theorem lines_append_feed_append (text rest : List Char) :
    lines (text ++ '\n' :: rest) = lines (text ++ ['\n']) ++ lines rest := by
  induction text using lineInduction with
  | last line hline =>
    obtain ⟨first, -, hfirst⟩ := exists_lines_append_feed hline
    rw [hfirst, hfirst]
    rfl
  | feed line others hline ih =>
    obtain ⟨first, -, hfirst⟩ := exists_lines_append_feed hline
    have hwhole := hfirst (others ++ '\n' :: rest)
    have hpart := hfirst (others ++ ['\n'])
    rw [List.append_assoc, List.cons_append, hwhole, ih, List.append_assoc, List.cons_append, hpart]
    rfl

/-- Lines without line feeds that do not end in a carriage return, each ended by a line
feed, are the lines of what they make up. -/
theorem lines_flatMap_feed {lines' : List (List Char)} (hfeed : ∀ line ∈ lines', '\n' ∉ line)
    (hreturn : ∀ line ∈ lines', line.getLast? ≠ some '\r') :
    lines (lines'.flatMap (· ++ ['\n'])) = lines' := by
  induction lines' with
  | nil => rfl
  | cons line others ih =>
    have hline : '\n' ∉ line := hfeed line (List.mem_cons_self ..)
    have hlast := hreturn line (List.mem_cons_self ..)
    have hothers := ih (fun l hl => hfeed l (List.mem_cons_of_mem _ hl))
      (fun l hl => hreturn l (List.mem_cons_of_mem _ hl))
    rw [List.flatMap_cons, List.append_assoc, List.singleton_append,
      lines_append_feed hline hlast, hothers]

/-- Lines without line feeds that may end in a carriage return are, once trimmed, the lines of
what they make up. -/
theorem map_trim_lines_flatMap_feed {lines' : List (List Char)}
    (hfeed : ∀ line ∈ lines', '\n' ∉ line) :
    (lines (lines'.flatMap (· ++ ['\n']))).map trim = lines'.map trim := by
  induction lines' with
  | nil => rfl
  | cons line others ih =>
    rw [List.forall_mem_cons] at hfeed
    obtain ⟨first, hpadded, hfirst⟩ := exists_lines_append_feed hfeed.1
    rw [List.flatMap_cons, List.append_assoc, List.singleton_append, hfirst, List.map_cons,
      List.map_cons, ih hfeed.2, trim_eq_of_padded hpadded]

-- ════════════════════════════════════════════════════════════════════════
-- Endings
-- ════════════════════════════════════════════════════════════════════════

/-- The two endings of a line. -/
inductive Ending where
  | feed
  | returnFeed

def Ending.chars : Ending → List Char
  | feed => ['\n']
  | returnFeed => ['\r', '\n']

/-- Lines with an ending each, and a last one without. -/
def withEndings (ended : List (List Char × Ending)) (last : List Char) : List Char :=
  ended.flatMap (fun line => line.1 ++ line.2.chars) ++ last

theorem withEndings_cons (line : List Char) (ending : Ending)
    (ended : List (List Char × Ending)) (last : List Char) :
    withEndings ((line, ending) :: ended) last =
      line ++ ending.chars ++ withEndings ended last := by
  simp [withEndings]

/-- A carriage return in front of a line feed is trimmed away with the ending. -/
theorem map_trim_lines_returnFeed (text rest : List Char) :
    (lines (text ++ '\r' :: '\n' :: rest)).map trim = (lines (text ++ '\n' :: rest)).map trim := by
  induction text using lineInduction with
  | last line hline =>
    obtain ⟨first, hpadded, hfirst⟩ := exists_lines_append_feed hline
    rw [lines_append_returnFeed hline, hfirst, List.map_cons, List.map_cons,
      trim_eq_of_padded hpadded]
  | feed line others hline ih =>
    obtain ⟨first, -, hfirst⟩ := exists_lines_append_feed hline
    rw [List.append_assoc, List.append_assoc, List.cons_append, List.cons_append, hfirst, hfirst,
      List.map_cons, List.map_cons, ih]

theorem map_trim_lines_ending (text : List Char) (ending : Ending) (rest : List Char) :
    (lines (text ++ ending.chars ++ rest)).map trim = (lines (text ++ '\n' :: rest)).map trim := by
  cases ending with
  | feed => rw [Ending.chars, List.append_assoc]; rfl
  | returnFeed =>
    rw [Ending.chars, List.append_assoc]
    exact map_trim_lines_returnFeed text rest

/-- The trimmed lines of a text do not depend on the endings of its lines. -/
theorem map_trim_lines_withEndings {ended other : List (List Char × Ending)}
    (h : ended.map Prod.fst = other.map Prod.fst) (last : List Char) :
    (lines (withEndings ended last)).map trim = (lines (withEndings other last)).map trim := by
  induction ended generalizing other with
  | nil =>
    obtain rfl : other = [] := List.map_eq_nil_iff.mp h.symm
    rfl
  | cons line ended ih =>
    cases other with
    | nil => cases h
    | cons line' other =>
      obtain ⟨line, ending⟩ := line
      obtain ⟨line', ending'⟩ := line'
      obtain ⟨hline, hothers⟩ := List.cons.inj h
      change line = line' at hline
      subst hline
      have hleft := lines_append_feed_append line (withEndings ended last)
      have hright := lines_append_feed_append line (withEndings other last)
      rw [withEndings_cons, withEndings_cons, map_trim_lines_ending, map_trim_lines_ending,
        hleft, hright, List.map_append, List.map_append, ih hothers]

end TrigPainting.Text
