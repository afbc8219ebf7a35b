import TrigPainting.Proofs.Expr.RoundTrip
import TrigPainting.Proofs.Palette.Reading
import TrigPainting.Storage.Fingerprint

/-!
# Writing palettes and reading them back

The details text of a palette has one line for each channel, with nothing to trim. Behind
the key and the colon a blank stands in front of the text of the expression. So a palette
is read back channel by channel, as its normal form, and the first channel that nests too
deep is refused at the place where its text is, seven characters further to the right.

## Main definitions

- `Palette.normalForm` — the normal form of every channel
- `Palette.writtenLine` — the line that is written for a channel

## Main statements

- `Palette.lines_detailsChars` — the lines of a details text
- `Palette.malformed_writtenLine_iff` — which of them cannot be read
- `Palette.ofDetails_details` — what is read back
-/

namespace TrigPainting

-- ════════════════════════════════════════════════════════════════════════
-- Expressions behind a blank
-- ════════════════════════════════════════════════════════════════════════

/-- Reading further to the right moves the place of an error along. -/
theorem Reader.State.read_add (s : State) (position offset : Nat) (text : List Char) :
    s.read (position + offset) text =
      (s.read position text).mapError fun err => err.shift offset := by
  induction text generalizing s position with
  | nil =>
    rw [read, read]
    cases s.finish <;> rfl
  | cons c rest ih =>
    have hnext : position + offset + 1 = position + 1 + offset := by omega
    rw [read, read, hnext]
    split
    · exact ih s (position + 1)
    · cases s.step c with
      | ok t => exact ih t (position + 1)
      | error expected => rfl

namespace Expr

theorem parse_text_eq_parseChars (e : Expr) : parse e.text = parseChars e.chars := by
  rw [parse, text, String.toList_ofList]

/-- A blank in front of a text moves the place of an error by one. -/
theorem parseChars_blank (text : List Char) :
    parseChars (' ' :: text) = (parseChars text).mapError fun err => err.shift 1 := by
  have hblank : Text.isBlank ' ' = true := by decide
  rw [parseChars, parseChars, ← Reader.State.read_add, Reader.State.read, if_pos hblank]

theorem isBlank_of_mem_chars {e : Expr} {c : Char} (h : c ∈ e.chars) : Text.isBlank c = false :=
  Text.visible_eq_self_iff.mp e.visible_chars c h

theorem chars_ne_nil (e : Expr) : e.chars ≠ [] := by
  cases e with
  | coord a => simp
  | pi => simp
  | wave w arg => simp [chars_wave]
  | piWave w arg => simp [chars_piWave]
  | times lhs rhs => simp [chars_times]

end Expr

namespace Channel

theorem isBlank_of_mem_key {c : Channel} {d : Char} (h : d ∈ c.key) : Text.isBlank d = false := by
  have hkey : (c.key.all fun d => !Text.isBlank d) = true := by cases c <;> decide
  have hvisible := List.all_eq_true.mp hkey d h
  rwa [Bool.not_eq_true'] at hvisible

theorem isLast_all (c : Channel) : IsLast (fun d => d = c) all c := by
  cases c with
  | red => exact ⟨[], [green, blue], rfl, rfl, by decide⟩
  | green => exact ⟨[red], [blue], rfl, rfl, by decide⟩
  | blue => exact ⟨[red, green], [], rfl, rfl, nofun⟩

end Channel

namespace Palette

/-- The normal form of every channel. -/
def normalForm (p : Palette) : Palette :=
  ⟨p.red.normalForm, p.green.normalForm, p.blue.normalForm⟩

theorem get_normalForm (p : Palette) (c : Channel) : p.normalForm.get c = (p.get c).normalForm := by
  cases c <;> rfl

-- ════════════════════════════════════════════════════════════════════════
-- The lines of a details text
-- ════════════════════════════════════════════════════════════════════════

/-- The line that is written for a channel, without its ending. -/
def writtenLine (c : Channel) (e : Expr) : List Char :=
  c.key ++ ':' :: ' ' :: e.chars

/-- The lines that are written for a palette. -/
def writtenLines (p : Palette) : List (List Char) :=
  Channel.all.map fun c => writtenLine c (p.get c)

theorem detailsLine_eq (c : Channel) (e : Expr) : detailsLine c e = writtenLine c e ++ ['\n'] := by
  simp [detailsLine, writtenLine, Expr.write_eq_append e ['\n']]

theorem detailsChars_eq (p : Palette) : p.detailsChars = p.writtenLines.flatMap (· ++ ['\n']) := by
  rw [detailsChars, writtenLines, List.flatMap_map]
  simp only [detailsLine_eq]

theorem isBlank_getLast?_writtenLine (c : Channel) (e : Expr) :
    ∀ d ∈ (writtenLine c e).getLast?, Text.isBlank d = false := by
  intro d hd
  have hline : writtenLine c e = (c.key ++ [':', ' ']) ++ e.chars := by simp [writtenLine]
  rw [hline, List.getLast?_append_of_ne_nil _ e.chars_ne_nil] at hd
  exact Expr.isBlank_of_mem_chars (List.mem_of_getLast? hd)

theorem isBlank_head?_writtenLine (c : Channel) (e : Expr) :
    ∀ d ∈ (writtenLine c e).head?, Text.isBlank d = false := by
  intro d hd
  rw [writtenLine, List.head?_append_of_ne_nil _ c.key_ne_nil] at hd
  exact Channel.isBlank_of_mem_key (List.mem_of_head? hd)

theorem feed_not_mem_writtenLine (c : Channel) (e : Expr) : '\n' ∉ writtenLine c e := by
  have hblank : Text.isBlank '\n' = true := by decide
  intro hmem
  rcases List.mem_append.mp hmem with hmem | hmem
  · rw [Channel.isBlank_of_mem_key hmem] at hblank
    cases hblank
  · rcases List.mem_cons.mp hmem with h | hmem
    · exact absurd h (by decide)
    rcases List.mem_cons.mp hmem with h | hmem
    · exact absurd h (by decide)
    · rw [Expr.isBlank_of_mem_chars hmem] at hblank
      cases hblank

theorem getLast?_writtenLine_ne_return (c : Channel) (e : Expr) :
    (writtenLine c e).getLast? ≠ some '\r' := by
  intro hreturn
  have hvisible := isBlank_getLast?_writtenLine c e '\r' hreturn
  exact absurd hvisible (by decide)

/-- **The lines of a details text** are those that were written. -/
theorem lines_detailsChars (p : Palette) : Text.lines p.detailsChars = p.writtenLines := by
  rw [detailsChars_eq]
  refine Text.lines_flatMap_feed ?_ ?_
  · intro line hline
    obtain ⟨c, -, rfl⟩ := List.mem_map.mp hline
    exact feed_not_mem_writtenLine c _
  · intro line hline
    obtain ⟨c, -, rfl⟩ := List.mem_map.mp hline
    exact getLast?_writtenLine_ne_return c _

-- ════════════════════════════════════════════════════════════════════════
-- Reading written lines
-- ════════════════════════════════════════════════════════════════════════

theorem tells_writtenLine (c : Channel) (e : Expr) : Tells (writtenLine c e) c (' ' :: e.chars) :=
  Text.trim_eq_self (isBlank_head?_writtenLine c e) (isBlank_getLast?_writtenLine c e)

theorem isKeyedFor_writtenLine_iff {c d : Channel} {e : Expr} :
    IsKeyedFor d (writtenLine c e) ↔ c = d := by
  have hkeyed : IsKeyedFor c (writtenLine c e) := (tells_writtenLine c e).isKeyedFor
  constructor
  · exact hkeyed.unique
  · rintro rfl
    exact hkeyed

/-- Within the limit, a written line is read as the normal form of its expression. -/
theorem parseChars_blank_chars {e : Expr} (h : e.nesting ≤ maxNesting) :
    Expr.parseChars (' ' :: e.chars) = .ok e.normalForm := by
  rw [Expr.parseChars_blank, ← Expr.parse_text_eq_parseChars, Expr.parse_text_of_nesting_le h]
  rfl

/-- Beyond the limit, a written line is refused at the first call that finds every group
open. -/
theorem fails_writtenLine {e : Expr} (h : maxNesting < e.nesting) (c : Channel) :
    ∃ w i, FirstCallBeyond maxNesting e.chars w i ∧
      Fails (writtenLine c e) (.malformed c ⟨7 + i, w.letters.head?, .shallower⟩) := by
  obtain ⟨w, i, hfirst, hparse⟩ := Expr.parse_text_of_lt_nesting h
  refine ⟨w, i, hfirst, ?_⟩
  have hrefused : Expr.parseChars (' ' :: e.chars) =
      .error ⟨i + 1, w.letters.head?, .shallower⟩ := by
    rw [Expr.parseChars_blank, ← Expr.parse_text_eq_parseChars, hparse]
    rfl
  have hplace : i + 1 + (c.key.length + 1) = 7 + i := by
    have hkey : c.key.length = 5 := by cases c <;> rfl
    omega
  have hfails := Fails.intro (tells_writtenLine c e) hrefused
  rwa [SyntaxError.shift, hplace] at hfails

theorem malformed_writtenLine_iff {c : Channel} {e : Expr} :
    Malformed (writtenLine c e) ↔ maxNesting < e.nesting := by
  constructor
  · rintro ⟨_, ⟨tells, refused⟩⟩
    obtain ⟨-, rfl⟩ := tells.unique (tells_writtenLine c e)
    by_contra hwithin
    rw [parseChars_blank_chars (Nat.le_of_not_lt hwithin)] at refused
    cases refused
  · intro hbeyond
    obtain ⟨w, i, -, hfails⟩ := fails_writtenLine hbeyond c
    exact ⟨_, hfails⟩

-- ════════════════════════════════════════════════════════════════════════
-- Reading a palette back
-- ════════════════════════════════════════════════════════════════════════

theorem lastTells_writtenLines {p : Palette} {c : Channel} (h : (p.get c).nesting ≤ maxNesting) :
    LastTells p.writtenLines c (p.normalForm.get c) := by
  refine ⟨_, _, ?_, tells_writtenLine c (p.get c), ?_⟩
  · have hlast : IsLast (fun d => IsKeyedFor c (writtenLine d (p.get d))) Channel.all c := by
      simpa only [isKeyedFor_writtenLine_iff] using c.isLast_all
    exact hlast.map
  · rw [get_normalForm]
    exact parseChars_blank_chars h

theorem ofDetails_details_of_nesting_le {p : Palette}
    (h : ∀ c, (p.get c).nesting ≤ maxNesting) : ofDetails p.details = .ok p.normalForm := by
  rw [ofDetails, details, String.toList_ofList, ofDetailsChars_eq_iff, lines_detailsChars]
  refine .complete ?_ fun c => lastTells_writtenLines (h c)
  intro line hline
  obtain ⟨c, -, rfl⟩ := List.mem_map.mp hline
  rw [malformed_writtenLine_iff]
  exact Nat.not_lt_of_le (h c)

theorem ofDetails_details_of_isFirst {p : Palette} {c : Channel}
    (h : IsFirst (fun c => maxNesting < (p.get c).nesting) Channel.all c) :
    ∃ w i, FirstCallBeyond maxNesting (p.get c).chars w i ∧
      ofDetails p.details = .error (.malformed c ⟨7 + i, w.letters.head?, .shallower⟩) := by
  obtain ⟨w, i, hcall, hfails⟩ := fails_writtenLine h.holds c
  refine ⟨w, i, hcall, ?_⟩
  rw [ofDetails, details, String.toList_ofList, ofDetailsChars_eq_iff, lines_detailsChars]
  have hfirst : IsFirst (fun c => Malformed (writtenLine c (p.get c))) Channel.all c := by
    simpa only [malformed_writtenLine_iff] using h
  exact .malformed hfirst.map hfails

theorem details_normalForm (p : Palette) : p.normalForm.details = p.details := by
  simp only [details, detailsChars, detailsLine, get_normalForm, Expr.write_eq_append _ ['\n'],
    Expr.chars_normalForm]

theorem tag_normalForm (p : Palette) : p.normalForm.tag = p.tag := by
  have htext : p.normalForm.tagText = p.tagText := by
    simp only [tagText, normalForm, Expr.write_eq_append _ (_ :: _), Expr.chars_normalForm]
  rw [tag_eq, tag_eq, htext]

/-- **Round trip of a palette**: within the limit it is read back channel by channel as its
normal form, which has the same text and the same tag and is read back as itself. Otherwise
the first channel beyond the limit is refused, at the first call of its text that opens the
257th group. -/
theorem ofDetails_details (p : Palette) :
    ((∀ c, (p.get c).nesting ≤ 256) →
      ∃ q, ofDetails p.details = .ok q ∧ (∀ c, q.get c = (p.get c).normalForm) ∧
        q.details = p.details ∧ q.tag = p.tag ∧ ofDetails q.details = .ok q) ∧
      ((¬ ∀ c, (p.get c).nesting ≤ 256) →
        ∃ c w i, IsFirst (fun c => 256 < (p.get c).nesting) Channel.all c ∧
          FirstCallBeyond 256 (p.get c).chars w i ∧
          ofDetails p.details = .error (.malformed c ⟨7 + i, w.letters.head?, .shallower⟩)) := by
  constructor
  · intro hwithin
    have hread := ofDetails_details_of_nesting_le hwithin
    refine ⟨p.normalForm, hread, p.get_normalForm, p.details_normalForm, p.tag_normalForm, ?_⟩
    rw [p.details_normalForm, hread]
  · intro hbeyond
    simp only [not_forall, Nat.not_le] at hbeyond
    obtain ⟨c, hc⟩ := hbeyond
    have hfirst : ∃ first, IsFirst (fun c => 256 < (p.get c).nesting) Channel.all first :=
      exists_isFirst ⟨c, c.mem_all, hc⟩
    obtain ⟨first, hfirst⟩ := hfirst
    obtain ⟨w, i, hcall, hread⟩ := ofDetails_details_of_isFirst hfirst
    exact ⟨first, w, i, hfirst, hcall, hread⟩

/-- A palette with a product of products, and one whose green channel nests too deep. -/
theorem ofDetails_details_around_limit :
    let within : Palette :=
      ⟨.times (.coord .x) (.times .pi (.coord .y)), .piWave .sine (.coord .x), .pi⟩
    let beyond : Palette := ⟨.pi, Nat.repeat (.wave .cosine) 257 .pi, .pi⟩
    ((∀ c, (within.get c).nesting ≤ 256) ∧
      ∃ q, ofDetails within.details = .ok q ∧ (∀ c, q.get c = (within.get c).normalForm) ∧
        q.details = within.details ∧ q.tag = within.tag ∧ ofDetails q.details = .ok q) ∧
      (¬ ∀ c, (beyond.get c).nesting ≤ 256) ∧
        ∃ c w i, IsFirst (fun c => 256 < (beyond.get c).nesting) Channel.all c ∧
          FirstCallBeyond 256 (beyond.get c).chars w i ∧
          ofDetails beyond.details =
            .error (.malformed c ⟨7 + i, w.letters.head?, .shallower⟩) := by
  intro within beyond
  have hwithin : ∀ c, (within.get c).nesting ≤ 256 := by
    intro c
    cases c <;> decide
  have hgreen : 256 < (beyond.get .green).nesting := by decide +kernel
  have hbeyond : ¬ ∀ c, (beyond.get c).nesting ≤ 256 :=
    fun h => Nat.not_lt_of_le (h .green) hgreen
  exact ⟨⟨hwithin, (ofDetails_details within).1 hwithin⟩, hbeyond,
    (ofDetails_details beyond).2 hbeyond⟩

end Palette

end TrigPainting
