import TrigPainting.Command.Report
import TrigPainting.Proofs.Palette.Independence
import TrigPainting.Proofs.Palette.RoundTrip
import TrigPainting.Proofs.Storage.Path

/-!
# Reports read as details

The report of a picture in words has two lines with its paths, and then the lines of its details
file with blanks in front of them. The first two have no key, whatever the paths are, and the
blanks are trimmed away. So the report tells what the details file tells, and several reports tell
what their details files tell one after the other. A details file is complete: it tells something
of every channel, and nothing that has been told before it can be seen behind it.

## Main definitions

- `Report.lines` — the lines of a report
- `Palette.saying` — what a details file tells
- `Report.OneLinePaths` — paths that do not break the line that they stand in

## Main statements

- `Report.filterMap_told?_lines` — what a report tells
- `Palette.Draft.readTold_saying` — what is behind a complete details file
- `Report.ofDetails_text` — reading reports
-/

namespace TrigPainting

-- ════════════════════════════════════════════════════════════════════════
-- What a details file tells
-- ════════════════════════════════════════════════════════════════════════

namespace Palette

/-- What the details file of a palette tells: the text of every channel. -/
def saying (p : Palette) : List (Channel × List Char) :=
  Channel.all.map fun c => (c, ' ' :: (p.get c).chars)

/-- What is told by lines that are written out, each with a line feed. -/
theorem filterMap_told?_lines_flatMap_feed {lines : List (List Char)}
    (hfeed : ∀ line ∈ lines, '\n' ∉ line) :
    (Text.lines (lines.flatMap (· ++ ['\n']))).filterMap told? = lines.filterMap told? :=
  filterMap_told?_eq_of_map_trim (Text.map_trim_lines_flatMap_feed hfeed)

theorem told?_writtenLine (c : Channel) (e : Expr) :
    told? (writtenLine c e) = some (c, ' ' :: e.chars) :=
  keyed?_trim_eq_some_iff.mpr (tells_writtenLine c e)

theorem filterMap_told?_writtenLines (p : Palette) : p.writtenLines.filterMap told? = p.saying := by
  rw [writtenLines, List.filterMap_map, saying, ← List.filterMap_eq_map]
  apply List.filterMap_congr
  intro c _
  exact told?_writtenLine c (p.get c)

theorem ofDetails_details_eq_readTold (p : Palette) :
    ofDetails p.details = Draft.empty.readTold p.saying >>= Draft.finish := by
  rw [ofDetails, details, String.toList_ofList, ofDetailsChars, Draft.readLines_eq_readTold,
    lines_detailsChars, filterMap_told?_writtenLines]
  cases Draft.empty.readTold p.saying <;> rfl

namespace Draft

theorem readTold_append (draft : Draft) (told others : List (Channel × List Char)) :
    draft.readTold (told ++ others) = draft.readTold told >>= fun next => next.readTold others := by
  induction told generalizing draft with
  | nil => rfl
  | cons said told ih =>
    obtain ⟨c, expression⟩ := said
    rw [List.cons_append, readTold, readTold]
    cases Expr.parseChars expression with
    | ok tree => exact ih (draft.set c tree)
    | error cause => rfl

/-- A complete details file covers up whatever has been told before it. -/
theorem readTold_saying (p : Palette) (draft other : Draft) :
    draft.readTold p.saying = other.readTold p.saying := by
  simp only [saying, Channel.all, List.map_cons, List.map_nil, readTold]
  cases Expr.parseChars (' ' :: (p.get .red).chars) with
  | error cause => rfl
  | ok red =>
    cases Expr.parseChars (' ' :: (p.get .green).chars) with
    | error cause => rfl
    | ok green =>
      cases Expr.parseChars (' ' :: (p.get .blue).chars) with
      | error cause => rfl
      | ok blue =>
        apply congrArg Except.ok
        funext c
        cases c <;> simp [set]

/-- Palettes that read back are passed over. -/
theorem exists_readTold_flatMap_saying {palettes : List Palette}
    (h : ∀ p ∈ palettes, ∃ q, ofDetails p.details = .ok q) (draft : Draft) :
    ∃ next, draft.readTold (palettes.flatMap saying) = .ok next := by
  induction palettes generalizing draft with
  | nil => exact ⟨draft, rfl⟩
  | cons p palettes ih =>
    rw [List.forall_mem_cons] at h
    obtain ⟨q, hq⟩ := h.1
    rw [ofDetails_details_eq_readTold, readTold_saying p empty draft] at hq
    rw [List.flatMap_cons, readTold_append]
    cases hread : draft.readTold p.saying with
    | error e =>
      rw [hread] at hq
      cases hq
    | ok next => exact ih h.2 next

end Draft

end Palette

-- ════════════════════════════════════════════════════════════════════════
-- What a report tells
-- ════════════════════════════════════════════════════════════════════════

namespace Command.Report

open Palette

/-- The line with the path of a picture. -/
def imageLine (r : Report) : List Char :=
  ['I', 'm', 'a', 'g', 'e', ' '] ++ Decimal.digitChars r.index ++ [':', ' '] ++
    r.saved.image.text.toList

/-- The line with the path of the details file. -/
def detailsLine (r : Report) : List Char :=
  [' ', ' '] ++ (['D', 'e', 't', 'a', 'i', 'l', 's', ':', ' '] ++ r.saved.details.text.toList)

/-- The lines of a report. -/
def lines (r : Report) : List (List Char) :=
  r.imageLine :: r.detailsLine :: r.palette.writtenLines.map ([' ', ' '] ++ ·)

/-- The paths of a picture do not break the lines that they stand in. -/
def OneLinePaths (r : Report) : Prop :=
  '\n' ∉ r.saved.image.text.toList ∧ '\n' ∉ r.saved.details.text.toList

theorem toList_detailsLines (p : Palette) :
    (detailsLines p).toList = (p.writtenLines.map ([' ', ' '] ++ ·)).flatMap (· ++ ['\n']) := by
  rw [detailsLines, lines_detailsChars]
  induction p.writtenLines with
  | nil => rfl
  | cons line others ih => simp [String.join_cons, ih]

theorem toList_text (r : Report) : r.text.toList = r.lines.flatMap (· ++ ['\n']) := by
  rw [text_eq, lines, List.flatMap_cons, List.flatMap_cons, imageLine, detailsLine,
    ← toList_detailsLines, Decimal.naturalText]
  simp only [String.toList_append, String.toList_ofList, List.append_assoc]
  rfl

theorem toList_join_text (reports : List Report) :
    (String.join (reports.map text)).toList =
      (reports.flatMap lines).flatMap (· ++ ['\n']) := by
  induction reports with
  | nil => rfl
  | cons r reports ih => simp [String.join_cons, ih, toList_text]

theorem feed_not_mem_imageLine {r : Report} (h : '\n' ∉ r.saved.image.text.toList) :
    '\n' ∉ r.imageLine := by
  have hindex : '\n' ∉ Decimal.digitChars r.index :=
    Storage.not_mem_toDigits (by decide) (fun _ => (Nat.digitChar_ne '\n' rfl).symm) r.index
  rw [imageLine, List.mem_append, List.mem_append, List.mem_append]
  rintro (((hmem | hmem) | hmem) | hmem)
  · exact absurd hmem (by decide)
  · exact hindex hmem
  · exact absurd hmem (by decide)
  · exact h hmem

theorem feed_not_mem_detailsLine {r : Report} (h : '\n' ∉ r.saved.details.text.toList) :
    '\n' ∉ r.detailsLine := by
  rw [detailsLine, List.mem_append, List.mem_append]
  rintro (hmem | hmem | hmem)
  · exact absurd hmem (by decide)
  · exact absurd hmem (by decide)
  · exact h hmem

theorem feed_not_mem_lines {r : Report} (h : r.OneLinePaths) : ∀ line ∈ r.lines, '\n' ∉ line := by
  rw [lines, List.forall_mem_cons, List.forall_mem_cons]
  refine ⟨feed_not_mem_imageLine h.1, feed_not_mem_detailsLine h.2, ?_⟩
  intro line hline
  obtain ⟨written, hwritten, rfl⟩ := List.mem_map.mp hline
  obtain ⟨c, -, rfl⟩ := List.mem_map.mp hwritten
  rw [List.mem_append]
  rintro (hmem | hmem)
  · exact absurd hmem (by decide)
  · exact feed_not_mem_writtenLine c _ hmem

/-- A visible character at the start of a text is still there when the text is trimmed. -/
theorem head?_trim {c : Char} (hc : Text.isBlank c = false) (text : List Char) :
    (Text.trim (c :: text)).head? = some c := by
  have hleft : Text.trimLeft (c :: text) = c :: text := by
    rw [Text.trimLeft, List.dropWhile_cons_of_neg (by simp [hc])]
  rw [Text.trim_eq_rdropWhile, hleft]
  cases htrimmed : (c :: text).rdropWhile Text.isBlank with
  | nil =>
    have hblank := List.rdropWhile_eq_nil_iff.mp htrimmed c (List.mem_cons_self ..)
    rw [hc] at hblank
    cases hblank
  | cons d rest =>
    have hbegins := List.rdropWhile_prefix Text.isBlank (c :: text)
    rw [htrimmed, List.cons_prefix_cons] at hbegins
    rw [hbegins.1]
    rfl

/-- A line that starts with a visible character that starts no key has none. -/
theorem told?_cons_eq_none {c : Char} (hvisible : Text.isBlank c = false)
    (hkey : ∀ d : Channel, d.key.head? ≠ some c) (text : List Char) : told? (c :: text) = none := by
  rw [told?, keyed?_trim_eq_none_iff]
  intro d hkeyed
  obtain ⟨expression, htells⟩ := isKeyedFor_iff.mp hkeyed
  have hhead := head?_trim hvisible text
  rw [htells, List.head?_append_of_ne_nil _ d.key_ne_nil] at hhead
  exact hkey d hhead

theorem told?_imageLine (r : Report) : told? r.imageLine = none :=
  told?_cons_eq_none (by decide) (fun d => by cases d <;> decide) _

theorem told?_indented (line : List Char) : told? ([' ', ' '] ++ line) = told? line := by
  have hblanks : ∀ c ∈ [' ', ' '], Text.isBlank c = true := List.all_eq_true.mp (by decide)
  have hnone : ∀ c ∈ [], Text.isBlank c = true := by simp
  rw [told?, Text.trim_eq_of_padded ⟨[' ', ' '], [], hblanks, hnone, (List.append_nil _).symm⟩]
  rfl

theorem told?_detailsLine (r : Report) : told? r.detailsLine = none := by
  rw [detailsLine, told?_indented]
  exact told?_cons_eq_none (by decide) (fun d => by cases d <;> decide) _

/-- **A report tells** what the details file of its palette tells. -/
theorem filterMap_told?_lines (r : Report) : r.lines.filterMap told? = r.palette.saying := by
  rw [lines, List.filterMap_cons, told?_imageLine, List.filterMap_cons, told?_detailsLine,
    ← filterMap_told?_writtenLines, List.filterMap_map]
  apply List.filterMap_congr
  intro line _
  exact told?_indented line

/-- Reports in a row tell what the details files of their palettes tell in that order. -/
theorem filterMap_told?_flatMap_lines (reports : List Report) :
    (reports.flatMap lines).filterMap told? = (reports.map palette).flatMap saying := by
  induction reports with
  | nil => rfl
  | cons r reports ih =>
    rw [List.flatMap_cons, List.filterMap_append, filterMap_told?_lines, ih, List.map_cons,
      List.flatMap_cons]

theorem ofDetails_join_text {reports : List Report} (h : ∀ r ∈ reports, r.OneLinePaths) :
    ofDetails (String.join (reports.map text)) =
      Draft.empty.readTold ((reports.map palette).flatMap saying) >>= Draft.finish := by
  have hfeed : ∀ line ∈ reports.flatMap lines, '\n' ∉ line := by
    intro line hline
    obtain ⟨r, hr, hline⟩ := List.mem_flatMap.mp hline
    exact feed_not_mem_lines (h r hr) line hline
  rw [ofDetails, toList_join_text, ofDetailsChars, Draft.readLines_eq_readTold,
    filterMap_told?_lines_flatMap_feed hfeed, filterMap_told?_flatMap_lines]
  cases Draft.empty.readTold ((reports.map palette).flatMap saying) <;> rfl

/-- **Reports are details files**: a report of a picture is read as the details file of its
palette is, with the same palette or the same error. Of several reports in a row, the last one
counts, if the palettes before it read back. -/
theorem ofDetails_text :
    (∀ r : Report, r.OneLinePaths → ofDetails r.text = ofDetails r.palette.details) ∧
      ∀ (reports : List Report) (last : Report),
        (∀ r ∈ reports, r.OneLinePaths ∧ ∃ q, ofDetails r.palette.details = .ok q) →
        last.OneLinePaths →
        ofDetails (String.join ((reports ++ [last]).map text)) =
          ofDetails last.palette.details := by
  have hrow : ∀ (reports : List Report) (last : Report),
      (∀ r ∈ reports, r.OneLinePaths ∧ ∃ q, ofDetails r.palette.details = .ok q) →
      last.OneLinePaths →
      ofDetails (String.join ((reports ++ [last]).map text)) = ofDetails last.palette.details := by
    intro reports last hreports hlast
    have hpaths : ∀ r ∈ reports ++ [last], r.OneLinePaths := by
      rw [List.forall_mem_append, List.forall_mem_singleton]
      exact ⟨fun r hr => (hreports r hr).1, hlast⟩
    have hback : ∀ p ∈ reports.map palette, ∃ q, ofDetails p.details = .ok q := by
      intro p hp
      obtain ⟨r, hr, rfl⟩ := List.mem_map.mp hp
      exact (hreports r hr).2
    obtain ⟨next, hnext⟩ := Draft.exists_readTold_flatMap_saying hback Draft.empty
    have hsplit : ((reports ++ [last]).map palette).flatMap saying =
        (reports.map palette).flatMap saying ++ last.palette.saying := by simp
    rw [ofDetails_join_text hpaths, hsplit, Draft.readTold_append, hnext,
      ofDetails_details_eq_readTold, Draft.readTold_saying _ Draft.empty next]
    rfl
  refine ⟨fun r hr => ?_, hrow⟩
  have hsingle := hrow [] r (List.forall_mem_nil _) hr
  simpa using hsingle

/-- A report whose paths look like lines of a details file, and one behind it whose green channel
nests too deep. -/
theorem ofDetails_text_of_keyed_paths :
    let first : Report :=
      ⟨7, ⟨⟨"b_exp: q"⟩, ⟨"r_exp: q\r"⟩, ⟨"\tg_exp: x"⟩⟩,
        ⟨.piWave .cosine (.coord .x), .times .pi (.times (.coord .x) (.coord .y)), .coord .y⟩⟩
    let last : Report :=
      ⟨8, ⟨⟨""⟩, ⟨""⟩, ⟨":"⟩⟩, ⟨.pi, Nat.repeat (.wave .cosine) 257 .pi, .pi⟩⟩
    first.OneLinePaths ∧ last.OneLinePaths ∧ (∃ q, ofDetails first.palette.details = .ok q) ∧
      ofDetails first.text = ofDetails first.palette.details ∧
      ofDetails last.text = ofDetails last.palette.details ∧
      ofDetails (String.join ([first, last].map text)) = ofDetails last.palette.details := by
  intro first last
  have hfirst : first.OneLinePaths := by
    constructor <;> decide
  have hlast : last.OneLinePaths := by
    constructor <;> decide
  have hback : ∃ q, ofDetails first.palette.details = .ok q :=
    ⟨_, ofDetails_details_of_nesting_le fun c => by cases c <;> decide⟩
  obtain ⟨hsingle, hrow⟩ := ofDetails_text
  refine ⟨hfirst, hlast, hback, hsingle first hfirst, hsingle last hlast, ?_⟩
  exact hrow [first] last (List.forall_mem_singleton.mpr ⟨hfirst, hback⟩) hlast

end Command.Report

end TrigPainting
