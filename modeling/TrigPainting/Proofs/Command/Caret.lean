import TrigPainting.Proofs.Command.Check
import TrigPainting.Proofs.Expr.Place
import TrigPainting.Text.Split

/-!
# Where the caret stands

A text that is rejected is shown behind a margin of two blanks, and the caret in a line below it,
behind the margin and as many blanks as characters stand in front of the error. That is the
column of the error if the text is shown in one line. A line feed is ASCII and a blank, so a text
with line feeds gets a caret too. Then the line above the caret is only the last line of the text.
It has no margin, and the characters of the lines before it are still counted.

## Main definitions

- `outputLines` — the lines of what is shown
- `IsUnder` — a column is that of a character, or of the end of a line

## Main statements

- `outputLines_printed` — a text is shown in more lines than one if it has line feeds
- `isUnder_margin`, `isUnder_lastLine_iff` — texts without line feeds and with them
- `caret_off_only_behind_feed` — the command from its texts to the line above the caret
-/

namespace TrigPainting.Command

/-- The lines of what is shown: what stands between the line feeds. -/
def outputLines (shown : String) : List (List Char) :=
  Text.splitAt '\n' shown.toList

/-- The line of a caret in a column. -/
def caretLine (column : Nat) : List Char :=
  List.replicate column ' ' ++ ['^']

/-- A column of a line is that of a character, or of the end of the line if there is none. -/
def IsUnder (column : Nat) (above : List Char) : Option Char → Prop
  | some c => above[column]? = some c
  | none => above.length = column

variable {before after : List String} {text caret : String} {cause : SyntaxError}
  {head last : List Char}

-- ════════════════════════════════════════════════════════════════════════
-- The lines of what is shown
-- ════════════════════════════════════════════════════════════════════════

theorem outputLines_of_notMem {line : String} (h : '\n' ∉ line.toList) :
    outputLines line = [line.toList] :=
  Text.splitAt_eq_singleton h

/-- Behind the last line feed nothing is shown. -/
theorem outputLines_printed (lines : List String) :
    outputLines (printed lines) = lines.flatMap outputLines ++ [[]] := by
  induction lines with
  | nil => rfl
  | cons line lines ih =>
    have hfeed : (printed (line :: lines)).toList =
        line.toList ++ '\n' :: (printed lines).toList := by
      simp [printed, String.join_cons]
    rw [outputLines, hfeed, Text.splitAt_append, List.flatMap_cons, List.append_assoc, ← ih]
    rfl

theorem caret?_eq_some (h : caret? text cause.position = some caret) :
    ("  " ++ caret).toList = caretLine (cause.position + 2) := by
  rw [caret?, Option.ite_none_right_eq_some] at h
  obtain ⟨-, h⟩ := h
  cases h
  simp [caretLine, List.replicate_succ]

theorem feed_notMem_caretLine (column : Nat) : '\n' ∉ caretLine column := by
  simp [caretLine]

-- ════════════════════════════════════════════════════════════════════════
-- The line above the caret
-- ════════════════════════════════════════════════════════════════════════

/-- The line that is shown above the caret: the last of those that the text takes. -/
def lineAbove (text : String) : List Char :=
  (outputLines ("  " ++ text)).getLastD []

theorem exists_outputLines_eq (text : String) :
    ∃ front, outputLines ("  " ++ text) = front ++ [lineAbove text] := by
  have hne : outputLines ("  " ++ text) ≠ [] := by
    rw [outputLines, Text.splitAt_eq_splitOn]
    exact List.splitOn_ne_nil '\n' _
  refine ⟨(outputLines ("  " ++ text)).dropLast, ?_⟩
  rw [lineAbove, List.getLastD_eq_getLast?, List.getLast?_eq_some_getLast hne, Option.getD_some,
    List.dropLast_concat_getLast]

/-- A text without line feeds stands above the caret with its margin. -/
theorem lineAbove_of_notMem (h : '\n' ∉ text.toList) :
    lineAbove text = [' ', ' '] ++ text.toList := by
  have hline : '\n' ∉ ("  " ++ text).toList := by simpa using h
  rw [lineAbove, outputLines_of_notMem hline, String.toList_append]
  rfl

/-- Of a text with line feeds only what is behind the last one stands above the caret. -/
theorem lineAbove_of_eq (htext : text.toList = head ++ '\n' :: last) (hlast : '\n' ∉ last) :
    lineAbove text = last := by
  have hline : ("  " ++ text).toList = ([' ', ' '] ++ head) ++ '\n' :: last := by
    rw [String.toList_append, htext, List.append_assoc]
    rfl
  rw [lineAbove, outputLines, hline, Text.splitAt_append, Text.splitAt_eq_singleton hlast,
    List.getLastD_concat]

-- ════════════════════════════════════════════════════════════════════════
-- Columns and errors
-- ════════════════════════════════════════════════════════════════════════

theorem isUnder_of_standsIn {line : List Char} (h : cause.StandsIn line) :
    IsUnder cause.position line cause.found := by
  cases hfound : cause.found with
  | none => exact (h.ended hfound).symm
  | some c => exact (h.visible c hfound).1

/-- **Without line feeds the caret is under the error**: the margin moves both along. -/
theorem isUnder_margin (rejected : Expr.parse text = .error cause) (h : '\n' ∉ text.toList) :
    IsUnder (cause.position + 2) (lineAbove text) cause.found := by
  rw [lineAbove_of_notMem h]
  exact isUnder_of_standsIn ((Expr.standsIn_of_parseChars rejected).shift [' ', ' '])

/-- **With line feeds the caret is in the column of another place of the text**, further on than
the error by the lines before the last, that line feed and the margin. It is never under the end,
and it is under the character that was found only if that place has the same one by chance. -/
theorem isUnder_lastLine_iff (rejected : Expr.parse text = .error cause)
    (htext : text.toList = head ++ '\n' :: last) (hlast : '\n' ∉ last) :
    IsUnder (cause.position + 2) (lineAbove text) cause.found ↔
      ∃ c, cause.found = some c ∧ text.toList[cause.position + (head.length + 3)]? = some c := by
  rw [lineAbove_of_eq htext hlast]
  cases hfound : cause.found with
  | none =>
    have hposition := (Expr.standsIn_of_parseChars rejected).ended hfound
    rw [htext, List.length_append, List.length_cons] at hposition
    refine iff_of_false (fun hlength : last.length = cause.position + 2 => ?_) (by simp)
    omega
  | some c =>
    have hplace : text.toList[cause.position + (head.length + 3)]? = last[cause.position + 2]? := by
      have hindex : cause.position + (head.length + 3) - head.length = cause.position + 2 + 1 := by
        omega
      rw [htext, List.getElem?_append_right (by omega), hindex, List.getElem?_cons_succ]
    rw [hplace]
    simp [IsUnder]

-- ════════════════════════════════════════════════════════════════════════
-- The command
-- ════════════════════════════════════════════════════════════════════════

/-- What is shown of a text that is rejected ends with the line above the caret and the caret. -/
theorem exists_outputLines_rejected (hcaret : caret? text cause.position = some caret)
    (lines : List String) :
    ∃ front, outputLines (printed (lines ++ rejectedLines text cause)) =
      front ++ [lineAbove text, caretLine (cause.position + 2), []] := by
  obtain ⟨front, hfront⟩ := exists_outputLines_eq text
  have hmark : outputLines ("  " ++ caret) = [caretLine (cause.position + 2)] := by
    have hline := caret?_eq_some hcaret
    rw [outputLines_of_notMem (hline ▸ feed_notMem_caretLine _), hline]
  let others := lines ++ ["Validating: " ++ text, "  ✗ Parses: FAILED"]
  refine ⟨others.flatMap outputLines ++ front, ?_⟩
  rw [outputLines_printed, rejectedLines, hcaret]
  simp [others, hfront, hmark]

/-- **The caret is under the error of texts without line feeds**, and under that of others only by
chance. A check that comes to a text that is rejected ends, if it shows a caret, with a line, the
caret and a line feed. If the text has no line feed, the character that was found stands in the
column of the caret, or the line ends there if the text does. If it has one, the line is what is
behind the last, and the same character has to stand once more in the text, as many places behind
the error as there are characters up to that line feed and in the margin. -/
theorem caret_off_only_behind_feed
    (accepted : ∀ other ∈ before, ∃ e, Expr.parse other = .ok e)
    (rejected : Expr.parse text = .error cause)
    (hcaret : caret? text cause.position = some caret) :
    ∀ (request : Request) (around : Surroundings) (seconds : String),
      request.task = .check (before ++ text :: after) →
        ∃ front above,
          outputLines ((request.run around).shown seconds) =
            front ++ [above, caretLine (cause.position + 2), []] ∧
          ('\n' ∉ text.toList → IsUnder (cause.position + 2) above cause.found) ∧
          ∀ head last, text.toList = head ++ '\n' :: last → '\n' ∉ last →
            above = last ∧
            (IsUnder (cause.position + 2) above cause.found ↔
              ∃ c, cause.found = some c ∧
                text.toList[cause.position + (head.length + 3)]? = some c) := by
  intro request around seconds htask
  obtain ⟨trees, hbefore, htrees⟩ := exists_trees accepted
  have hread : ReadUpTo (before ++ text :: after) trees (some (text, cause)) := by
    rw [hbefore]
    exact .first trees htrees rejected after
  obtain ⟨front, hlines⟩ := exists_outputLines_rejected hcaret
    (trees.flatMap fun x => acceptedLines x.1 x.2)
  refine ⟨front, lineAbove text, ?_, isUnder_margin rejected, fun head last htext hlast =>
    ⟨lineAbove_of_eq htext hlast, isUnder_lastLine_iff rejected htext hlast⟩⟩
  rw [run_of_readUpTo htask hread]
  exact hlines

/-- At the end of a text of one line, which comes behind another text, the caret is in its place. -/
theorem caret_under_end_of_second :
    let request : Request := ⟨.check ["x", "cos(x"], 0⟩
    ∃ front above,
      outputLines ((request.run ⟨⟨.empty, []⟩, none, 0⟩).shown "0.00") =
        front ++ [above, caretLine 7, []] ∧
      above.length = 7 := by
  intro request
  have haccepted : ∀ other ∈ ["x"], ∃ e, Expr.parse other = .ok e :=
    List.forall_mem_singleton.mpr ⟨.coord .x, by rfl⟩
  have hrejected : Expr.parse "cos(x" = .error ⟨5, none, .closing⟩ := by rfl
  obtain ⟨front, above, hlines, hunder, -⟩ :=
    caret_off_only_behind_feed haccepted hrejected rfl request ⟨⟨.empty, []⟩, none, 0⟩ "0.00" rfl
  exact ⟨front, above, hlines, hunder (by decide)⟩

/-- Behind a line feed the caret is to the right of the character that was found. -/
theorem caret_not_under_error_behind_feed :
    let request : Request := ⟨.check ["x\n*x*q"], 0⟩
    let around : Surroundings := ⟨⟨.empty, []⟩, none, 0⟩
    Expr.parse "x\n*x*q" = .error ⟨5, some 'q', .term⟩ ∧
      caret? "x\n*x*q" 5 = some "     ^" ∧
      outputLines ((request.run around).shown "0.00") =
        ["Validating: x", "*x*q", "  ✗ Parses: FAILED", "  x", "*x*q", "       ^", ""].map
          String.toList ∧
      caretLine 7 = "       ^".toList ∧ ¬ IsUnder 7 "*x*q".toList (some 'q') := by
  intro request around
  have hrejected : Expr.parse "x\n*x*q" = .error ⟨5, some 'q', .term⟩ := by rfl
  have hread : ReadUpTo ["x\n*x*q"] [] (some ("x\n*x*q", ⟨5, some 'q', .term⟩)) :=
    .first [] (List.forall_mem_nil _) hrejected []
  have hlines : outputLines ((request.run around).shown "0.00") =
      (rejectedLines "x\n*x*q" ⟨5, some 'q', .term⟩).flatMap outputLines ++ [[]] := by
    rw [run_of_readUpTo (rfl : request.task = .check _) hread]
    exact outputLines_printed _
  exact ⟨hrejected, by rfl, hlines.trans (by rfl), by decide, by simp [IsUnder]⟩

end TrigPainting.Command
