import TrigPainting.Command.Execution

/-!
# Checks up to the first text that is rejected

A check goes through its texts in order. Each text that holds an expression adds its lines to
what is shown, and the first that holds none adds lines of its own and ends the check. So what
is shown, what is told and the exit code are settled by the texts up to that one, and no text
behind it has a part in them.

## Main definitions

- `printed` — lines that are shown, each with a line feed
- `acceptedLines`, `rejectedLines` — what is shown of one text
- `ReadUpTo` — the texts that hold expressions, up to the first that holds none

## Main statements

- `checkAll_append` — what texts that hold expressions add to a check
- `ReadUpTo.checkAll` — all that a check shows
- `run_of_readUpTo` — all that comes of a check
- `check_reports_up_to_first_rejected` — the command from its arguments to its exit code
-/

namespace TrigPainting.Command

/-- Lines as they are shown, each with a line feed. -/
def printed (lines : List String) : String :=
  String.join (lines.map (· ++ "\n"))

/-- The lines about a text that holds an expression: whether the text is that of the expression,
its text, and its size and depth. -/
def acceptedLines (text : String) (e : Expr) : List String :=
  ["Validating: " ++ text,
    "  ✓ Parses: OK",
    if e.text = text then "  ✓ Already canonical: OK" else "  ✗ Already canonical: FAILED",
    "  Canonical: " ++ e.text,
    "  Nodes:     " ++ Decimal.naturalText e.size,
    "  Depth:     " ++ Decimal.naturalText e.depth,
    ""]

/-- The lines about a text that holds none. If the text is ASCII it is shown again, with a caret. -/
def rejectedLines (text : String) (cause : SyntaxError) : List String :=
  ["Validating: " ++ text, "  ✗ Parses: FAILED"] ++
    match caret? text cause.position with
    | some caret => ["  " ++ text, "  " ++ caret]
    | none => []

/-- The lines at the end of a check: about the text that is rejected, if there is one. -/
def lastLines : Option (String × SyntaxError) → List String
  | none => ["Validation successful!"]
  | some (text, cause) => rejectedLines text cause

/-- The line about the text that is rejected that is told beside what is shown. -/
def failureTold : Option (String × SyntaxError) → String
  | none => ""
  | some (_, cause) => "Error: Invalid expression: " ++ cause.message ++ "\n"

/-- **Texts are read up to the first that holds no expression**: those in front of it, each with
its tree, and that text with its error, if there is one. -/
inductive ReadUpTo : List String → List (String × Expr) → Option (String × SyntaxError) → Prop
  /-- All texts hold expressions. -/
  | all (trees : List (String × Expr)) (accepted : ∀ x ∈ trees, Expr.parse x.1 = .ok x.2) :
      ReadUpTo (trees.map Prod.fst) trees none
  /-- One text holds none, and all in front of it do. -/
  | first (trees : List (String × Expr)) {text : String} {cause : SyntaxError}
      (accepted : ∀ x ∈ trees, Expr.parse x.1 = .ok x.2)
      (rejected : Expr.parse text = .error cause) (others : List String) :
      ReadUpTo (trees.map Prod.fst ++ text :: others) trees (some (text, cause))

variable {texts others : List String} {trees : List (String × Expr)} {text : String} {e : Expr}
  {cause : SyntaxError} {stop : Option (String × SyntaxError)}

-- ════════════════════════════════════════════════════════════════════════
-- The texts that are read
-- ════════════════════════════════════════════════════════════════════════

theorem ReadUpTo.cons (h : Expr.parse text = .ok e) (rest : ReadUpTo others trees stop) :
    ReadUpTo (text :: others) ((text, e) :: trees) stop := by
  cases rest with
  | all _ accepted => exact .all ((text, e) :: trees) (List.forall_mem_cons.mpr ⟨h, accepted⟩)
  | first _ accepted rejected others =>
    exact .first ((text, e) :: trees) (List.forall_mem_cons.mpr ⟨h, accepted⟩) rejected others

theorem exists_readUpTo (texts : List String) : ∃ trees stop, ReadUpTo texts trees stop := by
  induction texts with
  | nil => exact ⟨[], none, .all [] (List.forall_mem_nil _)⟩
  | cons text others ih =>
    cases h : Expr.parse text with
    | ok e =>
      obtain ⟨trees, stop, rest⟩ := ih
      exact ⟨(text, e) :: trees, stop, rest.cons h⟩
    | error cause => exact ⟨[], some (text, cause), .first [] (List.forall_mem_nil _) h others⟩

theorem ReadUpTo.eq_none_iff (h : ReadUpTo texts trees stop) :
    stop = none ↔ ∀ text ∈ texts, ∃ e, Expr.parse text = .ok e := by
  cases h with
  | all _ accepted =>
    refine iff_of_true rfl fun text htext => ?_
    obtain ⟨x, hx, rfl⟩ := List.mem_map.mp htext
    exact ⟨x.2, accepted x hx⟩
  | @first _ text _ _ rejected _ =>
    refine iff_of_false nofun fun hall => ?_
    obtain ⟨e, he⟩ := hall text (List.mem_append_right _ (List.mem_cons_self ..))
    rw [rejected] at he
    cases he

/-- Texts that hold expressions have trees. -/
theorem exists_trees (accepted : ∀ text ∈ texts, ∃ e, Expr.parse text = .ok e) :
    ∃ trees : List (String × Expr),
      texts = trees.map Prod.fst ∧ ∀ x ∈ trees, Expr.parse x.1 = .ok x.2 := by
  obtain ⟨trees, stop, hread⟩ := exists_readUpTo texts
  obtain rfl := hread.eq_none_iff.mpr accepted
  cases hread with
  | all _ htrees => exact ⟨trees, rfl, htrees⟩

-- ════════════════════════════════════════════════════════════════════════
-- What is shown
-- ════════════════════════════════════════════════════════════════════════

theorem printed_append (a b : List String) : printed (a ++ b) = printed a ++ printed b := by
  rw [printed, List.map_append, String.join_append]
  rfl

theorem accepted_eq (text : String) (e : Expr) :
    accepted text e = printed (acceptedLines text e) := by
  apply String.toList_injective
  by_cases h : e.text = text <;>
    simp [accepted, acceptedLines, printed, headLine, checkLine, h]

theorem rejected_eq (text : String) (cause : SyntaxError) :
    rejected text cause = printed (rejectedLines text cause) := by
  apply String.toList_injective
  cases h : caret? text cause.position <;>
    simp [rejected, rejectedLines, printed, headLine, checkLine, h]

/-- **One text more**: its lines stand in front of all that the others show. -/
theorem checkAll_cons (h : Expr.parse text = .ok e) (others : List String) :
    checkAll (text :: others) =
      (printed (acceptedLines text e) ++ (checkAll others).1, (checkAll others).2) := by
  rw [checkAll, h, ← accepted_eq]

/-- **Several texts more**: their lines stand in front, in their order. -/
theorem checkAll_append (accepted : ∀ x ∈ trees, Expr.parse x.1 = .ok x.2) (others : List String) :
    checkAll (trees.map Prod.fst ++ others) =
      (printed (trees.flatMap fun x => acceptedLines x.1 x.2) ++ (checkAll others).1,
        (checkAll others).2) := by
  induction trees with
  | nil => simp [printed]
  | cons x trees ih =>
    obtain ⟨hx, htrees⟩ := List.forall_mem_cons.mp accepted
    rw [List.map_cons, List.cons_append, checkAll_cons hx, ih htrees, List.flatMap_cons,
      printed_append, String.append_assoc]

theorem ReadUpTo.checkAll (h : ReadUpTo texts trees stop) :
    checkAll texts =
      (printed ((trees.flatMap fun x => acceptedLines x.1 x.2) ++ lastLines stop),
        stop.map Prod.snd) := by
  cases h with
  | all _ accepted =>
    have hrun := checkAll_append accepted []
    rw [List.append_nil] at hrun
    rw [hrun, printed_append]
    rfl
  | first _ accepted rejected others =>
    rw [checkAll_append accepted, Command.checkAll, rejected, printed_append, lastLines,
      ← rejected_eq]
    rfl

-- ════════════════════════════════════════════════════════════════════════
-- The command
-- ════════════════════════════════════════════════════════════════════════

theorem foldlM_addOperand (given : Given) (texts : List String) :
    texts.foldlM (fun given => given.addOperand checkForm) given =
      .ok { given with operands := given.operands ++ texts } := by
  induction texts generalizing given with
  | nil => simp [pure, Except.pure]
  | cons text others ih =>
    have hadd : given.addOperand checkForm text =
        .ok { given with operands := given.operands ++ [text] } := rfl
    rw [List.foldlM_cons, hadd]
    show others.foldlM _ _ = _
    rw [ih, List.append_assoc]
    rfl

/-- Behind two dashes every argument is a text to be checked. -/
theorem ofArguments_check (hne : texts ≠ []) :
    Request.ofArguments ("validate" :: "--" :: texts) = .ok ⟨.check texts, 0⟩ := by
  have hread : Given.read checkForm {} none ("--" :: texts) = .ok { operands := texts } := by
    rw [Given.read]
    exact foldlM_addOperand {} texts
  have htask : Task.ofArguments "validate" ("--" :: texts) = .ok (.check texts, 0) := by
    simp [Task.ofArguments, hread, hne, bind, Except.bind, pure, Except.pure]
  have hname : Given.isOption "validate" = false := by decide
  rw [Request.ofArguments, Request.ofArgumentsAfter]
  simp only [hname, htask]
  rfl

/-- **Outcome of a check**, by what is read of its texts. -/
theorem run_of_readUpTo {request : Request} (htask : request.task = .check texts)
    (h : ReadUpTo texts trees stop) (around : Surroundings) :
    request.run around =
      ⟨if stop = none then 0 else 1,
        fun _ => printed ((trees.flatMap fun x => acceptedLines x.1 x.2) ++ lastLines stop),
        [], stop.map fun x => rejection x.2, around.disk⟩ := by
  rw [Request.run, htask, Task.run, check, h.checkAll]
  cases stop <;> rfl

/-- Where nothing happened but the failure, only warnings about the choice of events are told in
front of it. -/
theorem told_of_events_eq_nil (request : Request) (around : Surroundings) {outcome : Outcome}
    (h : outcome.events = []) (seconds : String) :
    request.told around outcome seconds =
      (Log.Filter.parse (around.chosenFilter.getD (usualChoice request.verbosity))).2 ++
        (outcome.failure.map Outcome.failureLine).getD "" := by
  simp [Request.told, Outcome.told, h]

/-- What a verbosity stands for makes sense, so it is not warned of. -/
theorem warnings_usualChoice (verbosity : Nat) :
    (Log.Filter.parse (usualChoice verbosity)).2 = "" := by
  match verbosity with
  | 0 => decide +kernel
  | 1 => decide +kernel
  | _ + 2 =>
    show (Log.Filter.parse "debug").2 = ""
    decide +kernel

/-- The error of the text that is rejected, as the failure of the command. -/
theorem failureTold_eq (stop : Option (String × SyntaxError)) :
    ((stop.map fun x => rejection x.2).map Outcome.failureLine).getD "" = failureTold stop := by
  rcases stop with _ | ⟨text, cause⟩
  · rfl
  · show "Error: " ++ ("Invalid expression: " ++ cause.message) ++ "\n" = _
    rw [← String.append_assoc]
    rfl

/-- **A check reports every text up to the first that is rejected.** Any texts can be asked for,
and they are read up to the first that holds no expression. The exit code is 0 if there is no
such text and 1 otherwise; the lines about the texts in front of it are shown in their order and
then those about it, or that there is none; and the error of that text is told. Nothing is told
in front of it but warnings about the choice of events, if the user made one. -/
theorem check_reports_up_to_first_rejected (hne : texts ≠ []) :
    (∃ request, Request.ofArguments ("validate" :: "--" :: texts) = .ok request ∧
      request.task = .check texts) ∧
    (∃ trees stop, ReadUpTo texts trees stop) ∧
    ∀ (request : Request) (around : Surroundings) (trees : List (String × Expr))
      (stop : Option (String × SyntaxError)) (seconds : String),
      request.task = .check texts → ReadUpTo texts trees stop →
        let outcome := request.run around
        let warnings :=
          (Log.Filter.parse (around.chosenFilter.getD (usualChoice request.verbosity))).2
        (outcome.exitCode = 0 ↔ ∀ text ∈ texts, ∃ e, Expr.parse text = .ok e) ∧
        (outcome.exitCode ≠ 0 → outcome.exitCode = 1) ∧
        outcome.shown seconds =
          printed ((trees.flatMap fun x => acceptedLines x.1 x.2) ++ lastLines stop) ∧
        request.told around outcome seconds = warnings ++ failureTold stop ∧
        (around.chosenFilter = none → request.told around outcome seconds = failureTold stop) := by
  refine ⟨⟨_, ofArguments_check hne, rfl⟩, exists_readUpTo texts, ?_⟩
  intro request around trees stop seconds htask hread outcome warnings
  have houtcome : outcome = _ := run_of_readUpTo htask hread around
  have htold : request.told around outcome seconds = warnings ++ failureTold stop := by
    have hevents : outcome.events = [] := by rw [houtcome]
    rw [told_of_events_eq_nil request around hevents, houtcome, failureTold_eq]
  have hwarnings (hchosen : around.chosenFilter = none) : warnings = "" := by
    simp only [warnings, hchosen, Option.getD_none, warnings_usualChoice]
  refine ⟨?_, ?_, ?_, htold, fun hchosen => ?_⟩
  · rw [houtcome, ← hread.eq_none_iff]
    cases stop <;> simp
  · rw [houtcome]
    cases stop <;> simp
  · rw [houtcome]
  · rw [htold, hwarnings hchosen, String.empty_append]

/-- Of three texts the second is rejected, and the third is not mentioned. -/
theorem check_reports_up_to_second_of_three :
    let request : Request := ⟨.check ["x", "sin( x  q", "q"], 0⟩
    let around : Surroundings := ⟨⟨.empty, []⟩, none, 0⟩
    (request.run around).exitCode = 1 ∧
      (request.run around).shown "0.00" =
        printed ["Validating: x", "  ✓ Parses: OK", "  ✓ Already canonical: OK",
          "  Canonical: x", "  Nodes:     1", "  Depth:     1", "",
          "Validating: sin( x  q", "  ✗ Parses: FAILED", "  sin( x  q", "          ^"] ∧
      request.told around (request.run around) "0.00" =
        "Error: Invalid expression: expected ')' at index 8 but found 'q'\n" := by
  intro request around
  have hx : Expr.parse "x" = .ok (.coord .x) := by rfl
  have hrejected : Expr.parse "sin( x  q" = .error ⟨8, some 'q', .closing⟩ := by rfl
  have hread : ReadUpTo ["x", "sin( x  q", "q"] [("x", .coord .x)]
      (some ("sin( x  q", ⟨8, some 'q', .closing⟩)) :=
    .first [("x", .coord .x)] (by simpa using hx) hrejected ["q"]
  obtain ⟨-, -, hreports⟩ :=
    check_reports_up_to_first_rejected (List.cons_ne_nil "x" ["sin( x  q", "q"])
  obtain ⟨hzero, hone, hshown, -, htold⟩ := hreports request around _ _ "0.00" rfl hread
  refine ⟨hone fun h => ?_, hshown.trans (by rfl), (htold rfl).trans (by rfl)⟩
  obtain ⟨e, he⟩ := hzero.mp h "sin( x  q" (by simp)
  rw [hrejected] at he
  cases he

end TrigPainting.Command
