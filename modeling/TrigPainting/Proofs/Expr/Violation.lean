import TrigPainting.Proofs.Expr.Balance

/-!
# The first violation of a text

Every state that the reader comes to can still be completed to an expression: a word
that was begun is spelled out, a missing factor is supplied, and the open groups are
closed. So a syntax error stands at the first character that no expression could have
in its place, and it depends on nothing that follows.

## Main statements

- `Reader.exists_reads_accepted` — every state below the limit can be completed
- `Expr.parse_error_at_first_violation` — the place of a syntax error
-/

namespace TrigPainting

namespace Reader

variable {limit : Nat}

/-- Open groups can be closed. -/
theorem exists_reads_closed (groups : List Group) (value : Expr) (h : groups.length ≤ limit) :
    ∃ text e, Reads limit ⟨groups, .product value⟩ text ⟨[], .product e⟩ := by
  induction groups generalizing value with
  | nil => exact ⟨[], value, .nil _⟩
  | cons g groups ih =>
    have houter : groups.length ≤ limit := Nat.le_of_succ_le h
    obtain ⟨text, e, run⟩ := ih (g.close value) houter
    exact ⟨[')'] ++ text, e, (reads_close houter g value).append run⟩

/-- A missing factor can be supplied, by a coordinate. -/
theorem exists_reads_factor (groups : List Group) (before : Option Expr)
    (h : groups.length ≤ limit) :
    ∃ text e, Reads limit ⟨groups, .factor before⟩ text ⟨[], .product e⟩ := by
  obtain ⟨text, e, run⟩ := exists_reads_closed groups (Expr.extend before (.coord .x)) h
  exact ⟨'x' :: text, e, .cons (.coord groups before .x) h run⟩

/-- A word that was begun can be spelled out. -/
theorem exists_reads_word (groups : List Group) (word : Word) (next : Char) (later : List Char)
    (before : Option Expr)
    (h : State.nesting ⟨groups, .spelling word next later before⟩ ≤ limit) :
    ∃ text e, Reads limit ⟨groups, .spelling word next later before⟩ text ⟨[], .product e⟩ := by
  induction later generalizing next with
  | nil =>
    cases word with
    | call w =>
      obtain ⟨text, e, run⟩ := exists_reads_factor (⟨.call w, before⟩ :: groups) none h
      exact ⟨next :: text, e, .cons (.call groups w next before) h run⟩
    | pi =>
      obtain ⟨text, e, run⟩ := exists_reads_closed groups (Expr.extend before .pi) h
      exact ⟨next :: text, e, .cons (.constant groups next before) h run⟩
  | cons letter later ih =>
    have hnext : State.nesting ⟨groups, .spelling word letter later before⟩ ≤ limit := by
      cases word <;> exact h
    obtain ⟨text, e, run⟩ := ih letter hnext
    exact ⟨next :: text, e, .cons (.letter groups word next letter later before) hnext run⟩

/-- **Completion**: from every state below the limit some text leads to an expression. -/
theorem exists_reads_accepted {s : State} (hs : s.nesting ≤ limit) :
    ∃ text e, Reads limit s text ⟨[], .product e⟩ := by
  obtain ⟨groups, stage⟩ := s
  cases stage with
  | factor before => exact exists_reads_factor groups before hs
  | spelling word next later before => exact exists_reads_word groups word next later before hs
  | product value => exact exists_reads_closed groups value hs

end Reader

namespace Expr

open Reader

/-- What can be read can be completed to the text of an expression. -/
theorem exists_parse_of_reads {head : List Char} {t : State}
    (run : Reads maxNesting .start (Text.visible head) t) :
    ∃ rest e, parse (String.ofList (head ++ rest)) = .ok e := by
  obtain ⟨rest, e, completed⟩ := exists_reads_accepted (run.nesting_le (Nat.zero_le _))
  refine ⟨rest, e, (parse_eq_ok_iff _ _).mpr ?_⟩
  have hvisible : Text.visible rest = rest := (consumed_of_reads run).visible_of_reads completed
  rw [String.toList_ofList, Text.visible_append, hvisible]
  exact run.append completed

/-- **First violation**: what stands before a syntax error can be completed to the text
of an expression. If a character was found there, it is not blank, and every text that
agrees up to it is refused with the same error. Otherwise the text has ended. -/
theorem parse_error_at_first_violation {text : String} {err : SyntaxError}
    (h : parse text = .error err) :
    (∃ rest e, parse (String.ofList (text.toList.take err.position ++ rest)) = .ok e) ∧
      (∀ c, err.found = some c → text.toList[err.position]? = some c ∧
        Text.isBlank c = false ∧
          ∀ other : String, other.toList.take (err.position + 1) =
            text.toList.take (err.position + 1) → parse other = .error err) ∧
      (err.found = none → err.position = text.length) := by
  obtain ⟨head, tail, t, htext, hposition, run, hstop⟩ := (parse_eq_error_iff text err).mp h
  refine ⟨?_, ?_, ?_⟩
  · rw [htext, hposition, List.take_left]
    exact exists_parse_of_reads run
  · intro c hfound
    rw [hfound] at hstop
    cases hstop with
    | @refused _ rest _ visible hstep =>
      refine ⟨by rw [htext, hposition]; simp, visible, fun other hother => ?_⟩
      -- The other text goes on as it likes after the character that is refused.
      have hsplit : other.toList = head ++ c :: other.toList.drop (err.position + 1) := by
        rw [hposition] at hother ⊢
        have hstart : other.toList.take (head.length + 1) = head ++ [c] := by
          rw [hother, htext, List.take_length_add_append]
          rfl
        rw [List.append_cons, ← hstart, List.take_append_drop]
      refine (parse_eq_error_iff other err).mpr ⟨head, _, t, hsplit, hposition, run, ?_⟩
      rw [hfound]
      exact .refused visible hstep
  · intro hfound
    rw [hfound] at hstop
    cases hstop
    rw [hposition, ← String.length_toList, htext, List.append_nil]

theorem parse_error_of_unclosed_call :
    parse "sin( x  q" = .error ⟨8, some 'q', .closing⟩ ∧
      (∃ rest e, parse (String.ofList ("sin( x  ".toList ++ rest)) = .ok e) ∧
      parse "sin( x  q*y)" = .error ⟨8, some 'q', .closing⟩ := by
  have h : parse "sin( x  q" = .error ⟨8, some 'q', .closing⟩ := rfl
  obtain ⟨hstart, hfound, -⟩ := parse_error_at_first_violation h
  obtain ⟨-, -, hother⟩ := hfound 'q' rfl
  exact ⟨h, hstart, hother "sin( x  q*y)" rfl⟩

end Expr

end TrigPainting
