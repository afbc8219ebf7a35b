import TrigPainting.Proofs.Expr.Reading

/-!
# The place of an error

An error names the character in front of which reading stopped, by its index in the text with
the blanks counted, or the end of the text. If more characters stand in front of the text, the
error names the same place by an index that is greater by their number.

## Main definitions

- `SyntaxError.StandsIn` — the error names a visible character of a text, or its end

## Main statements

- `Expr.standsIn_of_parseChars` — every error stands in the text that was read
- `SyntaxError.StandsIn.shift` — and, moved along, in every text that ends with it
-/

namespace TrigPainting

/-- An error names a place of a text: a visible character by its index, or the end. -/
structure SyntaxError.StandsIn (err : SyntaxError) (text : List Char) : Prop where
  visible : ∀ c, err.found = some c → text[err.position]? = some c ∧ Text.isBlank c = false
  ended : err.found = none → err.position = text.length

theorem Reader.Stops.standsIn {t : State} {tail : List Char} {found : Option Char}
    {expected : Expected} (h : Stops t tail found expected) (head : List Char) :
    SyntaxError.StandsIn ⟨head.length, found, expected⟩ (head ++ tail) := by
  cases h with
  | ended _ =>
    refine ⟨nofun, fun _ => ?_⟩
    rw [List.append_nil]
  | refused hvisible _ =>
    refine ⟨?_, nofun⟩
    rintro _ ⟨⟩
    exact ⟨by simp, hvisible⟩

theorem Expr.standsIn_of_parseChars {text : List Char} {err : SyntaxError}
    (h : parseChars text = .error err) : err.StandsIn text := by
  obtain ⟨head, tail, t, rfl, hposition, -, hstop⟩ :=
    (Reader.read_eq_error_iff (Nat.zero_le _) 0 text err).mp h
  have hstands := hstop.standsIn head
  rw [Nat.zero_add] at hposition
  rwa [← hposition] at hstands

/-- What stands in front of a text moves the places in it along. -/
theorem SyntaxError.StandsIn.shift {err : SyntaxError} {text : List Char} (h : err.StandsIn text)
    (before : List Char) : (err.shift before.length).StandsIn (before ++ text) where
  visible c hc := by
    obtain ⟨hplace, hvisible⟩ := h.visible c hc
    refine ⟨?_, hvisible⟩
    rw [SyntaxError.shift, List.getElem?_append_right (Nat.le_add_left ..), Nat.add_sub_cancel]
    exact hplace
  ended hnone := by
    rw [SyntaxError.shift, h.ended hnone, List.length_append, Nat.add_comm]

end TrigPainting
