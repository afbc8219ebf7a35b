import TrigPainting.Proofs.Expr.Place
import TrigPainting.Proofs.Palette.Reading

/-!
# The place of an error in a details text

A line of a details text is trimmed, and the key and the colon are taken off, before its
expression is read. The error of an expression that cannot be read names its place in the
trimmed line, six characters further on than in the expression alone. Only the key and the
colon decide that number, whatever characters the line goes on with. They are as many bytes as
characters, so it is the same number if it is found by counting the bytes of the line that are
not bytes of the expression.

## Main definitions

- `Text.byteLength` — how many bytes a text takes

## Main statements

- `Palette.Fails.standsIn` — the error of a line stands in the trimmed line
- `Palette.malformed_place` — where the error of a details text stands
-/

namespace TrigPainting

/-- How many bytes a text takes in UTF-8. -/
def Text.byteLength (text : List Char) : Nat :=
  (String.ofList text).utf8ByteSize

theorem Text.byteLength_append (a b : List Char) :
    byteLength (a ++ b) = byteLength a + byteLength b := by
  rw [byteLength, String.ofList_append, String.utf8ByteSize_append]
  rfl

namespace Palette

variable {line : List Char} {c : Channel} {cause : SyntaxError}

/-- What stands in front of the expression of a line takes six bytes, for six characters. -/
theorem length_lead (c : Channel) :
    (c.key ++ [':']).length = 6 ∧ Text.byteLength (c.key ++ [':']) = 6 := by
  cases c <;> decide

theorem Tells.trim_eq {expression : List Char} (h : Tells line c expression) :
    Text.trim line = (c.key ++ [':']) ++ expression := by
  rw [h, List.append_assoc]
  rfl

/-- The error of a line is that of its expression, moved along by what stands in front of it. -/
theorem Fails.exists_own (h : Fails line (.malformed c cause)) :
    ∃ expression own, Tells line c expression ∧ Expr.parseChars expression = .error own ∧
      cause = own.shift (c.key ++ [':']).length := by
  cases h with
  | intro tells refused => exact ⟨_, _, tells, refused, by rw [List.length_append]; rfl⟩

theorem Fails.standsIn (h : Fails line (.malformed c cause)) : cause.StandsIn (Text.trim line) := by
  obtain ⟨expression, own, tells, refused, rfl⟩ := h.exists_own
  rw [tells.trim_eq]
  exact (Expr.standsIn_of_parseChars refused).shift (c.key ++ [':'])

/-- The error of a text is that of one of its lines. -/
theorem exists_fails_of_ofDetails {text : String}
    (h : ofDetails text = .error (.malformed c cause)) :
    ∃ line ∈ Text.lines text.toList, Fails line (.malformed c cause) := by
  cases (ofDetailsChars_eq_iff text.toList _).mp h with
  | malformed first fails => exact ⟨_, first.mem, fails⟩

/-- **Places point into the trimmed line**: the error of a text whose expressions cannot all be
read belongs to a line with a key. In that line, once it is trimmed, the error names a visible
character behind the key and the colon, or the end. It is the error that the expression has by
itself, six places further on; and six is also the number of bytes in front of the expression. -/
theorem malformed_place {text : String} (h : ofDetails text = .error (.malformed c cause)) :
    ∃ line ∈ Text.lines text.toList, ∃ expression own,
      Text.trim line = c.key ++ ':' :: expression ∧
      6 ≤ cause.position ∧
      (∀ d, cause.found = some d →
        (Text.trim line)[cause.position]? = some d ∧ Text.isBlank d = false) ∧
      (cause.found = none → cause.position = (Text.trim line).length) ∧
      Expr.parse (String.ofList expression) = .error own ∧
      own.found = cause.found ∧ own.expected = cause.expected ∧
      cause.position = own.position + 6 ∧
      Text.byteLength (Text.trim line) - Text.byteLength expression = 6 := by
  obtain ⟨line, hmem, hfails⟩ := exists_fails_of_ofDetails h
  have hstands := hfails.standsIn
  obtain ⟨expression, own, tells, refused, rfl⟩ := hfails.exists_own
  obtain ⟨hlength, hbytes⟩ := length_lead c
  have hposition : (own.shift (c.key ++ [':']).length).position = own.position + 6 := by
    rw [hlength]
    rfl
  have hdifference : Text.byteLength (Text.trim line) - Text.byteLength expression = 6 := by
    rw [tells.trim_eq, Text.byteLength_append, hbytes, Nat.add_sub_cancel]
  refine ⟨line, hmem, expression, own, tells, by omega, hstands.visible, hstands.ended, ?_, rfl,
    rfl, hposition, hdifference⟩
  rw [Expr.parse, String.toList_ofList]
  exact refused

/-- In the second line a character of three bytes is found where a closing parenthesis should be,
behind a blank of the same size. -/
theorem malformed_place_behind_wide_blank :
    let text := "b_exp: x\n\u3000r_exp: sin(\u3000x全)\u2028\n"
    ofDetails text = .error (.malformed .red ⟨13, some '全', .closing⟩) ∧
      ∃ line ∈ Text.lines text.toList, ∃ expression own,
        Text.trim line = Channel.red.key ++ ':' :: expression ∧
        (Text.trim line)[13]? = some '全' ∧
        Expr.parse (String.ofList expression) = .error own ∧ 13 = own.position + 6 := by
  intro text
  have h : ofDetails "b_exp: x\n\u3000r_exp: sin(\u3000x全)\u2028\n" =
      .error (.malformed .red ⟨13, some '全', .closing⟩) := by rfl
  obtain ⟨line, hmem, expression, own, htells, -, hfound, -, hparse, -, -, hposition, -⟩ :=
    malformed_place h
  exact ⟨h, line, hmem, expression, own, htells, (hfound '全' rfl).1, hparse, hposition⟩

end Palette

end TrigPainting
