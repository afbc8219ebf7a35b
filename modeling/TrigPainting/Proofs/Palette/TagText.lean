import Mathlib.Tactic.TFAE
import TrigPainting.Proofs.Palette.RoundTrip
import TrigPainting.Text.Split

/-!
# The text behind a tag

The tag of a palette is made from one text, its three expressions in parentheses with
underscores between them. Expressions have parentheses of their own but never an underscore,
nor a line feed. So the underscores cut that text into the expressions as the line feeds cut a
details text, and either of the two texts tells the other.

## Main definitions

- `Expr.alphabet` — the characters that expressions are written in
- `Palette.tagParts` — the expressions in parentheses

## Main statements

- `Expr.chars_subset_alphabet` — no other character occurs
- `Palette.splitAt_tagText` — the underscores cut the text into the expressions
- `Palette.tagText_names_details` — the text is another name of the details text
-/

namespace TrigPainting

namespace Expr

/-- The characters that expressions are written in. -/
def alphabet : List Char :=
  "xypisnco()*".toList

theorem chars_subset_alphabet (e : Expr) : e.chars ⊆ alphabet := by
  induction e with
  | coord a => cases a <;> decide
  | pi => decide
  | wave w arg ih =>
    have hname : w.letters ⊆ alphabet := by cases w <;> decide
    rw [chars_wave]
    simp only [List.append_subset, List.cons_subset, List.nil_subset, and_true]
    exact ⟨⟨hname, by decide, ih⟩, by decide⟩
  | piWave w arg ih =>
    have hname : w.letters ⊆ alphabet := by cases w <;> decide
    rw [chars_piWave]
    simp only [List.append_subset, List.cons_subset, List.nil_subset, and_true]
    exact ⟨⟨hname, by decide, by decide, by decide, by decide, ih⟩, by decide⟩
  | times lhs rhs ihl ihr =>
    rw [chars_times, List.append_subset, List.cons_subset]
    exact ⟨ihl, by decide, ihr⟩

end Expr

namespace Palette

/-- The expressions of a palette, each in parentheses. -/
def tagParts (p : Palette) : List (List Char) :=
  Channel.all.map fun c => '(' :: (p.get c).chars ++ [')']

variable {p q : Palette}

-- ════════════════════════════════════════════════════════════════════════
-- The parts of the two texts
-- ════════════════════════════════════════════════════════════════════════

theorem tagText_eq (p : Palette) : p.tagText = ['_'].intercalate p.tagParts := by
  simp [tagText, tagParts, Channel.all, get, Expr.write_eq_append _ (_ :: _)]

/-- An underscore stands between two expressions and nowhere else. -/
theorem splitAt_tagText (p : Palette) : Text.splitAt '_' p.tagText = p.tagParts := by
  rw [tagText_eq]
  refine Text.splitAt_intercalate (List.cons_ne_nil _ _) fun part hpart hmem => ?_
  obtain ⟨c, -, rfl⟩ := List.mem_map.mp hpart
  have hletter : '_' ∈ (p.get c).chars := by simpa using hmem
  exact absurd ((p.get c).chars_subset_alphabet hletter) (by decide)

theorem tagParts_eq_iff :
    p.tagParts = q.tagParts ↔ ∀ c, (p.get c).chars = (q.get c).chars := by
  simp only [tagParts, List.map_inj_left, Channel.mem_all, forall_const, List.cons_append,
    List.cons.injEq, true_and, List.append_cancel_right_eq]

theorem writtenLines_eq_iff :
    p.writtenLines = q.writtenLines ↔ ∀ c, (p.get c).chars = (q.get c).chars := by
  simp only [writtenLines, writtenLine, List.map_inj_left, Channel.mem_all, forall_const,
    List.append_cancel_left_eq, List.cons.injEq, true_and]

theorem tagText_eq_iff : p.tagText = q.tagText ↔ p.tagParts = q.tagParts := by
  constructor
  · intro h
    rw [← splitAt_tagText p, h, splitAt_tagText q]
  · intro h
    rw [tagText_eq p, h, ← tagText_eq q]

theorem details_eq_iff : p.details = q.details ↔ p.writtenLines = q.writtenLines := by
  rw [details, details, String.ofList_inj]
  constructor
  · intro h
    rw [← lines_detailsChars p, h, lines_detailsChars q]
  · intro h
    rw [detailsChars_eq p, h, ← detailsChars_eq q]

-- ════════════════════════════════════════════════════════════════════════
-- Names of palettes
-- ════════════════════════════════════════════════════════════════════════

/-- **The text behind a tag is a name of the details text**: it is the three expressions in
parentheses, and it is the same for two palettes if and only if they have the same details
text, the same expression texts channel by channel, and the same normal forms. -/
theorem tagText_names_details (p q : Palette) :
    p.tag = String.ofList (Storage.fingerprint p.tagText 25) ∧
      String.ofList p.tagText =
        "(" ++ p.red.text ++ ")_(" ++ p.green.text ++ ")_(" ++ p.blue.text ++ ")" ∧
      [p.tagText = q.tagText, p.details = q.details, ∀ c, (p.get c).text = (q.get c).text,
        ∀ c, (p.get c).normalForm = (q.get c).normalForm].TFAE := by
  refine ⟨p.tag_eq, ?_, ?_⟩
  · apply String.toList_injective
    simp [tagText, Expr.text, Expr.write_eq_append _ (_ :: _)]
  · tfae_have 1 ↔ 3 := by
      simp only [tagText_eq_iff, tagParts_eq_iff, Expr.text_eq_text_iff_chars]
    tfae_have 2 ↔ 3 := by
      simp only [details_eq_iff, writtenLines_eq_iff, Expr.text_eq_text_iff_chars]
    tfae_have 3 ↔ 4 := by
      simp only [Expr.text_eq_text_iff_chars, Expr.chars_eq_chars_iff]
    tfae_finish

end Palette

end TrigPainting
