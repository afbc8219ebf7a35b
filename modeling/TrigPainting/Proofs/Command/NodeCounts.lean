import TrigPainting.Proofs.Command.Check
import TrigPainting.Proofs.Command.Repaint
import TrigPainting.Proofs.Expr.Size

/-!
# Numbers of nodes that are shown

A document about a series has the sizes of the trees that were drawn. A check of one of their
texts shows the size of the tree that is read from it. Both can be counted in a text, and they
differ by two nodes for every wave of pi times an argument that was drawn.

## Main definitions

- `checkedLines` — what a check shows of the text of a tree

## Main statements

- `checkAll_text` — checking the text of a tree
- `nodes_shown` — the two numbers of nodes, and where they come from
-/

namespace TrigPainting.Command

/-- The lines that a check shows of the text of a tree. -/
def checkedLines (e : Expr) : List String :=
  ["Validating: " ++ e.text,
    "  ✓ Parses: OK",
    "  ✓ Already canonical: OK",
    "  Canonical: " ++ e.text,
    "  Nodes:     " ++ Decimal.naturalText (e.size + 2 * e.piWaves),
    "  Depth:     " ++ Decimal.naturalText e.normalForm.depth,
    ""]

/-- The text of a tree is its own canonical text, and its nodes are those of the normal form. -/
theorem acceptedLines_normalForm (e : Expr) :
    acceptedLines e.text e.normalForm = checkedLines e := by
  rw [acceptedLines, checkedLines, e.text_normalForm, if_pos rfl, e.size_normalForm]

theorem checkAll_text {e : Expr} (h : e.nesting ≤ maxNesting) (others : List String) :
    checkAll (e.text :: others) =
      (printed (checkedLines e) ++ (checkAll others).1, (checkAll others).2) := by
  rw [checkAll_cons (Expr.parse_text_of_nesting_le h), acceptedLines_normalForm]

theorem shown_check (texts : List String) (disk : Storage.Disk) (seconds : String) :
    (check texts disk).shown seconds = (checkAll texts).1 := by
  rw [check]
  obtain ⟨shown, _ | cause⟩ := checkAll texts <;> rfl

/-- The sizes of the channels in the document about a picture. -/
theorem field?_nodes (r : Report) :
    r.toJson.field? "nodes" = some (.array (Channel.all.map fun c => .nat (r.palette.get c).size)) :=
  rfl

theorem field?_palette (r : Report) (c : Channel) :
    (r.toJson.field? "palette").bind (Json.field? c.name) =
      some (.string (r.palette.get c).text) := by
  cases c <;> rfl

theorem getElem?_map_all {α : Type} (f : Channel → α) (c : Channel) :
    (Channel.all.map f)[Channel.all.idxOf c]? = some (f c) := by
  cases c <;> rfl

/-- **Numbers of nodes**: the tree that is read from a text has a node for every `x`, `y`, `p`,
`*`, `n` and `o` in it, and one more leaf than there are multiplication signs. A tree within the
limit is read back with two nodes more for every wave of pi times an argument. So in the document
about a series, the number of nodes of a channel is smaller by these than the one that a check of
the same text shows. Every palette that a series draws is within the limit. -/
theorem nodes_shown :
    (∀ (text : String) (e : Expr), Expr.parse text = .ok e →
      e.size = text.toList.countP standsForNode ∧ e.leaves = text.toList.count '*' + 1) ∧
    (∀ e : Expr, e.nesting ≤ 256 →
      ∃ back, Expr.parse e.text = .ok back ∧ back.size = e.size + 2 * e.piWaves) ∧
    (∀ (seed : UInt64) (options : Series) (reports : List Report), ∀ r ∈ reports,
      ∀ c : Channel, (r.palette.get c).nesting ≤ 256 →
        let e := r.palette.get c
        (∃ entries, (seriesJson seed options reports).field? "images" = some (.array entries) ∧
          r.toJson ∈ entries) ∧
        (r.toJson.field? "palette").bind (Json.field? c.name) = some (.string e.text) ∧
        (∃ counts, r.toJson.field? "nodes" = some (.array counts) ∧
          counts[Channel.all.idxOf c]? = some (.nat e.size)) ∧
        ∀ (others : List String) (disk : Storage.Disk) (seconds : String), ∃ rest,
          (check (e.text :: others) disk).shown seconds = printed (checkedLines e) ++ rest) ∧
    ∀ (options : Series) (source : Xoshiro) (c : Channel),
      ((Palette.draw .binary64 Xoshiro.source options.settings source).1.get c).nesting ≤ 256 := by
  refine ⟨fun text e h => ⟨Expr.size_of_parse h, Expr.leaves_of_parse h⟩, fun e h => ?_, ?_,
    Palette.nesting_draw_le⟩
  · exact ⟨e.normalForm, Expr.parse_text_of_nesting_le h, e.size_normalForm⟩
  intro seed options reports r hr c hnesting e
  refine ⟨⟨reports.map Report.toJson, rfl, List.mem_map_of_mem hr⟩, field?_palette r c,
    ⟨_, field?_nodes r, getElem?_map_all _ c⟩, ?_⟩
  intro others disk seconds
  rw [shown_check, checkAll_text hnesting]
  exact ⟨_, rfl⟩

/-- A wave of pi times an argument with its size in a document, and the size that is checked. -/
theorem nodes_shown_of_piWave :
    let e : Expr := .times (.piWave .sine (.coord .x)) (.wave .cosine .pi)
    let r : Report := ⟨0, ⟨⟨""⟩, ⟨"a"⟩, ⟨"b"⟩⟩, ⟨.pi, e, .coord .y⟩⟩
    let options : Series := { count := 1, format := .json }
    Expr.parse "s in(( pi)*x) * cos(pi)" =
        .ok (.times (.wave .sine (.times .pi (.coord .x))) (.wave .cosine .pi)) ∧
      7 = "s in(( pi)*x) * cos(pi)".toList.countP standsForNode ∧
      e.nesting ≤ 256 ∧
      (∃ counts, r.toJson.field? "nodes" = some (.array counts) ∧ counts[1]? = some (.nat 5)) ∧
      (∃ back, Expr.parse e.text = .ok back ∧ back.size = 5 + 2 * 1) ∧
      (∃ entries, (seriesJson 3 options [r]).field? "images" = some (.array entries) ∧
        r.toJson ∈ entries) ∧
      ∃ rest, (check [e.text] ⟨.empty, []⟩).shown "0.00" = printed (checkedLines e) ++ rest := by
  intro e r options
  obtain ⟨hread, hback, hshown, -⟩ := nodes_shown
  have hparse : Expr.parse "s in(( pi)*x) * cos(pi)" =
      .ok (.times (.wave .sine (.times .pi (.coord .x))) (.wave .cosine .pi)) := by rfl
  have hnesting : e.nesting ≤ 256 := by decide
  obtain ⟨hentry, -, hcounts, hcheck⟩ :=
    hshown 3 options [r] r (List.mem_singleton_self r) .green hnesting
  exact ⟨hparse, (hread _ _ hparse).1, hnesting, hcounts, hback e hnesting, hentry,
    hcheck [] ⟨.empty, []⟩ "0.00"⟩

end TrigPainting.Command
