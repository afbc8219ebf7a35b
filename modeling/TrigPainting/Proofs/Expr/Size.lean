import TrigPainting.Proofs.Expr.Depth

/-!
# How large expressions are

Every node of a tree that is read has one character of its own in the text: a coordinate its
letter, the constant its `p`, a wave its `n` or `o` and a product its `*`. Parentheses that only
group have none. So the size of a tree can be counted in any text of it.

A wave of pi times an argument is one node, and it is read back as three: a wave, a product and
the constant. Regrouping products makes no node and loses none.

## Main definitions

- `Expr.leaves`, `Expr.piWaves` — how many nodes of a kind a tree has
- `standsForNode` — the characters that stand for a node

## Main statements

- `Derives.size_eq`, `Derives.leaves_eq` — counting in a text
- `Expr.size_normalForm` — the size of what is read back
-/

namespace TrigPainting

/-- Whether a character of a text stands for a node of its tree. -/
def standsForNode (c : Char) : Bool :=
  c ∈ ['x', 'y', 'p', '*', 'n', 'o']

namespace Expr

/-- The number of leaves. -/
def leaves : Expr → Nat
  | coord _ => 1
  | pi => 1
  | wave _ arg => arg.leaves
  | piWave _ arg => arg.leaves
  | times lhs rhs => lhs.leaves + rhs.leaves

/-- The number of waves of pi times an argument. -/
def piWaves : Expr → Nat
  | coord _ => 0
  | pi => 0
  | wave _ arg => arg.piWaves
  | piWave _ arg => arg.piWaves + 1
  | times lhs rhs => lhs.piWaves + rhs.piWaves

end Expr

-- ════════════════════════════════════════════════════════════════════════
-- Counting in a text
-- ════════════════════════════════════════════════════════════════════════

theorem Wave.countP_letters (w : Wave) : w.letters.countP standsForNode = 1 := by
  cases w <;> decide

theorem Axis.countP_letter (a : Axis) : [a.letter].countP standsForNode = 1 := by
  cases a <;> decide

theorem Axis.count_times_letter (a : Axis) : [a.letter].count '*' = 0 := by
  cases a <;> decide

/-- **Nodes**: a derived text has one character for every node of its tree. -/
theorem Derives.size_eq {symbol : Symbol} {k : Nat} {s : List Char} {e : Expr}
    (h : Derives symbol k s e) : e.size = s.countP standsForNode := by
  have hopen : standsForNode '(' = false := by decide
  have hclose : standsForNode ')' = false := by decide
  have htimes : standsForNode '*' = true := by decide
  induction h with
  | coord k a => rw [Axis.countP_letter, Expr.size]
  | pi k => decide
  | call w _ ih => simp [Expr.size, Wave.countP_letters, hopen, hclose, ih, Nat.add_comm]
  | group _ ih => simp [hopen, hclose, ih]
  | single _ ih => exact ih
  | times _ _ ihothers ihlast =>
    rw [Expr.size, ihothers, ihlast, List.countP_append, List.countP_cons_of_pos htimes]
    omega

/-- **Leaves**: a derived text joins its leaves by multiplication signs. -/
theorem Derives.leaves_eq {symbol : Symbol} {k : Nat} {s : List Char} {e : Expr}
    (h : Derives symbol k s e) : e.leaves = s.count '*' + 1 := by
  induction h with
  | coord k a => rw [Axis.count_times_letter, Expr.leaves]
  | pi k => decide
  | call w _ ih => simp [Expr.leaves, Wave.count_times_letters, ih]
  | group _ ih => simp [ih]
  | single _ ih => exact ih
  | times _ _ ihothers ihlast =>
    rw [Expr.leaves, ihothers, ihlast, List.count_append, List.count_cons_self]
    omega

theorem isBlank_of_standsForNode {c : Char} (h : standsForNode c = true) :
    Text.isBlank c = false := by
  have hall : ['x', 'y', 'p', '*', 'n', 'o'].all (fun d => !Text.isBlank d) = true := by decide
  have hc : c ∈ ['x', 'y', 'p', '*', 'n', 'o'] := of_decide_eq_true h
  simpa using List.all_eq_true.mp hall c hc

/-- Blanks stand for no nodes. -/
theorem countP_visible (text : List Char) :
    (Text.visible text).countP standsForNode = text.countP standsForNode := by
  rw [Text.visible, List.countP_filter]
  apply List.countP_congr
  intro c _
  constructor
  · intro h
    exact (Bool.and_eq_true_iff.mp h).1
  · intro h
    rw [h, isBlank_of_standsForNode h]
    rfl

namespace Expr

variable {text : String} {e : Expr}

theorem size_of_parse (h : parse text = .ok e) :
    e.size = text.toList.countP standsForNode := by
  rw [← countP_visible]
  exact (derives_of_parse h).size_eq

theorem leaves_of_parse (h : parse text = .ok e) : e.leaves = text.toList.count '*' + 1 := by
  rw [← count_visible (by decide)]
  exact (derives_of_parse h).leaves_eq

-- ════════════════════════════════════════════════════════════════════════
-- Normal forms
-- ════════════════════════════════════════════════════════════════════════

/-- A wave of pi times an argument becomes three nodes. -/
theorem size_expand (e : Expr) : e.expand.size = e.size + 2 * e.piWaves := by
  induction e with
  | coord _ => rfl
  | pi => rfl
  | wave _ _ ih => rw [expand, size, size, piWaves, ih]; omega
  | piWave _ _ ih => rw [expand, size, size, size, size, piWaves, ih]; omega
  | times _ _ ihl ihr => rw [expand, size, size, piWaves, ihl, ihr]; omega

/-- The nodes of a product to the left that is still to be extended: its own, and the product
that extends it. -/
def sizeBefore : Option Expr → Nat
  | none => 0
  | some b => b.size + 1

theorem size_extend (before : Option Expr) (f : Expr) :
    (extend before f).size = sizeBefore before + f.size := by
  cases before with
  | none => rw [extend_none, sizeBefore, Nat.zero_add]
  | some b => rw [extend_some, size, sizeBefore]; omega

/-- Regrouping multiplies as many factors as there were. -/
theorem size_factorsOnto (e : Expr) (before : Option Expr) :
    (factorsOnto before e).size = sizeBefore before + e.size := by
  induction e generalizing before with
  | coord a => exact size_extend before _
  | pi => exact size_extend before _
  | wave w arg ih => rw [factorsOnto, size_extend, size, ih, size, sizeBefore, Nat.zero_add]
  | piWave w arg ih => rw [factorsOnto, size_extend, size, ih, size, sizeBefore, Nat.zero_add]
  | times lhs rhs ihl ihr => rw [factorsOnto, ihr, sizeBefore, ihl, size]; omega

/-- **What is read back** has two nodes more for every wave of pi times an argument. -/
theorem size_normalForm (e : Expr) : e.normalForm.size = e.size + 2 * e.piWaves := by
  rw [normalForm, regroup, size_factorsOnto, sizeBefore, Nat.zero_add, size_expand]

end Expr

end TrigPainting
