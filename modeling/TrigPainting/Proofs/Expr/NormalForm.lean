import TrigPainting.Expr.Reader
import TrigPainting.Expr.Text

/-!
# Normal forms of expressions

The text of an expression forgets two things: whether the factor pi under a wave
is held by the wave or by a product, and how products are grouped. The normal
form of an expression settles both. Every wave of pi times an argument becomes a
wave of a product, and every product is regrouped to the left with its factors in
the same order.

## Main definitions

- `Expr.expand`, `Expr.regroup` — the two rewritings, everywhere in a tree
- `Expr.normalForm` — one after the other
- `Expr.IsPlain`, `Expr.IsLeftNested` — the trees that they leave alone
- `Expr.nesting` — the number of groups that are open at once in the text

## Design notes

Regrouping carries the product of the factors to the left, as the reader of
expressions does. So what is read after a product is what `factorsOnto` adds to it.
-/

namespace TrigPainting.Expr

/-- Every wave of pi times an argument, written as a wave of a product. -/
def expand : Expr → Expr
  | coord a => coord a
  | pi => pi
  | wave w arg => wave w arg.expand
  | piWave w arg => wave w (times pi arg.expand)
  | times lhs rhs => times lhs.expand rhs.expand

/-- The factors of a tree, each regrouped, multiplied one by one onto the product
that stands to their left. -/
def factorsOnto : Option Expr → Expr → Expr
  | before, coord a => extend before (coord a)
  | before, pi => extend before pi
  | before, wave w arg => extend before (wave w (factorsOnto none arg))
  | before, piWave w arg => extend before (piWave w (factorsOnto none arg))
  | before, times lhs rhs => factorsOnto (some (factorsOnto before lhs)) rhs

/-- A tree with every product grouped to the left. -/
def regroup (e : Expr) : Expr :=
  factorsOnto none e

/-- The tree that stands for all trees with the same text. -/
def normalForm (e : Expr) : Expr :=
  e.expand.regroup

/-- Whether a tree is a product. -/
def isProduct : Expr → Bool
  | times _ _ => true
  | _ => false

/-- No wave of pi times an argument occurs. -/
def IsPlain : Expr → Prop
  | coord _ => True
  | pi => True
  | wave _ arg => arg.IsPlain
  | piWave _ _ => False
  | times lhs rhs => lhs.IsPlain ∧ rhs.IsPlain

/-- No product is the right operand of a product. -/
def IsLeftNested : Expr → Prop
  | coord _ => True
  | pi => True
  | wave _ arg => arg.IsLeftNested
  | piWave _ arg => arg.IsLeftNested
  | times lhs rhs => lhs.IsLeftNested ∧ rhs.IsLeftNested ∧ rhs.isProduct = false

/-- The greatest number of waves on a path from the root to a leaf. -/
def nesting : Expr → Nat
  | coord _ => 0
  | pi => 0
  | wave _ arg => arg.nesting + 1
  | piWave _ arg => arg.nesting + 1
  | times lhs rhs => max lhs.nesting rhs.nesting

-- ════════════════════════════════════════════════════════════════════════
-- Expanding
-- ════════════════════════════════════════════════════════════════════════

theorem isPlain_expand (e : Expr) : e.expand.IsPlain := by
  induction e with
  | coord _ => trivial
  | pi => trivial
  | wave _ _ ih => exact ih
  | piWave _ _ ih => exact ⟨trivial, ih⟩
  | times _ _ ihl ihr => exact ⟨ihl, ihr⟩

/-- Expanding leaves a tree alone that has nothing to expand. -/
theorem expand_eq_self {e : Expr} (h : e.IsPlain) : e.expand = e := by
  induction e with
  | coord _ => rfl
  | pi => rfl
  | wave w _ ih => exact congrArg (wave w) (ih h)
  | piWave _ _ _ => exact h.elim
  | times _ _ ihl ihr => rw [expand, ihl h.1, ihr h.2]

theorem chars_expand (e : Expr) : e.expand.chars = e.chars := by
  induction e with
  | coord _ => rfl
  | pi => rfl
  | wave w arg ih => rw [expand, chars_wave, chars_wave, ih]
  | piWave w arg ih =>
    rw [expand, chars_wave, chars_times, ih, chars_piWave]
    rfl
  | times lhs rhs ihl ihr => rw [expand, chars_times, chars_times, ihl, ihr]

theorem nesting_expand (e : Expr) : e.expand.nesting = e.nesting := by
  induction e with
  | coord _ => rfl
  | pi => rfl
  | wave _ _ ih => rw [expand, nesting, nesting, ih]
  | piWave _ _ ih => rw [expand, nesting, nesting, nesting, nesting, ih, Nat.zero_max]
  | times _ _ ihl ihr => rw [expand, nesting, nesting, ihl, ihr]

-- ════════════════════════════════════════════════════════════════════════
-- Regrouping
-- ════════════════════════════════════════════════════════════════════════

/-- A tree that is no product is one factor. -/
theorem factorsOnto_of_isProduct_eq_false {e : Expr} (h : e.isProduct = false)
    (before : Option Expr) : factorsOnto before e = extend before e.regroup := by
  cases e with
  | times _ _ => cases h
  | _ => rfl

theorem isLeftNested_extend {before : Option Expr} {f : Expr}
    (hb : ∀ b ∈ before, b.IsLeftNested) (hf : f.IsLeftNested) (hp : f.isProduct = false) :
    (extend before f).IsLeftNested := by
  cases before with
  | none => exact hf
  | some b => exact ⟨hb b rfl, hf, hp⟩

theorem isPlain_extend {before : Option Expr} {f : Expr}
    (hb : ∀ b ∈ before, b.IsPlain) (hf : f.IsPlain) : (extend before f).IsPlain := by
  cases before with
  | none => exact hf
  | some b => exact ⟨hb b rfl, hf⟩

/-- Multiplying by the factors of a tree, and not by the tree, never makes a product
the right operand of another. -/
theorem isLeftNested_factorsOnto (e : Expr) (before : Option Expr)
    (h : ∀ b ∈ before, b.IsLeftNested) : (factorsOnto before e).IsLeftNested := by
  induction e generalizing before with
  | coord a => exact isLeftNested_extend h trivial rfl
  | pi => exact isLeftNested_extend h trivial rfl
  | wave w arg ih => exact isLeftNested_extend h (ih none nofun) rfl
  | piWave w arg ih => exact isLeftNested_extend h (ih none nofun) rfl
  | times lhs rhs ihl ihr =>
    refine ihr _ fun b hb => ?_
    obtain rfl := Option.mem_some.mp hb
    exact ihl before h

theorem isLeftNested_regroup (e : Expr) : e.regroup.IsLeftNested :=
  isLeftNested_factorsOnto e none nofun

/-- Regrouping leaves a tree alone that leans to the left. -/
theorem regroup_eq_self {e : Expr} (h : e.IsLeftNested) : e.regroup = e := by
  induction e with
  | coord _ => rfl
  | pi => rfl
  | wave w _ ih => exact congrArg (wave w) (ih h)
  | piWave w _ ih => exact congrArg (piWave w) (ih h)
  | times lhs rhs ihl ihr =>
    obtain ⟨hl, hr, hp⟩ := h
    change factorsOnto (some lhs.regroup) rhs = times lhs rhs
    rw [factorsOnto_of_isProduct_eq_false hp, ihl hl, ihr hr]
    rfl

theorem isPlain_factorsOnto (e : Expr) (before : Option Expr) (he : e.IsPlain)
    (h : ∀ b ∈ before, b.IsPlain) : (factorsOnto before e).IsPlain := by
  induction e generalizing before with
  | coord a => exact isPlain_extend h trivial
  | pi => exact isPlain_extend h trivial
  | wave w arg ih => exact isPlain_extend h (ih none he nofun)
  | piWave w arg _ => exact he.elim
  | times lhs rhs ihl ihr =>
    refine ihr _ he.2 fun b hb => ?_
    obtain rfl := Option.mem_some.mp hb
    exact ihl before he.1 h

/-- The text of a product that is still to be extended: nothing, or its factors and
a multiplication sign. -/
def charsBefore : Option Expr → List Char
  | none => []
  | some b => b.chars ++ ['*']

theorem chars_extend (before : Option Expr) (f : Expr) :
    (extend before f).chars = charsBefore before ++ f.chars := by
  cases before with
  | none => rfl
  | some b => simp [charsBefore, chars_times]

/-- Regrouping keeps the factors and their order, hence the text. -/
theorem chars_factorsOnto (e : Expr) (before : Option Expr) :
    (factorsOnto before e).chars = charsBefore before ++ e.chars := by
  induction e generalizing before with
  | coord a => exact chars_extend before _
  | pi => exact chars_extend before _
  | wave w arg ih => rw [factorsOnto, chars_extend, chars_wave, ih none, chars_wave]; rfl
  | piWave w arg ih => rw [factorsOnto, chars_extend, chars_piWave, ih none, chars_piWave]; rfl
  | times lhs rhs ihl ihr =>
    rw [factorsOnto, ihr, charsBefore, ihl, chars_times]
    simp

-- ════════════════════════════════════════════════════════════════════════
-- Normal forms
-- ════════════════════════════════════════════════════════════════════════

theorem isPlain_normalForm (e : Expr) : e.normalForm.IsPlain :=
  isPlain_factorsOnto e.expand none e.isPlain_expand nofun

theorem isLeftNested_normalForm (e : Expr) : e.normalForm.IsLeftNested :=
  isLeftNested_regroup e.expand

/-- The trees in normal form are those that have nothing to rewrite. -/
theorem normalForm_eq_self_iff (e : Expr) :
    e.normalForm = e ↔ e.IsPlain ∧ e.IsLeftNested := by
  constructor
  · intro h
    exact h ▸ ⟨e.isPlain_normalForm, e.isLeftNested_normalForm⟩
  · rintro ⟨hp, hl⟩
    rw [normalForm, expand_eq_self hp, regroup_eq_self hl]

/-- The normal form of a tree has the text of the tree. -/
theorem chars_normalForm (e : Expr) : e.normalForm.chars = e.chars := by
  rw [normalForm, regroup, chars_factorsOnto, chars_expand]
  rfl

theorem text_normalForm (e : Expr) : e.normalForm.text = e.text :=
  congrArg String.ofList e.chars_normalForm

end TrigPainting.Expr
