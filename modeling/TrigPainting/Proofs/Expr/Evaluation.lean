import TrigPainting.Expr.Arithmetic
import TrigPainting.Proofs.Expr.RoundTrip

/-!
# The values of expressions that are read back

What is read back from the text of a tree is its normal form. Expanding the waves of
pi times an argument changes no value: the constant stands on the left in the tree as
it does in the arithmetic. Regrouping a product changes the order in which its factors
are multiplied, so it keeps the value where multiplication is associative, and elsewhere
only if there is nothing to regroup.

## Main definitions

- `Arithmetic.IsAssociative` — products may be regrouped
- `Arithmetic.formal` — the arithmetic whose values are the computations themselves
- `Expr.HasSingleArguments` — no wave of pi times a product occurs

## Main statements

- `Expr.eval_expand`, `Expr.eval_regroup` — the values of the two rewritings
- `Expr.eval_parse_text` — the value of what is read back

## Design notes

A value in `formal` is the tree of the operations that were made, each on its
operands. Two trees with the same value there make the same operations, and so they
have the same value in every arithmetic.
-/

namespace TrigPainting

namespace Arithmetic

variable {α : Type}

/-- Products may be regrouped without a change of their value. -/
def IsAssociative (arith : Arithmetic α) : Prop :=
  ∀ a b c, arith.mul (arith.mul a b) c = arith.mul a (arith.mul b c)

/-- A value multiplied onto the one that stands to its left, if there is one. -/
def mulOnto (arith : Arithmetic α) : Option α → α → α
  | none, b => b
  | some a, b => arith.mul a b

/-- Multiplying two values one by one is multiplying by their product. -/
theorem IsAssociative.mul_mulOnto {arith : Arithmetic α} (h : arith.IsAssociative)
    (before : Option α) (a b : α) :
    arith.mul (arith.mulOnto before a) b = arith.mulOnto before (arith.mul a b) := by
  cases before with
  | none => rfl
  | some c => exact h c a b

/-- Computing with the operations themselves: nothing is evaluated. -/
def formal : Arithmetic Expr where
  pi := .pi
  sin := .wave .sine
  cos := .wave .cosine
  mul := .times

theorem formal_wave (w : Wave) (arg : Expr) : formal.wave w arg = .wave w arg := by
  cases w <;> rfl

end Arithmetic

namespace Expr

variable {α : Type}

/-- No wave of pi times an argument has a product as its argument. -/
def HasSingleArguments : Expr → Prop
  | coord _ => True
  | pi => True
  | wave _ arg => arg.HasSingleArguments
  | piWave _ arg => arg.HasSingleArguments ∧ arg.isProduct = false
  | times lhs rhs => lhs.HasSingleArguments ∧ rhs.HasSingleArguments

-- ════════════════════════════════════════════════════════════════════════
-- Expanding and regrouping
-- ════════════════════════════════════════════════════════════════════════

theorem eval_expand (e : Expr) (arith : Arithmetic α) (x y : α) :
    e.expand.eval arith x y = e.eval arith x y := by
  induction e with
  | coord a => rfl
  | pi => rfl
  | wave w arg ih => rw [expand, eval, eval, ih]
  | piWave w arg ih => rw [expand, eval, eval, eval, eval, ih]
  | times lhs rhs ihl ihr => rw [expand, eval, eval, ihl, ihr]

/-- The formal value of a tree is the tree with its pi waves expanded. -/
theorem eval_formal (e : Expr) : e.eval .formal (coord .x) (coord .y) = e.expand := by
  induction e with
  | coord a => cases a <;> rfl
  | pi => rfl
  | wave w arg ih => rw [eval, expand, ih, Arithmetic.formal_wave]
  | piWave w arg ih =>
    rw [eval, expand, ih, Arithmetic.formal_wave]
    rfl
  | times lhs rhs ihl ihr =>
    rw [eval, expand, ihl, ihr]
    rfl

theorem eval_extend (before : Option Expr) (f : Expr) (arith : Arithmetic α) (x y : α) :
    (extend before f).eval arith x y =
      arith.mulOnto (before.map fun b => b.eval arith x y) (f.eval arith x y) := by
  cases before with
  | none => rfl
  | some b => rfl

/-- Multiplying by the factors of a tree one by one is multiplying by the tree. -/
theorem eval_factorsOnto {arith : Arithmetic α} (h : arith.IsAssociative) (x y : α) (e : Expr)
    (before : Option Expr) :
    (factorsOnto before e).eval arith x y =
      arith.mulOnto (before.map fun b => b.eval arith x y) (e.eval arith x y) := by
  induction e generalizing before with
  | coord a => exact eval_extend before _ arith x y
  | pi => exact eval_extend before _ arith x y
  | wave w arg ih =>
    have hinner : (factorsOnto none arg).eval arith x y = arg.eval arith x y := ih none
    rw [factorsOnto, eval_extend, eval, eval, hinner]
  | piWave w arg ih =>
    have hinner : (factorsOnto none arg).eval arith x y = arg.eval arith x y := ih none
    rw [factorsOnto, eval_extend, eval, eval, hinner]
  | times lhs rhs ihl ihr =>
    -- The product of all that stands to the left of `rhs` is what `rhs` is multiplied onto.
    have hleft := ihl before
    have hright := ihr (some (factorsOnto before lhs))
    rw [factorsOnto, hright, Option.map_some, hleft]
    exact h.mul_mulOnto _ _ _

theorem eval_regroup {arith : Arithmetic α} (h : arith.IsAssociative) (x y : α) (e : Expr) :
    e.regroup.eval arith x y = e.eval arith x y :=
  eval_factorsOnto h x y e none

theorem isProduct_expand (e : Expr) : e.expand.isProduct = e.isProduct := by
  cases e <;> rfl

/-- Expanding makes a wave of a product out of every pi wave, with the argument on the
right. -/
theorem isLeftNested_expand_iff (e : Expr) :
    e.expand.IsLeftNested ↔ e.IsLeftNested ∧ e.HasSingleArguments := by
  induction e with
  | coord a => simp [expand, IsLeftNested, HasSingleArguments]
  | pi => simp [expand, IsLeftNested, HasSingleArguments]
  | wave w arg ih => exact ih
  | piWave w arg ih =>
    simp only [expand, IsLeftNested, HasSingleArguments, isProduct_expand, ih, true_and, and_assoc]
  | times lhs rhs ihl ihr =>
    simp only [expand, IsLeftNested, HasSingleArguments, isProduct_expand, ihl, ihr]
    constructor
    · rintro ⟨⟨hl, sl⟩, ⟨hr, sr⟩, hp⟩
      exact ⟨⟨hl, hr, hp⟩, sl, sr⟩
    · rintro ⟨⟨hl, hr, hp⟩, sl, sr⟩
      exact ⟨⟨hl, sl⟩, ⟨hr, sr⟩, hp⟩

theorem regroup_eq_self_iff (e : Expr) : e.regroup = e ↔ e.IsLeftNested :=
  ⟨fun h => h ▸ e.isLeftNested_regroup, regroup_eq_self⟩

-- ════════════════════════════════════════════════════════════════════════
-- Normal forms
-- ════════════════════════════════════════════════════════════════════════

theorem eval_normalForm {arith : Arithmetic α} (h : arith.IsAssociative) (x y : α) (e : Expr) :
    e.normalForm.eval arith x y = e.eval arith x y := by
  rw [normalForm, eval_regroup h, eval_expand]

/-- The normal form makes the operations of the tree if and only if nothing has to be
regrouped once the pi waves are expanded. -/
theorem eval_normalForm_formal_iff (e : Expr) :
    e.normalForm.eval .formal (coord .x) (coord .y) = e.eval .formal (coord .x) (coord .y) ↔
      e.IsLeftNested ∧ e.HasSingleArguments := by
  rw [eval_formal, eval_formal, expand_eq_self e.isPlain_normalForm, normalForm,
    regroup_eq_self_iff, isLeftNested_expand_iff]

theorem eval_normalForm_of_isLeftNested {e : Expr} (hl : e.IsLeftNested)
    (hs : e.HasSingleArguments) (arith : Arithmetic α) (x y : α) :
    e.normalForm.eval arith x y = e.eval arith x y := by
  have hregroup : e.normalForm = e.expand :=
    regroup_eq_self (e.isLeftNested_expand_iff.mpr ⟨hl, hs⟩)
  rw [hregroup, eval_expand]

/-- **Value of what is read back**: it is the value of the tree that was written, in every
arithmetic in which products may be regrouped. It is so in every arithmetic whatsoever, and
in particular in machine numbers, if and only if no product is the right operand of a product
and no wave of pi times an argument has a product as its argument. -/
theorem eval_parse_text {e : Expr} (h : e.nesting ≤ 256) :
    ∃ back, parse e.text = .ok back ∧
      (∀ (α : Type) (arith : Arithmetic α), arith.IsAssociative →
        ∀ x y, back.eval arith x y = e.eval arith x y) ∧
      (e.IsLeftNested ∧ e.HasSingleArguments ↔
        ∀ (α : Type) (arith : Arithmetic α) (x y : α),
          back.eval arith x y = e.eval arith x y) ∧
      (e.IsLeftNested ∧ e.HasSingleArguments → ∀ x y, back.value x y = e.value x y) := by
  refine ⟨e.normalForm, parse_text_of_nesting_le h, ?_, ⟨?_, ?_⟩, ?_⟩
  · intro α arith hassoc x y
    exact eval_normalForm hassoc x y e
  · rintro ⟨hl, hs⟩ α arith x y
    exact eval_normalForm_of_isLeftNested hl hs arith x y
  · intro heval
    exact e.eval_normalForm_formal_iff.mp (heval Expr .formal (coord .x) (coord .y))
  · rintro ⟨hl, hs⟩ x y
    exact eval_normalForm_of_isLeftNested hl hs .binary64 x y

/-- Under a pi wave, a product of two factors becomes one of three, grouped the other way:
the value is kept where words are strung together, but not in every arithmetic. -/
theorem eval_parse_text_of_piWave_of_product :
    (piWave .cosine (times (coord .x) (coord .y))).nesting ≤ 256 ∧
      ∃ back, parse (piWave .cosine (times (coord .x) (coord .y))).text = .ok back ∧
        (∀ x y : List Char,
          back.eval ⟨['p'], id, List.reverse, List.append⟩ x y =
            (piWave .cosine (times (coord .x) (coord .y))).eval
              ⟨['p'], id, List.reverse, List.append⟩ x y) ∧
        ¬ ∀ (α : Type) (arith : Arithmetic α) (x y : α),
          back.eval arith x y = (piWave .cosine (times (coord .x) (coord .y))).eval arith x y := by
  have within : (piWave .cosine (times (coord .x) (coord .y))).nesting ≤ 256 := by decide
  obtain ⟨back, hback, hassoc, hall, -⟩ := eval_parse_text within
  refine ⟨within, back, hback, fun x y => ?_, fun h => ?_⟩
  · exact hassoc (List Char) ⟨['p'], id, List.reverse, List.append⟩ List.append_assoc x y
  · exact absurd (hall.mpr h).2.2 (by decide)

end Expr

end TrigPainting
