import TrigPainting.Proofs.Expr.Canonical

/-!
# The trees that are read

A text can group factors by parentheses, so it can have any tree without pi waves, also one
whose products do not lean to the left. But a product that is the right operand of another
needs a group of its own, and that group takes one of the levels. So the trees that are read
are those that get by with the levels there are, and each of them is read from the text that
groups no more than it has to.

## Main definitions

- `Expr.levels` — the levels that no text of a tree can do without
- `Expr.groupedChars`, `Expr.groupedText` — the text with the groups that are needed

## Main statements

- `Derives.levels_le` — every text of a tree takes these levels
- `Expr.derives_groupedChars` — the grouped text takes no more
- `Expr.exists_parse_iff` — the trees that are read
-/

namespace TrigPainting

namespace Expr

/-- The number of groups that are open at once in every text of a tree: each wave is one, and
so is a product that is the right operand of a product. -/
def levels : Expr → Nat
  | coord _ => 0
  | pi => 0
  | wave _ arg => arg.levels + 1
  | piWave _ arg => arg.levels + 1
  | times lhs rhs => max lhs.levels (if rhs.isProduct then rhs.levels + 1 else rhs.levels)

/-- The text in which a product is put in parentheses where it is the right operand of a
product, and nothing else is. -/
def groupedChars : Expr → List Char
  | coord a => [a.letter]
  | pi => ['p', 'i']
  | wave w arg => w.letters ++ '(' :: arg.groupedChars ++ [')']
  | piWave w arg => w.letters ++ '(' :: 'p' :: 'i' :: '*' :: arg.groupedChars ++ [')']
  | times lhs rhs =>
    lhs.groupedChars ++ '*' ::
      if rhs.isProduct then '(' :: rhs.groupedChars ++ [')'] else rhs.groupedChars

/-- The grouped text as a string. -/
def groupedText (e : Expr) : String :=
  String.ofList e.groupedChars

/-- The levels of a tree that has to be a single factor. -/
def factorLevels (e : Expr) : Nat :=
  if e.isProduct then e.levels + 1 else e.levels

/-- The grouped text of a tree as a single factor. -/
def factorChars (e : Expr) : List Char :=
  if e.isProduct then '(' :: e.groupedChars ++ [')'] else e.groupedChars

theorem levels_times (lhs rhs : Expr) :
    (times lhs rhs).levels = max lhs.levels rhs.factorLevels := rfl

theorem groupedChars_times (lhs rhs : Expr) :
    (times lhs rhs).groupedChars = lhs.groupedChars ++ '*' :: rhs.factorChars := rfl

theorem levels_le_factorLevels (e : Expr) : e.levels ≤ e.factorLevels := by
  rw [factorLevels]
  split
  · exact Nat.le_succ _
  · exact Nat.le_refl _

theorem factorLevels_le (e : Expr) : e.factorLevels ≤ e.levels + 1 := by
  rw [factorLevels]
  split
  · exact Nat.le_refl _
  · exact Nat.le_succ _

/-- Every wave takes a level. -/
theorem nesting_le_levels (e : Expr) : e.nesting ≤ e.levels := by
  induction e with
  | coord _ => exact Nat.le_refl 0
  | pi => exact Nat.le_refl 0
  | wave _ _ ih => exact Nat.succ_le_succ ih
  | piWave _ _ ih => exact Nat.succ_le_succ ih
  | times lhs rhs ihl ihr =>
    have hr := rhs.levels_le_factorLevels
    rw [nesting, levels_times]
    omega

end Expr

/-- The levels of a tree as a text of the given symbol. -/
def Symbol.levels : Symbol → Expr → Nat
  | product, e => e.levels
  | factor, e => e.factorLevels

-- ════════════════════════════════════════════════════════════════════════
-- From texts to trees
-- ════════════════════════════════════════════════════════════════════════

/-- No text gives a wave of pi times an argument: it is read as a wave of a product. -/
theorem Derives.isPlain {symbol : Symbol} {k : Nat} {s : List Char} {e : Expr}
    (h : Derives symbol k s e) : e.IsPlain := by
  induction h with
  | coord k a => trivial
  | pi k => trivial
  | call w _ ih => exact ih
  | group _ ih => exact ih
  | single _ ih => exact ih
  | times _ _ ihothers ihlast => exact ⟨ihothers, ihlast⟩

/-- **Lower bound**: a text of a tree has the levels that the tree needs. A group gives the
level that its contents need to be a factor. -/
theorem Derives.levels_le {symbol : Symbol} {k : Nat} {s : List Char} {e : Expr}
    (h : Derives symbol k s e) : symbol.levels e ≤ k := by
  induction h with
  | coord k a => exact Nat.zero_le k
  | pi k => exact Nat.zero_le k
  | call w _ ih => exact Nat.succ_le_succ ih
  | @group k s e _ ih => exact Nat.le_trans e.factorLevels_le (Nat.succ_le_succ ih)
  | @single k s e _ ih => exact Nat.le_trans e.levels_le_factorLevels ih
  | times _ _ ihothers ihlast => exact Nat.max_le.mpr ⟨ihothers, ihlast⟩

-- ════════════════════════════════════════════════════════════════════════
-- From trees to texts
-- ════════════════════════════════════════════════════════════════════════

/-- A tree that is no product is derived as a factor. -/
theorem Derives.factor {k : Nat} {s : List Char} {e : Expr} (h : Derives .product k s e)
    (hp : e.isProduct = false) : Derives .factor k s e := by
  cases h with
  | single only => exact only
  | times _ _ => cases hp

namespace Expr

theorem derives_factorChars {k : Nat} {e : Expr}
    (h : ∀ k, e.levels ≤ k → Derives .product k e.groupedChars e) (hk : e.factorLevels ≤ k) :
    Derives .factor k e.factorChars e := by
  cases hp : e.isProduct with
  | true =>
    simp only [factorLevels, hp, if_true] at hk
    obtain ⟨k, rfl⟩ : ∃ j, k = j + 1 := ⟨k - 1, by omega⟩
    simp only [factorChars, hp, if_true]
    exact .group (h k (Nat.le_of_succ_le_succ hk))
  | false =>
    simp only [factorLevels, hp] at hk
    simp only [factorChars, hp]
    exact (h k hk).factor hp

/-- **The bound is met**: the grouped text of a tree is derived with the levels that the tree
needs. -/
theorem derives_groupedChars {k : Nat} {e : Expr} (he : e.IsPlain) (hk : e.levels ≤ k) :
    Derives .product k e.groupedChars e := by
  induction e generalizing k with
  | coord a => exact .single (.coord k a)
  | pi => exact .single (.pi k)
  | wave w arg ih =>
    rw [levels] at hk
    obtain ⟨k, rfl⟩ : ∃ j, k = j + 1 := ⟨k - 1, by omega⟩
    exact .single (.call w (ih he (Nat.le_of_succ_le_succ hk)))
  | piWave _ _ _ => exact he.elim
  | times lhs rhs ihl ihr =>
    obtain ⟨hl, hr⟩ := Nat.max_le.mp (levels_times lhs rhs ▸ hk)
    rw [groupedChars_times]
    exact (ihl he.1 hl).times (derives_factorChars (fun _ => ihr he.2) hr)

theorem isPlain_and_levels_le_of_parse {text : String} {e : Expr} (h : parse text = .ok e) :
    e.IsPlain ∧ e.levels ≤ maxNesting :=
  ⟨(derives_of_parse h).isPlain, (derives_of_parse h).levels_le⟩

theorem parse_groupedText {e : Expr} (he : e.IsPlain) (hk : e.levels ≤ maxNesting) :
    parse e.groupedText = .ok e :=
  parse_ofList_of_derives (derives_groupedChars he hk)

/-- **The trees that are read** from some text are those without pi waves that need no more
than 256 levels. Each is read from its grouped text. -/
theorem exists_parse_iff (e : Expr) :
    ((∃ text, parse text = .ok e) ↔ e.IsPlain ∧ e.levels ≤ 256) ∧
      ((∃ text, parse text = .ok e) ↔ parse e.groupedText = .ok e) := by
  have hneeds : (∃ text, parse text = .ok e) → e.IsPlain ∧ e.levels ≤ 256 := by
    rintro ⟨text, h⟩
    exact isPlain_and_levels_le_of_parse h
  refine ⟨⟨hneeds, fun ⟨he, hk⟩ => ⟨e.groupedText, parse_groupedText he hk⟩⟩, ?_⟩
  refine ⟨fun h => ?_, fun h => ⟨e.groupedText, h⟩⟩
  obtain ⟨he, hk⟩ := hneeds h
  exact parse_groupedText he hk

-- Products that lean to the right stand in each other's groups.
example : (times (coord .x) (times (coord .y) (times pi (coord .x)))).levels = 2 ∧
    (times (coord .x) (times (coord .y) (times pi (coord .x)))).groupedText = "x*(y*(pi*x))" := by
  decide

end Expr

end TrigPainting
