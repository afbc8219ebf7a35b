import TrigPainting.Proofs.Expr.RoundTrip

/-!
# How deep expressions are

A tree is deeper than it nests. So the limit on open groups does not keep back any tree
that is no deeper than 257, and such a tree is read back from its text.

The limit on open groups is no limit on the depth of what is read. Every wave takes one of
the 256 levels, but a product leans to the left and grows by one level with every factor,
and that takes no level away. What bounds the depth is the number of multiplication signs.

## Main definitions

- `Expr.ReadsBack` — the text of a tree is read, to a tree with the same text
- `manyFactors` — a long product without groups

## Main statements

- `Expr.readsBack_of_depth_le` — trees that are not too deep are read back
- `Derives.depth_le`, `exists_derives_of_depth` — the depth that a derivation leads to
- `Expr.forall_depth_le_iff` — the bounds on the depth of what is read
- `Expr.not_exists_depth_bound` — there is none for all texts
-/

namespace TrigPainting

-- ════════════════════════════════════════════════════════════════════════
-- Depth and nesting
-- ════════════════════════════════════════════════════════════════════════

namespace Expr

/-- The text of a tree is read, and what is read has the same text. -/
def ReadsBack (e : Expr) : Prop :=
  ∃ back, parse e.text = .ok back ∧ back.text = e.text

theorem nesting_lt_depth (e : Expr) : e.nesting < e.depth := by
  induction e with
  | coord _ => simp [nesting, depth]
  | pi => simp [nesting, depth]
  | wave _ _ ih => simp only [nesting, depth]; omega
  | piWave _ _ ih => simp only [nesting, depth]; omega
  | times _ _ ihl ihr => simp only [nesting, depth]; omega

theorem nesting_le_of_depth_le {e : Expr} (h : e.depth ≤ 257) : e.nesting ≤ 256 := by
  have hlt := e.nesting_lt_depth
  omega

theorem readsBack_of_nesting_le {e : Expr} (h : e.nesting ≤ maxNesting) : e.ReadsBack :=
  ⟨e.normalForm, parse_text_of_nesting_le h, e.text_normalForm⟩

theorem readsBack_of_depth_le {e : Expr} (h : e.depth ≤ 257) : e.ReadsBack :=
  readsBack_of_nesting_le (nesting_le_of_depth_le h)

end Expr

-- ════════════════════════════════════════════════════════════════════════
-- Depth and multiplication signs
-- ════════════════════════════════════════════════════════════════════════

theorem Wave.count_times_letters (w : Wave) : w.letters.count '*' = 0 := by
  cases w <;> decide

/-- On a path to a leaf, every product stands for a multiplication sign of the text and
every wave for a level. -/
theorem Derives.depth_le {symbol : Symbol} {k : Nat} {s : List Char} {e : Expr}
    (h : Derives symbol k s e) : e.depth ≤ s.count '*' + k + 1 := by
  induction h with
  | coord k a => simp [Expr.depth]
  | pi k => simp [Expr.depth]
  | @call k s e w _ ih =>
    have hsigns : (w.letters ++ '(' :: s ++ [')']).count '*' = s.count '*' := by
      simp [Wave.count_times_letters]
    rw [Expr.depth, hsigns]
    omega
  | @group k s e _ ih =>
    have hsigns : ('(' :: s ++ [')']).count '*' = s.count '*' := by simp
    rw [hsigns]
    omega
  | single _ ih => exact ih
  | @times k s t lhs rhs _ _ ihothers ihlast =>
    have hsigns : (s ++ '*' :: t).count '*' = s.count '*' + t.count '*' + 1 := by
      simp [Nat.add_assoc]
    rw [Expr.depth, hsigns]
    omega

/-- A product of `n + 1` coordinates, which opens no group. -/
def manyFactors : Nat → List Char
  | 0 => ['x']
  | n + 1 => manyFactors n ++ '*' :: ['x']

theorem count_times_manyFactors (n : Nat) : (manyFactors n).count '*' = n := by
  induction n with
  | zero => decide
  | succ n ih => simp [manyFactors, ih]

/-- Every factor makes the tree one level deeper. -/
theorem exists_derives_manyFactors (k n : Nat) :
    ∃ e, Derives .product k (manyFactors n) e ∧ e.depth = n + 1 := by
  induction n with
  | zero => exact ⟨.coord .x, .single (.coord k .x), rfl⟩
  | succ n ih =>
    obtain ⟨e, others, hdepth⟩ := ih
    refine ⟨.times e (.coord .x), others.times (.coord k .x), ?_⟩
    simp only [Expr.depth, hdepth]
    omega

/-- The depth is reached: by a product of coordinates under as many waves as there are
levels. -/
theorem exists_derives_of_depth (k n : Nat) :
    ∃ s e, Derives .product k s e ∧ s.count '*' = n ∧ e.depth = n + k + 1 := by
  induction k with
  | zero =>
    obtain ⟨e, hderives, hdepth⟩ := exists_derives_manyFactors 0 n
    exact ⟨manyFactors n, e, hderives, count_times_manyFactors n, hdepth⟩
  | succ k ih =>
    obtain ⟨s, e, contents, hsigns, hdepth⟩ := ih
    refine ⟨_, .wave .sine e, .single (.call .sine contents), ?_, ?_⟩
    · simp [Wave.count_times_letters, hsigns]
    · simp only [Expr.depth, hdepth]
      omega

namespace Expr

open Reader

theorem count_visible {c : Char} (h : Text.isBlank c = false) (text : List Char) :
    (Text.visible text).count c = text.count c := by
  rw [Text.visible, List.count_filter (by rw [h]; rfl)]

theorem depth_le_of_parse {text : String} {e : Expr} (h : parse text = .ok e) :
    e.depth ≤ text.toList.count '*' + 257 := by
  have hdepth := (derives_of_parse h).depth_le
  rw [count_visible (by decide), maxNesting] at hdepth
  exact hdepth

theorem exists_parse_of_depth (n : Nat) :
    ∃ text e, parse text = .ok e ∧ text.toList.count '*' = n ∧ e.depth = n + 257 := by
  obtain ⟨s, e, hderives, hsigns, hdepth⟩ := exists_derives_of_depth maxNesting n
  refine ⟨String.ofList s, e, parse_ofList_of_derives hderives, ?_, hdepth⟩
  rw [String.toList_ofList, hsigns]

/-- **Depth of what is read**: a number bounds the depth of all trees that are read from
texts with at most `n` multiplication signs if and only if it is at least `n + 257`. -/
theorem forall_depth_le_iff (n bound : Nat) :
    (∀ (text : String) (e : Expr),
      parse text = .ok e → text.toList.count '*' ≤ n → e.depth ≤ bound) ↔ n + 257 ≤ bound := by
  constructor
  · intro hbound
    obtain ⟨text, e, hparse, hsigns, hdepth⟩ := exists_parse_of_depth n
    have hle := hbound text e hparse (Nat.le_of_eq hsigns)
    rwa [hdepth] at hle
  · intro hle text e hparse hsigns
    have hdepth := depth_le_of_parse hparse
    omega

/-- No number bounds the depth of all that is read. Factors that open no group make a tree
as deep as they are many: a million of them one of depth 1000000. -/
theorem not_exists_depth_bound :
    (¬ ∃ bound, ∀ (text : String) (e : Expr), parse text = .ok e → e.depth ≤ bound) ∧
      (∀ n, (parse (String.ofList (manyFactors n))).toOption.map depth = some (n + 1)) := by
  constructor
  · rintro ⟨bound, hbound⟩
    obtain ⟨text, e, hparse, -, hdepth⟩ := exists_parse_of_depth bound
    have hle := hbound text e hparse
    omega
  · intro n
    obtain ⟨e, hderives, hdepth⟩ := exists_derives_manyFactors maxNesting n
    rw [parse_ofList_of_derives hderives, Except.toOption, Option.map_some, hdepth]

end Expr

end TrigPainting
