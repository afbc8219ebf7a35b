import TrigPainting.Proofs.Expr.Reading

/-!
# The grammar of expression text

The texts of expressions are given by a grammar of two symbols, products and
factors, in which every group takes away one of the levels that are left for its
contents. Reading a text and deriving it are the same thing: a derivation is
replayed by the reader in front of any open groups, and what the reader has read at
any moment is a row of unfinished derivations, one for each open group.

## Main definitions

- `Derives` — the grammar, with the tree of each text
- `Reader.Consumed` — the texts that lead the reader to a given state

## Main statements

- `Reader.derives_iff_reads` — deriving is reading, for any number of levels
- `Expr.parse_eq_ok_iff_derives` — the texts that have an expression
-/

namespace TrigPainting

/-- The symbols of the grammar. -/
inductive Symbol where
  /-- One factor or several, joined by `*`. -/
  | product
  | factor
deriving DecidableEq

/-- **The grammar**: `Derives symbol k s e` says that `s` is a text of `symbol` with
the tree `e` in which at most `k` groups are open at once. A product leans to the
left: its last factor is multiplied onto the product of the others. -/
inductive Derives : Symbol → Nat → List Char → Expr → Prop
  | coord (k : Nat) (a : Axis) : Derives .factor k [a.letter] (.coord a)
  | pi (k : Nat) : Derives .factor k ['p', 'i'] .pi
  | call {k : Nat} {s : List Char} {e : Expr} (w : Wave) (contents : Derives .product k s e) :
      Derives .factor (k + 1) (w.letters ++ '(' :: s ++ [')']) (.wave w e)
  | group {k : Nat} {s : List Char} {e : Expr} (contents : Derives .product k s e) :
      Derives .factor (k + 1) ('(' :: s ++ [')']) e
  | single {k : Nat} {s : List Char} {e : Expr} (only : Derives .factor k s e) :
      Derives .product k s e
  | times {k : Nat} {s t : List Char} {lhs rhs : Expr} (others : Derives .product k s lhs)
      (last : Derives .factor k t rhs) : Derives .product k (s ++ '*' :: t) (.times lhs rhs)

/-- The spelling of an opening. -/
def Opening.letters : Opening → List Char
  | call w => w.letters ++ ['(']
  | bare => ['(']

@[simp]
theorem Opening.letters_call (w : Wave) : (call w).letters = w.letters ++ ['('] := rfl

@[simp]
theorem Opening.letters_bare : bare.letters = ['('] := rfl

namespace Reader

-- ════════════════════════════════════════════════════════════════════════
-- From derivations to runs
-- ════════════════════════════════════════════════════════════════════════

/-- A derived text is read in front of any open groups that leave enough levels. The
product to its left is extended if it is a factor, and has to be absent otherwise. -/
theorem reads_of_derives {limit k : Nat} {symbol : Symbol} {s : List Char} {e : Expr}
    (h : Derives symbol k s e) (groups : List Group) (before : Option Expr)
    (hsymbol : symbol = .factor ∨ before = none) (hk : groups.length + k ≤ limit) :
    Reads limit ⟨groups, .factor before⟩ s ⟨groups, .product (Expr.extend before e)⟩ := by
  have hgroups : groups.length ≤ limit := Nat.le_of_add_right_le hk
  induction h generalizing groups before with
  | coord k a => exact .single (.coord groups before a) hgroups
  | pi k => exact reads_constant hgroups before
  | @call k s e w _ ih =>
    have inner := ih (⟨.call w, before⟩ :: groups) none (.inr rfl)
      (by rw [List.length_cons]; omega) (by rw [List.length_cons]; omega)
    have run := ((reads_call (by omega) w before).append inner).append
      (reads_close hgroups ⟨.call w, before⟩ e)
    simpa [Group.close] using run
  | @group k s e _ ih =>
    have opened : Reads limit ⟨groups, .factor before⟩ ['(']
        ⟨⟨.bare, before⟩ :: groups, .factor none⟩ :=
      .single (.bare groups before) (by rw [nesting_factor, List.length_cons]; omega)
    have inner := ih (⟨.bare, before⟩ :: groups) none (.inr rfl)
      (by rw [List.length_cons]; omega) (by rw [List.length_cons]; omega)
    exact (opened.append inner).append (reads_close hgroups ⟨.bare, before⟩ e)
  | single _ ih => exact ih groups before (.inl rfl) hk hgroups
  | @times k s t lhs rhs _ _ ihothers ihlast =>
    obtain rfl : before = none := hsymbol.resolve_left nofun
    have others := ihothers groups none (.inr rfl) hk hgroups
    have last := ihlast groups (some lhs) (.inl rfl) hk hgroups
    have run := (others.append (reads_times hgroups lhs)).append last
    simpa using run

-- ════════════════════════════════════════════════════════════════════════
-- From runs to derivations
-- ════════════════════════════════════════════════════════════════════════

/-- The text of the product to the left of a factor, with `k` levels left. -/
inductive Preceded (k : Nat) : Option Expr → List Char → Prop
  | none : Preceded k none []
  | some {s : List Char} {e : Expr} (product : Derives .product k s e) :
      Preceded k (some e) (s ++ ['*'])

/-- The text up to the inside of the innermost open group, where `k` of the `limit`
levels are left. -/
inductive Opened (limit : Nat) : Nat → List Group → List Char → Prop
  | nil : Opened limit limit [] []
  | cons {k : Nat} {groups : List Group} {before : Option Expr} {s t : List Char}
      (opening : Opening) (outer : Opened limit (k + 1) groups s)
      (preceded : Preceded (k + 1) before t) :
      Opened limit k (⟨opening, before⟩ :: groups) (s ++ t ++ opening.letters)

/-- **What has been read**: the texts that lead from the start to a state. -/
inductive Consumed (limit : Nat) : State → List Char → Prop
  | factor {k : Nat} {groups : List Group} {before : Option Expr} {s t : List Char}
      (outer : Opened limit k groups s) (preceded : Preceded k before t) :
      Consumed limit ⟨groups, .factor before⟩ (s ++ t)
  | call {k : Nat} {groups : List Group} {before : Option Expr} {s t read later : List Char}
      {next : Char} {w : Wave} (outer : Opened limit (k + 1) groups s)
      (preceded : Preceded (k + 1) before t)
      (spelled : read ++ next :: later = w.letters ++ ['(']) :
      Consumed limit ⟨groups, .spelling (.call w) next later before⟩ (s ++ t ++ read)
  | constant {k : Nat} {groups : List Group} {before : Option Expr} {s t : List Char}
      (outer : Opened limit k groups s) (preceded : Preceded k before t) :
      Consumed limit ⟨groups, .spelling .pi 'i' [] before⟩ (s ++ t ++ ['p'])
  | product {k : Nat} {groups : List Group} {s t : List Char} {e : Expr}
      (outer : Opened limit k groups s) (product : Derives .product k t e) :
      Consumed limit ⟨groups, .product e⟩ (s ++ t)

theorem Opened.length_add {limit k : Nat} {groups : List Group} {s : List Char}
    (h : Opened limit k groups s) : groups.length + k = limit := by
  induction h with
  | nil => exact Nat.zero_add limit
  | cons _ _ _ ih => rw [List.length_cons]; omega

/-- One more factor completes what stands to its left to a product. -/
theorem Preceded.extend {k : Nat} {before : Option Expr} {s t : List Char} {e : Expr}
    (h : Preceded k before s) (factor : Derives .factor k t e) :
    Derives .product k (s ++ t) (Expr.extend before e) := by
  cases h with
  | none => exact .single factor
  | some product => simpa using product.times factor

theorem derives_enclose {k : Nat} {s : List Char} {e : Expr} (contents : Derives .product k s e)
    (opening : Opening) :
    Derives .factor (k + 1) (opening.letters ++ s ++ [')']) (opening.enclose e) := by
  cases opening with
  | call w => simpa using Derives.call w contents
  | bare => exact .group contents

/-- **Step lemma**: a move adds its character to what has been read. -/
theorem Consumed.move {limit : Nat} {s t : State} {text : List Char} {c : Char}
    (h : Consumed limit s text) (move : Move s c t) (below : t.nesting ≤ limit) :
    Consumed limit t (text ++ [c]) := by
  cases move with
  | coord groups before a =>
    cases h with
    | factor outer preceded =>
      rw [List.append_assoc]
      exact .product outer (preceded.extend (.coord _ a))
  | initial groups before word =>
    cases h with
    | @factor k _ _ _ _ outer preceded =>
      cases word with
      | call w =>
        have hlength := outer.length_add
        rw [nesting_call] at below
        obtain ⟨k, rfl⟩ : ∃ j, k = j + 1 := ⟨k - 1, by omega⟩
        exact .call outer preceded (by cases w <;> rfl)
      | pi => exact .constant outer preceded
  | bare groups before =>
    cases h with
    | @factor k _ _ _ _ outer preceded =>
      have hlength := outer.length_add
      rw [nesting_factor, List.length_cons] at below
      obtain ⟨k, rfl⟩ : ∃ j, k = j + 1 := ⟨k - 1, by omega⟩
      simpa using Consumed.factor (.cons .bare outer preceded) .none
  | letter groups word c next later before =>
    cases h with
    | call outer preceded spelled =>
      rw [List.append_assoc]
      exact .call outer preceded (by simpa using spelled)
  | call groups w c before =>
    cases h with
    | call outer preceded spelled =>
      rw [List.append_assoc, spelled]
      simpa using Consumed.factor (.cons (.call w) outer preceded) .none
  | constant groups c before =>
    cases h with
    | constant outer preceded =>
      rw [List.append_assoc, List.append_assoc]
      exact .product outer (preceded.extend (.pi _))
  | times groups value =>
    cases h with
    | product outer product =>
      rw [List.append_assoc]
      exact .factor outer (.some product)
  | close g groups value =>
    cases h with
    | product outer product =>
      cases outer with
      | cons opening outer preceded =>
        have whole := preceded.extend (derives_enclose product opening)
        simpa [Group.close] using Consumed.product outer whole

/-- **Run lemma**: a run adds its text to what has been read. -/
theorem Consumed.reads {limit : Nat} {s t : State} {head text : List Char}
    (h : Consumed limit s head) (run : Reads limit s text t) : Consumed limit t (head ++ text) := by
  induction run generalizing head with
  | nil => rwa [List.append_nil]
  | cons move below _ ih => simpa using ih (h.move move below)

theorem consumed_of_reads {limit : Nat} {t : State} {text : List Char}
    (run : Reads limit .start text t) : Consumed limit t text :=
  Consumed.reads (.factor .nil .none) run

/-- With any number of levels, the texts that have a derivation are those that the
reader accepts. -/
theorem derives_iff_reads (k : Nat) (s : List Char) (e : Expr) :
    Derives .product k s e ↔ Reads k .start s ⟨[], .product e⟩ := by
  constructor
  · intro h
    exact reads_of_derives h [] none (.inr rfl) (by simp)
  · intro run
    cases consumed_of_reads run with
    | product outer product =>
      cases outer
      exact product

/-- The grammar is unambiguous, also across different numbers of levels. -/
theorem derives_unique {k k' : Nat} {s : List Char} {e e' : Expr}
    (h : Derives .product k s e) (h' : Derives .product k' s e') : e = e' := by
  have run := (derives_iff_reads k s e).mp h
  have run' := (derives_iff_reads k' s e').mp h'
  cases run.unique run'
  rfl

end Reader

namespace Expr

open Reader

theorem derives_of_parse {text : String} {e : Expr} (h : parse text = .ok e) :
    Derives .product maxNesting (Text.visible text.toList) e :=
  (derives_iff_reads _ _ _).mpr ((parse_eq_ok_iff _ _).mp h)

/-- **Reading is deriving**: a text has an expression if and only if its visible characters
derive that expression with 256 levels, and no text derives two expressions. -/
theorem parse_eq_ok_iff_derives :
    (∀ (text : String) (e : Expr),
      parse text = .ok e ↔ Derives .product 256 (Text.visible text.toList) e) ∧
    ∀ (k : Nat) (s : List Char) (e e' : Expr),
      Derives .product k s e → Derives .product k s e' → e = e' := by
  refine ⟨fun text e => ?_, fun k s e e' => derives_unique⟩
  rw [parse_eq_ok_iff]
  exact (derives_iff_reads maxNesting _ e).symm

theorem derives_nested_product_only :
    Derives .product 256 (Text.visible " x*( y *p i)".toList)
        (times (coord .x) (times (coord .y) pi)) ∧
      ∀ e, Derives .product 256 (Text.visible " x*( y *p i)".toList) e →
        times (coord .x) (times (coord .y) pi) = e := by
  obtain ⟨reading, unique⟩ := parse_eq_ok_iff_derives
  have derived := (reading " x*( y *p i)" (times (coord .x) (times (coord .y) pi))).mp rfl
  exact ⟨derived, fun e => unique 256 _ _ e derived⟩

end Expr

end TrigPainting
