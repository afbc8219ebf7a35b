import TrigPainting.Proofs.Expr.Spacing

/-!
# Reading expressions by recursive descent

The grammar has two symbols, and a text can also be read by two functions that call each other,
one for each symbol. They need no stack of open groups of their own, since that is the stack of
their calls. What they share is a cursor: a position in the visible characters, and the number of
groups that are open.

Nothing in the functions says that they come to an end. They are given fuel, which bounds the
calls that may stand inside each other, and are left unfinished where it runs out. A call comes to
an end if its outcome is the same from some fuel on. Nor does anything but the limit on open groups
keep the calls of `expr` from piling up. So the calls that are active at once are counted.

## Main definitions

- `Descent.Input`, `Descent.Cursor` — the visible characters, and a place among them
- `Descent.State` — the cursor, all places where it was, and the greatest number of active calls
- `Descent.expr`, `Descent.term`, `Descent.parse` — the functions that follow the grammar
- `Descent.Returns`, `Descent.Ends` — the outcome for given fuel, and for all that is enough

## Main statements

- `Descent.Returns.bind_cases` — inversion of two actions in a row
- `Descent.extends_succ` — more fuel, same outcome
- `Descent.Ends.unique` — a call has at most one outcome

## Design notes

An action keeps its state when it fails. So the groups that are still open behind an error are
among the places of the cursor, too.
-/

namespace TrigPainting

namespace Descent

/-- What is read: visible characters with their indices in the text, and its length. -/
structure Input where
  chars : List (Char × Nat)
  length : Nat

/-- The visible characters of a text. -/
def Input.ofText (text : String) : Input :=
  ⟨Text.numbered text.toList, text.length⟩

/-- How far the input has been read, and the number of groups that are open. -/
structure Cursor where
  pos : Nat
  depth : Nat
deriving DecidableEq, Repr

/-- The next visible character. -/
def Input.next? (input : Input) (c : Cursor) : Option Char :=
  input.chars[c.pos]?.map Prod.fst

/-- The error at a place of the input. -/
def Input.errorAt (input : Input) (c : Cursor) (expected : Expected) : SyntaxError :=
  match input.chars[c.pos]? with
  | some (found, index) => ⟨index, some found, expected⟩
  | none => ⟨input.length, none, expected⟩

/-- An input, and a number of active calls of `expr` beyond which reading is cut short. -/
structure Setting extends Input where
  cutoff : Option Nat

/-- The state that the functions share. -/
structure State where
  cursor : Cursor
  /-- The earlier places of the cursor, the last one first. -/
  earlier : List Cursor
  /-- The greatest number of calls of `expr` that were active at once. -/
  peak : Nat

namespace State

/-- A state in which nothing has been called. -/
def fresh (c : Cursor) : State := ⟨c, [], 0⟩

/-- Nothing has been read. -/
def start : State := fresh ⟨0, 0⟩

/-- All places of the cursor so far. -/
def visited (s : State) : List Cursor :=
  s.cursor :: s.earlier

end State

/-- Why an action fails. -/
inductive Halt where
  /-- The input is no expression. -/
  | refused (err : SyntaxError)
  /-- A group is closed and none is open. -/
  | underflow
  /-- More calls would be active than the cutoff allows. -/
  | cut

/-- An action on the state, that may fail and may be left unfinished. -/
abbrev Action (α : Type) : Type :=
  ExceptT Halt (StateT State Option) α

-- ════════════════════════════════════════════════════════════════════════
-- The functions
-- ════════════════════════════════════════════════════════════════════════

/-- No outcome at all. -/
def unfinished {α : Type} : Action α :=
  ExceptT.mk fun _ => none

/-- Puts the cursor at a place. -/
def moveTo (c : Cursor) : Action Unit :=
  modify fun s => { s with cursor := c, earlier := s.visited }

/-- Passes over one character. -/
def advance : Action Unit := do
  let s ← get
  moveTo ⟨s.cursor.pos + 1, s.cursor.depth⟩

variable (σ : Setting)

/-- Fails at the next character. -/
def refuse {α : Type} (expected : Expected) : Action α := do
  let s ← get
  throw (.refused (σ.errorAt s.cursor expected))

/-- Passes over a spelling, letter by letter. -/
def expect (expected : Expected) : List Char → Action Unit
  | [] => return
  | want :: later => do
    let s ← get
    if σ.next? s.cursor = some want then
      advance
      expect expected later
    else refuse σ expected

/-- Opens a group, if one more is allowed. -/
def openGroup : Action Unit := do
  let s ← get
  if maxNesting ≤ s.cursor.depth then refuse σ .shallower
  else moveTo ⟨s.cursor.pos, s.cursor.depth + 1⟩

/-- Passes over the parenthesis that closes a group. -/
def closeGroup : Action Unit := do
  expect σ .closing [')']
  let s ← get
  if s.cursor.depth = 0 then throw .underflow
  else moveTo ⟨s.cursor.pos, s.cursor.depth - 1⟩

/-- Counts a call of `expr` while `active` others are active. -/
def enter (active : Nat) : Action Unit := do
  if σ.cutoff.any (· ≤ active) then throw .cut
  else modify fun s => { s with peak := max s.peak (active + 1) }

/-- The kinds of factors. -/
inductive Lead where
  | coord (a : Axis)
  | constant
  | group (opening : Opening)

/-- The character that a factor of each kind starts with. -/
def Lead.initial : Lead → Char
  | coord a => a.letter
  | constant => Word.pi.initial
  | group (.call w) => (Word.call w).initial
  | group .bare => '('

/-- The kind of the factor that starts with a character. -/
def lead? (c : Char) : Option Lead :=
  if c = 'x' then some (.coord .x)
  else if c = 'y' then some (.coord .y)
  else if c = 'p' then some .constant
  else if c = 's' then some (.group (.call .sine))
  else if c = 'c' then some (.group (.call .cosine))
  else if c = '(' then some (.group .bare)
  else none

/-- Passes over the characters in front of the contents of a group. -/
def openingChars : Opening → Action Unit
  | .call w => expect σ (.word (.call w)) (Word.call w).letters
  | .bare => advance

mutual

/-- Reads a product, with some fuel and while `active` calls of `expr` are active. -/
def expr : Nat → Nat → Action Expr
  | 0, _ => unfinished
  | fuel + 1, active => do
    enter σ active
    let first ← term fuel (active + 1)
    factors fuel (active + 1) first

/-- Reads the factors that follow a product. -/
def factors : Nat → Nat → Expr → Action Expr
  | 0, _, _ => unfinished
  | fuel + 1, active, lhs => do
    let s ← get
    if σ.next? s.cursor = some '*' then
      advance
      let rhs ← term fuel active
      factors fuel active (.times lhs rhs)
    else return lhs

/-- Reads a factor. -/
def term : Nat → Nat → Action Expr
  | 0, _ => unfinished
  | fuel + 1, active => do
    let s ← get
    match (σ.next? s.cursor).bind lead? with
    | some (.coord a) =>
      advance
      return .coord a
    | some .constant =>
      expect σ (.word .pi) Word.pi.letters
      return .pi
    | some (.group opening) =>
      openGroup σ
      openingChars σ opening
      let contents ← expr fuel active
      closeGroup σ
      return opening.enclose contents
    | none => refuse σ .term

end

/-- Reads the whole input. -/
def parse (fuel : Nat) : Action Expr := do
  let e ← expr σ fuel 0
  let s ← get
  if (σ.next? s.cursor).isSome then refuse σ .endOfInput
  else return e

-- ════════════════════════════════════════════════════════════════════════
-- Outcomes
-- ════════════════════════════════════════════════════════════════════════

/-- Started in `s`, the action comes to an end in `t`, with a value or a failure. -/
def Returns {α : Type} (p : Action α) (s : State) (r : Except Halt α) (t : State) : Prop :=
  p.run.run s = some (r, t)

namespace Returns

variable {α β : Type} {s t u : State} {p : Action α} {f : α → Action β}

theorem unique {r r' : Except Halt α} {t' : State} (h : Returns p s r t)
    (h' : Returns p s r' t') : r = r' ∧ t = t' := by
  have hsome : some (r, t) = some (r', t') := h.symm.trans h'
  cases hsome
  exact ⟨rfl, rfl⟩

theorem bind {a : α} {r : Except Halt β} (first : Returns p s (.ok a) t)
    (second : Returns (f a) t r u) : Returns (p >>= f) s r u := by
  have hfirst : p s = some (.ok a, t) := first
  show (p >>= f) s = some (r, u)
  simp only [Bind.bind, ExceptT.bind, ExceptT.mk, StateT.bind, hfirst, Option.bind]
  exact second

theorem bind_error {halt : Halt} (first : Returns p s (.error halt) t) :
    Returns (p >>= f) s (.error halt) t := by
  have hfirst : p s = some (.error halt, t) := first
  show (p >>= f) s = some (.error halt, t)
  simp only [Bind.bind, ExceptT.bind, ExceptT.mk, StateT.bind, hfirst, Option.bind]
  rfl

/-- **Inversion**: the first action ends, and the second one unless the first fails. -/
theorem bind_cases {r : Except Halt β} (h : Returns (p >>= f) s r u) :
    (∃ a t, Returns p s (.ok a) t ∧ Returns (f a) t r u) ∨
      ∃ halt, r = .error halt ∧ Returns p s (.error halt) u := by
  cases hfirst : p s with
  | none =>
    have hnone : (p >>= f) s = none := by
      simp only [Bind.bind, ExceptT.bind, ExceptT.mk, StateT.bind, hfirst, Option.bind]
    have hsome : some (r, u) = none := h.symm.trans hnone
    cases hsome
  | some outcome =>
    obtain ⟨_ | a, t⟩ := outcome
    · obtain ⟨rfl, rfl⟩ := h.unique (bind_error hfirst)
      exact .inr ⟨_, rfl, hfirst⟩
    · refine .inl ⟨a, t, hfirst, ?_⟩
      have hbind : (p >>= f) s = (f a) t := by
        simp only [Bind.bind, ExceptT.bind, ExceptT.mk, StateT.bind, hfirst, Option.bind]
        rfl
      exact hbind.symm.trans h

end Returns

/-- The action has the outcome `r` in `t` for every fuel from some number on. -/
def Ends {α : Type} (p : Nat → Action α) (s : State) (r : Except Halt α) (t : State) : Prop :=
  ∃ enough, ∀ fuel, enough ≤ fuel → Returns (p fuel) s r t

theorem Ends.unique {α : Type} {p : Nat → Action α} {s t t' : State} {r r' : Except Halt α}
    (h : Ends p s r t) (h' : Ends p s r' t') : r = r' ∧ t = t' := by
  obtain ⟨enough, hreturns⟩ := h
  obtain ⟨enough', hreturns'⟩ := h'
  exact (hreturns _ (Nat.le_max_left enough enough')).unique
    (hreturns' _ (Nat.le_max_right enough enough'))

-- ════════════════════════════════════════════════════════════════════════
-- More fuel
-- ════════════════════════════════════════════════════════════════════════

/-- Each outcome of `p` is one of `q`. -/
def Extends {α : Type} (p q : Action α) : Prop :=
  ∀ s r t, Returns p s r t → Returns q s r t

theorem Extends.refl {α : Type} (p : Action α) : Extends p p :=
  fun _ _ _ h => h

theorem Extends.unfinished {α : Type} (q : Action α) : Extends unfinished q :=
  fun _ _ _ h => nomatch h

theorem Extends.bind {α β : Type} {p q : Action α} {f g : α → Action β} (hp : Extends p q)
    (hf : ∀ a, Extends (f a) (g a)) : Extends (p >>= f) (q >>= g) := by
  intro s r t h
  obtain ⟨a, s', hfirst, hsecond⟩ | ⟨halt, rfl, hfirst⟩ := h.bind_cases
  · exact (hp _ _ _ hfirst).bind (hf a _ _ _ hsecond)
  · exact (hp _ _ _ hfirst).bind_error

theorem Ends.of_returns {α : Type} {p : Nat → Action α} {fuel : Nat} {s t : State}
    {r : Except Halt α} (hp : ∀ fuel, Extends (p fuel) (p (fuel + 1)))
    (h : Returns (p fuel) s r t) : Ends p s r t := by
  refine ⟨fuel, fun fuel' hle => ?_⟩
  induction hle with
  | refl => exact h
  | step _ ih => exact hp _ _ _ _ ih

variable {σ : Setting}

theorem extends_succ (fuel : Nat) :
    (∀ active, Extends (expr σ fuel active) (expr σ (fuel + 1) active)) ∧
      (∀ active lhs, Extends (factors σ fuel active lhs) (factors σ (fuel + 1) active lhs)) ∧
        ∀ active, Extends (term σ fuel active) (term σ (fuel + 1) active) := by
  induction fuel with
  | zero =>
    refine ⟨fun _ => ?_, fun _ _ => ?_, fun _ => ?_⟩
    · rw [expr]
      exact .unfinished _
    · rw [factors]
      exact .unfinished _
    · rw [term]
      exact .unfinished _
  | succ fuel ih =>
    obtain ⟨hexpr, hfactors, hterm⟩ := ih
    refine ⟨fun active => ?_, fun active lhs => ?_, fun active => ?_⟩
    · rw [expr, expr]
      exact .bind (.refl _) fun _ => .bind (hterm _) fun first => hfactors _ first
    · rw [factors, factors]
      refine .bind (.refl _) fun s => ?_
      by_cases hnext : σ.next? s.cursor = some '*'
      · simp only [if_pos hnext]
        exact .bind (.refl _) fun _ => .bind (hterm _) fun rhs => hfactors _ (.times lhs rhs)
      · simp only [if_neg hnext]
        exact .refl _
    · rw [term, term]
      refine .bind (.refl _) fun s => ?_
      cases (σ.next? s.cursor).bind lead? with
      | none => exact .refl _
      | some lead =>
        cases lead with
        | coord a => exact .refl _
        | constant => exact .refl _
        | group opening =>
          refine .bind (.refl _) fun _ => .bind (.refl _) fun _ => ?_
          exact .bind (hexpr active) fun contents => .refl _

variable {fuel active : Nat} {s t : State} {r : Except Halt Expr}

theorem ends_expr (h : Returns (expr σ fuel active) s r t) : Ends (expr σ · active) s r t :=
  .of_returns (fun fuel => (extends_succ fuel).1 active) h

theorem ends_term (h : Returns (term σ fuel active) s r t) : Ends (term σ · active) s r t :=
  .of_returns (fun fuel => (extends_succ fuel).2.2 active) h

theorem ends_parse (h : Returns (parse σ fuel) s r t) : Ends (parse σ) s r t :=
  .of_returns (fun fuel => .bind ((extends_succ fuel).1 0) fun _ => .refl _) h

end Descent

end TrigPainting
