import TrigPainting.Expr.Reader
import TrigPainting.Expr.Text

/-!
# Runs of the reader

What one character does to the reader is said here once, as a relation between
states, and a text that is read moves the reader along that relation, one visible
character at a time. Everything else that is known about reading is derived from
these runs.

## Main definitions

- `Reader.Move` — one character, whatever the number of open groups
- `Reader.State.nesting` — the groups that count against the limit
- `Reader.Reads` — a run over visible characters below a limit
- `Reader.Stops` — why a run ends before the text does, or with it

## Design notes

The limit is kept out of `Move`. A run below one limit is then a run below any
greater one, and two runs over one text agree whatever their limits are.
-/

namespace TrigPainting

theorem Axis.letter_injective {a b : Axis} (h : a.letter = b.letter) : a = b := by
  cases a <;> cases b <;> first | rfl | exact absurd h (by decide)

theorem Word.initial_injective {v w : Word} (h : v.initial = w.initial) : v = w := by
  obtain ⟨_ | _⟩ | _ := v <;> obtain ⟨_ | _⟩ | _ := w <;> first | rfl | exact absurd h (by decide)

theorem Axis.letter_ne_initial (a : Axis) (word : Word) : a.letter ≠ word.initial := by
  obtain ⟨_ | _⟩ | _ := word <;> cases a <;> decide

theorem Axis.letter_ne_parenthesis (a : Axis) : a.letter ≠ '(' := by
  cases a <;> decide

theorem Word.initial_ne_parenthesis (word : Word) : word.initial ≠ '(' := by
  obtain ⟨_ | _⟩ | _ := word <;> decide

namespace Reader

/-- What one visible character does to a state. -/
inductive Move : State → Char → State → Prop
  /-- A coordinate is a factor. -/
  | coord (groups : List Group) (before : Option Expr) (a : Axis) :
      Move ⟨groups, .factor before⟩ a.letter
        ⟨groups, .product (Expr.extend before (.coord a))⟩
  /-- The first letter of a word. -/
  | initial (groups : List Group) (before : Option Expr) (word : Word) :
      Move ⟨groups, .factor before⟩ word.initial
        ⟨groups, .spelling word word.second word.ending before⟩
  /-- A group without a name is opened. -/
  | bare (groups : List Group) (before : Option Expr) :
      Move ⟨groups, .factor before⟩ '(' ⟨⟨.bare, before⟩ :: groups, .factor none⟩
  /-- A letter inside a word. -/
  | letter (groups : List Group) (word : Word) (c next : Char) (later : List Char)
      (before : Option Expr) :
      Move ⟨groups, .spelling word c (next :: later) before⟩ c
        ⟨groups, .spelling word next later before⟩
  /-- The parenthesis of a call opens its group. -/
  | call (groups : List Group) (w : Wave) (c : Char) (before : Option Expr) :
      Move ⟨groups, .spelling (.call w) c [] before⟩ c
        ⟨⟨.call w, before⟩ :: groups, .factor none⟩
  /-- The last letter of the constant. -/
  | constant (groups : List Group) (c : Char) (before : Option Expr) :
      Move ⟨groups, .spelling .pi c [] before⟩ c
        ⟨groups, .product (Expr.extend before .pi)⟩
  /-- A product goes on. -/
  | times (groups : List Group) (value : Expr) :
      Move ⟨groups, .product value⟩ '*' ⟨groups, .factor (some value)⟩
  /-- The innermost group is closed. -/
  | close (g : Group) (groups : List Group) (value : Expr) :
      Move ⟨g :: groups, .product value⟩ ')' ⟨groups, .product (g.close value)⟩

/-- The first character of a factor tells which factor it is, and no other stage
leaves a choice. -/
theorem Move.unique {s t t' : State} {c : Char} (h : Move s c t) (h' : Move s c t') :
    t = t' := by
  generalize hd : c = d at h'
  cases h with
  | coord groups before a =>
    cases h' with
    | coord _ _ b => rw [Axis.letter_injective hd]
    | initial _ _ word => exact absurd hd (Axis.letter_ne_initial a word)
    | bare => exact absurd hd (Axis.letter_ne_parenthesis a)
  | initial groups before word =>
    cases h' with
    | coord _ _ b => exact absurd hd.symm (Axis.letter_ne_initial b word)
    | initial _ _ v => rw [Word.initial_injective hd]
    | bare => exact absurd hd (Word.initial_ne_parenthesis word)
  | bare groups before =>
    cases h' with
    | coord _ _ b => exact absurd hd.symm (Axis.letter_ne_parenthesis b)
    | initial _ _ v => exact absurd hd.symm (Word.initial_ne_parenthesis v)
    | bare => rfl
  | letter => cases h'; rfl
  | call => cases h'; rfl
  | constant => cases h'; rfl
  | times =>
    cases h' with
    | times => rfl
    | close => exact absurd hd (by decide)
  | close =>
    cases h' with
    | times => exact absurd hd (by decide)
    | close => rfl

-- ════════════════════════════════════════════════════════════════════════
-- The limit on open groups
-- ════════════════════════════════════════════════════════════════════════

/-- The groups that count against the limit: the open ones, and the one of a call
whose name is being read. -/
def State.nesting (s : State) : Nat :=
  match s.stage with
  | .spelling (.call _) _ _ _ => s.groups.length + 1
  | _ => s.groups.length

@[simp]
theorem nesting_factor (groups : List Group) (before : Option Expr) :
    State.nesting ⟨groups, .factor before⟩ = groups.length := rfl

@[simp]
theorem nesting_call (groups : List Group) (w : Wave) (next : Char) (later : List Char)
    (before : Option Expr) :
    State.nesting ⟨groups, .spelling (.call w) next later before⟩ = groups.length + 1 := rfl

/-- A group may be opened as long as the state that follows stays below the limit. -/
theorem nest_eq_ok_iff {s next t : State} (hn : next.nesting = s.groups.length + 1) :
    s.nest next = .ok t ↔ next = t ∧ t.nesting ≤ maxNesting := by
  rw [State.nest]
  split
  · simp only [Except.ok.injEq]
    constructor
    · rintro rfl
      exact ⟨rfl, by omega⟩
    · exact fun h => h.1
  · simp only [reduceCtorEq, false_iff]
    rintro ⟨rfl, h⟩
    omega

theorem move_of_step {s t : State} {c : Char} (hs : s.nesting ≤ maxNesting)
    (h : s.step c = .ok t) : Move s c t ∧ t.nesting ≤ maxNesting := by
  obtain ⟨groups, stage⟩ := s
  cases stage with
  | factor before =>
    simp only [State.step, State.stepFactor] at h
    split at h
    · next hc =>
      subst hc
      cases h
      exact ⟨.coord groups before .x, hs⟩
    split at h
    · next hc =>
      subst hc
      cases h
      exact ⟨.coord groups before .y, hs⟩
    split at h
    · next hc =>
      subst hc
      cases h
      exact ⟨.initial groups before .pi, hs⟩
    split at h
    · next hc =>
      subst hc
      obtain ⟨rfl, ht⟩ := (nest_eq_ok_iff rfl).mp h
      exact ⟨.initial groups before (.call .sine), ht⟩
    split at h
    · next hc =>
      subst hc
      obtain ⟨rfl, ht⟩ := (nest_eq_ok_iff rfl).mp h
      exact ⟨.initial groups before (.call .cosine), ht⟩
    split at h
    · next hc =>
      subst hc
      obtain ⟨rfl, ht⟩ := (nest_eq_ok_iff rfl).mp h
      exact ⟨.bare groups before, ht⟩
    · cases h
  | spelling word next later before =>
    simp only [State.step, State.stepSpelling] at h
    split at h
    · next hc =>
      subst hc
      cases later with
      | nil =>
        cases word with
        | call w => cases h; exact ⟨.call groups w c before, hs⟩
        | pi => cases h; exact ⟨.constant groups c before, hs⟩
      | cons next later =>
        cases h
        refine ⟨.letter groups word c next later before, ?_⟩
        cases word <;> exact hs
    · cases h
  | product value =>
    simp only [State.step, State.stepProduct] at h
    split at h
    · next hc =>
      subst hc
      cases h
      exact ⟨.times groups value, hs⟩
    · cases groups with
      | nil => cases h
      | cons g groups =>
        dsimp only at h
        split at h
        · next hc =>
          subst hc
          cases h
          exact ⟨.close g groups value, Nat.le_of_succ_le hs⟩
        · cases h

theorem step_of_move {s t : State} {c : Char} (h : Move s c t)
    (ht : t.nesting ≤ maxNesting) : s.step c = .ok t := by
  cases h with
  | coord groups before a => cases a <;> rfl
  | initial groups before word =>
    cases word with
    | call w => cases w <;> exact (nest_eq_ok_iff rfl).mpr ⟨rfl, ht⟩
    | pi => rfl
  | bare groups before => exact (nest_eq_ok_iff rfl).mpr ⟨rfl, ht⟩
  | letter => simp [State.step, State.stepSpelling]
  | call => simp [State.step, State.stepSpelling, State.complete]
  | constant => simp [State.step, State.stepSpelling, State.complete]
  | times => rfl
  | close => rfl

/-- **Inversion of a step**: the reader makes the moves that keep it below the limit,
and no others. -/
theorem step_eq_ok_iff {s t : State} {c : Char} (hs : s.nesting ≤ maxNesting) :
    s.step c = .ok t ↔ Move s c t ∧ t.nesting ≤ maxNesting :=
  ⟨move_of_step hs, fun h => step_of_move h.1 h.2⟩

-- ════════════════════════════════════════════════════════════════════════
-- Runs
-- ════════════════════════════════════════════════════════════════════════

/-- A run over visible characters in which no state but the first has more than
`limit` groups. -/
inductive Reads (limit : Nat) : State → List Char → State → Prop
  | nil (s : State) : Reads limit s [] s
  | cons {s t u : State} {c : Char} {rest : List Char} (move : Move s c t)
      (below : t.nesting ≤ limit) (run : Reads limit t rest u) : Reads limit s (c :: rest) u

namespace Reads

variable {limit limit' : Nat} {s t u : State} {a b text : List Char}

theorem single {c : Char} (move : Move s c t) (below : t.nesting ≤ limit) :
    Reads limit s [c] t :=
  .cons move below (.nil t)

theorem append (ha : Reads limit s a t) (hb : Reads limit t b u) :
    Reads limit s (a ++ b) u := by
  induction ha with
  | nil => exact hb
  | cons move below _ ih => exact .cons move below (ih hb)

/-- A run stops in some state after any part of its text. -/
theorem split (h : Reads limit s (a ++ b) u) : ∃ t, Reads limit s a t ∧ Reads limit t b u := by
  induction a generalizing s with
  | nil => exact ⟨s, .nil s, h⟩
  | cons c a ih =>
    cases h with
    | cons move below run =>
      obtain ⟨t, ha, hb⟩ := ih run
      exact ⟨t, .cons move below ha, hb⟩

/-- A text leads to one state, whatever the limits are. -/
theorem unique (h : Reads limit s text t) (h' : Reads limit' s text u) : t = u := by
  induction h with
  | nil => cases h'; rfl
  | cons move _ _ ih =>
    cases h' with
    | cons move' _ run' =>
      obtain rfl := move.unique move'
      exact ih run'

theorem nesting_le (h : Reads limit s text t) (hs : s.nesting ≤ limit) :
    t.nesting ≤ limit := by
  induction h with
  | nil => exact hs
  | cons _ below _ ih => exact ih below

end Reads

/-- A call opens a group if one more is allowed. -/
theorem reads_call {limit : Nat} {groups : List Group} (h : groups.length < limit) (w : Wave)
    (before : Option Expr) :
    Reads limit ⟨groups, .factor before⟩ (w.letters ++ ['('])
      ⟨⟨.call w, before⟩ :: groups, .factor none⟩ := by
  cases w with
  | sine =>
    exact .cons (.initial groups before (.call .sine)) h
      (.cons (.letter groups _ 'i' 'n' ['('] before) h
        (.cons (.letter groups _ 'n' '(' [] before) h (.single (.call groups _ '(' before) h)))
  | cosine =>
    exact .cons (.initial groups before (.call .cosine)) h
      (.cons (.letter groups _ 'o' 's' ['('] before) h
        (.cons (.letter groups _ 's' '(' [] before) h (.single (.call groups _ '(' before) h)))

theorem reads_constant {limit : Nat} {groups : List Group} (h : groups.length ≤ limit)
    (before : Option Expr) :
    Reads limit ⟨groups, .factor before⟩ ['p', 'i']
      ⟨groups, .product (Expr.extend before .pi)⟩ :=
  .cons (.initial groups before .pi) h (.single (.constant groups 'i' before) h)

theorem reads_times {limit : Nat} {groups : List Group} (h : groups.length ≤ limit)
    (value : Expr) :
    Reads limit ⟨groups, .product value⟩ ['*'] ⟨groups, .factor (some value)⟩ :=
  .single (.times groups value) h

theorem reads_close {limit : Nat} {groups : List Group} (h : groups.length ≤ limit)
    (g : Group) (value : Expr) :
    Reads limit ⟨g :: groups, .product value⟩ [')'] ⟨groups, .product (g.close value)⟩ :=
  .single (.close g groups value) h

-- ════════════════════════════════════════════════════════════════════════
-- Reading a text with blanks
-- ════════════════════════════════════════════════════════════════════════

/-- The reader stops in state `s` in front of the rest of a text: the text has ended
too early, or its next character is refused. -/
inductive Stops (s : State) : List Char → Option Char → Expected → Prop
  | ended {expected : Expected} (h : s.finish = .error expected) : Stops s [] none expected
  | refused {c : Char} {rest : List Char} {expected : Expected}
      (visible : Text.isBlank c = false) (h : s.step c = .error expected) :
      Stops s (c :: rest) (some c) expected

theorem finish_eq_ok_iff {s : State} {e : Expr} :
    s.finish = .ok e ↔ s = ⟨[], .product e⟩ := by
  obtain ⟨_ | ⟨g, groups⟩, _ | _ | value⟩ := s <;> simp [State.finish]

/-- Every text is read to its end or has a first place where reading stops. -/
theorem reads_or_stops {s : State} (hs : s.nesting ≤ maxNesting) (text : List Char) :
    (∃ e, Reads maxNesting s (Text.visible text) ⟨[], .product e⟩) ∨
      ∃ head tail t found expected, text = head ++ tail ∧
        Reads maxNesting s (Text.visible head) t ∧ Stops t tail found expected := by
  induction text generalizing s with
  | nil =>
    cases hf : s.finish with
    | ok e =>
      obtain rfl := finish_eq_ok_iff.mp hf
      exact .inl ⟨e, .nil _⟩
    | error expected => exact .inr ⟨[], [], s, none, expected, rfl, .nil s, .ended hf⟩
  | cons c rest ih =>
    by_cases hc : Text.isBlank c = true
    · obtain ⟨e, run⟩ | ⟨head, tail, t, found, expected, rfl, run, hstop⟩ := ih hs
      · exact .inl ⟨e, by rwa [Text.visible_cons_of_isBlank hc]⟩
      · exact .inr ⟨c :: head, tail, t, found, expected, rfl,
          by rwa [Text.visible_cons_of_isBlank hc], hstop⟩
    · have hvisible : Text.isBlank c = false := Bool.not_eq_true _ ▸ hc
      cases hstep : s.step c with
      | error expected =>
        exact .inr ⟨[], c :: rest, s, some c, expected, rfl, .nil s, .refused hvisible hstep⟩
      | ok t =>
        obtain ⟨move, below⟩ := (step_eq_ok_iff hs).mp hstep
        obtain ⟨e, run⟩ | ⟨head, tail, u, found, expected, rfl, run, hstop⟩ := ih below
        · refine .inl ⟨e, ?_⟩
          rw [Text.visible_cons_of_not_isBlank hvisible]
          exact .cons move below run
        · refine .inr ⟨c :: head, tail, u, found, expected, rfl, ?_, hstop⟩
          rw [Text.visible_cons_of_not_isBlank hvisible]
          exact .cons move below run

/-- After a part that can be read, reading goes on from the state it leads to. -/
theorem read_append {s t : State} {head : List Char}
    (run : Reads maxNesting s (Text.visible head) t) (position : Nat) (tail : List Char) :
    s.read position (head ++ tail) = t.read (position + head.length) tail := by
  induction head generalizing s position with
  | nil => cases run; rfl
  | cons c head ih =>
    have hlength : position + (c :: head).length = position + 1 + head.length := by
      rw [List.length_cons]
      omega
    rw [List.cons_append, State.read, hlength]
    split
    · next hc =>
      rw [Text.visible_cons_of_isBlank hc] at run
      exact ih run (position + 1)
    · next hc =>
      rw [Text.visible_cons_of_not_isBlank (Bool.not_eq_true _ ▸ hc)] at run
      cases run with
      | cons move below run =>
        rw [step_of_move move below]
        exact ih run (position + 1)

theorem read_of_stops {s t : State} {head tail : List Char} {found : Option Char}
    {expected : Expected} (run : Reads maxNesting s (Text.visible head) t)
    (hstop : Stops t tail found expected) (position : Nat) :
    s.read position (head ++ tail) = .error ⟨position + head.length, found, expected⟩ := by
  rw [read_append run]
  cases hstop with
  | ended h => rw [State.read, h]
  | refused visible h => simp [State.read, visible, h]

theorem read_of_reads {s : State} {text : List Char} {e : Expr}
    (run : Reads maxNesting s (Text.visible text) ⟨[], .product e⟩) (position : Nat) :
    s.read position text = .ok e := by
  have h := read_append run position []
  rwa [List.append_nil] at h

/-- A text is read to an expression along a run over its visible characters that
closes every group. -/
theorem read_eq_ok_iff {s : State} (hs : s.nesting ≤ maxNesting) (position : Nat)
    (text : List Char) (e : Expr) :
    s.read position text = .ok e ↔
      Reads maxNesting s (Text.visible text) ⟨[], .product e⟩ := by
  refine ⟨fun h => ?_, fun run => read_of_reads run position⟩
  obtain ⟨e', run⟩ | ⟨head, tail, t, found, expected, rfl, run, hstop⟩ := reads_or_stops hs text
  · rw [read_of_reads run] at h
    cases h
    exact run
  · rw [read_of_stops run hstop] at h
    cases h

/-- **Inversion of an error**: a part of the text has been read, and the reader stops
in front of the rest. -/
theorem read_eq_error_iff {s : State} (hs : s.nesting ≤ maxNesting) (position : Nat)
    (text : List Char) (err : SyntaxError) :
    s.read position text = .error err ↔
      ∃ head tail t, text = head ++ tail ∧ err.position = position + head.length ∧
        Reads maxNesting s (Text.visible head) t ∧ Stops t tail err.found err.expected := by
  constructor
  · intro h
    obtain ⟨e, run⟩ | ⟨head, tail, t, found, expected, rfl, run, hstop⟩ :=
      reads_or_stops hs text
    · rw [read_of_reads run] at h
      cases h
    · rw [read_of_stops run hstop] at h
      cases h
      exact ⟨head, tail, t, rfl, rfl, run, hstop⟩
  · rintro ⟨head, tail, t, rfl, hposition, run, hstop⟩
    rw [read_of_stops run hstop, ← hposition]

end Reader

namespace Expr

open Reader

theorem parse_eq_ok_iff (text : String) (e : Expr) :
    parse text = .ok e ↔
      Reads maxNesting .start (Text.visible text.toList) ⟨[], .product e⟩ :=
  read_eq_ok_iff (Nat.zero_le _) 0 text.toList e

theorem parse_eq_error_iff (text : String) (err : SyntaxError) :
    parse text = .error err ↔
      ∃ head tail t, text.toList = head ++ tail ∧ err.position = head.length ∧
        Reads maxNesting .start (Text.visible head) t ∧
          Stops t tail err.found err.expected := by
  rw [parse, parseChars, read_eq_error_iff (Nat.zero_le _)]
  simp only [Nat.zero_add]

end Expr

end TrigPainting
