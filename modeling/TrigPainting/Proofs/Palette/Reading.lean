import TrigPainting.Palette.Details
import TrigPainting.Proofs.Occurrence
import TrigPainting.Proofs.Text.Line

/-!
# What a details text describes

The lines of a details text are read one after the other, each into a draft of the
palette. What a draft knows of the lines that have been read is an invariant of this: it
holds, for every channel, the tree of the last line for it. So a text describes a palette
or has an error by rules that speak of its lines alone.

## Main definitions

- `Palette.Tells` — a line has the key of a channel, and a text after it
- `Palette.Fails`, `Palette.Malformed` — a line whose expression cannot be read
- `Palette.Describes` — the rules: what the lines of a text amount to
- `Palette.Draft.Collects` — what a draft knows of the lines that have been read

## Main statements

- `Palette.Draft.Collects.readLine` — what one line changes
- `Palette.Draft.Collects.readLines` — what any number of lines change
- `Palette.ofDetailsChars_eq_iff` — reading a text is following the rules
-/

namespace TrigPainting

theorem Channel.key_ne_nil (c : Channel) : c.key ≠ [] := by
  cases c <;> decide

namespace Palette

-- ════════════════════════════════════════════════════════════════════════
-- Keyed lines
-- ════════════════════════════════════════════════════════════════════════

/-- A line, once trimmed, is the key of a channel, a colon and the text of an
expression. -/
def Tells (line : List Char) (c : Channel) (expression : List Char) : Prop :=
  Text.trim line = c.key ++ ':' :: expression

/-- A line, once trimmed, starts with the key of a channel and a colon. -/
def IsKeyedFor (c : Channel) (line : List Char) : Prop :=
  c.key ++ [':'] <+: Text.trim line

instance (c : Channel) : DecidablePred (IsKeyedFor c) := fun line =>
  inferInstanceAs (Decidable (c.key ++ [':'] <+: Text.trim line))

theorem isKeyedFor_iff {c : Channel} {line : List Char} :
    IsKeyedFor c line ↔ ∃ expression, Tells line c expression := by
  constructor
  · rintro ⟨expression, h⟩
    exact ⟨expression, by rw [Tells, ← h, List.append_assoc]; rfl⟩
  · rintro ⟨expression, h⟩
    exact ⟨expression, by rw [h, List.append_assoc]; rfl⟩

theorem Tells.isKeyedFor {line expression : List Char} {c : Channel} (h : Tells line c expression) :
    IsKeyedFor c line :=
  isKeyedFor_iff.mpr ⟨expression, h⟩

theorem keyed?_eq_some_iff {line expression : List Char} {c : Channel} :
    keyed? line = some (c, expression) ↔ line = c.key ++ ':' :: expression := by
  constructor
  · intro h
    obtain ⟨-, d, -, -, hd, -⟩ := List.findSome?_eq_some_iff.mp h
    obtain ⟨rest, hprefix, hpair⟩ := Option.map_eq_some_iff.mp hd
    obtain ⟨rfl, rfl⟩ := Prod.mk.inj hpair
    rw [← List.isPrefixOf?_eq_some_iff_append_eq.mp hprefix, List.append_assoc]
    rfl
  · rintro rfl
    cases c <;> simp [keyed?, Channel.all, Channel.key, List.isPrefixOf?]

theorem keyed?_trim_eq_some_iff {line expression : List Char} {c : Channel} :
    keyed? (Text.trim line) = some (c, expression) ↔ Tells line c expression :=
  keyed?_eq_some_iff

theorem Tells.unique {line expression expression' : List Char} {c d : Channel}
    (h : Tells line c expression) (h' : Tells line d expression') :
    c = d ∧ expression = expression' := by
  have hpair := (keyed?_trim_eq_some_iff.mpr h).symm.trans (keyed?_trim_eq_some_iff.mpr h')
  exact Prod.mk.inj (Option.some.inj hpair)

theorem IsKeyedFor.unique {line : List Char} {c d : Channel} (hc : IsKeyedFor c line)
    (hd : IsKeyedFor d line) : c = d := by
  obtain ⟨_, hc⟩ := isKeyedFor_iff.mp hc
  obtain ⟨_, hd⟩ := isKeyedFor_iff.mp hd
  exact (hc.unique hd).1

theorem keyed?_trim_eq_none_iff {line : List Char} :
    keyed? (Text.trim line) = none ↔ ∀ c, ¬ IsKeyedFor c line := by
  constructor
  · intro hnone c hkeyed
    obtain ⟨expression, htells⟩ := isKeyedFor_iff.mp hkeyed
    rw [keyed?_trim_eq_some_iff.mpr htells] at hnone
    cases hnone
  · intro hunkeyed
    cases h : keyed? (Text.trim line) with
    | none => rfl
    | some said => exact absurd (keyed?_trim_eq_some_iff.mp h).isKeyedFor (hunkeyed said.1)

-- ════════════════════════════════════════════════════════════════════════
-- The rules
-- ════════════════════════════════════════════════════════════════════════

/-- The error of a line that has a key and an expression that cannot be read. Its position
counts from the start of the trimmed line. -/
inductive Fails (line : List Char) : PaletteError → Prop
  | intro {c : Channel} {expression : List Char} {cause : SyntaxError}
      (tells : Tells line c expression) (refused : Expr.parseChars expression = .error cause) :
      Fails line (.malformed c (cause.shift (c.key.length + 1)))

/-- A line has a key and an expression that cannot be read. -/
def Malformed (line : List Char) : Prop :=
  ∃ err, Fails line err

/-- The last line for a channel has a tree. -/
def LastTells (lines : List (List Char)) (c : Channel) (tree : Expr) : Prop :=
  ∃ line expression, IsLast (IsKeyedFor c) lines line ∧ Tells line c expression ∧
    Expr.parseChars expression = .ok tree

/-- **The rules**: what the lines of a text amount to. A malformed line counts before
anything that is missing, and a later line never makes up for it. -/
inductive Describes (lines : List (List Char)) : Except PaletteError Palette → Prop
  /-- The first malformed line has an error. -/
  | malformed {line : List Char} {err : PaletteError} (first : IsFirst Malformed lines line)
      (fails : Fails line err) : Describes lines (.error err)
  /-- No line is malformed, and the first channel without a line is missing. -/
  | missing {c : Channel} (readable : ∀ line ∈ lines, ¬ Malformed line)
      (first : IsFirst (fun c => ∀ line ∈ lines, ¬ IsKeyedFor c line) Channel.all c) :
      Describes lines (.error (.missing c))
  /-- No line is malformed, and every channel has the tree of its last line. -/
  | complete {p : Palette} (readable : ∀ line ∈ lines, ¬ Malformed line)
      (last : ∀ c, LastTells lines c (p.get c)) : Describes lines (.ok p)

theorem Fails.unique {line : List Char} {err err' : PaletteError} (h : Fails line err)
    (h' : Fails line err') : err = err' := by
  obtain ⟨tells, refused⟩ := h
  obtain ⟨tells', refused'⟩ := h'
  obtain ⟨rfl, rfl⟩ := tells.unique tells'
  rw [refused] at refused'
  cases refused'
  rfl

theorem Malformed.exists_isKeyedFor {line : List Char} (h : Malformed line) :
    ∃ c, IsKeyedFor c line := by
  obtain ⟨_, ⟨tells, -⟩⟩ := h
  exact ⟨_, tells.isKeyedFor⟩

theorem LastTells.unique {lines : List (List Char)} {c : Channel} {tree tree' : Expr}
    (h : LastTells lines c tree) (h' : LastTells lines c tree') : tree = tree' := by
  obtain ⟨line, expression, hlast, htells, hparse⟩ := h
  obtain ⟨line', expression', hlast', htells', hparse'⟩ := h'
  obtain rfl := hlast.unique hlast'
  obtain ⟨-, rfl⟩ := htells.unique htells'
  exact Except.ok.inj (hparse.symm.trans hparse')

theorem LastTells.exists_keyed {lines : List (List Char)} {c : Channel} {tree : Expr}
    (h : LastTells lines c tree) : ∃ line ∈ lines, IsKeyedFor c line := by
  obtain ⟨line, -, hlast, -, -⟩ := h
  exact ⟨line, hlast.mem, hlast.holds⟩

theorem Describes.unique {lines : List (List Char)} {r r' : Except PaletteError Palette}
    (h : Describes lines r) (h' : Describes lines r') : r = r' := by
  cases h with
  | malformed first fails =>
    cases h' with
    | malformed first' fails' =>
      obtain rfl := first.unique first'
      rw [fails.unique fails']
    | missing readable => exact absurd first.holds (readable _ first.mem)
    | complete readable => exact absurd first.holds (readable _ first.mem)
  | missing readable first =>
    cases h' with
    | malformed first' => exact absurd first'.holds (readable _ first'.mem)
    | missing _ first' => rw [first.unique first']
    | complete _ last =>
      obtain ⟨line, hmem, hkeyed⟩ := (last _).exists_keyed
      exact absurd hkeyed (first.holds line hmem)
  | complete readable last =>
    cases h' with
    | malformed first' => exact absurd first'.holds (readable _ first'.mem)
    | missing _ first' =>
      obtain ⟨line, hmem, hkeyed⟩ := (last _).exists_keyed
      exact absurd hkeyed (first'.holds line hmem)
    | complete _ last' => rw [ext_get fun c => (last c).unique (last' c)]

-- ════════════════════════════════════════════════════════════════════════
-- Reading lines
-- ════════════════════════════════════════════════════════════════════════

namespace Draft

/-- **Inversion of a line**: a line without a key changes nothing, a keyed line replaces
the tree of its channel or has an error. -/
theorem readLine_cases (draft : Draft) (line : List Char) :
    ((∀ c, ¬ IsKeyedFor c line) ∧ draft.readLine line = .ok draft) ∨
      (∃ c expression tree, Tells line c expression ∧ Expr.parseChars expression = .ok tree ∧
        draft.readLine line = .ok (draft.set c tree)) ∨
      ∃ err, Fails line err ∧ draft.readLine line = .error err := by
  rw [readLine]
  cases hkeyed : keyed? (Text.trim line) with
  | none => exact .inl ⟨keyed?_trim_eq_none_iff.mp hkeyed, rfl⟩
  | some said =>
    obtain ⟨c, expression⟩ := said
    have htells : Tells line c expression := keyed?_trim_eq_some_iff.mp hkeyed
    cases hparse : Expr.parseChars expression with
    | ok tree => exact .inr (.inl ⟨c, expression, tree, htells, hparse, by simp only [hparse]⟩)
    | error cause => exact .inr (.inr ⟨_, .intro htells hparse, by simp only [hparse]⟩)

theorem set_self (draft : Draft) (c : Channel) (tree : Expr) : draft.set c tree c = some tree :=
  if_pos rfl

theorem set_of_ne (draft : Draft) {c d : Channel} (h : d ≠ c) (tree : Expr) :
    draft.set c tree d = draft d :=
  if_neg h

/-- **What a draft knows** of the lines that have been read. -/
structure Collects (draft : Draft) (seen : List (List Char)) : Prop where
  readable : ∀ line ∈ seen, ¬ Malformed line
  absent : ∀ c, draft c = none → ∀ line ∈ seen, ¬ IsKeyedFor c line
  last : ∀ c tree, draft c = some tree → LastTells seen c tree

theorem collects_empty : empty.Collects [] where
  readable := nofun
  absent := nofun
  last := nofun

variable {draft : Draft} {seen : List (List Char)}

theorem Collects.concat_unkeyed (h : draft.Collects seen) {line : List Char}
    (hunkeyed : ∀ c, ¬ IsKeyedFor c line) : draft.Collects (seen ++ [line]) where
  readable := by
    rw [List.forall_mem_append, List.forall_mem_singleton]
    refine ⟨h.readable, fun hmalformed => ?_⟩
    obtain ⟨c, hkeyed⟩ := hmalformed.exists_isKeyedFor
    exact hunkeyed c hkeyed
  absent c hc := by
    rw [List.forall_mem_append, List.forall_mem_singleton]
    exact ⟨h.absent c hc, hunkeyed c⟩
  last c tree hc := by
    obtain ⟨l, expression, hlast, htells, hparse⟩ := h.last c tree hc
    exact ⟨l, expression, hlast.concat (hunkeyed c), htells, hparse⟩

/-- A keyed line replaces the tree of its channel and leaves the others alone. -/
theorem Collects.concat_keyed (h : draft.Collects seen) {line expression : List Char}
    {c : Channel} {tree : Expr} (htells : Tells line c expression)
    (hparse : Expr.parseChars expression = .ok tree) :
    (draft.set c tree).Collects (seen ++ [line]) where
  readable := by
    rw [List.forall_mem_append, List.forall_mem_singleton]
    refine ⟨h.readable, ?_⟩
    rintro ⟨_, ⟨htells', refused⟩⟩
    obtain ⟨rfl, rfl⟩ := htells.unique htells'
    rw [hparse] at refused
    cases refused
  absent d hd := by
    have hne : d ≠ c := by
      rintro rfl
      rw [set_self] at hd
      cases hd
    rw [set_of_ne draft hne] at hd
    rw [List.forall_mem_append, List.forall_mem_singleton]
    exact ⟨h.absent d hd, fun hkeyed => hne (hkeyed.unique htells.isKeyedFor)⟩
  last d other hd := by
    by_cases hdc : d = c
    · subst hdc
      rw [set_self] at hd
      obtain rfl := Option.some.inj hd
      exact ⟨line, expression, isLast_concat htells.isKeyedFor seen, htells, hparse⟩
    · rw [set_of_ne draft hdc] at hd
      obtain ⟨l, expression', hlast, htells', hparse'⟩ := h.last d other hd
      have hother : ¬ IsKeyedFor d line := fun hkeyed => hdc (hkeyed.unique htells.isKeyedFor)
      exact ⟨l, expression', hlast.concat hother, htells', hparse'⟩

/-- **Step lemma**: a line that can be read adds to what a draft knows, and a malformed one
has its error. -/
theorem Collects.readLine (h : draft.Collects seen) (line : List Char) :
    (∃ next, draft.readLine line = .ok next ∧ next.Collects (seen ++ [line])) ∨
      ∃ err, Fails line err ∧ draft.readLine line = .error err := by
  obtain ⟨hunkeyed, hread⟩ | ⟨c, expression, tree, htells, hparse, hread⟩ | ⟨err, hfails, hread⟩ :=
    draft.readLine_cases line
  · exact .inl ⟨draft, hread, h.concat_unkeyed hunkeyed⟩
  · exact .inl ⟨draft.set c tree, hread, h.concat_keyed htells hparse⟩
  · exact .inr ⟨err, hfails, hread⟩

/-- **Run lemma**: lines are read to the end, or to the first malformed one. -/
theorem Collects.readLines (h : draft.Collects seen) (lines : List (List Char)) :
    (∃ next, draft.readLines lines = .ok next ∧ next.Collects (seen ++ lines)) ∨
      ∃ line err, IsFirst Malformed (seen ++ lines) line ∧ Fails line err ∧
        draft.readLines lines = .error err := by
  induction lines generalizing draft seen with
  | nil => exact .inl ⟨draft, rfl, by rwa [List.append_nil]⟩
  | cons line others ih =>
    rw [Draft.readLines]
    obtain ⟨next, hread, hnext⟩ | ⟨err, hfails, hread⟩ := h.readLine line
    · have hrest := ih hnext
      simp only [List.append_assoc, List.singleton_append] at hrest
      rw [hread]
      exact hrest
    · rw [hread]
      exact .inr ⟨line, err, ⟨seen, others, rfl, ⟨err, hfails⟩, h.readable⟩, hfails, rfl⟩

/-- A draft is finished if it has every channel, and otherwise its first missing channel
is named. -/
theorem finish_cases (draft : Draft) :
    (∃ p, draft.finish = .ok p ∧ ∀ c, draft c = some (p.get c)) ∨
      ∃ c, draft.finish = .error (.missing c) ∧
        IsFirst (fun c => draft c = none) Channel.all c := by
  cases hred : draft .red with
  | none =>
    exact .inr ⟨.red, by simp [finish, require, hred, bind, Except.bind],
      [], [.green, .blue], rfl, hred, nofun⟩
  | some red =>
    cases hgreen : draft .green with
    | none =>
      exact .inr ⟨.green, by simp [finish, require, hred, hgreen, bind, Except.bind],
        [.red], [.blue], rfl, hgreen, by simp [hred]⟩
    | some green =>
      cases hblue : draft .blue with
      | none =>
        exact .inr ⟨.blue, by simp [finish, require, hred, hgreen, hblue, bind, Except.bind],
          [.red, .green], [], rfl, hblue, by simp [hred, hgreen]⟩
      | some blue =>
        refine .inl ⟨⟨red, green, blue⟩, ?_, ?_⟩
        · simp [finish, require, hred, hgreen, hblue, bind, Except.bind, pure, Except.pure]
        · intro c
          cases c with
          | red => exact hred
          | green => exact hgreen
          | blue => exact hblue

theorem Collects.eq_none_iff (h : draft.Collects seen) (c : Channel) :
    draft c = none ↔ ∀ line ∈ seen, ¬ IsKeyedFor c line := by
  refine ⟨h.absent c, fun hunkeyed => ?_⟩
  cases hc : draft c with
  | none => rfl
  | some tree =>
    obtain ⟨line, hmem, hkeyed⟩ := (h.last c tree hc).exists_keyed
    exact absurd hkeyed (hunkeyed line hmem)

end Draft

-- ════════════════════════════════════════════════════════════════════════
-- Reading a text
-- ════════════════════════════════════════════════════════════════════════

theorem describes_ofDetailsChars (text : List Char) :
    Describes (Text.lines text) (ofDetailsChars text) := by
  rw [ofDetailsChars]
  obtain ⟨draft, hread, hdraft⟩ | ⟨line, err, hfirst, hfails, hread⟩ :=
    Draft.collects_empty.readLines (Text.lines text)
  · simp only [hread]
    obtain ⟨p, hfinish, hp⟩ | ⟨c, hfinish, hc⟩ := draft.finish_cases
    · rw [hfinish]
      exact .complete hdraft.readable fun c => hdraft.last c _ (hp c)
    · rw [hfinish]
      simp only [hdraft.eq_none_iff] at hc
      exact .missing hdraft.readable hc
  · rw [hread]
    exact .malformed hfirst hfails

/-- **Reading a text** is following the rules on its lines. -/
theorem ofDetailsChars_eq_iff (text : List Char) (result : Except PaletteError Palette) :
    ofDetailsChars text = result ↔ Describes (Text.lines text) result := by
  constructor
  · rintro rfl
    exact describes_ofDetailsChars text
  · exact (describes_ofDetailsChars text).unique

end Palette

end TrigPainting
