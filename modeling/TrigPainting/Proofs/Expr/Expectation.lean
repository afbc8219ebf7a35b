import TrigPainting.Proofs.Expr.Balance

/-!
# What was expected

What a syntax error says was expected can be told from the end of the text before it: a
factor has to start, a word has begun, or a factor is complete. In the first case the
character found decides whether a group was refused, in the last the parentheses decide
whether the text or a group had to end.

## Main definitions

- `AwaitsFactor`, `HalfRead`, `EndsInFactor` — how a text ends
- `OpensGroup` — the characters that a group starts with
- `Demands` — what a text and the character after it ask for
- `Reader.Ends` — how the text ends that has led to a stage

## Main statements

- `Reader.Ends.move`, `Reader.Ends.reads` — one more character, and several
- `Reader.demands_of_stops` — where the reader stops
- `Expr.parse_error_expected_iff` — what was expected, clause by clause
-/

namespace TrigPainting

/-- The start of a text, or the place after `*` or `(`. -/
def AwaitsFactor (q : List Char) : Prop :=
  q = [] ∨ ['*'] <:+ q ∨ ['('] <:+ q

/-- A word has begun at the end of a text. The `s` at the end of `cos` begins no other word. -/
def HalfRead : Word → List Char → Prop
  | .call .sine, q =>
    (['s'] <:+ q ∧ ¬ ['c', 'o', 's'] <:+ q) ∨ ['s', 'i'] <:+ q ∨ ['s', 'i', 'n'] <:+ q
  | .call .cosine, q => ['c'] <:+ q ∨ ['c', 'o'] <:+ q ∨ ['c', 'o', 's'] <:+ q
  | .pi, q => ['p'] <:+ q

/-- The last letter of a factor stands at the end of a text. -/
def EndsInFactor (q : List Char) : Prop :=
  ['x'] <:+ q ∨ ['y'] <:+ q ∨ ['p', 'i'] <:+ q ∨ [')'] <:+ q

/-- A group starts with these characters, and nothing else does. -/
def OpensGroup (found : Option Char) : Prop :=
  found = some 's' ∨ found = some 'c' ∨ found = some '('

/-- **What is asked for** after the visible characters `q`, where `found` stands. -/
inductive Demands (q : List Char) (found : Option Char) : Expected → Prop
  | shallower (awaits : AwaitsFactor q) (opens : OpensGroup found)
      (full : q.count '(' = q.count ')' + 256) : Demands q found .shallower
  | term (awaits : AwaitsFactor q) (other : ¬ OpensGroup found) : Demands q found .term
  | word {word : Word} (begun : HalfRead word q) : Demands q found (.word word)
  | endOfInput (complete : EndsInFactor q) (balanced : q.count '(' = q.count ')') :
      Demands q found .endOfInput
  | closing (complete : EndsInFactor q) (unclosed : q.count ')' < q.count '(') :
      Demands q found .closing

variable {q : List Char} {word : Word} {found : Option Char}

-- ════════════════════════════════════════════════════════════════════════
-- The ends of texts
-- ════════════════════════════════════════════════════════════════════════

theorem AwaitsFactor.not_halfRead (h : AwaitsFactor q) (word : Word) : ¬ HalfRead word q := by
  rcases h with rfl | ⟨head, rfl⟩ | ⟨head, rfl⟩ <;> obtain ⟨_ | _⟩ | _ := word <;>
    simp [HalfRead, ← List.reverse_prefix]

theorem EndsInFactor.not_awaitsFactor (h : EndsInFactor q) : ¬ AwaitsFactor q := by
  rcases h with ⟨head, rfl⟩ | ⟨head, rfl⟩ | ⟨head, rfl⟩ | ⟨head, rfl⟩ <;>
    simp [AwaitsFactor, ← List.reverse_prefix]

theorem EndsInFactor.not_halfRead (h : EndsInFactor q) (word : Word) : ¬ HalfRead word q := by
  rcases h with ⟨head, rfl⟩ | ⟨head, rfl⟩ | ⟨head, rfl⟩ | ⟨head, rfl⟩ <;>
    obtain ⟨_ | _⟩ | _ := word <;> simp [HalfRead, ← List.reverse_prefix]

/-- Letters that begin a word after `q` begin no other word. -/
theorem AwaitsFactor.halfRead_append {read later : List Char} {next : Char}
    (h : AwaitsFactor q) (begun : read ≠ []) (spelled : read ++ next :: later = word.letters) :
    HalfRead word (q ++ read) := by
  have hname : ¬ ['o', 'c'] <+: q.reverse := by
    rcases h with rfl | ⟨head, rfl⟩ | ⟨head, rfl⟩ <;> simp
  have hread : read = word.letters.take read.length := by
    rw [← spelled, List.take_left]
  have hpositive : 0 < read.length := List.length_pos_iff.mpr begun
  have hproper : read.length < word.letters.length := by
    rw [← spelled, List.length_append, List.length_cons]
    omega
  cases word with
  | call w =>
    have hcases : read.length = 1 ∨ read.length = 2 ∨ read.length = 3 := by
      have hfour : (Word.call w).letters.length = 4 := by cases w <;> rfl
      omega
    rcases hcases with hn | hn | hn <;> rw [hread, hn] <;> cases w <;>
      simp [HalfRead, Word.letters, Word.initial, Word.second, Word.ending, ← List.reverse_prefix,
        hname]
  | pi =>
    have hone : read.length = 1 := by
      change read.length < 2 at hproper
      omega
    rw [hread, hone]
    simp [HalfRead, Word.letters, Word.initial]

theorem HalfRead.eq_cosine (h : HalfRead (.call .cosine) q) (h' : HalfRead word q) :
    word = .call .cosine := by
  obtain ⟨_ | _⟩ | _ := word
  · rcases h with ⟨head, rfl⟩ | ⟨head, rfl⟩ | ⟨head, rfl⟩ <;>
      simp [HalfRead, ← List.reverse_prefix] at h'
  · rfl
  · rcases h with ⟨head, rfl⟩ | ⟨head, rfl⟩ | ⟨head, rfl⟩ <;>
      simp [HalfRead, ← List.reverse_prefix] at h'

theorem HalfRead.eq_pi (h : HalfRead .pi q) (h' : HalfRead word q) : word = .pi := by
  obtain ⟨head, rfl⟩ := h
  obtain ⟨_ | _⟩ | _ := word <;> simp [HalfRead, ← List.reverse_prefix] at h' ⊢

theorem HalfRead.unique {other : Word} (h : HalfRead word q) (h' : HalfRead other q) :
    word = other := by
  match word, other with
  | .pi, _ => exact (h.eq_pi h').symm
  | .call .cosine, _ => exact (h.eq_cosine h').symm
  | .call .sine, .pi => exact h'.eq_pi h
  | .call .sine, .call .cosine => exact h'.eq_cosine h
  | .call .sine, .call .sine => rfl

namespace Reader

-- ════════════════════════════════════════════════════════════════════════
-- The ends of what has been read
-- ════════════════════════════════════════════════════════════════════════

/-- How a text ends that has led the reader to a stage. -/
inductive Ends : Stage → List Char → Prop
  | factor {before : Option Expr} {q : List Char} (awaits : AwaitsFactor q) :
      Ends (.factor before) q
  | spelling {word : Word} {next : Char} {later : List Char} {before : Option Expr}
      {q read : List Char} (awaits : AwaitsFactor q) (begun : read ≠ [])
      (spelled : read ++ next :: later = word.letters) :
      Ends (.spelling word next later before) (q ++ read)
  | product {value : Expr} {q : List Char} (complete : EndsInFactor q) :
      Ends (.product value) q

/-- **Step lemma**: one more character ends the text as the next stage has it. -/
theorem Ends.move {s t : State} {c : Char} (h : Ends s.stage q) (move : Move s c t) :
    Ends t.stage (q ++ [c]) := by
  cases move with
  | coord groups before a =>
    refine .product ?_
    cases a with
    | x => exact .inl (List.suffix_append _ _)
    | y => exact .inr (.inl (List.suffix_append _ _))
  | initial groups before word =>
    cases h with
    | factor awaits => exact .spelling awaits (List.cons_ne_nil _ _) rfl
  | bare => exact .factor (.inr (.inr (List.suffix_append _ _)))
  | letter groups word c next later before =>
    cases h with
    | spelling awaits _ spelled =>
      rw [List.append_assoc]
      exact .spelling awaits (by simp) (by simpa using spelled)
  | call groups w c before =>
    cases h with
    | spelling _ _ spelled =>
      have hlast : c = '(' := by
        have h := congrArg List.getLast? spelled
        cases w <;> simpa [Word.letters, Word.ending] using h
      rw [hlast]
      exact .factor (.inr (.inr (List.suffix_append _ _)))
  | constant groups c before =>
    cases h with
    | spelling _ _ spelled =>
      refine .product (.inr (.inr (.inl ?_)))
      rw [List.append_assoc, spelled]
      exact List.suffix_append _ _
  | times => exact .factor (.inr (.inl (List.suffix_append _ _)))
  | close => exact .product (.inr (.inr (.inr (List.suffix_append _ _))))

/-- **Run lemma**: so do several characters. -/
theorem Ends.reads {limit : Nat} {s t : State} {text : List Char} (h : Ends s.stage q)
    (run : Reads limit s text t) : Ends t.stage (q ++ text) := by
  induction run generalizing q with
  | nil => rwa [List.append_nil]
  | cons move _ _ ih => simpa using ih (h.move move)

theorem ends_of_reads {limit : Nat} {t : State} {text : List Char}
    (run : Reads limit .start text t) : Ends t.stage text :=
  Ends.reads (s := .start) (q := []) (.factor (.inl rfl)) run

-- ════════════════════════════════════════════════════════════════════════
-- Where the reader stops
-- ════════════════════════════════════════════════════════════════════════

theorem nest_eq_error {s next : State} {expected : Expected} (h : s.nest next = .error expected) :
    expected = .shallower ∧ maxNesting ≤ s.groups.length := by
  rw [State.nest] at h
  split at h
  · cases h
  · cases h
    exact ⟨rfl, by omega⟩

theorem stepFactor_eq_error {s : State} {before : Option Expr} {c : Char} {expected : Expected}
    (h : s.stepFactor before c = .error expected) :
    (expected = .shallower ∧ OpensGroup (some c) ∧ maxNesting ≤ s.groups.length) ∨
      (expected = .term ∧ ¬ OpensGroup (some c)) := by
  have hnested {next : State} (opens : OpensGroup (some c))
      (hnest : s.nest next = .error expected) :
      expected = .shallower ∧ OpensGroup (some c) ∧ maxNesting ≤ s.groups.length :=
    (nest_eq_error hnest).imp_right (And.intro opens)
  rw [State.stepFactor] at h
  split at h
  · cases h
  split at h
  · cases h
  split at h
  · cases h
  split at h
  · next hc => exact .inl (hnested (.inl (congrArg some hc)) h)
  split at h
  · next hc => exact .inl (hnested (.inr (.inl (congrArg some hc))) h)
  split at h
  · next hc => exact .inl (hnested (.inr (.inr (congrArg some hc))) h)
  · next hs hc hbare =>
    cases h
    exact .inr ⟨rfl, by simp [OpensGroup, hs, hc, hbare]⟩

theorem stepSpelling_eq_error {s : State} {word : Word} {next c : Char} {later : List Char}
    {before : Option Expr} {expected : Expected}
    (h : s.stepSpelling word next later before c = .error expected) : expected = .word word := by
  unfold State.stepSpelling at h
  split at h
  · cases later <;> cases h
  · cases h
    rfl

theorem stepProduct_eq_error {s : State} {value : Expr} {c : Char} {expected : Expected}
    (h : s.stepProduct value c = .error expected) :
    (expected = .endOfInput ∧ s.groups = []) ∨ (expected = .closing ∧ s.groups ≠ []) := by
  obtain ⟨groups, stage⟩ := s
  rw [State.stepProduct] at h
  split at h
  · cases h
  · cases groups with
    | nil =>
      cases h
      exact .inl ⟨rfl, rfl⟩
    | cons g groups =>
      dsimp only at h
      split at h
      · cases h
      · cases h
        exact .inr ⟨rfl, List.cons_ne_nil _ _⟩

theorem demands_of_stops {t : State} {text tail : List Char} {expected : Expected}
    (run : Reads maxNesting .start text t) (hstop : Stops t tail found expected) :
    Demands text found expected := by
  have hends := ends_of_reads run
  have hcount := count_of_reads run
  have hnesting := run.nesting_le (Nat.zero_le _)
  obtain ⟨groups, stage⟩ := t
  cases hends with
  | factor awaits =>
    cases hstop with
    | ended h =>
      cases h
      exact .term awaits (by simp [OpensGroup])
    | refused _ h =>
      obtain ⟨rfl, opens, hfull⟩ | ⟨rfl, other⟩ := stepFactor_eq_error h
      · refine .shallower awaits opens ?_
        rw [nesting_factor] at hnesting
        rw [hcount, Nat.le_antisymm hnesting hfull]
        rfl
      · exact .term awaits other
  | spelling awaits begun spelled =>
    have hbegun := awaits.halfRead_append begun spelled
    cases hstop with
    | ended h =>
      cases h
      exact .word hbegun
    | refused _ h =>
      obtain rfl := stepSpelling_eq_error h
      exact .word hbegun
  | product complete =>
    cases hstop with
    | ended h =>
      cases groups with
      | nil => cases h
      | cons g groups =>
        cases h
        exact .closing complete (by rw [hcount, List.length_cons]; omega)
    | refused _ h =>
      obtain ⟨rfl, hgroups⟩ | ⟨rfl, hgroups⟩ := stepProduct_eq_error h
      · refine .endOfInput complete ?_
        rw [hcount, hgroups]
        rfl
      · refine .closing complete ?_
        have hpositive : 0 < groups.length := List.length_pos_iff.mpr hgroups
        rw [hcount]
        exact Nat.lt_add_of_pos_right hpositive

-- ════════════════════════════════════════════════════════════════════════
-- After a factor
-- ════════════════════════════════════════════════════════════════════════

variable {limit : Nat} {t : State}

theorem exists_product_of_endsInFactor (run : Reads limit .start q t) (h : EndsInFactor q) :
    ∃ groups value, t = ⟨groups, .product value⟩ := by
  have hends := ends_of_reads run
  obtain ⟨groups, stage⟩ := t
  cases hends with
  | factor awaits => exact absurd awaits h.not_awaitsFactor
  | spelling awaits begun spelled =>
    exact absurd (awaits.halfRead_append begun spelled) (h.not_halfRead _)
  | @product value => exact ⟨groups, value, rfl⟩

theorem exists_derives_factor {symbol : Symbol} {k : Nat} {e : Expr} (h : Derives symbol k q e) :
    ∃ head last e', q = head ++ last ∧ Derives .factor k last e' := by
  induction h with
  | coord k a => exact ⟨[], _, _, rfl, .coord k a⟩
  | pi k => exact ⟨[], _, _, rfl, .pi k⟩
  | call w contents => exact ⟨[], _, _, rfl, .call w contents⟩
  | group contents => exact ⟨[], _, _, rfl, .group contents⟩
  | single only ih => exact ih
  | @times k s t lhs rhs _ last _ _ => exact ⟨s ++ ['*'], t, rhs, by simp, last⟩

/-- Where a factor has ended, a text of the grammar has been read. -/
theorem exists_factor_of_endsInFactor (run : Reads limit .start q t) (h : EndsInFactor q) :
    ∃ head last k e, q = head ++ last ∧ Derives .factor k last e := by
  obtain ⟨groups, value, rfl⟩ := exists_product_of_endsInFactor run h
  cases consumed_of_reads run with
  | product outer product =>
    obtain ⟨head, last, e, rfl, factor⟩ := exists_derives_factor product
    exact ⟨_, last, _, e, (List.append_assoc ..).symm, factor⟩

end Reader

namespace Expr

open Reader

theorem exists_parse_iff_balanced {t : State} (run : Reads maxNesting .start q t)
    (h : EndsInFactor q) :
    (∃ e, parse (String.ofList q) = .ok e) ↔ q.count '(' = q.count ')' := by
  have hvisible := visible_of_reads run
  constructor
  · rintro ⟨e, hparse⟩
    rw [parse_eq_ok_iff, String.toList_ofList, hvisible] at hparse
    exact ((derives_iff_reads _ _ _).mpr hparse).balanced
  · intro hbalanced
    have hcount := count_of_reads run
    obtain ⟨groups, value, rfl⟩ := exists_product_of_endsInFactor run h
    have hgroups : groups.length = 0 := by
      change _ = _ + groups.length at hcount
      omega
    obtain rfl := List.eq_nil_of_length_eq_zero hgroups
    refine ⟨value, ?_⟩
    rwa [parse_eq_ok_iff, String.toList_ofList, hvisible]

/-- **What was expected** is told by the end of the visible text before the error. Where a
factor has to start, the character found decides whether a group was one too many, and then
256 are open. In a word that has begun, it is the rest of the word. Otherwise a factor has
ended: the text had to end if its parentheses are balanced, which makes it a text that is
accepted, and a group had to be closed if they are not. -/
theorem parse_error_expected_iff {text : String} {err : SyntaxError}
    (h : parse text = .error err) :
    let q := Text.visible (text.toList.take err.position)
    (err.expected = .shallower ↔ AwaitsFactor q ∧ OpensGroup err.found) ∧
      (err.expected = .shallower → q.count '(' = q.count ')' + 256) ∧
      (err.expected = .term ↔ AwaitsFactor q ∧ ¬ OpensGroup err.found) ∧
      (∀ word, err.expected = .word word ↔ HalfRead word q) ∧
      (¬ AwaitsFactor q → (∀ word, ¬ HalfRead word q) →
        (∃ head last k e, q = head ++ last ∧ Derives .factor k last e) ∧
        ((∃ e, parse (String.ofList q) = .ok e) ↔ q.count '(' = q.count ')') ∧
        ((q.count '(' = q.count ')' ∧ err.expected = .endOfInput) ∨
          (q.count ')' < q.count '(' ∧ err.expected = .closing))) := by
  intro q
  obtain ⟨head, tail, t, htext, hposition, run, hstop⟩ := (parse_eq_error_iff text err).mp h
  have hq : q = Text.visible head := by
    simp only [q, htext, hposition, List.take_left]
  rw [← hq] at run
  have hcomplete (complete : EndsInFactor q) :=
    And.intro (exists_factor_of_endsInFactor run complete) (exists_parse_iff_balanced run complete)
  generalize err.expected = expected at hstop
  cases demands_of_stops run hstop with
  | shallower awaits opens full =>
    refine ⟨by simp [awaits, opens], fun _ => full, by simp [awaits, opens], fun word => ?_, ?_⟩
    · simp [awaits.not_halfRead]
    · exact fun hnot => absurd awaits hnot
  | term awaits other =>
    refine ⟨by simp [awaits, other], nofun, by simp [awaits, other], fun word => ?_, ?_⟩
    · simp [awaits.not_halfRead]
    · exact fun hnot => absurd awaits hnot
  | @word word begun =>
    have hnot : ¬ AwaitsFactor q := fun awaits => awaits.not_halfRead word begun
    refine ⟨by simp [hnot], nofun, by simp [hnot], fun other => ⟨?_, fun h => ?_⟩, ?_⟩
    · rintro ⟨⟩
      exact begun
    · rw [begun.unique h]
    · exact fun _ hnone => absurd begun (hnone word)
  | endOfInput complete balanced =>
    have hnot := complete.not_awaitsFactor
    refine ⟨by simp [hnot], nofun, by simp [hnot], fun word => ?_, fun _ _ => ?_⟩
    · simp [complete.not_halfRead]
    · exact ⟨(hcomplete complete).1, (hcomplete complete).2, .inl ⟨balanced, rfl⟩⟩
  | closing complete unclosed =>
    have hnot := complete.not_awaitsFactor
    refine ⟨by simp [hnot], nofun, by simp [hnot], fun word => ?_, fun _ _ => ?_⟩
    · simp [complete.not_halfRead]
    · exact ⟨(hcomplete complete).1, (hcomplete complete).2, .inr ⟨unclosed, rfl⟩⟩

/-- The `s` of `co s` stands for no `sin`, and the `i` of `p i` ends a factor. -/
theorem parse_error_expected_after_letters :
    parse "co s x" = .error ⟨5, some 'x', .word (.call .cosine)⟩ ∧
      HalfRead (.call .cosine) ['c', 'o', 's'] ∧ ¬ HalfRead (.call .sine) ['c', 'o', 's'] ∧
      parse "(x*p i" = .error ⟨6, none, .closing⟩ ∧
      ¬ AwaitsFactor ['(', 'x', '*', 'p', 'i'] ∧
      ∃ head last k e, ['(', 'x', '*', 'p', 'i'] = head ++ last ∧ Derives .factor k last e := by
  have hcos : parse "co s x" = .error ⟨5, some 'x', .word (.call .cosine)⟩ := rfl
  have hpi : parse "(x*p i" = .error ⟨6, none, .closing⟩ := rfl
  obtain ⟨-, -, -, hword, -⟩ := parse_error_expected_iff hcos
  have hsine : ¬ HalfRead (.call .sine) ['c', 'o', 's'] := fun h =>
    absurd ((hword (.call .sine)).mpr h) (by decide)
  obtain ⟨-, -, hterm, hword', hcomplete⟩ := parse_error_expected_iff hpi
  have hnot : ¬ AwaitsFactor ['(', 'x', '*', 'p', 'i'] := fun awaits =>
    absurd (hterm.mpr ⟨awaits, by simp [OpensGroup]⟩) (by decide)
  have hnone : ∀ word, ¬ HalfRead word ['(', 'x', '*', 'p', 'i'] := fun word h =>
    absurd ((hword' word).mpr h) (by simp)
  exact ⟨hcos, (hword (.call .cosine)).mp rfl, hsine, hpi, hnot, (hcomplete hnot hnone).1⟩

end Expr

end TrigPainting
