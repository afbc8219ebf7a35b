import TrigPainting.Proofs.Expr.Grammar

/-!
# Parentheses and blanks in what has been read

Derived texts have as many opening as closing parentheses, so the open groups of the
reader are the parentheses that still have to be closed in what it has read. And the
reader never moves over a blank, so a text that is read is visible throughout.

## Main statements

- `Reader.count_of_reads` — the parentheses that are open in a text that has been read
- `Reader.visible_of_reads` — a text that has been read has no blanks
-/

namespace TrigPainting

theorem Axis.isBlank_letter (a : Axis) : Text.isBlank a.letter = false := by
  cases a <;> decide

theorem Word.isBlank_initial (word : Word) : Text.isBlank word.initial = false := by
  obtain ⟨_ | _⟩ | _ := word <;> decide

theorem Wave.count_letters (w : Wave) : w.letters.count '(' = 0 ∧ w.letters.count ')' = 0 := by
  cases w <;> decide

theorem Axis.count_letter (a : Axis) : [a.letter].count '(' = 0 ∧ [a.letter].count ')' = 0 := by
  cases a <;> decide

theorem Opening.count_letters (opening : Opening) :
    opening.letters.count '(' = 1 ∧ opening.letters.count ')' = 0 := by
  cases opening with
  | call w => cases w <;> decide
  | bare => decide

/-- Every parenthesis of a derived text has its counterpart. -/
theorem Derives.balanced {symbol : Symbol} {k : Nat} {s : List Char} {e : Expr}
    (h : Derives symbol k s e) : s.count '(' = s.count ')' := by
  induction h with
  | coord k a => rw [(Axis.count_letter a).1, (Axis.count_letter a).2]
  | pi k => decide
  | call w _ ih =>
    obtain ⟨hopen, hclose⟩ := Wave.count_letters w
    simp [hopen, hclose, ih]
  | group _ ih => simp [ih]
  | single _ ih => exact ih
  | times _ _ ihothers ihlast => simp [ihothers, ihlast]

namespace Reader

theorem Preceded.balanced {k : Nat} {before : Option Expr} {s : List Char}
    (h : Preceded k before s) : s.count '(' = s.count ')' := by
  cases h with
  | none => rfl
  | some product => simp [product.balanced]

theorem Opened.count {limit k : Nat} {groups : List Group} {s : List Char}
    (h : Opened limit k groups s) : s.count '(' = s.count ')' + groups.length := by
  induction h with
  | nil => rfl
  | cons opening _ preceded ih =>
    obtain ⟨hopen, hclose⟩ := Opening.count_letters opening
    have hbalanced := preceded.balanced
    simp only [List.count_append, List.length_cons]
    omega

/-- The part of a call that has been spelled is a part of the name alone. -/
theorem count_of_spelled {read later : List Char} {next : Char} {w : Wave}
    (h : read ++ next :: later = w.letters ++ ['(']) :
    read.count '(' = 0 ∧ read.count ')' = 0 := by
  have hname : read ++ (next :: later).dropLast = w.letters := by
    have hdrop := congrArg List.dropLast h
    rwa [List.dropLast_append_of_ne_nil (List.cons_ne_nil _ _), List.dropLast_concat] at hdrop
  obtain ⟨hopen, hclose⟩ := Wave.count_letters w
  rw [← hname, List.count_append] at hopen hclose
  omega

/-- The letter of a call that comes next is visible. -/
theorem isBlank_of_spelled {read later : List Char} {next : Char} {w : Wave}
    (h : read ++ next :: later = w.letters ++ ['(']) : Text.isBlank next = false := by
  have hall : (w.letters ++ ['(']).all (fun c => !Text.isBlank c) = true := by
    cases w <;> decide
  rw [← h] at hall
  simpa using List.all_eq_true.mp hall next (by simp)

/-- The open groups of a state are the parentheses that are open in what has been
read. -/
theorem Consumed.count {limit : Nat} {t : State} {text : List Char} (h : Consumed limit t text) :
    text.count '(' = text.count ')' + t.groups.length := by
  cases h with
  | factor outer preceded =>
    simp only [List.count_append, outer.count, preceded.balanced]
    omega
  | call outer preceded spelled =>
    obtain ⟨hopen, hclose⟩ := count_of_spelled spelled
    simp only [List.count_append, outer.count, preceded.balanced, hopen, hclose]
    omega
  | constant outer preceded =>
    have hletter : ['p'].count '(' = 0 ∧ ['p'].count ')' = 0 := by decide
    simp only [List.count_append, outer.count, preceded.balanced, hletter]
    omega
  | product outer product =>
    simp only [List.count_append, outer.count, product.balanced]
    omega

theorem count_of_reads {limit : Nat} {t : State} {text : List Char}
    (run : Reads limit .start text t) :
    text.count '(' = text.count ')' + t.groups.length :=
  (consumed_of_reads run).count

/-- No blank moves the reader. -/
theorem Consumed.isBlank_of_move {limit : Nat} {s t : State} {text : List Char} {c : Char}
    (h : Consumed limit s text) (move : Move s c t) : Text.isBlank c = false := by
  cases move with
  | coord _ _ a => exact Axis.isBlank_letter a
  | initial _ _ word => exact Word.isBlank_initial word
  | bare => decide
  | letter =>
    cases h with
    | call _ _ spelled => exact isBlank_of_spelled spelled
  | call =>
    cases h with
    | call _ _ spelled => exact isBlank_of_spelled spelled
  | constant =>
    cases h with
    | constant => decide
  | times => decide
  | close => decide

theorem Consumed.visible_of_reads {limit : Nat} {s t : State} {head text : List Char}
    (h : Consumed limit s head) (run : Reads limit s text t) : Text.visible text = text := by
  induction run generalizing head with
  | nil => rfl
  | cons move below _ ih =>
    rw [Text.visible_cons_of_not_isBlank (h.isBlank_of_move move), ih (h.move move below)]

theorem visible_of_reads {limit : Nat} {t : State} {text : List Char}
    (run : Reads limit .start text t) : Text.visible text = text :=
  Consumed.visible_of_reads (.factor .nil .none) run

end Reader

namespace Expr

open Reader

/-- A derived text within the limit is read to its tree. -/
theorem parse_ofList_of_derives {s : List Char} {e : Expr}
    (h : Derives .product maxNesting s e) : parse (String.ofList s) = .ok e := by
  have run := (derives_iff_reads _ _ _).mp h
  rw [parse_eq_ok_iff, String.toList_ofList, visible_of_reads run]
  exact run

end Expr

end TrigPainting
