import TrigPainting.Proofs.Expr.Canonical

/-!
# Writing and reading back

A tree that nests within the limit is read back from its text as its normal form. A
tree that nests deeper is refused at the first function name of its text in front of
which all the groups that are allowed are open.

## Main definitions

- `CallAt`, `OpenAt` — a function name at an index, the parentheses open before it
- `FirstCallBeyond` — the first function name that opens a group too many

## Main statements

- `Expr.parse_text` — what reading makes of the text of a tree
-/

namespace TrigPainting

/-- The name of a wave and its parenthesis stand at an index of a text. -/
def CallAt (text : List Char) (w : Wave) (i : Nat) : Prop :=
  w.letters ++ ['('] <+: text.drop i

/-- Before an index of a text, `n` parentheses have been opened and not closed. -/
def OpenAt (text : List Char) (n i : Nat) : Prop :=
  (text.take i).count '(' = (text.take i).count ')' + n

/-- The first function name of a text that stands where `n` groups are open. -/
structure FirstCallBeyond (n : Nat) (text : List Char) (w : Wave) (i : Nat) : Prop where
  call : CallAt text w i
  full : OpenAt text n i
  first : ∀ (j : Nat) (v : Wave), j < i → CallAt text v j → ¬ OpenAt text n j

namespace Reader

/-- The limit lets no call begin where all groups are open. -/
theorem Consumed.length_lt_of_move {limit : Nat} {s t : State} {text : List Char} {w : Wave}
    (h : Consumed limit s text) (hs : s.nesting ≤ limit)
    (move : Move s (Word.call w).initial t) (below : t.nesting ≤ limit) :
    s.groups.length < limit := by
  generalize hc : (Word.call w).initial = c at move
  cases move with
  | coord _ _ a => exact absurd hc.symm (Axis.letter_ne_initial a _)
  | initial groups _ word =>
    obtain rfl := Word.initial_injective hc
    exact below
  | bare => exact absurd hc (Word.initial_ne_parenthesis _)
  | letter _ word =>
    cases h with
    | call => exact hs
  | call => exact hs
  | constant =>
    cases h with
    | constant => cases w <;> exact absurd hc (by decide)
  | times => cases w <;> exact absurd hc (by decide)
  | close => cases w <;> exact absurd hc (by decide)

/-- A call that the reader comes to when all groups are open is the first such call:
it has read all that stands before. -/
theorem firstCallBeyond_of_reads {limit : Nat} {head tail : List Char} {w : Wave}
    {inner : List Group} {left : Option Expr} (hinner : inner.length = limit)
    (run : Reads limit .start head ⟨inner, .factor left⟩) :
    FirstCallBeyond limit (head ++ (w.letters ++ '(' :: tail)) w head.length where
  call := by
    rw [CallAt, List.drop_left]
    exact ⟨tail, by simp⟩
  full := by
    rw [OpenAt, List.take_left, count_of_reads run, hinner]
  first := by
    intro j v hj hcall hopen
    -- What stands before index `j` has been read, and so has the first letter there.
    have hsplit : head = head.take j ++ head[j] :: head.drop (j + 1) := by
      rw [← List.drop_eq_getElem_cons hj, List.take_append_drop]
    obtain ⟨u, before, after⟩ := (hsplit ▸ run : Reads limit .start _ _).split
    cases after with
    | cons move below _ =>
      have hletter : (Word.call v).initial = head[j] := by
        rw [CallAt, List.drop_append_of_le_length (Nat.le_of_lt hj),
          List.drop_eq_getElem_cons hj] at hcall
        cases v <;> exact (List.cons_prefix_cons.mp hcall).1
      have hlt : u.groups.length < limit :=
        (consumed_of_reads before).length_lt_of_move (before.nesting_le (Nat.zero_le _))
          (hletter ▸ move) below
      rw [OpenAt, List.take_append_of_le_length (Nat.le_of_lt hj), count_of_reads before] at hopen
      omega

end Reader

namespace Expr

open Reader

/-- The text of a tree that nests too deep is refused where its first call stands that
finds every group open. -/
theorem parse_text_of_lt_nesting {e : Expr} (h : maxNesting < e.nesting) :
    ∃ w i, FirstCallBeyond maxNesting e.chars w i ∧
      parse e.text = .error ⟨i, w.letters.head?, .shallower⟩ := by
  obtain ⟨head, tail, w, inner, left, hchars, hinner, run⟩ := runsOut_of_lt_nesting h
  refine ⟨w, head.length, hchars ▸ firstCallBeyond_of_reads hinner run, ?_⟩
  refine (parse_eq_error_iff _ _).mpr
    ⟨head, w.letters ++ '(' :: tail, ⟨inner, .factor left⟩, ?_, rfl, ?_, ?_⟩
  · rw [text, String.toList_ofList, hchars]
  · rwa [visible_of_reads run]
  · have refused : ¬ inner.length < maxNesting := by omega
    cases w with
    | sine => exact .refused (by decide) (if_neg refused)
    | cosine => exact .refused (by decide) (if_neg refused)

/-- The text of a tree within the limit is read back as its normal form. -/
theorem parse_text_of_nesting_le {e : Expr} (h : e.nesting ≤ maxNesting) :
    parse e.text = .ok e.normalForm := by
  rw [parse_eq_ok_iff, text, String.toList_ofList, visible_chars]
  exact reads_normalForm e h

/-- **Round trip**: a tree within the limit is read back as its normal form, and a deeper
one is refused at the first call that opens the 257th group. -/
theorem parse_text (e : Expr) :
    (e.nesting ≤ 256 → parse e.text = .ok e.normalForm ∧ e.normalForm.text = e.text) ∧
      (e.normalForm = e ↔ e.IsPlain ∧ e.IsLeftNested) ∧
      (256 < e.nesting → ∃ w i, FirstCallBeyond 256 e.chars w i ∧
        parse e.text = .error ⟨i, w.letters.head?, .shallower⟩) := by
  refine ⟨fun h => ⟨?_, e.text_normalForm⟩, e.normalForm_eq_self_iff, parse_text_of_lt_nesting⟩
  exact parse_text_of_nesting_le h

theorem parse_text_around_limit :
    (Nat.repeat (piWave .sine) 256 (coord .x)).nesting ≤ 256 ∧
      parse (Nat.repeat (piWave .sine) 256 (coord .x)).text =
        .ok (Nat.repeat (piWave .sine) 256 (coord .x)).normalForm ∧
      256 < (Nat.repeat (wave .cosine) 257 pi).nesting ∧
      ∃ w i, FirstCallBeyond 256 (Nat.repeat (wave .cosine) 257 pi).chars w i ∧
        parse (Nat.repeat (wave .cosine) 257 pi).text = .error ⟨i, w.letters.head?, .shallower⟩ := by
  have within : (Nat.repeat (piWave .sine) 256 (coord .x)).nesting ≤ 256 := by decide +kernel
  have beyond : 256 < (Nat.repeat (wave .cosine) 257 pi).nesting := by decide +kernel
  exact ⟨within, ((parse_text _).1 within).1, beyond, (parse_text _).2.2 beyond⟩

end Expr

end TrigPainting
