import TrigPainting.Proofs.Expr.Balance
import TrigPainting.Proofs.Expr.NormalForm

/-!
# Reading canonical texts

The reader multiplies the factors of a canonical text onto the product to the left,
one by one, and so comes to the normal form of the tree that was written. Since a
text leads to one state only, trees with one text have one normal form.

## Main definitions

- `Reader.RunsOut` — a text with a call for which no level is left

## Main statements

- `Reader.reads_chars` — the run over the text of a tree
- `Expr.text_eq_text_iff` — the text is unambiguous up to normal forms
-/

namespace TrigPainting

namespace Reader

open TrigPainting.Expr

/-- The text of a tree without pi waves is read in front of any open groups that leave
enough levels. -/
theorem reads_chars {limit : Nat} {e : Expr} (he : e.IsPlain) (groups : List Group)
    (before : Option Expr) (h : groups.length + e.nesting ≤ limit) :
    Reads limit ⟨groups, .factor before⟩ e.chars
      ⟨groups, .product (factorsOnto before e)⟩ := by
  have hgroups : groups.length ≤ limit := Nat.le_of_add_right_le h
  induction e generalizing groups before with
  | coord a => exact .single (.coord groups before a) hgroups
  | pi => exact reads_constant hgroups before
  | wave w arg ih =>
    rw [nesting] at h
    have inner := ih he (⟨.call w, before⟩ :: groups) none
      (by rw [List.length_cons]; omega) (by rw [List.length_cons]; omega)
    have closed : Reads limit ⟨⟨.call w, before⟩ :: groups, .product (factorsOnto none arg)⟩
        [')'] ⟨groups, .product (factorsOnto before (wave w arg))⟩ :=
      reads_close hgroups ⟨.call w, before⟩ _
    have run := ((reads_call (by omega) w before).append inner).append closed
    rw [chars_wave]
    simpa using run
  | piWave _ _ _ => exact he.elim
  | times lhs rhs ihl ihr =>
    rw [nesting] at h
    have left := ihl he.1 groups before (by omega) hgroups
    have right := ihr he.2 groups (some (factorsOnto before lhs)) (by omega) hgroups
    have run := (left.append (reads_times hgroups _)).append right
    rw [chars_times, factorsOnto]
    simpa using run

/-- The text of a tree is read to its normal form, below any limit that it meets. -/
theorem reads_normalForm {limit : Nat} (e : Expr) (h : e.nesting ≤ limit) :
    Reads limit .start e.chars ⟨[], .product e.normalForm⟩ := by
  have hlevels : ([] : List Group).length + e.expand.nesting ≤ limit := by
    rw [nesting_expand]
    simpa using h
  have run := reads_chars e.isPlain_expand [] none hlevels
  rwa [chars_expand] at run

/-- A text is read from a state up to a call that finds as many open groups as the limit
allows. -/
def RunsOut (limit : Nat) (s : State) (text : List Char) : Prop :=
  ∃ (head tail : List Char) (w : Wave) (inner : List Group) (left : Option Expr),
    text = head ++ (w.letters ++ '(' :: tail) ∧ inner.length = limit ∧
      Reads limit s head ⟨inner, .factor left⟩

theorem RunsOut.append {limit : Nat} {s : State} {text : List Char} (h : RunsOut limit s text)
    (more : List Char) : RunsOut limit s (text ++ more) := by
  obtain ⟨head, tail, w, inner, left, rfl, hinner, run⟩ := h
  exact ⟨head, tail ++ more, w, inner, left, by simp, hinner, run⟩

theorem Reads.runsOut {limit : Nat} {s t : State} {read text : List Char}
    (run : Reads limit s read t) (h : RunsOut limit t text) : RunsOut limit s (read ++ text) := by
  obtain ⟨head, tail, w, inner, left, rfl, hinner, rest⟩ := h
  exact ⟨read ++ head, tail, w, inner, left, by simp, hinner, run.append rest⟩

/-- Where a tree nests deeper than the levels that are left, the reader runs out of
them in its text. -/
theorem runsOut_chars {limit k : Nat} {e : Expr} (he : e.IsPlain) (groups : List Group)
    (before : Option Expr) (hk : groups.length + k = limit) (h : k < e.nesting) :
    RunsOut limit ⟨groups, .factor before⟩ e.chars := by
  induction e generalizing k groups before with
  | coord _ => exact absurd h (Nat.not_lt_zero k)
  | pi => exact absurd h (Nat.not_lt_zero k)
  | wave w arg ih =>
    rw [nesting] at h
    rw [chars_wave]
    cases k with
    | zero => exact ⟨[], arg.chars ++ [')'], w, groups, before, by simp, hk, .nil _⟩
    | succ k =>
      have inner := ih he (⟨.call w, before⟩ :: groups) none
        (by rw [List.length_cons]; omega) (Nat.lt_of_succ_lt_succ h)
      have run := ((reads_call (by omega) w before).runsOut inner).append [')']
      simpa using run
  | piWave _ _ _ => exact he.elim
  | times lhs rhs ihl ihr =>
    rw [nesting] at h
    rw [chars_times]
    by_cases hl : k < lhs.nesting
    · have left := (ihl he.1 groups before hk hl).append ('*' :: rhs.chars)
      simpa using left
    · have left : Reads limit _ lhs.chars _ := reads_chars he.1 groups before (by omega)
      have right := ihr he.2 groups (some (factorsOnto before lhs)) hk (by omega)
      have run := (left.append (reads_times (by omega) _)).runsOut right
      simpa using run

/-- The reader runs out of levels in the text of a tree that nests deeper than the
limit. -/
theorem runsOut_of_lt_nesting {limit : Nat} {e : Expr} (h : limit < e.nesting) :
    RunsOut limit .start e.chars := by
  rw [← chars_expand]
  exact runsOut_chars e.isPlain_expand [] none (Nat.zero_add limit) (by rwa [nesting_expand])

end Reader

namespace Expr

open Reader

theorem visible_chars (e : Expr) : Text.visible e.chars = e.chars :=
  visible_of_reads (reads_normalForm e (Nat.le_refl _))

/-- Trees of any depth have the same characters if and only if they have the same normal form:
the reader comes to one state only. -/
theorem chars_eq_chars_iff (a b : Expr) : a.chars = b.chars ↔ a.normalForm = b.normalForm := by
  constructor
  · intro h
    have runa := reads_normalForm a (Nat.le_refl _)
    have runb := reads_normalForm b (Nat.le_refl _)
    rw [← h] at runb
    simpa using runa.unique runb
  · intro h
    rw [← chars_normalForm a, h, chars_normalForm b]

theorem text_eq_text_iff_chars (a b : Expr) : a.text = b.text ↔ a.chars = b.chars :=
  String.ofList_inj

/-- **Unique readability**: two trees of any depth have the same text if and only if they
have the same normal form. -/
theorem text_eq_text_iff (a b : Expr) : a.text = b.text ↔ a.normalForm = b.normalForm :=
  (text_eq_text_iff_chars a b).trans (chars_eq_chars_iff a b)

end Expr

end TrigPainting
