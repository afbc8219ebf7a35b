import TrigPainting.Proofs.Expr.Reading

/-!
# Blanks between the characters of an expression

Blanks are passed over wherever they stand, so two texts with the same visible characters
move the reader through the same states. They have the same expression, or both are refused
for the same reason and at the same place. Only the number that names the place counts the
blanks in front of it.

## Main definitions

- `Text.numbered` — the visible characters of a text with their indices
- `SamePlace` — indices of two texts with the same number of visible characters before them

## Main statements

- `Reader.Stops.transport` — where the reader stops in one text, it stops in the other
- `Expr.parse_congr_visible` — reading depends on the visible characters alone
-/

namespace TrigPainting

namespace Text

/-- The visible characters of a text, in order, each with its index in the text. -/
def numbered (text : List Char) : List (Char × Nat) :=
  text.zipIdx.filter fun x => !isBlank x.1

theorem map_fst_numbered (text : List Char) : (numbered text).map Prod.fst = visible text := by
  have hfirst := List.filter_map (p := fun c => !isBlank c) (f := Prod.fst) (l := text.zipIdx)
  rw [List.zipIdx_map_fst] at hfirst
  exact hfirst.symm

/-- A visible character has the number of the visible characters before it. -/
theorem getElem?_numbered_append_cons {c : Char} (h : isBlank c = false) (head tail : List Char) :
    (numbered (head ++ c :: tail))[(visible head).length]? = some (c, head.length) := by
  have hbefore : (visible head).length = (numbered head).length := by
    rw [← map_fst_numbered, List.length_map]
  have hsplit : numbered (head ++ c :: tail) =
      numbered head ++ (c, head.length) ::
        (tail.zipIdx (head.length + 1)).filter fun x => !isBlank x.1 := by
    simp [numbered, List.zipIdx_append, List.zipIdx_cons, h]
  rw [hsplit, hbefore, List.getElem?_append_right (Nat.le_refl _), Nat.sub_self]
  rfl

/-- A text goes on in front of each of its visible characters. -/
theorem exists_split_of_visible {text before after : List Char} {c : Char}
    (h : visible text = before ++ c :: after) :
    ∃ head tail, text = head ++ c :: tail ∧ visible head = before ∧ isBlank c = false := by
  obtain ⟨left, right, rfl, rfl, hright⟩ := List.filter_eq_append_iff.mp h
  obtain ⟨gap, tail, rfl, hgap, hc, -⟩ := List.filter_eq_cons_iff.mp hright
  have hblank : visible gap = [] := List.filter_eq_nil_iff.mpr hgap
  refine ⟨left ++ gap, tail, by simp, ?_, by simpa using hc⟩
  rw [visible_append, hblank, List.append_nil]
  rfl

end Text

/-- **The same place** in two texts: in front of the visible character of one number, or the
end of both. -/
inductive SamePlace (a b : List Char) : Option Char → Nat → Nat → Prop
  | visible {k i j : Nat} {c : Char} (left : (Text.numbered a)[k]? = some (c, i))
      (right : (Text.numbered b)[k]? = some (c, j)) : SamePlace a b (some c) i j
  | ended : SamePlace a b none a.length b.length

namespace Reader

/-- Where the reader stops in one text, it stops in every text with the same visible
characters. -/
theorem Stops.transport {t : State} {head tail other : List Char} {found : Option Char}
    {expected : Expected} (hstop : Stops t tail found expected)
    (h : Text.visible (head ++ tail) = Text.visible other) :
    ∃ head' tail', other = head' ++ tail' ∧ Text.visible head' = Text.visible head ∧
      Stops t tail' found expected ∧
        SamePlace (head ++ tail) other found head.length head'.length := by
  cases hstop with
  | ended hfinish =>
    rw [List.append_nil] at h ⊢
    exact ⟨other, [], by simp, h.symm, .ended hfinish, .ended⟩
  | @refused c rest _ hvisible hstep =>
    rw [Text.visible_append, Text.visible_cons_of_not_isBlank hvisible] at h
    obtain ⟨head', tail', rfl, hhead, -⟩ := Text.exists_split_of_visible h.symm
    refine ⟨head', c :: tail', rfl, hhead, .refused hvisible hstep, ?_⟩
    exact .visible (Text.getElem?_numbered_append_cons hvisible head rest)
      (hhead ▸ Text.getElem?_numbered_append_cons hvisible head' tail')

/-- From one state, two texts with the same visible characters are read alike. -/
theorem read_congr_visible {s : State} (hs : s.nesting ≤ maxNesting) {a b : List Char}
    (h : Text.visible a = Text.visible b) (i j : Nat) :
    (∃ e, s.read i a = .ok e ∧ s.read j b = .ok e) ∨
      ∃ m n found expected, s.read i a = .error ⟨i + m, found, expected⟩ ∧
        s.read j b = .error ⟨j + n, found, expected⟩ ∧ SamePlace a b found m n := by
  obtain ⟨e, run⟩ | ⟨head, tail, t, found, expected, rfl, run, hstop⟩ := reads_or_stops hs a
  · exact .inl ⟨e, read_of_reads run i, read_of_reads (h ▸ run) j⟩
  · obtain ⟨head', tail', rfl, hhead, hstop', place⟩ := hstop.transport h
    have run' : Reads maxNesting s (Text.visible head') t := by rwa [hhead]
    exact .inr ⟨head.length, head'.length, found, expected, read_of_stops run hstop i,
      read_of_stops run' hstop' j, place⟩

end Reader

namespace Expr

open Reader

/-- **Blanks do not matter** except in the numbers of places: texts with the same visible
characters have the same expression, or both are refused with the same character found and
the same expected. Then both errors stand at the visible character of one number, or both at
the end. -/
theorem parse_congr_visible {a b : String}
    (h : Text.visible a.toList = Text.visible b.toList) :
    (∃ e, parse a = .ok e ∧ parse b = .ok e) ∨
      ∃ i j found expected, parse a = .error ⟨i, found, expected⟩ ∧
        parse b = .error ⟨j, found, expected⟩ ∧
        ((∃ (k : Nat) (c : Char), found = some c ∧ (Text.numbered a.toList)[k]? = some (c, i) ∧
            (Text.numbered b.toList)[k]? = some (c, j)) ∨
          (found = none ∧ i = a.length ∧ j = b.length)) := by
  have hstart : State.start.nesting ≤ maxNesting := Nat.zero_le _
  obtain hok | ⟨i, j, found, expected, ha, hb, place⟩ := read_congr_visible hstart h 0 0
  · exact .inl hok
  · rw [Nat.zero_add] at ha hb
    refine .inr ⟨i, j, found, expected, ha, hb, ?_⟩
    cases place with
    | @visible k _ _ c left right => exact .inl ⟨k, c, rfl, left, right⟩
    | ended => exact .inr ⟨rfl, String.length_toList, String.length_toList⟩

/-- The `q` is refused in both texts, also where a blank splits the word before it. -/
theorem parse_congr_visible_of_split_word :
    Text.visible "sin( x  q".toList = Text.visible "s in(\txq\n".toList ∧
      parse "sin( x  q" = .error ⟨8, some 'q', .closing⟩ ∧
      parse "s in(\txq\n" = .error ⟨7, some 'q', .closing⟩ ∧
      ∃ k : Nat, (Text.numbered "sin( x  q".toList)[k]? = some ('q', 8) ∧
        (Text.numbered "s in(\txq\n".toList)[k]? = some ('q', 7) := by
  have hvisible : Text.visible "sin( x  q".toList = Text.visible "s in(\txq\n".toList := by
    decide
  have hleft : parse "sin( x  q" = .error ⟨8, some 'q', .closing⟩ := rfl
  have hright : parse "s in(\txq\n" = .error ⟨7, some 'q', .closing⟩ := rfl
  refine ⟨hvisible, hleft, hright, ?_⟩
  obtain ⟨e, hok, -⟩ | ⟨i, j, found, expected, ha, hb, place⟩ := parse_congr_visible hvisible
  · rw [hleft] at hok
    cases hok
  · rw [hleft] at ha
    rw [hright] at hb
    cases ha
    cases hb
    obtain ⟨k, c, hfound, hk, hk'⟩ | ⟨hfound, -⟩ := place
    · cases hfound
      exact ⟨k, hk, hk'⟩
    · cases hfound

end Expr

end TrigPainting
