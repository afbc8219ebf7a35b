import TrigPainting.Proofs.Expr.Depth
import TrigPainting.Proofs.Expr.Levels

/-!
# What reading and writing does to a text

A text that is read and written again loses its blanks and the parentheses that only group,
and nothing else: what is left stands in the same order. Which parentheses these are is said of
the text alone. A parenthesis is opened without a name unless the name of a wave stands
directly before it, and the parenthesis that closes it is the one up to which all others are
paired.

## Main definitions

- `IsBalanced`, `Pairs` — paired parentheses
- `OpensBare`, `IsGrouping` — the parentheses of groups without a name
- `ungrouped` — a text without them

## Main statements

- `Pairs.unique` — a parenthesis closes one other
- `kept_of_derives` — what is left of a derived text inside any other
- `Expr.text_of_parse` — the text of what is read
-/

namespace TrigPainting

/-- Every parenthesis of the text has its counterpart there. -/
structure IsBalanced (q : List Char) : Prop where
  count_eq : q.count '(' = q.count ')'
  count_le : ∀ n ≤ q.length, (q.take n).count ')' ≤ (q.take n).count '('

instance (q : List Char) : Decidable (IsBalanced q) :=
  decidable_of_iff (q.count '(' = q.count ')' ∧
      ∀ n ≤ q.length, (q.take n).count ')' ≤ (q.take n).count '(')
    ⟨fun h => ⟨h.1, h.2⟩, fun h => ⟨h.count_eq, h.count_le⟩⟩

/-- The parenthesis at index `i` closes the one at index `j`: those between them are paired
with each other. -/
structure Pairs (s : List Char) (j i : Nat) : Prop where
  opened : s[j]? = some '('
  closed : s[i]? = some ')'
  lt : j < i
  between : IsBalanced ((s.take i).drop (j + 1))

instance (s : List Char) (j i : Nat) : Decidable (Pairs s j i) :=
  decidable_of_iff (s[j]? = some '(' ∧ s[i]? = some ')' ∧ j < i ∧
      IsBalanced ((s.take i).drop (j + 1)))
    ⟨fun h => ⟨h.1, h.2.1, h.2.2.1, h.2.2.2⟩, fun h => ⟨h.opened, h.closed, h.lt, h.between⟩⟩

/-- The name of a wave stands at the end of a text. -/
def EndsInName (q : List Char) : Prop :=
  ['s', 'i', 'n'] <:+ q ∨ ['c', 'o', 's'] <:+ q

instance (q : List Char) : Decidable (EndsInName q) :=
  inferInstanceAs (Decidable (_ ∨ _))

/-- At index `i` a parenthesis is opened that does not directly follow a name. -/
def OpensBare (s : List Char) (i : Nat) : Prop :=
  s[i]? = some '(' ∧ ¬ EndsInName (s.take i)

instance (s : List Char) (i : Nat) : Decidable (OpensBare s i) :=
  inferInstanceAs (Decidable (_ ∧ _))

/-- At index `i` stands a parenthesis of a group without a name. -/
def IsGrouping (s : List Char) (i : Nat) : Prop :=
  OpensBare s i ∨ ∃ j, j < i ∧ OpensBare s j ∧ Pairs s j i

instance (s : List Char) (i : Nat) : Decidable (IsGrouping s i) :=
  inferInstanceAs (Decidable (_ ∨ _))

/-- A text without the parentheses of groups that have no name. -/
def ungrouped (s : List Char) : List Char :=
  (s.zipIdx.filter fun x => ¬ IsGrouping s x.2).map Prod.fst

example : ungrouped "((x)*sin((y*pi)))*(cos(x))".toList = "x*sin(y*pi)*cos(x)".toList := by
  decide +kernel

variable {s pre inner part post a b : List Char} {i j j' : Nat}

-- ════════════════════════════════════════════════════════════════════════
-- Paired parentheses
-- ════════════════════════════════════════════════════════════════════════

namespace IsBalanced

theorem count_take_le (h : IsBalanced a) (n : Nat) :
    (a.take n).count ')' ≤ (a.take n).count '(' := by
  by_cases hn : n ≤ a.length
  · exact h.count_le n hn
  · rw [List.take_of_length_le (by omega)]
    exact Nat.le_of_eq h.count_eq.symm

theorem of_not_mem (h : '(' ∉ a ∧ ')' ∉ a) : IsBalanced a := by
  constructor
  · rw [List.count_eq_zero.mpr h.1, List.count_eq_zero.mpr h.2]
  · intro n _
    rw [List.count_eq_zero.mpr fun hmem => h.2 (List.mem_of_mem_take hmem)]
    exact Nat.zero_le _

theorem append (ha : IsBalanced a) (hb : IsBalanced b) : IsBalanced (a ++ b) := by
  constructor
  · rw [List.count_append, List.count_append, ha.count_eq, hb.count_eq]
  · intro n _
    have hleft := ha.count_take_le n
    have hright := hb.count_take_le (n - a.length)
    rw [List.take_append, List.count_append, List.count_append]
    omega

theorem enclose (h : IsBalanced inner) : IsBalanced ('(' :: inner ++ [')']) := by
  have hcount := h.count_eq
  constructor
  · simp [hcount]
  · intro n _
    cases n with
    | zero => exact Nat.le_refl 0
    | succ n =>
      have hinner := h.count_take_le n
      have hlast : ([')'].take (n - inner.length)).count ')' ≤ 1 :=
        (List.take_sublist _ _).count_le ')'
      rw [List.cons_append, List.take_succ_cons, List.take_append, List.count_cons_self,
        List.count_cons_of_ne (by decide), List.count_append, List.count_append]
      omega

end IsBalanced

theorem drop_take_split {c : Char} (hlt : j < j') (hj' : s[j']? = some c) (hi : j' < i) :
    (s.take i).drop (j + 1) = (s.take j').drop (j + 1) ++ c :: (s.take i).drop (j' + 1) := by
  obtain ⟨hlength, hc⟩ := List.getElem?_eq_some_iff.mp hj'
  have hbelow : j' < (s.take i).length := by
    rw [List.length_take]
    omega
  have hsplit : s.take i = s.take j' ++ c :: (s.take i).drop (j' + 1) :=
    calc s.take i = (s.take i).take j' ++ (s.take i).drop j' := (List.take_append_drop ..).symm
      _ = s.take j' ++ c :: (s.take i).drop (j' + 1) := by
        rw [List.take_take, Nat.min_eq_left (Nat.le_of_lt hi), List.drop_eq_getElem_cons hbelow,
          List.getElem_take, hc]
  have hwithin : j + 1 ≤ (s.take j').length := by
    rw [List.length_take]
    omega
  have hdrop := congrArg (List.drop (j + 1)) hsplit
  rwa [List.drop_append_of_le_length hwithin] at hdrop

/-- Of two parentheses that one closes, the first would leave the second unpaired. -/
theorem Pairs.not_lt (h : Pairs s j i) (h' : Pairs s j' i) : ¬ j < j' := by
  intro hlt
  have hsplit := drop_take_split hlt h'.opened h'.lt
  have houter := h.between.count_eq
  have hprefix := h.between.count_take_le ((s.take j').drop (j + 1)).length
  have hinner := h'.between.count_eq
  rw [hsplit, List.take_left] at hprefix
  rw [hsplit, List.count_append, List.count_append, List.count_cons_self,
    List.count_cons_of_ne (by decide)] at houter
  omega

theorem Pairs.unique (h : Pairs s j i) (h' : Pairs s j' i) : j = j' :=
  Nat.le_antisymm (Nat.not_lt.mp (h'.not_lt h)) (Nat.not_lt.mp (h.not_lt h'))

/-- The parentheses around balanced contents are a pair. -/
theorem pairs_of_split (hs : s = pre ++ '(' :: inner ++ ')' :: post) (h : IsBalanced inner) :
    Pairs s pre.length (pre.length + 1 + inner.length) := by
  have hafter : s = (pre ++ '(' :: inner) ++ ')' :: post := hs
  have hlength : (pre ++ '(' :: inner).length = pre.length + 1 + inner.length := by
    simp only [List.length_append, List.length_cons]
    omega
  have hcontents : (s.take (pre.length + 1 + inner.length)).drop (pre.length + 1) = inner := by
    rw [← hlength, hafter, List.take_left]
    simp
  refine ⟨by simp [hs], ?_, by omega, by rwa [hcontents]⟩
  rw [← hlength, hafter]
  simp

theorem Derives.isBalanced {symbol : Symbol} {k : Nat} {e : Expr} (h : Derives symbol k s e) :
    IsBalanced s := by
  induction h with
  | coord k letter => exact .of_not_mem (by cases letter <;> decide)
  | pi k => exact .of_not_mem (by decide)
  | call w _ ih =>
    rw [List.append_assoc]
    exact .append (.of_not_mem (by cases w <;> decide)) ih.enclose
  | group _ ih => exact ih.enclose
  | single _ ih => exact ih
  | times _ _ ihothers ihlast =>
    rw [List.append_cons]
    exact (ihothers.append (.of_not_mem (by decide))).append ihlast

-- ════════════════════════════════════════════════════════════════════════
-- Names
-- ════════════════════════════════════════════════════════════════════════

theorem endsInName_append_letters (q : List Char) (w : Wave) : EndsInName (q ++ w.letters) := by
  cases w with
  | sine => exact .inl (List.suffix_append q _)
  | cosine => exact .inr (List.suffix_append q _)

theorem not_endsInName_concat {c : Char} (hn : c ≠ 'n') (hs : c ≠ 's') (q : List Char) :
    ¬ EndsInName (q ++ [c]) := by
  simp [EndsInName, ← List.reverse_prefix, hn.symm, hs.symm]

-- ════════════════════════════════════════════════════════════════════════
-- What is left of a part
-- ════════════════════════════════════════════════════════════════════════

/-- What is left of a part that stands at index `n` of a text. -/
def kept (s : List Char) (n : Nat) (part : List Char) : List Char :=
  ((part.zipIdx n).filter fun x => ¬ IsGrouping s x.2).map Prod.fst

theorem kept_append (s : List Char) (n : Nat) (a b : List Char) :
    kept s n (a ++ b) = kept s n a ++ kept s (n + a.length) b := by
  simp [kept, List.zipIdx_append]

theorem kept_singleton (s : List Char) (n : Nat) (c : Char) :
    kept s n [c] = if IsGrouping s n then [] else [c] := by
  by_cases h : IsGrouping s n <;> simp [kept, h]

theorem not_isGrouping {c : Char} (h : s[i]? = some c) (hopen : c ≠ '(') (hclose : c ≠ ')') :
    ¬ IsGrouping s i := by
  rintro (⟨h', -⟩ | ⟨j, -, -, hpair⟩)
  · exact hopen (Option.some.inj (h.symm.trans h'))
  · exact hclose (Option.some.inj (h.symm.trans hpair.closed))

/-- A part without parentheses is left as it is. -/
theorem kept_eq_self (hs : s = pre ++ part ++ post) (h : '(' ∉ part ∧ ')' ∉ part) :
    kept s pre.length part = part := by
  have hall : (part.zipIdx pre.length).filter (fun x => ¬ IsGrouping s x.2) =
      part.zipIdx pre.length := by
    rw [List.filter_eq_self]
    rintro ⟨c, i⟩ hmem
    obtain ⟨hle, hlt, hc⟩ := List.mem_zipIdx hmem
    have hchar : s[i]? = some c := by
      rw [hs, List.append_assoc, List.getElem?_append_right hle,
        List.getElem?_append_left (by omega), List.getElem?_eq_getElem (by omega), hc]
    have hmem : c ∈ part := hc ▸ List.getElem_mem _
    have hopen : c ≠ '(' := fun heq => h.1 (heq ▸ hmem)
    have hclose : c ≠ ')' := fun heq => h.2 (heq ▸ hmem)
    exact decide_eq_true (not_isGrouping hchar hopen hclose)
  rw [kept, hall, List.zipIdx_map_fst]

theorem opensBare_iff (hs : s = pre ++ '(' :: post) :
    OpensBare s pre.length ↔ ¬ EndsInName pre := by
  simp [OpensBare, hs]

theorem isGrouping_opening_iff (hs : s = pre ++ '(' :: post) :
    IsGrouping s pre.length ↔ ¬ EndsInName pre := by
  rw [← opensBare_iff hs]
  refine ⟨?_, .inl⟩
  rintro (hopen | ⟨j, -, -, hpair⟩)
  · exact hopen
  · have hchar : s[pre.length]? = some '(' := by simp [hs]
    rw [hpair.closed] at hchar
    cases hchar

theorem isGrouping_closing_iff (hs : s = pre ++ '(' :: inner ++ ')' :: post)
    (h : IsBalanced inner) :
    IsGrouping s (pre.length + 1 + inner.length) ↔ ¬ EndsInName pre := by
  have hpair := pairs_of_split hs h
  rw [← opensBare_iff (hs.trans (List.append_assoc ..))]
  constructor
  · rintro (⟨hchar, -⟩ | ⟨j, -, hopen, hother⟩)
    · rw [hpair.closed] at hchar
      cases hchar
    · rwa [hpair.unique hother]
  · exact fun hopen => .inr ⟨_, hpair.lt, hopen, hpair⟩

/-- A group keeps its parentheses if it has a name. -/
theorem kept_group (hs : s = pre ++ '(' :: inner ++ ')' :: post) (h : IsBalanced inner) :
    kept s pre.length ('(' :: inner ++ [')']) =
      if EndsInName pre then '(' :: kept s (pre.length + 1) inner ++ [')']
      else kept s (pre.length + 1) inner := by
  have hopening := isGrouping_opening_iff (hs.trans (List.append_assoc ..))
  have hclosing := isGrouping_closing_iff hs h
  have hparts : kept s pre.length (['('] ++ inner ++ [')']) =
      kept s pre.length ['('] ++ kept s (pre.length + 1) inner ++
        kept s (pre.length + 1 + inner.length) [')'] := by
    rw [kept_append, kept_append, List.length_append, List.length_singleton, Nat.add_assoc]
  change kept s pre.length (['('] ++ inner ++ [')']) = _
  rw [hparts, kept_singleton, kept_singleton]
  by_cases hname : EndsInName pre
  · simp [hopening, hclosing, hname]
  · simp [hopening, hclosing, hname]

/-- **A derived text inside another** keeps the text of its tree, if no name stands directly
before it. -/
theorem kept_of_derives {symbol : Symbol} {k : Nat} {e : Expr} (h : Derives symbol k part e)
    (hs : s = pre ++ part ++ post) (hpre : ¬ EndsInName pre) :
    kept s pre.length part = e.chars := by
  -- The contents of a group stand after its parenthesis, where no name ends.
  have hinside (q : List Char) : ¬ EndsInName (q ++ ['(']) :=
    not_endsInName_concat (by decide) (by decide) q
  induction h generalizing pre post with
  | coord k letter => exact kept_eq_self hs (by cases letter <;> decide)
  | pi k => exact kept_eq_self hs (by decide)
  | @call k inner e w contents ih =>
    have hname : s = pre ++ w.letters ++ ('(' :: inner ++ ')' :: post) := by simp [hs]
    have hgroup : s = (pre ++ w.letters) ++ '(' :: inner ++ ')' :: post := by simp [hs]
    have hinner : s = (pre ++ w.letters ++ ['(']) ++ inner ++ ')' :: post := by simp [hs]
    have hletters := kept_eq_self hname (by cases w <;> decide)
    have hcontents := ih hinner (hinside _)
    rw [List.length_append, List.length_singleton] at hcontents
    rw [List.append_assoc, kept_append, hletters, ← List.length_append,
      kept_group hgroup contents.isBalanced, if_pos (endsInName_append_letters pre w), hcontents,
      Expr.chars_wave, List.append_assoc]
  | @group k inner e contents ih =>
    have hgroup : s = pre ++ '(' :: inner ++ ')' :: post := by simp [hs]
    have hinner : s = (pre ++ ['(']) ++ inner ++ ')' :: post := by simp [hs]
    have hcontents := ih hinner (hinside pre)
    rw [List.length_append, List.length_singleton] at hcontents
    rw [kept_group hgroup contents.isBalanced, if_neg hpre, hcontents]
  | single _ ih => exact ih hs hpre
  | @times k others last lhs rhs _ _ ihothers ihlast =>
    have hleft : s = pre ++ others ++ ('*' :: last ++ post) := by simp [hs]
    have hsign : s = (pre ++ others) ++ ['*'] ++ (last ++ post) := by simp [hs]
    have hright : s = (pre ++ others ++ ['*']) ++ last ++ post := by simp [hs]
    have hothers := ihothers hleft hpre
    have hkept := kept_eq_self hsign (by decide)
    have hlast := ihlast hright (not_endsInName_concat (by decide) (by decide) _)
    rw [List.append_assoc pre] at hlast
    rw [List.append_cons, kept_append, kept_append, hothers, ← List.length_append, hkept,
      ← List.length_append, hlast, Expr.chars_times, List.append_assoc]
    rfl

theorem ungrouped_of_derives {k : Nat} {e : Expr} (h : Derives .product k s e) :
    ungrouped s = e.chars := by
  have hs : s = [] ++ s ++ [] := by simp
  exact kept_of_derives h hs (by decide)

/-- Only texts in which every group has a name are left as they are. -/
theorem ungrouped_eq_self_iff :
    ungrouped s = s ↔ ∀ i : Nat, s[i]? = some '(' → EndsInName (s.take i) := by
  constructor
  · intro h i hi
    have hlength : (s.zipIdx.filter fun x => ¬ IsGrouping s x.2).length = s.zipIdx.length := by
      simpa [ungrouped] using congrArg List.length h
    have hkept := List.length_filter_eq_length_iff.mp hlength _
      (List.mk_mem_zipIdx_iff_getElem?.mpr hi)
    refine Decidable.by_contra fun hname => ?_
    exact of_decide_eq_true hkept (.inl ⟨hi, hname⟩)
  · intro h
    have hnone (i : Nat) : ¬ IsGrouping s i := by
      rintro (⟨hc, hname⟩ | ⟨j, -, ⟨hc, hname⟩, -⟩) <;> exact hname (h _ hc)
    rw [ungrouped, List.filter_eq_self.mpr fun x _ => decide_eq_true (hnone x.2),
      List.zipIdx_map_fst]

namespace Expr

theorem readsBack_of_parse {text : String} {e : Expr} (h : parse text = .ok e) : e.ReadsBack :=
  readsBack_of_nesting_le (Nat.le_trans e.nesting_le_levels (derives_of_parse h).levels_le)

/-- **The text of what is read** is the visible text without the parentheses of groups that
have no name. So a text is the text of its expression if and only if it has no blanks and each
of its parentheses opens directly after a name. And the text of what is read is read again. -/
theorem text_of_parse {text : String} {e : Expr} (h : parse text = .ok e) :
    e.text = String.ofList (ungrouped (Text.visible text.toList)) ∧
      (e.text = text ↔ (∀ c ∈ text.toList, Text.isBlank c = false) ∧
        ∀ i : Nat, text.toList[i]? = some '(' → EndsInName (text.toList.take i)) ∧
      e.ReadsBack := by
  have hchars := ungrouped_of_derives (derives_of_parse h)
  refine ⟨by rw [hchars]; rfl, ⟨fun htext => ?_, ?_⟩, readsBack_of_parse h⟩
  · have hsame : e.chars = text.toList := by rw [← htext, Expr.text, String.toList_ofList]
    have hvisible : Text.visible text.toList = text.toList := hsame ▸ e.visible_chars
    rw [hvisible] at hchars
    exact ⟨Text.visible_eq_self_iff.mp hvisible, ungrouped_eq_self_iff.mp (hchars.trans hsame)⟩
  · rintro ⟨hblank, hnames⟩
    have hvisible := Text.visible_eq_self_iff.mpr hblank
    rw [hvisible, ungrouped_eq_self_iff.mpr hnames] at hchars
    rw [Expr.text, ← hchars, String.ofList_toList]

/-- Blanks inside words and groups inside groups are gone, and the call keeps its own. -/
theorem text_of_parse_of_nested_groups :
    ∃ e, parse "(x) * s in(((y*p i)))" = .ok e ∧ e.text = "x*sin(y*pi)" ∧
      String.ofList (ungrouped (Text.visible "(x) * s in(((y*p i)))".toList)) = "x*sin(y*pi)" ∧
      e.ReadsBack := by
  have h : parse "(x) * s in(((y*p i)))" =
      .ok (times (coord .x) (wave .sine (times (coord .y) pi))) := rfl
  obtain ⟨htext, -, hback⟩ := text_of_parse h
  exact ⟨_, h, rfl, htext.symm.trans rfl, hback⟩

end Expr

end TrigPainting
