import Mathlib.Data.List.Forall2
import TrigPainting.Proofs.Palette.Reading

/-!
# What does not matter in a details text

Reading depends on what the keyed lines tell, and in a text without malformed lines on
what they tell of each channel by itself. So lines without a key, blanks around a line,
the endings of lines and the order of lines for different channels can be changed.

## Main definitions

- `Palette.IsKeyed` — a line has the key of some channel
- `Palette.told?` — what a line tells
- `Palette.SameByChannel` — two texts with the same lines for every channel

## Main statements

- `Palette.ofDetailsChars_congr_told` — only what the lines tell is read
- `Palette.ofDetailsChars_congr_channels` — in any order of the channels
- `Palette.ofDetails_decided_by_keyed_lines` — all of the meaning of a text
-/

namespace TrigPainting.Palette

/-- A line, once trimmed, starts with the key of some channel and a colon. -/
def IsKeyed (line : List Char) : Prop :=
  ∃ c ∈ Channel.all, IsKeyedFor c line

instance : DecidablePred IsKeyed := fun line =>
  inferInstanceAs (Decidable (∃ c ∈ Channel.all, IsKeyedFor c line))

/-- What a line tells: a channel and the text of its expression. -/
def told? (line : List Char) : Option (Channel × List Char) :=
  keyed? (Text.trim line)

/-- Two lists of lines have the same lines for every channel, in the same order. -/
def SameByChannel (lines others : List (List Char)) : Prop :=
  ∀ c, lines.filter (fun line => decide (IsKeyedFor c line)) =
    others.filter fun line => decide (IsKeyedFor c line)

theorem told?_eq_none_iff {line : List Char} : told? line = none ↔ ¬ IsKeyed line := by
  rw [told?, keyed?_trim_eq_none_iff]
  constructor
  · rintro hunkeyed ⟨c, -, hkeyed⟩
    exact hunkeyed c hkeyed
  · intro hunkeyed c hkeyed
    exact hunkeyed ⟨c, c.mem_all, hkeyed⟩

-- ════════════════════════════════════════════════════════════════════════
-- What the lines tell
-- ════════════════════════════════════════════════════════════════════════

/-- The draft after what some lines tell, or the first error among it. -/
def Draft.readTold (draft : Draft) : List (Channel × List Char) → Except PaletteError Draft
  | [] => .ok draft
  | (c, expression) :: others =>
    match Expr.parseChars expression with
    | .ok tree => (draft.set c tree).readTold others
    | .error cause => .error (.malformed c (cause.shift (c.key.length + 1)))

theorem Draft.readLines_eq_readTold (draft : Draft) (lines : List (List Char)) :
    draft.readLines lines = draft.readTold (lines.filterMap told?) := by
  induction lines generalizing draft with
  | nil => rfl
  | cons line others ih =>
    rw [readLines, readLine, List.filterMap_cons, told?]
    cases keyed? (Text.trim line) with
    | none => exact ih draft
    | some said =>
      obtain ⟨c, expression⟩ := said
      dsimp only
      rw [readTold]
      cases Expr.parseChars expression with
      | ok tree => exact ih (draft.set c tree)
      | error cause => rfl

/-- Texts whose lines tell the same have the same palette or error. -/
theorem ofDetailsChars_congr_told {text other : List Char}
    (h : (Text.lines text).filterMap told? = (Text.lines other).filterMap told?) :
    ofDetailsChars text = ofDetailsChars other := by
  rw [ofDetailsChars, ofDetailsChars, Draft.readLines_eq_readTold, Draft.readLines_eq_readTold, h]

theorem filterMap_told?_filter_isKeyed (lines : List (List Char)) :
    (lines.filter fun line => decide (IsKeyed line)).filterMap told? = lines.filterMap told? := by
  rw [List.filterMap_filter]
  refine List.filterMap_congr fun line _ => ?_
  by_cases h : IsKeyed line
  · simp [h]
  · simp [h, told?_eq_none_iff.mpr h]

/-- What a line tells is the same once it is trimmed. -/
theorem filterMap_told?_eq_of_map_trim {lines others : List (List Char)}
    (h : lines.map Text.trim = others.map Text.trim) :
    lines.filterMap told? = others.filterMap told? := by
  have hmap : ∀ l : List (List Char), l.filterMap told? = (l.map Text.trim).filterMap keyed? := by
    intro l
    rw [List.filterMap_map]
    rfl
  rw [hmap, hmap, h]

theorem map_trim_eq_of_padded {lines others : List (List Char)}
    (h : List.Forall₂ Text.Padded lines others) :
    others.map Text.trim = lines.map Text.trim := by
  induction h with
  | nil => rfl
  | cons hline _ ih => rw [List.map_cons, List.map_cons, Text.trim_eq_of_padded hline, ih]

-- ════════════════════════════════════════════════════════════════════════
-- The order of the channels
-- ════════════════════════════════════════════════════════════════════════

variable {lines others : List (List Char)}

theorem SameByChannel.mem_iff (h : SameByChannel lines others) {line : List Char} {c : Channel}
    (hkeyed : IsKeyedFor c line) : line ∈ lines ↔ line ∈ others := by
  have hfilter : ∀ l : List (List Char),
      line ∈ l ↔ line ∈ l.filter fun line => decide (IsKeyedFor c line) := by
    intro l
    simp [hkeyed]
  rw [hfilter lines, hfilter others, h c]

theorem SameByChannel.not_keyed_iff (h : SameByChannel lines others) (c : Channel) :
    (∀ line ∈ lines, ¬ IsKeyedFor c line) ↔ ∀ line ∈ others, ¬ IsKeyedFor c line := by
  constructor
  · intro hunkeyed line hmem hkeyed
    exact hunkeyed line ((h.mem_iff hkeyed).mpr hmem) hkeyed
  · intro hunkeyed line hmem hkeyed
    exact hunkeyed line ((h.mem_iff hkeyed).mp hmem) hkeyed

/-- A malformed line has a key, so it is in both texts or in neither. -/
theorem SameByChannel.readable (h : SameByChannel lines others)
    (hreadable : ∀ line ∈ lines, ¬ Malformed line) : ∀ line ∈ others, ¬ Malformed line := by
  intro line hmem hmalformed
  obtain ⟨c, hkeyed⟩ := hmalformed.exists_isKeyedFor
  exact hreadable line ((h.mem_iff hkeyed).mpr hmem) hmalformed

theorem SameByChannel.lastTells (h : SameByChannel lines others) {c : Channel} {tree : Expr}
    (hlast : LastTells lines c tree) : LastTells others c tree := by
  obtain ⟨line, expression, hline, htells, hparse⟩ := hlast
  rw [isLast_iff_getLast?_filter, h c, ← isLast_iff_getLast?_filter] at hline
  exact ⟨line, expression, hline, htells, hparse⟩

/-- Without malformed lines, the lines of each channel are all that counts. -/
theorem Describes.of_sameByChannel {result : Except PaletteError Palette}
    (h : Describes lines result) (hsame : SameByChannel lines others)
    (hreadable : ∀ line ∈ lines, ¬ Malformed line) : Describes others result := by
  have hothers := hsame.readable hreadable
  cases h with
  | malformed first => exact absurd first.holds (hreadable _ first.mem)
  | missing _ first =>
    simp only [hsame.not_keyed_iff] at first
    exact .missing hothers first
  | complete _ last => exact .complete hothers fun c => hsame.lastTells (last c)

theorem ofDetailsChars_congr_channels {text other : List Char}
    (h : SameByChannel (Text.lines text) (Text.lines other))
    (hreadable : ∀ line ∈ Text.lines text, ¬ Malformed line) :
    ofDetailsChars text = ofDetailsChars other :=
  ((ofDetailsChars_eq_iff other _).mpr
    ((describes_ofDetailsChars text).of_sameByChannel h hreadable)).symm

-- ════════════════════════════════════════════════════════════════════════
-- The meaning of a text
-- ════════════════════════════════════════════════════════════════════════

/-- **Meaning of a details text**: no line is for two channels, and the palette or the error
is the one that the rules give to the lines. Lines without a key do not matter, nor the
order of lines for different channels unless a line is malformed, nor the blanks around a
line, nor the endings of lines. -/
theorem ofDetails_decided_by_keyed_lines :
    (∀ (line : List Char) (c d : Channel), IsKeyedFor c line → IsKeyedFor d line → c = d) ∧
      (∀ (text : String) (result : Except PaletteError Palette),
        ofDetails text = result ↔ Describes (Text.lines text.toList) result) ∧
      (∀ text other : String,
        (Text.lines text.toList).filter (fun line => decide (IsKeyed line)) =
          (Text.lines other.toList).filter (fun line => decide (IsKeyed line)) →
        ofDetails text = ofDetails other) ∧
      (∀ text other : String, (∀ line ∈ Text.lines text.toList, ¬ Malformed line) →
        SameByChannel (Text.lines text.toList) (Text.lines other.toList) →
        ofDetails text = ofDetails other) ∧
      (∀ text other : String,
        List.Forall₂ Text.Padded (Text.lines text.toList) (Text.lines other.toList) →
        ofDetails text = ofDetails other) ∧
      ∀ (ended others : List (List Char × Text.Ending)) (last : List Char),
        ended.map Prod.fst = others.map Prod.fst →
        ofDetails (String.ofList (Text.withEndings ended last)) =
          ofDetails (String.ofList (Text.withEndings others last)) := by
  refine ⟨fun line c d hc hd => hc.unique hd, fun text => ofDetailsChars_eq_iff text.toList,
    ?_, ?_, ?_, ?_⟩
  · intro text other h
    refine ofDetailsChars_congr_told ?_
    rw [← filterMap_told?_filter_isKeyed, h, filterMap_told?_filter_isKeyed]
  · intro text other hreadable h
    exact ofDetailsChars_congr_channels h hreadable
  · intro text other h
    exact ofDetailsChars_congr_told (filterMap_told?_eq_of_map_trim (map_trim_eq_of_padded h).symm)
  · intro ended others last h
    refine ofDetailsChars_congr_told (filterMap_told?_eq_of_map_trim ?_)
    rw [String.toList_ofList, String.toList_ofList]
    exact Text.map_trim_lines_withEndings h last

/-- A text with two lines for blue, and the same text without its note, in another order, with
blanks around its lines and with other endings. -/
theorem ofDetails_of_blue_twice :
    IsKeyedFor .red ['r', '_', 'e', 'x', 'p', ':'] ∧
      (∀ d, IsKeyedFor d ['r', '_', 'e', 'x', 'p', ':'] → .red = d) ∧
      ofDetails "b_exp: y\n#\nr_exp: x\ng_exp: y\nb_exp: pi\n" = .ok ⟨.coord .x, .coord .y, .pi⟩ ∧
      ofDetails "b_exp: y\nr_exp: x\ng_exp: y\nb_exp: pi" = .ok ⟨.coord .x, .coord .y, .pi⟩ ∧
      ofDetails "r_exp: x\ng_exp: y\nb_exp: y\nb_exp: pi" = .ok ⟨.coord .x, .coord .y, .pi⟩ ∧
      ofDetails "\tr_exp: x \ng_exp: y\nb_exp: y\nb_exp: pi\u2028" =
        .ok ⟨.coord .x, .coord .y, .pi⟩ ∧
      ofDetails (String.ofList (Text.withEndings [("r_exp: q".toList, .returnFeed)] [])) =
        ofDetails (String.ofList (Text.withEndings [("r_exp: q".toList, .feed)] [])) := by
  obtain ⟨hunique, hrules, hunkeyed, horder, hpadded, hendings⟩ := ofDetails_decided_by_keyed_lines
  have hred : IsKeyedFor .red ['r', '_', 'e', 'x', 'p', ':'] := by decide
  have hnoted : ofDetails "b_exp: y\n#\nr_exp: x\ng_exp: y\nb_exp: pi\n" =
      .ok ⟨.coord .x, .coord .y, .pi⟩ := by rfl
  have hplain := (hunkeyed "b_exp: y\n#\nr_exp: x\ng_exp: y\nb_exp: pi\n"
    "b_exp: y\nr_exp: x\ng_exp: y\nb_exp: pi" (by decide +kernel)).symm.trans hnoted
  have hreadable : ∀ line ∈ Text.lines "b_exp: y\nr_exp: x\ng_exp: y\nb_exp: pi".toList,
      ¬ Malformed line := by
    cases (hrules _ _).mp hplain with
    | complete readable _ => exact readable
  have hordered := (horder "b_exp: y\nr_exp: x\ng_exp: y\nb_exp: pi"
    "r_exp: x\ng_exp: y\nb_exp: y\nb_exp: pi" hreadable
    (fun c => by cases c <;> decide +kernel)).symm.trans hplain
  have hfirst : Text.Padded "r_exp: x".toList "\tr_exp: x ".toList :=
    ⟨['\t'], [' '], List.forall_mem_singleton.mpr (by decide),
      List.forall_mem_singleton.mpr (by decide), rfl⟩
  have hlast : Text.Padded "b_exp: pi".toList "b_exp: pi\u2028".toList :=
    ⟨[], ['\u2028'], nofun, List.forall_mem_singleton.mpr (by decide), rfl⟩
  have hlines : Text.lines "r_exp: x\ng_exp: y\nb_exp: y\nb_exp: pi".toList =
      ["r_exp: x".toList, "g_exp: y".toList, "b_exp: y".toList, "b_exp: pi".toList] := by
    decide +kernel
  have hothers : Text.lines "\tr_exp: x \ng_exp: y\nb_exp: y\nb_exp: pi\u2028".toList =
      ["\tr_exp: x ".toList, "g_exp: y".toList, "b_exp: y".toList, "b_exp: pi\u2028".toList] := by
    decide +kernel
  have hblanks := hpadded "r_exp: x\ng_exp: y\nb_exp: y\nb_exp: pi"
    "\tr_exp: x \ng_exp: y\nb_exp: y\nb_exp: pi\u2028" (by
      rw [hlines, hothers]
      exact .cons hfirst (.cons (Text.padded_refl _) (.cons (Text.padded_refl _)
        (.cons hlast .nil))))
  exact ⟨hred, fun d hd => hunique _ _ d hred hd, hnoted, hplain, hordered,
    hblanks.symm.trans hordered,
    hendings [("r_exp: q".toList, .returnFeed)] [("r_exp: q".toList, .feed)] [] rfl⟩

end TrigPainting.Palette
