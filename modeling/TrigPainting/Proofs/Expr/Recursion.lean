import TrigPainting.Proofs.Expr.Simulation

/-!
# The recursive descent comes to an end

Every call of `term` passes over a character before it calls `expr`, and every round of `factors`
passes over a multiplication sign. So fuel that grows with the characters that are left is enough.
A call ends with as many groups open as there were, and every call of `expr` inside another one
stands in a group of its own. So the groups that may still be opened bound the calls that are still
to come, and a long product needs no more calls at once than one of its factors.

## Main definitions

- `Descent.FollowsExpr`, `Descent.FollowsFactors`, `Descent.FollowsTerm` — what the functions do
  with enough fuel
- `Descent.Disciplined` — what a call leaves behind

## Main statements

- `Descent.follows_calls` — the joint induction over the functions
- `Descent.ends_parse_of_room` — the descent has the result of the reader
- `Descent.forall_ends_iff` — the number of calls that is enough for every text
- `Descent.calls_disciplined` — state and calls, from any place
-/

namespace TrigPainting

namespace Descent

open Reader

-- ════════════════════════════════════════════════════════════════════════
-- The functions of the grammar
-- ════════════════════════════════════════════════════════════════════════

section Calls

variable (σ : Setting) (bound fuel : Nat)

/-- What is left of the input. -/
def Input.remaining (input : Input) (c : Cursor) : Nat :=
  input.chars.length - c.pos

/-- A call of `expr` follows the reader through the contents of the innermost group. It ends where
no factor follows, with the groups open that were open. -/
def FollowsExpr : Prop :=
  ∀ (active : Nat) (s : State) (groups : List Group), s.Within σ.toInput bound →
    groups.length = s.cursor.depth → active + 1 + (maxNesting - s.cursor.depth) ≤ bound →
      2 * σ.remaining s.cursor + 3 ≤ fuel →
        Follows σ bound (expr σ fuel active) s ⟨groups, .factor none⟩ fun e c u =>
          u = ⟨groups, .product e⟩ ∧ s.cursor.pos < c.pos ∧ c.depth = s.cursor.depth ∧
            σ.next? c ≠ some '*'

/-- A call of `factors` follows the reader through the factors behind a product. -/
def FollowsFactors : Prop :=
  ∀ (active : Nat) (lhs : Expr) (s : State) (groups : List Group), s.Within σ.toInput bound →
    groups.length = s.cursor.depth → active + (maxNesting - s.cursor.depth) ≤ bound →
      2 * σ.remaining s.cursor + 2 ≤ fuel →
        Follows σ bound (factors σ fuel active lhs) s ⟨groups, .product lhs⟩ fun e c u =>
          u = ⟨groups, .product e⟩ ∧ s.cursor.pos ≤ c.pos ∧ c.depth = s.cursor.depth ∧
            σ.next? c ≠ some '*'

/-- A call of `term` follows the reader through a factor. -/
def FollowsTerm : Prop :=
  ∀ (active : Nat) (s : State) (groups : List Group) (before : Option Expr),
    s.Within σ.toInput bound → groups.length = s.cursor.depth →
      active + (maxNesting - s.cursor.depth) ≤ bound → 2 * σ.remaining s.cursor + 2 ≤ fuel →
        Follows σ bound (term σ fuel active) s ⟨groups, .factor before⟩ fun e c u =>
          u = ⟨groups, .product (Expr.extend before e)⟩ ∧ s.cursor.pos < c.pos ∧
            c.depth = s.cursor.depth

variable {σ bound fuel}

/-- A group passes over a character before the call for its contents, and takes one of the groups
that may still be opened. That pays for the call. -/
theorem FollowsExpr.term (h : FollowsExpr σ bound fuel) : FollowsTerm σ bound (fuel + 1) := by
  intro active s groups before hs hgroups hbound hfuel
  rw [Descent.term]
  refine .get_bind ?_
  cases hlead : (σ.next? s.cursor).bind lead? with
  | none => exact follows_refuse hs (Input.stops_of_lead? groups before hlead)
  | some lead =>
    obtain ⟨found, hnext, hfound⟩ := Option.bind_eq_some_iff.mp hlead
    obtain rfl := initial_of_lead? hfound
    have hlt : s.cursor.pos < σ.chars.length := Input.pos_lt_of_next? hnext
    have hlimit : groups.length ≤ maxNesting := hgroups ▸ hs.here.2
    cases lead with
    | coord a =>
      refine (follows_advance hs hnext (step_of_move (.coord groups before a) hlimit)).bind ?_
      rintro _ t _ ht ⟨hcursor, rfl⟩
      exact .pure ht ⟨rfl, by simp [hcursor], by simp [hcursor]⟩
    | constant =>
      refine (follows_expect_letters groups .pi before hs hnext hlimit).bind ?_
      rintro _ t _ ht ⟨rfl, hpos, hdepth⟩
      exact .pure ht ⟨rfl, hpos, hdepth⟩
    | group opening =>
      have hstop : maxNesting ≤ s.cursor.depth →
          σ.Stops ⟨groups, .factor before⟩ s.cursor .shallower := fun hfull =>
        Input.stops_of_limit groups before opening hnext (hgroups ▸ hfull)
      -- The states stand behind the check of the limit, the characters in front of the contents,
      -- the contents, and the parenthesis that closes the group.
      refine (follows_openGroup hs hstop).bind ?_
      rintro _ t₁ _ ht₁ ⟨rfl, hbelow, hcursor₁⟩
      have hnext₁ : σ.next? t₁.cursor = some (Lead.group opening).initial := by
        rw [hcursor₁]
        exact hnext
      refine (follows_openingChars groups opening before ht₁ hnext₁ (hgroups ▸ hbelow)).bind ?_
      rintro _ t₂ _ ht₂ ⟨rfl, hpos₂, hdepth₂⟩
      simp only [hcursor₁] at hpos₂ hdepth₂
      have hcontents := h active t₂ (⟨opening, before⟩ :: groups) ht₂
        (by rw [List.length_cons, hgroups, hdepth₂]) (by rw [hdepth₂]; omega)
        (by rw [Input.remaining] at hfuel ⊢; omega)
      refine hcontents.bind ?_
      rintro contents t₃ _ ht₃ ⟨rfl, hpos₃, hdepth₃, hnext₃⟩
      refine (follows_closeGroup _ groups contents ht₃ (by omega) hnext₃).bind ?_
      rintro _ t₄ _ ht₄ ⟨rfl, hpos₄, hdepth₄⟩
      exact .pure ht₄ ⟨rfl, by omega, by omega⟩

theorem FollowsFactors.factors (h : FollowsFactors σ bound fuel) (hterm : FollowsTerm σ bound fuel) :
    FollowsFactors σ bound (fuel + 1) := by
  intro active lhs s groups hs hgroups hbound hfuel
  rw [Descent.factors]
  refine .get_bind ?_
  by_cases hnext : σ.next? s.cursor = some '*'
  · rw [if_pos hnext]
    have hlt : s.cursor.pos < σ.chars.length := Input.pos_lt_of_next? hnext
    rw [Input.remaining] at hfuel
    refine (follows_advance (u := ⟨groups, .factor (some lhs)⟩) hs hnext rfl).bind ?_
    rintro _ t₁ _ ht₁ ⟨hcursor₁, rfl⟩
    have hfactor := hterm active t₁ groups (some lhs) ht₁ (by simp only [hcursor₁, hgroups])
      (by simpa only [hcursor₁] using hbound) (by simp only [hcursor₁, Input.remaining]; omega)
    simp only [hcursor₁] at hfactor
    refine hfactor.bind ?_
    rintro rhs t₂ _ ht₂ ⟨rfl, hpos₂, hdepth₂⟩
    refine (h active (.times lhs rhs) t₂ groups ht₂ (by rw [hgroups, hdepth₂])
      (by rw [hdepth₂]; exact hbound) (by rw [Input.remaining]; omega)).mono ?_
    rintro e c u ⟨hu, hpos, hdepth, hend⟩
    exact ⟨hu, by omega, by omega, hend⟩
  · rw [if_neg hnext]
    exact .pure hs ⟨rfl, Nat.le_refl _, rfl, hnext⟩

theorem FollowsTerm.expr (h : FollowsTerm σ bound fuel) (hfactors : FollowsFactors σ bound fuel)
    (hroom : ∀ n ∈ σ.cutoff, bound ≤ n) : FollowsExpr σ bound (fuel + 1) := by
  intro active s groups hs hgroups hbound hfuel
  rw [Descent.expr]
  refine (follows_enter hs (by omega) hroom).bind ?_
  rintro _ t₁ _ ht₁ ⟨hcursor₁, rfl⟩
  rw [← hcursor₁] at hgroups hbound hfuel ⊢
  refine (h (active + 1) t₁ groups none ht₁ hgroups hbound (by omega)).bind ?_
  rintro first t₂ _ ht₂ ⟨rfl, hpos₂, hdepth₂⟩
  refine (hfactors (active + 1) first t₂ groups ht₂ (hgroups.trans hdepth₂.symm)
    (by rw [hdepth₂]; exact hbound) (by rw [Input.remaining] at hfuel ⊢; omega)).mono ?_
  rintro e c u ⟨hu, hpos, hdepth, hend⟩
  exact ⟨hu, by omega, by omega, hend⟩

/-- **Joint induction** over the three functions. -/
theorem follows_calls (σ : Setting) (hroom : ∀ n ∈ σ.cutoff, bound ≤ n) (fuel : Nat) :
    FollowsExpr σ bound fuel ∧ FollowsFactors σ bound fuel ∧ FollowsTerm σ bound fuel := by
  induction fuel with
  | zero =>
    refine ⟨fun _ _ _ _ _ _ hfuel => ?_, fun _ _ _ _ _ _ _ hfuel => ?_,
      fun _ _ _ _ _ _ _ hfuel => ?_⟩
    all_goals exact absurd hfuel (Nat.not_succ_le_zero _)
  | succ fuel ih =>
    obtain ⟨hexpr, hfactors, hterm⟩ := ih
    exact ⟨hterm.expr hfactors hroom, hfactors.factors hterm, hexpr.term⟩

end Calls

-- ════════════════════════════════════════════════════════════════════════
-- Whole inputs
-- ════════════════════════════════════════════════════════════════════════

theorem State.within_fresh {input : Input} {bound : Nat} {c : Cursor}
    (hpos : c.pos ≤ input.chars.length) (hdepth : c.depth ≤ maxNesting) :
    (State.fresh c).Within input bound := by
  refine ⟨fun v hv => ?_, Nat.zero_le bound⟩
  obtain rfl := List.mem_singleton.mp hv
  exact ⟨hpos, hdepth⟩

theorem Input.stops_of_text {input : Input} {c : Cursor} (value : Expr)
    (htimes : input.next? c ≠ some '*') (h : (input.next? c).isSome) :
    input.Stops ⟨[], .product value⟩ c .endOfInput := by
  obtain ⟨found, hnext⟩ := Option.isSome_iff_exists.mp h
  rw [hnext, ne_eq, Option.some_inj] at htimes
  rw [Input.Stops, hnext]
  exact if_neg htimes

theorem Input.resume_of_end {input : Input} {c : Cursor} (value : Expr)
    (h : ¬(input.next? c).isSome) : input.resume ⟨[], .product value⟩ c = .ok value := by
  rw [Input.next?, Option.isSome_map, Bool.not_eq_true, Option.isSome_eq_false_iff,
    Option.isNone_iff_eq_none] at h
  rw [Input.resume, List.drop_eq_nil_of_le (List.getElem?_eq_none_iff.mp h)]
  rfl

/-- The descent has the outcome of the reader, whatever the cutoff is, if only it allows for
`maxNesting + 1` calls. -/
theorem ends_parse_of_room (text : String) (cutoff : Option Nat)
    (hroom : ∀ n ∈ cutoff, maxNesting + 1 ≤ n) :
    ∃ t : State, Ends (parse ⟨.ofText text, cutoff⟩) .start
        ((Expr.parse text).mapError .refused) t ∧ t.Within (.ofText text) (maxNesting + 1) := by
  have hstart : State.start.Within (.ofText text) (maxNesting + 1) :=
    State.within_fresh (Nat.zero_le _) (Nat.zero_le _)
  have hresume : Expr.parse text = (Input.ofText text).resume .start State.start.cursor :=
    Expr.parse_eq_readNumbered text
  have hbound : 0 + 1 + (maxNesting - State.start.cursor.depth) ≤ maxNesting + 1 :=
    Nat.le_of_eq (Nat.add_comm 1 maxNesting)
  have hexpr := (follows_calls ⟨.ofText text, cutoff⟩ hroom _).1 0 .start [] hstart rfl hbound
    (Nat.le_refl _)
  have hparse : Follows ⟨.ofText text, cutoff⟩ (maxNesting + 1)
      (parse ⟨.ofText text, cutoff⟩ (2 * (Input.ofText text).remaining State.start.cursor + 3))
      .start .start fun e c u => (Input.ofText text).resume u c = .ok e := by
    refine hexpr.bind ?_
    rintro e t _ ht ⟨rfl, -, -, htimes⟩
    refine .get_bind ?_
    by_cases hnext : ((Input.ofText text).next? t.cursor).isSome
    · rw [if_pos hnext]
      exact follows_refuse ht (Input.stops_of_text e htimes hnext)
    · rw [if_neg hnext]
      exact .pure ht (Input.resume_of_end e hnext)
  rw [hresume]
  cases hparse with
  | value returns within same holds =>
    rw [same, holds]
    exact ⟨_, ends_parse returns, within⟩
  | refused returns within same =>
    rw [same]
    exact ⟨_, ends_parse returns, within⟩

-- ════════════════════════════════════════════════════════════════════════
-- Cutting the recursion
-- ════════════════════════════════════════════════════════════════════════

section Cut

variable (σ : Setting) {n : Nat}

theorem returns_cut_of_full (hcut : σ.cutoff = some n) (fuel : Nat) (s : State) :
    Returns (expr σ (fuel + 1) n) s (.error .cut) s := by
  have hfull : σ.cutoff.any (· ≤ n) = true := by simp [hcut]
  rw [expr, enter, if_pos hfull]
  exact Returns.bind_error rfl

/-- A parenthesis takes the cursor to the call of `expr` for its contents. -/
theorem returns_cut_of_contents {fuel active : Nat} {s : State}
    (hnext : σ.next? s.cursor = some '(') (hbelow : s.cursor.depth < maxNesting)
    (h : ∀ s' : State, s'.cursor = ⟨s.cursor.pos + 1, s.cursor.depth + 1⟩ →
      ∃ t, Returns (expr σ fuel active) s' (.error .cut) t) :
    ∃ t, Returns (term σ (fuel + 1) active) s (.error .cut) t := by
  have hlead : (σ.next? s.cursor).bind lead? = some (.group .bare) := by
    rw [hnext]
    rfl
  have hopen : Returns (openGroup σ) s (.ok ())
      ⟨⟨s.cursor.pos, s.cursor.depth + 1⟩, s.visited, s.peak⟩ := by
    refine Returns.bind rfl ?_
    rw [if_neg (Nat.not_le_of_lt hbelow)]
    rfl
  obtain ⟨t, hcut⟩ := h ⟨⟨s.cursor.pos + 1, s.cursor.depth + 1⟩,
    ⟨s.cursor.pos, s.cursor.depth + 1⟩ :: s.visited, s.peak⟩ rfl
  refine ⟨t, ?_⟩
  rw [term]
  refine Returns.bind rfl ?_
  rw [hlead]
  exact hopen.bind (Returns.bind rfl hcut.bind_error)

/-- Behind as many parentheses as calls are allowed, reading is cut short. -/
theorem returns_cut_of_opens (hcut : σ.cutoff = some n) (hn : n ≤ maxNesting)
    (hopen : ∀ pos depth, pos < n → σ.next? ⟨pos, depth⟩ = some '(') {j k : Nat}
    (hk : k + j = n) (s : State) (hs : s.cursor = ⟨k, k⟩) :
    ∃ t, Returns (expr σ (2 * j + 1) k) s (.error .cut) t := by
  induction j generalizing k s with
  | zero =>
    obtain rfl : k = n := hk
    exact ⟨s, returns_cut_of_full σ hcut 0 s⟩
  | succ j ih =>
    have hlt : k < n := by omega
    have hroom : ¬ σ.cutoff.any (· ≤ k) = true := by simpa [hcut] using hlt
    have henter : Returns (enter σ k) s (.ok ()) { s with peak := max s.peak (k + 1) } := by
      rw [enter, if_neg hroom]
      rfl
    obtain ⟨t, hterm⟩ : ∃ t, Returns (term σ (2 * j + 1 + 1) (k + 1))
        { s with peak := max s.peak (k + 1) } (.error .cut) t := by
      refine returns_cut_of_contents σ ?_ ?_ fun s' hs' => ih (by omega) s' ?_
      · rw [hs]
        exact hopen k k hlt
      · rw [hs]
        exact Nat.lt_of_lt_of_le hlt hn
      · rw [hs', hs]
    refine ⟨t, ?_⟩
    rw [Nat.mul_succ, expr]
    exact henter.bind hterm.bind_error

end Cut

theorem next?_of_opens {n pos depth : Nat} (h : pos < n) :
    (Input.ofText (String.ofList (List.replicate n '('))).next? ⟨pos, depth⟩ = some '(' := by
  have hvisible : Text.visible (List.replicate n '(') = List.replicate n '(' := by
    refine List.filter_eq_self.mpr fun c hc => ?_
    rw [List.eq_of_mem_replicate hc]
    decide
  rw [Input.next?, ← List.getElem?_map, Input.ofText, String.toList_ofList, Text.map_fst_numbered,
    hvisible, List.getElem?_replicate_of_lt h]

/-- **257 calls**, and no less, are enough for every text. -/
theorem forall_ends_iff (n : Nat) :
    (∀ text : String, ∃ t, Ends (parse ⟨.ofText text, some n⟩) .start
      ((Expr.parse text).mapError .refused) t) ↔ 257 ≤ n := by
  constructor
  · intro hsame
    refine Nat.lt_of_not_le fun hn => ?_
    obtain ⟨t, hends⟩ := hsame (String.ofList (List.replicate n '('))
    obtain ⟨u, hcut⟩ := returns_cut_of_opens
      ⟨.ofText (String.ofList (List.replicate n '(')), some n⟩ rfl hn
      (fun _ _ => next?_of_opens) (Nat.zero_add n) .start rfl
    have hparse : Ends (parse ⟨.ofText (String.ofList (List.replicate n '(')), some n⟩) .start
        (.error .cut) u := ends_parse hcut.bind_error
    have heq := (hends.unique hparse).1
    cases hresult : Expr.parse (String.ofList (List.replicate n '(')) with
    | ok e => rw [hresult] at heq; cases heq
    | error err => rw [hresult] at heq; cases heq
  · intro hle text
    obtain ⟨t, hends, -⟩ := ends_parse_of_room text (some n) (by simpa [maxNesting] using hle)
    exact ⟨t, hends⟩

-- ════════════════════════════════════════════════════════════════════════
-- Discipline
-- ════════════════════════════════════════════════════════════════════════

/-- What a call that was made at `c` leaves behind: the cursor never left the input nor exceeded
the limit, and no group was closed that was not open. If the call has a value, the cursor is
further on and the groups are open that were open. -/
structure Disciplined (input : Input) (c : Cursor) (r : Except Halt Expr) (t : State) : Prop where
  visited : ∀ v ∈ t.visited, v.pos ≤ input.chars.length ∧ v.depth ≤ 256
  not_underflow : r ≠ .error .underflow
  advanced : ∀ e, r = .ok e → c.pos + 1 ≤ t.cursor.pos ∧ t.cursor.pos ≤ input.chars.length
  restored : ∀ e, r = .ok e → t.cursor.depth = c.depth

/-- A call that follows the reader is disciplined. -/
theorem Follows.exists_disciplined {σ : Setting} {bound : Nat} {p : Action Expr} {c : Cursor}
    {r : Reader.State} {post : Expr → Cursor → Reader.State → Prop}
    (h : Follows σ bound p (.fresh c) r post)
    (hpost : ∀ e c' u, post e c' u → c.pos < c'.pos ∧ c'.depth = c.depth) :
    ∃ r t, Returns p (.fresh c) r t ∧ Disciplined σ.toInput c r t ∧
      ∀ e, r = .ok e → ∃ u, post e t.cursor u := by
  cases h with
  | @value a t u returns within same holds =>
    obtain ⟨hpos, hdepth⟩ := hpost _ _ _ holds
    refine ⟨.ok a, t, returns, ⟨within.visited, nofun, ?_, ?_⟩, ?_⟩
    · exact fun _ _ => ⟨hpos, within.here.1⟩
    · exact fun _ _ => hdepth
    · rintro e ⟨⟩
      exact ⟨u, holds⟩
  | @refused err t returns within same =>
    exact ⟨_, t, returns, ⟨within.visited, nofun, nofun, nofun⟩, nofun⟩

/-- **State and calls**: from every place of every input, also inside groups that are open, `expr`
and `term` come to an end and are disciplined, and `expr` ends where no factor follows. On a whole
text no more than 257 calls of `expr` are active at once, and a descent that is cut short beyond
them has the same result. It is the one of `Expr.parse`. -/
theorem calls_disciplined {input : Input} {c : Cursor} (hpos : c.pos ≤ input.chars.length)
    (hdepth : c.depth ≤ 256) (active : Nat) (text : String) :
    (∃ r t, Ends (expr ⟨input, none⟩ · active) (.fresh c) r t ∧ Disciplined input c r t ∧
        ∀ e, r = .ok e → input.next? t.cursor ≠ some '*') ∧
      (∃ r t, Ends (term ⟨input, none⟩ · active) (.fresh c) r t ∧ Disciplined input c r t) ∧
      (∃ t : State, Ends (parse ⟨.ofText text, none⟩) .start
          ((Expr.parse text).mapError .refused) t ∧
        (∀ v ∈ t.visited, v.depth ≤ 256) ∧ t.peak ≤ 257) ∧
      ∃ t, Ends (parse ⟨.ofText text, some 257⟩) .start
        ((Expr.parse text).mapError .refused) t := by
  have hfresh : ∀ bound, (State.fresh c).Within input bound := fun _ =>
    State.within_fresh hpos hdepth
  have hgroups : (List.replicate c.depth (⟨.bare, none⟩ : Group)).length = c.depth :=
    List.length_replicate
  refine ⟨?_, ?_, ?_, ?_⟩
  · have hexpr := (follows_calls ⟨input, none⟩ nofun _).1 active (.fresh c) _ (hfresh _) hgroups
      (Nat.le_refl _) (Nat.le_refl _)
    obtain ⟨r, t, hreturns, hcall, hend⟩ :=
      hexpr.exists_disciplined fun _ _ _ ⟨_, hpos', hdepth', _⟩ => ⟨hpos', hdepth'⟩
    refine ⟨r, t, ends_expr hreturns, hcall, fun e he => ?_⟩
    obtain ⟨_, -, -, -, hnext⟩ := hend e he
    exact hnext
  · have hterm := (follows_calls ⟨input, none⟩ nofun _).2.2 active (.fresh c) _ none (hfresh _)
      hgroups (Nat.le_refl _) (Nat.le_refl _)
    obtain ⟨r, t, hreturns, hcall, -⟩ :=
      hterm.exists_disciplined fun _ _ _ ⟨_, hpos', hdepth'⟩ => ⟨hpos', hdepth'⟩
    exact ⟨r, t, ends_term hreturns, hcall⟩
  · obtain ⟨t, hends, within⟩ := ends_parse_of_room text none nofun
    exact ⟨t, hends, fun v hv => (within.visited v hv).2, within.peak⟩
  · obtain ⟨t, hends, -⟩ := ends_parse_of_room text (some 257) (by simp [maxNesting])
    exact ⟨t, hends⟩

/-- A call inside an open group, that ends in front of the parenthesis, and a text with two
groups side by side. -/
theorem calls_disciplined_of_open_group :
    1 ≤ (Input.ofText "(x*y)*x").chars.length ∧ 1 ≤ 256 ∧
      (∃ t, Ends (expr ⟨.ofText "(x*y)*x", none⟩ · 1) (.fresh ⟨1, 1⟩)
          (.ok (.times (.coord .x) (.coord .y))) t ∧ t.cursor = ⟨4, 1⟩ ∧
        Disciplined (.ofText "(x*y)*x") ⟨1, 1⟩ (.ok (.times (.coord .x) (.coord .y))) t) ∧
      ∃ t : State, Ends (parse ⟨.ofText "sin(x)*(y)", none⟩) .start
          (.ok (.times (.wave .sine (.coord .x)) (.coord .y))) t ∧ t.peak ≤ 257 := by
  have hpos : 1 ≤ (Input.ofText "(x*y)*x").chars.length := by decide
  have hdepth : 1 ≤ 256 := by decide
  have hread : Expr.parse "sin(x)*(y)" =
      .ok (.times (.wave .sine (.coord .x)) (.coord .y)) := rfl
  obtain ⟨u, hrun, hcursor⟩ : ∃ u, Returns (expr ⟨.ofText "(x*y)*x", none⟩ 5 1) (.fresh ⟨1, 1⟩)
      (.ok (.times (.coord .x) (.coord .y))) u ∧ u.cursor = ⟨4, 1⟩ := ⟨_, rfl, rfl⟩
  obtain ⟨⟨r, t, hends, hcall, -⟩, -, ⟨t', hparse, -, hpeak⟩, -⟩ :=
    calls_disciplined (c := ⟨1, 1⟩) hpos hdepth 1 "sin(x)*(y)"
  obtain ⟨rfl, rfl⟩ := hends.unique (ends_expr hrun)
  rw [hread] at hparse
  exact ⟨hpos, hdepth, ⟨t, hends, hcursor, hcall⟩, t', hparse, hpeak⟩

end Descent

end TrigPainting
