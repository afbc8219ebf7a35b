import Mathlib.Tactic.SplitIfs
import TrigPainting.Proofs.Expr.Descent

/-!
# The descent and the reader, side by side

The reader keeps the open groups and the products to their left in its state, the descent keeps
them in its calls. So the two can be compared at every place of the cursor: an action of the
descent follows the reader if it comes to an end, and if reading the rest of the input has the
same result from the state behind the action as it had in front of it. Where the reader stops, the
descent fails with the same error.

Each action of the descent is matched with the steps of the reader here, one lemma for each.

## Main definitions

- `Reader.State.readNumbered` — the reader on characters that carry their indices
- `Descent.State.Within` — the bounds that hold all along
- `Descent.Follows` — an action does what the reader does, and ends in a given way

## Main statements

- `Expr.parse_eq_readNumbered` — reading a text is reading its numbered characters
- `Descent.Follows.bind` — actions in a row
- `Descent.follows_openGroup`, `Descent.follows_closeGroup` — groups are opened below the limit
  only, and closed only when they are open
-/

namespace TrigPainting

namespace Reader

/-- Reads visible characters that carry their indices, in a text of the given length. -/
def State.readNumbered (length : Nat) (s : State) : List (Char × Nat) → Except SyntaxError Expr
  | [] =>
    match s.finish with
    | .ok e => .ok e
    | .error expected => .error ⟨length, none, expected⟩
  | (c, index) :: rest =>
    match s.step c with
    | .ok t => t.readNumbered length rest
    | .error expected => .error ⟨index, some c, expected⟩

theorem State.read_eq_readNumbered (s : State) (position : Nat) (text : List Char) :
    s.read position text = s.readNumbered (position + text.length)
      ((text.zipIdx position).filter fun x => !Text.isBlank x.1) := by
  induction text generalizing s position with
  | nil => rfl
  | cons c rest ih =>
    have hlength : position + (c :: rest).length = position + 1 + rest.length := by
      rw [List.length_cons]
      omega
    rw [State.read, hlength, List.zipIdx_cons]
    by_cases hc : Text.isBlank c = true
    · rw [if_pos hc, List.filter_cons_of_neg (by simp [hc])]
      exact ih s (position + 1)
    · rw [if_neg hc, List.filter_cons_of_pos (by simp [hc]), State.readNumbered]
      cases s.step c with
      | error expected => rfl
      | ok t => exact ih t (position + 1)

end Reader

theorem Expr.parse_eq_readNumbered (text : String) :
    parse text =
      Reader.State.start.readNumbered text.length (Text.numbered text.toList) := by
  rw [parse, parseChars, Reader.State.read_eq_readNumbered, Nat.zero_add, String.length_toList]
  rfl

namespace Descent

open Reader

/-- What the reader makes of the input behind the cursor. -/
def Input.resume (input : Input) (r : Reader.State) (c : Cursor) : Except SyntaxError Expr :=
  r.readNumbered input.length (input.chars.drop c.pos)

/-- The reader stops at the cursor. -/
def Input.Stops (input : Input) (r : Reader.State) (c : Cursor) (expected : Expected) : Prop :=
  match input.next? c with
  | some found => r.step found = .error expected
  | none => r.finish = .error expected

section Input

variable {input : Input} {r u : Reader.State} {c : Cursor}

theorem Input.pos_lt_of_next? {found : Char} (h : input.next? c = some found) :
    c.pos < input.chars.length := by
  rw [Input.next?, Option.map_eq_some_iff] at h
  obtain ⟨_, hget, -⟩ := h
  exact (List.getElem?_eq_some_iff.mp hget).1

theorem Input.resume_of_step {found : Char} (h : input.next? c = some found)
    (hstep : r.step found = .ok u) :
    input.resume r c = input.resume u ⟨c.pos + 1, c.depth⟩ := by
  rw [Input.next?, Option.map_eq_some_iff] at h
  obtain ⟨⟨found, index⟩, hget, rfl⟩ := h
  obtain ⟨hlt, hget⟩ := List.getElem?_eq_some_iff.mp hget
  rw [Input.resume, List.drop_eq_getElem_cons hlt, hget, State.readNumbered, hstep]
  rfl

theorem Input.resume_of_stops {expected : Expected} (h : input.Stops r c expected) :
    input.resume r c = .error (input.errorAt c expected) := by
  rw [Input.Stops, Input.next?] at h
  rw [Input.resume, Input.errorAt]
  cases hget : input.chars[c.pos]? with
  | none =>
    rw [hget] at h
    rw [List.drop_eq_nil_of_le (List.getElem?_eq_none_iff.mp hget), State.readNumbered, h]
  | some found =>
    rw [hget] at h
    obtain ⟨hlt, hget⟩ := List.getElem?_eq_some_iff.mp hget
    rw [List.drop_eq_getElem_cons hlt, hget, State.readNumbered, h]

theorem Input.stops_of_spelling (groups : List Group) (word : Word) (next : Char)
    (later : List Char) (before : Option Expr) (h : input.next? c ≠ some next) :
    input.Stops ⟨groups, .spelling word next later before⟩ c (.word word) := by
  rw [Input.Stops]
  cases hnext : input.next? c with
  | none => rfl
  | some found =>
    have hne : found ≠ next := fun heq => h (heq ▸ hnext)
    exact if_neg hne

theorem Input.stops_of_product (g : Group) (groups : List Group) (value : Expr)
    (htimes : input.next? c ≠ some '*') (h : input.next? c ≠ some ')') :
    input.Stops ⟨g :: groups, .product value⟩ c .closing := by
  rw [Input.Stops]
  cases hnext : input.next? c with
  | none => rfl
  | some found =>
    have htimes' : found ≠ '*' := fun heq => htimes (heq ▸ hnext)
    have hclose : found ≠ ')' := fun heq => h (heq ▸ hnext)
    simp [State.step, State.stepProduct, htimes', hclose]

theorem initial_of_lead? {found : Char} {lead : Lead} (h : lead? found = some lead) :
    found = lead.initial := by
  rw [lead?] at h
  split_ifs at h <;> cases h <;> assumption

theorem Input.stops_of_lead? (groups : List Group) (before : Option Expr)
    (h : (input.next? c).bind lead? = none) :
    input.Stops ⟨groups, .factor before⟩ c .term := by
  rw [Input.Stops]
  cases hnext : input.next? c with
  | none => rfl
  | some found =>
    rw [hnext, Option.bind_some, lead?] at h
    split_ifs at h
    simp [State.step, State.stepFactor, *]

theorem Input.stops_of_limit (groups : List Group) (before : Option Expr) (opening : Opening)
    (hnext : input.next? c = some (Lead.group opening).initial)
    (hlimit : maxNesting ≤ groups.length) :
    input.Stops ⟨groups, .factor before⟩ c .shallower := by
  have hfull : ¬ groups.length < maxNesting := Nat.not_lt_of_le hlimit
  rw [Input.Stops, hnext]
  obtain (_ | _) | _ := opening <;> exact if_neg hfull

end Input

-- ════════════════════════════════════════════════════════════════════════
-- Two readers side by side
-- ════════════════════════════════════════════════════════════════════════

/-- The cursor never left the input nor exceeded the limit on open groups, and no more than
`bound` calls were active at once. -/
structure State.Within (input : Input) (bound : Nat) (s : State) : Prop where
  visited : ∀ c ∈ s.visited, c.pos ≤ input.chars.length ∧ c.depth ≤ maxNesting
  peak : s.peak ≤ bound

theorem State.Within.here {input : Input} {bound : Nat} {s : State} (h : s.Within input bound) :
    s.cursor.pos ≤ input.chars.length ∧ s.cursor.depth ≤ maxNesting :=
  h.visited s.cursor List.mem_cons_self

/-- **Simulation**: the action comes to an end. If it has a value, what follows is read as before
by the reader in a further state, and `post` holds of value, cursor and that state. If it fails,
the reader fails in the same way. -/
inductive Follows {α : Type} (σ : Setting) (bound : Nat) (p : Action α) (s : State)
    (r : Reader.State) (post : α → Cursor → Reader.State → Prop) : Prop
  | value {a : α} {t : State} {u : Reader.State} (returns : Returns p s (.ok a) t)
      (within : t.Within σ.toInput bound)
      (same : σ.resume r s.cursor = σ.resume u t.cursor) (holds : post a t.cursor u)
  | refused {err : SyntaxError} {t : State} (returns : Returns p s (.error (.refused err)) t)
      (within : t.Within σ.toInput bound) (same : σ.resume r s.cursor = .error err)

namespace Follows

variable {α β : Type} {σ : Setting} {bound : Nat} {p : Action α} {f : α → Action β} {s : State}
  {r u : Reader.State} {post mid : α → Cursor → Reader.State → Prop}
  {post' : β → Cursor → Reader.State → Prop}

theorem pure {a : α} (hs : s.Within σ.toInput bound) (h : post a s.cursor r) :
    Follows σ bound (pure a) s r post :=
  .value rfl hs rfl h

theorem bind (hp : Follows σ bound p s r mid)
    (hf : ∀ a t u, t.Within σ.toInput bound → mid a t.cursor u → Follows σ bound (f a) t u post') :
    Follows σ bound (p >>= f) s r post' := by
  cases hp with
  | @value a t u returns within same holds =>
    cases hf a t u within holds with
    | value returns' within' same' holds' =>
      exact .value (returns.bind returns') within' (same.trans same') holds'
    | refused returns' within' same' =>
      exact .refused (returns.bind returns') within' (same.trans same')
  | refused returns within same => exact .refused returns.bind_error within same

theorem get_bind {f : State → Action β} (h : Follows σ bound (f s) s r post') :
    Follows σ bound (get >>= f) s r post' := by
  cases h with
  | value returns within same holds => exact .value (Returns.bind rfl returns) within same holds
  | refused returns within same => exact .refused (Returns.bind rfl returns) within same

theorem mono (h : Follows σ bound p s r post) (hpost : ∀ a c u, post a c u → mid a c u) :
    Follows σ bound p s r mid := by
  cases h with
  | value returns within same holds => exact .value returns within same (hpost _ _ _ holds)
  | refused returns within same => exact .refused returns within same

end Follows

section Actions

variable {α : Type} {σ : Setting} {bound : Nat} {s : State} {r u : Reader.State}

theorem follows_moveTo {pos depth : Nat} (hs : s.Within σ.toInput bound)
    (hpos : pos ≤ σ.chars.length) (hdepth : depth ≤ maxNesting)
    (same : σ.resume r s.cursor = σ.resume u ⟨pos, depth⟩) :
    Follows σ bound (moveTo ⟨pos, depth⟩) s r fun _ c u' => c = ⟨pos, depth⟩ ∧ u' = u := by
  have hwithin : State.Within σ.toInput bound ⟨⟨pos, depth⟩, s.visited, s.peak⟩ := by
    refine ⟨fun v hv => ?_, hs.peak⟩
    obtain rfl | hv := List.mem_cons.mp hv
    · exact ⟨hpos, hdepth⟩
    · exact hs.visited v hv
  exact .value rfl hwithin same ⟨rfl, rfl⟩

theorem follows_advance {found : Char} (hs : s.Within σ.toInput bound)
    (hnext : σ.next? s.cursor = some found) (hstep : r.step found = .ok u) :
    Follows σ bound advance s r fun _ c u' =>
      c = ⟨s.cursor.pos + 1, s.cursor.depth⟩ ∧ u' = u := by
  have hpos : s.cursor.pos + 1 ≤ σ.chars.length := Input.pos_lt_of_next? hnext
  exact .get_bind (follows_moveTo hs hpos hs.here.2 (Input.resume_of_step hnext hstep))

theorem follows_refuse {expected : Expected} {post : α → Cursor → Reader.State → Prop}
    (hs : s.Within σ.toInput bound) (hstop : σ.Stops r s.cursor expected) :
    Follows σ bound (refuse σ expected) s r post :=
  .get_bind (.refused rfl hs (Input.resume_of_stops hstop))

theorem follows_expect_cons {expected : Expected} {want : Char} {later : List Char}
    {post : Unit → Cursor → Reader.State → Prop} (hs : s.Within σ.toInput bound)
    (hstep : r.step want = .ok u)
    (hstop : σ.next? s.cursor ≠ some want → σ.Stops r s.cursor expected)
    (hlater : ∀ t : State, t.Within σ.toInput bound →
      t.cursor = ⟨s.cursor.pos + 1, s.cursor.depth⟩ →
        Follows σ bound (expect σ expected later) t u post) :
    Follows σ bound (expect σ expected (want :: later)) s r post := by
  refine .get_bind ?_
  by_cases hnext : σ.next? s.cursor = some want
  · rw [if_pos hnext]
    refine (follows_advance hs hnext hstep).bind ?_
    rintro _ t _ ht ⟨hcursor, rfl⟩
    exact hlater t ht hcursor
  · rw [if_neg hnext]
    exact follows_refuse hs (hstop hnext)

/-- The rest of a word. -/
theorem follows_expect_spelling (groups : List Group) (word : Word) (before : Option Expr)
    (next : Char) (later : List Char) (hs : s.Within σ.toInput bound) :
    Follows σ bound (expect σ (.word word) (next :: later)) s
      ⟨groups, .spelling word next later before⟩ fun _ c u =>
        u = State.complete ⟨groups, .factor before⟩ word before ∧
          s.cursor.pos < c.pos ∧ c.depth = s.cursor.depth := by
  induction later generalizing s next with
  | nil =>
    refine follows_expect_cons hs (if_pos rfl) (Input.stops_of_spelling _ _ _ _ _) ?_
    intro t ht hcursor
    exact .pure ht ⟨rfl, by simp [hcursor], by simp [hcursor]⟩
  | cons next' later ih =>
    refine follows_expect_cons hs (if_pos rfl) (Input.stops_of_spelling _ _ _ _ _) ?_
    intro t ht hcursor
    refine (ih next' ht).mono ?_
    rintro _ c u ⟨hu, hpos, hdepth⟩
    rw [hcursor] at hpos hdepth
    exact ⟨hu, Nat.lt_of_succ_lt hpos, hdepth⟩

/-- A word that starts at the cursor. -/
theorem follows_expect_letters (groups : List Group) (word : Word) (before : Option Expr)
    (hs : s.Within σ.toInput bound) (hnext : σ.next? s.cursor = some word.initial)
    (hbelow : State.nesting ⟨groups, .spelling word word.second word.ending before⟩ ≤ maxNesting) :
    Follows σ bound (expect σ (.word word) word.letters) s ⟨groups, .factor before⟩ fun _ c u =>
      u = State.complete ⟨groups, .factor before⟩ word before ∧
        s.cursor.pos < c.pos ∧ c.depth = s.cursor.depth := by
  refine follows_expect_cons hs (step_of_move (.initial groups before word) hbelow)
    (fun hne => absurd hnext hne) ?_
  intro t ht hcursor
  refine (follows_expect_spelling groups word before _ _ ht).mono ?_
  rintro _ c u ⟨hu, hpos, hdepth⟩
  rw [hcursor] at hpos hdepth
  exact ⟨hu, Nat.lt_of_succ_lt hpos, hdepth⟩

/-- A group is opened where the reader opens it, and refused where the reader refuses it. -/
theorem follows_openGroup (hs : s.Within σ.toInput bound)
    (hstop : maxNesting ≤ s.cursor.depth → σ.Stops r s.cursor .shallower) :
    Follows σ bound (openGroup σ) s r fun _ c u =>
      u = r ∧ s.cursor.depth < maxNesting ∧ c = ⟨s.cursor.pos, s.cursor.depth + 1⟩ := by
  refine .get_bind ?_
  by_cases hlimit : maxNesting ≤ s.cursor.depth
  · rw [if_pos hlimit]
    exact follows_refuse hs (hstop hlimit)
  · rw [if_neg hlimit]
    have hbelow : s.cursor.depth < maxNesting := Nat.lt_of_not_le hlimit
    refine (follows_moveTo hs hs.here.1 (Nat.succ_le_of_lt hbelow) rfl).mono ?_
    rintro _ c u ⟨rfl, rfl⟩
    exact ⟨rfl, hbelow, rfl⟩

theorem follows_openingChars (groups : List Group) (opening : Opening) (before : Option Expr)
    (hs : s.Within σ.toInput bound)
    (hnext : σ.next? s.cursor = some (Lead.group opening).initial)
    (hbelow : groups.length < maxNesting) :
    Follows σ bound (openingChars σ opening) s ⟨groups, .factor before⟩ fun _ c u =>
      u = ⟨⟨opening, before⟩ :: groups, .factor none⟩ ∧
        s.cursor.pos < c.pos ∧ c.depth = s.cursor.depth := by
  cases opening with
  | call w => exact follows_expect_letters groups (.call w) before hs hnext hbelow
  | bare =>
    refine (follows_advance hs hnext (step_of_move (.bare groups before) hbelow)).mono ?_
    rintro _ c u ⟨rfl, rfl⟩
    exact ⟨rfl, Nat.lt_succ_self _, rfl⟩

/-- A group that is open is closed, and not more groups than are open. -/
theorem follows_closeGroup (g : Group) (groups : List Group) (contents : Expr)
    (hs : s.Within σ.toInput bound) (hdepth : s.cursor.depth = groups.length + 1)
    (hnext : σ.next? s.cursor ≠ some '*') :
    Follows σ bound (closeGroup σ) s ⟨g :: groups, .product contents⟩ fun _ c u =>
      u = ⟨groups, .product (g.close contents)⟩ ∧
        s.cursor.pos < c.pos ∧ c.depth = groups.length := by
  have hexpect : Follows σ bound (expect σ .closing [')']) s ⟨g :: groups, .product contents⟩
      fun _ c u => u = ⟨groups, .product (g.close contents)⟩ ∧
        c = ⟨s.cursor.pos + 1, s.cursor.depth⟩ := by
    refine follows_expect_cons hs rfl (Input.stops_of_product g groups contents hnext) ?_
    intro t ht hcursor
    exact .pure ht ⟨rfl, hcursor⟩
  refine hexpect.bind ?_
  rintro _ t _ ht ⟨rfl, hcursor⟩
  refine .get_bind ?_
  have hopen : t.cursor.depth ≠ 0 := by
    rw [hcursor, hdepth]
    exact Nat.succ_ne_zero _
  rw [if_neg hopen]
  have hlimit : t.cursor.depth - 1 ≤ maxNesting := Nat.le_trans (Nat.pred_le _) ht.here.2
  refine (follows_moveTo ht ht.here.1 hlimit rfl).mono ?_
  rintro _ c u ⟨rfl, rfl⟩
  rw [hcursor, hdepth]
  exact ⟨rfl, Nat.lt_succ_self _, rfl⟩

theorem follows_enter {active : Nat} (hs : s.Within σ.toInput bound) (hactive : active < bound)
    (hroom : ∀ n ∈ σ.cutoff, bound ≤ n) :
    Follows σ bound (enter σ active) s r fun _ c u => c = s.cursor ∧ u = r := by
  have hnot : ¬ σ.cutoff.any (· ≤ active) = true := by
    rw [Option.any_eq_true]
    rintro ⟨n, hn, hle⟩
    have hbound := hroom n hn
    have hn' := of_decide_eq_true hle
    omega
  rw [enter, if_neg hnot]
  exact .value rfl ⟨hs.visited, Nat.max_le.mpr ⟨hs.peak, hactive⟩⟩ rfl ⟨rfl, rfl⟩

end Actions

end Descent

end TrigPainting
