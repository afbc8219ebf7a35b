import TrigPainting.Proofs.Generator.Cutoff

/-!
# Trees and the draws that give them

A source is here any sequence of answers, one for each draw. A tree comes from the answers
that follow its nodes in preorder, two for each node: a chance that decides whether the node has
children, and a choice that decides what it is. No other answers give the tree, and none is
drawn beyond them.

## Main definitions

- `Answer`, `Source.ofAnswers` — a sequence of answers as a source
- `Expr.preorder` — the nodes of a tree with their levels
- `Generator.DrawnAs` — the two answers that make a node

## Main statements

- `Generator.Grows.grow_eq` — what the draws say is what is grown
- `Generator.Grows.isDrawn`, `Generator.grows_of_isDrawn` — draws and nodes
- `Generator.draw_eq_iff` — the draws of a tree
-/

namespace TrigPainting

variable {α σ : Type}

/-- An answer to the next draw, whichever it is. -/
structure Answer (α : Type) where
  chance : α
  pick : (n : Nat) → 0 < n → Fin n

/-- The source that gives a sequence of answers. Its state is the number of answers given. -/
def Source.ofAnswers (answers : Nat → Answer α) : Source α Nat where
  chance k := ((answers k).chance, k + 1)
  pick n hn k := ((answers k).pick n hn, k + 1)

/-- The nodes of a tree in preorder, the left operand before the right. Each is given as the
level it stands at, where the root stands at the given one, and the tree under it. -/
def Expr.preorder (level : Nat) : Expr → List (Nat × Expr)
  | coord a => [(level, coord a)]
  | pi => [(level, pi)]
  | wave w arg => (level, wave w arg) :: preorder (level + 1) arg
  | piWave w arg => (level, piWave w arg) :: preorder (level + 1) arg
  | times lhs rhs =>
    (level, times lhs rhs) :: (preorder (level + 1) lhs ++ preorder (level + 1) rhs)

@[simp]
theorem Expr.length_preorder (level : Nat) (e : Expr) : (e.preorder level).length = e.size := by
  induction e generalizing level with
  | coord _ => rfl
  | pi => rfl
  | wave _ _ ih => simp [preorder, size, ih, Nat.add_comm]
  | piWave _ _ ih => simp [preorder, size, ih, Nat.add_comm]
  | times _ _ ihl ihr =>
    simp only [preorder, size, List.length_cons, List.length_append, ihl, ihr]
    omega

example : (Expr.times (.wave .sine .pi) (.coord .x)).preorder 1 =
    [(1, .times (.wave .sine .pi) (.coord .x)), (2, .wave .sine .pi), (3, .pi), (2, .coord .x)] :=
  rfl

theorem Odds.squared_succ (odds : Odds α) (n : Nat) (p : α) :
    odds.squared (n + 1) p = odds.mul (odds.squared n p) (odds.squared n p) :=
  Function.iterate_succ_apply' ..

namespace Generator

/-- The shape of a node that has children. -/
def shape? : Expr → Option Shape
  | .wave w _ => some (.wave w)
  | .piWave w _ => some (.piWave w)
  | .times _ _ => some .times
  | _ => none

/-- **The two answers of a node** at a level, where the root stands at level 1. It has children
if the chance lies below the probability of the level and a further level is allowed, and then
the choice is its shape. Otherwise the choice is the leaf. -/
inductive DrawnAs (odds : Odds α) (settings : Settings α) (level : Nat)
    (first second : Answer α) : Expr → Prop
  | leaf {e : Expr}
      (ends : odds.lt first.chance (odds.squared (level - 1) settings.probability) = false ∨
        settings.cutoff ≤ level)
      (drawn : Generator.leaf (second.pick 5 (by decide)) = e) :
      DrawnAs odds settings level first second e
  | branch {e : Expr}
      (goesOn : odds.lt first.chance (odds.squared (level - 1) settings.probability) = true)
      (allowed : level < settings.cutoff)
      (drawn : shape? e = some (shape (second.pick 8 (by decide)))) :
      DrawnAs odds settings level first second e

variable {odds : Odds α} {answers : Nat → Answer α} {settings : Settings α} {s t m n : Nat}
  {e : Expr}

theorem shape?_leaf (i : Fin 5) : shape? (leaf i) = none := by
  revert i
  decide

theorem size_leaf (i : Fin 5) : (leaf i).size = 1 := by
  revert i
  decide

theorem DrawnAs.ends {level : Nat} {first second : Answer α}
    (h : DrawnAs odds settings level first second e) (he : shape? e = none) :
    (odds.lt first.chance (odds.squared (level - 1) settings.probability) = false ∨
      settings.cutoff ≤ level) ∧ Generator.leaf (second.pick 5 (by decide)) = e := by
  cases h with
  | leaf ends drawn => exact ⟨ends, drawn⟩
  | branch _ _ drawn =>
    rw [he] at drawn
    cases drawn

theorem DrawnAs.goesOn {level : Nat} {first second : Answer α} {o : Shape}
    (h : DrawnAs odds settings level first second e) (he : shape? e = some o) :
    odds.lt first.chance (odds.squared (level - 1) settings.probability) = true ∧
      level < settings.cutoff ∧ shape (second.pick 8 (by decide)) = o := by
  cases h with
  | leaf _ drawn =>
    rw [← drawn, shape?_leaf] at he
    cases he
  | branch goesOn allowed drawn =>
    rw [he] at drawn
    exact ⟨goesOn, allowed, (Option.some.inj drawn).symm⟩

-- ════════════════════════════════════════════════════════════════════════
-- Draws and trees
-- ════════════════════════════════════════════════════════════════════════

theorem Grows.grow_eq {source : Source α σ} {below : Nat} {p : α} {s t : σ}
    (h : Grows odds source below p s e t) : grow odds source below p s = (e, t) := by
  induction h with
  | @leaf below p u s t r i chance ends pick =>
    cases below with
    | zero => simp [grow, chance, pick]
    | succ below =>
      obtain hzero | hlt := ends
      · cases hzero
      · simp [grow, chance, hlt, pick]
  | wave chance goesOn pick drawn _ ih => simp [grow, chance, goesOn, pick, drawn, ih]
  | piWave chance goesOn pick drawn _ ih => simp [grow, chance, goesOn, pick, drawn, ih]
  | times chance goesOn pick drawn _ _ ihleft ihright =>
    simp [grow, chance, goesOn, pick, drawn, ihleft, ihright]

theorem grow_eq_iff_grows {source : Source α σ} {below : Nat} {p : α} {s t : σ} :
    grow odds source below p s = (e, t) ↔ Grows odds source below p s e t := by
  refine ⟨fun h => ?_, Grows.grow_eq⟩
  have hgrows := grows_grow odds source below p s
  rwa [h] at hgrows

/-- The answers from the state `s` on draw a row of nodes, of which the first is the node
number `n`. -/
def IsDrawn (odds : Odds α) (settings : Settings α) (answers : Nat → Answer α) (s n : Nat)
    (nodes : List (Nat × Expr)) : Prop :=
  ∀ x ∈ nodes.zipIdx n,
    DrawnAs odds settings x.1.1 (answers (s + 2 * x.2)) (answers (s + 2 * x.2 + 1)) x.1.2

theorem isDrawn_cons {level : Nat} {nodes : List (Nat × Expr)} :
    IsDrawn odds settings answers s n ((level, e) :: nodes) ↔
      DrawnAs odds settings level (answers (s + 2 * n)) (answers (s + 2 * n + 1)) e ∧
        IsDrawn odds settings answers s (n + 1) nodes := by
  simp only [IsDrawn, List.zipIdx_cons, List.forall_mem_cons]

theorem isDrawn_append {front back : List (Nat × Expr)} :
    IsDrawn odds settings answers s n (front ++ back) ↔
      IsDrawn odds settings answers s n front ∧
        IsDrawn odds settings answers s (n + front.length) back := by
  simp only [IsDrawn, List.zipIdx_append, List.forall_mem_append]

theorem isDrawn_nil : IsDrawn odds settings answers s n [] := nofun

theorem preorder_leaf (i : Fin 5) (level : Nat) :
    (leaf i).preorder level = [(level, leaf i)] := by
  fin_cases i <;> rfl

/-- **What was drawn**: a tree that is grown from the state after `2 * n` answers has drawn two
answers for each of its nodes. -/
theorem Grows.isDrawn {below : Nat} {p : α} {r : Nat}
    (h : Grows odds (.ofAnswers answers) below p r e t) (hbelow : below = settings.cutoff - (m + 1))
    (hp : p = odds.squared m settings.probability) (hr : r = s + 2 * n) :
    t = s + 2 * (n + e.size) ∧ IsDrawn odds settings answers s n (e.preorder (m + 1)) := by
  induction h generalizing m n with
  | leaf chance ends pick =>
    cases chance
    cases pick
    subst hp hr
    have hends := ends.symm.imp_right fun hzero => (by omega : settings.cutoff ≤ m + 1)
    rw [size_leaf, preorder_leaf]
    exact ⟨rfl, isDrawn_cons.mpr ⟨.leaf hends rfl, isDrawn_nil⟩⟩
  | wave chance goesOn pick drawn child ih =>
    cases chance
    cases pick
    subst hp hr
    have hallowed : m + 1 < settings.cutoff := by omega
    obtain ⟨ht, hchild⟩ := @ih (m + 1) (n + 1) (by omega) (odds.squared_succ m _).symm (by omega)
    refine ⟨by rw [ht, Expr.size]; omega, isDrawn_cons.mpr ⟨?_, hchild⟩⟩
    exact .branch goesOn hallowed (congrArg some drawn.symm)
  | piWave chance goesOn pick drawn child ih =>
    cases chance
    cases pick
    subst hp hr
    have hallowed : m + 1 < settings.cutoff := by omega
    obtain ⟨ht, hchild⟩ := @ih (m + 1) (n + 1) (by omega) (odds.squared_succ m _).symm (by omega)
    refine ⟨by rw [ht, Expr.size]; omega, isDrawn_cons.mpr ⟨?_, hchild⟩⟩
    exact .branch goesOn hallowed (congrArg some drawn.symm)
  | @times _ _ _ _ _ _ _ _ _ lhs rhs chance goesOn pick drawn left right ihleft ihright =>
    cases chance
    cases pick
    subst hp hr
    have hallowed : m + 1 < settings.cutoff := by omega
    have hp := (odds.squared_succ m settings.probability).symm
    obtain ⟨hq, hleft⟩ := @ihleft (m + 1) (n + 1) (by omega) hp (by omega)
    obtain ⟨ht, hright⟩ := @ihright (m + 1) (n + 1 + lhs.size) (by omega) hp hq
    rw [← lhs.length_preorder (m + 2)] at hright
    refine ⟨by rw [ht, Expr.size]; omega, isDrawn_cons.mpr ⟨?_, isDrawn_append.mpr ⟨hleft, hright⟩⟩⟩
    exact .branch goesOn hallowed (congrArg some drawn.symm)

/-- Where a further level is allowed, one more is left than at that level. -/
theorem below_eq (allowed : m + 1 < settings.cutoff) :
    settings.cutoff - (m + 1) = settings.cutoff - (m + 1 + 1) + 1 := by
  omega

theorem grows_of_drawnAs_leaf (he : shape? e = none)
    (h : DrawnAs odds settings (m + 1) (answers (s + 2 * n)) (answers (s + 2 * n + 1)) e) :
    Grows odds (.ofAnswers answers) (settings.cutoff - (m + 1))
      (odds.squared m settings.probability) (s + 2 * n) e (s + 2 * (n + 1)) := by
  obtain ⟨ends, rfl⟩ := h.ends he
  exact .leaf rfl (ends.symm.imp_left Nat.sub_eq_zero_of_le) rfl

/-- **What the draws give**: from the state after `2 * n` answers, a tree is grown whose nodes
the answers draw. -/
theorem grows_of_isDrawn (h : IsDrawn odds settings answers s n (e.preorder (m + 1))) :
    Grows odds (.ofAnswers answers) (settings.cutoff - (m + 1))
      (odds.squared m settings.probability) (s + 2 * n) e (s + 2 * (n + e.size)) := by
  induction e generalizing m n with
  | coord a => exact grows_of_drawnAs_leaf rfl (isDrawn_cons.mp h).1
  | pi => exact grows_of_drawnAs_leaf rfl (isDrawn_cons.mp h).1
  | wave w arg ih =>
    obtain ⟨hroot, harg⟩ := isDrawn_cons.mp h
    obtain ⟨goesOn, allowed, drawn⟩ := hroot.goesOn rfl
    have child := ih harg
    rw [odds.squared_succ] at child
    rw [below_eq allowed, Expr.size, ← Nat.add_assoc]
    exact .wave rfl goesOn rfl drawn child
  | piWave w arg ih =>
    obtain ⟨hroot, harg⟩ := isDrawn_cons.mp h
    obtain ⟨goesOn, allowed, drawn⟩ := hroot.goesOn rfl
    have child := ih harg
    rw [odds.squared_succ] at child
    rw [below_eq allowed, Expr.size, ← Nat.add_assoc]
    exact .piWave rfl goesOn rfl drawn child
  | times lhs rhs ihl ihr =>
    obtain ⟨hroot, hoperands⟩ := isDrawn_cons.mp h
    obtain ⟨goesOn, allowed, drawn⟩ := hroot.goesOn rfl
    obtain ⟨hleft, hright⟩ := isDrawn_append.mp hoperands
    rw [Expr.length_preorder] at hright
    have left := ihl hleft
    have right := ihr hright
    rw [odds.squared_succ] at left right
    rw [below_eq allowed, Expr.size, ← Nat.add_assoc, ← Nat.add_assoc]
    exact .times rfl goesOn rfl drawn left right

/-- **The draws of a tree**: answers give a tree if and only if as many are drawn as the tree has
nodes, twice, and they are, two by two, the answers of its nodes in preorder. -/
theorem draw_eq_iff (odds : Odds α) (answers : Nat → Answer α) (settings : Settings α) (s t : Nat)
    (e : Expr) :
    draw odds (.ofAnswers answers) settings s = (e, t) ↔
      t = s + 2 * e.size ∧ ∀ (k level : Nat) (node : Expr),
        (e.preorder 1)[k]? = some (level, node) →
          DrawnAs odds settings level (answers (s + 2 * k)) (answers (s + 2 * k + 1)) node := by
  rw [draw, grow_eq_iff_grows]
  constructor
  · intro h
    obtain ⟨ht, hdrawn⟩ := Grows.isDrawn (m := 0) (n := 0) h rfl rfl rfl
    rw [Nat.zero_add] at ht
    refine ⟨ht, fun k level node hnode => ?_⟩
    exact hdrawn ((level, node), k) (List.mk_mem_zipIdx_iff_getElem?.mpr hnode)
  · rintro ⟨rfl, hdrawn⟩
    have hnodes : IsDrawn odds settings answers s 0 (e.preorder 1) := by
      rintro ⟨⟨level, node⟩, k⟩ hmem
      exact hdrawn k level node (List.mk_mem_zipIdx_iff_getElem?.mp hmem)
    have hgrows : Grows odds (.ofAnswers answers) (settings.cutoff - 1) settings.probability s e
        (s + 2 * (0 + e.size)) := grows_of_isDrawn (m := 0) hnodes
    rwa [Nat.zero_add] at hgrows

end Generator

end TrigPainting
