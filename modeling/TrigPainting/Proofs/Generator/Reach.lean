import TrigPainting.Proofs.Generator.Draws

/-!
# A greatest depth that is not reached

The greatest depth matters to a node of the last level only, where it makes a leaf of what might
have gone on. A tree without nodes on that level has made the same draws as it would have made
with any greater depth or none. A tree that has some ends there: all of them are leaves.

## Main statements

- `Expr.level_add_depth_le` — a node and what is under it fit into the depth of the tree
- `Generator.Grows.of_depth_le` — levels that a tree has not used can be added to
- `Generator.expression_of_cutoff` — a greatest depth is reached or makes no difference
-/

namespace TrigPainting

variable {α σ : Type}

namespace Expr

variable {e node : Expr} {level n : Nat}

theorem level_add_depth_le (h : (n, node) ∈ e.preorder level) :
    n + node.depth ≤ level + e.depth := by
  induction e generalizing level with
  | coord _
  | pi =>
    cases List.mem_singleton.mp h
    exact le_rfl
  | wave w arg ih
  | piWave w arg ih =>
    rcases List.mem_cons.mp h with hroot | harg
    · cases hroot
      exact le_rfl
    · have hle := ih harg
      rw [depth]
      omega
  | times lhs rhs ihl ihr =>
    rcases List.mem_cons.mp h with hroot | hoperand
    · cases hroot
      exact le_rfl
    · rw [depth]
      rcases List.mem_append.mp hoperand with hleft | hright
      · have hle := ihl hleft
        omega
      · have hle := ihr hright
        omega

theorem isLeaf_of_depth_le_one (h : e.depth ≤ 1) : e.isLeaf = true := by
  cases e with
  | coord _
  | pi => rfl
  | wave w arg
  | piWave w arg =>
    have hpos := arg.depth_pos
    rw [depth] at h
    omega
  | times lhs rhs =>
    have hpos := lhs.depth_pos
    rw [depth] at h
    omega

/-- Nothing is under the nodes of the last level. -/
theorem isLeaf_of_last_level (h : (e.depth, node) ∈ e.preorder 1) : node.isLeaf = true := by
  have hle := level_add_depth_le h
  exact isLeaf_of_depth_le_one (by omega)

end Expr

namespace Generator

variable {odds : Odds α} {source : Source α σ} {below more m : Nat} {p : α} {s t : σ} {e : Expr}

/-- **Unused levels**: where a tree has left a level, its draws give the same tree with more
levels to grow on. -/
theorem Grows.of_depth_le (h : Grows odds source below p s e t) (hdepth : e.depth ≤ below)
    (hmore : below ≤ more) : Grows odds source more p s e t := by
  induction h generalizing more with
  | leaf chance ends pick =>
    rw [depth_leaf] at hdepth
    -- The leaf was drawn: a level was left.
    have hdrawn := ends.resolve_left (by omega)
    exact .leaf chance (.inr hdrawn) pick
  | wave chance goesOn pick drawn child ih =>
    rw [Expr.depth] at hdepth
    obtain ⟨rest, rfl⟩ : ∃ rest, more = rest + 1 := ⟨more - 1, by omega⟩
    exact .wave chance goesOn pick drawn (ih (by omega) (by omega))
  | piWave chance goesOn pick drawn child ih =>
    rw [Expr.depth] at hdepth
    obtain ⟨rest, rfl⟩ : ∃ rest, more = rest + 1 := ⟨more - 1, by omega⟩
    exact .piWave chance goesOn pick drawn (ih (by omega) (by omega))
  | times chance goesOn pick drawn left right ihleft ihright =>
    rw [Expr.depth] at hdepth
    obtain ⟨rest, rfl⟩ : ∃ rest, more = rest + 1 := ⟨more - 1, by omega⟩
    exact .times chance goesOn pick drawn (ihleft (by omega) (by omega))
      (ihright (by omega) (by omega))

theorem expression_eq_ok_iff {maxDepth : Option Nat}
    (hvalid : Settings.valid odds ⟨p, maxDepth⟩ = true) :
    expression odds source ⟨p, maxDepth⟩ s = (.ok e, t) ↔
      Grows odds source (Settings.cutoff ⟨p, maxDepth⟩ - 1) p s e t := by
  rw [← grow_eq_iff_grows, expression, if_pos hvalid, draw]
  simp [Prod.ext_iff]

/-- **A greatest depth is reached or makes no difference**: a tree that is less deep is the one
that every greater depth gives, and none at all, and it leaves the source in the same state. Any
other tree is just as deep as allowed, and its nodes on the last level are leaves. Without a
greatest depth, the largest machine word takes its place, which no greatest depth exceeds. -/
theorem expression_of_cutoff (odds : Odds α) (source : Source α σ) {p : α} {m : Nat} (s : σ)
    (hvalid : Settings.valid odds ⟨p, some m⟩ = true) :
    ∃ e t, expression odds source ⟨p, some m⟩ s = (.ok e, t) ∧
      (e.depth < m →
        (∀ d ≥ m, expression odds source ⟨p, some d⟩ s = (.ok e, t)) ∧
        (m < UInt64.size → expression odds source ⟨p, none⟩ s = (.ok e, t))) ∧
      (1 ≤ m → m ≤ e.depth →
        e.depth = m ∧ ∀ node, (m, node) ∈ e.preorder 1 → node.isLeaf = true) := by
  have hgrows := grows_grow odds source (m - 1) p s
  set e := (grow odds source (m - 1) p s).1
  set t := (grow odds source (m - 1) p s).2
  refine ⟨e, t, (expression_eq_ok_iff hvalid).mpr hgrows,
    fun hless => ⟨fun d hd => ?_, fun hm => ?_⟩, fun hpos hreached => ?_⟩
  · have hsome : Settings.valid odds ⟨p, some d⟩ = true := hvalid
    have hmore : m - 1 ≤ d - 1 := Nat.sub_le_sub_right hd 1
    exact (expression_eq_ok_iff hsome).mpr (hgrows.of_depth_le (by omega) hmore)
  · have hnone : Settings.valid odds ⟨p, none⟩ = true := hvalid
    have hmore : m - 1 ≤ UInt64.size - 1 - 1 := by omega
    exact (expression_eq_ok_iff hnone).mpr (hgrows.of_depth_le (by omega) hmore)
  · have hle := hgrows.depth_le
    have hdepth : e.depth = m := by omega
    refine ⟨hdepth, fun node hnode => ?_⟩
    rw [← hdepth] at hnode
    exact Expr.isLeaf_of_last_level hnode

/-- A product of five levels of the machine source, with a level to spare and with two too few. -/
theorem expression_of_cutoff_around_depth :
    let grown := fun maxDepth =>
      expression .binary64 Xoshiro.source ⟨usualProbability, maxDepth⟩ (.ofSeed 67)
    (∃ e t, grown (some 6) = (.ok e, t) ∧ e.depth = 5 ∧ grown (some usualDepth) = (.ok e, t) ∧
      grown none = (.ok e, t)) ∧
    ∃ e t, grown (some 3) = (.ok e, t) ∧ e.depth = 3 ∧
      ∀ node, (3, node) ∈ e.preorder 1 → node.isLeaf = true := by
  intro grown
  have hvalid : Settings.valid .binary64 ⟨usualProbability, some 6⟩ = true := by decide +kernel
  have hvalid' : Settings.valid .binary64 ⟨usualProbability, some 3⟩ = true := by decide +kernel
  have hfive : (grown (some 6)).1.toOption.map Expr.depth = some 5 := by decide +kernel
  have hthree : (grown (some 3)).1.toOption.map Expr.depth = some 3 := by decide +kernel
  obtain ⟨e, t, he, hunreached, -⟩ :=
    expression_of_cutoff .binary64 Xoshiro.source (.ofSeed 67) hvalid
  obtain ⟨e', t', he', -, hreached⟩ :=
    expression_of_cutoff .binary64 Xoshiro.source (.ofSeed 67) hvalid'
  have hdepth : e.depth = 5 := by
    rw [show grown (some 6) = (.ok e, t) from he] at hfive
    exact Option.some.inj hfive
  have hdepth' : e'.depth = 3 := by
    rw [show grown (some 3) = (.ok e', t') from he'] at hthree
    exact Option.some.inj hthree
  obtain ⟨hgreater, hnone⟩ := hunreached (by omega)
  exact ⟨⟨e, t, he, hdepth, hgreater usualDepth (by decide), hnone (by decide)⟩,
    e', t', he', hreached (by decide) (by omega)⟩

end Generator

end TrigPainting
