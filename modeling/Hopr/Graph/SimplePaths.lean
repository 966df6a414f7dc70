import Mathlib.Data.List.Nodup
import Mathlib.Algebra.Order.BigOperators.Group.List
import Mathlib.Algebra.Order.Ring.Nat
import Hopr.Graph.Algorithm

/-! The search finds exactly the paths that were asked for.

A path is `Wanted` by what the documentation says of the arguments. `Admits`
says it again in the order in which the search goes, edge by edge behind the
nodes it has visited. A node's edges are tried in rounds that yield exactly the
paths that it admits behind them (`explored`), by induction on the number of
nodes that are left. So the search is exact (`Exact`) as long as it has room and the
sums of the bounds do not wrap around, and on some graph it is not if one of them
does (`exact_iff`). -/
namespace Hopr.Graph.SimplePaths
open Search

section Spec
variable {V W C : Type}

def Walk (g : DiGraph V W) : V → List (V × W) → Prop
  | _, [] => True
  | v, step :: rest => step ∈ g.edges_directed v ∧ Walk g step.1 rest

/-- A walk stays in the graph. -/
theorem Walk.mem_nodes {g : DiGraph V W} {v : V} {steps : List (V × W)} (h : Walk g v steps) :
    ∀ x ∈ steps.map Prod.fst, x ∈ g.nodes := by
  induction steps generalizing v with
  | nil => exact fun _ hx => (nomatch hx)
  | cons step rest ih =>
    intro x hx
    cases List.mem_cons.mp hx with
    | inl heq => exact heq ▸ g.target_mem h.1
    | inr hx => exact ih h.2 x hx

/-- The cost function folded over the weights and hop numbers. -/
def folded (cost_fn : C → W → Nat → C) (cost : C) (hop : Nat) (steps : List (V × W)) : C :=
  ((steps.map Prod.snd).zipIdx hop).foldl (fun cost x => cost_fn cost x.1 x.2) cost

theorem folded_cons (cost_fn : C → W → Nat → C) (cost : C) (hop : Nat) (step : V × W)
    (rest : List (V × W)) : folded cost_fn cost hop (step :: rest) =
      folded cost_fn (cost_fn cost step.2 hop) (hop + 1) rest := rfl

theorem length_edges_le (g : DiGraph V W) (v : V) :
    (g.edges_directed v).length ≤ (g.nodes.map fun v => (g.edges_directed v).length).sum := by
  cases hedges : g.edges_directed v with
  | nil => exact Nat.zero_le _
  | cons x rest =>
    have hv : v ∈ g.nodes := g.source_mem (hedges ▸ List.mem_cons_self)
    rw [← hedges]
    exact List.single_le_sum (fun _ _ => Nat.zero_le _) _ (List.mem_map_of_mem hv)

variable [DecidableEq V] [LT C] [DecidableLT C] (g : DiGraph V W) (q : Query V W C)

/-- A path that was asked for, by its steps from the source. -/
structure Wanted (steps : List (V × W)) : Prop where
  walk : Walk g q.source steps
  simple : (q.source :: steps.map Prod.fst).Nodup
  nonempty : steps ≠ []
  target : ∀ v ∈ (steps.map Prod.fst).getLast?, v ∈ q.targets
  min : q.min_intermediate_nodes.toNat ≤ steps.length - 1
  max : ∀ l ∈ q.max_intermediate_nodes, steps.length - 1 ≤ l.toNat
  allowed : ∀ excl ∈ q.excluded_nodes, ∀ v ∈ steps.map Prod.fst, v ∉ excl
  cost : ∀ min ∈ q.min_cost, ∀ k, 0 < k → k ≤ steps.length →
    ¬ folded q.cost_fn q.initial_cost 0 (steps.take k) < min

/-- Each path that was asked for once, with its cost, and nothing else. -/
structure Exact (items : List (List V × C)) : Prop where
  once : (items.map Prod.fst).Nodup
  mem : ∀ path cost, (path, cost) ∈ items ↔ ∃ steps, Wanted g q steps ∧
    path = q.source :: steps.map Prod.fst ∧ cost = folded q.cost_fn q.initial_cost 0 steps

/-- The search goes on from a node to a child. -/
structure Enters (v : V) (before : List V) (cost : C) (step : V × W) : Prop where
  edge : step ∈ g.edges_directed v
  fresh : step.1 ∉ v :: before
  allowed : q.excludes step.1 = false
  cost : q.below (q.cost_fn cost step.2 before.length) = false

/-- The steps lead from a node, behind those before it, to a target; the path has from `lo` to `hi`
nodes. -/
inductive Admits (lo hi : Nat) : V → List V → C → List (V × W) → Prop
  | last {v before cost step} : Enters g q v before cost step → step.1 ∈ q.targets →
      lo ≤ before.length + 2 → before.length + 2 ≤ hi → Admits lo hi v before cost [step]
  | step {v before cost step rest} : Enters g q v before cost step →
      Admits lo hi step.1 (v :: before) (q.cost_fn cost step.2 before.length) rest →
      Admits lo hi v before cost (step :: rest)

variable {g q} {lo hi : Nat} {v : V} {before : List V} {cost : C} {steps : List (V × W)}

theorem Admits.ne_nil (h : Admits g q lo hi v before cost steps) : steps ≠ [] := by
  cases h <;> exact List.cons_ne_nil _ _

theorem Admits.length_le (h : Admits g q lo hi v before cost steps) :
    lo ≤ before.length + 1 + steps.length ∧ before.length + 1 + steps.length ≤ hi := by
  induction h with
  | last _ _ hlo hhi => exact ⟨hlo, hhi⟩
  | step _ _ ih =>
    rw [List.length_cons] at ih ⊢
    omega

/-- There is a target that was not visited. -/
theorem Admits.target_left (h : Admits g q lo hi v before cost steps) :
    ∃ n ∈ q.targets, n ∉ v :: before := by
  induction h with
  | last he ht => exact ⟨_, ht, he.fresh⟩
  | step _ _ ih =>
    obtain ⟨n, hn, hfresh⟩ := ih
    exact ⟨n, hn, fun hmem => hfresh (List.mem_cons_of_mem _ hmem)⟩

/-- What is admitted behind a node, read off the steps as a whole. -/
structure Extends (g : DiGraph V W) (q : Query V W C) (v : V) (before : List V) (cost : C)
    (steps : List (V × W)) : Prop where
  walk : Walk g v steps
  simple : (steps.map Prod.fst).Nodup
  fresh : ∀ x ∈ steps.map Prod.fst, x ∉ v :: before
  target : ∀ x ∈ (steps.map Prod.fst).getLast?, x ∈ q.targets
  allowed : ∀ x ∈ steps.map Prod.fst, q.excludes x = false
  cost : ∀ k, 0 < k → k ≤ steps.length →
    q.below (folded q.cost_fn cost before.length (steps.take k)) = false

theorem Admits.extends (h : Admits g q lo hi v before cost steps) : Extends g q v before cost steps := by
  induction h with
  | last he ht _ _ =>
    constructor
    case walk => exact ⟨he.edge, trivial⟩
    case simple => exact List.nodup_singleton _
    case fresh =>
      intro x hx
      rw [List.mem_singleton.mp hx]
      exact he.fresh
    case target =>
      intro x hx
      cases hx
      exact ht
    case allowed =>
      intro x hx
      rw [List.mem_singleton.mp hx]
      exact he.allowed
    case cost =>
      intro k hpos hle
      have hk : k = 1 := Nat.le_antisymm hle hpos
      rw [hk]
      exact he.cost
  | step he hrest ih =>
    constructor
    case walk => exact ⟨he.edge, ih.walk⟩
    case simple =>
      refine List.nodup_cons.mpr ⟨?_, ih.simple⟩
      intro hmem
      exact ih.fresh _ hmem List.mem_cons_self
    case fresh =>
      intro x hx
      cases List.mem_cons.mp hx with
      | inl heq => exact heq ▸ he.fresh
      | inr hx => exact fun hmem => ih.fresh x hx (List.mem_cons_of_mem _ hmem)
    case target =>
      intro x hx
      have hne : List.map Prod.fst _ ≠ [] := fun hnil => hrest.ne_nil (List.map_eq_nil_iff.mp hnil)
      rw [List.map_cons, List.getLast?_cons_of_ne_nil hne] at hx
      exact ih.target x hx
    case allowed =>
      intro x hx
      cases List.mem_cons.mp hx with
      | inl heq => exact heq ▸ he.allowed
      | inr hx => exact ih.allowed x hx
    case cost =>
      intro k hpos hle
      cases k with
      | zero => cases hpos
      | succ k =>
        rw [List.take_succ_cons, folded_cons]
        cases k with
        | zero => exact he.cost
        | succ k => exact ih.cost (k + 1) (Nat.succ_pos k) (Nat.le_of_succ_le_succ hle)

theorem Extends.admits (hne : steps ≠ []) (h : Extends g q v before cost steps)
    (hlo : lo ≤ before.length + 1 + steps.length) (hhi : before.length + 1 + steps.length ≤ hi) :
    Admits g q lo hi v before cost steps := by
  induction steps generalizing v before cost with
  | nil => exact absurd rfl hne
  | cons step rest ih =>
    have he : Enters g q v before cost step :=
      ⟨h.walk.1, h.fresh _ List.mem_cons_self, h.allowed _ List.mem_cons_self,
        h.cost 1 Nat.one_pos (Nat.succ_pos _)⟩
    cases rest with
    | nil => exact .last he (h.target _ rfl) hlo hhi
    | cons step' rest =>
      refine .step he (ih (List.cons_ne_nil _ _) ?_ ?_ ?_)
      · constructor
        case walk => exact h.walk.2
        case simple => exact (List.nodup_cons.mp h.simple).2
        case fresh =>
          intro x hx hmem
          cases List.mem_cons.mp hmem with
          | inl heq => exact (List.nodup_cons.mp h.simple).1 (heq ▸ hx)
          | inr hmem => exact h.fresh x (List.mem_cons_of_mem _ hx) hmem
        case target => exact h.target
        case allowed =>
          intro x hx
          exact h.allowed x (List.mem_cons_of_mem _ hx)
        case cost =>
          intro k hpos hle
          exact h.cost (k + 1) (Nat.succ_pos k) (Nat.succ_le_succ hle)
      · rw [List.length_cons] at hlo ⊢
        omega
      · rw [List.length_cons] at hhi ⊢
        omega

end Spec

/-! ### Rounds -/

section Rounds
variable {V W C R : Type} [DecidableEq V] [LT C] [DecidableLT C] (g : DiGraph V W) (q : Query V W C)
  (sh : Shuffle R (V × W))

/-- So many rounds lead from one state to another and yield the items. -/
inductive Emits : Search V W C R → Nat → List (List V × C) → Search V W C R → Prop
  | refl (s) : Emits s 0 [] s
  | continued {s s' s'' n items} : Search.round g q sh s = .continued s' → Emits s' n items s'' →
      Emits s (n + 1) items s''
  | yielded {s s' s'' n path cost items} : Search.round g q sh s = .yielded path cost s' →
      Emits s' n items s'' → Emits s (n + 1) ((path, cost) :: items) s''

variable {g q sh} {s s' s'' : Search V W C R} {n m : Nat} {items items' : List (List V × C)}

theorem Emits.trans (h : Emits g q sh s n items s') (h' : Emits g q sh s' m items' s'') :
    Emits g q sh s (n + m) (items ++ items') s'' := by
  induction h with
  | refl => simpa only [Nat.zero_add, List.nil_append] using h'
  | continued hround _ ih => exact Nat.succ_add _ m ▸ .continued hround (ih h')
  | yielded hround _ ih => exact Nat.succ_add _ m ▸ .yielded hround (ih h')

/-- Rounds up to the end are what the iterator yields. -/
theorem Emits.collect (h : Emits g q sh s n items s') (hend : Search.round g q sh s' = .finished)
    (hm : n < m) : collect g q sh m s = some items := by
  induction h generalizing m with
  | refl s =>
    cases m with
    | zero => cases hm
    | succ m => simp only [Search.collect, hend]
  | continued hround _ ih =>
    cases m with
    | zero => cases hm
    | succ m => simp only [Search.collect, hround, ih hend (Nat.lt_of_succ_lt_succ hm)]
  | yielded hround _ ih =>
    cases m with
    | zero => cases hm
    | succ m => simp only [Search.collect, hround, ih hend (Nat.lt_of_succ_lt_succ hm), Option.map_some]

/-- The edges of a node have all been tried. -/
theorem emits_pop (v : V) (before : List V) (stack : List (List (V × W))) (cost : C) (costs : List C)
    (rng : R) : Emits g q sh ⟨v :: before, [] :: stack, cost :: costs, rng⟩ 1 []
      ⟨before, stack, costs, rng⟩ :=
  .continued rfl (.refl _)

/-- What the edges of a node yield behind it. -/
structure Found (g : DiGraph V W) (q : Query V W C) (lo hi : Nat) (v : V) (before : List V) (cost : C)
    (edges : List (V × W)) (items : List (List V × C)) : Prop where
  once : (items.map Prod.fst).Nodup
  mem : ∀ path total, (path, total) ∈ items ↔ ∃ step ∈ edges, ∃ rest,
    Admits g q lo hi v before cost (step :: rest) ∧
    path = (v :: before).reverse ++ step.1 :: rest.map Prod.fst ∧
    total = folded q.cost_fn cost before.length (step :: rest)

variable {lo hi : Nat} {v : V} {before : List V} {cost : C} {step : V × W} {edges : List (V × W)}

theorem found_nil : Found g q lo hi v before cost [] [] :=
  ⟨.nil, fun _ _ => ⟨fun hmem => (nomatch hmem), fun ⟨_, hmem, _⟩ => (nomatch hmem)⟩⟩

/-- What one edge yields, and then the others. -/
theorem Found.cons (hedge : Found g q lo hi v before cost [step] items)
    (hrest : Found g q lo hi v before cost edges items')
    (hfresh : ∀ step' ∈ edges, step'.1 ≠ step.1) :
    Found g q lo hi v before cost (step :: edges) (items ++ items') := by
  constructor
  case once =>
    rw [List.map_append, List.nodup_append']
    refine ⟨hedge.once, hrest.once, ?_⟩
    intro path hpath hpath'
    obtain ⟨⟨_, total⟩, hmem, rfl⟩ := List.mem_map.mp hpath
    obtain ⟨⟨_, total'⟩, hmem', heq⟩ := List.mem_map.mp hpath'
    obtain ⟨s, hs, rest, _, hp, _⟩ := (hedge.mem _ _).mp hmem
    obtain ⟨s', hs', rest', _, hp', _⟩ := (hrest.mem _ _).mp hmem'
    rw [List.mem_singleton.mp hs] at hp
    have hsame := hp'.symm.trans (heq.trans hp)
    exact hfresh s' hs' (List.cons.inj (List.append_cancel_left hsame)).1
  case mem =>
    intro path total
    rw [List.mem_append, hedge.mem, hrest.mem]
    simp only [List.exists_mem_cons_iff, List.not_mem_nil, false_and, exists_false, or_false]

/-- An edge that is not gone along yields nothing. -/
theorem found_skipped (h : ¬ Enters g q v before cost step) : Found g q lo hi v before cost [step] [] := by
  refine ⟨.nil, fun path total => ⟨fun hmem => (nomatch hmem), ?_⟩⟩
  intro ⟨s, hs, rest, hadmits, _⟩
  rw [List.mem_singleton.mp hs] at hadmits
  cases hadmits with
  | last he => exact absurd he h
  | step he => exact absurd he h

/-- What all edges of a node yield behind it. -/
structure Behind (g : DiGraph V W) (q : Query V W C) (lo hi : Nat) (v : V) (before : List V) (cost : C)
    (items : List (List V × C)) : Prop where
  once : (items.map Prod.fst).Nodup
  mem : ∀ path total, (path, total) ∈ items ↔ ∃ steps, Admits g q lo hi v before cost steps ∧
    path = (v :: before).reverse ++ steps.map Prod.fst ∧
    total = folded q.cost_fn cost before.length steps

theorem Found.behind (h : Found g q lo hi v before cost edges items)
    (hedges : ∀ x, x ∈ edges ↔ x ∈ g.edges_directed v) : Behind g q lo hi v before cost items := by
  refine ⟨h.once, fun path total => (h.mem path total).trans ?_⟩
  constructor
  · intro ⟨step, _, rest, hfound⟩
    exact ⟨step :: rest, hfound⟩
  · intro ⟨steps, hadmits, hfound⟩
    cases hadmits with
    | last he ht hlo hhi => exact ⟨_, (hedges _).mpr he.edge, [], .last he ht hlo hhi, hfound⟩
    | step he hrest => exact ⟨_, (hedges _).mpr he.edge, _, .step he hrest, hfound⟩

theorem behind_nil (h : ∀ steps, ¬ Admits g q lo hi v before cost steps) :
    Behind g q lo hi v before cost [] :=
  ⟨.nil, fun _ _ => ⟨fun hmem => (nomatch hmem), fun ⟨steps, hadmits, _⟩ => absurd hadmits (h steps)⟩⟩

/-- The path to a child itself, if it is one, and then what is found behind the child. -/
theorem found_entered (he : Enters g q v before cost step) (hhi : before.length + 2 ≤ hi)
    (hbehind : Behind g q lo hi step.1 (v :: before) (q.cost_fn cost step.2 before.length) items) :
    Found g q lo hi v before cost [step]
      ((if step.1 ∈ q.targets ∧ lo ≤ before.length + 2
        then [((step.1 :: v :: before).reverse, q.cost_fn cost step.2 before.length)] else []) ++ items) := by
  have hlonger : ∀ total, ((step.1 :: v :: before).reverse, total) ∉ items := by
    intro total hmem
    obtain ⟨steps, hadmits, hpath, _⟩ := (hbehind.mem _ _).mp hmem
    have hnil := List.map_eq_nil_iff.mp (List.self_eq_append_right.mp hpath)
    exact hadmits.ne_nil hnil
  have hreverse : ∀ rest : List (V × W), (step.1 :: v :: before).reverse ++ rest.map Prod.fst =
      (v :: before).reverse ++ step.1 :: rest.map Prod.fst := by
    intro rest
    rw [List.reverse_cons, List.append_assoc, List.singleton_append]
  constructor
  case once =>
    split
    · refine List.nodup_cons.mpr ⟨?_, hbehind.once⟩
      intro hmem
      obtain ⟨⟨_, total⟩, hmem, rfl⟩ := List.mem_map.mp hmem
      exact hlonger total hmem
    · exact hbehind.once
  case mem =>
    intro path total
    rw [List.mem_append, hbehind.mem]
    simp only [List.exists_mem_cons_iff, List.not_mem_nil, false_and, exists_false, or_false]
    constructor
    · intro hor
      cases hor with
      | inl hown =>
        split at hown
        · next hvalid =>
          cases List.mem_singleton.mp hown
          exact ⟨[], .last he hvalid.1 hvalid.2 hhi, (List.append_nil _).symm.trans (hreverse []),
            rfl⟩
        · cases hown
      | inr hfound =>
        obtain ⟨steps, hadmits, hpath, htotal⟩ := hfound
        exact ⟨steps, .step he hadmits, hpath.trans (hreverse steps), htotal⟩
    · intro ⟨rest, hadmits, hpath, htotal⟩
      cases hadmits with
      | last _ ht hlo _ =>
        refine .inl ?_
        rw [if_pos ⟨ht, hlo⟩, List.mem_singleton, hpath, htotal, ← hreverse]
        simp [folded]
      | step _ hrest => exact .inr ⟨rest, hrest, hpath.trans (hreverse rest).symm, htotal⟩

/-- The nodes visited are different ones of the graph, and at most so many are left. -/
structure Within (g : DiGraph V W) (left : Nat) (v : V) (before : List V) : Prop where
  nodup : (v :: before).Nodup
  nodes : ∀ x ∈ v :: before, x ∈ g.nodes
  left : g.nodes.length ≤ before.length + 1 + left

theorem Within.enter {left : Nat} (h : Within g left v before) (he : Enters g q v before cost step) :
    ∃ left', left = left' + 1 ∧ Within g left' step.1 (v :: before) := by
  have hnodup : (step.1 :: v :: before).Nodup := List.nodup_cons.mpr ⟨he.fresh, h.nodup⟩
  have hnodes : ∀ x ∈ step.1 :: v :: before, x ∈ g.nodes := by
    intro x hx
    cases List.mem_cons.mp hx with
    | inl heq => exact heq ▸ g.target_mem he.edge
    | inr hx => exact h.nodes x hx
  have hlength := (hnodup.subperm hnodes).length_le
  have hleft := h.left
  simp only [List.length_cons] at hlength
  refine ⟨left - 1, by omega, hnodup, hnodes, ?_⟩
  rw [List.length_cons]
  omega

theorem round_skipped {stack : List (List (V × W))} {costs : List C} {rng : R}
    (h : ¬ Enters g q v before cost step) (hedge : step ∈ g.edges_directed v) :
    Search.round g q sh ⟨v :: before, (step :: edges) :: stack, cost :: costs, rng⟩ =
      .continued ⟨v :: before, edges :: stack, cost :: costs, rng⟩ := by
  unfold Search.round
  dsimp only
  split
  · rfl
  · next hopen =>
    rw [not_or, Bool.not_eq_true] at hopen
    split
    · rfl
    · next hcost =>
      exact absurd ⟨hedge, hopen.1, hopen.2, Bool.eq_false_iff.mpr hcost⟩ h

/-- The child's own path is yielded, and the search goes on from there if it may lead further. -/
theorem emits_entered (sh : Shuffle R (V × W)) (edges : List (V × W)) (stack : List (List (V × W)))
    (costs : List C) (rng : R) (he : Enters g q v before cost step) (hlength : before.length + 2 < 2 ^ 64) :
    Emits g q sh ⟨v :: before, (step :: edges) :: stack, cost :: costs, rng⟩ 1
      (if step.1 ∈ q.targets ∧ q.min_nodes.toNat ≤ before.length + 2
        then [((step.1 :: v :: before).reverse, q.cost_fn cost step.2 before.length)] else [])
      (if before.length + 1 < (q.max_nodes g - 1).toNat ∧ q.target_left (v :: before) step.1
        then expand g sh step.1 (q.cost_fn cost step.2 before.length)
          ⟨v :: before, edges :: stack, cost :: costs, rng⟩
        else ⟨v :: before, edges :: stack, cost :: costs, rng⟩) := by
  have hcurrent : (before.length + 1).toUInt64.toNat = before.length + 1 := by
    simp only [Nat.toUInt64, UInt64.toNat_ofNat']
    omega
  have hlimit : (before.length + 1).toUInt64 < q.max_nodes g - 1 ↔
      before.length + 1 < (q.max_nodes g - 1).toNat := by
    rw [UInt64.lt_iff_toNat_lt, hcurrent]
  have hmin : (before.length + 1).toUInt64 + 1 ≥ q.min_nodes ↔ q.min_nodes.toNat ≤ before.length + 2 := by
    rw [ge_iff_le, UInt64.le_iff_toNat_le, UInt64.toNat_add, hcurrent]
    simp only [UInt64.toNat_one]
    omega
  have hopen : ¬ (step.1 ∈ v :: before ∨ q.excludes step.1 = true) := by
    rw [he.allowed]
    simpa using he.fresh
  by_cases hvalid : step.1 ∈ q.targets ∧ q.min_nodes.toNat ≤ before.length + 2
  · rw [if_pos hvalid]
    refine .yielded ?_ (.refl _)
    simp only [Search.round, if_neg hopen, List.length_cons, Nat.add_sub_cancel, he.cost, Bool.false_eq_true,
      if_false, hlimit, hmin, if_pos hvalid]
  · rw [if_neg hvalid]
    refine .continued ?_ (.refl _)
    simp only [Search.round, if_neg hopen, List.length_cons, Nat.add_sub_cancel, he.cost, Bool.false_eq_true,
      if_false, hlimit, hmin, if_neg hvalid]

/-- The edges of a node are tried one after the other, each with what is behind it. -/
theorem explored (sh : Shuffle R (V × W)) {most : Nat} (hmost : ∀ v, (g.edges_directed v).length ≤ most)
    (hfits : g.nodes.length < 2 ^ 64 ∨ (q.max_nodes g - 1).toNat + 1 < 2 ^ 64) (left : Nat)
    {v : V} {before : List V} (cost : C) {edges : List (V × W)} (hw : Within g left v before)
    (hdepth : 0 < left → before.length + 1 ≤ (q.max_nodes g - 1).toNat)
    (hedges : ∀ x ∈ edges, x ∈ g.edges_directed v) (hsimple : (edges.map Prod.fst).Nodup)
    (stack : List (List (V × W))) (costs : List C) (rng : R) :
    ∃ n items rng', n ≤ edges.length * (1 + rounds most left) ∧
      Emits g q sh ⟨v :: before, edges :: stack, cost :: costs, rng⟩ n items
        ⟨v :: before, [] :: stack, cost :: costs, rng'⟩ ∧
      Found g q q.min_nodes.toNat ((q.max_nodes g - 1).toNat + 1) v before cost edges items := by
  induction left using Nat.strong_induction_on generalizing v before cost edges stack costs rng with
  | h left ih =>
    induction edges generalizing rng with
    | nil => exact ⟨0, [], rng, Nat.zero_le _, .refl _, found_nil⟩
    | cons step rest ihrest =>
      have hrest : ∀ x ∈ rest, x ∈ g.edges_directed v := fun x hx => hedges x (List.mem_cons_of_mem _ hx)
      rw [List.map_cons, List.nodup_cons] at hsimple
      have hapart : ∀ step' ∈ rest, step'.1 ≠ step.1 := by
        intro step' hmem heq
        exact hsimple.1 (heq ▸ List.mem_map_of_mem hmem)
      by_cases he : Enters g q v before cost step
      · obtain ⟨left', rfl, hw'⟩ := hw.enter he
        have hchild := Nat.succ_le_succ (hdepth (Nat.succ_pos left'))
        have hlength : before.length + 2 < 2 ^ 64 := by
          cases hfits with
          | inl hnodes => exact Nat.lt_of_le_of_lt (hw'.nodup.subperm hw'.nodes).length_le hnodes
          | inr hlimit => exact Nat.lt_of_le_of_lt hchild hlimit
        have hentered := emits_entered sh rest stack costs rng he hlength
        by_cases hexpand : before.length + 1 < (q.max_nodes g - 1).toNat ∧ q.target_left (v :: before) step.1
        · -- The child's edges are tried before the others.
          rw [if_pos hexpand] at hentered
          have hperm := sh.perm rng (g.edges_directed step.1)
          obtain ⟨n, items, rng', hn, hemits, hfound⟩ := ih left' (Nat.lt_succ_self left')
            (q.cost_fn cost step.2 before.length) hw' (fun _ => hexpand.1) (fun x => hperm.mem_iff.mp)
            ((hperm.map Prod.fst).nodup_iff.mpr (g.simple step.1)) (rest :: stack) (cost :: costs)
            (sh.shuffle rng (g.edges_directed step.1)).2
          obtain ⟨n', items', rng'', hn', hemits', hfound'⟩ := ihrest hrest hsimple.2 rng'
          have hbehind := hfound.behind fun x => hperm.mem_iff
          have hall := hentered.trans (hemits.trans ((emits_pop _ _ _ _ _ _).trans hemits'))
          refine ⟨_, _, rng'', ?_, hall, ?_⟩
          · rw [hperm.length_eq] at hn
            have hbelow := hn.trans (Nat.mul_le_mul_right _ (hmost step.1))
            rw [List.length_cons, Nat.succ_mul]
            simp only [rounds] at hn' ⊢
            omega
          · rw [List.nil_append, ← List.append_assoc]
            exact (found_entered he hchild hbehind).cons hfound' hapart
        · -- Nothing that was asked for is behind the child.
          rw [if_neg hexpand] at hentered
          obtain ⟨n', items', rng', hn', hemits', hfound'⟩ := ihrest hrest hsimple.2 rng
          refine ⟨_, _, rng', ?_, hentered.trans hemits', ?_⟩
          · rw [List.length_cons, Nat.succ_mul]
            omega
          · have hnone : ∀ steps, ¬ Admits g q q.min_nodes.toNat ((q.max_nodes g - 1).toNat + 1) step.1
                (v :: before) (q.cost_fn cost step.2 before.length) steps := by
              intro steps hadmits
              have hlength := hadmits.length_le.2
              have hpos := List.length_pos_of_ne_nil hadmits.ne_nil
              obtain ⟨n, hn, hfresh⟩ := hadmits.target_left
              rw [List.length_cons] at hlength
              refine hexpand ⟨by omega, n, hn, ?_, ?_⟩
              · exact fun heq => hfresh (heq ▸ List.mem_cons_self)
              · exact fun hmem => hfresh (List.mem_cons_of_mem _ hmem)
            have hown := found_entered he hchild (behind_nil hnone)
            rw [List.append_nil] at hown
            exact hown.cons hfound' hapart
      · obtain ⟨n, items, rng', hn, hemits, hfound⟩ := ihrest hrest hsimple.2 rng
        refine ⟨n + 1, items, rng', ?_, ?_, (found_skipped he).cons hfound hapart⟩
        · rw [List.length_cons, Nat.succ_mul]
          omega
        · exact .continued (round_skipped he (hedges step List.mem_cons_self)) hemits

/-- A round that enters a child goes on with the other edges, or with the child's before them. -/
theorem emits_somewhere (sh : Shuffle R (V × W)) (edges : List (V × W)) (stack : List (List (V × W)))
    (costs : List C) (rng : R) (he : Enters g q v before cost step) : ∃ items s',
    Emits g q sh ⟨v :: before, (step :: edges) :: stack, cost :: costs, rng⟩ 1 items s' ∧
      (s' = ⟨v :: before, edges :: stack, cost :: costs, rng⟩ ∨
        s' = expand g sh step.1 (q.cost_fn cost step.2 before.length)
          ⟨v :: before, edges :: stack, cost :: costs, rng⟩) := by
  let s' : Search V W C R :=
    if (v :: before).length.toUInt64 < q.max_nodes g - 1 ∧ q.target_left (v :: before) step.1
    then expand g sh step.1 (q.cost_fn cost step.2 before.length)
      ⟨v :: before, edges :: stack, cost :: costs, rng⟩
    else ⟨v :: before, edges :: stack, cost :: costs, rng⟩
  have hopen : ¬ (step.1 ∈ v :: before ∨ q.excludes step.1 = true) := by
    rw [he.allowed]
    simpa using he.fresh
  have hnext : s' = ⟨v :: before, edges :: stack, cost :: costs, rng⟩ ∨
      s' = expand g sh step.1 (q.cost_fn cost step.2 before.length)
        ⟨v :: before, edges :: stack, cost :: costs, rng⟩ := (ite_eq_or_eq _ _ _).symm
  have hround : Search.round g q sh ⟨v :: before, (step :: edges) :: stack, cost :: costs, rng⟩ =
      if step.1 ∈ q.targets ∧ (v :: before).length.toUInt64 + 1 ≥ q.min_nodes
      then .yielded (step.1 :: v :: before).reverse (q.cost_fn cost step.2 before.length) s'
      else .continued s' := by
    simp only [Search.round, if_neg hopen, List.length_cons, Nat.add_sub_cancel, he.cost, Bool.false_eq_true,
      if_false]
    rfl
  split at hround
  · exact ⟨_, s', .yielded hround (.refl _), hnext⟩
  · exact ⟨_, s', .continued hround (.refl _), hnext⟩

/-- The edges of a node are all tried, also where the bounds are no bounds. -/
theorem finishes (sh : Shuffle R (V × W)) {most : Nat} (hmost : ∀ v, (g.edges_directed v).length ≤ most)
    (left : Nat) {v : V} {before : List V} (cost : C) {edges : List (V × W)} (hw : Within g left v before)
    (hedges : ∀ x ∈ edges, x ∈ g.edges_directed v) (stack : List (List (V × W))) (costs : List C) (rng : R) :
    ∃ n items rng', n ≤ edges.length * (1 + rounds most left) ∧
      Emits g q sh ⟨v :: before, edges :: stack, cost :: costs, rng⟩ n items
        ⟨v :: before, [] :: stack, cost :: costs, rng'⟩ := by
  induction left using Nat.strong_induction_on generalizing v before cost edges stack costs rng with
  | h left ih =>
    induction edges generalizing rng with
    | nil => exact ⟨0, [], rng, Nat.zero_le _, .refl _⟩
    | cons step rest ihrest =>
      have hrest : ∀ x ∈ rest, x ∈ g.edges_directed v := fun x hx => hedges x (List.mem_cons_of_mem _ hx)
      by_cases he : Enters g q v before cost step
      · obtain ⟨left', rfl, hw'⟩ := hw.enter he
        obtain ⟨own, s', hentered, hnext⟩ := emits_somewhere sh rest stack costs rng he
        cases hnext with
        | inl hsame =>
          subst hsame
          obtain ⟨n', items', rng', hn', hemits'⟩ := ihrest hrest rng
          refine ⟨_, _, rng', ?_, hentered.trans hemits'⟩
          rw [List.length_cons, Nat.succ_mul]
          omega
        | inr hexpanded =>
          -- The child's edges are tried before the others.
          subst hexpanded
          have hperm := sh.perm rng (g.edges_directed step.1)
          obtain ⟨n, items, rng', hn, hemits⟩ := ih left' (Nat.lt_succ_self left')
            (q.cost_fn cost step.2 before.length) hw' (fun x => hperm.mem_iff.mp) (rest :: stack) (cost :: costs)
            (sh.shuffle rng (g.edges_directed step.1)).2
          obtain ⟨n', items', rng'', hn', hemits'⟩ := ihrest hrest rng'
          have hall := hentered.trans (hemits.trans ((emits_pop _ _ _ _ _ _).trans hemits'))
          refine ⟨_, _, rng'', ?_, hall⟩
          rw [hperm.length_eq] at hn
          have hbelow := hn.trans (Nat.mul_le_mul_right _ (hmost step.1))
          rw [List.length_cons, Nat.succ_mul]
          simp only [rounds] at hn' ⊢
          omega
      · obtain ⟨n, items, rng', hn, hemits⟩ := ihrest hrest rng
        refine ⟨n + 1, items, rng', ?_, .continued (round_skipped he (hedges step List.mem_cons_self)) hemits⟩
        rw [List.length_cons, Nat.succ_mul]
        omega

/-- When all edges of the source are tried, the rounds that the search is given are enough. -/
theorem of_root (g : DiGraph V W) (q : Query V W C) (sh : Shuffle R (V × W)) (rng : R) (hroom : q.has_room g)
    {P : List (V × W) → List (List V × C) → Prop} (hnone : P [] [])
    (htried : ∀ left, g.nodes.length = left + 1 → Within g left q.source [] → ∀ edges rng,
      edges.Perm (g.edges_directed q.source) → ∃ n items rng',
        n ≤ edges.length * (1 + rounds (g.nodes.map fun v => (g.edges_directed v).length).sum left) ∧
        Emits g q sh ⟨[q.source], [edges], [q.initial_cost], rng⟩ n items
          ⟨[q.source], [[]], [q.initial_cost], rng'⟩ ∧ P edges items) :
    ∃ items, all_simple_paths_multi g q sh rng = some items ∧
      P (sh.shuffle rng (g.edges_directed q.source)).1 items := by
  have hperm := sh.perm rng (g.edges_directed q.source)
  obtain ⟨n, items, rng', hn, hemits, hitems⟩ : ∃ n items rng',
      n ≤ rounds (g.nodes.map fun v => (g.edges_directed v).length).sum g.nodes.length ∧
      Emits g q sh (start g q sh rng) n items ⟨[q.source], [[]], [q.initial_cost], rng'⟩ ∧
      P (sh.shuffle rng (g.edges_directed q.source)).1 items := by
    by_cases hsource : q.source ∈ g.nodes
    · obtain ⟨left, hleft⟩ : ∃ left, g.nodes.length = left + 1 :=
        Nat.exists_eq_succ_of_ne_zero (List.length_pos_of_mem hsource).ne'
      have hw : Within g left q.source [] := by
        refine ⟨List.nodup_singleton _, ?_, ?_⟩
        · intro x hx
          exact List.mem_singleton.mp hx ▸ hsource
        · rw [hleft, List.length_nil]
          omega
      obtain ⟨n, items, rng', hn, htried⟩ := htried left hleft hw _ (sh.shuffle rng (g.edges_directed q.source)).2 hperm
      refine ⟨n, items, rng', ?_, htried⟩
      rw [hperm.length_eq] at hn
      have hbelow := hn.trans (Nat.mul_le_mul_right _ (length_edges_le g q.source))
      rw [hleft, rounds]
      omega
    · have hnil : g.edges_directed q.source = [] := by
        apply List.eq_nil_iff_forall_not_mem.mpr
        intro x hx
        exact hsource (g.source_mem hx)
      rw [hnil] at hperm
      have hstart : start g q sh rng = ⟨[q.source], [(sh.shuffle rng (g.edges_directed q.source)).1],
          [q.initial_cost], (sh.shuffle rng (g.edges_directed q.source)).2⟩ := rfl
      rw [hstart, hnil, hperm.eq_nil]
      exact ⟨0, [], (sh.shuffle rng []).2, Nat.zero_le _, .refl _, hnone⟩
  refine ⟨items, ?_, hitems⟩
  have hall := hemits.trans (emits_pop q.source [] [] q.initial_cost [] rng')
  rw [List.append_nil] at hall
  rw [all_simple_paths_multi, if_pos hroom]
  exact hall.collect rfl (by omega)

theorem search_ends (g : DiGraph V W) (q : Query V W C) (sh : Shuffle R (V × W)) (rng : R) (hroom : q.has_room g) :
    ∃ items, all_simple_paths_multi g q sh rng = some items := by
  have hsearch := of_root g q sh rng hroom (P := fun _ _ => True) trivial ?_
  · exact hsearch.imp fun _ h => h.1
  · intro left _ hw edges rng hperm
    obtain ⟨n, items, rng', hn, hemits⟩ := finishes sh (length_edges_le g) left q.initial_cost hw
      (fun x => hperm.mem_iff.mp) [] [] rng
    exact ⟨n, items, rng', hn, hemits, trivial⟩

/-- The search is over after the rounds it is given, and found what is admitted behind the source. -/
theorem searched (g : DiGraph V W) (q : Query V W C) (sh : Shuffle R (V × W)) (rng : R) (hroom : q.has_room g)
    (hfits : g.nodes.length < 2 ^ 64 ∨ (q.max_nodes g - 1).toNat + 1 < 2 ^ 64)
    (hdepth : 1 < g.nodes.length → 1 ≤ (q.max_nodes g - 1).toNat) :
    ∃ items, all_simple_paths_multi g q sh rng = some items ∧
      Behind g q q.min_nodes.toNat ((q.max_nodes g - 1).toNat + 1) q.source [] q.initial_cost items := by
  obtain ⟨items, hitems, hfound⟩ := of_root g q sh rng hroom (P := Found g q q.min_nodes.toNat
    ((q.max_nodes g - 1).toNat + 1) q.source [] q.initial_cost) found_nil fun left hleft hw edges rng hperm =>
      explored sh (length_edges_le g) hfits left q.initial_cost hw (fun hpos => hdepth (by omega))
        (fun x => hperm.mem_iff.mp) ((hperm.map Prod.fst).nodup_iff.mpr (g.simple q.source)) [] [] rng
  exact ⟨items, hitems, hfound.behind fun x => (sh.perm rng (g.edges_directed q.source)).mem_iff⟩

end Rounds

/-! ### Bounds -/

section Bounds
variable {V W C R : Type} [DecidableEq V] [LT C] [DecidableLT C] {g : DiGraph V W} {q : Query V W C}
  {steps : List (V × W)}

/-- What was asked for is what is admitted from the source, if the bounds of both are the same. -/
theorem wanted_iff_admits {lo hi : Nat} (hlo : lo = q.min_intermediate_nodes.toNat + 2)
    (hsome : ∀ l ∈ q.max_intermediate_nodes, hi = l.toNat + 2)
    (hnone : q.max_intermediate_nodes = none → 0 < g.nodes.length → hi = g.nodes.length) :
    Wanted g q steps ↔ Admits g q lo hi q.source [] q.initial_cost steps := by
  constructor
  · intro h
    have hpos := List.length_pos_of_ne_nil h.nonempty
    have hsimple := List.nodup_cons.mp h.simple
    have hmin := h.min
    have hextends : Extends g q q.source [] q.initial_cost steps := by
      constructor
      case walk => exact h.walk
      case simple => exact hsimple.2
      case fresh =>
        intro x hx hmem
        exact hsimple.1 (List.mem_singleton.mp hmem ▸ hx)
      case target => exact h.target
      case allowed =>
        intro x hx
        exact (q.excludes_eq_false x).mpr fun excl hexcl => h.allowed excl hexcl x hx
      case cost =>
        intro k hk hle
        exact (q.below_eq_false _).mpr fun min hm => h.cost min hm k hk hle
    refine hextends.admits h.nonempty ?_ ?_
    · rw [List.length_nil]
      omega
    · cases hmax : q.max_intermediate_nodes with
      | some l =>
        have hle := h.max l hmax
        rw [hsome l hmax, List.length_nil]
        omega
      | none =>
        obtain ⟨step, rest, rfl⟩ := List.exists_cons_of_ne_nil h.nonempty
        have hsource := g.source_mem h.walk.1
        have hnodes : ∀ x ∈ q.source :: (step :: rest).map Prod.fst, x ∈ g.nodes := by
          intro x hx
          cases List.mem_cons.mp hx with
          | inl heq => exact heq ▸ hsource
          | inr hx => exact h.walk.mem_nodes x hx
        have hlength := (h.simple.subperm hnodes).length_le
        rw [hnone hmax (List.length_pos_of_mem hsource), List.length_nil]
        rw [List.length_cons, List.length_map] at hlength
        omega
  · intro h
    have hextends := h.extends
    have hlength := h.length_le
    rw [List.length_nil] at hlength
    constructor
    case walk => exact hextends.walk
    case simple =>
      refine List.nodup_cons.mpr ⟨?_, hextends.simple⟩
      intro hmem
      exact hextends.fresh _ hmem List.mem_cons_self
    case nonempty => exact h.ne_nil
    case target => exact hextends.target
    case min => omega
    case max =>
      intro l hl
      rw [hsome l hl] at hlength
      omega
    case allowed =>
      intro excl hexcl x hx
      exact (q.excludes_eq_false x).mp (hextends.allowed x hx) excl hexcl
    case cost =>
      intro min hm k hk hle
      exact (q.below_eq_false _).mp (hextends.cost k hk hle) min hm

/-- The search is exact if it has room and no sum wraps around. -/
theorem exact_of_bounds (hroom : q.has_room g) (hmin : q.min_intermediate_nodes.toNat + 2 < 2 ^ 64)
    (hmax : ∀ l ∈ q.max_intermediate_nodes, l.toNat + 1 < 2 ^ 64)
    (hfits : g.nodes.length < 2 ^ 64 ∨ ∃ l ∈ q.max_intermediate_nodes, l.toNat + 2 < 2 ^ 64)
    (sh : Shuffle R (V × W)) (rng : R) :
    ∃ items, all_simple_paths_multi g q sh rng = some items ∧ Exact g q items := by
  have hlimit : ∀ l ∈ q.max_intermediate_nodes, (q.max_nodes g - 1).toNat = l.toNat + 1 := by
    intro l hl
    rw [q.toNat_max_nodes_some hl]
    exact Nat.mod_eq_of_lt (hmax l hl)
  have hnone : q.max_intermediate_nodes = none → 0 < g.nodes.length →
      (q.max_nodes g - 1).toNat = g.nodes.length - 1 := by
    intro hm hpos
    cases hfits with
    | inl hnodes => exact q.toNat_max_nodes_none hm hpos hnodes
    | inr hl =>
      obtain ⟨l, hl, _⟩ := hl
      cases hm.symm.trans hl
  have hfits' : g.nodes.length < 2 ^ 64 ∨ (q.max_nodes g - 1).toNat + 1 < 2 ^ 64 := by
    cases hfits with
    | inl hnodes => exact .inl hnodes
    | inr hl =>
      obtain ⟨l, hl, hlt⟩ := hl
      exact .inr (by rw [hlimit l hl]; exact hlt)
  have hdepth : 1 < g.nodes.length → 1 ≤ (q.max_nodes g - 1).toNat := by
    intro hlength
    cases hm : q.max_intermediate_nodes with
    | none => rw [hnone hm (by omega)]; omega
    | some l => rw [hlimit l hm]; omega
  obtain ⟨items, hitems, hbehind⟩ := searched g q sh rng hroom hfits' hdepth
  refine ⟨items, hitems, hbehind.once, fun path cost => (hbehind.mem path cost).trans ?_⟩
  have hwanted : ∀ steps, Wanted g q steps ↔ Admits g q q.min_nodes.toNat
      ((q.max_nodes g - 1).toNat + 1) q.source [] q.initial_cost steps := by
    intro steps
    apply wanted_iff_admits (q.toNat_min_nodes hmin)
    · intro l hl
      rw [hlimit l hl]
    · intro hm hpos
      rw [hnone hm hpos]
      omega
  simp only [hwanted]
  rfl

end Bounds

/-! ### Sums that wrap around -/

/-- Each node has an edge to the next one. -/
def line (m size : Nat) : DiGraph Nat Unit where
  nodes := List.range m
  edges_directed a := if a + 1 < m then [(a + 1, ())] else []
  edges_size := size
  nodup := List.nodup_range
  source_mem := by
    intro a x hx
    split at hx
    · exact List.mem_range.mpr (by omega)
    · cases hx
  target_mem := by
    intro a x hx
    split at hx
    · next hlt => exact List.mem_singleton.mp hx ▸ List.mem_range.mpr hlt
    · cases hx
  simple := by
    intro a
    split
    · exact List.nodup_singleton _
    · exact .nil

/-- From one end of the line to the other. -/
def across (m size : Nat) (min : UInt64) (max : Option UInt64) : Query Nat Unit Nat where
  source := 0
  targets := {m - 1}
  excluded_nodes := none
  min_intermediate_nodes := min
  max_intermediate_nodes := max
  initial_cost := 0
  min_cost := none
  cost_fn cost _ _ := cost + 1
  cost_size := size

section Line
variable {m size cost_size : Nat} {min : UInt64} {max : Option UInt64}

theorem walk_line (k a : Nat) (h : a + k < m) :
    Walk (line m size) a ((List.range' (a + 1) k).map fun v => (v, ())) := by
  induction k generalizing a with
  | zero => trivial
  | succ k ih =>
    rw [List.range'_succ, List.map_cons]
    refine ⟨?_, ih (a + 1) (by omega)⟩
    show (a + 1, ()) ∈ if a + 1 < m then [(a + 1, ())] else []
    rw [if_pos (by omega)]
    exact List.mem_cons_self

theorem wanted_line (hm2 : 2 ≤ m) (hmin : min.toNat ≤ m - 2) (hmax : ∀ l ∈ max, m - 2 ≤ l.toNat) :
    Wanted (line m size) (across m cost_size min max) ((List.range' 1 (m - 1)).map fun v => (v, ())) := by
  have hnodes : ((List.range' 1 (m - 1)).map fun v => (v, ())).map Prod.fst = List.range' 1 (m - 1) := by
    rw [List.map_map]
    exact List.map_id _
  have hlength : ((List.range' 1 (m - 1)).map fun v => (v, ())).length = m - 1 := by
    rw [List.length_map, List.length_range']
  constructor
  case walk => exact walk_line (m - 1) 0 (by omega)
  case simple =>
    rw [hnodes]
    show (0 :: List.range' (0 + 1) (m - 1)).Nodup
    rw [← List.range'_succ]
    exact List.nodup_range'
  case nonempty =>
    intro hnil
    rw [hnil, List.length_nil] at hlength
    omega
  case target =>
    rw [hnodes]
    intro v hv
    rw [List.getLast?_range'] at hv
    split at hv
    · cases hv
    · cases hv
      show _ ∈ ({m - 1} : Finset Nat)
      rw [Finset.mem_singleton]
      omega
  case min => rw [hlength]; exact hmin
  case max =>
    rw [hlength]
    exact hmax
  case allowed => exact fun excl hexcl => (nomatch hexcl)
  case cost => exact fun min hmin => (nomatch hmin)

/-- The search goes no further than the first step if it may not, or if it is at the end there. -/
theorem search_line (hm2 : 2 ≤ m)
    (hroom : (across m cost_size min max).has_room (line m size))
    (hshort : ((across m cost_size min max).max_nodes (line m size) - 1).toNat = 0 ∨ m = 2) :
    all_simple_paths_multi (line m size) (across m cost_size min max) (Shuffle.keep _) () =
      some (if m = 2 ∧ (across m cost_size min max).min_nodes.toNat ≤ 2 then [([0, 1], 1)] else []) := by
  have hedges : (line m size).edges_directed 0 = [(1, ())] := if_pos (by omega)
  have he : Enters (line m size) (across m cost_size min max) 0 [] 0 (1, ()) :=
    ⟨hedges ▸ List.mem_cons_self, by simp, rfl, rfl⟩
  have hstart : start (line m size) (across m cost_size min max) (Shuffle.keep _) () = ⟨[0], [[(1, ())]], [0], ()⟩ := by
    show (⟨[0], [(line m size).edges_directed 0], [0], ()⟩ : Search Nat Unit Nat Unit) = _
    rw [hedges]
  have htarget : ∀ n, n ∈ (across m cost_size min max).targets ↔ n = m - 1 := fun n => Finset.mem_singleton
  have hentered := emits_entered (Shuffle.keep _) [] [] [] () he (by decide)
  have hstays : ¬ (([] : List Nat).length + 1 < ((across m cost_size min max).max_nodes (line m size) - 1).toNat ∧
      (across m cost_size min max).target_left [0] 1) := by
    intro ⟨hlimit, n, hn, hne, _⟩
    rw [htarget] at hn
    rw [List.length_nil] at hlimit
    cases hshort with
    | inl hzero => omega
    | inr htwo => exact hne (by rw [hn, htwo])
  rw [if_neg hstays] at hentered
  have hall := hentered.trans (emits_pop 0 [] [] 0 [] ())
  rw [← hstart, List.append_nil] at hall
  have hrounds : 1 ≤ rounds ((line m size).nodes.map fun v => ((line m size).edges_directed v).length).sum
      (line m size).nodes.length := by
    show 1 ≤ rounds _ (List.range m).length
    rw [List.length_range]
    obtain ⟨k, rfl⟩ : ∃ k, m = k + 1 := ⟨m - 1, by omega⟩
    exact Nat.succ_pos _
  rw [all_simple_paths_multi, if_pos hroom, hall.collect rfl (by omega)]
  have hiff : (1 ∈ (across m cost_size min max).targets ∧ (across m cost_size min max).min_nodes.toNat ≤ 2) ↔
      m = 2 ∧ (across m cost_size min max).min_nodes.toNat ≤ 2 := by
    rw [htarget]
    omega
  simp only [List.length_nil, Nat.zero_add, hiff]
  rfl

end Line

/-- What was found was searched with room. -/
theorem has_room_of_some {V W C R : Type} [DecidableEq V] [LT C] [DecidableLT C] {g : IntoEdgesDirected V W}
    {q : Query V W C} {sh : Shuffle R (V × W)} {rng : R} {P : List (List V × C) → Prop}
    (h : ∃ items, all_simple_paths_multi g q sh rng = some items ∧ P items) : q.has_room g := by
  obtain ⟨items, hitems, _⟩ := h
  by_contra hroom
  rw [all_simple_paths_multi, if_neg hroom] at hitems
  cases hitems

/-- A minimum that wraps around is none. -/
theorem short_path_found {size cost_size : Nat} {min : UInt64} {max : Option UInt64}
    (hroom : (across 2 cost_size min max).has_room (line 2 size)) (hmin : 2 ^ 64 ≤ min.toNat + 2) :
    ¬ ∃ items, all_simple_paths_multi (line 2 size) (across 2 cost_size min max) (Shuffle.keep _) () =
      some items ∧ Exact (line 2 size) (across 2 cost_size min max) items := by
  intro ⟨items, hitems, hexact⟩
  have hlt : min.toNat < 2 ^ 64 := min.toBitVec.isLt
  have hmin_nodes : (across 2 cost_size min max).min_nodes.toNat ≤ 2 := by
    show (min + 2).toNat ≤ 2
    rw [UInt64.toNat_add]
    have h2 : (2 : UInt64).toNat = 2 := rfl
    omega
  rw [search_line (Nat.le_refl 2) hroom (.inr rfl), if_pos ⟨rfl, hmin_nodes⟩] at hitems
  cases hitems
  obtain ⟨steps, hwanted, hpath, _⟩ := (hexact.mem [0, 1] 1).mp List.mem_cons_self
  have hlength := congrArg List.length hpath
  simp only [List.length_cons, List.length_nil, List.length_map] at hlength
  have hbound : min.toNat ≤ steps.length - 1 := hwanted.min
  omega

/-- A maximum that wraps around ends the search after the first step. -/
theorem long_path_lost {size cost_size : Nat} {min l : UInt64} {m : Nat}
    (hm : m < 2 ^ 64) (hm3 : 3 ≤ m)
    (hmin : min.toNat ≤ m - 2) (hl : 2 ^ 64 ≤ l.toNat + 1) :
    ¬ ∃ items, all_simple_paths_multi (line m size) (across m cost_size min (some l)) (Shuffle.keep _) () =
      some items ∧ Exact (line m size) (across m cost_size min (some l)) items := by
  intro hfound
  have hroom := has_room_of_some hfound
  obtain ⟨items, hitems, hexact⟩ := hfound
  have hlt : l.toNat < 2 ^ 64 := l.toBitVec.isLt
  have hlimit : ((across m cost_size min (some l)).max_nodes (line m size) - 1).toNat = 0 := by
    rw [Query.toNat_max_nodes_some (l := l) rfl]
    omega
  have hmax : ∀ x ∈ some l, m - 2 ≤ x.toNat := by
    intro x hx
    cases hx
    omega
  have hwanted : Wanted (line m size) (across m cost_size min (some l)) _ := wanted_line (by omega) hmin hmax
  have hfound := (hexact.mem _ _).mpr ⟨_, hwanted, rfl, rfl⟩
  rw [search_line (by omega) hroom (.inl hlimit), if_neg fun h => absurd h.1 (by omega)] at hitems
  cases hitems
  cases hfound

/-- **The search is exact if and only if no sum wraps around and there is room**, where the minimum of a
search, its maximum and what the entries of its vectors take are given. The sums are that of the minimum
and, by which the search goes no further than the first step, that of the maximum; a search without a
maximum makes room for the nodes of the graph. Without room it panics. -/
theorem exact_iff (min : UInt64) (max : Option UInt64) {size cost_size : Nat} (hsize : fits 2 size)
    (hcost : fits 2 cost_size) :
    ((∀ {V W C R : Type} [DecidableEq V] [LT C] [DecidableLT C] (g : DiGraph V W) (q : Query V W C)
      (sh : Shuffle R (V × W)) (rng : R), g.nodes.length < 2 ^ 64 →
      q.min_intermediate_nodes = min → q.max_intermediate_nodes = max → g.edges_size = size →
      q.cost_size = cost_size → (max = none → q.has_room g) →
      ∃ items, all_simple_paths_multi g q sh rng = some items ∧ Exact g q items) ↔
    min.toNat + 2 < 2 ^ 64 ∧ ∀ l ∈ max, l.toNat + 1 < 2 ^ 64 ∧ fits (l + 2) size ∧ fits (l + 2) cost_size) ∧
    ∀ {V W C R : Type} [DecidableEq V] [LT C] [DecidableLT C] (g : DiGraph V W) (q : Query V W C)
      (sh : Shuffle R (V × W)) (rng : R), ¬ q.has_room g → all_simple_paths_multi g q sh rng = none := by
  refine ⟨⟨?_, ?_⟩, ?_⟩
  · intro hexact
    have hline : ∀ m, m < 2 ^ 64 → (max = none → m = 2) →
        ∃ items, all_simple_paths_multi (line m size) (across m cost_size min max) (Shuffle.keep _) () =
          some items ∧ Exact (line m size) (across m cost_size min max) items := by
      intro m hm htwo
      refine hexact (line m size) _ _ _ ?_ rfl rfl rfl rfl ?_
      · show (List.range m).length < 2 ^ 64
        rwa [List.length_range]
      · intro hnone
        subst hnone
        rw [htwo rfl]
        exact ⟨hsize, hcost⟩
    have hroom := has_room_of_some (hline 2 (by decide) fun _ => rfl)
    have hmin : min.toNat + 2 < 2 ^ 64 := by
      by_contra hwraps
      exact short_path_found hroom (Nat.le_of_not_lt hwraps) (hline 2 (by decide) fun _ => rfl)
    refine ⟨hmin, ?_⟩
    intro l hl
    cases hl
    refine ⟨?_, hroom⟩
    by_contra hwraps
    obtain ⟨n, hle, hone, hm⟩ : ∃ n, min.toNat ≤ n ∧ 1 ≤ n ∧ n + 2 < 2 ^ 64 := by
      by_cases hzero : min.toNat = 0
      · exact ⟨1, by omega, Nat.le_refl 1, by omega⟩
      · exact ⟨min.toNat, Nat.le_refl _, Nat.pos_of_ne_zero hzero, hmin⟩
    exact long_path_lost hm (by omega) (by omega) (Nat.le_of_not_lt hwraps) (hline (n + 2) hm (nomatch ·))
  · intro hbounds V W C R _ _ _ g q sh rng hnodes hqmin hqmax hqsize hqcost hnone
    subst hqmin hqmax hqsize hqcost
    have hroom : q.has_room g := by
      cases hmax : q.max_intermediate_nodes with
      | none => exact hnone hmax
      | some l =>
        unfold Query.has_room Query.max_nodes
        rw [hmax]
        exact (hbounds.2 l hmax).2
    exact exact_of_bounds hroom hbounds.1 (fun l hl => (hbounds.2 l hl).1) (.inl hnodes) sh rng
  · intro V W C R _ _ _ g q sh rng hroom
    exact if_neg hroom

/-- The line is found without a maximum. -/
theorem line_found : ∃ items, all_simple_paths_multi (line 3 408) (across 3 8 0 none) (Shuffle.keep _) () =
    some items ∧ Exact (line 3 408) (across 3 8 0 none) items :=
  (exact_iff 0 none (by decide : fits 2 408) (by decide : fits 2 8)).1.mpr ⟨by decide, fun l hl => by cases hl⟩
    (line 3 408) (across 3 8 0 none) (Shuffle.keep _) () (by decide) rfl rfl rfl rfl fun _ => by decide

/-- No limit at all, given as the largest number, ends the search after the first step. -/
theorem no_limit_lost : ¬ ∃ items, all_simple_paths_multi (line 3 408)
    (across 3 8 0 (some 18446744073709551615)) (Shuffle.keep _) () = some items ∧
    Exact (line 3 408) (across 3 8 0 (some 18446744073709551615)) items :=
  long_path_lost (by decide) (by decide) (by decide) (by decide)

end Hopr.Graph.SimplePaths
