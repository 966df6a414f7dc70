import Mathlib.Algebra.GroupWithZero.Nat
import Mathlib.Data.Finset.Basic

/-! The search for simple paths.

`all_simple_paths_multi` is an iterator over a stack: of the node it is at and
each node before it, the edges that are still to be tried, the node itself
(`visited`) and what it cost to get there. Its rounds are `round`, and `collect`
is what it yields. The order in which the edges of a node are tried comes from a
source of randomness and is left open (`Shuffle`).

Numbers of nodes are 64 bits wide. The sums of the bounds are those of a build
without overflow checks: they wrap around. Room for as many nodes as may be on a path
is made at once, and the search panics if that is more than a vector may take
(`has_room`); that the memory for less is there is granted. -/
namespace Hopr.Graph

/-- What the search asks of a graph: its nodes, and the targets and weights of a node's outgoing
edges. -/
structure IntoEdgesDirected (V W : Type) where
  nodes : List V
  edges_directed : V → List (V × W)
  /-- The bytes of an entry of the stack, the edges of a node that are still to be tried. -/
  edges_size : Nat

/-- A directed graph without parallel edges. -/
structure DiGraph (V W : Type) extends IntoEdgesDirected V W where
  nodup : nodes.Nodup
  source_mem : ∀ {a x}, x ∈ edges_directed a → a ∈ nodes
  target_mem : ∀ {a x}, x ∈ edges_directed a → x.1 ∈ nodes
  simple : ∀ a, ((edges_directed a).map Prod.fst).Nodup

instance DiGraph.edges {V W : Type} : Coe (DiGraph V W) (IntoEdgesDirected V W) :=
  ⟨DiGraph.toIntoEdgesDirected⟩

/-- An order for the edges of a node, and the randomness that is left. -/
structure Shuffle (R A : Type) where
  shuffle : R → List A → List A × R
  perm : ∀ rng l, (shuffle rng l).1.Perm l

/-- The edges are left in their order. -/
def Shuffle.keep (A : Type) : Shuffle Unit A := ⟨fun rng l => (l, rng), fun _ l => .refl l⟩

/-- What is asked for. -/
structure Query (V W C : Type) where
  source : V
  targets : Finset V
  excluded_nodes : Option (Finset V)
  min_intermediate_nodes : UInt64
  max_intermediate_nodes : Option UInt64
  initial_cost : C
  min_cost : Option C
  cost_fn : C → W → Nat → C
  /-- The bytes of a cost. -/
  cost_size : Nat

/-- `Vec::with_capacity` does not panic: so many elements take at most `isize::MAX` bytes. -/
def fits (capacity : UInt64) (size : Nat) : Prop := capacity.toNat * size < 2 ^ 63

instance fits.decidable (capacity : UInt64) (size : Nat) : Decidable (fits capacity size) :=
  inferInstanceAs (Decidable (_ < _))

/-- The state of the iterator; the last entry of each stack comes first. -/
structure Search (V W C R : Type) where
  visited : List V
  stack : List (List (V × W))
  costs : List C
  rng : R

/-- How a round of the loop ends. -/
inductive Outcome (V W C R : Type) where
  | finished
  | panicked
  | continued (s : Search V W C R)
  | yielded (path : List V) (cost : C) (s : Search V W C R)

namespace Query
variable {V W C : Type}

def max_nodes (g : IntoEdgesDirected V W) (q : Query V W C) : UInt64 :=
  match q.max_intermediate_nodes with
  | some l => l + 2
  | none => g.nodes.length.toUInt64

def min_nodes (q : Query V W C) : UInt64 := q.min_intermediate_nodes + 2

/-- The stack and the costs fit, with room for `max_nodes` each. -/
def has_room (g : IntoEdgesDirected V W) (q : Query V W C) : Prop :=
  fits (q.max_nodes g) g.edges_size ∧ fits (q.max_nodes g) q.cost_size

instance has_room.decidable (g : IntoEdgesDirected V W) (q : Query V W C) : Decidable (q.has_room g) :=
  inferInstanceAs (Decidable (_ ∧ _))

section
variable {g : IntoEdgesDirected V W} {q : Query V W C}

theorem toNat_min_nodes (hmin : q.min_intermediate_nodes.toNat + 2 < 2 ^ 64) :
    q.min_nodes.toNat = q.min_intermediate_nodes.toNat + 2 := by
  unfold min_nodes
  rw [UInt64.toNat_add]
  exact Nat.mod_eq_of_lt hmin

theorem toNat_max_nodes_some {l : UInt64} (hl : q.max_intermediate_nodes = some l) :
    (q.max_nodes g - 1).toNat = (l.toNat + 1) % 2 ^ 64 := by
  simp only [max_nodes, hl, UInt64.toNat_sub, UInt64.toNat_add]
  have h1 : (1 : UInt64).toNat = 1 := rfl
  have h2 : (2 : UInt64).toNat = 2 := rfl
  omega

theorem toNat_max_nodes_none (hnone : q.max_intermediate_nodes = none) (hpos : 0 < g.nodes.length)
    (hlength : g.nodes.length < 2 ^ 64) : (q.max_nodes g - 1).toNat = g.nodes.length - 1 := by
  simp only [max_nodes, hnone, UInt64.toNat_sub, Nat.toUInt64, UInt64.toNat_ofNat']
  have h1 : (1 : UInt64).toNat = 1 := rfl
  omega

end

/-- A cost below the minimum. -/
def below [LT C] [DecidableLT C] (q : Query V W C) (cost : C) : Bool :=
  q.min_cost.any fun min => cost < min

theorem below_eq_false [LT C] [DecidableLT C] (q : Query V W C) (cost : C) :
    q.below cost = false ↔ ∀ min ∈ q.min_cost, ¬ cost < min := by
  unfold below
  cases q.min_cost with
  | none => simp
  | some min => simp

variable [DecidableEq V]

def excludes (q : Query V W C) (child : V) : Bool := q.excluded_nodes.any fun excl => child ∈ excl

theorem excludes_eq_false (q : Query V W C) (v : V) :
    q.excludes v = false ↔ ∀ excl ∈ q.excluded_nodes, v ∉ excl := by
  unfold excludes
  cases q.excluded_nodes with
  | none => simp
  | some excl => simp

/-- A target remains to be found behind the child. -/
def target_left (q : Query V W C) (visited : List V) (child : V) : Prop :=
  ∃ n ∈ q.targets, n ≠ child ∧ n ∉ visited

instance decidableTargetLeft (q : Query V W C) (visited : List V) (child : V) :
    Decidable (q.target_left visited child) :=
  inferInstanceAs (Decidable (∃ n ∈ q.targets, n ≠ child ∧ n ∉ visited))

end Query

namespace Search
variable {V W C R : Type} [DecidableEq V] [LT C] [DecidableLT C] (g : IntoEdgesDirected V W) (q : Query V W C)
  (sh : Shuffle R (V × W))

def start (rng : R) : Search V W C R :=
  let (initial, rng) := sh.shuffle rng (g.edges_directed q.source)
  ⟨[q.source], [initial], [q.initial_cost], rng⟩

/-- The edges of the child are to be tried next. -/
def expand (child : V) (new_cost : C) (s : Search V W C R) : Search V W C R :=
  let (child_edges, rng) := sh.shuffle s.rng (g.edges_directed child)
  ⟨child :: s.visited, child_edges :: s.stack, new_cost :: s.costs, rng⟩

def round (s : Search V W C R) : Outcome V W C R :=
  match s.stack with
  | [] => .finished
  -- All edges of the last node have been tried.
  | [] :: stack => .continued {s with visited := s.visited.tail, stack, costs := s.costs.tail}
  | ((child, weight) :: edges) :: stack =>
    let s := {s with stack := edges :: stack}
    if child ∈ s.visited ∨ q.excludes child then .continued s
    else
      match s.costs with
      | [] => .panicked
      | cost :: _ =>
        let current_nodes := s.visited.length
        let new_cost := q.cost_fn cost weight (current_nodes - 1)
        if q.below new_cost then .continued s
        else
          let s' :=
            if current_nodes.toUInt64 < q.max_nodes g - 1 ∧ q.target_left s.visited child
            then expand g sh child new_cost s else s
          if child ∈ q.targets ∧ current_nodes.toUInt64 + 1 ≥ q.min_nodes
          then .yielded (child :: s.visited).reverse new_cost s'
          else .continued s'

/-- What the iterator yields, if it is finished after so many rounds. -/
def collect : Nat → Search V W C R → Option (List (List V × C))
  | 0, _ => none
  | n + 1, s =>
    match Search.round g q sh s with
    | .finished => some []
    | .panicked => none
    | .continued s => collect n s
    | .yielded path cost s => (collect n s).map ((path, cost) :: ·)

end Search

/-- A node with so many edges is tried in no more rounds, if so many nodes are left. -/
def rounds (edges : Nat) : Nat → Nat
  | 0 => 0
  | nodes + 1 => edges * (1 + rounds edges nodes) + 1

/-- The paths and their costs, in the order in which they are found; `none` if the search panics. -/
def all_simple_paths_multi {V W C R : Type} [DecidableEq V] [LT C] [DecidableLT C]
    (g : IntoEdgesDirected V W) (q : Query V W C) (sh : Shuffle R (V × W)) (rng : R) :
    Option (List (List V × C)) :=
  let edges := (g.nodes.map fun v => (g.edges_directed v).length).sum
  if q.has_room g then (Search.start g q sh rng).collect g q sh (rounds edges g.nodes.length + 2) else none

end Hopr.Graph
