import Hopr.Graph.Representation
import Hopr.Graph.Weight

/-! The health of a node.

A judgement of a node is kept at every edge into it (`set_node_health`): below one
it is kept, and never as less than zero, and from one on it is cleared. An edge
that is added later is not judged.

`Call` puts judgements beside the other calls that change the graph. -/
namespace Hopr.Graph
open StableDiGraph BiHashMap Graph.Representation

/-- A weight that carries the health of the node its edge leads to. -/
class NodeHealth (W : Type) (F : outParam Type) where
  health : W → Option F
  set_health : Option F → W → W

/-- Nothing but a judgement is kept as one. -/
class LawfulNodeHealth (W : Type) {F : outParam Type} [Observations W] [NodeHealth W F] : Prop where
  health_default : NodeHealth.health (Observations.default : W) = none
  health_record : ∀ (now_ms : Nat) (measurement : EdgeWeightType) (w : W),
    NodeHealth.health (Observations.record now_ms measurement w) = NodeHealth.health w
  health_set_health : ∀ (health : Option F) (w : W), NodeHealth.health (NodeHealth.set_health health w) = health
  set_health_again : ∀ (health : Option F) (w : W),
    NodeHealth.set_health health (NodeHealth.set_health health w) = NodeHealth.set_health health w

section Weights
variable {A R : Nat → Type} {F : Type} [Field F] [LinearOrder F] [Weight.ExponentialMovingAverage A F]
  [Weight.WindowedRatio R F]

instance NodeHealth.weights : NodeHealth (Weight.Observations A R F) F where
  health := Weight.Observations.health
  set_health health w := {w with health}

variable [Weight.Powf F] [FloorSemiring F]

instance LawfulNodeHealth.weights : LawfulNodeHealth (Weight.Observations A R F) where
  health_default := rfl
  health_record _ measurement _ := by cases measurement <;> rfl
  health_set_health _ _ := rfl
  set_health_again _ _ := rfl

end Weights

section Judgements
variable {G M W F : Type} [StableDiGraph G OffchainPublicKey W] [NodeHealth W F] [LinearOrder F] [Zero F] [One F]

/-- What is kept of a judgement. -/
def kept_health (health : F) : Option F := if health < 1 then some (max health 0) else none

namespace InnerGraph

def set_node_health (idx : NodeIndex) (health : F) (s : InnerGraph G M) : InnerGraph G M :=
  let judge := NodeHealth.set_health (kept_health health)
  {s with graph := (incoming s.graph idx).foldl (fun graph edge => edge_weight_mut edge judge graph) s.graph}

variable [BiHashMap M OffchainPublicKey NodeIndex]

/-- A node that is not in the graph is passed over. -/
def judge (node : OffchainPublicKey) (health : F) (s : InnerGraph G M) : InnerGraph G M :=
  match get_by_left s.indices node with
  | some idx => s.set_node_health idx health
  | none => s

def record_nodes_health (healths : List (OffchainPublicKey × F)) (s : InnerGraph G M) : InnerGraph G M :=
  healths.foldl (fun s (node, health) => s.judge node health) s

end InnerGraph

variable [BiHashMap M OffchainPublicKey NodeIndex]

/-- A judgement changes nothing but weights. -/
theorem changes_weighed (edges : List EdgeIndex) (f : W → W) (s : InnerGraph G M) :
    Changes s {s with graph := edges.foldl (fun graph edge => edge_weight_mut edge f graph) s.graph} := by
  induction edges generalizing s with
  | nil => exact .refl
  | cons e rest ih => exact .head (.weighed e f) (ih _)

theorem changes_judge (node : OffchainPublicKey) (health : F) (s : InnerGraph G M) :
    Changes s (s.judge node health) := by
  unfold InnerGraph.judge
  split
  · exact changes_weighed _ _ s
  · exact .refl

theorem changes_record_nodes_health (healths : List (OffchainPublicKey × F)) (s : InnerGraph G M) :
    Changes s (s.record_nodes_health healths) := by
  induction healths generalizing s with
  | nil => exact .refl
  | cons x rest ih => exact (changes_judge x.1 x.2 s).trans (ih _)

end Judgements

/-! ### Calls -/

/-- A call that changes the graph, the judgements among them. -/
inductive Call (W F : Type) where
  | write (op : Operation W)
  | record_nodes_health (healths : List (OffchainPublicKey × F))

namespace ChannelGraph
variable {G M W F : Type} [StableDiGraph G OffchainPublicKey W] [BiHashMap M OffchainPublicKey NodeIndex]
  [Observations W] [NodeHealth W F] [LinearOrder F] [Zero F] [One F]

def record_nodes_health (healths : List (OffchainPublicKey × F)) (g : ChannelGraph G M) : ChannelGraph G M :=
  {g with inner := g.inner.record_nodes_health healths}

def record_node_health (node : OffchainPublicKey) (health : F) (g : ChannelGraph G M) : ChannelGraph G M :=
  g.record_nodes_health [(node, health)]

def take (g : ChannelGraph G M) : Call W F → ChannelGraph G M
  | .write op => g.call op
  | .record_nodes_health healths => g.record_nodes_health healths

def takes (g : ChannelGraph G M) (calls : List (Call W F)) : ChannelGraph G M := calls.foldl take g

variable [LawfulStableDiGraph G] [LawfulBiHashMap M]

theorem represented_take {g : ChannelGraph G M} (h : Represented g.inner) (call : Call W F) :
    Represented (g.take call).inner := by
  cases call with
  | write op => exact represented_changes h (changes_call h op)
  | record_nodes_health healths => exact represented_changes h (changes_record_nodes_health healths g.inner)

theorem represented_takes {g : ChannelGraph G M} (h : Represented g.inner) (calls : List (Call W F)) :
    Represented (g.takes calls).inner := by
  induction calls generalizing g with
  | nil => exact h
  | cons call rest ih => exact ih (represented_take h call)

end ChannelGraph

end Hopr.Graph
