import Mathlib.Algebra.GroupWithZero.Nat
import Mathlib.Tactic.SplitIfs
import Hopr.Graph.ChannelGraph

/-! Telemetry.

A report about a path names it by its slots. `resolve_loopback_edges` and
`resolve_round_trip_edges` turn the slots back into edges, all of them or none,
and `record_edge` records what was measured: at the last edge but one of a loop,
at every edge of a round trip, and at the edges between the local node and a
neighbor in both directions. -/
namespace Hopr.Graph
open StableDiGraph BiHashMap

structure ForwardAndReturnPath where
  forward : PathId
  reply : PathId
deriving DecidableEq

/-- A report; times are in milliseconds since the epoch. -/
inductive MeasurableEdge where
  | Surb (paths : ForwardAndReturnPath) (timestamp : Nat) (expected observed : UInt64)
  | Neighbor (peer : OffchainPublicKey) (rtt : Nat)
  | Loopback (path : List UInt8) (timestamp : Nat)
  | ProbeNeighborTimeout (peer : OffchainPublicKey)
  | ProbeLoopbackTimeout (path : List UInt8)
  | Balance (src dest : OffchainPublicKey) (balance : Option Nat)
  | ConnectionStatus (peer : OffchainPublicKey) (connected : Bool)
deriving DecidableEq

def from_le_bytes (bytes : List UInt8) : UInt64 :=
  bytes.foldr (fun b n => n * 256 + b.toUInt64) 0

/-- The slots written as bytes, eight each. -/
def read_slots (path_bytes : List UInt8) : List UInt64 :=
  (List.range 5).map fun i => from_le_bytes ((path_bytes.drop (8 * i)).take 8)

/-- The low bytes of a number, the lowest first. -/
def le_bytes : Nat → UInt64 → List UInt8
  | 0, _ => []
  | k + 1, n => n.toUInt8 :: le_bytes k (n / 256)

/-- The bytes that a path identifier is sent as. -/
def write_slots (slots : PathId) : List UInt8 := slots.slots.flatMap (le_bytes 8)

theorem length_le_bytes (k : Nat) (n : UInt64) : (le_bytes k n).length = k := by
  induction k generalizing n with
  | zero => rfl
  | succ k ih => rw [le_bytes, List.length_cons, ih]

theorem from_le_bytes_le_bytes (k : Nat) (hk : k ≤ 8) (n : UInt64) :
    (from_le_bytes (le_bytes k n)).toNat = n.toNat % 256 ^ k := by
  induction k generalizing n with
  | zero => rw [Nat.pow_zero, Nat.mod_one]; rfl
  | succ k ih =>
    have hbytes : from_le_bytes (le_bytes (k + 1) n) =
        from_le_bytes (le_bytes k (n / 256)) * 256 + n.toUInt8.toUInt64 := rfl
    have hrest := ih (by omega) (n / 256)
    have hlt : n.toNat / 256 % 256 ^ k < 256 ^ k := Nat.mod_lt _ (Nat.pow_pos (by decide))
    have hpow : 256 ^ k ≤ 256 ^ 7 := Nat.pow_le_pow_right (by decide) (by omega)
    have h256 : (256 : UInt64).toNat = 256 := rfl
    rw [UInt64.toNat_div, h256] at hrest
    have hsplit : n.toNat % 256 ^ (k + 1) = n.toNat % 256 + 256 * (n.toNat / 256 % 256 ^ k) := by
      rw [Nat.pow_succ', Nat.mod_mul]
    rw [hsplit, hbytes, UInt64.toNat_add, UInt64.toNat_mul, hrest, h256, UInt8.toNat_toUInt64,
      UInt64.toNat_toUInt8]
    omega

theorem read_slot (slots : List UInt64) (i : Nat) (hi : i < slots.length) :
    from_le_bytes (((slots.flatMap (le_bytes 8)).drop (8 * i)).take 8) = slots[i] := by
  induction slots generalizing i with
  | nil => cases hi
  | cons slot rest ih =>
    rw [List.flatMap_cons]
    cases i with
    | zero =>
      rw [Nat.mul_zero, List.drop_zero, List.take_left' (length_le_bytes 8 slot)]
      apply UInt64.toNat_inj.mp
      rw [from_le_bytes_le_bytes 8 (Nat.le_refl 8)]
      exact Nat.mod_eq_of_lt slot.toBitVec.isLt
    | succ i =>
      rw [Nat.mul_succ, Nat.add_comm, ← List.drop_drop, List.drop_left' (length_le_bytes 8 slot)]
      exact ih i (Nat.lt_of_succ_lt_succ hi)

theorem read_write_slots (slots : PathId) : read_slots (write_slots slots) = slots.slots := by
  apply List.ext_getElem
  · simp only [read_slots, List.length_map, List.length_range, slots.length]
  · intro i _ hi
    simp only [read_slots, List.getElem_map, List.getElem_range]
    exact read_slot slots.slots i hi

theorem length_write_slots (slots : PathId) : (write_slots slots).length = 40 := by
  have hbytes : ∀ l : List UInt64, (l.flatMap (le_bytes 8)).length = 8 * l.length := by
    intro l
    induction l with
    | nil => rfl
    | cons slot rest ih =>
      rw [List.flatMap_cons, List.length_append, ih, length_le_bytes, List.length_cons]
      omega
  rw [write_slots, hbytes, slots.length]

/-- In milliseconds. -/
def surb_window : Nat := 24_000

namespace InnerGraph
variable {G M W : Type} [StableDiGraph G OffchainPublicKey W]

/-- The edges between the nodes of consecutive slots, if all of them are there. -/
def walk_edges (s : InnerGraph G M) : List UInt64 → Option (List EdgeIndex)
  | slot :: slot' :: rest => do
    let src ← s.resolve slot
    let dest ← s.resolve slot'
    let edge ← find_edge s.graph src dest
    let edges ← walk_edges s (slot' :: rest)
    return edge :: edges
  | _ => some []

def resolve_loopback_edges (s : InnerGraph G M) (me : OffchainPublicKey) (path_bytes : List UInt8) :
    Option (List EdgeIndex) :=
  let me_val := path_id.encode me
  let slots := read_slots path_bytes
  if path_bytes.length ≠ 40 then none
  else if slots.head? ≠ some me_val then none
  else do
    let end_pos ← (slots.tail.findIdx? (· == me_val)).map (· + 1)
    -- The slots behind the closing node are padding.
    if (slots.drop (end_pos + 1)).any (· ≠ 0) then none
    else
      let edges ← s.walk_edges (slots.take (end_pos + 1))
      if edges.length ≠ end_pos then none
      else if edges.length < 2 then none
      else return edges

def resolve_round_trip_edges (s : InnerGraph G M) (me : OffchainPublicKey)
    (paths : ForwardAndReturnPath) : Option (List EdgeIndex) :=
  let me_val := path_id.encode me
  let forward := paths.forward.slots
  let reply := paths.reply.slots
  if forward.head? ≠ some me_val then none
  else do
    let replier ← reply.head?
    let forward_end ← forward.findIdx? (· == replier)
    let reply_end ← (reply.tail.findIdx? (· == me_val)).map (· + 1)
    let edges ← s.walk_edges (forward.take (forward_end + 1) ++ (reply.take (reply_end + 1)).tail)
    if edges = [] then none else return edges

variable [Observations W]

/-- What the edges but the target are known to take. Each is an average of times that passed, so the few edges of a
loop do not add up to the 2^64 seconds at which a `Duration` overflows. -/
def known_latency (s : InnerGraph G M) (edges : List EdgeIndex) (target_idx : Nat) : Nat :=
  (edges.eraseIdx target_idx).foldl (fun known edge =>
    match edge_weight s.graph edge with
    | some weight => known +
      ((Observations.intermediate_latency weight).or (Observations.immediate_latency weight)).getD 0
    | none => known) 0

/-- The latency of the edge that is left of the whole, or else the one it carries. -/
def attributed_duration (s : InnerGraph G M) (edges : List EdgeIndex) (target_idx total_rtt : Nat) :
    Option Nat :=
  let known := s.known_latency edges target_idx
  if known ≤ total_rtt then some (total_rtt - known)
  else do
    let edge ← edges[target_idx]?
    let weight ← edge_weight s.graph edge
    Observations.intermediate_latency weight

/-- A measurement is recorded at each of the edges. -/
def record_at (now_ms : Nat) (measurement : EdgeWeightType) (edges : List EdgeIndex)
    (s : InnerGraph G M) : InnerGraph G M :=
  let record := fun graph edge => edge_weight_mut edge (Observations.record now_ms measurement) graph
  {s with graph := edges.foldl record s.graph}

end InnerGraph

namespace ChannelGraph
variable {G M W : Type} [StableDiGraph G OffchainPublicKey W]
  [BiHashMap M OffchainPublicKey NodeIndex] [Observations W]

def upsert_edge (src dest : OffchainPublicKey) (f : W → W) (g : ChannelGraph G M) :
    ChannelGraph G M :=
  {g with inner := g.inner.upsert_edge src dest f}

/-- Both directions of the connection to a peer. -/
def upsert_both (peer : OffchainPublicKey) (f : W → W) (g : ChannelGraph G M) : ChannelGraph G M :=
  upsert_edge peer g.me f (upsert_edge g.me peer f g)

/-- A clock is read once for each report. -/
def record_edge (now_ms : Nat) (g : ChannelGraph G M) : MeasurableEdge → ChannelGraph G M
  | .Surb paths timestamp expected observed =>
    if now_ms < timestamp then g
    else if surb_window < now_ms - timestamp then g
    else if !g.inner.contains_node g.me then g
    else
      match g.inner.resolve_round_trip_edges g.me paths with
      | some edges => {g with inner := g.inner.record_at now_ms (.SurbRoundTrips expected observed) edges}
      | none => g
  | .Neighbor peer rtt =>
    upsert_both peer (fun weight => Observations.record now_ms (.Immediate (some (rtt / 2)))
      (Observations.record now_ms (.Connected true) weight)) g
  | .Loopback path timestamp =>
    if !g.inner.contains_node g.me then g
    else
      match g.inner.resolve_loopback_edges g.me path with
      | none => g
      | some edges =>
        let target_idx := edges.length - 2
        if now_ms < timestamp then g
        else
          -- The milliseconds are narrowed to 64 bits.
          let total_rtt := (now_ms - timestamp) % 2 ^ 64 * 1_000_000
          if g.max_plausible_loopback_rtt < total_rtt then g
          else
            match g.inner.attributed_duration edges target_idx total_rtt with
            | none => g
            | some latency =>
              let target := edges[target_idx]?.toList
              {g with inner := g.inner.record_at now_ms (.Intermediate (some latency)) target}
  | .ProbeNeighborTimeout peer =>
    upsert_both peer (Observations.record now_ms (.Immediate none)) g
  | .ProbeLoopbackTimeout path =>
    if !g.inner.contains_node g.me then g
    else
      match g.inner.resolve_loopback_edges g.me path with
      | none => g
      | some edges =>
        let target := edges[edges.length - 2]?.toList
        {g with inner := g.inner.record_at now_ms (.Intermediate none) target}
  | .Balance src dest balance =>
    upsert_edge src dest (Observations.record now_ms (.Balance balance)) g
  | .ConnectionStatus peer connected =>
    upsert_both peer (Observations.record now_ms (.Connected connected)) g

end ChannelGraph

/-! ### Reports about paths -/

/-- The report names a path by its slots. -/
def MeasurableEdge.NamesPath : MeasurableEdge → Prop
  | .Surb .. | .Loopback .. | .ProbeLoopbackTimeout .. => True
  | _ => False

namespace ChannelGraph
variable {G M W : Type} [StableDiGraph G OffchainPublicKey W]

/-- The edges of the path that a report names. -/
def resolved (g : ChannelGraph G M) : MeasurableEdge → Option (List EdgeIndex)
  | .Surb paths .. => g.inner.resolve_round_trip_edges g.me paths
  | .Loopback path _ => g.inner.resolve_loopback_edges g.me path
  | .ProbeLoopbackTimeout path => g.inner.resolve_loopback_edges g.me path
  | _ => none

variable [BiHashMap M OffchainPublicKey NodeIndex] [Observations W]

/-- A report about a path changes nothing, or records one measurement at edges of the path. -/
theorem record_edge_cases (now_ms : Nat) (g : ChannelGraph G M) {update : MeasurableEdge}
    (hpath : update.NamesPath) : g.record_edge now_ms update = g ∨
      ∃ edges credited measurement, g.resolved update = some edges ∧ (∀ e ∈ credited, e ∈ edges) ∧
        g.record_edge now_ms update = {g with inner := g.inner.record_at now_ms measurement credited} := by
  have htarget : ∀ (edges : List EdgeIndex) (i : Nat), ∀ e ∈ edges[i]?.toList, e ∈ edges := by
    intro edges i e he
    exact List.mem_of_getElem? (Option.mem_toList.mp he)
  cases update with
  | Surb paths timestamp expected observed =>
    simp only [record_edge, resolved]
    split_ifs
    · exact .inl rfl
    · exact .inl rfl
    · exact .inl rfl
    · cases g.inner.resolve_round_trip_edges g.me paths with
      | none => exact .inl rfl
      | some edges => exact .inr ⟨edges, edges, _, rfl, fun _ he => he, rfl⟩
  | Loopback path timestamp =>
    cases hres : g.inner.resolve_loopback_edges g.me path with
    | none => exact .inl (by simp only [record_edge, hres, ite_self])
    | some edges =>
      simp only [record_edge, resolved, hres]
      split_ifs
      · exact .inl rfl
      · exact .inl rfl
      · exact .inl rfl
      · split
        · exact .inl rfl
        · exact .inr ⟨edges, _, _, rfl, htarget edges _, rfl⟩
  | ProbeLoopbackTimeout path =>
    cases hres : g.inner.resolve_loopback_edges g.me path with
    | none => exact .inl (by simp only [record_edge, hres, ite_self])
    | some edges =>
      simp only [record_edge, resolved, hres]
      split_ifs
      · exact .inl rfl
      · exact .inr ⟨edges, _, _, rfl, htarget edges _, rfl⟩
  | Neighbor | ProbeNeighborTimeout | Balance | ConnectionStatus => cases hpath

end ChannelGraph

/-! ### Calls -/

/-- A call that changes the graph. -/
inductive Operation (W : Type) where
  | add_node (key : OffchainPublicKey)
  | remove_node (key : OffchainPublicKey)
  | add_edge (src dest : OffchainPublicKey)
  | remove_edge (src dest : OffchainPublicKey)
  | upsert_edge (src dest : OffchainPublicKey) (f : W → W)
  | record_edge (now_ms : Nat) (update : MeasurableEdge)

namespace ChannelGraph
variable {G M W : Type} [StableDiGraph G OffchainPublicKey W]
  [BiHashMap M OffchainPublicKey NodeIndex] [Observations W]

def call (g : ChannelGraph G M) : Operation W → ChannelGraph G M
  | .add_node key => {g with inner := g.inner.add_node key}
  | .remove_node key => {g with inner := g.inner.remove_node key}
  | .add_edge src dest =>
    match g.inner.add_edge src dest with
    | .ok inner => {g with inner}
    | .error _ => g
  | .remove_edge src dest => {g with inner := g.inner.remove_edge src dest}
  | .upsert_edge src dest f => g.upsert_edge src dest f
  | .record_edge now_ms update => g.record_edge now_ms update

/-- One call after the other. -/
def calls (g : ChannelGraph G M) (ops : List (Operation W)) : ChannelGraph G M := ops.foldl call g

theorem me_record_edge (now_ms : Nat) (g : ChannelGraph G M) (update : MeasurableEdge) :
    (g.record_edge now_ms update).me = g.me := by
  have hpath : update.NamesPath → (g.record_edge now_ms update).me = g.me := by
    intro hnames
    cases record_edge_cases now_ms g hnames with
    | inl hsame => rw [hsame]
    | inr hrecorded =>
      obtain ⟨edges, credited, measurement, _, _, heq⟩ := hrecorded
      rw [heq]
  cases update with
  | Surb | Loopback | ProbeLoopbackTimeout => exact hpath trivial
  | Neighbor | ProbeNeighborTimeout | Balance | ConnectionStatus => rfl

/-- The local node stays the same. -/
theorem me_calls (g : ChannelGraph G M) (ops : List (Operation W)) : (g.calls ops).me = g.me := by
  induction ops generalizing g with
  | nil => rfl
  | cons op rest ih =>
    refine (ih (g.call op)).trans ?_
    cases op with
    | add_edge src dest =>
      unfold call
      dsimp only
      split <;> rfl
    | record_edge now_ms update => exact me_record_edge now_ms g update
    | add_node | remove_node | remove_edge | upsert_edge => rfl

end ChannelGraph

end Hopr.Graph
