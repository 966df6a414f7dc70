import Hopr.Graph.Resolution
import Hopr.Graph.Weight

/-! What a probe of a loop says of one edge.

The probe is attributed to the last edge but one of its loop. Of a round trip that
succeeded this edge is credited with what is left when the latencies known of the
other edges are taken away; when they are more than the whole, with the latency it
already has; and when it has none, with nothing (`loopback_attributed`). -/
namespace Hopr.Graph.Tomography
open StableDiGraph BiHashMap InnerGraph Graph.Representation Loopback Attribution Resolution

/-! ### The edges of a loop -/

/-- Neighbors on a short way around differ from each other in pairs. -/
theorem nodup_around {K : Type} {start : K} {between : List K} (hshort : between.length ≤ 3)
    (hfresh : start ∉ between)
    (hapart : ∀ p ∈ (start :: between ++ [start]).zip (between ++ [start]), p.1 ≠ p.2) :
    ((start :: between ++ [start]).zip (between ++ [start])).Nodup := by
  match between with
  | [] => simp
  | [a] =>
    simp only [List.mem_singleton] at hfresh
    simp [hfresh]
  | [a, b] =>
    simp only [List.mem_cons, List.not_mem_nil, or_false, not_or] at hfresh
    simp [hfresh, Ne.symm hfresh.2]
  | [a, b, c] =>
    simp only [List.mem_cons, List.not_mem_nil, or_false, not_or] at hfresh
    obtain ⟨ha, hb, hc⟩ := hfresh
    have hab : a ≠ b := hapart (a, b) (by simp)
    simp [ha, hb, hc, hab, Ne.symm hb, Ne.symm hc]
  | _ :: _ :: _ :: _ :: _ =>
    simp only [List.length_cons] at hshort
    omega

section Loops
variable {G M W : Type} [StableDiGraph G OffchainPublicKey W] [BiHashMap M OffchainPublicKey NodeIndex]
  {s : InnerGraph G M}

variable [LawfulBiHashMap M]

/-- An edge joins only two keys. -/
theorem Joins.unique {e : EdgeIndex} {pair pair' : OffchainPublicKey × OffchainPublicKey} (h : Joins s e pair)
    (h' : Joins s e pair') : pair = pair' := by
  obtain ⟨a, b, w, ha, hb, he⟩ := h
  obtain ⟨a', b', w', ha', hb', he'⟩ := h'
  cases he.symm.trans he'
  exact Prod.ext (left_injective ha ha') (left_injective hb hb')

theorem nodup_of_joins {edges : List EdgeIndex} {pairs : List (OffchainPublicKey × OffchainPublicKey)}
    (h : List.Forall₂ (Joins s) edges pairs) (hpairs : pairs.Nodup) : edges.Nodup := by
  induction h with
  | nil => exact .nil
  | @cons e pair edges pairs hjoins hrest ih =>
    obtain ⟨hfresh, hnodup⟩ := List.nodup_cons.mp hpairs
    refine List.nodup_cons.mpr ⟨?_, ih hnodup⟩
    intro hmem
    obtain ⟨pair', hpair', hjoins'⟩ := (joins_mem hrest).1 e hmem
    exact hfresh (Joins.unique hjoins hjoins' ▸ hpair')

/-- No edge leads from a node to itself. -/
def Loopless (s : InnerGraph G M) : Prop := ∀ e a b w, edge s.graph e = some (a, b, w) → a ≠ b

variable [LawfulStableDiGraph G]

/-- The edges of a loop: at least two, each of them once. -/
theorem edges_of_loop (h : Represented s) (hloopless : Loopless s) {me : OffchainPublicKey} {bytes : List UInt8}
    {edges : List EdgeIndex} (hedges : s.resolve_loopback_edges me bytes = some edges) :
    2 ≤ edges.length ∧ edges.Nodup := by
  obtain ⟨between, keys, ⟨_, ⟨padding, hslots⟩, hne, hfresh⟩, hleg⟩ := (resolve_loopback_edges_iff h).mp hedges
  have hcount := hleg.length_edges
  have hpos := List.length_pos_of_ne_nil hne
  have hshort : between.length ≤ 3 := by
    have hlength := congrArg List.length hslots
    simp only [read_slots, List.length_map, List.length_range, List.length_append, List.length_cons,
      List.length_replicate] at hlength
    omega
  rw [List.length_append, List.length_cons, List.length_singleton] at hcount
  refine ⟨by omega, nodup_of_joins hleg.joined ?_⟩
  have hpairs : (keys.zip keys.tail).map (Prod.map path_id.encode path_id.encode) =
      (path_id.encode me :: between ++ [path_id.encode me]).zip (between ++ [path_id.encode me]) := by
    rw [← List.zip_map, List.map_tail, hleg.slots_eq]
    rfl
  apply List.Nodup.of_map (Prod.map path_id.encode path_id.encode)
  rw [hpairs]
  apply nodup_around hshort hfresh
  intro p hp
  rw [← hpairs] at hp
  obtain ⟨⟨k, k'⟩, hpair, rfl⟩ := List.mem_map.mp hp
  obtain ⟨e, a, b, w, ha, hb, he⟩ := (joins_mem hleg.joined).2 (k, k') hpair
  intro hsame
  have hclaim := hleg.claimant k' (List.mem_of_mem_tail (List.of_mem_zip hpair).2)
  cases hclaim.2.2 k ⟨a, ha⟩ hsame
  exact hloopless e a b w he (Option.some.inj (ha.symm.trans hb))

end Loops

/-! ### What is attributed -/

/-- The time that a probe took, in nanoseconds; its milliseconds are narrowed to 64 bits. -/
def round_trip (now_ms timestamp : Nat) : Nat := (now_ms - timestamp) % 2 ^ 64 * 1_000_000

section Latencies
variable {G M W : Type} [StableDiGraph G OffchainPublicKey W] [Observations W] {s : InnerGraph G M}

/-- What is known of an edge from the probes of its loops, or else of the neighbor. -/
def latency (s : InnerGraph G M) (e : EdgeIndex) : Option Nat :=
  (edge_weight s.graph e).bind fun w => (Observations.intermediate_latency w).or (Observations.immediate_latency w)

/-- All that is known of the other edges. -/
def known (s : InnerGraph G M) (edges : List EdgeIndex) (target : EdgeIndex) : Nat :=
  ((edges.filter (· ≠ target)).filterMap (latency s)).sum

/-- What the edge has from earlier probes. -/
def carried (s : InnerGraph G M) (target : EdgeIndex) : Option Nat :=
  (edge_weight s.graph target).bind Observations.intermediate_latency

/-- What a round trip says of an edge: what is left of it, or if more is known of the others what the edge has. -/
inductive Attributed (s : InnerGraph G M) (edges : List EdgeIndex) (target : EdgeIndex) (rtt : Nat) :
    Option Nat → Prop
  | residual : known s edges target ≤ rtt → Attributed s edges target rtt (some (rtt - known s edges target))
  | kept : rtt < known s edges target → Attributed s edges target rtt (carried s target)

/-- The result of a probe is recorded at one edge. -/
def credit (now_ms : Nat) (target : EdgeIndex) (result : Option Nat) (s : InnerGraph G M) : InnerGraph G M :=
  {s with graph := edge_weight_mut target (Observations.record now_ms (.Intermediate result)) s.graph}

theorem known_latency_eq {edges : List EdgeIndex} (hedges : edges.Nodup) {i : Nat} {target : EdgeIndex}
    (htarget : edges[i]? = some target) : s.known_latency edges i = known s edges target := by
  have hsum : ∀ (others : List EdgeIndex) (start : Nat), others.foldl (fun known edge =>
      (edge_weight s.graph edge).elim known fun weight =>
        known + ((Observations.intermediate_latency weight).or (Observations.immediate_latency weight)).getD 0) start =
      start + (others.filterMap (latency s)).sum := by
    intro others
    induction others with
    | nil => exact fun start => (Nat.add_zero start).symm
    | cons e rest ih =>
      intro start
      rw [List.foldl_cons, ih, List.filterMap_cons]
      unfold latency
      cases edge_weight s.graph e with
      | none => rfl
      | some w =>
        rw [Option.elim_some, Option.bind_some]
        cases (Observations.intermediate_latency w).or (Observations.immediate_latency w) with
        | none => rfl
        | some known => rw [Option.getD_some, List.sum_cons, Nat.add_assoc]
  obtain ⟨hi, rfl⟩ := List.getElem?_eq_some_iff.mp htarget
  have hothers : edges.eraseIdx i = edges.filter (· ≠ edges[i]) := by
    rw [← hedges.erase_getElem i hi, hedges.erase_eq_filter]
    simp only [bne, ne_eq, decide_not, beq_eq_decide]
  have hall : s.known_latency edges i = 0 + ((edges.eraseIdx i).filterMap (latency s)).sum := by
    rw [← hsum]
    unfold known_latency
    congr 1
    funext known edge
    cases edge_weight s.graph edge <;> rfl
  rw [hall, Nat.zero_add, hothers]
  rfl

theorem attributed_duration_iff {edges : List EdgeIndex} (hedges : edges.Nodup) {i : Nat} {target : EdgeIndex}
    (htarget : edges[i]? = some target) {total_rtt : Nat} {result : Option Nat} :
    s.attributed_duration edges i total_rtt = result ↔ Attributed s edges target total_rtt result := by
  have hduration : s.attributed_duration edges i total_rtt = if known s edges target ≤ total_rtt
      then some (total_rtt - known s edges target) else carried s target := by
    unfold attributed_duration carried
    rw [known_latency_eq hedges htarget, htarget]
    rfl
  rw [hduration]
  constructor
  · rintro rfl
    split
    · next hle => exact .residual hle
    · next hlt => exact .kept (Nat.lt_of_not_le hlt)
  · intro h
    cases h with
    | residual hle => exact if_pos hle
    | kept hlt => exact if_neg (Nat.not_le_of_lt hlt)

theorem Attributed.total (s : InnerGraph G M) (edges : List EdgeIndex) (target : EdgeIndex) (rtt : Nat) :
    ∃ result, Attributed s edges target rtt result := by
  cases Nat.lt_or_ge rtt (known s edges target) with
  | inl hlt => exact ⟨_, .kept hlt⟩
  | inr hle => exact ⟨_, .residual hle⟩

/-- A zero is not made up. -/
theorem Attributed.zero {edges : List EdgeIndex} {target : EdgeIndex} {rtt : Nat}
    (h : Attributed s edges target rtt (some 0)) : rtt = known s edges target ∨ carried s target = some 0 := by
  generalize hzero : some 0 = result at h
  cases h with
  | residual hle =>
    have hrest := Option.some.inj hzero
    exact .inl (by omega)
  | kept hlt => exact .inr rfl

end Latencies

/-! ### Reports -/

section Reports
variable {A R : Nat → Type} {F G M : Type} [StableDiGraph G OffchainPublicKey (Weight.Observations A R F)]

/-- Nothing changes but the intermediate stream of an edge, and the time of its update. -/
structure Touches (g g' : ChannelGraph G M) (target : EdgeIndex → Prop) : Prop where
  me : g'.me = g.me
  max_plausible_loopback_rtt : g'.max_plausible_loopback_rtt = g.max_plausible_loopback_rtt
  indices : g'.inner.indices = g.inner.indices
  slots : g'.inner.slots = g.inner.slots
  nodes : ∀ i, node_weight g'.inner.graph i = node_weight g.inner.graph i
  edges : ∀ e, edge g'.inner.graph e = edge g.inner.graph e ∨ target e ∧ ∃ a b w w',
    edge g.inner.graph e = some (a, b, w) ∧ edge g'.inner.graph e = some (a, b, w') ∧
      w'.immediate_probe = w.immediate_probe ∧ w'.health = w.health

theorem Touches.refl (g : ChannelGraph G M) (target : EdgeIndex → Prop) : Touches g g target :=
  ⟨rfl, rfl, rfl, rfl, fun _ => rfl, fun _ => .inl rfl⟩

variable [Field F] [LinearOrder F] [FloorSemiring F] [Weight.ExponentialMovingAverage A F] [Weight.WindowedRatio R F]
  [Weight.Powf F]

theorem touches_credit [LawfulStableDiGraph G] (g : ChannelGraph G M) (now_ms : Nat) {e : EdgeIndex}
    (result : Option Nat) {target : EdgeIndex → Prop} (htarget : target e) :
    Touches g {g with inner := credit now_ms e result g.inner} target := by
  constructor
  case nodes => exact fun i => LawfulStableDiGraph.node_edge_weight_mut ..
  case edges =>
    intro e'
    have hedge := LawfulStableDiGraph.edge_edge_weight_mut e
      (Observations.record now_ms (.Intermediate result)) g.inner.graph e'
    by_cases hsame : e' = e
    · rw [if_pos hsame] at hedge
      cases he : edge g.inner.graph e' with
      | none => exact .inl (hedge.trans (by rw [he, Option.map_none]))
      | some x =>
        rw [he] at hedge
        exact .inr ⟨hsame ▸ htarget, x.1, x.2.1, x.2.2, _, rfl, hedge, rfl, rfl⟩
    · rw [if_neg hsame] at hedge
      exact .inl hedge
  all_goals rfl

variable [BiHashMap M OffchainPublicKey NodeIndex]

/-- The loop that is named, and its last edge but one. -/
def Target (g : ChannelGraph G M) (bytes : List UInt8) (edges : List EdgeIndex) (target : EdgeIndex) : Prop :=
  Mapped g.inner g.me ∧ g.inner.resolve_loopback_edges g.me bytes = some edges ∧
    edges[edges.length - 2]? = some target

theorem record_timeout {g : ChannelGraph G M} {bytes : List UInt8} {edges : List EdgeIndex} {target : EdgeIndex}
    (h : Target g bytes edges target) (now_ms : Nat) :
    g.record_edge now_ms (.ProbeLoopbackTimeout bytes) = {g with inner := credit now_ms target none g.inner} := by
  obtain ⟨⟨i, hme⟩, hedges, htarget⟩ := h
  have hpresent : (!g.inner.contains_node g.me) = false := by
    simp only [contains_node, hme, Option.isSome, Bool.not_true]
  simp only [ChannelGraph.record_edge, hpresent, hedges, htarget]
  rfl

variable [LawfulStableDiGraph G] [LawfulBiHashMap M]

theorem record_success {g : ChannelGraph G M} (hg : Represented g.inner) (hloopless : Loopless g.inner)
    {bytes : List UInt8} {edges : List EdgeIndex} {target : EdgeIndex} (h : Target g bytes edges target)
    {now_ms timestamp : Nat} (htime : timestamp ≤ now_ms)
    (hrtt : round_trip now_ms timestamp ≤ g.max_plausible_loopback_rtt) {result : Option Nat}
    (hresult : Attributed g.inner edges target (round_trip now_ms timestamp) result) :
    g.record_edge now_ms (.Loopback bytes timestamp) = match result with
      | some latency => {g with inner := credit now_ms target (some latency) g.inner}
      | none => g := by
  obtain ⟨⟨i, hme⟩, hedges, htarget⟩ := h
  have hpresent : (!g.inner.contains_node g.me) = false := by
    simp only [contains_node, hme, Option.isSome, Bool.not_true]
  have hduration := (attributed_duration_iff (edges_of_loop hg hloopless hedges).2 htarget).mpr hresult
  unfold round_trip at hduration hrtt
  simp only [ChannelGraph.record_edge, hpresent, hedges, htarget, hduration, if_neg (Nat.not_lt.mpr htime),
    if_neg (Nat.not_lt.mpr hrtt), Bool.false_eq_true, if_false]
  cases result with
  | some latency => rfl
  | none => rfl

theorem record_nothing {g : ChannelGraph G M} (hg : Represented g.inner) (hloopless : Loopless g.inner)
    {bytes : List UInt8} (h : ¬ ∃ edges target, Target g bytes edges target) (now_ms timestamp : Nat) :
    g.record_edge now_ms (.Loopback bytes timestamp) = g ∧ g.record_edge now_ms (.ProbeLoopbackTimeout bytes) = g := by
  by_cases hme : Mapped g.inner g.me
  · have hnone : g.inner.resolve_loopback_edges g.me bytes = none := by
      cases hedges : g.inner.resolve_loopback_edges g.me bytes with
      | none => rfl
      | some edges =>
        have hcount := (edges_of_loop hg hloopless hedges).1
        exact absurd ⟨edges, _, hme, hedges, List.getElem?_eq_getElem (by omega : edges.length - 2 < edges.length)⟩ h
    simp only [ChannelGraph.record_edge, hnone, ite_self, and_self]
  · have habsent : (!g.inner.contains_node g.me) = true := by
      cases hi : get_by_left g.inner.indices g.me with
      | none => simp only [contains_node, hi, Option.isSome, Bool.not_false]
      | some i => exact absurd ⟨i, hi⟩ hme
    simp only [ChannelGraph.record_edge, habsent, if_true, and_self]

/-- **A probe of a loop changes at most its last edge but one, and of that the intermediate stream alone: a success
is credited with the rest of the round trip, or else with the latency that the edge has, or not at all.** -/
theorem loopback_attributed (g : ChannelGraph G M) (h : Represented g.inner) (hloopless : Loopless g.inner)
    (now_ms timestamp : Nat) (bytes : List UInt8) :
    (∀ update, update = .Loopback bytes timestamp ∨ update = .ProbeLoopbackTimeout bytes →
      Touches g (g.record_edge now_ms update) fun e => ∃ edges, Target g bytes edges e) ∧
    (now_ms < timestamp ∨ g.max_plausible_loopback_rtt < round_trip now_ms timestamp →
      g.record_edge now_ms (.Loopback bytes timestamp) = g) ∧
    ((¬ ∃ edges target, Target g bytes edges target) →
      g.record_edge now_ms (.Loopback bytes timestamp) = g ∧ g.record_edge now_ms (.ProbeLoopbackTimeout bytes) = g) ∧
    ∀ edges target, Target g bytes edges target →
      g.record_edge now_ms (.ProbeLoopbackTimeout bytes) = {g with inner := credit now_ms target none g.inner} ∧
      (timestamp ≤ now_ms → round_trip now_ms timestamp ≤ g.max_plausible_loopback_rtt →
        (∀ latency, Attributed g.inner edges target (round_trip now_ms timestamp) (some latency) →
          g.record_edge now_ms (.Loopback bytes timestamp) =
            {g with inner := credit now_ms target (some latency) g.inner}) ∧
        (Attributed g.inner edges target (round_trip now_ms timestamp) none →
          g.record_edge now_ms (.Loopback bytes timestamp) = g)) ∧
      (Attributed g.inner edges target (round_trip now_ms timestamp) (some 0) →
        round_trip now_ms timestamp = known g.inner edges target ∨ carried g.inner target = some 0) := by
  have hlate : now_ms < timestamp ∨ g.max_plausible_loopback_rtt < round_trip now_ms timestamp →
      g.record_edge now_ms (.Loopback bytes timestamp) = g := by
    intro hlate
    unfold round_trip at hlate
    have hdropped : ∀ g', (if now_ms < timestamp then g
        else if g.max_plausible_loopback_rtt < (now_ms - timestamp) % 2 ^ 64 * 1_000_000 then g else g') = g := by
      intro g'
      split_ifs with hfuture hlong
      · rfl
      · rfl
      · exact absurd hlate (not_or.mpr ⟨hfuture, hlong⟩)
    cases hedges : g.inner.resolve_loopback_edges g.me bytes with
    | none => simp only [ChannelGraph.record_edge, hedges, ite_self]
    | some edges => simp only [ChannelGraph.record_edge, hedges, hdropped, ite_self]
  refine ⟨?_, hlate, fun hnone => record_nothing h hloopless hnone now_ms timestamp, ?_⟩
  · have hsame : ∀ g', g' = g → Touches g g' fun e => ∃ edges, Target g bytes edges e := by
      rintro g' rfl
      exact .refl g' _
    by_cases htarget : ∃ edges target, Target g bytes edges target
    · obtain ⟨edges, target, htarget⟩ := htarget
      have hcredit : ∀ result, Touches g {g with inner := credit now_ms target result g.inner} fun e =>
          ∃ edges, Target g bytes edges e := fun result => touches_credit g now_ms result ⟨edges, htarget⟩
      rintro update (rfl | rfl)
      · by_cases hdropped : now_ms < timestamp ∨ g.max_plausible_loopback_rtt < round_trip now_ms timestamp
        · exact hsame _ (hlate hdropped)
        · obtain ⟨htime, hrtt⟩ := not_or.mp hdropped
          obtain ⟨result, hresult⟩ := Attributed.total g.inner edges target (round_trip now_ms timestamp)
          rw [record_success h hloopless htarget (Nat.not_lt.mp htime) (Nat.not_lt.mp hrtt) hresult]
          cases result with
          | some latency => exact hcredit (some latency)
          | none => exact hsame g rfl
      · rw [record_timeout htarget now_ms]
        exact hcredit none
    · obtain ⟨hloopback, htimeout⟩ := record_nothing h hloopless htarget now_ms timestamp
      rintro update (rfl | rfl)
      · exact hsame _ hloopback
      · exact hsame _ htimeout
  · intro edges target htarget
    exact ⟨record_timeout htarget now_ms, fun htime hrtt =>
      ⟨fun latency hlatency => record_success h hloopless htarget htime hrtt hlatency,
        fun hnone => record_success h hloopless htarget htime hrtt hnone⟩, Attributed.zero⟩

end Reports

/-- The triangle, observed. -/
def observed : ChannelGraph (ListGraph OffchainPublicKey (Weight.Observations Weight.RunningMean Weight.CountedRatio ℚ))
    (PairMap OffchainPublicKey NodeIndex) :=
  (ChannelGraph.new (.of 1) 1_000_000_000).calls
    [.upsert_edge (.of 1) (.of 2) (Observations.record 5 (.Immediate (some 10_000_000))),
      .upsert_edge (.of 2) (.of 3) id,
      .upsert_edge (.of 3) (.of 1) (Observations.record 7 (.Immediate (some 15_000_000)))]

theorem loopless_of_edges {W : Type}
    {s : InnerGraph (ListGraph OffchainPublicKey W) (PairMap OffchainPublicKey NodeIndex)}
    (hedges : ∀ x ∈ s.graph.edges, ∀ y ∈ x, y.1 ≠ y.2.1) : Loopless s := by
  intro e a b w he
  obtain ⟨x, hx, hjoin⟩ := Option.bind_eq_some_iff.mp he
  exact hedges x (List.mem_of_getElem? hx) (a, b, w) hjoin

/-- Of forty milliseconds fifteen are left for the edge that no neighbor is at. -/
theorem loopback_attributed_observed :
    observed.record_edge 40 (.Loopback (write_slots ⟨[path_id.encode (.of 1), path_id.encode (.of 2),
      path_id.encode (.of 3), path_id.encode (.of 1), 0], rfl⟩) 0) =
      {observed with inner := credit 40 ⟨1⟩ (some 15_000_000) observed.inner} := by
  have hrepresented : Represented observed.inner := represented_calls (represented_new _) _
  have hloopless : Loopless observed.inner := loopless_of_edges (by decide +kernel)
  have hknown : known observed.inner [⟨0⟩, ⟨1⟩, ⟨2⟩] ⟨1⟩ = 25_000_000 := by decide +kernel
  have htarget : Target observed (write_slots ⟨[path_id.encode (.of 1), path_id.encode (.of 2),
      path_id.encode (.of 3), path_id.encode (.of 1), 0], rfl⟩) [⟨0⟩, ⟨1⟩, ⟨2⟩] ⟨1⟩ :=
    ⟨⟨⟨0⟩, by decide +kernel⟩, by decide +kernel, rfl⟩
  have hresidual : Attributed observed.inner [⟨0⟩, ⟨1⟩, ⟨2⟩] ⟨1⟩ (round_trip 40 0) (some 15_000_000) := by
    have hrest : Attributed observed.inner [⟨0⟩, ⟨1⟩, ⟨2⟩] ⟨1⟩ (round_trip 40 0)
        (some (round_trip 40 0 - known observed.inner [⟨0⟩, ⟨1⟩, ⟨2⟩] ⟨1⟩)) := .residual (by rw [hknown]; decide)
    rwa [hknown] at hrest
  obtain ⟨_, hsuccess, _⟩ := (loopback_attributed observed hrepresented hloopless 40 0 _).2.2.2 _ _ htarget
  exact (hsuccess (by decide) (by decide)).1 15_000_000 hresidual

end Hopr.Graph.Tomography
