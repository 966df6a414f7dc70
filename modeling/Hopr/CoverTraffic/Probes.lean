import Hopr.CoverTraffic.Discovery

/-! Which probes are made.

Each tick is answered with a batch, which has every other node that was listed after
the tick once, but for those that were known to be down when the edge to them was read;
a batch answers a later tick only while it is younger than `shuffle_ttl`
(`neighbors_probed`). Each loop that a look-up found is probed over its two or three
relays, with an identifier that led back to its edges in the graph it was found in,
and none is dropped (`loops_probed`). Both hold however the streams are polled and
the graph changes in between. -/
namespace Hopr.CoverTraffic
open Hopr.Graph Library
open StableDiGraph BiHashMap InnerGraph Graph.Representation Loopback PathKeys

variable {G M W F R : Type} [StableDiGraph G OffchainPublicKey W]

/-! ### Loops -/

/-- A loop of two or three other nodes. -/
structure Around (me : OffchainPublicKey) (loop : Loop) (nodes : List OffchainPublicKey) : Prop where
  path : loop.1 = nodes ++ [me]
  min : 2 ≤ nodes.length
  max : nodes.length ≤ 3
  nodup : (me :: nodes).Nodup

theorem Around.strip {me : OffchainPublicKey} {loop : Loop} {nodes : List OffchainPublicKey}
    (h : Around me loop nodes) : strip_loopback_endpoints loop.1 me = nodes := by
  have hhead : nodes.head? ≠ some me := fun hh => (List.nodup_cons.mp h.nodup).1 (List.mem_of_mem_head? hh)
  unfold strip_loopback_endpoints
  dsimp only
  rw [h.path, List.getLast?_concat, if_pos rfl, List.dropLast_concat, if_neg hhead]

/-- The probe goes over the nodes of the loop and back, with its identifier. -/
def Over (me : OffchainPublicKey) (probe : ProbeRouting) (loop : Loop) : Prop :=
  ∃ nodes draw, Around me loop nodes ∧ probe = .Looping
    { destination := .Offchain me
      pseudonym := some ⟨draw⟩
      forward_options := .IntermediatePath (nodes.map .Offchain)
      return_options := none } loop.2

theorem probe_around (s : State G M F) {loop : Loop} {nodes : List OffchainPublicKey}
    (h : Around s.me loop nodes) : ∃ probe, s.probe loop = some probe ∧ Over s.me probe loop := by
  have hrouting : loopback_routing nodes = some nodes := by
    unfold loopback_routing
    exact if_pos h.max
  refine ⟨_, ?_, nodes, s.draws, h, rfl⟩
  rw [State.probe, loop_routing, h.strip, hrouting]
  rfl

variable [BiHashMap M OffchainPublicKey NodeIndex]

/-- The loop was there in the state, and its identifier led to its edges. -/
def Leads (me : OffchainPublicKey) (s : State G M F) (loop : Loop) : Prop :=
  ∃ nodes, Around me loop nodes ∧ (me :: nodes ++ [me]).IsChain (Joined s.graph.inner) ∧
    (Distinct s.graph.inner → ∃ edges,
      s.graph.inner.resolve_loopback_edges me (write_slots loop.2) = some edges ∧
      List.Forall₂ (Joins s.graph.inner) edges ((me :: nodes ++ [me]).zip (nodes ++ [me])))

section Find
variable {C : Type} [Observations W] [LT C] [DecidableLT C] {value : UInt64 → ValueFn W C} {hops : UInt64}
  {search : Shuffle R (NodeIndex × W)} {rng rng' : R} {sh : Shuffle R (Loop × F)} {loops : List Loop}

theorem find_loops_perm {s : State G M F} (h : s.find_loops value hops search rng sh rng' = some loops) :
    ∃ paths, s.graph.simple_loopback_to_self search rng hops (some LOOPS) value = some paths ∧
      loops.Perm paths := by
  obtain ⟨paths, hpaths, hloops⟩ := Option.bind_eq_some_iff.mp h
  cases hloops
  refine ⟨paths, hpaths, (into_shuffled_perm sh rng' _).trans ?_⟩
  rw [List.map_map]
  exact .of_eq (List.map_id _)

/-- No more loops are probed than are asked for. -/
theorem length_loops {s : State G M F} (hfound : s.find_loops value hops search rng sh rng' = some loops) :
    loops.length ≤ LOOPS := by
  obtain ⟨paths, hpaths, hperm⟩ := find_loops_perm hfound
  rw [hperm.length_eq]
  unfold ChannelGraph.simple_loopback_to_self at hpaths
  split at hpaths
  · split at hpaths
    · cases hpaths
      exact Nat.zero_le _
    · obtain ⟨found, htaken, hclosed⟩ := Option.bind_eq_some_iff.mp hpaths
      cases hclosed
      refine (List.length_filterMap_le _ _).trans ?_
      unfold InnerGraph.find_paths at htaken
      split at htaken
      · cases htaken
        exact Nat.zero_le _
      · obtain ⟨items, _, htake⟩ := Option.bind_eq_some_iff.mp htaken
        cases htake
        exact List.length_take_le _ _
  · cases hpaths
    exact Nat.zero_le _

variable [LawfulStableDiGraph G] [LawfulBiHashMap M]

theorem leads_of_found {s : State G M F} (h : Represented s.graph.inner)
    (hfound : s.find_loops value hops search rng sh rng' = some loops) {loop : Loop} (hloop : loop ∈ loops) :
    Leads s.graph.me s loop := by
  obtain ⟨paths, hpaths, hperm⟩ := find_loops_perm hfound
  obtain ⟨nodes, hpath, hlength, hmin, hmax, hnodup, hmapped, hencodes, hjoined⟩ :=
    loops_joined h hpaths (hperm.mem_iff.mp hloop)
  refine ⟨nodes, ⟨hpath, hlength ▸ hmin, hlength ▸ hmax, hnodup⟩, hjoined, fun hdistinct => ?_⟩
  have hfresh := (List.nodup_cons.mp hnodup).1
  refine resolve_loop h hdistinct hencodes ?_ hmapped ?_ hjoined
  · intro k hk hslot
    have hsame := hdistinct k _ (hmapped k (List.mem_cons_of_mem _ hk)) (hmapped _ List.mem_cons_self) hslot
    exact hfresh (hsame ▸ hk)
  · intro hnil
    rw [hnil, List.length_nil] at hlength
    omega

end Find

/-! ### Steps -/

/-- The prober of a node, whose loops are loops, and which makes a batch only after a burst. -/
structure Sound (me : OffchainPublicKey) (cfg : ProberConfig F) (s : State G M F) : Prop where
  own : s.me = me
  config : s.cfg = cfg
  node : s.graph.me = me
  represented : Represented s.graph.inner
  loops : ∀ loop ∈ s.loops, ∃ nodes, Around me loop nodes
  burst : ∀ making, s.making = some making → s.burst = []

theorem sound_new [LawfulStableDiGraph G] [LawfulBiHashMap M] (me : OffchainPublicKey) (cfg : ProberConfig F)
    (max_plausible_loopback_rtt : Nat) :
    Sound me cfg (State.new me cfg max_plausible_loopback_rtt : State G M F) :=
  ⟨rfl, rfl, rfl, represented_new me, fun _ hmem => absurd hmem List.not_mem_nil, fun _ _ => rfl⟩

/-- A probe is made of the loop that is taken. -/
theorem probe_step {me : OffchainPublicKey} {cfg : ProberConfig F} {s : State G M F} (h : Sound me cfg s)
    (a : Action W F R) :
    List.Forall₂ (Over me) (s.loop_probe a).toList (s.polled a) := by
  cases a with
  | poll_loops =>
    cases hloops : s.loops with
    | nil =>
      simp only [State.loop_probe, State.polled, hloops]
      exact .nil
    | cons loop rest =>
      obtain ⟨nodes, haround⟩ := h.loops loop (by rw [hloops]; exact List.mem_cons_self)
      obtain ⟨probe, hprobe, hover⟩ := probe_around s (h.own.symm ▸ haround)
      simp only [State.loop_probe, State.polled, hloops, List.head?_cons, Option.bind_some, hprobe]
      exact .cons (h.own ▸ hover) .nil
  | change | elapse | neighbors | nodes | weigh | shuffle | poll_neighbors | loops | find => exact .nil

section Steps
variable {C : Type} [Observations W] [NodeHealth W F] [EdgeScore W F] [Field F] [LinearOrder F] [LeftValues M]
  [LT C] [DecidableLT C] {value : UInt64 → ValueFn W C} {s s' : State G M F} {a : Action W F R}

theorem length_found (hstep : (machine value).step s a = some s') :
    (s.found value a).length = if a.finds then 1 else 0 := by
  cases moved hstep with
  | find search rng sh rng' _ hcounts hfound =>
    simp only [State.found, hcounts, List.head?_cons, Option.bind_some, hfound]
    rfl
  | change | elapse | again | anew | nodes | weigh | shuffle | poll_neighbors | loops | poll_loops => rfl

/-- A burst is probed from its front. -/
theorem burst_step {me : OffchainPublicKey} {cfg : ProberConfig F} (h : Sound me cfg s)
    (hstep : (machine value).step s a = some s') :
    (s.neighbor_probe a).toList ++ s'.burst = s.burst ++ (s.begun a).flatten := by
  cases moved hstep with
  | again batch hburst _ hrefresh hcache _ =>
    simp only [State.neighbor_probe, State.begun, hburst, hrefresh, hcache]
    exact (List.append_nil _).symm
  | anew hburst _ hrefresh =>
    simp only [State.neighbor_probe, State.begun, hburst, hrefresh]
    rfl
  | shuffle sh rng hmaking =>
    simp only [State.neighbor_probe, State.begun, State.refresh, h.burst _ hmaking, hmaking]
    exact (List.append_nil _).symm
  | poll_neighbors hburst =>
    simp only [State.neighbor_probe, State.begun, hburst]
    exact (List.append_nil _).symm
  | change | elapse | nodes | weigh | loops | find | poll_loops => exact (List.append_nil _).symm

/-- The loops are probed in the order they were found in. -/
theorem loops_step (hstep : (machine value).step s a = some s') :
    s.polled a ++ s'.loops = s.loops ++ (s.found value a).flatten := by
  cases moved hstep with
  | find search rng sh rng' hloops hcounts hfound =>
    simp only [State.polled, State.found, hloops, hcounts, List.head?_cons, Option.bind_some, hfound,
      Option.toList_some, List.flatten_cons, List.flatten_nil, List.append_nil, List.nil_append]
  | poll_loops hloops =>
    simp only [State.polled, State.found, hloops, List.head?_cons, Option.toList_some, List.flatten_nil,
      List.append_nil, List.cons_append, List.nil_append]
  | change | elapse | again | anew | nodes | weigh | shuffle | poll_neighbors | loops =>
    exact (List.append_nil _).symm

variable [LawfulStableDiGraph G] [LawfulBiHashMap M] {me : OffchainPublicKey} {cfg : ProberConfig F}

theorem sound_step (h : Sound me cfg s) (hstep : (machine value).step s a = some s') : Sound me cfg s' := by
  cases moved hstep with
  | change call =>
    exact {h with
      node := (KeyView.config_take s.graph call).1.trans h.node
      represented := ChannelGraph.represented_take h.represented call}
  | again _ _ hmaking => exact {h with burst := fun _ hsome => by cases hmaking.symm.trans hsome}
  | anew hburst => exact {h with burst := fun _ _ => hburst}
  | nodes hmaking | weigh hmaking => exact {h with burst := fun _ _ => h.burst _ hmaking}
  | shuffle => exact {h with burst := fun _ hsome => by cases hsome}
  | poll_neighbors hburst =>
    exact {h with burst := fun _ hsome => by cases hburst.symm.trans (h.burst _ hsome)}
  | find search rng sh rng' _ _ hfound =>
    refine {h with loops := fun loop hloop => ?_}
    obtain ⟨nodes, haround, _⟩ := leads_of_found h.represented hfound hloop
    exact ⟨nodes, h.node ▸ haround⟩
  | poll_loops hloops =>
    exact {h with loops := fun loop hrest => h.loops loop (hloops ▸ List.mem_cons_of_mem _ hrest)}
  | elapse | loops => exact {h with}

theorem sound_run {max_plausible_loopback_rtt : Nat} {as : List (Action W F R)}
    (hrun : (machine value).run (State.new me cfg max_plausible_loopback_rtt) as = some s) : Sound me cfg s :=
  (machine value).run_invariant_of_step (I := Sound me cfg) (fun _ _ _ => sound_step) hrun (sound_new me cfg _)

end Steps

/-! ### Batches -/

theorem mem_listed [LeftValues M] {s : State G M F} {peer : OffchainPublicKey} :
    peer ∈ s.listed ↔ Mapped s.graph.inner peer ∧ peer ≠ s.me := by
  rw [State.listed, List.mem_filter, LeftValues.mem_left_values, decide_eq_true_iff]
  rfl

theorem nodup_listed [LeftValues M] (s : State G M F) : s.listed.Nodup :=
  (LeftValues.nodup_left_values _).filter _

/-- Whatever its priority is, a peer is weighted unless it is known to be down. -/
theorem weighted_peer [Observations W] [EdgeScore W F] [Field F] [LinearOrder F] (s : State G M F) (now : Nat)
    (peer : OffchainPublicKey) : (s.weigh now peer).toList.map Prod.fst =
      [peer].filter fun peer => !(s.cfg.probe_connected_only && s.known_down peer) := by
  unfold State.weigh
  rw [List.filter_singleton]
  cases hdown : s.cfg.probe_connected_only && s.known_down peer with
  | true => rfl
  | false =>
    cases s.graph.edge s.me peer with
    | none => rfl
    | some obs => rfl

section Batches
variable {C : Type} [Observations W] [NodeHealth W F] [EdgeScore W F] [Field F] [LinearOrder F] [LeftValues M]
  [LT C] [DecidableLT C] (value : UInt64 → ValueFn W C) (me : OffchainPublicKey) (cfg : ProberConfig F)

/-- The state in which the edge to a peer was read, after the nodes were listed. -/
structure LooksUp (listed : State G M F) (looking : List (Action W F R)) (peer : OffchainPublicKey)
    (seen : State G M F) : Prop where
  peer : seen.next_peer = some peer
  step : ∃ before after, looking = before ++ .weigh :: after ∧
    (machine value).run listed (.nodes :: before) = some seen

/-- One probe of each other node that was listed after the tick, but for those that were known to be down when the
edge to them was read. -/
def Batch (s : State G M F) (making : List (Action W F R)) (probes : List ProbeRouting) : Prop :=
  ∃ (listing looking : List (Action W F R)) (listed : State G M F) (seen : OffchainPublicKey → State G M F)
    (peers : List OffchainPublicKey) (draws : Nat),
    making = .neighbors :: listing ++ .nodes :: looking ∧
    (machine value).run s (.neighbors :: listing) = some listed ∧
    (∀ peer, Mapped listed.graph.inner peer → peer ≠ me → LooksUp value listed looking peer (seen peer)) ∧
    peers.Nodup ∧
    (∀ peer, peer ∈ peers ↔ Mapped listed.graph.inner peer ∧ peer ≠ me ∧
      ¬(cfg.probe_connected_only = true ∧ (seen peer).known_down peer = true)) ∧
    probes = peers.zipIdx.map fun (peer, i) => .Neighbor (neighbor_routing ⟨draws + i⟩ peer)

/-- Some of the nodes that were listed are looked up. -/
def Looked (listed : State G M F) (looking : List (Action W F R)) (left : List OffchainPublicKey)
    (weighted : List (OffchainPublicKey × F)) : Prop :=
  ∃ (done : List OffchainPublicKey) (seen : OffchainPublicKey → State G M F), listed.listed = done ++ left ∧
    (∀ peer ∈ done, LooksUp value listed looking peer (seen peer)) ∧
    weighted.map Prod.fst = done.filter fun peer => !(cfg.probe_connected_only && (seen peer).known_down peer)

/-- What was made since a tick. -/
def MadeSince (s : State G M F) (making : List (Action W F R)) : Making F → Prop
  | .listing => ∃ listing, making = .neighbors :: listing
  | .weighing _ left weighted => ∃ listing looking listed, making = .neighbors :: listing ++ .nodes :: looking ∧
      (machine value).run s (.neighbors :: listing) = some listed ∧ Looked value cfg listed looking left weighted

/-- A batch that was made before. -/
def Shuffled (new : State G M F) (before : List (Action W F R)) (created_at : Nat) (probes : List ProbeRouting) :
    Prop :=
  ∃ earlier making sh rng after s s', before = earlier ++ making ++ .shuffle sh rng :: after ∧
    (machine value).run new earlier = some s ∧ (machine value).run s making = some s' ∧ s'.now = created_at ∧
    Batch value me cfg s making probes

/-- What the tick after `i` others is answered with: a batch that is made then, or a young one that was made before. -/
inductive Answered (new : State G M F) (as : List (Action W F R)) (i : Nat) (probes : List ProbeRouting) : Prop
  | anew {before making after : List (Action W F R)} {s s' : State G M F} (sh : Shuffle R (OffchainPublicKey × F))
      (rng : R) : as = before ++ making ++ .shuffle sh rng :: after → before.countP Action.fires = i →
      (machine value).run new before = some s → (machine value).run s making = some s' →
      Batch value me cfg s making probes → Answered new as i probes
  | again {before after : List (Action W F R)} {s : State G M F} (created_at : Nat) :
      as = before ++ .neighbors :: after → before.countP Action.fires = i →
      (machine value).run new before = some s → Shuffled value me cfg new before created_at probes →
      s.now - created_at < cfg.shuffle_ttl → Answered new as i probes

variable {value me cfg} {s s' listed seen new : State G M F} {as looking making : List (Action W F R)}
  {a : Action W F R} {peer : OffchainPublicKey} {left : List OffchainPublicKey} {created_at : Nat}
  {weighted : List (OffchainPublicKey × F)} {probes : List ProbeRouting}

theorem LooksUp.later (h : LooksUp value listed looking peer seen) (a : Action W F R) :
    LooksUp value listed (looking ++ [a]) peer seen := by
  obtain ⟨before, after, hlooking, hrun⟩ := h.step
  exact ⟨h.peer, before, after ++ [a], by rw [hlooking, List.append_assoc, List.cons_append], hrun⟩

theorem looked_listed (s : State G M F) : Looked value cfg s ([] : List (Action W F R)) s.listed [] :=
  ⟨[], fun _ => s, rfl, fun _ hmem => absurd hmem List.not_mem_nil, rfl⟩

theorem Looked.later (h : Looked value cfg listed looking left weighted) (a : Action W F R) :
    Looked value cfg listed (looking ++ [a]) left weighted := by
  obtain ⟨done, seen, hlisted, hdone, hweighted⟩ := h
  exact ⟨done, seen, hlisted, fun peer hmem => (hdone peer hmem).later a, hweighted⟩

/-- The next peer is looked up. -/
theorem Looked.weigh (h : Looked value cfg listed looking (peer :: left) weighted)
    (hrun : (machine value).run listed (.nodes :: looking) = some s) (hpeer : s.next_peer = some peer)
    (hcfg : s.cfg = cfg) (now : Nat) :
    Looked value cfg listed (looking ++ [.weigh]) left (weighted ++ (s.weigh now peer).toList) := by
  obtain ⟨done, seen, hlisted, hdone, hweighted⟩ := h
  have hfresh : peer ∉ done := by
    have hnodup := nodup_listed listed
    rw [hlisted] at hnodup
    exact fun hmem => (List.nodup_append.mp hnodup).2.2 peer hmem peer List.mem_cons_self rfl
  have hsame : ∀ p ∈ done, Function.update seen peer s p = seen p := by
    intro p hp
    exact Function.update_of_ne (fun heq : p = peer => hfresh (heq ▸ hp)) s seen
  refine ⟨done ++ [peer], Function.update seen peer s, by rw [hlisted, List.append_assoc]; rfl, ?_, ?_⟩
  · intro p hp
    rcases List.mem_append.mp hp with hp | hp
    · rw [hsame p hp]
      exact (hdone p hp).later _
    · rw [List.mem_singleton.mp hp, Function.update_self]
      exact ⟨hpeer, looking, [], rfl, hrun⟩
  · rw [List.map_append, hweighted, weighted_peer, List.filter_append, hcfg]
    congr 1
    · refine List.filter_congr fun p hp => ?_
      rw [hsame p hp]
    · simp only [List.filter_cons, List.filter_nil, Function.update_self]

/-- Once all are looked up, their shuffle is a batch. -/
theorem Looked.batch (h : Looked value cfg listed looking [] weighted) (hown : listed.me = me)
    {listing : List (Action W F R)} (hrun : (machine value).run s (.neighbors :: listing) = some listed)
    (s' : State G M F) (sh : Shuffle R (OffchainPublicKey × F)) (rng : R) :
    Batch value me cfg s (.neighbors :: listing ++ .nodes :: looking) (s'.probes sh rng weighted) := by
  obtain ⟨done, seen, hlisted, hdone, hweighted⟩ := h
  have hmem : ∀ peer, peer ∈ done ↔ Mapped listed.graph.inner peer ∧ peer ≠ me := by
    intro peer
    rw [← hown, ← mem_listed, hlisted, List.append_nil]
  have hperm := into_shuffled_perm sh rng weighted
  rw [hweighted] at hperm
  refine ⟨listing, looking, listed, seen, into_shuffled sh rng weighted, s'.draws, rfl, hrun, ?_, ?_, ?_, rfl⟩
  · exact fun peer hmapped hother => hdone peer ((hmem peer).mpr ⟨hmapped, hother⟩)
  · have hnodup := nodup_listed listed
    rw [hlisted, List.append_nil] at hnodup
    exact hperm.nodup_iff.mpr (hnodup.filter _)
  · intro peer
    rw [hperm.mem_iff, List.mem_filter, hmem, and_assoc, Bool.not_eq_true', ← Bool.not_eq_true, Bool.and_eq_true]

theorem MadeSince.later {m : Making F} (h : MadeSince value cfg s making m) (a : Action W F R) :
    MadeSince value cfg s (making ++ [a]) m := by
  cases m with
  | listing =>
    obtain ⟨listing, rfl⟩ := h
    exact ⟨listing ++ [a], rfl⟩
  | weighing now left weighted =>
    obtain ⟨listing, looking, listed, rfl, hrun, hlooked⟩ := h
    exact ⟨listing, looking ++ [a], listed, by simp, hrun, hlooked.later a⟩

theorem Shuffled.later (h : Shuffled value me cfg new as created_at probes) (a : Action W F R) :
    Shuffled value me cfg new (as ++ [a]) created_at probes := by
  obtain ⟨earlier, making, sh, rng, after, s, s', has, hfacts⟩ := h
  exact ⟨earlier, making, sh, rng, after ++ [a], s, s', by rw [has, List.append_assoc]; rfl, hfacts⟩

theorem Answered.later {i : Nat} (h : Answered value me cfg new as i probes) (a : Action W F R) :
    Answered value me cfg new (as ++ [a]) i probes := by
  cases h with
  | anew sh rng has hcount hbefore hmaking hbatch =>
    exact .anew sh rng (by rw [has, List.append_assoc]; rfl) hcount hbefore hmaking hbatch
  | again created_at has hcount hbefore hshuffled hyoung =>
    exact .again created_at (by rw [has, List.append_assoc]; rfl) hcount hbefore hshuffled hyoung

end Batches

/-! ### Runs -/

section Runs
variable {C : Type} [Observations W] [NodeHealth W F] [EdgeScore W F] [Field F] [LinearOrder F] [LeftValues M]
  [LT C] [DecidableLT C]

/-- What happened so far: each tick is answered, but for one that a batch is being made for, and the last batch
was made before. -/
structure Told (value : UInt64 → ValueFn W C) (me : OffchainPublicKey) (cfg : ProberConfig F) (new : State G M F)
    (before : List (Action W F R)) (s : State G M F) : Prop where
  sound : Sound me cfg s
  run : (machine value).run new before = some s
  count : ((machine value).outputs State.begun new before).length + s.making.toList.length =
    before.countP Action.fires
  making : ∀ m, s.making = some m → ∃ earlier making s₀, before = earlier ++ making ∧
    earlier.countP Action.fires = ((machine value).outputs State.begun new before).length ∧
    (machine value).run new earlier = some s₀ ∧ (machine value).run s₀ making = some s ∧
    MadeSince value cfg s₀ making m
  cached : ∀ batch, s.cache = some batch → Shuffled value me cfg new before batch.created_at batch.probes
  answered : ∀ i probes, ((machine value).outputs State.begun new before)[i]? = some probes →
    Answered value me cfg new before i probes

variable {value : UInt64 → ValueFn W C} {me : OffchainPublicKey} {cfg : ProberConfig F} {new s s' : State G M F}
  {before : List (Action W F R)} {a : Action W F R}

theorem told_new (hsound : Sound me cfg new) (hcache : new.cache = none) (hmaking : new.making = none) :
    Told value me cfg new ([] : List (Action W F R)) new where
  sound := hsound
  run := rfl
  count := by rw [hmaking]; rfl
  making m hm := by cases hmaking.symm.trans hm
  cached batch hbatch := by cases hcache.symm.trans hbatch
  answered i probes hprobes := by cases hprobes

/-- A batch that is being made is made further. -/
theorem Told.made (h : Told value me cfg new before s) (hstep : (machine value).step s a = some s')
    (hsound : Sound me cfg s') (hbegun : s.begun a = []) (hfires : a.fires = false) (hcache : s'.cache = s.cache)
    (hcount : s'.making.toList.length = s.making.toList.length)
    (hmade : ∀ m s₀ making, s'.making = some m → (machine value).run s₀ making = some s →
      (∀ m₀, s.making = some m₀ → MadeSince value cfg s₀ making m₀) → MadeSince value cfg s₀ (making ++ [a]) m) :
    Told value me cfg new (before ++ [a]) s' := by
  have hout : (machine value).outputs State.begun new (before ++ [a]) = _ := (machine value).outputs_concat h.run a
  rw [hbegun, List.append_nil] at hout
  constructor
  · exact hsound
  · exact (machine value).run_concat h.run hstep
  · rw [hout, List.countP_append, ← h.count, hcount, List.countP_singleton, hfires]
    rfl
  · intro m hm
    cases hbusy : s.making with
    | none => simp [hm, hbusy] at hcount
    | some m₀ =>
      obtain ⟨earlier, making, s₀, rfl, hearlier, hrun₀, hrun, hm₀⟩ := h.making m₀ hbusy
      refine ⟨earlier, making ++ [a], s₀, List.append_assoc .., by rw [hout, hearlier], hrun₀,
        (machine value).run_concat hrun hstep, hmade m s₀ making hm hrun fun m₁ hm₁ => ?_⟩
      rw [hbusy] at hm₁
      cases hm₁
      exact hm₀
  · exact fun batch hbatch => (h.cached batch (hcache ▸ hbatch)).later a
  · exact fun i probes hprobes => (h.answered i probes (hout ▸ hprobes)).later a

/-- A tick that is not answered before is the next to be. -/
theorem Told.idle (h : Told value me cfg new before s) (hmaking : s.making = none) :
    before.countP Action.fires = ((machine value).outputs State.begun new before).length := by
  rw [← h.count, hmaking]
  rfl

/-- A tick is answered with the last batch while it is young. -/
theorem Told.again (h : Told value me cfg new before s) {batch : ShuffleCache}
    (hstep : (machine value).step s (.neighbors : Action W F R) = some {s with burst := batch.probes})
    (hsound : Sound me cfg {s with burst := batch.probes}) (hmaking : s.making = none)
    (hrefresh : s.needs_refresh = false) (hcache : s.cache = some batch)
    (hyoung : s.now - batch.created_at < s.cfg.shuffle_ttl) :
    Told value me cfg new (before ++ [.neighbors]) {s with burst := batch.probes} := by
  have hout : (machine value).outputs State.begun new (before ++ [.neighbors]) = _ :=
    (machine value).outputs_concat h.run .neighbors
  have hbegun : s.begun (.neighbors : Action W F R) = [batch.probes] := by
    simp [State.begun, hrefresh, hcache]
  rw [hbegun] at hout
  constructor
  · exact hsound
  · exact (machine value).run_concat h.run hstep
  · rw [hout, List.length_append, List.countP_append, h.idle hmaking, hmaking]
    rfl
  · intro m hm
    cases hmaking.symm.trans hm
  · exact fun batch hbatch => (h.cached batch hbatch).later _
  · intro i probes hprobes
    rcases (machine value).output_concat h.run hbegun hprobes with hbefore | ⟨rfl, rfl⟩
    · exact (h.answered i probes hbefore).later _
    · exact .again batch.created_at rfl (h.idle hmaking) h.run (h.cached batch hcache) (h.sound.config ▸ hyoung)

/-- After another tick, a batch is made. -/
theorem Told.anew (h : Told value me cfg new before s)
    (hstep : (machine value).step s (.neighbors : Action W F R) = some {s with making := some .listing})
    (hsound : Sound me cfg {s with making := some .listing}) (hmaking : s.making = none)
    (hrefresh : s.needs_refresh = true) :
    Told value me cfg new (before ++ [.neighbors]) {s with making := some .listing} := by
  have hout : (machine value).outputs State.begun new (before ++ [.neighbors]) = _ :=
    (machine value).outputs_concat h.run .neighbors
  have hbegun : s.begun (.neighbors : Action W F R) = [] := by simp [State.begun, hrefresh]
  rw [hbegun, List.append_nil] at hout
  constructor
  · exact hsound
  · exact (machine value).run_concat h.run hstep
  · rw [hout, List.countP_append, h.idle hmaking]
    rfl
  · intro m hm
    cases hm
    exact ⟨before, [.neighbors], s, rfl, by rw [hout, h.idle hmaking], h.run,
      (machine value).run_concat ((machine value).run_nil s) hstep, [], rfl⟩
  · exact fun batch hbatch => (h.cached batch hbatch).later _
  · exact fun i probes hprobes => (h.answered i probes (hout ▸ hprobes)).later _

variable [LawfulStableDiGraph G] [LawfulBiHashMap M]

/-- The batch that was made is the answer. -/
theorem Told.shuffled (h : Told value me cfg new before s) (hnew : Sound me cfg new) {now : Nat}
    {weighted : List (OffchainPublicKey × F)} (sh : Shuffle R (OffchainPublicKey × F)) (rng : R)
    (hstep : (machine value).step s (.shuffle sh rng) = some (s.refresh sh rng weighted))
    (hsound : Sound me cfg (s.refresh sh rng weighted)) (hmaking : s.making = some (.weighing now [] weighted)) :
    Told value me cfg new (before ++ [.shuffle sh rng]) (s.refresh sh rng weighted) := by
  have hout : (machine value).outputs State.begun new (before ++ [.shuffle sh rng]) = _ :=
    (machine value).outputs_concat h.run (.shuffle sh rng)
  have hbegun : s.begun (.shuffle sh rng : Action W F R) = [s.probes sh rng weighted] := by
    simp [State.begun, hmaking]
  rw [hbegun] at hout
  obtain ⟨earlier, making, s₀, rfl, hcount, hrun₀, hrun, listing, looking, listed, rfl, hlisted, hlooked⟩ :=
    h.making _ hmaking
  have hsteps : ∀ (s : State G M F) (a : Action W F R) s', Sound me cfg s → (machine value).step s a = some s' →
      Sound me cfg s' := fun _ _ _ => sound_step
  have hticked := (machine value).run_invariant_of_step hsteps hrun₀ hnew
  have hown := ((machine value).run_invariant_of_step hsteps hlisted hticked).own
  have hbatch := hlooked.batch hown hlisted s sh rng
  constructor
  · exact hsound
  · exact (machine value).run_concat h.run hstep
  · have hbusy := h.count
    rw [hmaking] at hbusy
    rw [hout, List.length_append, List.countP_append, ← hbusy]
    rfl
  · intro m hm
    cases hm
  · intro batch hbatch'
    cases hbatch'
    exact ⟨earlier, _, sh, rng, [], s₀, s, rfl, hrun₀, hrun, rfl, hbatch⟩
  · intro i probes hprobes
    rcases (machine value).output_concat h.run hbegun hprobes with hbefore | ⟨rfl, rfl⟩
    · exact (h.answered i probes hbefore).later _
    · exact .anew sh rng rfl hcount hrun₀ hrun hbatch

theorem told_step (hnew : Sound me cfg new) (h : Told value me cfg new before s)
    (hstep : (machine value).step s a = some s') : Told value me cfg new (before ++ [a]) s' := by
  have hsound := sound_step h.sound hstep
  cases moved hstep with
  | again batch _ hmaking hrefresh hcache hyoung => exact h.again hstep hsound hmaking hrefresh hcache hyoung
  | anew _ hmaking hrefresh => exact h.anew hstep hsound hmaking hrefresh
  | nodes hmaking =>
    refine h.made hstep hsound rfl rfl rfl (by rw [hmaking]; rfl) ?_
    intro m s₀ making hm hrun hsince
    cases hm
    obtain ⟨listing, rfl⟩ := hsince _ hmaking
    exact ⟨listing, [], s, rfl, hrun, looked_listed s⟩
  | @weigh now peer left weighted hmaking =>
    refine h.made hstep hsound rfl rfl rfl (by rw [hmaking]; rfl) ?_
    intro m s₀ making hm hrun hsince
    cases hm
    obtain ⟨listing, looking, listed, rfl, hlisted, hlooked⟩ := hsince _ hmaking
    obtain ⟨_, hsame, hlater⟩ := (machine value).run_append.mp hrun
    cases hlisted.symm.trans hsame
    have hpeer : s.next_peer = some peer := by rw [State.next_peer, hmaking]; rfl
    exact ⟨listing, looking ++ [.weigh], listed, by simp, hlisted,
      hlooked.weigh hlater hpeer h.sound.config now⟩
  | shuffle sh rng hmaking => exact h.shuffled hnew sh rng hstep hsound hmaking
  | change | elapse | poll_neighbors | loops | find | poll_loops =>
    exact h.made hstep hsound rfl rfl rfl rfl fun m _ _ hm _ hsince => (hsince m hm).later _

theorem told_run (hnew : Sound me cfg new) (hcache : new.cache = none) (hmaking : new.making = none)
    {as : List (Action W F R)} (hrun : (machine value).run new as = some s) : Told value me cfg new as s :=
  (machine value).run_history (fun _ _ _ _ => told_step hnew) hrun (told_new hnew hcache hmaking)

/-- **Each tick is answered with one probe of every other node that is not known to be down**: with a batch that is
made after the tick, or with a young one. -/
theorem neighbors_probed (me : OffchainPublicKey) (cfg : ProberConfig F) (max_plausible_loopback_rtt : Nat)
    (value : UInt64 → ValueFn W C) {as : List (Action W F R)} {s : State G M F}
    (hrun : (machine value).run (State.new me cfg max_plausible_loopback_rtt) as = some s) :
    ∃ batches : List (List ProbeRouting),
      batches.length + s.making.toList.length = as.countP Action.fires ∧
      (machine value).outputs (fun (s : State G M F) a => (s.neighbor_probe a).toList)
        (State.new me cfg max_plausible_loopback_rtt) as ++ s.burst = batches.flatten ∧
      ∀ i probes, batches[i]? = some probes →
        Answered value me cfg (State.new me cfg max_plausible_loopback_rtt : State G M F) as i probes := by
  have hnew : Sound me cfg (State.new me cfg max_plausible_loopback_rtt : State G M F) := sound_new me cfg _
  have htold := told_run hnew rfl rfl hrun
  have hqueue := (machine value).outputs_of_queue (I := Sound me cfg) (fun _ _ _ => sound_step)
    (fun _ _ _ => burst_step) hnew hrun
  rw [(machine value).outputs_flatten hrun] at hqueue
  exact ⟨_, htold.count, hqueue, htold.answered⟩

/-- What the look-up after `i` others finds in the graph. -/
inductive Found (value : UInt64 → ValueFn W C) (me : OffchainPublicKey) (new : State G M F)
    (as : List (Action W F R)) (i : Nat) (loops : List Loop) : Prop
  | find {before after : List (Action W F R)} {s : State G M F} {hops : UInt64} {paths : List Loop}
      (search : Shuffle R (NodeIndex × W)) (rng : R) (sh : Shuffle R (Loop × F)) (rng' : R) :
      as = before ++ .find search rng sh rng' :: after → before.countP Action.finds = i →
      (machine value).run new before = some s → s.hop_counts.head? = some hops →
      s.graph.simple_loopback_to_self search rng hops (some LOOPS) value = some paths → loops.Perm paths →
      loops.length ≤ LOOPS → (∀ loop ∈ loops, Leads me s loop) → Found value me new as i loops

/-- **Each loop that was found is probed once**, over the nodes that were joined to a loop when it was found and
with an identifier that led to its edges then. -/
theorem loops_probed (me : OffchainPublicKey) (cfg : ProberConfig F) (max_plausible_loopback_rtt : Nat)
    (value : UInt64 → ValueFn W C) {as : List (Action W F R)} {s : State G M F}
    (hrun : (machine value).run (State.new me cfg max_plausible_loopback_rtt) as = some s) :
    ∃ (probed : List Loop) (found : List (List Loop)), found.length = as.countP Action.finds ∧
      List.Forall₂ (Over me) ((machine value).outputs (fun (s : State G M F) a => (s.loop_probe a).toList)
        (State.new me cfg max_plausible_loopback_rtt) as) probed ∧
      probed ++ s.loops = found.flatten ∧
      ∀ i loops, found[i]? = some loops →
        Found value me (State.new me cfg max_plausible_loopback_rtt : State G M F) as i loops := by
  let new : State G M F := State.new me cfg max_plausible_loopback_rtt
  have hnew : Sound me cfg new := sound_new me cfg _
  refine ⟨(machine value).outputs State.polled new as, (machine value).outputs (State.found value) new as,
    ?_, ?_, ?_, ?_⟩
  · exact (machine value).length_outputs (fun _ _ _ => length_found) hrun
  · exact (machine value).outputs_related (I := Sound me cfg) (fun _ _ _ => sound_step)
      (fun _ a h => probe_step h a) hnew hrun
  · have hqueue := (machine value).outputs_of_queue (I := fun _ => True) (fun _ _ _ _ _ => trivial)
      (fun _ _ _ _ => loops_step) trivial hrun
    rw [(machine value).outputs_flatten hrun] at hqueue
    exact hqueue
  · intro i loops hloops
    obtain ⟨before, s₀, a, after, has, hcount, hfinds, hbefore, hfound⟩ :=
      (machine value).step_of_output (fun _ _ _ => length_found) hrun hloops
    have hsound : Sound me cfg s₀ := sound_run hbefore
    cases a with
    | find search rng sh rng' =>
      obtain ⟨hops, hhops, hsearched⟩ := Option.bind_eq_some_iff.mp (Option.toList_eq_singleton_iff.mp hfound)
      obtain ⟨paths, hpaths, hperm⟩ := find_loops_perm hsearched
      refine .find search rng sh rng' has hcount hbefore hhops hpaths hperm (length_loops hsearched) ?_
      exact fun loop hloop => hsound.node ▸ leads_of_found hsound.represented hsearched hloop
    | change | elapse | neighbors | nodes | weigh | shuffle | poll_neighbors | loops | poll_loops => cases hfinds

end Runs

/-! ### A prober that is run -/

/-- What is kept of an edge, with rational statistics. -/
abbrev Rated := Weight.Observations Weight.RunningMean Weight.CountedRatio ℚ

def start : State (ListGraph OffchainPublicKey Rated) (Listed (PairMap OffchainPublicKey NodeIndex)) ℚ :=
  State.new (.of 1) ⟨1, 1, 1, 100, true⟩ 0

/-- All edges are worth the same. -/
def edge_count : UInt64 → ValueFn Rated Nat := fun _ => ValueFn.edges Rated

/-- A neighbor is probed, and again while the batch is young. -/
def probed_again : List (Action Rated ℚ Unit) :=
  [.change (.write (.record_edge 5 (.Neighbor (.of 2) 10))), .neighbors, .nodes, .weigh,
    .shuffle (Shuffle.keep _) (), .poll_neighbors, .elapse 99, .neighbors, .poll_neighbors]

theorem neighbors_probed_again : ∃ batches : List (List ProbeRouting), batches.length = 2 ∧
    batches.flatten = List.replicate 2 (.Neighbor (neighbor_routing ⟨0⟩ (.of 2))) ∧
    ∀ i probes, batches[i]? = some probes →
      Answered edge_count (.of 1) ⟨1, 1, 1, 100, true⟩ start probed_again i probes := by
  have hends : ((machine edge_count).run start probed_again).any
      (fun s => decide (s.burst = [] ∧ s.making.isNone = true)) = true := by
    decide +kernel
  obtain ⟨s, hrun, hempty, hidle⟩ := (machine edge_count).exists_run hends
  obtain ⟨batches, hlength, hprobed, hanswered⟩ := neighbors_probed (.of 1) ⟨1, 1, 1, 100, true⟩ 0 edge_count hrun
  have hprobes : (machine edge_count).outputs (fun s a => (s.neighbor_probe a).toList) start probed_again =
      List.replicate 2 (.Neighbor (neighbor_routing ⟨0⟩ (.of 2))) := by
    decide +kernel
  rw [Option.isNone_iff_eq_none.mp hidle] at hlength
  rw [hempty, List.append_nil] at hprobed
  exact ⟨batches, hlength, hprobed.symm.trans hprobes, hanswered⟩

/-- A loop of two hops is found and probed. -/
def loop_probed : List (Action Rated ℚ Unit) :=
  [.change (.write (.upsert_edge (.of 1) (.of 2) id)), .change (.write (.upsert_edge (.of 2) (.of 3) id)),
    .change (.write (.upsert_edge (.of 3) (.of 1) id)), .loops,
    .find (Shuffle.keep _) () (Shuffle.keep _) (), .poll_loops]

theorem loops_probed_triangle : ∃ probed : List Loop, probed.length = 1 ∧
    ∀ loop ∈ probed, ∃ nodes, Around (.of 1) loop nodes := by
  have hends : ((machine edge_count).run start loop_probed).any (fun s => decide (s.loops = [])) = true := by
    decide +kernel
  obtain ⟨s, hrun, hloops⟩ := (machine edge_count).exists_run hends
  obtain ⟨probed, found, _, hover, hfound, hall⟩ := loops_probed (.of 1) ⟨1, 1, 1, 100, true⟩ 0 edge_count hrun
  have hcount : ((machine edge_count).outputs (fun s a => (s.loop_probe a).toList) start loop_probed).length = 1 := by
    decide +kernel
  refine ⟨probed, hover.length_eq.symm.trans hcount, fun loop hloop => ?_⟩
  rw [hloops, List.append_nil] at hfound
  rw [hfound] at hloop
  obtain ⟨loops, hmem, hin⟩ := List.mem_flatten.mp hloop
  obtain ⟨i, hi⟩ := List.mem_iff_getElem?.mp hmem
  cases hall i loops hi with
  | find search rng sh rng' _ _ _ _ _ _ _ hleads =>
    obtain ⟨nodes, haround, _⟩ := hleads loop hin
    exact ⟨nodes, haround⟩

end Hopr.CoverTraffic
