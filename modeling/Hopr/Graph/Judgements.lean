import Hopr.Graph.KeyView

/-! What becomes of a judgement.

An edge is not judged when it is added, nothing but a judgement of its node
changes the health it carries (`Grown`), and a judgement reaches every edge into
the node. So the health that an edge carries is what is kept of the last judgement
of its node since the edge was last added (`health_of_run`). -/
namespace Hopr.Graph.Judgements
open StableDiGraph BiHashMap Graph.Representation KeyView

/-! ### Last judgements -/

section History
variable {W F : Type}

def judgements : Call W F → List (OffchainPublicKey × F)
  | .write _ => []
  | .record_nodes_health healths => healths

def last_of (node : OffchainPublicKey) (healths : List (OffchainPublicKey × F)) : Option F :=
  ((healths.filter (·.1 = node)).getLast?).map (·.2)

theorem last_of_append (node : OffchainPublicKey) (healths later : List (OffchainPublicKey × F)) :
    last_of node (healths ++ later) = (last_of node later).or (last_of node healths) := by
  unfold last_of
  rw [List.filter_append, List.getLast?_append, Option.map_or]

/-- The last judgement of a node in a run. -/
def last_judgement (node : OffchainPublicKey) (calls : List (Call W F)) : Option F :=
  last_of node (calls.flatMap judgements)

variable [NodeHealth W F]

/-- What a function does to a weight leaves its health as it is. -/
def Keeps (f : W → W) : Prop := ∀ w, NodeHealth.health (f w) = NodeHealth.health w

/-- The caller does not judge a node itself. -/
def Plain : Call W F → Prop
  | .write (.upsert_edge _ _ f) => Keeps f
  | _ => True

end History

/-! ### One call -/

section Steps
variable {W F : Type} [NodeHealth W F]

/-- Edges are there still, as they were judged, and new ones are not judged. -/
structure Grown (k k' : KeyGraph W) : Prop where
  kept : ∀ {src dest w}, k.edge src dest = some w →
    ∃ w', k'.edge src dest = some w' ∧ NodeHealth.health w' = NodeHealth.health w
  added : ∀ {src dest w'}, k.edge src dest = none → k'.edge src dest = some w' → NodeHealth.health w' = none

theorem Grown.refl (k : KeyGraph W) : Grown k k := by
  constructor
  · exact fun hw => ⟨_, hw, rfl⟩
  · intro src dest w hnone hsome
    cases hnone.symm.trans hsome

theorem Grown.trans {k k' k'' : KeyGraph W} (h : Grown k k') (h' : Grown k' k'') : Grown k k'' := by
  constructor
  · intro src dest w hw
    obtain ⟨w', hw', hhealth⟩ := h.kept hw
    obtain ⟨w'', hw'', hhealth'⟩ := h'.kept hw'
    exact ⟨w'', hw'', hhealth'.trans hhealth⟩
  · intro src dest w'' hnone hw''
    cases hedge : k'.edge src dest with
    | none => exact h'.added hedge hw''
    | some w' =>
      obtain ⟨v, hv, hhealth⟩ := h'.kept hedge
      cases hw''.symm.trans hv
      exact hhealth.trans (h.added hnone hedge)

theorem grown_alter (k : KeyGraph W) (src dest : OffchainPublicKey) {f : Option W → Option W}
    (hnone : ∀ w ∈ f none, NodeHealth.health w = none)
    (hsome : ∀ w, ∃ w', f (some w) = some w' ∧ NodeHealth.health w' = NodeHealth.health w) :
    Grown k (k.alter src dest f) := by
  constructor
  · intro src' dest' w hw
    simp only [KeyGraph.alter]
    split
    · next hsame =>
      rw [hsame.1.1, hsame.1.2] at hw
      rw [hw]
      exact hsome w
    · exact ⟨w, hw, rfl⟩
  · intro src' dest' w hw hw'
    simp only [KeyGraph.alter] at hw'
    split at hw'
    · next hsame =>
      rw [hsame.1.1, hsame.1.2] at hw
      rw [hw] at hw'
      exact hnone w hw'
    · cases hw.symm.trans hw'

/-- What an edge carries after a call. -/
def Carries [LinearOrder F] [Zero F] [One F] (k : KeyGraph W) (call : Call W F) (src dest : OffchainPublicKey)
    (w' : W) : Prop :=
  (k.edge src dest = none ∧ last_of dest (judgements call) = none ∧ NodeHealth.health w' = none) ∨
    ∃ w, k.edge src dest = some w ∧ NodeHealth.health w' =
      (last_of dest (judgements call)).elim (NodeHealth.health w) kept_health

theorem Grown.carries [LinearOrder F] [Zero F] [One F] {k k' : KeyGraph W} (h : Grown k k') (op : Operation W)
    {src dest : OffchainPublicKey} {w' : W}
    (hw' : k'.edge src dest = some w') : Carries k (.write op : Call W F) src dest w' := by
  cases hedge : k.edge src dest with
  | none => exact .inl ⟨hedge, rfl, h.added hedge hw'⟩
  | some w =>
    obtain ⟨v, hv, hhealth⟩ := h.kept hedge
    cases hw'.symm.trans hv
    exact .inr ⟨w, hedge, hhealth⟩

variable [Observations W] [LawfulNodeHealth W]

theorem grown_upsert_edge (k : KeyGraph W) (src dest : OffchainPublicKey) {f : W → W} (hf : Keeps f) :
    Grown k (k.upsert_edge src dest f) := by
  have hnew : ∀ w ∈ some (f Observations.default), NodeHealth.health w = none := by
    rintro w ⟨⟩
    exact (hf _).trans LawfulNodeHealth.health_default
  have hgrown := grown_alter ((k.add_node src).add_node dest) src dest
    (f := fun w => some (f (w.getD Observations.default))) hnew fun w => ⟨f w, rfl, hf w⟩
  exact ⟨hgrown.kept, hgrown.added⟩

theorem grown_upsert_both (k : KeyGraph W) (me peer : OffchainPublicKey) {f : W → W} (hf : Keeps f) :
    Grown k (k.upsert_both me peer f) :=
  (grown_upsert_edge k me peer hf).trans (grown_upsert_edge _ peer me hf)

theorem keeps_record (now_ms : Nat) (measurement : EdgeWeightType) :
    Keeps (Observations.record now_ms measurement : W → W) :=
  LawfulNodeHealth.health_record now_ms measurement

theorem grown_record_at (now_ms : Nat) (measurement : EdgeWeightType) (hops : List Hop) (k : KeyGraph W) :
    Grown k (k.record_at now_ms measurement hops) := by
  induction hops generalizing k with
  | nil => exact .refl k
  | cons hop rest ih =>
    have hfirst := grown_alter k hop.1 hop.2 (f := Option.map (Observations.record now_ms measurement))
      (fun _ hw => (nomatch hw)) fun w => ⟨_, rfl, keeps_record now_ms measurement w⟩
    exact hfirst.trans (ih _)

theorem grown_record_edge (k : KeyGraph W) (me : OffchainPublicKey) (max_plausible_loopback_rtt now_ms : Nat)
    (update : MeasurableEdge) : Grown k (k.record_edge me max_plausible_loopback_rtt now_ms update) := by
  have hrecord := fun measurement => keeps_record (W := W) now_ms measurement
  cases update with
  | Surb paths timestamp expected observed =>
    simp only [KeyGraph.record_edge]
    split
    · exact grown_record_at ..
    · exact .refl k
  | Loopback path timestamp =>
    simp only [KeyGraph.record_edge]
    split
    · split
      · exact grown_record_at ..
      · exact .refl k
    · exact .refl k
  | ProbeLoopbackTimeout path => exact grown_record_at ..
  | Neighbor peer rtt => exact grown_upsert_both k me peer fun w => (hrecord _ _).trans (hrecord _ w)
  | ProbeNeighborTimeout peer => exact grown_upsert_both k me peer (hrecord _)
  | Balance src dest balance => exact grown_upsert_edge k src dest (hrecord _)
  | ConnectionStatus peer connected => exact grown_upsert_both k me peer (hrecord _)

variable [LinearOrder F] [Zero F] [One F]

theorem health_judged (healths : List (OffchainPublicKey × F)) (k : KeyGraph W) {src dest : OffchainPublicKey}
    {w' : W} (hw' : (healths.foldl (fun k (node, health) => k.judge node health) k).edge src dest = some w') :
    ∃ w, k.edge src dest = some w ∧ NodeHealth.health w' =
      (last_of dest healths).elim (NodeHealth.health w) kept_health := by
  induction healths using List.reverseRecOn generalizing w' with
  | nil => exact ⟨w', hw', rfl⟩
  | append_singleton healths x ih =>
    rw [List.foldl_append, List.foldl_cons, List.foldl_nil] at hw'
    change (if dest = x.1 then _ else _) = _ at hw'
    rw [last_of_append, last_of]
    by_cases hdest : dest = x.1
    · rw [if_pos hdest] at hw'
      obtain ⟨v, hv, rfl⟩ := Option.map_eq_some_iff.mp hw'
      obtain ⟨w, hw, _⟩ := ih hv
      refine ⟨w, hw, ?_⟩
      rw [LawfulNodeHealth.health_set_health, List.filter_cons_of_pos (by simp [hdest])]
      rfl
    · rw [if_neg hdest] at hw'
      obtain ⟨w, hw, hhealth⟩ := ih hw'
      refine ⟨w, hw, ?_⟩
      rw [List.filter_cons_of_neg (by simpa using Ne.symm hdest)]
      exact hhealth

theorem carries_take (k : KeyGraph W) (me : OffchainPublicKey) (max_plausible_loopback_rtt : Nat) {call : Call W F}
    (hplain : Plain call) {src dest : OffchainPublicKey} {w' : W}
    (hw' : (k.take me max_plausible_loopback_rtt call).edge src dest = some w') : Carries k call src dest w' := by
  cases call with
  | record_nodes_health healths => exact .inr (health_judged healths k hw')
  | write op =>
    cases op with
    | add_node key => exact .inr ⟨w', hw', rfl⟩
    | remove_node key =>
      have hkept : k.edge src dest = some w' := by
        simp only [KeyGraph.take, KeyGraph.remove_node] at hw'
        split at hw'
        · cases hw'
        · exact hw'
      exact .inr ⟨w', hkept, rfl⟩
    | add_edge src' dest' =>
      have hgrown := grown_alter k src' dest' (f := fun w => some (w.getD Observations.default))
        (by rintro w ⟨⟩; exact LawfulNodeHealth.health_default) fun w => ⟨w, rfl, rfl⟩
      exact hgrown.carries _ hw'
    | remove_edge src' dest' =>
      have hkept : k.edge src dest = some w' := by
        simp only [KeyGraph.take, KeyGraph.remove_edge, KeyGraph.alter] at hw'
        split at hw'
        · cases hw'
        · exact hw'
      exact .inr ⟨w', hkept, rfl⟩
    | upsert_edge src' dest' f => exact (grown_upsert_edge k src' dest' hplain).carries _ hw'
    | record_edge now_ms update => exact (grown_record_edge k me _ now_ms update).carries _ hw'

end Steps

/-! ### Runs -/

section Runs
variable {W F : Type} [NodeHealth W F] [Observations W] [LinearOrder F] [Zero F] [One F]

/-- The last call that added the edge, and the calls since then. -/
structure Since (k : KeyGraph W) (me : OffchainPublicKey) (max_plausible_loopback_rtt : Nat)
    (src dest : OffchainPublicKey) (before : List (Call W F)) (call : Call W F) (after : List (Call W F)) : Prop where
  absent : (k.takes me max_plausible_loopback_rtt before).edge src dest = none
  present : ∀ calls, calls <+: after →
    ((k.takes me max_plausible_loopback_rtt (before ++ call :: calls)).edge src dest).isSome

variable [LawfulNodeHealth W]

theorem since_run (k : KeyGraph W) (me : OffchainPublicKey) (max_plausible_loopback_rtt : Nat)
    {src dest : OffchainPublicKey} (hnew : k.edge src dest = none) {calls : List (Call W F)}
    (hplain : ∀ call ∈ calls, Plain call) {w : W}
    (hw : (k.takes me max_plausible_loopback_rtt calls).edge src dest = some w) :
    ∃ before call after, calls = before ++ call :: after ∧
      Since k me max_plausible_loopback_rtt src dest before call after ∧
      NodeHealth.health w = (last_judgement dest after).bind kept_health := by
  induction calls using List.reverseRecOn generalizing w with
  | nil => cases hnew.symm.trans hw
  | append_singleton calls call ih =>
    have hlast : (k.takes me max_plausible_loopback_rtt (calls ++ [call])) =
        (k.takes me max_plausible_loopback_rtt calls).take me max_plausible_loopback_rtt call := by
      rw [KeyGraph.takes, List.foldl_append]
      rfl
    have hcarries := carries_take _ me max_plausible_loopback_rtt
      (hplain call (List.mem_append_right _ List.mem_cons_self)) (hlast ▸ hw)
    cases hcarries with
    | inl hadded =>
      refine ⟨calls, call, [], rfl, ⟨hadded.1, ?_⟩, hadded.2.2⟩
      intro later hlater
      rw [List.prefix_nil.mp hlater, hw]
      rfl
    | inr hkept =>
      obtain ⟨w', hw', hhealth⟩ := hkept
      obtain ⟨before, adding, after, rfl, hsince, hbefore⟩ :=
        ih (fun call hcall => hplain call (List.mem_append_left _ hcall)) hw'
      refine ⟨before, adding, after ++ [call], by simp, ⟨hsince.absent, ?_⟩, ?_⟩
      · intro later hlater
        cases List.prefix_concat_iff.mp hlater with
        | inl hall =>
          rw [hall, ← List.cons_append, ← List.append_assoc, hw]
          rfl
        | inr hearlier => exact hsince.present later hearlier
      · rw [hhealth, last_judgement, List.flatMap_append, last_of_append, List.flatMap_singleton]
        cases last_of dest (judgements call) with
        | some health => rfl
        | none => exact hbefore

end Runs

theorem kept_health_bounds {F : Type} [LinearOrder F] [Zero F] [One F] [ZeroLEOneClass F] [NeZero (1 : F)]
    {health kept : F} (h : kept_health health = some kept) : 0 ≤ kept ∧ kept < 1 := by
  unfold kept_health at h
  split at h
  · next hlt =>
    cases h
    exact ⟨le_max_right .., max_lt hlt zero_lt_one⟩
  · cases h

/-- **The health that an edge carries is what is kept of the last judgement of its node since the edge was last
added**, and it has none if the node was not judged since then; and what is kept is never less than zero, nor is
it one or more. -/
theorem health_of_run {G M W F : Type} [StableDiGraph G OffchainPublicKey W] [LawfulStableDiGraph G]
    [BiHashMap M OffchainPublicKey NodeIndex] [LawfulBiHashMap M] [Observations W] [NodeHealth W F]
    [LawfulNodeHealth W] [LinearOrder F] [Zero F] [One F] [ZeroLEOneClass F] [NeZero (1 : F)]
    (me : OffchainPublicKey) (max_plausible_loopback_rtt : Nat) (calls : List (Call W F))
    (hplain : ∀ call ∈ calls, Plain call) (src dest : OffchainPublicKey) (w : W) :
    let run := fun calls => (ChannelGraph.new me max_plausible_loopback_rtt : ChannelGraph G M).takes calls
    (run calls).edge src dest = some w →
    (∃ before call after, calls = before ++ call :: after ∧ (run before).has_edge src dest = false ∧
      (∀ later, later <+: after → (run (before ++ call :: later)).has_edge src dest = true) ∧
      NodeHealth.health w = (last_judgement dest after).bind kept_health) ∧
    ∀ health ∈ NodeHealth.health w, 0 ≤ health ∧ health < 1 := by
  intro run hw
  have hnew : Represented (ChannelGraph.new me max_plausible_loopback_rtt : ChannelGraph G M).inner :=
    represented_new me
  have hrun : ∀ calls, view (run calls).inner = (KeyGraph.new me).takes me max_plausible_loopback_rtt calls := by
    intro calls
    refine (view_takes hnew calls).trans ?_
    rw [ChannelGraph.new, view_new]
  have hedge : ∀ calls, (run calls).has_edge src dest =
      (((KeyGraph.new me).takes me max_plausible_loopback_rtt calls).edge src dest).isSome := by
    intro calls
    rw [← hrun]
    exact has_edge_eq (ChannelGraph.represented_takes hnew calls) src dest
  have hlast : ((KeyGraph.new me).takes me max_plausible_loopback_rtt calls).edge src dest = some w := by
    rw [← hrun]
    exact hw
  obtain ⟨before, call, after, hcalls, hsince, hhealth⟩ := since_run _ me max_plausible_loopback_rtt rfl hplain hlast
  refine ⟨⟨before, call, after, hcalls, ?_, ?_, hhealth⟩, ?_⟩
  · rw [hedge, hsince.absent]
    rfl
  · intro later hlater
    rw [hedge]
    exact hsince.present later hlater
  · intro kept hkept
    rw [hhealth] at hkept
    obtain ⟨health, _, hkept⟩ := Option.bind_eq_some_iff.mp hkept
    exact kept_health_bounds hkept

/-- The second judgement of a probed neighbor is kept, within the bounds. -/
theorem health_of_run_probed : ∃ (w : Weight.Observations Weight.RunningMean Weight.CountedRatio ℚ) (health : ℚ),
    NodeHealth.health w = some health ∧ 0 ≤ health ∧ health < 1 := by
  have hhealth : ((((ChannelGraph.new (.of 1) 0 : ChannelGraph (ListGraph OffchainPublicKey
      (Weight.Observations Weight.RunningMean Weight.CountedRatio ℚ)) (PairMap OffchainPublicKey NodeIndex)).takes
        [.write (.record_edge 5 (.Neighbor (.of 2) 10)), .record_nodes_health [(.of 2, (2 : ℚ))],
          .record_nodes_health [(.of 3, (0 : ℚ)), (.of 2, 1 / 2)]]).edge (.of 1) (.of 2)).bind
            NodeHealth.health).isSome := by decide +kernel
  obtain ⟨health, hhealth⟩ := Option.isSome_iff_exists.mp hhealth
  obtain ⟨w, hw, hhealth⟩ := Option.bind_eq_some_iff.mp hhealth
  have hplain : ∀ call ∈ [Call.write (.record_edge 5 (.Neighbor (.of 2) 10)), .record_nodes_health [(.of 2, (2 : ℚ))],
      .record_nodes_health [(.of 3, (0 : ℚ)), (.of 2, 1 / 2)]],
      Plain (W := Weight.Observations Weight.RunningMean Weight.CountedRatio ℚ) call := by
    simp [Plain]
  exact ⟨w, health, hhealth, (health_of_run (.of 1) 0 _ hplain (.of 1) (.of 2) w hw).2 health hhealth⟩

end Hopr.Graph.Judgements
