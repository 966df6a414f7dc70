import Mathlib.Logic.Relation
import Hopr.Graph.ListGraph
import Hopr.Graph.Update

/-! The structures of the channel graph agree.

What the calls do to the four structures is put together from five changes
(`Change`), and each of them keeps the structures in agreement (`Represented`):
a mapped key is the weight of its vertex, edges join mapped vertices and none is
parallel to another, and the entry of a slot is what the mapped keys claim of
it. Vertices are never taken away, so no index is given out twice (`Recorded`).
`represented` puts this together for any sequence of calls. -/
namespace Hopr.Graph.Representation
open StableDiGraph BiHashMap InnerGraph

section Changes
variable {G M W : Type} [StableDiGraph G OffchainPublicKey W] [BiHashMap M OffchainPublicKey NodeIndex]

/-- One change of the inner graph. -/
inductive Change (s : InnerGraph G M) : InnerGraph G M → Prop
  | added (key : OffchainPublicKey) : get_by_left s.indices key = none → Change s (s.add_node key)
  | removed (key : OffchainPublicKey) : Change s (s.remove_node key)
  | joined {src dest : OffchainPublicKey} {a b : NodeIndex} (w : W) :
      get_by_left s.indices src = some a → get_by_left s.indices dest = some b →
      find_edge s.graph a b = none → Change s {s with graph := (StableDiGraph.add_edge a b w s.graph).2}
  | cut (e : EdgeIndex) : Change s {s with graph := StableDiGraph.remove_edge e s.graph}
  | weighed (e : EdgeIndex) (f : W → W) : Change s {s with graph := edge_weight_mut e f s.graph}

def Changes : InnerGraph G M → InnerGraph G M → Prop := Relation.ReflTransGen Change

theorem changes_add_node (s : InnerGraph G M) (key : OffchainPublicKey) :
    Changes s (s.add_node key) := by
  cases hkey : get_by_left s.indices key with
  | none => exact .single (.added key hkey)
  | some i =>
    rw [add_node_present hkey]
    exact .refl

theorem changes_add_edge [Observations W] {s s' : InnerGraph G M} {src dest : OffchainPublicKey}
    (h : s.add_edge src dest = .ok s') : Changes s s' := by
  unfold InnerGraph.add_edge at h
  split at h
  · cases h
  · next a ha =>
    split at h
    · cases h
    · next b hb =>
      split at h
      · cases h
        exact .refl
      · next hfree =>
        cases h
        exact .single (.joined _ ha hb hfree)

theorem changes_remove_edge (s : InnerGraph G M) (src dest : OffchainPublicKey) :
    Changes s (s.remove_edge src dest) := by
  unfold InnerGraph.remove_edge
  split
  · split
    · exact .single (.cut _)
    · exact .refl
  · exact .refl

/-- The vertex that `upsert_edge` adds is the one that `add_node` adds. -/
theorem upsert_node_eq (s : InnerGraph G M) (key : OffchainPublicKey) :
    (s.upsert_node key).2 = s.add_node key := by
  unfold InnerGraph.upsert_node InnerGraph.add_node
  cases get_by_left s.indices key with
  | none => rfl
  | some i => rfl

theorem changes_record_at [Observations W] (now_ms : Nat) (measurement : EdgeWeightType)
    (edges : List EdgeIndex) (s : InnerGraph G M) : Changes s (s.record_at now_ms measurement edges) := by
  induction edges generalizing s with
  | nil => exact .refl
  | cons e rest ih => exact .head (.weighed e _) (ih _)

variable [LawfulBiHashMap M]

/-- The index that `upsert_node` answers is that of the key. -/
theorem upsert_node_mapped (s : InnerGraph G M) (key : OffchainPublicKey) :
    get_by_left (s.upsert_node key).2.indices key = some (s.upsert_node key).1 := by
  cases hi : get_by_left s.indices key with
  | some i => simp only [InnerGraph.upsert_node, hi]
  | none =>
    simp only [InnerGraph.upsert_node, hi, claim_slot]
    rw [LawfulBiHashMap.left_insert, if_pos rfl]

end Changes

/-! ### Agreement -/

section Agreement
variable {G M W : Type} [StableDiGraph G OffchainPublicKey W] [BiHashMap M OffchainPublicKey NodeIndex]

/-- A key has the vertex. -/
def InUse (s : InnerGraph G M) (i : NodeIndex) : Prop := ∃ key, get_by_left s.indices key = some i

/-- The vertex is of a key with the slot. -/
def Claims (s : InnerGraph G M) (slot : UInt64) (i : NodeIndex) : Prop :=
  ∃ key, get_by_left s.indices key = some i ∧ path_id.encode key = slot

structure Represented (s : InnerGraph G M) : Prop where
  weight : ∀ {key i}, get_by_left s.indices key = some i → node_weight s.graph i = some key
  ends : ∀ {e a b w}, edge s.graph e = some (a, b, w) → InUse s a ∧ InUse s b
  apart : ∀ {e e' a b w w'}, edge s.graph e = some (a, b, w) → edge s.graph e' = some (a, b, w') → e = e'
  claimed : ∀ {slot i}, i ∈ (s.slots.lookup slot).getD [] ↔ Claims s slot i
  entry : ∀ {slot held}, s.slots.lookup slot = some held → held ≠ [] ∧ held.Nodup

variable {s : InnerGraph G M} {key : OffchainPublicKey} {i : NodeIndex}

theorem Represented.occupied (h : Represented s) (hi : get_by_left s.indices key = some i) :
    Occupied s.graph i :=
  ⟨key, h.weight hi⟩

theorem graph_added (hkey : get_by_left s.indices key = none) :
    (s.add_node key).graph = (StableDiGraph.add_node key s.graph).2 := by
  rw [add_node_new hkey]
  rfl

theorem lookup_removed (hi : get_by_left s.indices key = some i) (slot : UInt64) :
    (s.remove_node key).slots.lookup slot = if slot = path_id.encode key
      then (s.slots.lookup slot).bind fun held =>
        if held.filter (· ≠ i) = [] then none else some (held.filter (· ≠ i))
      else s.slots.lookup slot := by
  rw [remove_node_present hi]
  exact lookup_release_slot _ key i slot

section Map
variable [LawfulBiHashMap M]

/-- A vertex claims the slot of its key. -/
theorem claims_of_key (hi : get_by_left s.indices key = some i) {slot : UInt64} :
    Claims s slot i ↔ slot = path_id.encode key := by
  constructor
  · intro ⟨k, hk, hslot⟩
    rw [← hslot, left_injective hk hi]
  · intro hslot
    exact ⟨key, hi, hslot.symm⟩

theorem left_removed (hi : get_by_left s.indices key = some i) (k : OffchainPublicKey) :
    get_by_left (s.remove_node key).indices k = if k = key then none else get_by_left s.indices k := by
  rw [remove_node_present hi, indices_release_slot]
  exact LawfulBiHashMap.left_remove_by_left key s.indices k

theorem left_removed_old (hi : get_by_left s.indices key = some i) {k : OffchainPublicKey}
    {j : NodeIndex} (hk : get_by_left s.indices k = some j) (hj : j ≠ i) :
    get_by_left (s.remove_node key).indices k = some j := by
  rw [left_removed hi, if_neg, hk]
  intro hsame
  rw [hsame, hi] at hk
  exact hj (Option.some.inj hk).symm

theorem claims_removed (hi : get_by_left s.indices key = some i) (slot : UInt64) (j : NodeIndex) :
    Claims (s.remove_node key) slot j ↔ Claims s slot j ∧ j ≠ i := by
  constructor
  · intro ⟨k, hk, hslot⟩
    rw [left_removed hi] at hk
    split at hk
    · cases hk
    · next hne =>
      refine ⟨⟨k, hk, hslot⟩, ?_⟩
      intro hj
      exact hne (left_injective hk (hj ▸ hi))
  · intro ⟨⟨k, hk, hslot⟩, hj⟩
    exact ⟨k, left_removed_old hi hk hj, hslot⟩

/-- A slot leads to the one node that has it. -/
theorem Represented.resolve_iff (h : Represented s) (slot : UInt64) (i : NodeIndex) :
    s.resolve slot = some i ↔ slot ≠ 0 ∧ ∃ key, get_by_left s.indices key = some i ∧
      path_id.encode key = slot ∧ ∀ k, Mapped s k → path_id.encode k = slot → k = key := by
  have hclaimed : ∀ j, j ∈ (s.slots.lookup slot).getD [] ↔ Claims s slot j := fun _ => h.claimed
  unfold InnerGraph.resolve
  by_cases hzero : slot = 0
  · rw [if_pos hzero]
    exact ⟨fun hnone => (nomatch hnone), fun hpad => absurd hzero hpad.1⟩
  · rw [if_neg hzero]
    constructor
    · intro hsome
      split at hsome
      · next only hone =>
        cases hsome
        rw [hone, Option.getD_some] at hclaimed
        obtain ⟨key, hkey, hslot⟩ := (hclaimed i).mp List.mem_cons_self
        refine ⟨hzero, key, hkey, hslot, ?_⟩
        intro k ⟨j, hj⟩ hk
        have hmem := (hclaimed j).mpr ⟨k, hj, hk⟩
        rw [List.mem_singleton] at hmem
        exact left_injective (hmem ▸ hj) hkey
      · cases hsome
    · intro ⟨_, key, hkey, hslot, honly⟩
      have hall : ∀ j ∈ (s.slots.lookup slot).getD [], j = i := by
        intro j hj
        obtain ⟨k, hk, hkslot⟩ := (hclaimed j).mp hj
        rw [honly k ⟨j, hk⟩ hkslot] at hk
        exact Option.some.inj (hk.symm.trans hkey)
      have hmem := (hclaimed i).mpr ⟨key, hkey, hslot⟩
      cases hheld : s.slots.lookup slot with
      | none =>
        rw [hheld, Option.getD_none] at hmem
        cases hmem
      | some held =>
        rw [hheld, Option.getD_some] at hall
        have hone : held = [i] := by
          have hentry := h.entry hheld
          match held, hentry, hall with
          | [], hentry, _ => exact absurd rfl hentry.1
          | [j], _, hall => rw [hall j List.mem_cons_self]
          | j :: j' :: rest, hentry, hall =>
            rw [hall j List.mem_cons_self, hall j' (List.mem_cons_of_mem _ List.mem_cons_self)] at hentry
            exact absurd List.mem_cons_self (List.nodup_cons.mp hentry.2).1
        rw [hone]

end Map

variable [LawfulStableDiGraph G]

/-- The index of a new vertex is of no key. -/
theorem Represented.unused (h : Represented s) (key k : OffchainPublicKey) :
    get_by_left s.indices k ≠ some (StableDiGraph.add_node key s.graph).1 := by
  intro hk
  have hweight := h.weight hk
  rw [LawfulStableDiGraph.vacant_add_node] at hweight
  cases hweight

theorem Represented.unclaimed (h : Represented s) (key : OffchainPublicKey) (slot : UInt64) :
    (StableDiGraph.add_node key s.graph).1 ∉ (s.slots.lookup slot).getD [] := by
  intro hmem
  obtain ⟨k, hk, _⟩ := h.claimed.mp hmem
  exact h.unused key k hk

theorem lookup_added (h : Represented s) (hkey : get_by_left s.indices key = none) (slot : UInt64) :
    (s.add_node key).slots.lookup slot = if slot = path_id.encode key
      then some ((s.slots.lookup slot).getD [] ++ [(StableDiGraph.add_node key s.graph).1])
      else s.slots.lookup slot := by
  rw [add_node_new hkey]
  exact lookup_claim_slot _ key _ (h.unclaimed key _) slot

theorem edge_removed (hi : get_by_left s.indices key = some i) {e : EdgeIndex} {a b : NodeIndex} {w : W}
    (he : edge (s.remove_node key).graph e = some (a, b, w)) :
    edge s.graph e = some (a, b, w) ∧ a ≠ i ∧ b ≠ i := by
  rw [remove_node_present hi, edge_remove_edges] at he
  split at he
  · cases he
  · next hout =>
    rw [List.mem_append, LawfulStableDiGraph.mem_outgoing, LawfulStableDiGraph.mem_incoming] at hout
    refine ⟨he, ?_, ?_⟩
    · intro ha
      exact hout (.inl ⟨b, w, ha ▸ he⟩)
    · intro hb
      exact hout (.inr ⟨a, w, hb ▸ he⟩)

theorem represented_joined (h : Represented s) {src dest : OffchainPublicKey} {a b : NodeIndex} (w : W)
    (ha : get_by_left s.indices src = some a) (hb : get_by_left s.indices dest = some b)
    (hfree : find_edge s.graph a b = none) :
    Represented {s with graph := (StableDiGraph.add_edge a b w s.graph).2} := by
  have hoa := h.occupied ha
  have hob := h.occupied hb
  have hedge : ∀ {e x}, edge (StableDiGraph.add_edge a b w s.graph).2 e = some x →
      (e = (StableDiGraph.add_edge a b w s.graph).1 ∧ x = (a, b, w)) ∨ edge s.graph e = some x := by
    intro e x he
    rw [LawfulStableDiGraph.edge_add_edge a b w s.graph e hoa hob] at he
    split at he
    · next hnew => exact .inl ⟨hnew, (Option.some.inj he).symm⟩
    · exact .inr he
  have hnone := LawfulStableDiGraph.find_edge_none hfree
  constructor
  case weight =>
    intro k i hi
    exact (LawfulStableDiGraph.node_add_edge a b w s.graph i hoa hob).trans (h.weight hi)
  case ends =>
    intro e x y v he
    cases hedge he with
    | inl hnew =>
      cases hnew.2
      exact ⟨⟨src, ha⟩, dest, hb⟩
    | inr hold => exact h.ends hold
  case apart =>
    intro e e' x y v v' he he'
    cases hedge he with
    | inl hnew =>
      cases hnew.2
      cases hedge he' with
      | inl hnew' => rw [hnew.1, hnew'.1]
      | inr hold' => exact absurd hold' (hnone e' v')
    | inr hold =>
      cases hedge he' with
      | inl hnew' =>
        cases hnew'.2
        exact absurd hold (hnone e v)
      | inr hold' => exact h.apart hold hold'
  case claimed => exact h.claimed
  case entry => exact h.entry

theorem represented_cut (h : Represented s) (e : EdgeIndex) :
    Represented {s with graph := StableDiGraph.remove_edge e s.graph} := by
  have hedge : ∀ {e' x}, edge (StableDiGraph.remove_edge e s.graph) e' = some x →
      edge s.graph e' = some x := by
    intro e' x he
    rw [LawfulStableDiGraph.edge_remove_edge] at he
    split at he
    · cases he
    · exact he
  constructor
  case weight =>
    intro k i hi
    exact (LawfulStableDiGraph.node_remove_edge e s.graph i).trans (h.weight hi)
  case ends =>
    intro e' a b w he
    exact h.ends (hedge he)
  case apart =>
    intro e' e'' a b w w' he he'
    exact h.apart (hedge he) (hedge he')
  case claimed => exact h.claimed
  case entry => exact h.entry

/-- An edge keeps its ends when its weight changes. -/
theorem edge_weighed (g : G) (e : EdgeIndex) (f : W → W) {e' : EdgeIndex} {a b : NodeIndex} {w : W}
    (he : edge (edge_weight_mut e f g) e' = some (a, b, w)) : ∃ v, edge g e' = some (a, b, v) := by
  rw [LawfulStableDiGraph.edge_edge_weight_mut] at he
  split at he
  · obtain ⟨⟨x, y, v⟩, hold, heq⟩ := Option.map_eq_some_iff.mp he
    cases heq
    exact ⟨v, hold⟩
  · exact ⟨w, he⟩

theorem represented_weighed (h : Represented s) (e : EdgeIndex) (f : W → W) :
    Represented {s with graph := edge_weight_mut e f s.graph} := by
  constructor
  case weight =>
    intro k i hi
    exact (LawfulStableDiGraph.node_edge_weight_mut e f s.graph i).trans (h.weight hi)
  case ends =>
    intro e' a b w he
    obtain ⟨v, hold⟩ := edge_weighed s.graph e f he
    exact h.ends hold
  case apart =>
    intro e' e'' a b w w' he he'
    obtain ⟨v, hold⟩ := edge_weighed s.graph e f he
    obtain ⟨v', hold'⟩ := edge_weighed s.graph e f he'
    exact h.apart hold hold'
  case claimed => exact h.claimed
  case entry => exact h.entry

variable [LawfulBiHashMap M]

theorem left_added (h : Represented s) (hkey : get_by_left s.indices key = none)
    (k : OffchainPublicKey) : get_by_left (s.add_node key).indices k =
      if k = key then some (StableDiGraph.add_node key s.graph).1 else get_by_left s.indices k := by
  rw [add_node_new hkey]
  exact left_insert_new (h.unused key) key k

theorem left_added_old (h : Represented s) (hkey : get_by_left s.indices key = none)
    {k : OffchainPublicKey} {i : NodeIndex} (hk : get_by_left s.indices k = some i) :
    get_by_left (s.add_node key).indices k = some i := by
  rw [left_added h hkey, if_neg, hk]
  intro hsame
  rw [hsame, hkey] at hk
  cases hk

theorem claims_added (h : Represented s) (hkey : get_by_left s.indices key = none) (slot : UInt64)
    (i : NodeIndex) : Claims (s.add_node key) slot i ↔
      Claims s slot i ∨ slot = path_id.encode key ∧ i = (StableDiGraph.add_node key s.graph).1 := by
  constructor
  · intro ⟨k, hk, hslot⟩
    rw [left_added h hkey] at hk
    split at hk
    · next hsame => exact .inr ⟨by rw [← hslot, hsame], (Option.some.inj hk).symm⟩
    · exact .inl ⟨k, hk, hslot⟩
  · intro hor
    cases hor with
    | inl hold =>
      obtain ⟨k, hk, hslot⟩ := hold
      exact ⟨k, left_added_old h hkey hk, hslot⟩
    | inr hnew => exact ⟨key, by rw [left_added h hkey, if_pos rfl, hnew.2], hnew.1.symm⟩

theorem represented_added (h : Represented s) (hkey : get_by_left s.indices key = none) :
    Represented (s.add_node key) := by
  have hedge : ∀ e, edge (s.add_node key).graph e = edge s.graph e := by
    intro e
    rw [graph_added hkey, LawfulStableDiGraph.edge_add_node]
  constructor
  case weight =>
    intro k i hi
    rw [graph_added hkey, LawfulStableDiGraph.node_add_node]
    rw [left_added h hkey] at hi
    split at hi
    · next hk => rw [if_pos (Option.some.inj hi).symm, hk]
    · rw [if_neg, h.weight hi]
      intro hsame
      exact h.unused key k (hsame ▸ hi)
  case ends =>
    intro e a b w he
    obtain ⟨⟨k, hk⟩, k', hk'⟩ := h.ends ((hedge e).symm.trans he)
    exact ⟨⟨k, left_added_old h hkey hk⟩, k', left_added_old h hkey hk'⟩
  case apart =>
    intro e e' a b w w' he he'
    exact h.apart ((hedge e).symm.trans he) ((hedge e').symm.trans he')
  case claimed =>
    intro slot i
    rw [claims_added h hkey, ← h.claimed, lookup_added h hkey]
    split
    · next hslot => simp only [hslot, Option.getD_some, List.mem_append, List.mem_singleton, true_and]
    · next hslot => simp only [hslot, false_and, or_false]
  case entry =>
    intro slot held hheld
    rw [lookup_added h hkey] at hheld
    split at hheld
    · cases hheld
      have hnodup : ((s.slots.lookup slot).getD []).Nodup := by
        cases hold : s.slots.lookup slot with
        | none => exact .nil
        | some old => exact (h.entry hold).2
      refine ⟨List.concat_ne_nil _ _, ?_⟩
      rw [← List.concat_eq_append]
      exact hnodup.concat (h.unclaimed key slot)
    · exact h.entry hheld

theorem represented_removed (h : Represented s) (key : OffchainPublicKey) :
    Represented (s.remove_node key) := by
  cases hi : get_by_left s.indices key with
  | none => simpa only [InnerGraph.remove_node, hi] using h
  | some i =>
    constructor
    case weight =>
      intro k j hk
      rw [left_removed hi] at hk
      split at hk
      · cases hk
      · rw [remove_node_present hi]
        exact (node_remove_edges _ s.graph j).trans (h.weight hk)
    case ends =>
      intro e a b w he
      obtain ⟨he, ha, hb⟩ := edge_removed hi he
      obtain ⟨⟨k, hk⟩, k', hk'⟩ := h.ends he
      exact ⟨⟨k, left_removed_old hi hk ha⟩, k', left_removed_old hi hk' hb⟩
    case apart =>
      intro e e' a b w w' he he'
      exact h.apart (edge_removed hi he).1 (edge_removed hi he').1
    case claimed =>
      intro slot j
      rw [claims_removed hi, ← h.claimed, lookup_removed hi]
      split
      · cases s.slots.lookup slot with
        | none => simp only [Option.bind_none, Option.getD_none, List.not_mem_nil, false_and]
        | some old =>
          rw [Option.bind_some, Option.getD_some]
          have hfilter : j ∈ old.filter (· ≠ i) ↔ j ∈ old ∧ j ≠ i := by
            rw [List.mem_filter, decide_eq_true_eq]
          split
          · next hnil => rw [← hfilter, hnil, Option.getD_none]
          · rw [← hfilter, Option.getD_some]
      · next hslot =>
        -- The vertex claims no slot but that of its key.
        have hother : j ∈ (s.slots.lookup slot).getD [] → j ≠ i := by
          intro hj heq
          rw [h.claimed, heq] at hj
          exact hslot ((claims_of_key hi).mp hj)
        exact ⟨fun hj => ⟨hj, hother hj⟩, And.left⟩
    case entry =>
      intro slot held hheld
      rw [lookup_removed hi] at hheld
      split at hheld
      · obtain ⟨old, hold, hnew⟩ := Option.bind_eq_some_iff.mp hheld
        split at hnew
        · cases hnew
        · next hne =>
          cases hnew
          exact ⟨hne, (h.entry hold).2.filter _⟩
      · exact h.entry hheld

theorem represented_change {s' : InnerGraph G M} (h : Represented s) (hc : Change s s') :
    Represented s' := by
  cases hc with
  | added key hkey => exact represented_added h hkey
  | removed key => exact represented_removed h key
  | joined w ha hb hfree => exact represented_joined h w ha hb hfree
  | cut e => exact represented_cut h e
  | weighed e f => exact represented_weighed h e f

theorem represented_changes {s' : InnerGraph G M} (h : Represented s) (hc : Changes s s') :
    Represented s' := by
  induction hc with
  | refl => exact h
  | tail _ hlast ih => exact represented_change ih hlast

theorem represented_upsert_node (h : Represented s) (key : OffchainPublicKey) :
    Represented (s.upsert_node key).2 := by
  rw [upsert_node_eq]
  exact represented_changes h (changes_add_node s key)

/-- A node has its vertex still when another one was added. -/
theorem upsert_node_kept (h : Represented s) (src dest : OffchainPublicKey) :
    get_by_left ((s.upsert_node src).2.upsert_node dest).2.indices src = some (s.upsert_node src).1 := by
  have hsrc := upsert_node_mapped s src
  rw [upsert_node_eq]
  cases hd : get_by_left (s.upsert_node src).2.indices dest with
  | none => exact left_added_old (represented_upsert_node h src) hd hsrc
  | some i => rwa [add_node_present hd]

/-- Both of its nodes are added before the edge is. -/
theorem changes_upsert_edge [Observations W] (h : Represented s) (src dest : OffchainPublicKey)
    (f : W → W) : Changes s (s.upsert_edge src dest f) := by
  have hdest := upsert_node_mapped (s.upsert_node src).2 dest
  have hkept := upsert_node_kept h src dest
  have hnodes : Changes s ((s.upsert_node src).2.upsert_node dest).2 := by
    rw [upsert_node_eq, upsert_node_eq]
    exact (changes_add_node s src).trans (changes_add_node _ dest)
  apply hnodes.trans
  unfold InnerGraph.upsert_edge
  dsimp only
  split
  · exact .single (.weighed _ f)
  · next hfree => exact .head (.joined Observations.default hkept hdest hfree) (.single (.weighed _ f))

theorem changes_upsert_both [Observations W] {g : ChannelGraph G M} (h : Represented g.inner)
    (peer : OffchainPublicKey) (f : W → W) : Changes g.inner (g.upsert_both peer f).inner := by
  have hto := changes_upsert_edge h g.me peer f
  exact hto.trans (changes_upsert_edge (represented_changes h hto) peer g.me f)

/-- A call is put together from changes. -/
theorem changes_call [Observations W] {g : ChannelGraph G M} (h : Represented g.inner)
    (op : Operation W) : Changes g.inner (g.call op).inner := by
  cases op with
  | add_node key => exact changes_add_node g.inner key
  | remove_node key => exact .single (.removed key)
  | add_edge src dest =>
    unfold ChannelGraph.call
    dsimp only
    split
    · next hok => exact changes_add_edge hok
    · exact .refl
  | remove_edge src dest => exact changes_remove_edge g.inner src dest
  | upsert_edge src dest f => exact changes_upsert_edge h src dest f
  | record_edge now_ms update =>
    have hpath : update.NamesPath → Changes g.inner (g.record_edge now_ms update).inner := by
      intro hnames
      cases ChannelGraph.record_edge_cases now_ms g hnames with
      | inl hsame =>
        rw [hsame]
        exact .refl
      | inr hrecorded =>
        obtain ⟨edges, credited, measurement, _, _, heq⟩ := hrecorded
        rw [heq]
        exact changes_record_at now_ms measurement credited g.inner
    cases update with
    | Surb | Loopback | ProbeLoopbackTimeout => exact hpath trivial
    | Neighbor peer rtt => exact changes_upsert_both h peer _
    | ProbeNeighborTimeout peer => exact changes_upsert_both h peer _
    | Balance src dest balance => exact changes_upsert_edge h src dest _
    | ConnectionStatus peer connected => exact changes_upsert_both h peer _

theorem represented_new (me : OffchainPublicKey) : Represented (InnerGraph.new me : InnerGraph G M) := by
  have hempty : Represented (⟨StableDiGraph.new, BiHashMap.empty, ∅⟩ : InnerGraph G M) := by
    constructor
    case weight =>
      intro k i hi
      cases (LawfulBiHashMap.left_empty k).symm.trans hi
    case ends =>
      intro e a b w he
      cases (LawfulStableDiGraph.edge_new e).symm.trans he
    case apart =>
      intro e e' a b w w' he
      cases (LawfulStableDiGraph.edge_new e).symm.trans he
    case claimed =>
      intro slot i
      rw [AList.lookup_empty]
      constructor
      · intro hmem
        cases hmem
      · intro ⟨k, hk, _⟩
        cases (LawfulBiHashMap.left_empty k).symm.trans hk
    case entry =>
      intro slot held hheld
      rw [AList.lookup_empty] at hheld
      cases hheld
  have hadded := represented_added hempty (LawfulBiHashMap.left_empty me)
  rw [add_node_new (LawfulBiHashMap.left_empty me)] at hadded
  exact hadded

theorem represented_calls [Observations W] {g : ChannelGraph G M} (h : Represented g.inner)
    (ops : List (Operation W)) : Represented (g.calls ops).inner := by
  induction ops generalizing g with
  | nil => exact h
  | cons op rest ih => exact ih (represented_changes h (changes_call h op))

end Agreement

/-! ### Indices -/

section Indices
variable {G M W : Type} [StableDiGraph G OffchainPublicKey W]

/-- No index was given out twice, and each is still that of a vertex. -/
structure Recorded (s : InnerGraph (Logged G) M) : Prop where
  nodup : s.graph.issued.Nodup
  occupied : ∀ {i}, i ∈ s.graph.issued → Occupied s.graph i

variable {s s' : InnerGraph (Logged G) M}

/-- A change of the edges. -/
theorem Recorded.edges (h : Recorded s) (hissued : s'.graph.issued = s.graph.issued)
    (hnode : ∀ i, node_weight s'.graph i = node_weight s.graph i) : Recorded s' := by
  constructor
  case nodup => exact hissued ▸ h.nodup
  case occupied =>
    intro i hi
    rw [hissued] at hi
    obtain ⟨n, hn⟩ := h.occupied hi
    exact ⟨n, (hnode i).trans hn⟩

variable [BiHashMap M OffchainPublicKey NodeIndex] [LawfulStableDiGraph G]

theorem recorded_added (h : Recorded s) {key : OffchainPublicKey}
    (hkey : get_by_left s.indices key = none) : Recorded (s.add_node key) := by
  have hissued : (s.add_node key).graph.issued =
      s.graph.issued ++ [(StableDiGraph.add_node key s.graph).1] := by
    rw [graph_added hkey]
    rfl
  have hnew : (StableDiGraph.add_node key s.graph).1 ∉ s.graph.issued := by
    intro hmem
    obtain ⟨k, hk⟩ := h.occupied hmem
    rw [LawfulStableDiGraph.vacant_add_node] at hk
    cases hk
  constructor
  case nodup =>
    rw [hissued, ← List.concat_eq_append]
    exact h.nodup.concat hnew
  case occupied =>
    intro i hi
    rw [graph_added hkey]
    rw [hissued, List.mem_append, List.mem_singleton] at hi
    cases hi with
    | inl hold => exact (h.occupied hold).add_node key
    | inr heq => exact ⟨key, by rw [LawfulStableDiGraph.node_add_node, if_pos heq]⟩

theorem recorded_removed (h : Recorded s) (key : OffchainPublicKey) : Recorded (s.remove_node key) := by
  cases hi : get_by_left s.indices key with
  | none => simpa only [InnerGraph.remove_node, hi] using h
  | some i =>
    have hissued : ∀ (es : List EdgeIndex) (g : Logged G), (remove_edges es g).issued = g.issued := by
      intro es
      induction es with
      | nil => exact fun _ => rfl
      | cons e rest ih => exact fun g => ih (StableDiGraph.remove_edge e g)
    rw [remove_node_present hi]
    exact h.edges (hissued _ _) (node_remove_edges _ s.graph)

theorem recorded_change (hs : Represented s) (h : Recorded s) (hc : Change s s') : Recorded s' := by
  cases hc with
  | added key hkey => exact recorded_added h hkey
  | removed key => exact recorded_removed h key
  | joined w ha hb hfree =>
    exact h.edges rfl fun i =>
      LawfulStableDiGraph.node_add_edge _ _ w s.graph i (hs.occupied ha) (hs.occupied hb)
  | cut e => exact h.edges rfl (LawfulStableDiGraph.node_remove_edge e s.graph)
  | weighed e f => exact h.edges rfl (LawfulStableDiGraph.node_edge_weight_mut e f s.graph)

variable [LawfulBiHashMap M]

theorem recorded_changes (hs : Represented s) (h : Recorded s) (hc : Changes s s') : Recorded s' := by
  induction hc with
  | refl => exact h
  | tail hfirst hlast ih => exact recorded_change (represented_changes hs hfirst) ih hlast

theorem recorded_new (me : OffchainPublicKey) : Recorded (InnerGraph.new me : InnerGraph (Logged G) M) := by
  have hempty : Recorded (⟨StableDiGraph.new, BiHashMap.empty, ∅⟩ : InnerGraph (Logged G) M) :=
    ⟨.nil, fun hmem => (nomatch hmem)⟩
  have hadded := recorded_added hempty (LawfulBiHashMap.left_empty me)
  rw [add_node_new (LawfulBiHashMap.left_empty me)] at hadded
  exact hadded

theorem recorded_calls [Observations W] {g : ChannelGraph (Logged G) M} (hs : Represented g.inner)
    (h : Recorded g.inner) (ops : List (Operation W)) : Recorded (g.calls ops).inner := by
  induction ops generalizing g with
  | nil => exact h
  | cons op rest ih =>
    have hop := changes_call hs op
    exact ih (represented_changes hs hop) (recorded_changes hs h hop)

/-- After any calls: keys and indices map to each other, the structures agree, no index was given
out twice, and a slot leads to the one node that has it. -/
theorem represented [Observations W] (me : OffchainPublicKey) (max_plausible_loopback_rtt : Nat)
    (ops : List (Operation W)) :
    let s := ((ChannelGraph.new me max_plausible_loopback_rtt : ChannelGraph (Logged G) M).calls ops).inner
    (∀ key i, get_by_left s.indices key = some i ↔ get_by_right s.indices i = some key) ∧
    Represented s ∧ s.graph.issued.Nodup ∧
    ∀ slot i, s.resolve slot = some i ↔ slot ≠ 0 ∧ ∃ key, get_by_left s.indices key = some i ∧
      path_id.encode key = slot ∧ ∀ k, Mapped s k → path_id.encode k = slot → k = key := by
  intro s
  have hs : Represented s := represented_calls (represented_new me) ops
  have hrecorded : Recorded s := recorded_calls (represented_new me) (recorded_new me) ops
  exact ⟨fun _ _ => LawfulBiHashMap.left_iff_right, hs, hrecorded.nodup, hs.resolve_iff⟩

end Indices

/-- A node that is added again has a new index. -/
theorem represented_readded :
    let s := ((ChannelGraph.new (.of 1) 0 : ChannelGraph
      (Logged (ListGraph OffchainPublicKey (List EdgeWeightType))) (PairMap OffchainPublicKey NodeIndex)).calls
      [.add_node (.of 2), .remove_node (.of 2), .upsert_edge (.of 1) (.of 2) id]).inner
    s.graph.issued.length = 3 ∧ s.graph.issued.Nodup :=
  ⟨by decide +kernel, (represented _ _ _).2.2.1⟩

end Hopr.Graph.Representation
