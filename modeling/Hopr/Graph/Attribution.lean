import Mathlib.Data.List.DropRight
import Hopr.Graph.PathQueries

/-! Telemetry is attributed to the edges of the path it was measured on.

A path identifier is `Minted` for keys that are nodes at that time. What is
reported about it later, after any calls, is recorded only at edges that join
keys that were next to each other on the path then, and nothing is recorded
unless all that is walked is still there (`attributed`). The reason is that a
slot names a key and not a place in the graph: as long as no two keys that were
ever present have the same slot, it leads nowhere but to the key's own node
(`EverDistinct.faithful`). -/
namespace Hopr.Graph.Attribution
open StableDiGraph BiHashMap InnerGraph Graph.Representation SimplePaths PathKeys Loopback Resolution PathQueries

/-! ### Keys next to each other -/

section Consecutive
variable {K : Type}

def Consecutive (k k' : K) (keys : List K) : Prop := (k, k') ∈ keys.zip keys.tail

theorem Consecutive.append {k k' : K} {keys : List K} (h : Consecutive k k' keys) (rest : List K) :
    Consecutive k k' (keys ++ rest) := by
  induction keys with
  | nil => cases h
  | cons key keys ih =>
    cases keys with
    | nil => cases h
    | cons key' keys =>
      cases List.mem_cons.mp h with
      | inl heq => exact List.mem_cons.mpr (.inl heq)
      | inr hmem => exact List.mem_cons_of_mem _ (ih hmem)

theorem Consecutive.of_prefix {k k' : K} {keys keys' : List K} (h : Consecutive k k' keys)
    (hstart : keys <+: keys') : Consecutive k k' keys' := by
  obtain ⟨rest, rfl⟩ := hstart
  exact h.append rest

/-- Two ways that are joined at a key. -/
theorem consecutive_join {k k' : K} (before : List K) (key : K) (after : List K) :
    Consecutive k k' (before ++ key :: after) ↔
      Consecutive k k' (before ++ [key]) ∨ Consecutive k k' (key :: after) := by
  induction before with
  | nil =>
    constructor
    · exact .inr
    · intro h
      cases h with
      | inl hnone => cases hnone
      | inr h => exact h
  | cons x before ih =>
    cases before with
    | nil =>
      show (k, k') ∈ (x, key) :: (key :: after).zip after ↔ (k, k') ∈ [(x, key)] ∨ _
      rw [List.mem_cons, List.mem_singleton]
      rfl
    | cons y before =>
      show (k, k') ∈ (x, y) :: _ ↔ (k, k') ∈ (x, y) :: _ ∨ _
      rw [List.mem_cons, List.mem_cons, or_assoc]
      exact or_congr Iff.rfl ih

variable [DecidableEq K]

/-- The keys up to the first that is the one. -/
def upTo (key : K) (keys : List K) : List K := keys.takeWhile (· ≠ key) ++ [key]

theorem prefix_upTo {key : K} {keys : List K} (h : key ∈ keys) : upTo key keys <+: keys := by
  unfold upTo
  induction keys with
  | nil => cases h
  | cons x rest ih =>
    by_cases hx : x = key
    · rw [List.takeWhile_cons_of_neg (by simpa using hx), hx]
      exact ⟨rest, rfl⟩
    · rw [List.takeWhile_cons_of_pos (by simpa using hx)]
      have hrest : key ∈ rest := (List.mem_cons.mp h).resolve_left fun heq => hx heq.symm
      exact List.cons_prefix_cons.mpr ⟨rfl, ih hrest⟩

end Consecutive

/-! ### Keys in slots -/

/-- Lists that do not end in padding are the same if they are with padding behind them. -/
theorem padded_injective {xs ys : List UInt64} (hxs : ∀ x ∈ xs.getLast?, x ≠ 0) (hys : ∀ y ∈ ys.getLast?, y ≠ 0)
    {n m : Nat} (h : xs ++ List.replicate n 0 = ys ++ List.replicate m 0) : xs = ys := by
  have hstrip : ∀ {xs : List UInt64}, (∀ x ∈ xs.getLast?, x ≠ 0) → ∀ n,
      (xs ++ List.replicate n 0).rdropWhile (· = 0) = xs := by
    intro xs hxs n
    induction n with
    | zero =>
      rw [List.replicate_zero, List.append_nil, List.rdropWhile_eq_self_iff]
      intro hne hzero
      exact hxs _ (List.getLast?_eq_some_getLast hne) (of_decide_eq_true hzero)
    | succ n ih =>
      rw [List.replicate_succ', ← List.append_assoc, List.rdropWhile_concat_pos _ _ _ rfl]
      exact ih
  rw [← hstrip hxs n, h, hstrip hys m]

/-- The first slot of a key in the padded slots of keys, if no other key has it. -/
theorem upTo_slots {key : OffchainPublicKey} {keys : List OffchainPublicKey} {padding : Nat}
    (hother : ∀ k ∈ keys, path_id.encode k = path_id.encode key → k = key) {before : List UInt64}
    (hfirst : path_id.encode key ∉ before)
    (hstart : before ++ [path_id.encode key] <+: keys.map path_id.encode ++ List.replicate padding 0) :
    key ∈ keys ∧ before ++ [path_id.encode key] = (upTo key keys).map path_id.encode := by
  induction keys generalizing before with
  | nil =>
    have hmem := hstart.subset (List.mem_append_right before (List.mem_singleton_self _))
    exact absurd (List.eq_of_mem_replicate hmem) (path_id.encode_ne_zero key)
  | cons k rest ih =>
    cases before with
    | nil =>
      cases hother k List.mem_cons_self (List.cons_prefix_cons.mp hstart).1.symm
      simp [upTo]
    | cons slot before =>
      obtain ⟨rfl, hrest⟩ := List.cons_prefix_cons.mp hstart
      rw [List.mem_cons, not_or] at hfirst
      obtain ⟨hmem, hslots⟩ := ih (fun x hx => hother x (List.mem_cons_of_mem _ hx)) hfirst.2 hrest
      have hkey : k ≠ key := fun heq => hfirst.1 (congrArg path_id.encode heq.symm)
      have hupTo : upTo key (k :: rest) = k :: upTo key rest := by simp [upTo, hkey]
      exact ⟨List.mem_cons_of_mem _ hmem, by rw [hupTo, List.map_cons, List.cons_append, hslots]⟩

/-- The identifier has the slots of the keys, and each key was a node when it was made. -/
inductive Minted {G M W : Type} [StableDiGraph G OffchainPublicKey W]
    [BiHashMap M OffchainPublicKey NodeIndex] [Observations W] (g : ChannelGraph G M) :
    List OffchainPublicKey → PathId → Prop
  | simple_paths {C R : Type} [LT C] [DecidableLT C] {sh : Shuffle R (NodeIndex × W)} {rng : R}
      {source destination length take_count} {value : ValueFn W C} {results nodes slots cost} :
      g.inner.simple_paths sh rng source destination length take_count value = some results →
      (nodes, slots, cost) ∈ results → Minted g (source :: nodes ++ [destination]) slots
  | simple_loopback_to_self {C R : Type} [LT C] [DecidableLT C] {sh : Shuffle R (NodeIndex × W)} {rng : R}
      {hops take_count} {value : UInt64 → ValueFn W C} {results path slots} :
      g.simple_loopback_to_self sh rng hops take_count value = some results →
      (path, slots) ∈ results → Minted g (g.me :: path) slots
  /-- The slots of single nodes are put together, and the others are left zero. -/
  | path_slot {keys values} {slots : PathId} :
      List.Forall₂ (fun key slot => g.inner.path_slot key = some slot) keys values →
      slots.slots = values ++ List.replicate (5 - values.length) 0 → Minted g keys slots

section Minted
variable {G M W : Type} [StableDiGraph G OffchainPublicKey W] [BiHashMap M OffchainPublicKey NodeIndex]
  {g : ChannelGraph G M} {s : InnerGraph G M} {keys : List OffchainPublicKey} {slots : PathId}

theorem path_slots {values : List UInt64}
    (h : List.Forall₂ (fun key slot => s.path_slot key = some slot) keys values) :
    values = keys.map path_id.encode ∧ ∀ k ∈ keys, Mapped s k := by
  induction h with
  | nil => exact ⟨rfl, fun _ hk => (nomatch hk)⟩
  | cons hslot _ ih =>
    unfold InnerGraph.path_slot at hslot
    split at hslot
    · next hkey =>
      cases hslot
      refine ⟨congrArg _ ih.1, ?_⟩
      intro k hk
      cases List.mem_cons.mp hk with
      | inl heq => exact heq ▸ Option.isSome_iff_exists.mp hkey
      | inr hmem => exact ih.2 k hmem
    · cases hslot

variable [LawfulStableDiGraph G] [LawfulBiHashMap M] [Observations W]

theorem Minted.encodes (h : Minted g keys slots) (hg : Represented g.inner) :
    Encodes slots keys ∧ ∀ k ∈ keys, Mapped g.inner k := by
  cases h with
  | simple_paths hresults hx =>
    obtain ⟨hencodes, hmapped, _⟩ := simple_paths_keys hg hresults hx
    exact ⟨hencodes, hmapped⟩
  | simple_loopback_to_self hresults hx =>
    obtain ⟨nodes, hpath, _, _, _, _, hmapped, hencodes, _⟩ := loops_joined hg hresults hx
    dsimp only at hpath hencodes
    rw [hpath]
    refine ⟨hencodes, ?_⟩
    intro k hk
    rw [← List.cons_append] at hk
    cases List.mem_append.mp hk with
    | inl hmem => exact hmapped k hmem
    | inr hmem => exact List.mem_singleton.mp hmem ▸ hmapped _ List.mem_cons_self
  | path_slot hvalues hslots =>
    obtain ⟨hvalues, hmapped⟩ := path_slots hvalues
    have hlength := congrArg List.length hslots
    rw [slots.length, List.length_append, List.length_replicate] at hlength
    rw [hvalues, List.length_map] at hslots hlength
    exact ⟨⟨by omega, hslots⟩, hmapped⟩

end Minted

/-! ### The walk that is resolved -/

section Resolved
variable {G M W : Type} [BiHashMap M OffchainPublicKey NodeIndex] {s : InnerGraph G M} {keys : List OffchainPublicKey}

/-- The slot of the key leads nowhere but to the key's own node. -/
def Faithful (s : InnerGraph G M) (key : OffchainPublicKey) : Prop :=
  ∀ i, s.resolve (path_id.encode key) = some i → get_by_left s.indices key = some i

variable [StableDiGraph G OffchainPublicKey W]

/-- Keys that are joined one after the other are nodes. -/
theorem mapped_of_joins {edges : List EdgeIndex} (h : List.Forall₂ (Joins s) edges (keys.zip keys.tail))
    (hedges : edges ≠ []) : ∀ k ∈ keys, Mapped s k := by
  induction keys generalizing edges with
  | nil => exact fun _ hk => (nomatch hk)
  | cons key rest ih =>
    cases rest with
    | nil =>
      cases h
      exact absurd rfl hedges
    | cons key' rest =>
      cases h with
      | @cons e _ edges' _ hjoins hrest =>
        obtain ⟨a, b, w, ha, hb, _⟩ := hjoins
        intro k hk
        cases List.mem_cons.mp hk with
        | inl heq => exact heq ▸ ⟨a, ha⟩
        | inr hmem =>
          cases rest with
          | nil => exact List.mem_singleton.mp hmem ▸ ⟨b, hb⟩
          | cons key'' rest =>
            refine ih hrest ?_ k hmem
            intro hnil
            rw [hnil] at hrest
            cases hrest

variable [LawfulBiHashMap M]

/-- The nodes that have the slots of faithful keys are those of the keys. -/
theorem keys_of_claimed (h : Represented s) (hkeys : ∀ k ∈ keys, Faithful s k) {keys' : List OffchainPublicKey}
    (hclaimed : List.Forall₂ (Claimant s) (keys.map path_id.encode) keys') : keys' = keys := by
  induction keys generalizing keys' with
  | nil =>
    cases hclaimed
    rfl
  | cons key rest ih =>
    cases hclaimed with
    | @cons _ key' _ rest' hkey hrest =>
      obtain ⟨i, hi⟩ := hkey.1
      have hleft := hkeys key List.mem_cons_self i ((resolve_claimant h).mpr ⟨key', hkey, hi⟩)
      rw [left_injective hi hleft, ih (fun k hk => hkeys k (List.mem_cons_of_mem _ hk)) hrest]

variable [LawfulStableDiGraph G]

theorem joins_of_walk_edges (h : Represented s) (hkeys : ∀ k ∈ keys, Faithful s k) {edges : List EdgeIndex}
    (hedges : s.walk_edges (keys.map path_id.encode) = some edges) :
    List.Forall₂ (Joins s) edges (keys.zip keys.tail) := by
  cases keys with
  | nil =>
    cases hedges
    exact .nil
  | cons key rest =>
    cases rest with
    | nil =>
      cases hedges
      exact .nil
    | cons key' rest =>
      obtain ⟨keys', hleg⟩ := (walk_edges_leg h).mp hedges
      rw [← keys_of_claimed h hkeys hleg.claimed]
      exact hleg.joined

/-- The keys that are walked when a round trip is resolved: up to the replier, and from there to the
local node. -/
def round_trip (me : OffchainPublicKey) (forward : List OffchainPublicKey) :
    List OffchainPublicKey → List OffchainPublicKey
  | [] => []
  | replier :: reply => upTo replier forward ++ upTo me reply

/-- Keys that are next to each other on the walk are so on one of the legs. -/
theorem consecutive_round_trip {me replier k k' : OffchainPublicKey} {forward reply : List OffchainPublicKey}
    (hforward : replier ∈ forward) (hreply : me ∈ reply)
    (h : Consecutive k k' (round_trip me forward (replier :: reply))) :
    Consecutive k k' forward ∨ Consecutive k k' (replier :: reply) := by
  have hwalk : round_trip me forward (replier :: reply) =
      forward.takeWhile (· ≠ replier) ++ replier :: upTo me reply := by
    simp only [round_trip, upTo, List.append_assoc, List.cons_append, List.nil_append]
  rw [hwalk, consecutive_join] at h
  cases h with
  | inl hto => exact .inl (hto.of_prefix (prefix_upTo hforward))
  | inr hback => exact .inr (hback.of_prefix (List.cons_prefix_cons.mpr ⟨rfl, prefix_upTo hreply⟩))

variable {me : OffchainPublicKey} {edges : List EdgeIndex}

/-- A loop is resolved as a whole. -/
theorem walk_of_loopback (h : Represented s) {slots : PathId} (hslots : Encodes slots keys)
    (hkeys : ∀ k ∈ keys, Faithful s k) (hedges : s.resolve_loopback_edges me (write_slots slots) = some edges) :
    edges ≠ [] ∧ List.Forall₂ (Joins s) edges (keys.zip keys.tail) := by
  obtain ⟨between, keys', hbytes, hleg⟩ := (resolve_loopback_edges_iff h).mp hedges
  obtain ⟨padding, hread⟩ := hbytes.slots
  rw [read_write_slots, hslots.2, List.append_cons] at hread
  have hloop : keys.map path_id.encode = path_id.encode me :: between ++ [path_id.encode me] := by
    refine padded_injective ?_ ?_ hread
    · intro slot hslot
      obtain ⟨k, _, rfl⟩ := List.mem_map.mp (List.mem_of_getLast? hslot)
      exact path_id.encode_ne_zero k
    · intro slot hslot
      rw [List.getLast?_concat] at hslot
      cases hslot
      exact path_id.encode_ne_zero me
  have hcount := hleg.length_edges
  rw [← hloop] at hleg
  obtain rfl := keys_of_claimed h hkeys hleg.claimed
  refine ⟨?_, hleg.joined⟩
  rintro rfl
  simp at hcount

/-- A round trip is resolved up to the replier and back. -/
theorem walk_of_round_trip (h : Represented s) {paths : ForwardAndReturnPath} {forward reply : List OffchainPublicKey}
    (hforward : Encodes paths.forward forward) (hreply : Encodes paths.reply reply)
    (hother : ∀ k ∈ forward ++ reply, ∀ k' ∈ me :: reply, path_id.encode k = path_id.encode k' → k = k')
    (hkeys : ∀ k ∈ forward ++ reply, Faithful s k)
    (hedges : s.resolve_round_trip_edges me paths = some edges) :
    edges ≠ [] ∧
      List.Forall₂ (Joins s) edges ((round_trip me forward reply).zip (round_trip me forward reply).tail) ∧
      ∀ k k', Consecutive k k' (round_trip me forward reply) →
        Consecutive k k' forward ∨ Consecutive k k' reply := by
  obtain ⟨slot, before, between, to_edges, back_edges, hmeets, hto, hback, rfl⟩ :=
    resolve_round_trip_edges_iff.mp hedges
  have hreplied := hmeets.reply
  rw [hreply.2] at hreplied
  cases reply with
  | nil =>
    -- Without a replier the way back is padding and does not come to the local node.
    have hmem := hreplied.subset (List.mem_append_right _ (List.mem_singleton_self _))
    exact absurd (List.eq_of_mem_replicate hmem) (path_id.encode_ne_zero me)
  | cons replier reply =>
    obtain ⟨rfl, hhome⟩ := List.cons_prefix_cons.mp hreplied
    have hto' := hmeets.forward
    rw [hforward.2] at hto'
    obtain ⟨hmem, hslots⟩ := upTo_slots (fun k hk =>
      hother k (List.mem_append_left _ hk) replier (List.mem_cons_of_mem _ List.mem_cons_self)) hmeets.first hto'
    obtain ⟨hmem', hslots'⟩ := upTo_slots (fun k hk =>
      hother k (List.mem_append_right _ (List.mem_cons_of_mem _ hk)) me List.mem_cons_self) hmeets.first_home hhome
    have hwalk : s.walk_edges ((round_trip me forward (replier :: reply)).map path_id.encode) =
        some (to_edges ++ back_edges) := by
      show s.walk_edges ((upTo replier forward ++ upTo me reply).map path_id.encode) = _
      rw [List.map_append, ← hslots, ← hslots', List.append_assoc]
      show s.walk_edges (before ++ path_id.encode replier :: (between ++ [path_id.encode me])) = _
      rw [walk_edges_append, hto, Option.bind_some, ← List.cons_append, hback, Option.map_some]
    have hwalked : ∀ k ∈ round_trip me forward (replier :: reply), Faithful s k := by
      intro k hk
      apply hkeys
      cases List.mem_append.mp hk with
      | inl hleft => exact List.mem_append_left _ ((prefix_upTo hmem).subset hleft)
      | inr hright => exact List.mem_append_right _ (List.mem_cons_of_mem _ ((prefix_upTo hmem').subset hright))
    have hne := List.append_ne_nil_of_right_ne_nil to_edges (walk_edges_ne_nil hback)
    exact ⟨hne, joins_of_walk_edges h hwalked hwalk,
      fun k k' => consecutive_round_trip hmem hmem'⟩

end Resolved

/-! ### What is recorded -/

/-- Each of the edges joins two keys next to each other, and each two are joined by one. -/
theorem joins_mem {G M W : Type} [StableDiGraph G OffchainPublicKey W] [BiHashMap M OffchainPublicKey NodeIndex]
    {s : InnerGraph G M} {edges : List EdgeIndex} {pairs : List (OffchainPublicKey × OffchainPublicKey)}
    (h : List.Forall₂ (Joins s) edges pairs) :
    (∀ e ∈ edges, ∃ pair ∈ pairs, Joins s e pair) ∧ ∀ pair ∈ pairs, ∃ e, Joins s e pair := by
  induction h with
  | nil => exact ⟨fun _ he => (nomatch he), fun _ hpair => (nomatch hpair)⟩
  | cons hjoins _ ih =>
    constructor
    · intro e he
      cases List.mem_cons.mp he with
      | inl heq => exact ⟨_, List.mem_cons_self, heq ▸ hjoins⟩
      | inr hmem =>
        obtain ⟨pair, hpair, hrest⟩ := ih.1 e hmem
        exact ⟨pair, List.mem_cons_of_mem _ hpair, hrest⟩
    · intro pair hpair
      cases List.mem_cons.mp hpair with
      | inl heq => exact ⟨_, heq ▸ hjoins⟩
      | inr hmem => exact ih.2 pair hmem

/-- An edge whose data change is credited. -/
theorem credited_of_record_at {G M W : Type} [StableDiGraph G OffchainPublicKey W] [LawfulStableDiGraph G]
    [Observations W] (now_ms : Nat) (measurement : EdgeWeightType) (credited : List EdgeIndex)
    {s : InnerGraph G M} {e : EdgeIndex}
    (h : edge (s.record_at now_ms measurement credited).graph e ≠ edge s.graph e) : e ∈ credited := by
  induction credited generalizing s with
  | nil => exact absurd rfl h
  | cons e' rest ih =>
    by_cases he : e = e'
    · exact List.mem_cons.mpr (.inl he)
    · apply List.mem_cons_of_mem
      apply ih (s := {s with graph := edge_weight_mut e' (Observations.record now_ms measurement) s.graph})
      intro hsame
      apply h
      refine hsame.trans ?_
      rw [LawfulStableDiGraph.edge_edge_weight_mut, if_neg he]

section Reports
variable {G M W : Type} [StableDiGraph G OffchainPublicKey W] [Observations W]
  [BiHashMap M OffchainPublicKey NodeIndex]

/-- A report carries identifiers that were made at some time in the run, each for the keys of a leg;
`walk` is what is walked of the legs. -/
inductive Carries (g : ChannelGraph G M) (ops : List (Operation W)) :
    MeasurableEdge → List (List OffchainPublicKey) → List OffchainPublicKey → Prop
  | Loopback {before keys slots} (timestamp : Nat) : before <+: ops → Minted (g.calls before) keys slots →
      Carries g ops (.Loopback (write_slots slots) timestamp) [keys] keys
  | ProbeLoopbackTimeout {before keys slots} : before <+: ops → Minted (g.calls before) keys slots →
      Carries g ops (.ProbeLoopbackTimeout (write_slots slots)) [keys] keys
  | Surb {before before' forward reply} {paths : ForwardAndReturnPath} (timestamp : Nat)
      (expected observed : UInt64) :
      before <+: ops → Minted (g.calls before) forward paths.forward →
      before' <+: ops → Minted (g.calls before') reply paths.reply →
      Carries g ops (.Surb paths timestamp expected observed) [forward, reply] (round_trip g.me forward reply)

/-- The key was a node at some time in the run. -/
def EverPresent (g : ChannelGraph G M) (ops : List (Operation W)) (key : OffchainPublicKey) : Prop :=
  ∃ before, before <+: ops ∧ Mapped (g.calls before).inner key

/-- No two keys that were ever present have the same slot. -/
def EverDistinct (g : ChannelGraph G M) (ops : List (Operation W)) : Prop :=
  ∀ k k', EverPresent g ops k → EverPresent g ops k' → path_id.encode k = path_id.encode k' → k = k'

variable {g : ChannelGraph G M} {ops : List (Operation W)} {update : MeasurableEdge}
  {legs : List (List OffchainPublicKey)} {walk : List OffchainPublicKey}

theorem Carries.namesPath (h : Carries g ops update legs walk) : update.NamesPath := by
  cases h <;> trivial

variable [LawfulBiHashMap M]

theorem EverDistinct.faithful (h : EverDistinct g ops) (hg : Represented (g.calls ops).inner)
    {key : OffchainPublicKey} (hkey : EverPresent g ops key) : Faithful (g.calls ops).inner key := by
  intro i hi
  obtain ⟨_, key', hkey', hslot, _⟩ := (hg.resolve_iff _ i).mp hi
  rw [← h key' key ⟨ops, List.prefix_refl ops, i, hkey'⟩ hkey hslot]
  exact hkey'

variable [LawfulStableDiGraph G]

theorem Minted.keys_present (hg : Represented g.inner) {before : List (Operation W)} (hbefore : before <+: ops)
    {keys : List OffchainPublicKey} {slots : PathId} (h : Minted (g.calls before) keys slots) :
    Encodes slots keys ∧ ∀ k ∈ keys, EverPresent g ops k := by
  obtain ⟨hencodes, hmapped⟩ := h.encodes (represented_calls hg before)
  exact ⟨hencodes, fun k hk => ⟨before, hbefore, hmapped k hk⟩⟩

/-- If the edges of a report's path are still there, they join what is walked of it. -/
theorem resolved_walk (hg : Represented g.inner) (hme : Mapped g.inner g.me) (hdistinct : EverDistinct g ops)
    (h : Carries g ops update legs walk) {edges : List EdgeIndex}
    (hedges : (g.calls ops).resolved update = some edges) :
    edges ≠ [] ∧ List.Forall₂ (Joins (g.calls ops).inner) edges (walk.zip walk.tail) ∧
      ∀ k k', Consecutive k k' walk → ∃ leg ∈ legs, Consecutive k k' leg := by
  have hpresent : EverPresent g ops g.me := ⟨[], List.nil_prefix, hme⟩
  have hrepresented := represented_calls hg ops
  have hfaithful : ∀ k, EverPresent g ops k → Faithful (g.calls ops).inner k :=
    fun _ hk => hdistinct.faithful hrepresented hk
  have hloop : ∀ {before keys slots}, before <+: ops → Minted (g.calls before) keys slots →
      (g.calls ops).inner.resolve_loopback_edges (g.calls ops).me (write_slots slots) = some edges →
      edges ≠ [] ∧ List.Forall₂ (Joins (g.calls ops).inner) edges (keys.zip keys.tail) := by
    intro before keys slots hbefore hminted hres
    obtain ⟨hencodes, hkeys⟩ := hminted.keys_present hg hbefore
    rw [ChannelGraph.me_calls] at hres
    exact walk_of_loopback hrepresented hencodes (fun k hk => hfaithful k (hkeys k hk)) hres
  cases h with
  | Loopback timestamp hbefore hminted =>
    obtain ⟨hne, hjoins⟩ := hloop hbefore hminted hedges
    exact ⟨hne, hjoins, fun _ _ hk => ⟨_, List.mem_singleton_self _, hk⟩⟩
  | ProbeLoopbackTimeout hbefore hminted =>
    obtain ⟨hne, hjoins⟩ := hloop hbefore hminted hedges
    exact ⟨hne, hjoins, fun _ _ hk => ⟨_, List.mem_singleton_self _, hk⟩⟩
  | @Surb _ _ forward reply paths timestamp expected observed hbefore hforward hbefore' hreply =>
    obtain ⟨hencodes, hkeys⟩ := hforward.keys_present hg hbefore
    obtain ⟨hencodes', hkeys'⟩ := hreply.keys_present hg hbefore'
    have hall : ∀ k ∈ forward ++ reply, EverPresent g ops k := by
      intro k hk
      cases List.mem_append.mp hk with
      | inl hmem => exact hkeys k hmem
      | inr hmem => exact hkeys' k hmem
    have hother : ∀ k ∈ forward ++ reply, ∀ k' ∈ g.me :: reply,
        path_id.encode k = path_id.encode k' → k = k' := by
      intro k hk k' hk'
      cases List.mem_cons.mp hk' with
      | inl heq => exact hdistinct k k' (hall k hk) (heq ▸ hpresent)
      | inr hmem => exact hdistinct k k' (hall k hk) (hkeys' k' hmem)
    have hres : (g.calls ops).inner.resolve_round_trip_edges g.me paths = some edges := by
      rw [← ChannelGraph.me_calls g ops]
      exact hedges
    obtain ⟨hne, hjoins, hlegs⟩ :=
      walk_of_round_trip hrepresented hencodes hencodes' hother (fun k hk => hfaithful k (hall k hk)) hres
    refine ⟨hne, hjoins, ?_⟩
    intro k k' hk
    cases hlegs k k' hk with
    | inl hto => exact ⟨forward, List.mem_cons_self, hto⟩
    | inr hback => exact ⟨reply, List.mem_cons_of_mem _ List.mem_cons_self, hback⟩

end Reports

/-- A measurement goes to edges between keys that were next to each other on the path when its
identifier was made, and nowhere if a node or an edge of what was walked is gone. -/
theorem attributed {G M W : Type} [StableDiGraph G OffchainPublicKey W] [Observations W]
    [BiHashMap M OffchainPublicKey NodeIndex] [LawfulStableDiGraph G] [LawfulBiHashMap M]
    (me : OffchainPublicKey) (max_plausible_loopback_rtt : Nat) (ops : List (Operation W)) (now_ms : Nat)
    {update : MeasurableEdge} {legs : List (List OffchainPublicKey)} {walk : List OffchainPublicKey}
    (hdistinct : EverDistinct (ChannelGraph.new me max_plausible_loopback_rtt : ChannelGraph G M) ops)
    (hupdate : Carries (ChannelGraph.new me max_plausible_loopback_rtt : ChannelGraph G M) ops update legs walk) :
    let g := (ChannelGraph.new me max_plausible_loopback_rtt : ChannelGraph G M).calls ops
    (∀ e, edge (g.record_edge now_ms update).inner.graph e ≠ edge g.inner.graph e →
      ∃ k k', Joins g.inner e (k, k') ∧ ∃ leg ∈ legs, Consecutive k k' leg) ∧
    ((∃ k ∈ walk, ¬ Mapped g.inner k) ∨ (∃ k k', Consecutive k k' walk ∧ ¬ Joined g.inner k k') →
      g.record_edge now_ms update = g) := by
  intro g
  have hme : Mapped (InnerGraph.new me : InnerGraph G M) me := by
    refine ⟨(StableDiGraph.add_node me (StableDiGraph.new : G)).1, ?_⟩
    exact (LawfulBiHashMap.left_insert _ _ _ _).trans (if_pos rfl)
  have hwalk : ∀ edges, g.resolved update = some edges → _ :=
    fun edges => resolved_walk (represented_new me) hme hdistinct hupdate
  cases ChannelGraph.record_edge_cases now_ms g hupdate.namesPath with
  | inl hsame =>
    rw [hsame]
    exact ⟨fun e he => absurd rfl he, fun _ => rfl⟩
  | inr hrecorded =>
    obtain ⟨edges, credited, measurement, hedges, hcredited, heq⟩ := hrecorded
    obtain ⟨hne, hjoins, hlegs⟩ := hwalk edges hedges
    constructor
    · intro e he
      rw [heq] at he
      have hmem := hcredited e (credited_of_record_at now_ms measurement credited he)
      obtain ⟨⟨k, k'⟩, hpair, hjoin⟩ := (joins_mem hjoins).1 e hmem
      exact ⟨k, k', hjoin, hlegs k k' hpair⟩
    · intro hgone
      cases hgone with
      | inl hnode =>
        obtain ⟨k, hk, hunmapped⟩ := hnode
        exact absurd (mapped_of_joins hjoins hne k hk) hunmapped
      | inr hedge =>
        obtain ⟨k, k', hpair, hnone⟩ := hedge
        exact absurd ((joins_mem hjoins).2 (k, k') hpair) hnone

/-- Nothing is recorded for a loop made before one of its nodes was removed and added again. -/
theorem attributed_readded :
    let g := (ChannelGraph.new (.of 1) 0 : ChannelGraph (ListGraph OffchainPublicKey (List EdgeWeightType))
      (PairMap OffchainPublicKey NodeIndex)).calls
      [.upsert_edge (.of 1) (.of 2) id, .upsert_edge (.of 2) (.of 3) id, .upsert_edge (.of 3) (.of 1) id,
        .remove_node (.of 2), .add_node (.of 2)]
    g.record_edge 0 (.ProbeLoopbackTimeout (write_slots
      ⟨[path_id.encode (.of 1), path_id.encode (.of 2), path_id.encode (.of 3), path_id.encode (.of 1), 0],
        rfl⟩)) = g := by
  intro g
  have hnodes : ∀ k, EverPresent (ChannelGraph.new (.of 1) 0 : ChannelGraph
      (ListGraph OffchainPublicKey (List EdgeWeightType)) (PairMap OffchainPublicKey NodeIndex))
      [.upsert_edge (.of 1) (.of 2) id, .upsert_edge (.of 2) (.of 3) id, .upsert_edge (.of 3) (.of 1) id,
        .remove_node (.of 2), .add_node (.of 2)] k →
      k ∈ [OffchainPublicKey.of 1, OffchainPublicKey.of 2, OffchainPublicKey.of 3] := by
    intro k ⟨before, hbefore, i, hi⟩
    have hnode := (represented_calls (represented_new (.of 1)) before).weight hi
    have hall : ∀ before ∈ List.inits ([.upsert_edge (.of 1) (.of 2) id, .upsert_edge (.of 2) (.of 3) id,
        .upsert_edge (.of 3) (.of 1) id, .remove_node (.of 2), .add_node (.of 2)] :
          List (Operation (List EdgeWeightType))),
        ∀ k ∈ ((ChannelGraph.new (.of 1) 0 : ChannelGraph (ListGraph OffchainPublicKey (List EdgeWeightType))
          (PairMap OffchainPublicKey NodeIndex)).calls before).inner.graph.nodes,
          k ∈ [OffchainPublicKey.of 1, OffchainPublicKey.of 2, OffchainPublicKey.of 3] := by
      decide +kernel
    exact hall before ((List.mem_inits _ _).mpr hbefore) k (List.mem_of_getElem? hnode)
  have hslots : ∀ k ∈ [OffchainPublicKey.of 1, OffchainPublicKey.of 2, OffchainPublicKey.of 3],
      ∀ k' ∈ [OffchainPublicKey.of 1, OffchainPublicKey.of 2, OffchainPublicKey.of 3],
      path_id.encode k = path_id.encode k' → k = k' := by
    decide +kernel
  have hloops : triangle.simple_loopback_to_self (Shuffle.keep _) () 2 none
      (fun _ => ValueFn.edges _) =
      some [([.of 2, .of 3, .of 1], ⟨[path_id.encode (.of 1), path_id.encode (.of 2),
        path_id.encode (.of 3), path_id.encode (.of 1), 0], rfl⟩)] := by
    decide +kernel
  refine (attributed (.of 1) 0 _ 0 (fun k k' hk hk' => hslots k (hnodes k hk) k' (hnodes k' hk'))
    (.ProbeLoopbackTimeout ⟨[.remove_node (.of 2), .add_node (.of 2)], rfl⟩
      (.simple_loopback_to_self hloops List.mem_cons_self))).2 (.inr ⟨.of 1, .of 2, List.mem_cons_self, ?_⟩)
  intro ⟨e, a, b, w, ha, hb, he⟩
  have hleft : get_by_left g.inner.indices (.of 1) = some ⟨0⟩ := by decide +kernel
  have hright : get_by_left g.inner.indices (.of 2) = some ⟨3⟩ := by decide +kernel
  cases ha.symm.trans hleft
  cases hb.symm.trans hright
  exact LawfulStableDiGraph.find_edge_none (by decide +kernel : find_edge g.inner.graph ⟨0⟩ ⟨3⟩ = none) e w he

end Hopr.Graph.Attribution
