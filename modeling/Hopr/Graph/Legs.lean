import Hopr.Graph.PathKeys

/-! What the slots of a path identifier are resolved to.

Slots lead over a `Leg` when each of them is the slot of exactly one node and an
edge joins every two nodes that follow each other; they are walked exactly over
the edges of a leg (`walk_edges_leg`). The bytes of a loop are resolved exactly if
they are such a leg from the local node to itself with padding behind it
(`resolve_loopback_edges_iff`), and the two paths of a round trip exactly if their
first slots are walked and meet at the replier (`resolve_round_trip_edges_iff`). -/
namespace Hopr.Graph.Loopback
open StableDiGraph BiHashMap InnerGraph Graph.Representation

section Joined
variable {G M W : Type} [StableDiGraph G OffchainPublicKey W] [BiHashMap M OffchainPublicKey NodeIndex]

/-- The edge is from the node of the first key to that of the second. -/
def Joins (s : InnerGraph G M) (e : EdgeIndex) (keys : OffchainPublicKey × OffchainPublicKey) : Prop :=
  ∃ a b w, get_by_left s.indices keys.1 = some a ∧ get_by_left s.indices keys.2 = some b ∧
    edge s.graph e = some (a, b, w)

/-- An edge joins the keys. -/
def Joined (s : InnerGraph G M) (key key' : OffchainPublicKey) : Prop := ∃ e, Joins s e (key, key')

/-- No two nodes have the same slot. -/
def Distinct (s : InnerGraph G M) : Prop :=
  ∀ k k', Mapped s k → Mapped s k' → path_id.encode k = path_id.encode k' → k = k'

/-- Keys that are joined one after the other are so by certain edges. -/
theorem edges_of_chain {s : InnerGraph G M} {keys : List OffchainPublicKey} (hjoined : keys.IsChain (Joined s)) :
    ∃ edges, List.Forall₂ (Joins s) edges (keys.zip keys.tail) := by
  induction keys with
  | nil => exact ⟨[], .nil⟩
  | cons key rest ih =>
    cases rest with
    | nil => exact ⟨[], .nil⟩
    | cons key' rest =>
      obtain ⟨⟨e, hjoins⟩, hrest⟩ := List.isChain_cons_cons.mp hjoined
      obtain ⟨edges, hedges⟩ := ih hrest
      exact ⟨e :: edges, .cons hjoins hedges⟩

end Joined

end Hopr.Graph.Loopback

namespace Hopr.Graph.Resolution
open StableDiGraph BiHashMap InnerGraph Graph.Representation PathKeys Loopback

/-! ### Slots that lead from node to node -/

section Legs
variable {G M W : Type} {s : InnerGraph G M}

/-- Of all nodes this one has the slot, and no other. -/
def Claimant [BiHashMap M OffchainPublicKey NodeIndex] (s : InnerGraph G M) (slot : UInt64)
    (key : OffchainPublicKey) : Prop :=
  Mapped s key ∧ path_id.encode key = slot ∧ ∀ k, Mapped s k → path_id.encode k = slot → k = key

/-- The nodes of the slots and the edges that join them one after the other. -/
structure Leg [StableDiGraph G OffchainPublicKey W] [BiHashMap M OffchainPublicKey NodeIndex] (s : InnerGraph G M)
    (slots : List UInt64) (keys : List OffchainPublicKey) (edges : List EdgeIndex) : Prop where
  claimed : List.Forall₂ (Claimant s) slots keys
  joined : List.Forall₂ (Joins s) edges (keys.zip keys.tail)

theorem Leg.cons [StableDiGraph G OffchainPublicKey W] [BiHashMap M OffchainPublicKey NodeIndex] {slot : UInt64}
    {slots : List UInt64} {key key' : OffchainPublicKey} {keys : List OffchainPublicKey} {e : EdgeIndex}
    {edges : List EdgeIndex} (hslot : Claimant s slot key) (hjoins : Joins s e (key, key'))
    (h : Leg s slots (key' :: keys) edges) :
    Leg s (slot :: slots) (key :: key' :: keys) (e :: edges) :=
  ⟨.cons hslot h.claimed, .cons hjoins h.joined⟩

theorem walk_edges_cons [StableDiGraph G OffchainPublicKey W] {slot slot' : UInt64} {rest : List UInt64}
    {edges : List EdgeIndex} :
    s.walk_edges (slot :: slot' :: rest) = some edges ↔ ∃ e edges',
      (∃ a b, s.resolve slot = some a ∧ s.resolve slot' = some b ∧ find_edge s.graph a b = some e) ∧
        s.walk_edges (slot' :: rest) = some edges' ∧ edges = e :: edges' := by
  rw [walk_edges]
  constructor
  · intro h
    obtain ⟨a, ha, h⟩ := Option.bind_eq_some_iff.mp h
    obtain ⟨b, hb, h⟩ := Option.bind_eq_some_iff.mp h
    obtain ⟨e, he, h⟩ := Option.bind_eq_some_iff.mp h
    obtain ⟨edges', hrest, h⟩ := Option.bind_eq_some_iff.mp h
    exact ⟨e, edges', ⟨a, b, ha, hb, he⟩, hrest, (Option.some.inj h).symm⟩
  · rintro ⟨e, edges', ⟨a, b, ha, hb, he⟩, hrest, rfl⟩
    rw [ha, hb, hrest]
    show (find_edge s.graph a b).bind _ = _
    rw [he]
    rfl

theorem walk_edges_ne_nil [StableDiGraph G OffchainPublicKey W] {slot slot' : UInt64} {between : List UInt64}
    {edges : List EdgeIndex} (h : s.walk_edges (slot :: between ++ [slot']) = some edges) : edges ≠ [] := by
  cases between with
  | nil =>
    obtain ⟨e, edges, _, _, rfl⟩ := walk_edges_cons.mp h
    exact List.cons_ne_nil e edges
  | cons next rest =>
    obtain ⟨e, edges, _, _, rfl⟩ := walk_edges_cons.mp h
    exact List.cons_ne_nil e edges

variable [BiHashMap M OffchainPublicKey NodeIndex] [StableDiGraph G OffchainPublicKey W]

theorem Claimant.unique {slot : UInt64} {key key' : OffchainPublicKey} (h : Claimant s slot key)
    (h' : Claimant s slot key') : key = key' :=
  h'.2.2 key h.1 h.2.1

/-- A node that has its slot alone. -/
theorem claimant_of_distinct (h : Distinct s) {key : OffchainPublicKey} (hkey : Mapped s key) :
    Claimant s (path_id.encode key) key :=
  ⟨hkey, rfl, fun k hk hslot => h k key hk hkey hslot⟩

theorem claimed_of_distinct (h : Distinct s) {keys : List OffchainPublicKey} (hkeys : ∀ k ∈ keys, Mapped s k) :
    List.Forall₂ (Claimant s) (keys.map path_id.encode) keys := by
  rw [List.forall₂_map_left_iff, List.forall₂_same]
  exact fun k hk => claimant_of_distinct h (hkeys k hk)

theorem Leg.single {slot : UInt64} {key : OffchainPublicKey} (h : Claimant s slot key) :
    Leg s [slot] [key] [] :=
  ⟨.cons h .nil, .nil⟩

theorem claimed_concat {slots : List UInt64} {slot : UInt64} {keys : List OffchainPublicKey}
    (h : List.Forall₂ (Claimant s) (slots ++ [slot]) keys) :
    ∃ keys' key, keys = keys' ++ [key] ∧ Claimant s slot key := by
  induction slots generalizing keys with
  | nil =>
    cases h with
    | cons hslot hnil =>
      cases hnil
      exact ⟨[], _, rfl, hslot⟩
  | cons x slots ih =>
    cases h with
    | @cons _ first _ _ _ hrest =>
      obtain ⟨keys', key, rfl, hslot⟩ := ih hrest
      exact ⟨first :: keys', key, rfl, hslot⟩

theorem Leg.length_edges {slots : List UInt64} {keys : List OffchainPublicKey} {edges : List EdgeIndex}
    (h : Leg s slots keys edges) : edges.length = slots.length - 1 := by
  have hslots := h.claimed.length_eq
  have hedges := h.joined.length_eq
  rw [List.length_zip, List.length_tail] at hedges
  omega

theorem Leg.claimant {slots : List UInt64} {keys : List OffchainPublicKey} {edges : List EdgeIndex}
    (h : Leg s slots keys edges) : ∀ k ∈ keys, Claimant s (path_id.encode k) k := by
  have hclaimed := h.claimed
  clear h
  induction hclaimed with
  | nil => exact fun _ hk => (nomatch hk)
  | cons hslot _ ih =>
    intro k hk
    cases List.mem_cons.mp hk with
    | inl heq =>
      rw [heq, hslot.2.1]
      exact hslot
    | inr hmem => exact ih k hmem

theorem Leg.slots_eq {slots : List UInt64} {keys : List OffchainPublicKey} {edges : List EdgeIndex}
    (h : Leg s slots keys edges) : keys.map path_id.encode = slots := by
  have hclaimed := h.claimed
  clear h
  induction hclaimed with
  | nil => rfl
  | cons hslot _ ih => rw [List.map_cons, hslot.2.1, ih]

theorem find_edge_iff [LawfulStableDiGraph G] (h : Represented s) {a b : NodeIndex} {e : EdgeIndex} :
    find_edge s.graph a b = some e ↔ ∃ w, edge s.graph e = some (a, b, w) := by
  constructor
  · exact LawfulStableDiGraph.find_edge_some
  · intro ⟨w, he⟩
    cases hfind : find_edge s.graph a b with
    | none => exact absurd he (LawfulStableDiGraph.find_edge_none hfind e w)
    | some e' =>
      obtain ⟨w', he'⟩ := LawfulStableDiGraph.find_edge_some hfind
      exact congrArg some (h.apart he' he)

variable [LawfulBiHashMap M]

theorem resolve_claimant (h : Represented s) {slot : UInt64} {i : NodeIndex} :
    s.resolve slot = some i ↔ ∃ key, Claimant s slot key ∧ get_by_left s.indices key = some i := by
  rw [h.resolve_iff]
  constructor
  · intro ⟨_, key, hkey, hslot, honly⟩
    exact ⟨key, ⟨⟨i, hkey⟩, hslot, honly⟩, hkey⟩
  · intro ⟨key, ⟨_, hslot, honly⟩, hkey⟩
    exact ⟨hslot ▸ path_id.encode_ne_zero key, key, hkey, hslot, honly⟩

variable [LawfulStableDiGraph G]

/-- Two slots are resolved to an edge. -/
theorem joins_iff (h : Represented s) {slot slot' : UInt64} {e : EdgeIndex} :
    (∃ a b, s.resolve slot = some a ∧ s.resolve slot' = some b ∧ find_edge s.graph a b = some e) ↔
      ∃ key key', Claimant s slot key ∧ Claimant s slot' key' ∧ Joins s e (key, key') := by
  simp only [resolve_claimant h, find_edge_iff h]
  constructor
  · intro ⟨a, b, ⟨key, hclaim, ha⟩, ⟨key', hclaim', hb⟩, w, he⟩
    exact ⟨key, key', hclaim, hclaim', a, b, w, ha, hb, he⟩
  · intro ⟨key, key', hclaim, hclaim', a, b, w, ha, hb, he⟩
    exact ⟨a, b, ⟨key, hclaim, ha⟩, ⟨key', hclaim', hb⟩, w, he⟩

/-- Slots are walked over a leg; of a single slot nothing is looked up. -/
theorem leg_iff (h : Represented s) {slot : UInt64} {rest : List UInt64} {edges : List EdgeIndex} :
    (∃ keys, Leg s (slot :: rest) keys edges) ↔
      (∃ key, Claimant s slot key) ∧ s.walk_edges (slot :: rest) = some edges := by
  induction rest generalizing slot edges with
  | nil =>
    constructor
    · intro ⟨keys, hclaimed, hjoined⟩
      cases hclaimed with
      | cons hslot hnil =>
        cases hnil
        cases hjoined
        exact ⟨⟨_, hslot⟩, rfl⟩
    · intro ⟨⟨key, hslot⟩, hedges⟩
      cases hedges
      exact ⟨[key], .single hslot⟩
  | cons slot' rest ih =>
    rw [walk_edges_cons]
    constructor
    · intro ⟨keys, hclaimed, hjoined⟩
      cases hclaimed with
      | @cons _ key _ _ hslot hclaimed =>
        cases hclaimed with
        | @cons _ key' _ keys hslot' hrest =>
          cases hjoined with
          | @cons e _ edges _ hjoins hjoined =>
            obtain ⟨_, hwalk⟩ := ih.mp ⟨key' :: keys, .cons hslot' hrest, hjoined⟩
            exact ⟨⟨key, hslot⟩, e, edges, (joins_iff h).mpr ⟨key, key', hslot, hslot', hjoins⟩, hwalk, rfl⟩
    · rintro ⟨_, e, edges, hstep, hwalk, rfl⟩
      obtain ⟨key, key', hslot, hslot', hjoins⟩ := (joins_iff h).mp hstep
      obtain ⟨keys, hleg⟩ := ih.mpr ⟨⟨key', hslot'⟩, hwalk⟩
      cases hclaimed : hleg.claimed with
      | @cons _ key'' _ keys hslot'' _ =>
        cases hslot''.unique hslot'
        exact ⟨key :: key' :: keys, .cons hslot hjoins hleg⟩

/-- More than one slot is walked over a leg. -/
theorem walk_edges_leg (h : Represented s) {slot slot' : UInt64} {rest : List UInt64} {edges : List EdgeIndex} :
    s.walk_edges (slot :: slot' :: rest) = some edges ↔ ∃ keys, Leg s (slot :: slot' :: rest) keys edges := by
  rw [leg_iff h]
  constructor
  · intro hwalk
    obtain ⟨_, _, hstep, _⟩ := walk_edges_cons.mp hwalk
    obtain ⟨key, _, hslot, _⟩ := (joins_iff h).mp hstep
    exact ⟨⟨key, hslot⟩, hwalk⟩
  · exact And.right

/-- What is walked from one slot to another, over others or not. -/
theorem walk_edges_between (h : Represented s) {slot slot' : UInt64} {between : List UInt64} {edges : List EdgeIndex} :
    s.walk_edges (slot :: between ++ [slot']) = some edges ↔
      ∃ keys, Leg s (slot :: between ++ [slot']) keys edges := by
  cases between with
  | nil => exact walk_edges_leg h
  | cons next rest => exact walk_edges_leg h

end Legs

/-! ### Loops -/

/-- The first place of a slot. -/
theorem first_iff {slot : UInt64} {slots : List UInt64} {p : Nat} :
    slots.findIdx? (· == slot) = some p ↔
      ∃ before rest, slots = before ++ slot :: rest ∧ slot ∉ before ∧ before.length = p := by
  have hfirst : ∀ before rest, slot ∉ before →
      (before ++ slot :: rest).findIdx? (· == slot) = some before.length := by
    intro before rest hbefore
    have hnone : before.findIdx? (· == slot) = none := by
      rw [List.findIdx?_eq_none_iff]
      intro x hx
      exact beq_eq_false_iff_ne.mpr fun heq => hbefore (heq ▸ hx)
    rw [List.findIdx?_append, hnone, List.findIdx?_cons, if_pos (beq_self_eq_true slot)]
    simp
  constructor
  · intro h
    have hmem : slot ∈ slots := by
      obtain ⟨hp, hslot, _⟩ := List.findIdx?_eq_some_iff_getElem.mp h
      exact eq_of_beq hslot ▸ List.getElem_mem hp
    obtain ⟨before, rest, rfl, hbefore⟩ := List.eq_append_cons_of_mem hmem
    exact ⟨before, rest, rfl, hbefore, Option.some.inj ((hfirst before rest hbefore).symm.trans h)⟩
  · rintro ⟨before, rest, rfl, hbefore, rfl⟩
    exact hfirst before rest hbefore

/-- What is tested of the slots of a loop, and what they are. -/
theorem loop_slots_iff {home : UInt64} {slots : List UInt64} {p : Nat} :
    (slots.head? = some home ∧ slots.tail.findIdx? (· == home) = some p ∧
        (slots.drop (p + 1 + 1)).any (· ≠ 0) = false) ↔
      ∃ between padding, slots = home :: between ++ home :: List.replicate padding 0 ∧ home ∉ between ∧
        between.length = p := by
  constructor
  · intro ⟨hhead, hend, hpadding⟩
    obtain ⟨between, rest, htail, hfresh, rfl⟩ := first_iff.mp hend
    obtain rfl : slots = home :: between ++ home :: rest := by
      rw [List.cons_append, ← htail]
      exact (List.cons_head?_tail (Option.mem_def.mpr hhead)).symm
    rw [List.append_cons, List.drop_left' (by simp), List.any_eq_false] at hpadding
    have hzero : rest = List.replicate rest.length 0 := by
      apply List.eq_replicate_of_mem
      intro slot hslot
      by_contra hne
      exact hpadding slot hslot (decide_eq_true hne)
    exact ⟨between, rest.length, by rw [← hzero], hfresh, rfl⟩
  · rintro ⟨between, padding, rfl, hfresh, rfl⟩
    refine ⟨rfl, first_iff.mpr ⟨between, _, rfl, hfresh, rfl⟩, ?_⟩
    rw [List.append_cons, List.drop_left' (by simp), List.any_eq_false]
    intro slot hslot
    rw [List.eq_of_mem_replicate hslot]
    decide

/-- The bytes of the slots of a loop: that of the local node at both ends, others between, and padding
behind. -/
structure LoopBytes (me : OffchainPublicKey) (bytes : List UInt8) (between : List UInt64) : Prop where
  length : bytes.length = 40
  slots : ∃ padding, read_slots bytes =
    path_id.encode me :: between ++ path_id.encode me :: List.replicate padding 0
  nonempty : between ≠ []
  fresh : path_id.encode me ∉ between

section Loops
variable {G M W : Type} [StableDiGraph G OffchainPublicKey W] [BiHashMap M OffchainPublicKey NodeIndex]
  [LawfulStableDiGraph G] [LawfulBiHashMap M]

theorem resolve_loopback_edges_iff {s : InnerGraph G M} (h : Represented s) {me : OffchainPublicKey}
    {bytes : List UInt8} {edges : List EdgeIndex} : s.resolve_loopback_edges me bytes = some edges ↔
      ∃ between keys, LoopBytes me bytes between ∧
        Leg s (path_id.encode me :: between ++ [path_id.encode me]) keys edges := by
  have htake : ∀ {between padding}, read_slots bytes =
      path_id.encode me :: between ++ path_id.encode me :: List.replicate padding 0 →
        (read_slots bytes).take (between.length + 1 + 1) = path_id.encode me :: between ++ [path_id.encode me] := by
    intro between padding hslots
    rw [hslots, List.append_cons, List.take_left' (by simp)]
  constructor
  · intro hedges
    unfold resolve_loopback_edges at hedges
    dsimp only at hedges
    split at hedges
    · cases hedges
    · next hlength =>
      split at hedges
      · cases hedges
      · next hhead =>
        obtain ⟨end_pos, hend, hedges⟩ := Option.bind_eq_some_iff.mp hedges
        obtain ⟨p, hp, rfl⟩ := Option.map_eq_some_iff.mp hend
        split at hedges
        · cases hedges
        · next hpadding =>
          obtain ⟨walked, hwalked, hedges⟩ := Option.bind_eq_some_iff.mp hedges
          split at hedges
          · cases hedges
          · next hcount =>
            split at hedges
            · cases hedges
            · next hshort =>
              cases hedges
              obtain ⟨between, padding, hslots, hfresh, rfl⟩ :=
                loop_slots_iff.mp ⟨not_not.mp hhead, hp, Bool.not_eq_true _ ▸ hpadding⟩
              rw [htake hslots] at hwalked
              obtain ⟨keys, hleg⟩ := (walk_edges_between h).mp hwalked
              have hne : between ≠ [] := by
                rintro rfl
                rw [not_not] at hcount
                exact hshort (by rw [hcount]; decide)
              exact ⟨between, keys, ⟨not_not.mp hlength, ⟨padding, hslots⟩, hne, hfresh⟩, hleg⟩
  · intro ⟨between, keys, ⟨hlength, ⟨padding, hslots⟩, hne, hfresh⟩, hleg⟩
    obtain ⟨hhead, hend, hpadding⟩ := loop_slots_iff.mpr ⟨between, padding, hslots, hfresh, rfl⟩
    have hwalk := (walk_edges_between h).mpr ⟨keys, hleg⟩
    have hcount : edges.length = between.length + 1 := by
      have hedges := hleg.length_edges
      simpa using hedges
    have hpos := List.length_pos_of_ne_nil hne
    unfold resolve_loopback_edges
    simp only [hlength, hhead, hend, Option.map_some, ne_eq, not_true_eq_false, if_false, Option.bind_eq_bind,
      Option.bind_some]
    rw [if_neg (by rw [hpadding]; decide), htake hslots, hwalk, Option.bind_some, if_neg (fun hne => hne hcount),
      if_neg (by omega)]
    rfl

end Loops

/-! ### Round trips -/

/-- The first slots of both paths of a round trip: those up to the replier, and from it to the local node. -/
structure Meets (me : OffchainPublicKey) (paths : ForwardAndReturnPath) (replier : UInt64)
    (before between : List UInt64) : Prop where
  start : paths.forward.slots.head? = some (path_id.encode me)
  forward : before ++ [replier] <+: paths.forward.slots
  reply : replier :: between ++ [path_id.encode me] <+: paths.reply.slots
  first : replier ∉ before
  first_home : path_id.encode me ∉ between

/-- What is walked of both. -/
theorem Meets.walked {me : OffchainPublicKey} {paths : ForwardAndReturnPath} {replier : UInt64}
    {before between : List UInt64} (h : Meets me paths replier before between) :
    paths.forward.slots.take (before.length + 1) ++ (paths.reply.slots.take (between.length + 1 + 1)).tail =
      before ++ replier :: (between ++ [path_id.encode me]) := by
  have hforward := List.prefix_iff_eq_take.mp h.forward
  have hreply := List.prefix_iff_eq_take.mp h.reply
  rw [List.length_append, List.length_singleton] at hforward hreply
  rw [List.length_cons] at hreply
  rw [← hforward, ← hreply, List.append_assoc]
  rfl

section RoundTrips
variable {G M W : Type} [StableDiGraph G OffchainPublicKey W] {s : InnerGraph G M}

theorem walk_edges_append (before : List UInt64) (slot : UInt64) (rest : List UInt64) :
    s.walk_edges (before ++ slot :: rest) = (s.walk_edges (before ++ [slot])).bind fun edges =>
      (s.walk_edges (slot :: rest)).map (edges ++ ·) := by
  induction before with
  | nil =>
    show _ = (s.walk_edges (slot :: rest)).map id
    rw [Option.map_id]
    rfl
  | cons x before ih =>
    have hstep : ∀ (y : UInt64) (slots : List UInt64), s.walk_edges (x :: y :: slots) =
        (s.resolve x).bind fun src => (s.resolve y).bind fun dest => (find_edge s.graph src dest).bind fun e =>
          (s.walk_edges (y :: slots)).map (e :: ·) := by
      intro y slots
      rw [walk_edges]
      cases s.walk_edges (y :: slots) with
      | none => rfl
      | some edges => rfl
    obtain ⟨y, before', hcons⟩ : ∃ y before', ∀ rest, before ++ slot :: rest = y :: (before' ++ rest) := by
      cases before with
      | nil => exact ⟨slot, [], fun _ => rfl⟩
      | cons y before => exact ⟨y, before ++ [slot], fun rest => by simp⟩
    rw [List.cons_append, List.cons_append, hcons, hcons, hstep, hstep, ← hcons, ← hcons, ih]
    simp only [Option.bind_assoc, Option.map_bind, Option.bind_map, Option.map_map, Function.comp_def,
      List.cons_append]

theorem resolve_round_trip_edges_iff {me : OffchainPublicKey} {paths : ForwardAndReturnPath}
    {edges : List EdgeIndex} : s.resolve_round_trip_edges me paths = some edges ↔
      ∃ replier before between to_edges back_edges, Meets me paths replier before between ∧
        s.walk_edges (before ++ [replier]) = some to_edges ∧
        s.walk_edges (replier :: between ++ [path_id.encode me]) = some back_edges ∧
        edges = to_edges ++ back_edges := by
  constructor
  · intro hedges
    unfold resolve_round_trip_edges at hedges
    dsimp only at hedges
    split at hedges
    · cases hedges
    · next hhead =>
      obtain ⟨replier, hreplier, hedges⟩ := Option.bind_eq_some_iff.mp hedges
      obtain ⟨forward_end, hforward_end, hedges⟩ := Option.bind_eq_some_iff.mp hedges
      obtain ⟨reply_end, hreply_end, hedges⟩ := Option.bind_eq_some_iff.mp hedges
      obtain ⟨p, hp, rfl⟩ := Option.map_eq_some_iff.mp hreply_end
      obtain ⟨walked, hwalked, hedges⟩ := Option.bind_eq_some_iff.mp hedges
      split at hedges
      · cases hedges
      · cases hedges
        obtain ⟨before, rest, hforward, hfirst, rfl⟩ := first_iff.mp hforward_end
        obtain ⟨between, rest', htail, hhome, rfl⟩ := first_iff.mp hp
        have hreply : paths.reply.slots = replier :: between ++ path_id.encode me :: rest' := by
          rw [List.cons_append, ← htail]
          exact (List.cons_head?_tail hreplier).symm
        have hmeets : Meets me paths replier before between :=
          { start := not_not.mp hhead
            forward := ⟨rest, (hforward.trans (List.append_cons before replier rest)).symm⟩
            reply := ⟨rest', (hreply.trans (List.append_cons (replier :: between) _ rest')).symm⟩
            first := hfirst
            first_home := hhome }
        rw [hmeets.walked, walk_edges_append] at hwalked
        obtain ⟨to_edges, hto, hwalked⟩ := Option.bind_eq_some_iff.mp hwalked
        obtain ⟨back_edges, hback, rfl⟩ := Option.map_eq_some_iff.mp hwalked
        exact ⟨replier, before, between, to_edges, back_edges, hmeets, hto, hback, rfl⟩
  · rintro ⟨replier, before, between, to_edges, back_edges, hmeets, hto, hback, rfl⟩
    obtain ⟨rest, hforward⟩ := hmeets.forward
    obtain ⟨rest', hreply⟩ := hmeets.reply
    rw [← List.append_cons] at hforward hreply
    have hforward_end : paths.forward.slots.findIdx? (· == replier) = some before.length :=
      first_iff.mpr ⟨before, rest, hforward.symm, hmeets.first, rfl⟩
    have hreply_end : paths.reply.slots.tail.findIdx? (· == path_id.encode me) = some between.length := by
      rw [← hreply]
      exact first_iff.mpr ⟨between, rest', rfl, hmeets.first_home, rfl⟩
    have hreplier : paths.reply.slots.head? = some replier := by
      rw [← hreply]
      rfl
    have hne : to_edges ++ back_edges ≠ [] := List.append_ne_nil_of_right_ne_nil _ (walk_edges_ne_nil hback)
    unfold resolve_round_trip_edges
    simp only [hmeets.start, hreplier, hforward_end, hreply_end, Option.map_some, ne_eq, not_true_eq_false,
      if_false, Option.bind_eq_bind, Option.bind_some]
    rw [hmeets.walked, walk_edges_append, hto, Option.bind_some, ← List.cons_append, hback, Option.map_some,
      Option.bind_some, if_neg hne]
    rfl

end RoundTrips

end Hopr.Graph.Resolution
