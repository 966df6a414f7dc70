import Mathlib.Data.List.AList
import Mathlib.Data.List.Sort
import Hopr.Connector.Channels

/-! The state part and the live part of a subscription.

The connector handles a channel update in three steps: it adds the edge to the
graph, stores the entry, and broadcasts what the update is. A subscriber lists
the edges of the graph, then activates its receiver, and only later reads each
listed channel from the backend; the live events come behind. Between the
listing and the activation there is room for a whole update, which is then in
neither part (`opening_lost`).

A channel with an edge that was added, and not taken by another channel since, is
in the graph (`HasEdge`, `Traced.listed`). So a subscriber that has consumed its
stream received every channel that was opened and stayed so, if those that were
broadcast before its receiver was active had an edge when it listed them, and were
read (`received`). -/
namespace Hopr.Connector.StateSync
open Library
open TicketManager (ChannelId)

abbrev HoprKeyIdent := UInt32

/-- The graph has one edge, with a channel, between two accounts. -/
abbrev ChannelGraph := AList fun _ : HoprKeyIdent × HoprKeyIdent => ChannelId

/-- The update that is being handled: its edge is added, or its entry stored as well. -/
inductive Handling where
  | added (channel : ChannelEntry)
  | stored (channel : ChannelEntry) (old : Option ChannelEntry)

/-- Where a subscriber of the opened channels is. -/
inductive Subscriber where
  | unsubscribed
  /-- The edges are listed and the receiver is not active. -/
  | listed (channels : List ChannelId)
  /-- The channels to be read, the live events not consumed yet, and what was received. -/
  | active (unread : List ChannelId) (live received : List ChainEvent)

/-- The events are broadcast; an inactive receiver is sent nothing. -/
def Subscriber.sent (events : List ChainEvent) : Subscriber → Subscriber
  | .active unread live received => .active unread (live ++ events) received
  | subscriber => subscriber

structure State where
  graph : ChannelGraph
  stored : StoredChannels
  handling : Option Handling
  /-- The updates that are fully handled. -/
  handled : List ChannelEntry
  subscriber : Subscriber

inductive Action where
  | add_edge (src dst : HoprKeyIdent) (channel : ChannelEntry)
  | insert
  /-- The backend fails to store the entry. -/
  | insert_failed
  /-- The events of an update of the channel are broadcast. -/
  | broadcast (id : ChannelId)
  | list
  | activate
  /-- The channel, which is the next listed one, is read from the backend; this may fail. -/
  | read (id : ChannelId) (ok : Bool)
  | consume

namespace Action

def adds : Action → Bool
  | .add_edge _ _ _ => true
  | _ => false

/-- The steps of an update before it is broadcast. -/
def handles : Action → Bool
  | .add_edge _ _ _ | .insert | .insert_failed => true
  | _ => false

/-- The steps of the subscriber. -/
def subscribes : Action → Bool
  | .list | .activate | .read _ _ | .consume => true
  | _ => false

end Action

namespace State

def new : State := ⟨∅, fun _ => none, none, [], .unsubscribed⟩

/-- `build_channel_stream` up to the reads. -/
def all_channels (graph : ChannelGraph) : List ChannelId :=
  (graph.entries.map Sigma.snd).insertionSort fun a b => a.bytes ≤ b.bytes

/-- What is received for a channel that is read. -/
def read_channel (stored : StoredChannels) (id : ChannelId) : List ChainEvent :=
  match stored id with
  | some channel => if channel.status.discriminant = .Open then [.ChannelOpened channel] else []
  | none => []

variable (diff : ChannelEntry → ChannelEntry → List ChannelChange)
  (direction : ChannelEntry → Address → Option ChannelDirection) (me : Address)

def step (s : State) : Action → Option State
  | .add_edge src dst channel =>
    if s.handling.isNone
    then some {s with graph := s.graph.insert (src, dst) channel.id, handling := some (.added channel)}
    else none
  | .insert =>
    match s.handling with
    | some (.added channel) =>
      let (old, stored) := insert_channel channel s.stored
      some {s with stored, handling := some (.stored channel old)}
    | _ => none
  | .insert_failed =>
    match s.handling with
    | some (.added _) => some {s with handling := none}
    | _ => none
  | .broadcast id =>
    match s.handling with
    | some (.stored channel old) =>
      if channel.id = id
      then some {s with
        handling := none
        handled := s.handled ++ [channel]
        subscriber := s.subscriber.sent (update_events diff direction me channel old) }
      else none
    | _ => none
  | .list =>
    match s.subscriber with
    | .unsubscribed => some {s with subscriber := .listed (all_channels s.graph)}
    | _ => none
  | .activate =>
    match s.subscriber with
    | .listed channels => some {s with subscriber := .active channels [] []}
    | _ => none
  | .read id ok =>
    match s.subscriber with
    | .active (next :: unread) live received =>
      let events := if ok then read_channel s.stored id else []
      if next = id then some {s with subscriber := .active unread live (received ++ events)} else none
    | _ => none
  | .consume =>
    match s.subscriber with
    -- The live part comes behind the state part.
    | .active [] (event :: live) received => some {s with subscriber := .active [] live (received ++ [event])}
    | _ => none

end State

def machine (diff : ChannelEntry → ChannelEntry → List ChannelChange)
    (direction : ChannelEntry → Address → Option ChannelDirection) (me : Address) : Machine State Action where
  step := State.step diff direction me

/-! ### Channels that stay open -/

/-- An update that is in the backend. -/
def State.Applied (s : State) (channel : ChannelEntry) : Prop :=
  channel ∈ s.handled ∨ ∃ old, s.handling = some (.stored channel old)

/-- An update of the channel is fully handled. -/
def State.Handled (s : State) (id : ChannelId) : Prop := ∃ channel ∈ s.handled, channel.id = id

/-- The channel is open since it was first seen. -/
def State.StaysOpen (s : State) (id : ChannelId) : Prop :=
  ∀ channel, s.Applied channel → channel.id = id → channel.status = .Open

def Opened (id : ChannelId) (events : List ChainEvent) : Prop :=
  ∃ channel, channel.id = id ∧ .ChannelOpened channel ∈ events

theorem opened_append {id : ChannelId} {events : List ChainEvent} (h : Opened id events)
    (events' : List ChainEvent) : Opened id (events ++ events') := by
  obtain ⟨channel, hid, hmem⟩ := h
  exact ⟨channel, hid, List.mem_append_left _ hmem⟩

/-! ### Edges -/

/-- An edge of the channel was added, and none of another channel between the two accounts since. -/
def Edge (before : List Action) (src dst : HoprKeyIdent) (id : ChannelId) : Prop :=
  ∃ b channel c, before = b ++ .add_edge src dst channel :: c ∧ channel.id = id ∧
    ∀ other, .add_edge src dst other ∈ c → other.id = id

def HasEdge (before : List Action) (id : ChannelId) : Prop := ∃ src dst, Edge before src dst id

/-- The order in which a channel is not lost: if it was broadcast before the receiver was active, an edge
of it was there when the edges were listed, and if it fails to be read it is read another time. -/
def Kept (id : ChannelId) (as : List Action) : Prop :=
  ∀ b c d, as = b ++ .list :: (c ++ .activate :: d) → .broadcast id ∈ b ++ c →
    HasEdge b id ∧ (.read id false ∈ d → .read id true ∈ d)

section Edges
variable {before : List Action} {a : Action} {src dst : HoprKeyIdent} {id : ChannelId}

/-- The edge was added last, or there before and not taken. -/
theorem Edge.split (h : Edge (before ++ [a]) src dst id) :
    (∃ channel, a = .add_edge src dst channel ∧ channel.id = id) ∨
      Edge before src dst id ∧ ∀ other, a = .add_edge src dst other → other.id = id := by
  obtain ⟨b, channel, c, hbefore, hid, hothers⟩ := h
  cases concat_eq_split hbefore with
  | inl hlast => exact .inl ⟨channel, hlast.2.1, hid⟩
  | inr hfront =>
    obtain ⟨c', rfl, hc'⟩ := hfront
    refine .inr ⟨⟨b, channel, c', hc', hid, fun other hmem => ?_⟩, fun other ha => ?_⟩
    · exact hothers other (List.mem_append_left _ hmem)
    · exact hothers other (List.mem_append_right _ (List.mem_singleton.mpr ha.symm))

/-- The graph has the edges that were not taken. -/
def Edges (before : List Action) (graph : ChannelGraph) : Prop :=
  ∀ src dst id, Edge before src dst id → graph.lookup (src, dst) = some id

theorem edges_add_edge {graph : ChannelGraph} (h : Edges before graph) (src dst : HoprKeyIdent)
    (channel : ChannelEntry) :
    Edges (before ++ [.add_edge src dst channel]) (graph.insert (src, dst) channel.id) := by
  intro src' dst' id hedge
  cases hedge.split with
  | inl hlast =>
    obtain ⟨_, ha, hid⟩ := hlast
    cases ha
    rw [AList.lookup_insert, hid]
  | inr hfront =>
    obtain ⟨hfront, hothers⟩ := hfront
    by_cases hsame : (src', dst') = (src, dst)
    · cases hsame
      rw [AList.lookup_insert, hothers channel rfl]
    · rw [AList.lookup_insert_ne hsame]
      exact h src' dst' id hfront

theorem edges_keep {graph : ChannelGraph} (h : Edges before graph) (ha : a.adds = false) :
    Edges (before ++ [a]) graph := by
  intro src dst id hedge
  cases hedge.split with
  | inl hlast =>
    obtain ⟨channel, rfl, _⟩ := hlast
    cases ha
  | inr hfront => exact h src dst id hfront.1

/-- A channel with an edge is listed. -/
theorem Edges.listed {graph : ChannelGraph} (h : Edges before graph) (hedge : HasEdge before id) :
    id ∈ State.all_channels graph := by
  obtain ⟨src, dst, hedge⟩ := hedge
  have hentry := AList.mem_lookup_iff.mp (h src dst id hedge)
  exact (List.mem_insertionSort _).mpr (List.mem_map.mpr ⟨_, hentry, rfl⟩)

end Edges

/-! ### What is stored -/

structure Synced (s : State) : Prop where
  source : ∀ id channel, s.stored id = some channel → channel.id = id ∧ s.Applied channel
  applied : ∀ channel, s.Applied channel → ∃ entry, s.stored channel.id = some entry
  /-- An entry is replaced only by a later update. -/
  replaced : ∀ channel old, s.handling = some (.stored channel (some old)) → s.Handled channel.id

theorem synced_new : Synced .new := by
  constructor
  case source => exact fun _ _ h => nomatch h
  case applied =>
    intro channel h
    cases h with
    | inl hmem => cases hmem
    | inr hstored =>
      obtain ⟨_, hold⟩ := hstored
      cases hold
  case replaced => exact fun _ _ h => nomatch h

section Stored
variable {s : State} {id : ChannelId}

/-- What is handled moves on, and what was applied is the same. -/
theorem Synced.handling (h : Synced s) {graph : ChannelGraph} {handling : Option Handling}
    {handled : List ChannelEntry} {subscriber : Subscriber}
    (happlied : ∀ c, State.Applied ⟨graph, s.stored, handling, handled, subscriber⟩ c ↔ s.Applied c)
    (hnone : ∀ channel old, handling ≠ some (.stored channel (some old))) :
    Synced ⟨graph, s.stored, handling, handled, subscriber⟩ := by
  constructor
  case source =>
    intro id c hc
    exact ⟨(h.source id c hc).1, (happlied c).mpr (h.source id c hc).2⟩
  case applied => exact fun c hc => h.applied c ((happlied c).mp hc)
  case replaced => exact fun channel old hold => absurd hold (hnone channel old)

/-- No update is in the backend that was not, unless it is being handled. -/
theorem applied_same (hs : s.handling = none ∨ ∃ channel, s.handling = some (.added channel))
    {handling : Option Handling} (hnone : ∀ c old, handling ≠ some (.stored c old)) {graph : ChannelGraph}
    {subscriber : Subscriber} (c : ChannelEntry) :
    State.Applied ⟨graph, s.stored, handling, s.handled, subscriber⟩ c ↔ s.Applied c := by
  refine or_congr_right ⟨fun ⟨old, hold⟩ => absurd hold (hnone c old), fun ⟨old, hold⟩ => ?_⟩
  cases hs with
  | inl hs => cases hs.symm.trans hold
  | inr hs =>
    obtain ⟨channel, hs⟩ := hs
    cases hs.symm.trans hold

theorem Synced.insert (h : Synced s) {channel : ChannelEntry} (hs : s.handling = some (.added channel)) :
    Synced {s with stored := Function.update s.stored channel.id (some channel),
                   handling := some (.stored channel (s.stored channel.id))} := by
  have hhandled : ∀ c, s.Applied c → c ∈ s.handled := by
    intro c hc
    refine hc.resolve_right fun hold => ?_
    obtain ⟨old, hold⟩ := hold
    cases hs.symm.trans hold
  constructor
  case source =>
    intro id c hc
    have hc : Function.update s.stored channel.id (some channel) id = some c := hc
    by_cases hid : id = channel.id
    · rw [hid, Function.update_self] at hc
      cases hc
      exact ⟨hid.symm, .inr ⟨_, rfl⟩⟩
    · rw [Function.update_of_ne hid] at hc
      exact ⟨(h.source id c hc).1, .inl (hhandled c (h.source id c hc).2)⟩
  case applied =>
    intro c hc
    show ∃ entry, Function.update s.stored channel.id (some channel) c.id = some entry
    by_cases hid : c.id = channel.id
    · exact ⟨channel, by rw [hid, Function.update_self]⟩
    · rw [Function.update_of_ne hid]
      cases hc with
      | inl hmem => exact h.applied c (.inl hmem)
      | inr hstored =>
        obtain ⟨old, hold⟩ := hstored
        cases hold
        exact absurd rfl hid
  case replaced =>
    intro c old hold
    have hsame : some (Handling.stored channel (s.stored channel.id)) = some (.stored c (some old)) := hold
    obtain ⟨rfl, hstored⟩ : channel = c ∧ s.stored channel.id = some old := by simpa using hsame
    obtain ⟨hid, happlied⟩ := h.source _ old hstored
    exact ⟨old, hhandled old happlied, hid⟩

theorem applied_broadcast {channel : ChannelEntry} {old : Option ChannelEntry}
    (hs : s.handling = some (.stored channel old)) (subscriber : Subscriber) (c : ChannelEntry) :
    State.Applied {s with handling := none, handled := s.handled ++ [channel], subscriber} c ↔ s.Applied c := by
  unfold State.Applied
  rw [hs]
  simp [eq_comm]

/-- A stored channel that stays open is received when it is read. -/
theorem Synced.read (h : Synced s) (hopen : s.StaysOpen id) (hhandled : s.Handled id) :
    Opened id (State.read_channel s.stored id) := by
  obtain ⟨c, hc, hid⟩ := hhandled
  obtain ⟨entry, hentry⟩ := h.applied c (.inl hc)
  rw [hid] at hentry
  obtain ⟨hentryid, happlied⟩ := h.source id entry hentry
  refine ⟨entry, hentryid, ?_⟩
  unfold State.read_channel
  rw [hentry]
  dsimp only
  rw [hopen entry happlied hentryid]
  exact List.mem_singleton_self _

end Stored

/-! ### What comes to a subscriber -/

/-- The channel was listed and is read, or is broadcast to the receiver. The edges were listed after the
actions `b`, the receiver was activated after `c`, and `d` was done since. -/
structure Followed (s : State) (id : ChannelId) (b c d : List Action) (unread : List ChannelId)
    (live received : List ChainEvent) : Prop where
  listed : HasEdge b id → id ∈ unread ∨ ∃ ok, .read id ok ∈ d
  read : s.StaysOpen id → .broadcast id ∈ b ++ c → .read id true ∈ d → Opened id received
  live : s.StaysOpen id → .broadcast id ∉ b ++ c → s.Handled id → Opened id live ∨ Opened id received

/-- How the subscriber came to where it is. -/
inductive Subscribed (s : State) (id : ChannelId) (before : List Action) : Subscriber → Prop
  | unsubscribed : Subscribed s id before .unsubscribed
  | listed {b c channels} : before = b ++ .list :: c → (HasEdge b id → id ∈ channels) →
      Subscribed s id before (.listed channels)
  | active {b c d unread live received} : before = b ++ .list :: (c ++ .activate :: d) →
      Followed s id b c d unread live received → Subscribed s id before (.active unread live received)

/-- What the actions so far have come to. -/
structure Traced (id : ChannelId) (before : List Action) (s : State) : Prop where
  synced : Synced s
  edges : Edges before s.graph
  broadcast : s.Handled id ↔ .broadcast id ∈ before
  subscriber : Subscribed s id before s.subscriber

theorem traced_new (id : ChannelId) : Traced id [] .new := by
  constructor
  case synced => exact synced_new
  case edges =>
    intro src dst id ⟨b, channel, c, hnil, _⟩
    cases b <;> cases hnil
  case broadcast =>
    constructor
    · intro ⟨channel, hmem, _⟩
      cases hmem
    · intro hmem
      cases hmem
  case subscriber => exact .unsubscribed

section Step
variable {s s' : State} {id : ChannelId} {before b c d : List Action} {a : Action} {unread : List ChannelId}
  {live received : List ChainEvent} {subscriber : Subscriber}

theorem Followed.keep (h : Followed s id b c d unread live received) (hopen : s'.StaysOpen id → s.StaysOpen id)
    (hhandled : s'.Handled id → s.Handled id) (ha : a ≠ .read id true) :
    Followed s' id b c (d ++ [a]) unread live received := by
  constructor
  case listed =>
    intro hedge
    refine (h.listed hedge).imp_right fun hread => ?_
    obtain ⟨ok, hmem⟩ := hread
    exact ⟨ok, List.mem_append_left _ hmem⟩
  case read =>
    intro hs hearly hmem
    refine h.read (hopen hs) hearly ((List.mem_append.mp hmem).resolve_right fun hlast => ?_)
    exact ha (List.mem_singleton.mp hlast).symm
  case live => exact fun hs hlate hh => h.live (hopen hs) hlate (hhandled hh)

/-- The subscriber stays where it is. -/
theorem Subscribed.keep (h : Subscribed s id before subscriber) (hopen : s'.StaysOpen id → s.StaysOpen id)
    (hhandled : s'.Handled id → s.Handled id) (ha : a ≠ .read id true) :
    Subscribed s' id (before ++ [a]) subscriber := by
  cases h with
  | unsubscribed => exact .unsubscribed
  | listed hbefore hlisted =>
    subst hbefore
    exact .listed (List.append_assoc _ _ _) hlisted
  | active hbefore hfollowed =>
    subst hbefore
    refine .active ?_ (hfollowed.keep hopen hhandled ha)
    simp only [List.append_assoc, List.cons_append]

/-- The first update of a channel is broadcast as its opening. -/
theorem Followed.broadcast {diff : ChannelEntry → ChannelEntry → List ChannelChange}
    {direction : ChannelEntry → Address → Option ChannelDirection} {me : Address} {channel : ChannelEntry}
    {old : Option ChannelEntry} (h : Followed s id b c d unread live received)
    (hopen : s'.StaysOpen id → s.StaysOpen id) (hhandled : s'.Handled id → s.Handled id ∨ channel.id = id)
    (hreplaced : ∀ entry, old = some entry → s.Handled channel.id) :
    Followed s' id b c (d ++ [.broadcast channel.id]) unread
      (live ++ update_events diff direction me channel old) received := by
  constructor
  case listed =>
    intro hedge
    refine (h.listed hedge).imp_right fun hread => ?_
    obtain ⟨ok, hmem⟩ := hread
    exact ⟨ok, List.mem_append_left _ hmem⟩
  case read =>
    intro hs hearly hmem
    refine h.read (hopen hs) hearly ((List.mem_append.mp hmem).resolve_right fun hlast => ?_)
    cases List.mem_singleton.mp hlast
  case live =>
    intro hs hlate hh
    have hbefore : s.Handled id → Opened id (live ++ update_events diff direction me channel old) ∨
        Opened id received := fun hold => (h.live (hopen hs) hlate hold).imp_left (opened_append · _)
    cases hhandled hh with
    | inl hold => exact hbefore hold
    | inr hid =>
      cases old with
      | none => exact .inl ⟨channel, hid, List.mem_append_right _ (List.mem_singleton_self _)⟩
      | some entry => exact hbefore (hid ▸ hreplaced entry rfl)

/-- The next channel is read. -/
theorem Followed.read_next {next : ChannelId} {ok : Bool} (hs : Synced s)
    (hbroadcast : .broadcast id ∈ b ++ c → s.Handled id)
    (h : Followed s id b c d (next :: unread) live received)
    (hopen : s'.StaysOpen id → s.StaysOpen id) (hhandled : s'.Handled id → s.Handled id) :
    Followed s' id b c (d ++ [.read next ok]) unread live
      (received ++ if ok then State.read_channel s.stored next else []) := by
  constructor
  case listed =>
    intro hedge
    cases h.listed hedge with
    | inl hmem =>
      cases List.mem_cons.mp hmem with
      | inl heq => exact .inr ⟨ok, List.mem_append_right _ (heq ▸ List.mem_singleton_self _)⟩
      | inr hrest => exact .inl hrest
    | inr hread =>
      obtain ⟨ok', hmem⟩ := hread
      exact .inr ⟨ok', List.mem_append_left _ hmem⟩
  case read =>
    intro hstays hearly hmem
    cases List.mem_append.mp hmem with
    | inl hfront => exact opened_append (h.read (hopen hstays) hearly hfront) _
    | inr hlast =>
      cases List.mem_singleton.mp hlast
      obtain ⟨channel, hid, hread⟩ := hs.read (hopen hstays) (hbroadcast hearly)
      exact ⟨channel, hid, List.mem_append_right _ hread⟩
  case live =>
    intro hstays hlate hh
    exact (h.live (hopen hstays) hlate (hhandled hh)).imp_right (opened_append · _)

theorem Followed.consume {event : ChainEvent} (h : Followed s id b c d [] (event :: live) received)
    (hopen : s'.StaysOpen id → s.StaysOpen id) (hhandled : s'.Handled id → s.Handled id) :
    Followed s' id b c (d ++ [.consume]) [] live (received ++ [event]) := by
  have hkept : Followed s' id b c (d ++ [.consume]) [] (event :: live) received :=
    h.keep hopen hhandled (by rintro ⟨⟩)
  constructor
  case listed => exact hkept.listed
  case read => exact fun hs hearly hmem => opened_append (hkept.read hs hearly hmem) _
  case live =>
    intro hs hlate hh
    cases hkept.live hs hlate hh with
    | inl hlive =>
      obtain ⟨channel, hid, hmem⟩ := hlive
      cases List.mem_cons.mp hmem with
      | inl heq => exact .inr ⟨channel, hid, List.mem_append_right _ (List.mem_singleton.mpr heq)⟩
      | inr hrest => exact .inl ⟨channel, hid, hrest⟩
    | inr hreceived => exact .inr (opened_append hreceived _)

/-- The handling moves on, and the subscriber stays where it is. -/
theorem Traced.handling (h : Traced id before s) (hsynced : Synced s') (hedges : Edges (before ++ [a]) s'.graph)
    (happlied : ∀ channel, s.Applied channel → s'.Applied channel) (hhandled : s'.handled = s.handled)
    (hsubscriber : s'.subscriber = s.subscriber) (ha : a.handles = true) : Traced id (before ++ [a]) s' := by
  have hsame : s'.Handled id ↔ s.Handled id := by
    unfold State.Handled
    rw [hhandled]
  constructor
  case synced => exact hsynced
  case edges => exact hedges
  case broadcast =>
    rw [hsame, h.broadcast, List.mem_append, List.mem_singleton]
    refine ⟨.inl, fun hmem => hmem.resolve_right fun heq => ?_⟩
    subst heq
    cases ha
  case subscriber =>
    rw [hsubscriber]
    refine h.subscriber.keep (fun hopen channel hc => hopen channel (happlied channel hc)) hsame.mp ?_
    rintro rfl
    cases ha

/-- The subscriber moves on, and the handling stays where it is. -/
theorem Traced.subscribed (h : Traced id before s)
    (hsubscriber : Subscribed {s with subscriber} id (before ++ [a]) subscriber)
    (ha : a.subscribes = true) : Traced id (before ++ [a]) {s with subscriber} := by
  constructor
  case synced => exact ⟨h.synced.source, h.synced.applied, h.synced.replaced⟩
  case edges =>
    refine edges_keep h.edges ?_
    cases a <;> first | rfl | cases ha
  case broadcast =>
    have hsame : State.Handled {s with subscriber} id ↔ s.Handled id := .rfl
    rw [hsame, h.broadcast, List.mem_append, List.mem_singleton]
    refine ⟨.inl, fun hmem => hmem.resolve_right fun heq => ?_⟩
    subst heq
    cases ha
  case subscriber => exact hsubscriber

variable {diff : ChannelEntry → ChannelEntry → List ChannelChange}
  {direction : ChannelEntry → Address → Option ChannelDirection} {me : Address}

theorem Traced.broadcast_step (h : Traced id before s) {channel : ChannelEntry} {old : Option ChannelEntry}
    (hs : s.handling = some (.stored channel old))
    (hsent : subscriber = s.subscriber.sent (update_events diff direction me channel old)) :
    Traced id (before ++ [.broadcast channel.id])
      {s with handling := none, handled := s.handled ++ [channel], subscriber} := by
  have happlied := applied_broadcast hs subscriber
  have hopen : State.StaysOpen {s with handling := none, handled := s.handled ++ [channel], subscriber} id →
      s.StaysOpen id := fun hopen c hc => hopen c ((happlied c).mpr hc)
  have hhandled : State.Handled {s with handling := none, handled := s.handled ++ [channel], subscriber} id ↔
      s.Handled id ∨ channel.id = id := by
    simp [State.Handled, or_and_right, exists_or]
  constructor
  case synced => exact h.synced.handling happlied fun _ _ hold => by cases hold
  case edges => exact edges_keep h.edges rfl
  case broadcast =>
    rw [hhandled, h.broadcast, List.mem_append, List.mem_singleton, Action.broadcast.injEq]
    exact or_congr_right eq_comm
  case subscriber =>
    show Subscribed _ id _ subscriber
    have hsub := h.subscriber
    cases hsubscriber : s.subscriber with
    | unsubscribed =>
      rw [hsent, hsubscriber]
      exact .unsubscribed
    | listed channels =>
      rw [hsubscriber] at hsent hsub
      subst hsent
      cases hsub with
      | listed hbefore hlisted =>
        subst hbefore
        exact .listed (List.append_assoc _ _ _) hlisted
    | active unread live received =>
      rw [hsubscriber] at hsent hsub
      subst hsent
      cases hsub with
      | active hbefore hfollowed =>
        subst hbefore
        refine .active ?_ (hfollowed.broadcast hopen hhandled.mp fun entry hold => ?_)
        · simp only [List.append_assoc, List.cons_append]
        · exact h.synced.replaced channel entry (hold ▸ hs)

theorem traced_step (h : Traced id before s) (hstep : (machine diff direction me).step s a = some s') :
    Traced id (before ++ [a]) s' := by
  have hsub := h.subscriber
  cases a with
  | add_edge src dst channel =>
    simp only [machine, State.step] at hstep
    split at hstep
    · next hnone =>
      cases hstep
      have hs : s.handling = none := Option.isNone_iff_eq_none.mp hnone
      have happlied : ∀ c, State.Applied ⟨s.graph.insert (src, dst) channel.id, s.stored, some (.added channel),
          s.handled, s.subscriber⟩ c ↔ s.Applied c := applied_same (.inl hs) fun _ _ hold => by cases hold
      exact h.handling (h.synced.handling happlied fun _ _ hold => by cases hold)
        (edges_add_edge h.edges src dst channel) (fun c hc => (happlied c).mpr hc) rfl rfl rfl
    · cases hstep
  | insert =>
    simp only [machine, State.step] at hstep
    split at hstep
    · next channel hs =>
      cases hstep
      refine h.handling (h.synced.insert hs) (edges_keep h.edges rfl) ?_ rfl rfl rfl
      intro c hc
      refine hc.imp_right fun hold => ?_
      obtain ⟨old, hold⟩ := hold
      cases hs.symm.trans hold
    · cases hstep
  | insert_failed =>
    simp only [machine, State.step] at hstep
    split at hstep
    · next channel hs =>
      cases hstep
      have happlied : ∀ c, State.Applied ⟨s.graph, s.stored, none, s.handled, s.subscriber⟩ c ↔ s.Applied c :=
        applied_same (.inr ⟨channel, hs⟩) fun _ _ hold => by cases hold
      exact h.handling (h.synced.handling happlied fun _ _ hold => by cases hold) (edges_keep h.edges rfl)
        (fun c hc => (happlied c).mpr hc) rfl rfl rfl
    · cases hstep
  | broadcast id' =>
    simp only [machine, State.step] at hstep
    split at hstep
    · next channel old hs =>
      split at hstep
      · next hid =>
        cases hstep
        exact hid ▸ h.broadcast_step hs rfl
      · cases hstep
    · cases hstep
  | list =>
    simp only [machine, State.step] at hstep
    split at hstep
    · cases hstep
      exact h.subscribed (.listed (c := []) rfl h.edges.listed) rfl
    · cases hstep
  | activate =>
    simp only [machine, State.step] at hstep
    split at hstep
    · next channels hlisting =>
      cases hstep
      rw [hlisting] at hsub
      cases hsub with
      | listed hbefore hlisted =>
        have hmem := h.broadcast
        subst hbefore
        refine h.subscribed (.active (d := []) (List.append_assoc _ _ _) ?_) rfl
        constructor
        case listed => exact fun hedge => .inl (hlisted hedge)
        case read => exact fun _ _ hnil => (List.not_mem_nil hnil).elim
        case live =>
          -- What is handled so far was broadcast before the activation.
          intro _ hlate hhandled
          have hearly := hmem.mp hhandled
          simp only [List.mem_append, List.mem_cons, reduceCtorEq, false_or] at hearly hlate
          exact absurd hearly hlate
    · cases hstep
  | read id' ok =>
    simp only [machine, State.step] at hstep
    split at hstep
    · next first unread live received hactive =>
      split at hstep
      · next hfirst =>
        cases hstep
        cases hfirst
        rw [hactive] at hsub
        cases hsub with
        | active hbefore hfollowed =>
          have hmem := h.broadcast
          subst hbefore
          refine h.subscribed (.active ?_ (hfollowed.read_next h.synced ?_ (·) (·))) rfl
          · simp only [List.append_assoc, List.cons_append]
          · intro hearly
            refine hmem.mpr ?_
            simp only [List.mem_append, List.mem_cons, reduceCtorEq, false_or] at hearly ⊢
            exact hearly.imp_right .inl
      · cases hstep
    · cases hstep
  | consume =>
    simp only [machine, State.step] at hstep
    split at hstep
    · next event live received hactive =>
      cases hstep
      rw [hactive] at hsub
      cases hsub with
      | active hbefore hfollowed =>
        subst hbefore
        refine h.subscribed (.active ?_ (hfollowed.consume (·) (·))) rfl
        simp only [List.append_assoc, List.cons_append]
    · cases hstep

end Step

/-- A subscriber that has consumed its stream received `ChannelOpened` for a channel that is handled and
stayed open, if the order of the steps keeps the channel. -/
theorem received (diff : ChannelEntry → ChannelEntry → List ChannelChange)
    (direction : ChannelEntry → Address → Option ChannelDirection) (me : Address) {s : State} {as : List Action}
    (hrun : (machine diff direction me).run .new as = some s) {events : List ChainEvent}
    (hconsumed : s.subscriber = .active [] [] events) {id : ChannelId} (hkept : Kept id as)
    (hhandled : s.Handled id) (hopen : s.StaysOpen id) : Opened id events := by
  have h : Traced id as s :=
    (machine diff direction me).run_history (fun _ _ _ _ h hstep => traced_step h hstep) hrun (traced_new id)
  have hsub := h.subscriber
  rw [hconsumed] at hsub
  cases hsub with
  | @active b c d _ _ _ has hfollowed =>
    by_cases hearly : .broadcast id ∈ b ++ c
    · obtain ⟨hedge, hfails⟩ := hkept b c d has hearly
      obtain ⟨ok, hread⟩ := (hfollowed.listed hedge).resolve_left List.not_mem_nil
      cases ok with
      | true => exact hfollowed.read hopen hearly hread
      | false => exact hfollowed.read hopen hearly (hfails hread)
    · refine (hfollowed.live hopen hearly hhandled).resolve_left fun hnone => ?_
      obtain ⟨_, _, hmem⟩ := hnone
      cases hmem

/-- A channel that was listed while it was handled, and broadcast before the activation. -/
def listed_run : List Action :=
  [.add_edge 1 2 (.of 7 .Open 10), .insert, .list, .broadcast ⟨[7]⟩, .activate, .read ⟨[7]⟩ true]

theorem received_listed : Opened ⟨[7]⟩ [.ChannelOpened (.of 7 .Open 10)] := by
  have hkept : Kept ⟨[7]⟩ listed_run := by
    intro b c d has _
    have hsplit : listed_run = [.add_edge 1 2 (.of 7 .Open 10), .insert] ++
        .list :: ([.broadcast ⟨[7]⟩] ++ .activate :: [.read ⟨[7]⟩ true]) := rfl
    obtain ⟨rfl, _, hrest⟩ :=
      (List.append_cons_inj_of_notMem (by simp) (by simp)).mp (hsplit.symm.trans has)
    obtain ⟨_, _, rfl⟩ := (List.append_cons_inj_of_notMem (by simp) (by simp)).mp hrest
    refine ⟨⟨1, 2, [], _, [.insert], rfl, rfl, ?_⟩, ?_⟩
    · simp
    · simp
  have hrun : (machine changed directed ⟨[1]⟩).run .new listed_run = some _ := rfl
  refine received changed directed ⟨[1]⟩ hrun rfl hkept ⟨.of 7 .Open 10, List.mem_singleton_self _, rfl⟩ ?_
  intro channel happlied _
  cases happlied with
  | inl hmem => exact List.mem_singleton.mp hmem ▸ rfl
  | inr hstored =>
    obtain ⟨_, hold⟩ := hstored
    cases hold

/-- An update that is handled between the listing and the activation is in neither part. -/
theorem opening_lost : ∃ s, (machine changed directed ⟨[1]⟩).run .new
    [.list, .add_edge 1 2 (.of 7 .Open 10), .insert, .broadcast ⟨[7]⟩, .activate] = some s ∧
    s.subscriber = .active [] [] [] ∧ s.Handled ⟨[7]⟩ ∧ s.StaysOpen ⟨[7]⟩ := by
  refine ⟨_, rfl, rfl, ⟨.of 7 .Open 10, List.mem_singleton_self _, rfl⟩, ?_⟩
  intro channel happlied _
  cases happlied with
  | inl hmem => exact List.mem_singleton.mp hmem ▸ rfl
  | inr hstored =>
    obtain ⟨_, hold⟩ := hstored
    cases hold

end Hopr.Connector.StateSync
