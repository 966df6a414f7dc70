import Hopr.TicketManager.Channel
import Hopr.TicketManager.TicketStore

/-! The ticket manager.

For each channel the manager keeps an entry: a value cache over a handle of the
channel's stored queue, statistics and the redeem lock. Whoever looks an entry
up shares it from then on (`EntryRef`), whether or not the map still leads to
it. `view` is the entry with the contents its handle leads to, on which the
functions of one channel's queue run (`on_entry`).

`insert_incoming_ticket` is written as one call: it holds the map's lock on the
channel throughout. `neglect_tickets` and a redeem stream keep a reference to the
entry, and `sync_from_incoming_channels` replaces entries; their calls on the
map and on an entry are here, and how they interleave is said elsewhere. -/
namespace Hopr.TicketManager
open Library TicketQueue QueueWithStats

/-- An entry of the map, shared by all who looked it up. -/
abbrev EntryRef := Nat

structure ChannelTicketQueue where
  queue : ValueCachedQueue QueueRef
  stats : ChannelTicketStats
  redeem_lock : Bool

structure HoprTicketManager (Q : Type) where
  store : TicketStore Q
  channel_tickets : Heap.Table ChannelId
  entries : Heap ChannelTicketQueue

structure ChannelStats where
  winning_tickets : Nat
  unredeemed_value : HoprBalance
  rejected_value : HoprBalance
  neglected_value : HoprBalance
deriving DecidableEq

/-- `ChannelStats::default()` -/
def ChannelStats.empty : ChannelStats := ⟨0, 0, 0, 0⟩

/-- What a redeem stream holds on to; `in_flight` is the ticket it peeked and has not completed. -/
structure RedeemState where
  lock : EntryRef
  min_redeem_value : HoprBalance
  channel_id : ChannelId
  in_flight : Option RedeemableTicket

namespace HoprTicketManager
variable {Q ε : Type}

/-- A manager on a store, before any channel is known. -/
def new (store : TicketStore Q) : HoprTicketManager Q :=
  ⟨store, ∅, .new ⟨⟨0, fun _ => none, none⟩, .empty, false⟩⟩

/-- A call on the store; its errors are store errors. -/
def onStore {α : Type} (m : EStateM ε (TicketStore Q) α) :
    EStateM (TicketManagerError ε) (HoprTicketManager Q) α := fun s =>
  match m.run s.store with
  | .ok a st => .ok a {s with store := st}
  | .error e st => .error (.StoreError e) {s with store := st}

/-- The handle an entry holds. -/
def handle (s : HoprTicketManager Q) (e : EntryRef) : QueueRef := (s.entries.cell e).queue.queue

/-- The contents an entry's handle leads to. -/
def contents (s : HoprTicketManager Q) (e : EntryRef) : Q := s.store.queues.cell (s.handle e)

/-- An entry's queue, contents included, with its statistics. -/
def view (s : HoprTicketManager Q) (e : EntryRef) : QueueWithStats Q :=
  ⟨(s.entries.cell e).queue.with_queue (s.contents e), (s.entries.cell e).stats⟩

/-- Writes the entry and, through its handle, the contents. -/
def put (e : EntryRef) (c : QueueWithStats Q) (s : HoprTicketManager Q) : HoprTicketManager Q :=
  {s with
    store := {s.store with queues := s.store.queues.set (s.handle e) c.queue.queue}
    entries := s.entries.set e {s.entries.cell e with
      queue := c.queue.with_queue (s.handle e)
      stats := c.stats}}

/-- A call under the lock of an entry. -/
def on_entry {α : Type} (e : EntryRef) (m : EStateM (TicketManagerError ε) (QueueWithStats Q) α) :
    EStateM (TicketManagerError ε) (HoprTicketManager Q) α := fun s =>
  match m.run (s.view e) with
  | .ok a c => .ok a (s.put e c)
  | .error err c => .error err (s.put e c)

def set_redeem_lock (e : EntryRef) (locked : Bool) (s : HoprTicketManager Q) : HoprTicketManager Q :=
  {s with entries := s.entries.set e {s.entries.cell e with redeem_lock := locked}}

/-- Puts a new entry into the map, in place of the one the channel has. -/
def place (id : ChannelId) (c : ChannelTicketQueue) (s : HoprTicketManager Q) : HoprTicketManager Q :=
  {s with
    channel_tickets := s.channel_tickets.insert id s.entries.next
    entries := (s.entries.alloc c).2}

theorem handle_put (e e' : EntryRef) (c : QueueWithStats Q) (s : HoprTicketManager Q) :
    (s.put e c).handle e' = s.handle e' := by
  by_cases he : e' = e
  · subst he
    simp only [handle, put, Heap.cell_set_self, ValueCachedQueue.with_queue]
  · simp only [handle, put, Heap.cell_set_ne he]

@[simp] theorem view_put_self (e : EntryRef) (c : QueueWithStats Q) (s : HoprTicketManager Q) :
    (s.put e c).view e = c := by
  simp only [view, contents, handle_put]
  simp only [put, Heap.cell_set_self, ValueCachedQueue.with_queue]

/-- A write through one entry is not seen through an entry with another handle. -/
theorem view_put_ne {e e' : EntryRef} {s : HoprTicketManager Q} (he : e' ≠ e)
    (hr : s.handle e' ≠ s.handle e) (c : QueueWithStats Q) : (s.put e c).view e' = s.view e' := by
  simp only [view, contents, handle_put]
  simp only [put, Heap.cell_set_ne he, Heap.cell_set_ne hr]

@[simp] theorem put_view (e : EntryRef) (s : HoprTicketManager Q) : s.put e (s.view e) = s := by
  show {s with
    store := {s.store with
      queues := s.store.queues.set (s.handle e) (s.store.queues.cell (s.handle e))}
    entries := s.entries.set e (s.entries.cell e)} = s
  rw [Heap.set_cell, Heap.set_cell]

theorem on_entry_run {α : Type} {e : EntryRef}
    {m : EStateM (TicketManagerError ε) (QueueWithStats Q) α} {s : HoprTicketManager Q} {a : α}
    {c : QueueWithStats Q} (h : m.run (s.view e) = .ok a c) :
    (on_entry e m).run s = .ok a (s.put e c) := by
  simp only [on_entry, EStateM.run] at h ⊢
  rw [h]

theorem onStore_run {α : Type} {m : EStateM ε (TicketStore Q) α} {s : HoprTicketManager Q} {a : α}
    {st : TicketStore Q} (h : m.run s.store = .ok a st) :
    (onStore m).run s = .ok a {s with store := st} := by
  simp only [onStore, EStateM.run] at h ⊢
  rw [h]

theorem after_onStore {α : Type} (m : EStateM ε (TicketStore Q) α) (s : HoprTicketManager Q) :
    after (onStore m) s = {s with store := after m s.store} := by
  unfold after
  cases h : m.run s.store <;> simp only [onStore, EStateM.run] at h ⊢ <;> rw [h]

theorem after_on_entry {α : Type} (e : EntryRef)
    (m : EStateM (TicketManagerError ε) (QueueWithStats Q) α) (s : HoprTicketManager Q) :
    after (on_entry e m) s = s.put e (after m (s.view e)) := by
  unfold after
  cases h : m.run (s.view e) <;> simp only [on_entry, EStateM.run] at h ⊢ <;> rw [h]

section Queue
variable [TicketQueue Q ε]

/-- `ChannelTicketQueue::from`: the queued tickets count as winning, and nobody is redeeming. -/
def new_entry (queue : ValueCachedQueue QueueRef) : EStateM ε (TicketStore Q) ChannelTicketQueue :=
  fun s =>
    match (TicketStore.on_queue queue.queue len).run s with
    | .ok n s' => .ok ⟨queue, {ChannelTicketStats.empty with winning_tickets := n}, false⟩ s'
    | .error _ s' => .ok ⟨queue, .empty, false⟩ s'

theorem new_entry_run [TotalTicketQueue Q] (v : ValueCachedQueue QueueRef) (s : TicketStore Q) :
    (new_entry v).run s = .ok ⟨v, {ChannelTicketStats.empty with
      winning_tickets := (tickets (s.queues.cell v.queue)).length}, false⟩ s := by
  have hlen := TicketStore.on_queue_read (len_run (s.queues.cell v.queue))
  simp only [new_entry, EStateM.run] at hlen ⊢
  rw [hlen]

/-- The entry for the first ticket of a channel. -/
def first_entry [CreatableQueue Q] (ticket : RedeemableTicket) :
    EStateM (TicketManagerError ε) (HoprTicketManager Q) ChannelTicketQueue := do
  let r ← onStore (TicketStore.open_or_create_queue ticket.ticket.channel_id)
  let queue ← onStore (TicketStore.on_queue r (ValueCachedQueue.new r))
  if !(← onStore (TicketStore.on_queue r is_empty)) then
    throw (.Other "fatal error: queue not empty")
  let (_, queue) ← onStore (TicketStore.on_cached queue (push ticket))
  onStore (new_entry queue)

def insert_incoming_ticket [CreatableQueue Q] (ticket : RedeemableTicket) :
    EStateM (TicketManagerError ε) (HoprTicketManager Q) (List VerifiedTicket) := do
  let s ← get
  match s.channel_tickets.lookup ticket.ticket.channel_id with
  | some e => on_entry e (insert_occupied ticket)
  | none => do
    let c ← first_entry ticket
    modify (place ticket.ticket.channel_id c)
    return []

/-- The total value of the tickets of a channel, from `min_index` on. -/
def unrealized_value (channel_id : ChannelId) (min_index : Option UInt64) :
    EStateM (TicketManagerError ε) (HoprTicketManager Q) (Option HoprBalance) := do
  let s ← get
  match s.channel_tickets.lookup channel_id with
  | some e =>
    if min_index.isNone then return some (s.view e).queue.cached_unrealized_value
    match ← on_entry e (onQueue peek) with
    | some t => some <$>
        on_entry e (onQueue (ValueCachedQueue.total_value t.verified_ticket.channel_epoch min_index))
    | none => return some 0
  | none => return none

/-- The value of the tickets of the head's epoch. -/
def unredeemed_value : EStateM (TicketManagerError ε) (QueueWithStats Q) HoprBalance := do
  match ← onQueue peek with
  | some t => onQueue (ValueCachedQueue.total_value t.verified_ticket.channel_epoch none)
  | none => return 0

/-- Adds the statistics of one more entry. -/
def add_stats (stats : ChannelStats) (e : EntryRef) :
    EStateM (TicketManagerError ε) (HoprTicketManager Q) ChannelStats := do
  let unredeemed ← on_entry e unredeemed_value
  let queue := ((← get).entries.cell e).stats
  return {
    winning_tickets := queue.winning_tickets + stats.winning_tickets
    unredeemed_value := unredeemed + stats.unredeemed_value
    rejected_value := queue.rejected_value + stats.rejected_value
    neglected_value := queue.neglected_value + stats.neglected_value }

/-- The statistics of one channel, or of all of them. -/
def ticket_stats (channel : Option ChannelId) :
    EStateM (TicketManagerError ε) (HoprTicketManager Q) ChannelStats := do
  let s ← get
  (s.channel_tickets.entries.filter fun e => channel.all (· = e.1)).foldlM
    (fun stats e => add_stats stats e.2) .empty

end Queue

/-- Takes the redeem lock of the channel's entry. -/
def redeem_stream (channel_id : ChannelId) (min_amount : Option HoprBalance) :
    EStateM (TicketManagerError ε) (HoprTicketManager Q) RedeemState := do
  let s ← get
  match s.channel_tickets.lookup channel_id with
  | some e =>
    if (s.entries.cell e).redeem_lock then throw .AlreadyRedeeming
    set (s.set_redeem_lock e true)
    return ⟨e, min_amount.getD 0, channel_id, none⟩
  | none => throw .ChannelQueueNotFound

theorem redeem_stream_cases (channel_id : ChannelId) (min_amount : Option HoprBalance)
    (s : HoprTicketManager Q) :
    (s.channel_tickets.lookup channel_id = none ∧
      (redeem_stream (ε := ε) channel_id min_amount).run s = .error .ChannelQueueNotFound s) ∨
    (∃ e, s.channel_tickets.lookup channel_id = some e ∧ (s.entries.cell e).redeem_lock = true ∧
      (redeem_stream (ε := ε) channel_id min_amount).run s = .error .AlreadyRedeeming s) ∨
    (∃ e, s.channel_tickets.lookup channel_id = some e ∧ (s.entries.cell e).redeem_lock = false ∧
      (redeem_stream (ε := ε) channel_id min_amount).run s =
        .ok ⟨e, min_amount.getD 0, channel_id, none⟩ (s.set_redeem_lock e true)) := by
  unfold redeem_stream
  cases he : s.channel_tickets.lookup channel_id with
  | none => exact Or.inl ⟨rfl, by simp only [EStateM.run_bind, EStateM.run_get, he]; rfl⟩
  | some e =>
    cases hlock : (s.entries.cell e).redeem_lock with
    | true =>
      refine Or.inr (Or.inl ⟨e, rfl, hlock, ?_⟩)
      simp only [EStateM.run_bind, EStateM.run_get, he, hlock]
      rfl
    | false =>
      refine Or.inr (Or.inr ⟨e, rfl, hlock, ?_⟩)
      simp only [EStateM.run_bind, EStateM.run_get, he, hlock]
      rfl

end HoprTicketManager

/-- `TicketFactory::remaining_incoming_channel_stake`, for a factory whose manager is `queue_map`
unless it was dropped. -/
def HoprTicketFactory.remaining_incoming_channel_stake {Q ε : Type} [TicketQueue Q ε]
    (queue_map : Option (HoprTicketManager Q)) (channel : ChannelEntry) :
    Except (TicketManagerError ε) HoprBalance :=
  match queue_map with
  | some s =>
    match (HoprTicketManager.unrealized_value channel.id none).run s with
    | .ok value _ => .ok (channel.balance - value.getD 0)
    | .error e _ => .error e
  | none => .ok channel.balance

end Hopr.TicketManager
