import Hopr.Library.Faults
import Hopr.TicketManager.Sync

/-! The manager over a backend that may fail.

Every call of a `Faulty` queue spends a fault bit and, where it is set, fails
without effect. `FaultyManager` is the manager over a store and queues that
share one supply of fault bits. Its calls are those of the manager: what runs on
one channel's queue is the same definition at the type `Faulty Q`, and what is
written here is how the calls on the store, on its queues and on the map follow
each other. A synchronization is one call here, from beginning to end. -/
namespace Hopr.TicketManager
open Library TicketQueue

inductive BackendError (ε : Type) where
  | Unavailable
  | Of (error : ε)
deriving DecidableEq

/-- A queue of which each call may fail. -/
structure Faulty (Q : Type) where
  queue : Q
  faults : Faults

namespace Faulty
variable {Q ε : Type}

instance : Faultable (Faulty Q) := ⟨faults⟩

def attempt {α : Type} (m : EStateM ε Q α) : EStateM (BackendError ε) (Faulty Q) α := fun s =>
  if s.faults 0 then .error .Unavailable {s with faults := s.faults.tail}
  else
    match m.run s.queue with
    | .ok a q => .ok a ⟨q, s.faults.tail⟩
    | .error e q => .error (.Of e) ⟨q, s.faults.tail⟩

theorem attempt_fault {α : Type} {m : EStateM ε Q α} {q : Faulty Q} (h : q.faults 0 = true) :
    (attempt m).run q = .error .Unavailable {q with faults := q.faults.tail} := by
  unfold attempt EStateM.run
  simp only [h, if_true]

theorem attempt_ok {α : Type} {m : EStateM ε Q α} {q : Faulty Q} {a : α} {q' : Q}
    (h : q.faults 0 = false) (hm : m.run q.queue = .ok a q') :
    (attempt m).run q = .ok a ⟨q', q.faults.tail⟩ := by
  unfold attempt
  simp only [EStateM.run] at hm ⊢
  simp only [h, Bool.false_eq_true, if_false, hm]

instance [TicketQueue Q ε] : TicketQueue (Faulty Q) (BackendError ε) where
  len := attempt len
  push ticket := attempt (push ticket)
  pop := attempt pop
  peek := attempt peek
  iter_unordered := do
    let tickets ← attempt iter_unordered
    return tickets.map fun t => t.mapError .Of
  tickets s := tickets s.queue

instance : Faultable (ValueCachedQueue (Faulty Q)) := ⟨fun v => v.queue.faults⟩

instance : Faultable (QueueWithStats (Faulty Q)) := ⟨fun c => c.queue.queue.faults⟩

/-! ### The value cache over a queue that may fail -/

section Cached
variable [TicketQueue Q ε] {v : ValueCachedQueue (Faulty Q)} {t : RedeemableTicket} {rest : List RedeemableTicket}

/-- The adapter when its queue gave up `t` and the new head was not read yet. -/
def debited (t : RedeemableTicket) (v : ValueCachedQueue (Faulty Q)) : ValueCachedQueue (Faulty Q) where
  queue := ⟨popped v.queue.queue, v.queue.faults.tail⟩
  value_cache :=
    ValueCachedQueue.debit t.verified_ticket.channel_epoch t.verified_ticket.amount v.value_cache
  current_epoch := v.current_epoch

/-- A pop that fails at once leaves the tickets and the cache. -/
theorem pop_fault (h : v.queue.faults 0 = true) :
    pop.run v = .error .Unavailable {v with queue := {v.queue with faults := v.queue.faults.tail}} := by
  have hinner := ValueCachedQueue.inner_error (v := v) (attempt_fault (m := pop) h)
  show ValueCachedQueue.pop.run v = _
  simp only [ValueCachedQueue.pop, EStateM.run_bind, pop, hinner]

variable [TotalTicketQueue Q]

theorem tickets_debited (hq : tickets v = t :: rest) : tickets (debited t v) = rest := by
  show tickets (popped v.queue.queue) = rest
  rw [tickets_popped]
  exact congrArg List.tail hq

/-- A pop that finds nothing. -/
theorem pop_nil (hq : tickets v = []) (h : v.queue.faults 0 = false) :
    pop.run v = .ok none {v with queue := ⟨popped v.queue.queue, v.queue.faults.tail⟩} := by
  have hpop := attempt_ok h (pop_run v.queue.queue)
  have hhead : (tickets v.queue.queue).head? = none := congrArg List.head? hq
  rw [hhead] at hpop
  have hinner := ValueCachedQueue.inner_run (v := v) hpop
  show ValueCachedQueue.pop.run v = _
  simp only [ValueCachedQueue.pop, EStateM.run_bind, pop, hinner, EStateM.run_pure]

/-- A pop of a ticket leaves the peek at the new head. -/
theorem pop_cons (hq : tickets v = t :: rest) (h : v.queue.faults 0 = false) : pop.run v =
    (do
      let next ← ValueCachedQueue.inner peek
      modify fun v => {v with current_epoch := next.map (·.verified_ticket.channel_epoch)}
      return some t : EStateM (BackendError ε) (ValueCachedQueue (Faulty Q)) _).run (debited t v) := by
  have hpop := attempt_ok h (pop_run v.queue.queue)
  have hhead : (tickets v.queue.queue).head? = some t := congrArg List.head? hq
  rw [hhead] at hpop
  have hinner := ValueCachedQueue.inner_run (v := v) hpop
  show ValueCachedQueue.pop.run v = _
  simp only [ValueCachedQueue.pop, EStateM.run_bind, pop, hinner, EStateM.run_modify]
  rfl

/-- A pop that takes a ticket. -/
theorem pop_taken (hq : tickets v = t :: rest) (h : v.queue.faults.Clear 2) :
    pop.run v = .ok (some t)
      { queue := ⟨popped v.queue.queue, v.queue.faults.drop 2⟩
        value_cache := (debited t v).value_cache
        current_epoch := rest.head?.map (·.verified_ticket.channel_epoch) } := by
  have hpeek := attempt_ok (q := (debited t v).queue) (h 1 (by decide)) (peek_run _)
  have hinner := ValueCachedQueue.inner_run (v := debited t v) hpeek
  rw [pop_cons hq (h 0 (by decide))]
  simp only [EStateM.run_bind, peek, hinner, EStateM.run_modify, EStateM.run_pure]
  rw [show tickets (debited t v).queue.queue = rest from tickets_debited hq]
  rfl

/-- A pop that takes a ticket and fails to read the new head. -/
theorem pop_unread (hq : tickets v = t :: rest) (h : v.queue.faults.FirstAt 1) :
    pop.run v = .error .Unavailable
      {debited t v with queue := ⟨popped v.queue.queue, v.queue.faults.drop 2⟩} := by
  have hpeek := attempt_fault (m := peek) (q := (debited t v).queue) h.1
  have hinner := ValueCachedQueue.inner_error (v := debited t v) hpeek
  rw [pop_cons hq (h.2 0 (by decide))]
  simp only [EStateM.run_bind, peek, hinner]
  rfl

end Cached

end Faulty

structure FaultyManager (Q : Type) where
  manager : HoprTicketManager Q
  faults : Faults

namespace FaultyManager
open QueueWithStats HoprTicketManager
variable {Q ε : Type}

instance : Faultable (FaultyManager Q) := ⟨faults⟩

/-- The entry, on a queue that may fail. -/
def view (s : FaultyManager Q) (e : EntryRef) : QueueWithStats (Faulty Q) :=
  let c := s.manager.view e
  {c with queue := c.queue.with_queue ⟨c.queue.queue, s.faults⟩}

def put (e : EntryRef) (c : QueueWithStats (Faulty Q)) (s : FaultyManager Q) : FaultyManager Q :=
  { manager := s.manager.put e {c with queue := c.queue.with_queue c.queue.queue.queue}
    faults := c.queue.queue.faults }

def set_queue (r : QueueRef) (q : Faulty Q) (s : FaultyManager Q) : FaultyManager Q :=
  { manager := {s.manager with
      store := {s.manager.store with queues := s.manager.store.queues.set r q.queue}}
    faults := q.faults }

/-- A call under the lock of an entry. -/
def on_entry {α : Type} (e : EntryRef)
    (m : EStateM (TicketManagerError (BackendError ε)) (QueueWithStats (Faulty Q)) α) :
    EStateM (TicketManagerError (BackendError ε)) (FaultyManager Q) α := fun s =>
  match m.run (s.view e) with
  | .ok a c => .ok a (s.put e c)
  | .error err c => .error err (s.put e c)

/-- A call of the store, which may fail as one. -/
def on_store {α : Type} (m : EStateM ε (TicketStore Q) α) :
    EStateM (TicketManagerError (BackendError ε)) (FaultyManager Q) α := fun s =>
  if s.faults 0 then .error (.StoreError .Unavailable) {s with faults := s.faults.tail}
  else
    match m.run s.manager.store with
    | .ok a st => .ok a ⟨{s.manager with store := st}, s.faults.tail⟩
    | .error e st => .error (.StoreError (.Of e)) ⟨{s.manager with store := st}, s.faults.tail⟩

theorem on_store_fault {α : Type} {m : EStateM ε (TicketStore Q) α} {s : FaultyManager Q}
    (h : s.faults 0 = true) :
    (on_store m).run s = .error (.StoreError .Unavailable) {s with faults := s.faults.tail} := by
  unfold on_store EStateM.run
  simp only [h, if_true]

theorem on_store_ok {α : Type} {m : EStateM ε (TicketStore Q) α} {s : FaultyManager Q} {a : α}
    {st : TicketStore Q} (h : s.faults 0 = false) (hm : m.run s.manager.store = .ok a st) :
    (on_store m).run s = .ok a ⟨{s.manager with store := st}, s.faults.tail⟩ := by
  unfold on_store
  simp only [EStateM.run] at hm ⊢
  simp only [h, Bool.false_eq_true, if_false, hm]

/-- Calls on the queue behind a handle. -/
def on_queue {α : Type} (r : QueueRef) (m : EStateM (BackendError ε) (Faulty Q) α) :
    EStateM (TicketManagerError (BackendError ε)) (FaultyManager Q) α := fun s =>
  match m.run ⟨s.manager.store.queues.cell r, s.faults⟩ with
  | .ok a q => .ok a (s.set_queue r q)
  | .error e q => .error (.StoreError e) (s.set_queue r q)

theorem on_queue_ok {α : Type} {r : QueueRef} {m : EStateM (BackendError ε) (Faulty Q) α}
    {s : FaultyManager Q} {a : α} {q : Faulty Q}
    (h : m.run ⟨s.manager.store.queues.cell r, s.faults⟩ = .ok a q) :
    (on_queue r m).run s = .ok a (s.set_queue r q) := by
  unfold on_queue
  simp only [EStateM.run] at h ⊢
  rw [h]

theorem on_queue_error {α : Type} {r : QueueRef} {m : EStateM (BackendError ε) (Faulty Q) α}
    {s : FaultyManager Q} {e : BackendError ε} {q : Faulty Q}
    (h : m.run ⟨s.manager.store.queues.cell r, s.faults⟩ = .error e q) :
    (on_queue r m).run s = .error (.StoreError e) (s.set_queue r q) := by
  unfold on_queue
  simp only [EStateM.run] at h ⊢
  rw [h]

/-- Calls on the value cache `v`, which is returned as they leave it. -/
def on_cached {α : Type} (v : ValueCachedQueue QueueRef)
    (m : EStateM (BackendError ε) (ValueCachedQueue (Faulty Q)) α) :
    EStateM (TicketManagerError (BackendError ε)) (FaultyManager Q)
      (α × ValueCachedQueue QueueRef) := fun s =>
  match m.run (v.with_queue ⟨s.manager.store.queues.cell v.queue, s.faults⟩) with
  | .ok a w => .ok (a, w.with_queue v.queue) (s.set_queue v.queue w.queue)
  | .error e w => .error (.StoreError e) (s.set_queue v.queue w.queue)

theorem on_cached_ok {α : Type} {v : ValueCachedQueue QueueRef}
    {m : EStateM (BackendError ε) (ValueCachedQueue (Faulty Q)) α} {s : FaultyManager Q} {a : α}
    {w : ValueCachedQueue (Faulty Q)}
    (h : m.run (v.with_queue ⟨s.manager.store.queues.cell v.queue, s.faults⟩) = .ok a w) :
    (on_cached v m).run s = .ok (a, w.with_queue v.queue) (s.set_queue v.queue w.queue) := by
  unfold on_cached
  simp only [EStateM.run] at h ⊢
  rw [h]

theorem on_cached_error {α : Type} {v : ValueCachedQueue QueueRef}
    {m : EStateM (BackendError ε) (ValueCachedQueue (Faulty Q)) α} {s : FaultyManager Q}
    {e : BackendError ε} {w : ValueCachedQueue (Faulty Q)}
    (h : m.run (v.with_queue ⟨s.manager.store.queues.cell v.queue, s.faults⟩) = .error e w) :
    (on_cached v m).run s = .error (.StoreError e) (s.set_queue v.queue w.queue) := by
  unfold on_cached
  simp only [EStateM.run] at h ⊢
  rw [h]

def on_manager (f : HoprTicketManager Q → HoprTicketManager Q) :
    EStateM (TicketManagerError (BackendError ε)) (FaultyManager Q) Unit :=
  modify fun s => {s with manager := f s.manager}

variable [TicketQueue Q ε]

/-- `ChannelTicketQueue::from`; if the queue cannot be counted it counts as empty. -/
def new_entry (queue : ValueCachedQueue QueueRef) :
    EStateM (TicketManagerError (BackendError ε)) (FaultyManager Q) ChannelTicketQueue := fun s =>
  match (on_queue queue.queue len).run s with
  | .ok n s' => .ok ⟨queue, {ChannelTicketStats.empty with winning_tickets := n}, false⟩ s'
  | .error _ s' => .ok ⟨queue, .empty, false⟩ s'

/-- `neglect_tickets`, with nobody else on the queue. -/
def neglect_tickets [TicketBuilder] (channel_id : ChannelId) (up_to_index : Option UInt64) :
    EStateM (TicketManagerError (BackendError ε)) (FaultyManager Q) (List VerifiedTicket) := do
  let s ← get
  match s.manager.channel_tickets.lookup channel_id with
  | some e => on_entry e (QueueWithStats.neglect_tickets up_to_index)
  | none => throw .ChannelQueueNotFound

variable [CreatableQueue Q]

/-- The entry for the first ticket of a channel. -/
def first_entry (ticket : RedeemableTicket) :
    EStateM (TicketManagerError (BackendError ε)) (FaultyManager Q) ChannelTicketQueue := do
  let r ← on_store (TicketStore.open_or_create_queue ticket.ticket.channel_id)
  let queue ← on_queue r (ValueCachedQueue.new r)
  if !(← on_queue r is_empty) then throw (.Other "fatal error: queue not empty")
  let (_, queue) ← on_cached queue (push ticket)
  new_entry queue

def insert_incoming_ticket (ticket : RedeemableTicket) :
    EStateM (TicketManagerError (BackendError ε)) (FaultyManager Q) (List VerifiedTicket) := do
  let s ← get
  match s.manager.channel_tickets.lookup ticket.ticket.channel_id with
  | some e => on_entry e (insert_occupied ticket)
  | none => do
    let c ← first_entry ticket
    on_manager (place ticket.ticket.channel_id c)
    return []

/-- Deletes the queues of the channels that are not open, and with each the channel's entry. -/
def purge (open_channels : List ChannelEntry) : List ChannelId →
    EStateM (TicketManagerError (BackendError ε)) (FaultyManager Q) (List VerifiedTicket)
  | [] => pure []
  | channel_id :: stored_queues =>
    if open_channels.any (·.id = channel_id) then purge open_channels stored_queues else do
      let neglected ← on_store (TicketStore.delete_queue channel_id)
      on_manager fun s => {s with channel_tickets := s.channel_tickets.erase channel_id}
      let rest ← purge open_channels stored_queues
      return neglected ++ rest

/-- Opens the queue of a channel, prunes it and puts a new entry into the map. The tickets are
counted for the log if it is enabled. -/
def load (log_enabled : Bool) (channel : ChannelEntry) :
    EStateM (TicketManagerError (BackendError ε)) (FaultyManager Q) (List VerifiedTicket) := do
  let r ← on_store (TicketStore.open_or_create_queue channel.id)
  let neglected ← on_queue r (prune channel)
  let queue ← on_queue r (ValueCachedQueue.new r)
  if log_enabled then discard (on_queue r len)
  let c ← new_entry queue
  on_manager (place channel.id c)
  return neglected

def load_all (log_enabled : Bool) : List ChannelEntry →
    EStateM (TicketManagerError (BackendError ε)) (FaultyManager Q) (List VerifiedTicket)
  | [] => pure []
  | channel :: channels => do
    let neglected ← load log_enabled channel
    let rest ← load_all log_enabled channels
    return neglected ++ rest

/-- The channels that are open or whose closure period has not elapsed. -/
def open_channels [ChannelClock] (incoming_channels : List ChannelEntry) (now : Nat) :
    List ChannelEntry :=
  incoming_channels.dedup.filter fun channel => !ChannelClock.closure_time_passed channel now

def sync_from_incoming_channels [ChannelClock] (log_enabled : Bool)
    (incoming_channels : List ChannelEntry) (now : Nat) :
    EStateM (TicketManagerError (BackendError ε)) (FaultyManager Q) (List VerifiedTicket) := do
  let stored_queues ← on_store TicketStore.iter_queues
  let purged ← purge (open_channels incoming_channels now) stored_queues
  let pruned ← load_all log_enabled (open_channels incoming_channels now)
  return purged ++ pruned

end FaultyManager

end Hopr.TicketManager
