import Hopr.Library.Machine
import Hopr.TicketManager.Sync

/-! The manager in operation.

Calls on any channels interleave: insertions, calls of `neglect_tickets` that
take the tickets one by one, redeem streams that peek a ticket, ask the chain
and later complete, and may be dropped at any moment, and a synchronization
that goes on step by step. A call of `neglect_tickets` and a stream work on the
entry they looked up, whatever has become of the map since.

The state keeps a record of what was inserted, of the tickets that some call
returned as neglected and of the results that streams handed out. -/
namespace Hopr.TicketManager.Operation
open Library TicketQueue QueueWithStats HoprTicketManager

/-- A call of `neglect_tickets` under way. -/
structure Neglecting where
  channel_id : ChannelId
  queue : EntryRef
  max_index : UInt64
  neglected_tickets : List VerifiedTicket

structure State (Q : Type) where
  manager : HoprTicketManager Q
  /-- The streams in the order in which they were created; `none` once one is gone. -/
  streams : List (Option RedeemState)
  neglecting : List (Option Neglecting)
  sync : Option Synchronizing
  /-- The tickets inserted so far. -/
  inserted : List RedeemableTicket
  /-- The tickets that were returned as neglected so far. -/
  neglected : List VerifiedTicket
  /-- The tickets that were handed a terminal result so far, with the result. -/
  results : List (RedeemableTicket × RedemptionResult)

inductive Action where
  | insert_incoming_ticket (ticket : RedeemableTicket)
  /-- The call looks the entry up. -/
  | neglect_tickets (channel_id : ChannelId) (up_to_index : Option UInt64)
  /-- One turn of the loop of the `j`-th call. -/
  | neglect_next (j : Nat)
  | redeem_stream (channel_id : ChannelId) (min_amount : Option HoprBalance)
  /-- The `i`-th stream is polled: it peeks and starts the chain call. -/
  | peek (i : Nat)
  /-- The chain call of the `i`-th stream is over. -/
  | complete (i : Nat) (chain : ChainResult)
  | drop (i : Nat)
  | sync_from_incoming_channels (incoming_channels : List ChannelEntry) (now : Nat)
  /-- The synchronization takes its next step. -/
  | sync_tick

def start {Q : Type} (store : TicketStore Q) : State Q := ⟨.new store, [], [], none, [], [], []⟩

/-- The `i`-th stream is gone and its lock released. -/
def State.close {Q : Type} (i : Nat) (r : RedeemState) (s : State Q) : State Q :=
  {s with manager := s.manager.set_redeem_lock r.lock false, streams := s.streams.set i none}

section Machine
variable {Q ε : Type}

/-- While a synchronization holds the lock of the store, the first ticket of a channel waits. -/
def waits (t : RedeemableTicket) (s : State Q) : Bool :=
  s.sync.isSome ∧ (s.manager.channel_tickets.lookup t.ticket.channel_id).isNone

variable [TicketQueue Q ε]

def insert_step [CreatableQueue Q] (t : RedeemableTicket) (s : State Q) : State Q :=
  match (insert_incoming_ticket t).run s.manager with
  | .ok neglected m => {s with
      manager := m, inserted := s.inserted ++ [t], neglected := s.neglected ++ neglected}
  | .error _ m => {s with manager := m}

/-- Without an entry the call fails with `ChannelQueueNotFound`. -/
def neglect_step [TicketBuilder] (channel_id : ChannelId) (up_to_index : Option UInt64)
    (s : State Q) : State Q :=
  match s.manager.channel_tickets.lookup channel_id with
  | some e => {s with neglecting := s.neglecting ++
      [some ⟨channel_id, e, up_to_index.getD TicketBuilder.MAX_TICKET_INDEX, []⟩]}
  | none => s

def neglect_next_step (j : Nat) (c : Neglecting) (s : State Q) : State Q :=
  match (on_entry c.queue (neglect_next c.max_index)).run s.manager with
  | .ok (some neglected) m => {s with
      manager := m
      neglecting := s.neglecting.set j
        (some {c with neglected_tickets := c.neglected_tickets ++ neglected})}
  | .ok none m => {s with
      manager := m
      neglecting := s.neglecting.set j none
      neglected := s.neglected ++ c.neglected_tickets}
  | .error _ m => {s with manager := m, neglecting := s.neglecting.set j none}

def redeem_stream_step (channel_id : ChannelId) (min_amount : Option HoprBalance) (s : State Q) :
    State Q :=
  match (redeem_stream (ε := ε) channel_id min_amount).run s.manager with
  | .ok r m => {s with manager := m, streams := s.streams ++ [some r]}
  | .error _ m => {s with manager := m}

/-- The stream ends when there is no ticket to redeem. -/
def peek_step (i : Nat) (r : RedeemState) (s : State Q) : State Q :=
  match (on_entry r.lock (onQueue TicketQueue.peek)).run s.manager with
  | .ok (some t) m => {s with manager := m, streams := s.streams.set i (some {r with in_flight := some t})}
  | .ok none m => State.close i r {s with manager := m}
  | .error _ m => State.close i r {s with manager := m}

/-- The stream goes on after a terminal result and ends with an error otherwise. -/
def complete_step (i : Nat) (r : RedeemState) (t : RedeemableTicket) (chain : ChainResult)
    (s : State Q) : State Q :=
  match redeem_attempt (ε := ε) r.min_redeem_value t chain with
  | .error _ => s.close i r
  | .ok result =>
    match (on_entry r.lock (complete_redeem t result)).run s.manager with
    | .ok _ m => {s with
        manager := m
        streams := s.streams.set i (some {r with in_flight := none})
        results := s.results ++ [(t, result)]}
    | .error _ m => State.close i r {s with manager := m}

def sync_step [CreatableQueue Q] [ChannelClock] (y : Synchronizing) (s : State Q) : State Q :=
  match (Hopr.TicketManager.sync_tick y).run s.manager with
  | .ok (some y') m => {s with manager := m, sync := some y'}
  | .ok none m => {s with manager := m, sync := none, neglected := s.neglected ++ y.neglected}
  | .error _ m => {s with manager := m, sync := none}

def step [CreatableQueue Q] [TicketBuilder] [ChannelClock] (s : State Q) :
    Action → Option (State Q)
  | .insert_incoming_ticket t => if waits t s then none else some (insert_step t s)
  | .neglect_tickets channel_id up_to_index => some (neglect_step channel_id up_to_index s)
  | .neglect_next j =>
    match s.neglecting[j]? with
    | some (some c) => some (neglect_next_step j c s)
    | _ => none
  | .redeem_stream channel_id min_amount => some (redeem_stream_step (ε := ε) channel_id min_amount s)
  | .peek i =>
    match s.streams[i]? with
    | some (some ⟨lock, min, id, none⟩) => some (peek_step i ⟨lock, min, id, none⟩ s)
    | _ => none
  | .complete i chain =>
    match s.streams[i]? with
    | some (some ⟨lock, min, id, some t⟩) => some (complete_step i ⟨lock, min, id, some t⟩ t chain s)
    | _ => none
  | .drop i =>
    match s.streams[i]? with
    | some (some r) => some (s.close i r)
    | _ => none
  | .sync_from_incoming_channels incoming_channels now =>
    match s.sync with
    | none => some {s with
        sync := some ⟨incoming_channels.dedup, now, [], .purge s.manager.store.tickets.keys⟩}
    | some _ => none
  | .sync_tick =>
    match s.sync with
    | some y => some (sync_step y s)
    | none => none

def machine (Q : Type) {ε : Type} [TicketQueue Q ε] [CreatableQueue Q] [TicketBuilder]
    [ChannelClock] : Machine (State Q) Action := ⟨step⟩

/-- An insertion changes the manager and what is recorded. -/
theorem insert_step_eq [CreatableQueue Q] (t : RedeemableTicket) (s : State Q) :
    ∃ inserted neglected, insert_step t s = {s with
      manager := after (insert_incoming_ticket t) s.manager
      inserted := inserted
      neglected := neglected} := by
  unfold insert_step after
  cases (insert_incoming_ticket t).run s.manager with
  | ok neglected m => exact ⟨_, _, rfl⟩
  | error err m => exact ⟨_, _, rfl⟩

end Machine

end Hopr.TicketManager.Operation
