import Hopr.TicketManager.Manager

/-! Synchronizing the manager with the incoming channels.

`sync_from_incoming_channels` first deletes the stored queues of channels that
are not open any more, and with each the channel's entry. Then it opens the
queue of every open channel, prunes the tickets that are outdated, counts what
is left in a new value cache and puts a new entry into the map. It holds the
lock of the store throughout, but an entry's lock never, so its steps on the
store and on the map interleave with the calls of others; `sync_tick` is one
such step, and `sync_from_incoming_channels` all of them in a row. -/
namespace Hopr.TicketManager
open Library TicketQueue HoprTicketManager

/-- `ChannelEntry::closure_time_passed`: the channel is closed, or its closure period has elapsed
at the given time. -/
class ChannelClock where
  closure_time_passed : ChannelEntry → Nat → Bool

/-- The clock of the chain types. -/
@[reducible] def ChannelClock.by_status : ChannelClock :=
  ⟨fun channel now =>
    match channel.status with
    | .Open => false
    | .PendingToClose closure_time => closure_time ≤ now
    | .Closed => true⟩

/-- Where a synchronization is. -/
inductive SyncStep where
  /-- Before the next stored queue is checked. -/
  | purge (stored_queues : List ChannelId)
  /-- The queue was deleted; before the channel's entry is removed. -/
  | remove (channel_id : ChannelId) (stored_queues : List ChannelId)
  /-- Before the queue of the next open channel is opened and pruned. -/
  | load (channels : List ChannelEntry)
  /-- Before the pruned queue is counted. -/
  | count (id : ChannelId) (queue : QueueRef) (channels : List ChannelEntry)
  /-- Before the new entry is put into the map. -/
  | replace (id : ChannelId) (queue : ValueCachedQueue QueueRef) (channels : List ChannelEntry)

/-- The channel whose entry the next step removes or replaces. -/
def unseats : SyncStep → Option ChannelId
  | .remove channel_id _ => some channel_id
  | .replace id _ _ => some id
  | _ => none

/-- A synchronization under way. -/
structure Synchronizing where
  incoming_channels : List ChannelEntry
  now : Nat
  neglected : List VerifiedTicket
  at_step : SyncStep

section Prune
variable {Q ε : Type} [TicketQueue Q ε]

/-- The ticket is unredeemable: of an old epoch, or below the channel's current index. -/
def outdated (channel : ChannelEntry) (t : RedeemableTicket) : Bool :=
  t.verified_ticket.channel_epoch < channel.channel_epoch ∨
    t.verified_ticket.index < channel.ticket_index

def prune_loop (channel : ChannelEntry) : Nat → EStateM ε Q (List VerifiedTicket)
  | 0 => pure []
  | n + 1 => do
    match ← peek with
    | some ticket =>
      if outdated channel ticket then do
        let popped ← pop
        let rest ← prune_loop channel n
        return popped.toList.map (·.ticket) ++ rest
      else return []
    | none => return []

/-- Pops tickets while the next one is outdated; every stored ticket takes one turn at most. -/
def prune (channel : ChannelEntry) : EStateM ε Q (List VerifiedTicket) := do
  let q ← get
  prune_loop channel ((tickets q).length + 1)

theorem prune_loop_run [TotalTicketQueue Q] (channel : ChannelEntry) (n : Nat) (q : Q)
    (hn : (tickets q).length < n) :
    ∃ q', (prune_loop channel n).run q =
      .ok (((tickets q).takeWhile (outdated channel)).map (·.ticket)) q' ∧
      tickets q' = (tickets q).dropWhile (outdated channel) := by
  induction n generalizing q with
  | zero => exact absurd hn (Nat.not_lt_zero _)
  | succ n ih =>
    simp only [prune_loop, EStateM.run_bind, peek_run]
    cases hq : tickets q with
    | nil => exact ⟨q, rfl, hq⟩
    | cons t rest =>
      by_cases ho : outdated channel t = true
      · have hrest : tickets (popped q) = rest := by rw [tickets_popped, hq, List.tail_cons]
        rw [hq, List.length_cons] at hn
        obtain ⟨q', hrun, hl⟩ := ih (popped q) (by rw [hrest]; exact Nat.lt_of_succ_lt_succ hn)
        rw [hrest] at hrun hl
        refine ⟨q', ?_, by rw [hl, List.dropWhile_cons_of_pos ho]⟩
        simp only [List.head?_cons, if_pos ho, EStateM.run_bind, pop_run, hrun, hq, EStateM.run_pure,
          Option.toList_some, List.map_cons, List.map_nil, List.singleton_append,
          List.takeWhile_cons_of_pos ho]
      · refine ⟨q, ?_, by rw [hq, List.dropWhile_cons_of_neg ho]⟩
        simp only [List.head?_cons, if_neg ho, EStateM.run_pure, List.map_nil, List.takeWhile_cons_of_neg ho]

/-- Pruning takes the outdated tickets in front of the queue and returns them. -/
theorem prune_run [TotalTicketQueue Q] (channel : ChannelEntry) (q : Q) :
    ∃ q', (prune channel).run q = .ok (((tickets q).takeWhile (outdated channel)).map (·.ticket)) q' ∧
      tickets q' = (tickets q).dropWhile (outdated channel) := by
  simpa only [prune, EStateM.run_bind, EStateM.run_get] using
    prune_loop_run channel _ q (Nat.lt_succ_self _)

end Prune

section Tick
variable [ChannelClock]

/-- The channels that are open or whose closure period has not elapsed. -/
def Synchronizing.open_channels (y : Synchronizing) : List ChannelEntry :=
  y.incoming_channels.filter fun channel => !ChannelClock.closure_time_passed channel y.now

variable {Q ε : Type} [TicketQueue Q ε] [CreatableQueue Q]

/-- The next step of a synchronization, or `none` at its end. -/
def sync_tick (y : Synchronizing) :
    EStateM (TicketManagerError ε) (HoprTicketManager Q) (Option Synchronizing) :=
  match y.at_step with
  | .purge [] => return some {y with at_step := .load y.open_channels}
  | .purge (channel_id :: stored_queues) =>
    if y.open_channels.any (·.id = channel_id) then
      return some {y with at_step := .purge stored_queues}
    else do
      let neglected ← onStore (TicketStore.delete_queue channel_id)
      return some {y with
        neglected := y.neglected ++ neglected
        at_step := .remove channel_id stored_queues}
  | .remove channel_id stored_queues => do
    modify fun s => {s with channel_tickets := s.channel_tickets.erase channel_id}
    return some {y with at_step := .purge stored_queues}
  | .load [] => return none
  | .load (channel :: channels) => do
    let queue ← onStore (TicketStore.open_or_create_queue channel.id)
    let neglected ← onStore (TicketStore.on_queue queue (prune channel))
    return some {y with
      neglected := y.neglected ++ neglected
      at_step := .count channel.id queue channels}
  | .count id queue channels => do
    let queue ← onStore (TicketStore.on_queue queue (ValueCachedQueue.new queue))
    return some {y with at_step := .replace id queue channels}
  | .replace id queue channels => do
    let c ← onStore (new_entry queue)
    modify (place id c)
    return some {y with at_step := .load channels}

/-- The steps of a synchronization one after another, at most `n` of them. -/
def sync_loop : Nat → Synchronizing →
    EStateM (TicketManagerError ε) (HoprTicketManager Q) (List VerifiedTicket)
  | 0, y => pure y.neglected
  | n + 1, y => do
    match ← sync_tick y with
    | some y' => sync_loop n y'
    | none => return y.neglected

/-- `sync_from_incoming_channels`, with nobody else at the manager: two steps at most for each stored
queue and three for each open channel. -/
def HoprTicketManager.sync_from_incoming_channels (incoming_channels : List ChannelEntry) (now : Nat) :
    EStateM (TicketManagerError ε) (HoprTicketManager Q) (List VerifiedTicket) := do
  let stored_queues ← onStore TicketStore.iter_queues
  let y : Synchronizing := ⟨incoming_channels.dedup, now, [], .purge stored_queues⟩
  sync_loop (2 * stored_queues.length + 1 + (3 * y.open_channels.length + 1)) y

end Tick

end Hopr.TicketManager
