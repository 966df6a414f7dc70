import Hopr.Library.Locks
import Hopr.Library.Machine
import Hopr.TicketManager.Ticket

/-! The locks of the manager.

The manager has a lock on the store and, inside the map of its entries, one on
each of the map's shards. Calls that run on threads of their own take and
release them one at a time (`tick`); a call holds the locks its `Call` says, and
`Hopr.Library.Locking` says when it has to wait for the one it takes next. What
a call does between taking two locks is reduced to whether the backend fails
and to which channels have a queue in the store and an entry in the map: that
decides which locks are taken. -/
namespace Hopr.TicketManager.MapLocks
open Library

/-- The map: a fixed number of shards, and the hash that says on which a channel is. -/
class DashMap where
  shard_amount : Nat
  determine_map : ChannelId → Fin shard_amount

/-- The place of a channel's shard. -/
def DashMap.shard [DashMap] (id : ChannelId) : Nat := (determine_map id).val

inductive Lock where
  | store
  | shard (i : Nat)
deriving DecidableEq

/-- What a synchronization does with one channel: its queue is deleted and the entry removed, or
the queue is opened and a new entry inserted. -/
inductive Work where
  | purge (id : ChannelId)
  | load (id : ChannelId)
deriving DecidableEq

def Work.id : Work → ChannelId
  | purge id => id
  | load id => id

/-- How far a call is; each constructor is named after what was done last. -/
inductive Call where
  | insert_incoming_ticket (id : ChannelId)
  /-- The entry is occupied, and its queue is being worked on. -/
  | insert_occupied (id : ChannelId)
  | insert_vacant (id : ChannelId)
  | insert_locked (id : ChannelId)
  /-- The channel's queue was opened in the store. -/
  | insert_opened (id : ChannelId)
  /-- The new entry is in the map, whose lock was consumed with it. -/
  | insert_placed (id : ChannelId)
  /-- An error is returned: the guard of the store is dropped before that of the entry. -/
  | insert_failed (id : ChannelId)
  | sync_from_incoming_channels (open_channels : List ChannelId)
  /-- The store is held for reading, with a right to upgrade, and its queues are being listed. -/
  | sync_listing (todo : List Work)
  /-- The channels of `todo` are left. -/
  | sync_read (todo : List Work)
  | sync_write (work : Work) (todo : List Work)
  | sync_pruning (id : ChannelId) (todo : List Work)
  /-- The store was downgraded, and the queue that was opened is being counted. -/
  | sync_opened (id : ChannelId) (todo : List Work)
  /-- The map is to be changed. -/
  | sync_stored (work : Work) (todo : List Work)
  | sync_mapped (work : Work) (todo : List Work)
  | neglect_tickets (id : ChannelId)
  | redeem_stream (id : ChannelId)
  /-- An entry was found by `neglect_tickets` or `redeem_stream`. -/
  | found (id : ChannelId)
  | ticket_stats
  /-- The iterator is in a shard. -/
  | stats_shard (i : Nat)
  /-- It is through with the shard, whose guard it keeps until it has that of the next. -/
  | stats_through (i : Nat)
  | stats_next (i : Nat)
  | done
deriving DecidableEq

namespace Call
variable [DashMap]

def held : Call → List (Lock × Mode)
  | insert_occupied id => [(.shard (DashMap.shard id), .write)]
  | insert_vacant id => [(.shard (DashMap.shard id), .write)]
  | insert_locked id => [(.shard (DashMap.shard id), .write), (.store, .write)]
  | insert_opened id => [(.shard (DashMap.shard id), .write), (.store, .write)]
  | insert_placed _ => [(.store, .write)]
  | insert_failed id => [(.shard (DashMap.shard id), .write)]
  | sync_listing _ => [(.store, .upgradable)]
  | sync_read _ => [(.store, .upgradable)]
  | sync_write _ _ => [(.store, .write)]
  | sync_pruning _ _ => [(.store, .write)]
  | sync_opened _ _ => [(.store, .upgradable)]
  | sync_stored _ _ => [(.store, .upgradable)]
  | sync_mapped work _ => [(.store, .upgradable), (.shard (DashMap.shard work.id), .write)]
  | found id => [(.shard (DashMap.shard id), .read)]
  | stats_shard i => [(.shard i, .read)]
  | stats_through i => [(.shard i, .read)]
  | stats_next i => [(.shard i, .read), (.shard (i + 1), .read)]
  | _ => []

/-- The lock a call takes next. -/
def wanted : Call → Option (Lock × Mode)
  | insert_incoming_ticket id => some (.shard (DashMap.shard id), .write)
  | insert_vacant _ => some (.store, .write)
  | sync_from_incoming_channels _ => some (.store, .upgradable)
  | sync_read (_ :: _) => some (.store, .write)
  | sync_stored work _ => some (.shard (DashMap.shard work.id), .write)
  | neglect_tickets id => some (.shard (DashMap.shard id), .read)
  | redeem_stream id => some (.shard (DashMap.shard id), .read)
  | ticket_stats => some (.shard 0, .read)
  | stats_through i => if i + 1 < DashMap.shard_amount then some (.shard (i + 1), .read) else none
  | _ => none

instance locking : Locking Call Lock := ⟨held, wanted, fun c => c = done⟩

end Call

structure LockState where
  calls : List Call
  /-- The channels that have a queue in the store. -/
  stored_queues : List ChannelId
  /-- The channels that have an entry in the map. -/
  channel_tickets : List ChannelId
deriving DecidableEq

namespace LockState

/-- The channels a synchronization goes through: those stored that are not open, and those open. -/
def work (stored_queues open_channels : List ChannelId) : List Work :=
  (stored_queues.filter (· ∉ open_channels)).map .purge ++ open_channels.map .load

/-- The requests a call can be made for. -/
inductive Request where
  | insert_incoming_ticket (id : ChannelId)
  | sync_from_incoming_channels (open_channels : List ChannelId)
  | neglect_tickets (id : ChannelId)
  | redeem_stream (id : ChannelId)
  | ticket_stats
deriving DecidableEq

def Request.call : Request → Call
  | insert_incoming_ticket id => .insert_incoming_ticket id
  | sync_from_incoming_channels open_channels => .sync_from_incoming_channels open_channels
  | neglect_tickets id => .neglect_tickets id
  | redeem_stream id => .redeem_stream id
  | ticket_stats => .ticket_stats

inductive Action where
  | start (request : Request)
  /-- The call at place `i` takes its next step; `ok` says whether the backend answers. -/
  | tick (i : Nat) (ok : Bool)

/-- What a call does once it has the lock it wanted. -/
def advance [DashMap] (s : LockState) (ok : Bool) : Call → Option (Call × LockState)
  | .insert_incoming_ticket id =>
    if id ∈ s.channel_tickets then some (.insert_occupied id, s) else some (.insert_vacant id, s)
  | .insert_occupied _ => some (.done, s)
  | .insert_vacant id => some (.insert_locked id, s)
  | .insert_locked id =>
    if ok then some (.insert_opened id, {s with stored_queues := s.stored_queues.insert id})
    else some (.insert_failed id, s)
  | .insert_opened id =>
    if ok then some (.insert_placed id, {s with channel_tickets := s.channel_tickets.insert id})
    else some (.insert_failed id, s)
  | .insert_placed _ => some (.done, s)
  | .insert_failed _ => some (.done, s)
  | .sync_from_incoming_channels open_channels =>
    some (.sync_listing (work s.stored_queues open_channels), s)
  | .sync_listing todo => if ok then some (.sync_read todo, s) else some (.done, s)
  | .sync_read [] => some (.done, s)
  | .sync_read (w :: todo) => some (.sync_write w todo, s)
  | .sync_write (.purge id) todo =>
    if ok then some (.sync_stored (.purge id) todo, {s with stored_queues := s.stored_queues.erase id})
    else some (.done, s)
  | .sync_write (.load id) todo =>
    if ok then some (.sync_pruning id todo, {s with stored_queues := s.stored_queues.insert id})
    else some (.done, s)
  | .sync_pruning id todo => if ok then some (.sync_opened id todo, s) else some (.done, s)
  | .sync_opened id todo => if ok then some (.sync_stored (.load id) todo, s) else some (.done, s)
  | .sync_stored (.purge id) todo =>
    some (.sync_mapped (.purge id) todo, {s with channel_tickets := s.channel_tickets.erase id})
  | .sync_stored (.load id) todo =>
    some (.sync_mapped (.load id) todo, {s with channel_tickets := s.channel_tickets.insert id})
  | .sync_mapped _ todo => some (.sync_read todo, s)
  | .neglect_tickets id => some (.found id, s)
  | .redeem_stream id => some (.found id, s)
  | .found _ => some (.done, s)
  | .ticket_stats => some (.stats_shard 0, s)
  | .stats_shard i => if ok then some (.stats_through i, s) else some (.done, s)
  | .stats_through i =>
    if i + 1 < DashMap.shard_amount then some (.stats_next i, s) else some (.done, s)
  | .stats_next i => some (.stats_shard (i + 1), s)
  | .done => none

def step [DashMap] (s : LockState) : Action → Option LockState
  | .start request => some {s with calls := s.calls ++ [request.call]}
  | .tick i ok => do
    let c ← s.calls[i]?
    if waiting s.calls i c then none else do
    let (c', s') ← s.advance ok c
    return {s' with calls := s.calls.set i c'}

def machine [DashMap] : Machine LockState Action := ⟨step⟩

end LockState

end Hopr.TicketManager.MapLocks
