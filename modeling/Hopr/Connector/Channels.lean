import Hopr.Connector.Sequencer
import Hopr.TicketManager.Ticket

/-! Channels and what is broadcast about them.

A channel update is stored in the backend, which hands back the entry it
replaces. The update of a channel that was not stored yet is broadcast as
`ChannelOpened`; otherwise each change from the entry before is turned into an
event, or into none (`change_events`). How entries are compared and which
direction a channel has for a node is not part of the repository: `changed` is
the documented outcome of the one in one order, `directed` that of the other. -/
namespace Hopr.Connector
open TicketManager (HoprBalance ChannelId VerifiedTicket)

inductive ChannelStatus where
  | Closed
  | Open
  | PendingToClose (closure_time : Nat)
deriving DecidableEq

inductive ChannelStatusDiscriminants where
  | Closed
  | Open
  | PendingToClose
deriving DecidableEq

def ChannelStatus.discriminant : ChannelStatus → ChannelStatusDiscriminants
  | Closed => .Closed
  | Open => .Open
  | PendingToClose _ => .PendingToClose

inductive ChannelDirection where
  | Incoming
  | Outgoing
deriving DecidableEq

structure ChannelEntry where
  id : ChannelId
  source : Address
  destination : Address
  balance : HoprBalance
  ticket_index : UInt64
  status : ChannelStatus
  channel_epoch : UInt32
deriving DecidableEq

/-- Outgoing from its source, incoming at its destination. -/
def directed (channel : ChannelEntry) (me : Address) : Option ChannelDirection :=
  if channel.source = me then some .Outgoing
  else if channel.destination = me then some .Incoming
  else none

/-- A channel from one node to another whose hash and addresses are one byte. -/
def ChannelEntry.of (id : UInt8) (status : ChannelStatus) (balance : Nat) : ChannelEntry :=
  ⟨⟨[id]⟩, ⟨[2]⟩, ⟨[1]⟩, .ofNat balance, 0, status, 1⟩

inductive ChannelChange where
  | Status (left right : ChannelStatus)
  | Balance (left right : HoprBalance)
  | TicketIndex (left right : UInt64)
  | Epoch (left right : UInt32)
deriving DecidableEq

/-- One change for each field that differs. -/
def changed (old new : ChannelEntry) : List ChannelChange :=
  (if old.status = new.status then [] else [.Status old.status new.status]) ++
  (if old.balance = new.balance then [] else [.Balance old.balance new.balance]) ++
  (if old.ticket_index = new.ticket_index then [] else [.TicketIndex old.ticket_index new.ticket_index]) ++
  if old.channel_epoch = new.channel_epoch then [] else [.Epoch old.channel_epoch new.channel_epoch]

inductive ChainEvent where
  | ChannelOpened (channel : ChannelEntry)
  | ChannelClosureInitiated (channel : ChannelEntry)
  | ChannelClosed (channel : ChannelEntry)
  | ChannelBalanceIncreased (channel : ChannelEntry) (amount : HoprBalance)
  | ChannelBalanceDecreased (channel : ChannelEntry) (amount : HoprBalance)
  | TicketRedeemed (channel : ChannelEntry) (ticket : Option VerifiedTicket)
deriving DecidableEq

section Events
variable (diff : ChannelEntry → ChannelEntry → List ChannelChange)
  (direction : ChannelEntry → Address → Option ChannelDirection)

/-- What is broadcast for one change. -/
def change_events (new_channel : ChannelEntry) (me : Address) : ChannelChange → List ChainEvent
  | .Status .Open (.PendingToClose _) => [.ChannelClosureInitiated new_channel]
  | .Status (.PendingToClose _) .Closed => [.ChannelClosed new_channel]
  | .Status .Closed .Open => [.ChannelOpened new_channel]
  | .Balance left right =>
    if right < left then [.ChannelBalanceDecreased new_channel (left - right)]
    else [.ChannelBalanceIncreased new_channel (right - left)]
  | .TicketIndex left right =>
    if left < right then
      match direction new_channel me with
      -- The ticket redeem tracker raises the event.
      | some .Incoming => []
      | some .Outgoing | none => [.TicketRedeemed new_channel none]
    else []
  | _ => []

def process_channel_changes_into_events (new_channel : ChannelEntry) (changes : List ChannelChange)
    (me : Address) : List ChainEvent :=
  changes.flatMap (change_events direction new_channel me)

/-- What is broadcast for an update, given the entry it replaced. -/
def update_events (me : Address) (new_channel : ChannelEntry) : Option ChannelEntry → List ChainEvent
  | some old => process_channel_changes_into_events direction new_channel (diff old new_channel) me
  | none => [.ChannelOpened new_channel]

end Events

/-- The stored channels; `insert_channel` hands back the entry that was there. -/
abbrev StoredChannels := ChannelId → Option ChannelEntry

def insert_channel (channel : ChannelEntry) (stored : StoredChannels) :
    Option ChannelEntry × StoredChannels :=
  (stored channel.id, Function.update stored channel.id (some channel))

end Hopr.Connector
