import Mathlib.Data.Prod.Lex
import Hopr.TicketManager.Balance

/-! Tickets, channels and the errors of the ticket manager.

A ticket carries what the manager reads of it — its channel, epoch, index and
amount — and, as bytes, everything else (`body`: counterparty, winning
probability, challenge, signature), so that two tickets with the same epoch and
index can still differ. The natural order of the tickets of one channel is
lexicographic in epoch and index (`key`). -/
namespace Hopr.TicketManager

/-- The hash that identifies a channel. -/
structure ChannelId where
  bytes : List UInt8
deriving DecidableEq

structure VerifiedTicket where
  channel_id : ChannelId
  channel_epoch : UInt32
  index : UInt64
  amount : HoprBalance
  body : List UInt8
deriving DecidableEq

/-- A winning ticket that can still be redeemed on chain. -/
structure RedeemableTicket where
  ticket : VerifiedTicket
deriving DecidableEq

namespace RedeemableTicket

def verified_ticket (t : RedeemableTicket) : VerifiedTicket := t.ticket

/-- The place of a ticket in the natural order of its channel. -/
def key (t : RedeemableTicket) : ℕ ×ₗ ℕ :=
  toLex (t.verified_ticket.channel_epoch.toNat, t.verified_ticket.index.toNat)

theorem key_lt_iff {t u : RedeemableTicket} : t.key < u.key ↔
    t.verified_ticket.channel_epoch < u.verified_ticket.channel_epoch ∨
      t.verified_ticket.channel_epoch = u.verified_ticket.channel_epoch ∧
        t.verified_ticket.index < u.verified_ticket.index := by
  simp only [key, Prod.Lex.toLex_lt_toLex, UInt32.lt_iff_toNat_lt, UInt64.lt_iff_toNat_lt,
    UInt32.toNat_inj]

/-- A ticket of a channel whose hash is one byte. -/
def of (channel : UInt8) (epoch : UInt32) (index : UInt64) (amount : Nat) : RedeemableTicket :=
  ⟨⟨⟨[channel]⟩, epoch, index, .ofNat amount, []⟩⟩

/-- Within an epoch the natural order is that of the indices. -/
theorem key_le_iff_of_epoch_eq {t u : RedeemableTicket}
    (h : t.verified_ticket.channel_epoch = u.verified_ticket.channel_epoch) :
    t.key ≤ u.key ↔ t.verified_ticket.index ≤ u.verified_ticket.index := by
  rw [← not_lt, key_lt_iff, UInt64.le_iff_toNat_le, UInt64.lt_iff_toNat_lt]
  simp [h]

end RedeemableTicket

/-- The constant of the ticket builder that bounds the index of a ticket. -/
class TicketBuilder where
  MAX_TICKET_INDEX : UInt64

/-- Ticket indices of 48 bits. -/
@[reducible] def TicketBuilder.bits48 : TicketBuilder := ⟨0xFFFFFFFFFFFF⟩

/-- What came of a ticket that a redeem stream is done with. -/
inductive RedemptionResult where
  | Redeemed (ticket : VerifiedTicket)
  | ValueTooLow (ticket : VerifiedTicket)
  | RejectedOnChain (ticket : VerifiedTicket) (reason : String)
deriving DecidableEq

/-- `RedemptionResult::as_ref`: the ticket the result is about. -/
def RedemptionResult.ticket : RedemptionResult → VerifiedTicket
  | .Redeemed t => t
  | .ValueTooLow t => t
  | .RejectedOnChain t _ => t

inductive ChannelStatus where
  | Closed
  | Open
  | PendingToClose (closure_time : Nat)
deriving DecidableEq

structure ChannelEntry where
  id : ChannelId
  balance : HoprBalance
  ticket_index : UInt64
  status : ChannelStatus
  channel_epoch : UInt32
deriving DecidableEq

/-- An open channel whose hash is one byte. -/
def ChannelEntry.of (channel : UInt8) (epoch : UInt32) (ticket_index : UInt64) : ChannelEntry :=
  ⟨⟨[channel]⟩, 0, ticket_index, .Open, epoch⟩

/-- The errors of the ticket manager; `ε` is the error of the store. -/
inductive TicketManagerError (ε : Type) where
  | ChannelQueueNotFound
  | AlreadyRedeeming
  | OutOfFunds (channel : ChannelId) (amount : HoprBalance)
  | RedeemError (error : String)
  | StoreError (error : ε)
  | Other (message : String)
deriving DecidableEq

end Hopr.TicketManager
