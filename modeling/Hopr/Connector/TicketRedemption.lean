import Hopr.Connector.Sequencer
import Hopr.Library.Text
import Hopr.TicketManager.RedeemStream

/-! The redemption of a ticket.

The channel of a ticket is queried anew, and a transaction is sent if it can be redeemed
there. A ticket for which that cannot succeed is rejected, and any other failure is one of
processing.

What the client, the payload generator and the sequencer answer is the environment's
(`Answers`). How channel ids are made and balances read is not part of the repository.
The time after which a transaction is given up is computed from the chain's values in
`ChainValues.tx_timeout`; a poll that panics there, on values that no chain has, is none here. -/
namespace Hopr.Connector.TicketRedemption
open Library TicketManager

/-- The errors of the connector that a redemption tells apart. -/
inductive RedemptionError where
  | InvalidState (reason : String)
  | InvalidTicket
  | ChannelDoesNotExist (channel_id : ChannelId)
  | ChannelClosed (channel_id : ChannelId)
  | InnerTxFailed (reason : String)
  | TypeConversion (reason : String)
  | Of (error : ConnectorError)

class Chain where
  verified_issuer : VerifiedTicket → Address
  generate_channel_id : Address → Address → ChannelId
  parse_balance : Text → Except String HoprBalance
  /-- How channel ids and other errors are shown. -/
  show_channel_id : ChannelId → String
  show_error : ConnectorError → String

open Chain

inductive BlokliChannelStatus where
  | Open
  | PendingToClose
  | Closed
deriving DecidableEq

/-- A channel as the client has it. -/
structure BlokliChannel where
  status : BlokliChannelStatus
  epoch : Int32
  ticket_index : Text
  balance : Text

structure SafeExecution where
  success : Bool
  revert_reason : Option String

structure Transaction where
  safe_execution : Option SafeExecution
  /-- The hash, if it can be read. -/
  receipt : Option (List UInt8)

/-- What is answered while one ticket is redeemed. -/
structure Answers where
  connected : Bool
  /-- The channels with the ticket's channel id. -/
  channels : Except ConnectorError (List BlokliChannel)
  payload : Except ConnectorError Unit
  /-- Whether the values are there that the timeout of a transaction is computed from. -/
  chain_info : Except ConnectorError Unit
  /-- The sequencer takes the transaction. -/
  enqueued : Bool
  /-- The outcome of the submission, unless the sequencer drops it. -/
  submitted : Option (Except ConnectorError Unit)
  tracked : Except ConnectorError Transaction

section Redeem
variable [Chain]

def RedemptionError.to_string : RedemptionError → String
  | InvalidState reason => "invalid state: " ++ reason
  | InvalidTicket => "ticket is invalid or does not match the channel"
  | ChannelDoesNotExist channel_id => "channel " ++ show_channel_id channel_id ++ " does not exist"
  | ChannelClosed channel_id => "channel " ++ show_channel_id channel_id ++ " is closed"
  | InnerTxFailed reason => "inner safe transaction failed: " ++ reason
  | TypeConversion reason => "type conversion error: " ++ reason
  | Of error => show_error error

def RedemptionError.as_hopr_action_rejection : RedemptionError → Option (String × String)
  | Of error => error.as_hopr_action_rejection
  | _ => none

/-- Whether a ticket can be redeemed on a channel. -/
def check_channel (channel : BlokliChannel) (ticket : RedeemableTicket) : Except RedemptionError Unit := do
  if channel.status = .Closed then throw (.ChannelClosed ticket.ticket.channel_id)
  if channel.epoch.toUInt32 ≠ ticket.verified_ticket.channel_epoch then throw .InvalidTicket
  let channel_index ← (Text.parse_unsigned (2 ^ 64) channel.ticket_index).mapError fun e =>
    .TypeConversion ("unparseable channel index at redemption: " ++ String.ofList e)
  if ticket.verified_ticket.index.toNat < channel_index then throw .InvalidTicket
  let channel_stake ← (parse_balance channel.balance).mapError fun e =>
    .TypeConversion ("unparseable channel stake at redemption: " ++ e)
  if channel_stake < ticket.verified_ticket.amount then throw .InvalidTicket

def prepare_ticket_redeem_payload (me : Address) (answers : Answers) (ticket : RedeemableTicket) :
    Except RedemptionError Unit := do
  if answers.connected = false then throw (.InvalidState "connector is not connected")
  if generate_channel_id (verified_issuer ticket.ticket) me ≠ ticket.ticket.channel_id then throw .InvalidTicket
  let channels ← answers.channels.mapError .Of
  match channels with
  | [] => throw (.ChannelDoesNotExist ticket.ticket.channel_id)
  | channel :: _ => check_channel channel ticket
  answers.payload.mapError .Of

/-- The outcome of a transaction that the sequencer took. -/
def confirm (answers : Answers) : Except RedemptionError (List UInt8) :=
  match answers.submitted with
  | none => .error (.InvalidState "transaction notifier dropped")
  | some (.error e) => .error (.Of e)
  | some (.ok ()) => do
    let tx ← answers.tracked.mapError .Of
    match tx.safe_execution with
    | some ⟨false, revert_reason⟩ => throw (.InnerTxFailed (revert_reason.getD "n/a"))
    | _ =>
      match tx.receipt with
      | some receipt => return receipt
      | none => throw (.TypeConversion "invalid tx hash")

/-- The outer error: the transaction was not sent. -/
def send_tx (answers : Answers) : Except RedemptionError (Except RedemptionError (List UInt8)) := do
  answers.chain_info.mapError .Of
  if answers.enqueued = false then throw (.InvalidState "transaction queue dropped")
  return confirm answers

def redeem_ticket (me : Address) (answers : Answers) (ticket : RedeemableTicket) : ChainResult :=
  match prepare_ticket_redeem_payload me answers ticket with
  | .ok () =>
    match send_tx answers with
    | .error e => .ProcessingError ticket.ticket e.to_string
    | .ok (.ok _) => .Ok ticket.ticket
    | .ok (.error (.InnerTxFailed reason)) => .Rejected ticket.ticket ("inner transaction rejected: " ++ reason)
    | .ok (.error e) =>
      match e.as_hopr_action_rejection with
      | some (operation, reason) =>
        .Rejected ticket.ticket ("blokli rejected the " ++ operation ++ " action: " ++ reason)
      | none => .ProcessingError ticket.ticket e.to_string
  | .error .InvalidTicket => .Rejected ticket.ticket (RedemptionError.to_string .InvalidTicket)
  | .error (.ChannelDoesNotExist id) => .Rejected ticket.ticket (RedemptionError.to_string (.ChannelDoesNotExist id))
  | .error (.ChannelClosed id) => .Rejected ticket.ticket (RedemptionError.to_string (.ChannelClosed id))
  | .error e => .ProcessingError ticket.ticket e.to_string

end Redeem

end Hopr.Connector.TicketRedemption
