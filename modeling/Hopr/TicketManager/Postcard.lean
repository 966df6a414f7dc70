import Hopr.Library.Varint
import Hopr.TicketManager.Ticket

/-! The serializer of stored tickets.

`Postcard` is what the store uses of the serializer; `LawfulPostcard` says that
a ticket that was written is read back. `wire` is a serializer of the kind: the
fields in order, numbers of variable length and bytes behind their length. -/
namespace Hopr.TicketManager
open Library

inductive PostcardError where
  | SerializeBufferFull
  | DeserializeUnexpectedEnd
deriving DecidableEq

class Postcard where
  to_stdvec : RedeemableTicket → Except PostcardError (List UInt8)
  from_bytes : List UInt8 → Except PostcardError RedeemableTicket

/-- What was written is read back. -/
class LawfulPostcard [Postcard] : Prop where
  round_trip : ∀ t : RedeemableTicket, ∃ bytes,
    Postcard.to_stdvec t = .ok bytes ∧ Postcard.from_bytes bytes = .ok t

namespace Postcard

def write_ticket (t : RedeemableTicket) : List UInt8 :=
  Varint.writeBytes t.ticket.channel_id.bytes ++
    (Varint.write t.ticket.channel_epoch.toNat ++ (Varint.write t.ticket.index.toNat ++
      (Varint.write t.ticket.amount.amount ++ Varint.writeBytes t.ticket.body)))

def read_ticket (bytes : List UInt8) : Option RedeemableTicket := do
  let (channel_id, bytes) ← Varint.readBytes bytes
  let (channel_epoch, bytes) ← Varint.read bytes
  let (index, bytes) ← Varint.read bytes
  let (amount, bytes) ← Varint.read bytes
  let (body, _) ← Varint.readBytes bytes
  return ⟨⟨⟨channel_id⟩, .ofNat channel_epoch, .ofNat index, .ofNat amount, body⟩⟩

theorem read_write_ticket (t : RedeemableTicket) : read_ticket (write_ticket t) = some t := by
  obtain ⟨⟨channel_id, channel_epoch, index, amount, body⟩⟩ := t
  have hamount : HoprBalance.ofNat amount.amount = amount :=
    HoprBalance.ext (Nat.min_eq_left amount.amount_le)
  have hbody := Varint.readBytes_writeBytes body []
  rw [List.append_nil] at hbody
  unfold read_ticket write_ticket
  simp only [Varint.readBytes_writeBytes, Varint.read_write, hbody, Option.bind_eq_bind,
    Option.bind_some, UInt32.ofNat_toNat, UInt64.ofNat_toNat, hamount]
  rfl

instance wire : Postcard where
  to_stdvec t := .ok (write_ticket t)
  from_bytes bytes := (read_ticket bytes).elim (.error .DeserializeUnexpectedEnd) .ok

instance : LawfulPostcard where
  round_trip t := by
    refine ⟨write_ticket t, rfl, ?_⟩
    show (read_ticket (write_ticket t)).elim _ _ = _
    rw [read_write_ticket]
    rfl

end Postcard

end Hopr.TicketManager
