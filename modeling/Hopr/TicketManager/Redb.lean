import Hopr.Library.OrderedMap
import Hopr.TicketManager.Postcard
import Hopr.TicketManager.Queue

/-! The ticket queue in the `redb` database.

The tickets of a channel are a table of the database: an ordered map from
`make_index`, the epoch in front of the index in one `u128`, to the serialized
ticket. A queue holds the database weakly and opens the table of its channel in
every call; a write opens a table that is not there as an empty one. -/
namespace Hopr.TicketManager
open Library

instance u128_order : LinearOrder (BitVec 128) where
  le_refl a := Nat.le_refl a.toNat
  le_trans a b c h h' := Nat.le_trans (m := b.toNat) h h'
  le_antisymm a b h h' := BitVec.eq_of_toNat_eq (Nat.le_antisymm h h')
  le_total a b := Nat.le_total a.toNat b.toNat
  lt_iff_le_not_ge a b := Nat.lt_iff_le_and_not_ge (m := a.toNat)
  toDecidableLE := inferInstance
  toDecidableLT := inferInstance
  toDecidableEq := inferInstance

def make_index (ticket : RedeemableTicket) : BitVec 128 :=
  ticket.verified_ticket.channel_epoch.toBitVec.setWidth 128 <<< 64 |||
    ticket.verified_ticket.index.toBitVec.setWidth 128

/-- Nothing of the epoch is shifted out and the index leaves it alone. -/
theorem toNat_make_index (t : RedeemableTicket) : (make_index t).toNat =
    t.verified_ticket.channel_epoch.toNat * 2 ^ 64 + t.verified_ticket.index.toNat := by
  have hepoch := t.verified_ticket.channel_epoch.toBitVec.isLt
  have hindex := t.verified_ticket.index.toBitVec.isLt
  unfold make_index
  rw [BitVec.toNat_or, BitVec.toNat_shiftLeft, BitVec.toNat_setWidth, BitVec.toNat_setWidth,
    Nat.mod_eq_of_lt (Nat.lt_trans hepoch (by decide)),
    Nat.mod_eq_of_lt (Nat.lt_trans hindex (by decide)), Nat.shiftLeft_eq,
    Nat.mod_eq_of_lt (by omega), ← Nat.shiftLeft_eq, ← Nat.shiftLeft_add_eq_or_of_lt hindex,
    Nat.shiftLeft_eq]
  rfl

/-- **The packed order is the natural order** of the tickets of a channel. -/
theorem make_index_lt_iff {t u : RedeemableTicket} : make_index t < make_index u ↔ t.key < u.key := by
  have ht : t.verified_ticket.index.toNat < 2 ^ 64 := t.verified_ticket.index.toBitVec.isLt
  have hu : u.verified_ticket.index.toNat < 2 ^ 64 := u.verified_ticket.index.toBitVec.isLt
  rw [BitVec.lt_def, toNat_make_index, toNat_make_index, RedeemableTicket.key_lt_iff,
    UInt32.lt_iff_toNat_lt, UInt64.lt_iff_toNat_lt, ← UInt32.toNat_inj]
  omega

theorem make_index_eq_iff {t u : RedeemableTicket} : make_index t = make_index u ↔
    t.verified_ticket.channel_epoch = u.verified_ticket.channel_epoch ∧
      t.verified_ticket.index = u.verified_ticket.index := by
  have ht : t.verified_ticket.index.toNat < 2 ^ 64 := t.verified_ticket.index.toBitVec.isLt
  have hu : u.verified_ticket.index.toNat < 2 ^ 64 := u.verified_ticket.index.toBitVec.isLt
  rw [← BitVec.toNat_inj, toNat_make_index, toNat_make_index, ← UInt32.toNat_inj,
    ← UInt64.toNat_inj]
  omega

abbrev Table := OrderedMap (BitVec 128) (List UInt8)

/-- The tables of tickets; the name of a table is `ctq_` and the channel. -/
abbrev Database := ChannelId → Option Table

inductive RedbStoreError where
  | DatabaseClosed
  | TableDoesNotExist (channel_id : ChannelId)
  | Serialization (error : PostcardError)
deriving DecidableEq

structure RedbTicketQueue where
  /-- `none` once the store that owned the database is gone. -/
  db : Option Database
  channel_id : ChannelId

namespace RedbTicketQueue

section Calls

/-- The table of the channel in a read transaction. -/
def open_table : EStateM RedbStoreError RedbTicketQueue Table := do
  let q ← get
  match q.db with
  | none => throw .DatabaseClosed
  | some db =>
    match db q.channel_id with
    | none => throw (.TableDoesNotExist q.channel_id)
    | some table => pure table

/-- The table of the channel in a write transaction. -/
def open_or_create_table : EStateM RedbStoreError RedbTicketQueue Table := do
  let q ← get
  match q.db with
  | none => throw .DatabaseClosed
  | some db => pure ((db q.channel_id).getD .empty)

def commit (table : Table) : EStateM RedbStoreError RedbTicketQueue Unit :=
  modify fun q =>
    {q with db := q.db.map fun db => Function.update db q.channel_id (some table)}

/-- `?` on a result of the serializer. -/
def lift {α : Type} : Except PostcardError α → EStateM RedbStoreError RedbTicketQueue α
  | .ok a => pure a
  | .error e => throw (.Serialization e)

def len : EStateM RedbStoreError RedbTicketQueue Nat := do
  return (← open_table).len

def is_empty : EStateM RedbStoreError RedbTicketQueue Bool := do
  return (← open_table).is_empty

variable [Postcard]

def push (ticket : RedeemableTicket) : EStateM RedbStoreError RedbTicketQueue Unit := do
  let table ← open_or_create_table
  let bytes ← lift (Postcard.to_stdvec ticket)
  commit (table.insert (make_index ticket) bytes)

/-- The removal is committed even if the ticket cannot be read then. -/
def pop : EStateM RedbStoreError RedbTicketQueue (Option RedeemableTicket) := do
  let table ← open_or_create_table
  let (maybe_ticket, table) := table.pop_first
  commit table
  match maybe_ticket with
  | some (_, ticket_bytes) => return some (← lift (Postcard.from_bytes ticket_bytes))
  | none => return none

def peek : EStateM RedbStoreError RedbTicketQueue (Option RedeemableTicket) := do
  match (← open_table).first with
  | some (_, ticket_bytes) => return some (← lift (Postcard.from_bytes ticket_bytes))
  | none => return none

def iter_unordered :
    EStateM RedbStoreError RedbTicketQueue (List (Except RedbStoreError RedeemableTicket)) := do
  return (← open_table).entries.map fun (_, v) =>
    (Postcard.from_bytes v).mapError .Serialization

instance : TicketQueue RedbTicketQueue RedbStoreError where
  len := len
  push := push
  pop := pop
  peek := peek
  iter_unordered := iter_unordered
  tickets q :=
    match q.db.bind fun db => db q.channel_id with
    | some table => table.entries.filterMap fun (_, v) => (Postcard.from_bytes v).toOption
    | none => []

end Calls

/-! ### An open queue -/

section OpenQueue

/-- The queue of a channel whose table is in the database. -/
def opened (db : Database) (channel_id : ChannelId) (table : Table) : RedbTicketQueue :=
  ⟨some (Function.update db channel_id (some table)), channel_id⟩

variable {db : Database} {channel_id : ChannelId} {table : Table}

@[simp] theorem open_table_run :
    open_table.run (opened db channel_id table) = .ok table (opened db channel_id table) := by
  simp only [open_table, EStateM.run_bind, EStateM.run_get, opened, Function.update_self]
  rfl

@[simp] theorem open_or_create_table_run :
    open_or_create_table.run (opened db channel_id table) =
      .ok table (opened db channel_id table) := by
  simp only [open_or_create_table, EStateM.run_bind, EStateM.run_get, opened, Function.update_self]
  rfl

@[simp] theorem commit_run (table' : Table) :
    (commit table').run (opened db channel_id table) = .ok () (opened db channel_id table') := by
  simp only [commit, EStateM.run_modify, opened, Option.map_some, Function.update_idem]

@[simp] theorem lift_ok_run {α : Type} (a : α) (q : RedbTicketQueue) :
    (lift (.ok a)).run q = .ok a q := rfl

@[simp] theorem len_run : len.run (opened db channel_id table) =
    .ok table.entries.length (opened db channel_id table) := by
  simp only [len, EStateM.run_bind, open_table_run, EStateM.run_pure, OrderedMap.len]

@[simp] theorem is_empty_run : is_empty.run (opened db channel_id table) =
    .ok table.entries.isEmpty (opened db channel_id table) := by
  simp only [is_empty, EStateM.run_bind, open_table_run, EStateM.run_pure, OrderedMap.is_empty]

variable [Postcard]

theorem push_run {t : RedeemableTicket} {bytes : List UInt8}
    (h : Postcard.to_stdvec t = .ok bytes) : (push t).run (opened db channel_id table) =
      .ok () (opened db channel_id (table.insert (make_index t) bytes)) := by
  simp only [push, EStateM.run_bind, open_or_create_table_run, h, lift_ok_run, commit_run]

theorem pop_run_nil (h : table.entries = []) : pop.run (opened db channel_id table) =
    .ok none (opened db channel_id table.pop_first.2) := by
  simp only [pop, EStateM.run_bind, open_or_create_table_run, OrderedMap.pop_first, h, commit_run,
    List.head?_nil, EStateM.run_pure]

theorem pop_run_cons {e : BitVec 128 × List UInt8} {rest : List (BitVec 128 × List UInt8)}
    {t : RedeemableTicket} (h : table.entries = e :: rest)
    (hread : Postcard.from_bytes e.2 = .ok t) : pop.run (opened db channel_id table) =
      .ok (some t) (opened db channel_id table.pop_first.2) := by
  simp only [pop, EStateM.run_bind, open_or_create_table_run, OrderedMap.pop_first, h, commit_run,
    List.head?_cons, hread, lift_ok_run, EStateM.run_pure]

theorem peek_run_nil (h : table.entries = []) : peek.run (opened db channel_id table) =
    .ok none (opened db channel_id table) := by
  simp only [peek, EStateM.run_bind, open_table_run, OrderedMap.first, h, List.head?_nil,
    EStateM.run_pure]

theorem peek_run_cons {e : BitVec 128 × List UInt8} {rest : List (BitVec 128 × List UInt8)}
    {t : RedeemableTicket} (h : table.entries = e :: rest)
    (hread : Postcard.from_bytes e.2 = .ok t) : peek.run (opened db channel_id table) =
      .ok (some t) (opened db channel_id table) := by
  simp only [peek, EStateM.run_bind, open_table_run, OrderedMap.first, h, List.head?_cons, hread,
    lift_ok_run, EStateM.run_pure]

theorem iter_unordered_run : iter_unordered.run (opened db channel_id table) =
    .ok (table.entries.map fun e => (Postcard.from_bytes e.2).mapError .Serialization)
      (opened db channel_id table) := by
  simp only [iter_unordered, EStateM.run_bind, open_table_run, EStateM.run_pure]

theorem tickets_opened : TicketQueue.tickets (opened db channel_id table) =
    table.entries.filterMap fun e => (Postcard.from_bytes e.2).toOption := by
  simp only [TicketQueue.tickets, opened, Option.bind_some, Function.update_self]

end OpenQueue

end RedbTicketQueue

end Hopr.TicketManager
