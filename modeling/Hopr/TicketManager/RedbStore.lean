import Hopr.Library.Programs
import Hopr.Library.Text
import Hopr.TicketManager.OutgoingStore
import Hopr.TicketManager.Redb

/-! The store in the `redb` database.

Everything the store keeps is in tables of one database, and a table is found by
its name: `channel_out_index` has the outgoing indices, `ctq_` and a channel the
tickets of that channel. The channels of the store are read off the names again
(`iter_queues`). A write opens a table that is not there as an empty one, a read
does not; both check what kind of table it is. A transaction that is not
committed leaves no trace, so a queue with a ticket that cannot be read is not
deleted. -/
namespace Hopr.TicketManager
open Library

/-- A channel, written and read. -/
class ChannelIdText where
  display : ChannelId → Text
  from_str : Text → Option ChannelId

class LawfulChannelIdText [ChannelIdText] : Prop where
  round_trip : ∀ id, ChannelIdText.from_str (ChannelIdText.display id) = some id

namespace ChannelIdText

def write_byte (b : UInt8) : Text := [Nat.digitChar (b.toNat / 16), Nat.digitChar (b.toNat % 16)]

def read_digit (c : Char) : Option Nat :=
  if '0' ≤ c ∧ c ≤ '9' then some (c.toNat - '0'.toNat)
  else if 'a' ≤ c ∧ c ≤ 'f' then some (c.toNat - 'a'.toNat + 10)
  else if 'A' ≤ c ∧ c ≤ 'F' then some (c.toNat - 'A'.toNat + 10)
  else none

def read_bytes : Text → Option (List UInt8)
  | [] => some []
  | [_] => none
  | c :: d :: rest => do
    let high ← read_digit c
    let low ← read_digit d
    let bytes ← read_bytes rest
    return .ofNat (high * 16 + low) :: bytes

theorem read_digitChar {n : Nat} (h : n < 16) : read_digit (Nat.digitChar n) = some n := by
  have hall : ∀ n < 16, read_digit (Nat.digitChar n) = some n := by decide
  exact hall n h

theorem read_write_bytes (bytes : List UInt8) : read_bytes (bytes.flatMap write_byte) = some bytes := by
  induction bytes with
  | nil => rfl
  | cons b rest ih =>
    have hhigh : b.toNat / 16 < 16 := by have := b.toNat_lt; omega
    have hbyte : b.toNat / 16 * 16 + b.toNat % 16 = b.toNat := Nat.div_add_mod' _ _
    show read_bytes (Nat.digitChar _ :: Nat.digitChar _ :: rest.flatMap write_byte) = _
    rw [read_bytes, read_digitChar hhigh, read_digitChar (Nat.mod_lt _ (by decide)), ih]
    show some (UInt8.ofNat _ :: rest) = _
    rw [hbyte, UInt8.ofNat_toNat]

/-- Hexadecimal behind `0x`, which may be left out when it is read. -/
instance hex : ChannelIdText where
  display id := "0x".toList ++ id.bytes.flatMap write_byte
  from_str s := (read_bytes ((Text.strip_prefix s "0x".toList).getD s)).map ChannelId.mk

instance : LawfulChannelIdText where
  round_trip id := by
    have hstrip : Text.strip_prefix ("0x".toList ++ id.bytes.flatMap write_byte) "0x".toList =
        some (id.bytes.flatMap write_byte) := Text.strip_prefix_eq_some.mpr rfl
    show (read_bytes ((Text.strip_prefix ("0x".toList ++ _) "0x".toList).getD _)).map ChannelId.mk = _
    rw [hstrip, Option.getD_some, read_write_bytes]
    rfl

end ChannelIdText

inductive StoredTable where
  | out_index (table : AList fun _ : IndexKey => UInt64)
  | tickets (table : Table)

inductive TableError where
  | TableDoesNotExist (name : Text)
  | TableTypeMismatch (name : Text)
  | Serialization (error : PostcardError)
  | Queue (error : RedbStoreError)

def OUT_IDX_TABLE : Text := "channel_out_index".toList

def TABLE_QUEUE_NAME_PREFIX : Text := "ctq_".toList

def queue_table_name [ChannelIdText] (id : ChannelId) : Text :=
  TABLE_QUEUE_NAME_PREFIX ++ ChannelIdText.display id

structure RedbStore where
  tables : AList fun _ : Text => StoredTable

namespace RedbStore

/-- The store on a file with these tables; a new file has none. -/
def new (file : AList fun _ : Text => StoredTable) : Except TableError RedbStore :=
  match file.lookup OUT_IDX_TABLE with
  | none => .ok ⟨file.insert OUT_IDX_TABLE (.out_index ∅)⟩
  | some (.out_index _) => .ok ⟨file⟩
  | some (.tickets _) => .error (.TableTypeMismatch OUT_IDX_TABLE)

/-! ### Outgoing indices -/

/-- The table of outgoing indices in a read transaction. -/
def open_out_index : EStateM TableError RedbStore (AList fun _ : IndexKey => UInt64) := fun s =>
  match s.tables.lookup OUT_IDX_TABLE with
  | some (.out_index table) => .ok table s
  | some (.tickets _) => .error (.TableTypeMismatch OUT_IDX_TABLE) s
  | none => .error (.TableDoesNotExist OUT_IDX_TABLE) s

/-- A write transaction on the table of outgoing indices. -/
def write_out_index (write : (AList fun _ : IndexKey => UInt64) → AList fun _ : IndexKey => UInt64) :
    EStateM TableError RedbStore Unit := fun s =>
  match s.tables.lookup OUT_IDX_TABLE with
  | some (.out_index table) => .ok () ⟨s.tables.insert OUT_IDX_TABLE (.out_index (write table))⟩
  | some (.tickets _) => .error (.TableTypeMismatch OUT_IDX_TABLE) s
  | none => .ok () ⟨s.tables.insert OUT_IDX_TABLE (.out_index (write ∅))⟩

def load_outgoing_index (k : IndexKey) : EStateM TableError RedbStore (Option UInt64) := do
  return (← open_out_index).lookup k

def save_outgoing_index (k : IndexKey) (v : UInt64) : EStateM TableError RedbStore Unit :=
  write_out_index fun table => table.insert k v

def delete_outgoing_index (k : IndexKey) : EStateM TableError RedbStore Unit :=
  write_out_index fun table => table.erase k

def iter_outgoing_indices : EStateM TableError RedbStore (List IndexKey) := do
  return (← open_out_index).keys

instance : OutgoingIndexStore RedbStore TableError where
  load_outgoing_index := load_outgoing_index
  save_outgoing_index := save_outgoing_index
  delete_outgoing_index := delete_outgoing_index
  iter_outgoing_indices := iter_outgoing_indices
  stored s k :=
    match s.tables.lookup OUT_IDX_TABLE with
    | some (.out_index table) => table.lookup k
    | _ => none

section OutIndex
variable {s : RedbStore} {table : AList fun _ : IndexKey => UInt64}

theorem open_out_index_run (h : s.tables.lookup OUT_IDX_TABLE = some (.out_index table)) :
    open_out_index.run s = .ok table s := by
  simp only [open_out_index, EStateM.run, h]

theorem write_out_index_run (h : s.tables.lookup OUT_IDX_TABLE = some (.out_index table))
    (write : (AList fun _ : IndexKey => UInt64) → AList fun _ : IndexKey => UInt64) :
    (write_out_index write).run s =
      .ok () ⟨s.tables.insert OUT_IDX_TABLE (.out_index (write table))⟩ := by
  simp only [write_out_index, EStateM.run, h]

/-- The indices that are stored are those of the table, if it is one. -/
theorem stored_of_lookup (h : s.tables.lookup OUT_IDX_TABLE = some (.out_index table)) :
    OutgoingIndexStore.stored s = fun k => table.lookup k := by
  funext k
  simp only [OutgoingIndexStore.stored, h]

theorem stored_none (h : s.tables.lookup OUT_IDX_TABLE = none) :
    OutgoingIndexStore.stored s = fun _ => none := by
  funext k
  simp only [OutgoingIndexStore.stored, h]

/-- What a write makes of the stored indices; one that fails changes nothing. -/
theorem stored_write {write : (AList fun _ : IndexKey => UInt64) → AList fun _ : IndexKey => UInt64}
    {f : (IndexKey → Option UInt64) → IndexKey → Option UInt64}
    (hwrite : ∀ table k, (write table).lookup k = f (fun k => table.lookup k) k) (s : RedbStore) :
    (∃ s', (write_out_index write).run s = .ok () s' ∧
      OutgoingIndexStore.stored s' = f (OutgoingIndexStore.stored s)) ∨
    ∃ e, (write_out_index write).run s = .error e s := by
  cases h : s.tables.lookup OUT_IDX_TABLE with
  | none =>
    have hnew : (RedbStore.mk (s.tables.insert OUT_IDX_TABLE (.out_index (write ∅)))).tables.lookup
        OUT_IDX_TABLE = some (.out_index (write ∅)) := AList.lookup_insert _
    refine .inl ⟨⟨s.tables.insert OUT_IDX_TABLE (.out_index (write ∅))⟩, ?_, ?_⟩
    · simp only [write_out_index, EStateM.run, h]
    · rw [stored_of_lookup hnew, stored_none h]
      funext k
      exact hwrite ∅ k
  | some stored =>
    cases stored with
    | out_index table =>
      have hnew : (RedbStore.mk (s.tables.insert OUT_IDX_TABLE (.out_index (write table)))).tables.lookup
          OUT_IDX_TABLE = some (.out_index (write table)) := AList.lookup_insert _
      refine .inl ⟨_, write_out_index_run h write, ?_⟩
      rw [stored_of_lookup hnew, stored_of_lookup h]
      funext k
      exact hwrite table k
    | tickets table =>
      refine .inr ⟨.TableTypeMismatch OUT_IDX_TABLE, ?_⟩
      simp only [write_out_index, EStateM.run, h]

theorem stored_save (k : IndexKey) (v : UInt64) (s : RedbStore) :
    (∃ s', (save_outgoing_index k v).run s = .ok () s' ∧
      OutgoingIndexStore.stored s' = Function.update (OutgoingIndexStore.stored s) k (some v)) ∨
    ∃ e, (save_outgoing_index k v).run s = .error e s := by
  refine stored_write (f := fun stored => Function.update stored k (some v)) (fun table k' => ?_) s
  by_cases hk : k' = k
  · subst hk
    rw [Function.update_self]
    exact AList.lookup_insert table
  · rw [Function.update_of_ne hk]
    exact AList.lookup_insert_ne hk

theorem stored_delete (k : IndexKey) (s : RedbStore) :
    (∃ s', (delete_outgoing_index k).run s = .ok () s' ∧
      OutgoingIndexStore.stored s' = Function.update (OutgoingIndexStore.stored s) k none) ∨
    ∃ e, (delete_outgoing_index k).run s = .error e s := by
  refine stored_write (f := fun stored => Function.update stored k none) (fun table k' => ?_) s
  by_cases hk : k' = k
  · subst hk
    rw [Function.update_self]
    exact AList.lookup_erase k' table
  · rw [Function.update_of_ne hk]
    exact AList.lookup_erase_ne hk

/-- A read finds the stored indices or fails, and changes nothing. -/
theorem open_out_index_cases (s : RedbStore) :
    (∃ table, open_out_index.run s = .ok table s ∧
      OutgoingIndexStore.stored s = fun k => table.lookup k) ∨
    ∃ e, open_out_index.run s = .error e s := by
  cases h : s.tables.lookup OUT_IDX_TABLE with
  | none => exact .inr ⟨.TableDoesNotExist OUT_IDX_TABLE, by simp only [open_out_index, EStateM.run, h]⟩
  | some stored =>
    cases stored with
    | out_index table => exact .inl ⟨table, open_out_index_run h, stored_of_lookup h⟩
    | tickets table =>
      exact .inr ⟨.TableTypeMismatch OUT_IDX_TABLE, by simp only [open_out_index, EStateM.run, h]⟩

/-- **The store in the database keeps the contract of stores of outgoing indices**. -/
instance : LawfulOutgoingIndexStore RedbStore where
  load_ok := by
    intro s s' k r h
    obtain ⟨table, s₁, hopen, hret⟩ := run_bind_eq_ok.mp h
    rcases open_out_index_cases s with ⟨table', hrun, hstored⟩ | ⟨e, hrun⟩
    · cases hopen.symm.trans hrun
      cases hret
      exact ⟨by rw [hstored], rfl⟩
    · cases hopen.symm.trans hrun
  load_error := by
    intro s s' k e h
    replace h : (load_outgoing_index k).run s = .error e s' := h
    rcases open_out_index_cases s with ⟨table, hrun, _⟩ | ⟨e', hrun⟩
    · simp only [load_outgoing_index, EStateM.run_bind, hrun] at h
      cases h
    · simp only [load_outgoing_index, EStateM.run_bind, hrun] at h
      cases h
      rfl
  save_ok := by
    intro s s' k v h
    rcases stored_save k v s with ⟨s₁, hrun, hstored⟩ | ⟨e, hrun⟩
    · cases hrun.symm.trans h
      exact hstored
    · cases hrun.symm.trans h
  save_error := by
    intro s s' k v e h
    rcases stored_save k v s with ⟨s₁, hrun, _⟩ | ⟨e, hrun⟩
    · cases hrun.symm.trans h
    · cases hrun.symm.trans h
      rfl
  delete_ok := by
    intro s s' k h
    rcases stored_delete k s with ⟨s₁, hrun, hstored⟩ | ⟨e, hrun⟩
    · cases hrun.symm.trans h
      exact hstored
    · cases hrun.symm.trans h
  delete_error := by
    intro s s' k e h
    rcases stored_delete k s with ⟨s₁, hrun, _⟩ | ⟨e, hrun⟩
    · cases hrun.symm.trans h
    · cases hrun.symm.trans h
      rfl
  iter_ok := by
    intro s s' l h
    obtain ⟨table, s₁, hopen, hret⟩ := run_bind_eq_ok.mp h
    rcases open_out_index_cases s with ⟨table', hrun, hstored⟩ | ⟨e, hrun⟩
    · cases hopen.symm.trans hrun
      cases hret
      refine ⟨rfl, fun k => ?_⟩
      rw [hstored]
      exact AList.mem_keys.symm.trans AList.lookup_isSome.symm
    · cases hopen.symm.trans hrun
  iter_error := by
    intro s s' e h
    replace h : iter_outgoing_indices.run s = .error e s' := h
    rcases open_out_index_cases s with ⟨table, hrun, _⟩ | ⟨e', hrun⟩
    · simp only [iter_outgoing_indices, EStateM.run_bind, hrun] at h
      cases h
    · simp only [iter_outgoing_indices, EStateM.run_bind, hrun] at h
      cases h
      rfl

end OutIndex

/-! ### Queues of tickets -/

variable [ChannelIdText]

/-- The tables of tickets, channel by channel. -/
def queue_tables (s : RedbStore) : Database := fun id =>
  match s.tables.lookup (queue_table_name id) with
  | some (.tickets table) => some table
  | _ => none

def open_or_create_queue (id : ChannelId) : EStateM TableError RedbStore ChannelId := fun s =>
  match s.tables.lookup (queue_table_name id) with
  | some (.tickets _) => .ok id s
  | some (.out_index _) => .error (.TableTypeMismatch (queue_table_name id)) s
  | none => .ok id ⟨s.tables.insert (queue_table_name id) (.tickets .empty)⟩

/-- What a call on a queue commits. -/
def commit (q : RedbTicketQueue) (s : RedbStore) : RedbStore :=
  match q.db.bind fun db => db q.channel_id with
  | some table => ⟨s.tables.insert (queue_table_name q.channel_id) (.tickets table)⟩
  | none => s

/-- A call through a handle, which has the database and the channel. -/
def on_queue {α : Type} (id : ChannelId) (m : EStateM RedbStoreError RedbTicketQueue α) :
    EStateM TableError RedbStore α := fun s =>
  match s.tables.lookup (queue_table_name id) with
  | some (.out_index _) => .error (.TableTypeMismatch (queue_table_name id)) s
  | _ =>
    match m.run ⟨some s.queue_tables, id⟩ with
    | .ok a q => .ok a (s.commit q)
    | .error e q => .error (.Queue e) (s.commit q)

def iter_queues : EStateM TableError RedbStore (List ChannelId) := fun s =>
  .ok (s.tables.keys.filterMap fun name =>
    (Text.strip_prefix name TABLE_QUEUE_NAME_PREFIX).bind ChannelIdText.from_str) s

variable [Postcard]

/-- `while let Some((_, ticket)) = table.pop_first()?` over the entries of a table. -/
def pop_all : List (BitVec 128 × List UInt8) → Except PostcardError (List VerifiedTicket)
  | [] => .ok []
  | (_, ticket) :: rest => do
    let ticket ← Postcard.from_bytes ticket
    let ret ← pop_all rest
    return ticket.ticket :: ret

/-- A ticket that cannot be read ends the transaction uncommitted. -/
def delete_queue (id : ChannelId) : EStateM TableError RedbStore (List VerifiedTicket) := fun s =>
  match s.tables.lookup (queue_table_name id) with
  | some (.out_index _) => .error (.TableTypeMismatch (queue_table_name id)) s
  | none => .ok [] ⟨s.tables.erase (queue_table_name id)⟩
  | some (.tickets table) =>
    match pop_all table.entries with
    | .ok ret => .ok ret ⟨s.tables.erase (queue_table_name id)⟩
    | .error e => .error (.Serialization e) s

theorem delete_queue_run {id : ChannelId} {s : RedbStore} {table : Table} {ret : List VerifiedTicket}
    (h : s.tables.lookup (queue_table_name id) = some (.tickets table))
    (hpop : pop_all table.entries = .ok ret) :
    (delete_queue id).run s = .ok ret ⟨s.tables.erase (queue_table_name id)⟩ := by
  simp only [delete_queue, EStateM.run, h, hpop]

end RedbStore

end Hopr.TicketManager
