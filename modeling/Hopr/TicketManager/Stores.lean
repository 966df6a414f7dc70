import Hopr.TicketManager.Interchange
import Hopr.TicketManager.RedbStore
import Hopr.TicketManager.TicketStore

/-! The two stores side by side.

A client opens queues, keeps their handles, calls through them, deletes queues
and saves outgoing indices. `MemoryStore` has a map from channels to shared heaps
and one of indices, `RedbStore` the tables of a database. Whatever a client does,
both answer the same and neither fails (`stores_interchangeable`), as long as it
leaves handles of deleted queues alone and pushes no second ticket of one epoch
and index: the tables named after channels go on mirroring the heaps (`Mirrored`).
Through a handle of a deleted queue a push brings the queue back in the database,
but not in memory (`deleted_queue_revived`). -/
namespace Hopr.TicketManager
open Library

/-- Stores of ticket queues; a queue is called through its handle. -/
class TicketQueueStore (S : Type) (H ε : outParam Type) where
  open_or_create_queue : ChannelId → EStateM ε S H
  delete_queue : ChannelId → EStateM ε S (List VerifiedTicket)
  iter_queues : EStateM ε S (List ChannelId)
  on_queue : H → Interchange.Call → EStateM ε S Interchange.Answer

instance [ChannelIdText] [Postcard] : TicketQueueStore RedbStore ChannelId TableError where
  open_or_create_queue := RedbStore.open_or_create_queue
  delete_queue := RedbStore.delete_queue
  iter_queues := RedbStore.iter_queues
  on_queue id c := RedbStore.on_queue id (Interchange.redb_call c)

/-! ### The store in memory -/

structure MemoryStore where
  tickets : TicketStore MemoryTicketQueue
  out_indices : MemoryIndexStore

namespace MemoryStore
variable {α : Type}

def empty : MemoryStore := ⟨.empty, .empty⟩

def on_tickets : EStateM Empty (TicketStore MemoryTicketQueue) α → EStateM Empty MemoryStore α :=
  within (·.tickets) fun tickets s => {s with tickets}

def on_out_indices : EStateM Empty MemoryIndexStore α → EStateM Empty MemoryStore α :=
  within (·.out_indices) fun out_indices s => {s with out_indices}

theorem on_tickets_run {m : EStateM Empty (TicketStore MemoryTicketQueue) α} {s : MemoryStore} {a : α}
    {tickets : TicketStore MemoryTicketQueue} (h : m.run s.tickets = .ok a tickets) :
    (on_tickets m).run s = .ok a {s with tickets} :=
  within_ok h

instance : TicketQueueStore MemoryStore QueueRef Empty where
  open_or_create_queue id := on_tickets (TicketStore.open_or_create_queue id)
  delete_queue id := on_tickets (TicketStore.delete_queue id)
  iter_queues := on_tickets TicketStore.iter_queues
  on_queue r c := on_tickets (TicketStore.on_queue r (Interchange.memory_call c))

instance : OutgoingIndexStore MemoryStore Empty where
  load_outgoing_index k := on_out_indices (OutgoingIndexStore.load_outgoing_index k)
  save_outgoing_index k v := on_out_indices (OutgoingIndexStore.save_outgoing_index k v)
  delete_outgoing_index k := on_out_indices (OutgoingIndexStore.delete_outgoing_index k)
  iter_outgoing_indices := on_out_indices OutgoingIndexStore.iter_outgoing_indices
  stored s := OutgoingIndexStore.stored s.out_indices

end MemoryStore

/-! ### A client of a store -/

namespace Stores

structure Client (S H : Type) where
  store : S
  /-- The handles in the order in which they were opened. -/
  handles : List H

inductive Call where
  | open_or_create_queue (id : ChannelId)
  | delete_queue (id : ChannelId)
  | iter_queues
  | on_queue (handle : Nat) (call : Interchange.Call)
  | load_outgoing_index (k : IndexKey)
  | save_outgoing_index (k : IndexKey) (v : UInt64)
  | delete_outgoing_index (k : IndexKey)
  | iter_outgoing_indices
deriving DecidableEq

inductive Answer where
  | done
  | no_handle
  | neglected (tickets : List VerifiedTicket)
  | queues (ids : Multiset ChannelId)
  | queue (answer : Interchange.Answer)
  | index (index : Option UInt64)
  | keys (keys : Multiset IndexKey)
deriving DecidableEq

section Client
variable {S H ε : Type}

def on_store {α : Type} : EStateM ε S α → EStateM ε (Client S H) α :=
  within (·.store) fun store s => {s with store}

theorem on_store_run {α : Type} {m : EStateM ε S α} {s : Client S H} {a : α} {store : S}
    (h : m.run s.store = .ok a store) : (on_store m).run s = .ok a {s with store} :=
  within_ok h

variable [TicketQueueStore S H ε] [OutgoingIndexStore S ε]

def call : Call → EStateM ε (Client S H) Answer
  | .open_or_create_queue id => do
    let handle ← on_store (TicketQueueStore.open_or_create_queue id)
    modify fun s => {s with handles := s.handles ++ [handle]}
    return .done
  | .delete_queue id => return .neglected (← on_store (TicketQueueStore.delete_queue id))
  | .iter_queues => return .queues (← on_store TicketQueueStore.iter_queues)
  | .on_queue handle c => do
    match (← get).handles[handle]? with
    | some h => return .queue (← on_store (TicketQueueStore.on_queue h c))
    | none => return .no_handle
  | .load_outgoing_index k => return .index (← on_store (OutgoingIndexStore.load_outgoing_index k))
  | .save_outgoing_index k v => do
    on_store (OutgoingIndexStore.save_outgoing_index k v)
    return .done
  | .delete_outgoing_index k => do
    on_store (OutgoingIndexStore.delete_outgoing_index k)
    return .done
  | .iter_outgoing_indices => return .keys (← on_store OutgoingIndexStore.iter_outgoing_indices)

variable {s : Client S H} {store : S}

theorem open_run {id : ChannelId} {handle : H}
    (h : (TicketQueueStore.open_or_create_queue id).run s.store = .ok handle store) :
    (call (.open_or_create_queue id)).run s = .ok .done ⟨store, s.handles ++ [handle]⟩ := by
  simp only [call, EStateM.run_bind, on_store_run h, EStateM.run_modify]
  rfl

theorem delete_run {id : ChannelId} {neglected : List VerifiedTicket}
    (h : (TicketQueueStore.delete_queue id).run s.store = .ok neglected store) :
    (call (.delete_queue id)).run s = .ok (.neglected neglected) {s with store} := by
  simp only [call, EStateM.run_bind, on_store_run h, EStateM.run_pure]

theorem iter_run {ids : List ChannelId} (h : TicketQueueStore.iter_queues.run s.store = .ok ids store) :
    (call .iter_queues).run s = .ok (.queues ids) {s with store} := by
  simp only [call, EStateM.run_bind, on_store_run h, EStateM.run_pure]

theorem on_queue_run {i : Nat} {handle : H} {c : Interchange.Call} {a : Interchange.Answer}
    (hhandle : s.handles[i]? = some handle)
    (h : (TicketQueueStore.on_queue handle c).run s.store = .ok a store) :
    (call (.on_queue i c)).run s = .ok (.queue a) {s with store} := by
  simp only [call, EStateM.run_bind, EStateM.run_get, hhandle, on_store_run h, EStateM.run_pure]

theorem no_handle_run {i : Nat} {c : Interchange.Call} (hhandle : s.handles[i]? = none) :
    (call (.on_queue i c)).run s = .ok .no_handle s := by
  simp only [call, EStateM.run_bind, EStateM.run_get, hhandle, EStateM.run_pure]

theorem load_index_run {k : IndexKey} {index : Option UInt64}
    (h : (OutgoingIndexStore.load_outgoing_index k).run s.store = .ok index store) :
    (call (.load_outgoing_index k)).run s = .ok (.index index) {s with store} := by
  simp only [call, EStateM.run_bind, on_store_run h, EStateM.run_pure]

theorem save_index_run {k : IndexKey} {v : UInt64}
    (h : (OutgoingIndexStore.save_outgoing_index k v).run s.store = .ok () store) :
    (call (.save_outgoing_index k v)).run s = .ok .done {s with store} := by
  simp only [call, EStateM.run_bind, on_store_run h, EStateM.run_pure]

theorem delete_index_run {k : IndexKey}
    (h : (OutgoingIndexStore.delete_outgoing_index k).run s.store = .ok () store) :
    (call (.delete_outgoing_index k)).run s = .ok .done {s with store} := by
  simp only [call, EStateM.run_bind, on_store_run h, EStateM.run_pure]

theorem iter_index_run {keys : List IndexKey}
    (h : OutgoingIndexStore.iter_outgoing_indices.run s.store = .ok keys store) :
    (call .iter_outgoing_indices).run s = .ok (.keys keys) {s with store} := by
  simp only [call, EStateM.run_bind, on_store_run h, EStateM.run_pure]

end Client

end Stores

/-- A client of each of the stores, which do the same. -/
structure Stores where
  redb : Stores.Client RedbStore ChannelId
  memory : Stores.Client MemoryStore QueueRef

namespace Stores

section State

/-- What a handle stands for in the two stores. -/
def handle (s : Stores) (i : Nat) : Option (ChannelId × QueueRef) := do
  return (← s.redb.handles[i]?, ← s.memory.handles[i]?)

variable [ChannelIdText]

/-- The queues of a channel and of a reference. -/
def queues (s : Stores) (id : ChannelId) (r : QueueRef) : Interchange.Queues :=
  ⟨⟨some s.redb.store.queue_tables, id⟩, s.memory.store.tickets.queues.cell r⟩

/-- A handle is used while its queue is that of its channel. -/
def Current (s : Stores) : Call → Prop
  | .on_queue i _ => ∀ h ∈ s.handle i, s.memory.store.tickets.tickets.lookup h.1 = some h.2
  | _ => True

/-- No queued ticket has the epoch and the index of one that is pushed. -/
def Fresh (s : Stores) : Call → Prop
  | .on_queue i c => ∀ h ∈ s.handle i, Interchange.Fresh (s.queues h.1 h.2) c
  | _ => True

end State

section Machine
variable [ChannelIdText] [Postcard]

def machine : Machine Stores Call :=
  ⟨fun s c => some ⟨after (call c) s.redb, after (call c) s.memory⟩⟩

end Machine

/-- A database on a new file, and an empty store in memory. -/
def start : Stores :=
  ⟨⟨⟨(∅ : AList fun _ : Text => StoredTable).insert OUT_IDX_TABLE (.out_index ∅)⟩, []⟩, ⟨.empty, []⟩⟩

theorem new_start : RedbStore.new ∅ = .ok start.redb.store := rfl

end Stores

/-! ### Names of tables -/

theorem queue_table_name_ne_out [ChannelIdText] (id : ChannelId) : queue_table_name id ≠ OUT_IDX_TABLE := by
  intro heq
  have hsecond : (queue_table_name id)[1]? = OUT_IDX_TABLE[1]? := congrArg (·[1]?) heq
  have hin : 1 < TABLE_QUEUE_NAME_PREFIX.length := by decide
  rw [queue_table_name, List.getElem?_append_left hin] at hsecond
  exact absurd hsecond (by decide)

theorem queue_table_name_inj [ChannelIdText] [LawfulChannelIdText] {id id' : ChannelId} :
    queue_table_name id = queue_table_name id' ↔ id = id' := by
  constructor
  · intro heq
    have hdisplay := congrArg ChannelIdText.from_str (List.append_cancel_left heq)
    rw [LawfulChannelIdText.round_trip, LawfulChannelIdText.round_trip] at hdisplay
    exact Option.some.inj hdisplay
  · intro heq
    rw [heq]

/-- The channel that is read off the name of a table. -/
def channel_of_name [ChannelIdText] (name : Text) : Option ChannelId :=
  (Text.strip_prefix name TABLE_QUEUE_NAME_PREFIX).bind ChannelIdText.from_str

theorem channel_of_queue_table_name [ChannelIdText] [LawfulChannelIdText] (id : ChannelId) :
    channel_of_name (queue_table_name id) = some id := by
  have hstrip : Text.strip_prefix (queue_table_name id) TABLE_QUEUE_NAME_PREFIX =
      some (ChannelIdText.display id) := Text.strip_prefix_eq_some.mpr rfl
  rw [channel_of_name, hstrip]
  exact LawfulChannelIdText.round_trip id

theorem channel_of_out_index [ChannelIdText] : channel_of_name OUT_IDX_TABLE = none := by
  have hstrip : Text.strip_prefix OUT_IDX_TABLE TABLE_QUEUE_NAME_PREFIX = none := by decide
  rw [channel_of_name, hstrip]
  rfl

namespace Stores
open Interchange (answer answer_ok)

section Proofs
variable [ChannelIdText] [Postcard]

/-- The tables of the database are those of the outgoing indices and of the channels' queues, and
each mirrors what the memory has. -/
structure Mirrored (d : RedbStore) (m : MemoryStore) : Prop where
  named : Heap.Named m.tickets.queues m.tickets.tickets
  tables : ∀ id, Option.Rel (fun stored r => ∃ table, stored = .tickets table ∧
      Interchange.Mirrors table.entries (m.tickets.queues.cell r).heap)
    (d.tables.lookup (queue_table_name id)) (m.tickets.tickets.lookup id)
  names : ∀ {name stored}, d.tables.lookup name = some stored →
    name = OUT_IDX_TABLE ∨ ∃ id, name = queue_table_name id
  out_index : ∃ table, d.tables.lookup OUT_IDX_TABLE = some (.out_index table) ∧
    ∀ k, table.lookup k = m.out_indices.out_indices.lookup k

theorem mirrored_start : Mirrored start.redb.store start.memory.store := by
  have hlookup : ∀ name, name ≠ OUT_IDX_TABLE → start.redb.store.tables.lookup name = none :=
    fun name hne => AList.lookup_insert_ne hne
  refine ⟨Heap.named_empty _, fun id => ?_, fun {name stored} hname => ?_, ∅, AList.lookup_insert _, fun k => rfl⟩
  · rw [hlookup _ (queue_table_name_ne_out id)]
    exact .none
  · by_cases hne : name = OUT_IDX_TABLE
    · exact .inl hne
    · rw [hlookup name hne] at hname
      cases hname

end Proofs

section Step
variable [ChannelIdText] [Postcard] {d d' : RedbStore} {m m' : MemoryStore}

theorem Mirrored.none_iff (h : Mirrored d m) (id : ChannelId) :
    d.tables.lookup (queue_table_name id) = none ↔ m.tickets.tickets.lookup id = none := by
  have hrel := h.tables id
  cases hrel' : m.tickets.tickets.lookup id with
  | none =>
    rw [hrel'] at hrel
    cases hd : d.tables.lookup (queue_table_name id) with
    | none => exact ⟨fun _ => rfl, fun _ => rfl⟩
    | some stored => rw [hd] at hrel; cases hrel
  | some r =>
    rw [hrel'] at hrel
    cases hd : d.tables.lookup (queue_table_name id) with
    | none => rw [hd] at hrel; cases hrel
    | some stored => exact ⟨fun heq => (nomatch heq), fun heq => (nomatch heq)⟩

/-- The table of a channel that has a queue. -/
theorem Mirrored.table (h : Mirrored d m) {id : ChannelId} {r : QueueRef}
    (hr : m.tickets.tickets.lookup id = some r) : ∃ table,
      d.tables.lookup (queue_table_name id) = some (.tickets table) ∧
      Interchange.Mirrors table.entries (m.tickets.queues.cell r).heap := by
  have hrel := h.tables id
  rw [hr] at hrel
  cases hd : d.tables.lookup (queue_table_name id) with
  | none => rw [hd] at hrel; cases hrel
  | some stored =>
    rw [hd] at hrel
    cases hrel with
    | some hstored =>
      obtain ⟨table, rfl, hmirrors⟩ := hstored
      exact ⟨table, rfl, hmirrors⟩

variable [LawfulChannelIdText]

/-- A change to the queue of one channel leaves the other tables and heaps as they are. -/
theorem Mirrored.change (h : Mirrored d m) (id : ChannelId)
    (hnamed : Heap.Named m'.tickets.queues m'.tickets.tickets)
    (hqueue : Option.Rel (fun stored r => ∃ table, stored = .tickets table ∧
        Interchange.Mirrors table.entries (m'.tickets.queues.cell r).heap)
      (d'.tables.lookup (queue_table_name id)) (m'.tickets.tickets.lookup id))
    (htables : ∀ name, name ≠ queue_table_name id → d'.tables.lookup name = d.tables.lookup name)
    (hheaps : ∀ id', id' ≠ id → m'.tickets.tickets.lookup id' = m.tickets.tickets.lookup id' ∧
      ∀ r, m.tickets.tickets.lookup id' = some r → m'.tickets.queues.cell r = m.tickets.queues.cell r)
    (hout : m'.out_indices = m.out_indices) : Mirrored d' m' := by
  refine ⟨hnamed, fun id' => ?_, fun {name stored} hname => ?_, ?_⟩
  · by_cases hid : id' = id
    · rw [hid]
      exact hqueue
    · obtain ⟨hlookup, hcells⟩ := hheaps id' hid
      rw [htables _ fun heq => hid (queue_table_name_inj.mp heq), hlookup]
      cases hr : m.tickets.tickets.lookup id' with
      | none =>
        rw [(h.none_iff id').mpr hr]
        exact .none
      | some r =>
        obtain ⟨table, hd, hmirrors⟩ := h.table hr
        rw [hd]
        refine .some ⟨table, rfl, ?_⟩
        rw [hcells r hr]
        exact hmirrors
  · by_cases hname' : name = queue_table_name id
    · exact .inr ⟨id, hname'⟩
    · rw [htables name hname'] at hname
      exact h.names hname
  · obtain ⟨table, hlookup, hsame⟩ := h.out_index
    refine ⟨table, ?_, fun k => ?_⟩
    · rw [htables _ fun heq => queue_table_name_ne_out id heq.symm]
      exact hlookup
    · rw [hsame, hout]

end Step

/-! ### Each call on both stores -/

section Simulation
variable [Postcard] {d : RedbStore} {m : MemoryStore}

theorem pop_all_mirrors {entries : List (BitVec 128 × List UInt8)} {heap : List RedeemableTicket}
    (h : Interchange.Mirrors entries heap) : RedbStore.pop_all entries = .ok (heap.map (·.ticket)) := by
  induction h with
  | nil => rfl
  | cons hread _ ih =>
    simp only [RedbStore.pop_all, hread.2, ih]
    rfl

variable [ChannelIdText]

/-- A write of outgoing indices that does the same on both sides. -/
theorem Mirrored.write_out_index (h : Mirrored d m)
    {write : (AList fun _ : IndexKey => UInt64) → AList fun _ : IndexKey => UInt64}
    {out_indices : MemoryIndexStore}
    (hwrite : ∀ table, (∀ k, table.lookup k = m.out_indices.out_indices.lookup k) →
      ∀ k, (write table).lookup k = out_indices.out_indices.lookup k) :
    ∃ d', (RedbStore.write_out_index write).run d = .ok () d' ∧ Mirrored d' {m with out_indices} := by
  obtain ⟨table, hlookup, hsame⟩ := h.out_index
  have hothers : ∀ name, name ≠ OUT_IDX_TABLE →
      (d.tables.insert OUT_IDX_TABLE (.out_index (write table))).lookup name = d.tables.lookup name :=
    fun name hname => AList.lookup_insert_ne hname
  refine ⟨_, RedbStore.write_out_index_run hlookup write, h.named, fun id => ?_, fun {name stored} hname => ?_,
    write table, AList.lookup_insert _, hwrite table hsame⟩
  · rw [hothers _ (queue_table_name_ne_out id)]
    exact h.tables id
  · by_cases hne : name = OUT_IDX_TABLE
    · exact .inl hne
    · rw [hothers name hne] at hname
      exact h.names hname

theorem Mirrored.save_outgoing_index (h : Mirrored d m) (k : IndexKey) (v : UInt64) :
    ∃ d', (RedbStore.save_outgoing_index k v).run d = .ok () d' ∧
      Mirrored d' {m with out_indices := ⟨m.out_indices.out_indices.insert k v⟩} := by
  refine h.write_out_index fun table hsame k' => ?_
  by_cases hk : k' = k
  · rw [hk, AList.lookup_insert, AList.lookup_insert]
  · rw [AList.lookup_insert_ne hk, AList.lookup_insert_ne hk, hsame]

theorem Mirrored.delete_outgoing_index (h : Mirrored d m) (k : IndexKey) :
    ∃ d', (RedbStore.delete_outgoing_index k).run d = .ok () d' ∧
      Mirrored d' {m with out_indices := ⟨m.out_indices.out_indices.erase k⟩} := by
  refine h.write_out_index fun table hsame k' => ?_
  by_cases hk : k' = k
  · rw [hk, AList.lookup_erase, AList.lookup_erase]
  · rw [AList.lookup_erase_ne hk, AList.lookup_erase_ne hk, hsame]

theorem Mirrored.load_outgoing_index (h : Mirrored d m) (k : IndexKey) :
    (RedbStore.load_outgoing_index k).run d = .ok (m.out_indices.out_indices.lookup k) d := by
  obtain ⟨table, hlookup, hsame⟩ := h.out_index
  simp only [RedbStore.load_outgoing_index, EStateM.run_bind, RedbStore.open_out_index_run hlookup,
    EStateM.run_pure, hsame]

theorem Mirrored.iter_outgoing_indices (h : Mirrored d m) : ∃ keys,
    RedbStore.iter_outgoing_indices.run d = .ok keys d ∧
    (keys : Multiset IndexKey) = m.out_indices.out_indices.keys := by
  obtain ⟨table, hlookup, hsame⟩ := h.out_index
  refine ⟨table.keys, ?_, Multiset.coe_eq_coe.mpr
    ((List.perm_ext_iff_of_nodup (AList.keys_nodup _) (AList.keys_nodup _)).mpr fun k => ?_)⟩
  · simp only [RedbStore.iter_outgoing_indices, EStateM.run_bind, RedbStore.open_out_index_run hlookup,
      EStateM.run_pure]
  · rw [← AList.mem_keys, ← AList.mem_keys, ← AList.lookup_isSome, ← AList.lookup_isSome, hsame]

variable [LawfulChannelIdText]

theorem Mirrored.open_or_create_queue (h : Mirrored d m) (id : ChannelId) : ∃ r d' tickets,
    (RedbStore.open_or_create_queue id).run d = .ok id d' ∧
    (TicketStore.open_or_create_queue id).run m.tickets = .ok r tickets ∧
    Mirrored d' {m with tickets} := by
  rcases TicketStore.open_or_create_queue_cases (ε := Empty) id m.tickets with
    ⟨r, hr, hrun⟩ | ⟨hnone, hrun⟩
  · obtain ⟨table, hd, _⟩ := h.table hr
    refine ⟨r, d, m.tickets, ?_, hrun, h⟩
    simp only [RedbStore.open_or_create_queue, EStateM.run, hd]
  · have hd := (h.none_iff id).mpr hnone
    have hcreate : (RedbStore.open_or_create_queue id).run d =
        .ok id ⟨d.tables.insert (queue_table_name id) (.tickets .empty)⟩ := by
      simp only [RedbStore.open_or_create_queue, EStateM.run, hd]
    refine ⟨_, _, _, hcreate, hrun, h.change id (h.named.alloc id _) ?_ ?_ ?_ rfl⟩
    · -- an empty table for an empty heap
      have htable : (RedbStore.mk (d.tables.insert (queue_table_name id) (.tickets .empty))).tables.lookup
          (queue_table_name id) = some (.tickets .empty) := AList.lookup_insert _
      have hheap : (m.tickets.tickets.insert id m.tickets.queues.next).lookup id =
          some m.tickets.queues.next := AList.lookup_insert _
      rw [htable, hheap]
      refine .some ⟨.empty, rfl, ?_⟩
      rw [Heap.cell_alloc_self]
      exact .nil
    · intro name hname
      exact AList.lookup_insert_ne hname
    · intro id' hid
      refine ⟨AList.lookup_insert_ne hid, fun r hr => ?_⟩
      exact Heap.cell_alloc_lt _ (h.named.allocated hr)

theorem Mirrored.delete_queue (h : Mirrored d m) (id : ChannelId) : ∃ neglected d' tickets,
    (RedbStore.delete_queue id).run d = .ok neglected d' ∧
    (TicketStore.delete_queue id).run m.tickets = .ok neglected tickets ∧
    Mirrored d' {m with tickets} := by
  have herase : (RedbStore.mk (d.tables.erase (queue_table_name id))).tables.lookup
      (queue_table_name id) = none := AList.lookup_erase _ _
  have hothers : ∀ name, name ≠ queue_table_name id →
      (d.tables.erase (queue_table_name id)).lookup name = d.tables.lookup name :=
    fun name hname => AList.lookup_erase_ne hname
  cases hr : m.tickets.tickets.lookup id with
  | none =>
    have hd := (h.none_iff id).mpr hr
    refine ⟨[], ⟨d.tables.erase (queue_table_name id)⟩, m.tickets, ?_, ?_, h.change id h.named ?_ hothers ?_ rfl⟩
    · simp only [RedbStore.delete_queue, EStateM.run, hd]
    · simp only [TicketStore.delete_queue, EStateM.run, hr]
    · rw [herase, hr]
      exact .none
    · exact fun id' _ => ⟨rfl, fun _ _ => rfl⟩
  | some r =>
    obtain ⟨table, hd, hmirrors⟩ := h.table hr
    have hdrain := TicketStore.on_queue_run (s := {m.tickets with tickets := m.tickets.tickets.erase id})
      (TicketQueue.drain_run (m.tickets.queues.cell r))
    refine ⟨(m.tickets.queues.cell r).heap.map (·.ticket), ⟨d.tables.erase (queue_table_name id)⟩,
      ⟨m.tickets.tickets.erase id, m.tickets.queues.set r (TicketQueue.drained (m.tickets.queues.cell r))⟩,
      ?_, ?_, h.change id ((h.named.erase id).set r _) ?_ hothers ?_ rfl⟩
    · exact RedbStore.delete_queue_run hd (pop_all_mirrors hmirrors)
    · simp only [TicketStore.delete_queue, EStateM.run, hr] at hdrain ⊢
      exact hdrain
    · have hgone : (m.tickets.tickets.erase id).lookup id = none := AList.lookup_erase _ _
      rw [herase, hgone]
      exact .none
    · intro id' hid
      refine ⟨AList.lookup_erase_ne hid, fun r' hr' => ?_⟩
      exact Heap.cell_set_ne (h.named.ne hid hr hr') _ _

/-- The names of the tables stand for the channels that have a queue. -/
theorem Mirrored.iter_queues (h : Mirrored d m) :
    ((d.tables.keys.filterMap channel_of_name : List ChannelId) : Multiset ChannelId) =
      m.tickets.tickets.keys := by
  have hnames : ∀ {name id}, name ∈ d.tables.keys → channel_of_name name = some id →
      name = queue_table_name id := by
    intro name id hname hid
    obtain ⟨stored, hstored⟩ := Option.isSome_iff_exists.mp
      (AList.lookup_isSome.mpr (AList.mem_keys.mpr hname))
    rcases h.names hstored with rfl | ⟨id', rfl⟩
    · rw [channel_of_out_index] at hid
      cases hid
    · rw [channel_of_queue_table_name] at hid
      cases hid
      rfl
  have hnodup : (d.tables.keys.filterMap channel_of_name).Nodup := by
    refine List.pairwise_filterMap.mpr ((AList.keys_nodup _).imp_of_mem fun hname hname' hne => ?_)
    intro id hid id' hid' heq
    rw [hnames hname hid, hnames hname' hid', heq] at hne
    exact hne rfl
  refine Multiset.coe_eq_coe.mpr ((List.perm_ext_iff_of_nodup hnodup (AList.keys_nodup _)).mpr fun id => ?_)
  rw [List.mem_filterMap, ← AList.mem_keys, ← AList.lookup_isSome]
  constructor
  · rintro ⟨name, hname, hid⟩
    have htable := AList.lookup_isSome.mpr (AList.mem_keys.mpr hname)
    rw [hnames hname hid] at htable
    cases hr : m.tickets.tickets.lookup id with
    | none => rw [(h.none_iff id).mpr hr] at htable; cases htable
    | some r => rfl
  · intro hr
    obtain ⟨r, hr⟩ := Option.isSome_iff_exists.mp hr
    obtain ⟨table, hd, _⟩ := h.table hr
    refine ⟨queue_table_name id, AList.mem_keys.mp (AList.lookup_isSome.mp ?_),
      channel_of_queue_table_name id⟩
    rw [hd]
    rfl

theorem Mirrored.on_queue [LawfulPostcard] (h : Mirrored d m) {id : ChannelId} {r : QueueRef}
    (hr : m.tickets.tickets.lookup id = some r) (c : Interchange.Call) : ∃ a d' tickets,
    (RedbStore.on_queue id (Interchange.redb_call c)).run d = .ok a d' ∧
    (TicketStore.on_queue r (Interchange.memory_call c)).run m.tickets = .ok a tickets ∧
    (Interchange.Fresh ⟨⟨some d.queue_tables, id⟩, m.tickets.queues.cell r⟩ c →
      Mirrored d' {m with tickets}) := by
  obtain ⟨table, hd, hmirrors⟩ := h.table hr
  have hopened : RedbTicketQueue.opened d.queue_tables id table = ⟨some d.queue_tables, id⟩ := by
    have htable : d.queue_tables id = some table := by simp only [RedbStore.queue_tables, hd]
    rw [RedbTicketQueue.opened, ← htable, Function.update_eq_self]
  obtain ⟨a, table', memory', hredb, hmemory, hkept⟩ := hmirrors.call d.queue_tables id c
  rw [hopened] at hredb hkept
  have hcommit : d.commit (RedbTicketQueue.opened d.queue_tables id table') =
      ⟨d.tables.insert (queue_table_name id) (.tickets table')⟩ := by
    simp only [RedbStore.commit, RedbTicketQueue.opened, Option.bind_some, Function.update_self]
  refine ⟨a, ⟨d.tables.insert (queue_table_name id) (.tickets table')⟩, _, ?_,
    TicketStore.on_queue_run hmemory, fun hfresh => ?_⟩
  · simp only [RedbStore.on_queue, EStateM.run, hd] at hredb ⊢
    simp only [hredb, hcommit]
  · refine h.change id (h.named.set r memory') ?_ (fun name hname => AList.lookup_insert_ne hname) ?_ rfl
    · have htable : (d.tables.insert (queue_table_name id) (.tickets table')).lookup (queue_table_name id) =
          some (.tickets table') := AList.lookup_insert _
      rw [htable, hr]
      refine .some ⟨table', rfl, ?_⟩
      rw [Heap.cell_set_self]
      exact hkept hfresh
    · exact fun id' hid => ⟨rfl, fun r' hr' => Heap.cell_set_ne (h.named.ne hid hr hr') _ _⟩

end Simulation

/-! ### Runs -/

section Runs
variable [ChannelIdText] [Postcard]

/-- The two clients have opened the same handles of stores that mirror each other. -/
structure Alike (s : Stores) : Prop where
  stores : Mirrored s.redb.store s.memory.store
  handles : s.redb.handles.length = s.memory.handles.length

theorem alike_start : Alike start := ⟨mirrored_start, rfl⟩

variable [LawfulPostcard] {s : Stores}

/-- **A call on a current handle, or on none, answers the same on both sides.** -/
theorem Alike.call [LawfulChannelIdText] (h : Alike s) (c : Call) (hc : Current s c) : ∃ a redb memory,
    (call c).run s.redb = .ok a redb ∧ (call c).run s.memory = .ok a memory ∧
    (Fresh s c → Alike ⟨redb, memory⟩) := by
  cases c with
  | open_or_create_queue id =>
    obtain ⟨r, d', tickets, hredb, hmemory, hkept⟩ := h.stores.open_or_create_queue id
    refine ⟨.done, _, _, open_run hredb, open_run (MemoryStore.on_tickets_run hmemory), fun _ => ⟨hkept, ?_⟩⟩
    rw [List.length_append, List.length_append, h.handles]
    rfl
  | delete_queue id =>
    obtain ⟨neglected, d', tickets, hredb, hmemory, hkept⟩ := h.stores.delete_queue id
    exact ⟨.neglected neglected, _, _, delete_run hredb, delete_run (MemoryStore.on_tickets_run hmemory),
      fun _ => ⟨hkept, h.handles⟩⟩
  | iter_queues =>
    have hredb : TicketQueueStore.iter_queues.run s.redb.store =
        .ok (s.redb.store.tables.keys.filterMap channel_of_name) s.redb.store := rfl
    have hmemory : TicketQueueStore.iter_queues.run s.memory.store =
        .ok s.memory.store.tickets.tickets.keys s.memory.store := rfl
    refine ⟨.queues s.memory.store.tickets.tickets.keys, s.redb, s.memory, ?_, iter_run hmemory, fun _ => h⟩
    rw [← h.stores.iter_queues]
    exact iter_run hredb
  | on_queue i c =>
    cases hid : s.redb.handles[i]? with
    | none =>
      have hr : s.memory.handles[i]? = none := by
        rw [List.getElem?_eq_none_iff] at hid ⊢
        rwa [← h.handles]
      exact ⟨.no_handle, s.redb, s.memory, no_handle_run hid, no_handle_run hr, fun _ => h⟩
    | some id =>
      obtain ⟨r, hr⟩ : ∃ r, s.memory.handles[i]? = some r := by
        obtain ⟨hi, _⟩ := List.getElem?_eq_some_iff.mp hid
        exact ⟨_, List.getElem?_eq_getElem (h.handles ▸ hi)⟩
      have hhandle : s.handle i = some (id, r) := by
        simp only [handle, hid, hr]
        rfl
      obtain ⟨a, d', tickets, hredb, hmemory, hkept⟩ := h.stores.on_queue (hc _ hhandle) c
      exact ⟨.queue a, _, _, on_queue_run hid hredb, on_queue_run hr (MemoryStore.on_tickets_run hmemory),
        fun hfresh => ⟨hkept (hfresh _ hhandle), h.handles⟩⟩
  | load_outgoing_index k =>
    exact ⟨.index _, s.redb, s.memory, load_index_run (h.stores.load_outgoing_index k), load_index_run rfl,
      fun _ => h⟩
  | save_outgoing_index k v =>
    obtain ⟨d', hredb, hkept⟩ := h.stores.save_outgoing_index k v
    exact ⟨.done, _, _, save_index_run hredb, save_index_run rfl, fun _ => ⟨hkept, h.handles⟩⟩
  | delete_outgoing_index k =>
    obtain ⟨d', hredb, hkept⟩ := h.stores.delete_outgoing_index k
    exact ⟨.done, _, _, delete_index_run hredb, delete_index_run rfl, fun _ => ⟨hkept, h.handles⟩⟩
  | iter_outgoing_indices =>
    obtain ⟨keys, hredb, hsame⟩ := h.stores.iter_outgoing_indices
    refine ⟨.keys s.memory.store.out_indices.out_indices.keys, s.redb, s.memory, ?_, iter_index_run rfl,
      fun _ => h⟩
    rw [← hsame]
    exact iter_index_run hredb

/-- A push on a table that is not there makes it. -/
theorem push_without_table {d : RedbStore} {id : ChannelId}
    (hgone : d.tables.lookup (queue_table_name id) = none) (t : RedeemableTicket) : ∃ table bytes,
    (RedbStore.on_queue id (Interchange.redb_call (.push t))).run d =
      .ok .done ⟨d.tables.insert (queue_table_name id) (.tickets table)⟩ ∧
    table.entries = [(make_index t, bytes)] ∧ Postcard.from_bytes bytes = .ok t := by
  obtain ⟨bytes, hwrite, hread⟩ := LawfulPostcard.round_trip t
  have htable : d.queue_tables id = none := by simp only [RedbStore.queue_tables, hgone]
  have hopen : RedbTicketQueue.open_or_create_table.run ⟨some d.queue_tables, id⟩ =
      .ok .empty ⟨some d.queue_tables, id⟩ := by
    simp only [RedbTicketQueue.open_or_create_table, EStateM.run_bind, EStateM.run_get, htable]
    rfl
  have hrun : (RedbTicketQueue.push t).run ⟨some d.queue_tables, id⟩ =
      .ok () (RedbTicketQueue.opened d.queue_tables id (OrderedMap.empty.insert (make_index t) bytes)) := by
    simp only [RedbTicketQueue.push, EStateM.run_bind, hopen, hwrite, RedbTicketQueue.lift_ok_run,
      RedbTicketQueue.commit, EStateM.run_modify, Option.map_some, RedbTicketQueue.opened]
  have hpush : (Interchange.redb_call (.push t)).run ⟨some d.queue_tables, id⟩ = .ok .done _ :=
    Interchange.run_return_ok hrun fun _ => Interchange.Answer.done
  refine ⟨OrderedMap.empty.insert (make_index t) bytes, bytes, ?_, rfl, hread⟩
  simp only [RedbStore.on_queue, EStateM.run, hgone] at hpush ⊢
  simp only [hpush, RedbStore.commit, RedbTicketQueue.opened, Option.bind_some, Function.update_self]

/-- **A handle of a deleted queue brings it back in the database only**: a ticket pushed through it
is found by the next who deletes the queue there, and by nobody in memory. -/
theorem Alike.stale_push (h : Alike s) {i : Nat} {id : ChannelId} {r : QueueRef}
    (hhandle : s.handle i = some (id, r)) (hgone : s.memory.store.tickets.tickets.lookup id = none)
    (t : RedeemableTicket) :
    answer (Stores.call (.on_queue i (.push t))) s.redb = some (.queue .done) ∧
    answer (Stores.call (.on_queue i (.push t))) s.memory = some (.queue .done) ∧
    answer (Stores.call (.delete_queue id)) (after (Stores.call (.on_queue i (.push t))) s.redb) =
      some (.neglected [t.ticket]) ∧
    answer (Stores.call (.delete_queue id)) (after (Stores.call (.on_queue i (.push t))) s.memory) =
      some (.neglected []) := by
  obtain ⟨hid, hr⟩ : s.redb.handles[i]? = some id ∧ s.memory.handles[i]? = some r := by
    cases hid : s.redb.handles[i]? with
    | none => simp [handle, hid] at hhandle
    | some id' =>
      cases hr : s.memory.handles[i]? with
      | none => simp [handle, hid, hr] at hhandle
      | some r' =>
        simp only [handle, hid, hr] at hhandle
        cases hhandle
        exact ⟨rfl, rfl⟩
  have htable := (h.stores.none_iff id).mpr hgone
  obtain ⟨table, bytes, hpush, hentries, hread⟩ := push_without_table htable t
  have hredb : (Stores.call (.on_queue i (.push t))).run s.redb = .ok _ _ := on_queue_run hid hpush
  have hpush' : (Interchange.memory_call (.push t)).run (s.memory.store.tickets.queues.cell r) =
      .ok .done ((s.memory.store.tickets.queues.cell r).push t) :=
    Interchange.run_return_ok (m := TicketQueue.push t) rfl fun _ => Interchange.Answer.done
  have hstore : (TicketQueueStore.on_queue r (.push t)).run s.memory.store =
      .ok Interchange.Answer.done ⟨⟨s.memory.store.tickets.tickets,
        s.memory.store.tickets.queues.set r ((s.memory.store.tickets.queues.cell r).push t)⟩,
        s.memory.store.out_indices⟩ :=
    MemoryStore.on_tickets_run (TicketStore.on_queue_run hpush')
  have hmemory := on_queue_run hr hstore
  refine ⟨answer_ok hredb, answer_ok hmemory, ?_, ?_⟩
  · rw [after_ok hredb]
    have hpop : RedbStore.pop_all table.entries = .ok [t.ticket] := by
      simp only [hentries, RedbStore.pop_all, hread]
      rfl
    exact answer_ok (delete_run (RedbStore.delete_queue_run (AList.lookup_insert _) hpop))
  · rw [after_ok hmemory]
    have hdelete : ∀ queues : Heap MemoryTicketQueue,
        (TicketStore.delete_queue id).run ⟨s.memory.store.tickets.tickets, queues⟩ =
          .ok (ε := Empty) [] ⟨s.memory.store.tickets.tickets, queues⟩ := by
      intro queues
      simp only [TicketStore.delete_queue, EStateM.run, hgone]
    exact answer_ok (delete_run (MemoryStore.on_tickets_run (hdelete _)))

variable [LawfulChannelIdText]

theorem alike_run {calls : List Call} (hcalls : machine.Meets (fun s c => Current s c ∧ Fresh s c) start calls)
    (hrun : machine.run start calls = some s) : Alike s := by
  have hkeep : ∀ s c s', (Current s c ∧ Fresh s c) → Alike s → machine.step s c = some s' → Alike s' := by
    intro s c s' hc h hstep
    obtain ⟨a, redb, memory, hredb, hmemory, hkept⟩ := h.call c hc.1
    cases hstep
    rw [after_ok hredb, after_ok hmemory]
    exact hkept hc.2
  exact machine.run_invariant hkeep hcalls hrun alike_start

/-- **The stores are interchangeable** to clients that leave handles of deleted queues alone and push
no second ticket of one epoch and index: every call answers the same on both, without an error. -/
theorem stores_interchangeable {calls : List Call}
    (hcalls : machine.Meets (fun s c => Current s c ∧ Fresh s c) start calls)
    (hrun : machine.run start calls = some s) (c : Call) (hc : Current s c) :
    ∃ a, answer (call c) s.redb = some a ∧ answer (call c) s.memory = some a := by
  obtain ⟨a, redb, memory, hredb, hmemory, _⟩ := (alike_run hcalls hrun).call c hc
  exact ⟨a, answer_ok hredb, answer_ok hmemory⟩

/-- After every run, a ticket that is pushed through the handle of a deleted queue is stored in the
database and lost in memory. -/
theorem deleted_queue_revived {calls : List Call}
    (hcalls : machine.Meets (fun s c => Current s c ∧ Fresh s c) start calls)
    (hrun : machine.run start calls = some s) {i : Nat} {id : ChannelId} {r : QueueRef}
    (hhandle : s.handle i = some (id, r)) (hgone : s.memory.store.tickets.tickets.lookup id = none)
    (t : RedeemableTicket) :
    answer (call (.on_queue i (.push t))) s.redb = some (.queue .done) ∧
    answer (call (.on_queue i (.push t))) s.memory = some (.queue .done) ∧
    answer (call (.delete_queue id)) (after (call (.on_queue i (.push t))) s.redb) =
      some (.neglected [t.ticket]) ∧
    answer (call (.delete_queue id)) (after (call (.on_queue i (.push t))) s.memory) =
      some (.neglected []) :=
  (alike_run hcalls hrun).stale_push hhandle hgone t

end Runs

section Concrete

instance : ∀ s c, Decidable (Current s c)
  | s, .on_queue i _ => inferInstanceAs (Decidable (∀ h ∈ s.handle i,
      s.memory.store.tickets.tickets.lookup h.1 = some h.2))
  | _, .open_or_create_queue _ | _, .delete_queue _ | _, .iter_queues | _, .load_outgoing_index _
  | _, .save_outgoing_index _ _ | _, .delete_outgoing_index _ | _, .iter_outgoing_indices => isTrue trivial

instance [ChannelIdText] : ∀ s c, Decidable (Fresh s c)
  | s, .on_queue i c => inferInstanceAs (Decidable (∀ h ∈ s.handle i,
      Interchange.Fresh (s.queues h.1 h.2) c))
  | _, .open_or_create_queue _ | _, .delete_queue _ | _, .iter_queues | _, .load_outgoing_index _
  | _, .save_outgoing_index _ _ | _, .delete_outgoing_index _ | _, .iter_outgoing_indices => isTrue trivial

/-- One of two queues is deleted with the ticket that is left in it. -/
theorem stores_interchangeable_queues :
    let calls : List Call := [.open_or_create_queue ⟨[1]⟩, .open_or_create_queue ⟨[2]⟩,
      .on_queue 0 (.push (.of 1 1 4 10)), .on_queue 0 (.push (.of 1 1 3 20)), .on_queue 0 .pop,
      .save_outgoing_index (⟨[1]⟩, 1) 7, .delete_queue ⟨[1]⟩]
    ∃ s, machine.run start calls = some s ∧
      answer (call .iter_queues) s.redb = some (.queues (([⟨[2]⟩] : List ChannelId) : Multiset ChannelId)) := by
  intro calls
  have hcalls : machine.Meets (fun s c => Current s c ∧ Fresh s c) start calls := by decide +kernel
  obtain ⟨s, hrun, hqueues⟩ : ∃ s, machine.run start calls = some s ∧
      answer (call .iter_queues) s.memory =
        some (.queues (([⟨[2]⟩] : List ChannelId) : Multiset ChannelId)) :=
    machine.exists_run (by decide +kernel)
  obtain ⟨a, hredb, hmemory⟩ := stores_interchangeable hcalls hrun .iter_queues trivial
  exact ⟨s, hrun, hredb.trans (hmemory.symm.trans hqueues)⟩

/-- A handle is opened, its queue is deleted, and a ticket is pushed through it. -/
theorem deleted_queue_revived_push : ∃ s,
    machine.run start [.open_or_create_queue ⟨[1]⟩, .delete_queue ⟨[1]⟩] = some s ∧
    answer (call (.delete_queue ⟨[1]⟩)) (after (call (.on_queue 0 (.push (.of 1 1 4 10)))) s.redb) =
      some (.neglected [(RedeemableTicket.of 1 1 4 10).ticket]) := by
  have hcalls : machine.Meets (fun s c => Current s c ∧ Fresh s c) start
      [.open_or_create_queue ⟨[1]⟩, .delete_queue ⟨[1]⟩] := by decide +kernel
  obtain ⟨s, hrun, hhandle, hgone⟩ : ∃ s,
      machine.run start [.open_or_create_queue ⟨[1]⟩, .delete_queue ⟨[1]⟩] = some s ∧
      s.handle 0 = some (⟨[1]⟩, 0) ∧ s.memory.store.tickets.tickets.lookup ⟨[1]⟩ = none :=
    machine.exists_run (by decide +kernel)
  exact ⟨s, hrun, (deleted_queue_revived hcalls hrun hhandle hgone _).2.2.1⟩

end Concrete

end Stores

end Hopr.TicketManager
