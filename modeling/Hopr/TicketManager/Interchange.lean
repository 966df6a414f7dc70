import Mathlib.Data.Multiset.Basic
import Hopr.Library.Machine
import Hopr.TicketManager.Memory
import Hopr.TicketManager.Redb

/-! The two ticket queues side by side.

Each call of the trait is made on both queues. As long as no ticket is pushed
whose epoch and index another queued ticket has, the table of the one holds the
heap of the other, ticket for ticket and in the same order (`Mirrors`), so that
every call answers the same (`interchangeable`). A ticket that is pushed on such
a ticket replaces it in the table and joins it in the heap (`Mirrors.replaced`). -/
namespace Hopr.TicketManager.Interchange
open Library TicketQueue

inductive Call where
  | push (ticket : RedeemableTicket)
  | pop
  | peek
  | len
  | is_empty
  | drain
  | total_value (epoch : UInt32) (min_index : Option UInt64)
  | iter_unordered
deriving DecidableEq

inductive Answer where
  | done
  | ticket (ticket : Option RedeemableTicket)
  | count (n : Nat)
  | flag (b : Bool)
  | tickets (tickets : List VerifiedTicket)
  | value (value : HoprBalance)
  /-- The iterated tickets in any order; `none` for one that cannot be read. -/
  | visited (tickets : Multiset (Option RedeemableTicket))
deriving DecidableEq

/-- A call, given the queue's own `is_empty`. -/
def call {Q ε : Type} [TicketQueue Q ε] (is_empty : EStateM ε Q Bool) :
    Call → EStateM ε Q Answer
  | .push ticket => do push ticket; return .done
  | .pop => return .ticket (← pop)
  | .peek => return .ticket (← peek)
  | .len => return .count (← len)
  | .is_empty => return .flag (← is_empty)
  | .drain => return .tickets (← drain)
  | .total_value epoch min_index => return .value (← default_total_value epoch min_index)
  | .iter_unordered => return .visited ((← iter_unordered).map Except.toOption)

/-- What a call answers; `none` for an error. -/
def answer {ε Q α : Type} (m : EStateM ε Q α) (q : Q) : Option α :=
  match m.run q with
  | .ok a _ => some a
  | .error _ _ => none

theorem answer_ok {ε Q α : Type} {m : EStateM ε Q α} {q q' : Q} {a : α} (h : m.run q = .ok a q') :
    answer m q = some a := by
  unfold answer
  rw [h]

theorem run_return_ok {ε Q α β : Type} {m : EStateM ε Q α} {q q' : Q} {a : α}
    (h : m.run q = .ok a q') (f : α → β) : (do return f (← m) : EStateM ε Q β).run q = .ok (f a) q' := by
  simp only [EStateM.run_bind, h, EStateM.run_pure]

structure Queues where
  redb : RedbTicketQueue
  memory : MemoryTicketQueue

/-- The queue that `open_or_create_queue` opens in a new database, and a new heap. -/
def start (channel_id : ChannelId) : Queues :=
  ⟨⟨some (Function.update (fun _ => none) channel_id (some .empty)), channel_id⟩, .empty⟩

/-- No queued ticket has the epoch and the index of the ticket that is pushed. -/
def Fresh (s : Queues) : Call → Prop
  | .push t => ∀ u ∈ s.memory.heap,
      ¬(u.verified_ticket.channel_epoch = t.verified_ticket.channel_epoch ∧
        u.verified_ticket.index = t.verified_ticket.index)
  | _ => True

section Machine
variable [Postcard]

def redb_call : Call → EStateM RedbStoreError RedbTicketQueue Answer :=
  call RedbTicketQueue.is_empty

def memory_call : Call → EStateM Empty MemoryTicketQueue Answer :=
  call MemoryTicketQueue.is_empty

def machine : Machine Queues Call :=
  ⟨fun s c => some ⟨after (redb_call c) s.redb, after (memory_call c) s.memory⟩⟩

end Machine

/-! ### The table and the heap -/

section Mirrors
variable [Postcard]

/-- Entry for ticket, the key is the ticket's and the bytes are read as the ticket. -/
def Mirrors (entries : List (BitVec 128 × List UInt8)) (heap : List RedeemableTicket) : Prop :=
  List.Forall₂ (fun e t => e.1 = make_index t ∧ Postcard.from_bytes e.2 = .ok t) entries heap

section Lists
variable {entries : List (BitVec 128 × List UInt8)} {heap : List RedeemableTicket}

theorem Mirrors.map_read (h : Mirrors entries heap) {ε : Type} (f : PostcardError → ε) :
    entries.map (fun e => (Postcard.from_bytes e.2).mapError f) = heap.map .ok := by
  induction h with
  | nil => rfl
  | cons hread _ ih =>
    rw [List.map_cons, List.map_cons, ih, hread.2]
    rfl

theorem Mirrors.filterMap_read (h : Mirrors entries heap) :
    entries.filterMap (fun e => (Postcard.from_bytes e.2).toOption) = heap := by
  induction h with
  | nil => rfl
  | cons hread _ ih =>
    rw [List.filterMap_cons, ih, hread.2]
    rfl

theorem Mirrors.tail (h : Mirrors entries heap) : Mirrors entries.tail heap.tail := by
  cases h with
  | nil => exact .nil
  | cons _ hrest => exact hrest

theorem Mirrors.keys (h : Mirrors entries heap) : entries.map (·.1) = heap.map make_index := by
  induction h with
  | nil => rfl
  | cons hread _ ih => rw [List.map_cons, List.map_cons, ih, hread.1]

theorem Mirrors.mem_keys (h : Mirrors entries heap) (t : RedeemableTicket) :
    (∃ e ∈ entries, e.1 = make_index t) ↔
      ∃ u ∈ heap, u.verified_ticket.channel_epoch = t.verified_ticket.channel_epoch ∧
        u.verified_ticket.index = t.verified_ticket.index := by
  have hmem : make_index t ∈ entries.map (·.1) ↔ make_index t ∈ heap.map make_index := by
    rw [h.keys]
  simpa only [List.mem_map, make_index_eq_iff] using hmem

end Lists

end Mirrors

section Queues
variable {db : Database} {channel_id : ChannelId} {table : Table} {memory : MemoryTicketQueue}

theorem memory_len : answer (memory_call .len) memory = some (.count memory.heap.length) := by
  have hrun : len.run memory = .ok memory.heap.length memory := rfl
  exact answer_ok (run_return_ok hrun Answer.count)

variable [Postcard]

theorem Mirrors.tickets (h : Mirrors table.entries memory.heap) :
    TicketQueue.tickets (RedbTicketQueue.opened db channel_id table) = memory.heap := by
  rw [RedbTicketQueue.tickets_opened]
  exact h.filterMap_read

/-- A ticket with a new epoch and index lands in the same place on both sides. -/
theorem Mirrors.push (h : Mirrors table.entries memory.heap) {t : RedeemableTicket}
    {bytes : List UInt8} (hread : Postcard.from_bytes bytes = .ok t)
    (hfresh : ∀ u ∈ memory.heap,
      ¬(u.verified_ticket.channel_epoch = t.verified_ticket.channel_epoch ∧
        u.verified_ticket.index = t.verified_ticket.index)) :
    Mirrors (table.insert (make_index t) bytes).entries (memory.push t).heap := by
  show Mirrors (insertEntry (make_index t) bytes table.entries) _
  have hkeys : ∀ e ∈ table.entries, e.1 ≠ make_index t := by
    intro e he hkey
    obtain ⟨u, hu, hsame⟩ := (h.mem_keys t).mp ⟨e, he, hkey⟩
    exact hfresh u hu hsame
  rw [insertEntry_fresh hkeys]
  refine forall₂_orderedInsert ⟨rfl, hread⟩ (fun e u he => ?_) h
  rw [he.1]
  exact make_index_lt_iff

theorem Mirrors.pop_run (h : Mirrors table.entries memory.heap) :
    pop.run (RedbTicketQueue.opened db channel_id table) =
      .ok memory.heap.head? (RedbTicketQueue.opened db channel_id table.pop_first.2) := by
  show RedbTicketQueue.pop.run _ = _
  unfold Mirrors at h
  cases hheap : memory.heap with
  | nil =>
    rw [hheap, List.forall₂_nil_right_iff] at h
    exact RedbTicketQueue.pop_run_nil h
  | cons t rest =>
    rw [hheap] at h
    obtain ⟨e, entries, ⟨_, hread⟩, _, hentries⟩ := List.forall₂_cons_right_iff.mp h
    exact RedbTicketQueue.pop_run_cons hentries hread

theorem Mirrors.peek_run (h : Mirrors table.entries memory.heap) :
    peek.run (RedbTicketQueue.opened db channel_id table) =
      .ok memory.heap.head? (RedbTicketQueue.opened db channel_id table) := by
  show RedbTicketQueue.peek.run _ = _
  unfold Mirrors at h
  cases hheap : memory.heap with
  | nil =>
    rw [hheap, List.forall₂_nil_right_iff] at h
    exact RedbTicketQueue.peek_run_nil h
  | cons t rest =>
    rw [hheap] at h
    obtain ⟨e, entries, ⟨_, hread⟩, _, hentries⟩ := List.forall₂_cons_right_iff.mp h
    exact RedbTicketQueue.peek_run_cons hentries hread

theorem Mirrors.iter_unordered_run (h : Mirrors table.entries memory.heap) :
    iter_unordered.run (RedbTicketQueue.opened db channel_id table) =
      .ok (memory.heap.map .ok) (RedbTicketQueue.opened db channel_id table) := by
  rw [← h.map_read RedbStoreError.Serialization]
  exact RedbTicketQueue.iter_unordered_run

variable (db channel_id)

/-- Both queues are popped until they are empty. -/
theorem Mirrors.drain_loop (n : Nat) (hn : memory.heap.length < n)
    (h : Mirrors table.entries memory.heap) : ∃ drained table' memory',
      (TicketQueue.drain_loop n).run (RedbTicketQueue.opened db channel_id table) =
        .ok drained (RedbTicketQueue.opened db channel_id table') ∧
      (TicketQueue.drain_loop n).run memory = .ok drained memory' ∧
      Mirrors table'.entries memory'.heap := by
  induction n generalizing table memory with
  | zero => exact absurd hn (Nat.not_lt_zero _)
  | succ n ih =>
    have hrest : Mirrors table.pop_first.2.entries memory.pop.heap := h.tail
    have hmemory : pop.run memory = .ok memory.heap.head? memory.pop := rfl
    simp only [TicketQueue.drain_loop, EStateM.run_bind, h.pop_run, hmemory]
    cases hheap : memory.heap with
    | nil => exact ⟨[], table.pop_first.2, memory.pop, rfl, rfl, hrest⟩
    | cons t rest =>
      have hlen : memory.pop.heap.length < n := by
        show memory.heap.tail.length < n
        rw [hheap] at hn ⊢
        exact Nat.lt_of_succ_lt_succ hn
      obtain ⟨drained, table', memory', hredb, hmem, hmirrors⟩ := ih hlen hrest
      refine ⟨t.ticket :: drained, table', memory', ?_, ?_, hmirrors⟩
      · simp only [List.head?_cons, EStateM.run_bind, hredb, EStateM.run_pure]
      · simp only [List.head?_cons, EStateM.run_bind, hmem, EStateM.run_pure]

theorem Mirrors.drain (h : Mirrors table.entries memory.heap) : ∃ drained table' memory',
    TicketQueue.drain.run (RedbTicketQueue.opened db channel_id table) =
      .ok drained (RedbTicketQueue.opened db channel_id table') ∧
    TicketQueue.drain.run memory = .ok drained memory' ∧ Mirrors table'.entries memory'.heap := by
  obtain ⟨drained, table', memory', hredb, hmem, hmirrors⟩ :=
    h.drain_loop db channel_id (memory.heap.length + 1) (Nat.lt_succ_self _)
  refine ⟨drained, table', memory', ?_, ?_, hmirrors⟩
  · simp only [TicketQueue.drain, EStateM.run_bind, EStateM.run_get, h.tickets, hredb]
  · have htickets : TicketQueue.tickets memory = memory.heap := rfl
    simp only [TicketQueue.drain, EStateM.run_bind, EStateM.run_get, htickets, hmem]

theorem Mirrors.total_value (h : Mirrors table.entries memory.heap) (epoch : UInt32)
    (min_index : Option UInt64) : ∃ value,
      (default_total_value epoch min_index).run (RedbTicketQueue.opened db channel_id table) =
        .ok value (RedbTicketQueue.opened db channel_id table) ∧
      (default_total_value epoch min_index).run memory = .ok value memory := by
  have hmemory : iter_unordered.run memory = .ok (memory.heap.map .ok) memory := rfl
  simp only [default_total_value, EStateM.run_bind, h.iter_unordered_run, hmemory,
    EStateM.run_pure, filterMap_value_in]
  exact ⟨_, rfl, rfl⟩

/-- **Every call answers the same on both sides**, and the two go on mirroring each other unless a
ticket was pushed on one with its epoch and index. -/
theorem Mirrors.call [LawfulPostcard] (h : Mirrors table.entries memory.heap) (c : Call) :
    ∃ a table' memory',
      (redb_call c).run (RedbTicketQueue.opened db channel_id table) =
        .ok a (RedbTicketQueue.opened db channel_id table') ∧
      (memory_call c).run memory = .ok a memory' ∧
      (Fresh ⟨RedbTicketQueue.opened db channel_id table, memory⟩ c →
        Mirrors table'.entries memory'.heap) := by
  cases c with
  | push t =>
    obtain ⟨bytes, hwrite, hread⟩ := LawfulPostcard.round_trip t
    have hmemory : (TicketQueue.push t).run memory = .ok () (memory.push t) := rfl
    exact ⟨.done, table.insert (make_index t) bytes, memory.push t,
      run_return_ok (RedbTicketQueue.push_run hwrite) fun _ => Answer.done,
      run_return_ok hmemory fun _ => Answer.done, fun hfresh => h.push hread hfresh⟩
  | pop =>
    have hmemory : pop.run memory = .ok memory.heap.head? memory.pop := rfl
    exact ⟨.ticket memory.heap.head?, table.pop_first.2, memory.pop,
      run_return_ok h.pop_run Answer.ticket, run_return_ok hmemory Answer.ticket, fun _ => h.tail⟩
  | peek =>
    have hmemory : peek.run memory = .ok memory.heap.head? memory := rfl
    exact ⟨.ticket memory.heap.head?, table, memory, run_return_ok h.peek_run Answer.ticket,
      run_return_ok hmemory Answer.ticket, fun _ => h⟩
  | len =>
    have hredb : len.run (RedbTicketQueue.opened db channel_id table) =
        .ok memory.heap.length (RedbTicketQueue.opened db channel_id table) := by
      rw [← h.length_eq]
      exact RedbTicketQueue.len_run
    have hmemory : len.run memory = .ok memory.heap.length memory := rfl
    exact ⟨.count memory.heap.length, table, memory, run_return_ok hredb Answer.count,
      run_return_ok hmemory Answer.count, fun _ => h⟩
  | is_empty =>
    have hempty : table.entries.isEmpty = memory.heap.isEmpty := by
      rw [Bool.eq_iff_iff, List.isEmpty_iff_length_eq_zero, List.isEmpty_iff_length_eq_zero,
        h.length_eq]
    have hmemory : MemoryTicketQueue.is_empty.run memory = .ok memory.heap.isEmpty memory := rfl
    rw [← hempty] at hmemory
    exact ⟨.flag table.entries.isEmpty, table, memory,
      run_return_ok RedbTicketQueue.is_empty_run Answer.flag, run_return_ok hmemory Answer.flag,
      fun _ => h⟩
  | drain =>
    obtain ⟨drained, table', memory', hredb, hmemory, hmirrors⟩ := h.drain db channel_id
    exact ⟨.tickets drained, table', memory', run_return_ok hredb Answer.tickets,
      run_return_ok hmemory Answer.tickets, fun _ => hmirrors⟩
  | total_value epoch min_index =>
    obtain ⟨value, hredb, hmemory⟩ := h.total_value db channel_id epoch min_index
    exact ⟨.value value, table, memory, run_return_ok hredb Answer.value,
      run_return_ok hmemory Answer.value, fun _ => h⟩
  | iter_unordered =>
    have hmemory : iter_unordered.run memory = .ok (memory.heap.map .ok) memory := rfl
    have hvisited : ∀ ε : Type, (memory.heap.map (Except.ok (ε := ε))).map Except.toOption =
        memory.heap.map some := fun ε => List.map_map
    refine ⟨.visited (memory.heap.map some), table, memory, ?_, ?_, fun _ => h⟩
    · rw [← hvisited RedbStoreError]
      exact run_return_ok h.iter_unordered_run fun l => Answer.visited (l.map Except.toOption)
    · rw [← hvisited Empty]
      exact run_return_ok hmemory fun l => Answer.visited (l.map Except.toOption)

theorem redb_len : answer (redb_call .len) (RedbTicketQueue.opened db channel_id table) =
    some (.count table.entries.length) :=
  answer_ok (run_return_ok RedbTicketQueue.len_run Answer.count)

/-- **A ticket that is pushed on a queued one with its epoch and index replaces it** in the table
and joins it in the heap. -/
theorem Mirrors.replaced [LawfulPostcard] (h : Mirrors table.entries memory.heap)
    {t : RedeemableTicket}
    (ht : ¬Fresh ⟨RedbTicketQueue.opened db channel_id table, memory⟩ (.push t)) :
    answer (redb_call .len)
        (after (redb_call (.push t)) (RedbTicketQueue.opened db channel_id table)) =
      some (.count memory.heap.length) ∧
    answer (memory_call .len) (after (memory_call (.push t)) memory) =
      some (.count (memory.heap.length + 1)) := by
  obtain ⟨bytes, hwrite, _⟩ := LawfulPostcard.round_trip t
  have hredb : (redb_call (.push t)).run (RedbTicketQueue.opened db channel_id table) =
      .ok .done (RedbTicketQueue.opened db channel_id (table.insert (make_index t) bytes)) :=
    run_return_ok (RedbTicketQueue.push_run hwrite) fun _ => Answer.done
  have hmemory : (memory_call (.push t)).run memory = .ok .done (memory.push t) :=
    run_return_ok (m := TicketQueue.push t) rfl fun _ => Answer.done
  rw [after_ok hredb, after_ok hmemory]
  constructor
  · have hpresent : ∃ e ∈ table.entries, e.1 = make_index t := by
      rw [h.mem_keys t]
      simpa [Fresh] using ht
    have hlen : (table.insert (make_index t) bytes).entries.length = memory.heap.length := by
      rw [← h.length_eq]
      exact length_insertEntry_present table.sorted hpresent
    rw [← hlen]
    exact redb_len _ _
  · have hlen : (memory.push t).heap.length = memory.heap.length + 1 :=
      (List.perm_orderedInsert _ t memory.heap).length_eq
    rw [← hlen]
    exact memory_len

end Queues

section Runs
variable [Postcard] [LawfulPostcard]

theorem mirrors_run {channel_id : ChannelId} {calls : List Call} {s : Queues}
    (hfresh : machine.Meets Fresh (start channel_id) calls)
    (hrun : machine.run (start channel_id) calls = some s) : ∃ db channel_id table,
      s.redb = RedbTicketQueue.opened db channel_id table ∧
        Mirrors table.entries s.memory.heap := by
  have hkeep : ∀ s c s', Fresh s c → (∃ db channel_id table,
      s.redb = RedbTicketQueue.opened db channel_id table ∧
        Mirrors table.entries s.memory.heap) → machine.step s c = some s' →
      ∃ db channel_id table, s'.redb = RedbTicketQueue.opened db channel_id table ∧
        Mirrors table.entries s'.memory.heap := by
    intro s c s' hc ⟨db, channel_id, table, hredb, h⟩ hstep
    obtain ⟨redb, memory⟩ := s
    subst hredb
    cases hstep
    obtain ⟨a, table', memory', hrun, hrun', hmirrors⟩ := h.call db channel_id c
    rw [after_ok hrun, after_ok hrun']
    exact ⟨db, channel_id, table', rfl, hmirrors hc⟩
  exact machine.run_invariant hkeep hfresh hrun ⟨fun _ => none, channel_id, .empty, rfl, .nil⟩

/-- **The queues are interchangeable while every pushed ticket has a new epoch and index**: each
call answers the same on both, without an error. The packed key orders tickets as they are ordered
naturally. -/
theorem interchangeable {channel_id : ChannelId} {calls : List Call} {s : Queues}
    (hfresh : machine.Meets Fresh (start channel_id) calls)
    (hrun : machine.run (start channel_id) calls = some s) :
    (∀ t u : RedeemableTicket, make_index t < make_index u ↔ t.key < u.key) ∧
    ∀ c, ∃ a, answer (redb_call c) s.redb = some a ∧ answer (memory_call c) s.memory = some a := by
  refine ⟨fun t u => make_index_lt_iff, fun c => ?_⟩
  obtain ⟨db, channel_id, table, hredb, h⟩ := mirrors_run hfresh hrun
  obtain ⟨a, table', memory', hrun, hrun', _⟩ := h.call db channel_id c
  rw [hredb]
  exact ⟨a, answer_ok hrun, answer_ok hrun'⟩

end Runs

section Concrete

instance : ∀ s c, Decidable (Fresh s c)
  | s, .push t => inferInstanceAs (Decidable (∀ u ∈ s.memory.heap,
      ¬(u.verified_ticket.channel_epoch = t.verified_ticket.channel_epoch ∧
        u.verified_ticket.index = t.verified_ticket.index)))
  | _, .pop | _, .peek | _, .len | _, .is_empty | _, .drain | _, .total_value _ _
  | _, .iter_unordered => isTrue trivial

/-- Three tickets of two epochs, one of them popped, are drained alike. -/
theorem interchangeable_drained :
    let calls : List Call := [.push (.of 1 2 4 10), .push (.of 1 1 9 20), .push (.of 1 2 3 30), .pop]
    ∃ s, machine.run (start ⟨[1]⟩) calls = some s ∧
      answer (redb_call .drain) s.redb =
        some (.tickets [(RedeemableTicket.of 1 2 3 30).ticket, (RedeemableTicket.of 1 2 4 10).ticket]) := by
  intro calls
  have hfresh : machine.Meets Fresh (start ⟨[1]⟩) calls := by decide +kernel
  obtain ⟨s, hrun, hdrain⟩ : ∃ s, machine.run (start ⟨[1]⟩) calls = some s ∧
      answer (memory_call .drain) s.memory =
        some (.tickets [(RedeemableTicket.of 1 2 3 30).ticket,
          (RedeemableTicket.of 1 2 4 10).ticket]) := machine.exists_run (by decide +kernel)
  obtain ⟨a, hredb, hmemory⟩ := (interchangeable hfresh hrun).2 .drain
  exact ⟨s, hrun, hredb.trans (hmemory.symm.trans hdrain)⟩

/-- **Of two tickets with one epoch and index the table keeps the second**, the heap keeps both. -/
theorem second_ticket_replaces :
    ∃ s, machine.run (start ⟨[1]⟩) [.push (.of 1 2 4 10), .push (.of 1 2 4 20)] = some s ∧
      answer (redb_call .len) s.redb = some (.count 1) ∧
      answer (memory_call .len) s.memory = some (.count 2) ∧
      answer (redb_call .drain) s.redb =
        some (.tickets [(RedeemableTicket.of 1 2 4 20).ticket]) ∧
      answer (memory_call .drain) s.memory = some (.tickets
        [(RedeemableTicket.of 1 2 4 10).ticket, (RedeemableTicket.of 1 2 4 20).ticket]) :=
  machine.exists_run (by decide +kernel)

end Concrete

end Hopr.TicketManager.Interchange
