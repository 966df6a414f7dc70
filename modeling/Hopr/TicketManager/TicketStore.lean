import Hopr.Library.Heap
import Hopr.TicketManager.ValueCache

/-! The store of ticket queues.

The store knows a queue for each channel and gives out handles of it
(`QueueRef`). All handles of one queue share its contents, as the clones of an
`Arc` do, and a handle outlives the queue's place in the store: what is written
through it after `delete_queue` is no longer found by anyone who opens the
channel's queue. The backend of the queues is any `TicketQueue`. -/
namespace Hopr.TicketManager
open Library TicketQueue

/-- A handle of a stored queue. -/
abbrev QueueRef := Nat

structure TicketStore (Q : Type) where
  tickets : Heap.Table ChannelId
  queues : Heap Q

namespace TicketStore

section Calls
variable {Q ε : Type}

/-- A call on the queue behind a handle. -/
def on_queue {α : Type} (r : QueueRef) (m : EStateM ε Q α) : EStateM ε (TicketStore Q) α := fun s =>
  match m.run (s.queues.cell r) with
  | .ok a q => .ok a {s with queues := s.queues.set r q}
  | .error e q => .error e {s with queues := s.queues.set r q}

/-- A call on the value cache `v`, which is returned as the call leaves it. -/
def on_cached {α : Type} (v : ValueCachedQueue QueueRef) (m : EStateM ε (ValueCachedQueue Q) α) :
    EStateM ε (TicketStore Q) (α × ValueCachedQueue QueueRef) := fun s =>
  match m.run (v.with_queue (s.queues.cell v.queue)) with
  | .ok a w => .ok (a, w.with_queue v.queue) {s with queues := s.queues.set v.queue w.queue}
  | .error e w => .error e {s with queues := s.queues.set v.queue w.queue}

variable [TicketQueue Q ε]

/-- The channel's queue is taken out of the store, and then drained. -/
def delete_queue (id : ChannelId) : EStateM ε (TicketStore Q) (List VerifiedTicket) := fun s =>
  match s.tickets.lookup id with
  | some r => (on_queue r drain).run {s with tickets := s.tickets.erase id}
  | none => .ok [] s

def iter_queues : EStateM ε (TicketStore Q) (List ChannelId) := fun s => .ok s.tickets.keys s

end Calls

section Creatable
variable {Q ε : Type} [TicketQueue Q ε] [CreatableQueue Q]

def empty : TicketStore Q := ⟨∅, .new CreatableQueue.empty⟩

def open_or_create_queue (id : ChannelId) : EStateM ε (TicketStore Q) QueueRef := fun s =>
  match s.tickets.lookup id with
  | some r => .ok r s
  | none =>
    let (r, queues) := s.queues.alloc CreatableQueue.empty
    .ok r ⟨s.tickets.insert id r, queues⟩

theorem open_or_create_queue_cases (id : ChannelId) (s : TicketStore Q) :
    (∃ r, s.tickets.lookup id = some r ∧ (open_or_create_queue id).run s = .ok r s) ∨
    (s.tickets.lookup id = none ∧ (open_or_create_queue id).run s = .ok s.queues.next
      ⟨s.tickets.insert id s.queues.next, (s.queues.alloc CreatableQueue.empty).2⟩) := by
  cases h : s.tickets.lookup id with
  | some r => exact Or.inl ⟨r, rfl, by simp only [open_or_create_queue, EStateM.run, h]⟩
  | none => exact Or.inr ⟨rfl, by simp only [open_or_create_queue, EStateM.run, h, Heap.alloc]⟩

/-- Who has a queue keeps it, and nobody else gets one. -/
theorem open_or_create_queue_lookup {id : ChannelId} {s s' : TicketStore Q} {r : QueueRef}
    (h : (open_or_create_queue id).run s = .ok r s') :
    s'.tickets.lookup id = some r ∧ (∀ r', s.tickets.lookup id = some r' → r' = r) ∧
      ∀ id', id' ≠ id → s'.tickets.lookup id' = s.tickets.lookup id' := by
  rcases open_or_create_queue_cases id s with ⟨r', hr', hrun⟩ | ⟨hnone, hrun⟩
  · cases h.symm.trans hrun
    exact ⟨hr', fun r' hr => Option.some.inj (hr.symm.trans hr'), fun _ _ => rfl⟩
  · cases h.symm.trans hrun
    refine ⟨AList.lookup_insert .., fun r' hr => ?_, fun id' hid => AList.lookup_insert_ne hid⟩
    cases hr.symm.trans hnone

end Creatable

section OnQueue
variable {Q ε : Type}

theorem on_queue_run {α : Type} {r : QueueRef} {m : EStateM ε Q α} {s : TicketStore Q} {a : α} {q : Q}
    (h : m.run (s.queues.cell r) = .ok a q) :
    (on_queue r m).run s = .ok a {s with queues := s.queues.set r q} := by
  simp only [on_queue, EStateM.run] at h ⊢
  rw [h]

/-- A call that leaves the queue as it is leaves the store as it is. -/
theorem on_queue_read {α : Type} {r : QueueRef} {m : EStateM ε Q α} {s : TicketStore Q} {a : α}
    (h : m.run (s.queues.cell r) = .ok a (s.queues.cell r)) : (on_queue r m).run s = .ok a s := by
  rw [on_queue_run h, Heap.set_cell]

theorem on_cached_run {α : Type} {v : ValueCachedQueue QueueRef}
    {m : EStateM ε (ValueCachedQueue Q) α} {s : TicketStore Q} {a : α} {w : ValueCachedQueue Q}
    (h : m.run (v.with_queue (s.queues.cell v.queue)) = .ok a w) :
    (on_cached v m).run s =
      .ok (a, w.with_queue v.queue) {s with queues := s.queues.set v.queue w.queue} := by
  simp only [on_cached, EStateM.run] at h ⊢
  rw [h]

end OnQueue

end TicketStore

end Hopr.TicketManager
