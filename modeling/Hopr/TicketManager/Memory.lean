import Hopr.TicketManager.Queue

/-! The in-memory ticket queue.

`MemoryTicketQueue` is a binary heap that keeps the smallest ticket on top. Here
the heap is the list of its tickets in the order in which they would be popped,
sorted by construction; a ticket pushed among its equals goes behind them. It is
an `InfallibleTicketQueue`: its error type is empty. -/
namespace Hopr.TicketManager

structure MemoryTicketQueue where
  heap : List RedeemableTicket
  sorted : heap.Pairwise fun t u => t.key ≤ u.key

namespace MemoryTicketQueue

/-- The heap's order on push: `t` goes in front of the first larger ticket. -/
def insert (t : RedeemableTicket) (l : List RedeemableTicket) : List RedeemableTicket :=
  l.orderedInsert (fun t u => t.key < u.key) t

theorem insert_sorted (t : RedeemableTicket) {l : List RedeemableTicket}
    (h : l.Pairwise fun t u => t.key ≤ u.key) : (insert t l).Pairwise fun t u => t.key ≤ u.key := by
  induction l with
  | nil => exact List.pairwise_singleton _ _
  | cons u rest ih =>
    obtain ⟨hu, hrest⟩ := List.pairwise_cons.mp h
    unfold insert
    rw [List.orderedInsert]
    split
    · rename_i hlt
      refine List.pairwise_cons.mpr ⟨fun w hw => ?_, h⟩
      rcases List.mem_cons.mp hw with rfl | hw
      · exact le_of_lt hlt
      · exact (le_of_lt hlt).trans (hu w hw)
    · rename_i hlt
      refine List.pairwise_cons.mpr ⟨fun w hw => ?_, ih hrest⟩
      rcases List.mem_cons.mp ((List.perm_orderedInsert _ t rest).mem_iff.mp hw) with rfl | hw
      · exact not_lt.mp hlt
      · exact hu w hw

def empty : MemoryTicketQueue := ⟨[], List.Pairwise.nil⟩

def push (t : RedeemableTicket) (q : MemoryTicketQueue) : MemoryTicketQueue :=
  ⟨insert t q.heap, insert_sorted t q.sorted⟩

def pop (q : MemoryTicketQueue) : MemoryTicketQueue := ⟨q.heap.tail, q.sorted.tail⟩

def is_empty : EStateM Empty MemoryTicketQueue Bool := fun q => .ok q.heap.isEmpty q

instance : TicketQueue MemoryTicketQueue Empty where
  len := fun q => .ok q.heap.length q
  push := fun t q => .ok () (q.push t)
  pop := fun q => .ok q.heap.head? q.pop
  peek := fun q => .ok q.heap.head? q
  iter_unordered := fun q => .ok (q.heap.map .ok) q
  tickets := heap

instance : InfallibleTicketQueue MemoryTicketQueue where
  sorted q := q.sorted
  len_total q := rfl
  push_total q t := ⟨_, rfl⟩
  pop_total q := ⟨_, _, rfl⟩
  peek_total q := rfl
  iter_total q := ⟨q.heap, List.Perm.refl _, rfl⟩
  len_ok := by intro q q' n h; cases h; exact ⟨rfl, rfl⟩
  len_error := by intro q q' e h; cases h
  push_ok := by intro q q' t h; cases h; exact List.perm_orderedInsert _ t q.heap
  push_head := by
    intro q q' t u h hu hlt
    cases h
    show (insert t q.heap).head? = some u
    cases hq : q.heap with
    | nil => rw [show TicketQueue.tickets q = [] from hq] at hu; cases hu
    | cons w rest =>
      rw [show TicketQueue.tickets q = w :: rest from hq, List.head?_cons] at hu
      cases hu
      unfold insert
      rw [List.orderedInsert, if_neg hlt, List.head?_cons]
  push_error := by intro q q' t e h; cases h
  pop_ok := by intro q q' r h; cases h; exact ⟨rfl, rfl⟩
  pop_error := by intro q q' e h; cases h
  peek_ok := by intro q q' r h; cases h; exact ⟨rfl, rfl⟩
  peek_error := by intro q q' e h; cases h
  iter_ok := by
    intro q q' l h
    cases h
    refine ⟨rfl, q.heap, List.Perm.refl _, ?_⟩
    rw [List.forall₂_map_left_iff]
    exact List.forall₂_same.mpr fun t _ => Or.inl rfl
  iter_error := by intro q q' e h; cases h

instance : CreatableQueue MemoryTicketQueue where
  empty := empty
  tickets_empty := rfl

end MemoryTicketQueue

end Hopr.TicketManager
