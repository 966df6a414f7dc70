import Mathlib.Data.List.Sort
import Hopr.Library.Programs
import Hopr.TicketManager.Ticket

/-! Ticket queues.

`TicketQueue` is the trait every backend implements. A call runs on the queue's
state and may fail (`EStateM ε Q`), reads included, so that a backend can fail at
one read and answer the next; `tickets` is what is stored, in the order in which
it will be extracted. `LawfulTicketQueue` is the contract: a call that succeeds
does what it says, a call that fails has no effect, and extraction honors the
natural order of tickets. Of two tickets at the same place in that order either
may come first, but a push displaces the head only for a smaller ticket, as a
binary heap does. In an `InfallibleTicketQueue` every call succeeds. A
`TotalTicketQueue` only owes that, and not what a push makes of the queue; there
the calls become equations (`push_run`, `pop_run`, `peek_run`) and draining
returns everything (`drain_run`). -/
namespace Hopr.TicketManager

class TicketQueue (Q : Type) (ε : outParam Type) where
  len : EStateM ε Q Nat
  push : RedeemableTicket → EStateM ε Q Unit
  pop : EStateM ε Q (Option RedeemableTicket)
  peek : EStateM ε Q (Option RedeemableTicket)
  iter_unordered : EStateM ε Q (List (Except ε RedeemableTicket))
  /-- The stored tickets in the order of extraction. -/
  tickets : Q → List RedeemableTicket

namespace TicketQueue
variable {Q ε : Type} [TicketQueue Q ε]

/-- The default of the trait. -/
def is_empty : EStateM ε Q Bool := do
  return (← len) == 0

/-- `while let Some(ticket) = self.pop()?`, for at most `n` tickets. -/
def drain_loop : Nat → EStateM ε Q (List VerifiedTicket)
  | 0 => pure []
  | n + 1 => do
    match ← pop with
    | some ticket => do
      let rest ← drain_loop n
      return ticket.ticket :: rest
    | none => return []

/-- Every stored ticket can be popped once, and then the queue is found empty. -/
def drain : EStateM ε Q (List VerifiedTicket) := do
  let q ← get
  drain_loop ((tickets q).length + 1)

/-- The amount an iterated ticket adds to the value of `epoch` from `min_index` on. -/
def value_in (epoch : UInt32) (min_index : UInt64) : Except ε RedeemableTicket → Option HoprBalance
  | .error _ => none
  | .ok t =>
    if t.verified_ticket.channel_epoch = epoch ∧ min_index ≤ t.verified_ticket.index then
      some t.verified_ticket.amount
    else none

/-- Tickets that cannot be read are skipped. -/
def default_total_value (epoch : UInt32) (min_index : Option UInt64) : EStateM ε Q HoprBalance := do
  let tickets ← iter_unordered
  return HoprBalance.sum (tickets.filterMap (value_in epoch (min_index.getD 0)))

end TicketQueue

open TicketQueue

/-- The contract of a backend. -/
class LawfulTicketQueue (Q : Type) {ε : outParam Type} [TicketQueue Q ε] : Prop where
  sorted : ∀ q : Q, (tickets q).Pairwise fun t u => t.key ≤ u.key
  len_ok : ∀ {q q' : Q} {n}, len.run q = .ok n q' → n = (tickets q).length ∧ tickets q' = tickets q
  len_error : ∀ {q q' : Q} {e}, len.run q = .error e q' → tickets q' = tickets q
  push_ok : ∀ {q q' : Q} {t}, (push t).run q = .ok () q' → (tickets q').Perm (t :: tickets q)
  push_head : ∀ {q q' : Q} {t h}, (push t).run q = .ok () q' → (tickets q).head? = some h →
    ¬ t.key < h.key → (tickets q').head? = some h
  push_error : ∀ {q q' : Q} {t e}, (push t).run q = .error e q' → tickets q' = tickets q
  pop_ok : ∀ {q q' : Q} {r}, pop.run q = .ok r q' →
    r = (tickets q).head? ∧ tickets q' = (tickets q).tail
  pop_error : ∀ {q q' : Q} {e}, pop.run q = .error e q' → tickets q' = tickets q
  peek_ok : ∀ {q q' : Q} {r}, peek.run q = .ok r q' → r = (tickets q).head? ∧ tickets q' = tickets q
  peek_error : ∀ {q q' : Q} {e}, peek.run q = .error e q' → tickets q' = tickets q
  /-- Each stored ticket is visited once and read or found unreadable. -/
  iter_ok : ∀ {q q' : Q} {l}, iter_unordered.run q = .ok l q' → tickets q' = tickets q ∧
    ∃ visited, visited.Perm (tickets q) ∧
      List.Forall₂ (fun r t => r = .ok t ∨ ∃ e, r = .error e) l visited
  iter_error : ∀ {q q' : Q} {e}, iter_unordered.run q = .error e q' → tickets q' = tickets q

/-- A backend none of whose calls fails, and whose reads leave it as it is. -/
class InfallibleTicketQueue (Q : Type) {ε : outParam Type} [TicketQueue Q ε] : Prop
    extends LawfulTicketQueue Q where
  len_total : ∀ q : Q, len.run q = .ok (tickets q).length q
  push_total : ∀ (q : Q) (t), ∃ q', (push t).run q = .ok () q'
  pop_total : ∀ q : Q, ∃ r q', pop.run q = .ok r q'
  peek_total : ∀ q : Q, peek.run q = .ok (tickets q).head? q
  iter_total : ∀ q : Q, ∃ visited : List RedeemableTicket, visited.Perm (tickets q) ∧
    iter_unordered.run q = .ok (visited.map .ok) q

/-- A backend none of whose calls fails, and that may replace queued tickets on a push. -/
class TotalTicketQueue (Q : Type) {ε : outParam Type} [TicketQueue Q ε] : Prop where
  sorted : ∀ q : Q, (tickets q).Pairwise fun t u => t.key ≤ u.key
  len_total : ∀ q : Q, len.run q = .ok (tickets q).length q
  push_total : ∀ (q : Q) (t), ∃ q', (push t).run q = .ok () q'
  pop_total : ∀ q : Q, ∃ q', pop.run q = .ok (tickets q).head? q' ∧ tickets q' = (tickets q).tail
  peek_total : ∀ q : Q, peek.run q = .ok (tickets q).head? q
  iter_total : ∀ q : Q, ∃ visited : List RedeemableTicket, visited.Perm (tickets q) ∧
    iter_unordered.run q = .ok (visited.map .ok) q

instance {Q ε : Type} [TicketQueue Q ε] [InfallibleTicketQueue Q] : TotalTicketQueue Q where
  sorted := LawfulTicketQueue.sorted
  len_total := InfallibleTicketQueue.len_total
  push_total := InfallibleTicketQueue.push_total
  pop_total q := by
    obtain ⟨r, q', h⟩ := InfallibleTicketQueue.pop_total q
    obtain ⟨hr, hq'⟩ := LawfulTicketQueue.pop_ok h
    exact ⟨q', hr ▸ h, hq'⟩
  peek_total := InfallibleTicketQueue.peek_total
  iter_total := InfallibleTicketQueue.iter_total

/-- A backend that can be created empty. -/
class CreatableQueue (Q : Type) {ε : outParam Type} [TicketQueue Q ε] where
  empty : Q
  tickets_empty : tickets empty = []

namespace TicketQueue
open Library

section Total
variable {Q ε : Type} [TicketQueue Q ε]

/-- The queue after pushing `t`. -/
def pushed (t : RedeemableTicket) (q : Q) : Q := after (push t) q

/-- The queue after popping its head. -/
def popped (q : Q) : Q := after pop q

variable [TotalTicketQueue Q]

@[simp] theorem push_run (t : RedeemableTicket) (q : Q) : (push t).run q = .ok () (pushed t q) := by
  obtain ⟨q', h⟩ := TotalTicketQueue.push_total q t
  simp only [pushed, after, h]

@[simp] theorem pop_run (q : Q) : pop.run q = .ok (tickets q).head? (popped q) := by
  obtain ⟨q', h, _⟩ := TotalTicketQueue.pop_total q
  simp only [popped, after, h]

@[simp] theorem peek_run (q : Q) : peek.run q = .ok (tickets q).head? q :=
  TotalTicketQueue.peek_total q

@[simp] theorem len_run (q : Q) : len.run q = .ok (tickets q).length q :=
  TotalTicketQueue.len_total q

@[simp] theorem tickets_popped (q : Q) : tickets (popped q) = (tickets q).tail := by
  obtain ⟨q', h, hq'⟩ := TotalTicketQueue.pop_total q
  rw [popped, after_ok h]
  exact hq'

@[simp] theorem is_empty_run (q : Q) : is_empty.run q = .ok (tickets q).isEmpty q := by
  simp only [is_empty, EStateM.run_bind, len_run, EStateM.run_pure]
  cases tickets q <;> rfl

/-! ### Draining -/

theorem drain_loop_run (n : Nat) (q : Q) (hn : (tickets q).length < n) :
    ∃ q', (drain_loop n).run q = .ok ((tickets q).map (·.ticket)) q' ∧ tickets q' = [] := by
  induction n generalizing q with
  | zero => exact absurd hn (Nat.not_lt_zero _)
  | succ n ih =>
    simp only [drain_loop, EStateM.run_bind, pop_run]
    cases hq : tickets q with
    | nil => exact ⟨popped q, rfl, by rw [tickets_popped, hq]; rfl⟩
    | cons t rest =>
      have hrest : tickets (popped q) = rest := by rw [tickets_popped, hq]; rfl
      obtain ⟨q', hrun, hq'⟩ := ih (popped q) (by rw [hrest]; simpa [hq] using hn)
      refine ⟨q', ?_, hq'⟩
      simp only [List.head?_cons, EStateM.run_bind, hrun, hrest, EStateM.run_pure, List.map_cons]

/-- The queue after draining it. -/
def drained (q : Q) : Q := after drain q

/-- Draining returns every ticket, in order, and leaves nothing. -/
theorem drain_spec (q : Q) :
    drain.run q = .ok ((tickets q).map (·.ticket)) (drained q) ∧ tickets (drained q) = [] := by
  obtain ⟨q', hrun, hq'⟩ := drain_loop_run ((tickets q).length + 1) q (Nat.lt_succ_self _)
  have h : drain.run q = .ok ((tickets q).map (·.ticket)) q' := by
    simpa only [drain, EStateM.run_bind, EStateM.run_get] using hrun
  simp only [drained, after, h, hq', and_self]

@[simp] theorem drain_run (q : Q) :
    drain.run q = .ok ((tickets q).map (·.ticket)) (drained q) := (drain_spec q).1

@[simp] theorem tickets_drained (q : Q) : tickets (drained q) = [] := (drain_spec q).2

theorem drain_loop_preserves {P : Q → Prop} (hpop : ∀ q, P q → P (popped q)) (n : Nat) (q : Q)
    (h : P q) : P (after (drain_loop n) q) := by
  induction n generalizing q with
  | zero => exact h
  | succ n ih =>
    have hrest := ih (popped q) (hpop q h)
    simp only [after, drain_loop, EStateM.run_bind, pop_run] at hrest ⊢
    cases (tickets q).head? with
    | none => exact hpop q h
    | some t =>
      simp only [EStateM.run_bind]
      cases hrun : (drain_loop n).run (popped q) with
      | ok r q' => simpa only [hrun, EStateM.run_pure] using hrest
      | error e q' => simpa only [hrun] using hrest

/-- What popping preserves, draining preserves. -/
theorem drained_preserves {P : Q → Prop} (hpop : ∀ q, P q → P (popped q)) (q : Q) (h : P q) :
    P (drained q) := by
  simpa only [drained, after, drain, EStateM.run_bind, EStateM.run_get] using
    drain_loop_preserves hpop ((tickets q).length + 1) q h

/-! ### The total value -/

theorem filterMap_value_in (epoch : UInt32) (min_index : UInt64) (l : List RedeemableTicket) :
    (l.map .ok).filterMap (value_in (ε := ε) epoch min_index) =
      (l.filter fun t => t.verified_ticket.channel_epoch = epoch ∧
        min_index ≤ t.verified_ticket.index).map (·.verified_ticket.amount) := by
  induction l with
  | nil => rfl
  | cons t rest ih =>
    by_cases h : t.verified_ticket.channel_epoch = epoch ∧ min_index ≤ t.verified_ticket.index
    · simp [value_in, h, ih]
    · simp [value_in, h, ih]

/-- The sum, uncapped, of the amounts of the tickets of `epoch`. -/
def epoch_total (epoch : UInt32) (l : List RedeemableTicket) : Nat :=
  ((l.filter (·.verified_ticket.channel_epoch = epoch)).map (·.verified_ticket.amount.amount)).sum

/-- The sum, uncapped, of the amounts of the tickets. -/
def total (l : List RedeemableTicket) : Nat := (l.map (·.verified_ticket.amount.amount)).sum

theorem total_cons (t : RedeemableTicket) (l : List RedeemableTicket) :
    total (t :: l) = t.verified_ticket.amount.amount + total l := by
  simp only [total, List.map_cons, List.sum_cons]

theorem total_append (l : List RedeemableTicket) (t : RedeemableTicket) :
    total (l ++ [t]) = total l + t.verified_ticket.amount.amount := by
  simp [total]

theorem total_perm {l l' : List RedeemableTicket} (h : l.Perm l') : total l = total l' :=
  (h.map _).sum_eq

theorem amount_sum_amounts (l : List RedeemableTicket) :
    (HoprBalance.sum (l.map (·.verified_ticket.amount))).amount = min (total l) HoprBalance.MAX := by
  rw [HoprBalance.amount_sum, List.map_map]
  rfl

theorem total_of_head {l : List RedeemableTicket} {t : RedeemableTicket} (h : l.head? = some t) :
    total l = t.verified_ticket.amount.amount + total l.tail := by
  rw [← List.cons_head?_tail h, total_cons]
  rfl

/-- With the least minimum index the whole epoch is counted. -/
theorem default_total_value_run (epoch : UInt32) (min_index : Option UInt64)
    (hmin : min_index.getD 0 = 0) (q : Q) :
    (default_total_value epoch min_index).run q =
      .ok (HoprBalance.ofNat (epoch_total epoch (tickets q))) q := by
  obtain ⟨visited, hperm, hrun⟩ := TotalTicketQueue.iter_total q
  simp only [default_total_value, EStateM.run_bind, hrun, EStateM.run_pure, filterMap_value_in, hmin]
  congr 1
  ext
  simp only [HoprBalance.amount_sum, HoprBalance.amount_ofNat, epoch_total, List.map_map,
    UInt64.zero_le, and_true, Function.comp_def]
  rw [((hperm.filter _).map _).sum_eq]

end Total

section Infallible
variable {Q ε : Type} [TicketQueue Q ε] [InfallibleTicketQueue Q]

theorem tickets_pushed (t : RedeemableTicket) (q : Q) :
    (tickets (pushed t q)).Perm (t :: tickets q) :=
  LawfulTicketQueue.push_ok (push_run t q)

theorem head_pushed {t h : RedeemableTicket} {q : Q} (hh : (tickets q).head? = some h)
    (hlt : ¬ t.key < h.key) : (tickets (pushed t q)).head? = some h :=
  LawfulTicketQueue.push_head (push_run t q) hh hlt

end Infallible

end TicketQueue

end Hopr.TicketManager
