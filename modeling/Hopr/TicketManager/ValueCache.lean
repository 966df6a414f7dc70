import Mathlib.Logic.Function.Basic
import Hopr.TicketManager.Queue

/-! The value cache over a ticket queue.

`ValueCachedQueue` keeps, beside a queue, the total amount stored for each epoch
and the epoch of the queued tickets, so that the value of a channel is known
without reading the queue. `push` books a ticket before handing it to the queue,
`pop` after taking it and reading the new head; `new` counts what is stored.

The adapter is faithful only while one epoch is stored and no sum saturates.
`Coherent` says that it is: the stored tickets share one epoch, `current_epoch`
is that epoch and every cached value is the sum of the stored amounts of its
epoch. `new` establishes it (`coherent_new`), `push` of a ticket of the same
epoch, `pop` and `drain` preserve it, and then `cached_unrealized_value` is the
total of the queue (`Coherent.cached_unrealized_value`). -/
namespace Hopr.TicketManager

structure ValueCachedQueue (Q : Type) where
  queue : Q
  value_cache : UInt32 → Option HoprBalance
  current_epoch : Option UInt32

namespace ValueCachedQueue
open Library TicketQueue

section Adapter
variable {Q ε : Type}

/-- A call delegated to the wrapped queue. -/
def inner {α : Type} (m : EStateM ε Q α) : EStateM ε (ValueCachedQueue Q) α := fun v =>
  match m.run v.queue with
  | .ok a q => .ok a {v with queue := q}
  | .error e q => .error e {v with queue := q}

/-- `entry(epoch).or_default().add_assign(amount)` -/
def credit (epoch : UInt32) (amount : HoprBalance) (cache : UInt32 → Option HoprBalance) :
    UInt32 → Option HoprBalance :=
  Function.update cache epoch (some ((cache epoch).getD 0 + amount))

/-- `entry(epoch).or_default().sub_assign(amount)` -/
def debit (epoch : UInt32) (amount : HoprBalance) (cache : UInt32 → Option HoprBalance) :
    UInt32 → Option HoprBalance :=
  Function.update cache epoch (some ((cache epoch).getD 0 - amount))

/-- Counts the tickets that can be read; the last one read gives the epoch. -/
def load {H : Type} : List (Except ε RedeemableTicket) → ValueCachedQueue H → ValueCachedQueue H
  | [], v => v
  | .error _ :: rest, v => load rest v
  | .ok t :: rest, v =>
    load rest {v with
      current_epoch := some t.verified_ticket.channel_epoch
      value_cache := credit t.verified_ticket.channel_epoch t.verified_ticket.amount v.value_cache}

@[simp] theorem load_queue {H : Type} (l : List (Except ε RedeemableTicket))
    (v : ValueCachedQueue H) : (load l v).queue = v.queue := by
  induction l generalizing v with
  | nil => rfl
  | cons r rest ih => cases r <;> simp only [load, ih]

variable [TicketQueue Q ε]

/-- Wraps the queue behind the handle `queue`, counting what it holds. -/
def new {H : Type} (queue : H) : EStateM ε Q (ValueCachedQueue H) := do
  let tickets ← iter_unordered
  return load tickets ⟨queue, fun _ => none, none⟩

/-- The value of the tracked epoch, without asking the queue. -/
def cached_unrealized_value (v : ValueCachedQueue Q) : HoprBalance :=
  (v.current_epoch.bind v.value_cache).getD 0

def push (ticket : RedeemableTicket) : EStateM ε (ValueCachedQueue Q) Unit := do
  let epoch := ticket.verified_ticket.channel_epoch
  modify fun v => {v with
    current_epoch := some (max epoch (v.current_epoch.getD 0))
    value_cache := credit epoch ticket.verified_ticket.amount v.value_cache}
  inner (TicketQueue.push ticket)

def pop : EStateM ε (ValueCachedQueue Q) (Option RedeemableTicket) := do
  match ← inner TicketQueue.pop with
  | some ticket => do
    modify fun v => {v with
      value_cache := debit ticket.verified_ticket.channel_epoch ticket.verified_ticket.amount v.value_cache}
    let next ← inner TicketQueue.peek
    modify fun v => {v with current_epoch := next.map (·.verified_ticket.channel_epoch)}
    return some ticket
  | none => return none

/-- Everything but `push` and `pop` is delegated. -/
instance : TicketQueue (ValueCachedQueue Q) ε where
  len := inner len
  push := push
  pop := pop
  peek := inner peek
  iter_unordered := inner iter_unordered
  tickets v := tickets v.queue

/-- Without a minimum index the cached value answers, if there is one. -/
def total_value (epoch : UInt32) (min_index : Option UInt64) :
    EStateM ε (ValueCachedQueue Q) HoprBalance := do
  let v ← get
  match min_index, v.value_cache epoch with
  | none, some value => return value
  | _, _ => inner (default_total_value epoch min_index)

end Adapter

/-! ### Over a queue that never fails -/

section Inner
variable {Q ε : Type}

theorem inner_run {α : Type} {m : EStateM ε Q α} {v : ValueCachedQueue Q} {a : α} {q : Q}
    (h : m.run v.queue = .ok a q) : (inner m).run v = .ok a {v with queue := q} := by
  simp only [inner, EStateM.run] at h ⊢
  rw [h]

theorem inner_error {α : Type} {m : EStateM ε Q α} {v : ValueCachedQueue Q} {e : ε} {q : Q}
    (h : m.run v.queue = .error e q) : (inner m).run v = .error e {v with queue := q} := by
  simp only [inner, EStateM.run] at h ⊢
  rw [h]

variable [TicketQueue Q ε]

@[simp] theorem tickets_eq (v : ValueCachedQueue Q) : tickets v = tickets v.queue := rfl

end Inner

section Total
variable {Q ε : Type} [TicketQueue Q ε] [TotalTicketQueue Q]

theorem peek_run (v : ValueCachedQueue Q) :
    (peek : EStateM ε (ValueCachedQueue Q) _).run v = .ok (tickets v.queue).head? v :=
  inner_run (TicketQueue.peek_run v.queue)

theorem push_run (t : RedeemableTicket) (v : ValueCachedQueue Q) :
    (TicketQueue.push t).run v = .ok ()
      { queue := pushed t v.queue
        value_cache := credit t.verified_ticket.channel_epoch t.verified_ticket.amount v.value_cache
        current_epoch := some (max t.verified_ticket.channel_epoch (v.current_epoch.getD 0)) } := by
  show (push t).run v = _
  simp only [push, EStateM.run_bind, EStateM.run_modify]
  exact inner_run (TicketQueue.push_run t _)

/-- The adapter after its queue gave up its head. -/
def forget (v : ValueCachedQueue Q) : ValueCachedQueue Q :=
  match (tickets v.queue).head? with
  | none => {v with queue := popped v.queue}
  | some t =>
    { queue := popped v.queue
      value_cache := debit t.verified_ticket.channel_epoch t.verified_ticket.amount v.value_cache
      current_epoch := (tickets v.queue).tail.head?.map (·.verified_ticket.channel_epoch) }

theorem pop_run (v : ValueCachedQueue Q) :
    TicketQueue.pop.run v = .ok (tickets v.queue).head? (forget v) := by
  show pop.run v = _
  simp only [pop, EStateM.run_bind, inner_run (TicketQueue.pop_run v.queue), forget]
  cases hq : (tickets v.queue).head? with
  | none => rfl
  | some t =>
    simp only [EStateM.run_bind, EStateM.run_modify, EStateM.run_pure]
    rw [inner_run (TicketQueue.peek_run _)]
    simp only [tickets_popped]

theorem tickets_forget (v : ValueCachedQueue Q) : tickets (forget v) = (tickets v).tail := by
  rw [tickets_eq, tickets_eq, forget]
  cases (tickets v.queue).head? <;> exact tickets_popped v.queue

instance : TotalTicketQueue (ValueCachedQueue Q) where
  sorted v := TotalTicketQueue.sorted v.queue
  len_total v := inner_run (TicketQueue.len_run v.queue)
  push_total v t := ⟨_, push_run t v⟩
  pop_total v := ⟨_, pop_run v, tickets_forget v⟩
  peek_total v := peek_run v
  iter_total v := by
    obtain ⟨visited, hperm, hrun⟩ := TotalTicketQueue.iter_total v.queue
    exact ⟨visited, hperm, inner_run hrun⟩

theorem new_run {H : Type} (h : H) (q : Q) : ∃ visited : List RedeemableTicket,
    visited.Perm (tickets q) ∧
      (new h).run q = .ok (load (ε := ε) (visited.map .ok) ⟨h, fun _ => none, none⟩) q := by
  obtain ⟨visited, hperm, hrun⟩ := TotalTicketQueue.iter_total q
  exact ⟨visited, hperm, by simp only [new, EStateM.run_bind, hrun, EStateM.run_pure]⟩

theorem pushed_eq (t : RedeemableTicket) (v : ValueCachedQueue Q) : pushed t v =
    { queue := pushed t v.queue
      value_cache := credit t.verified_ticket.channel_epoch t.verified_ticket.amount v.value_cache
      current_epoch := some (max t.verified_ticket.channel_epoch (v.current_epoch.getD 0)) } := by
  simp only [pushed, after, push_run]

theorem popped_eq (v : ValueCachedQueue Q) : popped v = forget v := by
  simp only [popped, after, pop_run]

end Total

section Contract
variable {Q ε : Type} [TicketQueue Q ε]

/-- The adapter over a queue that never fails never fails, and keeps its contract. -/
instance [InfallibleTicketQueue Q] : InfallibleTicketQueue (ValueCachedQueue Q) where
  sorted v := LawfulTicketQueue.sorted v.queue
  len_total v := inner_run (TicketQueue.len_run v.queue)
  push_total v t := ⟨_, push_run t v⟩
  pop_total v := ⟨_, _, pop_run v⟩
  peek_total v := peek_run v
  iter_total v := by
    obtain ⟨visited, hperm, hrun⟩ := InfallibleTicketQueue.iter_total v.queue
    exact ⟨visited, hperm, inner_run hrun⟩
  len_ok := by
    intro v v' n h
    have hlen := inner_run (TicketQueue.len_run v.queue)
    cases h.symm.trans hlen
    exact ⟨rfl, rfl⟩
  len_error := by
    intro v v' e h
    cases h.symm.trans (inner_run (TicketQueue.len_run v.queue))
  push_ok := by
    intro v v' t h
    cases h.symm.trans (push_run t v)
    exact tickets_pushed t v.queue
  push_head := by
    intro v v' t u h hu hlt
    cases h.symm.trans (push_run t v)
    exact head_pushed hu hlt
  push_error := by
    intro v v' t e h
    cases h.symm.trans (push_run t v)
  pop_ok := by
    intro v v' r h
    cases h.symm.trans (pop_run v)
    exact ⟨rfl, tickets_forget v⟩
  pop_error := by
    intro v v' e h
    cases h.symm.trans (pop_run v)
  peek_ok := by
    intro v v' r h
    cases h.symm.trans (peek_run v)
    exact ⟨rfl, rfl⟩
  peek_error := by
    intro v v' e h
    cases h.symm.trans (peek_run v)
  iter_ok := by
    intro v v' l h
    obtain ⟨visited, hperm, hrun⟩ := InfallibleTicketQueue.iter_total v.queue
    cases h.symm.trans (inner_run hrun)
    refine ⟨rfl, visited, hperm, ?_⟩
    rw [List.forall₂_map_left_iff]
    exact List.forall₂_same.mpr fun t _ => Or.inl rfl
  iter_error := by
    intro v v' e h
    obtain ⟨visited, _, hrun⟩ := InfallibleTicketQueue.iter_total v.queue
    cases h.symm.trans (inner_run hrun)

end Contract

/-! ### Coherence -/

section Coherence
variable {Q ε : Type}

/-- All the tickets are of one epoch. -/
def OneEpoch (l : List RedeemableTicket) : Prop :=
  ∀ t ∈ l, ∀ u ∈ l, t.verified_ticket.channel_epoch = u.verified_ticket.channel_epoch

theorem OneEpoch.tail {l : List RedeemableTicket} (h : OneEpoch l) : OneEpoch l.tail :=
  fun t ht u hu => h t (List.mem_of_mem_tail ht) u (List.mem_of_mem_tail hu)

theorem epoch_total_cons (epoch : UInt32) (t : RedeemableTicket) (l : List RedeemableTicket) :
    epoch_total epoch (t :: l) =
      (if t.verified_ticket.channel_epoch = epoch then t.verified_ticket.amount.amount else 0) +
        epoch_total epoch l := by
  by_cases h : t.verified_ticket.channel_epoch = epoch <;> simp [epoch_total, h]

theorem epoch_total_perm (epoch : UInt32) {l l' : List RedeemableTicket} (h : l.Perm l') :
    epoch_total epoch l = epoch_total epoch l' := ((h.filter _).map _).sum_eq

theorem epoch_total_le (epoch : UInt32) (l : List RedeemableTicket) :
    epoch_total epoch l ≤ total l := by
  induction l with
  | nil => exact Nat.le_refl _
  | cons t rest ih =>
    rw [epoch_total_cons]
    simp only [total, List.map_cons, List.sum_cons] at ih ⊢
    split <;> omega

/-- When one epoch is stored, its value is the value of the queue. -/
theorem OneEpoch.epoch_total_eq {l : List RedeemableTicket} (h : OneEpoch l) {t : RedeemableTicket}
    (ht : t ∈ l) : epoch_total t.verified_ticket.channel_epoch l = total l := by
  unfold epoch_total total
  rw [List.filter_eq_self.mpr]
  intro u hu
  simpa using h u hu t ht

/-- What is cached for an epoch. -/
def cached (v : ValueCachedQueue Q) (epoch : UInt32) : HoprBalance := (v.value_cache epoch).getD 0

theorem amount_credit (channel_epoch epoch : UInt32) (amount : HoprBalance) (cache : UInt32 → Option HoprBalance) :
    ((credit channel_epoch amount cache epoch).getD 0).amount =
      min (((cache epoch).getD 0).amount + if channel_epoch = epoch then amount.amount else 0) HoprBalance.MAX := by
  unfold credit
  by_cases he : channel_epoch = epoch
  · subst he
    rw [Function.update_self, Option.getD_some, HoprBalance.amount_add, if_pos rfl]
  · have hle := ((cache epoch).getD 0).amount_le
    rw [Function.update_of_ne (Ne.symm he), if_neg he]
    omega

theorem amount_debit (channel_epoch epoch : UInt32) (amount : HoprBalance) (cache : UInt32 → Option HoprBalance) :
    ((debit channel_epoch amount cache epoch).getD 0).amount =
      ((cache epoch).getD 0).amount - if channel_epoch = epoch then amount.amount else 0 := by
  unfold debit
  by_cases he : channel_epoch = epoch
  · subst he
    rw [Function.update_self, Option.getD_some, HoprBalance.amount_sub, if_pos rfl]
  · rw [Function.update_of_ne (Ne.symm he), if_neg he, Nat.sub_zero]

variable [TicketQueue Q ε]

/-- The cache agrees with the queue. -/
structure Coherent (v : ValueCachedQueue Q) : Prop where
  one_epoch : OneEpoch (tickets v.queue)
  current : v.current_epoch = (tickets v.queue).head?.map (·.verified_ticket.channel_epoch)
  cached_eq : ∀ epoch, (v.cached epoch).amount = epoch_total epoch (tickets v.queue)

/-- The cached value of a coherent cache is the sum of everything stored. -/
theorem Coherent.cached_unrealized_value {v : ValueCachedQueue Q} (h : Coherent v) :
    v.cached_unrealized_value.amount = total (tickets v.queue) := by
  unfold ValueCachedQueue.cached_unrealized_value
  rw [h.current]
  cases hq : tickets v.queue with
  | nil => rfl
  | cons t rest =>
    have ht : t ∈ tickets v.queue := by rw [hq]; exact List.mem_cons_self ..
    rw [List.head?_cons, Option.map_some, Option.bind_some, ← hq, ← h.one_epoch.epoch_total_eq ht]
    exact h.cached_eq _

/-- A ticket of the stored epoch leaves the epoch on record. -/
theorem max_current {l : List RedeemableTicket} {t : RedeemableTicket} {current_epoch : Option UInt32}
    (hcurrent : current_epoch = l.head?.map (·.verified_ticket.channel_epoch))
    (hepoch : ∀ u ∈ l, u.verified_ticket.channel_epoch = t.verified_ticket.channel_epoch) :
    max t.verified_ticket.channel_epoch (current_epoch.getD 0) = t.verified_ticket.channel_epoch := by
  rw [hcurrent]
  cases l with
  | nil =>
    simp only [List.head?_nil, Option.map_none, Option.getD_none]
    show (if t.verified_ticket.channel_epoch ≤ 0 then 0 else _) = _
    split
    · exact (UInt32.le_zero_iff.mp (by assumption)).symm
    · rfl
  | cons u rest =>
    have hu := hepoch u List.mem_cons_self
    simp only [List.head?_cons, Option.map_some, Option.getD_some, hu]
    exact ite_self _

end Coherence

section Infallible
variable {Q ε : Type} [TicketQueue Q ε] [InfallibleTicketQueue Q]

/-- Pushing a ticket of the stored epoch keeps the cache coherent, unless the sum saturates. -/
theorem coherent_pushed {v : ValueCachedQueue Q} (h : Coherent v) (t : RedeemableTicket)
    (hepoch : ∀ u ∈ tickets v.queue,
      u.verified_ticket.channel_epoch = t.verified_ticket.channel_epoch)
    (hfits : total (tickets v.queue) + t.verified_ticket.amount.amount ≤ HoprBalance.MAX) :
    Coherent (pushed t v) := by
  have hperm := tickets_pushed t v.queue
  have hall : ∀ u ∈ tickets (pushed t v.queue),
      u.verified_ticket.channel_epoch = t.verified_ticket.channel_epoch := by
    intro u hu
    rcases List.mem_cons.mp (hperm.mem_iff.mp hu) with rfl | hu
    · rfl
    · exact hepoch u hu
  rw [pushed_eq]
  refine ⟨fun u hu w hw => (hall u hu).trans (hall w hw).symm, ?_, fun epoch => ?_⟩
  · have hcurrent := max_current h.current hepoch
    show some _ = _
    rw [hcurrent]
    cases hq : tickets (pushed t v.queue) with
    | nil => rw [hq] at hperm; exact absurd hperm.length_eq (by simp)
    | cons u rest => rw [List.head?_cons, Option.map_some, hall u (by rw [hq]; exact List.mem_cons_self ..)]
  · show ((credit _ _ v.value_cache epoch).getD 0).amount = epoch_total epoch (tickets (pushed t v.queue))
    have hcached := h.cached_eq epoch
    have hle := epoch_total_le epoch (tickets v.queue)
    rw [epoch_total_perm epoch hperm, epoch_total_cons]
    unfold cached at hcached
    rw [amount_credit, hcached]
    split <;> omega

theorem coherent_popped {v : ValueCachedQueue Q} (h : Coherent v) : Coherent (popped v) := by
  rw [popped_eq]
  unfold forget
  cases hq : tickets v.queue with
  | nil =>
    have hp : tickets (popped v.queue) = tickets v.queue := by rw [tickets_popped, hq]; rfl
    exact ⟨hp.symm ▸ h.one_epoch, hp.symm ▸ h.current, hp.symm ▸ h.cached_eq⟩
  | cons t rest =>
    have hp : tickets (popped v.queue) = rest := by rw [tickets_popped, hq]; rfl
    refine ⟨?_, ?_, fun epoch => ?_⟩
    · rw [List.head?_cons, tickets_popped]
      exact h.one_epoch.tail
    · rw [List.head?_cons, tickets_popped, hq]
    · have hcached := h.cached_eq epoch
      rw [hq, epoch_total_cons] at hcached
      rw [List.head?_cons, hp]
      show ((debit _ _ v.value_cache epoch).getD 0).amount = _
      unfold cached at hcached
      rw [amount_debit]
      omega

end Infallible

section Load
variable {ε H : Type}

/-- Counting adds what is stored of an epoch to its value. -/
theorem load_cached (l : List RedeemableTicket) (v : ValueCachedQueue H) (epoch : UInt32) :
    ((load (ε := ε) (l.map .ok) v).cached epoch).amount =
      min ((v.cached epoch).amount + epoch_total epoch l) HoprBalance.MAX := by
  induction l generalizing v with
  | nil =>
    have hle := (v.cached epoch).amount_le
    show (v.cached epoch).amount = min ((v.cached epoch).amount + 0) _
    omega
  | cons t rest ih =>
    have hcredit := amount_credit t.verified_ticket.channel_epoch epoch t.verified_ticket.amount v.value_cache
    rw [List.map_cons, load, ih, epoch_total_cons]
    unfold cached
    show min (((credit _ _ v.value_cache epoch).getD 0).amount + _) _ = _
    omega

theorem load_current (l : List RedeemableTicket) (v : ValueCachedQueue H) :
    (load (ε := ε) (l.map .ok) v).current_epoch =
      (l.getLast?.map (·.verified_ticket.channel_epoch)).or v.current_epoch := by
  induction l generalizing v with
  | nil => rfl
  | cons t rest ih =>
    rw [List.map_cons, load, ih, List.getLast?_cons]
    cases rest.getLast? <;> rfl

theorem load_current_of_mem {l : List RedeemableTicket} (hone : OneEpoch l) (v : ValueCachedQueue H)
    {t : RedeemableTicket} (ht : t ∈ l) :
    (load (ε := ε) (l.map .ok) v).current_epoch = some t.verified_ticket.channel_epoch := by
  have hne := List.ne_nil_of_mem ht
  rw [load_current, List.getLast?_eq_some_getLast hne, Option.map_some, hone _ (List.getLast_mem hne) t ht]
  rfl

end Load

section Infallible
variable {Q ε : Type}

/-- The adapter over the contents its handle stands for. -/
def with_queue {H : Type} (v : ValueCachedQueue H) (q : Q) : ValueCachedQueue Q :=
  ⟨q, v.value_cache, v.current_epoch⟩

variable [TicketQueue Q ε] [InfallibleTicketQueue Q]

/-- A new adapter is coherent with the queue it counted, which it leaves as it is. -/
theorem coherent_new {H : Type} (h : H) (q : Q) (hone : OneEpoch (tickets q))
    (hfits : total (tickets q) ≤ HoprBalance.MAX) :
    ∃ v : ValueCachedQueue H, (new h).run q = .ok v q ∧ v.queue = h ∧ Coherent (v.with_queue q) := by
  obtain ⟨visited, hperm, hrun⟩ := new_run (ε := ε) h q
  have hv : OneEpoch visited := fun t ht u hu => hone t (hperm.mem_iff.mp ht) u (hperm.mem_iff.mp hu)
  refine ⟨_, hrun, load_queue .., hone, ?_, fun epoch => ?_⟩
  · show ValueCachedQueue.current_epoch _ = (tickets q).head?.map _
    cases hq : tickets q with
    | nil =>
      rw [hq, List.perm_nil] at hperm
      subst hperm
      rfl
    | cons t rest =>
      have ht : t ∈ visited := hperm.mem_iff.mpr (by rw [hq]; exact List.mem_cons_self ..)
      exact load_current_of_mem hv ⟨h, fun _ => none, none⟩ ht
  · have hle := (epoch_total_le epoch (tickets q)).trans hfits
    refine (load_cached visited _ epoch).trans ?_
    rw [epoch_total_perm epoch hperm]
    exact (congrArg (min · _) (Nat.zero_add _)).trans (Nat.min_eq_left hle)

/-- Over a coherent cache it makes no difference whether the cache or the queue is asked. -/
theorem total_value_run {v : ValueCachedQueue Q} (h : Coherent v)
    (hfits : total (tickets v.queue) ≤ HoprBalance.MAX) (epoch : UInt32) {min_index : Option UInt64}
    (hmin : min_index.getD 0 = 0) :
    (total_value epoch min_index).run v =
      .ok (HoprBalance.ofNat (epoch_total epoch (tickets v.queue))) v := by
  have hscan := inner_run (TicketQueue.default_total_value_run epoch min_index hmin v.queue)
  simp only [total_value, EStateM.run_bind, EStateM.run_get]
  split
  · rename_i value hvalue
    have hcached := h.cached_eq epoch
    have hle := (epoch_total_le epoch (tickets v.queue)).trans hfits
    rw [cached, hvalue, Option.getD_some] at hcached
    have heq : value = HoprBalance.ofNat (epoch_total epoch (tickets v.queue)) := by
      ext
      rw [HoprBalance.amount_ofNat, hcached, Nat.min_eq_left hle]
    rw [← heq, EStateM.run_pure]
  · exact hscan

theorem coherent_drained {v : ValueCachedQueue Q} (h : Coherent v) : Coherent (drained v) :=
  drained_preserves (fun _ hv => coherent_popped hv) v h

end Infallible

end ValueCachedQueue

end Hopr.TicketManager
