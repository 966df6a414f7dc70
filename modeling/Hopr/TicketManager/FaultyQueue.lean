import Hopr.TicketManager.Faulty

/-! Calls on one channel's queue that may fail.

A plan lists the calls that draining, inserting, neglecting and pruning make of
the backend while none fails, computed from the tickets in the queue. Each of
them fares as its plan says, for any `R` that is carried along when a ticket is
taken from the front. -/
namespace Hopr.TicketManager.FailedCalls
open Library TicketQueue

/-! ### Plans -/

/-- Draining a value cache: each ticket is popped, and the new head peeked. -/
def drain_plan : List RedeemableTicket → List CallKind
  | [] => [.keep]
  | _ :: rest => .take :: .keep :: drain_plan rest

def insert_plan (t : RedeemableTicket) (l : List RedeemableTicket) : List CallKind :=
  .keep :: match l.head? with
  | some last =>
    if last.verified_ticket.channel_epoch < t.verified_ticket.channel_epoch then
      drain_plan l ++ [.keep]
    else if t.verified_ticket.channel_epoch < last.verified_ticket.channel_epoch then []
    else [.keep]
  | none => [.keep]

def neglect_plan (max_index : UInt64) : List RedeemableTicket → List CallKind
  | [] => [.keep]
  | t :: rest =>
    if t.verified_ticket.index ≤ max_index then .keep :: .take :: .keep :: neglect_plan max_index rest
    else [.keep]

def prune_plan (channel : ChannelEntry) : List RedeemableTicket → List CallKind
  | [] => [.keep]
  | t :: rest => if outdated channel t then .keep :: .take :: prune_plan channel rest else [.keep]

/-! ### On one queue -/

section Queue
variable {Q ε : Type} [TicketQueue Q ε]

/-- A state whose stored tickets satisfy `R`. -/
def Stores {T ε : Type} [TicketQueue T ε] (R : Bool → List RedeemableTicket → Prop) (taken : Bool)
    (t : T) : Prop := R taken (tickets t)

variable {R : Bool → List RedeemableTicket → Prop} {taken : Bool} {α : Type}

/-- A call that keeps the stored tickets. -/
theorem fares_attempt_keep {m : EStateM ε Q α} {q : Faulty Q} {a : α} {q' : Q}
    (hR : R taken (tickets q.queue)) (hm : m.run q.queue = .ok a q') :
    Fares (Stores R) (Faulty.attempt m) [.keep] taken q
      fun b r p => b = taken ∧ r = a ∧ p.queue = q' := by
  refine fares_keep (fun h => ⟨_, _, Faulty.attempt_fault h, hR⟩) (fun h => ?_)
  exact ⟨a, ⟨q', q.faults.tail⟩, Faulty.attempt_ok h hm, rfl, rfl, rfl, rfl⟩

/-- A call that takes a stored ticket. -/
theorem fares_attempt_take {m : EStateM ε Q α} {q : Faulty Q} {a : α} {q' : Q}
    (hR : R taken (tickets q.queue)) (hm : m.run q.queue = .ok a q') :
    Fares (Stores R) (Faulty.attempt m) [.take] taken q
      fun b r p => b = true ∧ r = a ∧ p.queue = q' := by
  refine fares_take (fun h => ⟨_, _, Faulty.attempt_fault h, hR⟩) (fun h => ?_)
  exact ⟨a, ⟨q', q.faults.tail⟩, Faulty.attempt_ok h hm, rfl, rfl, rfl, rfl⟩

variable [InfallibleTicketQueue Q]

theorem fares_peek (q : Faulty Q) (hR : R taken (tickets q)) :
    Fares (Stores R) (peek : EStateM _ (Faulty Q) _) [.keep] taken q
      fun b r p => b = taken ∧ r = (tickets q).head? ∧ tickets p = tickets q := by
  refine fares_mono (fares_attempt_keep hR (peek_run q.queue)) fun b r p ⟨hb, hr, hp⟩ => ?_
  refine ⟨hb, hr, ?_⟩
  show tickets p.queue = tickets q.queue
  rw [hp]

/-- The calls of a pop: nothing is taken from an empty queue. -/
def pop_plan (l : List RedeemableTicket) : List CallKind := [if l = [] then .keep else .take]

/-- A pop of a ticket leaves the rest, and something was taken. -/
theorem fares_pop (htake : ∀ b t l, R b (t :: l) → R true l) (q : Faulty Q)
    (hR : R taken (tickets q)) :
    Fares (Stores R) (pop : EStateM _ (Faulty Q) _) (pop_plan (tickets q)) taken q
      fun b r p => r = (tickets q).head? ∧ tickets p = (tickets q).tail ∧ R b (tickets p) := by
  have hR' : R taken (tickets q.queue) := hR
  have htickets : tickets (popped q.queue) = (tickets q.queue).tail := tickets_popped q.queue
  unfold pop_plan
  cases hq : tickets q with
  | nil =>
    have hq : tickets q.queue = [] := hq
    refine fares_mono (fares_attempt_keep hR' (pop_run q.queue)) fun b r p ⟨hb, hr, hp⟩ => ?_
    have hp : tickets p = [] := by
      show tickets p.queue = []
      rw [hp, htickets, hq]
      rfl
    rw [hq] at hr hR'
    exact ⟨hr, hp, by rw [hp, hb]; exact hR'⟩
  | cons t rest =>
    have hq : tickets q.queue = t :: rest := hq
    refine fares_mono (fares_attempt_take hR' (pop_run q.queue)) fun b r p ⟨hb, hr, hp⟩ => ?_
    have hp : tickets p = rest := by
      show tickets p.queue = rest
      rw [hp, htickets, hq]
      rfl
    rw [hq] at hr hR'
    exact ⟨hr, hp, by rw [hp, hb]; exact htake _ t rest hR'⟩

/-- Pruning goes through the outdated tickets in front. -/
theorem fares_prune_loop (htake : ∀ b t l, R b (t :: l) → R true l) (channel : ChannelEntry)
    (n : Nat) (q : Faulty Q) (hn : (tickets q).length < n) (hR : R taken (tickets q)) :
    Fares (Stores R) (prune_loop channel n) (prune_plan channel (tickets q)) taken q
      fun b _ p => tickets p = (tickets q).dropWhile (outdated channel) ∧ R b (tickets p) := by
  induction n generalizing q taken with
  | zero => exact absurd hn (Nat.not_lt_zero _)
  | succ n ih =>
    unfold prune_loop
    cases hq : tickets q with
    | nil =>
      refine fares_return (fares_mono (fares_peek q hR) ?_)
      rintro b r p ⟨rfl, rfl, hp⟩
      rw [hq] at hp hR
      rw [hq]
      exact fares_pure ⟨hp, hp ▸ hR⟩
    | cons t rest =>
      have hpeek := fares_peek q hR
      rw [hq] at hpeek hR
      by_cases ho : outdated channel t = true
      · simp only [prune_plan, ho, if_true, List.dropWhile_cons_of_pos ho]
        refine fares_bind (p := [.keep]) (fares_mono hpeek ?_)
        rintro b r p ⟨rfl, rfl, hp⟩
        have hpop := fares_pop htake p (hp ▸ hR)
        rw [hp] at hpop
        simp only [List.head?_cons, ho, if_true]
        refine fares_bind (p := [.take]) (fares_mono hpop ?_)
        rintro b r p' ⟨rfl, hp', hR'⟩
        have hlen : (tickets p').length < n := by
          rw [hp', List.tail_cons]
          rw [hq] at hn
          exact Nat.lt_of_succ_lt_succ hn
        have hloop := ih p' hlen hR'
        rw [hp', List.tail_cons] at hloop
        exact fares_return (fares_mono hloop fun b l p h => fares_pure h)
      · simp only [prune_plan, ho, Bool.false_eq_true, if_false]
        refine fares_return (fares_mono hpeek ?_)
        rintro b r p ⟨rfl, rfl, hp⟩
        simp only [List.head?_cons, ho, Bool.false_eq_true, if_false]
        refine fares_pure ⟨?_, hp ▸ hR⟩
        rw [List.dropWhile_cons_of_neg ho, hp]

theorem fares_prune (htake : ∀ b t l, R b (t :: l) → R true l) (channel : ChannelEntry)
    (q : Faulty Q) (hR : R taken (tickets q)) :
    Fares (Stores R) (prune channel) (prune_plan channel (tickets q)) taken q
      fun b _ p => tickets p = (tickets q).dropWhile (outdated channel) ∧ R b (tickets p) :=
  fares_prune_loop htake channel _ q (Nat.lt_succ_self _) hR

/-- Reading what is stored keeps it. -/
theorem fares_new {H : Type} (h : H) (q : Faulty Q) (hR : R taken (tickets q)) :
    Fares (Stores R) (ValueCachedQueue.new h) [.keep] taken q
      fun b v p => b = taken ∧ v.queue = h ∧ tickets p = tickets q := by
  obtain ⟨visited, _, hrun⟩ := InfallibleTicketQueue.iter_total q.queue
  refine fares_return (fares_return (fares_mono (fares_attempt_keep hR hrun) ?_))
  rintro b l p ⟨rfl, rfl, hp⟩
  refine fares_pure (fares_pure ⟨rfl, ValueCachedQueue.load_queue .., ?_⟩)
  show tickets p.queue = tickets q.queue
  rw [hp]

theorem fares_len (q : Faulty Q) (hR : R taken (tickets q)) :
    Fares (Stores R) (len : EStateM _ (Faulty Q) _) [.keep] taken q
      fun b n p => b = taken ∧ n = (tickets q).length ∧ tickets p = tickets q := by
  refine fares_mono (fares_attempt_keep hR (len_run q.queue)) ?_
  rintro b n p ⟨rfl, rfl, hp⟩
  refine ⟨rfl, rfl, ?_⟩
  show tickets p.queue = tickets q.queue
  rw [hp]

end Queue

/-! ### Under the lock of an entry -/

section Entry
open QueueWithStats
open ValueCachedQueue (inner_run)
variable {Q ε : Type} [TicketQueue Q ε] {R : Bool → List RedeemableTicket → Prop} {taken : Bool}
  {α : Type} {plan : List CallKind}

theorem fares_inner {m : EStateM (BackendError ε) (Faulty Q) α} {v : ValueCachedQueue (Faulty Q)}
    {P : Bool → α → Faulty Q → Prop} (h : Fares (Stores R) m plan taken v.queue P) :
    Fares (Stores R) (ValueCachedQueue.inner m) plan taken v fun b a w => P b a w.queue := by
  exact fares_lift (fun v => v.queue) (fun q => {v with queue := q}) id (fun a _ => a)
    (fun a q hrun => inner_run hrun) (fun e q hrun => ValueCachedQueue.inner_error hrun) rfl (fun _ => rfl) h
    (fun _ _ => id) (fun _ _ _ => id)

/-- The tickets behind the entry satisfy `R`. -/
def StoresIn (R : Bool → List RedeemableTicket → Prop) (taken : Bool)
    (c : QueueWithStats (Faulty Q)) : Prop := R taken (tickets c.queue)

theorem fares_onQueue {m : EStateM (BackendError ε) (ValueCachedQueue (Faulty Q)) α}
    {c : QueueWithStats (Faulty Q)} {P : Bool → α → ValueCachedQueue (Faulty Q) → Prop}
    (h : Fares (Stores R) m plan taken c.queue P) :
    Fares (StoresIn R) (onQueue m) plan taken c fun b a c' => P b a c'.queue := by
  exact fares_lift (fun c => c.queue) (fun v => {c with queue := v})
    TicketManagerError.StoreError (fun a _ => a) (fun a v hrun => onQueue_run hrun)
    (fun e v hrun => onQueue_error hrun) rfl (fun _ => rfl) h (fun _ _ => id) (fun _ _ _ => id)

theorem fares_onStats {f : ChannelTicketStats → ChannelTicketStats} {c : QueueWithStats (Faulty Q)}
    {P : Bool → Unit → QueueWithStats (Faulty Q) → Prop}
    (h : P taken () {c with stats := f c.stats}) :
    Fares (ε := TicketManagerError (BackendError ε)) (StoresIn R) (onStats f) [] taken c P :=
  fares_modify rfl h

variable [InfallibleTicketQueue Q]

/-- The calls of a pop through the value cache, which peeks at the new head. -/
def cached_pop_plan (l : List RedeemableTicket) : List CallKind :=
  pop_plan l ++ if l = [] then [] else [.keep]

theorem fares_cached_pop (htake : ∀ b t l, R b (t :: l) → R true l)
    (v : ValueCachedQueue (Faulty Q)) (hR : R taken (tickets v)) :
    Fares (Stores R) (pop : EStateM _ (ValueCachedQueue (Faulty Q)) _) (cached_pop_plan (tickets v))
      taken v fun b r w => r = (tickets v).head? ∧ tickets w = (tickets v).tail ∧
        R b (tickets w) := by
  unfold cached_pop_plan
  refine fares_bind (fares_mono (fares_inner (fares_pop htake v.queue hR)) ?_)
  rintro b r w ⟨rfl, hw, hR'⟩
  have hw : tickets w = (tickets v).tail := hw
  have hR' : R b (tickets w) := hR'
  cases hv : tickets v with
  | nil =>
    rw [hv] at hw
    simp only [List.head?_nil, if_true]
    exact fares_pure ⟨rfl, hw, hR'⟩
  | cons t rest =>
    rw [hv] at hw
    simp only [List.head?_cons, reduceCtorEq, if_false]
    refine fares_then (fares_modify rfl ?_)
    refine fares_return (fares_mono (fares_inner (fares_peek _ hR')) ?_)
    rintro b r x ⟨rfl, rfl, hx⟩
    have hx : tickets x = tickets w := hx
    refine fares_then (fares_modify rfl (fares_pure ⟨rfl, ?_, ?_⟩))
    · exact hx.trans hw
    · exact hx ▸ hR'

theorem drain_plan_cons (t : RedeemableTicket) (rest : List RedeemableTicket) :
    drain_plan (t :: rest) = cached_pop_plan (t :: rest) ++ drain_plan rest := rfl

theorem fares_drain_loop (htake : ∀ b t l, R b (t :: l) → R true l) (n : Nat)
    (v : ValueCachedQueue (Faulty Q)) (hn : (tickets v).length < n) (hR : R taken (tickets v)) :
    Fares (Stores R) (TicketQueue.drain_loop n) (drain_plan (tickets v)) taken v
      fun b _ w => R b (tickets w) := by
  induction n generalizing v taken with
  | zero => exact absurd hn (Nat.not_lt_zero _)
  | succ n ih =>
    have hpop := fares_cached_pop htake v hR
    unfold TicketQueue.drain_loop
    cases hv : tickets v with
    | nil =>
      rw [hv] at hpop
      refine fares_return (fares_mono hpop ?_)
      rintro b r w ⟨rfl, _, hR'⟩
      exact fares_pure hR'
    | cons t rest =>
      rw [hv] at hpop hn
      rw [drain_plan_cons]
      refine fares_bind (fares_mono hpop ?_)
      rintro b r w ⟨rfl, hw, hR'⟩
      rw [List.tail_cons] at hw
      have hloop := ih w (hw ▸ Nat.lt_of_succ_lt_succ hn) hR'
      rw [hw] at hloop
      exact fares_return (fares_mono hloop fun b l x h => fares_pure h)

theorem fares_drain (htake : ∀ b t l, R b (t :: l) → R true l) (v : ValueCachedQueue (Faulty Q))
    (hR : R taken (tickets v)) :
    Fares (Stores R) drain (drain_plan (tickets v)) taken v fun b _ w => R b (tickets w) :=
  fares_drain_loop htake _ v (Nat.lt_succ_self _) hR

theorem fares_cached_peek (v : ValueCachedQueue (Faulty Q)) (hR : R taken (tickets v)) :
    Fares (Stores R) (peek : EStateM _ (ValueCachedQueue (Faulty Q)) _) [.keep] taken v
      fun b r w => b = taken ∧ r = (tickets v).head? ∧ tickets w = tickets v :=
  fares_inner (fares_peek v.queue hR)

/-- A push that fails keeps the stored tickets, whatever the cache has booked. -/
theorem fares_cached_push (ticket : RedeemableTicket) (v : ValueCachedQueue (Faulty Q))
    (hR : R taken (tickets v)) :
    Fares (Stores R) (push ticket : EStateM _ (ValueCachedQueue (Faulty Q)) _) [.keep] taken v
      fun _ _ _ => True := by
  show Fares _ (ValueCachedQueue.push ticket) _ _ _ _
  unfold ValueCachedQueue.push
  refine fares_then (fares_modify rfl ?_)
  have hpush := fares_attempt_keep hR (push_run ticket v.queue.queue)
  exact fares_mono (fares_inner hpush) fun _ _ _ _ => trivial

theorem fares_accept (ticket : RedeemableTicket) (neg : List VerifiedTicket)
    (c : QueueWithStats (Faulty Q)) (hR : R taken (tickets c.queue)) :
    Fares (StoresIn R) (accept ticket neg) [.keep] taken c fun _ _ _ => True := by
  refine fares_return (fares_mono (fares_onQueue (fares_cached_push ticket c.queue hR)) ?_)
  intro b r c' _
  exact fares_then (fares_onStats (fares_pure trivial))

/-- An insertion takes tickets only to make place for those of a new epoch. -/
theorem fares_insert_occupied (htake : ∀ b t l, R b (t :: l) → R true l) (ticket : RedeemableTicket)
    (c : QueueWithStats (Faulty Q)) (hR : R taken (tickets c.queue)) :
    Fares (StoresIn R) (insert_occupied ticket) (insert_plan ticket (tickets c.queue)) taken c
      fun _ _ _ => True := by
  unfold insert_plan
  refine fares_bind (p := [.keep]) (fares_mono (fares_onQueue (fares_cached_peek c.queue hR)) ?_)
  rintro b r c' ⟨rfl, rfl, hc'⟩
  have hR' : R b (tickets c'.queue) := hc' ▸ hR
  cases (tickets c.queue).head? with
  | none => exact fares_accept ticket [] c' hR'
  | some last =>
    simp only
    split
    · refine fares_bind (hc' ▸ fares_mono (fares_onQueue (fares_drain htake c'.queue hR')) ?_)
      intro b neg d hd
      exact fares_then (fares_onStats (fares_accept ticket neg _ hd))
    · split
      · exact fares_then (fares_onStats (fares_then (fares_onStats (fares_pure trivial))))
      · exact fares_accept ticket [] c' hR'

theorem fares_neglect_loop (htake : ∀ b t l, R b (t :: l) → R true l) (max_index : UInt64) (n : Nat)
    (c : QueueWithStats (Faulty Q)) (hn : (tickets c.queue).length < n)
    (hR : R taken (tickets c.queue)) :
    Fares (StoresIn R) (neglect_loop max_index n) (neglect_plan max_index (tickets c.queue)) taken c
      fun _ _ _ => True := by
  induction n generalizing c taken with
  | zero => exact absurd hn (Nat.not_lt_zero _)
  | succ n ih =>
    have hpeek := fares_onQueue (fares_cached_peek c.queue hR)
    unfold neglect_loop neglect_next
    cases hc : tickets c.queue with
    | nil =>
      rw [hc] at hpeek
      refine fares_return (fares_return (fares_mono hpeek ?_))
      rintro b r c' ⟨rfl, rfl, _⟩
      exact fares_pure (fares_pure trivial)
    | cons t rest =>
      rw [hc] at hpeek hn hR
      by_cases hle : t.verified_ticket.index ≤ max_index
      · simp only [neglect_plan, hle, if_true]
        refine fares_bind (p := [.keep] ++ [.take, .keep]) (fares_bind (fares_mono hpeek ?_))
        rintro b r c' ⟨rfl, rfl, hc'⟩
        have hpop := fares_cached_pop htake c'.queue (hc' ▸ hR)
        rw [hc'] at hpop
        simp only [List.head?_cons, hle, if_true]
        refine fares_return (fares_mono (fares_onQueue hpop) ?_)
        rintro b r d ⟨rfl, hd, hR'⟩
        refine fares_then (fares_onStats (fares_pure ?_))
        have hd : tickets d.queue = rest := hd
        have hloop := fun stats => ih {d with stats} (hd ▸ Nat.lt_of_succ_lt_succ hn) hR'
        simp only [hd] at hloop
        exact fares_return (fares_mono (hloop _) fun b l p _ => fares_pure trivial)
      · simp only [neglect_plan, hle, if_false]
        refine fares_return (fares_return (fares_mono hpeek ?_))
        rintro b r c' ⟨rfl, rfl, _⟩
        simp only [List.head?_cons, hle, if_false]
        exact fares_pure (fares_pure trivial)

theorem fares_neglect_tickets [TicketBuilder] (htake : ∀ b t l, R b (t :: l) → R true l)
    (up_to_index : Option UInt64) (c : QueueWithStats (Faulty Q)) (hR : R taken (tickets c.queue)) :
    Fares (StoresIn R) (QueueWithStats.neglect_tickets up_to_index)
      (neglect_plan (up_to_index.getD TicketBuilder.MAX_TICKET_INDEX) (tickets c.queue)) taken c
      fun _ _ _ => True :=
  fares_neglect_loop htake _ _ c (Nat.lt_succ_self _) hR

end Entry

end Hopr.TicketManager.FailedCalls
