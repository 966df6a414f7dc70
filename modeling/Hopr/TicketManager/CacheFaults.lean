import Hopr.Library.Machine
import Hopr.TicketManager.Faulty
import Hopr.TicketManager.Replacing

/-! The value cache over a queue that may fail.

`push` books a ticket before the queue has taken it, and `pop` reads the new head
after the queue has given its ticket up, so a call that fails between the two
leaves the cache or the caller with something else than the queue. `Faithful` is
what the cache owes to the queue. A call keeps it, and hands over what it takes,
exactly if it is `Orderly`; a run does exactly if all its calls are
(`stays_faithful_iff`). -/
namespace Hopr.TicketManager.CacheFaults
open Library TicketQueue ValueCachedQueue

inductive Call where
  | push (ticket : RedeemableTicket)
  | pop
  | drain

/-- What the call hands to the queue. -/
def Call.given : Call → List RedeemableTicket
  | .push ticket => [ticket]
  | .pop => []
  | .drain => []

section Calls
variable {Q ε : Type} [TicketQueue Q ε]

/-- What a call returns are the tickets that it takes. -/
def perform : Call → EStateM (BackendError ε) (ValueCachedQueue (Faulty Q)) (List VerifiedTicket)
  | .push ticket => do
    TicketQueue.push ticket
    return []
  | .pop => do
    let ticket ← TicketQueue.pop
    return ticket.toList.map (·.ticket)
  | .drain => TicketQueue.drain

/-- The adapter whose next calls of the queue have the faults. -/
def faulted (v : ValueCachedQueue Q) (f : Faults) : ValueCachedQueue (Faulty Q) := v.with_queue ⟨v.queue, f⟩

def settled (w : ValueCachedQueue (Faulty Q)) : ValueCachedQueue Q := w.with_queue w.queue.queue

/-- The adapter after a call, whether or not it failed. -/
def next (v : ValueCachedQueue Q) (c : Call × Faults) : ValueCachedQueue Q :=
  settled (after (perform c.1) (faulted v c.2))

variable (Q) in
/-- Calls one after the other, each with the faults of the queue during it. -/
def machine : Machine (ValueCachedQueue Q) (Call × Faults) where
  step v c := some (next v c)

/-- Every cached value is that of the queue, and one stored epoch is the one on record. -/
structure Faithful (v : ValueCachedQueue Q) : Prop where
  cached_eq : ∀ epoch, (v.cached epoch).amount = epoch_total epoch (tickets v.queue)
  current : OneEpoch (tickets v.queue) →
    v.current_epoch = (tickets v.queue).head?.map (·.verified_ticket.channel_epoch)

/-- No ticket leaves the queue without being handed to the caller. -/
def HandsOver (v : ValueCachedQueue Q) (c : Call × Faults) : Prop :=
  match (perform c.1).run (faulted v c.2) with
  | .ok taken w => ((c.1.given ++ tickets v.queue).map (·.ticket)).Perm (taken ++ (tickets w).map (·.ticket))
  | .error _ w => tickets w = tickets v.queue

/-- The call keeps the cache faithful and hands over what it takes. -/
def Keeps (v : ValueCachedQueue Q) (c : Call × Faults) : Prop := Faithful (next v c) ∧ HandsOver v c

/-- A push fails only if booking the ticket changes nothing, and otherwise it replaces nothing and its
value fits; a pop does not fail after its ticket was taken, and a drain only at once. -/
def Orderly (replaces : RedeemableTicket → RedeemableTicket → Bool) (v : ValueCachedQueue Q) :
    Call × Faults → Prop
  | (.push t, f) =>
    if f 0 = true then
      (t.verified_ticket.amount = 0 ∨
        epoch_total t.verified_ticket.channel_epoch (tickets v.queue) = HoprBalance.MAX) ∧
      (OneEpoch (tickets v.queue) →
        ∃ u ∈ tickets v.queue, t.verified_ticket.channel_epoch ≤ u.verified_ticket.channel_epoch)
    else
      epoch_total t.verified_ticket.channel_epoch (tickets v.queue) + t.verified_ticket.amount.amount ≤
        HoprBalance.MAX ∧ ∀ u ∈ tickets v.queue, replaces t u = false
  | (.pop, f) => tickets v.queue ≠ [] → ¬ f.FirstAt 1
  | (.drain, f) => ∀ k, 1 ≤ k → k ≤ 2 * (tickets v.queue).length → ¬ f.FirstAt k

instance (l : List RedeemableTicket) : Decidable (OneEpoch l) :=
  inferInstanceAs (Decidable (∀ t ∈ l, ∀ u ∈ l, t.verified_ticket.channel_epoch = u.verified_ticket.channel_epoch))

instance (replaces : RedeemableTicket → RedeemableTicket → Bool) (v : ValueCachedQueue Q) :
    (c : Call × Faults) → Decidable (Orderly replaces v c)
  | (.push _, f) => inferInstanceAs (Decidable (if f 0 = true then _ else _))
  | (.pop, _) => inferInstanceAs (Decidable (_ → _))
  | (.drain, f) => inferInstanceAs (Decidable (∀ k, 1 ≤ k → k ≤ 2 * (tickets v.queue).length → ¬ f.FirstAt k))

variable {v : ValueCachedQueue Q} {c : Call × Faults} {w : ValueCachedQueue (Faulty Q)}

theorem keeps_ok {taken : List VerifiedTicket} (h : (perform c.1).run (faulted v c.2) = .ok taken w) :
    Keeps v c ↔ Faithful (settled w) ∧
      ((c.1.given ++ tickets v.queue).map (·.ticket)).Perm (taken ++ (tickets w).map (·.ticket)) := by
  unfold Keeps HandsOver next
  rw [after_ok h, h]

theorem keeps_error {e : BackendError ε} (h : (perform c.1).run (faulted v c.2) = .error e w) :
    Keeps v c ↔ Faithful (settled w) ∧ tickets w = tickets v.queue := by
  unfold Keeps HandsOver next
  rw [after_error h, h]

end Calls

/-! ### Pushing -/

section Push
variable {Q ε : Type} {v : ValueCachedQueue Q} {t : RedeemableTicket} {f : Faults}

/-- The adapter when a ticket was booked. -/
def booked (t : RedeemableTicket) (v : ValueCachedQueue Q) : ValueCachedQueue Q :=
  {v with
    value_cache := credit t.verified_ticket.channel_epoch t.verified_ticket.amount v.value_cache
    current_epoch := some (max t.verified_ticket.channel_epoch (v.current_epoch.getD 0))}

variable [TicketQueue Q ε]

theorem push_fault (h : f 0 = true) :
    (perform (.push t)).run (faulted v f) = .error .Unavailable (faulted (booked t v) f.tail) := by
  have hpush : (TicketQueue.push t).run (faulted v f) = .error .Unavailable (faulted (booked t v) f.tail) :=
    inner_error (v := faulted (booked t v) f) (Faulty.attempt_fault (m := TicketQueue.push t) h)
  simp only [perform, EStateM.run_bind, hpush]

theorem cached_booked (h : Faithful v) (epoch : UInt32) : ((booked t v).cached epoch).amount =
    min (epoch_total epoch (tickets v.queue) +
      if t.verified_ticket.channel_epoch = epoch then t.verified_ticket.amount.amount else 0) HoprBalance.MAX := by
  rw [← h.cached_eq epoch]
  exact amount_credit ..

/-- The epoch on record is not below that of the stored tickets, if they have one. -/
theorem max_epoch_iff {epoch : UInt32} {l : List RedeemableTicket} (hone : OneEpoch l) :
    some (max epoch ((l.head?.map (·.verified_ticket.channel_epoch)).getD 0)) =
        l.head?.map (·.verified_ticket.channel_epoch) ↔ ∃ u ∈ l, epoch ≤ u.verified_ticket.channel_epoch := by
  cases l with
  | nil =>
    constructor
    · intro hnone
      cases hnone
    · intro ⟨u, hu, _⟩
      cases hu
  | cons u rest =>
    rw [List.head?_cons, Option.map_some, Option.getD_some, Option.some.injEq]
    show (if epoch ≤ u.verified_ticket.channel_epoch then u.verified_ticket.channel_epoch else epoch) = _ ↔ _
    constructor
    · intro hmax
      refine ⟨u, List.mem_cons_self, ?_⟩
      by_cases hle : epoch ≤ u.verified_ticket.channel_epoch
      · exact hle
      · rw [if_neg hle] at hmax
        exact hmax ▸ UInt32.le_refl _
    · intro ⟨w, hw, hle⟩
      rw [hone w hw u List.mem_cons_self] at hle
      exact if_pos hle

/-- A push that fails keeps the tickets, and the cache has booked one more. -/
theorem push_fault_iff (h : Faithful v) : Faithful (booked t v) ↔
    (t.verified_ticket.amount = 0 ∨
      epoch_total t.verified_ticket.channel_epoch (tickets v.queue) = HoprBalance.MAX) ∧
    (OneEpoch (tickets v.queue) →
      ∃ u ∈ tickets v.queue, t.verified_ticket.channel_epoch ≤ u.verified_ticket.channel_epoch) := by
  constructor
  · intro h'
    constructor
    · have hcached : _ = epoch_total t.verified_ticket.channel_epoch (tickets v.queue) :=
        (cached_booked h _).symm.trans (h'.cached_eq t.verified_ticket.channel_epoch)
      rw [if_pos rfl] at hcached
      by_cases hzero : t.verified_ticket.amount.amount = 0
      · exact Or.inl (HoprBalance.ext hzero)
      · right
        omega
    · intro hone
      apply (max_epoch_iff hone).mp
      rw [← h.current hone]
      exact (h'.current hone).trans (h.current hone).symm
  · intro ⟨hvalue, hepoch⟩
    refine ⟨fun epoch => ?_, fun hone => ?_⟩
    · have hle := h.cached_eq epoch ▸ (v.cached epoch).amount_le
      show _ = epoch_total epoch (tickets v.queue)
      rw [cached_booked h]
      split
      · next he =>
        subst he
        cases hvalue with
        | inl hzero => rw [hzero, HoprBalance.amount_zero, Nat.add_zero, Nat.min_eq_left hle]
        | inr hmax => omega
      · rw [Nat.add_zero, Nat.min_eq_left hle]
    · have hmax := (max_epoch_iff hone).mpr (hepoch hone)
      have hcurrent := h.current hone
      show some (max _ (v.current_epoch.getD 0)) = _
      rw [hcurrent]
      exact hmax

variable {replaces : RedeemableTicket → RedeemableTicket → Bool}

theorem perm_pushed (hpush : Replaces Q replaces) (hnone : ∀ u ∈ tickets v.queue, replaces t u = false) :
    (tickets (pushed t v.queue)).Perm (t :: tickets v.queue) := by
  have hperm := hpush.pushed t v.queue
  rwa [List.filter_eq_self.mpr fun u hu => (Bool.not_eq_true' _).mpr (hnone u hu)] at hperm

/-- A push that succeeds keeps the cache faithful if the sum fits and nothing is replaced. -/
theorem push_done_iff (hpush : Replaces Q replaces) (h : Faithful v) :
    Faithful {booked t v with queue := pushed t v.queue} ∧
      ((t :: tickets v.queue).map (·.ticket)).Perm ((tickets (pushed t v.queue)).map (·.ticket)) ↔
    epoch_total t.verified_ticket.channel_epoch (tickets v.queue) + t.verified_ticket.amount.amount ≤
      HoprBalance.MAX ∧ ∀ u ∈ tickets v.queue, replaces t u = false := by
  constructor
  · intro ⟨h', hkept⟩
    have hnone : ∀ u ∈ tickets v.queue, replaces t u = false := by
      have hlength := hkept.length_eq.trans ((hpush.pushed t v.queue).map (·.ticket)).length_eq
      simp only [List.length_map, List.length_cons, Nat.add_right_cancel_iff] at hlength
      intro u hu
      exact (Bool.not_eq_true' _).mp (List.length_filter_eq_length_iff.mp hlength.symm u hu)
    refine ⟨?_, hnone⟩
    have hcached := (cached_booked h _).symm.trans (h'.cached_eq t.verified_ticket.channel_epoch)
    have htotal := epoch_total_perm t.verified_ticket.channel_epoch (perm_pushed hpush hnone)
    rw [epoch_total_cons, if_pos rfl] at htotal
    rw [if_pos rfl] at hcached
    have hsum := hcached.trans htotal
    omega
  · intro ⟨hfits, hnone⟩
    have hperm := perm_pushed hpush hnone
    refine ⟨⟨fun epoch => ?_, fun hone => ?_⟩, (hperm.map _).symm⟩
    · have hle := h.cached_eq epoch ▸ (v.cached epoch).amount_le
      show ((booked t v).cached epoch).amount = epoch_total epoch (tickets (pushed t v.queue))
      rw [cached_booked h, epoch_total_perm epoch hperm, epoch_total_cons]
      split
      · next he =>
        subst he
        omega
      · omega
    · have hall : ∀ u ∈ tickets (pushed t v.queue),
          u.verified_ticket.channel_epoch = t.verified_ticket.channel_epoch :=
        fun u hu => hone u hu t (hperm.mem_iff.mpr List.mem_cons_self)
      have hsame : ∀ u ∈ tickets v.queue, u.verified_ticket.channel_epoch = t.verified_ticket.channel_epoch :=
        fun u hu => hall u (hperm.mem_iff.mpr (List.mem_cons_of_mem _ hu))
      have hcurrent := h.current fun u hu w hw => (hsame u hu).trans (hsame w hw).symm
      show some (max _ (v.current_epoch.getD 0)) = (tickets (pushed t v.queue)).head?.map _
      rw [max_current hcurrent hsame]
      cases hq : tickets (pushed t v.queue) with
      | nil => exact absurd (hq ▸ hperm).length_eq (by simp)
      | cons u rest => rw [List.head?_cons, Option.map_some, hall u (hq ▸ List.mem_cons_self)]

variable [TotalTicketQueue Q]

theorem push_done (h : f 0 = false) : (perform (.push t)).run (faulted v f) =
    .ok [] (faulted {booked t v with queue := pushed t v.queue} f.tail) := by
  have hpush : (TicketQueue.push t).run (faulted v f) =
      .ok () (faulted {booked t v with queue := pushed t v.queue} f.tail) :=
    inner_run (v := faulted (booked t v) f) (Faulty.attempt_ok h (push_run t v.queue))
  simp only [perform, EStateM.run_bind, hpush, EStateM.run_pure]

end Push

/-! ### Popping -/

section Pop
variable {Q ε : Type} [TicketQueue Q ε] {v : ValueCachedQueue Q} {f : Faults}

theorem perform_pop_ok {w w' : ValueCachedQueue (Faulty Q)} {r : Option RedeemableTicket}
    (h : TicketQueue.pop.run w = .ok r w') : (perform .pop).run w = .ok (r.toList.map (·.ticket)) w' := by
  simp only [perform, EStateM.run_bind, h, EStateM.run_pure]

theorem perform_pop_error {w w' : ValueCachedQueue (Faulty Q)} {e : BackendError ε}
    (h : TicketQueue.pop.run w = .error e w') : (perform .pop).run w = .error e w' := by
  simp only [perform, EStateM.run_bind, h]

variable [TotalTicketQueue Q]

/-- The head is taken, and the cache told of it. -/
theorem Faithful.taken {w : ValueCachedQueue (Faulty Q)} (h : Faithful (settled w)) {t : RedeemableTicket}
    {rest : List RedeemableTicket} (hq : tickets w = t :: rest) (f : Faults) :
    Faithful (settled
      { queue := ⟨popped w.queue.queue, f⟩
        value_cache := (Faulty.debited t w).value_cache
        current_epoch := rest.head?.map (·.verified_ticket.channel_epoch) }) := by
  have hrest : tickets (popped w.queue.queue) = rest := Faulty.tickets_debited hq
  refine ⟨fun epoch => ?_, fun _ => ?_⟩
  · have hcached : ((w.value_cache epoch).getD 0).amount = epoch_total epoch (tickets w) := h.cached_eq epoch
    show ((debit _ _ w.value_cache epoch).getD 0).amount = epoch_total epoch (tickets (popped w.queue.queue))
    rw [hq, epoch_total_cons] at hcached
    rw [amount_debit, hrest]
    omega
  · show _ = (tickets (popped w.queue.queue)).head?.map _
    rw [hrest]
    rfl

theorem Faithful.found_empty {w : ValueCachedQueue (Faulty Q)} (h : Faithful (settled w)) (hq : tickets w = [])
    (f : Faults) : Faithful (settled {w with queue := ⟨popped w.queue.queue, f⟩}) := by
  have hq : tickets w.queue.queue = [] := hq
  have hleft : tickets (popped w.queue.queue) = tickets w.queue.queue := by
    rw [tickets_popped, hq]
    rfl
  refine ⟨fun epoch => ?_, fun hone => ?_⟩
  · show _ = epoch_total epoch (tickets (popped w.queue.queue))
    rw [hleft]
    exact h.cached_eq epoch
  · show _ = (tickets (popped w.queue.queue)).head?.map _
    rw [hleft]
    exact h.current (hleft ▸ hone)

theorem pop_keeps_iff (h : Faithful v) : Keeps v (.pop, f) ↔ (tickets v.queue ≠ [] → ¬ f.FirstAt 1) := by
  have hsettled : Faithful (settled (faulted v f)) := h
  cases hfirst : f 0 with
  | true =>
    have hpop := Faulty.pop_fault (v := faulted v f) hfirst
    rw [keeps_error (c := (.pop, f)) (perform_pop_error hpop)]
    exact ⟨fun _ _ hunread => Bool.false_ne_true ((hunread.2 0 Nat.one_pos).symm.trans hfirst), fun _ => ⟨h, rfl⟩⟩
  | false =>
    cases hq : tickets v.queue with
    | nil =>
      have hpop := Faulty.pop_nil (v := faulted v f) hq hfirst
      have hleft : tickets (popped v.queue) = [] := by
        rw [tickets_popped, hq]
        rfl
      rw [keeps_ok (c := (.pop, f)) (perform_pop_ok hpop)]
      refine ⟨fun _ hne => absurd rfl hne, fun _ => ⟨hsettled.found_empty hq _, ?_⟩⟩
      show ((tickets v.queue).map _).Perm ((tickets (popped v.queue)).map _)
      rw [hq, hleft]
    | cons t rest =>
      have hrest : tickets (popped v.queue) = rest := Faulty.tickets_debited (v := faulted v f) hq
      cases hsecond : f 1 with
      | true =>
        have hunread : f.FirstAt 1 := ⟨hsecond, fun k hk => Nat.lt_one_iff.mp hk ▸ hfirst⟩
        have hpop := Faulty.pop_unread (v := faulted v f) hq hunread
        rw [keeps_error (c := (.pop, f)) (perform_pop_error hpop)]
        constructor
        · intro ⟨_, hsame⟩
          have hsame : tickets (popped v.queue) = tickets v.queue := hsame
          rw [hrest, hq] at hsame
          exact absurd hsame (List.cons_ne_self t rest).symm
        · exact fun hread => absurd hunread (hread (List.cons_ne_nil t rest))
      | false =>
        have hclear : f.Clear 2 := by
          intro k hk
          obtain rfl | rfl : k = 0 ∨ k = 1 := by omega
          · exact hfirst
          · exact hsecond
        have hpop := Faulty.pop_taken (v := faulted v f) hq hclear
        rw [keeps_ok (c := (.pop, f)) (perform_pop_ok hpop)]
        refine ⟨fun _ _ hunread => Bool.false_ne_true (hsecond.symm.trans hunread.1),
          fun _ => ⟨hsettled.taken hq _, ?_⟩⟩
        show ((tickets v.queue).map _).Perm (t.ticket :: (tickets (popped v.queue)).map _)
        rw [hq, hrest]
        rfl

end Pop

/-! ### Draining -/

section Drain
variable {Q ε : Type} [TicketQueue Q ε] {v : ValueCachedQueue Q} {f : Faults}

theorem drain_loop_error (n : Nat) {w w' : ValueCachedQueue (Faulty Q)} {e : BackendError ε}
    (h : TicketQueue.pop.run w = .error e w') : (drain_loop (n + 1)).run w = .error e w' := by
  simp only [drain_loop, EStateM.run_bind, h]

variable [TotalTicketQueue Q]

/-- A turn of the loop that takes a ticket. -/
theorem drain_turn {w : ValueCachedQueue (Faulty Q)} {t : RedeemableTicket} {rest : List RedeemableTicket}
    (hq : tickets w = t :: rest) (hclear : w.queue.faults.Clear 2) :
    ∃ m, TicketQueue.pop.run w = .ok (some t) m ∧ tickets m = rest ∧ m.queue.faults = w.queue.faults.drop 2 ∧
      (Faithful (settled w) → Faithful (settled m)) :=
  ⟨_, Faulty.pop_taken hq hclear, Faulty.tickets_debited hq, rfl, fun h => h.taken hq _⟩

theorem drain_loop_done (n : Nat) {w : ValueCachedQueue (Faulty Q)} (hn : (tickets w).length < n)
    (hclear : w.queue.faults.Clear (2 * (tickets w).length + 1)) (h : Faithful (settled w)) :
    ∃ w', (drain_loop n).run w = .ok ((tickets w).map (·.ticket)) w' ∧ tickets w' = [] ∧
      Faithful (settled w') := by
  induction n generalizing w with
  | zero => exact absurd hn (Nat.not_lt_zero _)
  | succ n ih =>
    cases hq : tickets w with
    | nil =>
      have hpop := Faulty.pop_nil hq (hclear 0 (Nat.succ_pos _))
      have hqueue : tickets w.queue.queue = [] := hq
      have hleft : tickets (popped w.queue.queue) = [] := by
        rw [tickets_popped, hqueue]
        rfl
      refine ⟨_, ?_, hleft, h.found_empty hq w.queue.faults.tail⟩
      simp only [drain_loop, EStateM.run_bind, hpop, EStateM.run_pure]
      rfl
    | cons t rest =>
      rw [hq, List.length_cons] at hn hclear
      obtain ⟨m, hpop, hleft, hfaults, htaken⟩ := drain_turn hq fun k hk => hclear k (by omega)
      obtain ⟨w', hrun, hempty, h'⟩ := ih (hleft ▸ Nat.lt_of_succ_lt_succ hn) (by
        rw [hleft, hfaults]
        exact fun k hk => hclear (k + 2) (by omega)) (htaken h)
      refine ⟨w', ?_, hempty, h'⟩
      simp only [drain_loop, EStateM.run_bind, hpop, hrun, EStateM.run_pure]
      rw [hleft]
      rfl

/-- A drain that fails returns none of the tickets that it took. -/
theorem drain_loop_failed (n : Nat) {w : ValueCachedQueue (Faulty Q)} (hn : (tickets w).length < n) {k : Nat}
    (hk : k ≤ 2 * (tickets w).length) (hfirst : w.queue.faults.FirstAt k) :
    ∃ e w', (drain_loop n).run w = .error e w' ∧ (k = 0 → settled w' = settled w) ∧
      (1 ≤ k → (tickets w').length < (tickets w).length) := by
  induction n generalizing w k with
  | zero => exact absurd hn (Nat.not_lt_zero _)
  | succ n ih =>
    cases k with
    | zero =>
      have hrun := drain_loop_error n (Faulty.pop_fault hfirst.1)
      exact ⟨_, _, hrun, fun _ => rfl, fun hpos => absurd hpos (Nat.not_succ_le_zero 0)⟩
    | succ k =>
      cases hq : tickets w with
      | nil =>
        rw [hq] at hk
        cases hk
      | cons t rest =>
        rw [hq, List.length_cons] at hn hk
        cases k with
        | zero =>
          have hrest : tickets (popped w.queue.queue) = rest := Faulty.tickets_debited hq
          have hrun := drain_loop_error n (Faulty.pop_unread hq hfirst)
          refine ⟨_, _, hrun, fun hzero => absurd hzero (Nat.succ_ne_zero 0), fun _ => ?_⟩
          show (tickets (popped w.queue.queue)).length < _
          rw [hrest]
          exact Nat.lt_succ_self _
        | succ k =>
          obtain ⟨m, hpop, hleft, hfaults, _⟩ := drain_turn hq fun i hi => hfirst.2 i (by omega)
          have hfirst' : m.queue.faults.FirstAt k := by
            rw [hfaults]
            exact ⟨hfirst.1, fun i hi => hfirst.2 (i + 2) (by omega)⟩
          obtain ⟨e, w', hrun, hkept, hless⟩ := ih (hleft ▸ Nat.lt_of_succ_lt_succ hn) (by
            rw [hleft]
            omega) hfirst'
          refine ⟨e, w', ?_, fun hzero => absurd hzero (Nat.succ_ne_zero _), fun _ => ?_⟩
          · simp only [drain_loop, EStateM.run_bind, hpop, hrun]
          · have hle : (tickets w').length ≤ rest.length := by
              rw [← hleft]
              cases Nat.eq_zero_or_pos k with
              | inl hzero =>
                have hsame : tickets w' = tickets m := congrArg (fun v => tickets v.queue) (hkept hzero)
                rw [hsame]
              | inr hpos => exact Nat.le_of_lt (hless hpos)
            exact Nat.lt_succ_of_le hle

theorem drain_keeps_iff (h : Faithful v) :
    Keeps v (.drain, f) ↔ ∀ k, 1 ≤ k → k ≤ 2 * (tickets v.queue).length → ¬ f.FirstAt k := by
  cases f.clear_or_firstAt (2 * (tickets v.queue).length + 1) with
  | inl hclear =>
    obtain ⟨w, hrun, hempty, hw⟩ := drain_loop_done _ (w := faulted v f) (Nat.lt_succ_self _) hclear h
    rw [keeps_ok (c := (.drain, f)) hrun]
    refine ⟨fun _ k _ hk hfirst => hfirst.not_clear hclear (Nat.lt_succ_of_le hk), fun _ => ⟨hw, ?_⟩⟩
    rw [hempty, List.map_nil, List.append_nil]
    exact .refl _
  | inr hfirst =>
    obtain ⟨k, hk, hfirst⟩ := hfirst
    obtain ⟨e, w, hrun, hkept, hless⟩ := drain_loop_failed _ (w := faulted v f) (Nat.lt_succ_self _)
      (Nat.le_of_lt_succ hk) hfirst
    rw [keeps_error (c := (.drain, f)) hrun]
    cases Nat.eq_zero_or_pos k with
    | inl hzero =>
      have hsettled : settled w = v := hkept hzero
      constructor
      · intro _ i hi _ hfirst'
        rw [← hfirst.eq hfirst', hzero] at hi
        exact Nat.not_succ_le_zero 0 hi
      · intro _
        rw [hsettled]
        exact ⟨h, congrArg (fun v => tickets v.queue) hsettled⟩
    | inr hpos =>
      constructor
      · intro ⟨_, hsame⟩
        have hlt := hless hpos
        rw [hsame] at hlt
        exact absurd hlt (Nat.lt_irrefl _)
      · exact fun hnone => absurd hfirst (hnone k hpos (Nat.le_of_lt_succ hk))

end Drain

/-! ### Runs -/

section Runs
variable {Q ε : Type} [TicketQueue Q ε] [TotalTicketQueue Q] {v : ValueCachedQueue Q}
  {replaces : RedeemableTicket → RedeemableTicket → Bool}

/-- A call keeps the cache faithful and hands over what it takes exactly if it is orderly. -/
theorem keeps_iff (hpush : Replaces Q replaces) (h : Faithful v) (c : Call × Faults) :
    Keeps v c ↔ Orderly replaces v c := by
  obtain ⟨call, f⟩ := c
  cases call with
  | push t =>
    cases hfault : f 0 with
    | true =>
      rw [keeps_error (c := (.push t, f)) (push_fault hfault)]
      simp only [Orderly, hfault, if_true]
      rw [← push_fault_iff h]
      exact and_iff_left rfl
    | false =>
      rw [keeps_ok (c := (.push t, f)) (push_done hfault)]
      simp only [Orderly, hfault, Bool.false_eq_true, if_false]
      exact push_done_iff hpush h
  | pop => exact pop_keeps_iff h
  | drain => exact drain_keeps_iff h

/-- An adapter made for a queue whose values fit is faithful to it. -/
theorem faithful_new {q q' : Q} (hfits : ∀ epoch, epoch_total epoch (tickets q) ≤ HoprBalance.MAX)
    (hnew : (new q).run q = .ok v q') : Faithful v := by
  obtain ⟨visited, hperm, hrun⟩ := new_run (ε := ε) q q
  cases hnew.symm.trans hrun
  refine ⟨fun epoch => ?_, fun hone => ?_⟩
  · rw [load_cached, load_queue, epoch_total_perm epoch hperm]
    exact (congrArg (min · _) (Nat.zero_add _)).trans (Nat.min_eq_left (hfits epoch))
  · rw [load_queue] at hone ⊢
    cases hq : tickets q with
    | nil =>
      rw [hq, List.perm_nil] at hperm
      subst hperm
      rfl
    | cons t rest =>
      have hone' : OneEpoch visited := fun u hu w hw => hone u (hperm.mem_iff.mp hu) w (hperm.mem_iff.mp hw)
      exact load_current_of_mem hone' _ (hperm.mem_iff.mpr (hq ▸ List.mem_cons_self))

/-- **In a run every cached value stays that of the queue, and no ticket leaves without being returned,
exactly if every call is orderly**: no push fails after the ticket was booked, no pop after it was
taken. -/
theorem stays_faithful_iff (hpush : Replaces Q replaces) {q q' : Q}
    (hfits : ∀ epoch, epoch_total epoch (tickets q) ≤ HoprBalance.MAX) (hnew : (new q).run q = .ok v q')
    (calls : List (Call × Faults)) :
    Faithful v ∧ ((machine Q).Meets Keeps v calls ↔ (machine Q).Meets (Orderly replaces) v calls) := by
  have hv := faithful_new hfits hnew
  refine ⟨hv, Machine.meets_iff_of_invariant (fun v c h => keeps_iff hpush h c) ?_ hv⟩
  intro v c v' hkeeps _ hstep
  cases hstep
  exact hkeeps.1

end Runs

section Memory

/-- The adapter of a new queue. -/
def fresh : ValueCachedQueue MemoryTicketQueue := ⟨CreatableQueue.empty, fun _ => none, none⟩

/-- Faults come when nothing was booked or taken yet. -/
theorem stays_faithful_popped : (machine MemoryTicketQueue).Meets Keeps fresh
    [(.push (.of 1 1 3 10), fun _ => false), (.pop, (· = 0)), (.pop, (· = 2)), (.drain, fun _ => true)] := by
  have hnew : (new CreatableQueue.empty).run (CreatableQueue.empty : MemoryTicketQueue) =
      .ok fresh CreatableQueue.empty := rfl
  rw [(stays_faithful_iff (replaces_nothing MemoryTicketQueue) (fun _ => Nat.zero_le _) hnew _).2]
  decide

/-- **A push that fails was booked, and a pop that fails has taken its ticket.** -/
theorem failed_push_booked :
    (∃ v, (machine MemoryTicketQueue).run fresh [(.push (.of 1 1 3 10), fun _ => true)] = some v ∧
      tickets v.queue = [] ∧ v.cached_unrealized_value = .ofNat 10 ∧ v.current_epoch = some 1 ∧ ¬ Faithful v) ∧
    ∃ v, (machine MemoryTicketQueue).run fresh
        [(.push (.of 1 1 3 10), fun _ => false), (.push (.of 1 1 4 10), fun _ => false)] = some v ∧
      tickets v.queue = [.of 1 1 3 10, .of 1 1 4 10] ∧
      (∃ w, (perform .pop).run (faulted v (· = 1)) = .error .Unavailable w ∧ tickets w = [.of 1 1 4 10]) ∧
      ¬ HandsOver v (.pop, (· = 1)) := by
  constructor
  · obtain ⟨v, hv, hempty, hvalue, hcurrent⟩ : ∃ v, (machine MemoryTicketQueue).run fresh
        [(.push (.of 1 1 3 10), fun _ => true)] = some v ∧ tickets v.queue = [] ∧
        v.cached_unrealized_value = .ofNat 10 ∧ v.current_epoch = some 1 :=
      (machine MemoryTicketQueue).exists_run (by decide +kernel)
    refine ⟨v, hv, hempty, hvalue, hcurrent, fun h => ?_⟩
    have hnone := h.current (by rw [hempty]; exact fun t ht => (nomatch ht))
    rw [hcurrent, hempty] at hnone
    cases hnone
  · obtain ⟨v, hv, hqueue⟩ : ∃ v, (machine MemoryTicketQueue).run fresh
        [(.push (.of 1 1 3 10), fun _ => false), (.push (.of 1 1 4 10), fun _ => false)] = some v ∧
        tickets v.queue = [.of 1 1 3 10, .of 1 1 4 10] :=
      (machine MemoryTicketQueue).exists_run (by decide +kernel)
    have hunread : Faults.FirstAt (· = 1) 1 := by decide
    have hpop := perform_pop_error (Faulty.pop_unread (v := faulted v (· = 1)) hqueue hunread)
    have hleft := Faulty.tickets_debited (v := faulted v (· = 1)) hqueue
    refine ⟨v, hv, hqueue, ⟨_, hpop, hleft⟩, ?_⟩
    unfold HandsOver
    rw [hpop]
    intro hsame
    cases hleft.symm.trans (hsame.trans hqueue)

end Memory

end Hopr.TicketManager.CacheFaults
