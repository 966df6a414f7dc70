import Hopr.TicketManager.Faulty
import Hopr.TicketManager.Memory

/-! A redeem stream with nobody else on the channel.

A poll of the stream peeks the head of the queue, asks the chain if the ticket is
of sufficient value, and completes the redemption (`turn_run`). Polled to its end,
the stream gives the tickets in front of the queue their results and stops where
the chain or the backend fails, and the other tickets are still queued; unless the
backend fails to tell the value cache the new head after a ticket was popped
(`processed_iff`). -/
namespace Hopr.TicketManager.RedeemStream
open Library TicketQueue QueueWithStats

/-- What the chain answers to the redemption of a ticket, after it was asked about others. -/
abbrev ChainClient := List RedeemableTicket → RedeemableTicket → ChainResult

/-- The client reports the ticket it was given. -/
def ChainClient.Reports (chain : ChainClient) : Prop :=
  ∀ asked t, (chain asked t).ticket = t.ticket

/-- The queue a stream redeems from, and the tickets the chain was asked about. -/
structure Redeeming (Q : Type) where
  channel : QueueWithStats Q
  asked : List RedeemableTicket

/-- The chain is not asked about tickets of low value. -/
def asking (min_redeem_value : HoprBalance) (asked : List RedeemableTicket) (t : RedeemableTicket) :
    List RedeemableTicket :=
  if min_redeem_value ≤ t.verified_ticket.amount then asked ++ [t] else asked

section Stream
variable {Q ε : Type}

/-- A call under the lock of the channel's queue. -/
def on_channel {α : Type} (m : EStateM (TicketManagerError ε) (QueueWithStats Q) α) :
    EStateM (TicketManagerError ε) (Redeeming Q) α := fun s =>
  match m.run s.channel with
  | .ok a c => .ok a {s with channel := c}
  | .error e c => .error e {s with channel := c}

def attempt (chain : ChainClient) (min_redeem_value : HoprBalance) (ticket_to_redeem : RedeemableTicket) :
    EStateM (TicketManagerError ε) (Redeeming Q) RedemptionResult := fun s =>
  let s' := {s with asked := asking min_redeem_value s.asked ticket_to_redeem}
  match redeem_attempt min_redeem_value ticket_to_redeem (chain s.asked ticket_to_redeem) with
  | .ok result => .ok result s'
  | .error e => .error e s'

variable [TicketQueue Q ε]

/-- One poll: the next result, or `none` at the end of the queue. -/
def redeem_next (chain : ChainClient) (min_redeem_value : HoprBalance) :
    EStateM (TicketManagerError ε) (Redeeming Q) (Option RedemptionResult) := do
  match ← on_channel (onQueue peek) with
  | some ticket_to_redeem => do
    let result ← attempt chain min_redeem_value ticket_to_redeem
    on_channel (complete_redeem ticket_to_redeem result)
    return some result
  | none => return none

/-- What came of polling a stream. -/
structure Polled (Q ε : Type) where
  items : List RedemptionResult
  /-- How the stream ended, if it has. -/
  ended : Option (Except (TicketManagerError ε) Unit)
  state : Redeeming Q

/-- The stream polled `n` times, or to its end. -/
def poll (chain : ChainClient) (min_redeem_value : HoprBalance) : Nat → Redeeming Q → Polled Q ε
  | 0, s => ⟨[], none, s⟩
  | n + 1, s =>
    match (redeem_next chain min_redeem_value).run s with
    | .ok (some result) s' =>
      let p := poll chain min_redeem_value n s'
      {p with items := result :: p.items}
    | .ok none s' => ⟨[], some (.ok ()), s'⟩
    | .error e s' => ⟨[], some (.error e), s'⟩

/-- A stream polled to its end: every queued ticket takes one poll at most. -/
def redeem_stream (chain : ChainClient) (min_amount : Option HoprBalance) (s : Redeeming Q) : Polled Q ε :=
  poll chain (min_amount.getD 0) ((tickets s.channel.queue).length + 1) s

end Stream

/-! ### What a poll does -/

section Turn
variable {Q ε α : Type}

theorem on_channel_ok {m : EStateM (TicketManagerError ε) (QueueWithStats Q) α} {s : Redeeming Q} {a : α}
    {c : QueueWithStats Q} (h : m.run s.channel = .ok a c) :
    (on_channel m).run s = .ok a {s with channel := c} := by
  simp only [on_channel, EStateM.run] at h ⊢
  rw [h]

theorem on_channel_error {m : EStateM (TicketManagerError ε) (QueueWithStats Q) α} {s : Redeeming Q}
    {e : TicketManagerError ε} {c : QueueWithStats Q} (h : m.run s.channel = .error e c) :
    (on_channel m).run s = .error e {s with channel := c} := by
  simp only [on_channel, EStateM.run] at h ⊢
  rw [h]

end Turn

section Attempt
variable {Q ε : Type} {chain : ChainClient} {min : HoprBalance} {t : RedeemableTicket} {s : Redeeming Q}

theorem attempt_ok {result : RedemptionResult}
    (h : redeem_attempt (ε := ε) min t (chain s.asked t) = .ok result) :
    (attempt (ε := ε) chain min t).run s = .ok result {s with asked := asking min s.asked t} := by
  simp only [attempt, EStateM.run, h]

theorem attempt_error {e : TicketManagerError ε} (h : redeem_attempt min t (chain s.asked t) = .error e) :
    (attempt chain min t).run s = .error e {s with asked := asking min s.asked t} := by
  simp only [attempt, EStateM.run, h]

end Attempt

section Turn
variable {Q ε : Type} [TicketQueue Q ε]

/-- The channel's queue after some calls of the backend. -/
structure Called (c c' : QueueWithStats (Faulty Q)) (l : List RedeemableTicket) (n : Nat) : Prop where
  tickets : tickets c'.queue = l
  stats : c'.stats = c.stats
  faults : c'.queue.queue.faults = c.queue.queue.faults.drop n

theorem peek_failed {c : QueueWithStats (Faulty Q)} (h : c.queue.queue.faults 0 = true) :
    ∃ c', (onQueue (Q := Faulty Q) peek).run c = .error (.StoreError .Unavailable) c' ∧
      Called c c' (tickets c.queue) 1 :=
  ⟨_, onQueue_error (ValueCachedQueue.inner_error (Faulty.attempt_fault h)), rfl, rfl, rfl⟩

theorem pop_failed {c : QueueWithStats (Faulty Q)} (h : c.queue.queue.faults 0 = true) :
    ∃ c', (onQueue (Q := Faulty Q) pop).run c = .error (.StoreError .Unavailable) c' ∧
      Called c c' (tickets c.queue) 1 :=
  ⟨_, onQueue_error (Faulty.pop_fault h), rfl, rfl, rfl⟩

theorem Called.trans {c c' c'' : QueueWithStats (Faulty Q)} {l l' : List RedeemableTicket} {m n : Nat}
    (h : Called c c' l m) (h' : Called c' c'' l' n) : Called c c'' l' (m + n) := by
  refine ⟨h'.tickets, h'.stats.trans h.stats, ?_⟩
  rw [h'.faults, h.faults]
  exact Faults.drop_drop _ m n

variable [TotalTicketQueue Q]

theorem peek_called {c : QueueWithStats (Faulty Q)} (h : c.queue.queue.faults 0 = false) :
    ∃ c', (onQueue peek).run c = .ok (tickets c.queue).head? c' ∧ Called c c' (tickets c.queue) 1 :=
  ⟨_, onQueue_run (ValueCachedQueue.inner_run (Faulty.attempt_ok h (TicketQueue.peek_run _))), rfl, rfl, rfl⟩

theorem pop_called {c : QueueWithStats (Faulty Q)} {t : RedeemableTicket} {rest : List RedeemableTicket}
    (hq : tickets c.queue = t :: rest) (h : c.queue.queue.faults.Clear 2) :
    ∃ c', (onQueue pop).run c = .ok (some t) c' ∧ Called c c' rest 2 :=
  ⟨_, onQueue_run (Faulty.pop_taken hq h), Faulty.tickets_debited hq, rfl, rfl⟩

/-- The ticket is gone although the pop fails. -/
theorem head_unread {c : QueueWithStats (Faulty Q)} {t : RedeemableTicket} {rest : List RedeemableTicket}
    (hq : tickets c.queue = t :: rest) (h : c.queue.queue.faults.FirstAt 1) :
    ∃ c', (onQueue (Q := Faulty Q) pop).run c = .error (.StoreError .Unavailable) c' ∧
      Called c c' rest 2 :=
  ⟨_, onQueue_error (Faulty.pop_unread hq h), Faulty.tickets_debited hq, rfl, rfl⟩

end Turn

section Complete
variable {Q ε : Type} [TicketQueue Q ε] [TotalTicketQueue Q] {c : QueueWithStats (Faulty Q)} {t : RedeemableTicket}
  {rest : List RedeemableTicket}

theorem complete_called (hq : tickets c.queue = t :: rest) (h : c.queue.queue.faults.Clear 3)
    (result : RedemptionResult) :
    ∃ c', (complete_redeem t result).run c = .ok () {c' with stats := c'.stats.account result} ∧
      Called c c' rest 3 := by
  obtain ⟨hfirst, hrest⟩ := Faults.clear_succ.mp h
  obtain ⟨c₁, hpeek, h₁⟩ := peek_called hfirst
  rw [hq] at hpeek h₁
  obtain ⟨c₂, hpop, h₂⟩ := pop_called h₁.tickets (by rw [h₁.faults]; exact hrest)
  refine ⟨c₂, ?_, h₁.trans h₂⟩
  simp only [complete_redeem, EStateM.run_bind, hpeek, List.head?_cons, if_true, hpop, onStats_run]
  rfl

/-- The ticket stays in the queue if it cannot be popped. -/
theorem complete_failed (hq : tickets c.queue = t :: rest) {i : Nat} (hi : i < 2)
    (h : c.queue.queue.faults.FirstAt i) (result : RedemptionResult) :
    ∃ c', (complete_redeem t result).run c = .error (.StoreError .Unavailable) c' ∧
      Called c c' (t :: rest) (i + 1) := by
  cases i with
  | zero =>
    obtain ⟨c', hpeek, h'⟩ := peek_failed h.1
    rw [hq] at h'
    exact ⟨c', by simp only [complete_redeem, EStateM.run_bind, hpeek], h'⟩
  | succ i =>
    obtain rfl : i = 0 := by omega
    obtain ⟨hfirst, hrest⟩ := Faults.firstAt_succ.mp h
    obtain ⟨c₁, hpeek, h₁⟩ := peek_called hfirst
    have hfault : c₁.queue.queue.faults 0 = true := by
      rw [h₁.faults]
      exact hrest.1
    obtain ⟨c₂, hpop, h₂⟩ := pop_failed hfault
    rw [hq] at hpeek h₁
    rw [h₁.tickets] at h₂
    refine ⟨c₂, ?_, h₁.trans h₂⟩
    simp only [complete_redeem, EStateM.run_bind, hpeek, List.head?_cons, if_true, hpop]

/-- The ticket leaves the queue if only its new head cannot be read. -/
theorem complete_unread (hq : tickets c.queue = t :: rest) (h : c.queue.queue.faults.FirstAt 2)
    (result : RedemptionResult) :
    ∃ c', (complete_redeem t result).run c = .error (.StoreError .Unavailable) c' ∧
      Called c c' rest 3 := by
  obtain ⟨hfirst, hrest⟩ := Faults.firstAt_succ.mp h
  obtain ⟨c₁, hpeek, h₁⟩ := peek_called hfirst
  rw [hq] at hpeek h₁
  obtain ⟨c₂, hpop, h₂⟩ := head_unread h₁.tickets (by rw [h₁.faults]; exact hrest)
  refine ⟨c₂, ?_, h₁.trans h₂⟩
  simp only [complete_redeem, EStateM.run_bind, hpeek, List.head?_cons, if_true, hpop]

end Complete

section Turn
variable {Q ε : Type} [TicketQueue Q ε]

/-- How a poll goes whose ticket is `t`, with `rest` behind it. -/
inductive Turn (chain : ChainClient) (min : HoprBalance) (s : Redeeming (Faulty Q)) (t : RedeemableTicket)
    (rest : List RedeemableTicket) : EStateM.Result (TicketManagerError (BackendError ε))
      (Redeeming (Faulty Q)) (Option RedemptionResult) → Prop
  /-- A call of the backend fails while the ticket is queued. -/
  | failed {i : Nat} {s' : Redeeming (Faulty Q)} (hi : i < 3)
      (hfault : s.channel.queue.queue.faults.FirstAt i)
      (hcalled : Called s.channel s'.channel (t :: rest) (i + 1))
      (hasked : s'.asked = s.asked ∨ s'.asked = asking min s.asked t) :
      Turn chain min s t rest (.error (.StoreError .Unavailable) s')
  /-- The chain fails. -/
  | processing {e : TicketManagerError (BackendError ε)} {s' : Redeeming (Faulty Q)}
      (hclear : s.channel.queue.queue.faults.Clear 1)
      (hattempt : redeem_attempt min t (chain s.asked t) = .error e)
      (hcalled : Called s.channel s'.channel (t :: rest) 1) (hasked : s'.asked = asking min s.asked t) :
      Turn chain min s t rest (.error e s')
  /-- The ticket is popped, and its new head cannot be read. -/
  | unread {result : RedemptionResult} {s' : Redeeming (Faulty Q)}
      (hfault : s.channel.queue.queue.faults.FirstAt 3)
      (hattempt : redeem_attempt (ε := BackendError ε) min t (chain s.asked t) = .ok result)
      (hcalled : Called s.channel s'.channel rest 4) :
      Turn chain min s t rest (.error (.StoreError .Unavailable) s')
  | next {result : RedemptionResult} {c : QueueWithStats (Faulty Q)}
      (hclear : s.channel.queue.queue.faults.Clear 4)
      (hattempt : redeem_attempt (ε := BackendError ε) min t (chain s.asked t) = .ok result)
      (hcalled : Called s.channel c rest 4) :
      Turn chain min s t rest
        (.ok (some result) ⟨{c with stats := c.stats.account result}, asking min s.asked t⟩)

variable [TotalTicketQueue Q]

theorem turn_run (chain : ChainClient) (min : HoprBalance) {s : Redeeming (Faulty Q)} {t : RedeemableTicket}
    {rest : List RedeemableTicket} (hq : tickets s.channel.queue = t :: rest) :
    Turn chain min s t rest ((redeem_next chain min).run s) := by
  cases hfault : s.channel.queue.queue.faults 0 with
  | true =>
    obtain ⟨c, hpeek, hc⟩ := peek_failed hfault
    rw [hq] at hc
    have hrun : (redeem_next chain min).run s = .error (.StoreError .Unavailable) {s with channel := c} := by
      simp only [redeem_next, EStateM.run_bind, on_channel_error hpeek]
    rw [hrun]
    exact .failed (by decide) ⟨hfault, Faults.clear_zero _⟩ hc (Or.inl rfl)
  | false =>
    obtain ⟨c, hpeek, hc⟩ := peek_called hfault
    rw [hq] at hpeek hc
    have hclear : s.channel.queue.queue.faults.Clear 1 :=
      Faults.clear_succ.mpr ⟨hfault, Faults.clear_zero _⟩
    have hnext : (redeem_next chain min).run s =
        (do
          let result ← attempt chain min t
          on_channel (complete_redeem t result)
          return some result : EStateM _ (Redeeming (Faulty Q)) _).run {s with channel := c} := by
      simp only [redeem_next, EStateM.run_bind, on_channel_ok hpeek, List.head?_cons]
    rw [hnext]
    cases hattempt : redeem_attempt (ε := BackendError ε) min t (chain s.asked t) with
    | error e =>
      simp only [EStateM.run_bind, attempt_error (s := {s with channel := c}) hattempt]
      exact .processing hclear hattempt hc rfl
    | ok result =>
      simp only [EStateM.run_bind, attempt_ok (s := {s with channel := c}) hattempt]
      obtain hrest | ⟨i, hi, hfirst⟩ := Faults.clear_or_firstAt c.queue.queue.faults 3
      · obtain ⟨d, hcomplete, hd⟩ := complete_called hc.tickets hrest result
        simp only [on_channel_ok (s := ⟨c, _⟩) hcomplete, EStateM.run_pure]
        rw [hc.faults] at hrest
        exact .next (hclear.append hrest) hattempt (hc.trans hd)
      · have hfault' : s.channel.queue.queue.faults.FirstAt (1 + i) := by
          rw [hc.faults] at hfirst
          exact Faults.FirstAt.append hclear hfirst
        by_cases htwo : i < 2
        · obtain ⟨d, hcomplete, hd⟩ := complete_failed hc.tickets htwo hfirst result
          simp only [on_channel_error (s := ⟨c, _⟩) hcomplete]
          exact .failed (by omega) hfault' (hc.trans hd) (Or.inr rfl)
        · obtain rfl : i = 2 := by omega
          obtain ⟨d, hcomplete, hd⟩ := complete_unread hc.tickets hfirst result
          simp only [on_channel_error (s := ⟨c, _⟩) hcomplete]
          exact .unread hfault' hattempt (hc.trans hd)

end Turn

/-! ### What a stream owes -/

/-- The items are the results of the tickets, one by one: of a ticket of low value that it is, and of
any other what the chain answered. -/
inductive Yields (chain : ChainClient) (min : HoprBalance) :
    List RedeemableTicket → List RedeemableTicket → List RedemptionResult → Prop
  | nil {asked : List RedeemableTicket} : Yields chain min asked [] []
  | too_low {asked : List RedeemableTicket} {t : RedeemableTicket} {l : List RedeemableTicket}
      {items : List RedemptionResult} (hlow : t.verified_ticket.amount < min)
      (hrest : Yields chain min asked l items) :
      Yields chain min asked (t :: l) (.ValueTooLow t.ticket :: items)
  | redeemed {asked : List RedeemableTicket} {t : RedeemableTicket} {l : List RedeemableTicket}
      {items : List RedemptionResult} (hmin : min ≤ t.verified_ticket.amount)
      (hchain : chain asked t = .Ok t.ticket) (hrest : Yields chain min (asked ++ [t]) l items) :
      Yields chain min asked (t :: l) (.Redeemed t.ticket :: items)
  | rejected {asked : List RedeemableTicket} {t : RedeemableTicket} {l : List RedeemableTicket}
      {items : List RedemptionResult} {reason : String} (hmin : min ≤ t.verified_ticket.amount)
      (hchain : chain asked t = .Rejected t.ticket reason)
      (hrest : Yields chain min (asked ++ [t]) l items) :
      Yields chain min asked (t :: l) (.RejectedOnChain t.ticket reason :: items)

/-- How a stream ends before the tickets in `rest`, the chain being asked about those in `asked` and at
the end about those in the last list; `f` are the faults before the stream and `f'` those after it. -/
inductive Ends {ε : Type} (chain : ChainClient) (min : HoprBalance) (asked : List RedeemableTicket)
    (f f' : Faults) : List RedeemableTicket → Option (Except (TicketManagerError (BackendError ε)) Unit) →
      List RedeemableTicket → Prop
  /-- No call failed and no ticket is left. -/
  | emptied {n : Nat} (hclear : f.Clear n) (hfaults : f' = f.drop n) :
      Ends chain min asked f f' [] (some (.ok ())) asked
  /-- The chain could not process the first of them. -/
  | processing_error {n : Nat} {t : RedeemableTicket} {rest : List RedeemableTicket}
      {ticket : VerifiedTicket} {error : String} (hclear : f.Clear n) (hfaults : f' = f.drop n)
      (hmin : min ≤ t.verified_ticket.amount) (hchain : chain asked t = .ProcessingError ticket error) :
      Ends chain min asked f f' (t :: rest) (some (.error (.RedeemError error))) (asked ++ [t])
  /-- A call of the backend failed, the first to do so. -/
  | store_error {n : Nat} {rest asked' : List RedeemableTicket} (hfault : f.FirstAt n)
      (hfaults : f' = f.drop (n + 1))
      (hasked : asked' = asked ∨
        ∃ t ∈ rest.head?, min ≤ t.verified_ticket.amount ∧ asked' = asked ++ [t]) :
      Ends chain min asked f f' rest (some (.error (.StoreError .Unavailable))) asked'

def is_redeemed : RedemptionResult → Bool
  | .Redeemed _ => true
  | _ => false

def is_rejected : RedemptionResult → Bool
  | .RejectedOnChain _ _ => true
  | _ => false

def is_too_low : RedemptionResult → Bool
  | .ValueTooLow _ => true
  | _ => false

/-- The sum of the amounts of the items with an outcome. -/
def worth (outcome : RedemptionResult → Bool) (items : List RedemptionResult) : HoprBalance :=
  HoprBalance.sum ((items.filter outcome).map (·.ticket.amount))

/-- The statistics grew by what the items are worth. -/
structure Grown (stats stats' : ChannelTicketStats) (items : List RedemptionResult) : Prop where
  winning_tickets : stats'.winning_tickets = stats.winning_tickets
  redeemed_value : stats'.redeemed_value = stats.redeemed_value + worth is_redeemed items
  rejected_value : stats'.rejected_value = stats.rejected_value + worth is_rejected items
  neglected_value : stats'.neglected_value = stats.neglected_value + worth is_too_low items

section Processed
variable {Q ε : Type} [TicketQueue Q ε]

/-- A stream was polled to its end: the tickets in `front` got their results, those in `rest` are left. -/
structure Processed (chain : ChainClient) (min : HoprBalance) (s : Redeeming (Faulty Q))
    (p : Polled (Faulty Q) (BackendError ε)) (front rest : List RedeemableTicket) : Prop where
  queued : tickets s.channel.queue = front ++ rest
  in_order : (front ++ rest).Pairwise fun t u => t.key ≤ u.key
  yielded : Yields chain min s.asked front p.items
  left : tickets p.state.channel.queue = rest
  ended : Ends chain min (s.asked ++ front.filter fun t => min ≤ t.verified_ticket.amount)
    s.channel.queue.queue.faults p.state.channel.queue.queue.faults rest p.ended p.state.asked
  stats : Grown s.channel.stats p.state.channel.stats p.items

/-- The peek at the new head after a pop is not the first call of the backend to fail. Of a ticket that
gets a result it is the last of four calls. -/
def HeadsRead (chain : ChainClient) (min : HoprBalance) (asked l : List RedeemableTicket) (f : Faults) :
    Prop :=
  ∀ front t rest items, l = front ++ t :: rest → Yields chain min asked (front ++ [t]) items →
    ¬ f.FirstAt (4 * front.length + 3)

end Processed

/-! ### Results -/

section Results
variable {ε : Type} {chain : ChainClient} {min : HoprBalance} {asked : List RedeemableTicket} {t : RedeemableTicket}
  {l : List RedeemableTicket} {items : List RedemptionResult}

theorem Yields.cons (hchain : chain.Reports) {result : RedemptionResult}
    (h : redeem_attempt (ε := ε) min t (chain asked t) = .ok result)
    (hrest : Yields chain min (asking min asked t) l items) :
    Yields chain min asked (t :: l) (result :: items) := by
  have hticket := hchain asked t
  unfold redeem_attempt at h
  unfold asking at hrest
  split at h
  · next hmin =>
    rw [if_pos hmin] at hrest
    cases hc : chain asked t with
    | Ok ticket =>
      rw [hc] at h hticket
      cases h
      obtain rfl : ticket = t.ticket := hticket
      exact .redeemed hmin hc hrest
    | Rejected ticket reason =>
      rw [hc] at h hticket
      cases h
      obtain rfl : ticket = t.ticket := hticket
      exact .rejected hmin hc hrest
    | ProcessingError ticket error =>
      rw [hc] at h
      cases h
  · next hlow =>
    rw [if_neg hlow] at hrest
    cases h
    exact .too_low (Nat.lt_of_not_le hlow) hrest

theorem Yields.of_cons (h : Yields chain min asked (t :: l) items) : ∃ result items',
    items = result :: items' ∧ redeem_attempt (ε := ε) min t (chain asked t) = .ok result ∧
      Yields chain min (asking min asked t) l items' := by
  unfold redeem_attempt asking
  cases h with
  | too_low hlow hrest =>
    have hlow : ¬ min ≤ t.verified_ticket.amount := Nat.not_le_of_lt hlow
    simp only [if_neg hlow]
    exact ⟨_, _, rfl, rfl, hrest⟩
  | redeemed hmin hc hrest =>
    simp only [if_pos hmin, hc]
    exact ⟨_, _, rfl, rfl, hrest⟩
  | rejected hmin hc hrest =>
    simp only [if_pos hmin, hc]
    exact ⟨_, _, rfl, rfl, hrest⟩

theorem Yields.length_eq (h : Yields chain min asked l items) : items.length = l.length := by
  induction h with
  | nil => rfl
  | too_low _ _ ih => exact congrArg (· + 1) ih
  | redeemed _ _ _ ih => exact congrArg (· + 1) ih
  | rejected _ _ _ ih => exact congrArg (· + 1) ih

theorem grown_nil (stats : ChannelTicketStats) : Grown stats stats [] :=
  ⟨rfl, (HoprBalance.add_zero _).symm, (HoprBalance.add_zero _).symm, (HoprBalance.add_zero _).symm⟩

theorem worth_cons (outcome : RedemptionResult → Bool) (result : RedemptionResult) :
    worth outcome (result :: items) =
      if outcome result then result.ticket.amount + worth outcome items else worth outcome items := by
  unfold worth
  rw [List.filter_cons]
  split
  · exact HoprBalance.sum_cons ..
  · rfl

theorem Grown.cons {stats stats' : ChannelTicketStats} {result : RedemptionResult}
    (h : Grown (stats.account result) stats' items) : Grown stats stats' (result :: items) := by
  obtain ⟨hwinning, hredeemed, hrejected, hneglected⟩ := h
  cases result with
  | Redeemed ticket =>
    refine ⟨hwinning, ?_, ?_, ?_⟩ <;> simp only [worth_cons, is_redeemed, is_rejected, is_too_low]
    · exact hredeemed.trans (HoprBalance.add_assoc ..)
    · exact hrejected
    · exact hneglected
  | ValueTooLow ticket =>
    refine ⟨hwinning, ?_, ?_, ?_⟩ <;> simp only [worth_cons, is_redeemed, is_rejected, is_too_low]
    · exact hredeemed
    · exact hrejected
    · exact hneglected.trans (HoprBalance.add_assoc ..)
  | RejectedOnChain ticket reason =>
    refine ⟨hwinning, ?_, ?_, ?_⟩ <;> simp only [worth_cons, is_redeemed, is_rejected, is_too_low]
    · exact hredeemed
    · exact hrejected.trans (HoprBalance.add_assoc ..)
    · exact hneglected

/-- Only the chain makes an attempt fail. -/
theorem redeem_attempt_error {chain : ChainResult} {e : TicketManagerError ε}
    (h : redeem_attempt min t chain = .error e) : min ≤ t.verified_ticket.amount ∧
      ∃ ticket error, chain = .ProcessingError ticket error ∧ e = .RedeemError error := by
  unfold redeem_attempt at h
  split at h
  · next hmin =>
    cases chain with
    | ProcessingError ticket error =>
      cases h
      exact ⟨hmin, ticket, error, rfl, rfl⟩
    | _ => cases h
  · cases h

end Results

/-! ### Every stream -/

section Streams
variable {Q ε : Type} [TicketQueue Q ε] [TotalTicketQueue Q] {chain : ChainClient} {min : HoprBalance}
  {asked : List RedeemableTicket} {t : RedeemableTicket} {l : List RedeemableTicket} {items : List RedemptionResult}
  {s : Redeeming (Faulty Q)}

/-- A poll at the end of the queue. -/
theorem end_run (chain : ChainClient) (min : HoprBalance) (hq : tickets s.channel.queue = []) :
    ∃ c, Called s.channel c [] 1 ∧ (redeem_next chain min).run s =
      if s.channel.queue.queue.faults 0 then .error (.StoreError .Unavailable) {s with channel := c}
      else .ok none {s with channel := c} := by
  cases hfault : s.channel.queue.queue.faults 0 with
  | true =>
    obtain ⟨c, hpeek, hc⟩ := peek_failed hfault
    rw [hq] at hc
    exact ⟨c, hc, by simp only [redeem_next, EStateM.run_bind, on_channel_error hpeek, if_true]⟩
  | false =>
    obtain ⟨c, hpeek, hc⟩ := peek_called hfault
    rw [hq] at hpeek hc
    refine ⟨c, hc, ?_⟩
    simp only [redeem_next, EStateM.run_bind, on_channel_ok hpeek, List.head?_nil, EStateM.run_pure,
      Bool.false_eq_true, if_false]

/-- A stream that stops at once. -/
theorem Processed.stopped {n : Nat} {p : Polled (Faulty Q) (BackendError ε)}
    (hq : tickets s.channel.queue = l) (hitems : p.items = [])
    (hcalled : Called s.channel p.state.channel l n)
    (hended : Ends chain min s.asked s.channel.queue.queue.faults p.state.channel.queue.queue.faults l
      p.ended p.state.asked) : Processed chain min s p [] l := by
  refine ⟨hq, ?_, ?_, hcalled.tickets, ?_, ?_⟩
  · rw [List.nil_append, ← hq]
    exact TotalTicketQueue.sorted s.channel.queue.queue.queue
  · rw [hitems]
    exact .nil
  · rw [List.filter_nil, List.append_nil]
    exact hended
  · rw [hitems, hcalled.stats]
    exact grown_nil _

/-- What happens after the first tickets happens in the whole stream. -/
theorem Ends.after {f f' g : Faults} {m : Nat} {rest asked' : List RedeemableTicket}
    {ended : Option (Except (TicketManagerError (BackendError ε)) Unit)} (hclear : f.Clear m)
    (hg : g = f.drop m) (h : Ends chain min asked g f' rest ended asked') :
    Ends chain min asked f f' rest ended asked' := by
  subst hg
  cases h with
  | emptied hn hfaults => exact .emptied (hclear.append hn) (hfaults.trans (Faults.drop_drop ..))
  | processing_error hn hfaults hmin hchain =>
    exact .processing_error (hclear.append hn) (hfaults.trans (Faults.drop_drop ..)) hmin hchain
  | store_error hn hfaults hasked =>
    exact .store_error (Faults.FirstAt.append hclear hn) (hfaults.trans (Faults.drop_drop ..)) hasked

theorem asking_cases (min : HoprBalance) (asked : List RedeemableTicket) (t : RedeemableTicket) :
    asking min asked t = asked ∨ min ≤ t.verified_ticket.amount ∧ asking min asked t = asked ++ [t] := by
  unfold asking
  split
  · next hmin => exact Or.inr ⟨hmin, rfl⟩
  · exact Or.inl rfl

/-- The head got its result, and the rest is processed. -/
theorem Processed.next (hchain : chain.Reports) {rest front' rest' : List RedeemableTicket}
    {c : QueueWithStats (Faulty Q)} {result : RedemptionResult}
    {p : Polled (Faulty Q) (BackendError ε)} (hq : tickets s.channel.queue = t :: rest)
    (hclear : s.channel.queue.queue.faults.Clear 4)
    (hattempt : redeem_attempt (ε := BackendError ε) min t (chain s.asked t) = .ok result)
    (hcalled : Called s.channel c rest 4)
    (h : Processed chain min ⟨{c with stats := c.stats.account result}, asking min s.asked t⟩ p front' rest') :
    Processed chain min s {p with items := result :: p.items} (t :: front') rest' := by
  have hqueued : rest = front' ++ rest' := hcalled.tickets.symm.trans h.queued
  refine ⟨?_, ?_, h.yielded.cons hchain hattempt, h.left, ?_, ?_⟩
  · rw [hq, hqueued]
    rfl
  · have hsorted := TotalTicketQueue.sorted s.channel.queue.queue.queue
    rw [show tickets s.channel.queue.queue.queue = t :: rest from hq, hqueued] at hsorted
    exact hsorted
  · have hasked : asking min s.asked t ++ front'.filter (fun t => min ≤ t.verified_ticket.amount) =
        s.asked ++ (t :: front').filter fun t => min ≤ t.verified_ticket.amount := by
      unfold asking
      by_cases hmin : min ≤ t.verified_ticket.amount <;> simp [hmin]
    have hended := h.ended
    rw [hasked] at hended
    exact hended.after hclear hcalled.faults
  · have hstats := h.stats
    rw [hcalled.stats] at hstats
    exact hstats.cons

/-- The tickets are processed if every new head is read. -/
theorem processed_of_headsRead (hchain : chain.Reports) {n : Nat} (hq : tickets s.channel.queue = l)
    (hn : l.length < n) (h : HeadsRead chain min s.asked l s.channel.queue.queue.faults) :
    ∃ front rest, Processed chain min s (poll chain min n s) front rest := by
  induction l generalizing s n with
  | nil =>
    obtain ⟨n, rfl⟩ := Nat.exists_eq_succ_of_ne_zero (Nat.ne_of_gt hn)
    obtain ⟨c, hcalled, hrun⟩ := end_run chain min hq
    refine ⟨[], [], ?_⟩
    cases hfault : s.channel.queue.queue.faults 0 with
    | true =>
      simp only [hfault, if_true] at hrun
      simp only [poll, hrun]
      apply Processed.stopped hq rfl hcalled
      exact .store_error ⟨hfault, Faults.clear_zero _⟩ hcalled.faults (Or.inl rfl)
    | false =>
      simp only [hfault, Bool.false_eq_true, if_false] at hrun
      simp only [poll, hrun]
      apply Processed.stopped hq rfl hcalled
      exact .emptied (Faults.clear_succ.mpr ⟨hfault, Faults.clear_zero _⟩) hcalled.faults
  | cons t rest ih =>
    obtain ⟨n, rfl⟩ := Nat.exists_eq_succ_of_ne_zero (Nat.ne_of_gt (Nat.zero_lt_of_lt hn))
    have hturn := turn_run chain min hq
    generalize hrun : (redeem_next chain min).run s = r at hturn
    cases hturn with
    | failed hi hfault hcalled hasked =>
      refine ⟨[], t :: rest, ?_⟩
      simp only [poll, hrun]
      apply Processed.stopped hq rfl hcalled
      apply Ends.store_error hfault hcalled.faults
      obtain hasked | hasked := hasked
      · exact Or.inl hasked
      · rw [hasked]
        apply (asking_cases min s.asked t).imp_right
        intro ⟨hmin, heq⟩
        exact ⟨t, rfl, hmin, heq⟩
    | processing hclear hattempt hcalled hasked =>
      refine ⟨[], t :: rest, ?_⟩
      simp only [poll, hrun]
      apply Processed.stopped hq rfl hcalled
      obtain ⟨hmin, ticket, error, hanswer, rfl⟩ := redeem_attempt_error hattempt
      rw [hasked, asking, if_pos hmin]
      exact .processing_error hclear hcalled.faults hmin hanswer
    | unread hfault hattempt hcalled =>
      exact absurd hfault (h [] t rest _ rfl (Yields.nil.cons hchain hattempt))
    | @next result c hclear hattempt hcalled =>
      have hrest : HeadsRead chain min (asking min s.asked t) rest (s.channel.queue.queue.faults.drop 4) := by
        intro front u rest' items heq hyields hfault
        apply h (t :: front) u rest' _ (by rw [heq]; rfl) (hyields.cons hchain hattempt)
        have hwhole := Faults.FirstAt.append hclear hfault
        rw [List.length_cons, show 4 * (front.length + 1) + 3 = 4 + (4 * front.length + 3) by omega]
        exact hwhole
      rw [← hcalled.faults] at hrest
      obtain ⟨front', rest', hp⟩ := ih (s := ⟨{c with stats := c.stats.account result}, asking min s.asked t⟩)
        hcalled.tickets
        (Nat.lt_of_succ_lt_succ hn) hrest
      simp only [poll, hrun]
      exact ⟨t :: front', rest', hp.next hchain hq hclear hattempt hcalled⟩

/-- If a new head is not read, its predecessor neither got a result nor is queued. -/
theorem poll_unread {n : Nat} {front rest : List RedeemableTicket}
    (hq : tickets s.channel.queue = front ++ t :: rest)
    (hyields : Yields chain min s.asked (front ++ [t]) items)
    (hfault : s.channel.queue.queue.faults.FirstAt (4 * front.length + 3)) (hn : front.length < n) :
    (poll chain min n s).items.length = front.length ∧
      tickets (poll chain min n s).state.channel.queue = rest := by
  induction front generalizing s n items with
  | nil =>
    obtain ⟨n, rfl⟩ := Nat.exists_eq_succ_of_ne_zero (Nat.ne_of_gt hn)
    have hturn := turn_run chain min hq
    generalize hrun : (redeem_next chain min).run s = r at hturn
    cases hturn with
    | failed hi hfirst hcalled hasked =>
      have := hfirst.eq hfault
      simp at this
      omega
    | processing hclear hattempt hcalled hasked =>
      obtain ⟨_, _, _, hok, _⟩ := hyields.of_cons (ε := BackendError ε)
      rw [hattempt] at hok
      cases hok
    | unread hfirst hattempt hcalled =>
      simp only [poll, hrun]
      exact ⟨rfl, hcalled.tickets⟩
    | next hclear hattempt hcalled => exact (hfault.not_clear hclear (by simp)).elim
  | cons u front ih =>
    obtain ⟨n, rfl⟩ := Nat.exists_eq_succ_of_ne_zero (Nat.ne_of_gt (Nat.zero_lt_of_lt hn))
    have hturn := turn_run chain min hq
    generalize hrun : (redeem_next chain min).run s = r at hturn
    obtain ⟨_, items', rfl, hok, hrest⟩ := hyields.of_cons (ε := BackendError ε)
    have hfault' : s.channel.queue.queue.faults.FirstAt (4 + (4 * front.length + 3)) := by
      rw [List.length_cons, show 4 * (front.length + 1) + 3 = 4 + (4 * front.length + 3) by omega] at hfault
      exact hfault
    cases hturn with
    | failed hi hfirst hcalled hasked =>
      have := hfirst.eq hfault'
      omega
    | processing hclear hattempt hcalled hasked =>
      rw [hattempt] at hok
      cases hok
    | unread hfirst hattempt hcalled =>
      have := hfirst.eq hfault'
      omega
    | @next result c hclear hattempt hcalled =>
      have hdrop := hfault'.split.2
      rw [← hcalled.faults] at hdrop
      obtain ⟨hitems, hleft⟩ := ih (s := ⟨{c with stats := c.stats.account result}, asking min s.asked u⟩)
        hcalled.tickets hrest hdrop (Nat.lt_of_succ_lt_succ hn)
      simp only [poll, hrun, List.length_cons]
      exact ⟨congrArg (· + 1) hitems, hleft⟩

/-- **A stream processes its queue in order exactly if the peek at the new head after a pop is not the
first call of the backend to fail**, whatever the chain answers: the first tickets get their results and
are accounted, and where the stream ends the others are queued. -/
theorem processed_iff (hchain : chain.Reports) (min_amount : Option HoprBalance) :
    (∃ front rest, Processed chain (min_amount.getD 0) s (redeem_stream chain min_amount s) front rest) ↔
      HeadsRead chain (min_amount.getD 0) s.asked (tickets s.channel.queue) s.channel.queue.queue.faults := by
  apply Iff.intro
  · intro ⟨front, rest, hp⟩ front' t rest' items hq hyields hfault
    have hle : front'.length < (tickets s.channel.queue).length + 1 := by
      rw [hq, List.length_append, List.length_cons]
      omega
    obtain ⟨hitems, hleft⟩ := poll_unread hq hyields hfault hle
    -- both leave what is behind equally many tickets, but not as many
    have hfront : front.length = front'.length := hp.yielded.length_eq.symm.trans hitems
    have hrest : rest = rest' := hp.left.symm.trans hleft
    have hlength := congrArg List.length (hp.queued.symm.trans hq)
    simp [hfront, hrest] at hlength
  · intro h
    exact processed_of_headsRead hchain rfl (Nat.lt_succ_self _) h

end Streams

section Memory

/-- A heap into which tickets were inserted, with the faults of the calls to come. -/
def filled (l : List RedeemableTicket) (faults : Faults) : Redeeming (Faulty MemoryTicketQueue) :=
  let c := l.foldl (fun c t => after (insert_occupied t) c)
    (⟨⟨⟨.empty, fun _ => false⟩, fun _ => none, none⟩, .empty⟩ : QueueWithStats (Faulty MemoryTicketQueue))
  ⟨{c with queue := c.queue.with_queue {c.queue.queue with faults}}, []⟩

/-- The chain rejects one index. -/
def rejecting (index : UInt64) : ChainClient := fun _ t =>
  if t.ticket.index = index then .Rejected t.ticket "rejected" else .Ok t.ticket

/-- One ticket is redeemed, one is of low value, and one is rejected. -/
theorem processed_each_outcome :
    let s := filled [.of 1 1 5 20, .of 1 1 3 10, .of 1 1 4 5] fun _ => false
    let p := redeem_stream (rejecting 5) (some (.ofNat 10)) s
    p.items = [.Redeemed (RedeemableTicket.of 1 1 3 10).ticket,
        .ValueTooLow (RedeemableTicket.of 1 1 4 5).ticket,
        .RejectedOnChain (RedeemableTicket.of 1 1 5 20).ticket "rejected"] ∧
      ∃ front rest, Processed (rejecting 5) (.ofNat 10) s p front rest := by
  intro s p
  have hreports : (rejecting 5).Reports := by
    intro asked t
    unfold rejecting
    split <;> rfl
  refine ⟨by decide +kernel, (processed_iff hreports (some (.ofNat 10))).mpr ?_⟩
  intro front t rest items _ _ hfault
  exact Bool.false_ne_true hfault.1

/-- **The chain redeems the ticket, the backend fails to tell the new head, and the stream ends in the
error**: the ticket has left the queue, and neither gets a result nor is accounted. -/
theorem redeemed_unreported :
    let t := RedeemableTicket.of 1 1 3 10
    let s := filled [t] (· = 3)
    let p := redeem_stream (rejecting 5) none s
    p.state.asked = [t] ∧ rejecting 5 [] t = .Ok t.ticket ∧ p.ended = some (.error (.StoreError .Unavailable)) ∧
      p.items = [] ∧ tickets p.state.channel.queue = [] ∧ p.state.channel.stats.redeemed_value = 0 ∧
      ¬ ∃ front rest, Processed (rejecting 5) 0 s p front rest := by
  intro t s p
  have hitems : p.items = [] := by decide +kernel
  have hleft : tickets p.state.channel.queue = [] := by decide +kernel
  have hqueued : tickets s.channel.queue = [t] := by decide +kernel
  refine ⟨by decide +kernel, by decide +kernel, by decide +kernel, hitems, hleft, by decide +kernel, ?_⟩
  intro ⟨front, rest, h⟩
  have hfront : front = [] := by
    apply List.eq_nil_of_length_eq_zero
    rw [← h.yielded.length_eq, hitems]
    rfl
  have hrest : rest = [] := h.left.symm.trans hleft
  have := h.queued
  rw [hqueued, hfront, hrest] at this
  cases this

end Memory

end Hopr.TicketManager.RedeemStream
