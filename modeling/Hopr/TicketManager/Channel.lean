import Hopr.TicketManager.ValueCache

/-! What the manager does to the queue of one channel.

The queue and the statistics of a channel sit behind one lock
(`QueueWithStats`). Under it `insert_occupied` adds an incoming ticket,
`neglect_next` is one turn of the loop of `neglect_tickets`, and
`complete_redeem` is what a redeem stream does once the fate of the ticket it
peeked is known. Over a queue that never fails each of them has one lemma that
says everything it can do (`insert_occupied_cases`, `neglect_next_cases`,
`complete_redeem_run`); nothing below unfolds them again. -/
namespace Hopr.TicketManager

structure ChannelTicketStats where
  winning_tickets : Nat
  redeemed_value : HoprBalance
  neglected_value : HoprBalance
  rejected_value : HoprBalance
deriving DecidableEq

namespace ChannelTicketStats

/-- `ChannelTicketStats::default()` -/
def empty : ChannelTicketStats := ⟨0, 0, 0, 0⟩

def win (s : ChannelTicketStats) : ChannelTicketStats := {s with winning_tickets := s.winning_tickets + 1}

def neglect (amount : HoprBalance) (s : ChannelTicketStats) : ChannelTicketStats :=
  {s with neglected_value := s.neglected_value + amount}

/-- Takes back what was counted as neglected. -/
def correct (amount : HoprBalance) (s : ChannelTicketStats) : ChannelTicketStats :=
  {s with neglected_value := s.neglected_value - amount}

/-- Accounts the result of a redemption. -/
def account : RedemptionResult → ChannelTicketStats → ChannelTicketStats
  | .Redeemed ticket, s => {s with redeemed_value := s.redeemed_value + ticket.amount}
  | .ValueTooLow ticket, s => {s with neglected_value := s.neglected_value + ticket.amount}
  | .RejectedOnChain ticket _, s => {s with rejected_value := s.rejected_value + ticket.amount}

end ChannelTicketStats

/-- The queue of a channel with its statistics, as guarded by one lock. -/
structure QueueWithStats (Q : Type) where
  queue : ValueCachedQueue Q
  stats : ChannelTicketStats

/-- What the chain client answers to `redeem_ticket`. -/
inductive ChainResult where
  | Ok (ticket : VerifiedTicket)
  | Rejected (ticket : VerifiedTicket) (reason : String)
  | ProcessingError (ticket : VerifiedTicket) (error : String)
deriving DecidableEq

/-- The ticket the client's answer is about. -/
def ChainResult.ticket : ChainResult → VerifiedTicket
  | .Ok t => t
  | .Rejected t _ => t
  | .ProcessingError t _ => t

/-- The outcome of the attempt to redeem a peeked ticket: tickets of low value are neglected,
and the chain is not asked about them. -/
def redeem_attempt {ε : Type} (min_redeem_value : HoprBalance) (ticket_to_redeem : RedeemableTicket)
    (chain : ChainResult) : Except (TicketManagerError ε) RedemptionResult :=
  if min_redeem_value ≤ ticket_to_redeem.verified_ticket.amount then
    match chain with
    | .Ok redeemed_ticket => .ok (.Redeemed redeemed_ticket)
    | .Rejected ticket reason => .ok (.RejectedOnChain ticket reason)
    | .ProcessingError _ err => .error (.RedeemError err)
  else .ok (.ValueTooLow ticket_to_redeem.ticket)

namespace QueueWithStats
open TicketQueue ChannelTicketStats

section Calls
variable {Q ε : Type}

/-- A call on the queue; its errors are store errors. -/
def onQueue {α : Type} (m : EStateM ε (ValueCachedQueue Q) α) :
    EStateM (TicketManagerError ε) (QueueWithStats Q) α := fun s =>
  match m.run s.queue with
  | .ok a v => .ok a {s with queue := v}
  | .error e v => .error (.StoreError e) {s with queue := v}

def onStats (f : ChannelTicketStats → ChannelTicketStats) :
    EStateM (TicketManagerError ε) (QueueWithStats Q) Unit :=
  modify fun s => {s with stats := f s.stats}

variable [TicketQueue Q ε]

/-- Pushes an incoming ticket and counts it as winning. -/
def accept (ticket : RedeemableTicket) (neglected_tickets : List VerifiedTicket) :
    EStateM (TicketManagerError ε) (QueueWithStats Q) (List VerifiedTicket) := do
  onQueue (push ticket)
  onStats win
  return neglected_tickets

/-- `insert_incoming_ticket` for a channel that has a queue. -/
def insert_occupied (ticket : RedeemableTicket) :
    EStateM (TicketManagerError ε) (QueueWithStats Q) (List VerifiedTicket) := do
  match ← onQueue peek with
  | some last_ticket =>
    if last_ticket.verified_ticket.channel_epoch < ticket.verified_ticket.channel_epoch then do
      -- the channel has restarted: the queued tickets are unredeemable
      let neg ← onQueue drain
      onStats (neglect (HoprBalance.sum (neg.map (·.amount))))
      accept ticket neg
    else if ticket.verified_ticket.channel_epoch < last_ticket.verified_ticket.channel_epoch then do
      onStats win
      onStats (neglect ticket.verified_ticket.amount)
      return [ticket.ticket]
    else accept ticket []
  | none => accept ticket []

/-- One turn of the loop of `neglect_tickets`: the tickets it neglects, or `none` at the end. -/
def neglect_next (max_index : UInt64) :
    EStateM (TicketManagerError ε) (QueueWithStats Q) (Option (List VerifiedTicket)) := do
  match ← onQueue peek with
  | some ticket =>
    if ticket.verified_ticket.index ≤ max_index then do
      let maybe_ticket ← onQueue pop
      onStats (neglect ((maybe_ticket.map (·.verified_ticket.amount)).getD 0))
      return some (maybe_ticket.toList.map (·.ticket))
    else return none
  | none => return none

def neglect_loop (max_index : UInt64) :
    Nat → EStateM (TicketManagerError ε) (QueueWithStats Q) (List VerifiedTicket)
  | 0 => pure []
  | n + 1 => do
    match ← neglect_next max_index with
    | some neglected => do
      let rest ← neglect_loop max_index n
      return neglected ++ rest
    | none => return []

/-- `neglect_tickets` on the queue it looked up: every stored ticket takes one turn at most. -/
def neglect_tickets [TicketBuilder] (up_to_index : Option UInt64) :
    EStateM (TicketManagerError ε) (QueueWithStats Q) (List VerifiedTicket) := do
  let s ← get
  neglect_loop (up_to_index.getD TicketBuilder.MAX_TICKET_INDEX) ((tickets s.queue).length + 1)

/-- Once the redemption of `ticket_to_redeem` has completed: the ticket is popped if it is still
the head, the result is accounted, and if it was not the head the neglected value is corrected. -/
def complete_redeem (ticket_to_redeem : RedeemableTicket) (result : RedemptionResult) :
    EStateM (TicketManagerError ε) (QueueWithStats Q) Unit := do
  let head ← onQueue peek
  let pop_res ← if head = some ticket_to_redeem then onQueue pop else pure none
  onStats (account result)
  if pop_res.isNone then
    onStats (correct result.ticket.amount)

end Calls

/-! ### Over a queue that never fails -/

section Parts
variable {Q ε : Type}

theorem onQueue_run {α : Type} {m : EStateM ε (ValueCachedQueue Q) α} {s : QueueWithStats Q} {a : α}
    {v : ValueCachedQueue Q} (h : m.run s.queue = .ok a v) :
    (onQueue m).run s = .ok a {s with queue := v} := by
  unfold onQueue
  simp only [EStateM.run] at h ⊢
  rw [h]

theorem onQueue_error {α : Type} {m : EStateM ε (ValueCachedQueue Q) α} {s : QueueWithStats Q} {e : ε}
    {v : ValueCachedQueue Q} (h : m.run s.queue = .error e v) :
    (onQueue m).run s = .error (.StoreError e) {s with queue := v} := by
  unfold onQueue
  simp only [EStateM.run] at h ⊢
  rw [h]

theorem onStats_run (f : ChannelTicketStats → ChannelTicketStats) (s : QueueWithStats Q) :
    (onStats (ε := ε) f).run s = .ok () {s with stats := f s.stats} := by
  unfold onStats
  rfl

end Parts

section Total
variable {Q ε : Type} [TicketQueue Q ε] [TotalTicketQueue Q]

theorem peek_run (s : QueueWithStats Q) :
    (onQueue peek).run s = .ok (tickets s.queue).head? s :=
  onQueue_run (TicketQueue.peek_run s.queue)

theorem accept_run (t : RedeemableTicket) (neg : List VerifiedTicket) (s : QueueWithStats Q) :
    (accept t neg).run s = .ok neg ⟨pushed t s.queue, s.stats.win⟩ := by
  simp only [accept, EStateM.run_bind, onQueue_run (TicketQueue.push_run t s.queue), onStats_run,
    EStateM.run_pure]

/-- Everything an insertion can do: drain a queue of an older epoch and push, neglect the ticket
if it is the older one, or push. -/
theorem insert_occupied_cases (t : RedeemableTicket) (s : QueueWithStats Q) :
    (∃ last, (tickets s.queue).head? = some last ∧
      last.verified_ticket.channel_epoch < t.verified_ticket.channel_epoch ∧
      (insert_occupied t).run s = .ok ((tickets s.queue).map (·.ticket))
        ⟨pushed t (drained s.queue),
          (s.stats.neglect (HoprBalance.sum ((tickets s.queue).map (·.verified_ticket.amount)))).win⟩) ∨
    (∃ last, (tickets s.queue).head? = some last ∧
      t.verified_ticket.channel_epoch < last.verified_ticket.channel_epoch ∧
      (insert_occupied t).run s =
        .ok [t.ticket] ⟨s.queue, s.stats.win.neglect t.verified_ticket.amount⟩) ∨
    ((∀ last, (tickets s.queue).head? = some last →
        last.verified_ticket.channel_epoch = t.verified_ticket.channel_epoch) ∧
      (insert_occupied t).run s = .ok [] ⟨pushed t s.queue, s.stats.win⟩) := by
  simp only [insert_occupied, EStateM.run_bind, peek_run]
  cases hq : (tickets s.queue).head? with
  | none =>
    right; right
    exact ⟨fun last h => (nomatch h), accept_run t [] s⟩
  | some last =>
    by_cases hnewer : last.verified_ticket.channel_epoch < t.verified_ticket.channel_epoch
    · left
      refine ⟨last, rfl, hnewer, ?_⟩
      simp only [if_pos hnewer, EStateM.run_bind, onQueue_run (TicketQueue.drain_run s.queue),
        onStats_run, accept_run, List.map_map]
      rfl
    · by_cases holder : t.verified_ticket.channel_epoch < last.verified_ticket.channel_epoch
      · right; left
        refine ⟨last, rfl, holder, ?_⟩
        simp only [if_neg hnewer, if_pos holder, EStateM.run_bind, onStats_run, EStateM.run_pure]
      · right; right
        refine ⟨fun u hu => ?_, ?_⟩
        · cases hu
          rw [UInt32.lt_iff_toNat_lt] at hnewer holder
          exact UInt32.toNat_inj.mp (by omega)
        · simp only [if_neg hnewer, if_neg holder, accept_run]

/-- The queue after its head was neglected. -/
def neglected_head (t : RedeemableTicket) (s : QueueWithStats Q) : QueueWithStats Q :=
  ⟨popped s.queue, s.stats.neglect t.verified_ticket.amount⟩

/-- A turn of the neglecting loop takes the head if its index is within the bound, or ends. -/
theorem neglect_next_cases (max_index : UInt64) (s : QueueWithStats Q) :
    (∃ t, (tickets s.queue).head? = some t ∧ t.verified_ticket.index ≤ max_index ∧
      (neglect_next max_index).run s = .ok (some [t.ticket]) (neglected_head t s)) ∨
    ((∀ t, (tickets s.queue).head? = some t → ¬ t.verified_ticket.index ≤ max_index) ∧
      (neglect_next max_index).run s = .ok none s) := by
  simp only [neglect_next, EStateM.run_bind, peek_run]
  cases hq : (tickets s.queue).head? with
  | none =>
    right
    exact ⟨fun t h => (nomatch h), rfl⟩
  | some t =>
    by_cases hle : t.verified_ticket.index ≤ max_index
    · left
      refine ⟨t, rfl, hle, ?_⟩
      simp only [if_pos hle, EStateM.run_bind, onQueue_run (TicketQueue.pop_run s.queue), hq,
        onStats_run, EStateM.run_pure, Option.map_some, Option.getD_some, Option.toList_some,
        List.map_cons, List.map_nil, neglected_head]
    · right
      refine ⟨fun u hu => ?_, ?_⟩
      · cases hu
        exact hle
      · simp only [if_neg hle, EStateM.run_pure]

/-- What neglecting the head preserves, neglecting any number of tickets preserves. -/
theorem neglect_tickets_preserves [TicketBuilder] {P : QueueWithStats Q → Prop}
    (hturn : ∀ s t, P s → (tickets s.queue).head? = some t → P (neglected_head t s))
    (up_to_index : Option UInt64) (s : QueueWithStats Q) (h : P s) :
    ∃ neg s', (neglect_tickets up_to_index).run s = .ok neg s' ∧ P s' := by
  have hloop : ∀ n (s : QueueWithStats Q), P s → ∃ neg s',
      (neglect_loop (up_to_index.getD TicketBuilder.MAX_TICKET_INDEX) n).run s = .ok neg s' ∧ P s' := by
    intro n
    induction n with
    | zero => exact fun s h => ⟨[], s, rfl, h⟩
    | succ n ih =>
      intro s h
      simp only [neglect_loop, EStateM.run_bind]
      rcases neglect_next_cases (up_to_index.getD TicketBuilder.MAX_TICKET_INDEX) s with
        ⟨t, ht, _, hrun⟩ | ⟨_, hrun⟩
      · obtain ⟨neg, s', hrest, h'⟩ := ih _ (hturn s t h ht)
        rw [hrun]
        simp only [EStateM.run_bind, hrest, EStateM.run_pure]
        exact ⟨_, s', rfl, h'⟩
      · rw [hrun]
        exact ⟨[], s, rfl, h⟩
  simpa only [neglect_tickets, EStateM.run_bind, EStateM.run_get] using hloop _ s h

/-- A completion pops the ticket and accounts it if it is the head, and otherwise accounts it and
corrects the neglected value. -/
theorem complete_redeem_run (t : RedeemableTicket) (r : RedemptionResult) (s : QueueWithStats Q) :
    (complete_redeem t r).run s = .ok () (if (tickets s.queue).head? = some t
      then ⟨popped s.queue, s.stats.account r⟩
      else ⟨s.queue, (s.stats.account r).correct r.ticket.amount⟩) := by
  simp only [complete_redeem, EStateM.run_bind, peek_run]
  by_cases hq : (tickets s.queue).head? = some t
  · simp only [if_pos hq, EStateM.run_bind, onQueue_run (TicketQueue.pop_run s.queue), onStats_run]
    rw [hq]
    rfl
  · simp only [if_neg hq, EStateM.run_bind, EStateM.run_pure, onStats_run]
    rfl

end Total

end QueueWithStats

end Hopr.TicketManager
