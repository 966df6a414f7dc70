import Hopr.Library.Machine
import Hopr.TicketManager.Channel
import Hopr.TicketManager.Memory

/-! Redeeming, neglecting and inserting on one channel.

The machine runs the operations of one channel in any order. A redeem stream
takes two steps for a ticket: it peeks the head and asks the chain, and later,
when the chain has answered, completes; between the two any number of tickets
may be inserted or neglected. Streams are created under the channel's redeem
lock and may be dropped at any moment. The state keeps a record of what was
inserted and of the tickets a stream yielded a result for. -/
namespace Hopr.TicketManager.Redemption
open TicketQueue QueueWithStats Library

/-- A live redeem stream; `in_flight` is the ticket it peeked and has not completed. -/
structure RedeemState where
  min_redeem_value : HoprBalance
  in_flight : Option RedeemableTicket

structure State (Q : Type) where
  channel : QueueWithStats Q
  redeem_lock : Bool
  stream : Option RedeemState
  /-- The tickets inserted so far. -/
  inserted : List RedeemableTicket
  /-- The tickets that were handed a terminal result so far, with the result. -/
  results : List (RedeemableTicket × RedemptionResult)

inductive Action where
  | insert_incoming_ticket (ticket : RedeemableTicket)
  | neglect_tickets (up_to_index : Option UInt64)
  | redeem_stream (min_amount : Option HoprBalance)
  /-- The stream is polled: it peeks and starts the chain call. -/
  | peek
  /-- The chain call is over. -/
  | complete (chain : ChainResult)
  /-- The stream is dropped. -/
  | drop

namespace State
variable {Q : Type}

/-- The stream is gone and its lock released. -/
def closed (s : State Q) : State Q := {s with redeem_lock := false, stream := none}

def in_flight (s : State Q) : Option RedeemableTicket := s.stream.bind RedeemState.in_flight

/-- The tickets that were handed a terminal result. -/
def settled (s : State Q) : List RedeemableTicket := s.results.map Prod.fst

end State

section Machine
variable {Q ε : Type} [TicketQueue Q ε]

/-- A channel without tickets. -/
def start [CreatableQueue Q] : State Q :=
  { channel := ⟨⟨CreatableQueue.empty, fun _ => none, none⟩, .empty⟩
    redeem_lock := false
    stream := none
    inserted := []
    results := [] }

def insert_step (t : RedeemableTicket) (s : State Q) : State Q :=
  match (insert_occupied t).run s.channel with
  | .ok _ c => {s with channel := c, inserted := s.inserted ++ [t]}
  | .error _ c => {s with channel := c}

def neglect_step [TicketBuilder] (up_to_index : Option UInt64) (s : State Q) : State Q :=
  match (neglect_tickets up_to_index).run s.channel with
  | .ok _ c => {s with channel := c}
  | .error _ c => {s with channel := c}

/-- With the lock taken the call fails with `AlreadyRedeeming`. -/
def redeem_stream_step (min_amount : Option HoprBalance) (s : State Q) : State Q :=
  if s.redeem_lock then s
  else {s with redeem_lock := true, stream := some ⟨min_amount.getD 0, none⟩}

/-- The stream ends when there is no ticket to redeem. -/
def peek_step (r : RedeemState) (s : State Q) : State Q :=
  match (onQueue peek).run s.channel with
  | .ok (some t) c => {s with channel := c, stream := some {r with in_flight := some t}}
  | .ok none c => State.closed {s with channel := c}
  | .error _ c => State.closed {s with channel := c}

/-- The stream goes on after a terminal result and ends with an error otherwise. -/
def complete_step (r : RedeemState) (t : RedeemableTicket) (chain : ChainResult) (s : State Q) : State Q :=
  match redeem_attempt (ε := ε) r.min_redeem_value t chain with
  | .error _ => s.closed
  | .ok result =>
    match (complete_redeem t result).run s.channel with
    | .ok _ c => {s with
        channel := c
        stream := some {r with in_flight := none}
        results := s.results ++ [(t, result)]}
    | .error _ c => State.closed {s with channel := c}

def step [TicketBuilder] (s : State Q) : Action → Option (State Q)
  | .insert_incoming_ticket t => some (insert_step t s)
  | .neglect_tickets up_to_index => some (neglect_step up_to_index s)
  | .redeem_stream min_amount => some (redeem_stream_step min_amount s)
  | .peek =>
    match s.stream with
    | some ⟨min, none⟩ => some (peek_step ⟨min, none⟩ s)
    | _ => none
  | .complete chain =>
    match s.stream with
    | some ⟨min, some t⟩ => some (complete_step (ε := ε) ⟨min, some t⟩ t chain s)
    | _ => none
  | .drop =>
    match s.stream with
    | some _ => some s.closed
    | none => none

def machine (Q : Type) {ε : Type} [TicketQueue Q ε] [TicketBuilder] : Machine (State Q) Action := ⟨step⟩

/-! ### What a step does over a queue that never fails -/

section Total
variable {Q ε : Type} [TicketQueue Q ε]

theorem insert_step_eq {t : RedeemableTicket} {s : State Q} {neg : List VerifiedTicket}
    {c : QueueWithStats Q} (h : (insert_occupied t).run s.channel = .ok neg c) :
    insert_step t s = {s with channel := c, inserted := s.inserted ++ [t]} := by
  unfold insert_step
  rw [h]

variable [TotalTicketQueue Q]

theorem peek_step_eq (r : RedeemState) (s : State Q) : peek_step r s =
    match (tickets s.channel.queue).head? with
    | some t => {s with stream := some {r with in_flight := some t}}
    | none => s.closed := by
  unfold peek_step
  rw [QueueWithStats.peek_run]
  cases (tickets s.channel.queue).head? <;> rfl

/-- The channel after a terminal result for `t`. -/
def completed (t : RedeemableTicket) (result : RedemptionResult) (c : QueueWithStats Q) :
    QueueWithStats Q :=
  if (tickets c.queue).head? = some t then ⟨popped c.queue, c.stats.account result⟩
  else ⟨c.queue, (c.stats.account result).correct result.ticket.amount⟩

/-- A completion hands out a terminal result, or the stream ends with an error. -/
theorem complete_step_cases (r : RedeemState) (t : RedeemableTicket) (chain : ChainResult)
    (s : State Q) :
    (∃ result, redeem_attempt (ε := ε) r.min_redeem_value t chain = .ok result ∧
      complete_step r t chain s = {s with
        channel := completed t result s.channel
        stream := some {r with in_flight := none}
        results := s.results ++ [(t, result)]}) ∨
    complete_step r t chain s = s.closed := by
  unfold complete_step
  cases redeem_attempt (ε := ε) r.min_redeem_value t chain with
  | error e => exact Or.inr rfl
  | ok result =>
    left
    refine ⟨result, rfl, ?_⟩
    simp only [complete_redeem_run, completed]

end Total

/-! ### A ticket gets one terminal result -/

/-- No ticket is inserted a second time. -/
def Distinct (s : State Q) : Action → Prop
  | .insert_incoming_ticket t => t ∉ s.inserted
  | _ => True

/-- While the ticket in flight is queued, no ticket of its epoch with a lower index is inserted. -/
def KeepsHead (s : State Q) : Action → Prop
  | .insert_incoming_ticket t => ∀ u ∈ s.in_flight, u ∈ tickets s.channel.queue →
      t.verified_ticket.channel_epoch = u.verified_ticket.channel_epoch →
      ¬ t.verified_ticket.index < u.verified_ticket.index
  | _ => True

instance : ∀ (s : State Q) (a : Action), Decidable (Distinct s a)
  | s, .insert_incoming_ticket t => inferInstanceAs (Decidable (t ∉ s.inserted))
  | _, .neglect_tickets _ | _, .redeem_stream _ | _, .peek | _, .complete _ | _, .drop => .isTrue trivial

instance : ∀ (s : State Q) (a : Action), Decidable (KeepsHead s a)
  | s, .insert_incoming_ticket t => inferInstanceAs (Decidable (∀ u ∈ s.in_flight,
      u ∈ tickets s.channel.queue →
      t.verified_ticket.channel_epoch = u.verified_ticket.channel_epoch →
      ¬ t.verified_ticket.index < u.verified_ticket.index))
  | _, .neglect_tickets _ | _, .redeem_stream _ | _, .peek | _, .complete _ | _, .drop => .isTrue trivial

/-- The ticket in flight heads the queue or has left it, and what was settled is gone. -/
structure Once (s : State Q) : Prop where
  nodup : (tickets s.channel.queue).Nodup
  queued : ∀ t ∈ tickets s.channel.queue, t ∈ s.inserted
  in_flight : ∀ u ∈ s.in_flight, u ∈ s.inserted ∧ u ∉ s.settled ∧
    ((tickets s.channel.queue).head? = some u ∨ u ∉ tickets s.channel.queue)
  settled : ∀ t ∈ s.settled, t ∈ s.inserted ∧ t ∉ tickets s.channel.queue
  once : s.settled.Nodup

theorem Once.closed {s : State Q} (h : Once s) : Once s.closed :=
  ⟨h.nodup, h.queued, fun _ hu => (nomatch hu), h.settled, h.once⟩

/-- A new ticket joins the queue, which loses others or keeps its head in flight. -/
theorem Once.insert {s : State Q} (h : Once s) {t : RedeemableTicket} (ht : t ∉ s.inserted)
    {c : QueueWithStats Q} (hnodup : (tickets c.queue).Nodup)
    (hsub : ∀ u ∈ tickets c.queue, u = t ∨ u ∈ tickets s.channel.queue)
    (hhead : ∀ u ∈ s.in_flight, (tickets s.channel.queue).head? = some u →
      (tickets c.queue).head? = some u ∨ u ∉ tickets c.queue) :
    Once {s with channel := c, inserted := s.inserted ++ [t]} := by
  have hne : ∀ u ∈ s.inserted, u ≠ t := fun u hu he => ht (he ▸ hu)
  have hout : ∀ u ∈ s.inserted, u ∉ tickets s.channel.queue → u ∉ tickets c.queue := by
    intro u hu hout hin
    rcases hsub u hin with rfl | hin
    · exact ht hu
    · exact hout hin
  refine ⟨hnodup, fun u hu => ?_, fun u hu => ?_, fun u hu => ?_, h.once⟩
  · rcases hsub u hu with rfl | hu
    · exact List.mem_append_right _ (List.mem_singleton_self _)
    · exact List.mem_append_left _ (h.queued u hu)
  · obtain ⟨hin, hsettled, hq⟩ := h.in_flight u hu
    refine ⟨List.mem_append_left _ hin, hsettled, ?_⟩
    rcases hq with hq | hq
    · exact hhead u hu hq
    · exact Or.inr (hout u hin hq)
  · obtain ⟨hin, hq⟩ := h.settled u hu
    exact ⟨List.mem_append_left _ hin, hout u hin hq⟩

/-- The queue loses its head. -/
theorem Once.pop {s : State Q} (h : Once s) {c : QueueWithStats Q}
    (hc : tickets c.queue = (tickets s.channel.queue).tail) : Once {s with channel := c} := by
  have hsub : ∀ u, u ∈ tickets c.queue → u ∈ tickets s.channel.queue := by
    rw [hc]
    exact fun u hu => List.mem_of_mem_tail hu
  refine ⟨?_, fun u hu => h.queued u (hsub u hu), fun u hu => ?_,
    fun u hu => ⟨(h.settled u hu).1, fun hin => (h.settled u hu).2 (hsub u hin)⟩, h.once⟩
  · show (tickets c.queue).Nodup
    rw [hc]
    exact h.nodup.tail
  · obtain ⟨hin, hsettled, hq⟩ := h.in_flight u hu
    refine ⟨hin, hsettled, Or.inr ?_⟩
    rcases hq with hq | hq
    · show u ∉ tickets c.queue
      have hnodup := h.nodup
      rw [hc]
      cases hl : tickets s.channel.queue with
      | nil => exact List.not_mem_nil
      | cons w rest =>
        rw [hl] at hq hnodup
        cases hq
        exact (List.nodup_cons.mp hnodup).1
    · exact fun hin => hq (hsub u hin)

theorem once_start [CreatableQueue Q] : Once (start : State Q) := by
  have hq : tickets (start : State Q).channel.queue = [] := CreatableQueue.tickets_empty
  refine ⟨?_, fun t ht => ?_, fun _ hu => (nomatch hu), fun _ ht => (nomatch ht), List.nodup_nil⟩
  · rw [hq]
    exact List.nodup_nil
  · rw [hq] at ht
    cases ht

section Infallible
variable [InfallibleTicketQueue Q]

/-- A ticket of the queued epoch is pushed behind the ticket in flight. -/
theorem head_pushed_of_keeps {s : State Q} {t u : RedeemableTicket}
    (hsame : ∀ last, (tickets s.channel.queue).head? = some last →
      last.verified_ticket.channel_epoch = t.verified_ticket.channel_epoch)
    (hk : KeepsHead s (.insert_incoming_ticket t)) (hu : u ∈ s.in_flight)
    (hq : (tickets s.channel.queue).head? = some u) :
    (tickets (pushed t s.channel.queue)).head? = some u := by
  apply head_pushed hq
  have hin : u ∈ tickets s.channel.queue := List.mem_of_mem_head? hq
  rw [RedeemableTicket.key_lt_iff, hsame u hq]
  rintro (hlt | ⟨_, hlt⟩)
  · exact absurd hlt (UInt32.lt_irrefl _)
  · exact hk u hu hin (hsame u hq).symm hlt

theorem once_insert {s : State Q} (h : Once s) {t : RedeemableTicket} (ht : t ∉ s.inserted)
    (hk : KeepsHead s (.insert_incoming_ticket t)) : Once (insert_step t s) := by
  rcases insert_occupied_cases t s.channel with
    ⟨last, _, _, hrun⟩ | ⟨last, _, _, hrun⟩ | ⟨hsame, hrun⟩
  · -- the queue is drained of an older epoch
    have hperm := tickets_pushed t (drained s.channel.queue)
    rw [tickets_drained, List.perm_singleton] at hperm
    rw [insert_step_eq hrun]
    refine h.insert ht (hperm ▸ List.nodup_singleton t) (fun u hu => ?_) (fun u hu _ => Or.inr ?_)
    · rw [hperm, List.mem_singleton] at hu
      exact Or.inl hu
    · rw [hperm, List.mem_singleton]
      intro he
      exact ht (he ▸ (h.in_flight u hu).1)
  · -- the ticket is the older one and is neglected
    rw [insert_step_eq hrun]
    exact h.insert ht h.nodup (fun u hu => Or.inr hu) (fun u _ hq => Or.inl hq)
  · have hperm := tickets_pushed t s.channel.queue
    rw [insert_step_eq hrun]
    refine h.insert ht ?_ (fun u hu => List.mem_cons.mp (hperm.mem_iff.mp hu)) (fun u hu hq => Or.inl ?_)
    · rw [hperm.nodup_iff, List.nodup_cons]
      exact ⟨fun hin => ht (h.queued t hin), h.nodup⟩
    · exact head_pushed_of_keeps hsame hk hu hq

theorem once_neglect [TicketBuilder] {s : State Q} (h : Once s) (up_to_index : Option UInt64) :
    Once (neglect_step up_to_index s) := by
  obtain ⟨neg, c, hrun, hc⟩ := neglect_tickets_preserves (P := fun c => Once {s with channel := c})
    (fun c t hc _ => hc.pop (tickets_popped c.queue)) up_to_index s.channel h
  unfold neglect_step
  rw [hrun]
  exact hc

theorem once_peek {s : State Q} (h : Once s) (r : RedeemState) : Once (peek_step r s) := by
  rw [peek_step_eq]
  cases hq : (tickets s.channel.queue).head? with
  | none => exact h.closed
  | some t =>
    have hin : t ∈ tickets s.channel.queue := List.mem_of_mem_head? hq
    refine ⟨h.nodup, h.queued, fun u hu => ?_, h.settled, h.once⟩
    obtain rfl : t = u := Option.some.inj hu
    exact ⟨h.queued t hin, fun hs => (h.settled t hs).2 hin, Or.inl hq⟩

theorem once_complete {s : State Q} (h : Once s) {min : HoprBalance} {t : RedeemableTicket}
    (hs : s.stream = some ⟨min, some t⟩) (chain : ChainResult) :
    Once (complete_step ⟨min, some t⟩ t chain s) := by
  rcases complete_step_cases ⟨min, some t⟩ t chain s with ⟨result, _, heq⟩ | heq
  · have hflight : s.in_flight = some t := by unfold State.in_flight; rw [hs]; rfl
    obtain ⟨hin, hsettled, hq⟩ := h.in_flight t hflight
    -- the queue after the completion, without the settled ticket
    have hpop : Once {s with channel := completed t result s.channel} ∧
        t ∉ tickets (completed t result s.channel).queue := by
      unfold completed
      split
      · rename_i hhead
        have hc := h.pop (c := ⟨popped s.channel.queue, s.channel.stats.account result⟩)
          (tickets_popped s.channel.queue)
        refine ⟨hc, ((hc.in_flight t hflight).2.2).resolve_left fun hhead' => ?_⟩
        have hnodup := h.nodup
        rw [show (tickets (popped s.channel.queue)) = _ from tickets_popped _] at hhead'
        cases hl : tickets s.channel.queue with
        | nil => rw [hl] at hhead; cases hhead
        | cons w rest =>
          rw [hl] at hhead hhead' hnodup
          cases hhead
          exact (List.nodup_cons.mp hnodup).1 (List.mem_of_mem_head? hhead')
      · rename_i hhead
        exact ⟨⟨h.nodup, h.queued, h.in_flight, h.settled, h.once⟩, hq.resolve_left hhead⟩
    rw [heq]
    obtain ⟨hc, hout⟩ := hpop
    have hmem : ∀ u, u ∈ (s.results ++ [(t, result)]).map Prod.fst ↔ u ∈ s.settled ∨ u = t := by
      intro u
      rw [List.map_append, List.mem_append]
      exact or_congr_right List.mem_singleton
    refine ⟨hc.nodup, hc.queued, fun _ hu => (nomatch hu), fun u hu => ?_, ?_⟩
    · rcases (hmem u).mp hu with hu | rfl
      · exact hc.settled u hu
      · exact ⟨hin, hout⟩
    · show ((s.results ++ [(t, result)]).map Prod.fst).Nodup
      rw [List.map_append]
      refine List.nodup_append.mpr ⟨h.once, List.nodup_singleton t, fun u hu w hw he => ?_⟩
      have hw : w = t := List.mem_singleton.mp hw
      rw [he, hw] at hu
      exact hsettled hu
  · rw [heq]
    exact h.closed

theorem once_step [TicketBuilder] {s s' : State Q} {a : Action} (hd : Distinct s a)
    (hk : KeepsHead s a) (h : Once s) (hs : step s a = some s') : Once s' := by
  cases a with
  | insert_incoming_ticket t => cases hs; exact once_insert h hd hk
  | neglect_tickets up_to_index => cases hs; exact once_neglect h up_to_index
  | redeem_stream min_amount =>
    cases hs
    unfold redeem_stream_step
    split
    · exact h
    · exact ⟨h.nodup, h.queued, fun _ hu => (nomatch hu), h.settled, h.once⟩
  | peek =>
    simp only [step] at hs
    split at hs
    · cases hs; exact once_peek h _
    · cases hs
  | complete chain =>
    simp only [step] at hs
    split at hs
    · cases hs; exact once_complete h (by assumption) chain
    · cases hs
  | drop =>
    simp only [step] at hs
    split at hs
    · cases hs; exact h.closed
    · cases hs

theorem settled_step [TicketBuilder] {s s' : State Q} {a : Action} (hs : step s a = some s') :
    s.settled ⊆ s'.settled := by
  cases a with
  | insert_incoming_ticket t =>
    cases hs
    unfold insert_step
    split <;> exact fun _ h => h
  | neglect_tickets up_to_index =>
    cases hs
    unfold neglect_step
    split <;> exact fun _ h => h
  | redeem_stream min_amount =>
    cases hs
    unfold redeem_stream_step
    split <;> exact fun _ h => h
  | peek =>
    simp only [step] at hs
    split at hs
    · cases hs
      rw [peek_step_eq]
      split <;> exact fun _ h => h
    · cases hs
  | complete chain =>
    simp only [step] at hs
    split at hs
    · rename_i min t _
      cases hs
      rcases complete_step_cases ⟨min, some t⟩ t chain s with ⟨result, _, heq⟩ | heq
      · rw [heq]
        exact List.map_subset _ (List.subset_append_left _ _)
      · rw [heq]
        exact fun _ h => h
    · cases hs
  | drop =>
    simp only [step] at hs
    split at hs
    · cases hs
      exact fun _ h => h
    · cases hs

/-- As long as the head is kept, no ticket is handed a second terminal result, and a ticket that
got one never shows up in the queue again. -/
theorem settled_once [CreatableQueue Q] [TicketBuilder] {as bs : List Action} {s s' : State Q}
    (hd : (machine Q).Meets Distinct start (as ++ bs))
    (hk : (machine Q).Meets KeepsHead start (as ++ bs))
    (has : (machine Q).run start as = some s) (hbs : (machine Q).run s bs = some s') :
    s'.settled.Nodup ∧ ∀ t ∈ s.settled, t ∉ tickets s'.channel.queue := by
  have hinv : Once s' := by
    have hrun : (machine Q).run start (as ++ bs) = some s' :=
      (machine Q).run_append.mpr ⟨s, has, hbs⟩
    exact (machine Q).run_invariant (fun s a s' hc h hs => once_step hc.1 hc.2 h hs)
      (hd.and hk) hrun once_start
  have hsettled : s.settled ⊆ s'.settled :=
    (machine Q).run_climbs_of_step (R := fun s s' => s.settled ⊆ s'.settled)
      (fun _ => List.Subset.refl _) (fun _ _ _ => List.Subset.trans)
      (fun _ _ _ hs => settled_step hs) hbs
  exact ⟨hinv.once, fun t ht => (hinv.settled t (hsettled ht)).2⟩

end Infallible

end Machine

section Memory

local instance : TicketBuilder := .bits48

/-- A ticket of a higher index arrives while one is in flight. -/
theorem settled_once_higher :
    let t := RedeemableTicket.of 1 1 3 10
    let u := RedeemableTicket.of 1 1 5 10
    let as : List Action := [.insert_incoming_ticket t, .redeem_stream none, .peek,
      .insert_incoming_ticket u, .complete (.Ok t.ticket)]
    ∃ s s' : State MemoryTicketQueue, (machine MemoryTicketQueue).run start as = some s ∧
      (machine MemoryTicketQueue).run s [.peek] = some s' ∧
      s'.settled.Nodup ∧ ∀ t ∈ s.settled, t ∉ tickets s'.channel.queue := by
  intro t u as
  obtain ⟨s, hs⟩ : ∃ s : State MemoryTicketQueue,
      (machine MemoryTicketQueue).run start as = some s := ⟨_, rfl⟩
  obtain ⟨s', hs'⟩ : ∃ s', (machine MemoryTicketQueue).run s [.peek] = some s' := by
    cases hs
    exact ⟨_, rfl⟩
  exact ⟨s, s', hs, hs', settled_once (by decide) (by decide) hs hs'⟩

/-- A ticket of a lower index takes the head from the ticket in flight, which then stays in the
queue when it is redeemed, and is redeemed again. -/
theorem settled_twice :
    let t := RedeemableTicket.of 1 1 5 10
    let u := RedeemableTicket.of 1 1 3 10
    let as : List Action := [.insert_incoming_ticket t, .redeem_stream none, .peek,
      .insert_incoming_ticket u, .complete (.Ok t.ticket)]
    let bs : List Action := [.peek, .complete (.Ok u.ticket), .peek, .complete (.Ok t.ticket)]
    (machine MemoryTicketQueue).Meets Distinct start (as ++ bs) ∧
      ∃ s s' : State MemoryTicketQueue, (machine MemoryTicketQueue).run start as = some s ∧
        (machine MemoryTicketQueue).run s bs = some s' ∧
        t ∈ s.settled ∧ t ∈ tickets s.channel.queue ∧ ¬ s'.settled.Nodup := by
  intro t u as bs
  exact ⟨by decide, _, _, rfl, rfl, by decide, by decide, by decide⟩

end Memory

end Hopr.TicketManager.Redemption
