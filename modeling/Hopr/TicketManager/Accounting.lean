import Hopr.TicketManager.Redemption

/-! Value conservation of the accounting of one channel.

Every amount that was inserted is redeemed, rejected, neglected or still queued.
A ticket in flight is what makes this delicate: neglecting or a newer epoch may
take it from the queue and count it as neglected before its redemption completes,
and the completion then counts it again and takes back what was neglected.
`Conserved` ties the three: the counters and the queue add up, and the ticket in
flight heads the queue or is contained in the neglected value. `conserved_step`
preserves it while the head is kept and no sum saturates, so it holds of every
run (`value_conserved`), and the correction never saturates at zero. -/
namespace Hopr.TicketManager.Redemption
open TicketQueue QueueWithStats Library

variable {Q ε : Type} [TicketQueue Q ε]

/-- What the counters and the queue account for. -/
def accounted (c : QueueWithStats Q) : Nat :=
  c.stats.redeemed_value.amount + c.stats.rejected_value.amount + c.stats.neglected_value.amount +
    total (tickets c.queue)

/-! ### The conditions on a step -/

/-- No ticket of the epoch of the ticket in flight is inserted with an index not above its own. -/
def InsertsAbove (s : State Q) : Action → Prop
  | .insert_incoming_ticket t => ∀ u ∈ s.in_flight,
      t.verified_ticket.channel_epoch = u.verified_ticket.channel_epoch →
      ¬ t.verified_ticket.index ≤ u.verified_ticket.index
  | _ => True

/-- The chain client reports the ticket it was given. -/
def Reports (s : State Q) : Action → Prop
  | .complete chain => ∀ u ∈ s.in_flight, chain.ticket = u.ticket
  | _ => True

/-- The amounts inserted fit in a balance. -/
def Fits (s : State Q) : Action → Prop
  | .insert_incoming_ticket t => total (t :: s.inserted) ≤ HoprBalance.MAX
  | _ => True

/-- A ticket of low value that has left the queue fits once more when it completes: until the
correction it is counted as neglected twice. -/
def FitsTwice (s : State Q) : Action → Prop
  | .complete _ => ∀ r ∈ s.stream, ∀ u ∈ r.in_flight,
      ¬ r.min_redeem_value ≤ u.verified_ticket.amount → (tickets s.channel.queue).head? ≠ some u →
      total s.inserted + u.verified_ticket.amount.amount ≤ HoprBalance.MAX
  | _ => True

instance : ∀ (s : State Q) (a : Action), Decidable (InsertsAbove s a)
  | s, .insert_incoming_ticket t => inferInstanceAs (Decidable (∀ u ∈ s.in_flight,
      t.verified_ticket.channel_epoch = u.verified_ticket.channel_epoch →
      ¬ t.verified_ticket.index ≤ u.verified_ticket.index))
  | _, .neglect_tickets _ | _, .redeem_stream _ | _, .peek | _, .complete _ | _, .drop => .isTrue trivial

instance : ∀ (s : State Q) (a : Action), Decidable (Reports s a)
  | _, .insert_incoming_ticket _ | _, .neglect_tickets _ | _, .redeem_stream _ | _, .peek => .isTrue trivial
  | s, .complete chain => inferInstanceAs (Decidable (∀ u ∈ s.in_flight, chain.ticket = u.ticket))
  | _, .drop => .isTrue trivial

instance : ∀ (s : State Q) (a : Action), Decidable (Fits s a)
  | s, .insert_incoming_ticket t =>
    inferInstanceAs (Decidable (total (t :: s.inserted) ≤ HoprBalance.MAX))
  | _, .neglect_tickets _ | _, .redeem_stream _ | _, .peek | _, .complete _ | _, .drop => .isTrue trivial

instance : ∀ (s : State Q) (a : Action), Decidable (FitsTwice s a)
  | _, .insert_incoming_ticket _ | _, .neglect_tickets _ | _, .redeem_stream _ | _, .peek => .isTrue trivial
  | s, .complete _ => inferInstanceAs (Decidable (∀ r ∈ s.stream, ∀ u ∈ r.in_flight,
      ¬ r.min_redeem_value ≤ u.verified_ticket.amount → (tickets s.channel.queue).head? ≠ some u →
      total s.inserted + u.verified_ticket.amount.amount ≤ HoprBalance.MAX))
  | _, .drop => .isTrue trivial

/-- Inserting above the ticket in flight keeps it at the head. -/
theorem InsertsAbove.keepsHead (s : State Q) (a : Action) (h : InsertsAbove s a) : KeepsHead s a := by
  cases a with
  | insert_incoming_ticket t =>
    intro u hu _ hepoch hlt
    apply h u hu hepoch
    rw [UInt64.le_iff_toNat_le]
    rw [UInt64.lt_iff_toNat_lt] at hlt
    omega
  | _ => trivial

/-! ### The invariant -/

/-- Nothing is lost, and the ticket in flight is queued or was neglected. -/
structure Conserved (s : State Q) : Prop where
  balance : accounted s.channel = total s.inserted
  fits : total s.inserted ≤ HoprBalance.MAX
  in_flight : ∀ u ∈ s.in_flight, (tickets s.channel.queue).head? = some u ∨
    u.verified_ticket.amount.amount ≤ s.channel.stats.neglected_value.amount

theorem Conserved.closed {s : State Q} (h : Conserved s) : Conserved s.closed :=
  ⟨h.balance, h.fits, fun _ hu => (nomatch hu)⟩

/-- The result of an attempt is about the ticket, if the client reports the ticket. -/
theorem redeem_attempt_ticket {min : HoprBalance} {t : RedeemableTicket} {chain : ChainResult}
    {result : RedemptionResult} (hchain : chain.ticket = t.ticket)
    (h : redeem_attempt (ε := ε) min t chain = .ok result) : result.ticket = t.ticket := by
  unfold redeem_attempt at h
  split at h
  · cases chain with
    | Ok ticket => cases h; exact hchain
    | Rejected ticket reason => cases h; exact hchain
    | ProcessingError ticket error => cases h
  · cases h
    rfl

/-- What a correction takes back was counted as neglected. -/
theorem Conserved.correction_le {s : State Q} (h : Conserved s) {min : HoprBalance}
    {t : RedeemableTicket} (hs : s.stream = some ⟨min, some t⟩) {result : RedemptionResult}
    (hticket : result.ticket = t.ticket) (hhead : (tickets s.channel.queue).head? ≠ some t) :
    result.ticket.amount.amount ≤ (s.channel.stats.account result).neglected_value.amount := by
  have hflight : s.in_flight = some t := by unfold State.in_flight; rw [hs]; rfl
  have hneg := (h.in_flight t hflight).resolve_left hhead
  have hmax := result.ticket.amount.amount_le
  rw [show t.verified_ticket = result.ticket from hticket.symm] at hneg
  cases result with
  | Redeemed ticket => exact hneg
  | RejectedOnChain ticket reason => exact hneg
  | ValueTooLow ticket =>
    simp only [ChannelTicketStats.account, HoprBalance.amount_add, RedemptionResult.ticket] at hmax ⊢
    omega

theorem conserved_start [CreatableQueue Q] : Conserved (start : State Q) := by
  have hq : tickets (start : State Q).channel.queue = [] := CreatableQueue.tickets_empty
  refine ⟨?_, Nat.zero_le _, fun _ hu => (nomatch hu)⟩
  unfold accounted
  rw [hq]
  rfl

section Infallible
variable [InfallibleTicketQueue Q]

theorem conserved_insert {s : State Q} (h : Conserved s) {t : RedeemableTicket}
    (hfits : total (t :: s.inserted) ≤ HoprBalance.MAX)
    (hk : KeepsHead s (.insert_incoming_ticket t)) : Conserved (insert_step t s) := by
  have hbalance := h.balance
  have hflight := h.in_flight
  unfold accounted at hbalance
  rw [total_cons] at hfits
  rcases insert_occupied_cases t s.channel with
    ⟨last, _, _, hrun⟩ | ⟨last, _, _, hrun⟩ | ⟨hsame, hrun⟩
  · -- everything queued is neglected, the ticket in flight included
    have hqueued := total_perm (tickets_pushed t (drained s.channel.queue))
    rw [tickets_drained, total_cons, show total [] = 0 from rfl] at hqueued
    have hsum := amount_sum_amounts (tickets s.channel.queue)
    rw [insert_step_eq hrun]
    refine ⟨?_, ?_, fun u hu => Or.inr ?_⟩
    · simp only [accounted, ChannelTicketStats.win, ChannelTicketStats.neglect,
        HoprBalance.amount_add, hsum, hqueued, total_append]
      omega
    · show total (s.inserted ++ [t]) ≤ _
      rw [total_append]
      omega
    · simp only [ChannelTicketStats.win, ChannelTicketStats.neglect, HoprBalance.amount_add, hsum]
      rcases hflight u hu with hq | hq
      · have hhead := total_of_head hq
        omega
      · omega
  · -- the ticket is the older one and is neglected
    rw [insert_step_eq hrun]
    refine ⟨?_, ?_, fun u hu => (hflight u hu).imp_right fun hq => ?_⟩
    · simp only [accounted, ChannelTicketStats.win, ChannelTicketStats.neglect,
        HoprBalance.amount_add, total_append]
      omega
    · show total (s.inserted ++ [t]) ≤ _
      rw [total_append]
      omega
    · simp only [ChannelTicketStats.win, ChannelTicketStats.neglect, HoprBalance.amount_add]
      omega
  · have hqueued := total_perm (tickets_pushed t s.channel.queue)
    rw [total_cons] at hqueued
    rw [insert_step_eq hrun]
    refine ⟨?_, ?_, fun u hu => (hflight u hu).imp_left fun hq => ?_⟩
    · simp only [accounted, ChannelTicketStats.win, hqueued, total_append]
      omega
    · show total (s.inserted ++ [t]) ≤ _
      rw [total_append]
      omega
    · exact head_pushed_of_keeps hsame hk hu hq

theorem conserved_neglect [TicketBuilder] {s : State Q} (h : Conserved s)
    (up_to_index : Option UInt64) : Conserved (neglect_step up_to_index s) := by
  have hturn : ∀ (c : QueueWithStats Q) t, Conserved {s with channel := c} →
      (tickets c.queue).head? = some t → Conserved {s with channel := neglected_head t c} := by
    intro c t hc hq
    have hhead := total_of_head hq
    obtain ⟨hbalance, _, hflight⟩ := hc
    have hfits := h.fits
    simp only [accounted] at hbalance
    refine ⟨?_, hfits, fun u hu => Or.inr ?_⟩
    · simp only [accounted, neglected_head, ChannelTicketStats.neglect, HoprBalance.amount_add,
        tickets_popped]
      omega
    · simp only [neglected_head, ChannelTicketStats.neglect, HoprBalance.amount_add]
      rcases hflight u hu with hu | hu
      · cases hq.symm.trans hu
        omega
      · simp only at hu
        omega
  obtain ⟨neg, c, hrun, hc⟩ := neglect_tickets_preserves hturn up_to_index s.channel h
  unfold neglect_step
  rw [hrun]
  exact hc

theorem conserved_peek {s : State Q} (h : Conserved s) (r : RedeemState) :
    Conserved (peek_step r s) := by
  rw [peek_step_eq]
  cases hq : (tickets s.channel.queue).head? with
  | none => exact h.closed
  | some t =>
    refine ⟨h.balance, h.fits, fun u hu => Or.inl ?_⟩
    obtain rfl : t = u := Option.some.inj hu
    exact hq

theorem conserved_complete {s : State Q} (h : Conserved s) {min : HoprBalance}
    {t : RedeemableTicket} (hs : s.stream = some ⟨min, some t⟩) {chain : ChainResult}
    (hchain : Reports s (.complete chain)) (htwice : FitsTwice s (.complete chain)) :
    Conserved (complete_step ⟨min, some t⟩ t chain s) := by
  rcases complete_step_cases ⟨min, some t⟩ t chain s with ⟨result, hattempt, heq⟩ | heq
  · have hflight : s.in_flight = some t := by unfold State.in_flight; rw [hs]; rfl
    have hticket : result.ticket = t.ticket := redeem_attempt_ticket (hchain t hflight) hattempt
    have hbalance := h.balance
    have hfits := h.fits
    rw [heq]
    refine ⟨?_, h.fits, fun _ hu => (nomatch hu)⟩
    unfold accounted at hbalance
    show accounted (completed t result s.channel) = total s.inserted
    unfold completed accounted
    split
    · rename_i hhead
      have htotal := total_of_head hhead
      rw [show t.verified_ticket = result.ticket from hticket.symm] at htotal
      cases result <;>
        simp only [ChannelTicketStats.account, tickets_popped, HoprBalance.amount_add,
          RedemptionResult.ticket] at htotal ⊢ <;> omega
    · -- the ticket is contained in the neglected value
      rename_i hhead
      have hneg := (h.in_flight t hflight).resolve_left hhead
      rw [show t.verified_ticket = result.ticket from hticket.symm] at hneg
      cases result with
      | Redeemed ticket =>
        simp only [ChannelTicketStats.account, ChannelTicketStats.correct, RedemptionResult.ticket,
          HoprBalance.amount_add, HoprBalance.amount_sub] at hneg ⊢
        omega
      | RejectedOnChain ticket reason =>
        simp only [ChannelTicketStats.account, ChannelTicketStats.correct, RedemptionResult.ticket,
          HoprBalance.amount_add, HoprBalance.amount_sub] at hneg ⊢
        omega
      | ValueTooLow ticket =>
        have hlow : ¬ min ≤ t.verified_ticket.amount := by
          intro hle
          unfold redeem_attempt at hattempt
          rw [if_pos hle] at hattempt
          cases chain <;> cases hattempt
        have hcounted := htwice ⟨min, some t⟩ hs t rfl hlow hhead
        rw [show t.verified_ticket = ticket from hticket.symm] at hcounted
        simp only [ChannelTicketStats.account, ChannelTicketStats.correct, RedemptionResult.ticket,
          HoprBalance.amount_add, HoprBalance.amount_sub]
        omega
  · rw [heq]
    exact h.closed

/-- The conditions under which a step conserves value. -/
def Ordinary (s : State Q) (a : Action) : Prop :=
  KeepsHead s a ∧ Reports s a ∧ Fits s a ∧ FitsTwice s a

theorem conserved_step [TicketBuilder] {s s' : State Q} {a : Action} (ho : Ordinary s a)
    (h : Conserved s) (hs : step s a = some s') : Conserved s' := by
  obtain ⟨hkeeps, hreports, hfits, htwice⟩ := ho
  cases a with
  | insert_incoming_ticket t => cases hs; exact conserved_insert h hfits hkeeps
  | neglect_tickets up_to_index => cases hs; exact conserved_neglect h up_to_index
  | redeem_stream min_amount =>
    cases hs
    unfold redeem_stream_step
    split
    · exact h
    · exact ⟨h.balance, h.fits, fun _ hu => (nomatch hu)⟩
  | peek =>
    simp only [step] at hs
    split at hs
    · cases hs; exact conserved_peek h _
    · cases hs
  | complete chain =>
    simp only [step] at hs
    split at hs
    · cases hs; exact conserved_complete h (by assumption) hreports htwice
    · cases hs
  | drop =>
    simp only [step] at hs
    split at hs
    · cases hs; exact h.closed
    · cases hs

/-- While tickets are inserted above the one in flight and nothing saturates, the inserted amounts
are accounted for in every state, and a correction takes back no more than was neglected. -/
theorem value_conserved [CreatableQueue Q] [TicketBuilder] {as : List Action} {s : State Q}
    (habove : (machine Q).Meets InsertsAbove start as) (hreports : (machine Q).Meets Reports start as)
    (hfits : (machine Q).Meets Fits start as) (htwice : (machine Q).Meets FitsTwice start as)
    (hrun : (machine Q).run start as = some s) :
    accounted s.channel = total s.inserted ∧
      ∀ min t chain result, s.stream = some ⟨min, some t⟩ → chain.ticket = t.ticket →
        redeem_attempt (ε := ε) min t chain = .ok result →
        (tickets s.channel.queue).head? ≠ some t →
        result.ticket.amount.amount ≤ (s.channel.stats.account result).neglected_value.amount := by
  have hordinary : (machine Q).Meets Ordinary start as :=
    (habove.mono InsertsAbove.keepsHead).and (hreports.and (hfits.and htwice))
  have hinv : Conserved s := (machine Q).run_invariant
    (fun _ _ _ ho h hs => conserved_step ho h hs) hordinary hrun conserved_start
  refine ⟨hinv.balance, fun min t chain result hs hchain hattempt hhead => ?_⟩
  exact hinv.correction_le hs (redeem_attempt_ticket hchain hattempt) hhead

end Infallible

section Memory

local instance : TicketBuilder := .bits48

/-- A ticket of low value is neglected while in flight, counted again and corrected. -/
theorem value_conserved_neglected :
    let t := RedeemableTicket.of 1 1 3 10
    let as : List Action := [.insert_incoming_ticket t, .redeem_stream (some (.ofNat 20)), .peek,
      .neglect_tickets none, .complete (.Ok t.ticket)]
    ∃ s : State MemoryTicketQueue, (machine MemoryTicketQueue).run start as = some s ∧
      accounted s.channel = total s.inserted := by
  intro t as
  obtain ⟨s, hs⟩ : ∃ s : State MemoryTicketQueue,
      (machine MemoryTicketQueue).run start as = some s := ⟨_, rfl⟩
  exact ⟨s, hs, (value_conserved (by decide) (by decide) (by decide) (by decide) hs).1⟩

/-- One ticket of almost the largest amount, neglected while in flight as one of low value, does
not fit a second time: the correction leaves one. -/
theorem value_lost :
    let t := RedeemableTicket.of 1 1 3 (HoprBalance.MAX - 1)
    let as : List Action := [.insert_incoming_ticket t, .redeem_stream (some (.ofNat HoprBalance.MAX)),
      .peek, .neglect_tickets none, .complete (.Ok t.ticket)]
    (machine MemoryTicketQueue).Meets InsertsAbove start as ∧
      (machine MemoryTicketQueue).Meets Reports start as ∧
      (machine MemoryTicketQueue).Meets Fits start as ∧
      ∃ s : State MemoryTicketQueue, (machine MemoryTicketQueue).run start as = some s ∧
        total s.inserted < HoprBalance.MAX ∧ accounted s.channel = 1 ∧
        accounted s.channel ≠ total s.inserted := by
  intro t as
  exact ⟨by decide, by decide, by decide, _, rfl, by decide, by decide, by decide⟩

end Memory

end Hopr.TicketManager.Redemption
