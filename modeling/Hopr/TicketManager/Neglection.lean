import Mathlib.Data.List.TakeWhile
import Hopr.Library.Front
import Hopr.TicketManager.Redemption
import Hopr.TicketManager.Replacing

/-! What neglecting takes.

In a queue of one epoch the tickets up to an index are in front, so the loop that
looks at the head only takes exactly these (`neglect_loop_run`). The statistics and
the value cache follow it turn by turn; the cached value falls by what was taken
if it was the value of the queue before, and otherwise for some bound it does not
(`neglects_prefix_iff`). -/
namespace Hopr.TicketManager.Neglection
open Library TicketQueue ValueCachedQueue QueueWithStats

/-- The index of the ticket is within the bound. -/
def within (max_index : UInt64) (t : RedeemableTicket) : Bool := t.verified_ticket.index ≤ max_index

/-- The sum of the amounts of the tickets. -/
def worth (l : List RedeemableTicket) : HoprBalance := HoprBalance.sum (l.map (·.verified_ticket.amount))

theorem worth_cons (t : RedeemableTicket) (l : List RedeemableTicket) :
    worth (t :: l) = t.verified_ticket.amount + worth l := HoprBalance.sum_cons ..

/-- In the natural order of one epoch the lower indices come first. -/
theorem front_within {l : List RedeemableTicket} (hsorted : l.Pairwise fun t u => t.key ≤ u.key)
    (hone : OneEpoch l) (max_index : UInt64) : Front (within max_index) l := by
  apply hsorted.imp_of_mem
  intro t u ht hu hle hwithin
  have hindex := (RedeemableTicket.key_le_iff_of_epoch_eq (hone t ht u hu)).mp hle
  apply decide_eq_true
  exact UInt64.le_trans hindex (of_decide_eq_true hwithin)

section Neglect
variable {Q ε : Type} [TicketQueue Q ε]

/-- The queue is of one epoch, which the value cache has on record. -/
structure SingleEpoch (v : ValueCachedQueue Q) : Prop where
  one_epoch : OneEpoch (tickets v.queue)
  current : v.current_epoch = (tickets v.queue).head?.map (·.verified_ticket.channel_epoch)

theorem SingleEpoch.cached_value {v : ValueCachedQueue Q} (h : SingleEpoch v) {t : RedeemableTicket}
    (ht : t ∈ tickets v.queue) : v.cached_unrealized_value = v.cached t.verified_ticket.channel_epoch := by
  unfold cached_unrealized_value
  rw [h.current]
  cases hq : tickets v.queue with
  | nil =>
    rw [hq] at ht
    cases ht
  | cons u rest =>
    have hu : u ∈ tickets v.queue := by
      rw [hq]
      exact List.mem_cons_self
    rw [List.head?_cons, Option.map_some, Option.bind_some, h.one_epoch u hu t ht]
    rfl

theorem SingleEpoch.cached_nil {v : ValueCachedQueue Q} (h : SingleEpoch v) (hq : tickets v.queue = []) :
    v.cached_unrealized_value = 0 := by
  unfold cached_unrealized_value
  rw [h.current, hq]
  rfl

end Neglect

/-! ### The loop -/

section Loop
variable {Q ε : Type} [TicketQueue Q ε]

/-- The front of the queue was neglected. -/
structure Neglected (max_index : UInt64) (s s' : QueueWithStats Q) : Prop where
  queue_eq : tickets s'.queue = (tickets s.queue).dropWhile (within max_index)
  stats_eq : s'.stats = s.stats.neglect (worth ((tickets s.queue).takeWhile (within max_index)))
  current : s.queue.current_epoch = (tickets s.queue).head?.map (·.verified_ticket.channel_epoch) →
    s'.queue.current_epoch = (tickets s'.queue).head?.map (·.verified_ticket.channel_epoch)
  cached_eq : ∀ epoch, (∀ t ∈ tickets s.queue, t.verified_ticket.channel_epoch = epoch) →
    s'.queue.cached epoch =
      s.queue.cached epoch - worth ((tickets s.queue).takeWhile (within max_index))
  /-- Another turn of the loop takes nothing. -/
  ended : (neglect_next max_index).run s' = .ok none s'
  unchanged : (tickets s.queue).takeWhile (within max_index) = [] → s' = s

theorem neglect_neglect (s : ChannelTicketStats) (a b : HoprBalance) :
    (s.neglect a).neglect b = s.neglect (a + b) := by
  unfold ChannelTicketStats.neglect
  rw [HoprBalance.add_assoc]

variable {max_index : UInt64} {s : QueueWithStats Q}

/-- A queue whose head is beyond the bound, or that is empty. -/
theorem neglected_nothing (hhead : ∀ t, (tickets s.queue).head? = some t → within max_index t = false)
    (hrun : (neglect_next max_index).run s = .ok none s) : Neglected max_index s s := by
  have hdrop : (tickets s.queue).dropWhile (within max_index) = tickets s.queue ∧
      (tickets s.queue).takeWhile (within max_index) = [] := by
    cases hq : tickets s.queue with
    | nil => exact ⟨rfl, rfl⟩
    | cons t rest =>
      have hneg : ¬ within max_index t = true := by
        rw [hhead t (by rw [hq]; rfl)]
        decide
      exact ⟨List.dropWhile_cons_of_neg hneg, List.takeWhile_cons_of_neg hneg⟩
  refine ⟨hdrop.1.symm, ?_, id, fun epoch _ => ?_, hrun, fun _ => rfl⟩
  · rw [hdrop.2]
    unfold ChannelTicketStats.neglect
    rw [show worth [] = 0 from rfl, HoprBalance.add_zero]
  · rw [hdrop.2]
    exact (HoprBalance.sub_zero _).symm

variable [TotalTicketQueue Q]

theorem cached_popped (v : ValueCachedQueue Q) {t : RedeemableTicket} {rest : List RedeemableTicket}
    (hq : tickets v.queue = t :: rest) :
    (popped v).cached t.verified_ticket.channel_epoch =
      v.cached t.verified_ticket.channel_epoch - t.verified_ticket.amount := by
  rw [popped_eq]
  unfold forget
  rw [hq, List.head?_cons]
  show (debit _ _ v.value_cache t.verified_ticket.channel_epoch).getD 0 = _
  unfold debit
  rw [Function.update_self, Option.getD_some]
  rfl

theorem current_popped (v : ValueCachedQueue Q) {t : RedeemableTicket} {rest : List RedeemableTicket}
    (hq : tickets v.queue = t :: rest) :
    (popped v).current_epoch = rest.head?.map (·.verified_ticket.channel_epoch) := by
  rw [popped_eq]
  unfold forget
  rw [hq, List.head?_cons, List.tail_cons]

theorem Neglected.cons {t : RedeemableTicket} {rest : List RedeemableTicket} {s' : QueueWithStats Q}
    (hq : tickets s.queue = t :: rest) (ht : within max_index t = true)
    (h : Neglected max_index (neglected_head t s) s') : Neglected max_index s s' := by
  have hrest : tickets (neglected_head t s).queue = rest := by
    show tickets (popped s.queue) = rest
    rw [tickets_popped, hq]
    rfl
  have htake : (tickets s.queue).takeWhile (within max_index) =
      t :: (tickets (neglected_head t s).queue).takeWhile (within max_index) := by
    rw [hq, hrest, List.takeWhile_cons_of_pos ht]
  refine ⟨?_, ?_, fun _ => ?_, fun epoch hepoch => ?_, h.ended, fun hnil => ?_⟩
  · rw [h.queue_eq, hq, hrest, List.dropWhile_cons_of_pos ht]
  · rw [h.stats_eq, htake, worth_cons]
    exact neglect_neglect ..
  · apply h.current
    rw [hrest]
    exact current_popped s.queue hq
  · have ht : t.verified_ticket.channel_epoch = epoch := hepoch t (by rw [hq]; exact List.mem_cons_self)
    have hcached := h.cached_eq epoch fun u hu => hepoch u (by rw [hq]; exact List.mem_cons_of_mem _ (hrest ▸ hu))
    rw [hcached, htake, worth_cons, ← HoprBalance.sub_sub]
    congr 1
    subst ht
    exact cached_popped s.queue hq
  · rw [htake] at hnil
    cases hnil

/-- The loop neglects the front of the queue. -/
theorem neglect_loop_run (n : Nat) (s : QueueWithStats Q) (hn : (tickets s.queue).length < n) :
    ∃ s', (neglect_loop max_index n).run s =
      .ok (((tickets s.queue).takeWhile (within max_index)).map (·.ticket)) s' ∧ Neglected max_index s s' := by
  induction n generalizing s with
  | zero => exact absurd hn (Nat.not_lt_zero _)
  | succ n ih =>
    simp only [neglect_loop, EStateM.run_bind]
    rcases neglect_next_cases max_index s with ⟨t, hhead, hle, hrun⟩ | ⟨hhead, hrun⟩
    · have hq : tickets s.queue = t :: (tickets s.queue).tail := (List.cons_head?_tail hhead).symm
      have ht : within max_index t = true := decide_eq_true hle
      have hrest : tickets (neglected_head t s).queue = (tickets s.queue).tail := tickets_popped s.queue
      obtain ⟨s', hloop, hs'⟩ := ih (neglected_head t s) (by
        rw [hrest, List.length_tail]
        rw [hq, List.length_cons] at hn
        rw [hq, List.length_cons]
        omega)
      refine ⟨s', ?_, hs'.cons hq ht⟩
      simp only [hrun, EStateM.run_bind, hloop, EStateM.run_pure]
      rw [hrest, hq, List.takeWhile_cons_of_pos ht]
      rfl
    · refine ⟨s, ?_, neglected_nothing (fun t ht => decide_eq_false (hhead t ht)) hrun⟩
      simp only [hrun, EStateM.run_pure]
      cases hq : tickets s.queue with
      | nil => rfl
      | cons t rest =>
        have hneg : ¬ within max_index t = true := by
          rw [within, decide_eq_true_eq]
          exact hhead t (by rw [hq]; rfl)
        rw [List.takeWhile_cons_of_neg hneg]
        rfl

end Loop

/-! ### The call -/

section Call
variable {Q ε : Type} [TicketQueue Q ε] {max_index : UInt64} {s : QueueWithStats Q}

theorem Neglected.single_epoch {s' : QueueWithStats Q} (hs : SingleEpoch s.queue)
    (h : Neglected max_index s s') : SingleEpoch s'.queue := by
  refine ⟨?_, h.current hs.current⟩
  intro t ht u hu
  rw [← tickets_eq, h.queue_eq] at ht hu
  exact hs.one_epoch t ((List.dropWhile_sublist _).mem ht) u ((List.dropWhile_sublist _).mem hu)

/-- The front of a queue is worth no more than the queue. -/
theorem worth_takeWhile_le (p : RedeemableTicket → Bool) (l : List RedeemableTicket) :
    (worth (l.takeWhile p)).amount ≤ (worth l).amount := by
  unfold worth
  rw [amount_sum_amounts, amount_sum_amounts]
  have hsplit : total l = total (l.takeWhile p) + total (l.dropWhile p) := by
    unfold total
    rw [← List.sum_append, ← List.map_append, List.takeWhile_append_dropWhile]
  omega

/-- The cached value falls by what was neglected, if it was the value of the queue. -/
theorem Neglected.cached_value {s' : QueueWithStats Q} (hs : SingleEpoch s.queue)
    (h : Neglected max_index s s')
    (hvalue : s.queue.cached_unrealized_value = worth (tickets s.queue)) :
    s'.queue.cached_unrealized_value.amount + (worth ((tickets s.queue).takeWhile (within max_index))).amount =
      s.queue.cached_unrealized_value.amount := by
  have hs' := h.single_epoch hs
  have hle := worth_takeWhile_le (within max_index) (tickets s.queue)
  cases hdrop : tickets s'.queue with
  | nil =>
    have hall : (tickets s.queue).takeWhile (within max_index) = tickets s.queue := by
      have hsplit := List.takeWhile_append_dropWhile (p := within max_index) (l := tickets s.queue)
      rwa [← h.queue_eq, hdrop, List.append_nil] at hsplit
    rw [hs'.cached_nil hdrop, hall, hvalue, HoprBalance.amount_zero, Nat.zero_add]
  | cons t rest =>
    have ht' : t ∈ tickets s'.queue := by
      rw [hdrop]
      exact List.mem_cons_self
    have ht : t ∈ tickets s.queue := by
      rw [h.queue_eq] at ht'
      exact (List.dropWhile_sublist _).mem ht'
    have hcached := h.cached_eq _ fun u hu => hs.one_epoch u hu t ht
    rw [hs'.cached_value ht', hcached, ← hs.cached_value ht, hvalue, HoprBalance.amount_sub]
    omega

variable [TicketBuilder] [TotalTicketQueue Q]

theorem neglect_tickets_run (up_to_index : Option UInt64) (s : QueueWithStats Q) :
    ∃ s', (neglect_tickets up_to_index).run s = .ok (((tickets s.queue).takeWhile
        (within (up_to_index.getD TicketBuilder.MAX_TICKET_INDEX))).map (·.ticket)) s' ∧
      Neglected (up_to_index.getD TicketBuilder.MAX_TICKET_INDEX) s s' := by
  simpa only [neglect_tickets, EStateM.run_bind, EStateM.run_get] using
    neglect_loop_run _ s (Nat.lt_succ_self _)

/-- Neglecting up to an index takes the tickets up to it, and accounts for them. -/
structure NeglectsPrefix (s s' : QueueWithStats Q) (up_to_index : Option UInt64)
    (neg : List VerifiedTicket) : Prop where
  /-- What is returned, in ascending order. -/
  returned : neg = ((tickets s.queue).filter
    (within (up_to_index.getD TicketBuilder.MAX_TICKET_INDEX))).map (·.ticket)
  ascending : ((tickets s.queue).filter
    (within (up_to_index.getD TicketBuilder.MAX_TICKET_INDEX))).Pairwise fun t u => t.key ≤ u.key
  kept : tickets s'.queue = (tickets s.queue).filter fun t =>
    !within (up_to_index.getD TicketBuilder.MAX_TICKET_INDEX) t
  everything : up_to_index = none →
    (∀ t ∈ tickets s.queue, t.verified_ticket.index ≤ TicketBuilder.MAX_TICKET_INDEX) →
    neg = (tickets s.queue).map (·.ticket) ∧ tickets s'.queue = []
  /-- The loop has ended. -/
  ended : (neglect_next (up_to_index.getD TicketBuilder.MAX_TICKET_INDEX)).run s' = .ok none s'
  stats : s'.stats = s.stats.neglect (HoprBalance.sum (neg.map (·.amount)))
  /-- The cached value falls by what was neglected. -/
  cached_value : s'.queue.cached_unrealized_value.amount + (HoprBalance.sum (neg.map (·.amount))).amount =
    s.queue.cached_unrealized_value.amount
  unchanged : (∀ t ∈ tickets s.queue,
    up_to_index.getD TicketBuilder.MAX_TICKET_INDEX < t.verified_ticket.index) → s' = s

/-- **Neglecting takes the tickets up to the index and accounts for them, for every bound, exactly if
the cached value is that of the queue.** -/
theorem neglects_prefix_iff (hs : SingleEpoch s.queue) :
    (∀ up_to_index, ∃ neg s', (neglect_tickets up_to_index).run s = .ok neg s' ∧
      NeglectsPrefix s s' up_to_index neg) ↔
    s.queue.cached_unrealized_value = worth (tickets s.queue) := by
  constructor
  · intro hall
    -- the largest bound takes everything
    obtain ⟨neg, s', hrun, hprefix⟩ := hall (some (.ofNat (2 ^ 64 - 1)))
    obtain ⟨s'', hrun', hneglected⟩ := neglect_tickets_run (some (.ofNat (2 ^ 64 - 1))) s
    cases hrun.symm.trans hrun'
    have hwithin : ∀ t ∈ tickets s.queue, within (.ofNat (2 ^ 64 - 1)) t = true := by
      intro t _
      apply decide_eq_true
      rw [UInt64.le_iff_toNat_le]
      exact Nat.le_of_lt_succ t.verified_ticket.index.toNat_lt
    have hnil : tickets s'.queue = [] := by
      rw [hneglected.queue_eq]
      exact List.dropWhile_eq_nil_iff.mpr hwithin
    have htaken : (tickets s.queue).takeWhile (within (.ofNat (2 ^ 64 - 1))) = tickets s.queue :=
      List.takeWhile_eq_self_iff.mpr hwithin
    have hvalue := hprefix.cached_value
    rw [(hneglected.single_epoch hs).cached_nil hnil, HoprBalance.amount_zero, Nat.zero_add,
      List.map_map] at hvalue
    ext
    rw [← hvalue]
    exact congrArg (fun l => (worth l).amount) htaken
  · intro hvalue up_to_index
    obtain ⟨s', hrun, hneglected⟩ := neglect_tickets_run up_to_index s
    have hfront := front_within (TotalTicketQueue.sorted s.queue) hs.one_epoch
      (up_to_index.getD TicketBuilder.MAX_TICKET_INDEX)
    have hamounts : HoprBalance.sum ((((tickets s.queue).takeWhile
        (within (up_to_index.getD TicketBuilder.MAX_TICKET_INDEX))).map (·.ticket)).map (·.amount)) =
        worth ((tickets s.queue).takeWhile (within (up_to_index.getD TicketBuilder.MAX_TICKET_INDEX))) := by
      rw [List.map_map]
      rfl
    refine ⟨_, s', hrun, ?_, ?_, ?_, ?_, hneglected.ended, ?_, ?_, ?_⟩
    · rw [hfront.takeWhile_eq]
    · exact (TotalTicketQueue.sorted s.queue).sublist List.filter_sublist
    · rw [hneglected.queue_eq, hfront.dropWhile_eq]
    · rintro rfl hle
      have hwithin : ∀ t ∈ tickets s.queue, within TicketBuilder.MAX_TICKET_INDEX t = true :=
        fun t ht => decide_eq_true (hle t ht)
      rw [Option.getD_none, List.takeWhile_eq_self_iff.mpr hwithin, hneglected.queue_eq]
      exact ⟨rfl, List.dropWhile_eq_nil_iff.mpr hwithin⟩
    · rw [hneglected.stats_eq, hamounts]
    · rw [hamounts]
      exact hneglected.cached_value hs hvalue
    · intro hbeyond
      apply hneglected.unchanged
      rw [hfront.takeWhile_eq, List.filter_eq_nil_iff]
      intro t ht hle
      exact absurd (of_decide_eq_true hle) (UInt64.not_le.mpr (hbeyond t ht))

end Call

/-! ### In every run -/

section Run
open Redemption
variable {Q ε : Type} [TicketQueue Q ε]

theorem single_epoch_start [CreatableQueue Q] : SingleEpoch (start : State Q).channel.queue := by
  have hnil : tickets (start : State Q).channel.queue.queue = [] := CreatableQueue.tickets_empty
  refine ⟨?_, ?_⟩
  · rw [hnil]
    exact fun t ht => (nomatch ht)
  · rw [hnil]
    rfl

variable [TotalTicketQueue Q] {replaces : RedeemableTicket → RedeemableTicket → Bool} {s : State Q}

/-- The epoch on record after a push is that of the ticket and of what was queued. -/
theorem single_epoch_pushed (hpush : Replaces Q replaces) {v : ValueCachedQueue Q} {t : RedeemableTicket}
    (hcurrent : v.current_epoch = (tickets v.queue).head?.map (·.verified_ticket.channel_epoch))
    (hsame : ∀ u ∈ tickets v.queue, u.verified_ticket.channel_epoch = t.verified_ticket.channel_epoch) :
    SingleEpoch (pushed t v) := by
  have hperm := hpush.pushed t v.queue
  have hall : ∀ u ∈ tickets (pushed t v.queue),
      u.verified_ticket.channel_epoch = t.verified_ticket.channel_epoch := by
    intro u hu
    obtain rfl | hu := List.mem_cons.mp (hperm.mem_iff.mp hu)
    · rfl
    · exact hsame u (List.mem_of_mem_filter hu)
  have hmax := max_current hcurrent hsame
  rw [pushed_eq]
  refine ⟨fun u hu w hw => (hall u hu).trans (hall w hw).symm, ?_⟩
  show some (max _ _) = (tickets (pushed t v.queue)).head?.map _
  rw [hmax]
  cases hq : tickets (pushed t v.queue) with
  | nil =>
    rw [hq] at hperm
    cases hperm.length_eq
  | cons u rest => rw [List.head?_cons, Option.map_some, hall u (by rw [hq]; exact List.mem_cons_self)]

theorem single_epoch_popped {v : ValueCachedQueue Q} (h : SingleEpoch v) : SingleEpoch (popped v) := by
  have hqueue : tickets (popped v).queue = (tickets v.queue).tail := tickets_popped v
  rw [← tickets_eq] at hqueue
  refine ⟨?_, ?_⟩
  · rw [← tickets_eq, hqueue]
    exact h.one_epoch.tail
  · rw [← tickets_eq, hqueue]
    cases hq : tickets v.queue with
    | nil =>
      rw [popped_eq, forget, hq, List.head?_nil]
      show v.current_epoch = _
      rw [h.current, hq]
      rfl
    | cons t rest => exact current_popped v hq

theorem single_epoch_drained {v : ValueCachedQueue Q} (h : SingleEpoch v) : SingleEpoch (drained v) :=
  drained_preserves (fun _ => single_epoch_popped) v h

theorem single_epoch_insert (hpush : Replaces Q replaces) (h : SingleEpoch s.channel.queue)
    (t : RedeemableTicket) : SingleEpoch (insert_step t s).channel.queue := by
  rcases insert_occupied_cases t s.channel with ⟨_, _, _, hrun⟩ | ⟨_, _, _, hrun⟩ | ⟨hhead, hrun⟩
  · rw [insert_step_eq hrun]
    have hdrained : tickets (drained s.channel.queue).queue = [] := tickets_drained s.channel.queue
    apply single_epoch_pushed hpush
    · exact (single_epoch_drained h).current
    · rw [hdrained]
      exact fun u hu => (nomatch hu)
  · rw [insert_step_eq hrun]
    exact h
  · rw [insert_step_eq hrun]
    apply single_epoch_pushed hpush h.current
    intro u hu
    cases hq : (tickets s.channel.queue).head? with
    | none =>
      rw [← tickets_eq, List.head?_eq_none_iff.mp hq] at hu
      cases hu
    | some last => rw [h.one_epoch u hu last (List.mem_of_head? hq), hhead last hq]

theorem single_epoch_complete (h : SingleEpoch s.channel.queue) (t : RedeemableTicket)
    (result : RedemptionResult) : SingleEpoch (completed t result s.channel).queue := by
  unfold completed
  split
  · exact single_epoch_popped h
  · exact h

variable [TicketBuilder]

theorem single_epoch_step (hpush : Replaces Q replaces) {s' : State Q} {a : Action}
    (h : SingleEpoch s.channel.queue) (hs : step s a = some s') : SingleEpoch s'.channel.queue := by
  cases a with
  | insert_incoming_ticket t =>
    cases hs
    exact single_epoch_insert hpush h t
  | neglect_tickets up_to_index =>
    cases hs
    obtain ⟨c, hrun, hneglected⟩ := neglect_tickets_run up_to_index s.channel
    unfold neglect_step
    rw [hrun]
    exact hneglected.single_epoch h
  | redeem_stream min_amount =>
    cases hs
    unfold redeem_stream_step
    split
    · exact h
    · exact h
  | peek =>
    simp only [step] at hs
    split at hs
    · cases hs
      rw [peek_step_eq]
      cases (tickets s.channel.queue).head? <;> exact h
    · cases hs
  | complete chain =>
    simp only [step] at hs
    split at hs
    · cases hs
      rename_i t _
      rcases complete_step_cases ⟨_, some t⟩ t chain s with ⟨result, _, heq⟩ | heq
      · rw [heq]
        exact single_epoch_complete h t result
      · rw [heq]
        exact h
    · cases hs
  | drop =>
    simp only [step] at hs
    split at hs
    · cases hs
      exact h
    · cases hs

/-- In every run the queue is of one epoch, which the cache has on record. -/
theorem single_epoch_run [CreatableQueue Q] (hpush : Replaces Q replaces) {as : List Action}
    (hrun : (machine Q).run start as = some s) : SingleEpoch s.channel.queue :=
  (machine Q).run_invariant_of_step (fun _ _ _ h hs => single_epoch_step hpush h hs) hrun single_epoch_start

end Run

section Concrete
open Redemption

local instance : TicketBuilder := .bits48

/-- The first of two tickets is neglected. -/
theorem neglects_prefix_first : ∃ s : State MemoryTicketQueue,
    (machine MemoryTicketQueue).run start
      [.insert_incoming_ticket (.of 1 2 4 10), .insert_incoming_ticket (.of 1 2 6 20)] = some s ∧
    ∃ neg c, (neglect_tickets (some 5)).run s.channel = .ok neg c ∧ NeglectsPrefix s.channel c (some 5) neg := by
  obtain ⟨s, hs, hvalue⟩ : ∃ s : State MemoryTicketQueue, (machine MemoryTicketQueue).run start
      [.insert_incoming_ticket (.of 1 2 4 10), .insert_incoming_ticket (.of 1 2 6 20)] = some s ∧
      s.channel.queue.cached_unrealized_value = worth (tickets s.channel.queue) :=
    (machine MemoryTicketQueue).exists_run (by decide +kernel)
  have hsingle := single_epoch_run (replaces_nothing MemoryTicketQueue) hs
  exact ⟨s, hs, (neglects_prefix_iff hsingle).mpr hvalue (some 5)⟩

/-- **Of two tickets with one epoch and index a table keeps the second**: when it is neglected, the
cached value falls by the value of both. -/
theorem replaced_value_neglected : ∃ s : State OpenQueue,
    (machine OpenQueue).run start
      [.insert_incoming_ticket (.of 1 2 4 10), .insert_incoming_ticket (.of 1 2 4 20)] = some s ∧
    SingleEpoch s.channel.queue ∧ s.channel.queue.cached_unrealized_value = .ofNat 30 ∧
    (∃ c, (neglect_tickets none).run s.channel = .ok [(RedeemableTicket.of 1 2 4 20).ticket] c ∧
      c.queue.cached_unrealized_value = 0 ∧ c.stats.neglected_value = .ofNat 20) ∧
    ¬ ∃ neg c, (neglect_tickets none).run s.channel = .ok neg c ∧ NeglectsPrefix s.channel c none neg := by
  obtain ⟨s, hs, hqueue, hvalue, hstats⟩ : ∃ s : State OpenQueue, (machine OpenQueue).run start
      [.insert_incoming_ticket (.of 1 2 4 10), .insert_incoming_ticket (.of 1 2 4 20)] = some s ∧
      tickets s.channel.queue = [.of 1 2 4 20] ∧ s.channel.queue.cached_unrealized_value = .ofNat 30 ∧
      s.channel.stats.neglected_value = 0 := (machine OpenQueue).exists_run (by decide +kernel)
  have hsingle := single_epoch_run OpenQueue.replaces_same_place hs
  obtain ⟨c, hrun, hneglected⟩ := neglect_tickets_run none s.channel
  have hleft : tickets c.queue = [] := by
    rw [hneglected.queue_eq, hqueue]
    decide
  have hcached := (hneglected.single_epoch hsingle).cached_nil hleft
  have hneg := congrArg ChannelTicketStats.neglected_value hneglected.stats_eq
  rw [hqueue] at hrun
  refine ⟨s, hs, hsingle, hvalue, ⟨c, hrun, hcached, ?_⟩, ?_⟩
  · rw [hneg, hqueue]
    show s.channel.stats.neglected_value + _ = _
    rw [hstats]
    decide +kernel
  · intro ⟨neg, c', hrun', hprefix⟩
    cases hrun.symm.trans hrun'
    have hfalls := hprefix.cached_value
    rw [hcached, hvalue] at hfalls
    revert hfalls
    decide +kernel

end Concrete

end Hopr.TicketManager.Neglection
