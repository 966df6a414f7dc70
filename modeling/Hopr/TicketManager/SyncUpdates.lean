import Hopr.Library.Places
import Hopr.TicketManager.Consistency
import Hopr.TicketManager.Memory
import Hopr.TicketManager.Operation

/-! Synchronizing while tickets come and go.

The new entry of a channel is a snapshot of the stored queue. What is written
between the snapshot and its way into the map through the old entry, or later
through an entry that was replaced, reaches the queue but not the new cache; and
what is inserted between the deletion of a queue and that of its entry is lost
with the entry. `WritesCurrent` excludes such writes. In a run without them every
cache agrees with its queue whenever no synchronization is under way, and a
ticket that was inserted is queued until it is returned as neglected or handed a
result (`nothing_lost`). -/
namespace Hopr.TicketManager.SyncUpdates
open Library Heap TicketQueue ValueCachedQueue QueueWithStats HoprTicketManager Consistency Operation

/-- How far a synchronization is with a channel. -/
def phase_at : SyncStep → ChannelId → Phase
  | .remove id' _, id => if id' = id then .deleted else .steady
  | .count id' r _, id => if id' = id then .opened r else .steady
  | .replace id' v _, id => if id' = id then .counted v else .steady
  | _, _ => .steady

def phase : Option Synchronizing → ChannelId → Phase
  | some y => phase_at y.at_step
  | none => fun _ => .steady

section Turns
variable {Q ε : Type} [TicketQueue Q ε]

/-- The tickets that were queued stay so, or are returned as neglected with what already was. -/
structure NoneLost (m m' : HoprTicketManager Q) (neglected neglected' : List VerifiedTicket) : Prop where
  neglected : ∀ v ∈ neglected, v ∈ neglected'
  queued : ∀ u, Queued m u → Queued m' u ∨ u.ticket ∈ neglected'

variable {m m' : HoprTicketManager Q} {st : TicketStore Q} {phase : ChannelId → Phase} {id : ChannelId}
  {neglected : List VerifiedTicket}

theorem NoneLost.of_store (h : m'.store = m.store) : NoneLost m m' neglected neglected := by
  refine ⟨fun _ hv => hv, fun u hu => Or.inl ?_⟩
  unfold Queued
  rw [h]
  exact hu

/-- The queue of one channel changes, and what it held is kept or was taken from it. -/
theorem NoneLost.of_channel (honly : OnlyChanges id m.store st) {taken : List VerifiedTicket}
    (hid : ∀ r u, m.store.tickets.lookup id = some r → u ∈ tickets (m.store.queues.cell r) →
      u.ticket.channel_id = id → Queued {m with store := st} u ∨ u.ticket ∈ taken) :
    NoneLost m {m with store := st} neglected (neglected ++ taken) := by
  refine ⟨fun _ hv => List.mem_append_left _ hv, fun u hu => ?_⟩
  by_cases hsame : u.ticket.channel_id = id
  · obtain ⟨r, hr, hmem⟩ := hu
    exact (hid r u (hsame ▸ hr) hmem hsame).imp_right (List.mem_append_right _)
  · exact Or.inl (onlyChanges_queued honly hu hsame)

/-- The synchronization comes to a step of one channel, which alone is out of the ordinary. -/
theorem ordered_turn (h : Ordered m phase) (hst : Stored st) (honly : OnlyChanges id m.store st)
    (hphase : ∀ id', id' ≠ id → phase id' = .steady) {p : Phase} (hid : InOrder {m with store := st} id p) :
    Ordered {m with store := st} fun id' => if id = id' then p else .steady := by
  refine h.change_store hst honly (fun id' hne => ?_) ?_
  · rw [if_neg (Ne.symm hne), hphase id' hne]
  · show InOrder _ id (if id = id then p else .steady)
    rw [if_pos rfl]
    exact hid

theorem in_order_turn {p : Phase} (h : Ordered m fun id' => if id = id' then p else .steady) :
    InOrder m id p := by
  have hid : InOrder m id (if id = id then p else .steady) := h.in_order id
  rw [if_pos rfl] at hid
  exact hid

end Turns

section Machine
variable {Q ε : Type} [TicketQueue Q ε] [InfallibleTicketQueue Q] [CreatableQueue Q]

/-- A queue is opened, or created, and the tickets `l` are pruned from it. -/
theorem prune_turn {m : HoprTicketManager Q} (h : Ordered m fun _ => .steady)
    (neglected : List VerifiedTicket) (channel : ChannelEntry) :
    ∃ r st l q, (TicketStore.open_or_create_queue (ε := ε) channel.id).run m.store = .ok r st ∧
      (prune (ε := ε) channel).run (st.queues.cell r) = .ok l q ∧
      Ordered {m with store := {st with queues := st.queues.set r q}}
        (fun id => if channel.id = id then .opened r else .steady) ∧
      NoneLost m {m with store := {st with queues := st.queues.set r q}} neglected (neglected ++ l) := by
  obtain ⟨r, st, hopen, hst, honly, hr, hold⟩ := h.stored.open (ε := ε) channel.id
  obtain ⟨q, hprune, hleft⟩ := prune_run (ε := ε) channel (st.queues.cell r)
  generalize hl : (tickets (st.queues.cell r)).takeWhile (outdated channel) = l at hprune
  replace hl : tickets (st.queues.cell r) = l ++ tickets q := by
    rw [← hl, hleft, List.takeWhile_append_dropWhile]
  obtain ⟨hst', honly'⟩ := hst.set hr (q := q) (hl ▸ hst.sound _ r hr).suffix
  refine ⟨r, st, l.map (·.ticket), q, hopen, hprune,
    ordered_turn h hst' (honly.trans honly') (fun _ _ => rfl) ⟨hr, fun e he => ?_⟩,
    .of_channel (honly.trans honly') fun r' u hr' hmem hid => ?_⟩
  · -- an entry in the map has a stored queue, which was opened
    have hhandle := (h.in_order channel.id e he).1
    rcases hold with ⟨hr', _⟩ | ⟨hnone, _⟩
    · exact Option.some.inj (hhandle.symm.trans hr')
    · cases hnone.symm.trans hhandle
  · rcases hold with ⟨hr'', rfl⟩ | ⟨hnone, _⟩
    · obtain rfl := Option.some.inj (hr'.symm.trans hr'')
      rw [hl] at hmem
      rcases List.mem_append.mp hmem with hin | hin
      · exact Or.inr (List.mem_map_of_mem hin)
      · refine Or.inl ⟨r', hid ▸ hr, ?_⟩
        show u ∈ tickets ((m.store.queues.set r' q).cell r')
        rw [cell_set_self]
        exact hin
    · cases hnone.symm.trans hr'

variable [ChannelClock]

/-- A step of a synchronization keeps the channels in order, and returns as neglected what it takes
from a queue. -/
theorem sync_tick_ordered {m : HoprTicketManager Q} {y : Synchronizing}
    (h : Ordered m (phase_at y.at_step)) :
    ∃ o m', (Hopr.TicketManager.sync_tick (ε := ε) y).run m = .ok o m' ∧ Ordered m' (phase o) ∧
      (o = none ∧ m' = m ∨ ∃ y', o = some y' ∧ NoneLost m m' y.neglected y'.neglected) := by
  obtain ⟨incoming, now, neglected, at_step⟩ := y
  cases at_step with
  | purge stored_queues =>
    cases stored_queues with
    | nil => exact ⟨_, m, rfl, h, Or.inr ⟨_, rfl, .of_store rfl⟩⟩
    | cons id rest =>
      unfold Hopr.TicketManager.sync_tick
      dsimp only
      split
      · exact ⟨_, m, rfl, h, Or.inr ⟨_, rfl, .of_store rfl⟩⟩
      · obtain ⟨neg, st, hrun, hst, honly, hneg⟩ := h.stored.delete (ε := ε) id
        refine ⟨some ⟨incoming, now, neglected ++ neg, .remove id rest⟩, {m with store := st}, ?_,
          ordered_turn h hst honly (fun _ _ => rfl) trivial,
          Or.inr ⟨_, rfl, .of_channel honly fun r u hr hmem _ => Or.inr (hneg r u hr hmem)⟩⟩
        simp only [EStateM.run_bind, onStore_run hrun, EStateM.run_pure]
  | remove id rest =>
    refine ⟨_, _, rfl, h.erase (fun id' hne => ?_) rfl, Or.inr ⟨_, rfl, .of_store rfl⟩⟩
    exact (if_neg (Ne.symm hne)).symm
  | load channels =>
    cases channels with
    | nil => exact ⟨none, m, rfl, h, Or.inl ⟨rfl, rfl⟩⟩
    | cons channel rest =>
      obtain ⟨r, st, l, q, hopen, hprune, hordered, hkept⟩ :=
        prune_turn (ε := ε) h neglected channel
      have hpruned := onStore_run (s := {m with store := st}) (TicketStore.on_queue_run hprune)
      refine ⟨some ⟨incoming, now, neglected ++ l, .count channel.id r rest⟩, _, ?_, hordered,
        Or.inr ⟨_, rfl, hkept⟩⟩
      simp only [Hopr.TicketManager.sync_tick, EStateM.run_bind, onStore_run hopen, hpruned,
        EStateM.run_pure]
  | count id r rest =>
    have hid : InOrder m id (.opened r) := in_order_turn h
    have hsound := h.stored.sound id r hid.1
    obtain ⟨v, hnew, rfl, hv⟩ := coherent_new (ε := ε) r (m.store.queues.cell r) hsound.one_epoch
      hsound.fits
    refine ⟨some ⟨incoming, now, neglected, .replace id v rest⟩, m, ?_,
      ordered_turn h h.stored (.refl id _) (fun id' hne => if_neg (Ne.symm hne)) ⟨hid.1, hv⟩,
      Or.inr ⟨_, rfl, .of_store rfl⟩⟩
    simp only [Hopr.TicketManager.sync_tick, EStateM.run_bind,
      onStore_run (TicketStore.on_queue_read hnew), EStateM.run_pure]
  | replace id v rest =>
    have hid : InOrder m id (.counted v) := in_order_turn h
    obtain ⟨stats, hentry⟩ : ∃ stats, (new_entry (ε := ε) v).run m.store = .ok ⟨v, stats, false⟩ m.store :=
      ⟨_, new_entry_run v m.store⟩
    refine ⟨some ⟨incoming, now, neglected, .load rest⟩, m.place id ⟨v, stats, false⟩, ?_,
      h.place hid.1 hid.2 (fun id' hne => ?_) rfl, Or.inr ⟨_, rfl, .of_store rfl⟩⟩
    · simp only [Hopr.TicketManager.sync_tick, EStateM.run_bind, onStore_run hentry,
        EStateM.run_modify, EStateM.run_pure]
    · exact (if_neg (Ne.symm hne)).symm

end Machine

/-! ### Writes through the channel's entry -/

/-- The entry is the channel's, and is not about to be removed or replaced. -/
def Writable {Q : Type} (s : State Q) (id : ChannelId) (e : EntryRef) : Prop :=
  s.manager.channel_tickets.lookup id = some e ∧ ∀ y ∈ s.sync, unseats y.at_step ≠ some id

instance {Q : Type} (s : State Q) (id : ChannelId) (e : EntryRef) : Decidable (Writable s id e) :=
  inferInstanceAs (Decidable (_ ∧ _))

section Machine
variable {Q ε : Type} [TicketQueue Q ε]

/-- A ticket comes to the channel's entry, and the amounts of its epoch fit a balance. -/
def Fits (s : State Q) (t : RedeemableTicket) : Prop :=
  ∀ e ∈ s.manager.channel_tickets.lookup t.ticket.channel_id,
    epoch_total t.verified_ticket.channel_epoch (tickets (s.manager.view e).queue) +
      t.verified_ticket.amount.amount ≤ HoprBalance.MAX

/-- What is written through an entry, is written through the one of the channel, while it is not
about to be removed or replaced. -/
def WritesCurrent (s : State Q) : Action → Prop
  | .insert_incoming_ticket t => Fits s t ∧
      ∀ e ∈ s.manager.channel_tickets.lookup t.ticket.channel_id, Writable s t.ticket.channel_id e
  | .neglect_next j => ∀ o ∈ s.neglecting[j]?, ∀ c ∈ o,
      ∀ t ∈ (tickets (s.manager.view c.queue).queue).head?, t.verified_ticket.index ≤ c.max_index →
        Writable s c.channel_id c.queue
  | .complete i chain => ∀ o ∈ s.streams[i]?, ∀ r ∈ o, ∀ t ∈ r.in_flight,
      (redeem_attempt (ε := ε) r.min_redeem_value t chain).isOk →
        (tickets (s.manager.view r.lock).queue).head? = some t → Writable s r.channel_id r.lock
  | _ => True

instance (s : State Q) (t : RedeemableTicket) : Decidable (Fits s t) :=
  inferInstanceAs (Decidable (∀ e ∈ s.manager.channel_tickets.lookup t.ticket.channel_id, _))

instance : ∀ (s : State Q) a, Decidable (WritesCurrent s a)
  | s, .insert_incoming_ticket t => inferInstanceAs (Decidable (Fits s t ∧
      ∀ e ∈ s.manager.channel_tickets.lookup t.ticket.channel_id, Writable s t.ticket.channel_id e))
  | s, .neglect_next j => inferInstanceAs (Decidable (∀ o ∈ s.neglecting[j]?, ∀ c ∈ o,
      ∀ t ∈ (tickets (s.manager.view c.queue).queue).head?, _))
  | s, .complete i chain => inferInstanceAs (Decidable (∀ o ∈ s.streams[i]?, ∀ r ∈ o,
      ∀ t ∈ r.in_flight, (redeem_attempt (ε := ε) r.min_redeem_value t chain).isOk → _))
  | _, .neglect_tickets _ _ | _, .redeem_stream _ _ | _, .peek _ | _, .drop _ => .isTrue trivial
  | _, .sync_from_incoming_channels _ _ | _, .sync_tick => .isTrue trivial

theorem Writable.current {s : State Q} {id : ChannelId} {e : EntryRef} (h : Writable s id e) :
    Current s.manager (phase s.sync) id e := by
  have hstep : ∀ at_step, unseats at_step ≠ some id →
      phase_at at_step id = .steady ∨ ∃ r, phase_at at_step id = .opened r := by
    intro at_step hne
    cases at_step with
    | purge _ => exact Or.inl rfl
    | load _ => exact Or.inl rfl
    | count id' r _ =>
      by_cases hid : id' = id
      · exact Or.inr ⟨r, if_pos hid⟩
      · exact Or.inl (if_neg hid)
    | remove id' _ => exact Or.inl (if_neg fun hid => hne (congrArg some hid))
    | replace id' _ _ => exact Or.inl (if_neg fun hid => hne (congrArg some hid))
  refine ⟨h.1, ?_⟩
  cases hy : s.sync with
  | none => exact Or.inl rfl
  | some y => exact hstep y.at_step (h.2 y hy)

end Machine

/-! ### Every interleaving -/

section Interleavings
variable {Q ε : Type}

/-- A call returned the ticket as neglected, or will when it ends. -/
def Neglected (s : State Q) (v : VerifiedTicket) : Prop :=
  v ∈ s.neglected ∨ (∃ (j : Nat) (c : Neglecting), s.neglecting[j]? = some (some c) ∧
    v ∈ c.neglected_tickets) ∨ ∃ y, s.sync = some y ∧ v ∈ y.neglected

variable [TicketQueue Q ε]

/-- The ticket is queued, neglected or has a result. -/
def Accounted (s : State Q) (t : RedeemableTicket) : Prop :=
  Queued s.manager t ∨ Neglected s t.ticket ∨ t ∈ s.results.map Prod.fst

/-- The channels are in order, and no ticket is lost. -/
structure Synced (s : State Q) : Prop where
  ordered : Ordered s.manager (phase s.sync)
  accounted : ∀ t ∈ s.inserted, Accounted s t

/-- Nobody forgets what a call returned or will return. -/
def Remembers (s s' : State Q) : Prop :=
  (∀ v, Neglected s v → Neglected s' v) ∧ s.results ⊆ s'.results

theorem Accounted.remembered {s s' : State Q} {t : RedeemableTicket} (h : Accounted s t)
    (hm : Remembers s s') (hqueued : Queued s.manager t → Accounted s' t) : Accounted s' t := by
  rcases h with h | h | h
  · exact hqueued h
  · exact Or.inr (Or.inl (hm.1 _ h))
  · exact Or.inr (Or.inr (List.map_subset _ hm.2 h))

/-- A step that only reads the queues. -/
theorem Synced.reads {s s' : State Q} (h : Synced s) (hm : SameQueues s.manager s'.manager)
    (hsync : s'.sync = s.sync) (hinserted : s'.inserted = s.inserted) (hr : Remembers s s') :
    Synced s' := by
  refine ⟨hsync ▸ h.ordered.same_queues hm, fun t ht => ?_⟩
  refine (h.accounted t (hinserted ▸ ht)).remembered hr fun hq => Or.inl ?_
  unfold Queued
  rw [hm.store]
  exact hq

theorem Synced.close {s s' : State Q} (h : Synced s) (i : Nat) (r : RedeemState)
    (hs' : s' = s.close i r) : Synced s' := by
  subst hs'
  exact h.reads (sameQueues_set_redeem_lock s.manager r.lock false) rfl rfl
    ⟨fun _ hv => hv, fun _ hr => hr⟩

end Interleavings

section Steps
variable {Q ε : Type} [TicketQueue Q ε]

theorem stored_empty [CreatableQueue Q] : Stored (TicketStore.empty : TicketStore Q) :=
  ⟨named_empty _, fun _ _ hr => (nomatch hr)⟩

theorem synced_start {store : TicketStore Q} (h : Stored store) : Synced (Operation.start store) :=
  ⟨⟨h, named_empty _, fun _ _ he => (nomatch he)⟩, fun _ ht => (nomatch ht)⟩

variable [InfallibleTicketQueue Q]

theorem synced_insert [CreatableQueue Q] {s : State Q} {t : RedeemableTicket} (h : Synced s)
    (hwaits : waits t s = false) (hc : WritesCurrent s (.insert_incoming_ticket t)) :
    Synced (insert_step t s) := by
  have hfirst : s.manager.channel_tickets.lookup t.ticket.channel_id = none →
      phase s.sync = fun _ => .steady := by
    intro hnone
    cases hy : s.sync with
    | none => rfl
    | some y => simp [waits, hy, hnone] at hwaits
  have hcurrent := fun e he => And.intro (hc.2 e he).current (hc.1 e he)
  unfold insert_step
  rcases insert_ordered (ε := ε) h.ordered hfirst hcurrent with
    ⟨err, hrun⟩ | ⟨neg, m', hrun, hordered, hkeep⟩
  · rw [hrun]
    exact h
  · rw [hrun]
    refine ⟨hordered, fun u hu => ?_⟩
    have hkept : u = t ∨ Queued s.manager u → Accounted {s with
        manager := m', inserted := s.inserted ++ [t], neglected := s.neglected ++ neg} u := by
      intro hin
      rcases hkeep u hin with hq | hneg
      · exact Or.inl hq
      · exact Or.inr (Or.inl (Or.inl (List.mem_append_right _ hneg)))
    rcases List.mem_append.mp hu with hu | hu
    · refine (h.accounted u hu).remembered ⟨fun v hv => ?_, fun _ hr => hr⟩ fun hq => hkept (Or.inr hq)
      exact hv.imp_left (List.mem_append_left neg)
    · exact hkept (Or.inl (List.mem_singleton.mp hu))

theorem synced_neglect_next {s : State Q} {j : Nat} {c : Neglecting} (h : Synced s)
    (hj : s.neglecting[j]? = some (some c)) (hc : WritesCurrent s (.neglect_next j)) :
    Synced (neglect_next_step j c s) := by
  obtain ⟨o, m', hrun, hordered, hkeep⟩ := neglect_next_ordered (ε := ε) h.ordered
    (fun t ht hle => (hc _ hj c rfl t ht hle).current)
  unfold neglect_next_step
  rw [hrun]
  cases o with
  | none =>
    refine ⟨hordered, fun u hu => (h.accounted u hu).remembered ⟨fun v hv => ?_, fun _ hr => hr⟩
      fun hq => Or.inl ?_⟩
    · rcases hv with hv | ⟨k, c', hk, hv⟩ | hv
      · exact Or.inl (List.mem_append_left _ hv)
      · by_cases hkj : j = k
        · subst hkj
          cases Option.some.inj (hj.symm.trans hk)
          exact Or.inl (List.mem_append_right _ hv)
        · exact Or.inr (Or.inl ⟨k, c', (List.getElem?_set_ne hkj).trans hk, hv⟩)
      · exact Or.inr (Or.inr hv)
    · rcases hkeep u hq with hq | ⟨_, hnone, _⟩
      · exact hq
      · cases hnone
  | some neg =>
    have hself := Places.set_self (a := some {c with neglected_tickets := c.neglected_tickets ++ neg}) hj
    refine ⟨hordered, fun u hu => (h.accounted u hu).remembered ⟨fun v hv => ?_, fun _ hr => hr⟩
      fun hq => ?_⟩
    · rcases hv with hv | ⟨k, c', hk, hv⟩ | hv
      · exact Or.inl hv
      · by_cases hkj : j = k
        · subst hkj
          cases Option.some.inj (hj.symm.trans hk)
          exact Or.inr (Or.inl ⟨j, _, hself, List.mem_append_left _ hv⟩)
        · exact Or.inr (Or.inl ⟨k, c', (List.getElem?_set_ne hkj).trans hk, hv⟩)
      · exact Or.inr (Or.inr hv)
    · rcases hkeep u hq with hq | ⟨_, hneg, hv⟩
      · exact Or.inl hq
      · cases hneg
        exact Or.inr (Or.inl (Or.inr (Or.inl ⟨j, _, hself, List.mem_append_right _ hv⟩)))

theorem synced_peek {s : State Q} {i : Nat} {r : RedeemState} (h : Synced s) :
    Synced (peek_step i r s) := by
  have hrun := on_entry_run (QueueWithStats.peek_run (s.manager.view r.lock))
  rw [put_view] at hrun
  unfold peek_step
  rw [hrun]
  cases (tickets (s.manager.view r.lock).queue).head? with
  | none => exact h.close i r rfl
  | some t => exact h.reads ⟨rfl, rfl, rfl, fun _ => rfl⟩ rfl rfl ⟨fun _ hv => hv, fun _ hr => hr⟩

theorem synced_complete {s : State Q} {i : Nat} {r : RedeemState} {t : RedeemableTicket}
    {chain : ChainResult} (h : Synced s) (hi : s.streams[i]? = some (some r))
    (ht : r.in_flight = some t) (hc : WritesCurrent s (.complete i chain)) :
    Synced (complete_step i r t chain s) := by
  unfold complete_step
  cases hresult : redeem_attempt (ε := ε) r.min_redeem_value t chain with
  | error err => exact h.close i r rfl
  | ok result =>
    have hok : (redeem_attempt (ε := ε) r.min_redeem_value t chain).isOk = true := by
      rw [hresult]
      rfl
    obtain ⟨m', hrun, hordered, hkeep⟩ := complete_redeem_ordered (ε := ε) h.ordered result
      (fun hhead => (hc _ hi r rfl t ht hok hhead).current)
    dsimp only
    rw [hrun]
    refine ⟨hordered, fun u hu => (h.accounted u hu).remembered
      ⟨fun _ hv => hv, List.subset_append_left _ _⟩ fun hq => ?_⟩
    rcases hkeep u hq with hq | rfl
    · exact Or.inl hq
    · refine Or.inr (Or.inr ?_)
      rw [List.map_append]
      exact List.mem_append_right _ (List.mem_singleton_self u)

theorem synced_sync [CreatableQueue Q] [ChannelClock] {s : State Q} {y : Synchronizing}
    (h : Synced s) (hy : s.sync = some y) : Synced (sync_step y s) := by
  have hordered := h.ordered
  rw [hy] at hordered
  obtain ⟨o, m', hrun, hordered', hgoes⟩ := sync_tick_ordered (ε := ε) hordered
  unfold sync_step
  rw [hrun]
  rcases hgoes with ⟨rfl, rfl⟩ | ⟨y', rfl, hkept⟩
  · refine ⟨hordered', fun u hu => (h.accounted u hu).remembered ⟨fun v hv => ?_, fun _ hr => hr⟩ Or.inl⟩
    rcases hv with hv | hv | ⟨y', hy', hv⟩
    · exact Or.inl (List.mem_append_left _ hv)
    · exact Or.inr (Or.inl hv)
    · cases hy.symm.trans hy'
      exact Or.inl (List.mem_append_right _ hv)
  · refine ⟨hordered', fun u hu => (h.accounted u hu).remembered ⟨fun v hv => ?_, fun _ hr => hr⟩
      fun hq => ?_⟩
    · rcases hv with hv | hv | ⟨y'', hy', hv⟩
      · exact Or.inl hv
      · exact Or.inr (Or.inl hv)
      · cases hy.symm.trans hy'
        exact Or.inr (Or.inr ⟨y', rfl, hkept.neglected v hv⟩)
    · exact (hkept.queued u hq).imp_right fun hv => Or.inl (Or.inr (Or.inr ⟨y', rfl, hv⟩))

/-- Every step keeps the channels in order and every ticket accounted for. -/
theorem synced_step [CreatableQueue Q] [TicketBuilder] [ChannelClock] {s s' : State Q} {a : Action}
    (hc : WritesCurrent s a) (h : Synced s) (hs : step s a = some s') : Synced s' := by
  cases a with
  | insert_incoming_ticket t =>
    simp only [step] at hs
    split at hs
    · cases hs
    · rename_i hwaits
      obtain rfl := Option.some.inj hs
      exact synced_insert h (Bool.eq_false_iff.mpr hwaits) hc
  | neglect_tickets id up_to_index =>
    obtain rfl := Option.some.inj hs
    unfold neglect_step
    split
    · refine ⟨h.ordered, fun u hu => (h.accounted u hu).remembered ⟨fun v hv => ?_, fun _ hr => hr⟩
        Or.inl⟩
      rcases hv with hv | ⟨j, c, hj, hv⟩ | hv
      · exact Or.inl hv
      · exact Or.inr (Or.inl ⟨j, c, Places.concat_old hj, hv⟩)
      · exact Or.inr (Or.inr hv)
    · exact h
  | neglect_next j =>
    simp only [step] at hs
    split at hs
    · rename_i hj
      obtain rfl := Option.some.inj hs
      exact synced_neglect_next h hj hc
    · cases hs
  | redeem_stream id min =>
    obtain rfl := Option.some.inj hs
    unfold redeem_stream_step
    rcases redeem_stream_cases (ε := ε) id min s.manager with
      ⟨_, hrun⟩ | ⟨_, _, _, hrun⟩ | ⟨e, _, _, hrun⟩
    · rw [hrun]
      exact h
    · rw [hrun]
      exact h
    · rw [hrun]
      exact h.reads (sameQueues_set_redeem_lock s.manager e true) rfl rfl
        ⟨fun _ hv => hv, fun _ hr => hr⟩
  | peek i =>
    simp only [step] at hs
    split at hs
    · obtain rfl := Option.some.inj hs
      exact synced_peek h
    · cases hs
  | complete i chain =>
    simp only [step] at hs
    split at hs
    · rename_i hi
      obtain rfl := Option.some.inj hs
      exact synced_complete h hi rfl hc
    · cases hs
  | drop i =>
    simp only [step] at hs
    split at hs
    · rename_i r _
      obtain rfl := Option.some.inj hs
      exact h.close i r rfl
    · cases hs
  | sync_from_incoming_channels incoming now =>
    simp only [step] at hs
    split at hs
    · rename_i hnone
      obtain rfl := Option.some.inj hs
      have hordered := h.ordered
      rw [hnone] at hordered
      refine ⟨hordered, fun u hu => (h.accounted u hu).remembered ⟨fun v hv => ?_, fun _ hr => hr⟩ Or.inl⟩
      rcases hv with hv | hv | ⟨y, hy, _⟩
      · exact Or.inl hv
      · exact Or.inr (Or.inl hv)
      · cases hnone.symm.trans hy
    · cases hs
  | sync_tick =>
    simp only [step] at hs
    split at hs
    · rename_i y hy
      obtain rfl := Option.some.inj hs
      exact synced_sync h hy
    · cases hs

variable [CreatableQueue Q]

/-- In a run that writes through the channels' entries only, and not while they are about to be
removed or replaced, every cached value is the total of the stored queue whenever no synchronization
is under way; and when no call that neglects is either, a ticket that was inserted and has neither
been returned nor handed a result is queued. -/
theorem nothing_lost [TicketBuilder] [ChannelClock] {store : TicketStore Q} (hstore : Stored store)
    {as : List Action} {s : State Q}
    (hc : (machine Q).Meets WritesCurrent (Operation.start store) as)
    (hrun : (machine Q).run (Operation.start store) as = some s) (hsync : s.sync = none)
    (hneglecting : ∀ c ∈ s.neglecting, c = none) :
    (∀ id e, s.manager.channel_tickets.lookup id = some e → ∃ r,
      s.manager.store.tickets.lookup id = some r ∧
      (s.manager.view e).queue.cached_unrealized_value.amount =
        total (tickets (s.manager.store.queues.cell r))) ∧
    ∀ t ∈ s.inserted, t.ticket ∉ s.neglected → t ∉ s.results.map Prod.fst →
      Queued s.manager t := by
  have h : Synced s := (machine Q).run_invariant (fun s a s' hc h hs => synced_step hc h hs) hc hrun
    (synced_start hstore)
  have hordered := h.ordered
  rw [hsync] at hordered
  refine ⟨fun id e he => ?_, fun t ht hneg hres => ?_⟩
  · obtain ⟨hr, hcoherent⟩ := hordered.in_order id e he
    exact ⟨s.manager.handle e, hr, hcoherent.cached_unrealized_value⟩
  · rcases h.accounted t ht with hq | (hv | ⟨j, c, hj, _⟩ | ⟨y, hy, _⟩) | hr
    · exact hq
    · exact absurd hv hneg
    · cases hneglecting _ (List.mem_of_getElem? hj)
    · cases hsync.symm.trans hy
    · exact absurd hr hres

end Steps

section Memory

local instance : TicketBuilder := .bits48
local instance : ChannelClock := .by_status

/-- Two channels: a ticket is neglected in one while the other is pruned, and one is redeemed and one
inserted while the channel's own queue was opened but not yet counted. -/
theorem nothing_lost_interleaved :
    let as : List Action := [.insert_incoming_ticket (.of 1 1 4 10),
      .insert_incoming_ticket (.of 1 1 5 20), .insert_incoming_ticket (.of 1 1 6 30),
      .insert_incoming_ticket (.of 2 1 1 40), .redeem_stream ⟨[1]⟩ none, .neglect_tickets ⟨[2]⟩ none,
      .sync_from_incoming_channels [.of 1 1 5, .of 2 1 0] 0, .sync_tick, .sync_tick, .sync_tick,
      .sync_tick, .neglect_next 0, .peek 0, .complete 0 (.Ok (RedeemableTicket.of 1 1 5 20).ticket),
      .insert_incoming_ticket (.of 1 1 7 50), .sync_tick, .sync_tick, .neglect_next 0, .sync_tick,
      .sync_tick, .sync_tick, .sync_tick]
    ∃ s : State MemoryTicketQueue, (machine MemoryTicketQueue).run (Operation.start .empty) as = some s ∧
      s.neglected.map (·.index) = [1, 4] ∧ s.results.map (·.1.verified_ticket.index) = [5] ∧
      (∀ id e, s.manager.channel_tickets.lookup id = some e → ∃ r,
        s.manager.store.tickets.lookup id = some r ∧
        (s.manager.view e).queue.cached_unrealized_value.amount =
          total (tickets (s.manager.store.queues.cell r))) ∧
      ∀ t ∈ s.inserted, t.ticket ∉ s.neglected → t ∉ s.results.map Prod.fst →
        Queued s.manager t := by
  intro as
  obtain ⟨s, hs, hneg, hres, hsync, hidle⟩ : ∃ s : State MemoryTicketQueue,
      (machine MemoryTicketQueue).run (Operation.start .empty) as = some s ∧
        s.neglected.map (·.index) = [1, 4] ∧ s.results.map (·.1.verified_ticket.index) = [5] ∧
        s.sync.isNone ∧ ∀ c ∈ s.neglecting, c.isNone := (machine _).exists_run (by decide +kernel)
  exact ⟨s, hs, hneg, hres, nothing_lost stored_empty (by decide +kernel) hs
    (Option.isNone_iff_eq_none.mp hsync) fun c hc => Option.isNone_iff_eq_none.mp (hidle c hc)⟩

/-- A ticket inserted between the count of the queue and the replacement of the entry is queued but
not cached; one inserted between the deletion of the queue and that of the entry is gone. -/
theorem update_lost :
    (let as : List Action := [.insert_incoming_ticket (.of 1 1 5 10),
      .sync_from_incoming_channels [.of 1 1 0] 0, .sync_tick, .sync_tick, .sync_tick, .sync_tick,
      .insert_incoming_ticket (.of 1 1 6 10), .sync_tick, .sync_tick]
    ∃ s : State MemoryTicketQueue, (machine MemoryTicketQueue).run (Operation.start .empty) as = some s ∧
      s.sync.isNone ∧
      (s.manager.channel_tickets.lookup ⟨[1]⟩).map
        (fun e => (s.manager.view e).queue.cached_unrealized_value.amount) = some 10 ∧
      (s.manager.store.tickets.lookup ⟨[1]⟩).map
        (fun r => total (tickets (s.manager.store.queues.cell r))) = some 20) ∧
    (let as : List Action := [.insert_incoming_ticket (.of 1 1 5 10),
      .sync_from_incoming_channels [] 0, .sync_tick, .insert_incoming_ticket (.of 1 1 6 10), .sync_tick,
      .sync_tick, .sync_tick]
    ∃ s : State MemoryTicketQueue, (machine MemoryTicketQueue).run (Operation.start .empty) as = some s ∧
      s.sync.isNone ∧ s.inserted = [.of 1 1 5 10, .of 1 1 6 10] ∧
      s.neglected.map (·.index) = [5] ∧ s.results = [] ∧
      s.manager.store.tickets.lookup ⟨[1]⟩ = none) := by
  constructor
  · intro as
    exact (machine _).exists_run (by decide +kernel)
  · intro as
    exact (machine _).exists_run (by decide +kernel)

end Memory

end Hopr.TicketManager.SyncUpdates
