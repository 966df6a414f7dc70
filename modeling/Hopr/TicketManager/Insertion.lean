import Hopr.TicketManager.FailedCalls
import Hopr.TicketManager.Replacing

/-! What an insertion accounts for.

The tickets of a channel and the inserted one are divided between the queue, which
is of the newest epoch, and what is returned, which is of the older one (`Divided`).
The tickets returned are counted as neglected, one more is counted as winning,
and nothing happened to other channels (`AccountedFor`). It is so whichever of its
branches the insertion takes, unless the push replaces a queued ticket
(`keeps_account_iff`). -/
namespace Hopr.TicketManager.Insertion
open Library Heap TicketQueue ValueCachedQueue QueueWithStats HoprTicketManager FailedCalls

/-! ### Dividing the tickets -/

/-- The queue `before` and `t` are divided between the queue `after` and what is returned. -/
structure Divided (t : RedeemableTicket) (before after : List RedeemableTicket)
    (returned : List VerifiedTicket) : Prop where
  kept : ((t :: before).map (·.ticket)).Perm (after.map (·.ticket) ++ returned)
  one_epoch : OneEpoch after
  not_empty : after ≠ []
  newest : ∀ u ∈ after, ∀ v ∈ t :: before,
    v.verified_ticket.channel_epoch ≤ u.verified_ticket.channel_epoch
  /-- What is returned are the tickets of the older epoch, in their natural order. -/
  returned_old : ∃ old : List RedeemableTicket, returned = old.map (·.ticket) ∧
    old.Pairwise (fun u v => u.key ≤ v.key) ∧
    ∀ u, u ∈ old ↔ u ∈ t :: before ∧
      ∃ v ∈ t :: before, u.verified_ticket.channel_epoch < v.verified_ticket.channel_epoch
  returned_alone : (∃ u ∈ before, t.verified_ticket.channel_epoch < u.verified_ticket.channel_epoch) →
    returned = [t.ticket]
  returned_none : (∀ u ∈ before, u.verified_ticket.channel_epoch = t.verified_ticket.channel_epoch) →
    returned = []

variable {t last : RedeemableTicket} {l l' : List RedeemableTicket}

theorem divided_same (hp : l'.Perm (t :: l))
    (hsame : ∀ u ∈ l, u.verified_ticket.channel_epoch = t.verified_ticket.channel_epoch) :
    Divided t l l' [] := by
  have hall : ∀ u ∈ t :: l, u.verified_ticket.channel_epoch = t.verified_ticket.channel_epoch := by
    intro u hu
    obtain rfl | hu := List.mem_cons.mp hu
    · rfl
    · exact hsame u hu
  have hafter : ∀ u ∈ l', u.verified_ticket.channel_epoch = t.verified_ticket.channel_epoch :=
    fun u hu => hall u (hp.mem_iff.mp hu)
  refine ⟨?_, ?_, ?_, ?_, ⟨[], rfl, .nil, fun u => ?_⟩, ?_, fun _ => rfl⟩
  · rw [List.append_nil]
    exact (hp.map _).symm
  · exact fun u hu v hv => (hafter u hu).trans (hafter v hv).symm
  · intro hnil
    rw [hnil] at hp
    exact List.not_mem_nil (hp.mem_iff.mpr List.mem_cons_self)
  · intro u hu v hv
    rw [hafter u hu, hall v hv]
    exact UInt32.le_refl _
  · constructor
    · intro hu
      cases hu
    · intro ⟨hu, v, hv, hlt⟩
      rw [hall u hu, hall v hv] at hlt
      exact absurd hlt (UInt32.lt_irrefl _)
  · intro ⟨u, hu, hlt⟩
    rw [hsame u hu] at hlt
    exact absurd hlt (UInt32.lt_irrefl _)

/-- The ticket is of a newer epoch than the queue. -/
theorem divided_newer (hone : OneEpoch l) (hsorted : l.Pairwise fun u v => u.key ≤ v.key)
    (hlast : last ∈ l)
    (hlt : last.verified_ticket.channel_epoch < t.verified_ticket.channel_epoch) :
    Divided t l [t] (l.map (·.ticket)) := by
  have hbefore : ∀ u ∈ l, u.verified_ticket.channel_epoch < t.verified_ticket.channel_epoch :=
    fun u hu => hone last hlast u hu ▸ hlt
  refine ⟨.refl _, ?_, List.cons_ne_nil _ _, ?_, ⟨l, rfl, hsorted, fun u => ?_⟩, ?_, ?_⟩
  · intro u hu v hv
    rw [List.mem_singleton.mp hu, List.mem_singleton.mp hv]
  · intro u hu v hv
    rw [List.mem_singleton.mp hu]
    obtain rfl | hv := List.mem_cons.mp hv
    · exact UInt32.le_refl _
    · exact UInt32.le_of_lt (hbefore v hv)
  · constructor
    · exact fun hu => ⟨List.mem_cons_of_mem _ hu, t, List.mem_cons_self, hbefore u hu⟩
    · intro ⟨hmem, v, hv, huv⟩
      obtain rfl | hu := List.mem_cons.mp hmem
      · obtain rfl | hv := List.mem_cons.mp hv
        · exact absurd huv (UInt32.lt_irrefl _)
        · exact absurd huv (UInt32.lt_asymm (hbefore v hv))
      · exact hu
  · intro ⟨u, hu, htu⟩
    exact absurd htu (UInt32.lt_asymm (hbefore u hu))
  · intro hsame
    rw [hsame last hlast] at hlt
    exact absurd hlt (UInt32.lt_irrefl _)

/-- The ticket is of an older epoch than the queue. -/
theorem divided_older (hone : OneEpoch l) (hlast : last ∈ l)
    (hlt : t.verified_ticket.channel_epoch < last.verified_ticket.channel_epoch) :
    Divided t l l [t.ticket] := by
  have hbefore : ∀ u ∈ l, t.verified_ticket.channel_epoch < u.verified_ticket.channel_epoch :=
    fun u hu => hone last hlast u hu ▸ hlt
  refine ⟨?_, hone, List.ne_nil_of_mem hlast, ?_, ⟨[t], rfl, List.pairwise_singleton _ _, fun u => ?_⟩,
    fun _ => rfl, ?_⟩
  · rw [List.map_cons]
    exact (List.perm_append_singleton _ _).symm
  · intro u hu v hv
    obtain rfl | hv := List.mem_cons.mp hv
    · exact UInt32.le_of_lt (hbefore u hu)
    · rw [hone v hv u hu]
      exact UInt32.le_refl _
  · rw [List.mem_singleton]
    constructor
    · rintro rfl
      exact ⟨List.mem_cons_self, last, List.mem_cons_of_mem _ hlast, hlt⟩
    · intro ⟨hmem, v, hv, huv⟩
      obtain rfl | hu := List.mem_cons.mp hmem
      · rfl
      · obtain rfl | hv := List.mem_cons.mp hv
        · exact absurd huv (UInt32.lt_asymm (hbefore u hu))
        · rw [hone u hu v hv] at huv
          exact absurd huv (UInt32.lt_irrefl _)
  · intro hsame
    rw [hsame last hlast] at hlt
    exact absurd hlt (UInt32.lt_irrefl _)

/-! ### On the manager -/

section Insertion
variable {Q ε : Type} {t : RedeemableTicket} {l l' : List RedeemableTicket}

/-- The statistics of a channel, zero if it has no entry. -/
def stats (m : HoprTicketManager Q) (id : ChannelId) : ChannelTicketStats :=
  (m.channel_tickets.lookup id).elim .empty fun e => (m.entries.cell e).stats

variable [TicketQueue Q ε]

/-- The tickets stored for a channel. -/
abbrev queue (m : HoprTicketManager Q) (id : ChannelId) : List RedeemableTicket := contents m.store id

/-- The insertion of `t` between `m` and `m'` accounts for every ticket. -/
structure AccountedFor (m m' : HoprTicketManager Q) (t : RedeemableTicket) (returned : List VerifiedTicket) :
    Prop where
  divided : Divided t (queue m t.ticket.channel_id) (queue m' t.ticket.channel_id) returned
  winning_tickets : (stats m' t.ticket.channel_id).winning_tickets =
    (stats m t.ticket.channel_id).winning_tickets + 1
  neglected_value : (stats m' t.ticket.channel_id).neglected_value =
    (stats m t.ticket.channel_id).neglected_value + HoprBalance.sum (returned.map (·.amount))
  others : ∀ id, id ≠ t.ticket.channel_id → queue m' id = queue m id ∧ stats m' id = stats m id

/-- An insertion accounts for every ticket, and fails only if the channel has no entry and its stored
queue is not empty. -/
def KeepsAccount [CreatableQueue Q] (m : HoprTicketManager Q) (t : RedeemableTicket) : Prop :=
  match (insert_incoming_ticket t).run m with
  | .ok returned m' => AccountedFor m m' t returned
  | .error _ _ => m.channel_tickets.lookup t.ticket.channel_id = none ∧ queue m t.ticket.channel_id ≠ []

/-- It is enough to know what becomes of the channel. -/
theorem accountedFor_of_update {m m' : HoprTicketManager Q} {s : ChannelTicketStats}
    {returned : List VerifiedTicket}
    (hqueue : queue m' = Function.update (queue m) t.ticket.channel_id l')
    (hstats : stats m' = Function.update (stats m) t.ticket.channel_id s)
    (hdivided : Divided t (queue m t.ticket.channel_id) l' returned)
    (hwinning : s.winning_tickets = (stats m t.ticket.channel_id).winning_tickets + 1)
    (hneglected : s.neglected_value =
      (stats m t.ticket.channel_id).neglected_value + HoprBalance.sum (returned.map (·.amount))) :
    AccountedFor m m' t returned := by
  have hafter : queue m' t.ticket.channel_id = l' := by rw [hqueue, Function.update_self]
  have hs : stats m' t.ticket.channel_id = s := by rw [hstats, Function.update_self]
  refine ⟨hafter ▸ hdivided, hs ▸ hwinning, hs ▸ hneglected, fun id hid => ⟨?_, ?_⟩⟩
  · rw [hqueue, Function.update_of_ne hid]
  · rw [hstats, Function.update_of_ne hid]

variable {m : HoprTicketManager Q} {e : EntryRef} {id : ChannelId}

theorem stats_put (h : WellFormed m) (he : m.channel_tickets.lookup id = some e) (v : QueueWithStats Q) :
    stats (m.put e v) = Function.update (stats m) id v.stats := by
  funext i
  unfold stats
  by_cases hi : i = id
  · subst hi
    rw [Function.update_self]
    simp only [put, he, Option.elim_some, cell_set_self]
  · rw [Function.update_of_ne hi]
    cases hi' : m.channel_tickets.lookup i with
    | none => simp only [put, hi', Option.elim_none]
    | some e' => simp only [put, hi', Option.elim_some, cell_set_ne (h.named.ne hi he hi')]

theorem stats_place (h : Named m.entries m.channel_tickets) (id : ChannelId) (c : ChannelTicketQueue) :
    stats (m.place id c) = Function.update (stats m) id c.stats := by
  funext i
  unfold stats
  by_cases hi : i = id
  · subst hi
    rw [Function.update_self]
    simp only [place, AList.lookup_insert, Option.elim_some, cell_alloc_self]
  · rw [Function.update_of_ne hi]
    simp only [place, AList.lookup_insert_ne hi]
    cases hi' : m.channel_tickets.lookup i with
    | none => rfl
    | some e' => simp only [Option.elim_some, cell_alloc_lt _ (h.allocated hi')]

theorem queue_view (h : WellFormed m) (he : m.channel_tickets.lookup id = some e) :
    tickets (m.view e).queue = queue m id := (contents_of_lookup (h.attached he)).symm

theorem stats_view (he : m.channel_tickets.lookup id = some e) : (m.view e).stats = stats m id := by
  simp only [stats, he, Option.elim_some]
  rfl

variable {replaces : RedeemableTicket → RedeemableTicket → Bool}

/-- A push through the value cache replaces what the push of its queue replaces. -/
theorem cached_replaces [TotalTicketQueue Q] (h : Replaces Q replaces) : Replaces (ValueCachedQueue Q) replaces := by
  refine ⟨h.same_epoch, fun t v => ?_⟩
  rw [pushed_eq]
  exact h.pushed t v.queue

theorem tickets_pushed_nil (h : Replaces Q replaces) {q : Q} (hq : tickets q = []) (t : RedeemableTicket) :
    tickets (pushed t q) = [t] := by
  have hperm := h.pushed t q
  rw [hq] at hperm
  exact List.perm_singleton.mp hperm

variable [CreatableQueue Q]

theorem insert_occupied_run (he : m.channel_tickets.lookup t.ticket.channel_id = some e)
    {returned : List VerifiedTicket} {v : QueueWithStats Q}
    (hrun : (insert_occupied t).run (m.view e) = .ok returned v) :
    (insert_incoming_ticket t).run m = .ok returned (m.put e v) := by
  simp only [insert_incoming_ticket, EStateM.run_bind, EStateM.run_get, he]
  exact on_entry_run hrun

/-- An insertion on the channel's entry accounts for every ticket if it does in the channel. -/
theorem keepsAccount_of_run (h : WellFormed m) (he : m.channel_tickets.lookup t.ticket.channel_id = some e)
    {returned : List VerifiedTicket} {v : QueueWithStats Q}
    (hrun : (insert_occupied t).run (m.view e) = .ok returned v)
    (hdivided : Divided t (tickets (m.view e).queue) (tickets v.queue) returned)
    (hwinning : v.stats.winning_tickets = (m.view e).stats.winning_tickets + 1)
    (hneglected : v.stats.neglected_value =
      (m.view e).stats.neglected_value + HoprBalance.sum (returned.map (·.amount))) : KeepsAccount m t := by
  unfold KeepsAccount
  rw [insert_occupied_run he hrun]
  rw [queue_view h he] at hdivided
  rw [stats_view he] at hwinning hneglected
  exact accountedFor_of_update (contents_put h he v) (stats_put h he v) hdivided hwinning hneglected

variable [TotalTicketQueue Q]

/-- A ticket of the queue's epoch is pushed. -/
theorem insert_same_run (he : m.channel_tickets.lookup t.ticket.channel_id = some e)
    (hsame : ∀ u ∈ tickets (m.view e).queue,
      u.verified_ticket.channel_epoch = t.verified_ticket.channel_epoch) :
    (insert_incoming_ticket t).run m =
      .ok [] (m.put e ⟨pushed t (m.view e).queue, (m.view e).stats.win⟩) := by
  apply insert_occupied_run he
  rcases insert_occupied_cases t (m.view e) with ⟨last, hlast, hlt, _⟩ | ⟨last, hlast, hlt, _⟩ | ⟨_, hrun⟩
  · rw [hsame last (List.mem_of_head? hlast)] at hlt
    exact absurd hlt (UInt32.lt_irrefl _)
  · rw [hsame last (List.mem_of_head? hlast)] at hlt
    exact absurd hlt (UInt32.lt_irrefl _)
  · exact hrun

/-- The channel has an entry, and nothing is replaced. -/
theorem keepsAccount_occupied (hpush : Replaces Q replaces) (h : WellFormed m)
    (he : m.channel_tickets.lookup t.ticket.channel_id = some e)
    (hone : OneEpoch (tickets (m.view e).queue))
    (hnone : ∀ u ∈ tickets (m.view e).queue, replaces t u = false) : KeepsAccount m t := by
  have hcached := cached_replaces hpush
  rcases insert_occupied_cases t (m.view e) with
    ⟨last, hlast, hlt, hrun⟩ | ⟨last, hlast, hlt, hrun⟩ | ⟨hhead, hrun⟩
  · apply keepsAccount_of_run h he hrun
    · rw [tickets_pushed_nil hcached (tickets_drained _)]
      exact divided_newer hone (TotalTicketQueue.sorted (m.view e).queue) (List.mem_of_head? hlast) hlt
    · rfl
    · rw [List.map_map]
      rfl
  · apply keepsAccount_of_run h he hrun
    · exact divided_older hone (List.mem_of_head? hlast) hlt
    · rfl
    · rw [List.map_singleton, HoprBalance.sum_cons]
      exact congrArg (_ + ·) (HoprBalance.add_zero _).symm
  · apply keepsAccount_of_run h he hrun
    · apply divided_same
      · have hperm := hcached.pushed t (m.view e).queue
        rwa [List.filter_eq_self.mpr fun u hu => by rw [hnone u hu]; rfl] at hperm
      · intro u hu
        cases hq : (tickets (m.view e).queue).head? with
        | none =>
          rw [List.head?_eq_none_iff.mp hq] at hu
          cases hu
        | some last => rw [hone u hu last (List.mem_of_head? hq), hhead last hq]
    · rfl
    · exact (HoprBalance.add_zero _).symm

/-- The entry of a channel whose queue was empty and got `t`. -/
structure Entered (m : HoprTicketManager Q) (t : RedeemableTicket) (c : ChannelTicketQueue)
    (st : TicketStore Q) : Prop where
  wellFormed : WellFormed {m with store := st}
  found : st.tickets.lookup t.ticket.channel_id = some c.queue.queue
  stored : contents st = Function.update (queue m) t.ticket.channel_id [t]
  stats : c.stats = {ChannelTicketStats.empty with winning_tickets := 1}

/-- The stored queue is opened, and refused unless it is empty. -/
theorem first_entry_cases (hpush : Replaces Q replaces) (h : WellFormed m) (t : RedeemableTicket) :
    (queue m t.ticket.channel_id ≠ [] ∧ ∃ err m', (first_entry (ε := ε) t).run m = .error err m' ∧ WellFormed m') ∨
    (queue m t.ticket.channel_id = [] ∧ ∃ c st, (first_entry t).run m = .ok c {m with store := st} ∧
      Entered m t c st) := by
  obtain ⟨r, st, hopen, hst, hfound⟩ := open_queue_run (ε := ε) h t.ticket.channel_id
  have hstored : tickets (st.queues.cell r) = queue m t.ticket.channel_id := by
    rw [← contents_of_lookup hfound.found, hst]
  obtain ⟨visited, _, hload⟩ := new_run (ε := ε) r (st.queues.cell r)
  have hqueue := load_queue (ε := ε) (visited.map .ok) ⟨r, fun _ => none, none⟩
  generalize load (ε := ε) (visited.map .ok) ⟨r, fun _ => none, none⟩ = v at hload hqueue
  obtain rfl : v.queue = r := hqueue
  have hnew := onStore_run (s := {m with store := st}) (TicketStore.on_queue_read hload)
  have hempty := onStore_run (s := {m with store := st})
    (TicketStore.on_queue_read (is_empty_run (st.queues.cell v.queue)))
  simp only [first_entry, EStateM.run_bind, onStore_run hopen, hnew, hempty]
  rw [← hstored]
  cases hq : tickets (st.queues.cell v.queue) with
  | cons u rest => exact Or.inl ⟨List.cons_ne_nil _ _, _, _, rfl, hfound.wellFormed⟩
  | nil =>
    right
    obtain ⟨w, hrun, hw⟩ : ∃ w, (TicketQueue.push t).run (v.with_queue (st.queues.cell v.queue)) = .ok () w ∧
        tickets w.queue = [t] := ⟨_, ValueCachedQueue.push_run t _, tickets_pushed_nil hpush hq t⟩
    have hpushed := onStore_run (s := {m with store := st}) (TicketStore.on_cached_run hrun)
    obtain ⟨c, hentry, hc, hstats⟩ : ∃ c, (new_entry (ε := ε) (w.with_queue v.queue)).run
        {st with queues := st.queues.set v.queue w.queue} =
          .ok c {st with queues := st.queues.set v.queue w.queue} ∧
        c.queue.queue = v.queue ∧ c.stats = {ChannelTicketStats.empty with winning_tickets := 1} := by
      refine ⟨_, new_entry_run _ _, rfl, ?_⟩
      show ChannelTicketStats.mk (tickets ((st.queues.set v.queue w.queue).cell v.queue)).length _ _ _ = _
      rw [cell_set_self, hw]
      rfl
    have hmade := onStore_run (s := {m with store := {st with queues := st.queues.set v.queue w.queue}}) hentry
    have hset := wellFormed_set hfound.wellFormed v.queue w.queue
    refine ⟨rfl, c, _, ?_, hset, ?_, ?_, hstats⟩
    · simp only [List.isEmpty_nil, Bool.not_true, Bool.false_eq_true, if_false, EStateM.run_bind, hpushed, hmade]
    · rw [hc]
      exact hfound.found
    · show contents {st with queues := st.queues.set v.queue w.queue} = _
      rw [contents_set hfound.wellFormed.stored hfound.found, hst, hw]

/-- The channel has no entry. -/
theorem keepsAccount_vacant (hpush : Replaces Q replaces) (h : WellFormed m)
    (hvacant : m.channel_tickets.lookup t.ticket.channel_id = none) : KeepsAccount m t := by
  unfold KeepsAccount
  simp only [insert_incoming_ticket, EStateM.run_bind, EStateM.run_get, hvacant]
  rcases first_entry_cases hpush h t with ⟨hfull, err, m', hfirst, _⟩ | ⟨hnil, c, st, hfirst, hc⟩
  · simp only [hfirst]
    exact ⟨trivial, hfull⟩
  · have hplace : stats (place t.ticket.channel_id c {m with store := st}) =
        Function.update (stats m) t.ticket.channel_id c.stats := stats_place h.named _ c
    have hzero : stats m t.ticket.channel_id = .empty := by
      rw [stats, hvacant]
      rfl
    simp only [hfirst, EStateM.run_modify, EStateM.run_pure]
    apply accountedFor_of_update hc.stored hplace
    · rw [hnil]
      exact divided_same (.refl _) fun u hu => (nomatch hu)
    · rw [hc.stats, hzero]
      rfl
    · rw [hc.stats, hzero]
      rfl

/-- An insertion keeps the entries attached to the store. -/
theorem wellFormed_insert (hpush : Replaces Q replaces) (h : WellFormed m) (t : RedeemableTicket) :
    WellFormed (after (insert_incoming_ticket t) m) := by
  cases he : m.channel_tickets.lookup t.ticket.channel_id with
  | some e =>
    have hrun : (insert_incoming_ticket (ε := ε) t).run m = (on_entry e (insert_occupied t)).run m := by
      simp only [insert_incoming_ticket, EStateM.run_bind, EStateM.run_get, he]
    rw [after, hrun, ← after, after_on_entry]
    exact wellFormed_put h e _
  | none =>
    unfold after
    simp only [insert_incoming_ticket, EStateM.run_bind, EStateM.run_get, he]
    rcases first_entry_cases hpush h t with ⟨_, err, m', hfirst, hm'⟩ | ⟨_, c, st, hfirst, hc⟩
    · simp only [hfirst]
      exact hm'
    · simp only [hfirst, EStateM.run_modify, EStateM.run_pure]
      exact wellFormed_place hc.wellFormed hc.found

/-- A manager after insertions. -/
def inserted (l : List RedeemableTicket) (m : HoprTicketManager Q) : HoprTicketManager Q :=
  l.foldl (fun m t => after (insert_incoming_ticket t) m) m

theorem wellFormed_inserted (hpush : Replaces Q replaces) (l : List RedeemableTicket) (h : WellFormed m) :
    WellFormed (inserted l m) := by
  induction l generalizing m with
  | nil => exact h
  | cons t rest ih => exact ih (wellFormed_insert hpush h t)

/-- An insertion that replaces a queued ticket loses it. -/
theorem replaced_lost (hpush : Replaces Q replaces) (h : WellFormed m)
    (he : m.channel_tickets.lookup t.ticket.channel_id = some e)
    (hone : OneEpoch (tickets (m.view e).queue)) {u : RedeemableTicket}
    (hu : u ∈ tickets (m.view e).queue) (hreplaces : replaces t u = true) : ¬ KeepsAccount m t := by
  have hsame : ∀ v ∈ tickets (m.view e).queue,
      v.verified_ticket.channel_epoch = t.verified_ticket.channel_epoch :=
    fun v hv => (hone v hv u hu).trans (hpush.same_epoch hreplaces)
  unfold KeepsAccount
  rw [insert_same_run he hsame]
  intro haccount
  have hkept := haccount.divided.kept.length_eq
  have hafter : queue (m.put e ⟨pushed t (m.view e).queue, (m.view e).stats.win⟩) t.ticket.channel_id =
      tickets (pushed t (m.view e).queue) := by
    rw [queue, contents_put h he, Function.update_self]
    rfl
  rw [hafter, ← queue_view h he, List.append_nil, List.length_map, List.length_map,
    ((cached_replaces hpush).pushed t (m.view e).queue).length_eq, List.length_cons, List.length_cons] at hkept
  -- the replaced ticket is missing
  have hmissing : ((tickets (m.view e).queue).filter fun v => !replaces t v).length <
      (tickets (m.view e).queue).length := by
    apply List.length_filter_lt_length_iff_exists.mpr
    exact ⟨u, hu, by rw [hreplaces]; decide⟩
  omega

/-- **An insertion accounts for every ticket exactly if it replaces no queued one**, whatever the
backend, the state and the ticket. -/
theorem keeps_account_iff (hpush : Replaces Q replaces) (h : WellFormed m) (t : RedeemableTicket)
    (hone : OneEpoch (queue m t.ticket.channel_id)) :
    KeepsAccount m t ↔ ∀ e, m.channel_tickets.lookup t.ticket.channel_id = some e →
      ∀ u ∈ queue m t.ticket.channel_id, replaces t u = false := by
  cases he : m.channel_tickets.lookup t.ticket.channel_id with
  | none =>
    constructor
    · intro _ e he
      cases he
    · exact fun _ => keepsAccount_vacant hpush h he
  | some e =>
    rw [← queue_view h he] at hone ⊢
    constructor
    · intro haccount _ _ u hu
      rw [← Bool.not_eq_true]
      exact fun hreplaces => replaced_lost hpush h he hone hu hreplaces haccount
    · intro hnone
      exact keepsAccount_occupied hpush h he hone (hnone e rfl)

end Insertion

section Concrete
variable {Q ε : Type} [TicketQueue Q ε] [CreatableQueue Q]

/-- A manager on an empty store, after insertions. -/
def started (l : List RedeemableTicket) : HoprTicketManager Q := inserted l (.new .empty)

theorem wellFormed_started [TotalTicketQueue Q] {replaces : RedeemableTicket → RedeemableTicket → Bool}
    (hpush : Replaces Q replaces) (l : List RedeemableTicket) : WellFormed (started l : HoprTicketManager Q) :=
  wellFormed_inserted hpush l ⟨named_empty _, named_empty _, fun he => (nomatch he)⟩

/-- The ticket of a new epoch takes the place of two old ones. -/
theorem keeps_account_newer :
    KeepsAccount (started [.of 1 1 3 10, .of 1 1 4 10] : HoprTicketManager MemoryTicketQueue) (.of 1 2 0 10) := by
  have hone : OneEpoch (queue (started [.of 1 1 3 10, .of 1 1 4 10] : HoprTicketManager MemoryTicketQueue) ⟨[1]⟩) := by
    unfold OneEpoch
    decide +kernel
  rw [keeps_account_iff (replaces_nothing _) (wellFormed_started (replaces_nothing _) _) _ hone]
  intro e _ u _
  rfl

/-- A manager whose queue of channel 1 is that of an open table, with one ticket. -/
def one_ticket : HoprTicketManager OpenQueue := started [.of 1 2 4 10]

/-- **A ticket replaces one of its epoch and index**, which is neither queued nor returned. -/
theorem queued_ticket_lost :
    queue one_ticket ⟨[1]⟩ = [.of 1 2 4 10] ∧
      (∃ m, (insert_incoming_ticket (.of 1 2 4 20)).run one_ticket = .ok [] m ∧
        queue m ⟨[1]⟩ = [.of 1 2 4 20] ∧ (stats m ⟨[1]⟩).winning_tickets = 2) ∧
      ¬ KeepsAccount one_ticket (.of 1 2 4 20) := by
  have hqueue : queue one_ticket ⟨[1]⟩ = [.of 1 2 4 10] := by decide +kernel
  have hwell : WellFormed one_ticket := wellFormed_started OpenQueue.replaces_same_place _
  have he : one_ticket.channel_tickets.lookup ⟨[1]⟩ = some 0 := by decide +kernel
  have hview : tickets (one_ticket.view 0).queue = [.of 1 2 4 10] := (queue_view hwell he).trans hqueue
  refine ⟨hqueue, ⟨_, rfl, by decide +kernel, by decide +kernel⟩, ?_⟩
  apply replaced_lost OpenQueue.replaces_same_place (e := 0) (u := .of 1 2 4 10) hwell he
  · rw [hview]
    unfold OneEpoch
    decide
  · rw [hview]
    exact List.mem_singleton_self _
  · decide

end Concrete

end Hopr.TicketManager.Insertion
