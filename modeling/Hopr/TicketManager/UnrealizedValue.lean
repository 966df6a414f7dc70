import Hopr.TicketManager.RedeemLock
import Hopr.TicketManager.SyncUpdates

/-! What is left to redeem.

The value of a channel's tickets is asked for in three places: `unrealized_value`
without a minimum index answers from the cache, with one it peeks and scans the
queue, and `ticket_stats` peeks and asks the value cache. `Agrees` says of an
entry what all of them rely on. As long as no synchronization replaces entries,
the calls and streams under way work on the entries of the map (`Attached`), so
that nothing is written behind a cache's back, and the three agree
(`unrealized_value_agrees`). -/
namespace Hopr.TicketManager.UnrealizedValue
open Library Heap TicketQueue ValueCachedQueue QueueWithStats HoprTicketManager Consistency Operation
  SyncUpdates

/-! ### The three questions -/

section Queries
variable {Q ε : Type} [TicketQueue Q ε]

/-- The entry has the stored queue of the channel, whose tickets are of one epoch, and its cache
tracks that epoch and knows the value of every epoch. -/
structure Agrees (m : HoprTicketManager Q) (id : ChannelId) (e : EntryRef) : Prop where
  stored : m.store.tickets.lookup id = some (m.handle e)
  one_epoch : OneEpoch (tickets (m.view e).queue)
  no_epoch : (m.view e).queue.current_epoch = none ↔ tickets (m.view e).queue = []
  current_epoch : ∀ t ∈ tickets (m.view e).queue,
    (m.view e).queue.current_epoch = some t.verified_ticket.channel_epoch
  cached : ∀ epoch,
    ((m.view e).queue.cached epoch).amount = epoch_total epoch (tickets (m.view e).queue)

/-- Whoever asks for the channel's value is told `b`; the stake that is left is the channel's balance
less `b`, or nothing. -/
structure Answers (m : HoprTicketManager Q) (id : ChannelId) (b : Option HoprBalance) : Prop where
  cached : (unrealized_value id none).run m = .ok b m
  scanned : (unrealized_value id (some 0)).run m = .ok b m
  counted : ∃ stats, (ticket_stats (some id)).run m = .ok stats m ∧
    stats.unredeemed_value = b.getD 0
  remaining : ∀ channel, channel.id = id → ∃ stake,
    HoprTicketFactory.remaining_incoming_channel_stake (some m) channel = .ok stake ∧
    stake.amount = channel.balance.amount - (b.getD 0).amount

variable {m : HoprTicketManager Q} {id : ChannelId} {e : EntryRef}

theorem agrees_of_coherent (hr : m.store.tickets.lookup id = some (m.handle e))
    (hc : Coherent (m.view e).queue) : Agrees m id e := by
  refine ⟨hr, hc.one_epoch, ?_, fun t ht => ?_, hc.cached_eq⟩
  · rw [hc.current, Option.map_eq_none_iff, List.head?_eq_none_iff]
    rfl
  · rw [hc.current]
    cases hq : tickets (m.view e).queue.queue with
    | nil =>
      rw [tickets_eq, hq] at ht
      cases ht
    | cons u rest =>
      have hu : u ∈ tickets (m.view e).queue := by
        rw [tickets_eq, hq]
        exact List.mem_cons_self ..
      exact congrArg some (hc.one_epoch u hu t ht)

/-- The cached value of an entry. -/
def value (m : HoprTicketManager Q) (e : EntryRef) : HoprBalance :=
  (m.view e).queue.cached_unrealized_value

/-- The head's epoch holds the value of the whole queue. -/
theorem epoch_value {v : ValueCachedQueue Q} (hc : Coherent v) {t : RedeemableTicket}
    (ht : (tickets v.queue).head? = some t) :
    HoprBalance.ofNat (epoch_total t.verified_ticket.channel_epoch (tickets v.queue)) =
      v.cached_unrealized_value := by
  ext
  rw [hc.one_epoch.epoch_total_eq (List.mem_of_head? ht), HoprBalance.amount_ofNat,
    ← hc.cached_unrealized_value]
  exact Nat.min_eq_left (HoprBalance.amount_le _)

/-- An empty queue has no value. -/
theorem no_value {v : ValueCachedQueue Q} (hc : Coherent v) (ht : (tickets v.queue).head? = none) :
    v.cached_unrealized_value = 0 := by
  ext
  rw [hc.cached_unrealized_value, List.head?_eq_none_iff.mp ht]
  rfl

/-- The stake that is left is computed from the answer without a minimum index. -/
theorem remaining_stake {b : Option HoprBalance} (h : (unrealized_value id none).run m = .ok b m)
    {channel : ChannelEntry} (hid : channel.id = id) : ∃ stake,
    HoprTicketFactory.remaining_incoming_channel_stake (some m) channel = .ok stake ∧
    stake.amount = channel.balance.amount - (b.getD 0).amount := by
  subst hid
  refine ⟨channel.balance - b.getD 0, ?_, HoprBalance.amount_sub ..⟩
  simp only [HoprTicketFactory.remaining_incoming_channel_stake, h]

/-- Without an entry there is nothing to count. -/
theorem answers_none (he : m.channel_tickets.lookup id = none) : Answers m id none := by
  have hrun : ∀ min_index, (unrealized_value id min_index).run m = .ok none m := by
    intro min_index
    simp only [unrealized_value, EStateM.run_bind, EStateM.run_get, he, EStateM.run_pure]
  have hentries : (m.channel_tickets.entries.filter fun e => (some id).all (· = e.1)) = [] := by
    simp only [Option.all_some, filter_entries, he, Option.toList_none, List.map_nil]
  have hstats : (ticket_stats (some id)).run m = .ok .empty m := by
    simp only [ticket_stats, EStateM.run_bind, EStateM.run_get, hentries, List.foldlM_nil,
      EStateM.run_pure]
  exact ⟨hrun none, hrun (some 0), ⟨.empty, hstats, rfl⟩, fun _ hid => remaining_stake (hrun none) hid⟩

variable [InfallibleTicketQueue Q]

/-- Cache, peek and scan give one value. -/
theorem unrealized_value_run (he : m.channel_tickets.lookup id = some e)
    (hc : Coherent (m.view e).queue) (hfits : total (tickets (m.view e).queue) ≤ HoprBalance.MAX)
    {min_index : Option UInt64} (hmin : min_index.getD 0 = 0) :
    (unrealized_value id min_index).run m = .ok (some (value m e)) m := by
  have hpeek := on_entry_run (QueueWithStats.peek_run (m.view e))
  rw [put_view] at hpeek
  simp only [unrealized_value, EStateM.run_bind, EStateM.run_get, he]
  split
  · rfl
  · rw [EStateM.run_bind, hpeek]
    cases ht : (tickets (m.view e).queue).head? with
    | none =>
      rw [value, no_value hc ht]
      rfl
    | some t =>
      have hscan := on_entry_run (onQueue_run (total_value_run hc hfits
        t.verified_ticket.channel_epoch hmin))
      rw [put_view, epoch_value hc ht] at hscan
      simp only [map_eq_pure_bind, EStateM.run_bind, hscan, EStateM.run_pure]
      rfl

theorem unredeemed_value_run (hc : Coherent (m.view e).queue)
    (hfits : total (tickets (m.view e).queue) ≤ HoprBalance.MAX) :
    (on_entry e unredeemed_value).run m = .ok (value m e) m := by
  have hrun : unredeemed_value.run (m.view e) = .ok (value m e) (m.view e) := by
    simp only [unredeemed_value, EStateM.run_bind, QueueWithStats.peek_run]
    cases ht : (tickets (m.view e).queue).head? with
    | none =>
      rw [value, no_value hc ht]
      rfl
    | some t =>
      have hscan := onQueue_run (total_value_run hc hfits t.verified_ticket.channel_epoch
        (show (none : Option UInt64).getD 0 = 0 from rfl))
      rw [epoch_value hc ht] at hscan
      exact hscan
  have hentry := on_entry_run hrun
  rwa [put_view] at hentry

/-- The statistics of one channel are those of its entry. -/
theorem ticket_stats_run (he : m.channel_tickets.lookup id = some e)
    (hc : Coherent (m.view e).queue) (hfits : total (tickets (m.view e).queue) ≤ HoprBalance.MAX) :
    ∃ stats, (ticket_stats (some id)).run m = .ok stats m ∧ stats.unredeemed_value = value m e := by
  have hentries : (m.channel_tickets.entries.filter fun e => (some id).all (· = e.1)) = [⟨id, e⟩] := by
    simp only [Option.all_some, filter_entries, he, Option.toList_some, List.map_cons, List.map_nil]
  obtain ⟨stats, hadd, hvalue⟩ : ∃ stats, (add_stats .empty e).run m = .ok stats m ∧
      stats.unredeemed_value = value m e := by
    simp only [add_stats, EStateM.run_bind, unredeemed_value_run hc hfits]
    exact ⟨_, rfl, HoprBalance.add_zero (value m e)⟩
  refine ⟨stats, ?_, hvalue⟩
  simp only [ticket_stats, EStateM.run_bind, EStateM.run_get, hentries, List.foldlM_cons,
    List.foldlM_nil, hadd, EStateM.run_pure]

theorem answers_some (he : m.channel_tickets.lookup id = some e) (hc : Coherent (m.view e).queue)
    (hfits : total (tickets (m.view e).queue) ≤ HoprBalance.MAX) : Answers m id (some (value m e)) := by
  have hcached := unrealized_value_run he hc hfits (show (none : Option UInt64).getD 0 = 0 from rfl)
  exact ⟨hcached, unrealized_value_run he hc hfits rfl, ticket_stats_run he hc hfits,
    fun _ hid => remaining_stake hcached hid⟩

end Queries

/-! ### Without synchronization -/

/-- No synchronization starts, and the amounts of an epoch fit a balance. -/
def Unsynchronized {Q ε : Type} [TicketQueue Q ε] (s : State Q) : Action → Prop
  | .insert_incoming_ticket t => Fits s t
  | .sync_from_incoming_channels _ _ => False
  | _ => True

instance {Q ε : Type} [TicketQueue Q ε] : ∀ (s : State Q) a, Decidable (Unsynchronized s a)
  | s, .insert_incoming_ticket t => inferInstanceAs (Decidable (Fits s t))
  | _, .sync_from_incoming_channels _ _ => .isFalse id
  | _, .neglect_tickets _ _ | _, .neglect_next _ | _, .redeem_stream _ _ => .isTrue trivial
  | _, .peek _ | _, .complete _ _ | _, .drop _ | _, .sync_tick => .isTrue trivial

/-- The calls and streams under way work on the entries of the map. -/
structure Attached {Q : Type} (s : State Q) : Prop where
  sync : s.sync = none
  neglecting : ∀ c, some c ∈ s.neglecting →
    s.manager.channel_tickets.lookup c.channel_id = some c.queue
  streams : ∀ r, some r ∈ s.streams → s.manager.channel_tickets.lookup r.channel_id = some r.lock

section Machine
variable {Q ε : Type}

/-- Entries stay in the map. -/
def Extends (m m' : HoprTicketManager Q) : Prop :=
  ∀ id e, m.channel_tickets.lookup id = some e → m'.channel_tickets.lookup id = some e

theorem extends_of_eq {m m' : HoprTicketManager Q} (h : m'.channel_tickets = m.channel_tickets) :
    Extends m m' := fun id e he => by rw [h]; exact he

variable [TicketQueue Q ε]

theorem extends_insert [CreatableQueue Q] (t : RedeemableTicket) (m : HoprTicketManager Q) :
    Extends m (after (insert_incoming_ticket (ε := ε) t) m) := by
  rcases RedeemLock.insert_locks (ε := ε) t m with hlocks | ⟨m', c, hlocks, hnone, _, heq⟩
  · exact extends_of_eq hlocks.channel_tickets
  · intro id e he
    have hne : id ≠ t.ticket.channel_id := by
      rintro rfl
      cases hnone.symm.trans he
    rw [heq]
    show (m'.channel_tickets.insert _ _).lookup id = some e
    rw [AList.lookup_insert_ne hne, hlocks.channel_tickets]
    exact he

/-- Whoever comes to work on an entry found it in the map. -/
theorem Attached.extends {s s' : State Q} (h : Attached s) (hm : Extends s.manager s'.manager)
    (hsync : s'.sync = s.sync)
    (hneglecting : ∀ c, some c ∈ s'.neglecting →
      s.manager.channel_tickets.lookup c.channel_id = some c.queue)
    (hstreams : ∀ r, some r ∈ s'.streams →
      s.manager.channel_tickets.lookup r.channel_id = some r.lock) : Attached s' :=
  ⟨hsync.trans h.sync, fun c hc => hm _ _ (hneglecting c hc), fun r hr => hm _ _ (hstreams r hr)⟩

theorem Attached.stream {s : State Q} (h : Attached s) {i : Nat} {r : RedeemState}
    (hi : s.streams[i]? = some (some r)) {o : Option RedeemState}
    (ho : ∀ r' ∈ o, r'.channel_id = r.channel_id ∧ r'.lock = r.lock) :
    ∀ r', some r' ∈ s.streams.set i o →
      s.manager.channel_tickets.lookup r'.channel_id = some r'.lock := by
  intro r' hr'
  rcases List.mem_or_eq_of_mem_set hr' with hr' | heq
  · exact h.streams r' hr'
  · obtain ⟨hid, hlock⟩ := ho r' heq.symm
    rw [hid, hlock]
    exact h.streams r (List.mem_of_getElem? hi)

theorem Attached.close {s s' : State Q} (h : Attached s) {i : Nat} {r : RedeemState}
    (hi : s.streams[i]? = some (some r)) (hm : Extends s.manager s'.manager)
    (hsync : s'.sync = s.sync) (hneglecting : s'.neglecting = s.neglecting)
    (hstreams : s'.streams = s.streams) : Attached (s'.close i r) := by
  refine h.extends hm hsync (fun c hc => h.neglecting c ?_) ?_
  · rw [← hneglecting]
    exact hc
  · show ∀ r', some r' ∈ s'.streams.set i none → _
    rw [hstreams]
    exact h.stream hi nofun

theorem attached_neglect_next {s : State Q} {j : Nat} {c : Neglecting} (h : Attached s)
    (hj : s.neglecting[j]? = some (some c)) : Attached (neglect_next_step j c s) := by
  have hlocks := RedeemLock.sameLocks_on_entry c.queue (neglect_next (Q := Q) c.max_index) s.manager
  have hset : ∀ o : Option Neglecting, (∀ c' ∈ o, c'.channel_id = c.channel_id ∧ c'.queue = c.queue) →
      ∀ c', some c' ∈ s.neglecting.set j o →
        s.manager.channel_tickets.lookup c'.channel_id = some c'.queue := by
    intro o ho c' hc'
    rcases List.mem_or_eq_of_mem_set hc' with hc' | heq
    · exact h.neglecting c' hc'
    · obtain ⟨hid, hqueue⟩ := ho c' heq.symm
      rw [hid, hqueue]
      exact h.neglecting c (List.mem_of_getElem? hj)
  unfold neglect_next_step
  split
  · rename_i neg m hrun
    rw [after_ok hrun] at hlocks
    refine h.extends (extends_of_eq hlocks.channel_tickets) rfl (hset _ fun c' hc' => ?_) h.streams
    cases hc'
    exact ⟨rfl, rfl⟩
  · rename_i m hrun
    rw [after_ok hrun] at hlocks
    exact h.extends (extends_of_eq hlocks.channel_tickets) rfl (hset none nofun) h.streams
  · rename_i m hrun
    rw [after_error hrun] at hlocks
    exact h.extends (extends_of_eq hlocks.channel_tickets) rfl (hset none nofun) h.streams

theorem attached_peek {s : State Q} {i : Nat} {r : RedeemState} (h : Attached s)
    (hi : s.streams[i]? = some (some r)) : Attached (peek_step i r s) := by
  have hlocks := RedeemLock.sameLocks_on_entry r.lock (onQueue (Q := Q) TicketQueue.peek) s.manager
  unfold peek_step
  split
  · rename_i t m hrun
    rw [after_ok hrun] at hlocks
    refine h.extends (extends_of_eq hlocks.channel_tickets) rfl h.neglecting
      (h.stream hi fun r' hr' => ?_)
    cases hr'
    exact ⟨rfl, rfl⟩
  · rename_i m hrun
    rw [after_ok hrun] at hlocks
    exact h.close hi (extends_of_eq hlocks.channel_tickets) rfl rfl rfl
  · rename_i m hrun
    rw [after_error hrun] at hlocks
    exact h.close hi (extends_of_eq hlocks.channel_tickets) rfl rfl rfl

theorem attached_complete {s : State Q} {i : Nat} {r : RedeemState} {t : RedeemableTicket}
    {chain : ChainResult} (h : Attached s) (hi : s.streams[i]? = some (some r)) :
    Attached (complete_step i r t chain s) := by
  unfold complete_step
  split
  · exact h.close hi (extends_of_eq rfl) rfl rfl rfl
  · rename_i result _
    have hlocks := RedeemLock.sameLocks_on_entry r.lock (complete_redeem (Q := Q) t result) s.manager
    split
    · rename_i m hrun
      rw [after_ok hrun] at hlocks
      refine h.extends (extends_of_eq hlocks.channel_tickets) rfl h.neglecting
        (h.stream hi fun r' hr' => ?_)
      cases hr'
      exact ⟨rfl, rfl⟩
    · rename_i m hrun
      rw [after_error hrun] at hlocks
      exact h.close hi (extends_of_eq hlocks.channel_tickets) rfl rfl rfl

/-- Entries are replaced and removed by synchronizations only. -/
theorem attached_step [CreatableQueue Q] [TicketBuilder] [ChannelClock] {s s' : State Q} {a : Action}
    (hc : Unsynchronized s a) (h : Attached s) (hs : step s a = some s') : Attached s' := by
  cases a with
  | insert_incoming_ticket t =>
    simp only [step] at hs
    split at hs
    · cases hs
    · obtain rfl := Option.some.inj hs
      obtain ⟨inserted, neglected, heq⟩ := insert_step_eq t s
      rw [heq]
      exact h.extends (extends_insert t s.manager) rfl h.neglecting h.streams
  | neglect_tickets id up_to_index =>
    obtain rfl := Option.some.inj hs
    unfold neglect_step
    split
    · rename_i e he
      refine h.extends (extends_of_eq rfl) rfl (fun c hc => ?_) h.streams
      rcases List.mem_append.mp hc with hc | hc
      · exact h.neglecting c hc
      · cases List.mem_singleton.mp hc
        exact he
    · exact h
  | neglect_next j =>
    simp only [step] at hs
    split at hs
    · rename_i hj
      obtain rfl := Option.some.inj hs
      exact attached_neglect_next h hj
    · cases hs
  | redeem_stream id min =>
    obtain rfl := Option.some.inj hs
    unfold redeem_stream_step
    rcases redeem_stream_cases (ε := ε) id min s.manager with
      ⟨_, hrun⟩ | ⟨_, _, _, hrun⟩ | ⟨e, he, _, hrun⟩
    · rw [hrun]
      exact h
    · rw [hrun]
      exact h
    · rw [hrun]
      refine h.extends (extends_of_eq rfl) rfl h.neglecting fun r hr => ?_
      rcases List.mem_append.mp hr with hr | hr
      · exact h.streams r hr
      · cases List.mem_singleton.mp hr
        exact he
  | peek i =>
    simp only [step] at hs
    split at hs
    · rename_i hi
      obtain rfl := Option.some.inj hs
      exact attached_peek h hi
    · cases hs
  | complete i chain =>
    simp only [step] at hs
    split at hs
    · rename_i hi
      obtain rfl := Option.some.inj hs
      exact attached_complete h hi
    · cases hs
  | drop i =>
    simp only [step] at hs
    split at hs
    · rename_i hi
      obtain rfl := Option.some.inj hs
      exact h.close hi (extends_of_eq rfl) rfl rfl rfl
    · cases hs
  | sync_from_incoming_channels incoming now => exact hc.elim
  | sync_tick =>
    simp only [step, h.sync] at hs
    cases hs

/-- So everything is written through the entries of the map. -/
theorem Attached.writesCurrent {s : State Q} {a : Action} (h : Attached s) (hc : Unsynchronized s a) :
    WritesCurrent s a := by
  have hwritable : ∀ {id e}, s.manager.channel_tickets.lookup id = some e → Writable s id e := by
    intro id e he
    refine ⟨he, fun y hy => ?_⟩
    cases h.sync.symm.trans hy
  cases a with
  | insert_incoming_ticket t => exact ⟨hc, fun e he => hwritable he⟩
  | neglect_next j =>
    intro o ho c hc _ _ _
    exact hwritable (h.neglecting c (hc ▸ List.mem_of_getElem? ho))
  | complete i chain =>
    intro o ho r hr _ _ _ _
    exact hwritable (h.streams r (hr ▸ List.mem_of_getElem? ho))
  | _ => trivial

end Machine

/-! ### Every interleaving -/

section Interleavings
variable {Q ε : Type} [TicketQueue Q ε]

/-- In every run without a synchronization, the cache of each entry tracks the one epoch of the
channel's queue and knows the value of every epoch, and cache, scan and statistics all answer the
total of the queue; a channel without an entry has no value. -/
theorem unrealized_value_agrees [InfallibleTicketQueue Q] [CreatableQueue Q] [TicketBuilder]
    [ChannelClock] {as : List Action} {s : State Q}
    (hc : (machine Q).Meets Unsynchronized (Operation.start .empty) as)
    (hrun : (machine Q).run (Operation.start .empty) as = some s) (id : ChannelId) :
    (∀ e, s.manager.channel_tickets.lookup id = some e → Agrees s.manager id e ∧
      ∃ b, b.amount = total (tickets (s.manager.view e).queue) ∧ Answers s.manager id (some b)) ∧
    (s.manager.channel_tickets.lookup id = none → Answers s.manager id none) := by
  have hinv : Synced s ∧ Attached s := (machine Q).run_invariant
    (fun s a s' hc (h : Synced s ∧ Attached s) hs =>
      ⟨synced_step (h.2.writesCurrent hc) h.1 hs, attached_step hc h.2 hs⟩)
    hc hrun ⟨synced_start stored_empty, rfl, nofun, nofun⟩
  have hordered := hinv.1.ordered
  rw [hinv.2.sync] at hordered
  refine ⟨fun e he => ?_, answers_none⟩
  obtain ⟨hr, hcoherent⟩ := hordered.in_order id e he
  have hfits := (hordered.sound ⟨he, Or.inl rfl⟩).fits
  exact ⟨agrees_of_coherent hr hcoherent, value s.manager e, hcoherent.cached_unrealized_value,
    answers_some he hcoherent hfits⟩

end Interleavings

section Memory

local instance : TicketBuilder := .bits48
local instance : ChannelClock := .by_status

/-- A channel's queue empties and is refilled in an older epoch, while a stream is live. -/
theorem unrealized_value_agrees_refilled :
    let as : List Action := [.insert_incoming_ticket (.of 1 2 4 10),
      .insert_incoming_ticket (.of 1 2 5 20), .redeem_stream ⟨[1]⟩ none, .peek 0,
      .neglect_tickets ⟨[1]⟩ none, .neglect_next 0, .neglect_next 0,
      .insert_incoming_ticket (.of 1 1 6 30), .insert_incoming_ticket (.of 1 1 7 40),
      .complete 0 (.Ok (RedeemableTicket.of 1 2 4 10).ticket), .neglect_next 0]
    ∃ (s : State MemoryTicketQueue) (e : EntryRef),
      (machine MemoryTicketQueue).run (Operation.start .empty) as = some s ∧
      s.manager.channel_tickets.lookup ⟨[1]⟩ = some e ∧
      total (tickets (s.manager.view e).queue) = 40 ∧ Agrees s.manager ⟨[1]⟩ e ∧
      ∃ b, b.amount = 40 ∧ Answers s.manager ⟨[1]⟩ (some b) := by
  intro as
  obtain ⟨s, hs, hsome, htotal⟩ : ∃ s : State MemoryTicketQueue,
      (machine MemoryTicketQueue).run (Operation.start .empty) as = some s ∧
        s.manager.channel_tickets.lookup ⟨[1]⟩ = some 0 ∧
        total (tickets (s.manager.view 0).queue) = 40 := (machine _).exists_run (by decide +kernel)
  obtain ⟨hagrees, b, hb, hanswers⟩ := (unrealized_value_agrees (by decide +kernel) hs ⟨[1]⟩).1 0 hsome
  exact ⟨s, 0, hs, hsome, htotal, hagrees, b, hb.trans htotal, hanswers⟩

end Memory

end Hopr.TicketManager.UnrealizedValue
