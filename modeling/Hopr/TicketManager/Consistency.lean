import Hopr.TicketManager.Sync

/-! Caches that agree with the store.

`Sound` is what every stored queue is: its tickets are of one epoch and their sum
fits a balance. An entry of the map agrees with the store when its handle is
that of the channel's stored queue and its cache is coherent with the contents.
While a synchronization works on a channel, its entry need not agree; `Phase`
says how far the synchronization is with the channel and `InOrder` what is true
of it then. `Ordered` says it of every channel.

A call under the lock of an entry preserves it if it writes nothing
(`Ordered.same_queues`), or if the entry is the one in the map and the
synchronization does not hold a snapshot of the channel (`Ordered.write`). -/
namespace Hopr.TicketManager.Consistency
open Library Heap TicketQueue ValueCachedQueue QueueWithStats HoprTicketManager

section Infallible
variable {Q ε : Type} [TicketQueue Q ε]

/-! ### Queues of one epoch -/

/-- The tickets are of one epoch and their sum is a balance. -/
structure Sound (l : List RedeemableTicket) : Prop where
  one_epoch : OneEpoch l
  fits : total l ≤ HoprBalance.MAX

theorem Sound.single (t : RedeemableTicket) : Sound [t] := by
  refine ⟨fun u hu w hw => ?_, ?_⟩
  · rw [List.mem_singleton] at hu hw
    rw [hu, hw]
  · rw [total_cons]
    exact t.verified_ticket.amount.amount_le

/-- What is left of a sound queue when tickets are taken from its front is sound. -/
theorem Sound.suffix {l l' : List RedeemableTicket} (h : Sound (l ++ l')) : Sound l' := by
  refine ⟨fun t ht u hu => ?_, ?_⟩
  · exact h.one_epoch t (List.mem_append_right _ ht) u (List.mem_append_right _ hu)
  · have hfits := h.fits
    simp only [total, List.map_append, List.sum_append] at hfits ⊢
    omega

theorem Sound.tail {l : List RedeemableTicket} (h : Sound l) : Sound l.tail := by
  cases l with
  | nil => exact h
  | cons t rest => exact (show Sound ([t] ++ rest) from h).suffix

/-- A queue grows by a ticket of its epoch, if the sum fits. -/
theorem sound_of_perm {l l' : List RedeemableTicket} {t : RedeemableTicket}
    (hperm : l'.Perm (t :: l))
    (hepoch : ∀ u ∈ l, u.verified_ticket.channel_epoch = t.verified_ticket.channel_epoch)
    (hfits : total l + t.verified_ticket.amount.amount ≤ HoprBalance.MAX) : Sound l' := by
  have hall : ∀ u ∈ l', u.verified_ticket.channel_epoch = t.verified_ticket.channel_epoch := by
    intro u hu
    rcases List.mem_cons.mp (hperm.mem_iff.mp hu) with rfl | hu
    · rfl
    · exact hepoch u hu
  refine ⟨fun u hu w hw => (hall u hu).trans (hall w hw).symm, ?_⟩
  rw [total_perm hperm, total_cons]
  omega

/-- The head tells the epoch of a sound queue. -/
theorem Sound.epoch_of_head {l : List RedeemableTicket} (h : Sound l) {epoch : UInt32}
    (hhead : ∀ last, l.head? = some last → last.verified_ticket.channel_epoch = epoch) :
    (∀ u ∈ l, u.verified_ticket.channel_epoch = epoch) ∧ epoch_total epoch l = total l := by
  cases l with
  | nil => exact ⟨fun _ h => (nomatch h), rfl⟩
  | cons last rest =>
    have hlast : last ∈ last :: rest := List.mem_cons_self ..
    have heq := hhead last rfl
    refine ⟨fun u hu => (h.one_epoch u hu last hlast).trans heq, ?_⟩
    rw [← heq]
    exact h.one_epoch.epoch_total_eq hlast

variable [InfallibleTicketQueue Q]

/-- An insertion leaves a sound queue; nothing leaves the queue or fails to enter it without being
returned as neglected. -/
theorem insert_occupied_sound (t : RedeemableTicket) (s : QueueWithStats Q)
    (h : Sound (tickets s.queue))
    (hfits : epoch_total t.verified_ticket.channel_epoch (tickets s.queue) +
      t.verified_ticket.amount.amount ≤ HoprBalance.MAX) :
    ∃ neg s', (insert_occupied t).run s = .ok neg s' ∧ Sound (tickets s'.queue) ∧
      (Coherent s.queue → Coherent s'.queue) ∧
      ∀ u, u = t ∨ u ∈ tickets s.queue → u ∈ tickets s'.queue ∨ u.ticket ∈ neg := by
  have hpushed : ∀ v : ValueCachedQueue Q, ∀ u, u = t ∨ u ∈ tickets v → u ∈ tickets (pushed t v) :=
    fun v u hu => (tickets_pushed t v).mem_iff.mpr (List.mem_cons.mpr hu)
  rcases insert_occupied_cases t s with ⟨_, _, _, hrun⟩ | ⟨_, _, _, hrun⟩ | ⟨hhead, hrun⟩
  · -- the queue is drained, and returned, before the ticket is pushed
    refine ⟨_, _, hrun, ?_, fun hc => ?_, fun u hu => ?_⟩
    · have hperm := tickets_pushed t (drained s.queue)
      rw [tickets_drained] at hperm
      exact List.perm_singleton.mp hperm ▸ Sound.single t
    · apply coherent_pushed (coherent_drained hc)
      · intro u hu
        rw [show tickets (drained s.queue).queue = [] from tickets_drained s.queue] at hu
        cases hu
      · rw [show tickets (drained s.queue).queue = [] from tickets_drained s.queue]
        show 0 + _ ≤ _
        rw [Nat.zero_add]
        exact t.verified_ticket.amount.amount_le
    · rcases hu with rfl | hu
      · exact Or.inl (hpushed _ u (Or.inl rfl))
      · exact Or.inr (List.mem_map_of_mem hu)
  · refine ⟨_, _, hrun, h, id, fun u hu => ?_⟩
    rcases hu with rfl | hu
    · exact Or.inr (List.mem_singleton_self _)
    · exact Or.inl hu
  · obtain ⟨hepoch, htotal⟩ := h.epoch_of_head hhead
    rw [htotal] at hfits
    exact ⟨_, _, hrun, sound_of_perm (tickets_pushed t s.queue) hepoch hfits,
      fun hc => coherent_pushed hc t hepoch hfits, fun u hu => Or.inl (hpushed s.queue u hu)⟩

theorem sound_popped {v : ValueCachedQueue Q} (h : Sound (tickets v)) : Sound (tickets (popped v)) := by
  rw [tickets_popped]
  exact h.tail

end Infallible

/-! ### The store and the entries -/

section Manager
variable {Q ε : Type} [TicketQueue Q ε]

/-- Handles are given out once, and every stored queue is sound. -/
structure Stored (s : TicketStore Q) : Prop where
  named : Named s.queues s.tickets
  sound : ∀ id r, s.tickets.lookup id = some r → Sound (tickets (s.queues.cell r))

/-- How far a synchronization is with a channel. -/
inductive Phase where
  /-- Not concerned with it. -/
  | steady
  /-- The queue was deleted. -/
  | deleted
  /-- The queue was opened and pruned. -/
  | opened (queue : QueueRef)
  /-- The pruned queue was counted. -/
  | counted (queue : ValueCachedQueue QueueRef)

/-- The entry agrees with the store, or will be replaced by one that does, or removed. -/
def InOrder (m : HoprTicketManager Q) (id : ChannelId) : Phase → Prop
  | .steady => ∀ e, m.channel_tickets.lookup id = some e →
      m.store.tickets.lookup id = some (m.handle e) ∧ Coherent (m.view e).queue
  | .deleted => True
  | .opened r => m.store.tickets.lookup id = some r ∧
      ∀ e, m.channel_tickets.lookup id = some e → m.handle e = r
  | .counted v => m.store.tickets.lookup id = some v.queue ∧
      Coherent (v.with_queue (m.store.queues.cell v.queue))

structure Ordered (m : HoprTicketManager Q) (phase : ChannelId → Phase) : Prop where
  stored : Stored m.store
  named : Named m.entries m.channel_tickets
  in_order : ∀ id, InOrder m id (phase id)

/-- Store and map are as before, and so is the queue of every entry. -/
structure SameQueues (m m' : HoprTicketManager Q) : Prop where
  store : m'.store = m.store
  channel_tickets : m'.channel_tickets = m.channel_tickets
  next : m'.entries.next = m.entries.next
  queue : ∀ e, (m'.entries.cell e).queue = (m.entries.cell e).queue

variable {m m' : HoprTicketManager Q} {phase : ChannelId → Phase}

/-- What is not written needs no care. -/
theorem Ordered.same_queues (h : Ordered m phase) (hm : SameQueues m m') : Ordered m' phase := by
  refine ⟨hm.store ▸ h.stored, ⟨fun he => ?_, fun he he' => ?_⟩, fun id => ?_⟩
  · rw [hm.channel_tickets] at he
    rw [hm.next]
    exact h.named.allocated he
  · rw [hm.channel_tickets] at he he'
    exact h.named.distinct he he'
  · have hid := h.in_order id
    cases hp : phase id with
    | steady =>
      rw [hp] at hid
      intro e he
      rw [hm.channel_tickets] at he
      unfold HoprTicketManager.view HoprTicketManager.contents HoprTicketManager.handle
      rw [hm.store, hm.queue]
      exact hid e he
    | deleted => trivial
    | opened r =>
      rw [hp] at hid
      unfold InOrder HoprTicketManager.handle
      rw [hm.store, hm.channel_tickets]
      refine ⟨hid.1, fun e he => ?_⟩
      rw [hm.queue]
      exact hid.2 e he
    | counted v =>
      rw [hp] at hid
      unfold InOrder
      rw [hm.store]
      exact hid

/-- A call that only writes statistics. -/
theorem sameQueues_put (m : HoprTicketManager Q) (e : EntryRef) (stats : ChannelTicketStats) :
    SameQueues m (m.put e ⟨(m.view e).queue, stats⟩) := by
  refine ⟨?_, rfl, rfl, fun e' => ?_⟩
  · simp only [HoprTicketManager.put, HoprTicketManager.view, HoprTicketManager.contents, with_queue,
      Heap.set_cell]
  · by_cases he : e' = e
    · subst he
      simp only [HoprTicketManager.put, cell_set_self, HoprTicketManager.view, with_queue,
        HoprTicketManager.handle]
    · simp only [HoprTicketManager.put, cell_set_ne he]

theorem sameQueues_set_redeem_lock (m : HoprTicketManager Q) (e : EntryRef) (locked : Bool) :
    SameQueues m (m.set_redeem_lock e locked) := by
  refine ⟨rfl, rfl, rfl, fun e' => ?_⟩
  by_cases he : e' = e
  · subst he
    simp only [set_redeem_lock, cell_set_self]
  · simp only [set_redeem_lock, cell_set_ne he]

/-- The entry is the channel's, and the synchronization holds no snapshot of the channel. -/
def Current (m : HoprTicketManager Q) (phase : ChannelId → Phase) (id : ChannelId) (e : EntryRef) :
    Prop :=
  m.channel_tickets.lookup id = some e ∧ (phase id = .steady ∨ ∃ r, phase id = .opened r)

/-- A current entry's handle is that of the stored queue. -/
theorem Ordered.handle (h : Ordered m phase) {id : ChannelId} {e : EntryRef}
    (hc : Current m phase id e) : m.store.tickets.lookup id = some (m.handle e) := by
  have hid := h.in_order id
  obtain ⟨he, hp | ⟨r, hp⟩⟩ := hc
  · rw [hp] at hid
    exact (hid e he).1
  · rw [hp] at hid
    rw [hid.2 e he]
    exact hid.1

theorem Ordered.sound (h : Ordered m phase) {id : ChannelId} {e : EntryRef}
    (hc : Current m phase id e) : Sound (tickets (m.view e).queue) :=
  h.stored.sound id (m.handle e) (h.handle hc)

/-- A write through a current entry that leaves the queue sound and the cache as good as it was. -/
theorem Ordered.write (h : Ordered m phase) {id : ChannelId} {e : EntryRef}
    (hc : Current m phase id e) {c : QueueWithStats Q} (hsound : Sound (tickets c.queue))
    (hcoherent : Coherent (m.view e).queue → Coherent c.queue) : Ordered (m.put e c) phase := by
  have hr := h.handle hc
  have hother : ∀ {id' r}, id' ≠ id → m.store.tickets.lookup id' = some r → r ≠ m.handle e :=
    fun hne hr' => h.stored.named.ne hne hr hr'
  refine ⟨⟨h.stored.named.set _ _, fun id' r hr' => ?_⟩, h.named.set _ _, fun id' => ?_⟩
  · change m.store.tickets.lookup id' = some r at hr'
    show Sound (tickets ((m.store.queues.set (m.handle e) c.queue.queue).cell r))
    by_cases hid : id' = id
    · subst hid
      obtain rfl := Option.some.inj (hr.symm.trans hr')
      rw [cell_set_self]
      exact hsound
    · rw [cell_set_ne (hother hid hr')]
      exact h.stored.sound id' r hr'
  · have horder := h.in_order id'
    cases hp : phase id' with
    | steady =>
      rw [hp] at horder
      intro e' he'
      change m.channel_tickets.lookup id' = some e' at he'
      obtain ⟨hr', hc'⟩ := horder e' he'
      rw [handle_put]
      refine ⟨hr', ?_⟩
      by_cases hid : id' = id
      · subst hid
        obtain rfl := Option.some.inj (hc.1.symm.trans he')
        rw [view_put_self]
        exact hcoherent hc'
      · rw [view_put_ne (h.named.ne hid hc.1 he') (hother hid hr')]
        exact hc'
    | deleted => trivial
    | opened r =>
      rw [hp] at horder
      refine ⟨horder.1, fun e' he' => ?_⟩
      rw [handle_put]
      exact horder.2 e' he'
    | counted v =>
      rw [hp] at horder
      have hid : id' ≠ id := by
        rintro rfl
        rcases hc.2 with hsteady | ⟨r, hopened⟩
        · cases hp.symm.trans hsteady
        · cases hp.symm.trans hopened
      refine ⟨horder.1, ?_⟩
      show Coherent (v.with_queue ((m.store.queues.set (m.handle e) c.queue.queue).cell v.queue))
      rw [cell_set_ne (hother hid horder.1)]
      exact horder.2

/-- The ticket is in the stored queue of its channel. -/
def Queued (m : HoprTicketManager Q) (u : RedeemableTicket) : Prop :=
  ∃ r, m.store.tickets.lookup u.ticket.channel_id = some r ∧ u ∈ tickets (m.store.queues.cell r)

/-- A ticket that is not in the queue an entry leads to is not concerned by a write through it. -/
theorem queued_put {u : RedeemableTicket} {e : EntryRef} {c : QueueWithStats Q} {P : Prop}
    (hu : Queued m u) (hkeep : u ∈ tickets (m.view e).queue → u ∈ tickets c.queue ∨ P) :
    Queued (m.put e c) u ∨ P := by
  obtain ⟨r, hr, hmem⟩ := hu
  by_cases hre : r = m.handle e
  · subst hre
    refine (hkeep hmem).imp_left fun hin => ⟨m.handle e, hr, ?_⟩
    show u ∈ tickets ((m.store.queues.set (m.handle e) c.queue.queue).cell (m.handle e))
    rw [cell_set_self]
    exact hin
  · refine Or.inl ⟨r, hr, ?_⟩
    show u ∈ tickets ((m.store.queues.set (m.handle e) c.queue.queue).cell r)
    rw [cell_set_ne hre]
    exact hmem

end Manager

/-! ### Changes of the store and of the map -/

section StoreMap
variable {Q ε : Type} {m : HoprTicketManager Q} {phase : ChannelId → Phase}

/-- The queues of all channels but one are as before. -/
def OnlyChanges (id : ChannelId) (s st : TicketStore Q) : Prop :=
  ∀ id', id' ≠ id → st.tickets.lookup id' = s.tickets.lookup id' ∧
    ∀ r, s.tickets.lookup id' = some r → st.queues.cell r = s.queues.cell r

theorem OnlyChanges.refl (id : ChannelId) (s : TicketStore Q) : OnlyChanges id s s :=
  fun _ _ => ⟨rfl, fun _ _ => rfl⟩

theorem OnlyChanges.trans {id : ChannelId} {s t u : TicketStore Q} (h : OnlyChanges id s t)
    (h' : OnlyChanges id t u) : OnlyChanges id s u := by
  intro id' hne
  obtain ⟨hlookup, hcell⟩ := h id' hne
  obtain ⟨hlookup', hcell'⟩ := h' id' hne
  exact ⟨hlookup'.trans hlookup, fun r hr => (hcell' r (hlookup.trans hr)).trans (hcell r hr)⟩

variable [TicketQueue Q ε]

/-- A change of one channel's queue leaves the other channels in order. -/
theorem Ordered.change_store (h : Ordered m phase) {id : ChannelId} {st : TicketStore Q}
    (hst : Stored st) (honly : OnlyChanges id m.store st) {phase' : ChannelId → Phase}
    (hphase : ∀ id', id' ≠ id → phase' id' = phase id')
    (hid : InOrder {m with store := st} id (phase' id)) : Ordered {m with store := st} phase' := by
  refine ⟨hst, h.named, fun id' => ?_⟩
  by_cases hne : id' = id
  · subst hne
    exact hid
  · obtain ⟨hlookup, hcell⟩ := honly id' hne
    have horder := h.in_order id'
    rw [hphase id' hne]
    cases hp : phase id' with
    | steady =>
      rw [hp] at horder
      intro e he
      obtain ⟨hr, hc⟩ := horder e he
      refine ⟨hlookup.trans hr, ?_⟩
      show Coherent ((m.entries.cell e).queue.with_queue (st.queues.cell (m.handle e)))
      rw [hcell _ hr]
      exact hc
    | deleted => trivial
    | opened r =>
      rw [hp] at horder
      exact ⟨hlookup.trans horder.1, horder.2⟩
    | counted v =>
      rw [hp] at horder
      refine ⟨hlookup.trans horder.1, ?_⟩
      show Coherent (v.with_queue (st.queues.cell v.queue))
      rw [hcell _ horder.1]
      exact horder.2

/-- A new entry that agrees with the store puts its channel in order. -/
theorem Ordered.place (h : Ordered m phase) {id : ChannelId} {c : ChannelTicketQueue}
    (hr : m.store.tickets.lookup id = some c.queue.queue)
    (hc : Coherent (c.queue.with_queue (m.store.queues.cell c.queue.queue)))
    {phase' : ChannelId → Phase} (hphase : ∀ id', id' ≠ id → phase' id' = phase id')
    (hid : phase' id = .steady) : Ordered (m.place id c) phase' := by
  refine ⟨h.stored, h.named.alloc id c, fun id' => ?_⟩
  by_cases hne : id' = id
  · subst hne
    rw [hid]
    intro e he
    rcases lookup_insert_cases he with ⟨_, rfl⟩ | ⟨hne, _⟩
    · unfold HoprTicketManager.view HoprTicketManager.contents HoprTicketManager.handle
      simp only [HoprTicketManager.place, cell_alloc_self]
      exact ⟨hr, hc⟩
    · exact absurd rfl hne
  · have horder := h.in_order id'
    have hcell : ∀ {e}, (m.channel_tickets.insert id m.entries.next).lookup id' = some e →
        m.channel_tickets.lookup id' = some e ∧ (m.entries.alloc c).2.cell e = m.entries.cell e := by
      intro e he
      rcases lookup_insert_cases he with ⟨heq, _⟩ | ⟨_, he⟩
      · exact absurd heq hne
      · exact ⟨he, cell_alloc_lt c (h.named.allocated he)⟩
    rw [hphase id' hne]
    cases hp : phase id' with
    | steady =>
      rw [hp] at horder
      intro e he
      obtain ⟨he, heq⟩ := hcell he
      unfold HoprTicketManager.view HoprTicketManager.contents HoprTicketManager.handle
      simp only [HoprTicketManager.place, heq]
      exact horder e he
    | deleted => trivial
    | opened r =>
      rw [hp] at horder
      refine ⟨horder.1, fun e he => ?_⟩
      obtain ⟨he, heq⟩ := hcell he
      unfold HoprTicketManager.handle
      simp only [HoprTicketManager.place, heq]
      exact horder.2 e he
    | counted v =>
      rw [hp] at horder
      exact horder

/-- A channel without an entry is in order. -/
theorem Ordered.erase (h : Ordered m phase) {id : ChannelId} {phase' : ChannelId → Phase}
    (hphase : ∀ id', id' ≠ id → phase' id' = phase id') (hid : phase' id = .steady) :
    Ordered {m with channel_tickets := m.channel_tickets.erase id} phase' := by
  refine ⟨h.stored, h.named.erase id, fun id' => ?_⟩
  by_cases hne : id' = id
  · subst hne
    rw [hid]
    intro e he
    exact absurd rfl (lookup_erase_cases he).1
  · have horder := h.in_order id'
    rw [hphase id' hne]
    cases hp : phase id' with
    | steady =>
      rw [hp] at horder
      exact fun e he => horder e (lookup_erase_cases he).2
    | deleted => trivial
    | opened r =>
      rw [hp] at horder
      exact ⟨horder.1, fun e he => horder.2 e (lookup_erase_cases he).2⟩
    | counted v =>
      rw [hp] at horder
      exact horder

theorem onlyChanges_queued {id : ChannelId} {st : TicketStore Q} (honly : OnlyChanges id m.store st)
    {u : RedeemableTicket} (hu : Queued m u) (hne : u.ticket.channel_id ≠ id) :
    Queued {m with store := st} u := by
  obtain ⟨r, hr, hmem⟩ := hu
  obtain ⟨hlookup, hcell⟩ := honly _ hne
  refine ⟨r, hlookup.trans hr, ?_⟩
  show u ∈ tickets (st.queues.cell r)
  rw [hcell r hr]
  exact hmem

end StoreMap

/-! ### The calls -/

section Calls
variable {Q ε : Type} [TicketQueue Q ε] {m : HoprTicketManager Q} {phase : ChannelId → Phase}

/-- A write of the stored queue of one channel. -/
theorem Stored.set {s : TicketStore Q} (h : Stored s) {id : ChannelId} {r : QueueRef}
    (hr : s.tickets.lookup id = some r) {q : Q} (hq : Sound (tickets q)) :
    Stored {s with queues := s.queues.set r q} ∧
      OnlyChanges id s {s with queues := s.queues.set r q} := by
  refine ⟨⟨h.named.set r q, fun id' r' hr' => ?_⟩, fun id' hne => ⟨rfl, fun r' hr' => ?_⟩⟩
  · by_cases hrr : r' = r
    · subst hrr
      rw [cell_set_self]
      exact hq
    · rw [cell_set_ne hrr]
      exact h.sound id' r' hr'
  · exact cell_set_ne (h.named.ne hne hr hr') q s.queues

/-- An opened queue was stored before, or is new and empty. -/
theorem Stored.open [CreatableQueue Q] {s : TicketStore Q} (h : Stored s) (id : ChannelId) :
    ∃ r st, (TicketStore.open_or_create_queue (ε := ε) id).run s = .ok r st ∧ Stored st ∧
      OnlyChanges id s st ∧ st.tickets.lookup id = some r ∧
      (s.tickets.lookup id = some r ∧ st = s ∨
        s.tickets.lookup id = none ∧ tickets (st.queues.cell r) = []) := by
  rcases TicketStore.open_or_create_queue_cases (ε := ε) id s with ⟨r, hr, hrun⟩ | ⟨hnone, hrun⟩
  · exact ⟨r, s, hrun, h, .refl id s, hr, Or.inl ⟨hr, rfl⟩⟩
  · have hempty : tickets ((s.queues.alloc CreatableQueue.empty).2.cell s.queues.next) = [] := by
      rw [cell_alloc_self, CreatableQueue.tickets_empty]
    refine ⟨_, _, hrun, ⟨h.named.alloc id _, fun id' r' hr' => ?_⟩, fun id' hne => ⟨?_, fun r' hr' => ?_⟩,
      AList.lookup_insert .., Or.inr ⟨hnone, hempty⟩⟩
    · rcases lookup_insert_cases hr' with ⟨_, rfl⟩ | ⟨_, hr'⟩
      · rw [hempty]
        exact ⟨nofun, Nat.zero_le _⟩
      · rw [cell_alloc_lt _ (h.named.allocated hr')]
        exact h.sound id' r' hr'
    · exact AList.lookup_insert_ne hne
    · exact cell_alloc_lt _ (h.named.allocated hr')

variable [InfallibleTicketQueue Q]

/-- Everything in a deleted queue is returned. -/
theorem Stored.delete {s : TicketStore Q} (h : Stored s) (id : ChannelId) :
    ∃ neg st, (TicketStore.delete_queue (ε := ε) id).run s = .ok neg st ∧ Stored st ∧
      OnlyChanges id s st ∧
      ∀ r u, s.tickets.lookup id = some r → u ∈ tickets (s.queues.cell r) → u.ticket ∈ neg := by
  cases hr : s.tickets.lookup id with
  | none =>
    refine ⟨[], s, ?_, h, .refl id s, nofun⟩
    simp only [TicketStore.delete_queue, EStateM.run, hr]
  | some r =>
    have hdrain := TicketStore.on_queue_run (s := {s with tickets := s.tickets.erase id})
      (drain_run (s.queues.cell r))
    obtain ⟨hset, honly⟩ := h.set hr (q := drained (s.queues.cell r)) (by
      rw [tickets_drained]
      exact ⟨nofun, Nat.zero_le _⟩)
    refine ⟨(tickets (s.queues.cell r)).map (·.ticket),
      ⟨s.tickets.erase id, s.queues.set r (drained (s.queues.cell r))⟩, ?_,
      ⟨hset.named.erase id, fun id' r' hr' => ?_⟩, fun id' hne => ⟨?_, (honly id' hne).2⟩, ?_⟩
    · simp only [TicketStore.delete_queue, EStateM.run, hr] at hdrain ⊢
      exact hdrain
    · exact hset.sound id' r' (lookup_erase_cases hr').2
    · exact AList.lookup_erase_ne hne
    · intro r' u hr' hu
      obtain rfl := Option.some.inj hr'
      exact List.mem_map_of_mem hu

/-- The first ticket of a channel becomes the only one of its queue, in an entry that agrees with
it; unless the queue, unknown to the map, is not empty. -/
theorem first_entry_ordered [CreatableQueue Q] (h : Ordered m fun _ => .steady)
    {t : RedeemableTicket} (hnone : m.channel_tickets.lookup t.ticket.channel_id = none) :
    (∃ err, (first_entry (ε := ε) t).run m = .error err m) ∨
    ∃ c m', (first_entry (ε := ε) t).run m = .ok c m' ∧
      Ordered (m'.place t.ticket.channel_id c) (fun _ => .steady) ∧
      ∀ u, u = t ∨ Queued m u → Queued (m'.place t.ticket.channel_id c) u := by
  obtain ⟨r, st, hopen, hst, honly, hr, hold⟩ := h.stored.open (ε := ε) t.ticket.channel_id
  have hsound := hst.sound _ r hr
  obtain ⟨v, hnew, rfl, hv⟩ := coherent_new (ε := ε) r (st.queues.cell r) hsound.one_epoch hsound.fits
  have hload := onStore_run (m := TicketStore.on_queue v.queue (ValueCachedQueue.new v.queue))
    (s := {m with store := st}) (TicketStore.on_queue_read hnew)
  have hempty := onStore_run (m := TicketStore.on_queue v.queue is_empty)
    (s := {m with store := st}) (TicketStore.on_queue_read (is_empty_run (st.queues.cell v.queue)))
  simp only [first_entry, EStateM.run_bind, onStore_run hopen, hload, hempty]
  cases hq : tickets (st.queues.cell v.queue) with
  | cons u rest =>
    -- a new queue is empty, so the store is as it was
    left
    rcases hold with ⟨_, rfl⟩ | ⟨_, hnil⟩
    · exact ⟨_, rfl⟩
    · cases hnil.symm.trans hq
  | nil =>
    right
    obtain ⟨w, hpush, hcoherent, htickets⟩ : ∃ w, (TicketQueue.push t).run (v.with_queue (st.queues.cell v.queue)) =
        .ok () w ∧ Coherent w ∧ tickets w = [t] := by
      have hnil : tickets (v.with_queue (st.queues.cell v.queue)).queue = [] := hq
      refine ⟨_, TicketQueue.push_run t _, coherent_pushed hv t ?_ ?_, ?_⟩
      · rw [hnil]
        exact nofun
      · rw [hnil]
        show 0 + _ ≤ _
        rw [Nat.zero_add]
        exact t.verified_ticket.amount.amount_le
      · exact List.perm_singleton.mp (hnil ▸ tickets_pushed t (v.with_queue (st.queues.cell v.queue)))
    have hcell : (st.queues.set v.queue w.queue).cell v.queue = w.queue := cell_set_self ..
    obtain ⟨hst', honly'⟩ := hst.set hr (q := w.queue) (show Sound (tickets w) from htickets ▸ Sound.single t)
    have hordered := h.change_store hst' (honly.trans honly') (fun _ _ => rfl)
      (fun e he => absurd (hnone.symm.trans he) (by simp))
    have hpushed := onStore_run (s := {m with store := st}) (TicketStore.on_cached_run hpush)
    obtain ⟨stats, hentry⟩ : ∃ stats, (new_entry (ε := ε) (w.with_queue v.queue)).run
        {st with queues := st.queues.set v.queue w.queue} =
          .ok ⟨w.with_queue v.queue, stats, false⟩ _ := ⟨_, new_entry_run _ _⟩
    have hmade := onStore_run (s := {m with store := {st with queues := st.queues.set v.queue w.queue}})
      hentry
    refine ⟨⟨w.with_queue v.queue, stats, false⟩, _, ?_, hordered.place hr ?_ (fun _ _ => rfl) rfl,
      fun u hu => ?_⟩
    · simp only [List.isEmpty_nil, Bool.not_true, Bool.false_eq_true, if_false, EStateM.run_bind,
        hpushed, hmade]
    · show Coherent ((w.with_queue v.queue).with_queue ((st.queues.set v.queue w.queue).cell v.queue))
      rw [hcell]
      exact hcoherent
    · by_cases hid : u.ticket.channel_id = t.ticket.channel_id
      · rcases hu with rfl | ⟨r', hr', hmem⟩
        · refine ⟨v.queue, hr, ?_⟩
          show u ∈ tickets ((st.queues.set v.queue w.queue).cell v.queue)
          rw [hcell]
          exact htickets.symm ▸ List.mem_singleton_self u
        · -- the channel's queue was empty
          rw [hid] at hr'
          rcases hold with ⟨hr'', rfl⟩ | ⟨hnone', _⟩
          · obtain rfl := Option.some.inj (hr'.symm.trans hr'')
            rw [hq] at hmem
            cases hmem
          · cases hnone'.symm.trans hr'
      · rcases hu with rfl | hu
        · exact absurd rfl hid
        · exact onlyChanges_queued (honly.trans honly') hu hid

/-- An insertion through a current entry, or of the first ticket of a channel while no
synchronization is under way. -/
theorem insert_ordered [CreatableQueue Q] (h : Ordered m phase) {t : RedeemableTicket}
    (hfirst : m.channel_tickets.lookup t.ticket.channel_id = none → phase = fun _ => .steady)
    (hcurrent : ∀ e, m.channel_tickets.lookup t.ticket.channel_id = some e →
      Current m phase t.ticket.channel_id e ∧
      epoch_total t.verified_ticket.channel_epoch (tickets (m.view e).queue) +
        t.verified_ticket.amount.amount ≤ HoprBalance.MAX) :
    (∃ err, (insert_incoming_ticket (ε := ε) t).run m = .error err m) ∨
    ∃ neg m', (insert_incoming_ticket (ε := ε) t).run m = .ok neg m' ∧ Ordered m' phase ∧
      ∀ u, u = t ∨ Queued m u → Queued m' u ∨ u.ticket ∈ neg := by
  cases he : m.channel_tickets.lookup t.ticket.channel_id with
  | some e =>
    right
    obtain ⟨hc, hfits⟩ := hcurrent e he
    obtain ⟨neg, c, hrun, hsound, hcoherent, hkeep⟩ :=
      insert_occupied_sound (ε := ε) t (m.view e) (h.sound hc) hfits
    refine ⟨neg, m.put e c, ?_, h.write hc hsound hcoherent, fun u hu => ?_⟩
    · simp only [insert_incoming_ticket, EStateM.run_bind, EStateM.run_get, he, on_entry_run hrun]
    · rcases hu with rfl | hu
      · refine (hkeep u (Or.inl rfl)).imp_left fun hin => ⟨m.handle e, h.handle hc, ?_⟩
        show u ∈ tickets ((m.store.queues.set (m.handle e) c.queue.queue).cell (m.handle e))
        rw [cell_set_self]
        exact hin
      · exact queued_put hu fun hin => hkeep u (Or.inr hin)
  | none =>
    obtain rfl := hfirst he
    rcases first_entry_ordered (ε := ε) h he with
      ⟨err, hrun⟩ | ⟨c, m', hrun, hordered, hqueued⟩
    · left
      exact ⟨err, by simp only [insert_incoming_ticket, EStateM.run_bind, EStateM.run_get, he, hrun]⟩
    · right
      refine ⟨[], _, ?_, hordered, fun u hu => Or.inl (hqueued u hu)⟩
      simp only [insert_incoming_ticket, EStateM.run_bind, EStateM.run_get, he, hrun,
        EStateM.run_modify, EStateM.run_pure]

/-- A turn of `neglect_tickets`, through a current entry if it takes a ticket. -/
theorem neglect_next_ordered (h : Ordered m phase) {id : ChannelId} {e : EntryRef}
    {max_index : UInt64}
    (hcurrent : ∀ t, (tickets (m.view e).queue).head? = some t →
      t.verified_ticket.index ≤ max_index → Current m phase id e) :
    ∃ o m', (on_entry e (neglect_next max_index)).run m = .ok o m' ∧ Ordered m' phase ∧
      ∀ u, Queued m u → Queued m' u ∨ ∃ neg, o = some neg ∧ u.ticket ∈ neg := by
  rcases neglect_next_cases max_index (m.view e) with ⟨t, ht, hle, hrun⟩ | ⟨_, hrun⟩
  · have hc := hcurrent t ht hle
    refine ⟨_, _, on_entry_run hrun, h.write hc ?_ coherent_popped, fun u hu => ?_⟩
    · exact sound_popped (h.sound hc)
    · refine queued_put hu fun hin => ?_
      rw [← List.cons_head?_tail ht] at hin
      rcases List.mem_cons.mp hin with rfl | hin
      · exact Or.inr ⟨_, rfl, List.mem_singleton_self _⟩
      · exact Or.inl (tickets_popped (m.view e).queue ▸ hin)
  · refine ⟨_, _, on_entry_run hrun, ?_, fun u hu => Or.inl ?_⟩
    · rw [put_view]
      exact h
    · rw [put_view]
      exact hu

/-- A completion, through a current entry if the ticket is still the head. -/
theorem complete_redeem_ordered (h : Ordered m phase) {id : ChannelId} {e : EntryRef}
    {t : RedeemableTicket} (result : RedemptionResult)
    (hcurrent : (tickets (m.view e).queue).head? = some t → Current m phase id e) :
    ∃ m', (on_entry e (complete_redeem t result)).run m = .ok () m' ∧ Ordered m' phase ∧
      ∀ u, Queued m u → Queued m' u ∨ u = t := by
  have hrun := complete_redeem_run t result (m.view e)
  split at hrun
  · rename_i ht
    have hc := hcurrent ht
    refine ⟨_, on_entry_run hrun, h.write hc ?_ coherent_popped, fun u hu => ?_⟩
    · exact sound_popped (h.sound hc)
    · refine queued_put hu fun hin => ?_
      rw [← List.cons_head?_tail ht] at hin
      rcases List.mem_cons.mp hin with rfl | hin
      · exact Or.inr rfl
      · exact Or.inl (tickets_popped (m.view e).queue ▸ hin)
  · refine ⟨_, on_entry_run hrun, h.same_queues (sameQueues_put m e _), fun u hu => ?_⟩
    exact queued_put hu Or.inl

end Calls

end Hopr.TicketManager.Consistency
