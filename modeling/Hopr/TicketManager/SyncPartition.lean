import Hopr.TicketManager.FailedCalls
import Hopr.TicketManager.Neglection
import Hopr.TicketManager.Sync
import Mathlib.Data.List.Dedup

/-! What a synchronization makes of the tickets.

A whole synchronization goes through its steps in two loops. The first deletes the
queues of the channels that are not open (`purge_run`), the second prunes and
counts those that are (`load_run`, `load_all_run`). In a queue of one epoch the
outdated tickets are in front, so pruning takes exactly these; every ticket is
kept in its queue or returned as neglected, each cached value is that of its
queue, and a second synchronization finds nothing to do (`sync_partitions`). -/
namespace Hopr.TicketManager.SyncPartition
open Library Heap TicketQueue ValueCachedQueue HoprTicketManager FailedCalls Neglection

/-! ### Counting a queue -/

section Count
variable {H ε : Type}

theorem worth_perm {l l' : List RedeemableTicket} (h : l.Perm l') : worth l = worth l' := by
  ext
  unfold worth
  rw [amount_sum_amounts, amount_sum_amounts, total_perm h]

/-- The cached value of a queue that was just counted. -/
theorem load_value {l : List RedeemableTicket} (hone : OneEpoch l) (h : H) :
    (load (ε := ε) (l.map .ok) ⟨h, fun _ => none, none⟩).cached_unrealized_value = worth l := by
  cases l with
  | nil => rfl
  | cons t rest =>
    unfold cached_unrealized_value worth
    rw [load_current_of_mem hone _ List.mem_cons_self, Option.bind_some]
    ext
    rw [amount_sum_amounts, ← hone.epoch_total_eq List.mem_cons_self]
    exact (load_cached (t :: rest) _ _).trans (congrArg (min · _) (Nat.zero_add _))

end Count

/-! ### The loops -/

/-- A channel of the list has the id. -/
def named (channels : List ChannelEntry) (id : ChannelId) : Bool := channels.any (·.id = id)

theorem named_iff {channels : List ChannelEntry} {id : ChannelId} :
    named channels id = true ↔ ∃ channel ∈ channels, channel.id = id := by
  simp only [named, List.any_eq_true, decide_eq_true_eq]

/-- A choice between the members of a list made one after another. -/
theorem ite_mem_cons {α : Type} {i id : ChannelId} {ids : List ChannelId} {p : Prop} [Decidable p] (a b : α) :
    (if i ∈ ids ∧ p then a else if i ∈ [id] ∧ p then a else b) = if i ∈ id :: ids ∧ p then a else b := by
  by_cases hids : i ∈ ids ∧ p
  · rw [if_pos hids, if_pos ⟨List.mem_cons_of_mem _ hids.1, hids.2⟩]
  · rw [if_neg hids]
    apply ite_congr
    · simp only [List.mem_cons, eq_iff_iff]
      tauto
    · exact fun _ => rfl
    · exact fun _ => rfl

/-- The tickets of the channels that are not open. -/
def purged_tickets (channels : List ChannelEntry) (c : Contents) (ids : List ChannelId) : List VerifiedTicket :=
  (ids.filter fun id => !named channels id).flatMap fun id => (c id).map (·.ticket)

theorem purged_tickets_congr {channels : List ChannelEntry} {c c' : Contents} {ids : List ChannelId}
    (h : ∀ id ∈ ids, c' id = c id) : purged_tickets channels c' ids = purged_tickets channels c ids := by
  unfold purged_tickets
  apply List.flatMap_congr
  intro id hid
  rw [h id (List.mem_of_mem_filter hid)]

section Purge
variable {Q ε : Type} [TicketQueue Q ε] {m m' : HoprTicketManager Q}

/-- The queues of the channels `ids` that are not among `channels` are gone, with their entries. -/
structure Purged (m m' : HoprTicketManager Q) (channels : List ChannelEntry) (ids : List ChannelId) :
    Prop where
  wellFormed : WellFormed m'
  contents_eq : ∀ id, contents m'.store id =
    if id ∈ ids ∧ named channels id = false then [] else contents m.store id
  stored_eq : ∀ id, m'.store.tickets.lookup id =
    if id ∈ ids ∧ named channels id = false then none else m.store.tickets.lookup id
  map_eq : ∀ id, m'.channel_tickets.lookup id =
    if id ∈ ids ∧ named channels id = false then none else m.channel_tickets.lookup id

theorem purged_nil (h : WellFormed m) (channels : List ChannelEntry) : Purged m m channels [] := by
  refine ⟨h, fun id => ?_, fun id => ?_, fun id => ?_⟩ <;> rw [if_neg fun hid => List.not_mem_nil hid.1]

theorem Purged.cons {channels : List ChannelEntry} {id : ChannelId} {ids : List ChannelId}
    {m₁ : HoprTicketManager Q} (hfirst : Purged m m₁ channels [id]) (h : Purged m₁ m' channels ids) :
    Purged m m' channels (id :: ids) := by
  refine ⟨h.wellFormed, fun i => ?_, fun i => ?_, fun i => ?_⟩
  · rw [h.contents_eq, hfirst.contents_eq, ite_mem_cons]
  · rw [h.stored_eq, hfirst.stored_eq, ite_mem_cons]
  · rw [h.map_eq, hfirst.map_eq, ite_mem_cons]

/-- The queue of a channel that is not open is gone. -/
theorem purged_delete (h : WellFormed m) {channels : List ChannelEntry} {id : ChannelId} {st : TicketStore Q}
    (hid : named channels id = false) (htickets : st.tickets = m.store.tickets.erase id)
    (hnext : st.queues.next = m.store.queues.next)
    (hcontents : contents st = Function.update (contents m.store) id []) :
    Purged m {m with store := st, channel_tickets := m.channel_tickets.erase id} channels [id] := by
  have herase : ∀ (t : Heap.Table ChannelId) i, (t.erase id).lookup i =
      if i ∈ [id] ∧ named channels i = false then none else t.lookup i := by
    intro t i
    by_cases hi : i = id
    · subst hi
      rw [AList.lookup_erase, if_pos ⟨List.mem_singleton_self i, hid⟩]
    · rw [AList.lookup_erase_ne hi, if_neg fun hmem => hi (List.mem_singleton.mp hmem.1)]
  refine ⟨wellFormed_delete h htickets hnext, fun i => ?_, fun i => ?_, herase _⟩
  · show contents st i = _
    rw [hcontents]
    by_cases hi : i = id
    · subst hi
      rw [Function.update_self, if_pos ⟨List.mem_singleton_self i, hid⟩]
    · rw [Function.update_of_ne hi, if_neg fun hmem => hi (List.mem_singleton.mp hmem.1)]
  · show st.tickets.lookup i = _
    rw [htickets]
    exact herase _ i

theorem purged_open (h : WellFormed m) {channels : List ChannelEntry} {id : ChannelId}
    (hid : named channels id = true) : Purged m m channels [id] := by
  have hnot : ∀ i, ¬ (i ∈ [id] ∧ named channels i = false) := by
    intro i ⟨hmem, hfalse⟩
    rw [List.mem_singleton.mp hmem, hid] at hfalse
    cases hfalse
  refine ⟨h, fun i => ?_, fun i => ?_, fun i => ?_⟩ <;> rw [if_neg (hnot i)]

variable [CreatableQueue Q] [ChannelClock]

theorem sync_loop_succ {y y' : Synchronizing} (n : Nat) (h : (sync_tick (ε := ε) y).run m = .ok (some y') m') :
    (sync_loop (ε := ε) (n + 1) y).run m = (sync_loop n y').run m' := by
  simp only [sync_loop, EStateM.run_bind, h]

theorem tick_purge (y : Synchronizing) (neglected : List VerifiedTicket) (id : ChannelId) (ids : List ChannelId) :
    (sync_tick {y with neglected, at_step := .purge (id :: ids)} :
      EStateM (TicketManagerError ε) (HoprTicketManager Q) _) =
    if named y.open_channels id = true then pure (some {y with neglected, at_step := .purge ids})
    else do
      let tickets ← onStore (TicketStore.delete_queue id)
      return some {y with neglected := neglected ++ tickets, at_step := .remove id ids} := rfl

variable [TotalTicketQueue Q]

/-- The first loop of a synchronization. -/
theorem purge_run (y : Synchronizing) (n : Nat) (neglected : List VerifiedTicket) (ids : List ChannelId)
    (hnodup : ids.Nodup) (h : WellFormed m) : ∃ m' k, n ≤ k ∧ Purged m m' y.open_channels ids ∧
      (sync_loop (ε := ε) (2 * ids.length + 1 + n) {y with neglected, at_step := .purge ids}).run m =
        (sync_loop k {y with
          neglected := neglected ++ purged_tickets y.open_channels (contents m.store) ids
          at_step := .load y.open_channels}).run m' := by
  induction ids generalizing n neglected m with
  | nil =>
    refine ⟨m, n, Nat.le_refl n, purged_nil h _, ?_⟩
    rw [show 2 * [].length + 1 + n = n + 1 from Nat.add_comm _ _]
    exact (sync_loop_succ n rfl).trans (by rw [purged_tickets, List.filter_nil, List.flatMap_nil, List.append_nil]; rfl)
  | cons id ids ih =>
    obtain ⟨hnot, hrest⟩ := List.nodup_cons.mp hnodup
    cases hid : named y.open_channels id with
    | true =>
      obtain ⟨m', k, hk, hpurged, hrun⟩ := ih (n + 1) neglected hrest h
      refine ⟨m', k, Nat.le_of_succ_le hk, (purged_open h hid).cons hpurged, ?_⟩
      have htick : (sync_tick (ε := ε) {y with neglected, at_step := .purge (id :: ids)}).run m =
          .ok (some {y with neglected, at_step := .purge ids}) m := by
        rw [tick_purge, if_pos hid]
        rfl
      rw [show 2 * (id :: ids).length + 1 + n = 2 * ids.length + 1 + (n + 1) + 1 by rw [List.length_cons]; omega,
        sync_loop_succ _ htick, hrun]
      unfold purged_tickets
      rw [List.filter_cons_of_neg (by rw [hid]; decide)]
    | false =>
      obtain ⟨st, hdelete, htickets, hnext, hcontents⟩ := delete_queue_spec h.stored id
      have hfirst := purged_delete h hid htickets hnext hcontents
      obtain ⟨m', k, hk, hpurged, hrun⟩ := ih n (neglected ++ (contents m.store id).map (·.ticket)) hrest
        hfirst.wellFormed
      refine ⟨m', k, hk, hfirst.cons hpurged, ?_⟩
      have htick : (sync_tick (ε := ε) {y with neglected, at_step := .purge (id :: ids)}).run m =
          .ok (some {y with
            neglected := neglected ++ (contents m.store id).map (·.ticket)
            at_step := .remove id ids}) {m with store := st} := by
        rw [tick_purge, if_neg (by rw [hid]; decide)]
        simp only [EStateM.run_bind, onStore_run hdelete, EStateM.run_pure]
      rw [show 2 * (id :: ids).length + 1 + n = 2 * ids.length + 1 + n + 1 + 1 by rw [List.length_cons]; omega,
        sync_loop_succ _ htick, sync_loop_succ _ rfl, hrun]
      have hlater : purged_tickets y.open_channels (contents st) ids =
          purged_tickets y.open_channels (contents m.store) ids := by
        apply purged_tickets_congr
        intro i hi
        rw [hcontents, Function.update_of_ne]
        rintro rfl
        exact hnot hi
      have hall : purged_tickets y.open_channels (contents m.store) (id :: ids) =
          (contents m.store id).map (·.ticket) ++ purged_tickets y.open_channels (contents m.store) ids := by
        unfold purged_tickets
        rw [List.filter_cons_of_pos (by rw [hid]; rfl), List.flatMap_cons]
      rw [hall, hlater, List.append_assoc]

end Purge

section Load
variable {Q ε : Type} {m m' : HoprTicketManager Q}

/-- The value cached for a channel, if it has an entry. -/
def value (m : HoprTicketManager Q) (id : ChannelId) : Option HoprBalance :=
  (m.channel_tickets.lookup id).map fun e => (m.entries.cell e).queue.cached_unrealized_value

theorem value_place_self (id : ChannelId) (c : ChannelTicketQueue) :
    value (m.place id c) id = some c.queue.cached_unrealized_value := by
  unfold value
  simp only [place, AList.lookup_insert, Option.map_some, cell_alloc_self]

theorem value_place_ne (h : Named m.entries m.channel_tickets) {id i : ChannelId} (hi : i ≠ id)
    (c : ChannelTicketQueue) : value (m.place id c) i = value m i := by
  unfold value
  simp only [place, AList.lookup_insert_ne hi]
  cases hi' : m.channel_tickets.lookup i with
  | none => rfl
  | some e => simp only [Option.map_some, cell_alloc_lt _ (h.allocated hi')]

variable [TicketQueue Q ε]

/-- The channel has a queue without its outdated tickets, and an entry with its value. -/
structure Loaded (m m' : HoprTicketManager Q) (channel : ChannelEntry) : Prop where
  wellFormed : WellFormed m'
  contents_eq : contents m'.store = Function.update (contents m.store) channel.id
    ((contents m.store channel.id).dropWhile (outdated channel))
  stored : ∃ r, m'.store.tickets.lookup channel.id = some r ∧
    ∀ r', m.store.tickets.lookup channel.id = some r' → r' = r
  value_eq : value m' channel.id = some (worth (contents m'.store channel.id))
  others : ∀ id, id ≠ channel.id →
    m'.store.tickets.lookup id = m.store.tickets.lookup id ∧ value m' id = value m id

/-- The channels are loaded, and nothing happened to others. -/
structure AllLoaded (m m' : HoprTicketManager Q) (channels : List ChannelEntry) : Prop where
  wellFormed : WellFormed m'
  kept : ∀ channel ∈ channels, contents m'.store channel.id =
    (contents m.store channel.id).dropWhile (outdated channel)
  stored : ∀ channel ∈ channels, ∃ r, m'.store.tickets.lookup channel.id = some r ∧
    ∀ r', m.store.tickets.lookup channel.id = some r' → r' = r
  value_eq : ∀ channel ∈ channels, value m' channel.id = some (worth (contents m'.store channel.id))
  others : ∀ id, named channels id = false → contents m'.store id = contents m.store id ∧
    m'.store.tickets.lookup id = m.store.tickets.lookup id ∧ value m' id = value m id

theorem AllLoaded.cons {m₁ : HoprTicketManager Q} {channel : ChannelEntry} {channels : List ChannelEntry}
    (hnot : named channels channel.id = false) (hfirst : Loaded m m₁ channel) (h : AllLoaded m₁ m' channels) :
    AllLoaded m m' (channel :: channels) := by
  obtain ⟨hcontents, hstored, hvalue⟩ := h.others channel.id hnot
  have hne : ∀ other ∈ channels, other.id ≠ channel.id := by
    intro other hother heq
    rw [named_iff.mpr ⟨other, hother, heq⟩] at hnot
    cases hnot
  refine ⟨h.wellFormed, fun other hother => ?_, fun other hother => ?_, fun other hother => ?_, fun id hid => ?_⟩
  · obtain rfl | hother := List.mem_cons.mp hother
    · rw [hcontents, hfirst.contents_eq, Function.update_self]
    · rw [h.kept other hother, hfirst.contents_eq, Function.update_of_ne (hne other hother)]
  · obtain rfl | hother := List.mem_cons.mp hother
    · rw [hstored]
      exact hfirst.stored
    · rw [← (hfirst.others _ (hne other hother)).1]
      exact h.stored other hother
  · obtain rfl | hother := List.mem_cons.mp hother
    · rw [hvalue, hcontents]
      exact hfirst.value_eq
    · exact h.value_eq other hother
  · have hother : id ≠ channel.id := by
      rintro rfl
      rw [named_iff.mpr ⟨channel, List.mem_cons_self, rfl⟩] at hid
      cases hid
    have hrest : named channels id = false := by
      rw [← Bool.not_eq_true, named_iff] at hid ⊢
      exact fun ⟨other, hother, heq⟩ => hid ⟨other, List.mem_cons_of_mem _ hother, heq⟩
    obtain ⟨hcontents, hstored, hvalue⟩ := h.others id hrest
    obtain ⟨hstored₁, hvalue₁⟩ := hfirst.others id hother
    refine ⟨?_, hstored.trans hstored₁, hvalue.trans hvalue₁⟩
    rw [hcontents, hfirst.contents_eq, Function.update_of_ne hother]

/-- The outdated tickets of the channels. -/
def pruned_tickets (channels : List ChannelEntry) (c : Contents) : List VerifiedTicket :=
  channels.flatMap fun channel => ((c channel.id).takeWhile (outdated channel)).map (·.ticket)

variable [CreatableQueue Q] [ChannelClock] [TotalTicketQueue Q]

/-- A turn of the second loop. -/
theorem load_turn (y : Synchronizing) (n : Nat) (neglected : List VerifiedTicket) (channel : ChannelEntry)
    (channels : List ChannelEntry) (h : WellFormed m) (hone : OneEpoch (contents m.store channel.id)) :
    ∃ m', Loaded m m' channel ∧
      (sync_loop (ε := ε) (n + 3) {y with neglected, at_step := .load (channel :: channels)}).run m =
        (sync_loop n {y with
          neglected := neglected ++
            ((contents m.store channel.id).takeWhile (outdated channel)).map (·.ticket)
          at_step := .load channels}).run m' := by
  obtain ⟨r, st, hopen, hst, hfound⟩ := open_queue_run (ε := ε) h channel.id
  obtain ⟨_, hkept, hothers⟩ := TicketStore.open_or_create_queue_lookup hopen
  have hqueue : tickets (st.queues.cell r) = contents m.store channel.id := by
    rw [← contents_of_lookup hfound.found, hst]
  obtain ⟨q, hprune, hq⟩ := prune_run (ε := ε) channel (st.queues.cell r)
  rw [hqueue] at hprune hq
  have hpruned := onStore_run (s := {m with store := st}) (TicketStore.on_queue_run hprune)
  obtain ⟨visited, hvisited, hnew⟩ := new_run (ε := ε) r q
  have hlater : OneEpoch visited := by
    intro t ht u hu
    rw [hvisited.mem_iff, hq] at ht hu
    exact hone t ((List.dropWhile_sublist _).mem ht) u ((List.dropWhile_sublist _).mem hu)
  have hvalue := load_value (ε := ε) hlater r
  have hhandle := load_queue (ε := ε) (visited.map .ok) ⟨r, fun _ => none, none⟩
  generalize load (ε := ε) (visited.map .ok) ⟨r, fun _ => none, none⟩ = v at hnew hvalue hhandle
  have hset : ({st with queues := st.queues.set r q} : TicketStore Q).queues.cell r = q := cell_set_self ..
  rw [← hset] at hnew
  have hcounted := onStore_run (s := {m with store := {st with queues := st.queues.set r q}})
    (TicketStore.on_queue_read hnew)
  obtain ⟨c, hentry, hc⟩ : ∃ c, (new_entry (ε := ε) v).run {st with queues := st.queues.set r q} =
      .ok c {st with queues := st.queues.set r q} ∧ c.queue = v := ⟨_, new_entry_run v _, rfl⟩
  have hmade := onStore_run (s := {m with store := {st with queues := st.queues.set r q}}) hentry
  have hwell := wellFormed_set hfound.wellFormed r q
  have hcontents := contents_set hfound.wellFormed.stored hfound.found q
  rw [hst, hq] at hcontents
  refine ⟨place channel.id c {m with store := {st with queues := st.queues.set r q}},
    ⟨wellFormed_place hwell ?_, hcontents, ⟨r, hfound.found, hkept⟩, ?_, fun id hid => ⟨hothers id hid, ?_⟩⟩, ?_⟩
  · rw [hc, hhandle]
    exact hfound.found
  · rw [value_place_self, hc, hvalue, worth_perm hvisited, hq]
    show some _ = some (worth (contents {st with queues := st.queues.set r q} channel.id))
    rw [hcontents, Function.update_self]
  · exact value_place_ne (m := {m with store := {st with queues := st.queues.set r q}}) h.named hid c
  · have hpruning : (sync_tick (ε := ε) {y with neglected, at_step := .load (channel :: channels)}).run m =
        .ok (some {y with
          neglected := neglected ++ ((contents m.store channel.id).takeWhile (outdated channel)).map (·.ticket)
          at_step := .count channel.id r channels}) {m with store := {st with queues := st.queues.set r q}} := by
      simp only [sync_tick, EStateM.run_bind, onStore_run hopen, hpruned, EStateM.run_pure]
    have hcounting : (sync_tick (ε := ε) {y with
          neglected := neglected ++ ((contents m.store channel.id).takeWhile (outdated channel)).map (·.ticket)
          at_step := .count channel.id r channels}).run {m with store := {st with queues := st.queues.set r q}} =
        .ok (some {y with
          neglected := neglected ++ ((contents m.store channel.id).takeWhile (outdated channel)).map (·.ticket)
          at_step := .replace channel.id v channels}) {m with store := {st with queues := st.queues.set r q}} := by
      simp only [sync_tick, EStateM.run_bind, hcounted, EStateM.run_pure]
    rw [sync_loop_succ _ hpruning, sync_loop_succ _ hcounting]
    apply sync_loop_succ
    simp only [sync_tick, EStateM.run_bind, hmade, EStateM.run_modify, EStateM.run_pure]

/-- The second loop of a synchronization. -/
theorem load_all_run (y : Synchronizing) (n : Nat) (neglected : List VerifiedTicket)
    (channels : List ChannelEntry) (hdistinct : (channels.map (·.id)).Nodup) (h : WellFormed m)
    (hone : ∀ id, OneEpoch (contents m.store id)) : ∃ m', AllLoaded m m' channels ∧
      (sync_loop (ε := ε) (3 * channels.length + 1 + n) {y with neglected, at_step := .load channels}).run m =
        .ok (neglected ++ pruned_tickets channels (contents m.store)) m' := by
  induction channels generalizing neglected m with
  | nil =>
    refine ⟨m, ⟨h, fun _ hc => (nomatch hc), fun _ hc => (nomatch hc), fun _ hc => (nomatch hc),
      fun _ _ => ⟨rfl, rfl, rfl⟩⟩, ?_⟩
    rw [show 3 * ([] : List ChannelEntry).length + 1 + n = n + 1 from Nat.add_comm _ _, pruned_tickets,
      List.flatMap_nil, List.append_nil]
    rfl
  | cons channel channels ih =>
    obtain ⟨hmem, hrest⟩ := List.nodup_cons.mp hdistinct
    have hnot : named channels channel.id = false := by
      rw [← Bool.not_eq_true, named_iff]
      intro ⟨other, hother, heq⟩
      exact hmem (List.mem_map.mpr ⟨other, hother, heq⟩)
    obtain ⟨m₁, hfirst, hturn⟩ := load_turn (ε := ε) y (3 * channels.length + 1 + n) neglected channel channels h
      (hone channel.id)
    have hone₁ : ∀ id, OneEpoch (contents m₁.store id) := by
      intro id t ht u hu
      rw [hfirst.contents_eq] at ht hu
      by_cases hid : id = channel.id
      · subst hid
        rw [Function.update_self] at ht hu
        exact hone _ t ((List.dropWhile_sublist _).mem ht) u ((List.dropWhile_sublist _).mem hu)
      · rw [Function.update_of_ne hid] at ht hu
        exact hone id t ht u hu
    obtain ⟨m', hall, hrun⟩ := ih _ hrest hfirst.wellFormed hone₁
    refine ⟨m', hall.cons hnot hfirst, ?_⟩
    have hlater : pruned_tickets channels (contents m₁.store) = pruned_tickets channels (contents m.store) := by
      unfold pruned_tickets
      apply List.flatMap_congr
      intro other hother
      have hne : other.id ≠ channel.id := fun heq => hmem (List.mem_map.mpr ⟨other, hother, heq⟩)
      rw [hfirst.contents_eq, Function.update_of_ne hne]
    rw [show 3 * (channel :: channels).length + 1 + n = 3 * channels.length + 1 + n + 3 by
      rw [List.length_cons]; omega, hturn, hrun, hlater, List.append_assoc]
    rfl

end Load

/-! ### The call -/

/-- In the natural order of one epoch the outdated tickets come first. -/
theorem front_outdated {l : List RedeemableTicket} (hsorted : l.Pairwise fun t u => t.key ≤ u.key)
    (hone : OneEpoch l) (channel : ChannelEntry) : Front (outdated channel) l := by
  apply hsorted.imp_of_mem
  intro t u ht hu hle houtdated
  have hepoch := hone t ht u hu
  have hindex := (RedeemableTicket.key_le_iff_of_epoch_eq hepoch).mp hle
  apply decide_eq_true
  cases of_decide_eq_true houtdated with
  | inl hold => exact Or.inl (hepoch ▸ hold)
  | inr hlow => exact Or.inr (UInt64.lt_of_le_of_lt hindex hlow)

/-- Only what two lists without repetition share counts, if one is part of the other. -/
theorem flatMap_perm_of_subset {α β : Type} [DecidableEq α] {l l' : List α} (hl : l.Nodup) (hl' : l'.Nodup)
    (hsub : l' ⊆ l) {f : α → List β} (hnil : ∀ a ∈ l, a ∉ l' → f a = []) : (l.flatMap f).Perm (l'.flatMap f) := by
  have hsplit := (List.filter_append_perm (fun a => a ∈ l') l).symm
  have hshared : (l.filter fun a => a ∈ l').Perm l' := by
    apply (List.perm_ext_iff_of_nodup (hl.filter _) hl').mpr
    intro a
    rw [List.mem_filter, decide_eq_true_eq]
    exact ⟨fun ha => ha.2, fun ha => ⟨hsub ha, ha⟩⟩
  have hrest : (l.filter fun a => !decide (a ∈ l')).flatMap f = [] := by
    rw [List.flatMap_eq_nil_iff]
    intro a ha
    obtain ⟨hmem, hnot⟩ := List.mem_filter.mp ha
    exact hnil a hmem (of_decide_eq_false ((Bool.not_eq_true' _).mp hnot))
  have hflat := hsplit.flatMap_right f
  rw [List.flatMap_append, hrest, List.append_nil] at hflat
  exact hflat.trans (hshared.flatMap_right f)

section Call
variable {Q ε : Type} [TicketQueue Q ε] {m m₁ m' : HoprTicketManager Q} {channels : List ChannelEntry}

/-- The tickets are divided between the queues of the open channels and what is returned. -/
structure Synchronized (m m' : HoprTicketManager Q) (channels : List ChannelEntry)
    (neglected : List VerifiedTicket) : Prop where
  wellFormed : WellFormed m'
  /-- Every stored ticket is taken or kept, and what is taken is returned. -/
  partition : ∃ taken : Contents, (∀ id, contents m.store id = taken id ++ contents m'.store id) ∧
    neglected.Perm (m.store.tickets.keys.flatMap fun id => (taken id).map (·.ticket)) ∧
    ∀ channel ∈ channels, ∀ t ∈ taken channel.id,
      t.verified_ticket.channel_epoch < channel.channel_epoch ∨ t.verified_ticket.index < channel.ticket_index
  gone : ∀ id, named channels id = false →
    m'.store.tickets.lookup id = none ∧ m'.channel_tickets.lookup id = none
  present : ∀ channel ∈ channels, (m'.store.tickets.lookup channel.id).isSome = true ∧
    (m'.channel_tickets.lookup channel.id).isSome = true
  kept : ∀ channel ∈ channels, ∀ t ∈ contents m'.store channel.id,
    channel.channel_epoch ≤ t.verified_ticket.channel_epoch ∧ channel.ticket_index ≤ t.verified_ticket.index
  value_eq : ∀ channel ∈ channels, value m' channel.id = some (worth (contents m'.store channel.id))

theorem Synchronized.perm {channels' : List ChannelEntry} {neglected : List VerifiedTicket}
    (h : Synchronized m m' channels neglected) (hperm : channels'.Perm channels) :
    Synchronized m m' channels' neglected := by
  have hnamed : ∀ id, named channels' id = named channels id := by
    intro id
    rw [Bool.eq_iff_iff, named_iff, named_iff]
    exact exists_congr fun channel => and_congr_left' hperm.mem_iff
  obtain ⟨taken, hsplit, hneglected, htaken⟩ := h.partition
  exact {
    wellFormed := h.wellFormed
    partition := ⟨taken, hsplit, hneglected, fun channel hchannel => htaken channel (hperm.mem_iff.mp hchannel)⟩
    gone := fun id hid => h.gone id (hnamed id ▸ hid)
    present := fun channel hchannel => h.present channel (hperm.mem_iff.mp hchannel)
    kept := fun channel hchannel => h.kept channel (hperm.mem_iff.mp hchannel)
    value_eq := fun channel hchannel => h.value_eq channel (hperm.mem_iff.mp hchannel) }

theorem lookup_none_of_not_mem {s : TicketStore Q} {id : ChannelId} (hid : id ∉ s.tickets.keys) :
    s.tickets.lookup id = none := AList.lookup_eq_none.mpr hid

theorem contents_of_lookup_none {s : TicketStore Q} {id : ChannelId} (hid : s.tickets.lookup id = none) :
    contents s id = [] := by simp only [FailedCalls.contents, hid, Option.elim_none]

/-- After the first loop only open channels have a queue. -/
theorem Purged.stored_none (h : Purged m m₁ channels m.store.tickets.keys) {id : ChannelId}
    (hid : named channels id = false) : m₁.store.tickets.lookup id = none := by
  rw [h.stored_eq]
  split
  · rfl
  · next hnot =>
    apply lookup_none_of_not_mem
    exact fun hmem => hnot ⟨hmem, hid⟩

theorem Purged.map_none (h : Purged m m₁ channels m.store.tickets.keys) {id : ChannelId}
    (hid : named channels id = false) : m₁.channel_tickets.lookup id = none := by
  cases he : m₁.channel_tickets.lookup id with
  | none => rfl
  | some e =>
    have hattached := h.wellFormed.attached he
    rw [h.stored_none hid] at hattached
    cases hattached

theorem Purged.contents_named {ids : List ChannelId} (h : Purged m m₁ channels ids) {channel : ChannelEntry}
    (hchannel : channel ∈ channels) : contents m₁.store channel.id = contents m.store channel.id := by
  rw [h.contents_eq, if_neg]
  intro ⟨_, hfalse⟩
  rw [named_iff.mpr ⟨channel, hchannel, rfl⟩] at hfalse
  cases hfalse

/-- What is taken from the queues, and what is kept of them. -/
theorem taken_of_loops (hdistinct : (channels.map (·.id)).Nodup) (hpurged : Purged m m₁ channels m.store.tickets.keys)
    (hloaded : AllLoaded m₁ m' channels) (id : ChannelId) :
    ∃ l, contents m.store id = l ++ contents m'.store id ∧ (named channels id = false → l = contents m.store id) ∧
      ∀ channel ∈ channels, channel.id = id → l = (contents m.store id).takeWhile (outdated channel) := by
  cases hid : named channels id with
  | false =>
    have hnone : m'.store.tickets.lookup id = none := (hloaded.others id hid).2.1.trans (hpurged.stored_none hid)
    refine ⟨contents m.store id, ?_, fun _ => rfl, fun channel hchannel heq => ?_⟩
    · rw [contents_of_lookup_none hnone, List.append_nil]
    · rw [named_iff.mpr ⟨channel, hchannel, heq⟩] at hid
      cases hid
  | true =>
    obtain ⟨channel, hchannel, rfl⟩ := named_iff.mp hid
    refine ⟨(contents m.store channel.id).takeWhile (outdated channel), ?_, fun hfalse => (nomatch hfalse),
      fun other hother heq => ?_⟩
    · rw [hloaded.kept channel hchannel, hpurged.contents_named hchannel, List.takeWhile_append_dropWhile]
    · rw [List.inj_on_of_nodup_map hdistinct hother hchannel heq]

/-- What the two loops return is what is taken from the queues. -/
theorem neglected_perm (hdistinct : (channels.map (·.id)).Nodup)
    (hpurged : Purged m m₁ channels m.store.tickets.keys) {taken : Contents}
    (hgone : ∀ id, named channels id = false → taken id = contents m.store id)
    (hpruned : ∀ channel ∈ channels, taken channel.id =
      (contents m.store channel.id).takeWhile (outdated channel)) :
    (purged_tickets channels (contents m.store) m.store.tickets.keys ++
      pruned_tickets channels (contents m₁.store)).Perm
      (m.store.tickets.keys.flatMap fun id => (taken id).map (·.ticket)) := by
  have hpurge : purged_tickets channels (contents m.store) m.store.tickets.keys =
      (m.store.tickets.keys.filter fun id => !named channels id).flatMap fun id => (taken id).map (·.ticket) := by
    unfold purged_tickets
    apply List.flatMap_congr
    intro id hid
    rw [hgone id ((Bool.not_eq_true' _).mp (List.mem_filter.mp hid).2)]
  have hprune : pruned_tickets channels (contents m₁.store) =
      (channels.map (·.id)).flatMap fun id => (taken id).map (·.ticket) := by
    unfold pruned_tickets
    rw [List.flatMap_map]
    apply List.flatMap_congr
    intro channel hchannel
    rw [hpruned channel hchannel, hpurged.contents_named hchannel]
  have hstored : ((channels.map (·.id)).flatMap fun id => (taken id).map (·.ticket)).Perm
      ((m.store.tickets.keys.filter fun id => named channels id).flatMap fun id => (taken id).map (·.ticket)) := by
    apply flatMap_perm_of_subset hdistinct (m.store.tickets.keys_nodup.filter _)
    · intro id hid
      obtain ⟨channel, hchannel, heq⟩ := named_iff.mp (List.mem_filter.mp hid).2
      exact List.mem_map.mpr ⟨channel, hchannel, heq⟩
    · -- an open channel without a queue has no tickets
      intro id hid hnot
      obtain ⟨channel, hchannel, rfl⟩ := List.mem_map.mp hid
      have hnone : m.store.tickets.lookup channel.id = none := by
        apply lookup_none_of_not_mem
        intro hmem
        exact hnot (List.mem_filter.mpr ⟨hmem, named_iff.mpr ⟨channel, hchannel, rfl⟩⟩)
      rw [hpruned channel hchannel, contents_of_lookup_none hnone]
      rfl
  rw [hpurge, hprune]
  have hsplit := (List.filter_append_perm (fun id => named channels id) m.store.tickets.keys).flatMap_right
    fun id => (taken id).map (·.ticket)
  rw [List.flatMap_append] at hsplit
  exact ((List.Perm.refl _).append hstored).trans (List.perm_append_comm.trans hsplit)

/-- Each stored ticket is of the same epoch as before, or is gone. -/
theorem Synchronized.one_epoch {neglected : List VerifiedTicket} (h : Synchronized m m' channels neglected)
    (hone : ∀ id, OneEpoch (contents m.store id)) (id : ChannelId) : OneEpoch (contents m'.store id) := by
  obtain ⟨taken, hsplit, _⟩ := h.partition
  have hsub : contents m'.store id ⊆ contents m.store id := by
    rw [hsplit id]
    exact List.subset_append_right _ _
  exact fun t ht u hu => hone id t (hsub ht) u (hsub hu)

/-- The loops of a second synchronization have nothing to take. -/
theorem settled_of_loops {neglected : List VerifiedTicket} {m'' : HoprTicketManager Q}
    (h : Synchronized m m' channels neglected)
    (hkept : ∀ channel ∈ channels, ∀ t ∈ contents m'.store channel.id, outdated channel t = false)
    (hpurged : Purged m' m₁ channels m'.store.tickets.keys) (hloaded : AllLoaded m₁ m'' channels) :
    purged_tickets channels (contents m'.store) m'.store.tickets.keys ++
        pruned_tickets channels (contents m₁.store) = [] ∧
      contents m''.store = contents m'.store ∧
      ∀ id, m''.store.tickets.lookup id = m'.store.tickets.lookup id ∧ value m'' id = value m' id := by
  have hpurge : purged_tickets channels (contents m'.store) m'.store.tickets.keys = [] := by
    rw [purged_tickets, List.flatMap_eq_nil_iff]
    intro id hid
    rw [contents_of_lookup_none (h.gone id ((Bool.not_eq_true' _).mp (List.mem_filter.mp hid).2)).1]
    rfl
  have hprune : pruned_tickets channels (contents m₁.store) = [] := by
    rw [pruned_tickets, List.flatMap_eq_nil_iff]
    intro channel hchannel
    rw [hpurged.contents_named hchannel, List.map_eq_nil_iff, List.takeWhile_eq_nil_iff]
    intro hpos
    rw [hkept channel hchannel _ (List.get_mem _ _)]
    exact Bool.false_ne_true
  have hcontents : contents m''.store = contents m'.store := by
    funext id
    cases hid : named channels id with
    | false =>
      have hnone : m''.store.tickets.lookup id = none := (hloaded.others id hid).2.1.trans (hpurged.stored_none hid)
      rw [contents_of_lookup_none hnone, contents_of_lookup_none (h.gone id hid).1]
    | true =>
      obtain ⟨channel, hchannel, rfl⟩ := named_iff.mp hid
      rw [hloaded.kept channel hchannel, hpurged.contents_named hchannel, List.dropWhile_eq_self_iff]
      intro hpos
      rw [hkept channel hchannel _ (List.getElem_mem hpos)]
      exact Bool.false_ne_true
  refine ⟨by rw [hpurge, hprune]; rfl, hcontents, fun id => ?_⟩
  cases hid : named channels id with
  | false =>
    obtain ⟨hstored, hmap⟩ := h.gone id hid
    obtain ⟨_, hstored', hvalue⟩ := hloaded.others id hid
    constructor
    · rw [hstored', hpurged.stored_none hid, hstored]
    · rw [hvalue, value, value, hpurged.map_none hid, hmap]
      rfl
  | true =>
    obtain ⟨channel, hchannel, rfl⟩ := named_iff.mp hid
    obtain ⟨r, hr, hsame⟩ := hloaded.stored channel hchannel
    obtain ⟨r', hr'⟩ := Option.isSome_iff_exists.mp (h.present channel hchannel).1
    have hfirst : m₁.store.tickets.lookup channel.id = some r' := by
      rw [hpurged.stored_eq, if_neg, hr']
      rw [hid]
      exact fun hfalse => Bool.false_ne_true hfalse.2.symm
    constructor
    · rw [hr, hr', hsame r' hfirst]
    · rw [hloaded.value_eq channel hchannel, h.value_eq channel hchannel, hcontents]

variable [TotalTicketQueue Q]

theorem contents_sorted (s : TicketStore Q) (id : ChannelId) :
    (contents s id).Pairwise fun t u => t.key ≤ u.key := by
  unfold FailedCalls.contents
  cases s.tickets.lookup id with
  | none => exact .nil
  | some r => exact TotalTicketQueue.sorted (s.queues.cell r)

/-- The tickets that are left are not outdated. -/
theorem not_outdated (hone : ∀ id, OneEpoch (contents m.store id)) (hpurged : Purged m m₁ channels m.store.tickets.keys)
    (hloaded : AllLoaded m₁ m' channels) {channel : ChannelEntry} (hchannel : channel ∈ channels)
    {t : RedeemableTicket} (ht : t ∈ contents m'.store channel.id) : outdated channel t = false := by
  rw [hloaded.kept channel hchannel, hpurged.contents_named hchannel] at ht
  exact (front_outdated (contents_sorted m.store channel.id) (hone channel.id) channel).not_of_mem_dropWhile ht

theorem synchronized_of_loops (hdistinct : (channels.map (·.id)).Nodup) (hone : ∀ id, OneEpoch (contents m.store id))
    (hpurged : Purged m m₁ channels m.store.tickets.keys) (hloaded : AllLoaded m₁ m' channels) :
    Synchronized m m' channels (purged_tickets channels (contents m.store) m.store.tickets.keys ++
      pruned_tickets channels (contents m₁.store)) := by
  choose taken hsplit hgone hpruned using taken_of_loops hdistinct hpurged hloaded
  have hperm := neglected_perm hdistinct hpurged hgone fun channel hchannel => hpruned _ channel hchannel rfl
  refine ⟨hloaded.wellFormed, ⟨taken, hsplit, hperm, fun channel hchannel t ht => ?_⟩, fun id hid => ⟨?_, ?_⟩,
    fun channel hchannel => ⟨?_, ?_⟩, fun channel hchannel t ht => ?_, hloaded.value_eq⟩
  · rw [hpruned _ channel hchannel rfl] at ht
    have houtdated : outdated channel t = true := List.mem_takeWhile_imp ht
    exact of_decide_eq_true houtdated
  · exact (hloaded.others id hid).2.1.trans (hpurged.stored_none hid)
  · have hvalue : value m' id = none := by
      rw [(hloaded.others id hid).2.2, value, hpurged.map_none hid]
      rfl
    exact Option.map_eq_none_iff.mp hvalue
  · obtain ⟨r, hr, _⟩ := hloaded.stored channel hchannel
    rw [hr]
    rfl
  · have hvalue := congrArg Option.isSome (hloaded.value_eq channel hchannel)
    rwa [value, Option.isSome_map] at hvalue
  · have hnot := of_decide_eq_false (not_outdated hone hpurged hloaded hchannel ht)
    rw [not_or] at hnot
    exact ⟨UInt32.not_lt.mp hnot.1, UInt64.not_lt.mp hnot.2⟩

variable [ChannelClock] [CreatableQueue Q]

/-- A synchronization goes through its two loops. -/
theorem sync_run (h : WellFormed m) (hone : ∀ id, OneEpoch (contents m.store id)) (incoming_channels : List ChannelEntry)
    (now : Nat) (hdistinct : ((FaultyManager.open_channels incoming_channels now).map (·.id)).Nodup) :
    ∃ m₁ m', Purged m m₁ (FaultyManager.open_channels incoming_channels now) m.store.tickets.keys ∧
      AllLoaded m₁ m' (FaultyManager.open_channels incoming_channels now) ∧
      (sync_from_incoming_channels (ε := ε) incoming_channels now).run m =
        .ok (purged_tickets (FaultyManager.open_channels incoming_channels now) (contents m.store)
            m.store.tickets.keys ++
          pruned_tickets (FaultyManager.open_channels incoming_channels now) (contents m₁.store)) m' := by
  let y : Synchronizing := ⟨incoming_channels.dedup, now, [], .purge m.store.tickets.keys⟩
  obtain ⟨m₁, k, hk, hpurged, hpurge⟩ := purge_run (ε := ε) y (3 * y.open_channels.length + 1) []
    m.store.tickets.keys m.store.tickets.keys_nodup h
  have hone₁ : ∀ id, OneEpoch (contents m₁.store id) := by
    intro id
    rw [hpurged.contents_eq]
    split
    · exact fun t ht => (nomatch ht)
    · exact hone id
  obtain ⟨d, rfl⟩ := Nat.exists_eq_add_of_le hk
  obtain ⟨m', hloaded, hload⟩ := load_all_run (ε := ε) y d
    ([] ++ purged_tickets y.open_channels (contents m.store) m.store.tickets.keys) y.open_channels hdistinct
    hpurged.wellFormed hone₁
  refine ⟨m₁, m', hpurged, hloaded, ?_⟩
  have hkeys := onStore_run (ε := ε) (m := TicketStore.iter_queues) (s := m) rfl
  simp only [sync_from_incoming_channels, EStateM.run_bind, hkeys]
  exact hpurge.trans hload

theorem nodup_open_channels {incoming_channels : List ChannelEntry} (hdistinct : (incoming_channels.map (·.id)).Nodup)
    (now : Nat) : ((FaultyManager.open_channels incoming_channels now).map (·.id)).Nodup := by
  have hnodup := List.Nodup.of_map _ hdistinct
  unfold FaultyManager.open_channels
  rw [List.dedup_eq_self.mpr hnodup]
  exact hdistinct.sublist (List.filter_sublist.map _)

theorem open_channels_perm {incoming_channels incoming_channels' : List ChannelEntry}
    (h : incoming_channels'.Perm incoming_channels) (now : Nat) :
    (FaultyManager.open_channels incoming_channels' now).Perm (FaultyManager.open_channels incoming_channels now) :=
  h.dedup.filter _

/-- **A synchronization divides the stored tickets between the queues of the open channels and what it
returns**, and a second one with the same channels at the same time finds nothing to do, in whatever order it goes
through them. -/
theorem sync_partitions (h : WellFormed m) (hone : ∀ id, OneEpoch (contents m.store id))
    (incoming_channels : List ChannelEntry) (now : Nat) (hdistinct : (incoming_channels.map (·.id)).Nodup) :
    ∃ neglected m', (sync_from_incoming_channels (ε := ε) incoming_channels now).run m = .ok neglected m' ∧
      Synchronized m m' (FaultyManager.open_channels incoming_channels now) neglected ∧
      ∀ incoming_channels', incoming_channels'.Perm incoming_channels →
        ∃ m'', (sync_from_incoming_channels (ε := ε) incoming_channels' now).run m' = .ok [] m'' ∧
          contents m''.store = contents m'.store ∧
          ∀ id, m''.store.tickets.lookup id = m'.store.tickets.lookup id ∧ value m'' id = value m' id := by
  have hopen := nodup_open_channels hdistinct now
  obtain ⟨m₁, m', hpurged, hloaded, hrun⟩ := sync_run (ε := ε) h hone incoming_channels now hopen
  have hsync := synchronized_of_loops hopen hone hpurged hloaded
  refine ⟨_, m', hrun, hsync, fun incoming_channels' hperm => ?_⟩
  have hperm' := open_channels_perm hperm now
  have hopen' := (hperm'.map (·.id)).nodup_iff.mpr hopen
  obtain ⟨m₂, m'', hpurged', hloaded', hrun'⟩ := sync_run (ε := ε) hsync.wellFormed (hsync.one_epoch hone)
    incoming_channels' now hopen'
  obtain ⟨hnothing, hcontents, hlookup⟩ := settled_of_loops (hsync.perm hperm')
    (fun _ hchannel _ ht => not_outdated hone hpurged hloaded (hperm'.mem_iff.mp hchannel) ht) hpurged' hloaded'
  rw [hnothing] at hrun'
  exact ⟨m'', hrun', hcontents, hlookup⟩

end Call

section Memory

local instance : TicketBuilder := .bits48
local instance : ChannelClock := .by_status

/-- A manager with two tickets of one channel and one of another. -/
def two_channels : HoprTicketManager MemoryTicketQueue :=
  run (.new .empty) [(.insert_incoming_ticket (.of 1 1 3 10), fun _ => false),
    (.insert_incoming_ticket (.of 1 1 4 10), fun _ => false), (.insert_incoming_ticket (.of 2 1 0 10), fun _ => false)]

/-- One channel was redeemed from, one is not listed and one is new. -/
theorem sync_partitions_two_channels : ∃ neglected m',
    (sync_from_incoming_channels [.of 1 1 4, .of 3 1 0] 0).run two_channels = .ok neglected m' ∧
      Synchronized two_channels m' (FaultyManager.open_channels [.of 1 1 4, .of 3 1 0] 0) neglected := by
  have hone : ∀ id, OneEpoch (contents two_channels.store id) := by
    intro id
    by_cases hid : id ∈ two_channels.store.tickets.keys
    · have hall : ∀ id ∈ two_channels.store.tickets.keys, OneEpoch (contents two_channels.store id) := by
        unfold OneEpoch
        decide +kernel
      exact hall id hid
    · rw [contents_of_lookup_none (lookup_none_of_not_mem hid)]
      exact fun t ht => (nomatch ht)
  obtain ⟨neglected, m', hrun, hsync, _⟩ := sync_partitions (wellFormed_run .empty (named_empty _) _) hone
    [.of 1 1 4, .of 3 1 0] 0 (by decide)
  exact ⟨neglected, m', hrun, hsync⟩

end Memory

end Hopr.TicketManager.SyncPartition
