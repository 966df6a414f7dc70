import Hopr.Library.Places
import Hopr.TicketManager.Memory
import Hopr.TicketManager.Operation

/-! One redeem stream per channel.

The redeem lock belongs to the entry of a channel. A stream takes the lock when
it is created and gives it back when it is gone, however it ends; every other
call leaves the locks alone (`SameLocks`), failures halfway included. So the
entries with a taken lock are those of the live streams (`Exclusive`), as long
as the entry a stream locked stays in the map: a synchronization that replaces
or removes it makes the channel look free (`KeepsEntries`, `two_streams`). -/
namespace Hopr.TicketManager.RedeemLock
open Library Heap TicketQueue QueueWithStats HoprTicketManager Operation

/-! ### What leaves the locks alone -/

/-- The map and the redeem locks are as before. -/
structure SameLocks {Q : Type} (s s' : HoprTicketManager Q) : Prop where
  channel_tickets : s'.channel_tickets = s.channel_tickets
  next : s'.entries.next = s.entries.next
  redeem_lock : ∀ e, (s'.entries.cell e).redeem_lock = (s.entries.cell e).redeem_lock

section Frames
variable {Q ε : Type}

theorem SameLocks.refl (s : HoprTicketManager Q) : SameLocks s s := ⟨rfl, rfl, fun _ => rfl⟩

theorem SameLocks.trans (s t u : HoprTicketManager Q) (h : SameLocks s t) (h' : SameLocks t u) :
    SameLocks s u :=
  ⟨h'.channel_tickets.trans h.channel_tickets, h'.next.trans h.next,
    fun e => (h'.redeem_lock e).trans (h.redeem_lock e)⟩

theorem sameLocks_onStore {α : Type} (m : EStateM ε (TicketStore Q) α) :
    Frames SameLocks (onStore m : EStateM (TicketManagerError ε) (HoprTicketManager Q) α) := by
  intro s
  rw [after_onStore]
  exact ⟨rfl, rfl, fun _ => rfl⟩

theorem sameLocks_put (e : EntryRef) (c : QueueWithStats Q) (s : HoprTicketManager Q) :
    SameLocks s (s.put e c) := by
  refine ⟨rfl, rfl, fun e' => ?_⟩
  by_cases he : e' = e
  · subst he
    simp only [HoprTicketManager.put, cell_set_self]
  · simp only [HoprTicketManager.put, cell_set_ne he]

theorem sameLocks_on_entry {α : Type} (e : EntryRef)
    (m : EStateM (TicketManagerError ε) (QueueWithStats Q) α) : Frames SameLocks (on_entry e m) := by
  intro s
  rw [after_on_entry]
  exact sameLocks_put e _ s

theorem onStore_ok {α : Type} {m : EStateM ε (TicketStore Q) α} {s s' : HoprTicketManager Q} {a : α}
    (h : (onStore m).run s = .ok a s') :
    ∃ st, m.run s.store = .ok a st ∧ s' = {s with store := st} := by
  simp only [onStore, EStateM.run] at h ⊢
  split at h
  · rename_i hm
    cases h
    exact ⟨_, hm, rfl⟩
  · cases h

variable [TicketQueue Q ε]

theorem new_entry_unlocked {v : ValueCachedQueue QueueRef} {s s' : TicketStore Q}
    {c : ChannelTicketQueue} (h : (new_entry v : EStateM ε (TicketStore Q) _).run s = .ok c s') :
    c.redeem_lock = false := by
  simp only [new_entry, EStateM.run] at h
  split at h <;> cases h <;> rfl

variable [CreatableQueue Q]

theorem sameLocks_first_entry (t : RedeemableTicket) :
    Frames SameLocks (first_entry t : EStateM (TicketManagerError ε) (HoprTicketManager Q) _) := by
  unfold first_entry
  apply frames_bind SameLocks.trans (sameLocks_onStore _)
  intro r
  apply frames_bind SameLocks.trans (sameLocks_onStore _)
  intro queue
  apply frames_bind SameLocks.trans (sameLocks_onStore _)
  intro vacant
  cases vacant with
  | false => exact SameLocks.refl
  | true =>
    apply frames_bind SameLocks.trans (sameLocks_onStore _)
    rintro ⟨_, queue⟩
    exact sameLocks_onStore _

theorem first_entry_unlocked {t : RedeemableTicket} {s s' : HoprTicketManager Q}
    {c : ChannelTicketQueue} (h : (first_entry (ε := ε) t).run s = .ok c s') :
    c.redeem_lock = false := by
  obtain ⟨r, s₁, _, h⟩ := run_bind_eq_ok.mp h
  obtain ⟨queue, s₂, _, h⟩ := run_bind_eq_ok.mp h
  obtain ⟨vacant, s₃, _, h⟩ := run_bind_eq_ok.mp h
  cases vacant with
  | false => cases h
  | true =>
    obtain ⟨⟨_, queue⟩, s₄, _, h⟩ := run_bind_eq_ok.mp h
    obtain ⟨st, hentry, _⟩ := onStore_ok h
    exact new_entry_unlocked hentry

/-- An insertion leaves map and locks alone or gives a channel without an entry a free one. -/
theorem insert_locks (t : RedeemableTicket) (s : HoprTicketManager Q) :
    SameLocks s (after (insert_incoming_ticket (ε := ε) t) s) ∨
    ∃ m c, SameLocks s m ∧ s.channel_tickets.lookup t.ticket.channel_id = none ∧
      c.redeem_lock = false ∧
      after (insert_incoming_ticket (ε := ε) t) s = place t.ticket.channel_id c m := by
  cases he : s.channel_tickets.lookup t.ticket.channel_id with
  | some e =>
    left
    have heq : after (insert_incoming_ticket (ε := ε) t) s =
        after (on_entry (ε := ε) e (insert_occupied t)) s := by
      simp only [after, insert_incoming_ticket, EStateM.run_bind, EStateM.run_get, he]
    rw [heq]
    exact sameLocks_on_entry e _ s
  | none =>
    have hframe := sameLocks_first_entry (ε := ε) t s
    cases hrun : (first_entry (ε := ε) t).run s with
    | error err m =>
      left
      rw [after_error hrun] at hframe
      have heq : after (insert_incoming_ticket (ε := ε) t) s = m := by
        simp only [after, insert_incoming_ticket, EStateM.run_bind, EStateM.run_get, he, hrun]
      rw [heq]
      exact hframe
    | ok c m =>
      right
      rw [after_ok hrun] at hframe
      refine ⟨m, c, hframe, rfl, first_entry_unlocked hrun, ?_⟩
      simp only [after, insert_incoming_ticket, EStateM.run_bind, EStateM.run_get, he, hrun,
        EStateM.run_modify, EStateM.run_pure]

end Frames

/-! ### Taken locks and live streams -/

/-- What a live stream has locked: an entry, for a channel. -/
abbrev Holder := EntryRef × ChannelId

def holder (r : RedeemState) : Holder := (r.lock, r.channel_id)

/-- The holders of the streams, at their places. -/
def holders {Q : Type} (s : State Q) : List (Option Holder) := s.streams.map (Option.map holder)

/-- The locked entries are those of the holders, and each holder has the entry of its channel and
is the channel's only one. -/
structure Exclusive {Q : Type} (m : HoprTicketManager Q) (l : List (Option Holder)) : Prop where
  named : Named m.entries m.channel_tickets
  held : ∀ (i : Nat) (e : EntryRef) (id : ChannelId), l[i]? = some (some (e, id)) →
    m.channel_tickets.lookup id = some e ∧ (m.entries.cell e).redeem_lock = true
  one : ∀ (i j : Nat) (e e' : EntryRef) (id : ChannelId), l[i]? = some (some (e, id)) →
    l[j]? = some (some (e', id)) → i = j
  locked : ∀ id e, m.channel_tickets.lookup id = some e → (m.entries.cell e).redeem_lock = true →
    ∃ i : Nat, l[i]? = some (some (e, id))

/-- No holder is the channel's. -/
def Free (l : List (Option Holder)) (id : ChannelId) : Prop :=
  ∀ (i : Nat) (e : EntryRef), l[i]? ≠ some (some (e, id))

namespace Exclusive
variable {Q : Type} {m m' : HoprTicketManager Q} {l : List (Option Holder)}

theorem new (store : TicketStore Q) : Exclusive (.new store) [] :=
  ⟨named_empty _, nofun, nofun, nofun⟩

theorem same_locks (h : Exclusive m l) (hm : SameLocks m m') : Exclusive m' l := by
  refine ⟨⟨fun hr => ?_, fun hr hr' => ?_⟩, fun i e id hi => ?_, h.one, fun id e he hlock => ?_⟩
  · rw [hm.channel_tickets] at hr
    rw [hm.next]
    exact h.named.allocated hr
  · rw [hm.channel_tickets] at hr hr'
    exact h.named.distinct hr hr'
  · rw [hm.channel_tickets, hm.redeem_lock]
    exact h.held i e id hi
  · rw [hm.channel_tickets] at he
    rw [hm.redeem_lock] at hlock
    exact h.locked id e he hlock

/-- A channel without a holder may get a new, free entry. -/
theorem place (h : Exclusive m l) {id : ChannelId} (hid : Free l id)
    {c : ChannelTicketQueue} (hc : c.redeem_lock = false) : Exclusive (m.place id c) l := by
  refine ⟨h.named.alloc id c, fun i e id' hi => ?_, h.one, fun id' e he hlock => ?_⟩
  · obtain ⟨he, hlock⟩ := h.held i e id' hi
    have hne : id' ≠ id := by
      rintro rfl
      exact hid i e hi
    refine ⟨(AList.lookup_insert_ne hne).trans he, ?_⟩
    show ((m.entries.alloc c).2.cell e).redeem_lock = true
    rw [cell_alloc_lt c (h.named.allocated he)]
    exact hlock
  · change ((m.entries.alloc c).2.cell e).redeem_lock = true at hlock
    rcases lookup_insert_cases he with ⟨_, rfl⟩ | ⟨_, he⟩
    · rw [cell_alloc_self] at hlock
      exact absurd (hc.symm.trans hlock) (by decide)
    · rw [cell_alloc_lt c (h.named.allocated he)] at hlock
      exact h.locked id' e he hlock

/-- A channel without a holder may lose its entry. -/
theorem erase (h : Exclusive m l) {id : ChannelId} (hid : Free l id) :
    Exclusive {m with channel_tickets := m.channel_tickets.erase id} l := by
  refine ⟨h.named.erase id, fun i e id' hi => ?_, h.one, fun id' e he hlock => ?_⟩
  · have hne : id' ≠ id := by
      rintro rfl
      exact hid i e hi
    exact ⟨(AList.lookup_erase_ne hne).trans (h.held i e id' hi).1, (h.held i e id' hi).2⟩
  · exact h.locked id' e (lookup_erase_cases he).2 hlock

/-- A free entry may be locked for a new holder. -/
theorem lock (h : Exclusive m l) {id : ChannelId} {e : EntryRef}
    (he : m.channel_tickets.lookup id = some e) (hfree : (m.entries.cell e).redeem_lock = false) :
    Exclusive (m.set_redeem_lock e true) (l ++ [some (e, id)]) := by
  have hne : ∀ (i : Nat) (e' : EntryRef) (id' : ChannelId), l[i]? = some (some (e', id')) → e' ≠ e := by
    rintro i e' id' hi rfl
    exact absurd (hfree.symm.trans (h.held i e' id' hi).2) (by decide)
  have hid : Free l id := fun i e' hi =>
    hne i e' id hi (Option.some.inj ((h.held i e' id hi).1.symm.trans he))
  refine ⟨h.named.set _ _, fun i e' id' hi => ?_, fun i j e' e'' id' hi hj => ?_,
    fun id' e' he' hlock => ?_⟩
  · rcases Places.concat_cases hi with hi | ⟨_, hi⟩
    · refine ⟨(h.held i e' id' hi).1, ?_⟩
      simp only [set_redeem_lock, cell_set_ne (hne i e' id' hi)]
      exact (h.held i e' id' hi).2
    · cases hi
      exact ⟨he, by simp only [set_redeem_lock, cell_set_self]⟩
  · rcases Places.concat_cases hi with hi | ⟨hi, hi'⟩
    · rcases Places.concat_cases hj with hj | ⟨_, hj'⟩
      · exact h.one i j e' e'' id' hi hj
      · cases hj'
        exact absurd hi (hid i e')
    · rcases Places.concat_cases hj with hj | ⟨hj, _⟩
      · cases hi'
        exact absurd hj (hid j e'')
      · exact hi.trans hj.symm
  · by_cases hee : e' = e
    · subst hee
      obtain rfl := h.named.distinct he he'
      exact ⟨l.length, List.getElem?_concat_length⟩
    · simp only [set_redeem_lock, cell_set_ne hee] at hlock
      obtain ⟨i, hi⟩ := h.locked id' e' he' hlock
      exact ⟨i, Places.concat_old hi⟩

/-- A holder that is gone leaves its entry free. -/
theorem unlock (h : Exclusive m l) {i : Nat} {e : EntryRef} {id : ChannelId}
    (hi : l[i]? = some (some (e, id))) : Exclusive (m.set_redeem_lock e false) (l.set i none) := by
  have he := (h.held i e id hi).1
  refine ⟨h.named.set _ _, fun j e' id' hj => ?_, fun j k e' e'' id' hj hk => ?_,
    fun id' e' he' hlock => ?_⟩
  · rcases Places.set_cases hj with ⟨_, hnone⟩ | ⟨hji, hj⟩
    · cases hnone
    · obtain ⟨he', hlock'⟩ := h.held j e' id' hj
      have hne : e' ≠ e := by
        rintro rfl
        obtain rfl := h.named.distinct he he'
        exact hji (h.one j i e' e' id hj hi)
      refine ⟨he', ?_⟩
      simp only [set_redeem_lock, cell_set_ne hne]
      exact hlock'
  · rcases Places.set_cases hj with ⟨_, hnone⟩ | ⟨_, hj⟩
    · cases hnone
    · rcases Places.set_cases hk with ⟨_, hnone⟩ | ⟨_, hk⟩
      · cases hnone
      · exact h.one j k e' e'' id' hj hk
  · have hne : e' ≠ e := by
      rintro rfl
      simp only [set_redeem_lock, cell_set_self] at hlock
      cases hlock
    simp only [set_redeem_lock, cell_set_ne hne] at hlock
    obtain ⟨j, hj⟩ := h.locked id' e' he' hlock
    have hij : i ≠ j := by
      rintro rfl
      cases Option.some.inj (hi.symm.trans hj)
      exact hne rfl
    exact ⟨j, (List.getElem?_set_ne hij).trans hj⟩

end Exclusive

/-! ### Every interleaving -/

/-- The channel has a live stream. -/
def redeeming {Q : Type} (s : State Q) (id : ChannelId) : Bool :=
  s.streams.any fun stream => stream.any fun r => r.channel_id = id

/-- The entry of a channel with a live stream is neither removed nor replaced. -/
def KeepsEntries {Q : Type} (s : State Q) : Action → Prop
  | .sync_tick => ∀ y ∈ s.sync, ∀ id ∈ unseats y.at_step, redeeming s id = false
  | _ => True

instance {Q : Type} : ∀ (s : State Q) a, Decidable (KeepsEntries s a)
  | s, .sync_tick => inferInstanceAs (Decidable (∀ y ∈ s.sync, ∀ id ∈ unseats y.at_step, _))
  | _, .insert_incoming_ticket _ | _, .neglect_tickets _ _ | _, .neglect_next _ => .isTrue trivial
  | _, .redeem_stream _ _ | _, .peek _ | _, .complete _ _ | _, .drop _ => .isTrue trivial
  | _, .sync_from_incoming_channels _ _ => .isTrue trivial

section Machine
variable {Q ε : Type}

theorem redeeming_iff {s : State Q} {id : ChannelId} :
    redeeming s id = true ↔ ∃ (i : Nat) (e : EntryRef), (holders s)[i]? = some (some (e, id)) := by
  simp only [redeeming, holders, List.any_eq_true, Option.any_eq_true, decide_eq_true_eq,
    List.getElem?_map, Option.map_eq_some_iff]
  constructor
  · rintro ⟨stream, hmem, r, rfl, rfl⟩
    obtain ⟨i, hi⟩ := List.mem_iff_getElem?.mp hmem
    exact ⟨i, r.lock, some r, hi, r, rfl, rfl⟩
  · rintro ⟨i, e, stream, hi, r, rfl, hr⟩
    exact ⟨some r, List.mem_of_getElem? hi, r, rfl, congrArg Prod.snd hr⟩

variable [TicketQueue Q ε]

/-- A stream that stays at its place keeps what it holds. -/
theorem holders_set {s s' : State Q} {i : Nat} {r : RedeemState}
    {in_flight : Option RedeemableTicket} (hi : s.streams[i]? = some (some r))
    (hs' : s'.streams = s.streams.set i (some {r with in_flight := in_flight})) :
    holders s' = holders s := by
  obtain ⟨hlt, hr⟩ := List.getElem?_eq_some_iff.mp hi
  have hsame : some (holder {r with in_flight := in_flight}) = Option.map holder s.streams[i] := by
    rw [hr]
    rfl
  rw [holders, hs', List.map_set, Option.map_some, hsame, ← List.map_set, List.set_getElem_self]
  rfl

theorem exclusive_close {s s' : State Q} {i : Nat} {r : RedeemState}
    (h : Exclusive s.manager (holders s)) (hi : s.streams[i]? = some (some r))
    (hstreams : s'.streams = s.streams) (hlocks : SameLocks s.manager s'.manager) :
    Exclusive (s'.close i r).manager (holders (s'.close i r)) := by
  have hheld : (holders s)[i]? = some (some (r.lock, r.channel_id)) := by
    rw [holders, List.getElem?_map, hi]
    rfl
  have hholders : holders (s'.close i r) = (holders s).set i none := by
    rw [holders, State.close, hstreams, List.map_set]
    rfl
  rw [hholders]
  exact (h.same_locks hlocks).unlock hheld

theorem exclusive_peek {s : State Q} {i : Nat} {r : RedeemState}
    (h : Exclusive s.manager (holders s)) (hi : s.streams[i]? = some (some r)) :
    Exclusive (peek_step i r s).manager (holders (peek_step i r s)) := by
  have hlocks := sameLocks_on_entry r.lock (onQueue (Q := Q) TicketQueue.peek) s.manager
  unfold peek_step
  split
  · rename_i t m hrun
    rw [after_ok hrun] at hlocks
    rw [holders_set hi rfl]
    exact h.same_locks hlocks
  · rename_i m hrun
    rw [after_ok hrun] at hlocks
    exact exclusive_close h hi rfl hlocks
  · rename_i m hrun
    rw [after_error hrun] at hlocks
    exact exclusive_close h hi rfl hlocks

theorem exclusive_complete {s : State Q} {i : Nat} {r : RedeemState} {t : RedeemableTicket}
    {chain : ChainResult} (h : Exclusive s.manager (holders s))
    (hi : s.streams[i]? = some (some r)) :
    Exclusive (complete_step i r t chain s).manager (holders (complete_step i r t chain s)) := by
  unfold complete_step
  split
  · exact exclusive_close h hi rfl (SameLocks.refl _)
  · rename_i result _
    have hlocks := sameLocks_on_entry r.lock (complete_redeem (Q := Q) t result) s.manager
    split
    · rename_i m hrun
      rw [after_ok hrun] at hlocks
      rw [holders_set hi rfl]
      exact h.same_locks hlocks
    · rename_i m hrun
      rw [after_error hrun] at hlocks
      exact exclusive_close h hi rfl hlocks

variable [CreatableQueue Q] [ChannelClock]

/-- A synchronization step leaves map and locks alone, or removes or replaces one entry. -/
theorem sync_locks (y : Synchronizing) (s : HoprTicketManager Q) :
    SameLocks s (after (Hopr.TicketManager.sync_tick (ε := ε) y) s) ∨
    ∃ id, unseats y.at_step = some id ∧
      (after (Hopr.TicketManager.sync_tick (ε := ε) y) s =
          {s with channel_tickets := s.channel_tickets.erase id} ∨
        ∃ m c, SameLocks s m ∧ c.redeem_lock = false ∧
          after (Hopr.TicketManager.sync_tick (ε := ε) y) s = place id c m) := by
  obtain ⟨incoming, now, neglected, at_step⟩ := y
  cases at_step with
  | purge stored_queues =>
    left
    cases stored_queues with
    | nil => exact SameLocks.refl s
    | cons id rest =>
      unfold Hopr.TicketManager.sync_tick
      dsimp only
      split
      · exact SameLocks.refl s
      · exact frames_bind SameLocks.trans (sameLocks_onStore _)
          (fun _ => frames_pure SameLocks.refl _) s
  | remove id rest => exact Or.inr ⟨id, rfl, Or.inl rfl⟩
  | load channels =>
    left
    cases channels with
    | nil => exact SameLocks.refl s
    | cons channel rest =>
      apply frames_bind SameLocks.trans (sameLocks_onStore _)
      intro queue
      exact frames_bind SameLocks.trans (sameLocks_onStore _) fun _ => frames_pure SameLocks.refl _
  | count id queue rest =>
    left
    exact frames_bind SameLocks.trans (sameLocks_onStore _) (fun _ => frames_pure SameLocks.refl _) s
  | replace id v rest =>
    have hframe := sameLocks_onStore (new_entry (ε := ε) v) s
    cases hrun : (onStore (new_entry (ε := ε) v)).run s with
    | error e m =>
      left
      rw [after_error hrun] at hframe
      have heq : after (Hopr.TicketManager.sync_tick (ε := ε) ⟨incoming, now, neglected, .replace id v rest⟩) s = m := by
        simp only [after, Hopr.TicketManager.sync_tick, EStateM.run_bind, hrun]
      rw [heq]
      exact hframe
    | ok c m =>
      right
      rw [after_ok hrun] at hframe
      obtain ⟨st, hentry, _⟩ := onStore_ok hrun
      refine ⟨id, rfl, Or.inr ⟨m, c, hframe, new_entry_unlocked hentry, ?_⟩⟩
      simp only [after, Hopr.TicketManager.sync_tick, EStateM.run_bind, hrun, EStateM.run_modify,
        EStateM.run_pure]

variable [TicketBuilder]

/-- Every step keeps the locks with the live streams. -/
theorem exclusive_step {s s' : State Q} {a : Action} (hkeeps : KeepsEntries s a)
    (h : Exclusive s.manager (holders s)) (hs : step s a = some s') :
    Exclusive s'.manager (holders s') := by
  cases a with
  | insert_incoming_ticket t =>
    simp only [step] at hs
    split at hs
    · cases hs
    · obtain rfl := Option.some.inj hs
      obtain ⟨inserted, neglected, heq⟩ := insert_step_eq t s
      rw [heq]
      show Exclusive (after (insert_incoming_ticket t) s.manager) (holders s)
      rcases insert_locks t s.manager with hlocks | ⟨m, c, hlocks, hnone, hc, heq⟩
      · exact h.same_locks hlocks
      · rw [heq]
        refine (h.same_locks hlocks).place (fun i e hi => ?_) hc
        exact absurd (hnone.symm.trans (h.held i e _ hi).1) (by simp)
  | neglect_tickets id up_to_index =>
    obtain rfl := Option.some.inj hs
    unfold neglect_step
    split <;> exact h
  | neglect_next j =>
    simp only [step] at hs
    split at hs
    · rename_i c _
      obtain rfl := Option.some.inj hs
      have hlocks := sameLocks_on_entry c.queue (neglect_next (Q := Q) c.max_index) s.manager
      unfold neglect_next_step
      split
      · rename_i hrun
        rw [after_ok hrun] at hlocks
        exact h.same_locks hlocks
      · rename_i hrun
        rw [after_ok hrun] at hlocks
        exact h.same_locks hlocks
      · rename_i hrun
        rw [after_error hrun] at hlocks
        exact h.same_locks hlocks
    · cases hs
  | redeem_stream id min =>
    obtain rfl := Option.some.inj hs
    unfold redeem_stream_step
    rcases redeem_stream_cases (ε := ε) id min s.manager with
      ⟨_, hrun⟩ | ⟨_, _, _, hrun⟩ | ⟨e, he, hfree, hrun⟩
    · rw [hrun]
      exact h
    · rw [hrun]
      exact h
    · rw [hrun]
      have hholders : (s.streams ++ [some (RedeemState.mk e (min.getD 0) id none)]).map
          (Option.map holder) = holders s ++ [some (e, id)] := by
        rw [List.map_append]
        rfl
      unfold holders
      rw [hholders]
      exact h.lock he hfree
  | peek i =>
    simp only [step] at hs
    split at hs
    · rename_i hi
      obtain rfl := Option.some.inj hs
      exact exclusive_peek h hi
    · cases hs
  | complete i chain =>
    simp only [step] at hs
    split at hs
    · rename_i hi
      obtain rfl := Option.some.inj hs
      exact exclusive_complete h hi
    · cases hs
  | drop i =>
    simp only [step] at hs
    split at hs
    · rename_i hi
      obtain rfl := Option.some.inj hs
      exact exclusive_close h hi rfl (SameLocks.refl _)
    · cases hs
  | sync_from_incoming_channels incoming now =>
    simp only [step] at hs
    split at hs
    · obtain rfl := Option.some.inj hs
      exact h
    · cases hs
  | sync_tick =>
    simp only [step] at hs
    split at hs
    · rename_i y hy
      obtain rfl := Option.some.inj hs
      have hm : (sync_step y s).manager = after (Hopr.TicketManager.sync_tick y) s.manager := by
        unfold sync_step after
        cases (Hopr.TicketManager.sync_tick y).run s.manager with
        | ok r m => cases r <;> rfl
        | error e m => rfl
      have hstreams : holders (sync_step y s) = holders s := by
        unfold sync_step
        cases (Hopr.TicketManager.sync_tick y).run s.manager with
        | ok r m => cases r <;> rfl
        | error e m => rfl
      rw [hm, hstreams]
      rcases sync_locks y s.manager with hlocks | ⟨id, hid, hchange⟩
      · exact h.same_locks hlocks
      · have hfree : Free (holders s) id := by
          intro i e hi
          have hlive := redeeming_iff.mpr ⟨i, e, hi⟩
          exact absurd ((hkeeps y hy id hid).symm.trans hlive) (by decide)
        rcases hchange with heq | ⟨m, c, hlocks, hc, heq⟩
        · rw [heq]
          exact h.erase hfree
        · rw [heq]
          exact (h.same_locks hlocks).place hfree hc
    · cases hs

/-- As long as no synchronization removes or replaces the entry of a channel with a live stream, a
channel has one live stream at most, and to create another fails exactly while there is one. -/
theorem one_stream_per_channel {store : TicketStore Q} {as : List Action} {s : State Q}
    (hkeeps : (machine Q).Meets KeepsEntries (Operation.start store) as)
    (hrun : (machine Q).run (Operation.start store) as = some s) :
    (∀ (i j : Nat) r r', s.streams[i]? = some (some r) → s.streams[j]? = some (some r') →
      r.channel_id = r'.channel_id → i = j) ∧
    ∀ id min e, s.manager.channel_tickets.lookup id = some e →
      ((∃ m, (redeem_stream (ε := ε) id min).run s.manager = .error .AlreadyRedeeming m) ↔
        redeeming s id = true) := by
  have h : Exclusive s.manager (holders s) := (machine Q).run_invariant
    (fun s a s' hc (h : Exclusive s.manager (holders s)) hs => exclusive_step hc h hs) hkeeps hrun
    (Exclusive.new store)
  have hat : ∀ (i : Nat) r, s.streams[i]? = some (some r) →
      (holders s)[i]? = some (some (r.lock, r.channel_id)) := by
    intro i r hi
    rw [holders, List.getElem?_map, hi]
    rfl
  refine ⟨fun i j r r' hi hj hid => ?_, fun id min e he => ?_⟩
  · have hi' := hat i r hi
    rw [hid] at hi'
    exact h.one i j r.lock r'.lock r'.channel_id hi' (hat j r' hj)
  · rcases redeem_stream_cases (ε := ε) id min s.manager with
      ⟨hnone, _⟩ | ⟨e', he', hlock, hfails⟩ | ⟨e', he', hfree, hok⟩
    · cases he.symm.trans hnone
    · obtain ⟨i, hi⟩ := h.locked id e' he' hlock
      exact ⟨fun _ => redeeming_iff.mpr ⟨i, e', hi⟩, fun _ => ⟨_, hfails⟩⟩
    · rw [hok]
      refine ⟨fun ⟨_, hfails⟩ => (nomatch hfails), fun hlive => ?_⟩
      obtain ⟨i, e'', hi⟩ := redeeming_iff.mp hlive
      obtain ⟨he'', hlock⟩ := h.held i e'' id hi
      obtain rfl := Option.some.inj (he'.symm.trans he'')
      exact absurd (hfree.symm.trans hlock) (by decide)

end Machine

section Memory

local instance : TicketBuilder := .bits48
local instance : ChannelClock := .by_status

/-- A synchronization, then a stream that is dropped while a ticket is in flight, and another. -/
theorem one_stream_per_channel_dropped :
    let as : List Action := [.insert_incoming_ticket (.of 1 1 5 10),
      .sync_from_incoming_channels [.of 1 1 0] 0, .sync_tick, .sync_tick, .sync_tick, .sync_tick,
      .sync_tick, .sync_tick, .redeem_stream ⟨[1]⟩ none, .peek 0, .redeem_stream ⟨[1]⟩ none, .drop 0,
      .redeem_stream ⟨[1]⟩ none]
    ∃ s : State MemoryTicketQueue, (machine MemoryTicketQueue).run (Operation.start .empty) as = some s ∧
      redeeming s ⟨[1]⟩ = true ∧
      ∀ (i j : Nat) r r', s.streams[i]? = some (some r) → s.streams[j]? = some (some r') →
        r.channel_id = r'.channel_id → i = j := by
  intro as
  obtain ⟨s, hs, hlive⟩ : ∃ s : State MemoryTicketQueue,
      (machine MemoryTicketQueue).run (Operation.start .empty) as = some s ∧
        redeeming s ⟨[1]⟩ = true := (machine _).exists_run (by decide +kernel)
  exact ⟨s, hs, hlive, (one_stream_per_channel (by decide +kernel) hs).1⟩

/-- A synchronization replaces the entry of a channel with a live stream, and a second stream is
created. -/
theorem two_streams :
    let as : List Action := [.insert_incoming_ticket (.of 1 1 5 10), .redeem_stream ⟨[1]⟩ none,
      .sync_from_incoming_channels [.of 1 1 0] 0, .sync_tick, .sync_tick, .sync_tick, .sync_tick,
      .sync_tick, .sync_tick, .redeem_stream ⟨[1]⟩ none]
    ∃ s : State MemoryTicketQueue, (machine MemoryTicketQueue).run (Operation.start .empty) as = some s ∧
      s.sync.isNone ∧ s.streams.map (Option.map (·.channel_id)) = [some ⟨[1]⟩, some ⟨[1]⟩] := by
  intro as
  exact (machine _).exists_run (by decide +kernel)

end Memory

end Hopr.TicketManager.RedeemLock
