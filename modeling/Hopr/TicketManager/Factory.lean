import Mathlib.Data.List.Dedup
import Hopr.Library.Machine
import Hopr.Library.Programs
import Hopr.TicketManager.OutgoingIndex

/-! The ticket factory's outgoing indices.

`HoprTicketFactory` pairs the index cache with the store. Issuing an index
consumes it; the first index of an epoch drops the counter of the epoch before
it (`next_outgoing_ticket_index_spec` says all that a call can do). Synchronizing
purges the store of what no open channel needs and lifts a counter for every open
channel (`sync_spec`).

That is how counters survive a restart. -/
namespace Hopr.TicketManager
open OutgoingIndexEntry OutgoingIndexCache OutgoingIndexStore Library

/-- The key of a channel's counter in its current epoch. -/
def ChannelEntry.index_key (channel : ChannelEntry) : IndexKey := (channel.id, channel.channel_epoch)

/-- The key of the counter of the epoch before. -/
def ChannelEntry.prev_key (channel : ChannelEntry) : IndexKey := (channel.id, channel.channel_epoch - 1)

structure HoprTicketFactory (S : Type) where
  out_idx_tracker : OutgoingIndexCache
  store : S

namespace HoprTicketFactory

section Calls
variable {S ε : Type}

/-- A factory on its own. -/
def new (store : S) : HoprTicketFactory S := ⟨.empty, store⟩

/-- A call on the store; its errors are store errors. -/
def onStore {α : Type} (m : EStateM ε S α) : EStateM (TicketManagerError ε) (HoprTicketFactory S) α :=
  fun f =>
    match m.run f.store with
    | .ok a s => .ok a {f with store := s}
    | .error e s => .error (.StoreError e) {f with store := s}

/-- Gets the next usable index and drops the previous epoch at the first index of an epoch. -/
def next_outgoing_ticket_index [TicketBuilder] (channel : ChannelEntry) :
    StateM OutgoingIndexCache UInt64 := do
  let next_index ← next_at_least channel.index_key channel.ticket_index
  if next_index = 0 ∧ 1 < channel.channel_epoch then
    let _ ← remove channel.prev_key
  return next_index

variable [OutgoingIndexStore S ε]

def save_outgoing_indices [TicketBuilder] (f : HoprTicketFactory S) :
    Except (TicketManagerError String) Unit × HoprTicketFactory S :=
  let p := save f.out_idx_tracker f.store
  (p.result.mapError .StoreError, ⟨p.tracker, p.store⟩)

/-- Some open channel is in the epoch of the key. -/
def listed (channels : List ChannelEntry) (k : IndexKey) : Bool :=
  channels.any fun channel =>
    channel.status = .Open ∧ channel.id = k.1 ∧ channel.channel_epoch = k.2

/-- Deletes a stored index that no open channel needs. -/
def purge_index (channels : List ChannelEntry) (k : IndexKey) :
    EStateM (TicketManagerError ε) (HoprTicketFactory S) Unit :=
  if listed channels k then pure () else onStore (delete_outgoing_index k)

/-- Lifts the counter of an open channel to its stored index and its ticket index. -/
def load_index [TicketBuilder] (channel : ChannelEntry) :
    EStateM (TicketManagerError ε) (HoprTicketFactory S) Unit := do
  let index ← onStore (load_outgoing_index channel.index_key)
  let out_index := max (index.getD 0) channel.ticket_index
  modify fun f => {f with
    out_idx_tracker := ((upsert channel.index_key out_index).run f.out_idx_tracker).2}

def sync_from_outgoing_channels [TicketBuilder] (outgoing_channels : List ChannelEntry) :
    EStateM (TicketManagerError ε) (HoprTicketFactory S) Unit := do
  let outgoing_channels := outgoing_channels.dedup
  let stored_indices ← onStore iter_outgoing_indices
  forM stored_indices (purge_index outgoing_channels)
  forM (outgoing_channels.filter (·.status = .Open)) load_index

end Calls

/-! ### What a call can do -/

section Next
variable [TicketBuilder]

theorem next_outgoing_ticket_index_run (channel : ChannelEntry) (c : OutgoingIndexCache) :
    let v := min (taken channel.index_key channel.ticket_index c) TicketBuilder.MAX_TICKET_INDEX
    let c' := c.put channel.index_key (advanced channel.index_key channel.ticket_index c)
    (next_outgoing_ticket_index channel).run c =
      (v, if v = 0 ∧ 1 < channel.channel_epoch then ((remove channel.prev_key).run c').2 else c') := by
  have h := next_at_least_run channel.index_key channel.ticket_index c
  simp only [StateT.run] at h
  intro v c'
  simp only [next_outgoing_ticket_index, StateT.run, bind, StateT.bind, h, pure]
  split <;> rfl

/-- A call moves the counter of its key past the value it takes and leaves all others, except
that it may drop the counter of the epoch before. -/
theorem next_outgoing_ticket_index_spec (channel : ChannelEntry) (c : OutgoingIndexCache) :
    ∃ c', (next_outgoing_ticket_index channel).run c =
        (min (taken channel.index_key channel.ticket_index c) TicketBuilder.MAX_TICKET_INDEX, c') ∧
      ∀ k, (c'.lookup k = (c.put channel.index_key
            (advanced channel.index_key channel.ticket_index c)).lookup k ∧
          (k ∈ c'.removed ↔ k ∈ c.removed)) ∨
        (k = channel.prev_key ∧ 1 < channel.channel_epoch ∧ k ∈ c'.removed) := by
  refine ⟨_, next_outgoing_ticket_index_run channel c, fun k => ?_⟩
  split
  · rename_i hfirst
    rcases remove_cases channel.prev_key (c.put channel.index_key
      (advanced channel.index_key channel.ticket_index c)) with ⟨e, _, hrun⟩ | ⟨_, hrun⟩
    · rw [hrun]
      by_cases hk : k = channel.prev_key
      · exact Or.inr ⟨hk, hfirst.2, hk ▸ List.mem_insert_self⟩
      · refine Or.inl ⟨AList.lookup_erase_ne hk, ?_⟩
        show k ∈ List.insert channel.prev_key c.removed ↔ k ∈ c.removed
        rw [List.mem_insert_iff]
        exact or_iff_right hk
    · rw [hrun]
      exact Or.inl ⟨rfl, Iff.rfl⟩
  · exact Or.inl ⟨rfl, Iff.rfl⟩

end Next

/-! ### Synchronizing -/

section Sync
variable {S ε : Type}

theorem onStore_ok {α : Type} {m : EStateM ε S α} {f f' : HoprTicketFactory S} {a : α}
    (h : (onStore m).run f = .ok a f') : ∃ s, m.run f.store = .ok a s ∧ f' = {f with store := s} := by
  unfold onStore at h
  simp only [EStateM.run] at h ⊢
  cases hm : m f.store with
  | ok b s => rw [hm] at h; cases h; exact ⟨s, rfl, rfl⟩
  | error e s => rw [hm] at h; cases h

variable [OutgoingIndexStore S ε]

/-- The counter of `k` is cached, dirty and at least `v`. -/
def Loaded (k : IndexKey) (v : UInt64) (f : HoprTicketFactory S) : Prop :=
  ∃ e, f.out_idx_tracker.lookup k = some e ∧ e.is_dirty = true ∧ v ≤ e.index

theorem loaded_put {k k' : IndexKey} {v : UInt64} {e : OutgoingIndexEntry} {f f' : HoprTicketFactory S}
    (hf' : f'.out_idx_tracker = f.out_idx_tracker.put k' e) (hdirty : e.is_dirty = true)
    (h : k = k' ∧ v ≤ e.index ∨ k ≠ k' ∧ Loaded k v f) : Loaded k v f' := by
  unfold Loaded
  rw [hf']
  rcases h with ⟨rfl, hv⟩ | ⟨hne, e', he', hdirty', hv⟩
  · exact ⟨e, lookup_put_self .., hdirty, hv⟩
  · exact ⟨e', (lookup_put_ne hne ..).trans he', hdirty', hv⟩

variable [LawfulOutgoingIndexStore S]

/-- The purge keeps the cache and every listed index. -/
theorem purge_index_spec {channels : List ChannelEntry} {k : IndexKey} {f f' : HoprTicketFactory S}
    (h : (purge_index channels k).run f = .ok () f') :
    f'.out_idx_tracker = f.out_idx_tracker ∧
      ∀ k', listed channels k' = true → stored f'.store k' = stored f.store k' := by
  unfold purge_index at h
  split at h
  · cases h
    exact ⟨rfl, fun _ _ => rfl⟩
  · rename_i hout
    obtain ⟨s, hdelete, rfl⟩ := onStore_ok h
    refine ⟨rfl, fun k' hk' => ?_⟩
    have hne : k' ≠ k := fun he => hout (he ▸ hk')
    rw [LawfulOutgoingIndexStore.delete_ok hdelete, Function.update_of_ne hne]

theorem listed_dedup (channels : List ChannelEntry) (k : IndexKey) :
    listed channels.dedup k = listed channels k := by
  unfold listed
  rw [Bool.eq_iff_iff, List.any_eq_true, List.any_eq_true]
  simp only [List.mem_dedup]

theorem listed_iff {channels : List ChannelEntry} {k : IndexKey} : listed channels k = true ↔
    ∃ channel ∈ channels, channel.status = .Open ∧ channel.index_key = k := by
  simp only [listed, List.any_eq_true, decide_eq_true_eq, ChannelEntry.index_key, Prod.ext_iff]

variable [TicketBuilder]

/-- Loading lifts one counter, keeps the others and writes nothing. -/
theorem load_index_spec {channel : ChannelEntry} {f f' : HoprTicketFactory S}
    (h : (load_index channel).run f = .ok () f') :
    stored f'.store = stored f.store ∧ f'.out_idx_tracker.removed = f.out_idx_tracker.removed ∧
      ∃ index, (stored f.store channel.index_key).getD 0 ≤ index ∧
        f'.out_idx_tracker = ((upsert channel.index_key index).run f.out_idx_tracker).2 := by
  unfold load_index at h
  obtain ⟨index, m, hload, hrest⟩ := run_bind_eq_ok.mp h
  obtain ⟨s, hrun, rfl⟩ := onStore_ok hload
  obtain ⟨hindex, hstored⟩ := LawfulOutgoingIndexStore.load_ok hrun
  cases hrest
  refine ⟨hstored, removed_upsert .., _, ?_, rfl⟩
  rw [hindex, UInt64.le_iff_toNat_le, toNat_max]
  exact Nat.le_max_left ..

/-- A counter once loaded stays loaded. -/
theorem loaded_load {channel : ChannelEntry} {k : IndexKey} {v : UInt64} {f f' : HoprTicketFactory S}
    (h : Loaded k v f) (hrun : (load_index channel).run f = .ok () f') : Loaded k v f' := by
  obtain ⟨_, _, index, _, htracker⟩ := load_index_spec hrun
  rw [upsert_run] at htracker
  by_cases hk : k = channel.index_key
  · obtain ⟨e, he, hdirty, hv⟩ := h
    rw [hk] at he
    rw [he, Option.getD_some] at htracker
    refine loaded_put htracker (by rw [hdirty]; rfl) (Or.inl ⟨hk, ?_⟩)
    rw [UInt64.le_iff_toNat_le] at hv ⊢
    rw [toNat_max]
    omega
  · obtain ⟨e, he, hdirty, hv⟩ := h
    refine ⟨e, ?_, hdirty, hv⟩
    rw [htracker]
    exact (lookup_put_ne hk ..).trans he

/-- A fresh cache holds dirty entries only. -/
def AllDirty (f : HoprTicketFactory S) : Prop :=
  ∀ k e, f.out_idx_tracker.lookup k = some e → e.is_dirty = true

theorem load_own {channel : ChannelEntry} {f f' : HoprTicketFactory S} (h : AllDirty f)
    (hrun : (load_index channel).run f = .ok () f') :
    AllDirty f' ∧ Loaded channel.index_key ((stored f.store channel.index_key).getD 0) f' := by
  obtain ⟨_, _, index, hindex, htracker⟩ := load_index_spec hrun
  rw [upsert_run] at htracker
  have hdirty : ((f.out_idx_tracker.lookup channel.index_key).getD (.new index)).is_dirty = true := by
    cases he : f.out_idx_tracker.lookup channel.index_key with
    | none => rfl
    | some e => exact h _ e he
  refine ⟨fun k e hk => ?_, loaded_put htracker (by rw [hdirty]; rfl) (Or.inl ⟨rfl, ?_⟩)⟩
  · rw [htracker] at hk
    by_cases he : k = channel.index_key
    · rw [he, lookup_put_self] at hk
      obtain rfl := Option.some.inj hk
      show (_ || _) = true
      rw [hdirty]
      rfl
    · exact h k e ((lookup_put_ne he ..).symm.trans hk)
  · rw [UInt64.le_iff_toNat_le] at hindex ⊢
    show _ ≤ (max _ index).toNat
    rw [toNat_max]
    omega

/-- A new factory that synchronized keeps every listed index and resumes its counter from it. -/
theorem sync_spec {channels : List ChannelEntry} {store : S} {f' : HoprTicketFactory S}
    (h : (sync_from_outgoing_channels channels).run (new store) = .ok () f') :
    f'.out_idx_tracker.removed = [] ∧ ∀ k, listed channels k = true →
      stored f'.store k = stored store k ∧ Loaded k ((stored store k).getD 0) f' := by
  unfold sync_from_outgoing_channels at h
  obtain ⟨stored_indices, m, hiter, hrest⟩ := run_bind_eq_ok.mp h
  obtain ⟨s, hrun, rfl⟩ := onStore_ok hiter
  obtain ⟨_, m', hpurge, hload⟩ := run_bind_eq_ok.mp hrest
  have hstored : stored s = stored store := (LawfulOutgoingIndexStore.iter_ok hrun).1
  -- the purge does not touch the cache and keeps what is listed
  obtain ⟨htracker, hkept⟩ := forM_preserves (P := fun f => f.out_idx_tracker = .empty ∧
      ∀ k, listed channels.dedup k = true → stored f.store k = stored store k)
    (fun k _ f f' hf hturn => by
      obtain ⟨htracker, hkept⟩ := purge_index_spec hturn
      exact ⟨htracker.trans hf.1, fun k' hk' => (hkept k' hk').trans (hf.2 k' hk')⟩)
    ⟨rfl, fun k _ => congrFun hstored k⟩ hpurge
  have hload_store : stored f'.store = stored m'.store ∧ f'.out_idx_tracker.removed = [] :=
    forM_preserves (P := fun f => stored f.store = stored m'.store ∧ f.out_idx_tracker.removed = [])
      (fun channel _ f f' hf hturn => by
        obtain ⟨hstore, hremoved, _⟩ := load_index_spec hturn
        exact ⟨hstore.trans hf.1, hremoved.trans hf.2⟩)
      ⟨rfl, congrArg OutgoingIndexCache.removed htracker⟩ hload
  refine ⟨hload_store.2, fun k hk => ?_⟩
  rw [← listed_dedup] at hk
  refine ⟨(congrFun hload_store.1 k).trans (hkept k hk), ?_⟩
  rw [← hkept k hk]
  obtain ⟨channel, hmem, hopen, rfl⟩ := listed_iff.mp hk
  have hin : channel ∈ channels.dedup.filter (·.status = .Open) :=
    List.mem_filter.mpr ⟨hmem, decide_eq_true hopen⟩
  exact forM_establishes (R := fun f => stored f.store = stored m'.store ∧ AllDirty f) hin
    (fun f f' hf hturn => hf.1 ▸ (load_own hf.2 hturn).2)
    (fun _ _ f f' hf hturn => ⟨(load_index_spec hturn).1.trans hf.1, (load_own hf.2 hturn).1⟩)
    (fun _ _ f f' hf hturn => loaded_load hf hturn)
    ⟨rfl, fun k e he => by rw [htracker] at he; cases he⟩ hload

end Sync

end HoprTicketFactory

end Hopr.TicketManager
