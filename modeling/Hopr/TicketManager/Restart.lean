import Hopr.TicketManager.Issuing
import Hopr.TicketManager.RedbStore

/-! Outgoing indices across restarts.

A node issues indices, saves them, and restarts: a new factory on the same store
synchronizes with the channels first. What carries an issued index over a
restart changes hands on the way. Before a save the counter in the cache is
beyond it, or dirty; after the save the store is; after the restart the new
counter is again (`Safe`). A counter may only be given up once its epoch is over
(`Outdated`). `Resumable` says so of every index issued, each kind of step
preserves it, and `restart_increasing` concludes that indices keep increasing. -/
namespace Hopr.TicketManager.Restart
open OutgoingIndexEntry OutgoingIndexCache OutgoingIndexStore HoprTicketFactory Issuing Library

structure State (S : Type) where
  factory : HoprTicketFactory S
  history : History
  /-- The channels and epochs that were handed in so far. -/
  passed : List IndexKey
  /-- The last step was a save. -/
  saved : Bool

inductive Action where
  | next_outgoing_ticket_index (channel : ChannelEntry)
  /-- A save that succeeds. -/
  | save_outgoing_indices
  /-- A new factory on the same store, which synchronizes. -/
  | restart (outgoing_channels : List ChannelEntry)

section Machine
variable {S ε : Type}

def start (store : S) : State S := ⟨.new store, [], [], false⟩

/-- A later epoch of the channel was handed in. -/
def Outdated (s : State S) (k : IndexKey) : Prop := ∃ k' ∈ s.passed, k'.1 = k.1 ∧ k.2 < k'.2

variable [TicketBuilder] [OutgoingIndexStore S ε]

def step (s : State S) : Action → Option (State S)
  | .next_outgoing_ticket_index channel =>
    let (v, c) := (next_outgoing_ticket_index channel).run s.factory.out_idx_tracker
    some ⟨{s.factory with out_idx_tracker := c}, s.history ++ [(channel, v)],
      s.passed ++ [channel.index_key], false⟩
  | .save_outgoing_indices =>
    match save_outgoing_indices s.factory with
    | (.ok _, f) => some {s with factory := f, saved := true}
    | (.error _, _) => none
  | .restart outgoing_channels =>
    match (sync_from_outgoing_channels outgoing_channels).run (.new s.factory.store) with
    | .ok _ f => some ⟨f, s.history, s.passed ++ outgoing_channels.map ChannelEntry.index_key, false⟩
    | .error _ _ => none

def machine (S : Type) {ε : Type} [OutgoingIndexStore S ε] : Machine (State S) Action := ⟨step⟩

/-- The epochs handed in for a channel never decrease. -/
def Ascending (s : State S) (channel : ChannelEntry) : Prop :=
  ∀ k ∈ s.passed, k.1 = channel.id → k.2 ≤ channel.channel_epoch

/-- Epochs never decrease, and a restart follows a save and lists every channel in use as open
with its current epoch. -/
def Orderly (s : State S) : Action → Prop
  | .next_outgoing_ticket_index channel => Ascending s channel
  | .save_outgoing_indices => True
  | .restart channels => s.saved = true ∧ (∀ channel ∈ channels, Ascending s channel) ∧
      ∀ a ∈ s.history, ∃ channel ∈ channels, channel.id = a.1.id ∧ channel.status = .Open ∧
        ∀ other ∈ channels, other.id = channel.id → other.channel_epoch ≤ channel.channel_epoch

/-- No call takes a counter past the largest 64-bit index. -/
def NoWrap (s : State S) : Action → Prop
  | .next_outgoing_ticket_index channel =>
    (taken channel.index_key channel.ticket_index s.factory.out_idx_tracker).toNat + 1 < 2 ^ 64
  | _ => True

instance (s : State S) (channel : ChannelEntry) : Decidable (Ascending s channel) :=
  inferInstanceAs (Decidable (∀ k ∈ s.passed, _))

instance : ∀ (s : State S) (a : Action), Decidable (Orderly s a)
  | s, .next_outgoing_ticket_index channel => inferInstanceAs (Decidable (Ascending s channel))
  | _, .save_outgoing_indices => .isTrue trivial
  | s, .restart channels => inferInstanceAs (Decidable (s.saved = true ∧ _ ∧ ∀ a ∈ s.history,
      ∃ channel ∈ channels, _ ∧ _ ∧ ∀ other ∈ channels, _ → _))

instance : ∀ (s : State S) (a : Action), Decidable (NoWrap s a)
  | s, .next_outgoing_ticket_index channel => inferInstanceAs (Decidable
      ((taken channel.index_key channel.ticket_index s.factory.out_idx_tracker).toNat + 1 < 2 ^ 64))
  | _, .save_outgoing_indices | _, .restart _ => .isTrue trivial

end Machine

/-! ### Who keeps an issued index from being issued again -/

section Keepers
variable {S ε : Type} [OutgoingIndexStore S ε]

/-- The counter of `k` is beyond `v`, and if it is clean then so is the stored index. -/
def Safe (f : HoprTicketFactory S) (k : IndexKey) (v : UInt64) : Prop :=
  ∃ e, f.out_idx_tracker.lookup k = some e ∧ v < e.index ∧
    (e.is_dirty = false → ∃ w, stored f.store k = some w ∧ v < w)

theorem Outdated.append {s s' : State S} {k : IndexKey} {ks : List IndexKey}
    (hs' : s'.passed = s.passed ++ ks) (h : Outdated s k) : Outdated s' k := by
  obtain ⟨k', hk', hchannel, hlt⟩ := h
  exact ⟨k', hs' ▸ List.mem_append_left _ hk', hchannel, hlt⟩

/-- The epoch of a channel that is handed in is not outdated. -/
theorem Ascending.not_outdated {s : State S} {channel : ChannelEntry} (h : Ascending s channel) :
    ¬ Outdated s channel.index_key := by
  rintro ⟨k, hk, hchannel, hlt⟩
  have hle := h k hk hchannel
  change channel.channel_epoch < k.2 at hlt
  rw [UInt32.le_iff_toNat_le] at hle
  rw [UInt32.lt_iff_toNat_lt] at hlt
  omega

theorem prev_key_lt {channel : ChannelEntry} (h : 1 < channel.channel_epoch) :
    channel.prev_key.2 < channel.channel_epoch := by
  show channel.channel_epoch - 1 < channel.channel_epoch
  rw [UInt32.lt_iff_toNat_lt] at h ⊢
  change 1 < channel.channel_epoch.toNat at h
  rw [UInt32.toNat_sub_of_le _ _ (by rw [UInt32.le_iff_toNat_le]; exact Nat.le_of_lt h)]
  change channel.channel_epoch.toNat - 1 < _
  omega

variable [TicketBuilder]

structure Resumable (s : State S) : Prop where
  increasing : Increasing s.history
  at_least : ∀ a ∈ s.history, a.2 < TicketBuilder.MAX_TICKET_INDEX → a.1.ticket_index ≤ a.2
  passed : ∀ a ∈ s.history, a.1.index_key ∈ s.passed
  safe : ∀ a ∈ s.history, a.2 < TicketBuilder.MAX_TICKET_INDEX →
    Outdated s a.1.index_key ∨ Safe s.factory a.1.index_key a.2
  removed : ∀ k ∈ s.factory.out_idx_tracker.removed, Outdated s k
  saved : s.saved = true → ∀ k e, s.factory.out_idx_tracker.lookup k = some e → e.is_dirty = false

theorem resumable_start (store : S) : Resumable (start store) :=
  ⟨List.Pairwise.nil, fun _ h => (nomatch h), fun _ h => (nomatch h), fun _ h => (nomatch h),
    fun _ h => (nomatch h), fun h => (nomatch h)⟩

end Keepers

/-! ### What a call does to an issued index -/

section Calls
variable {S ε : Type} [TicketBuilder]

/-- The factory after a call took the next value of `k`. -/
def called (f : HoprTicketFactory S) (k : IndexKey) (min : UInt64) : HoprTicketFactory S :=
  {f with out_idx_tracker := f.out_idx_tracker.put k (advanced k min f.out_idx_tracker)}

variable [OutgoingIndexStore S ε]

/-- What is safe stays safe. -/
theorem Safe.called {f : HoprTicketFactory S} {k k' : IndexKey} {v min : UInt64} (h : Safe f k v)
    (hfits : (taken k' min f.out_idx_tracker).toNat + 1 < 2 ^ 64) : Safe (called f k' min) k v := by
  obtain ⟨e, he, hv, hstored⟩ := h
  by_cases hk : k = k'
  · subst hk
    have hlt : v < taken k min f.out_idx_tracker := Beyond.lt_taken ⟨e, he, hv⟩ min
    obtain ⟨e', he', hv'⟩ := beyond_put hfits (UInt64.le_of_lt hlt)
    refine ⟨e', he', hv', fun hclean => ?_⟩
    -- a call that leaves the entry clean found it clean
    obtain rfl := Option.some.inj ((lookup_put_self ..).symm.trans he')
    obtain ⟨⟨e₀, he₀, hclean₀⟩, _⟩ := advanced_clean hclean
    obtain rfl := Option.some.inj (he.symm.trans he₀)
    exact hstored hclean₀
  · exact ⟨e, (lookup_put_ne hk ..).trans he, hv, hstored⟩

/-- What is issued below the bound is safe. -/
theorem safe_issued {f : HoprTicketFactory S} {k : IndexKey} {min : UInt64}
    (hfits : (taken k min f.out_idx_tracker).toNat + 1 < 2 ^ 64)
    (hmax : taken k min f.out_idx_tracker < TicketBuilder.MAX_TICKET_INDEX) :
    Safe (called f k min) k (taken k min f.out_idx_tracker) := by
  obtain ⟨e, he, hv⟩ := beyond_put hfits (UInt64.le_refl _)
  refine ⟨e, he, hv, fun hclean => ?_⟩
  obtain rfl := Option.some.inj ((lookup_put_self ..).symm.trans he)
  exact absurd (UInt64.le_of_lt hmax) (advanced_clean hclean).2

/-- A value returned below the bound is the value taken. -/
theorem taken_of_returned {k : IndexKey} {min : UInt64} {c : OutgoingIndexCache}
    (h : Min.min (taken k min c) TicketBuilder.MAX_TICKET_INDEX < TicketBuilder.MAX_TICKET_INDEX) :
    Min.min (taken k min c) TicketBuilder.MAX_TICKET_INDEX = taken k min c := by
  apply UInt64.toNat_inj.mp
  rw [UInt64.lt_iff_toNat_lt, toNat_min] at h
  rw [toNat_min]
  omega

theorem resumable_next {s s' : State S} {channel : ChannelEntry} (ho : Ascending s channel)
    (hfits : NoWrap s (.next_outgoing_ticket_index channel)) (h : Resumable s)
    (hs : step s (.next_outgoing_ticket_index channel) = some s') : Resumable s' := by
  obtain ⟨c', hrun, hc'⟩ := next_outgoing_ticket_index_spec channel s.factory.out_idx_tracker
  simp only [step, hrun] at hs
  have hpassed : s'.passed = s.passed ++ [channel.index_key] := by
    obtain rfl := Option.some.inj hs
    rfl
  -- the counter of the epoch before may be dropped, which is over now
  have hprev : 1 < channel.channel_epoch → Outdated s' channel.prev_key := by
    intro hepoch
    refine ⟨channel.index_key, ?_, rfl, prev_key_lt hepoch⟩
    rw [hpassed]
    exact List.mem_append_right _ (List.mem_singleton_self _)
  have hsafe : ∀ k v, Safe (called s.factory channel.index_key channel.ticket_index) k v →
      Outdated s' k ∨ Safe s'.factory k v := by
    intro k v hsafe
    rcases hc' k with ⟨hlookup, _⟩ | ⟨rfl, hepoch, _⟩
    · obtain ⟨e, he, hv, hstored⟩ := hsafe
      obtain rfl := Option.some.inj hs
      exact Or.inr ⟨e, hlookup.trans he, hv, hstored⟩
    · exact Or.inl (hprev hepoch)
  have hlt : ∀ a ∈ s.history, a.1.index_key = channel.index_key →
      a.2 < TicketBuilder.MAX_TICKET_INDEX →
      a.2 < taken channel.index_key channel.ticket_index s.factory.out_idx_tracker := by
    intro a ha hkey hmax
    have hnot : ¬ Outdated s a.1.index_key := hkey ▸ ho.not_outdated
    obtain ⟨e, he, hv, _⟩ := (h.safe a ha hmax).resolve_left hnot
    rw [hkey] at he
    exact Beyond.lt_taken ⟨e, he, hv⟩ channel.ticket_index
  have hhistory : s'.history = s.history ++ [(channel, min (taken channel.index_key
      channel.ticket_index s.factory.out_idx_tracker) TicketBuilder.MAX_TICKET_INDEX)] := by
    obtain rfl := Option.some.inj hs
    rfl
  -- an issued index is an old one or the one just returned
  have hcases : ∀ a ∈ s'.history, a ∈ s.history ∨ a = (channel, min (taken channel.index_key
      channel.ticket_index s.factory.out_idx_tracker) TicketBuilder.MAX_TICKET_INDEX) := by
    intro a ha
    rw [hhistory] at ha
    exact (List.mem_append.mp ha).imp_right List.mem_singleton.mp
  refine ⟨?_, fun a ha hmax => ?_, fun a ha => ?_, fun a ha hmax => ?_, fun k hk => ?_, fun hsaved => ?_⟩
  · rw [hhistory]
    exact increasing_append h.increasing fun a ha hkey hmax _ => lt_returned hmax (hlt a ha hkey hmax)
  · rcases hcases a ha with ha | rfl
    · exact h.at_least a ha hmax
    · show channel.ticket_index ≤ min _ _
      rw [taken_of_returned hmax, UInt64.le_iff_toNat_le]
      unfold taken
      rw [toNat_max]
      exact Nat.le_max_right ..
  · rw [hpassed]
    rcases hcases a ha with ha | rfl
    · exact List.mem_append_left _ (h.passed a ha)
    · exact List.mem_append_right _ (List.mem_singleton_self _)
  · rcases hcases a ha with ha | rfl
    · rcases h.safe a ha hmax with hout | hold
      · exact Or.inl (hout.append hpassed)
      · exact hsafe _ _ (hold.called hfits)
    · have htaken := taken_of_returned hmax
      apply hsafe
      show Safe _ channel.index_key (min _ _)
      rw [htaken]
      exact safe_issued hfits (htaken ▸ hmax)
  · rcases hc' k with ⟨_, hiff⟩ | ⟨rfl, hepoch, _⟩
    · obtain rfl := Option.some.inj hs
      exact (h.removed k (hiff.mp hk)).append hpassed
    · exact hprev hepoch
  · obtain rfl := Option.some.inj hs
    cases hsaved

end Calls

section Lawful
variable {S ε : Type} [OutgoingIndexStore S ε] [TicketBuilder] [LawfulOutgoingIndexStore S]

theorem resumable_save {s s' : State S} (h : Resumable s)
    (hs : step s .save_outgoing_indices = some s') : Resumable s' := by
  obtain ⟨p, hentry, hremoved, hremoval, hlookup, hdone⟩ :=
    save_spec s.factory.out_idx_tracker s.factory.store
  simp only [step] at hs
  split at hs
  case h_2 => cases hs
  rename_i f hsave
  obtain rfl := Option.some.inj hs
  have hfailed : (save s.factory.out_idx_tracker s.factory.store).failed = 0 := by
    rw [← Saving.result_ok_iff]
    have hresult := congrArg Prod.fst hsave
    simp only [save_outgoing_indices] at hresult
    cases hr : (save s.factory.out_idx_tracker s.factory.store).result with
    | ok _ => rfl
    | error e => rw [hr] at hresult; cases hresult
  have hf : f = ⟨(save s.factory.out_idx_tracker s.factory.store).tracker,
      (save s.factory.out_idx_tracker s.factory.store).store⟩ := (congrArg Prod.snd hsave).symm
  subst hf
  refine ⟨h.increasing, h.at_least, h.passed, fun a ha hmax => ?_, fun k hk => ?_,
    fun _ => (hdone hfailed).1⟩
  · by_cases hout : Outdated s a.1.index_key
    · exact Or.inl hout
    · right
      obtain ⟨e, he, hv, hstored⟩ := (h.safe a ha hmax).resolve_left hout
      -- only outdated keys are deleted
      have hstore := ((hremoval a.1.index_key).resolve_right
        fun hdeleted => hout (h.removed _ hdeleted.1)).2
      rcases hentry a.1.index_key with ⟨hsame, hunwritten⟩ | ⟨e', he', _, hclean, hwritten⟩
      · refine ⟨e, (hlookup _).trans (hsame.trans he), hv, fun hc => ?_⟩
        show ∃ w, stored (save _ _).store _ = some w ∧ _
        rw [hstore, hunwritten]
        exact hstored hc
      · obtain rfl := Option.some.inj (he.symm.trans he')
        refine ⟨e.mark_clean, (hlookup _).trans hclean, hv, fun _ => ⟨e.get, hstore.trans hwritten, ?_⟩⟩
        exact lt_returned hmax hv
  · rcases hremoval k with ⟨hiff, _⟩ | ⟨_, hgone, _⟩
    · exact h.removed k (hremoved ▸ hiff.mp hk)
    · exact absurd hk hgone

theorem resumable_restart {s s' : State S} {channels : List ChannelEntry}
    (ho : Orderly s (.restart channels)) (h : Resumable s)
    (hs : step s (.restart channels) = some s') : Resumable s' := by
  obtain ⟨hsaved, hascending, hlists⟩ := ho
  simp only [step] at hs
  split at hs
  case h_2 => cases hs
  rename_i f hsync
  obtain rfl := Option.some.inj hs
  obtain ⟨hremoved, hloaded⟩ := sync_spec hsync
  refine ⟨h.increasing, h.at_least, fun a ha => List.mem_append_left _ (h.passed a ha),
    fun a ha hmax => ?_, fun k hk => ?_, fun hsaved => (nomatch hsaved)⟩
  · rw [or_iff_not_imp_left]
    intro hout
    obtain ⟨e, he, _, hstored⟩ := (h.safe a ha hmax).resolve_left fun hold => hout (hold.append rfl)
    obtain ⟨w, hw, hv⟩ := hstored (h.saved hsaved _ e he)
    -- the channel is listed as open in the epoch of the index
    obtain ⟨channel, hmem, hid, hopen, _⟩ := hlists a ha
    have hkey : channel.index_key = a.1.index_key := by
      have hle := hascending channel hmem a.1.index_key (h.passed a ha) hid.symm
      have hge : ¬ a.1.channel_epoch < channel.channel_epoch := fun hlt =>
        hout ⟨channel.index_key, List.mem_append_right _ (List.mem_map_of_mem hmem), hid, hlt⟩
      change a.1.channel_epoch ≤ channel.channel_epoch at hle
      rw [UInt32.le_iff_toNat_le] at hle
      rw [UInt32.lt_iff_toNat_lt] at hge
      have hepoch : channel.channel_epoch = a.1.channel_epoch := UInt32.toNat_inj.mp (by omega)
      exact Prod.ext hid hepoch
    obtain ⟨_, e', he', hdirty, hindex⟩ :=
      hloaded a.1.index_key (listed_iff.mpr ⟨channel, hmem, hopen, hkey⟩)
    rw [hw, Option.getD_some, UInt64.le_iff_toNat_le] at hindex
    rw [UInt64.lt_iff_toNat_lt] at hv
    refine ⟨e', he', ?_, fun hclean => absurd (hdirty.symm.trans hclean) (by decide)⟩
    rw [UInt64.lt_iff_toNat_lt]
    omega
  · rw [hremoved] at hk
    cases hk

theorem resumable_step {s s' : State S} {a : Action} (ho : Orderly s a) (hfits : NoWrap s a)
    (h : Resumable s) (hs : step s a = some s') : Resumable s' := by
  cases a with
  | next_outgoing_ticket_index channel => exact resumable_next ho hfits h hs
  | save_outgoing_indices => exact resumable_save h hs
  | restart channels => exact resumable_restart ho h hs

/-- While no counter wraps, the indices below the bound that are issued for a channel and epoch
increase strictly across all restarts, and each is at least the ticket index handed in. -/
theorem restart_increasing {store : S} {as : List Action} {s : State S}
    (ho : (machine S).Meets Orderly (start store) as)
    (hfits : (machine S).Meets NoWrap (start store) as)
    (hrun : (machine S).run (start store) as = some s) :
    Increasing s.history ∧
      ∀ a ∈ s.history, a.2 < TicketBuilder.MAX_TICKET_INDEX → a.1.ticket_index ≤ a.2 := by
  have hresumable : Resumable s := (machine S).run_invariant
    (fun _ _ _ hc h hs => resumable_step hc.1 hc.2 h hs) (ho.and hfits) hrun (resumable_start store)
  exact ⟨hresumable.increasing, hresumable.at_least⟩

end Lawful

section Memory

local instance : TicketBuilder := .bits48

/-- A new database. -/
def database : RedbStore := ⟨(∅ : AList fun _ : Text => StoredTable).insert OUT_IDX_TABLE (.out_index ∅)⟩

/-- Indices of two channels, of which one restarts its lifecycle, across two restarts with one database. -/
theorem restart_increasing_twice :
    let as : List Action := [.next_outgoing_ticket_index (.of 1 1 0),
      .next_outgoing_ticket_index (.of 2 3 4), .next_outgoing_ticket_index (.of 1 1 0),
      .save_outgoing_indices, .restart [.of 1 1 0, .of 2 3 4],
      .next_outgoing_ticket_index (.of 1 1 0), .next_outgoing_ticket_index (.of 1 2 0),
      .save_outgoing_indices, .restart [.of 2 3 9, .of 1 2 0],
      .next_outgoing_ticket_index (.of 1 2 0), .next_outgoing_ticket_index (.of 2 3 9)]
    ∃ s : State RedbStore, (machine RedbStore).run (start database) as = some s ∧
      s.history.map Prod.snd = [0, 4, 1, 2, 0, 1, 9] ∧ Increasing s.history := by
  intro as
  obtain ⟨s, hs, hissued⟩ : ∃ s : State RedbStore, (machine RedbStore).run (start database) as = some s ∧
      s.history.map Prod.snd = [0, 4, 1, 2, 0, 1, 9] :=
    (machine _).exists_run (by decide +kernel)
  exact ⟨s, hs, hissued, (restart_increasing (by decide +kernel) (by decide +kernel) hs).1⟩

/-- A ticket index of 64 ones takes the counter around to zero. -/
theorem wrapped_again :
    let as : List Action := [.next_outgoing_ticket_index (.of 1 1 0),
      .next_outgoing_ticket_index (.of 1 1 0xFFFFFFFFFFFFFFFF),
      .next_outgoing_ticket_index (.of 1 1 0)]
    (machine MemoryIndexStore).Meets Orderly (start .empty) as ∧
      ∃ s : State MemoryIndexStore, (machine MemoryIndexStore).run (start .empty) as = some s ∧
        s.history.map Prod.snd = [0, TicketBuilder.MAX_TICKET_INDEX, 0] ∧
        ¬ Increasing s.history := by
  intro as
  exact ⟨by decide +kernel, (machine _).exists_run (by decide +kernel)⟩

end Memory

end Hopr.TicketManager.Restart
