import Hopr.TicketManager.Factory

/-! Issuing indices from one factory.

The callers of `next_outgoing_ticket_index` hand in channel entries of any
channel, in any order of epochs. The counters only grow, so an index is not
issued again while its counter is kept: `Counted` says that the counter of every
issued index is beyond it or was dropped. A dropped counter starts over when its
key is used again, which `Keeps` excludes along with counters that wrap around
(`issued_once`); a caller that still holds an entry of the previous epoch is all
it takes (`issued_again`). -/
namespace Hopr.TicketManager.Issuing
open OutgoingIndexEntry OutgoingIndexCache HoprTicketFactory Library

/-- What was issued so far: the entry handed in and the index returned. -/
abbrev History := List (ChannelEntry × UInt64)

structure State where
  tracker : OutgoingIndexCache
  history : History

def start : State := ⟨.empty, []⟩

section Machine
variable [TicketBuilder]

/-- A call with the entry `channel`. -/
def step (s : State) (channel : ChannelEntry) : Option State :=
  let (v, c) := (next_outgoing_ticket_index channel).run s.tracker
  some ⟨c, s.history ++ [(channel, v)]⟩

def machine : Machine State ChannelEntry := ⟨step⟩

/-- The key of the call is not one whose counter was dropped, and its counter does not wrap. -/
def Keeps (s : State) (channel : ChannelEntry) : Prop :=
  channel.index_key ∉ s.tracker.removed ∧
    (taken channel.index_key channel.ticket_index s.tracker).toNat + 1 < 2 ^ 64

instance (s : State) (channel : ChannelEntry) : Decidable (Keeps s channel) :=
  inferInstanceAs (Decidable (_ ∧ _))

/-- For each key the indices below the bound are issued in strictly increasing order. -/
def Increasing (history : History) : Prop :=
  history.Pairwise fun a b => a.1.index_key = b.1.index_key →
    a.2 < TicketBuilder.MAX_TICKET_INDEX → b.2 < TicketBuilder.MAX_TICKET_INDEX → a.2 < b.2

instance (history : History) : Decidable (Increasing history) :=
  inferInstanceAs (Decidable (history.Pairwise _))

/-- No index below the bound was issued twice for one key. -/
def IssuedOnce (history : History) : Prop :=
  history.Pairwise fun a b => a.1.index_key = b.1.index_key →
    a.2 < TicketBuilder.MAX_TICKET_INDEX → b.2 < TicketBuilder.MAX_TICKET_INDEX → a.2 ≠ b.2

instance (history : History) : Decidable (IssuedOnce history) :=
  inferInstanceAs (Decidable (history.Pairwise _))

end Machine

/-! ### Counters beyond what was issued -/

section Counters

/-- The counter of the key is beyond `v`. -/
def Beyond (c : OutgoingIndexCache) (k : IndexKey) (v : UInt64) : Prop :=
  ∃ e, c.lookup k = some e ∧ v < e.index

theorem Beyond.lt_taken {c : OutgoingIndexCache} {k : IndexKey} {v : UInt64} (h : Beyond c k v)
    (min : UInt64) : v < taken k min c := by
  obtain ⟨e, he, hv⟩ := h
  unfold taken
  rw [he, Option.getD_some]
  rw [UInt64.lt_iff_toNat_lt] at hv ⊢
  rw [toNat_max]
  omega

variable [TicketBuilder]

/-- After a call the counter is beyond the value taken, and beyond what it was beyond before. -/
theorem beyond_put {c : OutgoingIndexCache} {k : IndexKey} {min v : UInt64}
    (hfits : (taken k min c).toNat + 1 < 2 ^ 64) (hv : v ≤ taken k min c) :
    Beyond (c.put k (advanced k min c)) k v := by
  refine ⟨_, lookup_put_self .., ?_⟩
  rw [UInt64.le_iff_toNat_le] at hv
  rw [UInt64.lt_iff_toNat_lt]
  unfold advanced
  rw [UInt64.toNat_add, show (1 : UInt64).toNat = 1 from rfl, Nat.mod_eq_of_lt hfits]
  omega

theorem increasing_append {history : History} (h : Increasing history) {channel : ChannelEntry}
    {v : UInt64} (hlast : ∀ a ∈ history, a.1.index_key = channel.index_key →
      a.2 < TicketBuilder.MAX_TICKET_INDEX → v < TicketBuilder.MAX_TICKET_INDEX → a.2 < v) :
    Increasing (history ++ [(channel, v)]) := by
  refine List.pairwise_append.mpr ⟨h, List.pairwise_singleton _ _, fun a ha b hb => ?_⟩
  rw [List.mem_singleton] at hb
  subst hb
  exact hlast a ha

/-- What is below the value taken and below the bound is below the value returned. -/
theorem lt_returned {v w : UInt64} (hv : v < TicketBuilder.MAX_TICKET_INDEX) (hw : v < w) :
    v < min w TicketBuilder.MAX_TICKET_INDEX := by
  rw [UInt64.lt_iff_toNat_lt] at hv hw ⊢
  rw [toNat_min]
  omega

/-- Issued indices keep increasing, and each issued index has a counter beyond it or lost it. -/
structure Counted (s : State) : Prop where
  increasing : Increasing s.history
  beyond : ∀ a ∈ s.history, a.2 < TicketBuilder.MAX_TICKET_INDEX →
    a.1.index_key ∈ s.tracker.removed ∨ Beyond s.tracker a.1.index_key a.2

theorem counted_start : Counted start := ⟨List.Pairwise.nil, fun _ h => (nomatch h)⟩

theorem counted_step {s s' : State} {channel : ChannelEntry} (hk : Keeps s channel)
    (h : Counted s) (hs : step s channel = some s') : Counted s' := by
  obtain ⟨hkept, hfits⟩ := hk
  obtain ⟨c', hrun, hc'⟩ := next_outgoing_ticket_index_spec channel s.tracker
  unfold step at hs
  rw [hrun] at hs
  obtain rfl := Option.some.inj hs
  -- what was beyond an index stays beyond it or is dropped
  have hmove : ∀ k v, Beyond (s.tracker.put channel.index_key
      (advanced channel.index_key channel.ticket_index s.tracker)) k v →
      k ∈ c'.removed ∨ Beyond c' k v := by
    intro k v hbeyond
    rcases hc' k with ⟨hlookup, _⟩ | ⟨_, _, hdropped⟩
    · right
      unfold Beyond at hbeyond ⊢
      rw [hlookup]
      exact hbeyond
    · exact Or.inl hdropped
  have hsame : ∀ a ∈ s.history, a.2 < TicketBuilder.MAX_TICKET_INDEX →
      a.1.index_key = channel.index_key →
      a.2 < taken channel.index_key channel.ticket_index s.tracker := by
    intro a ha hmax hkey
    have hbeyond := (h.beyond a ha hmax).resolve_left (hkey ▸ hkept)
    rw [hkey] at hbeyond
    exact hbeyond.lt_taken channel.ticket_index
  refine ⟨increasing_append h.increasing fun a ha hkey hmax _ =>
    lt_returned hmax (hsame a ha hmax hkey), fun a ha hmax => ?_⟩
  rcases List.mem_append.mp ha with ha | ha
  · by_cases hkey : a.1.index_key = channel.index_key
    · rw [hkey]
      exact hmove _ _ (beyond_put hfits (UInt64.le_of_lt (hsame a ha hmax hkey)))
    · rcases h.beyond a ha hmax with hdropped | ⟨e, he, hv⟩
      · left
        rcases hc' a.1.index_key with ⟨_, hiff⟩ | ⟨_, _, hdropped'⟩
        · exact hiff.mpr hdropped
        · exact hdropped'
      · exact hmove _ _ ⟨e, (lookup_put_ne hkey ..).trans he, hv⟩
  · rw [List.mem_singleton] at ha
    subst ha
    refine hmove _ _ (beyond_put hfits ?_)
    rw [UInt64.le_iff_toNat_le, toNat_min]
    exact Nat.min_le_left ..

/-- As long as no dropped counter is used again and no counter wraps, no index below the bound is
issued twice for a channel and epoch. -/
theorem issued_once {channels : List ChannelEntry} {s : State}
    (hkeeps : machine.Meets Keeps start channels) (hrun : machine.run start channels = some s) :
    IssuedOnce s.history := by
  have hcounted : Counted s := machine.run_invariant
    (fun _ _ _ hk h hs => counted_step hk h hs) hkeeps hrun counted_start
  refine hcounted.increasing.imp fun h hkey ha hb he => ?_
  exact UInt64.lt_irrefl _ (he ▸ h hkey ha hb)

end Counters

section Bits48

local instance : TicketBuilder := .bits48

/-- Two channels, one of which restarts. -/
theorem issued_once_restarted :
    let channels := [ChannelEntry.of 1 5 0, .of 2 1 7, .of 1 5 3, .of 1 6 0, .of 2 1 0]
    ∃ s, machine.run start channels = some s ∧
      s.history.map Prod.snd = [0, 7, 3, 0, 8] ∧ IssuedOnce s.history := by
  intro channels
  obtain ⟨s, hs, hissued⟩ : ∃ s, machine.run start channels = some s ∧
      s.history.map Prod.snd = [0, 7, 3, 0, 8] := machine.exists_run (by decide +kernel)
  exact ⟨s, hs, hissued, issued_once (by decide +kernel) hs⟩

/-- A caller that still holds an entry of the previous epoch is given its first index again. -/
theorem issued_again :
    ∃ s, machine.run start [.of 1 1 0, .of 1 2 0, .of 1 1 0] = some s ∧
      s.history = [(.of 1 1 0, 0), (.of 1 2 0, 0), (.of 1 1 0, 0)] ∧ ¬ IssuedOnce s.history :=
  machine.exists_run (by decide +kernel)

end Bits48

end Hopr.TicketManager.Issuing
