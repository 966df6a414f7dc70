import Mathlib.Algebra.Ring.Int.Defs
import Hopr.Connector.Channels

/-! What the event stream tells about a channel.

A subscriber learns the status of a channel from the last event that names one,
and its balance from the first entry it saw and the increases and decreases
since. The balances always add up. The status is right after every update if and
only if each update's status is one that an event is broadcast for
(`whole_story_iff`): `Open` at first, and then a step along
`Open`, `PendingToClose`, `Closed` and `Open` again, or none. -/
namespace Hopr.Connector.ChannelStory
open Library
open TicketManager (HoprBalance ChannelId)

/-! ### What events tell -/

/-- The status that an event names for the channel. -/
def named (id : ChannelId) : ChainEvent → Option ChannelStatusDiscriminants
  | .ChannelOpened channel => if channel.id = id then some .Open else none
  | .ChannelClosureInitiated channel => if channel.id = id then some .PendingToClose else none
  | .ChannelClosed channel => if channel.id = id then some .Closed else none
  | _ => none

/-- By how much an event says that the balance of the channel went up. -/
def gained (id : ChannelId) : ChainEvent → Int
  | .ChannelBalanceIncreased channel amount => if channel.id = id then amount.amount else 0
  | .ChannelBalanceDecreased channel amount => if channel.id = id then -amount.amount else 0
  | _ => 0

/-- The last status that was named for the channel. -/
def told_status (id : ChannelId) (events : List ChainEvent) : Option ChannelStatusDiscriminants :=
  (events.filterMap (named id)).getLast?

def told_balance (id : ChannelId) (events : List ChainEvent) : Int := (events.map (gained id)).sum

/-- Changes of the status that an event is broadcast for. -/
def announced : ChannelStatus → ChannelStatus → Bool
  | .Open, .PendingToClose _ => true
  | .PendingToClose _, .Closed => true
  | .Closed, .Open => true
  | _, _ => false

section Events
variable {direction : ChannelEntry → Address → Option ChannelDirection} {me : Address}
  {channel old : ChannelEntry} {id : ChannelId}

/-- The channel that an event is about. -/
def subject : ChainEvent → ChannelEntry
  | .ChannelOpened channel | .ChannelClosureInitiated channel | .ChannelClosed channel
  | .ChannelBalanceIncreased channel _ | .ChannelBalanceDecreased channel _
  | .TicketRedeemed channel _ => channel

theorem subject_of_change {change : ChannelChange} {event : ChainEvent}
    (h : event ∈ change_events direction channel me change) : subject event = channel := by
  unfold change_events at h
  split at h
  · rw [List.mem_singleton.mp h]; rfl
  · rw [List.mem_singleton.mp h]; rfl
  · rw [List.mem_singleton.mp h]; rfl
  · split at h
    · rw [List.mem_singleton.mp h]; rfl
    · rw [List.mem_singleton.mp h]; rfl
  · split at h
    · split at h
      · cases h
      · rw [List.mem_singleton.mp h]; rfl
      · rw [List.mem_singleton.mp h]; rfl
    · cases h
  · cases h

theorem named_other {event : ChainEvent} (h : (subject event).id ≠ id) : named id event = none := by
  cases event <;> first | exact if_neg h | rfl

theorem gained_other {event : ChainEvent} (h : (subject event).id ≠ id) : gained id event = 0 := by
  cases event <;> first | exact if_neg h | rfl

/-- A change of the status names the new one, or none. -/
theorem named_status (left right : ChannelStatus) :
    (change_events direction channel me (.Status left right)).filterMap (named channel.id) =
      if announced left right then [right.discriminant] else [] := by
  cases left <;> cases right <;> simp [change_events, named, announced, ChannelStatus.discriminant]

theorem not_announced_self (status : ChannelStatus) : announced status status = false := by
  cases status <;> rfl

theorem gained_balance (left right : HoprBalance) :
    told_balance channel.id (change_events direction channel me (.Balance left right)) =
      right.amount - left.amount := by
  simp only [change_events, HoprBalance.lt_iff]
  split <;> simp [told_balance, gained] <;> omega

theorem named_index (left right : UInt64) :
    (change_events direction channel me (.TicketIndex left right)).filterMap (named channel.id) = [] := by
  simp only [change_events]
  split
  · split <;> rfl
  · rfl

theorem gained_index (left right : UInt64) :
    told_balance channel.id (change_events direction channel me (.TicketIndex left right)) = 0 := by
  simp only [change_events]
  split
  · split <;> rfl
  · rfl

theorem gained_status (left right : ChannelStatus) :
    told_balance channel.id (change_events direction channel me (.Status left right)) = 0 := by
  cases left <;> cases right <;> rfl

theorem told_balance_append (events events' : List ChainEvent) :
    told_balance id (events ++ events') = told_balance id events + told_balance id events' := by
  simp only [told_balance, List.map_append, List.sum_append]

/-- The new status is named if an event is broadcast for it. -/
theorem named_changed : (process_channel_changes_into_events direction channel (changed old channel) me).filterMap
    (named channel.id) = if announced old.status channel.status then [channel.status.discriminant] else [] := by
  have hrest : ∀ (p : Prop) [Decidable p] (change : ChannelChange),
      (change_events direction channel me change).filterMap (named channel.id) = [] →
      ((if p then [] else [change]).flatMap (change_events direction channel me)).filterMap (named channel.id) =
        [] := by
    intro p _ change hnone
    split
    · rfl
    · rwa [List.flatMap_singleton]
  have hbalance : ∀ left right : HoprBalance,
      (change_events direction channel me (.Balance left right)).filterMap (named channel.id) = [] := by
    intro left right
    simp only [change_events]
    split <;> rfl
  unfold process_channel_changes_into_events changed
  simp only [List.flatMap_append, List.filterMap_append]
  rw [hrest _ _ (hbalance _ _), hrest _ _ (named_index _ _), hrest _ (.Epoch _ _) rfl]
  simp only [List.append_nil]
  split
  · next hsame =>
    rw [hsame, not_announced_self]
    rfl
  · rw [List.flatMap_singleton, named_status]

theorem gained_changed : told_balance channel.id
    (process_channel_changes_into_events direction channel (changed old channel) me) =
      channel.balance.amount - old.balance.amount := by
  have hrest : ∀ (p : Prop) [Decidable p] (change : ChannelChange),
      told_balance channel.id (change_events direction channel me change) = 0 →
      told_balance channel.id ((if p then [] else [change]).flatMap (change_events direction channel me)) = 0 := by
    intro p _ change hnone
    split
    · rfl
    · rwa [List.flatMap_singleton]
  unfold process_channel_changes_into_events changed
  simp only [List.flatMap_append, told_balance_append]
  rw [hrest _ _ (gained_status _ _), hrest _ _ (gained_index _ _), hrest _ (.Epoch _ _) rfl]
  split
  · next hsame =>
    rw [hsame]
    simp [told_balance]
  · rw [List.flatMap_singleton, gained_balance]
    omega

variable {diff : ChannelEntry → ChannelEntry → List ChannelChange}

/-- In which order the changes are listed makes no difference. -/
theorem told_of_diff (hdiff : (diff old channel).Perm (changed old channel)) :
    (update_events diff direction me channel (some old)).filterMap (named channel.id) =
      (if announced old.status channel.status then [channel.status.discriminant] else []) ∧
    told_balance channel.id (update_events diff direction me channel (some old)) =
      channel.balance.amount - old.balance.amount := by
  have hperm := hdiff.flatMap_right (change_events direction channel me)
  constructor
  · have hnamed := hperm.filterMap (named channel.id)
    rw [← process_channel_changes_into_events, ← process_channel_changes_into_events, named_changed] at hnamed
    split at hnamed
    · next htold => rw [if_pos htold]; exact List.perm_singleton.mp hnamed
    · next hnot => rw [if_neg hnot]; exact hnamed.eq_nil
  · rw [← @gained_changed direction me]
    exact (hperm.map (gained channel.id)).sum_eq

theorem subject_of_update {before : Option ChannelEntry} {event : ChainEvent}
    (h : event ∈ update_events diff direction me channel before) : subject event = channel := by
  cases before with
  | none => rw [List.mem_singleton.mp h]; rfl
  | some old =>
    obtain ⟨change, _, hevent⟩ := List.mem_flatMap.mp h
    exact subject_of_change hevent

/-- An update of another channel tells nothing. -/
theorem told_other {before : Option ChannelEntry} (h : channel.id ≠ id) :
    (update_events diff direction me channel before).filterMap (named id) = [] ∧
      told_balance id (update_events diff direction me channel before) = 0 := by
  constructor
  · rw [List.filterMap_eq_nil_iff]
    intro event hevent
    exact named_other (subject_of_update hevent ▸ h)
  · refine List.sum_eq_zero ?_
    intro n hn
    obtain ⟨event, hevent, rfl⟩ := List.mem_map.mp hn
    exact gained_other (subject_of_update hevent ▸ h)

end Events

/-! ### Runs -/

/-- The stored channels, the entry each was first seen with, and what was broadcast. -/
structure Stream where
  stored : StoredChannels
  first : StoredChannels
  events : List ChainEvent

def Stream.new : Stream := ⟨fun _ => none, fun _ => none, []⟩

variable (diff : ChannelEntry → ChannelEntry → List ChannelChange)
  (direction : ChannelEntry → Address → Option ChannelDirection) (me : Address)

/-- An update is handled. -/
def Stream.handle (s : Stream) (channel : ChannelEntry) : Stream :=
  let (old, stored) := insert_channel channel s.stored
  { stored
    first := if old.isNone then Function.update s.first channel.id (some channel) else s.first
    events := s.events ++ update_events diff direction me channel old }

def machine : Machine Stream ChannelEntry where
  step s channel := some (s.handle diff direction me channel)

/-- The last status that was named for a channel is that which it has. -/
def Named (s : Stream) : Prop :=
  ∀ id channel, s.stored id = some channel → told_status id s.events = some channel.status.discriminant

/-- The balance first seen and what was gained since add up to that which it has. -/
def Balanced (s : Stream) : Prop :=
  ∀ id channel, s.stored id = some channel → ∃ first, s.first id = some first ∧
    first.balance.amount + told_balance id s.events = channel.balance.amount

/-- Nothing is told of a channel that is not stored. -/
def Silent (s : Stream) : Prop := ∀ id, s.stored id = none → told_balance id s.events = 0

/-- The status is `Open` where the channel is first seen, and otherwise of the kind it was or one that
an event is broadcast for. -/
def Tellable (s : Stream) (channel : ChannelEntry) : Prop :=
  match s.stored channel.id with
  | none => channel.status = .Open
  | some old => old.status.discriminant = channel.status.discriminant ∨
      announced old.status channel.status = true

section Step
variable {diff direction me} {s : Stream} {channel : ChannelEntry}

theorem stored_handle (id : ChannelId) : (s.handle diff direction me channel).stored id =
    if id = channel.id then some channel else s.stored id :=
  Function.update_apply _ _ _ _

theorem told_status_other {id : ChannelId} (h : channel.id ≠ id) :
    told_status id (s.handle diff direction me channel).events = told_status id s.events := by
  show (List.filterMap (named id) (s.events ++ update_events diff direction me channel _)).getLast? = _
  rw [List.filterMap_append, (told_other h).1, List.append_nil]
  rfl

theorem told_balance_handle (id : ChannelId) : told_balance id (s.handle diff direction me channel).events =
    told_balance id s.events + told_balance id (update_events diff direction me channel (s.stored channel.id)) :=
  told_balance_append _ _

/-- The channel that is updated is named as it is, or as it was. -/
theorem told_status_handle (hdiff : ∀ old new, (diff old new).Perm (changed old new)) :
    told_status channel.id (s.handle diff direction me channel).events =
      match s.stored channel.id with
      | none => some .Open
      | some old => if announced old.status channel.status then some channel.status.discriminant
          else told_status channel.id s.events := by
  show (List.filterMap (named channel.id)
    (s.events ++ update_events diff direction me channel (s.stored channel.id))).getLast? = _
  rw [List.filterMap_append]
  cases s.stored channel.id with
  | none =>
    have hopened : named channel.id (.ChannelOpened channel) = some .Open := if_pos rfl
    simp only [update_events, List.filterMap_cons_some hopened, List.filterMap_nil, List.getLast?_concat]
  | some old =>
    dsimp only
    rw [(told_of_diff (hdiff old channel)).1]
    split
    · exact List.getLast?_concat
    · rw [List.append_nil]
      rfl

theorem named_handle_iff (hdiff : ∀ old new, (diff old new).Perm (changed old new)) (h : Named s) :
    Named (s.handle diff direction me channel) ↔ Tellable s channel := by
  have htold : told_status channel.id (s.handle diff direction me channel).events = _ := told_status_handle hdiff
  have hone : Named (s.handle diff direction me channel) ↔
      told_status channel.id (s.handle diff direction me channel).events = some channel.status.discriminant := by
    constructor
    · intro hnamed
      exact hnamed channel.id channel (by rw [stored_handle, if_pos rfl])
    · intro hnamed id c hc
      rw [stored_handle] at hc
      split at hc
      · next hid =>
        cases hc
        rw [hid]
        exact hnamed
      · next hid =>
        rw [told_status_other (fun heq => hid heq.symm)]
        exact h id c hc
  rw [hone, htold]
  unfold Tellable
  cases hstored : s.stored channel.id with
  | none =>
    dsimp only
    cases channel.status <;> simp [ChannelStatus.discriminant]
  | some old =>
    dsimp only
    split
    · next hann => exact ⟨fun _ => .inr hann, fun _ => rfl⟩
    · next hann =>
      rw [h channel.id old hstored]
      simp [hann]

theorem silent_handle (h : Silent s) : Silent (s.handle diff direction me channel) := by
  intro id hid
  rw [stored_handle] at hid
  split at hid
  · cases hid
  · next hne =>
    rw [told_balance_handle, (told_other fun heq => hne heq.symm).2, h id hid]
    rfl

theorem first_handle (id : ChannelId) : (s.handle diff direction me channel).first id =
    if id = channel.id ∧ s.stored channel.id = none then some channel else s.first id := by
  show (if (s.stored channel.id).isNone = true then _ else s.first) id = _
  cases s.stored channel.id with
  | none =>
    simp only [Option.isNone_none, if_true, and_true]
    exact Function.update_apply _ _ _ _
  | some old => simp

theorem balanced_handle (hdiff : ∀ old new, (diff old new).Perm (changed old new)) (hs : Silent s)
    (h : Balanced s) : Balanced (s.handle diff direction me channel) := by
  intro id c hc
  rw [stored_handle] at hc
  rw [told_balance_handle, first_handle]
  split at hc
  · next hid =>
    cases hc
    rw [hid]
    cases hstored : s.stored channel.id with
    | none =>
      refine ⟨channel, if_pos ⟨rfl, rfl⟩, ?_⟩
      rw [hs channel.id hstored]
      rfl
    | some old =>
      obtain ⟨first, hfirst, hsum⟩ := h channel.id old hstored
      refine ⟨first, ?_, ?_⟩
      · rw [if_neg fun hnew => nomatch hnew.2]
        exact hfirst
      · rw [(told_of_diff (hdiff old channel)).2]
        omega
  · next hid =>
    obtain ⟨first, hfirst, hsum⟩ := h id c hc
    refine ⟨first, ?_, ?_⟩
    · rw [if_neg fun hnew => hid hnew.1]
      exact hfirst
    · rw [(told_other fun heq => hid heq.symm).2]
      omega

end Step

/-- After every update of a run the events tell the status and the balance of each channel, if and
only if every update is tellable. -/
theorem whole_story_iff (hdiff : ∀ old new, (diff old new).Perm (changed old new))
    (updates : List ChannelEntry) :
    (machine diff direction me).Meets (fun s channel => ∀ s', (machine diff direction me).step s channel = some s' →
      Named s' ∧ Balanced s') .new updates ↔ (machine diff direction me).Meets Tellable .new updates := by
  have hnew : ∀ id channel, Stream.new.stored id ≠ some channel := fun _ _ h => nomatch h
  constructor
  · intro htold
    refine htold.of_invariant (I := Named) ?_ ?_ fun id channel h => absurd h (hnew id channel)
    · exact fun s channel s' hall _ hstep => (hall s' hstep).1
    · exact fun s channel hall h => (named_handle_iff hdiff h).mp (hall _ rfl).1
  · intro htellable
    refine htellable.of_invariant (I := fun s => Named s ∧ Silent s ∧ Balanced s) ?_ ?_ ?_
    · intro s channel s' hC ⟨hnamed, hsilent, hbalanced⟩ hstep
      cases hstep
      exact ⟨(named_handle_iff hdiff hnamed).mpr hC, silent_handle hsilent,
        balanced_handle hdiff hsilent hbalanced⟩
    · intro s channel hC ⟨hnamed, hsilent, hbalanced⟩ s' hstep
      cases hstep
      exact ⟨(named_handle_iff hdiff hnamed).mpr hC, balanced_handle hdiff hsilent hbalanced⟩
    · exact ⟨fun id channel h => absurd h (hnew id channel), fun _ _ => rfl,
        fun id channel h => absurd h (hnew id channel)⟩

theorem whole_story_reopened :
    (machine changed directed ⟨[1]⟩).Meets
      (fun s channel => ∀ s', (machine changed directed ⟨[1]⟩).step s channel = some s' → Named s' ∧ Balanced s') .new
      [.of 7 .Open 10, .of 7 (.PendingToClose 5) 8, .of 7 .Closed 0, .of 7 .Open 3] := by
  refine (whole_story_iff changed directed ⟨[1]⟩ (fun _ _ => .refl _) _).mpr ⟨rfl, fun s hs => ?_⟩
  cases hs
  refine ⟨.inr rfl, fun s hs => ?_⟩
  cases hs
  refine ⟨.inr rfl, fun s hs => ?_⟩
  cases hs
  exact ⟨.inr rfl, fun _ _ => trivial⟩

/-- The closure of an incoming channel, which is not announced, is not told. -/
theorem closure_not_told : ∃ s, (machine changed directed ⟨[1]⟩).run .new [.of 7 .Open 10, .of 7 .Closed 10] = some s ∧
    s.stored ⟨[7]⟩ = some (.of 7 .Closed 10) ∧ told_status ⟨[7]⟩ s.events = some .Open :=
  ⟨_, rfl, rfl, rfl⟩

/-- The balances are told whatever the updates are. -/
theorem balanced_run (hdiff : ∀ old new, (diff old new).Perm (changed old new)) {s : Stream}
    {updates : List ChannelEntry} (hrun : (machine diff direction me).run .new updates = some s) : Balanced s := by
  have hinv : Silent s ∧ Balanced s := by
    refine (machine diff direction me).run_invariant_of_step (I := fun s => Silent s ∧ Balanced s) ?_ hrun ?_
    · intro s channel s' ⟨hsilent, hbalanced⟩ hstep
      cases hstep
      exact ⟨silent_handle hsilent, balanced_handle hdiff hsilent hbalanced⟩
    · exact ⟨fun _ _ => rfl, fun _ _ h => nomatch h⟩
  exact hinv.2

end Hopr.Connector.ChannelStory
