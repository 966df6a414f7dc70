import Hopr.TicketManager.FaultyQueue
import Hopr.TicketManager.Memory

/-! What a failed call loses.

For each call of the manager a plan lists the calls it makes of the backend
while none fails, computed from what is stored (`plan`). A call that fails has
lost a ticket exactly when the first backend call to fail comes after one that
takes a ticket from a queue (`tickets_kept_iff`): what was taken before is
returned on success only. -/
namespace Hopr.TicketManager.FailedCalls
open Library TicketQueue

/-! ### Plans -/

/-- Tickets for each channel. -/
abbrev Contents := ChannelId → List RedeemableTicket

/-- The first ticket of a channel is for an empty queue; the count for the new entry is the one
call whose failure is tolerated. -/
def first_plan (l : List RedeemableTicket) : List CallKind :=
  .keep :: .keep :: .keep :: if l = [] then [.keep, .tolerated] else [.reject]

/-- A queue that is deleted is taken with all its tickets. -/
def purge_plan (open_channels : List ChannelEntry) : Contents → List ChannelId → List CallKind
  | _, [] => []
  | c, id :: ids =>
    if open_channels.any (·.id = id) then purge_plan open_channels c ids
    else (if c id = [] then .keep else .take) :: purge_plan open_channels (Function.update c id []) ids

/-- What is stored after the purge. -/
def purged (open_channels : List ChannelEntry) : Contents → List ChannelId → Contents
  | c, [] => c
  | c, id :: ids =>
    if open_channels.any (·.id = id) then purged open_channels c ids
    else purged open_channels (Function.update c id []) ids

def load_plan (log_enabled : Bool) (channel : ChannelEntry) (l : List RedeemableTicket) :
    List CallKind :=
  .keep :: (prune_plan channel l ++ .keep :: ((if log_enabled then [.keep] else []) ++ [.tolerated]))

def load_all_plan (log_enabled : Bool) : Contents → List ChannelEntry → List CallKind
  | _, [] => []
  | c, channel :: channels =>
    let l := c channel.id
    load_plan log_enabled channel l ++
      load_all_plan log_enabled (Function.update c channel.id (l.dropWhile (outdated channel))) channels

def sync_plan (log_enabled : Bool) (open_channels : List ChannelEntry) (c : Contents)
    (stored_queues : List ChannelId) : List CallKind :=
  .keep :: (purge_plan open_channels c stored_queues ++
    load_all_plan log_enabled (purged open_channels c stored_queues) open_channels)

/-! ### Stored tickets -/

section Stored
open Heap
variable {Q ε : Type} [TicketQueue Q ε]

/-- The tickets stored for each channel. -/
def contents (s : TicketStore Q) : Contents := fun id =>
  (s.tickets.lookup id).elim [] fun r => tickets (s.queues.cell r)

/-- Nothing is gone from `c`, or something is and nothing was added. -/
def Shrunk (c : Contents) (taken : Bool) (c' : Contents) : Prop :=
  if taken then (∀ id, (c' id).length ≤ (c id).length) ∧ ∃ id, (c' id).length < (c id).length
  else c' = c

theorem Shrunk.take {c c' : Contents} {taken : Bool} {id : ChannelId} {l l' : List RedeemableTicket}
    (h : Shrunk c taken c') (hid : c' id = l) (hl : l'.length < l.length) :
    Shrunk c true (Function.update c' id l') := by
  have hle : ∀ i, (c' i).length ≤ (c i).length := by
    cases taken with
    | true => exact h.1
    | false =>
      have h : c' = c := h
      exact fun i => h ▸ Nat.le_refl _
  have hlt : l'.length < (c id).length := Nat.lt_of_lt_of_le hl (hid ▸ hle id)
  refine ⟨fun i => ?_, id, ?_⟩
  · by_cases hi : i = id
    · subst hi
      rw [Function.update_self]
      exact Nat.le_of_lt hlt
    · rw [Function.update_of_ne hi]
      exact hle i
  · rw [Function.update_self]
    exact hlt

/-- The tickets are still there exactly if none was taken. -/
theorem Shrunk.kept_iff {c c' : Contents} {taken : Bool} (h : Shrunk c taken c') :
    (∀ id, (c id).Subperm (c' id)) ↔ taken = false := by
  cases taken with
  | false =>
    have h : c' = c := h
    exact ⟨fun _ => rfl, fun _ id => h ▸ List.Subperm.refl _⟩
  | true =>
    obtain ⟨_, id, hid⟩ := h
    constructor
    · intro hkept
      exact absurd (hkept id).length_le (Nat.not_le_of_lt hid)
    · intro hfalse
      cases hfalse

/-- What is taken from one channel's queue is gone. -/
theorem shrunk_update_take {c c' : Contents} {id : ChannelId} (b : Bool) (t : RedeemableTicket)
    (l : List RedeemableTicket) (h : Shrunk c b (Function.update c' id (t :: l))) :
    Shrunk c true (Function.update c' id l) := by
  have hlt : l.length < (t :: l).length := Nat.lt_succ_self _
  have htake := h.take (Function.update_self ..) hlt
  rwa [Function.update_idem] at htake

theorem contents_of_lookup {s : TicketStore Q} {id : ChannelId} {r : QueueRef}
    (hr : s.tickets.lookup id = some r) : contents s id = tickets (s.queues.cell r) := by
  simp only [contents, hr, Option.elim_some]

/-- A write to one stored queue. -/
theorem contents_set {s : TicketStore Q} {id : ChannelId} {r : QueueRef}
    (hs : Named s.queues s.tickets) (hr : s.tickets.lookup id = some r) (q : Q) :
    contents {s with queues := s.queues.set r q} = Function.update (contents s) id (tickets q) := by
  funext i
  unfold contents
  by_cases hi : i = id
  · subst hi
    rw [Function.update_self, hr, Option.elim_some, cell_set_self]
  · rw [Function.update_of_ne hi]
    cases hi' : s.tickets.lookup i with
    | none => rfl
    | some r' => simp only [Option.elim_some, cell_set_ne (hs.ne hi hr hi')]

/-- Every entry of the map leads to the stored queue of its channel. -/
structure WellFormed (s : HoprTicketManager Q) : Prop where
  stored : Named s.store.queues s.store.tickets
  named : Named s.entries s.channel_tickets
  attached : ∀ {id e}, s.channel_tickets.lookup id = some e →
    s.store.tickets.lookup id = some (s.handle e)

/-- A queue of the channel is in the store. -/
structure FoundIn (m : HoprTicketManager Q) (id : ChannelId) (r : QueueRef) (st : TicketStore Q) : Prop where
  wellFormed : WellFormed {m with store := st}
  found : st.tickets.lookup id = some r

/-- Opening a queue stores nothing. -/
theorem open_queue_run [CreatableQueue Q] {m : HoprTicketManager Q} (h : WellFormed m) (id : ChannelId) :
    ∃ r st, (TicketStore.open_or_create_queue (ε := ε) id).run m.store = .ok r st ∧
      contents st = contents m.store ∧ FoundIn m id r st := by
  rcases TicketStore.open_or_create_queue_cases (ε := ε) id m.store with ⟨r, hr, hrun⟩ | ⟨hr, hrun⟩
  · exact ⟨r, m.store, hrun, rfl, h, hr⟩
  · refine ⟨_, _, hrun, ?_, ⟨h.stored.alloc id _, h.named, fun {id' e} he => ?_⟩, AList.lookup_insert ..⟩
    · funext i
      unfold contents
      by_cases hi : i = id
      · subst hi
        simp only [AList.lookup_insert, hr, Option.elim_some, Option.elim_none, cell_alloc_self,
          CreatableQueue.tickets_empty]
      · simp only [AList.lookup_insert_ne hi]
        cases hi' : m.store.tickets.lookup i with
        | none => rfl
        | some r' => simp only [Option.elim_some, cell_alloc_lt _ (h.stored.allocated hi')]
    · have hold : m.store.tickets.lookup id' = some (m.handle e) := h.attached he
      have hne : id' ≠ id := by
        rintro rfl
        rw [hr] at hold
        cases hold
      exact (AList.lookup_insert_ne hne).trans hold

/-- What is stored, through the manager. -/
abbrev stored (s : FaultyManager Q) : Contents := contents s.manager.store

/-- A well-formed state in which the stored tickets went from `c` to what they are. -/
structure Since (c : Contents) (taken : Bool) (s : FaultyManager Q) : Prop where
  wellFormed : WellFormed s.manager
  shrunk : Shrunk c taken (stored s)

end Stored

/-! ### On the manager -/

section Manager
open Heap FaultyManager
variable {Q ε α : Type} {c : Contents} {taken : Bool} {plan : List CallKind} {s : FaultyManager Q}

/-- What the tickets of one channel may become while those of the others stay. -/
abbrev ShrunkAt (c c' : Contents) (id : ChannelId) (taken : Bool) (l : List RedeemableTicket) : Prop :=
  Shrunk c taken (Function.update c' id l)

theorem wellFormed_set {m : HoprTicketManager Q} (h : WellFormed m) (r : QueueRef) (q : Q) :
    WellFormed {m with store := {m.store with queues := m.store.queues.set r q}} :=
  ⟨h.stored.set _ _, h.named, h.attached⟩

theorem wellFormed_put {s : HoprTicketManager Q} (h : WellFormed s) (e : EntryRef)
    (v : QueueWithStats Q) : WellFormed (s.put e v) := by
  refine ⟨h.stored.set _ _, h.named.set _ _, fun he => ?_⟩
  rw [HoprTicketManager.handle_put]
  exact h.attached he

variable [TicketQueue Q ε]

theorem contents_put {s : HoprTicketManager Q} (h : WellFormed s) {id : ChannelId} {e : EntryRef}
    (he : s.channel_tickets.lookup id = some e) (v : QueueWithStats Q) :
    contents (s.put e v).store = Function.update (contents s.store) id (tickets v.queue.queue) :=
  contents_set h.stored (h.attached he) _

/-- A call under the lock of an entry is one on the channel's stored queue. -/
theorem fares_on_entry {id : ChannelId} {e : EntryRef}
    {m : EStateM (TicketManagerError (BackendError ε)) (QueueWithStats (Faulty Q)) α}
    (h : WellFormed s.manager) (he : s.manager.channel_tickets.lookup id = some e)
    {P : Bool → α → QueueWithStats (Faulty Q) → Prop}
    (hm : Fares (StoresIn (ShrunkAt c (stored s) id)) m plan taken (s.view e) P) :
    Fares (Since c) (on_entry e m) plan taken s fun _ _ s' => WellFormed s'.manager := by
  refine fares_lift (fun s => s.view e) (fun v => s.put e v) (fun err => err) (fun a _ => a)
    (fun a v hrun => ?_) (fun err v hrun => ?_) rfl (fun _ => rfl) hm (fun b v hv => ?_)
    (fun _ _ v _ => wellFormed_put h e _)
  · unfold on_entry
    simp only [EStateM.run] at hrun ⊢
    rw [hrun]
  · unfold on_entry
    simp only [EStateM.run] at hrun ⊢
    rw [hrun]
  · refine ⟨wellFormed_put h e _, ?_⟩
    show Shrunk c b (contents (s.manager.put e _).store)
    rw [contents_put h he]
    exact hv

theorem wellFormed_set_queue {s : FaultyManager Q} (h : WellFormed s.manager) (r : QueueRef)
    (q : Faulty Q) : WellFormed (s.set_queue r q).manager := wellFormed_set h r q.queue

/-- A call of the store that keeps the stored tickets. -/
theorem fares_store_keep {m : EStateM ε (TicketStore Q) α} {a : α} {st : TicketStore Q}
    (h : Since c taken s) (hm : m.run s.manager.store = .ok a st) :
    Fares (Since c) (on_store m) [.keep] taken s fun b r s' =>
      b = taken ∧ r = a ∧ s'.manager = {s.manager with store := st} := by
  refine fares_keep (fun hfault => ⟨_, _, on_store_fault hfault, h.wellFormed, h.shrunk⟩) ?_
  intro hok
  exact ⟨a, _, on_store_ok hok hm, rfl, rfl, rfl, rfl⟩

end Manager

/-! ### Synchronizations -/

section Synchronizations
open Heap FaultyManager
variable {Q ε α : Type} [TicketQueue Q ε] {c : Contents} {taken : Bool} {plan : List CallKind} {s : FaultyManager Q}

theorem fares_store_take {m : EStateM ε (TicketStore Q) α} {a : α} {st : TicketStore Q}
    (h : Since c taken s) (hm : m.run s.manager.store = .ok a st) :
    Fares (Since c) (on_store m) [.take] taken s fun b r s' =>
      b = true ∧ r = a ∧ s'.manager = {s.manager with store := st} := by
  refine fares_take (fun hfault => ⟨_, _, on_store_fault hfault, h.wellFormed, h.shrunk⟩) ?_
  intro hok
  exact ⟨a, _, on_store_ok hok hm, rfl, rfl, rfl, rfl⟩

/-- A deleted queue is gone from the store, and its tickets are returned. -/
theorem delete_queue_spec [TotalTicketQueue Q] {st : TicketStore Q} (h : Named st.queues st.tickets)
    (id : ChannelId) :
    ∃ st', (TicketStore.delete_queue id).run st = .ok ((contents st id).map (·.ticket)) st' ∧
      st'.tickets = st.tickets.erase id ∧ st'.queues.next = st.queues.next ∧
      contents st' = Function.update (contents st) id [] := by
  cases hr : st.tickets.lookup id with
  | none =>
    have hnil : contents st id = [] := by simp only [contents, hr, Option.elim_none]
    refine ⟨st, ?_, ?_, rfl, ?_⟩
    · simp only [TicketStore.delete_queue, EStateM.run, hr, hnil, List.map_nil]
    · exact (AList.ext (List.kerase_of_notMem_keys (AList.lookup_eq_none.mp hr))).symm
    · rw [Function.update_eq_self_iff.mpr hnil.symm]
  | some r =>
    have hrun : (TicketStore.delete_queue id).run st =
        (TicketStore.on_queue r drain).run {st with tickets := st.tickets.erase id} := by
      simp only [TicketStore.delete_queue, EStateM.run, hr]
    refine ⟨{tickets := st.tickets.erase id, queues := st.queues.set r (drained (st.queues.cell r))},
      ?_, rfl, rfl, ?_⟩
    · rw [hrun, contents_of_lookup hr]
      exact TicketStore.on_queue_run (drain_run _)
    · funext i
      by_cases hi : i = id
      · subst hi
        simp only [contents, AList.lookup_erase, Option.elim_none, Function.update_self]
      · simp only [contents, AList.lookup_erase_ne hi, Function.update_of_ne hi]
        cases hi' : st.tickets.lookup i with
        | none => rfl
        | some r' => simp only [Option.elim_some, cell_set_ne (h.ne hi hr hi')]

/-- With its queue the channel's entry is dropped. -/
theorem wellFormed_delete {m : HoprTicketManager Q} (h : WellFormed m) {id : ChannelId}
    {st : TicketStore Q} (htickets : st.tickets = m.store.tickets.erase id)
    (hnext : st.queues.next = m.store.queues.next) :
    WellFormed {m with store := st, channel_tickets := m.channel_tickets.erase id} := by
  refine ⟨⟨fun hr => ?_, fun hr hr' => ?_⟩, h.named.erase id, fun he => ?_⟩
  · rw [htickets] at hr
    rw [hnext]
    exact (h.stored.erase id).allocated hr
  · rw [htickets] at hr hr'
    exact (h.stored.erase id).distinct hr hr'
  · obtain ⟨hid, he⟩ := lookup_erase_cases he
    rw [htickets, AList.lookup_erase_ne hid]
    exact h.attached he

/-- The queue of a channel is open, and the stored tickets are `c'`. -/
structure Opened (c c' : Contents) (id : ChannelId) (r : QueueRef) (taken : Bool)
    (s : FaultyManager Q) : Prop where
  since : Since c taken s
  stored : stored s = c'
  found : s.manager.store.tickets.lookup id = some r

variable {c' : Contents} {id : ChannelId} {r : QueueRef}

theorem Opened.tickets (h : Opened c c' id r taken s) :
    TicketQueue.tickets (s.manager.store.queues.cell r) = c' id := by
  rw [← h.stored]
  exact (contents_of_lookup h.found).symm

theorem Opened.shrunk (h : Opened c c' id r taken s) : ShrunkAt c c' id taken (c' id) := by
  unfold ShrunkAt
  rw [Function.update_eq_self, ← h.stored]
  exact h.since.shrunk

/-- Calls on the queue lead to what they make of its tickets. -/
theorem Opened.set_queue {taken' : Bool} {q : Faulty Q} {l : List RedeemableTicket}
    (h : Opened c c' id r taken s) (hq : TicketQueue.tickets q = l) (hl : ShrunkAt c c' id taken' l) :
    Opened c (Function.update c' id l) id r taken' (s.set_queue r q) := by
  have hstored : FailedCalls.stored (s.set_queue r q) = Function.update c' id l := by
    rw [← h.stored, ← hq]
    exact contents_set h.since.wellFormed.stored h.found q.queue
  refine ⟨⟨wellFormed_set_queue h.since.wellFormed r q, ?_⟩, hstored, h.found⟩
  rw [hstored]
  exact hl

theorem Opened.read {q : Faulty Q} (h : Opened c c' id r taken s)
    (hq : TicketQueue.tickets q = c' id) : Opened c c' id r taken (s.set_queue r q) := by
  have hset := h.set_queue hq h.shrunk
  rwa [Function.update_eq_self] at hset

/-- Calls on the open queue go by the tickets it has. -/
theorem Opened.fares {m : EStateM (BackendError ε) (Faulty Q) α} {P : Bool → α → Faulty Q → Prop}
    {P' : Bool → α → FaultyManager Q → Prop} (h : Opened c c' id r taken s)
    (hm : ∀ q, TicketQueue.tickets q = c' id →
      Fares (Stores (ShrunkAt c c' id)) m plan taken q P)
    (hP : ∀ b a q, P b a q → P' b a (s.set_queue r q)) :
    Fares (Since c) (on_queue r m) plan taken s P' := by
  have hm := hm ⟨s.manager.store.queues.cell r, s.faults⟩ h.tickets
  exact fares_lift (fun s => ⟨s.manager.store.queues.cell r, s.faults⟩) (fun q => s.set_queue r q)
    TicketManagerError.StoreError (fun a _ => a) (fun a q => on_queue_ok) (fun err q => on_queue_error) rfl
    (fun _ => rfl) hm (fun b q hq => (h.set_queue rfl hq).since) hP

theorem Opened.fares_read {m : EStateM (BackendError ε) (Faulty Q) α}
    (P : List RedeemableTicket → α → Prop) (h : Opened c c' id r taken s)
    (hm : ∀ q, ShrunkAt c c' id taken (TicketQueue.tickets q) →
      Fares (Stores (ShrunkAt c c' id)) m [.keep] taken q
        fun b a p => b = taken ∧ P (TicketQueue.tickets q) a ∧
          TicketQueue.tickets p = TicketQueue.tickets q) :
    Fares (Since c) (on_queue r m) [.keep] taken s
      fun b a s' => b = taken ∧ P (c' id) a ∧ Opened c c' id r b s' := by
  have hread : ∀ q, TicketQueue.tickets q = c' id →
      Fares (Stores (ShrunkAt c c' id)) m [.keep] taken q
        fun b a p => b = taken ∧ P (c' id) a ∧ TicketQueue.tickets p = c' id := by
    intro q hq
    have hq' := hm q (hq ▸ h.shrunk)
    rwa [hq] at hq'
  apply h.fares hread
  rintro b a q ⟨rfl, ha, hq⟩
  exact ⟨rfl, ha, h.read hq⟩

theorem fares_open_queue [CreatableQueue Q] (h : Since c taken s) (id : ChannelId) :
    Fares (Since c) (on_store (TicketStore.open_or_create_queue id)) [.keep] taken s
      fun b r s' => Opened c (stored s) id r b s' := by
  obtain ⟨r, st, hrun, hst, hopen⟩ := open_queue_run h.wellFormed id
  refine fares_mono (fares_store_keep h hrun) ?_
  rintro b r s' ⟨rfl, rfl, hs'⟩
  have hstored : stored s' = stored s := by
    unfold stored
    rw [hs']
    exact hst
  have hfound : s'.manager.store.tickets.lookup id = some r := by
    rw [hs']
    exact hopen.found
  exact ⟨⟨hs' ▸ hopen.wellFormed, hstored ▸ h.shrunk⟩, hstored, hfound⟩

theorem wellFormed_place {s : HoprTicketManager Q} (h : WellFormed s) {id : ChannelId}
    {e : ChannelTicketQueue} (he : s.store.tickets.lookup id = some e.queue.queue) :
    WellFormed (s.place id e) := by
  refine ⟨h.stored, h.named.alloc id _, fun {id' e'} he' => ?_⟩
  unfold HoprTicketManager.handle
  rcases lookup_insert_cases he' with ⟨rfl, rfl⟩ | ⟨_, he'⟩
  · simp only [HoprTicketManager.place, cell_alloc_self]
    exact he
  · simp only [HoprTicketManager.place, cell_alloc_lt _ (h.named.allocated he')]
    exact h.attached he'

variable [InfallibleTicketQueue Q]

theorem fares_delete_queue (h : Since c taken s) (id : ChannelId) :
    Fares (Since c) (on_store (TicketStore.delete_queue id))
      [if stored s id = [] then .keep else .take] taken s fun b _ s' =>
        Since c b {s' with manager := {s'.manager with
          channel_tickets := s'.manager.channel_tickets.erase id}} ∧
        stored s' = Function.update (stored s) id [] := by
  obtain ⟨st, hrun, htickets, hnext, hcontents⟩ := delete_queue_spec h.wellFormed.stored id
  have hwell := wellFormed_delete h.wellFormed htickets hnext
  by_cases hid : stored s id = []
  · rw [if_pos hid]
    refine fares_mono (fares_store_keep h hrun) ?_
    rintro b r s' ⟨rfl, rfl, hs'⟩
    have hstored : stored s' = Function.update (stored s) id [] := by
      unfold stored
      rw [hs']
      exact hcontents
    refine ⟨⟨hs' ▸ hwell, ?_⟩, hstored⟩
    show Shrunk c b (stored s')
    rw [hstored, ← hid, Function.update_eq_self]
    exact h.shrunk
  · rw [if_neg hid]
    refine fares_mono (fares_store_take h hrun) ?_
    rintro b r s' ⟨rfl, rfl, hs'⟩
    have hstored : stored s' = Function.update (stored s) id [] := by
      unfold stored
      rw [hs']
      exact hcontents
    refine ⟨⟨hs' ▸ hwell, ?_⟩, hstored⟩
    show Shrunk c true (stored s')
    rw [hstored]
    exact h.shrunk.take rfl (List.length_pos_of_ne_nil hid)

theorem fares_purge (open_channels : List ChannelEntry) (ids : List ChannelId)
    (h : Since c taken s) :
    Fares (Since c) (purge open_channels ids) (purge_plan open_channels (stored s) ids) taken s
      fun b _ s' => Since c b s' ∧ stored s' = purged open_channels (stored s) ids := by
  induction ids generalizing s taken with
  | nil => exact fares_pure ⟨h, rfl⟩
  | cons id ids ih =>
    unfold purge purge_plan purged
    split
    · exact ih h
    · refine fares_bind (p := [_]) (fares_mono (fares_delete_queue h id) ?_)
      intro b neg s' ⟨h', hs'⟩
      refine fares_then (fares_modify rfl ?_)
      have hrest := ih h'
      simp only [stored] at hrest hs'
      rw [hs'] at hrest
      exact fares_return (fares_mono hrest fun _ _ _ hq => fares_pure hq)

/-- What is found of the entry's queue after it was counted, or could not be. -/
structure Entered (v : ValueCachedQueue QueueRef) (s : FaultyManager Q) (e : ChannelTicketQueue)
    (s' : FaultyManager Q) : Prop where
  queue : e.queue = v
  state : ∃ f, s' = s.set_queue v.queue ⟨s.manager.store.queues.cell v.queue, f⟩

/-- The entry is made whether or not the queue can be counted. -/
theorem fares_new_entry (v : ValueCachedQueue QueueRef) (s : FaultyManager Q) :
    Fares (Since c) (new_entry v) [.tolerated] taken s
      fun b e s' => b = taken ∧ Entered v s e s' := by
  refine fares_tolerated ?_
  unfold new_entry
  cases hfault : s.faults 0 with
  | true =>
    have hrun := on_queue_error (s := s) (r := v.queue) (Faulty.attempt_fault (m := len) hfault)
    refine ⟨⟨v, .empty, false⟩, _, ?_, rfl, rfl, rfl, s.faults.tail, rfl⟩
    simp only [EStateM.run, len] at hrun ⊢
    rw [hrun]
  | false =>
    have hlen := len_run (s.manager.store.queues.cell v.queue)
    have hrun := on_queue_ok (s := s) (r := v.queue) (Faulty.attempt_ok hfault hlen)
    let n := (tickets (s.manager.store.queues.cell v.queue)).length
    refine ⟨⟨v, {ChannelTicketStats.empty with winning_tickets := n}, false⟩, _, ?_, rfl, rfl, rfl,
      s.faults.tail, rfl⟩
    simp only [EStateM.run, len] at hrun ⊢
    rw [hrun]

/-- An entry is made for the open queue and put into the map. -/
theorem fares_enter {β : Type} (h : Opened c c' id r taken s) (v : ValueCachedQueue QueueRef)
    (hv : v.queue = r) (a : β) :
    Fares (Since c) (do let e ← new_entry v; on_manager (HoprTicketManager.place id e); return a)
      [.tolerated] taken s fun b _ s' => Since c b s' ∧ stored s' = c' := by
  subst hv
  refine fares_return (fares_mono (fares_new_entry v s) ?_)
  rintro b e s' ⟨rfl, rfl, f, rfl⟩
  have h' := h.read (q := ⟨_, f⟩) h.tickets
  refine fares_then (fares_modify rfl (fares_pure ⟨⟨?_, h'.since.shrunk⟩, h'.stored⟩))
  exact wellFormed_place h'.since.wellFormed h'.found

/-- A channel is loaded: its outdated tickets are taken, and what is left is counted. -/
theorem fares_load [CreatableQueue Q] (log_enabled : Bool) (channel : ChannelEntry)
    (h : Since c taken s) :
    Fares (Since c) (load log_enabled channel) (load_plan log_enabled channel (stored s channel.id))
      taken s fun b _ s' => Since c b s' ∧ stored s' = Function.update (stored s) channel.id
        ((stored s channel.id).dropWhile (outdated channel)) := by
  unfold load load_plan
  refine fares_bind (p := [.keep]) (fares_mono (fares_open_queue h channel.id) ?_)
  intro b r s₁ h₁
  refine fares_bind (h₁.fares (fun q hq =>
    hq ▸ fares_prune shrunk_update_take channel q (hq ▸ h₁.shrunk)) ?_)
  intro b neglected q ⟨hq, hR⟩
  have h₂ := h₁.set_queue hq (hq ▸ hR)
  refine fares_bind (p := [.keep]) (fares_mono (h₂.fares_read (fun _ v => v.queue = r) (fares_new r)) ?_)
  rintro b v s₃ ⟨rfl, hv, h₃⟩
  cases log_enabled with
  | false => exact fares_enter h₃ v hv neglected
  | true =>
    refine fares_bind (p := [.keep]) (fares_return (fares_mono (h₃.fares_read (fun l n => n = l.length) fares_len) ?_))
    rintro b n s₄ ⟨rfl, _, h₄⟩
    exact fares_pure (fares_enter h₄ v hv neglected)

theorem fares_load_all [CreatableQueue Q] (log_enabled : Bool) (channels : List ChannelEntry)
    (h : Since c taken s) :
    Fares (Since c) (load_all log_enabled channels) (load_all_plan log_enabled (stored s) channels)
      taken s fun b _ s' => Since c b s' := by
  induction channels generalizing s taken with
  | nil => exact fares_pure h
  | cons channel channels ih =>
    unfold load_all load_all_plan
    refine fares_bind (fares_mono (fares_load log_enabled channel h) ?_)
    intro b neglected s' ⟨h', hs'⟩
    have hrest := ih h'
    simp only [stored] at hrest hs'
    rw [hs'] at hrest
    exact fares_return (fares_mono hrest fun _ _ _ hq => fares_pure hq)

theorem fares_sync [CreatableQueue Q] [ChannelClock] (log_enabled : Bool)
    (incoming_channels : List ChannelEntry) (now : Nat) (h : Since c taken s) :
    Fares (Since c) (sync_from_incoming_channels log_enabled incoming_channels now)
      (sync_plan log_enabled (open_channels incoming_channels now) (stored s)
        s.manager.store.tickets.keys) taken s fun b _ s' => Since c b s' := by
  unfold sync_from_incoming_channels sync_plan
  refine fares_bind (p := [.keep]) (fares_mono (fares_store_keep (m := TicketStore.iter_queues) h rfl) ?_)
  rintro b ids s₁ ⟨rfl, rfl, hs₁⟩
  have hs₁ : s₁.manager = s.manager := hs₁
  have h₁ : Since c b s₁ := ⟨hs₁ ▸ h.wellFormed, by unfold stored; rw [hs₁]; exact h.shrunk⟩
  have hpurge := fares_purge (open_channels incoming_channels now) s.manager.store.tickets.keys h₁
  simp only [stored, hs₁] at hpurge
  refine fares_bind (fares_mono hpurge ?_)
  intro b neglected s₂ ⟨h₂, hs₂⟩
  have hload := fares_load_all log_enabled (open_channels incoming_channels now) h₂
  simp only [stored] at hload
  rw [hs₂] at hload
  exact fares_return (fares_mono hload fun _ _ _ hq => fares_pure hq)

end Synchronizations

/-! ### First tickets -/

section FirstTickets
open Heap FaultyManager
variable {Q ε : Type} [TicketQueue Q ε] [InfallibleTicketQueue Q] {c : Contents} {taken : Bool} {s : FaultyManager Q}
  {c' : Contents} {id : ChannelId} {r : QueueRef}

theorem Opened.fares_push (h : Opened c c' id r taken s) (ticket : RedeemableTicket)
    (v : ValueCachedQueue QueueRef) (hv : v.queue = r) :
    Fares (Since c) (on_cached v (push ticket)) [.keep] taken s fun _ p s' =>
      p.2.queue = r ∧ WellFormed s'.manager ∧ s'.manager.store.tickets.lookup id = some r := by
  subst hv
  have hR : ShrunkAt c c' id taken (TicketQueue.tickets (s.manager.store.queues.cell v.queue)) :=
    h.tickets ▸ h.shrunk
  have hpush := fares_cached_push (R := ShrunkAt c c' id) ticket
    (v.with_queue ⟨s.manager.store.queues.cell v.queue, s.faults⟩) hR
  exact fares_lift (fun s => v.with_queue ⟨s.manager.store.queues.cell v.queue, s.faults⟩)
    (fun w => s.set_queue v.queue w.queue) TicketManagerError.StoreError
    (fun a w => (a, w.with_queue v.queue)) (fun a w => on_cached_ok) (fun e w => on_cached_error) rfl
    (fun _ => rfl) hpush (fun b w hw => (h.set_queue rfl hw).since)
    (fun b a w _ => ⟨rfl, wellFormed_set_queue h.since.wellFormed _ _, h.found⟩)

/-- The first ticket of a channel is pushed, counted and entered. -/
theorem fares_push_first (h : Opened c c' id r taken s) (ticket : RedeemableTicket)
    (v : ValueCachedQueue QueueRef) (hv : v.queue = r) :
    Fares (Since c)
      (do
        let p ← on_cached v (push ticket)
        let e ← new_entry p.2
        on_manager (HoprTicketManager.place id e)
        return ([] : List VerifiedTicket))
      [.keep, .tolerated] taken s fun _ _ s' => WellFormed s'.manager := by
  refine fares_bind (p := [.keep]) (fares_mono (h.fares_push ticket v hv) ?_)
  intro b p s' ⟨hp, hs', hfound⟩
  refine fares_return (fares_mono (fares_new_entry p.2 s') ?_)
  rintro b e s'' ⟨rfl, he, f, rfl⟩
  refine fares_then (fares_modify rfl (fares_pure ?_))
  refine wellFormed_place (wellFormed_set_queue hs' _ _) ?_
  rw [he, hp]
  exact hfound

/-- The first ticket of a channel takes nothing away. -/
theorem fares_first [CreatableQueue Q] (ticket : RedeemableTicket) (h : Since c taken s) :
    Fares (Since c)
      (do
        let e ← first_entry ticket
        on_manager (HoprTicketManager.place ticket.ticket.channel_id e)
        return ([] : List VerifiedTicket))
      (first_plan (stored s ticket.ticket.channel_id)) taken s
      fun _ _ s' => WellFormed s'.manager := by
  unfold first_entry first_plan
  simp only [bind_assoc]
  generalize hplan : (if stored s ticket.ticket.channel_id = [] then [CallKind.keep, .tolerated]
    else [.reject]) = plan
  refine fares_bind (p := [.keep]) (fares_mono (fares_open_queue h ticket.ticket.channel_id) ?_)
  intro b r s₁ h₁
  refine fares_bind (p := [.keep])
    (fares_mono (h₁.fares_read (fun _ v => v.queue = r) (fares_new r)) ?_)
  rintro b v s₂ ⟨rfl, hv, h₂⟩
  have hempty : Fares (Since c) (on_queue r is_empty) [.keep] b s₂ fun b' e s' => b' = b ∧
      e = ((stored s ticket.ticket.channel_id).length == 0) ∧
      Opened c (stored s) ticket.ticket.channel_id r b' s' := by
    refine h₂.fares_read (fun l e => e = (l.length == 0)) fun q hR => ?_
    refine fares_return (fares_mono (fares_len q hR) ?_)
    rintro b' n p ⟨rfl, rfl, hp⟩
    exact fares_pure ⟨rfl, rfl, hp⟩
  refine fares_bind (p := [.keep]) (fares_mono hempty ?_)
  rintro b e s₃ ⟨rfl, rfl, h₃⟩
  cases hl : stored s ticket.ticket.channel_id with
  | nil =>
    rw [← hplan, hl]
    simp only [List.length_nil, beq_self_eq_true, Bool.not_true, Bool.false_eq_true, if_false,
      if_true, bind_assoc]
    exact fares_push_first h₃ ticket v hv
  | cons t rest =>
    rw [← hplan, hl]
    exact fares_bind (p := [.reject]) (fares_bind (p := [.reject]) (fares_throw h₃.since))

end FirstTickets

/-! ### Calls of the manager -/

/-- A call of the manager, with nobody else calling it. -/
inductive Operation where
  | insert_incoming_ticket (ticket : RedeemableTicket)
  | neglect_tickets (channel_id : ChannelId) (up_to_index : Option UInt64)
  | sync_from_incoming_channels (log_enabled : Bool) (incoming_channels : List ChannelEntry) (now : Nat)

section Calls
open Heap FaultyManager
variable {Q ε : Type} [TicketQueue Q ε] {c : Contents} {taken : Bool} {s : FaultyManager Q}

/-- The tickets of an attached entry are the stored ones. -/
theorem tickets_view {id : ChannelId} {e : EntryRef} (h : WellFormed s.manager)
    (he : s.manager.channel_tickets.lookup id = some e) : tickets (s.view e).queue = stored s id :=
  (contents_of_lookup (h.attached he)).symm

theorem shrunk_view {id : ChannelId} {e : EntryRef} (h : Since c taken s)
    (he : s.manager.channel_tickets.lookup id = some e) :
    ShrunkAt c (stored s) id taken (tickets (s.view e).queue) := by
  unfold ShrunkAt
  rw [tickets_view h.wellFormed he, Function.update_eq_self]
  exact h.shrunk

theorem since_start {s : FaultyManager Q} (h : WellFormed s.manager) : Since (stored s) false s :=
  ⟨h, rfl⟩

variable [CreatableQueue Q] [TicketBuilder] [ChannelClock]

def call : Operation →
    EStateM (TicketManagerError (BackendError ε)) (FaultyManager Q) (List VerifiedTicket)
  | .insert_incoming_ticket ticket => insert_incoming_ticket ticket
  | .neglect_tickets channel_id up_to_index => neglect_tickets channel_id up_to_index
  | .sync_from_incoming_channels log_enabled incoming_channels now =>
    sync_from_incoming_channels log_enabled incoming_channels now

/-- The calls an operation makes of the backend while none fails. -/
def plan (s : HoprTicketManager Q) : Operation → List CallKind
  | .insert_incoming_ticket ticket =>
    match s.channel_tickets.lookup ticket.ticket.channel_id with
    | some _ => insert_plan ticket (contents s.store ticket.ticket.channel_id)
    | none => first_plan (contents s.store ticket.ticket.channel_id)
  | .neglect_tickets channel_id up_to_index =>
    match s.channel_tickets.lookup channel_id with
    | some _ => neglect_plan (up_to_index.getD TicketBuilder.MAX_TICKET_INDEX) (contents s.store channel_id)
    | none => [.reject]
  | .sync_from_incoming_channels log_enabled incoming_channels now =>
    sync_plan log_enabled (open_channels incoming_channels now) (contents s.store) s.store.tickets.keys

variable [InfallibleTicketQueue Q]

/-- Every operation ends where its plan does. -/
theorem fares_call (op : Operation) (h : Since c taken s) :
    Fares (Since c) (call op) (plan s.manager op) taken s fun _ _ s' => WellFormed s'.manager := by
  cases op with
  | insert_incoming_ticket ticket =>
    simp only [call, plan, insert_incoming_ticket]
    refine fares_then (fares_get ?_)
    cases he : s.manager.channel_tickets.lookup ticket.ticket.channel_id with
    | some e =>
      have hinsert := fares_insert_occupied shrunk_update_take ticket (s.view e) (shrunk_view h he)
      rw [tickets_view h.wellFormed he] at hinsert
      exact fares_on_entry h.wellFormed he hinsert
    | none => exact fares_first ticket h
  | neglect_tickets channel_id up_to_index =>
    simp only [call, plan, neglect_tickets]
    refine fares_then (fares_get ?_)
    cases he : s.manager.channel_tickets.lookup channel_id with
    | some e =>
      have hneglect := fares_neglect_tickets shrunk_update_take up_to_index (s.view e) (shrunk_view h he)
      rw [tickets_view h.wellFormed he] at hneglect
      exact fares_on_entry h.wellFormed he hneglect
    | none => exact fares_throw h
  | sync_from_incoming_channels log_enabled incoming_channels now =>
    exact fares_mono (fares_sync log_enabled incoming_channels now h) fun _ _ _ h' => h'.wellFormed

/-- The manager after calls whose backend had the given faults. -/
def run : HoprTicketManager Q → List (Operation × Faults) → HoprTicketManager Q
  | s, [] => s
  | s, (op, faults) :: calls => run (after (call op) ⟨s, faults⟩).manager calls

/-- A call keeps the entries attached to the store, whether or not it fails. -/
theorem wellFormed_call (op : Operation) {s : FaultyManager Q} (h : WellFormed s.manager) :
    WellFormed (after (call op) s).manager := by
  have hfares := fares_call op (since_start h)
  cases hfate : fate (plan s.manager op) false (Faultable.faults s) with
  | failed taken =>
    obtain ⟨e, s', hrun, hs'⟩ := hfares.failed hfate
    rw [after_error hrun]
    exact hs'.wellFormed
  | done taken f =>
    obtain ⟨a, s', hrun, _, hs'⟩ := hfares.done hfate
    rw [after_ok hrun]
    exact hs'

/-- In every run from a manager on a store, however many calls fail. -/
theorem wellFormed_run (store : TicketStore Q) (h : Named store.queues store.tickets)
    (calls : List (Operation × Faults)) :
    WellFormed (run (HoprTicketManager.new store) calls) := by
  have hkeep : ∀ calls (s : HoprTicketManager Q), WellFormed s → WellFormed (run s calls) := by
    intro calls
    induction calls with
    | nil => exact fun s hs => hs
    | cons call calls ih => exact fun s hs => ih _ (wellFormed_call call.1 (s := ⟨s, call.2⟩) hs)
  exact hkeep calls _ ⟨h, named_empty _, fun he => (nomatch he)⟩

/-- **A failed call has kept every stored ticket exactly if the first backend call that failed was
not preceded by one that takes a ticket.** -/
theorem tickets_kept_iff (op : Operation) (s : FaultyManager Q) (h : WellFormed s.manager) :
    (∀ e s', (call op).run s = .error e s' →
      ∀ id, (contents s.manager.store id).Subperm (contents s'.manager.store id)) ↔
    (fate (plan s.manager op) false s.faults).lossy = false := by
  have hfares := fares_call op (since_start h)
  cases hfate : fate (plan s.manager op) false s.faults with
  | failed taken =>
    obtain ⟨e, s', hrun, hs'⟩ := hfares.failed hfate
    show _ ↔ taken = false
    rw [← hs'.shrunk.kept_iff]
    constructor
    · exact fun hkept => hkept e s' hrun
    · intro hkept e' s'' hrun'
      rw [hrun] at hrun'
      cases hrun'
      exact hkept
  | done taken f =>
    obtain ⟨a, s', hrun, _, _⟩ := hfares.done hfate
    refine ⟨fun _ => rfl, fun _ e' s'' hrun' => ?_⟩
    rw [hrun] at hrun'
    cases hrun'

end Calls

section Memory

local instance : TicketBuilder := .bits48
local instance : ChannelClock := .by_status

/-- A manager with two tickets of one channel. -/
def two_tickets : HoprTicketManager MemoryTicketQueue :=
  run (.new .empty) [(.insert_incoming_ticket (.of 1 1 3 10), fun _ => false),
    (.insert_incoming_ticket (.of 1 1 4 10), fun _ => false)]

/-- The ticket of a new epoch comes, and the first pop fails. -/
theorem tickets_kept_first_pop : ∃ e s',
    (call (.insert_incoming_ticket (.of 1 2 0 10))).run ⟨two_tickets, (· = 1)⟩ = .error e s' ∧
      ∀ id, (contents two_tickets.store id).Subperm (contents s'.manager.store id) := by
  have hkept := (tickets_kept_iff (.insert_incoming_ticket (.of 1 2 0 10)) ⟨two_tickets, (· = 1)⟩
    (wellFormed_run .empty (Heap.named_empty _) _)).mpr (by decide +kernel)
  exact ⟨_, _, rfl, hkept _ _ rfl⟩

/-- **A ticket is popped, the next call fails, and the ticket is gone**: nobody is told of it. -/
theorem popped_lost : ∃ e s',
    (call (.insert_incoming_ticket (.of 1 2 0 10))).run ⟨two_tickets, (· = 2)⟩ = .error e s' ∧
      contents two_tickets.store ⟨[1]⟩ = [.of 1 1 3 10, .of 1 1 4 10] ∧
      contents s'.manager.store ⟨[1]⟩ = [.of 1 1 4 10] :=
  ⟨_, _, rfl, by decide +kernel, by decide +kernel⟩

end Memory

end Hopr.TicketManager.FailedCalls
