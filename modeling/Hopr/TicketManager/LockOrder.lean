import Hopr.TicketManager.MapLocks

/-! When the manager's calls block each other.

An insertion that finds no entry keeps the lock of its shard while it waits for
the store; a synchronization keeps the store while it waits for the shards of
the channels it is not through with. `Orderly` rules out that either takes its
first lock while the other is in the way. Then no reachable state is deadlocked
(`no_deadlock`); without it two calls can be (`insert_sync_deadlock`). -/
namespace Hopr.TicketManager.LockOrder
open Library MapLocks LockState
open Call hiding held wanted
open Locking (held wanted)

/-- The channels whose entries a synchronization that holds the store has yet to change. -/
def ahead : Call → List Work
  | sync_listing todo => todo
  | sync_read todo => todo
  | sync_write work todo => work :: todo
  | sync_pruning id todo => .load id :: todo
  | sync_opened id todo => .load id :: todo
  | sync_stored work todo => work :: todo
  | sync_mapped _ todo => todo
  | _ => []

/-- The channel of an insertion that holds its shard and has yet to take the store. -/
def vacant : Call → Option ChannelId
  | insert_vacant id => some id
  | _ => none

/-- The channel of an insertion that is to look at its entry. -/
def inserting : Call → Option ChannelId
  | insert_incoming_ticket id => some id
  | _ => none

/-- The open channels of a synchronization that is to take the store. -/
def syncing : Call → Option (List ChannelId)
  | sync_from_incoming_channels open_channels => some open_channels
  | _ => none

section Order
variable [DashMap]

/-- Nothing is to be done on the channel's shard, nor on the one before it, whose guard an iterator
keeps until it has that of the channel's shard. -/
def Clear (id : ChannelId) (todo : List Work) : Prop :=
  ∀ w ∈ todo, DashMap.shard w.id ≠ DashMap.shard id ∧ DashMap.shard w.id + 1 ≠ DashMap.shard id

/-- An insertion finds its channel vacant only while no synchronization is in its way, and a
synchronization takes the store only while it is in no insertion's way. -/
def Orderly (s : LockState) : Action → Prop
  | .start _ => True
  | .tick i _ => ∀ c ∈ s.calls[i]?,
    (∀ id ∈ inserting c, id ∈ s.channel_tickets ∨ ∀ u ∈ s.calls, Clear id (ahead u)) ∧
    ∀ open_channels ∈ syncing c, ∀ u ∈ s.calls, ∀ id ∈ vacant u,
      Clear id (work s.stored_queues open_channels)

structure Ordered (s : LockState) : Prop where
  compatible : Compatible s.calls
  clear : ∀ c ∈ s.calls, ∀ u ∈ s.calls, ∀ id ∈ vacant c, Clear id (ahead u)

end Order

/-! ### Steps -/

section Steps

theorem ahead_of_vacant {c : Call} {id : ChannelId} (h : vacant c = some id) : ahead c = [] := by
  cases c <;> first | rfl | cases h

variable [DashMap]

/-- A call holds what it held before, in a mode that excludes no more, and the lock it wanted. -/
theorem advance_held {s s' : LockState} {ok : Bool} {c c' : Call}
    (h : s.advance ok c = some (c', s')) :
    ∀ w ∈ held c', (∃ m, (w.1, m) ∈ held c ∧ w.2.weaker m = true) ∨ wanted c = some w := by
  unfold advance at h
  split at h <;> (try split at h) <;> cases h <;>
    simp [held, wanted, Call.held, Call.wanted, Mode.weaker]
  assumption

/-- Work comes ahead of a synchronization when it takes the store. -/
theorem advance_ahead {s s' : LockState} {ok : Bool} {c c' : Call}
    (h : s.advance ok c = some (c', s')) : (∀ w ∈ ahead c', w ∈ ahead c) ∨
      ∃ open_channels, c = sync_from_incoming_channels open_channels ∧
        c' = sync_listing (work s.stored_queues open_channels) := by
  unfold advance at h
  split at h <;> (try split at h) <;> cases h <;> simp [ahead]
  all_goals exact fun w hw => Or.inr hw

/-- A channel is found vacant by its insertion. -/
theorem advance_vacant {s s' : LockState} {ok : Bool} {c c' : Call}
    (h : s.advance ok c = some (c', s')) {id : ChannelId} (hid : vacant c' = some id) :
    c = insert_incoming_ticket id ∧ id ∉ s.channel_tickets := by
  unfold advance at h
  split at h <;> (try split at h) <;> cases h <;> simp [vacant] at hid ⊢
  subst hid
  exact ⟨rfl, ‹_›⟩

/-- A step of a call, which has the lock it wanted. -/
theorem step_tick {s s' : LockState} {i : Nat} {ok : Bool} (h : step s (.tick i ok) = some s') :
    ∃ c c' t, s.calls[i]? = some c ∧ waiting s.calls i c = false ∧ s.advance ok c = some (c', t) ∧
      s'.calls = s.calls.set i c' := by
  simp only [step, Option.bind_eq_bind, Option.bind_eq_some_iff] at h
  obtain ⟨c, hc, h⟩ := h
  split at h
  · cases h
  · rename_i hwaiting
    simp only [Option.pure_def, Option.bind_eq_some_iff, Option.some.injEq] at h
    obtain ⟨⟨c', t⟩, hadvance, rfl⟩ := h
    exact ⟨c, c', t, hc, by simpa using hwaiting, hadvance, rfl⟩

/-- An orderly step keeps insertions and synchronizations out of each other's way. -/
theorem ordered_step {s s' : LockState} {a : Action} (ha : Orderly s a) (h : Ordered s)
    (hs : machine.step s a = some s') : Ordered s' := by
  cases a with
  | start request =>
    cases hs
    have hidle : held request.call = [] ∧ ahead request.call = [] ∧ vacant request.call = none := by
      cases request <;> exact ⟨rfl, rfl, rfl⟩
    refine ⟨h.compatible.concat hidle.1, fun c hc u hu id hid w hw => ?_⟩
    rw [List.mem_append, List.mem_singleton] at hc hu
    cases hc with
    | inr hc =>
      rw [hc, hidle.2.2] at hid
      cases hid
    | inl hc =>
      cases hu with
      | inr hu =>
        rw [hu, hidle.2.1] at hw
        cases hw
      | inl hu => exact h.clear c hc u hu id hid w hw
  | tick i ok =>
    obtain ⟨c, c', t, hc, hwaiting, hadvance, hcalls⟩ := step_tick hs
    have hmem := List.mem_of_getElem? hc
    have ha := ha c hc
    have hvacant : ∀ id ∈ vacant c', ∀ u ∈ s.calls, Clear id (ahead u) := by
      intro id hid
      obtain ⟨rfl, hnone⟩ := advance_vacant hadvance hid
      exact (ha.1 id rfl).resolve_left hnone
    have hahead : ∀ u ∈ s.calls, ∀ id ∈ vacant u, Clear id (ahead c') := by
      intro u hu id hid
      cases advance_ahead hadvance with
      | inl hsub => exact fun w hw => h.clear u hu c hmem id hid w (hsub w hw)
      | inr hstart =>
        obtain ⟨open_channels, rfl, rfl⟩ := hstart
        exact ha.2 open_channels rfl u hu id hid
    refine ⟨?_, fun d hd u hu id hid => ?_⟩
    · rw [hcalls]
      refine h.compatible.set hc fun w hw => ?_
      cases advance_held hadvance w hw with
      | inl hold => exact Or.inl hold
      | inr hwanted => exact Or.inr (free_of_not_waiting hwaiting hwanted)
    · rw [hcalls] at hd hu
      cases List.mem_or_eq_of_mem_set hd with
      | inl hd =>
        cases List.mem_or_eq_of_mem_set hu with
        | inl hu => exact h.clear d hd u hu id hid
        | inr hu => exact hu ▸ hahead d hd id hid
      | inr hd =>
        subst hd
        cases List.mem_or_eq_of_mem_set hu with
        | inl hu => exact hvacant id hid u hu
        | inr hu =>
          rw [hu, ahead_of_vacant hid]
          exact fun w hw => (nomatch hw)

end Steps

/-! ### Ranks -/

section Ranks
variable [DashMap]

/-- The shard a synchronization is about to take. -/
def changing : Call → Option Nat
  | sync_stored work _ => some (DashMap.shard work.id)
  | _ => none

/-- Calls that hold nothing wait for those that hold something, and of these an iterator waits for
an insertion, the insertion for a synchronization, and the synchronization for an iterator in the
shard it is about to take. All others need not wait. -/
def rank (s : LockState) : Call → Nat
  | insert_incoming_ticket _ => 0
  | sync_from_incoming_channels _ => 0
  | neglect_tickets _ => 0
  | redeem_stream _ => 0
  | ticket_stats => 0
  | stats_through i => if s.calls.any fun u => changing u = some i then 4 else 1
  | insert_vacant _ => 2
  | sync_stored _ _ => 3
  | _ => 5

variable {s : LockState} {u : Call} {m : Mode}

theorem rank_pos {l : Lock} (h : (l, m) ∈ held u) : 0 < rank s u := by
  cases u <;> simp [held, Call.held] at h <;> simp only [rank] <;> try split
  all_goals decide

theorem rank_store (h : (Lock.store, m) ∈ held u) : 2 < rank s u := by
  cases u <;> simp [held, Call.held] at h <;> simp only [rank]
  all_goals decide

theorem rank_shard {k : Nat} (h : (Lock.shard k, m) ∈ held u) : rank s u = 5 ∨
    (u = stats_through k ∧ m = .read) ∨ ∃ id, u = insert_vacant id ∧ DashMap.shard id = k := by
  cases u <;> simp [held, Call.held] at h <;> simp [rank, h]

/-- The iterator in the shard a synchronization is about to take is not blocked by an insertion. -/
theorem rank_through {i : Nat} {id : ChannelId} (h : Ordered s) (hid : insert_vacant id ∈ s.calls)
    (hi : DashMap.shard id = i + 1) : rank s (stats_through i) = 1 := by
  have hnone : s.calls.any (fun u => changing u = some i) = false := by
    rw [List.any_eq_false]
    intro u hu hchanging
    cases u <;> simp [changing] at hchanging
    rename_i work todo
    have hclear := h.clear _ hid _ hu id rfl work (List.mem_cons_self ..)
    exact hclear.2 (by rw [hchanging, hi])
  simp only [rank, hnone, Bool.false_eq_true, if_false]

/-- Whoever is waited for has a higher rank. -/
theorem rank_climbs (h : Ordered s) (i j : Nat) (t u : Call) (w : Lock × Mode) (hij : i ≠ j)
    (ht : s.calls[i]? = some t) (hu : s.calls[j]? = some u) (hw : wanted t = some w)
    (hc : conflicts w u = true) : rank s t < rank s u := by
  obtain ⟨m, hm, he⟩ := conflicts_iff.mp hc
  have htmem := List.mem_of_getElem? ht
  have humem := List.mem_of_getElem? hu
  cases t with
  | insert_incoming_ticket id => exact rank_pos hm
  | sync_from_incoming_channels open_channels => exact rank_pos hm
  | neglect_tickets id => exact rank_pos hm
  | redeem_stream id => exact rank_pos hm
  | ticket_stats => exact rank_pos hm
  | insert_vacant id =>
    cases hw
    exact rank_store hm
  | sync_read todo =>
    -- nobody else holds the store while it is held with a right to upgrade
    cases todo with
    | nil => cases hw
    | cons work todo =>
      cases hw
      have hcompat := h.compatible i j _ u hij ht hu (.store, .upgradable) (List.mem_singleton_self _)
        (.store, m) hm rfl
      cases m with
      | read => cases u <;> simp [held, Call.held] at hm
      | upgradable => cases hcompat
      | write => cases hcompat
  | sync_stored work todo =>
    cases hw
    rcases rank_shard hm with hfive | ⟨rfl, _⟩ | ⟨id, rfl, hid⟩
    · rw [hfive]
      exact (by decide : 3 < 5)
    · have hany : s.calls.any (fun u => changing u = some (DashMap.shard work.id)) = true :=
        List.any_eq_true.mpr ⟨_, htmem, decide_eq_true rfl⟩
      simp only [rank, hany, if_true]
      decide
    · exact absurd hid.symm (h.clear _ humem _ htmem id rfl work (List.mem_cons_self ..)).1
  | stats_through k =>
    have hlow : rank s (stats_through k) < 5 := by
      simp only [rank]
      split <;> decide
    obtain rfl : (Lock.shard (k + 1), Mode.read) = w := by
      simp only [wanted, Call.wanted] at hw
      split at hw <;> cases hw
      rfl
    rcases rank_shard hm with hfive | ⟨rfl, rfl⟩ | ⟨id, rfl, hid⟩
    · exact hfive ▸ hlow
    · cases he
    · rw [rank_through h humem hid]
      exact Nat.lt_succ_self 1
  | _ => cases hw

end Ranks

/-! ### Runs -/

section Runs
variable [DashMap] {s : LockState}

theorem ordered_start (stored_queues channel_tickets : List ChannelId) :
    Ordered ⟨[], stored_queues, channel_tickets⟩ :=
  ⟨fun _ _ _ _ _ ht => (nomatch ht), fun _ hc => (nomatch hc)⟩

/-- **Calls that keep out of each other's way are never deadlocked**, whatever is stored, however
many there are and in whatever order they take and release the locks. -/
theorem no_deadlock {stored_queues channel_tickets : List ChannelId} {as : List Action}
    (has : machine.Meets Orderly ⟨[], stored_queues, channel_tickets⟩ as) {s : LockState}
    (hrun : machine.run ⟨[], stored_queues, channel_tickets⟩ as = some s) : ¬ Deadlocked s.calls := by
  have hordered : Ordered s := machine.run_invariant (fun _ _ _ => ordered_step) has hrun
    (ordered_start stored_queues channel_tickets)
  refine not_deadlocked_of_rank (rank s) (fun c hc => ?_) (rank_climbs hordered)
  obtain rfl : c = done := of_decide_eq_true hc
  rfl

instance Orderly.decidable (s : LockState) : (a : Action) → Decidable (Orderly s a)
  | .start _ => isTrue trivial
  | .tick i _ => inferInstanceAs (Decidable (∀ c ∈ s.calls[i]?,
      (∀ id ∈ inserting c, id ∈ s.channel_tickets ∨ ∀ u ∈ s.calls, ∀ w ∈ ahead u,
        DashMap.shard w.id ≠ DashMap.shard id ∧ DashMap.shard w.id + 1 ≠ DashMap.shard id) ∧
      ∀ open_channels ∈ syncing c, ∀ u ∈ s.calls, ∀ id ∈ vacant u,
        ∀ w ∈ work s.stored_queues open_channels,
          DashMap.shard w.id ≠ DashMap.shard id ∧ DashMap.shard w.id + 1 ≠ DashMap.shard id))

end Runs

section Concrete

/-- Four shards; a channel is on the one of its first byte. -/
local instance four_shards : DashMap := ⟨4, fun id => Fin.ofNat 4 (id.bytes.headD 0).toNat⟩

/-- The first ticket of one channel comes while another one is synchronized, and statistics are
made. -/
theorem no_deadlock_apart :
    let as : List Action := [.start (.sync_from_incoming_channels [⟨[1]⟩]),
      .start (.insert_incoming_ticket ⟨[3]⟩), .start .ticket_stats, .tick 0 true, .tick 1 true,
      .tick 0 true, .tick 2 true, .tick 2 true, .tick 0 true, .tick 2 true]
    ∃ s, machine.run ⟨[], [], []⟩ as = some s ∧ ¬ Deadlocked s.calls := by
  intro as
  have horderly : machine.Meets Orderly ⟨[], [], []⟩ as := by decide +kernel
  obtain ⟨s, hrun, _⟩ : ∃ s, machine.run ⟨[], [], []⟩ as = some s ∧ s.calls.length = 3 :=
    machine.exists_run (by decide +kernel)
  exact ⟨s, hrun, no_deadlock horderly hrun⟩

/-- **The first ticket of a channel comes while the channel is synchronized**: the insertion has
the channel's shard and waits for the store, the synchronization has the store and waits for the
shard. -/
theorem insert_sync_deadlock :
    ∃ s, machine.run ⟨[], [], []⟩ [.start (.sync_from_incoming_channels [⟨[1]⟩]),
        .start (.insert_incoming_ticket ⟨[1]⟩), .tick 0 true, .tick 1 true, .tick 0 true, .tick 0 true,
        .tick 0 true, .tick 0 true, .tick 0 true] = some s ∧ Deadlocked s.calls :=
  machine.exists_run (by decide +kernel)

end Concrete

end Hopr.TicketManager.LockOrder
