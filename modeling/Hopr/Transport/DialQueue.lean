import Mathlib.Data.Finset.Insert
import Hopr.Transport.Swarm

/-! The queue of dials.

`Scheduled` says what the collections of the behaviour owe each other: heap and
set of scheduled dials hold the same peers, each once; a scheduled peer has a
back-off and an address; nobody both has a back-off and is connected; and a dial
that is pending has the addresses that are stored. Every event and every poll
preserve it (`Scheduled.on_swarm_event`, `Scheduled.poll`). -/
namespace Hopr.Transport.DialQueue
open Library Discovery Behaviour Swarm

section Scheduled
variable {Multiaddr B : Type} {s : Behaviour Multiaddr B}

theorem mem_cancelled {p q : PeerId} : q ∈ (cancel_dial p s).next_dial_attempts.map (·.item) ↔
    q ≠ p ∧ q ∈ s.next_dial_attempts.map (·.item) := by
  simp only [cancel_dial, List.mem_map, List.mem_filter, decide_eq_true_eq]
  constructor
  · rintro ⟨entry, ⟨hmem, hne⟩, rfl⟩
    exact ⟨hne, entry, hmem, rfl⟩
  · rintro ⟨hne, entry, hmem, rfl⟩
    exact ⟨entry, ⟨hmem, hne⟩, rfl⟩

variable [PublicAddress Multiaddr]

structure Scheduled (s : Behaviour Multiaddr B) : Prop where
  heap_nodup : (s.next_dial_attempts.map (·.item)).Nodup
  queued_iff : ∀ p, p ∈ s.queued_dials ↔ p ∈ s.next_dial_attempts.map (·.item)
  waiting : ∀ p ∈ s.queued_dials, (s.not_connected_peers p).isSome = true ∧
    s.has_known_address p = true
  disjoint : ∀ p, (s.connected_peers p).isSome = true → s.not_connected_peers p = none
  counts : ∀ p, s.connected_peers p ≠ some 0
  pending : ∀ p addresses, .Dial p addresses ∈ s.pending_events →
    s.bootstrap_peers p = some addresses
  stored : ∀ p addresses, s.bootstrap_peers p = some addresses → addresses ≠ [] ∧
    (s.allow_private_addresses = false →
      ∀ a ∈ addresses, PublicAddress.is_public_address a = true)

theorem scheduled_new (me : PeerId) (allow : Bool) :
    Scheduled (.new me allow : Behaviour Multiaddr B) := by
  refine ⟨List.nodup_nil, fun p => ?_, nofun, nofun, nofun, nofun, nofun⟩
  constructor <;> intro h <;> cases h

/-- A peer without a back-off is not scheduled. -/
theorem Scheduled.not_queued (h : Scheduled s) {p : PeerId}
    (hfree : s.not_connected_peers p = none) : p ∉ s.queued_dials := by
  intro hmem
  have hsome := (h.waiting p hmem).1
  rw [hfree] at hsome
  cases hsome

end Scheduled

section Peer
variable {Multiaddr B : Type} [PublicAddress Multiaddr] {s : Behaviour Multiaddr B} {p : PeerId}
  {connected : PeerId → Option Nat}

theorem Scheduled.counts_of_same (h : Scheduled s) (hsame : ∀ q, q ≠ p → connected q = s.connected_peers q)
    (hcount : connected p ≠ some 0) (q : PeerId) : connected q ≠ some 0 := by
  by_cases hne : q = p
  · exact hne ▸ hcount
  · exact hsame q hne ▸ h.counts q

/-- Without the back-off of a peer, it may connect. -/
theorem Scheduled.disjoint_without (h : Scheduled s) (hsame : ∀ q, q ≠ p → connected q = s.connected_peers q)
    (q : PeerId) (hq : (connected q).isSome = true) : Function.update s.not_connected_peers p none q = none := by
  by_cases hne : q = p
  · rw [hne, Function.update_self]
  · rw [Function.update_of_ne hne]
    exact h.disjoint q (hsame q hne ▸ hq)

theorem Scheduled.waiting_without (h : Scheduled s) {q : PeerId} (hne : q ≠ p) (hq : q ∈ s.queued_dials) :
    (Function.update s.not_connected_peers p none q).isSome = true ∧ s.has_known_address q = true := by
  rw [Function.update_of_ne hne]
  exact h.waiting q hq

end Peer

section Scheduled
variable {Multiaddr B : Type} {s : Behaviour Multiaddr B}

/-- A dial is scheduled, or there is no address or it is scheduled already. -/
theorem schedule_dial_with_cases [ExponentialBackoff B] (now : Instant) (p : PeerId) (backoff : B)
    (s : Behaviour Multiaddr B) :
    ((s.has_known_address p = false ∨ p ∈ s.queued_dials) ∧
      schedule_dial_with now p backoff s = s) ∨
    (s.has_known_address p = true ∧ p ∉ s.queued_dials ∧ ∃ release_at backoff',
      schedule_dial_with now p backoff s = {s with
        not_connected_peers := Function.update s.not_connected_peers p (some backoff')
        queued_dials := insert p s.queued_dials
        next_dial_attempts := push ⟨release_at, p⟩ s.next_dial_attempts}) := by
  unfold schedule_dial_with has_scheduled_dial
  cases hknown : s.has_known_address p with
  | false => exact Or.inl ⟨Or.inl rfl, rfl⟩
  | true =>
    by_cases hq : p ∈ s.queued_dials
    · exact Or.inl ⟨Or.inr hq, by simp [hq]⟩
    · refine Or.inr ⟨rfl, hq, now + (ExponentialBackoff.next backoff).1.getD default_delay,
        (ExponentialBackoff.next backoff).2, ?_⟩
      simp only [hq, decide_false, Bool.not_true, Bool.or_self, Bool.false_eq_true, if_false]

theorem pop_event_eq_none (hpop : s.pop_event = none) : s.pending_events = [] := by
  unfold pop_event at hpop
  cases hpending : s.pending_events with
  | nil => rfl
  | cons value rest => simp [hpending] at hpop

variable [PublicAddress Multiaddr]

/-- A peer whose dial is cancelled may connect. -/
theorem Scheduled.cancel_dial (h : Scheduled s) (p : PeerId) {connected : PeerId → Option Nat}
    (hsame : ∀ q, q ≠ p → connected q = s.connected_peers q) (hcount : connected p ≠ some 0) :
    Scheduled (cancel_dial p {s with connected_peers := connected}) := by
  refine ⟨?_, fun q => ?_, fun q hq => ?_, h.disjoint_without hsame, h.counts_of_same hsame hcount, h.pending,
    h.stored⟩
  · exact h.heap_nodup.sublist (List.Sublist.map _ List.filter_sublist)
  · rw [mem_cancelled]
    show q ∈ s.queued_dials.erase p ↔ _
    rw [Finset.mem_erase, h.queued_iff]
  · obtain ⟨hne, hq⟩ := Finset.mem_erase.mp (show q ∈ s.queued_dials.erase p from hq)
    exact h.waiting_without hne hq

/-- The number of connections of a peer may change unless it has a back-off. -/
theorem Scheduled.connections_changed (h : Scheduled s) {p : PeerId}
    {connected : PeerId → Option Nat} (hsame : ∀ q, q ≠ p → connected q = s.connected_peers q)
    (hcount : connected p ≠ some 0)
    (hfree : (connected p).isSome = true → s.not_connected_peers p = none) :
    Scheduled {s with connected_peers := connected} := by
  refine ⟨h.heap_nodup, h.queued_iff, h.waiting, fun q hq => ?_, h.counts_of_same hsame hcount, h.pending, h.stored⟩
  show s.not_connected_peers q = none
  by_cases hne : q = p
  · subst hne
    exact hfree hq
  · exact h.disjoint q (hsame q hne ▸ hq)

theorem Scheduled.last_connection_closed (h : Scheduled s) (p : PeerId) :
    Scheduled {s with connected_peers := Function.update s.connected_peers p none} := by
  refine h.connections_changed (fun q hne => Function.update_of_ne hne _ _) ?_ ?_ <;>
    rw [Function.update_self] <;> intro hp <;> cases hp

/-- The back-off of a peer that is not scheduled may be taken. -/
theorem Scheduled.backoff_removed (h : Scheduled s) {p : PeerId} (hp : p ∉ s.queued_dials) :
    Scheduled {s with not_connected_peers := Function.update s.not_connected_peers p none} := by
  refine ⟨h.heap_nodup, h.queued_iff, fun q hq => ?_, h.disjoint_without fun _ _ => rfl, h.counts, h.pending,
    h.stored⟩
  have hne : q ≠ p := fun heq => hp (heq ▸ hq)
  exact h.waiting_without hne hq

theorem mem_dialable {s : Behaviour Multiaddr B} {multiaddresses : List Multiaddr} {a : Multiaddr}
    (ha : a ∈ s.dialable_addresses multiaddresses) (hallow : s.allow_private_addresses = false) :
    PublicAddress.is_public_address a = true := by
  unfold dialable_addresses at ha
  simpa [hallow] using (List.mem_filter.mp ha).2

/-- Addresses may be stored while no dial is pending. -/
theorem Scheduled.addresses_stored (h : Scheduled s) {p : PeerId} {addresses : List Multiaddr}
    (hne : addresses ≠ [])
    (hpublic : s.allow_private_addresses = false →
      ∀ a ∈ addresses, PublicAddress.is_public_address a = true)
    {pending : List (ToSwarm Multiaddr)} (hpending : ∀ q b, .Dial q b ∉ pending) :
    Scheduled {s with
      pending_events := pending
      bootstrap_peers := Function.update s.bootstrap_peers p (some addresses)} := by
  refine ⟨h.heap_nodup, h.queued_iff, fun q hq => ?_, h.disjoint, h.counts,
    fun q b hmem => absurd hmem (hpending q b), fun q b hb => ?_⟩
  · obtain ⟨hsome, hknown⟩ := h.waiting q hq
    refine ⟨hsome, ?_⟩
    show (Function.update s.bootstrap_peers p (some addresses) q).any _ = true
    by_cases hqp : q = p
    · subst hqp
      rw [Function.update_self]
      simpa using hne
    · rw [Function.update_of_ne hqp]
      exact hknown
  · have hb : Function.update s.bootstrap_peers p (some addresses) q = some b := hb
    by_cases hqp : q = p
    · subst hqp
      rw [Function.update_self] at hb
      cases hb
      exact ⟨hne, hpublic⟩
    · rw [Function.update_of_ne hqp] at hb
      exact h.stored q b hb

/-- The earliest dial leaves the heap and the set. -/
theorem Scheduled.taken (h : Scheduled s) {entry : Delayed PeerId} {rest : List (Delayed PeerId)}
    (hheap : s.next_dial_attempts = entry :: rest) :
    Scheduled {s with
      next_dial_attempts := rest
      queued_dials := s.queued_dials.erase entry.item} := by
  have hnodup := h.heap_nodup
  rw [hheap, List.map_cons, List.nodup_cons] at hnodup
  refine ⟨hnodup.2, fun q => ?_, fun q hq => h.waiting q (Finset.mem_of_mem_erase hq), h.disjoint,
    h.counts, h.pending, h.stored⟩
  show q ∈ s.queued_dials.erase entry.item ↔ q ∈ rest.map (·.item)
  rw [Finset.mem_erase, h.queued_iff, hheap, List.map_cons, List.mem_cons]
  constructor
  · intro ⟨hne, hmem⟩
    exact hmem.resolve_left hne
  · intro hmem
    exact ⟨fun heq => hnodup.1 (heq ▸ hmem), Or.inr hmem⟩

theorem Scheduled.dispatch (h : Scheduled s) (p : PeerId) : Scheduled (dispatch p s) := by
  unfold Behaviour.dispatch
  split_ifs with hnone
  · exact h
  · split
    · exact h.cancel_dial p (fun _ _ => rfl) (h.counts p)
    · next addresses haddr =>
      refine ⟨h.heap_nodup, h.queued_iff, h.waiting, h.disjoint, h.counts, fun q b hmem => ?_,
        h.stored⟩
      rcases List.mem_append.mp hmem with hmem | hmem
      · exact h.pending q b hmem
      · cases List.mem_singleton.mp hmem
        exact (Option.filter_eq_some_iff.mp haddr).1

theorem Scheduled.dial_loop (now : Instant) (n : Nat) {s : Behaviour Multiaddr B}
    (h : Scheduled s) : Scheduled (dial_loop now n s) := by
  induction n generalizing s with
  | zero => exact h
  | succ n ih =>
    unfold Behaviour.dial_loop
    split
    · exact h
    · next entry rest hheap =>
      split_ifs with hdue
      · exact ih ((h.taken hheap).dispatch entry.item)
      · exact h

/-- A dial that is handed out has the addresses that are stored. -/
theorem Scheduled.handed_out (h : Scheduled s) {popped : ToSwarm Multiaddr × Behaviour Multiaddr B}
    (hpop : s.pop_event = some popped) : Scheduled popped.2 ∧ ∀ p addresses,
      some popped.1 = some (.Dial p addresses) → popped.2.bootstrap_peers p = some addresses := by
  unfold pop_event at hpop
  cases hpending : s.pending_events with
  | nil => simp [hpending] at hpop
  | cons value rest =>
    simp only [hpending, Option.some.injEq] at hpop
    subst hpop
    have hmem : ∀ e ∈ rest, e ∈ s.pending_events := fun e he => hpending ▸ List.mem_cons_of_mem _ he
    refine ⟨⟨h.heap_nodup, h.queued_iff, h.waiting, h.disjoint, h.counts,
      fun p b hb => h.pending p b (hmem _ hb), h.stored⟩, fun p addresses hvalue => ?_⟩
    refine h.pending p addresses ?_
    rw [hpending, ← Option.some.inj hvalue]
    exact List.mem_cons_self

variable [ExponentialBackoff B]

/-- A peer that is not connected may be scheduled. -/
theorem Scheduled.schedule_dial_with (h : Scheduled s) {p : PeerId} (hp : s.connected_peers p = none)
    (now : Instant) (backoff : B) : Scheduled (schedule_dial_with now p backoff s) := by
  rcases schedule_dial_with_cases now p backoff s with ⟨_, heq⟩ | ⟨hknown, hq, at', b, heq⟩
  · rw [heq]
    exact h
  · rw [heq]
    have hperm := (List.perm_orderedInsert (fun d e : Delayed PeerId => d.release_at < e.release_at)
      ⟨at', p⟩ s.next_dial_attempts).map (·.item)
    refine ⟨?_, fun q => ?_, fun q hmem => ?_, fun q hc => ?_, h.counts, h.pending, h.stored⟩
    · refine hperm.nodup_iff.mpr (List.nodup_cons.mpr ⟨fun hmem => hq ?_, h.heap_nodup⟩)
      exact (h.queued_iff p).mpr hmem
    · show q ∈ insert p s.queued_dials ↔ _
      rw [Finset.mem_insert, h.queued_iff]
      exact (hperm.mem_iff.trans List.mem_cons).symm
    · show (Function.update s.not_connected_peers p (some b) q).isSome = true ∧ _
      by_cases hne : q = p
      · subst hne
        rw [Function.update_self]
        exact ⟨rfl, hknown⟩
      · rw [Function.update_of_ne hne]
        rcases Finset.mem_insert.mp hmem with hmem | hmem
        · exact absurd hmem hne
        · exact h.waiting q hmem
    · show Function.update s.not_connected_peers p (some b) q = none
      have hne : q ≠ p := by
        rintro rfl
        rw [hp] at hc
        cases hc
      rw [Function.update_of_ne hne]
      exact h.disjoint q hc

/-- No event breaks the queue of dials. -/
theorem Scheduled.on_swarm_event (h : Scheduled s) (initial : B) (now : Instant)
    (event : FromSwarm) : Scheduled (on_swarm_event initial now event s) := by
  unfold Behaviour.on_swarm_event
  cases event with
  | ConnectionEstablished p =>
    refine h.cancel_dial p (fun q hne => Function.update_of_ne hne _ _) ?_
    rw [Function.update_self]
    simp
  | ConnectionClosed p =>
    dsimp only
    split_ifs with hv hn
    · have hp : Function.update s.connected_peers p none p = none :=
        Function.update_self _ _ _
      exact (h.last_connection_closed p).schedule_dial_with hp now initial
    · exact h.last_connection_closed p
    · refine h.connections_changed (fun q hne => Function.update_of_ne hne _ _) ?_ ?_
      · rw [Function.update_self]
        exact fun heq => hv (Option.some.inj heq)
      · intro _
        by_cases hc : (s.connected_peers p).isSome = true
        · exact h.disjoint p hc
        · rw [Option.not_isSome_iff_eq_none.mp hc] at hv
          exact absurd rfl hv
  | DialFailure peer error =>
    cases peer with
    | none => exact h
    | some p =>
      dsimp only
      split_ifs with hcancel hq
      · exact h.cancel_dial p (fun _ _ => rfl) (h.counts p)
      · have hc : s.connected_peers p = none := by
          cases hc : s.connected_peers p with
          | none => rfl
          | some n => simp [hc] at hcancel
        have hq : p ∉ s.queued_dials := by simpa [has_scheduled_dial] using hq
        exact (h.backoff_removed hq).schedule_dial_with hc now _
      · exact h

/-- An announcement is taken only while no event is pending. -/
theorem Scheduled.announce (h : Scheduled s) (hnone : s.pending_events = []) (initial : B)
    (now : Instant) (p : PeerId) (multiaddresses : List Multiaddr) :
    Scheduled (announce initial now p multiaddresses s) := by
  have hnodial : ∀ q b, .Dial q b ∉ s.pending_events ++
      (s.dialable_addresses multiaddresses).map (.NewExternalAddrOfPeer p) := by
    simp [hnone]
  unfold Behaviour.announce
  dsimp only
  split_ifs with hme hempty hidle
  · exact h
  · exact ⟨h.heap_nodup, h.queued_iff, h.waiting, h.disjoint, h.counts,
      fun q b hmem => absurd hmem (hnodial q b), h.stored⟩
  · have hstored := h.addresses_stored (p := p) (by simpa using hempty)
      (fun hallow a ha => mem_dialable ha hallow) hnodial
    refine hstored.schedule_dial_with ?_ now initial
    simpa using (Bool.and_eq_true_iff.mp hidle).1
  · exact h.addresses_stored (by simpa using hempty)
      (fun hallow a ha => mem_dialable ha hallow) hnodial

theorem Scheduled.take_announcement (h : Scheduled s) (hnone : s.pending_events = []) (initial : B)
    (now : Instant) (next : PollNext Multiaddr) :
    Scheduled (take_announcement initial now next s) := by
  unfold Behaviour.take_announcement
  cases next with
  | Announce p multiaddresses => exact h.announce hnone initial now p multiaddresses
  | Ended => exact h
  | Pending => exact h

/-- A poll hands out an event, or arms the timer: at once, after the announcement was taken, or
after the dials that are due were. -/
theorem poll_cases (initial : B) (now : Instant) (next : PollNext Multiaddr)
    (s : Behaviour Multiaddr B) : ∃ m,
    (m = s ∧ s.pending_events ≠ [] ∨ s.pending_events = [] ∧
      (m = Behaviour.take_announcement initial now next s ∨
        m = Behaviour.dial_loop now (Behaviour.take_announcement initial now next s).next_dial_attempts.length
          (Behaviour.take_announcement initial now next s))) ∧
    ((∃ popped, m.pop_event = some popped ∧ poll initial now next s = (some popped.1, popped.2)) ∨
      (m.pop_event = none ∧ poll initial now next s = (none, arm_next_dial_timer now m))) := by
  unfold Behaviour.poll
  cases hpop : s.pop_event with
  | some popped =>
    have hne : s.pending_events ≠ [] := fun hnil => by simp [pop_event, hnil] at hpop
    exact ⟨s, Or.inl ⟨rfl, hne⟩, Or.inl ⟨popped, hpop, rfl⟩⟩
  | none =>
    have hnil := pop_event_eq_none hpop
    dsimp only
    cases hpop : (Behaviour.take_announcement initial now next s).pop_event with
    | some popped => exact ⟨_, Or.inr ⟨hnil, Or.inl rfl⟩, Or.inl ⟨popped, hpop, rfl⟩⟩
    | none =>
      refine ⟨_, Or.inr ⟨hnil, Or.inr rfl⟩, ?_⟩
      dsimp only
      split
      · next hpop => exact Or.inl ⟨_, hpop, rfl⟩
      · next hpop => exact Or.inr ⟨hpop, rfl⟩

/-- No poll breaks the queue of dials, and a dial it returns has the addresses that are stored. -/
theorem Scheduled.poll (h : Scheduled s) (initial : B) (now : Instant)
    (next : PollNext Multiaddr) :
    Scheduled (poll initial now next s).2 ∧ ∀ p addresses,
      (poll initial now next s).1 = some (.Dial p addresses) →
        (poll initial now next s).2.bootstrap_peers p = some addresses := by
  obtain ⟨m, hm, hpoll⟩ := poll_cases initial now next s
  have hscheduled : Scheduled m := by
    rcases hm with ⟨rfl, _⟩ | ⟨hnone, rfl | rfl⟩
    · exact h
    · exact h.take_announcement hnone initial now next
    · exact (h.take_announcement hnone initial now next).dial_loop now _
  rcases hpoll with ⟨popped, hpop, heq⟩ | ⟨_, heq⟩
  · rw [heq]
    exact hscheduled.handed_out hpop
  · rw [heq]
    exact ⟨⟨hscheduled.heap_nodup, hscheduled.queued_iff, hscheduled.waiting, hscheduled.disjoint,
      hscheduled.counts, hscheduled.pending, hscheduled.stored⟩, nofun⟩

end Scheduled

section Config
variable {Multiaddr B : Type} {s : Behaviour Multiaddr B}

theorem exists_known_address {p : PeerId} (hknown : s.has_known_address p = true) :
    ∃ addresses, s.bootstrap_peers p = some addresses ∧ addresses ≠ [] := by
  unfold has_known_address at hknown
  cases haddr : s.bootstrap_peers p with
  | none => simp [haddr] at hknown
  | some addresses => exact ⟨addresses, rfl, by simpa [haddr] using hknown⟩

/-- What never changes. -/
def config (s : Behaviour Multiaddr B) : PeerId × Bool := (s.me, s.allow_private_addresses)

theorem config_dispatch (p : PeerId) : config (dispatch p s) = config s := by
  unfold dispatch
  split
  · rfl
  · split <;> rfl

theorem config_dial_loop (now : Instant) (n : Nat) (s : Behaviour Multiaddr B) :
    config (dial_loop now n s) = config s := by
  induction n generalizing s with
  | zero => rfl
  | succ n ih =>
    unfold dial_loop
    split
    · rfl
    · split
      · rw [ih, config_dispatch]
        rfl
      · rfl

theorem config_pop_event {popped : ToSwarm Multiaddr × Behaviour Multiaddr B}
    (hpop : s.pop_event = some popped) : config popped.2 = config s := by
  unfold pop_event at hpop
  split at hpop
  · cases hpop
  · cases hpop
    rfl

variable [ExponentialBackoff B]

theorem config_schedule_dial_with (now : Instant) (p : PeerId) (backoff : B)
    (s : Behaviour Multiaddr B) : config (schedule_dial_with now p backoff s) = config s := by
  rcases schedule_dial_with_cases now p backoff s with ⟨_, heq⟩ | ⟨_, _, _, _, heq⟩
  · rw [heq]
  · rw [heq]
    rfl

theorem config_on_swarm_event (initial : B) (now : Instant) (event : FromSwarm)
    (s : Behaviour Multiaddr B) : config (on_swarm_event initial now event s) = config s := by
  unfold on_swarm_event
  split
  · rfl
  · dsimp only
    split_ifs
    · rw [config_schedule_dial_with]
      rfl
    · rfl
    · rfl
  · split_ifs
    · rfl
    · rw [config_schedule_dial_with]
      rfl
    · rfl
  · rfl

variable [PublicAddress Multiaddr]

theorem config_take_announcement (initial : B) (now : Instant) (next : PollNext Multiaddr)
    (s : Behaviour Multiaddr B) : config (take_announcement initial now next s) = config s := by
  unfold take_announcement announce
  split
  · dsimp only
    split_ifs
    · rfl
    · rfl
    · rw [config_schedule_dial_with]
      rfl
    · rfl
  · rfl

theorem config_poll (initial : B) (now : Instant) (next : PollNext Multiaddr)
    (s : Behaviour Multiaddr B) : config (poll initial now next s).2 = config s := by
  obtain ⟨m, hm, hpoll⟩ := poll_cases initial now next s
  have hconfig : config m = config s := by
    rcases hm with ⟨rfl, _⟩ | ⟨_, rfl | rfl⟩
    · rfl
    · exact config_take_announcement initial now next s
    · rw [config_dial_loop, config_take_announcement]
  rcases hpoll with ⟨popped, hpop, heq⟩ | ⟨_, heq⟩
  · rw [heq, ← hconfig]
    exact config_pop_event hpop
  · rw [heq, ← hconfig]
    rfl

end Config

section Runs
variable {Multiaddr B : Type} [ExponentialBackoff B] [PublicAddress Multiaddr]

/-- **Every step of the swarm keeps the queue of dials.** -/
theorem scheduled_step {s s' : State Multiaddr B} {a : Action Multiaddr B}
    (hstep : step s a = some s') (h : Scheduled s.behaviour) :
    Scheduled s'.behaviour ∧ config s'.behaviour = config s.behaviour := by
  cases a with
  | on_swarm_event own event initial now =>
    obtain ⟨dialing, _, rfl⟩ := Option.map_eq_some_iff.mp hstep
    exact ⟨h.on_swarm_event initial now event, config_on_swarm_event initial now event _⟩
  | poll next initial now =>
    cases hstep
    exact ⟨(h.poll initial now next).1, config_poll initial now next _⟩

theorem scheduled_run {me : PeerId} {allow : Bool} {as : List (Action Multiaddr B)}
    {s : State Multiaddr B}
    (hrun : (machine Multiaddr B).run (start me allow) as = some s) :
    Scheduled s.behaviour ∧ config s.behaviour = (me, allow) := by
  have hkeep : ∀ s a s', Scheduled s.behaviour ∧ config s.behaviour = (me, allow) →
      (machine Multiaddr B).step s a = some s' →
        Scheduled s'.behaviour ∧ config s'.behaviour = (me, allow) := by
    intro s a s' ⟨h, hconfig⟩ hstep
    obtain ⟨h', hconfig'⟩ := scheduled_step hstep h
    exact ⟨h', hconfig'.trans hconfig⟩
  exact (machine Multiaddr B).run_invariant_of_step hkeep hrun ⟨scheduled_new me allow, rfl⟩

/-- **The dial queue is well formed in every run**, and every dial a poll returns carries the
addresses that are stored for the peer: some, and only public ones unless private ones are
allowed. -/
theorem dial_queue_well_formed {me : PeerId} {allow : Bool} {as : List (Action Multiaddr B)}
    {s : State Multiaddr B}
    (hrun : (machine Multiaddr B).run (start me allow) as = some s) :
    (s.behaviour.next_dial_attempts.map (·.item)).Nodup ∧
    (∀ p, p ∈ s.behaviour.queued_dials ↔ p ∈ s.behaviour.next_dial_attempts.map (·.item)) ∧
    (∀ p ∈ s.behaviour.queued_dials, (s.behaviour.not_connected_peers p).isSome = true ∧
      ∃ addresses, s.behaviour.bootstrap_peers p = some addresses ∧ addresses ≠ []) ∧
    (∀ p, ¬((s.behaviour.not_connected_peers p).isSome = true ∧
      (s.behaviour.connected_peers p).isSome = true)) ∧
    (∀ p, s.behaviour.connected_peers p ≠ some 0) ∧
    ∀ initial now next event behaviour,
      s.behaviour.poll initial now next = (event, behaviour) →
      ∀ p addresses, event = some (.Dial p addresses) →
        behaviour.bootstrap_peers p = some addresses ∧ addresses ≠ [] ∧
        (allow = false → ∀ a ∈ addresses, PublicAddress.is_public_address a = true) := by
  obtain ⟨h, hconfig⟩ := scheduled_run hrun
  refine ⟨h.heap_nodup, h.queued_iff, fun p hp => ?_, fun p ⟨hwait, hconn⟩ => ?_, h.counts, ?_⟩
  · obtain ⟨hsome, hknown⟩ := h.waiting p hp
    exact ⟨hsome, exists_known_address hknown⟩
  · rw [h.disjoint p hconn] at hwait
    cases hwait
  · intro initial now next event behaviour hpoll p addresses hevent
    obtain ⟨h', hdial⟩ := h.poll initial now next
    have hconfig' := config_poll initial now next s.behaviour
    rw [hpoll] at h' hdial hconfig'
    have hstored := hdial p addresses hevent
    obtain ⟨hne, hpublic⟩ := h'.stored p addresses hstored
    refine ⟨hstored, hne, fun hallow => hpublic ?_⟩
    exact (Prod.ext_iff.mp (hconfig'.trans hconfig)).2.trans hallow

/-- A peer announced with a private and a public address connects, is closed and is dialed. -/
theorem dial_queue_well_formed_reconnect :
    let as : List (Action Ip4 Delays) :=
      [.poll (.Announce ⟨[1]⟩ [⟨10, 0, 0, 1⟩, ⟨8, 8, 8, 8⟩]) initial_backoff 0,
        .on_swarm_event false (.ConnectionEstablished ⟨[1]⟩) initial_backoff 5,
        .on_swarm_event false (.ConnectionClosed ⟨[1]⟩) initial_backoff 10]
    ∃ s : State Ip4 Delays, (machine Ip4 Delays).run (start ⟨[0]⟩ false) as = some s ∧
      (s.behaviour.poll initial_backoff 4000000000 .Pending).1 =
        some (.Dial ⟨[1]⟩ [⟨8, 8, 8, 8⟩]) ∧
      (s.behaviour.next_dial_attempts.map (·.item)).Nodup := by
  intro as
  obtain ⟨s, hrun, hdial⟩ : ∃ s : State Ip4 Delays,
      (machine Ip4 Delays).run (start ⟨[0]⟩ false) as = some s ∧
        (s.behaviour.poll initial_backoff 4000000000 .Pending).1 =
          some (.Dial ⟨[1]⟩ [⟨8, 8, 8, 8⟩]) := (machine _ _).exists_run (by decide +kernel)
  exact ⟨s, hrun, hdial, (dial_queue_well_formed hrun).1⟩

end Runs

end Hopr.Transport.DialQueue
