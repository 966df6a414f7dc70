import Hopr.Transport.DialQueue

/-! No peer is stranded.

A peer that keeps a back-off is scheduled or has a dial underway, and a peer
with an address that keeps none and is not connected had a dial fail with
`NoAddresses` (`Tended`). The failure dates from after the peer was last announced with an
address to dial: an announcement without one stores nothing and schedules
nothing, so the peer stays where it is (`stranded_announced`). -/
namespace Hopr.Transport.Stranded
open Library Discovery Behaviour Swarm DialQueue

section Tended
variable {Multiaddr B : Type}

/-- What is owed to a peer, given the dials that were handed out and the peers of which a dial
failed. -/
structure Tended (dialing : PeerId → Nat) (failed : PeerId → Bool) (s : Behaviour Multiaddr B) :
    Prop where
  dialed : ∀ p, (s.not_connected_peers p).isSome = true → p ∈ s.queued_dials ∨
    (∃ addresses, .Dial p addresses ∈ s.pending_events) ∨ 0 < dialing p
  excused : ∀ p, s.has_known_address p = true → p ≠ s.me → s.connected_peers p = none →
    s.not_connected_peers p = none → failed p = true

variable {dialing : PeerId → Nat} {failed : PeerId → Bool} {s : Behaviour Multiaddr B}

/-- Nothing is owed to a peer whose dial is cancelled if it is connected, failed or unknown. -/
theorem Tended.cancel_dial (h : Tended dialing failed s) (p : PeerId)
    {connected : PeerId → Option Nat} {dialing' : PeerId → Nat} {failed' : PeerId → Bool}
    (hsame : ∀ q, q ≠ p → connected q = s.connected_peers q ∧ dialing' q = dialing q)
    (hfailed : ∀ q, failed q = true → failed' q = true)
    (hp : (connected p).isSome = true ∨ failed' p = true ∨ s.has_known_address p = false) :
    Tended dialing' failed' (cancel_dial p {s with connected_peers := connected}) := by
  constructor
  · intro q hq
    have hq : (Function.update s.not_connected_peers p none q).isSome = true := hq
    by_cases hne : q = p
    · rw [hne, Function.update_self] at hq
      cases hq
    · rw [Function.update_of_ne hne] at hq
      rw [(hsame q hne).2]
      refine (h.dialed q hq).imp_left fun hmem => ?_
      exact Finset.mem_erase.mpr ⟨hne, hmem⟩
  · intro q hknown hme hc hq
    have hq : Function.update s.not_connected_peers p none q = none := hq
    have hnone : connected q = none := hc
    by_cases hne : q = p
    · subst hne
      rcases hp with hsome | hfail | hunknown
      · rw [hnone] at hsome
        cases hsome
      · exact hfail
      · exact absurd (hunknown.symm.trans hknown) (by simp)
    · rw [Function.update_of_ne hne] at hq
      exact hfailed q (h.excused q hknown hme ((hsame q hne).1 ▸ hnone) hq)

/-- A peer that is not scheduled and to which something may be owed is scheduled. -/
theorem Tended.schedule_dial_with [ExponentialBackoff B] (p : PeerId) (hp : p ∉ s.queued_dials)
    (hothers : ∀ q, q ≠ p → (s.not_connected_peers q).isSome = true → q ∈ s.queued_dials ∨
      (∃ addresses, .Dial q addresses ∈ s.pending_events) ∨ 0 < dialing q)
    (hexcused : ∀ q, q ≠ p → s.has_known_address q = true → q ≠ s.me →
      s.connected_peers q = none → s.not_connected_peers q = none → failed q = true)
    (hunknown : s.has_known_address p = false → s.not_connected_peers p = none)
    (now : Instant) (backoff : B) :
    Tended dialing failed (schedule_dial_with now p backoff s) := by
  rcases schedule_dial_with_cases now p backoff s with ⟨hskip, heq⟩ | ⟨hknown, _, _, b, heq⟩
  · have hno : s.has_known_address p = false := hskip.resolve_right hp
    rw [heq]
    constructor
    · intro q hq
      by_cases hne : q = p
      · rw [hne, hunknown hno] at hq
        cases hq
      · exact hothers q hne hq
    · intro q hknown
      by_cases hne : q = p
      · rw [hne, hno] at hknown
        cases hknown
      · exact hexcused q hne hknown
  · rw [heq]
    constructor
    · intro q hq
      have hq : (Function.update s.not_connected_peers p (some b) q).isSome = true := hq
      by_cases hne : q = p
      · exact Or.inl (hne ▸ Finset.mem_insert_self p s.queued_dials)
      · rw [Function.update_of_ne hne] at hq
        exact (hothers q hne hq).imp_left fun hmem => Finset.mem_insert_of_mem hmem
    · intro q hknown hme hc hq
      have hq : Function.update s.not_connected_peers p (some b) q = none := hq
      by_cases hne : q = p
      · rw [hne, Function.update_self] at hq
        cases hq
      · rw [Function.update_of_ne hne] at hq
        exact hexcused q hne hknown hme hc hq

/-- The dials of a peer that is not reported stay as they are. -/
theorem report_same {own : Bool} {event : FromSwarm} {dialing' : PeerId → Nat}
    (hreport : report own event dialing = some dialing') {q : PeerId}
    (hq : reported event ≠ some q) : dialing' q = dialing q := by
  unfold report at hreport
  split at hreport
  · split at hreport
    · next p hp =>
      split at hreport
      · cases hreport
      · cases hreport
        refine Function.update_of_ne (fun heq => hq ?_) _ _
        rw [heq, hp]
    · cases hreport
  · cases hreport
    rfl

theorem fail_mono {event : FromSwarm} {q : PeerId} (hq : failed q = true) :
    fail event failed q = true := by
  unfold fail
  split
  · next p =>
    by_cases hne : q = p
    · rw [hne, Function.update_self]
    · rw [Function.update_of_ne hne]
      exact hq
  · exact hq

/-- No event strands a peer. -/
theorem Tended.on_swarm_event [ExponentialBackoff B] [PublicAddress Multiaddr] (h : Tended dialing failed s)
    (hs : Scheduled s) {own : Bool} {event : FromSwarm} {dialing' : PeerId → Nat}
    (hreport : report own event dialing = some dialing') (initial : B) (now : Instant) :
    Tended dialing' (fail event failed) (on_swarm_event initial now event s) := by
  have hdialing := fun q => report_same (q := q) hreport
  unfold Behaviour.on_swarm_event
  cases event with
  | ConnectionEstablished p =>
    refine h.cancel_dial p (fun q hne => ⟨Function.update_of_ne hne _ _, ?_⟩)
      (fun q => fail_mono) (Or.inl ?_)
    · exact hdialing q fun heq => hne (Option.some.inj heq).symm
    · rw [Function.update_self]
      rfl
  | ConnectionClosed p =>
    have hsame : dialing' = dialing := funext fun q => hdialing q nofun
    rw [hsame]
    dsimp only
    split_ifs with hv hfree
    · have hfree : s.not_connected_peers p = none := Option.isNone_iff_eq_none.mp hfree
      refine Tended.schedule_dial_with p ?_ ?_ ?_ ?_ now initial
      · exact hs.not_queued hfree
      · exact fun q _ hq => h.dialed q hq
      · intro q hne hknown hme hc hq
        have hc : Function.update s.connected_peers p none q = none := hc
        rw [Function.update_of_ne hne] at hc
        exact h.excused q hknown hme hc hq
      · exact fun _ => hfree
    · refine ⟨h.dialed, fun q hknown hme hc hq => ?_⟩
      have hne : q ≠ p := fun heq => hfree (by rw [← heq]; exact Option.isNone_iff_eq_none.mpr hq)
      have hc : Function.update s.connected_peers p none q = none := hc
      rw [Function.update_of_ne hne] at hc
      exact h.excused q hknown hme hc hq
    · refine ⟨h.dialed, fun q hknown hme hc hq => ?_⟩
      have hc : Function.update s.connected_peers p _ q = none := hc
      by_cases hne : q = p
      · rw [hne, Function.update_self] at hc
        cases hc
      · rw [Function.update_of_ne hne] at hc
        exact h.excused q hknown hme hc hq
  | DialFailure peer error =>
    cases peer with
    | none =>
      have hsame : dialing' = dialing := funext fun q => hdialing q nofun
      rw [hsame]
      exact h
    | some p =>
      have hothers : ∀ q, q ≠ p → dialing' q = dialing q :=
        fun q hne => hdialing q fun heq => hne (Option.some.inj heq).symm
      dsimp only
      split_ifs with hcancel hq
      · refine h.cancel_dial p (fun q hne => ⟨rfl, hothers q hne⟩) (fun q => fail_mono) ?_
        rcases Bool.or_eq_true_iff.mp hcancel with hcancel | hunknown
        · rcases Bool.or_eq_true_iff.mp hcancel with hsome | herror
          · exact Or.inl hsome
          · refine Or.inr (Or.inl ?_)
            rw [beq_iff_eq.mp herror]
            exact Function.update_self p true failed
        · exact Or.inr (Or.inr (by simpa using hunknown))
      · have hp : p ∉ s.queued_dials := by simpa [has_scheduled_dial] using hq
        refine Tended.schedule_dial_with p ?_ ?_ ?_ ?_ now _
        · exact hp
        · intro q hne hq
          have hq : (Function.update s.not_connected_peers p none q).isSome = true := hq
          rw [Function.update_of_ne hne] at hq
          rw [hothers q hne]
          exact h.dialed q hq
        · intro q hne hknown hme hc hq
          have hq : Function.update s.not_connected_peers p none q = none := hq
          rw [Function.update_of_ne hne] at hq
          exact fail_mono (h.excused q hknown hme hc hq)
        · exact fun _ => Function.update_self _ _ _
      · have hp : p ∈ s.queued_dials := by simpa [has_scheduled_dial] using hq
        refine ⟨fun q hq => ?_, fun q hknown hme hc hq => fail_mono (h.excused q hknown hme hc hq)⟩
        by_cases hne : q = p
        · exact Or.inl (hne ▸ hp)
        · rw [hothers q hne]
          exact h.dialed q hq

/-- A dial that is handed out is underway. -/
theorem Tended.handed_out (h : Tended dialing failed s)
    {popped : ToSwarm Multiaddr × Behaviour Multiaddr B} (hpop : s.pop_event = some popped) :
    Tended (hand_out (some popped.1) dialing) failed popped.2 := by
  unfold pop_event at hpop
  cases hpending : s.pending_events with
  | nil => simp [hpending] at hpop
  | cons value rest =>
    simp only [hpending, Option.some.injEq] at hpop
    subst hpop
    refine ⟨fun q hq => ?_, h.excused⟩
    have hmono : dialing q ≤ hand_out (some value) dialing q := by
      cases value with
      | NewExternalAddrOfPeer p address => exact le_rfl
      | Dial p addresses =>
        show dialing q ≤ Function.update dialing p (dialing p + 1) q
        by_cases hne : q = p
        · rw [hne, Function.update_self]
          exact Nat.le_succ _
        · rw [Function.update_of_ne hne]
    rcases h.dialed q hq with hqueued | ⟨addresses, hmem⟩ | hdialing
    · exact Or.inl hqueued
    · rw [hpending] at hmem
      rcases List.mem_cons.mp hmem with heq | hmem
      · refine Or.inr (Or.inr ?_)
        rw [← heq]
        show 0 < Function.update dialing q (dialing q + 1) q
        rw [Function.update_self]
        omega
      · exact Or.inr (Or.inl ⟨addresses, hmem⟩)
    · exact Or.inr (Or.inr (lt_of_lt_of_le hdialing hmono))

variable [PublicAddress Multiaddr]

/-- What is remembered of failures once a poll took an announcement. -/
def failed_after (next : PollNext Multiaddr) (s : Behaviour Multiaddr B) (failed : PeerId → Bool) :
    PeerId → Bool :=
  match announced next s with
  | some (peer, multiaddresses) =>
    if (s.dialable_addresses multiaddresses).isEmpty then failed
    else Function.update failed peer false
  | none => failed

theorem failed_after_pending {next : PollNext Multiaddr} (hne : s.pending_events ≠ []) :
    failed_after next s failed = failed := by
  unfold failed_after announced
  cases next with
  | Announce p multiaddresses => simp [hne]
  | Ended => rfl
  | Pending => rfl

/-- A dial that is due becomes an event. -/
theorem Tended.dispatch (h : Tended dialing failed s) (hs : Scheduled s) {entry : Delayed PeerId}
    {rest : List (Delayed PeerId)} (hheap : s.next_dial_attempts = entry :: rest) :
    Tended dialing failed (dispatch entry.item {s with
      next_dial_attempts := rest
      queued_dials := s.queued_dials.erase entry.item}) := by
  have hqueued : entry.item ∈ s.queued_dials := by
    rw [hs.queued_iff, hheap]
    exact List.mem_cons_self
  obtain ⟨hsome, hknown⟩ := hs.waiting entry.item hqueued
  have hothers : ∀ q, q ≠ entry.item → (s.not_connected_peers q).isSome = true →
      q ∈ s.queued_dials.erase entry.item ∨
        (∃ addresses, .Dial q addresses ∈ s.pending_events) ∨ 0 < dialing q := by
    intro q hne hq
    exact (h.dialed q hq).imp_left fun hmem => Finset.mem_erase.mpr ⟨hne, hmem⟩
  unfold Behaviour.dispatch
  dsimp only
  split
  · next hfree =>
    rw [Option.isNone_iff_eq_none.mp hfree] at hsome
    cases hsome
  · obtain ⟨addresses, haddr, hne⟩ := exists_known_address hknown
    have haddresses : (s.bootstrap_peers entry.item).filter (fun addresses => !addresses.isEmpty) =
        some addresses := by
      rw [haddr]
      simpa using hne
    rw [haddresses]
    refine ⟨fun q hq => ?_, h.excused⟩
    by_cases hne : q = entry.item
    · exact Or.inr (Or.inl ⟨addresses, List.mem_append_right _ (hne ▸ List.mem_singleton_self _)⟩)
    · refine (hothers q hne hq).imp_right (Or.imp_left fun ⟨b, hmem⟩ => ?_)
      exact ⟨b, List.mem_append_left _ hmem⟩

theorem Tended.dial_loop (now : Instant) (n : Nat) {s : Behaviour Multiaddr B}
    (h : Tended dialing failed s) (hs : Scheduled s) : Tended dialing failed (dial_loop now n s) := by
  induction n generalizing s with
  | zero => exact h
  | succ n ih =>
    unfold Behaviour.dial_loop
    split
    · exact h
    · next entry rest hheap =>
      split_ifs with hdue
      · exact ih (h.dispatch hs hheap) ((hs.taken hheap).dispatch entry.item)
      · exact h

variable [ExponentialBackoff B]

/-- An announcement with an address to dial is scheduled, unless the peer is tended already. -/
theorem Tended.take_announcement (h : Tended dialing failed s) (hs : Scheduled s)
    (hnone : s.pending_events = []) (initial : B) (now : Instant) (next : PollNext Multiaddr) :
    Tended dialing (failed_after next s failed) (take_announcement initial now next s) := by
  unfold failed_after announced Behaviour.take_announcement
  cases next with
  | Ended => exact h
  | Pending => exact h
  | Announce p multiaddresses =>
    unfold announce
    by_cases hme : p = s.me
    · simpa [hme] using h
    · have hempty : s.pending_events.isEmpty = true := by rw [hnone]; rfl
      simp only [hempty, hme, ne_eq, not_false_eq_true, and_self, if_true, if_false]
      have hdialed : ∀ q, (s.not_connected_peers q).isSome = true → q ∈ s.queued_dials ∨
          (∃ addresses, .Dial q addresses ∈ s.pending_events ++
            (s.dialable_addresses multiaddresses).map (.NewExternalAddrOfPeer p)) ∨
          0 < dialing q := by
        intro q hq
        refine (h.dialed q hq).imp_right (Or.imp_left fun ⟨addresses, hmem⟩ => ?_)
        exact ⟨addresses, List.mem_append_left _ hmem⟩
      have hexcused : ∀ q, q ≠ p →
          (Function.update s.bootstrap_peers p (some (s.dialable_addresses multiaddresses)) q).any
            (fun addresses => !addresses.isEmpty) = true → q ≠ s.me →
          s.connected_peers q = none → s.not_connected_peers q = none →
          Function.update failed p false q = true := by
        intro q hne hknown hme hc hq
        rw [Function.update_of_ne hne] at hknown ⊢
        exact h.excused q hknown hme hc hq
      split_ifs with hnoaddr hidle
      · exact ⟨hdialed, h.excused⟩
      · obtain ⟨_, hfree⟩ := Bool.and_eq_true_iff.mp hidle
        have hfree : s.not_connected_peers p = none := Option.isNone_iff_eq_none.mp hfree
        refine Tended.schedule_dial_with p ?_ ?_ ?_ ?_ now initial
        · exact hs.not_queued hfree
        · exact fun q _ => hdialed q
        · exact hexcused
        · exact fun _ => hfree
      · refine ⟨hdialed, fun q hknown hme hc hq => ?_⟩
        refine hexcused q (fun heq => hidle ?_) hknown hme hc hq
        rw [← heq]
        exact Bool.and_eq_true_iff.mpr
          ⟨Option.isNone_iff_eq_none.mpr hc, Option.isNone_iff_eq_none.mpr hq⟩

/-- No poll strands a peer. -/
theorem Tended.poll (h : Tended dialing failed s) (hs : Scheduled s) (initial : B) (now : Instant)
    (next : PollNext Multiaddr) :
    Tended (hand_out (poll initial now next s).1 dialing) (failed_after next s failed)
      (poll initial now next s).2 := by
  obtain ⟨m, hm, hpoll⟩ := poll_cases initial now next s
  have htended : Tended dialing (failed_after next s failed) m := by
    rcases hm with ⟨rfl, hne⟩ | ⟨hnone, rfl | rfl⟩
    · rw [failed_after_pending hne]
      exact h
    · exact h.take_announcement hs hnone initial now next
    · exact (h.take_announcement hs hnone initial now next).dial_loop now _
        (hs.take_announcement hnone initial now next)
  rcases hpoll with ⟨popped, hpop, heq⟩ | ⟨_, heq⟩
  · rw [heq]
    exact htended.handed_out hpop
  · rw [heq]
    exact ⟨htended.dialed, htended.excused⟩

end Tended

section Runs
variable {Multiaddr B : Type} [ExponentialBackoff B] [PublicAddress Multiaddr]

theorem tended_step {s s' : State Multiaddr B} {a : Action Multiaddr B}
    (hstep : step s a = some s') (hs : Scheduled s.behaviour)
    (h : Tended s.dialing s.failed_since_stored s.behaviour) :
    Tended s'.dialing s'.failed_since_stored s'.behaviour := by
  cases a with
  | on_swarm_event own event initial now =>
    obtain ⟨dialing, hreport, rfl⟩ := Option.map_eq_some_iff.mp hstep
    exact h.on_swarm_event hs hreport initial now
  | poll next initial now =>
    cases hstep
    exact h.poll hs initial now next

/-- **No peer is stranded in any run**: a peer with a stored address and without a connection is
scheduled, has a dial pending or underway, or had a dial fail with `NoAddresses` since it was last
announced with an address to dial. -/
theorem no_stranded_peer {me : PeerId} {allow : Bool} {as : List (Action Multiaddr B)}
    {s : State Multiaddr B} (hrun : (machine Multiaddr B).run (start me allow) as = some s)
    {p : PeerId} (hp : p ≠ me) {addresses : List Multiaddr}
    (hstored : s.behaviour.bootstrap_peers p = some addresses) (hne : addresses ≠ [])
    (hc : s.behaviour.connected_peers p = none) :
    p ∈ s.behaviour.queued_dials ∨ (∃ b, .Dial p b ∈ s.behaviour.pending_events) ∨
      0 < s.dialing p ∨ s.failed_since_stored p = true := by
  have hkeep : ∀ s a s', Scheduled s.behaviour ∧
      Tended s.dialing s.failed_since_stored s.behaviour →
      (machine Multiaddr B).step s a = some s' → Scheduled s'.behaviour ∧
        Tended s'.dialing s'.failed_since_stored s'.behaviour := by
    intro s a s' ⟨hs, h⟩ hstep
    exact ⟨(scheduled_step hstep hs).1, tended_step hstep hs h⟩
  have htended := (machine Multiaddr B).run_invariant_of_step hkeep hrun
    ⟨scheduled_new me allow, nofun, nofun⟩
  have hme : p ≠ s.behaviour.me := by
    have hconfig : s.behaviour.me = me := (Prod.ext_iff.mp (scheduled_run hrun).2).1
    rw [hconfig]
    exact hp
  have hknown : s.behaviour.has_known_address p = true := by
    unfold has_known_address
    rw [hstored]
    simpa using hne
  cases hfree : s.behaviour.not_connected_peers p with
  | none => exact Or.inr (Or.inr (Or.inr (htended.2.excused p hknown hme hc hfree)))
  | some backoff =>
    rcases htended.2.dialed p (by rw [hfree]; rfl) with hqueued | hpending | hdialing
    · exact Or.inl hqueued
    · exact Or.inr (Or.inl hpending)
    · exact Or.inr (Or.inr (Or.inl hdialing))

end Runs

section Concrete

/-- A peer whose dial failed in transit is scheduled again. -/
theorem no_stranded_peer_retried :
    let as : List (Action Ip4 Delays) :=
      [.poll (.Announce ⟨[1]⟩ [⟨8, 8, 8, 8⟩]) initial_backoff 0,
        .poll .Pending initial_backoff 3000000000,
        .on_swarm_event true (.DialFailure (some ⟨[1]⟩) .Transient) initial_backoff 3100000000]
    ∃ s : State Ip4 Delays, (machine Ip4 Delays).run (start ⟨[0]⟩ false) as = some s ∧
      (⟨[1]⟩ : PeerId) ∈ s.behaviour.queued_dials ∧
      (⟨[1]⟩ ∈ s.behaviour.queued_dials ∨ (∃ b, .Dial ⟨[1]⟩ b ∈ s.behaviour.pending_events) ∨
        0 < s.dialing ⟨[1]⟩ ∨ s.failed_since_stored ⟨[1]⟩ = true) := by
  intro as
  obtain ⟨s, hrun, hstored, hc, hqueued⟩ : ∃ s : State Ip4 Delays,
      (machine Ip4 Delays).run (start ⟨[0]⟩ false) as = some s ∧
        s.behaviour.bootstrap_peers ⟨[1]⟩ = some [⟨8, 8, 8, 8⟩] ∧
        s.behaviour.connected_peers ⟨[1]⟩ = none ∧
        (⟨[1]⟩ : PeerId) ∈ s.behaviour.queued_dials := (machine _ _).exists_run (by decide +kernel)
  exact ⟨s, hrun, hqueued, no_stranded_peer hrun (by decide) hstored (by decide) hc⟩

/-- **An announcement without an address to dial rescues nobody**: a peer whose dial failed with
`NoAddresses` and that is then announced with a private address only stays unscheduled. -/
theorem stranded_announced :
    let as : List (Action Ip4 Delays) :=
      [.poll (.Announce ⟨[1]⟩ [⟨8, 8, 8, 8⟩]) initial_backoff 0,
        .on_swarm_event false (.DialFailure (some ⟨[1]⟩) .NoAddresses) initial_backoff 5,
        .poll (.Announce ⟨[1]⟩ [⟨10, 0, 0, 1⟩]) initial_backoff 10]
    ∃ s : State Ip4 Delays, (machine Ip4 Delays).run (start ⟨[0]⟩ false) as = some s ∧
      s.behaviour.bootstrap_peers ⟨[1]⟩ = some [⟨8, 8, 8, 8⟩] ∧
      s.behaviour.connected_peers ⟨[1]⟩ = none ∧
      ⟨[1]⟩ ∉ s.behaviour.queued_dials ∧ s.behaviour.pending_events = [] ∧
      s.dialing ⟨[1]⟩ = 0 ∧ s.failed_since_announced ⟨[1]⟩ = false :=
  (machine _ _).exists_run (by decide +kernel)

end Concrete

end Hopr.Transport.Stranded
