import Hopr.Library.Latest
import Hopr.Transport.Network
import Hopr.Transport.Swarm

/-! The network knows who is connected.

When the loop has worked off what the swarm reported, the peers it tracks are those
with a live connection, and the store never has this node or an address that must not
be stored (`tracked_of_run`). -/
namespace Hopr.Transport.Tracking
open Library Discovery Network Network.State

/-! ### What is left to do -/

section Left
variable {Multiaddr : Type}

/-- What an operation tells of whether a peer is tracked. -/
def tracks (p : PeerId) : Op Multiaddr → Option Bool
  | .track q => if q = p then some true else none
  | .untrack q => if q = p then some false else none
  | _ => none

/-- What a report tells of whether a peer has a live connection. -/
def reports (p : PeerId) : SwarmEvent Multiaddr → Option Bool
  | .ConnectionEstablished q num_established _ => if q = p ∧ num_established = 1 then some true else none
  | .ConnectionClosed q num_established => if q = p ∧ num_established = 0 then some false else none
  | .OutgoingConnectionError _ => none

/-- The peer will be tracked once the loop is done with the report at hand. -/
def settled (p : PeerId) (s : State Multiaddr) : Bool := latest (tracks p) (decide (p ∈ s.tracker)) s.todo

variable [DecidableEq Multiaddr]

theorem tracker_perform (p : PeerId) (accepted : Bool) (s : State Multiaddr) (op : Op Multiaddr) :
    decide (p ∈ (s.perform accepted op).tracker) = (tracks p op).getD (decide (p ∈ s.tracker)) := by
  cases op with
  | track q =>
    simp only [perform, tracks, Finset.mem_insert]
    by_cases hq : q = p
    · simp [hq]
    · simp [hq, Ne.symm hq]
  | untrack q =>
    simp only [perform, tracks, Finset.mem_erase]
    by_cases hq : q = p
    · simp [hq]
    · simp [hq, Ne.symm hq]
  | unregister q =>
    have hsame : (s.perform accepted (.unregister q)).tracker = s.tracker := by
      simp only [perform]
      split <;> rfl
    simp only [hsame, tracks, Option.getD_none]
  | store_add | store_remove | clear | try_broadcast => rfl

/-- What an operation leaves to do: what was left before, and the flag of an entry that was taken. -/
theorem todo_perform (accepted : Bool) (s : State Multiaddr) (op : Op Multiaddr) :
    (s.perform accepted op).todo = s.todo ∨ ∃ flag, (s.perform accepted op).todo = .clear flag :: s.todo := by
  cases op with
  | unregister q =>
    simp only [perform]
    split
    · exact .inr ⟨_, rfl⟩
    · exact .inl rfl
  | store_add | store_remove | track | untrack | clear | try_broadcast => exact .inl rfl

theorem swarm_perform (accepted : Bool) (s : State Multiaddr) (op : Op Multiaddr) :
    (s.perform accepted op).pool = s.pool ∧ (s.perform accepted op).pending = s.pending := by
  cases op with
  | unregister q =>
    simp only [perform]
    split <;> exact ⟨rfl, rfl⟩
  | store_add | store_remove | track | untrack | clear | try_broadcast => exact ⟨rfl, rfl⟩

theorem settled_perform (p : PeerId) (accepted : Bool) {s : State Multiaddr} {op : Op Multiaddr}
    {rest : List (Op Multiaddr)} (htodo : s.todo = op :: rest) :
    settled p (perform accepted {s with todo := rest} op) = settled p s := by
  have htracker := tracker_perform p accepted {s with todo := rest} op
  have hleft : latest (tracks p) (decide (p ∈ (perform accepted {s with todo := rest} op).tracker))
      (perform accepted {s with todo := rest} op).todo =
        latest (tracks p) (decide (p ∈ (perform accepted {s with todo := rest} op).tracker)) rest := by
    rcases todo_perform accepted {s with todo := rest} op with heq | ⟨flag, heq⟩
    · rw [heq]
    · rw [heq]
      rfl
  rw [settled, hleft, htracker, settled, htodo, latest_cons]

end Left

/-! ### What is done about a report -/

section Reports
variable {Multiaddr : Type}

/-- Addresses are stored whatever else is known of the peer. -/
theorem latest_stored (p q : PeerId) (stored : List Multiaddr) (before : Bool) :
    latest (tracks p) before (stored.map (.store_add q)) = before := by
  apply latest_none
  intro op hop
  obtain ⟨_, _, rfl⟩ := List.mem_map.mp hop
  rfl

variable [PublicAddress Multiaddr]

/-- The address may be stored. -/
def Allowed (allow_private_addresses : Bool) (address : Multiaddr) : Prop :=
  (allow_private_addresses || PublicAddress.is_public_address address) = true

inductive Handling (allow_private_addresses : Bool) (pool : PeerId → Nat) (event : SwarmEvent Multiaddr) :
    List (Op Multiaddr) → Prop
  | nothing : (∀ p, reports p event = none) → Handling allow_private_addresses pool event []
  | connected (q : PeerId) (stored : List Multiaddr) : (∀ address ∈ stored, Allowed allow_private_addresses address) →
      (∀ p, reports p event = if q = p then some true else none) →
      Handling allow_private_addresses pool event
        (stored.map (.store_add q) ++ [.track q, .try_broadcast (.PeerConnected q)])
  | disconnected (q : PeerId) : (∀ p, reports p event = if q = p then some false else none) →
      Handling allow_private_addresses pool event (disconnect_peer q)
  | undialable (q : PeerId) : pool q = 0 → (∀ p, reports p event = none) →
      Handling allow_private_addresses pool event (.store_remove q :: disconnect_peer q)

theorem handling (allow_private_addresses : Bool) (pool : PeerId → Nat) (event : SwarmEvent Multiaddr) :
    Handling allow_private_addresses pool event (handle allow_private_addresses pool event) := by
  cases event with
  | ConnectionEstablished q num_established endpoint =>
    simp only [handle]
    split
    · next hone =>
      have hreports : ∀ p, reports p (.ConnectionEstablished q num_established endpoint) =
          if q = p then some true else none := by
        intro p
        simp only [reports, hone, and_true]
      have hfirst : ∀ address : Multiaddr, Handling allow_private_addresses pool
          (.ConnectionEstablished q num_established endpoint)
            ((if allow_private_addresses || PublicAddress.is_public_address address then [.store_add q address]
              else []) ++ [.track q, .try_broadcast (.PeerConnected q)]) := by
        intro address
        split
        · next hallowed =>
          exact .connected q [address] (fun x hx => List.mem_singleton.mp hx ▸ hallowed) hreports
        · exact .connected q [] (fun x hx => nomatch hx) hreports
      cases endpoint with
      | Dialer address => exact hfirst address
      | Listener send_back_addr => exact hfirst send_back_addr
    · next hmore => exact .nothing fun p => by simp only [reports, hmore, and_false, if_false]
  | ConnectionClosed q num_established =>
    simp only [handle]
    split
    · next hlast => exact .disconnected q fun p => by simp only [reports, hlast, and_true]
    · next hmore => exact .nothing fun p => by simp only [reports, hmore, and_false, if_false]
  | OutgoingConnectionError peer =>
    cases peer with
    | none => exact .nothing fun _ => rfl
    | some q =>
      simp only [handle]
      split
      · next hlive => exact .undialable q hlive fun _ => rfl
      · exact .nothing fun _ => rfl

/-- What is done about a report follows what the report tells, and a failed dial of a peer without a connection
tells that there is none. -/
theorem latest_handle (p : PeerId) {allow_private_addresses : Bool} {pool : PeerId → Nat}
    {event : SwarmEvent Multiaddr} {ops : List (Op Multiaddr)} (h : Handling allow_private_addresses pool event ops)
    (before : Bool) : latest (tracks p) before ops = (reports p event).getD before ∨
      reports p event = none ∧ pool p = 0 ∧ latest (tracks p) before ops = false := by
  cases h with
  | nothing hnone =>
    rw [hnone]
    exact .inl rfl
  | connected q stored _ hreports =>
    rw [latest_append, latest_stored, hreports]
    exact .inl rfl
  | disconnected q hreports =>
    rw [hreports]
    exact .inl rfl
  | undialable q hlive hnone =>
    by_cases hq : q = p
    · subst hq
      exact .inr ⟨hnone q, hlive, by simp [disconnect_peer, latest, tracks]⟩
    · left
      simp [disconnect_peer, latest, tracks, hnone, hq]

end Reports

/-! ### Tracking -/

section Tracking
variable {Multiaddr : Type}

/-- What the network will know of a peer when all is reported and done is so. -/
def Follows (s : State Multiaddr) : Prop :=
  ∀ p, latest (reports p) (settled p s) s.pending = decide (0 < s.pool p)

/-- The last report decides if it is about the peer. -/
theorem Follows.latest_report {s : State Multiaddr} (h : Follows s) (p : PeerId) (event : SwarmEvent Multiaddr) :
    latest (reports p) (settled p s) (s.pending ++ [event]) = (reports p event).getD (decide (0 < s.pool p)) := by
  rw [latest_append, h p, latest_cons, latest_nil]

variable [DecidableEq Multiaddr] [PublicAddress Multiaddr]

theorem follows_step {allow_private_addresses : Bool} {s s' : State Multiaddr} {a : Action Multiaddr}
    (h : Follows s) (hstep : step allow_private_addresses s a = some s') : Follows s' := by
  intro p
  have hp := h p
  cases a with
  | connect q endpoint =>
    cases hstep
    show latest (reports p) (settled p s) (s.pending ++ _) = decide (0 < Function.update s.pool q _ p)
    rw [h.latest_report, reports]
    by_cases hq : q = p
    · subst hq
      rw [Function.update_self]
      by_cases hnone : s.pool q = 0
      · simp [hnone]
      · simp [hnone, Nat.pos_of_ne_zero]
    · simp [hq, Function.update_of_ne (Ne.symm hq)]
  | close q =>
    simp only [step] at hstep
    split at hstep
    · cases hstep
    · next hlive =>
      cases hstep
      show latest (reports p) (settled p s) (s.pending ++ _) = decide (0 < Function.update s.pool q _ p)
      rw [h.latest_report, reports]
      by_cases hq : q = p
      · subst hq
        rw [Function.update_self]
        by_cases hlast : s.pool q - 1 = 0
        · simp [hlast]
        · have hsome : 0 < s.pool q := Nat.pos_of_ne_zero hlive
          have hmore : 0 < s.pool q - 1 := Nat.pos_of_ne_zero hlast
          simp only [hlast, and_false, if_false, Option.getD_none, hsome, hmore]
      · simp [hq, Function.update_of_ne (Ne.symm hq)]
  | dial_error peer =>
    cases hstep
    exact h.latest_report p (.OutgoingConnectionError peer)
  | next =>
    simp only [step] at hstep
    split at hstep
    · next event rest htodo hpending =>
      cases hstep
      rw [settled, htodo, latest_nil, hpending, latest_cons] at hp
      show latest (reports p) (latest (tracks p) (decide (p ∈ s.tracker)) (handle _ s.pool event)) rest = _
      have hhandle := latest_handle p (handling allow_private_addresses s.pool event) (decide (p ∈ s.tracker))
      rcases hhandle with heq | ⟨hnone, hlive, heq⟩
      · rw [heq, hp]
      · -- The peer has no connection, so whatever is reported of it ends with that.
        rw [hnone, Option.getD_none] at hp
        rw [heq]
        rcases latest_cases (reports p) rest with hsilent | hany
        · rw [latest_none hsilent, hlive]
          rfl
        · rw [hany false, hp]
    · cases hstep
  | work accepted =>
    simp only [step] at hstep
    split at hstep
    · next op rest htodo =>
      cases hstep
      have hswarm := swarm_perform accepted {s with todo := rest} op
      rw [settled_perform p accepted htodo, hswarm.1, hswarm.2]
      exact hp
    · cases hstep
  | obtain_flag peer =>
    cases hstep
    exact hp

end Tracking

/-! ### The store -/

section Store
variable {Multiaddr : Type} [PublicAddress Multiaddr]

/-- Nothing is or will be stored that must not be. -/
structure Stored (allow_private_addresses : Bool) (me : PeerId) (my_addresses : Finset Multiaddr)
    (s : State Multiaddr) : Prop where
  own : s.store.me = me ∧ s.store.my_addresses = my_addresses
  todo : ∀ {p address}, .store_add p address ∈ s.todo → Allowed allow_private_addresses address
  addresses : ∀ {p addresses}, s.store.addresses.lookup p = some addresses →
    p ≠ me ∧ ∀ address ∈ addresses, Allowed allow_private_addresses address

variable {allow_private_addresses : Bool} {me : PeerId} {my_addresses : Finset Multiaddr} {s s' : State Multiaddr}

theorem Stored.remove (h : Stored allow_private_addresses me my_addresses s) (q : PeerId) :
    Stored allow_private_addresses me my_addresses {s with store := (s.store.remove q).toOption.getD s.store} := by
  unfold NetworkPeerStore.remove
  split
  · exact ⟨h.own, h.todo, h.addresses⟩
  · refine ⟨h.own, h.todo, ?_⟩
    intro p addresses hp
    replace hp : (s.store.addresses.erase q).lookup p = some addresses := hp
    by_cases heq : p = q
    · rw [heq, AList.lookup_erase] at hp
      cases hp
    · rw [AList.lookup_erase_ne heq] at hp
      exact h.addresses hp

theorem Handling.allowed {pool : PeerId → Nat} {event : SwarmEvent Multiaddr} {ops : List (Op Multiaddr)}
    (h : Handling allow_private_addresses pool event ops) {p : PeerId} {address : Multiaddr}
    (hmem : .store_add p address ∈ ops) : Allowed allow_private_addresses address := by
  cases h with
  | nothing _ => cases hmem
  | connected q stored hallowed _ =>
    rw [List.mem_append, List.mem_map] at hmem
    rcases hmem with ⟨x, hx, heq⟩ | hmem
    · cases heq
      exact hallowed _ hx
    · simp at hmem
  | disconnected q _ => simp [disconnect_peer] at hmem
  | undialable q _ _ => simp [disconnect_peer] at hmem

variable [DecidableEq Multiaddr]

theorem Stored.add (h : Stored allow_private_addresses me my_addresses s) (q : PeerId) {address : Multiaddr}
    (haddress : Allowed allow_private_addresses address) : Stored allow_private_addresses me my_addresses
      {s with store := (s.store.add q {address}).toOption.getD s.store} := by
  have hone : ∀ x ∈ ({address} : Finset Multiaddr), Allowed allow_private_addresses x := by
    intro x hx
    rw [Finset.mem_singleton.mp hx]
    exact haddress
  unfold NetworkPeerStore.add
  split
  · exact ⟨h.own, h.todo, h.addresses⟩
  · next hother =>
    have hq : q ≠ me := h.own.1 ▸ hother
    split
    · next unit hunit =>
      refine ⟨h.own, h.todo, ?_⟩
      intro p addresses hp
      replace hp : (s.store.addresses.insert q (unit ∪ {address})).lookup p = some addresses := hp
      by_cases heq : p = q
      · rw [heq, AList.lookup_insert] at hp
        cases hp
        refine ⟨heq ▸ hq, fun x hx => ?_⟩
        exact (Finset.mem_union.mp hx).elim ((h.addresses hunit).2 x) (hone x)
      · rw [AList.lookup_insert_ne heq] at hp
        exact h.addresses hp
    · refine ⟨h.own, h.todo, ?_⟩
      intro p addresses hp
      replace hp : (s.store.addresses.insert q {address}).lookup p = some addresses := hp
      by_cases heq : p = q
      · rw [heq, AList.lookup_insert] at hp
        cases hp
        exact ⟨heq ▸ hq, hone⟩
      · rw [AList.lookup_insert_ne heq] at hp
        exact h.addresses hp

theorem stored_step {a : Action Multiaddr} (h : Stored allow_private_addresses me my_addresses s)
    (hstep : step allow_private_addresses s a = some s') : Stored allow_private_addresses me my_addresses s' := by
  cases a with
  | connect q endpoint =>
    cases hstep
    exact ⟨h.own, h.todo, h.addresses⟩
  | close q =>
    simp only [step] at hstep
    split at hstep
    · cases hstep
    · cases hstep
      exact ⟨h.own, h.todo, h.addresses⟩
  | dial_error peer =>
    cases hstep
    exact ⟨h.own, h.todo, h.addresses⟩
  | next =>
    simp only [step] at hstep
    split at hstep
    · cases hstep
      exact ⟨h.own, (handling _ _ _).allowed, h.addresses⟩
    · cases hstep
  | obtain_flag peer =>
    cases hstep
    exact ⟨h.own, h.todo, h.addresses⟩
  | work accepted =>
    simp only [step] at hstep
    split at hstep
    · next op rest htodo =>
      cases hstep
      have hrest : ∀ {op'}, op' ∈ rest → op' ∈ s.todo := fun hmem => htodo ▸ List.mem_cons_of_mem op hmem
      have hleft : Stored allow_private_addresses me my_addresses {s with todo := rest} :=
        ⟨h.own, fun hmem => h.todo (hrest hmem), h.addresses⟩
      cases op with
      | store_add q address => exact hleft.add q (h.todo (htodo ▸ List.mem_cons_self))
      | store_remove q => exact hleft.remove q
      | unregister q =>
        simp only [perform]
        split
        · refine ⟨h.own, ?_, h.addresses⟩
          intro p address hmem
          cases List.mem_cons.mp hmem with
          | inl heq => cases heq
          | inr hmem => exact hleft.todo hmem
        · exact hleft
      | track | untrack | clear | try_broadcast => exact ⟨hleft.own, hleft.todo, hleft.addresses⟩
    · cases hstep

end Store

/-! ### Over runs -/

section Runs
variable {Multiaddr : Type}

theorem follows_new (me : PeerId) (my_addresses : Finset Multiaddr) : Follows (.new me my_addresses) := fun _ => rfl

variable [PublicAddress Multiaddr]

theorem stored_new (allow_private_addresses : Bool) (me : PeerId) (my_addresses : Finset Multiaddr) :
    Stored allow_private_addresses me my_addresses (.new me my_addresses) :=
  ⟨⟨rfl, rfl⟩, (fun h => nomatch h), (fun h => nomatch h)⟩

variable [DecidableEq Multiaddr]

/-- At rest the network knows who has a live connection and when nobody has one; at any time it knows its own
addresses, has not discovered itself and has only addresses that may be stored. -/
theorem tracked_of_run {allow_private_addresses : Bool} {me : PeerId} {my_addresses : Finset Multiaddr}
    {actions : List (Action Multiaddr)} {s : State Multiaddr}
    (hrun : (machine Multiaddr allow_private_addresses).run (.new me my_addresses) actions = some s) :
    (Quiet s → (∀ p, s.is_connected p = decide (0 < s.pool p)) ∧ (s.health = .Red ↔ ∀ p, s.pool p = 0)) ∧
      s.listening_as = my_addresses ∧ me ∉ s.discovered_peers ∧
      ∀ p ∈ s.discovered_peers, ∃ addresses, s.multiaddress_of p = some addresses ∧
        ∀ address ∈ addresses, Allowed allow_private_addresses address := by
  have hfollows : Follows s :=
    Machine.run_invariant_of_step _ (fun _ _ _ => follows_step) hrun (follows_new me my_addresses)
  have hstored : Stored allow_private_addresses me my_addresses s :=
    Machine.run_invariant_of_step _ (fun _ _ _ => stored_step) hrun (stored_new _ me my_addresses)
  have hnot_me : ∀ p ∈ s.discovered_peers, p ≠ me ∧ ∃ addresses, s.store.addresses.lookup p = some addresses := by
    intro p hp
    have hkeys : p ∈ s.store.addresses := List.mem_toFinset.mp hp
    obtain ⟨addresses, hlookup⟩ := Option.isSome_iff_exists.mp (AList.lookup_isSome.mpr hkeys)
    exact ⟨(hstored.addresses hlookup).1, addresses, hlookup⟩
  refine ⟨?_, ?_, fun hme => (hnot_me me hme).1 rfl, ?_⟩
  · rintro ⟨hpending, htodo⟩
    have hconnected : ∀ p, s.is_connected p = decide (0 < s.pool p) := by
      intro p
      have hp := hfollows p
      rwa [hpending, settled, htodo] at hp
    refine ⟨hconnected, ?_⟩
    have hred : s.health = .Red ↔ s.tracker.card = 0 := by
      unfold State.health
      split <;> simp_all
    rw [hred, Finset.card_eq_zero, Finset.eq_empty_iff_forall_notMem]
    refine forall_congr' fun p => ?_
    have hp := hconnected p
    simp only [is_connected, decide_eq_decide] at hp
    rw [hp, Nat.not_lt, Nat.le_zero]
  · simp [listening_as, NetworkPeerStore.get, hstored.own.2]
  · intro p hp
    obtain ⟨hother, addresses, hlookup⟩ := hnot_me p hp
    refine ⟨addresses, ?_, (hstored.addresses hlookup).2⟩
    rw [multiaddress_of, NetworkPeerStore.get, if_neg (hstored.own.1.symm ▸ hother), hlookup]

end Runs

section Concrete
open Swarm (Ip4)

/-- Two connections to a peer and one to another, of which the last is closed. -/
theorem tracked_of_run_closed :
    let actions : List (Action Ip4) := [.connect ⟨[1]⟩ (.Dialer ⟨8, 8, 8, 8⟩), .connect ⟨[2]⟩ (.Listener ⟨10, 0, 0, 1⟩),
      .connect ⟨[1]⟩ (.Dialer ⟨8, 8, 8, 8⟩), .next, .close ⟨[2]⟩, .work true, .work true, .work true, .next, .work true,
      .work true, .next, .next, .work true, .work true, .work true]
    ∃ s : State Ip4, (machine Ip4 false).run (.new ⟨[0]⟩ ∅) actions = some s ∧
      (∀ p, s.is_connected p = decide (0 < s.pool p)) ∧ s.health = .Orange := by
  intro actions
  obtain ⟨s, hrun, hpending, htodo, hhealth⟩ : ∃ s : State Ip4,
      (machine Ip4 false).run (.new ⟨[0]⟩ ∅) actions = some s ∧ s.pending.isEmpty ∧ s.todo.isEmpty ∧
        s.health = .Orange := (machine _ _).exists_run (by decide +kernel)
  exact ⟨s, hrun, ((tracked_of_run hrun).1 ⟨List.isEmpty_iff.mp hpending, List.isEmpty_iff.mp htodo⟩).1, hhealth⟩

end Concrete

end Hopr.Transport.Tracking
