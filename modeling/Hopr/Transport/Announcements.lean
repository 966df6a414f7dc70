import Hopr.Transport.Tracking

/-! The announcements tell who is connected.

Each report that changes who is tracked is followed by one announcement that tells so.
Whoever subscribes, looks at the connected peers at any later time and applies what was
announced since the subscription to what he saw, knows the connected peers whenever the
loop is done with a report, as long as the channel refused no announcement. -/
namespace Hopr.Transport.Announcements
open Library Discovery Network Network.State Tracking

section Announcements
variable {Multiaddr : Type}

/-- What an announcement tells of whether a peer is connected. -/
def tells (p : PeerId) : NetworkEvent → Option Bool
  | .PeerConnected q => if q = p then some true else none
  | .PeerDisconnected q => if q = p then some false else none

/-- What is left of the announcements. -/
def unsaid (todo : List (Op Multiaddr)) : List NetworkEvent :=
  todo.filterMap fun | .try_broadcast event => some event | _ => none

/-- An operation before an announcement is about a peer it tells of. -/
def Prepares (event : NetworkEvent) (op : Op Multiaddr) : Prop :=
  (∀ event', op ≠ .try_broadcast event') ∧ ∀ p, tells p event = none → tracks p op = none

/-- An announcement ends what is done about a report, and tells what comes of it. -/
def Announces (tracked : PeerId → Bool) (todo : List (Op Multiaddr)) : Prop :=
  todo = [] ∨ ∃ ops event, todo = ops ++ [.try_broadcast event] ∧ (∀ op ∈ ops, Prepares event op) ∧
    ∀ p connected, tells p event = some connected → latest (tracks p) (tracked p) todo = connected

/-- What is done until an announcement changes what it tells of, and nothing else. -/
theorem Announces.tracks_none {tracked : PeerId → Bool} {todo : List (Op Multiaddr)} (h : Announces tracked todo)
    {p : PeerId} (hsilent : ∀ event ∈ unsaid todo, tells p event = none) : ∀ op ∈ todo, tracks p op = none := by
  rcases h with rfl | ⟨ops, event, rfl, hops, _⟩
  · exact fun op hop => nomatch hop
  · have hevent : tells p event = none := hsilent event (by simp [unsaid])
    intro op hop
    cases List.mem_append.mp hop with
    | inl hbefore => exact (hops op hbefore).2 p hevent
    | inr hlast =>
      rw [List.mem_singleton.mp hlast]
      rfl

theorem Announces.latest_unsaid {tracked : PeerId → Bool} {todo : List (Op Multiaddr)} (h : Announces tracked todo)
    (p : PeerId) : latest (tracks p) (tracked p) todo = latest (tells p) (tracked p) (unsaid todo) := by
  rcases h with rfl | ⟨ops, event, heq, hops, hevent⟩
  · rfl
  · have hunsaid : unsaid todo = [event] := by
      have hbefore : unsaid ops = [] := by
        rw [unsaid, List.filterMap_eq_nil_iff]
        intro op hop
        cases op with
        | try_broadcast event' => exact absurd rfl ((hops _ hop).1 event')
        | store_add | store_remove | track | untrack | unregister | clear => rfl
      rw [heq, unsaid, List.filterMap_append]
      exact congrArg (· ++ [event]) hbefore
    cases htells : tells p event with
    | none =>
      have hsilent : ∀ event' ∈ unsaid todo, tells p event' = none := by
        rw [hunsaid]
        exact fun event' hmem => List.mem_singleton.mp hmem ▸ htells
      have hannounces : Announces tracked todo := .inr ⟨ops, event, heq, hops, hevent⟩
      rw [latest_none hsilent, latest_none (hannounces.tracks_none hsilent)]
    | some connected =>
      rw [hevent p connected htells, hunsaid, latest_cons, htells]
      rfl

variable [PublicAddress Multiaddr]

theorem handling_announces {allow_private_addresses : Bool} {pool : PeerId → Nat} {event : SwarmEvent Multiaddr}
    {ops : List (Op Multiaddr)} (h : Handling allow_private_addresses pool event ops) (tracked : PeerId → Bool) :
    Announces tracked ops := by
  have hgone : ∀ (q : PeerId), ∀ op ∈ ([.store_remove q, .untrack q, .unregister q] : List (Op Multiaddr)),
      Prepares (.PeerDisconnected q) op := by
    intro q op hop
    simp only [List.mem_cons, List.not_mem_nil, or_false] at hop
    rcases hop with rfl | rfl | rfl <;> simp [Prepares, tells, tracks]
  cases h with
  | nothing _ => exact .inl rfl
  | connected q stored _ _ =>
    right
    refine ⟨stored.map (.store_add q) ++ [.track q], .PeerConnected q, by simp, ?_, ?_⟩
    · intro op hop
      rw [List.mem_append, List.mem_map, List.mem_singleton] at hop
      rcases hop with ⟨_, _, rfl⟩ | rfl <;> simp [Prepares, tells, tracks]
    · intro p connected hconnected
      rw [latest_append, latest_stored]
      simp only [tells] at hconnected
      split at hconnected
      · next hq =>
        cases hconnected
        simp [latest, tracks, hq]
      · cases hconnected
  | disconnected q _ =>
    right
    refine ⟨[.untrack q, .unregister q], .PeerDisconnected q, rfl, ?_, ?_⟩
    · exact fun op hop => hgone q op (List.mem_cons_of_mem _ hop)
    · intro p connected hconnected
      simp only [tells] at hconnected
      split at hconnected
      · next hq =>
        cases hconnected
        simp [disconnect_peer, latest, tracks, hq]
      · cases hconnected
  | undialable q _ _ =>
    right
    refine ⟨[.store_remove q, .untrack q, .unregister q], .PeerDisconnected q, rfl, hgone q, ?_⟩
    intro p connected hconnected
    simp only [tells] at hconnected
    split at hconnected
    · next hq =>
      cases hconnected
      simp [disconnect_peer, latest, tracks, hq]
    · cases hconnected

variable [DecidableEq Multiaddr]

theorem announces_step {allow_private_addresses : Bool} {s s' : State Multiaddr} {a : Action Multiaddr}
    (h : Announces (fun p => decide (p ∈ s.tracker)) s.todo) (hstep : step allow_private_addresses s a = some s') :
    Announces (fun p => decide (p ∈ s'.tracker)) s'.todo := by
  cases a with
  | connect q endpoint =>
    cases hstep
    exact h
  | close q =>
    simp only [step] at hstep
    split at hstep
    · cases hstep
    · cases hstep
      exact h
  | dial_error peer =>
    cases hstep
    exact h
  | next =>
    simp only [step] at hstep
    split at hstep
    · cases hstep
      exact handling_announces (handling allow_private_addresses s.pool _) _
    · cases hstep
  | obtain_flag peer =>
    cases hstep
    exact h
  | work accepted =>
    simp only [step] at hstep
    split at hstep
    · next op rest htodo =>
      cases hstep
      have hsettled : ∀ p, settled p (perform accepted {s with todo := rest} op) = settled p s :=
        fun p => settled_perform p accepted htodo
      rcases h with hnil | ⟨ops, event, heq, hops, hevent⟩
      · rw [htodo] at hnil
        cases hnil
      cases ops with
      | nil =>
        -- It was the announcement.
        rw [htodo, List.nil_append, List.cons.injEq] at heq
        obtain ⟨rfl, rfl⟩ := heq
        exact .inl rfl
      | cons op' ops =>
        right
        rw [htodo, List.cons_append, List.cons.injEq] at heq
        obtain ⟨rfl, rfl⟩ := heq
        have hleft : ∀ op' ∈ ops, Prepares event op' := fun op' hmem => hops op' (List.mem_cons_of_mem _ hmem)
        rcases todo_perform accepted {s with todo := ops ++ [.try_broadcast event]} op with hsame | ⟨flag, hflag⟩
        · refine ⟨ops, event, hsame, hleft, ?_⟩
          intro p connected htells
          exact (hsettled p).trans (hevent p connected htells)
        · refine ⟨.clear flag :: ops, event, hflag, ?_, ?_⟩
          · intro op' hop
            cases List.mem_cons.mp hop with
            | inl hclear => exact hclear ▸ ⟨fun _ => by simp, fun _ _ => rfl⟩
            | inr hmem => exact hleft op' hmem
          · intro p connected htells
            exact (hsettled p).trans (hevent p connected htells)
    · cases hstep

end Announcements

/-! ### Following the announcements -/

section Following
variable {Multiaddr : Type}

/-- What was and will be announced since so many announcements, of what was taken up. -/
def told (since : Nat) (s : State Multiaddr) : List NetworkEvent :=
  (s.announced.drop since).map Prod.fst ++ unsaid s.todo

/-- What a receiver has got that subscribed after so many announcements. -/
def received (since : Nat) (s : State Multiaddr) : List NetworkEvent :=
  ((s.announced.drop since).filter Prod.snd).map Prod.fst

def follow (connected_peers : Finset PeerId) (events : List NetworkEvent) : Finset PeerId :=
  events.foldl (fun peers event =>
    match event with
    | .PeerConnected peer => insert peer peers
    | .PeerDisconnected peer => peers.erase peer) connected_peers

theorem mem_follow (p : PeerId) (connected_peers : Finset PeerId) (events : List NetworkEvent) :
    decide (p ∈ follow connected_peers events) = latest (tells p) (decide (p ∈ connected_peers)) events := by
  induction events generalizing connected_peers with
  | nil => rfl
  | cons event rest ih =>
    rw [latest_cons]
    refine (ih _).trans (congrArg (latest (tells p) · rest) ?_)
    cases event with
    | PeerConnected q =>
      by_cases hq : q = p
      · simp [tells, hq]
      · simp [tells, hq, Ne.symm hq]
    | PeerDisconnected q =>
      by_cases hq : q = p
      · simp [tells, hq]
      · simp [tells, hq, Ne.symm hq]

variable [DecidableEq Multiaddr]

theorem announced_perform (accepted : Bool) (s : State Multiaddr) (op : Op Multiaddr) :
    (s.perform accepted op).announced = s.announced ++ (unsaid [op]).map (·, accepted) ∧
      unsaid (s.perform accepted op).todo = unsaid s.todo := by
  constructor
  · cases op with
    | try_broadcast event => rfl
    | unregister q =>
      simp only [perform]
      split <;> exact (List.append_nil _).symm
    | store_add | store_remove | track | untrack | clear => exact (List.append_nil _).symm
  · rcases todo_perform accepted s op with hsame | ⟨flag, hflag⟩
    · rw [hsame]
    · rw [hflag]
      rfl

/-- Doing what is left changes nothing about what is told. -/
theorem told_perform (accepted : Bool) {s : State Multiaddr} {op : Op Multiaddr} {rest : List (Op Multiaddr)}
    (htodo : s.todo = op :: rest) {since : Nat} (hsince : since ≤ s.announced.length) :
    told since (perform accepted {s with todo := rest} op) = told since s := by
  have h := announced_perform accepted {s with todo := rest} op
  have hunsaid : unsaid s.todo = unsaid [op] ++ unsaid rest := by
    rw [htodo]
    exact List.filterMap_append (l := [op])
  rw [told, h.1, h.2, told, hunsaid, List.drop_append_of_le_length hsince, List.map_append, List.append_assoc,
    List.map_map, Function.comp_def, List.map_id']

end Following

section Steps
variable {Multiaddr : Type} {allow_private_addresses : Bool} {s₀ s s' : State Multiaddr} {a : Action Multiaddr}

/-- What was told since some state, and what it tells. -/
structure Known (s₀ s : State Multiaddr) : Prop where
  since : s₀.announced <+: s.announced
  announces : Announces (fun p => decide (p ∈ s.tracker)) s.todo
  settled : ∀ p, settled p s = latest (tells p) (settled p s₀) (told s₀.announced.length s)
  silent : ∀ p, (∀ event ∈ told s₀.announced.length s, tells p event = none) →
    decide (p ∈ s.tracker) = decide (p ∈ s₀.tracker)

theorem Known.refl (h : Announces (fun p => decide (p ∈ s₀.tracker)) s₀.todo) : Known s₀ s₀ := by
  refine ⟨List.prefix_rfl, h, fun p => ?_, fun _ _ => rfl⟩
  have htold : told s₀.announced.length s₀ = unsaid s₀.todo := by simp [told]
  rw [htold, Tracking.settled, h.latest_unsaid p, latest_again]

variable [DecidableEq Multiaddr] [PublicAddress Multiaddr]

theorem announced_step (hstep : step allow_private_addresses s a = some s') : s.announced <+: s'.announced := by
  cases a with
  | work accepted =>
    simp only [step] at hstep
    split at hstep
    · next op rest _ =>
      cases hstep
      rw [(announced_perform accepted {s with todo := rest} op).1]
      exact List.prefix_append _ _
    · cases hstep
  | close | next =>
    simp only [step] at hstep
    split at hstep <;> cases hstep
    exact List.prefix_rfl
  | connect | dial_error | obtain_flag =>
    cases hstep
    exact List.prefix_rfl

/-- A step either does what is left, or takes up something when nothing is left. -/
theorem told_step {since : Nat} (hsince : since ≤ s.announced.length)
    (hstep : step allow_private_addresses s a = some s') :
    (told since s' = told since s ∧ ∀ p, settled p s' = settled p s) ∨
      s.todo = [] ∧ s'.announced = s.announced ∧ s'.tracker = s.tracker := by
  cases a with
  | work accepted =>
    simp only [step] at hstep
    split at hstep
    · next op rest htodo =>
      cases hstep
      exact .inl ⟨told_perform accepted htodo hsince, fun p => settled_perform p accepted htodo⟩
    · cases hstep
  | next =>
    simp only [step] at hstep
    split at hstep
    · next htodo _ =>
      cases hstep
      exact .inr ⟨htodo, rfl, rfl⟩
    · cases hstep
  | close =>
    simp only [step] at hstep
    split at hstep <;> cases hstep
    exact .inl ⟨rfl, fun _ => rfl⟩
  | connect | dial_error | obtain_flag =>
    cases hstep
    exact .inl ⟨rfl, fun _ => rfl⟩

theorem told_mono {since : Nat} (hsince : since ≤ s.announced.length)
    (hstep : step allow_private_addresses s a = some s') : told since s <+: told since s' := by
  rcases told_step hsince hstep with ⟨hsame, -⟩ | ⟨htodo, hannounced, -⟩
  · rw [hsame]
  · simp [told, htodo, hannounced, unsaid]

/-- Where no announcement about a peer is due, it is tracked as it was. -/
theorem tracker_step (h : Announces (fun p => decide (p ∈ s.tracker)) s.todo) {p : PeerId}
    (hsilent : ∀ event ∈ unsaid s.todo, tells p event = none) (hstep : step allow_private_addresses s a = some s') :
    decide (p ∈ s'.tracker) = decide (p ∈ s.tracker) := by
  cases a with
  | work accepted =>
    simp only [step] at hstep
    split at hstep
    · next op rest htodo =>
      cases hstep
      rw [tracker_perform, h.tracks_none hsilent op (htodo ▸ List.mem_cons_self)]
      rfl
    · cases hstep
  | close | next =>
    simp only [step] at hstep
    split at hstep <;> cases hstep
    rfl
  | connect | dial_error | obtain_flag =>
    cases hstep
    rfl

theorem known_step (h : Known s₀ s) (hstep : step allow_private_addresses s a = some s') : Known s₀ s' := by
  have hsince := h.since.length_le
  have hannounces := announces_step h.announces hstep
  refine ⟨h.since.trans (announced_step hstep), hannounces, fun p => ?_, fun p hsilent => ?_⟩
  · rcases told_step hsince hstep with ⟨htold, hsettled⟩ | ⟨htodo, hannounced, htracker⟩
    · rw [hsettled, htold, h.settled]
    · have hbefore := h.settled p
      have htold : told s₀.announced.length s' = told s₀.announced.length s ++ unsaid s'.todo := by
        simp [told, htodo, hannounced, unsaid]
      rw [htold, latest_append, ← hbefore, Tracking.settled, hannounces.latest_unsaid p, Tracking.settled, htodo,
        latest_nil, htracker]
  · have hold : ∀ event ∈ told s₀.announced.length s, tells p event = none :=
      fun event hmem => hsilent event ((told_mono hsince hstep).subset hmem)
    have hdue : ∀ event ∈ unsaid s.todo, tells p event = none :=
      fun event hmem => hold event (List.mem_append_right _ hmem)
    exact (tracker_step h.announces hdue hstep).trans (h.silent p hold)

end Steps

section Announcements
variable {Multiaddr : Type} [DecidableEq Multiaddr] [PublicAddress Multiaddr]

/-- Whoever subscribes at some time, sees of each peer whether it is connected at some later time, and applies what he
receives until the loop is done with a report, knows who is connected. -/
theorem followed_of_run {allow_private_addresses : Bool} {me : PeerId} {my_addresses : Finset Multiaddr}
    {earlier later : List (Action Multiaddr)} {s s' : State Multiaddr} {seen : Finset PeerId}
    (hsubscribe : (machine Multiaddr allow_private_addresses).run (.new me my_addresses) earlier = some s)
    (hfollow : (machine Multiaddr allow_private_addresses).run s later = some s')
    (hseen : ∀ p, ∃ before after m, later = before ++ after ∧
      (machine Multiaddr allow_private_addresses).run s before = some m ∧ (p ∈ seen ↔ p ∈ m.connected_peers))
    (haccepted : ∀ announcement ∈ s'.announced.drop s.announced.length, announcement.2 = true)
    (hdone : s'.todo = []) : follow seen (received s.announced.length s') = s'.connected_peers := by
  have hstart : Announces (fun p => decide (p ∈ s.tracker)) s.todo :=
    Machine.run_invariant_of_step _ (I := fun s => Announces (fun p => decide (p ∈ s.tracker)) s.todo)
      (fun _ _ _ => announces_step) hsubscribe (.inl rfl)
  have hknown : ∀ {s₀ s : State Multiaddr} {actions},
      Announces (fun p => decide (p ∈ s₀.tracker)) s₀.todo →
        (machine Multiaddr allow_private_addresses).run s₀ actions = some s → Known s₀ s :=
    fun h hrun => Machine.run_invariant_of_step _ (fun _ _ _ => known_step) hrun (.refl h)
  have hend := hknown hstart hfollow
  have htold : told s.announced.length s' = received s.announced.length s' := by
    rw [told, hdone, received, List.filter_eq_self.mpr haccepted]
    exact List.append_nil _
  ext p
  obtain ⟨before, after, m, rfl, hbefore, hp⟩ := hseen p
  obtain ⟨m', hm', hafter⟩ := (Machine.run_append _).mp hfollow
  obtain rfl : m' = m := Option.some.inj (hm'.symm.trans hbefore)
  have hmiddle := hknown hstart hbefore
  have hlast := hknown hmiddle.announces hafter
  have hsettled := hend.settled p
  rw [Tracking.settled, hdone, latest_nil, htold] at hsettled
  rw [← decide_eq_decide, mem_follow]
  rcases latest_cases (tells p) (received s.announced.length s') with hsilent | hany
  · -- Nothing was announced about the peer, neither before nor after it was seen.
    have hrest : ∀ event ∈ told m'.announced.length s', tells p event = none := by
      intro event hmem
      refine hsilent event (htold ▸ ?_)
      rw [told, hdone] at hmem ⊢
      obtain ⟨announcement, hdrop, rfl⟩ := List.mem_map.mp ((List.append_nil _).symm ▸ hmem)
      refine List.mem_append_left _ (List.mem_map_of_mem ?_)
      exact (List.drop_subset_drop_left _ hmiddle.since.length_le) hdrop
    rw [latest_none hsilent, decide_eq_decide.mpr hp]
    exact (hlast.silent p hrest).symm
  · exact (hany _ _).trans hsettled.symm

end Announcements

section Concrete
open Swarm (Ip4)

/-- A peer that was seen while its connection was being announced is gone at the end, and another is there. -/
theorem followed_of_run_replaced :
    let later : List (Action Ip4) := [.connect ⟨[1]⟩ (.Dialer ⟨8, 8, 8, 8⟩), .next, .work true, .work true, .close ⟨[1]⟩,
      .connect ⟨[2]⟩ (.Listener ⟨10, 0, 0, 1⟩), .work true, .next, .work true, .work true, .work true, .next,
      .work true, .work true]
    ∃ s : State Ip4, (machine Ip4 false).run (.new ⟨[0]⟩ ∅) later = some s ∧ s.connected_peers = {⟨[2]⟩} ∧
      follow {⟨[1]⟩} (received 0 s) = s.connected_peers := by
  intro later
  obtain ⟨m, hm, hseen⟩ : ∃ m : State Ip4, (machine Ip4 false).run (.new ⟨[0]⟩ ∅) (later.take 5) = some m ∧
      m.connected_peers = {⟨[1]⟩} := (machine _ _).exists_run (by decide +kernel)
  obtain ⟨s, hrun, hconnected, haccepted, hdone⟩ : ∃ s : State Ip4,
      (machine Ip4 false).run (.new ⟨[0]⟩ ∅) later = some s ∧ s.connected_peers = {⟨[2]⟩} ∧
        (∀ announcement ∈ s.announced.drop 0, announcement.2 = true) ∧ s.todo.isEmpty :=
    (machine _ _).exists_run (by decide +kernel)
  have hstart : (machine Ip4 false).run (.new ⟨[0]⟩ ∅) [] = some (.new ⟨[0]⟩ ∅) := rfl
  refine ⟨s, hrun, hconnected, followed_of_run hstart hrun ?_ haccepted (List.isEmpty_iff.mp hdone)⟩
  intro p
  exact ⟨later.take 5, later.drop 5, m, rfl, hm, by rw [hseen]⟩

end Concrete

end Hopr.Transport.Announcements
