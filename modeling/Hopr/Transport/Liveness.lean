import Hopr.Transport.Network
import Hopr.Transport.Swarm

/-! Streams end with the connection.

A stream shares its flag with the registry, and the loop clears the flags of a peer
when its last connection is gone. Once that is worked off, every stream that was there
when the connection went down aborts (`aborted_of_closed`); and a stream that was
obtained when no end of a connection was left to work off passes everything on for as
long as the peer has a connection (`alive_of_connected`), whatever else happens to it
and to other peers. -/
namespace Hopr.Transport.Liveness
open Library Discovery Network Network.State

section Liveness
variable {Multiaddr : Type}

/-- The report that the last connection of a peer is gone. -/
def fell (p : PeerId) : SwarmEvent Multiaddr := .ConnectionClosed p 0

end Liveness

/-! ### What a step does about flags -/

section Flags
variable {Multiaddr : Type}

inductive Change (s s' : State Multiaddr) : Prop
  /-- It does nothing about them. -/
  | reported : s'.liveness = s.liveness → s'.streams = s.streams →
      (∀ p, .unregister p ∈ s'.todo ↔ .unregister p ∈ s.todo) → (∀ flag, .clear flag ∈ s'.todo ↔ .clear flag ∈ s.todo) →
      (∀ p, fell p ∈ s.pending → fell p ∈ s'.pending) →
      (∀ p, fell p ∈ s'.pending → fell p ∈ s.pending ∨ s'.pool p = 0) → Change s s'
  /-- It takes up a report. -/
  | taken (event : SwarmEvent Multiaddr) : s'.liveness = s.liveness → s'.streams = s.streams → s.todo = [] →
      s.pending = event :: s'.pending →
      (∀ p, .unregister p ∈ s'.todo ↔ event = fell p ∨ event = .OutgoingConnectionError (some p) ∧ s.pool p = 0) →
      (∀ flag, .clear flag ∉ s'.todo) → Change s s'
  /-- It takes the entry of a peer. -/
  | took (p : PeerId) (flag : Nat) (rest : List (Op Multiaddr)) :
      s'.liveness = {s.liveness with entries := s.liveness.entries.erase p} → s'.streams = s.streams →
      s.liveness.entries.lookup p = some flag → s.todo = .unregister p :: rest → s'.todo = .clear flag :: rest →
      s'.pending = s.pending → Change s s'
  /-- A peer has no entry to take. -/
  | nobody (p : PeerId) : s'.liveness = s.liveness → s'.streams = s.streams → s.liveness.entries.lookup p = none →
      s.todo = .unregister p :: s'.todo → s'.pending = s.pending → Change s s'
  | cleared (flag : Nat) : s'.liveness = {s.liveness with flags := s.liveness.flags.set flag false} →
      s'.streams = s.streams → s.todo = .clear flag :: s'.todo → s'.pending = s.pending → Change s s'
  | obtained (p : PeerId) : s'.liveness = (s.liveness.get_or_create_connected p).2 →
      s'.streams = s.streams ++ [⟨p, (s.liveness.get_or_create_connected p).1⟩] → s'.todo = s.todo →
      s'.pending = s.pending → Change s s'

/-- One more event is reported. -/
theorem change_of_report {s s' : State Multiaddr} (event : SwarmEvent Multiaddr) (hliveness : s'.liveness = s.liveness)
    (hstreams : s'.streams = s.streams) (htodo : s'.todo = s.todo) (hpending : s'.pending = s.pending ++ [event])
    (hfell : ∀ p, event = fell p → s'.pool p = 0) : Change s s' := by
  refine .reported hliveness hstreams (fun _ => by rw [htodo]) (fun _ => by rw [htodo]) ?_ ?_
  · intro p h
    rw [hpending]
    exact List.mem_append_left _ h
  · intro p h
    rw [hpending] at h
    exact (List.mem_append.mp h).imp_right fun hlast => hfell p (List.mem_singleton.mp hlast).symm

variable [PublicAddress Multiaddr]

theorem unregister_handle (p : PeerId) (allow_private_addresses : Bool) (pool : PeerId → Nat)
    (event : SwarmEvent Multiaddr) : .unregister p ∈ handle allow_private_addresses pool event ↔
      event = fell p ∨ event = .OutgoingConnectionError (some p) ∧ pool p = 0 := by
  cases event with
  | ConnectionEstablished q num_established endpoint =>
    simp only [handle]
    split
    · cases endpoint <;> dsimp only <;> split <;> simp [fell]
    · simp [fell]
  | ConnectionClosed q num_established =>
    simp only [handle, fell]
    split
    · next hlast => simp [disconnect_peer, hlast, eq_comm]
    · next hmore => simp [hmore]
  | OutgoingConnectionError peer =>
    cases peer with
    | none => simp [handle, fell]
    | some q =>
      simp only [handle, fell]
      split
      · next hlive =>
        simp only [disconnect_peer, List.mem_cons, reduceCtorEq, Op.unregister.injEq, List.not_mem_nil, or_false,
          false_or, SwarmEvent.OutgoingConnectionError.injEq, Option.some.injEq]
        exact ⟨fun h => ⟨h.symm, h ▸ hlive⟩, fun h => h.1.symm⟩
      · next hlive =>
        simp only [List.not_mem_nil, reduceCtorEq, SwarmEvent.OutgoingConnectionError.injEq, Option.some.injEq,
          false_or, false_iff, not_and]
        exact fun h => h ▸ hlive

theorem clear_handle (flag : Nat) (allow_private_addresses : Bool) (pool : PeerId → Nat)
    (event : SwarmEvent Multiaddr) : .clear flag ∉ handle allow_private_addresses pool event := by
  cases event with
  | ConnectionEstablished q num_established endpoint =>
    simp only [handle]
    split
    · cases endpoint <;> dsimp only <;> split <;> simp
    · simp
  | ConnectionClosed q num_established =>
    simp only [handle, disconnect_peer]
    split <;> simp
  | OutgoingConnectionError peer =>
    cases peer with
    | none => simp [handle]
    | some q =>
      simp only [handle, disconnect_peer]
      split <;> simp

variable [DecidableEq Multiaddr]

theorem change_of_step {allow_private_addresses : Bool} {s s' : State Multiaddr} {a : Action Multiaddr}
    (hstep : step allow_private_addresses s a = some s') : Change s s' := by
  cases a with
  | connect q endpoint =>
    cases hstep
    exact change_of_report (.ConnectionEstablished q _ endpoint) rfl rfl rfl rfl fun _ heq => by cases heq
  | close q =>
    simp only [step] at hstep
    split at hstep
    · cases hstep
    · cases hstep
      refine change_of_report (.ConnectionClosed q _) rfl rfl rfl rfl fun p heq => ?_
      -- The report is made when the pool has no connection left.
      simp only [fell, SwarmEvent.ConnectionClosed.injEq] at heq
      obtain ⟨rfl, hlast⟩ := heq
      show Function.update s.pool q (s.pool q - 1) q = 0
      rw [Function.update_self, hlast]
  | dial_error peer =>
    cases hstep
    exact change_of_report (.OutgoingConnectionError peer) rfl rfl rfl rfl fun _ heq => by cases heq
  | next =>
    simp only [step] at hstep
    split at hstep
    · next event rest htodo hpending =>
      cases hstep
      exact .taken event rfl rfl htodo hpending (fun p => unregister_handle p _ _ event)
        (fun flag => clear_handle flag _ _ event)
    · cases hstep
  | obtain_flag q =>
    cases hstep
    exact .obtained q rfl rfl rfl rfl
  | work accepted =>
    simp only [step] at hstep
    split at hstep
    · next op rest htodo =>
      cases hstep
      cases op with
      | unregister q =>
        simp only [perform]
        split
        · next flag hflag => exact .took q flag rest rfl rfl hflag htodo rfl rfl
        · next hnone => exact .nobody q rfl rfl hnone htodo rfl
      | clear flag => exact .cleared flag rfl rfl htodo rfl
      | store_add | store_remove | track | untrack | try_broadcast =>
        exact .reported rfl rfl (by simp [htodo, perform]) (by simp [htodo, perform]) (fun _ => id) (fun _ => .inl)
    · cases hstep

end Flags

/-! ### The registry and the streams -/

section Registry
variable {Multiaddr : Type}

/-- A flag is cleared, or will be without anything more to be found out. -/
def Cut (flag : Nat) (s : State Multiaddr) : Prop := .clear flag ∈ s.todo ∨ s.liveness.flags.cell flag = false

/-- The flags of the registry are set and those of all other streams are cut. -/
structure Registered (s : State Multiaddr) : Prop where
  named : s.liveness.flags.Named s.liveness.entries
  live : ∀ {p flag}, s.liveness.entries.lookup p = some flag → ¬Cut flag s
  clearing : ∀ {flag}, .clear flag ∈ s.todo → flag < s.liveness.flags.next
  streams : ∀ stream ∈ s.streams, stream.alive < s.liveness.flags.next
  held : ∀ stream ∈ s.streams, s.liveness.entries.lookup stream.peer = some stream.alive ∨ Cut stream.alive s

theorem registered_new (me : PeerId) (my_addresses : Finset Multiaddr) : Registered (.new me my_addresses) :=
  ⟨Heap.named_empty _, (fun h => nomatch h), (fun h => nomatch h), (fun _ h => nomatch h), (fun _ h => nomatch h)⟩

end Registry

section Changes
variable {Multiaddr : Type} {s s' : State Multiaddr}

/-- A cut is not undone. -/
theorem Change.cut (hchange : Change s s') {flag : Nat} (hlt : flag < s.liveness.flags.next) (h : Cut flag s) :
    Cut flag s' := by
  cases hchange with
  | reported hliveness _ _ hclear _ _ =>
    rw [Cut, hclear, hliveness]
    exact h
  | taken event hliveness _ htodo _ _ _ =>
    rw [Cut, htodo] at h
    rw [Cut, hliveness]
    exact .inr (h.resolve_left List.not_mem_nil)
  | took p flag' rest hliveness _ _ htodo htodo' _ =>
    rw [Cut, htodo] at h
    rw [Cut, htodo', hliveness]
    refine h.imp_left fun hmem => List.mem_cons_of_mem _ ?_
    simpa using hmem
  | nobody p hliveness _ _ htodo _ =>
    rw [Cut, htodo] at h
    rw [Cut, hliveness]
    refine h.imp_left fun hmem => ?_
    simpa using hmem
  | cleared flag' hliveness _ htodo _ =>
    rw [Cut, htodo] at h
    rw [Cut, hliveness]
    by_cases heq : flag = flag'
    · subst heq
      exact .inr (Heap.cell_set_self ..)
    · refine h.imp (fun hmem => ?_) (fun hcell => (Heap.cell_set_ne heq ..).trans hcell)
      cases List.mem_cons.mp hmem with
      | inl h => cases h; exact absurd rfl heq
      | inr h => exact h
  | obtained p hliveness _ htodo _ =>
    rw [Cut, htodo, hliveness]
    refine h.imp_right fun hcell => ?_
    unfold LivenessRegistry.get_or_create_connected
    split
    · exact hcell
    · exact (Heap.cell_alloc_lt _ hlt).trans hcell

/-- A flag is cut when its entry is taken. -/
theorem Change.cut_of_cut (hchange : Change s s') {flag : Nat} (hlt : flag < s.liveness.flags.next)
    (h : Cut flag s') : Cut flag s ∨ ∃ p, .unregister p ∈ s.todo ∧ s.liveness.entries.lookup p = some flag ∧
      s'.liveness.entries.lookup p = none := by
  cases hchange with
  | reported hliveness _ _ hclear _ _ =>
    rw [Cut, hclear, hliveness] at h
    exact .inl h
  | taken event hliveness _ _ _ _ hclear =>
    rw [Cut, hliveness] at h
    exact .inl (.inr (h.resolve_left (hclear flag)))
  | took p flag' rest hliveness _ hlookup htodo htodo' _ =>
    rw [Cut, htodo', hliveness] at h
    rcases h with hmem | hcell
    · cases List.mem_cons.mp hmem with
      | inl heq =>
        cases heq
        right
        rw [htodo, hliveness]
        exact ⟨p, List.mem_cons_self, hlookup, AList.lookup_erase ..⟩
      | inr hmem => exact .inl (.inl (htodo ▸ List.mem_cons_of_mem _ hmem))
    · exact .inl (.inr hcell)
  | nobody p hliveness _ _ htodo _ =>
    rw [Cut, hliveness] at h
    exact .inl (h.imp_left fun hmem => htodo ▸ List.mem_cons_of_mem _ hmem)
  | cleared flag' hliveness _ htodo _ =>
    rw [Cut, hliveness] at h
    left
    rcases h with hmem | hcell
    · exact .inl (htodo ▸ List.mem_cons_of_mem _ hmem)
    · by_cases heq : flag = flag'
      · exact .inl (htodo ▸ heq ▸ List.mem_cons_self)
      · exact .inr ((Heap.cell_set_ne heq ..).symm.trans hcell)
  | obtained p hliveness _ htodo _ =>
    rw [Cut, htodo, hliveness] at h
    refine .inl (h.imp_right fun hcell => ?_)
    unfold LivenessRegistry.get_or_create_connected at hcell
    split at hcell
    · exact hcell
    · exact (Heap.cell_alloc_lt _ hlt).symm.trans hcell

/-- The entry of a peer is made when it has none, and taken when its flag is to be cleared. -/
theorem Change.lookup (hchange : Change s s') (p : PeerId) :
    s'.liveness.entries.lookup p = s.liveness.entries.lookup p ∨
      (∃ flag rest, s.liveness.entries.lookup p = some flag ∧ s.todo = .unregister p :: rest ∧
        s'.liveness.entries.lookup p = none ∧ .clear flag ∈ s'.todo) ∨
      (s.liveness.entries.lookup p = none ∧ s'.liveness.entries.lookup p = some s.liveness.flags.next ∧
        s'.todo = s.todo ∧ s'.liveness.flags = (s.liveness.flags.alloc true).2) := by
  cases hchange with
  | reported hliveness | taken _ hliveness | nobody _ hliveness | cleared _ hliveness =>
    left
    rw [hliveness]
  | took q flag rest hliveness _ hlookup htodo htodo' _ =>
    rw [hliveness, htodo']
    by_cases hq : p = q
    · subst hq
      exact .inr (.inl ⟨flag, rest, hlookup, htodo, AList.lookup_erase .., List.mem_cons_self⟩)
    · exact .inl (AList.lookup_erase_ne hq)
  | obtained q hliveness _ htodo _ =>
    rw [hliveness]
    unfold LivenessRegistry.get_or_create_connected
    split
    · exact .inl rfl
    · next hnone =>
      by_cases hq : p = q
      · subst hq
        exact .inr (.inr ⟨hnone, AList.lookup_insert _, htodo, rfl⟩)
      · exact .inl (AList.lookup_insert_ne hq)

theorem Change.next_le (hchange : Change s s') : s.liveness.flags.next ≤ s'.liveness.flags.next := by
  cases hchange with
  | reported hliveness | taken _ hliveness | took _ _ _ hliveness | nobody _ hliveness => rw [hliveness]
  | cleared _ hliveness =>
    rw [hliveness]
    exact Nat.le_refl _
  | obtained p hliveness =>
    rw [hliveness]
    unfold LivenessRegistry.get_or_create_connected
    split
    · exact Nat.le_refl _
    · exact Nat.le_succ _

/-- A new stream has the flag of its peer. -/
theorem Change.streams (hchange : Change s s') {stream : LivenessStream} (h : stream ∈ s'.streams) :
    stream ∈ s.streams ∨ s'.liveness.entries.lookup stream.peer = some stream.alive := by
  cases hchange with
  | reported _ hstreams | taken _ _ hstreams | took _ _ _ _ hstreams | nobody _ _ hstreams | cleared _ _ hstreams =>
    exact .inl (hstreams ▸ h)
  | obtained p hliveness hstreams =>
    rw [hstreams] at h
    rcases List.mem_append.mp h with h | h
    · exact .inl h
    · right
      rw [List.mem_singleton.mp h, hliveness]
      unfold LivenessRegistry.get_or_create_connected
      split
      · next hflag => exact hflag
      · exact AList.lookup_insert _

theorem Change.named (hchange : Change s s') (h : s.liveness.flags.Named s.liveness.entries) :
    s'.liveness.flags.Named s'.liveness.entries := by
  cases hchange with
  | reported hliveness | taken _ hliveness | nobody _ hliveness =>
    rw [hliveness]
    exact h
  | took p _ _ hliveness =>
    rw [hliveness]
    exact h.erase p
  | cleared flag hliveness =>
    rw [hliveness]
    exact h.set flag false
  | obtained p hliveness =>
    rw [hliveness]
    unfold LivenessRegistry.get_or_create_connected
    split
    · exact h
    · exact h.alloc p true

/-- A flag that is to be cleared was given out. -/
theorem Change.clearing (hchange : Change s s') (h : Registered s) {flag : Nat} (hflag : .clear flag ∈ s'.todo) :
    flag < s.liveness.flags.next := by
  cases hchange with
  | reported _ _ _ hclear => exact h.clearing ((hclear flag).mp hflag)
  | taken _ _ _ _ _ _ hclear => exact absurd hflag (hclear flag)
  | took p flag' rest _ _ hlookup htodo htodo' _ =>
    rw [htodo'] at hflag
    cases List.mem_cons.mp hflag with
    | inl heq =>
      cases heq
      exact h.named.allocated hlookup
    | inr hmem => exact h.clearing (htodo ▸ List.mem_cons_of_mem _ hmem)
  | nobody _ _ _ _ htodo | cleared _ _ _ htodo => exact h.clearing (htodo ▸ List.mem_cons_of_mem _ hflag)
  | obtained _ _ _ htodo => exact h.clearing (htodo ▸ hflag)

theorem Change.registered (hchange : Change s s') (h : Registered s) : Registered s' := by
  have hnamed := hchange.named h.named
  refine ⟨hnamed, ?_, ?_, ?_, ?_⟩
  · intro p flag hlookup hcut
    have hfresh : s.liveness.entries.lookup p = some flag → False := by
      intro hold
      rcases hchange.cut_of_cut (h.named.allocated hold) hcut with hcut | ⟨q, -, hq, hgone⟩
      · exact h.live hold hcut
      · cases h.named.distinct hold hq
        rw [hgone] at hlookup
        cases hlookup
    rcases hchange.lookup p with heq | ⟨_, _, _, _, hgone, _⟩ | ⟨_, hnew, htodo, hflags⟩
    · exact hfresh (heq ▸ hlookup)
    · rw [hgone] at hlookup
      cases hlookup
    · cases hnew.symm.trans hlookup
      rw [Cut, htodo, hflags, Heap.cell_alloc_self] at hcut
      exact hcut.elim (fun hmem => Nat.lt_irrefl _ (h.clearing hmem)) (fun hcell => nomatch hcell)
  · exact fun hflag => Nat.lt_of_lt_of_le (hchange.clearing h hflag) hchange.next_le
  · intro stream hstream
    rcases hchange.streams hstream with hold | hlookup
    · exact Nat.lt_of_lt_of_le (h.streams stream hold) hchange.next_le
    · exact hnamed.allocated hlookup
  · intro stream hstream
    rcases hchange.streams hstream with hold | hlookup
    · rcases h.held stream hold with hlookup | hcut
      · rcases hchange.lookup stream.peer with heq | ⟨flag, _, hflag, _, _, hclear⟩ | ⟨hnone, _⟩
        · exact .inl (heq.trans hlookup)
        · cases hflag.symm.trans hlookup
          exact .inr (.inl hclear)
        · cases hnone.symm.trans hlookup
      · exact .inr (hchange.cut (h.streams stream hold) hcut)
    · exact .inl hlookup

theorem Change.streams_mono (hchange : Change s s') : s.streams ⊆ s'.streams := by
  cases hchange with
  | reported _ hstreams | taken _ _ hstreams | took _ _ _ _ hstreams | nobody _ _ hstreams | cleared _ _ hstreams =>
    rw [hstreams]
    exact List.Subset.refl _
  | obtained p hliveness hstreams =>
    rw [hstreams]
    exact List.subset_append_left _ _

end Changes

/-! ### The end of a connection -/

section Ends
variable {Multiaddr : Type}

/-- The entry of the peer will be taken. -/
def Ending (p : PeerId) (s : State Multiaddr) : Prop := .unregister p ∈ s.todo ∨ fell p ∈ s.pending

variable {s s' : State Multiaddr} {stream : LivenessStream}

theorem Change.ending (hchange : Change s s') {p : PeerId} {flag : Nat} (h : Ending p s)
    (hlookup : s.liveness.entries.lookup p = some flag) (hlookup' : s'.liveness.entries.lookup p = some flag) :
    Ending p s' := by
  cases hchange with
  | reported _ _ hunregister _ hfell _ => exact h.imp (hunregister p).mpr (hfell p)
  | taken event _ _ htodo hpending hunregister _ =>
    rw [Ending, htodo, hpending] at h
    cases List.mem_cons.mp (h.resolve_left List.not_mem_nil) with
    | inl heq => exact .inl ((hunregister p).mpr (.inl heq.symm))
    | inr hmem => exact .inr hmem
  | took q _ rest hliveness _ _ htodo htodo' hpending =>
    rw [Ending, htodo] at h
    rw [Ending, htodo', hpending]
    refine h.imp_left fun hmem => List.mem_cons_of_mem _ ?_
    cases List.mem_cons.mp hmem with
    | inl heq =>
      -- Its own entry is not there after that.
      cases heq
      rw [hliveness, AList.lookup_erase] at hlookup'
      cases hlookup'
    | inr hmem => exact hmem
  | nobody q _ _ hnone htodo hpending =>
    rw [Ending, htodo] at h
    rw [Ending, hpending]
    refine h.imp_left fun hmem => ?_
    cases List.mem_cons.mp hmem with
    | inl heq =>
      cases heq
      cases hnone.symm.trans hlookup
    | inr hmem => exact hmem
  | cleared flag' _ _ htodo hpending =>
    rw [Ending, htodo] at h
    rw [Ending, hpending]
    refine h.imp_left fun hmem => ?_
    simpa using hmem
  | obtained q _ _ htodo hpending =>
    rw [Ending, htodo, hpending]
    exact h

/-- The connection of a stream has ended, whether or not that is worked off. -/
structure Ended (stream : LivenessStream) (s : State Multiaddr) : Prop where
  registered : Registered s
  obtained : stream ∈ s.streams
  ending : s.liveness.entries.lookup stream.peer = some stream.alive → Ending stream.peer s

theorem Change.ended (hchange : Change s s') (h : Ended stream s) : Ended stream s' := by
  refine ⟨hchange.registered h.registered, hchange.streams_mono h.obtained, fun hlookup => ?_⟩
  rcases hchange.lookup stream.peer with heq | ⟨_, _, _, _, hgone, _⟩ | ⟨_, hnew, _, _⟩
  · have hold := heq.symm.trans hlookup
    exact hchange.ending (h.ending hold) hold hlookup
  · cases hgone.symm.trans hlookup
  · -- The flag of a stream that is there is not given out again.
    have hlt := h.registered.streams stream h.obtained
    rw [Option.some.inj (hnew.symm.trans hlookup)] at hlt
    exact absurd hlt (Nat.lt_irrefl _)

/-- A stream is with the registry, and nothing that takes its entry is due while its peer has a connection. -/
structure Linked (stream : LivenessStream) (s : State Multiaddr) : Prop where
  registered : Registered s
  lookup : s.liveness.entries.lookup stream.peer = some stream.alive
  todo : .unregister stream.peer ∉ s.todo
  pending : fell stream.peer ∈ s.pending → s.pool stream.peer = 0

theorem Change.linked (hchange : Change s s') (h : Linked stream s) (hpool : 0 < s.pool stream.peer) :
    Linked stream s' := by
  have hnever : fell stream.peer ∉ s.pending := fun hmem => Nat.ne_of_gt hpool (h.pending hmem)
  refine ⟨hchange.registered h.registered, ?_, ?_, ?_⟩
  · rcases hchange.lookup stream.peer with heq | ⟨_, _, _, htodo, _, _⟩ | ⟨hnone, _⟩
    · exact heq.trans h.lookup
    · exact absurd (htodo ▸ List.mem_cons_self) h.todo
    · cases hnone.symm.trans h.lookup
  · intro hmem
    cases hchange with
    | reported _ _ hunregister => exact h.todo ((hunregister _).mp hmem)
    | taken event _ _ _ hpending hunregister =>
      rcases (hunregister _).mp hmem with rfl | ⟨_, hnone⟩
      · exact hnever (hpending ▸ List.mem_cons_self)
      · exact Nat.ne_of_gt hpool hnone
    | took _ _ rest _ _ _ htodo htodo' =>
      have hrest : .unregister stream.peer ∈ rest := by simpa [htodo'] using hmem
      exact h.todo (htodo ▸ List.mem_cons_of_mem _ hrest)
    | nobody _ _ _ _ htodo | cleared _ _ _ htodo => exact h.todo (htodo ▸ List.mem_cons_of_mem _ hmem)
    | obtained _ _ _ htodo => exact h.todo (htodo ▸ hmem)
  · intro hmem
    cases hchange with
    | reported _ _ _ _ _ hfell => exact (hfell _ hmem).resolve_left hnever
    | taken _ _ _ _ hpending => exact absurd (hpending ▸ List.mem_cons_of_mem _ hmem) hnever
    | took _ _ _ _ _ _ _ _ hpending | nobody _ _ _ _ _ hpending | cleared _ _ _ _ hpending
    | obtained _ _ _ _ hpending => exact absurd (hpending ▸ hmem) hnever

end Ends

/-! ### Over runs -/

section Runs
variable {Multiaddr : Type} [PublicAddress Multiaddr] [DecidableEq Multiaddr] {allow_private_addresses : Bool}
  {me : PeerId} {my_addresses : Finset Multiaddr}

theorem registered_of_run {actions : List (Action Multiaddr)} {s : State Multiaddr}
    (hrun : (machine Multiaddr allow_private_addresses).run (.new me my_addresses) actions = some s) : Registered s :=
  Machine.run_invariant_of_step _ (I := Registered)
    (fun _ _ _ h (hstep : step allow_private_addresses _ _ = _) => (change_of_step hstep).registered h) hrun
    (registered_new me my_addresses)

/-- When the last connection to a peer goes down, every stream over it is aborted as soon as no end of a connection
to the peer is left to work off, even if it is connected again by then. -/
theorem aborted_of_closed {before after : List (Action Multiaddr)} {s m t : State Multiaddr} {p : PeerId}
    (hbefore : (machine Multiaddr allow_private_addresses).run (.new me my_addresses) before = some s)
    (hlast : s.pool p = 1) (hclose : step allow_private_addresses s (.close p) = some m)
    (hafter : (machine Multiaddr allow_private_addresses).run m after = some t)
    {stream : LivenessStream} (hstream : stream ∈ s.streams) (hpeer : stream.peer = p)
    (hending : ¬Ending p t) (hcleared : .clear stream.alive ∉ t.todo) {R : Type} (inner : Except ErrorKind R) :
    stream.poll t.liveness.flags inner = .error .ConnectionAborted := by
  have hregistered := registered_of_run hbefore
  have hchange := change_of_step hclose
  have hfell : fell stream.peer ∈ m.pending := by
    simp only [step, hlast, if_neg Nat.one_ne_zero, Option.some.injEq] at hclose
    rw [← hclose, hpeer]
    exact List.mem_append_right _ List.mem_cons_self
  have hended : Ended stream t := Machine.run_invariant_of_step _ (I := Ended stream)
    (fun _ _ _ h (hstep : step allow_private_addresses _ _ = _) => (change_of_step hstep).ended h) hafter
    ⟨hchange.registered hregistered, hchange.streams_mono hstream, fun _ => .inr hfell⟩
  have hdead : t.liveness.flags.cell stream.alive = false := by
    rcases hended.registered.held stream hended.obtained with hlookup | hcut
    · exact absurd (hpeer ▸ hended.ending hlookup) hending
    · exact hcut.resolve_left hcleared
  simp [LivenessStream.poll, hdead]

/-- A stream that is obtained when no end of a connection to the peer is left to work off is not aborted while the
peer has a connection. -/
theorem alive_of_connected {before after : List (Action Multiaddr)} {s m t : State Multiaddr} {p : PeerId}
    (hbefore : (machine Multiaddr allow_private_addresses).run (.new me my_addresses) before = some s)
    (hending : ¬Ending p s) (hobtain : step allow_private_addresses s (.obtain_flag p) = some m)
    {stream : LivenessStream} (hstream : m.streams = s.streams ++ [stream])
    (hafter : (machine Multiaddr allow_private_addresses).run m after = some t)
    (hconnected : (machine Multiaddr allow_private_addresses).Meets (fun s _ => 0 < s.pool p) m after)
    {R : Type} (inner : Except ErrorKind R) : stream.poll t.liveness.flags inner = inner := by
  have hregistered := (change_of_step hobtain).registered (registered_of_run hbefore)
  have hlinked : stream.peer = p ∧ Linked stream m := by
    cases hobtain
    obtain rfl := List.singleton_inj.mp (List.append_cancel_left hstream)
    refine ⟨rfl, hregistered, ?_, fun h => hending (.inl h), fun h => absurd (.inr h) hending⟩
    show (s.liveness.get_or_create_connected p).2.entries.lookup p = some (s.liveness.get_or_create_connected p).1
    unfold LivenessRegistry.get_or_create_connected
    split
    · next hflag => exact hflag
    · exact AList.lookup_insert _
  obtain ⟨rfl, hlinked⟩ := hlinked
  have hend : Linked stream t := Machine.run_invariant _ (I := Linked stream)
    (fun _ _ _ hpool h (hstep : step allow_private_addresses _ _ = _) => (change_of_step hstep).linked h hpool)
    hconnected hafter hlinked
  have halive : t.liveness.flags.cell stream.alive = true := by
    by_contra hcell
    exact hend.registered.live hend.lookup (.inr (Bool.eq_false_iff.mpr hcell))
  simp [LivenessStream.poll, halive]

end Runs

section Concrete
open Swarm (Ip4)

def closes : SwarmEvent Ip4 → Bool
  | .ConnectionClosed _ _ => true
  | _ => false

theorem not_ending {s : State Ip4} {p : PeerId} (htodo : s.todo = [])
    (hpending : s.pending.all (fun event => !closes event) = true) : ¬Ending p s := by
  rintro (hmem | hmem)
  · rw [htodo] at hmem
    cases hmem
  · exact Bool.false_ne_true (List.all_eq_true.mp hpending _ hmem)

/-- The peer is back before the end of its connection is worked off; another one is to be reported then. -/
theorem aborted_of_closed_reconnected :
    let before : List (Action Ip4) := [.connect ⟨[1]⟩ (.Dialer ⟨8, 8, 8, 8⟩), .obtain_flag ⟨[1]⟩]
    let after : List (Action Ip4) := [.connect ⟨[1]⟩ (.Dialer ⟨8, 8, 8, 8⟩), .next, .work true, .work true, .work true,
      .next, .work true, .work true, .work true, .work true, .connect ⟨[2]⟩ (.Dialer ⟨8, 8, 8, 8⟩), .next, .work true,
      .work true, .work true]
    ∃ s m t : State Ip4, (machine Ip4 false).run (.new ⟨[0]⟩ ∅) before = some s ∧
      step false s (.close ⟨[1]⟩) = some m ∧ (machine Ip4 false).run m after = some t ∧ t.is_connected ⟨[1]⟩ ∧
      LivenessStream.poll t.liveness.flags (.ok 5) ⟨⟨[1]⟩, 0⟩ = .error .ConnectionAborted := by
  intro before after
  obtain ⟨s, hbefore, hlast, hstreams, hclose⟩ : ∃ s : State Ip4,
      (machine Ip4 false).run (.new ⟨[0]⟩ ∅) before = some s ∧ s.pool ⟨[1]⟩ = 1 ∧ s.streams = [⟨⟨[1]⟩, 0⟩] ∧
        (((machine Ip4 false).run s (.close ⟨[1]⟩ :: after)).any fun t =>
          t.pending.all (fun event => !closes event) && t.todo.isEmpty && t.is_connected ⟨[1]⟩) = true :=
    (machine _ _).exists_run (by decide +kernel)
  obtain ⟨t, hrun, ht⟩ := (Option.any_eq_true _ _).mp hclose
  obtain ⟨m, hm, hafter⟩ := (Machine.run_cons_eq_some _).mp hrun
  simp only [Bool.and_eq_true, List.isEmpty_iff] at ht
  refine ⟨s, m, t, hbefore, hm, hafter, ht.2, aborted_of_closed hbefore hlast hm hafter
    (hstreams ▸ List.mem_cons_self) rfl (not_ending ht.1.2 ht.1.1) ?_ _⟩
  rw [ht.1.2]
  exact List.not_mem_nil

/-- Another peer comes and goes, and a second connection to the peer is closed. -/
theorem alive_of_connected_twice :
    let before : List (Action Ip4) := [.connect ⟨[1]⟩ (.Dialer ⟨8, 8, 8, 8⟩)]
    let after : List (Action Ip4) := [.connect ⟨[2]⟩ (.Dialer ⟨8, 8, 8, 8⟩), .connect ⟨[1]⟩ (.Dialer ⟨8, 8, 8, 8⟩),
      .next, .work true, .obtain_flag ⟨[2]⟩, .work true, .close ⟨[2]⟩, .close ⟨[1]⟩, .work true, .next, .work true,
      .work true, .work true, .next, .next, .work true, .work true, .work true, .work true, .next]
    ∃ s m t : State Ip4, (machine Ip4 false).run (.new ⟨[0]⟩ ∅) before = some s ∧
      step false s (.obtain_flag ⟨[1]⟩) = some m ∧ (machine Ip4 false).run m after = some t ∧
      LivenessStream.poll t.liveness.flags (.ok 5) ⟨⟨[1]⟩, 0⟩ = .ok 5 := by
  intro before after
  obtain ⟨s, hbefore, hending, hstreams, hobtain⟩ : ∃ s : State Ip4,
      (machine Ip4 false).run (.new ⟨[0]⟩ ∅) before = some s ∧
        (s.todo.isEmpty ∧ s.pending.all (fun event => !closes event)) ∧ s.streams = [] ∧
        ((step false s (.obtain_flag ⟨[1]⟩)).any fun m => m.streams = [⟨⟨[1]⟩, 0⟩] &&
          ((machine Ip4 false).Meets (fun s _ => 0 < s.pool ⟨[1]⟩) m after &&
            ((machine Ip4 false).run m after).isSome)) = true :=
    (machine _ _).exists_run (by decide +kernel)
  obtain ⟨m, hm, hrun⟩ := (Option.any_eq_true _ _).mp hobtain
  simp only [Bool.and_eq_true, decide_eq_true_eq] at hrun
  obtain ⟨t, ht⟩ := Option.isSome_iff_exists.mp hrun.2.2
  exact ⟨s, m, t, hbefore, hm, ht, alive_of_connected hbefore (not_ending (List.isEmpty_iff.mp hending.1) hending.2)
    hm (by rw [hrun.1, hstreams]; rfl) ht hrun.2.1 _⟩

/-- A stream over a new connection is aborted for the end of the one before. -/
example :
    let actions : List (Action Ip4) := [.connect ⟨[1]⟩ (.Dialer ⟨8, 8, 8, 8⟩), .close ⟨[1]⟩,
      .connect ⟨[1]⟩ (.Dialer ⟨8, 8, 8, 8⟩), .obtain_flag ⟨[1]⟩, .next, .work true, .work true, .work true,
      .next, .work true, .work true, .work true, .work true, .next, .work true, .work true, .work true]
    ∃ s : State Ip4, (machine Ip4 false).run (.new ⟨[0]⟩ ∅) actions = some s ∧ s.pool ⟨[1]⟩ = 1 ∧
      LivenessStream.poll s.liveness.flags (.ok 5) ⟨⟨[1]⟩, 0⟩ = .error .ConnectionAborted :=
  (machine _ _).exists_run (by decide +kernel)

end Concrete

end Hopr.Transport.Liveness
