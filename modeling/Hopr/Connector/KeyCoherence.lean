import Hopr.Connector.KeyMapping

/-! When the key caches agree with the backend.

While an event is handled, the keys that its handler still has to refresh may be
stale in each cache; all others are fresh (`Inv`). What the handler has put into
the caches is what the backend answers once the account is written, and only a load
may put something else in its place meanwhile (`Put`). What no step of the handler
refreshes is the id of the packet key that the account gives up, and what a load
that was overtaken by the write puts into a cache later. In a run in which neither
is there when the backend is written, the caches agree with it whenever no event is
in handling (`coherent`). -/
namespace Hopr.Connector.KeyMapping
open Hopr.Graph (OffchainPublicKey)
open Library
open Backend

/-! ### What the handler still refreshes -/

/-- The backend does not have the account yet. -/
def Handling.unwritten (h : Handling) : Bool :=
  match h.stage with
  | .inserted _ | .chain_invalidated _ => false
  | _ => true

/-- The account that was replaced, while its address is to be invalidated. -/
def Handling.chain_old (h : Handling) : Option AccountEntry :=
  match h.stage with
  | .inserted old => old
  | _ => none

/-- The account that was replaced, while its packet key is to be invalidated. -/
def Handling.packet_old (h : Handling) : Option AccountEntry :=
  match h.stage with
  | .inserted old | .chain_invalidated old => old
  | _ => none

def StaleKey : Option Handling → OffchainPublicKey → Prop
  | some h, key => h.unwritten = true ∧ key = h.account.public_key
  | none, _ => False

def StaleId : Option Handling → HoprKeyIdent → Prop
  | some h, id => h.unwritten = true ∧ id = h.account.key_id
  | none, _ => False

def StaleChain : Option Handling → Address → Prop
  | some h, chain => (h.unwritten = true ∧ chain = h.account.chain_addr) ∨
      ∃ old, h.chain_old = some old ∧ old.chain_addr ≠ h.account.chain_addr ∧ chain = old.chain_addr
  | none, _ => False

def StalePacket : Option Handling → OffchainPublicKey → Prop
  | some h, packet => (h.unwritten = true ∧ packet = h.account.public_key) ∨
      ∃ old, h.packet_old = some old ∧ old.public_key ≠ h.account.public_key ∧ packet = old.public_key
  | none, _ => False

/-- How many of the caches the handler has put the account into that it is still to write. -/
def Stage.puts : Stage → Nat
  | .received => 0
  | .key_to_id => 1
  | .id_to_key => 2
  | .chain_to_packet => 3
  | .packet_to_chain => 4
  | .inserted _ | .chain_invalidated _ => 0

/-- The first so many caches have what the handler puts into them, unless a load put something else in
its place. -/
structure PutIn {B : Type} (s : State B) (account : AccountEntry) (caches : Nat) : Prop where
  key_to_id : 1 ≤ caches → s.key_to_id.Holds account.public_key (some account.key_id)
  id_to_key : 2 ≤ caches → s.id_to_key.Holds account.key_id (some account.public_key)
  chain_to_packet : 3 ≤ caches → s.chain_to_packet.Holds account.chain_addr (some account.public_key)
  packet_to_chain : 4 ≤ caches → s.packet_to_chain.Holds account.public_key (some account.chain_addr)

/-- What the handler has put so far is there. -/
def Put {B : Type} (s : State B) : Prop := ∀ h ∈ s.handling, PutIn s h.account h.stage.puts

variable {B : Type} [Backend B] [LawfulBackend B]

/-- What the handler does not refresh is fresh. -/
structure Inv (s : State B) : Prop where
  valid : LawfulBackend.Valid s.backend
  key_to_id : ∀ key, ¬StaleKey s.handling key → s.key_to_id.Fresh (id_of_key s.backend) key
  id_to_key : ∀ id, ¬StaleId s.handling id → s.id_to_key.Fresh (key_of_id s.backend) id
  chain_to_packet : ∀ chain, ¬StaleChain s.handling chain →
    s.chain_to_packet.Fresh (key_of_address s.backend) chain
  packet_to_chain : ∀ packet, ¬StalePacket s.handling packet →
    s.packet_to_chain.Fresh (address_of_key s.backend) packet

/-! ### Which steps are timely -/

/-- When the account is written, loads have put under its key, its id and its address, and have read for
them, nothing but what the backend answers then; and the id that is cached, or was read, for the key
that it gives up is what the backend answers then. When the replaced account's address (key) is
invalidated, no load has read for it what the backend does not answer any more. -/
def Timely (s : State B) : Action → Prop
  | .handle =>
    match s.handling with
    | some ⟨account, .packet_to_chain⟩ =>
      let backend := (insert_account account s.backend).2
      s.key_to_id.LoadFresh (id_of_key backend) account.public_key ∧
      s.id_to_key.LoadFresh (key_of_id backend) account.key_id ∧
      s.chain_to_packet.LoadFresh (key_of_address backend) account.chain_addr ∧
      s.packet_to_chain.LoadFresh (address_of_key backend) account.public_key ∧
      ∀ old ∈ get_account_by_id account.key_id s.backend, old.public_key ≠ account.public_key →
        s.key_to_id.Fresh (id_of_key backend) old.public_key
    | some ⟨account, .inserted replaced⟩ =>
      ∀ old ∈ replaced, old.chain_addr ≠ account.chain_addr →
        s.chain_to_packet.Loaded (key_of_address s.backend) old.chain_addr
    | some ⟨account, .chain_invalidated replaced⟩ =>
      ∀ old ∈ replaced, old.public_key ≠ account.public_key →
        s.packet_to_chain.Loaded (address_of_key s.backend) old.public_key
    | _ => True
  | _ => True

instance (s : State B) (a : Action) : Decidable (Timely s a) := by
  unfold Timely
  split
  · split <;> infer_instance
  · infer_instance

/-! ### Steps -/

/-- When loads are timely, what the replaced account had is fresh once it is invalidated. -/
theorem fresh_invalidate_old {K V : Type} [DecidableEq K] {c : Cache K V} {backing : K → V} {k : K}
    {view : AccountEntry → K} {account : AccountEntry} {old : Option AccountEntry}
    (hfresh : (¬∃ o, old = some o ∧ view o ≠ view account ∧ k = view o) → c.Fresh backing k)
    (hloaded : ∀ o ∈ old, view o ≠ view account → c.Loaded backing (view o)) :
    (invalidate_old view old account c).Fresh backing k := by
  unfold invalidate_old
  cases old with
  | none =>
    refine hfresh ?_
    intro ⟨_, hnone, _⟩
    cases hnone
  | some o =>
    dsimp only
    split
    · next hchanged =>
      by_cases hk : k = view o
      · rw [hk]
        exact Cache.fresh_invalidate_self (hloaded o rfl hchanged)
      · refine Cache.fresh_invalidate (hfresh ?_)
        intro ⟨_, ho, _, heq⟩
        exact hk (Option.some.inj ho ▸ heq)
    · next hsame =>
      refine hfresh ?_
      intro ⟨_, ho, hchanged, _⟩
      exact hsame (Option.some.inj ho ▸ hchanged)

section Step
variable {s s' : State B}

theorem inv_event {account : AccountEntry} (h : Inv s) (hnone : s.handling = none) :
    Inv {s with handling := some ⟨account, .received⟩} := by
  refine ⟨h.valid, fun key _ => h.key_to_id key ?_, fun id _ => h.id_to_key id ?_,
    fun chain _ => h.chain_to_packet chain ?_, fun packet _ => h.packet_to_chain packet ?_⟩ <;>
  · rw [hnone]
    exact not_false

/-- The account is written. -/
theorem inv_insert {account : AccountEntry} (h : Inv s) (hput : Put s)
    (hhandling : s.handling = some ⟨account, .packet_to_chain⟩) (hC : Timely s .handle) :
    Inv {s with
      backend := (insert_account account s.backend).2
      handling := some ⟨account, .inserted (insert_account account s.backend).1⟩} := by
  simp only [Timely, hhandling] at hC
  obtain ⟨hkey, hid, hchain, hpacket, hgiven⟩ := hC
  obtain ⟨hvalid, hkeys, hids, hchains, hpackets⟩ := h
  rw [hhandling] at hkeys hids hchains hpackets
  have hbefore : (insert_account account s.backend).1 = get_account_by_id account.key_id s.backend :=
    LawfulBackend.insert_old ..
  -- What was put into the caches is what the backend answers now.
  have hnew_id : id_of_key (insert_account account s.backend).2 account.public_key = some account.key_id :=
    congrArg (Option.map AccountEntry.key_id) (LawfulBackend.by_key_new account hvalid)
  have hnew_key : key_of_id (insert_account account s.backend).2 account.key_id = some account.public_key := by
    unfold key_of_id
    rw [LawfulBackend.by_id_insert, if_pos rfl, Option.map_some]
  have hnew_chain : key_of_address (insert_account account s.backend).2 account.chain_addr =
      some account.public_key :=
    congrArg (Option.map AccountEntry.public_key) (LawfulBackend.by_address_new account hvalid)
  have hnew_address : address_of_key (insert_account account s.backend).2 account.public_key =
      some account.chain_addr :=
    congrArg (Option.map AccountEntry.chain_addr) (LawfulBackend.by_key_new account hvalid)
  have hput : PutIn s account 4 := hput _ hhandling
  have hkey := Cache.fresh_of_holds (hnew_id ▸ hput.key_to_id (by decide)) hkey
  have hid := Cache.fresh_of_holds (hnew_key ▸ hput.id_to_key (by decide)) hid
  have hchain := Cache.fresh_of_holds (hnew_chain ▸ hput.chain_to_packet (by decide)) hchain
  have hpacket := Cache.fresh_of_holds (hnew_address ▸ hput.packet_to_chain (by decide)) hpacket
  refine ⟨LawfulBackend.valid_insert account hvalid, ?_, ?_, ?_, ?_⟩
  · intro key _
    by_cases hnew : key = account.public_key
    · rw [hnew]; exact hkey
    · by_cases hgone : ∃ old, get_account_by_id account.key_id s.backend = some old ∧ key = old.public_key
      · obtain ⟨old, hrow, rfl⟩ := hgone
        exact hgiven old hrow hnew
      · refine (hkeys key fun hstale => hnew hstale.2).congr (congrArg (Option.map AccountEntry.key_id) ?_)
        exact LawfulBackend.by_key_insert hvalid hnew fun old hrow heq => hgone ⟨old, hrow, heq⟩
  · intro id _
    by_cases hnew : id = account.key_id
    · rw [hnew]; exact hid
    · refine (hids id fun hstale => hnew hstale.2).congr (congrArg (Option.map AccountEntry.public_key) ?_)
      rw [LawfulBackend.by_id_insert, if_neg hnew]
  · intro chain hstale
    by_cases hnew : chain = account.chain_addr
    · rw [hnew]; exact hchain
    · refine (hchains chain ?_).congr (congrArg (Option.map AccountEntry.public_key) ?_)
      · intro hunwritten
        obtain ⟨_, heq⟩ | ⟨_, hnone, _⟩ := hunwritten
        · exact hnew heq
        · cases hnone
      · -- The address that the account gives up is invalidated next.
        refine LawfulBackend.by_address_insert hvalid hnew fun old hrow heq => ?_
        exact hstale (.inr ⟨old, hbefore.trans hrow, fun hsame => hnew (heq.trans hsame), heq⟩)
  · intro packet hstale
    by_cases hnew : packet = account.public_key
    · rw [hnew]; exact hpacket
    · refine (hpackets packet ?_).congr (congrArg (Option.map AccountEntry.chain_addr) ?_)
      · intro hunwritten
        obtain ⟨_, heq⟩ | ⟨_, hnone, _⟩ := hunwritten
        · exact hnew heq
        · cases hnone
      · refine LawfulBackend.by_key_insert hvalid hnew fun old hrow heq => ?_
        exact hstale (.inr ⟨old, hbefore.trans hrow, fun hsame => hnew (heq.trans hsame), heq⟩)

theorem inv_handle (h : Inv s) (hput : Put s) (hC : Timely s .handle) (hstep : s.handle = some s') : Inv s' := by
  obtain ⟨key_to_id, id_to_key, chain_to_packet, packet_to_chain, backend, connection_handle, handling⟩ := s
  cases handling with
  | none => cases hstep
  | some handling =>
    obtain ⟨account, stage⟩ := handling
    cases stage with
    | received =>
      cases hstep
      refine ⟨h.valid, fun key hstale => ?_, h.id_to_key, h.chain_to_packet, h.packet_to_chain⟩
      exact Cache.fresh_insert_other (fun heq => hstale ⟨rfl, heq⟩) (h.key_to_id key hstale)
    | key_to_id =>
      cases hstep
      refine ⟨h.valid, h.key_to_id, fun id hstale => ?_, h.chain_to_packet, h.packet_to_chain⟩
      exact Cache.fresh_insert_other (fun heq => hstale ⟨rfl, heq⟩) (h.id_to_key id hstale)
    | id_to_key =>
      cases hstep
      refine ⟨h.valid, h.key_to_id, h.id_to_key, fun chain hstale => ?_, h.packet_to_chain⟩
      exact Cache.fresh_insert_other (fun heq => hstale (.inl ⟨rfl, heq⟩)) (h.chain_to_packet chain hstale)
    | chain_to_packet =>
      cases hstep
      refine ⟨h.valid, h.key_to_id, h.id_to_key, h.chain_to_packet, fun packet hstale => ?_⟩
      exact Cache.fresh_insert_other (fun heq => hstale (.inl ⟨rfl, heq⟩)) (h.packet_to_chain packet hstale)
    | packet_to_chain =>
      cases hstep
      exact inv_insert h hput rfl hC
    | inserted old =>
      cases hstep
      refine ⟨h.valid, h.key_to_id, h.id_to_key, fun chain _ => ?_, h.packet_to_chain⟩
      refine fresh_invalidate_old (fun hnot => h.chain_to_packet chain ?_) hC
      intro hstale
      obtain ⟨hwritten, _⟩ | hold := hstale
      · cases hwritten
      · exact hnot hold
    | chain_invalidated old =>
      cases hstep
      refine ⟨h.valid, fun key _ => h.key_to_id key ?_, fun id _ => h.id_to_key id ?_,
        fun chain _ => h.chain_to_packet chain ?_, fun packet _ => ?_⟩
      · exact fun hstale => nomatch hstale.1
      · exact fun hstale => nomatch hstale.1
      · intro hstale
        obtain ⟨hwritten, _⟩ | ⟨_, hnone, _⟩ := hstale
        · cases hwritten
        · cases hnone
      · refine fresh_invalidate_old (fun hnot => h.packet_to_chain packet ?_) hC
        intro hstale
        obtain ⟨hwritten, _⟩ | hold := hstale
        · cases hwritten
        · exact hnot hold

theorem inv_step {a : Action} (h : Inv s) (hput : Put s) (hC : Timely s a) (hstep : (machine B).step s a = some s') :
    Inv s' := by
  cases a with
  | event account =>
    simp only [machine, State.step] at hstep
    split at hstep
    · next hnone =>
      cases hstep
      exact inv_event h (Option.isNone_iff_eq_none.mp hnone)
    · cases hstep
  | handle => exact inv_handle h hput hC hstep
  | key_to_id action =>
    obtain ⟨c, hact, rfl⟩ := Option.map_eq_some_iff.mp hstep
    exact {h with key_to_id := fun key hstale => Cache.fresh_act hact (h.key_to_id key hstale)}
  | id_to_key action =>
    obtain ⟨c, hact, rfl⟩ := Option.map_eq_some_iff.mp hstep
    exact {h with id_to_key := fun id hstale => Cache.fresh_act hact (h.id_to_key id hstale)}
  | chain_to_packet action =>
    obtain ⟨c, hact, rfl⟩ := Option.map_eq_some_iff.mp hstep
    exact {h with chain_to_packet := fun chain hstale => Cache.fresh_act hact (h.chain_to_packet chain hstale)}
  | packet_to_chain action =>
    obtain ⟨c, hact, rfl⟩ := Option.map_eq_some_iff.mp hstep
    exact {h with packet_to_chain := fun packet hstale => Cache.fresh_act hact (h.packet_to_chain packet hstale)}
  | connection handle =>
    cases hstep
    exact {h with}

end Step

section Put
variable {B : Type} {s s' : State B} {account : AccountEntry} {stage : Stage}

theorem put_of_putIn (caches : Nat) (hs : s.handling = some ⟨account, stage⟩) (hcaches : stage.puts = caches)
    (h : PutIn s account caches) : Put s := by
  intro handling hhandling
  cases hs.symm.trans hhandling
  exact hcaches ▸ h

/-- Nothing of the account is put yet, or it is written. -/
theorem put_of_zero (hs : s.handling = some ⟨account, stage⟩) (hcaches : stage.puts = 0) : Put s :=
  put_of_putIn 0 hs hcaches ⟨fun h => by omega, fun h => by omega, fun h => by omega, fun h => by omega⟩

variable [Backend B]

theorem put_handle (h : Put s) (hstep : s.handle = some s') : Put s' := by
  unfold State.handle at hstep
  split at hstep
  · cases hstep
  · cases hstep
    exact put_of_putIn 1 rfl rfl
      ⟨fun _ => Cache.holds_insert _ _ _, fun h => by omega, fun h => by omega, fun h => by omega⟩
  · next hs =>
    have h : PutIn s _ 1 := h _ hs
    cases hstep
    exact put_of_putIn 2 rfl rfl
      ⟨fun _ => h.key_to_id (by decide), fun _ => Cache.holds_insert _ _ _, fun h => by omega, fun h => by omega⟩
  · next hs =>
    have h : PutIn s _ 2 := h _ hs
    cases hstep
    exact put_of_putIn 3 rfl rfl ⟨fun _ => h.key_to_id (by decide), fun _ => h.id_to_key (by decide),
      fun _ => Cache.holds_insert _ _ _, fun h => by omega⟩
  · next hs =>
    have h : PutIn s _ 3 := h _ hs
    cases hstep
    exact put_of_putIn 4 rfl rfl ⟨fun _ => h.key_to_id (by decide), fun _ => h.id_to_key (by decide),
      fun _ => h.chain_to_packet (by decide), fun _ => Cache.holds_insert _ _ _⟩
  · cases hstep
    exact put_of_zero rfl rfl
  · cases hstep
    exact put_of_zero rfl rfl
  · cases hstep
    intro _ hnone
    cases hnone

/-- Only loads put something else in the place of what the handler put. -/
theorem put_step {a : Action} (h : Put s) (hstep : (machine B).step s a = some s') : Put s' := by
  cases a with
  | event account =>
    simp only [machine, State.step] at hstep
    split at hstep
    · cases hstep
      exact put_of_zero rfl rfl
    · cases hstep
  | handle => exact put_handle h hstep
  | key_to_id action =>
    obtain ⟨c, hact, rfl⟩ := Option.map_eq_some_iff.mp hstep
    intro handling hs
    exact {h handling hs with key_to_id := fun hput => Cache.holds_act hact ((h handling hs).key_to_id hput)}
  | id_to_key action =>
    obtain ⟨c, hact, rfl⟩ := Option.map_eq_some_iff.mp hstep
    intro handling hs
    exact {h handling hs with id_to_key := fun hput => Cache.holds_act hact ((h handling hs).id_to_key hput)}
  | chain_to_packet action =>
    obtain ⟨c, hact, rfl⟩ := Option.map_eq_some_iff.mp hstep
    intro handling hs
    exact {h handling hs with
      chain_to_packet := fun hput => Cache.holds_act hact ((h handling hs).chain_to_packet hput)}
  | packet_to_chain action =>
    obtain ⟨c, hact, rfl⟩ := Option.map_eq_some_iff.mp hstep
    intro handling hs
    exact {h handling hs with
      packet_to_chain := fun hput => Cache.holds_act hact ((h handling hs).packet_to_chain hput)}
  | connection handle =>
    cases hstep
    exact fun handling hs => {h handling hs with}

end Put

/-! ### Runs -/

/-- Whenever no event is in handling, lookups answer what the backend does, unless the connector is
not connected. A key whose id is found is found by that id, unless an event is in handling for one
of the two. -/
structure Coherent (s : State B) : Prop where
  key_to_id : s.handling = none → ∀ key, s.map_key_to_id key = id_of_key s.backend key
  id_to_key : s.handling = none → ∀ id, s.map_id_to_public id = key_of_id s.backend id
  chain_to_packet : s.handling = none → s.check_connection_state = .ok () →
    ∀ chain, s.chain_key_to_packet_key chain = .ok (key_of_address s.backend chain)
  packet_to_chain : s.handling = none → s.check_connection_state = .ok () →
    ∀ packet, s.packet_key_to_chain_key packet = .ok (address_of_key s.backend packet)
  inverse : ∀ key id, s.map_key_to_id key = some id →
    (∀ h ∈ s.handling, key ≠ h.account.public_key ∧ id ≠ h.account.key_id) → s.map_id_to_public id = some key

theorem inv_new {b : B} (h : LawfulBackend.Valid b) : Inv (State.new b) :=
  ⟨h, fun _ _ => Cache.fresh_empty, fun _ _ => Cache.fresh_empty, fun _ _ => Cache.fresh_empty,
    fun _ _ => Cache.fresh_empty⟩

theorem coherent_of_inv {s : State B} (h : Inv s) : Coherent s := by
  constructor
  · intro hquiet key
    refine Cache.get_with_fresh (h.key_to_id key ?_)
    rw [hquiet]
    exact not_false
  · intro hquiet id
    refine Cache.get_with_fresh (h.id_to_key id ?_)
    rw [hquiet]
    exact not_false
  · intro hquiet hconnected chain
    unfold State.chain_key_to_packet_key
    rw [hconnected]
    refine congrArg Except.ok (Cache.get_with_fresh (h.chain_to_packet chain ?_))
    rw [hquiet]
    exact not_false
  · intro hquiet hconnected packet
    unfold State.packet_key_to_chain_key
    rw [hconnected]
    refine congrArg Except.ok (Cache.get_with_fresh (h.packet_to_chain packet ?_))
    rw [hquiet]
    exact not_false
  · intro key id hfound hother
    have hkey : ¬StaleKey s.handling key := by
      intro hstale
      cases hhandling : s.handling with
      | none => rw [hhandling] at hstale; exact hstale
      | some x => rw [hhandling] at hstale; exact (hother x hhandling).1 hstale.2
    have hid : ¬StaleId s.handling id := by
      intro hstale
      cases hhandling : s.handling with
      | none => rw [hhandling] at hstale; exact hstale
      | some x => rw [hhandling] at hstale; exact (hother x hhandling).2 hstale.2
    have hbacked : id_of_key s.backend key = some id :=
      (Cache.get_with_fresh (h.key_to_id key hkey)).symm.trans hfound
    obtain ⟨account, haccount, rfl⟩ := Option.map_eq_some_iff.mp hbacked
    obtain ⟨hpublic, hrow⟩ := LawfulBackend.by_key_sound h.valid haccount
    calc s.map_id_to_public account.key_id
        = key_of_id s.backend account.key_id := Cache.get_with_fresh (h.id_to_key _ hid)
      _ = some account.public_key := congrArg (Option.map AccountEntry.public_key) hrow
      _ = some key := congrArg some hpublic

/-- In every state of a run whose steps are timely the caches agree with the backend. -/
theorem coherent {b : B} (hvalid : LawfulBackend.Valid b) {actions : List Action} {s : State B}
    (hC : (machine B).Meets Timely (.new b) actions) (hrun : (machine B).run (.new b) actions = some s) :
    Coherent s := by
  have hstep : ∀ s a s', Timely s a → Inv s ∧ Put s → (machine B).step s a = some s' → Inv s' ∧ Put s' :=
    fun s a s' ht h hs => ⟨inv_step h.1 h.2 ht hs, put_step h.2 hs⟩
  have hput : Put (State.new b) := by
    intro _ hnone
    cases hnone
  exact coherent_of_inv ((machine B).run_invariant hstep hC hrun ⟨inv_new hvalid, hput⟩).1

/-- An account is announced, or announced anew, and its event is handled to the end. -/
def announce (account : AccountEntry) : List Action := .event account :: List.replicate 7 .handle

/-- The caches agree after an account changed its address and its key went to another one. -/
theorem coherent_moved : ∃ s, (machine TempDbBackend).run (.new .new)
    (announce (.of 1 7 1) ++ announce (.of 1 7 2) ++ announce (.of 2 7 3)) = some s ∧
    s.handling.isNone = true ∧ Coherent s := by
  have hquiet : ∃ s, (machine TempDbBackend).run (.new .new)
      (announce (.of 1 7 1) ++ announce (.of 1 7 2) ++ announce (.of 2 7 3)) = some s ∧
      s.handling.isNone = true :=
    (machine TempDbBackend).exists_run rfl
  obtain ⟨s, hrun, hquiet⟩ := hquiet
  exact ⟨s, hrun, hquiet, coherent AccountIndex.indexed_new (by decide) hrun⟩

/-- The id of a key that the account gave up is still found by it. -/
theorem id_of_old_key : ∃ s, (machine TempDbBackend).run (.new .new)
    (announce (.of 1 7 1) ++ announce (.of 1 8 1)) = some s ∧ s.handling = none ∧
    s.map_key_to_id (.of 7) = some 1 ∧ id_of_key s.backend (.of 7) = none ∧
    s.map_id_to_public 1 = some (.of 8) :=
  ⟨_, rfl, rfl, rfl, rfl, rfl⟩

end Hopr.Connector.KeyMapping
