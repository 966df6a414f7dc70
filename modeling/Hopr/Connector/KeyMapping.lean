import Hopr.Connector.AccountIndex
import Hopr.Library.Cache

/-! The caches of packet keys, chain addresses and account ids.

Four caches stand before the backend. The handler of an account event puts the
new mappings into all of them, writes the account to the backend, and then drops
what the replaced account had in two of them. Lookups go to the caches, and load
from the backend what these miss.

When lookups come and how far they get, what is evicted, and whether the
connector is connected is the environment's. -/
namespace Hopr.Connector
open Hopr.Graph (OffchainPublicKey)
open Library

/-- The backend of the connector, as far as accounts go; it never fails. -/
class Backend (B : Type) where
  insert_account : AccountEntry → B → Option AccountEntry × B
  get_account_by_id : HoprKeyIdent → B → Option AccountEntry
  get_account_by_key : OffchainPublicKey → B → Option AccountEntry
  get_account_by_address : Address → B → Option AccountEntry

open Backend

/-- Accounts are stored under their ids and found by what they have, an account that was inserted by its
key and its address; otherwise an insert changes only what is found by those of the one it replaces. -/
class LawfulBackend (B : Type) [Backend B] where
  Valid : B → Prop
  valid_insert {b : B} (a : AccountEntry) : Valid b → Valid (insert_account a b).2
  insert_old (b : B) (a : AccountEntry) : (insert_account a b).1 = get_account_by_id a.key_id b
  by_id_insert (b : B) (a : AccountEntry) (id : HoprKeyIdent) :
    get_account_by_id id (insert_account a b).2 = if id = a.key_id then some a else get_account_by_id id b
  by_key_sound {b : B} {key : OffchainPublicKey} {a : AccountEntry} : Valid b →
    get_account_by_key key b = some a → a.public_key = key ∧ get_account_by_id a.key_id b = some a
  by_key_new {b : B} (a : AccountEntry) : Valid b →
    get_account_by_key a.public_key (insert_account a b).2 = some a
  by_address_new {b : B} (a : AccountEntry) : Valid b →
    get_account_by_address a.chain_addr (insert_account a b).2 = some a
  by_key_insert {b : B} {a : AccountEntry} {key : OffchainPublicKey} : Valid b → key ≠ a.public_key →
    (∀ old, get_account_by_id a.key_id b = some old → key ≠ old.public_key) →
    get_account_by_key key (insert_account a b).2 = get_account_by_key key b
  by_address_insert {b : B} {a : AccountEntry} {addr : Address} : Valid b → addr ≠ a.chain_addr →
    (∀ old, get_account_by_id a.key_id b = some old → addr ≠ old.chain_addr) →
    get_account_by_address addr (insert_account a b).2 = get_account_by_address addr b

instance : Backend TempDbBackend where
  insert_account := TempDbBackend.insert_account
  get_account_by_id := TempDbBackend.get_account_by_id
  get_account_by_key := TempDbBackend.get_account_by_key
  get_account_by_address := TempDbBackend.get_account_by_address

open AccountIndex SecondaryIndex in
instance : LawfulBackend TempDbBackend where
  Valid := Indexed
  valid_insert _ := indexed_insert
  insert_old _ _ := rfl
  by_id_insert db a id := by
    show Function.update db.accounts a.key_id (some a) id = _
    exact Function.update_apply ..
  by_key_sound {db key a} h hfound := by
    obtain ⟨id, _, hrow⟩ := Option.bind_eq_some_iff.mp hfound
    refine ⟨h.found.by_key key a hfound, ?_⟩
    rw [h.keyed id a hrow]
    exact hrow
  by_key_new {db} a _ := by
    show SecondaryIndex.lookup _ (db.insert_account a).2.key_to_id a.public_key = _
    rw [TempDbBackend.key_to_id_insert]
    exact lookup_replace_new
  by_address_new {db} a _ := by
    show SecondaryIndex.lookup _ (db.insert_account a).2.address_to_id a.chain_addr = _
    rw [TempDbBackend.address_to_id_insert]
    exact lookup_replace_new
  by_key_insert {db a key} h hnew hold := by
    show SecondaryIndex.lookup _ (db.insert_account a).2.key_to_id key = _
    rw [TempDbBackend.key_to_id_insert]
    exact lookup_replace_other h.keys hnew fun ⟨old, hrow, heq⟩ => hold old hrow heq.symm
  by_address_insert {db a addr} h hnew hold := by
    show SecondaryIndex.lookup _ (db.insert_account a).2.address_to_id addr = _
    rw [TempDbBackend.address_to_id_insert]
    exact lookup_replace_other h.addresses hnew fun ⟨old, hrow, heq⟩ => hold old hrow heq.symm

namespace KeyMapping

/-! ### What the caches stand for -/

section Backing
variable {B : Type} [Backend B]

def id_of_key (b : B) (key : OffchainPublicKey) : Option HoprKeyIdent :=
  (get_account_by_key key b).map AccountEntry.key_id

def key_of_id (b : B) (id : HoprKeyIdent) : Option OffchainPublicKey :=
  (get_account_by_id id b).map AccountEntry.public_key

def key_of_address (b : B) (chain : Address) : Option OffchainPublicKey :=
  (get_account_by_address chain b).map AccountEntry.public_key

def address_of_key (b : B) (packet : OffchainPublicKey) : Option Address :=
  (get_account_by_key packet b).map AccountEntry.chain_addr

end Backing

/-! ### The connector -/

/-- What the replaced account had is invalidated, unless the account has it as well. -/
def invalidate_old {K V : Type} [DecidableEq K] (view : AccountEntry → K) (old : Option AccountEntry)
    (account : AccountEntry) (c : Cache K V) : Cache K V :=
  match old with
  | some old_account => if view old_account ≠ view account then c.invalidate (view old_account) else c
  | none => c

/-- How far the handler of an account event is. -/
inductive Stage where
  | received
  | key_to_id
  | id_to_key
  | chain_to_packet
  | packet_to_chain
  /-- The account is in the backend, which handed back the one it replaced. -/
  | inserted (old : Option AccountEntry)
  | chain_invalidated (old : Option AccountEntry)

structure Handling where
  account : AccountEntry
  stage : Stage

structure AbortHandle where
  aborted : Bool

inductive ConnectorError where
  | InvalidState (reason : String)

structure State (B : Type) where
  key_to_id : Cache OffchainPublicKey (Option HoprKeyIdent)
  id_to_key : Cache HoprKeyIdent (Option OffchainPublicKey)
  chain_to_packet : Cache Address (Option OffchainPublicKey)
  packet_to_chain : Cache OffchainPublicKey (Option Address)
  backend : B
  connection_handle : Option AbortHandle
  /-- Events are handled one at a time. -/
  handling : Option Handling

inductive Action where
  | event (account : AccountEntry)
  /-- The handler takes its next step. -/
  | handle
  | key_to_id (action : Cache.Action OffchainPublicKey)
  | id_to_key (action : Cache.Action HoprKeyIdent)
  | chain_to_packet (action : Cache.Action Address)
  | packet_to_chain (action : Cache.Action OffchainPublicKey)
  | connection (handle : Option AbortHandle)

namespace State
variable {B : Type} [Backend B]

def new (backend : B) : State B := ⟨.empty, .empty, .empty, .empty, backend, none, none⟩

/-! ### Lookups -/

def check_connection_state (s : State B) : Except ConnectorError Unit :=
  match s.connection_handle.filter fun handle => !handle.aborted with
  | some _ => .ok ()
  | none => .error (.InvalidState "connector is not connected")

def map_key_to_id (s : State B) (key : OffchainPublicKey) : Option HoprKeyIdent :=
  s.key_to_id.get_with key (id_of_key s.backend key)

def map_id_to_public (s : State B) (id : HoprKeyIdent) : Option OffchainPublicKey :=
  s.id_to_key.get_with id (key_of_id s.backend id)

def chain_key_to_packet_key (s : State B) (chain : Address) :
    Except ConnectorError (Option OffchainPublicKey) := do
  s.check_connection_state
  return s.chain_to_packet.get_with chain (key_of_address s.backend chain)

def packet_key_to_chain_key (s : State B) (packet : OffchainPublicKey) :
    Except ConnectorError (Option Address) := do
  s.check_connection_state
  return s.packet_to_chain.get_with packet (address_of_key s.backend packet)

/-! ### Steps -/

def handle (s : State B) : Option (State B) :=
  match s.handling with
  | none => none
  | some ⟨account, .received⟩ =>
    some {s with
      key_to_id := s.key_to_id.insert account.public_key (some account.key_id)
      handling := some ⟨account, .key_to_id⟩}
  | some ⟨account, .key_to_id⟩ =>
    some {s with
      id_to_key := s.id_to_key.insert account.key_id (some account.public_key)
      handling := some ⟨account, .id_to_key⟩}
  | some ⟨account, .id_to_key⟩ =>
    some {s with
      chain_to_packet := s.chain_to_packet.insert account.chain_addr (some account.public_key)
      handling := some ⟨account, .chain_to_packet⟩}
  | some ⟨account, .chain_to_packet⟩ =>
    some {s with
      packet_to_chain := s.packet_to_chain.insert account.public_key (some account.chain_addr)
      handling := some ⟨account, .packet_to_chain⟩}
  | some ⟨account, .packet_to_chain⟩ =>
    let (old, backend) := insert_account account s.backend
    some {s with backend, handling := some ⟨account, .inserted old⟩}
  | some ⟨account, .inserted old⟩ =>
    some {s with
      chain_to_packet := invalidate_old AccountEntry.chain_addr old account s.chain_to_packet
      handling := some ⟨account, .chain_invalidated old⟩}
  | some ⟨account, .chain_invalidated old⟩ =>
    some {s with
      packet_to_chain := invalidate_old AccountEntry.public_key old account s.packet_to_chain
      handling := none}

def step (s : State B) : Action → Option (State B)
  | .event account =>
    if s.handling.isNone then some {s with handling := some ⟨account, .received⟩} else none
  | .handle => s.handle
  | .key_to_id action =>
    (s.key_to_id.act (id_of_key s.backend) action).map fun c => {s with key_to_id := c}
  | .id_to_key action =>
    (s.id_to_key.act (key_of_id s.backend) action).map fun c => {s with id_to_key := c}
  | .chain_to_packet action =>
    (s.chain_to_packet.act (key_of_address s.backend) action).map fun c => {s with chain_to_packet := c}
  | .packet_to_chain action =>
    (s.packet_to_chain.act (address_of_key s.backend) action).map fun c => {s with packet_to_chain := c}
  | .connection handle => some {s with connection_handle := handle}

end State

def machine (B : Type) [Backend B] : Machine (State B) Action where
  step := State.step

end KeyMapping

end Hopr.Connector
