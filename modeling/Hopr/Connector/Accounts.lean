import Mathlib.Data.List.AList
import Hopr.Connector.Sequencer
import Hopr.Graph.PathId
import Hopr.Library.SecondaryIndex

/-! Where accounts are stored.

`TempDbBackend` keeps the accounts by their ids, and beside them two indexes,
from chain addresses and from packet keys to ids. All three tables are written
by one transaction. `InMemoryBackend` keeps the accounts only and searches them,
in whatever order the map is iterated. -/
namespace Hopr.Connector
open Hopr.Graph (OffchainPublicKey)
open Library

abbrev HoprKeyIdent := UInt32

inductive AccountType where
  | NotAnnounced
  | Announced (multiaddrs : List String)
deriving DecidableEq

structure AccountEntry where
  public_key : OffchainPublicKey
  chain_addr : Address
  entry_type : AccountType
  safe_address : Option Address
  key_id : HoprKeyIdent
deriving DecidableEq

/-- An account whose packet key and chain address are told apart by one byte. -/
def AccountEntry.of (id : HoprKeyIdent) (key addr : UInt8) : AccountEntry :=
  ⟨.of key, ⟨[addr]⟩, .NotAnnounced, none, id⟩

/-! ### In a database -/

structure TempDbBackend where
  accounts : HoprKeyIdent → Option AccountEntry
  address_to_id : Address → Option HoprKeyIdent
  key_to_id : OffchainPublicKey → Option HoprKeyIdent

namespace TempDbBackend

def new : TempDbBackend := ⟨fun _ => none, fun _ => none, fun _ => none⟩

def insert_account (account : AccountEntry) (db : TempDbBackend) : Option AccountEntry × TempDbBackend :=
  let old_value := db.accounts account.key_id
  let accounts := Function.update db.accounts account.key_id (some account)
  -- References of the old entry are removed, not to leave stale mappings if its keys changed.
  let (address_to_id, key_to_id) :=
    match old_value with
    | some old_entry =>
      (Function.update db.address_to_id old_entry.chain_addr none,
        Function.update db.key_to_id old_entry.public_key none)
    | none => (db.address_to_id, db.key_to_id)
  (old_value, ⟨accounts, Function.update address_to_id account.chain_addr (some account.key_id),
    Function.update key_to_id account.public_key (some account.key_id)⟩)

def get_account_by_id (id : HoprKeyIdent) (db : TempDbBackend) : Option AccountEntry := db.accounts id

def get_account_by_key (key : OffchainPublicKey) (db : TempDbBackend) : Option AccountEntry :=
  (db.key_to_id key).bind db.accounts

def get_account_by_address (chain_key : Address) (db : TempDbBackend) : Option AccountEntry :=
  (db.address_to_id chain_key).bind db.accounts

variable {account : AccountEntry} {db : TempDbBackend}

@[simp] theorem accounts_insert : (db.insert_account account).2.accounts =
    Function.update db.accounts account.key_id (some account) := rfl

theorem key_to_id_insert : (db.insert_account account).2.key_to_id =
    SecondaryIndex.replace AccountEntry.public_key db.accounts db.key_to_id account.key_id account := by
  unfold insert_account SecondaryIndex.replace
  cases db.accounts account.key_id <;> rfl

theorem address_to_id_insert : (db.insert_account account).2.address_to_id =
    SecondaryIndex.replace AccountEntry.chain_addr db.accounts db.address_to_id account.key_id account := by
  unfold insert_account SecondaryIndex.replace
  cases db.accounts account.key_id <;> rfl

end TempDbBackend

/-! ### In memory -/

structure InMemoryBackend where
  accounts : AList fun _ : HoprKeyIdent => AccountEntry

namespace InMemoryBackend

def new : InMemoryBackend := ⟨∅⟩

def insert_account (entry : AccountEntry) (s : InMemoryBackend) : Option AccountEntry × InMemoryBackend :=
  (s.accounts.lookup entry.key_id, ⟨s.accounts.insert entry.key_id entry⟩)

/-- The accounts in the order in which an iteration meets them. -/
def Iterates (s : InMemoryBackend) (iter : List AccountEntry) : Prop :=
  iter.Perm (s.accounts.entries.map Sigma.snd)

def get_account_by_id (id : HoprKeyIdent) (s : InMemoryBackend) : Option AccountEntry :=
  s.accounts.lookup id

/-- The map is met in the order of `iter`. -/
def get_account_by_key (key : OffchainPublicKey) (iter : List AccountEntry) : Option AccountEntry :=
  iter.find? fun account => account.public_key = key

def get_account_by_address (chain_key : Address) (iter : List AccountEntry) : Option AccountEntry :=
  iter.find? fun account => account.chain_addr = chain_key

end InMemoryBackend

end Hopr.Connector
