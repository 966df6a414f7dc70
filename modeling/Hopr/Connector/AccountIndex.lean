import Hopr.Connector.Accounts
import Hopr.Library.Machine

/-! What the account indexes find.

An account that is found by its packet key or its chain address has it
(`found_run`). That an account which is alone with its key is found by it, and
that both backends then answer alike, holds if and only if no account gives up a
key that exactly one other account has as well (`indexed_iff`): the entry that
is removed then is that of the other account. -/
namespace Hopr.Connector.AccountIndex
open Hopr.Graph (OffchainPublicKey)
open Library SecondaryIndex

/-! ### One table -/

def Stored (db : TempDbBackend) (account : AccountEntry) : Prop :=
  ∃ id, db.get_account_by_id id = some account

/-- What is found has the key or the address that it is found by. -/
structure Found (db : TempDbBackend) : Prop where
  by_key : ∀ key account, db.get_account_by_key key = some account → account.public_key = key
  by_address : ∀ addr account, db.get_account_by_address addr = some account → account.chain_addr = addr

/-- An account that is alone with its key or its address is found by it. -/
structure Finds (db : TempDbBackend) : Prop where
  by_key : ∀ account, Stored db account →
    (∀ other, Stored db other → other.public_key = account.public_key → other = account) →
    db.get_account_by_key account.public_key = some account
  by_address : ∀ account, Stored db account →
    (∀ other, Stored db other → other.chain_addr = account.chain_addr → other = account) →
    db.get_account_by_address account.chain_addr = some account

/-- Accounts are stored under their ids. -/
def Keyed (db : TempDbBackend) : Prop := ∀ id account, db.accounts id = some account → account.key_id = id

/-- Index entries lead to accounts with that key or address. -/
structure Indexed (db : TempDbBackend) : Prop where
  keyed : Keyed db
  keys : Sound AccountEntry.public_key db.accounts db.key_to_id
  addresses : Sound AccountEntry.chain_addr db.accounts db.address_to_id

/-- Accounts that are alone with their key or their address have their index entry. -/
structure Covered (db : TempDbBackend) : Prop where
  keys : Complete AccountEntry.public_key db.accounts db.key_to_id
  addresses : Complete AccountEntry.chain_addr db.accounts db.address_to_id

section Table
variable {db : TempDbBackend}

/-- For stored accounts, to be alone with what they show is to be the only such row. -/
theorem alone_iff {K : Type} {view : AccountEntry → K} (h : Keyed db) {id : HoprKeyIdent}
    {account : AccountEntry} (hrow : db.accounts id = some account) :
    Alone view db.accounts id (view account) ↔
      ∀ other, Stored db other → view other = view account → other = account := by
  constructor
  · intro halone other ⟨id', hother⟩ hview
    have hid := halone.2 id' ⟨other, hother, hview⟩
    rw [hid] at hother
    exact Option.some.inj (hother.symm.trans hrow)
  · intro hall
    refine ⟨⟨account, hrow, rfl⟩, ?_⟩
    intro id' ⟨other, hother, hview⟩
    rw [← h id' other hother, hall other ⟨id', hother⟩ hview, h id account hrow]

theorem Indexed.found (h : Indexed db) : Found db :=
  ⟨fun _ _ hfound => lookup_view h.keys hfound, fun _ _ hfound => lookup_view h.addresses hfound⟩

theorem finds_iff (h : Keyed db) : Finds db ↔ Covered db := by
  constructor
  · intro hfinds
    constructor
    · refine complete_of_lookup h fun id account hrow halone => ?_
      exact hfinds.by_key account ⟨id, hrow⟩ ((alone_iff h hrow).mp halone)
    · refine complete_of_lookup h fun id account hrow halone => ?_
      exact hfinds.by_address account ⟨id, hrow⟩ ((alone_iff h hrow).mp halone)
  · intro hcovered
    constructor
    · intro account ⟨id, hrow⟩ hall
      exact lookup_alone hcovered.keys hrow ((alone_iff h hrow).mpr hall)
    · intro account ⟨id, hrow⟩ hall
      exact lookup_alone hcovered.addresses hrow ((alone_iff h hrow).mpr hall)

end Table

/-! ### Both backends -/

/-- Two backends that are given the same accounts. -/
structure Backends where
  temp : TempDbBackend
  memory : InMemoryBackend

def Backends.new : Backends := ⟨.new, .new⟩

def Backends.insert_account (s : Backends) (account : AccountEntry) : Backends :=
  ⟨(s.temp.insert_account account).2, (s.memory.insert_account account).2⟩

def machine : Machine Backends AccountEntry where
  step s account := some (s.insert_account account)

/-- A search has the same answer in whatever order the map is iterated. -/
def Unique (s : InMemoryBackend) (search : List AccountEntry → Option AccountEntry) : Prop :=
  ∀ iter iter', s.Iterates iter → s.Iterates iter' → search iter = search iter'

/-- The backends answer alike where the answer from memory is unique. -/
structure Alike (s : Backends) : Prop where
  by_id : ∀ id, s.temp.get_account_by_id id = s.memory.get_account_by_id id
  by_key : ∀ key, Unique s.memory (InMemoryBackend.get_account_by_key key) →
    ∀ iter, s.memory.Iterates iter →
      s.temp.get_account_by_key key = InMemoryBackend.get_account_by_key key iter
  by_address : ∀ addr, Unique s.memory (InMemoryBackend.get_account_by_address addr) →
    ∀ iter, s.memory.Iterates iter →
      s.temp.get_account_by_address addr = InMemoryBackend.get_account_by_address addr iter

/-- No key and no address that the account gives up is left to exactly one other account. -/
def Spared (s : Backends) (account : AccountEntry) : Prop :=
  Spares AccountEntry.public_key s.temp.accounts account.key_id account ∧
    Spares AccountEntry.chain_addr s.temp.accounts account.key_id account

/-- Both backends hold the same accounts. -/
def Same (s : Backends) : Prop := ∀ id, s.temp.accounts id = s.memory.accounts.lookup id

section Step
variable {s : Backends} {account : AccountEntry}

theorem keyed_insert {db : TempDbBackend} (h : Keyed db) : Keyed (db.insert_account account).2 := by
  intro id other hother
  rw [TempDbBackend.accounts_insert, Function.update_apply] at hother
  split at hother
  · next hid => rw [hid, Option.some.inj hother]
  · exact h id other hother

theorem indexed_insert {db : TempDbBackend} (h : Indexed db) : Indexed (db.insert_account account).2 := by
  refine ⟨keyed_insert h.keyed, ?_, ?_⟩
  · rw [TempDbBackend.key_to_id_insert]
    exact sound_replace h.keys
  · rw [TempDbBackend.address_to_id_insert]
    exact sound_replace h.addresses

theorem covered_insert_iff (h : Covered s.temp) :
    Covered (s.insert_account account).temp ↔ Spared s account := by
  have hkeys : Complete AccountEntry.public_key (s.temp.insert_account account).2.accounts
      (s.temp.insert_account account).2.key_to_id ↔
      Spares AccountEntry.public_key s.temp.accounts account.key_id account := by
    rw [TempDbBackend.key_to_id_insert]
    exact complete_replace_iff h.keys
  have haddresses : Complete AccountEntry.chain_addr (s.temp.insert_account account).2.accounts
      (s.temp.insert_account account).2.address_to_id ↔
      Spares AccountEntry.chain_addr s.temp.accounts account.key_id account := by
    rw [TempDbBackend.address_to_id_insert]
    exact complete_replace_iff h.addresses
  exact ⟨fun hcovered => ⟨hkeys.mp hcovered.keys, haddresses.mp hcovered.addresses⟩,
    fun hspared => ⟨hkeys.mpr hspared.1, haddresses.mpr hspared.2⟩⟩

theorem same_insert (h : Same s) : Same (s.insert_account account) := by
  intro id
  show Function.update s.temp.accounts account.key_id (some account) id =
    (s.memory.accounts.insert account.key_id account).lookup id
  by_cases hid : id = account.key_id
  · rw [hid, Function.update_self, AList.lookup_insert]
  · rw [Function.update_of_ne hid, AList.lookup_insert_ne hid]
    exact h id

/-- An iteration meets the accounts that are stored. -/
theorem mem_iterates (hsame : Same s) {iter : List AccountEntry} (hiter : s.memory.Iterates iter)
    (account : AccountEntry) : account ∈ iter ↔ ∃ id, s.temp.accounts id = some account := by
  rw [hiter.mem_iff, List.mem_map]
  constructor
  · intro ⟨⟨id, stored⟩, hmem, heq⟩
    obtain rfl : stored = account := heq
    exact ⟨id, (hsame id).trans (AList.mem_lookup_iff.mpr hmem)⟩
  · intro ⟨id, hid⟩
    rw [hsame id] at hid
    exact ⟨⟨id, account⟩, AList.mem_lookup_iff.mp hid, rfl⟩

/-- Where the answer is unique, one account at most is searched for. -/
theorem one_of_unique {K : Type} [DecidableEq K] {view : AccountEntry → K} {k : K} {m : InMemoryBackend}
    (h : Unique m (·.find? fun account => view account = k)) {iter : List AccountEntry}
    (hiter : m.Iterates iter) : ∀ a ∈ iter, ∀ b ∈ iter, view a = k → view b = k → a = b := by
  have hfirst : ∀ a ∈ iter, view a = k → iter.find? (fun account => view account = k) = some a := by
    intro a ha hview
    have hmoved : m.Iterates (a :: iter.erase a) := (List.perm_cons_erase ha).symm.trans hiter
    exact (h iter _ hiter hmoved).trans (List.find?_cons_of_pos (decide_eq_true hview))
  intro a ha b hb hview hview'
  exact Option.some.inj ((hfirst a ha hview).symm.trans (hfirst b hb hview'))

theorem alike (hsame : Same s) (h : Indexed s.temp) (hcovered : Covered s.temp) : Alike s := by
  refine ⟨hsame, fun key hunique iter hiter => ?_, fun addr hunique iter hiter => ?_⟩
  · exact (find_eq_lookup h.keys hcovered.keys h.keyed (mem_iterates hsame hiter)
      (one_of_unique hunique hiter)).symm
  · exact (find_eq_lookup h.addresses hcovered.addresses h.keyed (mem_iterates hsame hiter)
      (one_of_unique hunique hiter)).symm

end Step

/-! ### Runs -/

theorem indexed_new : Indexed .new := by
  constructor
  · intro id account hrow
    cases hrow
  · intro key id hentry
    cases hentry
  · intro addr id hentry
    cases hentry

theorem covered_new : Covered .new := by
  constructor
  · intro key id ⟨⟨_, hrow, _⟩, _⟩
    cases hrow
  · intro addr id ⟨⟨_, hrow, _⟩, _⟩
    cases hrow

/-- What is found has the key or the address it is found by, whatever was inserted. -/
theorem found_run {s : Backends} {accounts : List AccountEntry} (hrun : machine.run .new accounts = some s) :
    Found s.temp := by
  refine Indexed.found (machine.run_invariant_of_step (I := fun s => Indexed s.temp) ?_ hrun indexed_new)
  intro s account s' h hstep
  cases hstep
  exact indexed_insert h

/-- After every insert of a run the accounts that are alone with their keys are found and the backends
answer alike, if and only if every insert spares the others. -/
theorem indexed_iff (accounts : List AccountEntry) :
    machine.Meets (fun s account => ∀ s', machine.step s account = some s' →
      Found s'.temp ∧ Finds s'.temp ∧ Alike s') .new accounts ↔
    machine.Meets Spared .new accounts := by
  have hstep : ∀ s account, Same s ∧ Indexed s.temp → Same (s.insert_account account) ∧
      Indexed (s.insert_account account).temp :=
    fun s account h => ⟨same_insert h.1, indexed_insert h.2⟩
  have hnew : (Same .new ∧ Indexed Backends.new.temp) ∧ Covered Backends.new.temp :=
    ⟨⟨fun _ => rfl, indexed_new⟩, covered_new⟩
  constructor
  · intro hall
    refine hall.of_invariant (I := fun s => (Same s ∧ Indexed s.temp) ∧ Covered s.temp) ?_ ?_ hnew
    · intro s account s' hfinds ⟨h, _⟩ hs'
      cases hs'
      exact ⟨hstep s account h, (finds_iff (hstep s account h).2.keyed).mp (hfinds _ rfl).2.1⟩
    · intro s account hfinds ⟨h, hcovered⟩
      exact (covered_insert_iff hcovered).mp ((finds_iff (hstep s account h).2.keyed).mp (hfinds _ rfl).2.1)
  · intro hspared
    refine hspared.of_invariant (I := fun s => (Same s ∧ Indexed s.temp) ∧ Covered s.temp) ?_ ?_ hnew
    · intro s account s' hC ⟨h, hcovered⟩ hs'
      cases hs'
      exact ⟨hstep s account h, (covered_insert_iff hcovered).mpr hC⟩
    · intro s account hC ⟨h, hcovered⟩ s' hs'
      cases hs'
      have hafter := (covered_insert_iff hcovered).mpr hC
      have hinv := hstep s account h
      exact ⟨hinv.2.found, (finds_iff hinv.2.keyed).mpr hafter, alike hinv.1 hinv.2 hafter⟩

/-- The key that the first account gives up is then not found, though the second one has it. -/
theorem key_not_found : ∃ s, machine.run .new [.of 1 7 1, .of 2 7 2, .of 1 8 1] = some s ∧
    Stored s.temp (.of 2 7 2) ∧
    (∀ other, Stored s.temp other → other.public_key = .of 7 → other = .of 2 7 2) ∧
    s.temp.get_account_by_key (.of 7) = none := by
  refine ⟨_, rfl, ⟨2, rfl⟩, ?_, rfl⟩
  intro other ⟨id, hother⟩ hkey
  simp only [TempDbBackend.get_account_by_id, Backends.insert_account, TempDbBackend.accounts_insert,
    Function.update_apply] at hother
  split at hother
  · cases hother; cases hkey
  · split at hother
    · cases hother; rfl
    · next hfirst _ =>
      have hnone : id ≠ (AccountEntry.of 1 7 1).key_id := hfirst
      rw [if_neg hnone] at hother
      cases hother

end Hopr.Connector.AccountIndex
