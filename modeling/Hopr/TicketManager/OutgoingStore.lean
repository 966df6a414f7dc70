import Mathlib.Data.List.AList
import Hopr.TicketManager.Ticket

/-! Stores of outgoing ticket indices.

`OutgoingIndexStore` is the trait a backend implements; as with ticket queues a
call may fail, a read included, and `stored` is what the store holds. The
contract (`LawfulOutgoingIndexStore`) is that a call that succeeds does what it
says and one that fails changes nothing. -/
namespace Hopr.TicketManager

/-- A channel and one of its epochs. -/
abbrev IndexKey := ChannelId × UInt32

class OutgoingIndexStore (S : Type) (ε : outParam Type) where
  load_outgoing_index : IndexKey → EStateM ε S (Option UInt64)
  save_outgoing_index : IndexKey → UInt64 → EStateM ε S Unit
  delete_outgoing_index : IndexKey → EStateM ε S Unit
  iter_outgoing_indices : EStateM ε S (List IndexKey)
  /-- The index held for a key. -/
  stored : S → IndexKey → Option UInt64

open OutgoingIndexStore

/-- The contract of a backend. -/
class LawfulOutgoingIndexStore (S : Type) {ε : outParam Type} [OutgoingIndexStore S ε] : Prop where
  load_ok : ∀ {s s' : S} {k r}, (load_outgoing_index k).run s = .ok r s' →
    r = stored s k ∧ stored s' = stored s
  load_error : ∀ {s s' : S} {k e}, (load_outgoing_index k).run s = .error e s' → stored s' = stored s
  save_ok : ∀ {s s' : S} {k v}, (save_outgoing_index k v).run s = .ok () s' →
    stored s' = Function.update (stored s) k (some v)
  save_error : ∀ {s s' : S} {k v e}, (save_outgoing_index k v).run s = .error e s' →
    stored s' = stored s
  delete_ok : ∀ {s s' : S} {k}, (delete_outgoing_index k).run s = .ok () s' →
    stored s' = Function.update (stored s) k none
  delete_error : ∀ {s s' : S} {k e}, (delete_outgoing_index k).run s = .error e s' →
    stored s' = stored s
  iter_ok : ∀ {s s' : S} {l}, iter_outgoing_indices.run s = .ok l s' →
    stored s' = stored s ∧ ∀ k, k ∈ l ↔ (stored s k).isSome
  iter_error : ∀ {s s' : S} {e}, iter_outgoing_indices.run s = .error e s' → stored s' = stored s

/-- A backend none of whose writes fails. -/
class NonFailingIndexStore (S : Type) {ε : outParam Type} [OutgoingIndexStore S ε] : Prop
    extends LawfulOutgoingIndexStore S where
  save_total : ∀ (s : S) (k v), ∃ s', (save_outgoing_index k v).run s = .ok () s'
  delete_total : ∀ (s : S) (k), ∃ s', (delete_outgoing_index k).run s = .ok () s'

/-! ### The store in memory -/

/-- The outgoing indices of `MemoryStore`. -/
structure MemoryIndexStore where
  out_indices : AList fun _ : IndexKey => UInt64

namespace MemoryIndexStore

def empty : MemoryIndexStore := ⟨∅⟩

instance : OutgoingIndexStore MemoryIndexStore Empty where
  load_outgoing_index := fun k s => .ok (s.out_indices.lookup k) s
  save_outgoing_index := fun k v s => .ok () ⟨s.out_indices.insert k v⟩
  delete_outgoing_index := fun k s => .ok () ⟨s.out_indices.erase k⟩
  iter_outgoing_indices := fun s => .ok s.out_indices.keys s
  stored s k := s.out_indices.lookup k

instance : NonFailingIndexStore MemoryIndexStore where
  save_total s k v := ⟨_, rfl⟩
  delete_total s k := ⟨_, rfl⟩
  load_ok := by intro s s' k r h; cases h; exact ⟨rfl, rfl⟩
  load_error := by intro s s' k e h; cases h
  save_ok := by
    intro s s' k v h
    cases h
    funext k'
    by_cases hk : k' = k
    · subst hk
      rw [Function.update_self]
      exact AList.lookup_insert s.out_indices
    · rw [Function.update_of_ne hk]
      exact AList.lookup_insert_ne hk
  save_error := by intro s s' k v e h; cases h
  delete_ok := by
    intro s s' k h
    cases h
    funext k'
    by_cases hk : k' = k
    · subst hk
      rw [Function.update_self]
      exact AList.lookup_erase k' s.out_indices
    · rw [Function.update_of_ne hk]
      exact AList.lookup_erase_ne hk
  delete_error := by intro s s' k e h; cases h
  iter_ok := by
    intro s s' l h
    cases h
    exact ⟨rfl, fun k => AList.mem_keys.symm.trans AList.lookup_isSome.symm⟩
  iter_error := by intro s s' e h; cases h

end MemoryIndexStore

end Hopr.TicketManager
