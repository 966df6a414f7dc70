import Hopr.TicketManager.OutgoingStore

/-! Outgoing ticket indices and their cache.

An `OutgoingIndexEntry` counts the indices of one channel and epoch and knows
whether it changed since it was last saved. `OutgoingIndexCache` holds the
entries, and the keys whose entry was removed since. Calls are written here as
one caller sees them; `increment_at_least_run` and `set_run` say in one equation
what they return and leave behind.

Saving goes through the dirty entries and then through the removed keys
(`save`). After a save none of whose store calls fails, every entry is clean, no
removal is pending and the store holds for each key what `saved` says
(`save_ok`). -/
namespace Hopr.TicketManager

theorem toNat_max (a b : UInt64) : (max a b).toNat = max a.toNat b.toNat := by
  show (if a ≤ b then b else a).toNat = max a.toNat b.toNat
  split
  · rename_i h
    rw [UInt64.le_iff_toNat_le] at h
    omega
  · rename_i h
    rw [UInt64.le_iff_toNat_le] at h
    omega

theorem toNat_min (a b : UInt64) : (min a b).toNat = min a.toNat b.toNat := by
  show (if a ≤ b then a else b).toNat = min a.toNat b.toNat
  split
  · rename_i h
    rw [UInt64.le_iff_toNat_le] at h
    omega
  · rename_i h
    rw [UInt64.le_iff_toNat_le] at h
    omega

structure OutgoingIndexEntry where
  index : UInt64
  is_dirty : Bool
deriving DecidableEq

namespace OutgoingIndexEntry

/-- A new entry is dirty. -/
def new (index : UInt64) : OutgoingIndexEntry := ⟨index, true⟩

/-- `AtomicU64::fetch_add`, which wraps around. -/
def fetch_add (n : UInt64) : StateM OutgoingIndexEntry UInt64 :=
  modifyGet fun e => (e.index, {e with index := e.index + n})

def fetch_max (n : UInt64) : StateM OutgoingIndexEntry UInt64 :=
  modifyGet fun e => (e.index, {e with index := max e.index n})

def mark_dirty : StateM OutgoingIndexEntry Unit := modify fun e => {e with is_dirty := true}

def mark_clean (e : OutgoingIndexEntry) : OutgoingIndexEntry := {e with is_dirty := false}

variable [TicketBuilder]

/-- Takes the next index that is at least `min`. -/
def increment_at_least (min : UInt64) : StateM OutgoingIndexEntry UInt64 := do
  let taken ← fetch_add 1
  let v ← if taken < min then do
      let _ ← fetch_max min
      fetch_add 1
    else pure taken
  if v ≤ TicketBuilder.MAX_TICKET_INDEX then mark_dirty
  return Min.min v TicketBuilder.MAX_TICKET_INDEX

/-- Lifts the index to `new_value`. -/
def set (new_value : UInt64) : StateM OutgoingIndexEntry UInt64 := do
  let current ← fetch_max new_value
  if current < new_value then mark_dirty
  return Min.min (max new_value current) TicketBuilder.MAX_TICKET_INDEX

/-- The index, capped. -/
def get (e : OutgoingIndexEntry) : UInt64 := Min.min e.index TicketBuilder.MAX_TICKET_INDEX

/-- A caller on its own takes the larger of the index and `min`. -/
theorem increment_at_least_run (min : UInt64) (e : OutgoingIndexEntry) :
    (increment_at_least min).run e = (Min.min (max e.index min) TicketBuilder.MAX_TICKET_INDEX,
      ⟨max e.index min + 1, e.is_dirty || decide (max e.index min ≤ TicketBuilder.MAX_TICKET_INDEX)⟩) := by
  have hmax : max e.index min = if e.index < min then min else e.index := by
    apply UInt64.toNat_inj.mp
    rw [toNat_max]
    split
    · rename_i h
      rw [UInt64.lt_iff_toNat_lt] at h
      omega
    · rename_i h
      rw [UInt64.lt_iff_toNat_lt] at h
      omega
  -- the first increment does not pass `min`
  have hlift : e.index < min → max (e.index + 1) min = min := by
    intro h
    apply UInt64.toNat_inj.mp
    have hmin := min.toNat_lt
    rw [UInt64.lt_iff_toNat_lt] at h
    rw [toNat_max, UInt64.toNat_add, show (1 : UInt64).toNat = 1 from rfl, Nat.mod_eq_of_lt (by omega)]
    omega
  rw [hmax]
  by_cases h : e.index < min
  · by_cases hv : min ≤ TicketBuilder.MAX_TICKET_INDEX <;>
      simp [increment_at_least, fetch_add, fetch_max, mark_dirty, h, hlift h, hv] <;> rfl
  · by_cases hv : e.index ≤ TicketBuilder.MAX_TICKET_INDEX <;>
      simp [increment_at_least, fetch_add, mark_dirty, h, hv] <;> rfl

theorem set_run (new_value : UInt64) (e : OutgoingIndexEntry) :
    (set new_value).run e = (Min.min (max new_value e.index) TicketBuilder.MAX_TICKET_INDEX,
      ⟨max e.index new_value, e.is_dirty || decide (e.index < new_value)⟩) := by
  by_cases h : e.index < new_value <;>
    simp [set, fetch_max, mark_dirty, h] <;> rfl

end OutgoingIndexEntry

structure OutgoingIndexCache where
  cache : AList fun _ : IndexKey => OutgoingIndexEntry
  removed : List IndexKey

namespace OutgoingIndexCache
open OutgoingIndexEntry OutgoingIndexStore

def empty : OutgoingIndexCache := ⟨∅, []⟩

/-- The entry cached for a key. -/
def lookup (c : OutgoingIndexCache) (k : IndexKey) : Option OutgoingIndexEntry := c.cache.lookup k

def put (k : IndexKey) (e : OutgoingIndexEntry) (c : OutgoingIndexCache) : OutgoingIndexCache :=
  {c with cache := c.cache.insert k e}

@[simp] theorem lookup_put_self (k : IndexKey) (e : OutgoingIndexEntry) (c : OutgoingIndexCache) :
    (c.put k e).lookup k = some e := AList.lookup_insert c.cache

theorem lookup_put_ne {k k' : IndexKey} (h : k' ≠ k) (e : OutgoingIndexEntry)
    (c : OutgoingIndexCache) : (c.put k e).lookup k' = c.lookup k' := AList.lookup_insert_ne h

/-- A call on the entry of `k`, which is created as `new` if there is none. -/
def on_entry {α : Type} (k : IndexKey) (new : OutgoingIndexEntry) (m : StateM OutgoingIndexEntry α) :
    StateM OutgoingIndexCache α := fun c =>
  let (a, e) := m.run ((c.lookup k).getD new)
  (a, c.put k e)

/-- Drops the entry of `k` and remembers the key. -/
def remove (k : IndexKey) : StateM OutgoingIndexCache Bool := fun c =>
  if (c.lookup k).isSome then (true, ⟨c.cache.erase k, c.removed.insert k⟩) else (false, c)

theorem remove_cases (k : IndexKey) (c : OutgoingIndexCache) :
    (∃ e, c.lookup k = some e ∧ (remove k).run c = (true, ⟨c.cache.erase k, c.removed.insert k⟩)) ∨
    (c.lookup k = none ∧ (remove k).run c = (false, c)) := by
  cases h : c.lookup k with
  | none => exact Or.inr ⟨rfl, by simp [remove, h, StateT.run]⟩
  | some e => exact Or.inl ⟨e, rfl, by simp [remove, h, StateT.run]⟩

section Calls
variable [TicketBuilder]

def next_at_least (k : IndexKey) (min : UInt64) : StateM OutgoingIndexCache UInt64 :=
  on_entry k (.new 0) (increment_at_least min)

def upsert (k : IndexKey) (index : UInt64) : StateM OutgoingIndexCache UInt64 :=
  on_entry k (.new index) (set index)

/-- The value a call of `next_at_least` takes, before it is capped. -/
def taken (k : IndexKey) (min : UInt64) (c : OutgoingIndexCache) : UInt64 :=
  max ((c.lookup k).getD (.new 0)).index min

/-- The entry such a call leaves behind. -/
def advanced (k : IndexKey) (min : UInt64) (c : OutgoingIndexCache) : OutgoingIndexEntry :=
  ⟨taken k min c + 1, ((c.lookup k).getD (.new 0)).is_dirty ||
    decide (taken k min c ≤ TicketBuilder.MAX_TICKET_INDEX)⟩

theorem next_at_least_run (k : IndexKey) (min : UInt64) (c : OutgoingIndexCache) :
    (next_at_least k min).run c =
      (Min.min (taken k min c) TicketBuilder.MAX_TICKET_INDEX, c.put k (advanced k min c)) := by
  have h := increment_at_least_run min ((c.lookup k).getD (.new 0))
  simp only [StateT.run] at h
  simp only [next_at_least, on_entry, StateT.run, h, taken, advanced]
  rfl

/-- A call leaves only an entry clean that was clean and whose index is beyond the bound. -/
theorem advanced_clean {k : IndexKey} {min : UInt64} {c : OutgoingIndexCache}
    (h : (advanced k min c).is_dirty = false) :
    (∃ e, c.lookup k = some e ∧ e.is_dirty = false) ∧
      ¬ taken k min c ≤ TicketBuilder.MAX_TICKET_INDEX := by
  unfold advanced at h
  rw [Bool.or_eq_false_iff, decide_eq_false_iff_not] at h
  obtain ⟨hdirty, hbeyond⟩ := h
  refine ⟨?_, hbeyond⟩
  cases he : c.lookup k with
  | none =>
    rw [he] at hdirty
    exact absurd hdirty (by decide)
  | some e =>
    rw [he] at hdirty
    exact ⟨e, rfl, hdirty⟩

theorem upsert_run (k : IndexKey) (index : UInt64) (c : OutgoingIndexCache) :
    ((upsert k index).run c).2 = c.put k ⟨max ((c.lookup k).getD (.new index)).index index,
      ((c.lookup k).getD (.new index)).is_dirty ||
        decide (((c.lookup k).getD (.new index)).index < index)⟩ := by
  have h := set_run index ((c.lookup k).getD (.new index))
  simp only [StateT.run] at h
  simp only [upsert, on_entry, StateT.run, h]

@[simp] theorem removed_upsert (k : IndexKey) (index : UInt64) (c : OutgoingIndexCache) :
    ((upsert k index).run c).2.removed = c.removed := by
  rw [upsert_run]
  rfl

end Calls

/-! ### Saving -/

/-- A save under way: what became of the cache and the store, and how many store calls failed. -/
structure Saving (S : Type) where
  tracker : OutgoingIndexCache
  store : S
  failed : Nat

section Save
variable {S ε : Type}

/-- Drops a key from the pending removals. -/
def forget (k : IndexKey) (c : OutgoingIndexCache) : OutgoingIndexCache :=
  {c with removed := c.removed.filter (· ≠ k)}

variable [OutgoingIndexStore S ε]

/-- The first loop: a dirty entry is written and marked clean. -/
def save_entry [TicketBuilder] (p : Saving S) (k : IndexKey) : Saving S :=
  match p.tracker.lookup k with
  | some e =>
    if e.is_dirty then
      match (save_outgoing_index k e.get).run p.store with
      | .ok _ s => {p with tracker := p.tracker.put k e.mark_clean, store := s}
      | .error _ s => {p with store := s, failed := p.failed + 1}
    else p
  | none => p

/-- The second loop: a removed key is deleted and forgotten. -/
def delete_entry (p : Saving S) (k : IndexKey) : Saving S :=
  match (delete_outgoing_index k).run p.store with
  | .ok _ s => {p with tracker := p.tracker.forget k, store := s}
  | .error _ s => {p with store := s, failed := p.failed + 1}

/-- Both loops go through what was cached and removed when the save began. -/
def save [TicketBuilder] (c : OutgoingIndexCache) (s : S) : Saving S :=
  c.removed.foldl delete_entry (c.cache.keys.foldl save_entry ⟨c, s, 0⟩)

/-- What the caller of `save` is told. -/
def Saving.result (p : Saving S) : Except String Unit :=
  if 0 < p.failed then .error s!"failed to save {p.failed} outgoing index entries" else .ok ()

end Save

/-! ### What a save can do -/

section Saving
variable {S ε : Type} [OutgoingIndexStore S ε]

/-- The entry of `k` and its stored index are as before, or the entry was dirty and is saved. -/
def EntrySaved [TicketBuilder] (p p' : Saving S) (k : IndexKey) : Prop :=
  p'.tracker.lookup k = p.tracker.lookup k ∧ stored p'.store k = stored p.store k ∨
  ∃ e, p.tracker.lookup k = some e ∧ e.is_dirty = true ∧
    p'.tracker.lookup k = some e.mark_clean ∧ stored p'.store k = some e.get

/-- A removal and the stored index are as before, or one of the keys `ks` is deleted. -/
def RemovalDone (ks : List IndexKey) (p p' : Saving S) (k : IndexKey) : Prop :=
  (k ∈ p'.tracker.removed ↔ k ∈ p.tracker.removed) ∧ stored p'.store k = stored p.store k ∨
  k ∈ ks ∧ k ∉ p'.tracker.removed ∧ stored p'.store k = none

theorem EntrySaved.trans [TicketBuilder] {p p' p'' : Saving S} {k : IndexKey}
    (h : EntrySaved p p' k) (h' : EntrySaved p' p'' k) : EntrySaved p p'' k := by
  rcases h with ⟨hlookup, hstored⟩ | ⟨e, he, hdirty, hclean, hsaved⟩
  · unfold EntrySaved at h' ⊢
    rw [hlookup, hstored] at h'
    exact h'
  · rcases h' with ⟨hlookup, hstored⟩ | ⟨e', he', hdirty', _, _⟩
    · exact Or.inr ⟨e, he, hdirty, hlookup.trans hclean, hstored.trans hsaved⟩
    · -- an entry that was saved is clean
      cases hclean.symm.trans he'
      cases hdirty'

theorem RemovalDone.trans {ks : List IndexKey} {p p' p'' : Saving S} {k : IndexKey}
    (h : RemovalDone ks p p' k) (h' : RemovalDone ks p' p'' k) : RemovalDone ks p p'' k := by
  rcases h' with ⟨hremoved, hstored⟩ | h'
  · unfold RemovalDone at h ⊢
    rw [hremoved, hstored]
    exact h
  · exact Or.inr h'

theorem save_failed [TicketBuilder] [NonFailingIndexStore S] (c : OutgoingIndexCache) (s : S) :
    (save c s).failed = 0 := by
  have hentry : ∀ (p : Saving S) k, (save_entry p k).failed = p.failed := by
    intro p k
    unfold save_entry
    split
    · rename_i e _
      obtain ⟨s', hrun⟩ := NonFailingIndexStore.save_total p.store k e.get
      rw [hrun]
      split <;> rfl
    · rfl
  have hdelete : ∀ (p : Saving S) k, (delete_entry p k).failed = p.failed := by
    intro p k
    obtain ⟨s', hrun⟩ := NonFailingIndexStore.delete_total p.store k
    unfold delete_entry
    rw [hrun]
  have hentries : (c.cache.keys.foldl save_entry ⟨c, s, 0⟩).failed = 0 :=
    List.foldlRecOn (motive := fun p => p.failed = 0) _ _ rfl fun p hp k _ => (hentry p k).trans hp
  exact List.foldlRecOn (motive := fun p => p.failed = 0) _ _ hentries fun p hp k _ =>
    (hdelete p k).trans hp

theorem Saving.result_ok_iff (p : Saving S) : p.result = .ok () ↔ p.failed = 0 := by
  unfold Saving.result
  split
  · rename_i h
    exact ⟨fun he => (nomatch he), fun he => absurd h (by omega)⟩
  · rename_i h
    exact ⟨fun _ => by omega, fun _ => rfl⟩

variable [LawfulOutgoingIndexStore S]

/-- A turn of the first loop saves the entry of its key, or fails, or finds it clean. -/
theorem save_entry_spec [TicketBuilder] (p : Saving S) (k : IndexKey) :
    (∀ k', EntrySaved p (save_entry p k) k') ∧
      (save_entry p k).tracker.removed = p.tracker.removed ∧ p.failed ≤ (save_entry p k).failed ∧
      ((save_entry p k).failed = p.failed →
        ∀ e, (save_entry p k).tracker.lookup k = some e → e.is_dirty = false) := by
  cases he : p.tracker.lookup k with
  | none =>
    have hsame : save_entry p k = p := by simp only [save_entry, he]
    rw [hsame]
    refine ⟨fun _ => Or.inl ⟨rfl, rfl⟩, rfl, Nat.le_refl _, fun _ e h => ?_⟩
    cases he.symm.trans h
  | some e =>
    by_cases hdirty : e.is_dirty = true
    · cases hrun : (save_outgoing_index k e.get).run p.store with
      | ok r s =>
        have heq : save_entry p k = {p with tracker := p.tracker.put k e.mark_clean, store := s} := by
          simp only [save_entry, he, if_pos hdirty, hrun]
        rw [heq]
        refine ⟨fun k' => ?_, rfl, Nat.le_refl _, fun _ e' h => ?_⟩
        · have hs := LawfulOutgoingIndexStore.save_ok hrun
          by_cases hk : k' = k
          · subst hk
            exact Or.inr ⟨e, he, hdirty, lookup_put_self .., by rw [hs, Function.update_self]⟩
          · exact Or.inl ⟨lookup_put_ne hk .., by rw [hs, Function.update_of_ne hk]⟩
        · cases (lookup_put_self k e.mark_clean p.tracker).symm.trans h
          rfl
      | error e' s =>
        have heq : save_entry p k = {p with store := s, failed := p.failed + 1} := by
          simp only [save_entry, he, if_pos hdirty, hrun]
        have hs := LawfulOutgoingIndexStore.save_error hrun
        rw [heq]
        exact ⟨fun k' => Or.inl ⟨rfl, congrFun hs k'⟩, rfl, Nat.le_succ _,
          fun h => absurd h (Nat.succ_ne_self _)⟩
    · have hsame : save_entry p k = p := by simp only [save_entry, he, if_neg hdirty]
      rw [hsame]
      refine ⟨fun _ => Or.inl ⟨rfl, rfl⟩, rfl, Nat.le_refl _, fun _ e' h => ?_⟩
      cases he.symm.trans h
      exact eq_false_of_ne_true hdirty

theorem save_entries_spec [TicketBuilder] (ks : List IndexKey) (p : Saving S) :
    (∀ k, EntrySaved p (ks.foldl save_entry p) k) ∧
      (ks.foldl save_entry p).tracker.removed = p.tracker.removed ∧
      p.failed ≤ (ks.foldl save_entry p).failed ∧
      ((ks.foldl save_entry p).failed = p.failed →
        ∀ k ∈ ks, ∀ e, (ks.foldl save_entry p).tracker.lookup k = some e → e.is_dirty = false) := by
  induction ks generalizing p with
  | nil => exact ⟨fun _ => Or.inl ⟨rfl, rfl⟩, rfl, Nat.le_refl _, fun _ k hk => absurd hk List.not_mem_nil⟩
  | cons k ks ih =>
    obtain ⟨hentry, hremoved, hle, hclean⟩ := save_entry_spec p k
    obtain ⟨hentries, hremoved', hle', hclean'⟩ := ih (save_entry p k)
    rw [List.foldl_cons]
    refine ⟨fun k' => (hentry k').trans (hentries k'), hremoved'.trans hremoved,
      Nat.le_trans hle hle', fun hfailed k' hk' e he => ?_⟩
    have hfailed_first : (save_entry p k).failed = p.failed :=
      Nat.le_antisymm (hfailed ▸ hle') hle
    rcases List.mem_cons.mp hk' with rfl | hk'
    · -- clean after its own turn, and clean entries are left alone
      rcases hentries k' with ⟨hlookup, _⟩ | ⟨_, _, _, hlookup, _⟩
      · exact hclean hfailed_first e (hlookup.symm.trans he)
      · cases hlookup.symm.trans he
        rfl
    · exact hclean' (hfailed.trans hfailed_first.symm) k' hk' e he

theorem delete_entry_spec {ks : List IndexKey} (p : Saving S) {k : IndexKey} (hk : k ∈ ks) :
    (∀ k', RemovalDone ks p (delete_entry p k) k') ∧
      (∀ k', (delete_entry p k).tracker.lookup k' = p.tracker.lookup k') ∧
      p.failed ≤ (delete_entry p k).failed ∧
      ((delete_entry p k).failed = p.failed →
        k ∉ (delete_entry p k).tracker.removed ∧ stored (delete_entry p k).store k = none) := by
  unfold delete_entry
  cases hrun : (delete_outgoing_index k).run p.store with
  | ok r s =>
    have hs := LawfulOutgoingIndexStore.delete_ok hrun
    have hout : k ∉ (p.tracker.forget k).removed := by simp [forget]
    refine ⟨fun k' => ?_, fun _ => rfl, Nat.le_refl _, fun _ => ⟨hout, ?_⟩⟩
    · by_cases hk' : k' = k
      · subst hk'
        exact Or.inr ⟨hk, hout, by rw [hs, Function.update_self]⟩
      · refine Or.inl ⟨?_, by rw [hs, Function.update_of_ne hk']⟩
        simp [forget, hk']
    · rw [hs, Function.update_self]
  | error e s =>
    have hs := LawfulOutgoingIndexStore.delete_error hrun
    exact ⟨fun k' => Or.inl ⟨Iff.rfl, congrFun hs k'⟩, fun _ => rfl, Nat.le_succ _,
      fun h => absurd h (Nat.succ_ne_self _)⟩

theorem delete_entries_spec {all : List IndexKey} (ks : List IndexKey) (hks : ks ⊆ all)
    (p : Saving S) :
    (∀ k, RemovalDone all p (ks.foldl delete_entry p) k) ∧
      (∀ k, (ks.foldl delete_entry p).tracker.lookup k = p.tracker.lookup k) ∧
      p.failed ≤ (ks.foldl delete_entry p).failed ∧
      ((ks.foldl delete_entry p).failed = p.failed →
        ∀ k ∈ ks, k ∉ (ks.foldl delete_entry p).tracker.removed ∧
          stored (ks.foldl delete_entry p).store k = none) := by
  induction ks generalizing p with
  | nil => exact ⟨fun _ => Or.inl ⟨Iff.rfl, rfl⟩, fun _ => rfl, Nat.le_refl _,
      fun _ k hk => absurd hk List.not_mem_nil⟩
  | cons k ks ih =>
    obtain ⟨hremoval, hlookup, hle, hdone⟩ := delete_entry_spec p (hks (List.mem_cons_self ..))
    obtain ⟨hremovals, hlookup', hle', hdone'⟩ :=
      ih (fun _ h => hks (List.mem_cons_of_mem _ h)) (delete_entry p k)
    rw [List.foldl_cons]
    refine ⟨fun k' => (hremoval k').trans (hremovals k'), fun k' => (hlookup' k').trans (hlookup k'),
      Nat.le_trans hle hle', fun hfailed k' hk' => ?_⟩
    have hfailed_first : (delete_entry p k).failed = p.failed :=
      Nat.le_antisymm (hfailed ▸ hle') hle
    rcases List.mem_cons.mp hk' with rfl | hk'
    · obtain ⟨hout, hnone⟩ := hdone hfailed_first
      rcases hremovals k' with ⟨hiff, hstored⟩ | ⟨_, hout', hnone'⟩
      · exact ⟨fun h => hout (hiff.mp h), hstored.trans hnone⟩
      · exact ⟨hout', hnone'⟩
    · exact hdone' (hfailed.trans hfailed_first.symm) k' hk'

/-- The two loops of a save, one after the other; without a failed store call every entry is
clean in the end and no removal is left. -/
theorem save_spec [TicketBuilder] (c : OutgoingIndexCache) (s : S) :
    ∃ p : Saving S, (∀ k, EntrySaved ⟨c, s, 0⟩ p k) ∧ p.tracker.removed = c.removed ∧
      (∀ k, RemovalDone c.removed p (save c s) k) ∧
      (∀ k, (save c s).tracker.lookup k = p.tracker.lookup k) ∧
      ((save c s).failed = 0 → (∀ k e, (save c s).tracker.lookup k = some e → e.is_dirty = false) ∧
        ∀ k, k ∉ (save c s).tracker.removed) := by
  obtain ⟨hentry, hremoved, _, hclean⟩ := save_entries_spec c.cache.keys ⟨c, s, 0⟩
  obtain ⟨hremoval, hlookup, hle, hdone⟩ := delete_entries_spec c.removed (List.Subset.refl _)
    (c.cache.keys.foldl save_entry ⟨c, s, 0⟩)
  refine ⟨_, hentry, hremoved, hremoval, hlookup, fun hfailed => ?_⟩
  have hfailed_first : (c.cache.keys.foldl save_entry ⟨c, s, 0⟩).failed = 0 :=
    Nat.le_zero.mp (hle.trans (Nat.le_of_eq hfailed))
  refine ⟨fun k e he => ?_, fun k hk => ?_⟩
  · have hmem : k ∈ c.cache.keys := by
      by_contra hout
      have hnone : c.lookup k = none := AList.lookup_eq_none.mpr fun h => hout (AList.mem_keys.mp h)
      have he' := (hlookup k).symm.trans he
      rcases hentry k with ⟨hsame, _⟩ | ⟨_, hsome, _⟩
      · cases hnone.symm.trans (hsame.symm.trans he')
      · cases hnone.symm.trans hsome
    exact hclean hfailed_first k hmem e ((hlookup k).symm.trans he)
  · have hin : k ∈ c.removed := by
      rcases hremoval k with ⟨hiff, _⟩ | ⟨_, hout, _⟩
      · exact hremoved ▸ hiff.mp hk
      · exact absurd hk hout
    exact (hdone (hfailed.trans hfailed_first.symm) k hin).1 hk

/-- A save of which no call fails stores the index of every cached key, if each entry that differs
from the store is dirty and no cached key awaits its removal. -/
theorem save_stores [TicketBuilder] {c : OutgoingIndexCache} {s : S} (hok : (save c s).failed = 0)
    (hmarked : ∀ k e, c.lookup k = some e → stored s k ≠ some e.get → e.is_dirty = true)
    (hremoved : ∀ k ∈ c.removed, c.lookup k = none) {k : IndexKey} {e : OutgoingIndexEntry}
    (he : c.lookup k = some e) : stored (save c s).store k = some e.get := by
  obtain ⟨p, hentry, _, hremoval, hlookup, hdone⟩ := save_spec c s
  have hp : stored p.store k = some e.get := by
    rcases hentry k with ⟨hsame, hstored⟩ | ⟨e', he', _, _, hstored⟩
    · by_contra hne
      have hdirty := hmarked k e he fun heq => hne (hstored.trans heq)
      have hclean := (hdone hok).1 k e ((hlookup k).trans (hsame.trans he))
      exact absurd (hclean.symm.trans hdirty) (by decide)
    · obtain rfl := Option.some.inj (he.symm.trans he')
      exact hstored
  rcases hremoval k with ⟨_, hstored⟩ | ⟨hin, _, _⟩
  · exact hstored.trans hp
  · exact absurd ((hremoved k hin).symm.trans he) (by simp)

end Saving

end OutgoingIndexCache

end Hopr.TicketManager
