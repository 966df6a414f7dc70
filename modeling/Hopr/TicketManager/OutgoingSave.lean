import Hopr.Library.Machine
import Hopr.TicketManager.OutgoingIndex

/-! Saving the outgoing index cache, over whole runs.

Calls, removals and saves follow each other in any order, and any store call of
a save may fail. `Faithful` is what a save that fails halfway leaves true: the
store holds the index of every clean entry and nothing for a key that is neither
cached nor pending removal. A successful save then makes the store agree with
the cache (`save_faithful`).

Two things spoil it, and `Sound` excludes them: a removed key that is cached
again when a save begins, whose index is written and then deleted
(`recreated_lost`), and a call that moves the capped index of a clean entry
without marking it. -/
namespace Hopr.TicketManager.OutgoingSave
open OutgoingIndexEntry OutgoingIndexCache OutgoingIndexStore Library

structure State (S : Type) where
  tracker : OutgoingIndexCache
  store : S

inductive Action where
  | next_at_least (k : IndexKey) (min : UInt64)
  | upsert (k : IndexKey) (index : UInt64)
  | remove (k : IndexKey)
  | save

section Machine
variable {S ε : Type} [OutgoingIndexStore S ε] [TicketBuilder]

def step (s : State S) : Action → Option (State S)
  | .next_at_least k min => some {s with tracker := ((next_at_least k min).run s.tracker).2}
  | .upsert k index => some {s with tracker := ((upsert k index).run s.tracker).2}
  | .remove k => some {s with tracker := ((remove k).run s.tracker).2}
  | .save => some ⟨(save s.tracker s.store).tracker, (save s.tracker s.store).store⟩

def machine (S : Type) {ε : Type} [OutgoingIndexStore S ε] : Machine (State S) Action := ⟨step⟩

/-- No key is cached and pending removal when a save begins, and a call on a clean entry marks it
or leaves its capped index as it is. -/
def Sound (s : State S) : Action → Prop
  | .next_at_least k min => ∀ e ∈ s.tracker.lookup k, e.is_dirty = false →
      max e.index min ≤ TicketBuilder.MAX_TICKET_INDEX ∨
        TicketBuilder.MAX_TICKET_INDEX ≤ e.index ∧ (max e.index min).toNat + 1 < 2 ^ 64
  | .save => ∀ k ∈ s.tracker.removed, s.tracker.lookup k = none
  | _ => True

instance : ∀ (s : State S) (a : Action), Decidable (Sound s a)
  | s, .next_at_least k min => inferInstanceAs (Decidable (∀ e ∈ s.tracker.lookup k,
      e.is_dirty = false → max e.index min ≤ TicketBuilder.MAX_TICKET_INDEX ∨
        TicketBuilder.MAX_TICKET_INDEX ≤ e.index ∧ (max e.index min).toNat + 1 < 2 ^ 64))
  | s, .save => inferInstanceAs (Decidable (∀ k ∈ s.tracker.removed, s.tracker.lookup k = none))
  | _, .upsert _ _ | _, .remove _ => .isTrue trivial

/-- Clean entries are stored, and what is neither cached nor pending removal is not. -/
structure Faithful (s : State S) : Prop where
  clean : ∀ k e, s.tracker.lookup k = some e → e.is_dirty = false → stored s.store k = some e.get
  absent : ∀ k, s.tracker.lookup k = none → k ∉ s.tracker.removed → stored s.store k = none

/-- Putting an entry keeps the store faithful if the entry is dirty or says what is stored. -/
theorem Faithful.put {s : State S} (h : Faithful s) {k : IndexKey}
    {e : OutgoingIndexEntry} (he : e.is_dirty = false → stored s.store k = some e.get) :
    Faithful {s with tracker := s.tracker.put k e} := by
  refine ⟨fun k' e' hk' hclean => ?_, fun k' hk' hout => ?_⟩
  · by_cases hk : k' = k
    · subst hk
      cases (lookup_put_self k' e s.tracker).symm.trans hk'
      exact he hclean
    · exact h.clean k' e' ((lookup_put_ne hk e s.tracker).symm.trans hk') hclean
  · by_cases hk : k' = k
    · subst hk
      cases (lookup_put_self k' e s.tracker).symm.trans hk'
    · exact h.absent k' ((lookup_put_ne hk e s.tracker).symm.trans hk') hout

theorem faithful_next {s : State S} (h : Faithful s) {k : IndexKey} {min : UInt64}
    (hs : Sound s (.next_at_least k min)) :
    Faithful {s with tracker := ((next_at_least k min).run s.tracker).2} := by
  rw [next_at_least_run]
  apply h.put
  intro hclean
  obtain ⟨⟨e, he, hdirty⟩, hbeyond⟩ := advanced_clean hclean
  rw [h.clean k e he hdirty]
  have htaken : taken k min s.tracker = max e.index min := by
    unfold taken
    rw [he, Option.getD_some]
  rw [htaken] at hbeyond
  obtain ⟨hcap, hfits⟩ := (hs e he hdirty).resolve_left hbeyond
  -- the index was capped and stays capped
  congr 1
  apply UInt64.toNat_inj.mp
  rw [UInt64.le_iff_toNat_le] at hcap
  have hmax := toNat_max e.index min
  unfold OutgoingIndexEntry.get advanced
  rw [toNat_min, toNat_min, htaken, UInt64.toNat_add, show (1 : UInt64).toNat = 1 from rfl,
    Nat.mod_eq_of_lt hfits]
  omega

theorem faithful_upsert {s : State S} (h : Faithful s) (k : IndexKey) (index : UInt64) :
    Faithful {s with tracker := ((upsert k index).run s.tracker).2} := by
  rw [upsert_run]
  apply h.put
  intro hclean
  rw [Bool.or_eq_false_iff, decide_eq_false_iff_not] at hclean
  obtain ⟨hdirty, hbehind⟩ := hclean
  cases he : s.tracker.lookup k with
  | none =>
    rw [he] at hdirty
    cases hdirty
  | some e =>
    rw [he, Option.getD_some] at hdirty hbehind
    rw [Option.getD_some, h.clean k e he hdirty]
    congr 1
    unfold OutgoingIndexEntry.get
    congr 1
    apply UInt64.toNat_inj.mp
    rw [UInt64.lt_iff_toNat_lt] at hbehind
    rw [toNat_max]
    omega

theorem faithful_remove {s : State S} (h : Faithful s) (k : IndexKey) :
    Faithful {s with tracker := ((remove k).run s.tracker).2} := by
  rcases remove_cases k s.tracker with ⟨e, _, hrun⟩ | ⟨_, hrun⟩
  · rw [hrun]
    refine ⟨fun k' e' hk' hclean => ?_, fun k' hk' hout => ?_⟩
    · have hk : k' ≠ k := by
        rintro rfl
        cases (AList.lookup_erase k' s.tracker.cache).symm.trans hk'
      exact h.clean k' e' ((AList.lookup_erase_ne hk).symm.trans hk') hclean
    · have hk : k' ≠ k := by
        rintro rfl
        exact hout List.mem_insert_self
      refine h.absent k' ((AList.lookup_erase_ne hk).symm.trans hk') fun hin => hout ?_
      exact List.mem_insert_of_mem hin
  · rw [hrun]
    exact h

section Lawful
variable [LawfulOutgoingIndexStore S]

/-- Whatever store calls fail, a save leaves the store faithful. -/
theorem faithful_save {s : State S} (h : Faithful s) (hs : Sound s .save) :
    Faithful ⟨(save s.tracker s.store).tracker, (save s.tracker s.store).store⟩ := by
  obtain ⟨p, hentry, hremoved, hremoval, hlookup, _⟩ := save_spec s.tracker s.store
  -- after the first loop
  have hp : Faithful ⟨p.tracker, p.store⟩ := by
    refine ⟨fun k e hk hclean => ?_, fun k hk hout => ?_⟩
    · rcases hentry k with ⟨hsame, hstored⟩ | ⟨e', _, _, hsaved, hstored⟩
      · exact hstored.trans (h.clean k e (hsame.symm.trans hk) hclean)
      · cases hsaved.symm.trans hk
        exact hstored
    · rcases hentry k with ⟨hsame, hstored⟩ | ⟨_, _, _, hsaved, _⟩
      · exact hstored.trans (h.absent k (hsame.symm.trans hk) (hremoved ▸ hout))
      · cases hsaved.symm.trans hk
  have huncached : ∀ k ∈ s.tracker.removed, p.tracker.lookup k = none := by
    intro k hk
    rcases hentry k with ⟨hsame, _⟩ | ⟨_, hsome, _⟩
    · exact hsame.trans (hs k hk)
    · cases (hs k hk).symm.trans hsome
  refine ⟨fun k e hk hclean => ?_, fun k hk hout => ?_⟩
  · rcases hremoval k with ⟨_, hstored⟩ | ⟨hin, _, _⟩
    · exact hstored.trans (hp.clean k e ((hlookup k).symm.trans hk) hclean)
    · cases (huncached k hin).symm.trans ((hlookup k).symm.trans hk)
  · rcases hremoval k with ⟨hiff, hstored⟩ | ⟨_, _, hnone⟩
    · exact hstored.trans (hp.absent k ((hlookup k).symm.trans hk) fun hin => hout (hiff.mpr hin))
    · exact hnone

theorem faithful_step {s s' : State S} {a : Action} (hs : Sound s a) (h : Faithful s)
    (hstep : step s a = some s') : Faithful s' := by
  cases a with
  | next_at_least k min => cases hstep; exact faithful_next h hs
  | upsert k index => cases hstep; exact faithful_upsert h k index
  | remove k => cases hstep; exact faithful_remove h k
  | save => cases hstep; exact faithful_save h hs

/-- After a save of which no store call fails the store holds exactly what is cached. -/
theorem save_faithful {as : List Action} {store : S} {s : State S}
    (hempty : ∀ k, stored store k = none) (hsound : (machine S).Meets Sound ⟨.empty, store⟩ (as ++ [.save]))
    (hrun : (machine S).run ⟨.empty, store⟩ as = some s)
    (hok : (save s.tracker s.store).result = .ok ()) :
    ∀ k, stored (save s.tracker s.store).store k =
      ((save s.tracker s.store).tracker.lookup k).map OutgoingIndexEntry.get := by
  obtain ⟨has, hlast⟩ := (machine S).meets_append hrun hsound
  have hstart : Faithful (⟨.empty, store⟩ : State S) :=
    ⟨fun _ _ hk => (nomatch hk), fun k _ _ => hempty k⟩
  have hs : Faithful s := (machine S).run_invariant
    (fun _ _ _ hc h hstep => faithful_step hc h hstep) has hrun hstart
  have hsaved := faithful_save hs hlast.1
  have hfailed : (save s.tracker s.store).failed = 0 := (save s.tracker s.store).result_ok_iff.mp hok
  obtain ⟨_, _, _, _, _, hdone⟩ := save_spec s.tracker s.store
  obtain ⟨hclean, hremoved⟩ := hdone hfailed
  intro k
  cases hk : (save s.tracker s.store).tracker.lookup k with
  | none => exact hsaved.absent k hk (hremoved k)
  | some e => exact hsaved.clean k e hk (hclean k e hk)

end Lawful

end Machine

section Memory

local instance : TicketBuilder := .bits48

/-- A key is lifted and another removed between two saves. -/
theorem save_faithful_removed :
    let k : IndexKey := (⟨[1]⟩, 1)
    let k' : IndexKey := (⟨[1]⟩, 2)
    let as : List Action := [.next_at_least k 5, .upsert k' 3, .save, .next_at_least k' 0, .remove k]
    ∃ s : State MemoryIndexStore, (machine MemoryIndexStore).run ⟨.empty, .empty⟩ as = some s ∧
      stored (save s.tracker s.store).store k =
        ((save s.tracker s.store).tracker.lookup k).map OutgoingIndexEntry.get := by
  intro k k' as
  obtain ⟨s, hs, hfailed⟩ : ∃ s : State MemoryIndexStore,
      (machine MemoryIndexStore).run ⟨.empty, .empty⟩ as = some s ∧
        (save s.tracker s.store).failed = 0 := (machine _).exists_run (by decide +kernel)
  exact ⟨s, hs, save_faithful (fun _ => rfl) (by decide +kernel) hs
    ((save s.tracker s.store).result_ok_iff.mpr hfailed) k⟩

/-- The index of a key that was removed and cached again is written, and then deleted. -/
theorem recreated_lost :
    let k : IndexKey := (⟨[1]⟩, 1)
    let as : List Action := [.next_at_least k 0, .remove k, .next_at_least k 7]
    ∃ s : State MemoryIndexStore, (machine MemoryIndexStore).run ⟨.empty, .empty⟩ as = some s ∧
      (save s.tracker s.store).failed = 0 ∧
      (save s.tracker s.store).tracker.lookup k = some ⟨8, false⟩ ∧
      stored (save s.tracker s.store).store k = none := by
  intro k as
  exact (machine _).exists_run (by decide +kernel)

end Memory

end Hopr.TicketManager.OutgoingSave
