import Hopr.TicketManager.OutgoingCalls

/-! A save while calls go on.

Calls of `next_at_least` and `upsert` and one save at a time run as threads over
the index cache and the store, one atomic step after the other. A call creates
the entry of its key if there is none and then takes the steps of
`OutgoingCalls`; a save clones the cache and then, for each entry, loads the
dirty flag, loads the index, writes it and marks the entry clean.

`Covered` is what must not get lost: an entry that differs from the store is
dirty, or some call under way is still going to mark it (`WillMark`). Calls keep
it (`call_progress`). The save endangers it when it marks an entry clean: a call
that moved the counter and stored the flag since the save loaded the index goes
unnoticed, which `Undisturbed` excludes (`flag_lost` is the interleaving). In a
run without such a step every entry that differs from the store is dirty once
all threads are done (`changes_stay_marked`). -/
namespace Hopr.TicketManager.ConcurrentSave
open OutgoingIndexEntry OutgoingIndexCache OutgoingIndexStore OutgoingCalls Library

/-- What the threads share. -/
structure Shared (S : Type) where
  tracker : OutgoingIndexCache
  store : S

/-- The local variables of a save: the cloned entries and removals not yet visited, and how many
store calls failed. -/
structure SaveLocals where
  entries : List IndexKey
  removed : List IndexKey
  failed : Nat
deriving DecidableEq

/-- Where a save is. -/
inductive SaveStep where
  /-- Before the clone, whose entries come in the given order. -/
  | clone (order : List IndexKey)
  /-- Before the dirty flag of the next entry. -/
  | entries
  /-- The entry was dirty; before its index. -/
  | load (k : IndexKey)
  | write (k : IndexKey) (index : UInt64)
  /-- Written; before the entry is marked clean. -/
  | clean (k : IndexKey) (index : UInt64)
  | removals
  | returned (failed : Nat)
deriving DecidableEq

inductive Task where
  /-- A call that has not looked up its entry yet. -/
  | enter (k : IndexKey) (request : OutgoingCalls.Request)
  | call (k : IndexKey) (c : Call)
  | save (locals : SaveLocals) (at_step : SaveStep)
deriving DecidableEq

inductive Request where
  | next_at_least (k : IndexKey) (min : UInt64)
  | upsert (k : IndexKey) (index : UInt64)
  | save (order : List IndexKey)

def start : Request → Task
  | .next_at_least k min => .enter k (.increment_at_least min)
  | .upsert k index => .enter k (.set index)
  | .save order => .save ⟨[], [], 0⟩ (.clone order)

/-- The entry that is created for a key without one. -/
def created : OutgoingCalls.Request → OutgoingIndexEntry
  | .increment_at_least _ => .new 0
  | .set index => .new index

/-- The cache after a call looked up or created its entry. -/
def entered (k : IndexKey) (request : OutgoingCalls.Request) (c : OutgoingIndexCache) :
    OutgoingIndexCache :=
  match c.lookup k with
  | some _ => c
  | none => c.put k (created request)

theorem entered_cases (k : IndexKey) (request : OutgoingCalls.Request) (c : OutgoingIndexCache) :
    (∃ e, c.lookup k = some e ∧ entered k request c = c) ∨
    (c.lookup k = none ∧ entered k request c = c.put k (created request)) := by
  unfold entered
  cases c.lookup k with
  | none => exact Or.inr ⟨rfl, rfl⟩
  | some e => exact Or.inl ⟨e, rfl, rfl⟩

section Machine
variable {S ε : Type} [OutgoingIndexStore S ε] [TicketBuilder]

/-- One atomic step of a save. -/
def save_tick (g : Shared S) (l : SaveLocals) : SaveStep → Option (Shared S × Task)
  | .clone order =>
    if order.Perm g.tracker.cache.keys then
      some (g, .save ⟨order, g.tracker.removed, 0⟩ .entries)
    else none
  | .entries =>
    match l.entries with
    | k :: rest =>
      if (g.tracker.lookup k).any OutgoingIndexEntry.is_dirty then
        some (g, .save {l with entries := rest} (.load k))
      else some (g, .save {l with entries := rest} .entries)
    | [] => some (g, .save l .removals)
  | .load k => do
    let e ← g.tracker.lookup k
    return (g, .save l (.write k e.get))
  | .write k index =>
    match (save_outgoing_index k index).run g.store with
    | .ok _ s => some ({g with store := s}, .save l (.clean k index))
    | .error _ s => some ({g with store := s}, .save {l with failed := l.failed + 1} .entries)
  | .clean k _ => do
    let e ← g.tracker.lookup k
    return ({g with tracker := g.tracker.put k e.mark_clean}, .save l .entries)
  | .removals =>
    match l.removed with
    | k :: rest =>
      match (delete_outgoing_index k).run g.store with
      | .ok _ s => some (⟨g.tracker.forget k, s⟩, .save {l with removed := rest} .removals)
      | .error _ s =>
        some ({g with store := s}, .save {l with removed := rest, failed := l.failed + 1} .removals)
    | [] => some (g, .save l (.returned l.failed))
  | .returned _ => none

/-- One atomic step of a thread. -/
def tick (g : Shared S) : Task → Option (Shared S × Task)
  | .enter k request =>
    some ({g with tracker := entered k request g.tracker}, .call k (OutgoingCalls.start request))
  | .call k c => do
    let e ← g.tracker.lookup k
    let (e', c') ← OutgoingCalls.tick e c
    return ({g with tracker := g.tracker.put k e'}, .call k c')
  | .save l at_step => save_tick g l at_step

def machine (S : Type) {ε : Type} [OutgoingIndexStore S ε] :
    Machine (Pool (Shared S) Task) (Pool.Action Request) := Pool.machine start tick

end Machine

/-! ### A save that is not interrupted -/

section Alone
variable {S ε : Type} [OutgoingIndexStore S ε] [TicketBuilder]

/-- The save runs on its own. -/
def Alone (p : Saving S) (l : SaveLocals) (at_step : SaveStep) (s' : Pool (Shared S) Task) : Prop :=
  ∃ n, (machine S).run ⟨⟨p.tracker, p.store⟩, [.save {l with failed := p.failed} at_step]⟩
    (List.replicate n (.tick 0)) = some s'

theorem Alone.step {p p' : Saving S} {l l' : SaveLocals} {at_step at_step' : SaveStep}
    {s' : Pool (Shared S) Task} (h : Alone p' l' at_step' s')
    (hstep : save_tick ⟨p.tracker, p.store⟩ {l with failed := p.failed} at_step =
      some (⟨p'.tracker, p'.store⟩, .save {l' with failed := p'.failed} at_step')) :
    Alone p l at_step s' := by
  obtain ⟨n, hn⟩ := h
  have hticked : Pool.step start tick
      ⟨⟨p.tracker, p.store⟩, [.save {l with failed := p.failed} at_step]⟩ (.tick 0) =
        some ⟨⟨p'.tracker, p'.store⟩, [.save {l' with failed := p'.failed} at_step']⟩ :=
    Pool.step_tick.mpr ⟨_, _, _, rfl, hstep, rfl⟩
  exact ⟨n + 1, (machine S).run_cons_eq_some.mpr ⟨_, hticked, hn⟩⟩

theorem entries_alone {removed : List IndexKey} {s' : Pool (Shared S) Task} (ks : List IndexKey)
    (p : Saving S) (h : Alone (ks.foldl save_entry p) ⟨[], removed, 0⟩ .entries s') :
    Alone p ⟨ks, removed, 0⟩ .entries s' := by
  induction ks generalizing p with
  | nil => exact h
  | cons k ks ih =>
    have hnext := ih (save_entry p k) h
    cases he : p.tracker.lookup k with
    | none =>
      rw [show save_entry p k = p by simp only [save_entry, he]] at hnext
      exact hnext.step (by simp [save_tick, he])
    | some e =>
      by_cases hdirty : e.is_dirty = true
      · have hwrite : Alone p ⟨ks, removed, 0⟩ (.write k e.get) s' := by
          cases hrun : (save_outgoing_index k e.get).run p.store with
          | ok r store =>
            simp only [save_entry, he, if_pos hdirty, hrun] at hnext
            have hclean : Alone {p with store := store} ⟨ks, removed, 0⟩ (.clean k e.get) s' :=
              hnext.step (by simp [save_tick, he])
            exact hclean.step (by simp [save_tick, hrun])
          | error e' store =>
            simp only [save_entry, he, if_pos hdirty, hrun] at hnext
            exact hnext.step (by simp [save_tick, hrun])
        have hload : Alone p ⟨ks, removed, 0⟩ (.load k) s' := hwrite.step (by simp [save_tick, he])
        exact hload.step (by simp [save_tick, he, hdirty])
      · rw [show save_entry p k = p by simp only [save_entry, he, if_neg hdirty]] at hnext
        exact hnext.step (by simp [save_tick, he, hdirty])

theorem removals_alone {s' : Pool (Shared S) Task} (ks : List IndexKey) (p : Saving S)
    (h : Alone (ks.foldl delete_entry p) ⟨[], [], 0⟩ .removals s') :
    Alone p ⟨[], ks, 0⟩ .removals s' := by
  induction ks generalizing p with
  | nil => exact h
  | cons k ks ih =>
    have hnext := ih (delete_entry p k) h
    cases hrun : (delete_outgoing_index k).run p.store with
    | ok r store =>
      simp only [delete_entry, hrun] at hnext
      exact hnext.step (by simp [save_tick, hrun])
    | error e store =>
      simp only [delete_entry, hrun] at hnext
      exact hnext.step (by simp [save_tick, hrun])

/-- A save that is not interrupted does what `save` says. -/
theorem save_alone (c : OutgoingIndexCache) (store : S) : ∃ n,
    (machine S).run ⟨⟨c, store⟩, []⟩ (.spawn (.save c.cache.keys) :: List.replicate n (.tick 0)) =
      some ⟨⟨(save c store).tracker, (save c store).store⟩,
        [.save ⟨[], [], (save c store).failed⟩ (.returned (save c store).failed)]⟩ := by
  have hreturned : Alone (save c store) ⟨[], [], 0⟩ (.returned (save c store).failed)
      ⟨⟨(save c store).tracker, (save c store).store⟩,
        [.save ⟨[], [], (save c store).failed⟩ (.returned (save c store).failed)]⟩ := ⟨0, rfl⟩
  have hremovals := removals_alone c.removed _ (hreturned.step rfl)
  have hentries := entries_alone c.cache.keys ⟨c, store, 0⟩ (hremovals.step rfl)
  have hclone : Alone ⟨c, store, 0⟩ ⟨[], [], 0⟩ (.clone c.cache.keys) _ :=
    hentries.step (by simp [save_tick])
  obtain ⟨n, hn⟩ := hclone
  exact ⟨n, (machine S).run_cons_eq_some.mpr ⟨_, rfl, hn⟩⟩

end Alone

/-! ### What one step of a call does to its entry -/

section Calls
variable [TicketBuilder]

/-- The call is going to mark its entry, whose counter stands at `index`. -/
def WillMark (index : UInt64) : Call → Prop
  | .increment_at_least _ .lift => index ≤ TicketBuilder.MAX_TICKET_INDEX
  | .increment_at_least _ .retake => index ≤ TicketBuilder.MAX_TICKET_INDEX
  | .increment_at_least _ (.mark v) => v ≤ TicketBuilder.MAX_TICKET_INDEX
  | .set new_value (.mark current) => current < new_value
  | _ => False

/-- A call that lifts the counter lifts it within the bound, or finds it beyond. -/
def Capped (index : UInt64) : Call → Prop
  | .increment_at_least min .lift =>
    min ≤ TicketBuilder.MAX_TICKET_INDEX ∨ TicketBuilder.MAX_TICKET_INDEX < index
  | .increment_at_least min .retake =>
    min ≤ TicketBuilder.MAX_TICKET_INDEX ∨ TicketBuilder.MAX_TICKET_INDEX < index
  | _ => True

/-- The counter does not wrap, and a minimum beyond the bound is only asked of a counter beyond
it, or of one at the bound that is dirty or saved. -/
def Within (e : OutgoingIndexEntry) (saved : Option UInt64) : Call → Prop
  | .increment_at_least min .take => e.index.toNat + 1 < 2 ^ 64 ∧
      (min ≤ TicketBuilder.MAX_TICKET_INDEX ∨ TicketBuilder.MAX_TICKET_INDEX < e.index ∨
        e.index = TicketBuilder.MAX_TICKET_INDEX ∧ (e.is_dirty = true ∨ saved = some e.get))
  | .increment_at_least _ .retake => e.index.toNat + 1 < 2 ^ 64
  | _ => True

theorem get_of_beyond {e e' : OutgoingIndexEntry} (h : TicketBuilder.MAX_TICKET_INDEX ≤ e.index)
    (h' : TicketBuilder.MAX_TICKET_INDEX ≤ e'.index) : e'.get = e.get := by
  apply UInt64.toNat_inj.mp
  unfold OutgoingIndexEntry.get
  rw [UInt64.le_iff_toNat_le] at h h'
  rw [toNat_min, toNat_min]
  omega

/-- Beyond the bound only calls that have taken their value are still going to mark. -/
theorem willMark_of_beyond {index : UInt64} (h : TicketBuilder.MAX_TICKET_INDEX < index) {c : Call}
    (hc : WillMark index c) (index' : UInt64) : WillMark index' c := by
  have hnot : ¬ index ≤ TicketBuilder.MAX_TICKET_INDEX := by
    rw [UInt64.le_iff_toNat_le]
    rw [UInt64.lt_iff_toNat_lt] at h
    omega
  cases c with
  | set new_value at_step => cases at_step <;> exact hc
  | increment_at_least min at_step =>
    cases at_step with
    | lift => exact absurd hc hnot
    | retake => exact absurd hc hnot
    | _ => exact hc

theorem Capped.mono {index index' : UInt64} {c : Call} (h : Capped index c)
    (hle : index.toNat ≤ index'.toNat) : Capped index' c := by
  have hbeyond : TicketBuilder.MAX_TICKET_INDEX < index → TicketBuilder.MAX_TICKET_INDEX < index' := by
    rw [UInt64.lt_iff_toNat_lt, UInt64.lt_iff_toNat_lt]
    omega
  cases c with
  | set new_value at_step => trivial
  | increment_at_least min at_step =>
    cases at_step with
    | lift => exact h.imp_right hbeyond
    | retake => exact h.imp_right hbeyond
    | _ => trivial

/-- After a step that left the entry as it was, or both counters beyond the bound, the call that
stepped is not needed. -/
def Idle (e e' : OutgoingIndexEntry) (saved : Option UInt64) (c : Call) : Prop :=
  e'.get = e.get ∧ e'.is_dirty = e.is_dirty ∧ ¬ WillMark e.index c ∧
    ((∀ d, WillMark e.index d → WillMark e'.index d) ∨ e.is_dirty = true ∨ saved = some e.get)

theorem idle_of_beyond {e : OutgoingIndexEntry} {index : UInt64} {saved : Option UInt64} {c : Call}
    (h : TicketBuilder.MAX_TICKET_INDEX < e.index) (hle : e.index.toNat ≤ index.toNat)
    (hc : WillMark e.index c → e.index ≤ TicketBuilder.MAX_TICKET_INDEX) :
    Idle e {e with index := index} saved c := by
  rw [UInt64.lt_iff_toNat_lt] at h
  refine ⟨get_of_beyond ?_ ?_, rfl, fun hm => ?_, Or.inl fun d hd => willMark_of_beyond ?_ hd index⟩
  · rw [UInt64.le_iff_toNat_le]
    omega
  · rw [UInt64.le_iff_toNat_le]
    show _ ≤ index.toNat
    omega
  · have := hc hm
    rw [UInt64.le_iff_toNat_le] at this
    omega
  · rw [UInt64.lt_iff_toNat_lt]
    exact h

/-- A step of a call never cleans the entry or lowers its counter; and it leaves the entry dirty,
or the call is going to mark it, or nothing changed that matters. -/
structure Progress (e e' : OutgoingIndexEntry) (saved : Option UInt64) (c c' : Call) : Prop where
  grows : e.index.toNat ≤ e'.index.toNat
  dirty : e.is_dirty = true → e'.is_dirty = true
  capped : Capped e'.index c'
  covers : e'.is_dirty = true ∨ WillMark e'.index c' ∨ Idle e e' saved c

end Calls

section Progress
variable {e : OutgoingIndexEntry} {saved : Option UInt64} {min : UInt64}

theorem toNat_next (h : e.index.toNat + 1 < 2 ^ 64) : (e.index + 1).toNat = e.index.toNat + 1 := by
  rw [UInt64.toNat_add, show (1 : UInt64).toNat = 1 from rfl, Nat.mod_eq_of_lt h]

theorem le_toNat_max (index value : UInt64) : index.toNat ≤ (max index value).toNat := by
  rw [toNat_max]
  exact Nat.le_max_left ..

variable [TicketBuilder]

/-- A call that may mark the entry marks it, or is not going to. -/
theorem mark_progress {p : Prop} [Decidable p] {c c' : Call} (hmark : WillMark e.index c → p)
    (hc' : ∀ index, Capped index c') :
    Progress e (if p then {e with is_dirty := true} else e) saved c c' := by
  by_cases hp : p
  · rw [if_pos hp]
    exact ⟨Nat.le_refl _, fun _ => rfl, hc' _, .inl rfl⟩
  · rw [if_neg hp]
    exact ⟨Nat.le_refl _, id, hc' _, .inr (.inr ⟨rfl, rfl, fun hm => hp (hmark hm), .inl fun _ => id⟩)⟩

theorem set_lift_progress (new_value : UInt64) :
    Progress e {e with index := max e.index new_value} saved (.set new_value .lift)
      (.set new_value (.mark e.index)) := by
  refine ⟨le_toNat_max .., id, trivial, .inr ?_⟩
  by_cases hlt : e.index < new_value
  · exact .inl hlt
  · have hsame : max e.index new_value = e.index := by
      apply UInt64.toNat_inj.mp
      rw [UInt64.lt_iff_toNat_lt] at hlt
      rw [toNat_max]
      omega
    rw [hsame]
    exact .inr ⟨rfl, rfl, id, .inl fun _ => id⟩

theorem take_progress (hw : Within e saved (.increment_at_least min .take)) :
    Progress e {e with index := e.index + 1} saved (.increment_at_least min .take)
      (.increment_at_least min (if e.index < min then .lift else .mark e.index)) := by
  obtain ⟨hfits, hmin⟩ := hw
  have hnext := toNat_next hfits
  have hle : e.index.toNat ≤ (e.index + 1).toNat := by omega
  by_cases hbeyond : TicketBuilder.MAX_TICKET_INDEX < e.index
  · refine ⟨hle, id, ?_, .inr (.inr (idle_of_beyond hbeyond hle fun hm => hm.elim))⟩
    split
    · right
      show TicketBuilder.MAX_TICKET_INDEX < e.index + 1
      rw [UInt64.lt_iff_toNat_lt] at hbeyond ⊢
      omega
    · trivial
  · by_cases hbehind : e.index < min
    · rw [if_pos hbehind]
      rcases hmin with hmin | hmin | ⟨hat, hcovered⟩
      · -- lifted within the bound, so the second value is marked
        refine ⟨hle, id, .inl hmin, .inr (.inl ?_)⟩
        show e.index + 1 ≤ TicketBuilder.MAX_TICKET_INDEX
        rw [UInt64.lt_iff_toNat_lt] at hbehind
        rw [UInt64.le_iff_toNat_le] at hmin ⊢
        omega
      · exact absurd hmin hbeyond
      · refine ⟨hle, id, .inr ?_, .inr (.inr ⟨?_, rfl, id, .inr hcovered⟩)⟩
        · rw [UInt64.lt_iff_toNat_lt, ← hat]
          show _ < (e.index + 1).toNat
          omega
        · apply get_of_beyond
          · exact UInt64.le_of_eq hat.symm
          · rw [UInt64.le_iff_toNat_le, ← hat]
            exact hle
    · rw [if_neg hbehind]
      refine ⟨hle, id, trivial, .inr (.inl ?_)⟩
      show e.index ≤ TicketBuilder.MAX_TICKET_INDEX
      rw [UInt64.lt_iff_toNat_lt] at hbeyond
      rw [UInt64.le_iff_toNat_le]
      omega

theorem lift_progress (hc : Capped e.index (.increment_at_least min .lift)) :
    Progress e {e with index := max e.index min} saved (.increment_at_least min .lift)
      (.increment_at_least min .retake) := by
  have hle : e.index.toNat ≤ (max e.index min).toNat := le_toNat_max ..
  refine ⟨hle, id, hc.mono hle, .inr ?_⟩
  rcases hc with hmin | hbeyond
  · by_cases hindex : e.index ≤ TicketBuilder.MAX_TICKET_INDEX
    · left
      show max e.index min ≤ TicketBuilder.MAX_TICKET_INDEX
      rw [UInt64.le_iff_toNat_le] at hmin hindex ⊢
      rw [toNat_max]
      omega
    · exact .inr (idle_of_beyond (UInt64.not_le.mp hindex) hle id)
  · exact .inr (idle_of_beyond hbeyond hle id)

theorem retake_progress (hw : Within e saved (.increment_at_least min .retake)) :
    Progress e {e with index := e.index + 1} saved (.increment_at_least min .retake)
      (.increment_at_least min (.mark e.index)) := by
  have hnext := toNat_next hw
  have hle : e.index.toNat ≤ (e.index + 1).toNat := by omega
  refine ⟨hle, id, trivial, .inr ?_⟩
  by_cases hindex : e.index ≤ TicketBuilder.MAX_TICKET_INDEX
  · exact .inl hindex
  · exact .inr (idle_of_beyond (UInt64.not_le.mp hindex) hle id)

end Progress

section Calls
variable [TicketBuilder]

theorem call_progress {e e' : OutgoingIndexEntry} {c c' : Call} {saved : Option UInt64}
    (h : OutgoingCalls.tick e c = some (e', c')) (hw : Within e saved c) (hc : Capped e.index c) :
    Progress e e' saved c c' := by
  cases c with
  | set new_value at_step =>
    cases at_step with
    | lift =>
      cases h
      exact set_lift_progress new_value
    | mark current =>
      cases h
      exact mark_progress id fun _ => trivial
    | returned v => cases h
  | increment_at_least min at_step =>
    cases at_step with
    | take =>
      cases h
      exact take_progress hw
    | lift =>
      cases h
      exact lift_progress hc
    | retake =>
      cases h
      exact retake_progress hw
    | mark v =>
      cases h
      exact mark_progress id fun _ => trivial
    | returned v => cases h

end Calls

/-! ### What must not get lost -/

section Machine
variable {S ε : Type}

/-- The thread is a save that has not returned. -/
def running : Task → Bool
  | .save _ (.returned _) => false
  | .save _ _ => true
  | _ => false

/-- No save starts while one is under way. -/
def OneSave (s : Pool (Shared S) Task) : Pool.Action Request → Prop
  | .spawn (.save _) => ∀ t ∈ s.threads, running t = false
  | _ => True

/-- The entry of the key is dirty. -/
def DirtyAt (g : Shared S) (k : IndexKey) : Prop :=
  ∃ e, g.tracker.lookup k = some e ∧ e.is_dirty = true

/-- The key has no clean entry. -/
def NotClean (g : Shared S) (k : IndexKey) : Prop :=
  ∀ e, g.tracker.lookup k = some e → e.is_dirty = true

/-- The keys a save is going to delete are not those it is going to write, and an entry that was
created for one since is dirty. -/
def Apart (g : Shared S) (l : SaveLocals) : Prop := ∀ k ∈ l.removed, k ∉ l.entries ∧ NotClean g k

variable [OutgoingIndexStore S ε]

/-- What a save relies on between its steps. -/
def Saves (g : Shared S) (l : SaveLocals) : SaveStep → Prop
  | .clone _ => True
  | .load k => Apart g l ∧ k ∉ l.removed ∧ DirtyAt g k
  | .write k _ => Apart g l ∧ k ∉ l.removed ∧ DirtyAt g k
  | .clean k index => Apart g l ∧ k ∉ l.removed ∧ DirtyAt g k ∧ stored g.store k = some index
  | .returned _ => True
  | _ => Apart g l

end Machine

/-! ### What a step leaves to the others -/

section Others
variable {S ε : Type}

/-- Entries stay, and their counters do not decrease. -/
def Grows (g g' : Shared S) : Prop :=
  ∀ k e, g.tracker.lookup k = some e →
    ∃ e', g'.tracker.lookup k = some e' ∧ e.index.toNat ≤ e'.index.toNat

/-- Entries stay dirty, new ones are, and the store stays as it is. -/
structure Spares (g g' : Shared S) : Prop where
  dirty : ∀ k, DirtyAt g k → DirtyAt g' k
  not_clean : ∀ k, NotClean g k → NotClean g' k
  store : g'.store = g.store

variable [OutgoingIndexStore S ε]

theorem Saves.mono {g g' : Shared S} {l : SaveLocals} {at_step : SaveStep} (h : Saves g l at_step)
    (hspares : Spares g g') : Saves g' l at_step := by
  have hapart : Apart g l → Apart g' l := fun hl k hk =>
    ⟨(hl k hk).1, hspares.not_clean k (hl k hk).2⟩
  cases at_step with
  | clone order => trivial
  | load k => exact ⟨hapart h.1, h.2.1, hspares.dirty k h.2.2⟩
  | write k index => exact ⟨hapart h.1, h.2.1, hspares.dirty k h.2.2⟩
  | clean k index =>
    refine ⟨hapart h.1, h.2.1, hspares.dirty k h.2.2.1, ?_⟩
    rw [hspares.store]
    exact h.2.2.2
  | returned failed => trivial
  | _ => exact hapart h

/-- Putting a grown entry that stays dirty lets the others go on. -/
theorem grows_put {g : Shared S} {k : IndexKey} {e e' : OutgoingIndexEntry}
    (he : g.tracker.lookup k = some e) (hle : e.index.toNat ≤ e'.index.toNat) :
    Grows g {g with tracker := g.tracker.put k e'} := by
  intro k' e₀ he₀
  by_cases hk : k' = k
  · subst hk
    obtain rfl := Option.some.inj (he.symm.trans he₀)
    exact ⟨e', lookup_put_self .., hle⟩
  · exact ⟨e₀, (lookup_put_ne hk ..).trans he₀, Nat.le_refl _⟩

theorem spares_put {g : Shared S} {k : IndexKey} {e e' : OutgoingIndexEntry}
    (he : g.tracker.lookup k = some e) (hdirty : e.is_dirty = true → e'.is_dirty = true) :
    Spares g {g with tracker := g.tracker.put k e'} := by
  refine ⟨fun k' ⟨e₀, he₀, hd⟩ => ?_, fun k' hclean e₀ he₀ => ?_, rfl⟩
  · by_cases hk : k' = k
    · subst hk
      obtain rfl := Option.some.inj (he.symm.trans he₀)
      exact ⟨e', lookup_put_self .., hdirty hd⟩
    · exact ⟨e₀, (lookup_put_ne hk ..).trans he₀, hd⟩
  · by_cases hk : k' = k
    · subst hk
      obtain rfl := Option.some.inj ((lookup_put_self ..).symm.trans he₀)
      exact hdirty (hclean e he)
    · exact hclean e₀ ((lookup_put_ne hk ..).symm.trans he₀)

end Others

/-! ### The invariant -/

section Invariant
variable {S ε : Type} [TicketBuilder]

/-- The thread is going to mark the entry of `k`, whose counter stands at `index`. -/
def Task.will_mark (k : IndexKey) (index : UInt64) : Task → Prop
  | .call k' c => k' = k ∧ WillMark index c
  | _ => False

def Pending (threads : List Task) (k : IndexKey) (index : UInt64) : Prop :=
  ∃ t ∈ threads, t.will_mark k index

variable [OutgoingIndexStore S ε]

/-- An entry that differs from the store is dirty or going to be marked. -/
def Covered (s : Pool (Shared S) Task) : Prop :=
  ∀ k e, s.shared.tracker.lookup k = some e →
    stored s.shared.store k = some e.get ∨ e.is_dirty = true ∨ Pending s.threads k e.index

/-- When a save clones the cache, no cached key awaits its removal; when it marks an entry clean,
the entry still has the index that was saved, or a call is going to mark it again; and no call
wraps the counter or lifts it past the bound unmarked. -/
def Harmless (s : Pool (Shared S) Task) : Task → Prop
  | .call k c => ∀ e ∈ s.shared.tracker.lookup k, Within e (stored s.shared.store k) c
  | .save _ (.clone _) => ∀ k ∈ s.shared.tracker.removed, s.shared.tracker.lookup k = none
  | .save _ (.clean k index) =>
    ∀ e ∈ s.shared.tracker.lookup k, e.get = index ∨ Pending s.threads k e.index
  | _ => True

def Undisturbed (s : Pool (Shared S) Task) : Pool.Action Request → Prop
  | .spawn _ => True
  | .tick i => ∀ t ∈ s.threads[i]?, Harmless s t

/-- What a thread relies on between its steps. -/
def Relies (g : Shared S) : Task → Prop
  | .enter _ _ => True
  | .call k c => ∃ e, g.tracker.lookup k = some e ∧ Capped e.index c
  | .save l at_step => Saves g l at_step

/-- Every thread has what it relies on, and one save is under way. -/
abbrev Holds : Pool (Shared S) Task → Prop :=
  Pool.Holds (fun _ => True) (fun _ g t => Relies g t)
    (fun t u => running t = true → running u = false)

theorem Relies.call_mono {g g' : Shared S} {k : IndexKey} {c : Call} (h : Relies g (.call k c))
    (hgrows : Grows g g') : Relies g' (.call k c) := by
  obtain ⟨e, he, hc⟩ := h
  obtain ⟨e', he', hle⟩ := hgrows k e he
  exact ⟨e', he', hc.mono hle⟩

/-- A thread that is not a save steps. -/
theorem tick_call {g g' : Shared S} {t t' : Task} (h : tick g t = some (g', t'))
    (hnot : ∀ l at_step, t ≠ .save l at_step) (hr : Relies g t)
    (hw : ∀ k c, t = .call k c → ∀ e ∈ g.tracker.lookup k, Within e (stored g.store k) c) :
    Grows g g' ∧ Spares g g' ∧ Relies g' t' ∧ running t' = false := by
  cases t with
  | save l at_step => exact absurd rfl (hnot l at_step)
  | enter k request =>
    simp only [tick, Option.some.injEq, Prod.mk.injEq] at h
    obtain ⟨rfl, rfl⟩ := h
    have hstart : ∀ index, Capped index (OutgoingCalls.start request) := by
      intro index
      cases request <;> trivial
    rcases entered_cases k request g.tracker with ⟨e, he, hsame⟩ | ⟨hnone, hnew⟩
    · rw [hsame]
      exact ⟨fun _ e he => ⟨e, he, Nat.le_refl _⟩, ⟨fun _ => id, fun _ => id, rfl⟩,
        ⟨e, he, hstart _⟩, rfl⟩
    · have hne : ∀ k' e, g.tracker.lookup k' = some e → k' ≠ k := by
        rintro k' e he rfl
        exact absurd (hnone.symm.trans he) (by simp)
      rw [hnew]
      refine ⟨fun k' e he => ⟨e, ?_, Nat.le_refl _⟩,
        ⟨fun k' ⟨e, he, hd⟩ => ⟨e, ?_, hd⟩, fun k' hclean e he => ?_, rfl⟩,
        ⟨created request, lookup_put_self .., hstart _⟩, rfl⟩
      · exact (lookup_put_ne (hne k' e he) ..).trans he
      · exact (lookup_put_ne (hne k' e he) ..).trans he
      · change (g.tracker.put k (created request)).lookup k' = some e at he
        by_cases hk : k' = k
        · rw [hk, lookup_put_self] at he
          obtain rfl := Option.some.inj he
          cases request <;> rfl
        · exact hclean e ((lookup_put_ne hk ..).symm.trans he)
  | call k c =>
    obtain ⟨e, he, hc⟩ := hr
    simp only [tick, he, Option.bind_eq_bind, Option.bind_some, Option.bind_eq_some_iff,
      Option.pure_def, Option.some.injEq, Prod.mk.injEq] at h
    obtain ⟨⟨e', c'⟩, hcall, rfl, rfl⟩ := h
    obtain ⟨hle, hdirty, hcapped, _⟩ := call_progress hcall (hw k c rfl e he) hc
    exact ⟨grows_put he hle, spares_put he hdirty, ⟨e', lookup_put_self .., hcapped⟩, rfl⟩

end Invariant

section NonFailing
variable {S ε : Type}

/-- What a step of a save does to what is shared: nothing, or it writes an index, marks an entry clean, or
deletes an index. -/
inductive SaveEffect [OutgoingIndexStore S ε] (g : Shared S) (l : SaveLocals) : SaveStep → Shared S → Prop where
  | nothing {at_step : SaveStep} : SaveEffect g l at_step g
  | written {k : IndexKey} {index : UInt64} (store : S)
    (hstore : stored store = Function.update (stored g.store) k (some index)) :
    SaveEffect g l (.write k index) {g with store := store}
  | cleaned {k : IndexKey} {index : UInt64} (e : OutgoingIndexEntry) (he : g.tracker.lookup k = some e) :
    SaveEffect g l (.clean k index) {g with tracker := g.tracker.put k e.mark_clean}
  | deleted {k : IndexKey} {rest : List IndexKey} (hremoved : l.removed = k :: rest) (store : S)
    (hstore : stored store = Function.update (stored g.store) k none) :
    SaveEffect g l .removals ⟨g.tracker.forget k, store⟩

theorem SaveEffect.grows [OutgoingIndexStore S ε] {g g' : Shared S} {l : SaveLocals} {at_step : SaveStep}
    (h : SaveEffect g l at_step g') : Grows g g' := by
  cases h with
  | cleaned e he => exact grows_put he (Nat.le_refl _)
  | _ => exact fun _ e he => ⟨e, he, Nat.le_refl _⟩

variable [OutgoingIndexStore S ε] [TicketBuilder]

/-- A thread that is going to mark an entry still is when another thread has stepped. -/
theorem pending_set {threads : List Task} {i : Nat} {t t' : Task} (ht : threads[i]? = some t)
    {k : IndexKey} {index index' : UInt64} (h : Pending threads k index)
    (hkeep : ∀ u : Task, u.will_mark k index → u.will_mark k index' ∧ u ≠ t) :
    Pending (threads.set i t') k index' := by
  obtain ⟨u, hu, hmark⟩ := h
  obtain ⟨hmark', hne⟩ := hkeep u hmark
  obtain ⟨j, hj⟩ := List.mem_iff_getElem?.mp hu
  have hij : i ≠ j := by
    rintro rfl
    exact hne (Option.some.inj (hj.symm.trans ht))
  exact ⟨u, List.mem_of_getElem? ((List.getElem?_set_ne hij).trans hj), hmark'⟩

theorem pending_self {threads : List Task} {i : Nat} {t t' : Task} (ht : threads[i]? = some t)
    {k : IndexKey} {index : UInt64} (h : t'.will_mark k index) : Pending (threads.set i t') k index :=
  ⟨t', List.mem_of_getElem? (List.getElem?_set_self (List.getElem?_eq_some_iff.mp ht).1), h⟩

/-- Only calls on `k` mark it. -/
theorem will_mark_ne {t u : Task} {k : IndexKey} {index : UInt64} (hu : u.will_mark k index)
    (ht : ∀ c, t ≠ .call k c) : u ≠ t := by
  rintro rfl
  cases u with
  | call k' c =>
    obtain ⟨rfl, _⟩ := hu
    exact ht c rfl
  | _ => exact hu

/-- What is covered is covered still where a thread that marks no entry of the key leaves both the entry and
what is stored for it. -/
theorem covered_same {s : Pool (Shared S) Task} {i : Nat} {t t' : Task} {store : S} (hcovered : Covered s)
    (ht : s.threads[i]? = some t) {k : IndexKey} {e : OutgoingIndexEntry} (hne : ∀ c, t ≠ .call k c)
    (he : s.shared.tracker.lookup k = some e) (hstore : stored store k = stored s.shared.store k) :
    stored store k = some e.get ∨ e.is_dirty = true ∨ Pending (s.threads.set i t') k e.index := by
  rw [hstore]
  exact (hcovered k e he).imp_right (Or.imp_right fun hp =>
    pending_set ht hp fun u hu => ⟨hu, will_mark_ne hu hne⟩)

/-- An entry that is created is dirty. -/
theorem covered_enter {s : Pool (Shared S) Task} {i : Nat} {k : IndexKey} {request : OutgoingCalls.Request}
    {t' : Task} (hcovered : Covered s) (ht : s.threads[i]? = some (.enter k request)) :
    Covered ⟨{s.shared with tracker := entered k request s.shared.tracker}, s.threads.set i t'⟩ := by
  intro k' e he
  change (entered k request s.shared.tracker).lookup k' = some e at he
  rcases entered_cases k request s.shared.tracker with ⟨_, _, hold⟩ | ⟨hnone, hnew⟩
  · rw [hold] at he
    exact covered_same hcovered ht nofun he rfl
  · rw [hnew] at he
    by_cases hk : k' = k
    · rw [hk, lookup_put_self] at he
      obtain rfl := Option.some.inj he
      exact Or.inr (Or.inl (by cases request <;> rfl))
    · exact covered_same hcovered ht nofun ((lookup_put_ne hk ..).symm.trans he) rfl

theorem covered_call {s : Pool (Shared S) Task} {i : Nat} {k : IndexKey} {c c' : Call} {e e' : OutgoingIndexEntry}
    (hcovered : Covered s) (ht : s.threads[i]? = some (.call k c)) (he : s.shared.tracker.lookup k = some e)
    (hcall : OutgoingCalls.tick e c = some (e', c')) (hwithin : Within e (stored s.shared.store k) c)
    (hc : Capped e.index c) :
    Covered ⟨{s.shared with tracker := s.shared.tracker.put k e'}, s.threads.set i (.call k c')⟩ := by
  intro k' e₀ he₀
  by_cases hk : k' = k
  · subst hk
    obtain rfl := Option.some.inj ((lookup_put_self ..).symm.trans he₀)
    obtain ⟨_, hdirty, _, hprogress⟩ := call_progress hcall hwithin hc
    rcases hprogress with hd | hmark | ⟨hget, _, hnot, hrest⟩
    · exact Or.inr (Or.inl hd)
    · exact Or.inr (Or.inr (pending_self ht ⟨rfl, hmark⟩))
    · show stored s.shared.store k' = some e'.get ∨ _
      rw [hget]
      rcases hcovered k' e he with hsaved | hd | hp
      · exact Or.inl hsaved
      · exact Or.inr (Or.inl (hdirty hd))
      · rcases hrest with hkeep | hd | hsaved
        · refine Or.inr (Or.inr (pending_set ht hp fun u hu => ?_))
          cases u with
          | call k'' d =>
            obtain ⟨rfl, hd⟩ := hu
            refine ⟨⟨rfl, hkeep d hd⟩, fun heq => hnot ?_⟩
            cases heq
            exact hd
          | _ => exact hu.elim
        · exact Or.inr (Or.inl (hdirty hd))
        · exact Or.inl hsaved
  · refine covered_same hcovered ht ?_ ((lookup_put_ne hk ..).symm.trans he₀) rfl
    rintro c₀ heq
    cases heq
    exact hk rfl

variable [NonFailingIndexStore S]

theorem save_effect {g g' : Shared S} {l : SaveLocals} {at_step : SaveStep} {t' : Task}
    (h : save_tick g l at_step = some (g', t')) : SaveEffect g l at_step g' := by
  cases at_step with
  | clone order =>
    simp only [save_tick] at h
    split at h
    · cases h
      exact .nothing
    · cases h
  | entries =>
    simp only [save_tick] at h
    split at h
    · split at h <;> cases h <;> exact .nothing
    · cases h
      exact .nothing
  | load k =>
    obtain ⟨e, _, hreturn⟩ := Option.bind_eq_some_iff.mp h
    cases hreturn
    exact .nothing
  | write k index =>
    obtain ⟨store, hrun⟩ := NonFailingIndexStore.save_total g.store k index
    simp only [save_tick, hrun] at h
    cases h
    exact .written store (LawfulOutgoingIndexStore.save_ok hrun)
  | clean k index =>
    obtain ⟨e, he, hreturn⟩ := Option.bind_eq_some_iff.mp h
    cases hreturn
    exact .cleaned e he
  | removals =>
    simp only [save_tick] at h
    split at h
    · next k rest hremoved =>
      obtain ⟨store, hrun⟩ := NonFailingIndexStore.delete_total g.store k
      rw [hrun] at h
      cases h
      exact .deleted hremoved store (LawfulOutgoingIndexStore.delete_ok hrun)
    · cases h
      exact .nothing
  | returned failed => cases h

/-- A save has what it relies on after a step. -/
theorem relies_save {g g' : Shared S} {l : SaveLocals} {at_step : SaveStep} {t' : Task}
    (h : save_tick g l at_step = some (g', t')) (hs : Saves g l at_step)
    (hclone : ∀ order, at_step = .clone order → ∀ k ∈ g.tracker.removed, g.tracker.lookup k = none) :
    Relies g' t' := by
  cases at_step with
  | clone order =>
    simp only [save_tick] at h
    split at h
    · next hperm =>
      cases h
      refine fun k hk => ⟨fun hmem => ?_, fun e he => ?_⟩
      · have hnone := hclone order rfl k hk
        exact AList.lookup_eq_none.mp hnone (AList.mem_keys.mpr (hperm.mem_iff.mp hmem))
      · cases (hclone order rfl k hk).symm.trans he
    · cases h
  | entries =>
    simp only [save_tick] at h
    split at h
    · next k rest hentries =>
      have hout : k ∉ l.removed := fun hk => (hs k hk).1 (hentries ▸ List.mem_cons_self ..)
      have hrest : Apart g {l with entries := rest} := fun k' hk' =>
        ⟨fun hmem => (hs k' hk').1 (hentries ▸ List.mem_cons_of_mem _ hmem), (hs k' hk').2⟩
      split at h
      · next hany =>
        cases h
        obtain ⟨e, he, hdirty⟩ := (Option.any_eq_true ..).mp hany
        exact ⟨hrest, hout, e, he, hdirty⟩
      · cases h
        exact hrest
    · cases h
      exact hs
  | load k =>
    obtain ⟨e, _, hreturn⟩ := Option.bind_eq_some_iff.mp h
    cases hreturn
    exact hs
  | write k index =>
    obtain ⟨s, hrun⟩ := NonFailingIndexStore.save_total g.store k index
    simp only [save_tick, hrun] at h
    cases h
    refine ⟨hs.1, hs.2.1, hs.2.2, ?_⟩
    show stored s k = some index
    rw [LawfulOutgoingIndexStore.save_ok hrun, Function.update_self]
  | clean k index =>
    obtain ⟨e, he, hreturn⟩ := Option.bind_eq_some_iff.mp h
    cases hreturn
    obtain ⟨hl, hout, _, _⟩ := hs
    refine fun k' hk' => ⟨(hl k' hk').1, fun e' he' => ?_⟩
    have hne : k' ≠ k := fun heq => hout (heq ▸ hk')
    exact (hl k' hk').2 e' ((lookup_put_ne hne ..).symm.trans he')
  | removals =>
    simp only [save_tick] at h
    split at h
    · next k rest hremoved =>
      obtain ⟨s, hrun⟩ := NonFailingIndexStore.delete_total g.store k
      rw [hrun] at h
      cases h
      exact fun k' hk' => hs k' (hremoved ▸ List.mem_cons_of_mem _ hk')
    · cases h
      trivial
  | returned failed => cases h

/-- What the threads rely on survives every step. -/
theorem holds_step {s s' : Pool (Shared S) Task} {a : Pool.Action Request} (hone : OneSave s a)
    (hundisturbed : Undisturbed s a) (h : Holds s) (hs : Pool.step start tick s a = some s') :
    Holds s' := by
  cases a with
  | spawn r =>
    cases r with
    | save order =>
      refine Pool.spawn_holds h hs trivial fun i u hu => ⟨fun _ => ?_, fun hr => ?_⟩
      · exact hone u (List.mem_of_getElem? hu)
      · exact absurd ((hone u (List.mem_of_getElem? hu)).symm.trans hr) (by decide)
    | next_at_least k min => exact Pool.spawn_holds h hs trivial fun i u _ => ⟨nofun, fun _ => rfl⟩
    | upsert k index => exact Pool.spawn_holds h hs trivial fun i u _ => ⟨nofun, fun _ => rfl⟩
  | tick i =>
    have hwithin : ∀ t, s.threads[i]? = some t → ∀ k c, t = .call k c →
        ∀ e ∈ s.shared.tracker.lookup k, Within e (stored s.shared.store k) c := by
      rintro t ht k c rfl
      exact hundisturbed (.call k c) ht
    have hclone : ∀ l at_step, s.threads[i]? = some (.save l at_step) → ∀ order,
        at_step = .clone order →
          ∀ k ∈ s.shared.tracker.removed, s.shared.tracker.lookup k = none := by
      rintro l at_step ht order rfl
      exact hundisturbed (.save l (.clone order)) ht
    have hsave : ∀ t : Task, (∃ l at_step, t = .save l at_step) ∨ ∀ l at_step, t ≠ .save l at_step := by
      intro t
      cases t with
      | save l at_step => exact Or.inl ⟨l, at_step, rfl⟩
      | _ => exact Or.inr nofun
    refine Pool.tick_holds h hs (fun t g t' ht htick _ hr => ?_)
      (fun j t u g t' ht htick _ hr hru hpair => ?_)
    · rcases hsave t with ⟨l, at_step, rfl⟩ | hnot
      · exact ⟨trivial, relies_save htick hr (hclone l at_step ht)⟩
      · exact ⟨trivial, (tick_call htick hnot hr (hwithin t ht)).2.2.1⟩
    · rcases hsave t with ⟨l, at_step, rfl⟩ | hnot
      · have hgrows := (save_effect htick).grows
        -- the other thread is not a save under way
        have hother : running u = false := by
          apply hpair
          cases at_step with
          | returned failed => cases htick
          | _ => rfl
        refine ⟨?_, fun _ => hother, fun hru => absurd (hother.symm.trans hru) (by decide)⟩
        cases u with
        | enter k request => trivial
        | call k c => exact hru.call_mono hgrows
        | save l' at_step' =>
          cases at_step' with
          | returned failed => trivial
          | _ => cases hother
      · obtain ⟨hgrows, hspares, _, hidle⟩ := tick_call htick hnot hr (hwithin t ht)
        refine ⟨?_, fun hrun => absurd (hidle.symm.trans hrun) (by decide), fun _ => hidle⟩
        cases u with
        | enter k request => trivial
        | call k c => exact hru.call_mono hgrows
        | save l' at_step' => exact Saves.mono hru hspares

theorem covered_save {s : Pool (Shared S) Task} {i : Nat} {l : SaveLocals} {at_step : SaveStep} {g : Shared S}
    {t' : Task} (hundisturbed : Harmless s (.save l at_step)) (hs : Saves s.shared l at_step)
    (hcovered : Covered s) (ht : s.threads[i]? = some (.save l at_step))
    (h : save_tick s.shared l at_step = some (g, t')) : Covered ⟨g, s.threads.set i t'⟩ := by
  intro k' e he
  cases save_effect h with
  | nothing => exact covered_same hcovered ht nofun he rfl
  | @written k index store hstore =>
    by_cases hk : k' = k
    · -- the entry that is written is dirty until it is marked clean
      subst hk
      obtain ⟨_, _, e', he', hdirty⟩ := hs
      obtain rfl := Option.some.inj (he'.symm.trans he)
      exact Or.inr (Or.inl hdirty)
    · exact covered_same hcovered ht nofun he (by rw [hstore, Function.update_of_ne hk])
  | @cleaned k index e' he' =>
    obtain ⟨_, _, _, hstored⟩ := hs
    by_cases hk : k' = k
    · subst hk
      obtain rfl := Option.some.inj ((lookup_put_self ..).symm.trans he)
      rcases hundisturbed e' he' with hget | hp
      · left
        show stored s.shared.store k' = some e'.get
        rw [hget]
        exact hstored
      · exact Or.inr (Or.inr (pending_set ht hp fun u hu => ⟨hu, will_mark_ne hu nofun⟩))
    · exact covered_same hcovered ht nofun ((lookup_put_ne hk ..).symm.trans he) rfl
  | @deleted k rest hremoved store hstore =>
    by_cases hk : k' = k
    · -- an entry that was created since the clone is dirty
      subst hk
      exact Or.inr (Or.inl ((hs k' (hremoved ▸ List.mem_cons_self ..)).2 e he))
    · exact covered_same hcovered ht nofun he (by rw [hstore, Function.update_of_ne hk])

theorem covered_tick {s : Pool (Shared S) Task} {i : Nat} {t t' : Task} {g : Shared S}
    (hundisturbed : Undisturbed s (.tick i)) (h : Holds s) (hcovered : Covered s)
    (ht : s.threads[i]? = some t) (htick : tick s.shared t = some (g, t')) :
    Covered ⟨g, s.threads.set i t'⟩ := by
  have hr := h.each i t ht
  cases t with
  | enter k request =>
    cases htick
    exact covered_enter hcovered ht
  | call k c =>
    obtain ⟨e, he, hc⟩ := hr
    simp only [tick, he, Option.bind_eq_bind, Option.bind_some, Option.bind_eq_some_iff,
      Option.pure_def, Option.some.injEq, Prod.mk.injEq] at htick
    obtain ⟨⟨e', c'⟩, hcall, rfl, rfl⟩ := htick
    exact covered_call hcovered ht he hcall (hundisturbed (.call k c) ht e he) hc
  | save l at_step => exact covered_save (hundisturbed (.save l at_step) ht) hr hcovered ht htick

theorem covered_step {s s' : Pool (Shared S) Task} {a : Pool.Action Request}
    (hundisturbed : Undisturbed s a) (h : Holds s) (hcovered : Covered s)
    (hs : Pool.step start tick s a = some s') : Covered s' := by
  cases a with
  | spawn r =>
    cases hs
    intro k e he
    apply (hcovered k e he).imp_right
    apply Or.imp_right
    rintro ⟨t, ht, hmark⟩
    exact ⟨t, List.mem_append_left _ ht, hmark⟩
  | tick i =>
    obtain ⟨t, g, t', ht, htick, rfl⟩ := Pool.step_tick.mp hs
    exact covered_tick hundisturbed h hcovered ht htick

/-- The thread has returned. -/
def finished : Task → Bool
  | .call _ (.increment_at_least _ (.returned _)) => true
  | .call _ (.set _ (.returned _)) => true
  | .save _ (.returned _) => true
  | _ => false

theorem not_will_mark_of_finished {t : Task} (h : finished t = true) (k : IndexKey) (index : UInt64) :
    ¬ t.will_mark k index := by
  rintro hmark
  cases t with
  | call k' c =>
    cases c with
    | increment_at_least min at_step =>
      cases at_step with
      | returned v => exact hmark.2
      | _ => cases h
    | set new_value at_step =>
      cases at_step with
      | returned v => exact hmark.2
      | _ => cases h
  | _ => exact hmark

/-- In a run without a disturbed save, once all threads have returned, every entry that differs from
the store is dirty, so the next save stores the index of every cached key unless one of them awaits
its removal. -/
theorem changes_stay_marked {tracker : OutgoingIndexCache} {store : S}
    {as : List (Pool.Action Request)} {s : Pool (Shared S) Task}
    (hstart : ∀ k e, tracker.lookup k = some e → stored store k = some e.get ∨ e.is_dirty = true)
    (hone : (machine S).Meets OneSave ⟨⟨tracker, store⟩, []⟩ as)
    (hundisturbed : (machine S).Meets Undisturbed ⟨⟨tracker, store⟩, []⟩ as)
    (hrun : (machine S).run ⟨⟨tracker, store⟩, []⟩ as = some s)
    (hfinished : ∀ t ∈ s.threads, finished t = true) :
    (∀ k e, s.shared.tracker.lookup k = some e → stored s.shared.store k ≠ some e.get →
      e.is_dirty = true) ∧
    ((∀ k ∈ s.shared.tracker.removed, s.shared.tracker.lookup k = none) →
      (save s.shared.tracker s.shared.store).result = .ok () ∧
      ∀ k e, s.shared.tracker.lookup k = some e →
        stored (save s.shared.tracker s.shared.store).store k = some e.get) := by
  have hinit : Holds ⟨⟨tracker, store⟩, []⟩ ∧ Covered (⟨⟨tracker, store⟩, []⟩ : Pool (Shared S) Task) :=
    ⟨⟨trivial, nofun, nofun⟩, fun k e he => (hstart k e he).imp_right Or.inl⟩
  have hs : Holds s ∧ Covered s := (machine S).run_invariant
    (fun s a s' (hc : OneSave s a ∧ Undisturbed s a) (h : Holds s ∧ Covered s) hstep =>
      ⟨holds_step hc.1 hc.2 h.1 hstep, covered_step hc.2 h.1 h.2 hstep⟩)
    (hone.and hundisturbed) hrun hinit
  have hmarked : ∀ k e, s.shared.tracker.lookup k = some e → stored s.shared.store k ≠ some e.get →
      e.is_dirty = true := by
    intro k e he hne
    rcases hs.2 k e he with hsaved | hdirty | ⟨t, ht, hmark⟩
    · exact absurd hsaved hne
    · exact hdirty
    · exact absurd hmark (not_will_mark_of_finished (hfinished t ht) k e.index)
  refine ⟨hmarked, fun hremoved => ?_⟩
  have hok := save_failed s.shared.tracker s.shared.store
  exact ⟨(Saving.result_ok_iff _).mpr hok, fun k e he => save_stores hok hmarked hremoved he⟩

end NonFailing

section Decidable
variable {S ε : Type} [OutgoingIndexStore S ε] [TicketBuilder]

instance {index : UInt64} : DecidablePred (WillMark index)
  | .increment_at_least _ .lift => inferInstanceAs (Decidable (_ ≤ _))
  | .increment_at_least _ .retake => inferInstanceAs (Decidable (_ ≤ _))
  | .increment_at_least _ (.mark _) => inferInstanceAs (Decidable (_ ≤ _))
  | .set _ (.mark _) => inferInstanceAs (Decidable (_ < _))
  | .increment_at_least _ .take | .increment_at_least _ (.returned _) => .isFalse id
  | .set _ .lift | .set _ (.returned _) => .isFalse id

instance {e : OutgoingIndexEntry} {saved : Option UInt64} : DecidablePred (Within e saved)
  | .increment_at_least _ .take => inferInstanceAs (Decidable (_ ∧ _))
  | .increment_at_least _ .retake => inferInstanceAs (Decidable (_ < _))
  | .increment_at_least _ .lift | .increment_at_least _ (.mark _) => .isTrue trivial
  | .increment_at_least _ (.returned _) | .set _ _ => .isTrue trivial

instance {k : IndexKey} {index : UInt64} : DecidablePred (Task.will_mark k index)
  | .call _ _ => inferInstanceAs (Decidable (_ ∧ _))
  | .enter _ _ | .save _ _ => .isFalse id

instance {threads : List Task} {k : IndexKey} {index : UInt64} :
    Decidable (Pending threads k index) := inferInstanceAs (Decidable (∃ t ∈ threads, _))

instance : ∀ (s : Pool (Shared S) Task) a, Decidable (OneSave s a)
  | s, .spawn (.save _) => inferInstanceAs (Decidable (∀ t ∈ s.threads, _))
  | _, .spawn (.next_at_least _ _) | _, .spawn (.upsert _ _) | _, .tick _ => .isTrue trivial

instance {s : Pool (Shared S) Task} : DecidablePred (Harmless s)
  | .call k _ => inferInstanceAs (Decidable (∀ e ∈ s.shared.tracker.lookup k, _))
  | .save _ (.clone _) => inferInstanceAs (Decidable (∀ k ∈ s.shared.tracker.removed, _))
  | .save _ (.clean k _) => inferInstanceAs (Decidable (∀ e ∈ s.shared.tracker.lookup k, _))
  | .enter _ _ | .save _ .entries | .save _ (.load _) | .save _ (.write _ _) => .isTrue trivial
  | .save _ .removals | .save _ (.returned _) => .isTrue trivial

instance : ∀ (s : Pool (Shared S) Task) a, Decidable (Undisturbed s a)
  | _, .spawn _ => .isTrue trivial
  | s, .tick i => inferInstanceAs (Decidable (∀ t ∈ s.threads[i]?, _))

end Decidable

section Memory

local instance : TicketBuilder := .bits48

/-- A save and two calls, one of which takes its index while the save writes and is still to mark
the entry when the save marks it clean. -/
theorem changes_stay_marked_pending :
    let k : IndexKey := (⟨[1]⟩, 1)
    let as : List (Pool.Action Request) := [.spawn (.next_at_least k 5), .tick 0, .tick 0, .tick 0,
      .tick 0, .tick 0, .spawn (.save [k]), .tick 1, .tick 1, .tick 1, .spawn (.next_at_least k 0),
      .tick 2, .tick 2, .tick 1, .tick 1, .tick 2, .tick 1, .tick 1]
    ∃ s : Pool (Shared MemoryIndexStore) Task,
      (machine MemoryIndexStore).run ⟨⟨.empty, .empty⟩, []⟩ as = some s ∧
      (∀ k e, s.shared.tracker.lookup k = some e → stored s.shared.store k ≠ some e.get →
        e.is_dirty = true) ∧ s.shared.tracker.lookup k = some ⟨7, true⟩ := by
  intro k as
  obtain ⟨s, hs, hfinished, hk⟩ : ∃ s : Pool (Shared MemoryIndexStore) Task,
      (machine MemoryIndexStore).run ⟨⟨.empty, .empty⟩, []⟩ as = some s ∧
      (∀ t ∈ s.threads, finished t = true) ∧ s.shared.tracker.lookup k = some ⟨7, true⟩ :=
    (machine _).exists_run (by decide +kernel)
  exact ⟨s, hs,
    (changes_stay_marked (by intro k e h; cases h) (by decide +kernel) (by decide +kernel) hs hfinished).1, hk⟩

/-- A call that takes an index and marks the entry between the save's load and its mark goes
unnoticed: the index it took is lost. -/
theorem flag_lost :
    let k : IndexKey := (⟨[1]⟩, 1)
    let as : List (Pool.Action Request) := [.spawn (.next_at_least k 0), .tick 0, .tick 0, .tick 0,
      .spawn (.save [k]), .tick 1, .tick 1, .tick 1, .tick 1, .spawn (.next_at_least k 0), .tick 2,
      .tick 2, .tick 2, .tick 1, .tick 1, .tick 1]
    ∃ s : Pool (Shared MemoryIndexStore) Task,
      (machine MemoryIndexStore).run ⟨⟨.empty, .empty⟩, []⟩ as = some s ∧
      (∀ t ∈ s.threads, finished t = true) ∧ s.shared.tracker.lookup k = some ⟨2, false⟩ ∧
      stored s.shared.store k = some 1 := by
  intro k as
  exact (machine _).exists_run (by decide +kernel)

end Memory

end Hopr.TicketManager.ConcurrentSave
