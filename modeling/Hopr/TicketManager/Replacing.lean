import Hopr.TicketManager.Interchange

/-! What a push replaces.

A heap keeps what it holds when a ticket is pushed (`replaces_nothing`). The table
of an open database has one entry for an epoch and an index, so a ticket that is
pushed takes the place of the queued one that has both (`OpenQueue.replaces_same_place`).
Apart from that the calls of an open queue succeed and honor the natural order,
while its entries can be read. -/
namespace Hopr.TicketManager
open Library TicketQueue Interchange

/-- When `t` is pushed, the queued tickets that it replaces are gone. -/
structure Replaces (Q : Type) {ε : Type} [TicketQueue Q ε]
    (replaces : RedeemableTicket → RedeemableTicket → Bool) : Prop where
  same_epoch : ∀ {t u}, replaces t u = true →
    u.verified_ticket.channel_epoch = t.verified_ticket.channel_epoch
  pushed : ∀ (t) (q : Q), (tickets (pushed t q)).Perm (t :: (tickets q).filter fun u => !replaces t u)

theorem replaces_nothing (Q : Type) {ε : Type} [TicketQueue Q ε] [InfallibleTicketQueue Q] :
    Replaces Q fun _ _ => false := by
  refine ⟨fun h => (nomatch h), fun t q => ?_⟩
  have hperm := tickets_pushed t q
  rw [← List.filter_true (tickets q)] at hperm
  exact hperm

/-! ### Open queues -/

section Open
variable [Postcard]

/-- Every entry is read as the ticket it is the entry of. -/
def Readable (table : Table) : Prop :=
  ∀ e ∈ table.entries, ∃ t, e.1 = make_index t ∧ Postcard.from_bytes e.2 = .ok t

/-- The table of the channel is in the database and can be read. -/
def IsOpen (q : RedbTicketQueue) : Prop :=
  ∃ db channel_id table, q = RedbTicketQueue.opened db channel_id table ∧ Readable table

abbrev OpenQueue := {q : RedbTicketQueue // IsOpen q}

theorem mirrors_of_readable {entries : List (BitVec 128 × List UInt8)}
    (h : ∀ e ∈ entries, ∃ t, e.1 = make_index t ∧ Postcard.from_bytes e.2 = .ok t) :
    Mirrors entries (entries.filterMap fun e => (Postcard.from_bytes e.2).toOption) := by
  induction entries with
  | nil => exact .nil
  | cons e rest ih =>
    obtain ⟨t, hkey, hread⟩ := h e List.mem_cons_self
    rw [List.filterMap_cons, hread]
    exact .cons ⟨hkey, hread⟩ (ih fun e he => h e (List.mem_cons_of_mem _ he))

variable {db : Database} {channel_id : ChannelId} {table : Table}

/-- The heap that an open table mirrors. -/
theorem Readable.mirrors (h : Readable table) : ∃ memory : MemoryTicketQueue, Mirrors table.entries memory.heap := by
  have hmirrors := mirrors_of_readable h
  refine ⟨⟨_, ?_⟩, hmirrors⟩
  have hkeys : (table.entries.map (·.1)).Pairwise (· < ·) := List.pairwise_map.mpr table.sorted
  rw [hmirrors.keys] at hkeys
  exact (List.pairwise_map.mp hkeys).imp fun hlt => le_of_lt (make_index_lt_iff.mp hlt)

theorem Readable.pop_first (h : Readable table) : Readable table.pop_first.2 :=
  fun e he => h e (List.mem_of_mem_tail he)

theorem Readable.insert (h : Readable table) {t : RedeemableTicket} {bytes : List UInt8}
    (hread : Postcard.from_bytes bytes = .ok t) : Readable (table.insert (make_index t) bytes) := by
  intro e he
  cases mem_insertEntry he with
  | inl hnew => exact ⟨t, congrArg Prod.fst hnew, hnew ▸ hread⟩
  | inr hold => exact h e hold

section Keeps
variable {α : Type} {q : RedbTicketQueue}

/-- A call that reads. -/
theorem IsOpen.after_read {m : EStateM RedbStoreError RedbTicketQueue α} (h : IsOpen q)
    (hread : ∀ db channel_id table, Readable table → ∃ a,
      m.run (RedbTicketQueue.opened db channel_id table) = .ok a (RedbTicketQueue.opened db channel_id table)) :
    IsOpen (after m q) := by
  obtain ⟨db, channel_id, table, rfl, htable⟩ := h
  obtain ⟨a, hrun⟩ := hread db channel_id table htable
  rw [after_ok hrun]
  exact ⟨db, channel_id, table, rfl, htable⟩

theorem IsOpen.after_pop (h : IsOpen q) : IsOpen (after RedbTicketQueue.pop q) := by
  obtain ⟨db, channel_id, table, rfl, htable⟩ := h
  obtain ⟨memory, hmirrors⟩ := htable.mirrors
  have hrun : RedbTicketQueue.pop.run (RedbTicketQueue.opened db channel_id table) =
      .ok memory.heap.head? (RedbTicketQueue.opened db channel_id table.pop_first.2) := hmirrors.pop_run
  rw [after_ok hrun]
  exact ⟨db, channel_id, _, rfl, htable.pop_first⟩

theorem IsOpen.after_push [LawfulPostcard] (h : IsOpen q) (t : RedeemableTicket) :
    IsOpen (after (RedbTicketQueue.push t) q) := by
  obtain ⟨db, channel_id, table, rfl, htable⟩ := h
  obtain ⟨bytes, hwrite, hread⟩ := LawfulPostcard.round_trip t
  rw [after_ok (RedbTicketQueue.push_run hwrite)]
  exact ⟨db, channel_id, _, rfl, htable.insert hread⟩

end Keeps

namespace OpenQueue

/-- What a call of an open queue does, from what the call of the table does. -/
theorem run_eq {α : Type} {m : EStateM RedbStoreError RedbTicketQueue α}
    {h : ∀ q, IsOpen q → IsOpen (after m q)} {q : OpenQueue} {q' : RedbTicketQueue} {a : α}
    (hrun : m.run q.1 = .ok a q') : ∃ p : OpenQueue, p.1 = q' ∧ (restrict m h).run q = .ok a p := by
  obtain ⟨hq', hrestrict⟩ := restrict_ok (h := h) hrun
  exact ⟨⟨q', hq'⟩, rfl, hrestrict⟩

/-- A call that reads leaves the queue as it is. -/
theorem run_read {α : Type} {m : EStateM RedbStoreError RedbTicketQueue α}
    {h : ∀ q, IsOpen q → IsOpen (after m q)} {q : OpenQueue} {a : α}
    (hrun : m.run q.1 = .ok a q.1) : (restrict m h).run q = .ok a q := by
  obtain ⟨p, hp, hrestrict⟩ := run_eq (h := h) hrun
  rw [hrestrict, Subtype.ext hp]

/-- The tickets have one epoch and index. -/
def same_place (t u : RedeemableTicket) : Bool :=
  u.verified_ticket.channel_epoch = t.verified_ticket.channel_epoch ∧
    u.verified_ticket.index = t.verified_ticket.index

theorem filter_read {entries : List (BitVec 128 × List UInt8)} {heap : List RedeemableTicket}
    (h : Mirrors entries heap) (t : RedeemableTicket) :
    (entries.filter fun e => e.1 ≠ make_index t).filterMap (fun e => (Postcard.from_bytes e.2).toOption) =
      heap.filter fun u => !same_place t u := by
  induction h with
  | nil => rfl
  | @cons e u entries heap hread _ ih =>
    obtain ⟨hkey, hbytes⟩ := hread
    have hsame : (e.1 ≠ make_index t) ↔ same_place t u = false := by
      rw [hkey, Ne, make_index_eq_iff]
      simp [same_place]
    by_cases hne : e.1 ≠ make_index t
    · have hplace := hsame.mp hne
      rw [List.filter_cons_of_pos (by simpa using hne), List.filterMap_cons, hbytes, ih,
        List.filter_cons_of_pos (by rw [hplace]; rfl)]
      rfl
    · have hplace : same_place t u = true := by
        rw [← Bool.not_eq_false]
        exact fun hfalse => hne (hsame.mpr hfalse)
      rw [List.filter_cons_of_neg (by simpa using hne), ih,
        List.filter_cons_of_neg (by rw [hplace]; decide)]

variable [LawfulPostcard]

instance : TicketQueue OpenQueue RedbStoreError where
  len := restrict RedbTicketQueue.len fun _ h => h.after_read fun _ _ _ _ => ⟨_, RedbTicketQueue.len_run⟩
  push ticket := restrict (RedbTicketQueue.push ticket) fun _ h => h.after_push ticket
  pop := restrict RedbTicketQueue.pop fun _ h => h.after_pop
  peek := restrict RedbTicketQueue.peek fun _ h => h.after_read fun _ _ _ htable => by
    obtain ⟨memory, hmirrors⟩ := htable.mirrors
    exact ⟨_, hmirrors.peek_run⟩
  iter_unordered := restrict RedbTicketQueue.iter_unordered fun _ h =>
    h.after_read fun _ _ _ _ => ⟨_, RedbTicketQueue.iter_unordered_run⟩
  tickets q := tickets q.1

instance : TotalTicketQueue OpenQueue where
  sorted := by
    intro ⟨q, db, channel_id, table, hq, htable⟩
    obtain ⟨memory, hmirrors⟩ := htable.mirrors
    show (tickets q).Pairwise _
    rw [hq, hmirrors.tickets]
    exact memory.sorted
  len_total := by
    intro ⟨q, db, channel_id, table, hq, htable⟩
    subst hq
    obtain ⟨memory, hmirrors⟩ := htable.mirrors
    apply run_read
    show _ = EStateM.Result.ok (tickets (RedbTicketQueue.opened db channel_id table)).length _
    rw [hmirrors.tickets, ← hmirrors.length_eq]
    exact RedbTicketQueue.len_run
  push_total := by
    intro ⟨q, db, channel_id, table, hq, htable⟩ t
    subst hq
    obtain ⟨bytes, hwrite, _⟩ := LawfulPostcard.round_trip t
    obtain ⟨p, _, hrun⟩ := run_eq (q := ⟨_, _⟩) (RedbTicketQueue.push_run hwrite)
    exact ⟨p, hrun⟩
  pop_total := by
    intro ⟨q, db, channel_id, table, hq, htable⟩
    subst hq
    obtain ⟨memory, hmirrors⟩ := htable.mirrors
    obtain ⟨p, hp, hrun⟩ := run_eq (q := ⟨_, _⟩) hmirrors.pop_run
    have htail : Mirrors table.pop_first.2.entries memory.pop.heap := hmirrors.tail
    refine ⟨p, ?_, ?_⟩
    · show _ = EStateM.Result.ok (tickets (RedbTicketQueue.opened db channel_id table)).head? _
      rw [hmirrors.tickets]
      exact hrun
    · show tickets p.1 = (tickets (RedbTicketQueue.opened db channel_id table)).tail
      rw [hp, htail.tickets, hmirrors.tickets]
      rfl
  peek_total := by
    intro ⟨q, db, channel_id, table, hq, htable⟩
    subst hq
    obtain ⟨memory, hmirrors⟩ := htable.mirrors
    apply run_read
    show _ = EStateM.Result.ok (tickets (RedbTicketQueue.opened db channel_id table)).head? _
    rw [hmirrors.tickets]
    exact hmirrors.peek_run
  iter_total := by
    intro ⟨q, db, channel_id, table, hq, htable⟩
    subst hq
    obtain ⟨memory, hmirrors⟩ := htable.mirrors
    refine ⟨memory.heap, ?_, run_read hmirrors.iter_unordered_run⟩
    show memory.heap.Perm (tickets (RedbTicketQueue.opened db channel_id table))
    rw [hmirrors.tickets]

/-- The queue of a new table, under any name. -/
instance : CreatableQueue OpenQueue where
  empty := ⟨RedbTicketQueue.opened (fun _ => none) ⟨[]⟩ .empty, _, _, _, rfl, fun _ he => (nomatch he)⟩
  tickets_empty := by
    show tickets (RedbTicketQueue.opened (fun _ => none) ⟨[]⟩ .empty) = []
    rw [RedbTicketQueue.tickets_opened]
    rfl

theorem replaces_same_place : Replaces OpenQueue same_place := by
  refine ⟨fun h => (of_decide_eq_true h).1, ?_⟩
  intro t q
  obtain ⟨db, channel_id, table, hq, htable⟩ := q.2
  obtain ⟨bytes, hwrite, hread⟩ := LawfulPostcard.round_trip t
  have hpush : (RedbTicketQueue.push t).run (RedbTicketQueue.opened db channel_id table) =
      .ok () (RedbTicketQueue.opened db channel_id (table.insert (make_index t) bytes)) :=
    RedbTicketQueue.push_run hwrite
  rw [← hq] at hpush
  obtain ⟨p, hp, hrun⟩ := run_eq hpush
  have hpushed : pushed t q = p := after_ok hrun
  rw [hpushed]
  show (tickets p.1).Perm (t :: (tickets q.1).filter _)
  rw [hp, hq, RedbTicketQueue.tickets_opened, RedbTicketQueue.tickets_opened,
    ← filter_read (mirrors_of_readable htable)]
  have hperm := (insertEntry_perm (k := make_index t) (v := bytes) table.sorted).filterMap
    fun e => (Postcard.from_bytes e.2).toOption
  rw [List.filterMap_cons, hread] at hperm
  exact hperm

end OpenQueue

end Open

end Hopr.TicketManager
