import Mathlib.Algebra.Order.BigOperators.Group.List
import Mathlib.Algebra.Order.Group.Nat
import Hopr.Library.Places

/-! Threads that hold locks and wait for them.

A thread says which locks it holds, which one it takes next and whether it is
finished (`Locking`); a lock is held for reading, for reading with a right to
upgrade, or for writing. A lock may be taken while no other thread holds it in a
mode that excludes the wanted one (`free`), and then no two threads hold a lock
in modes that exclude each other (`Compatible.set`). The threads are deadlocked
if some are unfinished and each of these waits for a lock another one holds.
They are not if each thread that waits has a lower rank than the ones it waits
for (`not_deadlocked_of_rank`). -/
namespace Hopr.Library

inductive Mode where
  | read
  | upgradable
  | write
deriving DecidableEq

namespace Mode

/-- Whether two threads may not hold a lock in these modes. -/
def excludes : Mode → Mode → Bool
  | read, read => false
  | read, upgradable => false
  | upgradable, read => false
  | _, _ => true

/-- A mode that excludes less. -/
def weaker (m m' : Mode) : Bool := m = m' || m = .read || m' = .write

theorem excludes_comm (m m' : Mode) : m.excludes m' = m'.excludes m := by
  cases m <;> cases m' <;> rfl

theorem excludes_of_weaker {m m' n : Mode} (h : m.weaker m' = true) (he : m.excludes n = true) :
    m'.excludes n = true := by
  cases m <;> cases m' <;> cases n <;> first | rfl | exact absurd h (by decide) | exact absurd he (by decide)

end Mode

class Locking (T : Type) (L : outParam Type) where
  held : T → List (L × Mode)
  wanted : T → Option (L × Mode)
  finished : T → Bool

open Locking

section Locks
variable {T L : Type} [DecidableEq L] [Locking T L]

/-- Whether `u` holds a lock in a mode that excludes `w`. -/
def conflicts (w : L × Mode) (u : T) : Bool := (held u).any fun h => h.1 = w.1 && w.2.excludes h.2

/-- Whether the thread at place `i` may take `w`. -/
def free (threads : List T) (i : Nat) (w : L × Mode) : Bool :=
  (threads.eraseIdx i).all fun u => !conflicts w u

/-- The thread at place `i` waits for a lock another one holds. -/
def waiting (threads : List T) (i : Nat) (t : T) : Bool := (wanted t).any fun w => !free threads i w

/-- Some threads are unfinished, and each of these waits. -/
def Deadlocked (threads : List T) : Prop :=
  (∃ t ∈ threads, finished t = false) ∧
    ∀ i < threads.length, ∀ t ∈ threads[i]?, finished t = false → waiting threads i t = true

instance (threads : List T) : Decidable (Deadlocked threads) := instDecidableAnd

variable {threads : List T} {i : Nat} {t u : T} {w : L × Mode}

theorem conflicts_iff :
    conflicts w u = true ↔ ∃ m, (w.1, m) ∈ held u ∧ w.2.excludes m = true := by
  simp only [conflicts, List.any_eq_true, Bool.and_eq_true, decide_eq_true_eq, Prod.exists]
  constructor
  · rintro ⟨l, m, hh, rfl, hm⟩
    exact ⟨m, hh, hm⟩
  · rintro ⟨m, hh, hm⟩
    exact ⟨w.1, m, hh, rfl, hm⟩

theorem free_iff : free threads i w = true ↔
    ∀ j u, j ≠ i → threads[j]? = some u → conflicts w u = false := by
  simp only [free, List.all_eq_true, Bool.not_eq_true', List.mem_eraseIdx_iff_getElem?]
  constructor
  · exact fun h j u hj hu => h u ⟨j, hj, hu⟩
  · rintro h u ⟨j, hj, hu⟩
    exact h j u hj hu

theorem waiting_iff : waiting threads i t = true ↔
    ∃ w j u, wanted t = some w ∧ j ≠ i ∧ threads[j]? = some u ∧ conflicts w u = true := by
  simp only [waiting, free, Option.any_eq_true, List.not_all_eq_any_not, Bool.not_not,
    List.any_eq_true, List.mem_eraseIdx_iff_getElem?]
  constructor
  · rintro ⟨w, hw, u, ⟨j, hj, hu⟩, hc⟩
    exact ⟨w, j, u, hw, hj, hu, hc⟩
  · rintro ⟨w, j, u, hw, hj, hu, hc⟩
    exact ⟨w, hw, u, ⟨j, hj, hu⟩, hc⟩

theorem free_of_not_waiting (h : waiting threads i t = false) (hw : wanted t = some w) :
    free threads i w = true := by
  simpa only [waiting, hw, Option.any_some, Bool.not_eq_false'] using h

/-- If waiting leads to a thread of higher rank, the thread of the highest rank does not wait. -/
theorem not_deadlocked_of_rank (rank : T → Nat) (hfinished : ∀ t : T, finished t = true → held t = [])
    (hrank : ∀ (i j : Nat) (t u : T) (w : L × Mode), i ≠ j → threads[i]? = some t → threads[j]? = some u →
      wanted t = some w → conflicts w u = true → rank t < rank u) : ¬ Deadlocked threads := by
  intro ⟨⟨t₀, hmem₀, hunfinished₀⟩, hall⟩
  have hclimb : ∀ n, ∃ t ∈ threads, finished t = false ∧ n ≤ rank t := by
    intro n
    induction n with
    | zero => exact ⟨t₀, hmem₀, hunfinished₀, Nat.zero_le _⟩
    | succ n ih =>
      obtain ⟨t, hmem, hunfinished, hn⟩ := ih
      obtain ⟨i, hi, rfl⟩ := List.mem_iff_getElem.mp hmem
      have ht := List.getElem?_eq_getElem hi
      obtain ⟨w, j, u, hw, hj, hu, hc⟩ := waiting_iff.mp (hall i hi _ ht hunfinished)
      refine ⟨u, List.mem_of_getElem? hu, ?_, Nat.lt_of_le_of_lt hn (hrank i j _ u w hj.symm ht hu hw hc)⟩
      -- a finished thread holds nothing
      obtain ⟨m, hheld, _⟩ := conflicts_iff.mp hc
      rw [Bool.eq_false_iff]
      intro hf
      rw [hfinished u hf] at hheld
      cases hheld
  obtain ⟨t, hmem, _, ht⟩ := hclimb ((threads.map rank).sum + 1)
  have hle : rank t ≤ (threads.map rank).sum :=
    List.single_le_sum (fun _ _ => Nat.zero_le _) _ (List.mem_map_of_mem hmem)
  exact Nat.not_succ_le_self _ (ht.trans hle)

end Locks

/-! ### Compatible threads -/

section Compatible
variable {T L : Type} [Locking T L] {threads : List T} {i : Nat} {t : T}

/-- No two threads hold a lock in modes that exclude each other. -/
def Compatible (threads : List T) : Prop :=
  ∀ (i j : Nat) (t u : T), i ≠ j → threads[i]? = some t → threads[j]? = some u →
    ∀ w ∈ held t, ∀ v ∈ held u, w.1 = v.1 → w.2.excludes v.2 = false

theorem Compatible.concat (h : Compatible threads) (ht : held t = []) : Compatible (threads ++ [t]) := by
  intro i j u v hij hu hv w hw x hx
  rcases Places.concat_cases hu with hu | ⟨_, rfl⟩
  · rcases Places.concat_cases hv with hv | ⟨_, rfl⟩
    · exact h i j u v hij hu hv w hw x hx
    · rw [ht] at hx
      cases hx
  · rw [ht] at hw
    cases hw

variable [DecidableEq L]

/-- A thread takes a lock that is free for it, or holds less than before. -/
theorem Compatible.set {t' : T} (h : Compatible threads) (ht : threads[i]? = some t)
    (hheld : ∀ w ∈ held t', (∃ m, (w.1, m) ∈ held t ∧ w.2.weaker m = true) ∨
      free threads i w = true) : Compatible (threads.set i t') := by
  have hown : ∀ j u, j ≠ i → threads[j]? = some u →
      ∀ w ∈ held t', ∀ v ∈ held u, w.1 = v.1 → w.2.excludes v.2 = false := by
    intro j u hj hu w hw v hv hl
    rcases hheld w hw with ⟨m, hm, hweaker⟩ | hfree
    · have hold := h i j t u hj.symm ht hu _ hm v hv hl
      rw [Bool.eq_false_iff] at hold ⊢
      exact fun he => hold (Mode.excludes_of_weaker hweaker he)
    · have hfree := free_iff.mp hfree j u hj hu
      rw [Bool.eq_false_iff] at hfree ⊢
      exact fun he => hfree (conflicts_iff.mpr ⟨v.2, hl ▸ hv, he⟩)
  intro j k u v hjk hu hv w hw x hx hl
  rcases Places.set_cases hu with ⟨rfl, rfl⟩ | ⟨hj, hold⟩
  · rcases Places.set_cases hv with ⟨rfl, _⟩ | ⟨hk, hold⟩
    · exact absurd rfl hjk
    · exact hown k v hk hold w hw x hx hl
  · rcases Places.set_cases hv with ⟨rfl, rfl⟩ | ⟨_, hold'⟩
    · rw [Mode.excludes_comm]
      exact hown j u hj hold x hx w hw hl.symm
    · exact h j k u v hjk hold hold' w hw x hx hl

end Compatible

end Hopr.Library
