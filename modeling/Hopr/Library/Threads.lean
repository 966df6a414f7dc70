import Hopr.Library.Machine
import Hopr.Library.Places

/-! Threads that take atomic steps on a shared state.

A `Pool` is a shared state and the threads that run on it: `start` is the thread
that a request starts, and `tick` says what one atomic step of a thread does to
both. Every interleaving of the steps, and of the starts of further threads, is
a run of `Pool.machine`. `Pool.Holds` is the
shape of an invariant proved thread by thread: `I` of the shared state, `L` of
each thread together with the shared state, and `P` of any two threads. A step
preserves it when the thread that steps does (`tick_holds`), which is asked
separately for the stepping thread, for the thread that is only looked at, and
for the pair. -/
namespace Hopr.Library

structure Pool (G T : Type) where
  shared : G
  threads : List T
deriving DecidableEq

namespace Pool

inductive Action (R : Type) where
  /-- One more thread starts. -/
  | spawn (r : R)
  /-- The thread at place `i` takes its next step. -/
  | tick (i : Nat)

variable {G T R : Type}

def step (start : R → T) (tick : G → T → Option (G × T)) (s : Pool G T) :
    Action R → Option (Pool G T)
  | .spawn r => some {s with threads := s.threads ++ [start r]}
  | .tick i => do
    let t ← s.threads[i]?
    let (g, t') ← tick s.shared t
    return ⟨g, s.threads.set i t'⟩

def machine (start : R → T) (tick : G → T → Option (G × T)) : Machine (Pool G T) (Action R) :=
  ⟨step start tick⟩

variable {start : R → T} {tick : G → T → Option (G × T)}

theorem step_tick {s s' : Pool G T} {i : Nat} :
    step start tick s (.tick i) = some s' ↔ ∃ t g t', s.threads[i]? = some t ∧
      tick s.shared t = some (g, t') ∧ s' = ⟨g, s.threads.set i t'⟩ := by
  simp only [step, Option.bind_eq_bind, Option.bind_eq_some_iff, Option.pure_def, Option.some.injEq]
  constructor
  · rintro ⟨t, ht, ⟨g, t'⟩, hstep, rfl⟩
    exact ⟨t, g, t', ht, hstep, rfl⟩
  · rintro ⟨t, g, t', ht, hstep, rfl⟩
    exact ⟨t, ht, (g, t'), hstep, rfl⟩

/-- `I` holds of the shared state, `L` of every thread at its place, `P` of every two threads. -/
structure Holds (I : G → Prop) (L : Nat → G → T → Prop) (P : T → T → Prop) (s : Pool G T) : Prop where
  shared : I s.shared
  each : ∀ (i : Nat) (t : T), s.threads[i]? = some t → L i s.shared t
  pair : ∀ (i j : Nat) (t u : T), i ≠ j → s.threads[i]? = some t → s.threads[j]? = some u → P t u

variable {I : G → Prop} {L : Nat → G → T → Prop} {P : T → T → Prop}

/-- A thread may start where `L` holds of it and `P` of it and every running thread. -/
theorem spawn_holds {s s' : Pool G T} {r : R} (h : Holds I L P s)
    (hstep : step start tick s (.spawn r) = some s') (hL : L s.threads.length s.shared (start r))
    (hP : ∀ (i : Nat) (u : T), s.threads[i]? = some u → P (start r) u ∧ P u (start r)) :
    Holds I L P s' := by
  cases hstep
  refine ⟨h.shared, fun i u hu => ?_, fun i j u w hij hu hw => ?_⟩
  · rcases Places.concat_cases hu with hu | ⟨rfl, rfl⟩
    · exact h.each i u hu
    · exact hL
  · rcases Places.concat_cases hu with hold | ⟨hi, rfl⟩
    · rcases Places.concat_cases hw with hold' | ⟨_, rfl⟩
      · exact h.pair i j u w hij hold hold'
      · exact (hP i u hold).2
    · rcases Places.concat_cases hw with hold | ⟨hj, _⟩
      · exact (hP j w hold).1
      · exact absurd (hi.trans hj.symm) hij

/-- A step of one thread preserves what it preserves for itself, for each other thread and for
its pairs with the others. -/
theorem tick_holds {s s' : Pool G T} {i : Nat} (h : Holds I L P s)
    (hstep : step start tick s (.tick i) = some s')
    (hown : ∀ t g t', s.threads[i]? = some t → tick s.shared t = some (g, t') → I s.shared →
      L i s.shared t → I g ∧ L i g t')
    (hother : ∀ j t u g t', s.threads[i]? = some t → tick s.shared t = some (g, t') → I s.shared →
      L i s.shared t → L j s.shared u → P t u → L j g u ∧ P t' u ∧ P u t') : Holds I L P s' := by
  obtain ⟨t, g, t', ht, htick, rfl⟩ := step_tick.mp hstep
  have hL := h.each i t ht
  obtain ⟨hI, hL'⟩ := hown t g t' ht htick h.shared hL
  refine ⟨hI, fun j u hu => ?_, fun j k u w hjk hu hw => ?_⟩
  · rcases Places.set_cases hu with ⟨rfl, rfl⟩ | ⟨hji, hu⟩
    · exact hL'
    · exact (hother j t u g t' ht htick h.shared hL (h.each j u hu) (h.pair i j t u hji.symm ht hu)).1
  · rcases Places.set_cases hu with ⟨rfl, rfl⟩ | ⟨hji, hold⟩
    · rcases Places.set_cases hw with ⟨rfl, _⟩ | ⟨_, hold⟩
      · exact absurd rfl hjk
      · exact (hother k t w g u ht htick h.shared hL (h.each k w hold)
          (h.pair j k t w hjk ht hold)).2.1
    · rcases Places.set_cases hw with ⟨rfl, rfl⟩ | ⟨_, hold'⟩
      · exact (hother j t u g w ht htick h.shared hL (h.each j u hold)
          (h.pair k j t u hji.symm ht hold)).2.2
      · exact h.pair j k u w hjk hold hold'

end Pool

end Hopr.Library
