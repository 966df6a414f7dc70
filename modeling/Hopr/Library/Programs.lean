import Mathlib.Data.List.Basic

/-! Programs that may fail.

An `EStateM` program leaves a state behind whether it succeeds or fails
(`after`), and a program that keeps a property runs on the states that have it
(`restrict`); one on a part of the state leaves the rest as it is (`within`). A
relation that may be composed holds between the states before and after a
sequence when it does for each part (`frames_bind`), a failure halfway included.

A run of a sequence succeeds when its parts do, one after the other
(`run_bind_eq_ok`). Of a loop over a list that succeeds, what every turn
preserves holds at the end (`forM_preserves`), and what one turn establishes and
the others preserve does as well (`forM_establishes`). -/
namespace Hopr.Library

variable {ε σ α β : Type}

/-- The state a program leaves behind. -/
def after (m : EStateM ε σ α) (s : σ) : σ :=
  match m.run s with
  | .ok _ s' => s'
  | .error _ s' => s'

theorem after_ok {m : EStateM ε σ α} {s s' : σ} {a : α} (h : m.run s = .ok a s') : after m s = s' := by
  simp only [after, h]

theorem after_error {m : EStateM ε σ α} {s s' : σ} {e : ε} (h : m.run s = .error e s') :
    after m s = s' := by
  simp only [after, h]

/-- A program on the states with a property that it keeps. -/
def restrict {P : σ → Prop} (m : EStateM ε σ α) (h : ∀ s, P s → P (after m s)) :
    EStateM ε {s // P s} α := fun s =>
  match m.run s.1 with
  | .ok a _ => .ok a ⟨after m s.1, h s.1 s.2⟩
  | .error e _ => .error e ⟨after m s.1, h s.1 s.2⟩

theorem restrict_ok {P : σ → Prop} {m : EStateM ε σ α} {h : ∀ s, P s → P (after m s)} {s : {s // P s}}
    {s' : σ} {a : α} (hrun : m.run s.1 = .ok a s') :
    ∃ hs', (restrict m h).run s = .ok a ⟨s', hs'⟩ := by
  have hafter := after_ok hrun
  subst hafter
  refine ⟨h s.1 s.2, ?_⟩
  simp only [restrict, EStateM.run] at hrun ⊢
  rw [hrun]

/-- A program on a part of the state. -/
def within {τ : Type} (part : σ → τ) (put : τ → σ → σ) (m : EStateM ε τ α) : EStateM ε σ α := fun s =>
  match m.run (part s) with
  | .ok a t => .ok a (put t s)
  | .error e t => .error e (put t s)

theorem within_ok {τ : Type} {part : σ → τ} {put : τ → σ → σ} {m : EStateM ε τ α} {s : σ} {t : τ} {a : α}
    (h : m.run (part s) = .ok a t) : (within part put m).run s = .ok a (put t s) := by
  simp only [within, EStateM.run] at h ⊢
  rw [h]

/-- However the program ends, the state before and the one it leaves behind are related. -/
def Frames (R : σ → σ → Prop) (m : EStateM ε σ α) : Prop := ∀ s, R s (after m s)

theorem frames_pure {R : σ → σ → Prop} (hrefl : ∀ s, R s s) (a : α) :
    Frames R (pure a : EStateM ε σ α) := fun s => hrefl s

theorem frames_bind {R : σ → σ → Prop} (htrans : ∀ s t u, R s t → R t u → R s u)
    {m : EStateM ε σ α} {f : α → EStateM ε σ β} (hm : Frames R m) (hf : ∀ a, Frames R (f a)) :
    Frames R (m >>= f) := by
  intro s
  have hs := hm s
  cases h : m.run s with
  | ok a t =>
    rw [after_ok h] at hs
    have heq : after (m >>= f) s = after (f a) t := by simp only [after, EStateM.run_bind, h]
    rw [heq]
    exact htrans _ _ _ hs (hf a t)
  | error e t =>
    rw [after_error h] at hs
    have heq : (m >>= f).run s = .error e t := by simp only [EStateM.run_bind, h]
    rw [after_error heq]
    exact hs

theorem run_bind_eq_ok {x : EStateM ε σ α} {f : α → EStateM ε σ β} {s s'' : σ} {b : β} :
    (x >>= f).run s = .ok b s'' ↔ ∃ a s', x.run s = .ok a s' ∧ (f a).run s' = .ok b s'' := by
  rw [EStateM.run_bind]
  constructor
  · intro h
    cases hx : x.run s with
    | ok a s' => rw [hx] at h; exact ⟨a, s', rfl, h⟩
    | error e s' => rw [hx] at h; cases h
  · rintro ⟨a, s', hx, hf⟩
    rw [hx]
    exact hf

theorem forM_preserves {f : α → EStateM ε σ PUnit} {P : σ → Prop} {l : List α}
    (hturn : ∀ a ∈ l, ∀ s s', P s → (f a).run s = .ok () s' → P s') {s s' : σ} (h : P s)
    (hrun : (forM l f).run s = .ok () s') : P s' := by
  induction l generalizing s with
  | nil =>
    rw [List.forM_nil] at hrun
    cases hrun
    exact h
  | cons a rest ih =>
    rw [List.forM_cons] at hrun
    obtain ⟨_, m, ha, hrest⟩ := run_bind_eq_ok.mp hrun
    exact ih (fun b hb => hturn b (List.mem_cons_of_mem _ hb))
      (hturn a (List.mem_cons_self ..) s m h ha) hrest

/-- The turn of `a` makes `P` of `R`, and every turn keeps either. -/
theorem forM_establishes {f : α → EStateM ε σ PUnit} {P R : σ → Prop} {l : List α} {a : α}
    (ha : a ∈ l) (hdo : ∀ s s', R s → (f a).run s = .ok () s' → P s')
    (hkeepR : ∀ b ∈ l, ∀ s s', R s → (f b).run s = .ok () s' → R s')
    (hkeepP : ∀ b ∈ l, ∀ s s', P s → (f b).run s = .ok () s' → P s') {s s' : σ} (h : R s)
    (hrun : (forM l f).run s = .ok () s') : P s' := by
  induction l generalizing s with
  | nil => cases ha
  | cons b rest ih =>
    rw [List.forM_cons] at hrun
    obtain ⟨_, m, hb, hrest⟩ := run_bind_eq_ok.mp hrun
    have hkeepP' : ∀ b ∈ rest, ∀ s s', P s → (f b).run s = .ok () s' → P s' :=
      fun b hb => hkeepP b (List.mem_cons_of_mem _ hb)
    rcases List.mem_cons.mp ha with rfl | ha
    · exact forM_preserves hkeepP' (hdo s m h hb) hrest
    · exact ih ha (fun b hb => hkeepR b (List.mem_cons_of_mem _ hb)) hkeepP'
        (hkeepR b (List.mem_cons_self ..) s m h hb) hrest

end Hopr.Library
