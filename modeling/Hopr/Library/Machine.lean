import Mathlib.Data.List.Basic

/-! Machines that take labelled steps, and what holds along their runs.

A `Machine` says what an action makes of a state, or that the action is not
enabled there; whatever the environment chooses (a schedule, an outcome, a
fault) is part of the action, so a run is a list of actions. `Meets C` says that
every step of a run satisfies `C`, a condition on the state before the step and
the action taken. An invariant preserved by the steps that satisfy `C` holds
after every run that meets `C` (`run_invariant`), and a preorder that every such
step climbs is climbed by the run (`run_climbs`). An invariant may also be about
the actions that were taken (`run_history`). -/
namespace Hopr.Library

/-- An action that was taken is the last one or was taken before it. -/
theorem concat_eq_split {A : Type} {before b c : List A} {a x : A} (h : before ++ [a] = b ++ x :: c) :
    (before = b ∧ a = x ∧ c = []) ∨ ∃ c', c = c' ++ [a] ∧ before = b ++ x :: c' := by
  cases List.eq_nil_or_concat' c with
  | inl hnil =>
    subst hnil
    obtain ⟨hbefore, hlast⟩ := List.append_inj' h rfl
    exact .inl ⟨hbefore, List.singleton_inj.mp hlast, rfl⟩
  | inr hlast =>
    obtain ⟨c', y, rfl⟩ := hlast
    rw [← List.cons_append, ← List.append_assoc] at h
    obtain ⟨hbefore, hlast⟩ := List.append_inj' h rfl
    exact .inr ⟨c', by rw [List.singleton_inj.mp hlast], hbefore⟩

/-- What each action makes of a state; `none` where the action is not enabled. -/
structure Machine (S A : Type) where
  step : S → A → Option S

namespace Machine
variable {S A : Type} (M : Machine S A)

/-- The state after taking the actions in order. -/
def run : S → List A → Option S
  | s, [] => some s
  | s, a :: rest => (M.step s a).bind fun s' => run s' rest

/-- Every step of the run satisfies `C`. -/
def Meets (C : S → A → Prop) : S → List A → Prop
  | _, [] => True
  | s, a :: rest => C s a ∧ ∀ s', M.step s a = some s' → Meets C s' rest

@[simp] theorem run_nil (s : S) : M.run s [] = some s := rfl

theorem run_cons_eq_some {s s' : S} {a : A} {rest : List A} :
    M.run s (a :: rest) = some s' ↔ ∃ m, M.step s a = some m ∧ M.run m rest = some s' := by
  simp only [run, Option.bind_eq_some_iff]

theorem run_append {s s' : S} {as bs : List A} :
    M.run s (as ++ bs) = some s' ↔ ∃ m, M.run s as = some m ∧ M.run m bs = some s' := by
  induction as generalizing s with
  | nil => simp
  | cons a rest ih =>
    simp only [List.cons_append, run_cons_eq_some, ih]
    constructor
    · rintro ⟨m, hm, n, hn, hs⟩
      exact ⟨n, ⟨m, hm, hn⟩, hs⟩
    · rintro ⟨n, ⟨m, hm, hn⟩, hs⟩
      exact ⟨m, hm, n, hn, hs⟩

theorem run_concat {s m s' : S} {as : List A} {a : A} (hm : M.run s as = some m) (hstep : M.step m a = some s') :
    M.run s (as ++ [a]) = some s' :=
  M.run_append.mpr ⟨m, hm, M.run_cons_eq_some.mpr ⟨s', hstep, rfl⟩⟩

theorem meets_append {C : S → A → Prop} {s m : S} {as bs : List A} (hm : M.run s as = some m)
    (h : M.Meets C s (as ++ bs)) : M.Meets C s as ∧ M.Meets C m bs := by
  induction as generalizing s with
  | nil =>
    obtain rfl : s = m := by simpa using hm
    exact ⟨trivial, h⟩
  | cons a rest ih =>
    obtain ⟨n, hn, hrun⟩ := M.run_cons_eq_some.mp hm
    obtain ⟨hc, hrest⟩ := h
    refine ⟨⟨hc, fun n' hn' => ?_⟩, (ih hrun (hrest n hn)).2⟩
    obtain rfl : n = n' := Option.some.inj (hn.symm.trans hn')
    exact (ih hrun (hrest n hn)).1

variable {M} in
theorem Meets.mono {C D : S → A → Prop} (hCD : ∀ s a, C s a → D s a) {s : S} {as : List A}
    (h : M.Meets C s as) : M.Meets D s as := by
  induction as generalizing s with
  | nil => trivial
  | cons a rest ih => exact ⟨hCD s a h.1, fun s' hs' => ih (h.2 s' hs')⟩

variable {M} in
theorem Meets.and {C D : S → A → Prop} {s : S} {as : List A} (hC : M.Meets C s as)
    (hD : M.Meets D s as) : M.Meets (fun s a => C s a ∧ D s a) s as := by
  induction as generalizing s with
  | nil => trivial
  | cons a rest ih => exact ⟨⟨hC.1, hD.1⟩, fun s' hs' => ih (hC.2 s' hs') (hD.2 s' hs')⟩

/-- A condition that every step satisfies is met by every run. -/
theorem meets_of_forall {C : S → A → Prop} (hC : ∀ s a, C s a) (s : S) (as : List A) :
    M.Meets C s as := by
  induction as generalizing s with
  | nil => trivial
  | cons a rest ih => exact ⟨hC s a, fun s' _ => ih s'⟩

/-- What every step that satisfies `C` preserves, a run that meets `C` preserves. -/
theorem run_invariant {C : S → A → Prop} {I : S → Prop}
    (hstep : ∀ s a s', C s a → I s → M.step s a = some s' → I s') {s s' : S} {as : List A}
    (hC : M.Meets C s as) (hrun : M.run s as = some s') (h : I s) : I s' := by
  induction as generalizing s with
  | nil =>
    obtain rfl : s = s' := by simpa using hrun
    exact h
  | cons a rest ih =>
    obtain ⟨m, hm, hrest⟩ := M.run_cons_eq_some.mp hrun
    exact ih (hC.2 m hm) hrest (hstep s a m hC.1 h hm)

variable {M} in
/-- Steps that satisfy `C` keep the invariant under which they satisfy `D`. -/
theorem Meets.of_invariant {C D : S → A → Prop} {I : S → Prop}
    (hstep : ∀ s a s', C s a → I s → M.step s a = some s' → I s')
    (hD : ∀ s a, C s a → I s → D s a) {s : S} {as : List A} (h : M.Meets C s as) (hs : I s) :
    M.Meets D s as := by
  induction as generalizing s with
  | nil => trivial
  | cons a rest ih =>
    refine ⟨hD s a h.1 hs, ?_⟩
    intro s' hs'
    exact ih (h.2 s' hs') (hstep s a s' h.1 hs hs')

variable {M} in
/-- Two conditions that say the same where `I` holds are met by the same runs, if they keep it. -/
theorem meets_iff_of_invariant {C D : S → A → Prop} {I : S → Prop} (hiff : ∀ s a, I s → (C s a ↔ D s a))
    (hstep : ∀ s a s', C s a → I s → M.step s a = some s' → I s') {s : S} {as : List A} (hs : I s) :
    M.Meets C s as ↔ M.Meets D s as := by
  constructor
  · intro h
    exact h.of_invariant hstep (fun s a hc hi => (hiff s a hi).mp hc) hs
  · intro h
    exact h.of_invariant (fun s a s' hd hi => hstep s a s' ((hiff s a hi).mpr hd) hi)
      (fun s a hd hi => (hiff s a hi).mpr hd) hs

/-- What every step preserves, every run preserves. -/
theorem run_invariant_of_step {I : S → Prop}
    (hstep : ∀ s a s', I s → M.step s a = some s' → I s') {s s' : S} {as : List A}
    (hrun : M.run s as = some s') (h : I s) : I s' := by
  have hC : M.Meets (fun _ _ => True) s as := M.meets_of_forall (fun _ _ => trivial) s as
  exact M.run_invariant (fun s a s' _ => hstep s a s') hC hrun h

/-- What every step keeps, of the actions so far and the state, a run keeps. -/
theorem run_history {I : List A → S → Prop}
    (hstep : ∀ before a s s', I before s → M.step s a = some s' → I (before ++ [a]) s') {before : List A}
    {s s' : S} {as : List A} (hrun : M.run s as = some s') (h : I before s) : I (before ++ as) s' := by
  induction as generalizing before s with
  | nil =>
    obtain rfl : s = s' := by simpa using hrun
    rwa [List.append_nil]
  | cons a rest ih =>
    obtain ⟨m, hm, hrest⟩ := M.run_cons_eq_some.mp hrun
    rw [List.append_cons]
    exact ih hrest (hstep before a s m h hm)

/-- A preorder climbed by every step from a state where `I` holds is climbed by the run. -/
theorem run_climbs {C : S → A → Prop} {I : S → Prop} {R : S → S → Prop}
    (hrefl : ∀ s, R s s) (htrans : ∀ s t u, R s t → R t u → R s u)
    (hstep : ∀ s a s', C s a → I s → M.step s a = some s' → I s' ∧ R s s') {s s' : S}
    {as : List A} (hC : M.Meets C s as) (hrun : M.run s as = some s') (h : I s) : R s s' := by
  induction as generalizing s with
  | nil =>
    obtain rfl : s = s' := by simpa using hrun
    exact hrefl s
  | cons a rest ih =>
    obtain ⟨m, hm, hrest⟩ := M.run_cons_eq_some.mp hrun
    obtain ⟨hinv, hr⟩ := hstep s a m hC.1 h hm
    exact htrans s m s' hr (ih (hC.2 m hm) hrest hinv)

/-- A preorder climbed by every step is climbed by every run. -/
theorem run_climbs_of_step {R : S → S → Prop} (hrefl : ∀ s, R s s)
    (htrans : ∀ s t u, R s t → R t u → R s u) (hstep : ∀ s a s', M.step s a = some s' → R s s')
    {s s' : S} {as : List A} (hrun : M.run s as = some s') : R s s' := by
  have hC : M.Meets (fun _ _ => True) s as := M.meets_of_forall (fun _ _ => trivial) s as
  have hinv : ∀ s a s', True → True → M.step s a = some s' → True ∧ R s s' :=
    fun s a s' _ _ h => ⟨trivial, hstep s a s' h⟩
  exact M.run_climbs hrefl htrans hinv hC hrun trivial

/-- Where a run leads can be computed by running it. -/
theorem exists_run {p : S → Prop} [DecidablePred p] {s : S} {as : List A}
    (h : (M.run s as).any (decide <| p ·) = true) : ∃ s', M.run s as = some s' ∧ p s' := by
  cases hrun : M.run s as with
  | none => rw [hrun] at h; cases h
  | some s' => rw [hrun] at h; exact ⟨s', rfl, of_decide_eq_true h⟩

/-- Whether a run meets a decidable condition can be computed by running it. -/
instance Meets.decidable {C : S → A → Prop} [∀ s a, Decidable (C s a)] :
    ∀ (s : S) (as : List A), Decidable (M.Meets C s as)
  | _, [] => isTrue trivial
  | s, a :: rest =>
    match h : M.step s a with
    | none => decidable_of_iff (C s a) ⟨fun hc => ⟨hc, fun _ hs => nomatch h.symm.trans hs⟩, And.left⟩
    | some m =>
      haveI : Decidable (M.Meets C m rest) := Meets.decidable m rest
      decidable_of_iff (C s a ∧ M.Meets C m rest)
        ⟨fun hc => ⟨hc.1, fun _ hs => Option.some.inj (h.symm.trans hs) ▸ hc.2⟩,
          fun hc => ⟨hc.1, hc.2 m h⟩⟩

end Machine

end Hopr.Library
