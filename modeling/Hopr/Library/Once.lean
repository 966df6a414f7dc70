import Mathlib.Data.List.Basic

/-! Filters that expect items, and drop the first one of each.

A filter is given what it still expects; an event that bears the token of an
expected item is dropped, and the item is expected no more. What that does to a
sequence is said without the filter's state (`passed_eq_keep`): an event is
dropped if and only if its token is expected at the start and no event before it
bears it. Two filters in a row are one filter that expects the items of both
(`passed_both`). -/
namespace Hopr.Library

section Keep
variable {E : Type} (p q : List E → E → Bool)

/-- The events of which `p` holds, given the events before. -/
def keep (events : List E) : List E :=
  (events.zipIdx.filter fun x => p (events.take x.2) x.1).map Prod.fst

theorem keep_cons (e : E) (rest : List E) :
    keep p (e :: rest) = (if p [] e then [e] else []) ++ keep (fun before => p (e :: before)) rest := by
  have hrest : (rest.zipIdx 1).filter (fun x => p ((e :: rest).take x.2) x.1) =
      (rest.zipIdx.filter fun x => p (e :: rest.take x.2) x.1).map fun x => (x.1, x.2 + 1) := by
    rw [List.zipIdx_succ, List.filter_map]
    rfl
  unfold keep
  rw [List.zipIdx_cons, List.filter_cons, hrest]
  cases hp : p [] e <;> simp [hp, Function.comp_def]

variable {p q} in
theorem keep_congr {events : List E} (h : ∀ before, ∀ e ∈ events, p before e = q before e) :
    keep p events = keep q events := by
  unfold keep
  congr 1
  apply List.filter_congr
  intro x hx
  exact h _ _ (List.fst_mem_of_mem_zipIdx hx)

/-- No event of a kind that is always kept is missing. -/
theorem filter_keep {kind : E → Bool} {events : List E}
    (h : ∀ before e, kind e = true → p before e = true) : (keep p events).filter kind = events.filter kind := by
  induction events generalizing p with
  | nil => rfl
  | cons e rest ih =>
    rw [keep_cons, List.filter_append, ih _ fun before => h (e :: before)]
    by_cases hkind : kind e = true
    · simp [h [] e hkind, hkind]
    · cases p [] e <;> simp [hkind]

end Keep

/-- A filter that drops events, told by the tokens that they bear. -/
structure Once (S E K : Type) where
  consumes : S → E → Bool × S
  token : E → Option K
  expects : S → K → Bool
  consumes_iff : ∀ s e, (consumes s e).1 = (token e).any (expects s)
  expects_iff : ∀ s e k, expects (consumes s e).2 k = true ↔ expects s k = true ∧ token e ≠ some k

namespace Once
variable {S S' E K K' : Type} (C : Once S E K)

/-- What the filter lets pass. -/
def passed (s : S) : List E → List E
  | [] => []
  | e :: rest =>
    match C.consumes s e with
    | (true, s') => passed s' rest
    | (false, s') => e :: passed s' rest

theorem passed_cons (s : S) (e : E) (rest : List E) : C.passed s (e :: rest) =
    (if (C.consumes s e).1 then [] else [e]) ++ C.passed (C.consumes s e).2 rest := by
  rw [passed]
  split
  · next h => simp [h]
  · next h => simp [h]

/-! ### Two filters in a row -/

section Both
variable (D : Once S' E K')

/-- The second filter is given what the first lets pass; no event bears tokens for both. -/
def both (hapart : ∀ e, C.token e = none ∨ D.token e = none) : Once (S × S') E (K ⊕ K') where
  consumes s e :=
    if (C.consumes s.1 e).1 then (true, (C.consumes s.1 e).2, s.2)
    else ((D.consumes s.2 e).1, (C.consumes s.1 e).2, (D.consumes s.2 e).2)
  token e := ((C.token e).map .inl).or ((D.token e).map .inr)
  expects s := Sum.elim (C.expects s.1) (D.expects s.2)
  consumes_iff := by
    intro s e
    have hC := C.consumes_iff s.1 e
    have hD := D.consumes_iff s.2 e
    split
    · next h =>
      rw [h] at hC
      cases htoken : C.token e with
      | none => rw [htoken] at hC; cases hC
      | some k => simpa [htoken] using hC
    · next h =>
      rw [Bool.not_eq_true] at h
      rw [h] at hC
      cases htoken : C.token e with
      | none => cases hother : D.token e <;> simp [hother, hD]
      | some k =>
        have hother := (hapart e).resolve_left (by simp [htoken])
        rw [hother] at hD
        simpa [htoken, hD] using hC
  expects_iff := by
    intro s e k
    have hC := C.expects_iff s.1 e
    have hD := D.expects_iff s.2 e
    split
    · next h =>
      have hother : D.token e = none := by
        refine (hapart e).resolve_left fun hnone => ?_
        rw [C.consumes_iff, hnone] at h
        cases h
      cases k with
      | inl k => cases htoken : C.token e <;> simp [hC, hother, htoken]
      | inr k => cases htoken : C.token e <;> simp [hother]
    · cases k with
      | inl k => cases htoken : C.token e <;> simp [hC, htoken]
      | inr k =>
        obtain hnone | hnone := hapart e
        · cases hother : D.token e <;> simp [hD, hnone, hother]
        · cases htoken : C.token e <;> simp [hD, hnone]

@[simp] theorem both_expects (hapart : ∀ e, C.token e = none ∨ D.token e = none) (s : S × S') :
    (C.both D hapart).expects s = Sum.elim (C.expects s.1) (D.expects s.2) := rfl

variable {D} in
theorem both_token_inl (hapart : ∀ e, C.token e = none ∨ D.token e = none) (e : E) (k : K) :
    (C.both D hapart).token e = some (.inl k) ↔ C.token e = some k := by
  obtain hnone | hnone := hapart e
  · cases hD : D.token e <;> simp [both, hnone, hD]
  · cases hC : C.token e <;> simp [both, hnone, hC]

variable {D} in
theorem both_token_inr (hapart : ∀ e, C.token e = none ∨ D.token e = none) (e : E) (k : K') :
    (C.both D hapart).token e = some (.inr k) ↔ D.token e = some k := by
  obtain hnone | hnone := hapart e
  · cases hD : D.token e <;> simp [both, hnone, hD]
  · cases hC : C.token e <;> simp [both, hnone, hC]

theorem passed_both (hapart : ∀ e, C.token e = none ∨ D.token e = none) (s : S) (s' : S') (events : List E) :
    D.passed s' (C.passed s events) = (C.both D hapart).passed (s, s') events := by
  induction events generalizing s s' with
  | nil => rfl
  | cons e rest ih =>
    rw [passed_cons, passed_cons]
    cases h : (C.consumes s e).1 with
    | true => simp [both, h, ih]
    | false => simp [both, h, ih, passed_cons]

end Both

/-! ### What is dropped -/

variable [DecidableEq K]

/-- The event is the first that bears a token that is expected at the start. -/
def dropped (s : S) (before : List E) (e : E) : Bool :=
  (C.token e).any fun k => C.expects s k && !before.any (C.token · = some k)

theorem dropped_cons (s : S) (e : E) (before : List E) (e' : E) :
    C.dropped (C.consumes s e).2 before e' = C.dropped s (e :: before) e' := by
  unfold dropped
  congr 1
  funext k
  have hk := C.expects_iff s e k
  rw [Bool.eq_iff_iff]
  simp only [Bool.and_eq_true, hk, List.any_cons, Bool.not_or, Bool.not_eq_true', decide_eq_false_iff_not]
  tauto

/-- Exactly the first event of each expected token is dropped. -/
theorem passed_eq_keep (s : S) (events : List E) :
    C.passed s events = keep (fun before e => !C.dropped s before e) events := by
  induction events generalizing s with
  | nil => rfl
  | cons e rest ih =>
    have hfirst : C.dropped s [] e = (C.consumes s e).1 := by
      rw [C.consumes_iff]
      simp [dropped]
    rw [passed_cons, keep_cons, ih, hfirst]
    congr 1
    · cases (C.consumes s e).1 <;> rfl
    · apply keep_congr
      intro before e' _
      rw [C.dropped_cons]

theorem dropped_both [DecidableEq K'] (D : Once S' E K') (hapart : ∀ e, C.token e = none ∨ D.token e = none)
    (s : S × S') (before : List E) (e : E) :
    (C.both D hapart).dropped s before e = (C.dropped s.1 before e || D.dropped s.2 before e) := by
  unfold dropped
  obtain hC | hD := hapart e
  · cases hD : D.token e with
    | none => simp [both, hC, hD]
    | some k =>
      rw [(C.both_token_inr hapart e k).mpr hD]
      simp [hC, both_token_inr]
  · cases hC : C.token e with
    | none => simp [both, hC, hD]
    | some k =>
      rw [(C.both_token_inl hapart e k).mpr hC]
      simp [hD, both_token_inl]

end Once

end Hopr.Library
