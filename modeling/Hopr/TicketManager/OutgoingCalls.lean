import Hopr.Library.Threads
import Hopr.TicketManager.OutgoingIndex

/-! Concurrent callers of one outgoing index entry.

`increment_at_least` and `set` are taken apart into their atomic steps: each
increment of the counter, each lift and each store of the dirty flag is one step,
and the steps of any number of calls interleave. A call that is not interrupted
does what the sequential functions say (`increment_alone`, `set_alone`).

A value is taken by the increment that leaves the counter past it, and the
counter never decreases unless it wraps. So what a caller took stays `Below` the
counter, any two callers stay `Apart`, and whoever starts later takes more
(`indices_unique`). -/
namespace Hopr.TicketManager.OutgoingCalls
open OutgoingIndexEntry Library

/-- Where a call of `increment_at_least` is. -/
inductive Incrementing where
  /-- Before the first increment. -/
  | take
  /-- The value taken was below the minimum; before the lift. -/
  | lift
  /-- Lifted; before the second increment. -/
  | retake
  /-- The value `v` was taken; before the entry is marked. -/
  | mark (v : UInt64)
  | returned (v : UInt64)
deriving DecidableEq

/-- Where a call of `set` is. -/
inductive Setting where
  /-- Before the lift. -/
  | lift
  /-- Lifted from `current`; before the entry is marked. -/
  | mark (current : UInt64)
  | returned (v : UInt64)
deriving DecidableEq

inductive Request where
  | increment_at_least (min : UInt64)
  | set (new_value : UInt64)
deriving DecidableEq

inductive Call where
  | increment_at_least (min : UInt64) (at_step : Incrementing)
  | set (new_value : UInt64) (at_step : Setting)
deriving DecidableEq

def start : Request → Call
  | .increment_at_least min => .increment_at_least min .take
  | .set new_value => .set new_value .lift

section Machine
variable [TicketBuilder]

/-- One atomic step of a call. -/
def tick (e : OutgoingIndexEntry) : Call → Option (OutgoingIndexEntry × Call)
  | .increment_at_least min .take =>
    some ({e with index := e.index + 1},
      .increment_at_least min (if e.index < min then .lift else .mark e.index))
  | .increment_at_least min .lift =>
    some ({e with index := max e.index min}, .increment_at_least min .retake)
  | .increment_at_least min .retake =>
    some ({e with index := e.index + 1}, .increment_at_least min (.mark e.index))
  | .increment_at_least min (.mark v) =>
    some (if v ≤ TicketBuilder.MAX_TICKET_INDEX then {e with is_dirty := true} else e,
      .increment_at_least min (.returned (Min.min v TicketBuilder.MAX_TICKET_INDEX)))
  | .increment_at_least _ (.returned _) => none
  | .set new_value .lift =>
    some ({e with index := max e.index new_value}, .set new_value (.mark e.index))
  | .set new_value (.mark current) =>
    some (if current < new_value then {e with is_dirty := true} else e,
      .set new_value (.returned (min (max new_value current) TicketBuilder.MAX_TICKET_INDEX)))
  | .set _ (.returned _) => none

def machine : Machine (Pool OutgoingIndexEntry Call) (Pool.Action Request) := Pool.machine start tick

end Machine

/-! ### Calls that are not interrupted -/

section Uninterrupted
variable [TicketBuilder]

theorem increment_alone (min : UInt64) (e : OutgoingIndexEntry) : ∃ n,
    machine.run ⟨e, []⟩ (.spawn (.increment_at_least min) :: List.replicate n (.tick 0)) =
      some ⟨((increment_at_least min).run e).2,
        [.increment_at_least min (.returned ((increment_at_least min).run e).1)]⟩ := by
  by_cases h : e.index < min
  · refine ⟨4, ?_⟩
    by_cases hv : max (e.index + 1) min ≤ TicketBuilder.MAX_TICKET_INDEX <;>
      simp [machine, Pool.machine, Pool.step, Machine.run, start, tick, increment_at_least, fetch_add,
        fetch_max, mark_dirty, h, hv] <;> exact ⟨rfl, rfl⟩
  · refine ⟨2, ?_⟩
    by_cases hv : e.index ≤ TicketBuilder.MAX_TICKET_INDEX <;>
      simp [machine, Pool.machine, Pool.step, Machine.run, start, tick, increment_at_least, fetch_add,
        mark_dirty, h, hv] <;> exact ⟨rfl, rfl⟩

theorem set_alone (new_value : UInt64) (e : OutgoingIndexEntry) :
    machine.run ⟨e, []⟩ [.spawn (.set new_value), .tick 0, .tick 0] =
      some ⟨((set new_value).run e).2, [.set new_value (.returned ((set new_value).run e).1)]⟩ := by
  by_cases h : e.index < new_value <;>
    simp [machine, Pool.machine, Pool.step, Machine.run, start, tick, OutgoingIndexEntry.set, fetch_max,
      mark_dirty, h] <;> exact ⟨rfl, rfl⟩

end Uninterrupted

/-! ### Every interleaving -/

section Interleavings

/-- The next step of the call increments the counter. -/
def increments : Call → Bool
  | .increment_at_least _ .take => true
  | .increment_at_least _ .retake => true
  | _ => false

/-- The counter is not incremented past the largest 64-bit value. -/
def NoWrap (s : Pool OutgoingIndexEntry Call) : Pool.Action Request → Prop
  | .spawn _ => True
  | .tick i => ∀ c ∈ s.threads[i]?, increments c = true → s.shared.index.toNat + 1 < 2 ^ 64

/-- The value a call has taken, as it is returned from then on. -/
def Call.value : Call → Option UInt64
  | .increment_at_least _ (.mark v) => some v
  | .increment_at_least _ (.returned v) => some v
  | _ => none

theorem value_start (r : Request) : (start r).value = none := by cases r <;> rfl

variable [TicketBuilder]

/-- What a call has taken is below the counter and not below its minimum. -/
def Below (index : UInt64) : Call → Prop
  | .increment_at_least min .retake => min.toNat ≤ index.toNat
  | .increment_at_least min (.mark v) => v.toNat < index.toNat ∧ min.toNat ≤ v.toNat
  | .increment_at_least min (.returned v) => v.toNat < index.toNat ∧
      Min.min min.toNat TicketBuilder.MAX_TICKET_INDEX.toNat ≤ v.toNat
  | _ => True

/-- What a call has taken is at least `x`, or it is the bound. -/
def Above (x : Nat) (c : Call) : Prop :=
  ∀ v, c.value = some v → x ≤ v.toNat ∨ v = TicketBuilder.MAX_TICKET_INDEX

/-- Two calls have not taken the same value below the bound. -/
def Apart (c d : Call) : Prop :=
  ∀ v, c.value = some v → d.value = some v → TicketBuilder.MAX_TICKET_INDEX.toNat ≤ v.toNat

theorem Below.mono {index index' : UInt64} {c : Call} (h : Below index c)
    (hle : index.toNat ≤ index'.toNat) : Below index' c := by
  cases c with
  | set new_value at_step => trivial
  | increment_at_least min at_step =>
    cases at_step with
    | take => trivial
    | lift => trivial
    | retake => exact Nat.le_trans h hle
    | mark v => exact ⟨Nat.lt_of_lt_of_le h.1 hle, h.2⟩
    | returned v => exact ⟨Nat.lt_of_lt_of_le h.1 hle, h.2⟩

theorem Below.value_lt {index : UInt64} {c : Call} (h : Below index c) {v : UInt64}
    (hv : c.value = some v) : v.toNat < index.toNat := by
  cases c with
  | set new_value at_step => cases hv
  | increment_at_least min at_step =>
    cases at_step with
    | mark w => obtain rfl := Option.some.inj hv; exact h.1
    | returned w => obtain rfl := Option.some.inj hv; exact h.1
    | _ => cases hv

/-- A step never lowers the counter, and the value it takes, if any, is the counter's or one that
was taken before, capped. -/
theorem tick_spec {e e' : OutgoingIndexEntry} {c c' : Call} (h : tick e c = some (e', c'))
    (hfits : increments c = true → e.index.toNat + 1 < 2 ^ 64) (hc : Below e.index c) :
    e.index.toNat ≤ e'.index.toNat ∧ Below e'.index c' ∧
      ∀ v, c'.value = some v → v = e.index ∨
        ∃ w, c.value = some w ∧ v = min w TicketBuilder.MAX_TICKET_INDEX := by
  have hadd : e.index.toNat + 1 < 2 ^ 64 → (e.index + 1).toNat = e.index.toNat + 1 := by
    intro hlt
    rw [UInt64.toNat_add, show (1 : UInt64).toNat = 1 from rfl, Nat.mod_eq_of_lt hlt]
  have hmax : ∀ n, e.index.toNat ≤ (max e.index n).toNat := by
    intro n
    rw [toNat_max]
    exact Nat.le_max_left ..
  cases c with
  | set new_value at_step =>
    cases at_step with
    | lift =>
      simp only [tick, Option.some.injEq, Prod.mk.injEq] at h
      obtain ⟨rfl, rfl⟩ := h
      exact ⟨hmax new_value, trivial, fun _ hv => (nomatch hv)⟩
    | mark current =>
      simp only [tick, Option.some.injEq, Prod.mk.injEq] at h
      obtain ⟨rfl, rfl⟩ := h
      refine ⟨?_, trivial, fun _ hv => (nomatch hv)⟩
      split <;> exact Nat.le_refl _
    | returned v => cases h
  | increment_at_least min at_step =>
    cases at_step with
    | take =>
      simp only [tick, Option.some.injEq, Prod.mk.injEq] at h
      obtain ⟨rfl, rfl⟩ := h
      have hlt := hadd (hfits rfl)
      by_cases hbehind : e.index < min
      · rw [if_pos hbehind]
        exact ⟨by show _ ≤ (e.index + 1).toNat; omega, trivial, fun _ hv => (nomatch hv)⟩
      · rw [if_neg hbehind]
        refine ⟨by show _ ≤ (e.index + 1).toNat; omega, ⟨?_, ?_⟩, fun v hv => ?_⟩
        · show _ < (e.index + 1).toNat
          omega
        · rw [UInt64.lt_iff_toNat_lt] at hbehind
          omega
        · exact Or.inl (Option.some.inj hv).symm
    | lift =>
      simp only [tick, Option.some.injEq, Prod.mk.injEq] at h
      obtain ⟨rfl, rfl⟩ := h
      refine ⟨hmax min, ?_, fun _ hv => (nomatch hv)⟩
      show min.toNat ≤ (max e.index min).toNat
      rw [toNat_max]
      exact Nat.le_max_right ..
    | retake =>
      simp only [tick, Option.some.injEq, Prod.mk.injEq] at h
      obtain ⟨rfl, rfl⟩ := h
      have hlt := hadd (hfits rfl)
      refine ⟨by show _ ≤ (e.index + 1).toNat; omega, ⟨?_, hc⟩, fun v hv => ?_⟩
      · show _ < (e.index + 1).toNat
        omega
      · exact Or.inl (Option.some.inj hv).symm
    | mark v =>
      simp only [tick, Option.some.injEq, Prod.mk.injEq] at h
      obtain ⟨rfl, rfl⟩ := h
      have hindex : (if v ≤ TicketBuilder.MAX_TICKET_INDEX then {e with is_dirty := true} else e).index =
          e.index := by split <;> rfl
      rw [hindex]
      obtain ⟨hlt, hle⟩ := hc
      refine ⟨Nat.le_refl _, ⟨?_, ?_⟩, fun w hw => ?_⟩
      · rw [toNat_min]
        omega
      · rw [toNat_min]
        omega
      · exact Or.inr ⟨v, rfl, (Option.some.inj hw).symm⟩
    | returned v => cases h

theorem Apart.symm {c d : Call} (h : Apart c d) : Apart d c := fun v hd hc => h v hc hd

/-- The counter has reached `x`, and so have the calls from the `n`-th on. -/
abbrev Holds (x n : Nat) : Pool OutgoingIndexEntry Call → Prop :=
  Pool.Holds (fun e => x ≤ e.index.toNat) (fun i e c => Below e.index c ∧ (n ≤ i → Above x c)) Apart

theorem holds_step {x n : Nat} {s s' : Pool OutgoingIndexEntry Call} {a : Pool.Action Request}
    (hw : NoWrap s a) (h : Holds x n s) (hs : Pool.step start tick s a = some s') : Holds x n s' := by
  cases a with
  | spawn r =>
    refine Pool.spawn_holds h hs ⟨?_, fun _ v hv => ?_⟩ fun i u _ => ⟨fun v hv => ?_, fun v _ hv => ?_⟩
    · cases r <;> trivial
    · rw [value_start] at hv
      cases hv
    · rw [value_start] at hv
      cases hv
    · rw [value_start] at hv
      cases hv
  | tick i =>
    refine Pool.tick_holds h hs (fun c e' c' hc htick hx hL => ?_)
      (fun j c u e' c' hc htick hx hL hLu hapart => ?_)
    · obtain ⟨hle, hbelow, hvalue⟩ := tick_spec htick (hw c hc) hL.1
      refine ⟨Nat.le_trans hx hle, hbelow, fun hi v hv => ?_⟩
      rcases hvalue v hv with rfl | ⟨w, hw, rfl⟩
      · exact Or.inl hx
      · -- the value that was taken, capped
        rcases hL.2 hi w hw with hxw | rfl
        · rw [← UInt64.toNat_inj, toNat_min]
          omega
        · rw [← UInt64.toNat_inj, toNat_min]
          omega
    · obtain ⟨hle, _, hvalue⟩ := tick_spec htick (hw c hc) hL.1
      have hapart' : Apart c' u := by
        intro v hv hvu
        rcases hvalue v hv with rfl | ⟨w, hw, rfl⟩
        · exact absurd (hLu.1.value_lt hvu) (Nat.lt_irrefl _)
        · rw [toNat_min]
          by_cases hmax : w.toNat < TicketBuilder.MAX_TICKET_INDEX.toNat
          · have hmin : min w TicketBuilder.MAX_TICKET_INDEX = w := by
              apply UInt64.toNat_inj.mp
              rw [toNat_min]
              omega
            rw [hmin] at hvu
            exact absurd (hapart w hw hvu) (by omega)
          · omega
      exact ⟨⟨hLu.1.mono hle, hLu.2⟩, hapart', hapart'.symm⟩

theorem holds_run {x n : Nat} {s s' : Pool OutgoingIndexEntry Call} {as : List (Pool.Action Request)}
    (hw : machine.Meets NoWrap s as) (hrun : machine.run s as = some s') (h : Holds x n s) :
    Holds x n s' :=
  machine.run_invariant (fun _ _ _ hw h hs => holds_step hw h hs) hw hrun h

/-- The call at place `i` has returned the index `v`. -/
def Issued (s : Pool OutgoingIndexEntry Call) (i : Nat) (min v : UInt64) : Prop :=
  s.threads[i]? = some (.increment_at_least min (.returned v))

/-- While the counter does not wrap: no two calls return the same index below the bound, each
returns at least its minimum, capped, and one that starts after another returned returns a larger
index or the bound. -/
theorem indices_unique {e : OutgoingIndexEntry} {as bs : List (Pool.Action Request)}
    {s s' : Pool OutgoingIndexEntry Call} (hw : machine.Meets NoWrap ⟨e, []⟩ (as ++ bs))
    (has : machine.run ⟨e, []⟩ as = some s) (hbs : machine.run s bs = some s') :
    (∀ i j m m' v w, i ≠ j → Issued s' i m v → Issued s' j m' w →
      v < TicketBuilder.MAX_TICKET_INDEX → w < TicketBuilder.MAX_TICKET_INDEX → v ≠ w) ∧
    (∀ i min v, Issued s' i min v → Min.min min TicketBuilder.MAX_TICKET_INDEX ≤ v) ∧
    (∀ i j m m' v w, Issued s i m v → s.threads.length ≤ j → Issued s' j m' w →
      v < w ∨ w = TicketBuilder.MAX_TICKET_INDEX) := by
  obtain ⟨hwas, hwbs⟩ := machine.meets_append has hw
  have hstart : Holds 0 0 ⟨e, []⟩ :=
    ⟨Nat.zero_le _, fun i c hc => (nomatch hc), fun i j c d _ hc => (nomatch hc)⟩
  have hs := holds_run hwas has hstart
  have hs' := holds_run hwbs hbs hs
  refine ⟨fun i j m m' v w hij hv hw hmax _ he => ?_, fun i min v hv => ?_,
    fun i j m m' v w hv hj hw => ?_⟩
  · have hle := hs'.pair i j _ _ hij hv hw v rfl (congrArg some he.symm)
    rw [UInt64.lt_iff_toNat_lt] at hmax
    omega
  · have hle := (hs'.each i _ hv).1.2
    rw [UInt64.le_iff_toNat_le, toNat_min]
    exact hle
  · -- the calls that start from here on take at least what the counter has reached
    have hreached : Holds s.shared.index.toNat s.threads.length s := by
      refine ⟨Nat.le_refl _, fun k c hc => ⟨(hs.each k c hc).1, fun hk => ?_⟩, hs.pair⟩
      have hlt := (List.getElem?_eq_some_iff.mp hc).1
      omega
    have hlt := (hs.each i _ hv).1.value_lt rfl
    rcases ((holds_run hwbs hbs hreached).each j _ hw).2 hj w rfl with hle | hmax
    · rw [UInt64.lt_iff_toNat_lt]
      left
      omega
    · exact Or.inr hmax

end Interleavings

section Bits48

local instance : TicketBuilder := .bits48

instance : ∀ (s : Pool OutgoingIndexEntry Call) (a : Pool.Action Request), Decidable (NoWrap s a)
  | _, .spawn _ => .isTrue trivial
  | s, .tick i => inferInstanceAs (Decidable (∀ c ∈ s.threads[i]?,
      increments c = true → s.shared.index.toNat + 1 < 2 ^ 64))

/-- Two callers that both have to lift the counter, interleaved, and one after the second. -/
theorem indices_unique_lifted :
    let as : List (Pool.Action Request) := [.spawn (.increment_at_least 7), .tick 0,
      .spawn (.increment_at_least 5), .tick 1, .tick 0, .spawn (.set 6), .tick 1, .tick 2, .tick 1,
      .tick 0, .tick 1]
    let bs : List (Pool.Action Request) := [.tick 0, .spawn (.increment_at_least 0), .tick 3, .tick 3]
    let s : Pool OutgoingIndexEntry Call := ⟨⟨9, true⟩, [.increment_at_least 7 (.mark 8),
      .increment_at_least 5 (.returned 7), .set 6 (.mark 7)]⟩
    let s' : Pool OutgoingIndexEntry Call := ⟨⟨10, true⟩, [.increment_at_least 7 (.returned 8),
      .increment_at_least 5 (.returned 7), .set 6 (.mark 7), .increment_at_least 0 (.returned 9)]⟩
    machine.run ⟨⟨2, false⟩, []⟩ as = some s ∧ machine.run s bs = some s' ∧
      (8 : UInt64) ≠ 7 ∧ min 5 TicketBuilder.MAX_TICKET_INDEX ≤ (7 : UInt64) ∧
      ((7 : UInt64) < 9 ∨ 9 = TicketBuilder.MAX_TICKET_INDEX) := by
  intro as bs s s'
  have hs : machine.run ⟨⟨2, false⟩, []⟩ as = some s := by decide +kernel
  have hs' : machine.run s bs = some s' := by decide +kernel
  obtain ⟨hne, hmin, hlater⟩ := indices_unique (by decide +kernel) hs hs'
  refine ⟨hs, hs', ?_, ?_, ?_⟩
  · exact hne 0 1 7 5 8 7 (by decide) rfl rfl (by decide) (by decide)
  · exact hmin 1 5 7 rfl
  · exact hlater 1 3 5 0 7 9 rfl (by decide) rfl

end Bits48

end Hopr.TicketManager.OutgoingCalls
