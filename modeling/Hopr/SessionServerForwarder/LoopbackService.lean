import Hopr.Library.Machine

/-! The loopback service.

One task reads from the session and puts what it reads into a channel without a bound,
another takes it from there and writes it back; the service is over when both are. What
comes back is at any time the beginning of what was sent; it is all of it when the
service is over, unless a write failed; and once the session has sent its last, the
service is over after a bounded number of steps, in none of which it has to wait for
anything but a write (`echoed_of_run`). -/
namespace Hopr.SessionServerForwarder.LoopbackService
open Library

def HOPR_TCP_BUFFER_SIZE : Nat := 4096

structure State where
  reading : Bool
  /-- What was read from the session. -/
  received : List UInt8
  channel : List (List UInt8)
  writing : Bool
  /-- What is left to write of what was taken from the channel. -/
  data : List UInt8
  /-- What was written to the session. -/
  written : List UInt8
deriving DecidableEq

namespace State

def new : State := ⟨true, [], [], true, [], []⟩

/-- Both tasks are joined. -/
def Over (s : State) : Prop := s.reading = false ∧ s.writing = false

/-- The task that writes ends, and its end of the channel goes with it. -/
def stop_writing (s : State) : State := {s with writing := false, channel := [], data := []}

inductive Action where
  /-- A read returns what it filled of the buffer. -/
  | read (result : Except Unit (List UInt8))
  /-- Data, or the end, is taken from the channel. -/
  | recv
  /-- A write of the rest of the data returns how much was written. -/
  | write (result : Except Unit Nat)

def step (s : State) : Action → Option State
  | .read result =>
    if s.reading = false then none
    else
      match result with
      | .error _ => some {s with reading := false}
      | .ok [] => some {s with reading := false}
      | .ok buf =>
        if HOPR_TCP_BUFFER_SIZE < buf.length then none
        else if s.writing then some {s with received := s.received ++ buf, channel := s.channel ++ [buf]}
        -- The other end of the channel is gone.
        else some {s with received := s.received ++ buf, reading := false}
  | .recv =>
    if s.writing = false ∨ s.data ≠ [] then none
    else
      match s.channel with
      | data :: rest => some {s with channel := rest, data}
      | [] => if s.reading then none else some s.stop_writing
  | .write result =>
    if s.writing = false ∨ s.data = [] then none
    else
      match result with
      | .error _ => some s.stop_writing
      | .ok 0 => some s.stop_writing
      | .ok n =>
        if s.data.length < n then none
        else some {s with data := s.data.drop n, written := s.written ++ s.data.take n}

end State
open State

def machine : Machine State Action := ⟨step⟩

/-- The action is not a write that fails. -/
def State.Action.Succeeds : Action → Prop
  | .write (.error _) | .write (.ok 0) => False
  | _ => True

/-! ### What a step does -/

inductive Change (s : State) (a : Action) : State → Prop
  | read_ended : s.reading = true → Change s a {s with reading := false}
  | sent (buf : List UInt8) : s.reading = true → s.writing = true → buf ≠ [] →
      Change s a {s with received := s.received ++ buf, channel := s.channel ++ [buf]}
  | unsent (buf : List UInt8) : s.reading = true → s.writing = false →
      Change s a {s with received := s.received ++ buf, reading := false}
  | taken (data : List UInt8) (rest : List (List UInt8)) : s.writing = true → s.data = [] → s.channel = data :: rest →
      Change s a {s with channel := rest, data}
  | write_ended : s.reading = false → s.writing = true → s.data = [] → s.channel = [] → Change s a s.stop_writing
  | failed : ¬a.Succeeds → s.writing = true → Change s a s.stop_writing
  | wrote (n : Nat) : s.writing = true → 0 < n → n ≤ s.data.length →
      Change s a {s with data := s.data.drop n, written := s.written ++ s.data.take n}

theorem change_of_step {s s' : State} {a : Action} (hstep : step s a = some s') : Change s a s' := by
  cases a with
  | read result =>
    simp only [step] at hstep
    split at hstep
    · cases hstep
    · next hreading =>
      rw [Bool.not_eq_false] at hreading
      split at hstep
      · cases hstep
        exact .read_ended hreading
      · cases hstep
        exact .read_ended hreading
      · next buf hbuf =>
        split at hstep
        · cases hstep
        · split at hstep
          · next hwriting =>
            cases hstep
            exact .sent buf hreading hwriting (by rintro rfl; exact hbuf rfl)
          · next hwriting =>
            cases hstep
            exact .unsent buf hreading (Bool.eq_false_iff.mpr hwriting)
  | recv =>
    simp only [step] at hstep
    split at hstep
    · cases hstep
    · next hready =>
      rw [not_or, Bool.not_eq_false, not_not] at hready
      split at hstep
      · next data rest hchannel =>
        cases hstep
        exact .taken data rest hready.1 hready.2 hchannel
      · next hchannel =>
        split at hstep
        · cases hstep
        · next hreading =>
          cases hstep
          exact .write_ended (Bool.eq_false_iff.mpr hreading) hready.1 hready.2 hchannel
  | write result =>
    simp only [step] at hstep
    split at hstep
    · cases hstep
    · next hready =>
      rw [not_or, Bool.not_eq_false] at hready
      split at hstep
      · cases hstep
        exact .failed id hready.1
      · cases hstep
        exact .failed id hready.1
      · next n hn =>
        split at hstep
        · cases hstep
        · next hlength =>
          cases hstep
          exact .wrote n hready.1 (Nat.pos_of_ne_zero hn) (Nat.le_of_not_lt hlength)

/-! ### What comes back -/

/-- What was read is written or on its way, as long as there is someone to write it. -/
structure Echoes (s : State) : Prop where
  begun : s.written <+: s.received
  underway : s.writing = true → s.received = s.written ++ s.data ++ s.channel.flatten

theorem Change.echoes {s s' : State} {a : Action} (hchange : Change s a s') (h : Echoes s) : Echoes s' := by
  cases hchange with
  | read_ended => exact ⟨h.begun, h.underway⟩
  | sent buf _ hwriting _ =>
    refine ⟨h.begun.trans (List.prefix_append _ _), fun _ => ?_⟩
    rw [h.underway hwriting]
    simp
  | unsent buf _ hwriting =>
    exact ⟨h.begun.trans (List.prefix_append _ _), fun h => absurd (hwriting.symm.trans h) Bool.false_ne_true⟩
  | taken data rest hwriting hdata hchannel =>
    refine ⟨h.begun, fun _ => ?_⟩
    rw [h.underway hwriting, hdata, hchannel]
    simp
  | write_ended | failed => exact ⟨h.begun, fun h => absurd h Bool.false_ne_true⟩
  | wrote n hwriting _ _ =>
    have hall : s.received = s.written ++ s.data.take n ++ s.data.drop n ++ s.channel.flatten := by
      rw [List.append_assoc s.written, List.take_append_drop]
      exact h.underway hwriting
    refine ⟨?_, fun _ => hall⟩
    rw [hall, List.append_assoc]
    exact List.prefix_append _ _

/-- Nothing is given up before all is written. -/
def Lossless (s : State) : Prop := s.writing = false → s.reading = false ∧ s.written = s.received

theorem Change.lossless {s s' : State} {a : Action} (hchange : Change s a s') (hsucceeds : a.Succeeds) (h : Echoes s)
    (hlossless : Lossless s) : Lossless s' := by
  cases hchange with
  | read_ended => exact fun hwriting => ⟨rfl, (hlossless hwriting).2⟩
  | unsent buf hreading hwriting => exact absurd (hreading.symm.trans (hlossless hwriting).1) Bool.true_eq_false.mp
  | sent _ _ hwriting | taken _ _ hwriting | wrote _ hwriting =>
    exact fun hended => absurd (hwriting.symm.trans hended) Bool.true_eq_false.mp
  | write_ended hreading hwriting hdata hchannel =>
    refine fun _ => ⟨hreading, ?_⟩
    have hall := h.underway hwriting
    rw [hdata, hchannel] at hall
    show s.written = s.received
    simpa using hall.symm
  | failed hfails => exact absurd hsucceeds hfails

/-! ### The end -/

/-- A bound on the steps that are left when all is read. -/
def left (s : State) : Nat :=
  if s.writing then 1 + s.channel.length + s.data.length + s.channel.flatten.length else 0

theorem Change.left_lt {s s' : State} {a : Action} (hchange : Change s a s') (hreading : s.reading = false) :
    s'.reading = false ∧ left s' < left s := by
  cases hchange with
  | read_ended h | sent _ h | unsent _ h => exact absurd (hreading.symm.trans h) Bool.false_ne_true
  | taken data rest hwriting hdata hchannel =>
    refine ⟨hreading, ?_⟩
    simp only [left, hwriting, if_true, hdata, hchannel, List.length_cons, List.flatten_cons, List.length_append,
      List.length_nil]
    omega
  | write_ended _ hwriting _ _ | failed _ hwriting =>
    refine ⟨hreading, ?_⟩
    simp only [left, stop_writing, hwriting, if_true, Bool.false_eq_true, if_false]
    omega
  | wrote n hwriting hpos hlength =>
    refine ⟨hreading, ?_⟩
    simp only [left, hwriting, if_true, List.length_drop]
    omega

theorem length_le_left {more : List Action} {s s' : State} (hrun : machine.run s more = some s')
    (hreading : s.reading = false) : more.length ≤ left s := by
  induction more generalizing s with
  | nil => exact Nat.zero_le _
  | cons a rest ih =>
    obtain ⟨m, hstep, hrest⟩ := (machine.run_cons_eq_some).mp hrun
    obtain ⟨hreading', hlt⟩ := (change_of_step hstep).left_lt hreading
    exact Nat.lt_of_le_of_lt (ih hrest hreading') hlt

/-- What the task that writes can do next: it never waits for the one that reads, when that has ended. -/
theorem goes_on {s : State} (hreading : s.reading = false) (hover : ¬s.Over) :
    (s.data = [] ∧ (step s .recv).isSome = true) ∨ s.data ≠ [] ∧ ∀ result : Except Unit Nat,
      (∀ n, result = .ok n → n ≤ s.data.length) → (step s (.write result)).isSome = true := by
  have hwriting : s.writing = true := Bool.of_not_eq_false fun h => hover ⟨hreading, h⟩
  by_cases hdata : s.data = []
  · refine .inl ⟨hdata, ?_⟩
    simp only [step, hwriting, hdata, hreading]
    cases s.channel <;> rfl
  · refine .inr ⟨hdata, fun result hresult => ?_⟩
    simp only [step, hwriting, hdata, Bool.true_eq_false, or_self, if_false]
    split
    · rfl
    · rfl
    · next n _ =>
      rw [if_neg (Nat.not_lt_of_le (hresult n rfl))]
      rfl

/-- What comes back is the beginning of what was sent, and all of it when the service is over and no write failed;
and once all is read, each step is a take from the channel or a write, and only so many are left. -/
theorem echoed_of_run {actions : List Action} {s : State} (hrun : machine.run .new actions = some s) :
    s.written <+: s.received ∧
      (s.Over → machine.Meets (fun _ a => a.Succeeds) .new actions → s.written = s.received) ∧
      (s.reading = false → (∀ more s', machine.run s more = some s' → more.length ≤ left s) ∧
        (¬s.Over → s.data = [] ∧ (step s .recv).isSome = true ∨ s.data ≠ [] ∧ ∀ result : Except Unit Nat,
          (∀ n, result = .ok n → n ≤ s.data.length) → (step s (.write result)).isSome = true)) := by
  have hnew : Echoes .new := ⟨List.prefix_rfl, fun _ => rfl⟩
  have hechoes : Echoes s :=
    machine.run_invariant_of_step (fun _ _ _ h hstep => (change_of_step hstep).echoes h) hrun hnew
  refine ⟨hechoes.begun, ?_, fun hreading => ⟨fun _ _ hmore => length_le_left hmore hreading, goes_on hreading⟩⟩
  intro hover hmeets
  have hlossless : Echoes s ∧ Lossless s := by
    refine machine.run_invariant (I := fun s => Echoes s ∧ Lossless s) ?_ hmeets hrun ⟨hnew, fun h => nomatch h⟩
    intro s a s' hsucceeds h hstep
    have hchange := change_of_step hstep
    exact ⟨hchange.echoes h.1, hchange.lossless hsucceeds h.1 h.2⟩
  exact (hlossless.2 hover.2).2

/-- Two reads are echoed while the second is under way. -/
theorem echoed_of_run_partial :
    let actions : List Action := [.read (.ok [1, 2, 3]), .recv, .write (.ok 2), .read (.ok [4]), .write (.ok 1),
      .read (.ok []), .recv, .write (.ok 1), .recv]
    ∃ s, machine.run .new actions = some s ∧ s.received = [1, 2, 3, 4] ∧ s.written = s.received := by
  intro actions
  obtain ⟨s, hrun, hreceived, hover⟩ : ∃ s, machine.run .new actions = some s ∧ s.received = [1, 2, 3, 4] ∧
      (s.reading = false ∧ s.writing = false) := machine.exists_run (by decide)
  refine ⟨s, hrun, hreceived, (echoed_of_run hrun).2.1 hover ?_⟩
  simp [machine, Machine.Meets, Action.Succeeds, actions]

end Hopr.SessionServerForwarder.LoopbackService
