import Hopr.Connector.Health

/-! The health is that of the latest attempt, but for late updates.

A task changes the health only where it is watched, and elsewhere the health
stays what it is until the next attempt. So no task overwrites a failure, and
the health does not become `Ready` once the latest attempt has reported that a
subscription ended. What goes wrong is the end itself: the task of an attempt
that failed reports its own end during the next one (`Late`). Every step is
`Sound` if and only if none is late (`sound_iff`). -/
namespace Hopr.Connector.LatestAttempt
open Library Health HoprBlockchainConnector

/-- What is asked of a step: the health is `SubscriptionEnded` only if a subscription of the latest
attempt is over, becomes `Ready` only if none of them was reported, and is not overwritten by a task
once it is final. -/
structure Sound (s : HoprBlockchainConnector) (a : Action) (s' : HoprBlockchainConnector) : Prop where
  ended : s'.health = .SubscriptionEnded → s'.latest.over = true
  ready : s.health ≠ .Ready → s'.health = .Ready → s.latest.reported = false ∧ s'.latest.reported = false
  kept : a.of_task = true → s.health.final = true → s'.health = s.health

/-- The task of an earlier attempt is about to exchange a watched health for `SubscriptionEnded`, and
no subscription of the latest attempt is over. -/
def Late (s : HoprBlockchainConnector) (a : Action) : Prop :=
  ∃ i u, a = .update i ∧ i ≠ s.attempt ∧ (s.tasks i).update = some u ∧ u.any_ended = true ∧
    u.current = some s.health ∧ s.health.watched = true ∧ s.latest.over = false

/-! ### What a step does -/

/-- What becomes of a task by steps that are not its updates. -/
structure Advances (t t' : Task) : Prop where
  stays_over : t.over = true → t'.over = true
  reported : t'.reported = t.reported
  update : t'.update = t.update ∨
    ∃ u, t'.update = some u ∧ u.current = none ∧ (u.any_ended = true → t'.over = true)

theorem Advances.refl (t : Task) : Advances t t := ⟨id, rfl, .inl rfl⟩

/-- What becomes of the health and of the task of the latest attempt. -/
inductive Effect (s : HoprBlockchainConnector) : Action → HoprBlockchainConnector → Prop
  | attempted {s'} : s'.health = .Connecting → s'.latest = {} → Effect s .connect s'
  | advanced {a s'} : s'.health = s.health → Advances s.latest s'.latest → Effect s a s'
  | stored {a s'} : s'.health.final = true → s'.latest = s.latest → a.of_task = false → Effect s a s'
  | established {s'} : s.health = .Connecting → s'.health = .Ready → s'.latest = s.latest →
      Effect s .set_ready s'
  | updated {i u s'} : (s.tasks i).update = some u → s'.health = (u.step s.health).1 →
      s'.latest = (if s.attempt = i then
        let update := (u.step s.health).2
        let reported := s.latest.reported || (u.any_ended && update.isNone)
        {s.latest with update, reported} else s.latest) → Effect s (.update i) s'

theorem over_of_aborted {t : Task} (h : t.aborted = true) : t.over = true := by
  simp only [Task.over, h, Bool.true_or]

theorem over_of_closed {t : Task} {sub : Subscription} (h : t.closed sub = true) : t.over = true := by
  have hmem : sub ∈ Subscription.all := by cases sub <;> decide
  simp only [Task.over, List.any_eq_true.mpr ⟨sub, hmem, h⟩, Bool.or_true, Bool.true_or]

theorem over_of_check {t : Task} (h : Subscription.all.any (fun sub => t.statuses sub = .Ended) = true) :
    t.over = true := by
  simp only [Task.over, h, Bool.or_true]

/-- A task is changed, beside what says where the connector is. -/
theorem effect_set_task {s r : HoprBlockchainConnector} {a : Action} {i : Nat} {t : Task}
    (hhealth : r.health = s.health) (hattempt : r.attempt = s.attempt) (htasks : r.tasks = s.tasks)
    (h : Advances (s.tasks i) t) : Effect s a (r.set_task i t) := by
  refine .advanced hhealth ?_
  show Advances (s.tasks s.attempt) (Function.update r.tasks i t r.attempt)
  rw [hattempt, htasks]
  by_cases hi : s.attempt = i
  · rw [hi, Function.update_self]
    exact h
  · rw [Function.update_of_ne hi]
    exact .refl _

theorem advances_abort (t : Task) : Advances t {t with aborted := true} :=
  ⟨fun _ => over_of_aborted rfl, rfl, .inl rfl⟩

theorem advances_client {t : Task} {sub : Subscription} (h : t.statuses sub ≠ .Ended)
    (status : SubscriptionStatus) :
    Advances t {t with statuses := Function.update t.statuses sub status} := by
  refine ⟨?_, rfl, .inl rfl⟩
  intro hover
  simp only [Task.over, Bool.or_eq_true] at hover ⊢
  refine hover.imp_right fun hany => ?_
  obtain ⟨sub', hmem, hended⟩ := List.any_eq_true.mp hany
  have hended := of_decide_eq_true hended
  have hne : sub' ≠ sub := fun heq => h (heq ▸ hended)
  refine List.any_eq_true.mpr ⟨sub', hmem, decide_eq_true ?_⟩
  rw [Function.update_of_ne hne]
  exact hended

theorem advances_close (t : Task) (sub : Subscription) :
    Advances t {t with closed := Function.update t.closed sub true} :=
  ⟨fun _ => over_of_closed (Function.update_self sub true t.closed), rfl, .inl rfl⟩

theorem advances_check (t : Task) : Advances t t.check_health :=
  ⟨id, rfl, .inr ⟨_, rfl, rfl, over_of_check⟩⟩

theorem advances_report {t : Task} (h : t.over = true) : Advances t t.report_end :=
  ⟨id, rfl, .inr ⟨_, rfl, rfl, fun _ => h⟩⟩

theorem effect_of_step {s s' : HoprBlockchainConnector} {a : Action} (h : s.step a = some s') :
    Effect s a s' := by
  cases a with
  | connect =>
    simp only [step] at h
    split at h
    · cases h
    · split at h
      · cases h
        exact .advanced rfl (.refl _)
      · cases h
        exact .attempted rfl (Function.update_self _ _ _)
  | spawn =>
    simp only [step] at h
    split at h
    · cases h
      exact effect_set_task rfl rfl rfl ⟨id, rfl, .inl rfl⟩
    · cases h
  | fail error =>
    simp only [step] at h
    split at h
    · cases h
      exact .advanced rfl (.refl _)
    · cases h
      exact effect_set_task rfl rfl rfl (advances_abort _)
    · cases h
  | store_failure =>
    simp only [step] at h
    split at h
    · next error _ =>
      cases h
      exact .stored (by cases error <;> rfl) rfl rfl
    · cases h
  | ready =>
    simp only [step] at h
    split at h
    · cases h
      exact .advanced rfl (.refl _)
    · cases h
  | set_ready =>
    simp only [step] at h
    split at h
    · cases h
      by_cases hc : s.health = .Connecting
      · exact .established hc (if_pos hc) rfl
      · exact .advanced (if_neg hc) (.refl _)
    · cases h
  | cancel =>
    simp only [step] at h
    split at h
    · cases h
      exact .advanced rfl (.refl _)
    · cases h
      exact .advanced rfl (.refl _)
    · cases h
  | drop =>
    simp only [step] at h
    split at h
    · cases h
      exact .stored rfl rfl rfl
    · cases h
  | drop_handle =>
    simp only [step] at h
    split at h
    · cases h
      exact effect_set_task rfl rfl rfl (advances_abort _)
    · cases h
  | client i sub status =>
    simp only [step] at h
    split at h
    · cases h
    · next hended =>
      cases h
      exact effect_set_task rfl rfl rfl (advances_client hended status)
  | close i sub =>
    cases h
    exact effect_set_task rfl rfl rfl (advances_close _ sub)
  | subscribe i ok =>
    simp only [step] at h
    split at h
    · cases h
      exact effect_set_task rfl rfl rfl ⟨id, rfl, .inl rfl⟩
    · cases h
  | synced i =>
    simp only [step] at h
    split at h
    · cases h
      exact effect_set_task rfl rfl rfl ⟨id, rfl, .inl rfl⟩
    · cases h
  | check i =>
    simp only [step] at h
    split at h
    · cases h
      exact effect_set_task rfl rfl rfl (advances_check _)
    · cases h
  | report i sub =>
    simp only [step] at h
    split at h
    · next hreport =>
      cases h
      exact effect_set_task rfl rfl rfl (advances_report (over_of_closed (Bool.and_eq_true_iff.mp hreport).2))
    · cases h
  | finish i =>
    simp only [step] at h
    split at h
    · next hfinish =>
      cases h
      have hover : (s.tasks i).over = true := by
        cases Bool.or_eq_true_iff.mp (Bool.and_eq_true_iff.mp hfinish).2 with
        | inl haborted => exact over_of_aborted haborted
        | inr hclosed => exact over_of_closed (List.all_eq_true.mp hclosed .accounts (by decide))
      exact effect_set_task rfl rfl rfl ⟨id, rfl, .inr ⟨_, rfl, rfl, fun _ => hover⟩⟩
    · cases h
  | update i =>
    simp only [step] at h
    split at h
    · cases h
    · next u hu =>
      cases h
      refine .updated hu rfl ?_
      show Function.update s.tasks i _ s.attempt = _
      by_cases hi : s.attempt = i
      · rw [if_pos hi, ← hi, Function.update_self]
        rfl
      · rw [if_neg hi, Function.update_of_ne hi]
        rfl

/-- One access reads the cell, or ends the update: with the cell as it is, or with what is stored. -/
theorem update_cases (u : Update) (health : ChainHealthState) :
    u.step health = (health, some {u with current := some health}) ∨
    (∃ current, u.current = some current ∧
      chain_health_after_check current u.any_failing u.any_ended = none ∧ u.step health = (health, none)) ∨
    ∃ next, u.current = some health ∧
      chain_health_after_check health u.any_failing u.any_ended = some next ∧ u.step health = (next, none) := by
  unfold Update.step
  split
  · exact .inl rfl
  · next current hcurrent =>
    split
    · next hnone => exact .inr (.inl ⟨current, hcurrent, hnone, rfl⟩)
    · next next hnext =>
      split
      · next hsame => exact .inr (.inr ⟨next, hsame ▸ hcurrent, hsame ▸ hnext, rfl⟩)
      · exact .inl rfl

/-! ### What holds along a run -/

structure Attended (s : HoprBlockchainConnector) : Prop where
  ended : s.health = .SubscriptionEnded → s.latest.over = true
  /-- The latest attempt's task reports no end before it is over. -/
  told : ∀ u, s.latest.update = some u → u.any_ended = true → s.latest.over = true
  reported : s.latest.reported = true → s.health.watched = false
  /-- What its task has read is still unwatched if it was. -/
  seen : ∀ u current, s.latest.update = some u → u.current = some current → current.watched = false →
    s.health.watched = false

theorem attended_new : Attended new :=
  ⟨fun h => (nomatch h), fun _ h => (nomatch h), fun h => (nomatch h), fun _ _ h => (nomatch h)⟩

variable {s s' : HoprBlockchainConnector} {a : Action}

theorem latest_eq {i : Nat} (h : s.attempt = i) : s.latest = s.tasks i := h ▸ rfl

/-- A task of the latest attempt that advances keeps what is attended to. -/
theorem Attended.advanced (h : Attended s) (hhealth : s'.health = s.health)
    (hadvances : Advances s.latest s'.latest) : Attended s' := by
  constructor
  case ended => exact fun hended => hadvances.stays_over (h.ended (hhealth ▸ hended))
  case told =>
    intro u hu hended
    cases hadvances.update with
    | inl hsame => exact hadvances.stays_over (h.told u (hsame ▸ hu) hended)
    | inr hnew =>
      obtain ⟨u', hu', _, hover⟩ := hnew
      cases hu.symm.trans hu'
      exact hover hended
  case reported =>
    intro hreported
    rw [hhealth]
    exact h.reported (hadvances.reported ▸ hreported)
  case seen =>
    intro u current hu hcurrent hunwatched
    rw [hhealth]
    cases hadvances.update with
    | inl hsame => exact h.seen u current (hsame ▸ hu) hcurrent hunwatched
    | inr hnew =>
      obtain ⟨u', hu', hnone, _⟩ := hnew
      cases hu.symm.trans hu'
      cases hnone.symm.trans hcurrent

theorem not_watched_of_final {health : ChainHealthState} (h : health.final = true) : health.watched = false := by
  cases health <;> first | rfl | cases h

/-- The task of the latest attempt ends an update and leaves the cell as it is. -/
theorem Attended.done (h : Attended s) (hhealth : s'.health = s.health) {u : Update} {current : ChainHealthState}
    (hu : s.latest.update = some u) (hcurrent : u.current = some current)
    (hnone : chain_health_after_check current u.any_failing u.any_ended = none)
    (hlatest : s'.latest = {s.latest with update := none, reported := s.latest.reported || u.any_ended}) :
    Attended s' := by
  constructor
  case ended =>
    intro hended
    rw [hlatest]
    exact h.ended (hhealth ▸ hended)
  case told =>
    intro u' hu'
    rw [hlatest] at hu'
    cases hu'
  case reported =>
    intro hreported
    rw [hhealth]
    rw [hlatest] at hreported
    cases Bool.or_eq_true_iff.mp hreported with
    | inl hold => exact h.reported hold
    | inr hended =>
      refine h.seen u current hu hcurrent ?_
      rw [hended] at hnone
      cases hwatched : current.watched with
      | false => rfl
      | true => cases hnone.symm.trans (check_ended u.any_failing hwatched)
  case seen =>
    intro u' current' hu'
    rw [hlatest] at hu'
    cases hu'

/-- A task exchanges a watched health for another. -/
theorem Attended.exchanged (h : Attended s) (hC : ¬ Late s a) {i : Nat} {u : Update} {next : ChainHealthState}
    (ha : a = .update i) (hu : (s.tasks i).update = some u) (hcurrent : u.current = some s.health)
    (hnext : chain_health_after_check s.health u.any_failing u.any_ended = some next)
    (hhealth : s'.health = next) (hlatest : s'.latest = if s.attempt = i
      then {s.latest with update := none, reported := s.latest.reported || u.any_ended} else s.latest) :
    Attended s' := by
  have hwatched := watched_of_check hnext
  have hunreported : s.latest.reported = false := by
    cases hreported : s.latest.reported with
    | false => rfl
    | true => cases hwatched.symm.trans (h.reported hreported)
  have hover : u.any_ended = true → s.latest.over = true := by
    intro hended
    by_cases hi : s.attempt = i
    · exact h.told u (latest_eq hi ▸ hu) hended
    · cases hover : s.latest.over with
      | true => rfl
      | false => exact absurd ⟨i, u, ha, fun heq => hi heq.symm, hu, hended, hcurrent, hwatched, hover⟩ hC
  have hkept : s'.latest.over = s.latest.over := by
    rw [hlatest]
    split <;> rfl
  constructor
  case ended =>
    intro hended
    rw [hkept]
    cases check_cases hnext with
    | inl hend => exact hover hend.2
    | inr hother =>
      rw [hhealth] at hended
      rw [hended] at hother
      cases hother.1
  case told =>
    intro u' hu' hended
    rw [hkept]
    rw [hlatest] at hu'
    split at hu'
    · cases hu'
    · exact h.told u' hu' hended
  case reported =>
    intro hreported
    rw [hlatest] at hreported
    split at hreported
    · have hended : u.any_ended = true := by simpa [hunreported] using hreported
      cases check_cases hnext with
      | inl hend => rw [hhealth, hend.1]; rfl
      | inr hother => cases hended.symm.trans hother.2.1
    · cases hreported.symm.trans hunreported
  case seen =>
    intro u' current hu' hcurrent' hunwatched
    rw [hlatest] at hu'
    split at hu'
    · cases hu'
    · cases hwatched.symm.trans (h.seen u' current hu' hcurrent' hunwatched)

theorem attended_step (hC : ¬ Late s a) (h : Attended s) (hstep : s.step a = some s') : Attended s' := by
  cases effect_of_step hstep with
  | attempted hhealth hlatest =>
    constructor
    case ended => exact fun hended => nomatch hhealth.symm.trans hended
    case told => exact fun u hu => nomatch (hlatest ▸ hu : ({} : Task).update = some u)
    case reported => exact fun hreported => nomatch (hlatest ▸ hreported : ({} : Task).reported = true)
    case seen => exact fun u _ hu => nomatch (hlatest ▸ hu : ({} : Task).update = some u)
  | advanced hhealth hadvances => exact h.advanced hhealth hadvances
  | stored hfinal hlatest =>
    constructor
    case ended =>
      intro hended
      rw [hended] at hfinal
      cases hfinal
    case told => exact hlatest ▸ h.told
    case reported => exact fun _ => not_watched_of_final hfinal
    case seen => exact fun _ _ _ _ _ => not_watched_of_final hfinal
  | established hconnecting hready hlatest =>
    have hwatched : s.health.watched = true := hconnecting ▸ rfl
    constructor
    case ended => exact fun hended => nomatch hready.symm.trans hended
    case told => exact hlatest ▸ h.told
    case reported => exact fun hreported => nomatch hwatched.symm.trans (h.reported (hlatest ▸ hreported))
    case seen =>
      intro u current hu hcurrent hunwatched
      cases hwatched.symm.trans (h.seen u current (hlatest ▸ hu) hcurrent hunwatched)
  | @updated i u _ hu hhealth hlatest =>
    cases update_cases u s.health with
    | inl hread =>
      rw [hread] at hhealth hlatest
      by_cases hi : s.attempt = i
      · rw [if_pos hi] at hlatest
        constructor
        case ended =>
          intro hended
          rw [hlatest]
          exact h.ended (hhealth.symm.trans hended)
        case told =>
          intro u' hu' hended
          rw [hlatest] at hu' ⊢
          cases hu'
          exact h.told u (latest_eq hi ▸ hu) hended
        case reported =>
          intro hreported
          rw [hhealth]
          exact h.reported (by simpa [hlatest] using hreported)
        case seen =>
          intro u' current hu' hcurrent hunwatched
          rw [hlatest] at hu'
          cases hu'
          cases hcurrent
          rw [hhealth]
          exact hunwatched
      · rw [if_neg hi] at hlatest
        exact h.advanced hhealth (hlatest ▸ .refl _)
    | inr hend =>
      cases hend with
      | inl hdone =>
        obtain ⟨current, hcurrent, hnone, heq⟩ := hdone
        rw [heq] at hhealth hlatest
        by_cases hi : s.attempt = i
        · rw [if_pos hi] at hlatest
          exact h.done hhealth (latest_eq hi ▸ hu) hcurrent hnone (by simpa using hlatest)
        · rw [if_neg hi] at hlatest
          exact h.advanced hhealth (hlatest ▸ .refl _)
      | inr hexchange =>
        obtain ⟨next, hcurrent, hnext, heq⟩ := hexchange
        rw [heq] at hhealth hlatest
        exact h.exchanged hC rfl hu hcurrent hnext hhealth (by simpa using hlatest)

/-- Where the health is watched nothing has been reported. -/
theorem Attended.unreported (h : Attended s) (hwatched : s.health.watched = true) : s.latest.reported = false := by
  cases hreported : s.latest.reported with
  | false => rfl
  | true => cases hwatched.symm.trans (h.reported hreported)

theorem sound_step (hC : ¬ Late s a) (h : Attended s) (hstep : s.step a = some s') : Sound s a s' := by
  have hafter := attended_step hC h hstep
  refine ⟨hafter.ended, ?_, ?_⟩
  · intro hne hready
    have hunreported : s.latest.reported = false := by
      apply h.unreported
      cases effect_of_step hstep with
      | attempted hhealth => cases hhealth.symm.trans hready
      | advanced hhealth => exact absurd (hhealth.symm.trans hready) hne
      | stored hfinal =>
        rw [hready] at hfinal
        cases hfinal
      | established hconnecting => rw [hconnecting]; rfl
      | @updated i u _ _ hhealth =>
        cases update_cases u s.health with
        | inl hread => exact absurd (by rw [← hready, hhealth, hread]) hne
        | inr hend =>
          cases hend with
          | inl hdone =>
            obtain ⟨_, _, _, heq⟩ := hdone
            exact absurd (by rw [← hready, hhealth, heq]) hne
          | inr hexchange =>
            obtain ⟨next, _, hnext, _⟩ := hexchange
            exact watched_of_check hnext
    exact ⟨hunreported, hafter.unreported (hready ▸ rfl)⟩
  · intro htask hfinal
    cases effect_of_step hstep with
    | attempted => cases htask
    | advanced hhealth => exact hhealth
    | stored _ _ hother => cases htask.symm.trans hother
    | established => cases htask
    | @updated i u _ _ hhealth =>
      cases update_cases u s.health with
      | inl hread => rw [hhealth, hread]
      | inr hend =>
        cases hend with
        | inl hdone =>
          obtain ⟨_, _, _, heq⟩ := hdone
          rw [hhealth, heq]
        | inr hexchange =>
          obtain ⟨next, _, hnext, _⟩ := hexchange
          cases (watched_of_check hnext).symm.trans (not_watched_of_final hfinal)

theorem latest_set_task {i : Nat} (t : Task) (h : s.attempt ≠ i) : (s.set_task i t).latest = s.latest := by
  show Function.update s.tasks i t s.attempt = s.tasks s.attempt
  rw [Function.update_of_ne h]

/-- A late step is taken, and is not sound. -/
theorem Late.not_sound (h : Late s a) : ∃ s', s.step a = some s' ∧ ¬ Sound s a s' := by
  obtain ⟨i, u, rfl, hi, hu, hended, hcurrent, hwatched, hover⟩ := h
  have hnext := check_ended u.any_failing hwatched
  rw [← hended] at hnext
  have hstep : ∃ t, s.step (.update i) = some {s.set_task i t with health := (u.step s.health).1} :=
    ⟨_, by simp only [step, hu]; rfl⟩
  obtain ⟨t, hstep⟩ := hstep
  refine ⟨_, hstep, ?_⟩
  intro hsound
  have hhealth : (u.step s.health).1 = .SubscriptionEnded := by
    simp only [Update.step, hcurrent, hnext, if_true]
  have hlatest : (s.set_task i t).latest.over = true := hsound.ended hhealth
  rw [latest_set_task _ hi.symm, hover] at hlatest
  cases hlatest

/-- Every step of a run is sound if and only if none is late. -/
theorem sound_iff (as : List Action) :
    machine.Meets (fun s a => ∀ s', machine.step s a = some s' → Sound s a s') new as ↔
      machine.Meets (fun s a => ¬ Late s a) new as := by
  constructor
  · intro hsound
    refine hsound.mono ?_
    intro s a hall hlate
    obtain ⟨s', hstep, hnot⟩ := hlate.not_sound
    exact hnot (hall s' hstep)
  · intro htimely
    refine htimely.of_invariant (I := Attended) ?_ ?_ attended_new
    · exact fun s a s' hC h => attended_step hC h
    · exact fun s a hC h s' => sound_step hC h

/-- The first attempt times out, and its task ends during the second. -/
theorem late_update : ∃ s, machine.run new [.connect, .spawn, .subscribe 1 true, .fail .ConnectionTimeout,
    .finish 1, .store_failure, .connect, .update 1, .update 1] = some s ∧
    s.health = .SubscriptionEnded ∧ s.attempt = 2 ∧ s.latest.over = false := by
  exact ⟨_, rfl, rfl, rfl, rfl⟩

end Hopr.Connector.LatestAttempt
