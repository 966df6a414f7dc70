import Hopr.Connector.NonceOrder

/-! A local nonce is lowered only for a gap that was seen to last.

`sync_nonce` is called for any signers, each time later than before, while local
nonces are incremented and the cache of the gaps forgets what it likes. What the
syncs saw is kept. The entry of a signer in the cache is then the time of a sync
since which all syncs of the signer saw the same pending count and the local nonce
ahead of it (`Seen`), which is what a local nonce is lowered for
(`lowered_for_gap`). -/
namespace Hopr.Connector.NonceGap
open Library

/-! ### One sync -/

section Sync
variable {now : Instant} {local_nonce pending : UInt64} {gaps : Gaps} {signer : Address} {tolerance : Duration}

/-- Since when the gap is measured: from the entry of the same count, or else from now on. -/
def measured_since (now : Instant) (gaps : Gaps) (signer : Address) (pending : UInt64) : Instant :=
  match gaps signer with
  | some (gap_pending, since) => if gap_pending = pending then since else now
  | none => now

theorem measured_since_cases (now : Instant) (gaps : Gaps) (signer : Address) (pending : UInt64) :
    measured_since now gaps signer pending = now ∨
      gaps signer = some (pending, measured_since now gaps signer pending) := by
  unfold measured_since
  cases hgap : gaps signer with
  | none => exact .inl rfl
  | some gap =>
    dsimp only
    split
    · next hsame => exact .inr (by rw [← hsame])
    · exact .inl rfl

theorem sync_behind (h : local_nonce ≤ pending) :
    sync_nonce now local_nonce gaps signer pending tolerance =
      ⟨pending, pending, Function.update gaps signer none, false⟩ := by
  have hmax : max local_nonce pending = pending := if_pos h
  unfold sync_nonce nonce_gap_age
  rw [if_pos h]
  simp [hmax]

theorem gap_age_ahead (h : pending < local_nonce) :
    let since := measured_since now gaps signer pending
    nonce_gap_age now gaps signer local_nonce pending =
      (some (now - since), Function.update gaps signer (some (pending, since))) := by
  have hahead : ¬ local_nonce ≤ pending := UInt64.not_le.mpr h
  unfold nonce_gap_age measured_since
  rw [if_neg hahead]
  cases hgap : gaps signer with
  | none => simp
  | some gap =>
    obtain ⟨gap_pending, since⟩ := gap
    by_cases hsame : gap_pending = pending
    · have hkept : Function.update gaps signer (some (pending, since)) = gaps := by
        rw [← hsame, ← hgap]
        exact Function.update_eq_self signer gaps
      simp [hsame, hkept]
    · simp [hsame]

theorem sync_ahead (h : pending < local_nonce) :
    let since := measured_since now gaps signer pending
    sync_nonce now local_nonce gaps signer pending tolerance = if tolerance ≤ now - since
      then ⟨pending, pending, Function.update gaps signer none, true⟩
      else ⟨local_nonce, local_nonce, Function.update gaps signer (some (pending, since)), false⟩ := by
  intro since
  have hage : nonce_gap_age now gaps signer local_nonce pending =
      (some (now - since), Function.update gaps signer (some (pending, since))) := gap_age_ahead h
  have hmax : max local_nonce pending = local_nonce := NonceOrder.max_eq_left (UInt64.le_of_lt h)
  have hself : max pending pending = pending := NonceOrder.max_eq_left (UInt64.le_refl pending)
  unfold sync_nonce
  rw [hage]
  by_cases hlong : tolerance ≤ now - since
  · simp [hlong, hself]
  · simp [hlong, hmax]

end Sync

/-! ### Runs -/

/-- What a sync saw. -/
structure Sight where
  signer : Address
  pending : UInt64
  local_nonce : UInt64
  now : Instant

structure State where
  nonces : Address → UInt64
  gaps : Gaps
  clock : Instant
  /-- The latest first. -/
  sights : List Sight

inductive Action where
  | sync_nonce (signer : Address) (pending : UInt64) (tolerance : Duration) (now : Instant)
  /-- A nonce was consumed. -/
  | increment (signer : Address)
  /-- The cache of the gaps forgets an entry. -/
  | evict (signer : Address)

def start (nonces : Address → UInt64) : State := ⟨nonces, fun _ => none, 0, []⟩

/-- The clock does not go back. -/
def step (s : State) : Action → Option State
  | .sync_nonce signer pending tolerance now =>
    if now < s.clock then none
    else
      let synced := Connector.sync_nonce now (s.nonces signer) s.gaps signer pending tolerance
      some
        { nonces := Function.update s.nonces signer synced.local_nonce
          gaps := synced.gaps
          clock := now
          sights := ⟨signer, pending, s.nonces signer, now⟩ :: s.sights }
  | .increment signer => some {s with nonces := Function.update s.nonces signer (s.nonces signer + 1)}
  | .evict signer => some {s with gaps := Function.update s.gaps signer none}

def machine : Machine State Action := ⟨step⟩

/-- The sync saw the count, and the local nonce ahead of it. -/
def Sight.Ahead (x : Sight) (pending : UInt64) : Prop := x.pending = pending ∧ pending < x.local_nonce

/-- All syncs of the signer saw the gap, from one at that time on. -/
def Seen (signer : Address) (pending : UInt64) (since : Instant) (sights : List Sight) : Prop :=
  ∃ later first before, sights = later ++ first :: before ∧ first.signer = signer ∧ first.now = since ∧
    ∀ x ∈ later ++ [first], x.signer = signer → x.Ahead pending

theorem Seen.cons {signer : Address} {pending : UInt64} {since : Instant} {sights : List Sight}
    (h : Seen signer pending since sights) {x : Sight} (hx : x.signer = signer → x.Ahead pending) :
    Seen signer pending since (x :: sights) := by
  obtain ⟨later, first, before, rfl, hfirst, hsince, hall⟩ := h
  exact ⟨x :: later, first, before, rfl, hfirst, hsince, List.forall_mem_cons.mpr ⟨hx, hall⟩⟩

theorem seen_now {x : Sight} (hx : x.Ahead x.pending) (sights : List Sight) :
    Seen x.signer x.pending x.now (x :: sights) :=
  ⟨[], x, sights, rfl, rfl, rfl, fun _ hy _ => List.mem_singleton.mp hy ▸ hx⟩

/-- Each entry of the cache is of a gap that was seen since its time. -/
structure Tracked (s : State) : Prop where
  seen : ∀ {signer pending since}, s.gaps signer = some (pending, since) → Seen signer pending since s.sights
  past : ∀ {signer pending since}, s.gaps signer = some (pending, since) → since ≤ s.clock

theorem tracked_start (nonces : Address → UInt64) : Tracked (start nonces) := ⟨nofun, nofun⟩

/-- Where the measurement starts, the gap was seen since. -/
theorem Tracked.measured {s : State} (h : Tracked s) {signer : Address} {pending : UInt64} {now : Instant}
    (hnow : s.clock ≤ now) (hahead : pending < s.nonces signer) :
    let since := measured_since now s.gaps signer pending
    since ≤ now ∧ Seen signer pending since (⟨signer, pending, s.nonces signer, now⟩ :: s.sights) := by
  have hfresh : Seen signer pending now (⟨signer, pending, s.nonces signer, now⟩ :: s.sights) :=
    seen_now (x := ⟨signer, pending, s.nonces signer, now⟩) ⟨rfl, hahead⟩ s.sights
  unfold measured_since
  cases hgap : s.gaps signer with
  | none => exact ⟨Nat.le_refl now, hfresh⟩
  | some gap =>
    obtain ⟨gap_pending, since⟩ := gap
    dsimp only
    split
    · next hsame =>
      subst hsame
      exact ⟨Nat.le_trans (h.past hgap) hnow, (h.seen hgap).cons fun _ => ⟨rfl, hahead⟩⟩
    · exact ⟨Nat.le_refl now, hfresh⟩

/-- What a sync does to the signer and to the others. -/
structure Synced (s : State) (signer : Address) (pending : UInt64) (tolerance : Duration) (now : Instant)
    (nonce : UInt64) (s' : State) : Prop where
  nonce_eq : s'.nonces signer = nonce
  others : ∀ a, a ≠ signer → s'.nonces a = s.nonces a ∧ s'.gaps a = s.gaps a
  behind : s.nonces signer ≤ pending → nonce = pending ∧ s'.gaps signer = none
  ahead : pending < s.nonces signer →
    nonce = pending ∧ s'.gaps signer = none ∧ tolerance ≤ now - measured_since now s.gaps signer pending ∨
      nonce = s.nonces signer ∧ s'.gaps signer = some (pending, measured_since now s.gaps signer pending)

theorem synced_of_step {s s' : State} {signer : Address} {pending : UInt64} {tolerance : Duration} {now : Instant}
    (h : step s (.sync_nonce signer pending tolerance now) = some s') :
    s.clock ≤ now ∧ s'.clock = now ∧ s'.sights = ⟨signer, pending, s.nonces signer, now⟩ :: s.sights ∧
      Synced s signer pending tolerance now
        (Connector.sync_nonce now (s.nonces signer) s.gaps signer pending tolerance).nonce s' := by
  unfold step at h
  dsimp only at h
  split at h
  · cases h
  · next hclock =>
    cases h
    refine ⟨Nat.le_of_not_lt hclock, rfl, rfl, ?_⟩
    constructor
    case nonce_eq => exact Function.update_self ..
    case others =>
      intro a ha
      refine ⟨Function.update_of_ne ha .., ?_⟩
      by_cases hle : s.nonces signer ≤ pending
      · rw [sync_behind hle]
        exact Function.update_of_ne ha ..
      · rw [sync_ahead (UInt64.not_le.mp hle)]
        split <;> exact Function.update_of_ne ha ..
    case behind =>
      intro hle
      rw [sync_behind hle]
      exact ⟨rfl, Function.update_self ..⟩
    case ahead =>
      intro hlt
      rw [sync_ahead hlt]
      split
      · next hlong => exact .inl ⟨rfl, Function.update_self .., hlong⟩
      · exact .inr ⟨rfl, Function.update_self ..⟩

theorem tracked_step {s s' : State} {a : Action} (h : Tracked s) (hstep : step s a = some s') : Tracked s' := by
  cases a with
  | increment signer =>
    cases hstep
    exact ⟨h.seen, h.past⟩
  | evict signer =>
    cases hstep
    have hkept : ∀ {a gap}, Function.update s.gaps signer none a = some gap → s.gaps a = some gap := by
      intro a gap hgap
      by_cases ha : a = signer
      · rw [ha, Function.update_self] at hgap
        cases hgap
      · rwa [Function.update_of_ne ha] at hgap
    exact ⟨fun hgap => h.seen (hkept hgap), fun hgap => h.past (hkept hgap)⟩
  | sync_nonce signer pending tolerance now =>
    obtain ⟨hnow, hclock, hsights, hsynced⟩ := synced_of_step hstep
    have hentry : ∀ {a p since}, s'.gaps a = some (p, since) →
        since ≤ now ∧ Seen a p since (⟨signer, pending, s.nonces signer, now⟩ :: s.sights) := by
      intro a p since hgap
      by_cases ha : a = signer
      · subst ha
        by_cases hle : s.nonces a ≤ pending
        · cases (hsynced.behind hle).2.symm.trans hgap
        · have hlt := UInt64.not_le.mp hle
          cases hsynced.ahead hlt with
          | inl hlowered => cases hlowered.2.1.symm.trans hgap
          | inr hkept =>
            cases hkept.2.symm.trans hgap
            exact h.measured hnow hlt
      · rw [(hsynced.others a ha).2] at hgap
        exact ⟨Nat.le_trans (h.past hgap) hnow, (h.seen hgap).cons fun hsame => absurd hsame.symm ha⟩
    constructor
    · intro a p since hgap
      rw [hsights]
      exact (hentry hgap).2
    · intro a p since hgap
      rw [hclock]
      exact (hentry hgap).1

/-- **A sync lowers a local nonce only for a gap that all syncs of the signer saw for the tolerance, and to the count
that they saw.** -/
theorem lowered_for_gap (nonces : Address → UInt64) {actions : List Action} {s : State}
    (hrun : machine.run (start nonces) actions = some s) {signer : Address} {pending : UInt64} {tolerance : Duration}
    {now : Instant} {s' : State} (hstep : machine.step s (.sync_nonce signer pending tolerance now) = some s') :
    let nonce := (Connector.sync_nonce now (s.nonces signer) s.gaps signer pending tolerance).nonce
    (s'.nonces signer < s.nonces signer → s'.nonces signer = pending ∧
      ∃ since, since + tolerance ≤ now ∧ Seen signer pending since s'.sights) ∧
    (s.nonces signer ≤ pending → s'.gaps signer = none) ∧
    (∀ p since, s'.gaps signer = some (p, since) →
      p = pending ∧ (since = now ∨ s.gaps signer = some (pending, since))) ∧
    (∀ a p since, s'.gaps a = some (p, since) → Seen a p since s'.sights) ∧
    (∀ a, a ≠ signer → s'.nonces a = s.nonces a ∧ s'.gaps a = s.gaps a) ∧
    s'.nonces signer = nonce ∧
    nonce = max (if s'.nonces signer < s.nonces signer then pending else s.nonces signer) pending := by
  intro nonce
  have htracked : Tracked s := machine.run_invariant_of_step (fun _ _ _ => tracked_step) hrun (tracked_start nonces)
  have hsync : step s (.sync_nonce signer pending tolerance now) = some s' := hstep
  have htracked' : Tracked s' := tracked_step htracked hsync
  obtain ⟨hnow, _, hsights, hsynced⟩ := synced_of_step hsync
  change Synced s signer pending tolerance now nonce s' at hsynced
  have hnonce : s'.nonces signer = nonce := hsynced.nonce_eq
  have hmax : ∀ {a b : UInt64}, b ≤ a → max a b = a := NonceOrder.max_eq_left
  by_cases hle : s.nonces signer ≤ pending
  · obtain ⟨hpending, hgap⟩ := hsynced.behind hle
    have hraised : ¬ s'.nonces signer < s.nonces signer := by
      rw [hnonce, hpending]
      exact UInt64.not_lt.mpr hle
    refine ⟨fun hlt => absurd hlt hraised, fun _ => hgap, ?_, fun _ _ _ => htracked'.seen, hsynced.others, hnonce, ?_⟩
    · intro p since hsome
      cases hgap.symm.trans hsome
    · rw [if_neg hraised, hpending]
      exact (if_pos hle).symm
  · have hlt := UInt64.not_le.mp hle
    obtain ⟨hpast, hseen⟩ := htracked.measured hnow hlt
    rw [← hsights] at hseen
    cases hsynced.ahead hlt with
    | inl hlowered =>
      obtain ⟨hpending, hgap, hlong⟩ := hlowered
      have hless : s'.nonces signer < s.nonces signer := by
        rw [hnonce, hpending]
        exact hlt
      refine ⟨fun _ => ⟨hnonce.trans hpending, _, ?_, hseen⟩, fun hbehind => absurd hbehind hle, ?_,
        fun _ _ _ => htracked'.seen, hsynced.others, hnonce, ?_⟩
      · exact Nat.add_le_of_le_sub' hpast hlong
      · intro p since hsome
        cases hgap.symm.trans hsome
      · rw [if_pos hless, hpending]
        exact (hmax (UInt64.le_refl pending)).symm
    | inr hkept =>
      obtain ⟨hlocal, hgap⟩ := hkept
      have hsame : ¬ s'.nonces signer < s.nonces signer := by
        rw [hnonce, hlocal]
        exact UInt64.lt_irrefl _
      refine ⟨fun hless => absurd hless hsame, fun hbehind => absurd hbehind hle, ?_, fun _ _ _ => htracked'.seen,
        hsynced.others, hnonce, ?_⟩
      · intro p since hsome
        cases hgap.symm.trans hsome
        exact ⟨rfl, measured_since_cases now s.gaps signer pending⟩
      · rw [if_neg hsame, hlocal]
        exact (hmax (UInt64.le_of_lt hlt)).symm

/-- Nonce eight is given up for five when the count stayed at five for the tolerance, whatever another signer saw. -/
theorem lowered_for_gap_after_ten : ∃ s s',
    machine.run (start fun _ => 8) [.sync_nonce ⟨[1]⟩ 5 10 100, .sync_nonce ⟨[2]⟩ 9 10 104] = some s ∧
      machine.step s (.sync_nonce ⟨[1]⟩ 5 10 110) = some s' ∧ s'.nonces ⟨[1]⟩ = 5 ∧
      ∃ since, since + 10 ≤ 110 ∧ Seen ⟨[1]⟩ 5 since s'.sights := by
  have hlowered := @lowered_for_gap (fun _ => 8) [.sync_nonce ⟨[1]⟩ 5 10 100, .sync_nonce ⟨[2]⟩ 9 10 104] _ rfl
    ⟨[1]⟩ 5 10 110 _ rfl
  exact ⟨_, _, rfl, rfl, hlowered.1 (by decide)⟩

end Hopr.Connector.NonceGap
