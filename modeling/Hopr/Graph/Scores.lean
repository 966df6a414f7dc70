import Mathlib.Tactic.NormNum
import Hopr.Graph.Weight
import Hopr.Library.Share

/-! What the observations of an edge say of it.

Acknowledgements are forgotten: when an edge stops acknowledging, its rate falls
at least as fast as the counts are decayed, whatever it had acknowledged before
(`ack_memory_bounded`). A score is a rate of successes scaled by what the latency
is worth, of either stream or of both in the mean; it is missing only where nothing
is known, and no failure raises it (`scores_sound`). -/
namespace Hopr.Graph.Weight
open Library ExponentialMovingAverage WindowedRatio

/-! ### Acknowledgements -/

section Acknowledgements
variable {A R : Nat → Type} {F : Type}

/-- The packets and acknowledgements that are reported, in order. -/
def reports (measurements : List (Clock × EdgeWeightType)) : List (UInt64 × UInt64) :=
  measurements.filterMap fun
    | (_, .ImmediateProtocolConformance num_packets num_acks) => some (num_packets, num_acks)
    | _ => none

variable [Field F]

/-- The numbers of a report. -/
def counts (report : UInt64 × UInt64) : F × F := (report.1.toNat, report.2.toNat)

variable [LinearOrder F]

theorem ack_rate_le [IsStrictOrderedRing F] {m : TransportImmediates A F} {bound : F} (hbound : 0 ≤ bound)
    (hsent : 1 ≤ m.messages_sent) (hacked : m.acks_received ≤ m.messages_sent * bound) :
    ∃ rate, m.ack_rate = some rate ∧ 0 ≤ rate ∧ rate ≤ bound := by
  refine ⟨clamp 0 1 (m.acks_received / m.messages_sent), if_pos hsent, le_max_left .., ?_⟩
  have hratio : m.acks_received / m.messages_sent ≤ bound :=
    (div_le_iff₀' (zero_lt_one.trans_le hsent)).mpr hacked
  exact max_le hbound ((min_le_left ..).trans hratio)

variable [ExponentialMovingAverage A F]

theorem ack_rate_eq [IsStrictOrderedRing F] (w : Observations A R F) : w.ack_rate = w.immediate.ack_rate := by
  unfold Observations.ack_rate Observations.immediate
  cases w.immediate_probe with
  | some imm => rfl
  | none =>
    have hnone : ¬ (1 : F) ≤ 0 := not_le.mpr one_pos
    exact (if_neg hnone).symm

variable [WindowedRatio R F] [Powf F]

/-- Only a report of acknowledgements changes their counts. -/
theorem counts_records (w : Observations A R F) (measurements : List (Clock × EdgeWeightType)) :
    (w.records measurements).immediate.messages_sent =
        decayed ACK_DECAY w.immediate.messages_sent (((reports measurements).map counts).map Prod.fst) ∧
      (w.records measurements).immediate.acks_received =
        decayed ACK_DECAY w.immediate.acks_received (((reports measurements).map counts).map Prod.snd) := by
  induction measurements generalizing w with
  | nil => exact ⟨rfl, rfl⟩
  | cons x rest ih =>
    obtain ⟨clock, measurement⟩ := x
    have hrest := ih (w.record clock measurement)
    cases measurement with
    | Immediate | Intermediate | Balance | Connected | SurbRoundTrips => exact hrest
    | ImmediateProtocolConformance num_packets num_acks => exact hrest

/-- **After k reports of nothing acknowledged the rate is at most that power of the decay**, whatever was
acknowledged before of at most that volume. -/
theorem ack_memory_bounded [IsStrictOrderedRing F] (volume : F) (hvolume : 1 ≤ volume)
    (history later : List (Clock × EdgeWeightType))
    (hhistory : ∀ x ∈ reports history, x.2 ≤ x.1 ∧ (x.1.toNat : F) ≤ volume)
    (hlater : ∀ x ∈ reports later, x.2 = 0 ∧ volume ≤ (x.1.toNat : F)) (hk : 1 ≤ (reports later).length) :
    ∃ rate, (((Observations.default : Observations A R F).records history).records later).ack_rate = some rate ∧
      0 ≤ rate ∧ rate ≤ (9 / 10) ^ (reports later).length := by
  have hdecay : (0 : F) ≤ ACK_DECAY := by norm_num [ACK_DECAY]
  have hone : ACK_DECAY ≤ (1 : F) := by norm_num [ACK_DECAY]
  have hpos : (0 : F) ≤ volume := zero_le_one.trans hvolume
  have hbefore : ∀ p ∈ (reports history).map (counts (F := F)), 0 ≤ p.2 ∧ p.2 ≤ p.1 ∧ p.1 ≤ volume := by
    refine List.forall_mem_map.mpr fun x hx => ⟨Nat.cast_nonneg _, ?_, (hhistory x hx).2⟩
    exact Nat.cast_le.mpr (UInt64.le_iff_toNat_le.mp (hhistory x hx).1)
  have hafter : ∀ p ∈ (reports later).map (counts (F := F)), p.2 = 0 ∧ volume ≤ p.1 := by
    refine List.forall_mem_map.mpr fun x hx => ⟨?_, (hlater x hx).2⟩
    show ((x.2.toNat : Nat) : F) = 0
    rw [(hlater x hx).1]
    exact Nat.cast_zero
  obtain ⟨hsent, hacked⟩ := counts_records (Observations.default : Observations A R F) history
  obtain ⟨hsent', hacked'⟩ := counts_records ((Observations.default : Observations A R F).records history) later
  have hshare := decayed_share hdecay hone hpos hbefore hafter
  rw [hsent] at hsent'
  rw [hacked] at hacked'
  have hvolume' : volume ≤ decayed ACK_DECAY (decayed ACK_DECAY 0 (((reports history).map counts).map Prod.fst))
      (((reports later).map counts).map Prod.fst) := by
    have hsum := decayed_nonneg hdecay (le_refl (0 : F)) (List.forall_mem_map.mpr fun p hp =>
      (hbefore p hp).1.trans (hbefore p hp).2.1)
    refine decayed_ge_last hdecay hsum hpos (List.forall_mem_map.mpr fun p hp => (hafter p hp).2) ?_
    rw [ne_eq, List.map_eq_nil_iff, List.map_eq_nil_iff]
    exact List.ne_nil_of_length_pos hk
  rw [ack_rate_eq]
  apply ack_rate_le
  · positivity
  · exact (hvolume.trans hvolume').trans_eq hsent'.symm
  · rw [hsent', hacked', ← List.length_map (f := counts (F := F))]
    exact hshare

end Acknowledgements

/-- Two reports after one of packets that were all acknowledged. -/
theorem ack_memory_bounded_twice : ∃ rate,
    (((Observations.default : Observations RunningMean CountedRatio ℚ).records
      [(⟨1, 1, 1⟩, .Connected true), (⟨2, 2, 2⟩, .ImmediateProtocolConformance 4 4)]).records
      [(⟨3, 3, 3⟩, .ImmediateProtocolConformance 5 0), (⟨4, 4, 4⟩, .Balance none),
        (⟨5, 5, 5⟩, .ImmediateProtocolConformance 6 0)]).ack_rate = some rate ∧ 0 ≤ rate ∧ rate ≤ (9 / 10) ^ 2 := by
  refine ack_memory_bounded 5 (by decide) _ _ (List.forall_mem_singleton.mpr ?_)
    (List.forall_mem_cons.mpr ⟨?_, List.forall_mem_singleton.mpr ?_⟩) (by decide)
  all_goals decide +kernel

/-! ### Rates and factors -/

section Rates
variable {F : Type} [Field F] [LinearOrder F] [IsStrictOrderedRing F]

theorem share_clamp (x : F) : Share (clamp 0 1 x) :=
  ⟨le_max_left .., max_le zero_le_one (min_le_right ..)⟩

theorem share_latency_score (latency : Nat) : Share (latency_score latency : F) := by
  unfold latency_score Share
  dsimp only
  split_ifs <;> norm_num

theorem share_floor : Share (NO_LATENCY_DATA_FLOOR : F) := by
  norm_num [NO_LATENCY_DATA_FLOOR, Share]

end Rates

/-! ### Links -/

section Links
variable {A : Nat → Type} {F : Type} [ExponentialMovingAverage A F] {m : TransportLinkMeasurement A}

theorem probe_rate_none : (m.average_probe_rate : Option F) = none ↔ ¬ 0 < m.samples := by
  unfold TransportLinkMeasurement.average_probe_rate
  split
  · next hpos => exact ⟨fun h => (nomatch h), fun hnone => absurd hpos hnone⟩
  · next hnone => exact ⟨fun _ => hnone, fun _ => rfl⟩

variable [Field F]

/-- Probes are counted until the counter is full. -/
theorem samples_record (measurement : Option Nat) (m : TransportLinkMeasurement A) :
    0 < (m.record measurement).samples := by
  have hpos : 0 < if m.samples = -1 then m.samples else m.samples + 1 := by
    split
    · next hfull =>
      rw [hfull]
      decide
    · next hroom =>
      exact UInt64.pos_iff_ne_zero.mpr fun hzero => hroom (by grind)
  cases measurement with
  | some latency => exact hpos
  | none => exact hpos

variable [LinearOrder F]

/-- The rate of successes of a stream of probes is a share, and zero before the first of them. -/
structure Rated (m : TransportLinkMeasurement A) : Prop where
  share : Share (get m.probe_success_rate : F)
  fresh : ¬ 0 < m.samples → get m.probe_success_rate = (0 : F)

theorem Rated.rate (h : Rated m) : ∀ rate ∈ (m.average_probe_rate : Option F), Share rate := by
  intro rate hrate
  unfold TransportLinkMeasurement.average_probe_rate at hrate
  split at hrate
  · cases hrate
    exact h.share
  · cases hrate

variable [IsStrictOrderedRing F]

/-- What the latency makes of a rate. -/
def latency_factor [FloorSemiring F] (m : TransportLinkMeasurement A) : F :=
  (m.average_latency.map latency_score).getD NO_LATENCY_DATA_FLOOR

theorem share_latency_factor [FloorSemiring F] (m : TransportLinkMeasurement A) : Share (latency_factor m : F) := by
  unfold latency_factor
  cases m.average_latency with
  | none => exact share_floor
  | some latency => exact share_latency_score latency

variable [LawfulExponentialMovingAverage A]

theorem rated_default : Rated (.default : TransportLinkMeasurement A) := by
  have hzero : get (ExponentialMovingAverage.default 5 : A 5) = (0 : F) := LawfulExponentialMovingAverage.get_default 5
  exact ⟨hzero ▸ ⟨le_refl 0, zero_le_one⟩, fun _ => hzero⟩

theorem Rated.record (h : Rated m) (measurement : Option Nat) : Rated (m.record measurement) := by
  refine ⟨?_, fun hnone => absurd (samples_record measurement m) hnone⟩
  have hupdate : ∀ x : F, Share x → Share (get (update x m.probe_success_rate)) := by
    intro x hx
    obtain ⟨part, hpos, hone, heq⟩ := LawfulExponentialMovingAverage.get_update x m.probe_success_rate
    rw [heq]
    exact Share.towards h.share hx ⟨hpos, hone⟩
  cases measurement with
  | some latency => exact hupdate 1 ⟨zero_le_one, le_refl 1⟩
  | none => exact hupdate 0 ⟨le_refl 0, zero_le_one⟩

/-- After a probe that failed the rate is not higher. -/
theorem Rated.failed (h : Rated m) : Worse (m.record none).average_probe_rate (m.average_probe_rate : Option F) := by
  obtain ⟨part, hpos, hone, heq⟩ := LawfulExponentialMovingAverage.get_update 0 m.probe_success_rate
  have hrate : (m.record none).average_probe_rate = some (get (update 0 m.probe_success_rate) : F) :=
    if_pos (samples_record none m)
  rw [hrate, heq]
  constructor
  · intro x hx
    have hbefore : get m.probe_success_rate = x := by
      unfold TransportLinkMeasurement.average_probe_rate at hx
      split at hx
      · exact Option.some.inj hx
      · cases hx
    refine ⟨_, rfl, ?_⟩
    rw [hbefore, zero_sub, mul_neg, ← sub_eq_add_neg]
    exact sub_le_self x (mul_nonneg hpos (hbefore ▸ h.share.1))
  · intro hnone y hy
    rw [probe_rate_none] at hnone
    cases hy
    rw [h.fresh hnone]
    ring

end Links

/-! ### Streams -/

section Streams
variable {A R : Nat → Type} {F : Type} [Field F] [LinearOrder F]

theorem share_delivery_rate [WindowedRatio R F] [Powf F] [IsStrictOrderedRing F] (m : TransportIntermediates A R F)
    (now : Nat) : ∀ rate ∈ m.surb_delivery_rate_at now, Share rate := by
  intro rate h
  unfold TransportIntermediates.surb_delivery_rate_at at h
  obtain ⟨full, _, h⟩ := Option.bind_eq_some_iff.mp h
  obtain ⟨peak, _, h⟩ := Option.bind_eq_some_iff.mp h
  obtain ⟨against_peak, hpeak, h⟩ := Option.bind_eq_some_iff.mp h
  have hshare : Share against_peak := by
    split at hpeak
    · cases hpeak
      exact share_clamp _
    · cases hpeak
  cases htrend : m.surb_trend_at now with
  | none =>
    rw [htrend] at h
    cases h
    exact hshare
  | some trend =>
    rw [htrend] at h
    cases h
    split
    · apply hshare.mul
      unfold TransportIntermediates.surb_trend_at at htrend
      obtain ⟨full, _, htrend⟩ := Option.bind_eq_some_iff.mp htrend
      obtain ⟨recent, _, htrend⟩ := Option.bind_eq_some_iff.mp htrend
      split at htrend
      · cases htrend
        exact share_clamp _
      · cases htrend
    · exact hshare

variable [ExponentialMovingAverage A F]

/-- Without a peak nothing is known of the delivery. -/
theorem delivery_rate_default [WindowedRatio R F] [Powf F] (created now : Nat) :
    (TransportIntermediates.default created : TransportIntermediates A R F).surb_delivery_rate_at now = none := by
  unfold TransportIntermediates.surb_delivery_rate_at
  exact Option.bind_fun_none _

variable [FloorSemiring F]

/-- What an intermediate latency makes of a rate. -/
def intermediate_factor (m : TransportIntermediates A R F) : F := (m.average_latency.map latency_score).getD 1

theorem intermediate_score_eq [WindowedRatio R F] [Powf F] (m : TransportIntermediates A R F) (now : Nat) :
    m.score now =
      ((m.surb_delivery_rate_at now).merge min m.link.average_probe_rate).map (· * intermediate_factor m) := by
  have hrate : m.average_probe_rate now = (m.surb_delivery_rate_at now).merge min m.link.average_probe_rate := by
    unfold TransportIntermediates.average_probe_rate
    cases m.surb_delivery_rate_at now <;> cases m.link.average_probe_rate <;> rfl
  unfold TransportIntermediates.score intermediate_factor
  rw [hrate]
  cases m.average_latency with
  | none => exact congrArg (Option.map · _) (funext fun rate => (mul_one rate).symm)
  | some latency => rfl

theorem immediate_score_eq (m : TransportImmediates A F) :
    m.score = m.link.average_probe_rate.map (· * latency_factor m.link) := rfl

variable [IsStrictOrderedRing F]

theorem share_intermediate_factor (m : TransportIntermediates A R F) : Share (intermediate_factor m) := by
  unfold intermediate_factor
  cases m.average_latency with
  | none => exact ⟨zero_le_one, le_refl 1⟩
  | some latency => exact share_latency_score latency

theorem share_immediate_score {m : TransportImmediates A F} (h : Rated m.link) : ∀ x ∈ m.score, Share x := by
  intro x hx
  rw [immediate_score_eq] at hx
  obtain ⟨rate, hrate, rfl⟩ := Option.map_eq_some_iff.mp hx
  exact (h.rate rate hrate).mul (share_latency_factor m.link)

variable [WindowedRatio R F]

theorem immediate_score_failed [LawfulExponentialMovingAverage A] {m : TransportImmediates A F} (h : Rated m.link) :
    Worse (m.record none).score m.score :=
  h.failed.map (fun _ _ hle => mul_le_mul_of_nonneg_right hle (share_latency_factor m.link).1) (zero_mul _)

variable [Powf F]

theorem share_intermediate_score {m : TransportIntermediates A R F} (h : Rated m.link) (now : Nat) :
    ∀ x ∈ m.score now, Share x := by
  intro x hx
  rw [intermediate_score_eq] at hx
  obtain ⟨rate, hrate, rfl⟩ := Option.map_eq_some_iff.mp hx
  have hshare := merging_min.merge (share_delivery_rate m now) h.rate
  exact (hshare rate hrate).mul (share_intermediate_factor m)

variable [LawfulExponentialMovingAverage A]

theorem intermediate_score_failed {m : TransportIntermediates A R F} (h : Rated m.link) (now : Nat) :
    Worse ((m.record none).score now) (m.score now) := by
  have hrate := merging_min.worse (Worse.refl _) h.failed (share_delivery_rate m now) h.rate
  rw [intermediate_score_eq, intermediate_score_eq]
  exact hrate.map (fun _ _ hle => mul_le_mul_of_nonneg_right hle (share_intermediate_factor m).1) (zero_mul _)

end Streams

/-! ### Scores -/

/-- The outcome of a probe. -/
def IsProbe (measurement : EdgeWeightType) : Prop :=
  ∃ result, measurement = .Immediate result ∨ measurement = .Intermediate result

/-- What is reported of a channel, a connection or acknowledgements. -/
def IsReport (measurement : EdgeWeightType) : Prop :=
  (∃ balance, measurement = .Balance balance) ∨ (∃ is_connected, measurement = .Connected is_connected) ∨
    ∃ num_packets num_acks, measurement = .ImmediateProtocolConformance num_packets num_acks

namespace Observations

section Scores
variable {A R : Nat → Type} {F : Type} [WindowedRatio R F]

theorem link_intermediate [ExponentialMovingAverage A F] (w : Observations A R F) (created created' : Nat) :
    (w.intermediate created).link = (w.intermediate created').link := by
  unfold intermediate
  cases w.intermediate_probe <;> rfl

variable [Field F] [ExponentialMovingAverage A F]

/-- A probe was counted of either stream. -/
def Probed (w : Observations A R F) : Prop := 0 < w.immediate.link.samples ∨ 0 < (w.intermediate 0).link.samples

variable [LinearOrder F]

/-- The rates of both streams are shares. -/
def Rated (w : Observations A R F) : Prop := Weight.Rated w.immediate.link ∧ Weight.Rated (w.intermediate 0).link

theorem rated_default [IsStrictOrderedRing F] [LawfulExponentialMovingAverage A] :
    (default : Observations A R F).Rated := ⟨Weight.rated_default, Weight.rated_default⟩

variable [Powf F]

def surb_delivery_rate (w : Observations A R F) (now : Nat) : Option F :=
  w.intermediate_probe.bind (·.surb_delivery_rate_at now)

/-- What becomes of the two links. -/
theorem links_record (clock : Clock) (measurement : EdgeWeightType) (w : Observations A R F) :
    (w.record clock measurement).immediate.link =
        (match measurement with
          | .Immediate result => w.immediate.link.record result
          | _ => w.immediate.link) ∧
      ((w.record clock measurement).intermediate 0).link =
        match measurement with
        | .Intermediate result => (w.intermediate 0).link.record result
        | _ => (w.intermediate 0).link := by
  have hlink := w.link_intermediate clock.created 0
  cases measurement with
  | Immediate | Connected | ImmediateProtocolConformance => exact ⟨rfl, rfl⟩
  | Balance => exact ⟨rfl, hlink⟩
  | Intermediate result => exact ⟨rfl, congrArg (TransportLinkMeasurement.record result) hlink⟩
  | SurbRoundTrips expected observed =>
    refine ⟨rfl, Eq.trans ?_ hlink⟩
    show ((w.intermediate clock.created).record_surb_round_trips_at expected observed clock.instant).link = _
    unfold TransportIntermediates.record_surb_round_trips_at
    dsimp only
    split <;> rfl

theorem probed_record (clock : Clock) (measurement : EdgeWeightType) (w : Observations A R F) :
    (w.record clock measurement).Probed ↔ w.Probed ∨ IsProbe measurement := by
  obtain ⟨himmediate, hintermediate⟩ := links_record clock measurement w
  unfold Probed
  rw [himmediate, hintermediate]
  have hother : (∀ result, measurement ≠ .Immediate result) → (∀ result, measurement ≠ .Intermediate result) →
      ¬ IsProbe measurement := by
    intro himm hint ⟨result, h⟩
    exact h.elim (himm result) (hint result)
  cases measurement with
  | Immediate result =>
    exact iff_of_true (.inl (samples_record result _)) (.inr ⟨result, .inl rfl⟩)
  | Intermediate result =>
    exact iff_of_true (.inr (samples_record result _)) (.inr ⟨result, .inr rfl⟩)
  | Balance | Connected | SurbRoundTrips | ImmediateProtocolConformance =>
    have hnone := hother (fun _ => nofun) (fun _ => nofun)
    exact (or_iff_left hnone).symm

theorem probed_records (w : Observations A R F) (measurements : List (Clock × EdgeWeightType)) :
    (w.records measurements).Probed ↔ w.Probed ∨ ∃ x ∈ measurements, IsProbe x.2 := by
  induction measurements generalizing w with
  | nil => simp [records]
  | cons x rest ih =>
    show ((w.record x.1 x.2).records rest).Probed ↔ _
    rw [ih, probed_record, List.exists_mem_cons_iff, or_assoc]

theorem Rated.record [IsStrictOrderedRing F] [LawfulExponentialMovingAverage A] {w : Observations A R F}
    (h : w.Rated) (clock : Clock) (measurement : EdgeWeightType) :
    (w.record clock measurement).Rated := by
  obtain ⟨himmediate, hintermediate⟩ := links_record clock measurement w
  unfold Rated
  rw [himmediate, hintermediate]
  cases measurement with
  | Immediate result => exact ⟨h.1.record result, h.2⟩
  | Intermediate result => exact ⟨h.1, h.2.record result⟩
  | Balance | Connected | SurbRoundTrips | ImmediateProtocolConformance => exact h

/-- A stream that is not there counts like one that was just made. -/
theorem score_eq [FloorSemiring F] (w : Observations A R F) (created now : Nat) :
    w.score now = w.immediate.score.merge (fun x y => (x + y) / 2) ((w.intermediate created).score now) := by
  have himmediate : w.immediate_probe.bind (·.score) = w.immediate.score := by
    unfold immediate
    cases w.immediate_probe with
    | none => rfl
    | some m => rfl
  have hintermediate : w.intermediate_probe.bind (·.score now) = (w.intermediate created).score now := by
    unfold intermediate
    cases w.intermediate_probe with
    | none =>
      show none = (TransportIntermediates.default created : TransportIntermediates A R F).score now
      rw [intermediate_score_eq, delivery_rate_default]
      rfl
    | some m => rfl
  unfold score
  rw [himmediate, hintermediate]
  cases w.immediate.score <;> cases (w.intermediate created).score now <;> rfl

theorem delivery_rate_eq (w : Observations A R F) (created now : Nat) :
    w.surb_delivery_rate now = (w.intermediate created).surb_delivery_rate_at now := by
  unfold surb_delivery_rate intermediate
  cases w.intermediate_probe with
  | none => exact (delivery_rate_default created now).symm
  | some m => rfl

theorem score_none [FloorSemiring F] (w : Observations A R F) (now : Nat) :
    w.score now = none ↔ ¬ w.Probed ∧ w.surb_delivery_rate now = none := by
  rw [score_eq w 0, Option.merge_eq_none_iff, immediate_score_eq, intermediate_score_eq, Option.map_eq_none_iff,
    Option.map_eq_none_iff, probe_rate_none, Option.merge_eq_none_iff, probe_rate_none, delivery_rate_eq w 0]
  unfold Probed
  tauto

/-- What is only reported does not matter to the score. -/
theorem score_report [FloorSemiring F] (w : Observations A R F) (clock : Clock) {report : EdgeWeightType}
    (h : IsReport report) (now : Nat) : (w.record clock report).score now = w.score now := by
  rw [score_eq _ clock.created, score_eq w clock.created]
  rcases h with ⟨balance, rfl⟩ | ⟨is_connected, rfl⟩ | ⟨num_packets, num_acks, rfl⟩ <;> rfl

variable [IsStrictOrderedRing F]

theorem rated_records [LawfulExponentialMovingAverage A] {w : Observations A R F} (h : w.Rated)
    (measurements : List (Clock × EdgeWeightType)) :
    (w.records measurements).Rated := by
  induction measurements generalizing w with
  | nil => exact h
  | cons x rest ih => exact ih (h.record x.1 x.2)

variable [FloorSemiring F]

theorem Rated.share_score {w : Observations A R F} (h : w.Rated) {now : Nat} {x : F} (hx : w.score now = some x) :
    Share x := by
  rw [score_eq w 0] at hx
  exact merging_mean.merge (share_immediate_score h.1) (share_intermediate_score h.2 now) x hx

variable [LawfulExponentialMovingAverage A]

/-- A failure does not raise the score. -/
theorem Rated.score_failed {w : Observations A R F} (h : w.Rated) (clock : Clock) (now : Nat) {failed : EdgeWeightType}
    (hfailed : failed = .Immediate none ∨ failed = .Intermediate none) :
    Worse ((w.record clock failed).score now) (w.score now) := by
  have hlink : Weight.Rated (w.intermediate clock.created).link := by
    rw [w.link_intermediate clock.created 0]
    exact h.2
  have hshare := share_immediate_score h.1
  have hshare' := share_intermediate_score hlink now
  rw [score_eq _ clock.created, score_eq w clock.created]
  rcases hfailed with rfl | rfl
  · exact merging_mean.worse (immediate_score_failed h.1) (.refl _) hshare hshare'
  · exact merging_mean.worse (.refl _) (intermediate_score_failed hlink now) hshare hshare'

end Scores

end Observations

section Scores
variable {A R : Nat → Type} {F : Type} [Field F] [LinearOrder F] [ExponentialMovingAverage A F] [WindowedRatio R F]

/-- **A score is missing only where no probe was counted and no delivery is known, it is a share otherwise, no
failure of a probe raises it, and what is only reported does not change it.** -/
theorem scores_sound [Powf F] [FloorSemiring F] [IsStrictOrderedRing F] [LawfulExponentialMovingAverage A]
    (measurements : List (Clock × EdgeWeightType)) (now : Nat) :
    let w := (Observations.default : Observations A R F).records measurements
    (w.score now = none ↔ (∀ x ∈ measurements, ¬ IsProbe x.2) ∧ w.surb_delivery_rate now = none) ∧
    (∀ x, w.score now = some x → 0 ≤ x ∧ x ≤ 1) ∧
    (∀ clock failed x, failed = .Immediate none ∨ failed = .Intermediate none → w.score now = some x →
      ∃ y, (w.record clock failed).score now = some y ∧ y ≤ x) ∧
    ∀ clock report, IsReport report → (w.record clock report).score now = w.score now := by
  intro w
  have hrated : w.Rated := Observations.rated_records Observations.rated_default measurements
  have hprobed : w.Probed ↔ ∃ x ∈ measurements, IsProbe x.2 := by
    rw [Observations.probed_records, or_iff_right]
    exact fun hprobed => hprobed.elim (lt_irrefl 0) (lt_irrefl 0)
  refine ⟨?_, fun x hx => hrated.share_score hx, ?_, fun clock report hreport => w.score_report clock hreport now⟩
  · rw [w.score_none now, hprobed]
    simp only [not_exists, not_and]
  · intro clock failed x hfailed hx
    exact (hrated.score_failed clock now hfailed).1 x hx

/-- A neighbor is near and the links behind it are slower; then a probe of these fails. -/
theorem scores_sound_failed : ∃ y,
    (((Observations.default : Observations RunningMean CountedRatio ℚ).records
      [(⟨1, 1, 1⟩, .Immediate (some 50_000_000)), (⟨2, 2, 2⟩, .Intermediate (some 100_000_000))]).record
      ⟨3, 3, 3⟩ (.Intermediate none)).score 4 = some y ∧ y ≤ 17 / 20 :=
  (scores_sound [(⟨1, 1, 1⟩, .Immediate (some 50_000_000)), (⟨2, 2, 2⟩, .Intermediate (some 100_000_000))] 4).2.2.1
    ⟨3, 3, 3⟩ (.Intermediate none) (17 / 20) (.inr rfl) (by decide +kernel)

end Scores

end Hopr.Graph.Weight
