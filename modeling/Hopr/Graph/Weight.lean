import Mathlib.Data.Rat.Floor
import Mathlib.Tactic.Positivity
import Hopr.Graph.Observations
import Hopr.Library.Decay

/-! The observations that an edge carries.

Of each of the two streams, probes of a neighbor and probes of the links behind it,
an average of the latencies and of the successes is kept, and beside them what
was reported of acknowledgements and of round trips.

Numbers are exact here: `F` is any ordered field, which needs to know of powers
only what `powf` gives. Averages and windows are the statistics library's. Durations
are in nanoseconds. -/
namespace Hopr.Graph.Weight

class Powf (F : Type) where
  powf : F → F → F

/-- `ExponentialMovingAverage<n>` -/
class ExponentialMovingAverage (A : Nat → Type) (F : outParam Type) where
  default : ∀ n, A n
  update : ∀ {n}, F → A n → A n
  get : ∀ {n}, A n → F

/-- `WindowedRatio<buckets>`, of what was observed to what was expected. -/
class WindowedRatio (R : Nat → Type) (F : outParam Type) where
  new : ∀ {buckets}, (bucket_width now : Nat) → R buckets
  record_expected : ∀ {buckets}, UInt64 → (now : Nat) → R buckets → R buckets
  record_observed : ∀ {buckets}, UInt64 → (now : Nat) → R buckets → R buckets
  value : ∀ {buckets}, R buckets → (now : Nat) → Option F
  recent_value : ∀ {buckets}, R buckets → (slices now : Nat) → Option F
  window : ∀ {buckets}, R buckets → Nat

/-- An average starts from zero, or with its first sample, and moves towards each sample by some part of
the way. -/
class LawfulExponentialMovingAverage (A : Nat → Type) {F : outParam Type} [Field F] [LinearOrder F]
    [ExponentialMovingAverage A F] : Prop where
  get_default : ∀ n, ExponentialMovingAverage.get (ExponentialMovingAverage.default n : A n) = 0
  get_update : ∀ {n} (x : F) (avg : A n), ∃ part, 0 ≤ part ∧ part ≤ 1 ∧
    ExponentialMovingAverage.get (ExponentialMovingAverage.update x avg) =
      ExponentialMovingAverage.get avg + part * (x - ExponentialMovingAverage.get avg)

open Powf ExponentialMovingAverage WindowedRatio

/-! ### Numbers -/

section Numbers
variable {F : Type} [Field F] [LinearOrder F]

def clamp (low high x : F) : F := max low (min x high)

def as_secs_f64 (duration : Nat) : F := duration / 1_000_000_000

/-- To the nearest nanosecond, or the even one of two. -/
def from_secs_f64 [FloorSemiring F] (secs : F) : Nat :=
  let nanos := secs * 1_000_000_000
  let whole := ⌊nanos⌋₊
  if nanos - whole < 1 / 2 then whole
  else if 1 / 2 < nanos - whole then whole + 1
  else if whole % 2 = 0 then whole else whole + 1

def NO_LATENCY_DATA_FLOOR : F := 5 / 100

def latency_score (latency : Nat) : F :=
  let millis := latency / 1_000_000
  if millis ≤ 75 then 1
  else if millis ≤ 125 then 7 / 10
  else if millis ≤ 200 then 3 / 10
  else 15 / 100

/-- The part of the acknowledgement counts that is retained at each report. -/
def ACK_DECAY : F := 9 / 10

def MIN_ACK_SAMPLE_VOLUME : F := 1

def SURB_BUCKET_WIDTH : Nat := 2_000_000_000

def SURB_BUCKETS : Nat := 12

def SURB_RECENT_SLICES : Nat := 2

def SURB_TREND_FLOOR : F := 5 / 10

end Numbers

/-! ### Probes of a link -/

structure TransportLinkMeasurement (A : Nat → Type) where
  /-- Of the probes that succeeded. -/
  latency_average : Option (A 3)
  probe_success_rate : A 5
  samples : UInt64

namespace TransportLinkMeasurement
variable {A : Nat → Type} {F : Type} [Field F] [LinearOrder F] [ExponentialMovingAverage A F]

def default : TransportLinkMeasurement A := ⟨none, ExponentialMovingAverage.default 5, 0⟩

def record (measurement : Option Nat) (m : TransportLinkMeasurement A) : TransportLinkMeasurement A :=
  -- Saturating.
  let samples := if m.samples = -1 then m.samples else m.samples + 1
  match measurement with
  | some latency =>
    let average := m.latency_average.getD (ExponentialMovingAverage.default 3)
    { latency_average := some (update (as_secs_f64 latency * 1000) average)
      probe_success_rate := update 1 m.probe_success_rate
      samples }
  | none => {m with probe_success_rate := update 0 m.probe_success_rate, samples}

def average_latency [FloorSemiring F] (m : TransportLinkMeasurement A) : Option Nat :=
  m.latency_average.map fun avg => from_secs_f64 (max (get avg) 0 / 1000)

def average_probe_rate (m : TransportLinkMeasurement A) : Option F :=
  if 0 < m.samples then some (get m.probe_success_rate) else none

def score [FloorSemiring F] (m : TransportLinkMeasurement A) : Option F :=
  m.average_probe_rate.map fun rate =>
    rate * (m.average_latency.map latency_score).getD NO_LATENCY_DATA_FLOOR

end TransportLinkMeasurement

/-! ### The two streams -/

structure TransportImmediates (A : Nat → Type) (F : Type) where
  link : TransportLinkMeasurement A
  is_connected : Option Bool
  /-- Decayed counts. -/
  messages_sent : F
  acks_received : F

namespace TransportImmediates
variable {A : Nat → Type} {F : Type} [Field F] [LinearOrder F] [ExponentialMovingAverage A F]

def default : TransportImmediates A F := ⟨.default, none, 0, 0⟩

def ack_rate (m : TransportImmediates A F) : Option F :=
  if MIN_ACK_SAMPLE_VOLUME ≤ m.messages_sent then some (clamp 0 1 (m.acks_received / m.messages_sent)) else none

def record (measurement : Option Nat) (m : TransportImmediates A F) : TransportImmediates A F :=
  {m with link := m.link.record measurement}

def average_latency [FloorSemiring F] (m : TransportImmediates A F) : Option Nat :=
  m.link.average_latency

def average_probe_rate (m : TransportImmediates A F) : Option F := m.link.average_probe_rate

def score [FloorSemiring F] (m : TransportImmediates A F) : Option F := m.link.score

end TransportImmediates

structure SurbPeak (F : Type) where
  value : F
  /-- `at`, the time when it was set. -/
  instant : Nat

structure TransportIntermediates (A R : Nat → Type) (F : Type) where
  link : TransportLinkMeasurement A
  balance : Option Nat
  surb : R SURB_BUCKETS
  surb_peak : Option (SurbPeak F)

namespace TransportIntermediates
variable {A R : Nat → Type} {F : Type} [Field F] [LinearOrder F] [ExponentialMovingAverage A F] [WindowedRatio R F]

/-- The window begins when the stream is made. -/
def default (now : Nat) : TransportIntermediates A R F :=
  ⟨.default, none, WindowedRatio.new SURB_BUCKET_WIDTH now, none⟩

def record (measurement : Option Nat) (m : TransportIntermediates A R F) : TransportIntermediates A R F :=
  {m with link := m.link.record measurement}

def surb_trend_at (m : TransportIntermediates A R F) (now : Nat) : Option F := do
  let full ← value m.surb now
  let recent ← recent_value m.surb SURB_RECENT_SLICES now
  if 0 < full then some (clamp 0 1 (recent / full)) else none

variable [Powf F]

/-- The peak has half of its value left after a window. -/
def peak_at (m : TransportIntermediates A R F) (now : Nat) : Option F := do
  let peak ← m.surb_peak
  let half_lives := as_secs_f64 (now - peak.instant) / as_secs_f64 (window m.surb)
  return peak.value * powf (5 / 10) half_lives

def record_surb_round_trips_at (expected observed : UInt64) (now : Nat) (m : TransportIntermediates A R F) :
    TransportIntermediates A R F :=
  let m := {m with surb := record_observed observed now (record_expected expected now m.surb)}
  match value m.surb now with
  | some v => {m with surb_peak := some ⟨max ((m.peak_at now).getD 0) v, now⟩}
  | none => m

def surb_delivery_rate_at (m : TransportIntermediates A R F) (now : Nat) : Option F := do
  let value ← value m.surb now
  let peak ← m.peak_at now
  let against_peak ← (if 0 < peak then some (clamp 0 1 (value / peak)) else none)
  match m.surb_trend_at now with
  | some trend => return if trend < SURB_TREND_FLOOR then against_peak * trend else against_peak
  | none => return against_peak

/-- The worse of the two rates that are there. -/
def average_probe_rate (m : TransportIntermediates A R F) (now : Nat) : Option F :=
  match m.surb_delivery_rate_at now, m.link.average_probe_rate with
  | some surb, some probe => some (min surb probe)
  | surb, probe => surb.or probe

variable [FloorSemiring F]

def average_latency (m : TransportIntermediates A R F) : Option Nat := m.link.average_latency

/-- Only a latency that was measured counts. -/
def score (m : TransportIntermediates A R F) (now : Nat) : Option F :=
  (m.average_probe_rate now).map fun rate =>
    match m.average_latency with
    | some latency => rate * latency_score latency
    | none => rate

end TransportIntermediates

/-! ### Observations -/

structure Observations (A R : Nat → Type) (F : Type) where
  last_update : Nat
  immediate_probe : Option (TransportImmediates A F)
  intermediate_probe : Option (TransportIntermediates A R F)
  /-- Of the node that the edge leads to. -/
  health : Option F

/-- What is read of the system's clock, and of the monotonic one: when a stream is made, and for the record. -/
structure Clock where
  system : Nat
  created : Nat
  instant : Nat

namespace Observations
variable {A R : Nat → Type} {F : Type} [Field F] [LinearOrder F] [ExponentialMovingAverage A F] [WindowedRatio R F]

def default : Observations A R F := ⟨0, none, none, none⟩

/-- `get_or_insert_default` of the immediate stream. -/
def immediate (w : Observations A R F) : TransportImmediates A F := w.immediate_probe.getD .default

/-- `get_or_insert_default` of the intermediate stream. -/
def intermediate (now : Nat) (w : Observations A R F) : TransportIntermediates A R F :=
  w.intermediate_probe.getD (.default now)

variable [Powf F]

def record (clock : Clock) (measurement : EdgeWeightType) (w : Observations A R F) : Observations A R F :=
  let w := {w with last_update := clock.system}
  match measurement with
  | .Immediate result => {w with immediate_probe := some (w.immediate.record result)}
  | .Intermediate result => {w with intermediate_probe := some ((w.intermediate clock.created).record result)}
  | .Balance balance => {w with intermediate_probe := some {w.intermediate clock.created with balance}}
  | .Connected is_connected =>
    {w with immediate_probe := some {w.immediate with is_connected := some is_connected}}
  | .SurbRoundTrips expected observed =>
    let intermediate := w.intermediate clock.created
    {w with intermediate_probe := some (intermediate.record_surb_round_trips_at expected observed clock.instant)}
  | .ImmediateProtocolConformance num_packets num_acks =>
    let imm := w.immediate
    {w with immediate_probe := some {imm with
      messages_sent := imm.messages_sent * ACK_DECAY + num_packets.toNat
      acks_received := imm.acks_received * ACK_DECAY + num_acks.toNat}}

def ack_rate (w : Observations A R F) : Option F := w.immediate_probe.bind (·.ack_rate)

variable [FloorSemiring F]

/-- The average of the streams that have observations. -/
def score (w : Observations A R F) (now : Nat) : Option F :=
  match w.immediate_probe.bind (·.score), w.intermediate_probe.bind (·.score now) with
  | some immediate, some intermediate => some ((immediate + intermediate) / 2)
  | some only, none => some only
  | none, some only => some only
  | none, none => none

/-- One after the other, each at its own time. -/
def records (w : Observations A R F) (measurements : List (Clock × EdgeWeightType)) : Observations A R F :=
  measurements.foldl (fun w x => w.record x.1 x.2) w

/-- The weights of the channel graph, where one clock is read for all. -/
instance weights : Graph.Observations (Observations A R F) where
  default := default
  record now_ms := record ⟨now_ms * 1_000_000, now_ms * 1_000_000, now_ms * 1_000_000⟩
  immediate_latency w := w.immediate_probe.bind (·.average_latency)
  intermediate_latency w := w.intermediate_probe.bind (·.average_latency)
  is_connected w := w.immediate_probe.bind (·.is_connected)

end Observations

/-! ### Rational statistics -/

/-- Half a window at a time. -/
instance : Powf ℚ where
  powf base exponent := base ^ ⌊exponent⌋₊

/-- The mean of the first samples, which then goes the same part of the way to each sample. -/
structure RunningMean (n : Nat) where
  count : Nat
  mean : ℚ

instance : ExponentialMovingAverage RunningMean ℚ where
  default _ := ⟨0, 0⟩
  update {n} x avg := ⟨avg.count + 1, avg.mean + (x - avg.mean) / (min (avg.count + 1) n : Nat)⟩
  get avg := avg.mean

instance : LawfulExponentialMovingAverage RunningMean where
  get_default _ := rfl
  get_update {n} x avg := by
    refine ⟨1 / (min (avg.count + 1) n : Nat), by positivity, ?_, ?_⟩
    · cases min (avg.count + 1) n with
      | zero => exact (div_zero (1 : ℚ)).trans_le zero_le_one
      | succ k =>
        have hone : (1 : ℚ) ≤ (k + 1 : Nat) := by exact_mod_cast Nat.succ_le_succ (Nat.zero_le k)
        exact div_le_one_of_le₀ hone (zero_le_one.trans hone)
    · exact congrArg (avg.mean + ·) (one_div_mul_eq_div _ _).symm

/-- All that was counted, each with its time. -/
structure CountedRatio (buckets : Nat) where
  bucket_width : Nat
  expected : List (Nat × UInt64)
  observed : List (Nat × UInt64)

namespace CountedRatio
variable {buckets : Nat}

/-- What was counted in the last of the buckets. -/
def counted (r : CountedRatio buckets) (slices now : Nat) (counts : List (Nat × UInt64)) : Nat :=
  let recent := counts.filter fun x => now / r.bucket_width - x.1 / r.bucket_width < slices
  (recent.map fun x => x.2.toNat).sum

def ratio (r : CountedRatio buckets) (slices now : Nat) : Option ℚ :=
  let expected := r.counted slices now r.expected
  if expected = 0 then none else some (min 1 (r.counted slices now r.observed / expected))

instance : WindowedRatio CountedRatio ℚ where
  new bucket_width _ := ⟨bucket_width, [], []⟩
  record_expected count now r := {r with expected := (now, count) :: r.expected}
  record_observed count now r := {r with observed := (now, count) :: r.observed}
  value {buckets} r now := r.ratio buckets now
  recent_value r slices now := r.ratio slices now
  window {buckets} r := r.bucket_width * buckets

end CountedRatio

end Hopr.Graph.Weight
