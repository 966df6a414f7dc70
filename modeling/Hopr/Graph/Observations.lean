import Mathlib.Data.Option.Basic

/-! What is observed of an edge.

The measurements are averages over floating-point numbers and windows of time,
so `Observations` leaves open what is kept of them and names what the channel
graph asks of a weight. Durations are in nanoseconds. -/
namespace Hopr.Graph

/-- A measurement of an edge; a probe that failed has no latency. -/
inductive EdgeWeightType where
  | Immediate (latency : Option Nat)
  | Intermediate (latency : Option Nat)
  | Balance (balance : Option Nat)
  | Connected (is_connected : Bool)
  | SurbRoundTrips (expected observed : UInt64)
  | ImmediateProtocolConformance (num_packets num_acks : UInt64)
deriving DecidableEq

class Observations (W : Type) where
  /-- Of an edge that was just added. -/
  default : W
  /-- A measurement is recorded at a time, in milliseconds. -/
  record : Nat → EdgeWeightType → W → W
  /-- The average latency of `immediate_qos`. -/
  immediate_latency : W → Option Nat
  /-- The average latency of `intermediate_qos`. -/
  intermediate_latency : W → Option Nat
  /-- `is_connected` of `immediate_qos`. -/
  is_connected : W → Option Bool

/-- The measurements themselves, the last one being the average. -/
instance Observations.measurements : Observations (List EdgeWeightType) where
  default := []
  record _ measurement weight := measurement :: weight
  immediate_latency weight := weight.findSome? fun | .Immediate latency => latency | _ => none
  intermediate_latency weight := weight.findSome? fun | .Intermediate latency => latency | _ => none
  is_connected weight := weight.findSome? fun | .Connected connected => some connected | _ => none

end Hopr.Graph
