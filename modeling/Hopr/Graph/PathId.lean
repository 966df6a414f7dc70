import Mathlib.Data.List.Basic

/-! Nodes in path identifiers.

A path identifier has five slots. The slot of a node is computed from its public
key (`encode`): the leading eight bytes, big-endian, except that zero, which
pads the slots behind the path, is mapped away. Two keys may share a slot. -/
namespace Hopr.Graph

structure OffchainPublicKey where
  bytes : List UInt8
  length : bytes.length = 32
deriving DecidableEq

/-- A key of 31 zero bytes behind a first one. -/
def OffchainPublicKey.of (b : UInt8) : OffchainPublicKey :=
  ⟨b :: List.replicate 31 0, rfl⟩

namespace path_id

def from_be_bytes (bytes : List UInt8) : UInt64 :=
  bytes.foldl (fun n b => n * 256 + b.toUInt64) 0

def encode (key : OffchainPublicKey) : UInt64 :=
  if from_be_bytes (key.bytes.take 8) = 0 then 1 else from_be_bytes (key.bytes.take 8)

/-- No node has the slot that pads. -/
theorem encode_ne_zero (key : OffchainPublicKey) : encode key ≠ 0 := by
  unfold encode
  split
  · decide
  · assumption

end path_id

structure PathId where
  slots : List UInt64
  length : slots.length = 5
deriving DecidableEq

namespace PathId

/-- `PathId::default()` -/
def zeros : PathId := ⟨List.replicate 5 0, rfl⟩

def set (p : PathId) (i : Nat) (slot : UInt64) : PathId :=
  ⟨p.slots.set i slot, by rw [List.length_set, p.length]⟩

end PathId

end Hopr.Graph
