/-!
# Byte strings

Tensor data, output buffers and the contents of shared memory are lists of bytes.
`Bytes.overwrite` is the one way in which bytes change in place.
-/

namespace InferenceEngine

abbrev Bytes := List UInt8

namespace Bytes

def zeros (size : Nat) : Bytes := List.replicate size 0

@[simp] theorem length_zeros (size : Nat) : (zeros size).length = size :=
  List.length_replicate

/-- Puts `data` over the bytes that start at `offset`. -/
def overwrite (bytes : Bytes) (offset : Nat) (data : Bytes) : Bytes :=
  bytes.take offset ++ data ++ bytes.drop (offset + data.length)

theorem length_overwrite {bytes data : Bytes} {offset : Nat}
    (h : offset + data.length ≤ bytes.length) :
    (bytes.overwrite offset data).length = bytes.length := by
  simp [overwrite]
  omega

def slice (bytes : Bytes) (offset size : Nat) : Bytes :=
  (bytes.drop offset).take size

end Bytes

end InferenceEngine
