import InferenceEngine.Memory.Allocator

/-!
# Allocators that misbehave

An unlimited allocator of host memory that hands out buffers of another size and in another
region than it is asked for, and may refuse to take them back. It shows what a client's own
allocator can be.
-/

namespace InferenceEngine

structure SkewedAllocator where
  sizeShift : Int
  regionShift : Int
  refuses : Bool
  deriving DecidableEq, Inhabited

namespace SkewedAllocator

def new (sizeShift regionShift : Int) (refuses : Bool) : SkewedAllocator :=
  ⟨sizeShift, regionShift, refuses⟩

def shifted (a : SkewedAllocator) (size : Nat) : Nat := ((size : Int) + a.sizeShift).toNat

def step (a : SkewedAllocator) (inner : HostAllocator) : AllocatorCall -> HostAllocator
  | .allocate domain region size =>
    (inner.allocate domain (region + a.regionShift) (a.shifted size)).2
  | .free buffer given =>
    if a.refuses then inner
    else
      match inner.free buffer given with
      | .ok inner => inner
      | .error _ => inner

def inner (a : SkewedAllocator) (calls : List AllocatorCall) : HostAllocator :=
  calls.foldl a.step (.new none)

def allocator (a : SkewedAllocator) : CallerAllocator where
  onAllocate calls domain region size :=
    ((a.inner calls).allocate domain (region + a.regionShift) (a.shifted size)).1
  onFree calls buffer given :=
    if a.refuses then .error (.reported .internal "free refused")
    else ((a.inner calls).free buffer given).map fun _ => ()
  onUsage calls _ _ := some (a.inner calls).used
  calls := []

end SkewedAllocator

def Allocator.skewed (a : SkewedAllocator) : Allocator := .caller a.allocator

end InferenceEngine
