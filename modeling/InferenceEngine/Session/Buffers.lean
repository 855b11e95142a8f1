import InferenceEngine.Engine.Operation
import InferenceEngine.Memory.Skewed
import InferenceEngine.Session.Basic

/-!
# Allocators and buffers

The steps on allocators that the client has made itself, and on buffers that it got from
them.
-/

namespace InferenceEngine.Session

def newAllocator (label : String) (a : Allocator) : SessionStep Unit :=
  modify fun s =>
    let (engine, n) := s.engine.addAllocator a
    { s with engine := engine, allocators := s.allocators.insert label n }

/-- Asks an allocator for a buffer; a call that panics leaves nothing under the label. -/
def allocate (allocator label : String) (domain : MemoryDomain) (region : Int) (size : Nat) :
    SessionStep Buffer := do
  let n ← SessionStep.find Session.allocators allocator
  let a ← SessionStep.ask fun e => e.allocator n
  SessionStep.change fun e => e.allocateFrom n domain region size
  match (a.allocate domain region size).1 with
  | .made buffer =>
    modify fun s => { s with buffers := s.buffers.insert label buffer }
    return buffer
  | .refused failure => throw (.failed failure)
  | .panicked => throw (.unknownLabel label)

def buffer (label : String) : SessionStep Buffer := SessionStep.find Session.buffers label

/-- Puts bytes into a buffer, from its start and as many as fit. -/
def writeBuffer (label : String) (data : Bytes) : SessionStep Buffer := do
  let old ← SessionStep.find Session.buffers label
  let new := { old with bytes := old.bytes.overwrite 0 (data.take old.size) }
  modify fun s => { s with buffers := s.buffers.insert label new }
  return new

/-- Gives a buffer back to an allocator; it is gone even if the allocator refuses it. -/
def free (allocator label : String) (given : BufferTriple) : SessionStep Unit := do
  let n ← SessionStep.find Session.allocators allocator
  let buffer ← SessionStep.find Session.buffers label
  modify fun s => { s with buffers := s.buffers.erase label }
  let a ← SessionStep.ask fun e => e.allocator n
  SessionStep.change fun e => e.freeTo n buffer given
  SessionStep.ofExcept (a.free buffer given).1

/-- The bytes in use in an allocator, or in one of its pools. -/
def usage (allocator : String) (domain : MemoryDomain) (region : Int) :
    SessionStep (Option Nat) := do
  let n ← SessionStep.find Session.allocators allocator
  SessionStep.ask fun e => (e.allocator n).usage domain region

end InferenceEngine.Session
