import InferenceEngine.Request.Provider
import InferenceEngine.SharedMemory.Registry

/-!
# Prepared requests

When a request is accepted it is detached from its provider: its buffers are taken over and
its ranges are resolved to the handles that are registered at that moment.
-/

namespace InferenceEngine

/-- A range of a handle, with the handle itself. -/
structure ResolvedRange where
  handle : Handle
  range : HandleRange
  deriving DecidableEq, Inhabited

namespace ResolvedRange

/-- Resolves the range of a tensor; it must lie inside the handle. -/
def resolve (registry : Registry) (tensor : String) (range : HandleRange) :
    Except Failure ResolvedRange := do
  let handle ← registry.get range.handle
  if range.offset + range.size ≤ handle.size then .ok ⟨handle, range⟩
  else
    .error (.rangeBeyondHandle tensor range.offset range.size range.handle handle.size)

def read (r : ResolvedRange) (d : Directory) : Except Failure Bytes :=
  r.handle.read d r.range.offset r.range.size

def write (r : ResolvedRange) (d : Directory) (data : Bytes) : Except Failure Directory :=
  r.handle.write d r.range.offset data

end ResolvedRange

/-- Where the bytes of an accepted input come from. -/
inductive InputPayload where
  | buffers (buffers : List Bytes)
  | shared (range : ResolvedRange)
  deriving DecidableEq, Inhabited

structure PreparedInput where
  spec : TensorSpec
  payload : InputPayload
  deriving DecidableEq, Inhabited

namespace PreparedInput

def prepare (registry : Registry) (binding : InputBinding) : Except Failure PreparedInput :=
  match binding.source with
  | .buffers bs => .ok ⟨binding.spec, .buffers bs⟩
  | .shared range => do
    let range ← ResolvedRange.resolve registry binding.spec.name range
    .ok ⟨binding.spec, .shared range⟩

/-- The tensor of an input: its buffers one after the other, or the bytes of its range. -/
def gather (d : Directory) (input : PreparedInput) : Except Failure InputTensor :=
  match input.payload with
  | .buffers bs => .ok ⟨input.spec, bs.flatten⟩
  | .shared range => do
    let data ← range.read d
    .ok ⟨input.spec, data⟩

def mapping? (input : PreparedInput) : Option Nat :=
  match input.payload with
  | .buffers _ => none
  | .shared range => some range.handle.mapping.number

end PreparedInput

structure PreparedOutput where
  spec : TensorSpec
  size : Nat
  destination : Option ResolvedRange
  deriving DecidableEq, Inhabited

namespace PreparedOutput

def prepare (registry : Registry) (binding : OutputBinding) : Except Failure PreparedOutput :=
  match binding.destination with
  | none => .ok ⟨binding.spec, binding.expected, none⟩
  | some range => do
    let range ← ResolvedRange.resolve registry binding.spec.name range
    .ok ⟨binding.spec, binding.expected, some range⟩

def mapping? (output : PreparedOutput) : Option Nat :=
  output.destination.map fun range => range.handle.mapping.number

end PreparedOutput

structure PreparedRequest where
  id : Nat
  model : LoadedModel
  batchSize : Nat
  inputs : List PreparedInput
  outputs : List PreparedOutput
  deriving Inhabited

namespace PreparedRequest

def prepare (registry : Registry) (p : Provider) : Except Failure PreparedRequest := do
  p.validate
  let inputs ← p.inputs.values.mapM (PreparedInput.prepare registry)
  let outputs ← p.outputs.mapM (PreparedOutput.prepare registry)
  .ok ⟨p.header.id, p.model, p.header.batchSize, inputs, outputs⟩

end PreparedRequest

end InferenceEngine
