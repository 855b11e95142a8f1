import InferenceEngine.Model.Table
import InferenceEngine.Request.Header

/-!
# Request providers

A provider collects the inputs of one request. It is pinned to a loaded model when it is
made. An input takes its bytes either from buffers that are appended to it or from a range
of a registered handle; an output may be bound to such a range.
-/

namespace InferenceEngine

/-!
# Bindings
-/

inductive InputSource where
  /-- The buffers that were appended, in order. -/
  | buffers (buffers : List Bytes)
  /-- A range of a registered handle. -/
  | shared (range : HandleRange)
  deriving DecidableEq, Inhabited

namespace InputSource

def size : InputSource -> Nat
  | buffers bs => bs.flatten.length
  | shared range => range.size

def description : InputSource -> String
  | buffers bs => "Buffers(" ++ Text.listed (bs.map Text.quotedBytes) ++ ")"
  | shared range => "SharedMemory(" ++ range.description ++ ")"

end InputSource

structure InputBinding where
  spec : TensorSpec
  /-- The number of bytes that the batch takes. -/
  expected : Nat
  source : InputSource
  deriving DecidableEq, Inhabited

namespace InputBinding

def description (b : InputBinding) : String :=
  Text.record "InputBinding" [
    ("spec", b.spec.description),
    ("expected", toString b.expected),
    ("source", b.source.description)]

end InputBinding

structure OutputBinding where
  spec : TensorSpec
  /-- The number of bytes that the batch takes. -/
  expected : Nat
  destination : Option HandleRange
  deriving DecidableEq, Inhabited

namespace OutputBinding

def description (b : OutputBinding) : String :=
  Text.record "OutputBinding" [
    ("spec", b.spec.description),
    ("expected", toString b.expected),
    ("shared_memory", Text.optional (b.destination.map HandleRange.description))]

end OutputBinding

/-- The inputs of one request for a loaded model. -/
structure Provider where
  /-- The number of the server that it was made for. -/
  server : Nat
  model : LoadedModel
  header : RequestHeader
  inputs : OrderedMap String InputBinding
  outputs : List OutputBinding

namespace Provider

instance : Inhabited Provider := ⟨⟨0, default, default, .empty, []⟩⟩

/-!
# Making a provider
-/

/-- Checks a batch size against the largest one that a model takes. -/
def checkBatch (config : ModelConfig) (batch : Nat) : Except Failure Unit :=
  if batch = 0 then .error .emptyBatch
  else if config.maxBatchSize = 0 then
    if batch = 1 then .ok () else .error (.noBatching config.name)
  else if batch ≤ config.maxBatchSize then .ok ()
  else .error (.batchTooBig batch config.maxBatchSize config.name)

def bindInput (batch : Nat) (spec : TensorSpec) : Except Failure (String × InputBinding) := do
  let size ← spec.batchByteSize batch
  .ok (spec.name, ⟨spec, size, .buffers []⟩)

def bindOutput (batch : Nat) (spec : TensorSpec) : Except Failure OutputBinding := do
  let size ← spec.batchByteSize batch
  .ok ⟨spec, size, none⟩

/-- The outputs that are asked for by name, given the names that came before. -/
def bindNamed (config : ModelConfig) (batch : Nat) (seen : List String) :
    List String -> Except Failure (List OutputBinding)
  | [] => .ok []
  | name :: rest =>
    match config.output? name with
    | none => .error (.unknownOutput config.name name)
    | some spec =>
      if name ∈ seen then .error (.repeatedOutput name)
      else do
        let output ← bindOutput batch spec
        let others ← bindNamed config batch (name :: seen) rest
        .ok (output :: others)

/-- The outputs of a request: the ones asked for, or all of them. -/
def bindOutputs (config : ModelConfig) (header : RequestHeader) :
    Except Failure (List OutputBinding) :=
  if header.outputs.isEmpty then config.outputs.mapM (bindOutput header.batchSize)
  else bindNamed config header.batchSize [] header.outputs

/-- A provider for the model that a table has under a name. -/
def new (server : Nat) (table : ModelTable) (name : String) (choice : VersionChoice)
    (header : RequestHeader) : Except Failure Provider := do
  let model ← table.resolve name choice
  checkBatch model.config header.batchSize
  let inputs ← model.config.inputs.mapM (bindInput header.batchSize)
  let outputs ← bindOutputs model.config header
  .ok ⟨server, model, header, .ofList inputs, outputs⟩

/-!
# Inputs and outputs
-/

def input (p : Provider) (name : String) : Except Failure InputBinding :=
  match p.inputs.get? name with
  | some binding => .ok binding
  | none => .error (.unknownInput p.model.config.name name)

def setSource (p : Provider) (name : String) (binding : InputBinding) (source : InputSource) :
    Provider :=
  { p with inputs := p.inputs.insert name { binding with source := source } }

def expectedSize (p : Provider) (name : String) : Except Failure Nat :=
  (p.input name).map InputBinding.expected

def appendedSize (p : Provider) (name : String) : Except Failure Nat :=
  (p.input name).map fun binding => binding.source.size

def append (p : Provider) (name : String) (data : Bytes) : Except Failure Provider := do
  let binding ← p.input name
  match binding.source with
  | .buffers bs => .ok (p.setSource name binding (.buffers (bs ++ [data])))
  | .shared range => .error (.inputBound name range.handle)

/-- Binds an input to a range of a handle; no buffer may have been appended to it. -/
def bindInputRange (p : Provider) (name : String) (range : HandleRange) :
    Except Failure Provider := do
  let binding ← p.input name
  match binding.source with
  | .buffers (_ :: _) => .error (.inputHasBuffers name)
  | _ => .ok (p.setSource name binding (.shared range))

/-- Puts a destination into the first output of a name. -/
def setDestination (name : String) (range : HandleRange) : List OutputBinding -> List OutputBinding
  | [] => []
  | binding :: rest =>
    if binding.spec.name = name then { binding with destination := some range } :: rest
    else binding :: setDestination name range rest

def bindOutputRange (p : Provider) (name : String) (range : HandleRange) :
    Except Failure Provider :=
  if p.outputs.any fun binding => binding.spec.name = name then
    .ok { p with outputs := setDestination name range p.outputs }
  else .error (.outputNotRequested name)

def reset (p : Provider) : Provider :=
  { p with
    inputs := p.inputs.map fun binding => { binding with source := .buffers [] }
    outputs := p.outputs.map fun binding => { binding with destination := none } }

/-!
# Checking
-/

/-- Checks that an input has been given as many bytes as it takes. -/
def checkInput (batch : Nat) (name : String) (binding : InputBinding) : Except Failure Unit :=
  if binding.source.size = binding.expected then .ok ()
  else .error (.inputSize name binding.expected batch binding.source.size)

/-- Checks that the destination of an output, if it has one, is as long as the output. -/
def checkOutput (batch : Nat) (binding : OutputBinding) : Except Failure Unit :=
  match binding.destination with
  | none => .ok ()
  | some range =>
    if range.size = binding.expected then .ok ()
    else .error (.outputSize binding.spec.name binding.expected batch range.handle range.size)

/-- Checks the sizes of all inputs, in the order of their names, and then of all outputs. -/
def validate (p : Provider) : Except Failure Unit := do
  p.inputs.toList.forM fun e => checkInput p.header.batchSize e.1 e.2
  p.outputs.forM (checkOutput p.header.batchSize)

def description (p : Provider) : String :=
  Text.record "InferenceRequestProvider" [
    ("model", Text.quoted p.model.config.name),
    ("version", toString p.model.version),
    ("header", p.header.description),
    ("inputs", Text.mapping (p.inputs.toList.map fun e => (Text.quoted e.1, e.2.description))),
    ("outputs", Text.listed (p.outputs.map OutputBinding.description))]

end Provider

end InferenceEngine
