import InferenceEngine.Tensor

/-!
# Model configurations

A configuration declares the inputs and outputs of a model, the largest batch it takes and
the memory in which its outputs are placed.
-/

namespace InferenceEngine

/-- The memory in which the outputs of a model are placed. -/
structure Placement where
  domain : MemoryDomain
  region : Int
  deriving DecidableEq, Inhabited

namespace Placement

def host : Placement := ⟨.host, 0⟩

def toJson (p : Placement) : Json :=
  .ofMembers [("domain", p.domain.toJson), ("region_id", .ofInt p.region)]

/-- Reads a placement; the region is zero where none is given. -/
def ofJson? (j : Json) : Option Placement := do
  let [domain, region] ← j.fields? ["domain", "region_id"] | none
  some {
    domain := ← Json.required MemoryDomain.ofJson? domain
    region := ← Json.orElse 0 Json.signed? region }

end Placement

/-- The configuration of a model. A largest batch of zero means that the model takes single
instances only. -/
structure ModelConfig where
  name : String
  maxBatchSize : Nat
  inputs : List TensorSpec
  outputs : List TensorSpec
  placement : Placement
  deriving DecidableEq, Inhabited

namespace ModelConfig

/-!
# Building
-/

/-- A configuration without tensors, placed in host memory. -/
def new (name : String) (maxBatchSize : Nat) : ModelConfig :=
  ⟨name, maxBatchSize, [], [], .host⟩

def addInput (config : ModelConfig) (spec : TensorSpec) : ModelConfig :=
  { config with inputs := config.inputs ++ [spec] }

def addOutput (config : ModelConfig) (spec : TensorSpec) : ModelConfig :=
  { config with outputs := config.outputs ++ [spec] }

def placedIn (config : ModelConfig) (placement : Placement) : ModelConfig :=
  { config with placement := placement }

/-!
# Looking up
-/

def input? (config : ModelConfig) (name : String) : Option TensorSpec :=
  config.inputs.find? fun spec => spec.name = name

def output? (config : ModelConfig) (name : String) : Option TensorSpec :=
  config.outputs.find? fun spec => spec.name = name

/-!
# Validity
-/

/-- Checks tensors in order, given the names of those before them. -/
def validateTensors (model : String) (seen : List String) : List TensorSpec -> Except Failure Unit
  | [] => .ok ()
  | spec :: rest =>
    if spec.name = "" then .error (.unnamedTensor model)
    else if spec.name ∈ seen then .error (.repeatedTensor model spec.name)
    else if spec.dims.any fun dim => dim < -1 then .error (.negativeDimension model spec.name)
    else validateTensors model (spec.name :: seen) rest

/-- Checks a configuration; strictly, it must declare an input and an output. -/
def validate (config : ModelConfig) (strict : Bool) : Except Failure Unit :=
  if config.name = "" then .error .unnamedModel
  else if strict && (config.inputs.isEmpty || config.outputs.isEmpty) then
    .error (.missingTensors config.name)
  else validateTensors config.name [] (config.inputs ++ config.outputs)

/-!
# Documents
-/

def toJson (config : ModelConfig) : Json :=
  .ofMembers [
    ("name", .ofText config.name),
    ("max_batch_size", .ofNat config.maxBatchSize),
    ("inputs", .ofList TensorSpec.toJson config.inputs),
    ("outputs", .ofList TensorSpec.toJson config.outputs),
    ("placement", config.placement.toJson)]

def ofJson? (j : Json) : Option ModelConfig := do
  let [name, maxBatchSize, inputs, outputs, placement] ←
    j.fields? ["name", "max_batch_size", "inputs", "outputs", "placement"] | none
  some {
    name := ← Json.required Json.text? name
    maxBatchSize := ← Json.orElse 0 Json.halfWord? maxBatchSize
    inputs := ← Json.required (Json.list? TensorSpec.ofJson?) inputs
    outputs := ← Json.required (Json.list? TensorSpec.ofJson?) outputs
    placement := ← Json.orElse .host Placement.ofJson? placement }

end ModelConfig

end InferenceEngine
