import InferenceEngine.Failure

/-!
# What a response says about itself

The header of a response names the model that answered and lists the outputs that were
produced. It is sent as a blob, a document in its written form.
-/

namespace InferenceEngine

/-!
# Blobs
-/

structure Blob where
  text : String
  deriving DecidableEq, Inhabited

namespace Blob

def ofJson (j : Json) : Blob := ⟨j.text⟩

def byteSize (b : Blob) : Nat := b.text.utf8ByteSize

def decode {α : Type} (value? : Json -> Option α) (b : Blob) : Except Failure α :=
  match (Json.read? b.text.toList).bind value? with
  | some a => .ok a
  | none => .error .unreadable

def describe (byteSize : Nat) : String :=
  Text.record "SerializedBlob" [("byte_size", toString byteSize)]

def description (b : Blob) : String := describe b.byteSize

end Blob

/-!
# Headers
-/

/-- What a response says about one output; the handle is given for an output that was
delivered to shared memory. -/
structure OutputHeader where
  name : String
  size : Nat
  handle : Option String
  deriving DecidableEq, Inhabited

namespace OutputHeader

/-- The document of an output, without the handle where there is none. -/
def toJson (header : OutputHeader) : Json :=
  .ofMembers ([("name", .ofText header.name), ("byte_size", .ofNat header.size)] ++
    match header.handle with
    | none => []
    | some handle => [("shared_memory", .ofText handle)])

def ofJson? (j : Json) : Option OutputHeader := do
  let [name, size, handle] ← j.fields? ["name", "byte_size", "shared_memory"] | none
  some {
    name := ← Json.required Json.text? name
    size := ← Json.required Json.word? size
    handle := ← Json.orElse none (Json.nullable? Json.text?) handle }

end OutputHeader

structure ResponseHeader where
  id : Nat
  model : String
  version : Int
  batchSize : Nat
  outputs : List OutputHeader
  computeTime : Nat
  deriving DecidableEq, Inhabited

namespace ResponseHeader

def toJson (header : ResponseHeader) : Json :=
  .ofMembers [
    ("id", .ofNat header.id),
    ("model_name", .ofText header.model),
    ("model_version", .ofInt header.version),
    ("batch_size", .ofNat header.batchSize),
    ("outputs", .ofList OutputHeader.toJson header.outputs),
    ("compute_ns", .ofNat header.computeTime)]

def ofJson? (j : Json) : Option ResponseHeader := do
  let [id, model, version, batchSize, outputs, computeTime] ←
    j.fields? ["id", "model_name", "model_version", "batch_size", "outputs", "compute_ns"] | none
  some {
    id := ← Json.required Json.word? id
    model := ← Json.required Json.text? model
    version := ← Json.required Json.signed? version
    batchSize := ← Json.required Json.halfWord? batchSize
    outputs := ← Json.required (Json.list? OutputHeader.ofJson?) outputs
    computeTime := ← Json.required Json.word? computeTime }

end ResponseHeader

end InferenceEngine
