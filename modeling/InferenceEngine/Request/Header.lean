import InferenceEngine.Failure

/-!
# What a request says about itself

The header of a request, and references to ranges of registered shared memory.
-/

namespace InferenceEngine

/-- The header of a request. An empty list of outputs asks for all outputs. -/
structure RequestHeader where
  id : Nat
  batchSize : Nat
  outputs : List String
  deriving DecidableEq, Inhabited

namespace RequestHeader

/-- The header of a request with number zero that asks for all outputs. -/
def new (batchSize : Nat) : RequestHeader := ⟨0, batchSize, []⟩

def numbered (header : RequestHeader) (id : Nat) : RequestHeader := { header with id := id }

def addOutput (header : RequestHeader) (name : String) : RequestHeader :=
  { header with outputs := header.outputs ++ [name] }

def toJson (header : RequestHeader) : Json :=
  .ofMembers [
    ("id", .ofNat header.id),
    ("batch_size", .ofNat header.batchSize),
    ("outputs", .ofList Json.ofText header.outputs)]

def ofJson? (j : Json) : Option RequestHeader := do
  let [id, batchSize, outputs] ← j.fields? ["id", "batch_size", "outputs"] | none
  some {
    id := ← Json.orElse 0 Json.word? id
    batchSize := ← Json.required Json.halfWord? batchSize
    outputs := ← Json.orElse [] (Json.list? Json.text?) outputs }

def description (header : RequestHeader) : String :=
  Text.record "InferRequestHeader" [
    ("id", toString header.id),
    ("batch_size", toString header.batchSize),
    ("outputs", Text.listed (header.outputs.map Text.quoted))]

end RequestHeader

/-- A range of bytes of a registered handle. -/
structure HandleRange where
  handle : String
  offset : Nat
  size : Nat
  deriving DecidableEq, Inhabited

namespace HandleRange

def toJson (range : HandleRange) : Json :=
  .ofMembers [
    ("handle", .ofText range.handle),
    ("offset", .ofNat range.offset),
    ("byte_size", .ofNat range.size)]

def ofJson? (j : Json) : Option HandleRange := do
  let [handle, offset, size] ← j.fields? ["handle", "offset", "byte_size"] | none
  some {
    handle := ← Json.required Json.text? handle
    offset := ← Json.required Json.word? offset
    size := ← Json.required Json.word? size }

def description (range : HandleRange) : String :=
  Text.record "SharedMemoryRef" [
    ("handle", Text.quoted range.handle),
    ("offset", toString range.offset),
    ("byte_size", toString range.size)]

end HandleRange

end InferenceEngine
