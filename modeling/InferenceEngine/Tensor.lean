import InferenceEngine.Failure

/-!
# Tensors

A tensor is declared by its name, its element type and its dimensions. From them follows
the number of bytes that it takes for one instance and for a batch of instances.
-/

namespace InferenceEngine

/-!
# Element types
-/

inductive DataType where
  | bool
  | uint8
  | uint16
  | uint32
  | uint64
  | int8
  | int16
  | int32
  | int64
  | fp16
  | fp32
  | fp64
  deriving DecidableEq, Inhabited

namespace DataType

def byteSize : DataType -> Nat
  | bool | uint8 | int8 => 1
  | uint16 | int16 | fp16 => 2
  | uint32 | int32 | fp32 => 4
  | uint64 | int64 | fp64 => 8

def name : DataType -> String
  | bool => "BOOL"
  | uint8 => "UINT8"
  | uint16 => "UINT16"
  | uint32 => "UINT32"
  | uint64 => "UINT64"
  | int8 => "INT8"
  | int16 => "INT16"
  | int32 => "INT32"
  | int64 => "INT64"
  | fp16 => "FP16"
  | fp32 => "FP32"
  | fp64 => "FP64"

def ofName? : String -> Option DataType
  | "BOOL" => some bool
  | "UINT8" => some uint8
  | "UINT16" => some uint16
  | "UINT32" => some uint32
  | "UINT64" => some uint64
  | "INT8" => some int8
  | "INT16" => some int16
  | "INT32" => some int32
  | "INT64" => some int64
  | "FP16" => some fp16
  | "FP32" => some fp32
  | "FP64" => some fp64
  | _ => none

def description : DataType -> String
  | bool => "Bool"
  | uint8 => "Uint8"
  | uint16 => "Uint16"
  | uint32 => "Uint32"
  | uint64 => "Uint64"
  | int8 => "Int8"
  | int16 => "Int16"
  | int32 => "Int32"
  | int64 => "Int64"
  | fp16 => "Fp16"
  | fp32 => "Fp32"
  | fp64 => "Fp64"

def toJson (t : DataType) : Json := .ofText t.name

def ofJson? : Json -> Option DataType := Json.choice? ofName?

end DataType

/-!
# Declarations
-/

/-- The declaration of a tensor. A dimension of `-1` is one whose extent varies. -/
structure TensorSpec where
  name : String
  dataType : DataType
  dims : List Int
  deriving DecidableEq, Inhabited

namespace TensorSpec

/-- The product of two sizes, unless it reaches the bound of a word. -/
def product? (a b : Nat) : Option Nat :=
  if a * b < Text.wordBound then some (a * b) else none

/-- Multiplies the dimensions onto a count of elements, in their order. -/
def elements (tensor : String) (count : Nat) : List Int -> Except Failure Nat
  | [] => .ok count
  | dim :: rest =>
    if dim = -1 then .error (.variableDimension tensor)
    else if dim < 0 then .error (.invalidDimension tensor dim)
    else
      match product? count dim.toNat with
      | none => .error (.tensorTooLarge tensor)
      | some count => elements tensor count rest

def instanceByteSize (spec : TensorSpec) : Except Failure Nat := do
  let count ← elements spec.name 1 spec.dims
  match product? count spec.dataType.byteSize with
  | none => .error (.tensorTooLarge spec.name)
  | some size => .ok size

def batchByteSize (spec : TensorSpec) (batch : Nat) : Except Failure Nat := do
  let size ← spec.instanceByteSize
  match product? size batch with
  | none => .error (.batchTooLarge spec.name)
  | some size => .ok size

def toJson (spec : TensorSpec) : Json :=
  .ofMembers [
    ("name", .ofText spec.name),
    ("data_type", spec.dataType.toJson),
    ("dims", .ofList Json.ofInt spec.dims)]

def ofJson? (j : Json) : Option TensorSpec := do
  let [name, dataType, dims] ← j.fields? ["name", "data_type", "dims"] | none
  some {
    name := ← Json.required Json.text? name
    dataType := ← Json.required DataType.ofJson? dataType
    dims := ← Json.required (Json.list? Json.signed?) dims }

def description (spec : TensorSpec) : String :=
  Text.record "TensorSpec" [
    ("name", Text.quoted spec.name),
    ("data_type", spec.dataType.description),
    ("dims", Text.listed (spec.dims.map toString))]

end TensorSpec

end InferenceEngine
