import InferenceEngine.Memory.Allocator
import InferenceEngine.Request.Prepared
import InferenceEngine.Response.Header

/-!
# Responses

A response carries a status, a header and the outputs. An output is held inline in its
buffer, or it has been delivered to a range of shared memory. A response with a failure for
its status has no outputs, and asking it for one gives that failure.
-/

namespace InferenceEngine

inductive OutputStorage where
  | inline (buffer : Buffer)
  | delivered (range : HandleRange)
  deriving DecidableEq, Inhabited

namespace OutputStorage

/-- What the header of a response says about an output. -/
def header (name : String) : OutputStorage -> OutputHeader
  | inline buffer => ⟨name, buffer.size, none⟩
  | delivered range => ⟨name, range.size, some range.handle⟩

def buffer? : OutputStorage -> Option Buffer
  | inline buffer => some buffer
  | delivered _ => none

end OutputStorage

structure Response where
  status : Except Failure Unit
  header : Blob
  batchSize : Nat
  outputs : List (String × OutputStorage)
  /-- The number of the allocator that the inline buffers go back to. -/
  allocator : Nat
  deriving Inhabited

namespace Response

def isOk (r : Response) : Bool :=
  match r.status with
  | .ok _ => true
  | .error _ => false

def outputNames (r : Response) : List String := r.outputs.map Prod.fst

/-- The buffers that are held inline, with the names of their outputs. -/
def buffers (r : Response) : List (String × Buffer) :=
  r.outputs.filterMap fun o => o.2.buffer?.map fun buffer => (o.1, buffer)

/-!
# Outputs
-/

def storage (r : Response) (name : String) : Except Failure OutputStorage := do
  r.status
  match r.outputs.find? fun o => o.1 = name with
  | some o => .ok o.2
  | none => .error (.missingOutput name)

def outputData (r : Response) (name : String) : Except Failure Bytes := do
  match ← r.storage name with
  | .inline buffer => .ok buffer.bytes
  | .delivered range => .error (.deliveredElsewhere name range.handle)

def outputElement (r : Response) (name : String) (index : Nat) : Except Failure Bytes := do
  let data ← r.outputData name
  if index < r.batchSize then
    let stride := data.length / r.batchSize
    .ok (data.slice (index * stride) stride)
  else .error (.batchIndex index r.batchSize)

def outputRange (r : Response) (name : String) : Except Failure HandleRange := do
  match ← r.storage name with
  | .delivered range => .ok range
  | .inline _ => .error (.notDelivered name)

/-!
# Making a response
-/

/-- The response to a request, given how long its execution has taken, its status and what has
come of its outputs. -/
def make (request : PreparedRequest) (allocator computeTime : Nat)
    (status : Except Failure Unit) (outputs : List (String × OutputStorage)) : Response where
  status := status
  header := .ofJson (ResponseHeader.toJson {
    id := request.id
    model := request.model.config.name
    version := request.model.version
    batchSize := request.batchSize
    outputs := outputs.map fun o => o.2.header o.1
    computeTime := computeTime })
  batchSize := request.batchSize
  outputs := outputs
  allocator := allocator

/-- The response to a request that has come to a result: its outputs, or a failure. -/
def ofResult (request : PreparedRequest) (allocator computeTime : Nat) :
    Except Failure (List (String × OutputStorage)) -> Response
  | .ok outputs => make request allocator computeTime (.ok ()) outputs
  | .error failure => make request allocator computeTime (.error failure) []

/-- The description of a response; the size of its header is shown as zero, since it hangs
on how long the execution took. -/
def description (r : Response) : String :=
  let status := match r.status with
    | .ok () => "Ok(())"
    | .error failure => "Err(" ++ failure.description ++ ")"
  Text.record "InferenceResponse" [
    ("status", status),
    ("header", Blob.describe 0),
    ("batch_size", toString r.batchSize),
    ("outputs", Text.listed (r.outputNames.map Text.quoted))]

end Response

end InferenceEngine
