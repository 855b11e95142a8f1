import InferenceEngine.Memory.Buffer

/-!
# Failures

Every failure is a value that names its cause. `Failure.code` sorts the causes into seven
kinds and `Failure.message` words them; nothing else in the library writes the text of a
failure.
-/

namespace InferenceEngine

/-!
# Kinds of failure
-/

inductive FailureCode where
  | unknown
  | internal
  | notFound
  | invalidArg
  | unavailable
  | unsupported
  | alreadyExists
  deriving DecidableEq, Inhabited

namespace FailureCode

def name : FailureCode -> String
  | unknown => "UNKNOWN"
  | internal => "INTERNAL"
  | notFound => "NOT_FOUND"
  | invalidArg => "INVALID_ARG"
  | unavailable => "UNAVAILABLE"
  | unsupported => "UNSUPPORTED"
  | alreadyExists => "ALREADY_EXISTS"

def ofName? : String -> Option FailureCode
  | "UNKNOWN" => some unknown
  | "INTERNAL" => some internal
  | "NOT_FOUND" => some notFound
  | "INVALID_ARG" => some invalidArg
  | "UNAVAILABLE" => some unavailable
  | "UNSUPPORTED" => some unsupported
  | "ALREADY_EXISTS" => some alreadyExists
  | _ => none

def description : FailureCode -> String
  | unknown => "Unknown"
  | internal => "Internal"
  | notFound => "NotFound"
  | invalidArg => "InvalidArg"
  | unavailable => "Unavailable"
  | unsupported => "Unsupported"
  | alreadyExists => "AlreadyExists"

def toJson (c : FailureCode) : Json := .ofText c.name

def ofJson? : Json -> Option FailureCode := Json.choice? ofName?

end FailureCode

/-!
# Causes from outside
-/

/-- A failed operation on files, as far as its kind matters. -/
inductive FileFault where
  | notFound
  | alreadyExists
  | invalidInput
  | other
  deriving DecidableEq, Inhabited

/-- The kind of failure that a failed operation on files is reported as. -/
def FileFault.code : FileFault -> FailureCode
  | notFound => .notFound
  | alreadyExists => .alreadyExists
  | invalidInput => .invalidArg
  | other => .internal

inductive SettingsFault where
  /-- A setting that was asked for is missing. -/
  | missing (key : String)
  /-- Settings were changed after they had been fixed. -/
  | frozen
  /-- A source or a value that cannot be used. -/
  | other (text : String)
  deriving DecidableEq, Inhabited

def SettingsFault.message : SettingsFault -> String
  | missing key => s!"configuration property {Text.quoted key} not found"
  | frozen => "configuration is frozen"
  | other text => text

inductive RangeOwner where
  /-- A mapped region. -/
  | region
  /-- A registered handle. -/
  | handle (name : String)
  /-- The region that a handle is about to be registered for. -/
  | keyedRegion (key : String)
  deriving DecidableEq, Inhabited

def RangeOwner.phrase : RangeOwner -> String
  | region => "region"
  | handle name => s!"shared memory '{name}'"
  | keyedRegion key => s!"shared memory region '{key}'"

/-!
# Causes
-/

inductive Failure where
  /-- A failure that was made elsewhere, with its own kind and wording. -/
  | reported (code : FailureCode) (text : String)
  | fileFault (fault : FileFault) (text : String)
  | settings (fault : SettingsFault)
  /-- A document that does not describe a value of the expected type. -/
  | unreadable
  -- tensors and model configurations
  | variableDimension (tensor : String)
  | invalidDimension (tensor : String) (dim : Int)
  | tensorTooLarge (tensor : String)
  | batchTooLarge (tensor : String)
  | unnamedModel
  | missingTensors (model : String)
  | unnamedTensor (model : String)
  | repeatedTensor (model tensor : String)
  | negativeDimension (model tensor : String)
  -- allocators
  | hostOnly (domain : MemoryDomain)
  | hostExhausted (requested used limit : Nat)
  | unknownDevice (region : Int)
  | poolExhausted (domain : MemoryDomain) (region : Int) (requested used capacity : Nat)
  | tripleMismatch (given held : BufferTriple)
  | unknownPool (domain : MemoryDomain) (region : Int)
  -- shared memory
  | invalidKey (key : String)
  | rangeExceeds (offset size : Nat) (owner : RangeOwner) (available : Nat)
  | emptyRegion (key : String)
  | missingRegion (key : String)
  | emptyFile (key : String)
  | unnamedHandle
  | handleExists (name : String)
  | missingHandle (name : String)
  | elementOverflow
  -- requests
  | emptyBatch
  | noBatching (model : String)
  | batchTooBig (size limit : Nat) (model : String)
  | unknownOutput (model output : String)
  | repeatedOutput (output : String)
  | unknownInput (model input : String)
  | inputBound (input handle : String)
  | inputHasBuffers (input : String)
  | outputNotRequested (output : String)
  | inputSize (input : String) (expected batch provided : Nat)
  | outputSize (output : String) (expected batch : Nat) (handle : String) (provided : Nat)
  | rangeBeyondHandle (tensor : String) (offset size : Nat) (handle : String) (available : Nat)
  | foreignProvider
  -- execution
  | allocatedLength (size : Nat) (output : String) (expected : Nat)
  | backendPanicked (model : String)
  | slotCount (model : String) (count expected : Nat)
  | outputMoved (model output slot : String) (buffer : Buffer)
  | identityArity (model : String) (inputs outputs : Nat)
  | identityLength (output : String) (room : Nat) (input : String) (size : Nat)
  | cancelled
  -- responses
  | deliveredElsewhere (output handle : String)
  | notDelivered (output : String)
  | batchIndex (index batch : Nat)
  | missingOutput (output : String)
  -- the model table
  | unknownModel (model : String)
  | noReadyVersion (model : String)
  | versionUnavailable (model : String) (version : Int) (reason : String)
  | unknownVersion (model : String) (version : Int)
  | modelsFailed (details : List String)
  | noBackend (model : String)
  -- servers
  | outsideRuntime
  | noSlots
  | notServing (server : String)
  | notAccepting (server : String)
  | stoppedWhileLoading (server : String)
  | stillInFlight (count seconds : Nat)
  -- logging
  | invalidLevel (level : String)
  | invalidFilter (directives : String) (reason : String)
  | loggingInstalled
  deriving DecidableEq, Inhabited

namespace Failure

def code : Failure -> FailureCode
  | reported code _ => code
  | fileFault fault _ => fault.code
  | settings _ => .invalidArg
  | unreadable => .internal
  | variableDimension _ => .unsupported
  | invalidDimension .. => .invalidArg
  | tensorTooLarge _ => .invalidArg
  | batchTooLarge _ => .invalidArg
  | unnamedModel => .invalidArg
  | missingTensors _ => .invalidArg
  | unnamedTensor _ => .invalidArg
  | repeatedTensor .. => .invalidArg
  | negativeDimension .. => .invalidArg
  | hostOnly _ => .invalidArg
  | hostExhausted .. => .unavailable
  | unknownDevice _ => .invalidArg
  | poolExhausted .. => .unavailable
  | tripleMismatch .. => .invalidArg
  | unknownPool .. => .internal
  | invalidKey _ => .invalidArg
  | rangeExceeds .. => .invalidArg
  | emptyRegion _ => .invalidArg
  | missingRegion _ => .notFound
  | emptyFile _ => .invalidArg
  | unnamedHandle => .invalidArg
  | handleExists _ => .alreadyExists
  | missingHandle _ => .notFound
  | elementOverflow => .invalidArg
  | emptyBatch => .invalidArg
  | noBatching _ => .invalidArg
  | batchTooBig .. => .invalidArg
  | unknownOutput .. => .invalidArg
  | repeatedOutput _ => .invalidArg
  | unknownInput .. => .invalidArg
  | inputBound .. => .invalidArg
  | inputHasBuffers _ => .invalidArg
  | outputNotRequested _ => .invalidArg
  | inputSize .. => .invalidArg
  | outputSize .. => .invalidArg
  | rangeBeyondHandle .. => .invalidArg
  | foreignProvider => .invalidArg
  | allocatedLength .. => .internal
  | backendPanicked _ => .internal
  | slotCount .. => .internal
  | outputMoved .. => .internal
  | identityArity .. => .invalidArg
  | identityLength .. => .invalidArg
  | cancelled => .unavailable
  | deliveredElsewhere .. => .invalidArg
  | notDelivered _ => .invalidArg
  | batchIndex .. => .invalidArg
  | missingOutput _ => .notFound
  | unknownModel _ => .notFound
  | noReadyVersion _ => .unavailable
  | versionUnavailable .. => .unavailable
  | unknownVersion .. => .notFound
  | modelsFailed _ => .unavailable
  | noBackend _ => .unsupported
  | outsideRuntime => .unavailable
  | noSlots => .invalidArg
  | notServing _ => .unavailable
  | notAccepting _ => .unavailable
  | stoppedWhileLoading _ => .unavailable
  | stillInFlight .. => .unavailable
  | invalidLevel _ => .invalidArg
  | invalidFilter .. => .invalidArg
  | loggingInstalled => .alreadyExists

def message : Failure -> String
  | reported _ text => text
  | fileFault _ text => s!"I/O error: {text}"
  | settings fault => s!"Configuration error: {fault.message}"
  | unreadable => "Serialization error: the document does not describe the expected value"
  | variableDimension tensor =>
    s!"variable-size dimension in tensor '{tensor}' is not supported"
  | invalidDimension tensor dim => s!"tensor '{tensor}' has invalid dimension {dim}"
  | tensorTooLarge tensor => s!"tensor '{tensor}' is too large"
  | batchTooLarge tensor => s!"tensor '{tensor}' batch is too large"
  | unnamedModel => "model name must not be empty"
  | missingTensors model => s!"model '{model}' must declare at least one input and one output"
  | unnamedTensor model => s!"model '{model}' has an unnamed tensor"
  | repeatedTensor model tensor => s!"model '{model}' declares tensor '{tensor}' more than once"
  | negativeDimension model tensor => s!"model '{model}' tensor '{tensor}' has a negative dimension"
  | hostOnly domain => s!"host allocator cannot allocate in {domain.name} memory"
  | hostExhausted requested used limit =>
    s!"host memory exhausted: {requested} bytes requested, {used} of {limit} in use"
  | unknownDevice region => s!"no accelerator device {region}"
  | poolExhausted domain region requested used capacity =>
    s!"{domain.name} memory region {region} exhausted: " ++
      s!"{requested} bytes requested, {used} of {capacity} in use"
  | tripleMismatch given held =>
    s!"free with ({given.phrase}) does not match allocation ({held.phrase})"
  | unknownPool domain region => s!"free into unknown {domain.name} region {region}"
  | invalidKey key => s!"invalid shared memory key '{key}'"
  | rangeExceeds offset size owner available =>
    s!"range {offset}..{offset}+{size} exceeds {owner.phrase} of {available} bytes"
  | emptyRegion key => s!"shared memory region '{key}' must not be empty"
  | missingRegion key => s!"shared memory region '{key}' does not exist"
  | emptyFile key => s!"shared memory region '{key}' is empty"
  | unnamedHandle => "shared memory handle name must not be empty"
  | handleExists name => s!"shared memory handle '{name}' is already registered"
  | missingHandle name => s!"shared memory handle '{name}' is not registered"
  | elementOverflow => "batch element offset overflows"
  | emptyBatch => "batch size must be at least 1"
  | noBatching model => s!"batching not supported for model '{model}'"
  | batchTooBig size limit model =>
    s!"batch size {size} exceeds maximum {limit} for model '{model}'"
  | unknownOutput model output => s!"model '{model}' has no output '{output}'"
  | repeatedOutput output => s!"output '{output}' requested more than once"
  | unknownInput model input => s!"model '{model}' has no input '{input}'"
  | inputBound input handle => s!"input '{input}' is bound to shared memory '{handle}'"
  | inputHasBuffers input => s!"input '{input}' already has appended buffers"
  | outputNotRequested output => s!"output '{output}' is not requested"
  | inputSize input expected batch provided =>
    s!"input '{input}' expects {expected} bytes for batch size {batch}, got {provided}"
  | outputSize output expected batch handle provided =>
    s!"output '{output}' expects {expected} bytes for batch size {batch}, " ++
      s!"shared memory '{handle}' provides {provided}"
  | rangeBeyondHandle tensor offset size handle available =>
    s!"tensor '{tensor}' range {offset}+{size} exceeds shared memory '{handle}' " ++
      s!"of {available} bytes"
  | foreignProvider => "request provider was created for a different server"
  | allocatedLength size output expected =>
    s!"allocator returned {size} bytes for output '{output}', expected {expected}"
  | backendPanicked model => s!"backend for model '{model}' panicked"
  | slotCount model count expected =>
    s!"backend for model '{model}' returned {count} output slots, expected {expected}"
  | outputMoved model output slot buffer =>
    s!"backend for model '{model}' moved output '{output}': " ++
      s!"slot holds '{slot}' with {buffer.description}"
  | identityArity model inputs outputs =>
    s!"identity model '{model}' has {inputs} inputs for {outputs} outputs"
  | identityLength output room input size =>
    s!"identity output '{output}' holds {room} bytes but input '{input}' has {size}"
  | cancelled => "request was cancelled because the runtime shut down"
  | deliveredElsewhere output handle =>
    s!"output '{output}' was delivered to shared memory '{handle}'"
  | notDelivered output => s!"output '{output}' was not delivered to shared memory"
  | batchIndex index batch => s!"batch index {index} out of range for batch size {batch}"
  | missingOutput output => s!"response has no output '{output}'"
  | unknownModel model => s!"unknown model '{model}'"
  | noReadyVersion model => s!"model '{model}' has no ready version"
  | versionUnavailable model version reason =>
    s!"model '{model}' version {version} is unavailable: {reason}"
  | unknownVersion model version => s!"unknown version {version} of model '{model}'"
  | modelsFailed details => "failed to load models: " ++ "; ".intercalate details
  | noBackend model => s!"no backend factory configured for model '{model}'"
  | outsideRuntime => "server must be created inside a tokio runtime"
  | noSlots => "execution_slots must be at least 1"
  | notServing server => s!"server '{server}' is not serving"
  | notAccepting server => s!"server '{server}' is not accepting requests"
  | stoppedWhileLoading server => s!"server '{server}' stopped while loading models"
  | stillInFlight count seconds => s!"{count} requests still in flight after {seconds}s"
  | invalidLevel level => s!"invalid log level '{level}'"
  | invalidFilter directives reason => s!"invalid log filter '{directives}': {reason}"
  | loggingInstalled =>
    "logging already initialized: a global default trace dispatcher has already been set"

def text (f : Failure) : String := s!"{f.code.name}: {f.message}"

def description (f : Failure) : String :=
  Text.record "Error" [("code", f.code.description), ("message", Text.quoted f.message)]

end Failure

end InferenceEngine
