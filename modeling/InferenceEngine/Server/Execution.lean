import InferenceEngine.Response.Basic

/-!
# Executing a request

The stages of an execution: gathering the inputs, allocating the output slots, checking
what the backend left in them and delivering them. Each stage works on the allocator of the
server and on the directory of shared memory, and gives back the buffers that it has no
further use for.
-/

namespace InferenceEngine.Execution

/-!
# Slots
-/

def gather (d : Directory) (request : PreparedRequest) : Except Failure (List InputTensor) :=
  request.inputs.mapM (PreparedInput.gather d)

/-- What comes of asking for the slots of a request. -/
inductive Allotment where
  | made (slots : List OutputSlot)
  | failed (failure : Failure)
  /-- The allocator panics; the slots that were there are lost. -/
  | panicked (slots : List OutputSlot)

/-- Allocates a slot for each output, in order, after those that are there already. If one
cannot be had in the size that it needs, all are given back. -/
def allocate (placement : Placement) (a : Allocator) (slots : List OutputSlot) :
    List PreparedOutput -> Allotment × Allocator × List Event
  | [] => (.made slots, a, [])
  | output :: rest =>
    match a.allocate placement.domain placement.region output.size with
    | (.refused failure, a) =>
      let (a, events) := a.releaseAll (slots.map OutputSlot.named)
      (.failed failure, a, events)
    | (.panicked, a) =>
      (.panicked slots, a, a.allocationEvents placement.domain placement.region output.size)
    | (.made buffer, a) =>
      let traced := a.allocationEvents placement.domain placement.region output.size
      if buffer.size = output.size then
        let (result, a, events) := allocate placement a (slots ++ [⟨output.spec, buffer⟩]) rest
        (result, a, traced ++ events)
      else
        let (a, events) :=
          a.releaseAll ((output.spec.name, buffer) :: slots.map OutputSlot.named)
        (.failed (.allocatedLength buffer.size output.spec.name output.size), a, traced ++ events)

/-- Whether a slot is still the one that was made for an output. -/
def isInPlace (placement : Placement) (slot : OutputSlot) (output : PreparedOutput) : Bool :=
  slot.spec.name = output.spec.name && slot.size = output.size &&
    slot.buffer.domain = placement.domain && slot.buffer.region = placement.region

/-- Checks slots against the outputs that they were made for, in order. -/
def checkPairs (config : ModelConfig) : List (OutputSlot × PreparedOutput) -> Except Failure Unit
  | [] => .ok ()
  | (slot, output) :: rest =>
    if isInPlace config.placement slot output then checkPairs config rest
    else .error (.outputMoved config.name output.spec.name slot.spec.name slot.buffer)

/-- Checks that a backend left each slot in its place. -/
def checkSlots (config : ModelConfig) (slots : List OutputSlot) (outputs : List PreparedOutput) :
    Except Failure Unit :=
  if slots.length ≠ outputs.length then
    .error (.slotCount config.name slots.length outputs.length)
  else checkPairs config (slots.zip outputs)

/-!
# Delivery
-/

structure Memory where
  allocator : Allocator
  directory : Directory
  deriving Inhabited

structure Delivery where
  memory : Memory
  failure : Option Failure
  outputs : List (String × OutputStorage)
  events : List Event

/-- Delivers one slot: to its range if it has one, and else inline. After a failure nothing
more is written. -/
def deliverSlot (s : Delivery) (slot : OutputSlot) (output : PreparedOutput) : Delivery :=
  match output.destination with
  | none => { s with outputs := s.outputs ++ [(slot.spec.name, .inline slot.buffer)] }
  | some range =>
    let (directory, failure) :=
      if s.failure.isSome then (s.memory.directory, s.failure)
      else
        match range.write s.memory.directory slot.buffer.bytes with
        | .ok d => (d, none)
        | .error failure => (s.memory.directory, some failure)
    let (a, events) := s.memory.allocator.release slot.spec.name slot.buffer
    ⟨⟨a, directory⟩, failure, s.outputs ++ [(slot.spec.name, .delivered range.range)],
      s.events ++ events⟩

/-- Delivers all slots, in order. If that fails, the buffers held inline are given back. -/
def deliver (m : Memory) (slots : List OutputSlot) (outputs : List PreparedOutput) :
    Except Failure (List (String × OutputStorage)) × Memory × List Event :=
  let done := (slots.zip outputs).foldl (fun s pair => deliverSlot s pair.1 pair.2)
    ⟨m, none, [], []⟩
  match done.failure with
  | none => (.ok done.outputs, done.memory, done.events)
  | some failure =>
    let inline := done.outputs.filterMap fun o => o.2.buffer?.map fun buffer => (o.1, buffer)
    let (a, events) := done.memory.allocator.releaseAll inline
    (.error failure, { done.memory with allocator := a }, done.events ++ events)

/-- Ends an execution: what the backend left is checked and delivered, or given back. -/
def conclude (m : Memory) (config : ModelConfig) (outputs : List PreparedOutput)
    (result : Except Failure Unit) (slots : List OutputSlot) :
    Except Failure (List (String × OutputStorage)) × Memory × List Event :=
  match result >>= fun _ => checkSlots config slots outputs with
  | .ok () => deliver m slots outputs
  | .error failure =>
    let (a, events) := m.allocator.releaseAll (slots.map OutputSlot.named)
    (.error failure, { m with allocator := a }, events)

end InferenceEngine.Execution
