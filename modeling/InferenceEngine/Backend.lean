import InferenceEngine.Model.Config

/-!
# Backends

A backend executes one batch at a time. What it does is a tree: it ends with a result or a
panic, or it waits at a gate and goes on when it is let through or the gate is closed. The
output slots are in its hands until it ends. It can fill them and put them in another order,
but it can neither make nor lose one.
-/

namespace InferenceEngine

/-!
# Batches
-/

structure InputTensor where
  spec : TensorSpec
  data : Bytes
  deriving DecidableEq, Inhabited

/-- An output tensor with the buffer that its bytes are written to. -/
structure OutputSlot where
  spec : TensorSpec
  buffer : Buffer
  deriving DecidableEq, Inhabited

namespace OutputSlot

def size (slot : OutputSlot) : Nat := slot.buffer.size

def setBytes (slot : OutputSlot) (bytes : Bytes) : OutputSlot :=
  { slot with buffer := { slot.buffer with bytes := bytes } }

/-- A slot as its buffer is known to the allocator: by the name of its tensor. -/
def named (slot : OutputSlot) : String × Buffer := (slot.spec.name, slot.buffer)

/-- What stays with a slot whatever a backend does: its tensor and the tag of its buffer. -/
def label (slot : OutputSlot) : TensorSpec × BufferTag := (slot.spec, slot.buffer.tag)

theorem label_setBytes {slot : OutputSlot} {bytes : Bytes} (h : bytes.length = slot.size) :
    (slot.setBytes bytes).label = slot.label := by
  simp [label, setBytes, Buffer.tag, Buffer.triple, Buffer.size, h, size]

end OutputSlot

/-- Whether slots are the given ones, in any order and with any bytes. -/
def Rearranged (given slots : List OutputSlot) : Prop :=
  (slots.map OutputSlot.label).Perm (given.map OutputSlot.label)

theorem Rearranged.refl (slots : List OutputSlot) : Rearranged slots slots := List.Perm.refl _

theorem Rearranged.trans {given middle slots : List OutputSlot} (h : Rearranged given middle)
    (k : Rearranged middle slots) : Rearranged given slots := List.Perm.trans k h

theorem Rearranged.of_labels {given slots : List OutputSlot}
    (h : slots.map OutputSlot.label = given.map OutputSlot.label) : Rearranged given slots :=
  .of_eq h

structure ExecutionBatch where
  model : ModelConfig
  version : Int
  batchSize : Nat
  inputs : List InputTensor
  outputs : List OutputSlot
  deriving DecidableEq, Inhabited

namespace ExecutionBatch

def input? (batch : ExecutionBatch) (name : String) : Option InputTensor :=
  batch.inputs.find? fun t => t.spec.name = name

def withOutputs (batch : ExecutionBatch) (slots : List OutputSlot) : ExecutionBatch :=
  { batch with outputs := slots }

end ExecutionBatch

/-!
# Behaviour
-/

inductive Behaviour where
  /-- It ends with a result and leaves the slots. -/
  | finish (result : Except Failure Unit) (slots : List OutputSlot)
  /-- It panics and leaves the slots. -/
  | panic (slots : List OutputSlot)
  /-- It waits at the gate; `resume true` is what it does once it is let through, and
  `resume false` what it does if the gate is closed. -/
  | awaitGate (slots : List OutputSlot) (resume : Bool -> Behaviour)

instance : Inhabited Behaviour := ⟨.panic []⟩

/-- Whether a behaviour, whenever it waits or ends, holds the slots that were given to it. -/
def Behaviour.Keeps (given : List OutputSlot) : Behaviour -> Prop
  | finish _ slots => Rearranged given slots
  | panic slots => Rearranged given slots
  | awaitGate slots resume =>
      Rearranged given slots ∧ forall isThrough : Bool, (resume isThrough).Keeps given

theorem Behaviour.Keeps.mono {given middle : List OutputSlot} {b : Behaviour}
    (h : b.Keeps middle) (k : Rearranged given middle) : b.Keeps given := by
  induction b with
  | finish result slots => exact k.trans h
  | panic slots => exact k.trans h
  | awaitGate slots resume ih => exact ⟨k.trans h.1, fun isThrough => ih isThrough (h.2 isThrough)⟩

/-- A backend: what it does with the batch of each request. -/
structure Backend where
  /-- What it does with a batch may hang on the number of the request, and so on all that
  has happened before. -/
  run : Nat -> ExecutionBatch -> Behaviour
  keeps : forall (request : Nat) (batch : ExecutionBatch), (run request batch).Keeps batch.outputs

instance : Inhabited Backend := ⟨fun _ batch => .panic batch.outputs, fun _ _ => .refl _⟩

/-!
# The identity
-/

namespace Identity

/-- Copies inputs to outputs, one to one, until a pair differs in length. -/
def copy : List InputTensor -> List OutputSlot -> Except Failure Unit × List OutputSlot
  | input :: inputs, slot :: slots =>
    if slot.size = input.data.length then
      let (result, slots) := copy inputs slots
      (result, slot.setBytes input.data :: slots)
    else
      (.error (.identityLength slot.spec.name slot.size input.spec.name input.data.length),
        slot :: slots)
  | _, slots => (.ok (), slots)

def run (batch : ExecutionBatch) : Except Failure Unit × List OutputSlot :=
  if batch.inputs.length < batch.outputs.length then
    (.error (.identityArity batch.model.name batch.inputs.length batch.outputs.length),
      batch.outputs)
  else copy batch.inputs batch.outputs

theorem labels_copy (inputs : List InputTensor) (slots : List OutputSlot) :
    (copy inputs slots).2.map OutputSlot.label = slots.map OutputSlot.label := by
  induction inputs generalizing slots with
  | nil => simp [copy]
  | cons input inputs ih =>
    cases slots with
    | nil => simp [copy]
    | cons slot slots =>
      unfold copy
      split
      · rename_i h
        simp [ih slots, OutputSlot.label_setBytes h.symm]
      · rfl

theorem labels_run (batch : ExecutionBatch) :
    (run batch).2.map OutputSlot.label = batch.outputs.map OutputSlot.label := by
  unfold run
  split
  · rfl
  · exact labels_copy batch.inputs batch.outputs

def behaviour (batch : ExecutionBatch) : Behaviour := .finish (run batch).1 (run batch).2

theorem keeps_behaviour (batch : ExecutionBatch) : (behaviour batch).Keeps batch.outputs :=
  .of_labels (labels_run batch)

def backend : Backend := ⟨fun _ => behaviour, fun _ => keeps_behaviour⟩

end Identity

/-!
# Loading
-/

/-- What happens when a version of a model is loaded: the result, and whether the server
that loads it is stopped meanwhile. -/
structure Creation where
  stops : Bool
  result : Except Failure Backend
  deriving Inhabited

def BackendFactory := ModelConfig -> Int -> Creation

instance : Inhabited BackendFactory := ⟨fun _ _ => default⟩

def BackendFactory.absent : BackendFactory := fun config _ =>
  ⟨false, .error (.noBackend config.name)⟩

end InferenceEngine
