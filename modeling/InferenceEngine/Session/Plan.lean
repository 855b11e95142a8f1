import InferenceEngine.Backend

/-!
# Planned backends

A session says in advance what the backends of a model will do: copy, fail, panic, wait at
the gate, or put bytes where they do not belong. A plan for one version of a model comes
before a plan for the model.
-/

namespace InferenceEngine

/-- What the backends of a model are planned to do. -/
inductive Plan where
  /-- They copy the inputs to the outputs. -/
  | copy
  /-- They cannot be loaded. -/
  | refuse (failure : Failure)
  /-- They copy, and while they are loaded the server is stopped. -/
  | stopServer
  /-- They fail. -/
  | fail (failure : Failure)
  /-- They panic. -/
  | panic
  /-- They leave the outputs as they are. -/
  | idle
  /-- They wait at the gate and copy once they are let through. -/
  | gated
  /-- They exchange two output slots, after having copied if they are told so. -/
  | swap (first second : Nat) (copies : Bool)
  /-- They fill each output with an input, over and over and under a mask. -/
  | cycle (mask : UInt8)
  /-- They copy inputs to outputs by name. -/
  | route (routes : List (String × String))
  deriving Inhabited

namespace Plan

def copied (copies : Bool) (batch : ExecutionBatch) : Except Failure Unit × List OutputSlot :=
  if copies then Identity.run batch else (.ok (), batch.outputs)

/-- Exchanges two slots; a slot that is not there ends in a panic. -/
def exchange (first second : Nat) (slots : List OutputSlot) : Behaviour :=
  match slots[first]?, slots[second]? with
  | some a, some b => .finish (.ok ()) ((slots.set first b).set second a)
  | _, _ => .panic slots

/-- The first bytes of a byte string that is repeated without end; none if it is empty. -/
def cycled (mask : UInt8) (data : Bytes) (size : Nat) : Bytes :=
  if data.isEmpty then []
  else (List.replicate (size / data.length + 1) data).flatten.take size |>.map (· ^^^ mask)

/-- Fills slots with the inputs of a batch in turn, from the input at a position on. -/
def cycleSlots (mask : UInt8) (inputs : List InputTensor) (position : Nat) :
    List OutputSlot -> List OutputSlot
  | [] => []
  | slot :: rest =>
    let data := match inputs[position % inputs.length]? with
      | some input => input.data
      | none => []
    let bytes := cycled mask data slot.size
    slot.setBytes (slot.buffer.bytes.overwrite 0 bytes) ::
      cycleSlots mask inputs (position + 1) rest

/-- Puts bytes into the first slot of a name, as many as fit. -/
def fillSlot (name : String) (data : Bytes) : List OutputSlot -> Option (List OutputSlot)
  | [] => none
  | slot :: rest =>
    if slot.spec.name = name then
      some (slot.setBytes (slot.buffer.bytes.overwrite 0 (data.take slot.size)) :: rest)
    else (fillSlot name data rest).map (slot :: ·)

/-- Copies along routes, in order, until one of them does not exist. -/
def follow (batch : ExecutionBatch) (slots : List OutputSlot) :
    List (String × String) -> Behaviour
  | [] => .finish (.ok ()) slots
  | (input, output) :: rest =>
    match batch.input? input with
    | none => .finish (.error (.reported .internal s!"route: no input '{input}'")) slots
    | some tensor =>
      match fillSlot output tensor.data slots with
      | none => .finish (.error (.reported .internal s!"route: no output '{output}'")) slots
      | some slots => follow batch slots rest

def behaviour (batch : ExecutionBatch) : Plan -> Behaviour
  | copy | refuse _ | stopServer => Identity.behaviour batch
  | fail failure => .finish (.error failure) batch.outputs
  | panic => .panic batch.outputs
  | idle => .finish (.ok ()) batch.outputs
  | gated => .awaitGate batch.outputs fun isThrough =>
      if isThrough then Identity.behaviour batch
      else .finish (.error (.reported .unavailable "gate closed")) batch.outputs
  | swap first second copies =>
      match copied copies batch with
      | (.ok (), slots) => exchange first second slots
      | (.error failure, slots) => .finish (.error failure) slots
  | cycle mask => .finish (.ok ()) (cycleSlots mask batch.inputs 0 batch.outputs)
  | route routes => follow batch batch.outputs routes

/-!
# Plans keep their slots
-/

theorem labels_copied (copies : Bool) (batch : ExecutionBatch) :
    (copied copies batch).2.map OutputSlot.label = batch.outputs.map OutputSlot.label := by
  cases copies with
  | false => rfl
  | true => exact Identity.labels_run batch

theorem keeps_exchange (first second : Nat) (slots : List OutputSlot) :
    (exchange first second slots).Keeps slots := by
  unfold exchange
  split
  · rename_i a b ha hb
    obtain ⟨hi, rfl⟩ := List.getElem?_eq_some_iff.1 ha
    obtain ⟨hj, rfl⟩ := List.getElem?_eq_some_iff.1 hb
    exact (List.set_set_perm hi hj).map OutputSlot.label
  · exact .refl slots

theorem length_cycled (mask : UInt8) (data : Bytes) (size : Nat) :
    (cycled mask data size).length ≤ size := by
  unfold cycled
  split
  · exact Nat.zero_le size
  · rw [List.length_map]
    exact List.length_take_le _ _

theorem label_overwrite {slot : OutputSlot} {bytes : Bytes} (h : bytes.length ≤ slot.size) :
    (slot.setBytes (slot.buffer.bytes.overwrite 0 bytes)).label = slot.label := by
  apply OutputSlot.label_setBytes
  exact Bytes.length_overwrite (by simpa [OutputSlot.size, Buffer.size] using h)

theorem labels_cycleSlots (mask : UInt8) (inputs : List InputTensor) (position : Nat)
    (slots : List OutputSlot) :
    (cycleSlots mask inputs position slots).map OutputSlot.label =
      slots.map OutputSlot.label := by
  induction slots generalizing position with
  | nil => rfl
  | cons slot rest ih =>
    simp only [cycleSlots, List.map_cons, ih]
    rw [label_overwrite (length_cycled _ _ _)]

theorem labels_fillSlot {name : String} {data : Bytes} {slots filled : List OutputSlot}
    (h : fillSlot name data slots = some filled) :
    filled.map OutputSlot.label = slots.map OutputSlot.label := by
  induction slots generalizing filled with
  | nil => cases h
  | cons slot rest ih =>
    unfold fillSlot at h
    split at h
    · cases h
      rw [List.map_cons, label_overwrite (List.length_take_le _ _)]
      rfl
    · obtain ⟨others, hothers, rfl⟩ := Option.map_eq_some_iff.1 h
      rw [List.map_cons, ih hothers]
      rfl

theorem keeps_follow (batch : ExecutionBatch) (slots : List OutputSlot)
    (routes : List (String × String)) : (follow batch slots routes).Keeps slots := by
  induction routes generalizing slots with
  | nil => exact .refl slots
  | cons route rest ih =>
    unfold follow
    split
    · exact .refl slots
    · split
      · exact .refl slots
      · rename_i filled h
        exact (ih filled).mono (.of_labels (labels_fillSlot h))

theorem keeps_behaviour (plan : Plan) (batch : ExecutionBatch) :
    (plan.behaviour batch).Keeps batch.outputs := by
  cases plan with
  | copy | refuse | stopServer => exact Identity.keeps_behaviour batch
  | fail | panic | idle => exact .refl batch.outputs
  | gated =>
    refine ⟨.refl batch.outputs, fun isThrough => ?_⟩
    cases isThrough with
    | false => exact .refl batch.outputs
    | true => exact Identity.keeps_behaviour batch
  | swap first second copies =>
    have labels := labels_copied copies batch
    simp only [behaviour]
    split
    · rename_i slots h
      rw [h] at labels
      exact (keeps_exchange first second slots).mono (.of_labels labels)
    · rename_i slots h
      rw [h] at labels
      exact .of_labels labels
  | cycle mask => exact .of_labels (labels_cycleSlots mask batch.inputs 0 batch.outputs)
  | route routes => exact keeps_follow batch batch.outputs routes

def backend (plan : Plan) : Backend where
  run _ batch := plan.behaviour batch
  keeps _ := plan.keeps_behaviour

/-- What happens when a version with a plan is loaded. -/
def creation : Plan -> Creation
  | refuse failure => ⟨false, .error failure⟩
  | stopServer => ⟨true, .ok stopServer.backend⟩
  | plan => ⟨false, .ok plan.backend⟩

end Plan

/-- The plans for models and for single versions, the last one in front. -/
abbrev PlanBook := List ((String × Option Int) × Plan)

namespace PlanBook

/-- The plan for a version of a model: its own, or else the one of the model, or else to
copy. -/
def plan (book : PlanBook) (model : String) (version : Int) : Plan :=
  let own := book.find? fun entry => entry.1 = (model, some version)
  let general := book.find? fun entry => entry.1 = (model, none)
  ((own.or general).map Prod.snd).getD .copy

def factory (book : PlanBook) : BackendFactory := fun config version =>
  (book.plan config.name version).creation

end PlanBook

end InferenceEngine
