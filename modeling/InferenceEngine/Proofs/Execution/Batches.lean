import InferenceEngine.Proofs.Memory.Executions
import InferenceEngine.Proofs.Requests.History
import Mathlib.Data.List.Forall2

/-!
# What a batch is made of

The tensors of a batch are gathered from the sources of the inputs, each at its full length, and
its slots are allocated for the outputs in their order.
-/

namespace InferenceEngine

/-!
# Reading ranges
-/

theorem File.read_eq (f : File) (offset size : Nat) :
    f.read offset size = (List.range size).map fun i => f.byte (offset + i) := by
  have hheld : (f.written.slice offset size).length = min size (f.written.length - offset) := by
    unfold Bytes.slice
    rw [List.length_take, List.length_drop]
  show f.written.slice offset size ++ Bytes.zeros (size - (f.written.slice offset size).length) = _
  apply List.ext_getElem
  · simp only [List.length_append, Bytes.length_zeros, List.length_map, List.length_range]
    omega
  · intro i hi hi'
    have hlt : i < size := by simpa using hi'
    rw [List.getElem_map, List.getElem_range]
    unfold File.byte
    by_cases hinside : i < (f.written.slice offset size).length
    · have hwritten : offset + i < f.written.length := by omega
      rw [List.getElem_append_left hinside, List.getD_eq_getElem?_getD,
        List.getElem?_eq_getElem hwritten]
      simp [Bytes.slice]
    · have hbeyond : f.written.length ≤ offset + i := by omega
      rw [List.getElem_append_right (Nat.le_of_not_lt hinside), List.getD_eq_getElem?_getD,
        List.getElem?_eq_none hbeyond]
      simp [Bytes.zeros]

def Handle.byte (h : Handle) (d : Directory) (position : Nat) : UInt8 :=
  (d.file h.mapping.region.file).byte (h.offset + position)

theorem Handle.read_eq_ok {h : Handle} {d : Directory} {offset size : Nat} {data : Bytes}
    (hread : h.read d offset size = .ok data) :
    data = (List.range size).map fun i => h.byte d (offset + i) := by
  unfold Handle.read Region.read at hread
  rcases bind_eq_ok hread with ⟨_, _, hread⟩
  rcases bind_eq_ok hread with ⟨_, _, hdata⟩
  cases hdata
  rw [File.read_eq]
  apply List.map_congr_left
  intro i _
  unfold Handle.byte
  rw [Nat.add_assoc]

/-!
# Gathering

What has passed its checks has the sizes that it takes.
-/

/-- What a source comes to if its handles are those of a registry and the files are as they are:
the buffers one after the other, or the bytes of the range. -/
def InputSource.Yields (registry : Registry) (d : Directory) (data : Bytes) : InputSource -> Prop
  | .buffers bs => data = bs.flatten
  | .shared range => exists handle : Handle, registry.get range.handle = .ok handle ∧
      range.offset + range.size ≤ handle.size ∧
      data = (List.range range.size).map fun i => handle.byte d (range.offset + i)

theorem InputSource.Yields.length_eq {registry : Registry} {d : Directory} {data : Bytes}
    {source : InputSource} (h : source.Yields registry d data) : data.length = source.size := by
  cases source with
  | buffers bs =>
      rw [show data = bs.flatten from h]
      rfl
  | shared range =>
      rcases h with ⟨handle, _, _, rfl⟩
      simp [InputSource.size]

theorem PreparedInput.spec_of_prepare {registry : Registry} {b : InputBinding}
    {input : PreparedInput} (h : prepare registry b = .ok input) : input.spec = b.spec := by
  unfold prepare at h
  split at h
  · cases h
    rfl
  · rcases bind_eq_ok h with ⟨_, _, hinput⟩
    cases hinput
    rfl

theorem PreparedInput.spec_of_gather {d : Directory} {input : PreparedInput} {t : InputTensor}
    (h : gather d input = .ok t) : t.spec = input.spec := by
  unfold gather at h
  split at h
  · cases h
    rfl
  · rcases bind_eq_ok h with ⟨_, _, ht⟩
    cases ht
    rfl

theorem PreparedInput.gather_of_prepare {registry : Registry} {d : Directory} {b : InputBinding}
    {input : PreparedInput} {t : InputTensor} (hprepare : prepare registry b = .ok input)
    (hgather : gather d input = .ok t) :
    t.spec = b.spec ∧ b.source.Yields registry d t.data := by
  unfold PreparedInput.prepare at hprepare
  cases hsource : b.source with
  | buffers bs =>
      rw [hsource] at hprepare
      cases hprepare
      cases hgather
      exact ⟨rfl, rfl⟩
  | shared range =>
      rw [hsource] at hprepare
      rcases bind_eq_ok hprepare with ⟨resolved, hresolved, hinput⟩
      cases hinput
      unfold ResolvedRange.resolve at hresolved
      rcases bind_eq_ok hresolved with ⟨handle, hhandle, hinside⟩
      split at hinside
      · rename_i hbound
        cases hinside
        rcases bind_eq_ok hgather with ⟨data, hdata, ht⟩
        cases ht
        exact ⟨rfl, handle, hhandle, hbound, Handle.read_eq_ok hdata⟩
      · cases hinside

theorem PreparedRequest.prepare_eq_ok {registry : Registry} {p : Provider}
    {request : PreparedRequest} (h : prepare registry p = .ok request) :
    p.validate = .ok () ∧
      p.inputs.values.mapM (PreparedInput.prepare registry) = .ok request.inputs ∧
      p.outputs.mapM (PreparedOutput.prepare registry) = .ok request.outputs ∧
      request.model = p.model ∧ request.batchSize = p.header.batchSize := by
  unfold PreparedRequest.prepare at h
  rcases bind_eq_ok h with ⟨_, hvalidate, h⟩
  rcases bind_eq_ok h with ⟨inputs, hinputs, h⟩
  rcases bind_eq_ok h with ⟨outputs, houtputs, hrequest⟩
  cases hrequest
  exact ⟨hvalidate, hinputs, houtputs, rfl, rfl⟩

theorem Provider.size_of_validate {p : Provider} (h : p.validate = .ok ()) {name : String}
    {b : InputBinding} (hb : (name, b) ∈ p.inputs.toList) : b.source.size = b.expected := by
  unfold Provider.validate at h
  rcases bind_eq_ok h with ⟨_, hinputs, _⟩
  have hchecked := forM_eq_ok hinputs (name, b) hb
  unfold checkInput at hchecked
  split at hchecked
  · assumption
  · cases hchecked

/-- The tensors that are gathered for a request: one for each declared input, at the size of the
batch, with what the changes of its provider come to. -/
theorem Execution.gather_eq_ok {registry : Registry} {d : Directory} {p : Provider}
    {request : PreparedRequest} {changes : List Provider.Edit} {tensors : List InputTensor}
    (hfits : p.outline.Fits) (hremembers : p.Remembers changes)
    (hprepare : PreparedRequest.prepare registry p = .ok request)
    (hgather : gather d request = .ok tensors) :
    (tensors.map InputTensor.spec).Perm p.model.config.inputs ∧
      forall t, t ∈ tensors ->
        t.spec.batchByteSize p.header.batchSize = .ok t.data.length ∧
        (Provider.sourceOf t.spec.name changes).Yields registry d t.data := by
  rcases PreparedRequest.prepare_eq_ok hprepare with ⟨hvalidate, hinputs, _, _, _⟩
  constructor
  · rw [map_of_mapM (g := InputTensor.spec) hgather fun _ _ ht => PreparedInput.spec_of_gather ht,
      map_of_mapM (g := PreparedInput.spec) hinputs
        fun _ _ hinput => PreparedInput.spec_of_prepare hinput]
    have hdeclared := hfits.declared
    unfold Provider.outline at hdeclared
    unfold OrderedMap.values
    rw [List.map_map] at hdeclared ⊢
    exact hdeclared
  · intro t ht
    rcases mem_of_mapM hgather ht with ⟨input, hinput, hgathered⟩
    rcases mem_of_mapM hinputs hinput with ⟨b, hb, hprepared⟩
    rcases PreparedInput.gather_of_prepare hprepared hgathered with ⟨hsame, hyields⟩
    rcases List.mem_map.1 hb with ⟨⟨name, _⟩, hentry, rfl⟩
    have houtlined : (name, _, _) ∈ p.outline.inputs := List.mem_map_of_mem hentry
    have hname := hfits.named _ houtlined
    have hsize := hfits.inputSize _ houtlined
    rw [hsame, hyields.length_eq, Provider.size_of_validate hvalidate hentry]
    constructor
    · exact hsize
    · rw [show _ = name from hname, ← hremembers name _ (OrderedMap.get?_eq_some_iff.2 hentry)]
      exact hyields

/-!
# Allocating
-/

/-- Whether a slot is as it has been made for an output; a regular allocator makes it zero. -/
structure OutputSlot.IsFresh (isRegular : Bool) (slot : OutputSlot) (output : PreparedOutput) :
    Prop where
  spec : slot.spec = output.spec
  size : slot.size = output.size
  zeros : isRegular = true -> slot.buffer.bytes = Bytes.zeros output.size

theorem OutputSlot.names_of_isFresh {isRegular : Bool} {slots : List OutputSlot}
    {outputs : List PreparedOutput} (h : List.Forall₂ (IsFresh isRegular) slots outputs) :
    slots.map (fun slot => slot.spec.name) = outputs.map fun output => output.spec.name := by
  induction h with
  | nil => rfl
  | cons hfirst _ ih => rw [List.map_cons, List.map_cons, hfirst.spec, ih]

theorem OutputSlot.exists_of_isFresh {isRegular : Bool} {slots : List OutputSlot}
    {outputs : List PreparedOutput} (h : List.Forall₂ (IsFresh isRegular) slots outputs)
    {slot : OutputSlot} (hslot : slot ∈ slots) :
    exists output : PreparedOutput, output ∈ outputs ∧ slot.IsFresh isRegular output := by
  induction h with
  | nil => cases hslot
  | cons hfirst _ ih =>
      rcases List.mem_cons.1 hslot with rfl | hrest
      · exact ⟨_, List.mem_cons_self, hfirst⟩
      · rcases ih hrest with ⟨output, houtput, hmade⟩
        exact ⟨output, List.mem_cons_of_mem _ houtput, hmade⟩

theorem Execution.allocate_eq_made {placement : Placement} {a a' : Allocator}
    {slots all : List OutputSlot} {outputs : List PreparedOutput} {events : List Event}
    (h : allocate placement a slots outputs = (.made all, a', events)) :
    exists fresh : List OutputSlot, all = slots ++ fresh ∧
      List.Forall₂ (OutputSlot.IsFresh a.kind.isRegular) fresh outputs := by
  induction outputs generalizing a slots events with
  | nil =>
      cases h
      exact ⟨[], (List.append_nil _).symm, .nil⟩
  | cons output rest ih =>
      unfold allocate at h
      split at h
      · cases h
      · cases h
      · rename_i buffer next hbuffer
        by_cases hsize : buffer.size = output.size
        · simp only [hsize, if_true] at h
          cases hrest : allocate placement next (slots ++ [⟨output.spec, buffer⟩]) rest with
          | mk result more =>
              rw [hrest] at h
              cases h
              rcases ih hrest with ⟨fresh, hall, hfresh⟩
              rw [Allocator.isRegular_of_allocate hbuffer] at hfresh
              refine ⟨⟨output.spec, buffer⟩ :: fresh, ?_, .cons ?_ hfresh⟩
              · rw [hall, List.append_assoc]
                rfl
              · exact ⟨rfl, hsize, fun hregular => Allocator.bytes_allocate hregular hbuffer⟩
        · simp only [hsize, if_false] at h
          cases h

def PreparedOutput.range? (output : PreparedOutput) : Option HandleRange :=
  output.destination.map ResolvedRange.range

theorem PreparedOutput.eq_of_prepare {registry : Registry} {b : OutputBinding}
    {output : PreparedOutput} (h : prepare registry b = .ok output) :
    output.spec = b.spec ∧ output.size = b.expected ∧ output.range? = b.destination := by
  unfold PreparedOutput.prepare at h
  split at h
  · rename_i hnone
    cases h
    exact ⟨rfl, rfl, hnone.symm⟩
  · rename_i range hsome
    rcases bind_eq_ok h with ⟨resolved, hresolved, houtput⟩
    cases houtput
    unfold ResolvedRange.resolve at hresolved
    rcases bind_eq_ok hresolved with ⟨handle, _, hinside⟩
    split at hinside
    · cases hinside
      exact ⟨rfl, rfl, hsome.symm⟩
    · cases hinside

/-- The slots that are allocated for a request: one for each output that is asked for, in this
order, at the size of the batch, and zero if the allocator is a regular one. -/
theorem Execution.slots_eq_made {registry : Registry} {p : Provider} {request : PreparedRequest}
    {placement : Placement} {a a' : Allocator} {slots : List OutputSlot} {events : List Event}
    (hfits : p.outline.Fits) (hprepare : PreparedRequest.prepare registry p = .ok request)
    (hallocate : allocate placement a [] request.outputs = (.made slots, a', events)) :
    slots.map (fun slot => slot.spec.name) = Provider.requested p.model.config p.header ∧
      forall slot, slot ∈ slots ->
        slot.spec.batchByteSize p.header.batchSize = .ok slot.size ∧
        (a.kind.isRegular = true -> slot.buffer.bytes = Bytes.zeros slot.size) := by
  rcases PreparedRequest.prepare_eq_ok hprepare with ⟨_, _, houtputs, _, _⟩
  rcases allocate_eq_made hallocate with ⟨fresh, hall, hfresh⟩
  rw [List.nil_append] at hall
  rw [← hall] at hfresh
  constructor
  · have hslots := OutputSlot.names_of_isFresh hfresh
    have hprepared : request.outputs.map (fun output => output.spec.name) =
        p.outputs.map fun b => b.spec.name := by
      apply map_of_mapM houtputs
      intro b output houtput
      rw [(PreparedOutput.eq_of_prepare houtput).1]
    have hrequested := hfits.requested
    unfold Provider.outline at hrequested
    rw [List.map_map] at hrequested
    rw [hslots, hprepared]
    exact hrequested
  · intro slot hslot
    rcases OutputSlot.exists_of_isFresh hfresh hslot with ⟨output, houtput, hmade⟩
    rcases mem_of_mapM houtputs houtput with ⟨b, hb, hprepared⟩
    rcases PreparedOutput.eq_of_prepare hprepared with ⟨hspec, hsize, _⟩
    have hexpected := hfits.outputSize (b.spec, b.expected) (List.mem_map_of_mem hb)
    rw [hmade.spec, hmade.size, hspec, hsize]
    constructor
    · exact hexpected
    · intro hregular
      rw [hmade.zeros hregular, hsize]

/-!
# Batches
-/

/-- What a backend is given for a request to a model, if the inputs come from what certain changes
have left, are read through the handles of a registry when the files are as they are, and the
slots come from an allocator that is regular or not. -/
structure ExecutionBatch.IsFor (batch : ExecutionBatch) (m : LoadedModel)
    (header : RequestHeader) (changes : List Provider.Edit) (registry : Registry) (d : Directory)
    (isRegular : Bool) : Prop where
  model : batch.model = m.config
  version : batch.version = m.version
  batchSize : batch.batchSize = header.batchSize
  declared : (batch.inputs.map InputTensor.spec).Perm m.config.inputs
  data : forall t, t ∈ batch.inputs ->
    t.spec.batchByteSize header.batchSize = .ok t.data.length ∧
      (Provider.sourceOf t.spec.name changes).Yields registry d t.data
  requested : batch.outputs.map (fun slot => slot.spec.name) =
    Provider.requested m.config header
  slots : forall slot, slot ∈ batch.outputs ->
    slot.spec.batchByteSize header.batchSize = .ok slot.size ∧
      (isRegular = true -> slot.buffer.bytes = Bytes.zeros slot.size)

end InferenceEngine
