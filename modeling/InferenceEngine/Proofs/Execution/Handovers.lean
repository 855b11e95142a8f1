import InferenceEngine.Proofs.Execution.Starts

/-!
# Batches that are handed over

The tensors and the slots of a batch stand in the order of the bindings of the provider: the inputs
in the order of their names, whatever the order in which the model declares them, and the outputs in
the order in which they are asked for.
-/

namespace InferenceEngine

/-!
# Specifications of tensors and slots

Inputs are kept by their names.
-/

namespace Provider

def inputSpecs (p : Provider) : List TensorSpec := p.inputs.values.map InputBinding.spec

/-- The outputs of a provider, in the order in which they are asked for. -/
def outputSpecs (p : Provider) : List TensorSpec := p.outputs.map OutputBinding.spec

theorem outputSpecs_eq (p : Provider) : p.outputSpecs = p.outline.outputs.map Prod.fst := by
  unfold outputSpecs outline
  rw [List.map_map]
  rfl

namespace Outline.Fits

variable {p : Provider} (h : p.outline.Fits)

include h

theorem names_inputSpecs : p.inputSpecs.map TensorSpec.name = p.inputs.keys := by
  unfold inputSpecs OrderedMap.values OrderedMap.keys
  rw [List.map_map, List.map_map]
  apply List.map_congr_left
  intro e he
  exact h.named _ (List.mem_map_of_mem he)

theorem ascending_inputSpecs : (p.inputSpecs.map TensorSpec.name).Pairwise (· < ·) := by
  rw [h.names_inputSpecs]
  unfold OrderedMap.keys
  rw [List.pairwise_map]
  exact p.inputs.ordered.imp compareOfLessAndEq_eq_lt.1

theorem names_outputSpecs :
    p.outputSpecs.map TensorSpec.name = Provider.requested p.model.config p.header := by
  rw [outputSpecs_eq, List.map_map]
  exact h.requested

theorem nodup_outputSpecs : (p.outputSpecs.map TensorSpec.name).Nodup := by
  rw [outputSpecs_eq, List.map_map]
  exact h.distinct

theorem mem_outputSpecs {spec : TensorSpec} (hspec : spec ∈ p.outputSpecs) :
    spec ∈ p.model.config.outputs := by
  rw [outputSpecs_eq] at hspec
  rcases List.mem_map.1 hspec with ⟨b, hb, rfl⟩
  exact h.output b hb

end Outline.Fits

end Provider

namespace PreparedRequest

variable {registry : Registry} {p : Provider} {request : PreparedRequest}

theorem inputSpecs_of_gather {d : Directory} {tensors : List InputTensor}
    (hprepare : prepare registry p = .ok request)
    (hgather : Execution.gather d request = .ok tensors) :
    tensors.map InputTensor.spec = p.inputSpecs := by
  rcases prepare_eq_ok hprepare with ⟨_, hinputs, _, _, _⟩
  rw [map_of_mapM (g := InputTensor.spec) hgather fun _ _ ht => PreparedInput.spec_of_gather ht]
  exact map_of_mapM (g := PreparedInput.spec) hinputs
    fun _ _ hinput => PreparedInput.spec_of_prepare hinput

theorem outputSpecs_of_prepare (hprepare : prepare registry p = .ok request) :
    request.outputs.map PreparedOutput.spec = p.outputSpecs := by
  rcases prepare_eq_ok hprepare with ⟨_, _, houtputs, _, _⟩
  exact map_of_mapM houtputs fun _ _ houtput => (PreparedOutput.eq_of_prepare houtput).1

end PreparedRequest

theorem OutputSlot.specs_of_isFresh {isRegular : Bool} {slots : List OutputSlot}
    {outputs : List PreparedOutput} (h : List.Forall₂ (IsFresh isRegular) slots outputs) :
    slots.map OutputSlot.spec = outputs.map PreparedOutput.spec := by
  induction h with
  | nil => rfl
  | cons hfirst _ ih => rw [List.map_cons, List.map_cons, hfirst.spec, ih]

namespace Engine

/-!
# From the provider to the batch
-/

/-- A provider that was made at some time and changed since still fits its model, and tells the
changes. -/
theorem Reachable.edited {earlier : Engine} (h : earlier.Reachable) {owner : Nat} {model : String}
    {choice : VersionChoice} {header : RequestHeader} {made : Provider}
    (hmade : earlier.provider owner model choice header = .ok made)
    (changes : List Provider.Edit) :
    (made.edited changes).outline.Fits ∧ (made.edited changes).model = made.model ∧
      (made.edited changes).header = header ∧
      (made.edited changes).Remembers (Provider.sinceReset (made.made changes)) := by
  rcases Provider.fits_of_new (h.sound.tables owner) hmade with ⟨hfits, _, hheader⟩
  have houtline := made.outline_edited changes
  exact ⟨Provider.fits_edited hfits changes, congrArg Provider.Outline.model houtline,
    (congrArg Provider.Outline.header houtline).trans hheader,
    (Provider.remembers_of_new hmade).edited changes⟩

theorem Starts.inputSpecs {start : Engine} {n : Nat} {batch : ExecutionBatch}
    (h : start.Starts n batch) {registry : Registry} {p : Provider}
    (hprepare : PreparedRequest.prepare registry p = .ok (start.submission n).request) :
    batch.inputs.map InputTensor.spec = p.inputSpecs :=
  PreparedRequest.inputSpecs_of_gather hprepare h.gathered

theorem Starts.outputSpecs {start : Engine} {n : Nat} {batch : ExecutionBatch}
    (h : start.Starts n batch) {registry : Registry} {p : Provider}
    (hprepare : PreparedRequest.prepare registry p = .ok (start.submission n).request) :
    batch.outputs.map OutputSlot.spec = p.outputSpecs := by
  rcases h.allocated with ⟨a, events, hallocate⟩
  rcases Execution.allocate_eq_made hallocate with ⟨fresh, hall, hfresh⟩
  rw [hall, List.nil_append, OutputSlot.specs_of_isFresh hfresh]
  exact PreparedRequest.outputSpecs_of_prepare hprepare

/-- The batch that is handed over for an accepted request has been put together since, of what was
prepared when the request was accepted. -/
theorem Moves.handedOver {before e : Engine} (hbefore : before.Reachable)
    {server callback n : Nat} {p : Provider}
    (haccepted : (before.submit server p callback).1 = .ok n)
    (he : Moves (fun _ => True) (before.submit server p callback).2 e) {batch : ExecutionBatch}
    (hentered : (n, batch) ∈ e.entries) : exists start : Engine,
      Moves (fun _ => True) (before.submit server p callback).2 start ∧
      Moves (fun _ => True) start e ∧ start.Starts n batch ∧
      PreparedRequest.prepare (before.server server).registry p =
        .ok (start.submission n).request ∧
      (start.submission n).server = server := by
  rcases submit_enrolled hbefore haccepted with ⟨hlt, hprepare, hserver, hfresh⟩
  rcases he.starts (hfresh batch) hentered with ⟨start, hstart, hrest, hstarts⟩
  have hlasts := (hstart.keepsRequests n hlt).2
  refine ⟨start, hstart, hrest, hstarts, ?_, ?_⟩
  · rw [hlasts]
    exact hprepare
  · rw [hlasts]
    exact hserver

end Engine

end InferenceEngine
