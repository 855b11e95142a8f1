import InferenceEngine.Proofs.Models.Validity
import InferenceEngine.Proofs.Verdict
import InferenceEngine.Request.Provider

/-!
# What a client does with a provider

A provider is made for a loaded model and then changed: buffers are appended, ranges are bound,
and all of it is taken away again.  No change touches the tensors; the source of an input tells
what has been done to it since everything was last taken away.
-/

namespace InferenceEngine

namespace Provider

inductive Edit where
  | append (input : String) (data : Bytes)
  | bindInput (input : String) (range : HandleRange)
  | bindOutput (output : String) (range : HandleRange)
  | reset

def attempt (p : Provider) : Edit -> Except Failure Provider
  | .append input data => p.append input data
  | .bindInput input range => p.bindInputRange input range
  | .bindOutput output range => p.bindOutputRange output range
  | .reset => .ok p.reset

/-- The provider after a change; one that fails leaves it as it is. -/
def edit (p : Provider) (change : Edit) : Provider :=
  match p.attempt change with
  | .ok changed => changed
  | .error _ => p

def edited (p : Provider) (changes : List Edit) : Provider := changes.foldl edit p

theorem edited_induct {P : Provider -> Prop} {p : Provider}
    (hstep : forall (q : Provider) (change : Edit), P q -> P (q.edit change)) (hp : P p)
    (changes : List Edit) : P (p.edited changes) := by
  induction changes generalizing p with
  | nil => exact hp
  | cons change rest ih => exact ih (hstep p change hp)

/-!
# What a change does
-/

theorem input_eq_ok {p : Provider} {name : String} {binding : InputBinding}
    (h : p.input name = .ok binding) : p.inputs.get? name = some binding := by
  unfold input at h
  split at h
  · cases h
    assumption
  · cases h

theorem append_eq_ok {p q : Provider} {name : String} {data : Bytes}
    (h : p.append name data = .ok q) : exists (binding : InputBinding) (bs : List Bytes),
      p.inputs.get? name = some binding ∧ binding.source = .buffers bs ∧
        q = p.setSource name binding (.buffers (bs ++ [data])) := by
  unfold append at h
  rcases bind_eq_ok h with ⟨binding, hbinding, hsource⟩
  split at hsource
  · rename_i bs hbs
    exact ⟨binding, bs, input_eq_ok hbinding, hbs, (Except.ok.inj hsource).symm⟩
  · cases hsource

theorem bindInputRange_eq_ok {p q : Provider} {name : String} {range : HandleRange}
    (h : p.bindInputRange name range = .ok q) : exists binding : InputBinding,
      p.inputs.get? name = some binding ∧
        (forall bs : List Bytes, binding.source = .buffers bs -> bs = []) ∧
        q = p.setSource name binding (.shared range) := by
  unfold bindInputRange at h
  rcases bind_eq_ok h with ⟨binding, hbinding, hsource⟩
  split at hsource
  · cases hsource
  · rename_i hempty
    refine ⟨binding, input_eq_ok hbinding, ?_, (Except.ok.inj hsource).symm⟩
    intro bs hbs
    cases bs with
    | nil => rfl
    | cons first rest => exact absurd hbs (hempty first rest)

theorem bindOutputRange_eq_ok {p q : Provider} {name : String} {range : HandleRange}
    (h : p.bindOutputRange name range = .ok q) :
    q = { p with outputs := setDestination name range p.outputs } := by
  unfold bindOutputRange at h
  split at h
  · exact (Except.ok.inj h).symm
  · cases h

/-!
# Tensors
-/

/-- What a provider is about, without what it has been given. -/
structure Outline where
  server : Nat
  model : LoadedModel
  header : RequestHeader
  /-- The names, tensors and sizes of the inputs. -/
  inputs : List (String × TensorSpec × Nat)
  /-- The tensors and sizes of the outputs. -/
  outputs : List (TensorSpec × Nat)

def outline (p : Provider) : Outline where
  server := p.server
  model := p.model
  header := p.header
  inputs := p.inputs.toList.map fun e => (e.1, e.2.spec, e.2.expected)
  outputs := p.outputs.map fun b => (b.spec, b.expected)

theorem outline_setSource {p : Provider} {name : String} {binding : InputBinding}
    (h : p.inputs.get? name = some binding) (source : InputSource) :
    (p.setSource name binding source).outline = p.outline := by
  have hinputs : (p.setSource name binding source).inputs.toList.map
      (fun e => (e.1, e.2.spec, e.2.expected)) =
      p.inputs.toList.map fun e => (e.1, e.2.spec, e.2.expected) :=
    OrderedMap.map_toList_insert h rfl
  unfold outline
  rw [hinputs]
  rfl

theorem outline_setDestination (name : String) (range : HandleRange)
    (bindings : List OutputBinding) :
    (setDestination name range bindings).map (fun b => (b.spec, b.expected)) =
      bindings.map fun b => (b.spec, b.expected) := by
  induction bindings with
  | nil => rfl
  | cons binding rest ih =>
      unfold setDestination
      split
      · rfl
      · rw [List.map_cons, List.map_cons, ih]

theorem outline_reset (p : Provider) : p.reset.outline = p.outline := by
  simp [outline, reset, OrderedMap.map]

theorem outline_edit (p : Provider) (change : Edit) : (p.edit change).outline = p.outline := by
  unfold edit
  cases h : p.attempt change with
  | error failure => rfl
  | ok q =>
      cases change with
      | append name data =>
          rcases append_eq_ok h with ⟨binding, bs, hbinding, _, rfl⟩
          exact outline_setSource hbinding _
      | bindInput name range =>
          rcases bindInputRange_eq_ok h with ⟨binding, hbinding, _, rfl⟩
          exact outline_setSource hbinding _
      | bindOutput name range =>
          rw [bindOutputRange_eq_ok h]
          unfold outline
          simp only
          rw [outline_setDestination]
      | reset =>
          cases h
          exact outline_reset p

theorem outline_edited (p : Provider) (changes : List Edit) :
    (p.edited changes).outline = p.outline :=
  edited_induct (P := fun q => q.outline = p.outline)
    (fun q change hq => (outline_edit q change).trans hq) rfl changes

/-!
# Providers and the models that they are made for

The model of a provider is the one that its name meant when it was made.
-/

/-- The names of the outputs that a request asks for: those of its header, or all of them. -/
def requested (config : ModelConfig) (header : RequestHeader) : List String :=
  if header.outputs.isEmpty then config.outputs.map TensorSpec.name else header.outputs

/-- What an outline is when the provider is made for a valid model. -/
structure Outline.Fits (o : Outline) : Prop where
  valid : o.model.IsValid
  declared : (o.inputs.map fun e => e.2.1).Perm o.model.config.inputs
  named : forall e, e ∈ o.inputs -> e.2.1.name = e.1
  inputSize : forall e, e ∈ o.inputs -> e.2.1.batchByteSize o.header.batchSize = .ok e.2.2
  requested : o.outputs.map (fun b => b.1.name) = requested o.model.config o.header
  distinct : (o.outputs.map fun b => b.1.name).Nodup
  output : forall b, b ∈ o.outputs -> b.1 ∈ o.model.config.outputs
  outputSize : forall b, b ∈ o.outputs -> b.1.batchByteSize o.header.batchSize = .ok b.2

theorem resolve_of_new {server : Nat} {table : ModelTable} {name : String} {choice : VersionChoice}
    {header : RequestHeader} {p : Provider}
    (h : Provider.new server table name choice header = .ok p) :
    table.resolve name choice = .ok p.model := by
  unfold Provider.new at h
  rcases bind_eq_ok h with ⟨model, hmodel, hrest⟩
  rcases bind_eq_ok hrest with ⟨_, _, hrest⟩
  rcases bind_eq_ok hrest with ⟨inputs, _, hrest⟩
  rcases bind_eq_ok hrest with ⟨outputs, _, hmade⟩
  cases hmade
  exact hmodel

theorem fits_edited {p : Provider} (h : p.outline.Fits) (changes : List Edit) :
    (p.edited changes).outline.Fits := by
  rw [outline_edited]
  exact h

/-- Under the name of each declared input there is that input, with the size of the batch. -/
theorem Outline.Fits.input {p : Provider} (h : p.outline.Fits) {spec : TensorSpec}
    (hspec : spec ∈ p.model.config.inputs) : exists binding : InputBinding,
      p.inputs.get? spec.name = some binding ∧ binding.spec = spec ∧
        spec.batchByteSize p.header.batchSize = .ok binding.expected := by
  have hmem := h.declared.mem_iff.2 hspec
  rcases List.mem_map.1 hmem with ⟨o, ho, rfl⟩
  have hname := h.named o ho
  have hsize := h.inputSize o ho
  rcases List.mem_map.1 ho with ⟨e, he, rfl⟩
  refine ⟨e.2, ?_, rfl, hsize⟩
  apply OrderedMap.get?_eq_some_iff.2
  rw [hname]
  exact he

end Provider

end InferenceEngine
