import InferenceEngine.Proofs.Requests.Providers
import InferenceEngine.Proofs.Requests.Sizes
import InferenceEngine.Proofs.Runs.Reach

/-!
# When a provider is made

A provider is made for a model that a name and a version mean, if the model takes the batch and
all tensors have sizes.  The checks are made in a certain order, and the first one that does not
hold is the failure that is reported.  A provider that is made has a place for each tensor, and
nothing is in it yet.
-/

namespace InferenceEngine

namespace ModelConfig

variable (config : ModelConfig) (header : RequestHeader)

/-- The outputs that are produced: those that the header names, in its order, or all of them. -/
def produced : List TensorSpec :=
  if header.outputs.isEmpty then config.outputs else header.outputs.filterMap config.output?

/-- Whether a model takes requests with a certain header. -/
structure Takes : Prop where
  batch : 1 ≤ header.batchSize ∧ header.batchSize ≤ max 1 config.maxBatchSize
  inputs : forall spec, spec ∈ config.inputs -> spec.IsSized header.batchSize
  produced : forall spec, spec ∈ config.produced header -> spec.IsSized header.batchSize
  declared : forall name, name ∈ header.outputs -> name ∈ config.outputs.map TensorSpec.name
  once : header.outputs.Nodup

def batchChecks (batch : Nat) : List (Bool × Failure) :=
  [(decide (1 ≤ batch), .emptyBatch),
    (decide (config.maxBatchSize = 0 -> batch ≤ 1), .noBatching config.name),
    (decide (config.maxBatchSize ≠ 0 -> batch ≤ config.maxBatchSize),
      .batchTooBig batch config.maxBatchSize config.name)]

/-- The checks of outputs that are asked for by name after others: each is declared, has not been
asked for before, and has a size. -/
def namedChecks (batch : Nat) (before : List String) : List String -> List (Bool × Failure)
  | [] => []
  | name :: rest =>
      ((config.output? name).isSome, .unknownOutput config.name name) ::
      (decide (name ∉ before), .repeatedOutput name) ::
      ((config.output? name).toList.flatMap (fun spec => spec.sizeChecks batch) ++
        namedChecks batch (name :: before) rest)

def outputChecks : List (Bool × Failure) :=
  if header.outputs.isEmpty then
    config.outputs.flatMap fun spec => spec.sizeChecks header.batchSize
  else config.namedChecks header.batchSize [] header.outputs

/-- All checks that are made for a header, in order: of the batch, of the inputs as they are
declared, and of the outputs. -/
def makingChecks : List (Bool × Failure) :=
  config.batchChecks header.batchSize ++
    (config.inputs.flatMap (fun spec => spec.sizeChecks header.batchSize) ++
      config.outputChecks header)

/-!
# What the checks amount to

All checks hold for the headers that a model takes.
-/

variable {config header}

theorem isSome_output?_iff {name : String} :
    (config.output? name).isSome = true ↔ name ∈ config.outputs.map TensorSpec.name := by
  unfold output?
  rw [List.find?_isSome, List.mem_map]
  simp

theorem batchChecks_hold_iff {batch : Nat} :
    (forall c, c ∈ config.batchChecks batch -> c.1 = true) ↔
      1 ≤ batch ∧ batch ≤ max 1 config.maxBatchSize := by
  unfold batchChecks
  simp only [List.forall_mem_cons, decide_eq_true_eq, List.not_mem_nil, false_imp_iff,
    implies_true, and_true]
  omega

theorem flatMap_sizeChecks_hold_iff {batch : Nat} {specs : List TensorSpec} :
    (forall c, c ∈ specs.flatMap (fun spec => spec.sizeChecks batch) -> c.1 = true) ↔
      forall spec, spec ∈ specs -> spec.IsSized batch := by
  rw [List.forall_mem_flatMap]
  constructor
  · intro h spec hspec
    exact TensorSpec.sizeChecks_hold_iff.1 (h spec hspec)
  · intro h spec hspec
    exact TensorSpec.sizeChecks_hold_iff.2 (h spec hspec)

theorem namedChecks_hold_iff {batch : Nat} {before names : List String} :
    (forall c, c ∈ config.namedChecks batch before names -> c.1 = true) ↔
      (forall name, name ∈ names -> name ∈ config.outputs.map TensorSpec.name) ∧
        (forall spec, spec ∈ names.filterMap config.output? -> spec.IsSized batch) ∧
        names.Nodup ∧ forall name, name ∈ names -> name ∉ before := by
  induction names generalizing before with
  | nil => simp [namedChecks]
  | cons name rest ih =>
      unfold namedChecks
      rw [List.forall_mem_cons, List.forall_mem_cons, List.forall_mem_append,
        flatMap_sizeChecks_hold_iff, ih, isSome_output?_iff, decide_eq_true_eq,
        List.forall_mem_cons, List.nodup_cons, List.forall_mem_cons]
      have hspecs : (forall spec, spec ∈ (name :: rest).filterMap config.output? ->
          spec.IsSized batch) ↔
          (forall spec, spec ∈ (config.output? name).toList -> spec.IsSized batch) ∧
            forall spec, spec ∈ rest.filterMap config.output? -> spec.IsSized batch := by
        rw [← List.forall_mem_append]
        cases hspec : config.output? name with
        | none => rw [List.filterMap_cons_none hspec, Option.toList_none, List.nil_append]
        | some spec =>
            rw [List.filterMap_cons_some hspec, Option.toList_some, List.singleton_append]
      have hseen : (forall other, other ∈ rest -> other ∉ name :: before) ↔
          name ∉ rest ∧ forall other, other ∈ rest -> other ∉ before := by
        constructor
        · intro h
          constructor
          · intro hname
            exact h name hname List.mem_cons_self
          · intro other hother hbefore
            exact h other hother (List.mem_cons_of_mem _ hbefore)
        · rintro ⟨hname, h⟩ other hother hmem
          rcases List.mem_cons.1 hmem with rfl | hbefore
          · exact hname hother
          · exact h other hother hbefore
      rw [hspecs, hseen]
      constructor
      · rintro ⟨hdeclared, hfresh, hsized, hothers, hsizes, hdistinct, hnew, hunseen⟩
        exact ⟨⟨hdeclared, hothers⟩, ⟨hsized, hsizes⟩, ⟨hnew, hdistinct⟩, hfresh, hunseen⟩
      · rintro ⟨⟨hdeclared, hothers⟩, ⟨hsized, hsizes⟩, ⟨hnew, hdistinct⟩, hfresh, hunseen⟩
        exact ⟨hdeclared, hfresh, hsized, hothers, hsizes, hdistinct, hnew, hunseen⟩

theorem outputChecks_hold_iff :
    (forall c, c ∈ config.outputChecks header -> c.1 = true) ↔
      (forall name, name ∈ header.outputs -> name ∈ config.outputs.map TensorSpec.name) ∧
        (forall spec, spec ∈ config.produced header -> spec.IsSized header.batchSize) ∧
        header.outputs.Nodup := by
  unfold outputChecks produced
  split
  · rename_i hall
    rw [List.isEmpty_iff.1 hall, flatMap_sizeChecks_hold_iff]
    simp
  · rw [namedChecks_hold_iff]
    simp

theorem makingChecks_hold_iff :
    (forall c, c ∈ config.makingChecks header -> c.1 = true) ↔ config.Takes header := by
  unfold makingChecks
  rw [List.forall_mem_append, List.forall_mem_append, batchChecks_hold_iff,
    flatMap_sizeChecks_hold_iff, outputChecks_hold_iff]
  constructor
  · rintro ⟨hbatch, hinputs, hdeclared, hproduced, honce⟩
    exact ⟨hbatch, hinputs, hproduced, hdeclared, honce⟩
  · rintro ⟨hbatch, hinputs, hproduced, hdeclared, honce⟩
    exact ⟨hbatch, hinputs, hdeclared, hproduced, honce⟩

/-!
# What is reported
-/

theorem code_of_mem_batchChecks {batch : Nat} {failure : Failure}
    (h : (false, failure) ∈ config.batchChecks batch) : failure.code = .invalidArg := by
  unfold batchChecks at h
  rcases List.mem_cons.1 h with hempty | h
  · cases (Prod.mk.inj hempty).2
    rfl
  · rcases List.mem_cons.1 h with hsingle | h
    · cases (Prod.mk.inj hsingle).2
      rfl
    · cases (Prod.mk.inj (List.mem_singleton.1 h)).2
      rfl

theorem code_of_mem_flatMap {batch : Nat} {specs : List TensorSpec} {failure : Failure}
    (h : (false, failure) ∈ specs.flatMap fun spec => spec.sizeChecks batch) :
    failure.code = .invalidArg ∨ exists spec : TensorSpec,
      spec ∈ specs ∧ -1 ∈ spec.dims ∧ failure = .variableDimension spec.name := by
  rcases List.mem_flatMap.1 h with ⟨spec, hspec, hmem⟩
  rcases TensorSpec.code_of_mem_sizeChecks hmem with hcode | ⟨hdims, hfailure⟩
  · exact .inl hcode
  · exact .inr ⟨spec, hspec, hdims, hfailure⟩

theorem code_of_mem_namedChecks {batch : Nat} {before names : List String} {failure : Failure}
    (h : (false, failure) ∈ config.namedChecks batch before names) :
    failure.code = .invalidArg ∨ exists spec : TensorSpec,
      spec ∈ names.filterMap config.output? ∧ -1 ∈ spec.dims ∧
        failure = .variableDimension spec.name := by
  induction names generalizing before with
  | nil => cases h
  | cons name rest ih =>
      unfold namedChecks at h
      rcases List.mem_cons.1 h with hunknown | h
      · cases (Prod.mk.inj hunknown).2
        exact .inl rfl
      · rcases List.mem_cons.1 h with hrepeated | h
        · cases (Prod.mk.inj hrepeated).2
          exact .inl rfl
        · rcases List.mem_append.1 h with hsize | hrest
          · rcases code_of_mem_flatMap hsize with hcode | ⟨spec, hspec, hwrong⟩
            · exact .inl hcode
            · right
              refine ⟨spec, List.mem_filterMap.2 ⟨name, List.mem_cons_self, ?_⟩, hwrong⟩
              exact Option.mem_toList.1 hspec
          · rcases ih hrest with hcode | ⟨spec, hspec, hwrong⟩
            · exact .inl hcode
            · rcases List.mem_filterMap.1 hspec with ⟨other, hother, houtput⟩
              right
              exact ⟨spec, List.mem_filterMap.2 ⟨other, List.mem_cons_of_mem _ hother, houtput⟩,
                hwrong⟩

theorem code_of_mem_outputChecks {failure : Failure}
    (h : (false, failure) ∈ config.outputChecks header) :
    failure.code = .invalidArg ∨ exists spec : TensorSpec,
      spec ∈ config.produced header ∧ -1 ∈ spec.dims ∧
        failure = .variableDimension spec.name := by
  unfold outputChecks at h
  unfold produced
  split at h
  · rename_i hall
    rw [if_pos hall]
    exact code_of_mem_flatMap h
  · rename_i hnamed
    rw [if_neg hnamed]
    exact code_of_mem_namedChecks h

/-- Whatever is wrong with a header is an invalid argument, unless the batch is taken and a
dimension of a tensor varies. -/
theorem code_of_makingChecks {failure : Failure}
    (h : firstFailure (config.makingChecks header) = .error failure) :
    failure.code = .invalidArg ∨
      (1 ≤ header.batchSize ∧ header.batchSize ≤ max 1 config.maxBatchSize) ∧
        exists spec : TensorSpec, (spec ∈ config.inputs ∨ spec ∈ config.produced header) ∧
          -1 ∈ spec.dims ∧ failure = .variableDimension spec.name := by
  unfold makingChecks at h
  rw [firstFailure_append] at h
  cases hbatch : firstFailure (config.batchChecks header.batchSize) with
  | error other =>
      rw [hbatch] at h
      cases h
      exact .inl (code_of_mem_batchChecks (mem_of_firstFailure hbatch))
  | ok _ =>
      rw [hbatch] at h
      rcases List.mem_append.1 (mem_of_firstFailure h) with hinput | houtput
      · rcases code_of_mem_flatMap hinput with hcode | ⟨spec, hspec, hwrong⟩
        · exact .inl hcode
        · exact .inr ⟨batchChecks_hold_iff.1 (firstFailure_eq_ok_iff.1 hbatch), spec, .inl hspec,
            hwrong⟩
      · rcases code_of_mem_outputChecks houtput with hcode | ⟨spec, hspec, hwrong⟩
        · exact .inl hcode
        · exact .inr ⟨batchChecks_hold_iff.1 (firstFailure_eq_ok_iff.1 hbatch), spec, .inr hspec,
            hwrong⟩

end ModelConfig

namespace InputBinding

/-- An input that has been given nothing. -/
def unbound (batch : Nat) (spec : TensorSpec) : InputBinding :=
  ⟨spec, spec.batchSize batch, .buffers []⟩

end InputBinding

namespace OutputBinding

def unbound (batch : Nat) (spec : TensorSpec) : OutputBinding :=
  ⟨spec, spec.batchSize batch, none⟩

end OutputBinding

namespace Provider

/-- What a provider is when it has just been made for a model. -/
structure IsUnbound (p : Provider) (server : Nat) (model : LoadedModel) (header : RequestHeader) :
    Prop where
  server_eq : p.server = server
  model_eq : p.model = model
  header_eq : p.header = header
  inputs : p.inputs.toList.Perm
    (model.config.inputs.map fun spec => (spec.name, .unbound header.batchSize spec))
  outputs : p.outputs = (model.config.produced header).map (.unbound header.batchSize)

/-!
# Making as a sequence of checks

Once a model is found, its checks decide.
-/

variable {config : ModelConfig} {header : RequestHeader} {batch : Nat}

theorem checkBatch_eq_firstFailure (config : ModelConfig) (batch : Nat) :
    checkBatch config batch = firstFailure (config.batchChecks batch) := by
  unfold checkBatch ModelConfig.batchChecks
  simp only [firstFailure_cons, firstFailure_nil, decide_eq_true_eq]
  split_ifs <;> first | rfl | omega

theorem verdict_bindInput (batch : Nat) (spec : TensorSpec) :
    verdict (bindInput batch spec) = firstFailure (spec.sizeChecks batch) := by
  rw [← TensorSpec.verdict_batchByteSize]
  unfold bindInput
  cases spec.batchByteSize batch <;> rfl

theorem verdict_bindOutput (batch : Nat) (spec : TensorSpec) :
    verdict (bindOutput batch spec) = firstFailure (spec.sizeChecks batch) := by
  rw [← TensorSpec.verdict_batchByteSize]
  unfold bindOutput
  cases spec.batchByteSize batch <;> rfl

theorem verdict_bindNamed (config : ModelConfig) (batch : Nat) (before names : List String) :
    verdict (bindNamed config batch before names) =
      firstFailure (config.namedChecks batch before names) := by
  induction names generalizing before with
  | nil => rfl
  | cons name rest ih =>
      unfold bindNamed ModelConfig.namedChecks
      rw [firstFailure_cons, firstFailure_cons, firstFailure_append]
      cases config.output? name with
      | none => rfl
      | some spec =>
          by_cases hseen : name ∈ before
          · simp [hseen, verdict, Except.map]
          · -- The output is bound before the others are looked at, so its size is checked first.
            simp only [Option.isSome_some, if_true, hseen, not_false_iff,
              decide_true, Option.toList_some, List.flatMap_cons, List.flatMap_nil,
              List.append_nil]
            rw [← verdict_bindOutput, ← ih]
            apply verdict_bind
            intro output _
            cases bindNamed config batch (name :: before) rest <;> rfl

theorem verdict_bindOutputs (config : ModelConfig) (header : RequestHeader) :
    verdict (bindOutputs config header) = firstFailure (config.outputChecks header) := by
  unfold bindOutputs ModelConfig.outputChecks
  split
  · exact verdict_mapM (verdict_bindOutput header.batchSize) _
  · exact verdict_bindNamed config header.batchSize [] header.outputs

theorem verdict_new {server : Nat} {table : ModelTable} {name : String} {choice : VersionChoice}
    {model : LoadedModel} (h : table.resolve name choice = .ok model) :
    verdict (Provider.new server table name choice header) =
      firstFailure (model.config.makingChecks header) := by
  unfold Provider.new ModelConfig.makingChecks
  rw [h, firstFailure_append, firstFailure_append, ← checkBatch_eq_firstFailure,
    ← verdict_mapM (verdict_bindInput header.batchSize), ← verdict_bindOutputs]
  change verdict (checkBatch model.config header.batchSize >>= _) = _
  refine (verdict_bind ?_).trans (by rw [verdict_unit])
  intro _ _
  apply verdict_bind
  intro inputs _
  cases bindOutputs model.config header <;> rfl

/-!
# What is made
-/

theorem bindInput_eq_unbound {spec : TensorSpec} {e : String × InputBinding}
    (h : bindInput batch spec = .ok e) : e = (spec.name, .unbound batch spec) := by
  unfold bindInput at h
  rcases bind_eq_ok h with ⟨size, hsize, hentry⟩
  rw [TensorSpec.batchByteSize_eq_ok hsize] at hentry
  exact (Except.ok.inj hentry).symm

theorem bindOutput_eq_unbound {spec : TensorSpec} {b : OutputBinding}
    (h : bindOutput batch spec = .ok b) : b = .unbound batch spec := by
  unfold bindOutput at h
  rcases bind_eq_ok h with ⟨size, hsize, hbinding⟩
  rw [TensorSpec.batchByteSize_eq_ok hsize] at hbinding
  exact (Except.ok.inj hbinding).symm

theorem bindNamed_eq_unbound {before names : List String} {bindings : List OutputBinding}
    (h : bindNamed config batch before names = .ok bindings) :
    bindings = (names.filterMap config.output?).map (.unbound batch) := by
  induction names generalizing before bindings with
  | nil =>
      cases h
      rfl
  | cons name rest ih =>
      unfold bindNamed at h
      cases hspec : config.output? name with
      | none =>
          rw [hspec] at h
          cases h
      | some spec =>
          simp only [hspec] at h
          split at h
          · cases h
          · rcases bind_eq_ok h with ⟨output, houtput, hmore⟩
            rcases bind_eq_ok hmore with ⟨others, hothers, hall⟩
            cases hall
            rw [List.filterMap_cons_some hspec, List.map_cons, ← ih hothers,
              bindOutput_eq_unbound houtput]

theorem bindOutputs_eq_unbound {bindings : List OutputBinding}
    (h : bindOutputs config header = .ok bindings) :
    bindings = (config.produced header).map (.unbound header.batchSize) := by
  unfold bindOutputs at h
  unfold ModelConfig.produced
  split at h
  · rename_i hall
    rw [if_pos hall]
    have hmap := map_of_mapM (g := id) (k := OutputBinding.unbound header.batchSize) h
      fun spec b hb => bindOutput_eq_unbound hb
    rwa [List.map_id] at hmap
  · rename_i hnamed
    rw [if_neg hnamed]
    exact bindNamed_eq_unbound h

theorem isUnbound_of_new {server : Nat} {table : ModelTable} {name : String}
    {choice : VersionChoice} {p : Provider} (htable : table.IsValid)
    (h : Provider.new server table name choice header = .ok p) :
    p.IsUnbound server p.model header := by
  have hvalid : p.model.IsValid := htable.resolve (resolve_of_new h)
  unfold Provider.new at h
  rcases bind_eq_ok h with ⟨model, _, hrest⟩
  rcases bind_eq_ok hrest with ⟨_, _, hrest⟩
  rcases bind_eq_ok hrest with ⟨inputs, hinputs, hrest⟩
  rcases bind_eq_ok hrest with ⟨outputs, houtputs, hmade⟩
  cases hmade
  have hentries := map_of_mapM (g := id)
    (k := fun spec : TensorSpec => (spec.name, InputBinding.unbound header.batchSize spec)) hinputs
    fun spec e he => bindInput_eq_unbound he
  rw [List.map_id] at hentries
  refine ⟨rfl, rfl, rfl, ?_, bindOutputs_eq_unbound houtputs⟩
  change (OrderedMap.ofList inputs).toList.Perm _
  rw [hentries]
  apply OrderedMap.toList_ofList_perm
  simpa [Function.comp_def] using hvalid.distinct_inputs

theorem takes_of_new {server : Nat} {table : ModelTable} {name : String} {choice : VersionChoice}
    {p : Provider} (h : Provider.new server table name choice header = .ok p) :
    p.model.config.Takes header := by
  rw [← ModelConfig.makingChecks_hold_iff, ← firstFailure_eq_ok_iff,
    ← verdict_new (resolve_of_new h), h]
  rfl

/-!
# What is made fits its model

A name and a version that mean no model are not found or not available.
-/

theorem mem_outputs_of_produced {spec : TensorSpec} (h : spec ∈ config.produced header) :
    spec ∈ config.outputs := by
  unfold ModelConfig.produced at h
  split at h
  · exact h
  · rcases List.mem_filterMap.1 h with ⟨name, _, hspec⟩
    exact List.mem_of_find?_eq_some hspec

theorem names_filterMap_output? {names : List String}
    (h : forall name, name ∈ names -> name ∈ config.outputs.map TensorSpec.name) :
    (names.filterMap config.output?).map TensorSpec.name = names := by
  induction names with
  | nil => rfl
  | cons name rest ih =>
      rcases List.forall_mem_cons.1 h with ⟨hfirst, hrest⟩
      rcases Option.isSome_iff_exists.1 (ModelConfig.isSome_output?_iff.2 hfirst) with
        ⟨spec, hspec⟩
      have hname : spec.name = name := by simpa using List.find?_some hspec
      rw [List.filterMap_cons_some hspec, List.map_cons, ih hrest, hname]

theorem names_produced (h : config.Takes header) :
    (config.produced header).map TensorSpec.name = requested config header := by
  unfold ModelConfig.produced requested
  split
  · rfl
  · exact names_filterMap_output? h.declared

theorem nodup_requested {model : LoadedModel} (hvalid : model.IsValid)
    (h : model.config.Takes header) : (requested model.config header).Nodup := by
  unfold requested
  split
  · exact hvalid.distinct_outputs
  · exact h.once

theorem IsUnbound.fits {p : Provider} {server : Nat} (h : p.IsUnbound server p.model header)
    (hvalid : p.model.IsValid) (htakes : p.model.config.Takes header) : p.outline.Fits := by
  have hheader : p.outline.header = header := h.header_eq
  have hentry : forall o, o ∈ p.outline.inputs -> exists spec : TensorSpec,
      spec ∈ p.model.config.inputs ∧ o = (spec.name, spec, spec.batchSize header.batchSize) := by
    intro o ho
    rcases List.mem_map.1 ho with ⟨e, he, rfl⟩
    rcases List.mem_map.1 (h.inputs.mem_iff.1 he) with ⟨spec, hspec, rfl⟩
    exact ⟨spec, hspec, rfl⟩
  have hspecs : p.outline.inputs.map (fun o => o.2.1) = p.inputs.toList.map fun e => e.2.spec :=
    List.map_map
  have houtputs : p.outline.outputs =
      (p.model.config.produced header).map fun spec => (spec, spec.batchSize header.batchSize) := by
    change p.outputs.map (fun b => (b.spec, b.expected)) = _
    rw [h.outputs, List.map_map]
    rfl
  have hnames : p.outline.outputs.map (fun b => b.1.name) =
      requested p.model.config p.outline.header := by
    rw [houtputs, List.map_map, hheader, ← names_produced htakes]
    rfl
  constructor
  · exact hvalid
  · rw [hspecs, ← List.map_id p.outline.model.config.inputs]
    have hperm := h.inputs.map fun e => e.2.spec
    rw [List.map_map] at hperm
    exact hperm
  · intro o ho
    rcases hentry o ho with ⟨spec, _, rfl⟩
    rfl
  · intro o ho
    rcases hentry o ho with ⟨spec, hspec, rfl⟩
    rw [hheader]
    exact (htakes.inputs spec hspec).batchByteSize
  · exact hnames
  · rw [hnames, hheader]
    exact nodup_requested hvalid htakes
  · intro o ho
    rw [houtputs] at ho
    rcases List.mem_map.1 ho with ⟨spec, hspec, rfl⟩
    exact mem_outputs_of_produced hspec
  · intro o ho
    rw [houtputs] at ho
    rcases List.mem_map.1 ho with ⟨spec, hspec, rfl⟩
    rw [hheader]
    exact (htakes.produced spec hspec).batchByteSize

theorem fits_of_new {server : Nat} {table : ModelTable} {name : String} {choice : VersionChoice}
    {p : Provider} (htable : table.IsValid)
    (h : Provider.new server table name choice header = .ok p) :
    p.outline.Fits ∧ p.server = server ∧ p.header = header := by
  have hunbound := isUnbound_of_new htable h
  exact ⟨hunbound.fits (htable.resolve (resolve_of_new h)) (takes_of_new h), hunbound.server_eq,
    hunbound.header_eq⟩

end Provider

theorem ModelTable.code_of_resolve {table : ModelTable} {name : String} {choice : VersionChoice}
    {failure : Failure} (h : table.resolve name choice = .error failure) :
    failure.code = .notFound ∨ failure.code = .unavailable := by
  unfold resolve at h
  cases hentry : OrderedMap.get? table name with
  | none =>
      rw [hentry] at h
      cases h
      exact .inl rfl
  | some entry =>
      rw [hentry] at h
      cases choice with
      | latest =>
          cases hlatest : latest? entry with
          | none =>
              simp only [hlatest] at h
              cases h
              exact .inr rfl
          | some model =>
              simp only [hlatest] at h
              cases h
      | specific v =>
          simp only at h
          split at h
          · cases h
          · cases h
            exact .inr rfl
          · cases h
            exact .inl rfl

namespace Engine

/-- A provider is made if and only if the name and the version mean a model, the model takes the
size of the batch, every declared input and every output to be produced has a size, and every
output that is asked for is declared and asked for once.  Else the failure is that of finding the
model, or of the first check that does not hold: of the batch, then of the inputs as they are
declared, then of the outputs in order.  A provider that is made has one empty input for each
declared one and one unbound output for each that is to be produced, and the size of each is the
exact product. -/
theorem provider_iff_takes (ops : List Operation) (server : Nat) (name : String) (v : Int)
    (header : RequestHeader) :
    (forall failure : Failure,
      ((reached ops).server server).table.resolve name (.ofInt v) = .error failure ->
        (reached ops).provider server name (.ofInt v) header = .error failure ∧
          (failure.code = .notFound ∨ failure.code = .unavailable)) ∧
    forall model : LoadedModel,
      ((reached ops).server server).table.resolve name (.ofInt v) = .ok model ->
        ((exists p : Provider, (reached ops).provider server name (.ofInt v) header = .ok p) ↔
          model.config.Takes header) ∧
        (forall p : Provider, (reached ops).provider server name (.ofInt v) header = .ok p ->
          p.IsUnbound server model header) ∧
        forall failure : Failure,
          (reached ops).provider server name (.ofInt v) header = .error failure ->
            firstFailure (model.config.makingChecks header) = .error failure ∧
              (failure.code = .invalidArg ∨
                (1 ≤ header.batchSize ∧ header.batchSize ≤ max 1 model.config.maxBatchSize) ∧
                  exists spec : TensorSpec,
                    (spec ∈ model.config.inputs ∨ spec ∈ model.config.produced header) ∧
                      -1 ∈ spec.dims ∧ failure = .variableDimension spec.name) := by
  constructor
  · intro failure hfailure
    constructor
    · unfold provider Provider.new
      rw [hfailure]
      rfl
    · exact ModelTable.code_of_resolve hfailure
  · intro model hmodel
    have hverdict : verdict ((reached ops).provider server name (.ofInt v) header) =
        firstFailure (model.config.makingChecks header) := Provider.verdict_new hmodel
    have htakes : (forall c, c ∈ model.config.makingChecks header -> c.1 = true) ↔
        model.config.Takes header := ModelConfig.makingChecks_hold_iff
    constructor
    · rw [← htakes, ← firstFailure_eq_ok_iff, ← hverdict]
      constructor
      · rintro ⟨p, hp⟩
        rw [hp]
        rfl
      · exact verdict_eq_ok
    · constructor
      · intro p hp
        have hsame : p.model = model :=
          Except.ok.inj ((Provider.resolve_of_new hp).symm.trans hmodel)
        rw [← hsame]
        exact Provider.isUnbound_of_new ((reachable_reached ops).sound.tables server) hp
      · intro failure hfailure
        rw [hfailure] at hverdict
        exact ⟨hverdict.symm, ModelConfig.code_of_makingChecks hverdict.symm⟩

end Engine

end InferenceEngine
