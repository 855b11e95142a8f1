import InferenceEngine.Proofs.Models.Validity
import InferenceEngine.Proofs.Verdict

/-!
# What the check of a configuration comes to

The check goes through the tensors one after the other and remembers the names that it has seen.
What it lets pass can be said without any order: all tensors have names of their own, and no
dimension is below minus one.  Only which fault is told, where there are several, depends on the
order.
-/

namespace InferenceEngine

namespace ModelConfig

/-- Whether a configuration has a name, all its tensors have names of their own, and no dimension is
negative but for the one that stands for any size. -/
structure IsSound (config : ModelConfig) : Prop where
  name : config.name ≠ ""
  tensors : forall spec : TensorSpec, spec ∈ config.inputs ++ config.outputs -> spec.name ≠ ""
  distinct : ((config.inputs ++ config.outputs).map TensorSpec.name).Nodup
  dims : forall spec : TensorSpec, spec ∈ config.inputs ++ config.outputs ->
    forall dim : Int, dim ∈ spec.dims -> -1 ≤ dim

/-!
# Tensors
-/

/-- Whether a tensor passes, given the names before it. -/
def Passes (seen : List String) (spec : TensorSpec) : Prop :=
  spec.name ≠ "" ∧ spec.name ∉ seen ∧ forall dim : Int, dim ∈ spec.dims -> -1 ≤ dim

theorem validateTensors_cons_eq_ok_iff {model : String} {seen : List String} {spec : TensorSpec}
    {rest : List TensorSpec} :
    validateTensors model seen (spec :: rest) = .ok () ↔
      Passes seen spec ∧ validateTensors model (spec.name :: seen) rest = .ok () := by
  have hdims : (spec.dims.any fun dim => dim < -1) = false ↔
      forall dim : Int, dim ∈ spec.dims -> -1 ≤ dim := by
    simp
  rw [validateTensors, Passes, ← hdims]
  by_cases hname : spec.name = ""
  · simp [hname]
  · by_cases hseen : spec.name ∈ seen
    · simp [hname, hseen]
    · cases hany : spec.dims.any fun dim => dim < -1 with
      | true => simp [hname, hseen]
      | false => simp [hname, hseen]

theorem validateTensors_eq_ok_iff {model : String} {seen : List String}
    {specs : List TensorSpec} :
    validateTensors model seen specs = .ok () ↔
      (forall spec : TensorSpec, spec ∈ specs -> Passes seen spec) ∧
        (specs.map TensorSpec.name).Nodup := by
  induction specs generalizing seen with
  | nil => simp [validateTensors]
  | cons spec rest ih =>
      rw [validateTensors_cons_eq_ok_iff, ih, List.map_cons, List.nodup_cons]
      constructor
      · rintro ⟨hfirst, hrest, hnodup⟩
        refine ⟨?_, ?_, hnodup⟩
        · intro other hother
          rcases List.mem_cons.1 hother with rfl | hother
          · exact hfirst
          · rcases hrest other hother with ⟨hname, hseen, hdims⟩
            exact ⟨hname, fun hmem => hseen (List.mem_cons_of_mem _ hmem), hdims⟩
        · intro hmem
          rcases List.mem_map.1 hmem with ⟨other, hother, hsame⟩
          exact (hrest other hother).2.1 (hsame ▸ List.mem_cons_self)
      · rintro ⟨hall, hfresh, hnodup⟩
        refine ⟨hall spec List.mem_cons_self, ?_, hnodup⟩
        intro other hother
        rcases hall other (List.mem_cons_of_mem _ hother) with ⟨hname, hseen, hdims⟩
        refine ⟨hname, ?_, hdims⟩
        intro hmem
        rcases List.mem_cons.1 hmem with hsame | hmem
        · exact hfresh (List.mem_map.2 ⟨other, hother, hsame⟩)
        · exact hseen hmem

/-!
# Configurations
-/

theorem validate_eq_ok_iff {config : ModelConfig} {strict : Bool} :
    config.validate strict = .ok () ↔
      config.IsSound ∧ (strict = true -> config.inputs ≠ [] ∧ config.outputs ≠ []) := by
  have hsound : config.IsSound ↔ config.name ≠ "" ∧
      validateTensors config.name [] (config.inputs ++ config.outputs) = .ok () := by
    rw [validateTensors_eq_ok_iff]
    constructor
    · intro h
      exact ⟨h.name, fun spec hspec => ⟨h.tensors spec hspec, by simp, h.dims spec hspec⟩,
        h.distinct⟩
    · rintro ⟨hname, hall, hdistinct⟩
      exact ⟨hname, fun spec hspec => (hall spec hspec).1, hdistinct,
        fun spec hspec => (hall spec hspec).2.2⟩
  have hmissing : (strict && (config.inputs.isEmpty || config.outputs.isEmpty)) = false ↔
      (strict = true -> config.inputs ≠ [] ∧ config.outputs ≠ []) := by
    cases strict <;> simp
  rw [hsound, ← hmissing, validate]
  by_cases hname : config.name = ""
  · simp [hname]
  · cases hempty : strict && (config.inputs.isEmpty || config.outputs.isEmpty) with
    | true => simp [hname]
    | false => simp [hname]

theorem IsSound.of_validate {config : ModelConfig} {strict : Bool}
    (h : config.validate strict = .ok ()) : config.IsSound :=
  (validate_eq_ok_iff.1 h).1

/-!
# Rejections

A rejection is the failure of the first check that does not hold.  Each check has a failure of its
own, and all of them are of one kind.
-/

/-- The checks of tensors, in order, given the names before them: each tensor has a name, which is
not among those before it, and no dimension below minus one. -/
def tensorChecks (model : String) (seen : List String) : List TensorSpec -> List (Bool × Failure)
  | [] => []
  | spec :: rest =>
      (decide (spec.name ≠ ""), .unnamedTensor model) ::
      (decide (spec.name ∉ seen), .repeatedTensor model spec.name) ::
      (spec.dims.all fun dim => decide (-1 ≤ dim), .negativeDimension model spec.name) ::
      tensorChecks model (spec.name :: seen) rest

def checks (config : ModelConfig) (strict : Bool) : List (Bool × Failure) :=
  (decide (config.name ≠ ""), .unnamedModel) ::
  (decide (strict = true -> config.inputs ≠ [] ∧ config.outputs ≠ []),
    .missingTensors config.name) ::
  tensorChecks config.name [] (config.inputs ++ config.outputs)

theorem validateTensors_eq_firstFailure (model : String) (seen : List String)
    (specs : List TensorSpec) :
    validateTensors model seen specs = firstFailure (tensorChecks model seen specs) := by
  induction specs generalizing seen with
  | nil => rfl
  | cons spec rest ih =>
      have hdims : (spec.dims.any fun dim => decide (dim < -1)) =
          !(spec.dims.all fun dim => decide (-1 ≤ dim)) := by
        rw [List.not_all_eq_any_not]
        simp only [← decide_not, Int.not_le]
      rw [validateTensors, tensorChecks, firstFailure_cons, firstFailure_cons, firstFailure_cons,
        ih, hdims]
      by_cases hname : spec.name = ""
      · simp [hname]
      · by_cases hseen : spec.name ∈ seen
        · simp [hname, hseen]
        · cases spec.dims.all fun dim => decide (-1 ≤ dim) <;> simp [hname, hseen]

theorem validate_eq_firstFailure (config : ModelConfig) (strict : Bool) :
    config.validate strict = firstFailure (config.checks strict) := by
  have hmissing : (strict && (config.inputs.isEmpty || config.outputs.isEmpty)) =
      !decide (strict = true -> config.inputs ≠ [] ∧ config.outputs ≠ []) := by
    cases strict with
    | false => simp
    | true =>
        cases config.inputs with
        | nil => simp
        | cons first rest => cases config.outputs <;> simp
  rw [validate, checks, firstFailure_cons, firstFailure_cons, validateTensors_eq_firstFailure,
    hmissing]
  by_cases hname : config.name = ""
  · simp [hname]
  · cases decide (strict = true -> config.inputs ≠ [] ∧ config.outputs ≠ []) <;> simp [hname]

theorem code_of_mem_tensorChecks {model : String} {seen : List String} {specs : List TensorSpec}
    {c : Bool × Failure} (h : c ∈ tensorChecks model seen specs) : c.2.code = .invalidArg := by
  induction specs generalizing seen with
  | nil => cases h
  | cons spec rest ih =>
      rcases List.mem_cons.1 h with hname | h
      · rw [hname]
        rfl
      · rcases List.mem_cons.1 h with hseen | h
        · rw [hseen]
          rfl
        · rcases List.mem_cons.1 h with hdims | h
          · rw [hdims]
            rfl
          · exact ih h

theorem code_of_mem_checks {config : ModelConfig} {strict : Bool} {c : Bool × Failure}
    (h : c ∈ config.checks strict) : c.2.code = .invalidArg := by
  rcases List.mem_cons.1 h with hname | h
  · rw [hname]
    rfl
  · rcases List.mem_cons.1 h with hmissing | h
    · rw [hmissing]
      rfl
    · exact code_of_mem_tensorChecks h

theorem validate_eq_error {config : ModelConfig} {strict : Bool} {failure : Failure}
    (h : config.validate strict = .error failure) :
    failure.code = .invalidArg ∧ (false, failure) ∈ config.checks strict := by
  rw [validate_eq_firstFailure] at h
  have hmem := mem_of_firstFailure h
  exact ⟨code_of_mem_checks hmem, hmem⟩

/-!
# Rearranging tensors
-/

def withTensors (config : ModelConfig) (inputs outputs : List TensorSpec) : ModelConfig :=
  { config with inputs := inputs, outputs := outputs }

theorem IsSound.perm {config : ModelConfig} (h : config.IsSound) {inputs outputs : List TensorSpec}
    (hinputs : inputs.Perm config.inputs) (houtputs : outputs.Perm config.outputs) :
    (config.withTensors inputs outputs).IsSound := by
  have hall : (inputs ++ outputs).Perm (config.inputs ++ config.outputs) :=
    hinputs.append houtputs
  constructor
  · exact h.name
  · intro spec hspec
    exact h.tensors spec (hall.mem_iff.1 hspec)
  · exact (hall.map TensorSpec.name).nodup_iff.2 h.distinct
  · intro spec hspec
    exact h.dims spec (hall.mem_iff.1 hspec)

theorem validate_perm {config : ModelConfig} (strict : Bool) {inputs outputs : List TensorSpec}
    (hinputs : inputs.Perm config.inputs) (houtputs : outputs.Perm config.outputs) :
    (config.withTensors inputs outputs).validate strict = .ok () ↔
      config.validate strict = .ok () := by
  have hfilled : inputs ≠ [] ∧ outputs ≠ [] ↔ config.inputs ≠ [] ∧ config.outputs ≠ [] := by
    rw [← List.length_pos_iff, ← List.length_pos_iff, hinputs.length_eq, houtputs.length_eq,
      List.length_pos_iff, List.length_pos_iff]
  rw [validate_eq_ok_iff, validate_eq_ok_iff]
  constructor
  · intro h
    constructor
    · exact h.1.perm hinputs.symm houtputs.symm
    · intro hstrict
      exact hfilled.1 (h.2 hstrict)
  · intro h
    constructor
    · exact h.1.perm hinputs houtputs
    · intro hstrict
      exact hfilled.2 (h.2 hstrict)

/-- Tensors in another order are accepted or rejected with the same kind of failure. -/
theorem code_validate_perm {config : ModelConfig} {strict : Bool} {inputs outputs : List TensorSpec}
    (hinputs : inputs.Perm config.inputs) (houtputs : outputs.Perm config.outputs) :
    ((config.withTensors inputs outputs).validate strict).mapError Failure.code =
      (config.validate strict).mapError Failure.code := by
  have hsame := validate_perm strict hinputs houtputs
  cases hother : (config.withTensors inputs outputs).validate strict with
  | ok => rw [hsame.1 hother]
  | error failure =>
      cases hthis : config.validate strict with
      | ok =>
          rw [hsame.2 hthis] at hother
          cases hother
      | error first =>
          have hcodes : failure.code = first.code :=
            (validate_eq_error hother).1.trans (validate_eq_error hthis).1.symm
          exact congrArg Except.error hcodes

/-- A configuration is accepted exactly if it has a name, all its tensors have names of their own
and no dimension is below minus one, and strictly only if there are inputs and outputs.  Otherwise
the first check that does not hold is told, always as an invalid argument.  How the inputs and how
the outputs are ordered does not matter, and what is accepted strictly is accepted in any case. -/
theorem accepted_in_any_order (config : ModelConfig) (strict : Bool) :
    (config.validate strict = .ok () ↔
      config.name ≠ "" ∧
      (strict = true -> config.inputs ≠ [] ∧ config.outputs ≠ []) ∧
      (forall spec : TensorSpec, spec ∈ config.inputs ++ config.outputs -> spec.name ≠ "") ∧
      ((config.inputs ++ config.outputs).map TensorSpec.name).Nodup ∧
      forall spec : TensorSpec, spec ∈ config.inputs ++ config.outputs ->
        forall dim : Int, dim ∈ spec.dims -> ¬ dim < -1) ∧
    config.validate strict = firstFailure (config.checks strict) ∧
    (forall failure : Failure, config.validate strict = .error failure ->
      failure.code = .invalidArg ∧ (false, failure) ∈ config.checks strict) ∧
    (forall inputs outputs : List TensorSpec, inputs.Perm config.inputs ->
      outputs.Perm config.outputs ->
      ((config.withTensors inputs outputs).validate strict).mapError Failure.code =
        (config.validate strict).mapError Failure.code) ∧
    (config.validate true = .ok () -> config.validate false = .ok ()) := by
  constructor
  · rw [validate_eq_ok_iff]
    constructor
    · intro h
      refine ⟨h.1.name, h.2, h.1.tensors, h.1.distinct, ?_⟩
      intro spec hspec dim hdim
      exact Int.not_lt.2 (h.1.dims spec hspec dim hdim)
    · intro h
      rcases h with ⟨hname, hfilled, htensors, hdistinct, hdims⟩
      refine ⟨⟨hname, htensors, hdistinct, ?_⟩, hfilled⟩
      intro spec hspec dim hdim
      exact Int.not_lt.1 (hdims spec hspec dim hdim)
  · refine ⟨validate_eq_firstFailure config strict, fun _ => validate_eq_error,
      fun _ _ => code_validate_perm, ?_⟩
    intro h
    have hsound := IsSound.of_validate h
    exact validate_eq_ok_iff.2 ⟨hsound, nofun⟩

end ModelConfig

end InferenceEngine
