import InferenceEngine.Model.Reconcile
import InferenceEngine.Proofs.OrderedMap

/-!
# Loaded models have valid configurations

Reconciliation loads a version only under a configuration that it has checked, and keeps one
only from a table in which that was so before.  A valid configuration names its tensors apart.
-/

namespace InferenceEngine

/-!
# Valid configurations

The names of all tensors of a valid configuration differ.
-/

theorem ModelConfig.validateTensors_distinct {model : String} {seen : List String}
    {specs : List TensorSpec} (h : validateTensors model seen specs = .ok ()) :
    (specs.map TensorSpec.name).Nodup ∧
      forall name : String, name ∈ seen -> name ∉ specs.map TensorSpec.name := by
  induction specs generalizing seen with
  | nil => exact ⟨List.nodup_nil, fun _ _ hmem => by cases hmem⟩
  | cons spec rest ih =>
      unfold validateTensors at h
      split at h
      · cases h
      · split at h
        · cases h
        · rename_i hfresh
          split at h
          · cases h
          · rcases ih h with ⟨hnodup, hseen⟩
            constructor
            · rw [List.map_cons, List.nodup_cons]
              exact ⟨hseen spec.name List.mem_cons_self, hnodup⟩
            · intro name hname hmem
              rcases List.mem_cons.1 hmem with hhead | hrest
              · rw [hhead] at hname
                exact hfresh hname
              · exact hseen name (List.mem_cons_of_mem _ hname) hrest

theorem ModelConfig.validate_distinct {config : ModelConfig} {strict : Bool}
    (h : config.validate strict = .ok ()) :
    ((config.inputs ++ config.outputs).map TensorSpec.name).Nodup := by
  unfold validate at h
  split at h
  · cases h
  · split at h
    · cases h
    · exact (validateTensors_distinct h).1

/-- Whether a loaded model has a configuration that a server would load. -/
def LoadedModel.IsValid (model : LoadedModel) : Prop :=
  exists strict : Bool, model.config.validate strict = .ok ()

theorem LoadedModel.IsValid.distinct_inputs {model : LoadedModel} (h : model.IsValid) :
    (model.config.inputs.map TensorSpec.name).Nodup := by
  rcases h with ⟨strict, hvalid⟩
  have hall := ModelConfig.validate_distinct hvalid
  rw [List.map_append] at hall
  exact (List.nodup_append.1 hall).1

theorem LoadedModel.IsValid.distinct_outputs {model : LoadedModel} (h : model.IsValid) :
    (model.config.outputs.map TensorSpec.name).Nodup := by
  rcases h with ⟨strict, hvalid⟩
  have hall := ModelConfig.validate_distinct hvalid
  rw [List.map_append] at hall
  exact (List.nodup_append.1 hall).2.1

/-!
# Valid tables
-/

/-- Whether the loaded model of a slot, if it has one, is valid. -/
def VersionSlot.IsValid (slot : VersionSlot) : Prop :=
  forall model, slot.loaded? = some model -> model.IsValid

def ModelEntry.IsValid (entry : ModelEntry) : Prop :=
  forall slot, slot ∈ entry.versions.values -> slot.IsValid

def ModelTable.IsValid (table : ModelTable) : Prop :=
  forall entry, entry ∈ OrderedMap.values table -> entry.IsValid

theorem VersionSlot.isValid_unavailable (cause : Failure) :
    (VersionSlot.unavailable cause).IsValid := by
  intro model h
  cases h

theorem VersionSlot.isValid_ready {model : LoadedModel} :
    (VersionSlot.ready model).IsValid ↔ model.IsValid := by
  constructor
  · intro h
    exact h model rfl
  · intro h other hother
    cases hother
    exact h

theorem ModelTable.isValid_empty : ModelTable.IsValid .empty := by
  intro entry h
  cases h

theorem ModelTable.IsValid.insert {table : ModelTable} (h : table.IsValid) {name : String}
    {entry : ModelEntry} (hentry : entry.IsValid) :
    ModelTable.IsValid (OrderedMap.insert table name entry) := by
  intro other hmem
  rcases OrderedMap.mem_values_insert hmem with hnew | hold
  · rw [hnew]
    exact hentry
  · exact h other hold

theorem ModelTable.IsValid.erase {table : ModelTable} (h : table.IsValid) (name : String) :
    ModelTable.IsValid (OrderedMap.erase table name) := by
  intro other hmem
  exact h other (OrderedMap.mem_values_erase hmem)

/-!
# Resolving
-/

theorem ModelTable.IsValid.of_ready {table : ModelTable} (h : table.IsValid) {name : String}
    {entry : ModelEntry} (hentry : OrderedMap.get? table name = some entry)
    {slot : VersionSlot} (hslot : slot ∈ entry.versions.values) {model : LoadedModel}
    (hmodel : slot.loaded? = some model) : model.IsValid :=
  h entry (OrderedMap.mem_values_of_get? hentry) slot hslot model hmodel

theorem ModelTable.IsValid.resolve {table : ModelTable} (h : table.IsValid) {name : String}
    {choice : VersionChoice} {model : LoadedModel}
    (hresolve : table.resolve name choice = .ok model) : model.IsValid := by
  unfold ModelTable.resolve at hresolve
  split at hresolve
  · cases hresolve
  · rename_i entry hentry
    cases choice with
    | latest =>
        cases hlatest : ModelTable.latest? entry with
        | none => simp [hlatest] at hresolve
        | some found =>
            simp only [hlatest, Except.ok.injEq] at hresolve
            rw [← hresolve]
            rcases List.exists_of_findSome?_eq_some hlatest with ⟨slot, hslot, hmodel⟩
            exact h.of_ready hentry (List.mem_reverse.1 hslot) hmodel
    | specific v =>
        cases hslot : entry.versions.get? v with
        | none => simp [hslot] at hresolve
        | some slot =>
            cases slot with
            | unavailable cause => simp [hslot] at hresolve
            | ready found =>
                simp only [hslot, Except.ok.injEq] at hresolve
                rw [← hresolve]
                exact h.of_ready hentry (OrderedMap.mem_values_of_get? hslot) rfl

/-!
# Reconciling

The table that a scan asks for is valid if the one before was.
-/

namespace Reconcile

variable {factory : BackendFactory}

def KeepsValid (kept? : Int -> Option LoadedModel) : Prop :=
  forall v model, kept? v = some model -> model.IsValid

theorem keepsValid_keptFrom {old : Option ModelEntry}
    (h : forall entry, old = some entry -> entry.IsValid) : KeepsValid (keptFrom old) := by
  intro v model hmodel
  rcases Option.bind_eq_some_iff.1 hmodel with ⟨entry, hold, hslot⟩
  rcases Option.bind_eq_some_iff.1 hslot with ⟨slot, hget, hloaded⟩
  exact h entry hold slot (OrderedMap.mem_values_of_get? hget) model hloaded

theorem isValid_version {config : ModelConfig} {strict : Bool}
    (hconfig : config.validate strict = .ok ()) {kept? : Int -> Option LoadedModel}
    (hkept : KeepsValid kept?) (next : Nat) (v : Int) :
    (version factory config kept? next v).value.IsValid := by
  unfold version
  split
  · rename_i model hmodel
    exact VersionSlot.isValid_ready.2 (hkept v model hmodel)
  · split
    · exact VersionSlot.isValid_ready.2 ⟨strict, hconfig⟩
    · exact VersionSlot.isValid_unavailable _

theorem isValid_versions {config : ModelConfig} {strict : Bool}
    (hconfig : config.validate strict = .ok ()) {kept? : Int -> Option LoadedModel}
    (hkept : KeepsValid kept?) (next : Nat) (vs : List Int) :
    forall slot, slot ∈ (versions factory config kept? next vs).value.map Prod.snd ->
      slot.IsValid := by
  induction vs generalizing next with
  | nil =>
      intro slot h
      cases h
  | cons v rest ih =>
      intro slot h
      rcases List.mem_cons.1 h with hfirst | hrest
      · rw [hfirst]
        exact isValid_version hconfig hkept next v
      · exact ih _ slot hrest

theorem isValid_model {strict : Bool} {m : RepositoryModel} {old : Option ModelEntry}
    (hold : forall entry, old = some entry -> entry.IsValid) (next : Nat) :
    (model factory strict m old next).value.IsValid := by
  unfold model
  split
  · intro slot h
    have hmem := OrderedMap.mem_values_ofList h
    simp only [List.map_map, List.mem_map, Function.comp_apply] at hmem
    rcases hmem with ⟨v, _, rfl⟩
    exact VersionSlot.isValid_unavailable _
  · rename_i hconfig
    intro slot h
    have hsame : forall entry,
        old.filter (fun entry => entry.config = m.config) = some entry -> entry.IsValid := by
      intro entry hentry
      exact hold entry (Option.filter_eq_some_iff.1 hentry).1
    exact isValid_versions hconfig (keepsValid_keptFrom hsame) next _ slot
      (OrderedMap.mem_values_ofList h)

theorem isValid_models {strict : Bool} (scan : List RepositoryModel)
    {previous table : ModelTable} (hprevious : previous.IsValid) (htable : table.IsValid)
    (next : Nat) :
    (models factory strict previous table next scan).value.1.IsValid := by
  induction scan generalizing previous table next with
  | nil => exact htable
  | cons m rest ih =>
      have hold : forall entry, OrderedMap.get? previous m.config.name = some entry ->
          entry.IsValid := by
        intro entry hentry
        exact hprevious entry (OrderedMap.mem_values_of_get? hentry)
      exact ih (hprevious.erase _) (htable.insert (isValid_model hold next)) _

end Reconcile

theorem ModelTable.IsValid.reconcile {table : ModelTable} (h : table.IsValid)
    (factory : BackendFactory) (strict : Bool) (next : Nat) (scan : List RepositoryModel) :
    (table.reconcile factory strict next scan).value.IsValid :=
  Reconcile.isValid_models scan h ModelTable.isValid_empty next

end InferenceEngine
