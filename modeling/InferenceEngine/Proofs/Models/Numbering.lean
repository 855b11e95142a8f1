import InferenceEngine.Proofs.OrderedMap
import InferenceEngine.Model.Reconcile

/-!
# The numbers of loaded models

A loaded model has a number under which its counters are kept.  Nothing else hangs on it: two
tables that differ only in numbers are reconciled to two tables that differ only in numbers, with
the same report and the same actions, wherever the new numbers begin.
-/

namespace InferenceEngine

/-!
# Leaving the numbers out
-/

def LoadedModel.unnumbered (model : LoadedModel) : LoadedModel := { model with number := 0 }

def VersionSlot.unnumbered : VersionSlot -> VersionSlot
  | ready model => ready model.unnumbered
  | unavailable cause => unavailable cause

def ModelEntry.unnumbered (entry : ModelEntry) : ModelEntry :=
  { entry with versions := entry.versions.map VersionSlot.unnumbered }

def ModelTable.unnumbered (table : ModelTable) : ModelTable :=
  OrderedMap.map ModelEntry.unnumbered table

theorem VersionSlot.loaded?_unnumbered (slot : VersionSlot) :
    slot.unnumbered.loaded? = slot.loaded?.map LoadedModel.unnumbered := by
  cases slot <;> rfl

@[simp] theorem VersionSlot.isReady_unnumbered (slot : VersionSlot) :
    slot.unnumbered.isReady = slot.isReady := by
  cases slot <;> rfl

theorem ModelEntry.readyCount_unnumbered (entry : ModelEntry) :
    entry.unnumbered.readyCount = entry.readyCount := by
  simp [readyCount, unnumbered, List.countP_map, Function.comp_def]

theorem ModelTable.readyCount_unnumbered (table : ModelTable) :
    table.unnumbered.readyCount = table.readyCount := by
  unfold readyCount unnumbered ModelEntry.unnumbered
  rw [OrderedMap.values_map, List.flatMap_map]
  simp only [OrderedMap.values_map]
  rw [← List.map_flatMap, List.countP_map]
  congr 1
  funext slot
  exact slot.isReady_unnumbered

/-- Whether two outcomes are equal once something is left out of their values, and apart from where
the next numbers begin. -/
structure Outcome.Matches {α β : Type} (forget : α -> β) (o o' : Outcome α) : Prop where
  value : forget o.value = forget o'.value
  report : o.report = o'.report
  actions : o.actions = o'.actions

/-!
# One model

Which entries are given on is decided without the numbers.
-/

namespace Reconcile

theorem keptFrom_unnumbered (old : Option ModelEntry) (v : Int) :
    keptFrom (old.map ModelEntry.unnumbered) v =
      (keptFrom old v).map LoadedModel.unnumbered := by
  cases old with
  | none => rfl
  | some entry =>
      show ((entry.versions.map VersionSlot.unnumbered).get? v).bind VersionSlot.loaded? =
        ((entry.versions.get? v).bind VersionSlot.loaded?).map LoadedModel.unnumbered
      rw [OrderedMap.get?_map]
      cases entry.versions.get? v with
      | none => rfl
      | some slot => exact slot.loaded?_unnumbered

theorem dropped_unnumbered (old : Option ModelEntry) (listed : List Int) :
    dropped (old.map ModelEntry.unnumbered) listed = dropped old listed := by
  cases old with
  | none => rfl
  | some entry =>
      simp [dropped, ModelEntry.unnumbered, OrderedMap.map, List.filter_map, Function.comp_def]

theorem unloaded_unnumbered (old : Option ModelEntry) :
    ((old.map ModelEntry.unnumbered).map ModelEntry.readyCount).getD 0 =
      (old.map ModelEntry.readyCount).getD 0 := by
  cases old with
  | none => rfl
  | some entry => exact entry.readyCount_unnumbered

theorem filter_unnumbered (p : ModelConfig -> Bool) (old : Option ModelEntry) :
    (old.map ModelEntry.unnumbered).filter (fun entry => p entry.config) =
      (old.filter fun entry => p entry.config).map ModelEntry.unnumbered := by
  cases old with
  | none => rfl
  | some entry =>
      rw [Option.map_some, Option.filter_some, Option.filter_some]
      show (if p entry.config = true then some entry.unnumbered else none) = _
      cases p entry.config <;> rfl

variable (factory : BackendFactory)

theorem version_matches (config : ModelConfig) {kept? kept'? : Int -> Option LoadedModel} {v : Int}
    (h : (kept? v).map LoadedModel.unnumbered = (kept'? v).map LoadedModel.unnumbered)
    (next next' : Nat) :
    (version factory config kept? next v).Matches VersionSlot.unnumbered
      (version factory config kept'? next' v) := by
  unfold version
  cases hkept : kept? v with
  | some model =>
      cases hkept' : kept'? v with
      | none =>
          rw [hkept, hkept'] at h
          cases h
      | some model' =>
          rw [hkept, hkept'] at h
          exact ⟨congrArg VersionSlot.ready (Option.some.inj h), rfl, rfl⟩
  | none =>
      cases hkept' : kept'? v with
      | some model' =>
          rw [hkept, hkept'] at h
          cases h
      | none =>
          cases (factory config v).result with
          | ok backend => exact ⟨rfl, rfl, rfl⟩
          | error cause => exact ⟨rfl, rfl, rfl⟩

theorem versions_matches (config : ModelConfig) {kept? kept'? : Int -> Option LoadedModel}
    (h : forall v : Int,
      (kept? v).map LoadedModel.unnumbered = (kept'? v).map LoadedModel.unnumbered)
    (vs : List Int) (next next' : Nat) :
    (versions factory config kept? next vs).Matches
      (List.map fun e => (e.1, e.2.unnumbered)) (versions factory config kept'? next' vs) := by
  induction vs generalizing next next' with
  | nil => exact ⟨rfl, rfl, rfl⟩
  | cons v rest ih =>
      have hfirst := version_matches factory config (h v) next next'
      have hothers := ih (version factory config kept? next v).next
        (version factory config kept'? next' v).next
      constructor
      · show (v, _) :: List.map _ _ = (v, _) :: List.map _ _
        rw [hfirst.value, hothers.value]
      · show ReconcileReport.append _ _ = ReconcileReport.append _ _
        rw [hfirst.report, hothers.report]
      · show _ ++ _ = _ ++ _
        rw [hfirst.actions, hothers.actions]

theorem valid_matches (m : RepositoryModel) {old old' : Option ModelEntry}
    (h : old.map ModelEntry.unnumbered = old'.map ModelEntry.unnumbered) (next next' : Nat) :
    (valid factory m old next).Matches ModelEntry.unnumbered (valid factory m old' next') := by
  have hfilter : forall p : ModelConfig -> Bool,
      (old.filter fun entry => p entry.config).map ModelEntry.unnumbered =
        (old'.filter fun entry => p entry.config).map ModelEntry.unnumbered := by
    intro p
    rw [← filter_unnumbered, ← filter_unnumbered, h]
  have hsame := hfilter fun config => config = m.config
  have hchanged := hfilter fun config => config ≠ m.config
  have hgone : dropped (old.filter fun entry => entry.config = m.config) (listed m) =
      dropped (old'.filter fun entry => entry.config = m.config) (listed m) := by
    rw [← dropped_unnumbered, hsame, dropped_unnumbered]
  have hunloaded :
      ((old.filter fun entry => entry.config ≠ m.config).map ModelEntry.readyCount).getD 0 =
        ((old'.filter fun entry => entry.config ≠ m.config).map ModelEntry.readyCount).getD 0 := by
    rw [← unloaded_unnumbered, hchanged, unloaded_unnumbered]
  have hsome : (old.filter fun entry => entry.config ≠ m.config).isSome =
      (old'.filter fun entry => entry.config ≠ m.config).isSome := by
    rw [← Option.isSome_map, hchanged, Option.isSome_map]
  have hkept : forall v : Int,
      (keptFrom (old.filter fun entry => entry.config = m.config) v).map LoadedModel.unnumbered =
        (keptFrom (old'.filter fun entry => entry.config = m.config) v).map
          LoadedModel.unnumbered := by
    intro v
    rw [← keptFrom_unnumbered, hsame, keptFrom_unnumbered]
  have hslots := versions_matches factory m.config hkept (listed m) next next'
  unfold valid assemble
  constructor
  · simp only [ModelEntry.unnumbered, OrderedMap.map_ofList]
    rw [hslots.value]
  · simp only
    rw [hslots.report, hunloaded, hgone]
  · simp only
    rw [hslots.actions, hsome, hgone]

theorem model_matches (strict : Bool) (m : RepositoryModel) {old old' : Option ModelEntry}
    (h : old.map ModelEntry.unnumbered = old'.map ModelEntry.unnumbered) (next next' : Nat) :
    (model factory strict m old next).Matches ModelEntry.unnumbered
      (model factory strict m old' next') := by
  unfold model
  split
  · rename_i cause hinvalid
    have hunloaded : (old.map ModelEntry.readyCount).getD 0 =
        (old'.map ModelEntry.readyCount).getD 0 := by
      rw [← unloaded_unnumbered, h, unloaded_unnumbered]
    unfold invalid
    rw [hunloaded]
    exact ⟨rfl, rfl, rfl⟩
  · exact valid_matches factory m h next next'

/-!
# All models

Tables that differ only in numbers are reconciled alike.
-/

theorem models_matches (strict : Bool) (scan : List RepositoryModel)
    {previous previous' table table' : ModelTable}
    (hprevious : previous.unnumbered = previous'.unnumbered)
    (htable : table.unnumbered = table'.unnumbered) (next next' : Nat) :
    (models factory strict previous table next scan).Matches
      (Prod.map ModelTable.unnumbered ModelTable.unnumbered)
      (models factory strict previous' table' next' scan) := by
  induction scan generalizing previous previous' table table' next next' with
  | nil => exact ⟨Prod.ext htable hprevious, rfl, rfl⟩
  | cons m rest ih =>
      have hold : (OrderedMap.get? previous m.config.name).map ModelEntry.unnumbered =
          (OrderedMap.get? previous' m.config.name).map ModelEntry.unnumbered := by
        rw [← OrderedMap.get?_map, ← OrderedMap.get?_map]
        exact congrArg (OrderedMap.get? · m.config.name) hprevious
      have hentry := model_matches factory strict m hold next next'
      have hleft : ModelTable.unnumbered (OrderedMap.erase previous m.config.name) =
          ModelTable.unnumbered (OrderedMap.erase previous' m.config.name) := by
        unfold ModelTable.unnumbered at hprevious ⊢
        rw [OrderedMap.map_erase, OrderedMap.map_erase, hprevious]
      have hgrown : ModelTable.unnumbered (OrderedMap.insert table m.config.name
          (model factory strict m (OrderedMap.get? previous m.config.name) next).value) =
          ModelTable.unnumbered (OrderedMap.insert table' m.config.name
            (model factory strict m (OrderedMap.get? previous' m.config.name) next').value) := by
        unfold ModelTable.unnumbered at htable ⊢
        rw [OrderedMap.map_insert, OrderedMap.map_insert, htable, hentry.value]
      have hothers := ih hleft hgrown
        (model factory strict m (OrderedMap.get? previous m.config.name) next).next
        (model factory strict m (OrderedMap.get? previous' m.config.name) next').next
      constructor
      · exact hothers.value
      · show ReconcileReport.append _ _ = ReconcileReport.append _ _
        rw [hentry.report, hothers.report]
      · show _ ++ _ = _ ++ _
        rw [hentry.actions, hothers.actions]

theorem removed_unnumbered (left : ModelTable) : removed left.unnumbered = removed left := by
  unfold removed
  rw [ModelTable.readyCount_unnumbered]
  unfold ModelTable.unnumbered
  rw [OrderedMap.keys_map]

end Reconcile

theorem ModelTable.reconcile_matches (factory : BackendFactory) (strict : Bool)
    {table table' : ModelTable} (h : table.unnumbered = table'.unnumbered) (next next' : Nat)
    (scan : List RepositoryModel) :
    (table.reconcile factory strict next scan).Matches unnumbered
      (table'.reconcile factory strict next' scan) := by
  have hmodels := Reconcile.models_matches factory strict scan h
    (rfl : unnumbered .empty = unnumbered .empty) next next'
  have hremoved :
      Reconcile.removed (Reconcile.models factory strict table .empty next scan).value.2 =
        Reconcile.removed (Reconcile.models factory strict table' .empty next' scan).value.2 := by
    rw [← Reconcile.removed_unnumbered,
      show unnumbered _ = unnumbered _ from congrArg Prod.snd hmodels.value,
      Reconcile.removed_unnumbered]
  unfold reconcile Reconcile.complete
  constructor
  · exact congrArg Prod.fst hmodels.value
  · simp only
    rw [hmodels.report, hremoved]
  · simp only
    rw [hmodels.report, hmodels.actions, hremoved]

end InferenceEngine
