import InferenceEngine.Proofs.Models.Listings

/-!
# What a reconciliation reports as failed

The failures of a reconciliation can be told from the scan, the old table and the factory, model by
model and in each model version by version.  There is none exactly if each configuration is valid
and each version that cannot be kept is loaded.
-/

namespace InferenceEngine

namespace Reconcile

variable {factory : BackendFactory} {strict : Bool} {old : Option ModelEntry}

/-!
# The failures of a scan
-/

/-- The failure of a version that cannot be kept, if its loading fails. -/
def versionFailure? (factory : BackendFactory) (old : Option ModelEntry) (config : ModelConfig)
    (v : Int) : Option LoadFailure :=
  match keptFrom (old.filter fun entry => entry.config = config) v, (factory config v).result with
  | none, .error cause => some ⟨config.name, some v, cause⟩
  | _, _ => none

/-- The failures of a listed model: its invalid configuration, or those of its versions from the
least one on. -/
def modelFailures (factory : BackendFactory) (strict : Bool) (old : Option ModelEntry)
    (m : RepositoryModel) : List LoadFailure :=
  match m.config.validate strict with
  | .error cause => [⟨m.config.name, none, cause⟩]
  | .ok () => (listed m).filterMap (versionFailure? factory old m.config)

/-- The old entry that a listed model takes over, which is gone if a model before it has the same
name. -/
def takenOver (table : ModelTable) (before : List RepositoryModel) (m : RepositoryModel) :
    Option ModelEntry :=
  if m.config.name ∈ before.map fun m => m.config.name then none
  else OrderedMap.get? table m.config.name

/-- The failures of the models that come after some others, in their order. -/
def failuresAfter (factory : BackendFactory) (strict : Bool) (table : ModelTable)
    (before : List RepositoryModel) : List RepositoryModel -> List LoadFailure
  | [] => []
  | m :: rest =>
    modelFailures factory strict (takenOver table before m) m ++
      failuresAfter factory strict table (before ++ [m]) rest

def scanFailures (factory : BackendFactory) (strict : Bool) (table : ModelTable)
    (scan : List RepositoryModel) : List LoadFailure :=
  failuresAfter factory strict table [] scan

/-!
# They are what is reported
-/

theorem failures_version (config : ModelConfig) (next : Nat) (v : Int) :
    (version factory config (keptFrom (old.filter fun entry => entry.config = config)) next
      v).report.failures = (versionFailure? factory old config v).toList := by
  unfold version versionFailure?
  cases keptFrom (old.filter fun entry => entry.config = config) v with
  | some model => rfl
  | none =>
      cases hresult : (factory config v).result with
      | ok backend => rfl
      | error cause => rfl

theorem failures_versions (config : ModelConfig) (vs : List Int) (next : Nat) :
    (versions factory config (keptFrom (old.filter fun entry => entry.config = config)) next
      vs).report.failures = vs.filterMap (versionFailure? factory old config) := by
  induction vs generalizing next with
  | nil => rfl
  | cons v rest ih =>
      have hfirst := @failures_version factory old config next v
      have hrest := ih (version factory config
        (keptFrom (old.filter fun entry => entry.config = config)) next v).next
      unfold versions
      show _ ++ _ = _
      rw [hfirst, hrest, List.filterMap_cons]
      cases versionFailure? factory old config v with
      | none => rfl
      | some failure => rfl

theorem failures_model (m : RepositoryModel) (next : Nat) :
    (model factory strict m old next).report.failures = modelFailures factory strict old m := by
  unfold model modelFailures
  cases m.config.validate strict with
  | error cause => rfl
  | ok =>
      show _ ++ [] = _
      rw [List.append_nil]
      exact failures_versions m.config (listed m) next

/-- Whether the old entries of a table that are left are those of the names that have not come
yet. -/
def IsLeft (table previous : ModelTable) (before : List RepositoryModel) : Prop :=
  forall name : String, OrderedMap.get? previous name =
    if name ∈ before.map fun m => m.config.name then none else OrderedMap.get? table name

theorem IsLeft.erase {table previous : ModelTable} {before : List RepositoryModel}
    (h : IsLeft table previous before) (m : RepositoryModel) :
    IsLeft table (OrderedMap.erase previous m.config.name) (before ++ [m]) := by
  intro name
  rw [List.map_append, List.map_singleton]
  by_cases hname : name = m.config.name
  · rw [hname, OrderedMap.get?_erase_self, if_pos (by simp)]
  · rw [OrderedMap.get?_erase_of_ne hname, h]
    simp [hname]

theorem failures_models {table previous : ModelTable} {before : List RepositoryModel}
    (hleft : IsLeft table previous before)
    (scan : List RepositoryModel) (made : ModelTable) (next : Nat) :
    (models factory strict previous made next scan).report.failures =
      failuresAfter factory strict table before scan := by
  induction scan generalizing previous before made next with
  | nil => rfl
  | cons m rest ih =>
      have hold : OrderedMap.get? previous m.config.name = takenOver table before m :=
        hleft m.config.name
      unfold models failuresAfter
      show _ ++ _ = _
      rw [ih (hleft.erase m), failures_model, hold]

end Reconcile

theorem ModelTable.failures_reconcile (factory : BackendFactory) (strict : Bool)
    (table : ModelTable) (next : Nat) (scan : List RepositoryModel) :
    (table.reconcile factory strict next scan).report.failures =
      Reconcile.scanFailures factory strict table scan := by
  show _ ++ [] = _
  rw [List.append_nil]
  apply Reconcile.failures_models
  intro name
  rfl

namespace Reconcile

variable {factory : BackendFactory} {strict : Bool} {old : Option ModelEntry}

/-!
# When nothing fails

Nothing fails unless something about one of the listed models does.
-/

/-- Whether something about a listed model fails: its configuration is invalid, or a version cannot
be kept and the factory has no backend for it. -/
def Fails (factory : BackendFactory) (strict : Bool) (old : Option ModelEntry)
    (m : RepositoryModel) : Prop :=
  (exists cause : Failure, m.config.validate strict = .error cause) ∨
    (m.config.validate strict = .ok () ∧ exists v : Int, v ∈ m.versions ∧
      (forall model : LoadedModel, ¬ Kept old m.config v model) ∧
      exists cause : Failure, (factory m.config v).result = .error cause)

theorem versionFailure?_eq_some_iff {config : ModelConfig} {v : Int} {failure : LoadFailure} :
    versionFailure? factory old config v = some failure ↔
      (forall model : LoadedModel, ¬ Kept old config v model) ∧
      exists cause : Failure, (factory config v).result = .error cause ∧
        failure = ⟨config.name, some v, cause⟩ := by
  rw [← keptFrom_eq_none_iff]
  unfold versionFailure?
  cases keptFrom (old.filter fun entry => entry.config = config) v with
  | some model => simp
  | none =>
      cases (factory config v).result with
      | ok backend => simp
      | error cause => simp [eq_comm]

theorem modelFailures_ne_nil_iff {m : RepositoryModel} :
    modelFailures factory strict old m ≠ [] ↔ Fails factory strict old m := by
  unfold modelFailures Fails
  split
  · rename_i cause hinvalid
    exact ⟨fun _ => .inl ⟨cause, hinvalid⟩, fun _ => List.cons_ne_nil _ _⟩
  · rename_i hvalid
    constructor
    · intro hsome
      rcases List.exists_mem_of_ne_nil _ hsome with ⟨failure, hfailure⟩
      rcases List.mem_filterMap.1 hfailure with ⟨v, hv, hfails⟩
      rcases versionFailure?_eq_some_iff.1 hfails with ⟨hnew, cause, hcause, _⟩
      exact .inr ⟨hvalid, v, mem_listed.1 hv, hnew, cause, hcause⟩
    · rintro (⟨cause, hinvalid⟩ | ⟨_, v, hv, hnew, cause, hcause⟩)
      · cases hvalid.symm.trans hinvalid
      · have hfails : versionFailure? factory old m.config v =
            some ⟨m.config.name, some v, cause⟩ :=
          versionFailure?_eq_some_iff.2 ⟨hnew, cause, hcause, rfl⟩
        exact List.ne_nil_of_mem (List.mem_filterMap.2 ⟨v, mem_listed.2 hv, hfails⟩)

theorem failuresAfter_ne_nil_iff {table : ModelTable} {before scan : List RepositoryModel} :
    failuresAfter factory strict table before scan ≠ [] ↔
      exists (between : List RepositoryModel) (m : RepositoryModel) (after : List RepositoryModel),
        scan = between ++ m :: after ∧
          Fails factory strict (takenOver table (before ++ between) m) m := by
  induction scan generalizing before with
  | nil => simp [failuresAfter]
  | cons m rest ih =>
      have hsplit : failuresAfter factory strict table before (m :: rest) ≠ [] ↔
          Fails factory strict (takenOver table before m) m ∨
            failuresAfter factory strict table (before ++ [m]) rest ≠ [] := by
        rw [← modelFailures_ne_nil_iff]
        show _ ++ _ ≠ [] ↔ _
        rw [Ne, List.append_eq_nil_iff, Decidable.not_and_iff_not_or_not]
      rw [hsplit, ih]
      constructor
      · rintro (hfails | ⟨between, other, after, rfl, hfails⟩)
        · exact ⟨[], m, rest, rfl, by rwa [List.append_nil]⟩
        · exact ⟨m :: between, other, after, rfl, by
            rwa [List.append_assoc, List.singleton_append] at hfails⟩
      · rintro ⟨between, other, after, hscan, hfails⟩
        cases between with
        | nil =>
            cases hscan
            rw [List.append_nil] at hfails
            exact .inl hfails
        | cons first between =>
            cases hscan
            refine .inr ⟨between, other, after, rfl, ?_⟩
            rwa [List.append_assoc, List.singleton_append]

theorem scanFailures_ne_nil_iff {table : ModelTable} {scan : List RepositoryModel} :
    scanFailures factory strict table scan ≠ [] ↔
      exists (before : List RepositoryModel) (m : RepositoryModel) (after : List RepositoryModel),
        scan = before ++ m :: after ∧ Fails factory strict (takenOver table before m) m :=
  failuresAfter_ne_nil_iff

/-!
# Names that are listed more than once

Each name that a scan lists has the entry that its last model asks for.
-/

/-- The last model of a name gets the entry, with the old one if it is the first as well. -/
theorem get?_models_of_last {table previous : ModelTable} {earlier : List RepositoryModel}
    (hleft : IsLeft table previous earlier) {m : RepositoryModel} {after : List RepositoryModel}
    (hlast : m.config.name ∉ after.map fun m => m.config.name) (before : List RepositoryModel)
    (made : ModelTable) (next : Nat) : exists first : Nat, next ≤ first ∧
      OrderedMap.get? (models factory strict previous made next (before ++ m :: after)).value.1
          m.config.name =
        some (model factory strict m (takenOver table (earlier ++ before) m) first).value := by
  induction before generalizing previous earlier made next with
  | nil =>
      have hold : OrderedMap.get? previous m.config.name = takenOver table earlier m :=
        hleft m.config.name
      refine ⟨next, Nat.le_refl _, (get?_models_of_not_mem hlast _ _ _).1.trans ?_⟩
      rw [OrderedMap.get?_insert_self, hold, List.append_nil]
  | cons head rest ih =>
      rcases ih (hleft.erase head) (OrderedMap.insert made head.config.name
          (model factory strict head (OrderedMap.get? previous head.config.name) next).value)
        (model factory strict head (OrderedMap.get? previous head.config.name) next).next with
        ⟨first, hnext, hfirst⟩
      rw [List.append_assoc, List.singleton_append] at hfirst
      exact ⟨first, Nat.le_trans (le_next_model head _ next) hnext, hfirst⟩

theorem exists_last_of_mem {scan : List RepositoryModel} {name : String}
    (h : name ∈ scan.map fun m => m.config.name) :
    exists (before : List RepositoryModel) (m : RepositoryModel) (after : List RepositoryModel),
      scan = before ++ m :: after ∧ m.config.name = name ∧
        name ∉ after.map fun m => m.config.name := by
  induction scan with
  | nil => cases h
  | cons head rest ih =>
      by_cases hrest : name ∈ rest.map fun m => m.config.name
      · rcases ih hrest with ⟨before, m, after, rfl, hname, hlast⟩
        exact ⟨head :: before, m, after, rfl, hname, hlast⟩
      · rcases List.mem_cons.1 h with rfl | hmem
        · exact ⟨[], head, rest, rfl, rfl, hrest⟩
        · exact absurd hmem hrest

end Reconcile

theorem ModelTable.get?_reconcile_of_last (factory : BackendFactory) (strict : Bool)
    (table : ModelTable) (next : Nat) (before : List RepositoryModel)
    {after : List RepositoryModel} {m : RepositoryModel}
    (hlast : m.config.name ∉ after.map fun m => m.config.name) :
    exists (last : Nat) (entry : ModelEntry),
      OrderedMap.get? (table.reconcile factory strict next (before ++ m :: after)).value
        m.config.name = some entry ∧
      Reconcile.Lists factory strict (Reconcile.takenOver table before m) m next last entry := by
  have hleft : Reconcile.IsLeft table table [] := fun name => rfl
  rcases Reconcile.get?_models_of_last hleft hlast before .empty next with
    ⟨first, hfirst, hentry⟩
  exact ⟨_, _, hentry, (Reconcile.lists_model m _ first).mono hfirst (Nat.le_refl _)⟩

namespace Reconcile

variable {factory : BackendFactory} {strict : Bool}

/-!
# Loading everything

A new entry has all its versions ready if nothing about its model fails.
-/

/-- Whether a table has all that a scan lists, and all of it ready with a backend that the factory
has made: the versions of the last model of each name, and no others. -/
structure Loaded (factory : BackendFactory) (strict : Bool) (scan : List RepositoryModel)
    (table : ModelTable) : Prop where
  ready : forall (name : String) (entry : ModelEntry) (v : Int) (slot : VersionSlot),
    OrderedMap.get? table name = some entry -> entry.versions.get? v = some slot ->
      slot.isReady = true
  names : forall name : String,
    name ∈ OrderedMap.keys table -> name ∈ scan.map fun m => m.config.name
  valid : forall m : RepositoryModel, m ∈ scan -> m.config.validate strict = .ok ()
  entries : forall (before : List RepositoryModel) (m : RepositoryModel)
    (after : List RepositoryModel), scan = before ++ m :: after ->
      (m.config.name ∉ after.map fun m => m.config.name) ->
        exists entry : ModelEntry, OrderedMap.get? table m.config.name = some entry ∧
          entry.config = m.config ∧ (forall v : Int, v ∈ entry.versions.keys ↔ v ∈ m.versions) ∧
          forall v : Int, v ∈ m.versions -> exists (number : Nat) (backend : Backend),
            (factory m.config v).result = .ok backend ∧
              entry.versions.get? v = some (.ready ⟨number, m.config, v, backend⟩)

theorem mem_names_of_mem_keys {table : ModelTable} {next : Nat} {scan : List RepositoryModel}
    {name : String}
    (h : name ∈ OrderedMap.keys (table.reconcile factory strict next scan).value) :
    name ∈ scan.map fun m => m.config.name := by
  by_contra hnot
  have hnone := (@get?_models_of_not_mem factory strict scan name hnot table .empty next).1
  rw [← OrderedMap.contains_iff_mem_keys] at h
  rcases Option.isSome_iff_exists.1 h with ⟨entry, hentry⟩
  cases hnone.symm.trans hentry

theorem takenOver_empty (before : List RepositoryModel) (m : RepositoryModel) :
    takenOver .empty before m = none := by
  unfold takenOver
  split <;> rfl

theorem not_fails_of_scanFailures {scan before after : List RepositoryModel}
    {m : RepositoryModel} (h : scanFailures factory strict .empty scan = [])
    (hscan : scan = before ++ m :: after) : ¬ Fails factory strict none m := by
  intro hfails
  rw [← takenOver_empty before m] at hfails
  exact scanFailures_ne_nil_iff.2 ⟨before, m, after, hscan, hfails⟩ h

theorem Lists.loaded_of_not_fails {m : RepositoryModel} {first last : Nat} {entry : ModelEntry}
    (h : Lists factory strict none m first last entry) (hnone : ¬ Fails factory strict none m)
    {v : Int} (hv : v ∈ m.versions) : exists (number : Nat) (backend : Backend),
      (factory m.config v).result = .ok backend ∧
        entry.versions.get? v = some (.ready ⟨number, m.config, v, backend⟩) := by
  have hkey := OrderedMap.contains_iff_mem_keys.2 ((h.versions v).2 hv)
  rcases Option.isSome_iff_exists.1 hkey with ⟨slot, hslot⟩
  rw [hslot]
  cases h.slots v slot hslot with
  | invalid cause hinvalid => exact absurd (.inl ⟨cause, hinvalid⟩) hnone
  | kept model _ hkept =>
      rcases hkept with ⟨_, hnothing, _⟩
      cases hnothing
  | loaded number backend _ _ hresult => exact ⟨number, backend, hresult, rfl⟩
  | failed cause hvalid hnew hresult =>
      exact absurd (.inr ⟨hvalid, v, hv, hnew, cause, hresult⟩) hnone

theorem loaded_of_scanFailures {next : Nat} {scan : List RepositoryModel}
    (h : scanFailures factory strict .empty scan = []) :
    Loaded factory strict scan (ModelTable.reconcile factory strict .empty next scan).value := by
  have hlast : forall (before : List RepositoryModel) (m : RepositoryModel)
      (after : List RepositoryModel), scan = before ++ m :: after ->
        (m.config.name ∉ after.map fun m => m.config.name) ->
          exists (last : Nat) (entry : ModelEntry), OrderedMap.get?
              (ModelTable.reconcile factory strict .empty next scan).value m.config.name =
                some entry ∧
            Lists factory strict none m next last entry := by
    intro before m after hscan hlast
    rw [hscan, ← takenOver_empty before m]
    exact ModelTable.get?_reconcile_of_last factory strict .empty next before hlast
  constructor
  · intro name entry v slot hentry hslot
    have hname := OrderedMap.contains_iff_mem_keys.1 (Option.isSome_of_eq_some hentry)
    rcases exists_last_of_mem (mem_names_of_mem_keys hname) with
      ⟨before, m, after, hscan, rfl, hafter⟩
    rcases hlast before m after hscan hafter with ⟨last, found, hfound, hlists⟩
    cases hfound.symm.trans hentry
    have hv := OrderedMap.contains_iff_mem_keys.1 (Option.isSome_of_eq_some hslot)
    rcases hlists.loaded_of_not_fails (not_fails_of_scanFailures h hscan)
      ((hlists.versions v).1 hv) with ⟨number, backend, _, hready⟩
    cases hready.symm.trans hslot
    rfl
  · exact fun name => mem_names_of_mem_keys
  · intro m hm
    rcases List.append_of_mem hm with ⟨before, after, hscan⟩
    cases hvalid : m.config.validate strict with
    | ok => rfl
    | error cause =>
        exact absurd (.inl ⟨cause, hvalid⟩) (not_fails_of_scanFailures h hscan)
  · intro before m after hscan hafter
    rcases hlast before m after hscan hafter with ⟨last, entry, hentry, hlists⟩
    exact ⟨entry, hentry, hlists.config, hlists.versions,
      fun v => hlists.loaded_of_not_fails (not_fails_of_scanFailures h hscan)⟩

end Reconcile

end InferenceEngine
