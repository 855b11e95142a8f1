import InferenceEngine.Proofs.Models.Balances

/-!
# The same scan once more

A table that a scan has led to is what the same scan asks for.  The second reconciliation takes
other branches than the first one: what was loaded is now kept, what failed is tried again and fails
with the same cause, and what had another configuration now has the same one.  All of them lead back
to the same entry.
-/

namespace InferenceEngine

attribute [ext] ModelEntry ReconcileReport

namespace Reconcile

variable {factory : BackendFactory} {strict : Bool} {old : Option ModelEntry}

/-!
# Versions

What a version has come to, it comes to again.
-/

/-- From an entry with the same configuration the ready versions are kept, and no others. -/
theorem kept_some_iff {entry : ModelEntry} {config : ModelConfig} (h : entry.config = config)
    {v : Int} {model : LoadedModel} :
    Kept (some entry) config v model ↔ entry.versions.get? v = some (.ready model) := by
  constructor
  · rintro ⟨found, hfound, _, hslot⟩
    cases hfound
    exact hslot
  · intro hslot
    exact ⟨entry, rfl, h, hslot⟩

theorem ComesTo.again {entry : ModelEntry} {config : ModelConfig}
    {first last first' last' : Nat} {v : Int} {slot slot' : VersionSlot}
    (h : ComesTo factory strict old config first last v slot) (hconfig : entry.config = config)
    (hslot : entry.versions.get? v = some slot)
    (k : ComesTo factory strict (some entry) config first' last' v slot') : slot' = slot := by
  cases h with
  | invalid cause hinvalid => exact k.of_invalid hinvalid
  | kept model hvalid _ => exact (k.eq_ready_iff ((kept_some_iff hconfig).2 hslot)).2 hvalid
  | loaded number backend hvalid _ _ _ _ =>
      exact (k.eq_ready_iff ((kept_some_iff hconfig).2 hslot)).2 hvalid
  | failed cause hvalid _ hresult =>
      apply k.of_failed hvalid _ hresult
      intro model hkept
      cases hslot.symm.trans ((kept_some_iff hconfig).1 hkept)

/-- A version that nothing is loaded for, since it is kept or there is no backend for it. -/
def Rests (factory : BackendFactory) (old : Option ModelEntry) (config : ModelConfig) (v : Int) :
    Prop :=
  (exists model : LoadedModel, Kept old config v model) ∨
    exists cause : Failure, (factory config v).result = .error cause

theorem ComesTo.rests {entry : ModelEntry} {config : ModelConfig} {first last : Nat} {v : Int}
    {slot : VersionSlot} (h : ComesTo factory strict old config first last v slot)
    (hconfig : entry.config = config) (hslot : entry.versions.get? v = some slot)
    (hvalid : config.validate strict = .ok ()) : Rests factory (some entry) config v := by
  cases h with
  | invalid cause hinvalid => cases hinvalid.symm.trans hvalid
  | kept model _ _ => exact .inl ⟨model, (kept_some_iff hconfig).2 hslot⟩
  | loaded number backend _ _ _ _ _ => exact .inl ⟨_, (kept_some_iff hconfig).2 hslot⟩
  | failed cause _ _ hresult => exact .inr ⟨cause, hresult⟩

theorem loaded_version {config : ModelConfig} {v : Int} (h : Rests factory old config v)
    (next : Nat) :
    (version factory config (keptFrom (old.filter fun entry => entry.config = config)) next
      v).report.loaded = 0 := by
  rcases h with ⟨model, hkept⟩ | ⟨cause, hresult⟩
  · unfold version
    rw [keptFrom_eq_some_iff.2 hkept]
    rfl
  · unfold version
    rw [hresult]
    cases keptFrom (old.filter fun entry => entry.config = config) v with
    | none => rfl
    | some model => rfl

theorem loaded_versions {config : ModelConfig} {vs : List Int}
    (h : forall v : Int, v ∈ vs -> Rests factory old config v) (next : Nat) :
    (versions factory config (keptFrom (old.filter fun entry => entry.config = config)) next
      vs).report.loaded = 0 := by
  induction vs generalizing next with
  | nil => rfl
  | cons v rest ih =>
      have hfirst := loaded_version (h v List.mem_cons_self) next
      have hrest := ih (fun w hw => h w (List.mem_cons_of_mem _ hw)) (version factory config
        (keptFrom (old.filter fun entry => entry.config = config)) next v).next
      change _ + _ = 0
      rw [hfirst, hrest]

/-!
# Models

The entry of a listed model is the one that it gets in place of that entry.
-/

theorem Lists.exists_slot {m : RepositoryModel} {first last : Nat} {entry : ModelEntry}
    (h : Lists factory strict old m first last entry) {v : Int} (hv : v ∈ m.versions) :
    exists slot : VersionSlot, entry.versions.get? v = some slot :=
  Option.isSome_iff_exists.1 (OrderedMap.contains_iff_mem_keys.2 ((h.versions v).2 hv))

theorem Lists.again {m : RepositoryModel} {first last first' last' : Nat}
    {entry entry' : ModelEntry} (h : Lists factory strict old m first last entry)
    (k : Lists factory strict (some entry) m first' last' entry') : entry' = entry := by
  have hconfig : entry'.config = entry.config := k.config.trans h.config.symm
  have hversions : entry'.versions = entry.versions := by
    apply OrderedMap.ext_get?
    intro v
    by_cases hv : v ∈ m.versions
    · rcases h.exists_slot hv with ⟨slot, hslot⟩
      rcases k.exists_slot hv with ⟨slot', hslot'⟩
      rw [hslot, hslot', (h.slots v slot hslot).again h.config hslot (k.slots v slot' hslot')]
    · have hnone : forall {old : Option ModelEntry} {first last : Nat} {entry : ModelEntry},
          Lists factory strict old m first last entry -> entry.versions.get? v = none := by
        intro old first last entry hlists
        rw [← Option.not_isSome_iff_eq_none]
        exact fun hsome => hv ((hlists.versions v).1 (OrderedMap.contains_iff_mem_keys.1 hsome))
      rw [hnone h, hnone k]
  exact ModelEntry.ext hconfig hversions

theorem Lists.loaded_again {m : RepositoryModel} {first last : Nat} {entry : ModelEntry}
    (h : Lists factory strict old m first last entry) (next : Nat) :
    (model factory strict m (some entry) next).report.loaded = 0 := by
  unfold model
  cases hvalid : m.config.validate strict with
  | error cause => rfl
  | ok =>
      apply loaded_versions
      intro v hv
      rcases h.exists_slot (mem_listed.1 hv) with ⟨slot, hslot⟩
      exact (h.slots v slot hslot).rests h.config hslot hvalid

/-- A version that has no backend is kept from the new entry if and only if it was kept from the old
one. -/
theorem Lists.kept_again_iff {m : RepositoryModel} {first last : Nat} {entry : ModelEntry}
    (h : Lists factory strict old m first last entry) (hvalid : m.config.validate strict = .ok ())
    {v : Int} (hv : v ∈ m.versions) {cause : Failure}
    (hresult : (factory m.config v).result = .error cause) (model : LoadedModel) :
    Kept (some entry) m.config v model ↔ Kept old m.config v model := by
  rw [kept_some_iff h.config]
  constructor
  · intro hslot
    cases h.slots v _ hslot with
    | kept _ _ hkept => exact hkept
    | loaded number backend _ _ hbackend _ _ => cases hbackend.symm.trans hresult
  · exact fun hkept => (h.get?_eq_ready_iff hkept).2 ⟨hv, hvalid⟩

theorem Lists.modelFailures_again {m : RepositoryModel} {first last : Nat} {entry : ModelEntry}
    (h : Lists factory strict old m first last entry) :
    modelFailures factory strict (some entry) m = modelFailures factory strict old m := by
  unfold modelFailures
  cases hvalid : m.config.validate strict with
  | error cause => rfl
  | ok =>
      apply List.filterMap_congr
      intro v hv
      apply Option.ext
      intro failure
      rw [versionFailure?_eq_some_iff, versionFailure?_eq_some_iff]
      constructor
      · rintro ⟨hnew, cause, hresult, hfailure⟩
        have hkept := h.kept_again_iff hvalid (mem_listed.1 hv) hresult
        exact ⟨fun model hmodel => hnew model ((hkept model).2 hmodel), cause, hresult, hfailure⟩
      · rintro ⟨hnew, cause, hresult, hfailure⟩
        have hkept := h.kept_again_iff hvalid (mem_listed.1 hv) hresult
        exact ⟨fun model hmodel => hnew model ((hkept model).1 hmodel), cause, hresult, hfailure⟩

/-!
# Scans
-/

theorem loaded_total {reports : List ReconcileReport}
    (h : forall r : ReconcileReport, r ∈ reports -> r.loaded = 0) : (total reports).loaded = 0 := by
  induction reports with
  | nil => rfl
  | cons r rest ih =>
      change r.loaded + (total rest).loaded = 0
      rw [h r List.mem_cons_self, ih fun s hs => h s (List.mem_cons_of_mem _ hs)]

end Reconcile

variable (factory : BackendFactory) (strict : Bool) (table : ModelTable) (next : Nat)
  {scan : List RepositoryModel}

/-- The entry of a model that a scan lists, once the table has been reconciled with the scan. -/
theorem ModelTable.lists_reconcile (h : (scan.map fun m => m.config.name).Nodup)
    {m : RepositoryModel} (hm : m ∈ scan) : exists (entry : ModelEntry) (last : Nat),
      OrderedMap.get? (table.reconcile factory strict next scan).value m.config.name =
        some entry ∧
      Reconcile.Lists factory strict (OrderedMap.get? table m.config.name) m next last entry := by
  rcases @Reconcile.lists_models factory strict scan h table .empty next m hm with
    ⟨entry, hentry, hlists⟩
  exact ⟨entry, _, hentry, hlists⟩

theorem ModelTable.get?_reconcile_of_not_mem {name : String}
    (h : name ∉ scan.map fun m => m.config.name) :
    OrderedMap.get? (table.reconcile factory strict next scan).value name = none :=
  (Reconcile.get?_models_of_not_mem h table .empty next).1

theorem ModelTable.value_reconcile_again (h : (scan.map fun m => m.config.name).Nodup)
    (next' : Nat) :
    ((table.reconcile factory strict next scan).value.reconcile factory strict next' scan).value =
      (table.reconcile factory strict next scan).value := by
  apply OrderedMap.ext_get?
  intro name
  by_cases hname : name ∈ scan.map fun m => m.config.name
  · rcases List.mem_map.1 hname with ⟨m, hm, rfl⟩
    rcases ModelTable.lists_reconcile factory strict table next h hm with
      ⟨entry, _, hentry, hlists⟩
    rcases ModelTable.lists_reconcile factory strict
      (table.reconcile factory strict next scan).value next' h hm with
      ⟨entry', _, hentry', hlists'⟩
    rw [hentry] at hlists'
    rw [hentry', hentry, hlists.again hlists']
  · rw [ModelTable.get?_reconcile_of_not_mem _ _ _ _ hname,
      ModelTable.get?_reconcile_of_not_mem _ _ _ _ hname]

theorem ModelTable.loaded_reconcile_again (h : (scan.map fun m => m.config.name).Nodup)
    (next' : Nat) :
    ((table.reconcile factory strict next scan).value.reconcile factory strict next'
      scan).report.loaded = 0 := by
  change (Reconcile.models factory strict _ .empty next' scan).report.loaded + 0 = 0
  rw [(Reconcile.models_alone h _ _ _).1, Nat.add_zero]
  apply Reconcile.loaded_total
  intro r hr
  rcases List.mem_map.1 hr with ⟨m, hm, rfl⟩
  rcases ModelTable.lists_reconcile factory strict table next h hm with
    ⟨entry, _, hentry, hlists⟩
  unfold Reconcile.alone
  rw [hentry]
  exact hlists.loaded_again 0

theorem ModelTable.failures_reconcile_again (h : (scan.map fun m => m.config.name).Nodup)
    (next' : Nat) :
    ((table.reconcile factory strict next scan).value.reconcile factory strict next'
      scan).report.failures = (table.reconcile factory strict next scan).report.failures := by
  rw [ModelTable.failures_reconcile, ModelTable.failures_reconcile, Reconcile.scanFailures,
    Reconcile.scanFailures, Reconcile.failuresAfter_of_nodup (by rwa [List.nil_append]),
    Reconcile.failuresAfter_of_nodup (by rwa [List.nil_append])]
  apply List.flatMap_congr
  intro m hm
  rcases ModelTable.lists_reconcile factory strict table next h hm with
    ⟨entry, _, hentry, hlists⟩
  rw [hentry]
  exact hlists.modelFailures_again

/-- Whatever the table and the factory: if a scan in which no name comes twice is reconciled with
once more, the table stays as it is, down to the numbers of the loaded models and the causes why
others are not loaded; nothing is loaded or unloaded, all ready versions are kept, and the failures
are the same again. -/
theorem reconcile_again (factory : BackendFactory) (strict : Bool) (table : ModelTable)
    (next next' : Nat) (scan : List RepositoryModel)
    (h : (scan.map fun m => m.config.name).Nodup) :
    ((table.reconcile factory strict next scan).value.reconcile factory strict next' scan).value =
      (table.reconcile factory strict next scan).value ∧
    ((table.reconcile factory strict next scan).value.reconcile factory strict next' scan).report =
      { loaded := 0
        kept := (table.reconcile factory strict next scan).value.readyCount
        unloaded := 0
        failures := (table.reconcile factory strict next scan).report.failures } := by
  have hvalue := ModelTable.value_reconcile_again factory strict table next h next'
  have hloaded := ModelTable.loaded_reconcile_again factory strict table next h next'
  have hfailures := ModelTable.failures_reconcile_again factory strict table next h next'
  have hbalances := ModelTable.balances_reconcile factory strict
    (table.reconcile factory strict next scan).value next' h
  -- As many versions are ready afterwards as before, so what is not loaded is not unloaded either.
  rcases hbalances with ⟨hbefore, _, hafter⟩
  rw [hvalue, hloaded, Nat.add_zero] at hafter
  have hunloaded := Nat.add_eq_left.1 (hbefore.symm.trans hafter)
  constructor
  · exact hvalue
  · exact ReconcileReport.ext hloaded hafter.symm hunloaded hfailures

/-- Two versions are kept, one fails again, and the model beside them is invalid again. -/
theorem mixedScan_again :
    (mixedScan.map fun m => m.config.name).Nodup ∧
    ((firstTable.reconcile firstVersions true 1 mixedScan).value.reconcile firstVersions true 2
      mixedScan).value = (firstTable.reconcile firstVersions true 1 mixedScan).value ∧
    ((firstTable.reconcile firstVersions true 1 mixedScan).value.reconcile firstVersions true 2
      mixedScan).report.kept = 2 ∧
    ((firstTable.reconcile firstVersions true 1 mixedScan).value.reconcile firstVersions true 2
      mixedScan).report.failures.map (fun f => (f.model, f.version)) =
        [("copy", some 3), ("bare", none)] := by
  have hmixed : (mixedScan.map fun m => m.config.name).Nodup := by decide
  rcases reconcile_again firstVersions true firstTable 1 2 mixedScan hmixed with
    ⟨hvalue, hreport⟩
  rw [hreport]
  exact ⟨hmixed, hvalue, rfl, rfl⟩

end InferenceEngine
