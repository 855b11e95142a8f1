import Mathlib.Data.List.Dedup
import Mathlib.Data.List.Forall2
import InferenceEngine.Proofs.Models.Failures
import InferenceEngine.Proofs.Models.Scans

/-!
# The accounts of a reconciliation

Ready versions are counted as unloaded at four places: with an invalid configuration, with a changed
one, as versions that are not listed any more and with a model that is gone.  The accounts balance
at each of them: what was ready is kept or unloaded, what is ready was kept or loaded, and what is
listed under a valid configuration is kept, loaded or a failure.
-/

namespace InferenceEngine

/-- Whether the accounts of a report balance, given the numbers of versions that were ready before,
that are listed under valid configurations and that are ready now. -/
structure ReconcileReport.Balances (r : ReconcileReport) (before listed after : Nat) : Prop where
  before : before = r.kept + r.unloaded
  listed : listed = r.kept + r.loaded + r.failures.countP fun f => f.version.isSome
  after : after = r.kept + r.loaded

theorem ReconcileReport.balances_nothing : ReconcileReport.nothing.Balances 0 0 0 := ⟨rfl, rfl, rfl⟩

theorem ReconcileReport.Balances.append {r s : ReconcileReport}
    {before listed after before' listed' after' : Nat} (h : r.Balances before listed after)
    (k : s.Balances before' listed' after') :
    (r.append s).Balances (before + before') (listed + listed') (after + after') := by
  rcases h with ⟨hbefore, hlisted, hafter⟩
  rcases k with ⟨kbefore, klisted, kafter⟩
  unfold ReconcileReport.append
  constructor
  · show _ = r.kept + s.kept + (r.unloaded + s.unloaded)
    omega
  · show _ = r.kept + s.kept + (r.loaded + s.loaded) + (r.failures ++ s.failures).countP _
    rw [List.countP_append]
    omega
  · show _ = r.kept + s.kept + (r.loaded + s.loaded)
    omega

theorem ReconcileReport.balances_unloaded (n : Nat) :
    { ReconcileReport.nothing with unloaded := n }.Balances n 0 0 :=
  ⟨(Nat.zero_add n).symm, rfl, rfl⟩

/-!
# Ready versions of a table
-/

/-- The number of ready versions of an entry that may be missing. -/
def ModelEntry.readyCountOf (entry : Option ModelEntry) : Nat :=
  (entry.map ModelEntry.readyCount).getD 0

theorem ModelTable.readyCount_perm {table : ModelTable} {entries : List (String × ModelEntry)}
    (h : table.toList.Perm entries) :
    table.readyCount =
      (entries.flatMap fun e => e.2.versions.values).countP VersionSlot.isReady := by
  unfold ModelTable.readyCount OrderedMap.values
  rw [List.flatMap_map]
  exact (h.flatMap_right _).countP_eq _

theorem ModelTable.readyCount_insert {table : ModelTable} {name : String}
    (h : OrderedMap.get? table name = none) (entry : ModelEntry) :
    ModelTable.readyCount (OrderedMap.insert table name entry) =
      table.readyCount + entry.readyCount := by
  have hfresh : name ∉ OrderedMap.keys table := by
    rw [← OrderedMap.contains_iff_mem_keys, OrderedMap.contains, h]
    exact Bool.false_ne_true
  rw [readyCount_perm (OrderedMap.perm_insertEntry hfresh), readyCount_perm (.refl table.toList),
    List.flatMap_cons, List.countP_append, Nat.add_comm]
  rfl

theorem ModelTable.readyCount_erase (table : ModelTable) (name : String) :
    table.readyCount = ModelEntry.readyCountOf (OrderedMap.get? table name) +
      ModelTable.readyCount (OrderedMap.erase table name) := by
  cases hget : OrderedMap.get? table name with
  | none =>
      have hsame : OrderedMap.erase table name = table := by
        apply OrderedMap.ext_get?
        intro other
        by_cases hother : other = name
        · rw [hother, OrderedMap.get?_erase_self, hget]
        · exact OrderedMap.get?_erase_of_ne hother table
      rw [hsame]
      exact (Nat.zero_add _).symm
  | some entry =>
      have hback : OrderedMap.insert (OrderedMap.erase table name) name entry = table := by
        apply OrderedMap.ext_get?
        intro other
        by_cases hother : other = name
        · rw [hother, OrderedMap.get?_insert_self, hget]
        · rw [OrderedMap.get?_insert_of_ne hother, OrderedMap.get?_erase_of_ne hother]
      have hcount := readyCount_insert (OrderedMap.get?_erase_self table name) entry
      rw [hback] at hcount
      exact hcount.trans (Nat.add_comm _ _)

namespace Reconcile

variable {factory : BackendFactory} {strict : Bool} {old : Option ModelEntry}

/-!
# Versions of a model
-/

theorem balances_version (config : ModelConfig) (kept? : Int -> Option LoadedModel) (next : Nat)
    (v : Int) :
    (version factory config kept? next v).report.Balances (if (kept? v).isSome then 1 else 0) 1
      (if (version factory config kept? next v).value.isReady then 1 else 0) := by
  unfold version
  cases kept? v with
  | some model => exact ⟨rfl, rfl, rfl⟩
  | none =>
      cases (factory config v).result with
      | ok backend => exact ⟨rfl, rfl, rfl⟩
      | error cause => exact ⟨rfl, rfl, rfl⟩

theorem balances_versions (config : ModelConfig) (kept? : Int -> Option LoadedModel)
    (vs : List Int) (next : Nat) :
    (versions factory config kept? next vs).report.Balances
      (vs.countP fun v => (kept? v).isSome) vs.length
      (((versions factory config kept? next vs).value.map Prod.snd).countP
        VersionSlot.isReady) := by
  induction vs generalizing next with
  | nil => exact ReconcileReport.balances_nothing
  | cons v rest ih =>
      have hfirst := @balances_version factory config kept? next v
      have hrest := ih (version factory config kept? next v).next
      have hboth := hfirst.append hrest
      rw [Nat.add_comm 1, Nat.add_comm (ite _ 1 0), Nat.add_comm (ite _ 1 0)] at hboth
      unfold versions
      rw [List.countP_cons, List.length_cons, List.map_cons, List.countP_cons]
      exact hboth

/-- The listed versions that an entry has ready are its ready versions that are listed. -/
theorem perm_kept (entry : ModelEntry) {vs : List Int} (h : vs.Nodup) :
    (vs.filter fun v => (keptFrom (some entry) v).isSome).Perm
      ((entry.versions.toList.filter fun e => e.2.isReady && vs.contains e.1).map Prod.fst) := by
  have hkeys : (entry.versions.toList.map Prod.fst).Nodup := entry.versions.nodup_keys
  refine (List.perm_ext_iff_of_nodup (h.filter _)
    (hkeys.sublist (List.filter_sublist.map _))).2 ?_
  intro v
  rw [List.mem_filter, List.mem_map]
  constructor
  · rintro ⟨hv, hkept⟩
    rcases Option.isSome_iff_exists.1 hkept with ⟨model, hmodel⟩
    have hfound : (entry.versions.get? v).bind VersionSlot.loaded? = some model := hmodel
    rcases Option.bind_eq_some_iff.1 hfound with ⟨slot, hslot, hloaded⟩
    refine ⟨(v, slot), List.mem_filter.2 ⟨OrderedMap.get?_eq_some_iff.1 hslot, ?_⟩, rfl⟩
    simp [VersionSlot.isReady, hloaded, hv]
  · rintro ⟨⟨w, slot⟩, he, rfl⟩
    rcases List.mem_filter.1 he with ⟨hslot, hready⟩
    rw [Bool.and_eq_true, List.contains_iff_mem] at hready
    refine ⟨hready.2, ?_⟩
    show ((entry.versions.get? w).bind VersionSlot.loaded?).isSome = true
    rw [OrderedMap.get?_eq_some_iff.2 hslot]
    exact hready.1

/-- The ready versions of an entry are those that are listed and those that are dropped. -/
theorem readyCountOf_eq_add_dropped (old : Option ModelEntry) {vs : List Int} (h : vs.Nodup) :
    ModelEntry.readyCountOf old =
      (vs.countP fun v => (keptFrom old v).isSome) + (dropped old vs).length := by
  cases old with
  | none => simp [ModelEntry.readyCountOf, keptFrom, dropped]
  | some entry =>
      have hlisted := (perm_kept entry h).length_eq
      rw [List.length_map, ← List.countP_eq_length_filter,
        ← List.countP_eq_length_filter] at hlisted
      have hdropped : (dropped (some entry) vs).length =
          entry.versions.toList.countP fun e => e.2.isReady && !vs.contains e.1 := by
        unfold dropped
        rw [List.length_map, List.countP_eq_length_filter]
      have hready : ModelEntry.readyCountOf (some entry) =
          entry.versions.toList.countP fun e => e.2.isReady := by
        show (entry.versions.toList.map Prod.snd).countP VersionSlot.isReady = _
        rw [List.countP_map]
        rfl
      rw [hready, hlisted, hdropped, List.countP_eq_countP_filter_add _ _ fun e => vs.contains e.1,
        List.countP_filter, List.countP_filter]

/-!
# Models

An old entry has either the configuration that is listed or another one.
-/

/-- The versions that a model lists under a valid configuration, each of them once. -/
def validVersions (strict : Bool) (m : RepositoryModel) : List Int :=
  if (m.config.validate strict).isOk then m.versions.dedup else []

theorem length_listed (m : RepositoryModel) : (listed m).length = m.versions.dedup.length := by
  refine ((List.perm_ext_iff_of_nodup (nodup_listed m) m.versions.nodup_dedup).2 ?_).length_eq
  intro v
  rw [mem_listed, List.mem_dedup]

theorem readyCount_ofList (config : ModelConfig) {slots : List (Int × VersionSlot)}
    (h : (slots.map Prod.fst).Nodup) :
    (ModelEntry.mk config (.ofList slots)).readyCount =
      (slots.map Prod.snd).countP VersionSlot.isReady :=
  ((OrderedMap.toList_ofList_perm h).map Prod.snd).countP_eq _

theorem readyCountOf_eq_add_changed (old : Option ModelEntry) (config : ModelConfig) :
    ModelEntry.readyCountOf old =
      ModelEntry.readyCountOf (old.filter fun entry => entry.config = config) +
        ModelEntry.readyCountOf (old.filter fun entry => entry.config ≠ config) := by
  cases old with
  | none => rfl
  | some entry =>
      by_cases hsame : entry.config = config
      · simp [ModelEntry.readyCountOf, Option.filter, hsame]
      · simp [ModelEntry.readyCountOf, Option.filter, hsame]

theorem balances_invalid (m : RepositoryModel) (old : Option ModelEntry) (cause : Failure)
    (next : Nat) :
    (invalid m old cause next).report.Balances (ModelEntry.readyCountOf old) 0
      (invalid m old cause next).value.readyCount := by
  have hkeys :
      (((listed m).map fun v => (v, VersionSlot.unavailable cause)).map Prod.fst).Nodup := by
    rw [List.map_map]
    exact (nodup_listed m).map Function.injective_id
  have hready : (invalid m old cause next).value.readyCount = 0 := by
    refine (readyCount_ofList m.config hkeys).trans ?_
    rw [List.map_map, List.countP_eq_zero]
    intro slot hslot
    rcases List.mem_map.1 hslot with ⟨v, _, rfl⟩
    exact Bool.false_ne_true
  rw [hready]
  exact ⟨(Nat.zero_add _).symm, rfl, rfl⟩

theorem balances_valid (m : RepositoryModel) (old : Option ModelEntry) (next : Nat) :
    (valid factory m old next).report.Balances (ModelEntry.readyCountOf old) (listed m).length
      (valid factory m old next).value.readyCount := by
  have hslots := @balances_versions factory m.config
    (keptFrom (old.filter fun entry => entry.config = m.config)) (listed m) next
  have hkeys : ((versions factory m.config
      (keptFrom (old.filter fun entry => entry.config = m.config)) next
        (listed m)).value.map Prod.fst).Nodup := by
    rw [keys_versions]
    exact nodup_listed m
  rw [← readyCount_ofList m.config hkeys] at hslots
  have hall := hslots.append (ReconcileReport.balances_unloaded
    (ModelEntry.readyCountOf (old.filter fun entry => entry.config ≠ m.config) +
      (dropped (old.filter fun entry => entry.config = m.config) (listed m)).length))
  have hbefore : ModelEntry.readyCountOf old =
      ((listed m).countP fun v =>
          (keptFrom (old.filter fun entry => entry.config = m.config) v).isSome) +
        (ModelEntry.readyCountOf (old.filter fun entry => entry.config ≠ m.config) +
          (dropped (old.filter fun entry => entry.config = m.config) (listed m)).length) := by
    rw [readyCountOf_eq_add_changed old m.config, readyCountOf_eq_add_dropped
      (old.filter fun entry => entry.config = m.config) (nodup_listed m)]
    omega
  rw [hbefore]
  exact hall

theorem balances_model (m : RepositoryModel) (old : Option ModelEntry) (next : Nat) :
    (model factory strict m old next).report.Balances (ModelEntry.readyCountOf old)
      (validVersions strict m).length (model factory strict m old next).value.readyCount := by
  unfold model validVersions
  cases m.config.validate strict with
  | error cause => exact balances_invalid m old cause next
  | ok =>
      have hvalid := @balances_valid factory m old next
      rw [length_listed] at hvalid
      exact hvalid

/-!
# Scans
-/

/-- What the models of a scan take from the old entries and what they add to the table. -/
theorem balances_models {scan : List RepositoryModel}
    (h : (scan.map fun m => m.config.name).Nodup) (previous : ModelTable) {table : ModelTable}
    (htable : forall m : RepositoryModel, m ∈ scan -> OrderedMap.get? table m.config.name = none)
    (next : Nat) : exists taken added : Nat,
      previous.readyCount =
        taken + (models factory strict previous table next scan).value.2.readyCount ∧
      (models factory strict previous table next scan).value.1.readyCount =
        table.readyCount + added ∧
      (models factory strict previous table next scan).report.Balances taken
        (scan.flatMap (validVersions strict)).length added := by
  induction scan generalizing previous table next with
  | nil =>
      exact ⟨0, 0, (Nat.zero_add _).symm, rfl, ReconcileReport.balances_nothing⟩
  | cons m rest ih =>
      rw [List.map_cons, List.nodup_cons] at h
      have hself := @balances_model factory strict m (OrderedMap.get? previous m.config.name) next
      -- No name comes twice, so the entry of this model is not replaced by the rest of the scan.
      have hfresh : forall other : RepositoryModel, other ∈ rest ->
          OrderedMap.get? (OrderedMap.insert table m.config.name
            (model factory strict m (OrderedMap.get? previous m.config.name) next).value)
              other.config.name = none := by
        intro other hother
        have hne : other.config.name ≠ m.config.name := by
          intro hsame
          exact h.1 (hsame ▸ List.mem_map.2 ⟨other, hother, rfl⟩)
        rw [OrderedMap.get?_insert_of_ne hne]
        exact htable other (List.mem_cons_of_mem _ hother)
      rcases ih h.2 (OrderedMap.erase previous m.config.name) hfresh
        (model factory strict m (OrderedMap.get? previous m.config.name) next).next with
        ⟨taken, added, hprevious, hvalue, hrest⟩
      rw [ModelTable.readyCount_insert (htable m List.mem_cons_self), Nat.add_assoc] at hvalue
      refine ⟨ModelEntry.readyCountOf (OrderedMap.get? previous m.config.name) + taken, _, ?_,
        hvalue, ?_⟩
      · rw [ModelTable.readyCount_erase previous m.config.name, hprevious, Nat.add_assoc]
        rfl
      · rw [List.flatMap_cons, List.length_append]
        exact hself.append hrest

/-!
# Failures

Where no name comes twice, each model takes over the entry of its name.
-/

/-- Whether some failures are those that a report has of a listed model, given the entry that the
model had and the one that it gets: one of its configuration, or one of each version that cannot be
kept and has no backend, from the least version on. -/
inductive ReportsOf (factory : BackendFactory) (strict : Bool) (old : Option ModelEntry)
    (m : RepositoryModel) (entry : ModelEntry) : List LoadFailure -> Prop where
  | invalid (cause : Failure) (h : m.config.validate strict = .error cause) :
      ReportsOf factory strict old m entry [⟨m.config.name, none, cause⟩]
  | versions (failed : List (Int × Failure)) (h : m.config.validate strict = .ok ())
      (ascending : (failed.map Prod.fst).Pairwise (· < ·))
      (fails : forall (v : Int) (cause : Failure), (v, cause) ∈ failed ↔
        v ∈ m.versions ∧ (forall model : LoadedModel, ¬ Kept old m.config v model) ∧
          (factory m.config v).result = .error cause)
      (slots : forall (v : Int) (cause : Failure), (v, cause) ∈ failed ↔
        entry.versions.get? v = some (.unavailable cause)) :
      ReportsOf factory strict old m entry
        (failed.map fun e => ⟨m.config.name, some e.1, e.2⟩)

/-- A version that cannot be kept and has no backend, with the cause. -/
def failedVersion? (factory : BackendFactory) (old : Option ModelEntry) (config : ModelConfig)
    (v : Int) : Option (Int × Failure) :=
  (versionFailure? factory old config v).map fun failure => (v, failure.cause)

def failedVersions (factory : BackendFactory) (old : Option ModelEntry) (m : RepositoryModel) :
    List (Int × Failure) :=
  (listed m).filterMap (failedVersion? factory old m.config)

theorem failedVersion?_eq_some_iff {config : ModelConfig} {v w : Int} {cause : Failure} :
    failedVersion? factory old config v = some (w, cause) ↔
      v = w ∧ (forall model : LoadedModel, ¬ Kept old config v model) ∧
        (factory config v).result = .error cause := by
  unfold failedVersion?
  rw [Option.map_eq_some_iff]
  constructor
  · rintro ⟨failure, hfailure, hpair⟩
    rcases versionFailure?_eq_some_iff.1 hfailure with ⟨hnew, found, hfound, rfl⟩
    cases hpair
    exact ⟨rfl, hnew, hfound⟩
  · rintro ⟨rfl, hnew, hcause⟩
    exact ⟨_, versionFailure?_eq_some_iff.2 ⟨hnew, cause, hcause, rfl⟩, rfl⟩

theorem mem_failedVersions {m : RepositoryModel} {v : Int} {cause : Failure} :
    (v, cause) ∈ failedVersions factory old m ↔
      v ∈ m.versions ∧ (forall model : LoadedModel, ¬ Kept old m.config v model) ∧
        (factory m.config v).result = .error cause := by
  unfold failedVersions
  rw [List.mem_filterMap]
  constructor
  · rintro ⟨w, hw, hfailed⟩
    rcases failedVersion?_eq_some_iff.1 hfailed with ⟨rfl, hnew, hcause⟩
    exact ⟨mem_listed.1 hw, hnew, hcause⟩
  · rintro ⟨hv, hnew, hcause⟩
    exact ⟨v, mem_listed.2 hv, failedVersion?_eq_some_iff.2 ⟨rfl, hnew, hcause⟩⟩

theorem ascending_listed (m : RepositoryModel) : (listed m).Pairwise (· < ·) := by
  unfold listed OrderedMap.keys
  rw [List.pairwise_map]
  exact (OrderedMap.ordered _).imp Int.compare_eq_lt.1

theorem ascending_failedVersions (m : RepositoryModel) :
    ((failedVersions factory old m).map Prod.fst).Pairwise (· < ·) := by
  rw [List.pairwise_map]
  refine (ascending_listed m).filterMap _ ?_
  rintro v w hlt ⟨v', cause⟩ hv ⟨w', cause'⟩ hw
  rw [← (failedVersion?_eq_some_iff.1 hv).1, ← (failedVersion?_eq_some_iff.1 hw).1]
  exact hlt

theorem modelFailures_of_valid {m : RepositoryModel} (h : m.config.validate strict = .ok ()) :
    modelFailures factory strict old m =
      (failedVersions factory old m).map fun e => ⟨m.config.name, some e.1, e.2⟩ := by
  unfold modelFailures failedVersions
  rw [h, List.map_filterMap]
  apply List.filterMap_congr
  intro v _
  unfold failedVersion?
  cases hfailure : versionFailure? factory old m.config v with
  | none => rfl
  | some failure =>
      rcases versionFailure?_eq_some_iff.1 hfailure with ⟨_, cause, _, rfl⟩
      rfl

theorem Lists.mem_failedVersions_iff {m : RepositoryModel} {first last : Nat} {entry : ModelEntry}
    (h : Lists factory strict old m first last entry) (hvalid : m.config.validate strict = .ok ())
    {v : Int} {cause : Failure} :
    (v, cause) ∈ failedVersions factory old m ↔
      entry.versions.get? v = some (.unavailable cause) := by
  rw [mem_failedVersions]
  constructor
  · rintro ⟨hv, hnew, hcause⟩
    have hkey := OrderedMap.contains_iff_mem_keys.2 ((h.versions v).2 hv)
    rcases Option.isSome_iff_exists.1 hkey with ⟨slot, hslot⟩
    rw [hslot, (h.slots v slot hslot).of_failed hvalid hnew hcause]
  · intro hslot
    have hkey := OrderedMap.contains_iff_mem_keys.1 (Option.isSome_of_eq_some hslot)
    refine ⟨(h.versions v).1 hkey, ?_⟩
    cases h.slots v _ hslot with
    | invalid _ hinvalid => cases hinvalid.symm.trans hvalid
    | failed _ _ hnew hcause => exact ⟨hnew, hcause⟩

theorem reportsOf_modelFailures {m : RepositoryModel} {first last : Nat} {entry : ModelEntry}
    (h : Lists factory strict old m first last entry) :
    ReportsOf factory strict old m entry (modelFailures factory strict old m) := by
  cases hvalid : m.config.validate strict with
  | error cause =>
      unfold modelFailures
      rw [hvalid]
      exact .invalid cause hvalid
  | ok =>
      rw [modelFailures_of_valid hvalid]
      exact .versions _ hvalid (ascending_failedVersions m) (fun _ _ => mem_failedVersions)
        fun _ _ => h.mem_failedVersions_iff hvalid

theorem failuresAfter_of_nodup {table : ModelTable} {before scan : List RepositoryModel}
    (h : ((before ++ scan).map fun m => m.config.name).Nodup) :
    failuresAfter factory strict table before scan =
      scan.flatMap fun m =>
        modelFailures factory strict (OrderedMap.get? table m.config.name) m := by
  induction scan generalizing before with
  | nil => rfl
  | cons m rest ih =>
      have hfresh : m.config.name ∉ before.map fun m => m.config.name := by
        rw [List.map_append] at h
        intro hmem
        exact List.disjoint_of_nodup_append h hmem List.mem_cons_self
      have hnext : (((before ++ [m]) ++ rest).map fun m => m.config.name).Nodup := by
        rwa [List.append_assoc, List.singleton_append]
      unfold failuresAfter takenOver
      rw [if_neg hfresh, ih hnext, List.flatMap_cons]

end Reconcile

theorem ModelTable.balances_reconcile (factory : BackendFactory) (strict : Bool)
    (table : ModelTable) (next : Nat) {scan : List RepositoryModel}
    (h : (scan.map fun m => m.config.name).Nodup) :
    (table.reconcile factory strict next scan).report.Balances table.readyCount
      (scan.flatMap (Reconcile.validVersions strict)).length
      (table.reconcile factory strict next scan).value.readyCount := by
  rcases @Reconcile.balances_models factory strict scan h table .empty (fun _ _ => rfl) next with
    ⟨taken, added, htaken, hadded, hbalances⟩
  have hall := hbalances.append (ReconcileReport.balances_unloaded
    (Reconcile.models factory strict table .empty next scan).value.2.readyCount)
  rw [← htaken] at hall
  have hvalue : (table.reconcile factory strict next scan).value.readyCount = added :=
    hadded.trans (Nat.zero_add _)
  rw [hvalue]
  exact hall

/-- Whatever the table, the factory and the scan, if no name comes twice: the accounts of a
reconciliation balance, and its failures are those of the models, in the order of the scan. -/
theorem reconcile_balances (factory : BackendFactory) (strict : Bool) (table : ModelTable)
    (next : Nat) (scan : List RepositoryModel) (h : (scan.map fun m => m.config.name).Nodup) :
    (table.reconcile factory strict next scan).report.Balances table.readyCount
      (scan.flatMap (Reconcile.validVersions strict)).length
      (table.reconcile factory strict next scan).value.readyCount ∧
    exists parts : List (List LoadFailure),
      (table.reconcile factory strict next scan).report.failures = parts.flatten ∧
      List.Forall₂ (fun m part => exists entry : ModelEntry,
        OrderedMap.get? (table.reconcile factory strict next scan).value m.config.name =
          some entry ∧
        Reconcile.ReportsOf factory strict (OrderedMap.get? table m.config.name) m entry part)
        scan parts := by
  constructor
  · exact ModelTable.balances_reconcile factory strict table next h
  · refine ⟨scan.map fun m => Reconcile.modelFailures factory strict
      (OrderedMap.get? table m.config.name) m, ?_, ?_⟩
    · rw [ModelTable.failures_reconcile, Reconcile.scanFailures,
        Reconcile.failuresAfter_of_nodup (by rwa [List.nil_append])]
      exact List.flatMap_def
    · rw [List.forall₂_map_right_iff, List.forall₂_same]
      intro m hm
      rcases @Reconcile.lists_models factory strict scan h table .empty next m hm with
        ⟨entry, hentry, hlists⟩
      exact ⟨entry, hentry, Reconcile.reportsOf_modelFailures hlists⟩

/-- Of three versions one is kept, one is loaded and one fails; the failure of the model beside them
has no version. -/
theorem accounts_of_mixedScan :
    (firstTable.reconcile firstVersions true 1 mixedScan).report.Balances 1 3 2 ∧
    (firstTable.reconcile firstVersions true 1 mixedScan).report.failures.map
      (fun f => (f.model, f.version)) = [("copy", some 3), ("bare", none)] := by
  have hmixed : (mixedScan.map fun m => m.config.name).Nodup := by decide
  exact ⟨(reconcile_balances firstVersions true firstTable 1 mixedScan hmixed).1, rfl⟩

end InferenceEngine
