import InferenceEngine.Proofs.Models.Listings
import InferenceEngine.Proofs.Models.Numbering
import InferenceEngine.Proofs.Requests.Acceptance

/-!
# Two scans

A reconciliation takes one model after the other, but what a model comes to hangs on nothing that
other models come to, except for the numbers of those that are loaded anew.  So two scans that say
the same of a model lead to the same entry, and the order of a scan does not matter.
-/

namespace InferenceEngine

/-!
# Entries of two reconciliations
-/

/-- Whether two entries that take the place of an old one are the same: they are equal but for
numbers, and a loaded model that one of them keeps is kept by the other, with its number. -/
structure ModelEntry.Repeats (old : Option ModelEntry) (entry entry' : ModelEntry) : Prop where
  unnumbered : entry.unnumbered = entry'.unnumbered
  kept : forall (v : Int) (model : LoadedModel), Reconcile.Kept old entry.config v model ->
    (entry.versions.get? v = some (.ready model) ↔ entry'.versions.get? v = some (.ready model))

/-- Whether two scans say the same of a name: they list it with the same configuration and the same
versions, or neither lists it. -/
def AgreeOn (name : String) (scan scan' : List RepositoryModel) : Prop :=
  (exists m m' : RepositoryModel, m ∈ scan ∧ m' ∈ scan' ∧ m.config.name = name ∧
    m'.config = m.config ∧ forall v : Int, v ∈ m'.versions ↔ v ∈ m.versions) ∨
  name ∉ scan.map (fun m => m.config.name) ∧ name ∉ scan'.map (fun m => m.config.name)

/-- Whether two reports come to the same, but for the order of the failures. -/
structure ReconcileReport.Repeats (r r' : ReconcileReport) : Prop where
  loaded : r.loaded = r'.loaded
  kept : r.kept = r'.kept
  unloaded : r.unloaded = r'.unloaded
  failures : r.failures.Perm r'.failures

/-- Whether two tables that take the place of an old one are the same. -/
def ModelTable.Repeats (old table table' : ModelTable) : Prop :=
  ModelTable.unnumbered table = ModelTable.unnumbered table' ∧
    forall name : String, Option.Rel (ModelEntry.Repeats (OrderedMap.get? old name))
      (OrderedMap.get? table name) (OrderedMap.get? table' name)

namespace Reconcile

variable {factory : BackendFactory} {strict : Bool} {old : Option ModelEntry}

/-!
# Entries
-/

theorem Lists.get?_eq_ready_iff {m : RepositoryModel} {first last : Nat} {entry : ModelEntry}
    {v : Int} {model : LoadedModel} (h : Lists factory strict old m first last entry)
    (hkept : Kept old m.config v model) :
    entry.versions.get? v = some (.ready model) ↔
      v ∈ m.versions ∧ m.config.validate strict = .ok () := by
  rw [← h.versions, ← OrderedMap.contains_iff_mem_keys]
  unfold OrderedMap.contains
  cases hget : entry.versions.get? v with
  | none => simp
  | some slot =>
      rw [Option.some.injEq, (h.slots v slot hget).eq_ready_iff hkept]
      simp

/-- Versions are listed in order, each once, so nothing but the set of them matters. -/
theorem listed_congr {m m' : RepositoryModel}
    (h : forall v : Int, v ∈ m'.versions ↔ v ∈ m.versions) : listed m' = listed m := by
  have hmaps : OrderedMap.ofList (m'.versions.map fun v => (v, ())) =
      OrderedMap.ofList (m.versions.map fun v => (v, ())) := by
    apply OrderedMap.ext_get?
    intro v
    have hcontains : forall m : RepositoryModel,
        (OrderedMap.ofList (m.versions.map fun v => (v, ()))).get? v = some () ↔
          v ∈ m.versions := by
      intro m
      rw [← mem_listed, listed, ← OrderedMap.contains_iff_mem_keys, OrderedMap.contains,
        Option.isSome_iff_exists]
      constructor
      · intro hget
        exact ⟨(), hget⟩
      · rintro ⟨_, hget⟩
        exact hget
    apply Option.ext
    intro a
    exact (hcontains m').trans ((h v).trans (hcontains m).symm)
  exact congrArg OrderedMap.keys hmaps

theorem model_congr {m m' : RepositoryModel} (hconfig : m'.config = m.config)
    (hversions : forall v : Int, v ∈ m'.versions ↔ v ∈ m.versions) (next : Nat) :
    model factory strict m' old next = model factory strict m old next := by
  have hlisted := listed_congr hversions
  unfold model valid assemble invalid
  rw [hconfig, hlisted]

theorem repeats_model {m m' : RepositoryModel} (hconfig : m'.config = m.config)
    (hversions : forall v : Int, v ∈ m'.versions ↔ v ∈ m.versions) (next next' : Nat) :
    ModelEntry.Repeats old (model factory strict m old next).value
      (model factory strict m' old next').value := by
  rw [model_congr hconfig hversions]
  have hlists := @lists_model factory strict m old next
  have hlists' := @lists_model factory strict m old next'
  constructor
  · exact (model_matches factory strict m rfl next next').value
  · intro v model hkept
    rw [hlists.config] at hkept
    rw [hlists.get?_eq_ready_iff hkept, hlists'.get?_eq_ready_iff hkept]

/-!
# Old entries that are left over
-/

theorem get?_left (scan : List RepositoryModel) (previous table : ModelTable) (next : Nat)
    (name : String) :
    OrderedMap.get? (models factory strict previous table next scan).value.2 name =
      if name ∈ scan.map (fun m => m.config.name) then none else OrderedMap.get? previous name := by
  induction scan generalizing previous table next with
  | nil => rfl
  | cons m rest ih =>
      refine (ih (OrderedMap.erase previous m.config.name) _ _).trans ?_
      rw [List.map_cons]
      by_cases hrest : name ∈ rest.map fun m => m.config.name
      · rw [if_pos hrest, if_pos (List.mem_cons_of_mem _ hrest)]
      · rw [if_neg hrest]
        by_cases hsame : name = m.config.name
        · rw [hsame, OrderedMap.get?_erase_self, if_pos List.mem_cons_self]
        · rw [OrderedMap.get?_erase_of_ne hsame, if_neg]
          exact fun hmem => (List.mem_cons.1 hmem).elim hsame hrest

/-!
# Reports
-/

def total (reports : List ReconcileReport) : ReconcileReport :=
  reports.foldr ReconcileReport.append .nothing

/-- The order of the reports about models decides the order of the failures, and nothing else. -/
theorem repeats_total {reports reports' : List ReconcileReport} (h : reports.Perm reports') :
    (total reports).Repeats (total reports') := by
  induction h with
  | nil => exact ⟨rfl, rfl, rfl, .refl _⟩
  | cons r _ ih =>
      constructor
      · exact congrArg (r.loaded + ·) ih.loaded
      · exact congrArg (r.kept + ·) ih.kept
      · exact congrArg (r.unloaded + ·) ih.unloaded
      · exact ih.failures.append_left r.failures
  | swap r r' rest =>
      constructor
      · exact Nat.add_left_comm _ _ _
      · exact Nat.add_left_comm _ _ _
      · exact Nat.add_left_comm _ _ _
      · exact List.perm_append_comm_assoc _ _ _
  | trans _ _ h k =>
      exact ⟨h.loaded.trans k.loaded, h.kept.trans k.kept, h.unloaded.trans k.unloaded,
        h.failures.trans k.failures⟩

/-- What becomes of a model that takes the place of an old entry, were it the only one. -/
def alone (factory : BackendFactory) (strict : Bool) (previous : ModelTable)
    (m : RepositoryModel) : Outcome ModelEntry :=
  model factory strict m (OrderedMap.get? previous m.config.name) 0

/-- What is reported and what is done about all models is what is reported and done about each. -/
theorem models_alone {scan : List RepositoryModel}
    (h : (scan.map fun m => m.config.name).Nodup) (previous table : ModelTable) (next : Nat) :
    (models factory strict previous table next scan).report =
        total (scan.map fun m => (alone factory strict previous m).report) ∧
      (models factory strict previous table next scan).actions =
        scan.flatMap fun m => (alone factory strict previous m).actions := by
  induction scan generalizing previous table next with
  | nil => exact ⟨rfl, rfl⟩
  | cons m rest ih =>
      rw [List.map_cons, List.nodup_cons] at h
      have hself : (model factory strict m (OrderedMap.get? previous m.config.name) next).Matches
          ModelEntry.unnumbered (alone factory strict previous m) :=
        model_matches factory strict m rfl next 0
      have hothers : forall other : RepositoryModel, other ∈ rest ->
          alone factory strict (OrderedMap.erase previous m.config.name) other =
            alone factory strict previous other := by
        intro other hother
        have hne : other.config.name ≠ m.config.name := by
          intro hsame
          exact h.1 (hsame ▸ List.mem_map.2 ⟨other, hother, rfl⟩)
        unfold alone
        rw [OrderedMap.get?_erase_of_ne hne]
      rcases ih h.2 (OrderedMap.erase previous m.config.name)
        (OrderedMap.insert table m.config.name
          (model factory strict m (OrderedMap.get? previous m.config.name) next).value)
        (model factory strict m (OrderedMap.get? previous m.config.name) next).next with
        ⟨hreport, hactions⟩
      constructor
      · show ReconcileReport.append _ _ = ReconcileReport.append _ _
        rw [hreport, hself.report,
          List.map_congr_left fun other hother => congrArg Outcome.report (hothers other hother)]
        rfl
      · show _ ++ _ = _
        rw [hactions, hself.actions, List.flatMap_cons,
          List.flatMap_congr fun other hother => congrArg Outcome.actions (hothers other hother)]

/-!
# Scans

Two scans that say the same of a name lead to the same entry for it.
-/

theorem repeats_models {scan scan' : List RepositoryModel} {name : String}
    (h : (scan.map fun m => m.config.name).Nodup)
    (h' : (scan'.map fun m => m.config.name).Nodup) (hagree : AgreeOn name scan scan')
    (previous : ModelTable) (next next' : Nat) :
    Option.Rel (ModelEntry.Repeats (OrderedMap.get? previous name))
      (OrderedMap.get? (models factory strict previous .empty next scan).value.1 name)
      (OrderedMap.get? (models factory strict previous .empty next' scan').value.1 name) := by
  rcases hagree with ⟨m, m', hm, hm', rfl, hconfig, hversions⟩ | ⟨hnone, hnone'⟩
  · rcases get?_models h previous .empty next hm with ⟨first, _, _, hentry⟩
    rcases get?_models h' previous .empty next' hm' with ⟨first', _, _, hentry'⟩
    rw [hconfig] at hentry'
    rw [hentry, hentry']
    exact .some (repeats_model hconfig hversions first first')
  · rw [(get?_models_of_not_mem hnone previous .empty next).1,
      (get?_models_of_not_mem hnone' previous .empty next').1]
    exact .none

theorem agreeOn_of_perm {scan scan' : List RepositoryModel} (h : scan.Perm scan') (name : String) :
    AgreeOn name scan scan' := by
  by_cases hname : name ∈ scan.map fun m => m.config.name
  · rcases List.mem_map.1 hname with ⟨m, hm, hsame⟩
    exact .inl ⟨m, m, hm, h.mem_iff.1 hm, hsame, rfl, fun _ => Iff.rfl⟩
  · refine .inr ⟨hname, ?_⟩
    rw [← (h.map _).mem_iff]
    exact hname

end Reconcile

theorem ModelTable.unnumbered_eq {old table table' : ModelTable}
    (h : forall name : String, Option.Rel (ModelEntry.Repeats (OrderedMap.get? old name))
      (OrderedMap.get? table name) (OrderedMap.get? table' name)) :
    ModelTable.unnumbered table = ModelTable.unnumbered table' := by
  apply OrderedMap.ext_get?
  intro name
  unfold ModelTable.unnumbered
  rw [OrderedMap.get?_map, OrderedMap.get?_map]
  have hsame := h name
  generalize OrderedMap.get? table name = found at hsame ⊢
  generalize OrderedMap.get? table' name = found' at hsame ⊢
  cases hsame with
  | none => rfl
  | some hentry => exact congrArg some hentry.unnumbered

/-- Whatever the table and the factory: what becomes of a model hangs only on what a scan says of
it, and not on the other models that are listed, on whether they are valid or on whether they load;
and if a scan is put in another order, the table, the counts and the failures are the same. -/
theorem reconcile_model_by_model (factory : BackendFactory) (strict : Bool) (table : ModelTable)
    (next next' : Nat) (scan scan' : List RepositoryModel)
    (h : (scan.map fun m => m.config.name).Nodup)
    (h' : (scan'.map fun m => m.config.name).Nodup) :
    (forall name : String, AgreeOn name scan scan' ->
      Option.Rel (ModelEntry.Repeats (OrderedMap.get? table name))
        (OrderedMap.get? (table.reconcile factory strict next scan).value name)
        (OrderedMap.get? (table.reconcile factory strict next' scan').value name)) ∧
    (scan.Perm scan' ->
      ModelTable.Repeats table (table.reconcile factory strict next scan).value
        (table.reconcile factory strict next' scan').value ∧
      (table.reconcile factory strict next scan).report.Repeats
        (table.reconcile factory strict next' scan').report) := by
  have hentries : forall name : String, AgreeOn name scan scan' ->
      Option.Rel (ModelEntry.Repeats (OrderedMap.get? table name))
        (OrderedMap.get? (table.reconcile factory strict next scan).value name)
        (OrderedMap.get? (table.reconcile factory strict next' scan').value name) :=
    fun name hagree => Reconcile.repeats_models h h' hagree table next next'
  refine ⟨hentries, ?_⟩
  intro hperm
  have hall := fun name => hentries name (Reconcile.agreeOn_of_perm hperm name)
  refine ⟨⟨ModelTable.unnumbered_eq hall, hall⟩, ?_⟩
  have hleft : (Reconcile.models factory strict table .empty next scan).value.2 =
      (Reconcile.models factory strict table .empty next' scan').value.2 := by
    apply OrderedMap.ext_get?
    intro name
    rw [Reconcile.get?_left, Reconcile.get?_left]
    simp only [(hperm.map fun m => m.config.name).mem_iff]
  have hmodels : (Reconcile.models factory strict table .empty next scan).report.Repeats
      (Reconcile.models factory strict table .empty next' scan').report := by
    rw [(Reconcile.models_alone h _ _ _).1, (Reconcile.models_alone h' _ _ _).1]
    exact Reconcile.repeats_total (hperm.map _)
  unfold ModelTable.reconcile Reconcile.complete
  simp only
  rw [hleft]
  constructor
  · exact congrArg (· + _) hmodels.loaded
  · exact congrArg (· + _) hmodels.kept
  · exact congrArg (· + _) hmodels.unloaded
  · exact hmodels.failures.append_right _

/-- A factory that has the first two versions of every model only. -/
def firstVersions : BackendFactory := fun config v =>
  ⟨false, if v ≤ 2 then .ok Identity.backend else .error (.noBackend config.name)⟩

def firstTable : ModelTable :=
  (ModelTable.reconcile firstVersions true .empty 0 [⟨Engine.copyModel, [1]⟩]).value

def mixedScan : List RepositoryModel := [⟨Engine.copyModel, [1, 2, 3]⟩, ⟨.new "bare" 0, [1]⟩]

/-- The first version is kept, the second one is loaded and the third one fails, whether or not
there is another model and wherever it stands. -/
theorem scans_of_copyModel :
    (exists entry entry' : ModelEntry,
      OrderedMap.get? (firstTable.reconcile firstVersions true 1 mixedScan).value "copy" =
        some entry ∧
      OrderedMap.get? (firstTable.reconcile firstVersions true 5
        [⟨Engine.copyModel, [3, 1, 2, 1]⟩]).value "copy" = some entry' ∧
      entry.Repeats (OrderedMap.get? firstTable "copy") entry') ∧
    (firstTable.reconcile firstVersions true 1 mixedScan).report.Repeats
      (firstTable.reconcile firstVersions true 1 mixedScan.reverse).report ∧
    (firstTable.reconcile firstVersions true 1 mixedScan).report.failures.length = 2 := by
  have hmixed : (mixedScan.map fun m => m.config.name).Nodup := by decide
  have halone := (reconcile_model_by_model firstVersions true firstTable 1 5 mixedScan
    [⟨Engine.copyModel, [3, 1, 2, 1]⟩] hmixed (List.nodup_singleton _)).1 "copy"
  have hturned := (reconcile_model_by_model firstVersions true firstTable 1 1 mixedScan
    mixedScan.reverse hmixed (by decide)).2 (List.reverse_perm mixedScan).symm
  have hagree : AgreeOn "copy" mixedScan [⟨Engine.copyModel, [3, 1, 2, 1]⟩] := by
    refine .inl ⟨_, _, List.mem_cons_self, List.mem_cons_self, rfl, rfl, ?_⟩
    intro v
    simp only [List.mem_cons, List.not_mem_nil, or_false]
    omega
  refine ⟨?_, hturned.2, rfl⟩
  cases halone hagree with
  | some hentry => exact ⟨_, _, rfl, rfl, hentry⟩

end InferenceEngine
