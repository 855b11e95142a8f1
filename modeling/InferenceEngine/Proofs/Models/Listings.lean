import InferenceEngine.Model.Reconcile
import InferenceEngine.Proofs.OrderedMap

/-!
# What becomes of a listed model

A model that a scan lists gets an entry with its configuration and with the versions that are
listed.  What is under a version is told by the entry that the model had before, by the check of the
configuration and by the factory; nothing else has a say in it but the number of a model that is
loaded anew.
-/

namespace InferenceEngine

namespace Reconcile

/-!
# Versions

A loaded model that can be kept is kept, unless the configuration is not valid.
-/

/-- Whether an old entry has a loaded model for a version, under an equal configuration. -/
def Kept (old : Option ModelEntry) (config : ModelConfig) (v : Int) (model : LoadedModel) : Prop :=
  exists entry : ModelEntry, old = some entry ∧ entry.config = config ∧
    entry.versions.get? v = some (.ready model)

/-- What is under a listed version of a configuration; the numbers of those that are loaded anew lie
between two bounds. -/
inductive ComesTo (factory : BackendFactory) (strict : Bool) (old : Option ModelEntry)
    (config : ModelConfig) (first last : Nat) (v : Int) : VersionSlot -> Prop where
  | invalid (cause : Failure) (h : config.validate strict = .error cause) :
      ComesTo factory strict old config first last v (.unavailable cause)
  | kept (model : LoadedModel) (h : config.validate strict = .ok ())
      (hkept : Kept old config v model) :
      ComesTo factory strict old config first last v (.ready model)
  | loaded (number : Nat) (backend : Backend) (h : config.validate strict = .ok ())
      (hnew : forall model : LoadedModel, ¬ Kept old config v model)
      (hresult : (factory config v).result = .ok backend) (hfirst : first ≤ number)
      (hlast : number < last) :
      ComesTo factory strict old config first last v (.ready ⟨number, config, v, backend⟩)
  | failed (cause : Failure) (h : config.validate strict = .ok ())
      (hnew : forall model : LoadedModel, ¬ Kept old config v model)
      (hresult : (factory config v).result = .error cause) :
      ComesTo factory strict old config first last v (.unavailable cause)

variable {factory : BackendFactory} {strict : Bool} {old : Option ModelEntry}
  {config : ModelConfig} {v : Int}

theorem ComesTo.mono {first last first' last' : Nat} {slot : VersionSlot}
    (h : ComesTo factory strict old config first last v slot) (hfirst : first' ≤ first)
    (hlast : last ≤ last') : ComesTo factory strict old config first' last' v slot := by
  cases h with
  | invalid cause h => exact .invalid cause h
  | kept model h hkept => exact .kept model h hkept
  | loaded number backend h hnew hresult hfirst' hlast' =>
      exact .loaded number backend h hnew hresult (Nat.le_trans hfirst hfirst')
        (Nat.lt_of_lt_of_le hlast' hlast)
  | failed cause h hnew hresult => exact .failed cause h hnew hresult

theorem Kept.unique {model other : LoadedModel} (h : Kept old config v model)
    (k : Kept old config v other) : other = model := by
  rcases h with ⟨entry, hentry, _, hslot⟩
  rcases k with ⟨entry', hentry', _, hslot'⟩
  cases hentry.symm.trans hentry'
  cases hslot.symm.trans hslot'
  rfl

theorem ComesTo.of_invalid {first last : Nat} {slot : VersionSlot} {cause : Failure}
    (h : ComesTo factory strict old config first last v slot)
    (hcause : config.validate strict = .error cause) : slot = .unavailable cause := by
  cases h with
  | invalid other hother =>
      cases hother.symm.trans hcause
      rfl
  | kept model hvalid hkept => cases hvalid.symm.trans hcause
  | loaded number backend hvalid hnew hresult hfirst hlast => cases hvalid.symm.trans hcause
  | failed other hvalid hnew hresult => cases hvalid.symm.trans hcause

theorem ComesTo.eq_ready_iff {first last : Nat} {slot : VersionSlot} {model : LoadedModel}
    (h : ComesTo factory strict old config first last v slot) (hkept : Kept old config v model) :
    slot = .ready model ↔ config.validate strict = .ok () := by
  cases h with
  | invalid cause hinvalid =>
      rw [hinvalid]
      constructor <;> exact nofun
  | kept found hvalid hfound =>
      rw [hfound.unique hkept]
      exact ⟨fun _ => hvalid, fun _ => rfl⟩
  | loaded number backend hvalid hnew hresult hfirst hlast => exact absurd hkept (hnew model)
  | failed cause hvalid hnew hresult => exact absurd hkept (hnew model)

theorem ComesTo.of_loaded {first last : Nat} {slot : VersionSlot} {backend : Backend}
    (h : ComesTo factory strict old config first last v slot)
    (hvalid : config.validate strict = .ok ())
    (hnew : forall model : LoadedModel, ¬ Kept old config v model)
    (hbackend : (factory config v).result = .ok backend) : exists number : Nat,
      first ≤ number ∧ slot = .ready ⟨number, config, v, backend⟩ := by
  cases h with
  | invalid cause hinvalid => cases hinvalid.symm.trans hvalid
  | kept model _ hkept => exact absurd hkept (hnew model)
  | loaded number other _ _ hresult hfirst hlast =>
      cases hresult.symm.trans hbackend
      exact ⟨number, hfirst, rfl⟩
  | failed cause _ _ hresult => cases hresult.symm.trans hbackend

theorem ComesTo.of_failed {first last : Nat} {slot : VersionSlot} {cause : Failure}
    (h : ComesTo factory strict old config first last v slot)
    (hvalid : config.validate strict = .ok ())
    (hnew : forall model : LoadedModel, ¬ Kept old config v model)
    (hcause : (factory config v).result = .error cause) : slot = .unavailable cause := by
  cases h with
  | invalid other hinvalid => cases hinvalid.symm.trans hvalid
  | kept model _ hkept => exact absurd hkept (hnew model)
  | loaded number backend _ _ hresult hfirst hlast => cases hresult.symm.trans hcause
  | failed other _ _ hresult =>
      cases hresult.symm.trans hcause
      rfl

theorem ComesTo.isReady_iff {first last : Nat} {slot : VersionSlot}
    (h : ComesTo factory strict old config first last v slot) :
    (exists model : LoadedModel, slot = .ready model) ↔
      config.validate strict = .ok () ∧ ((exists model : LoadedModel, Kept old config v model) ∨
        exists backend : Backend, (factory config v).result = .ok backend) := by
  cases h with
  | invalid cause hinvalid =>
      rw [hinvalid]
      constructor
      · rintro ⟨model, hready⟩
        cases hready
      · rintro ⟨hvalid, _⟩
        cases hvalid
  | kept model hvalid hkept => exact ⟨fun _ => ⟨hvalid, .inl ⟨model, hkept⟩⟩, fun _ => ⟨_, rfl⟩⟩
  | loaded number backend hvalid hnew hresult hfirst hlast =>
      exact ⟨fun _ => ⟨hvalid, .inr ⟨backend, hresult⟩⟩, fun _ => ⟨_, rfl⟩⟩
  | failed cause hvalid hnew hresult =>
      constructor
      · rintro ⟨model, hready⟩
        cases hready
      · rintro ⟨_, ⟨model, hkept⟩ | ⟨backend, hbackend⟩⟩
        · exact absurd hkept (hnew model)
        · cases hresult.symm.trans hbackend

theorem keptFrom_eq_some_iff {model : LoadedModel} :
    keptFrom (old.filter fun entry => entry.config = config) v = some model ↔
      Kept old config v model := by
  unfold keptFrom Kept
  rw [Option.bind_eq_some_iff]
  constructor
  · rintro ⟨entry, hentry, hslot⟩
    rcases Option.filter_eq_some_iff.1 hentry with ⟨hold, hconfig⟩
    rcases Option.bind_eq_some_iff.1 hslot with ⟨slot, hget, hloaded⟩
    cases slot with
    | unavailable cause => cases hloaded
    | ready found =>
        cases hloaded
        exact ⟨entry, hold, of_decide_eq_true hconfig, hget⟩
  · rintro ⟨entry, hold, hconfig, hget⟩
    refine ⟨entry, Option.filter_eq_some_iff.2 ⟨hold, decide_eq_true hconfig⟩, ?_⟩
    rw [hget]
    rfl

theorem keptFrom_eq_none_iff :
    keptFrom (old.filter fun entry => entry.config = config) v = none ↔
      forall model : LoadedModel, ¬ Kept old config v model := by
  rw [Option.eq_none_iff_forall_ne_some]
  constructor
  · exact fun h model hkept => h model (keptFrom_eq_some_iff.2 hkept)
  · exact fun h model hsome => h model (keptFrom_eq_some_iff.1 hsome)

theorem le_next_version (kept? : Int -> Option LoadedModel) (next : Nat) (v : Int) :
    next ≤ (version factory config kept? next v).next := by
  unfold version
  split
  · exact Nat.le_refl _
  · split
    · exact Nat.le_succ _
    · exact Nat.le_refl _

theorem le_next_versions (kept? : Int -> Option LoadedModel) (vs : List Int) (next : Nat) :
    next ≤ (versions factory config kept? next vs).next := by
  induction vs generalizing next with
  | nil => exact Nat.le_refl _
  | cons v rest ih => exact Nat.le_trans (le_next_version kept? next v) (ih _)

theorem keys_versions (kept? : Int -> Option LoadedModel) (vs : List Int) (next : Nat) :
    (versions factory config kept? next vs).value.map Prod.fst = vs := by
  induction vs generalizing next with
  | nil => rfl
  | cons v rest ih => exact congrArg (v :: ·) (ih _)

theorem comesTo_version (h : config.validate strict = .ok ()) (next : Nat) (v : Int) :
    ComesTo factory strict old config next
      (version factory config (keptFrom (old.filter fun entry => entry.config = config)) next
        v).next
      v
      (version factory config (keptFrom (old.filter fun entry => entry.config = config)) next
        v).value := by
  unfold version
  split
  · rename_i model hkept
    exact .kept model h (keptFrom_eq_some_iff.1 hkept)
  · rename_i hkept
    have hnew := keptFrom_eq_none_iff.1 hkept
    split
    · rename_i backend hresult
      exact .loaded next backend h hnew hresult (Nat.le_refl _) (Nat.lt_succ_self _)
    · rename_i cause hresult
      exact .failed cause h hnew hresult

theorem comesTo_versions (h : config.validate strict = .ok ()) (vs : List Int) (next : Nat)
    {slot : VersionSlot}
    (hslot : (v, slot) ∈ (versions factory config
      (keptFrom (old.filter fun entry => entry.config = config)) next vs).value) :
    ComesTo factory strict old config next
      (versions factory config (keptFrom (old.filter fun entry => entry.config = config)) next
        vs).next v slot := by
  induction vs generalizing next with
  | nil => cases hslot
  | cons w rest ih =>
      rcases List.mem_cons.1 hslot with hfirst | hrest
      · cases hfirst
        exact (comesTo_version h next v).mono (Nat.le_refl _) (le_next_versions _ rest _)
      · exact (ih _ hrest).mono (le_next_version _ next w) (Nat.le_refl _)

/-!
# Entries
-/

theorem mem_listed {m : RepositoryModel} {v : Int} : v ∈ listed m ↔ v ∈ m.versions := by
  unfold listed
  rw [OrderedMap.mem_keys_ofList, List.map_map]
  simp

theorem nodup_listed (m : RepositoryModel) : (listed m).Nodup := OrderedMap.nodup_keys _

/-- Whether an entry is the one that a listed model gets in place of its old one. -/
structure Lists (factory : BackendFactory) (strict : Bool) (old : Option ModelEntry)
    (m : RepositoryModel) (first last : Nat) (entry : ModelEntry) : Prop where
  config : entry.config = m.config
  versions : forall v : Int, v ∈ entry.versions.keys ↔ v ∈ m.versions
  slots : forall (v : Int) (slot : VersionSlot), entry.versions.get? v = some slot ->
    ComesTo factory strict old m.config first last v slot

theorem Lists.mono {m : RepositoryModel} {first last first' last' : Nat} {entry : ModelEntry}
    (h : Lists factory strict old m first last entry) (hfirst : first' ≤ first)
    (hlast : last ≤ last') : Lists factory strict old m first' last' entry where
  config := h.config
  versions := h.versions
  slots v slot hslot := (h.slots v slot hslot).mono hfirst hlast

theorem lists_invalid {m : RepositoryModel} {cause : Failure}
    (h : m.config.validate strict = .error cause) (next : Nat) :
    Lists factory strict old m next (invalid m old cause next).next
      (invalid m old cause next).value where
  config := rfl
  versions v := by
    unfold invalid
    rw [OrderedMap.mem_keys_ofList, List.map_map]
    simp [mem_listed]
  slots v slot hslot := by
    have hmem := OrderedMap.mem_values_ofList (OrderedMap.mem_values_of_get? hslot)
    rw [List.map_map] at hmem
    rcases List.mem_map.1 hmem with ⟨w, _, rfl⟩
    exact .invalid cause h

theorem lists_valid {m : RepositoryModel} (h : m.config.validate strict = .ok ()) (next : Nat) :
    Lists factory strict old m next (valid factory m old next).next
      (valid factory m old next).value where
  config := rfl
  versions v := by
    unfold valid assemble
    rw [OrderedMap.mem_keys_ofList, keys_versions]
    exact mem_listed
  slots v slot hslot := by
    apply comesTo_versions h (listed m) next
    refine (OrderedMap.get?_ofList_eq_some_iff ?_).1 hslot
    rw [keys_versions]
    exact nodup_listed m

theorem lists_model (m : RepositoryModel) (old : Option ModelEntry) (next : Nat) :
    Lists factory strict old m next (model factory strict m old next).next
      (model factory strict m old next).value := by
  unfold model
  split
  · rename_i cause hinvalid
    exact lists_invalid hinvalid next
  · rename_i hvalid
    exact lists_valid hvalid next

theorem le_next_model (m : RepositoryModel) (old : Option ModelEntry) (next : Nat) :
    next ≤ (model factory strict m old next).next := by
  unfold model
  split
  · exact Nat.le_refl _
  · exact le_next_versions _ (listed m) next

/-!
# Scans

A name that a scan does not list is left alone.
-/

/-- Whether something holds of each entry of a table, given its name. -/
def Each (P : String -> ModelEntry -> Prop) (table : ModelTable) : Prop :=
  forall (name : String) (entry : ModelEntry), OrderedMap.get? table name = some entry ->
    P name entry

theorem each_empty {P : String -> ModelEntry -> Prop} : Each P .empty := by
  intro name entry hentry
  cases hentry

theorem Each.insert {P : String -> ModelEntry -> Prop} {table : ModelTable} (h : Each P table)
    {name : String} {entry : ModelEntry} (hentry : P name entry) :
    Each P (OrderedMap.insert table name entry) := by
  intro other found hfound
  by_cases hsame : other = name
  · rw [hsame, OrderedMap.get?_insert_self] at hfound
    cases hfound
    rw [hsame]
    exact hentry
  · rw [OrderedMap.get?_insert_of_ne hsame] at hfound
    exact h other found hfound

theorem Each.erase {P : String -> ModelEntry -> Prop} {table : ModelTable} (h : Each P table)
    (name : String) : Each P (OrderedMap.erase table name) := by
  intro other found hfound
  by_cases hsame : other = name
  · rw [hsame, OrderedMap.get?_erase_self] at hfound
    cases hfound
  · rw [OrderedMap.get?_erase_of_ne hsame] at hfound
    exact h other found hfound

theorem le_next_models (scan : List RepositoryModel) (previous table : ModelTable) (next : Nat) :
    next ≤ (models factory strict previous table next scan).next := by
  induction scan generalizing previous table next with
  | nil => exact Nat.le_refl _
  | cons m rest ih => exact Nat.le_trans (le_next_model m _ next) (ih _ _ _)

/-- What holds of old entries, and so of each entry that a model gets in place of one, holds of all
entries in the end; a scan may list a name more than once. -/
theorem Each.models_between {P : String -> ModelEntry -> Prop} {first bound : Nat}
    (hmodel : forall (m : RepositoryModel) (old : Option ModelEntry) (next : Nat),
      (forall entry : ModelEntry, old = some entry -> P m.config.name entry) -> first ≤ next ->
      (model factory strict m old next).next ≤ bound ->
        P m.config.name (model factory strict m old next).value)
    (scan : List RepositoryModel) {previous table : ModelTable} {next : Nat} (hfirst : first ≤ next)
    (hbound : (models factory strict previous table next scan).next ≤ bound)
    (hprevious : Each P previous) (htable : Each P table) :
    Each P (models factory strict previous table next scan).value.1 := by
  induction scan generalizing previous table next with
  | nil => exact htable
  | cons m rest ih =>
      apply ih (Nat.le_trans hfirst (le_next_model m _ next)) hbound (hprevious.erase _)
      apply htable.insert
      apply hmodel m _ next (fun entry hentry => hprevious m.config.name entry hentry) hfirst
      exact Nat.le_trans (le_next_models rest _ _ _) hbound

theorem Each.models {P : String -> ModelEntry -> Prop} {bound : Nat}
    (hmodel : forall (m : RepositoryModel) (old : Option ModelEntry) (next : Nat),
      (forall entry : ModelEntry, old = some entry -> P m.config.name entry) ->
      (model factory strict m old next).next ≤ bound ->
        P m.config.name (model factory strict m old next).value)
    (scan : List RepositoryModel) {previous table : ModelTable} {next : Nat}
    (hbound : (models factory strict previous table next scan).next ≤ bound)
    (hprevious : Each P previous) (htable : Each P table) :
    Each P (models factory strict previous table next scan).value.1 :=
  Each.models_between (fun m old next hold _ => hmodel m old next hold) scan (Nat.zero_le next)
    hbound hprevious htable

theorem get?_models_of_not_mem {scan : List RepositoryModel} {name : String}
    (h : name ∉ scan.map fun m => m.config.name) (previous table : ModelTable) (next : Nat) :
    OrderedMap.get? (models factory strict previous table next scan).value.1 name =
        OrderedMap.get? table name ∧
      OrderedMap.get? (models factory strict previous table next scan).value.2 name =
        OrderedMap.get? previous name := by
  induction scan generalizing previous table next with
  | nil => exact ⟨rfl, rfl⟩
  | cons m rest ih =>
      rw [List.map_cons, List.mem_cons, not_or] at h
      rcases ih h.2 (OrderedMap.erase previous m.config.name)
        (OrderedMap.insert table m.config.name
          (model factory strict m (OrderedMap.get? previous m.config.name) next).value)
        (model factory strict m (OrderedMap.get? previous m.config.name) next).next with
        ⟨htable, hprevious⟩
      constructor
      · exact htable.trans (OrderedMap.get?_insert_of_ne h.1 _ _)
      · exact hprevious.trans (OrderedMap.get?_erase_of_ne h.1 _)

/-- A model that a scan lists once gets its entry, whatever else is listed; only the number that is
next hangs on what comes before. -/
theorem get?_models {scan : List RepositoryModel}
    (h : (scan.map fun m => m.config.name).Nodup) (previous table : ModelTable) (next : Nat)
    {m : RepositoryModel} (hm : m ∈ scan) : exists first : Nat, next ≤ first ∧
      (model factory strict m (OrderedMap.get? previous m.config.name) first).next ≤
        (models factory strict previous table next scan).next ∧
      OrderedMap.get? (models factory strict previous table next scan).value.1 m.config.name =
        some (model factory strict m (OrderedMap.get? previous m.config.name) first).value := by
  induction scan generalizing previous table next with
  | nil => cases hm
  | cons head rest ih =>
      rw [List.map_cons, List.nodup_cons] at h
      rcases List.mem_cons.1 hm with rfl | hrest
      · refine ⟨next, Nat.le_refl _, le_next_models rest _ _ _, ?_⟩
        refine (get?_models_of_not_mem h.1 _ _ _).1.trans ?_
        exact OrderedMap.get?_insert_self _ _ _
      · have hne : m.config.name ≠ head.config.name := by
          intro hsame
          exact h.1 (hsame ▸ List.mem_map.2 ⟨m, hrest, rfl⟩)
        rcases ih h.2 (OrderedMap.erase previous head.config.name)
          (OrderedMap.insert table head.config.name
            (model factory strict head (OrderedMap.get? previous head.config.name) next).value)
          (model factory strict head (OrderedMap.get? previous head.config.name) next).next hrest
          with ⟨first, hfirst, hlast, hentry⟩
        rw [OrderedMap.get?_erase_of_ne hne] at hlast hentry
        exact ⟨first, Nat.le_trans (le_next_model head _ next) hfirst, hlast, hentry⟩

theorem lists_models {scan : List RepositoryModel}
    (h : (scan.map fun m => m.config.name).Nodup) (previous table : ModelTable) (next : Nat)
    {m : RepositoryModel} (hm : m ∈ scan) : exists entry : ModelEntry,
      OrderedMap.get? (models factory strict previous table next scan).value.1 m.config.name =
        some entry ∧
      Lists factory strict (OrderedMap.get? previous m.config.name) m next
        (models factory strict previous table next scan).next entry := by
  have hmodel := @get?_models factory strict scan h previous table next m hm
  rcases hmodel with ⟨first, hfirst, hlast, hentry⟩
  exact ⟨_, hentry, (lists_model m _ first).mono hfirst hlast⟩

end Reconcile

theorem ModelTable.mem_keys_reconcile {factory : BackendFactory} {strict : Bool}
    {table : ModelTable} {next : Nat} {scan : List RepositoryModel}
    (h : (scan.map fun m => m.config.name).Nodup) {name : String} :
    name ∈ OrderedMap.keys (table.reconcile factory strict next scan).value ↔
      name ∈ scan.map fun m => m.config.name := by
  rw [← OrderedMap.contains_iff_mem_keys]
  unfold OrderedMap.contains
  by_cases hname : name ∈ scan.map fun m => m.config.name
  · rcases List.mem_map.1 hname with ⟨m, hm, rfl⟩
    have hmodel := @Reconcile.get?_models factory strict scan h table .empty next m hm
    rcases hmodel with ⟨first, _, _, hentry⟩
    exact ⟨fun _ => hname, fun _ => Option.isSome_iff_exists.2 ⟨_, hentry⟩⟩
  · have hnone := @Reconcile.get?_models_of_not_mem factory strict scan name hname table .empty next
    constructor
    · intro hsome
      rcases Option.isSome_iff_exists.1 hsome with ⟨entry, hentry⟩
      cases hnone.1.symm.trans hentry
    · exact fun hmem => absurd hmem hname

end InferenceEngine
