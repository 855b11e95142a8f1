import Mathlib.Data.List.Induction
import InferenceEngine.Model.Repository
import InferenceEngine.Proofs.Models.Scans

/-!
# Repositories and what a scan of them asks for

A repository lists what was inserted last under each name, and each name once.  A reconciliation
with it asks the factory for exactly those versions that it cannot keep, as long as the check of
their configuration succeeds, and for each of them once.
-/

namespace InferenceEngine

/-!
# Histories of a repository

What is found under a name is what was inserted last under it.
-/

inductive RepositoryChange where
  | insert (config : ModelConfig) (versions : List Int)
  | remove (name : String)

def RepositoryChange.name : RepositoryChange -> String
  | insert config _ => config.name
  | remove name => name

namespace Repository

def change (r : Repository) : RepositoryChange -> Repository
  | .insert config versions => r.insertModel config versions
  | .remove name => OrderedMap.erase r name

def changed (changes : List RepositoryChange) : Repository := changes.foldl change .empty

/-- Whether a model was the last to be inserted under its name, and was not removed since. -/
def IsLast (m : RepositoryModel) (changes : List RepositoryChange) : Prop :=
  exists earlier later : List RepositoryChange,
    changes = earlier ++ .insert m.config m.versions :: later ∧
    forall c : RepositoryChange, c ∈ later -> c.name ≠ m.config.name

theorem isLast_concat {m : RepositoryModel} {changes : List RepositoryChange}
    {last : RepositoryChange} : IsLast m (changes ++ [last]) ↔
      last = .insert m.config m.versions ∨ last.name ≠ m.config.name ∧ IsLast m changes := by
  constructor
  · rintro ⟨earlier, later, hsplit, hlater⟩
    rcases List.eq_nil_or_concat later with rfl | ⟨init, final, rfl⟩
    · exact .inl (List.singleton_inj.1 (List.append_inj' hsplit rfl).2)
    · have hsame : changes ++ [last] =
          (earlier ++ .insert m.config m.versions :: init) ++ [final] := by
        simpa using hsplit
      rcases List.append_inj' hsame rfl with ⟨rfl, hlast⟩
      rw [List.singleton_inj.1 hlast]
      refine .inr ⟨hlater final (by simp), earlier, init, rfl, ?_⟩
      exact fun c hc => hlater c (by simp [hc])
  · rintro (rfl | ⟨hother, earlier, later, rfl, hlater⟩)
    · exact ⟨changes, [], rfl, fun c hc => by cases hc⟩
    · refine ⟨earlier, later ++ [last], by simp, ?_⟩
      intro c hc
      rcases List.mem_append.1 hc with hc | hc
      · exact hlater c hc
      · rw [List.mem_singleton.1 hc]
        exact hother

theorem get?_changed (changes : List RepositoryChange) (name : String) (m : RepositoryModel) :
    OrderedMap.get? (changed changes) name = some m ↔ m.config.name = name ∧ IsLast m changes := by
  induction changes using List.reverseRecOn with
  | nil =>
      constructor
      · intro hfound
        cases hfound
      · rintro ⟨_, earlier, later, hsplit, _⟩
        exact absurd hsplit.symm (by simp)
  | append_singleton changes last ih =>
      have hchanged : changed (changes ++ [last]) = (changed changes).change last := by
        simp [changed, List.foldl_append]
      rw [hchanged, isLast_concat]
      cases last with
      | insert config versions =>
          show OrderedMap.get? (OrderedMap.insert _ config.name _) name = some m ↔ _
          by_cases hname : name = config.name
          · rw [hname, OrderedMap.get?_insert_self]
            constructor
            · intro hfound
              cases hfound
              exact ⟨rfl, .inl rfl⟩
            · rintro ⟨hsame, hlast | ⟨hother, _⟩⟩
              · cases hlast
                rfl
              · exact absurd hsame.symm hother
          · rw [OrderedMap.get?_insert_of_ne hname, ih]
            constructor
            · rintro ⟨hsame, hlast⟩
              exact ⟨hsame, .inr ⟨fun heq => hname (hsame.symm.trans heq.symm), hlast⟩⟩
            · rintro ⟨hsame, hlast | ⟨_, hlast⟩⟩
              · cases hlast
                exact absurd hsame.symm hname
              · exact ⟨hsame, hlast⟩
      | remove other =>
          show OrderedMap.get? (OrderedMap.erase _ other) name = some m ↔ _
          by_cases hname : name = other
          · rw [hname, OrderedMap.get?_erase_self]
            constructor
            · intro hfound
              cases hfound
            · rintro ⟨hsame, hlast | ⟨hother, _⟩⟩
              · cases hlast
              · exact absurd hsame.symm hother
          · rw [OrderedMap.get?_erase_of_ne hname, ih]
            constructor
            · rintro ⟨hsame, hlast⟩
              exact ⟨hsame, .inr ⟨fun heq => hname (hsame.symm.trans heq.symm), hlast⟩⟩
            · rintro ⟨hsame, hlast | ⟨_, hlast⟩⟩
              · cases hlast
              · exact ⟨hsame, hlast⟩

theorem mem_scan (changes : List RepositoryChange) (m : RepositoryModel) :
    m ∈ (changed changes).scan ↔ IsLast m changes := by
  constructor
  · intro hm
    rcases List.mem_map.1 hm with ⟨⟨name, _⟩, hentry, rfl⟩
    exact ((get?_changed changes name _).1 (OrderedMap.get?_eq_some_iff.2 hentry)).2
  · intro hlast
    exact OrderedMap.mem_values_of_get? ((get?_changed changes m.config.name m).2 ⟨rfl, hlast⟩)

theorem nodup_scan (changes : List RepositoryChange) :
    ((changed changes).scan.map fun m => m.config.name).Nodup := by
  have hnames : (changed changes).scan.map (fun m => m.config.name) =
      OrderedMap.keys (changed changes) := by
    unfold Repository.scan OrderedMap.values OrderedMap.keys
    rw [List.map_map]
    apply List.map_congr_left
    rintro ⟨name, m⟩ hentry
    exact ((get?_changed changes name m).1 (OrderedMap.get?_eq_some_iff.2 hentry)).1
  rw [hnames]
  exact OrderedMap.nodup_keys _

end Repository

/-!
# What the factory is asked for
-/

def LoadAction.created? : LoadAction -> Option (ModelConfig × Int)
  | create config v => some (config, v)
  | report _ => none

namespace Reconcile

variable {factory : BackendFactory} {strict : Bool} {old : Option ModelEntry}

def creations (actions : List LoadAction) : List (ModelConfig × Int) :=
  actions.filterMap LoadAction.created?

theorem creations_append (actions more : List LoadAction) :
    creations (actions ++ more) = creations actions ++ creations more :=
  List.filterMap_append

theorem creations_reports {α : Type} (event : α -> Event) (xs : List α) :
    creations (xs.map fun x => .report (event x)) = [] := by
  unfold creations
  rw [List.filterMap_map]
  exact List.filterMap_eq_nil_iff.2 fun _ _ => rfl

theorem creations_versions (config : ModelConfig) (kept? : Int -> Option LoadedModel)
    (vs : List Int) (next : Nat) :
    creations (versions factory config kept? next vs).actions =
      (vs.filter fun v => (kept? v).isNone).map fun v => (config, v) := by
  induction vs generalizing next with
  | nil => rfl
  | cons v rest ih =>
      refine (creations_append _ _).trans ?_
      rw [ih]
      unfold version
      cases hkept : kept? v with
      | some model => simp [hkept, creations]
      | none =>
          simp only [List.filter_cons, hkept, Option.isNone_none]
          cases (factory config v).result with
          | ok backend => rfl
          | error cause => rfl

theorem creations_valid (m : RepositoryModel) (next : Nat) :
    creations (valid factory m old next).actions =
      ((listed m).filter fun v =>
        (keptFrom (old.filter fun entry => entry.config = m.config) v).isNone).map
          fun v => (m.config, v) := by
  unfold valid assemble
  simp only
  rw [creations_append, creations_append, creations_reports, creations_versions, List.append_nil]
  split <;> rfl

/-- A model asks for the listed versions that are not kept, if its configuration is valid. -/
theorem mem_creations_model {m : RepositoryModel} {next : Nat} {config : ModelConfig} {v : Int} :
    (config, v) ∈ creations (model factory strict m old next).actions ↔
      m.config = config ∧ v ∈ m.versions ∧ config.validate strict = .ok () ∧
        forall loaded : LoadedModel, ¬ Kept old config v loaded := by
  unfold model
  split
  · rename_i cause hinvalid
    constructor
    · intro hmem
      cases hmem
    · rintro ⟨rfl, _, hvalid, _⟩
      cases hinvalid.symm.trans hvalid
  · rename_i hvalid
    rw [creations_valid, List.mem_map]
    simp only [List.mem_filter, mem_listed, Option.isNone_iff_eq_none, keptFrom_eq_none_iff]
    constructor
    · rintro ⟨w, ⟨hlisted, hnew⟩, hsame⟩
      cases hsame
      exact ⟨rfl, hlisted, hvalid, hnew⟩
    · rintro ⟨rfl, hlisted, _, hnew⟩
      exact ⟨v, ⟨hlisted, hnew⟩, rfl⟩

theorem nodup_creations_model (m : RepositoryModel) (next : Nat) :
    (creations (model factory strict m old next).actions).Nodup := by
  unfold model
  split
  · exact List.nodup_nil
  · rw [creations_valid]
    exact ((nodup_listed m).filter _).map fun v w hsame => (Prod.mk.inj hsame).2

theorem creations_reconcile {scan : List RepositoryModel}
    (h : (scan.map fun m => m.config.name).Nodup) (table : ModelTable) (next : Nat) :
    creations (table.reconcile factory strict next scan).actions =
      scan.flatMap fun m => creations (alone factory strict table m).actions := by
  unfold ModelTable.reconcile complete removed
  simp only
  rw [creations_append, creations_append, creations_reports, (models_alone h _ _ _).2]
  unfold creations
  rw [List.filterMap_flatMap, List.append_nil]
  exact List.append_nil _

/-- A reconciliation asks for each listed version that is not kept, if its configuration is valid,
and for nothing else. -/
theorem mem_creations_reconcile {scan : List RepositoryModel}
    (h : (scan.map fun m => m.config.name).Nodup) (table : ModelTable) (next : Nat)
    {config : ModelConfig} {v : Int} :
    (config, v) ∈ creations (table.reconcile factory strict next scan).actions ↔
      exists m : RepositoryModel, m ∈ scan ∧ m.config = config ∧ v ∈ m.versions ∧
        config.validate strict = .ok () ∧
        forall loaded : LoadedModel,
          ¬ Kept (OrderedMap.get? table config.name) config v loaded := by
  rw [creations_reconcile h, List.mem_flatMap]
  constructor
  · rintro ⟨m, hm, hmem⟩
    rcases mem_creations_model.1 hmem with ⟨rfl, hrest⟩
    exact ⟨m, hm, rfl, hrest⟩
  · rintro ⟨m, hm, rfl, hrest⟩
    exact ⟨m, hm, mem_creations_model.2 ⟨rfl, hrest⟩⟩

theorem nodup_creations_reconcile {scan : List RepositoryModel}
    (h : (scan.map fun m => m.config.name).Nodup) (table : ModelTable) (next : Nat) :
    (creations (table.reconcile factory strict next scan).actions).Nodup := by
  rw [creations_reconcile h, List.nodup_flatMap]
  refine ⟨fun m _ => nodup_creations_model m 0, ?_⟩
  apply (List.pairwise_map.1 h).imp
  rintro m other hne ⟨config, v⟩ hmem hother
  apply hne
  rw [(mem_creations_model.1 hmem).1, (mem_creations_model.1 hother).1]

end Reconcile

end InferenceEngine
