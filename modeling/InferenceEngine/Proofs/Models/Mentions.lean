import InferenceEngine.Proofs.Models.ExitOnError
import InferenceEngine.Proofs.Models.Mirror

/-!
# Models that a scan lists more than once

Nothing keeps a repository from listing a name more than once.  The first model of the name takes
the old entry over, and the last one makes the new entry.  So what is listed as before keeps its
loaded models only if it is listed once: else they are given to an entry that another one replaces.
-/

namespace InferenceEngine

namespace ModelTable

/-- Whether a version that a table has ready under a configuration is listed by a later table under
an equal one. -/
structure Relists (table later : ModelTable) (name : String) (config : ModelConfig) (v : Int)
    (model : LoadedModel) : Prop where
  ready : exists entry : ModelEntry, OrderedMap.get? table name = some entry ∧
    entry.config = config ∧ entry.versions.get? v = some (.ready model)
  listed : exists entry : ModelEntry, OrderedMap.get? later name = some entry ∧
    entry.config = config ∧ v ∈ entry.versions.keys

/-- Whether a table serves a version of a name with a certain loaded model. -/
def Serves (table : ModelTable) (name : String) (v : Int) (model : LoadedModel) : Prop :=
  exists entry : ModelEntry, OrderedMap.get? table name = some entry ∧
    entry.versions.get? v = some (.ready model)

def mentions (name : String) (scan : List RepositoryModel) : Nat :=
  (scan.map fun m => m.config.name).count name

theorem mentions_eq_one_iff {before after : List RepositoryModel} {m : RepositoryModel}
    (hlast : m.config.name ∉ after.map fun m => m.config.name) :
    mentions m.config.name (before ++ m :: after) = 1 ↔
      m.config.name ∉ before.map fun m => m.config.name := by
  unfold mentions
  rw [List.map_append, List.map_cons, List.count_append, List.count_cons_self,
    List.count_eq_zero_of_not_mem hlast, ← List.count_eq_zero]
  omega

end ModelTable

namespace Reconcile

variable {factory : BackendFactory} {strict : Bool}

theorem Lists.ne_ready_of_none {m : RepositoryModel} {first last : Nat} {entry : ModelEntry}
    (h : Lists factory strict none m first last entry) {model : LoadedModel}
    (hnumber : model.number < first) (v : Int) :
    entry.versions.get? v ≠ some (.ready model) := by
  intro hslot
  cases h.slots v _ hslot with
  | kept _ _ hkept =>
      rcases hkept with ⟨_, hnothing, _⟩
      cases hnothing
  | loaded number backend _ _ _ hfirst _ => exact absurd hnumber (Nat.not_lt.2 hfirst)

end Reconcile

namespace ModelTable

variable {factory : BackendFactory} {strict : Bool} {table : ModelTable} {next : Nat}
  {scan : List RepositoryModel} {name : String} {config : ModelConfig} {v : Int}
  {model : LoadedModel}

theorem Relists.serves_iff
    (h : table.Relists (table.reconcile factory strict next scan).value name config v model)
    (hnumber : model.number < next) :
    (table.reconcile factory strict next scan).value.Serves name v model ↔
      mentions name scan = 1 ∧ config.validate strict = .ok () := by
  rcases h with ⟨⟨old, hold, holdConfig, holdSlot⟩, ⟨entry, hentry, hconfig, hv⟩⟩
  have hname : name ∈ scan.map fun m => m.config.name :=
    Reconcile.mem_names_of_mem_keys
      (OrderedMap.contains_iff_mem_keys.1 (Option.isSome_of_eq_some hentry))
  rcases Reconcile.exists_last_of_mem hname with ⟨before, m, after, rfl, rfl, hlast⟩
  rcases ModelTable.get?_reconcile_of_last factory strict table next before hlast with
    ⟨last, found, hfound, hlists⟩
  cases hfound.symm.trans hentry
  have hserves : (table.reconcile factory strict next (before ++ m :: after)).value.Serves
      m.config.name v model ↔ entry.versions.get? v = some (.ready model) := by
    constructor
    · rintro ⟨other, hother, hslot⟩
      cases hother.symm.trans hentry
      exact hslot
    · exact fun hslot => ⟨entry, hentry, hslot⟩
  rw [hserves, mentions_eq_one_iff hlast]
  unfold Reconcile.takenOver at hlists
  by_cases hbefore : m.config.name ∈ before.map fun m => m.config.name
  · rw [if_pos hbefore] at hlists
    constructor
    · exact fun hslot => absurd hslot (hlists.ne_ready_of_none hnumber v)
    · exact fun hboth => absurd hbefore hboth.1
  · rw [if_neg hbefore] at hlists
    have hsame : m.config = config := hlists.config.symm.trans hconfig
    have hkept : Reconcile.Kept (OrderedMap.get? table m.config.name) m.config v model :=
      ⟨old, hold, holdConfig.trans hsame.symm, holdSlot⟩
    rw [hlists.get?_eq_ready_iff hkept, ← hsame]
    constructor
    · rintro ⟨_, hvalid⟩
      exact ⟨hbefore, hvalid⟩
    · rintro ⟨_, hvalid⟩
      exact ⟨(hlists.versions v).1 hv, hvalid⟩

end ModelTable

namespace Engine

/-- A poll of a serving server leaves it with the table that the scan asks for, or with none. -/
theorem table_poll {ops : List Operation} {k : Nat} (h : ((reached ops).server k).state = .serving)
    (scan : List RepositoryModel) (factory : Option BackendFactory) :
    (((reached ops).poll k (.ok scan) factory).2.server k).table = .empty ∨
      (((reached ops).poll k (.ok scan) factory).2.server k).table =
        (((reached ops).server k).table.reconcile (factory.getD .absent)
          ((reached ops).server k).options.strictModelConfig (reached ops).stats.length
            scan).value := by
  have hk := lt_length_of_serving h
  by_cases hrunning : forall done : Nat,
      (((reached ops).loading k factory scan done).server k).state ≠ .stopped
  · right
    rw [poll_of_running hk h hrunning]
    rfl
  · left
    rcases not_forall.1 hrunning with ⟨done, hstopped⟩
    have hend := (poll_of_stopped hk h (Classical.not_not.1 hstopped)).2
    have htends := (tends_reached ops).trans (tends_poll (reached ops) k (.ok scan) factory)
    exact htends.isCleared k hend

/-- Loaded models of a server have numbers below the next one, and their configurations have passed
the check. -/
theorem is_loaded_of_reached (ops : List Operation) {k : Nat} {name : String} {entry : ModelEntry}
    {v : Int} {model : LoadedModel}
    (hentry : OrderedMap.get? ((reached ops).server k).table name = some entry)
    (hslot : entry.versions.get? v = some (.ready model)) :
    model.number < (reached ops).stats.length ∧
      entry.config.validate ((reached ops).server k).options.strictModelConfig = .ok () := by
  have hnumber := counted_reached ops k name entry hentry v model hslot
  rcases formed_reached ops k with ⟨changes, htable⟩
  rw [htable] at hentry
  have hplace := ModelTable.isInPlace_changed _ changes name entry hentry
  rcases hplace.ready v model hslot with ⟨_, hconfig, hvalid⟩
  rw [hconfig] at hvalid
  exact ⟨hnumber, hvalid⟩

/-- A version that was ready and is listed again under an equal configuration is served by the very
same loaded model, with its backend and its counters, if and only if the scan lists the name once.
This holds of each reconciliation of a table whose numbers lie below the next one, if the
configuration passes the check; and it holds of each poll of a serving server in each run, where
both are always so. -/
theorem served_still_iff_listed_once (scan : List RepositoryModel) (name : String)
    (config : ModelConfig) (v : Int) (model : LoadedModel) :
    (forall (factory : BackendFactory) (strict : Bool) (table : ModelTable) (next : Nat),
      table.Relists (table.reconcile factory strict next scan).value name config v model ->
      model.number < next ->
        ((table.reconcile factory strict next scan).value.Serves name v model ↔
          ModelTable.mentions name scan = 1 ∧ config.validate strict = .ok ())) ∧
    forall (ops : List Operation) (k : Nat) (factory : Option BackendFactory),
      ((reached ops).server k).state = .serving ->
      ((reached ops).server k).table.Relists
        (((reached ops).poll k (.ok scan) factory).2.server k).table name config v model ->
        ((((reached ops).poll k (.ok scan) factory).2.server k).table.Serves name v model ↔
          ModelTable.mentions name scan = 1) := by
  constructor
  · intro factory strict table next hrelists hnumber
    exact hrelists.serves_iff hnumber
  · intro ops k factory hserving hrelists
    rcases hrelists.ready with ⟨entry, hentry, hconfig, hslot⟩
    rcases is_loaded_of_reached ops hentry hslot with ⟨hnumber, hvalid⟩
    rcases table_poll hserving scan factory with hempty | hpolled
    · rcases hrelists.listed with ⟨later, hlater, _⟩
      rw [hempty] at hlater
      cases hlater
    · rw [hpolled] at hrelists ⊢
      rw [hrelists.serves_iff hnumber, ← hconfig]
      constructor
      · exact fun hboth => hboth.1
      · exact fun hone => ⟨hone, hvalid⟩

def builtModel : LoadedModel := ⟨0, copyModel, 1, Identity.backend⟩

def repeatedScan (times : Nat) : List RepositoryModel :=
  List.replicate times ⟨copyModel, [1]⟩

def readyFactory : BackendFactory := fun _ _ => ⟨false, .ok Identity.backend⟩

/-- Listed once more, the model is kept, in a run as in a reconciliation of the same table. -/
theorem served_of_repeatedScan :
    (((reached copyRun).server 0).table.Relists
      (((reached copyRun).server 0).table.reconcile readyFactory true 1 (repeatedScan 1)).value
        "copy" copyModel 1 builtModel ∧
      builtModel.number < 1 ∧
      (((reached copyRun).server 0).table.reconcile readyFactory true 1
        (repeatedScan 1)).value.Serves "copy" 1 builtModel) ∧
    ((reached copyRun).server 0).state = .serving ∧
    ((reached copyRun).server 0).table.Relists
      (((reached copyRun).poll 0 (.ok (repeatedScan 1)) (some readyFactory)).2.server 0).table
        "copy" copyModel 1 builtModel ∧
    (((reached copyRun).poll 0 (.ok (repeatedScan 1)) (some readyFactory)).2.server 0).table.Serves
      "copy" 1 builtModel := by
  have hreconciled : ((reached copyRun).server 0).table.Relists
      (((reached copyRun).server 0).table.reconcile readyFactory true 1 (repeatedScan 1)).value
        "copy" copyModel 1 builtModel := ⟨⟨_, rfl, rfl, rfl⟩, ⟨_, rfl, rfl, by decide⟩⟩
  have hnumber : builtModel.number < 1 := by decide
  have hpolled : ((reached copyRun).server 0).table.Relists
      (((reached copyRun).poll 0 (.ok (repeatedScan 1)) (some readyFactory)).2.server 0).table
        "copy" copyModel 1 builtModel := ⟨⟨_, rfl, rfl, rfl⟩, ⟨_, rfl, rfl, by decide⟩⟩
  have hvalid : copyModel.validate true = .ok () := by decide
  rcases served_still_iff_listed_once (repeatedScan 1) "copy" copyModel 1 builtModel with
    ⟨hreconcile, hpoll⟩
  refine ⟨⟨hreconciled, hnumber, ?_⟩, rfl, hpolled, ?_⟩
  · exact (hreconcile readyFactory true _ 1 hreconciled hnumber).2 ⟨by decide, hvalid⟩
  · exact (hpoll copyRun 0 (some readyFactory) rfl hpolled).2 (by decide)

/-- Listed twice, just as it was before, the model is loaded anew, and its counters begin at
zero. -/
theorem listed_twice_is_loaded_anew :
    ((reached answeredRun).server 0).state = .serving ∧
    ((reached answeredRun).statsOf builtModel.number).success = 1 ∧
    ((reached answeredRun).server 0).table.Relists
      (((reached answeredRun).poll 0 (.ok (repeatedScan 2)) (some readyFactory)).2.server 0).table
        "copy" copyModel 1 builtModel ∧
    ¬ (((reached answeredRun).poll 0 (.ok (repeatedScan 2))
      (some readyFactory)).2.server 0).table.Serves "copy" 1 builtModel ∧
    (((reached answeredRun).poll 0 (.ok (repeatedScan 2))
      (some readyFactory)).2.server 0).table.Serves "copy" 1 { builtModel with number := 1 } ∧
    (((reached answeredRun).poll 0 (.ok (repeatedScan 2)) (some readyFactory)).2.statsOf
      1).success = 0 := by
  refine ⟨rfl, rfl, ⟨⟨_, rfl, rfl, rfl⟩, ⟨_, rfl, rfl, by decide⟩⟩, ?_, ⟨_, rfl, rfl⟩, rfl⟩
  rintro ⟨entry, hentry, hslot⟩
  have hanew : entry.versions.get? 1 = some (.ready { builtModel with number := 1 }) := by
    rw [← Option.some.inj hentry]
    rfl
  cases hanew.symm.trans hslot

end Engine

end InferenceEngine
