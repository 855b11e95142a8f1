import Mathlib.Data.List.Induction
import InferenceEngine.Proofs.Models.Configs
import InferenceEngine.Proofs.Models.Listings
import InferenceEngine.Proofs.Models.Tables
import InferenceEngine.Proofs.Requests.Acceptance

/-!
# Entries in their places

A version that is kept brings along the configuration of an earlier scan, while its entry gets the
one of the new scan.  They are equal, and so it remains true of every entry that its ready versions
are what they are taken for.
-/

namespace InferenceEngine

/-!
# One entry
-/

/-- Whether an entry is in its place: it is stored under the name of its configuration, and what is
ready under a version is a loaded model of that version and of that configuration, which has passed
the check. -/
structure ModelEntry.IsInPlace (strict : Bool) (name : String) (entry : ModelEntry) : Prop where
  name : entry.config.name = name
  ready : forall (v : Int) (model : LoadedModel), entry.versions.get? v = some (.ready model) ->
    model.version = v ∧ model.config = entry.config ∧ model.config.validate strict = .ok ()

namespace Reconcile

theorem Lists.isInPlace {factory : BackendFactory} {strict : Bool} {old : Option ModelEntry}
    {m : RepositoryModel} {first last : Nat} {entry : ModelEntry}
    (h : Lists factory strict old m first last entry)
    (hold : forall before : ModelEntry, old = some before ->
      before.IsInPlace strict m.config.name) : entry.IsInPlace strict m.config.name where
  name := by rw [h.config]
  ready v model hslot := by
    rw [h.config]
    cases h.slots v _ hslot with
    | kept _ hvalid hkept =>
        rcases hkept with ⟨before, hbefore, hsame, hready⟩
        rcases (hold before hbefore).ready v model hready with ⟨hversion, hconfig, hpassed⟩
        exact ⟨hversion, hconfig.trans hsame, hpassed⟩
    | loaded number backend hvalid hnew hresult hfirst hlast => exact ⟨rfl, rfl, hvalid⟩

end Reconcile

/-!
# Tables
-/

theorem ModelTable.isInPlace_changed (strict : Bool) (changes : List TableChange) :
    Reconcile.Each (ModelEntry.IsInPlace strict) (ModelTable.changed strict changes) := by
  induction changes using List.reverseRecOn with
  | nil => exact Reconcile.each_empty
  | append_singleton changes last ih =>
      rw [ModelTable.changed_concat]
      cases last with
      | clear => exact Reconcile.each_empty
      | reconcile factory next scan =>
          refine Reconcile.Each.models ?_ scan (Nat.le_refl _) ih Reconcile.each_empty
          intro m old next hold _
          exact (Reconcile.lists_model m old next).isInPlace hold

theorem VersionSlot.eq_ready {slot : VersionSlot} {model : LoadedModel}
    (h : slot.loaded? = some model) : slot = .ready model := by
  cases slot with
  | ready found => rw [Option.some.inj h]
  | unavailable cause => cases h

theorem ModelTable.resolve_eq_ok {table : ModelTable} {name : String} {choice : VersionChoice}
    {model : LoadedModel} (h : table.resolve name choice = .ok model) :
    exists (entry : ModelEntry) (v : Int), OrderedMap.get? table name = some entry ∧
      entry.versions.get? v = some (.ready model) := by
  unfold ModelTable.resolve at h
  split at h
  · cases h
  · rename_i entry hentry
    refine ⟨entry, ?_⟩
    cases choice with
    | latest =>
        cases hlatest : ModelTable.latest? entry with
        | none => simp [hlatest] at h
        | some found =>
            simp only [hlatest, Except.ok.injEq] at h
            rw [← h]
            rcases List.exists_of_findSome?_eq_some hlatest with ⟨slot, hslot, hloaded⟩
            rcases List.mem_map.1 (List.mem_reverse.1 hslot) with ⟨⟨v, _⟩, hmem, rfl⟩
            refine ⟨v, hentry, ?_⟩
            rw [← VersionSlot.eq_ready hloaded]
            exact OrderedMap.get?_eq_some_iff.2 hmem
    | specific v =>
        refine ⟨v, hentry, ?_⟩
        cases hslot : entry.versions.get? v with
        | none => simp [hslot] at h
        | some slot =>
            cases slot with
            | unavailable cause => simp [hslot] at h
            | ready found =>
                simp only [hslot, Except.ok.injEq] at h
                rw [h]

/-- In each table that reconciliations and clearings lead to, every entry is stored under the name
of its configuration, and what is ready under a version is a loaded model of that version, whose
configuration is the one of the entry and passes the check.  The tables of servers are such tables.
So each provider that is ever made has a sound configuration. -/
theorem entries_and_providers (strict : Bool) (changes : List TableChange) :
    (forall (name : String) (entry : ModelEntry),
      OrderedMap.get? (ModelTable.changed strict changes) name = some entry ->
        entry.config.name = name ∧
        forall (v : Int) (model : LoadedModel), entry.versions.get? v = some (.ready model) ->
          model.version = v ∧ model.config = entry.config ∧
            entry.config.validate strict = .ok ()) ∧
    (forall (server : Nat) (name : String) (choice : VersionChoice) (header : RequestHeader)
      (p : Provider),
      Provider.new server (ModelTable.changed strict changes) name choice header = .ok p ->
        p.model.config.IsSound) ∧
    forall (ops : List Operation) (k : Nat),
      (exists history : List TableChange, ((Engine.reached ops).server k).table =
        ModelTable.changed ((Engine.reached ops).server k).options.strictModelConfig history) ∧
      forall (name : String) (choice : VersionChoice) (header : RequestHeader) (p : Provider),
        (Engine.reached ops).provider k name choice header = .ok p -> p.model.config.IsSound := by
  have hprovider : forall (strict : Bool) (changes : List TableChange) (server : Nat)
      (name : String) (choice : VersionChoice) (header : RequestHeader) (p : Provider),
      Provider.new server (ModelTable.changed strict changes) name choice header = .ok p ->
        p.model.config.IsSound := by
    intro strict changes server name choice header p hp
    rcases ModelTable.resolve_eq_ok (Provider.resolve_of_new hp) with ⟨entry, v, hentry, hslot⟩
    have hready := (ModelTable.isInPlace_changed strict changes name entry hentry).ready v _ hslot
    exact ModelConfig.IsSound.of_validate hready.2.2
  refine ⟨?_, hprovider strict changes, ?_⟩
  · intro name entry hentry
    have hplace := ModelTable.isInPlace_changed strict changes name entry hentry
    refine ⟨hplace.name, ?_⟩
    intro v model hslot
    rcases hplace.ready v model hslot with ⟨hversion, hconfig, hpassed⟩
    rw [← hconfig]
    exact ⟨hversion, rfl, hpassed⟩
  · intro ops k
    have hformed := Engine.formed_reached ops k
    refine ⟨hformed, ?_⟩
    intro name choice header p hp
    rcases hformed with ⟨history, htable⟩
    unfold Engine.provider at hp
    rw [htable] at hp
    exact hprovider _ history k name choice header p hp

/-- A model fails to load, then it is listed twice and loaded, and then its versions are kept. -/
def copyChanges : List TableChange :=
  [.reconcile .absent 0 [⟨Engine.copyModel, [1]⟩],
    .reconcile (fun _ _ => ⟨false, .ok Identity.backend⟩) 0
      [⟨Engine.copyModel, [1]⟩, ⟨Engine.copyModel, [2, 1]⟩],
    .reconcile .absent 3 [⟨Engine.copyModel, [1, 2]⟩]]

/-- The second version was loaded under the number two, in the second scan. -/
theorem entries_of_copyChanges :
    (exists entry : ModelEntry,
      OrderedMap.get? (ModelTable.changed true copyChanges) "copy" = some entry ∧
      entry.versions.get? 2 = some (.ready ⟨2, Engine.copyModel, 2, Identity.backend⟩) ∧
      entry.config.validate true = .ok ()) ∧
    (exists p : Provider, Provider.new 0 (ModelTable.changed true copyChanges) "copy" .latest
      (.new 1) = .ok p ∧ p.model.config.IsSound) ∧
    exists p : Provider,
      (Engine.reached Engine.copyRun).provider 0 "copy" .latest (.new 1) = .ok p ∧
      p.model.config.IsSound := by
  rcases entries_and_providers true copyChanges with ⟨hentries, hproviders, hruns⟩
  refine ⟨⟨_, rfl, rfl, ?_⟩, ⟨_, rfl, ?_⟩, ⟨_, Engine.provider_copyRun, ?_⟩⟩
  · exact ((hentries "copy" _ rfl).2 2 ⟨2, Engine.copyModel, 2, Identity.backend⟩ rfl).2.2
  · exact hproviders 0 "copy" .latest (.new 1) _ rfl
  · exact (hruns Engine.copyRun 0).2 "copy" .latest (.new 1) _ Engine.provider_copyRun

end InferenceEngine
