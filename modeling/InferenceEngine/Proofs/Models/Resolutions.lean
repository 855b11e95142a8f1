import InferenceEngine.Proofs.Models.Entries

/-!
# Finding versions by number

A request names a version by a number.  A number below zero asks for the latest version, and any
other number for that very version.  The latest version is found from the end of an ordered map,
past all versions that are not ready; so it is the greatest one that is.
-/

namespace InferenceEngine

theorem OrderedMap.findSome?_reverse_values_eq_some_iff {α β : Type} {m : OrderedMap Int α}
    {f : α -> Option β} {b : β} : m.values.reverse.findSome? f = some b ↔
      exists (key : Int) (a : α), m.get? key = some a ∧ f a = some b ∧
        forall (other : Int) (a' : α), m.get? other = some a' -> (f a').isSome = true ->
          other ≤ key := by
  have hfound : forall b : β, m.values.reverse.findSome? f = some b ->
      exists (key : Int) (a : α), m.get? key = some a ∧ f a = some b ∧
        forall (other : Int) (a' : α), m.get? other = some a' -> (f a').isSome = true ->
          other ≤ key := by
    intro b hb
    unfold values at hb
    rw [← List.map_reverse, List.findSome?_map] at hb
    rcases List.findSome?_eq_some_iff.1 hb with ⟨later, ⟨key, a⟩, earlier, hsplit, ha, hlater⟩
    have hlist : m.toList = earlier.reverse ++ (key, a) :: later.reverse := by
      rw [← List.reverse_reverse m.toList, hsplit]
      simp
    refine ⟨key, a, get?_eq_some_iff.2 (by rw [hlist]; simp), ha, ?_⟩
    intro other a' hother hsome
    have hordered := m.ordered
    have hmem := get?_eq_some_iff.1 hother
    rw [hlist] at hordered hmem
    rcases List.mem_append.1 hmem with hbefore | hafter
    · have hlt := (List.pairwise_append.1 hordered).2.2 _ hbefore _ List.mem_cons_self
      exact Int.le_of_lt (Int.compare_eq_lt.1 hlt)
    · rcases List.mem_cons.1 hafter with hsame | hpassed
      · exact Int.le_of_eq (Prod.mk.inj hsame).1
      · have hnone : f a' = none := hlater _ (List.mem_reverse.1 hpassed)
        rw [hnone] at hsome
        cases hsome
  constructor
  · exact hfound b
  · rintro ⟨key, a, hkey, ha, hgreatest⟩
    have hsome : (m.values.reverse.findSome? f).isSome = true := by
      rw [List.findSome?_isSome_iff]
      exact ⟨a, List.mem_reverse.2 (mem_values_of_get? hkey), by rw [ha]; rfl⟩
    rcases Option.isSome_iff_exists.1 hsome with ⟨last, hlast⟩
    rcases hfound last hlast with ⟨key', a', hkey', ha', hgreatest'⟩
    have hsame : key' = key := Int.le_antisymm
      (hgreatest key' a' hkey' (by rw [ha']; rfl)) (hgreatest' key a hkey (by rw [ha]; rfl))
    rw [hsame, hkey] at hkey'
    cases hkey'
    rw [hlast, ← ha', ha]

namespace ModelTable

/-!
# What a table knows
-/

def Knows (table : ModelTable) (name : String) : Prop :=
  exists entry : ModelEntry, OrderedMap.get? table name = some entry

def ListsVersion (table : ModelTable) (name : String) (v : Int) : Prop :=
  exists (entry : ModelEntry) (slot : VersionSlot), OrderedMap.get? table name = some entry ∧
    entry.versions.get? v = some slot

/-- Whether a version of a model is ready, as a certain loaded model. -/
def HasReady (table : ModelTable) (name : String) (v : Int) (model : LoadedModel) : Prop :=
  exists entry : ModelEntry, OrderedMap.get? table name = some entry ∧
    entry.versions.get? v = some (.ready model)

variable {table : ModelTable} {name : String} {v : Int} {entry : ModelEntry} {model : LoadedModel}

theorem hasReady_iff (h : OrderedMap.get? table name = some entry) :
    table.HasReady name v model ↔ entry.versions.get? v = some (.ready model) := by
  constructor
  · rintro ⟨other, hother, hslot⟩
    rw [h] at hother
    cases hother
    exact hslot
  · intro hslot
    exact ⟨entry, h, hslot⟩

theorem listsVersion_iff (h : OrderedMap.get? table name = some entry) :
    table.ListsVersion name v ↔ (entry.versions.get? v).isSome = true := by
  rw [Option.isSome_iff_exists]
  constructor
  · rintro ⟨other, slot, hother, hslot⟩
    rw [h] at hother
    cases hother
    exact ⟨slot, hslot⟩
  · rintro ⟨slot, hslot⟩
    exact ⟨entry, slot, h, hslot⟩

theorem latest?_eq_some_iff : latest? entry = some model ↔
    exists v : Int, entry.versions.get? v = some (.ready model) ∧
      forall (w : Int) (other : LoadedModel), entry.versions.get? w = some (.ready other) ->
        w ≤ v := by
  unfold latest?
  rw [OrderedMap.findSome?_reverse_values_eq_some_iff]
  constructor
  · rintro ⟨v, slot, hslot, hloaded, hgreatest⟩
    rw [VersionSlot.eq_ready hloaded] at hslot
    exact ⟨v, hslot, fun w other hother => hgreatest w _ hother rfl⟩
  · rintro ⟨v, hslot, hgreatest⟩
    refine ⟨v, _, hslot, rfl, ?_⟩
    intro w slot hw hsome
    rcases Option.isSome_iff_exists.1 hsome with ⟨other, hother⟩
    rw [VersionSlot.eq_ready hother] at hw
    exact hgreatest w other hw

theorem latest?_eq_none_iff : latest? entry = none ↔
    forall (w : Int) (other : LoadedModel), entry.versions.get? w ≠ some (.ready other) := by
  unfold latest?
  rw [List.findSome?_eq_none_iff]
  constructor
  · intro h w other hother
    have hnone := h _ (List.mem_reverse.2 (OrderedMap.mem_values_of_get? hother))
    cases hnone
  · intro h slot hslot
    rcases OrderedMap.mem_values_iff.1 (List.mem_reverse.1 hslot) with ⟨w, hw⟩
    cases slot with
    | ready other => exact absurd hw (h w other)
    | unavailable cause => rfl

/-!
# Resolving
-/

theorem resolve_of_unknown (h : ¬ table.Knows name) (choice : VersionChoice) :
    table.resolve name choice = .error (.unknownModel name) := by
  have hnone : OrderedMap.get? table name = none :=
    Option.eq_none_iff_forall_ne_some.2 fun entry hentry => h ⟨entry, hentry⟩
  unfold resolve
  simp only [hnone]

theorem resolve_latest_of_some (h : OrderedMap.get? table name = some entry)
    (hlatest : latest? entry = some model) : table.resolve name .latest = .ok model := by
  unfold resolve
  simp only [h, hlatest]

theorem resolve_latest_of_none (h : OrderedMap.get? table name = some entry)
    (hlatest : latest? entry = none) :
    table.resolve name .latest = .error (.noReadyVersion name) := by
  unfold resolve
  simp only [h, hlatest]

theorem resolve_of_ready (h : OrderedMap.get? table name = some entry)
    (hslot : entry.versions.get? v = some (.ready model)) :
    table.resolve name (.specific v) = .ok model := by
  unfold resolve
  simp only [h, hslot]

theorem resolve_of_unavailable {cause : Failure} (h : OrderedMap.get? table name = some entry)
    (hslot : entry.versions.get? v = some (.unavailable cause)) :
    table.resolve name (.specific v) = .error (.versionUnavailable name v cause.text) := by
  unfold resolve
  simp only [h, hslot]

theorem resolve_of_unlisted (h : OrderedMap.get? table name = some entry)
    (hslot : entry.versions.get? v = none) :
    table.resolve name (.specific v) = .error (.unknownVersion name v) := by
  unfold resolve
  simp only [h, hslot]

/-- How a choice of version is resolved: to the loaded models that are chosen, or with the failures
of one of two codes. -/
structure Resolves (table : ModelTable) (name : String) (choice : VersionChoice)
    (isChosen : LoadedModel -> Prop) (isUnavailable isMissing : Prop) : Prop where
  ok_iff : forall model : LoadedModel, table.resolve name choice = .ok model ↔ isChosen model
  unavailable_iff : (exists failure : Failure,
    table.resolve name choice = .error failure ∧ failure.code = .unavailable) ↔ isUnavailable
  notFound_iff : (exists failure : Failure,
    table.resolve name choice = .error failure ∧ failure.code = .notFound) ↔ isMissing
  total : (exists model : LoadedModel, isChosen model) ∨ isUnavailable ∨ isMissing

theorem resolves_of_ok {choice : VersionChoice} {isChosen : LoadedModel -> Prop}
    {isUnavailable isMissing : Prop} (hresolve : table.resolve name choice = .ok model)
    (hchosen : forall other : LoadedModel, isChosen other ↔ other = model)
    (hunavailable : ¬ isUnavailable) (hmissing : ¬ isMissing) :
    table.Resolves name choice isChosen isUnavailable isMissing where
  ok_iff other := by
    rw [hresolve, hchosen]
    exact ⟨fun h => (Except.ok.inj h).symm, fun h => by rw [h]⟩
  unavailable_iff := by
    rw [hresolve]
    exact ⟨fun ⟨_, h, _⟩ => (by cases h), fun h => absurd h hunavailable⟩
  notFound_iff := by
    rw [hresolve]
    exact ⟨fun ⟨_, h, _⟩ => (by cases h), fun h => absurd h hmissing⟩
  total := .inl ⟨model, (hchosen model).2 rfl⟩

theorem resolves_of_error {choice : VersionChoice} {isChosen : LoadedModel -> Prop}
    {isUnavailable isMissing : Prop} {failure : Failure}
    (hresolve : table.resolve name choice = .error failure)
    (hchosen : forall other : LoadedModel, ¬ isChosen other)
    (hunavailable : failure.code = .unavailable ↔ isUnavailable)
    (hmissing : failure.code = .notFound ↔ isMissing)
    (hcode : failure.code = .unavailable ∨ failure.code = .notFound) :
    table.Resolves name choice isChosen isUnavailable isMissing where
  ok_iff other := by
    rw [hresolve]
    exact ⟨fun h => (by cases h), fun h => absurd h (hchosen other)⟩
  unavailable_iff := by
    rw [hresolve, ← hunavailable]
    exact ⟨fun ⟨_, h, hcode⟩ => Except.error.inj h ▸ hcode, fun h => ⟨failure, rfl, h⟩⟩
  notFound_iff := by
    rw [hresolve, ← hmissing]
    exact ⟨fun ⟨_, h, hcode⟩ => Except.error.inj h ▸ hcode, fun h => ⟨failure, rfl, h⟩⟩
  total := .inr (hcode.imp hunavailable.1 hmissing.1)

/-- A version is found if it is ready; else it is unavailable if it is listed, and missing if it is
not. -/
theorem resolves_specific (table : ModelTable) (name : String) (v : Int) :
    table.Resolves name (.specific v) (table.HasReady name v)
      (table.ListsVersion name v ∧ forall other : LoadedModel, ¬ table.HasReady name v other)
      (¬ table.ListsVersion name v) := by
  by_cases hknown : table.Knows name
  · rcases hknown with ⟨entry, hentry⟩
    have hlists := listsVersion_iff (v := v) hentry
    cases hslot : entry.versions.get? v with
    | none =>
        have hunlisted : ¬ table.ListsVersion name v := by
          rw [hlists, hslot]
          exact Bool.false_ne_true
        refine resolves_of_error (resolve_of_unlisted hentry hslot) ?_ ?_ ?_ (.inr rfl)
        · intro other hother
          rw [hasReady_iff hentry, hslot] at hother
          cases hother
        · exact ⟨fun h => (by cases h), fun h => absurd h.1 hunlisted⟩
        · exact ⟨fun _ => hunlisted, fun _ => rfl⟩
    | some slot =>
        have hlisted : table.ListsVersion name v := by
          rw [hlists, hslot]
          rfl
        cases slot with
        | ready model =>
            have hready : table.HasReady name v model := (hasReady_iff hentry).2 hslot
            refine resolves_of_ok (resolve_of_ready hentry hslot) ?_ ?_ (absurd hlisted)
            · intro other
              rw [hasReady_iff hentry, hslot]
              exact ⟨fun h => (by cases h; rfl), fun h => by rw [h]⟩
            · exact fun h => h.2 model hready
        | unavailable cause =>
            have hnone : forall other : LoadedModel, ¬ table.HasReady name v other := by
              intro other hother
              rw [hasReady_iff hentry, hslot] at hother
              cases hother
            refine resolves_of_error (resolve_of_unavailable hentry hslot) hnone ?_ ?_ (.inl rfl)
            · exact ⟨fun _ => ⟨hlisted, hnone⟩, fun _ => rfl⟩
            · exact ⟨fun h => (by cases h), fun h => absurd hlisted h⟩
  · have hunlisted : ¬ table.ListsVersion name v := fun ⟨entry, _, hentry, _⟩ =>
      hknown ⟨entry, hentry⟩
    refine resolves_of_error (resolve_of_unknown hknown _) ?_ ?_ ?_ (.inr rfl)
    · exact fun other ⟨entry, hentry, _⟩ => hknown ⟨entry, hentry⟩
    · exact ⟨fun h => (by cases h), fun h => absurd h.1 hunlisted⟩
    · exact ⟨fun _ => hunlisted, fun _ => rfl⟩

/-- Whether the ready versions of a table are loaded models of these very versions, and all those
under one name are loaded under one configuration of that name. -/
structure IsOrderly (table : ModelTable) : Prop where
  version : forall (name : String) (v : Int) (model : LoadedModel),
    table.HasReady name v model -> model.version = v
  name : forall (name : String) (v : Int) (model : LoadedModel),
    table.HasReady name v model -> model.config.name = name
  config : forall (name : String) (v w : Int) (model other : LoadedModel),
    table.HasReady name v model -> table.HasReady name w other -> other.config = model.config

theorem isOrderly_changed (strict : Bool) (changes : List TableChange) :
    (changed strict changes).IsOrderly where
  version := by
    rintro name v model ⟨entry, hentry, hslot⟩
    exact ((isInPlace_changed strict changes name entry hentry).ready v model hslot).1
  name := by
    rintro name v model ⟨entry, hentry, hslot⟩
    have hplace := isInPlace_changed strict changes name entry hentry
    rw [(hplace.ready v model hslot).2.1]
    exact hplace.name
  config := by
    rintro name v w model other ⟨entry, hentry, hslot⟩ hother
    have hplace := isInPlace_changed strict changes name entry hentry
    rw [(hplace.ready v model hslot).2.1]
    exact (hplace.ready w other ((hasReady_iff hentry).1 hother)).2.1

/-- Whether a loaded model is the ready version of a model with the greatest number. -/
def IsLatest (table : ModelTable) (name : String) (model : LoadedModel) : Prop :=
  table.HasReady name model.version model ∧
    forall (w : Int) (other : LoadedModel), table.HasReady name w other -> w ≤ model.version

theorem IsOrderly.isLatest_iff (h : table.IsOrderly)
    (hentry : OrderedMap.get? table name = some entry) :
    table.IsLatest name model ↔ latest? entry = some model := by
  unfold IsLatest
  simp only [latest?_eq_some_iff, hasReady_iff hentry]
  constructor
  · rintro ⟨hready, hgreatest⟩
    exact ⟨model.version, hready, hgreatest⟩
  · rintro ⟨v, hready, hgreatest⟩
    rw [h.version name v model ((hasReady_iff hentry).2 hready)]
    exact ⟨hready, hgreatest⟩

/-- The latest version is found if any version is ready; else it is unavailable if the model is
known, and missing if it is not. -/
theorem IsOrderly.resolves_latest (h : table.IsOrderly) (name : String) :
    table.Resolves name .latest (table.IsLatest name)
      (table.Knows name ∧ forall (w : Int) (other : LoadedModel), ¬ table.HasReady name w other)
      (¬ table.Knows name) := by
  by_cases hknown : table.Knows name
  · obtain ⟨entry, hentry⟩ := hknown
    have hlatest : forall model : LoadedModel,
        table.IsLatest name model ↔ latest? entry = some model :=
      fun model => h.isLatest_iff hentry
    cases hfound : latest? entry with
    | none =>
        have hnone := latest?_eq_none_iff.1 hfound
        refine resolves_of_error (resolve_latest_of_none hentry hfound) ?_ ?_ ?_ (.inl rfl)
        · intro other hother
          rw [hlatest, hfound] at hother
          cases hother
        · refine ⟨fun _ => ⟨⟨entry, hentry⟩, ?_⟩, fun _ => rfl⟩
          exact fun w other hother => hnone w other ((hasReady_iff hentry).1 hother)
        · exact ⟨fun h => (by cases h), fun h => absurd ⟨entry, hentry⟩ h⟩
    | some model =>
        refine resolves_of_ok (resolve_latest_of_some hentry hfound) ?_ ?_
          (absurd ⟨entry, hentry⟩)
        · intro other
          rw [hlatest, hfound]
          exact ⟨fun h => (Option.some.inj h).symm, fun h => by rw [h]⟩
        · exact fun h => h.2 model.version model ((hlatest model).2 hfound).1
  · refine resolves_of_error (resolve_of_unknown hknown _) ?_ ?_ ?_ (.inr rfl)
    · exact fun other ⟨⟨entry, hentry, _⟩, _⟩ => hknown ⟨entry, hentry⟩
    · exact ⟨fun h => (by cases h), fun h => absurd h.1 hknown⟩
    · exact ⟨fun _ => hknown, fun _ => rfl⟩

/-!
# Numbers
-/

/-- Whether a number finds what it should under a name.  Below zero this is the greatest version
that is ready, whatever versions that are not ready lie above it or between.  From zero on it is
the version of that number, and then a version at least as great is found below zero, of the same
model. -/
structure FindsVersion (table : ModelTable) (name : String) (v : Int) : Prop where
  below : v < 0 -> table.Resolves name (.ofInt v) (table.IsLatest name)
    (table.Knows name ∧ forall (w : Int) (other : LoadedModel), ¬ table.HasReady name w other)
    (¬ table.Knows name)
  above : 0 ≤ v -> table.Resolves name (.ofInt v) (table.HasReady name v)
    (table.ListsVersion name v ∧ forall other : LoadedModel, ¬ table.HasReady name v other)
    (¬ table.ListsVersion name v)
  unknown : ¬ table.Knows name ->
    table.resolve name (.ofInt v) = .error (.unknownModel name)
  own : forall model : LoadedModel, table.resolve name (.ofInt v) = .ok model ->
    model.config.name = name ∧ (0 ≤ v -> model.version = v)
  latest : forall model : LoadedModel, 0 ≤ v -> table.resolve name (.ofInt v) = .ok model ->
    exists latest : LoadedModel, table.resolve name .latest = .ok latest ∧ v ≤ latest.version ∧
      latest.config = model.config

theorem ofInt_of_neg {v : Int} (h : v < 0) : VersionChoice.ofInt v = .latest := if_pos h

theorem ofInt_of_nonneg {v : Int} (h : 0 ≤ v) : VersionChoice.ofInt v = .specific v :=
  if_neg (Int.not_lt.2 h)

theorem IsOrderly.findsVersion (h : table.IsOrderly) (name : String) (v : Int) :
    table.FindsVersion name v := by
  have hlatest := h.resolves_latest name
  have hspecific := table.resolves_specific name v
  constructor
  · intro hv
    rw [ofInt_of_neg hv]
    exact hlatest
  · intro hv
    rw [ofInt_of_nonneg hv]
    exact hspecific
  · exact fun hunknown => resolve_of_unknown hunknown _
  · intro model hmodel
    rcases Int.lt_or_le v 0 with hv | hv
    · rw [ofInt_of_neg hv, hlatest.ok_iff] at hmodel
      exact ⟨h.name name _ model hmodel.1, fun hv' => absurd hv (Int.not_lt.2 hv')⟩
    · rw [ofInt_of_nonneg hv, hspecific.ok_iff] at hmodel
      exact ⟨h.name name v model hmodel, fun _ => h.version name v model hmodel⟩
  · intro model hv hmodel
    rw [ofInt_of_nonneg hv, hspecific.ok_iff] at hmodel
    rcases hlatest.total with ⟨latest, hfound⟩ | hnone | hunknown
    · refine ⟨latest, (hlatest.ok_iff latest).2 hfound, hfound.2 v model hmodel, ?_⟩
      exact h.config name v latest.version model latest hmodel hfound.1
    · exact absurd hmodel (hnone.2 v model)
    · exact absurd (hmodel.imp fun _ hentry => hentry.1) hunknown

end ModelTable

/-- In each table that reconciliations and clearings lead to, and so in the tables of servers at
all times, every number finds what it should. -/
theorem numbers_find_versions (name : String) (v : Int) :
    (forall (strict : Bool) (changes : List TableChange),
      (ModelTable.changed strict changes).FindsVersion name v) ∧
    forall (ops : List Operation) (k : Nat),
      ((Engine.reached ops).server k).table.FindsVersion name v := by
  have hchanged : forall (strict : Bool) (changes : List TableChange),
      (ModelTable.changed strict changes).FindsVersion name v := fun strict changes =>
    (ModelTable.isOrderly_changed strict changes).findsVersion name v
  refine ⟨hchanged, ?_⟩
  intro ops k
  obtain ⟨changes, htable⟩ := Engine.formed_reached ops k
  rw [htable]
  exact hchanged _ changes

end InferenceEngine
