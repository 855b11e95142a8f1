import InferenceEngine.Proofs.Requests.Making
import InferenceEngine.Proofs.Servers.Statuses
import InferenceEngine.Proofs.Models.Resolutions

/-!
# Asking for what the status tells

Whoever has read the status of a server may ask for one of the versions that it tells to be ready,
by its number.  A repository may list any number, but those below zero stand for the latest
version when they are asked for.  So a ready version below zero is found by its number only if no
greater one is ready, and otherwise no number finds it.
-/

namespace InferenceEngine

def ServerStatus.TellsReady (status : ServerStatus) (name : String) (v : Int) : Prop :=
  exists (model : ModelStatus) (version : VersionStatus),
    status.models.get? name = some model ∧ model.versions.get? v = some version ∧
      version.readyState = .ready

theorem Server.status_tellsReady_iff (s : Server) (stats : Nat -> InferStats)
    (readings : Readings) {name : String} {v : Int} :
    (s.status stats readings).TellsReady name v ↔
      exists model : LoadedModel, s.table.HasReady name v model := by
  constructor
  · rintro ⟨model, version, hmodel, hversion, hready⟩
    rcases (s.status_eq_some_iff stats readings).1 hmodel with ⟨entry, hentry, rfl⟩
    rw [entry.get?_status] at hversion
    rcases Option.map_eq_some_iff.1 hversion with ⟨slot, hslot, rfl⟩
    rcases Option.isSome_iff_exists.1 ((slot.readyState_eq_iff stats).1 hready) with
      ⟨loaded, hloaded⟩
    rw [VersionSlot.eq_ready hloaded] at hslot
    exact ⟨loaded, entry, hentry, hslot⟩
  · rintro ⟨loaded, entry, hentry, hslot⟩
    refine ⟨entry.status stats, (VersionSlot.ready loaded).status stats, ?_, ?_, rfl⟩
    · exact (s.status_eq_some_iff stats readings).2 ⟨entry, hentry, rfl⟩
    · rw [entry.get?_status, hslot]
      rfl

namespace ModelTable

variable {table : ModelTable} {name : String} {v : Int} {model : LoadedModel}

/-- Where a version is ready, its number finds a ready version of the model: itself from zero on,
and below zero the greatest one. -/
theorem IsOrderly.resolves_ready (h : table.IsOrderly) (hready : table.HasReady name v model) :
    exists found : LoadedModel, table.resolve name (.ofInt v) = .ok found ∧
      table.HasReady name found.version found ∧
      (0 ≤ v -> found.version = v) ∧
      (v < 0 -> forall (w : Int) (other : LoadedModel), table.HasReady name w other ->
        w ≤ found.version) := by
  have hfinds := h.findsVersion name v
  rcases Int.lt_or_le v 0 with hv | hv
  · have hresolves := hfinds.below hv
    rcases hresolves.total with ⟨latest, hlatest⟩ | ⟨_, hnone⟩ | hunknown
    · refine ⟨latest, (hresolves.ok_iff latest).2 hlatest, hlatest.1, ?_, fun _ => hlatest.2⟩
      exact fun hnonneg => absurd hv (Int.not_lt.2 hnonneg)
    · exact absurd hready (hnone v model)
    · exact absurd (hready.imp fun _ hentry => hentry.1) hunknown
  · have hversion := h.version name v model hready
    refine ⟨model, ((hfinds.above hv).ok_iff model).2 hready, ?_, fun _ => hversion, ?_⟩
    · rw [hversion]
      exact hready
    · exact fun hneg => absurd hneg (Int.not_lt.2 hv)

end ModelTable

namespace Engine

/-- What becomes of asking for a version that is told to be ready, by its number and with a certain
header. -/
structure Addresses (e : Engine) (k : Nat) (status : ServerStatus) (name : String) (v : Int)
    (header : RequestHeader) (p : Provider) : Prop where
  made : e.provider k name (.ofInt v) header = .ok p
  /-- Whichever version is found, it is one that the status tells to be ready. -/
  ready : status.TellsReady name p.model.version
  above : 0 ≤ v -> p.model.version = v
  below : v < 0 -> forall w : Int, status.TellsReady name w -> w ≤ p.model.version
  own_iff : p.model.version = v ↔ 0 ≤ v ∨ forall w : Int, status.TellsReady name w -> w ≤ v
  /-- No other number finds what its own number does not find. -/
  any_iff : (exists (u : Int) (q : Provider),
    e.provider k name (.ofInt u) header = .ok q ∧ q.model.version = v) ↔ p.model.version = v

theorem decode_status {ops : List Operation}
    (hlisted : forall op, op ∈ ops -> forall m, m ∈ op.listed -> m.IsInRange) (k : Nat) :
    ((reached ops).status k).decode ServerStatus.ofJson? =
      .ok (((reached ops).server k).status (reached ops).statsOf (reached ops).readings) :=
  (Server.status_isInRange (tablesInRange_reached hlisted k)
    (reachable_reached ops).countersInRange _).keeps.restores.decoded

theorem provider_of_resolve {e : Engine} {k : Nat} {name : String} {choice : VersionChoice}
    {header : RequestHeader} {model : LoadedModel}
    (hresolve : (e.server k).table.resolve name choice = .ok model)
    (htakes : model.config.Takes header) :
    exists p : Provider, e.provider k name choice header = .ok p ∧ p.model = model := by
  have hverdict : verdict (e.provider k name choice header) =
      firstFailure (model.config.makingChecks header) := Provider.verdict_new hresolve
  rw [firstFailure_eq_ok_iff.2 (ModelConfig.makingChecks_hold_iff.2 htakes)] at hverdict
  rcases verdict_eq_ok hverdict with ⟨p, hp⟩
  exact ⟨p, hp, Except.ok.inj ((Provider.resolve_of_new hp).symm.trans hresolve)⟩

/-- If numbers from zero on find the version of that number and those below zero find the greatest
ready one, then a number finds its own version unless it is below zero and a greater one is
ready. -/
theorem found_eq_iff {status : ServerStatus} {name : String} {v found : Int}
    (hready : status.TellsReady name v) (hfound : status.TellsReady name found)
    (habove : 0 ≤ v -> found = v)
    (hbelow : v < 0 -> forall w : Int, status.TellsReady name w -> w ≤ found) :
    found = v ↔ 0 ≤ v ∨ forall w : Int, status.TellsReady name w -> w ≤ v := by
  rcases Int.lt_or_le v 0 with hv | hv
  · constructor
    · intro hsame
      exact .inr (hsame ▸ hbelow hv)
    · rintro (hnonneg | hall)
      · exact habove hnonneg
      · exact Int.le_antisymm (hall found hfound) (hbelow hv v hready)
  · exact ⟨fun _ => .inl hv, fun _ => habove hv⟩

/-- A version that its own number does not find is found by no number: the numbers from zero on find
other versions, and all numbers below zero find the same one. -/
theorem found_by_any_iff {e : Engine} {k : Nat} {name : String} {v : Int} {header : RequestHeader}
    {p : Provider} (horderly : (e.server k).table.IsOrderly)
    (hp : e.provider k name (.ofInt v) header = .ok p) (habove : 0 ≤ v -> p.model.version = v) :
    (exists (u : Int) (q : Provider),
      e.provider k name (.ofInt u) header = .ok q ∧ q.model.version = v) ↔ p.model.version = v := by
  constructor
  · rintro ⟨u, q, hq, hversion⟩
    rcases Int.lt_or_le v 0 with hv | hv
    · rcases Int.lt_or_le u 0 with hu | hu
      · rw [ModelTable.ofInt_of_neg hu, ← ModelTable.ofInt_of_neg hv, hp] at hq
        cases hq
        exact hversion
      · have hown := ((horderly.findsVersion name u).own q.model (Provider.resolve_of_new hq)).2 hu
        omega
    · exact habove hv
  · intro hsame
    exact ⟨v, p, hp, hsame⟩

/-- In every run over repositories whose numbers fit their types, the status of a server can be read
at any time, and each version that it tells to be ready can be asked for by its number: with a
header that the model takes a provider is made, for this very version if its number is zero or more,
and for the ready version with the greatest number if it is below zero.  So a version is found by
its number, or by any number at all, if and only if its number is zero or more or no ready version
has a greater one. -/
theorem ready_versions_have_addresses {ops : List Operation}
    (hlisted : forall op, op ∈ ops -> forall m, m ∈ op.listed -> m.IsInRange) (k : Nat) :
    exists status : ServerStatus,
      ((reached ops).status k).decode ServerStatus.ofJson? = .ok status ∧
      forall (name : String) (model : ModelStatus) (v : Int) (header : RequestHeader),
        status.models.get? name = some model -> status.TellsReady name v ->
        model.config.Takes header ->
        exists p : Provider, (reached ops).Addresses k status name v header p := by
  have hdecoded := decode_status hlisted k
  obtain ⟨changes, htable⟩ := formed_reached ops k
  generalize reached ops = e at hdecoded htable ⊢
  have horderly : (e.server k).table.IsOrderly := by
    rw [htable]
    exact ModelTable.isOrderly_changed _ changes
  have htold : forall (name : String) (w : Int),
      ((e.server k).status e.statsOf e.readings).TellsReady name w ↔
        exists model : LoadedModel, (e.server k).table.HasReady name w model :=
    fun name w => (e.server k).status_tellsReady_iff e.statsOf e.readings
  refine ⟨(e.server k).status e.statsOf e.readings, hdecoded, ?_⟩
  intro name model v header hmodel hready htakes
  obtain ⟨loaded, hloaded⟩ := (htold name v).1 hready
  obtain ⟨found, hresolve, hfound, habove, hbelow⟩ := horderly.resolves_ready hloaded
  have hconfig : found.config = model.config := by
    rcases ((e.server k).status_eq_some_iff e.statsOf e.readings).1 hmodel with ⟨entry, hentry, rfl⟩
    have hplace : entry.IsInPlace (e.server k).options.strictModelConfig name := by
      rw [htable] at hentry
      exact ModelTable.isInPlace_changed _ changes name entry hentry
    exact (hplace.ready _ found ((ModelTable.hasReady_iff hentry).1 hfound)).2.1
  obtain ⟨p, hp, rfl⟩ := provider_of_resolve hresolve (hconfig ▸ htakes)
  have hgreatest : v < 0 -> forall w : Int,
      ((e.server k).status e.statsOf e.readings).TellsReady name w -> w ≤ p.model.version := by
    intro hv w hw
    obtain ⟨other, hother⟩ := (htold name w).1 hw
    exact hbelow hv w other hother
  have hfound := (htold name p.model.version).2 ⟨p.model, hfound⟩
  exact ⟨p, hp, hfound, habove, hgreatest, found_eq_iff hready hfound habove hgreatest,
    found_by_any_iff horderly hp habove⟩

/-- A server is built with a model of two versions, one of them below zero. -/
def twoVersionRun : List Operation :=
  [.build { ServerOptions.default with executionSlots := 1 } none (.ok [⟨copyModel, [-2, 3]⟩])
    (some fun _ _ => ⟨false, .ok Identity.backend⟩) true]

theorem isInRange_of_twoVersionRun :
    forall op, op ∈ twoVersionRun -> forall m, m ∈ op.listed -> m.IsInRange := by
  intro op hop m hm
  rw [List.mem_singleton.1 hop] at hm
  rw [List.mem_singleton.1 hm]
  exact ⟨copyModel_isInRange, by decide⟩

theorem copyModel_takes : copyModel.Takes (.new 1) :=
  ModelConfig.makingChecks_hold_iff.1 (by decide)

theorem tellsReady_of_twoVersionRun {v : Int} (hv : v = -2 ∨ v = 3) :
    (((reached twoVersionRun).server 0).status (reached twoVersionRun).statsOf
      (reached twoVersionRun).readings).TellsReady "copy" v := by
  rw [Server.status_tellsReady_iff]
  rcases hv with rfl | rfl
  · exact ⟨_, _, rfl, rfl⟩
  · exact ⟨_, _, rfl, rfl⟩

theorem twoVersionRun_has_addresses : exists status : ServerStatus,
    ((reached twoVersionRun).status 0).decode ServerStatus.ofJson? = .ok status ∧
    forall v : Int, v = -2 ∨ v = 3 ->
      exists p : Provider, (reached twoVersionRun).Addresses 0 status "copy" v (.new 1) p := by
  obtain ⟨status, hdecoded, haddresses⟩ :=
    ready_versions_have_addresses isInRange_of_twoVersionRun 0
  refine ⟨status, hdecoded, ?_⟩
  rw [decode_status isInRange_of_twoVersionRun] at hdecoded
  cases hdecoded
  intro v hv
  exact haddresses "copy" _ v (.new 1) rfl (tellsReady_of_twoVersionRun hv) copyModel_takes

/-- The status tells that the version below zero is ready, and asking for it finds the other one. -/
theorem version_below_zero_finds_another : exists status : ServerStatus,
    ((reached twoVersionRun).status 0).decode ServerStatus.ofJson? = .ok status ∧
    status.TellsReady "copy" (-2) ∧
    exists p : Provider, (reached twoVersionRun).provider 0 "copy" (.ofInt (-2)) (.new 1) = .ok p ∧
      p.model.version = 3 :=
  ⟨_, decode_status isInRange_of_twoVersionRun 0, tellsReady_of_twoVersionRun (.inl rfl), _, rfl,
    rfl⟩

end Engine

end InferenceEngine
