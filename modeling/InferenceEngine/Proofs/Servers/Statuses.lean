import InferenceEngine.Proofs.Json.RoundTrips
import InferenceEngine.Proofs.Models.Counters

/-!
# What servers tell

Readiness, the status document and the choice of the latest version each go through the table of a
server in their own way.  The status is written as a document and read back, and what is then read
agrees with all other answers of the server at that moment.
-/

namespace InferenceEngine

/-!
# Readiness of tables

Under lenient readiness some version is ready.
-/

namespace ModelTable

variable {table : ModelTable}

/-- Under strict readiness there is a model, and each has a version and no version that is not
ready. -/
theorem isReady_strict_iff : table.isReady true = true ↔
    (exists (name : String) (entry : ModelEntry), OrderedMap.get? table name = some entry) ∧
    forall (name : String) (entry : ModelEntry), OrderedMap.get? table name = some entry ->
      (exists (v : Int) (slot : VersionSlot), entry.versions.get? v = some slot) ∧
      forall (v : Int) (slot : VersionSlot), entry.versions.get? v = some slot ->
        slot.isReady = true := by
  unfold ModelTable.isReady
  simp only [if_true, Bool.and_eq_true, OrderedMap.not_isEmpty_iff, List.all_eq_true,
    OrderedMap.mem_values_iff, forall_exists_index]
  refine and_congr_right fun _ => ?_
  constructor
  · intro h name entry hentry
    exact ⟨(h entry name hentry).1, fun v slot => (h entry name hentry).2 slot v⟩
  · intro h entry name hentry
    exact ⟨(h name entry hentry).1, fun slot v => (h name entry hentry).2 v slot⟩

theorem isReady_lenient_iff : table.isReady false = true ↔
    exists (name : String) (entry : ModelEntry) (v : Int) (slot : VersionSlot),
      OrderedMap.get? table name = some entry ∧ entry.versions.get? v = some slot ∧
        slot.isReady = true := by
  unfold ModelTable.isReady
  simp only [Bool.false_eq_true, if_false, List.any_eq_true, OrderedMap.mem_values_iff]
  constructor
  · rintro ⟨entry, ⟨name, hentry⟩, slot, ⟨v, hslot⟩, hready⟩
    exact ⟨name, entry, v, slot, hentry, hslot, hready⟩
  · rintro ⟨name, entry, v, slot, hentry, hslot, hready⟩
    exact ⟨entry, ⟨name, hentry⟩, slot, ⟨v, hslot⟩, hready⟩

/-- The latest version of some model can be resolved exactly if some version is ready. -/
theorem resolves_latest_iff : (exists (name : String) (model : LoadedModel),
    table.resolve name .latest = .ok model) ↔ table.isReady false = true := by
  rw [isReady_lenient_iff]
  constructor
  · rintro ⟨name, model, hmodel⟩
    rcases resolve_eq_ok hmodel with ⟨entry, v, hentry, hslot⟩
    exact ⟨name, entry, v, _, hentry, hslot, rfl⟩
  · rintro ⟨name, entry, v, slot, hentry, hslot, hready⟩
    have hlatest : (latest? entry).isSome = true := by
      unfold latest?
      rw [List.findSome?_isSome_iff]
      exact ⟨slot, List.mem_reverse.2 (OrderedMap.mem_values_of_get? hslot), hready⟩
    rcases Option.isSome_iff_exists.1 hlatest with ⟨model, hmodel⟩
    refine ⟨name, model, ?_⟩
    unfold resolve
    simp only [hentry, hmodel]

end ModelTable

/-!
# Statuses

The parts of what a server tells agree, whatever its table is.
-/

/-- Whether a model has a version, and all that it has are ready. -/
def ModelStatus.IsReady (status : ModelStatus) : Prop :=
  (exists (v : Int) (version : VersionStatus), status.versions.get? v = some version) ∧
  forall (v : Int) (version : VersionStatus), status.versions.get? v = some version ->
    version.readyState = .ready

/-- Whether the parts of a status agree with each other, under strict readiness or not. -/
structure ServerStatus.IsConsistent (status : ServerStatus) (isStrict : Bool) : Prop where
  live : status.live = true ↔ status.state ≠ .stopped
  ready : status.ready = true ↔ status.state = .serving ∧
    (exists (name : String) (model : ModelStatus), status.models.get? name = some model) ∧
    if isStrict then
      forall (name : String) (model : ModelStatus), status.models.get? name = some model ->
        model.IsReady
    else
      exists (name : String) (model : ModelStatus) (v : Int) (version : VersionStatus),
        status.models.get? name = some model ∧ model.versions.get? v = some version ∧
          version.readyState = .ready
  reason : forall (name : String) (model : ModelStatus) (v : Int) (version : VersionStatus),
    status.models.get? name = some model -> model.versions.get? v = some version ->
      (version.reason.isSome = true ↔ version.readyState = .unavailable)

theorem VersionSlot.readyState_eq_iff (slot : VersionSlot) (stats : Nat -> InferStats) :
    (slot.status stats).readyState = .ready ↔ slot.isReady = true := by
  cases slot with
  | ready model => exact ⟨fun _ => rfl, fun _ => rfl⟩
  | unavailable cause =>
      constructor
      · intro hstate
        cases hstate
      · intro hready
        cases hready

theorem ModelEntry.get?_status (entry : ModelEntry) (stats : Nat -> InferStats) (v : Int) :
    (entry.status stats).versions.get? v =
      (entry.versions.get? v).map (VersionSlot.status stats) :=
  OrderedMap.get?_map _ _ _

theorem ModelEntry.status_isReady_iff (entry : ModelEntry) (stats : Nat -> InferStats) :
    (entry.status stats).IsReady ↔
      (exists (v : Int) (slot : VersionSlot), entry.versions.get? v = some slot) ∧
      forall (v : Int) (slot : VersionSlot), entry.versions.get? v = some slot ->
        slot.isReady = true := by
  unfold ModelStatus.IsReady
  simp only [ModelEntry.get?_status]
  constructor
  · rintro ⟨⟨v, version, hversion⟩, hall⟩
    rcases Option.map_eq_some_iff.1 hversion with ⟨slot, hslot, _⟩
    refine ⟨⟨v, slot, hslot⟩, ?_⟩
    intro v slot hslot
    exact (slot.readyState_eq_iff stats).1 (hall v _ (by rw [hslot]; rfl))
  · rintro ⟨⟨v, slot, hslot⟩, hall⟩
    refine ⟨⟨v, slot.status stats, by rw [hslot]; rfl⟩, ?_⟩
    intro v version hversion
    rcases Option.map_eq_some_iff.1 hversion with ⟨slot, hslot, rfl⟩
    exact (slot.readyState_eq_iff stats).2 (hall v slot hslot)

namespace Server

variable (s : Server) (stats : Nat -> InferStats) (readings : Readings)

theorem get?_status (name : String) : (s.status stats readings).models.get? name =
    (OrderedMap.get? s.table name).map (ModelEntry.status stats) :=
  OrderedMap.get?_map _ _ _

theorem status_eq_some_iff {name : String} {model : ModelStatus} :
    (s.status stats readings).models.get? name = some model ↔
      exists entry : ModelEntry, OrderedMap.get? s.table name = some entry ∧
        entry.status stats = model := by
  rw [get?_status, Option.map_eq_some_iff]

theorem status_ready_iff (isStrict : Bool) : s.table.isReady isStrict = true ↔
    (exists (name : String) (model : ModelStatus),
      (s.status stats readings).models.get? name = some model) ∧
    if isStrict then
      forall (name : String) (model : ModelStatus),
        (s.status stats readings).models.get? name = some model -> model.IsReady
    else
      exists (name : String) (model : ModelStatus) (v : Int) (version : VersionStatus),
        (s.status stats readings).models.get? name = some model ∧
          model.versions.get? v = some version ∧ version.readyState = .ready := by
  cases isStrict with
  | true =>
      rw [if_pos rfl, ModelTable.isReady_strict_iff]
      constructor
      · rintro ⟨⟨name, entry, hentry⟩, hall⟩
        refine ⟨⟨name, _, (s.status_eq_some_iff stats readings).2 ⟨entry, hentry, rfl⟩⟩, ?_⟩
        intro name model hmodel
        rcases (s.status_eq_some_iff stats readings).1 hmodel with ⟨entry, hentry, rfl⟩
        exact (entry.status_isReady_iff stats).2 (hall name entry hentry)
      · rintro ⟨⟨name, model, hmodel⟩, hall⟩
        rcases (s.status_eq_some_iff stats readings).1 hmodel with ⟨entry, hentry, _⟩
        refine ⟨⟨name, entry, hentry⟩, ?_⟩
        intro name entry hentry
        exact (entry.status_isReady_iff stats).1
          (hall name _ ((s.status_eq_some_iff stats readings).2 ⟨entry, hentry, rfl⟩))
  | false =>
      rw [if_neg Bool.false_ne_true, ModelTable.isReady_lenient_iff]
      constructor
      · rintro ⟨name, entry, v, slot, hentry, hslot, hready⟩
        have hmodel := (s.status_eq_some_iff stats readings).2 ⟨entry, hentry, rfl⟩
        refine ⟨⟨name, _, hmodel⟩, name, _, v, slot.status stats, hmodel, ?_, ?_⟩
        · rw [entry.get?_status, hslot]
          rfl
        · exact (slot.readyState_eq_iff stats).2 hready
      · rintro ⟨_, name, model, v, version, hmodel, hversion, hready⟩
        rcases (s.status_eq_some_iff stats readings).1 hmodel with ⟨entry, hentry, rfl⟩
        rw [entry.get?_status] at hversion
        rcases Option.map_eq_some_iff.1 hversion with ⟨slot, hslot, rfl⟩
        exact ⟨name, entry, v, slot, hentry, hslot, (slot.readyState_eq_iff stats).1 hready⟩

theorem isConsistent_status : (s.status stats readings).IsConsistent s.options.strictReadiness where
  live := by
    show s.state.isLive = true ↔ s.state ≠ .stopped
    cases s.state <;> simp [ServerState.isLive]
  ready := by
    show s.isReady = true ↔ s.state = .serving ∧ _
    unfold isReady
    rw [Bool.and_eq_true, decide_eq_true_eq]
    exact and_congr_right fun _ => s.status_ready_iff stats readings _
  reason := by
    intro name model v version hmodel hversion
    rcases (s.status_eq_some_iff stats readings).1 hmodel with ⟨entry, _, rfl⟩
    rw [entry.get?_status] at hversion
    rcases Option.map_eq_some_iff.1 hversion with ⟨slot, _, rfl⟩
    cases slot <;> simp [VersionSlot.status]

end Server

/-!
# Numbers in range
-/

/-- Whether the numbers of a model of a repository fit their types. -/
structure RepositoryModel.IsInRange (m : RepositoryModel) : Prop where
  config : m.config.IsInRange
  versions : forall v : Int, v ∈ m.versions -> Text.fitsSigned v = true

/-- Whether the numbers of an entry fit their types. -/
structure ModelEntry.IsInRange (entry : ModelEntry) : Prop where
  config : entry.config.IsInRange
  versions : forall v : Int, v ∈ entry.versions.keys -> Text.fitsSigned v = true

namespace Reconcile

theorem Lists.isInRange {factory : BackendFactory} {strict : Bool}
    {old : Option ModelEntry} {m : RepositoryModel} {first last : Nat} {entry : ModelEntry}
    (h : Lists factory strict old m first last entry) (hm : m.IsInRange) :
    entry.IsInRange where
  config := by
    rw [h.config]
    exact hm.config
  versions v hv := hm.versions v ((h.versions v).1 hv)

/-- What holds of each entry that a listed model gets holds of all entries in the end. -/
theorem each_of_listed {factory : BackendFactory} {strict : Bool}
    {P : String -> ModelEntry -> Prop} {scan : List RepositoryModel}
    (hscan : forall m, m ∈ scan -> forall (old : Option ModelEntry) (next : Nat),
      P m.config.name (model factory strict m old next).value)
    {previous table : ModelTable} {next : Nat} (htable : Each P table) :
    Each P (models factory strict previous table next scan).value.1 := by
  induction scan generalizing previous table next with
  | nil => exact htable
  | cons m rest ih =>
      apply ih fun other hother => hscan other (List.mem_cons_of_mem _ hother)
      exact htable.insert (hscan m List.mem_cons_self _ _)

end Reconcile

theorem ModelTable.inRange_reconcile (table : ModelTable) (factory : BackendFactory) (strict : Bool)
    (next : Nat) {scan : List RepositoryModel} (h : forall m, m ∈ scan -> m.IsInRange) :
    Reconcile.Each (fun _ => ModelEntry.IsInRange)
      (table.reconcile factory strict next scan).value :=
  Reconcile.each_of_listed
    (fun m hm old next => (Reconcile.lists_model m old next).isInRange (h m hm))
    Reconcile.each_empty

def Operation.listed : Operation -> List RepositoryModel
  | .build _ _ (.ok models) _ _ => models
  | .poll _ (.ok models) _ => models
  | _ => []

namespace Engine

def TablesInRange (e : Engine) : Prop :=
  forall k : Nat, Reconcile.Each (fun _ => ModelEntry.IsInRange) (e.server k).table

theorem TablesInRange.build {e : Engine} (h : e.TablesInRange) (options : ServerOptions)
    (allocator : Option Nat) (scan : Except Failure (List RepositoryModel))
    (factory : Option BackendFactory) (isInside : Bool)
    (hscan : forall models, scan = .ok models -> forall m, m ∈ models -> m.IsInRange) :
    (e.build options allocator scan factory isInside).2.TablesInRange := by
  intro k
  simp only [Engine.build]
  split
  · exact h k
  · split
    · exact h k
    · cases scan with
      | error failure => exact h k
      | ok models =>
          have hunloads := unloads_reconcile e factory none options .empty models k
          have hadded : forall (e' : Engine) (a : Nat),
              e'.servers = (e.reconcile factory none options .empty models).2.2.servers ->
                Reconcile.Each (fun _ => ModelEntry.IsInRange) ((e'.addServer options a
                  (e.reconcile factory none options .empty models).1).server k).table := by
            intro e' a hservers
            rw [server_addServer]
            split
            · exact ModelTable.inRange_reconcile _ _ _ _ (hscan models rfl)
            · rw [server_of_servers hservers]
              exact hunloads.each (h k)
          simp only
          split
          · exact hunloads.each (h k)
          · cases allocator with
            | some n => exact hadded _ n rfl
            | none => exact hadded _ _ rfl

theorem TablesInRange.poll {e : Engine} (h : e.TablesInRange) (n : Nat)
    (scan : Except Failure (List RepositoryModel)) (factory : Option BackendFactory)
    (hscan : forall models, scan = .ok models -> forall m, m ∈ models -> m.IsInRange) :
    (e.poll n scan factory).2.TablesInRange := by
  intro k
  simp only [Engine.poll]
  split
  · exact h k
  · cases scan with
    | error failure => exact h k
    | ok models =>
        have hunloads :=
          unloads_reconcile e factory (some n) (e.server n).options (e.server n).table models k
        have hset : forall e' : Engine,
            e'.servers = (e.reconcile factory (some n) (e.server n).options (e.server n).table
              models).2.2.servers ->
              Reconcile.Each (fun _ => ModelEntry.IsInRange) ((e'.modifyServer n fun s =>
                { s with table := (e.reconcile factory (some n) (e.server n).options
                  (e.server n).table models).1 }).server k).table := by
          intro e' hservers
          rw [server_modifyServer]
          split
          · exact ModelTable.inRange_reconcile _ _ _ _ (hscan models rfl)
          · rw [server_of_servers hservers]
            exact hunloads.each (h k)
        simp only
        split
        · exact hunloads.each (h k)
        · split
          · exact hset _ rfl
          · exact hset _ rfl

theorem TablesInRange.operate {e : Engine} (h : e.TablesInRange) {op : Operation}
    (hop : forall m, m ∈ op.listed -> m.IsInRange) : (e.operate op).TablesInRange := by
  cases op with
  | build options allocator scan factory isInside =>
      simp only [Engine.operate]
      split
      · apply h.build
        rintro models rfl m hm
        exact hop m hm
      · exact h
  | poll n scan factory =>
      apply h.poll n
      rintro models rfl m hm
      exact hop m hm
  | _ => exact fun k => (unloads_operate e rfl k).each (h k)

theorem tablesInRange_reached {ops : List Operation}
    (h : forall op, op ∈ ops -> forall m, m ∈ op.listed -> m.IsInRange) :
    (reached ops).TablesInRange := by
  induction ops using List.reverseRecOn with
  | nil => exact fun _ => Reconcile.each_empty
  | append_singleton ops op ih =>
      rw [reached_concat]
      exact (ih fun other hother => h other (List.mem_append_left _ hother)).operate
        (h op (List.mem_append_right _ (List.mem_singleton_self _)))

end Engine

/-!
# Counters in range
-/

theorem InferStats.IsInRange.record {stats : InferStats} (h : stats.IsInRange) (isOk : Bool)
    (computeTime : Nat) : (stats.record isOk computeTime).IsInRange := by
  have hbound : 0 < Text.wordBound := by decide
  unfold InferStats.record next
  constructor
  · show (if isOk = true then _ else _) < Text.wordBound
    split
    · exact Nat.mod_lt _ hbound
    · exact h.success
  · show (if isOk = true then _ else _) < Text.wordBound
    split
    · exact h.failed
    · exact Nat.mod_lt _ hbound
  · exact Nat.mod_lt _ hbound

namespace Engine

def CountersInRange (e : Engine) : Prop := forall k : Nat, (e.statsOf k).IsInRange

theorem CountersInRange.of_statsOf {e e' : Engine} (h : e.CountersInRange)
    (hsame : forall k : Nat, e'.statsOf k = e.statsOf k) : e'.CountersInRange := by
  intro k
  rw [hsame]
  exact h k

theorem CountersInRange.respond {e : Engine} (h : e.CountersInRange) (n : Nat)
    (result : Except Failure (List (String × OutputStorage))) :
    (e.respond n result).CountersInRange := by
  have hnoted : forall isOk : Bool, (e.modifyStats (e.submission n).request.model.number
      fun stats => stats.record isOk e.readings.computeTime).CountersInRange := by
    intro isOk k
    show ((e.stats.modify _ _).getD k .zero).IsInRange
    rw [getD_modify]
    split
    · exact (h _).record isOk _
    · exact h k
  have hstats : (e.respond n result).stats = (e.noteResult n result).stats := by
    unfold Engine.respond
    rw [stats_callBack, stats_releaseSlot]
  apply CountersInRange.of_statsOf _ (statsOf_of_stats hstats)
  cases result with
  | ok outputs => exact hnoted true
  | error failure => exact hnoted false

theorem Move.countersInRange {deed : Deed} {e e' : Engine} (h : Move deed e e')
    (k : e.CountersInRange) : e'.CountersInRange := by
  cases h with
  | addStats _ next => exact k.of_statsOf (statsOf_addStats e next)
  | takeSlot _ e' n hn htake =>
      rcases takeSlot?_eq_some htake with ⟨free, rfl⟩
      exact k
  | gatherFails _ n failure hn hgather => exact k.respond n _
  | allocateFails _ n failure a events hn hallocate =>
      have hsame : ((e.setMemory (e.submission n).server ⟨a, e.directory⟩).report
          events).CountersInRange := k
      exact hsame.respond n _
  | leave _ n held next result slots hn hnext =>
      have hsame : (e.takeSlots n result slots).CountersInRange := k
      exact hsame.respond n _
  | unwind _ n slots a events hn hallocate =>
      have hsame : (e.forfeit n slots a events).CountersInRange := k
      exact hsame.of_statsOf (statsOf_of_stats (stats_giveUp _ n))
  | cancel _ n hn => exact k.of_statsOf (statsOf_of_stats (stats_giveUp e n))
  | comeBack _ n hn => exact k.of_statsOf (statsOf_of_stats (stats_comeBack e n))
  | _ => exact k

theorem Reachable.countersInRange {e : Engine} (h : e.Reachable) : e.CountersInRange := by
  have hzero : empty.CountersInRange := fun _ =>
    have hbound : 0 < Text.wordBound := by decide
    ⟨hbound, hbound, hbound⟩
  exact Reachable.induct hzero
    (fun deed e e' _ hmove hcounters => hmove.countersInRange hcounters) h

end Engine

/-!
# Documents
-/

theorem ModelEntry.IsInRange.status {entry : ModelEntry} (h : entry.IsInRange)
    {stats : Nat -> InferStats} (hstats : forall n : Nat, (stats n).IsInRange) :
    (entry.status stats).IsInRange where
  config := h.config
  versions := by
    intro e he
    rcases List.mem_map.1 he with ⟨slot, hslot, rfl⟩
    exact h.versions slot.1 (List.mem_map_of_mem hslot)
  stats := by
    have hzero : InferStats.zero.IsInRange :=
      have hbound : 0 < Text.wordBound := by decide
      ⟨hbound, hbound, hbound⟩
    intro e he
    rcases List.mem_map.1 he with ⟨⟨v, slot⟩, _, rfl⟩
    cases slot with
    | ready model => exact hstats model.number
    | unavailable cause => exact hzero

theorem Server.status_isInRange {s : Server}
    (h : Reconcile.Each (fun _ => ModelEntry.IsInRange) s.table) {stats : Nat -> InferStats}
    (hstats : forall n : Nat, (stats n).IsInRange) (readings : Readings) :
    (s.status stats readings).IsInRange where
  startedAt := s.built.date_fits
  uptime := Text.toWord_lt _
  models := by
    intro e he
    rcases List.mem_map.1 he with ⟨⟨name, entry⟩, hentry, rfl⟩
    exact (h name entry (OrderedMap.get?_eq_some_iff.2 hentry)).status hstats

namespace Engine

/-- Whether a status of a server agrees with itself and with all that the server answers otherwise:
whether it is live and ready, the statuses of its models, and whether a latest version can be had of
any of them. -/
structure Confirms (e : Engine) (k : Nat) (status : ServerStatus) : Prop where
  consistent : status.IsConsistent (e.server k).options.strictReadiness
  state : status.state = (e.server k).state
  isLive : status.live = (e.server k).isLive
  isReady : status.ready = (e.server k).isReady
  models : forall (name : String) (model : ModelStatus), status.models.get? name = some model ↔
    exists blob : Blob, e.modelStatus k name = .ok blob ∧
      blob.decode ModelStatus.ofJson? = .ok model
  others : forall name : String, status.models.get? name = none -> exists failure : Failure,
    e.modelStatus k name = .error failure ∧ failure.code = .notFound
  latest : status.state = .serving -> (e.server k).options.strictReadiness = false ->
    (status.ready = true ↔ exists (name : String) (model : LoadedModel),
      (e.server k).table.resolve name .latest = .ok model)

theorem modelStatus_of_listed {e : Engine} {k : Nat} {name : String} {model : ModelStatus}
    (h : ((e.server k).status e.statsOf e.readings).models.get? name = some model) :
    e.modelStatus k name = .ok (.ofJson model.toJson) := by
  rw [Server.get?_status] at h
  unfold modelStatus Server.modelStatus ModelTable.modelStatus?
  simp only [h, bind, Except.bind]

theorem modelStatus_of_missing {e : Engine} {k : Nat} {name : String}
    (h : ((e.server k).status e.statsOf e.readings).models.get? name = none) :
    e.modelStatus k name = .error (.unknownModel name) := by
  rw [Server.get?_status] at h
  unfold modelStatus Server.modelStatus ModelTable.modelStatus?
  simp only [h, bind, Except.bind]

/-- In every run over repositories whose numbers fit their types, the status of a server can be read
at any time between two operations, and it agrees with itself and with what the server answers
otherwise: it is live unless it has stopped; it is ready if it is serving, lists a model and, under
strict readiness, each model that it lists has versions and all of them are ready, or, otherwise,
some version is; it lists those models that a status can be had of, with that status; a version has
a reason if and only if it is unavailable; and a serving server under lenient readiness is ready
exactly if the latest version of some model can be resolved. -/
theorem status_agrees {ops : List Operation}
    (hlisted : forall op, op ∈ ops -> forall m, m ∈ op.listed -> m.IsInRange) (k : Nat) :
    exists status : ServerStatus,
      ((reached ops).status k).decode ServerStatus.ofJson? = .ok status ∧
        (reached ops).Confirms k status := by
  have htables := tablesInRange_reached hlisted
  have hcounters := (reachable_reached ops).countersInRange
  generalize reached ops = e at htables hcounters ⊢
  have hdecodes : forall (name : String) (entry : ModelEntry),
      OrderedMap.get? (e.server k).table name = some entry ->
        (Blob.ofJson (entry.status e.statsOf).toJson).decode ModelStatus.ofJson? =
          .ok (entry.status e.statsOf) := fun name entry hentry =>
    ((htables k name entry hentry).status hcounters).keeps.restores.decoded
  refine ⟨(e.server k).status e.statsOf e.readings, ?_, ?_⟩
  · exact (Server.status_isInRange (htables k) hcounters e.readings).keeps.restores.decoded
  · constructor
    case consistent => exact (e.server k).isConsistent_status e.statsOf e.readings
    case state | isLive | isReady => rfl
    case models =>
      intro name model
      constructor
      · intro hmodel
        rcases ((e.server k).status_eq_some_iff e.statsOf e.readings).1 hmodel with
          ⟨entry, hentry, rfl⟩
        exact ⟨_, modelStatus_of_listed hmodel, hdecodes name entry hentry⟩
      · rintro ⟨blob, hblob, hdecoded⟩
        cases hmodel : ((e.server k).status e.statsOf e.readings).models.get? name with
        | none =>
            rw [modelStatus_of_missing hmodel] at hblob
            cases hblob
        | some found =>
            rcases ((e.server k).status_eq_some_iff e.statsOf e.readings).1 hmodel with
              ⟨entry, hentry, rfl⟩
            rw [modelStatus_of_listed hmodel] at hblob
            rw [← Except.ok.inj hblob, hdecodes name entry hentry] at hdecoded
            rw [Except.ok.inj hdecoded]
    case others =>
      intro name hnone
      exact ⟨_, modelStatus_of_missing hnone, rfl⟩
    case latest =>
      intro hserving hlenient
      rw [ModelTable.resolves_latest_iff, ← hlenient]
      show (e.server k).isReady = true ↔ _
      unfold Server.isReady
      rw [Bool.and_eq_true, decide_eq_true_eq]
      exact and_iff_right hserving

theorem copyModel_isInRange : copyModel.IsInRange := by
  have hspec (name : String) : TensorSpec.IsInRange ⟨name, .uint8, [2]⟩ := by
    intro dim hdim
    rw [List.mem_singleton.1 hdim]
    decide
  constructor
  case maxBatchSize => decide
  case inputs =>
    intro spec h
    rw [List.mem_singleton.1 h]
    exact hspec "in"
  case outputs =>
    intro spec h
    rw [List.mem_singleton.1 h]
    exact hspec "out"
  case region => decide

/-- The server of the answered request is ready, and tells that its one model is. -/
theorem status_of_answeredRun : exists status : ServerStatus,
    ((reached answeredRun).status 0).decode ServerStatus.ofJson? = .ok status ∧
    status.live = true ∧ status.ready = true ∧
    (exists model : ModelStatus, status.models.get? "copy" = some model ∧ model.IsReady) ∧
    status.models.get? "other" = none := by
  have hlisted : forall op, op ∈ answeredRun -> forall m, m ∈ op.listed -> m.IsInRange := by
    intro op hop m hm
    have hone : m ∈ [⟨copyModel, [1]⟩] := by
      rcases List.mem_append.1 hop with hbuild | hrest
      · rw [List.mem_singleton.1 hbuild] at hm
        exact hm
      · rcases List.mem_pair.1 hrest with rfl | rfl <;> nomatch hm
    rw [List.mem_singleton.1 hone]
    exact ⟨copyModel_isInRange, by decide⟩
  rcases status_agrees hlisted 0 with ⟨status, hdecoded, hconfirms⟩
  have hlive : status.live = true := hconfirms.isLive
  have hready : status.ready = true := hconfirms.isReady
  have hstrict : ((reached answeredRun).server 0).options.strictReadiness = true := rfl
  have hall := (hconfirms.consistent.ready.1 hready).2.2
  rw [hstrict, if_pos rfl] at hall
  have hcopy : exists model : ModelStatus, status.models.get? "copy" = some model := by
    cases hmodel : status.models.get? "copy" with
    | some model => exact ⟨model, rfl⟩
    | none =>
        rcases hconfirms.others "copy" hmodel with ⟨failure, hfailure, _⟩
        cases hfailure
  have hother : status.models.get? "other" = none := by
    cases hmodel : status.models.get? "other" with
    | none => rfl
    | some model =>
        rcases (hconfirms.models "other" model).1 hmodel with ⟨blob, hblob, _⟩
        cases hblob
  rcases hcopy with ⟨model, hmodel⟩
  exact ⟨status, hdecoded, hlive, hready, ⟨model, hmodel, hall "copy" model hmodel⟩, hother⟩

end Engine

end InferenceEngine
