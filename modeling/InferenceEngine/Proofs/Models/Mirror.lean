import InferenceEngine.Proofs.Models.Entries
import InferenceEngine.Proofs.Models.Repositories

/-!
# Tables mirror repositories

After a server has been built or polled its table lists what its repository lists.  What had been
loaded under the same configuration is still there, with the counters that it had; everything else
has just been asked for once, be it that it failed before or that it is new.
-/

namespace InferenceEngine

/-!
# Counters
-/

/-- Whether the numbers of all loaded models of an entry lie below a bound. -/
def ModelEntry.IsBelow (bound : Nat) (entry : ModelEntry) : Prop :=
  forall (v : Int) (model : LoadedModel), entry.versions.get? v = some (.ready model) ->
    model.number < bound

theorem Reconcile.Lists.isBelow {factory : BackendFactory} {strict : Bool}
    {old : Option ModelEntry} {m : RepositoryModel} {first last bound : Nat} {entry : ModelEntry}
    (h : Reconcile.Lists factory strict old m first last entry) (hlast : last ≤ bound)
    (hold : forall before : ModelEntry, old = some before -> before.IsBelow bound) :
    entry.IsBelow bound := by
  intro v model hslot
  cases h.slots v _ hslot with
  | kept _ hvalid hkept =>
      rcases hkept with ⟨before, hbefore, _, hready⟩
      exact hold before hbefore v model hready
  | loaded number backend hvalid hnew hresult hfirst hnumber =>
      exact Nat.lt_of_lt_of_le hnumber hlast

/-- What holds of all entries of a table still does when it is left alone or emptied. -/
theorem Server.Unloads.each {P : String -> ModelEntry -> Prop} {s s' : Server} (h : s.Unloads s')
    (hs : Reconcile.Each P s.table) : Reconcile.Each P s'.table := by
  rcases h.2 with hsame | hempty
  · rw [hsame]
    exact hs
  · rw [hempty]
    exact Reconcile.each_empty

theorem ModelTable.each_isBelow_reconcile {table : ModelTable} {next bound : Nat}
    (h : Reconcile.Each (fun _ => ModelEntry.IsBelow next) table) (factory : BackendFactory)
    (strict : Bool) (scan : List RepositoryModel)
    (hbound : (table.reconcile factory strict next scan).next ≤ bound) :
    Reconcile.Each (fun _ => ModelEntry.IsBelow bound)
      (table.reconcile factory strict next scan).value := by
  have hnext : next ≤ bound := Nat.le_trans (Reconcile.le_next_models scan table .empty next) hbound
  refine Reconcile.Each.models ?_ scan hbound ?_ Reconcile.each_empty
  · intro m old first hold hlast
    exact (Reconcile.lists_model m old first).isBelow hlast hold
  · intro name entry hentry v model hslot
    exact Nat.lt_of_lt_of_le (h name entry hentry v model hslot) hnext

namespace Engine

theorem stats_releaseSlot (e : Engine) (k : Nat) : (e.releaseSlot k).stats = e.stats := by
  unfold releaseSlot
  split <;> rfl

theorem stats_callBack (e : Engine) (n : Nat) (taken? : Option Nat) (response : Response) :
    (e.callBack n taken? response).stats = e.stats := by
  simp only [callBack, hand]
  split <;> rfl

theorem length_stats_respond (e : Engine) (n : Nat)
    (result : Except Failure (List (String × OutputStorage))) :
    (e.respond n result).stats.length = e.stats.length := by
  unfold respond
  rw [stats_callBack, stats_releaseSlot]
  cases result <;> simp [noteResult, modifyStats, report]

theorem stats_giveUp (e : Engine) (n : Nat) : (e.giveUp n).stats = e.stats := by
  unfold giveUp
  rw [stats_callBack]
  simp only [withdraw, report]
  split
  · exact stats_releaseSlot e _
  · rfl

theorem stats_comeBack (e : Engine) (n : Nat) : (e.comeBack n).stats = e.stats := by
  simp only [comeBack, countOut]
  split <;> rfl

theorem Move.length_stats_le {deed : Deed} {e e' : Engine} (h : Move deed e e') :
    e.stats.length ≤ e'.stats.length := by
  cases h with
  | addStats next => simp [Engine.addStats]
  | takeSlot _ e' n hn htake =>
      rcases takeSlot?_eq_some htake with ⟨free, rfl⟩
      exact Nat.le_refl _
  | gatherFails _ n failure hn hgather => exact Nat.le_of_eq (length_stats_respond e n _).symm
  | allocateFails _ n failure a events hn hallocate =>
      rw [length_stats_respond]
      exact Nat.le_refl _
  | leave _ n held next result slots hn hnext =>
      have hresponded := length_stats_respond (e.takeSlots n result slots) n
        (e.outcome n result slots).1
      exact Nat.le_of_eq hresponded.symm
  | unwind _ n slots a events hn hallocate =>
      exact Nat.le_of_eq (congrArg List.length (stats_giveUp (e.forfeit n slots a events) n).symm)
  | cancel _ n hn => exact Nat.le_of_eq (congrArg List.length (stats_giveUp e n).symm)
  | comeBack _ n hn => exact Nat.le_of_eq (congrArg List.length (stats_comeBack e n).symm)
  | _ => exact Nat.le_refl _

theorem Moves.length_stats_le {also : Deed -> Prop} {e e' : Engine} (h : Moves also e e') :
    e.stats.length ≤ e'.stats.length :=
  Moves.induct (P := fun middle => e.stats.length ≤ middle.stats.length)
    (fun _ _ _ _ hmove hmiddle => Nat.le_trans hmiddle hmove.length_stats_le) h (Nat.le_refl _)

/-- Whether there are counters for all loaded models of all tables. -/
def Counted (e : Engine) : Prop :=
  forall k : Nat, Reconcile.Each (fun _ => ModelEntry.IsBelow e.stats.length) (e.server k).table

theorem Counted.operate {e : Engine} (h : e.Counted) (hsound : e.Sound) (op : Operation) :
    (e.operate op).Counted := by
  have hmoves : Moves (fun _ => True) e (e.operate op) :=
    moves_operate hsound op fun _ _ => trivial
  have hle := hmoves.length_stats_le
  intro k
  cases loads_operate e op k with
  | unloads hunloads =>
      exact hunloads.each fun name entry hentry v model hslot =>
        Nat.lt_of_lt_of_le (h k name entry hentry v model hslot) hle
  | built factory models htable hnext =>
      rw [htable]
      exact ModelTable.each_isBelow_reconcile Reconcile.each_empty factory _ models hnext
  | polled factory models hoptions htable hnext =>
      rw [htable]
      exact ModelTable.each_isBelow_reconcile (h k) factory _ models hnext

theorem counted_reached (ops : List Operation) : (reached ops).Counted := by
  induction ops using List.reverseRecOn with
  | nil => exact fun _ => Reconcile.each_empty
  | append_singleton ops op ih =>
      rw [reached_concat]
      exact ih.operate (reachable_reached ops).sound op

/-!
# What a reconciliation puts on record
-/

def creations (e : Engine) : List (ModelConfig × Int) :=
  e.calls.filterMap fun
    | .create config v _ => some (config, v)
    | .execute _ _ => none

theorem records_settleStop (e : Engine) (n deadline : Nat) :
    (e.settleStop n deadline).calls = e.calls ∧ (e.settleStop n deadline).stats = e.stats := by
  simp only [settleStop]
  split
  · exact ⟨rfl, rfl⟩
  · split <;> exact ⟨rfl, rfl⟩

theorem records_runStop (e : Engine) (n : Nat) :
    (e.runStop n).calls = e.calls ∧ (e.runStop n).stats = e.stats := by
  simp only [runStop]
  split
  · split
    · exact ⟨rfl, rfl⟩
    · exact records_settleStop _ n _
  · exact records_settleStop e n _
  · exact ⟨rfl, rfl⟩

/-- If there is a factory, what is asked for is put on record, and the counters are left alone. -/
theorem records_perform (factory : Option BackendFactory) (polled : Option Nat) (e : Engine)
    (action : LoadAction) :
    (perform factory polled e action).creations = e.creations ++
        (if factory.isSome then Reconcile.creations [action] else []) ∧
      (perform factory polled e action).stats = e.stats := by
  have hrecorded : forall (config : ModelConfig) (v : Int) (about : Option (Bool × Bool)),
      (e.record (.create config v about)).creations = e.creations ++ [(config, v)] := by
    intro config v about
    simp [Engine.creations, record, List.filterMap_append]
  have hstopped : forall (e : Engine) (n : Nat),
      (((e.addStop n).1.runStop (e.addStop n).2).setStop (e.addStop n).2 .abandoned).creations =
          e.creations ∧
        (((e.addStop n).1.runStop (e.addStop n).2).setStop (e.addStop n).2 .abandoned).stats =
          e.stats := by
    intro e n
    have hrun := records_runStop (e.addStop n).1 (e.addStop n).2
    exact ⟨congrArg (List.filterMap _) hrun.1, hrun.2⟩
  cases action with
  | report event =>
      refine ⟨?_, rfl⟩
      have hnone : Reconcile.creations [LoadAction.report event] = [] := rfl
      rw [hnone, ite_self, List.append_nil]
      rfl
  | create config v =>
      cases factory with
      | none => exact ⟨(List.append_nil _).symm, rfl⟩
      | some factory =>
          cases polled with
          | none => exact ⟨hrecorded config v _, rfl⟩
          | some n =>
              simp only [perform, Option.map_some]
              split
              · rw [(hstopped _ n).1, (hstopped _ n).2]
                exact ⟨hrecorded config v _, rfl⟩
              · exact ⟨hrecorded config v _, rfl⟩

theorem records_load (factory : Option BackendFactory) (polled : Option Nat)
    (actions : List LoadAction) (e : Engine) :
    (actions.foldl (perform factory polled) e).creations = e.creations ++
        (if factory.isSome then Reconcile.creations actions else []) ∧
      (actions.foldl (perform factory polled) e).stats = e.stats := by
  induction actions generalizing e with
  | nil =>
      refine ⟨?_, rfl⟩
      have hnone : Reconcile.creations [] = [] := rfl
      rw [hnone, ite_self, List.append_nil]
      rfl
  | cons action rest ih =>
      rcases records_perform factory polled e action with ⟨hcreations, hstats⟩
      rcases ih (perform factory polled e action) with ⟨hrest, hkept⟩
      refine ⟨?_, hkept.trans hstats⟩
      have hsplit : Reconcile.creations (action :: rest) =
          Reconcile.creations [action] ++ Reconcile.creations rest :=
        Reconcile.creations_append [action] rest
      rw [List.foldl_cons, hrest, hcreations, hsplit, List.append_assoc]
      split <;> rfl

theorem statsOf_reconcile (e : Engine) (factory : Option BackendFactory) (polled : Option Nat)
    (options : ServerOptions) (table : ModelTable) (models : List RepositoryModel) (n : Nat) :
    (e.reconcile factory polled options table models).2.2.statsOf n =
      if n < e.stats.length then e.statsOf n else .zero := by
  have hstats : (e.reconcile factory polled options table models).2.2.stats =
      e.stats ++ List.replicate ((ModelTable.reconcile (factory.getD .absent)
        options.strictModelConfig table e.stats.length models).next - e.stats.length) .zero := by
    simp only [Engine.reconcile, addStats]
    rw [(records_load factory polled _ e).2]
  unfold statsOf
  rw [hstats, List.getD_eq_getElem?_getD, List.getD_eq_getElem?_getD, List.getElem?_append]
  split
  · rfl
  · rw [List.getElem?_replicate]
    split <;> rfl

end Engine

/-!
# What a table mirrors
-/

/-- Whether a version is unavailable, and the text of the cause is told. -/
def ModelEntry.Lacks (entry : ModelEntry) (v : Int) (cause : Failure) : Prop :=
  entry.versions.get? v = some (.unavailable cause) ∧
    forall stats : Nat -> InferStats, (entry.status stats).versions.get? v =
      some ⟨.unavailable, some cause.text, .zero⟩

theorem ModelEntry.lacks_of_get? {entry : ModelEntry} {v : Int} {cause : Failure}
    (h : entry.versions.get? v = some (.unavailable cause)) : entry.Lacks v cause := by
  refine ⟨h, fun stats => ?_⟩
  unfold ModelEntry.status
  rw [OrderedMap.get?_map, h]
  rfl

/-- Whether an entry that takes the place of an old one mirrors a model of a repository, while an
engine goes on to another one. -/
structure MirrorsModel (factory : BackendFactory) (strict : Bool) (old : Option ModelEntry)
    (m : RepositoryModel) (entry : ModelEntry) (e e' : Engine) : Prop where
  config : entry.config = m.config
  versions : forall v : Int, v ∈ entry.versions.keys ↔ v ∈ m.versions
  ready : forall v : Int, v ∈ m.versions ->
    ((exists model : LoadedModel, entry.versions.get? v = some (.ready model)) ↔
      m.config.validate strict = .ok () ∧
        ((exists model : LoadedModel, Reconcile.Kept old m.config v model) ∨
          exists backend : Backend, (factory m.config v).result = .ok backend))
  kept : forall v : Int, v ∈ m.versions -> m.config.validate strict = .ok () ->
    forall model : LoadedModel, Reconcile.Kept old m.config v model ->
      entry.versions.get? v = some (.ready model) ∧ model.number < e.stats.length ∧
        e'.statsOf model.number = e.statsOf model.number
  loaded : forall v : Int, v ∈ m.versions -> m.config.validate strict = .ok () ->
    (forall model : LoadedModel, ¬ Reconcile.Kept old m.config v model) ->
    forall backend : Backend, (factory m.config v).result = .ok backend ->
      exists number : Nat, e.stats.length ≤ number ∧ e'.statsOf number = .zero ∧
        entry.versions.get? v = some (.ready ⟨number, m.config, v, backend⟩)
  invalid : forall v : Int, v ∈ m.versions ->
    forall cause : Failure, m.config.validate strict = .error cause -> entry.Lacks v cause
  failed : forall v : Int, v ∈ m.versions -> m.config.validate strict = .ok () ->
    (forall model : LoadedModel, ¬ Reconcile.Kept old m.config v model) ->
    forall cause : Failure, (factory m.config v).result = .error cause -> entry.Lacks v cause

theorem Reconcile.Lists.mirrors {factory : BackendFactory} {strict : Bool}
    {old : Option ModelEntry} {m : RepositoryModel} {entry : ModelEntry} {e e' : Engine}
    {last : Nat}
    (h : Reconcile.Lists factory strict old m e.stats.length last entry)
    (hold : forall before : ModelEntry, old = some before -> before.IsBelow e.stats.length)
    (hstats : forall n : Nat, e'.statsOf n = if n < e.stats.length then e.statsOf n else .zero) :
    MirrorsModel factory strict old m entry e e' := by
  have hslot : forall v : Int, v ∈ m.versions -> exists slot : VersionSlot,
      entry.versions.get? v = some slot ∧
        ComesTo factory strict old m.config e.stats.length last v slot := by
    intro v hv
    have hkey := OrderedMap.contains_iff_mem_keys.2 ((h.versions v).2 hv)
    rcases Option.isSome_iff_exists.1 hkey with ⟨slot, hslot⟩
    exact ⟨slot, hslot, h.slots v slot hslot⟩
  constructor
  · exact h.config
  · exact h.versions
  · intro v hv
    rcases hslot v hv with ⟨slot, hget, hcomes⟩
    rw [← hcomes.isReady_iff, hget]
    simp only [Option.some.injEq]
  · intro v hv hvalid model hkept
    rcases hslot v hv with ⟨slot, hget, hcomes⟩
    have hready := (hcomes.eq_ready_iff hkept).2 hvalid
    rcases hkept with ⟨before, hbefore, _, hbelow⟩
    have hlt := hold before hbefore v model hbelow
    refine ⟨hget.trans (congrArg some hready), hlt, ?_⟩
    rw [hstats, if_pos hlt]
  · intro v hv hvalid hnew backend hbackend
    rcases hslot v hv with ⟨slot, hget, hcomes⟩
    rcases hcomes.of_loaded hvalid hnew hbackend with ⟨number, hfirst, hready⟩
    refine ⟨number, hfirst, ?_, hget.trans (congrArg some hready)⟩
    rw [hstats, if_neg (Nat.not_lt_of_le hfirst)]
  · intro v hv cause hinvalid
    rcases hslot v hv with ⟨slot, hget, hcomes⟩
    exact ModelEntry.lacks_of_get? (hget.trans (congrArg some (hcomes.of_invalid hinvalid)))
  · intro v hv hvalid hnew cause hcause
    rcases hslot v hv with ⟨slot, hget, hcomes⟩
    exact ModelEntry.lacks_of_get?
      (hget.trans (congrArg some (hcomes.of_failed hvalid hnew hcause)))

/-- Whether a table that takes the place of an old one mirrors a repository, while an engine goes on
to another one: it has the names of the repository, each name has what was inserted last under it,
and those versions were asked for, each once, that are listed and valid and could not be kept. -/
structure Mirrors (changes : List RepositoryChange) (factory : Option BackendFactory)
    (strict : Bool) (old table : ModelTable) (e e' : Engine) : Prop where
  names : forall name : String, name ∈ OrderedMap.keys table ↔
    exists m : RepositoryModel, m.config.name = name ∧ Repository.IsLast m changes
  models : forall m : RepositoryModel, Repository.IsLast m changes -> exists entry : ModelEntry,
    OrderedMap.get? table m.config.name = some entry ∧
    MirrorsModel (factory.getD .absent) strict (OrderedMap.get? old m.config.name) m entry e e'
  calls : exists asked : List (ModelConfig × Int), asked.Nodup ∧
    e'.creations = e.creations ++ (if factory.isSome then asked else []) ∧
    (forall (config : ModelConfig) (v : Int), (config, v) ∈ asked ↔
      exists m : RepositoryModel, Repository.IsLast m changes ∧ m.config = config ∧
        v ∈ m.versions ∧ config.validate strict = .ok () ∧ forall model : LoadedModel,
          ¬ Reconcile.Kept (OrderedMap.get? old config.name) config v model) ∧
    forall (m : RepositoryModel) (v : Int) (before : ModelEntry) (cause : Failure),
      Repository.IsLast m changes -> v ∈ m.versions -> m.config.validate strict = .ok () ->
      OrderedMap.get? old m.config.name = some before ->
      before.versions.get? v = some (.unavailable cause) -> (m.config, v) ∈ asked

namespace Engine

theorem mirrors_reconcile {e : Engine} (changes : List RepositoryChange)
    (factory : Option BackendFactory) (polled : Option Nat) (options : ServerOptions)
    {old : ModelTable} (hold : Reconcile.Each (fun _ => ModelEntry.IsBelow e.stats.length) old)
    {e' : Engine}
    (hcalls : e'.calls = (e.reconcile factory polled options old
      (Repository.changed changes).scan).2.2.calls)
    (hstats : e'.stats = (e.reconcile factory polled options old
      (Repository.changed changes).scan).2.2.stats) :
    Mirrors changes factory options.strictModelConfig old
      (e.reconcile factory polled options old (Repository.changed changes).scan).1 e e' := by
  have hnodup := Repository.nodup_scan changes
  constructor
  · intro name
    refine (ModelTable.mem_keys_reconcile hnodup).trans ?_
    rw [List.mem_map]
    constructor
    · rintro ⟨m, hm, hname⟩
      exact ⟨m, hname, (Repository.mem_scan changes m).1 hm⟩
    · rintro ⟨m, hname, hlast⟩
      exact ⟨m, (Repository.mem_scan changes m).2 hlast, hname⟩
  · intro m hlast
    have hlists := @Reconcile.lists_models (factory.getD .absent) options.strictModelConfig
      (Repository.changed changes).scan hnodup old .empty e.stats.length m
      ((Repository.mem_scan changes m).2 hlast)
    rcases hlists with ⟨entry, hentry, hlists⟩
    refine ⟨entry, hentry, hlists.mirrors (fun before hbefore => hold _ before hbefore) ?_⟩
    intro n
    rw [← statsOf_reconcile e factory polled options old (Repository.changed changes).scan n]
    unfold statsOf
    rw [hstats]
  · refine ⟨Reconcile.creations (ModelTable.reconcile (factory.getD .absent)
      options.strictModelConfig old e.stats.length (Repository.changed changes).scan).actions,
      Reconcile.nodup_creations_reconcile hnodup old _, ?_, ?_, ?_⟩
    · have hcreations := (records_load factory polled (ModelTable.reconcile (factory.getD .absent)
        options.strictModelConfig old e.stats.length (Repository.changed changes).scan).actions e).1
      rw [← hcreations]
      exact congrArg (List.filterMap _) hcalls
    · intro config v
      rw [Reconcile.mem_creations_reconcile hnodup]
      simp only [Repository.mem_scan]
    · intro m v before cause hlast hv hvalid hbefore hslot
      rw [Reconcile.mem_creations_reconcile hnodup]
      refine ⟨m, (Repository.mem_scan changes m).2 hlast, rfl, hv, hvalid, ?_⟩
      rintro model ⟨found, hfound, _, hready⟩
      cases hbefore.symm.trans hfound
      cases hslot.symm.trans hready

theorem build_eq_ok {e : Engine} {options : ServerOptions} {allocator : Option Nat}
    {models : List RepositoryModel} {factory : Option BackendFactory} {isInside : Bool} {n : Nat}
    (h : (e.build options allocator (.ok models) factory isInside).1 = .ok n) :
    let result := e.reconcile factory none options .empty models
    exists (e' : Engine) (a : Nat) (events : List Event),
      e'.stats = result.2.2.stats ∧ e'.calls = result.2.2.calls ∧ n = e'.servers.length ∧
      (e.build options allocator (.ok models) factory isInside).2 =
        (e'.addServer options a result.1).report events := by
  simp only [build] at h ⊢
  by_cases houtside : (!(isInside && e.isRunning)) = true
  · rw [if_pos houtside] at h
    cases h
  · rw [if_neg houtside] at h ⊢
    by_cases hslots : options.executionSlots = 0
    · rw [if_pos hslots] at h
      cases h
    · rw [if_neg hslots] at h ⊢
      cases hfailure : (e.reconcile factory none options .empty models).2.1.failure?.filter
          fun _ => options.exitOnError with
      | some failure =>
          simp only [hfailure] at h
          cases h
      | none =>
          simp only [hfailure] at h ⊢
          cases allocator with
          | some a =>
              refine ⟨_, a, _, rfl, rfl, ?_, rfl⟩
              exact (Except.ok.inj h).symm
          | none =>
              refine ⟨_, _, _, ?_, ?_, ?_, rfl⟩
              · rfl
              · rfl
              · exact (Except.ok.inj h).symm

/-- After any run: a serving server that is polled with what a repository lists, and does not stop
over it, has a table that mirrors the repository, and so has a server that is built with it. -/
theorem tables_mirror_repositories (ops : List Operation) (changes : List RepositoryChange)
    (factory : Option BackendFactory) :
    (forall k : Nat,
      let polled := ((reached ops).poll k (.ok (Repository.changed changes).scan) factory).2
      ((reached ops).server k).state = .serving -> (polled.server k).state ≠ .stopped ->
        Mirrors changes factory ((reached ops).server k).options.strictModelConfig
          ((reached ops).server k).table (polled.server k).table (reached ops) polled) ∧
    forall (options : ServerOptions) (allocator : Option Nat) (isInside : Bool) (n : Nat),
      let built := (reached ops).build options allocator (.ok (Repository.changed changes).scan)
        factory isInside
      built.1 = .ok n ->
        Mirrors changes factory options.strictModelConfig .empty (built.2.server n).table
          (reached ops) built.2 := by
  have hcounted := counted_reached ops
  constructor
  · intro k polled hserving hrunning
    have hlt : k < (reached ops).servers.length := lt_of_state (by rw [hserving]; decide)
    have hlength := (manages_reconcile (reached ops) factory (some k)
      ((reached ops).server k).options ((reached ops).server k).table
      (Repository.changed changes).scan).length
    rcases poll_of_serving hserving (Repository.changed changes).scan factory with
      ⟨hstopped, hpolled⟩ | ⟨events, hpolled⟩
    · have hstate : (polled.server k).state = .stopped := by
        rw [← hpolled] at hstopped
        exact hstopped
      exact absurd hstate hrunning
    · have htable : (polled.server k).table = ((reached ops).reconcile factory (some k)
          ((reached ops).server k).options ((reached ops).server k).table
          (Repository.changed changes).scan).1 := by
        show (((reached ops).poll k _ factory).2.server k).table = _
        rw [hpolled]
        show ((modifyServer _ k _).server k).table = _
        rw [server_modifyServer, if_pos ⟨rfl, hlength ▸ hlt⟩]
      rw [htable]
      exact mirrors_reconcile changes factory (some k) _ (hcounted k)
        ((congrArg Engine.calls hpolled).trans rfl) ((congrArg Engine.stats hpolled).trans rfl)
  · intro options allocator isInside n built hbuilt
    rcases build_eq_ok hbuilt with ⟨e', a, events, hstats, hcalls, rfl, hresult⟩
    have htable : (built.2.server e'.servers.length).table = ((reached ops).reconcile factory none
        options .empty (Repository.changed changes).scan).1 := by
      show (((reached ops).build options allocator _ factory isInside).2.server _).table = _
      rw [hresult]
      show ((addServer e' options a _).server _).table = _
      rw [server_addServer, if_pos rfl]
    rw [htable]
    exact mirrors_reconcile changes factory none options Reconcile.each_empty
      ((congrArg Engine.calls hresult).trans hcalls) ((congrArg Engine.stats hresult).trans hstats)

/-- The first version of a model is loaded, and the third one fails to load. -/
def failedRun : List Operation :=
  copyRun ++ [.poll 0 (.ok [⟨copyModel, [1, 3]⟩]) (some firstVersions)]

/-- The model is put in, taken out and put in again, beside one that has no tensors. -/
def copyInserts : List RepositoryChange :=
  [.insert copyModel [7], .remove "copy", .insert copyModel [3, 1, 2, 1],
    .insert (.new "bare" 0) [1]]

/-- The first version is kept, the second one is loaded, and the third one is tried again. -/
theorem mirrors_of_failedRun :
    (exists entry : ModelEntry,
      OrderedMap.get? (((reached failedRun).poll 0 (.ok (Repository.changed copyInserts).scan)
        (some firstVersions)).2.server 0).table "copy" = some entry ∧
      entry.config = copyModel ∧
      entry.versions.get? 1 = some (.ready ⟨0, copyModel, 1, Identity.backend⟩)) ∧
    ((reached failedRun).poll 0 (.ok (Repository.changed copyInserts).scan)
      (some firstVersions)).2.creations =
        (reached failedRun).creations ++ [(copyModel, 2), (copyModel, 3)] ∧
    exists n : Nat, ((reached failedRun).build
        { ServerOptions.default with executionSlots := 1, exitOnError := false } none
        (.ok (Repository.changed copyInserts).scan) (some firstVersions) true).1 = .ok n ∧
      "copy" ∈ OrderedMap.keys (((reached failedRun).build
        { ServerOptions.default with executionSlots := 1, exitOnError := false } none
        (.ok (Repository.changed copyInserts).scan) (some firstVersions)
        true).2.server n).table := by
  rcases tables_mirror_repositories failedRun copyInserts (some firstVersions) with
    ⟨hpolls, hbuilds⟩
  have hpoll := hpolls 0 rfl (by decide)
  have hbuild := hbuilds { ServerOptions.default with executionSlots := 1, exitOnError := false }
    none true 1 rfl
  have hlast : Repository.IsLast ⟨copyModel, [3, 1, 2, 1]⟩ copyInserts := by
    refine ⟨[.insert copyModel [7], .remove "copy"], [.insert (.new "bare" 0) [1]], rfl, ?_⟩
    intro c hc
    rw [List.mem_singleton.1 hc]
    decide
  rcases hpoll.models _ hlast with ⟨entry, hentry, hmirrors⟩
  refine ⟨⟨entry, hentry, hmirrors.config, ?_⟩, rfl, 1, rfl, ?_⟩
  · exact (hmirrors.kept 1 (by decide) rfl ⟨0, copyModel, 1, Identity.backend⟩
      ⟨_, rfl, rfl, rfl⟩).1
  · exact (hbuild.names "copy").2 ⟨_, rfl, hlast⟩

end Engine

end InferenceEngine
