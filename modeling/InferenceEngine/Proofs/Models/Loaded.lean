import InferenceEngine.Proofs.Execution.Starts
import InferenceEngine.Proofs.Models.Mirror

/-!
# Loaded models have numbers of their own

A model that is loaded gets the next number, and no other model ever gets it; what is kept keeps its
number.  So all loaded models of a run are told apart by their numbers, those of the tables and
those that requests are pinned to.
-/

namespace InferenceEngine

/-- Whether each loaded model of an entry is the one that goes by its number, below a bound. -/
def ModelEntry.IsNamed (named : Nat -> LoadedModel) (bound : Nat) (entry : ModelEntry) : Prop :=
  forall (v : Int) (model : LoadedModel), entry.versions.get? v = some (.ready model) ->
    model.number < bound ∧ named model.number = model

theorem ModelEntry.IsNamed.mono {named named' : Nat -> LoadedModel} {bound bound' : Nat}
    {entry : ModelEntry} (h : entry.IsNamed named bound) (hbound : bound ≤ bound')
    (hsame : forall n : Nat, n < bound -> named' n = named n) : entry.IsNamed named' bound' := by
  intro v model hslot
  rcases h v model hslot with ⟨hlt, hname⟩
  exact ⟨Nat.lt_of_lt_of_le hlt hbound, (hsame _ hlt).trans hname⟩

namespace Reconcile

variable {factory : BackendFactory} {strict : Bool} {config : ModelConfig}

theorem Each.isNamed_mono {named named' : Nat -> LoadedModel} {bound bound' : Nat}
    {table : ModelTable} (h : Each (fun _ => ModelEntry.IsNamed named bound) table)
    (hbound : bound ≤ bound') (hsame : forall n : Nat, n < bound -> named' n = named n) :
    Each (fun _ => ModelEntry.IsNamed named' bound') table :=
  fun name entry hentry => (h name entry hentry).mono hbound hsame

/-!
# Numbers that are given
-/

theorem isNamed_version {kept? : Int -> Option LoadedModel} {named : Nat -> LoadedModel}
    {next : Nat} {v : Int} (hkept : forall model : LoadedModel, kept? v = some model ->
      model.number < next ∧ named model.number = model) :
    exists named' : Nat -> LoadedModel, (forall n : Nat, n < next -> named' n = named n) ∧
      forall model : LoadedModel, (version factory config kept? next v).value = .ready model ->
        model.number < (version factory config kept? next v).next ∧
          named' model.number = model := by
  unfold version
  split
  · rename_i found hfound
    refine ⟨named, fun _ _ => rfl, ?_⟩
    intro model hmodel
    cases hmodel
    exact hkept found hfound
  · split
    · rename_i backend _
      -- The model that is loaded is the first one of its number.
      refine ⟨fun n => if n = next then ⟨next, config, v, backend⟩ else named n, ?_, ?_⟩
      · intro n hn
        exact if_neg (Nat.ne_of_lt hn)
      · intro model hmodel
        cases hmodel
        exact ⟨Nat.lt_succ_self next, if_pos rfl⟩
    · refine ⟨named, fun _ _ => rfl, ?_⟩
      intro model hmodel
      cases hmodel

theorem isNamed_versions {kept? : Int -> Option LoadedModel} (vs : List Int) {next : Nat}
    {named : Nat -> LoadedModel} (hkept : forall (v : Int) (model : LoadedModel),
      kept? v = some model -> model.number < next ∧ named model.number = model) :
    exists named' : Nat -> LoadedModel, (forall n : Nat, n < next -> named' n = named n) ∧
      forall (v : Int) (model : LoadedModel),
        (v, .ready model) ∈ (versions factory config kept? next vs).value ->
          model.number < (versions factory config kept? next vs).next ∧
            named' model.number = model := by
  induction vs generalizing next named with
  | nil => exact ⟨named, fun _ _ => rfl, fun _ _ hmem => by cases hmem⟩
  | cons v rest ih =>
      have hversion := @isNamed_version factory config kept? named next v (hkept v)
      rcases hversion with ⟨first, hfirst, hvalue⟩
      have hnext : next ≤ (version factory config kept? next v).next := le_next_version kept? next v
      have hstill : forall (w : Int) (model : LoadedModel), kept? w = some model ->
          model.number < (version factory config kept? next v).next ∧
            first model.number = model := by
        intro w model hmodel
        rcases hkept w model hmodel with ⟨hlt, hname⟩
        exact ⟨Nat.lt_of_lt_of_le hlt hnext, (hfirst _ hlt).trans hname⟩
      rcases ih hstill with ⟨named', hrest, hvalues⟩
      refine ⟨named', ?_, ?_⟩
      · intro n hn
        rw [hrest n (Nat.lt_of_lt_of_le hn hnext), hfirst n hn]
      · intro w model hmem
        rcases List.mem_cons.1 hmem with hhead | htail
        · have hready : (version factory config kept? next v).value = .ready model :=
            (congrArg Prod.snd hhead).symm
          rcases hvalue model hready with ⟨hlt, hname⟩
          exact ⟨Nat.lt_of_lt_of_le hlt (le_next_versions kept? rest _),
            (hrest _ hlt).trans hname⟩
        · exact hvalues w model htail

theorem isNamed_model (m : RepositoryModel) {old : Option ModelEntry} {next : Nat}
    {named : Nat -> LoadedModel}
    (hold : forall entry : ModelEntry, old = some entry -> entry.IsNamed named next) :
    exists named' : Nat -> LoadedModel, (forall n : Nat, n < next -> named' n = named n) ∧
      (model factory strict m old next).value.IsNamed named'
        (model factory strict m old next).next := by
  unfold model
  split
  · rename_i cause hinvalid
    refine ⟨named, fun _ _ => rfl, ?_⟩
    intro v found hslot
    have hlists := @lists_invalid factory strict old m cause hinvalid next
    cases (hlists.slots v _ hslot).of_invalid hinvalid
  · have hkept : forall (v : Int) (model : LoadedModel),
        keptFrom (old.filter fun entry => entry.config = m.config) v = some model ->
          model.number < next ∧ named model.number = model := by
      intro v model hfound
      rcases keptFrom_eq_some_iff.1 hfound with ⟨entry, hentry, _, hslot⟩
      exact hold entry hentry v model hslot
    have hversions := @isNamed_versions factory m.config _ (listed m) next named hkept
    rcases hversions with ⟨named', hsame, hvalues⟩
    refine ⟨named', hsame, ?_⟩
    intro v found hslot
    apply hvalues v found
    refine (OrderedMap.get?_ofList_eq_some_iff ?_).1 hslot
    rw [keys_versions]
    exact nodup_listed m

theorem isNamed_models (scan : List RepositoryModel) {previous table : ModelTable} {next : Nat}
    {named : Nat -> LoadedModel}
    (hprevious : Each (fun _ => ModelEntry.IsNamed named next) previous)
    (htable : Each (fun _ => ModelEntry.IsNamed named next) table) :
    exists named' : Nat -> LoadedModel, (forall n : Nat, n < next -> named' n = named n) ∧
      Each (fun _ => ModelEntry.IsNamed named'
        (models factory strict previous table next scan).next)
        (models factory strict previous table next scan).value.1 := by
  induction scan generalizing previous table next named with
  | nil => exact ⟨named, fun _ _ => rfl, htable⟩
  | cons m rest ih =>
      have hmodel := @isNamed_model factory strict m (OrderedMap.get? previous m.config.name) next
        named fun entry hentry => hprevious m.config.name entry hentry
      rcases hmodel with ⟨first, hfirst, hentry⟩
      have hnext := @le_next_model factory strict m (OrderedMap.get? previous m.config.name) next
      rcases ih ((hprevious.isNamed_mono hnext hfirst).erase m.config.name)
        ((htable.isNamed_mono hnext hfirst).insert hentry) with ⟨named', hrest, heach⟩
      refine ⟨named', ?_, heach⟩
      intro n hn
      rw [hrest n (Nat.lt_of_lt_of_le hn hnext), hfirst n hn]

end Reconcile

theorem ModelTable.isNamed_reconcile {named : Nat -> LoadedModel} {next : Nat} {table : ModelTable}
    (h : Reconcile.Each (fun _ => ModelEntry.IsNamed named next) table) (factory : BackendFactory)
    (strict : Bool) (scan : List RepositoryModel) :
    exists named' : Nat -> LoadedModel, (forall n : Nat, n < next -> named' n = named n) ∧
      Reconcile.Each (fun _ => ModelEntry.IsNamed named'
        (table.reconcile factory strict next scan).next)
        (table.reconcile factory strict next scan).value :=
  Reconcile.isNamed_models scan h Reconcile.each_empty

/-!
# Models that are kept or loaded anew
-/

/-- Whether each loaded model of an entry was loaded before, under the same name and version and
with an equal configuration, or has a number from a bound on. -/
def ModelEntry.KeepsOrLoads (table : ModelTable) (first : Nat) (name : String)
    (entry : ModelEntry) : Prop :=
  forall (v : Int) (model : LoadedModel), entry.versions.get? v = some (.ready model) ->
    (exists before : ModelEntry, OrderedMap.get? table name = some before ∧
      before.config = entry.config ∧ before.versions.get? v = some (.ready model)) ∨
    first ≤ model.number

theorem ModelTable.each_keepsOrLoads_self (table : ModelTable) (first : Nat) :
    Reconcile.Each (ModelEntry.KeepsOrLoads table first) table :=
  fun _ entry hentry _ _ hslot => .inl ⟨entry, hentry, rfl, hslot⟩

theorem ModelTable.keepsOrLoads_reconcile (factory : BackendFactory) (strict : Bool)
    (table : ModelTable) (next : Nat) (scan : List RepositoryModel) :
    Reconcile.Each (ModelEntry.KeepsOrLoads table next)
      (table.reconcile factory strict next scan).value := by
  refine Reconcile.Each.models_between ?_ scan (Nat.le_refl next) (Nat.le_refl _)
    (table.each_keepsOrLoads_self next) Reconcile.each_empty
  intro m old first hold hfirst _ v model hslot
  have hlists := @Reconcile.lists_model factory strict m old first
  have hconfig := hlists.config
  cases hlists.slots v _ hslot with
  | kept _ _ hkept =>
      rcases hkept with ⟨entry, hentry, hsame, hready⟩
      rcases hold entry hentry v model hready with ⟨before, hbefore, hequal, hold⟩ | hnew
      · exact .inl ⟨before, hbefore, by rw [hequal, hsame, hconfig], hold⟩
      · exact .inr hnew
  | loaded number backend _ _ _ hnumber _ => exact .inr (Nat.le_trans hfirst hnumber)

namespace Engine

/-- After an operation, each loaded model of a table was there before or has a new number. -/
theorem keepsOrLoads_operate (e : Engine) (op : Operation) (k : Nat) :
    Reconcile.Each (ModelEntry.KeepsOrLoads (e.server k).table e.stats.length)
      ((e.operate op).server k).table := by
  cases loads_operate e op k with
  | unloads hunloads => exact hunloads.each (ModelTable.each_keepsOrLoads_self _ _)
  | built factory models htable hnext =>
      rw [htable]
      intro name entry hentry v model hslot
      have hbuilt := ModelTable.keepsOrLoads_reconcile factory
        ((e.operate op).server k).options.strictModelConfig .empty e.stats.length models
      rcases hbuilt name entry hentry v model hslot with ⟨before, hbefore, _⟩ | hnew
      · cases hbefore
      · exact .inr hnew
  | polled factory models hoptions htable hnext =>
      rw [htable]
      exact ModelTable.keepsOrLoads_reconcile factory _ _ _ models

/-!
# Runs

Models that are loaded into the table of one server get names of their own.
-/

/-- Whether each loaded model of a table is the one that goes by its number, and has counters. -/
def Named (named : Nat -> LoadedModel) (e : Engine) : Prop :=
  forall k : Nat,
    Reconcile.Each (fun _ => ModelEntry.IsNamed named e.stats.length) (e.server k).table

theorem Named.mono {named named' : Nat -> LoadedModel} {e : Engine} (h : e.Named named)
    (hsame : forall n : Nat, n < e.stats.length -> named' n = named n) : e.Named named' :=
  fun k => (h k).isNamed_mono (Nat.le_refl _) hsame

theorem Named.load {named : Nat -> LoadedModel} {e e' : Engine} (h : e.Named named)
    (hle : e.stats.length ≤ e'.stats.length) {k : Nat}
    (hothers : forall j : Nat, j ≠ k -> (e.server j).Unloads (e'.server j)) {old : ModelTable}
    (hold : Reconcile.Each (fun _ => ModelEntry.IsNamed named e.stats.length) old)
    {factory : BackendFactory} {strict : Bool} {models : List RepositoryModel}
    (htable : (e'.server k).table =
      (old.reconcile factory strict e.stats.length models).value)
    (hnext : (old.reconcile factory strict e.stats.length models).next ≤ e'.stats.length) :
    exists named' : Nat -> LoadedModel,
      (forall n : Nat, n < e.stats.length -> named' n = named n) ∧ e'.Named named' := by
  rcases ModelTable.isNamed_reconcile hold factory strict models with ⟨named', hsame, heach⟩
  refine ⟨named', hsame, ?_⟩
  intro j
  by_cases hj : j = k
  · rw [hj, htable]
    exact heach.isNamed_mono hnext fun _ _ => rfl
  · exact (hothers j hj).each ((h j).isNamed_mono hle hsame)

theorem Named.operate {named : Nat -> LoadedModel} {e : Engine} (h : e.Named named)
    (hsound : e.Sound) (op : Operation) : exists named' : Nat -> LoadedModel,
      (forall n : Nat, n < e.stats.length -> named' n = named n) ∧
        (e.operate op).Named named' := by
  have hmoves : Moves (fun _ => True) e (e.operate op) :=
    moves_operate hsound op fun _ _ => trivial
  have hle := hmoves.length_stats_le
  rcases unloads_others e op with ⟨k, hothers⟩
  cases loads_operate e op k with
  | unloads hunloads =>
      refine ⟨named, fun _ _ => rfl, ?_⟩
      intro j
      have hj : (e.server j).Unloads ((e.operate op).server j) := by
        by_cases hjk : j = k
        · rw [hjk]
          exact hunloads
        · exact hothers j hjk
      exact hj.each ((h j).isNamed_mono hle fun _ _ => rfl)
  | built factory models htable hnext =>
      exact h.load hle hothers Reconcile.each_empty htable hnext
  | polled factory models hoptions htable hnext => exact h.load hle hothers (h k) htable hnext

theorem length_stats_le_of_earlier {earlier ops : List Operation} (h : earlier <+: ops) :
    (reached earlier).stats.length ≤ (reached ops).stats.length := by
  rcases h with ⟨later, rfl⟩
  have hmoves : Moves (fun _ => True) (reached earlier) (reached (earlier ++ later)) := by
    unfold reached
    rw [after_append]
    exact (reachable_reached earlier).sound.moves_after later
  exact hmoves.length_stats_le

theorem named_reached (ops : List Operation) : exists named : Nat -> LoadedModel,
    forall earlier : List Operation, earlier <+: ops -> (reached earlier).Named named := by
  induction ops using List.reverseRecOn with
  | nil =>
      refine ⟨default, ?_⟩
      intro earlier hearlier
      rw [List.prefix_nil.1 hearlier]
      exact fun _ => Reconcile.each_empty
  | append_singleton ops op ih =>
      rcases ih with ⟨named, hnamed⟩
      rcases (hnamed ops List.prefix_rfl).operate (reachable_reached ops).sound op with
        ⟨named', hsame, hlast⟩
      rw [← reached_concat] at hlast
      refine ⟨named', ?_⟩
      intro earlier hearlier
      rcases List.prefix_concat_iff.1 hearlier with rfl | hbefore
      · exact hlast
      · apply (hnamed earlier hbefore).mono
        intro n hn
        exact hsame n (Nat.lt_of_lt_of_le hn (length_stats_le_of_earlier hbefore))

/-!
# Requests that are pinned

A request is pinned to a number that was in use before the last operation.
-/

/-- Whether a provider has been made in a run, and changed since. -/
def Makes (ops : List Operation) (p : Provider) : Prop :=
  exists (before : List Operation) (server : Nat) (name : String) (choice : VersionChoice)
    (header : RequestHeader) (made : Provider) (changes : List Provider.Edit),
    before <+: ops ∧ (reached before).provider server name choice header = .ok made ∧
      p = made.edited changes

/-- Whether each provider that is submitted in a run has been made in it by then. -/
def SubmitsOwn (ops : List Operation) : Prop :=
  forall (earlier later : List Operation) (server callback : Nat) (p : Provider),
    ops = earlier ++ .submit server p callback :: later -> Makes earlier p

theorem Makes.is_ready {ops : List Operation} {p : Provider} (h : Makes ops p) :
    exists before : List Operation, before <+: ops ∧
      exists (k : Nat) (name : String) (entry : ModelEntry) (v : Int),
        OrderedMap.get? ((reached before).server k).table name = some entry ∧
          entry.versions.get? v = some (.ready p.model) := by
  rcases h with ⟨before, k, name, choice, header, made, changes, hbefore, hmade, rfl⟩
  have hmodel : (made.edited changes).model = made.model :=
    congrArg Provider.Outline.model (made.outline_edited changes)
  rcases ModelTable.resolve_eq_ok (Provider.resolve_of_new hmade) with ⟨entry, v, hentry, hslot⟩
  rw [hmodel]
  exact ⟨before, hbefore, k, name, entry, v, hentry, hslot⟩

/-- The loaded model that a request is pinned to was in a table before the request was accepted. -/
theorem SubmitsOwn.is_ready {ops : List Operation} (h : SubmitsOwn ops) {n : Nat}
    (hn : n < (reached ops).submissions.length) :
    exists before : List Operation, before <+: ops ∧ before ≠ ops ∧
      exists (k : Nat) (name : String) (entry : ModelEntry) (v : Int),
        OrderedMap.get? ((reached before).server k).table name = some entry ∧
          entry.versions.get? v = some (.ready ((reached ops).submission n).request.model) := by
  rcases submit_of_reached ops hn with ⟨earlier, later, server, callback, p, hops, hprepare⟩
  rcases (h earlier later server callback p hops).is_ready with ⟨before, hbefore, hready⟩
  have hlt : before.length < ops.length := by
    have hle := hbefore.length_le
    rw [hops, List.length_append, List.length_cons]
    omega
  refine ⟨before, hbefore.trans ⟨_, hops.symm⟩, ?_, ?_⟩
  · intro hsame
    exact Nat.ne_of_lt hlt (congrArg List.length hsame)
  · rw [(PreparedRequest.prepare_eq_ok hprepare).2.2.2.1]
    exact hready

theorem SubmitsOwn.earlier {earlier ops : List Operation} (h : SubmitsOwn ops)
    (hearlier : earlier <+: ops) : SubmitsOwn earlier := by
  rcases hearlier with ⟨more, rfl⟩
  intro before later server callback p hsplit
  apply h before (later ++ more) server callback p
  rw [hsplit, List.append_assoc, List.cons_append]

theorem submitsOwn_nil : SubmitsOwn [] := by
  intro earlier later server callback p hsplit
  cases earlier <;> cases hsplit

theorem SubmitsOwn.concat {ops : List Operation} {op : Operation} (h : SubmitsOwn ops)
    (hop : forall (server callback : Nat) (p : Provider), op = .submit server p callback ->
      Makes ops p) : SubmitsOwn (ops ++ [op]) := by
  intro earlier later server callback p hsplit
  rcases List.eq_nil_or_concat later with rfl | ⟨front, last, rfl⟩
  · rcases List.append_inj' hsplit rfl with ⟨rfl, hlast⟩
    exact hop server callback p (List.cons.inj hlast).1
  · rw [List.concat_eq_append, ← List.cons_append, ← List.append_assoc] at hsplit
    exact h earlier front server callback p (List.append_inj' hsplit rfl).1

theorem SubmitsOwn.other {ops : List Operation} {op : Operation} (h : SubmitsOwn ops)
    (hnone : op.callback? = none) : SubmitsOwn (ops ++ [op]) := by
  refine h.concat fun server callback p hsubmit => ?_
  rw [hsubmit] at hnone
  cases hnone

theorem SubmitsOwn.submit {ops : List Operation} {p : Provider} (h : SubmitsOwn ops)
    (hmakes : Makes ops p) (server callback : Nat) :
    SubmitsOwn (ops ++ [.submit server p callback]) := by
  refine h.concat fun _ _ other hsubmit => ?_
  cases hsubmit
  exact hmakes

theorem SubmitsOwn.number_lt_of_concat {ops : List Operation} {op : Operation}
    (h : SubmitsOwn (ops ++ [op])) {n : Nat}
    (hn : n < (reached (ops ++ [op])).submissions.length) :
    ((reached (ops ++ [op])).submission n).request.model.number < (reached ops).stats.length := by
  rcases h.is_ready hn with ⟨before, hbefore, hne, k, name, entry, v, hentry, hslot⟩
  have hprefix : before <+: ops := (List.prefix_concat_iff.1 hbefore).resolve_left hne
  exact Nat.lt_of_lt_of_le (counted_reached before k name entry hentry v _ hslot)
    (length_stats_le_of_earlier hprefix)

theorem SubmitsOwn.number_lt {ops : List Operation} (h : SubmitsOwn ops) {n : Nat}
    (hn : n < (reached ops).submissions.length) :
    ((reached ops).submission n).request.model.number < (reached ops).stats.length := by
  rcases h.is_ready hn with ⟨before, hbefore, _, k, name, entry, v, hentry, hslot⟩
  exact Nat.lt_of_lt_of_le (counted_reached before k name entry hentry v _ hslot)
    (length_stats_le_of_earlier hbefore)

end Engine

end InferenceEngine
