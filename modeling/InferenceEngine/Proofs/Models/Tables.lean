import Mathlib.Data.List.Induction
import InferenceEngine.Proofs.Servers.Relations

/-!
# The tables of servers

Only building a server and polling it put models into its table; whatever else the engine is asked
for leaves the tables as they are or empties them.  So each table has come about by reconciliations
and by clearings.
-/

namespace InferenceEngine

/-!
# Histories of a table
-/

inductive TableChange where
  /-- It is reconciled with a scan; models that are loaded anew are numbered on from `next`. -/
  | reconcile (factory : BackendFactory) (next : Nat) (scan : List RepositoryModel)
  /-- It is cleared. -/
  | clear

namespace ModelTable

def change (strict : Bool) (table : ModelTable) : TableChange -> ModelTable
  | .reconcile factory next scan => (table.reconcile factory strict next scan).value
  | .clear => .empty

def changed (strict : Bool) (changes : List TableChange) : ModelTable :=
  changes.foldl (change strict) .empty

theorem changed_concat (strict : Bool) (changes : List TableChange) (last : TableChange) :
    changed strict (changes ++ [last]) = (changed strict changes).change strict last := by
  simp [changed, List.foldl_append]

end ModelTable

/-- Whether the table of a server has come about by changes, all under the options of the server. -/
def Server.IsFormed (s : Server) : Prop :=
  exists changes : List TableChange,
    s.table = ModelTable.changed s.options.strictModelConfig changes

def Server.Unloads (s s' : Server) : Prop :=
  s'.options = s.options ∧ (s'.table = s.table ∨ s'.table = .empty)

theorem Server.Unloads.isFormed {s s' : Server} (h : s.Unloads s') (hs : s.IsFormed) :
    s'.IsFormed := by
  rcases h with ⟨hoptions, hsame | hempty⟩
  · unfold IsFormed
    rw [hoptions, hsame]
    exact hs
  · exact ⟨[], hempty⟩

theorem Server.endures_unloads : Server.Endures Server.Unloads where
  refl s := ⟨rfl, .inl rfl⟩
  trans := by
    rintro s middle s' ⟨hoptions, htable⟩ ⟨koptions, hsame | hempty⟩
    · constructor
      · exact koptions.trans hoptions
      · rw [hsame]
        exact htable
    · exact ⟨koptions.trans hoptions, .inr hempty⟩
  lasts h := by
    rw [h]
    exact ⟨rfl, .inl rfl⟩
  askToStop s := by
    unfold Server.askToStop
    split <;> exact ⟨rfl, .inl rfl⟩
  shutDown s := by
    unfold Server.shutDown
    split
    · exact ⟨rfl, .inl rfl⟩
    · exact ⟨rfl, .inr rfl⟩
  letGo s := ⟨rfl, .inl rfl⟩

namespace Engine

/-!
# Tables that are left alone or emptied
-/

def Unloads (e e' : Engine) : Prop := forall k : Nat, (e.server k).Unloads (e'.server k)

theorem Unloads.refl (e : Engine) : e.Unloads e := Server.endures_unloads.along_refl e

/-!
# Loading

What neither builds nor polls a server puts no model into a table.
-/

theorem unloads_reconcile (e : Engine) (factory : Option BackendFactory) (polled : Option Nat)
    (options : ServerOptions) (table : ModelTable) (models : List RepositoryModel) :
    e.Unloads (e.reconcile factory polled options table models).2.2 :=
  Server.endures_unloads.reconcile e factory polled options table models

/-- What an operation does to the table of a server: it leaves it alone or empties it, or it puts in
one that is reconciled from the empty table or from the old one, and makes room for its counters. -/
inductive Loads (e e' : Engine) (k : Nat) : Prop where
  | unloads (h : (e.server k).Unloads (e'.server k)) : Loads e e' k
  | built (factory : BackendFactory) (models : List RepositoryModel)
      (htable : (e'.server k).table = (ModelTable.reconcile factory
        (e'.server k).options.strictModelConfig .empty e.stats.length models).value)
      (hnext : (ModelTable.reconcile factory (e'.server k).options.strictModelConfig .empty
        e.stats.length models).next ≤ e'.stats.length) : Loads e e' k
  | polled (factory : BackendFactory) (models : List RepositoryModel)
      (hoptions : (e'.server k).options = (e.server k).options)
      (htable : (e'.server k).table = (ModelTable.reconcile factory
        (e.server k).options.strictModelConfig (e.server k).table e.stats.length models).value)
      (hnext : (ModelTable.reconcile factory (e.server k).options.strictModelConfig
        (e.server k).table e.stats.length models).next ≤ e'.stats.length) : Loads e e' k

theorem Loads.until {e middle e' : Engine} {k : Nat} (h : e.Loads middle k)
    (hservers : e'.servers = middle.servers) (hstats : e'.stats = middle.stats) : e.Loads e' k := by
  have hserver := server_of_servers hservers k
  cases h with
  | unloads h =>
      refine .unloads ?_
      rw [hserver]
      exact h
  | built factory models htable hnext =>
      rw [← hserver] at htable hnext
      rw [← hstats] at hnext
      exact .built factory models htable hnext
  | polled factory models hoptions htable hnext =>
      rw [← hserver] at hoptions htable
      rw [← hstats] at hnext
      exact .polled factory models hoptions htable hnext

theorem le_length_addStats (e : Engine) (next : Nat) : next ≤ (e.addStats next).stats.length := by
  simp only [addStats, List.length_append, List.length_replicate]
  omega

theorem loads_build (e : Engine) (options : ServerOptions) (allocator : Option Nat)
    (scan : Except Failure (List RepositoryModel)) (factory : Option BackendFactory)
    (isInside : Bool) (k : Nat) :
    e.Loads (e.build options allocator scan factory isInside).2 k := by
  simp only [build]
  split
  · exact .unloads (Unloads.refl e k)
  · split
    · exact .unloads (Unloads.refl e k)
    · cases scan with
      | error failure => exact .unloads (Unloads.refl e k)
      | ok models =>
          have hunloads := unloads_reconcile e factory none options .empty models k
          have hadded : forall (e' : Engine) (a : Nat),
              e'.servers = (e.reconcile factory none options .empty models).2.2.servers ->
              e'.stats = (e.reconcile factory none options .empty models).2.2.stats ->
                e.Loads (e'.addServer options a
                  (e.reconcile factory none options .empty models).1) k := by
            intro e' a hservers hstats
            have hserver := server_addServer e' options a
              (e.reconcile factory none options .empty models).1 k
            by_cases hk : k = e'.servers.length
            · rw [if_pos hk] at hserver
              refine .built (factory.getD .absent) models ?_ ?_
              · rw [hserver]
                rfl
              · rw [hserver]
                exact Nat.le_trans (le_length_addStats _ _) (Nat.le_of_eq (congrArg _ hstats.symm))
            · rw [if_neg hk, server_of_servers hservers] at hserver
              refine .unloads ?_
              rw [hserver]
              exact hunloads
          simp only
          split
          · exact .unloads hunloads
          · cases allocator with
            | some n => exact (hadded _ n rfl rfl).until rfl rfl
            | none => exact (hadded _ _ rfl rfl).until rfl rfl

/-- A poll of a serving server ends with the server stopped, or it puts the new table in. -/
theorem poll_of_serving {e : Engine} {n : Nat} (h : (e.server n).state = .serving)
    (models : List RepositoryModel) (factory : Option BackendFactory) :
    let result := e.reconcile factory (some n) (e.server n).options (e.server n).table models
    ((result.2.2.server n).state = .stopped ∧
        (e.poll n (.ok models) factory).2 = result.2.2) ∨
      exists events : List Event, (e.poll n (.ok models) factory).2 =
        (result.2.2.modifyServer n fun s => { s with table := result.1 }).report events := by
  simp only [poll]
  split
  · rename_i hstate
    exact absurd h hstate
  · split
    · rename_i hstopped
      exact .inl ⟨hstopped, rfl⟩
    · split
      · exact .inr ⟨_, rfl⟩
      · exact .inr ⟨_, rfl⟩

theorem loads_setTable (e : Engine) (n : Nat) (models : List RepositoryModel)
    (factory : Option BackendFactory) (k : Nat) :
    let result := e.reconcile factory (some n) (e.server n).options (e.server n).table models
    e.Loads (result.2.2.modifyServer n fun s => { s with table := result.1 }) k := by
  intro result
  have hunloads : (e.server k).Unloads (result.2.2.server k) :=
    unloads_reconcile e factory (some n) (e.server n).options (e.server n).table models k
  by_cases hk : k = n ∧ n < result.2.2.servers.length
  · rw [hk.1] at hunloads ⊢
    refine .polled (factory.getD .absent) models ?_ ?_ (le_length_addStats _ _)
    · rw [server_modifyServer, if_pos ⟨rfl, hk.2⟩]
      exact hunloads.1
    · rw [server_modifyServer, if_pos ⟨rfl, hk.2⟩]
      rfl
  · refine .unloads ?_
    rw [server_modifyServer, if_neg hk]
    exact hunloads

theorem loads_poll (e : Engine) (n : Nat) (scan : Except Failure (List RepositoryModel))
    (factory : Option BackendFactory) (k : Nat) : e.Loads (e.poll n scan factory).2 k := by
  have hrefused : (e.poll n scan factory).2 = e -> e.Loads (e.poll n scan factory).2 k := by
    intro hsame
    rw [hsame]
    exact .unloads (Unloads.refl e k)
  by_cases hserving : (e.server n).state = .serving
  · cases scan with
    | error failure =>
        apply hrefused
        simp [poll, hserving]
    | ok models =>
        rcases poll_of_serving hserving models factory with ⟨_, hpoll⟩ | ⟨events, hpoll⟩
        · rw [hpoll]
          exact .unloads (unloads_reconcile e factory (some n) _ _ models k)
        · rw [hpoll]
          exact (loads_setTable e n models factory k).until rfl rfl
  · apply hrefused
    simp [poll, hserving]

theorem unloads_operate (e : Engine) {op : Operation} (h : op.isLoad = false) :
    e.Unloads (e.operate op) := by
  have hset : forall (k : Nat) (registry : Registry), e.Unloads (e.setRegistry k registry) :=
    fun k registry => Server.endures_unloads.modifyServer ⟨rfl, .inl rfl⟩
  by_cases hregistration : op.isRegistration = true
  · cases op with
    | register server name key offset size => exact hset server _
    | unregister server name =>
        simp only [Engine.operate, unregister]
        split
        · exact hset server _
        · exact Unloads.refl e
    | unregisterAll server => exact hset server _
    | _ => cases hregistration
  · exact Server.endures_unloads.operate e h (Bool.eq_false_iff.2 hregistration)

theorem loads_operate (e : Engine) (op : Operation) (k : Nat) : e.Loads (e.operate op) k := by
  cases op with
  | build options allocator scan factory isInside =>
      simp only [Engine.operate]
      split
      · exact loads_build e options allocator scan factory isInside k
      · exact .unloads (Unloads.refl e k)
  | poll server scan factory => exact loads_poll e server scan factory k
  | _ => exact .unloads (unloads_operate e rfl k)

theorem unloads_others (e : Engine) (op : Operation) : exists k : Nat, forall j : Nat, j ≠ k ->
    (e.server j).Unloads ((e.operate op).server j) := by
  cases op with
  | build options allocator scan factory isInside =>
      refine ⟨e.servers.length, fun j hj => ?_⟩
      simp only [Engine.operate]
      split
      · exact Server.endures_unloads.build hj options allocator scan factory isInside
      · exact Unloads.refl e j
  | poll server scan factory =>
      refine ⟨server, fun j hj => ?_⟩
      exact Server.endures_unloads.poll (fun hsame => absurd hsame hj) e scan factory
  | _ => exact ⟨0, fun j _ => unloads_operate e rfl j⟩

/-!
# Runs
-/

def Formed (e : Engine) : Prop := forall k : Nat, (e.server k).IsFormed

theorem Formed.operate {e : Engine} (h : e.Formed) (op : Operation) : (e.operate op).Formed := by
  intro k
  cases loads_operate e op k with
  | unloads hunloads => exact hunloads.isFormed (h k)
  | built factory models htable _ => exact ⟨[.reconcile factory e.stats.length models], htable⟩
  | polled factory models hoptions htable _ =>
      rcases h k with ⟨changes, hchanges⟩
      refine ⟨changes ++ [.reconcile factory e.stats.length models], ?_⟩
      rw [ModelTable.changed_concat, hoptions, ← hchanges]
      exact htable

theorem formed_reached (ops : List Operation) : (reached ops).Formed := by
  induction ops using List.reverseRecOn with
  | nil => exact fun _ => ⟨[], rfl⟩
  | append_singleton ops op ih =>
      rw [reached_concat]
      exact ih.operate op

end Engine

end InferenceEngine
