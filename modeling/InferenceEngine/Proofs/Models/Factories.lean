import InferenceEngine.Proofs.Models.Mirror

/-!
# Factories that change their answers

A reconciliation asks the factory once for each version that it loads.  The factory that it is given
answers a question always alike, while another one may answer it by how many questions there have
been before.  But nothing is asked twice unless the scan lists a model twice, and so each sequence
of answers is that of a factory that does not change.
-/

namespace InferenceEngine

/-- The answers of a factory, by the number of questions before. -/
def BackendAnswers := Nat -> BackendFactory

namespace Reconcile

/-!
# Asking in turn
-/

section

variable (answers : BackendAnswers)

/-- What becomes of several versions if so many questions have been asked before. -/
def versionsInTurn (config : ModelConfig) (kept? : Int -> Option LoadedModel) (asked next : Nat) :
    List Int -> Outcome (List (Int × VersionSlot))
  | [] => ⟨[], .nothing, [], next⟩
  | v :: rest =>
    let first := version (answers asked) config kept? next v
    let others := versionsInTurn config kept? (asked + (creations first.actions).length) first.next
      rest
    ⟨(v, first.value) :: others.value, first.report.append others.report,
      first.actions ++ others.actions, others.next⟩

def modelInTurn (strict : Bool) (model : RepositoryModel) (old : Option ModelEntry)
    (asked next : Nat) : Outcome ModelEntry :=
  match model.config.validate strict with
  | .error cause => invalid model old cause next
  | .ok () =>
    assemble model old (versionsInTurn answers model.config
      (keptFrom (old.filter fun entry => entry.config = model.config)) asked next (listed model))

def modelsInTurn (strict : Bool) (previous table : ModelTable) (asked next : Nat) :
    List RepositoryModel -> Outcome (ModelTable × ModelTable)
  | [] => ⟨(table, previous), .nothing, [], next⟩
  | m :: rest =>
    let name := m.config.name
    let entry := modelInTurn answers strict m (previous.get? name) asked next
    let others := modelsInTurn strict (previous.erase name) (table.insert name entry.value)
      (asked + (creations entry.actions).length) entry.next rest
    ⟨others.value, entry.report.append others.report, entry.actions ++ others.actions,
      others.next⟩

end

/-!
# Answers that agree

Which questions are asked does not depend on the answers.
-/

/-- Whether a factory answers questions as they are answered in turn. -/
def Agrees (answers : BackendAnswers) (factory : BackendFactory) (asked : Nat)
    (questions : List (ModelConfig × Int)) : Prop :=
  forall (i : Nat) (config : ModelConfig) (v : Int), questions[i]? = some (config, v) ->
    factory config v = answers (asked + i) config v

variable {answers : BackendAnswers} {factory : BackendFactory} {asked : Nat}

theorem Agrees.left {first rest : List (ModelConfig × Int)}
    (h : Agrees answers factory asked (first ++ rest)) : Agrees answers factory asked first := by
  intro i config v hi
  apply h i config v
  rw [List.getElem?_append_left (List.getElem?_eq_some_iff.1 hi).1]
  exact hi

theorem Agrees.right {first rest : List (ModelConfig × Int)}
    (h : Agrees answers factory asked (first ++ rest)) :
    Agrees answers factory (asked + first.length) rest := by
  intro i config v hi
  rw [Nat.add_assoc]
  apply h (first.length + i) config v
  rw [List.getElem?_append_right (Nat.le_add_right ..), Nat.add_sub_cancel_left]
  exact hi

theorem exists_agrees (answers : BackendAnswers) {questions : List (ModelConfig × Int)}
    (h : questions.Nodup) :
    exists factory : BackendFactory, Agrees answers factory 0 questions := by
  refine ⟨fun config v => answers (questions.idxOf (config, v)) config v, ?_⟩
  intro i config v hi
  rcases List.getElem?_eq_some_iff.1 hi with ⟨hlt, hget⟩
  have hplace : questions.idxOf (config, v) = i := by
    rw [← hget]
    exact h.idxOf_getElem i hlt
  simp only [hplace, Nat.zero_add]

theorem version_congr {other : BackendFactory} {config : ModelConfig}
    {kept? : Int -> Option LoadedModel} {v : Int}
    (h : kept? v = none -> factory config v = other config v) (next : Nat) :
    version factory config kept? next v = version other config kept? next v := by
  unfold version
  cases hkept : kept? v with
  | some model => rfl
  | none => simp only [h hkept]

theorem creations_version_of_none {config : ModelConfig} {kept? : Int -> Option LoadedModel}
    {v : Int} (h : kept? v = none) (next : Nat) :
    creations (version factory config kept? next v).actions = [(config, v)] := by
  unfold version
  simp only [h]
  cases (factory config v).result <;> rfl

theorem versionsInTurn_eq {config : ModelConfig} {kept? : Int -> Option LoadedModel}
    {vs : List Int} {next : Nat}
    (h : Agrees answers factory asked
      (creations (versions factory config kept? next vs).actions)) :
    versionsInTurn answers config kept? asked next vs = versions factory config kept? next vs := by
  induction vs generalizing asked next with
  | nil => rfl
  | cons v rest ih =>
      have hsplit : Agrees answers factory asked
          (creations (version factory config kept? next v).actions ++
            creations (versions factory config kept?
              (version factory config kept? next v).next rest).actions) := by
        rw [← creations_append]
        exact h
      have hfirst : version factory config kept? next v =
          version (answers asked) config kept? next v := by
        apply version_congr
        intro hnone
        apply hsplit.left 0 config v
        rw [creations_version_of_none hnone]
        rfl
      unfold versionsInTurn versions
      simp only [← hfirst, ih hsplit.right]

theorem modelInTurn_eq {strict : Bool} {m : RepositoryModel} {old : Option ModelEntry} {next : Nat}
    (h : Agrees answers factory asked (creations (model factory strict m old next).actions)) :
    modelInTurn answers strict m old asked next = model factory strict m old next := by
  unfold model at h ⊢
  unfold modelInTurn
  cases hvalid : m.config.validate strict with
  | error cause => rfl
  | ok checked =>
      rw [hvalid] at h
      have hversions : creations (valid factory m old next).actions =
          creations (versions factory m.config
            (keptFrom (old.filter fun entry => entry.config = m.config)) next
            (listed m)).actions := by
        rw [creations_valid, creations_versions]
      simp only [hversions] at h
      exact congrArg (assemble m old) (versionsInTurn_eq h)

theorem modelsInTurn_eq {strict : Bool} {scan : List RepositoryModel} {previous table : ModelTable}
    {next : Nat} (h : Agrees answers factory asked
      (creations (models factory strict previous table next scan).actions)) :
    modelsInTurn answers strict previous table asked next scan =
      models factory strict previous table next scan := by
  induction scan generalizing previous table asked next with
  | nil => rfl
  | cons m rest ih =>
      have hsplit := h
      unfold models at hsplit
      simp only at hsplit
      rw [creations_append] at hsplit
      unfold modelsInTurn models
      simp only [modelInTurn_eq hsplit.left, ih hsplit.right]

theorem creations_model_congr (factory other : BackendFactory) (strict : Bool)
    (m : RepositoryModel) (old : Option ModelEntry) (next : Nat) :
    creations (model factory strict m old next).actions =
      creations (model other strict m old next).actions := by
  unfold model
  split
  · rfl
  · rw [creations_valid, creations_valid]

theorem creations_reconcile_congr (factory other : BackendFactory) (strict : Bool)
    {scan : List RepositoryModel} (h : (scan.map fun m => m.config.name).Nodup)
    (table : ModelTable) (next : Nat) :
    creations (table.reconcile factory strict next scan).actions =
      creations (table.reconcile other strict next scan).actions := by
  rw [creations_reconcile h, creations_reconcile h]
  congr 1
  funext m
  exact creations_model_congr factory other strict m _ 0

end Reconcile

/-!
# Tables

A factory that does not change may be asked in turn, too.
-/

/-- Turns a table into the one that a scan asks for, with answers in turn. -/
def ModelTable.reconcileInTurn (answers : BackendAnswers) (strict : Bool) (table : ModelTable)
    (next : Nat) (scan : List RepositoryModel) : Outcome ModelTable :=
  Reconcile.complete (Reconcile.modelsInTurn answers strict table .empty 0 next scan)

theorem Reconcile.creations_complete (result : Outcome (ModelTable × ModelTable)) :
    creations (complete result).actions = creations result.actions := by
  unfold complete removed
  simp only
  rw [creations_append, creations_append, creations_reports, List.append_nil]
  exact List.append_nil _

theorem ModelTable.reconcileInTurn_const (factory : BackendFactory) (strict : Bool)
    (table : ModelTable) (next : Nat) (scan : List RepositoryModel) :
    table.reconcileInTurn (fun _ => factory) strict next scan =
      table.reconcile factory strict next scan := by
  unfold reconcileInTurn reconcile
  exact congrArg Reconcile.complete (Reconcile.modelsInTurn_eq fun _ _ _ _ => rfl)

/-- If a scan lists no model twice, answers in turn are those of a factory that does not change. -/
theorem ModelTable.exists_reconcile_eq (answers : BackendAnswers) (strict : Bool)
    (table : ModelTable) (next : Nat) {scan : List RepositoryModel}
    (h : (scan.map fun m => m.config.name).Nodup) :
    exists factory : BackendFactory,
      table.reconcileInTurn answers strict next scan = table.reconcile factory strict next scan ∧
      Reconcile.Agrees answers factory 0
        (Reconcile.creations (table.reconcile factory strict next scan).actions) := by
  have hnodup : (Reconcile.creations (table.reconcile .absent strict next scan).actions).Nodup :=
    Reconcile.nodup_creations_reconcile h table next
  rcases Reconcile.exists_agrees answers hnodup with ⟨factory, hagrees⟩
  rw [Reconcile.creations_reconcile_congr .absent factory strict h] at hagrees
  refine ⟨factory, ?_, hagrees⟩
  unfold reconcile at hagrees
  rw [Reconcile.creations_complete] at hagrees
  unfold reconcileInTurn reconcile
  rw [Reconcile.modelsInTurn_eq hagrees]

/-!
# Engines
-/

namespace Engine

def performInTurn (answers : BackendAnswers) (polled : Option Nat) (asked : Nat) (e : Engine) :
    List LoadAction -> Engine
  | [] => e
  | action :: rest =>
    performInTurn answers polled (asked + (Reconcile.creations [action]).length)
      (perform (some (answers asked)) polled e action) rest

/-- Reconciles a table with the models of a repository, with answers in turn. -/
def reconcileInTurn (e : Engine) (answers : BackendAnswers) (polled : Option Nat)
    (options : ServerOptions) (table : ModelTable) (models : List RepositoryModel) :
    ModelTable × ReconcileReport × Engine :=
  let outcome := table.reconcileInTurn answers options.strictModelConfig e.stats.length models
  (outcome.value, outcome.report,
    (performInTurn answers polled 0 e outcome.actions).addStats outcome.next)

theorem perform_congr {factory other : BackendFactory} {action : LoadAction}
    (h : forall (config : ModelConfig) (v : Int), action = .create config v ->
      factory config v = other config v) (polled : Option Nat) (e : Engine) :
    perform (some factory) polled e action = perform (some other) polled e action := by
  cases action with
  | report event => rfl
  | create config v =>
      unfold perform
      simp only [h config v rfl]

theorem performInTurn_eq {answers : BackendAnswers} {factory : BackendFactory} {asked : Nat}
    {actions : List LoadAction}
    (h : Reconcile.Agrees answers factory asked (Reconcile.creations actions))
    (polled : Option Nat) (e : Engine) :
    performInTurn answers polled asked e actions =
      actions.foldl (perform (some factory) polled) e := by
  induction actions generalizing asked e with
  | nil => rfl
  | cons action rest ih =>
      have hsplit : Reconcile.Agrees answers factory asked
          (Reconcile.creations [action] ++ Reconcile.creations rest) := by
        rw [← Reconcile.creations_append]
        exact h
      have hfirst : perform (some (answers asked)) polled e action =
          perform (some factory) polled e action := by
        apply perform_congr
        rintro config v rfl
        exact (hsplit.left 0 config v rfl).symm
      unfold performInTurn
      rw [ih hsplit.right, hfirst]
      rfl

/-- A factory that changes its answers while models are loaded does what one does that answers
always alike, as long as no model is listed twice. -/
theorem exists_reconcile_eq (e : Engine) (answers : BackendAnswers) (polled : Option Nat)
    (options : ServerOptions) (table : ModelTable) {models : List RepositoryModel}
    (h : (models.map fun m => m.config.name).Nodup) :
    exists factory : BackendFactory,
      e.reconcileInTurn answers polled options table models =
        e.reconcile (some factory) polled options table models := by
  rcases ModelTable.exists_reconcile_eq answers options.strictModelConfig table e.stats.length h
    with ⟨factory, hsame, hagrees⟩
  refine ⟨factory, ?_⟩
  unfold reconcileInTurn reconcile
  simp only [Option.getD_some, hsame, performInTurn_eq hagrees]

end Engine

end InferenceEngine
