import InferenceEngine.Proofs.Requests.Making

/-!
# The history of a provider

Where an input takes its bytes from is told by the changes that have succeeded since everything
was last taken away: from the range that it was bound to last, and else from the buffers that were
appended to it, in the order in which they were.
-/

namespace InferenceEngine

namespace Provider

def made (p : Provider) : List Edit -> List Edit
  | [] => []
  | change :: rest =>
      match p.attempt change with
      | .ok changed => change :: changed.made rest
      | .error _ => p.made rest

def keep (kept : List Edit) : Edit -> List Edit
  | .reset => []
  | change => kept ++ [change]

/-- The changes since everything was last taken away. -/
def sinceReset (changes : List Edit) : List Edit := changes.foldl keep []

def appended (name : String) (changes : List Edit) : List Bytes :=
  changes.filterMap fun
    | .append input data => if input = name then some data else none
    | _ => none

/-- The range that an input is bound to last. -/
def bound? (name : String) (changes : List Edit) : Option HandleRange :=
  (changes.filterMap fun
    | .bindInput input range => if input = name then some range else none
    | _ => none).getLast?

def Edit.input? : Edit -> Option String
  | .append input _ | .bindInput input _ => some input
  | _ => none

/-- Where an input takes its bytes from after changes none of which takes anything away. -/
def sourceOf (name : String) (changes : List Edit) : InputSource :=
  match bound? name changes with
  | some range => .shared range
  | none => .buffers (appended name changes)

/-!
# One more change

A provider that has just been made has not been given anything.
-/

theorem bound?_append (name input : String) (data : Bytes) (changes : List Edit) :
    bound? name (changes ++ [.append input data]) = bound? name changes := by
  simp [bound?, List.filterMap_append]

theorem appended_bindInput (name input : String) (range : HandleRange) (changes : List Edit) :
    appended name (changes ++ [.bindInput input range]) = appended name changes := by
  simp [appended, List.filterMap_append]

theorem sourceOf_eq_buffers {name : String} {changes : List Edit} {bs : List Bytes}
    (h : sourceOf name changes = .buffers bs) :
    bound? name changes = none ∧ appended name changes = bs := by
  unfold sourceOf at h
  cases hbound : bound? name changes with
  | none =>
      rw [hbound] at h
      exact ⟨rfl, InputSource.buffers.inj h⟩
  | some range =>
      rw [hbound] at h
      cases h

theorem sourceOf_append_self {name : String} {changes : List Edit} {bs : List Bytes}
    (h : sourceOf name changes = .buffers bs) (data : Bytes) :
    sourceOf name (changes ++ [.append name data]) = .buffers (bs ++ [data]) := by
  rcases sourceOf_eq_buffers h with ⟨hbound, happended⟩
  unfold sourceOf
  rw [bound?_append, hbound, ← happended]
  simp [appended]

theorem sourceOf_bindInput_self (name : String) (changes : List Edit) (range : HandleRange) :
    sourceOf name (changes ++ [.bindInput name range]) = .shared range := by
  simp [sourceOf, bound?, List.filterMap_append]

theorem bound?_other {name : String} {change : Edit} (h : change.input? ≠ some name)
    (changes : List Edit) : bound? name (changes ++ [change]) = bound? name changes := by
  cases change with
  | append input data => exact bound?_append name input data changes
  | bindInput input range =>
      have hinput : input ≠ name := fun hsame => h (congrArg some hsame)
      simp [bound?, List.filterMap_append, hinput]
  | bindOutput output range => simp [bound?, List.filterMap_append]
  | reset => simp [bound?, List.filterMap_append]

theorem appended_other {name : String} {change : Edit} (h : change.input? ≠ some name)
    (changes : List Edit) : appended name (changes ++ [change]) = appended name changes := by
  cases change with
  | append input data =>
      have hinput : input ≠ name := fun hsame => h (congrArg some hsame)
      simp [appended, List.filterMap_append, hinput]
  | bindInput input range => exact appended_bindInput name input range changes
  | bindOutput output range => simp [appended, List.filterMap_append]
  | reset => simp [appended, List.filterMap_append]

theorem sourceOf_other {name : String} {change : Edit} (h : change.input? ≠ some name)
    (changes : List Edit) : sourceOf name (changes ++ [change]) = sourceOf name changes := by
  unfold sourceOf
  rw [bound?_other h, appended_other h]

/-- Whether the inputs of a provider are as certain changes have left them. -/
def Remembers (p : Provider) (changes : List Edit) : Prop :=
  forall (name : String) (b : InputBinding), p.inputs.get? name = some b ->
    b.source = sourceOf name changes

theorem Remembers.setSource {p : Provider} {changes : List Edit} (h : p.Remembers changes)
    {name : String} {binding : InputBinding} {source : InputSource} {change : Edit}
    (hsource : sourceOf name (changes ++ [change]) = source)
    (hother : forall other : String, other ≠ name ->
      sourceOf other (changes ++ [change]) = sourceOf other changes) :
    (p.setSource name binding source).Remembers (changes ++ [change]) := by
  intro other b hb
  unfold Provider.setSource at hb
  by_cases hname : other = name
  · rw [hname] at hb ⊢
    simp only [OrderedMap.get?_insert_self, Option.some.injEq] at hb
    rw [hsource, ← hb]
  · simp only [OrderedMap.get?_insert_of_ne hname] at hb
    rw [hother other hname]
    exact h other b hb

theorem Remembers.attempt {p q : Provider} {changes : List Edit} (h : p.Remembers changes)
    {change : Edit} (hq : p.attempt change = .ok q) : q.Remembers (keep changes change) := by
  cases change with
  | append name data =>
      rcases append_eq_ok hq with ⟨binding, bs, hbinding, hbs, rfl⟩
      have hbefore : sourceOf name changes = .buffers bs := by
        rw [← h name binding hbinding, hbs]
      apply h.setSource (sourceOf_append_self hbefore data)
      intro other hother
      apply sourceOf_other
      intro hsame
      exact hother (Option.some.inj hsame).symm
  | bindInput name range =>
      rcases bindInputRange_eq_ok hq with ⟨binding, hbinding, _, rfl⟩
      apply h.setSource (sourceOf_bindInput_self name changes range)
      intro other hother
      apply sourceOf_other
      intro hsame
      exact hother (Option.some.inj hsame).symm
  | bindOutput name range =>
      rw [bindOutputRange_eq_ok hq]
      intro other b hb
      show b.source = sourceOf other (changes ++ [.bindOutput name range])
      rw [sourceOf_other (fun hsame => by cases hsame)]
      exact h other b hb
  | reset =>
      cases hq
      intro name b hb
      unfold reset at hb
      simp only [OrderedMap.get?_map, Option.map_eq_some_iff] at hb
      rcases hb with ⟨_, _, rfl⟩
      rfl

/-- What each change that succeeds keeps, of the provider and the changes that count, is kept by
changes in order. -/
theorem kept_induct {P : Provider -> List Edit -> Prop}
    (hstep : forall (p q : Provider) (kept : List Edit) (change : Edit), P p kept ->
      p.attempt change = .ok q -> P q (keep kept change))
    {p : Provider} {kept : List Edit} (hp : P p kept) (changes : List Edit) :
    P (p.edited changes) ((p.made changes).foldl keep kept) := by
  induction changes generalizing p kept with
  | nil => exact hp
  | cons change rest ih =>
      show P ((p.edit change).edited rest) _
      unfold made edit
      cases hattempt : p.attempt change with
      | ok q => exact ih (hstep p q kept change hp hattempt)
      | error failure => exact ih hp

/-- The source of an input is what has been done to it since everything was last taken away. -/
theorem Remembers.edited {p : Provider} {kept : List Edit} (h : p.Remembers kept)
    (changes : List Edit) : (p.edited changes).Remembers ((p.made changes).foldl keep kept) :=
  kept_induct (fun _ _ _ _ hp hq => hp.attempt hq) h changes

theorem remembers_of_new {server : Nat} {table : ModelTable} {name : String}
    {choice : VersionChoice} {header : RequestHeader} {p : Provider}
    (h : Provider.new server table name choice header = .ok p) : p.Remembers [] := by
  unfold Provider.new at h
  rcases bind_eq_ok h with ⟨model, _, hrest⟩
  rcases bind_eq_ok hrest with ⟨_, _, hrest⟩
  rcases bind_eq_ok hrest with ⟨inputs, hinputs, hrest⟩
  rcases bind_eq_ok hrest with ⟨outputs, _, hprovider⟩
  cases hprovider
  intro input b hb
  rcases List.mem_map.1 (OrderedMap.mem_values_ofList (OrderedMap.mem_values_of_get? hb)) with
    ⟨entry, hentry, rfl⟩
  rcases mem_of_mapM hinputs hentry with ⟨spec, _, hspec⟩
  unfold bindInput at hspec
  rcases bind_eq_ok hspec with ⟨size, _, hbinding⟩
  cases hbinding
  rfl

end Provider

end InferenceEngine
