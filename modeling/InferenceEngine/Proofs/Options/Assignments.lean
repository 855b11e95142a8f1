import InferenceEngine.Options.Load

/-!
# Assignments to parts of a tree of settings

A variable assigns a text to the part of a tree that its path leads to.  What stands under a key of
the tree after some assignments has been there before, or comes from those assignments whose paths
lead through the key.  Of several that name the same part the last one counts.
-/

namespace InferenceEngine

namespace Setting

/-!
# Tables

The first step of a path that a key spells leads under a name.
-/

theorem lookup_put_self (key : String) (value : Setting) (entries : List (String × Setting)) :
    lookup key (put key value entries) = some value := by
  induction entries with
  | nil => simp [put, lookup]
  | cons e rest ih =>
      obtain ⟨k, v⟩ := e
      by_cases hk : k = key
      · simp [put, lookup, hk]
      · simpa [put, lookup, hk] using ih

theorem lookup_put_of_ne {key other : String} (h : other ≠ key) (value : Setting)
    (entries : List (String × Setting)) :
    lookup other (put key value entries) = lookup other entries := by
  induction entries with
  | nil => simp [put, lookup, h.symm]
  | cons e rest ih =>
      obtain ⟨k, v⟩ := e
      by_cases hk : k = key
      · subst hk
        simp [put, lookup, h.symm]
      · by_cases hother : k = other
        · subst hother
          simp [put, lookup, hk]
        · simpa [put, lookup, hk, hother] using ih

theorem path_eq_child (key : String) :
    exists (name : String) (rest : List Step), path key = .child name :: rest := by
  unfold path
  dsimp only
  split
  · exact ⟨_, _, rfl⟩
  · split
    · exact ⟨_, _, rfl⟩
    · exact ⟨_, _, rfl⟩

theorem assign_isTable (root : Setting) (key : String) (value : Setting) :
    exists entries : List (String × Setting), assign root key value = .table entries := by
  unfold assign
  split
  · exact ⟨_, rfl⟩
  · exact ⟨_, rfl⟩

theorem assignAt_isTable (value root : Setting) (name : String) (rest : List Step) :
    exists entries : List (String × Setting),
      assignAt value root (.child name :: rest) = .table entries := by
  cases rest with
  | nil =>
      rw [assignAt]
      exact assign_isTable root name value
  | cons next rest => exact ⟨_, by rw [assignAt]⟩

theorem merge_isTable (base source : List (String × Setting)) :
    exists entries : List (String × Setting), merge (.table base) source = .table entries := by
  rcases List.eq_nil_or_concat source with rfl | ⟨before, e, rfl⟩
  · exact ⟨base, rfl⟩
  · rcases path_eq_child e.1 with ⟨name, rest, hpath⟩
    unfold merge
    rw [List.concat_eq_append, List.foldl_append, List.foldl_cons, List.foldl_nil, hpath]
    exact assignAt_isTable ..

/-!
# Plain sources

A setting with distinct keys comes to stand as it is under a new key.
-/

mutual

/-- Whether the keys are distinct in a table and in the tables under its keys. -/
def HasDistinctKeys : Setting -> Prop
  | .table entries => (entries.map Prod.fst).Nodup ∧ HaveDistinctKeys entries
  | _ => True

/-- Whether the keys are distinct in all tables under the keys of some entries. -/
def HaveDistinctKeys : List (String × Setting) -> Prop
  | [] => True
  | (_, value) :: rest => HasDistinctKeys value ∧ HaveDistinctKeys rest

end

/-- Whether a source has distinct keys in each table, and names for keys at its top. -/
def IsPlain (source : List (String × Setting)) : Prop :=
  HasDistinctKeys (.table source) ∧
    forall e : String × Setting, e ∈ source -> path e.1 = [.child e.1]

theorem lookup_eq_none {key : String} {entries : List (String × Setting)}
    (h : key ∉ entries.map Prod.fst) : lookup key entries = none := by
  unfold lookup
  rw [Option.map_eq_none_iff, List.find?_eq_none]
  intro e he heq
  exact h (List.mem_map.2 ⟨e, he, by simpa using heq⟩)

theorem put_of_new {key : String} {entries : List (String × Setting)}
    (h : key ∉ entries.map Prod.fst) (value : Setting) :
    put key value entries = entries ++ [(key, value)] := by
  induction entries with
  | nil => rfl
  | cons e rest ih =>
      obtain ⟨k, v⟩ := e
      simp only [List.map_cons, List.mem_cons, not_or] at h
      simp [put, Ne.symm h.1, ih h.2]

mutual

theorem assign_of_new {entries : List (String × Setting)} {key : String} {value : Setting}
    (hnew : key ∉ entries.map Prod.fst) (h : HasDistinctKeys value) :
    assign (.table entries) key value = .table (entries ++ [(key, value)]) := by
  match value, h with
  | .table incoming, h =>
      rw [HasDistinctKeys] at h
      rw [assign, Setting.entries, lookup_eq_none hnew, Option.getD_none,
        assignAll_of_new [] (by simpa using h.1) h.2, put_of_new hnew]
      rfl
  | .missing, _ | .bool _, _ | .integer _, _ | .real _, _ | .text _, _ | .list _, _ =>
      rw [assign, Setting.entries, put_of_new hnew]
      rintro _ ⟨⟩

theorem assignAll_of_new (entries : List (String × Setting)) {incoming : List (String × Setting)}
    (hnodup : ((entries ++ incoming).map Prod.fst).Nodup) (h : HaveDistinctKeys incoming) :
    assignAll (.table entries) incoming = .table (entries ++ incoming) := by
  match incoming, hnodup, h with
  | [], _, _ => rw [assignAll, List.append_nil]
  | (key, value) :: rest, hnodup, h =>
      rw [HaveDistinctKeys] at h
      have hnew : key ∉ entries.map Prod.fst := by
        simp only [List.map_append, List.map_cons, List.nodup_append] at hnodup
        intro hmem
        exact hnodup.2.2 key hmem key (by simp) rfl
      rw [assignAll, assign_of_new hnew h.1,
        assignAll_of_new (entries ++ [(key, value)]) (by simpa using hnodup) h.2,
        List.append_assoc]
      rfl

end

theorem merge_eq_assignAll {source : List (String × Setting)}
    (hpaths : forall e : String × Setting, e ∈ source -> path e.1 = [.child e.1]) (root : Setting) :
    merge root source = assignAll root source := by
  induction source generalizing root with
  | nil =>
      rw [assignAll]
      rfl
  | cons e rest ih =>
      obtain ⟨key, value⟩ := e
      have hkey : path key = [.child key] := hpaths (key, value) List.mem_cons_self
      rw [assignAll, ← ih fun e he => hpaths e (List.mem_cons_of_mem _ he)]
      simp [merge, hkey, assignAt]

theorem IsPlain.merge {source : List (String × Setting)} (h : IsPlain source) :
    merge (.table []) source = .table source := by
  obtain ⟨hkeys, hpaths⟩ := h
  rw [HasDistinctKeys] at hkeys
  rw [merge_eq_assignAll hpaths]
  exact assignAll_of_new [] (by simpa using hkeys.1) hkeys.2

theorem IsPlain.overruns {source : List (String × Setting)} (h : IsPlain source) (root : Setting) :
    root.overruns source = false := by
  replace h := h.2
  induction source generalizing root with
  | nil => rfl
  | cons e rest ih =>
      rw [Setting.overruns, h e List.mem_cons_self,
        ih _ fun e he => h e (List.mem_cons_of_mem _ he)]
      rfl

end Setting

namespace Options

open Setting

structure Assignment where
  path : List Step
  text : String
  deriving DecidableEq

/-- The assignments that the variables of an environment make, in order. -/
def assigned (environment : List (String × String)) : List Assignment :=
  environment.filterMap fun v => (variableKey? v.1).map fun key => ⟨path key, v.2⟩

/-- The text that counts for a part: the last one that is assigned to it. -/
def text? (path : List Step) (as : List Assignment) : Option String :=
  (as.filterMap fun a => if a.path = path then some a.text else none).getLast?

/-- An assignment to a part behind a path, as it is seen from there. -/
def Assignment.behind? (path : List Step) (a : Assignment) : Option Assignment :=
  if path <+: a.path then some ⟨a.path.drop path.length, a.text⟩ else none

/-- The assignments to the parts behind a path, as they are seen from there. -/
def behind (path : List Step) (as : List Assignment) : List Assignment :=
  as.filterMap (Assignment.behind? path)

def Assignment.onto (a : Assignment) (part : Option Setting) : Setting :=
  match a.path with
  | [] => .text a.text
  | path => assignAt (.text a.text) (part.getD .missing) path

def settle (part : Option Setting) (as : List Assignment) : Option Setting :=
  as.foldl (fun part a => some (a.onto part)) part

variable {as as' : List Assignment} {part : Option Setting} {path : List Step}

/-!
# Paths

A text counts for a part just as it does seen from a part before it.
-/

theorem Assignment.behind?_eq_some_iff {a : Assignment} {rest : List Step} {text : String} :
    a.behind? path = some ⟨rest, text⟩ ↔ a = ⟨path ++ rest, text⟩ := by
  obtain ⟨whole, text'⟩ := a
  unfold behind?
  constructor
  · intro h
    split at h
    · rename_i hpath
      obtain ⟨tail, rfl⟩ := hpath
      cases h
      simp
    · cases h
  · rintro ⟨⟩
    simp

theorem mem_behind {rest : List Step} {text : String} :
    (⟨rest, text⟩ : Assignment) ∈ behind path as ↔ ⟨path ++ rest, text⟩ ∈ as := by
  simp [behind, List.mem_filterMap, Assignment.behind?_eq_some_iff]

theorem behind_cons (key name : String) (rest : List Step) (text : String)
    (as : List Assignment) :
    behind [.child name] (⟨.child key :: rest, text⟩ :: as) =
      if key = name then ⟨rest, text⟩ :: behind [.child name] as
      else behind [.child name] as := by
  by_cases hname : key = name
  · simp [behind, Assignment.behind?, hname]
  · have hprefix : ¬ ([.child name] <+: .child key :: rest) := by
      rintro ⟨tail, heq⟩
      cases heq
      exact hname rfl
    simp [behind, Assignment.behind?, hprefix, hname]

theorem behind_behind (path rest : List Step) (as : List Assignment) :
    behind rest (behind path as) = behind (path ++ rest) as := by
  unfold behind
  rw [List.filterMap_filterMap]
  congr 1
  funext a
  ext ⟨last, text⟩
  simp only [Option.bind_eq_some_iff, Assignment.behind?_eq_some_iff, List.append_assoc]
  constructor
  · rintro ⟨_, ha, rfl⟩
    exact Assignment.behind?_eq_some_iff.1 ha
  · rintro rfl
    exact ⟨_, Assignment.behind?_eq_some_iff.2 rfl, rfl⟩

theorem text?_behind (path rest : List Step) (as : List Assignment) :
    text? rest (behind path as) = text? (path ++ rest) as := by
  unfold text? behind
  rw [List.filterMap_filterMap]
  congr 2
  funext ⟨whole, last⟩
  by_cases hpath : path <+: whole
  · obtain ⟨tail, rfl⟩ := hpath
    simp [Assignment.behind?]
  · have hne : whole ≠ path ++ rest := fun heq => hpath (heq ▸ List.prefix_append path rest)
    simp [Assignment.behind?, hpath, hne]

theorem text?_concat_self (before : List Assignment) (path : List Step) (text : String) :
    text? path (before ++ [⟨path, text⟩]) = some text := by
  simp [text?]

/-!
# Assigning

What stands under a name comes from the assignments behind it.
-/

/-- An assignment behind a name changes what stands under that name, and makes a table of a tree
that is none. -/
theorem Assignment.onto_child (name : String) (rest : List Step) (text : String)
    (part : Option Setting) :
    (Assignment.mk (.child name :: rest) text).onto part =
      .table (put name ((Assignment.mk rest text).onto (lookup name (part.getD .missing).entries))
        (part.getD .missing).entries) := by
  cases rest with
  | nil =>
      simp only [Assignment.onto]
      rw [assignAt, assign]
      rintro incoming ⟨⟩
  | cons next rest =>
      simp only [Assignment.onto]
      rw [assignAt]

theorem settle_assigned (root : Setting) (environment : List (String × String)) :
    settle (some root) (assigned environment) =
      some (merge root (variableSettings environment)) := by
  unfold assigned variableSettings
  induction environment generalizing root with
  | nil => rfl
  | cons v environment ih =>
      cases hkey : variableKey? v.1 with
      | none => simpa [hkey] using ih root
      | some key =>
          obtain ⟨name, rest, hpath⟩ := path_eq_child key
          simp only [List.filterMap_cons, hkey, Option.map_some]
          unfold settle merge
          simp only [List.foldl_cons, hpath, Assignment.onto, Option.getD_some]
          exact ih _

theorem lookup_settle
    (hchild : forall a : Assignment, a ∈ as ->
      exists (key : String) (rest : List Step), a.path = .child key :: rest)
    (name : String) (part : Option Setting) :
    lookup name ((settle part as).getD .missing).entries =
      settle (lookup name (part.getD .missing).entries) (behind [.child name] as) := by
  induction as generalizing part with
  | nil => rfl
  | cons a as ih =>
      obtain ⟨key, rest, hpath⟩ := hchild a List.mem_cons_self
      obtain ⟨path, text⟩ := a
      subst hpath
      have hrest := ih (fun a ha => hchild a (List.mem_cons_of_mem _ ha))
        (some ((Assignment.mk (.child key :: rest) text).onto part))
      refine Eq.trans hrest ?_
      rw [Option.getD_some, Assignment.onto_child, behind_cons]
      by_cases hname : key = name
      · subst hname
        rw [if_pos rfl, Setting.entries, lookup_put_self]
        rfl
      · rw [if_neg hname, Setting.entries, lookup_put_of_ne (Ne.symm hname)]

theorem settle_isTable
    (hchild : forall a : Assignment, a ∈ as ->
      exists (key : String) (rest : List Step), a.path = .child key :: rest)
    (hne : as ≠ []) :
    exists entries : List (String × Setting), settle part as = some (.table entries) := by
  rcases List.eq_nil_or_concat as with hnil | ⟨before, ⟨path, text⟩, rfl⟩
  · exact absurd hnil hne
  · obtain ⟨key, rest, hpath⟩ := hchild ⟨path, text⟩ (by simp)
    subst hpath
    unfold settle
    rw [List.concat_eq_append, List.foldl_append, List.foldl_cons, List.foldl_nil,
      Assignment.onto_child]
    exact ⟨_, rfl⟩

/-- Where no index leads into a part, it is the last text that is assigned to it, what it has been
if nothing is assigned to it, or else a table. -/
theorem settle_eq_or_isTable
    (hitem : forall a : Assignment, a ∈ as ->
      forall (index : Int) (rest : List Step), a.path ≠ .item index :: rest) :
    settle part as = ((text? [] as).map .text).or part ∨
      exists entries : List (String × Setting), settle part as = some (.table entries) := by
  rcases List.eq_nil_or_concat as with rfl | ⟨before, ⟨path, text⟩, rfl⟩
  · exact .inl rfl
  · rw [List.concat_eq_append] at hitem ⊢
    unfold settle
    rw [List.foldl_append, List.foldl_cons, List.foldl_nil]
    cases path with
    | nil =>
        left
        rw [text?_concat_self]
        rfl
    | cons step rest =>
        cases step with
        | child key =>
            right
            rw [Assignment.onto_child]
            exact ⟨_, rfl⟩
        | item index =>
            exact absurd rfl (hitem ⟨.item index :: rest, text⟩ (by simp) index rest)

/-!
# Assignments that differ at one path

Assignments that differ at a part elsewhere are the same behind a path.
-/

/-- Whether two rows of assignments are equal but for those to one path. -/
def SameApartFrom (path : List Step) (as as' : List Assignment) : Prop :=
  (as.filter fun a => a.path ≠ path) = as'.filter fun a => a.path ≠ path

theorem text?_filter {other : List Step} (h : other ≠ path) (as : List Assignment) :
    text? other (as.filter fun a => a.path ≠ path) = text? other as := by
  unfold text?
  rw [List.filterMap_filter]
  congr 2
  funext a
  by_cases ha : a.path = path
  · simp [ha, h.symm]
  · simp [ha]

theorem SameApartFrom.text? {other : List Step} (h : SameApartFrom path as as')
    (hother : other ≠ path) : text? other as = text? other as' := by
  rw [← text?_filter hother as, ← text?_filter hother as', h]

theorem SameApartFrom.behind {other : List Step} (h : SameApartFrom path as as')
    (hother : ¬ other <+: path) : behind other as = behind other as' := by
  have hfilter : forall as : List Assignment,
      Options.behind other (as.filter fun a => a.path ≠ path) = Options.behind other as := by
    intro as
    unfold Options.behind
    rw [List.filterMap_filter]
    congr 1
    funext a
    by_cases ha : a.path = path
    · simp [Assignment.behind?, ha, hother]
    · simp [ha]
  rw [← hfilter as, ← hfilter as', h]

end Options

end InferenceEngine
