import Mathlib
import InferenceEngine.Proofs.Options.Assignments

/-!
# Options and their sources

Each option stands in the tree of settings under a name of its own, at the top or in one of the
tables for memory and logging.  Its value is the text of its variable, converted, if that is set;
else what the file gives, converted; else the default.  Two things stand outside this rule.  A table
may also be written as a list of its values in order, and such a list gives way as a whole as soon
as a variable is set for a key of the table.  And the name of a variable may spell an index, which
makes a list of the part that it leads into.
-/

namespace InferenceEngine

namespace Options

open Setting (Step lookup nullable? word?)

/-!
# Options that hold one value
-/

/-- An option that holds one value: the table and the name under which its setting stands, its place
among the values of that table, the conversion of its setting, and its value among the options. -/
structure Leaf where
  Value : Type
  table : Option String
  name : String
  place : Nat
  convert : Setting -> Option Value
  value : ServerOptions -> Value

def leaves : List Leaf := [
  ⟨String, none, "server_id", 0, Setting.text?, ServerOptions.serverId⟩,
  ⟨Bool, none, "strict_model_config", 1, Setting.bool?, ServerOptions.strictModelConfig⟩,
  ⟨Bool, none, "strict_readiness", 2, Setting.bool?, ServerOptions.strictReadiness⟩,
  ⟨Bool, none, "exit_on_error", 3, Setting.bool?, ServerOptions.exitOnError⟩,
  ⟨Nat, none, "exit_timeout_secs", 4, Setting.word?, ServerOptions.exitTimeout⟩,
  ⟨Nat, none, "execution_slots", 5, Setting.word?, ServerOptions.executionSlots⟩,
  ⟨String, none, "shared_memory_dir", 6, Setting.text?, ServerOptions.sharedMemoryDir⟩,
  ⟨Option Nat, some "memory", "host_limit_bytes", 0, Setting.nullable? Setting.word?,
    fun options => options.memory.hostLimit⟩,
  ⟨List AcceleratorPool, some "memory", "accelerators", 1, Setting.list? acceleratorPool?,
    fun options => options.memory.accelerators⟩,
  ⟨String, some "logging", "level", 0, Setting.text?, fun options => options.logging.level⟩,
  ⟨Option String, some "logging", "filter", 1, Setting.nullable? Setting.text?,
    fun options => options.logging.filter⟩]

def tables : List String := ["memory", "logging"]

/-- What a setting gives for a name: the value of that name in a table, or the item in its place in
a list. -/
def field? (name : String) (place : Nat) : Setting -> Option Setting
  | .table entries => lookup name entries
  | .list items => items[place]?
  | _ => none

namespace Leaf

/-- The path to the table of an option, which is empty at the top. -/
def tablePath (leaf : Leaf) : List Step := leaf.table.toList.map .child

def path (leaf : Leaf) : List Step := leaf.tablePath ++ [.child leaf.name]

def variableName (leaf : Leaf) : List Char :=
  variableStart ++ ("__".intercalate (leaf.table.toList ++ [leaf.name])).toList

/-- The part of a tree in which the setting of an option is looked for. -/
def holder? (leaf : Leaf) (tree : Setting) : Option Setting :=
  match leaf.table with
  | none => some tree
  | some table => lookup table tree.entries

def given? (leaf : Leaf) (tree : Setting) : Option Setting :=
  (leaf.holder? tree).bind (field? leaf.name leaf.place)

/-- What a file gives for an option beside the variables.  A list for the table of the option gives
way as a whole to what is assigned to the keys of that table. -/
def kept? (leaf : Leaf) (tree : Setting) (as : List Assignment) : Option Setting :=
  match leaf.holder? tree with
  | some (.list items) => if behind leaf.tablePath as = [] then items[leaf.place]? else none
  | _ => leaf.given? tree

/-- The setting from which an option has its value: the text of its variable, else what the file
gives. -/
def source? (leaf : Leaf) (tree : Setting) (as : List Assignment) : Option Setting :=
  ((text? leaf.path as).map Setting.text).or (leaf.kept? tree as)

end Leaf

/-- Whether the path of an assignment spells an index into the part of a certain path. -/
def IndexesInto (path : List Step) (as : List Assignment) : Prop :=
  exists (a : Assignment) (index : Int) (rest : List Step), a ∈ as ∧
    a.path = path ++ .item index :: rest

/-- No variable is set both for a table and for one of its keys. -/
def SetApart (as : List Assignment) : Prop :=
  forall (table : String), table ∈ tables -> forall (a b : Assignment), a ∈ as -> b ∈ as ->
    a.path = [.child table] -> forall (key : String) (rest : List Step),
      b.path ≠ .child table :: .child key :: rest

/-!
# Conversions

No option that holds one value is converted from a table.
-/

/-- Whether options can be read from a setting by their names or places. -/
def IsComposite (s : Setting) : Prop :=
  (exists entries : List (String × Setting), s = .table entries) ∨
    exists items : List Setting, s = .list items

theorem IsComposite.fields? {s : Setting} (h : IsComposite s) (first second : String) :
    s.fields? [first, second] = some [field? first 0 s, field? second 1 s] := by
  rcases h with ⟨entries, rfl⟩ | ⟨items, rfl⟩
  · rfl
  · rcases items with _ | ⟨a, _ | ⟨b, rest⟩⟩
    · rfl
    · rfl
    · simp [Setting.fields?, field?]

theorem isComposite_of_fields? {s : Setting} {names : List String} {fields : List (Option Setting)}
    (h : s.fields? names = some fields) : IsComposite s := by
  cases s with
  | table entries => exact .inl ⟨entries, rfl⟩
  | list items => exact .inr ⟨items, rfl⟩
  | _ => cases h

/-- A table for two options of which each has a default, whether or not there is a setting for
it. -/
theorem orElse_pair {α β γ : Type} (make : α -> β -> γ) {a : α} {b : β} {first second : String}
    {first? : Setting -> Option α} {second? : Setting -> Option β} {read? : Setting -> Option γ}
    (hread : forall s : Setting, read? s = (s.fields? [first, second]).bind fun
      | [x, y] => (orElse a first? x).bind fun v => (orElse b second? y).bind fun w =>
          some (make v w)
      | _ => none)
    {part : Option Setting} {c : γ} (h : orElse (make a b) read? part = some c) :
    exists (v : α) (w : β), c = make v w ∧
      orElse a first? (part.bind (field? first 0)) = some v ∧
      orElse b second? (part.bind (field? second 1)) = some w ∧
      forall s : Setting, part = some s -> IsComposite s := by
  cases part with
  | none =>
      cases h
      exact ⟨a, b, rfl, rfl, rfl, fun _ hs => by cases hs⟩
  | some s =>
      simp only [orElse, hread, Option.bind_eq_some_iff] at h
      obtain ⟨fields, hfields, h⟩ := h
      have hs := isComposite_of_fields? hfields
      cases (hs.fields? first second).symm.trans hfields
      simp only [Option.bind_eq_some_iff] at h
      obtain ⟨v, hv, w, hw, hc⟩ := h
      cases hc
      exact ⟨v, w, rfl, hv, hw, fun _ heq => Option.some.inj heq ▸ hs⟩

/-- Each option has the value of the setting that is given for it, converted, or its default, and
the tables are such that values can be read from them. -/
theorem options_of_settings {host : Host} {entries : List (String × Setting)}
    {options : ServerOptions} (h : serverOptions? host (.table entries) = some options) :
    (forall leaf : Leaf, leaf ∈ leaves ->
      orElse (leaf.value (.default host)) leaf.convert (leaf.given? (.table entries)) =
        some (leaf.value options)) ∧
    forall table : String, table ∈ tables -> forall s : Setting, lookup table entries = some s ->
      IsComposite s := by
  unfold serverOptions? at h
  simp only [Setting.fields?, List.map_cons, List.map_nil, Option.bind_eq_bind, Option.bind_some,
    Option.bind_eq_some_iff] at h
  obtain ⟨serverId, hserverId, strictModelConfig, hconfig, strictReadiness, hreadiness,
    exitOnError, hexit, exitTimeout, htimeout, executionSlots, hslots, sharedMemoryDir, hdir,
    memory, hmemory, logging, hlogging, hoptions⟩ := h
  cases hoptions
  obtain ⟨_, _, rfl, hhostLimit, haccelerators, hmemory⟩ :=
    orElse_pair MemoryOptions.mk (fun _ => rfl) hmemory
  obtain ⟨_, _, rfl, hlevel, hfilter, hlogging⟩ :=
    orElse_pair LoggingOptions.mk (fun _ => rfl) hlogging
  refine ⟨?_, ?_⟩
  · simp only [leaves, List.forall_mem_cons]
    exact ⟨hserverId, hconfig, hreadiness, hexit, htimeout, hslots, hdir, hhostLimit,
      haccelerators, hlevel, hfilter, fun _ h => by cases h⟩
  · simp only [tables, List.forall_mem_cons]
    exact ⟨hmemory, hlogging, fun _ h => by cases h⟩

theorem convert_table {leaf : Leaf} (h : leaf ∈ leaves) (entries : List (String × Setting)) :
    leaf.convert (.table entries) = none := by
  simp only [leaves, List.mem_cons, List.not_mem_nil, or_false] at h
  rcases h with rfl | rfl | rfl | rfl | rfl | rfl | rfl | rfl | rfl | rfl | rfl <;> rfl

theorem table_mem_tables {leaf : Leaf} (h : leaf ∈ leaves) {table : String}
    (htable : leaf.table = some table) : table ∈ tables := by
  revert htable table
  revert leaf
  decide

/-!
# Merged settings

What a file gives stays if nothing is assigned behind the table of the option.
-/

/-- What is assigned to the keys of a table, where the values of the table can be read and nothing
else is assigned. -/
theorem behind_isChild {as : List Assignment} {table : String} {part : Option Setting}
    (hitem : ¬ IndexesInto [.child table] as)
    (hapart : forall (a b : Assignment), a ∈ as -> b ∈ as -> a.path = [.child table] ->
      forall (key : String) (rest : List Step), b.path ≠ .child table :: .child key :: rest)
    (hcomposite : forall s : Setting, settle part (behind [.child table] as) = some s ->
      IsComposite s) :
    forall a : Assignment, a ∈ behind [.child table] as ->
      exists (key : String) (rest : List Step), a.path = .child key :: rest := by
  rcases List.eq_nil_or_concat (behind [.child table] as) with hnil | ⟨before, last, hconcat⟩
  · rw [hnil]
    simp
  · rw [List.concat_eq_append] at hconcat
    have hlast : last ∈ behind [.child table] as := by simp [hconcat]
    obtain ⟨path, text⟩ := last
    have hkey : exists (key : String) (rest : List Step), path = .child key :: rest := by
      rcases path with _ | ⟨key | index, rest⟩
      · have hs := hcomposite (.text text) (by
          rw [hconcat]
          simp [settle, Assignment.onto])
        rcases hs with ⟨_, hs⟩ | ⟨_, hs⟩ <;> cases hs
      · exact ⟨key, rest, rfl⟩
      · exact absurd ⟨_, index, rest, mem_behind.1 hlast, rfl⟩ hitem
    obtain ⟨key, rest, rfl⟩ := hkey
    rintro ⟨_ | ⟨key' | index, rest'⟩, text'⟩ ha
    · exact absurd rfl (hapart _ _ (mem_behind.1 ha) (mem_behind.1 hlast) rfl key rest)
    · exact ⟨key', rest', rfl⟩
    · exact absurd ⟨_, index, rest', mem_behind.1 ha, rfl⟩ hitem

namespace Leaf

variable {leaf : Leaf} {tree : Setting} {as as' : List Assignment}

theorem tablePath_of_top (h : leaf.table = none) : leaf.tablePath = [] := by
  simp [tablePath, h]

theorem tablePath_of_table {table : String} (h : leaf.table = some table) :
    leaf.tablePath = [.child table] := by
  simp [tablePath, h]

theorem given?_of_top (h : leaf.table = none) (entries : List (String × Setting)) :
    leaf.given? (.table entries) = lookup leaf.name entries := by
  simp [given?, holder?, h, field?]

theorem holder?_of_table {table : String} (h : leaf.table = some table)
    (entries : List (String × Setting)) : leaf.holder? (.table entries) = lookup table entries := by
  simp [holder?, h, Setting.entries]

theorem kept?_of_top (h : leaf.table = none) (entries : List (String × Setting)) :
    leaf.kept? (.table entries) as = lookup leaf.name entries := by
  simp [kept?, holder?, h, given?_of_top]

theorem kept?_of_behind_nil (h : behind leaf.tablePath as = []) :
    leaf.kept? tree as = leaf.given? tree := by
  obtain ⟨part, hpart⟩ : exists part : Option Setting, leaf.holder? tree = part := ⟨_, rfl⟩
  simp only [kept?, given?, hpart, h]
  rcases part with _ | s
  · rfl
  · cases s <;> rfl

/-- Where something is assigned behind the table of an option, only a table of the file counts
besides. -/
theorem kept?_of_behind (h : behind leaf.tablePath as ≠ []) :
    leaf.kept? tree as = lookup leaf.name ((leaf.holder? tree).getD .missing).entries := by
  obtain ⟨part, hpart⟩ : exists part : Option Setting, leaf.holder? tree = part := ⟨_, rfl⟩
  simp only [kept?, given?, hpart, h]
  rcases part with _ | s
  · rfl
  · cases s <;> rfl

/-- What a file gives does not hang on what is assigned, unless it is a list for a table. -/
theorem kept?_congr (hlist : forall items : List Setting, leaf.holder? tree ≠ some (.list items)) :
    leaf.kept? tree as = leaf.kept? tree as' := by
  unfold kept?
  split
  · rename_i items hitems
    exact absurd hitems (hlist items)
  · rfl

end Leaf

/-!
# Loading

The setting that is given for an option in the end is the one of its sources.
-/

theorem assigned_isChild (environment : List (String × String)) (a : Assignment)
    (h : a ∈ assigned environment) :
    exists (key : String) (rest : List Step), a.path = .child key :: rest := by
  obtain ⟨v, _, hv⟩ := List.mem_filterMap.1 h
  obtain ⟨key, _, rfl⟩ := Option.map_eq_some_iff.1 hv
  exact Setting.path_eq_child key

theorem mem_assigned {environment : List (String × String)} {leaf : Leaf} (hleaf : leaf ∈ leaves)
    {name text : String} (h : (name, text) ∈ environment)
    (hname : name.toList.map Char.toLower = leaf.variableName) :
    ⟨leaf.path, text⟩ ∈ assigned environment := by
  have hspells : forall leaf : Leaf, leaf ∈ leaves ->
      variableStart.isPrefixOf leaf.variableName = true ∧
        Setting.path (String.ofList (nested (leaf.variableName.drop variableStart.length))) =
          leaf.path := by decide
  obtain ⟨hstart, hpath⟩ := hspells leaf hleaf
  refine List.mem_filterMap.2 ⟨(name, text), h, ?_⟩
  simp [variableKey?, hname, hstart, hpath]

/-- The variables turn the entries of a file into others, of which options are made. -/
structure Merges (host : Host) (base entries : List (String × Setting))
    (environment : List (String × String)) (options : ServerOptions) : Prop where
  settled : settle (some (.table base)) (assigned environment) = some (.table entries)
  converted : serverOptions? host (.table entries) = some options

theorem loading_eq_loaded_iff {host : Host} {files : List (String × String)} {path : Option String}
    {environment : List (String × String)} {options : ServerOptions} :
    loading files path environment host = .loaded options ↔
      exists file : List (String × Setting), fileEntries? files path = some file ∧
        (Setting.table []).overruns file = false ∧
        (Setting.merge (.table []) file).overruns (variableSettings environment) = false ∧
        serverOptions? host (Setting.merge (Setting.merge (.table []) file)
          (variableSettings environment)) = some options := by
  unfold loading
  cases fileEntries? files path with
  | none => simp
  | some file =>
      cases hfile : (Setting.table []).overruns file with
      | true => simp [hfile]
      | false =>
          cases hvariables : (Setting.merge (.table []) file).overruns
            (variableSettings environment) with
          | true => simp [hvariables]
          | false =>
              cases hoptions : serverOptions? host (Setting.merge (Setting.merge (.table []) file)
                (variableSettings environment)) with
              | none => simp [hfile, hvariables, hoptions]
              | some loaded => simp [hfile, hvariables, hoptions]

theorem load_eq_ok_iff {host : Host} {files : List (String × String)} {path : Option String}
    {environment : List (String × String)} {options : ServerOptions} :
    load files path environment host = .ok options ↔
      exists file : List (String × Setting), fileEntries? files path = some file ∧
        (Setting.table []).overruns file = false ∧
        (Setting.merge (.table []) file).overruns (variableSettings environment) = false ∧
        serverOptions? host (Setting.merge (Setting.merge (.table []) file)
          (variableSettings environment)) = some options := by
  rw [← loading_eq_loaded_iff, load]
  cases loading files path environment host <;> simp [Loading.result]

theorem load_of_isPlain {host : Host} {files : List (String × String)} {path : Option String}
    {environment : List (String × String)} {options : ServerOptions}
    {file : List (String × Setting)} (hfile : fileEntries? files path = some file)
    (hplain : Setting.IsPlain file)
    (hreached : (Setting.table file).overruns (variableSettings environment) = false)
    (hoptions : serverOptions? host (Setting.merge (.table file) (variableSettings environment)) =
      some options) :
    load files path environment host = .ok options := by
  refine load_eq_ok_iff.2 ⟨file, hfile, hplain.overruns _, ?_, ?_⟩
  · rwa [hplain.merge]
  · rwa [hplain.merge]

theorem merges_of_load {host : Host} {files : List (String × String)} {path : Option String}
    {environment : List (String × String)} {options : ServerOptions}
    (h : load files path environment host = .ok options) :
    exists file base entries : List (String × Setting), fileEntries? files path = some file ∧
      Setting.merge (.table []) file = .table base ∧
      Merges host base entries environment options := by
  obtain ⟨file, hfile, _, _, hoptions⟩ := load_eq_ok_iff.1 h
  obtain ⟨base, hbase⟩ := Setting.merge_isTable [] file
  obtain ⟨entries, hentries⟩ := Setting.merge_isTable base (variableSettings environment)
  rw [hbase, hentries] at hoptions
  exact ⟨file, base, entries, hfile, hbase, by rw [settle_assigned, hentries], hoptions⟩

namespace Merges

variable {host : Host} {base entries entries' : List (String × Setting)}
  {environment environment' : List (String × String)} {options options' : ServerOptions}
  {leaf : Leaf}

theorem lookup_eq (h : Merges host base entries environment options) (name : String) :
    lookup name entries =
      settle (lookup name base) (behind [.child name] (assigned environment)) := by
  have hlookup := lookup_settle (assigned_isChild environment) name (some (.table base))
  rwa [h.settled] at hlookup

theorem value_eq (h : Merges host base entries environment options) (hleaf : leaf ∈ leaves) :
    orElse (leaf.value (.default host)) leaf.convert (leaf.given? (.table entries)) =
      some (leaf.value options) :=
  (options_of_settings h.converted).1 leaf hleaf

theorem given?_ne_table (h : Merges host base entries environment options) (hleaf : leaf ∈ leaves)
    (inner : List (String × Setting)) : leaf.given? (.table entries) ≠ some (.table inner) := by
  intro hinner
  have hvalue := h.value_eq hleaf
  rw [hinner, orElse, convert_table hleaf] at hvalue
  cases hvalue

/-- The setting that is given for an option in the end is what comes of the one that the file gives
when the variables are assigned. -/
theorem given?_eq_settle (h : Merges host base entries environment options) (hleaf : leaf ∈ leaves)
    (hindexed : ¬ IndexesInto leaf.tablePath (assigned environment))
    (hapart : SetApart (assigned environment)) :
    leaf.given? (.table entries) =
      settle (leaf.kept? (.table base) (assigned environment))
        (behind leaf.path (assigned environment)) := by
  cases htable : leaf.table with
  | none =>
      rw [Leaf.given?_of_top htable, Leaf.kept?_of_top htable, Leaf.path,
        Leaf.tablePath_of_top htable, List.nil_append, h.lookup_eq]
  | some table =>
      have hpath := Leaf.tablePath_of_table htable
      have hlookup := h.lookup_eq table
      rw [Leaf.path, ← behind_behind, hpath]
      rw [hpath] at hindexed
      by_cases hnil : behind [.child table] (assigned environment) = []
      · rw [Leaf.kept?_of_behind_nil (hpath ▸ hnil), hnil, Leaf.given?, Leaf.given?,
          Leaf.holder?_of_table htable, Leaf.holder?_of_table htable, hlookup, hnil]
        rfl
      · have hmem := table_mem_tables hleaf htable
        have hkeys := behind_isChild hindexed (hapart table hmem) fun s hs =>
          (options_of_settings h.converted).2 table hmem s (hlookup.trans hs)
        obtain ⟨values, hvalues⟩ := settle_isTable hkeys hnil
        have hname := lookup_settle hkeys leaf.name (lookup table base)
        rw [Leaf.kept?_of_behind (hpath ▸ hnil), Leaf.holder?_of_table htable, ← hname, hvalues,
          Leaf.given?, Leaf.holder?_of_table htable, hlookup, hvalues]
        rfl

theorem given?_eq_source? (h : Merges host base entries environment options) (hleaf : leaf ∈ leaves)
    (htable : ¬ IndexesInto leaf.tablePath (assigned environment))
    (hindexed : ¬ IndexesInto leaf.path (assigned environment))
    (hapart : SetApart (assigned environment)) :
    leaf.given? (.table entries) = leaf.source? (.table base) (assigned environment) := by
  have hsettle := h.given?_eq_settle hleaf htable hapart
  have hitem : forall a : Assignment, a ∈ behind leaf.path (assigned environment) ->
      forall (index : Int) (rest : List Step), a.path ≠ .item index :: rest := by
    rintro ⟨path, text⟩ ha index rest rfl
    exact hindexed ⟨_, index, rest, mem_behind.1 ha, rfl⟩
  rcases settle_eq_or_isTable hitem with hlast | ⟨inner, hinner⟩
  · rw [hsettle, hlast, text?_behind, List.append_nil]
    rfl
  · exact absurd (hsettle.trans hinner) (h.given?_ne_table hleaf inner)

/-- Variables that differ at a key outside the table of an option give the same for that option. -/
theorem given?_of_outside (h : Merges host base entries environment options)
    (h' : Merges host base entries' environment' options') {key : List Step}
    (hsame : SameApartFrom key (assigned environment) (assigned environment'))
    (hkey : ¬ leaf.tablePath <+: key) :
    leaf.given? (.table entries) = leaf.given? (.table entries') := by
  cases htable : leaf.table with
  | none => exact absurd (Leaf.tablePath_of_top htable ▸ List.nil_prefix) hkey
  | some table =>
      have hpath := Leaf.tablePath_of_table htable
      have hlookup : lookup table entries = lookup table entries' := by
        rw [h.lookup_eq, h'.lookup_eq, hsame.behind (hpath ▸ hkey)]
      rw [Leaf.given?, Leaf.given?, Leaf.holder?_of_table htable, Leaf.holder?_of_table htable,
        hlookup]

end Merges

/-- Loading, if it succeeds, gives each option the value of its source: the text of its variable,
converted, else what the file gives, converted, else the default.  The variable of a key changes no
other option.  This leaves out what the name of a variable indexes, and a list for a table, which
gives way as a whole. -/
theorem options_of_sources {host : Host} {files : List (String × String)} {path : Option String}
    {environment : List (String × String)} {options : ServerOptions}
    (hload : load files path environment host = .ok options)
    (hapart : SetApart (assigned environment)) :
    exists file : List (String × Setting), fileEntries? files path = some file ∧
      (Setting.IsPlain file -> Setting.merge (.table []) file = .table file) ∧
      forall leaf : Leaf, leaf ∈ leaves ->
        (forall name text : String, (name, text) ∈ environment ->
          name.toList.map Char.toLower = leaf.variableName ->
            ⟨leaf.path, text⟩ ∈ assigned environment) ∧
        (¬ IndexesInto leaf.tablePath (assigned environment) ->
          ¬ IndexesInto leaf.path (assigned environment) ->
          orElse (leaf.value (.default host)) leaf.convert
            (leaf.source? (Setting.merge (.table []) file) (assigned environment)) =
              some (leaf.value options)) ∧
        forall (key : List Step) (environment' : List (String × String))
          (options' : ServerOptions),
          load files path environment' host = .ok options' -> SetApart (assigned environment') ->
          SameApartFrom key (assigned environment) (assigned environment') -> key ≠ leaf.path ->
          (leaf.tablePath <+: key ->
            ¬ IndexesInto leaf.tablePath (assigned environment) ∧
            ¬ IndexesInto leaf.tablePath (assigned environment') ∧
            forall items : List Setting,
              leaf.holder? (Setting.merge (.table []) file) ≠ some (.list items)) ->
          (leaf.path <+: key ->
            ¬ IndexesInto leaf.path (assigned environment) ∧
            ¬ IndexesInto leaf.path (assigned environment')) ->
          leaf.value options' = leaf.value options := by
  obtain ⟨file, base, entries, hfile, hbase, hmerges⟩ := merges_of_load hload
  refine ⟨file, hfile, fun hplain => hplain.merge, fun leaf hleaf => ⟨?_, ?_, ?_⟩⟩
  · exact fun _ _ => mem_assigned hleaf
  · intro htable hindexed
    rw [hbase, ← hmerges.given?_eq_source? hleaf htable hindexed hapart]
    exact hmerges.value_eq hleaf
  · intro key environment' options' hload' hapart' hsame hkey htable hindexed
    obtain ⟨file', base', entries', hfile', hbase', hmerges'⟩ := merges_of_load hload'
    cases hfile.symm.trans hfile'
    cases hbase.symm.trans hbase'
    have hgiven : leaf.given? (.table entries) = leaf.given? (.table entries') := by
      by_cases hinside : leaf.tablePath <+: key
      · obtain ⟨hnone, hnone', hlist⟩ := htable hinside
        rw [hbase] at hlist
        by_cases hbehind : leaf.path <+: key
        · obtain ⟨hitem, hitem'⟩ := hindexed hbehind
          rw [hmerges.given?_eq_source? hleaf hnone hitem hapart,
            hmerges'.given?_eq_source? hleaf hnone' hitem' hapart', Leaf.source?, Leaf.source?,
            hsame.text? (Ne.symm hkey), Leaf.kept?_congr hlist]
        · rw [hmerges.given?_eq_settle hleaf hnone hapart,
            hmerges'.given?_eq_settle hleaf hnone' hapart', hsame.behind hbehind,
            Leaf.kept?_congr hlist]
      · exact hmerges.given?_of_outside hmerges' hsame hinside
    have hvalue := hmerges'.value_eq hleaf
    rw [← hgiven, hmerges.value_eq hleaf] at hvalue
    exact (Option.some.inj hvalue).symm

def filterFile : List (String × String) := [("c.toml", "[logging]\nfilter = \"core=trace\"\n")]

def levelled (level : String) : List (String × String) := [("TENSORSERVE_LOGGING__LEVEL", level)]

def filtered (level : String) : ServerOptions :=
  { ServerOptions.default with logging := ⟨level, some "core=trace"⟩ }

theorem assigned_levelled (level : String) :
    assigned (levelled level) = [⟨[.child "logging", .child "level"], level⟩] := by
  cbv

theorem not_indexesInto_levelled (path : List Step) (level : String) :
    ¬ IndexesInto path (assigned (levelled level)) := by
  rw [assigned_levelled]
  rintro ⟨a, index, rest, ha, hpath⟩
  have hitem : Step.item index ∈ a.path := by simp [hpath]
  rw [List.mem_singleton.1 ha] at hitem
  simp at hitem

theorem setApart_levelled (level : String) : SetApart (assigned (levelled level)) := by
  rw [assigned_levelled]
  intro table _ a _ ha _ htable
  rw [List.mem_singleton.1 ha] at htable
  simp at htable

theorem fileEntries?_filterFile : fileEntries? filterFile (some "c.toml") =
    some [("logging", .table [("filter", .text "core=trace")])] := by
  cbv

theorem isPlain_filterFile :
    Setting.IsPlain [("logging", .table [("filter", .text "core=trace")])] := by
  simp [Setting.IsPlain, Setting.HasDistinctKeys, Setting.HaveDistinctKeys]
  decide

theorem variableSettings_levelled (level : String) :
    variableSettings (levelled level) = [("logging.level", .text level)] := by
  cbv

theorem path_level : Setting.path "logging.level" = [.child "logging", .child "level"] := by
  cbv

theorem load_levelled (level : String) :
    load filterFile (some "c.toml") (levelled level) = .ok (filtered level) := by
  refine load_of_isPlain fileEntries?_filterFile isPlain_filterFile ?_ ?_
  · simp [variableSettings_levelled, path_level, Setting.overruns, Setting.leadsBeforeStart]
  · rw [variableSettings_levelled, Setting.merge, List.foldl_cons, path_level]
    cbv

theorem filter_of_file_beside_level :
    load filterFile (some "c.toml") (levelled "warn") = .ok (filtered "warn") ∧
    load filterFile (some "c.toml") (levelled "error") = .ok (filtered "error") ∧
    SetApart (assigned (levelled "warn")) ∧ SetApart (assigned (levelled "error")) ∧
    SameApartFrom [.child "logging", .child "level"] (assigned (levelled "warn"))
      (assigned (levelled "error")) ∧
    exists file : List (String × Setting), fileEntries? filterFile (some "c.toml") = some file ∧
      Setting.merge (.table []) file = .table file ∧
      forall leaf : Leaf, leaf ∈ leaves ->
        orElse (leaf.value .default) leaf.convert
          (leaf.source? (.table file) (assigned (levelled "warn"))) =
            some (leaf.value (filtered "warn")) ∧
        ([.child "logging", .child "level"] ≠ leaf.path ->
          leaf.value (filtered "error") = leaf.value (filtered "warn")) := by
  have hwarn := load_levelled "warn"
  have herror := load_levelled "error"
  have hsame : SameApartFrom [.child "logging", .child "level"] (assigned (levelled "warn"))
      (assigned (levelled "error")) := by
    rw [SameApartFrom, assigned_levelled, assigned_levelled]
    rfl
  obtain ⟨file, hfile, hmerge, hleaves⟩ := options_of_sources hwarn (setApart_levelled "warn")
  cases fileEntries?_filterFile.symm.trans hfile
  refine ⟨hwarn, herror, setApart_levelled _, setApart_levelled _, hsame, _,
    fileEntries?_filterFile, hmerge isPlain_filterFile, fun leaf hleaf => ?_⟩
  obtain ⟨_, hvalue, hothers⟩ := hleaves leaf hleaf
  rw [hmerge isPlain_filterFile] at hvalue hothers
  refine ⟨hvalue (not_indexesInto_levelled _ _) (not_indexesInto_levelled _ _), fun hkey => ?_⟩
  refine hothers _ _ _ herror (setApart_levelled _) hsame hkey (fun _ => ?_) fun _ => ?_
  · refine ⟨not_indexesInto_levelled _ _, not_indexesInto_levelled _ _, fun items hitems => ?_⟩
    unfold Leaf.holder? at hitems
    split at hitems
    · cases hitems
    · obtain ⟨e, he, hlist⟩ := Option.map_eq_some_iff.1 hitems
      rw [List.mem_singleton.1 (List.mem_of_find?_eq_some he)] at hlist
      cases hlist
  · exact ⟨not_indexesInto_levelled _ _, not_indexesInto_levelled _ _⟩

def listingFile : List (String × String) := [("c.toml", "logging = [\"debug\", \"core=trace\"]\n")]

theorem fileEntries?_listingFile : fileEntries? listingFile (some "c.toml") =
    some [("logging", .list [.text "debug", .text "core=trace"])] := by
  cbv

theorem isPlain_listingFile :
    Setting.IsPlain [("logging", .list [.text "debug", .text "core=trace"])] := by
  simp [Setting.IsPlain, Setting.HasDistinctKeys, Setting.HaveDistinctKeys]
  decide

def poolFile : List (String × String) :=
  [("c.json",
    "\x7b\"memory\":\x7b\"accelerators\":[\x7b\"device_id\":0,\"capacity_bytes\":8\x7d]\x7d\x7d")]

theorem fileEntries?_poolFile : fileEntries? poolFile (some "c.json") =
    some [("memory", .table [("accelerators", .list [
      .table [("device_id", .integer 0), ("capacity_bytes", .integer 8)]])])] := by
  cbv

theorem isPlain_poolFile :
    Setting.IsPlain [("memory", .table [("accelerators", .list [
      .table [("device_id", .integer 0), ("capacity_bytes", .integer 8)]])])] := by
  simp [Setting.IsPlain, Setting.HasDistinctKeys, Setting.HaveDistinctKeys]
  decide

def indexedOption : List (String × String) :=
  [("TENSORSERVE_MEMORY__ACCELERATORS[0]__CAPACITY_BYTES", "7")]

theorem load_indexedOption : load poolFile (some "c.json") indexedOption =
    .ok { ServerOptions.default with memory := ⟨none, [⟨0, 7⟩]⟩ } := by
  have hindexed : variableSettings indexedOption =
      [("memory.accelerators[0].capacity_bytes", .text "7")] := by cbv
  have hpath : Setting.path "memory.accelerators[0].capacity_bytes" =
      [.child "memory", .child "accelerators", .item 0, .child "capacity_bytes"] := by cbv
  refine load_of_isPlain fileEntries?_poolFile isPlain_poolFile ?_ ?_
  · simp [hindexed, hpath, Setting.overruns, Setting.leadsBeforeStart, Setting.isBeforeStart]
  · rw [hindexed, Setting.merge, List.foldl_cons, hpath]
    cbv

def indexedTable : List (String × String) := [("TENSORSERVE_LOGGING[0]", "debug")]

theorem load_indexedTable : load [] none indexedTable =
    .ok { ServerOptions.default with logging := ⟨"debug", none⟩ } := by
  have hindexed : variableSettings indexedTable = [("logging[0]", .text "debug")] := by cbv
  have hpath : Setting.path "logging[0]" = [.child "logging", .item 0] := by cbv
  refine load_eq_ok_iff.2 ⟨[], rfl, rfl, ?_, ?_⟩
  · simp [hindexed, hpath, Setting.overruns, Setting.leadsBeforeStart, Setting.isBeforeStart]
  · rw [hindexed, Setting.merge, List.foldl_cons, hpath]
    cbv

/-- The variable for the level of the log takes away the filter that a file lists beside it.  A
variable with an index in its name gives the level without being its variable, and another replaces
a part of what a file lists. -/
theorem listed_values_give_way :
    load listingFile (some "c.toml") [] =
      .ok { ServerOptions.default with logging := ⟨"debug", some "core=trace"⟩ } ∧
    load listingFile (some "c.toml") (levelled "warn") =
      .ok { ServerOptions.default with logging := ⟨"warn", none⟩ } ∧
    load [] none indexedTable =
      .ok { ServerOptions.default with logging := ⟨"debug", none⟩ } ∧
    load poolFile (some "c.json") [] =
      .ok { ServerOptions.default with memory := ⟨none, [⟨0, 8⟩]⟩ } ∧
    load poolFile (some "c.json") indexedOption =
      .ok { ServerOptions.default with memory := ⟨none, [⟨0, 7⟩]⟩ } := by
  refine ⟨load_of_isPlain fileEntries?_listingFile isPlain_listingFile rfl ?_,
    load_of_isPlain fileEntries?_listingFile isPlain_listingFile ?_ ?_, load_indexedTable,
    load_of_isPlain fileEntries?_poolFile isPlain_poolFile rfl ?_, load_indexedOption⟩
  · cbv
  · rw [variableSettings_levelled]
    simp [path_level, Setting.overruns, Setting.leadsBeforeStart]
  · rw [variableSettings_levelled, Setting.merge, List.foldl_cons, path_level]
    cbv
  · cbv

end Options

end InferenceEngine
