import InferenceEngine.Proofs.Regions.Managers
import Mathlib.Data.List.Induction

/-!
# The history of a handle

Whatever has a registry does one thing at a time to its handles: it registers one, gives one up, or
gives all of them up.  A handle that is registered in the end was so all along, or one of these
operations has made it and none of the later ones has given its name up.
-/

namespace InferenceEngine

namespace Registry

structure Registers (r : Registry) (d : Directory) (elsewhere : Nat -> Bool) (name key : String)
    (offset size : Nat) (h : Handle) : Prop where
  done : (r.register d elsewhere name key offset size).1 = .ok ()
  found : (r.register d elsewhere name key offset size).2.1.handles.get? name = some h

/-!
# Registrations

A handle is made over a file that has a name.
-/

section

variable (r : Registry) (d : Directory) (elsewhere : Nat -> Bool) (name key : String)
  (offset size : Nat)

/-- A registration that fails leaves all handles alone, and one that does not adds one under a name
that is free. -/
theorem register_cases :
    (exists failure : Failure,
      (r.register d elsewhere name key offset size).1 = .error failure ∧
      (r.register d elsewhere name key offset size).2.1.handles = r.handles) ∨
    (exists mapping : Mapping, r.handles.get? name = none ∧
      (r.mapKey d elsewhere key).1 = .ok mapping ∧
      (r.register d elsewhere name key offset size).1 = .ok () ∧
      (r.register d elsewhere name key offset size).2.1.handles =
        r.handles.insert name ⟨name, mapping, offset, size⟩) := by
  have hhandles := r.handles_mapKey d elsewhere key
  rw [register_eq]
  split
  · exact .inl ⟨_, rfl, rfl⟩
  · split
    · exact .inl ⟨_, rfl, rfl⟩
    · rename_i hfree
      split
      · rename_i failure r' events hmap
        rw [hmap] at hhandles
        exact .inl ⟨failure, rfl, hhandles⟩
      · rename_i mapping r' events hmap
        rw [hmap] at hhandles
        split
        · exact .inl ⟨_, rfl, hhandles⟩
        · refine .inr ⟨mapping, ?_, by rw [hmap], rfl, ?_⟩
          · unfold OrderedMap.contains at hfree
            exact Option.not_isSome_iff_eq_none.1 hfree
          · exact congrArg (·.insert name ⟨name, mapping, offset, size⟩) hhandles

theorem registers_or_fails :
    (exists h : Handle, r.Registers d elsewhere name key offset size h) ∨
    exists failure : Failure, (r.register d elsewhere name key offset size).1 = .error failure := by
  rcases r.register_cases d elsewhere name key offset size with
    ⟨failure, hfailed, _⟩ | ⟨mapping, _, _, hdone, hhandles⟩
  · exact .inr ⟨failure, hfailed⟩
  · refine .inl ⟨⟨name, mapping, offset, size⟩, hdone, ?_⟩
    rw [hhandles]
    exact OrderedMap.get?_insert_self ..

theorem Registers.named {r : Registry} {d : Directory} {elsewhere : Nat -> Bool}
    {name key : String} {offset size : Nat} {h : Handle}
    (hmade : r.Registers d elsewhere name key offset size h) :
    exists fileName : String, d.names.get? fileName = some h.mapping.region.file := by
  have hdone := hmade.done
  have hfound := hmade.found
  rcases r.register_cases d elsewhere name key offset size with
    ⟨failure, hfailed, _⟩ | ⟨mapping, _, hmap, _, hhandles⟩
  · rw [hfailed] at hdone
    cases hdone
  · rw [hhandles, OrderedMap.get?_insert_self] at hfound
    cases hfound
    show exists fileName : String, d.names.get? fileName = some mapping.region.file
    rcases r.mapKey_cases d elsewhere key with ⟨_, _, hfailed, _⟩ |
      ⟨_, last, _, _, _, hcurrent, hresult, _⟩ | ⟨_, _, _, ⟨_, _, hfailed, _⟩ |
      ⟨region, hopen, hresult, _⟩⟩
    · rw [hfailed] at hmap
      cases hmap
    · rw [hresult] at hmap
      cases hmap
      unfold Region.isCurrent at hcurrent
      rw [Bool.and_eq_true, decide_eq_true_eq] at hcurrent
      exact ⟨_, hcurrent.1⟩
    · rw [hfailed] at hmap
      cases hmap
    · rw [hresult] at hmap
      cases hmap
      exact ⟨_, (Region.openKey_eq_ok hopen).2.2.1⟩

end

/-!
# Edits
-/

inductive Edit where
  | keep
  | register (d : Directory) (elsewhere : Nat -> Bool) (name key : String) (offset size : Nat)
  | unregister (name : String)
  | clear

def Edit.Releases (name : String) : Edit -> Prop
  | .unregister other => other = name
  | .clear => True
  | _ => False

def edited (r : Registry) : Edit -> OrderedMap String Handle
  | .keep => r.handles
  | .register d elsewhere name key offset size =>
      (r.register d elsewhere name key offset size).2.1.handles
  | .unregister name =>
      match r.unregister name with
      | .ok after => after.handles
      | .error _ => r.handles
  | .clear => .empty

def Makes (r : Registry) (edit : Edit) (name : String) (h : Handle) : Prop :=
  exists (d : Directory) (elsewhere : Nat -> Bool) (key : String) (offset size : Nat),
    edit = .register d elsewhere name key offset size ∧
      r.Registers d elsewhere name key offset size h

theorem get?_register (r : Registry) (d : Directory) (elsewhere : Nat -> Bool)
    (other key : String) (offset size : Nat) {name : String} {h : Handle} :
    (r.register d elsewhere other key offset size).2.1.handles.get? name = some h ↔
      r.handles.get? name = some h ∨
        name = other ∧ r.Registers d elsewhere name key offset size h := by
  rcases r.register_cases d elsewhere other key offset size with
    ⟨failure, hfailed, hhandles⟩ | ⟨mapping, hfree, _, hdone, hhandles⟩
  · rw [hhandles]
    constructor
    · exact .inl
    · rintro (hold | ⟨rfl, hmade⟩)
      · exact hold
      · have hdone := hmade.done
        rw [hfailed] at hdone
        cases hdone
  · by_cases hsame : name = other
    · subst hsame
      rw [hfree]
      constructor
      · exact fun hfound => .inr ⟨rfl, hdone, hfound⟩
      · rintro (hold | ⟨_, hmade⟩)
        · cases hold
        · exact hmade.found
    · rw [hhandles, OrderedMap.get?_insert_of_ne hsame]
      constructor
      · exact .inl
      · rintro (hold | ⟨hname, _⟩)
        · exact hold
        · exact absurd hname hsame

theorem get?_unregister (r : Registry) (other name : String) :
    (r.edited (.unregister other)).get? name =
      if name = other then none else r.handles.get? name := by
  unfold edited unregister
  by_cases hcontains : r.handles.contains other = true
  · simp only [if_pos hcontains]
    split
    · rename_i hsame
      rw [hsame, OrderedMap.get?_erase_self]
    · rename_i hother
      exact OrderedMap.get?_erase_of_ne hother _
  · simp only [if_neg hcontains]
    split
    · rename_i hsame
      rw [hsame]
      unfold OrderedMap.contains at hcontains
      exact Option.not_isSome_iff_eq_none.1 hcontains
    · rfl

theorem makes_register_iff {r : Registry} {d : Directory} {elsewhere : Nat -> Bool}
    {other key name : String} {offset size : Nat} {h : Handle} :
    r.Makes (.register d elsewhere other key offset size) name h ↔
      name = other ∧ r.Registers d elsewhere name key offset size h := by
  constructor
  · rintro ⟨_, _, _, _, _, hedit, hmade⟩
    cases hedit
    exact ⟨rfl, hmade⟩
  · rintro ⟨rfl, hmade⟩
    exact ⟨d, elsewhere, key, offset, size, rfl, hmade⟩

/-- The handles after an edit are those of before that it does not give up, and the one that it
makes. -/
theorem get?_edited (r : Registry) (edit : Edit) {name : String} {h : Handle} :
    (r.edited edit).get? name = some h ↔
      (r.handles.get? name = some h ∧ ¬ edit.Releases name) ∨ r.Makes edit name h := by
  cases edit with
  | keep => simp [edited, Edit.Releases, Makes]
  | register d elsewhere other key offset size =>
      rw [makes_register_iff]
      unfold edited
      rw [get?_register]
      simp [Edit.Releases]
  | unregister other =>
      rw [get?_unregister]
      by_cases hsame : name = other
      · simp [hsame, Edit.Releases, Makes]
      · simp [hsame, Ne.symm hsame, Edit.Releases, Makes]
  | clear =>
      have hempty : (r.edited .clear).get? name = none := rfl
      simp [hempty, Edit.Releases, Makes]

/-!
# Histories
-/

/-- Something that has a registry, with what its operations do to the handles as long as it is
intact.  Which names an operation gives up does not depend on the state. -/
structure Keeper (S O : Type) where
  step : S -> O -> S
  registry : S -> Registry
  edit : S -> O -> Edit
  releases : String -> O -> Prop
  isIntact : S -> Prop
  intact : forall (s : S) (o : O), isIntact s -> isIntact (step s o)
  handles : forall (s : S) (o : O), isIntact s ->
    (registry (step s o)).handles = (registry s).edited (edit s o)
  releases_iff : forall (s : S) (o : O) (name : String), isIntact s ->
    ((edit s o).Releases name ↔ releases name o)

namespace Keeper

variable {S O : Type} (k : Keeper S O)

def after (s : S) (ops : List O) : S := ops.foldl k.step s

theorem after_concat (s : S) (ops : List O) (op : O) :
    k.after s (ops ++ [op]) = k.step (k.after s ops) op :=
  List.foldl_append

variable {k}

theorem isIntact_after {s : S} (hs : k.isIntact s) (ops : List O) : k.isIntact (k.after s ops) := by
  induction ops generalizing s with
  | nil => exact hs
  | cons op rest ih => exact ih (k.intact s op hs)

/-- The handles after operations are those of before that none of them gives up, and those that one
of them makes and no later one gives up. -/
theorem registered_after {s : S} (hs : k.isIntact s) (ops : List O) (name : String) (h : Handle) :
    (k.registry (k.after s ops)).handles.get? name = some h ↔
      ((k.registry s).handles.get? name = some h ∧
        forall op : O, op ∈ ops -> ¬ k.releases name op) ∨
      exists (before : List O) (op : O) (later : List O), ops = before ++ op :: later ∧
        (k.registry (k.after s before)).Makes (k.edit (k.after s before) op) name h ∧
        forall op : O, op ∈ later -> ¬ k.releases name op := by
  induction ops using List.reverseRecOn with
  | nil =>
      constructor
      · exact fun hold => .inl ⟨hold, fun op hop => absurd hop List.not_mem_nil⟩
      · rintro (⟨hold, _⟩ | ⟨before, op, later, hsplit, _⟩)
        · exact hold
        · exact absurd hsplit (by simp)
  | append_singleton ops last ih =>
      have hintact := isIntact_after hs ops
      have hconcat : forall {xs : List O} {x : O},
          (forall op, op ∈ xs ++ [x] -> ¬ k.releases name op) ↔
            (forall op, op ∈ xs -> ¬ k.releases name op) ∧ ¬ k.releases name x := by
        intro xs x
        rw [List.forall_mem_append, List.forall_mem_singleton]
      rw [after_concat, k.handles _ _ hintact, get?_edited, k.releases_iff _ _ _ hintact, ih]
      constructor
      · rintro (⟨⟨hold, hops⟩ | ⟨before, op, later, rfl, hmade, hlater⟩, hkept⟩ | hmade)
        · exact .inl ⟨hold, hconcat.2 ⟨hops, hkept⟩⟩
        · refine .inr ⟨before, op, later ++ [last], ?_, hmade, ?_⟩
          · rw [List.append_assoc, List.cons_append]
          · exact hconcat.2 ⟨hlater, hkept⟩
        · exact .inr ⟨ops, last, [], rfl, hmade, fun op hop => absurd hop List.not_mem_nil⟩
      · rintro (⟨hold, hops⟩ | ⟨before, op, later, hsplit, hmade, hlater⟩)
        · obtain ⟨hops, hkept⟩ := hconcat.1 hops
          exact .inl ⟨.inl ⟨hold, hops⟩, hkept⟩
        · rcases List.eq_nil_or_concat' later with rfl | ⟨middle, other, rfl⟩
          · obtain ⟨rfl, hop⟩ := List.append_inj' hsplit rfl
            cases hop
            exact .inr hmade
          · obtain ⟨hmiddle, hkept⟩ := hconcat.1 hlater
            rw [← List.cons_append, ← List.append_assoc] at hsplit
            obtain ⟨rfl, hop⟩ := List.append_inj' hsplit rfl
            cases hop
            exact .inl ⟨.inr ⟨before, op, middle, rfl, hmade, hmiddle⟩, hkept⟩

end Keeper

end Registry

end InferenceEngine
