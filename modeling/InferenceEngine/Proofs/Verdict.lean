import InferenceEngine.Failure
import Mathlib.Data.List.Forall2

/-!
# Checks in order

Something that may fail is a sequence of checks as far as its failures are concerned: it fails
with the failure of the first check that does not hold.
-/

namespace InferenceEngine

variable {α β : Type}

/-!
# Results
-/

theorem bind_eq_ok {x : Except Failure α} {f : α -> Except Failure β} {b : β}
    (h : (x >>= f) = .ok b) : exists a : α, x = .ok a ∧ f a = .ok b := by
  cases x with
  | error failure => cases h
  | ok a => exact ⟨a, rfl, h⟩

theorem mapM_eq_ok {f : α -> Except Failure β} {xs : List α} {ys : List β}
    (h : xs.mapM f = .ok ys) : List.Forall₂ (fun x y => f x = .ok y) xs ys := by
  induction xs generalizing ys with
  | nil =>
      cases h
      exact .nil
  | cons x rest ih =>
      rw [List.mapM_cons] at h
      rcases bind_eq_ok h with ⟨y, hy, hmore⟩
      rcases bind_eq_ok hmore with ⟨others, hothers, hall⟩
      cases hall
      exact .cons hy (ih hothers)

theorem map_of_mapM {γ : Type} {f : α -> Except Failure β} {xs : List α} {ys : List β}
    {g : β -> γ} {k : α -> γ} (h : xs.mapM f = .ok ys)
    (hstep : forall (x : α) (y : β), f x = .ok y -> g y = k x) : ys.map g = xs.map k := by
  have hall := mapM_eq_ok h
  clear h
  induction hall with
  | nil => rfl
  | cons hfirst _ ih => rw [List.map_cons, List.map_cons, hstep _ _ hfirst, ih]

theorem mem_of_mapM {f : α -> Except Failure β} {xs : List α} {ys : List β} {y : β}
    (h : xs.mapM f = .ok ys) (hy : y ∈ ys) : exists x : α, x ∈ xs ∧ f x = .ok y := by
  have hall := mapM_eq_ok h
  clear h
  induction hall with
  | nil => cases hy
  | cons hfirst _ ih =>
      rcases List.mem_cons.1 hy with rfl | hrest
      · exact ⟨_, List.mem_cons_self, hfirst⟩
      · rcases ih hrest with ⟨x, hx, hfx⟩
        exact ⟨x, List.mem_cons_of_mem _ hx, hfx⟩

theorem mapM_of_forall {f : α -> Except Failure β} {g : α -> β} {xs : List α}
    (h : forall x, x ∈ xs -> f x = .ok (g x)) : xs.mapM f = .ok (xs.map g) := by
  induction xs with
  | nil => rfl
  | cons x rest ih =>
      rw [List.mapM_cons, h x List.mem_cons_self, ih fun y hy => h y (List.mem_cons_of_mem _ hy)]
      rfl

theorem forM_eq_ok {f : α -> Except Failure Unit} {xs : List α} (h : xs.forM f = .ok ()) :
    forall x : α, x ∈ xs -> f x = .ok () := by
  induction xs with
  | nil =>
      intro x hx
      cases hx
  | cons first rest ih =>
      have h : (f first >>= fun _ => rest.forM f) = .ok () := h
      rcases bind_eq_ok h with ⟨_, hfirst, hrest⟩
      intro x hx
      rcases List.mem_cons.1 hx with rfl | hx
      · exact hfirst
      · exact ih hrest x hx

/-!
# Verdicts
-/

/-- Whether something succeeds, and else its failure. -/
def verdict (x : Except Failure α) : Except Failure Unit := x.map fun _ => ()

theorem verdict_unit (x : Except Failure Unit) : verdict x = x := by
  cases x <;> rfl

theorem verdict_bind {x : Except Failure α} {f : α -> Except Failure β} {v : Except Failure Unit}
    (h : forall a : α, x = .ok a -> verdict (f a) = v) :
    verdict (x >>= f) = verdict x >>= fun _ => v := by
  cases x with
  | error failure => rfl
  | ok a => exact h a rfl

theorem verdict_eq_ok {x : Except Failure α} (h : verdict x = .ok ()) :
    exists a : α, x = .ok a := by
  cases x with
  | error failure => cases h
  | ok a => exact ⟨a, rfl⟩

theorem verdict_eq_error {x : Except Failure α} {failure : Failure}
    (h : verdict x = .error failure) : x = .error failure := by
  cases x with
  | error other =>
      cases h
      rfl
  | ok a => cases h

/-!
# The first failure

A failure that is reported is that of a check that does not hold.
-/

/-- The failure of the first of a list of conditions that does not hold. -/
def firstFailure (checks : List (Bool × Failure)) : Except Failure Unit :=
  match checks.find? fun c => !c.1 with
  | none => .ok ()
  | some c => .error c.2

@[simp] theorem firstFailure_nil : firstFailure [] = .ok () := rfl

theorem firstFailure_cons (holds : Bool) (failure : Failure) (rest : List (Bool × Failure)) :
    firstFailure ((holds, failure) :: rest) =
      if holds then firstFailure rest else .error failure := by
  cases holds <;> rfl

theorem firstFailure_eq_ok_iff {checks : List (Bool × Failure)} :
    firstFailure checks = .ok () ↔ forall c, c ∈ checks -> c.1 = true := by
  induction checks with
  | nil => simp
  | cons c rest ih =>
      rcases c with ⟨holds, failure⟩
      rw [firstFailure_cons, List.forall_mem_cons, ← ih]
      cases holds <;> simp

theorem mem_of_firstFailure {checks : List (Bool × Failure)} {failure : Failure}
    (h : firstFailure checks = .error failure) : (false, failure) ∈ checks := by
  unfold firstFailure at h
  cases hfind : checks.find? fun c => !c.1 with
  | none =>
      rw [hfind] at h
      cases h
  | some c =>
      rcases c with ⟨holds, other⟩
      rw [hfind] at h
      cases h
      have hholds : holds = false := by simpa using List.find?_some hfind
      rw [← hholds]
      exact List.mem_of_find?_eq_some hfind

theorem firstFailure_append (first rest : List (Bool × Failure)) :
    firstFailure (first ++ rest) = firstFailure first >>= fun _ => firstFailure rest := by
  induction first with
  | nil => rfl
  | cons c more ih =>
      rw [List.cons_append, firstFailure_cons, firstFailure_cons, ih]
      split <;> rfl

theorem forM_eq_firstFailure {f : α -> Except Failure Unit} {g : α -> List (Bool × Failure)}
    (h : forall a : α, f a = firstFailure (g a)) (xs : List α) :
    xs.forM f = firstFailure (xs.flatMap g) := by
  induction xs with
  | nil => rfl
  | cons x rest ih =>
      rw [List.flatMap_cons, firstFailure_append, ← ih, ← h x]
      rfl

theorem verdict_mapM {f : α -> Except Failure β} {g : α -> List (Bool × Failure)}
    (h : forall a : α, verdict (f a) = firstFailure (g a)) (xs : List α) :
    verdict (xs.mapM f) = firstFailure (xs.flatMap g) := by
  induction xs with
  | nil => rfl
  | cons x rest ih =>
      rw [List.mapM_cons, List.flatMap_cons, firstFailure_append, ← ih, ← h x]
      apply verdict_bind
      intro b _
      cases rest.mapM f <;> rfl

end InferenceEngine
