import InferenceEngine.Engine.Operation

/-!
# Parts of an engine

What is found under a number after a part of the engine has changed.  Under a number that is not
in use there is something that has come to its end: a closed request, a stopped server, a call
that was given up.
-/

namespace InferenceEngine

theorem getD_modify {α : Type} (xs : List α) (n m : Nat) (f : α -> α) (d : α) :
    (xs.modify n f).getD m d =
      if m = n ∧ n < xs.length then f (xs.getD n d) else xs.getD m d := by
  rw [List.getD_eq_getElem?_getD, List.getD_eq_getElem?_getD, List.getD_eq_getElem?_getD,
    List.getElem?_modify]
  by_cases hm : m = n
  · by_cases hn : n < xs.length
    · simp [hm, hn]
    · simp [hm, hn]
  · simp [hm, Ne.symm hm]

theorem getD_set {α : Type} (xs : List α) (n m : Nat) (a d : α) :
    (xs.set n a).getD m d = if m = n ∧ n < xs.length then a else xs.getD m d := by
  rw [List.getD_eq_getElem?_getD, List.getD_eq_getElem?_getD, List.getElem?_set]
  by_cases hm : m = n
  · by_cases hn : n < xs.length
    · simp [hm, hn]
    · simp [hm, hn]
  · simp [hm, Ne.symm hm]

theorem getD_concat {α : Type} (xs : List α) (m : Nat) (a d : α) :
    (xs ++ [a]).getD m d = if m = xs.length then a else xs.getD m d := by
  rw [List.getD_eq_getElem?_getD, List.getD_eq_getElem?_getD, List.getElem?_append]
  rcases Nat.lt_trichotomy m xs.length with hlt | heq | hgt
  · rw [if_pos hlt, if_neg (Nat.ne_of_lt hlt)]
  · simp [heq]
  · have hpos : 0 < m - xs.length := Nat.sub_pos_of_lt hgt
    have hge : xs.length ≤ m := Nat.le_of_lt hgt
    rw [if_neg (Nat.not_lt.2 hge), if_neg (Nat.ne_of_gt hgt),
      List.getElem?_eq_none hge, List.getElem?_eq_none (Nat.succ_le_of_lt hpos)]

namespace Engine

/-!
# Numbers in use
-/

theorem lt_of_phase {e : Engine} {n : Nat}
    (h : (e.submission n).phase.isOpen = true) : n < e.submissions.length := by
  rcases Nat.lt_or_ge n e.submissions.length with hlt | hge
  · exact hlt
  · have hdefault : e.submission n = default := by
      simp [submission, hge]
    rw [hdefault] at h
    cases h

theorem lt_of_answered {e : Engine} {n : Nat} {response : Response}
    (h : (e.submission n).phase = .answered response) : n < e.submissions.length := by
  rcases Nat.lt_or_ge n e.submissions.length with hlt | hge
  · exact hlt
  · have hdefault : e.submission n = default := by
      simp [submission, hge]
    rw [hdefault] at h
    cases h

theorem phase_eq_closed {e : Engine} {n : Nat} (h : e.submissions.length ≤ n) :
    (e.submission n).phase = .closed := by
  have hdefault : e.submission n = default := by
    simp [submission, h]
  rw [hdefault]
  rfl

theorem lt_of_state {e : Engine} {n : Nat} (h : (e.server n).state ≠ .stopped) :
    n < e.servers.length := by
  rcases Nat.lt_or_ge n e.servers.length with hlt | hge
  · exact hlt
  · have hdefault : e.server n = default := by
      simp [server, hge]
    exact absurd (by rw [hdefault]; rfl) h

theorem waiting_eq_nil {e : Engine} {k : Nat} (h : e.servers.length ≤ k) :
    (e.server k).waiting = [] := by
  have hdefault : e.server k = default := by
    simp [server, h]
  rw [hdefault]
  rfl

theorem lt_of_waiting {e : Engine} {k m : Nat} (h : m ∈ (e.server k).waiting) :
    k < e.servers.length := by
  rcases Nat.lt_or_ge k e.servers.length with hlt | hge
  · exact hlt
  · rw [waiting_eq_nil hge] at h
    cases h

/-!
# Requests
-/

theorem submission_setPhase (e : Engine) (n m : Nat) (p : Phase) :
    (e.setPhase n p).submission m =
      if m = n ∧ n < e.submissions.length then { e.submission n with phase := p }
      else e.submission m :=
  getD_modify e.submissions n m _ default

theorem phase_setPhase_self {e : Engine} {n : Nat} {p : Phase} (h : n < e.submissions.length) :
    ((e.setPhase n p).submission n).phase = p := by
  rw [submission_setPhase, if_pos ⟨rfl, h⟩]

@[simp] theorem server_of_submission_setPhase (e : Engine) (n m : Nat) (p : Phase) :
    ((e.setPhase n p).submission m).server = (e.submission m).server := by
  rw [submission_setPhase]
  split
  · rename_i h
    rw [h.1]
  · rfl

theorem submission_ignore (e : Engine) (n m : Nat) :
    (e.ignore n).submission m =
      if m = n ∧ n < e.submissions.length then { e.submission n with isAwaited := false }
      else e.submission m :=
  getD_modify e.submissions n m _ default

theorem phase_ignore (e : Engine) (n m : Nat) :
    ((e.ignore n).submission m).phase = (e.submission m).phase := by
  rw [submission_ignore]
  split
  · rename_i h
    rw [h.1]
  · rfl

theorem submission_enroll (e : Engine) (server callback : Nat) (request : PreparedRequest)
    (m : Nat) :
    (e.enroll server request callback).submission m =
      if m = e.submissions.length then ⟨server, request, callback, .accepted, true⟩
      else e.submission m :=
  getD_concat e.submissions m _ default

/-!
# Servers
-/

theorem server_modifyServer (e : Engine) (n m : Nat) (f : Server -> Server) :
    (e.modifyServer n f).server m =
      if m = n ∧ n < e.servers.length then f (e.server n) else e.server m :=
  getD_modify e.servers n m f default

theorem server_addServer (e : Engine) (options : ServerOptions) (allocator : Nat)
    (table : ModelTable) (m : Nat) :
    (e.addServer options allocator table).server m =
      if m = e.servers.length then { Server.new options allocator e.readings with table := table }
      else e.server m :=
  getD_concat e.servers m _ default

/-!
# Allocators
-/

theorem allocator_setAllocator (e : Engine) (n m : Nat) (a : Allocator) :
    (e.setAllocator n a).allocator m =
      if m = n ∧ n < e.allocators.length then a else e.allocator m :=
  getD_set e.allocators n m a default

end Engine

end InferenceEngine
