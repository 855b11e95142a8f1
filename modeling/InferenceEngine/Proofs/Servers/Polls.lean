import InferenceEngine.Proofs.Runs.Alike
import InferenceEngine.Proofs.Servers.Draining

/-!
# Polls of a server

A poll changes the models of its server and what is said about them, and nothing else, unless a
factory stops the server meanwhile.  So in two runs that differ only in polls of a server, all
requests are accepted, executed and answered alike, whatever has become of the models by then.
-/

namespace InferenceEngine

namespace Engine

variable {k : Nat} {e e' : Engine}

theorem Tends.serving (h : e.Tends e') (hk : k < e.servers.length)
    (hserving : (e'.server k).state = .serving) : (e.server k).state = .serving := by
  by_contra hstate
  exact Server.not_serving_of_rank_le (h.server k hk).rank_le hstate hserving

theorem alike_setTable (e : Engine) (k : Nat) (table : ModelTable) :
    Alike k e (e.modifyServer k fun s => { s with table := table }) := by
  have hsame : e.modifyServer k id = e := by
    unfold modifyServer
    rw [List.modify_id]
  have hset : Alike k (e.modifyServer k id)
      (e.modifyServer k fun s => { s with table := table }) := by
    apply (Alike.refl e).modifyServer
    unfold Server.masked
    simp
  rw [hsame] at hset
  exact hset

theorem alike_perform (factory : Option BackendFactory) (action : LoadAction)
    (hk : k < e.servers.length)
    (hserving : ((perform factory (some k) e action).server k).state = .serving) :
    Alike k e (perform factory (some k) e action) := by
  cases action with
  | report event => exact Alike.refl e
  | create config version =>
      cases factory with
      | none => exact Alike.refl e
      | some factory =>
          cases hstops : (factory config version).stops with
          | true => exact absurd hserving (not_serving_perform hk hstops)
          | false =>
              simp only [perform, Option.map_some]
              rw [hstops, if_neg (by decide)]
              exact (masked_recordCreation k e config version _).symm

theorem alike_load (factory : Option BackendFactory) (actions : List LoadAction)
    (hk : k < e.servers.length)
    (hserving : ((actions.foldl (perform factory (some k)) e).server k).state = .serving) :
    Alike k e (actions.foldl (perform factory (some k)) e) := by
  induction actions generalizing e with
  | nil => exact Alike.refl e
  | cons action rest ih =>
      have htends := tends_perform factory (some k) e action
      have hk' := Nat.lt_of_lt_of_le hk htends.length
      have hmiddle := (tends_load factory (some k) rest _).serving hk' hserving
      exact (alike_perform factory action hk hmiddle).trans (ih hk' hserving)

/-- A poll that does not stop its server changes nothing but models and what is said about them. -/
theorem alike_poll {scan : Except Failure (List RepositoryModel)}
    {factory : Option BackendFactory} (hspares : (e.server k).state = .serving ->
      ((e.poll k scan factory).2.server k).state = .serving) :
    Alike k e (e.poll k scan factory).2 := by
  by_cases hstate : (e.server k).state = .serving
  · have hserving := hspares hstate
    have hk : k < e.servers.length := lt_of_state (by rw [hstate]; decide)
    cases scan with
    | error failure =>
        unfold poll
        rw [if_neg (not_not_intro hstate)]
        exact Alike.refl e
    | ok models =>
        by_cases hrunning : forall done : Nat,
            ((e.loading k factory models done).server k).state ≠ .stopped
        · have hpolled := poll_of_running hk hstate hrunning
          rw [hpolled, loading_of_le (Nat.le_refl _)] at hserving
          have hloaded : Alike k e (e.reconcile factory (some k) (e.server k).options
              (e.server k).table models).2.2 := alike_load factory _ hk hserving
          have hset := hloaded.trans (alike_setTable _ k (e.loadedTable k factory models))
          simp only [poll]
          rw [if_neg (not_not_intro hstate), if_neg]
          · split
            · exact hset
            · exact hset
          · rw [server_of_servers (e.servers_reconcile k factory models)]
            exact hrunning _
        · rcases not_forall.1 hrunning with ⟨done, hstopped⟩
          have hend := (poll_of_stopped hk hstate (Classical.not_not.1 hstopped)).2
          rw [hend] at hserving
          cases hserving
  · unfold poll
    rw [if_pos hstate]
    exact Alike.refl e

/-!
# Runs that differ in polls
-/

def withoutPolls (k : Nat) (ops : List Operation) : List Operation :=
  ops.filter fun op => !op.isPollOf k

/-- Whether no poll of a server stops it, in the course of the given operations. -/
def PollsSpare (k : Nat) (e : Engine) : List Operation -> Prop
  | [] => True
  | op :: rest =>
      (op.isPollOf k = true -> (e.server k).state = .serving ->
        ((e.operate op).server k).state = .serving) ∧ (e.operate op).PollsSpare k rest

/-- Leaving out the polls of a server changes nothing but models and what is said about them. -/
theorem Alike.after (h : Alike k e e') {ops : List Operation} (hspare : e.PollsSpare k ops) :
    Alike k (e.after ops) (e'.after (withoutPolls k ops)) := by
  induction ops generalizing e e' with
  | nil => exact h
  | cons op rest ih =>
      unfold withoutPolls at ih ⊢
      cases hop : op.isPollOf k with
      | false =>
          rw [List.filter_cons_of_pos (by rw [hop]; rfl)]
          exact ih (h.operate hop) hspare.2
      | true =>
          rw [List.filter_cons_of_neg (by rw [hop]; decide)]
          have hmiddle := hspare.1 hop
          cases op with
          | poll server scan factory =>
              rw [show server = k from of_decide_eq_true hop] at hmiddle hspare ⊢
              exact ih ((alike_poll hmiddle).symm.trans h) hspare.2
          | _ => cases hop

/-- In two runs that differ only in polls of a server, everything but models and what is said about
them is the same. -/
theorem alike_of_withoutPolls {ops ops' : List Operation} (h : Alike k e e')
    (hops : withoutPolls k ops = withoutPolls k ops') (hspare : e.PollsSpare k ops)
    (hspare' : e'.PollsSpare k ops') : Alike k (e.after ops) (e'.after ops') := by
  have hall := h.after hspare
  have hall' := (Alike.refl e').after hspare'
  rw [← hops] at hall'
  exact hall.trans hall'.symm

end Engine

end InferenceEngine
