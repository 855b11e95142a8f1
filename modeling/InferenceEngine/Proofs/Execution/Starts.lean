import InferenceEngine.Proofs.Execution.Backends
import InferenceEngine.Proofs.Execution.Batches
import InferenceEngine.Proofs.Requests.Attempts

/-!
# When executions start

A batch is put together at one moment, when the request holds a slot: its inputs are read and its
slots are allocated as things stand then.  All that the moment needs to know of the request has
been settled when that was accepted, whatever has happened to other requests in between.
-/

namespace InferenceEngine

namespace Engine

variable {also : Deed -> Prop}

/-!
# Requests that last

A request lasts, whoever else is accepted.
-/

/-- Whether all requests are still there and are what they were. -/
def KeepsRequests (e e' : Engine) : Prop :=
  forall n : Nat, n < e.submissions.length ->
    n < e'.submissions.length ∧ (e.submission n).Lasts (e'.submission n)

theorem Move.keepsRequests {deed : Deed} {e e' : Engine} (h : Move deed e e') :
    e.KeepsRequests e' := by
  intro n hn
  cases deed with
  | accept callback =>
      cases h with
      | enroll _ server callback provider request hstate hprepare =>
          constructor
          · have hlength : ((e.countIn server).enroll server request callback).submissions.length =
                e.submissions.length + 1 := by simp [Engine.enroll, countIn, modifyServer]
            omega
          · have hne : n ≠ (e.countIn server).submissions.length := Nat.ne_of_lt hn
            rw [submission_enroll, if_neg hne]
            rfl
  | _ =>
      rcases h.lasts (fun callback haccepts => by cases haccepts) with ⟨hlength, hlasts⟩
      rw [hlength]
      exact ⟨hn, hlasts n⟩

theorem Moves.keepsRequests {e e' : Engine} (h : Moves also e e') : e.KeepsRequests e' := by
  refine Moves.induct (P := e.KeepsRequests) ?_ h fun n hn => ⟨hn, rfl⟩
  intro deed middle e' _ hmove hmiddle n hn
  rcases hmiddle n hn with ⟨hlt, hlasts⟩
  rcases hmove.keepsRequests n hlt with ⟨hlt', hlasts'⟩
  exact ⟨hlt', hlasts.trans hlasts'⟩

/-!
# Starting

A batch that is handed over now is put together now.
-/

/-- Whether the batch of a request is put together as things stand. -/
structure Starts (e : Engine) (n : Nat) (batch : ExecutionBatch) : Prop where
  granted : (e.submission n).phase = .granted
  model : batch.model = (e.submission n).request.model.config
  version : batch.version = (e.submission n).request.model.version
  batchSize : batch.batchSize = (e.submission n).request.batchSize
  gathered : Execution.gather e.directory (e.submission n).request = .ok batch.inputs
  allocated : exists (a : Allocator) (events : List Event),
    Execution.allocate (e.submission n).request.model.config.placement
      (e.memory (e.submission n).server).allocator [] (e.submission n).request.outputs =
        (.made batch.outputs, a, events)

theorem entries_of_calls {e e' : Engine} (h : e'.calls = e.calls) : e'.entries = e.entries := by
  unfold entries
  rw [h]

theorem Move.starts {deed : Deed} {e e' : Engine} (h : Move deed e e') {n : Nat}
    {batch : ExecutionBatch} (hentered : (n, batch) ∈ e'.entries) :
    (n, batch) ∈ e.entries ∨ e.Starts n batch := by
  cases h with
  | schedule | close | directory | stops | addStats | addServer | server | addAllocator
  | useAllocator | enroll | awaitSlot | turn | dropResponse | ignore => exact .inl hentered
  | create _ config version polled =>
      have hsame : (e.record (.create config version polled)).entries = e.entries := by
        simp [entries, record]
      rw [hsame] at hentered
      exact .inl hentered
  | takeSlot _ e' m hm htake =>
      rcases takeSlot?_eq_some htake with ⟨free, rfl⟩
      exact .inl hentered
  | gatherFails _ m failure hm hgather =>
      rw [entries_of_calls (spares_respond e m _).calls] at hentered
      exact .inl hentered
  | allocateFails _ m failure a events hm hallocate =>
      rw [entries_of_calls (spares_respond _ m _).calls] at hentered
      exact .inl hentered
  | unwind _ m slots a events hm hallocate =>
      rw [entries_of_calls (spares_giveUp (e.forfeit m slots a events) m).calls] at hentered
      exact .inl hentered
  | enter _ m inputs slots a events hm hgather hallocate =>
      rw [entries_enterBackend] at hentered
      rcases List.mem_append.1 hentered with hold | hnew
      · exact .inl hold
      · cases List.mem_singleton.1 hnew
        exact .inr ⟨hm, rfl, rfl, rfl, hgather, a, events, hallocate⟩
  | leave _ m held next result slots hm hnext =>
      have hcalls : (e.leaveBackend m result slots).calls = e.calls :=
        (spares_respond (e.takeSlots m result slots) m _).calls
      rw [entries_of_calls hcalls] at hentered
      exact .inl hentered
  | cancel _ m hm =>
      rw [entries_of_calls (spares_giveUp e m).calls] at hentered
      exact .inl hentered
  | comeBack _ m hm =>
      rw [entries_of_calls (spares_comeBack e m).calls] at hentered
      exact .inl hentered

/-- A batch that has been handed over in the meantime has been put together in the meantime. -/
theorem Moves.starts {e e' : Engine} (h : Moves also e e') {n : Nat} {batch : ExecutionBatch}
    (hold : (n, batch) ∉ e.entries) (hentered : (n, batch) ∈ e'.entries) :
    exists start : Engine, Moves also e start ∧ Moves also start e' ∧ start.Starts n batch := by
  induction h with
  | refl => exact absurd hentered hold
  | tail hmoves hlast ih =>
      rename_i middle last
      have hone : Moves also middle last := Relation.ReflTransGen.single hlast
      rcases hlast with ⟨deed, _, hmove⟩
      rcases hmove.starts hentered with hbefore | hstarts
      · rcases ih hbefore with ⟨start, hstart, hrest, hstarts⟩
        exact ⟨start, hstart, hrest.trans hone, hstarts⟩
      · exact ⟨middle, hmoves, hone, hstarts⟩

/-!
# What is put together

A request that has been accepted is the one that was prepared, and no backend has its batch yet.
-/

/-- A batch that is put together for what was prepared from a provider is the batch of this
provider. -/
theorem Starts.isFor {e : Engine} {n : Nat} {batch : ExecutionBatch} (h : e.Starts n batch)
    {p : Provider} {changes : List Provider.Edit} {registry : Registry} (hfits : p.outline.Fits)
    (hremembers : p.Remembers changes)
    (hprepare : PreparedRequest.prepare registry p = .ok (e.submission n).request) :
    batch.IsFor p.model p.header changes registry e.directory
      (e.memory (e.submission n).server).allocator.kind.isRegular := by
  rcases PreparedRequest.prepare_eq_ok hprepare with ⟨_, _, _, hmodel, hbatch⟩
  rcases Execution.gather_eq_ok hfits hremembers hprepare h.gathered with ⟨hdeclared, hdata⟩
  rcases h.allocated with ⟨a, events, hallocate⟩
  rcases Execution.slots_eq_made hfits hprepare hallocate with ⟨hrequested, hslots⟩
  constructor
  · rw [h.model, hmodel]
  · rw [h.version, hmodel]
  · rw [h.batchSize, hbatch]
  · exact hdeclared
  · exact hdata
  · exact hrequested
  · exact hslots

theorem submit_enrolled {e : Engine} (he : e.Reachable) {server callback n : Nat} {p : Provider}
    (h : (e.submit server p callback).1 = .ok n) :
    n < (e.submit server p callback).2.submissions.length ∧
      PreparedRequest.prepare (e.server server).registry p =
        .ok ((e.submit server p callback).2.submission n).request ∧
      ((e.submit server p callback).2.submission n).server = server ∧
      forall batch : ExecutionBatch, (n, batch) ∉ (e.submit server p callback).2.entries := by
  rcases submit_eq_ok h with ⟨request, hprepare, rfl, hsubmit⟩
  have hspares := spares_launch (e.countIn server) server callback request
  have hlength := hspares.submissions
  have hlasts := hspares.submission e.submissions.length
  have hentries := entries_of_calls hspares.calls
  have hcount : (e.countIn server).submissions.length = e.submissions.length := rfl
  rw [hsubmit, hlength, hentries]
  rw [submission_enroll, if_pos hcount.symm] at hlasts
  refine ⟨?_, ?_, ?_, ?_⟩
  · simp [enroll, hcount]
  · rw [hlasts]
    exact hprepare
  · rw [hlasts]
  · intro batch hentered
    exact Nat.lt_irrefl _ (he.carried.entered _ batch hentered).1

/-!
# Requests of a run

Each request of a run has been prepared for an attempt of the run to submit it.
-/

theorem length_submissions {e e' : Engine} {more : List Nat}
    (h : e'.callbacks = e.callbacks ++ more) :
    e'.submissions.length = e.submissions.length + more.length := by
  simpa [callbacks] using congrArg List.length h

theorem submit_of_reached (ops : List Operation) {n : Nat}
    (hn : n < (reached ops).submissions.length) :
    exists (earlier later : List Operation) (server callback : Nat) (p : Provider),
      ops = earlier ++ .submit server p callback :: later ∧
      PreparedRequest.prepare ((reached earlier).server server).registry p =
        .ok ((reached ops).submission n).request := by
  induction ops using List.reverseRecOn with
  | nil => cases hn
  | append_singleton ops op ih =>
      have hreachable := reachable_reached ops
      have hmoves : Moves (fun _ => True) (reached ops) ((reached ops).operate op) :=
        moves_operate hreachable.sound op fun _ _ => trivial
      rw [reached_concat] at hn ⊢
      by_cases hlt : n < (reached ops).submissions.length
      · rcases ih hlt with ⟨earlier, later, server, callback, p, hops, hprepare⟩
        refine ⟨earlier, later ++ [op], server, callback, p, ?_, ?_⟩
        · rw [hops, List.append_assoc, List.cons_append]
        · rw [(hmoves.keepsRequests n hlt).2]
          exact hprepare
      · -- Only a request that is accepted is new.
        rcases callbacks_operate hreachable.sound op with ⟨new, hsublist, hcallbacks⟩
        have hlength := length_submissions hcallbacks
        cases op with
        | submit server p callback =>
            have hn' : n < ((reached ops).submit server p callback).2.submissions.length := hn
            cases hsubmit : ((reached ops).submit server p callback).1 with
            | error failure =>
                have hsame : ((reached ops).submit server p callback).2.callbacks =
                    (reached ops).callbacks ++ [] := by
                  rw [List.append_nil]
                  exact submit_error hsubmit
                rw [length_submissions hsame] at hn'
                exact absurd hn' hlt
            | ok m =>
                have hm := (submit_ok hsubmit).1
                have hself : n = m := by
                  rw [length_submissions (submit_ok hsubmit).2, List.length_singleton] at hn'
                  omega
                rw [hself]
                exact ⟨ops, [], server, callback, p, rfl, (submit_enrolled hreachable hsubmit).2.1⟩
        | _ =>
            have hnone : new = [] := List.sublist_nil.1 hsublist
            rw [hlength, hnone] at hn
            exact absurd hn hlt

end Engine

end InferenceEngine
