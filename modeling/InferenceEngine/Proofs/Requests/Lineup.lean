import InferenceEngine.Proofs.Requests.Asking

/-!
# Requests line up

Requests join the queue in the order in which they are submitted, and none of them goes ahead before
its job has been run for the first time.  So where it is always the first job that is run, requests
ask for slots in the order in which they were submitted.
-/

namespace InferenceEngine

namespace Engine

variable {e e' : Engine} {n : Nat}

/-- The jobs in the queue are those of requests that are there, and the requests that have not asked
for a slot stand in the order of their submission. -/
structure Lineup (e : Engine) : Prop where
  known : forall n : Nat, .request n ∈ e.queue -> n < e.submissions.length
  ordered : e.newcomers.Pairwise (· < ·)

theorem lineup_empty : empty.Lineup where
  known n hn := by cases hn
  ordered := List.Pairwise.nil

theorem Defers.lineup (h : e.Defers e') (k : e.Lineup) : e'.Lineup where
  known n hn := by
    rw [h.submissions]
    rcases h.known n hn with hqueue | hlt
    · exact k.known n hqueue
    · exact hlt
  ordered := k.ordered.sublist h.newcomers

theorem Attends.lineup (h : Attends n e e') (k : e.Lineup) : e'.Lineup where
  known m hm := by
    rw [h.submissions]
    rcases h.known hm with hqueue | hlt
    · exact k.known m hqueue
    · exact hlt
  ordered := k.ordered.sublist h.newcomers

theorem newcomers_enroll (h : e.Lineup) (server callback : Nat) (request : PreparedRequest) :
    ((e.countIn server).enroll server request callback).newcomers = e.newcomers := by
  unfold newcomers
  apply List.filter_congr
  intro n hn
  have hlt := h.known n (Job.mem_request?.1 hn)
  have hne : n ≠ (e.countIn server).submissions.length := Nat.ne_of_lt hlt
  rw [submission_enroll, if_neg hne]
  rfl

theorem Lineup.enroll (h : e.Lineup) (server callback : Nat) (request : PreparedRequest) :
    ((e.countIn server).enroll server request callback).Lineup where
  known n hn := by
    have hlength : ((e.countIn server).enroll server request callback).submissions.length =
        e.submissions.length + 1 := by simp [Engine.enroll, countIn, modifyServer]
    rw [hlength]
    exact Nat.lt_succ_of_lt (h.known n hn)
  ordered := by
    rw [newcomers_enroll h]
    exact h.ordered

theorem Lineup.join (h : e.Lineup) (hn : n < e.submissions.length)
    (hlast : forall m : Nat, m ∈ e.newcomers -> m < n) : (e.start [.request n]).Lineup where
  known m hm := by
    rcases mem_queue_start.1 hm with hold | hnew
    · exact h.known m hold
    · cases List.mem_singleton.1 hnew
      exact hn
  ordered := by
    have hjoined : (e.start [.request n]).newcomers =
        e.newcomers ++ [n].filter fun m => (e.submission m).phase.rank = 0 := by
      unfold newcomers Engine.queue
      simp only [start, List.filterMap_append, List.filter_append, List.append_assoc]
      rfl
    rw [hjoined]
    apply List.pairwise_append.2
    refine ⟨h.ordered, (List.pairwise_singleton _ n).filter _, ?_⟩
    intro m hm j hj
    rw [List.mem_singleton.1 (List.mem_filter.1 hj).1]
    exact hlast m hm

theorem Lineup.submit (h : e.Lineup) (hlined : e.Lined) (server callback : Nat)
    (provider : Provider) : (e.submit server provider callback).2.Lineup := by
  unfold Engine.submit
  split
  · exact h
  · split
    · exact h
    · rename_i hstate
      have hstate : (e.server server).state = .serving := Classical.not_not.1 hstate
      cases hprepare : PreparedRequest.prepare (e.server server).registry provider with
      | error failure =>
          exact (defers_refuse e server).lineup h
      | ok request =>
          have henrolled := h.enroll server callback request
          have hreported : Lineup (((e.countIn server).enroll server request callback).report
              [.requestAccepted request.id request.model.config.name]) :=
            ⟨henrolled.known, henrolled.ordered⟩
          have hlength : (((e.countIn server).enroll server request callback).report
              [.requestAccepted request.id request.model.config.name]).submissions.length =
                e.submissions.length + 1 := by
            simp [Engine.enroll, Engine.report, countIn, modifyServer]
          simp only [launch]
          split
          · apply hreported.join
            · rw [hlength]
              exact Nat.lt_succ_self _
            · intro m hm
              have hbefore : m ∈ ((e.countIn server).enroll server request callback).newcomers := hm
              rw [newcomers_enroll h] at hbefore
              exact h.known m (mem_newcomers.1 hbefore).1
          · exact (defers_cancel (hlined.letIn hstate hprepare callback) _).lineup hreported

theorem Lineup.operate (h : e.Lineup) (hlined : e.Lined) (op : Operation) :
    (e.operate op).Lineup := by
  cases hop : op.isQuiet with
  | true => exact (defers_operate hlined hop).lineup h
  | false =>
      cases op with
      | submit server provider callback => exact h.submit hlined server callback provider
      | runAt position =>
          have hdequeued := (defers_dequeue e position).lineup h
          simp only [Engine.operate, Engine.runAt]
          split
          · exact h
          · rename_i job hjob
            cases job with
            | request x =>
                exact (attends_runRequest (hlined.dequeue position) x).lineup hdequeued
            | stop x => exact (manages_runStop _ x).defers.lineup hdequeued
      | _ => cases hop

theorem lineup_reached (ops : List Operation) : (reached ops).Lineup := by
  induction ops using List.reverseRecOn with
  | nil => exact lineup_empty
  | append_singleton ops op ih =>
      rw [reached_concat]
      exact ih.operate (reachable_reached ops).lined op

/-- Who stands first in the queue has been submitted before all others that have not asked. -/
theorem Lineup.first (h : e.Lineup) {rest : List Job} (hqueue : e.queue = .request n :: rest)
    (hn : (e.submission n).phase = .accepted) {m : Nat} (hm : m ∈ e.newcomers) : n ≤ m := by
  have hfirst : e.newcomers = n :: (rest.filterMap Job.request?).filter fun m =>
      (e.submission m).phase.rank = 0 := by
    unfold newcomers
    rw [hqueue]
    simp only [List.filterMap_cons, Job.request?, List.filter_cons]
    rw [hn]
    rfl
  have hordered := h.ordered
  rw [hfirst] at hordered hm
  rcases List.mem_cons.1 hm with rfl | hrest
  · exact Nat.le_refl m
  · exact Nat.le_of_lt ((List.pairwise_cons.1 hordered).1 m hrest)

end Engine

end InferenceEngine
