import InferenceEngine.Proofs.Runs.Progress

/-!
# Schedules

A client that waits lets jobs run in the order of the queue, and lets the clock jump once there is
nothing to run.  Whatever it waits for, what happens meanwhile is a run, and at its end there is no
job left.
-/

namespace InferenceEngine

namespace Engine

def LeadsTo (e e' : Engine) : Prop := exists ops : List Operation, e' = e.after ops

theorem LeadsTo.refl (e : Engine) : e.LeadsTo e := ⟨[], rfl⟩

theorem LeadsTo.trans {e middle e' : Engine} (h : e.LeadsTo middle) (k : middle.LeadsTo e') :
    e.LeadsTo e' := by
  rcases h with ⟨ops, rfl⟩
  rcases k with ⟨more, rfl⟩
  exact ⟨ops ++ more, (after_append e ops more).symm⟩

theorem leadsTo_operate (e : Engine) (op : Operation) : e.LeadsTo (e.operate op) := ⟨[op], rfl⟩

theorem LeadsTo.reached {ops : List Operation} {e : Engine} (h : (reached ops).LeadsTo e) :
    exists more : List Operation, e = Engine.reached (ops ++ more) := by
  rcases h with ⟨more, rfl⟩
  exact ⟨more, (after_append empty ops more).symm⟩

/-!
# The queue

Whoever waits picks the first job of the queue each time.
-/

theorem leadsTo_settleWithin (fuel : Nat) (e : Engine) : e.LeadsTo (settleWithin fuel e) := by
  induction fuel generalizing e with
  | zero => exact LeadsTo.refl e
  | succ fuel ih =>
      unfold settleWithin
      split
      · exact LeadsTo.refl e
      · exact (leadsTo_operate e (.runAt 0)).trans (ih _)

theorem leadsTo_settle (e : Engine) : e.LeadsTo e.settle := leadsTo_settleWithin e.work e

theorem settleWithin_eq_runTurns (fuel : Nat) (e : Engine) :
    settleWithin fuel e = runTurns (fun _ => 0) fuel e := by
  induction fuel generalizing e with
  | zero => rfl
  | succ fuel ih =>
      unfold settleWithin
      split
      · rename_i hqueue
        exact (runTurns_of_queue hqueue _ _).symm
      · exact ih _

theorem queue_settle {e : Engine} (h : e.Driven none []) (hreachable : e.Reachable) :
    e.settle.queue = [] := by
  have hpick : Picks fun _ => 0 := fun e hqueue => List.length_pos_iff.2 hqueue
  unfold settle
  rw [settleWithin_eq_runTurns]
  exact (h.runTurns hreachable hpick (Nat.le_refl _)).2

/-!
# The clock

The time passes as if the seconds up to the deadline went by.
-/

theorem leadsTo_wake (e : Engine) (calls : List Nat) : e.LeadsTo (e.wake (calls.map .stop)) := by
  induction calls generalizing e with
  | nil =>
      have hsame : e.wake ([].map .stop) = e := by
        simp [wake]
      rw [hsame]
      exact LeadsTo.refl e
  | cons call rest ih =>
      have hsplit : e.wake ((call :: rest).map .stop) =
          (e.wake [.stop call]).wake (rest.map .stop) := by
        simp [wake]
      rw [hsplit]
      exact (leadsTo_operate e (.wakeStop call)).trans (ih _)

theorem leadsTo_pass (e : Engine) (deadline : Nat) : e.LeadsTo (e.pass deadline) := by
  have htick := leadsTo_operate e (.tick (max e.clock deadline - e.clock) e.readings)
  have hclock : e.clock + (max e.clock deadline - e.clock) = max e.clock deadline := by omega
  simp only [operate, hclock] at htick
  exact htick

theorem leadsTo_rouse (e : Engine) (isAhead : Nat -> Bool) : e.LeadsTo (e.rouse isAhead) :=
  leadsTo_wake e _

theorem leadsTo_jump (e : Engine) (isAhead : Nat -> Bool) : e.LeadsTo (e.jump isAhead) := by
  unfold jump
  split
  · exact LeadsTo.refl e
  · exact ((leadsTo_pass e _).trans (leadsTo_rouse _ isAhead)).trans (leadsTo_settle _)

theorem leadsTo_awaitStopWithin (isAhead : Nat -> Bool) (n fuel : Nat) (e : Engine) :
    e.LeadsTo (awaitStopWithin isAhead n fuel e) := by
  induction fuel generalizing e with
  | zero => exact LeadsTo.refl e
  | succ fuel ih =>
      unfold awaitStopWithin
      split
      · exact (leadsTo_jump e isAhead).trans (ih _)
      · exact LeadsTo.refl e

theorem leadsTo_awaitStop (e : Engine) (isAhead : Nat -> Bool) (n : Nat) :
    e.LeadsTo (e.awaitStop isAhead n) :=
  leadsTo_awaitStopWithin isAhead n e.stops.length e

/-!
# Calls of a client
-/

theorem leadsTo_stop (e : Engine) (server : Nat) : e.LeadsTo (e.stop server).2 := by
  have hcalled : e.LeadsTo (e.settle.operate (.callStop server)) :=
    (leadsTo_settle e).trans (leadsTo_operate _ _)
  exact (hcalled.trans (leadsTo_awaitStop _ _ _)).trans (leadsTo_settle _)

theorem leadsTo_beginStop (e : Engine) (server : Nat) : e.LeadsTo (e.beginStop server).2 := by
  have hstarted : e.LeadsTo (e.settle.operate (.beginStop server)) :=
    (leadsTo_settle e).trans (leadsTo_operate _ _)
  exact hstarted.trans (leadsTo_settle _)

theorem leadsTo_joinStop (e : Engine) (call : Nat) : e.LeadsTo (e.joinStop call).2 :=
  ((leadsTo_settle e).trans (leadsTo_awaitStop _ _ _)).trans (leadsTo_settle _)

end Engine

end InferenceEngine
