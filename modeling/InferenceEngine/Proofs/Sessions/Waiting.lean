import InferenceEngine.Proofs.Runs.Attends
import InferenceEngine.Proofs.Servers.Stops
import InferenceEngine.Proofs.Sessions.Schedules

/-!
# Waiting for a stop

A client that stops a server waits until its own call has ended.  Each jump of the clock ends a call
at least, since the calls whose time is over are woken then and look at their servers once more.  So
the jumps that are allowed for are enough, and the client is told what its call has come to.
-/

namespace InferenceEngine

/-- Whether a stop call ends or begins to wait when it looks at its server next. -/
def StopCall.isDue (c : StopCall) (clock : Nat) : Bool :=
  match c.phase with
  | .pending => true
  | .draining deadline => deadline ≤ clock
  | _ => false

/-- What becomes of a stop call that is not given up. -/
inductive StopPhase.GoesOn : StopPhase -> StopPhase -> Prop where
  | same (p : StopPhase) : GoesOn p p
  | begins (deadline : Nat) : GoesOn .pending (.draining deadline)
  | endsAtOnce (result : Except Failure Unit) : GoesOn .pending (.finished result)
  | ends (deadline : Nat) (result : Except Failure Unit) :
      GoesOn (.draining deadline) (.finished result)

theorem StopPhase.GoesOn.trans {p middle p' : StopPhase} (h : p.GoesOn middle)
    (k : middle.GoesOn p') : p.GoesOn p' := by
  cases h with
  | same => exact k
  | begins deadline =>
      cases k with
      | same => exact .begins deadline
      | ends _ result => exact .endsAtOnce result
  | endsAtOnce result =>
      cases k
      exact .endsAtOnce result
  | ends deadline result =>
      cases k
      exact .ends deadline result

theorem StopCall.isRunning_of_goesOn {c c' : StopCall} (h : c.phase.GoesOn c'.phase)
    (hrunning : c'.isRunning = true) : c.isRunning = true := by
  unfold StopCall.isRunning at hrunning ⊢
  cases hphase : c.phase with
  | pending | draining => rfl
  | finished | abandoned =>
      rw [hphase] at h
      generalize c'.phase = p' at h hrunning
      cases h
      exact hrunning

namespace Engine

def Rouses (e : Engine) (n : Nat) : Prop :=
  (e.stopCall n).isDue e.clock = true -> Job.stop n ∈ e.queue

/-- What jobs that have their turns do to the calls that stop servers. -/
structure TakesTurns (e e' : Engine) : Prop where
  clock : e'.clock = e.clock
  length : e'.stops.length = e.stops.length
  phase : forall n : Nat, (e.stopCall n).phase.GoesOn (e'.stopCall n).phase
  rouses : forall n : Nat, e.Rouses n -> e'.Rouses n

theorem TakesTurns.refl (e : Engine) : e.TakesTurns e :=
  ⟨rfl, rfl, fun _ => .same _, fun _ h => h⟩

theorem TakesTurns.trans {e middle e' : Engine} (h : e.TakesTurns middle)
    (k : middle.TakesTurns e') : e.TakesTurns e' where
  clock := k.clock.trans h.clock
  length := k.length.trans h.length
  phase n := (h.phase n).trans (k.phase n)
  rouses n hn := k.rouses n (h.rouses n hn)

/-!
# Turns

A stop call that looks at its server goes on, and is not due any more.
-/

theorem goesOn_runStop (e : Engine) (n : Nat) :
    (e.stopCall n).phase.GoesOn ((e.runStop n).stopCall n).phase ∧
      ((e.runStop n).stopCall n).isDue e.clock = false := by
  by_cases hn : n < e.stops.length
  · have hspec := runStop_spec hn
    unfold StopCall.isDue
    cases hafter : ((e.runStop n).stopCall n).phase with
    | pending =>
        rw [hafter] at hspec
        exact hspec.elim
    | abandoned =>
        rw [hafter] at hspec
        rw [hspec]
        exact ⟨.same _, rfl⟩
    | draining deadline =>
        rw [hafter] at hspec
        refine ⟨?_, decide_eq_false (Nat.not_le_of_lt hspec.2)⟩
        rcases hspec.1 with hwaits | ⟨hpending, _⟩
        · rw [hwaits]
          exact .same _
        · rw [hpending]
          exact .begins deadline
    | finished result =>
        rw [hafter] at hspec
        refine ⟨?_, rfl⟩
        rcases hspec with hended | ⟨hpending, _⟩ | ⟨deadline, hwaits | ⟨hpending, _⟩, _⟩
        · rw [hended]
          exact .same _
        · rw [hpending]
          exact .endsAtOnce result
        · rw [hwaits]
          exact .ends deadline result
        · rw [hpending]
          exact .endsAtOnce result
  · have hnone : e.stopCall n = default := by
      simp [stopCall, Nat.le_of_not_lt hn]
    rw [runStop_of_not_running (by rw [hnone]; rfl), hnone]
    exact ⟨.same _, rfl⟩

theorem takesTurns_runAt {e : Engine} (h : e.Lined) (position : Nat) :
    e.TakesTurns (e.runAt position) := by
  unfold runAt
  split
  · exact TakesTurns.refl e
  · rename_i job hjob
    have hclock : (e.dequeue position).clock = e.clock := by
      rcases dequeue_eq e position with ⟨woken, started, hdequeue⟩
      rw [hdequeue]
    have hcall := stopCall_of_stops (stops_dequeue e position)
    have hstays : forall n : Nat, Job.stop n ∈ e.queue -> Job.stop n ≠ job ->
        Job.stop n ∈ (e.dequeue position).queue := by
      intro n hn hne
      rw [queue_dequeue]
      exact mem_of_mem_eraseIdx hn hjob hne
    cases job with
    | request m =>
        have hexecutes := executes_runRequest (e.dequeue position) m
        have hlined : (e.dequeue position).Lined := by
          rcases dequeue_eq e position with ⟨woken, started, hdequeue⟩
          rw [hdequeue]
          exact h.of_parts rfl rfl
        have hattends := attends_runRequest hlined m
        have hsame := fun n : Nat => (stopCall_of_stops hexecutes.stops n).trans (hcall n)
        have hkept : ((e.dequeue position).runRequest m).clock = e.clock :=
          hexecutes.clock.trans hclock
        refine ⟨hkept, ?_, ?_, ?_⟩
        · exact (congrArg List.length hexecutes.stops).trans
            (congrArg List.length (stops_dequeue e position))
        · intro n
          show (e.stopCall n).phase.GoesOn (((e.dequeue position).runRequest m).stopCall n).phase
          rw [hsame]
          exact .same _
        · intro n hn hdue
          have hold := hstays n (hn (by rw [← hsame n, ← hkept]; exact hdue)) (by simp)
          rcases hattends.woken with ⟨jobs, hwoken, _⟩
          show Job.stop n ∈ ((e.dequeue position).runRequest m).woken ++
            ((e.dequeue position).runRequest m).started
          rw [hwoken, hattends.started]
          rcases List.mem_append.1 hold with hw | hs
          · exact List.mem_append_left _ (List.mem_append_left _ hw)
          · exact List.mem_append_right _ hs
    | stop m =>
        have hmanages := manages_runStop (e.dequeue position) m
        have hkept : ((e.dequeue position).runStop m).clock = e.clock :=
          hmanages.clock.trans hclock
        have hlook := goesOn_runStop (e.dequeue position) m
        refine ⟨hkept, ?_, ?_, ?_⟩
        · exact (length_stops_runStop _ m).trans (congrArg List.length (stops_dequeue e position))
        · intro n
          show (e.stopCall n).phase.GoesOn (((e.dequeue position).runStop m).stopCall n).phase
          by_cases hn : n = m
          · rw [hn, ← hcall]
            exact hlook.1
          · rw [stopCall_runStop_of_ne _ hn, hcall]
            exact .same _
        · intro n hn hdue
          have hdue' : (((e.dequeue position).runStop m).stopCall n).isDue e.clock = true := by
            rw [← hkept]
            exact hdue
          by_cases hself : n = m
          · rw [hself, ← hclock, hlook.2] at hdue'
            cases hdue'
          · rw [stopCall_runStop_of_ne _ hself, hcall] at hdue'
            have hold := hstays n (hn hdue') (by simp [hself])
            show Job.stop n ∈ ((e.dequeue position).runStop m).woken ++
              ((e.dequeue position).runStop m).started
            rw [hmanages.woken, hmanages.started]
            exact hold

theorem takesTurns_settleWithin {e : Engine} (h : e.Reachable) (fuel : Nat) :
    e.TakesTurns (settleWithin fuel e) := by
  induction fuel generalizing e with
  | zero => exact TakesTurns.refl e
  | succ fuel ih =>
      unfold settleWithin
      split
      · exact TakesTurns.refl e
      · have hmoves : Moves (fun _ => True) e (e.runAt 0) :=
          moves_runAt e 0 (fun _ => trivial) fun _ => trivial
        exact (takesTurns_runAt h.lined 0).trans (ih (h.moves hmoves))

/-!
# Runs to the end of the queue

Once there is no job left, a call that had one is not due.
-/

/-- Whether an engine is one that some operations lead to from the beginning. -/
def IsReached (e : Engine) : Prop := empty.LeadsTo e

theorem IsReached.leadsTo {e e' : Engine} (h : e.IsReached) (k : e.LeadsTo e') : e'.IsReached :=
  h.trans k

theorem IsReached.reachable {e : Engine} (h : e.IsReached) : e.Reachable := by
  rcases h with ⟨ops, rfl⟩
  exact reachable_reached ops

theorem IsReached.takesTurns {e : Engine} (h : e.IsReached) : e.TakesTurns e.settle :=
  takesTurns_settleWithin h.reachable e.work

theorem IsReached.not_due {e : Engine} (h : e.IsReached) {n : Nat} (hn : e.Rouses n) :
    (e.settle.stopCall n).isDue e.settle.clock = false := by
  have hqueue : e.settle.queue = [] := by
    have hreachable := h.reachable
    rcases h with ⟨ops, rfl⟩
    exact queue_settle (driven_reached ops) hreachable
  apply Bool.eq_false_iff.2
  intro hdue
  have hjob := h.takesTurns.rouses n hn hdue
  rw [hqueue] at hjob
  cases hjob

/-!
# Jumps of the clock

If a call waits, there is a deadline to jump to, and a call that waits for it.
-/

theorem lt_of_isRunning {e : Engine} {n : Nat} (h : (e.stopCall n).isRunning = true) :
    n < e.stops.length := by
  rcases Nat.lt_or_ge n e.stops.length with hlt | hge
  · exact hlt
  · have hdefault : e.stopCall n = default := by
      simp [stopCall, hge]
    rw [hdefault] at h
    cases h

/-- How many calls that stop servers have neither ended nor been given up. -/
def runningStops (e : Engine) : Nat :=
  (List.range e.stops.length).countP fun n => (e.stopCall n).isRunning

theorem runningStops_lt {e e' : Engine} (hlength : e'.stops.length = e.stops.length)
    (hphase : forall n : Nat, (e.stopCall n).phase.GoesOn (e'.stopCall n).phase) {n : Nat}
    (hn : n < e.stops.length) (hrunning : (e.stopCall n).isRunning = true)
    (hended : (e'.stopCall n).isRunning = false) : e'.runningStops < e.runningStops := by
  have hremoved := countP_range_remove (p := fun m => (e.stopCall m).isRunning)
    (q := fun m => (e.stopCall m).isRunning && m ≠ n) hn hrunning (by simp)
    (fun m _ hm => by simp [hm])
  have hle : e'.runningStops ≤ (List.range e.stops.length).countP fun m =>
      (e.stopCall m).isRunning && m ≠ n := by
    unfold runningStops
    rw [hlength]
    apply List.countP_mono_left
    intro m _ hm
    have hne : m ≠ n := by
      rintro rfl
      rw [hended] at hm
      cases hm
    simp [StopCall.isRunning_of_goesOn (hphase m) hm, hne]
  unfold runningStops at hle ⊢
  omega

theorem nextDeadline?_of_draining {e : Engine} {n deadline : Nat}
    (h : (e.stopCall n).phase = .draining deadline) : exists (next m : Nat),
      e.nextDeadline? = some next ∧ m < e.stops.length ∧
        (e.stopCall m).phase = .draining next := by
  have hn : n < e.stops.length := by
    apply lt_of_isRunning
    unfold StopCall.isRunning
    rw [h]
  have hmem : deadline ∈ e.stops.filterMap StopCall.deadline? := by
    refine List.mem_filterMap.2 ⟨e.stopCall n, ?_, ?_⟩
    · simp [stopCall, hn]
    · simp [StopCall.deadline?, h]
  rcases Option.isSome_iff_exists.1 (List.isSome_min?_of_mem hmem) with ⟨next, hnext⟩
  rcases List.mem_filterMap.1 (List.min?_mem hnext) with ⟨c, hc, hdeadline⟩
  rcases List.mem_iff_getElem.1 hc with ⟨m, hm, rfl⟩
  refine ⟨next, m, hnext, hm, ?_⟩
  have hcall : e.stopCall m = e.stops[m] := by
    simp [stopCall, hm]
  rw [hcall]
  unfold StopCall.deadline? at hdeadline
  split at hdeadline
  · rename_i d hphase
    cases hdeadline
    exact hphase
  · cases hdeadline

theorem rouses_rouse {e : Engine} {n deadline : Nat} (hn : n < e.stops.length)
    (h : (e.stopCall n).phase = .draining deadline) (hdeadline : deadline ≤ e.clock)
    (isAhead : Nat -> Bool) : (e.rouse isAhead).Rouses n := by
  have hoverdue : n ∈ e.overdue := by
    refine List.mem_filter.2 ⟨List.mem_range.2 hn, ?_⟩
    simp [StopCall.deadline?, h, hdeadline]
  intro _
  apply mem_queue_wake.2
  right
  apply List.mem_map_of_mem
  cases hahead : isAhead n <;> simp [hoverdue, hahead]

theorem jump_spec {e : Engine} (h : e.IsReached) (isAhead : Nat -> Bool) {n deadline : Nat}
    (hn : (e.stopCall n).phase = .draining deadline) :
    (e.jump isAhead).runningStops < e.runningStops ∧
      forall m : Nat, (e.stopCall m).phase.GoesOn ((e.jump isAhead).stopCall m).phase := by
  rcases nextDeadline?_of_draining hn with ⟨next, m, hnext, hm, hphase⟩
  have hjump : e.jump isAhead = ((e.pass next).rouse isAhead).settle := by
    simp only [jump, hnext]
  have hroused : ((e.pass next).rouse isAhead).IsReached :=
    (h.leadsTo (leadsTo_pass e next)).leadsTo (leadsTo_rouse _ isAhead)
  have hturns := hroused.takesTurns
  have hclock : next ≤ (e.pass next).clock := Nat.le_max_right _ _
  have hnotDue := hroused.not_due (rouses_rouse (e := e.pass next) hm hphase hclock isAhead)
  have hgoesOn : (StopPhase.draining next).GoesOn
      (((e.pass next).rouse isAhead).settle.stopCall m).phase := by
    rw [← hphase]
    exact hturns.phase m
  have hrunning : (e.stopCall m).isRunning = true := by
    unfold StopCall.isRunning
    rw [hphase]
  have hended : (((e.pass next).rouse isAhead).settle.stopCall m).isRunning = false := by
    rw [hturns.clock] at hnotDue
    unfold StopCall.isDue at hnotDue
    unfold StopCall.isRunning
    generalize (((e.pass next).rouse isAhead).settle.stopCall m).phase = p at hgoesOn hnotDue
    cases hgoesOn with
    | same => exact absurd hclock (of_decide_eq_false hnotDue)
    | ends _ result => rfl
  rw [hjump]
  exact ⟨runningStops_lt hturns.length hturns.phase hm hrunning hended, hturns.phase⟩

/-!
# Calls that are waited for

A client that waits for a call which has begun is told the result of that call.
-/

theorem awaitStopWithin_spec {e : Engine} (h : e.IsReached) (isAhead : Nat -> Bool) {n fuel : Nat}
    (hbegun : (e.stopCall n).phase ≠ .pending) (hfuel : e.runningStops ≤ fuel) :
    ((awaitStopWithin isAhead n fuel e).stopCall n).isRunning = false ∧
      (e.stopCall n).phase.GoesOn ((awaitStopWithin isAhead n fuel e).stopCall n).phase := by
  induction fuel generalizing e with
  | zero =>
      refine ⟨?_, .same _⟩
      apply Bool.eq_false_iff.2
      intro hrunning
      have hnone := List.countP_eq_zero.1 (Nat.le_zero.1 hfuel)
      exact hnone n (List.mem_range.2 (lt_of_isRunning hrunning)) hrunning
  | succ fuel ih =>
      unfold awaitStopWithin
      split
      · rename_i hrunning
        cases hphase : (e.stopCall n).phase with
        | pending => exact absurd hphase hbegun
        | finished | abandoned =>
            unfold StopCall.isRunning at hrunning
            rw [hphase] at hrunning
            cases hrunning
        | draining deadline =>
            rcases jump_spec h isAhead hphase with ⟨hless, hgoesOn⟩
            have hnext := hgoesOn n
            rw [hphase] at hnext
            have hstill : ((e.jump isAhead).stopCall n).phase ≠ .pending := by
              intro hpending
              rw [hpending] at hnext
              cases hnext
            rcases ih (h.leadsTo (leadsTo_jump e isAhead)) hstill (by omega) with ⟨hended, hlast⟩
            exact ⟨hended, hnext.trans hlast⟩
      · rename_i hended
        exact ⟨Bool.eq_false_iff.2 hended, .same _⟩

theorem awaitStop_spec {e : Engine} (h : e.IsReached) (isAhead : Nat -> Bool) {n : Nat}
    (hbegun : (e.stopCall n).phase ≠ .pending) :
    ((e.awaitStop isAhead n).stopCall n).isRunning = false ∧
      (e.stopCall n).phase.GoesOn ((e.awaitStop isAhead n).stopCall n).phase := by
  apply awaitStopWithin_spec h isAhead hbegun
  unfold runningStops
  exact Nat.le_trans List.countP_le_length (Nat.le_of_eq List.length_range)

theorem finished_of_awaitStop {e : Engine} (h : e.IsReached) (isAhead : Nat -> Bool) {n : Nat}
    (hbegun : (e.stopCall n).phase ≠ .pending) (hkept : (e.stopCall n).phase ≠ .abandoned) :
    exists result : Except Failure Unit,
      ((e.awaitStop isAhead n).settle.stopCall n).phase = .finished result := by
  rcases awaitStop_spec h isAhead hbegun with ⟨hended, hgoesOn⟩
  have hlast := (h.leadsTo (leadsTo_awaitStop e isAhead n)).takesTurns.phase n
  cases hphase : ((e.awaitStop isAhead n).stopCall n).phase with
  | pending | draining =>
      unfold StopCall.isRunning at hended
      rw [hphase] at hended
      cases hended
  | abandoned =>
      rw [hphase] at hgoesOn
      generalize (e.stopCall n).phase = p at hgoesOn hkept
      cases hgoesOn
      exact absurd rfl hkept
  | finished result =>
      rw [hphase] at hlast
      refine ⟨result, ?_⟩
      generalize ((e.awaitStop isAhead n).settle.stopCall n).phase = p at hlast
      cases hlast
      rfl

theorem result_of_finished {e : Engine} {n : Nat} {result : Except Failure Unit}
    (h : (e.stopCall n).phase = .finished result) :
    (e.stopCall n).result?.getD (.ok ()) = result := by
  unfold StopCall.result?
  rw [h]
  rfl

theorem begun_runStop {e : Engine} {n : Nat} (h : (e.stopCall n).phase = .pending) :
    ((e.runStop n).stopCall n).phase ≠ .pending ∧
      ((e.runStop n).stopCall n).phase ≠ .abandoned := by
  have hlook := goesOn_runStop e n
  rw [h] at hlook
  unfold StopCall.isDue at hlook
  generalize ((e.runStop n).stopCall n).phase = p at hlook
  rcases hlook with ⟨hgoesOn, hnotDue⟩
  cases hgoesOn with
  | same => cases hnotDue
  | begins | endsAtOnce => exact ⟨by simp, by simp⟩

theorem stop_eq (e : Engine) (server : Nat) :
    e.stop server =
      (((((e.settle.callStop server).awaitStop (· == e.settle.stops.length)
          e.settle.stops.length).settle.stopCall e.settle.stops.length).result?.getD (.ok ())),
        ((e.settle.callStop server).awaitStop (· == e.settle.stops.length)
          e.settle.stops.length).settle) := rfl

theorem stop_finished {e : Engine} (h : e.IsReached) (server : Nat) :
    ((e.stop server).2.stopCall e.settle.stops.length).phase = .finished (e.stop server).1 := by
  have hcalled : (e.settle.callStop server).IsReached :=
    (h.leadsTo (leadsTo_settle e)).leadsTo (leadsTo_operate _ (.callStop server))
  have hadded : ((e.settle.addStop server).1.stopCall e.settle.stops.length).phase = .pending := by
    rw [stopCall_addStop, if_pos rfl]
  rcases begun_runStop hadded with ⟨hbegun, hkept⟩
  rcases finished_of_awaitStop hcalled (· == e.settle.stops.length) hbegun hkept with
    ⟨result, hresult⟩
  rw [stop_eq]
  dsimp only
  rw [result_of_finished hresult]
  exact hresult

theorem beginStop_begun {e : Engine} (h : e.IsReached) (server : Nat) :
    ((e.beginStop server).2.stopCall (e.beginStop server).1).phase ≠ .pending := by
  have hstarted : (e.settle.startStop server).IsReached :=
    (h.leadsTo (leadsTo_settle e)).leadsTo (leadsTo_operate _ (.beginStop server))
  have hrouses : (e.settle.startStop server).Rouses e.settle.stops.length :=
    fun _ => mem_queue_start.2 (.inr (List.mem_singleton_self _))
  have hnotDue := hstarted.not_due hrouses
  intro hpending
  unfold StopCall.isDue at hnotDue
  have hphase : ((e.settle.startStop server).settle.stopCall e.settle.stops.length).phase =
      .pending := hpending
  rw [hphase] at hnotDue
  cases hnotDue

theorem joinStop_finished {e : Engine} (h : e.IsReached) {call : Nat}
    (hbegun : (e.stopCall call).phase ≠ .pending) (hkept : (e.stopCall call).phase ≠ .abandoned) :
    ((e.joinStop call).2.stopCall call).phase = .finished (e.joinStop call).1 := by
  have hgoesOn := h.takesTurns.phase call
  have hstill : (e.settle.stopCall call).phase ≠ .pending ∧
      (e.settle.stopCall call).phase ≠ .abandoned := by
    generalize (e.stopCall call).phase = p at hgoesOn hbegun hkept
    generalize (e.settle.stopCall call).phase = p' at hgoesOn
    cases hgoesOn with
    | same => exact ⟨hbegun, hkept⟩
    | begins | endsAtOnce | ends => exact ⟨by simp, by simp⟩
  rcases finished_of_awaitStop (h.leadsTo (leadsTo_settle e)) (fun _ => false) hstill.1 hstill.2
    with ⟨result, hresult⟩
  unfold joinStop
  dsimp only
  rw [result_of_finished hresult]
  exact hresult

end Engine

end InferenceEngine
