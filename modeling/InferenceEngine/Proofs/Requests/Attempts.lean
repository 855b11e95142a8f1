import InferenceEngine.Proofs.Requests.Callbacks

/-!
# Attempts to submit a request

Each attempt comes with a callback of its own.  If it is accepted, its callback is kept with the
request and called once, when the request ceases to be open; if it is refused, its callback is
never called.
-/

namespace InferenceEngine

def Operation.callback? : Operation -> Option Nat
  | .submit _ _ callback => some callback
  | _ => none

def Deed.AcceptsNone (deed : Deed) : Prop := forall callback : Nat, deed ≠ .accept callback

namespace Engine

def callbacks (e : Engine) : List Nat := e.submissions.map Submission.callback

def invocations (e : Engine) (callback : Nat) : Nat :=
  e.completions.countP fun c => c.callback = callback

/-!
# The callbacks that an engine keeps
-/

theorem callbacks_eq {e e' : Engine} (hlength : e'.submissions.length = e.submissions.length)
    (h : forall m : Nat, (e'.submission m).callback = (e.submission m).callback) :
    e'.callbacks = e.callbacks := by
  unfold callbacks
  apply List.ext_getElem
  · simpa using hlength
  · intro m hm hm'
    have hlt : m < e.submissions.length := by simpa using hm'
    have hlt' : m < e'.submissions.length := by simpa using hm
    have hcallback := h m
    unfold submission at hcallback
    simpa [List.getD_eq_getElem?_getD, hlt, hlt'] using hcallback

theorem Spares.callbacks {e e' : Engine} (h : e.Spares e') : e'.callbacks = e.callbacks := by
  apply callbacks_eq h.submissions
  intro m
  rw [h.submission m]

theorem Spares.lasts {e e' : Engine} (h : e.Spares e') :
    e'.submissions.length = e.submissions.length ∧
      forall m : Nat, (e.submission m).Lasts (e'.submission m) :=
  ⟨h.submissions, h.submission⟩

/-- Only a request that is accepted is new, and the others are still what they were. -/
theorem Move.lasts {deed : Deed} {e e' : Engine} (h : Move deed e e')
    (hdeed : deed.AcceptsNone) : e'.submissions.length = e.submissions.length ∧
      forall m : Nat, (e.submission m).Lasts (e'.submission m) := by
  cases h with
  | enroll _ server callback provider request hstate hprepare => exact absurd rfl (hdeed callback)
  | schedule | close | directory | stops | create | addStats | addServer | server | addAllocator
  | useAllocator => exact ⟨rfl, fun _ => rfl⟩
  | awaitSlot _ n hn => exact (spares_setPhase (e.modifyServer _ _) n .waiting).lasts
  | takeSlot _ e' n hn htake =>
      rcases takeSlot?_eq_some htake with ⟨free, rfl⟩
      exact (spares_setPhase (e.modifyServer _ _) n .granted).lasts
  | gatherFails _ n failure hn hgather => exact (spares_respond e n _).lasts
  | allocateFails _ n failure a events hn hallocate =>
      exact (spares_respond ((e.setMemory (e.submission n).server ⟨a, e.directory⟩).report events)
        n _).lasts
  | unwind _ n slots a events hn hallocate =>
      exact (spares_giveUp (e.forfeit n slots a events) n).lasts
  | enter _ n inputs slots a events hn hgather hallocate =>
      exact (spares_setPhase (((e.setMemory (e.submission n).server ⟨a, e.directory⟩).report
        events).record _) n _).lasts
  | turn _ n p hn => exact (spares_setPhase e n p).lasts
  | leave _ n held next result slots hn hnext =>
      exact (spares_respond (e.takeSlots n result slots) n _).lasts
  | cancel _ n hn => exact (spares_giveUp e n).lasts
  | comeBack _ n hn => exact (spares_comeBack e n).lasts
  | dropResponse _ n response hn =>
      exact (spares_setPhase (e.releaseResponse response) n .closed).lasts
  | ignore _ n => exact (spares_ignore e n).lasts

theorem Move.callbacks {deed : Deed} {e e' : Engine} (h : Move deed e e')
    (hdeed : deed.AcceptsNone) : e'.callbacks = e.callbacks := by
  rcases h.lasts hdeed with ⟨hlength, hlasts⟩
  apply callbacks_eq hlength
  intro m
  rw [hlasts m]

theorem Moves.callbacks {e e' : Engine} (h : Moves Deed.AcceptsNone e e') :
    e'.callbacks = e.callbacks := by
  refine Moves.induct (P := fun middle => middle.callbacks = e.callbacks) ?_ h rfl
  intro deed middle e' hdeed hmove hmiddle
  have hnone : deed.AcceptsNone := by
    rcases hdeed with rfl | hnone
    · intro callback haccepts
      cases haccepts
    · exact hnone
  rw [hmove.callbacks hnone, hmiddle]

/-!
# Submitting

What is accepted has been prepared as things stood.
-/

theorem spares_cancel (e : Engine) (n : Nat) : e.Spares (e.cancel n) := by
  unfold cancel
  split
  · exact (spares_giveUp e n).trans (spares_comeBack _ n)
  · exact Spares.refl e

/-- A request that is put into the queue, or given up at once, has been enrolled before. -/
theorem spares_launch (e : Engine) (server callback : Nat) (request : PreparedRequest) :
    (e.enroll server request callback).Spares (e.launch server request callback) := by
  have hreported : (e.enroll server request callback).Spares
      ((e.enroll server request callback).report
        [.requestAccepted request.id request.model.config.name]) :=
    Spares.of_parts rfl rfl rfl rfl rfl rfl rfl
  apply hreported.trans
  simp only [launch]
  split
  · exact Spares.of_parts rfl rfl rfl rfl rfl rfl rfl
  · exact spares_cancel _ _

theorem callbacks_launch (e : Engine) (server callback : Nat) (request : PreparedRequest) :
    ((e.countIn server).launch server request callback).callbacks =
      e.callbacks ++ [callback] := by
  have hlaunched := (spares_launch (e.countIn server) server callback request).callbacks
  rw [hlaunched]
  simp [Engine.callbacks, enroll, countIn, modifyServer]

theorem submit_eq_ok {e : Engine} {server callback n : Nat} {provider : Provider}
    (h : (e.submit server provider callback).1 = .ok n) : exists request : PreparedRequest,
      PreparedRequest.prepare (e.server server).registry provider = .ok request ∧
      n = e.submissions.length ∧ (e.submit server provider callback).2 =
        (e.countIn server).launch server request callback := by
  unfold submit at h ⊢
  split
  · rename_i hforeign
    rw [if_pos hforeign] at h
    cases h
  · rename_i hown
    rw [if_neg hown] at h
    split
    · rename_i hstate
      rw [if_pos hstate] at h
      cases h
    · rename_i hstate
      rw [if_neg hstate] at h
      cases hprepare : PreparedRequest.prepare (e.server server).registry provider with
      | error failure =>
          rw [hprepare] at h
          cases h
      | ok request =>
          rw [hprepare] at h
          cases h
          exact ⟨request, rfl, rfl, rfl⟩

theorem submit_ok {e : Engine} {server callback n : Nat} {provider : Provider}
    (h : (e.submit server provider callback).1 = .ok n) :
    n = e.submissions.length ∧
      (e.submit server provider callback).2.callbacks = e.callbacks ++ [callback] := by
  rcases submit_eq_ok h with ⟨request, _, hn, hsubmit⟩
  rw [hsubmit]
  exact ⟨hn, callbacks_launch e server callback request⟩

theorem submit_error {e : Engine} {server callback : Nat} {provider : Provider}
    {failure : Failure} (h : (e.submit server provider callback).1 = .error failure) :
    (e.submit server provider callback).2.callbacks = e.callbacks := by
  unfold submit at h ⊢
  split
  · rfl
  · rename_i hown
    rw [if_neg hown] at h
    split
    · rfl
    · rename_i hstate
      rw [if_neg hstate] at h
      cases hprepare : PreparedRequest.prepare (e.server server).registry provider with
      | error failure => exact Moves.callbacks (moves_refuse e server)
      | ok request =>
          rw [hprepare] at h
          cases h

/-!
# Runs
-/

theorem callbacks_operate {e : Engine} (h : e.Sound) (op : Operation) :
    exists new : List Nat, new.Sublist op.callback?.toList ∧
      (e.operate op).callbacks = e.callbacks ++ new := by
  cases hop : op.callback? with
  | none =>
      refine ⟨[], List.nil_sublist _, ?_⟩
      rw [List.append_nil]
      refine Moves.callbacks (moves_operate h op ?_)
      intro deed hdoes callback heq
      rw [heq] at hdoes
      cases op with
      | submit server provider callback => cases hop
      | _ => cases hdoes
  | some c =>
      cases op with
      | submit server provider callback =>
          have hc : callback = c := Option.some.inj hop
          cases hsubmit : (e.submit server provider callback).1 with
          | ok n => exact ⟨[callback], by simp [hc], (submit_ok hsubmit).2⟩
          | error failure =>
              exact ⟨[], List.nil_sublist _, by rw [List.append_nil]; exact submit_error hsubmit⟩
      | _ => cases hop

theorem callbacks_after {e : Engine} (h : e.Sound) (ops : List Operation) :
    exists new : List Nat, new.Sublist (ops.filterMap Operation.callback?) ∧
      (e.after ops).callbacks = e.callbacks ++ new := by
  induction ops generalizing e with
  | nil => exact ⟨[], List.nil_sublist _, (List.append_nil _).symm⟩
  | cons op rest ih =>
      rcases callbacks_operate h op with ⟨first, hfirst, hop⟩
      have hsound : (e.operate op).Sound :=
        (@moves_operate (fun _ => True) e h op fun _ _ => trivial).sound h
      rcases ih hsound with ⟨more, hmore, hrest⟩
      refine ⟨first ++ more, ?_, ?_⟩
      · have hsplit : (op :: rest).filterMap Operation.callback? =
            op.callback?.toList ++ rest.filterMap Operation.callback? := by
          cases hop : op.callback? with
          | none => simp [hop]
          | some callback => simp [hop]
        rw [hsplit]
        exact hfirst.append hmore
      · rw [after_cons, hrest, hop, List.append_assoc]

theorem sound_reached (ops : List Operation) : (reached ops).Sound := (reachable_reached ops).sound

/-!
# Callbacks and the calls of them

A dropped task is not open any more.
-/

theorem callback_mem {e : Engine} {n : Nat} (h : n < e.submissions.length) :
    e.callbacks[n]? = some (e.submission n).callback := by
  simp [callbacks, submission, List.getD_eq_getElem?_getD, h]

theorem Tally.invocations_eq_zero {e : Engine} (h : e.Tally) {callback : Nat}
    (hcallback : callback ∉ e.callbacks) : e.invocations callback = 0 := by
  apply List.countP_eq_zero.2
  intro c hc hsame
  rcases h.known c hc with ⟨hlt, heq⟩
  apply hcallback
  have hsame : c.callback = callback := by simpa using hsame
  rw [← hsame, heq]
  exact List.mem_of_getElem? (callback_mem hlt)

theorem Tally.invocations_eq {e : Engine} (h : e.Tally) (hdistinct : e.callbacks.Nodup) {n : Nat}
    (hn : n < e.submissions.length) :
    e.invocations (e.submission n).callback =
      if (e.submission n).phase.isOpen then 0 else 1 := by
  rw [← h.called n hn]
  apply List.countP_congr
  intro c hc
  rcases h.known c hc with ⟨hlt, heq⟩
  rw [decide_eq_true_iff, decide_eq_true_iff, heq]
  constructor
  · intro hsame
    have hlt' : c.submission < e.callbacks.length := by simpa [callbacks] using hlt
    apply (List.getElem?_inj hlt' hdistinct).1
    rw [callback_mem hlt, callback_mem hn, hsame]
  · intro hsame
    rw [hsame]

theorem isOpen_cancel (e : Engine) (n : Nat) :
    ((e.cancel n).submission n).phase.isOpen = false := by
  unfold cancel
  split
  · rename_i hopen
    have hlt : n < ((e.withdraw n).report
        [.requestDropped (e.submission n).request.id]).submissions.length := by
      have hlength := (spares_withdraw e n).submissions
      show n < (e.withdraw n).submissions.length
      rw [hlength]
      exact lt_of_phase hopen
    have hphase : ((e.giveUp n).submission n).phase.isOpen = false := by
      unfold giveUp
      rw [phase_callBack, if_pos ⟨rfl, hlt⟩, isOpen_received]
    unfold submission at hphase ⊢
    rw [submissions_comeBack]
    exact hphase
  · rename_i hclosed
    exact Bool.eq_false_iff.2 hclosed

theorem Reachable.inflight_pos {e : Engine} (h : e.Reachable) {n : Nat} (hn : n ∈ e.calling) :
    0 < (e.server (e.submission n).server).inflight := by
  rw [h.tally.inflight]
  apply List.countP_pos_iff.2
  refine ⟨n, List.mem_range.2 (h.tally.closed n hn).1, ?_⟩
  simp [isInFlight, hn]

theorem Reachable.inflight_eq_zero {e : Engine} (h : e.Reachable) {k : Nat}
    (hdone : forall n : Nat, n < e.submissions.length -> (e.submission n).server = k ->
      e.isInFlight n = false) : (e.server k).inflight = 0 := by
  rw [h.tally.inflight]
  apply List.countP_eq_zero.2
  intro n hn hboth
  simp only [Bool.and_eq_true, decide_eq_true_eq] at hboth
  rw [hdone n (List.mem_range.1 hn) hboth.1] at hboth
  cases hboth.2

/-- The callbacks of a run that has an attempt in it: those of the attempts before it, its own if
it is accepted, and those of the attempts after it. -/
theorem callbacks_attempt (earlier later : List Operation) (server callback : Nat)
    (provider : Provider) : exists before after : List Nat,
      before.Sublist (earlier.filterMap Operation.callback?) ∧
      after.Sublist (later.filterMap Operation.callback?) ∧
      (reached earlier).callbacks = before ∧
      (reached (earlier ++ .submit server provider callback :: later)).callbacks =
        ((reached earlier).submit server provider callback).2.callbacks ++ after := by
  rcases callbacks_after sound_empty earlier with ⟨before, hbefore, hearlier⟩
  have hsound : ((reached earlier).submit server provider callback).2.Sound :=
    (@moves_submit (fun _ => True) _ server callback provider trivial
      fun _ _ => trivial).sound (sound_reached earlier)
  rcases callbacks_after hsound later with ⟨after, hafter, hlater⟩
  refine ⟨before, after, hbefore, hafter, hearlier, ?_⟩
  rw [← hlater]
  unfold reached
  rw [after_append]
  rfl

/-- After a run, and at each moment of what comes next as long as nothing else is accepted: the
callback of an attempt that was accepted has been called once if its task has ended and not at all
before, the callback of one that was refused has not been called, and a server counts its requests
whose callbacks have not returned. -/
theorem callbacks_once_and_inflight (ops : List Operation) (e : Engine)
    (hdistinct : (ops.filterMap Operation.callback?).Nodup)
    (he : Moves Deed.AcceptsNone (reached ops) e) :
    (forall (earlier later : List Operation) (server callback : Nat) (provider : Provider),
      ops = earlier ++ .submit server provider callback :: later ->
        match ((reached earlier).submit server provider callback).1 with
        | .ok n => n < e.submissions.length ∧ (e.submission n).callback = callback ∧
            e.invocations callback = if (e.submission n).phase.isOpen then 0 else 1
        | .error _ => e.invocations callback = 0) ∧
      (forall n : Nat, ((e.cancel n).submission n).phase.isOpen = false) ∧
      (forall k : Nat, (e.server k).inflight =
        (List.range e.submissions.length).countP fun n =>
          (e.submission n).server = k && e.isInFlight n) ∧
      (forall n : Nat, n ∈ e.calling -> 0 < (e.server (e.submission n).server).inflight) ∧
      (forall k : Nat, (forall n : Nat, n < e.submissions.length ->
        (e.submission n).server = k -> e.isInFlight n = false) -> (e.server k).inflight = 0) := by
  have hreached : e.Reachable := (reachable_reached ops).moves he
  refine ⟨?_, isOpen_cancel e, hreached.tally.inflight, fun n hn => hreached.inflight_pos hn,
    fun k hk => hreached.inflight_eq_zero hk⟩
  intro earlier later server callback provider hops
  rcases callbacks_attempt earlier later server callback provider with
    ⟨before, after, hbefore, hafter, hearlier, hrun⟩
  rw [← hops, ← he.callbacks] at hrun
  have hsplit : ops.filterMap Operation.callback? = earlier.filterMap Operation.callback? ++
      callback :: later.filterMap Operation.callback? := by
    rw [hops]
    simp [Operation.callback?]
  rw [hsplit] at hdistinct
  cases hsubmit : ((reached earlier).submit server provider callback).1 with
  | ok n =>
      rcases submit_ok hsubmit with ⟨hn, hcallbacks⟩
      rw [hcallbacks, hearlier, List.append_assoc, List.singleton_append] at hrun
      have hnodup : e.callbacks.Nodup := by
        rw [hrun]
        exact hdistinct.sublist (hbefore.append (hafter.cons_cons callback))
      have hat : e.callbacks[n]? = some callback := by
        have hlength : n = before.length := by
          rw [hn, ← hearlier]
          simp [callbacks]
        rw [hrun, hlength]
        simp
      have hlt : n < e.submissions.length := by
        have hbound := (List.getElem?_eq_some_iff.1 hat).1
        simpa [callbacks] using hbound
      have hown : (e.submission n).callback = callback := by
        rw [callback_mem hlt] at hat
        exact Option.some.inj hat
      refine ⟨hlt, hown, ?_⟩
      rw [← hown]
      exact hreached.tally.invocations_eq hnodup hlt
  | error failure =>
      rw [submit_error hsubmit, hearlier] at hrun
      apply hreached.tally.invocations_eq_zero
      rw [hrun]
      intro hmem
      have hnotin := (List.nodup_middle.1 hdistinct)
      apply (List.nodup_cons.1 hnotin).1
      rcases List.mem_append.1 hmem with hmem | hmem
      · exact List.mem_append_left _ (hbefore.subset hmem)
      · exact List.mem_append_right _ (hafter.subset hmem)

/-- A server is built, a request is accepted and its task is dropped. -/
def droppedRun : List Operation :=
  [.build { ServerOptions.default with executionSlots := 1 } none (.ok []) none true,
    .submit 0 default 7, .cancel 0]

theorem callback_of_droppedRun : (droppedRun.filterMap Operation.callback?).Nodup ∧
    Moves Deed.AcceptsNone (reached droppedRun) (reached droppedRun) ∧
    (reached droppedRun).invocations 7 = 1 := by
  have hdistinct : (droppedRun.filterMap Operation.callback?).Nodup := by decide
  have hboth := callbacks_once_and_inflight droppedRun _ hdistinct (Moves.refl _)
  refine ⟨hdistinct, Moves.refl _, ?_⟩
  have hcalled := hboth.1 (droppedRun.take 1) (droppedRun.drop 2) 0 7 default rfl
  exact hcalled.2.2

end Engine

end InferenceEngine
