import InferenceEngine.Proofs.Runs.Parts

/-!
# What answering a request changes

An answer gives a slot back, calls a callback and counts the request out.  All three leave alone
what has been put on record, the calls that stop servers, and of servers and requests all but the
queue for the slots, the count and how far a request has come.
-/

namespace InferenceEngine

/-- A server after its slots, its queue or its count have changed. -/
def Server.Lasts (s s' : Server) : Prop :=
  s' = { s with inflight := s'.inflight, freeSlots := s'.freeSlots, waiting := s'.waiting }

/-- A request after it has come further or has been left alone by the one who waits for it. -/
def Submission.Lasts (t t' : Submission) : Prop :=
  t' = { t with phase := t'.phase, isAwaited := t'.isAwaited }

theorem Submission.Lasts.trans {t middle t' : Submission} (h : t.Lasts middle)
    (k : middle.Lasts t') : t.Lasts t' := by
  unfold Lasts at h k ⊢
  rw [k, h]

namespace Engine

structure Spares (e e' : Engine) : Prop where
  server : forall m : Nat, (e.server m).Lasts (e'.server m)
  servers : e'.servers.length = e.servers.length
  submission : forall m : Nat, (e.submission m).Lasts (e'.submission m)
  submissions : e'.submissions.length = e.submissions.length
  stops : e'.stops = e.stops
  calls : e'.calls = e.calls
  endings : e'.endings = e.endings
  unwindings : e'.unwindings = e.unwindings
  isRunning : e'.isRunning = e.isRunning

theorem Spares.of_parts {e e' : Engine} (hservers : e'.servers = e.servers)
    (hsubmissions : e'.submissions = e.submissions) (hstops : e'.stops = e.stops)
    (hcalls : e'.calls = e.calls) (hendings : e'.endings = e.endings)
    (hunwindings : e'.unwindings = e.unwindings) (hrunning : e'.isRunning = e.isRunning) :
    e.Spares e' where
  server m := by
    unfold Engine.server Server.Lasts
    rw [hservers]
  servers := congrArg List.length hservers
  submission m := by
    unfold Engine.submission Submission.Lasts
    rw [hsubmissions]
  submissions := congrArg List.length hsubmissions
  stops := hstops
  calls := hcalls
  endings := hendings
  unwindings := hunwindings
  isRunning := hrunning

theorem Spares.refl (e : Engine) : e.Spares e := Spares.of_parts rfl rfl rfl rfl rfl rfl rfl

theorem Spares.trans {e middle e' : Engine} (h : e.Spares middle) (k : middle.Spares e') :
    e.Spares e' where
  server m := by
    have hm := h.server m
    have km := k.server m
    unfold Server.Lasts at hm km ⊢
    rw [km, hm]
  servers := k.servers.trans h.servers
  submission m := (h.submission m).trans (k.submission m)
  submissions := k.submissions.trans h.submissions
  stops := k.stops.trans h.stops
  calls := k.calls.trans h.calls
  endings := k.endings.trans h.endings
  unwindings := k.unwindings.trans h.unwindings
  isRunning := k.isRunning.trans h.isRunning

theorem spares_modifyServer (e : Engine) (n : Nat) {f : Server -> Server}
    (h : forall s : Server, s.Lasts (f s)) : e.Spares (e.modifyServer n f) where
  server m := by
    rw [server_modifyServer]
    split
    · rename_i hm
      rw [hm.1]
      exact h _
    · rfl
  servers := by simp [modifyServer]
  submission _ := rfl
  submissions := rfl
  stops := rfl
  calls := rfl
  endings := rfl
  unwindings := rfl
  isRunning := rfl

theorem spares_setPhase (e : Engine) (n : Nat) (p : Phase) : e.Spares (e.setPhase n p) where
  server _ := rfl
  servers := rfl
  submission m := by
    rw [submission_setPhase]
    split
    · rename_i hm
      rw [hm.1]
      rfl
    · rfl
  submissions := by simp [setPhase]
  stops := rfl
  calls := rfl
  endings := rfl
  unwindings := rfl
  isRunning := rfl

theorem spares_ignore (e : Engine) (n : Nat) : e.Spares (e.ignore n) where
  server _ := rfl
  servers := rfl
  submission m := by
    rw [submission_ignore]
    split
    · rename_i hm
      rw [hm.1]
      rfl
    · rfl
  submissions := by simp [ignore]
  stops := rfl
  calls := rfl
  endings := rfl
  unwindings := rfl
  isRunning := rfl

/-!
# Taking a slot and giving it back

A slot that is given back goes to the first request that waits for it.
-/

theorem takeSlot?_eq_some {e e' : Engine} {k : Nat} (h : e.takeSlot? k = some e') :
    exists free : Nat, e' = e.modifyServer k fun s => { s with freeSlots := free } := by
  unfold takeSlot? at h
  split at h
  · cases h
  · rename_i free hfree
    exact ⟨free, (Option.some.inj h).symm⟩

theorem spares_releaseSlot (e : Engine) (k : Nat) : e.Spares (e.releaseSlot k) := by
  unfold releaseSlot
  split
  · exact spares_modifyServer e k fun _ => rfl
  · rename_i first rest hwaiting
    have hmodify := spares_modifyServer e k
      (f := fun s => { s with waiting := rest }) fun _ => rfl
    exact (hmodify.trans (spares_setPhase _ first .granted)).trans
      (Spares.of_parts rfl rfl rfl rfl rfl rfl rfl)

theorem phase_releaseSlot (e : Engine) (k m : Nat) :
    ((e.releaseSlot k).submission m).phase =
      if (e.server k).waiting.head? = some m ∧ m < e.submissions.length then .granted
      else (e.submission m).phase := by
  unfold releaseSlot
  split
  · rename_i hwaiting
    rw [hwaiting]
    rfl
  · rename_i first rest hwaiting
    rw [hwaiting]
    show (((e.modifyServer k _).setPhase first .granted).submission m).phase = _
    rw [submission_setPhase]
    by_cases hm : m = first
    · by_cases hlt : first < e.submissions.length
      · simp [hm, hlt, modifyServer]
      · simp [hm, hlt, modifyServer]
        rfl
    · simp [hm, Ne.symm hm]
      rfl

theorem waiting_releaseSlot (e : Engine) (k m : Nat) :
    ((e.releaseSlot k).server m).waiting =
      if m = k then (e.server k).waiting.tail else (e.server m).waiting := by
  unfold releaseSlot
  split
  · rename_i hwaiting
    rw [server_modifyServer, hwaiting]
    by_cases hm : m = k
    · by_cases hlt : k < e.servers.length
      · simp [hm, hlt]
      · simp [hm, hlt, hwaiting]
    · simp [hm]
  · rename_i first rest hwaiting
    have hlt : k < e.servers.length := by
      apply lt_of_waiting
      rw [hwaiting]
      exact List.mem_cons_self
    show ((e.modifyServer k _).server m).waiting = _
    rw [server_modifyServer, hwaiting]
    by_cases hm : m = k
    · simp [hm, hlt]
    · simp [hm]

theorem inflight_releaseSlot (e : Engine) (k m : Nat) :
    ((e.releaseSlot k).server m).inflight = (e.server m).inflight := by
  unfold releaseSlot
  split
  · rw [server_modifyServer]
    split
    · rename_i hm
      rw [hm.1]
    · rfl
  · show ((e.modifyServer k _).server m).inflight = _
    rw [server_modifyServer]
    split
    · rename_i hm
      rw [hm.1]
    · rfl

/-!
# Calling back
-/

/-- How far a request has come when its callback has its response. -/
def received (e : Engine) (n : Nat) (response : Response) : Phase :=
  if (e.submission n).isAwaited then .answered response else .closed

theorem spares_hand (e : Engine) (n : Nat) (response : Response) :
    e.Spares (e.hand n response) := by
  unfold hand
  split
  · exact spares_setPhase e n _
  · have hrelease : e.Spares (e.releaseResponse response) :=
      Spares.of_parts rfl rfl rfl rfl rfl rfl rfl
    exact hrelease.trans (spares_setPhase _ n _)

theorem spares_callBack (e : Engine) (n : Nat) (taken? : Option Nat) (response : Response) :
    e.Spares (e.callBack n taken? response) := by
  unfold callBack
  refine Spares.trans ?_ (spares_hand _ n response)
  exact Spares.of_parts rfl rfl rfl rfl rfl rfl rfl

theorem servers_hand (e : Engine) (n : Nat) (response : Response) :
    (e.hand n response).servers = e.servers := by
  unfold hand
  split <;> rfl

@[simp] theorem server_callBack (e : Engine) (n m : Nat) (taken? : Option Nat)
    (response : Response) : (e.callBack n taken? response).server m = e.server m := by
  unfold callBack server
  rw [servers_hand]

theorem phase_hand (e : Engine) (n m : Nat) (response : Response) :
    ((e.hand n response).submission m).phase =
      if m = n ∧ n < e.submissions.length then e.received n response
      else (e.submission m).phase := by
  cases hawaited : (e.submission n).isAwaited with
  | true =>
      simp only [hand, received, hawaited, if_true]
      rw [submission_setPhase]
      split <;> rfl
  | false =>
      have hrelease : (e.releaseResponse response).submission m = e.submission m := rfl
      have hlength : (e.releaseResponse response).submissions.length = e.submissions.length := rfl
      simp only [hand, received, hawaited, Bool.false_eq_true, if_false]
      rw [submission_setPhase, hrelease, hlength]
      split <;> rfl

theorem phase_callBack (e : Engine) (n m : Nat) (taken? : Option Nat) (response : Response) :
    ((e.callBack n taken? response).submission m).phase =
      if m = n ∧ n < e.submissions.length then e.received n response
      else (e.submission m).phase :=
  phase_hand _ n m response

theorem calling_callBack (e : Engine) (n : Nat) (taken? : Option Nat) (response : Response) :
    (e.callBack n taken? response).calling = e.calling ++ [n] := by
  simp only [callBack, hand]
  split <;> rfl

theorem completions_callBack (e : Engine) (n : Nat) (taken? : Option Nat) (response : Response) :
    (e.callBack n taken? response).completions = e.completions ++
      [⟨n, (e.submission n).callback, (e.submission n).server,
        (e.server (e.submission n).server).isLive, (e.server (e.submission n).server).isReady,
        taken?, response⟩] := by
  simp only [callBack, hand]
  split <;> rfl

/-!
# Answering an execution and giving up
-/

theorem spares_noteResult (e : Engine) (n : Nat)
    (result : Except Failure (List (String × OutputStorage))) :
    e.Spares (e.noteResult n result) := by
  cases result with
  | ok outputs => exact Spares.of_parts rfl rfl rfl rfl rfl rfl rfl
  | error failure => exact Spares.of_parts rfl rfl rfl rfl rfl rfl rfl

theorem spares_respond (e : Engine) (n : Nat)
    (result : Except Failure (List (String × OutputStorage))) : e.Spares (e.respond n result) :=
  ((spares_noteResult e n result).trans (spares_releaseSlot _ _)).trans
    (spares_callBack _ n _ _)

theorem spares_withdraw (e : Engine) (n : Nat) : e.Spares (e.withdraw n) := by
  simp only [withdraw]
  split
  · exact spares_releaseSlot e _
  · exact spares_modifyServer e _ fun _ => rfl

theorem spares_giveUp (e : Engine) (n : Nat) : e.Spares (e.giveUp n) := by
  refine ((spares_withdraw e n).trans ?_).trans (spares_callBack _ n none _)
  exact Spares.of_parts rfl rfl rfl rfl rfl rfl rfl

theorem spares_wakeStops (e : Engine) (k : Nat) : e.Spares (e.wakeStops k) :=
  Spares.of_parts rfl rfl rfl rfl rfl rfl rfl

theorem spares_countOut (e : Engine) (k : Nat) : e.Spares (e.countOut k) := by
  have hmodify := spares_modifyServer e k
    (f := fun s => { s with inflight := s.inflight - 1 }) fun _ => rfl
  unfold countOut
  simp only
  split
  · exact hmodify.trans (spares_wakeStops _ k)
  · exact hmodify

theorem spares_comeBack (e : Engine) (n : Nat) : e.Spares (e.comeBack n) := by
  unfold comeBack
  refine Spares.trans ?_ (spares_countOut _ _)
  exact Spares.of_parts rfl rfl rfl rfl rfl rfl rfl

theorem submissions_comeBack (e : Engine) (n : Nat) :
    (e.comeBack n).submissions = e.submissions := by
  simp only [comeBack, countOut]
  split <;> rfl

theorem calling_comeBack (e : Engine) (n : Nat) : (e.comeBack n).calling = e.calling.erase n := by
  simp only [comeBack, countOut]
  split <;> rfl

theorem completions_comeBack (e : Engine) (n : Nat) :
    (e.comeBack n).completions = e.completions := by
  simp only [comeBack, countOut]
  split <;> rfl

theorem allocators_comeBack (e : Engine) (n : Nat) : (e.comeBack n).allocators = e.allocators := by
  simp only [comeBack, countOut]
  split <;> rfl

end Engine

end InferenceEngine
