import InferenceEngine.Proofs.Requests.Queue

/-!
# Callbacks and requests in flight

A request is in flight from its acceptance until its callback has returned.  The callback is
called when the request ceases to be open, whether it has been executed or given up, and only
then; so it is called once.  The count of a server is the number of its requests in flight.
-/

namespace InferenceEngine

/-!
# Counting numbers below a bound

One number that is not counted any more lowers the count by one.
-/

theorem countP_range_congr {N : Nat} {p q : Nat -> Bool}
    (h : forall m : Nat, m < N -> p m = q m) :
    (List.range N).countP p = (List.range N).countP q := by
  apply List.countP_congr
  intro m hm
  rw [h m (List.mem_range.1 hm)]

theorem countP_range_remove {N n : Nat} {p q : Nat -> Bool} (hn : n < N) (hp : p n = true)
    (hq : q n = false) (h : forall m : Nat, m < N -> m ≠ n -> p m = q m) :
    (List.range N).countP p = (List.range N).countP q + 1 := by
  induction N with
  | zero => cases hn
  | succ N ih =>
      rw [List.range_succ, List.countP_append, List.countP_append]
      by_cases hN : n = N
      · have hbelow : (List.range N).countP p = (List.range N).countP q := by
          apply countP_range_congr
          intro m hm
          apply h m (Nat.lt_succ_of_lt hm)
          rw [hN]
          exact Nat.ne_of_lt hm
        rw [hN] at hp hq
        simp [hbelow, hp, hq]
      · have hlt : n < N := by omega
        have hbelow := ih hlt fun m hm hne => h m (Nat.lt_succ_of_lt hm) hne
        have htop : p N = q N := h N (Nat.lt_succ_self N) (Ne.symm hN)
        simp only [List.countP_singleton, hbelow, htop]
        omega

namespace Engine

def isInFlight (e : Engine) (m : Nat) : Bool :=
  (e.submission m).phase.isOpen || e.calling.contains m

def flight (e : Engine) (k : Nat) : Nat :=
  (List.range e.submissions.length).countP fun m =>
    (e.submission m).server = k && e.isInFlight m

def timesCalled (e : Engine) (m : Nat) : Nat := e.completions.countP fun c => c.submission = m

/-- The books on callbacks and on the requests in flight. -/
structure Tally (e : Engine) : Prop where
  inflight : forall k : Nat, (e.server k).inflight = e.flight k
  server : forall m : Nat, m < e.submissions.length -> (e.submission m).server < e.servers.length
  distinct : e.calling.Nodup
  closed : forall m : Nat, m ∈ e.calling ->
    m < e.submissions.length ∧ (e.submission m).phase.isOpen = false
  called : forall m : Nat, m < e.submissions.length ->
    e.timesCalled m = if (e.submission m).phase.isOpen then 0 else 1
  known : forall c : Completion, c ∈ e.completions ->
    c.submission < e.submissions.length ∧ c.callback = (e.submission c.submission).callback

theorem tally_empty : empty.Tally where
  inflight _ := rfl
  server m hm := by cases hm
  distinct := List.nodup_nil
  closed m hm := by cases hm
  called m hm := by cases hm
  known c hc := by cases hc

/-!
# Changes that the books do not notice

The one that a slot goes to is open before and after.
-/

/-- What the books are about is as before. -/
structure Agrees (e e' : Engine) : Prop where
  inflight : forall k : Nat, (e'.server k).inflight = (e.server k).inflight
  servers : e.servers.length ≤ e'.servers.length
  submissions : e'.submissions.length = e.submissions.length
  server : forall m : Nat, (e'.submission m).server = (e.submission m).server
  callback : forall m : Nat, (e'.submission m).callback = (e.submission m).callback
  isOpen : forall m : Nat, (e'.submission m).phase.isOpen = (e.submission m).phase.isOpen
  calling : e'.calling = e.calling
  completions : e'.completions = e.completions

theorem Agrees.trans {e middle e' : Engine} (h : e.Agrees middle) (k : middle.Agrees e') :
    e.Agrees e' where
  inflight j := (k.inflight j).trans (h.inflight j)
  servers := Nat.le_trans h.servers k.servers
  submissions := k.submissions.trans h.submissions
  server m := (k.server m).trans (h.server m)
  callback m := (k.callback m).trans (h.callback m)
  isOpen m := (k.isOpen m).trans (h.isOpen m)
  calling := k.calling.trans h.calling
  completions := k.completions.trans h.completions

theorem Agrees.of_parts {e e' : Engine} (hservers : e'.servers = e.servers)
    (hsubmissions : e'.submissions = e.submissions) (hcalling : e'.calling = e.calling)
    (hcompletions : e'.completions = e.completions) : e.Agrees e' where
  inflight k := by
    unfold Engine.server
    rw [hservers]
  servers := Nat.le_of_eq (by rw [hservers])
  submissions := by rw [hsubmissions]
  server m := by
    unfold submission
    rw [hsubmissions]
  callback m := by
    unfold submission
    rw [hsubmissions]
  isOpen m := by
    unfold submission
    rw [hsubmissions]
  calling := hcalling
  completions := hcompletions

theorem Spares.agrees {e e' : Engine} (h : e.Spares e')
    (hinflight : forall k : Nat, (e'.server k).inflight = (e.server k).inflight)
    (hopen : forall m : Nat,
      (e'.submission m).phase.isOpen = (e.submission m).phase.isOpen)
    (hcalling : e'.calling = e.calling) (hcompletions : e'.completions = e.completions) :
    e.Agrees e' where
  inflight := hinflight
  servers := Nat.le_of_eq h.servers.symm
  submissions := h.submissions
  server m := by rw [h.submission m]
  callback m := by rw [h.submission m]
  isOpen := hopen
  calling := hcalling
  completions := hcompletions

theorem Agrees.flight {e e' : Engine} (h : e.Agrees e') (k : Nat) : e'.flight k = e.flight k := by
  unfold Engine.flight isInFlight
  rw [h.submissions]
  apply countP_range_congr
  intro m _
  rw [h.server, h.isOpen, h.calling]

theorem Agrees.tally {e e' : Engine} (h : e.Agrees e') (k : e.Tally) : e'.Tally where
  inflight j := by
    rw [h.inflight, h.flight]
    exact k.inflight j
  server m hm := by
    rw [h.submissions] at hm
    rw [h.server]
    exact Nat.lt_of_lt_of_le (k.server m hm) h.servers
  distinct := by
    rw [h.calling]
    exact k.distinct
  closed m hm := by
    rw [h.calling] at hm
    rw [h.submissions, h.isOpen]
    exact k.closed m hm
  called m hm := by
    rw [h.submissions] at hm
    unfold timesCalled
    rw [h.completions, h.isOpen]
    exact k.called m hm
  known c hc := by
    rw [h.completions] at hc
    rw [h.submissions, h.callback]
    exact k.known c hc

theorem agrees_setPhase {e : Engine} {n : Nat} {p : Phase}
    (h : p.isOpen = (e.submission n).phase.isOpen) : e.Agrees (e.setPhase n p) := by
  refine (spares_setPhase e n p).agrees (fun _ => rfl) ?_ rfl rfl
  intro m
  rw [submission_setPhase]
  split
  · rename_i hm
    rw [hm.1]
    exact h
  · rfl

theorem agrees_enterBackend {e : Engine} {n : Nat} (h : (e.submission n).phase.isOpen = true)
    (batch : ExecutionBatch) : e.Agrees (e.enterBackend n batch) := by
  have hrecord : e.Agrees (e.record (.execute n batch)) := Agrees.of_parts rfl rfl rfl rfl
  exact hrecord.trans (agrees_setPhase h.symm)

theorem agrees_modifyServer {e : Engine} {n : Nat} {f : Server -> Server}
    (hf : forall s : Server, (f s).inflight = s.inflight) : e.Agrees (e.modifyServer n f) where
  inflight k := by
    rw [server_modifyServer]
    split
    · rename_i hk
      rw [hf, hk.1]
    · rfl
  servers := by simp [modifyServer]
  submissions := rfl
  server _ := rfl
  callback _ := rfl
  isOpen _ := rfl
  calling := rfl
  completions := rfl

theorem agrees_releaseSlot {e : Engine} (h : e.Lined) (k : Nat) :
    e.Agrees (e.releaseSlot k) := by
  apply (spares_releaseSlot e k).agrees (inflight_releaseSlot e k)
  · intro m
    rw [phase_releaseSlot]
    split
    · rename_i hm
      have hwaits := ((h k).2 m (List.mem_of_mem_head? hm.1)).2
      rw [hwaits]
      rfl
    · rfl
  · unfold releaseSlot
    split <;> rfl
  · unfold releaseSlot
    split <;> rfl

theorem agrees_withdraw {e : Engine} (h : e.Lined) (n : Nat) : e.Agrees (e.withdraw n) := by
  simp only [withdraw]
  split
  · exact agrees_releaseSlot h _
  · exact agrees_modifyServer fun _ => rfl

theorem agrees_noteResult (e : Engine) (n : Nat)
    (result : Except Failure (List (String × OutputStorage))) :
    e.Agrees (e.noteResult n result) := by
  cases result with
  | ok outputs => exact Agrees.of_parts rfl rfl rfl rfl
  | error failure => exact Agrees.of_parts rfl rfl rfl rfl

/-!
# Calling back

Who is called back is still in flight.
-/

/-- The callback of a request that was open has been called. -/
structure CallsBack (n : Nat) (e e' : Engine) : Prop where
  inflight : forall k : Nat, (e'.server k).inflight = (e.server k).inflight
  servers : e'.servers.length = e.servers.length
  submissions : e'.submissions.length = e.submissions.length
  server : forall m : Nat, (e'.submission m).server = (e.submission m).server
  callback : forall m : Nat, (e'.submission m).callback = (e.submission m).callback
  wasOpen : (e.submission n).phase.isOpen = true
  isOpen : forall m : Nat, (e'.submission m).phase.isOpen =
    if m = n then false else (e.submission m).phase.isOpen
  calling : e'.calling = e.calling ++ [n]
  completions : exists c : Completion, e'.completions = e.completions ++ [c] ∧
    c.submission = n ∧ c.callback = (e.submission n).callback

theorem isOpen_received (e : Engine) (n : Nat) (response : Response) :
    (e.received n response).isOpen = false := by
  unfold received
  split <;> rfl

theorem callsBack_callBack {e : Engine} {n : Nat} (h : (e.submission n).phase.isOpen = true)
    (taken? : Option Nat) (response : Response) :
    CallsBack n e (e.callBack n taken? response) where
  inflight k := by rw [server_callBack]
  servers := (spares_callBack e n taken? response).servers
  submissions := (spares_callBack e n taken? response).submissions
  server m := by rw [(spares_callBack e n taken? response).submission m]
  callback m := by rw [(spares_callBack e n taken? response).submission m]
  wasOpen := h
  isOpen m := by
    rw [phase_callBack]
    by_cases hm : m = n
    · rw [if_pos ⟨hm, lt_of_phase h⟩, if_pos hm, isOpen_received]
    · rw [if_neg fun hboth => hm hboth.1, if_neg hm]
  calling := calling_callBack e n taken? response
  completions := ⟨_, completions_callBack e n taken? response, rfl, rfl⟩

theorem Agrees.callsBack {e middle e' : Engine} {n : Nat} (h : e.Agrees middle)
    (hservers : middle.servers.length = e.servers.length) (k : CallsBack n middle e') :
    CallsBack n e e' where
  inflight j := (k.inflight j).trans (h.inflight j)
  servers := k.servers.trans hservers
  submissions := k.submissions.trans h.submissions
  server m := (k.server m).trans (h.server m)
  callback m := (k.callback m).trans (h.callback m)
  wasOpen := (h.isOpen n).symm.trans k.wasOpen
  isOpen m := by rw [k.isOpen, h.isOpen]
  calling := by rw [k.calling, h.calling]
  completions := by
    rcases k.completions with ⟨c, hc, hsubmission, hcallback⟩
    exact ⟨c, by rw [hc, h.completions], hsubmission, hcallback.trans (h.callback n)⟩

theorem CallsBack.flight {e e' : Engine} {n : Nat} (h : CallsBack n e e') (k : Nat) :
    e'.flight k = e.flight k := by
  unfold Engine.flight
  rw [h.submissions]
  apply countP_range_congr
  intro m _
  rw [h.server]
  congr 1
  unfold isInFlight
  rw [h.isOpen, h.calling]
  by_cases hm : m = n
  · rw [hm, h.wasOpen]
    simp
  · simp [hm]

theorem CallsBack.tally {e e' : Engine} {n : Nat} (h : CallsBack n e e') (k : e.Tally) :
    e'.Tally := by
  rcases h.completions with ⟨c, hc, hsubmission, hcallback⟩
  have hlt : n < e.submissions.length := lt_of_phase h.wasOpen
  have hfresh : n ∉ e.calling := by
    intro hn
    have hreturned := (k.closed n hn).2
    rw [h.wasOpen] at hreturned
    cases hreturned
  constructor
  · intro j
    rw [h.inflight, h.flight]
    exact k.inflight j
  · intro m hm
    rw [h.submissions] at hm
    rw [h.server, h.servers]
    exact k.server m hm
  · rw [h.calling]
    exact List.nodup_append.2 ⟨k.distinct, List.nodup_singleton n, fun a ha b hb heq =>
      hfresh (List.mem_singleton.1 hb ▸ heq ▸ ha)⟩
  · intro m hm
    rw [h.calling] at hm
    rw [h.submissions, h.isOpen]
    rcases List.mem_append.1 hm with hm | hm
    · rcases k.closed m hm with ⟨hbound, hclosed⟩
      constructor
      · exact hbound
      · rw [hclosed]
        split <;> rfl
    · rw [List.mem_singleton.1 hm, if_pos rfl]
      exact ⟨hlt, rfl⟩
  · intro m hm
    rw [h.submissions] at hm
    have hbefore := k.called m hm
    unfold timesCalled at hbefore ⊢
    rw [hc, List.countP_append, h.isOpen, hbefore]
    by_cases hmn : m = n
    · rw [hmn, h.wasOpen]
      simp [hsubmission]
    · simp [hmn, hsubmission, Ne.symm hmn]
  · intro a ha
    rw [hc] at ha
    rw [h.submissions, h.callback]
    rcases List.mem_append.1 ha with ha | ha
    · exact k.known a ha
    · rw [List.mem_singleton.1 ha, hsubmission]
      exact ⟨hlt, hcallback⟩

theorem callsBack_respond {e : Engine} (h : e.Lined) {n : Nat}
    (hn : (e.submission n).phase.isOpen = true)
    (result : Except Failure (List (String × OutputStorage))) :
    CallsBack n e (e.respond n result) := by
  have hnoted := agrees_noteResult e n result
  have hlined : (e.noteResult n result).Lined := by
    cases result <;> exact h.of_parts rfl rfl
  have hreleased := hnoted.trans (agrees_releaseSlot hlined (e.submission n).server)
  refine hreleased.callsBack ?_ (callsBack_callBack ?_ _ _)
  · rw [(spares_releaseSlot _ _).servers, (spares_noteResult e n result).servers]
  · rw [hreleased.isOpen]
    exact hn

theorem callsBack_giveUp {e : Engine} (h : e.Lined) {n : Nat}
    (hn : (e.submission n).phase.isOpen = true) : CallsBack n e (e.giveUp n) := by
  have hreported : (e.withdraw n).Agrees
      ((e.withdraw n).report [.requestDropped (e.submission n).request.id]) :=
    Agrees.of_parts rfl rfl rfl rfl
  have hwithdrawn := (agrees_withdraw h n).trans hreported
  refine hwithdrawn.callsBack ?_ (callsBack_callBack ?_ none _)
  · exact (spares_withdraw e n).servers
  · rw [hwithdrawn.isOpen]
    exact hn

/-!
# Accepting and coming back
-/

theorem server_countIn (e : Engine) (k m : Nat) :
    (e.countIn k).server m = if m = k ∧ k < e.servers.length then
      { e.server k with inflight := (e.server k).inflight + 1 } else e.server m :=
  server_modifyServer e k m _

theorem Tally.enroll {e : Engine} (h : e.Tally) {server : Nat}
    (hserver : server < e.servers.length) (request : PreparedRequest) (callback : Nat) :
    ((e.countIn server).enroll server request callback).Tally := by
  have hlength : ((e.countIn server).enroll server request callback).submissions.length =
      e.submissions.length + 1 := by simp [Engine.enroll, countIn, modifyServer]
  have hservers : ((e.countIn server).enroll server request callback).servers.length =
      e.servers.length := by simp [Engine.enroll, countIn, modifyServer]
  have hold : forall m : Nat, m < e.submissions.length ->
      ((e.countIn server).enroll server request callback).submission m = e.submission m :=
    fun m hm => (submission_enroll _ server callback request m).trans (if_neg (Nat.ne_of_lt hm))
  have hnew : ((e.countIn server).enroll server request callback).submission
      e.submissions.length = ⟨server, request, callback, .accepted, true⟩ :=
    (submission_enroll _ server callback request _).trans (if_pos rfl)
  have hflight : forall k : Nat, ((e.countIn server).enroll server request callback).flight k =
      e.flight k + if server = k then 1 else 0 := by
    intro k
    unfold Engine.flight
    rw [hlength, List.range_succ, List.countP_append, List.countP_singleton]
    have hbelow : (List.range e.submissions.length).countP (fun m =>
        (((e.countIn server).enroll server request callback).submission m).server = k &&
          ((e.countIn server).enroll server request callback).isInFlight m) =
        (List.range e.submissions.length).countP (fun m =>
          (e.submission m).server = k && e.isInFlight m) := by
      apply countP_range_congr
      intro m hm
      unfold isInFlight
      rw [hold m hm]
      rfl
    rw [hbelow]
    unfold isInFlight
    rw [hnew]
    simp [Phase.isOpen]
  have hcalling : ((e.countIn server).enroll server request callback).calling = e.calling := rfl
  have hcompletions : ((e.countIn server).enroll server request callback).completions =
      e.completions := rfl
  constructor
  · intro k
    rw [hflight]
    have hcount := server_countIn e server k
    show ((e.countIn server).server k).inflight = _
    rw [hcount, ← h.inflight]
    by_cases hk : k = server
    · simp [hk, hserver]
    · simp [hk, Ne.symm hk]
  · intro m hm
    rw [hlength] at hm
    rw [hservers]
    rcases Nat.lt_succ_iff_lt_or_eq.1 hm with hlt | heq
    · rw [hold m hlt]
      exact h.server m hlt
    · rw [heq, hnew]
      exact hserver
  · exact h.distinct
  · intro m hm
    rcases h.closed m hm with ⟨hlt, hclosed⟩
    rw [hlength, hold m hlt]
    exact ⟨Nat.lt_succ_of_lt hlt, hclosed⟩
  · intro m hm
    rw [hlength] at hm
    rcases Nat.lt_succ_iff_lt_or_eq.1 hm with hlt | heq
    · rw [hold m hlt]
      exact h.called m hlt
    · rw [heq, hnew]
      show e.completions.countP _ = 0
      apply List.countP_eq_zero.2
      intro c hc hsame
      have hknown := (h.known c hc).1
      have heq : c.submission = e.submissions.length := by simpa using hsame
      omega
  · intro c hc
    rcases h.known c hc with ⟨hlt, hcallback⟩
    rw [hlength, hold _ hlt]
    exact ⟨Nat.lt_succ_of_lt hlt, hcallback⟩

theorem server_countOut (e : Engine) (k m : Nat) :
    (e.countOut k).server m = if m = k ∧ k < e.servers.length then
      { e.server k with inflight := (e.server k).inflight - 1 } else e.server m := by
  have hmodify := server_modifyServer e k m fun s => { s with inflight := s.inflight - 1 }
  simp only [countOut]
  split
  · exact hmodify
  · exact hmodify

theorem server_comeBack (e : Engine) (n m : Nat) :
    (e.comeBack n).server m =
      if m = (e.submission n).server ∧ (e.submission n).server < e.servers.length then
        { e.server m with inflight := (e.server m).inflight - 1 }
      else e.server m := by
  have hcount := server_countOut { e with calling := e.calling.erase n } (e.submission n).server m
  by_cases hm : m = (e.submission n).server
  · subst hm
    exact hcount
  · rw [if_neg fun hboth => hm hboth.1]
    exact hcount.trans (if_neg fun hboth => hm hboth.1)

/-- With the return of its callback a request ceases to be in flight, and it is counted out. -/
theorem Tally.comeBack {e : Engine} (h : e.Tally) {n : Nat} (hn : n ∈ e.calling) :
    (e.comeBack n).Tally := by
  rcases h.closed n hn with ⟨hlt, hclosed⟩
  have hsubmission : forall m : Nat, (e.comeBack n).submission m = e.submission m := by
    intro m
    unfold submission
    rw [submissions_comeBack]
  have hinflight : forall m : Nat, m ≠ n -> (e.comeBack n).isInFlight m = e.isInFlight m := by
    intro m hm
    unfold isInFlight
    rw [hsubmission, calling_comeBack]
    congr 1
    rw [Bool.eq_iff_iff, List.contains_iff_mem, List.contains_iff_mem]
    exact List.mem_erase_of_ne hm
  have hgone : (e.comeBack n).isInFlight n = false := by
    unfold isInFlight
    rw [hsubmission, hclosed, calling_comeBack, Bool.false_or]
    rw [← Bool.not_eq_true, List.contains_iff_mem]
    exact fun hmem => (List.Nodup.mem_erase_iff h.distinct).1 hmem |>.1 rfl
  have hpresent : e.isInFlight n = true := by
    unfold isInFlight
    rw [hclosed, Bool.false_or]
    exact List.contains_iff_mem.2 hn
  constructor
  · intro k
    rw [server_comeBack]
    unfold Engine.flight
    rw [submissions_comeBack]
    by_cases hk : k = (e.submission n).server
    · rw [if_pos ⟨hk, h.server n hlt⟩]
      have hremove : e.flight k = (List.range e.submissions.length).countP (fun m =>
          ((e.comeBack n).submission m).server = k && (e.comeBack n).isInFlight m) + 1 := by
        apply countP_range_remove hlt
        · rw [hpresent, hk]
          simp
        · rw [hgone, Bool.and_false]
        · intro m _ hm
          rw [hsubmission, hinflight m hm]
      show (e.server k).inflight - 1 = _
      rw [h.inflight, hremove]
      rfl
    · rw [if_neg fun hboth => hk hboth.1, h.inflight]
      apply countP_range_congr
      intro m _
      rw [hsubmission]
      by_cases hm : m = n
      · have hserver : ((e.submission m).server = k) = False := by
          rw [hm]
          exact eq_false (Ne.symm hk)
        simp only [hserver, decide_false, Bool.false_and]
      · rw [hinflight m hm]
  · intro m hm
    rw [submissions_comeBack] at hm
    rw [hsubmission, (spares_comeBack e n).servers]
    exact h.server m hm
  · rw [calling_comeBack]
    exact h.distinct.erase n
  · intro m hm
    rw [calling_comeBack] at hm
    rw [submissions_comeBack, hsubmission]
    exact h.closed m (List.mem_of_mem_erase hm)
  · intro m hm
    rw [submissions_comeBack] at hm
    unfold timesCalled
    rw [completions_comeBack, hsubmission]
    exact h.called m hm
  · intro c hc
    rw [completions_comeBack] at hc
    rw [submissions_comeBack, hsubmission]
    exact h.known c hc

/-!
# Moves
-/

theorem Move.tally {deed : Deed} {e e' : Engine} (h : Move deed e e') (hlined : e.Lined)
    (k : e.Tally) : e'.Tally := by
  cases h with
  | schedule | close | directory | stops | create | addStats | addAllocator | useAllocator =>
      exact Agrees.tally (e := e) (Agrees.of_parts rfl rfl rfl rfl) k
  | addServer _ options allocator table hallocator htable =>
      refine Agrees.tally (e := e)
        ⟨?_, ?_, rfl, fun _ => rfl, fun _ => rfl, fun _ => rfl, rfl, rfl⟩ k
      · intro j
        rw [server_addServer]
        split
        · rename_i hj
          have hdefault : e.server j = default := by
            simp [Engine.server, hj]
          rw [hdefault]
          rfl
        · rfl
      · simp [Engine.addServer]
  | server _ n s hs =>
      refine Agrees.tally (e := e)
        ⟨?_, ?_, rfl, fun _ => rfl, fun _ => rfl, fun _ => rfl, rfl, rfl⟩ k
      · intro j
        rw [server_modifyServer]
        split
        · rename_i hj
          rw [hj.1]
          exact hs.inflight
        · rfl
      · simp [modifyServer]
  | enroll _ server callback provider request hstate hprepare =>
      have hrunning : (e.server server).state ≠ .stopped := by
        rw [hstate]
        intro hstopped
        cases hstopped
      exact k.enroll (lt_of_state hrunning) request callback
  | awaitSlot _ n hn =>
      have hqueue := agrees_modifyServer (e := e) (n := (e.submission n).server)
        (f := fun s => { s with waiting := s.waiting ++ [n] }) fun _ => rfl
      refine (hqueue.trans (agrees_setPhase ?_)).tally k
      rw [hqueue.isOpen, hn]
      rfl
  | takeSlot _ e' n hn htake =>
      rcases takeSlot?_eq_some htake with ⟨free, rfl⟩
      have htaken := agrees_modifyServer (e := e) (n := (e.submission n).server)
        (f := fun s => { s with freeSlots := free }) fun _ => rfl
      refine (htaken.trans (agrees_setPhase ?_)).tally k
      rw [htaken.isOpen, hn]
      rfl
  | gatherFails _ n failure hn hgather =>
      exact (callsBack_respond hlined (by rw [hn]; rfl) _).tally k
  | allocateFails _ n failure a events hn hallocate =>
      have hsame : e.Agrees ((e.setMemory (e.submission n).server ⟨a, e.directory⟩).report
          events) := Agrees.of_parts rfl rfl rfl rfl
      have hlined : Lined ((e.setMemory (e.submission n).server ⟨a, e.directory⟩).report
          events) := hlined.of_parts rfl rfl
      refine (callsBack_respond hlined ?_ _).tally (hsame.tally k)
      rw [hsame.isOpen, hn]
      rfl
  | unwind _ n slots a events hn hallocate =>
      have hsame : e.Agrees (e.forfeit n slots a events) := Agrees.of_parts rfl rfl rfl rfl
      have hlined : (e.forfeit n slots a events).Lined := hlined.of_parts rfl rfl
      refine (callsBack_giveUp hlined ?_).tally (hsame.tally k)
      rw [hsame.isOpen, hn]
      rfl
  | enter _ n inputs slots a events hn hgather hallocate =>
      have hsame : e.Agrees ((e.setMemory (e.submission n).server ⟨a, e.directory⟩).report
          events) := Agrees.of_parts rfl rfl rfl rfl
      refine (hsame.trans (agrees_enterBackend ?_ _)).tally k
      rw [hsame.isOpen, hn]
      rfl
  | turn _ n p hn => exact (agrees_setPhase hn.isOpen_eq).tally k
  | leave _ n held next result slots hn hnext =>
      have hsame : e.Agrees (e.takeSlots n result slots) := Agrees.of_parts rfl rfl rfl rfl
      have hlined : (e.takeSlots n result slots).Lined :=
        hlined.of_parts rfl rfl
      refine (callsBack_respond hlined ?_ _).tally (hsame.tally k)
      rw [hsame.isOpen, hn]
      rfl
  | cancel _ n hn => exact (callsBack_giveUp hlined hn).tally k
  | comeBack _ n hn => exact k.comeBack hn
  | dropResponse _ n response hn =>
      have hsame : e.Agrees (e.releaseResponse response) := Agrees.of_parts rfl rfl rfl rfl
      refine (hsame.trans (agrees_setPhase ?_)).tally k
      rw [hsame.isOpen, hn]
      rfl
  | ignore _ n =>
      refine ((spares_ignore e n).agrees (fun _ => rfl) ?_ rfl rfl).tally k
      intro m
      rw [phase_ignore]

theorem Reachable.tally {e : Engine} (h : e.Reachable) : e.Tally := by
  apply Reachable.induct tally_empty _ h
  intro deed e e' hreachable hmove htally
  exact hmove.tally hreachable.lined htally

end Engine

end InferenceEngine
