import InferenceEngine.Proofs.Runs.Reach

/-!
# The queue for the slots of a server

Those who wait for a slot of a server are its own requests, each waits once, and each has come no
further than to wait.  So a slot that is given back goes to a request that is in progress.
-/

namespace InferenceEngine

namespace Engine

def Lined (e : Engine) : Prop :=
  forall k : Nat, (e.server k).waiting.Nodup ∧ forall m : Nat, m ∈ (e.server k).waiting ->
    (e.submission m).server = k ∧ (e.submission m).phase = .waiting

/-!
# Changes that leave the queues alone
-/

theorem Lined.of_waiting {e e' : Engine} (h : e.Lined)
    (hwaiting : forall k : Nat, (e'.server k).waiting = (e.server k).waiting)
    (hserver : forall m : Nat, m < e.submissions.length ->
      (e'.submission m).server = (e.submission m).server)
    (hphase : forall m : Nat, (e.submission m).phase = .waiting ->
      (e'.submission m).phase = .waiting) : e'.Lined := by
  intro k
  rw [hwaiting]
  rcases h k with ⟨hnodup, hqueue⟩
  constructor
  · exact hnodup
  · intro m hm
    rcases hqueue m hm with ⟨hown, hwaits⟩
    have hlt : m < e.submissions.length := lt_of_phase (by rw [hwaits]; rfl)
    exact ⟨(hserver m hlt).trans hown, hphase m hwaits⟩

theorem Lined.of_parts {e e' : Engine} (h : e.Lined) (hservers : e'.servers = e.servers)
    (hsubmissions : e'.submissions = e.submissions) : e'.Lined := by
  unfold Lined server submission
  rw [hservers, hsubmissions]
  exact h

theorem Lined.setPhase {e : Engine} (h : e.Lined) {n : Nat} {old p : Phase}
    (hn : (e.submission n).phase = old) (hold : old ≠ .waiting) : (e.setPhase n p).Lined := by
  refine h.of_waiting (fun _ => rfl) (fun m _ => server_of_submission_setPhase e n m p) ?_
  intro m hm
  rw [submission_setPhase, if_neg]
  · exact hm
  · intro hboth
    rw [hboth.1] at hm
    exact hold (hn.symm.trans hm)

theorem Lined.modifyServer {e : Engine} (h : e.Lined) {n : Nat} {f : Server -> Server}
    (hf : forall s : Server, (f s).waiting = s.waiting) : (e.modifyServer n f).Lined := by
  refine h.of_waiting ?_ (fun _ _ => rfl) (fun _ hm => hm)
  intro k
  rw [server_modifyServer]
  split
  · rename_i hk
    rw [hf, hk.1]
  · rfl

theorem Lined.callBack {e : Engine} (h : e.Lined) {n : Nat} (taken? : Option Nat)
    (response : Response) (hn : (e.submission n).phase ≠ .waiting) :
    (e.callBack n taken? response).Lined := by
  apply h.of_waiting
  · intro k
    rw [server_callBack]
  · intro m _
    rw [(spares_callBack e n taken? response).submission m]
  · intro m hm
    rw [phase_callBack, if_neg]
    · exact hm
    · intro hboth
      rw [hboth.1] at hm
      exact hn hm

/-!
# Changes of the queues

Someone who does not wait any more is not in a queue.
-/

theorem Lined.releaseSlot {e : Engine} (h : e.Lined) (k : Nat) : (e.releaseSlot k).Lined := by
  intro j
  rw [waiting_releaseSlot]
  have hkeeps : forall m : Nat, m ∈ (e.server j).waiting ->
      (e.server k).waiting.head? ≠ some m ->
      ((e.releaseSlot k).submission m).server = j ∧
        ((e.releaseSlot k).submission m).phase = .waiting := by
    intro m hm hhead
    rcases (h j).2 m hm with ⟨hown, hwaits⟩
    constructor
    · rw [(spares_releaseSlot e k).submission m]
      exact hown
    · rw [phase_releaseSlot, if_neg fun hboth => hhead hboth.1]
      exact hwaits
  by_cases hj : j = k
  · rw [if_pos hj]
    rw [hj] at hkeeps ⊢
    have hnodup := (h k).1
    cases hwaiting : (e.server k).waiting with
    | nil => simp
    | cons first rest =>
        rw [hwaiting] at hnodup hkeeps
        have hnotin := (List.nodup_cons.1 hnodup).1
        constructor
        · exact (List.nodup_cons.1 hnodup).2
        · intro m hm
          apply hkeeps m (List.mem_cons_of_mem _ hm)
          intro hhead
          have hfirst : first = m := by simpa using hhead
          rw [hfirst] at hnotin
          exact hnotin hm
  · rw [if_neg hj]
    constructor
    · exact (h j).1
    · intro m hm
      apply hkeeps m hm
      intro hhead
      have hother := (h k).2 m (List.mem_of_mem_head? hhead)
      have hown := (h j).2 m hm
      exact hj (hown.1.symm.trans hother.1)

theorem submission_awaitSlot_of_ne {n m : Nat} (e : Engine) (h : m ≠ n) :
    (e.awaitSlot n).submission m = e.submission m := by
  show ((e.modifyServer _ _).setPhase n .waiting).submission m = _
  rw [submission_setPhase, if_neg fun hboth => h hboth.1]
  rfl

theorem phase_awaitSlot_self {e : Engine} {n : Nat} (h : n < e.submissions.length) :
    ((e.awaitSlot n).submission n).phase = .waiting :=
  phase_setPhase_self (e := e.modifyServer _ _) h

theorem server_submission_awaitSlot (e : Engine) (n m : Nat) :
    ((e.awaitSlot n).submission m).server = (e.submission m).server :=
  server_of_submission_setPhase _ n m _

theorem waiting_awaitSlot (e : Engine) (n k : Nat) :
    ((e.awaitSlot n).server k).waiting =
      if k = (e.submission n).server ∧ (e.submission n).server < e.servers.length then
        (e.server k).waiting ++ [n]
      else (e.server k).waiting := by
  show ((e.modifyServer _ _).server k).waiting = _
  rw [server_modifyServer]
  split
  · rename_i hk
    rw [hk.1]
  · rfl

theorem Lined.awaitSlot {e : Engine} (h : e.Lined) {n : Nat}
    (hn : (e.submission n).phase = .accepted) : (e.awaitSlot n).Lined := by
  have hlt : n < e.submissions.length := lt_of_phase (by rw [hn]; rfl)
  have hfresh : forall k : Nat, n ∉ (e.server k).waiting := by
    intro k hk
    have hwaits := ((h k).2 n hk).2
    rw [hn] at hwaits
    cases hwaits
  intro k
  rcases h k with ⟨hnodup, hqueue⟩
  have hold : forall m : Nat, m ∈ (e.server k).waiting ->
      ((e.awaitSlot n).submission m).server = k ∧
        ((e.awaitSlot n).submission m).phase = .waiting := by
    intro m hm
    have hne : m ≠ n := by
      intro hsame
      rw [hsame] at hm
      exact hfresh k hm
    rw [submission_awaitSlot_of_ne e hne]
    exact hqueue m hm
  rw [waiting_awaitSlot]
  split
  · rename_i hk
    constructor
    · exact (List.nodup_append_comm.1
        (List.nodup_cons.2 ⟨hfresh k, hnodup⟩ : ([n] ++ (e.server k).waiting).Nodup))
    · intro m hm
      rcases List.mem_append.1 hm with hm | hm
      · exact hold m hm
      · rw [List.mem_singleton.1 hm, hk.1]
        exact ⟨server_submission_awaitSlot e n n, phase_awaitSlot_self hlt⟩
  · exact ⟨hnodup, hold⟩

theorem Lined.respond {e : Engine} (h : e.Lined) {n : Nat} {old : Phase}
    (hn : (e.submission n).phase = old) (hold : old ≠ .waiting)
    (result : Except Failure (List (String × OutputStorage))) : (e.respond n result).Lined := by
  have hnoted : (e.noteResult n result).Lined := by
    apply h.of_waiting
    · cases result <;> exact fun _ => rfl
    · cases result <;> exact fun _ _ => rfl
    · cases result <;> exact fun _ hm => hm
  have hphase : (e.noteResult n result).submission n = e.submission n := by
    cases result <;> rfl
  apply (hnoted.releaseSlot _).callBack _ _
  rw [phase_releaseSlot]
  split
  · exact nofun
  · rw [hphase, hn]
    exact hold

theorem Lined.withdraw {e : Engine} (h : e.Lined) (n : Nat) :
    (e.withdraw n).Lined ∧ forall k : Nat, n ∉ ((e.withdraw n).server k).waiting := by
  by_cases hholds : (e.submission n).phase.holdsSlot = true
  · have hwithdraw : e.withdraw n = e.releaseSlot (e.submission n).server := by
      simp only [Engine.withdraw]
      rw [if_pos hholds]
    rw [hwithdraw]
    constructor
    · exact h.releaseSlot _
    · intro k hk
      rw [waiting_releaseSlot] at hk
      have hmem : n ∈ (e.server k).waiting := by
        split at hk
        · rename_i hkk
          rw [hkk]
          exact List.mem_of_mem_tail hk
        · exact hk
      have hwaits := ((h k).2 n hmem).2
      rw [hwaits] at hholds
      cases hholds
  · have hwithdraw : e.withdraw n = e.modifyServer (e.submission n).server fun server =>
        { server with waiting := server.waiting.filter (· != n) } := by
      simp only [Engine.withdraw]
      rw [if_neg hholds]
    have hserver : forall k : Nat, ((e.withdraw n).server k).waiting =
        (e.server k).waiting.filter (· != n) := by
      intro k
      rw [hwithdraw, server_modifyServer]
      split
      · rename_i hk
        rw [hk.1]
      · rename_i hk
        refine (List.filter_eq_self.2 ?_).symm
        intro m hm
        have hown := (h k).2 m hm
        simp only [bne_iff_ne, ne_eq]
        intro heq
        rw [heq] at hown hm
        refine hk ⟨hown.1.symm, ?_⟩
        rw [hown.1]
        exact lt_of_waiting hm
    constructor
    · intro k
      rw [hserver]
      constructor
      · exact (h k).1.filter _
      · intro m hm
        rw [hwithdraw]
        exact (h k).2 m (List.mem_filter.1 hm).1
    · intro k hk
      rw [hserver] at hk
      simpa using (List.mem_filter.1 hk).2

theorem Lined.giveUp {e : Engine} (h : e.Lined) (n : Nat) : (e.giveUp n).Lined := by
  rcases h.withdraw n with ⟨hlined, hgone⟩
  have hspares := spares_callBack ((e.withdraw n).report
    [.requestDropped (e.submission n).request.id]) n none (e.responseTo n 0 (.error .cancelled))
  intro k
  have hwaiting : ((e.giveUp n).server k).waiting = ((e.withdraw n).server k).waiting := by
    show ((Engine.callBack _ n none _).server k).waiting = _
    rw [server_callBack]
    rfl
  rw [hwaiting]
  constructor
  · exact (hlined k).1
  · intro m hm
    rcases (hlined k).2 m hm with ⟨hown, hwaits⟩
    constructor
    · have hlasts := hspares.submission m
      unfold Engine.giveUp
      rw [hlasts]
      exact hown
    · show ((Engine.callBack _ n none _).submission m).phase = _
      rw [phase_callBack, if_neg]
      · exact hwaits
      · intro hboth
        rw [hboth.1] at hm
        exact hgone k hm

theorem Lined.comeBack {e : Engine} (h : e.Lined) (n : Nat) : (e.comeBack n).Lined := by
  have hcalling : Lined { e with calling := e.calling.erase n } :=
    h.of_parts rfl rfl
  have hcount := hcalling.modifyServer (n := (e.submission n).server)
    (f := fun s => { s with inflight := s.inflight - 1 }) fun _ => rfl
  simp only [Engine.comeBack, countOut]
  split
  · exact hcount.of_parts rfl rfl
  · exact hcount

/-!
# Moves
-/

theorem Move.lined {deed : Deed} {e e' : Engine} (h : Move deed e e') (k : e.Lined) :
    e'.Lined := by
  cases h with
  | schedule | close | directory | stops | create | addStats | addAllocator | useAllocator =>
      exact k.of_parts rfl rfl
  | addServer _ options allocator table hallocator htable =>
      refine k.of_waiting ?_ (fun _ _ => rfl) (fun _ hm => hm)
      intro j
      rw [server_addServer]
      split
      · rename_i hj
        rw [hj, waiting_eq_nil (Nat.le_refl _)]
        rfl
      · rfl
  | server _ n s hs =>
      refine k.of_waiting ?_ (fun _ _ => rfl) (fun _ hm => hm)
      intro j
      rw [server_modifyServer]
      split
      · rename_i hj
        rw [hj.1]
        exact hs.waiting
      · rfl
  | enroll _ server callback provider request hstate hprepare =>
      have hcount : (e.countIn server).Lined := k.modifyServer fun _ => rfl
      have hold : forall m : Nat, m < e.submissions.length ->
          ((e.countIn server).enroll server request callback).submission m = e.submission m := by
        intro m hm
        exact (submission_enroll _ server callback request m).trans (if_neg (Nat.ne_of_lt hm))
      refine hcount.of_waiting (fun _ => rfl) (fun m hm => by rw [hold m hm]; rfl) ?_
      intro m hm
      have hlt : m < e.submissions.length := by
        apply lt_of_phase
        rw [show (e.submission m).phase = .waiting from hm]
        rfl
      rw [hold m hlt]
      exact hm
  | awaitSlot _ n hn => exact k.awaitSlot hn
  | takeSlot _ e' n hn htake =>
      rcases takeSlot?_eq_some htake with ⟨free, rfl⟩
      have htaken := k.modifyServer (n := (e.submission n).server)
        (f := fun s => { s with freeSlots := free }) fun _ => rfl
      exact htaken.setPhase hn nofun
  | gatherFails _ n failure hn hgather => exact k.respond hn nofun _
  | allocateFails _ n failure a events hn hallocate =>
      have hsame : Lined ((e.setMemory (e.submission n).server ⟨a, e.directory⟩).report events) :=
        k.of_parts rfl rfl
      exact hsame.respond hn nofun _
  | unwind _ n slots a events hn hallocate =>
      have hsame : (e.forfeit n slots a events).Lined := k.of_parts rfl rfl
      exact hsame.giveUp n
  | enter _ n inputs slots a events hn hgather hallocate =>
      have hsame : Lined ((e.setMemory (e.submission n).server ⟨a, e.directory⟩).report events) :=
        k.of_parts rfl rfl
      exact hsame.setPhase hn nofun
  | turn _ n p hn =>
      apply k.setPhase rfl
      intro hwaits
      rw [hwaits] at hn
      cases hn
  | leave _ n held next result slots hn hnext =>
      have hsame : (e.takeSlots n result slots).Lined :=
        k.of_parts rfl rfl
      exact hsame.respond hn nofun _
  | cancel _ n hn => exact k.giveUp n
  | comeBack _ n hn => exact k.comeBack n
  | dropResponse _ n response hn =>
      have hsame : (e.releaseResponse response).Lined :=
        k.of_parts rfl rfl
      exact hsame.setPhase hn nofun
  | ignore _ n =>
      refine k.of_waiting (fun _ => rfl) ?_ ?_
      · intro m _
        rw [(spares_ignore e n).submission m]
      · intro m hm
        rw [phase_ignore]
        exact hm

theorem lined_empty : empty.Lined := by
  intro k
  exact ⟨List.nodup_nil, fun m hm => by cases hm⟩

theorem Reachable.lined {e : Engine} (h : e.Reachable) : e.Lined := by
  apply Reachable.induct lined_empty _ h
  intro deed e e' _ hmove hlined
  exact hmove.lined hlined

end Engine

end InferenceEngine
