import InferenceEngine.Proofs.Execution.Backends
import InferenceEngine.Proofs.Requests.Driven

/-!
# One request at a time

What the engine does for one request leaves the others where they are, but for the one that is
given the slot that it waits for.  No other callback is called, and no job is added to the queue
for a request that has not begun.
-/

namespace InferenceEngine

theorem Phase.Stays.trans {p middle p' : Phase} (h : p.Stays middle) (k : middle.Stays p') :
    p.Stays p' := by
  rcases k with rfl | ⟨hwaits, rfl⟩
  · exact h
  · rcases h with rfl | ⟨_, hgranted⟩
    · exact .inr ⟨hwaits, rfl⟩
    · rw [hwaits] at hgranted
      cases hgranted

theorem Phase.Stays.eq_accepted_iff {p p' : Phase} (h : p.Stays p') :
    p' = .accepted ↔ p = .accepted := by
  rcases h with rfl | ⟨rfl, rfl⟩
  · exact Iff.rfl
  · constructor
    · intro hgranted
      cases hgranted
    · intro hwaits
      cases hwaits

namespace Engine

structure Attends (n : Nat) (e e' : Engine) : Prop where
  lined : e'.Lined
  submissions : e'.submissions.length = e.submissions.length
  others : forall m : Nat, m ≠ n -> (e.submission m).phase.Stays (e'.submission m).phase
  begun : (e.submission n).phase ≠ .accepted -> (e'.submission n).phase ≠ .accepted
  completions : forall c : Completion, c ∈ e'.completions ->
    c ∈ e.completions ∨ c.submission = n
  started : e'.started = e.started
  woken : exists jobs : List Job, e'.woken = e.woken ++ jobs ∧ forall m : Nat,
    .request m ∈ jobs -> m < e.submissions.length ∧ (e'.submission m).phase ≠ .accepted

variable {e middle e' : Engine} {n : Nat}

theorem Attends.ne_accepted (h : Attends n e e') {m : Nat}
    (hm : (e.submission m).phase ≠ .accepted) : (e'.submission m).phase ≠ .accepted := by
  by_cases hself : m = n
  · rw [hself] at hm ⊢
    exact h.begun hm
  · exact fun haccepted => hm ((h.others m hself).eq_accepted_iff.1 haccepted)

theorem Attends.trans (h : Attends n e middle) (k : Attends n middle e') : Attends n e e' where
  lined := k.lined
  submissions := k.submissions.trans h.submissions
  others m hm := (h.others m hm).trans (k.others m hm)
  begun hn := k.begun (h.begun hn)
  completions c hc := by
    rcases k.completions c hc with hmiddle | hown
    · exact h.completions c hmiddle
    · exact .inr hown
  started := k.started.trans h.started
  woken := by
    rcases h.woken with ⟨jobs, hjobs, hbegun⟩
    rcases k.woken with ⟨more, hmore, kbegun⟩
    refine ⟨jobs ++ more, ?_, ?_⟩
    · rw [hmore, hjobs, List.append_assoc]
    · intro m hm
      rcases List.mem_append.1 hm with hold | hnew
      · exact ⟨(hbegun m hold).1, k.ne_accepted (hbegun m hold).2⟩
      · rw [← h.submissions]
        exact kbegun m hnew

/-!
# Small steps

Who counts a request out makes at most calls that stop servers go on.
-/

theorem attends_of_parts (h : e.Lined) (hservers : e'.servers = e.servers)
    (hsubmissions : e'.submissions = e.submissions) (hcompletions : e'.completions = e.completions)
    (hstarted : e'.started = e.started) (hwoken : e'.woken = e.woken) : Attends n e e' where
  lined := h.of_parts hservers hsubmissions
  submissions := congrArg List.length hsubmissions
  others m _ := .inl (congrArg Submission.phase (submission_of_submissions hsubmissions m))
  begun hn := by
    rw [submission_of_submissions hsubmissions]
    exact hn
  completions c hc := by
    rw [hcompletions] at hc
    exact .inl hc
  started := hstarted
  woken := ⟨[], by rw [hwoken, List.append_nil], fun _ hm => by cases hm⟩

theorem Attends.refl (h : e.Lined) : Attends n e e := attends_of_parts h rfl rfl rfl rfl rfl

theorem attends_modifyServer {k : Nat} {f : Server -> Server} (h : (e.modifyServer k f).Lined) :
    Attends n e (e.modifyServer k f) where
  lined := h
  submissions := rfl
  others _ _ := .inl rfl
  begun hn := hn
  completions _ hc := .inl hc
  started := rfl
  woken := ⟨[], (List.append_nil _).symm, fun _ hm => by cases hm⟩

theorem attends_setPhase (h : e.Lined) {old p : Phase} (hn : (e.submission n).phase = old)
    (hold : old ≠ .waiting) (hp : p ≠ .accepted) : Attends n e (e.setPhase n p) where
  lined := h.setPhase hn hold
  submissions := by simp [setPhase]
  others m hm := by
    rw [submission_setPhase, if_neg fun hboth => hm hboth.1]
    exact .inl rfl
  begun hbegun := by
    rw [submission_setPhase]
    split
    · exact hp
    · exact hbegun
  completions _ hc := .inl hc
  started := rfl
  woken := ⟨[], (List.append_nil _).symm, fun _ hm => by cases hm⟩

theorem attends_releaseSlot (h : e.Lined) (k : Nat) : Attends n e (e.releaseSlot k) where
  lined := h.releaseSlot k
  submissions := (spares_releaseSlot e k).submissions
  others m _ := stays_releaseSlot h k m
  begun hn := fun haccepted => hn ((stays_releaseSlot h k n).eq_accepted_iff.1 haccepted)
  completions c hc := by
    have hsame : (e.releaseSlot k).completions = e.completions := by
      unfold releaseSlot
      split <;> rfl
    rw [hsame] at hc
    exact .inl hc
  started := by
    unfold releaseSlot
    split <;> rfl
  woken := by
    cases hwaiting : (e.server k).waiting with
    | nil =>
        refine ⟨[], ?_, fun _ hm => by cases hm⟩
        unfold releaseSlot
        rw [hwaiting, List.append_nil]
        rfl
    | cons first rest =>
        refine ⟨[.request first], ?_, ?_⟩
        · unfold releaseSlot
          rw [hwaiting]
          rfl
        · intro m hm
          have hhead : (e.server k).waiting.head? = some m := by
            rw [hwaiting]
            cases List.mem_singleton.1 hm
            rfl
          have hwaits := ((h k).2 m (List.mem_of_mem_head? hhead)).2
          have hlt : m < e.submissions.length := lt_of_phase (by rw [hwaits]; rfl)
          rw [phase_releaseSlot, if_pos ⟨hhead, hlt⟩]
          exact ⟨hlt, by simp⟩

theorem received_ne_accepted (e : Engine) (n : Nat) (response : Response) :
    e.received n response ≠ .accepted := by
  unfold received
  split <;> simp

theorem attends_callBack {taken? : Option Nat} {response : Response}
    (h : (e.callBack n taken? response).Lined) :
    Attends n e (e.callBack n taken? response) where
  lined := h
  submissions := (spares_callBack e n taken? response).submissions
  others m hm := by
    rw [phase_callBack, if_neg fun hboth => hm hboth.1]
    exact .inl rfl
  begun hbegun := by
    rw [phase_callBack]
    split
    · exact received_ne_accepted e n response
    · exact hbegun
  completions c hc := by
    rw [completions_callBack] at hc
    rcases List.mem_append.1 hc with hold | hnew
    · exact .inl hold
    · rw [List.mem_singleton.1 hnew]
      exact .inr rfl
  started := by
    rw [replies_callBack e n taken? response]
  woken := by
    refine ⟨[], ?_, fun _ hm => by cases hm⟩
    rw [List.append_nil]
    simp only [callBack, hand]
    split <;> rfl

theorem woken_countOut (e : Engine) (k : Nat) : exists jobs : List Job,
    (e.countOut k).woken = e.woken ++ jobs ∧ forall m : Nat, .request m ∉ jobs := by
  simp only [countOut]
  split
  · refine ⟨_, rfl, ?_⟩
    intro m hm
    rcases List.mem_filterMap.1 hm with ⟨call, _, hcall⟩
    simp only at hcall
    split at hcall
    · cases hcall
    · cases hcall
  · exact ⟨[], (List.append_nil _).symm, fun _ hm => by cases hm⟩

theorem attends_comeBack (h : e.Lined) (m : Nat) : Attends n e (e.comeBack m) where
  lined := h.comeBack m
  submissions := (spares_comeBack e m).submissions
  others j _ := by
    rw [submission_of_submissions (submissions_comeBack e m)]
    exact .inl rfl
  begun hn := by
    rw [submission_of_submissions (submissions_comeBack e m)]
    exact hn
  completions c hc := by
    rw [completions_comeBack] at hc
    exact .inl hc
  started := by
    rw [replies_comeBack e m]
  woken := by
    rcases woken_countOut { e with calling := e.calling.erase m } (e.submission m).server with
      ⟨jobs, hjobs, hstops⟩
    exact ⟨jobs, hjobs, fun j hj => absurd hj (hstops j)⟩

/-!
# Answering and executing
-/

theorem attends_respond (h : e.Lined) (hn : (e.submission n).phase ≠ .waiting)
    (result : Except Failure (List (String × OutputStorage))) :
    Attends n e (e.respond n result) := by
  have hnoted : Attends n e (e.noteResult n result) := by
    cases result <;> exact attends_of_parts h rfl rfl rfl rfl rfl
  have hreleased := hnoted.trans (attends_releaseSlot hnoted.lined (e.submission n).server)
  exact hreleased.trans (attends_callBack (h.respond rfl hn result))

theorem attends_finish (h : e.Lined) (hn : (e.submission n).phase ≠ .waiting)
    (result : Except Failure (List (String × OutputStorage))) :
    Attends n e (e.finish n result) :=
  (attends_respond h hn result).trans (attends_comeBack (h.respond rfl hn result) n)

theorem attends_giveUp (h : e.Lined) (n : Nat) : Attends n e (e.giveUp n) := by
  have hwithdrawn : Attends n e (e.withdraw n) := by
    have hlined := (h.withdraw n).1
    simp only [withdraw] at hlined ⊢
    split at hlined
    · rename_i hholds
      rw [if_pos hholds]
      exact attends_releaseSlot h _
    · rename_i hholds
      rw [if_neg hholds]
      exact attends_modifyServer hlined
  have hreported : Attends n (e.withdraw n)
      ((e.withdraw n).report [.requestDropped (e.submission n).request.id]) :=
    attends_of_parts hwithdrawn.lined rfl rfl rfl rfl rfl
  exact (hwithdrawn.trans hreported).trans (attends_callBack (h.giveUp n))

theorem attends_unwind (h : e.Lined) (n : Nat) (slots : List OutputSlot) :
    Attends n e (e.unwind n slots) := by
  have hrecorded : Attends n e (e.recordUnwinding ⟨n, slots⟩) :=
    attends_of_parts h rfl rfl rfl rfl rfl
  have hgiven := hrecorded.trans (attends_giveUp hrecorded.lined n)
  exact hgiven.trans (attends_comeBack hgiven.lined n)

theorem attends_conclude (h : e.Lined) (hn : (e.submission n).phase ≠ .waiting)
    (result : Except Failure Unit) (slots : List OutputSlot) :
    Attends n e (e.conclude n result slots) := by
  have htaken : Attends n e (e.takeSlots n result slots) :=
    attends_of_parts h rfl rfl rfl rfl rfl
  exact htaken.trans (attends_finish htaken.lined hn (e.outcome n result slots).1)

theorem attends_proceed (h : e.Lined) (hn : (e.submission n).phase ≠ .waiting)
    (next : Behaviour) : Attends n e (e.proceed n next) := by
  induction next generalizing e with
  | finish result slots => exact attends_conclude h hn result slots
  | panic slots => exact attends_conclude h hn _ slots
  | awaitGate slots resume ih =>
      have hpass : forall p : Phase, p ≠ .accepted -> p ≠ .waiting ->
          Attends n e (e.setPhase n p) ∧ ((e.setPhase n p).submission n).phase ≠ .waiting := by
        intro p hp hpwaits
        refine ⟨attends_setPhase h rfl hn hp, ?_⟩
        rw [submission_setPhase]
        split
        · exact hpwaits
        · exact hn
      have hgate : forall (e : Engine) (gate : Gate), e.Lined ->
          Attends n e { e with gate := gate } :=
        fun _ _ hlined => attends_of_parts hlined rfl rfl rfl rfl rfl
      unfold proceed
      split
      · rcases hpass (.inBackend slots (resume false)) (by simp) (by simp) with ⟨hset, hphase⟩
        exact hset.trans (ih false hset.lined hphase)
      · split
        · rcases hpass (.atGate slots resume) (by simp) (by simp) with ⟨hset, _⟩
          exact hset.trans (hgate _ _ hset.lined)
        · rename_i permits hpermits
          rcases hpass (.inBackend slots (resume true)) (by simp) (by simp) with ⟨hset, hphase⟩
          have hpassed := hset.trans
            (hgate _ { e.gate with permits := permits } hset.lined)
          exact hpassed.trans (ih true hpassed.lined hphase)

theorem attends_enter (h : e.Lined) (hn : (e.submission n).phase.holdsSlot = true)
    (batch : ExecutionBatch) (next : Behaviour) :
    Attends n e ((e.enterBackend n batch).proceed n next) := by
  have hlt : n < (e.record (.execute n batch)).submissions.length :=
    lt_of_phase (Phase.isOpen_of_holdsSlot hn)
  have hrecorded : Attends n e (e.record (.execute n batch)) :=
    attends_of_parts h rfl rfl rfl rfl rfl
  have hnot : ((e.record (.execute n batch)).submission n).phase ≠ .waiting := by
    intro hwaits
    have hsame : (e.submission n).phase = .waiting := hwaits
    rw [hsame] at hn
    cases hn
  have hentered : Attends n e (e.enterBackend n batch) :=
    hrecorded.trans (attends_setPhase hrecorded.lined rfl hnot (by simp))
  have hphase : ((e.enterBackend n batch).submission n).phase ≠ .waiting := by
    unfold enterBackend
    rw [phase_setPhase_self hlt]
    simp
  exact hentered.trans (attends_proceed hentered.lined hphase next)

theorem attends_carryOut (h : e.Lined) (hn : (e.submission n).phase = .granted) :
    Attends n e (e.carryOut n) := by
  have hnot : (e.submission n).phase ≠ .waiting := by
    rw [hn]
    simp
  have hholds : (e.submission n).phase.holdsSlot = true := by
    rw [hn]
    rfl
  have hmemory : forall (a : Allocator) (events : List Event),
      Attends n e ((e.setMemory (e.submission n).server ⟨a, e.directory⟩).report events) :=
    fun _ _ => attends_of_parts h rfl rfl rfl rfl rfl
  have hfails : forall (a : Allocator) (events : List Event)
      (result : Except Failure (List (String × OutputStorage))), Attends n e
        (((e.setMemory (e.submission n).server ⟨a, e.directory⟩).report events).finish n result) :=
    fun a events result =>
      (hmemory a events).trans (attends_finish (hmemory a events).lined hnot result)
  have hunwinds : forall (a : Allocator) (events : List Event) (slots : List OutputSlot),
      Attends n e (((e.setMemory (e.submission n).server ⟨a, e.directory⟩).report events).unwind n
        slots) :=
    fun a events slots => (hmemory a events).trans (attends_unwind (hmemory a events).lined n slots)
  have henters : forall (a : Allocator) (events : List Event) (batch : ExecutionBatch)
      (next : Behaviour), Attends n e ((((e.setMemory (e.submission n).server
        ⟨a, e.directory⟩).report events).enterBackend n batch).proceed n next) :=
    fun a events batch next =>
      (hmemory a events).trans (attends_enter (hmemory a events).lined hholds batch next)
  simp only [carryOut]
  split
  · exact attends_finish h hnot _
  · split
    · exact hfails _ _ _
    · exact hunwinds _ _ _
    · exact henters _ _ _ _

theorem attends_execute (h : e.Lined) (hn : (e.submission n).phase = .granted) :
    Attends n e (e.execute n) := by
  have hreported : forall events : List Event, Attends n e (e.report events) :=
    fun _ => attends_of_parts h rfl rfl rfl rfl rfl
  exact (hreported _).trans (attends_carryOut h hn)

theorem attends_runRequest (h : e.Lined) (n : Nat) : Attends n e (e.runRequest n) := by
  unfold runRequest
  split
  · rename_i hphase
    have hlt : n < e.submissions.length := lt_of_phase (by rw [hphase]; rfl)
    split
    · rename_i e' htake
      rcases takeSlot?_eq_some htake with ⟨free, rfl⟩
      have htaken : Attends n e (e.modifyServer (e.submission n).server fun s =>
          { s with freeSlots := free }) := attends_modifyServer (h.modifyServer fun _ => rfl)
      have hgranted := htaken.trans
        (attends_setPhase (p := .granted) htaken.lined hphase (by simp) (by simp))
      exact hgranted.trans (attends_execute hgranted.lined (phase_setPhase_self hlt))
    · have hqueued : (e.awaitSlot n).Lined := h.awaitSlot hphase
      refine ⟨hqueued, by simp [awaitSlot, setPhase, modifyServer], ?_, ?_, fun _ hc => .inl hc,
        rfl, [], (List.append_nil _).symm, fun _ hm => by cases hm⟩
      · intro m hm
        rw [submission_awaitSlot_of_ne e hm]
        exact .inl rfl
      · intro hbegun
        exact absurd hphase hbegun
  · rename_i hphase
    exact attends_execute h hphase
  · rename_i slots resume hphase
    have hlt : n < e.submissions.length := lt_of_phase (by rw [hphase]; rfl)
    have hset : Attends n e (e.setPhase n (.inBackend slots (resume !e.gate.isClosed))) :=
      attends_setPhase h hphase (by simp) (by simp)
    refine hset.trans (attends_proceed hset.lined ?_ _)
    rw [phase_setPhase_self hlt]
    simp
  · exact .refl h

theorem attends_cancel (h : e.Lined) (n : Nat) : Attends n e (e.cancel n) := by
  unfold cancel
  split
  · exact (attends_giveUp h n).trans (attends_comeBack (h.giveUp n) n)
  · exact .refl h

end Engine

end InferenceEngine
