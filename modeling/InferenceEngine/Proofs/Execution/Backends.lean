import InferenceEngine.Proofs.Requests.Queue

/-!
# Requests inside their backends

A request enters its backend once and ends there once.  In between its backend does what it set
out to do with the batch, with the gate as the only guest at the table, and holds the slots of the
batch in whatever order.
-/

namespace InferenceEngine

/-!
# What a backend comes to
-/

inductive Behaviour.Leads (start : Behaviour) : Behaviour -> Prop where
  | refl : Leads start start
  | resume {slots : List OutputSlot} {resume : Bool -> Behaviour}
      (h : Leads start (.awaitGate slots resume)) (isThrough : Bool) :
      Leads start (resume isThrough)

theorem Behaviour.Leads.keeps {start b : Behaviour} {given : List OutputSlot}
    (h : start.Leads b) (k : start.Keeps given) : b.Keeps given := by
  induction h with
  | refl => exact k
  | resume _ isThrough ih => exact ih.2 isThrough

theorem Behaviour.Keeps.of_endsWith {b : Behaviour} {given slots : List OutputSlot}
    {model : String} {result : Except Failure Unit} (h : b.Keeps given)
    (k : b.EndsWith model result slots) : Rearranged given slots := by
  cases k with
  | finish => exact h
  | panic => exact h

def Backend.CanEnd (backend : Backend) (model : String) (n : Nat) (batch : ExecutionBatch)
    (result : Except Failure Unit) (slots : List OutputSlot) : Prop :=
  exists last : Behaviour,
    (backend.run n batch).Leads last ∧ last.EndsWith model result slots

theorem Backend.CanEnd.rearranged {backend : Backend} {model : String} {n : Nat}
    {batch : ExecutionBatch} {result : Except Failure Unit} {slots : List OutputSlot}
    (h : backend.CanEnd model n batch result slots) : Rearranged batch.outputs slots := by
  rcases h with ⟨last, hleads, hends⟩
  exact (hleads.keeps (backend.keeps n batch)).of_endsWith hends

/-!
# How far requests come

A request inside its backend holds the slots that the backend was given.
-/

namespace Phase

def isInside : Phase -> Bool
  | inBackend .. | atGate .. | letThrough .. => true
  | _ => false

/-- What a request inside its backend holds, if that has set out with certain slots. -/
def Follows (start : Behaviour) (given : List OutputSlot) : Phase -> Prop
  | inBackend slots next => Rearranged given slots ∧ start.Leads next
  | atGate slots resume => start.Leads (.awaitGate slots resume)
  | letThrough slots resume => start.Leads (.awaitGate slots resume)
  | _ => True

/-- A request is left alone, or it is given the slot that it waits for. -/
def Stays (p p' : Phase) : Prop := p' = p ∨ p = .waiting ∧ p' = .granted

/-- A request stays where it is with its backend, or comes further outside. -/
def Outlasts (p p' : Phase) : Prop :=
  p' = p ∨ p'.isInside = false ∧
    (p.isBeforeExecution = false -> p'.isBeforeExecution = false) ∧
    (p.isOpen = false -> p'.isOpen = false)

theorem Stays.outlasts {p p' : Phase} (h : p.Stays p') : p.Outlasts p' := by
  rcases h with hsame | ⟨rfl, rfl⟩
  · exact .inl hsame
  · exact .inr ⟨rfl, fun hbefore => (by cases hbefore), fun hclosed => by cases hclosed⟩

theorem Turns.isInside {p p' : Phase} (h : p.Turns p') :
    p.isInside = true ∧ p'.isInside = true := by
  cases h <;> exact ⟨rfl, rfl⟩

theorem Turns.response?_eq {p p' : Phase} (h : p.Turns p') : p'.response? = none := by
  cases h <;> rfl

theorem isBeforeExecution_of_isInside {p : Phase} (h : p.isInside = true) :
    p.isBeforeExecution = false := by
  cases p with
  | inBackend | atGate | letThrough => rfl
  | _ => cases h

theorem isOpen_of_isInside {p : Phase} (h : p.isInside = true) : p.isOpen = true := by
  cases p with
  | inBackend | atGate | letThrough => rfl
  | _ => cases h

theorem outlasts_of_before {p p' : Phase} (h : p.isBeforeExecution = true)
    (h' : p'.isInside = false) : p.Outlasts p' := by
  refine .inr ⟨h', ?_, ?_⟩
  · intro hbefore
    rw [h] at hbefore
    cases hbefore
  · intro hclosed
    cases p with
    | accepted | waiting | granted => cases hclosed
    | _ => cases h

theorem Turns.follows {p p' : Phase} {start : Behaviour} {given : List OutputSlot}
    (h : p.Turns p') (hkeeps : start.Keeps given) (k : p.Follows start given) :
    p'.Follows start given := by
  cases h with
  | pass held slots resume isThrough =>
      have hheld := (Behaviour.Leads.keeps k.2 hkeeps).1
      exact ⟨hheld, .resume k.2 isThrough⟩
  | await held slots resume => exact k.2
  | letThrough slots resume => exact k
  | resume slots resume isThrough =>
      have hheld := (Behaviour.Leads.keeps k hkeeps).1
      exact ⟨hheld, .resume k isThrough⟩

theorem Follows.rearranged {p : Phase} {start : Behaviour} {given : List OutputSlot}
    (h : p.Follows start given) (hkeeps : start.Keeps given) (hinside : p.isInside = true) :
    Rearranged given p.slots := by
  cases p with
  | inBackend slots next => exact h.1
  | atGate slots resume => exact (Behaviour.Leads.keeps h hkeeps).1
  | letThrough slots resume => exact (Behaviour.Leads.keeps h hkeeps).1
  | _ => cases hinside

end Phase

namespace Engine

theorem stays_releaseSlot {e : Engine} (h : e.Lined) (k m : Nat) :
    (e.submission m).phase.Stays ((e.releaseSlot k).submission m).phase := by
  rw [phase_releaseSlot]
  split
  · rename_i hm
    exact .inr ⟨((h k).2 m (List.mem_of_mem_head? hm.1)).2, rfl⟩
  · exact .inl rfl

theorem eq_of_received {e : Engine} {n : Nat} {given response : Response}
    (h : e.received n given = .answered response) : response = given := by
  unfold received at h
  split at h
  · cases h
    rfl
  · cases h

theorem answered_of_stays {p p' : Phase} {response : Response} (h : p.Stays p')
    (hp : p' = .answered response) : p = .answered response := by
  rcases h with hsame | ⟨_, hgranted⟩
  · rw [← hsame]
    exact hp
  · rw [hgranted] at hp
    cases hp

theorem phase_noteResult (e : Engine) (n m : Nat)
    (result : Except Failure (List (String × OutputStorage))) :
    ((e.noteResult n result).submission m).phase = (e.submission m).phase := by
  cases result <;> rfl

theorem lined_noteResult {e : Engine} (h : e.Lined) (n : Nat)
    (result : Except Failure (List (String × OutputStorage))) : (e.noteResult n result).Lined := by
  cases result <;> exact h

theorem stays_respond {e : Engine} (h : e.Lined) {n m : Nat} (hm : m ≠ n)
    (result : Except Failure (List (String × OutputStorage))) :
    (e.submission m).phase.Stays ((e.respond n result).submission m).phase := by
  unfold respond
  rw [phase_callBack, if_neg fun hboth => hm hboth.1, ← phase_noteResult e n m result]
  exact stays_releaseSlot (lined_noteResult h n result) _ m

theorem stays_giveUp {e : Engine} (h : e.Lined) {n m : Nat} (hm : m ≠ n) :
    (e.submission m).phase.Stays ((e.giveUp n).submission m).phase := by
  unfold giveUp
  rw [phase_callBack, if_neg fun hboth => hm hboth.1]
  show (e.submission m).phase.Stays ((e.withdraw n).submission m).phase
  simp only [withdraw]
  split
  · exact stays_releaseSlot h _ m
  · exact .inl rfl

theorem isAwaited_releaseSlot (e : Engine) (k m : Nat) :
    ((e.releaseSlot k).submission m).isAwaited = (e.submission m).isAwaited := by
  unfold releaseSlot
  split
  · rfl
  · show (((e.modifyServer k _).setPhase _ _).submission m).isAwaited = _
    rw [submission_setPhase]
    split
    · rename_i hm
      rw [hm.1]
      rfl
    · rfl

theorem phase_respond {e : Engine} {n : Nat} (hn : n < e.submissions.length)
    (result : Except Failure (List (String × OutputStorage))) :
    ((e.respond n result).submission n).phase =
      e.received n (e.responseTo n e.readings.computeTime result) := by
  have hmiddle := (spares_noteResult e n result).trans
    (spares_releaseSlot _ (e.submission n).server)
  unfold respond
  rw [phase_callBack, if_pos ⟨rfl, by rw [hmiddle.submissions]; exact hn⟩]
  unfold received
  rw [isAwaited_releaseSlot]
  cases result <;> rfl

theorem outlasts_received (e : Engine) (n : Nat) (response : Response) (p : Phase) :
    p.Outlasts (e.received n response) := by
  unfold received
  split
  · exact .inr ⟨rfl, fun _ => rfl, fun _ => rfl⟩
  · exact .inr ⟨rfl, fun _ => rfl, fun _ => rfl⟩

theorem outlasts_respond {e : Engine} (h : e.Lined) {n : Nat}
    (result : Except Failure (List (String × OutputStorage))) (m : Nat) :
    (e.submission m).phase.Outlasts ((e.respond n result).submission m).phase := by
  by_cases hm : m = n ∧ n < e.submissions.length
  · rw [hm.1, phase_respond hm.2]
    exact outlasts_received e n _ _
  · unfold respond
    rw [phase_callBack, if_neg, ← phase_noteResult e n m result]
    · exact (stays_releaseSlot (lined_noteResult h n result) _ m).outlasts
    · rw [(spares_releaseSlot _ _).submissions, (spares_noteResult e n result).submissions]
      exact hm

theorem outlasts_giveUp {e : Engine} (h : e.Lined) (n m : Nat) :
    (e.submission m).phase.Outlasts ((e.giveUp n).submission m).phase := by
  by_cases hm : m = n
  · unfold giveUp
    rw [phase_callBack]
    split
    · exact outlasts_received _ n _ _
    · rename_i hlt
      have hlt : ¬ n < (e.withdraw n).submissions.length := fun hlt' => hlt ⟨hm, hlt'⟩
      have hle := Nat.le_of_not_lt hlt
      have hle' := hle
      rw [(spares_withdraw e n).submissions] at hle'
      left
      rw [hm, phase_eq_closed hle']
      exact phase_eq_closed hle
  · exact (stays_giveUp h hm).outlasts

/-!
# Entering and ending

A request ends in its backend, and has not ended there before.
-/

theorem countP_concat_le_one {α : Type} {p : α -> Bool} {xs : List α} {x : α}
    (h : xs.countP p ≤ 1) (hfresh : p x = true -> forall y : α, y ∈ xs -> ¬ p y = true) :
    (xs ++ [x]).countP p ≤ 1 := by
  rw [List.countP_append, List.countP_singleton]
  split
  · rename_i hx
    have hzero := List.countP_eq_zero.2 (hfresh hx)
    omega
  · exact h

/-- The batches that have been handed over to backends, each with the number of its request. -/
def entries (e : Engine) : List (Nat × ExecutionBatch) :=
  e.calls.filterMap fun
    | .execute n batch => some (n, batch)
    | .create .. => none

/-- How often a batch has been handed over to the backend of a request. -/
def timesEntered (e : Engine) (n : Nat) : Nat := e.entries.countP fun x => x.1 = n

def timesEnded (e : Engine) (n : Nat) : Nat := e.endings.countP fun x => x.submission = n

/-- The calls of backends and the ways in which they have ended fit the requests. -/
structure Carried (e : Engine) : Prop where
  entered : forall (n : Nat) (batch : ExecutionBatch), (n, batch) ∈ e.entries ->
    n < e.submissions.length ∧ (e.submission n).phase.isBeforeExecution = false
  enteredOnce : forall n : Nat, e.timesEntered n ≤ 1
  inside : forall n : Nat, (e.submission n).phase.isInside = true ->
    exists batch : ExecutionBatch, (n, batch) ∈ e.entries ∧
      (e.submission n).phase.Follows ((e.submission n).request.model.backend.run n batch)
        batch.outputs
  ended : forall x : Ending, x ∈ e.endings ->
    (e.submission x.submission).phase.isOpen = false ∧
      exists batch : ExecutionBatch, (x.submission, batch) ∈ e.entries ∧
        (e.submission x.submission).request.model.backend.CanEnd
          (e.submission x.submission).request.model.config.name x.submission batch x.result x.slots
  endedOnce : forall n : Nat, e.timesEnded n ≤ 1

theorem carried_empty : empty.Carried where
  entered n batch h := by cases h
  enteredOnce n := Nat.zero_le _
  inside n h := by cases h
  ended x h := by cases h
  endedOnce n := Nat.zero_le _

/-- What changes neither the entries nor the endings has only to mind how far requests come. -/
theorem Carried.of_outlasts {e e' : Engine} (h : e.Carried) (hentries : e'.entries = e.entries)
    (hendings : e'.endings = e.endings)
    (hlength : e.submissions.length ≤ e'.submissions.length)
    (hrequest : forall m : Nat, m < e.submissions.length ->
      (e'.submission m).request = (e.submission m).request)
    (hphase : forall m : Nat, m < e.submissions.length ->
      (e.submission m).phase.Outlasts (e'.submission m).phase)
    (hnew : forall m : Nat, e.submissions.length ≤ m -> (e'.submission m).phase.isInside = false) :
    e'.Carried where
  entered n batch hentered := by
    rw [hentries] at hentered
    rcases h.entered n batch hentered with ⟨hlt, hbefore⟩
    constructor
    · exact Nat.lt_of_lt_of_le hlt hlength
    · rcases hphase n hlt with hsame | ⟨_, hkept, _⟩
      · rw [hsame]
        exact hbefore
      · exact hkept hbefore
  enteredOnce n := by
    unfold timesEntered
    rw [hentries]
    exact h.enteredOnce n
  inside n hinside := by
    have hlt : n < e.submissions.length := by
      apply Nat.lt_of_not_le
      intro hle
      rw [hnew n hle] at hinside
      cases hinside
    rcases hphase n hlt with hsame | ⟨houtside, _⟩
    · rw [hsame] at hinside ⊢
      rw [hrequest n hlt, hentries]
      exact h.inside n hinside
    · rw [houtside] at hinside
      cases hinside
  ended x hx := by
    rw [hendings] at hx
    rcases h.ended x hx with ⟨hopen, batch, hentered, hcan⟩
    have hlt := (h.entered _ batch hentered).1
    refine ⟨?_, batch, ?_, ?_⟩
    · rcases hphase x.submission hlt with hsame | ⟨_, _, hkept⟩
      · rw [hsame]
        exact hopen
      · exact hkept hopen
    · rw [hentries]
      exact hentered
    · rw [hrequest x.submission hlt]
      exact hcan
  endedOnce n := by
    unfold timesEnded
    rw [hendings]
    exact h.endedOnce n

theorem Carried.of_parts {e e' : Engine} (h : e.Carried) (hentries : e'.entries = e.entries)
    (hendings : e'.endings = e.endings) (hsubmissions : e'.submissions = e.submissions) :
    e'.Carried := by
  have hsame : forall m : Nat, e'.submission m = e.submission m := by
    intro m
    unfold submission
    rw [hsubmissions]
  apply h.of_outlasts hentries hendings
  · exact Nat.le_of_eq (congrArg List.length hsubmissions.symm)
  · intro m _
    rw [hsame]
  · intro m _
    exact .inl (congrArg Submission.phase (hsame m))
  · intro m hm
    apply Bool.eq_false_iff.2
    intro hinside
    rw [hsame] at hinside
    exact Nat.not_lt_of_le hm (lt_of_phase (Phase.isOpen_of_isInside hinside))

theorem Spares.carried {e e' : Engine} (h : e.Spares e') (k : e.Carried)
    (hphase : forall m : Nat, (e.submission m).phase.Outlasts (e'.submission m).phase) :
    e'.Carried := by
  have hentries : e'.entries = e.entries := by
    unfold entries
    rw [h.calls]
  refine k.of_outlasts hentries h.endings (Nat.le_of_eq h.submissions.symm) ?_
    (fun m _ => hphase m) ?_
  · intro m _
    rw [h.submission m]
  · intro m hm
    apply Bool.eq_false_iff.2
    intro hinside
    have hlt := lt_of_phase (Phase.isOpen_of_isInside hinside)
    rw [h.submissions] at hlt
    exact Nat.not_lt_of_le hm hlt

theorem outlasts_setPhase {e : Engine} {n : Nat} {p : Phase}
    (h : (e.submission n).phase.Outlasts p) (m : Nat) :
    (e.submission m).phase.Outlasts ((e.setPhase n p).submission m).phase := by
  rw [submission_setPhase]
  split
  · rename_i hm
    rw [hm.1]
    exact h
  · exact .inl rfl

theorem Carried.enroll {e : Engine} (h : e.Carried) (server callback : Nat)
    (request : PreparedRequest) :
    ((e.countIn server).enroll server request callback).Carried := by
  have hsubmission : forall m : Nat,
      ((e.countIn server).enroll server request callback).submission m =
        if m = e.submissions.length then ⟨server, request, callback, .accepted, true⟩
        else e.submission m :=
    submission_enroll (e.countIn server) server callback request
  have hold : forall m : Nat, m < e.submissions.length ->
      ((e.countIn server).enroll server request callback).submission m = e.submission m := by
    intro m hm
    rw [hsubmission m, if_neg (Nat.ne_of_lt hm)]
  refine h.of_outlasts rfl rfl ?_ ?_ ?_ ?_
  · simp [Engine.enroll, countIn, modifyServer]
  · intro m hm
    rw [hold m hm]
  · intro m hm
    exact .inl (congrArg Submission.phase (hold m hm))
  · intro m hm
    rw [hsubmission m]
    split
    · rfl
    · apply Bool.eq_false_iff.2
      intro hinside
      have hlt := lt_of_phase (Phase.isOpen_of_isInside hinside)
      exact Nat.not_lt_of_le hm hlt

theorem entries_enterBackend (e : Engine) (n : Nat) (batch : ExecutionBatch) :
    (e.enterBackend n batch).entries = e.entries ++ [(n, batch)] := by
  simp [entries, enterBackend, setPhase, record]

theorem phase_enterBackend {e : Engine} {n : Nat} (hn : n < e.submissions.length)
    (batch : ExecutionBatch) (m : Nat) :
    ((e.enterBackend n batch).submission m).phase =
      if m = n then .inBackend batch.outputs ((e.submission n).request.model.backend.run n batch)
      else (e.submission m).phase := by
  show (((e.record _).setPhase n _).submission m).phase = _
  rw [submission_setPhase]
  by_cases hm : m = n
  · rw [if_pos ⟨hm, hn⟩, if_pos hm]
  · rw [if_neg fun hboth => hm hboth.1, if_neg hm]
    rfl

theorem request_enterBackend (e : Engine) (n : Nat) (batch : ExecutionBatch) (m : Nat) :
    ((e.enterBackend n batch).submission m).request = (e.submission m).request := by
  have hspares := spares_setPhase (e.record (.execute n batch)) n
    (.inBackend batch.outputs ((e.submission n).request.model.backend.run n batch))
  show (((e.record _).setPhase n _).submission m).request = _
  rw [hspares.submission m]
  rfl

theorem Carried.enterBackend {e : Engine} (h : e.Carried) {n : Nat}
    (hn : (e.submission n).phase = .granted) (batch : ExecutionBatch) :
    (e.enterBackend n batch).Carried := by
  have hlt : n < e.submissions.length := lt_of_phase (by rw [hn]; rfl)
  have hentries := e.entries_enterBackend n batch
  have hfresh : forall other : ExecutionBatch, (n, other) ∉ e.entries := by
    intro other hentered
    have hbefore := (h.entered n other hentered).2
    rw [hn] at hbefore
    cases hbefore
  have hphase := phase_enterBackend hlt batch
  have hrequest := e.request_enterBackend n batch
  constructor
  · intro m other hentered
    have hlength : (e.enterBackend n batch).submissions.length = e.submissions.length := by
      simp [Engine.enterBackend, setPhase, record]
    rw [hphase, hlength]
    rw [hentries] at hentered
    rcases List.mem_append.1 hentered with hold | hnew
    · by_cases hm : m = n
      · rw [hm] at hold
        exact absurd hold (hfresh other)
      · rw [if_neg hm]
        exact h.entered m other hold
    · have hm : m = n := congrArg Prod.fst (List.mem_singleton.1 hnew)
      rw [hm, if_pos rfl]
      exact ⟨hlt, rfl⟩
  · intro m
    unfold timesEntered
    rw [hentries]
    apply countP_concat_le_one (h.enteredOnce m)
    intro hm
    have hm : n = m := by simpa using hm
    rintro ⟨k, other⟩ hother hsame
    have hk : k = m := by simpa using hsame
    rw [hk, ← hm] at hother
    exact hfresh other hother
  · intro m hinside
    rw [hphase] at hinside ⊢
    rw [hrequest, hentries]
    by_cases hm : m = n
    · rw [if_pos hm, hm]
      exact ⟨batch, List.mem_append_right _ (List.mem_singleton_self _), Rearranged.refl _, .refl⟩
    · rw [if_neg hm] at hinside ⊢
      rcases h.inside m hinside with ⟨other, hentered, hfollows⟩
      exact ⟨other, List.mem_append_left _ hentered, hfollows⟩
  · intro x hx
    rcases h.ended x hx with ⟨hopen, other, hentered, hcan⟩
    rw [hphase, hrequest, hentries]
    refine ⟨?_, other, List.mem_append_left _ hentered, hcan⟩
    by_cases hm : x.submission = n
    · rw [hm, hn] at hopen
      cases hopen
    · rw [if_neg hm]
      exact hopen
  · exact h.endedOnce

theorem Carried.turn {e : Engine} (h : e.Carried) {n : Nat} {p : Phase}
    (hn : (e.submission n).phase.Turns p) : (e.setPhase n p).Carried := by
  have hspares := spares_setPhase e n p
  have hinside := hn.isInside
  constructor
  · intro m batch hentered
    rw [hspares.submissions]
    constructor
    · exact (h.entered m batch hentered).1
    · rw [submission_setPhase]
      split
      · exact Phase.isBeforeExecution_of_isInside hinside.2
      · exact (h.entered m batch hentered).2
  · exact h.enteredOnce
  · intro m hm
    rw [hspares.submission m] at hm ⊢
    rw [submission_setPhase] at hm ⊢
    split at hm
    · rename_i hsame
      rcases h.inside n hinside.1 with ⟨batch, hentered, hfollows⟩
      rw [if_pos hsame, hsame.1]
      exact ⟨batch, hentered, hn.follows ((e.submission n).request.model.backend.keeps n batch)
        hfollows⟩
    · rename_i hother
      rw [if_neg hother]
      exact h.inside m hm
  · intro x hx
    rcases h.ended x hx with ⟨hopen, batch, hentered, hcan⟩
    rw [hspares.submission x.submission]
    refine ⟨?_, batch, hentered, hcan⟩
    rw [submission_setPhase]
    split
    · rename_i hsame
      rw [hsame.1] at hopen
      rw [Phase.isOpen_of_isInside hinside.1] at hopen
      cases hopen
    · exact hopen
  · exact h.endedOnce

theorem Carried.note_ending {e e' : Engine} (h : e.Carried) {n : Nat}
    {held slots : List OutputSlot} {next : Behaviour} {result : Except Failure Unit}
    (hn : (e.submission n).phase = .inBackend held next)
    (hnext : next.EndsWith (e.submission n).request.model.config.name result slots)
    (hentries : e'.entries = e.entries)
    (hendings : e'.endings = e.endings ++ [⟨n, result, slots⟩])
    (hlength : e'.submissions.length = e.submissions.length)
    (hrequest : forall m : Nat, (e'.submission m).request = (e.submission m).request)
    (hphase : forall m : Nat, (e.submission m).phase.Outlasts (e'.submission m).phase)
    (hclosed : (e'.submission n).phase.isOpen = false) : e'.Carried := by
  -- But for the ending that is noted, nothing has happened.
  have hold : { e' with endings := e.endings }.Carried := by
    refine h.of_outlasts hentries rfl (Nat.le_of_eq hlength.symm) (fun m _ => hrequest m)
      (fun m _ => hphase m) ?_
    intro m hm
    apply Bool.eq_false_iff.2
    intro hinside
    have hlt : m < e'.submissions.length := lt_of_phase (Phase.isOpen_of_isInside hinside)
    omega
  refine ⟨hold.entered, hold.enteredOnce, hold.inside, ?_, ?_⟩
  · intro x hx
    rw [hendings] at hx
    rcases List.mem_append.1 hx with hpast | hnow
    · exact hold.ended x hpast
    · rw [List.mem_singleton.1 hnow]
      have hinside : (e.submission n).phase.isInside = true := by
        rw [hn]
        rfl
      rcases h.inside n hinside with ⟨batch, hentered, hfollows⟩
      rw [hn] at hfollows
      refine ⟨hclosed, batch, ?_, ?_⟩
      · rw [hentries]
        exact hentered
      · rw [hrequest n]
        exact ⟨next, hfollows.2, hnext⟩
  · intro m
    unfold timesEnded
    rw [hendings]
    apply countP_concat_le_one (h.endedOnce m)
    intro hm
    have hm : n = m := by simpa using hm
    intro x hx hsame
    have hsame : x.submission = m := by simpa using hsame
    have hopen := (h.ended x hx).1
    rw [hsame, ← hm, hn] at hopen
    cases hopen

theorem Carried.leaveBackend {e : Engine} (h : e.Carried) (hlined : e.Lined) {n : Nat}
    {held slots : List OutputSlot} {next : Behaviour} {result : Except Failure Unit}
    (hn : (e.submission n).phase = .inBackend held next)
    (hnext : next.EndsWith (e.submission n).request.model.config.name result slots) :
    (e.leaveBackend n result slots).Carried := by
  have hlt : n < e.submissions.length := lt_of_phase (by rw [hn]; rfl)
  have htaken : (e.takeSlots n result slots).Lined := hlined.of_parts rfl rfl
  have hspares := spares_respond (e.takeSlots n result slots) n (e.outcome n result slots).1
  have hrespond := outlasts_respond htaken (n := n) (e.outcome n result slots).1
  have hphase := @phase_respond (e.takeSlots n result slots) n hlt (e.outcome n result slots).1
  refine h.note_ending hn hnext ?_ hspares.endings hspares.submissions ?_ hrespond ?_
  · unfold entries
    rw [show (e.leaveBackend n result slots).calls = e.calls from hspares.calls]
  · intro m
    show (((e.takeSlots n result slots).respond n _).submission m).request = _
    rw [hspares.submission m]
    rfl
  · show (((e.takeSlots n result slots).respond n _).submission n).phase.isOpen = false
    rw [hphase]
    unfold received
    split <;> rfl

theorem Move.carried {deed : Deed} {e e' : Engine} (h : Move deed e e') (hlined : e.Lined)
    (k : e.Carried) : e'.Carried := by
  cases h with
  | schedule | close | directory | stops | addStats | addServer | server | addAllocator
  | useAllocator => exact k.of_parts rfl rfl rfl
  | create _ config version polled =>
      refine k.of_parts ?_ rfl rfl
      simp [entries, record]
  | enroll _ server callback provider request hstate hprepare =>
      exact k.enroll server callback request
  | awaitSlot _ n hn =>
      have hqueue : (e.modifyServer (e.submission n).server fun s =>
          { s with waiting := s.waiting ++ [n] }).Carried := k.of_parts rfl rfl rfl
      have hbefore : (e.submission n).phase.isBeforeExecution = true := by
        rw [hn]
        rfl
      exact (spares_setPhase _ n .waiting).carried hqueue
        (outlasts_setPhase (Phase.outlasts_of_before hbefore rfl))
  | takeSlot _ e' n hn htake =>
      rcases takeSlot?_eq_some htake with ⟨free, rfl⟩
      have htaken : (e.modifyServer (e.submission n).server fun s =>
          { s with freeSlots := free }).Carried := k.of_parts rfl rfl rfl
      have hbefore : (e.submission n).phase.isBeforeExecution = true := by
        rw [hn]
        rfl
      exact (spares_setPhase _ n .granted).carried htaken
        (outlasts_setPhase (Phase.outlasts_of_before hbefore rfl))
  | gatherFails _ n failure hn hgather =>
      exact (spares_respond e n _).carried k (outlasts_respond hlined _)
  | allocateFails _ n failure a events hn hallocate =>
      have hgivenBack : ((e.setMemory (e.submission n).server ⟨a, e.directory⟩).report
          events).Carried := k.of_parts rfl rfl rfl
      have hqueues : ((e.setMemory (e.submission n).server ⟨a, e.directory⟩).report
          events).Lined := hlined.of_parts rfl rfl
      exact (spares_respond _ n _).carried hgivenBack (outlasts_respond hqueues _)
  | unwind _ n slots a events hn hallocate =>
      have hforfeited : (e.forfeit n slots a events).Carried := k.of_parts rfl rfl rfl
      have hqueues : (e.forfeit n slots a events).Lined := hlined.of_parts rfl rfl
      exact (spares_giveUp _ n).carried hforfeited (outlasts_giveUp hqueues n)
  | enter _ n inputs slots a events hn hgather hallocate =>
      have hallocated : ((e.setMemory (e.submission n).server ⟨a, e.directory⟩).report
          events).Carried := k.of_parts rfl rfl rfl
      exact hallocated.enterBackend hn _
  | turn _ n p hn => exact k.turn hn
  | leave _ n held next result slots hn hnext => exact k.leaveBackend hlined hn hnext
  | cancel _ n hn => exact (spares_giveUp e n).carried k (outlasts_giveUp hlined n)
  | comeBack _ n hn =>
      apply (spares_comeBack e n).carried k
      intro m
      unfold submission
      rw [submissions_comeBack]
      exact .inl rfl
  | dropResponse _ n response hn =>
      have hreleased : (e.releaseResponse response).Carried := k.of_parts rfl rfl rfl
      refine (spares_setPhase _ n .closed).carried hreleased (outlasts_setPhase (.inr ?_))
      exact ⟨rfl, fun _ => rfl, fun _ => rfl⟩
  | ignore _ n =>
      apply (spares_ignore e n).carried k
      intro m
      rw [phase_ignore]
      exact .inl rfl

theorem Reachable.carried {e : Engine} (h : e.Reachable) : e.Carried := by
  apply Reachable.induct carried_empty _ h
  intro deed e e' hreachable hmove hcarried
  exact hmove.carried hreachable.lined hcarried

end Engine

end InferenceEngine
