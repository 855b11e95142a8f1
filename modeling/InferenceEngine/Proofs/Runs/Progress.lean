import InferenceEngine.Proofs.Requests.Driven
import InferenceEngine.Proofs.Servers.Stops

/-!
# Requests come to their end

Each operation leaves all open requests driven on by something, and each turn of a job uses up some
of the work that is left.  So where the gate is closed and jobs are run, in whatever order, there
comes a time when nothing is left to run, and then no request is open.
-/

namespace InferenceEngine

namespace Engine

variable {e e' : Engine} {turn : Option Nat} {passing : List Nat} {n : Nat}

/-!
# Turns

What a stop call does when it has its turn is not work for anybody.
-/

theorem mem_of_mem_eraseIdx {α : Type} {xs : List α} {x y : α} {position : Nat}
    (hx : x ∈ xs) (hy : xs[position]? = some y) (hne : x ≠ y) : x ∈ xs.eraseIdx position := by
  rcases List.mem_iff_getElem?.1 hx with ⟨i, hi⟩
  apply List.mem_eraseIdx_iff_getElem?.2
  refine ⟨i, ?_, hi⟩
  intro hsame
  rw [hsame, hy] at hi
  exact hne (Option.some.inj hi).symm

theorem Driven.dequeue (h : e.Driven none passing) {position : Nat} {job : Job}
    (hjob : e.queue[position]? = some job)
    (hturn : forall m : Nat, job = .request m -> turn = some m) :
    (e.dequeue position).Driven turn passing := by
  have hservers : (e.dequeue position).servers = e.servers := by
    unfold Engine.dequeue
    split <;> rfl
  have hsubmissions : (e.dequeue position).submissions = e.submissions := by
    unfold Engine.dequeue
    split <;> rfl
  have hgate : (e.dequeue position).gate = e.gate := by
    unfold Engine.dequeue
    split <;> rfl
  have hsubmission := submission_of_submissions hsubmissions
  have hserver := server_of_servers hservers
  constructor
  · exact h.lined.of_parts hservers hsubmissions
  · intro m hm
    rw [hsubmission] at hm
    rcases h.ready m hm with hnone | hqueue
    · cases hnone
    · by_cases hsame : job = .request m
      · exact .inl (hturn m hsame)
      · right
        rw [queue_dequeue]
        exact mem_of_mem_eraseIdx hqueue hjob (Ne.symm hsame)
  · intro m held next hm
    rw [hsubmission] at hm
    cases h.active m held next hm
  · intro m held resume hm
    rw [hsubmission] at hm
    rw [hgate]
    exact h.atGate m held resume hm
  · intro m hm
    rw [hsubmission] at hm ⊢
    rw [hserver]
    exact h.waits m hm
  · intro k hk
    rw [hserver] at hk ⊢
    exact h.full k hk
  · intro k hk hfree
    rw [hservers] at hk
    rw [hserver] at hfree
    rcases h.held k hk hfree with ⟨m, hm⟩
    refine ⟨m, ?_⟩
    rw [hsubmission]
    exact hm

theorem work_dequeue {position : Nat} (h : position < e.queue.length) :
    (e.dequeue position).work + 1 = e.work := by
  have hagrees : e.Agrees (e.dequeue position) := by
    unfold Engine.dequeue
    split <;> exact .of_parts rfl rfl rfl rfl
  have hlength : (e.dequeue position).queue.length + 1 = e.queue.length := by
    rw [queue_dequeue, List.length_eraseIdx_of_lt h]
    exact Nat.sub_add_cancel (Nat.lt_of_le_of_lt (Nat.zero_le _) h)
  unfold work
  rw [hagrees.openCount, stops_dequeue, ← hlength]
  omega

theorem work_runStop (e : Engine) (n : Nat) : (e.runStop n).work ≤ e.work := by
  have hmanages := manages_runStop e n
  have hopen : (e.runStop n).openCount = e.openCount := by
    unfold Engine.openCount submission
    rw [hmanages.submissions]
  have hqueue : (e.runStop n).queue = e.queue := by
    unfold Engine.queue
    rw [hmanages.woken, hmanages.started]
  unfold work
  apply Nat.le_of_eq
  rw [hopen, hqueue, length_stops_runStop]

theorem Driven.runAt (h : e.Driven none []) (htally : e.Tally) (position : Nat) :
    (e.runAt position).Driven none [] ∧
      (position < e.queue.length -> (e.runAt position).work < e.work) := by
  unfold Engine.runAt
  cases hjob : e.queue[position]? with
  | none =>
      constructor
      · exact h
      · intro hlt
        rw [List.getElem?_eq_getElem hlt] at hjob
        cases hjob
  | some job =>
      have hlt : position < e.queue.length := (List.getElem?_eq_some_iff.1 hjob).1
      have hwork := work_dequeue hlt
      cases job with
      | request n =>
          have htaken : (e.dequeue position).Driven (some n) [] :=
            h.dequeue hjob fun m hm => congrArg some (Job.request.inj hm)
          have hservers : (e.dequeue position).servers = e.servers := by
            unfold Engine.dequeue
            split <;> rfl
          have hsubmissions : (e.dequeue position).submissions = e.submissions := by
            unfold Engine.dequeue
            split <;> rfl
          have hrun := htaken.runRequest (n := n)
            (by
              intro held next hphase
              rw [submission_of_submissions hsubmissions] at hphase
              cases h.active n held next hphase)
            (by
              intro hlt
              rw [hsubmissions] at hlt
              rw [submission_of_submissions hsubmissions, hservers]
              exact htally.server n hlt)
          exact ⟨hrun.1, fun _ => by
            have hle := hrun.2
            show ((e.dequeue position).runRequest n).work < _
            omega⟩
      | stop n =>
          have htaken : (e.dequeue position).Driven none [] := h.dequeue hjob nofun
          have hrun := work_runStop (e.dequeue position) n
          exact ⟨(manages_runStop _ n).driven htaken, fun _ => by
            show ((e.dequeue position).runStop n).work < _
            omega⟩

/-!
# The gate

One that may pass goes on if it waits at the gate.
-/

theorem Driven.letThrough (h : e.Driven none (n :: passing)) :
    (e.letThrough n).Driven none passing := by
  unfold Engine.letThrough
  split
  · rename_i slots resume hphase
    have hstarted : (e.start [.request n]).Driven none (n :: passing) :=
      h.of_same rfl rfl (fun j hj => mem_queue_start.2 (.inl hj)) rfl
    have hset := hstarted.setPhase (n := n) (p := .letThrough slots resume) hphase nofun nofun
      (fun _ => rfl) (fun _ => .inr (mem_queue_start.2 (.inr (List.mem_singleton_self _))))
      nofun nofun
    refine ⟨hset.lined, hset.ready, hset.active, ?_, hset.waits, hset.full, hset.held⟩
    intro m held resume' hm
    rcases hset.atGate m held resume' hm with hpasses | hwaits
    · rcases List.mem_cons.1 hpasses with hself | hrest
      · have hlt : n < (e.start [.request n]).submissions.length := by
          have hopen : (e.submission n).phase.isOpen = true := by
            rw [hphase]
            rfl
          exact lt_of_phase hopen
        have hthrough := phase_setPhase_self (p := .letThrough slots resume) hlt
        rw [hself] at hm
        cases hm.symm.trans hthrough
      · exact .inl hrest
    · exact .inr hwaits
  · rename_i hphase
    refine ⟨h.lined, h.ready, h.active, ?_, h.waits, h.full, h.held⟩
    intro m held resume hm
    rcases h.atGate m held resume hm with hpasses | hwaits
    · rcases List.mem_cons.1 hpasses with hself | hrest
      · rw [hself] at hm
        exact absurd hm (hphase held resume)
      · exact .inl hrest
    · exact .inr hwaits

theorem Driven.letAllThrough (h : e.Driven none passing) :
    (passing.foldl Engine.letThrough e).Driven none [] := by
  induction passing generalizing e with
  | nil => exact h
  | cons n rest ih => exact ih h.letThrough

theorem Driven.openGate (h : e.Driven none []) (permits : Nat) :
    (e.openGate permits).Driven none [] := by
  apply letAllThrough
  refine ⟨h.lined, h.ready, h.active, ?_, h.waits, h.full, h.held⟩
  intro m held resume hm
  rcases h.atGate m held resume hm with hpasses | hwaits
  · cases hpasses
  · have hsplit := hwaits.1
    rw [← List.take_append_drop permits e.gate.waiting] at hsplit
    rcases List.mem_append.1 hsplit with hthrough | hkept
    · exact .inl hthrough
    · exact .inr ⟨hkept, hwaits.2⟩

theorem Driven.closeGate (h : e.Driven none []) : e.closeGate.Driven none [] := by
  apply letAllThrough
  refine ⟨h.lined, h.ready, h.active, ?_, h.waits, h.full, h.held⟩
  intro m held resume hm
  rcases h.atGate m held resume hm with hpasses | hwaits
  · cases hpasses
  · exact .inl hwaits.1

/-!
# Operations

A request that is accepted has its turn until it is in the queue.
-/

theorem Driven.addServer (h : e.Driven turn passing) {options : ServerOptions}
    (hslots : options.executionSlots ≠ 0) (allocator : Nat) (table : ModelTable) :
    (e.addServer options allocator table).Driven turn passing := by
  have hserver : forall k : Nat,
      ((e.addServer options allocator table).server k).waiting = (e.server k).waiting := by
    intro k
    rw [server_addServer]
    split
    · rename_i hk
      rw [waiting_eq_nil (Nat.le_of_eq hk.symm)]
      rfl
    · rfl
  refine ⟨?_, h.ready, h.active, h.atGate, ?_, ?_, ?_⟩
  · intro k
    rw [hserver]
    exact h.lined k
  · intro m hm
    rw [hserver]
    exact h.waits m hm
  · intro k hk
    rw [hserver] at hk
    have hlt : k < e.servers.length := by
      by_contra hge
      exact hk (waiting_eq_nil (Nat.le_of_not_lt hge))
    rw [server_addServer, if_neg (Nat.ne_of_lt hlt)]
    exact h.full k hk
  · intro k hk hfree
    rw [server_addServer] at hfree
    split at hfree
    · exact absurd hfree hslots
    · rename_i hother
      have hlength : (e.addServer options allocator table).servers.length =
          e.servers.length + 1 := by simp [Engine.addServer]
      rw [hlength] at hk
      exact h.held k (Nat.lt_of_le_of_ne (Nat.le_of_lt_succ hk) hother) hfree

theorem Driven.build (h : e.Driven turn passing) (options : ServerOptions)
    (allocator : Option Nat) (scan : Except Failure (List RepositoryModel))
    (factory : Option BackendFactory) (isInside : Bool) :
    (e.build options allocator scan factory isInside).2.Driven turn passing := by
  simp only [Engine.build]
  split
  · exact h
  · split
    · exact h
    · rename_i hslots
      cases scan with
      | error failure => exact h
      | ok models =>
          have hloaded := (manages_reconcile e factory none options .empty models).driven h
          simp only
          split
          · exact hloaded.report _
          · cases allocator with
            | some number => exact (hloaded.addServer hslots _ _).report _
            | none =>
                have hadded : ((e.reconcile factory none options .empty models).2.2.addAllocator
                    (.pooled (.new options.memory))).1.Driven turn passing :=
                  hloaded.of_same rfl rfl (fun _ hj => hj) rfl
                exact (hadded.addServer hslots _ _).report _

theorem Driven.enroll (h : e.Driven none passing) (server : Nat) (request : PreparedRequest)
    (callback : Nat) :
    ((e.countIn server).enroll server request callback).Driven (some e.submissions.length)
      passing := by
  have hcount : (e.countIn server).Driven none passing := by
    refine h.of_parts ?_ (by simp [countIn, modifyServer]) (fun _ => ⟨rfl, rfl⟩)
      (fun _ hj => hj) rfl
    intro k
    rw [server_countIn]
    split
    · rename_i hk
      rw [hk.1]
      exact ⟨rfl, rfl⟩
    · exact ⟨rfl, rfl⟩
  have hold := submission_enroll (e.countIn server) server callback request
  have hother : forall m : Nat, (e.submission m).phase.isOpen = true ->
      ((e.countIn server).enroll server request callback).submission m = e.submission m := by
    intro m hm
    exact (hold m).trans (if_neg (Nat.ne_of_lt (lt_of_phase hm)))
  have hcases : forall m : Nat,
      m = e.submissions.length ∧
        (((e.countIn server).enroll server request callback).submission m).phase = .accepted ∨
      ((e.countIn server).enroll server request callback).submission m = e.submission m := by
    intro m
    by_cases hm : m = e.submissions.length
    · exact .inl ⟨hm, congrArg Submission.phase ((hold m).trans (if_pos hm))⟩
    · exact .inr ((hold m).trans (if_neg hm))
  constructor
  · intro k
    constructor
    · exact (hcount.lined k).1
    · intro m hm
      have hbefore := (hcount.lined k).2 m hm
      have hwaits : (e.submission m).phase = .waiting := hbefore.2
      rw [hother m (by rw [hwaits]; rfl)]
      exact hbefore
  · intro m hm
    rcases hcases m with ⟨hself, _⟩ | hsame
    · exact .inl (congrArg some hself.symm)
    · rw [hsame] at hm
      rcases hcount.ready m hm with hnone | hqueue
      · cases hnone
      · exact .inr hqueue
  · intro m held next hm
    rcases hcases m with ⟨_, hself⟩ | hsame
    · rw [hself] at hm
      cases hm
    · rw [hsame] at hm
      cases hcount.active m held next hm
  · intro m held resume hm
    rcases hcases m with ⟨_, hself⟩ | hsame
    · rw [hself] at hm
      cases hm
    · rw [hsame] at hm
      exact hcount.atGate m held resume hm
  · intro m hm
    rcases hcases m with ⟨_, hself⟩ | hsame
    · rw [hself] at hm
      cases hm
    · rw [hsame] at hm ⊢
      exact hcount.waits m hm
  · exact hcount.full
  · intro k hk hfree
    rcases hcount.held k hk hfree with ⟨m, hm, hslot⟩
    have hopen : (e.submission m).phase.isOpen = true := Phase.isOpen_of_holdsSlot hslot
    refine ⟨m, ?_⟩
    rw [hother m hopen]
    exact ⟨hm, hslot⟩

theorem Driven.submit (h : e.Driven none passing) (server callback : Nat) (provider : Provider) :
    (e.submit server provider callback).2.Driven none passing := by
  unfold Engine.submit
  split
  · exact h
  · split
    · exact h
    · split
      · show ((e.countIn server).countOut server).Driven none passing
        have hsame := countOut_countIn e server
        refine h.of_same ?_ ?_ ?_ ?_
        · exact servers_countOut_countIn e server
        · rw [hsame]
        · exact fun j hj => mem_queue_countOut (e := e.countIn server) hj server
        · rw [hsame]
      · rename_i request hprepare
        have henrolled := (h.enroll server request callback).report
          [.requestAccepted request.id request.model.config.name]
        have hlength : (e.countIn server).submissions.length = e.submissions.length := rfl
        simp only [launch, hlength]
        split
        · have hqueued : (((e.countIn server).enroll server request callback).report
              [.requestAccepted request.id request.model.config.name]).Driven
                (some e.submissions.length) passing := henrolled
          refine ⟨hqueued.lined, ?_, ?_, hqueued.atGate, hqueued.waits, hqueued.full,
            hqueued.held⟩
          · intro m hm
            right
            rcases hqueued.ready m hm with hself | hqueue
            · rw [Option.some.inj hself]
              exact mem_queue_start.2 (.inr (List.mem_singleton_self _))
            · exact mem_queue_start.2 (.inl hqueue)
          · intro m held next hm
            have hself := Option.some.inj (hqueued.active m held next hm)
            have hphase := (submission_enroll (e.countIn server) server callback request m).trans
              (if_pos hself.symm)
            cases (congrArg Submission.phase hphase).symm.trans hm
        · exact henrolled.cancel (.inr rfl)

/-!
# Closing
-/

theorem isOpen_cancel_of_closed {m : Nat} (h : e.Lined)
    (hm : (e.submission m).phase.isOpen = false) :
    ((e.cancel n).submission m).phase.isOpen = false := by
  unfold Engine.cancel
  split
  · rename_i hopen
    rw [submission_of_submissions (submissions_comeBack _ n)]
    rw [(callsBack_giveUp h hopen).isOpen, hm]
    split <;> rfl
  · exact hm

theorem Driven.cancelEach (h : e.Driven none passing) (ns : List Nat) :
    (ns.foldl Engine.cancel e).Driven none passing ∧ forall m : Nat,
      m ∈ ns ∨ (e.submission m).phase.isOpen = false ->
        ((ns.foldl Engine.cancel e).submission m).phase.isOpen = false := by
  induction ns generalizing e with
  | nil =>
      refine ⟨h, ?_⟩
      intro m hm
      rcases hm with hm | hm
      · cases hm
      · exact hm
  | cons n rest ih =>
      rcases ih (h.cancel (n := n) (.inl rfl)) with ⟨hdriven, hclosed⟩
      refine ⟨hdriven, ?_⟩
      intro m hm
      apply hclosed
      rcases hm with hm | hm
      · rcases List.mem_cons.1 hm with hself | hrest
        · rw [hself]
          exact .inr (isOpen_cancel e n)
        · exact .inl hrest
      · exact .inr (isOpen_cancel_of_closed h.lined hm)

/-- Once all requests have been given up, nothing is left that would have to be driven on. -/
theorem Driven.close (h : e.Driven none passing) : e.close.Driven none passing := by
  have hquit : Driven { e with isRunning := false } none passing :=
    h.of_same rfl rfl (fun _ hj => hj) rfl
  rcases hquit.cancelEach (List.range e.submissions.length) with ⟨hcancelled, hclosed⟩
  have habandoned : forall ns : List Nat, forall e : Engine,
      e.Manages (ns.foldl abandonStop e) := by
    intro ns
    induction ns with
    | nil => exact Manages.refl
    | cons n rest ih => exact fun e => (manages_abandonStop e n).trans (ih _)
  have hmanages := habandoned (List.range ({ e with isRunning := false }.cancelAll).stops.length)
    { e with isRunning := false }.cancelAll
  have hdriven := hmanages.driven hcancelled
  have hnone : forall m : Nat, (e.close.submission m).phase.isOpen = false := by
    intro m
    have hsame : e.close.submission m = ({ e with isRunning := false }.cancelAll).submission m :=
      submission_of_submissions hmanages.submissions m
    rw [hsame]
    apply hclosed
    by_cases hlt : m < e.submissions.length
    · exact .inl (List.mem_range.2 hlt)
    · right
      show (e.submission m).phase.isOpen = false
      rw [phase_eq_closed (Nat.le_of_not_lt hlt)]
      rfl
  refine ⟨hdriven.lined, ?_, ?_, ?_, hdriven.waits, hdriven.full, hdriven.held⟩
  · intro m hm
    have hopen := Phase.isOpen_of_isReady hm
    rw [hnone m] at hopen
    cases hopen
  · intro m held next hm
    have hclosed := hnone m
    rw [hm] at hclosed
    cases hclosed
  · intro m held resume hm
    have hclosed := hnone m
    rw [hm] at hclosed
    cases hclosed

theorem Driven.operate (h : e.Driven none []) (htally : e.Tally) (op : Operation) :
    (e.operate op).Driven none [] := by
  have hsame : forall e' : Engine, e'.servers = e.servers -> e'.submissions = e.submissions ->
      e'.gate = e.gate -> e'.woken = e.woken -> e'.started = e.started -> e'.Driven none [] := by
    intro e' hservers hsubmissions hgate hwoken hstarted
    refine h.of_same hservers hsubmissions ?_ hgate
    intro j hj
    unfold Engine.queue
    rw [hwoken, hstarted]
    exact hj
  cases op with
  | build options allocator scan factory isInside =>
      simp only [Engine.operate]
      split
      · exact h.build options allocator scan factory isInside
      · exact h
  | poll server scan factory => exact (manages_poll e server scan factory).driven h
  | submit server provider callback => exact h.submit server callback provider
  | runAt position => exact (h.runAt htally position).1
  | cancel n => exact h.cancel (.inl rfl)
  | callStop server => exact (manages_callStop e server).driven h
  | beginStop server =>
      have hadded := (manages_addStop e server).driven h
      exact hadded.of_same rfl rfl (fun _ hj => mem_queue_start.2 (.inl hj)) rfl
  | wakeStop call => exact h.of_same rfl rfl (fun _ hj => mem_queue_wake.2 (.inl hj)) rfl
  | abandonStop call => exact (manages_abandonStop e call).driven h
  | dropServer server => exact (manages_dropServer e server).driven h
  | tick seconds => exact hsame _ rfl rfl rfl rfl rfl
  | openGate permits => exact h.openGate permits
  | closeGate => exact h.closeGate
  | dropResponse n =>
      simp only [Engine.operate, dropResponse]
      split
      · rename_i response hphase
        have hreleased : (e.releaseResponse response).Driven none [] := hsame _ rfl rfl rfl rfl rfl
        exact hreleased.setPhase hphase (by simp) (by simp) (by simp [Phase.holdsSlot])
          (by simp [Phase.isReady]) (by simp) (by simp)
      · exact h
  | ignore n =>
      refine h.of_parts (fun _ => ⟨rfl, rfl⟩) rfl ?_ (fun _ hj => hj) rfl
      intro m
      have hspares := (spares_ignore e n).submission m
      have hphase := phase_ignore e n m
      constructor
      · show ((e.ignore n).submission m).server = _
        rw [hspares]
      · exact hphase
  | register server name key offset size =>
      exact (manages_register e server name key offset size).driven h
  | unregister server name => exact (manages_unregister e server name).driven h
  | unregisterAll server => exact (manages_unregisterAll e server).driven h
  | setDirectory d => exact hsame _ rfl rfl rfl rfl rfl
  | report events => exact hsame _ rfl rfl rfl rfl rfl
  | addAllocator plan => exact hsame _ rfl rfl rfl rfl rfl
  | allocate n domain region size =>
      simp only [Engine.operate, allocateFrom]
      split <;> exact hsame _ rfl rfl rfl rfl rfl
  | free n buffer given => exact hsame _ rfl rfl rfl rfl rfl
  | close => exact h.close

theorem driven_reached (ops : List Operation) : (reached ops).Driven none [] := by
  induction ops using List.reverseRecOn with
  | nil => exact driven_empty
  | append_singleton ops op ih =>
      rw [reached_concat]
      exact ih.operate (reachable_reached ops).tally op

/-!
# Running to the end

A scheduler that goes on comes to an end.
-/

/-- Where nothing is left to run and the gate is closed, all requests have come to their end. -/
theorem Driven.isOpen_eq_false (h : e.Driven none []) (hqueue : e.queue = [])
    (hgate : e.gate.isClosed = true) (m : Nat) : (e.submission m).phase.isOpen = false := by
  have hready : forall m : Nat, (e.submission m).phase.isReady = false := by
    intro m
    apply Bool.eq_false_iff.2
    intro hm
    rcases h.ready m hm with hnone | hqueued
    · cases hnone
    · rw [hqueue] at hqueued
      cases hqueued
  have hfree : forall m : Nat, (e.submission m).phase.holdsSlot = false := by
    intro m
    cases hphase : (e.submission m).phase with
    | granted =>
        have hidle := hready m
        rw [hphase] at hidle
        cases hidle
    | letThrough held resume =>
        have hidle := hready m
        rw [hphase] at hidle
        cases hidle
    | inBackend held next => cases h.active m held next hphase
    | atGate held resume =>
        rcases h.atGate m held resume hphase with hpasses | hwaits
        · cases hpasses
        · rw [hgate] at hwaits
          cases hwaits.2
    | _ => rfl
  cases hphase : (e.submission m).phase with
  | answered response => rfl
  | closed => rfl
  | accepted =>
      have hidle := hready m
      rw [hphase] at hidle
      cases hidle
  | waiting =>
      -- A slot that is waited for is held by a request that could go on.
      have hwaits := h.waits m hphase
      have hnone := h.full _ (List.ne_nil_of_mem hwaits)
      rcases h.held _ (lt_of_waiting hwaits) hnone with ⟨holder, _, hholds⟩
      rw [hfree holder] at hholds
      cases hholds
  | _ =>
      have hslot := hfree m
      rw [hphase] at hslot
      cases hslot

/-- Runs a number of jobs, each from the place of the queue that a scheduler picks. -/
def runTurns (pick : Engine -> Nat) : Nat -> Engine -> Engine
  | 0, e => e
  | turns + 1, e => runTurns pick turns (e.runAt (pick e))

def Picks (pick : Engine -> Nat) : Prop :=
  forall e : Engine, e.queue ≠ [] -> pick e < e.queue.length

def Deed.IsRun : Deed -> Prop
  | .enter _ | .unwind _ => True
  | _ => False

theorem moves_runTurns (pick : Engine -> Nat) (turns : Nat) (e : Engine) :
    Moves Deed.IsRun e (runTurns pick turns e) := by
  induction turns generalizing e with
  | zero => exact Moves.refl e
  | succ turns ih =>
      have hfirst : Moves Deed.IsRun e (e.runAt (pick e)) :=
        moves_runAt e (pick e) (fun _ => trivial) fun _ => trivial
      exact hfirst.trans (ih _)

theorem runTurns_of_queue {e : Engine} (h : e.queue = []) (pick : Engine -> Nat) (turns : Nat) :
    runTurns pick turns e = e := by
  induction turns with
  | zero => rfl
  | succ turns ih =>
      have hsame : e.runAt (pick e) = e := by
        unfold Engine.runAt
        rw [h, List.getElem?_nil]
      unfold runTurns
      rw [hsame]
      exact ih

theorem Driven.runTurns (h : e.Driven none []) (hreachable : e.Reachable)
    {pick : Engine -> Nat} (hpick : Picks pick) {turns : Nat} (hturns : e.work ≤ turns) :
    (runTurns pick turns e).Driven none [] ∧ (Engine.runTurns pick turns e).queue = [] := by
  induction turns generalizing e with
  | zero =>
      refine ⟨h, List.eq_nil_of_length_eq_zero ?_⟩
      unfold work at hturns
      show e.queue.length = 0
      omega
  | succ turns ih =>
      by_cases hqueue : e.queue = []
      · rw [runTurns_of_queue hqueue]
        exact ⟨h, hqueue⟩
      · rcases h.runAt hreachable.tally (pick e) with ⟨hdriven, hwork⟩
        have hless := hwork (hpick e hqueue)
        have hmoves : Moves (fun _ => True) e (e.runAt (pick e)) :=
          moves_runAt e (pick e) (fun _ => trivial) fun _ => trivial
        exact ih hdriven (hreachable.moves hmoves) (by omega)

theorem isClosed_runAt (e : Engine) (position : Nat) :
    (e.runAt position).gate.isClosed = e.gate.isClosed := by
  have htaken : (e.dequeue position).gate = e.gate := by
    unfold Engine.dequeue
    split <;> rfl
  unfold Engine.runAt
  split
  · rfl
  · rename_i job hjob
    cases job with
    | request n =>
        show ((e.dequeue position).runRequest n).gate.isClosed = _
        rw [(executes_runRequest _ n).isClosed, htaken]
    | stop n =>
        show ((e.dequeue position).runStop n).gate.isClosed = _
        rw [(manages_runStop _ n).gate, htaken]

theorem isClosed_runTurns (pick : Engine -> Nat) (turns : Nat) (e : Engine) :
    (runTurns pick turns e).gate.isClosed = e.gate.isClosed := by
  induction turns generalizing e with
  | zero => rfl
  | succ turns ih => exact (ih (e.runAt (pick e))).trans (isClosed_runAt e (pick e))

theorem isClosed_closeGate (e : Engine) : e.closeGate.gate.isClosed = true := by
  have hkept : forall (ns : List Nat) (e : Engine),
      (ns.foldl letThrough e).gate.isClosed = e.gate.isClosed := by
    intro ns
    induction ns with
    | nil => exact fun _ => rfl
    | cons n rest ih =>
        intro e
        have hone : (e.letThrough n).gate = e.gate := by
          unfold letThrough
          split <;> rfl
        exact (ih _).trans (congrArg Gate.isClosed hone)
  exact hkept _ _

/-!
# Callbacks after executions
-/

def hasPanicked (e : Engine) (n : Nat) : Prop :=
  exists u : Unwinding, u ∈ e.unwindings ∧ u.submission = n

theorem Move.hasPanicked {deed : Deed} (h : Move deed e e') {n : Nat} (k : e.hasPanicked n) :
    e'.hasPanicked n := by
  rcases k with ⟨u, hu, hn⟩
  rcases h.unwindings with ⟨hsame, _⟩ | ⟨m, slots, _, hmore⟩
  · exact ⟨u, by rw [hsame]; exact hu, hn⟩
  · exact ⟨u, by rw [hmore]; exact List.mem_append_left _ hu, hn⟩

/-- The callbacks that are called while jobs are run are those of requests that were executed, but
for those whose tasks have panicked. -/
theorem Move.isExecuted {deed : Deed} (h : Move deed e e')
    (hdeed : forall m : Nat, deed ≠ .cancel m) {c : Completion} (hc : c ∈ e'.completions) :
    c ∈ e.completions ∨ c.isExecuted = true ∨ e'.hasPanicked c.submission := by
  rcases h.completions with hsame | ⟨made, _, hmade, _, _, _, hexecuted | ⟨hdropped, _⟩⟩
  · rw [hsame] at hc
    exact .inl hc
  · rw [hmade] at hc
    rcases List.mem_append.1 hc with hold | hnew
    · exact .inl hold
    · rw [List.mem_singleton.1 hnew]
      exact .inr (.inl hexecuted)
  · rw [hmade] at hc
    rcases List.mem_append.1 hc with hold | hnew
    · exact .inl hold
    · rw [List.mem_singleton.1 hnew]
      rcases hdropped with hcancel | hunwind
      · exact absurd hcancel (hdeed _)
      · rcases h.unwindings with ⟨_, hnot⟩ | ⟨n, slots, hdeed, hmore⟩
        · exact absurd hunwind (hnot _)
        · cases hdeed.symm.trans hunwind
          refine .inr (.inr ⟨⟨_, slots⟩, ?_, rfl⟩)
          rw [hmore]
          exact List.mem_append_right _ List.mem_cons_self

theorem Moves.isExecuted {also : Deed -> Prop} (h : Moves also e e')
    (hcancel : forall m : Nat, ¬ also (.cancel m)) {c : Completion} (hc : c ∈ e'.completions) :
    c ∈ e.completions ∨ c.isExecuted = true ∨ e'.hasPanicked c.submission := by
  refine Moves.induct (P := fun middle => c ∈ middle.completions ->
    c ∈ e.completions ∨ c.isExecuted = true ∨ middle.hasPanicked c.submission) ?_ h .inl hc
  intro deed middle e' hdeed hmove hmiddle hlast
  have hother : forall m : Nat, deed ≠ .cancel m := by
    rintro m rfl
    rcases hdeed with hnone | hboth
    · cases hnone
    · exact hcancel m hboth
  rcases hmove.isExecuted hother hlast with hbefore | hexecuted
  · exact (hmiddle hbefore).imp_right fun h => h.imp_right hmove.hasPanicked
  · exact .inr hexecuted

/-- Once the gate has been closed, whoever picks the jobs: when all have been run, no request is
open, each callback has been called once, and those of the requests that were open with the
response to an execution, but for requests whose tasks have panicked. -/
theorem all_called_back (ops : List Operation) {pick : Engine -> Nat} (hpick : Picks pick) :
    let e := reached ops
    let last := runTurns pick e.closeGate.work e.closeGate
    last.queue = [] ∧ last.submissions.length = e.submissions.length ∧
      forall m : Nat, m < e.submissions.length ->
        (last.submission m).phase.isOpen = false ∧ last.timesCalled m = 1 ∧
          ((e.submission m).phase.isOpen = true -> exists c : Completion,
            c ∈ last.completions ∧ c.submission = m ∧
              (c.isExecuted = true ∨ last.hasPanicked m)) := by
  intro e last
  have hreachable : e.Reachable := reachable_reached ops
  have hclosed : Moves Deed.IsRun e e.closeGate := moves_closeGate e
  have hturns := moves_runTurns pick e.closeGate.work e.closeGate
  have hmoves : Moves Deed.IsRun e last := hclosed.trans hturns
  rcases (driven_reached ops).closeGate.runTurns (hreachable.moves hclosed) hpick
    (Nat.le_refl _) with ⟨hdriven, hqueue⟩
  have hgate : last.gate.isClosed = true :=
    (isClosed_runTurns pick _ _).trans (isClosed_closeGate e)
  have htally : last.Tally := (hreachable.moves hmoves).tally
  have hlength : last.submissions.length = e.submissions.length := by
    have hquiet : Moves Deed.AcceptsNone e last := by
      apply hmoves.mono
      intro deed hrun callback haccepts
      rw [haccepts] at hrun
      exact hrun
    simpa [callbacks] using congrArg List.length hquiet.callbacks
  refine ⟨hqueue, hlength, ?_⟩
  intro m hm
  have hend := hdriven.isOpen_eq_false hqueue hgate m
  have hcalled := htally.called m (by rw [hlength]; exact hm)
  rw [hend] at hcalled
  refine ⟨hend, hcalled, ?_⟩
  intro hopen
  have hbefore := hreachable.tally.called m hm
  rw [hopen] at hbefore
  have hpos : 0 < last.timesCalled m := by
    rw [hcalled]
    exact Nat.one_pos
  rcases List.countP_pos_iff.1 hpos with ⟨c, hc, hown⟩
  rcases hmoves.isExecuted (fun _ => id) hc with hold | hexecuted
  · have hnone := List.countP_eq_zero.1 hbefore c hold
    exact absurd hown hnone
  · have hself : c.submission = m := of_decide_eq_true hown
    rw [hself] at hexecuted
    exact ⟨c, hc, hself, hexecuted⟩

end Engine

end InferenceEngine
